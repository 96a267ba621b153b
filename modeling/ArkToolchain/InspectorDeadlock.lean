/-
Deadlocks between the hooks and the request handlers of the inspector.

There are three ways into a cycle of waiting threads:

* `ThreadEnd` holds `debuggerEventsLock_` and waits in `Server::Pause` for the handler, which is
  `DebuggerEnable` and waits for `debuggerEventsLock_`;
* the same with a handler that waits for a suspended thread to run its request: the thread cannot
  wake up without `debuggerEventsLock_`;
* two threads at breakpoints wait in `PauseOtherThreads` for the mutex of the other.

Without them everyone waits for lower ranks (`rank_lt_of_waitsFor`).

Main results: `hooks_deadlockFree` and, with breakpoints that are hit, `hits_deadlockFree`; both
follow the chain of who waits for whom.
-/
import ArkToolchain.Fairness
import ArkToolchain.InspectorLocks

namespace ArkToolchain

open InspectorServerPc

open Threads

variable {Θ : Type*}

/-! ### Ranks -/

/-- How far up an agent is in the order of waiting. -/
def AppPc.rank : AppPc Θ → Nat
  | .starting | .ending | .stepping | .waking => 4
  | .pausingServer => 3
  | .locking | .relocking | .pausing _ => 1
  | _ => 0

def InspectorServerPc.rank : InspectorServerPc Θ → Nat
  | .awaiting _ _ => 5
  | .enabling _ | .visit _ _ _ => 2
  | .receiving _ => 1
  | _ => 0

def InspectorPc.rank : Agent Θ → InspectorPc Θ → Nat
  | .app _, .app pc => pc.rank
  | .server, .server pc => pc.rank
  | _, _ => 0

variable {m : LockMode} {pc : AppPc Θ} {t u : Θ}

/-- A holder of a mutex waits for nothing, unless it is the thread itself in
`PauseOtherThreads`. -/
theorem AppPc.rank_of_holds_mutex (h : (.mutex u, m) ∈ pc.holds t) :
    pc.rank = 0 ∨ t = u ∧ ∃ v, pc = .pausing v := by
  cases pc with
  | pausing v =>
    have hu : u = t ∧ m = .exclusive := by simpa [holds] using h
    exact .inr ⟨hu.1.symm, v, rfl⟩
  | starting | ending | stepping | waking | pausingServer | locking | relocking =>
    simp [holds] at h
  | _ => exact .inl rfl

/-- A holder of `debuggerEventsLock_` waits for a mutex at most, unless it
waits for the server. -/
theorem AppPc.rank_of_holds_debuggerEvents (h : (.debuggerEvents, m) ∈ pc.holds t) :
    pc.rank ≤ 1 ∨ pc = .pausingServer := by
  cases pc with
  | pausingServer => exact .inr rfl
  | starting | ending | stepping | waking => simp [holds] at h
  | _ => exact .inl (by simp [rank])

/-- `ThreadEnd` waits for nothing while it pauses the server. -/
theorem AppPc.rank_of_holds_taskExecution (h : (.taskExecution, m) ∈ pc.holds t) :
    m = .shared ∧ pc.rank = 0 := by
  cases pc <;> simp_all [holds, rank]

theorem AppPc.rank_le (pc : AppPc Θ) : pc.rank ≤ 4 := by
  cases pc <;> simp [rank]

variable {pc : InspectorServerPc Θ}

theorem InspectorServerPc.rank_of_holds_mutex (h : (.mutex u, m) ∈ pc.holds) : pc.rank = 0 := by
  cases pc with
  | visiting v u' c => rfl
  | visit v u' c => cases v <;> simp [holds, holdsFor] at h
  | _ => simp [holds] at h

theorem InspectorServerPc.rank_of_not_awaiting (h : ∀ u c, pc ≠ .awaiting u c) : pc.rank ≤ 2 := by
  cases pc with
  | awaiting u c => exact absurd rfl (h u c)
  | _ => simp [rank]

theorem InspectorServerPc.holds_debuggerEvents_ne (h : (.debuggerEvents, m) ∈ pc.holds) :
    ∀ u c, pc ≠ .awaiting u c := by
  rintro u c rfl
  simp [holds] at h

/-! ### Keeping hooks and handlers apart -/

/-- What takes `debuggerEventsLock_`, or waits for an answer. -/
def HandlerOp.blocks : HandlerOp → Bool
  | .request _ | .enable => true
  | _ => false

def Handler.mayBlock (h : Handler Θ) : Bool :=
  (h.method.ops true).any HandlerOp.blocks

def HandlerRun.mayBlock (c : HandlerRun Θ) : Bool :=
  c.ops.any HandlerOp.blocks

/-- The handler waits for `debuggerEventsLock_` or for an answer, or will. -/
def InspectorServerPc.mayBlock : InspectorServerPc Θ → Bool
  | .idle | .receiving _ => false
  | .started h => h.mayBlock
  | .enabling _ | .awaiting _ _ => true
  | .visit (.request _) _ _ | .visiting (.request _) _ _ => true
  | .handling c | .resetting c | .enabled c | .visit _ _ c | .visiting _ _ c => c.mayBlock

/-- The thread is in `PauseOtherThreads`. -/
def AppPc.pausesOthers : AppPc Θ → Bool
  | .pausing _ | .pausingOne _ => true
  | _ => false

def AppPc.inHook : AppPc Θ → Bool
  | .new | .running | .gone => false
  | _ => true

namespace InspectorPc

def inHook : InspectorPc Θ → Bool
  | .app pc => pc.inHook
  | .server _ => false

def mayBlock : InspectorPc Θ → Bool
  | .app _ => false
  | .server pc => pc.mayBlock

def receivesBlocking : InspectorPc Θ → Bool
  | .server (.receiving h) => h.mayBlock
  | _ => false

def pausesOthers : InspectorPc Θ → Bool
  | .app pc => pc.pausesOthers
  | .server _ => false

end InspectorPc

section Waiting

variable [LinearOrder Θ] {s : InspectorStates Θ} {a b : Agent Θ} {m : LockMode}

theorem rank_of_holds_mutex {pc : InspectorPc Θ} (h : (.mutex u, m) ∈ inspectorProgram.holds b pc) :
    pc.rank b = 0 ∨ b = .app u ∧ ∃ v, pc = .app (.pausing v) := by
  obtain ⟨t, p, rfl, rfl, hp⟩ | ⟨p, rfl, rfl, hp⟩ := holds_cases h
  · obtain hrank | ⟨rfl, v, rfl⟩ := AppPc.rank_of_holds_mutex hp
    · exact .inl hrank
    · exact .inr ⟨rfl, v, rfl⟩
  · exact .inl (rank_of_holds_mutex hp)

theorem rank_of_holds_debuggerEvents {pc : InspectorPc Θ}
    (h : (.debuggerEvents, m) ∈ inspectorProgram.holds b pc) :
    pc.rank b ≤ 1 ∨ (∃ t, b = .app t ∧ pc = .app .pausingServer) ∨ b = .server ∧ pc.rank b ≤ 2 := by
  obtain ⟨t, p, rfl, rfl, hp⟩ | ⟨p, rfl, rfl, hp⟩ := holds_cases h
  · obtain hrank | rfl := AppPc.rank_of_holds_debuggerEvents hp
    · exact .inl hrank
    · exact .inr (.inl ⟨t, rfl, rfl⟩)
  · have hne := holds_debuggerEvents_ne hp
    exact .inr (.inr ⟨rfl, rank_of_not_awaiting hne⟩)

theorem rank_of_holds_taskExecution {pc : InspectorPc Θ}
    (h : (.taskExecution, m) ∈ inspectorProgram.holds b pc) :
    (m = .shared ∧ pc.rank b = 0) ∨
      b = .server ∧ ∃ p, pc = .server p ∧ (.taskExecution, m) ∈ p.holds := by
  obtain ⟨t, p, rfl, rfl, hp⟩ | ⟨p, rfl, rfl, hp⟩ := holds_cases h
  · exact .inl (AppPc.rank_of_holds_taskExecution hp)
  · exact .inr ⟨rfl, p, rfl, hp⟩

/-- No thread waits for the server in `ThreadEnd` while a handler waits, or will
wait, for `debuggerEventsLock_` or for an answer. -/
def EndsFree (s : InspectorStates Θ) : Prop :=
  ∀ t, s.pcs (.app t) = .app .pausingServer → (s.pcs .server).mayBlock = false

/-- At most one thread is in `PauseOtherThreads`. -/
def HitsAlone (s : InspectorStates Θ) : Prop :=
  ∀ t u, (s.pcs (.app t)).pausesOthers = true → (s.pcs (.app u)).pausesOthers = true → t = u

variable {r : InspectorLock Θ} {m' : LockMode}

theorem rank_lt_of_app_wants {pc p : AppPc Θ} (hends : EndsFree s) (hhits : HitsAlone s)
    (hpc : s.pcs (.app t) = .app pc) (hw : pc.wants t = some ((r, m), p))
    (hb : (r, m') ∈ inspectorProgram.holds b (s.pcs b)) (hm : m.compatible m' = false) :
    (s.pcs b).rank b < pc.rank := by
  have hevents : r = .debuggerEvents → (s.pcs b).rank b < 4 := by
    rintro rfl
    obtain h | ⟨u, rfl, h⟩ | ⟨-, h⟩ := rank_of_holds_debuggerEvents hb
    · omega
    · rw [h]
      show 3 < 4
      omega
    · omega
  have hown : (.mutex t, m') ∈ inspectorProgram.holds b (s.pcs b) → pc.pausesOthers = false →
      (s.pcs b).rank b < 1 := by
    intro hb hpauses
    obtain h | ⟨rfl, v, h⟩ := rank_of_holds_mutex hb
    · omega
    · -- `t` would hold its own mutex already
      rw [hpc] at h
      cases h
      cases hpauses
  cases pc with
  | starting | ending | stepping | waking => cases hw; exact hevents rfl
  | locking | relocking => cases hw; exact hown hb rfl
  | pausingServer =>
    cases hw
    obtain ⟨rfl, -⟩ | ⟨rfl, q, hq, -⟩ := rank_of_holds_taskExecution hb
    · cases hm
    · -- the handler waits for a mutex, if at all
      have hfree := hends t hpc
      rw [hq] at hfree ⊢
      have hrank : q.rank ≤ 2 := by
        apply rank_of_not_awaiting
        rintro u c rfl
        cases hfree
      exact Nat.lt_succ_of_le hrank
  | pausing u =>
    obtain ⟨hut, hx, rfl⟩ := AppPc.wants_pausing hw
    cases hx
    obtain h | ⟨rfl, v, h⟩ := rank_of_holds_mutex hb
    · rw [h]
      exact Nat.zero_lt_one
    · -- two threads in `PauseOtherThreads`
      refine absurd (hhits u t ?_ ?_) hut
      · rw [h]
        rfl
      · rw [hpc]
        rfl
  | _ => cases hw

theorem rank_lt_of_server_wants {pc p : InspectorServerPc Θ} (hends : EndsFree s)
    (hpc : s.pcs .server = .server pc) (hw : pc.wants = some ((r, m), p))
    (hb : (r, m') ∈ inspectorProgram.holds b (s.pcs b)) : (s.pcs b).rank b < pc.rank := by
  cases pc with
  | receiving h =>
    cases hw
    obtain ⟨-, h⟩ | ⟨rfl, q, hq, hmem⟩ := rank_of_holds_taskExecution hb
    · rw [h]
      exact Nat.zero_lt_one
    · -- the server thread holds nothing here
      rw [hpc] at hq
      cases hq
      cases hmem
  | enabling c =>
    cases hw
    obtain h | ⟨t, rfl, h⟩ | ⟨rfl, -⟩ := rank_of_holds_debuggerEvents hb
    · exact Nat.lt_succ_of_le h
    · have hfree := hends t h
      rw [hpc] at hfree
      cases hfree
    · rw [hpc] at hb
      simp [inspectorProgram, holds] at hb
  | visit v u c =>
    cases hw
    obtain h | ⟨rfl, v, h⟩ := rank_of_holds_mutex hb
    · rw [h]
      exact Nat.zero_lt_two
    · rw [h]
      exact Nat.one_lt_two
  | _ => cases hw

/-- **Ranks** decrease along waiting. -/
theorem rank_lt_of_waitsFor (hs : inspectorProgram.Consistent s) (hends : EndsFree s)
    (hhits : HitsAlone s) (h : inspectorProgram.WaitsFor s a b) :
    (s.pcs b).rank b < (s.pcs a).rank a := by
  obtain ⟨r, m, p, m', hw, hheld, hm⟩ | hawaits := h
  · have hb := (hs.agrees b (r, m')).mp hheld
    obtain ⟨t, pc, q, rfl, hpc, -, hq⟩ | ⟨pc, q, rfl, hpc, -, hq⟩ := wants_cases hw
    · rw [hpc]
      exact rank_lt_of_app_wants hends hhits hpc hq hb hm
    · rw [hpc]
      exact rank_lt_of_server_wants hends hpc hq hb
  · -- the server thread waits for an answer
    obtain ⟨u, c, rfl, rfl, hpc⟩ := awaits_cases hawaits
    have hrank : (s.pcs (.app u)).rank (.app u) ≤ 4 := by
      rcases s.pcs (.app u) with pc | pc
      · exact pc.rank_le
      · exact Nat.zero_le 4
    rw [hpc]
    exact Nat.lt_succ_of_le hrank

end Waiting

/-! ### What one step does to the conditions -/

section Steps

variable [LinearOrder Θ] {s s' : InspectorStates Θ} {a : Agent Θ} {i : InspectorInput Θ}
  {x : LockUse Θ} {t : Θ}

theorem AppPc.wants_pausingServer {pc : AppPc Θ} (h : pc.wants t = some (x, .pausingServer)) :
    pc = .ending := by
  cases pc with
  | ending => rfl
  | pausing u =>
    obtain ⟨-, -, heq⟩ := wants_pausing h
    cases heq
  | _ => cases h

variable {rel : Option (LockUse Θ)}

theorem AppPc.Acts.ne_pausingServer {d d' : InspectorData Θ} {pc pc' : AppPc Θ}
    (h : Acts t d pc d' rel pc') : pc' ≠ .pausingServer := by
  have hnext : ∀ prev, pauseNext d prev ≠ .pausingServer :=
    pauseNext_induction (P := (· ≠ .pausingServer)) (by simp) (by simp) d
  cases h with
  | report hit =>
    cases hit
    · simp
    · exact hnext none
  | skip => exact hnext (some t)
  | pauseOne u hu => exact hnext (some u)
  | _ => simp

/-- `PauseOtherThreads` begins with the report of a hit. -/
theorem AppPc.Acts.pausesOthers {d d' : InspectorData Θ} {pc pc' : AppPc Θ}
    (h : Acts t d pc d' rel pc') (hpc' : pc'.pausesOthers = true) :
    pc.pausesOthers = true ∨ pc = .reporting true := by
  cases h with
  | report hit =>
    cases hit
    · cases hpc'
    · exact .inr rfl
  | skip | pauseOne u hu => exact .inl rfl
  | _ => cases hpc'

theorem AppPc.pausesOthers_of_wants {pc pc' : AppPc Θ} (h : pc.wants t = some (x, pc'))
    (hpc' : pc'.pausesOthers = true) : pc.pausesOthers = true := by
  cases pc with
  | pausing u => rfl
  | starting | ending | pausingServer | stepping | locking | waking | relocking =>
    cases h
    cases hpc'
  | _ => cases h

theorem InspectorMethod.any_blocks_ops (method : InspectorMethod) (found : Bool)
    (h : (method.ops true).any HandlerOp.blocks = false) :
    (method.ops found).any HandlerOp.blocks = false := by
  cases found
  · cases method <;> simp_all [ops, HandlerOp.blocks]
  · exact h

namespace InspectorServerPc

variable {d : InspectorData Θ} {c : HandlerRun Θ} {v : Visit}

theorem mayBlock_visitNext {prev skip : Option Θ} {after : InspectorServerPc Θ}
    (hv : ∀ u, (visit v u c).mayBlock = false) (hafter : after.mayBlock = false) :
    (visitNext d v prev skip c after).mayBlock = false := by
  refine visitNext_induction (P := fun pc => pc.mayBlock = false) ?_ hafter
  intro u _
  exact hv u

theorem mayBlock_dispatch {op : HandlerOp} (hop : op.blocks = false) (hc : c.mayBlock = false) :
    (dispatch d c op).mayBlock = false := by
  cases op with
  | call resume =>
    refine visitRecord_induction (P := fun pc => pc.mayBlock = false) ?_ hc
    intro u _
    exact hc
  | sweep resume | check => exact mayBlock_visitNext (fun _ => hc) hc
  | request cached | enable => cases hop

theorem mayBlock_atThread {found : Bool} (h : (visiting v u c).mayBlock = false) :
    (atThread d u c found v).2.mayBlock = false := by
  cases v with
  | call resume | requestDone => exact h
  | sweep resume | reset => exact mayBlock_visitNext (fun _ => h) h
  | check =>
    cases found
    · exact mayBlock_visitNext (fun _ => h) h
    · rfl
  | request cached => cases h

theorem Acts.mayBlock {d' : InspectorData Θ} {pc pc' : InspectorServerPc Θ}
    (h : Acts d pc d' rel pc') (hpc : pc.mayBlock = false) : pc'.mayBlock = false := by
  cases h with
  | receive h | finish record => rfl
  | lookUp h => exact InspectorMethod.any_blocks_ops h.method _ hpc
  | dispatch record op ops =>
    have hops : op.blocks = false ∧ ops.any HandlerOp.blocks = false := by
      simpa [mayBlock, HandlerRun.mayBlock] using hpc
    exact mayBlock_dispatch hops.1 hops.2
  | reset c => exact mayBlock_visitNext (fun _ => hpc) hpc
  | visit v u c found => exact mayBlock_atThread hpc
  | answered u c h => cases hpc
  | enabled c => exact hpc

end InspectorServerPc

/-- `ThreadEnd` takes `debuggerEventsLock_` only while no handler waits or will
wait for this lock or for an answer, and such a handler is begun only while no
thread waits for the server in `ThreadEnd`. -/
def EndsApart (s : InspectorStates Θ) (a : Agent Θ) (_ : InspectorInput Θ) : Prop :=
  (s.pcs a = .app .ending → (s.pcs .server).mayBlock = false) ∧
    ((s.pcs a).receivesBlocking = true → ∀ t, s.pcs (.app t) ≠ .app .pausingServer)

/-- A thread begins `PauseOtherThreads` only while no other thread is in it. -/
def HitsApart (s : InspectorStates Θ) (a : Agent Θ) (_ : InspectorInput Θ) : Prop :=
  s.pcs a = .app (.reporting true) → ∀ u, (s.pcs (.app u)).pausesOthers = false

theorem EndsFree.step (hs : EndsFree s) (h : InspectorStep s a s') (hapart : EndsApart s a i) :
    EndsFree s' := by
  intro t ht
  obtain hserver | ⟨rfl, pc, pc', hpc, hpc', hstep⟩ := h.pcs_server
  · rw [hserver]
    obtain happ | ⟨rfl, pc, pc', hpc, hpc', hstep⟩ := h.pcs_app t
    · rw [happ] at ht
      exact hs t ht
    · rw [hpc'] at ht
      cases ht
      obtain ⟨x, hw⟩ | ⟨d, rel, hacts⟩ := hstep
      · rw [AppPc.wants_pausingServer hw] at hpc
        exact hapart.1 hpc
      · exact absurd rfl hacts.ne_pausingServer
  · rw [h.pcs_app_of_server t] at ht
    have hfree : pc.mayBlock = false := by
      have := hs t ht
      rw [hpc] at this
      exact this
    rw [hpc']
    obtain ⟨x, hw⟩ | ⟨d, rel, hacts⟩ := hstep
    · cases pc with
      | receiving h =>
        cases hw
        by_contra hblock
        rw [Bool.not_eq_false] at hblock
        refine hapart.2 ?_ t ht
        rw [hpc]
        exact hblock
      | enabling c => cases hfree
      | visit v u c =>
        cases hw
        cases v <;> exact hfree
      | _ => cases hw
    · exact hacts.mayBlock hfree

theorem HitsAlone.step (hs : HitsAlone s) (h : InspectorStep s a s') (hapart : HitsApart s a i) :
    HitsAlone s' := by
  -- a thread in `PauseOtherThreads` was there before, or begins it alone
  have hbefore : ∀ t, (s'.pcs (.app t)).pausesOthers = true →
      (s.pcs (.app t)).pausesOthers = true ∨
        a = .app t ∧ ∀ u, (s.pcs (.app u)).pausesOthers = false := by
    intro t ht
    obtain happ | ⟨rfl, pc, pc', hpc, hpc', hstep⟩ := h.pcs_app t
    · rw [happ] at ht
      exact .inl ht
    · rw [hpc'] at ht
      obtain ⟨x, hw⟩ | ⟨d, rel, hacts⟩ := hstep
      · rw [hpc]
        exact .inl (AppPc.pausesOthers_of_wants hw ht)
      · obtain hpauses | rfl := hacts.pausesOthers ht
        · rw [hpc]
          exact .inl hpauses
        · exact .inr ⟨rfl, hapart hpc⟩
  intro t u ht hu
  obtain ht | ⟨ht, hnone⟩ := hbefore t ht <;> obtain hu | ⟨hu, hnone'⟩ := hbefore u hu
  · exact hs t u ht hu
  · rw [hnone' t] at ht
    cases ht
  · rw [hnone u] at hu
    cases hu
  · rw [ht] at hu
    cases hu
    rfl

end Steps

/-! ### Runs -/

section Runs

variable [LinearOrder Θ]

/-- The hooks and handlers that can wait for each other are kept apart. -/
def HooksApart (s : InspectorStates Θ) (a : Agent Θ) (i : InspectorInput Θ) : Prop :=
  EndsApart s a i ∧ HitsApart s a i

theorem endsFree_start : EndsFree (@inspectorStart Θ _) := by
  intro t ht
  cases ht

theorem hitsAlone_start : HitsAlone (@inspectorStart Θ _) := by
  intro t u ht
  cases ht

/-- **No deadlock** between hooks and handlers that are kept apart: in every
state of such a run there is no cycle of threads each of which waits for a
lock that the next one holds, or for its answer. -/
theorem hooks_deadlockFree (schedule : List (Agent Θ × InspectorInput Θ))
    (h : EachStep inspectorProgram.next HooksApart inspectorStart schedule) :
    Always inspectorProgram.next (fun s => ¬ inspectorProgram.Deadlocked s)
      inspectorStart schedule := by
  refine EachStep.always
    (I := fun s => inspectorProgram.Consistent s ∧ EndsFree s ∧ HitsAlone s) ?_ ?_
    ⟨consistent_inspectorStart, endsFree_start, hitsAlone_start⟩ h
  · rintro s ⟨hs, hends, hhits⟩
    apply LockProgram.not_deadlocked_of_rank fun a => (s.pcs a).rank a
    intro a b hwaits
    exact rank_lt_of_waitsFor hs hends hhits hwaits
  · rintro s a i s' ⟨hs, hends, hhits⟩ hstep ⟨hends', hhits'⟩
    have hcases := inspectorStep_of_step hstep
    exact ⟨hs.step hstep, hends.step hcases hends', hhits.step hcases hhits'⟩

/-- `t` is in `PauseOtherThreads`, holds its own mutex and waits for that of
`u`, which `u` holds. -/
structure PausesFor (s : InspectorStates Θ) (t u : Θ) : Prop where
  pausing : s.pcs (.app t) = .app (.pausing u)
  ne : u ≠ t
  holds : (.app t, .mutex t, .exclusive) ∈ s.shared.held
  held : (.app u, .mutex u, .exclusive) ∈ s.shared.held

variable {s : InspectorStates Θ}

/-- Two threads that follow each other in a cycle are both in
`PauseOtherThreads`. -/
theorem HitsAlone.not_cycle (hs : HitsAlone s) (t : Θ) : ¬ Relation.TransGen (PausesFor s) t t := by
  intro hcycle
  obtain ⟨u, htu, hut⟩ := Relation.TransGen.head'_iff.mp hcycle
  have hpauses : ∀ {v w}, PausesFor s v w → (s.pcs (.app v)).pausesOthers = true := by
    intro v w h
    rw [h.pausing]
    rfl
  obtain rfl | ⟨v, huv, -⟩ := Relation.ReflTransGen.cases_head hut
  · exact htu.ne rfl
  · exact htu.ne (hs u t (hpauses huv) (hpauses htu))

theorem canStep_of_reporting {hit : Bool} (h : s.pcs (.app t) = .app (.reporting hit)) :
    s.CanStep inspectorProgram.next (.app t) := by
  apply canStep_of_next (i := .goOn)
  rw [h]
  rfl

/-- **Breakpoints**: if each thread begins `PauseOtherThreads` only while no
other one is in it, then there is no cycle of threads that wait there for each
other's mutexes; and every thread at a breakpoint eventually reports its pause,
in every run that is fair to it. -/
theorem hits_deadlockFree (schedule : List (Agent Θ × InspectorInput Θ))
    (h : EachStep inspectorProgram.next HitsApart inspectorStart schedule) :
    Always inspectorProgram.next
        (fun s => ¬ ∃ t, Relation.TransGen (PausesFor s) t t) inspectorStart schedule ∧
      ∀ (run : InfiniteRun (@inspectorProgram Θ _).next) (t : Θ) (n : Nat),
        run.Fair (.app t) (fun pc => pc.inHook = true) →
        (run.states n).pcs (.app t) = .app (.reporting true) →
        ∃ m, n ≤ m ∧ run.StepsAt (.app t) m ∧
          (run.states m).pcs (.app t) = .app (.reporting true) := by
  constructor
  · refine EachStep.always (I := HitsAlone) ?_ ?_ hitsAlone_start h
    · rintro s hs ⟨t, hcycle⟩
      exact hs.not_cycle t hcycle
    · intro s a i s' hs hstep hapart
      exact hs.step (inspectorStep_of_step hstep) hapart
  · intro run t n hfair hn
    refine hfair.leadsTo (P := fun s => s.pcs (.app t) = .app (.reporting true)) ?_ ?_ hn
    · intro m _ hm
      refine ⟨?_, canStep_of_reporting hm⟩
      rw [hm]
      rfl
    · intro m _ hm hnot
      rw [InfiniteRun.pcs_succ hnot]
      exact hm

end Runs

/-! ### Schedules -/

section Schedules

instance decidableHitsApart (s : InspectorStates Bool) (a : Agent Bool)
    (i : InspectorInput Bool) : Decidable (HitsApart s a i) :=
  inferInstanceAs (Decidable (_ → ∀ _ : Bool, _ = _))

instance decidableHooksApart (s : InspectorStates Bool) (a : Agent Bool)
    (i : InspectorInput Bool) : Decidable (HooksApart s a i) :=
  inferInstanceAs (Decidable (((_ → _) ∧ (_ → ∀ _ : Bool, _ ≠ _)) ∧ HitsApart s a i))

/-- The first of two threads is `false`, the second `true`. -/
abbrev InspectorSchedule := List (Agent Bool × InspectorInput Bool)

def threadStarts (t : Bool) : InspectorSchedule :=
  (.app t, .threadStart) :: List.replicate 4 (.app t, .goOn)

def threadHits (t : Bool) : InspectorSchedule :=
  [(.app t, .singleStep), (.app t, .goOn), (.app t, .goOn), (.app t, .pause true)]

/-- The first thread stops at a breakpoint, pauses the other one and sleeps; a
client asks for its properties. -/
def hitAndRequest : InspectorSchedule :=
  threadStarts false ++ threadStarts true ++ threadHits false ++
    List.replicate 6 (.app false, .goOn) ++
    (.server, .receive ⟨.getProperties, some false⟩) :: List.replicate 5 (.server, .goOn)

/-- The first thread answers, and the second one ends. -/
def requestThenEnd : InspectorSchedule :=
  hitAndRequest ++ List.replicate 6 (.app false, .goOn) ++ List.replicate 4 (.server, .goOn) ++
    (.app true, .threadEnd) :: List.replicate 5 (.app true, .goOn)

theorem requestThenEnd_deadlockFree :
    (run inspectorProgram.next inspectorStart requestThenEnd).isSome = true ∧
      EachStep inspectorProgram.next HooksApart inspectorStart requestThenEnd ∧
      Always inspectorProgram.next (fun s => ¬ inspectorProgram.Deadlocked s)
        inspectorStart requestThenEnd := by
  have heach : EachStep inspectorProgram.next HooksApart inspectorStart
      requestThenEnd := by decide +kernel
  exact ⟨by decide +kernel, heach, hooks_deadlockFree requestThenEnd heach⟩

/-- The second thread ends before the first one answers. -/
def endDuringRequest : InspectorSchedule :=
  hitAndRequest ++ [(.app true, .threadEnd), (.app true, .goOn), (.app false, .goOn)]

/-- A thread ends while the handler of `Debugger.enable` runs. -/
def endDuringEnable : InspectorSchedule :=
  threadStarts false ++
    [(.server, .receive ⟨.debuggerEnable, none⟩), (.server, .goOn), (.app false, .threadEnd),
      (.app false, .goOn), (.server, .goOn), (.server, .goOn)]

/-- Two deadlocks: the handler waits for `ThreadEnd` and `ThreadEnd` for the
handler; and with a thread between them whose answer the handler awaits and
that cannot wake up during `ThreadEnd`. -/
theorem threadEnd_deadlocks :
    (∃ s, run inspectorProgram.next inspectorStart endDuringEnable = some s ∧
      inspectorProgram.Deadlocked s) ∧
    ∃ s, run inspectorProgram.next inspectorStart endDuringRequest = some s ∧
      inspectorProgram.Deadlocked s := by
  constructor
  · refine ⟨_, rfl, .server, .head (b := .app false) ?_ (.single ?_)⟩
    · exact .inl ⟨.debuggerEvents, .exclusive, _, .exclusive, rfl, by decide, rfl⟩
    · exact .inl ⟨.taskExecution, .shared, _, .exclusive, rfl, by decide, rfl⟩
  · refine ⟨_, rfl, .server, .head (b := .app false) ?_ (.head (b := .app true) ?_ (.single ?_))⟩
    · exact .inr rfl
    · exact .inl ⟨.debuggerEvents, .shared, _, .exclusive, rfl, by decide, rfl⟩
    · exact .inl ⟨.taskExecution, .shared, _, .exclusive, rfl, by decide, rfl⟩

theorem requestThenEnd_hits :
    EachStep inspectorProgram.next HitsApart inspectorStart requestThenEnd ∧
      Always inspectorProgram.next
        (fun s => ¬ ∃ t, Relation.TransGen (PausesFor s) t t) inspectorStart requestThenEnd := by
  have heach : EachStep inspectorProgram.next HitsApart inspectorStart
      requestThenEnd := by decide +kernel
  exact ⟨heach, (hits_deadlockFree requestThenEnd heach).1⟩

/-- Two threads stop at breakpoints at the same time. -/
def twoHits : InspectorSchedule :=
  threadStarts false ++ threadStarts true ++ threadHits false ++ threadHits true ++
    [(.app false, .goOn), (.app false, .goOn), (.app true, .goOn)]

/-- Each of the two waits for the mutex of the other. -/
theorem twoHits_cycle :
    ∃ s, run inspectorProgram.next inspectorStart twoHits = some s ∧
      Relation.TransGen (PausesFor s) false false := by
  refine ⟨_, rfl, .head (b := true) ?_ (.single ?_)⟩
  all_goals
    exact ⟨rfl, by decide, by decide, by decide⟩

end Schedules

end ArkToolchain
