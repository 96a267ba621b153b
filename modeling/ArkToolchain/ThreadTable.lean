/-
The table of threads of the inspector, and the handlers that use it.

A handler looks up the thread of its session, or loops over `threads_`.  The first is safe:
`ThreadEnd` removes the session while it holds `taskExecution_`, and erases the thread
afterwards. So is the loop of `DebuggerEnable`, under `debuggerEventsLock_`.  The loops of
`Pause` and `Continue` hold nothing that `ThreadStart` and `ThreadEnd` need to insert and erase
threads.

Main result: `threads_alive_iff`.
-/
import ArkToolchain.InspectorLocks

namespace ArkToolchain

open AppPc

open Threads

variable {Θ : Type*}

/-! ### Uses and changes of the table -/

/-- The thread inserts its record into the table, or erases it. -/
def AppPc.changesTable : AppPc Θ → Bool
  | .inserting | .erasing => true
  | _ => false

def Visit.isLoop : Visit → Bool
  | .sweep _ | .check | .reset => true
  | .call _ | .request _ | .requestDone => false

namespace InspectorServerPc

/-- The thread whose record the handler uses. -/
def uses : InspectorServerPc Θ → Option Θ
  | .visit _ u _ | .visiting _ u _ | .awaiting u _ => some u
  | _ => none

/-- The handler is in a loop over the table. -/
def inLoop : InspectorServerPc Θ → Bool
  | .visit v _ _ | .visiting v _ _ => v.isLoop
  | _ => false

/-- `debuggableThread` of the handler. -/
def record : InspectorServerPc Θ → Option Θ
  | .idle | .receiving _ | .started _ => none
  | .handling c | .enabling c | .resetting c | .enabled c => c.record
  | .visit _ _ c | .visiting _ _ c | .awaiting _ c => c.record

/-- What a handler relies on: the thread it has looked up has a session and is
in the table, and so is the thread whose record it uses, which is the one of a
loop or the one that was looked up. -/
structure Fits (d : InspectorData Θ) (pc : InspectorServerPc Θ) : Prop where
  found : ∀ u, pc.record = some u → u ∈ d.sessions ∧ u ∈ d.threads
  alive : ∀ u, pc.uses = some u → u ∈ d.threads
  looped : ∀ u, pc.uses = some u → pc.inLoop = true ∨ pc.record = some u

variable {pc : InspectorServerPc Θ} {u : Θ}

/-- A handler that has looked up a thread holds `taskExecution_`. -/
theorem holds_of_record (h : pc.record = some u) : (.taskExecution, .exclusive) ∈ pc.holds := by
  cases pc with
  | idle | receiving | started => cases h
  | visit v | visiting v => cases v <;> simp [holds, holdsFor]
  | _ => simp [holds]

variable {d : InspectorData Θ} {c : HandlerRun Θ}

theorem fits_handling (hc : ∀ u, c.record = some u → u ∈ d.sessions ∧ u ∈ d.threads)
    (ops : List HandlerOp) : Fits d (.handling { c with ops := ops }) :=
  ⟨hc, fun _ h => absurd h (by simp [uses]), fun _ h => absurd h (by simp [uses])⟩

theorem fits_visitRecord (hc : ∀ u, c.record = some u → u ∈ d.sessions ∧ u ∈ d.threads)
    (v : Visit) : Fits d (visitRecord v c) := by
  refine visitRecord_induction ?_ (fits_handling hc c.ops)
  intro u hu
  refine ⟨hc, ?_, ?_⟩
  · rintro w ⟨⟩
    exact (hc u hu).2
  · rintro w ⟨⟩
    exact .inr hu

variable {d' : InspectorData Θ}

theorem Fits.congr (h : Fits d pc) (hthreads : d'.threads = d.threads)
    (hsessions : d'.sessions = d.sessions) : Fits d' pc := by
  refine ⟨?_, ?_, h.looped⟩
  · rw [hthreads, hsessions]
    exact h.found
  · rw [hthreads]
    exact h.alive

variable {pc' : InspectorServerPc Θ} {x : LockUse Θ}

theorem fits_of_wants (h : pc.wants = some (x, pc')) (hpc : Fits d pc) : Fits d pc' := by
  cases pc with
  | receiving => cases h; exact ⟨nofun, nofun, nofun⟩
  | enabling c => cases h; exact ⟨hpc.found, nofun, nofun⟩
  | visit v u c => cases h; exact ⟨hpc.found, hpc.alive, hpc.looped⟩
  | _ => cases h

theorem inLoop_of_wants (h : pc.wants = some (x, pc')) : pc'.inLoop = pc.inLoop := by
  cases pc with
  | receiving | enabling c | visit v u c => cases h; rfl
  | _ => cases h

variable [LinearOrder Θ] {v : Visit}

theorem fits_visitNext (hc : ∀ u, c.record = some u → u ∈ d.sessions ∧ u ∈ d.threads)
    (hv : v.isLoop = true) {prev skip : Option Θ} {after : InspectorServerPc Θ}
    (hafter : Fits d after) : Fits d (visitNext d v prev skip c after) := by
  refine visitNext_induction ?_ hafter
  intro u hu
  refine ⟨hc, ?_, fun _ _ => .inl hv⟩
  rintro w ⟨⟩
  exact hu

theorem atThread_tables (u : Θ) (found : Bool) (v : Visit) :
    (atThread d u c found v).1.threads = d.threads ∧
      (atThread d u c found v).1.sessions = d.sessions := by
  cases v with
  | call resume | sweep resume => cases resume <;> simp [atThread]
  | request cached =>
    obtain h | ⟨ops, h⟩ := atThread_request d u c found cached <;> simp [h]
  | _ => exact ⟨rfl, rfl⟩

variable {rel : Option (LockUse Θ)}

theorem Acts.tables_eq (h : Acts d pc d' rel pc') :
    d'.threads = d.threads ∧ d'.sessions = d.sessions := by
  cases h with
  | visit v u c found => exact atThread_tables u found v
  | _ => exact ⟨rfl, rfl⟩

theorem fits_atThread (h : Fits d (.visiting v u c)) (found : Bool) :
    Fits d (atThread d u c found v).2 := by
  have hc := h.found
  cases v with
  | call resume | requestDone => exact fits_handling hc c.ops
  | sweep resume => exact fits_visitNext hc rfl (fits_handling hc c.ops)
  | check =>
    cases found
    · exact fits_visitNext hc rfl (fits_handling hc c.ops)
    · exact fits_handling hc []
  | reset =>
    refine fits_visitNext hc rfl ⟨hc, ?_, ?_⟩
    all_goals
      rintro w ⟨⟩
  | request cached =>
    obtain heq | ⟨ops, heq⟩ := atThread_request d u c found cached
    · rw [heq]
      refine ⟨hc, h.alive, ?_⟩
      intro w hw
      -- a request is made to the thread that was looked up
      obtain hloop | hrecord := h.looped w hw
      · cases hloop
      · exact .inr hrecord
    · rw [heq]
      exact fits_handling hc ops

theorem Acts.fits (h : Acts d pc d' rel pc') (hpc : Fits d pc) : Fits d' pc' := by
  refine Fits.congr (d := d) ?_ h.tables_eq.1 h.tables_eq.2
  have hc := hpc.found
  cases h with
  | receive h | finish record => exact ⟨nofun, nofun, nofun⟩
  | lookUp h =>
    refine fits_handling (c := ⟨InspectorServerPc.lookUp d h, []⟩) ?_ _
    intro u hu
    obtain ⟨-, hu⟩ := Option.filter_eq_some_iff.mp hu
    simpa using hu
  | dispatch record op ops =>
    cases op with
    | call resume | request cached => exact fits_visitRecord (c := ⟨record, ops⟩) hc _
    | sweep resume =>
      exact fits_visitNext (c := ⟨record, ops⟩) hc rfl (fits_handling hc ops)
    | check => exact fits_visitNext (c := ⟨record, ops⟩) hc rfl (fits_handling hc ops)
    | enable => exact ⟨hc, nofun, nofun⟩
  | reset c => exact fits_visitNext hc rfl ⟨hc, nofun, nofun⟩
  | visit v u c found => exact fits_atThread hpc found
  | answered u c h =>
    refine ⟨hc, hpc.alive, ?_⟩
    intro w hw
    obtain hloop | hrecord := hpc.looped w hw
    · cases hloop
    · exact .inr hrecord
  | enabled c => exact fits_handling hc c.ops

end InspectorServerPc

/-! ### What one step does to the tables -/

/-- The hooks change the table under `debuggerEventsLock_`. -/
theorem AppPc.holds_of_changesTable {t : Θ} {pc : AppPc Θ} (h : pc.changesTable = true) :
    (.debuggerEvents, .exclusive) ∈ pc.holds t := by
  cases pc with
  | inserting | erasing => simp [holds]
  | _ => cases h

section Steps

variable [LinearOrder Θ] {t : Θ}

theorem AppPc.Acts.tables {d d' : InspectorData Θ} {pc pc' : AppPc Θ} {rel : Option (LockUse Θ)}
    (h : Acts t d pc d' rel pc') :
    (d'.threads = d.threads ∧ d'.sessions = d.sessions ∧ pc'.changesTable = false) ∨
      (pc = .attaching ∧ pc' = .inserting ∧
        d' = { d with sessions := t :: d.sessions }) ∨
      (pc = .inserting ∧ pc' = .inserted ∧
        d' = { d with threads := d.threads.orderedInsert (· ≤ ·) t }) ∨
      (pc = .detaching ∧ pc' = .erasing ∧
        d' = { d with sessions := d.sessions.filter (· ≠ t) }) ∨
      (pc = .erasing ∧ pc' = .ended ∧ d' = { d with threads := d.threads.filter (· ≠ t) }) := by
  have hnext : ∀ prev, (pauseNext d prev).changesTable = false :=
    pauseNext_induction (P := fun pc => pc.changesTable = false) (fun _ => rfl) rfl d
  cases h with
  | attach => exact .inr (.inl ⟨rfl, rfl, rfl⟩)
  | insert => exact .inr (.inr (.inl ⟨rfl, rfl, rfl⟩))
  | detach => exact .inr (.inr (.inr (.inl ⟨rfl, rfl, rfl⟩)))
  | erase => exact .inr (.inr (.inr (.inr ⟨rfl, rfl, rfl⟩)))
  | report hit =>
    cases hit
    · exact .inl ⟨rfl, rfl, rfl⟩
    · exact .inl ⟨rfl, rfl, hnext none⟩
  | skip => exact .inl ⟨rfl, rfl, hnext (some t)⟩
  | pauseOne u hu => exact .inl ⟨rfl, rfl, hnext (some u)⟩
  | _ => exact .inl ⟨by simp, by simp, rfl⟩

theorem AppPc.changesTable_of_wants {pc pc' : AppPc Θ} {x : LockUse Θ}
    (h : pc.wants t = some (x, pc')) : pc'.changesTable = false := by
  cases pc with
  | starting | ending | pausingServer | stepping | locking | waking | relocking =>
    cases h
    rfl
  | pausing u =>
    obtain ⟨-, -, rfl⟩ := wants_pausing h
    rfl
  | _ => cases h

namespace InspectorServerPc

/-- The next step of the handler is the first one of a loop of `Pause` or
`Continue`. -/
def beginsLoop (d : InspectorData Θ) : InspectorServerPc Θ → Bool
  | .handling ⟨record, op :: ops⟩ => (dispatch d ⟨record, ops⟩ op).inLoop
  | _ => false

theorem inLoop_atThread {d : InspectorData Θ} {u : Θ} {c : HandlerRun Θ} {found : Bool}
    {v : Visit} (h : (atThread d u c found v).2.inLoop = true) : v.isLoop = true := by
  cases v with
  | call resume | requestDone => cases h
  | request cached =>
    obtain heq | ⟨ops, heq⟩ := atThread_request d u c found cached
    all_goals
      rw [heq] at h
      cases h
  | _ => rfl

theorem Acts.inLoop {d d' : InspectorData Θ} {pc pc' : InspectorServerPc Θ}
    {rel : Option (LockUse Θ)} (h : Acts d pc d' rel pc') (hpc' : pc'.inLoop = true) :
    pc.inLoop = true ∨ pc.beginsLoop d = true ∨ ∃ c, pc = .resetting c := by
  cases h with
  | dispatch record op ops => exact .inr (.inl hpc')
  | reset c => exact .inr (.inr ⟨c, rfl⟩)
  | visit v u c found => exact .inl (inLoop_atThread hpc')
  | _ => cases hpc'

end InspectorServerPc

end Steps

/-! ### Runs -/

namespace InspectorPc

def changesTable : InspectorPc Θ → Bool
  | .app pc => pc.changesTable
  | .server _ => false

/-- The next step of the hook begins a change of the table. -/
def entersTable : InspectorPc Θ → Bool
  | .app .attaching | .app .detaching => true
  | _ => false

def inLoop : InspectorPc Θ → Bool
  | .app _ => false
  | .server pc => pc.inLoop

def uses : InspectorPc Θ → Option Θ
  | .app _ => none
  | .server pc => pc.uses

def beginsLoop [LinearOrder Θ] (d : InspectorData Θ) : InspectorPc Θ → Bool
  | .app _ => false
  | .server pc => pc.beginsLoop d

end InspectorPc

section Runs

variable [LinearOrder Θ]

/-- A handler is in a loop over the table while a thread inserts or erases a
record. -/
def Overlaps (s : InspectorStates Θ) : Prop :=
  (∃ t, (s.pcs (.app t)).changesTable = true) ∧ (s.pcs .server).inLoop = true

/-- No handler uses the record of a thread that is not in the table, and no
loop overlaps with a change of the table. -/
structure ThreadsAlive (s : InspectorStates Θ) : Prop where
  alive : ∀ u, (s.pcs .server).uses = some u → u ∈ s.shared.data.threads
  apart : ¬ Overlaps s

/-- A change of the table begins only while no handler is in a loop, and a loop
of `Pause` or `Continue` begins only while no thread changes the table. -/
def LoopsApart (s : InspectorStates Θ) (a : Agent Θ) (_ : InspectorInput Θ) : Prop :=
  ((s.pcs a).entersTable = true → (s.pcs .server).inLoop = false) ∧
    ((s.pcs a).beginsLoop s.shared.data = true →
      ∀ t, (s.pcs (.app t)).changesTable = false)

/-- A thread is erased after its session was removed, and the handlers find
what they rely on. -/
structure TableInv (s : InspectorStates Θ) : Prop where
  consistent : inspectorProgram.Consistent s
  erasing : ∀ t, s.pcs (.app t) = .app .erasing → t ∉ s.shared.data.sessions
  fits : ∀ pc, s.pcs .server = .server pc → pc.Fits s.shared.data
  apart : ¬ Overlaps s

variable {s s' : InspectorStates Θ} {a : Agent Θ} {i : InspectorInput Θ} {t : Θ}

namespace TableInv

variable (hs : TableInv s)

include hs

theorem threadsAlive : ThreadsAlive s := by
  refine ⟨?_, hs.apart⟩
  intro u hu
  rcases hpc : s.pcs .server with pc | pc
  · rw [hpc] at hu
    cases hu
  · rw [hpc] at hu
    exact (hs.fits pc hpc).alive u hu

theorem ne_detaching {u : Θ} {pc : InspectorServerPc Θ}
    (hserver : s.pcs .server = .server pc) (hu : pc.record = some u) (t : Θ) :
    s.pcs (.app t) ≠ .app .detaching := by
  intro ht
  have hhandler : (.taskExecution, .exclusive) ∈
      inspectorProgram.holds .server (s.pcs .server) := by
    rw [hserver]
    exact InspectorServerPc.holds_of_record hu
  have hthread : (.taskExecution, .shared) ∈ inspectorProgram.holds (.app t) (s.pcs (.app t)) := by
    rw [ht]
    simp [inspectorProgram, holds]
  cases hs.consistent.eq_of_holds hhandler hthread

/-- A thread that changes the table keeps `DebuggerEnable` out. -/
theorem ne_resetting (ht : (s.pcs (.app t)).changesTable = true)
    (c : HandlerRun Θ) : s.pcs .server ≠ .server (.resetting c) := by
  intro hserver
  have hhandler : (.debuggerEvents, .exclusive) ∈
      inspectorProgram.holds .server (s.pcs .server) := by
    rw [hserver]
    simp [inspectorProgram, InspectorServerPc.holds]
  have hthread : (.debuggerEvents, .exclusive) ∈
      inspectorProgram.holds (.app t) (s.pcs (.app t)) := by
    rcases hpc : s.pcs (.app t) with pc | pc
    · rw [hpc] at ht
      exact holds_of_changesTable ht
    · rw [hpc] at ht
      cases ht
  cases hs.consistent.eq_of_holds hhandler hthread

theorem apart_step (h : InspectorStep s a s') (hapart : LoopsApart s a i) : ¬ Overlaps s' := by
  rintro ⟨⟨t, ht⟩, hloop⟩
  obtain hserver | ⟨rfl, pc, pc', hpc, hpc', hstep⟩ := h.pcs_server
  · rw [hserver] at hloop
    obtain happ | ⟨rfl, pc, pc', hpc, hpc', hstep⟩ := h.pcs_app t
    · rw [happ] at ht
      exact hs.apart ⟨⟨t, ht⟩, hloop⟩
    · -- the thread begins a change of the table, so no handler is in a loop
      rw [hpc'] at ht
      have henters : (s.pcs (.app t)).entersTable = true := by
        rw [hpc]
        obtain ⟨x, hw⟩ | ⟨d, rel, hacts⟩ := hstep
        · exact absurd ht (by simp [InspectorPc.changesTable, changesTable_of_wants hw])
        · obtain ⟨-, -, hnot⟩ | ⟨rfl, -⟩ | ⟨-, rfl, -⟩ | ⟨rfl, -⟩ | ⟨-, rfl, -⟩ := hacts.tables
          · exact absurd ht (by simp [InspectorPc.changesTable, hnot])
          · rfl
          · cases ht
          · rfl
          · cases ht
      rw [hapart.1 henters] at hloop
      cases hloop
  · rw [h.pcs_app_of_server t] at ht
    rw [hpc'] at hloop
    -- the handler was in a loop before, or begins one
    have hbefore : pc.inLoop = true ∨ pc.beginsLoop s.shared.data = true ∨
        ∃ c, pc = .resetting c := by
      obtain ⟨x, hw⟩ | ⟨d, rel, hacts⟩ := hstep
      · exact .inl ((InspectorServerPc.inLoop_of_wants hw).symm.trans hloop)
      · exact hacts.inLoop hloop
    obtain hin | hbegins | ⟨c, rfl⟩ := hbefore
    · refine hs.apart ⟨⟨t, ht⟩, ?_⟩
      rw [hpc]
      exact hin
    · have hnot := hapart.2 (by rw [hpc]; exact hbegins) t
      rw [hnot] at ht
      cases ht
    · exact hs.ne_resetting ht c hpc

theorem erasing_step (h : InspectorStep s a s') :
    ∀ t, s'.pcs (.app t) = .app .erasing → t ∉ s'.shared.data.sessions := by
  intro t ht
  cases h with
  | appTakes u x pc pc' hpc hw hfree =>
    by_cases hu : t = u
    · subst hu
      obtain rfl : pc' = .erasing := by simpa using ht
      cases changesTable_of_wants hw
    · replace ht : s.pcs (.app t) = .app .erasing := by simpa [hu] using ht
      exact hs.erasing t ht
  | appActs u d rel pc pc' hpc hacts =>
    by_cases hu : t = u
    · subst hu
      obtain rfl : pc' = .erasing := by simpa using ht
      obtain ⟨-, -, hnot⟩ | ⟨-, heq, -⟩ | ⟨-, heq, -⟩ | ⟨-, -, rfl⟩ | ⟨-, heq, -⟩ := hacts.tables
      · cases hnot
      · cases heq
      · cases heq
      · simp
      · cases heq
    · replace ht : s.pcs (.app t) = .app .erasing := by simpa [hu] using ht
      have hnot := hs.erasing t ht
      obtain ⟨-, hsame, -⟩ | ⟨-, -, rfl⟩ | ⟨-, -, rfl⟩ | ⟨-, -, rfl⟩ | ⟨-, -, rfl⟩ := hacts.tables
      · rw [hsame]
        exact hnot
      · simp [hu, hnot]
      · exact hnot
      · simp [hnot]
      · exact hnot
  | serverTakes x pc pc' hpc hw hfree =>
    exact hs.erasing t ht
  | serverActs d rel pc pc' hpc hacts =>
    rw [hacts.tables_eq.2]
    exact hs.erasing t ht

theorem fits_acts {d : InspectorData Θ} {rel : Option (LockUse Θ)}
    {pc pc' : AppPc Θ} {p : InspectorServerPc Θ} (hpc : s.pcs (.app t) = .app pc)
    (hacts : Acts t s.shared.data pc d rel pc') (hserver : s.pcs .server = .server p) :
    p.Fits d := by
  have hfits := hs.fits p hserver
  obtain ⟨hthreads, hsessions, -⟩ | ⟨-, -, rfl⟩ | ⟨-, -, rfl⟩ | ⟨rfl, -, rfl⟩ | ⟨rfl, -, rfl⟩ :=
    hacts.tables
  · exact hfits.congr hthreads hsessions
  · -- a session is added
    refine ⟨fun u hu => ?_, hfits.alive, hfits.looped⟩
    exact ⟨List.mem_cons_of_mem t (hfits.found u hu).1, (hfits.found u hu).2⟩
  · -- a thread is inserted
    refine ⟨fun u hu => ⟨(hfits.found u hu).1, ?_⟩, fun u hu => ?_, hfits.looped⟩
    · exact (List.mem_orderedInsert _).mpr (.inr (hfits.found u hu).2)
    · exact (List.mem_orderedInsert _).mpr (.inr (hfits.alive u hu))
  · -- a session is removed, while no handler has a thread
    refine ⟨fun u hu => ?_, hfits.alive, hfits.looped⟩
    exact absurd hpc (hs.ne_detaching hserver hu t)
  · -- a thread is erased, which has no session any more and is in no loop
    have hne : ∀ u, p.record = some u → u ≠ t := by
      rintro u hu rfl
      exact hs.erasing u hpc (hfits.found u hu).1
    refine ⟨fun u hu => ⟨(hfits.found u hu).1, ?_⟩, fun u hu => ?_, hfits.looped⟩
    · exact List.mem_filter.mpr ⟨(hfits.found u hu).2, by simp [hne u hu]⟩
    · obtain hloop | hrecord := hfits.looped u hu
      · refine absurd ⟨⟨t, ?_⟩, ?_⟩ hs.apart
        · rw [hpc]
          rfl
        · rw [hserver]
          exact hloop
      · exact List.mem_filter.mpr ⟨hfits.alive u hu, by simp [hne u hrecord]⟩

theorem fits_step (h : InspectorStep s a s') :
    ∀ pc, s'.pcs .server = .server pc → pc.Fits s'.shared.data := by
  intro p hp
  cases h with
  | appTakes u x pc pc' hpc hw hfree =>
    exact hs.fits p hp
  | appActs u d rel pc pc' hpc hacts =>
    exact hs.fits_acts hpc hacts hp
  | serverTakes x pc pc' hpc hw hfree =>
    obtain rfl : pc' = p := by simpa using hp
    exact InspectorServerPc.fits_of_wants hw (hs.fits pc hpc)
  | serverActs d rel pc pc' hpc hacts =>
    obtain rfl : pc' = p := by simpa using hp
    exact hacts.fits (hs.fits pc hpc)

theorem step (h : s.step inspectorProgram.next a i = some s')
    (hapart : LoopsApart s a i) : TableInv s' :=
  have hcases := inspectorStep_of_step h
  ⟨hs.consistent.step h, hs.erasing_step hcases, hs.fits_step hcases, hs.apart_step hcases hapart⟩

end TableInv

theorem tableInv_start : TableInv (@inspectorStart Θ _) := by
  refine ⟨consistent_inspectorStart, ?_, ?_, ?_⟩
  · intro t ht
    cases ht
  · intro pc hpc
    cases hpc
    exact ⟨nofun, nofun, nofun⟩
  · rintro ⟨-, hloop⟩
    cases hloop

theorem overlaps_of_entersTable (h : InspectorStep s a s')
    (henters : (s.pcs a).entersTable = true) (hloop : (s.pcs .server).inLoop = true) :
    Overlaps s' := by
  cases h with
  | appTakes t x pc pc' hpc hw hfree =>
    rw [hpc] at henters
    cases pc with
    | attaching | detaching => cases hw
    | _ => cases henters
  | appActs t d rel pc pc' hpc hacts =>
    refine ⟨⟨t, ?_⟩, by simpa using hloop⟩
    rw [hpc] at henters
    cases pc with
    | attaching | detaching =>
      cases hacts
      simp [InspectorPc.changesTable, changesTable]
    | _ => cases henters
  | serverTakes x pc pc' hpc hw hfree | serverActs d rel pc pc' hpc hacts =>
    rw [hpc] at henters
    cases henters

theorem overlaps_of_beginsLoop (h : InspectorStep s a s')
    (hbegins : (s.pcs a).beginsLoop s.shared.data = true)
    (ht : (s.pcs (.app t)).changesTable = true) : Overlaps s' := by
  cases h with
  | appTakes t x pc pc' hpc hw hfree | appActs t d rel pc pc' hpc hacts =>
    rw [hpc] at hbegins
    cases hbegins
  | serverTakes x pc pc' hpc hw hfree =>
    rw [hpc] at hbegins
    cases pc with
    | handling c => cases hw
    | _ => cases hbegins
  | serverActs d rel pc pc' hpc hacts =>
    refine ⟨⟨t, by simpa using ht⟩, ?_⟩
    rw [hpc] at hbegins
    cases hacts with
    | dispatch record op ops =>
      exact hbegins
    | _ => cases hbegins

theorem overlaps_of_not_loopsApart (h : InspectorStep s a s') (hapart : ¬ LoopsApart s a i) :
    Overlaps s' := by
  obtain hnot | hnot := not_and_or.mp hapart
  · obtain ⟨henters, hloop⟩ := Classical.not_imp.mp hnot
    rw [Bool.not_eq_false] at hloop
    exact overlaps_of_entersTable h henters hloop
  · obtain ⟨hbegins, hall⟩ := Classical.not_imp.mp hnot
    obtain ⟨t, ht⟩ := not_forall.mp hall
    rw [Bool.not_eq_false] at ht
    exact overlaps_of_beginsLoop h hbegins ht

/-- **Ended threads**: no handler uses the record of a thread that was erased
and no loop over the table overlaps with a change of it, throughout a run, if
and only if the loops of `Pause` and `Continue` and the changes are kept
apart. -/
theorem threads_alive_iff (schedule : List (Agent Θ × InspectorInput Θ)) :
    Always inspectorProgram.next ThreadsAlive inspectorStart schedule ↔
      EachStep inspectorProgram.next LoopsApart inspectorStart schedule := by
  refine always_iff_eachStep (I := TableInv) ?_ ?_ ?_ tableInv_start schedule
  · intro s hs
    exact hs.threadsAlive
  · intro s a i s' hs hstep hapart
    exact hs.step hstep hapart
  · intro s a i s' _ hstep hapart halive
    exact halive.apart (overlaps_of_not_loopsApart (inspectorStep_of_step hstep) hapart)

end Runs

/-! ### An erased thread -/

/-- A thread is in `ThreadEnd`, past the removal of its session, when the client
asks for a pause; it is erased when the loop of `Pause` has come to it. -/
def eraseDuringPause : List (Agent Bool × InspectorInput Bool) :=
  (.app false, .threadStart) :: List.replicate 4 (.app false, .goOn) ++
    (.app false, .threadEnd) :: List.replicate 3 (.app false, .goOn) ++
    (.server, .receive ⟨.pause, none⟩) :: List.replicate 3 (.server, .goOn) ++
    [(.app false, .goOn)]

/-- A thread is inserted while `Pause` is in its loop. -/
def insertDuringPause : List (Agent Bool × InspectorInput Bool) :=
  (.app false, .threadStart) :: List.replicate 4 (.app false, .goOn) ++
    (.server, .receive ⟨.pause, none⟩) :: List.replicate 3 (.server, .goOn) ++
    [(.app true, .threadStart), (.app true, .goOn), (.app true, .goOn)]

/-- `Pause` goes on to take the mutex of the erased thread; and the loop and an
insertion overlap. -/
theorem pause_uses_erased :
    (∃ s, run inspectorProgram.next inspectorStart eraseDuringPause = some s ∧
      (s.pcs .server).uses = some false ∧ false ∉ s.shared.data.threads ∧
      (s.step inspectorProgram.next .server .goOn).isSome = true) ∧
    ∃ s, run inspectorProgram.next inspectorStart insertDuringPause = some s ∧ Overlaps s := by
  constructor
  · exact ⟨_, rfl, rfl, by decide, rfl⟩
  · exact ⟨_, rfl, ⟨true, rfl⟩, rfl⟩

end ArkToolchain
