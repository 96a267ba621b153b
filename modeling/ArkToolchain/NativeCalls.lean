/-
Calls of native methods (`Inspector::NativeMethodCall` and `Inspector::ReplyNativeMethodCall` in
tooling/static/inspector.cpp).

A thread that steps into a native method sends `nativeCalling` to the client and then waits
until a reply has cleared `nativeMethodCallWaiting_`.  The event is sent before the flag is set,
so the reply can come too early, and the flag is one for all threads.

The sections under `nativeMethodCallMutex_` are atomic.  `waiters` are the threads that the
condition variable blocks; the system may wake one of them without a reason.  An event that
the server drops, in sync mode or without a connection, is left out: no client sees it, so it
has no reply.

Main result: `nativeCalls_return`.
-/
import ArkToolchain.Fairness
import Mathlib.Data.List.Nodup

namespace ArkToolchain

open Threads InfiniteRun

/-- Application threads, the server thread, and whoever wakes threads without a
reason. -/
inductive NativeAgent (Θ : Type*)
  | app (t : Θ)
  | server
  | system
  deriving DecidableEq

/-- A thread outside `NativeMethodCall`, before it sends its event, before it
takes the mutex, and in the loop. -/
inductive NativePc
  | idle
  | checked
  | sent
  | waiting
  deriving DecidableEq

inductive NativeInput (Θ : Type*)
  | call (mixedDebugEnabled isStepInto : Bool)
  | goOn
  | reply (u : Θ) (woken : Option Θ)
  | wake (u : Θ)
  deriving DecidableEq

/-- `waiting` is `nativeMethodCallWaiting_`; `pending` are the events whose
replies have not been handled. -/
structure NativeCalls (Θ : Type*) where
  waiting : Bool := false
  waiters : List Θ := []
  pending : List Θ := []
  deriving DecidableEq

def NativeInput.isReplyTo {Θ : Type*} [DecidableEq Θ] (u : Θ) : NativeInput Θ → Bool
  | .reply v _ => v = u
  | _ => false

namespace NativeCalls

variable {Θ : Type*} [DecidableEq Θ]

/-- The loop of `NativeMethodCall`, under the mutex. -/
def waitWhile (sh : NativeCalls Θ) (t : Θ) : NativeCalls Θ × NativePc :=
  if sh.waiting then ({ sh with waiters := t :: sh.waiters }, .waiting) else (sh, .idle)

/-- `notify_one`: it wakes a thread, if there is one. -/
def notifyOne (sh : NativeCalls Θ) : Option Θ → Option (NativeCalls Θ)
  | none => if sh.waiters = [] then some sh else none
  | some w => if w ∈ sh.waiters then some { sh with waiters := sh.waiters.erase w } else none

/-- `ReplyNativeMethodCall`; the client replies once to each event. -/
def replyNativeMethodCall (sh : NativeCalls Θ) (u : Θ) (woken : Option Θ) :
    Option (NativeCalls Θ) :=
  if u ∈ sh.pending then
    notifyOne { sh with waiting := false, pending := sh.pending.erase u } woken
  else none

def next (a : NativeAgent Θ) (sh : NativeCalls Θ) (pc : NativePc) (i : NativeInput Θ) :
    Option (NativeCalls Θ × NativePc) :=
  match a, pc, i with
  | .app _, .idle, .call mixedDebugEnabled isStepInto =>
    some (sh, if mixedDebugEnabled && isStepInto then .checked else .idle)
  | .app t, .checked, .goOn => some ({ sh with pending := t :: sh.pending }, .sent)
  | .app t, .sent, .goOn => some (waitWhile { sh with waiting := true } t)
  | .app t, .waiting, .goOn => if t ∈ sh.waiters then none else some (waitWhile sh t)
  | .server, pc, .reply u woken => (replyNativeMethodCall sh u woken).map (·, pc)
  | .system, pc, .wake u =>
    if u ∈ sh.waiters then some ({ sh with waiters := sh.waiters.erase u }, pc) else none
  | _, _, _ => none

/-- The states of the calls. -/
abbrev States (Θ : Type*) := Threads (NativeAgent Θ) (NativeCalls Θ) NativePc

def start : States Θ where
  shared := {}
  pcs := fun _ => .idle

/-- What one step can do. -/
inductive Step (s : States Θ) : NativeAgent Θ → NativeInput Θ → States Θ → Prop
  | call (t : Θ) (mixedDebugEnabled isStepInto : Bool) (hpc : s.pcs (.app t) = .idle) :
      Step s (.app t) (.call mixedDebugEnabled isStepInto)
        { shared := s.shared
          pcs := Function.update s.pcs (.app t)
            (if mixedDebugEnabled && isStepInto then .checked else .idle) }
  | send (t : Θ) (hpc : s.pcs (.app t) = .checked) :
      Step s (.app t) .goOn
        { shared := { waiting := s.shared.waiting, waiters := s.shared.waiters,
                      pending := t :: s.shared.pending }
          pcs := Function.update s.pcs (.app t) .sent }
  | begin (t : Θ) (hpc : s.pcs (.app t) = .sent) :
      Step s (.app t) .goOn
        { shared := { waiting := true, waiters := t :: s.shared.waiters,
                      pending := s.shared.pending }
          pcs := Function.update s.pcs (.app t) .waiting }
  | again (t : Θ) (hpc : s.pcs (.app t) = .waiting) (hnot : t ∉ s.shared.waiters)
      (hwaiting : s.shared.waiting = true) :
      Step s (.app t) .goOn
        { shared := { waiting := s.shared.waiting, waiters := t :: s.shared.waiters,
                      pending := s.shared.pending }
          pcs := Function.update s.pcs (.app t) .waiting }
  | leave (t : Θ) (hpc : s.pcs (.app t) = .waiting) (hnot : t ∉ s.shared.waiters)
      (hwaiting : s.shared.waiting = false) :
      Step s (.app t) .goOn { shared := s.shared, pcs := Function.update s.pcs (.app t) .idle }
  | lose (u : Θ) (hu : u ∈ s.shared.pending) (hnone : s.shared.waiters = []) :
      Step s .server (.reply u none)
        { shared := { waiting := false, waiters := s.shared.waiters,
                      pending := s.shared.pending.erase u }
          pcs := s.pcs }
  | reply (u w : Θ) (hu : u ∈ s.shared.pending) (hw : w ∈ s.shared.waiters) :
      Step s .server (.reply u (some w))
        { shared := { waiting := false, waiters := s.shared.waiters.erase w,
                      pending := s.shared.pending.erase u }
          pcs := s.pcs }
  | wake (u : Θ) (hu : u ∈ s.shared.waiters) :
      Step s .system (.wake u)
        { shared := { waiting := s.shared.waiting, waiters := s.shared.waiters.erase u,
                      pending := s.shared.pending }
          pcs := s.pcs }

theorem step_of_step {s s' : States Θ} {a : NativeAgent Θ} {i : NativeInput Θ}
    (h : s.step next a i = some s') : Step s a i s' := by
  obtain ⟨sh, pc, hn, rfl⟩ := step_eq_some h
  unfold next at hn
  split at hn
  case h_1 t mixedDebugEnabled isStepInto hpc =>
    cases hn
    exact .call t mixedDebugEnabled isStepInto hpc
  case h_2 t hpc =>
    cases hn
    exact .send t hpc
  case h_3 t hpc =>
    cases hn
    exact .begin t hpc
  case h_4 t hpc =>
    obtain ⟨hnot, heq⟩ := Option.ite_none_left_eq_some.mp hn
    by_cases hwaiting : s.shared.waiting
    · rw [waitWhile, if_pos hwaiting] at heq
      cases heq
      exact .again t hpc hnot hwaiting
    · rw [waitWhile, if_neg hwaiting] at heq
      cases heq
      exact .leave t hpc hnot (by simpa using hwaiting)
  case h_5 u woken =>
    obtain ⟨sh', hreply, heq⟩ := Option.map_eq_some_iff.mp hn
    cases heq
    rw [Function.update_eq_self]
    obtain ⟨hu, hnotify⟩ := Option.ite_none_right_eq_some.mp hreply
    cases woken with
    | none =>
      obtain ⟨hnone, heq⟩ := Option.ite_none_right_eq_some.mp hnotify
      cases heq
      exact .lose u hu hnone
    | some w =>
      obtain ⟨hw, heq⟩ := Option.ite_none_right_eq_some.mp hnotify
      cases heq
      exact .reply u w hu hw
  case h_6 u =>
    obtain ⟨hu, heq⟩ := Option.ite_none_right_eq_some.mp hn
    cases heq
    rw [Function.update_eq_self]
    exact .wake u hu
  case h_7 => cases hn

/-! ### One thread at a time -/

/-- A reply is handled while the thread that sent the event is blocked, and a
thread begins to wait while no other thread does. -/
def RepliesFit (s : States Θ) : NativeAgent Θ → NativeInput Θ → Prop
  | .server, .reply u _ => u ∈ s.shared.waiters
  | .app t, _ => s.pcs (.app t) = .sent → ∀ u, s.pcs (.app u) ≠ .waiting
  | _, _ => True

/-- At most one thread waits, a thread is blocked only while the flag is set, and
a thread whose reply is still to be handled has its event in `pending`. -/
structure Inv (s : States Θ) : Prop where
  alone : ∀ t u, s.pcs (.app t) = .waiting → s.pcs (.app u) = .waiting → t = u
  blocked : ∀ t ∈ s.shared.waiters, s.pcs (.app t) = .waiting ∧ s.shared.waiting = true
  nodup : s.shared.waiters.Nodup
  sent : ∀ t, s.pcs (.app t) = .sent → t ∈ s.shared.pending
  waiting : ∀ t, s.pcs (.app t) = .waiting → s.shared.waiting = true → t ∈ s.shared.pending

variable {s s' : States Θ} {a : NativeAgent Θ} {i : NativeInput Θ}

omit [DecidableEq Θ] in
theorem inv_start : Inv (start (Θ := Θ)) :=
  ⟨nofun, nofun, List.nodup_nil, nofun, nofun⟩

theorem pcs_of_update {t u : Θ} {p q : NativePc} (hne : p ≠ q)
    (h : Function.update s.pcs (.app t) p (.app u) = q) : u ≠ t ∧ s.pcs (.app u) = q := by
  have hut : u ≠ t := by
    rintro rfl
    rw [Function.update_self] at h
    exact hne h
  exact ⟨hut, by simpa [hut] using h⟩

omit [DecidableEq Θ] in
theorem Inv.not_blocked (hs : Inv s) {t : Θ} (ht : s.pcs (.app t) ≠ .waiting) :
    t ∉ s.shared.waiters :=
  fun hmem => ht (hs.blocked t hmem).1

/-- A thread that does not begin to wait goes on, perhaps with its event sent. -/
theorem Inv.outside (hs : Inv s) {t : Θ} (ht : t ∉ s.shared.waiters) {p : NativePc}
    (hp : p ≠ .waiting) {pending : List Θ} (hpending : s.shared.pending ⊆ pending)
    (hsent : p = .sent → t ∈ pending) :
    Inv { shared := { s.shared with pending }, pcs := Function.update s.pcs (.app t) p } := by
  refine ⟨?_, ?_, hs.nodup, ?_, ?_⟩
  · intro u v hu hv
    exact hs.alone u v (pcs_of_update hp hu).2 (pcs_of_update hp hv).2
  · intro u hu
    have hut : u ≠ t := by
      rintro rfl
      exact ht hu
    simpa [hut] using hs.blocked u hu
  · intro u hu
    by_cases hut : u = t
    · subst hut
      exact hsent (by simpa using hu)
    · exact hpending (hs.sent u (by simpa [hut] using hu))
  · intro u hu hwaiting
    exact hpending (hs.waiting u (pcs_of_update hp hu).2 hwaiting)

theorem Inv.step (hs : Inv s) (h : Step s a i s') (hfit : RepliesFit s a i) : Inv s' := by
  cases h with
  | call t mixedDebugEnabled isStepInto hpc =>
    have hnot : t ∉ s.shared.waiters := hs.not_blocked (by simp [hpc])
    split <;> exact hs.outside hnot (by simp) (List.Subset.refl _) (by simp)
  | send t hpc =>
    exact hs.outside (hs.not_blocked (by simp [hpc])) (by simp) (List.subset_cons_self _ _)
      fun _ => List.mem_cons_self
  | begin t hpc =>
    -- nobody waits, so nobody is blocked
    have hnone : ∀ u, s.pcs (.app u) ≠ .waiting := hfit hpc
    have honly : ∀ u, Function.update s.pcs (.app t) .waiting (.app u) = .waiting → u = t := by
      intro u hu
      by_contra hut
      exact hnone u (by simpa [hut] using hu)
    have hempty : s.shared.waiters = [] := by
      rw [List.eq_nil_iff_forall_not_mem]
      intro u hu
      exact hnone u (hs.blocked u hu).1
    refine ⟨?_, ?_, ?_, ?_, ?_⟩
    · intro u v hu hv
      rw [honly u hu, honly v hv]
    · intro u hu
      obtain rfl : u = t := by simpa [hempty] using hu
      exact ⟨Function.update_self _ _ _, rfl⟩
    · simp [hempty]
    · intro u hu
      exact hs.sent u (pcs_of_update (by simp) hu).2
    · intro u hu _
      rw [honly u hu]
      exact hs.sent t hpc
  | again t hpc hnot hwaiting =>
    have hsame : Function.update s.pcs (.app t) .waiting = s.pcs := by
      rw [← hpc, Function.update_eq_self]
    rw [hsame]
    refine ⟨hs.alone, ?_, List.nodup_cons.mpr ⟨hnot, hs.nodup⟩, hs.sent, hs.waiting⟩
    intro u hu
    rcases List.mem_cons.mp hu with rfl | hu
    · exact ⟨hpc, hwaiting⟩
    · exact hs.blocked u hu
  | leave t hpc hnot hwaiting => exact hs.outside hnot (by simp) (List.Subset.refl _) (by simp)
  | lose u hu hnone =>
    rw [RepliesFit, hnone] at hfit
    cases hfit
  | reply u w hu hw =>
    -- the thread that is woken is the one that sent the event
    have hblocked := (hs.blocked u hfit).1
    obtain rfl : u = w := hs.alone u w hblocked (hs.blocked w hw).1
    refine ⟨hs.alone, ?_, hs.nodup.erase u, ?_, nofun⟩
    · intro t ht
      obtain ⟨hne, ht⟩ := (hs.nodup.mem_erase_iff).mp ht
      exact absurd (hs.alone t u (hs.blocked t ht).1 hblocked) hne
    · intro t ht
      have hne : t ≠ u := by
        rintro rfl
        rw [ht] at hblocked
        cases hblocked
      exact (List.mem_erase_of_ne hne).mpr (hs.sent t ht)
  | wake u hu =>
    refine ⟨hs.alone, ?_, hs.nodup.erase u, hs.sent, hs.waiting⟩
    intro t ht
    exact hs.blocked t (List.mem_of_mem_erase ht)

/-! ### Runs without end -/

/-- The reply to every event is handled some time after the event. -/
def RepliesHandled (run : InfiniteRun (next (Θ := Θ))) : Prop :=
  ∀ n u, u ∈ (run.states n).shared.pending →
    ∃ m i, n ≤ m ∧ run.moves m = some (.server, i) ∧ i.isReplyTo u = true

/-- Every thread that has sent an event leaves `NativeMethodCall`. -/
def CallsReturn (run : InfiniteRun (next (Θ := Θ))) : Prop :=
  ∀ n t, ((run.states n).pcs (.app t) = .sent ∨ (run.states n).pcs (.app t) = .waiting) →
    ∃ m, n ≤ m ∧ (run.states m).pcs (.app t) = .idle

section Liveness

variable {run : InfiniteRun (next (Θ := Θ))} {n : Nat}

theorem step_of_moves (h : run.moves n = some (a, i)) :
    Step (run.states n) a i (run.states (n + 1)) :=
  step_of_step (InfiniteRun.step_of_moves h)

theorem inv_states (hstart : run.states 0 = start)
    (hfit : ∀ n a i, run.moves n = some (a, i) → RepliesFit (run.states n) a i) :
    ∀ n, Inv (run.states n) := by
  refine run.invariant (P := Inv) ?_ ?_
  · intro n a i hmove hinv
    exact hinv.step (step_of_moves hmove) (hfit n a i hmove)
  · rw [hstart]
    exact inv_start

variable {t : Θ}

theorem waiting_succ (hfit : ∀ a i, run.moves n = some (a, i) → RepliesFit (run.states n) a i)
    (hpc : (run.states n).pcs (.app t) = .waiting)
    (hwaiting : (run.states n).shared.waiting = false) :
    (run.states (n + 1)).shared.waiting = false := by
  rcases hm : run.moves n with - | ⟨a, i⟩
  · rw [states_succ hm]
    exact hwaiting
  · have hstep := step_of_moves hm
    generalize run.states (n + 1) = s' at hstep
    cases hstep with
    | call | send | again | leave | wake => exact hwaiting
    | begin u hu => exact absurd hpc (hfit _ _ hm hu t)
    | lose | reply => rfl

theorem leaves_of_not_waiting (hinv : ∀ n, Inv (run.states n))
    (hfit : ∀ n a i, run.moves n = some (a, i) → RepliesFit (run.states n) a i)
    (hfair : run.Fair (.app t) (· ≠ .idle))
    (hn : (run.states n).pcs (.app t) = .waiting ∧ (run.states n).shared.waiting = false) :
    ∃ m, n ≤ m ∧ (run.states m).pcs (.app t) = .idle := by
  let P : States Θ → Prop := fun s => s.pcs (.app t) = .waiting ∧ s.shared.waiting = false
  have hcan : ∀ m, n ≤ m → P (run.states m) →
      (run.states m).pcs (.app t) ≠ .idle ∧ (run.states m).CanStep next (.app t) := by
    rintro m - ⟨hpc, hwaiting⟩
    have hnot : t ∉ (run.states m).shared.waiters := by
      intro hmem
      rw [((hinv m).blocked t hmem).2] at hwaiting
      cases hwaiting
    refine ⟨by simp [hpc], canStep_of_next (i := .goOn) (r := waitWhile (run.states m).shared t) ?_⟩
    rw [hpc]
    exact if_neg hnot
  have hkeep : ∀ m, n ≤ m → P (run.states m) → ¬ run.StepsAt (.app t) m →
      P (run.states (m + 1)) := by
    rintro m - ⟨hpc, hwaiting⟩ hnot
    exact ⟨(pcs_succ hnot).trans hpc, waiting_succ (hfit m) hpc hwaiting⟩
  obtain ⟨m, hm, ⟨i, hmove⟩, hpc, hwaiting⟩ := hfair.leadsTo hcan hkeep hn
  refine ⟨m + 1, Nat.le_succ_of_le hm, ?_⟩
  have hstep := step_of_moves hmove
  generalize run.states (m + 1) = s' at hstep ⊢
  cases hstep with
  | call _ _ _ hpc' | send _ hpc' | begin _ hpc' => cases hpc.symm.trans hpc'
  | again _ _ _ hwaiting' => cases hwaiting.symm.trans hwaiting'
  | leave => exact Function.update_self _ _ _

theorem cleared_of_reply (hinv : ∀ n, Inv (run.states n))
    (hfit : ∀ a i, run.moves n = some (a, i) → RepliesFit (run.states n) a i)
    (hmove : run.moves n = some (.server, i)) (hreply : i.isReplyTo t = true) :
    (run.states (n + 1)).pcs (.app t) = .waiting ∧ (run.states (n + 1)).shared.waiting = false := by
  have hstep := step_of_moves hmove
  have hblocked := hfit _ _ hmove
  generalize run.states (n + 1) = s' at hstep ⊢
  cases hstep with
  | lose u hu hnone | reply u w hu hw =>
    obtain rfl : u = t := by simpa [NativeInput.isReplyTo] using hreply
    exact ⟨((hinv n).blocked u hblocked).1, rfl⟩

/-- **Replies are not lost** in a run that handles each reply while its thread
waits and in which one thread waits at a time: every thread that has sent an
event leaves `NativeMethodCall`. -/
theorem nativeCalls_return (run : InfiniteRun (next (Θ := Θ)))
    (hstart : run.states 0 = start) (hfair : ∀ t, run.Fair (.app t) (· ≠ .idle))
    (hreplies : RepliesHandled run)
    (hfit : ∀ n a i, run.moves n = some (a, i) → RepliesFit (run.states n) a i) :
    CallsReturn run := by
  have hinv := inv_states hstart hfit
  have hpending : ∀ n t, t ∈ (run.states n).shared.pending →
      ∃ m, n ≤ m ∧ (run.states m).pcs (.app t) = .idle := by
    intro n t ht
    obtain ⟨m, i, hm, hmove, hreply⟩ := hreplies n t ht
    have hcleared := cleared_of_reply hinv (hfit m) hmove hreply
    obtain ⟨k, hk, hidle⟩ := leaves_of_not_waiting hinv hfit (hfair t) hcleared
    exact ⟨k, Nat.le_trans (Nat.le_succ_of_le hm) hk, hidle⟩
  intro n t ht
  rcases ht with ht | ht
  · exact hpending n t ((hinv n).sent t ht)
  · by_cases hwaiting : (run.states n).shared.waiting = true
    · exact hpending n t ((hinv n).waiting t ht hwaiting)
    · exact leaves_of_not_waiting hinv hfit (hfair t) ⟨ht, by simpa using hwaiting⟩

theorem not_canStep_of_blocked (hpc : s.pcs (.app t) = .waiting) (ht : t ∈ s.shared.waiters) :
    ¬ s.CanStep next (.app t) := by
  rintro ⟨i, s', hstep⟩
  have hcases := step_of_step hstep
  cases hcases with
  | call _ _ _ hpc' | send _ hpc' | begin _ hpc' => cases hpc.symm.trans hpc'
  | again _ _ hnot _ | leave _ _ hnot _ => exact hnot ht

section Stops

variable {schedule : List (NativeAgent Θ × NativeInput Θ)} (h : s.run next schedule = some s')

theorem fair_ofSchedule (hend : ∀ t, s'.pcs (.app t) = .idle ∨
      s'.pcs (.app t) = .waiting ∧ t ∈ s'.shared.waiters) (t : Θ) :
    (InfiniteRun.ofSchedule h).Fair (.app t) (· ≠ .idle) := by
  apply InfiniteRun.fair_ofSchedule
  intro hin
  rcases hend t with hidle | ⟨hpc, ht⟩
  · exact absurd hidle hin
  · exact not_canStep_of_blocked hpc ht

theorem not_callsReturn_ofSchedule (ht : s'.pcs (.app t) = .waiting) :
    ¬ CallsReturn (.ofSchedule h) := by
  intro hreturn
  have hend := states_ofSchedule h (Nat.le_refl _)
  obtain ⟨m, hm, hidle⟩ := hreturn schedule.length t (.inr (by rw [hend]; exact ht))
  rw [states_ofSchedule h hm, ht] at hidle
  cases hidle

theorem repliesHandled_ofSchedule (hend : s'.shared.pending = [])
    (hreplied : ∀ n < schedule.length, ∀ u ∈ (s.afterSteps next schedule n).shared.pending,
      ∃ m < schedule.length, n ≤ m ∧
        (schedule[m]?).any (fun e => e.1 = .server && e.2.isReplyTo u) = true) :
    RepliesHandled (.ofSchedule h) := by
  intro n u hu
  by_cases hn : n < schedule.length
  · obtain ⟨m, -, hm, hany⟩ := hreplied n hn u hu
    rcases he : schedule[m]? with - | ⟨a, i⟩
    · rw [he] at hany
      cases hany
    · obtain ⟨rfl, hreply⟩ : a = .server ∧ i.isReplyTo u = true := by
        simpa [he] using hany
      exact ⟨m, i, hm, he, hreply⟩
  · rw [states_ofSchedule h (Nat.le_of_not_lt hn), hend] at hu
    cases hu

end Stops

end Liveness

/-! ### Schedules -/

section Schedules

instance decidableRepliesFit (s : States Bool) : ∀ a i, Decidable (RepliesFit s a i)
  | .server, .reply _ _ => inferInstanceAs (Decidable (_ ∈ _))
  | .app _, _ => inferInstanceAs (Decidable (_ → ∀ _ : Bool, _ ≠ _))
  | .server, .call _ _ => isTrue trivial
  | .server, .goOn => isTrue trivial
  | .server, .wake _ => isTrue trivial
  | .system, _ => isTrue trivial

/-- The first of two threads is `false`, the second `true`. -/
abbrev NativeSchedule := List (NativeAgent Bool × NativeInput Bool)

def sends (t : Bool) : NativeSchedule :=
  [(.app t, .call true true), (.app t, .goOn)]

def callAndReply : NativeSchedule :=
  sends false ++ [(.app false, .goOn), (.server, .reply false (some false)), (.app false, .goOn)]

theorem callAndReply_returns :
    ∃ s, ∃ h : start.run next callAndReply = some s,
      ((InfiniteRun.ofSchedule h).states 3).pcs (.app false) = .waiting ∧
        CallsReturn (.ofSchedule h) := by
  have heach : EachStep next RepliesFit start callAndReply := by decide
  refine ⟨_, rfl, rfl, nativeCalls_return _ rfl ?_ ?_ ?_⟩
  · exact fair_ofSchedule _ (by decide)
  · exact repliesHandled_ofSchedule _ rfl (by decide)
  · intro n a i hn
    exact eachStep_ofSchedule _ heach hn

/-- The reply is handled before the thread has set the flag. -/
def replyTooEarly : NativeSchedule :=
  sends false ++ [(.server, .reply false none), (.app false, .goOn)]

/-- The first thread is woken, but the second one sets the flag before the first
one looks at it; the second reply wakes the second thread. -/
def flagSetAgain : NativeSchedule :=
  sends false ++ [(.app false, .goOn), (.server, .reply false (some false))] ++ sends true ++
    [(.app true, .goOn), (.app false, .goOn), (.server, .reply true (some true)),
      (.app true, .goOn)]

/-- In both runs all replies have been handled and the first thread waits
forever. -/
theorem nativeCalls_lost :
    (∃ s, ∃ h : start.run next replyTooEarly = some s,
      (∀ t, (InfiniteRun.ofSchedule h).Fair (.app t) (· ≠ .idle)) ∧
        RepliesHandled (.ofSchedule h) ∧ ¬ CallsReturn (.ofSchedule h)) ∧
    ∃ s, ∃ h : start.run next flagSetAgain = some s,
      (∀ t, (InfiniteRun.ofSchedule h).Fair (.app t) (· ≠ .idle)) ∧
        RepliesHandled (.ofSchedule h) ∧ ¬ CallsReturn (.ofSchedule h) := by
  constructor
  all_goals
    refine ⟨_, rfl, fair_ofSchedule _ (by decide), ?_, ?_⟩
    · exact repliesHandled_ofSchedule _ rfl (by decide)
    · exact not_callsReturn_ofSchedule _ (t := false) rfl

end Schedules

end NativeCalls

end ArkToolchain
