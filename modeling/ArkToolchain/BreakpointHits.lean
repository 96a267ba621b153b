/-
The breakpoints that a pause reports (`DebuggableThread::OnSingleStep` and
`Inspector::DebuggableThreadPostSuspend`).

Whether a thread stops is decided by `ShouldStopAtBreakpoint`, which looks at the active flag
and at conditions.  The breakpoints it then reports come from `GetBreakpointsByLocation`, which
looks at neither, and a pause that reports one pauses all other threads.

Main result: `hits_exact_iff`.
-/
import ArkToolchain.BreakpointLoading
import Mathlib.Logic.Function.Basic

namespace ArkToolchain

/-- The threads of the inspector over its breakpoints. -/
structure InspectorThreads (Θ : Type*) where
  breakpoints : InspectorBreakpoints
  threads : Θ → ThreadState

namespace BreakpointStorage

/-- The breakpoint demands a stop at the location. -/
def Demands (s : BreakpointStorage) (location : PtLocation) (engine : EvaluationEngine)
    (id : BreakpointId) : Prop :=
  s.breakpointsActive = true ∧ (location, id) ∈ s.breakpointLocations ∧
    ∃ bp, (id, bp) ∈ s.breakpointStorage ∧ bp.shouldStopAt location engine = true

variable {s : BreakpointStorage} {location : PtLocation} {id : BreakpointId}

theorem mem_getBreakpointsByLocation :
    id ∈ s.getBreakpointsByLocation location ↔ (location, id) ∈ s.breakpointLocations := by
  simp [getBreakpointsByLocation]

/-- What stops at a mapped location: plain breakpoints always, conditional ones
by their condition. -/
theorem Integrity.shouldStopAt_iff (h : s.Integrity) {bp : BreakpointBase}
    (hmapped : (location, id) ∈ s.breakpointLocations) (hbp : (id, bp) ∈ s.breakpointStorage)
    (engine : EvaluationEngine) :
    bp.shouldStopAt location engine = true ↔
      ∀ c, bp = .conditional c → c.shouldStopAt location engine = true := by
  cases bp with
  | plain bp =>
    have hholds : location ∈ (BreakpointBase.plain bp).locations :=
      h.plain_holds _ hmapped bp hbp
    have hstops : (BreakpointBase.plain bp).shouldStopAt location engine = true :=
      (shouldStopAt_conditionsHold (h.sound _ hbp) location).mpr hholds
    exact iff_of_true hstops fun c hc => absurd hc (by simp)
  | conditional bp =>
    constructor
    · rintro hstops c hc
      obtain rfl := BreakpointBase.conditional.inj hc
      exact hstops
    · intro hc
      exact hc bp rfl

end BreakpointStorage

namespace InspectorThreads

variable {Θ : Type*} [DecidableEq Θ]

def pauseOtherThreads (s : InspectorThreads Θ) (t : Θ) : InspectorThreads Θ :=
  { s with threads := fun u => if u = t then s.threads u else (s.threads u).pause }

/-- The state of the thread after the callback. -/
def afterStep (s : InspectorThreads Θ) (engine : EvaluationEngine) (t : Θ)
    (location : PtLocation) : ThreadState :=
  (s.threads t).onSingleStep location
    ((s.breakpoints.breakpointStorage.shouldStopAtBreakpoint location engine).get
      (s.breakpoints.integrity.shouldStopAtBreakpoint_isSome location engine))

/-- `DebuggableThread::OnSingleStep` up to the suspension of the thread; the
first component is `hitBreakpoints` of the pause. -/
def onSingleStep (s : InspectorThreads Θ) (engine : EvaluationEngine) (t : Θ)
    (location : PtLocation) : Option (List BreakpointId) × InspectorThreads Θ :=
  let ts := s.afterStep engine t location
  let s' := { s with threads := Function.update s.threads t ts }
  if ts.paused then
    let hitBreakpoints := s.breakpoints.breakpointStorage.getBreakpointsByLocation location
    (some hitBreakpoints, if hitBreakpoints.isEmpty then s' else s'.pauseOtherThreads t)
  else (none, s')

variable (s : InspectorThreads Θ) (engine : EvaluationEngine) (t : Θ) (location : PtLocation)

/-- The pause reports the breakpoints that demanded it, and without any the
other threads are left alone. -/
def HitsExact : Prop :=
  (∀ hits, (s.onSingleStep engine t location).1 = some hits →
    ∀ id, id ∈ hits ↔ s.breakpoints.breakpointStorage.Demands location engine id) ∧
  ((∀ id, ¬ s.breakpoints.breakpointStorage.Demands location engine id) →
    ∀ u, u ≠ t → (s.onSingleStep engine t location).2.threads u = s.threads u)

theorem threads_onSingleStep_of_empty
    (h : s.breakpoints.breakpointStorage.getBreakpointsByLocation location = []) {u : Θ}
    (hu : u ≠ t) : (s.onSingleStep engine t location).2.threads u = s.threads u := by
  unfold onSingleStep
  dsimp only
  split
  · simp [h, hu]
  · simp [hu]

/-- **Exact hits**: the breakpoints that a pause reports are those that
demanded it if and only if breakpoints are active and every conditional
breakpoint at the location has a true condition, or there is none. -/
theorem hits_exact_iff (hpause : (s.afterStep engine t location).paused = true) :
    s.HitsExact engine t location ↔
      ∀ id bp, (location, id) ∈ s.breakpoints.breakpointStorage.breakpointLocations →
        (id, bp) ∈ s.breakpoints.breakpointStorage.breakpointStorage →
        s.breakpoints.breakpointStorage.breakpointsActive = true ∧
          ∀ c, bp = .conditional c → c.shouldStopAt location engine = true := by
  have hreport : (s.onSingleStep engine t location).1 =
      some (s.breakpoints.breakpointStorage.getBreakpointsByLocation location) := by
    simp [onSingleStep, hpause]
  have hint := s.breakpoints.integrity
  constructor
  · rintro ⟨hexact, -⟩ id bp hmapped hbp
    obtain ⟨hactive, -, bp', hbp', hstops⟩ := (hexact _ hreport id).mp
      (BreakpointStorage.mem_getBreakpointsByLocation.mpr hmapped)
    obtain rfl := hint.unique hbp hbp'
    exact ⟨hactive, (hint.shouldStopAt_iff hmapped hbp engine).mp hstops⟩
  · intro hall
    have hexact : ∀ id, id ∈ s.breakpoints.breakpointStorage.getBreakpointsByLocation location ↔
        s.breakpoints.breakpointStorage.Demands location engine id := by
      intro id
      rw [BreakpointStorage.mem_getBreakpointsByLocation]
      constructor
      · intro hmapped
        obtain ⟨⟨id', bp⟩, hbp, rfl⟩ := List.mem_map.mp (hint.present _ hmapped)
        obtain ⟨hactive, hcond⟩ := hall _ bp hmapped hbp
        exact ⟨hactive, hmapped, bp, hbp, (hint.shouldStopAt_iff hmapped hbp engine).mpr hcond⟩
      · rintro ⟨-, hmapped, -⟩
        exact hmapped
    refine ⟨fun hits hhits id => ?_, fun hnone u hu => ?_⟩
    · obtain rfl := Option.some.inj (hreport.symm.trans hhits)
      exact hexact id
    · apply threads_onSingleStep_of_empty s engine t location _ hu
      apply List.eq_nil_iff_forall_not_mem.mpr
      intro id hid
      exact hnone id ((hexact id).mp hid)

/-! ### A breakpoint that is switched off -/

/-- Two threads, `false` and `true`, and a breakpoint, which is active or not;
the first thread steps. -/
def steppingAt (active : Bool) : InspectorThreads Bool where
  breakpoints :=
    { debugInfoCache := ⟨[InspectorBreakpoints.oneMethod]⟩
      breakpointStorage := stateAt BreakpointStorage.step {}
        [.setBreakpoint (fun source _ => source == "main.ets") 7 none
            ⟨[InspectorBreakpoints.oneMethod]⟩,
          .setBreakpointsActive active] 2
      integrity := BreakpointStorage.integrity_stateAt _ 2 }
  threads := fun t => if t then {} else { stepKind := .stepInto }

theorem hits_exact_active :
    ((steppingAt true).afterStep conditionsHold false ⟨"main.abc", 1, 0⟩).paused = true ∧
      (steppingAt true).HitsExact conditionsHold false ⟨"main.abc", 1, 0⟩ := by
  refine ⟨by decide, (hits_exact_iff _ _ _ _ (by decide)).mpr ?_⟩
  intro id bp _ hbp
  -- the only breakpoint is a plain one
  obtain rfl := congrArg Prod.snd (List.mem_singleton.mp hbp)
  exact ⟨rfl, fun c hc => absurd hc (by simp)⟩

/-- The first thread pauses because its step ends, reports the breakpoint that
is switched off, and tells the second thread to pause. -/
theorem inactive_breakpoint_hit :
    (steppingAt false).breakpoints.breakpointStorage.breakpointsActive = false ∧
      ((steppingAt false).onSingleStep conditionsHold false ⟨"main.abc", 1, 0⟩).1 = some [0] ∧
      ((steppingAt false).threads true).stepKind = .none ∧
      (((steppingAt false).onSingleStep conditionsHold false
          ⟨"main.abc", 1, 0⟩).2.threads true).stepKind = .pause ∧
      ¬ (steppingAt false).HitsExact conditionsHold false ⟨"main.abc", 1, 0⟩ := by
  have hreport : ((steppingAt false).onSingleStep conditionsHold false ⟨"main.abc", 1, 0⟩).1
      = some [0] := by decide
  refine ⟨by decide, hreport, by decide, by decide, ?_⟩
  rintro ⟨hexact, -⟩
  obtain ⟨hactive, -⟩ := (hexact _ hreport 0).mp List.mem_cons_self
  exact absurd hactive (by decide)

end InspectorThreads

end ArkToolchain
