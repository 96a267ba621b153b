/-
Runs of one thread's state (tooling/static/debugger/thread_state.cpp): any sequence of the
server's commands and of the VM's callbacks, with the other side of a hybrid application setting
the common flags in between.  The hooks assert that the thread is not paused, so in a run they
come only then.

Main result: `skip_all_pauses`.
-/
import ArkToolchain.DebuggableThread
import ArkToolchain.Traces

namespace ArkToolchain

/-! ### Events -/

inductive ThreadEvent
  | command (c : ServerCommand)
  | callback (c : AppCallback)
  /-- The dynamic side has changed the flags of `HybridSingleStepper`. -/
  | hybridFlags (flags : HybridSingleStepper)
  deriving DecidableEq

namespace ThreadEvent

/-- The callbacks that assert that the thread is not paused. -/
def isHook : ThreadEvent → Bool
  | .callback (.singleStep _ _) | .callback (.exception _) => true
  | .callback .framePop | .callback .methodEntry => true
  | .callback .breakOnStart => false
  | .command _ | .hybridFlags _ => false

def Fits (ts : ThreadState) (e : ThreadEvent) : Prop :=
  e.isHook = true → ts.paused = false

instance (ts : ThreadState) (e : ThreadEvent) : Decidable (e.Fits ts) :=
  inferInstanceAs (Decidable (e.isHook = true → ts.paused = false))

end ThreadEvent

namespace ThreadState

def step (ts : ThreadState) : ThreadEvent → ThreadState
  | .command c => c.onState ts
  | .callback c => c.onState ts
  | .hybridFlags flags => { ts with hybrid := flags }

end ThreadState

def ThreadRun (events : List ThreadEvent) : Prop :=
  Admits ThreadState.step (fun ts e => e.Fits ts) {} events

instance (events : List ThreadEvent) : Decidable (ThreadRun events) :=
  inferInstanceAs (Decidable (Admits ThreadState.step (fun ts e => e.Fits ts) {} events))

namespace ThreadState

/-- One of the three step commands is in force. -/
def Steps (ts : ThreadState) : Prop :=
  ts.stepKind = .stepInto ∨ ts.stepKind = .stepOver ∨ ts.stepKind = .stepOut

/-! ### Skipping all pauses -/

/-- A hook pauses the thread although pauses are skipped. -/
def PausesUnderSkip (ts : ThreadState) (e : ThreadEvent) : Prop :=
  e.isHook = true ∧ ts.skipAllPauses = true ∧ ts.paused = false ∧ (ts.step e).paused = true

/-- Nothing is in force that a hook could end or answer. -/
@[mk_iff]
structure Still (ts : ThreadState) : Prop where
  flag : ts.breakOnStartFlag = false
  dynamic : ts.hybrid.dynamicToStatic = false
  kind : ts.stepKind = .none ∨ ts.stepKind = .breakOnStart ∨
    (ts.stepKind = .continueTo ∧ ts.stepLocations = [])

/-- A thread that runs with pauses skipped has nothing in force. -/
def Quiet (ts : ThreadState) : Prop :=
  ts.skipAllPauses = true → ts.paused = false → ts.Still

/-- While pauses are skipped, no step is begun and no location to continue to
is given, and neither a break on start nor a step of the dynamic side is
outstanding when the thread goes on or comes while it runs; and nothing is in
force in a running thread when pauses begin to be skipped. -/
def MeetsSkip (ts : ThreadState) : ThreadEvent → Prop
  | .command .continueThread =>
    ts.skipAllPauses = true → ts.breakOnStartFlag = false ∧ ts.hybrid.dynamicToStatic = false
  | .command (.continueTo locations) =>
    ts.skipAllPauses = true →
      ts.breakOnStartFlag = false ∧ ts.hybrid.dynamicToStatic = false ∧ locations = []
  | .command (.stepInto _) | .command (.stepOver _) | .command .stepOut =>
    ts.skipAllPauses = false
  | .command (.setSkipAllPauses skip) => skip = true → ts.paused = false → ts.Still
  | .callback .breakOnStart => ts.skipAllPauses = true → ts.paused = true
  | .hybridFlags flags =>
    ts.skipAllPauses = true → ts.paused = false → flags.dynamicToStatic = false
  | .command _ | .callback _ => True

variable {ts : ThreadState} {e : ThreadEvent}

theorem Still.stepEnds (h : ts.Still) (hrun : ts.paused = false) (location : PtLocation) :
    ts.stepEnds location = false := by
  rcases h.kind with hk | hk | ⟨hk, hl⟩
  · simp [ThreadState.stepEnds, hk]
  · simp [ThreadState.stepEnds, hk, hrun]
  · simp [ThreadState.stepEnds, hk, hl]

/-- No hook does anything to a thread that runs with pauses skipped and has
nothing in force. -/
theorem Still.step_eq_self (h : ts.Still) (hskip : ts.skipAllPauses = true)
    (hrun : ts.paused = false) (hook : e.isHook = true) : ts.step e = ts := by
  have hkind : ts.onFramePop = ts ∧ ts.onMethodEntry = (false, ts) := by
    rcases h.kind with hk | hk | ⟨hk, -⟩ <;> simp [onFramePop, onMethodEntry, hk]
  rcases e with c | c | flags
  · cases hook
  · rcases c with ⟨location, hit⟩ | ⟨uncaught⟩ | - | - | -
    · apply onSingleStep_eq_self ts hrun
      rw [← Bool.not_eq_true, paused_onSingleStep_iff ts h.flag]
      simp [h.dynamic, h.stepEnds hrun, shouldStopAtBreakpoint, hskip]
    · show ts.onException uncaught = ts
      rw [onException, if_pos hskip]
    · exact hkind.1
    · exact congrArg Prod.snd hkind.2
    · cases hook
  · cases hook

/-- The step lemma: from a quiet state exactly the events that meet the
condition lead to a quiet state. -/
theorem quiet_step_iff (h : ts.Quiet) (hfits : e.Fits ts) : (ts.step e).Quiet ↔ ts.MeetsSkip e := by
  -- a hook does nothing under skip, and without skip there is nothing to show
  have hhook : e.isHook = true → (ts.step e).skipAllPauses = ts.skipAllPauses →
      (ts.step e).Quiet := by
    intro hook hskip hskip'
    have hts := hskip.symm.trans hskip'
    rw [(h hts (hfits hook)).step_eq_self hts (hfits hook) hook]
    exact h hts
  rcases e with c | c | flags
  · cases c with
    | continueThread | continueTo locations | stepInto locations | stepOver locations | stepOut =>
      simp [Quiet, still_iff, MeetsSkip, step, ServerCommand.onState, continueThread, continueTo,
        stepInto, stepOver, stepOut]
    | touch => exact iff_of_true h trivial
    | pause =>
      refine iff_of_true ?_ trivial
      show ts.pause.Quiet
      fun_cases pause ts with
      | case1 hrun =>
        -- pauses are not skipped then
        intro hskip
        simp [show ts.skipAllPauses = true from hskip] at hrun
      | case2 => exact h
    | reset =>
      refine iff_of_true ?_ trivial
      rintro ⟨⟩
    | setSkipAllPauses skip =>
      simp [Quiet, still_iff, MeetsSkip, step, ServerCommand.onState, setSkipAllPauses]
    | setPauseOnExceptions state =>
      refine iff_of_true (fun hskip hrun => ?_) trivial
      obtain ⟨hflag, hdyn, hk⟩ := h hskip hrun
      exact ⟨hflag, hdyn, hk⟩
  · cases c with
    | singleStep location hit =>
      refine iff_of_true (hhook rfl ?_) trivial
      show (ts.onSingleStep location hit).skipAllPauses = _
      fun_cases onSingleStep ts location hit <;> rfl
    | exception uncaught =>
      refine iff_of_true (hhook rfl ?_) trivial
      show (ts.onException uncaught).skipAllPauses = _
      fun_cases onException ts uncaught <;> rfl
    | framePop =>
      obtain ⟨_, heq⟩ := ts.onFramePop_frame
      exact iff_of_true (hhook rfl (congrArg skipAllPauses heq :)) trivial
    | methodEntry =>
      obtain ⟨_, heq⟩ := ts.onMethodEntry_frame
      exact iff_of_true (hhook rfl (congrArg skipAllPauses heq :)) trivial
    | breakOnStart =>
      simp [Quiet, still_iff, MeetsSkip, step, AppCallback.onState, breakOnStart]
  · constructor
    · intro hq hskip hrun
      exact (hq hskip hrun).dynamic
    · intro hmeets hskip hrun
      obtain ⟨hflag, -, hk⟩ := h hskip hrun
      exact ⟨hflag, hmeets hskip hrun, hk⟩

theorem not_pausesUnderSkip (h : ts.Quiet) : ¬ ts.PausesUnderSkip e := by
  rintro ⟨hook, hskip, hrun, hpaused⟩
  rw [(h hskip hrun).step_eq_self hskip hrun hook, hrun] at hpaused
  cases hpaused

theorem exists_location_notMem (locations : List PtLocation) :
    ∃ location, location ∉ locations := by
  obtain ⟨n, hn⟩ :=
    Infinite.exists_notMem_finset (locations.map PtLocation.bytecodeOffset).toFinset
  refine ⟨⟨"", 0, n⟩, fun hmem => hn ?_⟩
  exact List.mem_toFinset.mpr (List.mem_map_of_mem hmem)

/-- What is in force ends at some callback, at the latest after the current
frame has been popped. -/
theorem exists_pausing (h : ¬ ts.Still) :
    ∃ location, (ts.onFramePop.onSingleStep location false).paused = true := by
  obtain ⟨fresh, hfresh⟩ := exists_location_notMem ts.stepLocations
  obtain ⟨_, heq⟩ := ts.onFramePop_frame
  by_cases hflag : ts.breakOnStartFlag = true
  · exact ⟨fresh, paused_onSingleStep_of_flag _ (by rwa [heq]) fresh false⟩
  · rw [Bool.not_eq_true] at hflag
    have hiff : ∀ location, (ts.onFramePop.onSingleStep location false).paused = true ↔
        ts.hybrid.dynamicToStatic = true ∨ ts.onFramePop.stepEnds location = true := by
      intro location
      rw [paused_onSingleStep_iff _ (by rwa [heq])]
      simp [shouldStopAtBreakpoint, heq]
    by_cases hdyn : ts.hybrid.dynamicToStatic = true
    · exact ⟨fresh, (hiff fresh).mpr (.inl hdyn)⟩
    · rw [Bool.not_eq_true] at hdyn
      suffices hends : ∃ location, ts.onFramePop.stepEnds location = true by
        obtain ⟨location, hends⟩ := hends
        exact ⟨location, (hiff location).mpr (.inr hends)⟩
      rcases hk : ts.stepKind
      case none => exact absurd ⟨hflag, hdyn, .inl hk⟩ h
      case breakOnStart => exact absurd ⟨hflag, hdyn, .inr (.inl hk)⟩ h
      case continueTo =>
        rcases hl : ts.stepLocations with - | ⟨location, locations⟩
        · exact absurd ⟨hflag, hdyn, .inr (.inr ⟨hk, hl⟩)⟩ h
        · exact ⟨location, by simp [onFramePop, stepEnds, hk, hl]⟩
      all_goals exact ⟨fresh, by simp [onFramePop, stepEnds, hk, hfresh]⟩

end ThreadState

open ThreadState

/-- **Skipping all pauses.**  In a run whose events all meet the condition, no
hook pauses the thread while pauses are skipped.  A run with an event that
does not meet it can be followed, after that event, by hooks of which one
does. -/
theorem skip_all_pauses {events : List ThreadEvent} (hrun : ThreadRun events) :
    (Admits step MeetsSkip {} events → ∀ k, ¬ EventAt step {} events PausesUnderSkip k) ∧
    (¬ Admits step MeetsSkip {} events →
      ∃ k hooks, (∀ e ∈ hooks, ThreadEvent.isHook e = true) ∧
        ThreadRun (events.take k ++ hooks) ∧
        ∃ j, EventAt step {} (events.take k ++ hooks) PausesUnderSkip j) := by
  have hstart : Quiet {} := by
    intro hskip
    cases hskip
  -- events that fit and meet the condition keep the thread quiet
  have hgood : ∀ ts e, Quiet ts → e.Fits ts ∧ ts.MeetsSkip e → Quiet (ts.step e) :=
    fun ts e hquiet he => (quiet_step_iff hquiet he.1).mpr he.2
  constructor
  · rintro hmeets k ⟨e, -, hpauses⟩
    have hquiet := (hrun.and hmeets).invariant hgood hstart k
    exact not_pausesUnderSkip hquiet hpauses
  · intro hmisfit
    obtain ⟨k, e, he, hfirst, hbad⟩ := exists_first_misfit hmisfit
    have hquiet : Quiet (stateAt step {} events k) :=
      ((hrun.take k).and hfirst).invariant_foldl hgood hstart
    have hnext : ¬ Quiet (stateAt step {} events (k + 1)) := by
      rw [stateAt_succ he, quiet_step_iff hquiet (hrun.fits he)]
      exact hbad
    obtain ⟨hskip, hnp, hpending⟩ : (stateAt step {} events (k + 1)).skipAllPauses = true ∧
        (stateAt step {} events (k + 1)).paused = false ∧
          ¬ (stateAt step {} events (k + 1)).Still := by
      simpa only [Quiet, Classical.not_imp] using hnext
    obtain ⟨location, hpaused⟩ := exists_pausing hpending
    refine ⟨k + 1, [.callback .framePop, .callback (.singleStep location false)],
      by simp [ThreadEvent.isHook], ?_, (events.take (k + 1)).length + 1, ?_⟩
    · refine admits_append.mpr ⟨hrun.take (k + 1), fun _ => hnp, fun _ => ?_, trivial⟩
      exact (paused_onFramePop _).trans hnp
    · refine eventAt_append_add.mpr
        ⟨.callback (.singleStep location false), rfl, rfl, ?_, ?_, hpaused⟩
      · obtain ⟨_, heq⟩ := (stateAt step {} events (k + 1)).onFramePop_frame
        exact (congrArg skipAllPauses heq).trans hskip
      · exact (paused_onFramePop _).trans hnp

/-- A breakpoint is met after pauses have begun to be skipped. -/
def skipBreakpoint : List ThreadEvent :=
  [.command (.setSkipAllPauses true), .callback (.singleStep ⟨"app.abc", 1, 0⟩ true)]

theorem skipBreakpoint_not_pauses :
    ThreadRun skipBreakpoint ∧ ∀ k, ¬ EventAt step {} skipBreakpoint PausesUnderSkip k := by
  refine ⟨by decide, (skip_all_pauses (by decide)).1 ?_⟩
  exact ⟨fun _ _ => ⟨rfl, rfl, .inl rfl⟩, trivial, trivial⟩

/-- A pause is asked for, and then pauses are skipped. -/
def pauseThenSkip : List ThreadEvent :=
  [.command .pause, .command (.setSkipAllPauses true),
    .callback (.singleStep ⟨"app.abc", 1, 0⟩ false)]

theorem pauseThenSkip_pauses :
    ThreadRun pauseThenSkip ∧ EventAt step {} pauseThenSkip PausesUnderSkip 2 := by
  refine ⟨by decide, .callback (.singleStep ⟨"app.abc", 1, 0⟩ false), rfl, rfl, rfl, rfl, rfl⟩

end ArkToolchain
