/-
Why a thread is paused, in any run of its state (tooling/static/debugger/thread_state.cpp).

While a thread runs, `pauseReason_` says whether the last command was a step.  A plain stop at a
breakpoint leaves it as it is.  `breakOnStart_` is cleared only where it causes a pause, so a
pause for another reason that comes first leaves it set.

Main results: `pause_reason` and `break_on_start_once`.
-/
import ArkToolchain.ThreadRuns

namespace ArkToolchain

open ThreadState

/-! ### The reason of a pause -/

namespace ThreadEvent

def isStepCommand : ThreadEvent → Bool
  | .command (.stepInto _) | .command (.stepOver _) | .command .stepOut => true
  | .command _ | .callback _ | .hybridFlags _ => false

def isContinueCommand : ThreadEvent → Bool
  | .command .continueThread | .command (.continueTo _) => true
  | .command _ | .callback _ | .hybridFlags _ => false

end ThreadEvent

namespace ThreadState

variable (ts : ThreadState) (e : ThreadEvent)

/-- `DebuggableThread::IsPausedByBreakPoint`. -/
def isPausedByBreakPoint : Bool :=
  ts.paused && ts.pauseReason == .other

/-- A single-step callback where a breakpoint demands a stop. -/
def BreakpointStops : Prop :=
  ∃ location hit, e = .callback (.singleStep location hit) ∧ ts.shouldStopAtBreakpoint hit = true

/-- A single-step callback that completes a step, with no breakpoint there. -/
def StepCompletes : Prop :=
  ∃ location hit, e = .callback (.singleStep location hit) ∧
    ts.shouldStopAtBreakpoint hit = false ∧ ts.breakOnStartFlag = false ∧
      ts.hybrid.dynamicToStatic = false ∧ ts.Steps ∧ ts.stepEnds location = true

/-- The pause is said to be one by a breakpoint if it is, and is not said to
be one if it is the end of a step. -/
def ReasonFits : Prop :=
  (ts.BreakpointStops e → (ts.step e).isPausedByBreakPoint = true) ∧
    (ts.StepCompletes e → (ts.step e).paused = true ∧ (ts.step e).isPausedByBreakPoint = false)

variable {ts : ThreadState} {e : ThreadEvent}

/-- An event other than a resuming command that leaves the thread running has
found it running, and has not changed the reason. -/
theorem running_of_step (hfits : e.Fits ts) (hrun : (ts.step e).paused = false)
    (hstep : e.isStepCommand = false) (hcont : e.isContinueCommand = false) :
    ts.paused = false ∧ (ts.step e).pauseReason = ts.pauseReason ∧
      ((ts.step e).Steps → ts.Steps) := by
  rcases e with c | c | flags
  · cases c with
    | continueThread | continueTo locations => cases hcont
    | stepInto locations | stepOver locations | stepOut => cases hstep
    | touch | setSkipAllPauses skip | setPauseOnExceptions state => exact ⟨hrun, rfl, id⟩
    | pause =>
      revert hrun
      show ts.pause.paused = false →
        _ ∧ ts.pause.pauseReason = ts.pauseReason ∧ (ts.pause.Steps → ts.Steps)
      fun_cases pause ts with
      | case1 => exact fun hrun => ⟨hrun, rfl, by simp [Steps]⟩
      | case2 => exact fun hrun => ⟨hrun, rfl, id⟩
    | reset => exact ⟨hrun, rfl, by simp [Steps, step, ServerCommand.onState, reset]⟩
  · cases c with
    | singleStep location hit =>
      rw [step, AppCallback.onState, onSingleStep_eq_self ts (hfits rfl) location hit hrun]
      exact ⟨hfits rfl, rfl, id⟩
    | exception uncaught =>
      rw [step, AppCallback.onState, onException_eq_self ts (hfits rfl) uncaught hrun]
      exact ⟨hfits rfl, rfl, id⟩
    | framePop =>
      obtain ⟨_, heq⟩ := ts.onFramePop_frame
      exact ⟨hfits rfl, (congrArg pauseReason heq :), (congrArg Steps heq :).mp⟩
    | methodEntry =>
      obtain ⟨_, heq⟩ := ts.onMethodEntry_frame
      exact ⟨hfits rfl, (congrArg pauseReason heq :), (congrArg Steps heq :).mp⟩
    | breakOnStart =>
      have hpaused : ts.paused = false := hrun
      exact ⟨hrun, rfl, by simp [Steps, step, AppCallback.onState, breakOnStart, hpaused]⟩
  · exact ⟨hrun, rfl, id⟩

theorem pauseReason_of_isStepCommand (h : e.isStepCommand = true) (ts : ThreadState) :
    (ts.step e).pauseReason = .step := by
  rcases e with c | c | flags
  · cases c <;> first | rfl | cases h
  all_goals
    cases h

theorem pauseReason_of_isContinueCommand (h : e.isContinueCommand = true) (ts : ThreadState) :
    (ts.step e).pauseReason = .other ∧ ¬ (ts.step e).Steps := by
  rcases e with c | c | flags
  · cases c with
    | continueThread | continueTo locations =>
      exact ⟨rfl, by simp [Steps, step, ServerCommand.onState, continueThread, continueTo]⟩
    | _ => cases h
  all_goals
    cases h

/-- The reason of a stop at a breakpoint: only the two branches before the
plain one set it. -/
theorem isPausedByBreakPoint_onSingleStep {hit : Bool}
    (hstop : ts.shouldStopAtBreakpoint hit = true) (location : PtLocation) :
    (ts.onSingleStep location hit).isPausedByBreakPoint = true ↔
      ts.breakOnStartFlag = true ∨ ts.hybrid.dynamicToStatic = true ∨ ts.pauseReason = .other := by
  fun_cases onSingleStep ts location hit
  all_goals simp_all [isPausedByBreakPoint]

end ThreadState

/-- The last command that let the thread go on was a step. -/
def SteppedLast (events : List ThreadEvent) (k : Nat) : Prop :=
  Since (fun j => ∃ e, events[j]? = some e ∧ e.isStepCommand = true)
    (fun j => ∃ e, events[j]? = some e ∧ e.isContinueCommand = true) k

variable {events : List ThreadEvent} {k : Nat}

theorem steppedLast_succ {e : ThreadEvent} (he : events[k]? = some e) :
    SteppedLast events (k + 1) ↔
      e.isStepCommand = true ∨ (SteppedLast events k ∧ ¬ e.isContinueCommand = true) := by
  rw [SteppedLast, since_succ]
  simp only [he, Option.some_inj, exists_eq_left']
  rfl

theorem steppedLast_succ_of_none (he : events[k]? = none) :
    SteppedLast events (k + 1) ↔ SteppedLast events k := by
  rw [SteppedLast, since_succ]
  simp only [he, reduceCtorEq, false_and, exists_false, not_false_eq_true, and_true, false_or]
  rfl

/-- What the pause reason says while the thread runs. -/
@[mk_iff]
structure RunningReason (events : List ThreadEvent) (k : Nat) (ts : ThreadState) : Prop where
  steps : ts.Steps → ts.pauseReason = .step
  stepped : SteppedLast events k → ts.pauseReason = .step
  continued : ¬ SteppedLast events k → ts.pauseReason = .other

theorem runningReason (hrun : ThreadRun events) (k : Nat) :
    (stateAt step {} events k).paused = false →
      RunningReason events k (stateAt step {} events k) := by
  induction k with
  | zero =>
    intro _
    have hnone : ¬ SteppedLast events 0 := by
      rintro ⟨j, hj, -⟩
      exact absurd hj (Nat.not_lt_zero j)
    exact ⟨by simp [Steps], fun h => absurd h hnone, fun _ => rfl⟩
  | succ k ih =>
    rcases he : events[k]? with - | e
    · rw [stateAt_succ_of_none he]
      intro hnp
      obtain ⟨hsteps, hstepped, hcontinued⟩ := ih hnp
      rw [← steppedLast_succ_of_none he] at hstepped hcontinued
      exact ⟨hsteps, hstepped, hcontinued⟩
    · have hlast := steppedLast_succ he
      rw [stateAt_succ he]
      intro hnp
      by_cases hstep : e.isStepCommand = true
      · have hreason := pauseReason_of_isStepCommand hstep (stateAt step {} events k)
        exact ⟨fun _ => hreason, fun _ => hreason, by simp [hlast, hstep]⟩
      · by_cases hcont : e.isContinueCommand = true
        · obtain ⟨hreason, hno⟩ :=
            pauseReason_of_isContinueCommand hcont (stateAt step {} events k)
          exact ⟨fun h => absurd h hno, by simp [hlast, hstep, hcont], fun _ => hreason⟩
        · -- the thread was running, with the same reason
          obtain ⟨hnp', hreason, hsteps⟩ := running_of_step (hrun.fits he) hnp
            (Bool.not_eq_true _ ▸ hstep) (Bool.not_eq_true _ ▸ hcont)
          obtain ⟨hsteps', hstepped, hcontinued⟩ := ih hnp'
          rw [runningReason_iff, hreason, hlast]
          exact ⟨hsteps' ∘ hsteps, by simpa [hstep, hcont] using hstepped,
            by simpa [hstep, hcont] using hcontinued⟩

/-- **The reason of a pause.**  In a run every stop at a breakpoint is said to
be one, and no end of a step is, exactly if every breakpoint that stops the
thread in the middle of a step does so while a break on start or a step of the
dynamic side is outstanding. -/
theorem pause_reason {events : List ThreadEvent} (hrun : ThreadRun events) :
    (∀ k e, events[k]? = some e → ReasonFits (stateAt step {} events k) e) ↔
      ∀ k, EventAt step {} events BreakpointStops k → SteppedLast events k →
        (stateAt step {} events k).breakOnStartFlag = true ∨
          (stateAt step {} events k).hybrid.dynamicToStatic = true := by
  constructor
  · rintro hfits k ⟨e, he, location, hit, rfl, hstop⟩ hlast
    have hpaused := (hfits k _ he).1 ⟨location, hit, rfl, hstop⟩
    have hreason := (runningReason hrun k (hrun.fits he rfl)).stepped hlast
    rcases (isPausedByBreakPoint_onSingleStep hstop location).mp hpaused with h | h | h
    · exact .inl h
    · exact .inr h
    · rw [hreason] at h
      cases h
  · intro hcond k e he
    constructor
    · rintro ⟨location, hit, rfl, hstop⟩
      apply (isPausedByBreakPoint_onSingleStep hstop location).mpr
      by_cases hlast : SteppedLast events k
      · rcases hcond k ⟨_, he, location, hit, rfl, hstop⟩ hlast with h | h
        · exact .inl h
        · exact .inr (.inl h)
      · exact .inr (.inr ((runningReason hrun k (hrun.fits he rfl)).continued hlast))
    · -- a step in force has set the reason, and its end leaves it
      rintro ⟨location, hit, rfl, hstop, hflag, hdyn, hsteps, hends⟩
      have hreason := (runningReason hrun k (hrun.fits he rfl)).steps hsteps
      show (onSingleStep _ location hit).paused = true ∧
        (onSingleStep _ location hit).isPausedByBreakPoint = false
      simp [onSingleStep, hstop, hflag, hdyn, hends, isPausedByBreakPoint, hreason]

/-- A breakpoint stops the thread after it was continued, and the step that
follows completes. -/
def breakpointThenStep : List ThreadEvent :=
  [.command .continueThread, .callback (.singleStep ⟨"app.abc", 1, 0⟩ true),
    .command (.stepOver []), .callback (.singleStep ⟨"app.abc", 1, 4⟩ false)]

theorem breakpointThenStep_reason :
    ThreadRun breakpointThenStep ∧ ∀ k e, breakpointThenStep[k]? = some e →
      ReasonFits (stateAt step {} breakpointThenStep k) e := by
  refine ⟨by decide, (pause_reason (by decide)).mpr ?_⟩
  rintro k ⟨e, he, location, hit, rfl, hstop⟩ ⟨j, hj, ⟨e', he', hstep⟩, -⟩
  -- the only step command comes after the only breakpoint
  rcases k with - | - | - | - | k
  · simp [breakpointThenStep] at he
  · obtain rfl : j = 0 := by omega
    obtain rfl : ThreadEvent.command .continueThread = e' := Option.some.inj he'
    cases hstep
  · simp [breakpointThenStep] at he
  · obtain ⟨-, rfl⟩ : _ ∧ false = hit := by simpa [breakpointThenStep] using he
    simp [shouldStopAtBreakpoint] at hstop
  · simp [breakpointThenStep] at he

/-- A breakpoint is met in the middle of a step. -/
def stepToBreakpoint : List ThreadEvent :=
  [.command (.stepOver [⟨"app.abc", 1, 0⟩]), .callback (.singleStep ⟨"app.abc", 1, 4⟩ true)]

theorem stepToBreakpoint_reason :
    ThreadRun stepToBreakpoint ∧
      ¬ ReasonFits (stateAt step {} stepToBreakpoint 1)
        (.callback (.singleStep ⟨"app.abc", 1, 4⟩ true)) := by
  refine ⟨by decide, fun h => ?_⟩
  have hreason := h.1 ⟨_, _, rfl, rfl⟩
  exact absurd hreason (by decide)

/-! ### Break on start -/

namespace ThreadState

def PausesAt (ts : ThreadState) (e : ThreadEvent) : Prop :=
  e.isHook = true ∧ ts.paused = false ∧ (ts.step e).paused = true

/-- A single-step callback without a breakpoint, which pauses because of
`BreakOnStart`. -/
def BreaksOnStart (ts : ThreadState) (e : ThreadEvent) : Prop :=
  ∃ location hit, e = .callback (.singleStep location hit) ∧ ts.breakOnStartFlag = true ∧
    ts.shouldStopAtBreakpoint hit = false

/-- As long as the break on start is outstanding, no breakpoint and no
exception pauses the thread. -/
def MeetsStart (ts : ThreadState) : ThreadEvent → Prop
  | .callback (.singleStep _ hit) =>
    ts.breakOnStartFlag = true → ts.shouldStopAtBreakpoint hit = false
  | .callback (.exception uncaught) =>
    ts.breakOnStartFlag = true → ts.skipAllPauses = true ∨ ts.exceptionPauses uncaught = false
  | .callback _ | .command _ | .hybridFlags _ => True

/-- After `BreakOnStart` at most one pause is caused by it, and none once the
thread has paused and been continued. -/
structure OneShot (ts : ThreadState) (events : List ThreadEvent) : Prop where
  once : ∀ j k, EventAt step ts events BreaksOnStart j → EventAt step ts events BreaksOnStart k →
    j = k
  not_again : ∀ p c k, p < c → c < k → EventAt step ts events PausesAt p →
    events[c]? = some (.command .continueThread) → ¬ EventAt step ts events BreaksOnStart k

variable {ts : ThreadState} {e : ThreadEvent}

theorem breakOnStartFlag_onSingleStep (location : PtLocation) (hit : Bool) :
    (ts.onSingleStep location hit).breakOnStartFlag = true ↔
      ts.breakOnStartFlag = true ∧ ts.shouldStopAtBreakpoint hit = true := by
  fun_cases onSingleStep ts location hit <;> simp_all

theorem breakOnStartFlag_onException (ts : ThreadState) (uncaught : Bool) :
    (ts.onException uncaught).breakOnStartFlag = ts.breakOnStartFlag := by
  fun_cases onException ts uncaught <;> rfl

theorem breakOnStartFlag_command (ts : ThreadState) (c : ServerCommand) :
    (c.onState ts).breakOnStartFlag = ts.breakOnStartFlag := by
  cases c with
  | pause =>
    show ts.pause.breakOnStartFlag = ts.breakOnStartFlag
    fun_cases pause ts <;> rfl
  | _ => rfl

theorem breakOnStartFlag_step (h : e ≠ .callback .breakOnStart) :
    (ts.step e).breakOnStartFlag = true ↔ ts.breakOnStartFlag = true ∧ ¬ ts.BreaksOnStart e := by
  rcases e with c | c | flags
  · simp [BreaksOnStart, step, breakOnStartFlag_command]
  · cases c with
    | singleStep location hit =>
      have hiff : ts.BreaksOnStart (.callback (.singleStep location hit)) ↔
          ts.breakOnStartFlag = true ∧ ts.shouldStopAtBreakpoint hit = false := by
        cases hit <;> simp [BreaksOnStart]
      rw [hiff, step, AppCallback.onState, breakOnStartFlag_onSingleStep]
      simp +contextual
    | exception uncaught | framePop | methodEntry =>
      simp [BreaksOnStart, step, AppCallback.onState, breakOnStartFlag_onException]
    | breakOnStart => exact absurd rfl h
  · simp [BreaksOnStart, step]

/-- A pause that comes while the break on start is outstanding is caused by it,
if the condition is met. -/
theorem breaksOnStart_of_pausesAt (hflag : ts.breakOnStartFlag = true) (hmeets : ts.MeetsStart e)
    (hpauses : ts.PausesAt e) : ts.BreaksOnStart e := by
  obtain ⟨hook, hnp, hpaused⟩ := hpauses
  rcases e with c | c | flags
  · cases hook
  · cases c with
    | singleStep location hit => exact ⟨location, hit, rfl, hflag, hmeets hflag⟩
    | exception uncaught =>
      have hrun : (ts.onException uncaught).paused = false := by
        rw [onException]
        split
        next => exact hnp
        next hskip => rw [if_neg (by simp [(hmeets hflag).resolve_left hskip])]
      cases hrun.symm.trans hpaused
    | framePop => cases ((paused_onFramePop ts).trans hnp).symm.trans hpaused
    | methodEntry => cases ((paused_onMethodEntry ts).trans hnp).symm.trans hpaused
    | breakOnStart => cases hook
  · cases hook

/-- An event that does not meet the condition pauses the thread and leaves the
flag set. -/
theorem pausesAt_of_not_meetsStart (hfits : e.Fits ts) (h : ¬ ts.MeetsStart e) :
    ts.PausesAt e ∧ (ts.step e).breakOnStartFlag = true := by
  rcases e with c | c | flags
  · exact absurd trivial h
  · cases c with
    | singleStep location hit =>
      obtain ⟨hflag, hstop⟩ := Classical.not_imp.mp h
      rw [Bool.not_eq_false] at hstop
      refine ⟨⟨rfl, hfits rfl, paused_onSingleStep_of_flag ts hflag location hit⟩, ?_⟩
      exact (breakOnStartFlag_onSingleStep location hit).mpr ⟨hflag, hstop⟩
    | exception uncaught =>
      obtain ⟨hflag, hno⟩ := Classical.not_imp.mp h
      rw [not_or, Bool.not_eq_false] at hno
      refine ⟨⟨rfl, hfits rfl, ?_⟩, (breakOnStartFlag_onException ts uncaught).trans hflag⟩
      show (ts.onException uncaught).paused = true
      rw [onException, if_neg hno.1, if_pos hno.2]
    | framePop | methodEntry | breakOnStart => exact absurd trivial h
  · exact absurd trivial h

variable {events : List ThreadEvent}

theorem breakOnStartFlag_of_le (hno : .callback .breakOnStart ∉ events) {j k : Nat} (hjk : j ≤ k)
    (hflag : (stateAt step ts events k).breakOnStartFlag = true) :
    (stateAt step ts events j).breakOnStartFlag = true := by
  induction k, hjk using Nat.le_induction with
  | base => exact hflag
  | succ k _ ih =>
    rcases he : events[k]? with - | e
    · rw [stateAt_succ_of_none he] at hflag
      exact ih hflag
    · rw [stateAt_succ he] at hflag
      have hne : e ≠ .callback .breakOnStart := fun h => hno (h ▸ List.mem_of_getElem? he)
      exact ih ((breakOnStartFlag_step hne).mp hflag).1

theorem not_breaksOnStart_before (hno : .callback .breakOnStart ∉ events) {j k : Nat} (hjk : j < k)
    (hk : EventAt step ts events BreaksOnStart k) (he : events[j]? = some e) :
    (stateAt step ts events j).breakOnStartFlag = true ∧
      ¬ (stateAt step ts events j).BreaksOnStart e := by
  obtain ⟨e', -, location, hit, -, hflag, -⟩ := hk
  have hnext := breakOnStartFlag_of_le hno hjk hflag
  have hne : e ≠ .callback .breakOnStart := fun h => hno (h ▸ List.mem_of_getElem? he)
  rw [stateAt_succ he] at hnext
  exact (breakOnStartFlag_step hne).mp hnext

theorem oneShot_of_meetsStart (hno : .callback .breakOnStart ∉ events)
    (hmeets : Admits step MeetsStart ts events) : OneShot ts events where
  once := by
    -- of two such pauses the later one would need the flag
    have hlt : ∀ j k, j < k → EventAt step ts events BreaksOnStart j →
        ¬ EventAt step ts events BreaksOnStart k := by
      rintro j k hjk ⟨e, he, hbreaks⟩ hk
      exact (not_breaksOnStart_before hno hjk hk he).2 hbreaks
    intro j k hj hk
    rcases Nat.lt_trichotomy j k with h | h | h
    · exact absurd hk (hlt j k h hj)
    · exact h
    · exact absurd hj (hlt k j h hk)
  not_again := by
    rintro p c k hpc hck ⟨e, he, hpauses⟩ - hk
    obtain ⟨hflag, hbreaks⟩ := not_breaksOnStart_before hno (hpc.trans hck) hk he
    exact hbreaks (breaksOnStart_of_pausesAt hflag (hmeets.fits he) hpauses)

end ThreadState

/-- The first `k` events; then the thread is continued, and a callback without
a breakpoint follows. -/
def thenContinued (events : List ThreadEvent) (k : Nat) (location : PtLocation) :
    List ThreadEvent :=
  events.take k ++ [.command .continueThread, .callback (.singleStep location false)]

/-- **Break on start is one-shot** in every run in which, as long as it is
outstanding, neither a breakpoint nor an exception pauses the thread.  A run
in which one does can go on so that it is not: the thread is continued after
that pause, and the next callback pauses it. -/
theorem break_on_start_once {before after : List ThreadEvent}
    (hrun : ThreadRun (before ++ .callback .breakOnStart :: after))
    (hno : .callback .breakOnStart ∉ after) :
    (Admits step MeetsStart (before.foldl step {}).breakOnStart after →
      OneShot (before.foldl step {}).breakOnStart after) ∧
    (¬ Admits step MeetsStart (before.foldl step {}).breakOnStart after →
      ∃ k, ∀ location,
        ThreadRun (before ++ .callback .breakOnStart :: thenContinued after k location) ∧
          ¬ OneShot (before.foldl step {}).breakOnStart (thenContinued after k location)) := by
  refine ⟨oneShot_of_meetsStart hno, fun hmisfit => ?_⟩
  set ts := (before.foldl step {}).breakOnStart
  obtain ⟨hbefore, hstart, hafter⟩ : _ ∧ _ ∧ Admits step (fun ts e => e.Fits ts) ts after :=
    admits_append.mp hrun
  obtain ⟨k, e, he, -, hbad⟩ := exists_first_misfit hmisfit
  obtain ⟨hpauses, hflag⟩ := pausesAt_of_not_meetsStart (hafter.fits he) hbad
  have hk : k < after.length := (List.getElem?_eq_some_iff.mp he).1
  have hlen : (after.take (k + 1)).length = k + 1 := List.length_take_of_le hk
  -- the state after the pause, with the flag still set
  have hlast : (after.take (k + 1)).foldl step ts = (stateAt step ts after k).step e :=
    stateAt_succ he
  refine ⟨k + 1, fun location => ⟨?_, fun hone => ?_⟩⟩
  · refine admits_append.mpr ⟨hbefore, hstart, admits_append.mpr ⟨hafter.take (k + 1), ?_⟩⟩
    exact ⟨by simp [ThreadEvent.Fits, ThreadEvent.isHook], fun _ => rfl, trivial⟩
  · refine hone.not_again k (after.take (k + 1)).length ((after.take (k + 1)).length + 1)
      (by omega) (by omega) ?_ ?_ ?_
    · rw [thenContinued, eventAt_append_of_lt (by omega),
        ← eventAt_append_of_lt (by omega) (after.drop (k + 1)), List.take_append_drop]
      exact ⟨e, he, hpauses⟩
    · rw [thenContinued, List.getElem?_append_right (Nat.le_refl _), Nat.sub_self]
      rfl
    · rw [thenContinued, eventAt_append_add]
      refine ⟨.callback (.singleStep location false), rfl, location, false, rfl, ?_, ?_⟩
      · rw [hlast]
        exact hflag
      · exact ite_self false

/-- The thread breaks on start and is continued; later there is a breakpoint. -/
def startThenBreakpoint : List ThreadEvent :=
  [.callback (.singleStep ⟨"app.abc", 1, 0⟩ false), .command .continueThread,
    .callback (.singleStep ⟨"app.abc", 1, 4⟩ true)]

theorem startThenBreakpoint_oneShot : OneShot (breakOnStart {}) startThenBreakpoint := by
  have hrun : ThreadRun ([] ++ .callback .breakOnStart :: startThenBreakpoint) := by decide
  apply (break_on_start_once hrun (by decide)).1
  -- at the breakpoint the flag has been cleared
  refine ⟨fun _ => rfl, trivial, fun hflag => ?_, trivial⟩
  cases hflag

def startAtBreakpoint : List ThreadEvent :=
  [.callback (.singleStep ⟨"app.abc", 1, 0⟩ true), .command .continueThread,
    .callback (.singleStep ⟨"app.abc", 1, 4⟩ false)]

theorem startAtBreakpoint_not_oneShot :
    ThreadRun (.callback .breakOnStart :: startAtBreakpoint) ∧
      ¬ OneShot (breakOnStart {}) startAtBreakpoint := by
  refine ⟨by decide, fun hone => ?_⟩
  refine hone.not_again 0 1 2 (by omega) (by omega) ?_ rfl ?_
  · exact ⟨_, rfl, rfl, rfl, rfl⟩
  · exact ⟨_, rfl, _, _, rfl, rfl, rfl⟩

end ArkToolchain
