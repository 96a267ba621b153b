/-
Stepping over and out on the dynamic side, in terms of activations and source lines.

The stepper compares depths and bytecode offsets only.  At the starting depth it takes every
callback whose offset lies in the recorded ranges for one on the starting line, also one of
another activation, whose method need not even be the same.

A pause on the next bytecode that has been requested before the command is served first, and the
step is over unless pauses are skipped; this is the condition `RequestGone`.

Main result: `dynamic_stepping`.
-/
import ArkToolchain.JsThread

namespace ArkToolchain

open SingleStepper DebuggerImpl

/-! ### The specification -/

/-- The step completes at event `k`: `NotifySingleStep` is called and makes the thread
pause, and not because that was requested. -/
def JsThread.CompletesAt (info : DebugInfo) (thread : JsThread) (events : List JsEvent)
    (k : Nat) : Prop :=
  ∃ bcOffset, events[k]? = some (.singleStep bcOffset) ∧
    (stateAt (step info) thread events k).Notifies ∧
    (stateAt (step info) thread events k).debugger.pauseOnNextByteCode = false ∧
    ((stateAt (step info) thread events k).notifySingleStep info bcOffset).1 = true

variable (info : DebugInfo) (stack : CallStack)

/-- Event `k` is a callback, not skipped, of activation `a` at offset
`bcOffset`. -/
def CallbackAt (events : List JsEvent) (k : Nat) (a : Activation) (bcOffset : Nat) : Prop :=
  events[k]? = some (.singleStep bcOffset) ∧
    (stateAt CallStack.after stack events k).activations.head? = some a ∧
    DebuggerImpl.isSkipLine info a.method bcOffset = false

variable {info stack} in
theorem CallbackAt.unique {events : List JsEvent} {k : Nat}
    {a a' : Activation} {bcOffset bcOffset' : Nat} (h : CallbackAt info stack events k a bcOffset)
    (h' : CallbackAt info stack events k a' bcOffset') : a = a' ∧ bcOffset = bcOffset' := by
  obtain ⟨he, ha, -⟩ := h
  obtain ⟨he', ha', -⟩ := h'
  refine ⟨Option.some.inj (ha.symm.trans ha'), ?_⟩
  exact JsEvent.singleStep.inj (Option.some.inj (he.symm.trans he'))

/-- Where a step over from line `line` of `start` should complete. -/
def OverTarget (start : Activation) (line : Int) (events : List JsEvent) (k : Nat) : Prop :=
  ∃ a bcOffset, CallbackAt info stack events k a bcOffset ∧
    (stateAt CallStack.after stack events k).depth ≤ stack.depth ∧
    ¬ (a = start ∧ lineOf (info.lineNumberTable a.method) bcOffset = some line)

def OutTarget (events : List JsEvent) (k : Nat) : Prop :=
  ∃ a bcOffset, CallbackAt info stack events k a bcOffset ∧
    (stateAt CallStack.after stack events k).depth < stack.depth

/-- A callback of another activation at the starting depth, at an offset that
the line table of the starting method assigns to the starting line. -/
def Confused (start : Activation) (line : Int) (events : List JsEvent) (k : Nat) : Prop :=
  ∃ a bcOffset, CallbackAt info stack events k a bcOffset ∧
    (stateAt CallStack.after stack events k).depth = stack.depth ∧ a ≠ start ∧
    lineOf (info.lineNumberTable start.method) bcOffset = some line

/-- No pause on the next bytecode was requested when the debugger got the
command, or it has been served before event `k` without a pause. -/
def RequestGone (thread : JsThread) (events : List JsEvent) (k : Nat) : Prop :=
  thread.debugger.pauseOnNextByteCode = true →
    thread.debugger.skipAllPauses = true ∧
      ∃ j < k, ∃ a bcOffset, CallbackAt info thread.stack events j a bcOffset

/-! ### When a stepper completes -/

variable {info} {stepper : SingleStepper}

/-- A callback at the given offset completes the step. -/
def SingleStepper.Fires (info : DebugInfo) (stepper : SingleStepper) (stack : CallStack)
    (bcOffset : Nat) : Prop :=
  ∃ a, stack.activations.head? = some a ∧ DebuggerImpl.isSkipLine info a.method bcOffset = false ∧
    stepper.stepComplete a.method stack.depth bcOffset = true

/-- Event `k` is such a callback. -/
def SingleStepper.FiresAt (info : DebugInfo) (stepper : SingleStepper) (stack : CallStack)
    (events : List JsEvent) (k : Nat) : Prop :=
  ∃ bcOffset, events[k]? = some (.singleStep bcOffset) ∧
    stepper.Fires info (stateAt CallStack.after stack events k) bcOffset

namespace JsThread

variable {thread : JsThread}

theorem stack_stateAt (thread : JsThread) (events : List JsEvent) (k : Nat) :
    (stateAt (step info) thread events k).stack
      = stateAt CallStack.after thread.stack events k :=
  map_stateAt (fun _ e => by cases e <;> rfl) thread events k

variable {bcOffset : Nat}

theorem notifySingleStep_of_fires (hnext : thread.debugger.pauseOnNextByteCode = false)
    (hstepper : thread.debugger.singleStepper = some stepper)
    (h : stepper.Fires info thread.stack bcOffset) :
    thread.notifySingleStep info bcOffset =
      (true, { thread.debugger with singleStepper := none, singleStepStatus := true }) := by
  obtain ⟨a, ha, hskip, hcomplete⟩ := h
  obtain ⟨rest, hrest⟩ := List.head?_eq_some_iff.mp ha
  simp [notifySingleStep, DebuggerImpl.notifySingleStep, hrest, hnext, hstepper, hcomplete, hskip]

theorem notifySingleStep_of_not_fires (hnext : thread.debugger.pauseOnNextByteCode = false)
    (hstepper : thread.debugger.singleStepper = some stepper)
    (h : ¬ stepper.Fires info thread.stack bcOffset) :
    thread.notifySingleStep info bcOffset = (false, thread.debugger) := by
  rcases hstack : thread.stack.activations with - | ⟨a, rest⟩
  · simp [notifySingleStep, hstack]
  · -- the code asks for completion first and for a skipped line then
    have hor : stepper.stepComplete a.method thread.stack.depth bcOffset = true →
        DebuggerImpl.isSkipLine info a.method bcOffset = true := by
      intro hcomplete
      by_contra hskip
      exact h ⟨a, by simp [hstack], by simpa using hskip, hcomplete⟩
    simp only [notifySingleStep, DebuggerImpl.notifySingleStep, hstack, hnext, hstepper]
    rcases hcomplete : stepper.stepComplete a.method thread.stack.depth bcOffset with - | -
    · simp
    · simp [hor hcomplete]

theorem notifySingleStep_of_none (hnext : thread.debugger.pauseOnNextByteCode = false)
    (hstepper : thread.debugger.singleStepper = none) (bcOffset : Nat) :
    thread.notifySingleStep info bcOffset = (false, thread.debugger) := by
  rcases hstack : thread.stack.activations with - | ⟨a, rest⟩ <;>
    simp [notifySingleStep, DebuggerImpl.notifySingleStep, hstack, hnext, hstepper]

theorem notifySingleStep_of_request (hnext : thread.debugger.pauseOnNextByteCode = true)
    {a : Activation} (ha : thread.stack.activations.head? = some a) (bcOffset : Nat) :
    thread.notifySingleStep info bcOffset =
      if DebuggerImpl.isSkipLine info a.method bcOffset then (false, thread.debugger)
      else (true, { thread.debugger with pauseOnNextByteCode := false }) := by
  obtain ⟨rest, hrest⟩ := List.head?_eq_some_iff.mp ha
  simp [notifySingleStep, DebuggerImpl.notifySingleStep, hrest, hnext]

variable {events : List JsEvent} {k : Nat}

section Course

variable (hnotifies : thread.Notifies)
include hnotifies

theorem debugger_succ (h : ∀ bcOffset, events[k]? = some (.singleStep bcOffset) →
      (stateAt (step info) thread events k).notifySingleStep info bcOffset
        = (false, (stateAt (step info) thread events k).debugger)) :
    (stateAt (step info) thread events (k + 1)).debugger
      = (stateAt (step info) thread events k).debugger := by
  rcases he : events[k]? with - | e
  · rw [stateAt_succ_of_none he]
  · rw [stateAt_succ he]
    cases e with
    | call method | ret => rfl
    | singleStep bcOffset =>
      show (stateAt (step info) thread events k).singleStep info bcOffset = _
      rw [(hnotifies.stateAt events k).singleStep_eq, h bcOffset he]
      rfl

theorem debugger_succ_of_notify {dbg : DebuggerImpl} (he : events[k]? = some (.singleStep bcOffset))
    (h : (stateAt (step info) thread events k).notifySingleStep info bcOffset = (true, dbg)) :
    (stateAt (step info) thread events (k + 1)).debugger = dbg.notifyPaused := by
  rw [stateAt_succ he]
  show (stateAt (step info) thread events k).singleStep info bcOffset = _
  rw [(hnotifies.stateAt events k).singleStep_eq, h]
  rfl

end Course

/-! ### The course of a step -/

/-- Event `k` completes the step if it is still under way. -/
def Effective (info : DebugInfo) (stepper : SingleStepper) (thread : JsThread)
    (events : List JsEvent) (k : Nat) : Prop :=
  stepper.FiresAt info thread.stack events k ∧ RequestGone info thread events k

/-- The debugger before event `k`: the request has not been served yet, or the
step is under way, or it is over. -/
inductive Phase (info : DebugInfo) (stepper : SingleStepper) (thread : JsThread)
    (events : List JsEvent) (k : Nat) (dbg : DebuggerImpl) : Prop
  | requested (hrequest : thread.debugger.pauseOnNextByteCode = true)
      (hnone : ∀ j < k, ¬ ∃ a bcOffset, CallbackAt info thread.stack events j a bcOffset)
      (hdbg : dbg = thread.debugger)
  | underWay (hgone : RequestGone info thread events k)
      (hnone : ∀ j < k, ¬ Effective info stepper thread events j)
      (hnext : dbg.pauseOnNextByteCode = false) (hstepper : dbg.singleStepper = some stepper)
  | ended (hover : (∃ j < k, Effective info stepper thread events j) ∨
        ¬ ∃ j, RequestGone info thread events j)
      (hnext : dbg.pauseOnNextByteCode = false) (hstepper : dbg.singleStepper = none)

theorem requestGone_mono {j : Nat} (hjk : j ≤ k) (h : RequestGone info thread events j) :
    RequestGone info thread events k := by
  intro hrequest
  obtain ⟨hskip, i, hi, hcallback⟩ := h hrequest
  exact ⟨hskip, i, Nat.lt_of_lt_of_le hi hjk, hcallback⟩

theorem phase_succ_of_requested (hnotifies : thread.Notifies)
    (hstepper : thread.debugger.singleStepper = some stepper)
    (hrequest : thread.debugger.pauseOnNextByteCode = true)
    (hnone : ∀ j < k, ¬ ∃ a bcOffset, CallbackAt info thread.stack events j a bcOffset)
    (hdbg : (stateAt (step info) thread events k).debugger = thread.debugger) :
    Phase info stepper thread events (k + 1)
      (stateAt (step info) thread events (k + 1)).debugger := by
  have hnext : (stateAt (step info) thread events k).debugger.pauseOnNextByteCode = true := by
    rw [hdbg]
    exact hrequest
  by_cases hk : ∃ a bcOffset, CallbackAt info thread.stack events k a bcOffset
  · obtain ⟨a, bcOffset, he, ha, hskip⟩ := id hk
    rw [← stack_stateAt] at ha
    rw [debugger_succ_of_notify hnotifies he
      (by rw [notifySingleStep_of_request hnext ha, hskip, if_neg (by simp)]), hdbg]
    rcases hpauses : thread.debugger.skipAllPauses with - | -
    · -- the thread pauses, and the stepper is gone
      refine .ended (.inr ?_) ?_ ?_
      · rintro ⟨j, hgone⟩
        exact absurd (hgone hrequest).1 (by simp [hpauses])
      all_goals
        simp [notifyPaused, hpauses]
    · -- `NotifyPaused` returns at once, and the step goes on
      refine .underWay (fun _ => ⟨hpauses, k, Nat.lt_succ_self k, hk⟩) ?_ ?_ ?_
      · rintro j hj ⟨-, hgone⟩
        obtain ⟨-, i, hi, hcallback⟩ := hgone hrequest
        exact hnone i (by omega) hcallback
      · simp [notifyPaused, hpauses]
      · simpa [notifyPaused, hpauses] using hstepper
  · -- no callback, or a skipped one: the request stays
    rw [debugger_succ hnotifies]
    · exact .requested hrequest (Nat.forall_lt_succ_right.mpr ⟨hnone, hk⟩) hdbg
    · intro bcOffset he
      rcases hhead : (stateAt (step info) thread events k).stack.activations.head? with - | a
      · rw [List.head?_eq_none_iff] at hhead
        simp [notifySingleStep, hhead]
      · rw [notifySingleStep_of_request hnext hhead, if_pos]
        by_contra hskip
        rw [stack_stateAt] at hhead
        exact hk ⟨a, bcOffset, he, hhead, by simpa using hskip⟩

theorem phase_succ_of_underWay (hnotifies : thread.Notifies)
    (hgone : RequestGone info thread events k)
    (hnone : ∀ j < k, ¬ Effective info stepper thread events j)
    (hnext : (stateAt (step info) thread events k).debugger.pauseOnNextByteCode = false)
    (hstepper : (stateAt (step info) thread events k).debugger.singleStepper = some stepper) :
    Phase info stepper thread events (k + 1)
      (stateAt (step info) thread events (k + 1)).debugger := by
  by_cases hk : stepper.FiresAt info thread.stack events k
  · -- the step completes at this event
    obtain ⟨bcOffset, he, hfires⟩ := id hk
    rw [← stack_stateAt thread] at hfires
    rw [debugger_succ_of_notify hnotifies he (notifySingleStep_of_fires hnext hstepper hfires)]
    refine .ended (.inl ⟨k, Nat.lt_succ_self k, hk, hgone⟩) ?_ ?_
    · unfold notifyPaused
      split <;> exact hnext
    · unfold notifyPaused
      split <;> rfl
  · -- nothing happens, and the step stays under way
    rw [debugger_succ hnotifies]
    · exact .underWay (requestGone_mono (Nat.le_succ k) hgone)
        (Nat.forall_lt_succ_right.mpr ⟨hnone, fun heff => hk heff.1⟩) hnext hstepper
    · intro bcOffset he
      apply notifySingleStep_of_not_fires hnext hstepper
      rw [stack_stateAt]
      exact fun hfires => hk ⟨bcOffset, he, hfires⟩

section

variable (hnotifies : thread.Notifies) (hstepper : thread.debugger.singleStepper = some stepper)
include hnotifies hstepper

theorem phase_stateAt (events : List JsEvent) (k : Nat) :
    Phase info stepper thread events k (stateAt (step info) thread events k).debugger := by
  induction k with
  | zero =>
    rcases hnext : thread.debugger.pauseOnNextByteCode with - | -
    · exact .underWay (fun h => by simp [hnext] at h) (by simp) hnext hstepper
    · exact .requested hnext (by simp) rfl
  | succ k ih =>
    cases ih with
    | requested hrequest hnone hdbg =>
      exact phase_succ_of_requested hnotifies hstepper hrequest hnone hdbg
    | underWay hgone hnone hnext hsome =>
      exact phase_succ_of_underWay hnotifies hgone hnone hnext hsome
    | ended hover hnext hgone =>
      rw [debugger_succ hnotifies fun bcOffset _ => notifySingleStep_of_none hnext hgone bcOffset]
      refine .ended (hover.imp_left ?_) hnext hgone
      rintro ⟨j, hj, heff⟩
      exact ⟨j, Nat.lt_succ_of_lt hj, heff⟩

theorem completesAt_iff (events : List JsEvent) (k : Nat) :
    thread.CompletesAt info events k ↔ FirstAt (Effective info stepper thread events) k := by
  have hphase : Phase info stepper thread events k _ := phase_stateAt hnotifies hstepper events k
  cases hphase with
  | requested hrequest hnone hdbg =>
    -- the request comes first, and an effective event would need it to be gone
    constructor
    · rintro ⟨bcOffset, he, -, hnext, -⟩
      rw [hdbg, hrequest] at hnext
      simp at hnext
    · rintro ⟨⟨-, hgone⟩, -⟩
      obtain ⟨-, j, hj, hcallback⟩ := hgone hrequest
      exact absurd hcallback (hnone j hj)
  | underWay hgone hnone hnext hsome =>
    -- no earlier event was effective, so this one is the first if it fires
    constructor
    · rintro ⟨bcOffset, he, -, -, hnotify⟩
      refine ⟨⟨⟨bcOffset, he, ?_⟩, hgone⟩, hnone⟩
      rw [← stack_stateAt]
      by_contra hfires
      rw [notifySingleStep_of_not_fires hnext hsome hfires] at hnotify
      simp at hnotify
    · rintro ⟨⟨⟨bcOffset, he, hfires⟩, -⟩, -⟩
      rw [← stack_stateAt] at hfires
      exact ⟨bcOffset, he, hnotifies.stateAt events k, hnext, by rw [notifySingleStep_of_fires hnext hsome hfires]⟩
  | ended hover hnext hgone =>
    -- the stepper is gone: an earlier event was effective, or none ever is
    constructor
    · rintro ⟨bcOffset, he, -, -, hnotify⟩
      rw [notifySingleStep_of_none hnext hgone] at hnotify
      simp at hnotify
    · rintro ⟨hk, hlt⟩
      rcases hover with ⟨j, hj, heff⟩ | hnever
      · exact absurd heff (hlt j hj)
      · exact absurd ⟨k, hk.2⟩ hnever

end

/-- Where the step of a command completes, when the callbacks that complete it
are the targets that meet a condition.  The command leaves the stack and an
earlier request to pause alone. -/
theorem completes_iff (type : StepperType) {thread' : JsThread} {Target Cond : Nat → Prop}
    {failMessage : String} {toStatic : Bool} {method : PtMethod} {offset : Nat}
    (hnotifies : thread.Notifies) (hpaused : thread.debugger.debuggerState = .paused)
    (hinfo : info.hasExtractor method.jsPandaFile = true)
    (hthread : thread' = { thread with debugger := (thread.debugger.step info type failMessage
      toStatic method thread.stack.depth offset).2 })
    (hfires : ∀ k, SingleStepper.FiresAt info ⟨method,
      if type = .stepOut then [] else getStepRanges info method offset, thread.stack.depth, type⟩
      thread.stack events k ↔ Target k ∧ Cond k) :
    (∀ k, thread'.CompletesAt info events k ↔ FirstAt Target k) ↔
      ∀ k, FirstAt Target k → Cond k ∧ RequestGone info thread events k := by
  generalize hstepper : SingleStepper.mk _ _ _ _ = stepper at hfires
  have hget :
      SingleStepper.getStepper info type method thread.stack.depth offset = some stepper := by
    rw [← hstepper, SingleStepper.getStepper, hinfo]
    cases type <;> rfl
  have heff : ∀ k, Effective info stepper thread' events k ↔
      Target k ∧ Cond k ∧ RequestGone info thread events k := by
    intro k
    rw [← and_assoc, ← hfires, Effective, hthread]
    simp [RequestGone, DebuggerImpl.step, hpaused, hget]
  have hsome : thread'.debugger.singleStepper = some stepper := by
    simp [hthread, DebuggerImpl.step, hpaused, hget]
  have hnotifies' : thread'.Notifies := by
    have halone := hnotifies.alone
    refine ⟨by rw [hthread]; exact hnotifies.started, ?_⟩
    simpa [pausedFromStatic, hthread, DebuggerImpl.step, hpaused, hget] using halone
  simp only [completesAt_iff hnotifies' hsome]
  rw [forall_firstAt_iff_of_imp fun k hk => ((heff k).mp hk).1]
  exact forall₂_congr fun k hk => (heff k).trans (and_iff_right hk.1)

end JsThread

/-! ### Steppers and targets -/

namespace SingleStepper

variable {stack : CallStack} {start : Activation} {rest : List Activation} {line : Int}
  {events : List JsEvent} {k : Nat}

/-- At a callback, being in the recorded ranges is being on the starting line of
the starting method. -/
theorem inStepRange_callback_iff {bcOffset : Nat}
    (hranges : stepper.stepRanges = rangesOfLine line (info.lineNumberTable start.method))
    (hnest : JsWellNested stack events) (he : events[k]? = some (.singleStep bcOffset)) :
    inStepRange stepper.stepRanges bcOffset = true ↔
      lineOf (info.lineNumberTable start.method) bcOffset = some line := by
  rw [hranges]
  exact inStepRange_iff (info.increasing start.method) line (hnest.fits he).2

theorem firesAt_iff :
    stepper.FiresAt info stack events k ↔ ∃ a bcOffset, CallbackAt info stack events k a bcOffset ∧
      stepper.stepComplete a.method (stateAt CallStack.after stack events k).depth bcOffset
        = true := by
  constructor
  · rintro ⟨bcOffset, he, a, ha, hskip, hcomplete⟩
    exact ⟨a, bcOffset, ⟨he, ha, hskip⟩, hcomplete⟩
  · rintro ⟨a, bcOffset, ⟨he, ha, hskip⟩, hcomplete⟩
    exact ⟨bcOffset, he, a, ha, hskip, hcomplete⟩

theorem exists_callback_and_not {P Q : Activation → Nat → Prop} :
    ((∃ a bcOffset, CallbackAt info stack events k a bcOffset ∧ P a bcOffset) ∧
        ¬ ∃ a bcOffset, CallbackAt info stack events k a bcOffset ∧ Q a bcOffset) ↔
      ∃ a bcOffset, CallbackAt info stack events k a bcOffset ∧ P a bcOffset ∧ ¬ Q a bcOffset := by
  constructor
  · rintro ⟨⟨a, bcOffset, hcallback, hP⟩, hnot⟩
    exact ⟨a, bcOffset, hcallback, hP, fun hQ => hnot ⟨a, bcOffset, hcallback, hQ⟩⟩
  · rintro ⟨a, bcOffset, hcallback, hP, hnot⟩
    refine ⟨⟨a, bcOffset, hcallback, hP⟩, ?_⟩
    rintro ⟨a', bcOffset', hcallback', hQ⟩
    obtain ⟨rfl, rfl⟩ := hcallback.unique hcallback'
    exact hnot hQ

theorem firesAt_over_iff (hstart : stack.activations = start :: rest)
    (hranges : stepper.stepRanges = rangesOfLine line (info.lineNumberTable start.method))
    (hdepth : stepper.stackDepth = stack.depth) (htype : stepper.type = .stepOver)
    (hnest : JsWellNested stack events) :
    stepper.FiresAt info stack events k ↔
      OverTarget info stack start line events k ∧ ¬ Confused info stack start line events k := by
  rw [firesAt_iff, OverTarget, Confused, exists_callback_and_not]
  refine exists₂_congr fun a bcOffset => and_congr_right fun hcallback => ?_
  rw [stepComplete_stepOver htype, hdepth, inStepRange_callback_iff hranges hnest hcallback.1]
  by_cases hact : a = start
  · -- the starting activation is never current above its own depth
    subst hact
    have hge := (CallStack.later_stateAt stack events k).depth_le hstart hcallback.2.1
    simpa using fun hle => not_congr (and_iff_right (Nat.le_antisymm hle hge))
  · simp [hact]

theorem firesAt_out_iff (hdepth : stepper.stackDepth = stack.depth)
    (htype : stepper.type = .stepOut) :
    stepper.FiresAt info stack events k ↔ OutTarget info stack events k := by
  simp only [firesAt_iff, stepComplete_stepOut htype, hdepth]
  rfl

end SingleStepper

/-! ### The commands -/

namespace JsThread

variable {thread : JsThread} {start : Activation} {rest : List Activation}

/-- **Stepping over and out**, from line `line` of the activation `start`.  A
step over completes where it should in exactly those traces in which the
callback where it should complete is not one of another activation at the
starting depth, at an offset that belongs to the starting line in the starting
method; a step out completes where it should.  Both need that no earlier
request to pause comes in between; the start of the script has been reported, and the static
side has not asked for a pause. -/
theorem dynamic_stepping {offset : Nat} {line : Int} {events : List JsEvent}
    (hnotifies : thread.Notifies) (hpaused : thread.debugger.debuggerState = .paused)
    (hstart : thread.stack.activations = start :: rest)
    (hinfo : info.hasExtractor start.method.jsPandaFile = true)
    (hline : lineOf (info.lineNumberTable start.method) offset = some line)
    (hnest : JsWellNested thread.stack events) :
    ((∀ k, (thread.stepOver info offset).CompletesAt info events k ↔
        FirstAt (OverTarget info thread.stack start line events) k) ↔
      ∀ k, FirstAt (OverTarget info thread.stack start line events) k →
        ¬ Confused info thread.stack start line events k ∧ RequestGone info thread events k) ∧
    ((∀ k, (thread.stepOut info offset).CompletesAt info events k ↔
        FirstAt (OutTarget info thread.stack events) k) ↔
      ∀ k, FirstAt (OutTarget info thread.stack events) k → RequestGone info thread events k) := by
  constructor
  · -- the command is given on `line`, so its ranges are recorded
    exact completes_iff .stepOver hnotifies hpaused hinfo (by rw [stepOver, hstart]; rfl)
      fun k => firesAt_over_iff hstart (getStepRanges_eq hline) rfl rfl hnest
  · refine (completes_iff .stepOut hnotifies hpaused hinfo (by rw [stepOut, hstart]; rfl) fun k =>
      (firesAt_out_iff rfl rfl).trans (and_iff_left trivial).symm).trans ?_
    simp

/-! ### Examples -/

/-- Two methods of an application and one of a library that the debugger does
not know. -/
def sampleInfo : DebugInfo where
  hasExtractor := fun _ => true
  matchScripts := fun file => file == "app.abc"
  lineNumberTable := fun m =>
    if m.methodId = 1 then [⟨0, 10⟩, ⟨4, 11⟩] else [⟨0, 20⟩]
  matchLineWithOffset := fun m offset =>
    (lineOf (if m.methodId = 1 then [⟨0, 10⟩, ⟨4, 11⟩] else [⟨0, 20⟩]) offset).getD 0
  increasing := by
    intro m
    split <;> simp
  matchLine_eq := by
    intro m offset line h
    rw [h]
    rfl

/-- Paused in a method that the library called. -/
def sampleThread : JsThread where
  stack :=
    { activations := [⟨1, ⟨"app.abc", 1⟩⟩, ⟨0, ⟨"lib.abc", 3⟩⟩]
      nextId := 2
      id_lt := by decide
      nodup := by decide }
  firstTime := false
  debugger := { debuggerState := .paused }

/-- A call from the current line, a further callback on that line, and one on
the next line. -/
def callAndNextLine : List JsEvent :=
  [.call ⟨"app.abc", 2⟩, .singleStep 0, .ret, .singleStep 2, .singleStep 4]

theorem callAndNextLine_fits :
    lineOf (sampleInfo.lineNumberTable ⟨"app.abc", 1⟩) 0 = some 10 ∧
      JsWellNested sampleThread.stack callAndNextLine := by
  decide

/-- The starting method has only one activation. -/
theorem callAndNextLine_callback {k : Nat} {a : Activation} {bcOffset : Nat}
    (h : CallbackAt sampleInfo sampleThread.stack callAndNextLine k a bcOffset) :
    k = 1 ∧ a.method = ⟨"app.abc", 2⟩ ∨ a = ⟨1, ⟨"app.abc", 1⟩⟩ := by
  obtain ⟨he, ha, -⟩ := h
  rcases k with _ | _ | _ | _ | _ | k
  · simp [callAndNextLine] at he
  · exact .inl ⟨rfl, congrArg Activation.method (Option.some.inj ha).symm⟩
  · simp [callAndNextLine] at he
  · exact .inr (Option.some.inj ha).symm
  · exact .inr (Option.some.inj ha).symm
  · simp [callAndNextLine] at he

theorem callAndNextLine_target :
    FirstAt
      (OverTarget sampleInfo sampleThread.stack ⟨1, ⟨"app.abc", 1⟩⟩ 10 callAndNextLine) 4 := by
  obtain ⟨hline, hnest⟩ := callAndNextLine_fits
  have hstart : sampleThread.stack.activations = _ :: _ := rfl
  have hstep := dynamic_stepping ⟨rfl, rfl⟩ rfl hstart rfl hline hnest
  refine (hstep.1.mpr ?_ 4).mp ⟨4, rfl, ⟨rfl, rfl⟩, by decide, by decide⟩
  intro k _
  refine ⟨?_, fun hrequest => absurd hrequest (by decide)⟩
  rintro ⟨a, bcOffset, hcallback, hdepth, hne, -⟩
  rcases callAndNextLine_callback hcallback with ⟨rfl, -⟩ | hact
  · exact absurd hdepth (by decide)
  · exact hne hact

/-- The method returns to the library, which calls another one. -/
def returnAndCall : List JsEvent :=
  [.ret, .call ⟨"app.abc", 2⟩, .singleStep 0]

/-- The step over should complete in the other method, on line 20, but does
not: offset 0 is on the starting line in the starting method. -/
theorem returnAndCall_not_completes :
    JsWellNested sampleThread.stack returnAndCall ∧
      FirstAt (OverTarget sampleInfo sampleThread.stack ⟨1, ⟨"app.abc", 1⟩⟩ 10 returnAndCall) 2 ∧
      ¬ (sampleThread.stepOver sampleInfo 0).CompletesAt sampleInfo returnAndCall 2 := by
  refine ⟨by decide, ⟨?_, ?_⟩, ?_⟩
  · exact ⟨⟨2, ⟨"app.abc", 2⟩⟩, 0, ⟨rfl, rfl, by decide⟩, by decide, by decide⟩
  · rintro j hj ⟨a, bcOffset, ⟨he, -, -⟩, -⟩
    have : j = 0 ∨ j = 1 := by omega
    rcases this with rfl | rfl <;> simp [returnAndCall] at he
  · rintro ⟨bcOffset, he, -, -, hnotify⟩
    obtain rfl : 0 = bcOffset := JsEvent.singleStep.inj (Option.some.inj he)
    exact absurd hnotify (by decide)

end JsThread

end ArkToolchain
