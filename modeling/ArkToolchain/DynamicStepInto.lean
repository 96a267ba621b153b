/-
Stepping into on the dynamic side (tooling/dynamic/backend/js_single_stepper.cpp).

Unlike the step over, the step into compares methods and no depths.  A method that calls itself
on the starting line is not told from the starting activation, so the step goes on there.

Main result: `dynamic_step_into`.
-/
import ArkToolchain.DynamicStepping

namespace ArkToolchain

open SingleStepper

variable {info : DebugInfo} {stepper : SingleStepper}

/-- Where a step into from line `line` of `start` should complete: in another
activation, or on another line. -/
def IntoTarget (info : DebugInfo) (stack : CallStack) (start : Activation) (line : Int)
    (events : List JsEvent) (k : Nat) : Prop :=
  ∃ a bcOffset, CallbackAt info stack events k a bcOffset ∧
    ¬ (a = start ∧ lineOf (info.lineNumberTable a.method) bcOffset = some line)

/-- A callback of another activation of the starting method, on the starting
line. -/
def Recursed (info : DebugInfo) (stack : CallStack) (start : Activation) (line : Int)
    (events : List JsEvent) (k : Nat) : Prop :=
  ∃ a bcOffset, CallbackAt info stack events k a bcOffset ∧ a ≠ start ∧
    a.method = start.method ∧ lineOf (info.lineNumberTable start.method) bcOffset = some line

theorem SingleStepper.firesAt_into_iff {stack : CallStack} {start : Activation} {line : Int}
    {events : List JsEvent} {k : Nat} (hmethod : stepper.method = start.method)
    (hranges : stepper.stepRanges = rangesOfLine line (info.lineNumberTable start.method))
    (htype : stepper.type = .stepInto) (hnest : JsWellNested stack events) :
    stepper.FiresAt info stack events k ↔
      IntoTarget info stack start line events k ∧ ¬ Recursed info stack start line events k := by
  rw [firesAt_iff, IntoTarget, Recursed, exists_callback_and_not]
  refine exists₂_congr fun a bcOffset => and_congr_right fun hcallback => ?_
  rw [stepComplete_stepInto htype, hmethod, inStepRange_callback_iff hranges hnest hcallback.1]
  -- the starting method on the starting line: the start, or a recursion
  by_cases hact : a = start
  · simp [hact]
  · simp [hact]

namespace JsThread

variable {thread : JsThread} {start : Activation} {rest : List Activation}

/-- **Stepping into**, from line `line` of the activation `start`.  The step
completes where it should in exactly those traces in which the callback where
it should complete is not one of another activation of the same method on the
same line, and comes after any earlier request to pause has been served; the start of the script
has been reported, and the static side has not asked for a pause. -/
theorem dynamic_step_into {offset : Nat} {line : Int} {events : List JsEvent}
    (hnotifies : thread.Notifies) (hpaused : thread.debugger.debuggerState = .paused)
    (hstart : thread.stack.activations = start :: rest)
    (hinfo : info.hasExtractor start.method.jsPandaFile = true)
    (hline : lineOf (info.lineNumberTable start.method) offset = some line)
    (hnest : JsWellNested thread.stack events) :
    (∀ k, (thread.stepInto info offset).CompletesAt info events k ↔
        FirstAt (IntoTarget info thread.stack start line events) k) ↔
      ∀ k, FirstAt (IntoTarget info thread.stack start line events) k →
        ¬ Recursed info thread.stack start line events k ∧ RequestGone info thread events k := by
  -- the command is given on `line`, so its ranges are recorded
  exact completes_iff .stepInto hnotifies hpaused hinfo (by rw [stepInto, hstart]; rfl)
    fun k => firesAt_into_iff rfl (getStepRanges_eq hline) rfl hnest

/-- Another method is called on the current line. -/
theorem callAndNextLine_into :
    FirstAt
      (IntoTarget sampleInfo sampleThread.stack ⟨1, ⟨"app.abc", 1⟩⟩ 10 callAndNextLine) 1 := by
  obtain ⟨hline, hnest⟩ := callAndNextLine_fits
  have hstart : sampleThread.stack.activations = _ :: _ := rfl
  have hstep := dynamic_step_into ⟨rfl, rfl⟩ rfl hstart rfl hline hnest
  refine (hstep.mpr ?_ 1).mp ⟨0, rfl, ⟨rfl, rfl⟩, by decide, by decide⟩
  intro k _
  refine ⟨?_, fun hrequest => absurd hrequest (by decide)⟩
  rintro ⟨a, bcOffset, hcallback, hne, hmethod, -⟩
  rcases callAndNextLine_callback hcallback with ⟨-, hcallee⟩ | hact
  · exact absurd (hcallee.symm.trans hmethod) (by decide)
  · exact hne hact

/-- The method calls itself on the current line. -/
def recurse : List JsEvent :=
  [.call ⟨"app.abc", 1⟩, .singleStep 0]

theorem recurse_not_completes :
    JsWellNested sampleThread.stack recurse ∧
      FirstAt (IntoTarget sampleInfo sampleThread.stack ⟨1, ⟨"app.abc", 1⟩⟩ 10 recurse) 1 ∧
      ¬ (sampleThread.stepInto sampleInfo 0).CompletesAt sampleInfo recurse 1 := by
  refine ⟨by decide, ⟨?_, ?_⟩, ?_⟩
  · exact ⟨⟨2, ⟨"app.abc", 1⟩⟩, 0, ⟨rfl, rfl, by decide⟩, by decide⟩
  · rintro j hj ⟨a, bcOffset, ⟨he, -, -⟩, -⟩
    obtain rfl : j = 0 := by omega
    simp [recurse] at he
  · rintro ⟨bcOffset, he, -, -, hnotify⟩
    obtain rfl : 0 = bcOffset := JsEvent.singleStep.inj (Option.some.inj he)
    exact absurd hnotify (by decide)

end JsThread

end ArkToolchain
