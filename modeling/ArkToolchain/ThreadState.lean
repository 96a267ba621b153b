/-
The debugger's state of one thread on the static side
(tooling/static/debugger/thread_state.cpp), with the stack of frames and the callbacks of
tooling/static/inspector.cpp.

The debugger never sees a depth.  It can ask the VM to report the pop of the current frame
(`NotifyFramePop`), and it keeps one flag, `methodEntered`.

The answer of `BreakpointStorage::ShouldStopAtBreakpoint` comes with the event.  The flags of
`HybridSingleStepper`, a global object, are kept in the thread's state because only one thread
is looked at.

`ThreadState` has one function for each command and callback; `Debuggee` is a thread with its
stack, on which the commands of `Inspector` and the VM act.
-/
import Mathlib.Data.List.Basic

namespace ArkToolchain

/-! ### Thread state -/

/-- `StepKind`: what the thread does until it pauses. -/
inductive StepKind
  | none
  | breakOnStart
  | continueTo
  | pause
  | stepInto
  | stepOut
  | stepOver
  deriving DecidableEq

/-- `PauseReason`: why the thread has paused. -/
inductive PauseReason
  | other
  | step
  | exception
  | breakOnStart
  deriving DecidableEq

/-- `PauseOnExceptionsState`: the exceptions at which the thread pauses. -/
inductive PauseOnExceptionsState
  | none
  | caught
  | uncaught
  | all
  deriving DecidableEq

/-- `PtLocation`: an offset in the bytecode of a method. -/
structure PtLocation where
  pandaFile : String
  methodId : Nat
  bytecodeOffset : Nat
  deriving DecidableEq

/-- The commands that let a paused thread run again. -/
inductive ResumeKind
  | resume
  | stepInto
  | stepOver
  | stepOut
  deriving DecidableEq

/-- `HybridSingleStepper`: one side asks the other one to pause. -/
structure HybridSingleStepper where
  dynamicToStatic : Bool := false
  staticToDynamic : Bool := false
  deriving DecidableEq

/-- `ThreadState`, the part of a debuggable thread that decides about pauses. -/
structure ThreadState where
  stepKind : StepKind := .none
  stepLocations : List PtLocation := []
  methodEntered : Bool := false
  pauseOnExceptionsState : PauseOnExceptionsState := .none
  paused : Bool := false
  skipAllPauses : Bool := false
  /-- `breakOnStart_`. -/
  breakOnStartFlag : Bool := false
  pauseReason : PauseReason := .other
  hybrid : HybridSingleStepper := {}
  deriving DecidableEq

namespace ThreadState

variable (ts : ThreadState)

/-- `Reset`. -/
def reset : ThreadState :=
  { ts with
    stepKind := .breakOnStart
    stepLocations := []
    methodEntered := false
    skipAllPauses := false
    pauseOnExceptionsState := .none }

/-- `BreakOnStart`; a thread that is paused keeps its kind of step. -/
def breakOnStart : ThreadState :=
  { ts with
    stepKind := if ts.paused then ts.stepKind else .breakOnStart
    breakOnStartFlag := true }

/-- `Continue`. -/
def continueThread : ThreadState :=
  { ts with
    stepKind := .none
    paused := false
    pauseReason := .other
    hybrid.staticToDynamic := false }

/-- `ContinueTo`. -/
def continueTo (locations : List PtLocation) : ThreadState :=
  { ts with
    stepKind := .continueTo
    stepLocations := locations
    paused := false
    pauseReason := .other
    hybrid.staticToDynamic := false }

/-- `StepInto`; the other side has to pause too. -/
def stepInto (locations : List PtLocation) : ThreadState :=
  { ts with
    stepKind := .stepInto
    methodEntered := false
    stepLocations := locations
    paused := false
    pauseReason := .step
    hybrid.staticToDynamic := true }

/-- `StepOver`. -/
def stepOver (locations : List PtLocation) : ThreadState :=
  { ts with
    stepKind := .stepOver
    methodEntered := false
    stepLocations := locations
    paused := false
    pauseReason := .step }

/-- `StepOut`: the frame counts as entered until it is popped. -/
def stepOut : ThreadState :=
  { ts with
    stepKind := .stepOut
    methodEntered := true
    paused := false
    pauseReason := .step
    hybrid.staticToDynamic := true }

/-- `Pause`; nothing happens while the thread is paused or skips all pauses. -/
def pause : ThreadState :=
  if !ts.paused && !ts.skipAllPauses then { ts with stepKind := .pause } else ts

/-- `SetSkipAllPauses`. -/
def setSkipAllPauses (skip : Bool) : ThreadState :=
  { ts with skipAllPauses := skip }

/-- `SetPauseOnExceptions`. -/
def setPauseOnExceptions (state : PauseOnExceptionsState) : ThreadState :=
  { ts with pauseOnExceptionsState := state }

/-- The switch of `OnException`: the value of `paused_` after it. -/
def exceptionPauses (uncaught : Bool) : Bool :=
  match ts.pauseOnExceptionsState with
  | .none => ts.paused
  | .caught => !uncaught
  | .uncaught => uncaught
  | .all => true

/-- `OnException`. -/
def onException (uncaught : Bool) : ThreadState :=
  if ts.skipAllPauses then ts
  else if ts.exceptionPauses uncaught then { ts with paused := true, pauseReason := .exception }
  else { ts with paused := false }

/-- `OnFramePop`: the frame that a step waits for is gone. -/
def onFramePop : ThreadState :=
  match ts.stepKind with
  | .none | .breakOnStart | .continueTo | .pause | .stepInto => ts
  | .stepOut | .stepOver => { ts with methodEntered := false }

/-- The result says whether the pop of the entered frame is to be reported. -/
def onMethodEntry : Bool × ThreadState :=
  match ts.stepKind with
  | .none | .breakOnStart | .continueTo | .pause | .stepInto => (false, ts)
  | .stepOut | .stepOver => (!ts.methodEntered, { ts with methodEntered := true })

/-- `hit` is the answer of the breakpoint storage. -/
def shouldStopAtBreakpoint (hit : Bool) : Bool :=
  if ts.skipAllPauses then false else hit

/-- The last part of `OnSingleStep`, by the kind of step. -/
def stepEnds (location : PtLocation) : Bool :=
  match ts.stepKind with
  | .none => false
  | .breakOnStart => ts.paused
  | .continueTo => ts.stepLocations.contains location
  | .pause => true
  | .stepInto => !ts.stepLocations.contains location
  | .stepOut => !ts.methodEntered
  | .stepOver => !ts.methodEntered && !ts.stepLocations.contains location

/-- `OnSingleStep`, where `hit` says that the breakpoint storage has a breakpoint there. -/
def onSingleStep (location : PtLocation) (hit : Bool) : ThreadState :=
  if ts.breakOnStartFlag then
    if ts.shouldStopAtBreakpoint hit then { ts with paused := true, pauseReason := .other }
    else
      { ts with
        pauseReason := if ts.stepKind ≠ .stepInto then .breakOnStart else ts.pauseReason
        stepKind := .breakOnStart
        paused := true
        breakOnStartFlag := false }
  else if ts.hybrid.dynamicToStatic then
    { ts with hybrid.dynamicToStatic := false, paused := true, pauseReason := .other }
  else if ts.shouldStopAtBreakpoint hit then { ts with paused := true }
  else { ts with paused := ts.stepEnds location }

/-! ### Which callbacks pause -/

variable (ts : ThreadState)

theorem paused_onSingleStep_iff (h : ts.breakOnStartFlag = false) (location : PtLocation)
    (hit : Bool) :
    (ts.onSingleStep location hit).paused = true ↔
      (ts.hybrid.dynamicToStatic = true ∨ ts.shouldStopAtBreakpoint hit = true) ∨
        ts.stepEnds location = true := by
  fun_cases onSingleStep ts location hit <;> simp_all

theorem paused_onSingleStep_of_flag (h : ts.breakOnStartFlag = true) (location : PtLocation)
    (hit : Bool) : (ts.onSingleStep location hit).paused = true := by
  fun_cases onSingleStep ts location hit <;> simp_all

theorem onSingleStep_eq_self (hrun : ts.paused = false) (location : PtLocation) (hit : Bool)
    (h : (ts.onSingleStep location hit).paused = false) : ts.onSingleStep location hit = ts := by
  revert h
  fun_cases onSingleStep ts location hit <;> intro h
  case case5 =>
    have hends : ts.stepEnds location = ts.paused := by rw [hrun]; exact h
    rw [hends]
  all_goals exact absurd h (by simp)

theorem onException_eq_self (hrun : ts.paused = false) (uncaught : Bool)
    (h : (ts.onException uncaught).paused = false) : ts.onException uncaught = ts := by
  revert h
  fun_cases onException ts uncaught with
  | case1 | case2 => simp
  | case3 => simp [← hrun]

theorem onFramePop_frame : ∃ methodEntered, ts.onFramePop = { ts with methodEntered } := by
  fun_cases onFramePop ts <;> exact ⟨_, rfl⟩

theorem onMethodEntry_frame : ∃ methodEntered, ts.onMethodEntry.2 = { ts with methodEntered } := by
  fun_cases onMethodEntry ts <;> exact ⟨_, rfl⟩

@[simp] theorem paused_onFramePop : ts.onFramePop.paused = ts.paused := by
  obtain ⟨_, heq⟩ := ts.onFramePop_frame
  rw [heq]

@[simp] theorem paused_onMethodEntry : ts.onMethodEntry.2.paused = ts.paused := by
  obtain ⟨_, heq⟩ := ts.onMethodEntry_frame
  rw [heq]

@[simp] theorem breakOnStartFlag_onFramePop :
    ts.onFramePop.breakOnStartFlag = ts.breakOnStartFlag := by
  obtain ⟨_, heq⟩ := ts.onFramePop_frame
  rw [heq]

@[simp] theorem breakOnStartFlag_onMethodEntry :
    ts.onMethodEntry.2.breakOnStartFlag = ts.breakOnStartFlag := by
  obtain ⟨_, heq⟩ := ts.onMethodEntry_frame
  rw [heq]

end ThreadState

/-! ### The thread and its frames -/

/-- A frame of the VM's stack. -/
structure VmFrame where
  isCFrame : Bool
  /-- `NotifyFramePop` has been called for the frame. -/
  notifyPop : Bool := false
  deriving DecidableEq

/-- What happens in the VM while the thread runs. -/
inductive VmEvent
  | methodEntry (isCFrame : Bool) (sourceFile : Option String)
  | framePop
  | singleStep (location : PtLocation) (hit : Bool)
  | exception (uncaught : Bool)
  deriving DecidableEq

/-- A thread with its stack, and the source files for which a break on start was asked. -/
structure Debuggee where
  state : ThreadState
  /-- The frames of the thread, the current one first. -/
  frames : List VmFrame
  sourceFiles : List String := []
  deriving DecidableEq

namespace Debuggee

variable (d : Debuggee)

/-- `NotifyFramePop(thread, 0)`. -/
def notifyFramePop : Debuggee :=
  { d with
    frames := match d.frames with
      | [] => []
      | f :: fs => { f with notifyPop := true } :: fs }

/-- The part of `Inspector::MethodEntry` that looks at the source file. -/
def checkSourceFile : Option String → Debuggee
  | some file =>
    if d.sourceFiles.contains file then d
    else { d with sourceFiles := file :: d.sourceFiles, state := d.state.breakOnStart }
  | none => d

/-- `Inspector::MethodEntry`, called when the new frame is on the stack. -/
def methodEntry (isCFrame : Bool) (sourceFile : Option String) : Debuggee :=
  let d := { d with frames := { isCFrame } :: d.frames }
  if isCFrame then d
  else
    let d := d.checkSourceFile sourceFile
    let (notify, state) := d.state.onMethodEntry
    let d := { d with state }
    if notify then d.notifyFramePop else d

/-- The VM pops a frame and calls `Inspector::FramePop` if that was asked for. -/
def framePop : Debuggee :=
  match d.frames with
  | [] => d
  | f :: fs =>
    { d with
      frames := fs
      state := if f.notifyPop then d.state.onFramePop else d.state }

/-- The single steps are those that reach `OnSingleStep`: `Inspector::SingleStep` returns from
those in other files, which change nothing here. -/
def step : VmEvent → Debuggee
  | .methodEntry isCFrame sourceFile => d.methodEntry isCFrame sourceFile
  | .framePop => d.framePop
  | .singleStep location hit => { d with state := d.state.onSingleStep location hit }
  | .exception uncaught => { d with state := d.state.onException uncaught }

/-! ### Commands -/

/-- `DebuggableThread::Continue`, which `Inspector::Continue` calls for every
thread, paused or not. -/
def continueThread : Debuggee :=
  { d with state := d.state.continueThread }

/-- `Inspector::ContinueToLocation`; like the steps it needs a paused thread. -/
def continueTo (locations : List PtLocation) : Debuggee :=
  if d.state.paused then { d with state := d.state.continueTo locations } else d

/-- `Inspector::StepInto`; `locations` are the locations of the current line. -/
def stepInto (locations : List PtLocation) : Debuggee :=
  if d.state.paused then { d with state := d.state.stepInto locations } else d

/-- `Inspector::StepOver`. -/
def stepOver (locations : List PtLocation) : Debuggee :=
  if d.state.paused then { d with state := d.state.stepOver locations } else d

/-- `Inspector::StepOut`, which also asks to be told when the frame is popped. -/
def stepOut : Debuggee :=
  if d.state.paused then { d.notifyFramePop with state := d.state.stepOut } else d

end Debuggee

end ArkToolchain
