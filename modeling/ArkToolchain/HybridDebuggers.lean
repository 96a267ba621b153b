/-
The debuggers of a hybrid application, which share two flags
(tooling/hybrid_step/hybrid_single_stepper.cpp).

A step that may leave the static side sets `staticToDynamic`, and the next single-step callback
on the dynamic side pauses and clears it; `dynamicToStatic` is the same for the other direction.
`HybridDebuggers` remembers for each side the last command that let it run.
-/
import ArkToolchain.JsThread

namespace ArkToolchain

/-! ### The two sides -/

inductive StaticCommand
  | continueThread
  | continueTo (locations : List PtLocation)
  | stepInto (locations : List PtLocation)
  | stepOver (locations : List PtLocation)
  | stepOut
  deriving DecidableEq

def StaticCommand.kind : StaticCommand → ResumeKind
  | .continueThread | .continueTo _ => .resume
  | .stepInto _ => .stepInto
  | .stepOver _ => .stepOver
  | .stepOut => .stepOut

namespace Debuggee

/-- Whether a command is executed for the thread. -/
def executes (d : Debuggee) : StaticCommand → Bool
  | .continueThread => true
  | .continueTo _ | .stepInto _ | .stepOver _ | .stepOut => d.state.paused

def dispatch (d : Debuggee) : StaticCommand → Debuggee
  | .continueThread => d.continueThread
  | .continueTo locations => d.continueTo locations
  | .stepInto locations => d.stepInto locations
  | .stepOver locations => d.stepOver locations
  | .stepOut => d.stepOut

def withFlags (d : Debuggee) (flags : HybridSingleStepper) : Debuggee :=
  { d with state := { d.state with hybrid := flags } }

end Debuggee

/-- The hooks of a dynamic VM of a hybrid application. -/
structure JSPtHooks where
  thread : JsThread
  isHybrid : thread.debugger.isHybrid = true

namespace DebuggerImpl

variable (dbg : DebuggerImpl)

@[simp] theorem isHybrid_notifyPausedOnStart : dbg.notifyPausedOnStart.isHybrid = dbg.isHybrid := by
  unfold notifyPausedOnStart
  split <;> rfl

@[simp] theorem hybrid_notifyPausedOnStart : dbg.notifyPausedOnStart.hybrid = dbg.hybrid := by
  unfold notifyPausedOnStart
  split <;> rfl

variable (info : DebugInfo)

theorem isHybrid_step (type : StepperType) (failMessage : String) (toStatic : Bool)
    (dbg : DebuggerImpl) (method : PtMethod) (stackDepth offset : Nat) :
    (dbg.step info type failMessage toStatic method stackDepth offset).2.isHybrid
      = dbg.isHybrid := by
  fun_cases step info type failMessage toStatic dbg method stackDepth offset <;> rfl

theorem isHybrid_dispatch (command : ResumeKind) (dbg : DebuggerImpl) (method : PtMethod)
    (stackDepth offset : Nat) :
    (dbg.dispatch info command method stackDepth offset).2.isHybrid = dbg.isHybrid := by
  cases command with
  | resume =>
    show dbg.resume.2.isHybrid = _
    fun_cases resume dbg <;> rfl
  | stepInto | stepOver | stepOut => exact isHybrid_step ..

end DebuggerImpl

namespace JsThread

variable (info : DebugInfo)

/-- A command for the current activation at the given offset. -/
def dispatch (thread : JsThread) (command : ResumeKind) (offset : Nat) :
    DispatchResponse × DebuggerImpl :=
  match thread.stack.activations with
  | [] => (.fail "Can only perform operation while paused", thread.debugger)
  | a :: _ => thread.debugger.dispatch info command a.method thread.stack.depth offset

variable (thread : JsThread)

theorem isHybrid_dispatch (command : ResumeKind) (offset : Nat) :
    (thread.dispatch info command offset).2.isHybrid = thread.debugger.isHybrid := by
  unfold dispatch
  split
  · rfl
  · exact DebuggerImpl.isHybrid_dispatch ..

/-- A callback does not change the mode; the flag for the static side is cleared at most. -/
theorem singleStep_spec (bcOffset : Nat) :
    (thread.singleStep info bcOffset).isHybrid = thread.debugger.isHybrid ∧
      (thread.singleStep info bcOffset).hybrid.dynamicToStatic =
        thread.debugger.hybrid.dynamicToStatic ∧
      ((thread.singleStep info bcOffset).hybrid.staticToDynamic = true →
        thread.debugger.hybrid.staticToDynamic = true) := by
  obtain ⟨hmode, hflags⟩ := thread.notifySingleStep_keeps info bcOffset
  unfold singleStep
  dsimp only
  split_ifs
  all_goals simp [hmode, hflags]

end JsThread

namespace JSPtHooks

variable (info : DebugInfo) (hooks : JSPtHooks)

theorem isHybrid_step (e : JsEvent) : (hooks.thread.step info e).debugger.isHybrid = true := by
  cases e with
  | call method | ret => exact hooks.isHybrid
  | singleStep bcOffset =>
    exact (hooks.thread.singleStep_spec info bcOffset).1.trans hooks.isHybrid

/-- An event of the thread. -/
def step (e : JsEvent) : JSPtHooks where
  thread := hooks.thread.step info e
  isHybrid := hooks.isHybrid_step info e

/-- `JSPtHooks::LoadModule` of a new script. -/
def loadModule : JSPtHooks :=
  { hooks with thread := { hooks.thread with firstTime := true }, isHybrid := hooks.isHybrid }

/-- The commands of `DebuggerImpl` for the current activation. -/
def dispatch (command : ResumeKind) (offset : Nat) : DispatchResponse × JSPtHooks :=
  ((hooks.thread.dispatch info command offset).1,
    { hooks with
      thread := { hooks.thread with
        debugger := (hooks.thread.dispatch info command offset).2 }
      isHybrid := (hooks.thread.isHybrid_dispatch info command offset).trans hooks.isHybrid })

def withFlags (flags : HybridSingleStepper) : JSPtHooks :=
  { hooks with
    thread := { hooks.thread with debugger := { hooks.thread.debugger with hybrid := flags } }
    isHybrid := hooks.isHybrid }

def flags : HybridSingleStepper :=
  hooks.thread.debugger.hybrid

def paused : Bool :=
  hooks.thread.debugger.debuggerState = .paused

end JSPtHooks

/-! ### The whole application -/

inductive HybridEvent (Θ Δ : Type*)
  | staticCommand (t : Θ) (command : StaticCommand)
  | staticEvent (t : Θ) (e : VmEvent)
  | dynamicCommand (v : Δ) (command : ResumeKind) (offset : Nat)
  | dynamicEvent (v : Δ) (e : JsEvent)
  | loadModule (v : Δ)

/-- Static threads and dynamic VMs over the flags of `HybridSingleStepper`. -/
structure HybridDebuggers (Θ Δ : Type*) where
  flags : HybridSingleStepper
  statics : Θ → Debuggee
  dynamics : Δ → JSPtHooks
  /-- The last command executed on the static side. -/
  lastStatic : Option ResumeKind
  /-- The last command executed on the dynamic side. -/
  lastDynamic : Option ResumeKind

namespace HybridDebuggers

variable {Θ Δ : Type*} [DecidableEq Θ] [DecidableEq Δ] (info : DebugInfo)

def start (statics : Θ → Debuggee) (dynamics : Δ → JSPtHooks) : HybridDebuggers Θ Δ where
  flags := {}
  statics := statics
  dynamics := dynamics
  lastStatic := none
  lastDynamic := none

variable (s : HybridDebuggers Θ Δ)

/-- A static thread works on the shared flags. -/
def setStatic (t : Θ) (d : Debuggee) : HybridDebuggers Θ Δ :=
  { s with flags := d.state.hybrid, statics := Function.update s.statics t d }

def setDynamic (v : Δ) (hooks : JSPtHooks) : HybridDebuggers Θ Δ :=
  { s with flags := hooks.flags, dynamics := Function.update s.dynamics v hooks }

/-- The static thread with the shared flags. -/
def static (t : Θ) : Debuggee :=
  (s.statics t).withFlags s.flags

def dynamic (v : Δ) : JSPtHooks :=
  (s.dynamics v).withFlags s.flags

/-- A paused thread has no events, and a command that is refused changes
nothing but a stepper. -/
def step (s : HybridDebuggers Θ Δ) : HybridEvent Θ Δ → HybridDebuggers Θ Δ
  | .staticCommand t command =>
    if (s.static t).executes command then
      { s.setStatic t ((s.static t).dispatch command) with lastStatic := command.kind }
    else s
  | .staticEvent t e =>
    if (s.static t).state.paused then s else s.setStatic t ((s.static t).step e)
  | .dynamicCommand v command offset =>
    match (s.dynamic v).dispatch info command offset with
    | (.ok, hooks) => { s.setDynamic v hooks with lastDynamic := command }
    | (.fail _, hooks) => s.setDynamic v hooks
  | .dynamicEvent v e =>
    if (s.dynamic v).paused then s else s.setDynamic v ((s.dynamic v).step info e)
  | .loadModule v => s.setDynamic v (s.dynamic v).loadModule

/-- A static thread pauses because of a step on the dynamic side. -/
def pausedByDynamic : HybridEvent Θ Δ → Bool
  | .staticEvent t (.singleStep _ _) =>
    !(s.static t).state.paused && !(s.static t).state.breakOnStartFlag && s.flags.dynamicToStatic
  | _ => false

/-- A dynamic VM pauses because of a step on the static side. -/
def pausedByStatic : HybridEvent Θ Δ → Bool
  | .dynamicEvent v (.singleStep _) =>
    !(s.dynamic v).paused && !(s.dynamic v).thread.firstTime &&
      !(s.dynamic v).thread.debugger.skipAllPauses && s.flags.staticToDynamic
  | _ => false

/-- The command that an event executes on the static side. -/
def executedStatic : HybridEvent Θ Δ → Option ResumeKind
  | .staticCommand t command => if (s.static t).executes command then some command.kind else none
  | _ => none

/-- The command that an event executes on the dynamic side. -/
def executedDynamic : HybridEvent Θ Δ → Option ResumeKind
  | .dynamicCommand v command offset =>
    if ((s.dynamic v).dispatch info command offset).1 = .ok then some command else none
  | _ => none

end HybridDebuggers

end ArkToolchain
