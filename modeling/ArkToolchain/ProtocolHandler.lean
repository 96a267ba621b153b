/-
The command queue of the dynamic debugger (tooling/dynamic/protocol_handler.cpp,
`Inspector::OnMessage` in inspector/inspector.cpp, and the requests of debugger_impl.cpp and
runtime_impl.cpp that end a wait).

Producers enqueue commands, ask for the dispatch status, and post a task if the JS thread seems
to be idle.  The JS thread takes the whole queue in `ProcessCommand` and dispatches one command
after the other.  A handler may run script, which may pause and so call `ProcessCommand` again.
The calls under way are a list, the innermost one first.

Commands are numbered in the order in which they are enqueued.  `dispatched`, `finished`,
`enqueued` and `pauses` record what has happened; no function of the source reads them.
-/
import ArkToolchain.SingleStepper
import ArkToolchain.Fairness

namespace ArkToolchain

/-! ### Requests -/

/-- What `DropFrame` is given and what it learns from the VM. -/
structure DropFrameParams where
  isSimplifiedMode : Bool := false
  droppedDepth : Option Nat := none
  stackDepth : Nat
  stackDepthOverBuiltin : Nat
  isSendableMethod : Bool := false
  checkPromiseQueueSize : Bool := true
  deriving DecidableEq

/-- The answer of `DropFrame` if it drops nothing. -/
def DropFrameParams.answer (params : DropFrameParams) : Option DispatchResponse :=
  let droppedDepth := params.droppedDepth.getD 1
  if params.isSimplifiedMode then some (.fail "DropFrame is not supported in simplified mode")
  else if droppedDepth = 0 then some .ok
  else if 1 < droppedDepth then some (.fail "Not yet support dropping multiple frames")
  else if params.stackDepth < droppedDepth then some (.fail "The input depth exceeds stackDepth")
  else if droppedDepth = params.stackDepth then some (.fail "The bottom frame cannot be dropped")
  else if params.stackDepthOverBuiltin ≤ droppedDepth then
    some (.fail "Frames to be dropped contain builtin frame")
  else if params.isSendableMethod then some (.fail "Not yet support sendable method")
  else if !params.checkPromiseQueueSize then
    some (.fail "Detect promise enqueued in current frame")
  else none

/-- The requests that act on a wait or on `debuggerState_`.  `evaluate` stands
for the others, which may run script. -/
inductive Request
  | resume
  | step (type : StepperType) (hasStepper : Bool)
  | dropFrame (params : DropFrameParams)
  | enable
  | disable
  | runIfWaitingForDebugger
  | replyNativeCalling
  | evaluate
  deriving DecidableEq

/-- The texts of the errors of the three steps. -/
def StepperType.failMessage : StepperType → String
  | .stepInto => "Failed to StepInto"
  | .stepOut => "Failed to StepOut"
  | .stepOver => "Failed to StepOver"

/-- A command has the number with which it was enqueued. -/
structure Command where
  number : Nat
  request : Request
  deriving DecidableEq

/-! ### The calls of the JS thread -/

/-- What `WaitForDebugger` is called for. -/
inductive WaitKind
  | pause
  | nativeCalling
  | start
  deriving DecidableEq

/-- The loop of `ProcessCommand`: before it takes the lock, in the wait for a
command, after the queues have been swapped, and in the loop over
`dispatchingQueue`.  Before the swap that queue is empty. -/
inductive ProcessPc
  | check
  | blocked
  | taken (dispatchingQueue : List Command)
  | dispatching (dispatchingQueue : List Command)
  deriving DecidableEq

/-- `ProcessCommand`, called by `WaitForDebugger` or not, and the handler of a
command. -/
inductive JsCall
  | processCommand (wait : Option WaitKind) (pc : ProcessPc)
  | handler (command : Command)
  deriving DecidableEq

/-- Script runs outside all calls, and in the handlers of some requests. -/
def runsScript : List JsCall → Bool
  | [] => true
  | .handler command :: _ => command.request = .evaluate
  | .processCommand _ _ :: _ => false

/-- The commands that a call has taken and not dispatched. -/
def JsCall.pending : JsCall → List Command
  | .processCommand _ (.taken queue) => queue
  | .processCommand _ (.dispatching queue) => queue
  | _ => []

/-- The same for all calls, the outermost one first. -/
def pendingOf : List JsCall → List Command
  | [] => []
  | call :: calls => pendingOf calls ++ call.pending

/-- The commands whose handlers run, the innermost one first. -/
def handledOf : List JsCall → List Command
  | [] => []
  | .handler command :: calls => command :: handledOf calls
  | .processCommand _ _ :: calls => handledOf calls

/-! ### The state that the threads share -/

/-- `ProtocolHandler`, with the state of the debugger and a record of the commands. -/
structure ProtocolHandler where
  requestQueue : List Command := []
  waitingForDebugger : Bool := false
  isDispatchingMessage : Bool := false
  /-- `requestQueueCond_` has been notified since the JS thread began to wait. -/
  notified : Bool := false
  debuggerState : DebuggerState := .enabled
  /-- `IsDebugMode`; the channel of the frontend is always there. -/
  debugMode : Bool := false
  postedTasks : Nat := 0
  enqueued : Nat := 0
  dispatched : List Nat := []
  finished : List Nat := []
  /-- The pauses that have not ended, the innermost first: whether a request to
  go on has been handled while the pause was the innermost. -/
  pauses : List Bool := []
  deriving DecidableEq

namespace ProtocolHandler

variable (q : ProtocolHandler)

/-- `DispatchCommand`: the command is enqueued and the JS thread notified. -/
def dispatchCommand (request : Request) : ProtocolHandler :=
  { q with
    requestQueue := q.requestQueue ++ [{ number := q.enqueued, request := request }]
    notified := true
    enqueued := q.enqueued + 1 }

/-- `RunIfWaitingForDebugger`. -/
def runIfWaitingForDebugger : ProtocolHandler :=
  { q with waitingForDebugger := false }

/-- `Frontend::Resumed`. -/
def resumed : ProtocolHandler :=
  if q.debugMode then q.runIfWaitingForDebugger else q

/-- The innermost pause is to end. -/
def goesOn : List Bool → List Bool
  | [] => []
  | _ :: pauses => true :: pauses

/-- The state after a command that ends a pause. -/
def setState (state : DebuggerState) : ProtocolHandler :=
  { q with debuggerState := state, pauses := goesOn q.pauses }

/-- `Enable`. -/
def enable : ProtocolHandler :=
  { q with debugMode := true, debuggerState := .enabled }

/-- `Disable`, which also resumes. -/
def disable : ProtocolHandler :=
  { q.runIfWaitingForDebugger.resumed.setState .disabled with debugMode := false }

/-- The answer to a request, and what it does. -/
def handle : Request → DispatchResponse × ProtocolHandler
  | .resume =>
    if q.debuggerState ≠ .paused then (.fail "Can only perform operation while paused", q)
    else (.ok, q.resumed.setState .enabled)
  | .step type hasStepper =>
    if q.debuggerState ≠ .paused then (.fail "Can only perform operation while paused", q)
    else if !hasStepper then (.fail type.failMessage, q)
    else (.ok, q.resumed.setState .enabled)
  | .dropFrame params =>
    if q.debuggerState ≠ .paused then (.fail "Can only perform operation while paused", q)
    else
      match params.answer with
      | some response => (response, q)
      | none => (.ok, q.runIfWaitingForDebugger.setState .enabled)
  | .enable => (.ok, q.enable)
  | .disable => (.ok, q.disable)
  | .runIfWaitingForDebugger => (.ok, q.runIfWaitingForDebugger)
  | .replyNativeCalling => (.ok, q.resumed)
  | .evaluate => (.ok, q)

/-- `Dispatcher::Dispatch` calls the handler. -/
def dispatch (command : Command) : ProtocolHandler :=
  { (q.handle command.request).2 with dispatched := q.dispatched ++ [command.number] }

/-- The handler has returned. -/
def finish (command : Command) : ProtocolHandler :=
  { q with finished := q.finished ++ [command.number] }

/-- `WaitForDebugger` before it calls `ProcessCommand`; `GeneratePausedInfo` sets
`debuggerState_` before it waits. -/
def enterWait : WaitKind → ProtocolHandler
  | .pause =>
    { q with
      waitingForDebugger := true
      debuggerState := .paused
      pauses := false :: q.pauses }
  | .nativeCalling => { q with waitingForDebugger := true }
  | .start => { q with waitingForDebugger := true }

/-- A wait has ended. -/
def leaveWait : Option WaitKind → ProtocolHandler
  | some .pause => { q with pauses := q.pauses.tail }
  | _ => q

/-- `isDispatchingMessage_`. -/
def setDispatching (dispatching : Bool) : ProtocolHandler :=
  { q with isDispatchingMessage := dispatching }

/-- The wait begins under the lock, so that no notification is older. -/
def block : ProtocolHandler :=
  { q with notified := false }

/-- `requestQueue_.swap(dispatchingQueue)`. -/
def take : ProtocolHandler :=
  { q with requestQueue := [] }

def setPaused : ProtocolHandler :=
  { q with debuggerState := .paused }

def setTasks (tasks : Nat) : ProtocolHandler :=
  { q with postedTasks := tasks }

def notify : ProtocolHandler :=
  { q with notified := true }

/-- One step of `ProcessCommand`. -/
def processCommand (q : ProtocolHandler) (wait : Option WaitKind) (calls : List JsCall) :
    ProcessPc → Option (ProtocolHandler × List JsCall)
  | .check =>
    if q.requestQueue = [] then
      if q.waitingForDebugger then some (q.block, .processCommand wait .blocked :: calls)
      else some (q.leaveWait wait, calls)
    else some (q.take, .processCommand wait (.taken q.requestQueue) :: calls)
  | .blocked =>
    -- the condition is not looked at again after the wait
    if q.notified then some (q.take, .processCommand wait (.taken q.requestQueue) :: calls)
    else none
  | .taken queue => some (q.setDispatching true, .processCommand wait (.dispatching queue) :: calls)
  | .dispatching [] => some (q.setDispatching false, .processCommand wait .check :: calls)
  | .dispatching (command :: queue) =>
    some (q.dispatch command,
      .handler command :: .processCommand wait (.dispatching queue) :: calls)

end ProtocolHandler

/-! ### The threads -/

/-- Producers, the JS thread, and whoever wakes threads without a reason. -/
inductive HandlerThread (Θ : Type*)
  | producer (t : Θ)
  | js
  | system
  deriving DecidableEq

/-- The two polls of `OnMessage`, and a poll by itself. -/
inductive Poll
  | first
  | second
  | alone
  deriving DecidableEq

/-- A producer outside `OnMessage`, before each of the three reads of
`GetDispatchStatus`, and before it posts a task.  `before` is the number of
commands when the poll began. -/
inductive ProducerPc
  | idle
  | readDispatching (poll : Poll) (before : Nat)
  | readWaiting (poll : Poll) (before : Nat)
  | readQueue (poll : Poll) (before : Nat)
  | post
  deriving DecidableEq

/-- Where a thread is. -/
inductive HandlerPc
  | producer (pc : ProducerPc)
  | js (calls : List JsCall)
  deriving DecidableEq

/-- What a thread does next where it has a choice. -/
inductive HandlerInput
  | onMessage (request : Request)
  | getDispatchStatus
  | notifyPaused
  | notifyNativeCalling
  | waitForDebugger
  | notifyHandleProtocolCommand
  | runTask
  | goOn
  deriving DecidableEq

/-- One step of a producer; `debuggerPostTask` says whether there is a function
to post tasks with. -/
def producerNext (debuggerPostTask : Bool) (q : ProtocolHandler) :
    ProducerPc → HandlerInput → Option (ProtocolHandler × ProducerPc)
  | .idle, .onMessage request =>
    some (q.dispatchCommand request, .readDispatching .first (q.enqueued + 1))
  | .idle, .getDispatchStatus => some (q, .readDispatching .alone q.enqueued)
  | .readDispatching poll before, .goOn =>
    some (q, if q.isDispatchingMessage then .idle else .readWaiting poll before)
  | .readWaiting poll before, .goOn =>
    some (q, if q.waitingForDebugger then .idle else .readQueue poll before)
  | .readQueue poll _, .goOn =>
    if q.requestQueue = [] then some (q, .idle)
    else
      match poll with
      | .first => some (q, .readDispatching .second q.enqueued)
      | .second => some (q, .post)
      | .alone => some (q, .idle)
  | .post, .goOn =>
    some (if debuggerPostTask then q.setTasks (q.postedTasks + 1) else q, .idle)
  | _, _ => none

/-- A step of the JS thread, whose calls are nested. -/
def jsNext (q : ProtocolHandler) (calls : List JsCall) :
    HandlerInput → Option (ProtocolHandler × List JsCall)
  | .notifyPaused =>
    if !runsScript calls then none
    else if q.debugMode then
      some (q.enterWait .pause, .processCommand (some .pause) .check :: calls)
    else some (q.setPaused, calls)
  | .notifyNativeCalling =>
    if !runsScript calls then none
    else if q.debugMode then
      some (q.enterWait .nativeCalling, .processCommand (some .nativeCalling) .check :: calls)
    else some (q, calls)
  | .waitForDebugger =>
    if calls = [] then some (q.enterWait .start, [.processCommand (some .start) .check])
    else none
  | .notifyHandleProtocolCommand =>
    if !runsScript calls then none else some (q, .processCommand none .check :: calls)
  | .runTask =>
    -- a task is run by the event loop
    if calls = [] then
      match q.postedTasks with
      | 0 => none
      | tasks + 1 => some (q.setTasks tasks, [.processCommand none .check])
    else none
  | .goOn =>
    match calls with
    | [] => none
    | .handler command :: calls => some (q.finish command, calls)
    | .processCommand wait pc :: calls => q.processCommand wait calls pc
  | _ => none

variable {Θ : Type*}

/-- A step of a thread. -/
def handlerNext (debuggerPostTask : Bool) :
    HandlerThread Θ → ProtocolHandler → HandlerPc → HandlerInput →
      Option (ProtocolHandler × HandlerPc)
  | .producer _, q, .producer pc, i =>
    (producerNext debuggerPostTask q pc i).map fun r => (r.1, .producer r.2)
  | .js, q, .js calls, i => (jsNext q calls i).map fun r => (r.1, .js r.2)
  | .system, q, pc, .goOn => some (q.notify, pc)
  | _, _, _, _ => none

/-- The threads that call the handler. -/
abbrev HandlerThreads (Θ : Type*) := Threads (HandlerThread Θ) ProtocolHandler HandlerPc

namespace HandlerThreads

/-- Nothing has happened; a client has enabled the debugger or not. -/
def init (Θ : Type*) (debugMode : Bool) : HandlerThreads Θ where
  shared := { debugMode := debugMode }
  pcs
    | .js => .js []
    | _ => .producer .idle

/-- The calls on the JS thread. -/
def calls (s : HandlerThreads Θ) : List JsCall :=
  match s.pcs .js with
  | .js calls => calls
  | .producer _ => []

/-- Where a thread is that enqueues commands and polls. -/
def producerPc (s : HandlerThreads Θ) (t : Θ) : ProducerPc :=
  match s.pcs (.producer t) with
  | .producer pc => pc
  | .js _ => .idle

end HandlerThreads

/-! ### What a step can do -/

/-- What makes the JS thread wait. -/
def WaitKind.input : WaitKind → HandlerInput
  | .pause => .notifyPaused
  | .nativeCalling => .notifyNativeCalling
  | .start => .waitForDebugger

/-- A step of the JS thread. -/
inductive JsStep (q : ProtocolHandler) :
    List JsCall → HandlerInput → ProtocolHandler → List JsCall → Prop
  | wait {calls : List JsCall} (kind : WaitKind) (hscript : runsScript calls = true)
      (hstart : kind = .start → calls = []) :
      JsStep q calls kind.input (q.enterWait kind) (.processCommand (some kind) .check :: calls)
  | pauseUnseen {calls : List JsCall} (hscript : runsScript calls = true)
      (hmode : q.debugMode = false) : JsStep q calls .notifyPaused q.setPaused calls
  | callUnseen {calls : List JsCall} (hscript : runsScript calls = true) :
      JsStep q calls .notifyNativeCalling q calls
  | handleCommands {calls : List JsCall} (hscript : runsScript calls = true) :
      JsStep q calls .notifyHandleProtocolCommand q (.processCommand none .check :: calls)
  | runTask {tasks : Nat} (htasks : q.postedTasks = tasks + 1) :
      JsStep q [] .runTask (q.setTasks tasks) [.processCommand none .check]
  | finish {calls : List JsCall} (command : Command) :
      JsStep q (.handler command :: calls) .goOn (q.finish command) calls
  | block {calls : List JsCall} {wait : Option WaitKind} (hqueue : q.requestQueue = [])
      (hwaiting : q.waitingForDebugger = true) :
      JsStep q (.processCommand wait .check :: calls) .goOn q.block
        (.processCommand wait .blocked :: calls)
  | leave {calls : List JsCall} {wait : Option WaitKind} (hqueue : q.requestQueue = [])
      (hwaiting : q.waitingForDebugger = false) :
      JsStep q (.processCommand wait .check :: calls) .goOn (q.leaveWait wait) calls
  | take {calls : List JsCall} {wait : Option WaitKind} {pc : ProcessPc}
      (hpc : pc = .check ∧ q.requestQueue ≠ [] ∨ pc = .blocked ∧ q.notified = true) :
      JsStep q (.processCommand wait pc :: calls) .goOn q.take
        (.processCommand wait (.taken q.requestQueue) :: calls)
  | beginBatch {calls : List JsCall} {wait : Option WaitKind} (queue : List Command) :
      JsStep q (.processCommand wait (.taken queue) :: calls) .goOn (q.setDispatching true)
        (.processCommand wait (.dispatching queue) :: calls)
  | endBatch {calls : List JsCall} {wait : Option WaitKind} :
      JsStep q (.processCommand wait (.dispatching []) :: calls) .goOn (q.setDispatching false)
        (.processCommand wait .check :: calls)
  | dispatch {calls : List JsCall} {wait : Option WaitKind} (command : Command)
      (queue : List Command) :
      JsStep q (.processCommand wait (.dispatching (command :: queue)) :: calls) .goOn
        (q.dispatch command)
        (.handler command :: .processCommand wait (.dispatching queue) :: calls)

/-- A step of a producer. -/
inductive ProducerStep (debuggerPostTask : Bool) (q : ProtocolHandler) :
    ProducerPc → HandlerInput → ProtocolHandler → ProducerPc → Prop
  | enqueue (request : Request) :
      ProducerStep debuggerPostTask q .idle (.onMessage request) (q.dispatchCommand request)
        (.readDispatching .first (q.enqueued + 1))
  | poll : ProducerStep debuggerPostTask q .idle .getDispatchStatus q
      (.readDispatching .alone q.enqueued)
  | dispatching {poll : Poll} {before : Nat} (h : q.isDispatchingMessage = true) :
      ProducerStep debuggerPostTask q (.readDispatching poll before) .goOn q .idle
  | notDispatching {poll : Poll} {before : Nat} (h : q.isDispatchingMessage = false) :
      ProducerStep debuggerPostTask q (.readDispatching poll before) .goOn q
        (.readWaiting poll before)
  | waiting {poll : Poll} {before : Nat} (h : q.waitingForDebugger = true) :
      ProducerStep debuggerPostTask q (.readWaiting poll before) .goOn q .idle
  | notWaiting {poll : Poll} {before : Nat} (h : q.waitingForDebugger = false) :
      ProducerStep debuggerPostTask q (.readWaiting poll before) .goOn q (.readQueue poll before)
  | empty {poll : Poll} {before : Nat} (h : q.requestQueue = []) :
      ProducerStep debuggerPostTask q (.readQueue poll before) .goOn q .idle
  | pollAgain {before : Nat} (h : q.requestQueue ≠ []) :
      ProducerStep debuggerPostTask q (.readQueue .first before) .goOn q
        (.readDispatching .second q.enqueued)
  | idleThread {before : Nat} (h : q.requestQueue ≠ []) :
      ProducerStep debuggerPostTask q (.readQueue .second before) .goOn q .post
  | unknown {before : Nat} (h : q.requestQueue ≠ []) :
      ProducerStep debuggerPostTask q (.readQueue .alone before) .goOn q .idle
  | post (h : debuggerPostTask = true) :
      ProducerStep debuggerPostTask q .post .goOn (q.setTasks (q.postedTasks + 1)) .idle
  | noPost (h : debuggerPostTask = false) : ProducerStep debuggerPostTask q .post .goOn q .idle

section Inversion

variable {q q' : ProtocolHandler} {calls calls' : List JsCall} {i : HandlerInput}

theorem JsStep.of_processCommand {wait : Option WaitKind} {pc : ProcessPc}
    (h : q.processCommand wait calls pc = some (q', calls')) :
    JsStep q (.processCommand wait pc :: calls) .goOn q' calls' := by
  revert h
  fun_cases q.processCommand wait calls pc
  all_goals rintro ⟨⟩
  all_goals constructor
  all_goals simp_all

theorem JsStep.of_jsNext (h : jsNext q calls i = some (q', calls')) :
    JsStep q calls i q' calls' := by
  revert h
  fun_cases jsNext q calls i
  case case16 => exact .of_processCommand
  all_goals rintro ⟨⟩
  -- the three ways to wait
  case case2 hscript => exact .wait .pause (by simpa using hscript) nofun
  case case5 hscript => exact .wait .nativeCalling (by simpa using hscript) nofun
  case case7 => exact .wait .start rfl fun _ => rfl
  all_goals constructor
  all_goals simp_all

theorem ProducerStep.of_producerNext {debuggerPostTask : Bool} {pc pc' : ProducerPc}
    (h : producerNext debuggerPostTask q pc i = some (q', pc')) :
    ProducerStep debuggerPostTask q pc i q' pc' := by
  revert h
  fun_cases producerNext debuggerPostTask q pc i
  all_goals rintro ⟨⟩
  case case8 hqueue => exact .unknown hqueue
  all_goals try split
  all_goals constructor
  all_goals simp_all

end Inversion

/-- A step of one of the threads, in terms of what the threads do for
themselves. -/
inductive HandlerStep [DecidableEq Θ] (debuggerPostTask : Bool) (s s' : HandlerThreads Θ) :
    HandlerThread Θ → HandlerInput → Prop
  | producer {i : HandlerInput} (t : Θ) (pc : ProducerPc)
      (hstep : ProducerStep debuggerPostTask s.shared (s.producerPc t) i s'.shared pc)
      (hcalls : s'.calls = s.calls)
      (hpcs : s'.producerPc = Function.update s.producerPc t pc) :
      HandlerStep debuggerPostTask s s' (.producer t) i
  | js {i : HandlerInput} (hstep : JsStep s.shared s.calls i s'.shared s'.calls)
      (hpcs : s'.producerPc = s.producerPc) : HandlerStep debuggerPostTask s s' .js i
  | system (hshared : s'.shared = s.shared.notify) (hcalls : s'.calls = s.calls)
      (hpcs : s'.producerPc = s.producerPc) : HandlerStep debuggerPostTask s s' .system .goOn

section HandlerSteps

variable [DecidableEq Θ] {debuggerPostTask : Bool} {s s' : HandlerThreads Θ} {t : HandlerThread Θ}
  {i : HandlerInput} {sh : ProtocolHandler} {pc : HandlerPc}

theorem HandlerStep.of_producer {u : Θ}
    (hn : handlerNext debuggerPostTask (.producer u) s.shared (s.pcs (.producer u)) i
      = some (sh, pc)) :
    HandlerStep debuggerPostTask s
      { shared := sh, pcs := Function.update s.pcs (.producer u) pc } (.producer u) i := by
  rcases hpc : s.pcs (.producer u) with pc₀ | calls
  · rw [hpc] at hn
    obtain ⟨⟨q', pc'⟩, hnext, heq⟩ := Option.map_eq_some_iff.mp hn
    cases heq
    have hpc₀ : s.producerPc u = pc₀ := by rw [HandlerThreads.producerPc, hpc]
    refine .producer u pc' (hpc₀ ▸ .of_producerNext hnext) ?_ ?_
    · simp [HandlerThreads.calls]
    · funext v
      by_cases hv : v = u
      · subst hv
        simp [HandlerThreads.producerPc]
      · simp [HandlerThreads.producerPc, Function.update_of_ne hv,
          Function.update_of_ne (show HandlerThread.producer v ≠ .producer u by simpa using hv)]
  · rw [hpc] at hn
    cases hn

theorem HandlerStep.of_js
    (hn : handlerNext debuggerPostTask (.js : HandlerThread Θ) s.shared (s.pcs .js) i
      = some (sh, pc)) :
    HandlerStep debuggerPostTask s { shared := sh, pcs := Function.update s.pcs .js pc } .js i := by
  rcases hpc : s.pcs .js with pc₀ | calls
  · rw [hpc] at hn
    cases hn
  · rw [hpc] at hn
    obtain ⟨⟨q', calls'⟩, hnext, heq⟩ := Option.map_eq_some_iff.mp hn
    cases heq
    have hcalls : s.calls = calls := by rw [HandlerThreads.calls, hpc]
    refine .js ?_ ?_
    · rw [hcalls]
      simpa [HandlerThreads.calls] using JsStep.of_jsNext hnext
    · funext v
      simp [HandlerThreads.producerPc]

/-- **Every step** of the threads is one of these. -/
theorem HandlerStep.of_step (h : s.step (handlerNext debuggerPostTask) t i = some s') :
    HandlerStep debuggerPostTask s s' t i := by
  obtain ⟨sh, pc, hn, rfl⟩ := Threads.step_eq_some h
  cases t with
  | producer u => exact .of_producer hn
  | js => exact .of_js hn
  | system =>
    cases i with
    | goOn =>
      cases hn
      refine .system rfl ?_ ?_
      · simp [HandlerThreads.calls]
      · funext v
        simp [HandlerThreads.producerPc]
    | _ => cases hn

end HandlerSteps

end ArkToolchain
