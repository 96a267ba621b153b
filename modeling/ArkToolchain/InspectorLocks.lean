/-
The locks of the inspector (tooling/static/inspector.cpp, inspector_server.cpp,
connection/server.h and debugger/debuggable_thread.cpp).

* `debuggerEventsLock_` is taken in shared mode by `SingleStep` and in exclusive mode by
  `ThreadStart`, `ThreadEnd` and `DebuggerEnable`;
* `taskExecution_` is taken in exclusive mode by every handler (`Server::OnCall`) and in shared
  mode by `Server::Pause` in `ThreadEnd`;
* `mutex_` of a thread is taken by its own callbacks, by the handlers, and by the callbacks of
  other threads in `PauseOtherThreads`.

A step is one acquisition, one release, one wait, one use of the tables of threads and sessions,
or one iteration of a loop over the threads.
-/
import ArkToolchain.Locks
import Mathlib.Data.List.Sort

namespace ArkToolchain

/-- Application threads, and the thread of the server. -/
inductive Agent (Θ : Type*)
  | app (t : Θ)
  | server
  deriving DecidableEq

inductive InspectorLock (Θ : Type*)
  | debuggerEvents
  | taskExecution
  | mutex (t : Θ)
  deriving DecidableEq

/-! ### What is shared -/

/-- `threads` and `sessions` are the keys of `threads_` and the threads of the
session manager; `managedSuspended` is `GetManagedThread()->IsSuspended()`. -/
structure InspectorData (Θ : Type*) where
  threads : List Θ := []
  sessions : List Θ := []
  suspended : Θ → Bool := fun _ => false
  managedSuspended : Θ → Bool := fun _ => false
  request : Θ → Bool := fun _ => false

namespace InspectorData

variable {Θ : Type*} [LinearOrder Θ] (d : InspectorData Θ) (t : Θ)

/-- The next thread of a loop over `threads_`, which goes by keys: the first
one, or the first one after `prev`; one thread may be skipped. -/
def threadAfter (prev skip : Option Θ) : Option Θ :=
  d.threads.find? fun u => prev.all (· < u) && skip ≠ some u

theorem threadAfter_eq_some {d : InspectorData Θ} {prev skip : Option Θ} {u : Θ}
    (h : d.threadAfter prev skip = some u) : u ∈ d.threads ∧ skip ≠ some u := by
  have hu := List.find?_some h
  rw [Bool.and_eq_true] at hu
  exact ⟨List.mem_of_find?_eq_some h, of_decide_eq_true hu.2⟩

/-- The beginning of `DebuggableThread::Suspend`. -/
def suspend : InspectorData Θ :=
  { d with
    suspended := Function.update d.suspended t true
    managedSuspended := Function.update d.managedSuspended t true }

/-- `DebuggableThread::Resume`. -/
def resume : InspectorData Θ :=
  if d.suspended t then
    { d with
      suspended := Function.update d.suspended t false
      managedSuspended := Function.update d.managedSuspended t false }
  else d

/-- `RequestToObjectRepository` leaves a request and wakes the thread. -/
def leaveRequest : InspectorData Θ :=
  { d with
    request := Function.update d.request t true
    managedSuspended := Function.update d.managedSuspended t false }

/-- A thread that was woken runs the request, if there is one. -/
def runRequest : InspectorData Θ :=
  if d.request t then
    { d with
      request := Function.update d.request t false
      managedSuspended := Function.update d.managedSuspended t true }
  else d

variable (d : InspectorData Θ) (t : Θ)

@[simp] theorem suspend_threads : (d.suspend t).threads = d.threads := rfl

@[simp] theorem suspend_sessions : (d.suspend t).sessions = d.sessions := rfl

@[simp] theorem resume_threads : (d.resume t).threads = d.threads := by
  unfold resume
  split <;> rfl

@[simp] theorem resume_sessions : (d.resume t).sessions = d.sessions := by
  unfold resume
  split <;> rfl

@[simp] theorem leaveRequest_threads : (d.leaveRequest t).threads = d.threads := rfl

@[simp] theorem leaveRequest_sessions : (d.leaveRequest t).sessions = d.sessions := rfl

@[simp] theorem runRequest_threads : (d.runRequest t).threads = d.threads := by
  unfold runRequest
  split <;> rfl

@[simp] theorem runRequest_sessions : (d.runRequest t).sessions = d.sessions := by
  unfold runRequest
  split <;> rfl

end InspectorData

/-! ### Request handlers -/

/-- What a handler does with threads: call a function of one thread that takes
its mutex and perhaps resumes it, request something from its object repository
(and look at the cached one if that is refused), do something with each thread,
look for another thread that is paused by a breakpoint, or reset all threads. -/
inductive HandlerOp
  | call (resume : Bool)
  | request (cached : Bool)
  | sweep (resume : Bool)
  | check
  | enable
  deriving DecidableEq

/-- The methods that touch threads.  `setOption` stands for `SetSkipAllPauses`
and `SetPauseOnExceptions`, `step` for the three steps, `ContinueToLocation` and
`RestartFrame`.  A flag is what the handler finds. -/
inductive InspectorMethod
  | runIfWaitingForDebugger
  | pause
  | resume (brokeOnStart : Bool)
  | setOption
  | step (paused : Bool)
  | getProperties
  | evaluate (paused : Bool)
  | disable
  | debuggerEnable
  | other
  deriving DecidableEq

/-- The handlers of inspector.cpp; `found` says whether `GetDebuggableThread`
has found the thread of the session. -/
def InspectorMethod.ops (found : Bool) : InspectorMethod → List HandlerOp
  | .pause => [.sweep false]
  | .debuggerEnable => [.enable]
  | .resume brokeOnStart =>
    if found then
      if brokeOnStart then [.call false, .check, .call true] else [.call false, .sweep true]
    else [.sweep true]
  | .other => []
  | .runIfWaitingForDebugger => if found then [.call true] else []
  | .setOption => if found then [.call false] else []
  | .step paused => if found then .call false :: (if paused then [.call true] else []) else []
  | .getProperties => if found then [.request true] else []
  | .evaluate paused =>
    if found then .call false :: (if paused then [.request false] else []) else []
  | .disable => if found then [.call false, .call true] else []

/-- A request from the client: a method and the thread of its session. -/
structure Handler (Θ : Type*) where
  method : InspectorMethod
  thread : Option Θ := none
  deriving DecidableEq

/-- A running handler: `debuggableThread`, and what is still to be done. -/
structure HandlerRun (Θ : Type*) where
  record : Option Θ
  ops : List HandlerOp
  deriving DecidableEq

/-- Why a handler takes the mutex of a thread. -/
inductive Visit
  | call (resume : Bool)
  | sweep (resume : Bool)
  | check
  | reset
  | request (cached : Bool)
  | requestDone
  deriving DecidableEq

/-- The server thread.  `visit` is before the mutex of a thread, `visiting`
behind it. -/
inductive InspectorServerPc (Θ : Type*)
  | idle
  | receiving (h : Handler Θ)
  | started (h : Handler Θ)
  | handling (c : HandlerRun Θ)
  | enabling (c : HandlerRun Θ)
  | resetting (c : HandlerRun Θ)
  | visit (v : Visit) (u : Θ) (c : HandlerRun Θ)
  | visiting (v : Visit) (u : Θ) (c : HandlerRun Θ)
  | awaiting (u : Θ) (c : HandlerRun Θ)
  | enabled (c : HandlerRun Θ)
  deriving DecidableEq

open InspectorServerPc

/-- An application thread: before `ThreadStart` and in it; between hooks; in
`ThreadEnd` and after it; in `SingleStep` up to its decision; reporting a pause
and in `PauseOtherThreads`; asleep; and woken. -/
inductive AppPc (Θ : Type*)
  | new
  | starting
  | attaching
  | inserting
  | inserted
  | running
  | ending
  | pausingServer
  | detaching
  | erasing
  | ended
  | gone
  | stepping
  | locking
  | deciding
  | reporting (hit : Bool)
  | pausing (u : Θ)
  | pausingOne (u : Θ)
  | sleeping
  | resting
  | waiting
  | waking
  | relocking
  | awake
  | leaving
  deriving DecidableEq

inductive InspectorPc (Θ : Type*)
  | app (pc : AppPc Θ)
  | server (pc : InspectorServerPc Θ)
  deriving DecidableEq

/-- What the environment decides: which hook is called, whether a callback
pauses the thread and at a breakpoint, which request comes, and whether a
thread is found that is paused by a breakpoint. -/
inductive InspectorInput (Θ : Type*)
  | threadStart
  | threadEnd
  | singleStep
  | pause (hit : Bool)
  | goOn
  | receive (h : Handler Θ)
  | found (b : Bool)
  deriving DecidableEq

abbrev LockUse (Θ : Type*) := InspectorLock Θ × LockMode

/-! ### Application threads -/

namespace AppPc

variable {Θ : Type*} [LinearOrder Θ]

/-- The lock that thread `t` waits for, and where it goes on. -/
def wants (t : Θ) : AppPc Θ → Option (LockUse Θ × AppPc Θ)
  | .starting => some ((.debuggerEvents, .exclusive), .attaching)
  | .ending => some ((.debuggerEvents, .exclusive), .pausingServer)
  | .pausingServer => some ((.taskExecution, .shared), .detaching)
  | .stepping => some ((.debuggerEvents, .shared), .locking)
  | .locking => some ((.mutex t, .exclusive), .deciding)
  | .pausing u => if u = t then none else some ((.mutex u, .exclusive), .pausingOne u)
  | .waking => some ((.debuggerEvents, .shared), .relocking)
  | .relocking => some ((.mutex t, .exclusive), .awake)
  | _ => none

/-- The locks that thread `t` holds, the last one first. -/
def holds (t : Θ) : AppPc Θ → List (LockUse Θ)
  | .attaching | .inserting | .inserted => [(.debuggerEvents, .exclusive)]
  | .pausingServer | .erasing | .ended => [(.debuggerEvents, .exclusive)]
  | .detaching => [(.taskExecution, .shared), (.debuggerEvents, .exclusive)]
  | .locking | .resting | .relocking | .leaving => [(.debuggerEvents, .shared)]
  | .deciding | .reporting _ | .pausing _ | .sleeping | .awake =>
    [(.mutex t, .exclusive), (.debuggerEvents, .shared)]
  | .pausingOne u =>
    [(.mutex u, .exclusive), (.mutex t, .exclusive), (.debuggerEvents, .shared)]
  | _ => []

/-- `PauseOtherThreads` goes on with the next thread, or is over. -/
def pauseNext (d : InspectorData Θ) (prev : Option Θ) : AppPc Θ :=
  match d.threadAfter prev none with
  | some u => .pausing u
  | none => .sleeping

/-- What thread `t` does where it waits for no lock. -/
def act (t : Θ) (d : InspectorData Θ) :
    AppPc Θ → InspectorInput Θ → Option (InspectorData Θ × Option (LockUse Θ) × AppPc Θ)
  | .new, .threadStart => some (d, none, .starting)
  | .attaching, _ => some ({ d with sessions := t :: d.sessions }, none, .inserting)
  | .inserting, _ =>
    some ({ d with threads := d.threads.orderedInsert (· ≤ ·) t }, none, .inserted)
  | .inserted, _ => some (d, some (.debuggerEvents, .exclusive), .running)
  | .running, .threadEnd => some (d, none, .ending)
  | .running, .singleStep => some (d, none, .stepping)
  | .detaching, _ =>
    some ({ d with sessions := d.sessions.filter (· ≠ t) }, some (.taskExecution, .shared),
      .erasing)
  | .erasing, _ => some ({ d with threads := d.threads.filter (· ≠ t) }, none, .ended)
  | .ended, _ => some (d, some (.debuggerEvents, .exclusive), .gone)
  | .deciding, .goOn => some (d, some (.mutex t, .exclusive), .leaving)
  | .deciding, .pause hit => some (d.suspend t, none, .reporting hit)
  -- `CallDebuggerPaused` comes before `PauseOtherThreads`
  | .reporting hit, _ => some (d, none, if hit then pauseNext d none else .sleeping)
  -- the loop passes over `t` itself, so it does not get to the mutex of `t`
  | .pausing u, _ => if u = t then some (d, none, pauseNext d (some u)) else none
  | .pausingOne u, _ =>
    if u = t then none else some (d, some (.mutex u, .exclusive), pauseNext d (some u))
  | .sleeping, _ => some (d, some (.mutex t, .exclusive), .resting)
  | .resting, _ => some (d, some (.debuggerEvents, .shared), .waiting)
  | .waiting, _ => if d.managedSuspended t then none else some (d, none, .waking)
  | .awake, i =>
    if (d.runRequest t).suspended t then some (d.runRequest t, none, .sleeping)
    else
      -- out of `Suspend`; the callback ends, or pauses again
      match i with
      | .goOn => some (d.runRequest t, some (.mutex t, .exclusive), .leaving)
      | .pause hit => some ((d.runRequest t).suspend t, none, .reporting hit)
      | _ => none
  | .leaving, _ => some (d, some (.debuggerEvents, .shared), .running)
  | _, _ => none

variable {x : LockUse Θ} {t : Θ}

theorem wants_pausing {u : Θ} {pc' : AppPc Θ} (h : (pausing u).wants t = some (x, pc')) :
    u ≠ t ∧ x = (.mutex u, .exclusive) ∧ pc' = .pausingOne u := by
  obtain ⟨hu, heq⟩ := Option.ite_none_left_eq_some.mp h
  cases heq
  exact ⟨hu, rfl, rfl⟩

/-- What holds before and after `PauseOtherThreads` holds wherever it goes on. -/
theorem pauseNext_induction {P : AppPc Θ → Prop} (hpausing : ∀ u, P (.pausing u))
    (hsleeping : P .sleeping) (d : InspectorData Θ) (prev : Option Θ) : P (pauseNext d prev) := by
  unfold pauseNext
  split
  · exact hpausing _
  · exact hsleeping

@[simp] theorem holds_pauseNext (t : Θ) (d : InspectorData Θ) (prev : Option Θ) :
    (pauseNext d prev).holds t = [(.mutex t, .exclusive), (.debuggerEvents, .shared)] := by
  apply pauseNext_induction (P := fun pc => pc.holds t = [_, _])
  · intro u
    rfl
  · rfl

/-- What thread `t` can do where it waits for no lock. -/
inductive Acts (t : Θ) (d : InspectorData Θ) :
    AppPc Θ → InspectorData Θ → Option (LockUse Θ) → AppPc Θ → Prop
  | threadStart : Acts t d .new d none .starting
  | attach : Acts t d .attaching { d with sessions := t :: d.sessions } none .inserting
  | insert :
      Acts t d .inserting { d with threads := d.threads.orderedInsert (· ≤ ·) t } none .inserted
  | inserted : Acts t d .inserted d (some (.debuggerEvents, .exclusive)) .running
  | threadEnd : Acts t d .running d none .ending
  | singleStep : Acts t d .running d none .stepping
  | detach :
      Acts t d .detaching { d with sessions := d.sessions.filter (· ≠ t) }
        (some (.taskExecution, .shared)) .erasing
  | erase : Acts t d .erasing { d with threads := d.threads.filter (· ≠ t) } none .ended
  | ended : Acts t d .ended d (some (.debuggerEvents, .exclusive)) .gone
  | goOn : Acts t d .deciding d (some (.mutex t, .exclusive)) .leaving
  | pause (hit : Bool) : Acts t d .deciding (d.suspend t) none (.reporting hit)
  | report (hit : Bool) :
      Acts t d (.reporting hit) d none (if hit then pauseNext d none else .sleeping)
  | skip : Acts t d (.pausing t) d none (pauseNext d (some t))
  | pauseOne (u : Θ) (hu : u ≠ t) :
      Acts t d (.pausingOne u) d (some (.mutex u, .exclusive)) (pauseNext d (some u))
  | sleep : Acts t d .sleeping d (some (.mutex t, .exclusive)) .resting
  | rest : Acts t d .resting d (some (.debuggerEvents, .shared)) .waiting
  | wake (h : d.managedSuspended t = false) : Acts t d .waiting d none .waking
  | request (h : (d.runRequest t).suspended t = true) :
      Acts t d .awake (d.runRequest t) none .sleeping
  | resumed (h : (d.runRequest t).suspended t = false) :
      Acts t d .awake (d.runRequest t) (some (.mutex t, .exclusive)) .leaving
  | again (hit : Bool) (h : (d.runRequest t).suspended t = false) :
      Acts t d .awake ((d.runRequest t).suspend t) none (.reporting hit)
  | leave : Acts t d .leaving d (some (.debuggerEvents, .shared)) .running

variable {rel : Option (LockUse Θ)}

theorem acts_of_act {d d' : InspectorData Θ} {pc pc' : AppPc Θ} {i : InspectorInput Θ}
    (h : pc.act t d i = some (d', rel, pc')) : Acts t d pc d' rel pc' := by
  unfold act at h
  split at h
  case h_12 hit =>
    cases h
    exact .report hit
  case h_13 u =>
    obtain ⟨rfl, heq⟩ := Option.ite_none_right_eq_some.mp h
    cases heq
    exact .skip
  -- the guards of the other ones
  all_goals try split at h
  all_goals try split at h
  all_goals cases h
  all_goals constructor
  all_goals simp_all

theorem holds_wants {pc pc' : AppPc Θ} (h : pc.wants t = some (x, pc')) :
    pc'.holds t = x :: pc.holds t := by
  unfold wants at h
  split at h
  case h_6 u =>
    obtain ⟨-, rfl, rfl⟩ := wants_pausing h
    rfl
  all_goals cases h
  all_goals rfl

theorem Acts.holds {d d' : InspectorData Θ} {pc pc' : AppPc Θ} (h : Acts t d pc d' rel pc') :
    pc.holds t = rel.toList ++ pc'.holds t ∧ ∀ x ∈ rel, x ∉ pc'.holds t := by
  cases h with
  | report hit =>
    cases hit
    · exact ⟨rfl, by simp⟩
    · exact ⟨(holds_pauseNext t d none).symm, by simp⟩
  | skip => exact ⟨(holds_pauseNext t d (some t)).symm, by simp⟩
  | pauseOne u hu =>
    refine ⟨congrArg _ (holds_pauseNext t d (some u)).symm, ?_⟩
    rintro x ⟨⟩
    simp [hu]
  | _ => simp [AppPc.holds]

end AppPc

/-! ### The server thread -/

namespace InspectorServerPc

variable {Θ : Type*} [LinearOrder Θ]

def wants : InspectorServerPc Θ → Option (LockUse Θ × InspectorServerPc Θ)
  | .receiving h => some ((.taskExecution, .exclusive), .started h)
  | .enabling c => some ((.debuggerEvents, .exclusive), .resetting c)
  | .visit v u c => some ((.mutex u, .exclusive), .visiting v u c)
  | _ => none

/-- The locks of a handler outside the mutexes of threads. -/
def holdsFor : Visit → List (LockUse Θ)
  | .reset => [(.debuggerEvents, .exclusive), (.taskExecution, .exclusive)]
  | _ => [(.taskExecution, .exclusive)]

def holds : InspectorServerPc Θ → List (LockUse Θ)
  | .idle | .receiving _ => []
  | .started _ | .handling _ | .enabling _ | .awaiting _ _ => [(.taskExecution, .exclusive)]
  | .resetting _ | .enabled _ => [(.debuggerEvents, .exclusive), (.taskExecution, .exclusive)]
  | .visit v _ _ => holdsFor v
  | .visiting v u _ => (.mutex u, .exclusive) :: holdsFor v

/-- A loop over `threads_` goes on with the next thread, or is over. -/
def visitNext (d : InspectorData Θ) (v : Visit) (prev skip : Option Θ) (c : HandlerRun Θ)
    (after : InspectorServerPc Θ) : InspectorServerPc Θ :=
  match d.threadAfter prev skip with
  | some u => .visit v u c
  | none => after

/-- A call of the thread that was looked up. -/
def visitRecord (v : Visit) (c : HandlerRun Θ) : InspectorServerPc Θ :=
  match c.record with
  | some u => .visit v u c
  | none => .handling c

def dispatch (d : InspectorData Θ) (c : HandlerRun Θ) : HandlerOp → InspectorServerPc Θ
  | .call resume => visitRecord (.call resume) c
  | .request cached => visitRecord (.request cached) c
  | .sweep resume => visitNext d (.sweep resume) none none c (.handling c)
  | .check => visitNext d .check none c.record c (.handling c)
  | .enable => .enabling c

/-- What a handler does under the mutex of thread `u`, and where it goes on;
`found` says whether the thread is paused by a breakpoint. -/
def atThread (d : InspectorData Θ) (u : Θ) (c : HandlerRun Θ) (found : Bool) :
    Visit → InspectorData Θ × InspectorServerPc Θ
  | .call resume => (if resume then d.resume u else d, .handling c)
  | .sweep resume =>
    (if resume then d.resume u else d, visitNext d (.sweep resume) (some u) none c (.handling c))
  | .check =>
    (d, if found then .handling { c with ops := [] }
      else visitNext d .check (some u) c.record c (.handling c))
  | .reset => (d, visitNext d .reset (some u) none c (.enabled c))
  | .request cached =>
    if d.suspended u then (d.leaveRequest u, .awaiting u c)
    else (d, .handling { c with ops := if cached then .call false :: c.ops else c.ops })
  | .requestDone => (d, .handling c)

/-- The thread of the session, if the session and the thread are there. -/
def lookUp (d : InspectorData Θ) (h : Handler Θ) : Option Θ :=
  h.thread.filter fun t => decide (t ∈ d.sessions) && decide (t ∈ d.threads)

def act (d : InspectorData Θ) : InspectorServerPc Θ → InspectorInput Θ →
    Option (InspectorData Θ × Option (LockUse Θ) × InspectorServerPc Θ)
  | .idle, .receive h => some (d, none, .receiving h)
  | .started h, _ =>
    some (d, none, .handling ⟨lookUp d h, h.method.ops (lookUp d h).isSome⟩)
  | .handling ⟨record, op :: ops⟩, _ => some (d, none, dispatch d ⟨record, ops⟩ op)
  | .handling ⟨_, []⟩, _ => some (d, some (.taskExecution, .exclusive), .idle)
  | .resetting c, _ => some (d, none, visitNext d .reset none none c (.enabled c))
  | .visiting v u c, i =>
    some ((atThread d u c (i = .found true) v).1, some (.mutex u, .exclusive),
      (atThread d u c (i = .found true) v).2)
  | .awaiting u c, _ => if d.request u then none else some (d, none, .visit .requestDone u c)
  | .enabled c, _ => some (d, some (.debuggerEvents, .exclusive), .handling c)
  | _, _ => none

/-- The thread whose answer the handler awaits. -/
def awaits (d : InspectorData Θ) : InspectorServerPc Θ → Option Θ
  | .awaiting u _ => if d.request u then some u else none
  | _ => none

variable {P : InspectorServerPc Θ → Prop} {d : InspectorData Θ} {c : HandlerRun Θ} {v : Visit}

/-- What holds at each visit of a loop and after the loop holds wherever the
loop goes on. -/
theorem visitNext_induction {prev skip : Option Θ} {after : InspectorServerPc Θ}
    (hvisit : ∀ u ∈ d.threads, P (.visit v u c)) (hafter : P after) :
    P (visitNext d v prev skip c after) := by
  unfold visitNext
  split
  · next u hu => exact hvisit u (InspectorData.threadAfter_eq_some hu).1
  · exact hafter

omit [LinearOrder Θ] in
theorem visitRecord_induction (hvisit : ∀ u, c.record = some u → P (.visit v u c))
    (hhandling : P (.handling c)) : P (visitRecord v c) := by
  unfold visitRecord
  split
  · next u hu => exact hvisit u hu
  · exact hhandling

theorem atThread_request (d : InspectorData Θ) (u : Θ) (c : HandlerRun Θ) (found cached : Bool) :
    atThread d u c found (.request cached) = (d.leaveRequest u, .awaiting u c) ∨
      ∃ ops, atThread d u c found (.request cached) = (d, .handling { c with ops := ops }) := by
  by_cases hu : d.suspended u
  · exact .inl (if_pos hu)
  · exact .inr ⟨_, if_neg hu⟩

/-- What the server thread can do where it waits for no lock. -/
inductive Acts (d : InspectorData Θ) : InspectorServerPc Θ → InspectorData Θ →
    Option (LockUse Θ) → InspectorServerPc Θ → Prop
  | receive (h : Handler Θ) : Acts d .idle d none (.receiving h)
  | lookUp (h : Handler Θ) :
      Acts d (.started h) d none (.handling ⟨lookUp d h, h.method.ops (lookUp d h).isSome⟩)
  | dispatch (record : Option Θ) (op : HandlerOp) (ops : List HandlerOp) :
      Acts d (.handling ⟨record, op :: ops⟩) d none (dispatch d ⟨record, ops⟩ op)
  | finish (record : Option Θ) :
      Acts d (.handling ⟨record, []⟩) d (some (.taskExecution, .exclusive)) .idle
  | reset (c : HandlerRun Θ) :
      Acts d (.resetting c) d none (visitNext d .reset none none c (.enabled c))
  | visit (v : Visit) (u : Θ) (c : HandlerRun Θ) (found : Bool) :
      Acts d (.visiting v u c) (atThread d u c found v).1 (some (.mutex u, .exclusive))
        (atThread d u c found v).2
  | answered (u : Θ) (c : HandlerRun Θ) (h : d.request u = false) :
      Acts d (.awaiting u c) d none (.visit .requestDone u c)
  | enabled (c : HandlerRun Θ) :
      Acts d (.enabled c) d (some (.debuggerEvents, .exclusive)) (.handling c)

variable {rel : Option (LockUse Θ)} {d' : InspectorData Θ}

theorem acts_of_act {pc pc' : InspectorServerPc Θ} {i : InspectorInput Θ}
    (h : pc.act d i = some (d', rel, pc')) : Acts d pc d' rel pc' := by
  unfold act at h
  split at h
  case h_7 u c =>
    obtain ⟨hrequest, heq⟩ := Option.ite_none_left_eq_some.mp h
    cases heq
    exact .answered u c (by simpa using hrequest)
  all_goals cases h
  all_goals constructor

omit [LinearOrder Θ] in
theorem holds_wants {pc pc' : InspectorServerPc Θ} {x : LockUse Θ}
    (h : pc.wants = some (x, pc')) : pc'.holds = x :: pc.holds := by
  unfold wants at h
  split at h
  all_goals cases h
  all_goals rfl

theorem holds_visitNext (d : InspectorData Θ) (v : Visit) (prev skip : Option Θ)
    (c : HandlerRun Θ) (after : InspectorServerPc Θ) (hafter : after.holds = holdsFor v) :
    (visitNext d v prev skip c after).holds = holdsFor v := by
  refine visitNext_induction (P := fun pc => pc.holds = holdsFor v) ?_ hafter
  intro u _
  rfl

theorem holds_dispatch (d : InspectorData Θ) (c : HandlerRun Θ) (op : HandlerOp) :
    (dispatch d c op).holds = [(.taskExecution, .exclusive)] := by
  have hrecord : ∀ v, holdsFor v = [((.taskExecution, .exclusive) : LockUse Θ)] →
      (visitRecord v c).holds = [(.taskExecution, .exclusive)] := by
    intro v hv
    refine visitRecord_induction (P := fun pc => pc.holds = _) ?_ rfl
    intro u _
    exact hv
  cases op with
  | call resume | request cached => exact hrecord _ rfl
  | sweep resume | check => exact holds_visitNext d _ _ _ c _ rfl
  | enable => rfl

theorem holds_atThread (d : InspectorData Θ) (u : Θ) (c : HandlerRun Θ) (found : Bool)
    (v : Visit) : (atThread d u c found v).2.holds = holdsFor v := by
  cases v with
  | call resume | requestDone => rfl
  | sweep resume | reset => exact holds_visitNext d _ _ _ c _ rfl
  | check =>
    cases found
    · exact holds_visitNext d _ _ _ c _ rfl
    · rfl
  | request cached =>
    obtain h | ⟨ops, h⟩ := atThread_request d u c found cached
    all_goals
      rw [h]
      rfl

theorem Acts.holds {pc pc' : InspectorServerPc Θ} (h : Acts d pc d' rel pc') :
    pc.holds = rel.toList ++ pc'.holds ∧ ∀ x ∈ rel, x ∉ pc'.holds := by
  cases h with
  | dispatch record op ops => exact ⟨(holds_dispatch d ⟨record, ops⟩ op).symm, by simp⟩
  | reset c => exact ⟨(holds_visitNext d .reset none none c _ rfl).symm, by simp⟩
  | visit v u c found =>
    refine ⟨congrArg _ (holds_atThread d u c found v).symm, ?_⟩
    rintro x ⟨⟩
    rw [holds_atThread]
    cases v <;> simp [holdsFor]
  | _ => simp [holds, holdsFor]

end InspectorServerPc

/-! ### The program -/

section Program

variable {Θ : Type*} [LinearOrder Θ]

/-- The hooks and the handlers, with their locks. -/
def inspectorProgram : LockProgram (Agent Θ) (InspectorLock Θ) (InspectorData Θ) (InspectorPc Θ)
    (InspectorInput Θ) where
  wants
    | .app t, .app pc => (pc.wants t).map fun r => (r.1, .app r.2)
    | .server, .server pc => pc.wants.map fun r => (r.1, .server r.2)
    | _, _ => none
  act
    | .app t, d, .app pc, i => (pc.act t d i).map fun r => (r.1, r.2.1, .app r.2.2)
    | .server, d, .server pc, i => (pc.act d i).map fun r => (r.1, r.2.1, .server r.2.2)
    | _, _, _, _ => none
  awaits
    | .server, d, .server pc => (pc.awaits d).map .app
    | _, _, _ => none
  holds
    | .app t, .app pc => pc.holds t
    | .server, .server pc => pc.holds
    | _, _ => []
  holds_wants := by
    intro a pc x pc' h
    rcases a with t | - <;> rcases pc with pc | pc
    · obtain ⟨⟨y, p⟩, hy, heq⟩ := Option.map_eq_some_iff.mp h
      cases heq
      exact AppPc.holds_wants hy
    · cases h
    · cases h
    · obtain ⟨⟨y, p⟩, hy, heq⟩ := Option.map_eq_some_iff.mp h
      cases heq
      exact holds_wants hy
  holds_act := by
    intro a d pc i d' rel pc' h
    rcases a with t | - <;> rcases pc with pc | pc
    · obtain ⟨⟨e, y, p⟩, hy, heq⟩ := Option.map_eq_some_iff.mp h
      cases heq
      exact (AppPc.acts_of_act hy).holds
    · cases h
    · cases h
    · obtain ⟨⟨e, y, p⟩, hy, heq⟩ := Option.map_eq_some_iff.mp h
      cases heq
      exact (acts_of_act hy).holds

/-! A counter of the wrong kind for its agent wants, does and holds nothing. -/

variable {pc pc' : InspectorPc Θ} {a : Agent Θ} {x : LockUse Θ}

theorem wants_cases (h : inspectorProgram.wants a pc = some (x, pc')) :
    (∃ t p p', a = .app t ∧ pc = .app p ∧ pc' = .app p' ∧ p.wants t = some (x, p')) ∨
      ∃ p p', a = .server ∧ pc = .server p ∧ pc' = .server p' ∧ p.wants = some (x, p') := by
  rcases a with t | - <;> rcases pc with p | p
  · obtain ⟨⟨y, p'⟩, hy, heq⟩ := Option.map_eq_some_iff.mp h
    cases heq
    exact .inl ⟨t, p, p', rfl, rfl, rfl, hy⟩
  · cases h
  · cases h
  · obtain ⟨⟨y, p'⟩, hy, heq⟩ := Option.map_eq_some_iff.mp h
    cases heq
    exact .inr ⟨p, p', rfl, rfl, rfl, hy⟩

variable {b : Agent Θ}

theorem awaits_cases {d : InspectorData Θ} (h : inspectorProgram.awaits a d pc = some b) :
    ∃ u c, a = .server ∧ b = .app u ∧ pc = .server (.awaiting u c) := by
  rcases a with t | - <;> rcases pc with p | p
  · cases h
  · cases h
  · cases h
  · obtain ⟨u, hu, rfl⟩ := Option.map_eq_some_iff.mp h
    cases p with
    | awaiting v c =>
      obtain ⟨-, heq⟩ := Option.ite_none_right_eq_some.mp hu
      cases heq
      exact ⟨_, c, rfl, rfl, rfl⟩
    | _ => cases hu

theorem holds_cases (h : x ∈ inspectorProgram.holds b pc) :
    (∃ t p, b = .app t ∧ pc = .app p ∧ x ∈ p.holds t) ∨
      ∃ p, b = .server ∧ pc = .server p ∧ x ∈ p.holds := by
  rcases b with t | - <;> rcases pc with p | p
  · exact .inl ⟨t, p, rfl, rfl, h⟩
  · cases h
  · cases h
  · exact .inr ⟨p, rfl, rfl, h⟩

/-- The states of the hooks and handlers. -/
abbrev InspectorStates (Θ : Type*) [LinearOrder Θ] := (@inspectorProgram Θ _).States

/-- No thread has started, and no request has come. -/
def inspectorStart : InspectorStates Θ where
  shared := { data := {} }
  pcs
    | .app _ => .app .new
    | .server => .server .idle

/-- What one step can do. -/
inductive InspectorStep (s : InspectorStates Θ) : Agent Θ → InspectorStates Θ → Prop
  | appTakes (t : Θ) (x : LockUse Θ) (pc pc' : AppPc Θ) (hpc : s.pcs (.app t) = .app pc)
      (hwants : pc.wants t = some (x, pc')) (hfree : s.shared.free x = true) :
      InspectorStep s (.app t)
        { shared := { held := (.app t, x) :: s.shared.held, data := s.shared.data }
          pcs := Function.update s.pcs (.app t) (.app pc') }
  | appActs (t : Θ) (d : InspectorData Θ) (rel : Option (LockUse Θ)) (pc pc' : AppPc Θ)
      (hpc : s.pcs (.app t) = .app pc) (hacts : AppPc.Acts t s.shared.data pc d rel pc') :
      InspectorStep s (.app t)
        { shared := { held := s.shared.released (.app t) rel, data := d }
          pcs := Function.update s.pcs (.app t) (.app pc') }
  | serverTakes (x : LockUse Θ) (pc pc' : InspectorServerPc Θ)
      (hpc : s.pcs .server = .server pc) (hwants : pc.wants = some (x, pc'))
      (hfree : s.shared.free x = true) :
      InspectorStep s .server
        { shared := { held := (.server, x) :: s.shared.held, data := s.shared.data }
          pcs := Function.update s.pcs .server (.server pc') }
  | serverActs (d : InspectorData Θ) (rel : Option (LockUse Θ)) (pc pc' : InspectorServerPc Θ)
      (hpc : s.pcs .server = .server pc)
      (hacts : InspectorServerPc.Acts s.shared.data pc d rel pc') :
      InspectorStep s .server
        { shared := { held := s.shared.released .server rel, data := d }
          pcs := Function.update s.pcs .server (.server pc') }

theorem inspectorStep_of_step {s s' : InspectorStates Θ} {i : InspectorInput Θ}
    (h : s.step inspectorProgram.next a i = some s') : InspectorStep s a s' := by
  obtain ⟨sh, pc', hn, rfl⟩ := Threads.step_eq_some h
  obtain ⟨x, hw, hfree, rfl⟩ | ⟨-, d, rel, hact, rfl⟩ := LockProgram.next_eq_some hn
  · obtain ⟨t, p, p', rfl, hpc, rfl, hp⟩ | ⟨p, p', rfl, hpc, rfl, hp⟩ := wants_cases hw
    · exact .appTakes t x p p' hpc hp hfree
    · exact .serverTakes x p p' hpc hp hfree
  · rcases a with t | -
    · rcases hpc : s.pcs (.app t) with p | p <;> rw [hpc] at hact
      · obtain ⟨⟨d, rel, p'⟩, hp, heq⟩ := Option.map_eq_some_iff.mp hact
        cases heq
        exact .appActs t d rel p p' hpc (AppPc.acts_of_act hp)
      · cases hact
    · rcases hpc : s.pcs .server with p | p <;> rw [hpc] at hact
      · cases hact
      · obtain ⟨⟨d, rel, p'⟩, hp, heq⟩ := Option.map_eq_some_iff.mp hact
        cases heq
        exact .serverActs d rel p p' hpc (acts_of_act hp)

theorem InspectorStep.pcs_app {s s' : InspectorStates Θ} (h : InspectorStep s a s') (t : Θ) :
    s'.pcs (.app t) = s.pcs (.app t) ∨
      a = .app t ∧ ∃ pc pc', s.pcs (.app t) = .app pc ∧ s'.pcs (.app t) = .app pc' ∧
        ((∃ x, pc.wants t = some (x, pc')) ∨
          ∃ d rel, AppPc.Acts t s.shared.data pc d rel pc') := by
  cases h with
  | appTakes u x pc pc' hpc hw _ =>
    by_cases hu : u = t
    · subst hu
      exact .inr ⟨rfl, pc, pc', hpc, by simp, .inl ⟨x, hw⟩⟩
    · exact .inl (by simp [Ne.symm hu])
  | appActs u d rel pc pc' hpc hacts =>
    by_cases hu : u = t
    · subst hu
      exact .inr ⟨rfl, pc, pc', hpc, by simp, .inr ⟨d, rel, hacts⟩⟩
    · exact .inl (by simp [Ne.symm hu])
  | serverTakes | serverActs => exact .inl (by simp)

theorem InspectorStep.pcs_server {s s' : InspectorStates Θ} (h : InspectorStep s a s') :
    s'.pcs .server = s.pcs .server ∨
      a = .server ∧ ∃ pc pc', s.pcs .server = .server pc ∧ s'.pcs .server = .server pc' ∧
        ((∃ x, pc.wants = some (x, pc')) ∨
          ∃ d rel, InspectorServerPc.Acts s.shared.data pc d rel pc') := by
  cases h with
  | appTakes | appActs => exact .inl (by simp)
  | serverTakes x pc pc' hpc hw _ =>
    exact .inr ⟨rfl, pc, pc', hpc, by simp, .inl ⟨x, hw⟩⟩
  | serverActs d rel pc pc' hpc hacts =>
    exact .inr ⟨rfl, pc, pc', hpc, by simp, .inr ⟨d, rel, hacts⟩⟩

theorem InspectorStep.pcs_app_of_server {s s' : InspectorStates Θ}
    (h : InspectorStep s .server s') (t : Θ) : s'.pcs (.app t) = s.pcs (.app t) := by
  obtain happ | ⟨hserver, -⟩ := h.pcs_app t
  · exact happ
  · cases hserver

theorem consistent_inspectorStart : inspectorProgram.Consistent (@inspectorStart Θ _) := by
  apply LockProgram.consistent_of_holds_nil
  · rfl
  · rintro (t | -) <;> rfl

end Program

end ArkToolchain
