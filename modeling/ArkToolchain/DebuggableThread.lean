/-
The suspension protocol of one debuggable thread
(tooling/static/debugger/debuggable_thread.cpp).

One step is one section under `mutex_`, or the return of a wait; between the sections nobody
holds the mutex, so it is not in the state.  An assertion of the source that does not hold sets
`failed`.  Requests are numbered; `accepted` and `executed` record what has become of them.

`Shape` lists the states of the two threads that can occur together: the table in the comment of
`DebuggableThread::Suspend` with the transient states added.

Main result: `suspension_protocol`, from an invariant with one shape for each pair of program
counters (`Suspension.Inv`).
-/
import ArkToolchain.Interleaving
import ArkToolchain.ThreadState
import Mathlib.Data.List.Nodup

namespace ArkToolchain

open Threads

inductive Party
  | app
  | server
  deriving DecidableEq

/-- Callbacks of the VM on the application thread. -/
inductive AppCallback
  | singleStep (location : PtLocation) (hit : Bool)
  | exception (uncaught : Bool)
  | framePop
  | methodEntry
  | breakOnStart
  deriving DecidableEq

/-- Methods that the server thread calls, but for object repository requests. -/
inductive ServerCommand
  | continueThread
  | continueTo (locations : List PtLocation)
  | stepInto (locations : List PtLocation)
  | stepOver (locations : List PtLocation)
  | stepOut
  | touch
  | pause
  | reset
  | setSkipAllPauses (skip : Bool)
  | setPauseOnExceptions (state : PauseOnExceptionsState)
  deriving DecidableEq

inductive SuspensionPc
  /-- The application thread runs. -/
  | running
  /-- It is in `WaitSuspension`. -/
  | waiting
  /-- `WaitSuspension` has returned, and the mutex is to be taken. -/
  | woken
  /-- The server thread is not in a request; it remembers the last answer. -/
  | idle (answer : Option Bool)
  /-- It waits for its request to be done. -/
  | awaiting (request : Nat)
  deriving DecidableEq

inductive SuspensionInput
  | callback (c : AppCallback)
  | command (c : ServerCommand)
  | request
  /-- A wait returns, or the woken thread takes the mutex. -/
  | proceed
  deriving DecidableEq

structure Suspension where
  state : ThreadState := {}
  suspended : Bool := false
  request : Option Nat := none
  /-- `GetManagedThread()->IsSuspended()`. -/
  managedSuspended : Bool := false
  /-- An assertion has failed. -/
  failed : Bool := false
  accepted : List Nat := []
  executed : List Nat := []
  deriving DecidableEq

/-- What the command does to the thread's state. -/
def ServerCommand.onState (ts : ThreadState) : ServerCommand → ThreadState
  | .continueThread => ts.continueThread
  | .continueTo locations => ts.continueTo locations
  | .stepInto locations => ts.stepInto locations
  | .stepOver locations => ts.stepOver locations
  | .stepOut => ts.stepOut
  | .touch => ts
  | .pause => ts.pause
  | .reset => ts.reset
  | .setSkipAllPauses skip => ts.setSkipAllPauses skip
  | .setPauseOnExceptions state => ts.setPauseOnExceptions state

/-- Whether the command ends with `Resume`. -/
def ServerCommand.resumes : ServerCommand → Bool
  | .continueThread | .continueTo _ | .stepInto _ | .stepOver _ | .stepOut | .touch => true
  | .pause | .reset | .setSkipAllPauses _ | .setPauseOnExceptions _ => false

def AppCallback.onState (ts : ThreadState) : AppCallback → ThreadState
  | .singleStep location hit => ts.onSingleStep location hit
  | .exception uncaught => ts.onException uncaught
  | .framePop => ts.onFramePop
  | .methodEntry => ts.onMethodEntry.2
  | .breakOnStart => ts.breakOnStart

namespace Suspension

variable (sh : Suspension)

/-- `ASSERT`. -/
def check (condition : Bool) : Suspension :=
  { sh with failed := sh.failed || !condition }

/-- `Suspend` up to the first wait. -/
def suspend : Suspension :=
  { (sh.check !sh.suspended).check !sh.request.isSome with
    suspended := true
    managedSuspended := true }

def resume : Suspension :=
  let sh := sh.check !sh.request.isSome
  if !sh.suspended then sh
  else { sh.check sh.managedSuspended with suspended := false, managedSuspended := false }

/-- The loop condition of the callbacks that suspend. -/
def suspendWhilePaused : Suspension × SuspensionPc :=
  if sh.state.paused then (sh.suspend, .waiting) else (sh, .running)

/-- A callback: all but `BreakOnStart` assert that the thread is not paused, and the last
three do not suspend. -/
def onCallback (c : AppCallback) : Suspension × SuspensionPc :=
  let sh' := { sh.check !sh.state.paused with state := c.onState sh.state }
  match c with
  | .singleStep _ _ | .exception _ => sh'.suspendWhilePaused
  | .framePop | .methodEntry => (sh', .running)
  | .breakOnStart => ({ sh with state := c.onState sh.state }, .running)

/-- The body of the loop in `Suspend`, after the wait. -/
def runRequest : Suspension :=
  let sh := sh.check (sh.suspended == sh.request.isSome)
  match sh.request with
  | none => sh
  | some n =>
    { sh with executed := sh.executed ++ [n], request := none, managedSuspended := true }

/-- The woken thread goes on: it sleeps again while it is suspended, and
suspends again while it is paused. -/
def onWoken : Suspension × SuspensionPc :=
  let sh := sh.runRequest
  if sh.suspended then (sh, .waiting) else sh.suspendWhilePaused

def onCommand (c : ServerCommand) : Suspension :=
  let sh := { sh with state := c.onState sh.state }
  if c.resumes then sh.resume else sh

/-- `RequestToObjectRepository` up to its wait. -/
def requestToObjectRepository : Suspension × SuspensionPc :=
  let sh := sh.check !sh.request.isSome
  if !sh.suspended then (sh, .idle (some false))
  else
    let n := sh.accepted.length
    ({ sh.check sh.managedSuspended with
        request := some n
        managedSuspended := false
        accepted := sh.accepted ++ [n] }, .awaiting n)

def next (p : Party) (sh : Suspension) (pc : SuspensionPc) (i : SuspensionInput) :
    Option (Suspension × SuspensionPc) :=
  match p, pc, i with
  | .app, .running, .callback c => some (sh.onCallback c)
  | .app, .waiting, .proceed => if sh.managedSuspended then none else some (sh, .woken)
  | .app, .woken, .proceed => some sh.onWoken
  | .server, .idle _, .command c => some (sh.onCommand c, .idle none)
  | .server, .idle _, .request => some sh.requestToObjectRepository
  | .server, .awaiting _, .proceed =>
    if sh.request.isSome then none
    else some ((sh.check sh.suspended).check sh.managedSuspended, .idle (some true))
  | _, _, _ => none

end Suspension

/-- A thread that has just been started, and no request under way. -/
def Suspension.start : Threads Party Suspension SuspensionPc where
  shared := {}
  pcs := fun p => if p = .app then .running else .idle none

/-! ### Commands and the thread's state -/

theorem ServerCommand.paused_onState (ts : ThreadState) (c : ServerCommand) :
    (c.onState ts).paused = true → ts.paused = true := by
  cases c with
  | pause =>
    show (ts.pause).paused = true → _
    fun_cases ThreadState.pause ts <;> exact id
  | continueThread | continueTo | stepInto | stepOver | stepOut => nofun
  | touch | reset | setSkipAllPauses skip | setPauseOnExceptions state => exact id

theorem ServerCommand.paused_of_not_resumes {c : ServerCommand} (hc : c.resumes = false)
    (ts : ThreadState) : (c.onState ts).paused = ts.paused := by
  cases c with
  | pause =>
    show (ts.pause).paused = _
    fun_cases ThreadState.pause ts <;> rfl
  | reset | setSkipAllPauses skip | setPauseOnExceptions state => rfl
  | continueThread | continueTo locations | stepInto locations
  | stepOver locations | stepOut | touch => simp [resumes] at hc

namespace Suspension

@[simp] theorem check_true (sh : Suspension) : sh.check true = sh := by
  simp [check]

/-! ### The states that occur together -/

/-- The states of the application thread and of the server thread, with what
the shared variables are then. -/
inductive Shape (sh : Suspension) : SuspensionPc → SuspensionPc → Prop
  | running (a : Option Bool) (hs : sh.suspended = false) (hm : sh.managedSuspended = false)
      (hr : sh.request = none) (hp : sh.state.paused = false) : Shape sh .running (.idle a)
  | asleep (a : Option Bool) (hs : sh.suspended = true) (hm : sh.managedSuspended = true)
      (hr : sh.request = none) (hp : sh.state.paused = true) : Shape sh .waiting (.idle a)
  | resumed (a : Option Bool) {app : SuspensionPc} (happ : app = .waiting ∨ app = .woken)
      (hs : sh.suspended = false) (hm : sh.managedSuspended = false) (hr : sh.request = none) :
      Shape sh app (.idle a)
  | requested (n : Nat) {app : SuspensionPc} (happ : app = .waiting ∨ app = .woken)
      (hs : sh.suspended = true) (hm : sh.managedSuspended = false) (hr : sh.request = some n)
      (hp : sh.state.paused = true) : Shape sh app (.awaiting n)
  | done (n : Nat) (hs : sh.suspended = true) (hm : sh.managedSuspended = true)
      (hr : sh.request = none) (hp : sh.state.paused = true) (hn : n ∈ sh.executed) :
      Shape sh .waiting (.awaiting n)

/-- The invariant of the protocol. -/
structure Inv (sh : Suspension) (app server : SuspensionPc) : Prop where
  shape : Shape sh app server
  not_failed : sh.failed = false
  requests : sh.accepted = sh.executed ++ sh.request.toList
  numbered : sh.accepted = List.range sh.accepted.length

variable {sh sh' : Suspension} {app app' server server' : SuspensionPc} {i : SuspensionInput}
  {a : Option Bool}

theorem inv_suspendWhilePaused (hs : sh.suspended = false) (hm : sh.managedSuspended = false)
    (hr : sh.request = none) (hf : sh.failed = false)
    (hreq : sh.accepted = sh.executed ++ sh.request.toList)
    (hnum : sh.accepted = List.range sh.accepted.length) :
    Inv sh.suspendWhilePaused.1 sh.suspendWhilePaused.2 (.idle a) := by
  unfold suspendWhilePaused
  split
  · next hp =>
      refine ⟨.asleep a rfl rfl hr hp, ?_, hreq, hnum⟩
      simp [suspend, check, hf, hs, hr]
  · next hp => exact ⟨.running a hs hm hr (by simpa using hp), hf, hreq, hnum⟩

variable {n : Nat}

theorem inv_app (h : Inv sh app server) (hnext : next .app sh app i = some (sh', app')) :
    Inv sh' app' server := by
  obtain ⟨hshape, hf, hreq, hnum⟩ := h
  unfold next at hnext
  split at hnext
  all_goals try contradiction
  case h_1 c _ =>
    cases hshape with
    | resumed a happ | requested n happ => simp at happ
    | running a hs hm hr hp =>
      obtain ⟨rfl, rfl⟩ := Prod.ext_iff.mp (Option.some.inj hnext)
      have hf' : (sh.check !sh.state.paused).failed = false := by simp [hf, hp]
      cases c with
      | singleStep | exception => exact inv_suspendWhilePaused hs hm hr hf' hreq hnum
      | framePop | methodEntry =>
        exact ⟨.running a hs hm hr (by simpa [onCallback, AppCallback.onState] using hp), hf', hreq,
          hnum⟩
      | breakOnStart => exact ⟨.running a hs hm hr hp, hf, hreq, hnum⟩
  case h_2 =>
    -- the wait returns, so the managed thread was resumed
    obtain ⟨hm, heq⟩ := Option.ite_none_left_eq_some.mp hnext
    cases heq
    cases hshape with
    | asleep a hs hm' | done n hs hm' => exact absurd hm' hm
    | resumed a happ hs hm hr => exact ⟨.resumed a (.inr rfl) hs hm hr, hf, hreq, hnum⟩
    | requested n happ hs hm hr hp =>
      exact ⟨.requested n (.inr rfl) hs hm hr hp, hf, hreq, hnum⟩
  case h_3 =>
    obtain ⟨rfl, rfl⟩ := Prod.ext_iff.mp (Option.some.inj hnext)
    cases hshape with
    | resumed a happ hs hm hr =>
      simpa [onWoken, runRequest, hs, hr] using inv_suspendWhilePaused hs hm hr hf hreq hnum
    | requested n happ hs hm hr hp =>
      have hwoken : sh.onWoken =
          ({ sh with executed := sh.executed ++ [n], request := none, managedSuspended := true },
            .waiting) := by
        simp [onWoken, runRequest, hs, hr]
      rw [hwoken]
      refine ⟨.done n hs rfl rfl hp (by simp), hf, ?_, hnum⟩
      simpa [hr] using hreq

variable {c : ServerCommand}

theorem onCommand_of_resumes (hc : c.resumes = true) (hm : sh.managedSuspended = sh.suspended)
    (hr : sh.request = none) :
    sh.onCommand c = { sh with
      state := c.onState sh.state, suspended := false, managedSuspended := false } := by
  obtain ⟨state, suspended, request, managed, failed, accepted, executed⟩ := sh
  dsimp only at hm hr
  subst hm hr
  cases managed <;> simp [onCommand, hc, resume, check]

theorem requestToObjectRepository_of_not_suspended (hs : sh.suspended = false)
    (hr : sh.request = none) : sh.requestToObjectRepository = (sh, .idle (some false)) := by
  simp [requestToObjectRepository, hr, hs]

theorem inv_command (h : Inv sh app (.idle a)) (c : ServerCommand) :
    Inv (sh.onCommand c) app (.idle none) := by
  obtain ⟨hshape, hf, hreq, hnum⟩ := h
  rcases hc : c.resumes with - | -
  · -- the flags stay, and so does the pause
    have hpaused := ServerCommand.paused_of_not_resumes hc sh.state
    rw [onCommand, if_neg (by simp [hc])]
    refine ⟨?_, hf, hreq, hnum⟩
    cases hshape with
    | running _ hs hm hr hp => exact .running none hs hm hr (hpaused.trans hp)
    | asleep _ hs hm hr hp => exact .asleep none hs hm hr (hpaused.trans hp)
    | resumed _ happ hs hm hr => exact .resumed none happ hs hm hr
  · cases hshape with
    | running _ hs hm hr hp =>
      rw [onCommand_of_resumes hc (hm.trans hs.symm) hr]
      have hpaused : (c.onState sh.state).paused = false := by
        by_contra hne
        exact absurd (c.paused_onState sh.state (by simpa using hne)) (by simp [hp])
      exact ⟨.running none rfl rfl hr hpaused, hf, hreq, hnum⟩
    | asleep _ hs hm hr hp =>
      rw [onCommand_of_resumes hc (hm.trans hs.symm) hr]
      exact ⟨.resumed none (.inl rfl) rfl rfl hr, hf, hreq, hnum⟩
    | resumed _ happ hs hm hr =>
      rw [onCommand_of_resumes hc (hm.trans hs.symm) hr]
      exact ⟨.resumed none happ rfl rfl hr, hf, hreq, hnum⟩

theorem inv_request (h : Inv sh app (.idle a)) :
    Inv sh.requestToObjectRepository.1 app sh.requestToObjectRepository.2 := by
  obtain ⟨hshape, hf, hreq, hnum⟩ := h
  cases hshape with
  | running _ hs hm hr hp =>
    rw [requestToObjectRepository_of_not_suspended hs hr]
    exact ⟨.running _ hs hm hr hp, hf, hreq, hnum⟩
  | resumed _ happ hs hm hr =>
    rw [requestToObjectRepository_of_not_suspended hs hr]
    exact ⟨.resumed _ happ hs hm hr, hf, hreq, hnum⟩
  | asleep _ hs hm hr hp =>
    simp only [requestToObjectRepository, hs, hm, hr, check_true, Bool.not_true,
      Bool.false_eq_true, if_false, Option.isSome_none, Bool.not_false]
    refine ⟨.requested _ (.inl rfl) rfl rfl rfl hp, hf, ?_, ?_⟩
    · have hexec : sh.accepted = sh.executed := by simpa [hr] using hreq
      simp [hexec]
    · rw [List.length_append, List.length_singleton, List.range_succ, ← hnum]

theorem inv_server (h : Inv sh app server)
    (hnext : next .server sh server i = some (sh', server')) : Inv sh' app server' := by
  unfold next at hnext
  split at hnext
  all_goals try contradiction
  case h_4 c _ =>
    cases hnext
    exact inv_command h c
  case h_5 =>
    obtain ⟨rfl, rfl⟩ := Prod.ext_iff.mp (Option.some.inj hnext)
    exact inv_request h
  case h_6 =>
    obtain ⟨hnone, heq⟩ := Option.ite_none_left_eq_some.mp hnext
    cases heq
    obtain ⟨hshape, hf, hreq, hnum⟩ := h
    cases hshape with
    | requested n happ hs hm hr => simp [hr] at hnone
    | done n hs hm hr hp hn =>
      rw [hs, check_true, hm, check_true]
      exact ⟨.asleep _ hs hm hr hp, hf, hreq, hnum⟩

/-! ### Runs -/

theorem inv_reaches {s : Threads Party Suspension SuspensionPc}
    (h : Reaches next start s) : Inv s.shared (s.pcs .app) (s.pcs .server) := by
  refine h.invariant (P := fun s => Inv s.shared (s.pcs .app) (s.pcs .server)) ?_
    ⟨.running none rfl rfl rfl rfl, rfl, rfl, rfl⟩
  intro s p i s' hinv hstep
  obtain ⟨sh, pc, hnext, rfl⟩ := step_eq_some hstep
  cases p with
  | app => simpa using inv_app hinv hnext
  | server => simpa using inv_server hinv hnext

theorem Inv.woken (h : Inv sh .woken server) : sh.request.isSome = true ↔ sh.suspended = true := by
  cases h.shape with
  | resumed a happ hs hm hr | requested n happ hs hm hr => simp [hr, hs]

theorem Inv.request_of_idle (h : Inv sh app (.idle a)) : sh.request = none := by
  cases h.shape with
  | running _ _ _ hr | asleep _ _ _ hr | resumed _ _ _ _ hr => exact hr

theorem Inv.app_of_request (h : Inv sh app server) (hr : sh.request = some n) :
    app = .waiting ∧ sh.managedSuspended = false ∨ app = .woken := by
  cases h.shape with
  | requested _ happ _ hm => exact happ.imp_left fun happ => ⟨happ, hm⟩
  | running _ _ _ hr' | asleep _ _ _ hr' | resumed _ _ _ _ hr' | done _ _ _ hr' => simp [hr'] at hr

theorem Inv.count_executed (h : Inv sh app server) (hn : n ∈ sh.accepted) :
    sh.executed.count n ≤ 1 ∧ (server ≠ .awaiting n → sh.executed.count n = 1) := by
  have hnodup : (sh.executed ++ sh.request.toList).Nodup := by
    rw [← h.requests, h.numbered]
    exact List.nodup_range
  refine ⟨List.nodup_iff_count_le_one.mp (List.nodup_append.mp hnodup).1 n, fun hserver => ?_⟩
  apply List.count_eq_one_of_mem (List.nodup_append.mp hnodup).1
  rw [h.requests, List.mem_append] at hn
  rcases hn with hn | hn
  · exact hn
  · -- a request that is not executed yet is the one waited for
    cases h.shape with
    | requested m happ hs hm hr =>
      obtain rfl : m = n := by simpa [hr, eq_comm] using hn
      exact absurd rfl hserver
    | running a hs hm hr | asleep a hs hm hr | resumed a happ hs hm hr | done m hs hm hr =>
      simp [hr] at hn

/-- **The suspension protocol** in every reachable state: no assertion has
failed; a woken thread finds a request exactly if it was not resumed; every
accepted request is executed once, and the requester waits for that; a request
on a thread that is not suspended is refused and changes nothing; and while a
request is pending the thread can go on. -/
theorem suspension_protocol {s : Threads Party Suspension SuspensionPc} (h : Reaches next start s) :
    s.shared.failed = false ∧
    (s.pcs .app = .woken → (s.shared.request.isSome = true ↔ s.shared.suspended = true)) ∧
    (∀ n ∈ s.shared.accepted, s.shared.executed.count n ≤ 1 ∧
      (s.pcs .server ≠ .awaiting n → s.shared.executed.count n = 1)) ∧
    (∀ n ∈ s.shared.executed, n ∈ s.shared.accepted) ∧
    (∀ a s', s.pcs .server = .idle a → s.shared.suspended = false →
      s.step next .server .request = some s' →
      s'.shared = s.shared ∧ s'.pcs .app = s.pcs .app ∧ s'.pcs .server = .idle (some false)) ∧
    (∀ n, s.pcs .server = .awaiting n → s.shared.request = some n →
      ∃ s', s.step next .app .proceed = some s') := by
  have hinv := inv_reaches h
  refine ⟨hinv.not_failed, fun hwoken => ?_, fun n hn => hinv.count_executed hn, fun n hn => ?_,
    fun a s' hidle hs hstep => ?_, fun n hawait hr => ?_⟩
  · rw [hwoken] at hinv
    exact hinv.woken
  · rw [hinv.requests]
    exact List.mem_append_left _ hn
  · rw [hidle] at hinv
    have hr := hinv.request_of_idle
    obtain ⟨sh, pc, hnext, rfl⟩ := step_eq_some hstep
    rw [hidle] at hnext
    have heq : (s.shared, SuspensionPc.idle (some false)) = (sh, pc) := by
      rw [← requestToObjectRepository_of_not_suspended hs hr]
      exact Option.some.inj hnext
    obtain ⟨rfl, rfl⟩ := Prod.mk.inj heq
    exact ⟨rfl, by simp, by simp⟩
  · rcases hinv.app_of_request hr with ⟨happ, hm⟩ | happ
    · exact ⟨⟨s.shared, Function.update s.pcs .app .woken⟩, by
        simp [step, happ, next, hm]⟩
    · exact ⟨⟨s.shared.onWoken.1, Function.update s.pcs .app s.shared.onWoken.2⟩, by
        simp [step, happ, next]⟩

/-- A thread is paused, runs a request and is resumed. -/
def pauseAndRequest : List (Party × SuspensionInput) :=
  [(.server, .command .pause),
    (.app, .callback (.singleStep ⟨"main.abc", 1, 0⟩ false)),
    (.server, .request),
    (.app, .proceed),
    (.app, .proceed),
    (.server, .proceed),
    (.server, .command .continueThread),
    (.app, .proceed),
    (.app, .proceed)]

theorem suspension_protocol_request :
    ∃ s, run next start pauseAndRequest = some s ∧ s.shared.accepted = [0] ∧
      s.shared.failed = false ∧ s.shared.executed.count 0 = 1 := by
  refine ⟨_, rfl, rfl, (suspension_protocol ⟨pauseAndRequest, rfl⟩).1, ?_⟩
  exact ((suspension_protocol ⟨pauseAndRequest, rfl⟩).2.2.1 0 (by decide)).2 (by decide)

end Suspension

end ArkToolchain
