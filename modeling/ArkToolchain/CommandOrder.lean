/-
The commands of the protocol handler: where they are, in which order they are dispatched, and
what the dispatch status says about them.

A nested call of `ProcessCommand` takes commands that are newer than those which an outer call
has taken and not yet dispatched, and dispatches them first.  It also clears
`isDispatchingMessage_` when it is done, although the outer call is not.

Main results: `commands_in_order_iff`, and what the status says (`dispatched_status_sound`).
-/
import ArkToolchain.ProtocolHandler
import Mathlib.Data.List.Range
import Mathlib.Data.List.Perm.Basic
import Mathlib.Data.Fintype.Basic

namespace ArkToolchain

open Command ProtocolHandler

open HandlerThreads

open Threads

variable {Θ : Type*}

/-! ### What a step leaves alone -/

/-- `q'` differs from `q` at most in the flags that a request or a wait sets. -/
structure SameQueue (q q' : ProtocolHandler) : Prop where
  requestQueue : q'.requestQueue = q.requestQueue
  isDispatchingMessage : q'.isDispatchingMessage = q.isDispatchingMessage
  notified : q'.notified = q.notified
  postedTasks : q'.postedTasks = q.postedTasks
  enqueued : q'.enqueued = q.enqueued
  dispatched : q'.dispatched = q.dispatched
  finished : q'.finished = q.finished

variable {q q' : ProtocolHandler}

theorem SameQueue.trans {q'' : ProtocolHandler} (h : SameQueue q q') (h' : SameQueue q' q'') :
    SameQueue q q'' :=
  ⟨h'.1.trans h.1, h'.2.trans h.2, h'.3.trans h.3, h'.4.trans h.4, h'.5.trans h.5, h'.6.trans h.6,
    h'.7.trans h.7⟩

/-- `resume` and the steps. -/
def Request.goesOn : Request → Bool
  | .resume => true
  | .step _ _ => true
  | _ => false

/-- What a request can do. -/
inductive Handled (q : ProtocolHandler) : Request → ProtocolHandler → Prop
  | refused {request : Request} : Handled q request q
  | goOn {request : Request} (hrequest : request.goesOn = true)
      (hpaused : q.debuggerState = .paused) : Handled q request (q.resumed.setState .enabled)
  | drop {params : DropFrameParams} (hpaused : q.debuggerState = .paused) :
      Handled q (.dropFrame params) (q.runIfWaitingForDebugger.setState .enabled)
  | enable : Handled q .enable q.enable
  | disable : Handled q .disable q.disable
  | release : Handled q .runIfWaitingForDebugger q.runIfWaitingForDebugger
  | reply : Handled q .replyNativeCalling q.resumed

namespace ProtocolHandler

variable (q : ProtocolHandler) (request : Request)

theorem handled_handle : Handled q request (q.handle request).2 := by
  fun_cases handle q request
  case case2 hpaused | case5 hpaused _ => exact .goOn rfl (not_not.mp hpaused)
  case case8 hpaused _ => exact .drop (not_not.mp hpaused)
  case case9 => exact .enable
  case case10 => exact .disable
  case case11 => exact .release
  case case12 => exact .reply
  all_goals exact .refused

theorem sameQueue_resumed : SameQueue q q.resumed := by
  unfold resumed
  split_ifs <;> constructor <;> rfl

theorem sameQueue_setState (state : DebuggerState) : SameQueue q (q.setState state) := by
  constructor <;> rfl

variable {q} in
theorem sameQueue_of_handled {request : Request} (h : Handled q request q') : SameQueue q q' := by
  cases h with
  | refused | drop hpaused | enable | release => constructor <;> rfl
  | goOn hrequest hpaused => exact q.sameQueue_resumed.trans (sameQueue_setState _ _)
  | disable =>
    have h := q.runIfWaitingForDebugger.sameQueue_resumed
    exact ⟨h.1, h.2, h.3, h.4, h.5, h.6, h.7⟩
  | reply => exact q.sameQueue_resumed

theorem sameQueue_handle : SameQueue q (q.handle request).2 :=
  sameQueue_of_handled (q.handled_handle request)

theorem sameQueue_enterWait (kind : WaitKind) : SameQueue q (q.enterWait kind) := by
  cases kind <;> constructor <;> rfl

theorem sameQueue_leaveWait (wait : Option WaitKind) : SameQueue q (q.leaveWait wait) := by
  unfold leaveWait
  split <;> constructor <;> rfl

variable (command : Command)

@[simp] theorem requestQueue_dispatch : (q.dispatch command).requestQueue = q.requestQueue :=
  (q.sameQueue_handle _).requestQueue

@[simp] theorem enqueued_dispatch : (q.dispatch command).enqueued = q.enqueued :=
  (q.sameQueue_handle _).enqueued

@[simp] theorem dispatched_dispatch :
    (q.dispatch command).dispatched = q.dispatched ++ [command.number] := rfl

@[simp] theorem finished_dispatch : (q.dispatch command).finished = q.finished :=
  (q.sameQueue_handle _).finished

end ProtocolHandler

/-! ### Calls and handlers alternate -/

/-- A handler runs in the loop of the call that dispatched its command, and
`ProcessCommand` is called by script. -/
inductive Nested : List JsCall → Prop
  | nil : Nested []
  | handler {command : Command} {wait : Option WaitKind} {queue : List Command}
      {calls : List JsCall} (h : Nested (.processCommand wait (.dispatching queue) :: calls)) :
      Nested (.handler command :: .processCommand wait (.dispatching queue) :: calls)
  | processCommand {wait : Option WaitKind} {pc : ProcessPc} {calls : List JsCall}
      (h : Nested calls) (hscript : runsScript calls = true) :
      Nested (.processCommand wait pc :: calls)

variable {calls : List JsCall}

theorem Nested.setPc {wait : Option WaitKind} {pc pc' : ProcessPc}
    (h : Nested (.processCommand wait pc :: calls)) :
    Nested (.processCommand wait pc' :: calls) := by
  cases h with
  | processCommand h hscript => exact .processCommand h hscript

variable {i : HandlerInput} {calls' : List JsCall}

theorem Nested.step (h : Nested calls) (hstep : JsStep q calls i q' calls') : Nested calls' := by
  cases hstep with
  | wait kind hscript | handleCommands hscript => exact .processCommand h hscript
  | pauseUnseen hscript hmode | callUnseen hscript => exact h
  | runTask htasks => exact .processCommand .nil rfl
  | finish command =>
    cases h with
    | handler h => exact h
  | block hqueue hwaiting | take hpc | beginBatch queue | endBatch => exact h.setPc
  | leave hqueue hwaiting =>
    cases h with
    | processCommand h hscript => exact h
  | dispatch command queue => exact .handler h.setPc

/-! ### Every command is in one place -/

/-- **Commands move in order**: a step keeps the commands that wait, those that
have been taken first, or dispatches the next command of the innermost call. -/
theorem JsStep.moves (h : JsStep q calls i q' calls') :
    (q'.dispatched = q.dispatched ∧ q'.enqueued = q.enqueued ∧
      pendingOf calls' ++ q'.requestQueue = pendingOf calls ++ q.requestQueue) ∨
    ∃ wait command queue rest,
      calls = .processCommand wait (.dispatching (command :: queue)) :: rest ∧
      q' = q.dispatch command ∧
      calls' = .handler command :: .processCommand wait (.dispatching queue) :: rest := by
  cases h with
  | wait kind hscript =>
    have hsame := q.sameQueue_enterWait kind
    refine .inl ⟨hsame.dispatched, hsame.enqueued, ?_⟩
    rw [hsame.requestQueue]
    simp [pendingOf, JsCall.pending]
  | pauseUnseen hscript hmode | callUnseen hscript | runTask htasks | block hqueue hwaiting
  | beginBatch queue | endBatch => exact .inl ⟨rfl, rfl, rfl⟩
  | handleCommands hscript => exact .inl ⟨rfl, rfl, by simp [pendingOf, JsCall.pending]⟩
  | finish command =>
    exact .inl ⟨rfl, rfl, by simp [pendingOf, JsCall.pending, ProtocolHandler.finish]⟩
  | @leave _ wait hqueue hwaiting =>
    have hsame := q.sameQueue_leaveWait wait
    refine .inl ⟨hsame.dispatched, hsame.enqueued, ?_⟩
    rw [hsame.requestQueue]
    simp [pendingOf, JsCall.pending]
  | take hpc =>
    -- the queue goes behind everything that has been taken before
    refine .inl ⟨rfl, rfl, ?_⟩
    rcases hpc with ⟨rfl, -⟩ | ⟨rfl, -⟩
    all_goals
      simp [pendingOf, JsCall.pending, ProtocolHandler.take]
  | dispatch command queue => exact .inr ⟨_, command, queue, _, rfl, rfl, rfl⟩

variable {pc : ProducerPc}

theorem ProducerStep.moves {debuggerPostTask : Bool} {pc' : ProducerPc}
    (h : ProducerStep debuggerPostTask q pc i q' pc') :
    q'.dispatched = q.dispatched ∧ q'.finished = q.finished ∧
      (q'.enqueued = q.enqueued ∧ q'.requestQueue = q.requestQueue ∨
        ∃ request, q'.enqueued = q.enqueued + 1 ∧
          q'.requestQueue = q.requestQueue ++ [{ number := q.enqueued, request := request }]) := by
  cases h with
  | enqueue request => exact ⟨rfl, rfl, .inr ⟨request, rfl, rfl⟩⟩
  | _ => exact ⟨rfl, rfl, .inl ⟨rfl, rfl⟩⟩

theorem ProducerStep.isDispatchingMessage_eq {debuggerPostTask : Bool} {pc' : ProducerPc}
    (h : ProducerStep debuggerPostTask q pc i q' pc') :
    q'.isDispatchingMessage = q.isDispatchingMessage := by
  cases h <;> rfl

/-- A command that has been enqueued has begun to be dispatched, has been taken,
or is in the queue; one that has begun has ended, or is being handled. -/
structure Recorded (q : ProtocolHandler) (calls : List JsCall) : Prop where
  once : (q.dispatched ++ (pendingOf calls ++ q.requestQueue).map number).Perm
    (List.range q.enqueued)
  begun : (q.finished ++ (handledOf calls).map number).Perm q.dispatched

namespace Recorded

variable {q q' : ProtocolHandler} {calls calls' : List JsCall} {i : HandlerInput}

theorem once_step
    (h : (q.dispatched ++ (pendingOf calls ++ q.requestQueue).map number).Perm
      (List.range q.enqueued))
    (hstep : JsStep q calls i q' calls') :
    (q'.dispatched ++ (pendingOf calls' ++ q'.requestQueue).map number).Perm
      (List.range q'.enqueued) := by
  rcases hstep.moves with
    ⟨hdispatched, henqueued, hwaiting⟩ | ⟨_, command, queue, rest, rfl, rfl, rfl⟩
  · rw [hdispatched, henqueued, hwaiting]
    exact h
  · simp only [pendingOf, JsCall.pending, List.append_nil, dispatched_dispatch,
      requestQueue_dispatch, enqueued_dispatch, List.map_append,
      List.map_cons, List.append_assoc, List.cons_append, List.nil_append] at h ⊢
    exact (List.perm_middle.symm.append_left _).trans h

theorem begun_step (h : (q.finished ++ (handledOf calls).map number).Perm q.dispatched)
    (hstep : JsStep q calls i q' calls') :
    (q'.finished ++ (handledOf calls').map number).Perm q'.dispatched := by
  cases hstep with
  | wait kind hscript =>
    have hsame := q.sameQueue_enterWait kind
    rw [hsame.finished, hsame.dispatched]
    exact h
  | @leave _ wait hqueue hwaiting =>
    have hsame := q.sameQueue_leaveWait wait
    rw [hsame.finished, hsame.dispatched]
    exact h
  | finish command =>
    show ((q.finished ++ [command.number]) ++ _).Perm q.dispatched
    rw [List.append_assoc]
    exact h
  | dispatch command queue =>
    simp only [handledOf, List.map_cons, finished_dispatch, dispatched_dispatch]
    exact List.perm_middle.trans ((h.cons _).trans (List.perm_append_singleton _ _).symm)
  | _ => exact h

theorem producerStep {debuggerPostTask : Bool} {pc pc' : ProducerPc} (h : Recorded q calls)
    (hstep : ProducerStep debuggerPostTask q pc i q' pc') : Recorded q' calls := by
  obtain ⟨hdispatched, hfinished, ⟨henqueued, hqueue⟩ | ⟨request, henqueued, hqueue⟩⟩ := hstep.moves
  · refine ⟨?_, ?_⟩
    · rw [hdispatched, henqueued, hqueue]
      exact h.once
    · rw [hdispatched, hfinished]
      exact h.begun
  · refine ⟨?_, ?_⟩
    · rw [hdispatched, henqueued, hqueue, List.range_succ, ← List.append_assoc (pendingOf calls),
        List.map_append, ← List.append_assoc]
      exact h.once.append_right _
    · rw [hdispatched, hfinished]
      exact h.begun

variable [DecidableEq Θ] {debuggerPostTask : Bool} {s s' : HandlerThreads Θ} {t : HandlerThread Θ}

/-- **Every command stays in one place.** -/
theorem step (h : Recorded s.shared s.calls) (hstep : HandlerStep debuggerPostTask s s' t i) :
    Recorded s'.shared s'.calls := by
  cases hstep with
  | producer u pc hstep hcalls hpcs =>
    rw [hcalls]
    exact h.producerStep hstep
  | js hstep hpcs => exact ⟨once_step h.once hstep, begun_step h.begun hstep⟩
  | system hshared hcalls hpcs =>
    rw [hshared, hcalls]
    exact ⟨h.once, h.begun⟩

omit [DecidableEq Θ] in
theorem init (debugMode : Bool) : Recorded (init Θ debugMode).shared (init Θ debugMode).calls :=
  ⟨.refl _, .refl _⟩

/-- A command that has been enqueued and has not ended is in the queue, or the JS
thread has it. -/
theorem mem_of_lt (h : Recorded q calls) {k : Nat} (hk : k < q.enqueued) :
    k ∈ q.finished ∨ k ∈ (handledOf calls).map number ∨
      k ∈ (pendingOf calls).map number ∨ k ∈ q.requestQueue.map number := by
  have hmem := h.once.mem_iff.mpr (List.mem_range.mpr hk)
  rw [List.map_append, List.mem_append, List.mem_append, ← h.begun.mem_iff, List.mem_append] at hmem
  rcases hmem with (hfinished | hhandled) | hpending | hqueue
  · exact .inl hfinished
  · exact .inr (.inl hhandled)
  · exact .inr (.inr (.inl hpending))
  · exact .inr (.inr (.inr hqueue))

end Recorded

/-! ### The order of dispatching -/

/-- If the innermost call is about to dispatch a command, no outer call has
commands left. -/
def MayDispatch : List JsCall → Prop
  | .processCommand _ (.dispatching (_ :: _)) :: calls => pendingOf calls = []
  | _ => True

/-- The `k`-th command to begin is the `k`-th command. -/
def BegunInOrder (q : ProtocolHandler) : Prop :=
  q.dispatched <+: List.range q.enqueued

instance decidableBegunInOrder (q : ProtocolHandler) : Decidable (BegunInOrder q) :=
  inferInstanceAs (Decidable (q.dispatched <+: List.range q.enqueued))

/-- Then all commands are in order: those that have begun, those that have been
taken, the outermost call first, and those in the queue. -/
def InOrder (q : ProtocolHandler) (calls : List JsCall) : Prop :=
  q.dispatched ++ (pendingOf calls ++ q.requestQueue).map number = List.range q.enqueued

theorem InOrder.begunInOrder (h : InOrder q calls) : BegunInOrder q :=
  ⟨_, h⟩

section Order

variable {q q' : ProtocolHandler} {calls calls' : List JsCall} {i : HandlerInput}

theorem InOrder.step (h : InOrder q calls) (hstep : JsStep q calls i q' calls')
    (hmay : MayDispatch calls) : InOrder q' calls' := by
  unfold InOrder at h ⊢
  rcases hstep.moves with
    ⟨hdispatched, henqueued, hwaiting⟩ | ⟨_, command, queue, rest, rfl, rfl, rfl⟩
  · rw [hdispatched, henqueued, hwaiting]
    exact h
  · have hrest : pendingOf rest = [] := hmay
    simpa [pendingOf, JsCall.pending, hrest] using h

theorem exists_of_not_mayDispatch (h : ¬ MayDispatch calls) :
    ∃ wait command queue rest,
      calls = .processCommand wait (.dispatching (command :: queue)) :: rest ∧
      pendingOf rest ≠ [] := by
  unfold MayDispatch at h
  split at h
  · exact ⟨_, _, _, _, rfl, h⟩
  · exact absurd trivial h

/-- A nested call that does not wait for the outer ones takes the place of an
older command. -/
theorem InOrder.not_begunInOrder (h : InOrder q calls) (hstep : JsStep q calls i q' calls')
    (hmay : ¬ MayDispatch calls) : ¬ BegunInOrder q' := by
  obtain ⟨wait, command, queue, rest, rfl, hrest⟩ := exists_of_not_mayDispatch hmay
  obtain ⟨older, others, holder⟩ := List.exists_cons_of_ne_nil hrest
  cases hstep with
  | wait kind hscript | pauseUnseen hscript hmode | callUnseen hscript
  | handleCommands hscript => cases hscript
  | take hpc => rcases hpc with ⟨hpc, -⟩ | ⟨hpc, -⟩ <;> cases hpc
  | dispatch =>
    intro hbegun
    have hnodup := List.nodup_range (n := q.enqueued)
    unfold BegunInOrder at hbegun
    rw [enqueued_dispatch, dispatched_dispatch, ← h, List.prefix_append_right_inj] at hbegun
    rw [← h] at hnodup
    simp only [pendingOf, JsCall.pending, holder, List.cons_append, List.map_cons] at hbegun hnodup
    -- the older command would have to be the one that has begun
    have heq : command.number = older.number := (List.cons_prefix_cons.mp hbegun).1
    have hnotMem := (List.nodup_cons.mp (List.nodup_append.mp hnodup).2.1).1
    exact hnotMem (by simp [heq])

end Order

section Runs

variable [DecidableEq Θ] {debuggerPostTask : Bool} {s s' : HandlerThreads Θ} {t : HandlerThread Θ}
  {i : HandlerInput}

theorem InOrder.producerStep {q q' : ProtocolHandler} {pc pc' : ProducerPc} (h : InOrder q calls)
    (hstep : ProducerStep debuggerPostTask q pc i q' pc') : InOrder q' calls := by
  unfold InOrder at h ⊢
  obtain ⟨hdispatched, -, ⟨henqueued, hqueue⟩ | ⟨request, henqueued, hqueue⟩⟩ := hstep.moves
  · rw [hdispatched, henqueued, hqueue]
    exact h
  · rw [hdispatched, henqueued, hqueue, List.range_succ, ← h, ← List.append_assoc (pendingOf calls),
      List.map_append, ← List.append_assoc]
    rfl

omit [DecidableEq Θ] in
theorem InOrder.init (debugMode : Bool) :
    InOrder (init Θ debugMode).shared (init Θ debugMode).calls :=
  rfl

/-- Steps of the JS thread wait for the outer calls. -/
def WaitsForOuterCalls (s : HandlerThreads Θ) (t : HandlerThread Θ) (_ : HandlerInput) : Prop :=
  t = .js → MayDispatch s.calls

/-- **Commands are dispatched once, and in order if nested calls wait**: in every
run each command has begun to be dispatched once, or waits to be; and the
commands begin in the order in which they were enqueued, throughout the run,
exactly if no nested call dispatches a command while an outer call has commands
left. -/
theorem commands_in_order_iff (debugMode : Bool)
    (schedule : List (HandlerThread Θ × HandlerInput)) :
    Always (handlerNext debuggerPostTask)
        (fun s : HandlerThreads Θ => (s.shared.dispatched ++
          (pendingOf s.calls ++ s.shared.requestQueue).map number).Perm
            (List.range s.shared.enqueued))
        (init Θ debugMode) schedule ∧
      (Always (handlerNext debuggerPostTask) (fun s => BegunInOrder s.shared)
          (init Θ debugMode) schedule ↔
        EachStep (handlerNext debuggerPostTask) WaitsForOuterCalls
          (init Θ debugMode) schedule) := by
  constructor
  · exact always_of_invariant
      (I := fun s : HandlerThreads Θ => Recorded s.shared s.calls) (fun s h => h.once)
      (fun s t i s' h hstep => h.step (.of_step hstep)) (Recorded.init debugMode) schedule
  · refine always_iff_eachStep (I := fun s : HandlerThreads Θ => InOrder s.shared s.calls)
      (fun s h => h.begunInOrder) ?_ ?_ (InOrder.init debugMode) schedule
    · intro s t i s' h hstep hmay
      cases HandlerStep.of_step hstep with
      | producer u pc hstep hcalls hpcs =>
        rw [hcalls]
        exact h.producerStep hstep
      | js hstep hpcs => exact h.step hstep (hmay rfl)
      | system hshared hcalls hpcs =>
        rw [hshared, hcalls]
        exact h
    · intro s t i s' h hstep hmay
      cases HandlerStep.of_step hstep with
      | producer u pc hstep hcalls hpcs | system hshared hcalls hpcs =>
        exact absurd (fun ht => nomatch ht) hmay
      | js hstep hpcs => exact h.not_begunInOrder hstep fun h' => hmay fun _ => h'

end Runs

/-- The handler of the first of two commands pauses, and a third command comes. -/
def resumedInside : List (HandlerThread Unit × HandlerInput) :=
  [(.js, .notifyPaused),
   (.producer (), .onMessage .evaluate), (.producer (), .goOn), (.producer (), .goOn),
   (.producer (), .onMessage .evaluate), (.producer (), .goOn), (.producer (), .goOn),
   (.js, .goOn), (.js, .goOn), (.js, .goOn), (.js, .notifyPaused),
   (.producer (), .onMessage .resume), (.producer (), .goOn),
   (.js, .goOn), (.js, .goOn), (.js, .goOn)]

/-- A command that is overtaken: the third one begins before the second one. -/
theorem command_overtaken :
    ∃ s, (init Unit true).run (handlerNext true) resumedInside = some s ∧
      s.shared.dispatched = [0, 2] ∧ ¬ BegunInOrder s.shared := by
  exact ⟨_, rfl, rfl, by decide⟩

/-! ### The dispatch status -/

/-- The innermost call is about to swap the queues. -/
def swaps (q : ProtocolHandler) : List JsCall → Bool
  | .processCommand _ .check :: _ => !q.requestQueue.isEmpty
  | .processCommand _ .blocked :: _ => q.notified
  | _ => false

/-- It has swapped them, and comes to the flag next. -/
def swapped : List JsCall → Bool
  | .processCommand _ (.taken _) :: _ => true
  | _ => false

namespace ProducerPc

/-- `GetDispatchStatus` looks at the flag next. -/
def readsFlag : ProducerPc → Bool
  | .readDispatching _ _ => true
  | _ => false

/-- `GetDispatchStatus` has found a flag down. -/
def hasReadFlag : ProducerPc → Bool
  | .readWaiting _ _ => true
  | .readQueue _ _ => true
  | _ => false

end ProducerPc

/-- A poll does not look at the flag between the swap of the queues and the flag; a call in a
handler does not swap them; and commands are not taken between the reads of a poll. -/
def PollsApart (s : HandlerThreads Θ) : HandlerThread Θ → HandlerInput → Prop
  | .producer t, _ => (s.producerPc t).readsFlag = true → swapped s.calls = false
  | .js, _ => swaps s.shared s.calls = true → handledOf s.calls = [] ∧
      (s.shared.requestQueue ≠ [] → ∀ t, (s.producerPc t).hasReadFlag = false)
  | .system, _ => True

instance decidablePollsApart [Fintype Θ] (s : HandlerThreads Θ) :
    ∀ t i, Decidable (PollsApart s t i)
  | .producer _, _ => inferInstanceAs (Decidable (_ → _))
  | .js, _ => inferInstanceAs (Decidable (_ → _ ∧ (_ → ∀ _, _)))
  | .system, _ => isTrue trivial

/-- If `GetDispatchStatus` returns `DISPATCHED` now, all commands from before the
poll have been dispatched. -/
def TellsTruth (q : ProtocolHandler) : ProducerPc → Prop
  | .readQueue _ before => q.requestQueue = [] → ∀ k < before, k ∈ q.finished
  | _ => True

/-- The thread that moves does not get a wrong status. -/
def AnswersSoundly (s : HandlerThreads Θ) : HandlerThread Θ → HandlerInput → Prop
  | .producer t, _ => TellsTruth s.shared (s.producerPc t)
  | .js, _ => True
  | .system, _ => True

/-- What a poll has seen: once it has found the flag down, the commands from
before it have been dispatched, or are in the queue. -/
def HasSeen (q : ProtocolHandler) : ProducerPc → Prop
  | .readDispatching _ before => before ≤ q.enqueued
  | .readWaiting _ before =>
    ∀ k < before, k ∈ q.finished ∨ k ∈ q.requestQueue.map number
  | .readQueue _ before =>
    ∀ k < before, k ∈ q.finished ∨ k ∈ q.requestQueue.map number
  | _ => True

theorem HasSeen.tellsTruth (h : HasSeen q pc) : TellsTruth q pc := by
  cases pc with
  | readQueue poll before =>
    intro hqueue k hk
    simpa [hqueue] using h k hk
  | _ => trivial

theorem HasSeen.mono (h : HasSeen q pc) (henqueued : q.enqueued ≤ q'.enqueued)
    (hfinished : q.finished ⊆ q'.finished)
    (hqueue : pc.hasReadFlag = true → q.requestQueue ⊆ q'.requestQueue) : HasSeen q' pc := by
  have hkeep : ∀ before, pc.hasReadFlag = true →
      (∀ k < before, k ∈ q.finished ∨ k ∈ q.requestQueue.map number) →
      ∀ k < before, k ∈ q'.finished ∨ k ∈ q'.requestQueue.map number := by
    intro before hread hseen k hk
    exact (hseen k hk).imp (fun hmem => hfinished hmem)
      fun hmem => List.map_subset _ (hqueue hread) hmem
  cases pc with
  | idle | post => trivial
  | readDispatching poll before => exact Nat.le_trans h henqueued
  | readWaiting poll before | readQueue poll before => exact hkeep before rfl h

theorem JsStep.keeps (h : JsStep q calls i q' calls') :
    q'.enqueued = q.enqueued ∧ q.finished ⊆ q'.finished ∧
      ((swaps q calls = true → q.requestQueue = []) → q'.requestQueue = q.requestQueue) := by
  cases h with
  | wait kind hscript =>
    have hsame := q.sameQueue_enterWait kind
    exact ⟨hsame.enqueued, hsame.finished ▸ List.Subset.refl _, fun _ => hsame.requestQueue⟩
  | @leave _ wait hqueue hwaiting =>
    have hsame := q.sameQueue_leaveWait wait
    exact ⟨hsame.enqueued, hsame.finished ▸ List.Subset.refl _, fun _ => hsame.requestQueue⟩
  | finish command => exact ⟨rfl, List.subset_append_left _ _, fun _ => rfl⟩
  | take hpc =>
    refine ⟨rfl, List.Subset.refl _, fun hempty => (hempty ?_).symm⟩
    rcases hpc with ⟨rfl, hqueue⟩ | ⟨rfl, hnotified⟩
    · simpa [swaps] using hqueue
    · exact hnotified
  | dispatch command queue =>
    refine ⟨q.enqueued_dispatch command, ?_, fun _ => q.requestQueue_dispatch command⟩
    rw [q.finished_dispatch command]
    exact List.Subset.refl _
  | _ => exact ⟨rfl, List.Subset.refl _, fun _ => rfl⟩

/-- **The flag**: as long as calls in handlers do not swap the queues, it is up whenever the JS
thread has commands, but for the moment after a swap. -/
inductive FlagInv (q : ProtocolHandler) : List JsCall → Prop
  | nil : FlagInv q []
  | looks {wait : Option WaitKind} {pc : ProcessPc} (hpc : pc = .check ∨ pc = .blocked) :
      FlagInv q [.processCommand wait pc]
  | taken {wait : Option WaitKind} {queue : List Command} :
      FlagInv q [.processCommand wait (.taken queue)]
  | dispatching {wait : Option WaitKind} {queue : List Command}
      (hflag : q.isDispatchingMessage = true) :
      FlagInv q [.processCommand wait (.dispatching queue)]
  | handler {command : Command} {wait : Option WaitKind} {queue : List Command}
      (hflag : q.isDispatchingMessage = true) :
      FlagInv q [.handler command, .processCommand wait (.dispatching queue)]
  | nested {wait' wait : Option WaitKind} {pc : ProcessPc} {command : Command}
      {queue : List Command} (hpc : pc = .check ∨ pc = .blocked)
      (hflag : q.isDispatchingMessage = true) :
      FlagInv q [.processCommand wait' pc, .handler command,
        .processCommand wait (.dispatching queue)]

namespace FlagInv

theorem congr (h : FlagInv q calls) (hflag : q'.isDispatchingMessage = q.isDispatchingMessage) :
    FlagInv q' calls := by
  cases h with
  | nil => exact .nil
  | looks hpc => exact .looks hpc
  | taken => exact .taken
  | dispatching h => exact .dispatching (hflag.trans h)
  | handler h => exact .handler (hflag.trans h)
  | nested hpc h => exact .nested hpc (hflag.trans h)

theorem call (h : FlagInv q calls) (hscript : runsScript calls = true)
    (wait : Option WaitKind) : FlagInv q (.processCommand wait .check :: calls) := by
  cases h with
  | nil => exact .looks (.inl rfl)
  | handler hflag => exact .nested (.inl rfl) hflag
  | _ => cases hscript

theorem step (h : FlagInv q calls) (hstep : JsStep q calls i q' calls')
    (hswaps : swaps q calls = true → handledOf calls = []) : FlagInv q' calls' := by
  cases hstep with
  | wait kind hscript =>
    exact (h.call hscript _).congr (q.sameQueue_enterWait kind).isDispatchingMessage
  | handleCommands hscript => exact h.call hscript _
  | pauseUnseen | callUnseen => exact h.congr rfl
  | runTask => exact .looks (.inl rfl)
  | finish =>
    cases h with
    | handler hflag => exact .dispatching hflag
  | block =>
    cases h with
    | looks => exact .looks (.inr rfl)
    | nested _ hflag => exact .nested (.inr rfl) hflag
  | @leave _ wait =>
    have hsame := (q.sameQueue_leaveWait wait).isDispatchingMessage
    cases h with
    | looks => exact .nil
    | nested _ hflag => exact .handler (hsame.trans hflag)
  | take hpc =>
    have hnone := hswaps (by
      rcases hpc with ⟨rfl, hqueue⟩ | ⟨rfl, hnotified⟩
      · simpa [swaps] using hqueue
      · exact hnotified)
    cases h with
    | looks => exact .taken
    | nested => cases hnone
    | _ => simp at hpc
  | beginBatch =>
    cases h with
    | taken => exact .dispatching rfl
    | _ => simp_all
  | endBatch =>
    cases h with
    | dispatching => exact .looks (.inl rfl)
    | _ => simp_all
  | dispatch command =>
    have hsame := (q.sameQueue_handle command.request).isDispatchingMessage
    cases h with
    | dispatching hflag => exact .handler (hsame.trans hflag)
    | _ => simp_all

/-- With the flag down the JS thread has no commands. -/
theorem none_held (h : FlagInv q calls) (hflag : q.isDispatchingMessage = false)
    (hswapped : swapped calls = false) : pendingOf calls = [] ∧ handledOf calls = [] := by
  cases h with
  | nil => exact ⟨rfl, rfl⟩
  | looks hpc =>
    obtain rfl | rfl := hpc
    all_goals exact ⟨rfl, rfl⟩
  | taken => cases hswapped
  | dispatching h | handler h | nested _ h => cases h.symm.trans hflag

end FlagInv

section Status

variable [DecidableEq Θ] {debuggerPostTask : Bool} {s s' : HandlerThreads Θ} {t : HandlerThread Θ}
  {i : HandlerInput}

/-- The record of the commands, the flag, and what every poll has seen. -/
structure PollInv (s : HandlerThreads Θ) : Prop where
  recorded : Recorded s.shared s.calls
  flag : FlagInv s.shared s.calls
  seen : ∀ t, HasSeen s.shared (s.producerPc t)

theorem HasSeen.producerStep {q q' : ProtocolHandler} {pc pc' : ProducerPc} (h : HasSeen q pc)
    (hrecorded : Recorded q calls) (hinv : FlagInv q calls)
    (hstep : ProducerStep debuggerPostTask q pc i q' pc')
    (hapart : pc.readsFlag = true → swapped calls = false) : HasSeen q' pc' := by
  cases hstep with
  | enqueue request | poll | pollAgain hqueue => exact Nat.le_refl _
  | @notDispatching poll before hflag =>
    intro k hk
    obtain ⟨hpending, hhandled⟩ := hinv.none_held hflag (hapart rfl)
    simpa [hpending, hhandled] using hrecorded.mem_of_lt (Nat.lt_of_lt_of_le hk h)
  | notWaiting hflag => exact h
  | _ => trivial

theorem PollInv.step (h : PollInv s) (hstep : HandlerStep debuggerPostTask s s' t i)
    (hapart : PollsApart s t i) : PollInv s' := by
  have hrecorded := h.recorded.step hstep
  cases hstep with
  | producer u pc hstep hcalls hpcs =>
    obtain ⟨-, hfinished, hmove⟩ := hstep.moves
    refine ⟨hrecorded, hcalls ▸ h.flag.congr hstep.isDispatchingMessage_eq, ?_⟩
    rw [hpcs]
    refine (Function.forall_update_iff s.producerPc fun _ pc => HasSeen s'.shared pc).mpr
      ⟨?_, fun v _ => ?_⟩
    · exact (h.seen u).producerStep h.recorded h.flag hstep hapart
    · refine (h.seen v).mono ?_ (hfinished ▸ List.Subset.refl _) fun _ => ?_
      · rcases hmove with ⟨henqueued, -⟩ | ⟨request, henqueued, -⟩ <;> omega
      · rcases hmove with ⟨-, hqueue⟩ | ⟨request, -, hqueue⟩
        · rw [hqueue]
          exact List.Subset.refl _
        · rw [hqueue]
          exact List.subset_append_left _ _
  | js hstep hpcs =>
    obtain ⟨henqueued, hfinished, hqueue⟩ := hstep.keeps
    refine ⟨hrecorded, h.flag.step hstep fun hswaps => (hapart hswaps).1, fun v => ?_⟩
    rw [hpcs]
    refine (h.seen v).mono (Nat.le_of_eq henqueued.symm) hfinished fun hread => ?_
    -- a poll between its reads keeps the JS thread from taking commands
    rw [hqueue]
    · exact List.Subset.refl _
    · intro hswaps
      by_contra hqueue
      cases hread.symm.trans ((hapart hswaps).2 hqueue v)
  | system hshared hcalls hpcs =>
    refine ⟨hrecorded, hcalls ▸ h.flag.congr (by rw [hshared]; rfl), fun v => ?_⟩
    rw [hpcs, hshared]
    exact (h.seen v).mono (Nat.le_refl _) (List.Subset.refl _) fun _ => List.Subset.refl _

omit [DecidableEq Θ] in
theorem PollInv.answersSoundly (h : PollInv s) (t : HandlerThread Θ) (i : HandlerInput) :
    AnswersSoundly s t i := by
  cases t with
  | producer u => exact (h.seen u).tellsTruth
  | js | system => trivial

/-- **The status `DISPATCHED` is true** in every run in which no call in a handler swaps the
queues, no poll comes between a swap and the flag, and no commands are taken between the reads
of a poll. -/
theorem dispatched_status_sound (debugMode : Bool)
    (schedule : List (HandlerThread Θ × HandlerInput))
    (h : EachStep (handlerNext debuggerPostTask) PollsApart (init Θ debugMode) schedule) :
    EachStep (handlerNext debuggerPostTask) AnswersSoundly (init Θ debugMode) schedule :=
  h.imp (I := PollInv)
    (fun _ t i _ hinv hstep hapart => ⟨hinv.answersSoundly t i, hinv.step (.of_step hstep) hapart⟩)
    ⟨Recorded.init debugMode, .nil, fun _ => trivial⟩

end Status

/-- A poll after a command has been dispatched at a point where commands are
processed. -/
def polledAfterwards : List (HandlerThread Unit × HandlerInput) :=
  [(.producer (), .onMessage .enable), (.js, .notifyHandleProtocolCommand), (.js, .goOn),
   (.js, .goOn), (.js, .goOn), (.js, .goOn), (.js, .goOn),
   (.producer (), .goOn), (.producer (), .goOn), (.producer (), .goOn)]

theorem dispatched_status_sound_polledAfterwards :
    (init Unit false).run (handlerNext true) polledAfterwards ≠ none ∧
      EachStep (handlerNext true) AnswersSoundly (init Unit false) polledAfterwards :=
  ⟨nofun, dispatched_status_sound false polledAfterwards (by decide)⟩

/-- A poll after a nested call has put the flag down. -/
def polledTooEarly : List (HandlerThread Unit × HandlerInput) :=
  [(.js, .notifyPaused),
   (.producer (), .onMessage .evaluate), (.producer (), .goOn), (.producer (), .goOn),
   (.js, .goOn), (.js, .goOn), (.js, .goOn), (.js, .notifyPaused),
   (.producer (), .onMessage .resume), (.producer (), .goOn),
   (.js, .goOn), (.js, .goOn), (.js, .goOn), (.js, .goOn), (.js, .goOn), (.js, .goOn),
   (.producer (), .getDispatchStatus), (.producer (), .goOn), (.producer (), .goOn)]

/-- The status says `DISPATCHED` although the first command is being handled. -/
theorem dispatched_status_too_early :
    ∃ s : HandlerThreads Unit,
      (init Unit true).run (handlerNext true) polledTooEarly = some s ∧
      s.producerPc () = .readQueue .alone 2 ∧ s.shared.requestQueue = [] ∧
      0 ∉ s.shared.finished ∧ ¬ AnswersSoundly s (.producer ()) .goOn := by
  refine ⟨_, rfl, rfl, rfl, by decide, ?_⟩
  intro hsound
  exact absurd (hsound rfl 0 (by decide)) (by decide)

end ArkToolchain
