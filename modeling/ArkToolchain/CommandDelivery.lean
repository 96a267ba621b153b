/-
No command is lost.

`Inspector::OnMessage` enqueues a command, asks twice whether the JS thread will see it, and
posts a task if not.  A command that waits in the queue has somebody who will see to it
(`DeliveryInv.responsible`): a call of `ProcessCommand`, which looks at the queue before it
returns, a task, or a producer that is still in `OnMessage`.

Runs are infinite: the threads are fair, handlers return and posted tasks are run.

Main results: `queue_attended` in every state, and from it `commands_delivered` for fair runs.
-/
import ArkToolchain.CommandOrder

namespace ArkToolchain

open ProtocolHandler HandlerThreads

open Threads InfiniteRun

variable {Θ : Type*}

/-! ### Who will see to the queue -/

/-- In `OnMessage`, after the command has been enqueued. -/
def ProducerPc.inOnMessage : ProducerPc → Bool
  | .idle => false
  | .readDispatching poll _ => poll ≠ .alone
  | .readWaiting poll _ => poll ≠ .alone
  | .readQueue poll _ => poll ≠ .alone
  | .post => true

structure DeliveryInv (s : HandlerThreads Θ) : Prop where
  recorded : Recorded s.shared s.calls
  nested : Nested s.calls
  dispatching : s.shared.isDispatchingMessage = true →
    ∃ wait queue, .processCommand wait (.dispatching queue) ∈ s.calls
  waiting : s.shared.waitingForDebugger = true → s.calls ≠ []
  notified : ∀ wait calls, s.calls = .processCommand wait .blocked :: calls →
    s.shared.requestQueue ≠ [] → s.shared.notified = true
  responsible : s.shared.requestQueue ≠ [] →
    s.calls ≠ [] ∨ 0 < s.shared.postedTasks ∨ ∃ t, (s.producerPc t).inOnMessage = true

section Calls

variable {q q' : ProtocolHandler} {calls calls' : List JsCall} {i : HandlerInput}

theorem Nested.ne_nil_of_handler {command : Command}
    (h : Nested (.handler command :: calls)) : calls ≠ [] := by
  cases h with
  | handler h => simp

theorem JsStep.dispatching_mem
    (h : q.isDispatchingMessage = true →
      ∃ wait queue, .processCommand wait (.dispatching queue) ∈ calls)
    (hstep : JsStep q calls i q' calls') (hflag : q'.isDispatchingMessage = true) :
    ∃ wait queue, .processCommand wait (.dispatching queue) ∈ calls' := by
  cases hstep with
  | wait kind hscript =>
    rw [(q.sameQueue_enterWait kind).isDispatchingMessage] at hflag
    simpa using h hflag
  | pauseUnseen hscript hmode | callUnseen hscript | handleCommands hscript | runTask htasks
  | finish command | block hqueue hwaiting => simpa using h hflag
  | @leave _ wait hqueue hwaiting =>
    rw [(q.sameQueue_leaveWait wait).isDispatchingMessage] at hflag
    simpa using h hflag
  | take hpc => rcases hpc with ⟨rfl, -⟩ | ⟨rfl, -⟩ <;> simpa using h hflag
  | beginBatch queue => exact ⟨_, queue, .head _⟩
  | endBatch => cases hflag
  | dispatch command queue => exact ⟨_, queue, .tail _ (.head _)⟩

theorem JsStep.waiting_ne_nil (hnested : Nested calls)
    (h : q.waitingForDebugger = true → calls ≠ []) (hstep : JsStep q calls i q' calls')
    (hflag : q'.waitingForDebugger = true) : calls' ≠ [] := by
  cases hstep with
  | finish command => exact hnested.ne_nil_of_handler
  | pauseUnseen hscript hmode | callUnseen hscript => exact h hflag
  | @leave _ wait hqueue hwaiting =>
    have hsame : (q.leaveWait wait).waitingForDebugger = q.waitingForDebugger := by
      unfold leaveWait
      split <;> rfl
    rw [hsame, hwaiting] at hflag
    cases hflag
  | _ => simp

theorem JsStep.blocked_inv (hnested : Nested calls) (hstep : JsStep q calls i q' calls')
    {wait : Option WaitKind} {rest : List JsCall}
    (hcalls : calls' = .processCommand wait .blocked :: rest) : q'.requestQueue = [] := by
  cases hstep with
  | wait kind hscript | handleCommands hscript | runTask htasks
  | take hpc | beginBatch queue | endBatch | dispatch command queue => cases hcalls
  | pauseUnseen hscript hmode | callUnseen hscript =>
    subst hcalls
    cases hscript
  | finish command =>
    subst hcalls
    cases hnested
  | block hqueue hwaiting => exact hqueue
  | leave hqueue hwaiting =>
    subst hcalls
    cases hnested with
    | processCommand hnested hscript => cases hscript

theorem JsStep.leaves (hnested : Nested calls) (hstep : JsStep q calls i q' calls')
    (hqueue : q'.requestQueue ≠ []) :
    calls' ≠ [] ∨
      q'.requestQueue = q.requestQueue ∧ calls = [] ∧ q'.postedTasks = q.postedTasks := by
  cases hstep with
  | pauseUnseen hscript hmode | callUnseen hscript =>
    rcases calls with - | ⟨call, calls⟩
    · exact .inr ⟨rfl, rfl, rfl⟩
    · exact .inl (by simp)
  | finish command => exact .inl hnested.ne_nil_of_handler
  | @leave _ wait hempty hwaiting =>
    rw [(q.sameQueue_leaveWait wait).requestQueue] at hqueue
    exact absurd hempty hqueue
  | _ => exact .inl (by simp)

theorem JsStep.calls_of_runTask (hstep : JsStep q calls .runTask q' calls') : calls' ≠ [] := by
  generalize hi : HandlerInput.runTask = i at hstep
  cases hstep with
  | wait kind hscript => cases kind <;> cases hi
  | runTask htasks => simp
  | _ => cases hi

end Calls

section Invariant

variable [DecidableEq Θ] {s s' : HandlerThreads Θ} {t : HandlerThread Θ} {i : HandlerInput}

/-- A producer leaves `OnMessage` only if somebody else will see to the queue. -/
theorem ProducerStep.inOnMessage {q q' : ProtocolHandler} {pc pc' : ProducerPc}
    (h : ProducerStep true q pc i q' pc') (hpc : pc.inOnMessage = true) :
    pc'.inOnMessage = true ∨ q.isDispatchingMessage = true ∨ q.waitingForDebugger = true ∨
      q'.requestQueue = [] ∨ 0 < q'.postedTasks := by
  cases h with
  | enqueue request | poll | unknown hqueue => cases hpc
  | dispatching hflag => exact .inr (.inl hflag)
  | notDispatching hflag | notWaiting hflag => exact .inl hpc
  | waiting hflag => exact .inr (.inr (.inl hflag))
  | empty hqueue => exact .inr (.inr (.inr (.inl hqueue)))
  | pollAgain hqueue | idleThread hqueue => exact .inl rfl
  | post h => exact .inr (.inr (.inr (.inr (Nat.succ_pos _))))
  | noPost h => cases h

variable {debuggerPostTask : Bool}

theorem ProducerStep.flags {q q' : ProtocolHandler} {pc pc' : ProducerPc}
    (h : ProducerStep debuggerPostTask q pc i q' pc') :
    q'.isDispatchingMessage = q.isDispatchingMessage ∧
      q'.waitingForDebugger = q.waitingForDebugger ∧ q.postedTasks ≤ q'.postedTasks ∧
      (q'.notified = true ∨ q'.notified = q.notified ∧ q'.requestQueue = q.requestQueue) := by
  cases h with
  | enqueue request => exact ⟨rfl, rfl, Nat.le_refl _, .inl rfl⟩
  | post h => exact ⟨rfl, rfl, Nat.le_succ _, .inr ⟨rfl, rfl⟩⟩
  | _ => exact ⟨rfl, rfl, Nat.le_refl _, .inr ⟨rfl, rfl⟩⟩

theorem ProducerStep.enqueues {q q' : ProtocolHandler} {pc pc' : ProducerPc}
    (h : ProducerStep debuggerPostTask q pc i q' pc') :
    q'.requestQueue = q.requestQueue ∨ pc'.inOnMessage = true := by
  cases h with
  | enqueue request => exact .inr rfl
  | _ => exact .inl rfl

/-- After a step of a producer there is still somebody who will see to the
queue: the call that the flags speak of, the task, or the same producers. -/
theorem DeliveryInv.responsible_producer (h : DeliveryInv s) {u : Θ} {pc : ProducerPc}
    (hstep : ProducerStep true s.shared (s.producerPc u) i s'.shared pc)
    (hpcs : s'.producerPc = Function.update s.producerPc u pc)
    (hqueue : s'.shared.requestQueue ≠ []) :
    s.calls ≠ [] ∨ 0 < s'.shared.postedTasks ∨ ∃ t, (s'.producerPc t).inOnMessage = true := by
  have hu : s'.producerPc u = pc := by rw [hpcs, Function.update_self]
  obtain ⟨-, -, htasks, -⟩ := hstep.flags
  by_cases hempty : s.shared.requestQueue = []
  · -- the command is new
    rcases hstep.enqueues with hsame | hpc
    · exact absurd (hsame.trans hempty) hqueue
    · exact .inr (.inr ⟨u, by rw [hu]; exact hpc⟩)
  rcases h.responsible hempty with hcalls | hposted | ⟨t, ht⟩
  · exact .inl hcalls
  · exact .inr (.inl (Nat.lt_of_lt_of_le hposted htasks))
  by_cases htu : t = u
  · subst htu
    rcases hstep.inOnMessage ht with hpc | hflag | hflag | hnil | hposted
    · exact .inr (.inr ⟨t, by rw [hu]; exact hpc⟩)
    · obtain ⟨wait, queue, hmem⟩ := h.dispatching hflag
      exact .inl (List.ne_nil_of_mem hmem)
    · exact .inl (h.waiting hflag)
    · exact absurd hnil hqueue
    · exact .inr (.inl hposted)
  · exact .inr (.inr ⟨t, by rw [hpcs, Function.update_of_ne htu]; exact ht⟩)

/-- **Delivery, one step.** -/
theorem DeliveryInv.step (h : DeliveryInv s) (hstep : HandlerStep true s s' t i) :
    DeliveryInv s' := by
  have hrecorded := h.recorded.step hstep
  cases hstep with
  | producer u pc hstep hcalls hpcs =>
    obtain ⟨hdispatching, hwaiting, -, hnotified⟩ := hstep.flags
    refine ⟨hrecorded, ?_, ?_, ?_, ?_, ?_⟩
    · rw [hcalls]
      exact h.nested
    · rw [hcalls, hdispatching]
      exact h.dispatching
    · rw [hcalls, hwaiting]
      exact h.waiting
    · intro wait calls hblocked hqueue
      rcases hnotified with hnotified | ⟨hnotified, hsame⟩
      · exact hnotified
      · rw [hnotified]
        exact h.notified wait calls (hcalls ▸ hblocked) (hsame ▸ hqueue)
    · rw [hcalls]
      exact h.responsible_producer hstep hpcs
  | js hstep hpcs =>
    refine ⟨hrecorded, h.nested.step hstep, hstep.dispatching_mem h.dispatching,
      hstep.waiting_ne_nil h.nested h.waiting, ?_, ?_⟩
    · intro wait calls hblocked hqueue
      exact absurd (hstep.blocked_inv h.nested hblocked) hqueue
    · intro hqueue
      rcases hstep.leaves h.nested hqueue with hcalls | ⟨hsame, hnil, htasks⟩
      · exact .inl hcalls
      · rw [hpcs, htasks]
        refine .inr ((h.responsible (hsame ▸ hqueue)).resolve_left ?_)
        exact fun hne => hne hnil
  | system hshared hcalls hpcs =>
    refine ⟨hrecorded, ?_, ?_, ?_, ?_, ?_⟩
    · rw [hcalls]
      exact h.nested
    · rw [hcalls, hshared]
      exact h.dispatching
    · rw [hcalls, hshared]
      exact h.waiting
    · intro wait calls hblocked hqueue
      rw [hshared]
      rfl
    · rw [hcalls, hshared, hpcs]
      exact h.responsible

omit [DecidableEq Θ] in
theorem DeliveryInv.init (debugMode : Bool) : DeliveryInv (HandlerThreads.init Θ debugMode) where
  recorded := Recorded.init debugMode
  nested := .nil
  dispatching := nofun
  waiting := nofun
  notified _ _ h := nomatch h
  responsible h := absurd rfl h

/-- **No wake-up is lost**: while commands are queued the JS thread is in a call, a task is posted
or a producer is still in `OnMessage`, and a wait that is blocked has been notified. -/
theorem queue_attended (debugMode : Bool)
    (schedule : List (HandlerThread Θ × HandlerInput)) :
    Always (handlerNext true) (fun s : HandlerThreads Θ => s.shared.requestQueue ≠ [] →
      (s.calls ≠ [] ∨ 0 < s.shared.postedTasks ∨ ∃ t, (s.producerPc t).inOnMessage = true) ∧
      ∀ wait calls, s.calls = .processCommand wait .blocked :: calls → s.shared.notified = true)
      (HandlerThreads.init Θ debugMode) schedule := by
  apply always_of_invariant (I := DeliveryInv) _ _ (DeliveryInv.init debugMode)
  · exact fun s hs hqueue => ⟨hs.responsible hqueue, fun _ _ hc => hs.notified _ _ hc hqueue⟩
  · exact fun s t i s' hs hstep => hs.step (.of_step hstep)

end Invariant

/-! ### What the environment promises -/

section Runs

variable [DecidableEq Θ] {debuggerPostTask : Bool}

/-- The JS thread is in `ProcessCommand`, outside all handlers. -/
def InProcessCommand : HandlerPc → Prop
  | .js (.processCommand _ _ :: _) => True
  | _ => False

/-- Every handler returns: at some time there are only the calls in which it was
called, or fewer. -/
def HandlersReturn (run : InfiniteRun (handlerNext (Θ := Θ) debuggerPostTask)) : Prop :=
  ∀ n above command (calls : List JsCall),
    HandlerThreads.calls (run.states n) = above ++ .handler command :: calls →
      ∃ m, n ≤ m ∧ (HandlerThreads.calls (run.states m)).length ≤ calls.length

def PostedTasksRun (run : InfiniteRun (handlerNext (Θ := Θ) debuggerPostTask)) : Prop :=
  ∀ n, 0 < (run.states n).shared.postedTasks → ∃ m, n ≤ m ∧ run.moves m = some (.js, .runTask)

/-! ### The calls along a run -/

variable {run : InfiniteRun (handlerNext (Θ := Θ) debuggerPostTask)} {n m : Nat} {i : HandlerInput}

theorem handlerStep_of_moves {t : HandlerThread Θ} (h : run.moves n = some (t, i)) :
    HandlerStep debuggerPostTask (run.states n) (run.states (n + 1)) t i :=
  .of_step (step_of_moves h)

theorem calls_succ (h : ¬ run.StepsAt .js n) :
    HandlerThreads.calls (run.states (n + 1)) = HandlerThreads.calls (run.states n) := by
  unfold HandlerThreads.calls
  rw [pcs_succ h]

variable {calls : List JsCall} {call : JsCall}

theorem JsStep.suffix {q q' : ProtocolHandler} {calls' : List JsCall}
    (h : JsStep q (call :: calls) i q' calls') : calls <:+ calls' := by
  cases h with
  | wait kind hscript | handleCommands hscript | dispatch command queue =>
    exact (List.suffix_cons _ _).trans (List.suffix_cons _ _)
  | pauseUnseen hscript hmode | callUnseen hscript | block hqueue hwaiting
  | take hpc | beginBatch queue | endBatch => exact List.suffix_cons _ _
  | finish command | leave hqueue hwaiting => exact List.suffix_refl _

variable {base : List JsCall}

theorem suffix_succ (h : base <:+ HandlerThreads.calls (run.states n))
    (hne : HandlerThreads.calls (run.states n) ≠ base) :
    base <:+ HandlerThreads.calls (run.states (n + 1)) := by
  by_cases hsteps : run.StepsAt .js n
  · obtain ⟨i, hmove⟩ := hsteps
    cases handlerStep_of_moves hmove with
    | js hstep hpcs =>
      rcases hcalls : HandlerThreads.calls (run.states n) with - | ⟨call, calls⟩
      · rw [hcalls] at h hne
        exact absurd (List.suffix_nil.mp h).symm hne
      · rw [hcalls] at h hne hstep
        rcases List.suffix_cons_iff.mp h with rfl | h
        · exact absurd rfl hne
        · exact h.trans hstep.suffix
  · rw [calls_succ hsteps]
    exact h

/-- **Calls return**: if there are no more calls than `base` at some time, the JS
thread comes back to `base`. -/
theorem returnsTo (h : base <:+ HandlerThreads.calls (run.states n)) (hm : n ≤ m)
    (hlen : (HandlerThreads.calls (run.states m)).length ≤ base.length) :
    ∃ k, n ≤ k ∧ HandlerThreads.calls (run.states k) = base := by
  obtain ⟨d, rfl⟩ := Nat.exists_eq_add_of_le hm
  induction d generalizing n with
  | zero => exact ⟨n, Nat.le_refl n, (h.eq_of_length_le hlen).symm⟩
  | succ d ih =>
    by_cases heq : HandlerThreads.calls (run.states n) = base
    · exact ⟨n, Nat.le_refl n, heq⟩
    · rw [show n + (d + 1) = n + 1 + d by omega] at hlen
      obtain ⟨k, hk, hbase⟩ := ih (suffix_succ h heq) (Nat.le_add_right _ _) hlen
      exact ⟨k, by omega, hbase⟩

variable {command : Command}

theorem handler_returns (hreturn : HandlersReturn run) (above : List JsCall)
    (h : HandlerThreads.calls (run.states n) = above ++ .handler command :: base) :
    ∃ k, n ≤ k ∧ HandlerThreads.calls (run.states k) = base := by
  obtain ⟨m, hm, hlen⟩ := hreturn n above command base h
  refine returnsTo ?_ hm hlen
  rw [h]
  exact (List.suffix_cons _ _).trans (List.suffix_append _ _)

/-! ### Progress of the JS thread -/

variable {s : HandlerThreads Θ}

omit [DecidableEq Θ] in
theorem pcs_js_of_calls (h : s.calls = call :: calls) : s.pcs .js = .js (call :: calls) := by
  unfold HandlerThreads.calls at h
  split at h
  · rename_i calls' hpc
    rw [hpc, h]
  · cases h

variable {pc : ProcessPc}

theorem exists_processCommand (q : ProtocolHandler) (wait : Option WaitKind) (calls : List JsCall)
    (h : pc = .blocked → q.notified = true) : ∃ r, q.processCommand wait calls pc = some r := by
  unfold processCommand
  split
  · split_ifs <;> exact ⟨_, rfl⟩
  · rw [if_pos (h rfl)]
    exact ⟨_, rfl⟩
  all_goals
    exact ⟨_, rfl⟩

variable {wait : Option WaitKind}

theorem processCommand_of_jsNext {q : ProtocolHandler} {r : ProtocolHandler × List JsCall}
    (h : jsNext q (.processCommand wait pc :: calls) i = some r) :
    q.processCommand wait calls pc = some r := by
  cases i with
  | goOn => exact h
  | _ => simp [jsNext, runsScript] at h

theorem notified_succ (h : ¬ run.StepsAt .js n) (hn : (run.states n).shared.notified = true) :
    (run.states (n + 1)).shared.notified = true := by
  rcases hmove : run.moves n with - | ⟨t, i⟩
  · rw [states_succ hmove]
    exact hn
  · cases handlerStep_of_moves hmove with
    | producer u pc hstep hcalls hpcs =>
      obtain ⟨-, -, -, hnotified | ⟨hnotified, -⟩⟩ := hstep.flags
      · exact hnotified
      · exact hnotified.trans hn
    | js hstep hpcs => exact absurd ⟨i, hmove⟩ h
    | system hshared hcalls hpcs =>
      rw [hshared]
      rfl

/-- The JS thread is at a point of `ProcessCommand`, and does not wait there
without having been notified. -/
def MayGoOn (wait : Option WaitKind) (pc : ProcessPc) (calls : List JsCall)
    (s : HandlerThreads Θ) : Prop :=
  s.pcs .js = .js (.processCommand wait pc :: calls) ∧ (pc = .blocked → s.shared.notified = true)

/-- In `ProcessCommand` the JS thread goes on, unless it waits for a
notification. -/
theorem processCommand_goesOn (hfair : run.Fair .js InProcessCommand)
    (hcalls : HandlerThreads.calls (run.states n) = .processCommand wait pc :: calls)
    (hblocked : pc = .blocked → (run.states n).shared.notified = true) :
    ∃ m, n ≤ m ∧ (run.states m).shared.processCommand wait calls pc
      = some ((run.states (m + 1)).shared, HandlerThreads.calls (run.states (m + 1))) := by
  have hcan : ∀ k, n ≤ k → MayGoOn wait pc calls (run.states k) →
      InProcessCommand ((run.states k).pcs .js) ∧
        (run.states k).CanStep (handlerNext debuggerPostTask) .js := by
    rintro k - ⟨hpc, hnotified⟩
    obtain ⟨r, hr⟩ := exists_processCommand (run.states k).shared wait calls hnotified
    refine ⟨hpc ▸ trivial, canStep_of_next (i := .goOn) (r := (r.1, .js r.2)) ?_⟩
    rw [hpc]
    exact congrArg (Option.map fun r : _ × _ => (r.1, HandlerPc.js r.2)) hr
  have hkeep : ∀ k, n ≤ k → MayGoOn wait pc calls (run.states k) → ¬ run.StepsAt .js k →
      MayGoOn wait pc calls (run.states (k + 1)) := by
    rintro k - ⟨hpc, hnotified⟩ hsteps
    exact ⟨(pcs_succ hsteps).trans hpc, fun hb => notified_succ hsteps (hnotified hb)⟩
  obtain ⟨m, hm, ⟨i, hmove⟩, hpc, -⟩ :=
    hfair.leadsTo hcan hkeep ⟨pcs_js_of_calls hcalls, hblocked⟩
  refine ⟨m, hm, ?_⟩
  obtain ⟨sh, pc', hnext, hstate⟩ := step_eq_some (step_of_moves hmove)
  rw [hpc] at hnext
  obtain ⟨⟨q', calls'⟩, hjs, heq⟩ := Option.map_eq_some_iff.mp hnext
  cases heq
  rw [hstate, processCommand_of_jsNext hjs]
  simp [HandlerThreads.calls]

/-! ### The queue is emptied -/

theorem queue_emptied_of_check (hfair : run.Fair .js InProcessCommand)
    (hcalls : HandlerThreads.calls (run.states n) = .processCommand wait .check :: calls) :
    ∃ m, n ≤ m ∧ (run.states m).shared.requestQueue = [] := by
  obtain ⟨m, hm, hstep⟩ := processCommand_goesOn hfair hcalls nofun
  by_cases hqueue : (run.states m).shared.requestQueue = []
  · exact ⟨m, hm, hqueue⟩
  · simp only [processCommand, if_neg hqueue, Option.some.injEq, Prod.mk.injEq] at hstep
    exact ⟨m + 1, by omega, hstep.1 ▸ rfl⟩

section Returning

variable {queue : List Command} (hfair : run.Fair .js InProcessCommand)
  (hreturn : HandlersReturn run)
include hfair hreturn

theorem dispatching_goesOn
    (hcalls : HandlerThreads.calls (run.states n)
      = .processCommand wait (.dispatching (command :: queue)) :: calls) :
    ∃ m, n ≤ m ∧ command.number ∈ (run.states m).shared.dispatched ∧
      ∃ k, m ≤ k ∧ HandlerThreads.calls (run.states k)
        = .processCommand wait (.dispatching queue) :: calls := by
  obtain ⟨m, hm, hstep⟩ := processCommand_goesOn hfair hcalls nofun
  simp only [processCommand, Option.some.injEq, Prod.mk.injEq] at hstep
  exact ⟨m + 1, by omega, hstep.1 ▸ by simp, handler_returns hreturn [] hstep.2.symm⟩

/-- The loop over `dispatchingQueue` ends, and then the queue is looked at. -/
theorem queue_emptied_of_dispatching (hcalls : HandlerThreads.calls (run.states n)
      = .processCommand wait (.dispatching queue) :: calls) :
    ∃ m, n ≤ m ∧ (run.states m).shared.requestQueue = [] := by
  induction queue generalizing n with
  | nil =>
    obtain ⟨m, hm, hstep⟩ := processCommand_goesOn hfair hcalls nofun
    simp only [processCommand, Option.some.injEq, Prod.mk.injEq] at hstep
    exact exists_later (by omega) (queue_emptied_of_check hfair hstep.2.symm)
  | cons command queue ih =>
    obtain ⟨m, hm, -, k, hk, hback⟩ := dispatching_goesOn hfair hreturn hcalls
    exact exists_later (by omega) (ih hback)

/-- **A call of `ProcessCommand` empties the queue.** -/
theorem queue_emptied_of_calls (hinv : ∀ n, DeliveryInv (run.states n))
    (hcalls : HandlerThreads.calls (run.states n) ≠ []) :
    ∃ m, n ≤ m ∧ (run.states m).shared.requestQueue = [] := by
  have hnested := (hinv n).nested
  rcases hcall : HandlerThreads.calls (run.states n) with - | ⟨call, calls⟩
  · exact absurd hcall hcalls
  rw [hcall] at hnested
  cases hnested with
  | handler h =>
    obtain ⟨m, hm, hback⟩ := handler_returns hreturn [] hcall
    exact exists_later hm (queue_emptied_of_dispatching hfair hreturn hback)
  | @processCommand wait pc _ h hscript =>
    cases pc with
    | check => exact queue_emptied_of_check hfair hcall
    | blocked =>
      by_cases hqueue : (run.states n).shared.requestQueue = []
      · exact ⟨n, Nat.le_refl n, hqueue⟩
      -- a command came after the wait had begun, so that it is over
      have hnotified := (hinv n).notified wait calls hcall hqueue
      obtain ⟨m, hm, hstep⟩ := processCommand_goesOn hfair hcall fun _ => hnotified
      simp only [processCommand, Option.ite_none_right_eq_some,
        Option.some.injEq, Prod.mk.injEq] at hstep
      exact ⟨m + 1, by omega, hstep.2.1 ▸ rfl⟩
    | taken queue =>
      obtain ⟨m, hm, hstep⟩ := processCommand_goesOn hfair hcall nofun
      simp only [processCommand, Option.some.injEq, Prod.mk.injEq] at hstep
      exact exists_later (by omega) (queue_emptied_of_dispatching hfair hreturn hstep.2.symm)
    | dispatching queue => exact queue_emptied_of_dispatching hfair hreturn hcall

/-! ### A command that has been taken is dispatched -/

theorem begins_of_dispatching (hmem : command ∈ queue)
    (hcalls : HandlerThreads.calls (run.states n)
      = .processCommand wait (.dispatching queue) :: calls) :
    ∃ m, n ≤ m ∧ command.number ∈ (run.states m).shared.dispatched := by
  induction queue generalizing n with
  | nil => cases hmem
  | cons first queue ih =>
    obtain ⟨m, hm, hbegun, l, hl, hback⟩ := dispatching_goesOn hfair hreturn hcalls
    rcases List.mem_cons.mp hmem with rfl | hmem
    · exact ⟨m, hm, hbegun⟩
    · exact exists_later (by omega) (ih hmem hback)

omit hfair hreturn in
theorem exists_of_mem_pendingOf (h : command ∈ pendingOf calls) :
    ∃ above call rest, calls = above ++ call :: rest ∧ command ∈ call.pending := by
  induction calls with
  | nil => cases h
  | cons call calls ih =>
    rcases List.mem_append.mp h with h | h
    · obtain ⟨above, call', rest, rfl, hmem⟩ := ih h
      exact ⟨call :: above, call', rest, rfl, hmem⟩
    · exact ⟨[], call, calls, rfl, h⟩

omit hfair hreturn in
theorem Nested.tail (h : Nested (call :: calls)) : Nested calls := by
  cases h with
  | handler h | processCommand h hscript => exact h

omit hfair hreturn in
theorem Nested.of_append {above : List JsCall} (h : Nested (above ++ calls)) : Nested calls := by
  induction above with
  | nil => exact h
  | cons call above ih => exact ih (Nested.tail h)

/-- **A command that has been taken begins to be dispatched.** -/
theorem begins_of_pending (hinv : ∀ n, DeliveryInv (run.states n))
    (h : command ∈ pendingOf (HandlerThreads.calls (run.states n))) :
    ∃ m, n ≤ m ∧ command.number ∈ (run.states m).shared.dispatched := by
  obtain ⟨above, call, rest, hcalls, hmem⟩ := exists_of_mem_pendingOf h
  rcases above.eq_nil_or_concat with rfl | ⟨above, last, rfl⟩
  · rcases call with ⟨wait, - | - | queue | queue⟩ | command'
    case processCommand.taken =>
      obtain ⟨m, hm, hstep⟩ := processCommand_goesOn hfair hcalls nofun
      simp only [processCommand, Option.some.injEq, Prod.mk.injEq] at hstep
      exact exists_later (by omega) (begins_of_dispatching hfair hreturn hmem hstep.2.symm)
    case processCommand.dispatching => exact begins_of_dispatching hfair hreturn hmem hcalls
    all_goals cases hmem
  · -- the call is not the innermost one: a handler of it is running
    have hnested := (hinv n).nested
    rw [List.concat_eq_append, List.append_assoc] at hcalls
    rw [hcalls] at hnested
    cases hnested.of_append with
    | processCommand h hscript =>
      cases call with
      | processCommand wait pc => cases hscript
      | handler command' => cases hmem
    | handler h =>
      obtain ⟨m, hm, hback⟩ := handler_returns hreturn above hcalls
      exact exists_later hm (begins_of_dispatching hfair hreturn hmem hback)

end Returning

/-! ### Progress of the producers -/

variable {pc : ProducerPc} {t : Θ}

omit [DecidableEq Θ] in
theorem pcs_of_producerPc (h : s.producerPc t = pc) (hne : pc ≠ .idle) :
    s.pcs (.producer t) = .producer pc := by
  unfold producerPc at h
  split at h
  · rename_i pc' hpc
    rw [hpc, h]
  · exact absurd h.symm hne

theorem exists_producerNext (post : Bool) (q : ProtocolHandler) (hne : pc ≠ .idle) :
    ∃ r, producerNext post q pc .goOn = some r := by
  cases pc with
  | idle => exact absurd rfl hne
  | readQueue poll before =>
    by_cases hqueue : q.requestQueue = []
    · exact ⟨_, if_pos hqueue⟩
    · cases poll <;> exact ⟨_, if_neg hqueue⟩
  | _ => exact ⟨_, rfl⟩

theorem onMessage_goesOn (hfair : run.Fair (.producer t) (· ≠ .producer .idle))
    (hpc : producerPc (run.states n) t = pc) (hne : pc ≠ .idle) :
    ∃ m i, n ≤ m ∧ ProducerStep debuggerPostTask (run.states m).shared pc i
      (run.states (m + 1)).shared (producerPc (run.states (m + 1)) t) := by
  have hcan : ∀ k, n ≤ k → (run.states k).pcs (.producer t) = .producer pc →
      (run.states k).pcs (.producer t) ≠ .producer .idle ∧
        (run.states k).CanStep (handlerNext debuggerPostTask) (.producer t) := by
    intro k _ hk
    obtain ⟨r, hr⟩ := exists_producerNext debuggerPostTask (run.states k).shared hne
    refine ⟨by simpa [hk] using hne, canStep_of_next (i := .goOn) (r := (r.1, .producer r.2)) ?_⟩
    rw [hk]
    exact congrArg (Option.map fun r : _ × _ => (r.1, HandlerPc.producer r.2)) hr
  obtain ⟨m, hm, ⟨i, hmove⟩, hpcs⟩ := hfair.leadsTo
    (P := fun s => s.pcs (.producer t) = .producer pc) hcan
    (fun k _ hk hsteps => (pcs_succ hsteps).trans hk)
    (pcs_of_producerPc hpc hne)
  refine ⟨m, i, hm, ?_⟩
  have hpcm : producerPc (run.states m) t = pc := by
    unfold producerPc
    rw [hpcs]
  cases handlerStep_of_moves hmove with
  | producer u pc' hstep hcalls hupdate =>
    rw [hupdate, Function.update_self, ← hpcm]
    exact hstep

end Runs

section Delivery

variable [DecidableEq Θ] {run : InfiniteRun (handlerNext (Θ := Θ) true)} {n m : Nat}

/-- How much of `OnMessage` is left. -/
def ProducerPc.rank : ProducerPc → Nat
  | .readDispatching .first _ => 6
  | .readWaiting .first _ => 5
  | .readQueue .first _ => 4
  | .readDispatching _ _ => 3
  | .readWaiting _ _ => 2
  | .readQueue _ _ => 1
  | _ => 0

/-- A step of `OnMessage` at an idle JS thread brings the task nearer. -/
theorem ProducerStep.rank_lt {q q' : ProtocolHandler} {pc pc' : ProducerPc} {i : HandlerInput}
    (h : ProducerStep true q pc i q' pc') (hpc : pc.inOnMessage = true)
    (hdispatching : q.isDispatchingMessage = false) (hwaiting : q.waitingForDebugger = false)
    (hqueue : q.requestQueue ≠ []) :
    0 < q'.postedTasks ∨ pc'.inOnMessage = true ∧ pc'.rank < pc.rank := by
  cases h with
  | enqueue request | poll | unknown hqueue => cases hpc
  | dispatching hflag => rw [hdispatching] at hflag; cases hflag
  | @notDispatching poll before hflag | @notWaiting poll before hflag =>
    refine .inr ⟨hpc, ?_⟩
    cases poll <;> simp [ProducerPc.rank]
  | waiting hflag => rw [hwaiting] at hflag; cases hflag
  | empty hnil => exact absurd hnil hqueue
  | pollAgain hqueue | idleThread hqueue => exact .inr ⟨rfl, by simp [ProducerPc.rank]⟩
  | post h => exact .inl (Nat.succ_pos _)
  | noPost h => cases h

/-- **`OnMessage` posts a task** if the JS thread stays idle. -/
theorem task_posted (hinv : ∀ n, DeliveryInv (run.states n)) {t : Θ}
    (hfair : run.Fair (.producer t) (· ≠ .producer .idle))
    (hcalls : ∀ m, n ≤ m → HandlerThreads.calls (run.states m) = [])
    (hqueue : ∀ m, n ≤ m → (run.states m).shared.requestQueue ≠ [])
    (hpc : (producerPc (run.states n) t).inOnMessage = true) :
    ∃ m, n ≤ m ∧ 0 < (run.states m).shared.postedTasks := by
  induction hrank : (producerPc (run.states n) t).rank using Nat.strong_induction_on
    generalizing n with
  | _ rank ih =>
    have hne : producerPc (run.states n) t ≠ .idle := by
      intro hidle
      rw [hidle] at hpc
      cases hpc
    obtain ⟨m, i, hm, hstep⟩ := onMessage_goesOn hfair rfl hne
    -- without calls the flags are down
    have hdispatching : (run.states m).shared.isDispatchingMessage = false := by
      by_contra hflag
      obtain ⟨wait, queue, hmem⟩ := (hinv m).dispatching (by simpa using hflag)
      rw [hcalls m hm] at hmem
      cases hmem
    have hwaiting : (run.states m).shared.waitingForDebugger = false := by
      by_contra hflag
      exact (hinv m).waiting (by simpa using hflag) (hcalls m hm)
    rcases hstep.rank_lt hpc hdispatching hwaiting (hqueue m hm) with hposted | ⟨hpc', hlt⟩
    · exact ⟨m + 1, by omega, hposted⟩
    · exact exists_later (by omega) (ih _ (hrank ▸ hlt) (fun j hj => hcalls j (by omega))
        (fun j hj => hqueue j (by omega)) hpc' rfl)

theorem queue_noticed (hinv : ∀ n, DeliveryInv (run.states n))
    (hproducers : ∀ t, run.Fair (.producer t) (· ≠ .producer .idle)) (htasks : PostedTasksRun run)
    (n : Nat) :
    ∃ m, n ≤ m ∧ ((run.states m).shared.requestQueue = [] ∨
      HandlerThreads.calls (run.states m) ≠ []) := by
  by_contra hnever
  push Not at hnever
  have hqueue : ∀ m, n ≤ m → (run.states m).shared.requestQueue ≠ [] := fun m hm => (hnever m hm).1
  have hcalls : ∀ m, n ≤ m → HandlerThreads.calls (run.states m) = [] := fun m hm => (hnever m hm).2
  have hposted : ∃ m, n ≤ m ∧ 0 < (run.states m).shared.postedTasks := by
    rcases (hinv n).responsible (hqueue n (Nat.le_refl n)) with hne | hposted | ⟨t, ht⟩
    · exact absurd (hcalls n (Nat.le_refl n)) hne
    · exact ⟨n, Nat.le_refl n, hposted⟩
    · exact task_posted hinv (hproducers t) hcalls hqueue ht
  obtain ⟨m, hm, hposted⟩ := hposted
  obtain ⟨k, hk, hmove⟩ := htasks m hposted
  cases handlerStep_of_moves hmove with
  | js hstep hpcs => exact hstep.calls_of_runTask (hcalls (k + 1) (by omega))

theorem enqueued_mono (h : n ≤ m) :
    (run.states n).shared.enqueued ≤ (run.states m).shared.enqueued := by
  refine run.rel_states (R := fun s s' => s.shared.enqueued ≤ s'.shared.enqueued)
    (fun _ => Nat.le_refl _) (fun _ _ _ => Nat.le_trans) (fun s t i s' hstep => ?_) h
  cases HandlerStep.of_step hstep with
  | producer u pc hstep hcalls hpcs =>
    obtain ⟨-, -, ⟨henqueued, -⟩ | ⟨request, henqueued, -⟩⟩ := hstep.moves <;> omega
  | js hstep hpcs => exact Nat.le_of_eq hstep.keeps.1.symm
  | system hshared hcalls hpcs =>
    rw [hshared]
    exact Nat.le_refl _

/-- **Every command is delivered**: if there is a function to post tasks with, the
threads are fair, handlers return and posted tasks are run, then every command
that has been enqueued begins to be dispatched. -/
theorem commands_delivered {debugMode : Bool}
    (hinit : run.states 0 = HandlerThreads.init Θ debugMode) (hjs : run.Fair .js InProcessCommand)
    (hproducers : ∀ t, run.Fair (.producer t) (· ≠ .producer .idle))
    (hreturn : HandlersReturn run) (htasks : PostedTasksRun run) {k : Nat}
    (hk : k < (run.states n).shared.enqueued) :
    ∃ m, n ≤ m ∧ k ∈ (run.states m).shared.dispatched := by
  have hinv : ∀ n, DeliveryInv (run.states n) :=
    run.invariant (fun n t i hmove h => h.step (handlerStep_of_moves hmove))
      (hinit ▸ DeliveryInv.init debugMode)
  obtain ⟨m, hm, hempty⟩ : ∃ m, n ≤ m ∧ (run.states m).shared.requestQueue = [] := by
    obtain ⟨l, hl, hempty | hcalls⟩ := queue_noticed hinv hproducers htasks n
    · exact ⟨l, hl, hempty⟩
    · exact exists_later hl (queue_emptied_of_calls hjs hreturn hinv hcalls)
  -- then the command has begun, or the JS thread has taken it
  have hmem := (hinv m).recorded.once.mem_iff.mpr
    (List.mem_range.mpr (Nat.lt_of_lt_of_le hk (enqueued_mono hm)))
  rw [hempty, List.append_nil, List.mem_append] at hmem
  rcases hmem with hbegun | hpending
  · exact ⟨m, hm, hbegun⟩
  · obtain ⟨command, hcommand, rfl⟩ := List.mem_map.mp hpending
    exact exists_later hm (begins_of_pending hjs hreturn hinv hcommand)

end Delivery

/-! ### Runs that stop -/

section Stops

variable [DecidableEq Θ] {debuggerPostTask : Bool} {s s' : HandlerThreads Θ}
  {schedule : List (HandlerThread Θ × HandlerInput)}
  (h : s.run (handlerNext debuggerPostTask) schedule = some s')

theorem fair_producer_ofSchedule (hend : ∀ t, s'.pcs (.producer t) = .producer .idle) (t : Θ) :
    (ofSchedule h).Fair (.producer t) (· ≠ .producer .idle) := by
  apply fair_ofSchedule
  intro hin
  exact absurd (hend t) hin

theorem fair_js_ofSchedule (hend : s'.pcs .js = .js []) :
    (ofSchedule h).Fair .js InProcessCommand := by
  apply fair_ofSchedule
  intro hin
  rw [hend] at hin
  exact hin.elim

theorem handlersReturn_ofSchedule (hend : s'.calls = []) : HandlersReturn (.ofSchedule h) := by
  intro n above command calls hcalls
  refine ⟨n + schedule.length, Nat.le_add_right _ _, ?_⟩
  rw [states_ofSchedule h (Nat.le_add_left _ _), hend]
  exact Nat.zero_le _

theorem postedTasksRun_ofSchedule (hend : s'.shared.postedTasks = 0)
    (hrun : ∀ n < schedule.length,
      0 < (s.afterSteps (handlerNext debuggerPostTask) schedule n).shared.postedTasks →
        (.js, .runTask) ∈ schedule.drop n) :
    PostedTasksRun (.ofSchedule h) := by
  intro n hn
  by_cases hlt : n < schedule.length
  · obtain ⟨m, hmove⟩ := List.mem_iff_getElem?.mp (hrun n hlt hn)
    rw [List.getElem?_drop] at hmove
    exact ⟨n + m, Nat.le_add_right n m, hmove⟩
  · rw [states_ofSchedule h (Nat.le_of_not_lt hlt), hend] at hn
    cases hn

theorem not_mem_dispatched_ofSchedule {k m : Nat} (hend : k ∉ s'.shared.dispatched)
    (hm : schedule.length ≤ m) : k ∉ ((ofSchedule h).states m).shared.dispatched := by
  rw [states_ofSchedule h hm]
  exact hend

end Stops

def sentToIdleThread : List (HandlerThread Unit × HandlerInput) :=
  [(.producer (), .onMessage .enable), (.producer (), .goOn), (.producer (), .goOn),
   (.producer (), .goOn), (.producer (), .goOn), (.producer (), .goOn), (.producer (), .goOn),
   (.producer (), .goOn)]

/-- The task that has been posted takes the command. -/
def taskRun : List (HandlerThread Unit × HandlerInput) :=
  [(.js, .runTask), (.js, .goOn), (.js, .goOn), (.js, .goOn), (.js, .goOn), (.js, .goOn),
   (.js, .goOn)]

theorem commands_delivered_taskRun :
    ∃ s, ∃ h : (HandlerThreads.init Unit false).run (handlerNext true)
        (sentToIdleThread ++ taskRun) = some s,
      ((ofSchedule h).states 1).shared.enqueued = 1 ∧
        ∃ m, 1 ≤ m ∧ 0 ∈ ((ofSchedule h).states m).shared.dispatched := by
  refine ⟨_, rfl, rfl, commands_delivered rfl ?_ ?_ ?_ ?_ Nat.one_pos⟩
  · exact fair_js_ofSchedule _ rfl
  · exact fair_producer_ofSchedule _ fun _ => rfl
  · exact handlersReturn_ofSchedule _ rfl
  · exact postedTasksRun_ofSchedule _ rfl (by decide)

/-- Without a function to post tasks with, the command stays in the queue
although all threads are fair. -/
theorem command_not_delivered :
    ∃ s, ∃ h : (HandlerThreads.init Unit false).run (handlerNext false) sentToIdleThread = some s,
      (ofSchedule h).Fair .js InProcessCommand ∧
      (∀ t, (ofSchedule h).Fair (.producer t) (· ≠ .producer .idle)) ∧
      HandlersReturn (.ofSchedule h) ∧ PostedTasksRun (.ofSchedule h) ∧
      0 < ((ofSchedule h).states 8).shared.enqueued ∧
      ∀ m, 8 ≤ m → 0 ∉ ((ofSchedule h).states m).shared.dispatched := by
  refine ⟨_, rfl, ?_, ?_, ?_, ?_, Nat.one_pos, ?_⟩
  · exact fair_js_ofSchedule _ rfl
  · exact fair_producer_ofSchedule _ fun _ => rfl
  · exact handlersReturn_ofSchedule _ rfl
  · exact postedTasksRun_ofSchedule _ rfl (by decide)
  · exact fun m hm => not_mem_dispatched_ofSchedule _ (by decide) hm

end ArkToolchain
