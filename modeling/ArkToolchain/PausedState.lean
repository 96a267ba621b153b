/-
Pauses of the dynamic debugger: what ends them, and what `debuggerState_` says about them.

All waits share `waitingForDebugger_`, and a wait ends whenever the flag is down and the queue
is empty.  The script that a handler runs may pause again; what ends the inner pause then also
ends the outer one.  `Runtime.runIfWaitingForDebugger` and `Debugger.replyNativeCalling` lower
the flag without a change of `debuggerState_`.

Main results: `paused_only_in_pause` and `pauses_end_resumed`.
-/
import ArkToolchain.CommandOrder

namespace ArkToolchain

open ProtocolHandler

open HandlerThreads

open Threads

variable {Θ : Type*}

/-! ### Requests during a pause -/

/-- The request that the innermost call dispatches next. -/
def nextRequest : List JsCall → Option Request
  | .processCommand _ (.dispatching (command :: _)) :: _ => some command.request
  | _ => none

/-- The requests that end waits and leave `debuggerState_` as it is. -/
def Request.releases : Request → Bool
  | .runIfWaitingForDebugger => true
  | .replyNativeCalling => true
  | _ => false

/-- The requests that release waits are dispatched only if `P`. -/
def ReleasesOnlyIf (P : Prop) (calls : List JsCall) : Prop :=
  ∀ request ∈ nextRequest calls, request.releases = true → P

instance decidableReleasesOnlyIf (P : Prop) [Decidable P] (calls : List JsCall) :
    Decidable (ReleasesOnlyIf P calls) :=
  inferInstanceAs (Decidable (∀ request ∈ nextRequest calls, request.releases = true → P))

namespace ProtocolHandler

variable (q : ProtocolHandler)

theorem pauses_resumed : q.resumed.pauses = q.pauses := by
  unfold resumed
  split <;> rfl

@[simp] theorem debuggerState_resumed : q.resumed.debuggerState = q.debuggerState := by
  unfold resumed
  split <;> rfl

variable (pauses : List Bool)

theorem length_goesOn : (goesOn pauses).length = pauses.length := by
  cases pauses <;> rfl

theorem tail_goesOn : (goesOn pauses).tail = pauses.tail := by
  cases pauses <;> rfl

theorem forall_mem_goesOn {pauses : List Bool} (h : ∀ b ∈ pauses.tail, b = true) :
    ∀ b ∈ goesOn pauses, b = true := by
  cases pauses with
  | nil => exact nofun
  | cons b pauses =>
    intro b hb
    rcases List.mem_cons.mp hb with rfl | hb
    · rfl
    · exact h b hb

@[simp] theorem debuggerState_leaveWait (wait : Option WaitKind) :
    (q.leaveWait wait).debuggerState = q.debuggerState := by
  unfold leaveWait
  split <;> rfl

end ProtocolHandler

variable {i : HandlerInput}

theorem ProducerStep.pauses {debuggerPostTask : Bool} {q q' : ProtocolHandler} {pc pc' : ProducerPc}
    (h : ProducerStep debuggerPostTask q pc i q' pc') :
    q'.waitingForDebugger = q.waitingForDebugger ∧ q'.debuggerState = q.debuggerState ∧
      q'.pauses = q.pauses := by
  cases h with
  | _ => exact ⟨rfl, rfl, rfl⟩

/-! ### What ends a pause -/

/-- A request to go on has been handled in every pause while it was the
innermost. -/
def AllResumed (q : ProtocolHandler) : Prop :=
  ∀ b ∈ q.pauses, b = true

instance decidableAllResumed (q : ProtocolHandler) : Decidable (AllResumed q) :=
  inferInstanceAs (Decidable (∀ b ∈ q.pauses, b = true))

/-- `ProcessCommand` in the wait for a pause. -/
def JsCall.isPause : JsCall → Bool
  | .processCommand wait _ => wait = some .pause
  | .handler _ => false

structure PauseInv (q : ProtocolHandler) (calls : List JsCall) : Prop where
  length : q.pauses.length = calls.countP JsCall.isPause
  waiting : q.waitingForDebugger = false → AllResumed q
  outer : ∀ b ∈ q.pauses.tail, b = true

namespace PauseInv

variable {q q' : ProtocolHandler} {calls calls' : List JsCall} {i : HandlerInput}

theorem goOn (h : PauseInv q calls) (hpauses : q'.pauses = goesOn q.pauses) :
    PauseInv q' calls := by
  refine ⟨?_, fun _ => ?_, ?_⟩
  · rw [hpauses, length_goesOn]
    exact h.length
  · unfold AllResumed
    rw [hpauses]
    exact forall_mem_goesOn h.outer
  · rw [hpauses, tail_goesOn]
    exact h.outer

theorem release (h : PauseInv q calls) (hall : AllResumed q) (hpauses : q'.pauses = q.pauses) :
    PauseInv q' calls := by
  refine ⟨?_, fun _ => ?_, ?_⟩
  · rw [hpauses]
    exact h.length
  · unfold AllResumed
    rw [hpauses]
    exact hall
  · rw [hpauses]
    exact h.outer

theorem handled {request : Request} (h : PauseInv q calls) (hhandled : Handled q request q')
    (hreleases : request.releases = true → AllResumed q) : PauseInv q' calls := by
  cases hhandled with
  | refused => exact h
  | goOn hrequest hpaused => exact h.goOn (congrArg goesOn q.pauses_resumed)
  | drop hpaused => exact h.goOn rfl
  | enable => exact ⟨h.length, h.waiting, h.outer⟩
  | disable =>
    exact h.goOn (congrArg goesOn q.runIfWaitingForDebugger.pauses_resumed)
  | release => exact h.release (hreleases rfl) rfl
  | reply => exact h.release (hreleases rfl) q.pauses_resumed

/-- **Pauses, one step**: script pauses, and waits are ended otherwise, only
after the pauses have been resumed. -/
theorem step (h : PauseInv q calls) (hstep : JsStep q calls i q' calls')
    (hpause : i = .notifyPaused → AllResumed q)
    (hreleases : i = .goOn → ReleasesOnlyIf (AllResumed q) calls) : PauseInv q' calls' := by
  cases hstep with
  | wait kind hscript =>
    cases kind with
    | pause => exact ⟨by simp [enterWait, JsCall.isPause, h.length], nofun, hpause rfl⟩
    | nativeCalling | start => exact ⟨h.length, nofun, h.outer⟩
  | @leave _ wait hqueue hwaiting =>
    by_cases hwait : wait = some .pause
    · subst hwait
      have hall := h.waiting hwaiting
      have hlength : q.pauses.length = calls'.countP JsCall.isPause + 1 :=
        h.length.trans (List.countP_cons_of_pos rfl)
      refine ⟨?_, fun _ b hb => hall b (List.mem_of_mem_tail hb), fun b hb => ?_⟩
      · show q.pauses.tail.length = _
        rw [List.length_tail, hlength, Nat.add_sub_cancel]
      · exact hall b (List.mem_of_mem_tail (List.mem_of_mem_tail hb))
    · have hsame : q.leaveWait wait = q := by
        unfold leaveWait
        split
        · exact absurd rfl hwait
        · rfl
      rw [hsame]
      exact ⟨by simpa [JsCall.isPause, hwait] using h.length, h.waiting, h.outer⟩
  | dispatch command queue =>
    obtain ⟨hlength, hwaiting, houter⟩ := h.handled (q.handled_handle command.request)
      (hreleases rfl _ rfl)
    exact ⟨hlength, hwaiting, houter⟩
  | _ => exact ⟨h.length, h.waiting, h.outer⟩

end PauseInv

/-- If a step ends the wait for a pause, a request to go on has been handled
while that pause was the innermost. -/
def EndsResumed (s : HandlerThreads Θ) (t : HandlerThread Θ) (i : HandlerInput) : Prop :=
  t = .js → i = .goOn → s.calls.head? = some (.processCommand (some .pause) .check) →
    s.shared.requestQueue = [] → s.shared.waitingForDebugger = false →
      s.shared.pauses.head? = some true

theorem PauseInv.endsResumed {s : HandlerThreads Θ} {t : HandlerThread Θ}
    (h : PauseInv s.shared s.calls) : EndsResumed s t i := by
  intro _ _ htop _ hwaiting
  obtain ⟨calls, hcalls⟩ := List.head?_eq_some_iff.mp htop
  have hlength := h.length
  rw [hcalls] at hlength
  rcases hpauses : s.shared.pauses with - | ⟨b, pauses⟩
  · rw [hpauses] at hlength
    simp [JsCall.isPause] at hlength
  · rw [List.head?_cons, h.waiting hwaiting b (by simp [hpauses])]

/-- Script pauses, and waits are released, only after all pauses have been
resumed. -/
def PausesApart (s : HandlerThreads Θ) (t : HandlerThread Θ) (i : HandlerInput) : Prop :=
  t = .js → (i = .notifyPaused → AllResumed s.shared) ∧
    (i = .goOn → ReleasesOnlyIf (AllResumed s.shared) s.calls)

section Pauses

variable [DecidableEq Θ] {debuggerPostTask : Bool} {s s' : HandlerThreads Θ} {t : HandlerThread Θ}
  {i : HandlerInput}

instance decidablePausesApart (s : HandlerThreads Θ) (t : HandlerThread Θ) (i : HandlerInput) :
    Decidable (PausesApart s t i) :=
  inferInstanceAs (Decidable (_ → _ ∧ _))

theorem PauseInv.handlerStep (h : PauseInv s.shared s.calls)
    (hstep : HandlerStep debuggerPostTask s s' t i) (hapart : PausesApart s t i) :
    PauseInv s'.shared s'.calls := by
  cases hstep with
  | producer u pc hstep hcalls hpcs =>
    obtain ⟨hwaiting, -, hpauses⟩ := hstep.pauses
    rw [hcalls]
    refine ⟨?_, ?_, ?_⟩
    · rw [hpauses]
      exact h.length
    · unfold AllResumed
      rw [hwaiting, hpauses]
      exact h.waiting
    · rw [hpauses]
      exact h.outer
  | js hstep hpcs => exact h.step hstep (hapart rfl).1 (hapart rfl).2
  | system hshared hcalls hpcs =>
    rw [hshared, hcalls]
    exact ⟨h.length, h.waiting, h.outer⟩

omit [DecidableEq Θ] in
theorem PauseInv.init (debugMode : Bool) :
    PauseInv (init Θ debugMode).shared (init Θ debugMode).calls where
  length := rfl
  waiting _ := List.forall_mem_nil (· = true)
  outer := List.forall_mem_nil (· = true)

/-- **One request ends one pause**: in every run in which script does not pause
inside a pause that has not been resumed, and waits are not released then, every
wait for a pause ends after a request to go on that was handled while the pause
was the innermost. -/
theorem pauses_end_resumed (debugMode : Bool) (schedule : List (HandlerThread Θ × HandlerInput))
    (h : EachStep (handlerNext debuggerPostTask) PausesApart (init Θ debugMode) schedule) :
    EachStep (handlerNext debuggerPostTask) EndsResumed (init Θ debugMode) schedule := by
  refine h.imp (I := fun s : HandlerThreads Θ => PauseInv s.shared s.calls) ?_ (.init debugMode)
  intro s t i s' hinv hstep hapart
  exact ⟨hinv.endsResumed, hinv.handlerStep (.of_step hstep) hapart⟩

end Pauses

/-- A pause that is resumed, and the next one. -/
def pausedTwice : List (HandlerThread Unit × HandlerInput) :=
  [(.js, .notifyPaused), (.producer (), .onMessage .resume), (.js, .goOn), (.js, .goOn),
   (.js, .goOn), (.js, .goOn), (.js, .goOn), (.js, .goOn), (.js, .notifyPaused)]

theorem pauses_end_resumed_pausedTwice :
    (init Unit true).run (handlerNext true) pausedTwice ≠ none ∧
      EachStep (handlerNext true) EndsResumed (init Unit true)
        pausedTwice :=
  ⟨nofun, pauses_end_resumed true pausedTwice (by decide)⟩

/-- Script that is evaluated in a pause pauses again, and is resumed. -/
def pausedInside : List (HandlerThread Unit × HandlerInput) :=
  [(.js, .notifyPaused),
   (.producer (), .onMessage .evaluate), (.producer (), .goOn), (.producer (), .goOn),
   (.js, .goOn), (.js, .goOn), (.js, .goOn), (.js, .notifyPaused),
   (.producer (), .onMessage .resume),
   (.js, .goOn), (.js, .goOn), (.js, .goOn), (.js, .goOn), (.js, .goOn), (.js, .goOn),
   (.js, .goOn), (.js, .goOn)]

/-- Then the outer pause ends too, although it has not been resumed. -/
theorem outer_pause_ends :
    ∃ s : HandlerThreads Unit,
      (init Unit true).run (handlerNext true) pausedInside = some s ∧
      s.calls = [.processCommand (some .pause) .check] ∧ s.shared.pauses = [false] ∧
      s.shared.dispatched = [0, 1] ∧ ¬ EndsResumed s .js .goOn := by
  refine ⟨_, rfl, rfl, rfl, rfl, ?_⟩
  intro hends
  exact absurd (hends rfl rfl rfl rfl rfl) (by decide)

/-! ### What `debuggerState_` says -/

/-- What the innermost call of `ProcessCommand` waits for. -/
def innermostWait : List JsCall → Option WaitKind
  | [] => none
  | .handler _ :: calls => innermostWait calls
  | .processCommand wait _ :: _ => wait

structure PausedInv (q : ProtocolHandler) (calls : List JsCall) : Prop where
  waiting : q.debuggerState = .paused → q.waitingForDebugger = true
  inside : q.debuggerState = .paused → innermostWait calls = some .pause

namespace PausedInv

variable {q q' : ProtocolHandler} {calls calls' : List JsCall} {i : HandlerInput}

theorem of_not_paused (h : q.debuggerState ≠ .paused) : PausedInv q calls :=
  ⟨fun hpaused => absurd hpaused h, fun hpaused => absurd hpaused h⟩

theorem not_paused_of_nil (h : PausedInv q []) : q.debuggerState ≠ .paused := by
  intro hpaused
  cases h.inside hpaused

theorem handled {request : Request} (h : PausedInv q calls) (hhandled : Handled q request q')
    (hreleases : request.releases = true → q.debuggerState ≠ .paused) : PausedInv q' calls := by
  cases hhandled with
  | refused => exact h
  | goOn hrequest hpaused | drop hpaused | enable | disable => exact of_not_paused nofun
  | release => exact of_not_paused (hreleases rfl)
  | reply =>
    refine of_not_paused ?_
    rw [q.debuggerState_resumed]
    exact hreleases rfl

end PausedInv

/-- Script pauses only if there is a frontend; while the debugger is paused
script does not wait for native code or process commands, and waits are not
released. -/
def KeepsPaused (q : ProtocolHandler) (calls : List JsCall) (i : HandlerInput) : Prop :=
  (i = .notifyPaused → q.debugMode = true) ∧
  (i = .notifyNativeCalling → q.debuggerState ≠ .paused) ∧
  (i = .notifyHandleProtocolCommand → q.debuggerState ≠ .paused) ∧
  (i = .goOn → ReleasesOnlyIf (q.debuggerState ≠ .paused) calls)

section Paused

variable {q q' : ProtocolHandler} {calls calls' : List JsCall} {i : HandlerInput}

/-- **The paused state, one step.** -/
theorem PausedInv.step (h : PausedInv q calls) (hstep : JsStep q calls i q' calls')
    (hkeeps : KeepsPaused q calls i) : PausedInv q' calls' := by
  obtain ⟨hmode, hnative, hcommands, hreleases⟩ := hkeeps
  cases hstep with
  | wait kind hscript hstart =>
    cases kind with
    | pause => exact ⟨fun _ => rfl, fun _ => rfl⟩
    | nativeCalling => exact .of_not_paused (hnative rfl)
    | start =>
      obtain rfl := hstart rfl
      exact .of_not_paused h.not_paused_of_nil
  | pauseUnseen hscript hunseen =>
    rw [hmode rfl] at hunseen
    cases hunseen
  | handleCommands hscript => exact .of_not_paused (hcommands rfl)
  | runTask htasks => exact .of_not_paused h.not_paused_of_nil
  | leave hqueue hwaiting =>
    -- the flag is down, so that the debugger is not paused
    refine .of_not_paused ?_
    rw [q.debuggerState_leaveWait]
    intro hpaused
    rw [h.waiting hpaused] at hwaiting
    cases hwaiting
  | dispatch command queue =>
    obtain ⟨hwaiting, hinside⟩ := h.handled (q.handled_handle command.request) (hreleases rfl _ rfl)
    exact ⟨hwaiting, hinside⟩
  | _ => exact ⟨h.waiting, h.inside⟩

/-- `Resume` and the steps are accepted only if the debugger is paused. -/
theorem paused_of_accepted {request : Request} (hrequest : request.goesOn = true)
    (h : (q.handle request).1 = .ok) : q.debuggerState = .paused := by
  by_contra hpaused
  cases request with
  | resume | step type hasStepper => simp [handle, hpaused] at h
  | _ => cases hrequest

end Paused

/-- A request to go on is accepted only in the wait for a pause. -/
def AcceptsInPause (s : HandlerThreads Θ) (t : HandlerThread Θ) (i : HandlerInput) : Prop :=
  t = .js → i = .goOn → ∀ request ∈ nextRequest s.calls, request.goesOn = true →
    (s.shared.handle request).1 = .ok → innermostWait s.calls = some .pause

section PausedRuns

variable [DecidableEq Θ] {debuggerPostTask : Bool} {s s' : HandlerThreads Θ} {t : HandlerThread Θ}
  {i : HandlerInput}

/-- Steps of the JS thread meet the condition. -/
def PausedApart (s : HandlerThreads Θ) (t : HandlerThread Θ) (i : HandlerInput) : Prop :=
  t = .js → KeepsPaused s.shared s.calls i

instance decidablePausedApart (s : HandlerThreads Θ) (t : HandlerThread Θ) (i : HandlerInput) :
    Decidable (PausedApart s t i) :=
  inferInstanceAs (Decidable (_ → _ ∧ _ ∧ _ ∧ _))

theorem PausedInv.handlerStep (h : PausedInv s.shared s.calls)
    (hstep : HandlerStep debuggerPostTask s s' t i) (hapart : PausedApart s t i) :
    PausedInv s'.shared s'.calls := by
  cases hstep with
  | producer u pc hstep hcalls hpcs =>
    obtain ⟨hwaiting, hstate, -⟩ := hstep.pauses
    rw [hcalls]
    refine ⟨?_, ?_⟩
    · rw [hstate, hwaiting]
      exact h.waiting
    · rw [hstate]
      exact h.inside
  | js hstep hpcs => exact h.step hstep (hapart rfl)
  | system hshared hcalls hpcs =>
    rw [hshared, hcalls]
    exact ⟨h.waiting, h.inside⟩

/-- **The paused state**: in every run whose steps meet the condition the
debugger is `PAUSED` only in the wait for a pause, and `Resume` and the steps
are accepted only there. -/
theorem paused_only_in_pause (debugMode : Bool) (schedule : List (HandlerThread Θ × HandlerInput))
    (h : EachStep (handlerNext debuggerPostTask) PausedApart (init Θ debugMode) schedule) :
    Always (handlerNext debuggerPostTask)
        (fun s : HandlerThreads Θ => s.shared.debuggerState = .paused →
          innermostWait s.calls = some .pause)
        (init Θ debugMode) schedule ∧
      EachStep (handlerNext debuggerPostTask) AcceptsInPause (init Θ debugMode) schedule := by
  have hinit : PausedInv (init Θ debugMode).shared (init Θ debugMode).calls := .of_not_paused nofun
  constructor
  · refine h.always (I := fun s : HandlerThreads Θ => PausedInv s.shared s.calls)
      (fun s hinv => hinv.inside) ?_ hinit
    intro s t i s' hinv hstep hapart
    exact hinv.handlerStep (.of_step hstep) hapart
  · refine h.imp (I := fun s : HandlerThreads Θ => PausedInv s.shared s.calls) ?_ hinit
    intro s t i s' hinv hstep hapart
    refine ⟨fun _ _ request _ hrequest haccepted => ?_, hinv.handlerStep (.of_step hstep) hapart⟩
    exact hinv.inside (paused_of_accepted hrequest haccepted)

end PausedRuns

theorem paused_only_in_pause_pausedInside :
    (init Unit true).run (handlerNext true) pausedInside ≠ none ∧
      EachStep (handlerNext true) AcceptsInPause (init Unit true)
        pausedInside :=
  ⟨nofun, (paused_only_in_pause true pausedInside (by decide)).2⟩

/-- `Runtime.runIfWaitingForDebugger` comes during a pause. -/
def releasedInPause : List (HandlerThread Unit × HandlerInput) :=
  [(.js, .notifyPaused),
   (.producer (), .onMessage .runIfWaitingForDebugger), (.producer (), .goOn),
   (.producer (), .goOn),
   (.js, .goOn), (.js, .goOn), (.js, .goOn), (.js, .goOn), (.js, .goOn), (.js, .goOn)]

/-- Later, at a point where commands are processed, the script is resumed. -/
def resumedLater : List (HandlerThread Unit × HandlerInput) :=
  [(.producer (), .onMessage .resume), (.js, .notifyHandleProtocolCommand), (.js, .goOn),
   (.js, .goOn)]

/-- The wait is over and script runs, but the debugger is `PAUSED`, and accepts a
request to go on. -/
theorem paused_while_script_runs :
    ∃ s s' : HandlerThreads Unit,
      (init Unit true).run (handlerNext true) releasedInPause = some s ∧
      s.calls = [] ∧ s.shared.debuggerState = .paused ∧
      s.run (handlerNext true) resumedLater = some s' ∧ ¬ AcceptsInPause s' .js .goOn := by
  refine ⟨_, _, rfl, rfl, rfl, rfl, ?_⟩
  intro haccepts
  cases haccepts rfl rfl .resume rfl rfl rfl

end ArkToolchain
