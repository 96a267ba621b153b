/-
Requests that are handled synchronously (`Call` and `RunSync` of `server_endpoint_base.cpp`, and
`SendMessage` of `ohos_ws_server_endpoint.h`).

While `RunSync` handles its message, a flag diverts what is sent into a slot, from which
`RunSync` takes its response.  But the flag is one for all threads: a response of the server
thread, or an event that was raised just before, goes into the slot instead of to the client.

A step is a locked section or a read of the flag.

Main result: `sync_correct_iff`.
-/
import ArkToolchain.Interleaving
import ArkToolchain.StaticEndpoint

namespace ArkToolchain

open Threads

namespace StaticEndpoint

/-! ### Threads -/

inductive SyncThread
  | caller
  | server
  | application (n : Nat)
  deriving DecidableEq

structure SyncState where
  syncMode : Bool := false
  /-- with the thread that has stored it -/
  syncResponse : Option (SyncThread × JsonObject) := none
  /-- the owner of `methodHandlersMutex_` -/
  handling : Option SyncThread := none
  /-- the messages that the threads have given to the connection -/
  sent : List (SyncThread × JsonObject) := []
  /-- the messages that have been handled, with what is to be sent for them -/
  handled : List (SyncThread × List JsonObject) := []
  /-- the messages given to `RunSync`, with what it has returned for them -/
  returned : List (JsonObject × Option JsonObject) := []

open SyncState

inductive SyncPc
  | idle
  /-- in `ParseMessage` -/
  | parsing (request : JsonObject)
  /-- before `Call` or, with a response, `SendMessage` for the first of the messages -/
  | sending (request : JsonObject) (messages : List JsonObject)
  /-- `Call` goes on to `SendMessage` -/
  | calling (request message : JsonObject) (messages : List JsonObject)
  /-- `SendMessage` goes on to `SetSyncResponse` -/
  | storing (request message : JsonObject) (messages : List JsonObject)
  /-- in the last section of `RunSync` -/
  | waiting (request : JsonObject)

/-- What the environment supplies for a step. -/
structure SyncInput where
  /-- a new message, and the handlers with what they do about it -/
  request : JsonObject := []
  handlers : List (Bytes × Handler) := []
  /-- there is a connection, or a new one has been accepted -/
  connected : Bool := true
  /-- five seconds are over -/
  timedOut : Bool := false
  event : Event := { sessionId := [], method := [], params := [] }

/-- `HandleMessage` takes the mutex. -/
def isCall (request : JsonObject) : Bool :=
  (request.getString "method").isSome && (request.getObject "result").isNone

/-- What follows `ParseMessage`. -/
def afterParse : SyncThread → JsonObject → SyncPc
  | .caller, request => .waiting request
  | _, _ => .idle

/-- `SendMessage`: the flag is read, and if it is not set, the message is sent. -/
def sendMessage (t : SyncThread) (sh : SyncState) (request message : JsonObject)
    (rest : List JsonObject) : SyncState × SyncPc :=
  if sh.syncMode then (sh, .storing request message rest)
  else ({ sh with sent := sh.sent ++ [(t, message)] }, .sending request rest)

def syncNext (t : SyncThread) (sh : SyncState) (pc : SyncPc) (i : SyncInput) :
    Option (SyncState × SyncPc) :=
  match pc with
  | .idle =>
    match t with
    -- the first section of `RunSync`
    | .caller => some ({ sh with syncMode := true, syncResponse := none }, .parsing i.request)
    | .server => some (sh, .parsing i.request)
    | .application _ =>
      some (sh, .sending [] [call i.event.sessionId none i.event.method i.event.params])
  | .parsing request =>
    if !i.connected then some (sh, afterParse t request)
    else if isCall request && sh.handling.isSome then none
    else
      let messages := ((EndpointBase.ofHandlers i.handlers).handleMessage (some request)).2
      some ({ sh with
        handling := if isCall request then some t else sh.handling,
        handled := sh.handled ++ [(t, messages)] }, .sending request messages)
  | .sending request [] =>
    some ({ sh with handling := if sh.handling = some t then none else sh.handling },
      afterParse t request)
  | .sending request (message :: rest) =>
    if isResponse message then some (sendMessage t sh request message rest)
    -- in sync mode, `Call` drops the event
    else if sh.syncMode then some (sh, .sending request rest)
    else some (sh, .calling request message rest)
  | .calling request message rest => some (sendMessage t sh request message rest)
  | .storing request message rest =>
    some ({ sh with syncResponse := some (t, message) }, .sending request rest)
  | .waiting request =>
    match sh.syncResponse with
    | some (_, message) =>
      some ({ sh with
        syncMode := false, syncResponse := none,
        returned := sh.returned ++ [(request, some message)] }, .idle)
    | none =>
      if i.timedOut then
        some ({ sh with
          syncMode := false, returned := sh.returned ++ [(request, none)] }, .idle)
      else none

abbrev SyncThreads := Threads SyncThread SyncState SyncPc

def syncStart : SyncThreads := { shared := {}, pcs := fun _ => .idle }

/-! ### What is wanted -/

/-- The responses that a thread has still to send. -/
def SyncPc.pending : SyncPc → List JsonObject
  | sending _ messages => messages.filter isResponse
  | calling _ _ rest => rest.filter isResponse
  | storing _ _ rest => rest.filter isResponse
  | _ => []

/-- The responses among the messages that a thread has handled. -/
def SyncState.responses (sh : SyncState) (t : SyncThread) : List JsonObject :=
  (sh.handled.filter fun h => h.1 = t).flatMap fun h => h.2.filter isResponse

def SyncState.sentResponses (sh : SyncState) (t : SyncThread) : List JsonObject :=
  ((sh.sent.filter fun m => m.1 = t).map Prod.snd).filter isResponse

/-- `RunSync` has returned responses to its messages only, and the other threads send all
of theirs. -/
structure SyncCorrect (s : SyncThreads) : Prop where
  returned : ∀ r ∈ s.shared.returned, ∀ response, r.2 = some response →
    isResponse response = true ∧ response.getNum "id" = r.1.getNum "id"
  sent : ∀ t, t ≠ .caller → s.shared.responses t = s.shared.sentResponses t ++ (s.pcs t).pending

/-! ### The condition -/

/-- The thread is in `SendMessage` with a response. -/
def SyncPc.replies : SyncPc → Bool
  | sending _ (message :: _) => isResponse message
  | _ => false

def SyncPc.waits : SyncPc → Bool
  | waiting _ => true
  | _ => false

/-- The step is no reply of another thread in sync mode, and no return of `RunSync` with
what another thread has stored. -/
def Undisturbed (s : SyncThreads) (t : SyncThread) (_ : SyncInput) : Prop :=
  (t ≠ .caller → (s.pcs t).replies = true → s.shared.syncMode = false) ∧
    (t = .caller → (s.pcs t).waits = true → ∀ stored ∈ s.shared.syncResponse, stored.1 = .caller)

/-! ### The invariant -/

def SyncPc.isIdle : SyncPc → Bool
  | idle => true
  | _ => false

def SyncPc.request : SyncPc → JsonObject
  | idle => []
  | parsing request => request
  | sending request _ => request
  | calling request _ _ => request
  | storing request _ _ => request
  | waiting request => request

/-- The responses among the messages are to the request. -/
def RespondTo (request : JsonObject) (messages : List JsonObject) : Prop :=
  ∀ message ∈ messages, isResponse message = true → message.getNum "id" = request.getNum "id"

def PcFine (t : SyncThread) : SyncPc → Prop
  | .idle => True
  | .parsing _ => True
  | .sending request messages => RespondTo request messages
  | .calling request message rest =>
    t ≠ .caller ∧ isResponse message = false ∧ RespondTo request rest
  | .storing request message rest =>
    (t = .caller ↔ isResponse message = true) ∧ RespondTo request (message :: rest)
  | .waiting _ => t = .caller

/-- What a thread leaves in the slot: the caller its response, another thread an event. -/
def SlotFine (request : JsonObject) (stored : SyncThread × JsonObject) : Prop :=
  (stored.1 = .caller ↔ isResponse stored.2 = true) ∧
    (isResponse stored.2 = true → stored.2.getNum "id" = request.getNum "id")

structure SyncInv (s : SyncThreads) : Prop extends SyncCorrect s where
  mode : s.shared.syncMode = !(s.pcs .caller).isIdle
  fine : ∀ t, PcFine t (s.pcs t)
  slot : ∀ stored ∈ s.shared.syncResponse, SlotFine (s.pcs .caller).request stored

/-! ### What a step does -/

/-- The effect of a step of `t` on the shared state, and its new counter. -/
structure SyncStep (t : SyncThread) (sh : SyncState) (pc : SyncPc) (sh' : SyncState)
    (pc' : SyncPc) : Prop where
  mode : sh'.syncMode = if t = .caller then !pc'.isIdle else sh.syncMode
  fine : PcFine t pc'
  slot : ∀ stored ∈ sh'.syncResponse,
    (stored ∈ sh.syncResponse ∧ (t = .caller → pc'.request = pc.request)) ∨
      stored.1 = t ∧ SlotFine pc'.request stored
  returned : ∀ r ∈ sh'.returned, r ∈ sh.returned ∨ ∀ response, r.2 = some response →
    isResponse response = true ∧ response.getNum "id" = r.1.getNum "id"
  own : t ≠ .caller → sh.responses t = sh.sentResponses t ++ pc.pending →
    sh'.responses t = sh'.sentResponses t ++ pc'.pending
  others : ∀ u, u ≠ t → sh'.responses u = sh.responses u ∧ sh'.sentResponses u = sh.sentResponses u

variable {t : SyncThread}

theorem SyncInv.update {s : SyncThreads} (hinv : SyncInv s) {sh' : SyncState} {pc' : SyncPc}
    (hstep : SyncStep t s.shared (s.pcs t) sh' pc') :
    SyncInv { shared := sh', pcs := Function.update s.pcs t pc' } where
  returned r hr response hresponse := by
    rcases hstep.returned r hr with hold | hnew
    · exact hinv.returned r hold response hresponse
    · exact hnew response hresponse
  sent u hu := by
    show sh'.responses u = sh'.sentResponses u ++ (Function.update s.pcs t pc' u).pending
    by_cases htu : u = t
    · subst htu
      rw [Function.update_self]
      exact hstep.own hu (hinv.sent u hu)
    · rw [Function.update_of_ne htu, (hstep.others u htu).1, (hstep.others u htu).2]
      exact hinv.sent u hu
  mode := by
    show sh'.syncMode = !(Function.update s.pcs t pc' .caller).isIdle
    by_cases ht : t = .caller
    · subst ht
      rw [Function.update_self]
      exact hstep.mode
    · rw [Function.update_of_ne (Ne.symm ht), ← hinv.mode, hstep.mode, if_neg ht]
  fine := by
    show ∀ u, PcFine u (Function.update s.pcs t pc' u)
    rw [Function.forall_update_iff s.pcs fun u pc => PcFine u pc]
    exact ⟨hstep.fine, fun u _ => hinv.fine u⟩
  slot stored hstored := by
    show SlotFine (Function.update s.pcs t pc' .caller).request stored
    by_cases ht : t = .caller
    · subst ht
      rw [Function.update_self]
      rcases hstep.slot stored hstored with ⟨hold, hsame⟩ | ⟨-, hnew⟩
      · rw [hsame rfl]
        exact hinv.slot stored hold
      · exact hnew
    · rw [Function.update_of_ne (Ne.symm ht)]
      rcases hstep.slot stored hstored with ⟨hold, -⟩ | ⟨hby, hnew⟩
      · exact hinv.slot stored hold
      · -- another thread has left an event
        refine ⟨hnew.1, fun hresponse => absurd (hnew.1.mpr hresponse) ?_⟩
        rw [hby]
        exact ht

namespace SyncStep

variable {t : SyncThread} {sh sh' : SyncState} {pc pc' : SyncPc} {i : SyncInput}

theorem quiet {handling : Option SyncThread}
    (hcaller : t = .caller → sh.syncMode = !pc'.isIdle ∧ pc'.request = pc.request)
    (hfine : PcFine t pc') (hpending : t ≠ .caller → pc'.pending = pc.pending) :
    SyncStep t sh pc { sh with handling } pc' where
  mode := by
    split
    · next ht => exact (hcaller ht).1
    · rfl
  fine := hfine
  slot stored hstored := .inl ⟨hstored, fun ht => (hcaller ht).2⟩
  returned r hr := .inl hr
  own ht h := by
    rw [hpending ht]
    exact h
  others u _ := ⟨rfl, rfl⟩

variable {request message : JsonObject} {rest : List JsonObject}

theorem send (ht : t ≠ .caller) (hfine : RespondTo request rest)
    (hpending : pc.pending = [message].filter isResponse ++ rest.filter isResponse) :
    SyncStep t sh pc { sh with sent := sh.sent ++ [(t, message)] } (.sending request rest) where
  mode := by rw [if_neg ht]
  fine := hfine
  slot stored hstored := .inl ⟨hstored, fun h => absurd h ht⟩
  returned r hr := .inl hr
  own _ h := by
    show sh.responses t = _
    rw [h, hpending, sentResponses, sentResponses, List.filter_append,
      List.map_append, List.filter_append]
    simp [SyncPc.pending]
  others u hu := by
    refine ⟨rfl, ?_⟩
    rw [sentResponses, sentResponses, List.filter_append]
    simp [Ne.symm hu]

theorem store (hmode : t = .caller → sh.syncMode = true)
    (hfine : PcFine t (.storing request message rest)) :
    SyncStep t sh (.storing request message rest) { sh with syncResponse := some (t, message) }
      (.sending request rest) where
  mode := by
    split
    · next ht => exact hmode ht
    · rfl
  fine m hm := hfine.2 m (List.mem_cons_of_mem _ hm)
  slot stored hstored := by
    obtain rfl := Option.some.inj hstored
    exact .inr ⟨rfl, hfine.1, hfine.2 message List.mem_cons_self⟩
  returned r hr := .inl hr
  own _ h := h
  others u _ := ⟨rfl, rfl⟩

theorem handle (handlers : List (Bytes × Handler)) (handling : Option SyncThread)
    (hmode : t = .caller → sh.syncMode = true) :
    let messages := ((EndpointBase.ofHandlers handlers).handleMessage (some request)).2
    SyncStep t sh (.parsing request)
      { sh with handling, handled := sh.handled ++ [(t, messages)] }
      (.sending request messages) where
  mode := by
    split
    · next ht => exact hmode ht
    · rfl
  fine _ hmem hresponse := getNum_of_isResponse hmem hresponse
  slot stored hstored := .inl ⟨hstored, fun _ => rfl⟩
  returned r hr := .inl hr
  own _ h := by
    have hsent : sh.responses t = sh.sentResponses t := by
      rw [h]
      exact List.append_nil _
    show _ = sh.sentResponses t ++ _
    rw [← hsent, responses, responses, List.filter_append, List.flatMap_append]
    simp [SyncPc.pending]
  others u hu := by
    refine ⟨?_, rfl⟩
    rw [responses, responses, List.filter_append]
    simp [Ne.symm hu]

/-- `RunSync` begins. -/
theorem start (request : JsonObject) :
    SyncStep .caller sh .idle { sh with syncMode := true, syncResponse := none }
      (.parsing request) where
  mode := rfl
  fine := trivial
  slot := nofun
  returned _ hr := .inl hr
  own h := absurd rfl h
  others _ _ := ⟨rfl, rfl⟩

/-- `RunSync` returns. -/
theorem finish {result : Option JsonObject} (hresult : ∀ response, result = some response →
      isResponse response = true ∧ response.getNum "id" = request.getNum "id") :
    SyncStep .caller sh (.waiting request)
      { sh with
        syncMode := false, syncResponse := none, returned := sh.returned ++ [(request, result)] }
      .idle where
  mode := rfl
  fine := trivial
  slot := nofun
  returned r hr := by
    rcases List.mem_append.mp hr with hold | hnew
    · exact .inl hold
    · obtain rfl := List.mem_singleton.mp hnew
      exact .inr hresult
  own h := absurd rfl h
  others u _ := ⟨rfl, rfl⟩

end SyncStep

/-! ### The steps of a run -/

section Next

variable {t : SyncThread} {sh sh' : SyncState} {pc pc' : SyncPc} {i : SyncInput}
  {request : JsonObject}

/-- `ParseMessage` is over. -/
theorem syncStep_afterParse (hmode : t = .caller → sh.syncMode = true)
    (hrequest : pc.request = request) (hpending : pc.pending = []) (handling : Option SyncThread) :
    SyncStep t sh pc { sh with handling } (afterParse t request) := by
  cases t with
  | caller =>
    exact .quiet (fun h => ⟨hmode h, hrequest.symm⟩) rfl fun h => absurd rfl h
  | server | application n => exact .quiet nofun trivial fun _ => hpending.symm

/-- `SendMessage`: the caller stores its response, another thread may store an event. -/
theorem syncStep_sendMessage {message : JsonObject} {rest : List JsonObject}
    (hmode : t = .caller → sh.syncMode = true) (hpc : pc.request = request)
    (hfine : RespondTo request (message :: rest)) (hown : t = .caller → isResponse message = true)
    (hreply : t ≠ .caller → isResponse message = true → sh.syncMode = false)
    (hpending : pc.pending = [message].filter isResponse ++ rest.filter isResponse)
    (hsend : sendMessage t sh request message rest = (sh', pc')) : SyncStep t sh pc sh' pc' := by
  rw [sendMessage] at hsend
  split at hsend
  · next hset =>
      cases hsend
      have hstores : t = .caller ↔ isResponse message = true := by
        refine ⟨hown, fun hresponse => ?_⟩
        by_contra ht
        rw [hreply ht hresponse] at hset
        cases hset
      apply SyncStep.quiet
      · exact fun ht => ⟨hmode ht, hpc.symm⟩
      · exact ⟨hstores, hfine⟩
      · intro ht
        have hevent : [message].filter isResponse = [] := by
          rw [List.filter_cons_of_neg (mt hstores.mpr ht), List.filter_nil]
        rw [hpending, hevent]
        rfl
  · next hset =>
      cases hsend
      have ht : t ≠ .caller := fun ht => hset (hmode ht)
      exact .send ht (fun m hm => hfine m (List.mem_cons_of_mem _ hm)) hpending

theorem syncStep_next (hmode : t = .caller → sh.syncMode = !pc.isIdle) (hfine : PcFine t pc)
    (hslot : t = .caller → ∀ stored ∈ sh.syncResponse, SlotFine pc.request stored)
    (hreplies : t ≠ .caller → pc.replies = true → sh.syncMode = false)
    (hwaits : t = .caller → pc.waits = true → ∀ stored ∈ sh.syncResponse, stored.1 = .caller)
    (hnext : syncNext t sh pc i = some (sh', pc')) : SyncStep t sh pc sh' pc' := by
  revert hnext
  fun_cases syncNext t sh pc i
  case case8 request message rest hresponse =>
    intro hnext
    exact syncStep_sendMessage hmode rfl hfine (fun _ => hresponse) hreplies
      (List.filter_append [message] rest) (Option.some.inj hnext)
  case case11 request message rest =>
    intro hnext
    obtain ⟨ht, hevent, hrest⟩ := hfine
    have hnot : isResponse message ≠ true := by simp [hevent]
    refine syncStep_sendMessage (fun h => absurd h ht) rfl ?_ (fun h => absurd h ht)
      (fun _ h => absurd h hnot) ?_ (Option.some.inj hnext)
    · intro m hm hresponse
      rcases List.mem_cons.mp hm with rfl | hm
      · exact absurd hresponse hnot
      · exact hrest m hm hresponse
    · rw [List.filter_cons_of_neg hnot]
      rfl
  all_goals rintro ⟨⟩
  case case1 => exact .start _
  case case2 => exact .quiet nofun trivial fun _ => rfl
  case case3 =>
    have hevent := isResponse_call i.event.sessionId none i.event.method i.event.params
    refine .quiet nofun ?_ fun _ => ?_
    · rintro m hm hresponse
      obtain rfl := List.mem_singleton.mp hm
      rw [hevent] at hresponse
      cases hresponse
    · rw [SyncPc.pending, List.filter_cons_of_neg (by simp [hevent])]
      rfl
  case case4 => exact syncStep_afterParse hmode rfl rfl sh.handling
  case case6 => exact .handle i.handlers _ hmode
  case case7 => exact syncStep_afterParse hmode rfl rfl _
  case case9 request message rest hevent _ =>
    exact .quiet (fun ht => ⟨hmode ht, rfl⟩)
      (List.forall_mem_of_forall_mem_cons hfine) fun _ => (List.filter_cons_of_neg hevent).symm
  case case10 request message rest hevent hclear =>
    have ht : t ≠ .caller := fun ht => hclear (hmode ht)
    exact .quiet (fun h => absurd h ht)
      ⟨ht, by simpa using hevent, List.forall_mem_of_forall_mem_cons hfine⟩
      fun _ => (List.filter_cons_of_neg hevent).symm
  case case12 => exact .store hmode hfine
  case case13 request w message hstored =>
    obtain rfl : t = .caller := hfine
    apply SyncStep.finish
    intro response hresponse
    obtain rfl := Option.some.inj hresponse
    have hown := (hslot rfl (w, message) hstored).1.mp (hwaits rfl rfl (w, message) hstored)
    exact ⟨hown, (hslot rfl (w, message) hstored).2 hown⟩
  case case14 request hnone _ =>
    obtain rfl : t = .caller := hfine
    rw [hnone]
    exact .finish nofun

end Next

theorem SyncInv.step {s s' : SyncThreads} {i : SyncInput} (hinv : SyncInv s)
    (hstep : s.step syncNext t i = some s') (hcond : Undisturbed s t i) : SyncInv s' := by
  obtain ⟨sh', pc', hnext, rfl⟩ := step_eq_some hstep
  refine hinv.update (syncStep_next ?_ (hinv.fine t) ?_ hcond.1 hcond.2 hnext)
  · rintro rfl
    exact hinv.mode
  · rintro rfl
    exact hinv.slot

theorem SyncPc.eq_of_replies {pc : SyncPc} (h : pc.replies = true) :
    ∃ request message rest, pc = .sending request (message :: rest) ∧
      isResponse message = true := by
  cases pc with
  | sending request messages =>
    cases messages with
    | nil => cases h
    | cons message rest => exact ⟨request, message, rest, rfl, h⟩
  | _ => cases h

theorem SyncPc.eq_of_waits {pc : SyncPc} (h : pc.waits = true) :
    ∃ request, pc = .waiting request := by
  cases pc with
  | waiting request => exact ⟨request, rfl⟩
  | _ => cases h

theorem not_syncCorrect_step {s s' : SyncThreads} {i : SyncInput} (hinv : SyncInv s)
    (hstep : s.step syncNext t i = some s') (hcond : ¬ Undisturbed s t i) : ¬ SyncCorrect s' := by
  obtain ⟨sh', pc', hnext, rfl⟩ := step_eq_some hstep
  intro hcorrect
  apply hcond
  constructor
  · intro ht hreplies
    by_contra hset
    rw [Bool.not_eq_false] at hset
    obtain ⟨request, message, rest, hpc, hresponse⟩ := SyncPc.eq_of_replies hreplies
    -- the response is diverted, so it is neither sent nor pending
    rw [hpc, syncNext, if_pos hresponse, sendMessage, if_pos hset] at hnext
    cases hnext
    have hbefore := hinv.sent t ht
    have hafter := hcorrect.sent t ht
    rw [hpc, SyncPc.pending, List.filter_cons_of_pos hresponse] at hbefore
    dsimp only at hafter
    rw [Function.update_self, SyncPc.pending, hbefore] at hafter
    exact List.cons_ne_self _ _ (List.append_cancel_left hafter)
  · rintro rfl hwaits stored hstored
    by_contra hby
    obtain ⟨request, hpc⟩ := SyncPc.eq_of_waits hwaits
    have hevent : isResponse stored.2 ≠ true := mt (hinv.slot stored hstored).1.mpr hby
    -- the event is returned
    rw [hpc, syncNext, Option.mem_def.mp hstored] at hnext
    cases hnext
    exact hevent (hcorrect.returned (request, some stored.2) (by simp) stored.2 rfl).1

theorem syncInv_start : SyncInv syncStart where
  returned := nofun
  sent _ _ := rfl
  mode := rfl
  fine _ := trivial
  slot := nofun

/-- **Synchronous requests** return their own response, and no response of another thread is
lost, exactly if no response of another thread meets the sync mode and `RunSync` finds
nothing that another thread has stored. -/
theorem sync_correct_iff (schedule : List (SyncThread × SyncInput)) :
    Always syncNext SyncCorrect syncStart schedule ↔
      EachStep syncNext Undisturbed syncStart schedule :=
  always_iff_eachStep (fun _ hinv => hinv.toSyncCorrect)
    (fun _ _ _ _ hinv hstep hcond => hinv.step hstep hcond)
    (fun _ _ _ _ hinv hstep hcond => not_syncCorrect_step hinv hstep hcond)
    syncInv_start schedule

/-! ### A response that is lost -/

/-- A request for `Debugger.pause` with the id, and its handler. -/
def pauseInput (id : Nat) : SyncInput where
  request := [(ascii "id", .num id), (ascii "method", .string (ascii "Debugger.pause"))]
  handlers := sampleHandlers

/-- `RunSync` handles request 1.  Before it takes its response, the server thread handles
request 2. -/
def lostSchedule : List (SyncThread × SyncInput) :=
  List.replicate 5 (.caller, pauseInput 1) ++ List.replicate 5 (.server, pauseInput 2) ++
    [(.caller, pauseInput 1)]

/-- **`RunSync` returns the response to another request**, which is not sent. -/
theorem runSync_returns_other :
    (syncStart.run syncNext lostSchedule).map (fun s =>
      (s.shared.returned.map fun r => (r.1.getNum "id", r.2.bind fun m => m.getNum "id"),
        s.shared.sent.length)) = some ([(some 1, some 2)], 0) := by
  decide +kernel

end StaticEndpoint

end ArkToolchain
