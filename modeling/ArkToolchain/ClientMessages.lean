/-
How the messages of the debuggees reach the sessions of the command-line client
(`message_manager.h`, `SocketMessageLoop` of `session.cpp`, and `Main` and `SocketOnMessage` of
`ark_cli/main.cpp`).

Every session has a socket thread, which pushes what it receives on a queue and then signals the
event loop.  Signals can be merged, but a callback empties the queue.  There is one gap: `Main`
starts the thread of the default session before it makes the signal, so that the thread may test
a null pointer.  A thread also uses its session, and nobody keeps the session for it.

A session is known by the number of sessions created before it, for the ids are used again.  A
step is a locked section, a call of libuv, or an access to the table of the sessions.

Main results: the queue never mixes up messages (`messages_handled_in_order`), and under the two
conditions on the schedule all of them are processed (`messages_processed`).
-/
import ArkToolchain.Bytes
import ArkToolchain.Fairness

namespace ArkToolchain

open Threads InfiniteRun

namespace ArkDb

/-! ### Threads -/

/-- The main thread, and the socket threads of the sessions. -/
inductive ClientThread
  | main
  /-- the socket thread of a session -/
  | socket (session : Nat)
  deriving DecidableEq

/-- What `g_socketSignal` points to. -/
inductive Signal
  | null
  | uninitialised
  | active
  deriving DecidableEq

/-- A message, with the session that has received it. -/
structure Message where
  /-- the session that has received it, which the queue does not know -/
  session : Nat
  sessionId : Nat
  text : Bytes
  deriving DecidableEq

/-- What the threads share, with a record of the messages. -/
structure Client where
  /-- the ids of the sessions that have been created -/
  created : List Nat := []
  /-- `sessions_`: the session under an id -/
  sessions : Nat → Option Nat := fun _ => none
  socketSignal : Signal := .null
  /-- `uv_async_send` has been called since the last callback -/
  pending : Bool := false
  messageQue : List Message := []
  /-- a thread has tested a signal, or used a session, that is not there -/
  faulted : Bool := false
  /-- all messages that have been pushed -/
  pushed : List Message := []
  /-- those that have been popped, with the session that has processed them -/
  handled : List (Message × Option Nat) := []

/-- `MAX_SESSION_NUM`. -/
def maxSessionNum : Nat := 8

namespace Client

variable (sh : Client) (sessionId : Nat)

/-- `GetSessionById`. -/
def getSessionById : Option Nat :=
  if sessionId < maxSessionNum then sh.sessions sessionId else none

/-- `CreateSessionById`, if the connection is made. -/
def createSessionById : Client :=
  { sh with
    created := sh.created ++ [sessionId]
    sessions := Function.update sh.sessions sessionId (some sh.created.length) }

/-- The id that `CreateNewSession` takes. -/
def freeId : Option Nat :=
  (List.range maxSessionNum).find? fun i => (sh.sessions i).isNone

/-- `DelSessionById`. -/
def delSessionById : Client :=
  { sh with sessions := Function.update sh.sessions sessionId none }

/-- `MessagePush`. -/
def messagePush (message : Message) : Client :=
  { sh with
    messageQue := sh.messageQue ++ [message]
    pushed := sh.pushed ++ [message] }

/-- The session has been created and not removed. -/
def Exists (session : Nat) : Prop :=
  ∃ id, sh.created[session]? = some id ∧ sh.sessions id = some session

/-- What the session has received. -/
def receivedBy (session : Nat) : List Bytes :=
  (sh.pushed.filter fun m => m.session = session).map Message.text

/-- What has been processed for it. -/
def processedBy (session : Nat) : List Bytes :=
  (sh.handled.filter fun h => h.1.session = session ∧ h.2 = some session).map fun h => h.1.text

end Client

/-- Where a thread is. -/
inductive ClientPc
  /-- before `CreateDefaultSession` in `Main` -/
  | creating
  /-- before `g_socketSignal` is allocated -/
  | allocating
  /-- before `uv_async_init` -/
  | initialising
  /-- in `uv_run` -/
  | polling
  /-- before `MessagePop` in `SocketOnMessage` -/
  | popping
  /-- before `GetSessionById` and `ProcSocketMsg` -/
  | processing (message : Message)
  /-- before `IsConnected` and `Decode` in `SocketMessageLoop` -/
  | receiving
  /-- before `MessagePush` -/
  | pushing (text : Bytes)
  /-- before `uv_is_active` -/
  | testing
  /-- before `uv_async_send` -/
  | sending
  | left
  deriving DecidableEq

/-- What the environment supplies for a step. -/
inductive ClientInput
  /-- nothing, or the callback of the socket signal -/
  | go
  /-- the default session, or that of `session-new`, is connected or not -/
  | createSession (connects : Bool)
  /-- `session-remove` -/
  | delSession (sessionId : Nat)
  /-- `Decode` returns a text -/
  | receive (text : Bytes)
  /-- the socket is not connected any more -/
  | disconnect
  deriving DecidableEq

/-- `Main`, and the callbacks. -/
def mainNext (sh : Client) : ClientPc → ClientInput → Option (Client × ClientPc)
  | .creating, .createSession connects =>
    if connects then some (sh.createSessionById 0, .allocating) else some (sh, .left)
  | .allocating, .go => some ({ sh with socketSignal := .uninitialised }, .initialising)
  | .initialising, .go => some ({ sh with socketSignal := .active }, .polling)
  | .polling, .go => if sh.pending then some ({ sh with pending := false }, .popping) else none
  | .polling, .createSession connects =>
    match sh.freeId with
    | some id => some (if connects then sh.createSessionById id else sh, .polling)
    | none => some (sh, .polling)
  | .polling, .delSession sessionId =>
    -- the default session cannot be removed
    if sessionId = 0 ∨ sh.getSessionById sessionId = none then some (sh, .polling)
    else some (sh.delSessionById sessionId, .polling)
  | .popping, .go =>
    match sh.messageQue with
    | [] => some (sh, .polling)
    | message :: rest => some ({ sh with messageQue := rest }, .processing message)
  | .processing message, .go =>
    let session := sh.getSessionById message.sessionId
    some ({ sh with handled := sh.handled ++ [(message, session)] }, .popping)
  | _, _ => none

/-- A socket thread goes on with its session; without it, it is lost. -/
def Client.useSession (sh : Client) (session sessionId : Nat) (next : Client × ClientPc) :
    Option (Client × ClientPc) :=
  if sh.sessions sessionId = some session then some next
  else some ({ sh with faulted := true }, .left)

/-- `SocketMessageLoop` of a session. -/
def socketNext (session sessionId : Nat) (sh : Client) :
    ClientPc → ClientInput → Option (Client × ClientPc)
  | .receiving, .disconnect => sh.useSession session sessionId (sh, .left)
  | .receiving, .receive text =>
    -- the length is converted to `uint32_t`
    sh.useSession session sessionId
      (sh, if text.length % 2 ^ 32 = 0 then .receiving else .pushing text)
  | .pushing text, .go =>
    -- `sessionId_` is read
    sh.useSession session sessionId (sh.messagePush { session, sessionId, text }, .testing)
  | .testing, .go =>
    if sh.socketSignal = .active then some (sh, .sending)
    else some ({ sh with faulted := true }, .left)
  | .sending, .go => some ({ sh with pending := true }, .receiving)
  | _, _ => none

/-- After a fault nothing happens any more; a socket thread is there as soon as its session
has been created. -/
def clientNext (t : ClientThread) (sh : Client) (pc : ClientPc) (i : ClientInput) :
    Option (Client × ClientPc) :=
  if sh.faulted then none
  else
    match t with
    | .main => mainNext sh pc i
    | .socket session => sh.created[session]?.bind fun id => socketNext session id sh pc i

abbrev ClientThreads := Threads ClientThread Client ClientPc

def clientStart : ClientThreads where
  shared := {}
  pcs
    | .main => .creating
    | .socket _ => .receiving

/-! ### What is wanted -/

def ClientPc.Busy : ClientPc → Prop
  | .polling => False
  | .creating => False
  | .receiving => False
  | .left => False
  | _ => True

/-- Threads go on, and after a signal there is a callback. -/
structure Scheduled (run : InfiniteRun clientNext) : Prop where
  start : run.states 0 = clientStart
  busy : ∀ t, run.FairWhen t fun s => (s.pcs t).Busy ∧ s.shared.faulted = false
  callback : ∀ n, (run.states n).shared.pending = true →
    ∃ m, n ≤ m ∧ (run.states m).pcs .main = .polling ∧ run.moves m = some (.main, .go)

/-- The messages of sessions that exist are processed in their order, and all of them. -/
structure ProcessesAll (run : InfiniteRun clientNext) : Prop where
  inOrder : ∀ n session, (run.states n).shared.Exists session →
    (run.states n).shared.processedBy session <+: (run.states n).shared.receivedBy session
  eventually : ∀ n session, ∀ i < ((run.states n).shared.receivedBy session).length,
    ∃ m, n ≤ m ∧ ((run.states m).shared.Exists session →
      i < ((run.states m).shared.processedBy session).length)

/-- A session is removed only when its thread has left the loop. -/
def ClientThreads.Releases (s : ClientThreads) : ClientInput → Prop
  | .delSession sessionId => sessionId ≠ 0 → ∀ session ∈ s.shared.sessions sessionId,
      s.pcs (.socket session) = .left
  | _ => True

/-- No session is removed under its thread. -/
def SessionsReleased (run : InfiniteRun clientNext) : Prop :=
  ∀ n i, run.moves n = some (.main, i) → ClientThreads.Releases (run.states n) i

/-- No thread is at the test before the signal has been initialised. -/
def SignalsInitialised (run : InfiniteRun clientNext) : Prop :=
  ∀ n session i, run.moves n = some (.socket session, i) →
    (run.states n).pcs (.socket session) = .testing → (run.states n).shared.socketSignal = .active

/-! ### Sessions that exist -/

namespace Client

variable {sh : Client} {session id : Nat}

theorem Exists.of_createSessionById (hlt : session < sh.created.length)
    (h : (sh.createSessionById id).Exists session) : sh.Exists session := by
  obtain ⟨id', hcreated, hslot⟩ := h
  replace hcreated : (sh.created ++ [id])[session]? = some id' := hcreated
  replace hslot : Function.update sh.sessions id (some sh.created.length) id' = some session :=
    hslot
  rw [List.getElem?_append_left hlt] at hcreated
  by_cases heq : id' = id
  · rw [heq, Function.update_self, Option.some.injEq] at hslot
    omega
  · rw [Function.update_of_ne heq] at hslot
    exact ⟨id', hcreated, hslot⟩

theorem Exists.of_delSessionById (h : (sh.delSessionById id).Exists session) :
    sh.Exists session := by
  obtain ⟨id', hcreated, hslot⟩ := h
  replace hslot : Function.update sh.sessions id none id' = some session := hslot
  by_cases heq : id' = id
  · rw [heq, Function.update_self] at hslot
    cases hslot
  · rw [Function.update_of_ne heq] at hslot
    exact ⟨id', hcreated, hslot⟩

end Client

/-! ### Steps of a socket thread -/

/-- What a step of a socket thread does. -/
inductive SocketStep (session id : Nat) (sh : Client) : ClientPc → Client → ClientPc → Prop
  | receive {pc : ClientPc} (h : pc = .receiving ∨ pc = .left ∨ ∃ text, pc = .pushing text) :
      SocketStep session id sh .receiving sh pc
  | push (text : Bytes) :
      SocketStep session id sh (.pushing text) (sh.messagePush ⟨session, id, text⟩) .testing
  | test (h : sh.socketSignal = .active) : SocketStep session id sh .testing sh .sending
  | send : SocketStep session id sh .sending { sh with pending := true } .receiving
  | fault {pc : ClientPc} (h : pc = .testing ∧ sh.socketSignal ≠ .active ∨
        pc ≠ .left ∧ sh.sessions id ≠ some session) :
      SocketStep session id sh pc { sh with faulted := true } .left

theorem socketStep_of_next {session id : Nat} {sh sh' : Client} {pc pc' : ClientPc}
    {i : ClientInput} (h : socketNext session id sh pc i = some (sh', pc')) :
    SocketStep session id sh pc sh' pc' := by
  have huse {next : Client × ClientPc} (hpc : pc ≠ .left)
      (hnext : SocketStep session id sh pc next.1 next.2)
      (h : sh.useSession session id next = some (sh', pc')) :
      SocketStep session id sh pc sh' pc' := by
    rw [Client.useSession] at h
    split at h <;> cases h
    · exact hnext
    · exact .fault (.inr ⟨hpc, ‹_›⟩)
  revert h
  fun_cases socketNext session id sh pc i
  case case1 => exact huse nofun (.receive (.inr (.inl rfl)))
  case case2 text => exact huse nofun (.receive (by split <;> simp))
  case case3 text => exact huse nofun (.push text)
  all_goals rintro ⟨⟩
  case case4 hactive => exact .test hactive
  case case5 hearly => exact .fault (.inl ⟨rfl, hearly⟩)
  case case6 => exact .send

/-! ### The invariant -/

namespace ClientPc

/-- The message that has been popped and not yet processed. -/
def inHand : ClientPc → List Message
  | .processing message => [message]
  | _ => []

def InCallback : ClientPc → Prop
  | .popping => True
  | .processing _ => True
  | _ => False

/-- A message has been pushed, and the signal comes next. -/
def Signals : ClientPc → Prop
  | .testing => True
  | .sending => True
  | _ => False

end ClientPc

/-- What holds of the client, of `Main` and of the socket threads. -/
structure Inv (sh : Client) (main : ClientPc) (socket : Nat → ClientPc) : Prop where
  /-- messages are popped in the order in which they were pushed -/
  fifo : sh.pushed = sh.handled.map Prod.fst ++ main.inHand ++ sh.messageQue
  ids : ∀ m ∈ sh.pushed, sh.created[m.session]? = some m.sessionId
  small : ∀ id ∈ sh.created, id < maxSessionNum
  /-- no session is taken for another one -/
  served : ∀ h ∈ sh.handled, sh.Exists h.1.session → h.2 = some h.1.session
  /-- the queue is not forgotten -/
  wake : sh.faulted = false → sh.messageQue ≠ [] →
    sh.pending = true ∨ main.InCallback ∨ ∃ session, (socket session).Signals
  fresh : main = .creating → sh.created = []

variable {sh sh' : Client} {main main' pc : ClientPc} {socket : Nat → ClientPc} {i : ClientInput}
  {session id : Nat}

theorem inv_start : Inv {} .creating fun _ => .receiving where
  fifo := rfl
  ids := by simp
  small := by simp
  served := by simp
  wake _ h := absurd rfl h
  fresh _ := rfl

namespace Inv

variable (h : Inv sh main socket)
include h

theorem session_lt {m : Message} (hm : m ∈ sh.pushed) : m.session < sh.created.length :=
  (List.getElem?_eq_some_iff.mp (h.ids m hm)).1

theorem mem_pushed {handled : Message × Option Nat}
    (hmem : handled ∈ sh.handled) : handled.1 ∈ sh.pushed := by
  rw [h.fifo, List.append_assoc]
  exact List.mem_append_left _ (List.mem_map_of_mem hmem)

theorem createSessionById (hid : id < maxSessionNum)
    (hinHand : main'.inHand = main.inHand) (hcallback : main'.InCallback ↔ main.InCallback)
    (hnext : main' ≠ .creating) : Inv (sh.createSessionById id) main' socket where
  fifo := hinHand ▸ h.fifo
  ids m hm := by
    show (sh.created ++ [id])[m.session]? = _
    rw [List.getElem?_append_left (h.session_lt hm)]
    exact h.ids m hm
  small id' hid' := by
    rcases List.mem_append.mp hid' with hid' | hid'
    · exact h.small id' hid'
    · rw [List.mem_singleton.mp hid']
      exact hid
  served handled hmem hexists :=
    h.served handled hmem (hexists.of_createSessionById (h.session_lt (h.mem_pushed hmem)))
  wake hfault hque := by
    rw [hcallback]
    exact h.wake hfault hque
  fresh hcreating := absurd hcreating hnext

theorem delSessionById : Inv (sh.delSessionById id) main socket where
  fifo := h.fifo
  ids := h.ids
  small := h.small
  served handled hmem hexists := h.served handled hmem hexists.of_delSessionById
  wake := h.wake
  fresh := h.fresh

omit h in
theorem freeId_lt (h : sh.freeId = some id) : id < maxSessionNum :=
  List.mem_range.mp (List.mem_of_find?_eq_some h)

theorem getSessionById {m : Message} (hm : m ∈ sh.pushed)
    (hexists : sh.Exists m.session) : sh.getSessionById m.sessionId = some m.session := by
  obtain ⟨id, hcreated, hslot⟩ := hexists
  obtain rfl : m.sessionId = id := Option.some.inj ((h.ids m hm).symm.trans hcreated)
  rw [Client.getSessionById, if_pos (h.small _ (List.mem_of_getElem? hcreated)), hslot]

/-- **A step of `Main`**, by the places in its code. -/
theorem main_step (hstep : mainNext sh main i = some (sh', main')) : Inv sh' main' socket := by
  revert hstep
  fun_cases mainNext sh main i
  all_goals rintro ⟨⟩
  case case1 =>
    exact h.createSessionById (by decide) rfl Iff.rfl (by simp)
  case case2 | case3 | case4 => exact { h with fresh := by simp }
  case case5 =>
    exact { h with
      wake := fun _ _ => .inr (.inl trivial)
      fresh := by simp }
  case case7 connects id hid =>
    cases connects with
    | false => exact h
    | true =>
      exact h.createSessionById (freeId_lt hid) rfl Iff.rfl (by simp)
  case case10 => exact h.delSessionById
  case case11 hque =>
    exact { h with
      wake := fun _ hne => absurd hque hne
      fresh := by simp }
  case case12 message rest hque =>
    have hfifo : sh.pushed = sh.handled.map Prod.fst ++ [message] ++ rest := by
      rw [h.fifo, hque]
      simp [ClientPc.inHand]
    exact { h with
      fifo := hfifo
      wake := fun _ _ => .inr (.inl trivial)
      fresh := by simp }
  case case13 message session =>
    have hpushed : message ∈ sh.pushed := by
      rw [h.fifo]
      simp [ClientPc.inHand]
    have hfifo : sh.pushed = (sh.handled ++ [(message, session)]).map Prod.fst ++ []
        ++ sh.messageQue := by
      rw [h.fifo]
      simp [ClientPc.inHand]
    have hserved : ∀ handled ∈ sh.handled ++ [(message, session)],
        sh.Exists handled.1.session → handled.2 = some handled.1.session := by
      intro handled hmem hexists
      rcases List.mem_append.mp hmem with hmem | hmem
      · exact h.served handled hmem hexists
      · obtain rfl := List.mem_singleton.mp hmem
        exact h.getSessionById hpushed hexists
    exact { h with
      fifo := hfifo
      served := hserved
      fresh := by simp }
  all_goals exact h

omit h in
theorem exists_signals_update (h : ∃ k, (socket k).Signals)
    (hpc : (socket session).Signals → pc.Signals) :
    ∃ k, (Function.update socket session pc k).Signals := by
  rw [Function.exists_update_iff socket fun _ pc => pc.Signals]
  obtain ⟨k, hk⟩ := h
  by_cases heq : k = session
  · exact .inl (hpc (heq ▸ hk))
  · exact .inr ⟨k, heq, hk⟩

theorem update (hpc : (socket session).Signals → pc.Signals) :
    Inv sh main (Function.update socket session pc) :=
  { h with
    wake := fun hfault hque =>
      (h.wake hfault hque).imp_right (Or.imp_right (exists_signals_update · hpc)) }

theorem fifo_messagePush (m : Message) : sh.pushed ++ [m]
      = sh.handled.map Prod.fst ++ main.inHand ++ (sh.messageQue ++ [m]) := by
  rw [h.fifo, List.append_assoc]

theorem ids_messagePush (hid : sh.created[session]? = some id)
    {text : Bytes} (m : Message) (hm : m ∈ sh.pushed ++ [⟨session, id, text⟩]) :
    sh.created[m.session]? = some m.sessionId := by
  rcases List.mem_append.mp hm with hm | hm
  · exact h.ids m hm
  · obtain rfl := List.mem_singleton.mp hm
    exact hid

/-- **A step of a socket thread**. -/
theorem socket_step (hid : sh.created[session]? = some id)
    (hstep : socketNext session id sh (socket session) i = some (sh', pc)) :
    Inv sh' main (Function.update socket session pc) := by
  generalize hfrom : socket session = old at hstep
  cases socketStep_of_next hstep with
  | receive =>
    apply h.update
    rw [hfrom]
    exact False.elim
  | push text =>
    exact { h with
      fifo := h.fifo_messagePush _
      ids := h.ids_messagePush hid
      wake := fun _ _ => .inr (.inr ⟨session, by rw [Function.update_self]; trivial⟩) }
  | test => exact h.update fun _ => trivial
  | send => exact { h with wake := fun _ _ => .inl rfl }
  | fault => exact { h with wake := by simp }

/-! ### Order -/

theorem processedBy_eq (hexists : sh.Exists session) : sh.processedBy session
      = ((sh.handled.map Prod.fst).filter fun m => m.session = session).map Message.text := by
  have hfilter : (sh.handled.filter fun h => h.1.session = session ∧ h.2 = some session)
      = sh.handled.filter fun h => h.1.session = session := by
    apply List.filter_congr
    intro handled hmem
    simp only [decide_eq_decide, and_iff_left_iff_imp]
    rintro rfl
    exact h.served handled hmem hexists
  rw [Client.processedBy, hfilter, List.filter_map, List.map_map]
  rfl

theorem processedBy_isPrefix_receivedBy (hexists : sh.Exists session) :
    sh.processedBy session <+: sh.receivedBy session := by
  rw [h.processedBy_eq hexists, Client.receivedBy, h.fifo, List.append_assoc, List.filter_append,
    List.map_append]
  exact List.prefix_append _ _

/-- If as many messages have been popped as another state has seen, then its messages have
been. -/
theorem length_receivedBy_le {before : Client}
    (hexists : sh.Exists session) (hpushed : before.pushed <+: sh.pushed)
    (hlen : before.pushed.length ≤ sh.handled.length) :
    (before.receivedBy session).length ≤ (sh.processedBy session).length := by
  have hpushed : before.pushed <+: sh.handled.map Prod.fst := by
    apply List.prefix_of_prefix_length_le hpushed
    · rw [h.fifo, List.append_assoc]
      exact List.prefix_append _ _
    · rwa [List.length_map]
  rw [h.processedBy_eq hexists]
  exact ((hpushed.filter _).map _).length_le

theorem length_handled (hinHand : main.inHand = [])
    (hque : sh.messageQue = []) : sh.handled.length = sh.pushed.length := by
  rw [h.fifo, hinHand, hque, List.append_nil, List.append_nil, List.length_map]

end Inv

variable {t : ClientThread}

theorem inv_step {s s' : ClientThreads}
    (h : Inv s.shared (s.pcs .main) fun session => s.pcs (.socket session))
    (hstep : s.step clientNext t i = some s') :
    Inv s'.shared (s'.pcs .main) fun session => s'.pcs (.socket session) := by
  obtain ⟨sh', pc, hnext, rfl⟩ := step_eq_some hstep
  obtain ⟨-, hnext⟩ := Option.ite_none_left_eq_some.mp hnext
  cases t with
  | main =>
    exact h.main_step hnext
  | socket session =>
    obtain ⟨id, hid, hnext⟩ := Option.bind_eq_some_iff.mp hnext
    have hinj : Function.Injective ClientThread.socket := fun _ _ => ClientThread.socket.inj
    show Inv sh' (Function.update s.pcs (.socket session) pc .main)
      fun k => Function.update s.pcs (.socket session) pc (.socket k)
    rw [Function.update_of_ne (by simp), Function.update_comp_eq_of_injective' s.pcs hinj]
    exact h.socket_step hid hnext

/-- **Messages are handled in the order of the queue**, each by the session that received it as
long as this session exists, and a message in the queue has a thread that will look there. -/
theorem messages_handled_in_order (schedule : List (ClientThread × ClientInput)) :
    Always clientNext (fun s => s.shared.handled.map Prod.fst <+: s.shared.pushed ∧
      (∀ h ∈ s.shared.handled, s.shared.Exists h.1.session → h.2 = some h.1.session) ∧
      (s.shared.faulted = false → s.shared.messageQue ≠ [] → s.shared.pending = true ∨
        (s.pcs .main).InCallback ∨ ∃ session, (s.pcs (.socket session)).Signals))
      clientStart schedule := by
  apply always_of_invariant _ (fun _ _ _ _ => inv_step) inv_start
  intro s hs
  refine ⟨?_, hs.served, hs.wake⟩
  rw [hs.fifo, List.append_assoc]
  exact List.prefix_append _ _

/-! ### Progress -/

theorem logs_mainNext (h : mainNext sh pc i = some (sh', main')) :
    sh'.faulted = sh.faulted ∧ sh.pushed = sh'.pushed ∧ sh.handled <+: sh'.handled := by
  revert h
  fun_cases mainNext sh pc i
  all_goals rintro ⟨⟩
  case case7 => split <;> exact ⟨rfl, rfl, List.prefix_rfl⟩
  case case13 => exact ⟨rfl, rfl, List.prefix_append _ _⟩
  all_goals exact ⟨rfl, rfl, List.prefix_rfl⟩

theorem logs_socketNext (h : socketNext session id sh pc i = some (sh', main')) :
    sh.pushed <+: sh'.pushed ∧ sh.handled = sh'.handled := by
  cases socketStep_of_next h with
  | push text => exact ⟨List.prefix_append _ _, rfl⟩
  | _ => exact ⟨List.prefix_rfl, rfl⟩

theorem logs_step {s s' : ClientThreads} (h : s.step clientNext t i = some s') :
    s.shared.pushed <+: s'.shared.pushed ∧ s.shared.handled <+: s'.shared.handled := by
  obtain ⟨sh', pc, hnext, rfl⟩ := step_eq_some h
  obtain ⟨-, hnext⟩ := Option.ite_none_left_eq_some.mp hnext
  cases t with
  | main =>
    obtain ⟨-, hpushed, hhandled⟩ := logs_mainNext hnext
    exact ⟨hpushed ▸ List.prefix_rfl, hhandled⟩
  | socket session =>
    obtain ⟨id, -, hnext⟩ := Option.bind_eq_some_iff.mp hnext
    obtain ⟨hpushed, hhandled⟩ := logs_socketNext hnext
    exact ⟨hpushed, hhandled ▸ List.prefix_rfl⟩

section Runs

variable {run : InfiniteRun clientNext}

theorem Scheduled.inv (h : Scheduled run) (n : Nat) :
    Inv (run.states n).shared ((run.states n).pcs .main)
      fun session => (run.states n).pcs (.socket session) := by
  refine run.invariant (P := fun s => Inv s.shared (s.pcs .main) fun k => s.pcs (.socket k))
    (fun n t i hmove hinv => ?_) ?_ n
  · exact inv_step hinv (step_of_moves hmove)
  · rw [h.start]
    exact inv_start

variable {n m : Nat}

theorem pushed_le (hnm : n ≤ m) : (run.states n).shared.pushed <+: (run.states m).shared.pushed :=
  run.rel_states (R := fun s s' => s.shared.pushed <+: s'.shared.pushed)
    (fun _ => List.prefix_rfl) (fun _ _ _ => List.IsPrefix.trans)
    (fun _ _ _ _ hstep => (logs_step hstep).1) hnm

/-- A message that is waiting at time `n` lets the handled messages grow. -/
abbrev MessagesGrow (run : InfiniteRun clientNext) (n : Nat) : Prop :=
  run.Grows (fun s => s.shared.handled.length) (fun s => s.shared.pushed.length) n

theorem MessagesGrow.of_later (hnm : n ≤ m) (h : MessagesGrow run m) : MessagesGrow run n :=
  Grows.of_later (fun _ _ _ _ hstep => (logs_step hstep).2.length_le)
    (fun _ _ _ _ hstep => (logs_step hstep).1.length_le) hnm h

variable {t : ClientThread}

theorem Scheduled.exists_step (h : Scheduled run)
    (hfault : ∀ n, (run.states n).shared.faulted = false) (hn : (run.states n).pcs t = pc)
    (hbusy : pc.Busy) :
    ∃ m, n ≤ m ∧ (run.states m).pcs t = pc ∧
      ∃ i, run.moves m = some (t, i) ∧ clientNext t (run.states m).shared pc i
        = some ((run.states (m + 1)).shared, (run.states (m + 1)).pcs t) :=
  (h.busy t).exists_next (fun m _ hm => ⟨hm ▸ hbusy, hfault m⟩) hn

section NoFault

variable {n : Nat} (h : Scheduled run) (hfault : ∀ n, (run.states n).shared.faulted = false)
include h hfault

theorem grows_of_processing {message : Message}
    (hn : (run.states n).pcs .main = .processing message) : MessagesGrow run n := by
  obtain ⟨m, hnm, -, i, -, hnext⟩ := h.exists_step hfault hn trivial
  obtain ⟨-, hnext⟩ := Option.ite_none_left_eq_some.mp hnext
  apply MessagesGrow.of_later hnm
  intro _
  refine ⟨m + 1, Nat.le_succ m, ?_⟩
  cases i with
  | go =>
    obtain ⟨hshared, -⟩ := Prod.mk.inj (Option.some.inj hnext)
    simp only [← hshared, List.length_append]
    exact Nat.lt_succ_self _
  | _ => cases hnext

theorem grows_of_popping (hn : (run.states n).pcs .main = .popping) : MessagesGrow run n := by
  obtain ⟨m, hnm, hm, i, -, hnext⟩ := h.exists_step hfault hn trivial
  obtain ⟨-, hnext⟩ := Option.ite_none_left_eq_some.mp hnext
  apply MessagesGrow.of_later hnm
  cases i with
  | go =>
    simp only [mainNext] at hnext
    split at hnext
    · -- all messages have been handled
      rename_i hque
      have hlen := (h.inv m).length_handled (by rw [hm]; rfl) hque
      exact fun hlt => absurd hlen (Nat.ne_of_lt hlt)
    · obtain ⟨-, hpc⟩ := Prod.mk.inj (Option.some.inj hnext)
      exact MessagesGrow.of_later (Nat.le_succ m) (grows_of_processing h hfault hpc.symm)
  | _ => cases hnext

theorem grows_of_pending (hn : (run.states n).shared.pending = true) : MessagesGrow run n := by
  obtain ⟨m, hnm, hpolling, hmove⟩ := h.callback n hn
  have hnext := next_of_moves hmove
  rw [hpolling] at hnext
  obtain ⟨-, hnext⟩ := Option.ite_none_left_eq_some.mp hnext
  obtain ⟨-, hnext⟩ := Option.ite_none_right_eq_some.mp hnext
  obtain ⟨-, hpc⟩ := Prod.mk.inj (Option.some.inj hnext)
  exact MessagesGrow.of_later (Nat.le_succ_of_le hnm) (grows_of_popping h hfault hpc.symm)

/-- The next step of a socket thread that does not wait. -/
theorem exists_socketNext (hn : (run.states n).pcs (.socket session) = pc) (hbusy : pc.Busy) :
    ∃ m, n ≤ m ∧ ∃ id i, socketNext session id (run.states m).shared pc i
      = some ((run.states (m + 1)).shared, (run.states (m + 1)).pcs (.socket session)) := by
  obtain ⟨m, hnm, -, i, -, hnext⟩ := h.exists_step hfault hn hbusy
  obtain ⟨-, hnext⟩ := Option.ite_none_left_eq_some.mp hnext
  obtain ⟨id, -, hnext⟩ := Option.bind_eq_some_iff.mp hnext
  exact ⟨m, hnm, id, i, hnext⟩

theorem grows_of_sending (hn : (run.states n).pcs (.socket session) = .sending) :
    MessagesGrow run n := by
  obtain ⟨m, hnm, id, i, hnext⟩ := exists_socketNext h hfault hn trivial
  apply MessagesGrow.of_later (Nat.le_succ_of_le hnm)
  cases i with
  | go =>
    obtain ⟨hshared, -⟩ := Prod.mk.inj (Option.some.inj hnext)
    apply grows_of_pending h hfault
    rw [← hshared]
  | _ => cases hnext

theorem grows_of_testing (hn : (run.states n).pcs (.socket session) = .testing) :
    MessagesGrow run n := by
  obtain ⟨m, hnm, id, i, hnext⟩ := exists_socketNext h hfault hn trivial
  apply MessagesGrow.of_later (Nat.le_succ_of_le hnm)
  cases i with
  | go =>
    simp only [socketNext] at hnext
    split at hnext
    · obtain ⟨-, hpc⟩ := Prod.mk.inj (Option.some.inj hnext)
      exact grows_of_sending h hfault hpc.symm
    · obtain ⟨hshared, -⟩ := Prod.mk.inj (Option.some.inj hnext)
      have hfaulted := hfault (m + 1)
      rw [← hshared] at hfaulted
      cases hfaulted
  | _ => cases hnext

/-- **No message is forgotten**: whoever the invariant leaves the queue to goes on. -/
theorem Scheduled.grows (n : Nat) : MessagesGrow run n := by
  have hinv := h.inv n
  by_cases hque : (run.states n).shared.messageQue = []
  · rcases hpc : (run.states n).pcs .main
    case processing message => exact grows_of_processing h hfault hpc
    all_goals
      have hlen := hinv.length_handled (by rw [hpc]; rfl) hque
      exact fun hlt => absurd hlen (Nat.ne_of_lt hlt)
  · rcases hinv.wake (hfault n) hque with hpending | hcallback | ⟨session, hsignals⟩
    · exact grows_of_pending h hfault hpending
    · rcases hpc : (run.states n).pcs .main
      case popping => exact grows_of_popping h hfault hpc
      case processing message => exact grows_of_processing h hfault hpc
      all_goals
        rw [hpc] at hcallback
        exact hcallback.elim
    · rcases hpc : (run.states n).pcs (.socket session)
      case testing => exact grows_of_testing h hfault hpc
      case sending => exact grows_of_sending h hfault hpc
      all_goals
        rw [hpc] at hsignals
        exact hsignals.elim

theorem Scheduled.exists_handled (n : Nat) :
    ∃ m, n ≤ m ∧ (run.states n).shared.pushed.length ≤ (run.states m).shared.handled.length :=
  exists_le_done (fun _ _ _ _ hstep => (logs_step hstep).1.length_le) (fun n => h.grows hfault n) n

end NoFault

/-! ### Sessions and the signal -/

/-- The sessions of threads that are in their loops are there. -/
def Alive (sh : Client) (socket : Nat → ClientPc) : Prop :=
  ∀ session id, sh.created[session]? = some id → socket session ≠ .left →
    sh.sessions id = some session

theorem Alive.createSessionById (h : Alive sh socket) (hfree : sh.sessions id = none) :
    Alive (sh.createSessionById id) socket := by
  intro session id' hcreated hsocket
  replace hcreated : (sh.created ++ [id])[session]? = some id' := hcreated
  show Function.update sh.sessions id (some sh.created.length) id' = some session
  by_cases hlt : session < sh.created.length
  · rw [List.getElem?_append_left hlt] at hcreated
    have hslot := h session id' hcreated hsocket
    rwa [Function.update_of_ne]
    rintro rfl
    cases hfree.symm.trans hslot
  · obtain rfl : session = sh.created.length := by
      have hlen := (List.getElem?_eq_some_iff.mp hcreated).1
      rw [List.length_append, List.length_singleton] at hlen
      omega
    obtain rfl : id = id' := by simpa using hcreated
    exact Function.update_self ..

theorem Alive.main_step (h : Alive sh socket) (hinv : Inv sh main socket)
    (hreleases : ∀ sessionId, i = .delSession sessionId → sessionId ≠ 0 →
      ∀ session ∈ sh.sessions sessionId, socket session = .left)
    (hstep : mainNext sh main i = some (sh', main')) : Alive sh' socket := by
  revert hstep
  fun_cases mainNext sh main i
  all_goals rintro ⟨⟩
  case case1 =>
    intro session id hcreated
    obtain ⟨rfl, rfl⟩ : session = 0 ∧ 0 = id := by
      simpa [Client.createSessionById, hinv.fresh rfl, List.getElem?_singleton] using hcreated
    simp [Client.createSessionById, hinv.fresh rfl]
  case case7 connects id hid =>
    cases connects with
    | false => exact h
    | true =>
      apply h.createSessionById
      simpa using List.find?_some hid
  case case10 sessionId hsession =>
    rw [not_or] at hsession
    intro session id hcreated hsocket
    have hslot := h session id hcreated hsocket
    show Function.update sh.sessions sessionId none id = some session
    rwa [Function.update_of_ne]
    rintro rfl
    exact hsocket (hreleases id rfl hsession.1 session hslot)
  all_goals exact h

theorem SocketStep.keeps (h : SocketStep session id sh pc sh' main') :
    sh'.created = sh.created ∧ sh'.sessions = sh.sessions ∧ pc ≠ .left := by
  cases h with
  | fault hfault =>
    obtain ⟨rfl, -⟩ | ⟨hpc, -⟩ := hfault
    · exact ⟨rfl, rfl, nofun⟩
    · exact ⟨rfl, rfl, hpc⟩
  | _ => exact ⟨rfl, rfl, nofun⟩

theorem SocketStep.faulted_eq (h : SocketStep session id sh pc sh' main')
    (hfault : sh.faulted = false) (htesting : pc = .testing → sh.socketSignal = .active)
    (halive : pc ≠ .left → sh.sessions id = some session) : sh'.faulted = false := by
  cases h with
  | fault hlost =>
    obtain ⟨hpc, hearly⟩ | ⟨hpc, hgone⟩ := hlost
    · exact absurd (htesting hpc) hearly
    · exact absurd (halive hpc) hgone
  | _ => exact hfault

theorem Alive.socket_step (h : Alive sh socket)
    (hstep : SocketStep session id sh (socket session) sh' pc) :
    Alive sh' (Function.update socket session pc) := by
  obtain ⟨hcreated, hsessions, hleft⟩ := hstep.keeps
  intro session' id' hid hsocket
  rw [hcreated] at hid
  rw [hsessions]
  apply h session' id' hid
  by_cases heq : session' = session
  · exact heq ▸ hleft
  · rwa [Function.update_of_ne heq] at hsocket

theorem Scheduled.alive (h : Scheduled run) (hreleased : SessionsReleased run) (n : Nat) :
    Alive (run.states n).shared fun session => (run.states n).pcs (.socket session) := by
  refine run.invariant (P := fun s => Alive s.shared fun k => s.pcs (.socket k))
    (fun n t i hmove halive => ?_) ?_ n
  · obtain ⟨sh', pc, hnext, heq⟩ := step_eq_some (step_of_moves hmove)
    obtain ⟨-, hnext⟩ := Option.ite_none_left_eq_some.mp hnext
    rw [heq]
    cases t with
    | main =>
      refine halive.main_step (h.inv n) (fun sessionId hi => ?_) hnext
      have hreleases := hreleased n i hmove
      rwa [hi] at hreleases
    | socket session =>
      obtain ⟨id, -, hnext⟩ := Option.bind_eq_some_iff.mp hnext
      have hinj : Function.Injective ClientThread.socket := fun _ _ => ClientThread.socket.inj
      rw [Function.update_comp_eq_of_injective' _ hinj]
      exact halive.socket_step (socketStep_of_next hnext)
  · rw [h.start]
    exact nofun

theorem Scheduled.faulted_eq (h : Scheduled run) (hreleased : SessionsReleased run)
    (hsignals : SignalsInitialised run) (n : Nat) : (run.states n).shared.faulted = false := by
  refine run.invariant (P := fun s => s.shared.faulted = false) (fun n t i hmove hfault => ?_) ?_ n
  · obtain ⟨-, hnext⟩ := Option.ite_none_left_eq_some.mp (next_of_moves hmove)
    cases t with
    | main => rw [(logs_mainNext hnext).1, hfault]
    | socket session =>
      obtain ⟨id, hid, hnext⟩ := Option.bind_eq_some_iff.mp hnext
      exact (socketStep_of_next hnext).faulted_eq hfault (hsignals n session i hmove)
        (h.alive hreleased n session id hid)
  · rw [h.start]
    rfl

/-- **Received messages** are all processed in their order, if no session is removed under its
thread and no socket thread comes to its test before the signal is there. -/
theorem messages_processed (run : InfiniteRun clientNext) (h : Scheduled run)
    (hreleased : SessionsReleased run) (hsignals : SignalsInitialised run) :
    ProcessesAll run := by
  have hfault := h.faulted_eq hreleased hsignals
  refine ⟨fun n session hexists => (h.inv n).processedBy_isPrefix_receivedBy hexists, ?_⟩
  intro n session i hi
  obtain ⟨m, hnm, hm⟩ := h.exists_handled hfault n
  refine ⟨m, hnm, fun hexists => ?_⟩
  exact Nat.lt_of_lt_of_le hi ((h.inv m).length_receivedBy_le hexists (pushed_le hnm) hm)

end Runs

/-! ### Runs that stop -/

section Stops

variable {s' : ClientThreads} {schedule : List (ClientThread × ClientInput)}
  (h : clientStart.run clientNext schedule = some s')

theorem scheduled_ofSchedule (hbusy : ∀ t, (s'.pcs t).Busy → s'.shared.faulted = true)
    (hpending : s'.shared.pending = false)
    (hcallback : ∀ n < schedule.length,
      (clientStart.afterSteps clientNext schedule n).shared.pending = true →
      ∃ m < schedule.length, n ≤ m ∧ schedule[m]? = some (.main, .go) ∧
        (clientStart.afterSteps clientNext schedule m).pcs .main = .polling) :
    Scheduled (.ofSchedule h) where
  start := afterSteps_zero
  busy t := by
    apply fairWhen_ofSchedule
    rintro ⟨hin, hfault⟩
    rw [hbusy t hin] at hfault
    cases hfault
  callback n hn := by
    by_cases hlt : n < schedule.length
    · obtain ⟨m, -, hnm, hmove, hpolling⟩ := hcallback n hlt hn
      exact ⟨m, hnm, hpolling, hmove⟩
    · rw [states_ofSchedule h (Nat.le_of_not_lt hlt), hpending] at hn
      cases hn

theorem not_processesAll_ofSchedule (hexists : s'.shared.Exists session)
    (hreceived : 0 < (s'.shared.receivedBy session).length)
    (hprocessed : s'.shared.processedBy session = []) : ¬ ProcessesAll (.ofSchedule h) := by
  intro hall
  have hend := states_ofSchedule h (Nat.le_refl _)
  obtain ⟨m, hm, hlater⟩ := hall.eventually schedule.length session 0 (by rwa [hend])
  rw [states_ofSchedule h hm, hprocessed] at hlater
  exact absurd (hlater hexists) (Nat.lt_irrefl 0)

end Stops

instance (s : ClientThreads) : ∀ i, Decidable (s.Releases i)
  | .delSession _ => inferInstanceAs (Decidable (_ → _))
  | .go => isTrue trivial
  | .createSession _ => isTrue trivial
  | .receive _ => isTrue trivial
  | .disconnect => isTrue trivial

/-- Two sessions receive a message each, and their signals are merged; in the end one of them
is removed. -/
def mergedSignals : List (ClientThread × ClientInput) :=
  [(.main, .createSession true), (.main, .go), (.main, .go), (.main, .createSession true),
   (.socket 0, .receive (ascii "x")), (.socket 1, .receive (ascii "y")), (.socket 1, .go),
   (.socket 0, .go), (.socket 0, .go), (.socket 1, .go), (.socket 0, .go), (.socket 1, .go),
   (.main, .go), (.main, .go), (.main, .go), (.main, .go), (.main, .go), (.main, .go),
   (.socket 1, .disconnect), (.main, .delSession 1)]

theorem messages_processed_merged :
    ∃ s, ∃ h : clientStart.run clientNext mergedSignals = some s,
      s.shared.processedBy 0 = [ascii "x"] ∧ s.shared.processedBy 1 = [ascii "y"] ∧
      ProcessesAll (.ofSchedule h) := by
  refine ⟨_, rfl, by decide, by decide, messages_processed _ ?_ ?_ ?_⟩
  · refine scheduled_ofSchedule _ ?_ rfl (by decide)
    rintro (_ | _ | _ | _) hbusy
    all_goals exact hbusy.elim
  · exact fun _ _ => eachStep_ofSchedule
      (Q := fun (s : ClientThreads) _ i => s.Releases i) _ (by decide)
  · exact fun _ _ _ => eachStep_ofSchedule (Q := fun (s : ClientThreads) t _ =>
      s.pcs t = .testing → s.shared.socketSignal = .active) _ (by decide)

/-- The debuggee sends a message as soon as it is connected, and the socket thread of the
default session is faster than `Main`. -/
def earlyMessage : List (ClientThread × ClientInput) :=
  [(.main, .createSession true), (.socket 0, .receive (ascii "x")), (.socket 0, .go),
   (.socket 0, .go)]

/-- The thread tests a signal that is a null pointer, and its message is not processed. -/
theorem message_not_processed :
    ∃ s, ∃ h : clientStart.run clientNext earlyMessage = some s,
      Scheduled (.ofSchedule h) ∧ s.shared.faulted = true ∧ s.shared.Exists 0 ∧
      s.shared.receivedBy 0 = [ascii "x"] ∧ s.shared.processedBy 0 = [] ∧
      ¬ ProcessesAll (.ofSchedule h) := by
  refine ⟨_, rfl, ?_, rfl, ⟨0, rfl, rfl⟩, by decide, rfl, ?_⟩
  · exact scheduled_ofSchedule _ (fun _ _ => rfl) rfl (by decide)
  · exact not_processesAll_ofSchedule _ ⟨0, rfl, rfl⟩ (by decide) rfl

end ArkDb

end ArkToolchain
