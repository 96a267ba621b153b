/-
Which targets a client of the static debugger hears of (`ohos_ws_server_endpoint.cpp`,
`ohos_ws_server.cpp`, `session_manager.cpp` and `OnOpen` of `inspector_server.cpp`, with
`OnNewConnection` of `websocket_server.cpp`).

`OnOpen` is to announce every session that has an id.  But the callbacks are set in a
constructor that has no socket yet; and even if they were set, `OnNewConnection` makes the
callback before the connection counts as connected, when nothing is sent.

Main result: `targets_announced_iff`.
-/
import ArkToolchain.DecimalText
import ArkToolchain.StaticEndpoint
import ArkToolchain.Traces
import ArkToolchain.WebSocketBase

namespace ArkToolchain

namespace OhosWs

open StaticEndpoint

/-! ### The server -/

/-- The `WebSocketServer` of the connection. -/
structure Socket where
  /-- `openCb_` is set -/
  openCb : Bool := false
  state : ConnectionState := .closed
  deriving DecidableEq

/-- A connection of a client. -/
structure Client where
  /-- the ids of the sessions when it was accepted -/
  live : List Bytes
  /-- the events that have been sent to it -/
  sent : List Event := []

structure Server where
  endpoint : Option Socket := none
  /-- the sessions of the `SessionManager`, with their threads -/
  sessions : List (Bytes × Nat) := []
  /-- the last one first -/
  clients : List Client := []

namespace Server

variable (server : Server)

/-- The body of the constructor of `OhosWsServerEndpoint`. -/
def setCallbacks : Server :=
  { server with endpoint := server.endpoint.map fun socket => { socket with openCb := true } }

def create : Server := setCallbacks {}

/-- `InitEndPoint`, with a new socket. -/
def initEndPoint : Server := { server with endpoint := some {} }

def insertSession (id : Bytes) (thread : Nat) : Server :=
  if id ∈ server.sessions.map Prod.fst then server
  else { server with sessions := server.sessions ++ [(id, thread)] }

def addSession (thread : Nat) : Server :=
  server.insertSession (if server.sessions = [] then [] else natText thread) thread

def removeSession (id : Bytes) : Server :=
  { server with sessions := server.sessions.filter fun session => session.1 ≠ id }

def liveIds : List Bytes :=
  (server.sessions.map Prod.fst).filter fun id => id ≠ []

/-- `SendMessage`: only while the socket is connected. -/
def send (event : Event) : Server :=
  if server.endpoint.any fun socket => socket.state = .opened then
    { server with
      clients := server.clients.modifyHead fun c => { c with sent := c.sent ++ [event] } }
  else server

end Server

/-- The event of `SendTargetAttachedToTarget`. -/
def attachedToTarget (sessionId : Bytes) : Event where
  sessionId := []
  method := ascii "Target.attachedToTarget"
  params :=
    [(ascii "sessionId", .string sessionId),
      (ascii "targetInfo", .object
        [(ascii "targetId", .string sessionId), (ascii "type", .string (ascii "worker")),
          (ascii "title", .string sessionId), (ascii "url", .string []),
          (ascii "attached", .bool true), (ascii "canAccessOpener", .bool false)]),
      (ascii "waitingForDebugger", .bool true)]

namespace Server

/-- `InspectorServer::OnOpen`. -/
def onOpen (server : Server) : Server :=
  server.liveIds.foldl (fun server id => server.send (attachedToTarget id)) server

def setState (server : Server) (state : ConnectionState) : Server :=
  { server with endpoint := server.endpoint.map fun socket => { socket with state } }

/-- `OnNewConnection`. -/
def onNewConnection (server : Server) : Server :=
  (if server.endpoint.any Socket.openCb then server.onOpen else server).setState .opened

/-- `AcceptNewConnection`, after the handshake has succeeded. -/
def acceptNewConnection (server : Server) : Server :=
  onNewConnection
    { server.setState .connecting with clients := { live := server.liveIds } :: server.clients }

end Server

/-! ### Runs -/

inductive ServerEvent
  | initEndPoint
  | addSession (thread : Nat)
  | removeSession (id : Bytes)
  /-- an event of the debugger -/
  | send (event : Event)
  | accept
  | close

def Server.accepts (server : Server) : Bool :=
  server.endpoint.any fun socket => socket.state = .closed

def step (server : Server) : ServerEvent → Server
  | .initEndPoint => server.initEndPoint
  | .addSession thread => server.addSession thread
  | .removeSession id => server.removeSession id
  | .send event => server.send event
  | .accept => if server.accepts then server.acceptNewConnection else server
  | .close => server.setState .closed

/-! ### What is wanted -/

/-- The session is announced before any other of its events is sent. -/
def AnnouncedFirst (id : Bytes) (sent : List Event) : Prop :=
  ∃ before after, sent = before ++ attachedToTarget id :: after ∧
    ∀ event ∈ before, event.sessionId ≠ id

/-- To every client, the sessions that were there have been announced. -/
def TargetsAnnounced (server : Server) : Prop :=
  ∀ client ∈ server.clients, ∀ id ∈ client.live, AnnouncedFirst id client.sent

/-- Connections are accepted only while there is no session with an id. -/
def AcceptsEarly (server : Server) : ServerEvent → Prop
  | .accept => server.accepts = true → server.liveIds = []
  | _ => True

/-! ### Nothing is announced -/

variable {server : Server}

theorem send_of_not_opened (event : Event)
    (h : (server.endpoint.any fun socket => socket.state = .opened) = false) :
    server.send event = server := by
  rw [Server.send, if_neg (by simp [h])]

/-- Before the socket counts as connected, `OnOpen` does not send anything. -/
theorem onOpen_of_not_opened
    (h : (server.endpoint.any fun socket => socket.state = .opened) = false) :
    server.onOpen = server := by
  rw [Server.onOpen]
  induction server.liveIds with
  | nil => rfl
  | cons id ids ih =>
    rw [List.foldl_cons, send_of_not_opened _ h]
    exact ih

theorem not_opened_setState :
    ((server.setState .connecting).endpoint.any fun socket => socket.state = .opened) = false := by
  rw [Server.setState]
  cases server.endpoint with
  | none | some socket => rfl

theorem clients_acceptNewConnection :
    server.acceptNewConnection.clients = { live := server.liveIds } :: server.clients := by
  rw [Server.acceptNewConnection, Server.onNewConnection]
  split
  · rw [onOpen_of_not_opened]
    · rfl
    · exact not_opened_setState
  · rfl

theorem clients_insertSession (id : Bytes) (thread : Nat) :
    (server.insertSession id thread).clients = server.clients := by
  rw [Server.insertSession]
  split <;> rfl

theorem live_step {e : ServerEvent} {client : Client} (h : client ∈ (step server e).clients) :
    (∃ old ∈ server.clients, old.live = client.live) ∨
      (e = .accept ∧ server.accepts = true ∧ client = { live := server.liveIds }) := by
  have hold : ∀ server' : Server, server'.clients = server.clients →
      client ∈ server'.clients → ∃ old ∈ server.clients, old.live = client.live := by
    intro server' heq hmem
    rw [heq] at hmem
    exact ⟨client, hmem, rfl⟩
  cases e with
  | initEndPoint | removeSession id | close => exact .inl (hold _ rfl h)
  | addSession thread => exact .inl (hold _ (clients_insertSession _ thread) h)
  | send event =>
    left
    rw [step, Server.send] at h
    split at h
    · cases hclients : server.clients with
      | nil =>
        rw [hclients] at h
        cases h
      | cons first rest =>
        rw [hclients] at h
        rcases List.mem_cons.mp h with rfl | hrest
        · exact ⟨first, List.mem_cons_self, rfl⟩
        · exact ⟨client, List.mem_cons_of_mem _ hrest, rfl⟩
    · exact hold _ rfl h
  | accept =>
    rw [step] at h
    split at h
    · next haccepts =>
        rw [clients_acceptNewConnection] at h
        rcases List.mem_cons.mp h with rfl | hrest
        · exact .inr ⟨rfl, haccepts, rfl⟩
        · exact .inl ⟨client, hrest, rfl⟩
    · exact .inl (hold _ rfl h)

/-- **Targets are announced** exactly if a connection is accepted only while there is no
session with an id. -/
theorem targets_announced_iff (events : List ServerEvent) :
    (∀ k, TargetsAnnounced (stateAt step Server.create events k)) ↔
      Admits step AcceptsEarly Server.create events := by
  apply forall_stateAt_iff_admits (I := fun server => ∀ client ∈ server.clients, client.live = [])
  · intro server hlive client hclient id hid
    rw [hlive client hclient] at hid
    cases hid
  · intro server e hlive hearly client hclient
    rcases live_step hclient with ⟨old, hold, heq⟩ | ⟨rfl, haccepts, rfl⟩
    · rw [← heq, hlive old hold]
    · exact hearly haccepts
  · intro server e _ hearly hannounced
    cases e with
    | accept =>
      apply hearly
      intro haccepts
      rw [List.eq_nil_iff_forall_not_mem]
      intro id hid
      -- nothing has been sent to the new client
      have hnew : { live := server.liveIds } ∈ (step server .accept).clients := by
        rw [step, if_pos haccepts, clients_acceptNewConnection]
        exact List.mem_cons_self
      obtain ⟨before, after, hsent, -⟩ := hannounced _ hnew id hid
      exact List.cons_ne_nil _ _ (List.append_eq_nil_iff.mp hsent.symm).2
    | _ => exact hearly trivial
  · intro client hclient
    cases hclient

/-! ### A target that is not announced -/

/-- Two threads run when the client connects; then the second one pauses. -/
def workerPauses : List ServerEvent :=
  [.initEndPoint, .addSession 1, .addSession 2, .accept,
    .send { sessionId := ascii "2", method := ascii "Debugger.paused", params := [] }]

/-- **The client is told that session 2 is paused**, but not that it exists. -/
theorem worker_not_announced :
    (stateAt step Server.create workerPauses 5).clients.map
      (fun client => (client.live, client.sent.map Event.method)) =
        [([ascii "2"], [ascii "Debugger.paused"])] := by
  decide +kernel

end OhosWs

end ArkToolchain
