/-
The socket of a server that has one server thread (`ws_server.cpp`, `connect_server.cpp`).

The calls are those of `ServerThreads`, made by the roles `accepting`, `decoding` and `other 0`
there.  What is added is which of the two sockets has been shut down, so that a call that waits
for it returns.
-/
import ArkToolchain.ServerShutdown

namespace ArkToolchain

/-! ### Roles -/

inductive SocketThread
  | server
  | stopper
  deriving DecidableEq

def ServerThread.thread : ServerThread → SocketThread
  | .accepting | .decoding => .server
  | .other _ => .stopper

def CloseCaller.role : CloseCaller → ServerThread
  | .failedAccept => .accepting
  | .user => .decoding
  | .close => .other 0

def ServerPc.role : ServerPc → Option ServerThread
  | .accept _ => some .accepting
  | .decode _ => some .decoding
  | .shut _ => some (.other 0)
  | .close caller _ => some caller.role
  | .idle | .reply _ => none

variable {i : ServerInput}

theorem SocketThread.step_cases {Sh Pc : Type*}
    {next : SocketThread → Sh → Pc → ServerInput → Option (Sh × Pc)}
    {s s' : Threads SocketThread Sh Pc} {t : SocketThread} (h : s.step next t i = some s') :
    (t = .server ∧ next t s.shared (s.pcs .server) i = some (s'.shared, s'.pcs .server)
      ∧ s'.pcs .stopper = s.pcs .stopper)
    ∨ t = .stopper ∧ next t s.shared (s.pcs .stopper) i = some (s'.shared, s'.pcs .stopper)
      ∧ s'.pcs .server = s.pcs .server := by
  obtain ⟨sh', pc', hn, rfl⟩ := Threads.step_eq_some h
  cases t with
  | server => exact .inl ⟨rfl, by simpa using hn, by simp⟩
  | stopper => exact .inr ⟨rfl, by simpa using hn, by simp⟩

theorem role_nextDecode (sh : ServerShared) (i : ServerInput) (q : DecodePc) :
    nextDecode sh i q = .idle ∨ (nextDecode sh i q).role = some .decoding :=
  nextDecode_of (P := fun p => p = .idle ∨ p.role = some .decoding) sh i (.inl rfl)
    (fun _ => .inr rfl) fun _ _ => .inr rfl

theorem role_serverNext {validateCb : Option (HttpRequest → Bool)} {role : ServerThread}
    {sh sh' : ServerShared} {p p' : ServerPc} (hp : p.role = some role)
    (h : serverNext validateCb role sh p i = some (sh', p')) :
    p' = .idle ∨ p'.role = some role := by
  cases p with
  | idle | reply q => cases hp
  | accept q =>
    obtain rfl : (nextAccept validateCb sh i q).2 = p' := congrArg Prod.snd (Option.some.inj h)
    cases hp
    fun_cases nextAccept validateCb sh i q
    all_goals first
      | exact .inl rfl
      | exact .inr rfl
  | decode q =>
    obtain rfl : nextDecode sh i q = p' := congrArg Prod.snd (Option.some.inj h)
    cases hp
    exact role_nextDecode sh i q
  | close caller q =>
    obtain rfl : (nextClose sh caller q).2 = p' := congrArg Prod.snd (Option.some.inj h)
    fun_cases nextClose sh caller q
    all_goals first
      | exact .inl rfl
      | exact .inr hp
  | shut q =>
    obtain rfl : (nextShut sh q).2 = p' := congrArg Prod.snd (Option.some.inj h)
    obtain hq | ⟨q', hq⟩ | hq := nextShut_target sh q
    all_goals rw [hq]
    · exact .inl rfl
    all_goals
      exact .inr hp

/-! ### The socket -/

/-- The socket object and the sockets of the system. -/
structure SocketState where
  server : ServerShared
  /-- `serverFd_` has been shut down. -/
  serverShut : Bool := false
  /-- `connectionFd_` has been shut down. -/
  connectionShut : Bool := false

namespace SocketState

/-- What the system notes of a step at `p`. -/
def moved (ws : SocketState) (p : ServerPc) (server : ServerShared) : SocketState where
  server := server
  serverShut := ws.serverShut || p == .shut .shutdownServer
  connectionShut :=
    match p with
    | .accept (.setConnectionSocket _) => false
    | .close _ .shutdownSocket => true
    | .shut .waitShutdown => ws.connectionShut || ws.server.connectionFd.isSome
    | _ => ws.connectionShut

def next (validateCb : Option (HttpRequest → Bool)) (ws : SocketState) (p : ServerPc)
    (i : ServerInput) : Option (SocketState × ServerPc) :=
  p.role.bind fun role =>
    (serverNext validateCb role ws.server p i).map fun r => (ws.moved p r.1, r.2)

theorem next_eq_some {validateCb : Option (HttpRequest → Bool)} {ws ws' : SocketState}
    {p p' : ServerPc} (h : ws.next validateCb p i = some (ws', p')) :
    ∃ role server, p.role = some role
      ∧ serverNext validateCb role ws.server p i = some (server, p')
      ∧ ws' = ws.moved p server := by
  obtain ⟨role, hrole, hmap⟩ := Option.bind_eq_some_iff.mp h
  obtain ⟨⟨server, q⟩, hnext, heq⟩ := Option.map_eq_some_iff.mp hmap
  cases heq
  exact ⟨role, server, hrole, hnext, rfl⟩

/-- Receiving on the connection does not wait. -/
def Unblocked (ws : SocketState) : Prop :=
  ws.connectionShut = true ∨ ws.server.connectionFd = none

instance (ws : SocketState) : Decidable ws.Unblocked :=
  inferInstanceAs (Decidable (_ ∨ _))

end SocketState

/-- The state of a socket that is not initialised; it has no descriptor. -/
def ServerShared.down : ServerShared where
  connectionState := .closed
  connectionFd := none
  serverUp := false
  serverFd := none
  serverClosed := true

/-- `InitTcpWebSocket` or `InitUnixWebSocket`, which gets a descriptor or fails. -/
def initWebSocket (call : AcceptCall) (i : ServerInput) : ServerShared :=
  match i, call with
  | .accepted fd, .acceptNewConnection => (ServerThreads.listening fd).shared
  | .accepted fd, .connectUnixWebSocketBySocketpair => (ServerThreads.socketpair fd).shared
  | _, _ => .down

/-! ### Where a call waits -/

/-- In a `send`, under the connection lock. -/
def ServerPc.sends : ServerPc → Bool
  | .accept .protocolUpgrade | .accept .responseInvalidHandShake | .decode .sendPongFrame
  | .close _ .sendCloseFrame => true
  | _ => false

/-- In a `recv` of `Decode`, under the connection lock. -/
def ServerPc.receives : ServerPc → Bool
  | .decode .recvHeader | .decode (.recvLength _) | .decode (.recvMaskingKey _)
  | .decode (.recvPayload _) => true
  | _ => false

/-- In a `recv` or `send`. -/
def ServerPc.locks (p : ServerPc) : Bool :=
  p.sends || p.receives || p == .accept .httpHandShake

/-- The call at `p` is sure to go on: shutting a socket down makes `accept` and `recv`
return, and the lock is free for the one that closes the connection.  Nothing is said
about `send`. -/
def SocketState.Returns (ws : SocketState) (p other : ServerPc) : Prop :=
  match p with
  | .accept .accept => ws.serverShut = true ∨ ws.server.serverFd = none
  | .accept .httpHandShake => ws.Unblocked
  | .close _ .closeSocket => other.locks = false
  | p => if p.receives then ws.Unblocked else p.sends = false

theorem SocketState.returns_of {ws : SocketState} {p other : ServerPc} (hsends : p.sends = false)
    (haccept : p = .accept .accept → ws.serverShut = true)
    (hshake : p = .accept .httpHandShake → ws.Unblocked)
    (hlock : ∀ caller, p = .close caller .closeSocket → other.locks = false)
    (hreceives : p.receives = true → ws.Unblocked) : ws.Returns p other := by
  unfold SocketState.Returns
  split
  · exact .inl (haccept rfl)
  · exact hshake rfl
  · exact hlock _ rfl
  · split
    next h => exact hreceives h
    next => exact hsends

/-- `Decode` throws for a frame that is longer than a string can be. -/
def ServerPc.throws (p : ServerPc) (i : ServerInput) : Bool :=
  match p, i with
  | .decode (.recvLength _), .recv recvbuf => stringMaxSize < netToHostLongLong recvbuf
  | _, _ => false

end ArkToolchain
