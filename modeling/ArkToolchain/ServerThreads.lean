/-
The server object shared by threads (server/websocket_server.cpp, websocket_base.cpp).

One thread accepts connections, one decodes, and any number of others close the connection or
the server and send replies.  An atomic step is an operation on an atomic member, a critical
section of the connection lock, or an operation on the server's own descriptor; the program
counters stand before these operations.  What the socket functions do is up to the environment.

The descriptors are `none` where the source has -1.  `fdLog`, `violations` (the branches in
which the source reports that its guarantees are broken), `serverClosed` and `closeReturned` are
not the source's.
-/
import ArkToolchain.Handshake
import ArkToolchain.Interleaving

namespace ArkToolchain

/-! ### Threads and program counters -/

/-- The threads: one accepts, one decodes, the others reply and close. -/
inductive ServerThread
  | accepting
  | decoding
  | other (i : Nat)
  deriving DecidableEq

/-- The two functions that accept a connection. -/
inductive AcceptCall
  | acceptNewConnection
  | connectUnixWebSocketBySocketpair
  deriving DecidableEq

/-- In `AcceptNewConnection` or `ConnectUnixWebSocketBySocketpair`; the first
four are in `MoveToConnectingState`. -/
inductive AcceptPc
  | loadServerUp (call : AcceptCall)
  | exchangeConnecting (call : AcceptCall)
  | reloadServerUp (call : AcceptCall)
  | backOff
  | accept
  | acceptExited
  | setConnectionSocket (newConnectionFd : Nat)
  | httpHandShake
  | protocolUpgrade
  | responseInvalidHandShake
  | handShakeFailed
  | onNewConnection
  deriving DecidableEq

/-- Who calls `CloseConnection` or `CloseConnectionSocket`. -/
inductive CloseCaller
  | failedAccept
  | user
  | close
  deriving DecidableEq

/-- In `CloseConnection`, and from `shutdownSocket` on in
`CloseConnectionSocket`. -/
inductive ClosePc
  | exchangeClosing
  | sendCloseFrame
  | shutdownSocket
  | closeSocket
  | exchangeClosed
  deriving DecidableEq

/-- In `Close`; `waitShutdown` and `waitReload` are in
`WaitConnectingStateEnds`. -/
inductive ShutPc
  | exchangeServerUp
  | shutdownServer
  | getConnectionState
  | closeServerEarly
  | waitShutdown
  | waitReload (connectionSocketWasShutdown : Bool)
  | closeServerLate (connection : ConnectionState)
  deriving DecidableEq

/-- In `Decode`. -/
inductive DecodePc
  | loadState
  | recvHeader
  | recvLength (wsFrame : WebSocketFrame)
  | recvMaskingKey (wsFrame : WebSocketFrame)
  | recvPayload (wsFrame : WebSocketFrame)
  | sendPongFrame
  deriving DecidableEq

/-- In `SendReply`. -/
inductive ReplyPc
  | lock
  | loadState
  | send
  deriving DecidableEq

/-- Where a thread is. -/
inductive ServerPc
  | idle
  | accept (p : AcceptPc)
  | close (caller : CloseCaller) (p : ClosePc)
  | shut (p : ShutPc)
  | decode (p : DecodePc)
  | reply (p : ReplyPc)
  deriving DecidableEq

/-! ### The shared state -/

/-- What happens to a descriptor of a connection. -/
inductive FdEvent
  | installed (fd : Nat)
  | closed (fd : Nat)
  deriving DecidableEq

/-- The branches that report a violated guarantee. -/
inductive Violation
  | moveToConnectingState
  | closeGuarantees
  | acceptExited
  | handShakeFailed
  | onNewConnection
  | closingToClosed
  deriving DecidableEq

/-- What the threads share, with a record of descriptors and violated guarantees. -/
structure ServerShared where
  connectionState : ConnectionState
  connectionFd : Option Nat
  serverUp : Bool
  serverFd : Option Nat
  sendReplyMutex : Bool := false
  fdLog : List FdEvent := []
  violations : List Violation := []
  serverClosed : Bool := false
  closeReturned : Bool := false

namespace ServerShared

def report (sh : ServerShared) (v : Violation) : ServerShared :=
  { sh with violations := sh.violations ++ [v] }

/-- `SetConnectionState` where the previous state must be `CONNECTING`. -/
def leaveConnecting (sh : ServerShared) (newState : ConnectionState) (v : Violation) :
    ServerShared :=
  { sh with
    connectionState := newState
    violations := if sh.connectionState ≠ .connecting then sh.violations ++ [v]
      else sh.violations }

/-- The end of a call; for `CloseConnection` and `CloseConnectionSocket` the
caller returns with it. -/
def returned (sh : ServerShared) (caller : CloseCaller) : ServerShared :=
  { sh with closeReturned := sh.closeReturned || caller == .close }

def closeServerSocket (sh : ServerShared) : ServerShared :=
  { sh with serverFd := none, serverClosed := true }

end ServerShared

/-! ### The steps -/

/-- What the environment supplies to a step: the call an idle thread makes,
the descriptor `accept` returns, the bytes `recv` brings, or just whether a
socket function succeeds. -/
inductive ServerInput
  | call (c : ServerPc)
  | accepted (fd : Nat)
  | recv (buf : Bytes)
  | ok
  | fail
  deriving DecidableEq

/-- The calls a thread may make, by their first program counter. -/
def ServerThread.mayCall : ServerThread → ServerPc → Bool
  | .accepting, .accept (.loadServerUp _) => true
  | .decoding, .decode .loadState => true
  | .other _, .close .user .exchangeClosing => true
  | .other _, .shut .exchangeServerUp => true
  | .other _, .reply .lock => true
  | _, _ => false

/-- `HttpHandShake` after its `recv`. -/
def handShakeReceived (validateCb : Option (HttpRequest → Bool)) (msgBuf : Bytes) : AcceptPc :=
  if msgBuf.length = 0 then .handShakeFailed
  else
    let (decoded, req) := HttpRequest.decode msgBuf
    if !decoded then .handShakeFailed
    else if validateCb.any fun cb => !cb req then .handShakeFailed
    else if validateHandShakeMessage req then .protocolUpgrade
    else .responseInvalidHandShake

/-- A step of `AcceptNewConnection`. -/
def nextAccept (validateCb : Option (HttpRequest → Bool)) (sh : ServerShared) (i : ServerInput) :
    AcceptPc → ServerShared × ServerPc
  | .loadServerUp call =>
    if sh.serverUp then (sh, .accept (.exchangeConnecting call)) else (sh, .idle)
  | .exchangeConnecting call =>
    match sh.connectionState with
    | .closed =>
      ({ sh with connectionState := .connecting }, .accept (.reloadServerUp call))
    | .connecting => (sh.report .moveToConnectingState, .idle)
    | .closing | .opened => (sh, .idle)
  | .reloadServerUp call =>
    if sh.serverUp then
      match call with
      | .acceptNewConnection => (sh, .accept .accept)
      | .connectUnixWebSocketBySocketpair => (sh, .accept .httpHandShake)
    else (sh, .accept .backOff)
  | .backOff => (sh.leaveConnecting .closed .closeGuarantees, .idle)
  | .accept =>
    -- `accept` on -1 fails
    match sh.serverFd, i with
    | some _, .accepted newConnectionFd => (sh, .accept (.setConnectionSocket newConnectionFd))
    | _, _ => (sh, .accept .acceptExited)
  | .acceptExited => (sh.leaveConnecting .closed .acceptExited, .idle)
  | .setConnectionSocket newConnectionFd =>
    ({ sh with
        connectionFd := some newConnectionFd
        fdLog := sh.fdLog ++ [.installed newConnectionFd] }, .accept .httpHandShake)
  | .httpHandShake =>
    match i with
    | .recv msgBuf => (sh, .accept (handShakeReceived validateCb msgBuf))
    | _ => (sh, .accept .handShakeFailed)
  | .protocolUpgrade =>
    if i = .ok then (sh, .accept .onNewConnection) else (sh, .accept .handShakeFailed)
  | .responseInvalidHandShake => (sh, .accept .handShakeFailed)
  | .handShakeFailed =>
    (sh.leaveConnecting .closing .handShakeFailed, .close .failedAccept .shutdownSocket)
  | .onNewConnection => (sh.leaveConnecting .opened .onNewConnection, .idle)

/-- A step of `CloseConnection`. -/
def nextClose (sh : ServerShared) (caller : CloseCaller) : ClosePc → ServerShared × ServerPc
  | .exchangeClosing =>
    if sh.connectionState = .opened then
      ({ sh with connectionState := .closing }, .close caller .sendCloseFrame)
    else (sh.returned caller, .idle)
  | .sendCloseFrame => (sh, .close caller .shutdownSocket)
  | .shutdownSocket => (sh, .close caller .closeSocket)
  | .closeSocket =>
    ({ sh with
        connectionFd := none
        fdLog := sh.fdLog ++ (sh.connectionFd.map FdEvent.closed).toList },
      .close caller .exchangeClosed)
  | .exchangeClosed =>
    if sh.connectionState = .closing then
      ({ sh with connectionState := .closed }.returned caller, .idle)
    else ((sh.report .closingToClosed).returned caller, .idle)

/-- A step of `Close`. -/
def nextShut (sh : ServerShared) : ShutPc → ServerShared × ServerPc
  | .exchangeServerUp =>
    if sh.serverUp then ({ sh with serverUp := false }, .shut .shutdownServer)
    else (sh.returned .close, .idle)
  | .shutdownServer => (sh, .shut .getConnectionState)
  | .getConnectionState =>
    match sh.connectionState with
    | .closing | .closed => (sh, .shut .closeServerEarly)
    | .connecting => (sh, .shut .waitShutdown)
    | .opened => (sh, .shut (.closeServerLate .opened))
  | .closeServerEarly => (sh.closeServerSocket.returned .close, .idle)
  | .waitShutdown => (sh, .shut (.waitReload sh.connectionFd.isSome))
  | .waitReload connectionSocketWasShutdown =>
    -- a socket that is accepted later must still be shut down
    match sh.connectionState with
    | .connecting =>
      if connectionSocketWasShutdown then (sh, .shut (.waitReload true))
      else (sh, .shut .waitShutdown)
    | connection => (sh, .shut (.closeServerLate connection))
  | .closeServerLate connection =>
    match connection with
    | .closing | .closed => (sh.closeServerSocket.returned .close, .idle)
    | _ => (sh.closeServerSocket, .close .close .exchangeClosing)

/-- `Decode` after the payload: a PING is answered. -/
def decodedFrame (wsFrame : WebSocketFrame) : ServerPc :=
  if wsFrame.opcode = FrameType.ping.enumToNumber then .decode .sendPongFrame else .idle

/-- `DecodeMessage` up to its first `RecvUnderLock`; a length beyond the
maximum makes it throw. -/
def decodeMessagePc (wsFrame : WebSocketFrame) : ServerPc :=
  if wsFrame.payloadLen = 0 then decodedFrame wsFrame
  else if stringMaxSize < wsFrame.payloadLen then .idle
  else .decode (.recvMaskingKey wsFrame)

/-- `ReadPayload` up to its first `RecvUnderLock`. -/
def readPayloadPc (wsFrame : WebSocketFrame) : ServerPc :=
  if wsFrame.payloadLen = WebSocketFrame.twoBytesLenthEnc
      ∨ wsFrame.payloadLen = WebSocketFrame.eightBytesLenthEnc then
    .decode (.recvLength wsFrame)
  else decodeMessagePc wsFrame

/-- `Decode` after a header of two bytes. -/
def decodeHeaderPc (wsFrame : WebSocketFrame) : ServerPc :=
  if !Connection.validateIncomingFrame .server wsFrame then .close .user .exchangeClosing
  else if wsFrame.opcode = FrameType.text.enumToNumber
      ∨ wsFrame.opcode = FrameType.ping.enumToNumber then readPayloadPc wsFrame
  else if wsFrame.opcode = FrameType.close.enumToNumber then .close .user .exchangeClosing
  else .idle

/-- A step of `Decode`. -/
def nextDecode (sh : ServerShared) (i : ServerInput) : DecodePc → ServerPc
  | .loadState => if sh.connectionState = .opened then .decode .recvHeader else .idle
  | .recvHeader =>
    match i with
    | .recv [headerRaw₀, headerRaw₁] =>
      decodeHeaderPc (WebSocketFrame.ofHeader headerRaw₀ headerRaw₁)
    | _ => .close .user .exchangeClosing
  | .recvLength wsFrame =>
    match i with
    | .recv recvbuf => decodeMessagePc { wsFrame with payloadLen := netToHostLongLong recvbuf }
    | _ => .close .user .exchangeClosing
  | .recvMaskingKey wsFrame =>
    match i with
    | .recv _ => .decode (.recvPayload wsFrame)
    | _ => .close .user .exchangeClosing
  | .recvPayload wsFrame =>
    match i with
    | .recv _ => decodedFrame wsFrame
    | _ => .close .user .exchangeClosing
  | .sendPongFrame => .idle

/-- A step of `SendReply`, which may have to wait for its mutex. -/
def nextReply (sh : ServerShared) : ReplyPc → Option (ServerShared × ServerPc)
  | .lock =>
    if sh.sendReplyMutex then none
    else some ({ sh with sendReplyMutex := true }, .reply .loadState)
  | .loadState =>
    if sh.connectionState ≠ .opened then some ({ sh with sendReplyMutex := false }, .idle)
    else some (sh, .reply .send)
  | .send => some ({ sh with sendReplyMutex := false }, .idle)

/-- A step of a thread. -/
def serverNext (validateCb : Option (HttpRequest → Bool)) (t : ServerThread) (sh : ServerShared)
    (pc : ServerPc) (i : ServerInput) : Option (ServerShared × ServerPc) :=
  match pc with
  | .idle =>
    match i with
    | .call c => if t.mayCall c then some (sh, c) else none
    | _ => none
  | .accept p => some (nextAccept validateCb sh i p)
  | .close caller p => some (nextClose sh caller p)
  | .shut p => some (nextShut sh p)
  | .decode p => some (sh, nextDecode sh i p)
  | .reply p => nextReply sh p

/-- A server and its threads. -/
abbrev ServerThreads := Threads ServerThread ServerShared ServerPc

namespace ServerThreads

/-- A server that listens: after `InitTcpWebSocket` or `InitUnixWebSocket`
with a socket name. -/
def listening (serverFd : Nat) : ServerThreads where
  shared :=
    { connectionState := .closed, connectionFd := none, serverUp := true
      serverFd := some serverFd }
  pcs := fun _ => .idle

/-- A server that was given one end of a socket pair. -/
def socketpair (socketfd : Nat) : ServerThreads where
  shared :=
    { connectionState := .closed, connectionFd := some socketfd, serverUp := true, serverFd := none
      fdLog := [.installed socketfd] }
  pcs := fun _ => .idle

/-- The servers that the initialisation functions leave behind. -/
def Initial (s : ServerThreads) : Prop :=
  (∃ fd, s = listening fd) ∨ ∃ fd, s = socketpair fd

end ServerThreads

end ArkToolchain
