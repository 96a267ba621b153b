/-
One end of a WebSocket connection: `Decode` and what it calls (websocket/websocket_base.cpp,
websocket/network.cpp, and what server/websocket_server.cpp and client/websocket_client.cpp
override).

What the peer sends is the list of segments that successive `recv` calls return.  A socket that
stops accepting data is modelled by `room`, the number of bytes that `send` still takes: `Send`
loops over the rest, so only the total counts.  The virtual functions are definitions by cases
on the `Endpoint`. Resizing the payload beyond `std::string::max_size()` throws, which is the
`LengthError`.
-/
import ArkToolchain.FrameBuilder
import ArkToolchain.Segments

namespace ArkToolchain

open WebSocketFrame

/-! ### Connection state -/

/-- `WebSocketBase::ConnectionState`; `opened` is the source's `OPEN`. -/
inductive ConnectionState
  | connecting
  | opened
  | closing
  | closed
  deriving DecidableEq

inductive ConnectionCloseReason
  | fail
  | close
  deriving DecidableEq

inductive CloseStatusCode
  | noStatusCode
  | normal
  | serverGoAway
  | protocolError
  | unacceptableData
  | inconsistentData
  | policyViolation
  | messageTooBig
  | unexpectedError
  deriving DecidableEq

def CloseStatusCode.enumToNumber : CloseStatusCode → Nat
  | .noStatusCode => 0
  | .normal => 1000
  | .serverGoAway => 1001
  | .protocolError => 1002
  | .unacceptableData => 1003
  | .inconsistentData => 1007
  | .policyViolation => 1008
  | .messageTooBig => 1009
  | .unexpectedError => 1011

/-- `ToString(CloseStatusCode)`: the payload of a close frame. -/
def CloseStatusCode.toBytes (status : CloseStatusCode) : Bytes :=
  if status = .noStatusCode then []
  else pushNumberPerByte 2 [] status.enumToNumber

/-- Which of the two final classes the object belongs to. -/
inductive Endpoint
  | server
  | client
  deriving DecidableEq

structure Connection where
  connectionState : ConnectionState
  /-- The segments that `recv` will return. -/
  incoming : List Bytes
  /-- The number of further bytes `send` accepts before it fails. -/
  room : Nat
  /-- Everything written so far. -/
  outgoing : Bytes := []
  /-- The masking keys `GenerateMaskKey` will draw. -/
  maskKeys : List MaskingKey := []
  /-- The close and fail callbacks that have been run. -/
  callbacks : List ConnectionCloseReason := []
  deriving DecidableEq

/-- `std::length_error`, thrown by `resize`. -/
inductive LengthError
  | lengthError
  deriving DecidableEq

/-- `std::string::max_size()`, which depends on the library. -/
class StringLimit where
  stringMaxSize : Nat
  le_stringMaxSize : 2 ^ 63 - 1 ≤ stringMaxSize

export StringLimit (stringMaxSize)

/-- The limit of libc++ on 64-bit targets, where nothing else is said. -/
instance : StringLimit := ⟨2 ^ 64 - 17, by decide⟩

/-! ### Network functions -/

/-- The loop of `NetToHostLongLong` over the bytes still to come; the shift is
skipped after the last one. -/
def netToHostLoop (result : Nat) : Bytes → Nat
  | [] => result
  | [b] => result ||| b.toNat
  | b :: bs => netToHostLoop (((result ||| b.toNat) <<< 8) % 2 ^ 64) bs

def netToHostLongLong (buf : Bytes) : Nat :=
  netToHostLoop 0 buf

namespace Connection

variable [StringLimit] (ep : Endpoint) (c : Connection) (wsFrame : WebSocketFrame)

/-- `RecvUnderLock`: the bytes received; the call succeeded when all `n` came. -/
def recvUnderLock (c : Connection) (n : Nat) : Bytes × Connection :=
  let r := readExact n c.incoming
  (r.1, { c with incoming := r.2 })

/-- `SendUnderLock`. -/
def sendUnderLock (c : Connection) (message : Bytes) : Bool × Connection :=
  (message.length ≤ c.room,
    { c with outgoing := c.outgoing ++ message.take c.room, room := c.room - message.length })

/-- `CreateFrame`; the client's version draws a masking key. -/
def createFrame (isLast : Bool) (frameType : FrameType) (payload : Bytes) : Bytes × Connection :=
  match ep with
  | .server =>
    let builder : ServerFrameBuilder := { fin := isLast, opcode := frameType }
    ((builder.setPayload payload).build, c)
  | .client =>
    let builder : ClientFrameBuilder :=
      { fin := isLast, opcode := frameType,
        maskingKey := c.maskKeys.headD (Vector.replicate 4 0) }
    ((builder.setPayload payload).build, { c with maskKeys := c.maskKeys.tail })

/-! ### Closing -/

def sendPongFrame (payload : Bytes) : Connection :=
  let (frame, c) := c.createFrame ep true .pong payload
  (c.sendUnderLock frame).2

def sendCloseFrame (status : CloseStatusCode) : Connection :=
  let (frame, c) := c.createFrame ep true .close status.toBytes
  (c.sendUnderLock frame).2

def closeConnectionSocket (c : Connection) (status : ConnectionCloseReason) : Connection :=
  let c := { c with callbacks := c.callbacks ++ [status] }
  if c.connectionState = .closing then { c with connectionState := .closed } else c

def closeConnection (status : CloseStatusCode) : Bool × Connection :=
  if c.connectionState ≠ .opened then (false, c)
  else
    let c := { c with connectionState := .closing }
    let c := c.sendCloseFrame ep status
    (true, c.closeConnectionSocket .close)

/-! ### Reading a frame -/

/-- `ValidateIncomingFrame`: a server accepts masked frames only, a client
unmasked ones only. -/
def validateIncomingFrame : Bool :=
  match ep with
  | .server => wsFrame.mask == 1
  | .client => wsFrame.mask == 0

/-- `DecodeMessage`; `none` when it returns false. -/
def decodeMessage : Except LengthError (Option WebSocketFrame × Connection) :=
  let msgLen := wsFrame.payloadLen
  -- receiving empty data is OK, also where a masking key follows
  if msgLen = 0 then .ok (some wsFrame, c)
  -- the string is resized before anything is received
  else if stringMaxSize < msgLen then .error .lengthError
  else
    match ep with
    | .server =>
      let (maskingKey, c) := c.recvUnderLock maskLen
      if maskingKey.length ≠ maskLen then .ok (none, c)
      else
        let key := MaskingKey.ofBytes maskingKey
        let (buffer, c) := c.recvUnderLock msgLen
        if buffer.length ≠ msgLen then .ok (none, c)
        else
          let buffer := buffer.mapIdx fun i b => b ^^^ key.stream i
          .ok (some { wsFrame with maskingKey := key, payload := buffer }, c)
    | .client =>
      let (buffer, c) := c.recvUnderLock msgLen
      if buffer.length ≠ msgLen then .ok (none, c)
      else .ok (some { wsFrame with payload := buffer }, c)

def readPayload : Except LengthError (Option WebSocketFrame × Connection) :=
  if wsFrame.payloadLen = twoBytesLenthEnc then
    let (recvbuf, c) := c.recvUnderLock twoBytesLenth
    if recvbuf.length ≠ twoBytesLenth then .ok (none, c)
    else c.decodeMessage ep { wsFrame with payloadLen := netToHostLongLong recvbuf }
  else if wsFrame.payloadLen = eightBytesLenthEnc then
    let (recvbuf, c) := c.recvUnderLock eightBytesLenth
    if recvbuf.length ≠ eightBytesLenth then .ok (none, c)
    else c.decodeMessage ep { wsFrame with payloadLen := netToHostLongLong recvbuf }
  else c.decodeMessage ep wsFrame

def handleDataFrame : Except LengthError (Option WebSocketFrame × Connection) :=
  if wsFrame.opcode = FrameType.text.enumToNumber then c.readPayload ep wsFrame
  -- an unsupported data frame is reported, and its payload left on the stream
  else .ok (some wsFrame, c)

def handleControlFrame : Except LengthError (Option WebSocketFrame × Connection) :=
  if wsFrame.opcode = FrameType.ping.enumToNumber then
    match c.readPayload ep wsFrame with
    | .error e => .error e
    | .ok (none, c) => .ok (none, c)
    | .ok (some wsFrame, c) => .ok (some wsFrame, c.sendPongFrame ep wsFrame.payload)
  else if wsFrame.opcode = FrameType.close.enumToNumber then
    .ok (some wsFrame, (c.closeConnection ep .noStatusCode).2)
  -- PONG and the reserved opcodes
  else .ok (some wsFrame, c)

/-- `DECODE_DISCONNECT_MSG`. -/
def decodeDisconnectMsg : Bytes := ascii "disconnect"

/-- The end of `Decode`: the payload of the handled frame, or, on unexpected
data, closing the connection. -/
def decodeHandled :
    Except LengthError (Option WebSocketFrame × Connection) →
      Except LengthError (Bytes × Connection)
  | .error e => .error e
  | .ok (some wsFrame, c) => .ok (wsFrame.payload, c)
  | .ok (none, c) => .ok (decodeDisconnectMsg, (c.closeConnection ep .protocolError).2)

/-- `Decode`: the returned string and the connection afterwards. -/
def decode : Except LengthError (Bytes × Connection) :=
  if c.connectionState ≠ .opened then .ok ([], c)
  else
    match c.recvUnderLock headerLen with
    | ([headerRaw₀, headerRaw₁], c) =>
      let wsFrame := ofHeader headerRaw₀ headerRaw₁
      if !validateIncomingFrame ep wsFrame then
        .ok (decodeDisconnectMsg, (c.closeConnection ep .protocolError).2)
      else if isControlFrame wsFrame.opcode then
        decodeHandled ep (c.handleControlFrame ep wsFrame)
      else decodeHandled ep (c.handleDataFrame ep wsFrame)
    | (_, c) => .ok (decodeDisconnectMsg, (c.closeConnection ep .unexpectedError).2)

/-- Successive calls of `Decode`, with the strings they return. -/
def decodeMany (ep : Endpoint) : Nat → Connection → Except LengthError (List Bytes × Connection)
  | 0, c => .ok ([], c)
  | n + 1, c =>
    match c.decode ep with
    | .error e => .error e
    | .ok (message, c) =>
      match decodeMany ep n c with
      | .error e => .error e
      | .ok (messages, c) => .ok (message :: messages, c)

end Connection

end ArkToolchain
