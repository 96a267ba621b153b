/-
The opening handshake (websocket/handshake_helper.cpp, and the handshake functions of
server/websocket_server.cpp and client/websocket_client.cpp).

The digest and the base64 encoding are library functions; `Crypto` holds them with the three
facts that the handshake rests on.  The header values that are inserted into the fixed texts
contain neither a colon nor a carriage return, so every value is found in its place.

Main result: both ends agree (`handshake_agreement`).
-/
import ArkToolchain.Http
import ArkToolchain.WebSocketBase

namespace ArkToolchain

open HttpBase

/-- `GetBase64EncodingLength`. -/
def getBase64EncodingLength (inputLength : Nat) : Nat :=
  let paddingOffset := 2
  (inputLength + paddingOffset) / 3 * 4

/-- The base64 alphabet and its padding character. -/
def isBase64 (ch : UInt8) : Bool :=
  (0x41 ≤ ch && ch ≤ 0x5a) || (0x61 ≤ ch && ch ≤ 0x7a) || (0x30 ≤ ch && ch ≤ 0x39)
    || ch == 0x2b || ch == 0x2f || ch == 0x3d

/-- `SHA1` and `EVP_EncodeBlock`, the latter without its terminating NUL. -/
structure Crypto where
  sha1 : Bytes → Bytes
  evpEncodeBlock : Bytes → Bytes
  length_sha1 : ∀ source, (sha1 source).length = 20
  length_evpEncodeBlock : ∀ source,
    (evpEncodeBlock source).length = getBase64EncodingLength source.length
  isBase64_evpEncodeBlock : ∀ source, ∀ ch ∈ evpEncodeBlock source, isBase64 ch

/-- The string that starts at a `char *`. -/
def cString (buffer : Bytes) : Bytes := buffer.takeWhile (· != 0)

/-! ### Keys -/

namespace WebSocketKeyEncoder

/-- `WEB_SOCKET_GUID`. -/
def webSocketGuid : Bytes := ascii "258EAFA5-E914-47DA-95CA-C5AB0DC85B11"

abbrev secWebSocketKeyBytesLen : Nat := 16
abbrev keyLength : Nat := 24
abbrev encodedKeyLen : Nat := 28

/-- `GenerateRandomSecWSKey` with the result of `RAND_bytes`: whether it
succeeded, and the destination afterwards. -/
def generateRandomSecWSKey (crypto : Crypto) (bytes : Option (Vector UInt8 secWebSocketKeyBytesLen))
    (destination : Bytes) : Bool × Bytes :=
  match bytes with
  | none => (false, destination)
  | some bytes =>
    let destination := crypto.evpEncodeBlock bytes.toList ++ [0]
    if (crypto.evpEncodeBlock bytes.toList).length ≠ keyLength then
      (false, destination.set 0 0)
    else (true, destination.set keyLength 0)

/-- `EncodeKey`: the NUL-terminated destination, if it succeeds. -/
def encodeKey (crypto : Crypto) (key : Bytes) : Option Bytes :=
  let hash := crypto.sha1 (key ++ webSocketGuid)
  let destination := crypto.evpEncodeBlock hash
  if destination.length ≠ encodedKeyLen then none else some (destination ++ [0])

end WebSocketKeyEncoder

namespace ProtocolUpgradeBuilder

/-- `CopyStringToBuffer`: the characters from an index on, and the next index. -/
def copyStringToBuffer (buffer : Bytes) : Bytes → Nat → Bytes × Nat
  | [], startIndex => (buffer, startIndex)
  | c :: source, startIndex =>
    copyStringToBuffer (buffer.set startIndex c) source (startIndex + 1)

def switchingProtocols : Bytes := ascii "HTTP/1.1 101 Switching Protocols"
def connectionUpgrade : Bytes := ascii "Connection: Upgrade"
def upgradeWebsocket : Bytes := ascii "Upgrade: websocket"
def acceptKey : Bytes := ascii "Sec-WebSocket-Accept: "

/-- Where the key stands in the response. -/
def keyStart : Nat :=
  switchingProtocols.length + connectionUpgrade.length + upgradeWebsocket.length
    + acceptKey.length + 3 * eol.length

/-- `MESSAGE_LENGTH`. -/
def messageLength : Nat :=
  keyStart + WebSocketKeyEncoder.encodedKeyLen + 2 * eol.length

/-- The buffer after the default constructor, with room for the key. -/
def upgradeBuffer : Bytes :=
  let buffer := List.replicate (messageLength + 1) 0
  let (buffer, index) := copyStringToBuffer buffer switchingProtocols 0
  let (buffer, index) := copyStringToBuffer buffer eol index
  let (buffer, index) := copyStringToBuffer buffer connectionUpgrade index
  let (buffer, index) := copyStringToBuffer buffer eol index
  let (buffer, index) := copyStringToBuffer buffer upgradeWebsocket index
  let (buffer, index) := copyStringToBuffer buffer eol index
  let (buffer, index) := copyStringToBuffer buffer acceptKey index
  let index := index + WebSocketKeyEncoder.encodedKeyLen
  let (buffer, index) := copyStringToBuffer buffer eol index
  (copyStringToBuffer buffer eol index).1

/-- `SetKey`; the terminating NUL of the array is not copied. -/
def setKey (buffer encodedKey : Bytes) : Bytes :=
  (copyStringToBuffer buffer (encodedKey.take WebSocketKeyEncoder.encodedKeyLen) keyStart).1

/-- `GetUpgradeMessage` and `GetLength`. -/
def upgradeMessage (encodedKey : Bytes) : Bytes :=
  (setKey upgradeBuffer encodedKey).take messageLength

end ProtocolUpgradeBuilder

/-! ### Server -/

/-- `ValidateHandShakeMessage`. -/
def validateHandShakeMessage (req : HttpRequest) : Bool :=
  let upgradeHeaderValue := toLowerCase req.upgrade
  let connectionValue := toLowerCase req.connection
  (find (ascii "upgrade") connectionValue 0).isSome
    && (find (ascii "websocket") upgradeHeaderValue 0).isSome
    && req.version == ascii "HTTP/1.1"

namespace Connection

abbrev httpHandshakeMaxLen : Nat := 1024

/-- `ProtocolUpgrade`: the response with the encoded key. -/
def protocolUpgrade (crypto : Crypto) (c : Connection) (req : HttpRequest) : Bool × Connection :=
  match WebSocketKeyEncoder.encodeKey crypto req.secWebSocketKey with
  | none => (false, c)
  | some encodedKey => c.sendUnderLock (ProtocolUpgradeBuilder.upgradeMessage encodedKey)

def badRequestResponse : Bytes := ascii "HTTP/1.1 400 Bad Request\r\n\r\n"

/-- `ResponseInvalidHandShake`. -/
def responseInvalidHandShake (c : Connection) : Bool × Connection :=
  c.sendUnderLock badRequestResponse

/-- `HttpHandShake`: one receive, whatever it brings, is the request. -/
def httpHandShake (crypto : Crypto) (validateCb : Option (HttpRequest → Bool)) (c : Connection) :
    Bool × Connection :=
  let (msgBuf, incoming) := readSome httpHandshakeMaxLen c.incoming
  let c := { c with incoming := incoming }
  if msgBuf.length = 0 then (false, c)
  else
    let (decoded, req) := HttpRequest.decode msgBuf
    if !decoded then (false, c)
    else if validateCb.any fun cb => !cb req then (false, c)
    else if validateHandShakeMessage req then c.protocolUpgrade crypto req
    else (false, c.responseInvalidHandShake.2)

end Connection

/-! ### Client -/

/-- The client has a buffer for its key. -/
structure WebSocketClient extends Connection where
  secWebSocketKey : Bytes := List.replicate (WebSocketKeyEncoder.keyLength + 1) 0

namespace WebSocketClient

/-- The request up to its key. -/
def upgradeReqBeforeKey : Bytes :=
  ascii "GET / HTTP/1.1\r\n"
    ++ ascii "Connection: Upgrade\r\n"
    ++ ascii "Pragma: no-cache\r\n"
    ++ ascii "Cache-Control: no-cache\r\n"
    ++ ascii "Upgrade: websocket\r\n"
    ++ ascii "Sec-WebSocket-Version: 13\r\n"
    ++ ascii "Accept-Encoding: gzip, deflate, br\r\n"
    ++ ascii "Sec-WebSocket-Key: "

/-- The rest of the request. -/
def upgradeReqAfterKey : Bytes :=
  ascii "\r\nSec-WebSocket-Extensions: permessage-deflate\r\n"
    ++ ascii "\r\n"

/-- The request that `ClientSendWSUpgradeReq` sends. -/
def upgradeReq (secWebSocketKey : Bytes) : Bytes :=
  upgradeReqBeforeKey ++ cString secWebSocketKey ++ upgradeReqAfterKey

/-- `CloseOnInitFailure`. -/
def closeOnInitFailure (c : Connection) : Connection :=
  let c := if c.connectionState = .connecting then { c with connectionState := .closing } else c
  c.closeConnectionSocket .fail

/-- `ClientSendWSUpgradeReq`, with the result of `RAND_bytes`. -/
def clientSendWSUpgradeReq (crypto : Crypto)
    (bytes : Option (Vector UInt8 WebSocketKeyEncoder.secWebSocketKeyBytesLen))
    (w : WebSocketClient) : Bool × WebSocketClient :=
  match w.connectionState with
  | .closing | .closed => (false, w)
  | .opened => (true, w)
  | .connecting =>
    let (generated, key) :=
      WebSocketKeyEncoder.generateRandomSecWSKey crypto bytes w.secWebSocketKey
    let w := { w with secWebSocketKey := key }
    if !generated then (false, w)
    else
      let (sent, c) := w.toConnection.sendUnderLock (upgradeReq w.secWebSocketKey)
      if !sent then (false, { w with toConnection := closeOnInitFailure c })
      else (true, { w with toConnection := c })

/-- `ValidateServerHandShake`. -/
def validateServerHandShake (crypto : Crypto) (secWebSocketKey : Bytes) (response : HttpResponse) :
    Bool :=
  if response.status != ascii "101" then false
  else if toLowerCase response.upgrade != ascii "websocket" then false
  else if toLowerCase response.connection != ascii "upgrade" then false
  else
    match WebSocketKeyEncoder.encodeKey crypto (cString secWebSocketKey) with
    | none => false
    | some expectedSecWebSocketAccept =>
      let secWebSocketAccept := trim response.secWebSocketAccept
      secWebSocketAccept.length == WebSocketKeyEncoder.encodedKeyLen
        && secWebSocketAccept == cString expectedSecWebSocketAccept

/-- `ClientRecvWSUpgradeRsp`. -/
def clientRecvWSUpgradeRsp (crypto : Crypto) (w : WebSocketClient) : Bool × WebSocketClient :=
  match w.connectionState with
  | .closing | .closed => (false, w)
  | .opened => (true, w)
  | .connecting =>
    let (msgBuf, incoming) := readSome Connection.httpHandshakeMaxLen w.incoming
    let w := { w with incoming := incoming }
    if msgBuf.length = 0 then
      (false, { w with toConnection := closeOnInitFailure w.toConnection })
    else
      let (decoded, response) := HttpResponse.decode msgBuf
      if !decoded || !validateServerHandShake crypto w.secWebSocketKey response then
        (false, { w with toConnection := closeOnInitFailure w.toConnection })
      else (true, { w with connectionState := .opened })

end WebSocketClient

/-! ### Values without colons and line ends -/

theorem isBase64_ne {ch : UInt8} (h : isBase64 ch = true) :
    ch ≠ 0 ∧ ch ≠ 0x0d ∧ ch ≠ 0x3a ∧ isSpace ch = false := by
  simp only [isBase64, isSpace] at *
  grind

section Base64

variable {value : Bytes} (hvalue : ∀ ch ∈ value, isBase64 ch = true)
include hvalue

theorem cString_append_nul : cString (value ++ [0]) = value := by
  have hall : ∀ ch ∈ value, (ch != 0) = true := fun ch hch => by
    simpa using (isBase64_ne (hvalue ch hch)).1
  rw [cString, List.takeWhile_append_of_pos hall]
  simp

theorem trim_base64 : trim value = value := by
  have hleft : trimLeft value = value := by
    rcases value with - | ⟨ch, value⟩
    · rfl
    · exact List.dropWhile_cons_of_neg (by simp [(isBase64_ne (hvalue ch (by simp))).2.2.2])
  -- trimming on the right is trimming the reversed text on the left
  have hright : trimRight value = value := by
    rw [trimRight]
    rcases hrev : value.reverse with - | ⟨ch, rest⟩
    · rw [List.reverse_eq_nil_iff.mp hrev]
      rfl
    · have hch : ch ∈ value := List.mem_reverse.mp (by rw [hrev]; simp)
      rw [List.dropWhile_cons_of_neg (by simp [(isBase64_ne (hvalue ch hch)).2.2.2]), ← hrev,
        List.reverse_reverse]
  rw [trim, hleft, hright]

end Base64

/-! ### The request -/

namespace WebSocketClient

theorem upgradeReqBeforeKey_lines : find get upgradeReqBeforeKey 0 = some 0 ∧
    find eol upgradeReqBeforeKey 0 = some 14 ∧ find space upgradeReqBeforeKey 0 = some 3 ∧
    find space upgradeReqBeforeKey 4 = some 5 ∧
    HttpRequest.decodeVersion upgradeReqBeforeKey 0 = ascii "HTTP/1.1" ∧
    find connection upgradeReqBeforeKey 0 = some 16 ∧ find eol upgradeReqBeforeKey 16 = some 35 ∧
    decodeHeader upgradeReqBeforeKey connection = ascii "Upgrade" ∧
    find upgrade upgradeReqBeforeKey 0 = some 80 ∧ find eol upgradeReqBeforeKey 80 = some 98 ∧
    decodeHeader upgradeReqBeforeKey upgrade = ascii "websocket" := by
  repeat rw [ascii_ofList]
  decide +kernel

/-- It ends with the name of the key's header and has no capital `O`. -/
theorem upgradeReqBeforeKey_end :
    upgradeReqBeforeKey = upgradeReqBeforeKey.take 163 ++ HttpBase.secWebSocketKey ∧
    find HttpBase.secWebSocketKey (upgradeReqBeforeKey.take 163 ++ HttpBase.secWebSocketKey) 0
      = some (upgradeReqBeforeKey.take 163).length ∧
    0x4f ∉ upgradeReqBeforeKey := by
  unfold upgradeReqBeforeKey
  repeat rw [ascii_ofList]
  decide +kernel

theorem upgradeReqAfterKey_lines : upgradeReqAfterKey = eol ++ upgradeReqAfterKey.drop 2 ∧
    upgradeReqAfterKey = 0x0d :: upgradeReqAfterKey.tail ∧
    findIdx origin upgradeReqAfterKey.tail = none := by
  unfold upgradeReqAfterKey
  repeat rw [ascii_ofList]
  decide

section Request

variable {value : Bytes} (hvalue : ∀ ch ∈ value, isBase64 ch = true)
include hvalue

/-- No origin is found in the request: none starts in the text before the key,
none lies in the key, and none goes beyond the end of its line. -/
theorem find_origin_upgradeReq :
    find origin (upgradeReqBeforeKey ++ (value ++ upgradeReqAfterKey)) 0 = none := by
  obtain ⟨-, -, hbefore⟩ := upgradeReqBeforeKey_end
  obtain ⟨-, hafter, hnone⟩ := upgradeReqAfterKey_lines
  -- the key has no colon, and the text before it no capital `O`
  have hkey : findIdx origin value = none :=
    findIdx_eq_none_of_notMem (show (0x3a : UInt8) ∈ origin by decide)
      fun hmem => (isBase64_ne (hvalue _ hmem)).2.2.1 rfl
  have hline : findIdx origin (upgradeReqBeforeKey ++ value) = none := by
    rw [show origin = 0x4f :: ascii "rigin: " by decide] at hkey ⊢
    rw [findIdx_append_of_notMem hbefore, hkey, Option.map_none]
  rw [find_zero, ← List.append_assoc, hafter,
    findIdx_append_cons (by decide) (by decide) hline, hnone, Option.map_none]

theorem decodeHeader_secWebSocketKey (hne : value ≠ []) :
    decodeHeader (upgradeReqBeforeKey ++ (value ++ upgradeReqAfterKey)) HttpBase.secWebSocketKey
      = value := by
  obtain ⟨hpre, hname, -⟩ := upgradeReqBeforeKey_end
  obtain ⟨hafter, -, -⟩ := upgradeReqAfterKey_lines
  rw [hafter, hpre]
  refine decodeHeader_inserted hname ?_ hne _
  rw [List.mem_append, not_or]
  exact ⟨by decide, fun hmem => (isBase64_ne (hvalue _ hmem)).2.1 rfl⟩

theorem decode_upgradeReq (hne : value ≠ []) :
    HttpRequest.decode (upgradeReqBeforeKey ++ value ++ upgradeReqAfterKey)
      = (true,
          { version := ascii "HTTP/1.1", connection := ascii "Upgrade",
            upgrade := ascii "websocket", secWebSocketKey := value, origin := [] }) := by
  obtain ⟨hget, he, hs, ht, hversion, hc, hce, hconnection, hu, hue, hupgrade⟩ :=
    upgradeReqBeforeKey_lines
  have horigin : decodeHeader (upgradeReqBeforeKey ++ (value ++ upgradeReqAfterKey)) origin
      = [] := by
    rw [decodeHeader, find_origin_upgradeReq hvalue]
  rw [List.append_assoc, HttpRequest.decode, find_append_of_eq_some hget]
  -- the other lines end before the key, so they are read as in the fixed text
  simp only [decodeHeader_secWebSocketKey hvalue hne, horigin,
    HttpRequest.decodeVersion_append he hs ht, decodeHeader_append hc hce,
    decodeHeader_append hu hue, hversion, hconnection, hupgrade]
  rfl

end Request

end WebSocketClient

/-! ### The response -/

namespace ProtocolUpgradeBuilder

theorem copyStringToBuffer_fst (buffer source : Bytes) (i : Nat)
    (h : i + source.length ≤ buffer.length) :
    (copyStringToBuffer buffer source i).1
      = buffer.take i ++ (source ++ buffer.drop (i + source.length)) := by
  induction source generalizing buffer i with
  | nil => simp [copyStringToBuffer]
  | cons c source ih =>
    simp only [List.length_cons] at h ⊢
    rw [copyStringToBuffer, ih _ _ (by rw [List.length_set]; omega), List.take_add_one,
      List.take_set_of_le (by omega), List.drop_set_of_lt (by omega),
      List.getElem?_set_self (by omega),
      show i + 1 + source.length = i + (source.length + 1) by omega]
    simp

/-- The response up to its key. -/
def beforeKey : Bytes :=
  switchingProtocols ++ eol ++ connectionUpgrade ++ eol ++ upgradeWebsocket ++ eol ++ acceptKey

theorem upgradeBuffer_parts : upgradeBuffer.take keyStart = beforeKey ∧
    upgradeBuffer.drop (keyStart + 28) = eol ++ eol ++ [0] ∧
    keyStart + 28 ≤ upgradeBuffer.length ∧ messageLength = beforeKey.length + 28 + 4 := by
  unfold upgradeBuffer messageLength keyStart beforeKey switchingProtocols connectionUpgrade
    upgradeWebsocket acceptKey
  repeat rw [ascii_ofList]
  decide +kernel

variable {value : Bytes}

theorem upgradeMessage_eq (hlen : value.length = 28) :
    upgradeMessage (value ++ [0]) = beforeKey ++ (value ++ (eol ++ eol)) := by
  obtain ⟨hbefore, hafter, hfits, hmessage⟩ := upgradeBuffer_parts
  have htake : (value ++ [0]).take 28 = value := List.take_left' hlen
  -- the key is copied into its place, and `GetLength` cuts the terminating NUL
  rw [upgradeMessage, setKey, htake, copyStringToBuffer_fst _ _ _ (by rw [hlen]; exact hfits), hlen,
    hbefore, hafter, hmessage, ← List.append_assoc, ← List.append_assoc, ← List.append_assoc,
    List.take_left' (by simp [hlen, show eol.length = 2 by decide]), List.append_assoc,
    List.append_assoc]

/-- It contains the lines the client looks for and ends with the name of the
key's header. -/
theorem beforeKey_lines : find (ascii "HTTP") beforeKey 0 = some 0 ∧
    find space beforeKey 0 = some 8 ∧ HttpResponse.decodeVersion beforeKey 0 = ascii "HTTP/1.1" ∧
    findFirstNotOf 0x20 beforeKey 8 = some 9 ∧ find space beforeKey 9 = some 12 ∧
    HttpResponse.decodeStatus beforeKey 8 = ascii "101" ∧ find connection beforeKey 0 = some 34 ∧
    find eol beforeKey 34 = some 53 ∧ decodeHeader beforeKey connection = ascii "Upgrade" ∧
    find upgrade beforeKey 0 = some 55 ∧ find eol beforeKey 55 = some 73 ∧
    decodeHeader beforeKey upgrade = ascii "websocket" ∧
    beforeKey = beforeKey.take 75 ++ secWebSocketAccept ∧
    find secWebSocketAccept (beforeKey.take 75 ++ secWebSocketAccept) 0
      = some (beforeKey.take 75).length := by
  repeat rw [ascii_ofList]
  decide +kernel

theorem decode_upgradeMessage (hvalue : ∀ ch ∈ value, isBase64 ch = true)
    (hlen : value.length = 28) :
    HttpResponse.decode (upgradeMessage (value ++ [0]))
      = (true,
          { version := ascii "HTTP/1.1", status := ascii "101", connection := ascii "Upgrade",
            upgrade := ascii "websocket", secWebSocketAccept := value }) := by
  obtain ⟨hhttp, hs, hversion, hn, ht, hstatus, hc, hce, hconnection, hu, hue, hupgrade, hpre,
    hname⟩ := beforeKey_lines
  have haccept : decodeHeader (beforeKey ++ (value ++ (eol ++ eol))) secWebSocketAccept
      = value := by
    refine decodeHeader_inserted hname ?_ (by rintro rfl; simp at hlen) _
    rw [List.mem_append, not_or]
    exact ⟨by decide, fun hmem => (isBase64_ne (hvalue _ hmem)).2.1 rfl⟩
  rw [upgradeMessage_eq hlen, HttpResponse.decode, find_append_of_eq_some hhttp]
  simp only [haccept, HttpResponse.decodeVersion_append hs, hversion,
    show 0 + (ascii "HTTP/1.1").length = 8 by decide, HttpResponse.decodeStatus_append hn ht,
    hstatus, decodeHeader_append hc hce, decodeHeader_append hu hue, hconnection, hupgrade]

theorem length_upgradeMessage (hlen : value.length = 28) :
    (upgradeMessage (value ++ [0])).length = messageLength := by
  obtain ⟨-, -, -, hmessage⟩ := upgradeBuffer_parts
  rw [upgradeMessage_eq hlen, hmessage]
  simp [hlen, show eol.length = 2 by decide]

end ProtocolUpgradeBuilder

/-! ### Agreement -/

open WebSocketKeyEncoder ProtocolUpgradeBuilder WebSocketClient

section Agreement

variable (crypto : Crypto)

theorem generateRandomSecWSKey_eq
    (bytes : Vector UInt8 secWebSocketKeyBytesLen) (destination : Bytes) :
    generateRandomSecWSKey crypto (some bytes) destination
      = (true, crypto.evpEncodeBlock bytes.toList ++ [0]) := by
  have hlen : (crypto.evpEncodeBlock bytes.toList).length = 24 := by
    rw [crypto.length_evpEncodeBlock, Vector.length_toList]
    rfl
  simp [generateRandomSecWSKey, hlen]

theorem length_encoded (source : Bytes) :
    (crypto.evpEncodeBlock (crypto.sha1 source)).length = 28 := by
  rw [crypto.length_evpEncodeBlock, crypto.length_sha1]
  rfl

variable (key : Bytes)

theorem encodeKey_eq :
    encodeKey crypto key
      = some (crypto.evpEncodeBlock (crypto.sha1 (key ++ webSocketGuid)) ++ [0]) := by
  simp [encodeKey, length_encoded]

theorem validateServerHandShake_upgradeMessage {key : Bytes}
    (hkey : ∀ ch ∈ key, isBase64 ch = true) {encodedKey : Bytes}
    (h : encodeKey crypto key = some encodedKey) :
    (HttpResponse.decode (upgradeMessage encodedKey)).1 = true ∧
      validateServerHandShake crypto (key ++ [0])
        (HttpResponse.decode (upgradeMessage encodedKey)).2 = true := by
  rw [encodeKey_eq, Option.some.injEq] at h
  subst h
  set value := crypto.evpEncodeBlock (crypto.sha1 (key ++ webSocketGuid)) with hdef
  have hvalue : ∀ ch ∈ value, isBase64 ch = true := crypto.isBase64_evpEncodeBlock _
  have hlen : value.length = 28 := length_encoded crypto _
  rw [decode_upgradeMessage hvalue hlen]
  refine ⟨rfl, ?_⟩
  -- the two header values are compared in lower case
  have hlower : (toLowerCase (ascii "websocket") != ascii "websocket") = false ∧
      (toLowerCase (ascii "Upgrade") != ascii "upgrade") = false := by decide
  simp [validateServerHandShake, hlower, cString_append_nul hkey, encodeKey_eq,
    ← hdef, trim_base64 hvalue, cString_append_nul hvalue, hlen]

variable {c : Connection} {message : Bytes}

theorem sendUnderLock_eq (h : message.length ≤ c.room) :
    c.sendUnderLock message
      = (true, { c with outgoing := c.outgoing ++ message, room := c.room - message.length }) := by
  simp [Connection.sendUnderLock, h, List.take_of_length_le h]

variable {validateCb : Option (HttpRequest → Bool)} {req : HttpRequest}

theorem any_reject_eq_false_iff :
    (validateCb.any fun cb => !cb req) = false ↔ ∀ cb ∈ validateCb, cb req = true := by
  rcases validateCb with - | cb <;> simp

theorem httpHandShake_single {request : Bytes} (hne : request ≠ [])
    (hlen : request.length ≤ Connection.httpHandshakeMaxLen)
    (hd : HttpRequest.decode request = (true, req)) (hcb : ∀ cb ∈ validateCb, cb req = true)
    (hv : validateHandShakeMessage req = true) :
    Connection.httpHandShake crypto validateCb { c with incoming := [request] }
      = Connection.protocolUpgrade crypto { c with incoming := [] } req := by
  have hpos : request.length ≠ 0 := by simpa using hne
  have hany := any_reject_eq_false_iff.mpr hcb
  simp only [Connection.httpHandShake, readSome_cons hne hlen, if_neg hpos, hd, hany, hv]
  rfl

theorem clientRecvWSUpgradeRsp_single {w : WebSocketClient} (hw : w.connectionState = .connecting)
    (hne : message ≠ []) (hlen : message.length ≤ Connection.httpHandshakeMaxLen)
    (hd : (HttpResponse.decode message).1 = true)
    (hv : validateServerHandShake crypto w.secWebSocketKey (HttpResponse.decode message).2 = true) :
    clientRecvWSUpgradeRsp crypto { w with incoming := [message] }
      = (true, { w with incoming := [], connectionState := .opened }) := by
  have hpos : message.length ≠ 0 := by simpa using hne
  simp only [clientRecvWSUpgradeRsp, hw, readSome_cons hne hlen, if_neg hpos, hd, hv]
  rfl

/-- The key that the client makes of random bytes. -/
def clientKey (bytes : Vector UInt8 secWebSocketKeyBytesLen) : Bytes :=
  crypto.evpEncodeBlock bytes.toList

/-- The response the server makes for a key. -/
def serverResponse (key : Bytes) : Bytes :=
  upgradeMessage (crypto.evpEncodeBlock (crypto.sha1 (key ++ webSocketGuid)) ++ [0])

section Messages

variable (bytes : Vector UInt8 secWebSocketKeyBytesLen)

theorem isBase64_clientKey : ∀ ch ∈ clientKey crypto bytes, isBase64 ch = true :=
  crypto.isBase64_evpEncodeBlock _

theorem length_clientKey : (clientKey crypto bytes).length = keyLength := by
  rw [clientKey, crypto.length_evpEncodeBlock, Vector.length_toList]
  rfl

theorem clientKey_ne_nil : clientKey crypto bytes ≠ [] := by
  intro h
  have hlen := length_clientKey crypto bytes
  simp [h] at hlen

theorem length_upgradeReq :
    (upgradeReq (clientKey crypto bytes ++ [0])).length
      = upgradeReqBeforeKey.length + keyLength + upgradeReqAfterKey.length := by
  rw [upgradeReq, cString_append_nul (isBase64_clientKey crypto bytes),
    List.length_append, List.length_append, length_clientKey]

theorem length_upgradeReq_le :
    upgradeReq (clientKey crypto bytes ++ [0]) ≠ [] ∧
      (upgradeReq (clientKey crypto bytes ++ [0])).length ≤ Connection.httpHandshakeMaxLen := by
  have hmax : upgradeReqBeforeKey.length + keyLength
      + upgradeReqAfterKey.length ≤ Connection.httpHandshakeMaxLen := by
    decide +kernel
  refine ⟨fun h => ?_, by rw [length_upgradeReq]; exact hmax⟩
  have hlen := length_upgradeReq crypto bytes
  have hpos : 0 < keyLength := by decide
  rw [h, List.length_nil] at hlen
  omega

theorem decode_clientRequest :
    HttpRequest.decode (upgradeReq (clientKey crypto bytes ++ [0]))
      = (true,
          { version := ascii "HTTP/1.1", connection := ascii "Upgrade",
            upgrade := ascii "websocket", secWebSocketKey := clientKey crypto bytes,
            origin := [] }) := by
  have hkey := isBase64_clientKey crypto bytes
  rw [upgradeReq, cString_append_nul hkey, decode_upgradeReq hkey (clientKey_ne_nil crypto bytes)]

theorem validateHandShakeMessage_clientRequest :
    validateHandShakeMessage
      (HttpRequest.decode (upgradeReq (clientKey crypto bytes ++ [0]))).2 = true := by
  rw [decode_clientRequest]
  simp only [validateHandShakeMessage]
  decide

theorem clientSendWSUpgradeReq_eq {w : WebSocketClient} (hw : w.connectionState = .connecting)
    (hroom : (upgradeReq (clientKey crypto bytes ++ [0])).length ≤ w.room) :
    ∃ w', w.clientSendWSUpgradeReq crypto (some bytes) = (true, w') ∧
      w'.outgoing = w.outgoing ++ upgradeReq (clientKey crypto bytes ++ [0]) ∧
      w'.secWebSocketKey = clientKey crypto bytes ++ [0] ∧ w'.connectionState = .connecting := by
  have hsend := sendUnderLock_eq (c := w.toConnection) hroom
  simp only [clientSendWSUpgradeReq, hw, generateRandomSecWSKey_eq]
  rw [show crypto.evpEncodeBlock bytes.toList = clientKey crypto bytes from rfl, hsend]
  exact ⟨_, rfl, rfl, rfl, hw⟩

end Messages

theorem length_serverResponse : (serverResponse crypto key).length = messageLength :=
  length_upgradeMessage (length_encoded crypto _)

theorem length_serverResponse_le :
    serverResponse crypto key ≠ [] ∧
      (serverResponse crypto key).length ≤ Connection.httpHandshakeMaxLen := by
  have hmax : 0 < messageLength ∧ messageLength ≤ Connection.httpHandshakeMaxLen := by decide
  have hlen := length_serverResponse crypto key
  refine ⟨fun h => ?_, hlen ▸ hmax.2⟩
  rw [h, List.length_nil] at hlen
  omega

theorem protocolUpgrade_eq (req : HttpRequest) (hroom : messageLength ≤ c.room) :
    c.protocolUpgrade crypto req
      = (true,
          { c with
            outgoing := c.outgoing ++ serverResponse crypto req.secWebSocketKey
            room := c.room - messageLength }) := by
  have hlen := length_serverResponse crypto req.secWebSocketKey
  have hsend := sendUnderLock_eq (c := c) (hlen.trans_le hroom)
  rw [hlen] at hsend
  simp only [Connection.protocolUpgrade, encodeKey_eq]
  exact hsend

/-- **Handshake agreement.**  For every random key the server accepts the
client's request and reads the client's key in it, and the client accepts the
server's response; so if each message is delivered whole and no callback
rejects the request, both handshake functions succeed and the client's
connection is open. -/
theorem handshake_agreement (bytes : Vector UInt8 secWebSocketKeyBytesLen)
    (w : WebSocketClient) (server : Connection) (hw : w.connectionState = .connecting)
    (hroom : upgradeReqBeforeKey.length + keyLength + upgradeReqAfterKey.length ≤ w.room)
    (hroom' : messageLength ≤ server.room) :
    ∃ (request response : Bytes) (w₁ w₂ : WebSocketClient) (server₁ : Connection),
      w.clientSendWSUpgradeReq crypto (some bytes) = (true, w₁) ∧
      w₁.outgoing = w.outgoing ++ request ∧
      (HttpRequest.decode request).1 = true ∧
      validateHandShakeMessage (HttpRequest.decode request).2 = true ∧
      (HttpRequest.decode request).2.secWebSocketKey = cString w₁.secWebSocketKey ∧
      server.protocolUpgrade crypto (HttpRequest.decode request).2 = (true, server₁) ∧
      server₁.outgoing = server.outgoing ++ response ∧
      (HttpResponse.decode response).1 = true ∧
      validateServerHandShake crypto w₁.secWebSocketKey
        (HttpResponse.decode response).2 = true ∧
      (∀ validateCb : Option (HttpRequest → Bool),
        (∀ cb ∈ validateCb, cb (HttpRequest.decode request).2 = true) →
        Connection.httpHandShake crypto validateCb { server with incoming := [request] }
          = (true, { server₁ with incoming := [] })) ∧
      clientRecvWSUpgradeRsp crypto { w₁ with incoming := [response] }
        = (true, w₂) ∧
      w₂.connectionState = .opened := by
  -- the request, as the server reads it
  obtain ⟨hreqne, hreqlen⟩ := length_upgradeReq_le crypto bytes
  have hreq := decode_clientRequest crypto bytes
  have hmsg := validateHandShakeMessage_clientRequest crypto bytes
  obtain ⟨w₁, hsend, hout, hkey, hw₁⟩ :=
    clientSendWSUpgradeReq_eq crypto bytes hw (by rw [length_upgradeReq]; exact hroom)
  -- the response, as the client reads it with the key in its own buffer
  obtain ⟨hrspne, hrsplen⟩ := length_serverResponse_le crypto (clientKey crypto bytes)
  have hstr := cString_append_nul (isBase64_clientKey crypto bytes)
  obtain ⟨hrsp, hvalid⟩ : (HttpResponse.decode (serverResponse crypto (clientKey crypto bytes))).1
      = true ∧ validateServerHandShake crypto w₁.secWebSocketKey
        (HttpResponse.decode (serverResponse crypto (clientKey crypto bytes))).2 = true := by
    rw [hkey]
    exact validateServerHandShake_upgradeMessage crypto (isBase64_clientKey crypto bytes)
      (encodeKey_eq crypto _)
  refine ⟨upgradeReq (clientKey crypto bytes ++ [0]),
    serverResponse crypto (clientKey crypto bytes), w₁,
    { w₁ with incoming := [], connectionState := .opened }, _, hsend, hout, by rw [hreq], hmsg, ?_,
    protocolUpgrade_eq crypto _ hroom', ?_, hrsp, hvalid, ?_,
    clientRecvWSUpgradeRsp_single crypto hw₁ hrspne hrsplen hrsp hvalid, rfl⟩
  · rw [hreq, hkey, hstr]
  · rw [hreq]
  · intro validateCb hcb
    rw [hreq] at hmsg hcb
    rw [httpHandShake_single crypto hreqne hreqlen hreq hcb hmsg, hreq]
    exact protocolUpgrade_eq crypto _ hroom'

end Agreement

/-! ### An instance -/

def base64Alphabet : Bytes :=
  ascii "ABCDEFGHIJKLMNOPQRSTUVWXYZ" ++ ascii "abcdefghijklmnopqrstuvwxyz" ++ ascii "0123456789+/"

def base64Digit (n : Nat) : UInt8 := base64Alphabet.getD n 0x3d

/-- Base64 with padding, for the samples. -/
def base64 : Bytes → Bytes
  | [] => []
  | [a] => [base64Digit (a.toNat / 4), base64Digit (a.toNat % 4 * 16), 0x3d, 0x3d]
  | [a, b] =>
    [base64Digit (a.toNat / 4), base64Digit (a.toNat % 4 * 16 + b.toNat / 16),
      base64Digit (b.toNat % 16 * 4), 0x3d]
  | a :: b :: c :: source =>
    base64Digit (a.toNat / 4) :: base64Digit (a.toNat % 4 * 16 + b.toNat / 16)
      :: base64Digit (b.toNat % 16 * 4 + c.toNat / 64) :: base64Digit (c.toNat % 64)
      :: base64 source

theorem isBase64_base64Digit (n : Nat) : isBase64 (base64Digit n) = true := by
  have hall : ∀ ch ∈ base64Alphabet, isBase64 ch = true := by
    unfold base64Alphabet
    repeat rw [ascii_ofList]
    decide +kernel
  rw [base64Digit, List.getD_eq_getElem?_getD]
  rcases h : base64Alphabet[n]? with - | ch
  · rfl
  · exact hall ch (List.mem_of_getElem? h)

variable (source : Bytes)

theorem isBase64_base64 : ∀ ch ∈ base64 source, isBase64 ch = true := by
  have hpad : isBase64 0x3d = true := by decide
  fun_induction base64 source with
  | case1 => simp
  | case2 a | case3 a b => simp [isBase64_base64Digit, hpad]
  | case4 a b c source ih =>
    simp only [List.forall_mem_cons]
    exact ⟨isBase64_base64Digit _, isBase64_base64Digit _, isBase64_base64Digit _,
      isBase64_base64Digit _, ih⟩

theorem length_base64 : (base64 source).length = getBase64EncodingLength source.length := by
  fun_induction base64 source with
  | case1 => rfl
  | case2 a | case3 a b => simp [getBase64EncodingLength]
  | case4 a b c source ih =>
    simp only [List.length_cons, ih, getBase64EncodingLength]
    omega

/-- Base64 with a digest function that knows one key: the sample nonce of the
protocol's specification. -/
def sampleCrypto : Crypto where
  sha1 := fun _ =>
    [0xb3, 0x7a, 0x4f, 0x2c, 0xc0, 0x62, 0x4f, 0x16, 0x90, 0xf6, 0x46, 0x06, 0xcf, 0x38, 0x59,
      0x45, 0xb2, 0xbe, 0xc4, 0xea]
  evpEncodeBlock := base64
  length_sha1 := fun _ => rfl
  length_evpEncodeBlock := length_base64
  isBase64_evpEncodeBlock := isBase64_base64

def sampleNonce : Vector UInt8 secWebSocketKeyBytesLen :=
  #v[0x74, 0x68, 0x65, 0x20, 0x73, 0x61, 0x6d, 0x70, 0x6c, 0x65, 0x20, 0x6e, 0x6f, 0x6e, 0x63, 0x65]

example : clientKey sampleCrypto sampleNonce = ascii "dGhlIHNhbXBsZSBub25jZQ==" := by
  decide +kernel

/-- A client and a server with fresh connections complete the handshake. -/
theorem handshake_agreement_sample :
    ∃ (response : Bytes) (w₁ w₂ : WebSocketClient),
      clientSendWSUpgradeReq sampleCrypto (some sampleNonce)
        { connectionState := .connecting, incoming := [], room := 1024 } = (true, w₁) ∧
      clientRecvWSUpgradeRsp sampleCrypto { w₁ with incoming := [response] }
        = (true, w₂) ∧
      w₂.connectionState = .opened := by
  obtain ⟨request, response, w₁, w₂, server₁, hsend, -, -, -, -, -, -, -, -, -, hrecv, hopen⟩ :=
    handshake_agreement sampleCrypto sampleNonce
      { connectionState := .connecting, incoming := [], room := 1024 }
      { connectionState := .connecting, incoming := [], room := 1024 } rfl
      (by decide +kernel) (by decide +kernel)
  exact ⟨response, w₁, w₂, hsend, hrecv, hopen⟩

end ArkToolchain
