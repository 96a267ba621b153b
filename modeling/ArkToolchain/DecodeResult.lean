/-
What the string that `Decode` returns tells its caller.

`ResultOf` is what the caller relies on: the payload of a TEXT frame, nothing for a control
frame, and `DECODE_DISCONNECT_MSG` exactly for a call that has closed the connection because it
could not read a frame.  Three kinds of frames break this (`decode_result_iff`): a PING, whose
payload is returned; a TEXT frame with the text of the message; and a length beyond what a
string can hold.

The length that a frame announces is not checked either (`length_checked_iff`).
-/
import ArkToolchain.StreamDecode

namespace ArkToolchain

namespace Connection

/-- `IsDecodeDisconnectMsg`. -/
def isDecodeDisconnectMsg (message : Bytes) : Bool := message == decodeDisconnectMsg

/-! ### What arrives -/

inductive Arrived
  | text (payload : Bytes)
  | ping (payload : Bytes)
  | pong
  | close
  /-- a data frame that is not supported, or a reserved opcode -/
  | other
  /-- the stream ends within the frame, or the mask bit is wrong -/
  | invalid
  /-- the frame announces more than a string can hold -/
  | tooLong
  deriving DecidableEq

namespace Arrived

def ofRead (frame : Bytes → Arrived) : Received → Arrived
  | .message payload _ => frame payload
  | .closed _ _ => .invalid
  | .lengthError => .tooLong

def IsControl : Arrived → Prop
  | .ping _ => True
  | .pong => True
  | .close => True
  | _ => False

def Fails (a : Arrived) : Prop := a = .invalid ∨ a = .tooLong

end Arrived

def arrived (ep : Endpoint) : Bytes → Arrived
  | headerRaw₀ :: headerRaw₁ :: bs =>
    let wsFrame := WebSocketFrame.ofHeader headerRaw₀ headerRaw₁
    if !validateIncomingFrame ep wsFrame then .invalid
    else if wsFrame.opcode = FrameType.text.enumToNumber then
      .ofRead .text (streamRead ep wsFrame.payloadLen bs)
    else if wsFrame.opcode = FrameType.ping.enumToNumber then
      .ofRead .ping (streamRead ep wsFrame.payloadLen bs)
    else if wsFrame.opcode = FrameType.pong.enumToNumber then .pong
    else if wsFrame.opcode = FrameType.close.enumToNumber then .close
    else .other
  | _ => .invalid

/-- What the caller relies on: `message` is the result of a call that has left `c`. -/
structure ResultOf (a : Arrived) (message : Bytes) (c : Connection) : Prop where
  text : ∀ payload, a = .text payload → message = payload
  control : a.IsControl → message = []
  disconnect : isDecodeDisconnectMsg message = true ↔ a.Fails ∧ c.connectionState = .closed

/-- `Decode` returns, and the string tells what has happened. -/
def DecodesResult (ep : Endpoint) (c : Connection) : Prop :=
  ∃ message c', c.decode ep = .ok (message, c') ∧ ResultOf (arrived ep c.bytes) message c'

/-- The frames whose result is told from the others. -/
def Arrived.Told : Arrived → Prop
  | .text payload => payload ≠ decodeDisconnectMsg
  | .ping payload => payload = []
  | .tooLong => False
  | _ => True

instance : DecidablePred Arrived.Told
  | .text _ => inferInstanceAs (Decidable (_ ≠ _))
  | .ping _ => inferInstanceAs (Decidable (_ = _))
  | .pong => isTrue trivial
  | .close => isTrue trivial
  | .other => isTrue trivial
  | .invalid => isTrue trivial
  | .tooLong => isFalse id

/-! ### What `Decode` returns -/

/-- What `streamStep` says about the bytes that hold `a`. -/
def Arrived.StepsTo : Arrived → Received → Prop
  | .text payload, r => ∃ rest, r = .message payload rest
  | .ping payload, r => ∃ rest, r = .message payload rest
  | .pong, r => ∃ rest, r = .message [] rest
  | .close, r => r = .closed .noStatusCode []
  | .other, r => ∃ rest, r = .message [] rest
  | .invalid, r => ∃ status, r = .closed status decodeDisconnectMsg
  | .tooLong, r => r = .lengthError

theorem stepsTo_ofRead (ep : Endpoint) (field : Nat) (bs : Bytes) {frame : Bytes → Arrived}
    (hframe : ∀ payload rest, (frame payload).StepsTo (.message payload rest)) :
    (Arrived.ofRead frame (streamRead ep field bs)).StepsTo (streamRead ep field bs) := by
  unfold streamRead
  cases streamLength field bs with
  | none => exact ⟨_, rfl⟩
  | some length =>
    dsimp only
    fun_cases streamPayload ep length.1 length.2
    case case1 | case4 | case6 => exact hframe _ _
    case case2 => rfl
    case case3 | case5 => exact ⟨_, rfl⟩

theorem stepsTo_arrived (ep : Endpoint) (bs : Bytes) :
    (arrived ep bs).StepsTo (streamStep ep bs) := by
  have hpong : FrameType.pong.enumToNumber ≠ FrameType.close.enumToNumber := by decide
  fun_cases arrived ep bs
  all_goals simp_all +zetaDelta only [streamStep, if_true, if_false, true_or, or_true, or_false,
    Arrived.StepsTo]
  case case2 | case3 => exact stepsTo_ofRead ep _ _ fun _ rest => ⟨rest, rfl⟩
  case case5 => rfl
  all_goals exact ⟨_, rfl⟩

variable {message : Bytes}

theorem isDecodeDisconnectMsg_iff :
    isDecodeDisconnectMsg message = true ↔ message = decodeDisconnectMsg := beq_iff_eq

variable {c : Connection} {ep : Endpoint}

theorem decodesResult_of_decode {c' : Connection} (hd : c.decode ep = .ok (message, c')) :
    DecodesResult ep c ↔ ResultOf (arrived ep c.bytes) message c' := by
  refine ⟨?_, fun h => ⟨message, c', hd, h⟩⟩
  rintro ⟨message', c'', hd', h⟩
  rw [hd] at hd'
  obtain ⟨rfl, rfl⟩ : message = message' ∧ c' = c'' := by simpa using hd'
  exact h

theorem decodesResult_message {rest : Bytes} (ho : c.connectionState = .opened)
    (hs : streamStep ep c.bytes = .message message rest) :
    DecodesResult ep c ↔
      (∀ payload, arrived ep c.bytes = .text payload → message = payload)
        ∧ ((arrived ep c.bytes).IsControl → message = []) ∧ message ≠ decodeDisconnectMsg := by
  obtain ⟨c', hd, hopened, -⟩ := decode_of_streamStep ep ho hs
  have hclosed : c'.connectionState ≠ .closed := by
    rw [hopened]
    decide
  rw [decodesResult_of_decode hd]
  constructor
  · rintro ⟨htext, hcontrol, hdisconnect⟩
    refine ⟨htext, hcontrol, fun h => ?_⟩
    exact hclosed (hdisconnect.mp (isDecodeDisconnectMsg_iff.mpr h)).2
  · rintro ⟨htext, hcontrol, hne⟩
    refine ⟨htext, hcontrol, fun h => absurd (isDecodeDisconnectMsg_iff.mp h) hne, ?_⟩
    exact fun h => absurd h.2 hclosed

theorem decodesResult_closed {status : CloseStatusCode} (ho : c.connectionState = .opened)
    (hs : streamStep ep c.bytes = .closed status message) :
    DecodesResult ep c ↔
      (∀ payload, arrived ep c.bytes = .text payload → message = payload)
        ∧ ((arrived ep c.bytes).IsControl → message = [])
        ∧ (message = decodeDisconnectMsg ↔ (arrived ep c.bytes).Fails) := by
  have href := decode_refines ep c ho
  rw [hs] at href
  obtain ⟨c', hd, hclosed⟩ := href
  rw [decodesResult_of_decode hd, ← isDecodeDisconnectMsg_iff]
  constructor
  · rintro ⟨htext, hcontrol, hdisconnect⟩
    exact ⟨htext, hcontrol, hdisconnect.trans (and_iff_left hclosed)⟩
  · rintro ⟨htext, hcontrol, hdisconnect⟩
    exact ⟨htext, hcontrol, hdisconnect.trans (and_iff_left hclosed).symm⟩

/-- **The result of `Decode`**: it tells what has happened exactly for the frames that are
not a PING with a payload, not a TEXT frame with the text of `DECODE_DISCONNECT_MSG` and not
too long. -/
theorem decode_result_iff (ep : Endpoint) (c : Connection) (ho : c.connectionState = .opened) :
    DecodesResult ep c ↔ (arrived ep c.bytes).Told := by
  have hstep := stepsTo_arrived ep c.bytes
  have hnil : [] ≠ decodeDisconnectMsg := by
    rw [decodeDisconnectMsg, ascii_ofList]
    exact (List.cons_ne_nil _ _).symm
  generalize ha : arrived ep c.bytes = a at hstep ⊢
  cases a with
  | text payload =>
    obtain ⟨rest, hs⟩ := hstep
    rw [decodesResult_message ho hs, ha]
    refine ⟨fun h => h.2.2, fun h => ⟨?_, False.elim, h⟩⟩
    exact fun payload' heq => Arrived.text.inj heq
  | ping payload =>
    obtain ⟨rest, hs⟩ := hstep
    rw [decodesResult_message ho hs, ha]
    constructor
    · exact fun h => h.2.1 trivial
    · rintro (rfl : payload = [])
      exact ⟨by simp, fun _ => rfl, hnil⟩
  | pong | other =>
    obtain ⟨rest, hs⟩ := hstep
    rw [decodesResult_message ho hs, ha]
    exact ⟨fun _ => trivial, fun _ => ⟨by simp, fun _ => rfl, hnil⟩⟩
  | close =>
    rw [decodesResult_closed ho hstep, ha]
    -- the connection is closed, but by the peer
    have hpeer : [] = decodeDisconnectMsg ↔ Arrived.close.Fails := by
      simp [Arrived.Fails, hnil]
    exact ⟨fun _ => trivial, fun _ => ⟨by simp, fun _ => rfl, hpeer⟩⟩
  | invalid =>
    obtain ⟨status, hs⟩ := hstep
    rw [decodesResult_closed ho hs, ha]
    have hfails : decodeDisconnectMsg = decodeDisconnectMsg ↔ Arrived.invalid.Fails :=
      iff_of_true rfl (.inl rfl)
    exact ⟨fun _ => trivial, fun _ => ⟨by simp, False.elim, hfails⟩⟩
  | tooLong =>
    have href := decode_refines ep c ho
    rw [show streamStep ep c.bytes = _ from hstep] at href
    refine ⟨?_, False.elim⟩
    rintro ⟨message, c', hd, -⟩
    rw [show c.decode ep = _ from href] at hd
    cases hd

/-- A client whose server sends `bytes`. -/
def receiving (bytes : Bytes) : Connection where
  connectionState := .opened
  incoming := [bytes]
  room := 1024

theorem decode_result_hi :
    (receiving [0x81, 0x02, 0x68, 0x69]).connectionState = .opened
      ∧ DecodesResult .client (receiving [0x81, 0x02, 0x68, 0x69]) :=
  ⟨rfl, (decode_result_iff .client _ rfl).mpr (by decide)⟩

/-- The PING frame with the payload `a`. -/
def pingWithPayload : Bytes := [0x89, 0x01, 0x61]

/-- The TEXT frame with the payload `disconnect`. -/
def textDisconnect : Bytes := [0x81, 0x0a] ++ decodeDisconnectMsg

/-- The payload of a PING is returned like that of a TEXT frame, and a peer that sends the
text ends the connection for the caller. -/
theorem decode_result_in_band :
    ¬ DecodesResult .client (receiving pingWithPayload)
      ∧ ¬ DecodesResult .client (receiving textDisconnect) := by
  constructor
  · have hs : streamStep .client (receiving pingWithPayload).bytes = .message [0x61] [] := by
      decide
    rw [decodesResult_message rfl hs]
    rintro ⟨-, hcontrol, -⟩
    exact absurd (hcontrol trivial) (List.cons_ne_nil _ _)
  · have hs : streamStep .client (receiving textDisconnect).bytes
        = .message decodeDisconnectMsg [] := rfl
    rw [decodesResult_message rfl hs]
    exact fun h => h.2.2 rfl

/-! ### The length of the payload -/

/-- The length that a frame announces whose payload is read: the string is resized to it
unless it is zero. -/
def announcedLength (ep : Endpoint) : Bytes → Option Nat
  | headerRaw₀ :: headerRaw₁ :: bs =>
    let wsFrame := WebSocketFrame.ofHeader headerRaw₀ headerRaw₁
    if !validateIncomingFrame ep wsFrame then none
    else if wsFrame.opcode = FrameType.text.enumToNumber
        ∨ wsFrame.opcode = FrameType.ping.enumToNumber then
      (streamLength wsFrame.payloadLen bs).map Prod.fst
    else none
  | _ => none

section

variable [StringLimit]

/-- One call: nothing is thrown, and a payload that is too long fails the connection. -/
structure LengthChecked (ep : Endpoint) (c : Connection) : Prop where
  returns : c.decode ep ≠ .error .lengthError
  fails : ∀ len, announcedLength ep c.bytes = some len → stringMaxSize < len →
    ∃ message c', c.decode ep = .ok (message, c') ∧ c'.connectionState = .closed

/-- `c'` is open after some calls of `Decode`. -/
def Reaches (ep : Endpoint) (c c' : Connection) : Prop :=
  ∃ n messages, c.decodeMany ep n = .ok (messages, c') ∧ c'.connectionState = .opened

theorem streamPayload_eq_lengthError (ep : Endpoint) (len : Nat) (bs : Bytes) :
    streamPayload ep len bs = .lengthError ↔ stringMaxSize < len := by
  fun_cases streamPayload ep len bs
  case case2 hmax => exact iff_of_true rfl hmax
  all_goals exact iff_of_false (by simp) (by omega)

theorem streamStep_eq_lengthError (ep : Endpoint) (bs : Bytes) :
    streamStep ep bs = .lengthError
      ↔ ∃ len, announcedLength ep bs = some len ∧ stringMaxSize < len := by
  rcases bs with - | ⟨b₀, - | ⟨b₁, bs⟩⟩
  · simp [streamStep, announcedLength]
  · simp [streamStep, announcedLength]
  · simp only [streamStep, announcedLength]
    split_ifs
    · simp
    · unfold streamRead
      cases streamLength (WebSocketFrame.ofHeader b₀ b₁).payloadLen bs with
      | none => simp
      | some length => simpa using streamPayload_eq_lengthError ep length.1 length.2
    · simp
    · simp

theorem decode_eq_lengthError (ho : c.connectionState = .opened) :
    c.decode ep = .error .lengthError
      ↔ ∃ len, announcedLength ep c.bytes = some len ∧ stringMaxSize < len := by
  have href := decode_refines ep c ho
  rw [← streamStep_eq_lengthError]
  cases hs : streamStep ep c.bytes with
  | message message rest | closed status message =>
    rw [hs] at href
    obtain ⟨c', hd, -⟩ := href
    rw [hd]
    simp
  | lengthError =>
    rw [hs] at href
    exact iff_of_true href rfl

theorem lengthChecked_iff (ho : c.connectionState = .opened) :
    LengthChecked ep c ↔ ∀ len, announcedLength ep c.bytes = some len → len ≤ stringMaxSize := by
  constructor
  · intro h len hlen
    by_contra hmax
    exact h.returns ((decode_eq_lengthError ho).mpr ⟨len, hlen, Nat.lt_of_not_le hmax⟩)
  · intro h
    refine ⟨fun herror => ?_, fun len hlen hmax => absurd (h len hlen) (Nat.not_le_of_lt hmax)⟩
    obtain ⟨len, hlen, hmax⟩ := (decode_eq_lengthError ho).mp herror
    exact Nat.not_le_of_lt hmax (h len hlen)

/-- **The length of the payload** is within the limit of a string, in all calls on a byte
stream, exactly if no frame that is reached announces more; it is not checked. -/
theorem length_checked_iff (ep : Endpoint) (c : Connection) :
    (∀ c', Reaches ep c c' → LengthChecked ep c')
      ↔ ∀ c', Reaches ep c c' →
        ∀ len, announcedLength ep c'.bytes = some len → len ≤ stringMaxSize := by
  refine forall₂_congr fun c' hreach => ?_
  obtain ⟨n, messages, -, ho⟩ := hreach
  exact lengthChecked_iff ho

end

/-- A TEXT frame that announces `2 ^ 64 - 1` bytes. -/
def hugeFrame : Bytes := [0x81, 0x7f, 0xff, 0xff, 0xff, 0xff, 0xff, 0xff, 0xff, 0xff]

/-- Ten bytes of the server end the client. -/
theorem huge_frame_throws :
    (receiving hugeFrame).decode .client = .error .lengthError
      ∧ ¬ ∀ c', Reaches .client (receiving hugeFrame) c' → LengthChecked .client c' := by
  have hthrows : (receiving hugeFrame).decode .client = .error .lengthError := by decide
  refine ⟨hthrows, fun h => ?_⟩
  exact (h _ ⟨0, [], rfl, rfl⟩).returns hthrows

end Connection

end ArkToolchain
