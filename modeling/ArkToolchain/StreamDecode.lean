/-
What `Decode` does to the byte stream.

`streamStep` is an abstract `Decode`: it takes the bytes that are still to come, in one piece,
and says what one call returns, which bytes it leaves and whether the connection survives.  By
`decode_refines`, `Decode` does exactly that, however the stream is cut into segments.
-/
import ArkToolchain.WebSocketBase

namespace ArkToolchain

open FrameType

/-! ### Reading a length -/

private theorem or_byte (v : Nat) (b : UInt8) : v * 256 ||| b.toNat = v * 256 + b.toNat := by
  have h := Nat.shiftLeft_add_eq_or_of_lt (show b.toNat < 2 ^ 8 from b.toNat_lt) v
  rw [Nat.shiftLeft_eq] at h
  exact h.symm

/-- One round of the loop of `NetToHostLongLong` is one big-endian digit: the
accumulator is a multiple of 256, so the `|=` adds, and the shift stays below
64 bits as long as no more than eight bytes are read. -/
private theorem netToHostLoop_eq (bs : Bytes) (hbs : bs ≠ []) (v k : Nat) (hv : v < 256 ^ k)
    (hk : k + bs.length ≤ 8) : netToHostLoop (v * 256) bs = v * 256 ^ bs.length + beNat bs := by
  induction bs generalizing v k with
  | nil => exact absurd rfl hbs
  | cons b bs ih =>
    rcases bs with - | ⟨b', bs⟩
    · simp [netToHostLoop, beNat, or_byte]
    · -- the accumulator has room for one more digit, so the shift drops nothing
      have hb : b.toNat < 256 := b.toNat_lt
      have hv' : v * 256 + b.toNat < 256 ^ (k + 1) := by
        omega
      have hpow : 256 ^ (k + 1) ≤ 256 ^ 7 :=
        Nat.pow_le_pow_right (by omega) (by simp only [List.length_cons] at hk; omega)
      have hmod : ((v * 256 + b.toNat) <<< 8) % 2 ^ 64 = (v * 256 + b.toNat) * 256 := by
        omega
      rw [netToHostLoop, or_byte, hmod, ih (by simp) _ (k + 1) hv' (by simp at hk ⊢; omega)]
      · simp only [beNat, List.length_cons, pow_succ]
        ring
      · simp

theorem netToHostLongLong_eq {bs : Bytes} (h : bs.length ≤ 8) :
    netToHostLongLong bs = beNat bs := by
  rcases bs with - | ⟨b, bs⟩
  · rfl
  · have := netToHostLoop_eq (b :: bs) (by simp) 0 0 (by simp) (by simpa using h)
    simpa [netToHostLongLong] using this

/-! ### The abstract step -/

/-- What one call of `Decode` on an open connection comes to. -/
inductive Received
  /-- `message` is returned, the connection stays open and `rest` is unread. -/
  | message (message rest : Bytes)
  /-- The connection is closed with `status` and `message` is returned. -/
  | closed (status : CloseStatusCode) (message : Bytes)
  /-- The payload string cannot be made that long. -/
  | lengthError
  deriving DecidableEq

/-- The payload length: the field itself, or the two or eight bytes after it. -/
def streamLength (field : Nat) (bs : Bytes) : Option (Nat × Bytes) :=
  if field = 126 then
    if bs.length < 2 then none else some (beNat (bs.take 2), bs.drop 2)
  else if field = 127 then
    if bs.length < 8 then none else some (beNat (bs.take 8), bs.drop 8)
  else some (field, bs)

/-- The masking key, on the server, and `len` bytes of payload. -/
def streamPayload [StringLimit] (ep : Endpoint) (len : Nat) (bs : Bytes) : Received :=
  if len = 0 then .message [] bs
  else if stringMaxSize < len then .lengthError
  else
    match ep with
    | .server =>
      if bs.length < 4 + len then .closed .protocolError Connection.decodeDisconnectMsg
      else .message
        (xorMask (MaskingKey.ofBytes (bs.take 4)).stream ((bs.drop 4).take len))
        (bs.drop (4 + len))
    | .client =>
      if bs.length < len then .closed .protocolError Connection.decodeDisconnectMsg
      else .message (bs.take len) (bs.drop len)

def streamRead [StringLimit] (ep : Endpoint) (field : Nat) (bs : Bytes) : Received :=
  match streamLength field bs with
  | none => .closed .protocolError Connection.decodeDisconnectMsg
  | some (len, bs) => streamPayload ep len bs

/-- Only TEXT and PING frames are read to their end; of any other frame the
header alone is taken, and CLOSE ends the connection. -/
def streamStep [StringLimit] (ep : Endpoint) : Bytes → Received
  | headerRaw₀ :: headerRaw₁ :: bs =>
    let wsFrame := WebSocketFrame.ofHeader headerRaw₀ headerRaw₁
    if !Connection.validateIncomingFrame ep wsFrame then
      .closed .protocolError Connection.decodeDisconnectMsg
    else if wsFrame.opcode = text.enumToNumber ∨ wsFrame.opcode = ping.enumToNumber then
      streamRead ep wsFrame.payloadLen bs
    else if wsFrame.opcode = close.enumToNumber then
      .closed .noStatusCode []
    else .message [] bs
  | _ => .closed .unexpectedError Connection.decodeDisconnectMsg

/-! ### Frame conditions -/

namespace Connection

def bytes (c : Connection) : Bytes := c.incoming.flatten

theorem recvUnderLock_fst (c : Connection) (n : Nat) : (c.recvUnderLock n).1 = c.bytes.take n :=
  readExact_fst n c.incoming

theorem recvUnderLock_short (c : Connection) (n : Nat) :
    (c.recvUnderLock n).1.length ≠ n ↔ c.bytes.length < n := by
  rw [recvUnderLock_fst, List.length_take]
  omega

@[simp] theorem recvUnderLock_bytes (c : Connection) (n : Nat) :
    (c.recvUnderLock n).2.bytes = c.bytes.drop n :=
  readExact_snd n c.incoming

variable (ep : Endpoint)

@[simp] theorem createFrame_state (c : Connection) (isLast : Bool) (t : FrameType) (p : Bytes) :
    (c.createFrame ep isLast t p).2.connectionState = c.connectionState := by
  cases ep <;> rfl

@[simp] theorem createFrame_bytes (c : Connection) (isLast : Bool) (t : FrameType) (p : Bytes) :
    (c.createFrame ep isLast t p).2.bytes = c.bytes := by
  cases ep <;> rfl

@[simp] theorem sendUnderLock_state (c : Connection) (m : Bytes) :
    (c.sendUnderLock m).2.connectionState = c.connectionState := rfl

@[simp] theorem sendUnderLock_bytes (c : Connection) (m : Bytes) :
    (c.sendUnderLock m).2.bytes = c.bytes := rfl

@[simp] theorem sendPongFrame_state (c : Connection) (p : Bytes) :
    (c.sendPongFrame ep p).connectionState = c.connectionState := by
  simp [sendPongFrame]

@[simp] theorem sendPongFrame_bytes (c : Connection) (p : Bytes) :
    (c.sendPongFrame ep p).bytes = c.bytes := by
  simp [sendPongFrame]

@[simp] theorem sendCloseFrame_state (c : Connection) (s : CloseStatusCode) :
    (c.sendCloseFrame ep s).connectionState = c.connectionState := by
  simp [sendCloseFrame]

theorem closeConnection_state (c : Connection) (s : CloseStatusCode)
    (h : c.connectionState = .opened) : (c.closeConnection ep s).2.connectionState = .closed := by
  simp [closeConnection, closeConnectionSocket, h]

/-! ### The reading functions refine the abstract ones -/

variable [StringLimit]

/-- The result of a reading function agrees with what `streamPayload` and
`streamRead` say about it. -/
def ReadAgrees (c : Connection) (r : Received)
    (result : Except LengthError (Option WebSocketFrame × Connection)) : Prop :=
  match r with
  | .message p rest => ∃ wsFrame c', result = .ok (some wsFrame, c') ∧ wsFrame.payload = p ∧
      c'.connectionState = c.connectionState ∧ c'.bytes = rest
  | .closed _ m => ∃ c', result = .ok (none, c') ∧ m = decodeDisconnectMsg ∧
      c'.connectionState = c.connectionState
  | .lengthError => result = .error .lengthError

theorem decodeMessage_agrees (c : Connection) (wsFrame : WebSocketFrame)
    (hp : wsFrame.payload = []) :
    ReadAgrees c (streamPayload ep wsFrame.payloadLen c.bytes) (c.decodeMessage ep wsFrame) := by
  fun_cases streamPayload ep wsFrame.payloadLen c.bytes
  all_goals simp_all only [decodeMessage, recvUnderLock_short, recvUnderLock_bytes,
    List.length_drop, WebSocketFrame.maskLen, if_true, if_false, ReadAgrees]
  case case1 => exact ⟨wsFrame, c, rfl, hp, rfl, rfl⟩
  -- the key first, then the payload from what the key has left
  case case3 h =>
    split_ifs
    case neg => omega
    all_goals exact ⟨_, rfl, trivial, rfl⟩
  case case4 h =>
    rw [if_neg (by omega), if_neg (by omega)]
    refine ⟨_, _, rfl, ?_, rfl, ?_⟩
    · simp only [recvUnderLock_fst, recvUnderLock_bytes, xorMask]
    · rw [recvUnderLock_bytes, recvUnderLock_bytes, List.drop_drop]
  case case5 => exact ⟨_, rfl, trivial, rfl⟩
  case case6 => exact ⟨_, _, rfl, recvUnderLock_fst _ _, rfl, recvUnderLock_bytes _ _⟩

/-- After a length of `n` bytes has been received, `DecodeMessage` goes on
with the rest of the stream. -/
private theorem readLength_agrees (c : Connection) (wsFrame : WebSocketFrame)
    (hp : wsFrame.payload = []) (n : Nat) (hn : n ≤ 8) :
    ReadAgrees c
      (match (if c.bytes.length < n then none
          else some (beNat (c.bytes.take n), c.bytes.drop n)) with
        | none => .closed .protocolError decodeDisconnectMsg
        | some (len, bs) => streamPayload ep len bs)
      (if (c.recvUnderLock n).1.length ≠ n then .ok (none, (c.recvUnderLock n).2)
        else (c.recvUnderLock n).2.decodeMessage ep
          { wsFrame with payloadLen := netToHostLongLong (c.recvUnderLock n).1 }) := by
  simp only [recvUnderLock_short]
  by_cases hshort : c.bytes.length < n
  · simp only [if_pos hshort]
    exact ⟨_, rfl, rfl, rfl⟩
  · simp only [if_neg hshort]
    have hlen : netToHostLongLong (c.recvUnderLock n).1 = beNat (c.bytes.take n) := by
      rw [recvUnderLock_fst, netToHostLongLong_eq]
      rw [List.length_take]
      omega
    rw [hlen, ← recvUnderLock_bytes]
    exact decodeMessage_agrees ep (c.recvUnderLock n).2
      { wsFrame with payloadLen := beNat (c.bytes.take n) } hp

theorem readPayload_agrees (c : Connection) (wsFrame : WebSocketFrame) (hp : wsFrame.payload = []) :
    ReadAgrees c (streamRead ep wsFrame.payloadLen c.bytes) (c.readPayload ep wsFrame) := by
  unfold streamRead streamLength readPayload
  by_cases h₂ : wsFrame.payloadLen = 126
  · simp only [if_pos h₂]
    exact readLength_agrees ep c wsFrame hp 2 (by omega)
  by_cases h₈ : wsFrame.payloadLen = 127
  · simp only [if_neg h₂, if_pos h₈]
    exact readLength_agrees ep c wsFrame hp 8 (by omega)
  · simp only [if_neg h₂, if_neg h₈]
    exact decodeMessage_agrees ep c wsFrame hp

/-! ### The refinement theorem -/

/-- The result of `Decode` agrees with what `streamStep` says about it. -/
def DecodeAgrees (r : Received) (result : Except LengthError (Bytes × Connection)) : Prop :=
  match r with
  | .message m rest => ∃ c', result = .ok (m, c') ∧ c'.connectionState = .opened ∧ c'.bytes = rest
  | .closed _ m => ∃ c', result = .ok (m, c') ∧ c'.connectionState = .closed
  | .lengthError => result = .error .lengthError

variable {c : Connection} {r : Received}

omit [StringLimit] in
/-- What the end of `Decode` makes of a frame that was read. -/
theorem decodeHandled_agrees {result : Except LengthError (Option WebSocketFrame × Connection)}
    (ho : c.connectionState = .opened) (h : ReadAgrees c r result) :
    DecodeAgrees r (decodeHandled ep result) := by
  cases r with
  | message m rest =>
    obtain ⟨wsFrame, c', rfl, rfl, hst, hb⟩ := h
    exact ⟨c', rfl, hst.trans ho, hb⟩
  | closed st m =>
    obtain ⟨c', rfl, rfl, hst⟩ := h
    exact ⟨_, rfl, closeConnection_state ep c' _ (hst.trans ho)⟩
  | lengthError =>
    obtain rfl : result = .error .lengthError := h
    rfl

theorem handleControlFrame_ping (c : Connection) (wsFrame : WebSocketFrame)
    (hping : wsFrame.opcode = ping.enumToNumber)
    (h : ReadAgrees c r (c.readPayload ep wsFrame)) :
    ReadAgrees c r (c.handleControlFrame ep wsFrame) := by
  simp only [handleControlFrame, if_pos hping]
  cases r with
  | message m rest =>
    obtain ⟨f, c', hr, hm, hst, hb⟩ := h
    rw [hr]
    exact ⟨f, _, rfl, hm, by simpa using hst, by simpa using hb⟩
  | closed st m =>
    obtain ⟨c', hr, hm, hst⟩ := h
    rw [hr]
    exact ⟨c', rfl, hm, hst⟩
  | lengthError =>
    rw [show c.readPayload ep wsFrame = _ from h]
    rfl

/-- `Decode` after a valid header. -/
private theorem handled_agrees (c : Connection) (wsFrame : WebSocketFrame)
    (ho : c.connectionState = .opened) (hp : wsFrame.payload = []) :
    DecodeAgrees
      (if wsFrame.opcode = text.enumToNumber ∨ wsFrame.opcode = ping.enumToNumber then
        streamRead ep wsFrame.payloadLen c.bytes
      else if wsFrame.opcode = close.enumToNumber then .closed .noStatusCode []
      else .message [] c.bytes)
      (if isControlFrame wsFrame.opcode then decodeHandled ep (c.handleControlFrame ep wsFrame)
        else decodeHandled ep (c.handleDataFrame ep wsFrame)) := by
  have hread := readPayload_agrees ep c wsFrame hp
  -- TEXT is a data frame, PING and CLOSE are control frames
  by_cases htext : wsFrame.opcode = text.enumToNumber
  · have hctl : ¬ isControlFrame wsFrame.opcode = true := by
      rw [htext]
      decide
    rw [if_pos (.inl htext), if_neg hctl, handleDataFrame, if_pos htext]
    exact decodeHandled_agrees ep ho hread
  by_cases hping : wsFrame.opcode = ping.enumToNumber
  · have hctl : isControlFrame wsFrame.opcode = true := by
      rw [hping]
      decide
    rw [if_pos (.inr hping), if_pos hctl]
    exact decodeHandled_agrees ep ho (handleControlFrame_ping ep c wsFrame hping hread)
  rw [if_neg (not_or.mpr ⟨htext, hping⟩)]
  by_cases hclose : wsFrame.opcode = close.enumToNumber
  · have hctl : isControlFrame wsFrame.opcode = true := by
      rw [hclose]
      decide
    rw [if_pos hclose, if_pos hctl, handleControlFrame, if_neg hping, if_pos hclose]
    exact ⟨_, by rw [decodeHandled, hp], closeConnection_state ep c _ ho⟩
  · -- the header is all that is read, whichever handler gets the frame
    rw [if_neg hclose, handleControlFrame, handleDataFrame, if_neg hping, if_neg hclose,
      if_neg htext, ite_self]
    exact ⟨c, by rw [decodeHandled, hp], ho, rfl⟩

/-- **`Decode` sees only the byte stream**: on an open connection it does what
`streamStep` says, however the stream is cut into segments. -/
theorem decode_refines (c : Connection) (ho : c.connectionState = .opened) :
    DecodeAgrees (streamStep ep c.bytes) (c.decode ep) := by
  -- the two bytes of the header, and what stands behind them
  have hgot := recvUnderLock_fst c 2
  have hrest := recvUnderLock_bytes c 2
  have hst : (c.recvUnderLock 2).2.connectionState = .opened := ho
  unfold decode
  rw [if_neg (by simp [ho])]
  rcases hr : c.recvUnderLock 2 with ⟨got, c'⟩
  rw [hr] at hgot hrest hst
  -- with fewer than two bytes the receive fails and the connection is closed
  rcases hb : c.bytes with - | ⟨b₀, - | ⟨b₁, bs⟩⟩
  · rw [hb] at hgot
    subst hgot
    exact ⟨_, rfl, closeConnection_state ep c' _ hst⟩
  · rw [hb] at hgot
    subst hgot
    exact ⟨_, rfl, closeConnection_state ep c' _ hst⟩
  · rw [hb] at hgot hrest
    obtain rfl : got = [b₀, b₁] := hgot
    obtain rfl : c'.bytes = bs := hrest
    simp only [streamStep]
    by_cases hv : validateIncomingFrame ep (WebSocketFrame.ofHeader b₀ b₁) = true
    · simp only [hv, Bool.not_true, Bool.false_eq_true, if_false]
      exact handled_agrees ep c' _ hst rfl
    · simp only [hv, Bool.not_false, if_true]
      exact ⟨_, rfl, closeConnection_state ep c' _ hst⟩

/-! ### Runs of calls -/

theorem decode_not_opened (h : c.connectionState ≠ .opened) : c.decode ep = .ok ([], c) := by
  unfold decode
  rw [if_pos h]

theorem decodeMany_not_opened (n : Nat) (h : c.connectionState ≠ .opened) :
    c.decodeMany ep n = .ok (List.replicate n [], c) := by
  induction n with
  | zero => rfl
  | succ n ih => simp only [decodeMany, decode_not_opened ep h, ih, List.replicate_succ]

variable {c' : Connection} {ms : List Bytes} {n : Nat}

theorem decodeMany_succ_ok (h : c.decodeMany ep (n + 1) = .ok (ms, c')) :
    ∃ m c₁ ms', c.decode ep = .ok (m, c₁) ∧ c₁.decodeMany ep n = .ok (ms', c') ∧ ms = m :: ms' := by
  unfold decodeMany at h
  rcases hd : c.decode ep with e | ⟨m, c₁⟩
  · simp [hd] at h
  rcases hm : c₁.decodeMany ep n with e | ⟨ms', c₂⟩
  · simp [hd, hm] at h
  · simp only [hd, hm, Except.ok.injEq, Prod.mk.injEq] at h
    obtain ⟨rfl, rfl⟩ := h
    exact ⟨m, c₁, ms', rfl, hm, rfl⟩

variable {m : Bytes}

theorem decodeMany_succ {c₁ : Connection} (hd : c.decode ep = .ok (m, c₁))
    (hm : c₁.decodeMany ep n = .ok (ms, c')) : c.decodeMany ep (n + 1) = .ok (m :: ms, c') := by
  simp only [decodeMany, hd, hm]

theorem opened_of_decode (h : c.decode ep = .ok (m, c')) (ho : c'.connectionState = .opened) :
    c.connectionState = .opened := by
  by_contra hc
  rw [decode_not_opened ep hc] at h
  obtain ⟨-, rfl⟩ := h
  exact hc ho

theorem opened_of_decodeMany (h : c.decodeMany ep n = .ok (ms, c'))
    (ho : c'.connectionState = .opened) : c.connectionState = .opened := by
  induction n generalizing c ms with
  | zero =>
    obtain ⟨-, rfl⟩ := h
    exact ho
  | succ n ih =>
    obtain ⟨m, c₁, ms', hd, hm, -⟩ := decodeMany_succ_ok ep h
    exact opened_of_decode ep hd (ih hm)

/-- A call that leaves the connection open has returned a message of the
abstract step. -/
theorem streamStep_of_decode (h : c.decode ep = .ok (m, c')) (ho : c'.connectionState = .opened) :
    streamStep ep c.bytes = .message m c'.bytes := by
  have href := decode_refines ep c (opened_of_decode ep h ho)
  rw [h] at href
  -- the other two outcomes do not leave the connection open
  rcases hs : streamStep ep c.bytes with ⟨m', rest⟩ | ⟨st, m'⟩ | -
  · rw [hs] at href
    obtain ⟨c'', hc, -, rfl⟩ := href
    obtain ⟨rfl, rfl⟩ := hc
    rfl
  · rw [hs] at href
    obtain ⟨c'', hc, hclosed⟩ := href
    obtain ⟨-, rfl⟩ := hc
    rw [ho] at hclosed
    cases hclosed
  · rw [hs] at href
    cases href

theorem decode_of_streamStep {rest : Bytes} (ho : c.connectionState = .opened)
    (h : streamStep ep c.bytes = .message m rest) :
    ∃ c', c.decode ep = .ok (m, c') ∧ c'.connectionState = .opened ∧ c'.bytes = rest := by
  have href := decode_refines ep c ho
  rw [h] at href
  exact href

end Connection

end ArkToolchain
