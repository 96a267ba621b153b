/-
The frame builders (websocket/frame_builder.cpp).

A builder appends to a message.  The client's builder overrides the header and the payload: it
sets the mask bit, appends the masking key and masks the payload.  Both produce exactly the wire
format (`build_eq_encode`).
-/
import ArkToolchain.Frame

namespace ArkToolchain

open WebSocketFrame

/-- `PushNumberPerByte` for an unsigned type of `bytesCount` bytes: the byte
pushed in round `i` is the number shifted right by `shiftCount`. -/
def pushNumberPerByte (bytesCount : Nat) (message : Bytes) (number : Nat) : Bytes :=
  (List.range bytesCount).foldl
    (fun message i =>
      let shiftCount := (bytesCount - 1 - i) * 8
      message ++ [UInt8.ofNat ((number >>> shiftCount) &&& 0xff)])
    message

structure ServerFrameBuilder where
  fin : Bool
  opcode : FrameType
  payload : Bytes := []

namespace ServerFrameBuilder

variable (b : ServerFrameBuilder)

def setPayload (payload : Bytes) : ServerFrameBuilder :=
  { b with payload := payload }

def pushHeader (message : Bytes) (payloadLenField : UInt8) : Bytes :=
  let byte := b.opcode.enumToNumber
  let byte := if b.fin then byte ||| 0x80 else byte
  message ++ [byte] ++ [payloadLenField &&& 0x7f]

def pushPayloadLength (message : Bytes) (payloadLenField : UInt8) : Bytes :=
  let payloadLen := b.payload.length % 2 ^ 64
  if payloadLenField.toNat = twoBytesLenthEnc then
    pushNumberPerByte 2 message (payloadLen % 2 ^ 16)
  else if payloadLenField.toNat = eightBytesLenthEnc then
    pushNumberPerByte 8 message payloadLen
  else message

/-- The length field that `PushFullHeader` chooses. -/
def payloadLenField (payloadBytes : Nat) : UInt8 :=
  if payloadBytes ≤ oneByteLenthEncLimit then
    UInt8.ofNat payloadBytes
  else if payloadBytes < twoBytesLengthLimit then
    UInt8.ofNat twoBytesLenthEnc
  else
    UInt8.ofNat eightBytesLenthEnc

def pushFullHeader (message : Bytes) : Bytes :=
  let field := payloadLenField b.payload.length
  b.pushPayloadLength (b.pushHeader message field) field

def pushPayload (message : Bytes) : Bytes :=
  message ++ b.payload

def build : Bytes :=
  b.pushPayload (b.pushFullHeader [])

end ServerFrameBuilder

structure ClientFrameBuilder extends ServerFrameBuilder where
  maskingKey : MaskingKey

namespace ClientFrameBuilder

variable (b : ClientFrameBuilder)

def setPayload (payload : Bytes) : ClientFrameBuilder :=
  { b with payload := payload }

def pushMask (message : Bytes) : Bytes :=
  message ++ b.maskingKey.toList

def pushFullHeader (message : Bytes) : Bytes :=
  let message := b.toServerFrameBuilder.pushFullHeader message
  -- the mask bit is set in the header's second byte
  b.pushMask (message.modify 1 (· ||| 0x80))

def pushPayload (message : Bytes) : Bytes :=
  message ++ b.payload.mapIdx fun i c => c ^^^ b.maskingKey.stream i

def build : Bytes :=
  b.pushPayload (b.pushFullHeader [])

end ClientFrameBuilder

/-! ### Pushing a number is writing it big-endian -/

private theorem foldl_push (f : Nat → UInt8) (message : Bytes) (is : List Nat) :
    is.foldl (fun message i => message ++ [f i]) message = message ++ is.map f := by
  induction is generalizing message with
  | nil => simp
  | cons i is ih => simp [ih]

private theorem ofNat_shift (number n : Nat) :
    UInt8.ofNat ((number >>> (n * 8)) &&& 0xff) = UInt8.ofNat (number / 256 ^ n) := by
  have hpow : 2 ^ (n * 8) = 256 ^ n := by
    rw [Nat.mul_comm, pow_mul]
    norm_num
  apply UInt8.toNat_inj.mp
  rw [Nat.shiftRight_eq_div_pow, hpow]
  rw [show (0xff : Nat) = 2 ^ 8 - 1 from rfl, Nat.and_two_pow_sub_one_eq_mod]
  simp

theorem pushNumberPerByte_eq (n : Nat) (message : Bytes) (v : Nat) :
    pushNumberPerByte n message v = message ++ beBytes n v := by
  unfold pushNumberPerByte
  rw [foldl_push]
  congr 1
  induction n with
  | zero => rfl
  | succ n ih =>
    -- the first round writes the highest byte, the others are the shorter loop
    rw [List.range_succ_eq_map, List.map_cons, List.map_map, beBytes, ← ih]
    congr 1
    · simpa using ofNat_shift v n
    · apply List.map_congr_left
      intro i _
      have hshift : n + 1 - 1 - (i + 1) = n - 1 - i := by omega
      simp only [Function.comp_apply, Nat.succ_eq_add_one, hshift]

/-! ### The builders produce the wire format -/

/-- The frame of the wire format that a builder stands for. -/
def FrameType.frame (fin : Bool) (opcode : FrameType) (key : Option MaskingKey) (payload : Bytes)
    (h : payload.length < 2 ^ 63) : Frame where
  fin := fin
  rsv := 0
  opcode := ⟨opcode.enumToNumber.toNat, by cases opcode <;> decide⟩
  key := key
  payload := payload
  size_lt := h

namespace ServerFrameBuilder

theorem toNat_payloadLenField (n : Nat) : (payloadLenField n).toNat = Frame.lengthField n := by
  unfold payloadLenField Frame.lengthField
  split
  next h =>
    have hn : n ≤ 125 := h
    simp
    omega
  next => split <;> rfl

variable (b : ServerFrameBuilder)

theorem pushPayloadLength_eq (message : Bytes) (h : b.payload.length < 2 ^ 63) :
    b.pushPayloadLength message (payloadLenField b.payload.length)
      = message ++ Frame.extendedLength b.payload.length := by
  have hmod : b.payload.length % 2 ^ 64 = b.payload.length := by omega
  simp only [pushPayloadLength, toNat_payloadLenField, hmod, pushNumberPerByte_eq,
    twoBytesLenthEnc, eightBytesLenthEnc]
  unfold Frame.lengthField Frame.extendedLength
  split
  · rw [if_neg (by omega), if_neg (by omega)]
    simp
  · split
    · rw [if_pos rfl, Nat.mod_eq_of_lt (by omega)]
    · rfl

theorem pushFullHeader_nil (h : b.payload.length < 2 ^ 63) :
    b.pushFullHeader []
      = (b.opcode.frame b.fin none b.payload h).header₀
        :: (b.opcode.frame b.fin none b.payload h).header₁
        :: Frame.extendedLength b.payload.length := by
  have h₁ : payloadLenField b.payload.length &&& 0x7f
      = UInt8.ofNat (Frame.lengthField b.payload.length) := by
    apply UInt8.toNat_inj.mp
    have hlt := Frame.lengthField_lt b.payload.length
    rw [UInt8.toNat_and, toNat_payloadLenField]
    rw [show (0x7f : UInt8).toNat = 2 ^ 7 - 1 from rfl, Nat.and_two_pow_sub_one_eq_mod]
    simp
    omega
  have h₀ : (if b.fin then b.opcode.enumToNumber ||| 0x80 else b.opcode.enumToNumber)
      = (b.opcode.frame b.fin none b.payload h).header₀ := by
    simp only [Frame.header₀, FrameType.frame]
    rcases b.fin <;> rcases b.opcode <;> rfl
  simp only [pushFullHeader, pushPayloadLength_eq b _ h, pushHeader, h₀, h₁]
  simp [Frame.header₁, FrameType.frame]

/-- **The server's frames are unmasked frames of the wire format.** -/
theorem build_eq_encode (h : b.payload.length < 2 ^ 63) :
    b.build = (b.opcode.frame b.fin none b.payload h).encode := by
  simp only [build, pushPayload, pushFullHeader_nil b h, Frame.encode, Frame.body]
  simp [FrameType.frame]

end ServerFrameBuilder

namespace ClientFrameBuilder

private theorem or_mask_bit : ∀ n : Fin 128, UInt8.ofNat n ||| 0x80 = 128 + UInt8.ofNat n := by
  decide

/-- **The client's frames are masked frames of the wire format.** -/
theorem build_eq_encode (b : ClientFrameBuilder) (h : b.payload.length < 2 ^ 63) :
    b.build = (b.opcode.frame b.fin (some b.maskingKey) b.payload h).encode := by
  have hbit := or_mask_bit ⟨_, Frame.lengthField_lt b.payload.length⟩
  simp only [build, pushPayload, pushFullHeader, pushMask,
    ServerFrameBuilder.pushFullHeader_nil _ h]
  simp [Frame.encode, Frame.body, Frame.header₀, Frame.header₁, FrameType.frame, xorMask]
  exact hbit

end ClientFrameBuilder

end ArkToolchain
