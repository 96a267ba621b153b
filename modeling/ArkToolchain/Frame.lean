/-
WebSocket frames (websocket/web_socket_frame.h).

`WebSocketFrame` is the record that the code fills in while it reads.  `Frame` is the frame as
the wire format draws it, and `Frame.encode` the byte string it denotes, with the payload length
in the shortest of the three encodings.
-/
import ArkToolchain.Bytes
import Mathlib.Data.Fintype.Basic

namespace ArkToolchain

/-! ### Frame types -/

inductive FrameType
  | continuation
  | text
  | binary
  | close
  | ping
  | pong
  deriving DecidableEq

/-- `EnumToNumber` at `FrameType`. -/
def FrameType.enumToNumber : FrameType → UInt8
  | .continuation => 0x0
  | .text => 0x1
  | .binary => 0x2
  | .close => 0x8
  | .ping => 0x9
  | .pong => 0xa

def isControlFrame (opcode : UInt8) : Bool :=
  FrameType.close.enumToNumber ≤ opcode

/-! ### The record the code reads into -/

/-- The four bytes of a masking key. -/
abbrev MaskingKey := Vector UInt8 4

/-- The key byte used at each payload index. -/
def MaskingKey.stream (key : MaskingKey) (i : Nat) : UInt8 :=
  key[i % 4]

/-- The bytes of the key as they were received. -/
def MaskingKey.ofBytes (bs : Bytes) : MaskingKey :=
  Vector.ofFn fun i => bs.getD i 0

theorem MaskingKey.ofBytes_toList (key : MaskingKey) : MaskingKey.ofBytes key.toList = key := by
  apply Vector.ext
  intro i hi
  simp [MaskingKey.ofBytes]

structure WebSocketFrame where
  payloadLen : Nat := 0
  fin : UInt8 := 0
  opcode : UInt8 := 0
  mask : UInt8 := 0
  maskingKey : MaskingKey := Vector.replicate 4 0
  payload : Bytes := []
  deriving DecidableEq

namespace WebSocketFrame

abbrev maskLen : Nat := 4
abbrev headerLen : Nat := 2
abbrev oneByteLenthEncLimit : Nat := 125
abbrev twoBytesLenthEnc : Nat := 126
abbrev twoBytesLenth : Nat := 2
abbrev twoBytesLengthLimit : Nat := 65536
abbrev eightBytesLenthEnc : Nat := 127
abbrev eightBytesLenth : Nat := 8

/-- The constructor from the two raw header bytes. -/
def ofHeader (headerRaw₀ headerRaw₁ : UInt8) : WebSocketFrame where
  payloadLen := (headerRaw₁ &&& 0x7f).toNat
  fin := (headerRaw₀ >>> 7) &&& 0x1
  opcode := headerRaw₀ &&& 0xf
  mask := (headerRaw₁ >>> 7) &&& 0x1

end WebSocketFrame

/-! ### The wire format -/

/-- A frame of the wire format: final bit, reserved bits, opcode, masking key
if the mask bit is set, and the unmasked payload.  A 64-bit length has its
most significant bit clear. -/
structure Frame where
  fin : Bool
  rsv : Fin 8
  opcode : Fin 16
  key : Option MaskingKey
  payload : Bytes
  size_lt : payload.length < 2 ^ 63

namespace Frame

/-- The seven-bit length field for a payload of `n` bytes. -/
def lengthField (n : Nat) : Nat :=
  if n ≤ 125 then n else if n < 65536 then 126 else 127

/-- The extended payload length, present when the field is 126 or 127. -/
def extendedLength (n : Nat) : Bytes :=
  if n ≤ 125 then [] else if n < 65536 then beBytes 2 n else beBytes 8 n

def header₀ (f : Frame) : UInt8 :=
  UInt8.ofNat (f.fin.toNat * 128 + f.rsv * 16 + f.opcode)

def header₁ (f : Frame) : UInt8 :=
  UInt8.ofNat (f.key.isSome.toNat * 128 + lengthField f.payload.length)

/-- The masking key and the payload bytes as they travel. -/
def body (f : Frame) : Bytes :=
  match f.key with
  | none => f.payload
  | some key => key.toList ++ xorMask key.stream f.payload

def encode (f : Frame) : Bytes :=
  f.header₀ :: f.header₁ :: (extendedLength f.payload.length ++ f.body)

theorem lengthField_lt (n : Nat) : lengthField n < 128 := by
  unfold lengthField
  split
  · omega
  · split <;> omega

theorem length_body (f : Frame) :
    f.body.length = (if f.key.isSome then 4 else 0) + f.payload.length := by
  unfold body
  rcases f.key with - | key <;> simp

theorem length_encode (f : Frame) :
    f.encode.length = 2 + (extendedLength f.payload.length).length + f.body.length := by
  simp [encode]
  omega

end Frame

/-! ### Reading the header of an encoded frame -/

private theorem header_opcode : ∀ (fin : Bool) (rsv : Fin 8) (op : Fin 16),
    UInt8.ofNat (fin.toNat * 128 + rsv * 16 + op) &&& 0xf = UInt8.ofNat op := by
  decide

private theorem header_mask : ∀ (m : Bool) (n : Fin 128),
    (UInt8.ofNat (m.toNat * 128 + n) >>> 7) &&& 0x1 = UInt8.ofNat m.toNat := by
  decide

private theorem header_len : ∀ (m : Bool) (n : Fin 128),
    (UInt8.ofNat (m.toNat * 128 + n) &&& 0x7f).toNat = n := by
  decide

variable (f : Frame)

theorem ofHeader_opcode :
    (WebSocketFrame.ofHeader f.header₀ f.header₁).opcode = UInt8.ofNat f.opcode :=
  header_opcode f.fin f.rsv f.opcode

theorem ofHeader_mask :
    (WebSocketFrame.ofHeader f.header₀ f.header₁).mask
      = UInt8.ofNat f.key.isSome.toNat :=
  header_mask f.key.isSome ⟨_, Frame.lengthField_lt f.payload.length⟩

theorem ofHeader_payloadLen :
    (WebSocketFrame.ofHeader f.header₀ f.header₁).payloadLen
      = Frame.lengthField f.payload.length :=
  header_len f.key.isSome ⟨_, Frame.lengthField_lt f.payload.length⟩

end ArkToolchain
