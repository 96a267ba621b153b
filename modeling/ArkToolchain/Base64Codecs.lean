/-
The base64 codecs of the two debuggers (tooling/static/evaluation/base64.h,
tooling/dynamic/base/pt_base64.cpp).

Both decoders collect the values of four characters in a buffer and write three bytes when it is
full.  The static one gives up at a character that is neither of the alphabet nor `=`, the
dynamic one writes what the buffer has and then looks at what is left.  They compute
`Alphabet.decode` on padded texts and fail on others.

The array of the dynamic decoder is not initialised, so its contents are a parameter.

Main results: what each decoder accepts (`decodes_padded_texts`), the round trip
(`codec_round_trip`, `decodeString_encode`), and that the decoders agree (`decoders_agree`).
-/
import ArkToolchain.BitStrings
import Mathlib.Data.List.TakeWhile

namespace ArkToolchain

/-! ### The alphabet -/

namespace Base64

/-- The character of a value. -/
def char (v : BitVec 6) : UInt8 :=
  if v < 26 then UInt8.ofNat (v.toNat + 65)
  else if v < 52 then UInt8.ofNat (v.toNat + 71)
  else if v < 62 then UInt8.ofNat (v.toNat - 4)
  else if v = 62 then 43
  else 47

/-- The value of a character. -/
def value (c : UInt8) : Option (BitVec 6) :=
  if 65 ≤ c ∧ c ≤ 90 then some (BitVec.ofNat 6 (c.toNat - 65))
  else if 97 ≤ c ∧ c ≤ 122 then some (BitVec.ofNat 6 (c.toNat - 71))
  else if 48 ≤ c ∧ c ≤ 57 then some (BitVec.ofNat 6 (c.toNat + 4))
  else if c = 43 then some 62
  else if c = 47 then some 63
  else none

theorem forall_uInt8 {P : UInt8 → Prop} (h : ∀ x : BitVec 8, P (UInt8.ofBitVec x)) (c : UInt8) :
    P c :=
  h c.toBitVec

theorem value_all (c : UInt8) : ((value c).all fun v => char v = c) = true := by
  apply forall_uInt8 (P := fun c => ((value c).all fun v => char v = c) = true)
  decide +kernel

/-- The alphabet of base64, padded with `=`. -/
def alphabet : Alphabet UInt8 6 where
  char := char
  value := value
  pad := 61
  value_char := by decide +kernel
  char_of_value {c v} h := by
    have hall := value_all c
    rw [h] at hall
    simpa using hall
  value_pad := by decide

/-- The byte of a value. -/
def sextet (v : BitVec 6) : UInt8 :=
  UInt8.ofBitVec (v.setWidth 8)

/-- The bytes that a list of values stands for. -/
def octets (values : List (BitVec 6)) : Bytes :=
  (wholeWords 8 (values.flatMap bitsOf)).map UInt8.ofBitVec

end Base64

open Base64

/-! ### The static decoder -/

namespace Base64Decoder

def decodedGroupBytes : Nat := 3

def encodedGroupBytes : Nat := 4

def maxPaddings : Nat := 2

def paddingChar : UInt8 := 61

def invalidValue : UInt8 := 255

def decodeTable : List UInt8 := [
  255, 255, 255, 255, 255, 255, 255, 255, 255, 255, 255, 255, 255, 255, 255, 255, 255, 255, 255,
  255, 255, 255, 255, 255, 255, 255, 255, 255, 255, 255, 255, 255, 255, 255, 255, 255, 255, 255,
  255, 255, 255, 255, 255, 62, 255, 255, 255, 63, 52, 53, 54, 55, 56, 57, 58, 59, 60, 61, 255,
  255, 255, 255, 255, 255, 255, 0, 1, 2, 3, 4, 5, 6, 7, 8, 9, 10, 11, 12, 13, 14, 15, 16, 17, 18,
  19, 20, 21, 22, 23, 24, 25, 255, 255, 255, 255, 255, 255, 26, 27, 28, 29, 30, 31, 32, 33, 34,
  35, 36, 37, 38, 39, 40, 41, 42, 43, 44, 45, 46, 47, 48, 49, 50, 51]

/-- `Base64Decoder::DecodeChar`. -/
def decodeChar (encoded : UInt8) : UInt8 :=
  if decodeTable.length ≤ encoded.toNat then invalidValue
  else decodeTable.getD encoded.toNat invalidValue

/-- `DecodeSextetsGroup`: three bytes from four values. -/
def decodeSextetsGroup (decodingBuffer : Vector UInt8 4) : Bytes :=
  [decodingBuffer[0] <<< 2 ||| (decodingBuffer[1] &&& 0x30) >>> 4,
    decodingBuffer[1] <<< 4 ||| (decodingBuffer[2] &&& 0x3c) >>> 2,
    decodingBuffer[2] <<< 6 ||| decodingBuffer[3]]

/-- The number of padding characters in the end, two at most. -/
def trailingPaddings (input : Bytes) : Nat :=
  ((input.reverse.take maxPaddings).takeWhile (· = paddingChar)).length

/-- `DecodedSize`, which refuses lengths that are not multiples of four. -/
def decodedSize (input : Bytes) : Option Nat :=
  if input.isEmpty || input.length % encodedGroupBytes ≠ 0 then none
  else some (input.length / encodedGroupBytes * decodedGroupBytes - trailingPaddings input)

/-- The state of the loop.  `output` is what has been written, and `input` what
`srcIter` has before it. -/
structure Loop where
  decodingBuffer : Vector UInt8 4 := Vector.replicate 4 0
  baseIdx : Nat := 0
  output : Bytes := []

/-- A value is put into the buffer, which is written out when it is full. -/
def Loop.put (s : Loop) (decoded : UInt8) : Loop :=
  let decodingBuffer := s.decodingBuffer.setIfInBounds s.baseIdx decoded
  if s.baseIdx + 1 = encodedGroupBytes then
    { decodingBuffer, baseIdx := 0, output := s.output ++ decodeSextetsGroup decodingBuffer }
  else { s with decodingBuffer, baseIdx := s.baseIdx + 1 }

/-- The loop over the input: an invalid character, with what has been written by
then, or the state in the end and what is left of the input. -/
def loop (s : Loop) : Bytes → Except Bytes (Loop × Bytes)
  | [] => .ok (s, [])
  | c :: input =>
    if c = paddingChar then .ok (s, c :: input)
    else if decodeChar c = invalidValue then .error s.output
    else loop (s.put (decodeChar c)) input

/-- Whether only padding is left, and no more than there can be. -/
def onlyPadding (rest : Bytes) : Bool :=
  rest.length = 0 ||
    (rest.length = 1 && rest[0]? = some paddingChar) ||
    (rest.length = maxPaddings && rest[0]? = some paddingChar && rest[1]? = some paddingChar)

/-- `Decode` of a span: whether it succeeded, and the bytes that it has written. -/
def decode (input : Bytes) : Bool × Bytes :=
  if input.isEmpty || input.length % encodedGroupBytes ≠ 0 then (false, [])
  else
    match loop {} input with
    | .error output => (false, output)
    | .ok (s, rest) =>
      -- the remainder part
      let decodedRemainder := decodeSextetsGroup s.decodingBuffer
      let output :=
        if s.baseIdx ≠ 0 then s.output ++ decodedRemainder.take (s.baseIdx - 1) else s.output
      (onlyPadding rest, output)

/-- `std::string::resize`. -/
def resize (text : Bytes) (n : Nat) : Bytes :=
  text.take n ++ List.replicate (n - text.length) 0

/-- `Decode` of a string: whether it succeeded, and `decoded` after it. -/
def decodeString (encoded decoded : Bytes) : Bool × Bytes :=
  match decodedSize encoded with
  | none => (false, decoded)
  | some bytecodeSize =>
    let (success, output) := decode encoded
    (success, output ++ (resize decoded bytecodeSize).drop output.length)

end Base64Decoder

/-! ### The dynamic codec -/

namespace PtBase64

def unencodedGroupBytes : Nat := 3

def encodedGroupBytes : Nat := 4

def invalidValue : UInt8 := 255

def decodeTable : List UInt8 := [
  255, 255, 255, 255, 255, 255, 255, 255, 255, 255, 255, 255, 255, 255, 255, 255,
  255, 255, 255, 255, 255, 255, 255, 255, 255, 255, 255, 255, 255, 255, 255, 255,
  255, 255, 255, 255, 255, 255, 255, 255, 255, 255, 255, 62, 255, 255, 255, 63,
  52, 53, 54, 55, 56, 57, 58, 59, 60, 61, 255, 255, 255, 255, 255, 255,
  255, 0, 1, 2, 3, 4, 5, 6, 7, 8, 9, 10, 11, 12, 13, 14,
  15, 16, 17, 18, 19, 20, 21, 22, 23, 24, 25, 255, 255, 255, 255, 255,
  255, 26, 27, 28, 29, 30, 31, 32, 33, 34, 35, 36, 37, 38, 39, 40,
  41, 42, 43, 44, 45, 46, 47, 48, 49, 50, 51, 255, 255, 255, 255, 255,
  255, 255, 255, 255, 255, 255, 255, 255, 255, 255, 255, 255, 255, 255, 255, 255,
  255, 255, 255, 255, 255, 255, 255, 255, 255, 255, 255, 255, 255, 255, 255, 255,
  255, 255, 255, 255, 255, 255, 255, 255, 255, 255, 255, 255, 255, 255, 255, 255,
  255, 255, 255, 255, 255, 255, 255, 255, 255, 255, 255, 255, 255, 255, 255, 255,
  255, 255, 255, 255, 255, 255, 255, 255, 255, 255, 255, 255, 255, 255, 255, 255,
  255, 255, 255, 255, 255, 255, 255, 255, 255, 255, 255, 255, 255, 255, 255, 255,
  255, 255, 255, 255, 255, 255, 255, 255, 255, 255, 255, 255, 255, 255, 255, 255,
  255, 255, 255, 255, 255, 255, 255, 255, 255, 255, 255, 255, 255, 255, 255, 255]

def encodeTable : Bytes :=
  ascii ("ABCDEFGHIJKLMNOPQRSTUVWXYZ" ++ "abcdefghijklmnopqrstuvwxyz" ++ "0123456789+/")

def decodedSize (n : Nat) : Nat := n / encodedGroupBytes * unencodedGroupBytes

def encodedSize (n : Nat) : Nat := encodedGroupBytes * ((n + 2) / unencodedGroupBytes)

/-- The entry of the table. -/
def decodeByte (c : UInt8) : UInt8 := decodeTable.getD c.toNat invalidValue

/-- Three bytes from four values. -/
def decodeGroup (base64Chars : Vector UInt8 4) : Bytes :=
  [base64Chars[0] <<< 2 ||| (base64Chars[1] &&& 0x30) >>> 4,
    base64Chars[1] <<< 4 ||| (base64Chars[2] &&& 0x3c) >>> 2,
    base64Chars[2] <<< 6 ||| base64Chars[3]]

/-- The state of the loop; `dest` is what has been written. -/
structure Loop where
  base64Chars : Vector UInt8 4
  i : Nat := 0
  dest : Bytes := []

/-- The same for the buffer of `PtBase64`. -/
def Loop.put (s : Loop) (v : UInt8) : Loop :=
  let base64Chars := s.base64Chars.setIfInBounds s.i v
  if s.i + 1 = encodedGroupBytes then
    { base64Chars, i := 0, dest := s.dest ++ decodeGroup base64Chars }
  else { s with base64Chars, i := s.i + 1 }

/-- The loop over the input, with what is left when it ends.  The length of that is
`len` after the loop and `len++`, also where `len--` was done at `0`. -/
def loop (s : Loop) : Bytes → Loop × Bytes
  | [] => (s, [])
  | c :: src =>
    if c = 61 then (s, c :: src)
    else if decodeByte c = invalidValue then (s, c :: src)
    else loop (s.put (decodeByte c)) src

/-- What `Decode` returns, and the bytes that it has written. -/
structure DecodeResult where
  decodedLen : Nat
  decodedDone : Bool
  output : Bytes

/-- `PtBase64::Decode`, with what the buffer holds before. -/
def decode (base64Chars : Vector UInt8 4) (input : Bytes) : DecodeResult :=
  if input.length < encodedGroupBytes || input.length % encodedGroupBytes ≠ 0 then
    { decodedLen := 0, decodedDone := false, output := [] }
  else
    let (s, rest) := loop { base64Chars } input
    let dest := if s.i ≠ 0 then s.dest ++ (decodeGroup s.base64Chars).take (s.i - 1) else s.dest
    { decodedLen := dest.length
      decodedDone := rest.length = 0 || (rest.length = 1 && rest[0]? = some 61) ||
        (rest.length = 2 && rest[0]? = some 61 && rest[1]? = some 61)
      output := dest }

/-- The character of a value below `64`. -/
def encodeChar (v : UInt8) : UInt8 := encodeTable.getD v.toNat 0

/-- The bytes that `Encode` writes; the last group is padded. -/
def encode : Bytes → Bytes
  | [] => []
  | [a] => [encodeChar (a >>> 2), encodeChar ((a &&& 0x03) <<< 4), 61, 61]
  | [a, b] =>
    [encodeChar (a >>> 2), encodeChar ((a &&& 0x03) <<< 4 ||| b >>> 4),
      encodeChar ((b &&& 0x0f) <<< 2), 61]
  | a :: b :: c :: src =>
    [encodeChar (a >>> 2), encodeChar ((a &&& 0x03) <<< 4 ||| b >>> 4),
      encodeChar ((b &&& 0x0f) <<< 2 ||| c >>> 6), encodeChar (c &&& 0x3f)] ++ encode src

end PtBase64

/-! ### Values and their bytes -/

namespace Base64

theorem sextet_ne_invalid (v : BitVec 6) : sextet v ≠ 255 := by
  revert v
  decide +kernel

theorem octets_append {full : List (BitVec 6)} (h : 4 ∣ full.length)
    (values : List (BitVec 6)) : octets (full ++ values) = octets full ++ octets values := by
  have hbits : 8 ∣ (full.flatMap bitsOf).length := by
    have hlength : (full.flatMap bitsOf).length = full.length * 6 := by
      simp [List.length_flatMap]
    omega
  rw [octets, List.flatMap_append, wholeWords_append hbits, List.map_append]
  rfl

theorem length_octets (values : List (BitVec 6)) :
    (octets values).length = values.length * 6 / 8 := by
  simp [octets, length_wholeWords, List.length_flatMap]

theorem octets_of_bits {values : List (BitVec 6)} (bytes : Bytes) (bits : List Bool)
    (hbits : values.flatMap bitsOf = bytes.flatMap (fun b => bitsOf b.toBitVec) ++ bits)
    (hlt : bits.length < 8) : octets values = bytes := by
  have hflat : (bytes.flatMap fun b => bitsOf b.toBitVec)
      = (bytes.map UInt8.toBitVec).flatMap bitsOf := by
    rw [List.flatMap_map]
  rw [octets, hbits, hflat, wholeWords_flatMap_append (by omega), wholeWords_of_length_lt hlt,
    List.append_nil, List.map_map]
  exact List.map_id _

end Base64

/-! ### Collecting values -/

open Base64Decoder (decodeSextetsGroup)

/-- The bytes of the groups `full` are written, and the values `pending` are in the
buffer. -/
structure Collects (full pending : List (BitVec 6)) (buffer : Vector UInt8 4) (idx : Nat)
    (output : Bytes) : Prop where
  groups : 4 ∣ full.length
  length : pending.length = idx
  lt : idx < 4
  held : pending.map sextet <+: buffer.toList
  written : output = octets full

namespace Collects

variable {full pending : List (BitVec 6)} {buffer : Vector UInt8 4} {idx : Nat} {output : Bytes}

theorem init (buffer : Vector UInt8 4) : Collects [] [] buffer 0 [] where
  groups := ⟨0, rfl⟩
  length := rfl
  lt := by omega
  held := List.nil_prefix
  written := (octets_of_bits [] [] rfl (by simp)).symm

theorem toList_vector (buffer : Vector UInt8 4) :
    buffer.toList = [buffer[0], buffer[1], buffer[2], buffer[3]] := by
  apply List.ext_getElem
  · simp
  · intro i hi hi'
    rcases i with - | - | - | - | i
    · rfl
    · rfl
    · rfl
    · rfl
    · simp only [List.length_cons, List.length_nil] at hi'
      omega

theorem held_push (h : Collects full pending buffer idx output) (v : BitVec 6) :
    (pending ++ [v]).map sextet <+: (buffer.setIfInBounds idx (sextet v)).toList := by
  obtain ⟨rest, hrest⟩ := h.held
  have hidx : (pending.map sextet).length = idx := by simpa using h.length
  rcases rest with - | ⟨x, rest⟩
  · have hlen := congrArg List.length hrest
    have hlt := h.lt
    simp only [List.append_nil, hidx, Vector.length_toList] at hlen
    omega
  · have hset : (buffer.setIfInBounds idx (sextet v)).toList
        = pending.map sextet ++ sextet v :: rest := by
      rw [Vector.toList_setIfInBounds, ← hrest, ← hidx, List.set_append_right _ _ (by omega),
        Nat.sub_self, List.set_cons_zero]
    rw [hset, List.map_append, List.append_cons]
    exact List.prefix_append _ _

theorem group_eq {a b c d : BitVec 6} (h : [a, b, c, d].map sextet <+: buffer.toList) :
    decodeSextetsGroup buffer = octets [a, b, c, d] := by
  rw [toList_vector] at h
  simp only [List.map_cons, List.map_nil, List.cons_prefix_cons] at h
  obtain ⟨ha, hb, hc, hd, -⟩ := h
  refine (octets_of_bits _ [] ?_ (by simp)).symm
  simp [decodeSextetsGroup, ← ha, ← hb, ← hc, ← hd, bitsOf, sextet, BitVec.getMsb, List.ofFn_succ]

section

variable (h : Collects full pending buffer idx output)
include h

theorem take_group_eq : (decodeSextetsGroup buffer).take (idx - 1) = octets pending := by
  have hheld := h.held
  have hlength := h.length
  have hlt := h.lt
  rw [toList_vector] at hheld
  rcases pending with - | ⟨a, - | ⟨b, - | ⟨c, - | ⟨d, pending⟩⟩⟩⟩
  · subst hlength
    exact (octets_of_bits [] [] rfl (by simp)).symm
  · subst hlength
    exact (octets_of_bits [] (bitsOf a) (by simp) (by simp)).symm
  · subst hlength
    simp only [List.map_cons, List.map_nil, List.cons_prefix_cons] at hheld
    obtain ⟨ha, hb, -⟩ := hheld
    refine (octets_of_bits _ ((bitsOf b).drop 2) ?_ (by simp)).symm
    simp [decodeSextetsGroup, ← ha, ← hb, bitsOf, sextet, BitVec.getMsb, List.ofFn_succ]
  · subst hlength
    simp only [List.map_cons, List.map_nil, List.cons_prefix_cons] at hheld
    obtain ⟨ha, hb, hc, -⟩ := hheld
    refine (octets_of_bits _ ((bitsOf c).drop 4) ?_ (by simp)).symm
    simp [decodeSextetsGroup, ← ha, ← hb, ← hc, bitsOf, sextet, BitVec.getMsb, List.ofFn_succ]
  · simp only [List.length_cons] at hlength
    omega

theorem push (v : BitVec 6) (hidx : idx + 1 ≠ 4) :
    Collects full (pending ++ [v]) (buffer.setIfInBounds idx (sextet v)) (idx + 1) output where
  groups := h.groups
  length := by rw [List.length_append, h.length, List.length_singleton]
  lt := by
    have hlt := h.lt
    omega
  held := h.held_push v
  written := h.written

theorem flush (v : BitVec 6) (hidx : idx + 1 = 4) :
    Collects (full ++ (pending ++ [v])) [] (buffer.setIfInBounds idx (sextet v)) 0
      (output ++ decodeSextetsGroup (buffer.setIfInBounds idx (sextet v))) := by
  have hlength : (pending ++ [v]).length = 4 := by
    rw [List.length_append, h.length, List.length_singleton, hidx]
  have hgroup : decodeSextetsGroup (buffer.setIfInBounds idx (sextet v))
      = octets (pending ++ [v]) := by
    have hheld := h.held_push v
    obtain ⟨a, b, c, d, hfour⟩ : ∃ a b c d, pending ++ [v] = [a, b, c, d] :=
      List.length_eq_four.mp hlength
    rw [hfour] at hheld ⊢
    exact group_eq hheld
  refine ⟨?_, rfl, by omega, List.nil_prefix, ?_⟩
  · rw [List.length_append, hlength]
    exact Nat.dvd_add h.groups (Nat.dvd_refl 4)
  · rw [octets_append h.groups, ← h.written, hgroup]

theorem output_eq :
    (if idx ≠ 0 then output ++ (decodeSextetsGroup buffer).take (idx - 1) else output)
      = octets (full ++ pending) := by
  rw [octets_append h.groups, ← h.written, ← h.take_group_eq]
  split
  · rfl
  · rename_i hzero
    rw [not_not.mp hzero, List.take_zero, List.append_nil]

theorem length_output_le : output.length ≤ (octets (full ++ pending)).length := by
  rw [octets_append h.groups, ← h.written, List.length_append]
  omega

end

end Collects

/-! ### The loops -/

/-- The characters before the first one that is not of the alphabet. -/
def chars (input : Bytes) : Bytes :=
  input.takeWhile fun c => (value c).isSome

/-- What comes behind the characters of the alphabet. -/
def leftover (input : Bytes) : Bytes :=
  input.dropWhile fun c => (value c).isSome

/-- The values of the characters before it. -/
def valuesOf (input : Bytes) : List (BitVec 6) :=
  (chars input).filterMap value

theorem chars_append_leftover (input : Bytes) : chars input ++ leftover input = input :=
  List.takeWhile_append_dropWhile

theorem chars_cons_of_some {c : UInt8} {v : BitVec 6} (h : value c = some v) (input : Bytes) :
    valuesOf (c :: input) = v :: valuesOf input ∧ leftover (c :: input) = leftover input := by
  simp [valuesOf, chars, leftover, h]

theorem chars_cons_of_none {c : UInt8} (h : value c = none) (input : Bytes) :
    valuesOf (c :: input) = [] ∧ leftover (c :: input) = c :: input := by
  simp [valuesOf, chars, leftover, h]

theorem length_valuesOf (input : Bytes) : (valuesOf input).length = (chars input).length := by
  induction input with
  | nil => rfl
  | cons c input ih =>
    rcases hv : value c with - | v
    · simp [valuesOf, chars, hv]
    · rw [(chars_cons_of_some hv input).1, List.length_cons, ih]
      simp [chars, hv]

variable {input : Bytes} {pads : Nat}

theorem eq_chars_append (h : leftover input = List.replicate pads 61) :
    input = chars input ++ List.replicate pads alphabet.pad := by
  have hsplit := chars_append_leftover input
  rw [h] at hsplit
  exact hsplit.symm

theorem isPadded_iff (hlength : 4 ∣ input.length) :
    alphabet.IsPadded 4 2 input ↔ ∃ pads ≤ 2, leftover input = List.replicate pads 61 := by
  constructor
  · rintro ⟨-, cs, pads, rfl, hpads, hcs⟩
    refine ⟨pads, hpads, ?_⟩
    have hnil : cs.dropWhile (fun c => (value c).isSome) = [] := by
      rw [List.dropWhile_eq_nil_iff]
      exact hcs
    have hstop : (List.replicate pads (61 : UInt8)).dropWhile (fun c => (value c).isSome)
        = List.replicate pads 61 := by
      cases pads with
      | zero | succ pads => rfl
    show (cs ++ List.replicate pads (61 : UInt8)).dropWhile _ = _
    rw [List.dropWhile_append, hnil, List.isEmpty_nil, if_pos rfl, hstop]
  · rintro ⟨pads, hpads, hleft⟩
    refine ⟨hlength, chars input, pads, eq_chars_append hleft, hpads, fun c hc => ?_⟩
    exact List.mem_takeWhile_imp (p := fun c => (value c).isSome) hc

/-- What both decoders ask for first: whole groups, and one at least. -/
def Grouped (input : Bytes) : Prop :=
  input ≠ [] ∧ 4 ∣ input.length

/-- A decoder that looks only for padding after whole groups accepts the padded texts. -/
theorem accepts_iff {accepted padding : Bool} (hnot : ¬ Grouped input → accepted = false)
    (heq : Grouped input → accepted = padding)
    (hpadding : padding = true ↔ ∃ pads ≤ 2, leftover input = List.replicate pads 61) :
    accepted = true ↔ input ≠ [] ∧ alphabet.IsPadded 4 2 input := by
  by_cases h : Grouped input
  · rw [heq h, hpadding, ← isPadded_iff h.2]
    exact (and_iff_right h.1).symm
  · rw [hnot h]
    exact ⟨nofun, fun hpadded => absurd ⟨hpadded.1, hpadded.2.1⟩ h⟩

theorem decode_eq_octets (h : leftover input = List.replicate pads 61) :
    alphabet.decode input = octets (valuesOf input) := by
  have hvalues : input.filterMap alphabet.value = valuesOf input := by
    conv_lhs => rw [eq_chars_append h]
    exact alphabet.filterMap_value_pads _ _
  rw [Alphabet.decode, hvalues]
  rfl

namespace PtBase64

theorem decodeByte_eq (c : UInt8) : decodeByte c = ((value c).map sextet).getD invalidValue := by
  apply forall_uInt8 (P := fun c => decodeByte c = ((value c).map sextet).getD invalidValue)
  decide +kernel

/-- The state of the loop after these values. -/
def Loop.Collected (s : Loop) (values : List (BitVec 6)) : Prop :=
  ∃ full pending, values = full ++ pending ∧ Collects full pending s.base64Chars s.i s.dest

variable {values : List (BitVec 6)} {s : Loop}

theorem Loop.Collected.put (h : s.Collected values) (v : BitVec 6) :
    (s.put (sextet v)).Collected (values ++ [v]) := by
  obtain ⟨full, pending, rfl, h⟩ := h
  unfold Loop.put
  by_cases hidx : s.i + 1 = 4
  · rw [encodedGroupBytes, if_pos hidx]
    exact ⟨_, [], by simp, h.flush v hidx⟩
  · rw [encodedGroupBytes, if_neg hidx]
    exact ⟨full, pending ++ [v], by simp, h.push v hidx⟩

/-- **The dynamic loop** reads the characters of the alphabet. -/
theorem loop_eq (h : s.Collected values) (input : Bytes) :
    (loop s input).1.Collected (values ++ valuesOf input) ∧ (loop s input).2 = leftover input := by
  induction input generalizing s values with
  | nil => exact ⟨by simpa [valuesOf, chars, loop] using h, rfl⟩
  | cons c input ih =>
    rcases hv : value c with - | v
    · obtain ⟨hvalues, hleft⟩ := chars_cons_of_none hv input
      have hinvalid : decodeByte c = invalidValue := by
        rw [decodeByte_eq, hv]
        rfl
      rw [hvalues, hleft, List.append_nil, loop, if_pos hinvalid, ite_self]
      exact ⟨h, rfl⟩
    · obtain ⟨hvalues, hleft⟩ := chars_cons_of_some hv input
      have hchar : decodeByte c = sextet v := by
        rw [decodeByte_eq, hv]
        rfl
      have hpad : c ≠ 61 := by
        rintro rfl
        cases hv
      have hvalid : sextet v ≠ invalidValue := sextet_ne_invalid v
      rw [hvalues, hleft, loop, if_neg hpad, hchar, if_neg hvalid, List.append_cons]
      exact ih (h.put v)

end PtBase64

namespace Base64Decoder

/-- **The static loop** runs as the dynamic one, and gives up if it is stopped by another
character than `=`. -/
theorem loop_eq (s : PtBase64.Loop) (input : Bytes) :
    loop ⟨s.base64Chars, s.i, s.dest⟩ input =
      let (s', rest) := PtBase64.loop s input
      if (rest.head?.all fun c => c = paddingChar) = true
      then .ok (⟨s'.base64Chars, s'.i, s'.dest⟩, rest) else .error s'.dest := by
  have hchar (c : UInt8) : decodeChar c = PtBase64.decodeByte c := by
    apply forall_uInt8 (P := fun c => decodeChar c = PtBase64.decodeByte c)
    decide +kernel
  fun_induction PtBase64.loop s input with
  | case1 s => rfl
  | case2 s src => rfl
  | case3 s c src hpad hinvalid =>
    change ¬ c = paddingChar at hpad
    change _ = invalidValue at hinvalid
    rw [loop, if_neg hpad, hchar, if_pos hinvalid]
    exact (if_neg (by simpa using hpad)).symm
  | case4 s c src hpad hvalid ih =>
    change ¬ c = paddingChar at hpad
    change ¬ _ = invalidValue at hvalid
    rw [loop, if_neg hpad, hchar, if_neg hvalid, ← ih]
    simp only [Loop.put, PtBase64.Loop.put, encodedGroupBytes, PtBase64.encodedGroupBytes]
    by_cases hidx : s.i + 1 = 4
    · simp only [hidx, if_true]
      rfl
    · simp only [hidx, if_false]

theorem onlyPadding_iff (rest : Bytes) :
    onlyPadding rest = true ↔ ∃ pads ≤ 2, rest = List.replicate pads 61 := by
  constructor
  · intro h
    rcases rest with - | ⟨a, - | ⟨b, - | ⟨c, rest⟩⟩⟩
    · exact ⟨0, by omega, rfl⟩
    · obtain rfl : a = 61 := by simpa [onlyPadding, maxPaddings, paddingChar] using h
      exact ⟨1, by omega, rfl⟩
    · obtain ⟨rfl, rfl⟩ : a = 61 ∧ b = 61 := by
        simpa [onlyPadding, maxPaddings, paddingChar] using h
      exact ⟨2, by omega, rfl⟩
    · simp [onlyPadding, maxPaddings] at h
  · rintro ⟨pads, hpads, rfl⟩
    rcases pads with - | - | - | pads
    · rfl
    · rfl
    · rfl
    · omega

theorem le_trailingPaddings {pads : Nat} (hpads : pads ≤ 2) (cs : Bytes) :
    pads ≤ trailingPaddings (cs ++ List.replicate pads paddingChar) := by
  rcases pads with - | - | - | pads
  · exact Nat.zero_le _
  · rw [trailingPaddings, List.reverse_append]
    simp [maxPaddings]
  · rw [trailingPaddings, List.reverse_append]
    simp [maxPaddings, List.replicate_succ]
  · omega

variable {input : Bytes}

theorem guard_iff :
    (input.isEmpty || decide (input.length % encodedGroupBytes ≠ 0)) = true ↔ ¬ Grouped input := by
  rw [Grouped, Bool.or_eq_true, List.isEmpty_iff, decide_eq_true_iff, encodedGroupBytes, not_and_or,
    not_not, Nat.dvd_iff_mod_eq_zero]

theorem not_guard (h : Grouped input) :
    ¬ (input.isEmpty || decide (input.length % encodedGroupBytes ≠ 0)) = true :=
  guard_iff.not.mpr (not_not.mpr h)

/-- What `Decode` does with groups of characters. -/
theorem decode_eq (h : Grouped input) :
    (decode input).1 = onlyPadding (leftover input) ∧
      (onlyPadding (leftover input) = true → (decode input).2 = octets (valuesOf input)) ∧
      (decode input).2.length ≤ (octets (valuesOf input)).length := by
  have hstart : PtBase64.Loop.Collected ⟨Vector.replicate 4 0, 0, []⟩ [] :=
    ⟨[], [], rfl, Collects.init _⟩
  have hloop := loop_eq ⟨Vector.replicate 4 0, 0, []⟩ input
  obtain ⟨⟨full, pending, hvalues, hs⟩, hrest⟩ := PtBase64.loop_eq hstart input
  generalize PtBase64.loop _ input = r at hloop hs hrest
  obtain ⟨s, rest⟩ := r
  subst hrest
  dsimp only at hloop
  rw [List.nil_append] at hvalues
  rw [decode, if_neg (not_guard h), hloop, hvalues]
  by_cases hpad : ((leftover input).head?.all fun c => c = paddingChar) = true
  · rw [if_pos hpad]
    exact ⟨rfl, fun _ => hs.output_eq, le_of_eq (congrArg List.length hs.output_eq)⟩
  · -- the first character that is left is no padding
    have hfalse : onlyPadding (leftover input) = false := by
      rw [Bool.eq_false_iff]
      intro h
      obtain ⟨pads, -, hleft⟩ := (onlyPadding_iff _).mp h
      apply hpad
      rw [hleft]
      cases pads with
      | zero | succ pads => rfl
    rw [if_neg hpad, hfalse]
    exact ⟨rfl, nofun, hs.length_output_le⟩

theorem decode_of_guard (h : ¬ Grouped input) : decode input = (false, []) := by
  rw [decode, if_pos (guard_iff.mpr h)]

theorem length_chars_add_le (input : Bytes) :
    (chars input).length + trailingPaddings input ≤ input.length := by
  -- the trailing paddings are a suffix of the text, and in the part that is left
  obtain ⟨t, ht⟩ : ∃ t, input = t ++ List.replicate (trailingPaddings input) paddingChar := by
    have hpre : (input.reverse.take maxPaddings).takeWhile (· = paddingChar) <+: input.reverse :=
      (List.takeWhile_prefix _).trans (List.take_prefix _ _)
    obtain ⟨r, hr⟩ := hpre
    have hall : (input.reverse.take maxPaddings).takeWhile (· = paddingChar)
        = List.replicate (trailingPaddings input) paddingChar := by
      apply List.eq_replicate_of_mem
      intro c hc
      simpa using List.mem_takeWhile_imp hc
    refine ⟨r.reverse, ?_⟩
    rw [← List.reverse_inj, List.reverse_append, List.reverse_replicate, List.reverse_reverse,
      ← hall, hr]
  generalize trailingPaddings input = n at ht
  subst ht
  rw [List.length_append, List.length_replicate, Nat.add_le_add_iff_right]
  cases n with
  | zero =>
    rw [List.replicate_zero, List.append_nil]
    exact (List.takeWhile_prefix _).length_le
  | succ n =>
    have hstop : chars (t ++ List.replicate (n + 1) paddingChar) = chars t := by
      rw [chars, List.takeWhile_append]
      split
      · rename_i hlen
        show t ++ [] = chars t
        rw [List.append_nil, chars, List.takeWhile_eq_self_iff.mpr]
        have hself := List.takeWhile_eq_self_iff.mp ((List.takeWhile_prefix _).eq_of_length hlen)
        exact hself
      · rfl
    rw [hstop]
    exact (List.takeWhile_prefix _).length_le

theorem length_octets_le {size : Nat} (h : decodedSize input = some size) :
    (octets (valuesOf input)).length ≤ size := by
  have hle := length_chars_add_le input
  rw [length_octets, length_valuesOf]
  rw [decodedSize] at h
  split at h
  · cases h
  · rename_i hguard
    have hsize := Option.some.inj h
    have htrailing : trailingPaddings input ≤ 2 :=
      (List.takeWhile_prefix _).length_le.trans (List.length_take_le _ _)
    have hlength := (not_not.mp (guard_iff.not.mp hguard)).2
    simp only [encodedGroupBytes, decodedGroupBytes] at hsize
    omega

theorem decodedSize_eq (h : Grouped input) {pads : Nat} (hpads : pads ≤ 2)
    (hleft : leftover input = List.replicate pads 61) :
    decodedSize input = some (octets (valuesOf input)).length := by
  have hsplit := eq_chars_append hleft
  have hlength := h.2
  have hchars : (chars input).length + pads = input.length := by
    have hlen := congrArg List.length hsplit
    rw [List.length_append, List.length_replicate] at hlen
    exact hlen.symm
  have htrailing : trailingPaddings input = pads := by
    have hle := length_chars_add_le input
    have hge : pads ≤ trailingPaddings input := by
      conv_rhs => rw [hsplit]
      exact le_trailingPaddings hpads _
    omega
  rw [decodedSize, if_neg (not_guard h), htrailing, length_octets, length_valuesOf]
  simp only [encodedGroupBytes, decodedGroupBytes, Option.some.injEq]
  omega

theorem decode_accepts_iff (input : Bytes) :
    (decode input).1 = true ↔ input ≠ [] ∧ alphabet.IsPadded 4 2 input :=
  accepts_iff (fun h => congrArg Prod.fst (decode_of_guard h)) (fun h => (decode_eq h).1)
    (onlyPadding_iff _)

theorem decode_of_accepts (h : (decode input).1 = true) :
    (decode input).2 = alphabet.decode input ∧
      decodedSize input = some (alphabet.decode input).length := by
  obtain ⟨hne, hpadded⟩ := (decode_accepts_iff input).mp h
  have hgrouped : Grouped input := ⟨hne, hpadded.1⟩
  obtain ⟨pads, hpads, hleft⟩ := (isPadded_iff hpadded.1).mp hpadded
  have honly := (onlyPadding_iff _).mpr ⟨pads, hpads, hleft⟩
  rw [(decode_eq hgrouped).2.1 honly, decode_eq_octets hleft]
  exact ⟨rfl, decodedSize_eq hgrouped hpads hleft⟩

theorem length_decode_le (input : Bytes) :
    (decode input).2.length ≤ (decodedSize input).getD 0 := by
  by_cases h : Grouped input
  · have hsize : decodedSize input = some _ := if_neg (not_guard h)
    rw [hsize]
    exact (decode_eq h).2.2.trans (length_octets_le hsize)
  · rw [decode_of_guard h]
    exact Nat.zero_le _

theorem decodeString_eq (encoded decoded : Bytes) :
    (decodeString encoded decoded).1 = (decode encoded).1 ∧
      ((decode encoded).1 = true →
        (decodeString encoded decoded).2 = alphabet.decode encoded) := by
  by_cases h : (decode encoded).1 = true
  · obtain ⟨houtput, hsize⟩ := decode_of_accepts h
    rw [decodeString, hsize]
    refine ⟨rfl, fun _ => ?_⟩
    show (decode encoded).2 ++ _ = _
    rw [houtput, List.drop_of_length_le, List.append_nil]
    simp only [resize, List.length_append, List.length_take, List.length_replicate]
    omega
  · refine ⟨?_, fun h' => absurd h' h⟩
    rw [decodeString]
    cases decodedSize encoded with
    | none => exact (Bool.eq_false_iff.mpr h).symm
    | some size => rfl

/-- **The static decoder** accepts the texts that are padded, apart from the empty one,
decodes them, and never writes more than the size it has computed. -/
theorem decodes_padded_texts (input decoded : Bytes) :
    ((decode input).1 = true ↔ input ≠ [] ∧ alphabet.IsPadded 4 2 input) ∧
      ((decode input).1 = true →
        (decode input).2 = alphabet.decode input ∧
          decodedSize input = some (alphabet.decode input).length) ∧
      (decode input).2.length ≤ (decodedSize input).getD 0 ∧
      (decodeString input decoded).1 = (decode input).1 ∧
      ((decode input).1 = true → (decodeString input decoded).2 = alphabet.decode input) :=
  ⟨decode_accepts_iff input, decode_of_accepts, length_decode_le input,
    decodeString_eq input decoded⟩

/-- The empty text is padded, and `input.empty()` turns it down. -/
theorem empty_text_rejected : alphabet.IsPadded 4 2 [] ∧ decode [] = (false, []) :=
  ⟨⟨⟨0, rfl⟩, [], 0, rfl, by omega, nofun⟩, rfl⟩

end Base64Decoder

namespace PtBase64

variable {input : Bytes}

theorem guard_iff :
    (decide (input.length < encodedGroupBytes) || decide (input.length % encodedGroupBytes ≠ 0))
      = true ↔ ¬ Grouped input := by
  rw [Grouped, ← List.length_pos_iff, Bool.or_eq_true, decide_eq_true_iff, decide_eq_true_iff,
    encodedGroupBytes]
  omega

variable (base64Chars : Vector UInt8 4)

theorem decode_of_guard (h : ¬ Grouped input) :
    decode base64Chars input = { decodedLen := 0, decodedDone := false, output := [] } := by
  rw [decode, if_pos (guard_iff.mpr h)]

/-- What `Decode` does with groups of characters. -/
theorem decode_eq (h : Grouped input) :
    decode base64Chars input =
      { decodedLen := (octets (valuesOf input)).length
        decodedDone := Base64Decoder.onlyPadding (leftover input)
        output := octets (valuesOf input) } := by
  have hstart : Loop.Collected { base64Chars } [] := ⟨[], [], rfl, Collects.init _⟩
  obtain ⟨⟨full, pending, hvalues, hs⟩, hrest⟩ := loop_eq hstart input
  rw [List.nil_append] at hvalues
  have houtput := hs.output_eq
  rw [← hvalues] at houtput
  rw [decode, if_neg (guard_iff.not.mpr (not_not.mpr h)), ← hrest, ← houtput]
  rfl

theorem length_octets_le (hlength : 4 ∣ input.length) :
    (octets (valuesOf input)).length ≤ decodedSize input.length := by
  have hle : (chars input).length ≤ input.length := (List.takeWhile_prefix _).length_le
  rw [length_octets, length_valuesOf, decodedSize, encodedGroupBytes, unencodedGroupBytes]
  omega

/-! ### The encoder -/

theorem encodeChar_sextet (v : BitVec 6) : encodeChar (sextet v) = alphabet.char v := by
  revert v
  decide +kernel

theorem encodeChar_eq {x : UInt8} {v : BitVec 6} (h : bitsOf x.toBitVec = bitsOf (v.setWidth 8)) :
    encodeChar x = alphabet.char v := by
  have hx : x = sextet v := UInt8.toBitVec_inj.mp (bitsOf_injective h)
  rw [hx, encodeChar_sextet]

def low (x : UInt8) : BitVec 6 := x.toBitVec.setWidth 6

theorem filledWords_group (a b c : UInt8) (bits : List Bool) :
    filledWords 6 (bitsOf a.toBitVec ++ (bitsOf b.toBitVec ++ (bitsOf c.toBitVec ++ bits))) =
      low (a >>> 2) :: low ((a &&& 0x03) <<< 4 ||| b >>> 4) ::
        low ((b &&& 0x0f) <<< 2 ||| c >>> 6) :: low (c &&& 0x3f) :: filledWords 6 bits := by
  have hbits : bitsOf a.toBitVec ++ (bitsOf b.toBitVec ++ (bitsOf c.toBitVec ++ bits)) =
      bitsOf (low (a >>> 2)) ++ (bitsOf (low ((a &&& 0x03) <<< 4 ||| b >>> 4)) ++
        (bitsOf (low ((b &&& 0x0f) <<< 2 ||| c >>> 6)) ++
          (bitsOf (low (c &&& 0x3f)) ++ bits))) := by
    simp [bitsOf, low, BitVec.getMsb, List.ofFn_succ]
  simp only [hbits, filledWords_bitsOf_append (w := 6) (by omega)]

theorem filledWords_pair (a b : UInt8) :
    filledWords 6 (bitsOf a.toBitVec ++ bitsOf b.toBitVec) =
      [low (a >>> 2), low ((a &&& 0x03) <<< 4 ||| b >>> 4), low ((b &&& 0x0f) <<< 2)] := by
  have hbits : bitsOf a.toBitVec ++ bitsOf b.toBitVec =
      bitsOf (low (a >>> 2)) ++ (bitsOf (low ((a &&& 0x03) <<< 4 ||| b >>> 4)) ++
        (bitsOf b.toBitVec).drop 4) := by
    simp [bitsOf, low, BitVec.getMsb, List.ofFn_succ]
  have hlast : filledWords 6 ((bitsOf b.toBitVec).drop 4) = [low ((b &&& 0x0f) <<< 2)] := by
    apply filledWords_eq_singleton
    · simp [List.drop_eq_nil_iff]
    · simp
    · simp [bitsOf, low, BitVec.getMsb, List.ofFn_succ, List.replicate_succ]
  simp only [hbits, filledWords_bitsOf_append (w := 6) (by omega), hlast]

theorem filledWords_single (a : UInt8) :
    filledWords 6 (bitsOf a.toBitVec) = [low (a >>> 2), low ((a &&& 0x03) <<< 4)] := by
  have hbits : bitsOf a.toBitVec = bitsOf (low (a >>> 2)) ++ (bitsOf a.toBitVec).drop 6 := by
    simp [bitsOf, low, BitVec.getMsb, List.ofFn_succ]
  have hlast : filledWords 6 ((bitsOf a.toBitVec).drop 6) = [low ((a &&& 0x03) <<< 4)] := by
    apply filledWords_eq_singleton
    · simp [List.drop_eq_nil_iff]
    · simp
    · simp [bitsOf, low, BitVec.getMsb, List.ofFn_succ, List.replicate_succ]
  rw [hbits, filledWords_bitsOf_append (by omega), hlast]

theorem encodeChars (a b c : UInt8) :
    alphabet.char (low (a >>> 2)) = encodeChar (a >>> 2) ∧
      alphabet.char (low ((a &&& 0x03) <<< 4)) = encodeChar ((a &&& 0x03) <<< 4) ∧
      alphabet.char (low ((a &&& 0x03) <<< 4 ||| b >>> 4))
        = encodeChar ((a &&& 0x03) <<< 4 ||| b >>> 4) ∧
      alphabet.char (low ((b &&& 0x0f) <<< 2)) = encodeChar ((b &&& 0x0f) <<< 2) ∧
      alphabet.char (low ((b &&& 0x0f) <<< 2 ||| c >>> 6))
        = encodeChar ((b &&& 0x0f) <<< 2 ||| c >>> 6) ∧
      alphabet.char (low (c &&& 0x3f)) = encodeChar (c &&& 0x3f) := by
  refine ⟨?_, ?_, ?_, ?_, ?_, ?_⟩ <;> apply Eq.symm <;> apply encodeChar_eq <;>
    simp [bitsOf, low, BitVec.getMsb, List.ofFn_succ]

/-- **The encoder** writes the bytes in the alphabet. -/
theorem encode_eq (input : Bytes) : encode input = alphabet.encode 4 input := by
  have hpad : alphabet.pad = 61 := rfl
  fun_induction encode input with
  | case1 => simp [Alphabet.encode, filledWords_nil]
  | case2 a =>
    obtain ⟨h₁, h₂, -⟩ := encodeChars a 0 0
    rw [Alphabet.encode, List.flatMap_singleton, filledWords_single]
    simp [h₁, h₂, hpad, List.replicate_succ]
  | case3 a b =>
    obtain ⟨h₁, -, h₂, h₃, -⟩ := encodeChars a b 0
    rw [Alphabet.encode, List.flatMap_cons, List.flatMap_singleton, filledWords_pair]
    simp [h₁, h₂, h₃, hpad]
  | case4 a b c src ih =>
    obtain ⟨h₁, -, h₂, -, h₃, h₄⟩ := encodeChars a b c
    rw [ih, Alphabet.encode, Alphabet.encode, List.flatMap_cons, List.flatMap_cons,
      List.flatMap_cons, filledWords_group]
    simp [h₁, h₂, h₃, h₄, Nat.add_mod_right, Nat.add_assoc]

theorem encode_ne_nil (h : input ≠ []) : encode input ≠ [] := by
  rcases input with - | ⟨a, - | ⟨b, - | ⟨c, src⟩⟩⟩
  · exact absurd rfl h
  all_goals exact List.cons_ne_nil _ _

theorem length_encode (input : Bytes) : (encode input).length = encodedSize input.length := by
  fun_induction encode input with
  | case1 => rfl
  | case2 a | case3 a b => simp [encodedSize, encodedGroupBytes, unencodedGroupBytes]
  | case4 a b c src ih =>
    rw [List.length_append, ih]
    simp only [encodedSize, encodedGroupBytes, unencodedGroupBytes, List.length_cons,
      List.length_nil]
    omega

theorem isPadded_encode (input : Bytes) : alphabet.IsPadded 4 2 (encode input) := by
  rw [encode_eq]
  apply Alphabet.isPadded_encode
  all_goals
    omega

theorem decode_accepts_iff (input : Bytes) :
    (decode base64Chars input).decodedDone = true ↔ input ≠ [] ∧ alphabet.IsPadded 4 2 input :=
  accepts_iff (fun h => congrArg DecodeResult.decodedDone (decode_of_guard base64Chars h))
    (fun h => congrArg DecodeResult.decodedDone (decode_eq base64Chars h))
    (Base64Decoder.onlyPadding_iff _)

theorem decode_of_isPadded (hne : input ≠ []) (hpadded : alphabet.IsPadded 4 2 input) :
    decode base64Chars input =
      { decodedLen := (alphabet.decode input).length
        decodedDone := true
        output := alphabet.decode input } := by
  obtain ⟨pads, hpads, hleft⟩ := (isPadded_iff hpadded.1).mp hpadded
  have honly := (Base64Decoder.onlyPadding_iff _).mpr ⟨pads, hpads, hleft⟩
  rw [decode_eq base64Chars ⟨hne, hpadded.1⟩, honly, decode_eq_octets hleft]

theorem length_decode_le (input : Bytes) :
    (decode base64Chars input).output.length ≤ decodedSize input.length := by
  by_cases h : Grouped input
  · rw [decode_eq base64Chars h]
    exact length_octets_le h.2
  · rw [decode_of_guard base64Chars h]
    exact Nat.zero_le _

/-- **The dynamic codec**: what has been encoded is decoded to the same bytes, the sizes
are those that are computed before, and the texts that are padded are accepted, apart
from the empty one. -/
theorem codec_round_trip (base64Chars : Vector UInt8 4) (bytes text : Bytes) :
    (bytes ≠ [] →
        decode base64Chars (encode bytes) =
          { decodedLen := bytes.length, decodedDone := true, output := bytes }) ∧
      (encode bytes).length = encodedSize bytes.length ∧
      (∀ c ∈ encode bytes, (∃ v, c = alphabet.char v) ∨ c = alphabet.pad) ∧
      (4 ∣ text.length →
        (decode base64Chars text).output.length ≤ decodedSize text.length ∧
          ((decode base64Chars text).decodedDone = true ↔
            text ≠ [] ∧ alphabet.IsPadded 4 2 text)) := by
  refine ⟨fun hne => ?_, length_encode bytes, fun c hc => ?_,
    fun _ => ⟨length_decode_le base64Chars text, decode_accepts_iff base64Chars text⟩⟩
  · rw [decode_of_isPadded base64Chars (encode_ne_nil hne) (isPadded_encode bytes), encode_eq,
      alphabet.decode_encode (by omega) (by omega)]
  · rw [encode_eq, Alphabet.encode] at hc
    rcases List.mem_append.mp hc with hc | hc
    · obtain ⟨v, -, rfl⟩ := List.mem_map.mp hc
      exact .inl ⟨v, rfl⟩
    · exact .inr (List.eq_of_mem_replicate hc)

/-- The empty text is padded, and `len < ENCODED_GROUP_BYTES` turns it down. -/
theorem empty_text_not_done :
    alphabet.IsPadded 4 2 [] ∧ (decode (Vector.replicate 4 0) []).decodedDone = false :=
  ⟨isPadded_encode [], rfl⟩

/-- **The two decoders agree** on what they accept and on what they make of it. -/
theorem decoders_agree (base64Chars : Vector UInt8 4) (input : Bytes) :
    ((decode base64Chars input).decodedDone = (Base64Decoder.decode input).1) ∧
      ((Base64Decoder.decode input).1 = true →
        (decode base64Chars input).output = (Base64Decoder.decode input).2 ∧
          (decode base64Chars input).decodedLen = (Base64Decoder.decode input).2.length) := by
  refine ⟨?_, fun h => ?_⟩
  · rw [Bool.eq_iff_iff, decode_accepts_iff, Base64Decoder.decode_accepts_iff]
  · obtain ⟨hne, hpadded⟩ := (Base64Decoder.decode_accepts_iff input).mp h
    rw [decode_of_isPadded base64Chars hne hpadded, (Base64Decoder.decode_of_accepts h).1]
    exact ⟨rfl, rfl⟩

/-- What `PtBase64` encodes, `Base64Decoder` decodes. -/
theorem decodeString_encode {bytes : Bytes} (hne : bytes ≠ []) (decoded : Bytes) :
    Base64Decoder.decodeString (encode bytes) decoded = (true, bytes) := by
  have haccepts := (Base64Decoder.decode_accepts_iff _).mpr
    ⟨encode_ne_nil hne, isPadded_encode bytes⟩
  obtain ⟨hdone, hdecoded⟩ := Base64Decoder.decodeString_eq (encode bytes) decoded
  refine Prod.ext (hdone.trans haccepts) ((hdecoded haccepts).trans ?_)
  rw [encode_eq, alphabet.decode_encode (by omega) (by omega)]

theorem decodeString_encode_nul :
    Base64Decoder.decodeString (encode [0x41, 0x00, 0xff, 0x7a, 0x3d]) [0x01, 0x02]
      = (true, [0x41, 0x00, 0xff, 0x7a, 0x3d]) :=
  decodeString_encode (by decide) [0x01, 0x02]

end PtBase64

end ArkToolchain
