/-
Bit strings and codes that write them with an alphabet.

A word is written as its bits, most significant bit first, and a bit string is cut into words of
another width.  An `Alphabet` names the words of a width by characters and has one more
character for padding; reading what has been written gives the bytes back (`decode_encode`).
-/
import ArkToolchain.Bytes
import Mathlib.Data.BitVec
import Mathlib.Data.List.OfFn

namespace ArkToolchain

/-! ### Bits of words -/

/-- The bits of a word, most significant bit first. -/
def bitsOf {w : Nat} (x : BitVec w) : List Bool :=
  List.ofFn x.getMsb

/-- The word that a bit string begins with; bits that are missing are `0`. -/
def wordOf (w : Nat) (bits : List Bool) : BitVec w :=
  (BitVec.ofBoolListBE (List.ofFn fun i : Fin w => bits.getD i false)).cast (by simp)

variable {w : Nat} (x : BitVec w)

@[simp] theorem length_bitsOf : (bitsOf x).length = w := by
  simp [bitsOf]

variable (bits : List Bool) (i : Nat)

theorem getMsbD_wordOf : (wordOf w bits).getMsbD i = (decide (i < w) && bits.getD i false) := by
  by_cases hi : i < w
  all_goals
    simp [wordOf, hi, List.getD_eq_getElem?_getD]

theorem getElem_bitsOf (hi : i < (bitsOf x).length) : (bitsOf x)[i] = x.getMsbD i := by
  have hw : i < w := by simpa using hi
  have hlast : w - 1 - i < w := by omega
  simp [bitsOf, BitVec.getMsb, BitVec.getMsbD, hw, BitVec.getLsbD_eq_getElem hlast]

theorem wordOf_bitsOf_append : wordOf w (bitsOf x ++ bits) = x := by
  apply BitVec.eq_of_getMsbD_eq
  intro i hi
  have hi' : i < (bitsOf x).length := by simpa using hi
  rw [getMsbD_wordOf, decide_eq_true hi, Bool.true_and, List.getD_eq_getElem?_getD,
    List.getElem?_append_left hi', List.getElem?_eq_getElem hi', Option.getD_some,
    getElem_bitsOf]

theorem bitsOf_injective : Function.Injective (bitsOf (w := w)) := by
  intro x y h
  rw [← wordOf_bitsOf_append x [], h, wordOf_bitsOf_append]

theorem bitsOf_wordOf (w : Nat) (bits : List Bool) :
    bitsOf (wordOf w bits) = bits.take w ++ List.replicate (w - bits.length) false := by
  apply List.ext_getElem
  · simp only [length_bitsOf, List.length_append, List.length_take, List.length_replicate]
    omega
  · intro i hi hi'
    have hw : i < w := by simpa using hi
    rw [getElem_bitsOf, getMsbD_wordOf, decide_eq_true hw, Bool.true_and,
      List.getD_eq_getElem?_getD]
    by_cases hbits : i < bits.length
    · rw [List.getElem_append_left (by simp [hw, hbits]), List.getElem_take,
        List.getElem?_eq_getElem hbits, Option.getD_some]
    · rw [List.getElem_append_right (by simp; omega), List.getElem_replicate,
        List.getElem?_eq_none (by omega), Option.getD_none]

/-! ### Cutting bit strings into words -/

/-- The words of a bit string; bits behind the last whole word are dropped. -/
def wholeWords (w : Nat) (bits : List Bool) : List (BitVec w) :=
  if 0 < w ∧ w ≤ bits.length then wordOf w bits :: wholeWords w (bits.drop w) else []
termination_by bits.length
decreasing_by simp only [List.length_drop]; omega

/-- The words of a bit string; the last one is filled with zeros. -/
def filledWords (w : Nat) (bits : List Bool) : List (BitVec w) :=
  if 0 < w ∧ 0 < bits.length then wordOf w bits :: filledWords w (bits.drop w) else []
termination_by bits.length
decreasing_by simp only [List.length_drop]; omega

variable {bits : List Bool}

theorem wholeWords_of_length_lt (h : bits.length < w) : wholeWords w bits = [] := by
  rw [wholeWords, if_neg (by omega)]

theorem wholeWords_bitsOf_append (hw : 0 < w) (x : BitVec w) (bits : List Bool) :
    wholeWords w (bitsOf x ++ bits) = x :: wholeWords w bits := by
  rw [wholeWords, if_pos (by simp [hw]), wordOf_bitsOf_append,
    List.drop_append_of_le_length (by simp), List.drop_of_length_le (by simp), List.nil_append]

theorem wholeWords_flatMap_append (hw : 0 < w) (xs : List (BitVec w)) (bits : List Bool) :
    wholeWords w (xs.flatMap bitsOf ++ bits) = xs ++ wholeWords w bits := by
  induction xs with
  | nil => rfl
  | cons x xs ih =>
    rw [List.flatMap_cons, List.append_assoc, wholeWords_bitsOf_append hw, ih, List.cons_append]

theorem filledWords_nil (w : Nat) : filledWords w [] = [] := by
  rw [filledWords, if_neg (by simp)]

theorem filledWords_bitsOf_append (hw : 0 < w) (x : BitVec w) (bits : List Bool) :
    filledWords w (bitsOf x ++ bits) = x :: filledWords w bits := by
  rw [filledWords, if_pos (by simp [hw]), wordOf_bitsOf_append,
    List.drop_append_of_le_length (by simp), List.drop_of_length_le (by simp), List.nil_append]

theorem filledWords_eq_singleton (hne : bits ≠ []) (hle : bits.length ≤ w) {x : BitVec w}
    (hx : bitsOf x = bits ++ List.replicate (w - bits.length) false) :
    filledWords w bits = [x] := by
  have hpos := List.length_pos_iff.mpr hne
  have hword : wordOf w bits = x := by
    apply bitsOf_injective
    rw [bitsOf_wordOf, hx, List.take_of_length_le hle]
  rw [filledWords, if_pos (by omega), hword, List.drop_of_length_le hle, filledWords_nil]

/-- The bits of the words are those of the string, and fewer zeros behind them
than a word has bits. -/
theorem flatMap_bitsOf_filledWords (hw : 0 < w) (bits : List Bool) :
    ∃ k < w, (filledWords w bits).flatMap bitsOf = bits ++ List.replicate k false := by
  induction bits using filledWords.induct w with
  | case1 bits h ih =>
    obtain ⟨k, hk, hbits⟩ := ih
    rw [filledWords, if_pos h, List.flatMap_cons, bitsOf_wordOf, hbits]
    by_cases hlen : bits.length ≤ w
    · -- the last word
      have hnil : bits.drop w = [] := List.drop_of_length_le hlen
      have hzero : filledWords w (bits.drop w) = [] := by rw [hnil, filledWords_nil]
      rw [hzero, hnil] at hbits
      obtain rfl : k = 0 := by simpa using hbits
      refine ⟨w - bits.length, by omega, ?_⟩
      rw [List.take_of_length_le hlen, hnil]
      simp
    · refine ⟨k, hk, ?_⟩
      rw [Nat.sub_eq_zero_of_le (by omega), List.replicate_zero, List.append_nil,
        ← List.append_assoc, List.take_append_drop]
  | case2 bits h =>
    have hnil : bits = [] := by
      rw [← List.length_eq_zero_iff]
      omega
    exact ⟨0, hw, by rw [hnil, filledWords_nil]; rfl⟩

theorem length_wholeWords : (wholeWords w bits).length = bits.length / w := by
  induction bits using wholeWords.induct w with
  | case1 bits h ih =>
    rw [wholeWords, if_pos h, List.length_cons, ih, List.length_drop,
      Nat.div_eq bits.length w, if_pos h]
  | case2 bits h => rw [wholeWords, if_neg h, List.length_nil, Nat.div_eq, if_neg h]

theorem wholeWords_append (h : w ∣ bits.length) (more : List Bool) :
    wholeWords w (bits ++ more) = wholeWords w bits ++ wholeWords w more := by
  induction bits using wholeWords.induct w with
  | case1 bits hw ih =>
    have hle : w ≤ (bits ++ more).length := by
      rw [List.length_append]
      omega
    have hword : wordOf w (bits ++ more) = wordOf w bits := by
      apply BitVec.eq_of_getMsbD_eq
      intro i hi
      rw [getMsbD_wordOf, getMsbD_wordOf, List.getD_eq_getElem?_getD,
        List.getElem?_append_left (by omega), List.getD_eq_getElem?_getD]
    have hrest : w ∣ (bits.drop w).length := by
      rw [List.length_drop]
      exact Nat.dvd_sub h (Nat.dvd_refl w)
    rw [wholeWords, if_pos ⟨hw.1, hle⟩, hword, List.drop_append_of_le_length hw.2, ih hrest,
      wholeWords.eq_1 w bits, if_pos hw, List.cons_append]
  | case2 bits hw =>
    -- nothing, or words without bits
    rcases Nat.eq_zero_or_pos w with rfl | hpos
    · rw [wholeWords, if_neg (by omega), wholeWords, if_neg (by omega), wholeWords,
        if_neg (by omega), List.nil_append]
    · have hnil : bits = [] := by
        rw [← List.length_eq_zero_iff]
        exact Nat.eq_zero_of_dvd_of_lt h (by omega)
      have hzero : wholeWords w [] = [] := wholeWords_of_length_lt hpos
      rw [hnil, hzero, List.nil_append, List.nil_append]

theorem length_filledWords (hw : 0 < w) (bits : List Bool) :
    (filledWords w bits).length = (bits.length + (w - 1)) / w := by
  induction bits using filledWords.induct w with
  | case1 bits h ih =>
    rw [filledWords, if_pos h, List.length_cons, ih, List.length_drop]
    by_cases hlen : bits.length ≤ w
    · rw [Nat.sub_eq_zero_of_le hlen, Nat.zero_add, Nat.div_eq_of_lt (by omega)]
      exact (Nat.div_eq_of_lt_le (by omega) (by omega)).symm
    · rw [← Nat.add_div_right _ hw]
      congr 1
      omega
  | case2 bits h =>
    rw [filledWords, if_neg h, List.length_nil, Nat.div_eq_of_lt (by omega)]

/-- **Cutting back**: words of a width that are cut into words of a smaller one
are whole words of their bits. -/
theorem wholeWords_filledWords {v : Nat} (hv : 0 < v) (hle : v ≤ w) (xs : List (BitVec w)) :
    wholeWords w ((filledWords v (xs.flatMap bitsOf)).flatMap bitsOf) = xs := by
  obtain ⟨k, hk, hbits⟩ := flatMap_bitsOf_filledWords hv (xs.flatMap bitsOf)
  rw [hbits, wholeWords_flatMap_append (by omega),
    wholeWords_of_length_lt (by simp; omega), List.append_nil]

/-! ### Alphabets -/

/-- Characters for the words of a width, and one for padding. -/
structure Alphabet (α : Type*) (w : Nat) where
  char : BitVec w → α
  value : α → Option (BitVec w)
  pad : α
  value_char : ∀ v, value (char v) = some v
  char_of_value : ∀ {c v}, value c = some v → char v = c
  value_pad : value pad = none

namespace Alphabet

variable {α : Type*} {w : Nat} (A : Alphabet α w)

/-- A byte string in the alphabet; padding fills the last group of characters. -/
def encode (group : Nat) (bytes : Bytes) : List α :=
  let chars := (filledWords w (bytes.flatMap fun b => bitsOf b.toBitVec)).map A.char
  chars ++ List.replicate ((group - chars.length % group) % group) A.pad

/-- The bytes that the characters stand for; padding and the bits that do not fill
a byte stand for nothing. -/
def decode (text : List α) : Bytes :=
  (wholeWords 8 ((text.filterMap A.value).flatMap bitsOf)).map UInt8.ofBitVec

/-- Groups of characters, with at most `maxPads` of padding and only in the end. -/
def IsPadded (group maxPads : Nat) (text : List α) : Prop :=
  group ∣ text.length ∧ ∃ chars pads, text = chars ++ List.replicate pads A.pad ∧
    pads ≤ maxPads ∧ ∀ c ∈ chars, (A.value c).isSome

theorem filterMap_value_map_char (words : List (BitVec w)) :
    (words.map A.char).filterMap A.value = words := by
  induction words with
  | nil => rfl
  | cons v words ih => rw [List.map_cons, List.filterMap_cons_some (A.value_char v), ih]

theorem filterMap_value_pads (chars : List α) (n : Nat) :
    (chars ++ List.replicate n A.pad).filterMap A.value = chars.filterMap A.value := by
  rw [List.filterMap_append, List.filterMap_replicate_of_none A.value_pad, List.append_nil]

/-- **Reading back** gives the bytes. -/
theorem decode_encode (hw : 0 < w) (hle : w ≤ 8) (group : Nat) (bytes : Bytes) :
    A.decode (A.encode group bytes) = bytes := by
  have hbits : (bytes.flatMap fun b => bitsOf b.toBitVec)
      = (bytes.map UInt8.toBitVec).flatMap bitsOf := by
    rw [List.flatMap_map]
  rw [decode, encode, filterMap_value_pads, filterMap_value_map_char, hbits,
    wholeWords_filledWords hw hle, List.map_map]
  exact List.map_id _

theorem length_chars_encode (hw : 0 < w) (bytes : Bytes) :
    ((filledWords w (bytes.flatMap fun b => bitsOf b.toBitVec)).map A.char).length
      = (bytes.length * 8 + (w - 1)) / w := by
  simp [length_filledWords hw, List.length_flatMap]

theorem dvd_add_fill {group : Nat} (hgroup : 0 < group) (n : Nat) :
    group ∣ n + (group - n % group) % group := by
  have hlt := Nat.mod_lt n hgroup
  rcases Nat.eq_zero_or_pos (n % group) with hzero | hpos
  · rw [hzero, Nat.sub_zero, Nat.mod_self, Nat.add_zero]
    exact Nat.dvd_of_mod_eq_zero hzero
  · have hfill : n + (group - n % group) = group * (n / group) + group := by
      have hdiv := Nat.div_add_mod n group
      omega
    rw [Nat.mod_eq_of_lt (by omega), hfill]
    exact Nat.dvd_add (Nat.dvd_mul_right _ _) (Nat.dvd_refl _)

theorem isPadded_encode (hw : 0 < w) {group maxPads : Nat} (hgroup : 0 < group) (bytes : Bytes)
    (hpads : (group - (bytes.length * 8 + (w - 1)) / w % group) % group ≤ maxPads) :
    A.IsPadded group maxPads (A.encode group bytes) := by
  refine ⟨?_, _, _, rfl, ?_, ?_⟩
  · rw [encode, List.length_append, List.length_replicate]
    exact dvd_add_fill hgroup _
  · rw [length_chars_encode A hw]
    exact hpads
  · intro c hc
    obtain ⟨v, -, rfl⟩ := List.mem_map.mp hc
    rw [A.value_char]
    rfl

end Alphabet

end ArkToolchain
