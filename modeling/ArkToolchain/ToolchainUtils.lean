/-
The string utilities of the toolchain (`utils.cpp`).

`StrToInt32` and `StrToUInt` convert the whole of a C string with `std::strtoll` and
`std::strtoul`: blanks and a sign before the digits are accepted, a rest is not, and only
`StrToInt32` checks that the number fits (`converts_checked_iff`).  For `SplitString` a run of
delimiters separates two parts like a single one, and a text that starts with a delimiter has no
parts at all (`splits_into_runs_iff`).
-/
import ArkToolchain.Http
import ArkToolchain.DecimalText
import Mathlib.Data.List.TakeWhile

namespace ArkToolchain

/-- The text that `c_str()` stands for. -/
def cStr (text : Bytes) : Bytes := text.takeWhile (· ≠ 0)

theorem cStr_eq_self_iff {text : Bytes} : cStr text = text ↔ (0 : UInt8) ∉ text := by
  rw [cStr, List.takeWhile_eq_self_iff]
  constructor
  · intro h hmem
    simpa using h 0 hmem
  · intro h c hc
    simpa using ne_of_mem_of_not_mem hc h

section

variable {α : Type*} (p : α → Bool) (l : List α)

theorem findIdx?_eq_takeWhile :
    l.findIdx? p = if (l.dropWhile fun a => !p a).isEmpty then none
      else some (l.takeWhile fun a => !p a).length := by
  induction l with
  | nil => rfl
  | cons a l ih =>
    rw [List.findIdx?_cons]
    cases hp : p a with
    | true => simp [hp]
    | false =>
      rw [ih]
      simp only [hp, Bool.not_false, List.dropWhile_cons_of_pos, List.takeWhile_cons_of_pos,
        Bool.false_eq_true, if_false]
      split <;> rfl

theorem drop_length_takeWhile : l.drop (l.takeWhile p).length = l.dropWhile p := by
  have hsplit := List.takeWhile_append_dropWhile (p := p) (l := l)
  generalize l.takeWhile p = piece at hsplit ⊢
  rw [← hsplit, List.drop_left, hsplit]

theorem take_length_takeWhile : l.take (l.takeWhile p).length = l.takeWhile p :=
  List.prefix_iff_eq_take.mp (List.takeWhile_prefix p) |>.symm

end

/-! ### Numbers -/

/-- `std::strtoll` in base ten: the number, and how far `endPtr` is behind the start.
The number is cut to the range of `long long`, and without a digit nothing is
converted. -/
def strtoll (content : Bytes) : Int × Nat :=
  let blanks := (content.takeWhile isSpace).length
  let negative := (content.drop blanks).head? = some 0x2d
  let sign := if negative || (content.drop blanks).head? = some 0x2b then 1 else 0
  let digits := (content.drop (blanks + sign)).takeWhile isDigit
  if digits.isEmpty then (0, 0)
  else
    let value : Int := if negative then - digitsVal digits else digitsVal digits
    (max (-2 ^ 63) (min value (2 ^ 63 - 1)), blanks + sign + digits.length)

/-- What `std::strtoll` and `std::strtoul` find: whether there is a minus, the digits, and how far
they are behind the start. -/
def scan (content : Bytes) : Bool × Bytes × Nat :=
  let blanks := (content.takeWhile isSpace).length
  let negative : Bool := (content.drop blanks).head? = some 0x2d
  let sign := if negative || (content.drop blanks).head? = some 0x2b then 1 else 0
  (negative, (content.drop (blanks + sign)).takeWhile isDigit, blanks + sign)

/-- `std::strtoul` in base ten.  A number that does not fit is the largest one, and a minus
negates within `unsigned long`. -/
def strtoul (content : Bytes) : Nat × Nat :=
  let (negative, digits, start) := scan content
  if digits.isEmpty then (0, 0)
  else
    let value := digitsVal digits
    (if value ≥ 2 ^ 64 then 2 ^ 64 - 1 else if negative then (2 ^ 64 - value) % 2 ^ 64 else value,
      start + digits.length)

/-- `StrToInt32`, with the number that it sets. -/
def strToInt32 (str : Bytes) : Option Int32 :=
  let (num, endPtr) := strtoll (cStr str)
  if endPtr = 0 || endPtr ≠ (cStr str).length || num > 2 ^ 31 - 1 || num < -2 ^ 31 then none
  else some (Int32.ofInt num)

/-- `StrToUInt`, with the number that it sets. -/
def strToUInt (content : Bytes) : Option Nat :=
  let (num, endPtr) := strtoul (cStr content)
  if endPtr = 0 || endPtr ≠ (cStr content).length then none else some (num % 2 ^ 32)

variable {d : UInt8}

theorem isDigit_iff : isDigit d = true ↔ 0x30 ≤ d.toNat ∧ d.toNat ≤ 0x39 := by
  simp [isDigit, UInt8.le_iff_toNat_le]

theorem of_isDigit (h : 0x30 ≤ d.toNat ∧ d.toNat ≤ 0x39) :
    isSpace d = false ∧ d ≠ 0x2d ∧ d ≠ 0x2b := by
  refine ⟨?_, ?_, ?_⟩
  · have hne : d ≠ 0x20 := by
      rintro rfl
      exact absurd h.1 (by decide)
    have hlt : ¬ d.toNat ≤ 0x0d := by omega
    simp [isSpace, UInt8.le_iff_toNat_le, hne, hlt]
  all_goals
    rintro rfl
    exact absurd h.1 (by decide)

theorem strtoll_digits {ds : Bytes} (hdigits : ∀ c ∈ d :: ds, isDigit c = true)
    (hval : digitsVal (d :: ds) < 2 ^ 63) :
    strtoll (d :: ds) = ((digitsVal (d :: ds) : Int), (d :: ds).length) := by
  have htake := List.takeWhile_eq_self_iff.mpr hdigits
  obtain ⟨hblank, hminus, hplus⟩ := of_isDigit (isDigit_iff.mp (hdigits d List.mem_cons_self))
  simp only [strtoll, List.takeWhile_cons_of_neg, hblank, Bool.false_eq_true,
    not_false_eq_true, List.length_nil, List.drop_zero, List.head?_cons, Option.some.injEq,
    hminus, hplus, decide_false, Bool.or_false, if_false, Nat.zero_add, htake,
    List.isEmpty_cons, List.length_cons, Prod.mk.injEq, and_true]
  omega

/-! ### Which texts are numbers -/

/-- The value of a text that is a decimal number without a sign. -/
def unsignedLiteral (text : Bytes) : Option Nat :=
  if text ≠ [] ∧ text.all isDigit then some (digitsVal text) else none

/-- The value of a text that is a decimal number. -/
def literal (text : Bytes) : Option Int :=
  match text with
  | 0x2d :: digits => (unsignedLiteral digits).map fun n : Nat => -(n : Int)
  | 0x2b :: digits => (unsignedLiteral digits).map (↑)
  | digits => (unsignedLiteral digits).map (↑)

/-- What `StrToInt32` is for. -/
def checkedInt32 (str : Bytes) : Option Int32 :=
  ((literal str).filter fun n => -2 ^ 31 ≤ n ∧ n < 2 ^ 31).map Int32.ofInt

/-- What `StrToUInt` is for. -/
def checkedUInt (str : Bytes) : Option Nat := (unsignedLiteral str).filter (· < 2 ^ 32)

/-- The text that is converted: it ends before a NUL, and has no blanks in front. -/
def scanned (str : Bytes) : Bytes := (cStr str).dropWhile isSpace

/-- The number that `StrToUInt` makes of a value. -/
def wrapped (value : Int) : Nat :=
  if value.natAbs ≥ 2 ^ 64 then 2 ^ 32 - 1 else (value % 2 ^ 32).toNat

theorem unsignedLiteral_eq (text : Bytes) :
    unsignedLiteral text =
      if (text.takeWhile isDigit).isEmpty ∨ (text.takeWhile isDigit).length ≠ text.length then none
      else some (digitsVal (text.takeWhile isDigit)) := by
  by_cases hall : ∀ d ∈ text, isDigit d = true
  · rw [List.takeWhile_eq_self_iff.mpr hall]
    simp [unsignedLiteral, List.all_eq_true.mpr hall]
  · have hlen : (text.takeWhile isDigit).length ≠ text.length := fun h =>
      hall (List.takeWhile_eq_self_iff.mp ((List.takeWhile_prefix isDigit).eq_of_length h))
    rw [unsignedLiteral, if_neg fun h => hall (List.all_eq_true.mp h.2), if_pos (.inr hlen)]

theorem literal_dropWhile (content : Bytes) :
    literal (content.dropWhile isSpace) =
      let (negative, digits, start) := scan content
      if digits.isEmpty ∨ start + digits.length ≠ content.length then none
      else some (if negative then -(digitsVal digits : Int) else digitsVal digits) := by
  have hlen := congrArg List.length (List.takeWhile_append_dropWhile (p := isSpace) (l := content))
  rw [List.length_append] at hlen
  simp only [scan, ← List.drop_drop, drop_length_takeWhile, ← hlen]
  generalize content.dropWhile isSpace = rest
  rcases rest with - | ⟨c, ds⟩
  · simp [literal, unsignedLiteral]
  · by_cases hminus : c = 0x2d
    · subst hminus
      simp [literal, unsignedLiteral_eq, Nat.add_assoc, Nat.add_comm 1]
      split_ifs <;> rfl
    · by_cases hplus : c = 0x2b
      · subst hplus
        simp [literal, unsignedLiteral_eq, Nat.add_assoc, Nat.add_comm 1]
        split_ifs <;> rfl
      · simp [literal, unsignedLiteral_eq, hminus, hplus]
        split_ifs <;> rfl

/-- `StrToInt32` checks the value of the scanned text. -/
theorem strToInt32_eq (str : Bytes) : strToInt32 str = checkedInt32 (scanned str) := by
  have hstrtoll : strtoll (cStr str) =
      let (negative, digits, start) := scan (cStr str)
      if digits.isEmpty then (0, 0)
      else
        let value : Int := if negative then -digitsVal digits else digitsVal digits
        (max (-2 ^ 63) (min value (2 ^ 63 - 1)), start + digits.length) := by
    simp only [strtoll, scan, decide_eq_true_eq]
  rw [strToInt32, hstrtoll, checkedInt32, scanned, literal_dropWhile]
  rcases scan (cStr str) with ⟨negative, digits, start⟩
  cases digits with
  | nil => simp
  | cons d ds =>
    simp only [List.isEmpty_cons, Bool.false_eq_true, if_false, false_or, List.length_cons]
    generalize (if negative then -(digitsVal (d :: ds) : Int) else digitsVal (d :: ds)) = value
    by_cases hlen : start + (ds.length + 1) = (cStr str).length
    · simp [← hlen, Option.filter_some]
      split_ifs with hout hfits hfits
      · omega
      · rfl
      · congr
        omega
      · omega
    · simp [hlen]

/-- `StrToUInt` cuts it. -/
theorem strToUInt_eq (str : Bytes) : strToUInt str = (literal (scanned str)).map wrapped := by
  rw [strToUInt, strtoul, scanned, literal_dropWhile]
  rcases scan (cStr str) with ⟨negative, digits, start⟩
  cases digits with
  | nil => simp
  | cons d ds =>
    simp only [List.isEmpty_cons, Bool.false_eq_true, if_false, false_or, List.length_cons]
    generalize digitsVal (d :: ds) = value
    by_cases hlen : start + (ds.length + 1) = (cStr str).length
    · simp [← hlen]
      cases negative
      all_goals
        simp only [wrapped, Bool.false_eq_true, if_false, if_true, Int.natAbs_neg,
          Int.natAbs_natCast]
        split_ifs <;> omega
    · simp [hlen]

section literal

variable {str : Bytes} {n : Nat}

theorem isDigit_of_unsignedLiteral (h : unsignedLiteral str = some n) :
    ∀ d ∈ str, isDigit d = true := by
  rw [unsignedLiteral] at h
  split at h
  next hs => exact List.all_eq_true.mp hs.2
  · cases h

theorem literal_of_no_sign (hminus : 0x2d ∉ str) (hplus : 0x2b ∉ str) :
    literal str = (unsignedLiteral str).map (↑) := by
  rw [literal]
  · rintro digits rfl
    exact hminus List.mem_cons_self
  · rintro digits rfl
    exact hplus List.mem_cons_self

theorem of_unsignedLiteral (h : unsignedLiteral str = some n) :
    0x2d ∉ str ∧ 0x2b ∉ str ∧ literal str = some (n : Int) := by
  have hdigits := isDigit_of_unsignedLiteral h
  have hminus : 0x2d ∉ str := fun hmem => absurd (hdigits _ hmem) (by decide)
  have hplus : 0x2b ∉ str := fun hmem => absurd (hdigits _ hmem) (by decide)
  exact ⟨hminus, hplus, by rw [literal_of_no_sign hminus hplus, h]; rfl⟩

/-- A number has no blank before it, and no NUL in it. -/
theorem scanned_of_literal {value : Int} (h : literal str = some value) : scanned str = str := by
  have hchars : ∀ c ∈ str, c = 0x2d ∨ c = 0x2b ∨ isDigit c = true := by
    revert h
    fun_cases literal str
    all_goals
      intro h
      obtain ⟨n, hn, -⟩ := Option.map_eq_some_iff.mp h
      have hdigits := isDigit_of_unsignedLiteral hn
      simp_all
  have hnul : cStr str = str := by
    rw [cStr_eq_self_iff]
    intro hmem
    exact absurd (hchars 0 hmem) (by decide)
  rw [scanned, hnul]
  rcases str with - | ⟨c, str⟩
  · rfl
  · have hc : isSpace c = false := by
      rcases hchars c List.mem_cons_self with rfl | rfl | hc
      · decide
      · decide
      · exact (of_isDigit (isDigit_iff.mp hc)).1
    rw [List.dropWhile_cons_of_neg (by simp [hc])]

end literal

theorem literal_intText (n : Int) : literal (intText n) = some n := by
  have hnat : unsignedLiteral (natText n.natAbs) = some n.natAbs := by
    rw [unsignedLiteral, if_pos, digitsVal_natText]
    exact ⟨natText_ne_nil _, List.all_eq_true.mpr fun d hd =>
      isDigit_iff.mpr (isDigit_of_mem_natText hd)⟩
  rw [intText]
  split
  · rw [literal, hnat, Option.map_some]
    congr
    omega
  · rw [(of_unsignedLiteral hnat).2.2]
    congr
    omega

/-- **Every 32-bit number** is read back from its decimal text. -/
theorem strToInt32_intText (n : Int32) : strToInt32 (intText n.toInt) = some n := by
  have hlow := n.le_toInt
  have hhigh := n.toInt_lt
  have hliteral := literal_intText n.toInt
  rw [strToInt32_eq, scanned_of_literal hliteral, checkedInt32, hliteral, Option.filter_some,
    if_pos (by simpa using ⟨hlow, hhigh⟩), Option.map_some, Int32.ofInt_toInt]

/-- **What the conversions take for a number.**  `StrToInt32` is right about every text without
blanks in front and without a NUL; `StrToUInt` must not see a sign either, and the number must
fit. -/
theorem converts_checked_iff (str : Bytes) :
    (strToInt32 str = checkedInt32 str ↔
      ((checkedInt32 (scanned str)).isSome → scanned str = str)) ∧
    (strToUInt str = checkedUInt str ↔
      ∀ value, literal (scanned str) = some value →
        scanned str = str ∧ 0x2d ∉ str ∧ 0x2b ∉ str ∧ value < 2 ^ 32) := by
  rw [strToInt32_eq, strToUInt_eq]
  constructor
  · have hself : (checkedInt32 str).isSome → scanned str = str := by
      intro h
      obtain ⟨n, hn⟩ := Option.isSome_iff_exists.mp h
      obtain ⟨value, hvalue, -⟩ := Option.map_eq_some_iff.mp hn
      exact scanned_of_literal (Option.filter_eq_some_iff.mp hvalue).1
    constructor
    · intro h hsome
      exact hself (h ▸ hsome)
    · intro h
      by_cases hs : scanned str = str
      · rw [hs]
      · rw [Option.not_isSome_iff_eq_none.mp (mt h hs),
          Option.not_isSome_iff_eq_none.mp (mt hself hs)]
  · constructor
    · intro h value hvalue
      rw [hvalue, Option.map_some, eq_comm] at h
      obtain ⟨hn, hlt⟩ := Option.filter_eq_some_iff.mp h
      obtain ⟨hminus, hplus, hliteral⟩ := of_unsignedLiteral hn
      have hs := scanned_of_literal hliteral
      rw [hs, hliteral] at hvalue
      have hvalue := Option.some.inj hvalue
      have hlt : wrapped value < 2 ^ 32 := by simpa using hlt
      exact ⟨hs, hminus, hplus, by omega⟩
    · intro h
      cases hvalue : literal (scanned str) with
      | none =>
        rw [Option.map_none, eq_comm, checkedUInt, Option.filter_eq_none_iff]
        intro n hn
        obtain ⟨-, -, hliteral⟩ := of_unsignedLiteral hn
        rw [scanned_of_literal hliteral, hliteral] at hvalue
        cases hvalue
      | some value =>
        obtain ⟨hs, hminus, hplus, hlt⟩ := h value hvalue
        rw [hs, literal_of_no_sign hminus hplus] at hvalue
        obtain ⟨n, hn, rfl⟩ := Option.map_eq_some_iff.mp hvalue
        have hwrapped : wrapped n = n := by
          rw [wrapped, if_neg (by omega)]
          omega
        simp [checkedUInt, hn, hwrapped, Option.filter_some]
        omega

/-- Texts that are converted to something else than what they stand for. -/
theorem converts_not_checked :
    strToUInt (ascii "-1") = some 4294967295 ∧ checkedUInt (ascii "-1") = none ∧
      strToUInt (ascii "4294967301") = some 5 ∧ checkedUInt (ascii "4294967301") = none ∧
      strToInt32 (ascii " 7") = some 7 ∧ checkedInt32 (ascii " 7") = none ∧
      strToInt32 [0x37, 0, 0x78] = some 7 ∧ checkedInt32 [0x37, 0, 0x78] = none := by
  decide +kernel

/-! ### Parts -/

/-- `std::string::find_first_of`. -/
def findFirstOf (chars text : Bytes) (pos : Nat) : Option Nat :=
  ((text.drop pos).findIdx? fun c => chars.contains c).map (· + pos)

/-- `std::string::find_first_not_of`. -/
def findFirstNotIn (chars text : Bytes) (pos : Nat) : Option Nat :=
  ((text.drop pos).findIdx? fun c => !chars.contains c).map (· + pos)

theorem findFirstNotIn_bounds {chars text : Bytes} {pos next : Nat}
    (h : findFirstNotIn chars text pos = some next) : pos ≤ next ∧ next < text.length := by
  obtain ⟨i, hi, rfl⟩ := Option.map_eq_some_iff.mp h
  have hlt := (List.findIdx?_eq_some_iff_findIdx_eq.mp hi).1
  rw [List.length_drop] at hlt
  omega

/-- The loop of `SplitString` and what follows it, with `pos` from the search at
`strIndex`.  A position that is not found is larger than all others, and is not larger
than itself. -/
def splitFrom (str delimiter : Bytes) (strIndex : Nat) : List Bytes :=
  match findFirstOf delimiter str strIndex with
  | none =>
    let subStr := str.drop strIndex
    if subStr.isEmpty then [] else [subStr]
  | some pos =>
    if _hpos : strIndex < pos then
      substr str strIndex (pos - strIndex) ::
        match _hnext : findFirstNotIn delimiter str pos with
        | none => []
        | some next => splitFrom str delimiter next
    else []
termination_by str.length - strIndex
decreasing_by
  have hbounds := findFirstNotIn_bounds _hnext
  omega

def splitString (str delimiter : Bytes) : List Bytes := splitFrom str delimiter 0

/-- The parts of a text between delimiters, as `SplitString` collects them. -/
def parts (isDelimiter : UInt8 → Bool) (text : Bytes) : List Bytes :=
  let piece := text.takeWhile fun c => !isDelimiter c
  if _hpiece : piece = [] then []
  else piece :: parts isDelimiter ((text.dropWhile fun c => !isDelimiter c).dropWhile isDelimiter)
termination_by text.length
decreasing_by
  have hlength := congrArg List.length (List.takeWhile_append_dropWhile
    (p := fun c => !isDelimiter c) (l := text))
  have hpos : 0 < (text.takeWhile fun c => !isDelimiter c).length :=
    List.length_pos_iff.mpr _hpiece
  have hle := List.length_dropWhile_le isDelimiter (text.dropWhile fun c => !isDelimiter c)
  rw [List.length_append] at hlength
  omega

theorem parts_nil (isDelimiter : UInt8 → Bool) : parts isDelimiter [] = [] := by
  rw [parts]
  rfl

theorem findFirstOf_eq (chars text : Bytes) (pos : Nat) :
    findFirstOf chars text pos =
      if ((text.drop pos).dropWhile fun c => !chars.contains c).isEmpty then none
      else some (((text.drop pos).takeWhile fun c => !chars.contains c).length + pos) := by
  rw [findFirstOf, findIdx?_eq_takeWhile]
  split <;> rfl

theorem drop_findFirstNotIn (chars text : Bytes) (pos : Nat) :
    match findFirstNotIn chars text pos with
    | none => (text.drop pos).dropWhile (fun c => chars.contains c) = []
    | some next => text.drop next = (text.drop pos).dropWhile fun c => chars.contains c := by
  have hnot : (fun c => !!chars.contains c) = fun c => chars.contains c :=
    funext fun c => Bool.not_not _
  rw [findFirstNotIn, findIdx?_eq_takeWhile, hnot]
  split
  next hempty h =>
    rw [← List.isEmpty_iff]
    by_contra hne
    rw [if_neg hne] at h
    cases h
  next next h =>
    obtain ⟨i, hi, rfl⟩ := Option.map_eq_some_iff.mp h
    split at hi
    · cases hi
    · obtain rfl := Option.some.inj hi
      rw [Nat.add_comm, ← List.drop_drop, drop_length_takeWhile]

theorem splitFrom_eq (str delimiter : Bytes) (strIndex : Nat) :
    splitFrom str delimiter strIndex
      = parts (fun c => delimiter.contains c) (str.drop strIndex) := by
  induction hn : str.length - strIndex using Nat.strong_induction_on generalizing strIndex with
  | _ n ih =>
    subst hn
    rw [splitFrom, findFirstOf_eq, parts]
    by_cases hrest : ((str.drop strIndex).dropWhile fun c => !delimiter.contains c).isEmpty = true
    · -- no delimiter is left
      have hnil := List.isEmpty_iff.mp hrest
      have hall := List.takeWhile_append_dropWhile (p := fun c => !delimiter.contains c)
        (l := str.drop strIndex)
      rw [hnil, List.append_nil] at hall
      simp only [hall, hnil, List.dropWhile_nil, parts_nil, List.isEmpty_iff]
      rfl
    · rw [if_neg hrest]
      dsimp only
      by_cases hpiece : ((str.drop strIndex).takeWhile fun c => !delimiter.contains c) = []
      · -- a delimiter stands right here
        rw [dif_pos hpiece, hpiece, dif_neg (by simp)]
      · have hpos := List.length_pos_iff.mpr hpiece
        have hdrop := drop_length_takeWhile (fun c => !delimiter.contains c) (str.drop strIndex)
        rw [List.drop_drop, Nat.add_comm] at hdrop
        rw [dif_neg hpiece, dif_pos (by omega), substr, Nat.add_sub_cancel, take_length_takeWhile]
        congr 1
        have hnext := drop_findFirstNotIn delimiter str
          (((str.drop strIndex).takeWhile fun c => !delimiter.contains c).length + strIndex)
        rw [hdrop] at hnext
        split
        next h =>
          rw [h] at hnext
          rw [hnext, parts_nil]
        next next h =>
          have hbounds := findFirstNotIn_bounds h
          rw [h] at hnext
          rw [← hnext]
          exact ih _ (by omega) next rfl

theorem splitString_eq (str delimiter : Bytes) :
    splitString str delimiter = parts (fun c => delimiter.contains c) str :=
  splitFrom_eq str delimiter 0

/-! ### The parts of a text that is put together -/

section parts

variable {isDelimiter : UInt8 → Bool} {piece : Bytes}

theorem parts_append_cons {more : Bytes} (hne : piece ≠ [])
    (hpiece : ∀ c ∈ piece, isDelimiter c = false) (hd : isDelimiter d = true) :
    parts isDelimiter (piece ++ d :: more)
      = piece :: parts isDelimiter (more.dropWhile isDelimiter) := by
  have hall : ∀ c ∈ piece, (!isDelimiter c) = true := fun c hc => by rw [hpiece c hc]; rfl
  have htake : (piece ++ d :: more).takeWhile (fun c => !isDelimiter c) = piece := by
    rw [List.takeWhile_append_of_pos hall, List.takeWhile_cons_of_neg (by simp [hd]),
      List.append_nil]
  have hdrop : ((piece ++ d :: more).dropWhile fun c => !isDelimiter c).dropWhile isDelimiter
      = more.dropWhile isDelimiter := by
    rw [List.dropWhile_append_of_pos hall, List.dropWhile_cons_of_neg (by simp [hd]),
      List.dropWhile_cons_of_pos hd]
  rw [parts]
  simp only [htake, hdrop, dif_neg hne]

variable {text : Bytes}

theorem mem_of_parts_cons {more : List Bytes} (h : parts isDelimiter text = piece :: more) :
    piece ≠ [] ∧ (∀ c ∈ piece, isDelimiter c = false) ∧ piece <+: text := by
  rw [parts] at h
  split at h
  · cases h
  next hne =>
    obtain ⟨rfl, -⟩ := List.cons.inj h
    refine ⟨hne, fun c hc => ?_, List.takeWhile_prefix _⟩
    simpa using List.mem_takeWhile_imp hc

theorem parts_eq_nil_iff :
    parts isDelimiter text = [] ↔ ∀ c ∈ text.head?, isDelimiter c = true := by
  rw [parts]
  rcases text with - | ⟨c, text⟩
  · simp
  · cases hc : isDelimiter c
    all_goals
      simp [hc]

theorem ne_nil_of_mem_parts {part : Bytes} (h : part ∈ parts isDelimiter text) : part ≠ [] := by
  fun_induction parts isDelimiter text with
  | case1 text piece hpiece => cases h
  | case2 text piece hpiece ih =>
    rcases List.mem_cons.mp h with rfl | h
    · exact hpiece
    · exact ih h

theorem parts_eq_singleton (hne : text ≠ []) (htext : ∀ c ∈ text, isDelimiter c = false) :
    parts isDelimiter text = [text] := by
  have hall : ∀ c ∈ text, (!isDelimiter c) = true := fun c hc => by rw [htext c hc]; rfl
  have hdrop : text.dropWhile (fun c => !isDelimiter c) = [] := List.dropWhile_eq_nil_iff.mpr hall
  rw [parts]
  simp only [List.takeWhile_eq_self_iff.mpr hall, hdrop, dif_neg hne, List.dropWhile_nil, parts_nil]

end parts

/-! ### What `SplitString` is for -/

/-- The maximal non-empty runs of characters that are no delimiters, in order. -/
def runs (isDelimiter : UInt8 → Bool) (text : Bytes) : List Bytes :=
  (text.splitOnP isDelimiter).filter (· ≠ [])

section runs

variable {isDelimiter : UInt8 → Bool} {text : Bytes}

theorem runs_cons (hd : isDelimiter d = true) :
    runs isDelimiter (d :: text) = runs isDelimiter text := by
  simp [runs, List.splitOnP_cons_eq_if_modifyHead, hd]

theorem runs_eq_nil_iff : runs isDelimiter text = [] ↔ ∀ c ∈ text, isDelimiter c = true := by
  induction text with
  | nil => simp [runs]
  | cons c text ih =>
    cases hc : isDelimiter c with
    | true => rw [runs_cons hc, ih, List.forall_mem_cons, and_iff_right hc]
    | false =>
      -- the first run starts here
      obtain ⟨run, more, hsplit⟩ :=
        List.exists_cons_of_ne_nil (List.splitOnP_ne_nil isDelimiter text)
      simp [runs, List.splitOnP_cons_eq_if_modifyHead, hc, hsplit]

theorem runs_dropWhile : runs isDelimiter (text.dropWhile isDelimiter) = runs isDelimiter text := by
  induction text with
  | nil => rfl
  | cons c text ih =>
    cases hc : isDelimiter c with
    | true => rw [List.dropWhile_cons_of_pos hc, runs_cons hc, ih]
    | false => rw [List.dropWhile_cons_of_neg (by simp [hc])]

theorem parts_eq_runs (h : ∀ c ∈ text.head?, isDelimiter c = false) :
    parts isDelimiter text = runs isDelimiter text := by
  fun_induction parts isDelimiter text with
  | case1 text piece hpiece =>
    rcases text with - | ⟨c, text⟩
    · simp [runs]
    · have hc := h c rfl
      simp [piece, hc] at hpiece
  | case2 text piece hpiece ih =>
    have hall : ∀ c ∈ piece, isDelimiter c = false := fun c hc => by
      simpa using List.mem_takeWhile_imp hc
    have hsplit : piece ++ text.dropWhile (fun c => !isDelimiter c) = text :=
      List.takeWhile_append_dropWhile
    have hfirst := List.head?_dropWhile_not (fun c => !isDelimiter c) text
    have hnext := List.head?_dropWhile_not isDelimiter (text.dropWhile fun c => !isDelimiter c)
    rw [ih fun c hc => by simpa [Option.mem_def.mp hc] using hnext, runs_dropWhile]
    rcases hrest : text.dropWhile (fun c => !isDelimiter c) with - | ⟨d, more⟩
    · rw [hrest, List.append_nil] at hsplit
      rw [← hsplit, runs, runs, List.splitOnP_eq_singleton hall]
      simp [hpiece]
    · rw [hrest] at hsplit hfirst
      have hd : isDelimiter d = true := by simpa using hfirst
      rw [← hsplit, runs_cons hd, runs, runs, List.splitOnP_append_cons_of_forall_mem hall d hd]
      simp [hpiece]

end runs

/-- `std::string::substr`, which throws for a position behind the end. -/
def trySubstr (text : Bytes) (pos n : Nat) : Option Bytes :=
  if pos ≤ text.length then some (substr text pos n) else none

/-- `splitFrom` with what `substr` throws. -/
def trySplitFrom (str delimiter : Bytes) (strIndex : Nat) : Option (List Bytes) :=
  match findFirstOf delimiter str strIndex with
  | none => do
    let subStr ← trySubstr str strIndex (str.length - strIndex)
    return if subStr.isEmpty then [] else [subStr]
  | some pos =>
    if strIndex < pos then do
      let subStr ← trySubstr str strIndex (pos - strIndex)
      match _hnext : findFirstNotIn delimiter str pos with
      | none => return [subStr]
      | some next => return subStr :: (← trySplitFrom str delimiter next)
    else some []
termination_by str.length - strIndex
decreasing_by
  have hbounds := findFirstNotIn_bounds _hnext
  omega

theorem trySplitFrom_eq {str delimiter : Bytes} {strIndex : Nat} (h : strIndex ≤ str.length) :
    trySplitFrom str delimiter strIndex = some (splitFrom str delimiter strIndex) := by
  fun_induction splitFrom str delimiter strIndex with
  | case1 strIndex hfind subStr hempty | case2 strIndex hfind subStr hempty =>
    have htail : substr str strIndex (str.length - strIndex) = subStr := by simp [substr, subStr]
    rw [trySplitFrom, hfind]
    simp only [trySubstr, h, if_true, htail, Option.bind_eq_bind, Option.bind_some]
    simp [hempty]
  | case3 strIndex pos hfind hpos ih =>
    rw [trySplitFrom, hfind]
    simp only [hpos, trySubstr, h, if_true, Option.bind_eq_bind, Option.bind_some]
    split
    · rfl
    next next hnext =>
      rw [ih next hnext (findFirstNotIn_bounds hnext).2.le]
      rfl
  | case4 strIndex pos hfind hpos =>
    rw [trySplitFrom, hfind]
    simp only [hpos, if_false]

/-- **When the parts are the runs**: nothing is thrown, and a text that starts with a delimiter
has no parts. -/
theorem splits_into_runs_iff (str delimiter : Bytes) :
    trySplitFrom str delimiter 0 = some (splitString str delimiter) ∧
      (splitString str delimiter = runs (fun c => delimiter.contains c) str ↔
        ((∃ c ∈ str.head?, c ∈ delimiter) → ∀ c ∈ str, c ∈ delimiter)) := by
  refine ⟨trySplitFrom_eq (Nat.zero_le _), ?_⟩
  rw [splitString_eq]
  by_cases h : ∃ c ∈ str.head?, c ∈ delimiter
  · obtain ⟨c, hc, hmem⟩ := h
    have hnil : parts (fun c => delimiter.contains c) str = [] := by
      rw [parts_eq_nil_iff]
      intro c' hc'
      rw [Option.mem_unique hc' hc]
      simpa using hmem
    rw [hnil, eq_comm, runs_eq_nil_iff]
    simp only [List.contains_iff_mem]
    exact ⟨fun h _ => h, fun h => h ⟨c, hc, hmem⟩⟩
  · refine iff_of_true (parts_eq_runs fun c hc => ?_) fun h' => absurd h' h
    simpa using fun hmem => h ⟨c, hc, hmem⟩

/-- The command of a line that starts with a blank is lost. -/
theorem blank_first_not_split :
    splitString (ascii " run") (ascii " ") = [] ∧
      runs (fun c => (ascii " ").contains c) (ascii " run") = [ascii "run"] := by
  constructor
  · rw [splitString_eq, parts_eq_nil_iff]
    decide +kernel
  · decide +kernel

/-! ### Methods -/

/-- What stands before and after the first dot, which must not be at an end of the
text. -/
def splitMethod (wholeMethod : Bytes) : Option (Bytes × Bytes) :=
  match findFirstOf (ascii ".") wholeMethod 0 with
  | none => none
  | some indexPoint =>
    if indexPoint = 0 ∨ indexPoint = wholeMethod.length - 1 then none
    else some (wholeMethod.take indexPoint, wholeMethod.drop (indexPoint + 1))

theorem splitMethod_append {domain name : Bytes} (hdomain : domain ≠ [])
    (hdot : (0x2e : UInt8) ∉ domain) (hname : name ≠ []) :
    splitMethod (domain ++ 0x2e :: name) = some (domain, name) := by
  have hbefore : ∀ c ∈ domain, (!(ascii ".").contains c) = true := by
    intro c hc
    have hne : c ≠ 0x2e := ne_of_mem_of_not_mem hc hdot
    show (!List.contains [0x2e] c) = true
    simpa using hne
  have hfind : findFirstOf (ascii ".") (domain ++ 0x2e :: name) 0 = some domain.length := by
    rw [findFirstOf_eq, List.drop_zero, List.dropWhile_append_of_pos hbefore,
      List.takeWhile_append_of_pos hbefore]
    show some ((domain ++ []).length + 0) = _
    rw [List.append_nil, Nat.add_zero]
  have hpos : 0 < domain.length := List.length_pos_iff.mpr hdomain
  have hpos' : 0 < name.length := List.length_pos_iff.mpr hname
  rw [splitMethod, hfind]
  dsimp only
  rw [if_neg, List.take_left]
  · rw [← List.drop_drop, List.drop_left]
    rfl
  · rw [List.length_append, List.length_cons]
    omega

end ArkToolchain
