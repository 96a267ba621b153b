/-
Searching for a pattern in a text.

`findIdx pat text` is the position of the first occurrence of `pat`, and `find pat text pos` the
first one at or after `pos`, as `std::string::find` has it.  A text that is put together from
parts is searched part by part.
-/
import Mathlib.Data.List.Basic
import Mathlib.Data.List.Infix

namespace ArkToolchain

variable {α : Type*} [DecidableEq α]

/-- The position of the first occurrence of `pat`. -/
def findIdx (pat : List α) : List α → Option Nat
  | [] => if pat = [] then some 0 else none
  | c :: text =>
    if pat.isPrefixOf (c :: text) then some 0 else (findIdx pat text).map (· + 1)

/-- The position of the first occurrence of `pat` at or after `pos`. -/
def find (pat text : List α) (pos : Nat) : Option Nat :=
  if pos ≤ text.length then (findIdx pat (text.drop pos)).map (· + pos) else none

/-! ### What the search finds -/

variable {text pat : List α}

theorem findIdx_eq_none_iff : findIdx pat text = none ↔ ¬ pat <:+: text := by
  induction text with
  | nil => simp [findIdx]
  | cons c text ih =>
    rw [findIdx, List.infix_cons_iff, ← List.isPrefixOf_iff_prefix]
    split
    next h => simp [h]
    next h => simp [h, ih]

theorem findIdx_eq_some_iff {i : Nat} :
    findIdx pat text = some i ↔
      i ≤ text.length ∧ pat <+: text.drop i ∧ ∀ j < i, ¬ pat <+: text.drop j := by
  induction text generalizing i with
  | nil =>
    rw [findIdx]
    rcases i with - | i
    · simp
    · simp
  | cons c text ih =>
    rw [findIdx]
    split
    next h =>
      -- an occurrence right here is the first one
      have hp : pat <+: c :: text := List.isPrefixOf_iff_prefix.mp h
      constructor
      · rintro ⟨rfl⟩
        exact ⟨by simp, hp, by simp⟩
      · rintro ⟨-, -, hmin⟩
        rcases i with - | i
        · rfl
        · exact absurd hp (hmin 0 (by omega))
    next h =>
      -- none here: the result and the earlier positions move by one
      have hp : ¬ pat <+: c :: text := fun hp => h (List.isPrefixOf_iff_prefix.mpr hp)
      rcases i with - | i
      · simp [hp]
      · simp only [Option.map_eq_some_iff, Nat.add_right_cancel_iff, exists_eq_right, ih,
          List.length_cons, Nat.add_le_add_iff_right, List.drop_succ_cons]
        refine and_congr_right fun _ => and_congr_right fun _ => ?_
        constructor
        · intro hmin j hj
          rcases j with - | j
          · exact hp
          · exact hmin j (by omega)
        · intro hmin j hj
          exact hmin (j + 1) (by omega)

/-! ### Texts put together from parts -/

theorem findIdx_append_of_eq_some {i : Nat} (h : findIdx pat text = some i) (more : List α) :
    findIdx pat (text ++ more) = some i := by
  obtain ⟨hi, hocc, hmin⟩ := findIdx_eq_some_iff.mp h
  refine findIdx_eq_some_iff.mpr ⟨by rw [List.length_append]; omega, ?_, ?_⟩
  · rw [List.drop_append_of_le_length hi]
    exact hocc.trans (List.prefix_append _ _)
  · intro j hj hocc'
    -- an earlier occurrence would end before the one at `i` does
    have hlen := hocc.length_le
    rw [List.length_drop] at hlen
    rw [List.drop_append_of_le_length (by omega)] at hocc'
    exact hmin j hj (List.prefix_of_prefix_length_le hocc' (List.prefix_append _ _)
      (by rw [List.length_drop]; omega))

theorem findIdx_append_of_notMem {a : α} (h : a ∉ text) (more : List α) :
    findIdx (a :: pat) (text ++ more) = (findIdx (a :: pat) more).map (· + text.length) := by
  induction text with
  | nil => simp
  | cons c text ih =>
    simp only [List.mem_cons, not_or] at h
    have hne : ¬ (a :: pat).isPrefixOf (c :: (text ++ more)) = true := by
      simp [List.isPrefixOf, h.1]
    rw [List.cons_append, findIdx, if_neg hne, ih h.2, Option.map_map]
    simp only [Function.comp_def, List.length_cons, Nat.add_assoc]

theorem findIdx_eq_none_of_notMem {a : α} (hp : a ∈ pat) (h : a ∉ text) : findIdx pat text = none :=
  findIdx_eq_none_iff.mpr fun hocc => h (hocc.subset hp)

/-- An occurrence cannot contain an element that the pattern does not have, so
after a text without one the search starts again behind that element. -/
theorem findIdx_append_cons {a : α} (ha : a ∉ pat) (hp : pat ≠ []) (h : findIdx pat text = none)
    (more : List α) :
    findIdx pat (text ++ a :: more) = (findIdx pat more).map (· + (text.length + 1)) := by
  induction text with
  | nil =>
    have hne : ¬ pat.isPrefixOf (a :: more) = true := by
      intro hpre
      rcases pat with - | ⟨b, pat⟩
      · exact hp rfl
      · obtain ⟨rfl, -⟩ := List.cons_prefix_cons.mp (List.isPrefixOf_iff_prefix.mp hpre)
        simp at ha
    rw [List.nil_append, findIdx, if_neg hne]
    rfl
  | cons c text ih =>
    rw [findIdx_eq_none_iff, List.infix_cons_iff, not_or] at h
    have hne : ¬ pat.isPrefixOf (c :: (text ++ a :: more)) = true := by
      intro hpre
      -- it ends before `a`, or `a` is one of its elements
      have hocc : pat <+: (c :: text) ++ a :: more := List.isPrefixOf_iff_prefix.mp hpre
      rcases List.prefix_or_prefix_of_prefix hocc (List.prefix_append _ _) with hin | ⟨t, rfl⟩
      · exact h.1 hin
      · rcases t with - | ⟨b, t⟩
        · exact h.1 (by rw [List.append_nil])
        · obtain ⟨rfl, -⟩ := List.cons_prefix_cons.mp ((List.prefix_append_right_inj _).mp hocc)
          simp at ha
    rw [List.cons_append, findIdx, if_neg hne, ih (findIdx_eq_none_iff.mpr h.2), Option.map_map]
    rfl

/-! ### Searching from a position -/

theorem find_zero (pat text : List α) : find pat text 0 = findIdx pat text := by
  rw [find, if_pos (Nat.zero_le _), List.drop_zero]
  exact Option.map_id'

theorem find_append_add (pat front text : List α) (pos : Nat) :
    find pat (front ++ text) (front.length + pos) = (find pat text pos).map (front.length + ·) := by
  unfold find
  rw [List.length_append, List.drop_length_add_append]
  by_cases hpos : pos ≤ text.length
  · rw [if_pos (by omega), if_pos hpos, Option.map_map]
    congr 1
    funext i
    simp only [Function.comp_apply]
    omega
  · rw [if_neg (by omega), if_neg hpos]
    rfl

theorem find_append_of_eq_some {pos i : Nat} (h : find pat text pos = some i) (more : List α) :
    find pat (text ++ more) pos = some i := by
  unfold find at h ⊢
  split at h
  next hpos =>
    obtain ⟨j, hj, rfl⟩ := Option.map_eq_some_iff.mp h
    rw [if_pos (by rw [List.length_append]; omega), List.drop_append_of_le_length hpos,
      findIdx_append_of_eq_some hj]
    rfl
  next => cases h

end ArkToolchain
