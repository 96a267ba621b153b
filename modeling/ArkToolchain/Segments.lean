/-
A stream cut into segments.

A read that asks for `n` elements gets between one and `n` of them.  The stream is the list of
the pieces still to come; an empty piece stands for a read that was interrupted and is tried
again. `readExact`, the usual loop around `readSome`, sees only the concatenation of the pieces.
-/
import Mathlib.Data.List.Basic

namespace ArkToolchain

variable {α : Type*}

/-- One read of at most `n` elements; it returns nothing only at the end of
the stream. -/
def readSome (n : Nat) : List (List α) → List α × List (List α)
  | [] => ([], [])
  | [] :: ss => readSome n ss
  | (a :: as) :: ss =>
    if (a :: as).length ≤ n then (a :: as, ss)
    else ((a :: as).take n, (a :: as).drop n :: ss)

/-- Read until `n` elements have arrived or the stream has ended; every round
brings at least one element, so `fuel = n` rounds are enough. -/
def readLoop : Nat → Nat → List (List α) → List α × List (List α)
  | 0, _, ss => ([], ss)
  | fuel + 1, n, ss =>
    if n = 0 then ([], ss)
    else
      let r := readSome n ss
      if r.1.length = 0 then ([], r.2)
      else
        let r' := readLoop fuel (n - r.1.length) r.2
        (r.1 ++ r'.1, r'.2)

def readExact (n : Nat) (ss : List (List α)) : List α × List (List α) :=
  readLoop n n ss

/-! ### One read -/

variable (n : Nat) (ss : List (List α))

theorem readSome_append_flatten : (readSome n ss).1 ++ (readSome n ss).2.flatten = ss.flatten := by
  fun_induction readSome n ss with
  | case1 | case3 => rfl
  | case2 ss ih => exact ih
  | case4 => rw [List.flatten_cons, ← List.append_assoc, List.take_append_drop, List.flatten_cons]

theorem readSome_cons {n : Nat} {s : List α} (hne : s ≠ []) (hlen : s.length ≤ n)
    (ss : List (List α)) : readSome n (s :: ss) = (s, ss) := by
  rcases s with - | ⟨a, as⟩
  · exact absurd rfl hne
  · rw [readSome, if_pos hlen]

/-- The first read of a stream that is cut after `j` elements. -/
theorem readSome_take_drop {n j : Nat} {s : List α} (hs : s ≠ []) (hj : 0 < j) (hjn : j ≤ n) :
    readSome n [s.take j, s.drop j] = (s.take j, [s.drop j]) := by
  apply readSome_cons
  · intro h
    rcases List.take_eq_nil_iff.mp h with h | h
    · omega
    · exact hs h
  · rw [List.length_take]
    omega

theorem length_readSome_le : (readSome n ss).1.length ≤ n := by
  fun_induction readSome n ss with
  | case1 => exact Nat.zero_le n
  | case2 ss ih => exact ih
  | case3 a as ss h => exact h
  | case4 => exact List.length_take_le _ _

theorem readSome_fst : (readSome n ss).1 = ss.flatten.take (readSome n ss).1.length := by
  have h := readSome_append_flatten n ss
  rw [← h, List.take_left']
  rfl

theorem readSome_snd : (readSome n ss).2.flatten = ss.flatten.drop (readSome n ss).1.length := by
  have h := readSome_append_flatten n ss
  rw [← h, List.drop_left']
  rfl

/-- A read that asks for something comes back empty exactly at the end of the
stream. -/
theorem readSome_fst_eq_nil_iff {n : Nat} (hn : 0 < n) (ss : List (List α)) :
    (readSome n ss).1 = [] ↔ ss.flatten = [] := by
  fun_induction readSome n ss with
  | case1 => simp
  | case2 ss ih => exact ih
  | case3 => simp
  | case4 => simp [Nat.pos_iff_ne_zero.mp hn]

/-! ### The loop -/

theorem readLoop_spec (fuel n : Nat) (hfuel : n ≤ fuel) (ss : List (List α)) :
    (readLoop fuel n ss).1 = ss.flatten.take n ∧
      (readLoop fuel n ss).2.flatten = ss.flatten.drop n := by
  induction fuel generalizing n ss with
  | zero =>
    obtain rfl : n = 0 := by omega
    simp [readLoop]
  | succ fuel ih =>
    by_cases hn : n = 0
    · subst hn
      simp [readLoop]
    -- what one round reads and what it leaves make up the stream
    have hcut := readSome_append_flatten n ss
    have hle := length_readSome_le n ss
    by_cases hr : (readSome n ss).1.length = 0
    · -- the stream has ended: nothing is left to take or to drop
      have hnil : ss.flatten = [] :=
        (readSome_fst_eq_nil_iff (by omega) ss).mp (List.eq_nil_of_length_eq_zero hr)
      have hrest : (readSome n ss).2.flatten = [] := by
        rw [readSome_snd, hnil]
        simp
      simp only [readLoop, if_neg hn, if_pos hr, hnil, hrest]
      simp
    · -- one round, then the induction hypothesis on the remaining count
      obtain ⟨ih₁, ih₂⟩ := ih (n - (readSome n ss).1.length) (by omega) (readSome n ss).2
      simp only [readLoop, if_neg hn, if_neg hr, ih₁, ih₂]
      rw [← hcut]
      generalize (readSome n ss).1 = got at hle ⊢
      generalize (readSome n ss).2.flatten = rest
      constructor
      · rw [List.take_append, List.take_of_length_le hle]
      · rw [List.drop_append, List.drop_of_length_le hle, List.nil_append]

/-- The loop delivers the first `n` elements of the stream, or all of it. -/
theorem readExact_fst : (readExact n ss).1 = ss.flatten.take n :=
  (readLoop_spec n n (Nat.le_refl n) ss).1

theorem readExact_snd : (readExact n ss).2.flatten = ss.flatten.drop n :=
  (readLoop_spec n n (Nat.le_refl n) ss).2

end ArkToolchain
