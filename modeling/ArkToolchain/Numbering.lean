/-
Numbers in a list and in the part of it that a predicate keeps.

The two numberings agree exactly if no element that is kept comes after one that is dropped
(`KeptFirst`).  Then the kept elements are the longest prefix whose elements are all kept.
-/
import Mathlib.Data.List.TakeWhile

namespace ArkToolchain

variable {α : Type*} {p : α → Bool} {l : List α}

theorem prefix_iff_forall_getElem? {l l' : List α} :
    l <+: l' ↔ ∀ (i : Nat) x, l[i]? = some x → l'[i]? = some x := by
  rw [List.prefix_iff_getElem?]
  constructor
  · intro h i x hx
    obtain ⟨hi, rfl⟩ := List.getElem?_eq_some_iff.mp hx
    exact h i hi
  · intro h i hi
    exact h i _ (List.getElem?_eq_getElem hi)

/-- What `p` keeps comes before what it drops. -/
def KeptFirst (p : α → Bool) (l : List α) : Prop :=
  l.Pairwise fun x y => p y = true → p x = true

instance decidableKeptFirst (p : α → Bool) (l : List α) : Decidable (KeptFirst p l) :=
  inferInstanceAs (Decidable (l.Pairwise _))

theorem keptFirst_cons {a : α} :
    KeptFirst p (a :: l) ↔ (∀ y ∈ l, p y = true → p a = true) ∧ KeptFirst p l :=
  List.pairwise_cons

theorem keptFirst_of_forall_not (h : ∀ x ∈ l, p x ≠ true) : KeptFirst p l :=
  List.pairwise_of_forall_mem_list fun _ _ y hy hpy => absurd hpy (h y hy)

theorem takeWhile_prefix_filter (p : α → Bool) (l : List α) : l.takeWhile p <+: l.filter p := by
  induction l with
  | nil => exact List.prefix_refl _
  | cons a l ih =>
    by_cases ha : p a = true
    · rw [List.takeWhile_cons_of_pos ha, List.filter_cons_of_pos ha]
      exact List.prefix_cons_inj a |>.mpr ih
    · rw [List.takeWhile_cons_of_neg ha]
      exact List.nil_prefix

theorem filter_eq_takeWhile_iff : l.filter p = l.takeWhile p ↔ KeptFirst p l := by
  induction l with
  | nil => exact ⟨fun _ => .nil, fun _ => rfl⟩
  | cons a l ih =>
    rw [keptFirst_cons]
    by_cases ha : p a = true
    · rw [List.takeWhile_cons_of_pos ha, List.filter_cons_of_pos ha, List.cons_inj_right, ih]
      exact ⟨fun h => ⟨fun _ _ _ => ha, h⟩, fun h => h.2⟩
    · rw [List.takeWhile_cons_of_neg ha, List.filter_cons_of_neg ha, List.filter_eq_nil_iff]
      constructor
      · intro hnone
        refine ⟨fun y hy hpy => absurd hpy (hnone y hy), ?_⟩
        exact keptFirst_of_forall_not hnone
      · intro h y hy hpy
        exact ha (h.1 y hy hpy)

theorem keptFirst_of_length_le (h : (l.filter p).length ≤ (l.takeWhile p).length) : KeptFirst p l :=
  filter_eq_takeWhile_iff.mp ((takeWhile_prefix_filter p l).eq_of_length_le h).symm

/-- If kept elements have a greater number among the kept ones than in the list,
there are none. -/
theorem forall_not_of_getElem?_add (d : Nat)
    (h : ∀ (i : Nat) x, l[i]? = some x → p x = true → (l.filter p)[i + (d + 1)]? = some x) :
    ∀ x ∈ l, p x ≠ true := by
  induction l generalizing d with
  | nil => exact nofun
  | cons a l ih =>
    by_cases ha : p a = true
    · rw [List.filter_cons_of_pos ha] at h
      have hl : ∀ x ∈ l, p x ≠ true := by
        refine ih d fun i x hx hpx => ?_
        have hi := h (i + 1) x hx hpx
        rwa [show i + 1 + (d + 1) = i + (d + 1) + 1 by omega, List.getElem?_cons_succ] at hi
      -- `a` itself would have to be kept once more
      have hnil : l.filter p = [] := List.filter_eq_nil_iff.mpr hl
      have hhead := h 0 a rfl ha
      rw [hnil, show 0 + (d + 1) = d + 1 by omega, List.getElem?_cons_succ] at hhead
      cases hhead
    · rw [List.filter_cons_of_neg ha] at h
      intro x hx
      rcases List.mem_cons.mp hx with rfl | hx
      · exact ha
      · refine ih (d + 1) (fun i y hy hpy => ?_) x hx
        rw [show i + (d + 1 + 1) = i + 1 + (d + 1) by omega]
        exact h (i + 1) y hy hpy

/-- **Numbers agree** exactly if the kept elements come first. -/
theorem keptFirst_iff_getElem? :
    KeptFirst p l ↔ ∀ (i : Nat) x, l[i]? = some x → p x = true → (l.filter p)[i]? = some x := by
  induction l with
  | nil => exact ⟨fun _ => nofun, fun _ => .nil⟩
  | cons a l ih =>
    rw [keptFirst_cons]
    by_cases ha : p a = true
    · rw [List.filter_cons_of_pos ha, ih]
      constructor
      · intro h i x hx hpx
        cases i with
        | zero => exact hx
        | succ i => exact h.2 i x hx hpx
      · intro h
        exact ⟨fun _ _ _ => ha, fun i x hx hpx => h (i + 1) x hx hpx⟩
    · rw [List.filter_cons_of_neg ha]
      constructor
      · intro h i x hx hpx
        cases i with
        | zero =>
          cases hx
          exact absurd hpx ha
        | succ i => exact absurd (h.1 x (List.mem_of_getElem? hx) hpx) ha
      · intro h
        have hl : ∀ x ∈ l, p x ≠ true :=
          forall_not_of_getElem?_add 0 fun i x hx hpx => h (i + 1) x hx hpx
        refine ⟨fun y hy hpy => absurd hpy (hl y hy), ?_⟩
        exact keptFirst_of_forall_not hl

end ArkToolchain
