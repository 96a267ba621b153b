/-
Computations that only extend a state.

A table from which nothing is taken away grows along an order, and what is known about one of
its entries stays true.  `Extends I P m Q` says that `m`, run with the invariant `I` and with
`P`, extends the state, keeps `I` and ends with `Q`; nothing has to be said about the entries
that it does not touch.
-/
import Mathlib.Order.BoundedOrder.Monotone
import Mathlib.Data.List.Forall2

namespace ArkToolchain

universe u v

variable {S α β : Type u} {ι : Type v} [Preorder S]

theorem forall_mem_of_forall₂ {R : ι → β → Prop} {p : β → Prop} {xs : List ι} {bs : List β}
    (h : List.Forall₂ R xs bs) (hp : ∀ i b, R i b → p b) : ∀ b ∈ bs, p b := by
  induction h with
  | nil => nofun
  | cons hb _ ih => exact List.forall_mem_cons.mpr ⟨hp _ _ hb, ih⟩

/-- `m` extends the state, keeps `I`, and leads from `P` to `Q`. -/
def Extends (I P : S → Prop) (m : StateM S α) (Q : α → S → Prop) : Prop :=
  ∀ s, I s → P s → s ≤ (m s).2 ∧ I (m s).2 ∧ Q (m s).1 (m s).2

namespace Extends

variable {I P P' : S → Prop} {m : StateM S α} {Q Q' : α → S → Prop} {R : β → S → Prop}

theorem of_pure {a : α} (h : ∀ s, I s → P s → Q a s) : Extends I P (pure a) Q :=
  fun s hI hP => ⟨le_refl s, hI, h s hI hP⟩

theorem weaken (h : Extends I P m Q) (hP : ∀ s, P' s → P s) (hQ : ∀ a s, Q a s → Q' a s) :
    Extends I P' m Q' := by
  intro s hI hs
  obtain ⟨hle, hI', hQs⟩ := h s hI (hP s hs)
  exact ⟨hle, hI', hQ _ _ hQs⟩

theorem keep (hP : Monotone P) (h : Extends I P m Q) : Extends I P m fun a s => P s ∧ Q a s := by
  intro s hI hs
  obtain ⟨hle, hI', hQ⟩ := h s hI hs
  exact ⟨hle, hI', hP hle hs, hQ⟩

theorem of_exists {p : ι → S → Prop} (h : ∀ i, Extends I (p i) m Q) :
    Extends I (fun s => ∃ i, p i s) m Q := by
  rintro s hI ⟨i, hi⟩
  exact h i s hI hi

/-- **Sequencing**: what was known stays known. -/
theorem bind {f : α → StateM S β} (hP : Monotone P) (hm : Extends I P m Q)
    (hf : ∀ a, Extends I (fun s => P s ∧ Q a s) (f a) R) : Extends I P (m >>= f) R := by
  intro s hI hs
  obtain ⟨hle, hI', hQ⟩ := hm s hI hs
  obtain ⟨hle', hI'', hR⟩ := hf (m s).1 (m s).2 hI' ⟨hP hle hs, hQ⟩
  exact ⟨hle.trans hle', hI'', hR⟩

theorem map {f : α → β} (hm : Extends I P m Q) (hf : ∀ a s, Q a s → R (f a) s) :
    Extends I P (f <$> m) R := by
  intro s hI hs
  obtain ⟨hle, hI', hQ⟩ := hm s hI hs
  exact ⟨hle, hI', hf _ _ hQ⟩

/-- **Loops**: each result is found for its argument. -/
theorem mapM {f : ι → StateM S β} {q : ι → β → S → Prop} (hP : Monotone P)
    (hq : ∀ i b, Monotone (q i b)) {xs : List ι} (hf : ∀ i ∈ xs, Extends I P (f i) (q i)) :
    Extends I P (xs.mapM f) fun bs s => List.Forall₂ (fun i b => q i b s) xs bs := by
  induction xs with
  | nil =>
    rw [List.mapM_nil]
    exact of_pure fun _ _ _ => .nil
  | cons i xs ih =>
    rw [List.mapM_cons]
    apply bind hP (hf i List.mem_cons_self)
    intro b
    -- the first result is carried through the rest of the loop
    have hrest := ih fun i' hi' => hf i' (List.mem_cons_of_mem i hi')
    refine bind (monotone_and hP (hq i b)) (hrest.weaken (fun s h => h.1) fun _ _ h => h) ?_
    intro bs
    exact of_pure fun s _ h => .cons h.1.2 h.2

end Extends

end ArkToolchain
