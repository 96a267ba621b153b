/-
Programs that can fail, with and without a state.

`Yields x P`: `x` does not fail, and `P` holds of its result.  `Ends m Q s` is the weakest
precondition of total correctness.  There is an exact rule for every way of putting programs
together, so that `simp` turns a program into the condition under which it does what is wanted.
-/
import ArkToolchain.Bytes

namespace ArkToolchain

variable {σ ε α β : Type}

/-! ### Without a state -/

/-- There is a result, and `P` holds of it. -/
def Yields (x : Except ε α) (P : α → Prop) : Prop :=
  match x with
  | .ok a => P a
  | .error _ => False

instance (x : Except ε α) (P : α → Prop) [DecidablePred P] : Decidable (Yields x P) :=
  match x with
  | .ok a => inferInstanceAs (Decidable (P a))
  | .error _ => isFalse id

section Yields

variable {x : Except ε α} {P P' : α → Prop} {a : α}

@[simp] theorem yields_ok : Yields (.ok a : Except ε α) P ↔ P a :=
  Iff.rfl

@[simp] theorem yields_error {e : ε} : ¬ Yields (.error e : Except ε α) P :=
  id

theorem yields_iff : Yields x P ↔ ∃ a, x = .ok a ∧ P a := by
  rcases x with e | a
  · simp
  · simp

theorem Yields.imp (h : Yields x P) (himp : ∀ a, x = .ok a → P a → P' a) : Yields x P' := by
  obtain ⟨a, hx, ha⟩ := yields_iff.mp h
  exact yields_iff.mpr ⟨a, hx, himp a hx ha⟩

theorem yields_congr (h : ∀ a, x = .ok a → (P a ↔ P' a)) : Yields x P ↔ Yields x P' :=
  ⟨fun hx => hx.imp fun a ha => (h a ha).mp, fun hx => hx.imp fun a ha => (h a ha).mpr⟩

theorem yields_and_const {p : Prop} : Yields x (fun a => P a ∧ p) ↔ Yields x P ∧ p := by
  rcases x with e | a
  · simp
  · simp

@[simp] theorem yields_pure : Yields (pure a : Except ε α) P ↔ P a :=
  Iff.rfl

variable {y : Except ε β} {f : β → Except ε α}

@[simp] theorem yields_bind : Yields (y >>= f) P ↔ Yields y fun b => Yields (f b) P := by
  rcases y with e | b
  · rfl
  · rfl

@[simp] theorem yields_map {f : β → α} : Yields (f <$> y) P ↔ Yields y fun b => P (f b) := by
  rcases y with e | b
  · rfl
  · rfl

@[simp] theorem yields_exceptMap {f : β → α} : Yields (y.map f) P ↔ Yields y fun b => P (f b) :=
  yields_map

@[simp] theorem yields_ite {p : Prop} [Decidable p] {x' : Except ε α} :
    Yields (if p then x else x') P ↔ (p → Yields x P) ∧ (¬ p → Yields x' P) := by
  split
  all_goals
    rename_i h
    simp [h]

theorem bind_eq_ok_iff : y >>= f = .ok a ↔ ∃ b, y = .ok b ∧ f b = .ok a := by
  rcases y with e | b
  · exact iff_of_false (fun h => by cases h) (by simp)
  · constructor
    · exact fun h => ⟨b, rfl, h⟩
    · rintro ⟨b', hb, h⟩
      cases hb
      exact h

/-- A loop whose steps fail or not whatever the state is. -/
theorem yields_foldlM {step : σ → β → Except ε σ} {Ok : β → Prop}
    (h : ∀ s b, Yields (step s b) (fun _ => True) ↔ Ok b) {l : List β} {s : σ} :
    Yields (l.foldlM step s) (fun _ => True) ↔ ∀ b ∈ l, Ok b := by
  induction l generalizing s with
  | nil => simp
  | cons b l ih =>
    rw [List.foldlM_cons, yields_bind, yields_congr fun s' _ => ih, List.forall_mem_cons, ← h s b,
      ← yields_and_const]
    simp only [true_and]

end Yields

/-! ### With a state -/

/-- The program does not fail, and `Q` holds in the end. -/
def Ends (m : StateT σ (Except ε) α) (Q : α → σ → Prop) (s : σ) : Prop :=
  Yields (m.run s) fun r => Q r.1 r.2

variable {Q : α → σ → Prop} {s : σ}

@[simp] theorem ends_pure {a : α} : Ends (pure a : StateT σ (Except ε) α) Q s ↔ Q a s :=
  Iff.rfl

variable {m : StateT σ (Except ε) β}

@[simp] theorem ends_bind {f : β → StateT σ (Except ε) α} :
    Ends (m >>= f) Q s ↔ Ends m (fun b s' => Ends (f b) Q s') s := by
  unfold Ends
  rw [StateT.run_bind, yields_bind]

@[simp] theorem ends_map {f : β → α} : Ends (f <$> m) Q s ↔ Ends m (fun b s' => Q (f b) s') s := by
  rw [map_eq_pure_bind, ends_bind]
  rfl

@[simp] theorem ends_get {Q : σ → σ → Prop} : Ends (get : StateT σ (Except ε) σ) Q s ↔ Q s s :=
  Iff.rfl

@[simp] theorem ends_liftM {x : Except ε α} :
    Ends (liftM x : StateT σ (Except ε) α) Q s ↔ Yields x fun a => Q a s := by
  rcases x with e | a
  · rfl
  · rfl

@[simp] theorem ends_ite {p : Prop} [Decidable p] {m m' : StateT σ (Except ε) α} :
    Ends (if p then m else m') Q s ↔ (p → Ends m Q s) ∧ (¬ p → Ends m' Q s) := by
  split
  all_goals
    rename_i h
    simp [h]

end ArkToolchain
