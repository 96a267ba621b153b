/-
Positions in a trace of events.

A machine that reads a trace is in state `stateAt step s events k` before event `k`; `Admits`
says that every event fits the state in which it happens, and `FirstAt P k` that `k` is the
first position at which `P` holds.  For machines whose state has a depth, `lowestAt` is the
smallest depth up to a position.  `Since P Q` says that `P` held before and `Q` has not held
since then.
-/
import Mathlib.Order.Lattice.Nat
import Mathlib.Data.List.TakeDrop
import Mathlib.Data.Nat.Find

namespace ArkToolchain

variable {σ E : Type*}

/-- The state before event `k`. -/
def stateAt (step : σ → E → σ) (s : σ) (events : List E) (k : Nat) : σ :=
  (events.take k).foldl step s

variable {step : σ → E → σ} {events : List E} {s : σ} {k : Nat}

theorem stateAt_succ {e : E} (he : events[k]? = some e) :
    stateAt step s events (k + 1) = step (stateAt step s events k) e := by
  simp only [stateAt, List.take_add_one, he, Option.toList_some, List.foldl_append,
    List.foldl_cons, List.foldl_nil]

theorem stateAt_succ_of_none (he : events[k]? = none) :
    stateAt step s events (k + 1) = stateAt step s events k := by
  simp only [stateAt, List.take_add_one, he, Option.toList_none, List.append_nil]

variable {P : σ → Prop}

theorem forall_stateAt_iff_le :
    (∀ k, P (stateAt step s events k)) ↔ ∀ k ≤ events.length, P (stateAt step s events k) := by
  constructor
  · intro h k _
    exact h k
  · intro h k
    have heq : stateAt step s events k = stateAt step s events (min k events.length) := by
      rw [stateAt, stateAt, ← List.take_eq_take_min]
    rw [heq]
    exact h _ (min_le_right k _)

theorem map_stateAt {τ : Type*} {step' : τ → E → τ} {f : σ → τ}
    (h : ∀ s e, f (step s e) = step' (f s) e) (s : σ) (events : List E) (k : Nat) :
    f (stateAt step s events k) = stateAt step' (f s) events k := by
  induction k with
  | zero => rfl
  | succ k ih =>
    rcases he : events[k]? with - | e
    · rw [stateAt_succ_of_none he, stateAt_succ_of_none he, ih]
    · rw [stateAt_succ he, stateAt_succ he, h, ih]

/-- Every event of the trace fits the state in which it happens. -/
def Admits (step : σ → E → σ) (Fits : σ → E → Prop) : σ → List E → Prop
  | _, [] => True
  | s, e :: events => Fits s e ∧ Admits step Fits (step s e) events

instance decidableAdmits (step : σ → E → σ) (Fits : σ → E → Prop)
    [∀ s e, Decidable (Fits s e)] : ∀ s events, Decidable (Admits step Fits s events)
  | _, [] => inferInstanceAs (Decidable True)
  | s, e :: events =>
    have := decidableAdmits step Fits (step s e) events
    inferInstanceAs (Decidable (Fits s e ∧ Admits step Fits (step s e) events))

variable {Fits : σ → E → Prop}

theorem Admits.fits {e : E} (h : Admits step Fits s events) (he : events[k]? = some e) :
    Fits (stateAt step s events k) e := by
  induction events generalizing s k with
  | nil => simp at he
  | cons e' events ih =>
    cases k with
    | zero =>
      obtain rfl : e' = e := by simpa using he
      exact h.1
    | succ k => exact ih h.2 (by simpa using he)

@[simp] theorem stateAt_zero (step : σ → E → σ) (s : σ) (events : List E) :
    stateAt step s events 0 = s := rfl

theorem stateAt_length (step : σ → E → σ) (s : σ) (events : List E) :
    stateAt step s events events.length = events.foldl step s := by
  rw [stateAt, List.take_length]

theorem stateAt_append_add (step : σ → E → σ) (s : σ) (events more : List E) (k : Nat) :
    stateAt step s (events ++ more) (events.length + k)
      = stateAt step (events.foldl step s) more k := by
  rw [stateAt, List.take_length_add_append, List.foldl_append, stateAt]

theorem admits_append {more : List E} :
    Admits step Fits s (events ++ more) ↔
      Admits step Fits s events ∧ Admits step Fits (events.foldl step s) more := by
  induction events generalizing s with
  | nil => exact ⟨fun h => ⟨trivial, h⟩, fun h => h.2⟩
  | cons e events ih =>
    rw [List.cons_append, Admits, Admits, ih, and_assoc]
    rfl

theorem Admits.take (h : Admits step Fits s events) (k : Nat) :
    Admits step Fits s (events.take k) := by
  rw [← List.take_append_drop k events] at h
  exact (admits_append.mp h).1

theorem Admits.and {Fits' : σ → E → Prop} (h : Admits step Fits s events)
    (h' : Admits step Fits' s events) : Admits step (fun s e => Fits s e ∧ Fits' s e) s events := by
  induction events generalizing s with
  | nil => trivial
  | cons e events ih => exact ⟨⟨h.1, h'.1⟩, ih h.2 h'.2⟩

theorem exists_first_misfit (h : ¬ Admits step Fits s events) :
    ∃ k e, events[k]? = some e ∧ Admits step Fits s (events.take k) ∧
      ¬ Fits (stateAt step s events k) e := by
  induction events generalizing s with
  | nil => exact absurd trivial h
  | cons e events ih =>
    by_cases hfits : Fits s e
    · have hrest : ¬ Admits step Fits (step s e) events := fun hrest => h ⟨hfits, hrest⟩
      obtain ⟨k, e', he', hfirst, hmisfit⟩ := ih hrest
      exact ⟨k + 1, e', by simpa using he', ⟨hfits, hfirst⟩, hmisfit⟩
    · exact ⟨0, e, rfl, trivial, hfits⟩

variable {I : σ → Prop}

theorem stateAt_invariant (hstep : ∀ s e, I s → I (step s e)) (hs : I s) (events : List E)
    (k : Nat) : I (stateAt step s events k) := by
  induction k with
  | zero => exact hs
  | succ k ih =>
    rcases he : events[k]? with - | e
    · rw [stateAt_succ_of_none he]
      exact ih
    · rw [stateAt_succ he]
      exact hstep _ e ih

/-- **Exact conditions on events**: if events that fit keep an invariant that
gives the property, and an event that does not fit destroys the property at
once, then the property holds throughout a trace exactly when every event
fits.  Only events that can happen (`A`) count. -/
theorem Admits.forall_stateAt_iff {A : σ → E → Prop} (hP : ∀ s, I s → P s)
    (hgood : ∀ s e, I s → A s e → Fits s e → I (step s e))
    (hbad : ∀ s e, I s → A s e → ¬ Fits s e → ¬ P (step s e)) (hs : I s)
    (hA : Admits step A s events) :
    (∀ k, P (stateAt step s events k)) ↔ Admits step Fits s events := by
  induction events generalizing s with
  | nil => exact ⟨fun _ => trivial, fun _ k => by simpa [stateAt] using hP s hs⟩
  | cons e events ih =>
    constructor
    · intro hall
      have hfits : Fits s e := by
        by_contra hfits
        exact hbad s e hs hA.1 hfits (hall 1)
      exact ⟨hfits, (ih (hgood s e hs hA.1 hfits) hA.2).mp fun k => hall (k + 1)⟩
    · rintro ⟨hfits, hrest⟩ k
      cases k with
      | zero => exact hP s hs
      | succ k => exact (ih (hgood s e hs hA.1 hfits) hA.2).mpr hrest k

theorem admits_true (step : σ → E → σ) (s : σ) (events : List E) :
    Admits step (fun _ _ => True) s events := by
  induction events generalizing s with
  | nil => trivial
  | cons e events ih => exact ⟨trivial, ih (step s e)⟩

theorem forall_stateAt_iff_admits (hP : ∀ s, I s → P s)
    (hgood : ∀ s e, I s → Fits s e → I (step s e)) (hbad : ∀ s e, I s → ¬ Fits s e → ¬ P (step s e))
    (hs : I s) (events : List E) : (∀ k, P (stateAt step s events k)) ↔ Admits step Fits s events :=
  Admits.forall_stateAt_iff hP (fun s e hI _ => hgood s e hI) (fun s e hI _ => hbad s e hI) hs
    (admits_true step s events)

/-- Along a trace whose events fit, an invariant that such events keep holds
before every event. -/
theorem Admits.invariant (hgood : ∀ s e, I s → Fits s e → I (step s e)) (hs : I s)
    (h : Admits step Fits s events) (k : Nat) : I (stateAt step s events k) := by
  induction events generalizing s k with
  | nil => simpa [stateAt] using hs
  | cons e events ih =>
    cases k with
    | zero => exact hs
    | succ k => exact ih (hgood s e hs h.1) h.2 k

theorem Admits.invariant_foldl (hgood : ∀ s e, I s → Fits s e → I (step s e)) (hs : I s)
    (h : Admits step Fits s events) : I (events.foldl step s) := by
  rw [← stateAt_length]
  exact h.invariant hgood hs events.length

/-- `k` is the first position at which the property holds. -/
def FirstAt (P : Nat → Prop) (k : Nat) : Prop :=
  P k ∧ ∀ j < k, ¬ P j

/-- **First times agree** when, as long as `P` has not been true, `P` becomes
true exactly where `Q` holds. -/
theorem firstAt_iff {P Q : Nat → Prop} (h : ∀ k, (∀ j < k, ¬ P j) → (P k ↔ Q k)) (k : Nat) :
    FirstAt P k ↔ FirstAt Q k := by
  -- up to the first `P` there is no `Q`, and the other way round
  have hno : ∀ n, (∀ j < n, ¬ P j) ↔ ∀ j < n, ¬ Q j := by
    intro n
    induction n with
    | zero => simp
    | succ n ih =>
      simp only [Nat.forall_lt_succ_right, ← ih]
      constructor
      · rintro ⟨hlt, hn⟩
        exact ⟨hlt, fun hq => hn ((h n hlt).mpr hq)⟩
      · rintro ⟨hlt, hn⟩
        exact ⟨hlt, fun hp => hn ((h n hlt).mp hp)⟩
  constructor
  · rintro ⟨hk, hlt⟩
    exact ⟨(h k hlt).mp hk, (hno k).mp hlt⟩
  · rintro ⟨hk, hlt⟩
    have hlt' := (hno k).mpr hlt
    exact ⟨(h k hlt').mpr hk, hlt'⟩

theorem exists_firstAt_le {P : Nat → Prop} (hk : P k) : ∃ j ≤ k, FirstAt P j := by
  classical
  refine ⟨Nat.find ⟨k, hk⟩, Nat.find_min' _ hk, Nat.find_spec ⟨k, hk⟩, ?_⟩
  intro j hj
  exact Nat.find_min ⟨k, hk⟩ hj

/-- A property that is narrower than another one comes true for the first time
at the same position if and only if it holds where the wider one first
does. -/
theorem forall_firstAt_iff_of_imp {P Q : Nat → Prop} (h : ∀ k, P k → Q k) :
    (∀ k, FirstAt P k ↔ FirstAt Q k) ↔ ∀ k, FirstAt Q k → P k := by
  constructor
  · intro hfirst k hk
    exact ((hfirst k).mpr hk).1
  · intro hP k
    constructor
    · -- where `Q` first holds `P` does too, so that is not before `k`
      rintro ⟨hk, hlt⟩
      obtain ⟨j, hj, hQj⟩ := exists_firstAt_le (h k hk)
      rcases Nat.lt_or_eq_of_le hj with hj | rfl
      · exact absurd (hP j hQj) (hlt j hj)
      · exact hQj
    · intro hk
      exact ⟨hP k hk, fun j hj hPj => hk.2 j hj (h j hPj)⟩

/-- `P` held at an earlier position, and `Q` at none after it. -/
def Since (P Q : Nat → Prop) (k : Nat) : Prop :=
  ∃ j < k, P j ∧ ∀ i, j < i → i < k → ¬ Q i

theorem since_succ {P Q : Nat → Prop} : Since P Q (k + 1) ↔ P k ∨ (Since P Q k ∧ ¬ Q k) := by
  constructor
  · rintro ⟨j, hj, hP, hQ⟩
    rcases Nat.lt_or_eq_of_le (Nat.lt_succ_iff.mp hj) with hlt | rfl
    · refine .inr ⟨⟨j, hlt, hP, fun i hji hik => hQ i hji (Nat.lt_succ_of_lt hik)⟩, ?_⟩
      exact hQ k hlt (Nat.lt_succ_self k)
    · exact .inl hP
  · rintro (hP | ⟨⟨j, hj, hP, hQ⟩, hk⟩)
    · exact ⟨k, Nat.lt_succ_self k, hP, fun i hki hik => absurd hki (by omega)⟩
    · refine ⟨j, Nat.lt_succ_of_lt hj, hP, fun i hji hik => ?_⟩
      rcases Nat.lt_or_eq_of_le (Nat.lt_succ_iff.mp hik) with hlt | rfl
      · exact hQ i hji hlt
      · exact hk

/-- Event `k` is related to the state in which it happens. -/
def EventAt (step : σ → E → σ) (s : σ) (events : List E) (R : σ → E → Prop) (k : Nat) : Prop :=
  ∃ e, events[k]? = some e ∧ R (stateAt step s events k) e

instance decidableEventAt (step : σ → E → σ) (s : σ) (events : List E) (R : σ → E → Prop)
    [∀ s e, Decidable (R s e)] (k : Nat) : Decidable (EventAt step s events R k) :=
  match h : events[k]? with
  | none => isFalse fun ⟨_, he, _⟩ => nomatch h.symm.trans he
  | some e => decidable_of_iff (R (stateAt step s events k) e)
      ⟨fun hR => ⟨e, h, hR⟩, fun ⟨_, he, hR⟩ => Option.some.inj (he.symm.trans h) ▸ hR⟩

variable {R : σ → E → Prop}

theorem eventAt_append_of_lt (hk : k < events.length) (more : List E) :
    EventAt step s (events ++ more) R k ↔ EventAt step s events R k := by
  unfold EventAt stateAt
  rw [List.getElem?_append_left hk, List.take_append_of_le_length (Nat.le_of_lt hk)]

theorem eventAt_append_add {more : List E} :
    EventAt step s (events ++ more) R (events.length + k) ↔
      EventAt step (events.foldl step s) more R k := by
  unfold EventAt
  rw [stateAt_append_add, List.getElem?_append_right (Nat.le_add_right _ _),
    Nat.add_sub_cancel_left]

/-- **What a machine holds** (`H`) has been added and not dropped since, if an
event that fits adds (`A`) what is new and leaves nothing of what it drops
(`D`). -/
theorem Admits.since {α : Type*} {H : σ → α → Prop} {A D : σ → E → α → Prop}
    (hgood : ∀ s e, I s → Fits s e → I (step s e))
    (hheld : ∀ s e a, I s → Fits s e → H (step s e) a → A s e a ∨ (H s a ∧ ¬ D s e a)) (hs : I s)
    (hnone : ∀ a, ¬ H s a) (h : Admits step Fits s events) {a : α}
    (ha : H (stateAt step s events k) a) :
    Since (EventAt step s events fun s e => A s e a)
      (EventAt step s events fun s e => D s e a) k := by
  induction k with
  | zero => exact absurd ha (hnone a)
  | succ k ih =>
    rw [since_succ]
    rcases he : events[k]? with - | e
    · rw [stateAt_succ_of_none he] at ha
      refine .inr ⟨ih ha, ?_⟩
      rintro ⟨e, he', -⟩
      rw [he] at he'
      cases he'
    · rw [stateAt_succ he] at ha
      rcases hheld _ e a (h.invariant hgood hs k) (h.fits he) ha with hadds | ⟨hkept, hdrops⟩
      · exact .inl ⟨e, he, hadds⟩
      · refine .inr ⟨ih hkept, ?_⟩
        rintro ⟨e', he', hdrops'⟩
        obtain rfl : e = e' := Option.some.inj (he.symm.trans he')
        exact hdrops hdrops'

/-- The smallest value of `depth` at the positions up to `k`. -/
def lowestAt (depth : Nat → Nat) : Nat → Nat
  | 0 => depth 0
  | k + 1 => min (lowestAt depth k) (depth (k + 1))

end ArkToolchain
