/-
Threads that take and release locks, in shared or in exclusive mode.

A program is given by what an agent wants at each of its program counters, what it does there if
it wants nothing, and what it holds there.  The table of the locks that are held is a part of
the state; the laws of `LockProgram` say that the counters know it.  There is no cycle of
waiting agents if everyone waits for lower ranks only (`not_deadlocked_of_rank`).
-/
import ArkToolchain.Interleaving
import Mathlib.Logic.Relation

namespace ArkToolchain

inductive LockMode
  | shared
  | exclusive
  deriving DecidableEq

/-- Two agents can hold a lock together if both have it in shared mode. -/
def LockMode.compatible : LockMode → LockMode → Bool
  | .shared, .shared => true
  | _, _ => false

variable (m : LockMode)

@[simp] theorem LockMode.exclusive_compatible : LockMode.exclusive.compatible m = false := rfl

theorem LockMode.compatible_comm (m' : LockMode) : m.compatible m' = m'.compatible m := by
  cases m <;> cases m' <;> rfl

/-- The locks that are held, by whom and how, and what else the agents share. -/
structure LockState (A R D : Type*) where
  held : List (A × R × LockMode) := []
  data : D

namespace LockState

variable {A R D : Type*} [DecidableEq A] [DecidableEq R]

/-- Nobody holds the lock in a mode that is not compatible. -/
def free (sh : LockState A R D) (x : R × LockMode) : Bool :=
  sh.held.all fun e => e.2.1 ≠ x.1 || x.2.compatible e.2.2

/-- The locks that are held after `a` has released one, or none. -/
def released (sh : LockState A R D) (a : A) : Option (R × LockMode) → List (A × R × LockMode)
  | none => sh.held
  | some x => sh.held.filter (· ≠ (a, x))

variable {sh : LockState A R D} {x : R × LockMode}

omit [DecidableEq A] in
theorem free_iff : sh.free x = true ↔ ∀ b m, (b, x.1, m) ∈ sh.held → x.2.compatible m = true := by
  rw [free, List.all_eq_true]
  constructor
  · intro h b m hb
    have := h _ hb
    simpa using this
  · rintro h ⟨b, r, m⟩ hb
    by_cases hr : r = x.1
    · subst hr
      simp [h b m hb]
    · simp [hr]

theorem mem_released {a b : A} {rel : Option (R × LockMode)} :
    (b, x) ∈ sh.released a rel ↔ (b, x) ∈ sh.held ∧ ¬ (b = a ∧ rel = some x) := by
  rcases rel with - | y
  · simp [released]
  · simp only [released, List.mem_filter, decide_eq_true_eq, ne_eq, Prod.mk.injEq,
      Option.some.injEq]
    rw [eq_comm (a := y)]

end LockState

/-- A program over locks `R` and data `D`.  At a counter where `wants` is
`some (x, p)` the agent takes the lock and mode `x` and goes on at `p`; at the
others `act` says what it does to the data, which lock it releases and where
it goes on.  `awaits` names the agent whose action is waited for.  Locks are
released in the reverse order. -/
structure LockProgram (A R D Pc In : Type*) where
  wants : A → Pc → Option ((R × LockMode) × Pc)
  act : A → D → Pc → In → Option (D × Option (R × LockMode) × Pc)
  awaits : A → D → Pc → Option A
  holds : A → Pc → List (R × LockMode)
  holds_wants : ∀ {a pc x pc'}, wants a pc = some (x, pc') → holds a pc' = x :: holds a pc
  holds_act : ∀ {a d pc i d' rel pc'}, act a d pc i = some (d', rel, pc') →
    holds a pc = rel.toList ++ holds a pc' ∧ ∀ x ∈ rel, x ∉ holds a pc'

namespace LockProgram

variable {A R D Pc In : Type*} [DecidableEq A] [DecidableEq R]
variable (prog : LockProgram A R D Pc In)

/-- One atomic step: to take a lock, or to act. -/
def next (a : A) (sh : LockState A R D) (pc : Pc) (i : In) : Option (LockState A R D × Pc) :=
  match prog.wants a pc with
  | some (x, pc') =>
    if sh.free x then some ({ sh with held := (a, x) :: sh.held }, pc') else none
  | none =>
    (prog.act a sh.data pc i).map fun r =>
      ({ held := sh.released a r.2.1, data := r.1 }, r.2.2)

/-- The states of the program. -/
abbrev States (_ : LockProgram A R D Pc In) := Threads A (LockState A R D) Pc

variable {prog} {s s' : prog.States} {a b : A} {i : In} {pc pc' : Pc}

theorem next_eq_some {sh sh' : LockState A R D} (h : prog.next a sh pc i = some (sh', pc')) :
    (∃ x, prog.wants a pc = some (x, pc') ∧ sh.free x = true ∧
        sh' = { sh with held := (a, x) :: sh.held }) ∨
      (prog.wants a pc = none ∧ ∃ d rel, prog.act a sh.data pc i = some (d, rel, pc') ∧
        sh' = { held := sh.released a rel, data := d }) := by
  unfold next at h
  rcases hw : prog.wants a pc with - | ⟨x, p⟩
  · rw [hw] at h
    obtain ⟨⟨d, rel, p⟩, hact, heq⟩ := Option.map_eq_some_iff.mp h
    obtain ⟨rfl, rfl⟩ := Prod.mk.inj heq
    exact .inr ⟨rfl, d, rel, hact, rfl⟩
  · rw [hw] at h
    obtain ⟨hfree, heq⟩ := Option.ite_none_right_eq_some.mp h
    cases heq
    exact .inl ⟨x, rfl, hfree, rfl⟩

/-! ### The table of locks -/

omit [DecidableEq A] [DecidableEq R] in
theorem mem_holds_of_act {d d' : D} {rel : Option (R × LockMode)}
    (h : prog.act a d pc i = some (d', rel, pc')) (x : R × LockMode) :
    x ∈ prog.holds a pc' ↔ x ∈ prog.holds a pc ∧ rel ≠ some x := by
  obtain ⟨heq, hnot⟩ := prog.holds_act h
  rw [heq]
  rcases rel with - | y
  · simp
  · have hy : y ∉ prog.holds a pc' := hnot y rfl
    constructor
    · intro hx
      refine ⟨by simp [hx], ?_⟩
      rintro ⟨⟩
      exact hy hx
    · rintro ⟨hx, hne⟩
      rcases List.mem_cons.mp hx with rfl | hx
      · exact absurd rfl hne
      · exact hx

variable (prog) in
/-- The table agrees with the program counters, and two entries for one lock
are compatible. -/
structure Consistent (s : prog.States) : Prop where
  agrees : ∀ a x, (a, x) ∈ s.shared.held ↔ x ∈ prog.holds a (s.pcs a)
  exclusive : ∀ a b r m m', (a, r, m) ∈ s.shared.held → (b, r, m') ∈ s.shared.held →
    m.compatible m' = true ∨ (a = b ∧ m = m')

omit [DecidableEq R] in
/-- The table agrees with the counters after a step of `a` if it does so for
`a` and has not changed for the others. -/
theorem Consistent.agrees_update (hs : prog.Consistent s) {held : List (A × R × LockMode)}
    (hown : ∀ x, (a, x) ∈ held ↔ x ∈ prog.holds a pc)
    (hothers : ∀ b x, b ≠ a → ((b, x) ∈ held ↔ (b, x) ∈ s.shared.held)) (b : A) (x : R × LockMode) :
    (b, x) ∈ held ↔ x ∈ prog.holds b (Function.update s.pcs a pc b) := by
  by_cases hb : b = a
  · subst hb
    rw [Function.update_self]
    exact hown x
  · rw [Function.update_of_ne hb, hothers b x hb]
    exact hs.agrees b x

/-- **The table of locks** stays consistent. -/
theorem Consistent.step (hs : prog.Consistent s) (h : s.step prog.next a i = some s') :
    prog.Consistent s' := by
  obtain ⟨sh, pc, hn, rfl⟩ := Threads.step_eq_some h
  obtain ⟨⟨r, m⟩, hw, hfree, rfl⟩ | ⟨-, d, rel, hact, rfl⟩ := next_eq_some hn
  · constructor
    · apply hs.agrees_update
      · intro x
        simp [prog.holds_wants hw, hs.agrees a x]
      · intro b x hb
        simp [hb]
    · -- a new entry is compatible with the old ones, since the lock was free
      rw [LockState.free_iff] at hfree
      intro b c r' m₁ m₂ h₁ h₂
      rcases List.mem_cons.mp h₁ with h₁ | h₁ <;> rcases List.mem_cons.mp h₂ with h₂ | h₂
      · cases h₁
        cases h₂
        exact .inr ⟨rfl, rfl⟩
      · cases h₁
        exact .inl (hfree c m₂ h₂)
      · cases h₂
        rw [LockMode.compatible_comm]
        exact .inl (hfree b m₁ h₁)
      · exact hs.exclusive b c r' m₁ m₂ h₁ h₂
  · constructor
    · apply hs.agrees_update
      · intro x
        rw [LockState.mem_released, mem_holds_of_act hact, ← hs.agrees a x]
        simp
      · intro b x hb
        rw [LockState.mem_released]
        simp [hb]
    · intro b c r m₁ m₂ h₁ h₂
      exact hs.exclusive b c r m₁ m₂ (LockState.mem_released.mp h₁).1
        (LockState.mem_released.mp h₂).1

omit [DecidableEq A] [DecidableEq R] in
theorem Consistent.eq_of_holds (hs : prog.Consistent s) {r : R} {m : LockMode}
    (ha : (r, .exclusive) ∈ prog.holds a (s.pcs a)) (hb : (r, m) ∈ prog.holds b (s.pcs b)) :
    a = b := by
  rcases hs.exclusive a b r _ m ((hs.agrees a _).mpr ha) ((hs.agrees b _).mpr hb) with h | h
  · exact absurd h (by simp)
  · exact h.1

omit [DecidableEq A] [DecidableEq R] in
theorem consistent_of_holds_nil (hheld : s.shared.held = [])
    (hpcs : ∀ a, prog.holds a (s.pcs a) = []) : prog.Consistent s := by
  constructor
  · intro a x
    simp [hheld, hpcs]
  · intro a b r m m' h
    simp [hheld] at h

/-! ### Waiting -/

variable (prog) in
/-- `a` wants a lock that `b` holds in a mode that is not compatible, or awaits
an action of `b`. -/
def WaitsFor (s : prog.States) (a b : A) : Prop :=
  (∃ r m pc m', prog.wants a (s.pcs a) = some ((r, m), pc) ∧ (b, r, m') ∈ s.shared.held ∧
      m.compatible m' = false) ∨
    prog.awaits a s.shared.data (s.pcs a) = some b

variable (prog) in
/-- There is a cycle of agents each of which waits for the next. -/
def Deadlocked (s : prog.States) : Prop :=
  ∃ a, Relation.TransGen (prog.WaitsFor s) a a

omit [DecidableEq A] [DecidableEq R] in
/-- **Ranks** that decrease along waiting rule out deadlocks. -/
theorem not_deadlocked_of_rank (rank : A → Nat)
    (hrank : ∀ a b, prog.WaitsFor s a b → rank b < rank a) : ¬ prog.Deadlocked s := by
  rintro ⟨a, hcycle⟩
  have hlt : ∀ b, Relation.TransGen (prog.WaitsFor s) a b → rank b < rank a := by
    intro b hb
    induction hb with
    | single h => exact hrank _ _ h
    | tail _ h ih => exact Nat.lt_trans (hrank _ _ h) ih
  exact Nat.lt_irrefl _ (hlt a hcycle)

end LockProgram

end ArkToolchain
