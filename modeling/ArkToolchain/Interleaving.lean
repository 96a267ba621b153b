/-
Threads that share a state.

A thread is a program counter; `next` says what one atomic step of thread `t` does to the shared
state and to its own counter, given what the environment supplies.  A run interleaves such steps
in any order.  The rules are for invariants of runs.
-/
import Mathlib.Logic.Function.Basic

namespace ArkToolchain

/-- A shared state and a program counter for each thread. -/
structure Threads (Θ Sh Pc : Type*) where
  shared : Sh
  pcs : Θ → Pc

namespace Threads

variable {Θ Sh Pc In : Type*} [DecidableEq Θ]
variable (next : Θ → Sh → Pc → In → Option (Sh × Pc))

/-- One step of thread `t`. -/
def step (s : Threads Θ Sh Pc) (t : Θ) (i : In) : Option (Threads Θ Sh Pc) :=
  (next t s.shared (s.pcs t) i).map fun r =>
    { shared := r.1, pcs := Function.update s.pcs t r.2 }

def run : Threads Θ Sh Pc → List (Θ × In) → Option (Threads Θ Sh Pc)
  | s, [] => some s
  | s, (t, i) :: schedule => (s.step next t i).bind fun s' => s'.run schedule

/-- `s'` is the end of some interleaving that starts in `s`. -/
def Reaches (s s' : Threads Θ Sh Pc) : Prop :=
  ∃ schedule, s.run next schedule = some s'

variable {next} {s s' s'' : Threads Θ Sh Pc} {t : Θ} {i : In}

theorem step_eq_some (h : s.step next t i = some s') :
    ∃ sh pc, next t s.shared (s.pcs t) i = some (sh, pc) ∧
      s' = { shared := sh, pcs := Function.update s.pcs t pc } := by
  obtain ⟨⟨sh, pc⟩, hn, rfl⟩ := Option.map_eq_some_iff.mp h
  exact ⟨sh, pc, hn, rfl⟩

/-- **Invariants**: what every step preserves is preserved by every run. -/
theorem Reaches.invariant {P : Threads Θ Sh Pc → Prop}
    (hstep : ∀ s t i s', P s → s.step next t i = some s' → P s') (h : Reaches next s s')
    (hs : P s) : P s' := by
  obtain ⟨es, hes⟩ := h
  induction es generalizing s with
  | nil =>
    obtain rfl : s = s' := Option.some.inj hes
    exact hs
  | cons e es ih =>
    obtain ⟨s₁, hs₁, hes⟩ := Option.bind_eq_some_iff.mp hes
    exact ih (hstep s e.1 e.2 s₁ hs hs₁) hes

/-! ### Conditions on the steps of a run -/

variable (next) in
/-- `P` holds of every state that the run passes through. -/
def Always (P : Threads Θ Sh Pc → Prop) : Threads Θ Sh Pc → List (Θ × In) → Prop
  | s, [] => P s
  | s, (t, i) :: schedule => P s ∧ ∀ s', s.step next t i = some s' → Always P s' schedule

variable (next) in
/-- `Q` holds of every step that the run makes. -/
def EachStep (Q : Threads Θ Sh Pc → Θ → In → Prop) : Threads Θ Sh Pc → List (Θ × In) → Prop
  | _, [] => True
  | s, (t, i) :: schedule =>
    ∀ s', s.step next t i = some s' → Q s t i ∧ EachStep Q s' schedule

/-- Whether every step meets a condition can be run. -/
instance decidableEachStep {Q : Threads Θ Sh Pc → Θ → In → Prop} [∀ s t i, Decidable (Q s t i)] :
    ∀ (s : Threads Θ Sh Pc) (schedule : List (Θ × In)), Decidable (EachStep next Q s schedule)
  | _, [] => isTrue trivial
  | s, (t, i) :: schedule =>
    match h : s.step next t i with
    | none => isTrue fun _ hs' => absurd (h.symm.trans hs') (by simp)
    | some s' =>
      have : Decidable (EachStep next Q s' schedule) := decidableEachStep s' schedule
      decidable_of_iff (Q s t i ∧ EachStep next Q s' schedule)
        ⟨fun hQ _ hs' => Option.some.inj (h.symm.trans hs') ▸ hQ, fun hQ => hQ s' h⟩

theorem always_of_invariant {P I : Threads Θ Sh Pc → Prop} (hP : ∀ s, I s → P s)
    (hstep : ∀ s t i s', I s → s.step next t i = some s' → I s') (hs : I s)
    (schedule : List (Θ × In)) : Always next P s schedule := by
  induction schedule generalizing s with
  | nil => exact hP s hs
  | cons e schedule ih => exact ⟨hP s hs, fun s' h => ih (hstep s e.1 e.2 s' hs h)⟩

variable {Q : Threads Θ Sh Pc → Θ → In → Prop} {schedule : List (Θ × In)}

/-- **Conditions on steps**: if steps that meet a condition keep an invariant
that gives the property, then the property holds throughout every run whose
steps meet the condition. -/
theorem EachStep.always {P I : Threads Θ Sh Pc → Prop} (hP : ∀ s, I s → P s)
    (hgood : ∀ s t i s', I s → s.step next t i = some s' → Q s t i → I s') (hs : I s)
    (h : EachStep next Q s schedule) : Always next P s schedule := by
  induction schedule generalizing s with
  | nil => exact hP s hs
  | cons e schedule ih =>
    refine ⟨hP s hs, fun s' hstep => ?_⟩
    obtain ⟨hQ, hrest⟩ := h s' hstep
    exact ih (hgood s e.1 e.2 s' hs hstep hQ) hrest

/-- **Exact conditions on steps**: if moreover a step that does not meet the
condition destroys the property at once, then the property holds throughout a
run exactly when every step meets the condition. -/
theorem always_iff_eachStep {P I : Threads Θ Sh Pc → Prop} (hP : ∀ s, I s → P s)
    (hgood : ∀ s t i s', I s → s.step next t i = some s' → Q s t i → I s')
    (hbad : ∀ s t i s', I s → s.step next t i = some s' → ¬ Q s t i → ¬ P s') (hs : I s)
    (schedule : List (Θ × In)) : Always next P s schedule ↔ EachStep next Q s schedule := by
  refine ⟨fun hall => ?_, EachStep.always hP hgood hs⟩
  induction schedule generalizing s with
  | nil => trivial
  | cons e schedule ih =>
    intro s' hstep
    have hrest := hall.2 s' hstep
    -- a step against the condition would have destroyed the property in `s'`
    have hPs' : P s' := by
      rcases schedule with - | ⟨e', schedule⟩
      · exact hrest
      · exact hrest.1
    have hQ : Q s e.1 e.2 := by
      by_contra hQ
      exact hbad s e.1 e.2 s' hs hstep hQ hPs'
    exact ⟨hQ, ih (hgood s e.1 e.2 s' hs hstep hQ) hrest⟩

/-- A condition on steps follows from another one along a run, by an invariant
that the steps of the run keep. -/
theorem EachStep.imp {I : Threads Θ Sh Pc → Prop} {Q' : Threads Θ Sh Pc → Θ → In → Prop}
    (hstep : ∀ s t i s', I s → s.step next t i = some s' → Q s t i → Q' s t i ∧ I s') (hs : I s)
    (h : EachStep next Q s schedule) : EachStep next Q' s schedule := by
  induction schedule generalizing s with
  | nil => trivial
  | cons e schedule ih =>
    intro s' hs'
    obtain ⟨hQ, hrest⟩ := h s' hs'
    obtain ⟨hQ', hinv⟩ := hstep s e.1 e.2 s' hs hs' hQ
    exact ⟨hQ', ih hinv hrest⟩

/-! ### Conditions on one thread -/

theorem forall_pcs_step {P : Θ → Pc → Prop}
    (hnext : ∀ t sh p i sh' p', P t p → next t sh p i = some (sh', p') → P t p')
    (hs : ∀ u, P u (s.pcs u)) (h : s.step next t i = some s') : ∀ u, P u (s'.pcs u) := by
  obtain ⟨sh, pc, hn, rfl⟩ := step_eq_some h
  exact (Function.forall_update_iff s.pcs P).mpr ⟨hnext t _ _ _ _ _ (hs t) hn, fun u _ => hs u⟩

/-! ### Tokens -/

/-- Exactly one thread is in the region `Holds` while `Tok` holds of the
shared state, and none otherwise. -/
structure HasToken (Tok : Sh → Prop) (Holds : Pc → Prop) (s : Threads Θ Sh Pc) : Prop where
  tok_iff : Tok s.shared ↔ ∃ t, Holds (s.pcs t)
  unique : ∀ t u, Holds (s.pcs t) → Holds (s.pcs u) → t = u

/-- What a step may do with a token: keep it, release it, take it while it is
free, or leave it alone. -/
structure TokenStep (Tok : Sh → Prop) (Holds : Pc → Prop) (sh : Sh) (p : Pc) (sh' : Sh)
    (p' : Pc) : Prop where
  keep : Holds p → Holds p' → Tok sh'
  release : Holds p → ¬ Holds p' → ¬ Tok sh'
  take : ¬ Holds p → Holds p' → ¬ Tok sh ∧ Tok sh'
  leave : ¬ Holds p → ¬ Holds p' → (Tok sh' ↔ Tok sh)

section TokenSteps

variable {Tok : Sh → Prop} {Holds : Pc → Prop} {sh sh' : Sh} {p p' : Pc}

/-! A step is on one side of the region, enters it or leaves it. -/

theorem TokenStep.of_outside (hp : ¬ Holds p) (hp' : ¬ Holds p') (h : Tok sh' ↔ Tok sh) :
    TokenStep Tok Holds sh p sh' p' :=
  ⟨fun h' => absurd h' hp, fun h' => absurd h' hp, fun _ h' => absurd h' hp', fun _ _ => h⟩

theorem TokenStep.of_inside (hp : Holds p) (hp' : Holds p') (h : Tok sh') :
    TokenStep Tok Holds sh p sh' p' :=
  ⟨fun _ _ => h, fun _ h' => absurd hp' h', fun h' => absurd hp h', fun h' => absurd hp h'⟩

theorem TokenStep.of_enter (hp : ¬ Holds p) (hp' : Holds p') (h : ¬ Tok sh) (h' : Tok sh') :
    TokenStep Tok Holds sh p sh' p' :=
  ⟨fun hp₁ => absurd hp₁ hp, fun hp₁ => absurd hp₁ hp, fun _ _ => ⟨h, h'⟩,
    fun _ hp₁ => absurd hp' hp₁⟩

theorem TokenStep.of_exit (hp : Holds p) (hp' : ¬ Holds p') (h : ¬ Tok sh') :
    TokenStep Tok Holds sh p sh' p' :=
  ⟨fun _ hp₁ => absurd hp₁ hp', fun _ _ => h, fun hp₁ => absurd hp hp₁, fun hp₁ => absurd hp hp₁⟩

end TokenSteps

variable {Holds : Pc → Prop} {Tok : Sh → Prop}

/-- If no other thread is in the region, the token goes with `t`. -/
theorem HasToken.of_others {pcs : Θ → Pc} {sh : Sh} {pc : Pc} (hnone : ∀ u, u ≠ t → ¬ Holds (pcs u))
    (htok : Tok sh ↔ Holds pc) :
    HasToken Tok Holds { shared := sh, pcs := Function.update pcs t pc } := by
  have hdown : ∀ u, Holds (Function.update pcs t pc u) → u = t := by
    intro u hu
    by_contra hne
    rw [Function.update_of_ne hne] at hu
    exact hnone u hne hu
  refine ⟨?_, fun u v hu hv => (hdown u hu).trans (hdown v hv).symm⟩
  show Tok sh ↔ _
  rw [htok]
  constructor
  · intro hpc
    exact ⟨t, by simpa using hpc⟩
  · rintro ⟨u, hu⟩
    obtain rfl := hdown u hu
    simpa using hu

/-- **Exclusive regions**: steps that treat the token so keep it unique. -/
theorem HasToken.step (htok : HasToken Tok Holds s)
    (hnext : ∀ sh' p', next t s.shared (s.pcs t) i = some (sh', p') →
      TokenStep Tok Holds s.shared (s.pcs t) sh' p') (h : s.step next t i = some s') :
    HasToken Tok Holds s' := by
  obtain ⟨sh, pc, hn, rfl⟩ := step_eq_some h
  have ht := hnext sh pc hn
  by_cases hp : Holds (s.pcs t)
  · -- `t` was in the region, so nobody else was
    have hnone : ∀ u, u ≠ t → ¬ Holds (s.pcs u) := fun u hne hu => hne (htok.unique u t hu hp)
    apply HasToken.of_others hnone
    by_cases hp' : Holds pc
    · exact iff_of_true (ht.keep hp hp') hp'
    · exact iff_of_false (ht.release hp hp') hp'
  by_cases hp' : Holds pc
  · -- the token was free, so nobody was in the region
    obtain ⟨hfree, htaken⟩ := ht.take hp hp'
    have hnone : ∀ u, u ≠ t → ¬ Holds (s.pcs u) := fun u _ hu => hfree (htok.tok_iff.mpr ⟨u, hu⟩)
    exact HasToken.of_others hnone (iff_of_true htaken hp')
  · -- `t` stays outside, so the same threads as before are in the region
    have hiff : ∀ u, Holds (Function.update s.pcs t pc u) ↔ Holds (s.pcs u) := by
      intro u
      by_cases hu : u = t
      · subst hu
        simp [hp, hp']
      · rw [Function.update_of_ne hu]
    constructor
    · show Tok sh ↔ _
      rw [ht.leave hp hp', htok.tok_iff]
      simp only [hiff]
    · intro u v hu hv
      exact htok.unique u v ((hiff u).mp hu) ((hiff v).mp hv)

end Threads

end ArkToolchain
