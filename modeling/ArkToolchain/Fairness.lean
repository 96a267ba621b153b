/-
Runs without end: at each time some thread makes a step, or nothing happens.

A run is fair to a thread under a condition (`FairWhen`) if the thread makes a step whenever the
condition holds from some time on.  `FairWhen.leadsTo` is the rule for one step that must come,
`eventually_of_rank` for many, and `exists_le_done` for counters: what grows whenever it is
behind catches up.
-/
import ArkToolchain.Interleaving

namespace ArkToolchain

theorem exists_later {P : Nat → Prop} {n m : Nat} (hnm : n ≤ m) (h : ∃ k, m ≤ k ∧ P k) :
    ∃ k, n ≤ k ∧ P k :=
  h.imp fun _ hk => ⟨Nat.le_trans hnm hk.1, hk.2⟩

namespace Threads

variable {Θ Sh Pc In : Type*} [DecidableEq Θ]
variable (next : Θ → Sh → Pc → In → Option (Sh × Pc))

/-- What happens at one time: a step, or nothing. -/
def Moves (s : Threads Θ Sh Pc) : Option (Θ × In) → Threads Θ Sh Pc → Prop
  | none, s' => s' = s
  | some (t, i), s' => s.step next t i = some s'

/-- Thread `t` can go on. -/
def CanStep (s : Threads Θ Sh Pc) (t : Θ) : Prop :=
  ∃ i s', s.step next t i = some s'

variable {next} in
theorem canStep_of_next {s : Threads Θ Sh Pc} {t : Θ} {i : In} {r : Sh × Pc}
    (h : next t s.shared (s.pcs t) i = some r) : s.CanStep next t :=
  ⟨i, { shared := r.1, pcs := Function.update s.pcs t r.2 }, by rw [step, h, Option.map_some]⟩

/-- A run without end. -/
structure InfiniteRun where
  states : Nat → Threads Θ Sh Pc
  moves : Nat → Option (Θ × In)
  moves_states : ∀ n, (states n).Moves next (moves n) (states (n + 1))

namespace InfiniteRun

variable {next} (run : InfiniteRun next)

/-- Thread `t` makes a step at time `n`. -/
def StepsAt (t : Θ) (n : Nat) : Prop :=
  ∃ i, run.moves n = some (t, i)

/-- Weak fairness: a thread that stays in the region and can always go on does
go on. -/
def Fair (t : Θ) (Inside : Pc → Prop) : Prop :=
  ∀ n, (∀ m, n ≤ m → Inside ((run.states m).pcs t) ∧ (run.states m).CanStep next t) →
    ∃ m, n ≤ m ∧ run.StepsAt t m

/-- Weak fairness under a condition on the state: a thread for which it holds
from some time on does go on. -/
def FairWhen (t : Θ) (Ready : Threads Θ Sh Pc → Prop) : Prop :=
  ∀ n, (∀ m, n ≤ m → Ready (run.states m)) → ∃ m, n ≤ m ∧ run.StepsAt t m

variable {run} {n : Nat} {t : Θ} {i : In}

theorem step_of_moves (h : run.moves n = some (t, i)) :
    (run.states n).step next t i = some (run.states (n + 1)) := by
  have hmove := run.moves_states n
  rwa [h] at hmove

theorem states_succ (h : run.moves n = none) : run.states (n + 1) = run.states n := by
  have hmove := run.moves_states n
  rwa [h] at hmove

variable {P : Threads Θ Sh Pc → Prop}

/-- **Invariants** of infinite runs. -/
theorem invariant
    (hstep : ∀ n t i, run.moves n = some (t, i) → P (run.states n) → P (run.states (n + 1)))
    (h₀ : P (run.states 0)) : ∀ n, P (run.states n) := by
  intro n
  induction n with
  | zero => exact h₀
  | succ n ih =>
    rcases hm : run.moves n with - | ⟨t, i⟩
    · exact states_succ hm ▸ ih
    · exact hstep n t i hm ih

variable {Ready : Threads Θ Sh Pc → Prop}

/-- **Progress**: if `P` makes sure that thread `t` goes on, and holds until
`t` does, then `t` makes a step out of `P`. -/
theorem FairWhen.leadsTo (hfair : run.FairWhen t Ready)
    (hready : ∀ m, n ≤ m → P (run.states m) → Ready (run.states m))
    (hkeep : ∀ m, n ≤ m → P (run.states m) → ¬ run.StepsAt t m → P (run.states (m + 1)))
    (hn : P (run.states n)) : ∃ m, n ≤ m ∧ run.StepsAt t m ∧ P (run.states m) := by
  by_contra hnever
  -- then `P` holds forever, and `t` never goes on although it should
  have hforever : ∀ k, P (run.states (n + k)) := by
    intro k
    induction k with
    | zero => exact hn
    | succ k ih =>
      apply hkeep (n + k) (Nat.le_add_right n k) ih
      intro hsteps
      exact hnever ⟨n + k, Nat.le_add_right n k, hsteps, ih⟩
  have hP : ∀ m, n ≤ m → P (run.states m) := by
    intro m hm
    obtain ⟨k, rfl⟩ := Nat.exists_eq_add_of_le hm
    exact hforever k
  obtain ⟨m, hm, hsteps⟩ := hfair n fun m hm => hready m hm (hP m hm)
  exact hnever ⟨m, hm, hsteps, hP m hm⟩

theorem Fair.leadsTo {Inside : Pc → Prop} (hfair : run.Fair t Inside)
    (hcan : ∀ m, n ≤ m → P (run.states m) →
      Inside ((run.states m).pcs t) ∧ (run.states m).CanStep next t)
    (hkeep : ∀ m, n ≤ m → P (run.states m) → ¬ run.StepsAt t m → P (run.states (m + 1)))
    (hn : P (run.states n)) : ∃ m, n ≤ m ∧ run.StepsAt t m ∧ P (run.states m) := by
  have hwhen : run.FairWhen t fun s => Inside (s.pcs t) ∧ s.CanStep next t := hfair
  exact hwhen.leadsTo hcan hkeep hn

theorem pcs_succ (h : ¬ run.StepsAt t n) : (run.states (n + 1)).pcs t = (run.states n).pcs t := by
  rcases hm : run.moves n with - | ⟨u, i⟩
  · rw [states_succ hm]
  · obtain ⟨sh, pc, -, heq⟩ := step_eq_some (step_of_moves hm)
    have hne : t ≠ u := by
      rintro rfl
      exact h ⟨i, hm⟩
    rw [heq]
    exact Function.update_of_ne hne _ _

/-- The step that is made at time `n`. -/
theorem next_of_moves (hmove : run.moves n = some (t, i)) :
    next t (run.states n).shared ((run.states n).pcs t) i
      = some ((run.states (n + 1)).shared, (run.states (n + 1)).pcs t) := by
  obtain ⟨sh', pc', hnext, heq⟩ := step_eq_some (step_of_moves hmove)
  rw [hnext, heq]
  simp only [Function.update_self]

theorem FairWhen.exists_next (hfair : run.FairWhen t Ready) {pc : Pc}
    (hready : ∀ m, n ≤ m → (run.states m).pcs t = pc → Ready (run.states m))
    (hn : (run.states n).pcs t = pc) :
    ∃ m, n ≤ m ∧ (run.states m).pcs t = pc ∧
      ∃ i, run.moves m = some (t, i) ∧ next t (run.states m).shared pc i
        = some ((run.states (m + 1)).shared, (run.states (m + 1)).pcs t) := by
  obtain ⟨m, hnm, ⟨i, hmove⟩, hm⟩ := hfair.leadsTo (P := fun s => s.pcs t = pc) hready
    (fun m _ hm hsteps => (pcs_succ hsteps).trans hm) hn
  exact ⟨m, hnm, hm, i, hmove, hm ▸ next_of_moves hmove⟩

variable (run) in
theorem rel_states {R : Threads Θ Sh Pc → Threads Θ Sh Pc → Prop} (hrefl : ∀ s, R s s)
    (htrans : ∀ a b c, R a b → R b c → R a c)
    (hstep : ∀ s t i s', s.step next t i = some s' → R s s') {m : Nat} (hnm : n ≤ m) :
    R (run.states n) (run.states m) := by
  obtain ⟨k, rfl⟩ := Nat.exists_eq_add_of_le hnm
  clear hnm
  induction k with
  | zero => exact hrefl _
  | succ k ih =>
    rcases hm : run.moves (n + k) with - | ⟨t, i⟩
    · exact states_succ hm ▸ ih
    · exact htrans _ _ _ ih (hstep _ _ _ _ (step_of_moves hm))

/-! ### Counters that follow each other -/

/-- If there is something to do at time `n`, then more of it is done later. -/
def Grows (run : InfiniteRun next) (done total : Threads Θ Sh Pc → Nat) (n : Nat) : Prop :=
  done (run.states n) < total (run.states n) →
    ∃ m, n ≤ m ∧ done (run.states n) < done (run.states m)

section Grows

variable {done total : Threads Θ Sh Pc → Nat}
  (hdone : ∀ s t i s', s.step next t i = some s' → done s ≤ done s')
  (htotal : ∀ s t i s', s.step next t i = some s' → total s ≤ total s')
include htotal

theorem le_states {n m : Nat} (hnm : n ≤ m) : total (run.states n) ≤ total (run.states m) :=
  run.rel_states (R := fun s s' => total s ≤ total s') (fun _ => Nat.le_refl _)
    (fun _ _ _ => Nat.le_trans) htotal hnm

include hdone in
theorem Grows.of_later {n m : Nat} (hnm : n ≤ m) (h : run.Grows done total m) :
    run.Grows done total n := by
  intro hlt
  have hdone' : done (run.states n) ≤ done (run.states m) := le_states hdone hnm
  have htotal' : total (run.states n) ≤ total (run.states m) := le_states htotal hnm
  rcases Nat.lt_or_ge (done (run.states n)) (done (run.states m)) with hgrown | hsame
  · exact ⟨m, hnm, hgrown⟩
  · obtain ⟨k, hmk, hk⟩ := h (by omega)
    exact ⟨k, Nat.le_trans hnm hmk, by omega⟩

theorem exists_le_done (h : ∀ n, run.Grows done total n) (n : Nat) :
    ∃ m, n ≤ m ∧ total (run.states n) ≤ done (run.states m) := by
  suffices hall : ∀ k ≤ total (run.states n), ∃ m, n ≤ m ∧ k ≤ done (run.states m) from
    hall _ (Nat.le_refl _)
  intro k hk
  induction k with
  | zero => exact ⟨n, Nat.le_refl n, Nat.zero_le _⟩
  | succ k ih =>
    obtain ⟨m, hnm, hm⟩ := ih (Nat.le_of_succ_le hk)
    rcases Nat.eq_or_lt_of_le hm with heq | hlt
    · have htotal' : total (run.states n) ≤ total (run.states m) := le_states htotal hnm
      obtain ⟨m', hmm', hgrown⟩ := h m (by omega)
      exact ⟨m', Nat.le_trans hnm hmm', by omega⟩
    · exact ⟨m, hnm, hlt⟩

end Grows

theorem FairWhen.or {A : Pc → Prop} (hfair : run.FairWhen t Ready)
    (hat : run.FairWhen t fun s => A (s.pcs t)) :
    run.FairWhen t fun s => Ready s ∨ A (s.pcs t) := by
  intro n hn
  by_contra hnever
  -- without a step the counter stays where it is
  have hpc : ∀ k, (run.states (n + k)).pcs t = (run.states n).pcs t := by
    intro k
    induction k with
    | zero => rfl
    | succ k ih => exact (pcs_succ fun h => hnever ⟨n + k, Nat.le_add_right n k, h⟩).trans ih
  have hpc' : ∀ m, n ≤ m → (run.states m).pcs t = (run.states n).pcs t := by
    intro m hm
    obtain ⟨k, rfl⟩ := Nat.exists_eq_add_of_le hm
    exact hpc k
  by_cases hstart : A ((run.states n).pcs t)
  · apply hnever
    apply hat n
    intro m hm
    rwa [hpc' m hm]
  · apply hnever
    apply hfair n
    intro m hm
    apply (hn m hm).resolve_right
    rwa [hpc' m hm]

/-- **Ranks**: if outside the goal some thread is always sure to go on, a step
of it lowers the rank, and a step of another thread lowers the rank or leaves
both the rank and the thread as they are, then the goal is reached. -/
theorem eventually_of_rank {I Goal : Threads Θ Sh Pc → Prop} {Ready : Θ → Threads Θ Sh Pc → Prop}
    {rank : Threads Θ Sh Pc → Nat} {helpful : Threads Θ Sh Pc → Θ}
    (hfair : ∀ t, run.FairWhen t (Ready t)) (hinv : ∀ n, I (run.states n))
    (hready : ∀ s, I s → ¬ Goal s → Ready (helpful s) s)
    (hstep : ∀ s t i s', I s → I s' → ¬ Goal s → s.step next t i = some s' →
      rank s' < rank s ∨ rank s' = rank s ∧ t ≠ helpful s ∧ helpful s' = helpful s) :
    ∀ n, ∃ m, n ≤ m ∧ Goal (run.states m) := by
  suffices h : ∀ r n, rank (run.states n) = r → ∃ m, n ≤ m ∧ Goal (run.states m) from
    fun n => h _ n rfl
  intro r
  induction r using Nat.strongRecOn with
  | ind r ih =>
    intro n hr
    by_contra hnever
    have hgoal : ∀ m, n ≤ m → ¬ Goal (run.states m) := fun m hm h => hnever ⟨m, hm, h⟩
    -- a lower rank would lead to the goal
    have hlow : ∀ m, n ≤ m → ¬ rank (run.states m) < r := by
      intro m hm hlt
      obtain ⟨k, hk, h⟩ := ih _ hlt m rfl
      exact hnever ⟨k, Nat.le_trans hm hk, h⟩
    have hmoves : ∀ m t i, n ≤ m → run.moves m = some (t, i) →
        rank (run.states m) = r → rank (run.states (m + 1)) = r ∧ t ≠ helpful (run.states m)
          ∧ helpful (run.states (m + 1)) = helpful (run.states m) := by
      intro m t i hm hmove hrank
      obtain hlt | ⟨heq, hrest⟩ :=
        hstep _ t i _ (hinv m) (hinv (m + 1)) (hgoal m hm) (step_of_moves hmove)
      · exact absurd (hrank ▸ hlt) (hlow (m + 1) (Nat.le_succ_of_le hm))
      · exact ⟨heq.trans hrank, hrest⟩
    obtain ⟨m, hm, ⟨i, hmove⟩, hrank, hhelp⟩ :=
      (hfair (helpful (run.states n))).leadsTo (n := n)
        (P := fun s => rank s = r ∧ helpful s = helpful (run.states n))
        (fun m hm h => h.2 ▸ hready _ (hinv m) (hgoal m hm))
        (fun m hm h _ => by
          rcases hmove : run.moves m with - | ⟨t, i⟩
          · rw [states_succ hmove]
            exact h
          · obtain ⟨hrank, -, hhelp⟩ := hmoves m t i hm hmove h.1
            exact ⟨hrank, hhelp.trans h.2⟩)
        ⟨hr, rfl⟩
    exact (hmoves m _ i hm hmove hrank).2.1 hhelp.symm

end InfiniteRun

/-! ### Runs that stop -/

/-- The state after `n` steps of a schedule, or after all of them. -/
def afterSteps : Threads Θ Sh Pc → List (Θ × In) → Nat → Threads Θ Sh Pc
  | s, _, 0 => s
  | s, [], _ + 1 => s
  | s, (t, i) :: schedule, n + 1 =>
    match s.step next t i with
    | some s' => afterSteps s' schedule n
    | none => s

variable {next} {s s' : Threads Θ Sh Pc} {schedule : List (Θ × In)}

@[simp] theorem afterSteps_zero : s.afterSteps next schedule 0 = s := by
  cases schedule <;> rfl

@[simp] theorem afterSteps_nil (n : Nat) : s.afterSteps next [] n = s := by
  cases n <;> rfl

theorem afterSteps_cons_succ {e : Θ × In} (h : s.step next e.1 e.2 = some s') (n : Nat) :
    s.afterSteps next (e :: schedule) (n + 1) = s'.afterSteps next schedule n := by
  rw [afterSteps, h]

theorem afterSteps_moves (h : s.run next schedule = some s') (n : Nat) :
    (s.afterSteps next schedule n).Moves next schedule[n]?
      (s.afterSteps next schedule (n + 1)) := by
  induction schedule generalizing s n with
  | nil => simp [Moves]
  | cons e schedule ih =>
    obtain ⟨s₁, hs₁, hrest⟩ := Option.bind_eq_some_iff.mp h
    rw [afterSteps_cons_succ hs₁]
    cases n with
    | zero =>
      rw [afterSteps_zero, afterSteps_zero]
      exact hs₁
    | succ n =>
      rw [List.getElem?_cons_succ, afterSteps_cons_succ hs₁]
      exact ih hrest n

theorem afterSteps_of_length_le (h : s.run next schedule = some s') {n : Nat}
    (hn : schedule.length ≤ n) : s.afterSteps next schedule n = s' := by
  induction schedule generalizing s n with
  | nil =>
    obtain rfl : s = s' := Option.some.inj h
    exact afterSteps_nil n
  | cons e schedule ih =>
    obtain ⟨s₁, hs₁, hrest⟩ := Option.bind_eq_some_iff.mp h
    cases n with
    | zero => cases hn
    | succ n =>
      rw [afterSteps_cons_succ hs₁]
      exact ih hrest (Nat.le_of_succ_le_succ hn)

/-- A finite run after which nothing happens. -/
def InfiniteRun.ofSchedule (h : s.run next schedule = some s') : InfiniteRun next where
  states := s.afterSteps next schedule
  moves n := schedule[n]?
  moves_states := afterSteps_moves h

section

variable (h : s.run next schedule = some s')
include h

theorem InfiniteRun.states_ofSchedule {n : Nat} (hn : schedule.length ≤ n) :
    (ofSchedule h).states n = s' :=
  afterSteps_of_length_le h hn

theorem InfiniteRun.eachStep_ofSchedule {Q : Threads Θ Sh Pc → Θ → In → Prop}
    (hQ : EachStep next Q s schedule) {n : Nat} {t : Θ} {i : In}
    (hn : (ofSchedule h).moves n = some (t, i)) : Q ((ofSchedule h).states n) t i := by
  show Q (s.afterSteps next schedule n) t i
  replace hn : schedule[n]? = some (t, i) := hn
  induction schedule generalizing s n with
  | nil => cases hn
  | cons e schedule ih =>
    obtain ⟨s₁, hs₁, hrest⟩ := Option.bind_eq_some_iff.mp h
    cases n with
    | zero =>
      obtain rfl : e = (t, i) := Option.some.inj hn
      rw [afterSteps_zero]
      exact (hQ s₁ hs₁).1
    | succ n =>
      rw [afterSteps_cons_succ hs₁]
      exact ih hrest (hQ s₁ hs₁).2 hn

theorem InfiniteRun.forall_states_ofSchedule {P : Threads Θ Sh Pc → Prop}
    (hP : EachStep next (fun s _ _ => P s) s schedule) (hend : P s') (n : Nat) :
    P ((ofSchedule h).states n) := by
  rcases hmove : (ofSchedule h).moves n with - | ⟨t, i⟩
  · replace hmove : schedule[n]? = none := hmove
    rw [states_ofSchedule h (List.getElem?_eq_none_iff.mp hmove)]
    exact hend
  · exact eachStep_ofSchedule h hP hmove

/-- A run that stops is fair to a thread for which the condition does not hold
in the end. -/
theorem InfiniteRun.fairWhen_ofSchedule {t : Θ} {Ready : Threads Θ Sh Pc → Prop}
    (hend : ¬ Ready s') : (ofSchedule h).FairWhen t Ready := by
  intro n hn
  have hready := hn (n + schedule.length) (Nat.le_add_right _ _)
  rw [states_ofSchedule h (Nat.le_add_left _ _)] at hready
  exact absurd hready hend

/-- A run that stops is fair to a thread which is outside the region in the
end, or cannot go on. -/
theorem InfiniteRun.fair_ofSchedule {t : Θ} {Inside : Pc → Prop}
    (hend : Inside (s'.pcs t) → ¬ s'.CanStep next t) : (ofSchedule h).Fair t Inside := by
  have hwhen : (ofSchedule h).FairWhen t fun s => Inside (s.pcs t) ∧ s.CanStep next t :=
    fairWhen_ofSchedule h fun hboth => hend hboth.1 hboth.2
  exact hwhen

end

end Threads

end ArkToolchain
