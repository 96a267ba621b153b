/-
The two tables of the breakpoint store under every sequence of operations.

`Integrity`: an id in the location table is the id of a stored breakpoint, and new ids are
larger.  `Consistent`: the location table says what the breakpoints themselves hold.  Setting
and removing keep both.  Resolving keeps the first only: a plain breakpoint enters a location
that it already holds a second time, and a conditional one enters every location of its line but
holds just the last.  Until a `Reset` no id is given out twice (`removed_id_not_reused`).

Main results: `storage_integrity` for all sequences, and `storage_consistent_iff`, which says for
which ones the tables agree.
-/
import ArkToolchain.Breakpoints
import ArkToolchain.Traces
import Mathlib.Data.List.Nodup

namespace ArkToolchain

open BreakpointBase

/-! ### Sound breakpoints -/

theorem nodup_foldl_insert {α : Type*} [DecidableEq α] (new : List α) {held : List α}
    (h : held.Nodup) : (new.foldl (fun ls l => ls.insert l) held).Nodup := by
  induction new generalizing held with
  | nil => exact h
  | cons x new ih => exact ih h.insert

namespace BreakpointBase

variable {bp : BreakpointBase}

theorem Sound.afterResolve (h : bp.Sound) (file : PandaFile) : (bp.afterResolve file).Sound := by
  cases bp with
  | plain bp =>
    obtain ⟨hnodup, hresolved⟩ := h
    rw [afterResolve, tryResolve_plain]
    refine ⟨nodup_foldl_insert _ hnodup, ?_⟩
    have hempty : ∀ new held : List PtLocation,
        (new.foldl (fun ls l => ls.insert l) held).isEmpty = (held.isEmpty && new.isEmpty) := by
      intro new held
      rw [Bool.eq_iff_iff]
      simp only [List.isEmpty_iff, Bool.and_eq_true, List.eq_nil_iff_forall_not_mem,
        mem_foldl_insert, not_or, forall_and]
    rw [hresolved, hempty, Bool.not_and]
  | conditional bp =>
    have hresolved : bp.resolved = bp.location.isSome := h
    rw [afterResolve, tryResolve_conditional]
    split
    · exact h
    · next hnot =>
        -- without a location the new one is the last of the file
        have hnone : bp.location = none := by simpa [hresolved] using hnot
        show (!List.isEmpty _) = Option.isSome _
        rw [hnone, Option.or_none]
        rcases file.lineLocations bp.sourceFileFilter bp.lineNumber with - | ⟨l, ls⟩
        · rfl
        · simp [List.getLast?_cons]

variable {file : PandaFile}

theorem afterResolve_eq_plain {bp' : Breakpoint} (h : bp.afterResolve file = .plain bp') :
    ∃ bp₀, bp = .plain bp₀ ∧
      ∀ l, l ∈ bp'.locations ↔ l ∈ bp₀.locations ∨ l ∈ newLocations file (.plain bp₀) := by
  cases bp with
  | plain bp =>
    rw [afterResolve, tryResolve_plain] at h
    obtain rfl := plain.inj h
    exact ⟨bp, rfl, fun l => mem_foldl_insert _ _⟩
  | conditional bp =>
    rw [afterResolve, tryResolve_conditional] at h
    split at h <;> exact absurd h (by simp)

theorem afterResolve_conditional (file : PandaFile) (bp : ConditionalBreakpoint) :
    ∃ bp', (conditional bp).afterResolve file = .conditional bp' := by
  rw [afterResolve, tryResolve_conditional]
  split <;> exact ⟨_, rfl⟩

/-- The file is new to the breakpoint: a plain one does not hold its locations
yet, and a conditional one gets no more than one. -/
def NewTo (file : PandaFile) : BreakpointBase → Prop
  | .plain bp =>
    (newLocations file (.plain bp)).Nodup ∧ ∀ l ∈ newLocations file (.plain bp), l ∉ bp.locations
  | .conditional bp => (newLocations file (.conditional bp)).length ≤ 1

theorem newLocations_of_mem {bp : ConditionalBreakpoint} (h : (conditional bp).Sound)
    {l : PtLocation} (hl : l ∈ newLocations file (.conditional bp)) : bp.location = none := by
  have hresolved : bp.resolved = bp.location.isSome := h
  rcases hloc : bp.location with - | l'
  · rfl
  · simp [newLocations, hresolved, hloc] at hl

theorem not_mem_newLocations (h : bp.Sound) (hnew : bp.NewTo file) {l : PtLocation}
    (hl : l ∈ bp.locations) : l ∉ bp.newLocations file := by
  intro hmem
  cases bp with
  | plain bp => exact hnew.2 l hmem hl
  | conditional bp =>
    have hnone := newLocations_of_mem h hmem
    simp [locations, hnone] at hl

theorem nodup_newLocations (hnew : bp.NewTo file) : (bp.newLocations file).Nodup := by
  cases bp with
  | plain bp => exact hnew.1
  | conditional bp =>
    have hle : (newLocations file (.conditional bp)).length ≤ 1 := hnew
    rcases hnewl : newLocations file (.conditional bp) with - | ⟨l, - | ⟨l', ls⟩⟩
    · exact List.nodup_nil
    · exact List.nodup_singleton l
    · simp [hnewl] at hle

theorem mem_locations_afterResolve (h : bp.Sound) (hnew : bp.NewTo file) (l : PtLocation) :
    l ∈ (bp.afterResolve file).locations ↔ l ∈ bp.locations ∨ l ∈ bp.newLocations file := by
  cases bp with
  | plain bp =>
    rw [afterResolve, tryResolve_plain]
    exact mem_foldl_insert _ _
  | conditional bp =>
    have hle : (newLocations file (.conditional bp)).length ≤ 1 := hnew
    have hresolved : bp.resolved = bp.location.isSome := h
    rw [afterResolve, tryResolve_conditional]
    rcases hloc : bp.location with - | l₀
    · have hnot : bp.resolved = false := by rw [hresolved, hloc]; rfl
      simp only [newLocations, hnot, Bool.false_eq_true, if_false] at hle ⊢
      rcases hnewl : file.lineLocations bp.sourceFileFilter bp.lineNumber with
        - | ⟨l₁, - | ⟨l₂, ls⟩⟩
      · simp [locations, hloc]
      · simp [locations, hloc]
      · simp [hnewl] at hle
    · have hyes : bp.resolved = true := by rw [hresolved, hloc]; rfl
      simp [newLocations, hyes, locations, hloc]

end BreakpointBase

/-! ### Integrity -/

namespace BreakpointStorage

/-- Every mapped id is the id of a stored breakpoint, and stored ids are below
the next one. -/
structure Integrity (s : BreakpointStorage) : Prop where
  present : ∀ e ∈ s.breakpointLocations, e.2 ∈ s.breakpointStorage.map Prod.fst
  below : ∀ e ∈ s.breakpointStorage, e.1 < s.nextBreakpointId
  getId_eq : ∀ e ∈ s.breakpointStorage, e.2.getId = e.1
  nodup : (s.breakpointStorage.map Prod.fst).Nodup
  sound : ∀ e ∈ s.breakpointStorage, e.2.Sound
  /-- A plain breakpoint holds the locations that it is mapped to. -/
  plain_holds : ∀ e ∈ s.breakpointLocations, ∀ bp,
    (e.2, plain bp) ∈ s.breakpointStorage → e.1 ∈ bp.locations

variable {s : BreakpointStorage}

theorem integrity_empty : Integrity {} :=
  ⟨by simp, by simp, by simp, by simp, by simp, by simp⟩

variable {bp : BreakpointBase} {id : BreakpointId}

theorem Integrity.unique (h : s.Integrity) {bp' : BreakpointBase}
    (hbp : (id, bp) ∈ s.breakpointStorage) (hbp' : (id, bp') ∈ s.breakpointStorage) : bp = bp' :=
  congrArg Prod.snd (List.inj_on_of_nodup_map h.nodup hbp hbp' rfl)

theorem Integrity.mapped_below (h : s.Integrity) {e : PtLocation × BreakpointId}
    (he : e ∈ s.breakpointLocations) : e.2 < s.nextBreakpointId := by
  obtain ⟨e', he', heq⟩ := List.mem_map.mp (h.present e he)
  rw [← heq]
  exact h.below e' he'

theorem Integrity.filter_next (h : s.Integrity) :
    (s.breakpointStorage.filter fun e => e.1 ≠ s.nextBreakpointId) = s.breakpointStorage := by
  apply List.filter_eq_self.mpr
  intro e he
  have := h.below e he
  simpa using Nat.ne_of_lt this

theorem Integrity.added (h : s.Integrity) (hid : bp.getId = s.nextBreakpointId)
    (hsound : bp.Sound) : (s.added bp).Integrity := by
  have hstorage : (s.added bp).breakpointStorage
      = (s.nextBreakpointId, bp) :: s.breakpointStorage := by
    rw [BreakpointStorage.added, h.filter_next]
  refine ⟨?_, ?_, ?_, ?_, ?_, ?_⟩
  · intro e he
    rw [hstorage]
    rcases List.mem_append.mp he with he | he
    · exact List.mem_cons_of_mem _ (h.present e he)
    · obtain ⟨l, -, rfl⟩ := List.mem_map.mp he
      exact List.mem_cons_self
  · rw [hstorage, List.forall_mem_cons]
    exact ⟨Nat.lt_succ_self _, fun e he => Nat.lt_succ_of_lt (h.below e he)⟩
  · rw [hstorage, List.forall_mem_cons]
    exact ⟨hid, h.getId_eq⟩
  · rw [hstorage, List.map_cons, List.nodup_cons]
    refine ⟨fun hmem => ?_, h.nodup⟩
    obtain ⟨e, he, heq⟩ := List.mem_map.mp hmem
    exact absurd (h.below e he) (by rw [heq]; exact Nat.lt_irrefl _)
  · rw [hstorage, List.forall_mem_cons]
    exact ⟨hsound, h.sound⟩
  · intro e he bp' hbp'
    rw [hstorage] at hbp'
    rcases List.mem_append.mp he with he | he
    · rcases List.mem_cons.mp hbp' with heq | hbp'
      · exact absurd (h.mapped_below he) (by rw [(Prod.mk.inj heq).1]; exact Nat.lt_irrefl _)
      · exact h.plain_holds e he bp' hbp'
    · obtain ⟨l, hl, rfl⟩ := List.mem_map.mp he
      rcases List.mem_cons.mp hbp' with heq | hbp'
      · obtain rfl := (Prod.mk.inj heq).2
        exact hl
      · exact absurd (h.below _ hbp') (Nat.lt_irrefl _)

/-- What resolving enters into the location table. -/
def newPairs (s : BreakpointStorage) (file : PandaFile) : List (PtLocation × BreakpointId) :=
  s.breakpointStorage.flatMap fun e => (e.2.newLocations file).map fun l => (l, e.2.getId)

theorem resolveBreakpoints_eq (s : BreakpointStorage) (file : PandaFile) :
    s.resolveBreakpoints file =
      { s with
        breakpointStorage := s.breakpointStorage.map fun e => (e.1, e.2.afterResolve file)
        breakpointLocations := s.breakpointLocations ++ s.newPairs file } := by
  simp only [resolveBreakpoints, resolveAll_eq, newPairs]

variable {file : PandaFile}

theorem Integrity.mem_newPairs (h : s.Integrity) {l : PtLocation} :
    (l, id) ∈ s.newPairs file ↔
      ∃ bp, (id, bp) ∈ s.breakpointStorage ∧ l ∈ bp.newLocations file := by
  constructor
  · intro hl
    obtain ⟨e, he, hl⟩ := List.mem_flatMap.mp hl
    obtain ⟨l', hl', heq⟩ := List.mem_map.mp hl
    obtain ⟨rfl, rfl⟩ := Prod.mk.inj heq
    refine ⟨e.2, ?_, hl'⟩
    rw [h.getId_eq e he]
    exact he
  · rintro ⟨bp, hbp, hl⟩
    refine List.mem_flatMap.mpr ⟨(id, bp), hbp, List.mem_map.mpr ⟨l, hl, ?_⟩⟩
    rw [h.getId_eq _ hbp]

theorem Integrity.resolveBreakpoints (h : s.Integrity) (file : PandaFile) :
    (s.resolveBreakpoints file).Integrity := by
  rw [resolveBreakpoints_eq]
  have hkeys : (s.breakpointStorage.map fun e => (e.1, e.2.afterResolve file)).map Prod.fst
      = s.breakpointStorage.map Prod.fst := by
    simp
  refine ⟨?_, ?_, ?_, ?_, ?_, ?_⟩
  · intro e he
    rw [hkeys]
    rcases List.mem_append.mp he with he | he
    · exact h.present e he
    · obtain ⟨bp, hbp, -⟩ := h.mem_newPairs.mp he
      exact List.mem_map.mpr ⟨(e.2, bp), hbp, rfl⟩
  · exact List.forall_mem_map.mpr h.below
  · exact List.forall_mem_map.mpr fun e he => (e.2.getId_afterResolve file).trans (h.getId_eq e he)
  · rw [hkeys]
    exact h.nodup
  · exact List.forall_mem_map.mpr fun e he => (h.sound e he).afterResolve file
  · intro e he bp' hbp'
    obtain ⟨⟨id, bp⟩, hbp, heq⟩ := List.mem_map.mp hbp'
    obtain ⟨rfl, hresolved⟩ := Prod.mk.inj heq
    obtain ⟨bp, rfl, hholds⟩ := afterResolve_eq_plain hresolved
    refine (hholds e.1).mpr ?_
    rcases List.mem_append.mp he with he | he
    · exact .inl (h.plain_holds e he bp hbp)
    · obtain ⟨bp₁, hbp₁, hl⟩ := h.mem_newPairs.mp he
      obtain rfl := h.unique hbp hbp₁
      exact .inr hl

theorem Integrity.removeBreakpoint (h : s.Integrity) (id : BreakpointId) :
    (s.removeBreakpoint id).Integrity := by
  refine ⟨?_, ?_, ?_, ?_, ?_, ?_⟩
  · intro e he
    obtain ⟨he, hne⟩ := List.mem_filter.mp he
    obtain ⟨e', he', heq⟩ := List.mem_map.mp (h.present e he)
    refine List.mem_map.mpr ⟨e', List.mem_filter.mpr ⟨he', ?_⟩, heq⟩
    rw [heq]
    exact hne
  · exact fun e he => h.below e (List.mem_of_mem_filter he)
  · exact fun e he => h.getId_eq e (List.mem_of_mem_filter he)
  · exact h.nodup.sublist (List.filter_sublist.map _)
  · exact fun e he => h.sound e (List.mem_of_mem_filter he)
  · exact fun e he bp hbp =>
      h.plain_holds e (List.mem_of_mem_filter he) bp (List.mem_of_mem_filter hbp)

/-- `RemoveBreakpoints` keeps what the removal of one breakpoint keeps. -/
theorem removeBreakpoints_induction {P : BreakpointStorage → Prop}
    (hremove : ∀ s id, P s → P (s.removeBreakpoint id)) (hs : P s) (filter : PtLocation → Bool) :
    P (s.removeBreakpoints filter) := by
  unfold removeBreakpoints
  generalize (s.breakpointLocations.filter fun e => filter e.1).map Prod.snd = ids
  induction ids generalizing s with
  | nil => exact hs
  | cons id ids ih => exact ih (hremove s id hs)

theorem Integrity.step (h : s.Integrity) (op : StorageOp) : (s.step op).Integrity := by
  cases op with
  | setBreakpoint filter lineNumber condition cache =>
    rcases s.setBreakpoint_cases filter lineNumber condition cache with
      ⟨-, -, heq⟩ | ⟨-, -, bp, heq, hid, -, hsound⟩
    · rw [BreakpointStorage.step, heq]
      exact h
    · rw [BreakpointStorage.step, heq]
      exact h.added hid hsound
  | resolveBreakpoints file => exact h.resolveBreakpoints file
  | removeBreakpoint id => exact h.removeBreakpoint id
  | removeBreakpoints filter =>
    exact removeBreakpoints_induction (fun _ id hs => hs.removeBreakpoint id) h filter
  | reset => exact integrity_empty
  | setBreakpointsActive active =>
    exact ⟨h.present, h.below, h.getId_eq, h.nodup, h.sound, h.plain_holds⟩

/-- The loop of `ShouldStopAtBreakpoint` finds every breakpoint. -/
theorem anyStops_isSome (location : PtLocation) (engine : EvaluationEngine)
    {ids : List BreakpointId} (hids : ∀ id ∈ ids, id ∈ s.breakpointStorage.map Prod.fst) :
    (s.anyStops location engine ids).isSome = true := by
  induction ids with
  | nil => rfl
  | cons id ids ih =>
    obtain ⟨e, he, heq⟩ := List.mem_map.mp (hids id List.mem_cons_self)
    have hlookup : (s.breakpointStorage.lookup id).isSome = true :=
      List.lookup_isSome_iff.mpr ⟨e, he, by simp [heq]⟩
    obtain ⟨bp, hbp⟩ := Option.isSome_iff_exists.mp hlookup
    simp only [anyStops, hbp]
    split
    · rfl
    · exact ih fun id' hid' => hids id' (List.mem_cons_of_mem id hid')

theorem Integrity.shouldStopAtBreakpoint_isSome (h : s.Integrity) (location : PtLocation)
    (engine : EvaluationEngine) : (s.shouldStopAtBreakpoint location engine).isSome = true := by
  unfold shouldStopAtBreakpoint
  split
  · rfl
  · apply anyStops_isSome
    intro id hid
    obtain ⟨e, he, rfl⟩ := List.mem_map.mp hid
    exact h.present e (List.mem_of_mem_filter he)

theorem integrity_stateAt (ops : List StorageOp) (k : Nat) :
    (stateAt BreakpointStorage.step {} ops k).Integrity :=
  stateAt_invariant (fun _ op h => h.step op) integrity_empty ops k

/-- **Referential integrity** in every reachable state: a mapped id belongs to
a stored breakpoint, ids are below the next one, and `ShouldStopAtBreakpoint`
never reads a breakpoint that is not there. -/
theorem storage_integrity (ops : List StorageOp) (k : Nat) :
    (∀ e ∈ (stateAt BreakpointStorage.step {} ops k).breakpointLocations,
      ∃ bp, (stateAt BreakpointStorage.step {} ops k).breakpointStorage.lookup e.2 = some bp) ∧
    (∀ e ∈ (stateAt BreakpointStorage.step {} ops k).breakpointStorage,
      e.1 < (stateAt BreakpointStorage.step {} ops k).nextBreakpointId) ∧
    ∀ location engine, ∃ stop,
      (stateAt BreakpointStorage.step {} ops k).shouldStopAtBreakpoint location engine
        = some stop := by
  have h := integrity_stateAt ops k
  refine ⟨fun e he => ?_, h.below, fun location engine => ?_⟩
  · obtain ⟨e', he', heq⟩ := List.mem_map.mp (h.present e he)
    exact Option.isSome_iff_exists.mp (List.lookup_isSome_iff.mpr ⟨e', he', by simp [heq]⟩)
  · exact Option.isSome_iff_exists.mp (h.shouldStopAtBreakpoint_isSome location engine)

/-! ### Consistency -/

/-- The location table says what the breakpoints hold. -/
structure Consistent (s : BreakpointStorage) : Prop where
  mapped_iff : ∀ l id, (l, id) ∈ s.breakpointLocations ↔
    ∃ bp, (id, bp) ∈ s.breakpointStorage ∧ l ∈ bp.locations
  nodup : s.breakpointLocations.Nodup
  single : ∀ id bp, (id, conditional bp) ∈ s.breakpointStorage →
    ∀ l l', (l, id) ∈ s.breakpointLocations → (l', id) ∈ s.breakpointLocations → l = l'

/-- A conditional breakpoint holds at most one location, so the last field
follows from the others. -/
theorem Consistent.mk_of (hnodupKeys : (s.breakpointStorage.map Prod.fst).Nodup)
    (hmapped : ∀ l id, (l, id) ∈ s.breakpointLocations ↔
      ∃ bp, (id, bp) ∈ s.breakpointStorage ∧ l ∈ bp.locations)
    (hnodup : s.breakpointLocations.Nodup) : s.Consistent := by
  refine ⟨hmapped, hnodup, fun id bp hbp l l' hl hl' => ?_⟩
  have hholds : ∀ x, (x, id) ∈ s.breakpointLocations → bp.location = some x := by
    intro x hx
    obtain ⟨bp', hbp', hx⟩ := (hmapped x id).mp hx
    obtain rfl : conditional bp = bp' :=
      congrArg Prod.snd (List.inj_on_of_nodup_map hnodupKeys hbp hbp' rfl)
    simpa [locations] using hx
  exact Option.some.inj ((hholds l hl).symm.trans (hholds l' hl'))

theorem consistent_empty : Consistent {} :=
  .mk_of (by simp) (by simp) (by simp)

theorem Consistent.added (h : s.Consistent) (hi : s.Integrity) (hid : bp.getId = s.nextBreakpointId)
    (hsound : bp.Sound) (hlocs : bp.locations.Nodup) : (s.added bp).Consistent := by
  refine .mk_of (hi.added hid hsound).nodup (fun l id => ?_) ?_
  · show (l, id) ∈ s.breakpointLocations ++ _ ↔ ∃ bp', (id, bp') ∈ _ :: List.filter _ _ ∧ _
    rw [hi.filter_next, List.mem_append, h.mapped_iff]
    constructor
    · rintro (⟨bp', hbp', hl⟩ | hl)
      · exact ⟨bp', List.mem_cons_of_mem _ hbp', hl⟩
      · obtain ⟨l', hl', heq⟩ := List.mem_map.mp hl
        obtain ⟨rfl, rfl⟩ := Prod.mk.inj heq
        exact ⟨bp, List.mem_cons_self, hl'⟩
    · rintro ⟨bp', hbp', hl⟩
      rcases List.mem_cons.mp hbp' with heq | hbp'
      · obtain ⟨rfl, rfl⟩ := Prod.mk.inj heq
        exact .inr (List.mem_map.mpr ⟨l, hl, rfl⟩)
      · exact .inl ⟨bp', hbp', hl⟩
  · refine List.nodup_append.mpr ⟨h.nodup, hlocs.map fun l l' heq => (Prod.mk.inj heq).1, ?_⟩
    -- the ids that are mapped already are smaller
    rintro e he e' he' rfl
    obtain ⟨l, -, rfl⟩ := List.mem_map.mp he'
    exact absurd (hi.mapped_below he) (Nat.lt_irrefl _)

theorem Integrity.nodup_newPairs (h : s.Integrity)
    (hnew : ∀ e ∈ s.breakpointStorage, e.2.NewTo file) : (s.newPairs file).Nodup := by
  refine List.nodup_flatMap.mpr ⟨?_, ?_⟩
  · intro e he
    exact (nodup_newLocations (hnew e he)).map fun l l' heq => (Prod.mk.inj heq).1
  · -- different breakpoints have different ids
    have hpair : s.breakpointStorage.Pairwise fun e e' => e.1 ≠ e'.1 :=
      List.pairwise_map.mp h.nodup
    refine hpair.imp_of_mem fun he he' hne => ?_
    intro e₀ hl hl'
    obtain ⟨l, -, rfl⟩ := List.mem_map.mp hl
    obtain ⟨l', -, heq⟩ := List.mem_map.mp hl'
    have hids := (Prod.mk.inj heq).2
    rw [h.getId_eq _ he, h.getId_eq _ he'] at hids
    exact hne hids.symm

theorem Consistent.resolveBreakpoints (h : s.Consistent) (hi : s.Integrity)
    (hnew : ∀ e ∈ s.breakpointStorage, e.2.NewTo file) :
    (s.resolveBreakpoints file).Consistent := by
  have hkeys := (hi.resolveBreakpoints file).nodup
  rw [resolveBreakpoints_eq] at hkeys ⊢
  refine .mk_of hkeys (fun l id => ?_) ?_
  · have hstored : (∃ bp',
          (id, bp') ∈ s.breakpointStorage.map (fun e => (e.1, e.2.afterResolve file)) ∧
            l ∈ bp'.locations) ↔
        ∃ bp, (id, bp) ∈ s.breakpointStorage ∧ l ∈ (bp.afterResolve file).locations := by
      simp
    rw [List.mem_append, hi.mem_newPairs, h.mapped_iff, hstored, ← exists_or]
    refine exists_congr fun bp => ?_
    rw [← and_or_left]
    exact and_congr_right fun hbp =>
      (bp.mem_locations_afterResolve (hi.sound _ hbp) (hnew _ hbp) l).symm
  · refine List.nodup_append.mpr ⟨h.nodup, hi.nodup_newPairs hnew, ?_⟩
    rintro ⟨l, id⟩ he e' he' rfl
    obtain ⟨bp, hbp, hl⟩ := (h.mapped_iff l id).mp he
    obtain ⟨bp', hbp', hl'⟩ := hi.mem_newPairs.mp he'
    obtain rfl := hi.unique hbp hbp'
    exact not_mem_newLocations (hi.sound _ hbp) (hnew _ hbp) hl hl'

theorem Consistent.removeBreakpoint (h : s.Consistent) (hi : s.Integrity) (id : BreakpointId) :
    (s.removeBreakpoint id).Consistent := by
  refine .mk_of (hi.removeBreakpoint id).nodup (fun l id' => ?_) (h.nodup.filter _)
  show (l, id') ∈ List.filter _ _ ↔ ∃ bp, (id', bp) ∈ List.filter _ _ ∧ _
  simp only [List.mem_filter, h.mapped_iff]
  constructor
  · rintro ⟨⟨bp, hbp, hl⟩, hne⟩
    exact ⟨bp, ⟨hbp, hne⟩, hl⟩
  · rintro ⟨bp, ⟨hbp, hne⟩, hl⟩
    exact ⟨⟨bp, hbp, hl⟩, hne⟩

/-- **A file that is not new** to some breakpoint makes the tables disagree. -/
theorem not_consistent_resolveBreakpoints (h : s.Consistent) (hi : s.Integrity)
    (hnew : ¬ ∀ e ∈ s.breakpointStorage, e.2.NewTo file) :
    ¬ (s.resolveBreakpoints file).Consistent := by
  intro hafter
  obtain ⟨⟨id, bp⟩, hbp, hnot⟩ : ∃ e ∈ s.breakpointStorage, ¬ e.2.NewTo file := by
    by_contra hall
    exact hnew fun e he => by_contra fun hne => hall ⟨e, he, hne⟩
  rw [resolveBreakpoints_eq] at hafter
  have hin : ∀ l ∈ bp.newLocations file, (l, id) ∈ s.newPairs file := fun l hl =>
    hi.mem_newPairs.mpr ⟨bp, hbp, hl⟩
  have hnodup := List.nodup_append.mp hafter.nodup
  have hnodupNew : (bp.newLocations file).Nodup := by
    have hsub : List.Sublist ((bp.newLocations file).map fun l => (l, bp.getId))
        (s.newPairs file) := by
      exact List.sublist_flatten_of_mem (List.mem_map.mpr ⟨(id, bp), hbp, rfl⟩)
    exact (hnodup.2.1.sublist hsub).of_map
  cases bp with
  | plain bp =>
    refine hnot ⟨hnodupNew, fun l hl hheld => ?_⟩
    have hold : (l, id) ∈ s.breakpointLocations := (h.mapped_iff l id).mpr ⟨_, hbp, hheld⟩
    exact hnodup.2.2 _ hold _ (hin l hl) rfl
  | conditional bp =>
    -- it is entered at one location at most, since it holds no more
    obtain ⟨bp', hbp'⟩ := afterResolve_conditional file bp
    have hstored : (id, conditional bp') ∈
        s.breakpointStorage.map fun e => (e.1, e.2.afterResolve file) :=
      List.mem_map.mpr ⟨_, hbp, by rw [hbp']⟩
    have hsingle : ∀ l ∈ newLocations file (.conditional bp),
        ∀ l' ∈ newLocations file (.conditional bp), l = l' := by
      intro l hl l' hl'
      exact hafter.single id bp' hstored l l' (List.mem_append_right _ (hin l hl))
        (List.mem_append_right _ (hin l' hl'))
    refine hnot ?_
    show (newLocations file (.conditional bp)).length ≤ 1
    rcases hnewl : newLocations file (.conditional bp) with - | ⟨l, - | ⟨l', ls⟩⟩
    · exact Nat.zero_le 1
    · exact Nat.le_refl 1
    · rw [hnewl, hsingle l (by simp [hnewl]) l' (by simp [hnewl])] at hnodupNew
      simp at hnodupNew

/-- An operation that resolves breakpoints does so with a file that is new to
them. -/
def ResolvesNew (s : BreakpointStorage) : StorageOp → Prop
  | .resolveBreakpoints file => ∀ e ∈ s.breakpointStorage, e.2.NewTo file
  | _ => True

theorem Consistent.step (h : s.Consistent) (hi : s.Integrity) {op : StorageOp}
    (hop : s.ResolvesNew op) : (s.step op).Consistent := by
  cases op with
  | setBreakpoint filter lineNumber condition cache =>
    rcases s.setBreakpoint_cases filter lineNumber condition cache with
      ⟨-, -, heq⟩ | ⟨-, -, bp, heq, hid, hlocs, hsound⟩
    · rw [BreakpointStorage.step, heq]
      exact h
    · rw [BreakpointStorage.step, heq]
      exact h.added hi hid hsound (hlocs ▸ List.nodup_dedup _)
  | resolveBreakpoints file => exact h.resolveBreakpoints hi hop
  | removeBreakpoint id => exact h.removeBreakpoint hi id
  | removeBreakpoints filter =>
    exact (removeBreakpoints_induction (P := fun s => Integrity s ∧ Consistent s)
      (fun _ id hs => ⟨hs.1.removeBreakpoint id, hs.2.removeBreakpoint hs.1 id⟩) ⟨hi, h⟩
      filter).2
  | reset => exact consistent_empty
  | setBreakpointsActive active => exact ⟨h.mapped_iff, h.nodup, h.single⟩

/-- **Consistency** of the two tables throughout a run: it holds exactly when
every file is new to the breakpoints at the time it is resolved. -/
theorem storage_consistent_iff (ops : List StorageOp) :
    (∀ k, (stateAt BreakpointStorage.step {} ops k).Consistent) ↔
      Admits BreakpointStorage.step ResolvesNew {} ops := by
  refine forall_stateAt_iff_admits (I := fun s => Integrity s ∧ Consistent s) (fun _ hs => hs.2)
    (fun s op hs hop => ⟨hs.1.step op, hs.2.step hs.1 hop⟩) ?_
    ⟨integrity_empty, consistent_empty⟩ ops
  intro s op hs hop
  cases op with
  | resolveBreakpoints file => exact not_consistent_resolveBreakpoints hs.2 hs.1 hop
  | setBreakpoint filter lineNumber condition cache
  | removeBreakpoint id | removeBreakpoints filter | reset | setBreakpointsActive active =>
    exact absurd trivial hop

/-- A file in which line 7 of `main.ets` is in two methods. -/
def twoMethods : PandaFile where
  address := 1
  filename := "main.abc"
  methods := [⟨1, "main.ets", [⟨0, 7⟩]⟩, ⟨2, "main.ets", [⟨4, 7⟩]⟩]

/-- A breakpoint is set before its file is loaded. -/
def pendingConditional : List StorageOp :=
  [.setBreakpoint (fun source _ => source == "main.ets") 7 (some "AQ==") {},
    .resolveBreakpoints twoMethods]

/-- A breakpoint is set, and its file is loaded again. -/
def loadedAgain : List StorageOp :=
  [.setBreakpoint (fun source _ => source == "main.ets") 7 none ⟨[twoMethods]⟩,
    .resolveBreakpoints twoMethods]

/-- The conditional breakpoint is entered at both locations but holds one; the
plain one is entered at each location twice. -/
theorem storage_inconsistent :
    ¬ (stateAt BreakpointStorage.step {} pendingConditional 2).Consistent ∧
      ¬ (stateAt BreakpointStorage.step {} loadedAgain 2).Consistent := by
  constructor
  · intro h
    have hmapped : (⟨"main.abc", 1, 0⟩, 0) ∈
        (stateAt BreakpointStorage.step {} pendingConditional 2).breakpointLocations := by decide
    obtain ⟨bp, hbp, hheld⟩ := (h.mapped_iff _ _).mp hmapped
    obtain rfl := congrArg Prod.snd (List.mem_singleton.mp hbp)
    exact absurd hheld (by decide)
  · intro h
    exact absurd h.nodup (by decide)

/-! ### Removed breakpoints -/

/-- The id has been given out, and no breakpoint has it any more. -/
structure Gone (s : BreakpointStorage) (id : BreakpointId) : Prop where
  integrity : s.Integrity
  below : id < s.nextBreakpointId
  absent : id ∉ s.breakpointStorage.map Prod.fst

theorem Gone.removeBreakpoint (h : s.Gone id) (id' : BreakpointId) :
    (s.removeBreakpoint id').Gone id where
  integrity := h.integrity.removeBreakpoint id'
  below := h.below
  absent hid := h.absent ((List.filter_sublist.map _).mem hid)

theorem Gone.step (h : s.Gone id) {op : StorageOp} (hop : op ≠ .reset) : (s.step op).Gone id := by
  cases op with
  | setBreakpoint filter lineNumber condition cache =>
    rcases s.setBreakpoint_cases filter lineNumber condition cache with
      ⟨-, -, heq⟩ | ⟨-, -, bp, heq, hid, -, hsound⟩
    · rw [BreakpointStorage.step, heq]
      exact h
    · rw [BreakpointStorage.step, heq]
      refine ⟨h.integrity.added hid hsound, Nat.lt_succ_of_lt h.below, ?_⟩
      rw [added, h.integrity.filter_next, List.map_cons, List.mem_cons, not_or]
      exact ⟨Nat.ne_of_lt h.below, h.absent⟩
  | resolveBreakpoints file =>
    refine ⟨h.integrity.resolveBreakpoints file, ?_, ?_⟩
    all_goals rw [BreakpointStorage.step, resolveBreakpoints_eq]
    · exact h.below
    · simpa using h.absent
  | removeBreakpoint id' => exact h.removeBreakpoint id'
  | removeBreakpoints filter =>
    exact removeBreakpoints_induction (P := (Gone · id)) (fun _ id' hs => hs.removeBreakpoint id') h
      filter
  | reset => exact absurd rfl hop
  | setBreakpointsActive active => exact ⟨h.integrity.step _, h.below, h.absent⟩

/-- **Ids are not used again** until a `Reset`: whatever happens after a breakpoint has been
removed, it is at no location, and no other breakpoint gets its id. -/
theorem removed_id_not_reused {ops later : List StorageOp}
    (hid : id < (ops.foldl step {}).nextBreakpointId) (hlater : .reset ∉ later) :
    let s := later.foldl step ((ops.foldl step {}).removeBreakpoint id)
    (∀ location, id ∉ s.getBreakpointsByLocation location) ∧
      ∀ filter lineNumber condition cache,
        (s.setBreakpoint filter lineNumber condition cache).1 ≠ some id := by
  intro s
  have hgone : s.Gone id := by
    have hi := integrity_stateAt ops ops.length
    rw [stateAt_length] at hi
    refine List.foldlRecOn later step (motive := fun s => s.Gone id)
      ⟨hi.removeBreakpoint id, hid, ?_⟩ fun s hs op hop => hs.step (ne_of_mem_of_not_mem hop hlater)
    simp [BreakpointStorage.removeBreakpoint]
  constructor
  · intro location hmem
    obtain ⟨e, he, rfl⟩ := List.mem_map.mp hmem
    exact hgone.absent (hgone.integrity.present e (List.mem_of_mem_filter he))
  · intro filter lineNumber condition cache heq
    rcases s.setBreakpoint_cases filter lineNumber condition cache with ⟨-, hnone, -⟩ | ⟨-, hnew, -⟩
    · rw [hnone] at heq
      cases heq
    · rw [hnew] at heq
      exact absurd hgone.below (Option.some.inj heq ▸ Nat.lt_irrefl _)

/-- The breakpoint is set again, and its file loaded again. -/
theorem removed_id_loadedAgain :
    0 ∉ (loadedAgain.foldl step ((loadedAgain.foldl step {}).removeBreakpoint
      0)).getBreakpointsByLocation ⟨"main.abc", 1, 0⟩ :=
  (removed_id_not_reused (by decide) (by simp [loadedAgain])).1 _

end BreakpointStorage

end ArkToolchain
