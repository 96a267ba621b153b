/-
Several writers of one stream.

A writer appends an item to the stream piece by piece; between two pieces the other writers may
append theirs.  Every element is recorded with the item it comes from, and every item has an
identity.  Items stay whole (`WriteLog.Intact`) exactly if no writer begins one while another
one is unfinished.
-/
import Mathlib.Data.List.Count
import Mathlib.Logic.Function.Basic

namespace ArkToolchain

/-! ### Items on a stream -/

structure Item (α : Type*) where
  id : Nat
  data : List α
  deriving DecidableEq

namespace Item

variable {α : Type*}

/-- `n` elements of the item from position `m` on, as they appear on the
stream. -/
def chunk (g : Item α) (m n : Nat) : List (Item α × α) :=
  ((g.data.drop m).take n).map fun a => (g, a)

def whole (g : Item α) : List (Item α × α) :=
  g.chunk 0 g.data.length

theorem chunk_append_chunk (g : Item α) (m n : Nat) :
    g.chunk 0 m ++ g.chunk m n = g.chunk 0 (m + n) := by
  simp only [chunk, List.drop_zero, List.take_add, List.map_append]

theorem chunk_zero_of_le {g : Item α} {n : Nat} (h : g.data.length ≤ n) :
    g.chunk 0 n = g.whole := by
  simp only [whole, chunk, List.drop_zero, List.take_of_length_le h, List.take_length]

theorem getLast_chunk {g : Item α} {m n : Nat} (w : List (Item α × α)) (hn : 0 < n)
    (hle : m + n ≤ g.data.length) : (w ++ g.chunk m n).getLast?.map Prod.fst = some g := by
  obtain ⟨a, ha⟩ : ∃ a, ((g.data.drop m).take n).getLast? = some a := by
    rw [← Option.isSome_iff_exists, List.getLast?_isSome, ← List.length_pos_iff]
    simp
    omega
  rw [List.getLast?_append, chunk, List.getLast?_map, ha]
  rfl

end Item

section Amount

variable {α : Type*} [DecidableEq α]

def amount (wire : List (Item α × α)) (g : Item α) : Nat :=
  (wire.map Prod.fst).count g

@[simp] theorem amount_nil (g : Item α) : amount [] g = 0 := rfl

@[simp] theorem amount_append (w w' : List (Item α × α)) (g : Item α) :
    amount (w ++ w') g = amount w g + amount w' g := by
  simp [amount]

theorem amount_chunk (g g' : Item α) (m n : Nat) :
    amount (g.chunk m n) g' = if g = g' then min n (g.data.length - m) else 0 := by
  have hfst : (g.chunk m n).map Prod.fst = List.replicate (min n (g.data.length - m)) g := by
    rw [Item.chunk, List.map_map, List.eq_replicate_iff]
    constructor
    · simp
    · intro b hb
      obtain ⟨a, -, rfl⟩ := List.mem_map.mp hb
      rfl
  rw [amount, hfst, List.count_replicate]
  simp

theorem amount_chunk_of_ne {g g' : Item α} (h : g ≠ g') (m n : Nat) :
    amount (g.chunk m n) g' = 0 := by
  rw [amount_chunk, if_neg h]

theorem amount_chunk_self {g : Item α} {m n : Nat} (h : m + n ≤ g.data.length) :
    amount (g.chunk m n) g = n := by
  rw [amount_chunk, if_pos rfl]
  omega

theorem amount_flatMap_whole {done : List (Item α)} (hdone : done.Nodup) (g : Item α) :
    amount (done.flatMap Item.whole) g = if g ∈ done then g.data.length else 0 := by
  induction done with
  | nil => rfl
  | cons d done ih =>
    obtain ⟨hd, hdone⟩ := List.nodup_cons.mp hdone
    rw [List.flatMap_cons, amount_append, ih hdone, Item.whole, amount_chunk]
    by_cases hg : d = g
    · subst hg
      simp [hd]
    · have hg' : ¬ g = d := fun h => hg h.symm
      simp [hg, hg']

end Amount

/-! ### The log -/

structure WriteLog (α : Type*) where
  /-- The number of items begun so far, which is the next identity. -/
  started : Nat := 0
  wire : List (Item α × α) := []
  /-- A writer gave up in the middle of an item. -/
  torn : Bool := false

/-- What a writer has in hand. -/
structure Writing (α : Type*) where
  item : Item α
  sent : Nat

namespace WriteLog

variable {α : Type*}

/-- The stream consists of whole items, each once, and the first `n` elements
of one more. -/
def Intact (log : WriteLog α) : Prop :=
  ∃ (done : List (Item α)) (g : Item α) (n : Nat),
    log.wire = done.flatMap Item.whole ++ g.chunk 0 n ∧ done.Nodup ∧ g ∉ done

/-- What one writer does in one step: nothing, take an item, write a piece,
return when all is written, or give up. -/
inductive Step : WriteLog α → Option (Writing α) → WriteLog α → Option (Writing α) → Prop
  | quiet (log) : Step log none log none
  | start (log) (data : List α) :
      Step log none { log with started := log.started + 1 } (some ⟨⟨log.started, data⟩, 0⟩)
  | write (log) (g : Item α) (m n : Nat) (hn : 0 < n) (hle : m + n ≤ g.data.length) :
      Step log (some ⟨g, m⟩) { log with wire := log.wire ++ g.chunk m n } (some ⟨g, m + n⟩)
  | finish (log) (g : Item α) (m : Nat) (hm : g.data.length ≤ m) : Step log (some ⟨g, m⟩) log none
  | giveUp (log) (g : Item α) (m : Nat) (hm : m < g.data.length) :
      Step log (some ⟨g, m⟩) { log with torn := log.torn || decide (0 < m) } none

theorem Intact.initial : (({} : WriteLog α)).Intact :=
  ⟨[], ⟨0, []⟩, 0, rfl, List.nodup_nil, List.not_mem_nil⟩

variable [DecidableEq α] {log : WriteLog α} {g : Item α}

def Unfinished (log : WriteLog α) (g : Item α) : Prop :=
  0 < amount log.wire g ∧ amount log.wire g < g.data.length

theorem Intact.of_unfinished (h : log.Intact) (hg : log.Unfinished g) :
    ∃ done : List (Item α),
      log.wire = done.flatMap Item.whole ++ g.chunk 0 (amount log.wire g) ∧
        done.Nodup ∧ g ∉ done := by
  obtain ⟨done, g', n, hwire, hdone, hg'⟩ := h
  obtain ⟨hpos, hlt⟩ := hg
  have hamount : amount log.wire g =
      (if g ∈ done then g.data.length else 0) + if g' = g then min n g'.data.length else 0 := by
    rw [hwire, amount_append, amount_flatMap_whole hdone, amount_chunk, Nat.sub_zero]
  -- a whole item would count in full, so `g` can only be the last one
  have hmem : g ∉ done := by
    intro hmem
    rw [if_pos hmem] at hamount
    omega
  rw [if_neg hmem] at hamount
  obtain rfl : g' = g := by
    by_contra hne
    rw [if_neg hne] at hamount
    omega
  rw [if_pos rfl] at hamount
  have hn : n = amount log.wire g' := by omega
  exact ⟨done, hn ▸ hwire, hdone, hmem⟩

theorem Intact.getLast_of_unfinished (h : log.Intact) (hg : log.Unfinished g) :
    log.wire.getLast?.map Prod.fst = some g := by
  obtain ⟨done, hwire, -, -⟩ := h.of_unfinished hg
  rw [hwire]
  exact Item.getLast_chunk _ hg.1 (by have := hg.2; omega)

theorem Intact.of_forall_not_unfinished (h : log.Intact) (hno : ∀ g, ¬ log.Unfinished g) :
    ∃ done : List (Item α), log.wire = done.flatMap Item.whole ∧ done.Nodup := by
  obtain ⟨done, g, n, hwire, hdone, hg⟩ := h
  rcases Nat.lt_or_ge n g.data.length with hn | hn
  · -- the beginning of an item that is not unfinished is empty
    rcases Nat.eq_zero_or_pos n with rfl | hpos
    · exact ⟨done, by simpa [Item.chunk] using hwire, hdone⟩
    · refine absurd ?_ (hno g)
      have hamount : amount log.wire g = n := by
        rw [hwire, amount_append, amount_flatMap_whole hdone, if_neg hg,
          amount_chunk_self (by omega), Nat.zero_add]
      exact ⟨by omega, by omega⟩
  · refine ⟨done ++ [g], ?_, ?_⟩
    · rw [hwire, Item.chunk_zero_of_le hn, List.flatMap_append]
      simp
    · exact List.nodup_append.mpr ⟨hdone, by simp, by
        intro a ha b hb hab
        rw [List.mem_singleton.mp hb] at hab
        exact hg (hab ▸ ha)⟩

end WriteLog

/-! ### The invariant -/

variable {Θ α : Type*} [DecidableEq α]

/-- What holds while no writer begins an item at a wrong moment. -/
structure WriteInv (log : WriteLog α) (work : Θ → Option (Writing α)) : Prop where
  intact : log.Intact
  amount_eq : ∀ t w, work t = some w → amount log.wire w.item = w.sent
  sent_le : ∀ t w, work t = some w → w.sent ≤ w.item.data.length
  id_lt : ∀ t w, work t = some w → w.item.id < log.started
  wire_lt : ∀ g : Item α, 0 < amount log.wire g → g.id < log.started
  distinct : ∀ t u w w', work t = some w → work u = some w' → w.item = w'.item → t = u
  /-- An unfinished item is in some writer's hands, unless one gave up. -/
  owned : ∀ g, log.Unfinished g → log.torn = true ∨ ∃ t w, work t = some w ∧ w.item = g
  torn : log.torn = true → ∃ g, log.Unfinished g ∧ ∀ t w, work t = some w → w.item ≠ g

/-- Nobody but `t` has an item unfinished. -/
def Undisturbed (log : WriteLog α) (work : Θ → Option (Writing α)) (t : Θ) : Prop :=
  log.torn = false ∧ ∀ u w, u ≠ t → work u = some w → ¬ (0 < w.sent ∧ w.sent < w.item.data.length)

namespace WriteInv

variable {log log' : WriteLog α} {work : Θ → Option (Writing α)} {t : Θ} {w : Option (Writing α)}

theorem initial : WriteInv ({} : WriteLog α) fun _ : Θ => none where
  intact := WriteLog.Intact.initial
  amount_eq := by simp
  sent_le := by simp
  id_lt := by simp
  wire_lt := by simp
  distinct := by simp
  owned := by simp [WriteLog.Unfinished]
  torn := by simp

theorem unfinished_iff (h : WriteInv log work) {v : Writing α} (ht : work t = some v) :
    log.Unfinished v.item ↔ 0 < v.sent ∧ v.sent < v.item.data.length := by
  rw [WriteLog.Unfinished, h.amount_eq t v ht]

variable {g : Item α}

theorem not_unfinished (h : WriteInv log work) (ht : work t = some ⟨g, 0⟩)
    (hfree : Undisturbed log work t) (g' : Item α) : ¬ log.Unfinished g' := by
  intro hg'
  rcases h.owned g' hg' with htorn | ⟨u, v, hu, rfl⟩
  · exact absurd htorn (by simp [hfree.1])
  · have hv := (h.unfinished_iff hu).mp hg'
    by_cases hut : u = t
    · subst hut
      obtain rfl : v = ⟨g, 0⟩ := Option.some.inj (hu.symm.trans ht)
      exact absurd hv.1 (Nat.lt_irrefl 0)
    · exact hfree.2 u v hut hu hv

/-- Writing keeps the stream intact: a piece that continues an item goes
behind it, and a first piece goes behind whole items. -/
theorem intact_write (h : WriteInv log work) {m n : Nat} (ht : work t = some ⟨g, m⟩) (hn : 0 < n)
    (hle : m + n ≤ g.data.length) (hfree : m = 0 → Undisturbed log work t) :
    ({ log with wire := log.wire ++ g.chunk m n } : WriteLog α).Intact := by
  have hamount : amount log.wire g = m := h.amount_eq t _ ht
  rcases Nat.eq_zero_or_pos m with rfl | hpos
  · -- the first piece: all items on the stream are whole, and `g` is not yet among them
    obtain ⟨done, hwire, hdone⟩ :=
      h.intact.of_forall_not_unfinished (h.not_unfinished ht (hfree rfl))
    refine ⟨done, g, n, by rw [hwire], hdone, ?_⟩
    intro hg
    rw [hwire, amount_flatMap_whole hdone, if_pos hg] at hamount
    omega
  · -- a later piece: `g` is at the end of the stream
    have hunf : log.Unfinished g := ⟨by omega, by omega⟩
    obtain ⟨done, hwire, hdone, hg⟩ := h.intact.of_unfinished hunf
    refine ⟨done, g, m + n, ?_, hdone, hg⟩
    show log.wire ++ g.chunk m n = _
    rw [hwire, hamount, List.append_assoc, Item.chunk_append_chunk]

variable [DecidableEq Θ]

omit [DecidableEq α] in
theorem update_eq_some {u : Θ} {v : Writing α} (h : Function.update work t w u = some v) :
    (u = t ∧ w = some v) ∨ (u ≠ t ∧ work u = some v) := by
  by_cases hut : u = t
  · subst hut
    exact .inl ⟨rfl, by simpa using h⟩
  · exact .inr ⟨hut, by simpa [hut] using h⟩

omit [DecidableEq α] in
theorem forall_update {P : Θ → Writing α → Prop} (hnew : ∀ v, w = some v → P t v)
    (hold : ∀ u v, u ≠ t → work u = some v → P u v) :
    ∀ u v, Function.update work t w u = some v → P u v := by
  intro u v hv
  rcases update_eq_some hv with ⟨rfl, hw⟩ | ⟨hut, hu⟩
  · exact hnew v hw
  · exact hold u v hut hu

section

variable (h : WriteInv log work)
include h

theorem distinct_update
    (hnew : ∀ v, w = some v → ∀ u v', u ≠ t → work u = some v' → v'.item ≠ v.item) :
    ∀ u u' v v', Function.update work t w u = some v → Function.update work t w u' = some v' →
      v.item = v'.item → u = u' := by
  intro u u' v v' hv hv' hitem
  rcases update_eq_some hv with ⟨rfl, hw⟩ | ⟨hut, hu⟩ <;>
    rcases update_eq_some hv' with ⟨rfl, hw'⟩ | ⟨hut', hu'⟩
  · rfl
  · exact absurd hitem.symm (hnew v hw u' v' hut' hu')
  · exact absurd hitem (hnew v' hw' u v hut hu)
  · exact h.distinct u u' v v' hu hu' hitem

/-- An item that is not the one of `t` is still in its writer's hands. -/
theorem owned_update (hg : log.Unfinished g) (ht : ∀ v, work t = some v → v.item ≠ g) :
    log.torn = true ∨ ∃ u v, Function.update work t w u = some v ∧ v.item = g := by
  refine (h.owned g hg).imp_right ?_
  rintro ⟨u, v, hu, hv⟩
  have hut : u ≠ t := by
    rintro rfl
    exact ht v hu hv
  exact ⟨u, v, by rw [Function.update_of_ne hut, hu], hv⟩

/-- A writer lets go of its item; `b` says that it gave up in the middle. -/
theorem release (b : Bool) (hb : ∀ v, work t = some v → log.Unfinished v.item → b = true)
    (hb' : b = true → ∃ v, work t = some v ∧ log.Unfinished v.item) :
    WriteInv { log with torn := log.torn || b } (Function.update work t none) := by
  -- what is still in hand was in hand before
  have hback : ∀ {u v}, Function.update work t none u = some v → u ≠ t ∧ work u = some v := by
    intro u v hv
    rcases update_eq_some hv with ⟨-, hv⟩ | hv
    · exact absurd hv (by simp)
    · exact hv
  refine ⟨h.intact, fun u v hv => h.amount_eq u v (hback hv).2,
    fun u v hv => h.sent_le u v (hback hv).2, fun u v hv => h.id_lt u v (hback hv).2, h.wire_lt,
    fun u u' v v' hv hv' => h.distinct u u' v v' (hback hv).2 (hback hv').2, ?_, ?_⟩
  · intro g hg
    rcases h.owned g hg with htorn | ⟨u, v, hu, rfl⟩
    · exact .inl (by simp [htorn])
    · by_cases hut : u = t
      · subst hut
        exact .inl (by simp [hb v hu hg])
      · exact .inr ⟨u, v, by simpa [hut] using hu, rfl⟩
  · intro htorn
    rcases Bool.or_eq_true_iff.mp htorn with htorn | hbt
    · obtain ⟨g, hg, hfree⟩ := h.torn htorn
      exact ⟨g, hg, fun u v hv => hfree u v (hback hv).2⟩
    · obtain ⟨v, hv, hunf⟩ := hb' hbt
      refine ⟨v.item, hunf, fun u v' hv' hitem => ?_⟩
      obtain ⟨hut, hu⟩ := hback hv'
      exact hut (h.distinct u t v' v hu hv hitem)

theorem start (ht : work t = none) (data : List α) :
    WriteInv { log with started := log.started + 1 }
      (Function.update work t (some ⟨⟨log.started, data⟩, 0⟩)) := by
  -- the identity of the new item is larger than all others
  have hfresh : amount log.wire ⟨log.started, data⟩ = 0 := by
    by_contra hne
    exact absurd (h.wire_lt _ (Nat.pos_of_ne_zero hne)) (Nat.lt_irrefl _)
  refine ⟨h.intact, forall_update ?_ ?_, forall_update ?_ ?_, forall_update ?_ ?_,
    fun g hg => Nat.lt_succ_of_lt (h.wire_lt g hg), h.distinct_update ?_, ?_, ?_⟩
  · rintro v ⟨rfl⟩
    exact hfresh
  · exact fun u v _ hv => h.amount_eq u v hv
  · rintro v ⟨rfl⟩
    exact Nat.zero_le _
  · exact fun u v _ hv => h.sent_le u v hv
  · rintro v ⟨rfl⟩
    exact Nat.lt_succ_self _
  · exact fun u v _ hv => Nat.lt_succ_of_lt (h.id_lt u v hv)
  · rintro v ⟨rfl⟩ u v' - hv' hitem
    exact absurd (h.id_lt u v' hv') (by rw [hitem]; exact Nat.lt_irrefl _)
  · intro g hg
    exact h.owned_update hg (by simp [ht])
  · intro htorn
    obtain ⟨g, hg, hfree⟩ := h.torn htorn
    refine ⟨g, hg, forall_update ?_ fun u v _ hv => hfree u v hv⟩
    rintro v ⟨rfl⟩ rfl
    exact absurd hg.1 (by simp [hfresh])

theorem write {m n : Nat} (ht : work t = some ⟨g, m⟩) (hn : 0 < n) (hle : m + n ≤ g.data.length)
    (hfree : m = 0 → Undisturbed log work t) :
    WriteInv { log with wire := log.wire ++ g.chunk m n }
      (Function.update work t (some ⟨g, m + n⟩)) := by
  -- the piece counts for `g` and for no other item
  have hself : amount (log.wire ++ g.chunk m n) g = m + n := by
    rw [amount_append, amount_chunk_self hle, h.amount_eq t _ ht]
  have hother : ∀ g', g ≠ g' → amount (log.wire ++ g.chunk m n) g' = amount log.wire g' := by
    intro g' hne
    rw [amount_append, amount_chunk_of_ne hne, Nat.add_zero]
  have hdistinct : ∀ u v, u ≠ t → work u = some v → v.item ≠ g :=
    fun u v hut hv hg => hut (h.distinct u t v ⟨g, m⟩ hv ht hg)
  refine ⟨h.intact_write ht hn hle hfree, forall_update ?_ ?_, forall_update ?_ ?_,
    forall_update ?_ ?_, ?_, h.distinct_update ?_, ?_, ?_⟩
  · rintro v ⟨rfl⟩
    exact hself
  · intro u v hut hv
    exact (hother v.item (hdistinct u v hut hv).symm).trans (h.amount_eq u v hv)
  · rintro v ⟨rfl⟩
    exact hle
  · exact fun u v _ hv => h.sent_le u v hv
  · rintro v ⟨rfl⟩
    exact h.id_lt t ⟨g, m⟩ ht
  · exact fun u v _ hv => h.id_lt u v hv
  · intro g' hg'
    by_cases hne : g = g'
    · subst hne
      exact h.id_lt t _ ht
    · exact h.wire_lt g' (by rwa [← hother g' hne])
  · rintro v ⟨rfl⟩ u v' hut hv'
    exact hdistinct u v' hut hv'
  · -- `g` itself is in the hands of `t`, the others where they were
    intro g' hg'
    by_cases hne : g = g'
    · exact .inr ⟨t, ⟨g, m + n⟩, by simp, hne⟩
    · have hg : log.Unfinished g' := by
        rwa [WriteLog.Unfinished, ← hother g' hne]
      refine h.owned_update hg fun v hv => ?_
      obtain rfl := Option.some.inj (hv.symm.trans ht)
      exact hne
  · intro htorn
    obtain ⟨g', hg', hno⟩ := h.torn htorn
    have hne : g ≠ g' := hno t _ ht
    refine ⟨g', ?_, forall_update ?_ fun u v _ hv => hno u v hv⟩
    · show 0 < amount (log.wire ++ g.chunk m n) g' ∧ amount (log.wire ++ g.chunk m n) g' < _
      rw [hother g' hne]
      exact hg'
    · rintro v ⟨rfl⟩
      exact hne

/-- **Steps that keep items whole**: the invariant is preserved by every step
but the first piece of an item that is written while another one is
unfinished. -/
theorem step {v : Option (Writing α)} (hv : work t = v) (hstep : WriteLog.Step log v log' w)
    (hfree : ∀ g, v = some ⟨g, 0⟩ → log'.wire ≠ log.wire → Undisturbed log work t) :
    WriteInv log' (Function.update work t w) := by
  cases hstep with
  | quiet =>
    rw [← hv, Function.update_eq_self]
    exact h
  | start data => exact h.start hv data
  | write g m n hn hle =>
    refine h.write hv hn hle fun hm => hfree g (by rw [hm]) ?_
    intro heq
    have := congrArg List.length heq
    simp [Item.chunk] at this
    omega
  | finish g m hm =>
    have hr := h.release (t := t) false ?_ (by simp)
    · simpa using hr
    · intro u hu hunf
      obtain rfl := Option.some.inj (hu.symm.trans hv)
      exact absurd ((h.unfinished_iff hv).mp hunf).2 (Nat.not_lt.mpr hm)
  | giveUp g m hm =>
    apply h.release
    · intro u hu hunf
      obtain rfl := Option.some.inj (hu.symm.trans hv)
      exact decide_eq_true ((h.unfinished_iff hv).mp hunf).1
    · intro hpos
      exact ⟨_, hv, (h.unfinished_iff hv).mpr ⟨of_decide_eq_true hpos, hm⟩⟩

end

omit [DecidableEq Θ] in
/-- **The exception is real**: a first piece that is written while another
item is unfinished tears that item apart. -/
theorem not_intact (h : WriteInv log work) {n : Nat} (ht : work t = some ⟨g, 0⟩) (hn : 0 < n)
    (hle : n ≤ g.data.length) (hdist : ¬ Undisturbed log work t) :
    ¬ ({ log with wire := log.wire ++ g.chunk 0 n } : WriteLog α).Intact := by
  -- some other item is unfinished
  obtain ⟨g', hg', hne⟩ : ∃ g', log.Unfinished g' ∧ g ≠ g' := by
    by_cases htorn : log.torn = true
    · obtain ⟨g', hg', hno⟩ := h.torn htorn
      exact ⟨g', hg', hno t _ ht⟩
    · simp only [Undisturbed, not_and, not_forall, not_not] at hdist
      obtain ⟨u, v, hut, hu, hpos, hlt⟩ := hdist (by simpa using htorn)
      exact ⟨v.item, (h.unfinished_iff hu).mpr ⟨hpos, hlt⟩,
        fun hg => hut (h.distinct u t v _ hu ht hg.symm)⟩
  -- it would have to be at the end of the stream, where `g` is now
  intro hint
  have hunf : ({ log with wire := log.wire ++ g.chunk 0 n } : WriteLog α).Unfinished g' := by
    show 0 < amount (log.wire ++ g.chunk 0 n) g' ∧ amount (log.wire ++ g.chunk 0 n) g' < _
    rw [amount_append, amount_chunk_of_ne hne, Nat.add_zero]
    exact hg'
  have hend : (log.wire ++ g.chunk 0 n).getLast?.map Prod.fst = some g :=
    Item.getLast_chunk _ hn (by omega)
  exact hne (Option.some.inj (hend.symm.trans (hint.getLast_of_unfinished hunf)))

end WriteInv

end ArkToolchain
