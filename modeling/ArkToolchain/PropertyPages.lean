/-
Properties in pages (`AdjustStartAndLength`, `GetMapValueCommon` and `GetSetValueCommon` of
runtime_impl.cpp, with and without a range).

The end of a range is a sum of two numbers of the client in 32 bits.  A range counts the slots
of the container, and slots keep their place when their entry is deleted; so pages lose entries
or have holes as soon as a deleted slot lies among those that are asked for.

Main results: `adjusts_well_iff` and `pages_fit_iff`.
-/
import ArkToolchain.RuntimeProperties
import Mathlib.Data.List.ReduceOption

namespace ArkToolchain

universe u

namespace GetPropertiesParams

/-- A request for `count` entries from `start` on. -/
def ofRange (start count : Int) : GetPropertiesParams :=
  { objectId := 0, startIndex := some start, groupCount := some count }

/-- The adjusted range is the one that was asked for, cut off at the end of the
container, or all of it if it starts behind the end. -/
def AdjustsWell (start count : Int) (length : Nat) : Prop :=
  let (first, last) := (ofRange start count).adjustStartAndLength length
  (first, last) = (if start < length then (start, min (start + count) length) else (0, ↑length)) ∧
    0 ≤ first ∧ first ≤ last ∧ last ≤ length

variable {start count : Int} {length : Nat}

theorem adjustStartAndLength_eq (hstart : 0 ≤ start) (hcount : 0 < count) (hlt : start < length) :
    (ofRange start count).adjustStartAndLength length
      = (start, if int32 (start + count) ≤ length then int32 (start + count) else length) := by
  simp [adjustStartAndLength, ofRange, hstart, hcount, hlt]

/-- A sum that does not fit in 32 bits is negative. -/
theorem int32_add_lt {a b : Int} (ha : a < 2 ^ 31) (hb : b < 2 ^ 31) (h : 2 ^ 31 ≤ a + b) :
    int32 (a + b) < 0 := by
  rw [int32, Int.bmod_def]
  omega

/-- **Ranges**: for every 32-bit start and count that are valid and every length, the
adjusted range is right exactly if the end of a range that starts inside fits in
32 bits. -/
theorem adjusts_well_iff (hstart : 0 ≤ start) (hstart' : start < 2 ^ 31) (hcount : 0 < count)
    (hcount' : count < 2 ^ 31) (hlength : length < 2 ^ 31) :
    AdjustsWell start count length ↔ (start < length → start + count < 2 ^ 31) := by
  by_cases hlt : start < length
  · simp only [AdjustsWell, adjustStartAndLength_eq hstart hcount hlt, hlt, if_true,
      forall_const, Prod.mk.injEq, true_and]
    constructor
    · rintro ⟨-, -, hle, -⟩
      by_contra hbig
      have hneg := int32_add_lt hstart' hcount' (Int.not_lt.mp hbig)
      omega
    · intro hsum
      rw [int32_eq (by omega) hsum]
      split <;> omega
  · simp [AdjustsWell, adjustStartAndLength, ofRange, hlt]

theorem adjusts_well_cut : AdjustsWell 2 10 5 :=
  (adjusts_well_iff (by decide) (by decide) (by decide) (by decide) (by decide)).mpr (by decide)

/-- `start = 1` and `count = 2147483647`: the end is `-2147483648`. -/
theorem adjusts_well_overflow :
    (ofRange 1 2147483647).adjustStartAndLength 2 = (1, -2147483648) ∧
      ¬ AdjustsWell 1 2147483647 2 := by
  refine ⟨by decide, ?_⟩
  rintro ⟨-, -, hle, -⟩
  exact absurd hle (by decide)

end GetPropertiesParams

/-! ### Maps and sets -/

variable {α : Type u} (slots : List (Option α)) (count : Nat)

/-- `GetSize` of a container, whose deleted slots hold nothing. -/
def liveSize : Nat := slots.reduceOption.length

/-- `GetMapValueCommon` and `GetSetValueCommon`: the entries. -/
def getValueCommon : List α := slots.reduceOption

/-- An array of the given size, filled from its front. -/
def fillFront (size : Nat) (entries : List α) : List (Option α) :=
  entries.map some ++ List.replicate (size - entries.length) none

/-- `GetMapValueCommonWithRange` and `GetSetValueCommonWithRange`: an array with a place
for each slot of the range.  If the end of the range has wrapped, so does the difference: it is
the count again, and no slot is read. -/
def getValueCommonWithRange (params : GetPropertiesParams) (slots : List (Option α)) :
    List (Option α) :=
  let (start, last) := params.adjustStartAndLength slots.length
  fillFront (int32 (last - start)).toNat ((slots.take last.toNat).drop start.toNat).reduceOption

/-- The page of `count` entries from `start` on. -/
def page (start : Nat) : List (Option α) :=
  getValueCommonWithRange (.ofRange start count) slots

def pageCount : Nat := (liveSize slots + count - 1) / count

/-- `0`, `count`, `2 * count` and so on, below the size. -/
def pageStarts : List Nat :=
  (List.range (pageCount slots count)).map (· * count)

/-- The pages have no holes, and together the entries are what the request without a
range returns. -/
def PagesFit : Prop :=
  (∀ start ∈ pageStarts slots count, none ∉ page slots count start) ∧
    (pageStarts slots count).flatMap (fun start => (page slots count start).reduceOption)
      = getValueCommon slots

section Pages

variable {slots count} {start : Nat}

theorem lt_length_of_mem_pageStarts (hcount : 0 < count) (h : start ∈ pageStarts slots count) :
    start < slots.length := by
  obtain ⟨k, hk, rfl⟩ := List.mem_map.mp h
  have hle := (Nat.le_div_iff_mul_le hcount).mp (Nat.succ_le_of_lt (List.mem_range.mp hk))
  have hlive : liveSize slots ≤ slots.length := List.reduceOption_length_le slots
  rw [Nat.succ_mul] at hle
  omega

theorem liveSize_le_pages (hcount : 0 < count) :
    liveSize slots ≤ pageCount slots count * count := by
  have hdiv := Nat.div_add_mod (liveSize slots + count - 1) count
  have hmod := Nat.mod_lt (liveSize slots + count - 1) hcount
  rw [pageCount, Nat.mul_comm]
  omega

theorem none_mem_fillFront : none ∈ fillFront slots.length slots.reduceOption ↔ none ∈ slots := by
  have hlt := List.reduceOption_length_lt_iff (l := slots)
  rw [← hlt]
  simp [fillFront, Nat.sub_ne_zero_iff_lt]

theorem reduceOption_fillFront (size : Nat) (entries : List α) :
    (fillFront size entries).reduceOption = entries := by
  simp [fillFront, List.reduceOption]

/-- The slots of the pages are the first ones of the container. -/
theorem flatMap_pageStarts :
    (pageStarts slots count).flatMap (fun start => (slots.drop start).take count)
      = slots.take (pageCount slots count * count) := by
  rw [pageStarts]
  generalize pageCount slots count = n
  induction n with
  | zero => simp
  | succ n ih =>
    rw [List.range_succ, List.map_append, List.flatMap_append, ih, Nat.succ_mul, List.take_add]
    simp

theorem page_eq (hcount : 0 < count) (hcount' : count < 2 ^ 31) (hlength : slots.length < 2 ^ 31)
    (hlt : start < slots.length) :
    page slots count start = if start + count < 2 ^ 31 then
      fillFront ((slots.drop start).take count).length ((slots.drop start).take count).reduceOption
      else List.replicate count none := by
  rw [page, getValueCommonWithRange, GetPropertiesParams.adjustStartAndLength_eq (by omega)
    (by omega) (by omega)]
  dsimp only
  by_cases hfits : start + count < 2 ^ 31
  · have hlast : (if (start + count : Int) ≤ slots.length then (start + count : Int)
        else slots.length) = ↑(min (start + count) slots.length) := by omega
    have hpart : (slots.take (min (start + count) slots.length)).drop start
        = (slots.drop start).take count := by
      rw [← List.take_eq_take_min, List.drop_take, Nat.add_sub_cancel_left]
    have hsize : (int32 (↑(min (start + count) slots.length) - start)).toNat
        = ((slots.drop start).take count).length := by
      rw [int32_eq (by omega) (by omega), List.length_take, List.length_drop]
      omega
    have hsum : int32 (start + count) = start + count := int32_eq (by omega) (by omega)
    rw [if_pos hfits, hsum, hlast, hsize, Int.toNat_natCast, Int.toNat_natCast, hpart]
  · have hneg := GetPropertiesParams.int32_add_lt (a := start) (b := count) (by omega) (by omega)
      (by omega)
    have hsize : int32 (int32 (start + count) - start) = count := by
      rw [int32, int32, Int.bmod_sub_bmod, add_sub_cancel_left]
      exact int32_eq (by omega) (by omega)
    rw [if_neg hfits, if_pos (by omega), hsize, Int.toNat_of_nonpos hneg.le]
    simp [fillFront]

/-- The entries are all among the first slots if none of these is deleted. -/
theorem reduceOption_take_pages (hcount : 0 < count)
    (h : none ∉ slots.take (pageCount slots count * count)) :
    (slots.take (pageCount slots count * count)).reduceOption = slots.reduceOption := by
  have hle : liveSize slots ≤ _ := liveSize_le_pages hcount
  generalize pageCount slots count * count = n at h hle ⊢
  have hall := Nat.not_lt.mp fun hlt => h (List.reduceOption_length_lt_iff.mp hlt)
  have hrest := List.reduceOption_length_le (slots.drop n)
  have hsplit :
      slots.reduceOption = (slots.take n).reduceOption ++ (slots.drop n).reduceOption := by
    rw [← List.reduceOption_append, List.take_append_drop]
  rw [liveSize, hsplit, List.length_append] at hle
  rw [List.length_take] at hall
  rw [List.length_drop] at hrest
  rw [hsplit, List.self_eq_append_right, ← List.length_eq_zero_iff]
  omega

/-- **Pages** of maps and sets: for every pattern of deleted slots and every page size,
the pages are right exactly if their ends fit in 32 bits and no deleted slot lies in a
page. -/
theorem pages_fit_iff (hcount : 0 < count) (hcount' : count < 2 ^ 31)
    (hlength : slots.length < 2 ^ 31) :
    PagesFit slots count ↔
      (∀ start ∈ pageStarts slots count, start + count < 2 ^ 31) ∧
        none ∉ slots.take (pageCount slots count * count) := by
  have hpage (start : Nat) (h : start ∈ pageStarts slots count) :=
    page_eq hcount hcount' hlength (lt_length_of_mem_pageStarts hcount h)
  constructor
  · rintro ⟨hpages, -⟩
    have hslots (start : Nat) (h : start ∈ pageStarts slots count) :
        start + count < 2 ^ 31 ∧ none ∉ (slots.drop start).take count := by
      have hholes := hpages start h
      rw [hpage start h] at hholes
      split at hholes
      · next hfits => exact ⟨hfits, fun hnone => hholes (none_mem_fillFront.mpr hnone)⟩
      · exact absurd (List.mem_replicate.mpr ⟨hcount.ne', rfl⟩) hholes
    refine ⟨fun start h => (hslots start h).1, ?_⟩
    rw [← flatMap_pageStarts, List.mem_flatMap]
    rintro ⟨start, h, hnone⟩
    exact (hslots start h).2 hnone
  · rintro ⟨hfits, hnone⟩
    have hpage (start : Nat) (h : start ∈ pageStarts slots count) :=
      (hpage start h).trans (if_pos (hfits start h))
    constructor
    · intro start h hmem
      apply hnone
      rw [hpage start h] at hmem
      rw [← flatMap_pageStarts, List.mem_flatMap]
      exact ⟨start, h, none_mem_fillFront.mp hmem⟩
    · have hentries : ∀ start ∈ pageStarts slots count,
          (page slots count start).reduceOption = ((slots.drop start).take count).reduceOption := by
        intro start h
        rw [hpage start h, reduceOption_fillFront]
      rw [List.flatMap_congr hentries, getValueCommon, ← reduceOption_take_pages hcount hnone,
        ← flatMap_pageStarts]
      exact List.filterMap_flatMap.symm

theorem pages_fit_three : PagesFit [some 1, some 2, some 3] 2 :=
  (pages_fit_iff (by decide) (by decide) (by decide)).mpr (by decide)

/-- The first of three entries has been deleted: the only page has a hole, and the last
entry is on none. -/
theorem pages_fit_deleted :
    pageStarts [none, some 1, some 2] 2 = [0] ∧
      page [none, some 1, some 2] 2 0 = [some 1, none] ∧
      getValueCommon [none, some 1, some 2] = [1, 2] ∧ ¬ PagesFit [none, some 1, some 2] 2 := by
  refine ⟨rfl, by decide, rfl, ?_⟩
  rintro ⟨-, hentries⟩
  exact absurd hentries (by decide)

end Pages

end ArkToolchain
