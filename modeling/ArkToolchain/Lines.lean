/-
Texts cut into lines.

A line ends with the two elements `cr` and `lf`; one of them alone ends nothing, and the last
line ends with the text.  A pattern without `cr` and `lf` lies within one line.
-/
import ArkToolchain.Search

namespace ArkToolchain

variable {α : Type*} [DecidableEq α]

/-- Put an element at the front of the first line. -/
def consLine (c : α) : List (List α) → List (List α)
  | [] => [[c]]
  | line :: more => (c :: line) :: more

/-- The lines of a text, without their ends. -/
def lines (cr lf : α) : List α → List (List α)
  | [] => [[]]
  | [c] => [[c]]
  | c :: d :: text =>
    if c = cr ∧ d = lf then [] :: lines cr lf text else consLine c (lines cr lf (d :: text))

/-- What follows the first occurrence of a pattern. -/
def textAfter (pat text : List α) : Option (List α) :=
  (findIdx pat text).map fun i => text.drop (i + pat.length)

variable {cr lf : α}

/-! ### Cutting off one line -/

variable {line : List α}

omit [DecidableEq α] in
theorem not_infix_of_notMem (h : cr ∉ line) : ¬ [cr, lf] <:+: line :=
  fun hin => h (hin.subset (by simp))

theorem lines_of_not_infix (h : ¬ [cr, lf] <:+: line) : lines cr lf line = [line] := by
  induction line with
  | nil => rfl
  | cons c line ih =>
    rw [List.infix_cons_iff, not_or] at h
    rcases line with - | ⟨d, line⟩
    · rfl
    · have hend : ¬ (c = cr ∧ d = lf) := by
        rintro ⟨rfl, rfl⟩
        exact h.1 ⟨line, rfl⟩
      rw [lines, if_neg hend, ih h.2, consLine]

theorem lines_append (hne : cr ≠ lf) (h : ¬ [cr, lf] <:+: line) (text : List α) :
    lines cr lf (line ++ cr :: lf :: text) = line :: lines cr lf text := by
  induction line with
  | nil => rw [List.nil_append, lines, if_pos ⟨rfl, rfl⟩]
  | cons c line ih =>
    rw [List.infix_cons_iff, not_or] at h
    rcases line with - | ⟨d, line⟩
    · -- the next element is `cr`, which is not `lf`
      have hih := ih h.2
      rw [List.nil_append] at hih
      rw [List.cons_append, List.nil_append, lines, if_neg fun hend => hne hend.2, hih, consLine]
    · have hend : ¬ (c = cr ∧ d = lf) := by
        rintro ⟨rfl, rfl⟩
        exact h.1 ⟨line, rfl⟩
      have hih := ih h.2
      rw [List.cons_append] at hih
      rw [List.cons_append, List.cons_append, lines, if_neg hend, hih, consLine]

theorem exists_line (cr lf : α) (text : List α) (h : [cr, lf] <:+: text) :
    ∃ line more, ¬ [cr, lf] <:+: line ∧ text = line ++ cr :: lf :: more := by
  induction text with
  | nil => simp at h
  | cons c text ih =>
    by_cases hfirst : [cr, lf] <+: c :: text
    · obtain ⟨more, hmore⟩ := hfirst
      exact ⟨[], more, by simp, hmore.symm⟩
    · have hrest : [cr, lf] <:+: text := (List.infix_cons_iff.mp h).resolve_left hfirst
      obtain ⟨line, more, hline, rfl⟩ := ih hrest
      refine ⟨c :: line, more, ?_, rfl⟩
      rw [List.infix_cons_iff, not_or]
      refine ⟨fun hpre => hfirst ?_, hline⟩
      exact hpre.trans (List.prefix_append (c :: line) _)

theorem lines_induction {P : List α → Prop} (cr lf : α)
    (last : ∀ line, ¬ [cr, lf] <:+: line → P line)
    (next : ∀ line text, ¬ [cr, lf] <:+: line → P text → P (line ++ cr :: lf :: text))
    (text : List α) : P text := by
  induction hn : text.length using Nat.strong_induction_on generalizing text with
  | _ n ih =>
    by_cases h : [cr, lf] <:+: text
    · obtain ⟨line, more, hline, rfl⟩ := exists_line cr lf text h
      apply next line more hline
      refine ih more.length ?_ more rfl
      rw [← hn, List.length_append, List.length_cons, List.length_cons]
      omega
    · exact last text h

/-! ### Searching line by line -/

variable {pat : List α}

/-- An occurrence of a pattern without `cr` and `lf` lies in the first line or
behind its end. -/
theorem findIdx_line (hp : pat ≠ []) (hcr : cr ∉ pat) (hlf : lf ∉ pat) (line text : List α) :
    findIdx pat (line ++ cr :: lf :: text) =
      (findIdx pat line).or ((findIdx pat text).map ((line ++ [cr, lf]).length + ·)) := by
  rcases hline : findIdx pat line with - | i
  · -- neither of the two elements is part of an occurrence
    have hnil : findIdx pat ([] : List α) = none := by rw [findIdx, if_neg hp]
    have hrest : findIdx pat (lf :: text) = (findIdx pat text).map (· + 1) :=
      findIdx_append_cons hlf hp hnil text
    rw [findIdx_append_cons hcr hp hline, hrest, Option.map_map, Option.none_or]
    congr 1
    funext i
    simp only [Function.comp_apply, List.length_append, List.length_cons, List.length_nil]
    omega
  · rw [findIdx_append_of_eq_some hline, Option.some_or]

variable {text : List α}

theorem textAfter_eq_none_iff : textAfter pat text = none ↔ ¬ pat <:+: text := by
  rw [textAfter, Option.map_eq_none_iff, findIdx_eq_none_iff]

theorem exists_textAfter (h : pat <:+: text) : ∃ more, textAfter pat text = some more := by
  rw [← Option.ne_none_iff_exists']
  exact fun hnone => textAfter_eq_none_iff.mp hnone h

/-- What follows the first occurrence in a list of lines stands in the first
line that has one. -/
theorem findSome?_textAfter (pat : List α) (lines : List (List α)) :
    lines.findSome? (textAfter pat) =
      (lines.find? fun line => pat <:+: line).bind (textAfter pat) := by
  induction lines with
  | nil => rfl
  | cons line lines ih =>
    rw [List.findSome?_cons, List.find?_cons]
    by_cases h : pat <:+: line
    · obtain ⟨more, hmore⟩ := exists_textAfter h
      simp only [h, decide_true, Option.bind_some, hmore]
    · simp only [h, decide_false, textAfter_eq_none_iff.mpr h, ih]

/-- The first line end at or after a position in the first line is the end of
that line. -/
theorem find_lineEnd (hne : cr ≠ lf) (h : ¬ [cr, lf] <:+: line) (text : List α) {pos : Nat}
    (hpos : pos ≤ line.length) :
    find [cr, lf] (line ++ cr :: lf :: text) pos = some line.length := by
  have hidx : findIdx [cr, lf] ((line ++ cr :: lf :: text).drop pos)
      = some (line.length - pos) := by
    rw [List.drop_append_of_le_length hpos, findIdx_eq_some_iff]
    refine ⟨by simp, ?_, ?_⟩
    · rw [← List.length_drop, List.drop_left]
      exact ⟨text, rfl⟩
    · intro j hj hocc
      have hlen : j < (line.drop pos).length := by rwa [List.length_drop]
      rw [List.drop_append_of_le_length (Nat.le_of_lt hlen)] at hocc
      -- what is left of the line is one element, before `cr`, or begins with a line end
      rcases hrest : (line.drop pos).drop j with - | ⟨c, - | ⟨d, rest⟩⟩
      · rw [List.drop_eq_nil_iff] at hrest
        omega
      · rw [hrest] at hocc
        obtain ⟨-, hocc⟩ := List.cons_prefix_cons.mp hocc
        exact hne (List.cons_prefix_cons.mp hocc).1.symm
      · rw [hrest] at hocc
        obtain ⟨hc, hocc⟩ := List.cons_prefix_cons.mp hocc
        obtain ⟨hd, -⟩ := List.cons_prefix_cons.mp hocc
        apply h
        have hin : [cr, lf] <:+: (line.drop pos).drop j := by
          rw [hrest, ← hc, ← hd]
          exact ⟨[], rest, rfl⟩
        exact hin.trans ((List.drop_suffix _ _).isInfix.trans (List.drop_suffix _ _).isInfix)
  rw [find, if_pos (by rw [List.length_append]; omega), hidx, Option.map_some]
  congr 1
  omega

theorem find_lineEnd_eq_none (h : ¬ [cr, lf] <:+: line) (pos : Nat) :
    find [cr, lf] line pos = none := by
  unfold find
  split
  next =>
    have hdrop : findIdx [cr, lf] (line.drop pos) = none :=
      findIdx_eq_none_iff.mpr fun hin => h (hin.trans (List.drop_suffix _ _).isInfix)
    rw [hdrop, Option.map_none]
  next => rfl

end ArkToolchain
