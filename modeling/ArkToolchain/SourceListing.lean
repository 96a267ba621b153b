/-
The sources that the client loads and shows.

A reply with the text of a script is cut at every CR LF, and the lines are stored if the script
has none yet (`setFileSource`).  A pause shows the current line (`getDebugSources`), `list` the
lines around it or the requested ones.  `SetFileName` stores a script without lines; nothing
tests for that when a pause is shown, and `list` without arguments goes one line too far.

Main results: `source_lossless` and `sources_shown_iff`.
-/
import ArkToolchain.CliSafety

namespace ArkToolchain

namespace ArkDb

open HttpBase

/-! ### Showing the current line -/

/-- `GetDebugSources`, with the `scriptId` and the `lineNumber` of the call frame. -/
def getDebugSources (scriptIdStr : Bytes) (lineNumber : Int) (session : CliSession) : Cli Unit := do
  let scriptId := atoi scriptIdStr
  update fun session => { session with scriptId, debugLineNum := lineNumber }
  match session.fileSource.lookup scriptId with
  | none => return
  | some (_, lines) =>
    -- a negative index is converted to a large unsigned one
    let line ← liftM
      (if lineNumber < 0 then .error .indexOutOfRange else element lines lineNumber.toNat)
    print (.out (intText (lineNumber + 1) ++ ascii "    " ++ line))
    say ">>> "

/-- The current line of a script that is known has been loaded. -/
def LineLoaded (scriptId lineNumber : Int) (session : CliSession) : Prop :=
  ∀ fileName lines, session.fileSource.lookup scriptId = some (fileName, lines) →
    0 ≤ lineNumber ∧ lineNumber < lines.length

variable {st : CliState} {session : CliSession}

theorem ends_getDebugSources {scriptIdStr : Bytes} {lineNumber : Int} :
    Ends (getDebugSources scriptIdStr lineNumber session) (fun _ _ => True) st ↔
      LineLoaded (atoi scriptIdStr) lineNumber session := by
  rw [getDebugSources, LineLoaded]
  rcases session.fileSource.lookup (atoi scriptIdStr) with - | ⟨fileName, lines⟩
  · simp
  · simp
    omega

/-- What each of the commands that show sources has to find so that it reads no line that is
not there.  The listings with arguments check them. -/
theorem sources_shown_iff (st : CliState) (session : CliSession) :
    (∀ scriptIdStr lineNumber,
      Ends (getDebugSources scriptIdStr lineNumber session) (fun _ _ => True) st ↔
        LineLoaded (atoi scriptIdStr) lineNumber session) ∧
    (Ends (listSource session) (fun _ _ => True) st ↔ ListFits session) ∧
    (∀ startLine, Ends (listSourceFrom startLine session) (fun _ _ => True) st) ∧
    ∀ startLine endLine,
      Ends (listSourceBetween startLine endLine session) (fun _ _ => True) st :=
  ⟨fun _ _ => ends_getDebugSources, ends_listSource fun _ => trivial,
    fun _ => ends_listSourceFrom fun _ => trivial,
    fun _ _ => ends_listSourceBetween fun _ => trivial⟩

/-- A pause in a script whose source has not come yet, and `list` on a file of three lines. -/
theorem sources_shown_outside :
    ¬ Ends (getDebugSources (ascii "1") 0 { fileSource := [(1, ascii "a.ets", [])] })
      (fun _ _ => True) ⟨none, []⟩ ∧
    ¬ Ends (listSource { scriptId := 1, fileSource := [(1, ascii "a.ets", [[], [], []])] })
      (fun _ _ => True) ⟨none, []⟩ := by
  refine ⟨fun h => ?_, fun h => ?_⟩
  · have := ends_getDebugSources.mp h (ascii "a.ets") [] (by decide)
    simp at this
  · have := (ends_listSource fun _ => trivial).mp h (ascii "a.ets") [[], [], []] (by decide)
    simp at this

/-! ### Storing the lines -/

/-- The loop of `SetFileSource`, from `startPos` on. -/
def splitSource (fileSource : Bytes) (startPos : Nat) : List Bytes :=
  match h : find eol fileSource startPos with
  | none => [fileSource.drop startPos]
  | some endPos =>
    substr fileSource startPos (endPos - startPos) :: splitSource fileSource (endPos + 2)
termination_by fileSource.length + 1 - startPos
decreasing_by
  have hle : endPos + 2 ≤ fileSource.length := find_le_length h
  have := le_of_find h
  omega

/-- `SetFileSource`: the reply to the request `scriptIdIndex`. -/
def setFileSource (scriptIdMap : List (Int × Int)) (session : CliSession)
    (reply : Int × Bytes) : CliSession :=
  match scriptIdMap.lookup reply.1 with
  | none => session
  | some scriptId =>
    match session.fileSource.lookup scriptId with
    | some (fileName, []) =>
      { session with
        fileSource := session.fileSource.map fun entry =>
          if entry.1 = scriptId then (scriptId, fileName, splitSource reply.2 0) else entry }
    | _ => session

/-- The loop goes on behind the first line end, and there is none in front of it. -/
theorem cut_of_find_eol {text : Bytes} {pos i : Nat} (h : find eol text pos = some i) :
    ¬ eol <:+: substr text pos (i - pos) ∧
      text.drop pos = substr text pos (i - pos) ++ (eol ++ text.drop (i + 2)) := by
  obtain ⟨-, j, hj, rfl⟩ : pos ≤ text.length ∧
      ∃ j, findIdx eol (text.drop pos) = some j ∧ j + pos = i := by
    simpa [find] using h
  obtain ⟨-, ⟨more, hmore⟩, -⟩ := findIdx_eq_some_iff.mp hj
  have hcut := List.take_append_drop j (text.drop pos)
  rw [substr, Nat.add_sub_cancel]
  constructor
  · intro hin
    rcases hfront : findIdx eol ((text.drop pos).take j) with - | k
    · exact findIdx_eq_none_iff.mp hfront hin
    · -- an occurrence in front would be the first one
      obtain ⟨-, hocc, -⟩ := findIdx_eq_some_iff.mp hfront
      have hlen := hocc.length_le
      have hfirst := findIdx_append_of_eq_some hfront ((text.drop pos).drop j)
      rw [hcut, hj, Option.some.injEq] at hfirst
      simp [eol, ascii] at hlen
      omega
  · have hrest : more = text.drop (j + pos + 2) := by
      rw [← @List.drop_left _ eol more, hmore, List.drop_drop, List.drop_drop]
      rw [Nat.add_comm j pos, Nat.add_assoc]
      rfl
    rw [← hrest, hmore, hcut]

theorem splitSource_ne_nil (text : Bytes) (startPos : Nat) : splitSource text startPos ≠ [] := by
  rw [splitSource]
  split <;> simp

theorem splitSource_spec (text : Bytes) (startPos : Nat) (h : startPos ≤ text.length) :
    eol.intercalate (splitSource text startPos) = text.drop startPos ∧
      ∀ line ∈ splitSource text startPos, ¬ eol <:+: line := by
  fun_induction splitSource text startPos with
  | case1 startPos hfind =>
    rw [find, if_pos h, Option.map_eq_none_iff, findIdx_eq_none_iff] at hfind
    simpa using hfind
  | case2 startPos endPos hfind ih =>
    obtain ⟨hline, hcut⟩ := cut_of_find_eol hfind
    obtain ⟨hjoin, hrest⟩ := ih (find_le_length hfind)
    refine ⟨?_, List.forall_mem_cons.mpr ⟨hline, hrest⟩⟩
    rw [List.intercalate_cons_of_ne_nil (splitSource_ne_nil _ _), hjoin, hcut, List.append_assoc]

variable {scriptIdMap : List (Int × Int)} {scriptId : Int} {fileName : Bytes}

theorem lookup_map_ite {β : Type} (entries : List (Int × β)) (key : Int) (value : β) (i : Int) :
    (entries.map fun entry => if entry.1 = key then (key, value) else entry).lookup i
      = if i = key then (entries.lookup i).map fun _ => value else entries.lookup i := by
  induction entries with
  | nil => simp
  | cons entry entries ih =>
    obtain ⟨k, old⟩ := entry
    rcases eq_or_ne k key with rfl | hkey <;> rcases eq_or_ne i k with rfl | hi
    all_goals simp [List.lookup_cons, beq_eq_false_iff_ne.mpr, *]

/-- Lines that are there stay, whatever is replied. -/
theorem lookup_setFileSource {lines : List Bytes} (hlines : lines ≠ [])
    (h : session.fileSource.lookup scriptId = some (fileName, lines)) (reply : Int × Bytes) :
    (setFileSource scriptIdMap session reply).fileSource.lookup scriptId
      = some (fileName, lines) := by
  rw [setFileSource]
  split
  · exact h
  · split
    · rename_i other _ _ _ hother
      have hne : scriptId ≠ other := by
        rintro rfl
        simp_all
      rw [lookup_map_ite, if_neg hne, h]
    · exact h

/-- The lines that the first reply for a script stores are those of the text, and no sequence
of further replies changes them. -/
theorem source_lossless {scriptIdIndex : Int}
    (hindex : scriptIdMap.lookup scriptIdIndex = some scriptId)
    (hname : session.fileSource.lookup scriptId = some (fileName, [])) (fileSource : Bytes) :
    ∃ lines, eol.intercalate lines = fileSource ∧ (∀ line ∈ lines, ¬ eol <:+: line) ∧
      ∀ replies : List (Int × Bytes), (replies.foldl (setFileSource scriptIdMap)
        (setFileSource scriptIdMap session (scriptIdIndex, fileSource))).fileSource.lookup scriptId
          = some (fileName, lines) := by
  obtain ⟨hjoin, hlines⟩ := splitSource_spec fileSource 0 (Nat.zero_le _)
  refine ⟨_, hjoin, hlines, fun replies => ?_⟩
  refine List.foldlRecOn (motive := fun s : CliSession => s.fileSource.lookup scriptId = _)
    replies _ ?_ fun s h reply _ => lookup_setFileSource (splitSource_ne_nil _ _) h reply
  rw [setFileSource, hindex]
  simp only [hname]
  rw [lookup_map_ite, if_pos rfl, hname, Option.map_some]

/-- An empty line, a lone CR and a missing line end. -/
theorem source_lossless_three :
    ∃ lines, eol.intercalate lines = ascii "a\r\n\r\nb\rc" ∧
      (∀ line ∈ lines, ¬ eol <:+: line) ∧
      ∀ replies : List (Int × Bytes), (replies.foldl (setFileSource [(5, 1)])
        (setFileSource [(5, 1)] { fileSource := [(1, ascii "a.ets", [])] }
          (5, ascii "a\r\n\r\nb\rc"))).fileSource.lookup 1 = some (ascii "a.ets", lines) :=
  source_lossless (by decide) (by decide) _

end ArkDb

end ArkToolchain
