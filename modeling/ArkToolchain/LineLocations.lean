/-
Lines and locations in the debug information of the static side
(tooling/static/debugger/debug_info_cache.cpp, breakpoint.cpp).

The loops are as in the code; an unordered set of locations is a list without duplicates.  A
handler of `EnumerateLineEntries` gets the next entry of the table as well, since that one ends
the range of its own.

Main results: `line_locations` and `breakpoint_locations`.
-/
import ArkToolchain.Breakpoints
import ArkToolchain.StaticCallFrames

namespace ArkToolchain

theorem find?_of_nodup_map {α β : Type*} [DecidableEq β] {key : α → β} {l : List α}
    (h : (l.map key).Nodup) {a : α} (ha : a ∈ l) : l.find? (fun x => key x = key a) = some a := by
  induction l with
  | nil => simp at ha
  | cons x l ih =>
    rw [List.map_cons, List.nodup_cons] at h
    rcases List.mem_cons.mp ha with rfl | ha
    · simp
    · have hne : key x ≠ key a := fun heq => h.1 (heq ▸ List.mem_map_of_mem ha)
      rw [List.find?_cons, decide_eq_false hne]
      exact ih h.2 ha

/-! ### Files with all their debug information -/

/-- A file with its extractor, whose methods are in a map by their ids, and
what the runtime and the file itself tell about the methods. -/
structure ExtractedFile extends PandaFile where
  isUserFile : Bool
  /-- `Method::GetName`. -/
  methodName : Nat → String
  /-- The code size of a method that has code. -/
  codeSize : Nat → Option Nat
  distinct : (methods.map MethodDebugInfo.methodId).Nodup

namespace ExtractedFile

variable (file : ExtractedFile) (methodId : Nat)

def getMethodIdList : List Nat :=
  file.methods.map MethodDebugInfo.methodId

def methodInfo : Option MethodDebugInfo :=
  file.methods.find? fun method => method.methodId = methodId

def getSourceFile : String :=
  ((file.methodInfo methodId).map MethodDebugInfo.sourceFile).getD ""

def getLineNumberTable : List LineTableEntry :=
  ((file.methodInfo methodId).map MethodDebugInfo.lineNumberTable).getD []

/-- `GetCodeSize`; without code it is 0. -/
def getCodeSize : Nat :=
  (file.codeSize methodId).getD 0

variable {method : MethodDebugInfo} (file : ExtractedFile)

theorem methodInfo_eq (h : method ∈ file.methods) : file.methodInfo method.methodId = some method :=
  find?_of_nodup_map file.distinct h

theorem getSourceFile_eq (h : method ∈ file.methods) :
    file.getSourceFile method.methodId = method.sourceFile := by
  rw [getSourceFile, file.methodInfo_eq h]
  rfl

theorem getLineNumberTable_eq (h : method ∈ file.methods) :
    file.getLineNumberTable method.methodId = method.lineNumberTable := by
  rw [getLineNumberTable, file.methodInfo_eq h]
  rfl

end ExtractedFile

/-- `debugInfos_`, a map by the addresses of the files. -/
structure LoadedFiles where
  files : List ExtractedFile
  distinct : (files.map fun file => file.address).Nodup

/-- What the lookups ask a frame for: the file of its method, the method's id,
and how far it has come. -/
structure MethodFrame where
  pandaFile : ExtractedFile
  methodId : Nat
  bytecodeOffset : Nat

/-- `std::upper_bound`: the entries before the first one that is after the
offset. -/
def upperBound (table : List LineTableEntry) (offset : Nat) : List LineTableEntry :=
  table.takeWhile fun entry => entry.offset ≤ offset

/-- The innermost loop of `GetCurrentLineLocations` and of
`GetContinueToLocations`. -/
def emplaceOffsets (filename : String) (methodId : Nat) (offset nextOffset : Nat)
    (locations : List PtLocation) : List PtLocation :=
  (List.range' offset (nextOffset - offset)).foldl
    (fun locations o => locations.insert ⟨filename, methodId, o⟩) locations

def nextOffset (codeSize : Nat) : Option LineTableEntry → Nat
  | none => codeSize
  | some next => next.offset

/-- The loop of `GetCurrentLineLocations` over the table. -/
def currentLineLoop (filename : String) (methodId : Nat) (codeSize : Nat) (lineNumber : Int) :
    List LineTableEntry → List PtLocation → List PtLocation
  | [], locations => locations
  | entry :: table, locations =>
    if entry.line ≠ lineNumber then
      currentLineLoop filename methodId codeSize lineNumber table locations
    else
      currentLineLoop filename methodId codeSize lineNumber table
        (emplaceOffsets filename methodId entry.offset (nextOffset codeSize table.head?) locations)

variable {σ : Type}

/-- `EnumerateLineEntries` for one method: `handler` gets an entry and the next
one, and says whether to go on. -/
def enumerateTable (handler : LineTableEntry → Option LineTableEntry → σ → Bool × σ) :
    List LineTableEntry → σ → σ
  | [], s => s
  | entry :: table, s =>
    match handler entry table.head? s with
    | (true, s) => enumerateTable handler table s
    | (false, s) => s

/-- `EnumerateLineEntries` for the methods of one file. -/
def ExtractedFile.enumerateLineEntries (file : ExtractedFile)
    (methodFilter : ExtractedFile → Nat → Bool)
    (handler : ExtractedFile → Nat → LineTableEntry → Option LineTableEntry → σ → Bool × σ)
    (s : σ) : σ :=
  file.getMethodIdList.foldl
    (fun s methodId =>
      if !methodFilter file methodId then s
      else enumerateTable (handler file methodId) (file.getLineNumberTable methodId) s) s

def isSelectedPandaFile (file : ExtractedFile) (scriptIdentity : String) : Bool :=
  scriptIdentity.isEmpty || file.filename == scriptIdentity

namespace LoadedFiles

variable (cache : LoadedFiles)

def enumerateLineEntries (pandaFileFilter : ExtractedFile → Bool)
    (methodFilter : ExtractedFile → Nat → Bool)
    (handler : ExtractedFile → Nat → LineTableEntry → Option LineTableEntry → σ → Bool × σ)
    (s : σ) : σ :=
  cache.files.foldl
    (fun s file =>
      if !pandaFileFilter file then s else file.enumerateLineEntries methodFilter handler s) s

def getDebugInfo (file : ExtractedFile) : Option ExtractedFile :=
  cache.files.find? fun known => known.address = file.address

/-- `GetSourceLocation`; `none` if its assertion fails. -/
def getSourceLocation (frame : MethodFrame) : Option SourceLocation :=
  match cache.getDebugInfo frame.pandaFile with
  | none => some {}
  | some debugInfo =>
    if !debugInfo.isUserFile then some {}
    else
      let table := debugInfo.getLineNumberTable frame.methodId
      (upperBound table frame.bytecodeOffset).getLast?.map fun entry =>
        { sourceFile := debugInfo.getSourceFile frame.methodId
          methodName := frame.pandaFile.methodName frame.methodId
          lineNumber := entry.line }

def getCurrentLineLocations (frame : MethodFrame) : List PtLocation :=
  match cache.getDebugInfo frame.pandaFile with
  | none => []
  | some debugInfo =>
    let table := debugInfo.getLineNumberTable frame.methodId
    match (upperBound table frame.bytecodeOffset).getLast? with
    | none => []
    | some entry =>
      currentLineLoop frame.pandaFile.filename frame.methodId
        (frame.pandaFile.getCodeSize frame.methodId) entry.line table []

/-- The handler of `GetContinueToLocations`. -/
def continueToHandler (lineNumber : Int) (file : ExtractedFile) (methodId : Nat)
    (entry : LineTableEntry) (next : Option LineTableEntry) (locations : List PtLocation) :
    Bool × List PtLocation :=
  if entry.line ≠ lineNumber then (true, locations)
  else
    (true, emplaceOffsets file.filename methodId entry.offset
      (nextOffset (file.getCodeSize methodId) next) locations)

def getContinueToLocations (sourceFile scriptIdentity : String)
    (lineNumber : Int) : List PtLocation :=
  cache.enumerateLineEntries (fun file => isSelectedPandaFile file scriptIdentity)
    (fun file methodId => file.getSourceFile methodId == sourceFile)
    (continueToHandler lineNumber) []

/-- The handler of `GetBreakpointLocations`: the first entry of a method is
chosen. -/
def breakpointHandler (lineNumber : Int) (file : ExtractedFile) (methodId : Nat)
    (entry : LineTableEntry) (_next : Option LineTableEntry)
    (state : List PtLocation × List (String × String)) :
    Bool × List PtLocation × List (String × String) :=
  if entry.line = lineNumber then
    (false, state.1.insert ⟨file.filename, methodId, entry.offset⟩,
      state.2.insert (file.getSourceFile methodId, file.filename))
  else (true, state)

def getBreakpointLocations (filter : SourceFileFilter)
    (lineNumber : Int) : List PtLocation × List (String × String) :=
  cache.enumerateLineEntries (fun _ => true)
    (fun file methodId => filter (file.getSourceFile methodId) file.filename)
    (breakpointHandler lineNumber) ([], [])

end LoadedFiles

namespace Breakpoint

/-- The loop of `TryResolveImpl` over one table. -/
def tryResolveTable (file : ExtractedFile) (methodId : Nat) :
    List LineTableEntry → Breakpoint × LocationMap → Breakpoint × LocationMap
  | [], state => state
  | entry :: table, (bp, map) =>
    if entry.line = bp.lineNumber then
      let location : PtLocation := ⟨file.filename, methodId, entry.offset⟩
      ({ bp with locations := bp.locations.insert location, resolved := true },
        map ++ [(location, bp.id)])
    else tryResolveTable file methodId table (bp, map)

def tryResolveImpl (file : ExtractedFile) (state : Breakpoint × LocationMap) :
    Breakpoint × LocationMap :=
  file.getMethodIdList.foldl
    (fun state methodId =>
      if !state.1.sourceFileFilter (file.getSourceFile methodId) file.filename then state
      else tryResolveTable file methodId (file.getLineNumberTable methodId) state) state

end Breakpoint

/-! ### Lines of offsets -/

variable {table : List LineTableEntry}

section

variable (htable : table.Pairwise fun e e' => e.offset < e'.offset)
include htable

theorem upperBound_eq_filter (offset : Nat) :
    upperBound table offset = table.filter fun e => e.offset ≤ offset := by
  unfold upperBound
  induction table with
  | nil => rfl
  | cons e table ih =>
    obtain ⟨he, htable⟩ := List.pairwise_cons.mp htable
    by_cases hle : e.offset ≤ offset
    · rw [List.takeWhile_cons_of_pos (by simpa using hle),
        List.filter_cons_of_pos (by simpa using hle), ih htable]
    · -- every later entry is after the offset as well
      have hnil : (table.filter fun e => e.offset ≤ offset) = [] := by
        apply List.filter_eq_nil_iff.mpr
        intro x hx
        have := he x hx
        simp only [decide_eq_true_eq]
        omega
      rw [List.takeWhile_cons_of_neg (by simpa using hle),
        List.filter_cons_of_neg (by simpa using hle), hnil]

theorem line_upperBound (offset : Nat) :
    (upperBound table offset).getLast?.map LineTableEntry.line = lineOf table offset := by
  rw [upperBound_eq_filter htable, lineOf]

theorem lineOf_of_mem {e : LineTableEntry} (he : e ∈ table) :
    lineOf table e.offset = some e.line := by
  induction table with
  | nil => simp at he
  | cons x table ih =>
    obtain ⟨hx, htable⟩ := List.pairwise_cons.mp htable
    rw [lineOf_cons]
    rcases List.mem_cons.mp he with rfl | he
    · rw [lineOf_eq_none hx, if_pos (Nat.le_refl _), Option.none_or]
    · rw [ih htable he, Option.some_or]

end

theorem exists_lineOf {offset : Nat} (h : ∃ e ∈ table, e.offset ≤ offset) :
    ∃ line, lineOf table offset = some line := by
  obtain ⟨e, he, hle⟩ := h
  have hmem : e ∈ table.filter fun e => e.offset ≤ offset :=
    List.mem_filter.mpr ⟨he, by simpa using hle⟩
  rw [lineOf, List.getLast?_eq_some_getLast (List.ne_nil_of_mem hmem)]
  exact ⟨_, rfl⟩

/-! ### Locations of a line -/

variable {locations : List PtLocation} {location : PtLocation} {filename : String}

theorem mem_emplaceOffsets {methodId offset nextOffset : Nat} :
    location ∈ emplaceOffsets filename methodId offset nextOffset locations ↔
      location ∈ locations ∨
        ∃ o, offset ≤ o ∧ o < nextOffset ∧ location = ⟨filename, methodId, o⟩ := by
  have hmap : emplaceOffsets filename methodId offset nextOffset locations =
      ((List.range' offset (nextOffset - offset)).map
        fun o => (⟨filename, methodId, o⟩ : PtLocation)).foldl
          (fun ls l => ls.insert l) locations := by
    rw [List.foldl_map]
    rfl
  rw [hmap, mem_foldl_insert, List.mem_map]
  refine or_congr_right ⟨?_, ?_⟩
  · rintro ⟨o, ho, rfl⟩
    rw [List.mem_range'_1] at ho
    exact ⟨o, ho.1, by omega, rfl⟩
  · rintro ⟨o, hle, hlt, rfl⟩
    exact ⟨o, List.mem_range'_1.mpr (by omega), rfl⟩

variable {lineNumber : Int}

theorem mem_currentLineLoop {methodId codeSize : Nat} :
    location ∈ currentLineLoop filename methodId codeSize lineNumber table locations ↔
      location ∈ locations ∨
        ∃ o, InLineRange lineNumber codeSize table o ∧ location = ⟨filename, methodId, o⟩ := by
  induction table generalizing locations with
  | nil => simp [currentLineLoop, InLineRange]
  | cons entry table ih =>
    rw [currentLineLoop]
    split
    next hne =>
      rw [ih]
      rcases table with - | ⟨next, table⟩
      all_goals
        simp [InLineRange, hne]
    next heq =>
      rw [not_not] at heq
      rw [ih, mem_emplaceOffsets, or_assoc]
      refine or_congr_right ?_
      rcases table with - | ⟨next, table⟩
      · simp [InLineRange, nextOffset, heq, and_assoc]
      · simp only [InLineRange, nextOffset, List.head?_cons, heq, true_and, or_and_right,
          exists_or, and_assoc]

variable (file : ExtractedFile) (methodId : Nat)

/-- The enumeration with the handler of `GetContinueToLocations` is the loop of
`GetCurrentLineLocations`. -/
theorem enumerateTable_continueToHandler (lineNumber : Int) (table : List LineTableEntry)
    (locations : List PtLocation) :
    enumerateTable (LoadedFiles.continueToHandler lineNumber file methodId) table locations =
      currentLineLoop file.filename methodId (file.getCodeSize methodId) lineNumber table
        locations := by
  induction table generalizing locations with
  | nil => rfl
  | cons entry table ih =>
    rw [enumerateTable, currentLineLoop, LoadedFiles.continueToHandler]
    by_cases hne : entry.line ≠ lineNumber
    · rw [if_pos hne, if_pos hne]
      exact ih locations
    · rw [if_neg hne, if_neg hne]
      exact ih _

theorem foldl_filter_adds {α β τ : Type*} {f : τ → α → τ} {p : α → Bool} (Has : τ → β → Prop)
    {P : α → β → Prop} {l : List α}
    (hf : ∀ a ∈ l, p a = true → ∀ s b, Has (f s a) b ↔ Has s b ∨ P a b) (s : τ) (b : β) :
    Has (l.foldl (fun s a => if !p a then s else f s a) s) b ↔
      Has s b ∨ ∃ a ∈ l, p a = true ∧ P a b := by
  induction l generalizing s with
  | nil => simp
  | cons a l ih =>
    rw [List.foldl_cons, ih fun a ha => hf a (List.mem_cons_of_mem _ ha)]
    cases hp : p a with
    | false => simp [hp]
    | true => simp [hf a List.mem_cons_self hp, hp, or_assoc]

namespace LoadedFiles

/-- Offsets of a method on the line: those to which the table gives it, below
the code size or before another entry. -/
def OnLine (file : ExtractedFile) (methodId : Nat) (lineNumber : Int) (o : Nat) : Prop :=
  lineOf (file.getLineNumberTable methodId) o = some lineNumber ∧
    (o < file.getCodeSize methodId ∨ ∃ e ∈ file.getLineNumberTable methodId, o < e.offset)

variable {cache : LoadedFiles} {file : ExtractedFile}

theorem getDebugInfo_eq (h : file ∈ cache.files) : cache.getDebugInfo file = some file :=
  find?_of_nodup_map cache.distinct h

variable {lineNumber : Int} {methodId : Nat}

theorem inLineRange_iff_onLine
    (hinc : (file.getLineNumberTable methodId).Pairwise fun e e' => e.offset < e'.offset)
    {o : Nat} :
    InLineRange lineNumber (file.getCodeSize methodId) (file.getLineNumberTable methodId) o ↔
      OnLine file methodId lineNumber o :=
  inLineRange_iff hinc lineNumber _ o

section

variable {frame : MethodFrame} (hloaded : frame.pandaFile ∈ cache.files)
  (hinc : (frame.pandaFile.getLineNumberTable frame.methodId).Pairwise
    fun e e' => e.offset < e'.offset)
include hloaded hinc

theorem mem_getCurrentLineLocations {location : PtLocation} :
    location ∈ cache.getCurrentLineLocations frame ↔
      ∃ lineNumber, lineOf (frame.pandaFile.getLineNumberTable frame.methodId)
          frame.bytecodeOffset = some lineNumber ∧
        ∃ o, OnLine frame.pandaFile frame.methodId lineNumber o ∧
          location = ⟨frame.pandaFile.filename, frame.methodId, o⟩ := by
  rw [← line_upperBound hinc, getCurrentLineLocations, getDebugInfo_eq hloaded]
  dsimp only
  rcases (upperBound (frame.pandaFile.getLineNumberTable frame.methodId)
    frame.bytecodeOffset).getLast? with - | entry
  · simp
  · simp [mem_currentLineLoop, inLineRange_iff_onLine hinc]

/-- What `GetSourceLocation` computes for a frame in a user file. -/
theorem lineNumber_getSourceLocation (huser : frame.pandaFile.isUserFile = true) :
    (cache.getSourceLocation frame).map SourceLocation.lineNumber =
      lineOf (frame.pandaFile.getLineNumberTable frame.methodId) frame.bytecodeOffset := by
  rw [getSourceLocation, getDebugInfo_eq hloaded]
  dsimp only
  rw [huser, if_neg (by decide), Option.map_map, ← line_upperBound hinc]
  rfl

end

/-- **Line locations.**  For a frame at an offset that has a line,
`GetCurrentLineLocations` gives the offsets of its method on that line, among
them its own one, and nothing for a frame before the first entry.
`GetContinueToLocations` gives the offsets on the requested line of every
method of the source.  The line is the one of `GetSourceLocation`, in files
for which that one looks at the table. -/
theorem line_locations (cache : LoadedFiles) :
    (∀ frame : MethodFrame, frame.pandaFile ∈ cache.files →
      ((frame.pandaFile.getLineNumberTable frame.methodId).Pairwise
        fun e e' => e.offset < e'.offset) →
      (∀ location, location ∈ cache.getCurrentLineLocations frame ↔
        ∃ lineNumber, lineOf (frame.pandaFile.getLineNumberTable frame.methodId)
            frame.bytecodeOffset = some lineNumber ∧
          ∃ o, OnLine frame.pandaFile frame.methodId lineNumber o ∧
            location = ⟨frame.pandaFile.filename, frame.methodId, o⟩) ∧
      (frame.bytecodeOffset < frame.pandaFile.getCodeSize frame.methodId →
        (∃ e ∈ frame.pandaFile.getLineNumberTable frame.methodId,
          e.offset ≤ frame.bytecodeOffset) →
        ⟨frame.pandaFile.filename, frame.methodId, frame.bytecodeOffset⟩ ∈
          cache.getCurrentLineLocations frame) ∧
      (frame.pandaFile.isUserFile = true →
        (cache.getSourceLocation frame).map SourceLocation.lineNumber =
          lineOf (frame.pandaFile.getLineNumberTable frame.methodId) frame.bytecodeOffset)) ∧
    ∀ sourceFile scriptIdentity lineNumber,
      (∀ file ∈ cache.files, ∀ methodId ∈ file.getMethodIdList,
        file.getSourceFile methodId = sourceFile →
          (file.getLineNumberTable methodId).Pairwise fun e e' => e.offset < e'.offset) →
      ∀ location, location ∈ cache.getContinueToLocations sourceFile scriptIdentity lineNumber ↔
        ∃ file ∈ cache.files, isSelectedPandaFile file scriptIdentity = true ∧
          ∃ methodId ∈ file.getMethodIdList, file.getSourceFile methodId = sourceFile ∧
            ∃ o, OnLine file methodId lineNumber o ∧ location = ⟨file.filename, methodId, o⟩ := by
  refine ⟨fun frame hloaded hinc => ⟨fun location => ?_, fun hcode hentry => ?_, fun huser => ?_⟩,
    fun sourceFile scriptIdentity lineNumber hinc location => ?_⟩
  · exact mem_getCurrentLineLocations hloaded hinc
  · obtain ⟨line, hline⟩ := exists_lineOf hentry
    rw [mem_getCurrentLineLocations hloaded hinc]
    exact ⟨line, hline, frame.bytecodeOffset, ⟨hline, .inl hcode⟩, rfl⟩
  · exact lineNumber_getSourceLocation hloaded hinc huser
  · refine (foldl_filter_adds (fun (s : List PtLocation) location => location ∈ s)
      (fun file hfile _ => foldl_filter_adds (P := fun methodId (location : PtLocation) =>
          ∃ o, OnLine file methodId lineNumber o ∧ location = ⟨file.filename, methodId, o⟩) _
        fun methodId hid hsource locations location => ?_) [] location).trans (by simp)
    rw [enumerateTable_continueToHandler, mem_currentLineLoop]
    simp only [inLineRange_iff_onLine (hinc file hfile methodId hid (by simpa using hsource))]

/-- A file whose only method has its first entry at offset 2, two ranges of
line 7, and its last entry behind the code. -/
def lateFile (isUserFile : Bool) : ExtractedFile where
  address := 0
  filename := "late.abc"
  methods := [⟨1, "late.ets", [⟨2, 7⟩, ⟨4, 8⟩, ⟨5, 7⟩, ⟨9, 9⟩]⟩]
  isUserFile := isUserFile
  methodName := fun _ => "main"
  codeSize := fun _ => some 8
  distinct := by decide

def lateCache (isUserFile : Bool) : LoadedFiles where
  files := [lateFile isUserFile]
  distinct := List.nodup_singleton _

/-- A frame in the second range of line 7 has its own offset, and the offsets
of the first range. -/
theorem lateFile_line :
    (⟨"late.abc", 1, 6⟩ : PtLocation) ∈
        (lateCache true).getCurrentLineLocations ⟨lateFile true, 1, 6⟩ ∧
      (⟨"late.abc", 1, 3⟩ : PtLocation) ∈
        (lateCache true).getCurrentLineLocations ⟨lateFile true, 1, 6⟩ := by
  obtain ⟨hset, hown, -⟩ := (line_locations (lateCache true)).1 ⟨lateFile true, 1, 6⟩
    (List.mem_singleton_self _) (by decide)
  refine ⟨hown (by decide) ⟨⟨5, 7⟩, by decide, by decide⟩, (hset _).mpr ⟨7, by decide, 3, ?_, rfl⟩⟩
  exact ⟨by decide, .inl (by decide)⟩

/-- A frame before the first entry has nothing, and the second range of line 7
goes on behind the code. -/
theorem lateFile_not_line :
    (⟨"late.abc", 1, 0⟩ : PtLocation) ∉
        (lateCache true).getCurrentLineLocations ⟨lateFile true, 1, 0⟩ ∧
      (⟨"late.abc", 1, 8⟩ : PtLocation) ∈
        (lateCache true).getCurrentLineLocations ⟨lateFile true, 1, 6⟩ ∧
      (lateFile true).getCodeSize 1 = 8 := by
  decide +kernel

end LoadedFiles

/-! ### Locations of a breakpoint -/

/-- The first entry of the table for the line. -/
def IsFirstEntry (lineNumber : Int) (table : List LineTableEntry) (entry : LineTableEntry) : Prop :=
  ∃ before after, table = before ++ entry :: after ∧ entry.line = lineNumber ∧
    ∀ e ∈ before, e.line ≠ lineNumber

theorem isFirstEntry_iff {entry : LineTableEntry} :
    IsFirstEntry lineNumber table entry ↔
      (table.find? fun e => e.line = lineNumber) = some entry := by
  rw [List.find?_eq_some_iff_append]
  constructor
  · rintro ⟨before, after, htable, hline, hbefore⟩
    exact ⟨by simpa using hline, before, after, htable, by simpa using hbefore⟩
  · rintro ⟨hline, before, after, htable, hbefore⟩
    exact ⟨before, after, htable, by simpa using hline, by simpa using hbefore⟩

/-- The enumeration with the handler of `GetBreakpointLocations` stops at the
first entry. -/
theorem enumerateTable_breakpointHandler (lineNumber : Int) (table : List LineTableEntry)
    (state : List PtLocation × List (String × String)) :
    enumerateTable (LoadedFiles.breakpointHandler lineNumber file methodId) table state =
      match table.find? fun e => e.line = lineNumber with
      | none => state
      | some entry =>
        (state.1.insert ⟨file.filename, methodId, entry.offset⟩,
          state.2.insert (file.getSourceFile methodId, file.filename)) := by
  induction table with
  | nil => rfl
  | cons entry table ih =>
    rw [enumerateTable, LoadedFiles.breakpointHandler, List.find?_cons]
    by_cases hline : entry.line = lineNumber
    · rw [if_pos hline, decide_eq_true hline]
    · rw [if_neg hline, decide_eq_false hline]
      exact ih

namespace Breakpoint

variable (file : ExtractedFile)

/-- So does the loop of `TryResolveImpl`. -/
theorem tryResolveTable_eq (table : List LineTableEntry) (bp : Breakpoint) (map : LocationMap) :
    tryResolveTable file methodId table (bp, map) =
      match table.find? fun e => e.line = bp.lineNumber with
      | none => (bp, map)
      | some entry =>
        ({ bp with
            locations := bp.locations.insert ⟨file.filename, methodId, entry.offset⟩
            resolved := true },
          map ++ [(⟨file.filename, methodId, entry.offset⟩, bp.id)]) := by
  induction table with
  | nil => rfl
  | cons entry table ih =>
    rw [tryResolveTable, List.find?_cons]
    by_cases hline : entry.line = bp.lineNumber
    · rw [if_pos hline, decide_eq_true hline]
    · rw [if_neg hline, decide_eq_false hline]
      exact ih

/-- The loops of `TryResolveImpl` do what `Breakpoint.tryResolve` says in one
step for each method. -/
theorem tryResolveImpl_eq (bp : Breakpoint) (map : LocationMap) :
    tryResolveImpl file (bp, map) = bp.tryResolve file.toPandaFile map := by
  rw [tryResolveImpl, tryResolve, ExtractedFile.getMethodIdList, List.foldl_map]
  apply List.foldl_ext
  intro state method hmethod
  rw [file.getSourceFile_eq hmethod, file.getLineNumberTable_eq hmethod, tryResolveMethod,
    PandaFile.methodLocation]
  obtain ⟨bp, map⟩ := state
  by_cases hfilter : bp.sourceFileFilter method.sourceFile file.filename = true
  · rw [if_neg (by simp [hfilter]), if_pos hfilter, tryResolveTable_eq]
    cases method.lineNumberTable.find? fun e => e.line = bp.lineNumber with
    | none | some entry => rfl
  · rw [if_pos (by simpa using hfilter), if_neg hfilter]

/-- What `TryResolveImpl` adds, file after file. -/
theorem mem_locations_tryResolveImpl (files : List ExtractedFile) (bp : Breakpoint)
    (map : LocationMap) (location : PtLocation) :
    location ∈ (files.foldl (fun state file => tryResolveImpl file state) (bp, map)).1.locations ↔
      location ∈ bp.locations ∨
        ∃ file ∈ files, location ∈ file.lineLocations bp.sourceFileFilter bp.lineNumber := by
  induction files generalizing bp map with
  | nil => simp
  | cons file files ih =>
    rw [List.foldl_cons, tryResolveImpl_eq, tryResolve, foldl_tryResolveMethod, ih,
      mem_foldl_insert, or_assoc]
    simp [PandaFile.lineLocations]

end Breakpoint

namespace LoadedFiles

variable {cache : LoadedFiles} {filter : SourceFileFilter} {lineNumber : Int}
  {location : PtLocation} {file : ExtractedFile}

theorem methodLocation_eq_some {method : MethodDebugInfo} :
    file.methodLocation filter lineNumber method = some location ↔
      filter method.sourceFile file.filename = true ∧
        ∃ entry, IsFirstEntry lineNumber method.lineNumberTable entry ∧
          location = ⟨file.filename, method.methodId, entry.offset⟩ := by
  rw [PandaFile.methodLocation]
  by_cases hfilter : filter method.sourceFile file.filename = true
  · rw [if_pos hfilter, Option.map_eq_some_iff, and_iff_right hfilter]
    simp only [isFirstEntry_iff, eq_comm]
  · simp [hfilter]

theorem mem_lineLocations :
    location ∈ file.lineLocations filter lineNumber ↔
      ∃ methodId ∈ file.getMethodIdList,
        filter (file.getSourceFile methodId) file.filename = true ∧
          ∃ entry, IsFirstEntry lineNumber (file.getLineNumberTable methodId) entry ∧
            location = ⟨file.filename, methodId, entry.offset⟩ := by
  rw [PandaFile.lineLocations, List.mem_filterMap, ExtractedFile.getMethodIdList]
  simp only [methodLocation_eq_some, List.mem_map, exists_exists_and_eq_and]
  refine exists_congr fun method => and_congr_right fun hmethod => ?_
  rw [file.getSourceFile_eq hmethod, file.getLineNumberTable_eq hmethod]

theorem mem_enumerateLineEntries_breakpoint (file : ExtractedFile)
    (state : List PtLocation × List (String × String)) (location : PtLocation) :
    location ∈ (file.enumerateLineEntries
        (fun file methodId => filter (file.getSourceFile methodId) file.filename)
        (breakpointHandler lineNumber) state).1 ↔
      location ∈ state.1 ∨ location ∈ file.lineLocations filter lineNumber := by
  rw [ExtractedFile.enumerateLineEntries, mem_lineLocations]
  apply foldl_filter_adds (p := fun methodId => filter (file.getSourceFile methodId) _)
    (fun (s : List PtLocation × List (String × String)) location => location ∈ s.1)
  intro methodId _ _ state location
  rw [enumerateTable_breakpointHandler]
  simp only [isFirstEntry_iff]
  cases (file.getLineNumberTable methodId).find? fun e => e.line = lineNumber with
  | none => simp
  | some entry => simp [or_comm]

theorem mem_getBreakpointLocations :
    location ∈ (cache.getBreakpointLocations filter lineNumber).1 ↔
      ∃ file ∈ cache.files, location ∈ file.lineLocations filter lineNumber := by
  refine (foldl_filter_adds (p := fun _ => true) (fun s location => location ∈ s.1)
    (fun file _ _ => mem_enumerateLineEntries_breakpoint file) ([], []) location).trans ?_
  simp

/-- Asked for the offset of an entry, `GetSourceLocation` has the entry's line
if it looks at the table. -/
theorem lineNumber_getSourceLocation_entry (hfile : file ∈ cache.files) {methodId : Nat}
    (hinc : (file.getLineNumberTable methodId).Pairwise fun e e' => e.offset < e'.offset)
    {entry : LineTableEntry} (hentry : entry ∈ file.getLineNumberTable methodId) :
    (cache.getSourceLocation ⟨file, methodId, entry.offset⟩).map SourceLocation.lineNumber =
      some (if file.isUserFile then entry.line else 1) := by
  by_cases huser : file.isUserFile = true
  · rw [lineNumber_getSourceLocation hfile hinc huser, lineOf_of_mem hinc hentry, if_pos huser]
  · rw [getSourceLocation, getDebugInfo_eq hfile]
    simp [huser]

/-- **Locations of a breakpoint.**  `GetBreakpointLocations` chooses what
`TryResolveImpl` adds for the same files, whatever their order: of every method
that passes the filter the first entry for the line.  For increasing tables
`GetSourceLocation` has this line at the chosen locations of user files, and
line 1 at those of other files. -/
theorem breakpoint_locations (cache : LoadedFiles) (bp : Breakpoint) (map : LocationMap) :
    (∀ files : List ExtractedFile, (∀ file, file ∈ files ↔ file ∈ cache.files) →
      ∀ location, location ∈ (files.foldl
          (fun state file => Breakpoint.tryResolveImpl file state) (bp, map)).1.locations ↔
        location ∈ bp.locations ∨
          location ∈ (cache.getBreakpointLocations bp.sourceFileFilter bp.lineNumber).1) ∧
    (∀ location, location ∈ (cache.getBreakpointLocations bp.sourceFileFilter bp.lineNumber).1 ↔
      ∃ file ∈ cache.files, ∃ methodId ∈ file.getMethodIdList,
        bp.sourceFileFilter (file.getSourceFile methodId) file.filename = true ∧
          ∃ entry, IsFirstEntry bp.lineNumber (file.getLineNumberTable methodId) entry ∧
            location = ⟨file.filename, methodId, entry.offset⟩) ∧
    (∀ file ∈ cache.files, ∀ methodId entry entry',
      IsFirstEntry bp.lineNumber (file.getLineNumberTable methodId) entry →
      IsFirstEntry bp.lineNumber (file.getLineNumberTable methodId) entry' → entry = entry') ∧
    ∀ file ∈ cache.files, ∀ methodId,
      ((file.getLineNumberTable methodId).Pairwise fun e e' => e.offset < e'.offset) →
      ∀ entry, IsFirstEntry bp.lineNumber (file.getLineNumberTable methodId) entry →
        (cache.getSourceLocation ⟨file, methodId, entry.offset⟩).map SourceLocation.lineNumber =
          some (if file.isUserFile then bp.lineNumber else 1) := by
  refine ⟨fun files hfiles location => ?_, fun location => ?_, fun file _ methodId entry entry'
    hentry hentry' => ?_, fun file hfile methodId hinc entry hentry => ?_⟩
  · rw [Breakpoint.mem_locations_tryResolveImpl, mem_getBreakpointLocations]
    simp only [hfiles]
  · rw [mem_getBreakpointLocations]
    simp only [mem_lineLocations]
  · rw [isFirstEntry_iff] at hentry hentry'
    exact Option.some_inj.mp (hentry.symm.trans hentry')
  · obtain ⟨before, after, htable, hline, -⟩ := hentry
    have hmem : entry ∈ file.getLineNumberTable methodId := by simp [htable]
    rw [lineNumber_getSourceLocation_entry hfile hinc hmem, hline]

/-- Of the two ranges of line 7 the first one is chosen. -/
theorem lateFile_breakpoint :
    (⟨"late.abc", 1, 2⟩ : PtLocation) ∈
        ((lateCache true).getBreakpointLocations (fun _ _ => true) 7).1 ∧
      ((lateCache true).getSourceLocation ⟨lateFile true, 1, 2⟩).map SourceLocation.lineNumber =
        some 7 := by
  obtain ⟨-, hchosen, -, hline⟩ :=
    breakpoint_locations (lateCache true) ⟨0, false, [], fun _ _ => true, 7⟩ []
  have hfirst : IsFirstEntry 7 ((lateFile true).getLineNumberTable 1) ⟨2, 7⟩ :=
    ⟨[], [⟨4, 8⟩, ⟨5, 7⟩, ⟨9, 9⟩], by decide, rfl, by simp⟩
  refine ⟨(hchosen _).mpr ?_, ?_⟩
  · exact ⟨lateFile true, List.mem_singleton_self _, 1, by decide, rfl, ⟨2, 7⟩, hfirst, rfl⟩
  · exact hline (lateFile true) (List.mem_singleton_self _) 1 (by decide) ⟨2, 7⟩ hfirst

/-- In a file that is not a user file the same location is chosen, and has
line 1. -/
theorem lateFile_not_user :
    (⟨"late.abc", 1, 2⟩ : PtLocation) ∈
        ((lateCache false).getBreakpointLocations (fun _ _ => true) 7).1 ∧
      ((lateCache false).getSourceLocation ⟨lateFile false, 1, 2⟩).map SourceLocation.lineNumber =
        some 1 := by
  decide +kernel

end LoadedFiles

end ArkToolchain
