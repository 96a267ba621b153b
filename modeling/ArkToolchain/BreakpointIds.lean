/-
The ids of breakpoints, `id:<line>:<column>:<url>`.

The debugger takes an id apart at its first three colons and finds the breakpoint again,
whatever its url is (`breakpoint_id_round_trip`).  The command-line client splits it at every
colon: the parts after the third one are lost, and an empty url has no fourth part to read
(`client_reads_id_iff`).
-/
import ArkToolchain.PtTypes

namespace ArkToolchain

open PtJson

namespace Pt

structure BreakpointDetails where
  line : Int32 := 0
  column : Int32 := 0
  url : Bytes := []
  deriving DecidableEq

namespace BreakpointDetails

def toString (metaData : BreakpointDetails) : Bytes :=
  ascii "id:" ++ intText metaData.line.toInt ++ ascii ":" ++ intText metaData.column.toInt ++
    ascii ":" ++ metaData.url

/-- `ParseBreakpointId`: whether it succeeded, and `metaData` after it. -/
def parseBreakpointId (id : Bytes) (metaData : BreakpointDetails) : Bool × BreakpointDetails :=
  match find (ascii ":") id 0 with
  | none => (false, metaData)
  | some lineStart =>
    match find (ascii ":") id (lineStart + 1) with
    | none => (false, metaData)
    | some columnStart =>
      match find (ascii ":") id (columnStart + 1) with
      | none => (false, metaData)
      | some urlStart =>
        let lineStr := substr id (lineStart + 1) (columnStart - lineStart - 1)
        let columnStr := substr id (columnStart + 1) (urlStart - columnStart - 1)
        let url := id.drop (urlStart + 1)
        match strToInt32 lineStr with
        | none => (false, metaData)
        | some line =>
          match strToInt32 columnStr with
          | none => (false, { metaData with line })
          | some column => (true, { line, column, url })

end BreakpointDetails

/-! ### The client -/

/-- The answer to `setBreakpointByUrl`. -/
def SetBreakpointByUrlReturns.fields (id : Bytes) (locations : List Location) :
    List (Bytes × Option PtJson) :=
  [(ascii "breakpointId", some (ofString id)),
    (ascii "locations", some (array (locations.map Location.toJson)))]

def SetBreakpointByUrlReturns.toJson (id : Bytes) (locations : List Location) : PtJson :=
  ofMembers (SetBreakpointByUrlReturns.fields id locations)

/-- `SendResponse`, for a request that succeeded. -/
def responseFields (callId : Int32) (result : PtJson) : List (Bytes × Option PtJson) :=
  [(ascii "id", some (ofInt callId.toInt)), (ascii "result", some result)]

def sendResponse (callId : Int32) (result : PtJson) : PtJson :=
  ofMembers (responseFields callId result)

structure Breaklocation where
  breakpointId : Bytes
  url : Bytes
  lineNumber : Bytes
  columnNumber : Bytes
  deriving DecidableEq

/-- `operator[]` of a vector. -/
def index {α : Type} (xs : List α) (i : Nat) : Except Fault α :=
  match xs[i]? with
  | some x => .ok x
  | none => .error .indexOutOfRange

/-- `Createbreaklocation`, with `breaklist_`. -/
def createbreaklocation (json : Option PtJson) (breaklist : List Breaklocation) :
    Except Fault (List Breaklocation) :=
  match json.bind isObject with
  | none => return breaklist
  | some json =>
    match json.getObject (ascii "result") with
    | .success result =>
      match result.getString (ascii "breakpointId") with
      | .success breakpointId => do
          let breaksplitstring := splitString breakpointId (ascii ":")
          let lineNumber ← index breaksplitstring 1
          let columnNumber ← index breaksplitstring 2
          let url ← index breaksplitstring 3
          return breaklist ++ [{ breakpointId, url, lineNumber, columnNumber }]
      | _ => return breaklist
    | _ => return breaklist

/-! ### Taking an id apart -/

theorem ascii_colon : ascii ":" = [0x3a] := by decide

theorem colon_notMem_intText (n : Int) : (0x3a : UInt8) ∉ intText n := by
  intro h
  rcases mem_intText h with h | ⟨-, h⟩
  all_goals
    exact absurd h (by decide)

/-- A part of an id is found by the colon that ends it, and the next one starts behind that. -/
theorem part_of_id {id start part more : Bytes} {i : Nat}
    (hid : id = start ++ (part ++ 0x3a :: more)) (hi : start.length = i)
    (h : (0x3a : UInt8) ∉ part) :
    find (ascii ":") id i = some (part.length + i) ∧
      (∀ colon, i = colon + 1 → substr id i (part.length + i - colon - 1) = part) ∧
      ∃ start', id = start' ++ more ∧ start'.length = part.length + i + 1 := by
  subst hid hi
  have hhere : findIdx [0x3a] ((0x3a : UInt8) :: more) = some 0 := by
    rw [findIdx, if_pos (by simp [List.isPrefixOf])]
  refine ⟨?_, ?_, start ++ (part ++ [0x3a]), by simp, by simp; omega⟩
  · rw [ascii_colon, find, if_pos (by simp), List.drop_left, findIdx_append_of_notMem h, hhere,
      Option.map_some, Option.map_some, Nat.zero_add]
  · intro colon hcolon
    have hcount : part.length + start.length - colon - 1 = part.length := by omega
    rw [hcount, substr, List.drop_left, List.take_left]

variable {text : Bytes}

namespace BreakpointDetails

theorem toString_eq (d : BreakpointDetails) :
    d.toString = ascii "id" ++ 0x3a :: (intText d.line.toInt ++ 0x3a ::
      (intText d.column.toInt ++ 0x3a :: d.url)) := by
  have hid : ascii "id:" = ascii "id" ++ [0x3a] := by decide
  simp [toString, ascii_colon, hid]

theorem parseBreakpointId_toString (d metaData : BreakpointDetails) :
    parseBreakpointId d.toString metaData = (true, d) := by
  obtain ⟨hid, -, s₁, hatLine, h₁⟩ :=
    @part_of_id _ [] (ascii "id") _ 0 (toString_eq d) rfl (by decide)
  have hlineStart : find (ascii ":") d.toString 0 = some 2 := hid
  obtain ⟨hcolumnStart, hline, s₂, hatColumn, h₂⟩ :=
    part_of_id hatLine (show s₁.length = 2 + 1 from h₁) (colon_notMem_intText _)
  obtain ⟨hurlStart, hcolumn, s₃, hatUrl, h₃⟩ :=
    part_of_id hatColumn h₂ (colon_notMem_intText _)
  have hurl : d.toString.drop s₃.length = d.url := by
    rw [hatUrl, List.drop_left]
  rw [h₃] at hurl
  simp only [parseBreakpointId, hlineStart, hcolumnStart, hurlStart, hline _ rfl, hcolumn _ rfl,
    hurl, strToInt32_intText]

theorem toString_injective : Function.Injective toString := by
  intro d d' h
  have hd := parseBreakpointId_toString d {}
  rw [h, parseBreakpointId_toString] at hd
  exact (Prod.mk.inj hd).2.symm

/-- **Ids and breakpoints.**  Every breakpoint is found again in its id, and so
different breakpoints have different ids. -/
theorem breakpoint_id_round_trip :
    (∀ d metaData : BreakpointDetails, parseBreakpointId d.toString metaData = (true, d)) ∧
      Function.Injective toString :=
  ⟨parseBreakpointId_toString, toString_injective⟩

end BreakpointDetails

/-! ### The parts that the client reads -/

def isColon (c : UInt8) : Bool := (ascii ":").contains c

theorem isColon_eq (c : UInt8) : isColon c = true ↔ c = 0x3a := by
  rw [isColon, ascii_colon, List.contains_iff_mem, List.mem_singleton]

theorem isColon_eq_false (h : (0x3a : UInt8) ∉ text) : ∀ c ∈ text, isColon c = false := by
  intro c hc
  rw [Bool.eq_false_iff, ne_eq, isColon_eq]
  exact ne_of_mem_of_not_mem hc h

theorem dropWhile_isColon_intText (n : Int) (more : Bytes) :
    (intText n ++ more).dropWhile isColon = intText n ++ more := by
  obtain ⟨c, cs, hcs⟩ := List.exists_cons_of_ne_nil (intText_ne_nil n)
  have hc := isColon_eq_false (colon_notMem_intText n) c (hcs ▸ List.mem_cons_self)
  rw [hcs, List.cons_append, List.dropWhile_cons_of_neg (by simp [hc])]

theorem splitString_id (line column : Int) (url : Bytes) :
    splitString (ascii "id" ++ 0x3a :: (intText line ++ 0x3a ::
        (intText column ++ 0x3a :: url))) (ascii ":")
      = ascii "id" :: intText line :: intText column :: parts isColon (url.dropWhile isColon) := by
  have hcolon : isColon 0x3a = true := (isColon_eq _).mpr rfl
  have hid : ∀ c ∈ ascii "id", isColon c = false := by decide +kernel
  have hidne : ascii "id" ≠ [] := by decide
  rw [splitString_eq]
  show parts isColon _ = _
  rw [parts_append_cons hidne hid hcolon, dropWhile_isColon_intText,
    parts_append_cons (intText_ne_nil line) (isColon_eq_false (colon_notMem_intText line)) hcolon,
    dropWhile_isColon_intText,
    parts_append_cons (intText_ne_nil column) (isColon_eq_false (colon_notMem_intText column))
      hcolon]

theorem cStr_append (h : (0 : UInt8) ∉ text) (more : Bytes) :
    cStr (text ++ more) = text ++ cStr more := by
  have hall : ∀ c ∈ text, decide (c ≠ 0) = true := by
    intro c hc
    exact decide_eq_true (ne_of_mem_of_not_mem hc h)
  rw [cStr, List.takeWhile_append_of_pos hall, cStr]

variable (d : BreakpointDetails)

theorem cStr_toString :
    cStr d.toString = ({ d with url := cStr d.url } : BreakpointDetails).toString := by
  have hzero : ∀ n : Int, (0 : UInt8) ∉ intText n := by
    intro n
    rw [← cStr_eq_self_iff, cStr_intText]
  have hfree : (0 : UInt8) ∉ ascii "id" ++ 0x3a :: (intText d.line.toInt ++ 0x3a ::
      (intText d.column.toInt ++ [0x3a])) := by
    have hid : (0 : UInt8) ∉ ascii "id" := by decide
    simp [hid, hzero]
  have hsplit := cStr_append hfree d.url
  simpa [BreakpointDetails.toString_eq] using hsplit

theorem splitString_toString :
    splitString (cStr d.toString) (ascii ":") = ascii "id" :: intText d.line.toInt ::
      intText d.column.toInt :: parts isColon ((cStr d.url).dropWhile isColon) := by
  rw [cStr_toString, BreakpointDetails.toString_eq]
  exact splitString_id d.line.toInt d.column.toInt (cStr d.url)

theorem SetBreakpointByUrlReturns.distinctKeys (id : Bytes) (locations : List Location) :
    DistinctKeys (SetBreakpointByUrlReturns.fields id locations) := by
  simp only [DistinctKeys, SetBreakpointByUrlReturns.fields, List.map_cons, List.map_nil]
  decide +kernel

theorem distinctKeys_responseFields (callId : Int32) (result : PtJson) :
    DistinctKeys (responseFields callId result) := by
  simp only [DistinctKeys, responseFields, List.map_cons, List.map_nil]
  decide +kernel

theorem createbreaklocation_eq (callId : Int32) (locations : List Location)
    (breaklist : List Breaklocation) (d : BreakpointDetails) :
    createbreaklocation
        (some (sendResponse callId (SetBreakpointByUrlReturns.toJson d.toString locations)))
        breaklist
      = match parts isColon ((cStr d.url).dropWhile isColon) with
        | [] => .error .indexOutOfRange
        | url :: _ => .ok (breaklist ++ [{
            breakpointId := cStr d.toString
            url
            lineNumber := intText d.line.toInt
            columnNumber := intText d.column.toInt }]) := by
  have hresult := SetBreakpointByUrlReturns.distinctKeys d.toString locations
  have hreply := distinctKeys_responseFields callId
    (SetBreakpointByUrlReturns.toJson d.toString locations)
  have hobject := getObject_ofMembers hreply (k := ascii "result")
    (SetBreakpointByUrlReturns.fields d.toString)
    (SetBreakpointByUrlReturns.distinctKeys d.toString) (v := some locations)
    (by simp [responseFields, SetBreakpointByUrlReturns.toJson])
  have hstring := getString_ofMembers hresult (k := ascii "breakpointId") (v := some d.toString)
    (by simp [SetBreakpointByUrlReturns.fields])
  rw [createbreaklocation, Option.bind_some, sendResponse, isObject_ofMembers hreply]
  simp only [hobject, hstring, Option.map_some, Result.ofOption, splitString_toString]
  cases parts isColon ((cStr d.url).dropWhile isColon) with
  | nil | cons url rest => rfl

/-- The location has what the debugger finds in the id. -/
def Breaklocation.Agrees (location : Breaklocation) (id : Bytes) : Prop :=
  ∃ line column, strToInt32 location.lineNumber = some line ∧
    strToInt32 location.columnNumber = some column ∧
    ∀ metaData, BreakpointDetails.parseBreakpointId id metaData
      = (true, { line, column, url := location.url })

theorem head_parts_eq_iff (url : Bytes) :
    (∃ rest, parts isColon ((cStr url).dropWhile isColon) = url :: rest) ↔
      url ≠ [] ∧ (0x3a : UInt8) ∉ url ∧ (0 : UInt8) ∉ url := by
  constructor
  · rintro ⟨rest, hparts⟩
    obtain ⟨hne, hfree, hpre⟩ := mem_of_parts_cons hparts
    have hlength : url.length ≤ (cStr url).length :=
      hpre.length_le.trans (List.length_dropWhile_le _ _)
    have hnul : cStr url = url := (List.takeWhile_prefix _).eq_of_length_le hlength
    refine ⟨hne, fun hmem => ?_, cStr_eq_self_iff.mp hnul⟩
    have hcolon : isColon 0x3a = true := (isColon_eq _).mpr rfl
    rw [hfree _ hmem] at hcolon
    cases hcolon
  · rintro ⟨hne, hfree, hnul⟩
    have hall := isColon_eq_false hfree
    have hdrop : url.dropWhile isColon = url := by
      obtain ⟨c, cs, rfl⟩ := List.exists_cons_of_ne_nil hne
      rw [List.dropWhile_cons_of_neg (by simp [hall c List.mem_cons_self])]
    exact ⟨[], by rw [cStr_eq_self_iff.mpr hnul, hdrop, parts_eq_singleton hne hall]⟩

/-- **The client's reading of an id** is the debugger's exactly for a url that is not
empty and has no colon; a NUL would cut it before it gets to the client. -/
theorem client_reads_id_iff (callId : Int32) (locations : List Location)
    (breaklist : List Breaklocation) (d : BreakpointDetails) :
    (∃ location, createbreaklocation
        (some (sendResponse callId (SetBreakpointByUrlReturns.toJson d.toString locations)))
        breaklist = .ok (breaklist ++ [location]) ∧ location.Agrees d.toString) ↔
      d.url ≠ [] ∧ (0x3a : UInt8) ∉ d.url ∧ (0 : UInt8) ∉ d.url := by
  rw [← head_parts_eq_iff, createbreaklocation_eq]
  constructor
  · rintro ⟨location, hcreate, line, column, -, -, hparse⟩
    have hurl : d.url = location.url := by
      have hd := hparse {}
      rw [BreakpointDetails.parseBreakpointId_toString] at hd
      rw [(Prod.mk.inj hd).2]
    rcases hparts : parts isColon ((cStr d.url).dropWhile isColon) with - | ⟨url, rest⟩
    · rw [hparts] at hcreate
      cases hcreate
    · rw [hparts] at hcreate
      obtain rfl := List.singleton_inj.mp (List.append_cancel_left (Except.ok.inj hcreate))
      exact ⟨rest, by rw [hurl]⟩
  · rintro ⟨rest, hparts⟩
    rw [hparts]
    refine ⟨_, rfl, d.line, d.column, strToInt32_intText _, strToInt32_intText _, ?_⟩
    intro metaData
    exact BreakpointDetails.parseBreakpointId_toString d metaData

/-- An empty url has no part to read, and of one with a colon the client keeps what
stands before it. -/
theorem client_misreads_ids :
    createbreaklocation (some (sendResponse 1 (SetBreakpointByUrlReturns.toJson
        ({ line := 7, column := 0, url := [] } : BreakpointDetails).toString []))) []
        = .error .indexOutOfRange ∧
      ∃ location, createbreaklocation (some (sendResponse 1 (SetBreakpointByUrlReturns.toJson
          ({ line := 7, column := 0, url := ascii "a:b" } : BreakpointDetails).toString []))) []
          = .ok [location] ∧ location.url = ascii "a" := by
  have hurl : (cStr (ascii "a:b")).dropWhile isColon = ascii "a" ++ 0x3a :: ascii "b" := by
    decide
  have hparts : ∃ rest, parts isColon ((cStr (ascii "a:b")).dropWhile isColon)
      = ascii "a" :: rest := by
    rw [hurl, parts_append_cons (by decide +kernel) (by decide +kernel) (by decide +kernel)]
    exact ⟨_, rfl⟩
  obtain ⟨rest, hparts⟩ := hparts
  rw [createbreaklocation_eq, createbreaklocation_eq, hparts]
  refine ⟨?_, _, rfl, rfl⟩
  show (match parts isColon [] with | [] => _ | url :: _ => _) = _
  rw [parts_nil]

end Pt

end ArkToolchain
