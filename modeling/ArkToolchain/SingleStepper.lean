/-
Single stepping on the dynamic side (tooling/dynamic/backend/js_single_stepper.cpp and the step
functions of tooling/dynamic/agent/debugger_impl.cpp).

A stepper remembers the method and the depth at which the command was given, and the bytecode
ranges of the current line: in a strictly increasing line table, the offsets that the table
assigns to the line.  What comes from the VM's debug information is `DebugInfo`.

`step_ranges_denote_line`: the ranges of a step are those of its line.
-/
import ArkToolchain.ThreadState
import Mathlib.Data.List.Basic

namespace ArkToolchain

/-! ### Debug information -/

/-- A method of a file. -/
structure PtMethod where
  jsPandaFile : String
  methodId : Nat
  deriving DecidableEq

/-- An entry of the line table. -/
structure LineTableEntry where
  offset : Nat
  line : Int
  deriving DecidableEq

/-- The line of the last entry that is not after the offset. -/
def lineOf (table : List LineTableEntry) (offset : Nat) : Option Int :=
  ((table.filter fun e => e.offset ≤ offset).getLast?).map LineTableEntry.line

/-- The debug information of all files, with what is assumed of it. -/
structure DebugInfo where
  /-- `GetExtractor` and `GetJSPtExtractor` find debug information of the file. -/
  hasExtractor : String → Bool
  /-- A parsed script has the name of the file (of its base file after a hot
  reload). -/
  matchScripts : String → Bool
  lineNumberTable : PtMethod → List LineTableEntry
  /-- The line that `MatchLineWithOffset` calls its callback with. -/
  matchLineWithOffset : PtMethod → Nat → Int
  increasing : ∀ m, (lineNumberTable m).Pairwise fun e e' => e.offset < e'.offset
  matchLine_eq : ∀ m offset line,
    lineOf (lineNumberTable m) offset = some line → matchLineWithOffset m offset = line

/-! ### The stepper -/

/-- A range of offsets, without its end. -/
structure JSPtStepRange where
  startBcOffset : Nat
  endBcOffset : Nat
  deriving DecidableEq

/-- The three kinds of steps. -/
inductive StepperType
  | stepInto
  | stepOver
  | stepOut
  deriving DecidableEq

/-- `SingleStepper`: where a step began. -/
structure SingleStepper where
  method : PtMethod
  stepRanges : List JSPtStepRange
  stackDepth : Nat
  type : StepperType
  deriving DecidableEq

/-- `UINT32_MAX`. -/
abbrev uint32Max : Nat := 0xffffffff

namespace SingleStepper

/-- The loop of `GetStepRanges`. -/
def rangesOfLine (line : Int) : List LineTableEntry → List JSPtStepRange
  | [] => []
  | [e] => if e.line = line then [⟨e.offset, uint32Max⟩] else []
  | e :: e' :: table =>
    (if e.line = line then [⟨e.offset, e'.offset⟩] else []) ++ rangesOfLine line (e' :: table)

/-- `GetStepRanges`: the ranges of the offsets on the line. -/
def getStepRanges (info : DebugInfo) (method : PtMethod) (offset : Nat) : List JSPtStepRange :=
  rangesOfLine (info.matchLineWithOffset method offset) (info.lineNumberTable method)

/-- `GetStepper`, for the method, depth and offset at which the thread is. -/
def getStepper (info : DebugInfo) (type : StepperType) (ptMethod : PtMethod) (stackDepth : Nat)
    (offset : Nat) : Option SingleStepper :=
  if !info.hasExtractor ptMethod.jsPandaFile then none
  else if type = .stepOut then some { method := ptMethod, stepRanges := [], stackDepth, type }
  else
    some { method := ptMethod, stepRanges := getStepRanges info ptMethod offset, stackDepth, type }

/-- `InStepRange`. -/
def inStepRange (ranges : List JSPtStepRange) (pc : Nat) : Bool :=
  ranges.any fun range => range.startBcOffset ≤ pc && pc < range.endBcOffset

/-- `StepComplete`, for the method and depth at which the thread is now. -/
def stepComplete (stepper : SingleStepper) (ptMethod : PtMethod) (stackDepth : Nat)
    (bcOffset : Nat) : Bool :=
  match stepper.type with
  | .stepInto =>
    if stepper.method.methodId == ptMethod.methodId
        && stepper.method.jsPandaFile == ptMethod.jsPandaFile
        && inStepRange stepper.stepRanges bcOffset then false
    else true
  | .stepOver =>
    if stepper.stackDepth < stackDepth then false
    else if stepper.stackDepth == stackDepth && inStepRange stepper.stepRanges bcOffset then false
    else true
  | .stepOut => if stepper.stackDepth ≤ stackDepth then false else true

end SingleStepper

/-! ### The debugger -/

/-- `DebuggerState`. -/
inductive DebuggerState
  | disabled
  | enabled
  | paused
  deriving DecidableEq

inductive DispatchResponse
  | ok
  | fail (message : String)
  deriving DecidableEq

/-- `DebuggerImpl`, as far as steps and pauses go. -/
structure DebuggerImpl where
  debuggerState : DebuggerState := .enabled
  pauseOnNextByteCode : Bool := false
  singleStepper : Option SingleStepper := none
  /-- The status that `SetSingleStepStatus` sets. -/
  singleStepStatus : Bool := false
  skipAllPauses : Bool := false
  isHybrid : Bool := false
  hybrid : HybridSingleStepper := {}
  deriving DecidableEq

namespace DebuggerImpl

variable (info : DebugInfo)

/-- `SPECIAL_LINE_MARK`. -/
def specialLineMark : Int := -1

/-- `IsSkipLine`. -/
def isSkipLine (method : PtMethod) (bcOffset : Nat) : Bool :=
  if !info.matchScripts method.jsPandaFile || !info.hasExtractor method.jsPandaFile then true
  else info.matchLineWithOffset method bcOffset == specialLineMark

/-- `NotifySingleStep`: whether the thread is to pause. -/
def notifySingleStep (dbg : DebuggerImpl) (method : PtMethod)
    (stackDepth : Nat) (bcOffset : Nat) : Bool × DebuggerImpl :=
  if dbg.pauseOnNextByteCode then
    if isSkipLine info method bcOffset then (false, dbg)
    else (true, { dbg with pauseOnNextByteCode := false })
  else
    match dbg.singleStepper with
    | none => (false, dbg)
    | some singleStepper =>
      if !singleStepper.stepComplete method stackDepth bcOffset then (false, dbg)
      else if isSkipLine info method bcOffset then (false, dbg)
      else (true, { dbg with singleStepper := none, singleStepStatus := true })

/-- `NotifyPaused` without a location, for a reason other than an exception or
the start of a script: a stepper does not survive a pause. -/
def notifyPaused (dbg : DebuggerImpl) : DebuggerImpl :=
  if dbg.skipAllPauses then dbg
  else { dbg with singleStepper := none, debuggerState := .paused }

/-- `NotifyPaused` for the start of a script, which keeps a stepper. -/
def notifyPausedOnStart (dbg : DebuggerImpl) : DebuggerImpl :=
  if dbg.skipAllPauses then dbg else { dbg with debuggerState := .paused }

/-- `Resume`. -/
def resume (dbg : DebuggerImpl) : DispatchResponse × DebuggerImpl :=
  if dbg.debuggerState ≠ .paused then (.fail "Can only perform operation while paused", dbg)
  else
    (.ok,
      { dbg with
        debuggerState := .enabled
        hybrid.dynamicToStatic := dbg.hybrid.dynamicToStatic && !dbg.isHybrid })

/-- What `StepInto`, `StepOver` and `StepOut` have in common; two of them also
tell the static side to pause. -/
def step (type : StepperType) (failMessage : String) (toStatic : Bool)
    (dbg : DebuggerImpl) (method : PtMethod) (stackDepth : Nat) (offset : Nat) :
    DispatchResponse × DebuggerImpl :=
  if dbg.debuggerState ≠ .paused then (.fail "Can only perform operation while paused", dbg)
  else
    match SingleStepper.getStepper info type method stackDepth offset with
    | none => (.fail failMessage, { dbg with singleStepper := none })
    | some singleStepper =>
      (.ok,
        { dbg with
          singleStepper := some singleStepper
          debuggerState := .enabled
          hybrid.dynamicToStatic :=
            dbg.hybrid.dynamicToStatic || (toStatic && dbg.isHybrid) })

def stepInto := step info .stepInto "Failed to StepInto" true

def stepOut := step info .stepOut "Failed to StepOut" true

def stepOver := step info .stepOver "Failed to StepOver" false

/-- A command, for the method, depth and offset at which the thread is. -/
def dispatch (command : ResumeKind) (dbg : DebuggerImpl) (method : PtMethod)
    (stackDepth : Nat) (offset : Nat) : DispatchResponse × DebuggerImpl :=
  match command with
  | .resume => dbg.resume
  | .stepInto => dbg.stepInto info method stackDepth offset
  | .stepOver => dbg.stepOver info method stackDepth offset
  | .stepOut => dbg.stepOut info method stackDepth offset

end DebuggerImpl

/-! ### What completes a step -/

namespace SingleStepper

variable {stepper : SingleStepper}

theorem stepComplete_stepOver (h : stepper.type = .stepOver) (ptMethod : PtMethod)
    (stackDepth bcOffset : Nat) :
    stepper.stepComplete ptMethod stackDepth bcOffset = true ↔
      stackDepth ≤ stepper.stackDepth ∧
        ¬ (stackDepth = stepper.stackDepth ∧ inStepRange stepper.stepRanges bcOffset = true) := by
  simp only [stepComplete, h]
  grind

/-- Only the step into compares the methods, and it does not look at the
depth. -/
theorem stepComplete_stepInto (h : stepper.type = .stepInto) (ptMethod : PtMethod)
    (stackDepth bcOffset : Nat) :
    stepper.stepComplete ptMethod stackDepth bcOffset = true ↔
      ¬ (ptMethod = stepper.method ∧ inStepRange stepper.stepRanges bcOffset = true) := by
  have hmethod : ptMethod = stepper.method ↔
      stepper.method.methodId = ptMethod.methodId ∧
        stepper.method.jsPandaFile = ptMethod.jsPandaFile := by
    rcases stepper.method with ⟨file, id⟩
    rcases ptMethod with ⟨file', id'⟩
    rw [PtMethod.mk.injEq]
    exact ⟨fun h => ⟨h.2.symm, h.1.symm⟩, fun h => ⟨h.2.symm, h.1.symm⟩⟩
  simp only [stepComplete, h, hmethod]
  grind

theorem stepComplete_stepOut (h : stepper.type = .stepOut) (ptMethod : PtMethod)
    (stackDepth bcOffset : Nat) :
    stepper.stepComplete ptMethod stackDepth bcOffset = true ↔ stackDepth < stepper.stackDepth := by
  simp [stepComplete, h]

theorem inStepRange_append (ranges more : List JSPtStepRange) (pc : Nat) :
    inStepRange (ranges ++ more) pc = (inStepRange ranges pc || inStepRange more pc) :=
  List.any_append

end SingleStepper

/-! ### Ranges and lines -/

theorem lineOf_cons (e : LineTableEntry) (table : List LineTableEntry) (offset : Nat) :
    lineOf (e :: table) offset =
      (lineOf table offset).or (if e.offset ≤ offset then some e.line else none) := by
  unfold lineOf
  by_cases he : e.offset ≤ offset
  · simp [he, List.getLast?_cons]
  · simp [he]

variable {table : List LineTableEntry} {offset : Nat}

theorem lineOf_eq_none (h : ∀ e ∈ table, offset < e.offset) : lineOf table offset = none := by
  have hnil : (table.filter fun e => e.offset ≤ offset) = [] := by
    apply List.filter_eq_nil_iff.mpr
    intro e he
    have := h e he
    simp
    omega
  rw [lineOf, hnil]
  rfl

theorem lineOf_cons_isSome {e : LineTableEntry} (h : e.offset ≤ offset)
    (table : List LineTableEntry) : ∃ line, lineOf (e :: table) offset = some line := by
  rw [lineOf_cons, if_pos h]
  rcases lineOf table offset with - | line
  · exact ⟨e.line, rfl⟩
  · exact ⟨line, rfl⟩

/-- The offset lies between an entry of the line and the next entry, or between
the last entry and `codeEnd`. -/
def InLineRange (line : Int) (codeEnd : Nat) : List LineTableEntry → Nat → Prop
  | [], _ => False
  | [e], offset => e.line = line ∧ e.offset ≤ offset ∧ offset < codeEnd
  | e :: e' :: table, offset =>
    (e.line = line ∧ e.offset ≤ offset ∧ offset < e'.offset) ∨
      InLineRange line codeEnd (e' :: table) offset

/-- **The ranges of a line** are the offsets that the table assigns to it; only
behind the last entry does the end matter. -/
theorem inLineRange_iff (htable : table.Pairwise fun e e' => e.offset < e'.offset) (line : Int)
    (codeEnd offset : Nat) :
    InLineRange line codeEnd table offset ↔
      lineOf table offset = some line ∧ (offset < codeEnd ∨ ∃ e ∈ table, offset < e.offset) := by
  fun_induction InLineRange line codeEnd table offset with
  | case1 => simp [lineOf]
  | case2 e offset =>
    rw [lineOf_cons, lineOf_eq_none (by simp)]
    by_cases he : e.offset ≤ offset
    · have hno : ¬ offset < e.offset := by omega
      simp [he, hno]
    · simp [he]
  | case3 e e' table offset ih =>
    obtain ⟨he, htable⟩ := List.pairwise_cons.mp htable
    rw [ih htable, lineOf_cons e]
    rcases Nat.lt_or_ge offset e'.offset with hlt | hge
    · -- the offset is before the next entry, so only `e` can be its line
      have hnone : lineOf (e' :: table) offset = none := by
        apply lineOf_eq_none
        intro x hx
        rcases List.mem_cons.mp hx with rfl | hx
        · exact hlt
        · exact Nat.lt_trans hlt ((List.pairwise_cons.mp htable).1 x hx)
      have hafter : ∃ x ∈ e :: e' :: table, offset < x.offset := ⟨e', by simp, hlt⟩
      simp only [hnone, hlt, hafter, Option.none_or, and_true, reduceCtorEq, false_and, or_false,
        or_true, Option.ite_none_right_eq_some, Option.some.injEq]
      tauto
    · -- the next entry is not after the offset, and `e` is before it
      obtain ⟨line', hline'⟩ := lineOf_cons_isSome hge table
      have hno : ¬ offset < e'.offset := by omega
      have hno' : ¬ offset < e.offset := by
        have := he e' (by simp)
        omega
      simp [hline', hno, hno']

theorem SingleStepper.inStepRange_iff_inLineRange (line : Int) (table : List LineTableEntry)
    (pc : Nat) :
    inStepRange (rangesOfLine line table) pc = true ↔ InLineRange line uint32Max table pc := by
  fun_induction rangesOfLine line table with
  | case1 => simp [inStepRange, InLineRange]
  | case2 e hline | case3 e hline => simp [inStepRange, InLineRange, hline]
  | case4 e e' table ih =>
    rw [inStepRange_append, Bool.or_eq_true, ih, InLineRange]
    split <;> simp [inStepRange, *]

theorem SingleStepper.inStepRange_iff (htable : table.Pairwise fun e e' => e.offset < e'.offset)
    (line : Int) {pc : Nat} (hpc : pc < uint32Max) :
    inStepRange (rangesOfLine line table) pc = true ↔ lineOf table pc = some line := by
  rw [inStepRange_iff_inLineRange, inLineRange_iff htable, and_iff_left (.inl hpc)]

namespace SingleStepper

/-- `MatchLineWithOffset` calls back with the line of the offset. -/
theorem getStepRanges_eq {info : DebugInfo} {method : PtMethod} {line : Int}
    (hline : lineOf (info.lineNumberTable method) offset = some line) :
    getStepRanges info method offset = rangesOfLine line (info.lineNumberTable method) := by
  rw [getStepRanges, info.matchLine_eq method offset line hline]

theorem not_inStepRange_uint32Max (htable : table.Pairwise fun e e' => e.offset < e'.offset)
    (hoffsets : ∀ e ∈ table, e.offset ≤ uint32Max) (line : Int) :
    ¬ inStepRange (rangesOfLine line table) uint32Max = true := by
  rw [inStepRange_iff_inLineRange, inLineRange_iff htable]
  rintro ⟨-, hlt | ⟨e, he, hlt⟩⟩
  · exact Nat.lt_irrefl _ hlt
  · exact absurd (hoffsets e he) (Nat.not_le_of_lt hlt)

/-- **Step ranges denote the line**, for all offsets and program counters of
32 bits; the last range is open, and its end `UINT32_MAX` is not in it. -/
theorem step_ranges_denote_line (info : DebugInfo) (method : PtMethod) {first : LineTableEntry}
    {offset pc : Nat} (hoffsets : ∀ e ∈ info.lineNumberTable method, e.offset ≤ uint32Max)
    (hpc : pc ≤ uint32Max) (hfirst : (info.lineNumberTable method).head? = some first)
    (hoffset : first.offset ≤ offset) :
    inStepRange (getStepRanges info method offset) pc = true ↔
      lineOf (info.lineNumberTable method) pc = lineOf (info.lineNumberTable method) offset ∧
        pc ≠ uint32Max := by
  obtain ⟨line, hline⟩ : ∃ line, lineOf (info.lineNumberTable method) offset = some line := by
    obtain ⟨table, htable⟩ := List.head?_eq_some_iff.mp hfirst
    rw [htable]
    exact lineOf_cons_isSome hoffset table
  rw [getStepRanges_eq hline, hline]
  rcases Nat.lt_or_eq_of_le hpc with hlt | rfl
  · rw [inStepRange_iff (info.increasing method) line hlt, and_iff_left (Nat.ne_of_lt hlt)]
  · refine iff_of_false (not_inStepRange_uint32Max (info.increasing method) hoffsets line) ?_
    simp

def oneLine : DebugInfo where
  hasExtractor := fun _ => true
  matchScripts := fun _ => true
  lineNumberTable := fun _ => [⟨0, 10⟩]
  matchLineWithOffset := fun _ _ => 10
  increasing := by simp
  matchLine_eq := by
    intro m offset line h
    simpa [lineOf] using h

theorem oneLine_in_range : inStepRange (getStepRanges oneLine ⟨"app.abc", 1⟩ 0) 7 = true := by
  have hfirst : (oneLine.lineNumberTable ⟨"app.abc", 1⟩).head? = some ⟨0, 10⟩ := rfl
  exact (step_ranges_denote_line oneLine ⟨"app.abc", 1⟩ (by decide) (by decide) hfirst
    (Nat.le_refl 0)).mpr ⟨by decide, by decide⟩

theorem oneLine_uint32Max :
    lineOf (oneLine.lineNumberTable ⟨"app.abc", 1⟩) uint32Max
        = lineOf (oneLine.lineNumberTable ⟨"app.abc", 1⟩) 0 ∧
      inStepRange (getStepRanges oneLine ⟨"app.abc", 1⟩ 0) uint32Max = false := by
  decide

end SingleStepper

end ArkToolchain
