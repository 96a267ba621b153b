/-
Call frame ids of the static inspector (`ProcessStaticFrame`, `ProcessDynamicFrame`,
`EnumerateStaticFrames`, `EnumerateHybridFrames`, `Evaluate` and `GetFrameCount` in
tooling/static/inspector.cpp).

A pause reports the frames that have a source and numbers them.  `Evaluate` takes such a number
for the depth of a static frame: it counts the static frames from the top up to the first one
without source, and the expression is evaluated in the frame at that depth.

Main result: `callFrameIds_addressable_iff`.
-/
import ArkToolchain.SingleStepper
import ArkToolchain.Numbering

namespace ArkToolchain

/-! ### Frames -/

/-- A method and what the debug information of its file says about it.
`isUserFile` is `none` if there is no debug information. -/
structure FrameMethod where
  name : String
  pandaFile : Option String
  isUserFile : Option Bool
  sourceFile : String
  lineNumberTable : List LineTableEntry
  deriving DecidableEq

/-- A static frame; frames are told apart by their addresses. -/
structure PtFrame where
  address : Nat
  method : Option FrameMethod
  bytecodeOffset : Nat
  deriving DecidableEq

open PtFrame

/-- A line of a source file. -/
structure SourceLocation where
  sourceFile : String := ""
  methodName : String := ""
  lineNumber : Int := 1
  deriving DecidableEq

namespace PtFrame

/-- `none` if the method, which is not checked, is null. -/
def getSourceLocation (frame : PtFrame) : Option SourceLocation :=
  frame.method.map fun method =>
    if method.isUserFile = some true then
      { sourceFile := method.sourceFile
        methodName := method.name
        lineNumber := (lineOf method.lineNumberTable frame.bytecodeOffset).getD 0 }
    else {}

/-- The frame has a method, and the method a source. -/
def hasSource (frame : PtFrame) : Bool :=
  frame.getSourceLocation.any fun location => location.sourceFile ≠ ""

end PtFrame

/-- What `ExtractDynamicFrameInfo` finds out. -/
structure UnifiedFrameInfo where
  methodName : String
  sourceFile : String
  lineNumber : Int
  deriving DecidableEq

/-- A frame of the dynamic side. -/
structure DynamicFrame where
  address : Nat
  info : Option UnifiedFrameInfo
  deriving DecidableEq

/-- A frame of the union of both stacks. -/
inductive StackFrame
  | static (frame : PtFrame)
  | dynamic (frame : DynamicFrame)
  deriving DecidableEq

open StackFrame

namespace StackFrame

/-- The frame, if it is a static one. -/
def static? : StackFrame → Option PtFrame
  | .static frame => some frame
  | .dynamic _ => none

@[simp] theorem filterMap_static?_static (frame : PtFrame) (frames : List StackFrame) :
    (.static frame :: frames).filterMap static? = frame :: frames.filterMap static? := rfl

@[simp] theorem filterMap_static?_dynamic (frame : DynamicFrame) (frames : List StackFrame) :
    (.dynamic frame :: frames).filterMap static? = frames.filterMap static? := rfl

/-- The frame has what a report needs. -/
def isReported : StackFrame → Bool
  | .static frame => frame.hasSource
  | .dynamic frame => frame.info.isSome

end StackFrame

/-- The frames of a thread, the innermost first.  The union stack is empty
outside hybrid mode; otherwise it has the static frames in their order, and
dynamic ones between them. -/
structure PausedStack where
  staticFrames : List PtFrame
  unionStack : List StackFrame
  static_unionStack : unionStack ≠ [] → unionStack.filterMap static? = staticFrames

/-! ### What a pause reports -/

/-- What the handler of the frames is given.  The scope chain and `this` are left
out. -/
structure CallFrameInfo where
  frameId : Nat
  methodName : String
  sourceFile : String
  scriptIdentity : String
  lineNumber : Int
  isStaticFrame : Bool
  deriving DecidableEq

/-- `ProcessStaticFrame`. -/
def processStaticFrame (frame : PtFrame) (frameId : Nat) : Option CallFrameInfo :=
  match frame.method, frame.getSourceLocation with
  | some method, some location =>
    if location.sourceFile = "" then none
    else
      some
        { frameId := frameId
          methodName := location.methodName
          sourceFile := location.sourceFile
          scriptIdentity := method.pandaFile.getD ""
          lineNumber := location.lineNumber
          isStaticFrame := true }
  | _, _ => none

/-- `ProcessDynamicFrame`. -/
def processDynamicFrame (frame : DynamicFrame) (frameId : Nat) : Option CallFrameInfo :=
  frame.info.map fun info =>
    { frameId := frameId
      methodName := info.methodName
      sourceFile := info.sourceFile
      scriptIdentity := ""
      lineNumber := info.lineNumber + 1
      isStaticFrame := false }

def StackFrame.process : StackFrame → Nat → Option CallFrameInfo
  | .static frame => processStaticFrame frame
  | .dynamic frame => processDynamicFrame frame

/-- The frames that are reported, and what is reported of them. -/
def enumerate : List StackFrame → Nat → List (StackFrame × CallFrameInfo)
  | [], _ => []
  | frame :: frames, frameId =>
    match frame.process frameId with
    | none => enumerate frames frameId
    | some info => (frame, info) :: enumerate frames (frameId + 1)

namespace PausedStack

/-- `EnumerateStaticFrames` or `EnumerateHybridFrames`. -/
def enumeratedFrames (stack : PausedStack) : List StackFrame :=
  if stack.unionStack = [] then stack.staticFrames.map .static else stack.unionStack

/-- The frames of the report, with what is said about them. -/
def callFrames (stack : PausedStack) : List (StackFrame × CallFrameInfo) :=
  enumerate stack.enumeratedFrames 0

end PausedStack

/-! ### Evaluation -/

/-- The frames up to the first one without source; `none` if a null method is
met. -/
def getFrameCount : List PtFrame → Option Nat
  | [] => some 0
  | frame :: frames =>
    match frame.getSourceLocation with
    | none => none
    | some location =>
      if location.sourceFile = "" then some 0 else (getFrameCount frames).map (· + 1)

/-- What `Evaluate` finds besides the stack. -/
structure EvaluationState where
  isVmDead : Bool := false
  hasThread : Bool := true
  isPaused : Bool := true
  decode : String → Option String

/-- An error, the frame in which an expression is evaluated, or a null method. -/
inductive Evaluated
  | error (message : String)
  | inFrame (frame : Option PtFrame)
  | nullMethod
  deriving DecidableEq

/-- `Evaluate` in the frame with the id. -/
def evaluate (stack : PausedStack) (state : EvaluationState) (bytecodeBase64 : String)
    (frameNumber : Nat) : Evaluated :=
  if state.isVmDead then .error "Fatal, VM is dead"
  else if !state.hasThread then .error "No thread found"
  else if !state.isPaused then .error "Expression evaluation can be done only on pause"
  else
    match getFrameCount stack.staticFrames with
    | none => .nullMethod
    | some totalFrames =>
      if totalFrames ≤ frameNumber then .error "Invalid frameNumber."
      else
        match state.decode bytecodeBase64 with
        | none => .error "EvaluateValue: base64 decode failed"
        -- the depth of a frame is its place in `EnumerateFrames`
        | some _ => .inFrame stack.staticFrames[frameNumber]?

/-! ### Ids are positions -/

variable {frame : PtFrame} (frameId : Nat)

theorem processStaticFrame_of_hasSource (h : frame.hasSource = true) :
    ∃ info, processStaticFrame frame frameId = some info ∧ info.frameId = frameId := by
  rcases hmethod : frame.method with - | method
  · simp [hasSource, getSourceLocation, hmethod] at h
  · rcases hlocation : frame.getSourceLocation with - | location
    · simp [hasSource, hlocation] at h
    · have hsource : location.sourceFile ≠ "" := by
        simpa [hasSource, hlocation] using h
      simp only [processStaticFrame, hmethod, hlocation, if_neg hsource]
      exact ⟨_, rfl, rfl⟩

theorem processStaticFrame_of_not_hasSource (h : frame.hasSource = false) :
    processStaticFrame frame frameId = none := by
  unfold processStaticFrame
  split
  · rename_i method location hmethod hlocation
    have hsource : location.sourceFile = "" := by
      simpa [hasSource, hlocation] using h
    exact if_pos hsource
  · rfl

namespace StackFrame

variable {frame : StackFrame} (frameId : Nat)

theorem process_of_isReported (h : frame.isReported = true) :
    ∃ info, frame.process frameId = some info ∧ info.frameId = frameId := by
  cases frame with
  | static frame => exact processStaticFrame_of_hasSource frameId h
  | dynamic frame =>
    obtain ⟨info, hinfo⟩ := Option.isSome_iff_exists.mp h
    exact ⟨_, by rw [process, processDynamicFrame, hinfo]; rfl, rfl⟩

theorem process_of_not_isReported (h : frame.isReported = false) :
    frame.process frameId = none := by
  cases frame with
  | static frame => exact processStaticFrame_of_not_hasSource frameId h
  | dynamic frame =>
    have hinfo : frame.info = none := by simpa [isReported] using h
    rw [process, processDynamicFrame, hinfo]
    rfl

end StackFrame

/-- **Ids are positions** among the frames that are reported. -/
theorem enumerate_eq_zipIdx (frames : List StackFrame) (frameId : Nat) :
    (enumerate frames frameId).map (fun p => (p.1, p.2.frameId)) =
      (frames.filter isReported).zipIdx frameId := by
  induction frames generalizing frameId with
  | nil => rfl
  | cons frame frames ih =>
    by_cases hreported : frame.isReported = true
    · obtain ⟨info, hinfo, hid⟩ := process_of_isReported frameId hreported
      rw [List.filter_cons_of_pos hreported, List.zipIdx_cons, enumerate, hinfo]
      simp [hid, ih]
    · rw [List.filter_cons_of_neg hreported, enumerate,
        process_of_not_isReported frameId (by simpa using hreported)]
      exact ih frameId

/-- The frame at which the count ends has a method. -/
def CountEnds (frames : List PtFrame) : Prop :=
  ∀ frame ∈ frames.find? fun frame => !frame.hasSource, frame.method ≠ none

instance decidableCountEnds (frames : List PtFrame) : Decidable (CountEnds frames) :=
  inferInstanceAs (Decidable (∀ frame ∈ frames.find? _, _))

theorem getFrameCount_eq_some_iff {frames : List PtFrame} {n : Nat} :
    getFrameCount frames = some n ↔ CountEnds frames ∧ n = (frames.takeWhile hasSource).length := by
  induction frames generalizing n with
  | nil => simp [getFrameCount, CountEnds, eq_comm]
  | cons frame frames ih =>
    rcases hlocation : frame.getSourceLocation with - | location
    · have hmethod : frame.method = none := by
        simpa [getSourceLocation] using hlocation
      have hsource : frame.hasSource = false := by simp [hasSource, hlocation]
      simp [getFrameCount, hlocation, CountEnds, hsource, hmethod]
    · have hmethod : frame.method ≠ none := by
        intro hnone
        simp [getSourceLocation, hnone] at hlocation
      by_cases hempty : location.sourceFile = ""
      · have hsource : frame.hasSource = false := by simp [hasSource, hlocation, hempty]
        simp [getFrameCount, hlocation, hempty, CountEnds, hsource, hmethod, eq_comm]
      · have hsource : frame.hasSource = true := by simp [hasSource, hlocation, hempty]
        have hends : CountEnds (frame :: frames) ↔ CountEnds frames := by
          simp [CountEnds, hsource]
        simp only [getFrameCount, hlocation, if_neg hempty, Option.map_eq_some_iff, ih, hends,
          List.takeWhile_cons_of_pos hsource, List.length_cons]
        constructor
        · rintro ⟨k, ⟨hk, rfl⟩, rfl⟩
          exact ⟨hk, rfl⟩
        · rintro ⟨hk, rfl⟩
          exact ⟨_, ⟨hk, rfl⟩, rfl⟩

/-! ### Ids and depths -/

section Depths

variable (stack : PausedStack)

theorem PausedStack.filterMap_enumeratedFrames :
    stack.enumeratedFrames.filterMap static? = stack.staticFrames := by
  unfold PausedStack.enumeratedFrames
  split
  · rw [List.filterMap_map]
    exact List.filterMap_some
  · exact stack.static_unionStack ‹_›

theorem filterMap_filter_isReported (frames : List StackFrame) :
    (frames.filter isReported).filterMap static? = (frames.filterMap static?).filter hasSource := by
  induction frames with
  | nil => rfl
  | cons frame frames ih =>
    cases frame with
    | static frame =>
      by_cases hsource : frame.hasSource = true
      all_goals
        simp [isReported, hsource, ih]
    | dynamic frame =>
      by_cases hinfo : frame.info.isSome = true
      all_goals
        simp [isReported, hinfo, ih]

/-- A frame that is reported and static is one of the static frames with
source, at the same place among them if all frames that are reported are static. -/
theorem map_static_filter {frames : List StackFrame}
    (h : ∀ frame ∈ frames, frame.isReported = true → frame.static? ≠ none) :
    frames.filter isReported = ((frames.filterMap static?).filter hasSource).map .static := by
  rw [← filterMap_filter_isReported]
  have hstatic : ∀ frame ∈ frames.filter isReported, frame.static? ≠ none := by
    intro frame hframe
    obtain ⟨hmem, hreported⟩ := List.mem_filter.mp hframe
    exact h frame hmem hreported
  generalize frames.filter isReported = reported at hstatic
  induction reported with
  | nil => rfl
  | cons frame reported ih =>
    cases frame with
    | static frame =>
      rw [filterMap_static?_static, List.map_cons, ← ih fun f hf => hstatic f (.tail _ hf)]
    | dynamic frame => exact absurd rfl (hstatic _ (.head _))

/-- A request that is made during the pause and can be decoded. -/
structure DuringPause (state : EvaluationState) (bytecodeBase64 : String) : Prop where
  isVmDead : state.isVmDead = false
  hasThread : state.hasThread = true
  isPaused : state.isPaused = true
  decode : (state.decode bytecodeBase64).isSome = true

variable {stack} {state : EvaluationState} {bytecodeBase64 : String}

theorem evaluate_eq_inFrame_iff (h : DuringPause state bytecodeBase64) {i : Nat} :
    evaluate stack state bytecodeBase64 i = .inFrame (some frame) ↔
      CountEnds stack.staticFrames ∧ (stack.staticFrames.takeWhile hasSource)[i]? = some frame := by
  obtain ⟨bytecode, hdecode⟩ := Option.isSome_iff_exists.mp h.decode
  have hprefix := List.takeWhile_prefix hasSource (l := stack.staticFrames)
  rcases hcount : getFrameCount stack.staticFrames with - | n
  · have hends : ¬ CountEnds stack.staticFrames := by
      intro hends
      have hsome := getFrameCount_eq_some_iff.mpr ⟨hends, rfl⟩
      rw [hcount] at hsome
      cases hsome
    simp [evaluate, h.isVmDead, h.hasThread, h.isPaused, hcount, hends]
  · obtain ⟨hends, hn⟩ := getFrameCount_eq_some_iff.mp hcount
    by_cases hi : n ≤ i
    · have hnone : (stack.staticFrames.takeWhile hasSource)[i]? = none :=
        List.getElem?_eq_none (hn ▸ hi)
      simp [evaluate, h.isVmDead, h.hasThread, h.isPaused, hcount, hi, hnone]
    · have hlt : i < (stack.staticFrames.takeWhile hasSource).length := by omega
      rw [List.getElem?_eq_getElem hlt, ← List.prefix_iff_getElem?.mp hprefix i hlt]
      simp [evaluate, h.isVmDead, h.hasThread, h.isPaused, hcount, hi, hdecode, hends]

/-- Every id is accepted, and the expression is evaluated in the frame that was
reported under it. -/
def IdsLeadToFrames (stack : PausedStack) (state : EvaluationState) (bytecodeBase64 : String) :
    Prop :=
  ∀ p ∈ stack.callFrames, ∃ frame, p.1 = .static frame ∧
    evaluate stack state bytecodeBase64 p.2.frameId = .inFrame (some frame)

/-- Only static frames are reported, none of them below one without source; and
if there are any, the first frame without source has a method. -/
def PausedStack.Addressable (stack : PausedStack) : Prop :=
  (∀ frame ∈ stack.enumeratedFrames, frame.isReported = true → frame.static? ≠ none) ∧
    KeptFirst hasSource stack.staticFrames ∧
    (stack.staticFrames.any hasSource = true → CountEnds stack.staticFrames)

instance decidableAddressable (stack : PausedStack) : Decidable stack.Addressable :=
  inferInstanceAs (Decidable (_ ∧ _ ∧ (_ → CountEnds _)))

theorem idsLeadToFrames_iff (h : DuringPause state bytecodeBase64) :
    IdsLeadToFrames stack state bytecodeBase64 ↔
      ∀ (i : Nat) frame, (stack.enumeratedFrames.filter isReported)[i]? = some frame →
        ∃ f, frame = .static f ∧ CountEnds stack.staticFrames ∧
          (stack.staticFrames.takeWhile hasSource)[i]? = some f := by
  have hmap := enumerate_eq_zipIdx stack.enumeratedFrames 0
  have hpositions : IdsLeadToFrames stack state bytecodeBase64 ↔
      ∀ q ∈ (stack.enumeratedFrames.filter isReported).zipIdx, ∃ frame,
        q.1 = .static frame ∧ evaluate stack state bytecodeBase64 q.2 = .inFrame (some frame) := by
    rw [← hmap, List.forall_mem_map]
    rfl
  rw [hpositions]
  constructor
  · intro hall i frame hframe
    obtain ⟨f, hf, heval⟩ := hall (frame, i) (List.mem_zipIdx_iff_getElem?.mpr hframe)
    exact ⟨f, hf, (evaluate_eq_inFrame_iff h).mp heval⟩
  · rintro hall ⟨frame, i⟩ hframe
    obtain ⟨f, hf, heval⟩ := hall i frame (List.mem_zipIdx_iff_getElem?.mp hframe)
    exact ⟨f, hf, (evaluate_eq_inFrame_iff h).mpr heval⟩

/-- **Call frame ids**: every id that a pause reports is accepted during the
pause and leads to the frame that was reported under it, exactly if only static
frames are reported, none of them below one without source, and the count ends
at a frame with a method. -/
theorem callFrameIds_addressable_iff (stack : PausedStack) {state : EvaluationState}
    {bytecodeBase64 : String} (h : DuringPause state bytecodeBase64) :
    IdsLeadToFrames stack state bytecodeBase64 ↔ stack.Addressable := by
  rw [idsLeadToFrames_iff h]
  constructor
  · intro hall
    have hstatic : ∀ frame ∈ stack.enumeratedFrames, frame.isReported = true →
        frame.static? ≠ none := by
      intro frame hmem hreported
      obtain ⟨i, hi⟩ := List.mem_iff_getElem?.mp (List.mem_filter.mpr ⟨hmem, hreported⟩)
      obtain ⟨f, rfl, -⟩ := hall i frame hi
      exact nofun
    have hfilter := map_static_filter hstatic
    rw [stack.filterMap_enumeratedFrames] at hfilter
    rw [hfilter] at hall
    refine ⟨hstatic, keptFirst_of_length_le ?_, ?_⟩
    · -- the last frame that is reported is still in the prefix
      by_contra hlt
      have hlt : (stack.staticFrames.takeWhile hasSource).length <
          (stack.staticFrames.filter hasSource).length := Nat.lt_of_not_le hlt
      obtain ⟨f, -, -, hf⟩ := hall (stack.staticFrames.takeWhile hasSource).length _
        (by rw [List.getElem?_map, List.getElem?_eq_getElem hlt]; rfl)
      rw [List.getElem?_eq_none (Nat.le_refl _)] at hf
      cases hf
    · intro hany
      obtain ⟨f, hmem, hsource⟩ := List.any_eq_true.mp hany
      obtain ⟨i, hi⟩ := List.mem_iff_getElem?.mp (List.mem_filter.mpr ⟨hmem, hsource⟩)
      obtain ⟨-, -, hends, -⟩ := hall i (.static f) (by rw [List.getElem?_map, hi]; rfl)
      exact hends
  · rintro ⟨hstatic, hfirst, hends⟩ i frame hframe
    rw [map_static_filter hstatic, stack.filterMap_enumeratedFrames,
      filter_eq_takeWhile_iff.mpr hfirst, List.getElem?_map] at hframe
    obtain ⟨f, hf, rfl⟩ := Option.map_eq_some_iff.mp hframe
    have hmem := List.mem_of_getElem? hf
    refine ⟨f, rfl, hends (List.any_eq_true.mpr ⟨f, ?_, ?_⟩), hf⟩
    · exact (List.takeWhile_prefix _).subset hmem
    · exact List.mem_takeWhile_imp hmem

end Depths

/-! ### Stacks -/

section Stacks

def frameOf (address : Nat) (isUserFile : Bool) : PtFrame where
  address := address
  method := some
    { name := "main"
      pandaFile := some "app.abc"
      isUserFile := some isUserFile
      sourceFile := "main.ets"
      lineNumberTable := [{ offset := 0, line := 3 }] }
  bytecodeOffset := 0

def outsideHybridMode (staticFrames : List PtFrame) : PausedStack where
  staticFrames := staticFrames
  unionStack := []
  static_unionStack h := absurd rfl h

def pausedState : EvaluationState where
  decode := some

theorem duringPause_pausedState (bytecodeBase64 : String) :
    DuringPause pausedState bytecodeBase64 :=
  ⟨rfl, rfl, rfl, rfl⟩

/-- The library frame is below the frames of the user. -/
def calledByLibrary : PausedStack :=
  outsideHybridMode [frameOf 0 true, frameOf 1 true, frameOf 2 false]

theorem callFrameIds_addressable_calledByLibrary :
    DuringPause pausedState "" ∧ IdsLeadToFrames calledByLibrary pausedState "" :=
  ⟨duringPause_pausedState "",
    (callFrameIds_addressable_iff calledByLibrary (duringPause_pausedState "")).mpr (by decide)⟩

def calledThroughLibrary : PausedStack :=
  outsideHybridMode [frameOf 0 true, frameOf 1 false, frameOf 2 true]

def dynamicFrame : DynamicFrame where
  address := 1
  info := some { methodName := "f", sourceFile := "main.js", lineNumber := 1 }

def calledThroughDynamic : PausedStack where
  staticFrames := [frameOf 0 true, frameOf 2 true]
  unionStack := [.static (frameOf 0 true), .dynamic dynamicFrame, .static (frameOf 2 true)]
  static_unionStack _ := rfl

/-- The id of the frame below a library frame is refused; the id of a dynamic
frame leads to a static one, and the one below it is refused. -/
theorem callFrameIds_not_addressable :
    (calledThroughLibrary.callFrames.map (fun p => (p.1, p.2.frameId)) =
        [(.static (frameOf 0 true), 0), (.static (frameOf 2 true), 1)] ∧
      evaluate calledThroughLibrary pausedState "" 1 = .error "Invalid frameNumber.") ∧
    (calledThroughDynamic.callFrames.map (fun p => (p.1, p.2.frameId)) =
        [(.static (frameOf 0 true), 0), (.dynamic dynamicFrame, 1),
          (.static (frameOf 2 true), 2)] ∧
      evaluate calledThroughDynamic pausedState "" 1 = .inFrame (some (frameOf 2 true)) ∧
      evaluate calledThroughDynamic pausedState "" 2 = .error "Invalid frameNumber.") := by
  decide

end Stacks

end ArkToolchain
