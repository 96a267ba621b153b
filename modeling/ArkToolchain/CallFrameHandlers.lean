/-
Call frame ids of the dynamic debugger (`GenerateCallFrames`, `GenerateHybridFrames`,
`SaveCallFrameHandler`, `CleanUpOnPaused` and the mixed stack in debugger_impl.cpp).

A call frame id is the number of a frame in a report; `EvaluateOnCallFrame` and `CallFunctionOn`
take it for an index of `callFrameHandlers_`.  Reports of static frames take a number and save
no handler, the mixed stack saves handlers behind those that are there, and a pause that fails
clears them.

Main result: `handlersMatch_iff`, from what one operation does (`handlersMatch_step_iff`).
-/
import ArkToolchain.Traces
import ArkToolchain.Numbering

namespace ArkToolchain

/-! ### Frames -/

/-- A dynamic frame.  `generates` says whether `GenerateCallFrame` succeeds: there
is a frame, an extractor, a script and a position for it. -/
structure FrameHandler where
  sp : Nat
  isNative : Bool := false
  generates : Bool := true
  deriving DecidableEq

def FrameHandler.isReported (handler : FrameHandler) : Bool :=
  !handler.isNative && handler.generates

/-- A frame of the union stack; `hasInfo` says whether `ExtractStaticFrameInfo`
succeeds. -/
inductive HybridFrame
  | static (hasInfo : Bool)
  | dynamic (handler : FrameHandler)
  deriving DecidableEq

open HybridFrame

namespace HybridFrame

def isDynamic : HybridFrame → Bool
  | .static _ => false
  | .dynamic _ => true

def isReported : HybridFrame → Bool
  | .static hasInfo => hasInfo
  | .dynamic handler => handler.isReported

def handler? : HybridFrame → Option FrameHandler
  | .static _ => none
  | .dynamic handler => some handler

end HybridFrame

/-! ### Reports -/

/-- The walk of `GenerateCallFrames`: whether it succeeds, and the frames with
their ids.  The handlers of all of them are saved. -/
def walkCallFrames : List FrameHandler → Nat → Bool × List (FrameHandler × Nat)
  | [], _ => (true, [])
  | frame :: frames, callFrameId =>
    if frame.isNative then walkCallFrames frames callFrameId
    else if !frame.generates then
      if callFrameId = 0 then (false, []) else walkCallFrames frames callFrameId
    else
      let (success, callFrames) := walkCallFrames frames (callFrameId + 1)
      (success, (frame, callFrameId) :: callFrames)

def generateCallFrames (frames : List FrameHandler) : Bool × List (FrameHandler × Nat) :=
  walkCallFrames frames 0

/-- The union stack: `ProcessStaticFrame` and `ProcessDynamicFrame`. -/
def walkUnionStack : List HybridFrame → Nat → List (HybridFrame × Nat)
  | [], _ => []
  | .static hasInfo :: frames, callFrameId =>
    if hasInfo then (.static hasInfo, callFrameId) :: walkUnionStack frames (callFrameId + 1)
    else walkUnionStack frames callFrameId
  | .dynamic handler :: frames, callFrameId =>
    if handler.isNative then walkUnionStack frames callFrameId
    else if handler.generates then
      (.dynamic handler, callFrameId) :: walkUnionStack frames (callFrameId + 1)
    else walkUnionStack frames callFrameId

def generateHybridFrames (unionStack : List HybridFrame) : Bool × List (HybridFrame × Nat) :=
  let callFrames := walkUnionStack unionStack 0
  (!callFrames.isEmpty, callFrames)

/-! ### The debugger -/

/-- `reported` is what has been reported since the pause began. -/
structure CallFrameState where
  paused : Bool := false
  callFrameHandlers : List FrameHandler := []
  reported : List (HybridFrame × Nat) := []
  deriving DecidableEq

open CallFrameState

namespace CallFrameState

variable (s : CallFrameState)

/-- `CleanUpOnPaused`. -/
def cleanUpOnPaused : CallFrameState :=
  { s with callFrameHandlers := [] }

/-- `GeneratePausedInfo`, given the frames with their ids. -/
def generatePausedInfo (result : Bool × List (HybridFrame × Nat)) : CallFrameState :=
  if result.1 then
    { paused := true
      callFrameHandlers := s.callFrameHandlers ++ result.2.filterMap fun p => p.1.handler?
      reported := result.2 }
  else s

def asHybrid (callFrames : List (FrameHandler × Nat)) : List (HybridFrame × Nat) :=
  callFrames.map fun p => (.dynamic p.1, p.2)

/-- The union stack is empty outside hybrid mode. -/
def notifyPaused (unionStack : List HybridFrame) (frames : List FrameHandler) : CallFrameState :=
  s.cleanUpOnPaused.generatePausedInfo
    (if unionStack = [] then
      ((generateCallFrames frames).1, asHybrid (generateCallFrames frames).2)
    else generateHybridFrames unionStack)

/-- A report of the mixed stack, which clears nothing.  What it reports while the
debugger is not paused is out of date when the next pause begins. -/
def mixedStack (frames : List FrameHandler) : CallFrameState :=
  let (success, callFrames) := generateCallFrames frames
  { s with
    callFrameHandlers := s.callFrameHandlers ++ callFrames.map Prod.fst
    reported := if s.paused && success then s.reported ++ asHybrid callFrames else s.reported }

/-- `NotifyNativeCalling`. -/
def notifyNativeCalling (mixStackEnabled isUserCode : Bool)
    (frames : List FrameHandler) : CallFrameState :=
  if mixStackEnabled && isUserCode then s.mixedStack frames else s

/-- `NotifyReturnNative`. -/
def notifyReturnNative (mixStackEnabled : Bool) (nativePointer : List Nat)
    (frames : List FrameHandler) : CallFrameState :=
  if mixStackEnabled && !nativePointer.isEmpty then s.mixedStack frames else s

/-- The query for the mixed stack. -/
def getJsFrames (nativePointers : List Nat) (frames : List FrameHandler) : CallFrameState :=
  if nativePointers.isEmpty then s else s.mixedStack frames

/-- The pause ends. -/
def resume : CallFrameState :=
  { s with paused := false, reported := [] }

/-- The frame that `EvaluateOnCallFrame` and `CallFunctionOn` use. -/
def handlerOf (callFrameId : Int) : Except String FrameHandler :=
  if callFrameId < 0 then .error "Invalid callFrameId."
  else
    match s.callFrameHandlers[callFrameId.toNat]? with
    | none => .error "Invalid callFrameId."
    | some handler => .ok handler

end CallFrameState

/-- What happens to the handlers. -/
inductive CallFrameOp
  | notifyPaused (unionStack : List HybridFrame) (frames : List FrameHandler)
  | notifyNativeCalling (mixStackEnabled isUserCode : Bool) (frames : List FrameHandler)
  | notifyReturnNative (mixStackEnabled : Bool) (nativePointer : List Nat)
      (frames : List FrameHandler)
  | getJsFrames (nativePointers : List Nat) (frames : List FrameHandler)
  | resume
  deriving DecidableEq

/-- The state after it. -/
def CallFrameState.step (s : CallFrameState) : CallFrameOp → CallFrameState
  | .notifyPaused unionStack frames => s.notifyPaused unionStack frames
  | .notifyNativeCalling mixStackEnabled isUserCode frames =>
    s.notifyNativeCalling mixStackEnabled isUserCode frames
  | .notifyReturnNative mixStackEnabled nativePointer frames =>
    s.notifyReturnNative mixStackEnabled nativePointer frames
  | .getJsFrames nativePointers frames => s.getJsFrames nativePointers frames
  | .resume => s.resume

/-! ### Ids are positions -/

/-- The first frame that is not native can be generated. -/
def firstGenerates (frames : List FrameHandler) : Bool :=
  (frames.find? fun frame => !frame.isNative).all FrameHandler.generates

variable (frames : List FrameHandler)

theorem walkCallFrames_succ (callFrameId : Nat) :
    walkCallFrames frames (callFrameId + 1) =
      (true, (frames.filter FrameHandler.isReported).zipIdx (callFrameId + 1)) := by
  induction frames generalizing callFrameId with
  | nil => rfl
  | cons frame frames ih =>
    rcases hnative : frame.isNative with - | -
    · rcases hgenerates : frame.generates with - | -
      all_goals
        simp [walkCallFrames, FrameHandler.isReported, hnative, hgenerates, ih]
    · simp [walkCallFrames, FrameHandler.isReported, hnative, ih]

/-- **The walk of the stack**: it fails at once, or reports every frame that can
be reported under its position. -/
theorem generateCallFrames_eq :
    generateCallFrames frames =
      if firstGenerates frames then (true, (frames.filter FrameHandler.isReported).zipIdx)
      else (false, []) := by
  unfold generateCallFrames
  induction frames with
  | nil => rfl
  | cons frame frames ih =>
    rcases hnative : frame.isNative with - | -
    · rcases hgenerates : frame.generates with - | -
      · simp [walkCallFrames, firstGenerates, hnative, hgenerates]
      · simp [walkCallFrames, firstGenerates, FrameHandler.isReported, hnative, hgenerates,
          walkCallFrames_succ]
    · have hfirst : firstGenerates (frame :: frames) = firstGenerates frames := by
        simp [firstGenerates, hnative]
      have hreported : ¬ frame.isReported = true := by simp [FrameHandler.isReported, hnative]
      rw [hfirst, List.filter_cons_of_neg hreported, ← ih]
      simp [walkCallFrames, hnative]

theorem walkUnionStack_eq (unionStack : List HybridFrame) (callFrameId : Nat) :
    walkUnionStack unionStack callFrameId = (unionStack.filter isReported).zipIdx callFrameId := by
  fun_induction walkUnionStack unionStack callFrameId
  all_goals simp_all [isReported, FrameHandler.isReported, List.filter_cons]

/-! ### Pauses -/

def reportedFrames (unionStack : List HybridFrame) (frames : List FrameHandler) :
    List HybridFrame :=
  if unionStack = [] then (frames.filter FrameHandler.isReported).map .dynamic
  else unionStack.filter isReported

def canPause (unionStack : List HybridFrame) (frames : List FrameHandler) : Bool :=
  if unionStack = [] then firstGenerates frames else unionStack.any isReported

theorem asHybrid_zipIdx : asHybrid frames.zipIdx = (frames.map .dynamic).zipIdx := by
  rw [List.zipIdx_map]
  rfl

theorem filterMap_handler?_zipIdx (frames : List HybridFrame) :
    frames.zipIdx.filterMap (fun p => p.1.handler?) = frames.filterMap handler? := by
  conv_rhs => rw [← List.zipIdx_map_fst 0 frames, List.filterMap_map]
  rfl

namespace CallFrameState

variable {s : CallFrameState} {unionStack : List HybridFrame} {frames : List FrameHandler}

theorem notifyPaused_of_canPause (h : canPause unionStack frames = true) :
    s.notifyPaused unionStack frames =
      { paused := true
        callFrameHandlers := (reportedFrames unionStack frames).filterMap handler?
        reported := (reportedFrames unionStack frames).zipIdx } := by
  by_cases hunion : unionStack = []
  · have hfirst : firstGenerates frames = true := by simpa [canPause, hunion] using h
    simp [notifyPaused, generatePausedInfo, reportedFrames, hunion, generateCallFrames_eq, hfirst,
      asHybrid_zipIdx, filterMap_handler?_zipIdx, cleanUpOnPaused]
  · have hany : unionStack.any isReported = true := by
      simpa [canPause, hunion] using h
    have hne : unionStack.filter isReported ≠ [] := by
      simpa [List.filter_eq_nil_iff] using hany
    simp [notifyPaused, generatePausedInfo, generateHybridFrames, reportedFrames, hunion,
      walkUnionStack_eq, hne, filterMap_handler?_zipIdx, cleanUpOnPaused]

theorem notifyPaused_of_not_canPause (h : canPause unionStack frames = false) :
    s.notifyPaused unionStack frames = s.cleanUpOnPaused := by
  by_cases hunion : unionStack = []
  · have hfirst : firstGenerates frames = false := by simpa [canPause, hunion] using h
    simp [notifyPaused, generatePausedInfo, hunion, generateCallFrames_eq, hfirst]
  · have hnil : unionStack.filter isReported = [] := by
      simpa [canPause, hunion, List.filter_eq_nil_iff] using h
    simp [notifyPaused, generatePausedInfo, generateHybridFrames, hunion, walkUnionStack_eq, hnil]

theorem mixedStack_of_firstGenerates (h : firstGenerates frames = true) :
    s.mixedStack frames =
      { s with
        callFrameHandlers := s.callFrameHandlers ++ frames.filter FrameHandler.isReported
        reported := if s.paused then
            s.reported ++ ((frames.filter FrameHandler.isReported).map .dynamic).zipIdx
          else s.reported } := by
  simp [mixedStack, generateCallFrames_eq, h, asHybrid_zipIdx, List.zipIdx_map_fst]

theorem mixedStack_of_not_firstGenerates (h : firstGenerates frames = false) :
    s.mixedStack frames = s := by
  cases s
  simp [mixedStack, generateCallFrames_eq, h]

end CallFrameState

/-! ### Handlers match -/

variable (s : CallFrameState)

/-- While the debugger is paused, the handler at the number of a dynamic frame
that has been reported is the handler of that frame. -/
def HandlersMatch : Prop :=
  s.paused = true → ∀ p ∈ s.reported, ∀ handler ∈ p.1.handler?,
    s.callFrameHandlers[p.2]? = some handler

instance decidableHandlersMatch (s : CallFrameState) : Decidable (HandlersMatch s) :=
  inferInstanceAs (Decidable (s.paused = true → ∀ p ∈ s.reported, ∀ handler ∈ p.1.handler?,
    s.callFrameHandlers[p.2]? = some handler))

/-- Requests by number are about the frame that has been reported under it. -/
def AddressesReported : Prop :=
  s.paused = true → ∀ p ∈ s.reported, ∀ handler ∈ p.1.handler?, s.handlerOf p.2 = .ok handler

theorem HandlersMatch.addressesReported {s : CallFrameState} (h : HandlersMatch s) :
    AddressesReported s := by
  intro hpaused p hp handler hhandler
  simp [handlerOf, h hpaused p hp handler hhandler]

theorem filter_isDynamic (frames : List HybridFrame) :
    frames.filter isDynamic = (frames.filterMap handler?).map .dynamic := by
  induction frames with
  | nil => rfl
  | cons frame frames ih =>
    cases frame with
    | static hasInfo => exact ih
    | dynamic handler =>
      rw [List.filter_cons_of_pos rfl, ih]
      rfl

/-- **Numbers and indices** agree exactly if dynamic frames come before static
ones. -/
theorem handlersMatch_hybrid_iff (frames : List HybridFrame) :
    (∀ p ∈ frames.zipIdx, ∀ handler ∈ p.1.handler?,
        (frames.filterMap handler?)[p.2]? = some handler) ↔
      KeptFirst isDynamic frames := by
  rw [keptFirst_iff_getElem?, filter_isDynamic]
  constructor
  · intro h i frame hframe hdynamic
    cases frame with
    | static hasInfo => cases hdynamic
    | dynamic handler =>
      have hget := h (.dynamic handler, i) (List.mem_zipIdx_iff_getElem?.mpr hframe) handler rfl
      rw [List.getElem?_map, hget]
      rfl
  · rintro h ⟨frame, i⟩ hframe handler hhandler
    cases frame with
    | static hasInfo => cases hhandler
    | dynamic handler' =>
      cases hhandler
      have hget := h i _ (List.mem_zipIdx_iff_getElem?.mp hframe) rfl
      rw [List.getElem?_map] at hget
      obtain ⟨handler', hget', heq⟩ := Option.map_eq_some_iff.mp hget
      cases heq
      exact hget'

/-! ### The condition -/

/-- The frames of a mixed stack that is reported. -/
def CallFrameOp.mixedStack : CallFrameOp → Option (List FrameHandler)
  | .notifyNativeCalling mixStackEnabled isUserCode frames =>
    if mixStackEnabled && isUserCode then some frames else none
  | .notifyReturnNative mixStackEnabled nativePointer frames =>
    if mixStackEnabled && !nativePointer.isEmpty then some frames else none
  | .getJsFrames nativePointers frames => if nativePointers.isEmpty then none else some frames
  | _ => none

/-- A pause reports no dynamic frame below a static one; one that fails does not
come while dynamic frames are shown. -/
def PauseFits : CallFrameOp → Prop
  | .notifyPaused unionStack frames =>
    if canPause unionStack frames then
      KeptFirst isDynamic (reportedFrames unionStack frames)
    else s.paused = true → ∀ p ∈ s.reported, p.1.isDynamic = false
  | _ => True

/-- A mixed stack is reported during a pause only if its handlers are there
already, or there are none. -/
def MixedStackFits (frames : List FrameHandler) : Prop :=
  s.paused = true → firstGenerates frames = true →
    frames.filter FrameHandler.isReported <+:
      s.callFrameHandlers ++ frames.filter FrameHandler.isReported

/-- The event keeps numbers and handlers together. -/
def OpFits (op : CallFrameOp) : Prop :=
  PauseFits s op ∧ ∀ frames ∈ op.mixedStack, MixedStackFits s frames

section Fits

variable {s : CallFrameState} {unionStack : List HybridFrame} {frames : List FrameHandler}

theorem handlersMatch_notifyPaused_iff :
    HandlersMatch (s.notifyPaused unionStack frames) ↔
      PauseFits s (.notifyPaused unionStack frames) := by
  rcases hpause : canPause unionStack frames with - | -
  · rw [notifyPaused_of_not_canPause hpause, PauseFits, if_neg (by simp [hpause])]
    constructor
    · rintro h hpaused ⟨frame, i⟩ hp
      cases frame with
      | static hasInfo => rfl
      | dynamic handler => cases h hpaused _ hp handler rfl
    · rintro h hpaused ⟨frame, i⟩ hp handler hhandler
      cases frame with
      | static hasInfo => cases hhandler
      | dynamic handler' => cases h hpaused _ hp
  · rw [notifyPaused_of_canPause hpause, PauseFits, if_pos hpause, ← handlersMatch_hybrid_iff]
    exact ⟨fun h => h rfl, fun h _ => h⟩

theorem prefix_iff_forall_reported {handlers : List FrameHandler} :
    frames <+: handlers ↔ ∀ p ∈ (frames.map dynamic).zipIdx,
      ∀ handler ∈ p.1.handler?, handlers[p.2]? = some handler := by
  rw [prefix_iff_forall_getElem?]
  constructor
  · rintro h ⟨frame, i⟩ hp handler hhandler
    have hget := List.mem_zipIdx_iff_getElem?.mp hp
    rw [List.getElem?_map] at hget
    obtain ⟨handler', hget', rfl⟩ := Option.map_eq_some_iff.mp hget
    cases hhandler
    exact h i handler hget'
  · intro h i handler hget
    refine h (.dynamic handler, i) (List.mem_zipIdx_iff_getElem?.mpr ?_) handler rfl
    rw [List.getElem?_map, hget]
    rfl

theorem handlersMatch_mixedStack (h : HandlersMatch s) (hfits : MixedStackFits s frames) :
    HandlersMatch (s.mixedStack frames) := by
  rcases hfirst : firstGenerates frames with - | -
  · rw [mixedStack_of_not_firstGenerates hfirst]
    exact h
  · rw [mixedStack_of_firstGenerates hfirst]
    intro hpaused p hp handler hhandler
    rw [if_pos hpaused, List.mem_append] at hp
    rcases hp with hp | hp
    · exact prefix_iff_forall_getElem?.mp (List.prefix_append _ _) _ _
        (h hpaused p hp handler hhandler)
    · exact prefix_iff_forall_reported.mp (hfits hpaused hfirst) p hp handler hhandler

theorem mixedStackFits_of_handlersMatch (h : HandlersMatch (s.mixedStack frames)) :
    MixedStackFits s frames := by
  intro hpaused hfirst
  rw [mixedStack_of_firstGenerates hfirst] at h
  refine prefix_iff_forall_reported.mpr fun p hp handler hhandler => ?_
  refine h hpaused p ?_ handler hhandler
  rw [if_pos hpaused]
  exact List.mem_append_right _ hp

variable {op : CallFrameOp}

theorem step_eq_mixedStack (h : op.mixedStack = some frames) : s.step op = s.mixedStack frames := by
  cases op with
  | notifyPaused unionStack frames | resume => cases h
  | notifyNativeCalling mixStackEnabled isUserCode frames
  | notifyReturnNative mixStackEnabled nativePointer frames =>
    obtain ⟨henabled, heq⟩ := Option.ite_none_right_eq_some.mp h
    cases heq
    exact if_pos henabled
  | getJsFrames nativePointers frames =>
    obtain ⟨hne, heq⟩ := Option.ite_none_left_eq_some.mp h
    cases heq
    exact if_neg hne

theorem step_eq_self (h : op.mixedStack = none) (hresume : op ≠ .resume)
    (hpause : ∀ unionStack frames, op ≠ .notifyPaused unionStack frames) : s.step op = s := by
  cases op with
  | notifyPaused unionStack frames => exact absurd rfl (hpause _ _)
  | notifyNativeCalling mixStackEnabled isUserCode frames
  | notifyReturnNative mixStackEnabled nativePointer frames =>
    refine if_neg fun henabled => ?_
    rw [CallFrameOp.mixedStack, if_pos henabled] at h
    cases h
  | getJsFrames nativePointers frames =>
    refine if_pos ?_
    by_contra hne
    rw [CallFrameOp.mixedStack, if_neg hne] at h
    cases h
  | resume => exact absurd rfl hresume

/-- **Handlers match, one step**: exactly if the event fits. -/
theorem handlersMatch_step_iff (h : HandlersMatch s) (op : CallFrameOp) :
    HandlersMatch (s.step op) ↔ OpFits s op := by
  rcases hmixed : op.mixedStack with - | frames
  · have hfits : OpFits s op ↔ PauseFits s op := by
      rw [OpFits, hmixed]
      exact and_iff_left nofun
    rw [hfits]
    by_cases hresume : op = .resume
    · subst hresume
      exact ⟨fun _ => trivial, fun _ => nofun⟩
    by_cases hpause : ∃ unionStack frames, op = .notifyPaused unionStack frames
    · obtain ⟨unionStack, frames, rfl⟩ := hpause
      exact handlersMatch_notifyPaused_iff
    · have hpause : ∀ unionStack frames, op ≠ .notifyPaused unionStack frames :=
        fun unionStack frames heq => hpause ⟨unionStack, frames, heq⟩
      rw [step_eq_self hmixed hresume hpause]
      refine ⟨fun _ => ?_, fun _ => h⟩
      cases op with
      | notifyPaused unionStack frames => exact absurd rfl (hpause _ _)
      | _ => trivial
  · have hfits : OpFits s op ↔ MixedStackFits s frames := by
      have hpause : PauseFits s op := by
        cases op with
        | notifyPaused unionStack frames => cases hmixed
        | _ => trivial
      rw [OpFits, hmixed]
      constructor
      · exact fun hfits => hfits.2 frames rfl
      · rintro hfits
        refine ⟨hpause, ?_⟩
        rintro _ ⟨⟩
        exact hfits
    rw [hfits, step_eq_mixedStack hmixed]
    exact ⟨mixedStackFits_of_handlersMatch, handlersMatch_mixedStack h⟩

end Fits

/-- **Call frame handlers**: in every run of pauses, notifications, queries and
resumes, while the debugger is paused the handler at the number of every dynamic
frame that has been reported is the handler of that frame, and requests by number use
it, exactly if every event fits. -/
theorem handlersMatch_iff (ops : List CallFrameOp) :
    (∀ k, HandlersMatch (stateAt step {} ops k) ∧ AddressesReported (stateAt step {} ops k)) ↔
      Admits step OpFits {} ops := by
  have hinit : HandlersMatch {} := fun hpaused => absurd hpaused Bool.false_ne_true
  simp only [and_iff_left_of_imp HandlersMatch.addressesReported]
  refine forall_stateAt_iff_admits (I := HandlersMatch) (fun _ h => h) ?_ ?_ hinit ops
  · intro s op h hfits
    exact (handlersMatch_step_iff h op).mpr hfits
  · intro s op h hfits hmatch
    exact hfits ((handlersMatch_step_iff h op).mp hmatch)

/-! ### Runs -/

section Runs

def dynamicBelowStatic : List CallFrameOp :=
  [.notifyPaused [.static true, .dynamic { sp := 1 }] []]

/-- Script that is evaluated during a pause calls native code. -/
def nativeCallInPause : List CallFrameOp :=
  [.notifyPaused [] [{ sp := 1 }], .notifyNativeCalling true true [{ sp := 2 }, { sp := 1 }]]

/-- In the first run the number of the frame has no handler; in the second one
the first number of the mixed stack has the handler of another frame. -/
theorem handlers_mismatch :
    (∃ s, stateAt step {} dynamicBelowStatic 1 = s ∧ s.paused = true ∧
      (.dynamic { sp := 1 }, 1) ∈ s.reported ∧ s.callFrameHandlers[1]? = none ∧
      ¬ HandlersMatch s) ∧
    ∃ s, stateAt step {} nativeCallInPause 2 = s ∧ s.paused = true ∧
      (.dynamic { sp := 2 }, 0) ∈ s.reported ∧
      s.callFrameHandlers[0]? = some { sp := 1 } ∧ ¬ HandlersMatch s :=
  ⟨⟨_, rfl, by decide⟩, ⟨_, rfl, by decide⟩⟩

end Runs

end ArkToolchain
