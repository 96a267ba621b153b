/-
Pause events, from the dynamic debugger to the command-line client.

The client reads the frames with `CallFrame::Create`, and one frame that is turned down drops
the whole event.  The debugger reports a `Date` with the subtype `date` and a `WeakSet` with
`weakset`, which are not in the list of the client.  In what gets through, the marker of arrays
and containers is written and never read, and texts end at a NUL.

Main results: `paused_event_accepted_iff`, and `paused_event_understood_iff` for the texts.
-/
import Mathlib.Data.List.Forall2
import ArkToolchain.PtTypes

namespace ArkToolchain

open PtJson

namespace Pt

/-! ### Values of the VM -/

/-- The first of the tests of `FromTagged` that succeeds; a typed array is an object to
it. -/
inductive TaggedKind
  | null
  | undefined
  | boolean (value : Bool)
  | number
  | bigint
  | string
  | symbol
  | proxy
  | generatorFunction
  | function
  | array
  | regexp
  | date
  | map
  | weakMap
  | set
  | weakSet
  | dataView
  | error
  | promise
  | arrayBuffer
  | arrayIterator
  | stringIterator
  | setIterator
  | mapIterator
  | arrayList
  | deque
  | hashMap
  | hashSet
  | lightWeightMap
  | lightWeightSet
  | linkedList
  | list
  | plainArray
  | queue
  | stack
  | treeMap
  | treeSet
  | vector
  | typedArray
  | object
  | nativePointer
  /-- a hole, for one -/
  | other
  deriving DecidableEq

namespace TaggedKind

/-- `type` of the kind. -/
def type : TaggedKind → Bytes
  | undefined | other => ascii "undefined"
  | boolean _ => ascii "boolean"
  | number => ascii "number"
  | bigint => ascii "bigint"
  | string => ascii "string"
  | symbol => ascii "symbol"
  | generatorFunction | function => ascii "function"
  | _ => ascii "object"

/-- `subtype` of the kind. -/
def subType : TaggedKind → Option Bytes
  | null => some (ascii "null")
  | proxy => some (ascii "proxy")
  | array => some (ascii "array")
  | regexp => some (ascii "regexp")
  | date => some (ascii "date")
  | map => some (ascii "map")
  | weakMap => some (ascii "weakmap")
  | set => some (ascii "set")
  | weakSet => some (ascii "weakset")
  | dataView => some (ascii "dataview")
  | error => some (ascii "error")
  | promise => some (ascii "promise")
  | arrayBuffer => some (ascii "arraybuffer")
  | setIterator | mapIterator => some (ascii "iterator")
  | _ => none

/-- `className` of the kind. -/
def className : TaggedKind → Option Bytes
  | null | undefined | boolean _ | number | bigint | string | symbol | other => none
  | generatorFunction => some (ascii "Generator")
  | function => some (ascii "Function")
  | array => some (ascii "Array")
  | regexp => some (ascii "RegExp")
  | date => some (ascii "Date")
  | map => some (ascii "Map")
  | weakMap => some (ascii "Weakmap")
  | set => some (ascii "Set")
  | weakSet => some (ascii "Weakset")
  | dataView => some (ascii "Dataview")
  | error => some (ascii "Error")
  | promise => some (ascii "Promise")
  | arrayBuffer => some (ascii "Arraybuffer")
  | arrayIterator => some (ascii "ArrayIterator")
  | stringIterator => some (ascii "StringIterator")
  | setIterator => some (ascii "SetIterator")
  | mapIterator => some (ascii "MapIterator")
  | _ => some (ascii "Object")

/-- The description, from the text that the VM gives for the value. -/
def description (text : Bytes) : TaggedKind → Option Bytes
  | null | undefined | other => none
  | boolean value => some (ascii (if value then "true" else "false"))
  | _ => some text

/-- What `DescriptionForObject` sets beside the description. -/
def marker : TaggedKind → Bytes
  | array | typedArray => ascii "Array"
  | map | weakMap | set | weakSet | arrayList | deque | hashMap | hashSet | lightWeightMap
  | lightWeightSet | linkedList | list | plainArray | queue | stack | treeMap | treeSet
  | vector => ascii "Container"
  | _ => []

/-- The value is described by an `ObjectRemoteObject`. -/
def isObjectRemote : TaggedKind → Bool
  | null | undefined | boolean _ | number | bigint | string | symbol | generatorFunction
  | function | other => false
  | _ => true

end TaggedKind

/-- A value with the text for it, and the id that `CacheObjectIfNeeded` gives it. -/
structure Tagged where
  kind : TaggedKind
  text : Bytes := []
  objectId : Option Int32 := none

/-- `FromTagged`, and the id. -/
def RemoteObject.fromTagged (tagged : Tagged) : RemoteObject where
  type := tagged.kind.type
  subType := tagged.kind.subType
  className := tagged.kind.className
  unserializableValue := tagged.kind.description tagged.text
  description := tagged.kind.description tagged.text
  objectId := tagged.objectId
  arrayOrContainer := if tagged.kind.isObjectRemote then some tagged.kind.marker else none

open Pt.RemoteObject

/-! ### Dynamic frames -/

/-- What `GenerateCallFrame` finds for a frame.  The ids are those of the objects that
stand for its scopes. -/
structure DynamicFrame where
  functionName : Bytes := []
  url : Bytes := []
  scriptId : Int32 := 0
  line : Int32 := 0
  column : Int32 := 0
  /-- the lines of the first and the last entry in the table of the method -/
  firstLine : Int32 := 0
  lastLine : Int32 := 0
  this : Tagged := { kind := .other }
  localId : Int32 := 0
  closureIds : List Int32 := []
  moduleId : Option Int32 := none
  globalId : Int32 := 0

namespace DynamicFrame

/-- The object of a scope that is not global. -/
def scopeObject (objectId : Int32) : RemoteObject where
  type := ascii "object"
  objectId := some objectId
  className := some (ascii "Object")
  description := some (ascii "Object")

def localScope (frame : DynamicFrame) : Scope where
  type := ascii "local"
  object := scopeObject frame.localId
  startLocation := some
    { scriptId := frame.scriptId, lineNumber := frame.firstLine, columnNumber := some 0 }
  endLocation := some
    { scriptId := frame.scriptId, lineNumber := frame.lastLine + 1, columnNumber := some 0 }

def closureScope (objectId : Int32) : Scope where
  type := ascii "closure"
  object := scopeObject objectId

def moduleScope (objectId : Int32) : Scope where
  type := ascii "module"
  object := scopeObject objectId

def globalScope (objectId : Int32) : Scope where
  type := ascii "global"
  object :=
    { type := ascii "object"
      objectId := some objectId
      className := some (ascii "global")
      description := some (ascii "global") }

/-- `GenerateScopeChains`. -/
def scopeChain (frame : DynamicFrame) : List Scope :=
  [frame.localScope] ++ frame.closureIds.map closureScope ++
    frame.moduleId.toList.map moduleScope ++ [globalScope frame.globalId]

/-- The call frame that `GenerateCallFrame` makes. -/
def callFrame (frame : DynamicFrame) (callFrameId : Int32) : CallFrame where
  callFrameId := callFrameId
  functionName := frame.functionName
  location :=
    { scriptId := frame.scriptId, lineNumber := frame.line, columnNumber := some frame.column }
  url := frame.url
  scopeChain := frame.scopeChain
  this := some (fromTagged frame.this)

end DynamicFrame

/-! ### Static frames -/

/-- The types of the static side. -/
inductive UnifiedType
  | undefined
  | nullValue
  | boolean
  | number
  | string
  | object
  | function
  | array
  deriving DecidableEq

/-- An object as the static side describes it. -/
structure UnifiedRemoteObject where
  type : UnifiedType := .undefined
  className : Bytes := []
  /-- as `SetObjectId` takes it, a `RemoteObjectId` -/
  objectId : Option Int32 := none
  description : Option Bytes := none
  booleanValue : Option Bool := none
  /-- the text that `std::to_string` gives for the number -/
  numberValue : Option Bytes := none
  stringValue : Option Bytes := none

def UnifiedType.type : UnifiedType → Bytes
  | undefined => ascii "undefined"
  | boolean => ascii "boolean"
  | number => ascii "number"
  | string => ascii "string"
  | function => ascii "function"
  | nullValue | object | array => ascii "object"

def UnifiedType.subType : UnifiedType → Option Bytes
  | nullValue => some (ascii "null")
  | array => some (ascii "array")
  | _ => none

/-- The description of a value; one that the object has already goes first. -/
def UnifiedRemoteObject.valueDescription (object : UnifiedRemoteObject) : Option Bytes :=
  match object.type with
  | .boolean => object.booleanValue.map fun value => ascii (if value then "true" else "false")
  | .number => object.numberValue
  | .string => object.stringValue
  | _ => none

/-- `ConvertFromUnifiedRemoteObject`. -/
def UnifiedRemoteObject.convert (object : UnifiedRemoteObject) : RemoteObject where
  type := object.type.type
  subType := object.type.subType
  className := some object.className
  description := object.description.or object.valueDescription
  objectId := object.objectId

/-- A scope as the static side describes it. -/
structure UnifiedScope where
  /-- the type is `GLOBAL` -/
  isGlobal : Bool := false
  object : UnifiedRemoteObject := {}

/-- `ConvertFromUnifiedScope`. -/
def UnifiedScope.convert (scope : UnifiedScope) : Scope where
  type := ascii (if scope.isGlobal then "global" else "local")
  object := scope.object.convert

/-- What `ExtractStaticFrameInfo` finds for a frame. -/
structure UnifiedFrameInfo where
  methodName : Bytes := []
  sourceFile : Bytes := []
  lineNumber : Int32 := 0
  columnNumber : Int32 := 0
  scopeChain : List UnifiedScope := []
  thisObject : Option UnifiedRemoteObject := none

/-- `ProcessStaticFrame`. -/
def UnifiedFrameInfo.callFrame (info : UnifiedFrameInfo) (callFrameId : Int32) : CallFrame where
  callFrameId := callFrameId
  functionName := info.methodName
  url := info.sourceFile
  location :=
    { scriptId := 0, lineNumber := info.lineNumber, columnNumber := some info.columnNumber }
  isStaticFrame := true
  scopeChain := info.scopeChain.map UnifiedScope.convert
  this := info.thisObject.map UnifiedRemoteObject.convert

/-- A frame that is reported. -/
inductive FrameSource
  | dynamic (frame : DynamicFrame)
  | static (info : UnifiedFrameInfo)

def FrameSource.callFrame : FrameSource → Int32 → CallFrame
  | .dynamic frame => frame.callFrame
  | .static info => info.callFrame

/-- The frames of an event, with their ids from `0` on. -/
def callFramesOf (sources : List FrameSource) : List CallFrame :=
  sources.mapIdx fun i source => source.callFrame (Int32.ofNat i)

/-! ### The event -/

/-- `Paused`, as far as its members are set. -/
structure Paused where
  callFrames : List CallFrame := []
  reason : Bytes := []
  data : Option RemoteObject := none
  hitBreakpoints : Option (List Bytes) := none
  /-- the trace, as it is written -/
  asyncStackTrace : Option PtJson := none

namespace Paused

def fields (paused : Paused) : List (Bytes × Option PtJson) :=
  [(ascii "callFrames", some (PtJson.array (paused.callFrames.map CallFrame.toJson))),
    (ascii "reason", some (ofString paused.reason)),
    (ascii "data", paused.data.map toJson),
    (ascii "hitBreakpoints", paused.hitBreakpoints.map fun ids => PtJson.array (ids.map ofString)),
    (ascii "asyncStackTrace", paused.asyncStackTrace)]

def eventFields (paused : Paused) : List (Bytes × Option PtJson) :=
  [(ascii "method", some (ofString (ascii "Debugger.paused"))),
    (ascii "params", some (ofMembers paused.fields))]

def toJson (paused : Paused) : PtJson := ofMembers paused.eventFields

end Paused

/-! ### The client -/

/-- The loop of `PausedReply`: a frame that is null ends it. -/
def createFrames : List PtJson → Except Fault (Option (List CallFrame))
  | [] => return some []
  | element :: elements => do
      match ← CallFrame.create element with
      | .error _ => return none
      | .ok frame => return (← createFrames elements).map (frame :: ·)

/-- The keys of the frames in `data` are from `1` on. -/
def numbered (frames : List CallFrame) : List (Nat × CallFrame) :=
  frames.mapIdx fun i frame => (i + 1, frame)

/-- `PausedReply`: the frames that the stack manager is given, with their numbers, if the
reply gets there.  `GetDebugSources` and `RequestWatchInfo`, which follow, are left out. -/
def pausedReply (session : Bool) (json : Option PtJson) :
    Except Fault (Option (List (Nat × CallFrame))) :=
  match json.bind isObject with
  | none => return none
  | some json =>
    match json.getObject (ascii "params") with
    | .success params =>
      match params.getArray (ascii "callFrames") with
      | .success callFrames => do
          match ← createFrames callFrames with
          | none => return none
          | some frames =>
            if session then return some (numbered frames) else return none
      | _ => return none
    | _ => return none

variable (frames : List CallFrame)

theorem createFrames_toJson :
    ((∀ frame ∈ frames, frame.Valid) →
      createFrames (frames.map CallFrame.toJson) = .ok (some (frames.map CallFrame.cut))) ∧
    ((¬ ∀ frame ∈ frames, frame.Valid) →
      createFrames (frames.map CallFrame.toJson) = .ok none) := by
  induction frames with
  | nil => exact ⟨fun _ => rfl, fun h => absurd (List.forall_mem_nil _) h⟩
  | cons frame frames ih =>
    rw [List.forall_mem_cons, List.map_cons, List.map_cons, createFrames]
    by_cases hframe : frame.Valid
    · rw [frame.create_toJson.1 hframe]
      constructor
      · rintro ⟨-, hframes⟩
        rw [ih.1 hframes]
        rfl
      · intro h
        rw [ih.2 fun hframes => h ⟨hframe, hframes⟩]
        rfl
    · obtain ⟨error, herror⟩ := frame.create_toJson.2 hframe
      rw [herror]
      exact ⟨fun h => absurd h.1 hframe, fun _ => rfl⟩

namespace Paused

variable (paused : Paused)

theorem distinctKeys : DistinctKeys paused.fields := by
  simp only [DistinctKeys, fields, List.map_cons, List.map_nil]
  decide +kernel

theorem distinctKeys_event : DistinctKeys paused.eventFields := by
  simp only [DistinctKeys, eventFields, List.map_cons, List.map_nil]
  decide +kernel

theorem pausedReply_toJson :
    pausedReply true (some paused.toJson) =
      (createFrames (paused.callFrames.map CallFrame.toJson)).map fun frames =>
        frames.map numbered := by
  have hevent := paused.distinctKeys_event
  have hparams := getObject_ofMembers hevent (k := ascii "params") fields distinctKeys
    (v := some paused) (by simp [eventFields])
  have hframes := getArray_ofMembers paused.distinctKeys (k := ascii "callFrames")
    (v := some (paused.callFrames.map CallFrame.toJson)) (by simp [fields])
  rw [pausedReply, toJson, Option.bind_some, isObject_ofMembers hevent]
  simp only [hparams, hframes, Result.ofOption, Option.map_some]
  cases createFrames (paused.callFrames.map CallFrame.toJson) with
  | error fault => rfl
  | ok frames =>
    cases frames with
    | none | some frames => rfl

/-- **The reply** stores every frame as `Create` makes it, or drops the event. -/
theorem pausedReply_eq :
    ((∀ frame ∈ paused.callFrames, frame.Valid) →
      pausedReply true (some paused.toJson) =
        .ok (some (numbered (paused.callFrames.map CallFrame.cut)))) ∧
    ((¬ ∀ frame ∈ paused.callFrames, frame.Valid) →
      pausedReply true (some paused.toJson) = .ok none) := by
  rw [pausedReply_toJson]
  constructor
  · intro h
    rw [(createFrames_toJson _).1 h]
    rfl
  · intro h
    rw [(createFrames_toJson _).2 h]
    rfl

end Paused

/-! ### The frame that is stored and the frame that is reported -/

/-- A marker that is missing is an empty one. -/
@[mk_iff]
structure RemoteObject.SameAs (read written : RemoteObject) : Prop where
  type : read.type = written.type
  subType : read.subType = written.subType
  className : read.className = written.className
  unserializableValue : read.unserializableValue = written.unserializableValue
  description : read.description = written.description
  objectId : read.objectId = written.objectId
  arrayOrContainer : read.arrayOrContainer.getD [] = written.arrayOrContainer.getD []

structure Scope.SameAs (read written : Scope) : Prop where
  type : read.type = written.type
  object : read.object.SameAs written.object
  name : read.name = written.name
  startLocation : read.startLocation = written.startLocation
  endLocation : read.endLocation = written.endLocation

structure CallFrame.SameAs (read written : CallFrame) : Prop where
  callFrameId : read.callFrameId = written.callFrameId
  functionName : read.functionName = written.functionName
  location : read.location = written.location
  url : read.url = written.url
  scopeChain : List.Forall₂ Scope.SameAs read.scopeChain written.scopeChain
  this : ∃ object, read.this = some object ∧ object.SameAs written.writtenThis

/-- No text of the object ends early, and it has no marker. -/
@[mk_iff]
structure RemoteObject.Plain (object : RemoteObject) : Prop where
  type : 0 ∉ object.type
  subType : ∀ t ∈ object.subType, 0 ∉ t
  className : ∀ t ∈ object.className, 0 ∉ t
  unserializableValue : ∀ t ∈ object.unserializableValue, 0 ∉ t
  description : ∀ t ∈ object.description, 0 ∉ t
  arrayOrContainer : object.arrayOrContainer.getD [] = []

theorem RemoteObject.cut_sameAs_iff (object : RemoteObject) :
    object.cut.SameAs object ↔ object.Plain := by
  simp only [sameAs_iff, plain_iff, cut, cStr_eq_self_iff, map_cStr_eq_self_iff, true_and]
  rw [eq_comm]
  rfl

@[mk_iff]
structure Scope.Plain (scope : Scope) : Prop where
  type : 0 ∉ scope.type
  object : scope.object.Plain
  name : ∀ t ∈ scope.name, 0 ∉ t

theorem Scope.cut_sameAs_iff (scope : Scope) : scope.cut.SameAs scope ↔ scope.Plain := by
  rw [scope.plain_iff, ← scope.object.cut_sameAs_iff, ← map_cStr_eq_self_iff, ← cStr_eq_self_iff]
  exact ⟨fun h => ⟨h.type, h.object, h.name⟩, fun h => ⟨h.1, h.2.1, h.2.2, rfl, rfl⟩⟩

theorem CallFrame.cut_sameAs_iff (frame : CallFrame) :
    frame.cut.SameAs frame ↔
      0 ∉ frame.functionName ∧ 0 ∉ frame.url ∧ (∀ scope ∈ frame.scopeChain, scope.Plain) ∧
      frame.writtenThis.Plain := by
  have hscopes : List.Forall₂ Scope.SameAs (frame.scopeChain.map Scope.cut) frame.scopeChain ↔
      ∀ scope ∈ frame.scopeChain, scope.Plain := by
    rw [List.forall₂_map_left_iff, List.forall₂_same]
    exact forall₂_congr fun scope _ => scope.cut_sameAs_iff
  rw [← hscopes, ← frame.writtenThis.cut_sameAs_iff, ← cStr_eq_self_iff, ← cStr_eq_self_iff]
  constructor
  · intro h
    obtain ⟨object, hobject, hsame⟩ := h.this
    obtain rfl : frame.writtenThis.cut = object := Option.some.inj hobject
    exact ⟨h.functionName, h.url, h.scopeChain, hsame⟩
  · rintro ⟨hname, hurl, hchain, hthis⟩
    exact ⟨rfl, hname, rfl, hurl, hchain, _, rfl, hthis⟩

/-! ### The frames of the debugger -/

/-- The client has the subtype of the value in its list. -/
def TaggedKind.Known (kind : TaggedKind) : Prop := kind ≠ .date ∧ kind ≠ .weakSet

/-- The value is known and has no marker, and its description does not end early. -/
def Tagged.Understood (tagged : Tagged) : Prop :=
  tagged.kind.Known ∧ tagged.kind.marker = [] ∧ ∀ t ∈ tagged.kind.description tagged.text, 0 ∉ t

theorem contains_cStr_of_mem {names : List Bytes} (hnames : ∀ t ∈ names, (0 : UInt8) ∉ t)
    {t : Bytes} (h : t ∈ names) : names.contains (cStr t) = true := by
  rw [cStr_eq_self_iff.mpr (hnames t h)]
  exact List.contains_iff_mem.mpr h

theorem RemoteObject.typeNames_nulFree : ∀ t ∈ typeNames, 0 ∉ t := by
  unfold typeNames
  repeat rw [ascii_ofList]
  decide

theorem RemoteObject.subTypeNames_nulFree : ∀ t ∈ subTypeNames, 0 ∉ t := by
  unfold subTypeNames
  repeat rw [ascii_ofList]
  decide

theorem Scope.typeNames_nulFree : ∀ t ∈ typeNames, 0 ∉ t := by
  unfold typeNames
  repeat rw [ascii_ofList]
  decide

namespace TaggedKind

variable (kind : TaggedKind)

theorem type_mem : kind.type ∈ typeNames := by
  cases kind <;> simp [type, typeNames]

theorem subType_mem_iff : (∀ t ∈ kind.subType, t ∈ subTypeNames) ↔ kind.Known := by
  have hmissing : ascii "date" ∉ subTypeNames ∧
      ascii "weakset" ∉ subTypeNames := by
    repeat rw [ascii_ofList]
    decide
  cases kind with
  | date => simpa [subType, Known] using hmissing.1
  | weakSet => simpa [subType, Known] using hmissing.2
  | _ => simp [subType, Known, subTypeNames]

theorem names_nulFree :
    0 ∉ kind.type ∧ (∀ t ∈ kind.subType, 0 ∉ t) ∧ ∀ t ∈ kind.className, 0 ∉ t := by
  refine ⟨typeNames_nulFree _ kind.type_mem, ?_⟩
  cases kind with
  | boolean value => exact ⟨nofun, nofun⟩
  | _ => decide +kernel

theorem names_valid :
    (typeNames.contains (cStr kind.type) = true ∧
      ∀ t ∈ kind.subType.map cStr, subTypeNames.contains t = true) ↔
    kind.Known := by
  have hcut : kind.subType.map cStr = kind.subType := by
    cases h : kind.subType with
    | none => rfl
    | some t => rw [Option.map_some, cStr_eq_self_iff.mpr (kind.names_nulFree.2.1 t h)]
  rw [hcut, and_iff_right (contains_cStr_of_mem typeNames_nulFree kind.type_mem),
    ← kind.subType_mem_iff]
  simp only [List.contains_iff_mem]

end TaggedKind

theorem TaggedKind.marker_eq_nil (kind : TaggedKind) (h : kind.isObjectRemote = false) :
    kind.marker = [] := by
  cases kind with
  | null | undefined | boolean _ | number | bigint | string | symbol | generatorFunction
  | function | other => rfl
  | _ => cases h

namespace RemoteObject

variable (tagged : Tagged)

theorem valid_fromTagged_iff : (fromTagged tagged).Valid ↔ tagged.kind.Known :=
  tagged.kind.names_valid

theorem plain_fromTagged_iff :
    (fromTagged tagged).Plain ↔
      tagged.kind.marker = [] ∧ ∀ t ∈ tagged.kind.description tagged.text, 0 ∉ t := by
  have hmarker : (fromTagged tagged).arrayOrContainer.getD [] = tagged.kind.marker := by
    show (if _ then _ else _ : Option Bytes).getD [] = _
    split
    case isTrue => rfl
    case isFalse h => exact (tagged.kind.marker_eq_nil (Bool.eq_false_iff.mpr h)).symm
  obtain ⟨htype, hsubType, hclassName⟩ := tagged.kind.names_nulFree
  rw [← hmarker]
  constructor
  · intro h
    exact ⟨h.arrayOrContainer, h.description⟩
  · rintro ⟨hnone, hdescription⟩
    exact ⟨htype, hsubType, hclassName, hdescription, hdescription, hnone⟩

end RemoteObject

namespace UnifiedRemoteObject

/-- The texts of the object have no NUL. -/
def Understood (object : UnifiedRemoteObject) : Prop :=
  0 ∉ object.className ∧ ∀ t ∈ object.convert.description, 0 ∉ t

theorem names_mem (type : UnifiedType) : type.type ∈ typeNames ∧
    ∀ t ∈ type.subType, t ∈ subTypeNames := by
  cases type <;> simp [UnifiedType.type, UnifiedType.subType, typeNames, subTypeNames]

variable (object : UnifiedRemoteObject)

theorem valid_convert : object.convert.Valid := by
  obtain ⟨htype, hsubType⟩ := names_mem object.type
  refine ⟨contains_cStr_of_mem typeNames_nulFree htype, ?_⟩
  intro t ht
  obtain ⟨subType, hmem, rfl⟩ := Option.map_eq_some_iff.mp ht
  exact contains_cStr_of_mem subTypeNames_nulFree (hsubType subType hmem)

theorem plain_convert_iff : object.convert.Plain ↔ object.Understood := by
  obtain ⟨htype, hsubType⟩ := names_mem object.type
  constructor
  · intro h
    exact ⟨h.className _ rfl, h.description⟩
  · rintro ⟨hclassName, hdescription⟩
    refine ⟨typeNames_nulFree _ htype,
      fun t ht => subTypeNames_nulFree t (hsubType t ht), ?_, nofun, hdescription, rfl⟩
    rintro _ ⟨⟩
    exact hclassName

end UnifiedRemoteObject

/-- What the client has to know about a frame. -/
def FrameSource.Known : FrameSource → Prop
  | .dynamic frame => frame.this.kind.Known
  | .static _ => True

/-- The texts of the frame have no NUL, and its objects are understood. -/
def FrameSource.Understood : FrameSource → Prop
  | .dynamic frame =>
    0 ∉ frame.functionName ∧ 0 ∉ frame.url ∧ frame.this.Understood
  | .static info =>
    0 ∉ info.methodName ∧ 0 ∉ info.sourceFile ∧
      (∀ scope ∈ info.scopeChain, scope.object.Understood) ∧
      ∀ object ∈ info.thisObject, object.Understood

namespace DynamicFrame

theorem fixed_scope {type name : Bytes} (id : Int32) (startLocation endLocation : Option Location)
    (htype : type ∈ Scope.typeNames) (hname : 0 ∉ name) : let scope : Scope :=
      { type, startLocation, endLocation
        object :=
          { type := ascii "object"
            objectId := some id
            className := some name
            description := some name } }
    scope.Valid ∧ scope.Plain := by
  have hobject : ascii "object" ∈ typeNames := by simp [typeNames]
  have hsome : ∀ t ∈ some name, 0 ∉ t := by
    rintro _ ⟨⟩
    exact hname
  exact ⟨⟨contains_cStr_of_mem Scope.typeNames_nulFree htype,
      contains_cStr_of_mem typeNames_nulFree hobject, nofun⟩,
    ⟨Scope.typeNames_nulFree _ htype,
      ⟨typeNames_nulFree _ hobject, nofun, hsome, nofun, hsome, rfl⟩, nofun⟩⟩

theorem scopeChain_spec (frame : DynamicFrame) {scope : Scope} (h : scope ∈ frame.scopeChain) :
    scope.Valid ∧ scope.Plain := by
  have hnames : 0 ∉ ascii "Object" ∧ 0 ∉ ascii "global" := by decide
  simp only [scopeChain, List.mem_append, List.mem_singleton, List.mem_map] at h
  rcases h with ((rfl | ⟨id, -, rfl⟩) | ⟨id, -, rfl⟩) | rfl
  · exact fixed_scope _ _ _ (by simp [Scope.typeNames]) hnames.1
  · exact fixed_scope _ _ _ (by simp [Scope.typeNames]) hnames.1
  · exact fixed_scope _ _ _ (by simp [Scope.typeNames]) hnames.1
  · exact fixed_scope _ _ _ (by simp [Scope.typeNames]) hnames.2

end DynamicFrame

theorem UnifiedScope.type_mem (scope : UnifiedScope) : scope.convert.type ∈ Scope.typeNames := by
  show ascii (if scope.isGlobal then "global" else "local") ∈ Scope.typeNames
  cases scope.isGlobal <;> simp [Scope.typeNames]

namespace FrameSource

theorem undefined_mem : ascii "undefined" ∈ typeNames := by
  simp [typeNames]

variable (source : FrameSource) (id : Int32)

theorem valid_callFrame_iff : (source.callFrame id).Valid ↔ source.Known := by
  cases source with
  | dynamic frame =>
    constructor
    · intro h
      exact (valid_fromTagged_iff _).mp h.2.1
    · intro h
      exact ⟨fun scope hscope => (frame.scopeChain_spec hscope).1,
        (valid_fromTagged_iff _).mpr h, nofun⟩
  | static info =>
    refine iff_of_true ⟨?_, ?_, nofun⟩ trivial
    · intro scope hscope
      obtain ⟨unified, -, rfl⟩ := List.mem_map.mp hscope
      refine ⟨?_, unified.object.valid_convert⟩
      exact contains_cStr_of_mem Scope.typeNames_nulFree unified.type_mem
    · show ((info.thisObject.map UnifiedRemoteObject.convert).getD _).Valid
      cases info.thisObject with
      | none =>
        exact ⟨contains_cStr_of_mem typeNames_nulFree undefined_mem, nofun⟩
      | some object => exact object.valid_convert

theorem understood_iff :
    (source.callFrame id).Valid ∧ (source.callFrame id).cut.SameAs (source.callFrame id) ↔
      source.Understood := by
  rw [valid_callFrame_iff, CallFrame.cut_sameAs_iff]
  cases source with
  | dynamic frame =>
    have hscopes : ∀ scope ∈ frame.scopeChain, scope.Plain :=
      fun scope hscope => (frame.scopeChain_spec hscope).2
    have hthis := plain_fromTagged_iff frame.this
    constructor
    · rintro ⟨hknown, hname, hurl, -, hplain⟩
      exact ⟨hname, hurl, hknown, hthis.mp hplain⟩
    · rintro ⟨hname, hurl, hknown, hplain⟩
      exact ⟨hknown, hname, hurl, hscopes, hthis.mpr hplain⟩
  | static info =>
    have hscopes : (∀ scope ∈ info.scopeChain.map UnifiedScope.convert, scope.Plain) ↔
        ∀ scope ∈ info.scopeChain, scope.object.Understood := by
      rw [List.forall_mem_map]
      refine forall₂_congr fun scope _ => ?_
      rw [← scope.object.plain_convert_iff]
      have htype := Scope.typeNames_nulFree _ scope.type_mem
      exact ⟨fun h => h.object, fun h => ⟨htype, h, nofun⟩⟩
    have hthis : ((info.thisObject.map UnifiedRemoteObject.convert).getD
        { type := ascii "undefined" }).Plain ↔ ∀ object ∈ info.thisObject, object.Understood := by
      cases info.thisObject with
      | none =>
        have htype := typeNames_nulFree _ undefined_mem
        exact iff_of_true ⟨htype, nofun, nofun, nofun, nofun, rfl⟩ nofun
      | some object =>
        rw [Option.map_some, Option.getD_some, object.plain_convert_iff]
        simp
    constructor
    · rintro ⟨-, hname, hfile, hchain, hplain⟩
      exact ⟨hname, hfile, hscopes.mp hchain, hthis.mp hplain⟩
    · rintro ⟨hname, hfile, hchain, hplain⟩
      exact ⟨trivial, hname, hfile, hscopes.mpr hchain, hthis.mpr hplain⟩

end FrameSource

theorem forall_callFramesOf {s : List FrameSource} {p : CallFrame → Prop}
    {q : FrameSource → Prop} (h : ∀ source id, p (source.callFrame id) ↔ q source) :
    (∀ frame ∈ callFramesOf s, p frame) ↔ ∀ source ∈ s, q source := by
  constructor
  · intro hall source hsource
    obtain ⟨i, hi, rfl⟩ := List.mem_iff_getElem.mp hsource
    refine (h _ (Int32.ofNat i)).mp (hall _ ?_)
    exact List.mem_mapIdx.mpr ⟨i, hi, rfl⟩
  · intro hall frame hframe
    obtain ⟨i, hi, rfl⟩ := List.mem_mapIdx.mp hframe
    exact (h _ _).mpr (hall _ (List.getElem_mem hi))

/-! ### Events that the client understands -/

theorem numbered_fst : (numbered frames).map Prod.fst = List.range' 1 frames.length := by
  apply List.ext_getElem
  · simp [numbered]
  · intro i _ _
    simp [numbered, Nat.add_comm]

theorem numbered_snd : (numbered frames).map Prod.snd = frames := by
  apply List.ext_getElem
  · simp [numbered]
  · intro i _ _
    simp [numbered]

namespace Paused

/-- **Dropped events**: the client drops an event exactly if `this` is a `Date` or a
`WeakSet` in one of the dynamic frames. -/
theorem paused_event_accepted_iff (paused : Paused) (sources : List FrameSource) :
    pausedReply true (some { paused with callFrames := callFramesOf sources }.toJson) ≠ .ok none ↔
      ∀ source ∈ sources, source.Known := by
  rw [← forall_callFramesOf FrameSource.valid_callFrame_iff]
  have heq := pausedReply_eq { paused with callFrames := callFramesOf sources }
  constructor
  · intro h
    by_contra hnot
    exact h (heq.2 hnot)
  · intro h
    rw [heq.1 h]
    simp

/-- **Pause events** are understood exactly if no `this` is a `Date` or has a marker, and
no text ends early. -/
theorem paused_event_understood_iff (paused : Paused) (sources : List FrameSource) :
    (∃ stored,
      pausedReply true (some { paused with callFrames := callFramesOf sources }.toJson)
        = .ok (some stored) ∧
      stored.map Prod.fst = List.range' 1 sources.length ∧
      List.Forall₂ CallFrame.SameAs (stored.map Prod.snd) (callFramesOf sources)) ↔
    ∀ source ∈ sources, source.Understood := by
  have hall := forall_callFramesOf (s := sources)
    (p := fun frame => frame.Valid ∧ frame.cut.SameAs frame) FrameSource.understood_iff
  have heq := pausedReply_eq { paused with callFrames := callFramesOf sources }
  have hsame : List.Forall₂ CallFrame.SameAs
      ((numbered ((callFramesOf sources).map CallFrame.cut)).map Prod.snd) (callFramesOf sources) ↔
      ∀ frame ∈ callFramesOf sources, frame.cut.SameAs frame := by
    rw [numbered_snd, List.forall₂_map_left_iff, List.forall₂_same]
  rw [← hall]
  constructor
  · rintro ⟨stored, hreply, -, hstored⟩
    by_cases hvalid : ∀ frame ∈ callFramesOf sources, frame.Valid
    · rw [heq.1 hvalid] at hreply
      obtain rfl := Option.some.inj (Except.ok.inj hreply)
      exact fun frame hframe => ⟨hvalid frame hframe, hsame.mp hstored frame hframe⟩
    · rw [heq.2 hvalid] at hreply
      cases hreply
  · intro h
    refine ⟨_, heq.1 fun frame hframe => (h frame hframe).1, ?_, ?_⟩
    · rw [numbered_fst, List.length_map, callFramesOf, List.length_mapIdx]
    · exact hsame.mpr fun frame hframe => (h frame hframe).2

/-- A `Date` drops the event, and an array comes without its marker. -/
theorem paused_event_not_understood :
    let event (kind : TaggedKind) : PtJson :=
      toJson { callFrames := callFramesOf [.dynamic { this := { kind } }] }
    pausedReply true (some (event .date)) = .ok none ∧
    (pausedReply true (some (event .array))).map (fun stored =>
        stored.map fun stored => stored.map fun frame => frame.2.this.map (·.arrayOrContainer))
      = .ok (some [some none]) ∧
    (fromTagged { kind := .array }).arrayOrContainer = some (ascii "Array") := by
  decide +kernel

end Paused

end Pt

end ArkToolchain
