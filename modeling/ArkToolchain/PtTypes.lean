/-
Types of the debugger protocol (`pt_types.cpp`), with `ToJson` and `Create`.

The types and subtypes of remote objects and the modes of traces have to be in a list of names;
nothing else in what has been written is turned down.  What is accepted is read back up to the
first NUL of a text, without `arrayOrContainer`, `isStaticFrame` and `memoryDumpConfig`.

For `TraceConfig` this is exact (`trace_config_round_trip_iff`).
-/
import ArkToolchain.PtJson

namespace ArkToolchain

open PtJson

namespace Pt

/-! ### Numbers that travel as texts -/

/-- `StrToInt32` of a member. -/
def convert (key : String) (text : Bytes) : Reading Int32 :=
  match strToInt32 text with
  | some n => return n
  | none => do
      complain ("Failed to convert '" ++ key ++ "' from string to int;")
      return 0

/-- An id, which is written as text. -/
def requiredId (key : String) : Result Bytes → Reading Int32
  | .success text => convert key text
  | _ => do
      complain ("Unknown or wrong type of '" ++ key ++ "';")
      return 0

/-- An id that may be missing. -/
def optionalId (key : String) : Result Bytes → Reading (Option Int32)
  | .success text => do return some (← convert key text)
  | .notExist => return none
  | .typeError => do
      complain ("Wrong type of '" ++ key ++ "';")
      return none

/-- `std::to_string(id).c_str()`. -/
def ofId (id : Int32) : PtJson := ofString (intText id.toInt)

theorem cStr_intText (n : Int) : cStr (intText n) = intText n := by
  rw [cStr_eq_self_iff]
  intro h
  rcases mem_intText h with h | ⟨h, -⟩
  all_goals
    exact absurd h (by decide)

section ofMembers

variable {fields : List (Bytes × Option PtJson)} (h : DistinctKeys fields) {key : String}

include h

variable {n : Option Int32}

theorem getString_id (hmem : (ascii key, n.map ofId) ∈ fields) :
    (ofMembers fields).getString (ascii key)
      = .ofOption (n.map fun id => cStr (intText id.toInt)) :=
  get_ofMembers h isString ofId (fun id => cStr (intText id.toInt)) (fun _ => rfl) hmem

theorem required_id {n : Int32} (hmem : (ascii key, some (ofId n)) ∈ fields) :
    requiredId key ((ofMembers fields).getString (ascii key)) = pure n := by
  rw [getString_id h (n := some n) hmem, Option.map_some, cStr_intText]
  show convert key _ = _
  rw [convert, strToInt32_intText]

theorem optional_id (hmem : (ascii key, n.map ofId) ∈ fields) :
    optionalId key ((ofMembers fields).getString (ascii key)) = pure n := by
  rw [getString_id h hmem]
  cases n with
  | none => rfl
  | some n =>
    rw [Option.map_some, cStr_intText]
    show (do return some (← convert key _)) = _
    rw [convert, strToInt32_intText]
    rfl

end ofMembers

/-! ### Locations -/

structure Location where
  scriptId : Int32 := 0
  lineNumber : Int32 := 0
  columnNumber : Option Int32 := none
  deriving DecidableEq, Inhabited

namespace Location

def fields (location : Location) : List (Bytes × Option PtJson) :=
  [(ascii "scriptId", some (ofId location.scriptId)),
    (ascii "lineNumber", some (ofInt location.lineNumber.toInt)),
    (ascii "columnNumber", location.columnNumber.map fun n => ofInt n.toInt)]

def toJson (location : Location) : PtJson := ofMembers location.fields

def create (params : PtJson) : Created Location :=
  finish "Location" do
    let scriptId ← requiredId "scriptId" (params.getString (ascii "scriptId"))
    let lineNumber ← required "lineNumber" (params.getInt (ascii "lineNumber"))
    let columnNumber ← optional "columnNumber" (params.getInt (ascii "columnNumber"))
    return { scriptId, lineNumber, columnNumber }

variable (location : Location)

theorem distinctKeys : DistinctKeys location.fields := by
  simp only [DistinctKeys, fields, List.map_cons, List.map_nil]
  decide +kernel

/-- **Locations** are read back. -/
theorem create_toJson : create location.toJson = .ok (.ok location) := by
  have h := location.distinctKeys
  rw [create, toJson, required_id h (n := location.scriptId) (by simp [fields]),
    required_int h (n := location.lineNumber) (by simp [fields]),
    optional_int h (n := location.columnNumber) (by simp [fields])]
  rfl

end Location

/-! ### Texts from a list of names -/

variable (key : String) (valid : Bytes → Bool)

/-- A text that must be one of the names. -/
def checked (text : Bytes) : Reading (Option Bytes) :=
  if valid text then return some text
  else do
    complain ("'" ++ key ++ "' is invalid;")
    return none

/-- A name that must be there. -/
def requiredName : Result Bytes → Reading Bytes
  | .success text => do return (← checked key valid text).getD []
  | _ => do
      complain ("Unknown or wrong type of '" ++ key ++ "';")
      return []

/-- A name that may be missing. -/
def optionalName : Result Bytes → Reading (Option Bytes)
  | .success text => checked key valid text
  | .notExist => return none
  | .typeError => do
      complain ("Wrong type of '" ++ key ++ "';")
      return none

theorem accepts_checked (key : String) (valid : Bytes → Bool) (text : Bytes) :
    Accepts (checked key valid text) (valid text = true) (some text) := by
  by_cases h : valid text = true
  · rw [checked, if_pos h]
    exact (Accepts.pure _).congr (iff_of_true trivial h)
  · rw [checked, if_neg h]
    refine ⟨ascii ("'" ++ key ++ "' is invalid;"), none, fun s => rfl, fun h' => absurd h' h, ?_⟩
    intro _
    simp [ascii]

variable {key : String} {valid : Bytes → Bool} {ret : Result Bytes}

theorem accepts_requiredName {text : Bytes} (h : ret = .ofOption (some text)) :
    Accepts (requiredName key valid ret) (valid text = true) text := by
  rw [h]
  have hbind := (accepts_checked key valid text).bind fun t => Accepts.pure (t.getD [])
  exact hbind.congr (by rw [and_true])

theorem accepts_optionalName {text : Option Bytes} (h : ret = .ofOption text) :
    Accepts (optionalName key valid ret) (∀ t ∈ text, valid t = true) text := by
  rw [h]
  cases text with
  | none => exact (Accepts.pure none).congr (by simp)
  | some t => exact (accepts_checked key valid t).congr (by simp)

/-! ### Remote objects -/

structure RemoteObject where
  type : Bytes := []
  subType : Option Bytes := none
  className : Option Bytes := none
  unserializableValue : Option Bytes := none
  description : Option Bytes := none
  objectId : Option Int32 := none
  arrayOrContainer : Option Bytes := none
  deriving DecidableEq, Inhabited

namespace RemoteObject

/-- `TypeName::Valid`. -/
def typeNames : List Bytes :=
  [ascii "object", ascii "function", ascii "undefined", ascii "string", ascii "number",
    ascii "boolean", ascii "symbol", ascii "bigint", ascii "wasm"]

/-- `SubTypeName::Valid`; `date` and `weakset` are missing. -/
def subTypeNames : List Bytes :=
  [ascii "array", ascii "null", ascii "node", ascii "regexp", ascii "map", ascii "set",
    ascii "weakmap", ascii "iterator", ascii "generator", ascii "error", ascii "proxy",
    ascii "promise", ascii "typedarray", ascii "arraybuffer", ascii "dataview", ascii "i32",
    ascii "i64", ascii "f32", ascii "f64", ascii "v128", ascii "externref"]

/-- The members that `ToJson` adds, in their order. -/
def fields (object : RemoteObject) : List (Bytes × Option PtJson) :=
  [(ascii "type", some (ofString object.type)),
    (ascii "subtype", object.subType.map ofString),
    (ascii "className", object.className.map ofString),
    (ascii "unserializableValue", object.unserializableValue.map ofString),
    (ascii "description", object.description.map ofString),
    (ascii "objectId", object.objectId.map ofId),
    (ascii "arrayOrContainer",
      (object.arrayOrContainer.filter fun marker => !marker.isEmpty).map ofString)]

def toJson (object : RemoteObject) : PtJson := ofMembers object.fields

/-- `arrayOrContainer` is not read. -/
def create (params : PtJson) : Created RemoteObject :=
  finish "RemoteObject" do
    let type ← requiredName "type" typeNames.contains (params.getString (ascii "type"))
    let subType ← optionalName "subtype" subTypeNames.contains
      (params.getString (ascii "subtype"))
    let className ← optional "className" (.ok (params.getString (ascii "className")))
    let unserializableValue ← optional "unserializableValue"
      (.ok (params.getString (ascii "unserializableValue")))
    let description ← optional "description" (.ok (params.getString (ascii "description")))
    let objectId ← optionalId "objectId" (params.getString (ascii "objectId"))
    return { type, subType, className, unserializableValue, description, objectId }

/-- `Create` accepts the object. -/
def Valid (object : RemoteObject) : Prop :=
  typeNames.contains (cStr object.type) = true ∧
    ∀ t ∈ object.subType.map cStr, subTypeNames.contains t = true

/-- The object that `Create` makes. -/
def cut (object : RemoteObject) : RemoteObject :=
  { type := cStr object.type
    subType := object.subType.map cStr
    className := object.className.map cStr
    unserializableValue := object.unserializableValue.map cStr
    description := object.description.map cStr
    objectId := object.objectId }

variable (object : RemoteObject)

theorem distinctKeys : DistinctKeys object.fields := by
  simp only [DistinctKeys, fields, List.map_cons, List.map_nil]
  decide +kernel

/-- **Remote objects** are turned down for their type or subtype only. -/
theorem create_toJson : CreatesIff (create object.toJson) object.Valid object.cut := by
  have h := object.distinctKeys
  have htype : Accepts (requiredName "type" typeNames.contains _) _ _ :=
    accepts_requiredName (getString_ofMembers h (k := ascii "type") (v := some object.type)
      (by simp [fields]))
  have hsubType : Accepts (optionalName "subtype" subTypeNames.contains _) _ _ :=
    accepts_optionalName (getString_ofMembers h (k := ascii "subtype") (v := object.subType)
      (by simp [fields]))
  rw [create, toJson, optional_string h (t := object.className) (by simp [fields]),
    optional_string h (t := object.unserializableValue) (by simp [fields]),
    optional_string h (t := object.description) (by simp [fields]),
    optional_id h (n := object.objectId) (by simp [fields])]
  simp only [pure_bind]
  apply CreatesIff.of_finish
  have hbind := htype.bind fun type => hsubType.bind fun subType => Accepts.pure ({
    type
    subType
    className := object.className.map cStr
    unserializableValue := object.unserializableValue.map cStr
    description := object.description.map cStr
    objectId := object.objectId } : RemoteObject)
  exact hbind.congr (by rw [and_true]; rfl)

end RemoteObject

/-! ### Scopes -/

structure Scope where
  type : Bytes := []
  object : RemoteObject := {}
  name : Option Bytes := none
  startLocation : Option Location := none
  endLocation : Option Location := none
  deriving DecidableEq, Inhabited

namespace Scope

/-- `Scope::Type::Valid`. -/
def typeNames : List Bytes :=
  [ascii "global", ascii "local", ascii "with", ascii "closure", ascii "catch", ascii "block",
    ascii "script", ascii "eval", ascii "module", ascii "wasm-expression-stack"]

def fields (scope : Scope) : List (Bytes × Option PtJson) :=
  [(ascii "type", some (ofString scope.type)),
    (ascii "object", some scope.object.toJson),
    (ascii "name", scope.name.map ofString),
    (ascii "startLocation", scope.startLocation.map Location.toJson),
    (ascii "endLocation", scope.endLocation.map Location.toJson)]

def toJson (scope : Scope) : PtJson := ofMembers scope.fields

/-- The text that is logged names `Location`. -/
def create (params : PtJson) : Created Scope :=
  finish "Location" do
    let type ← requiredName "type" typeNames.contains (params.getString (ascii "type"))
    let object ← requiredPart "object" "'object' format error;" RemoteObject.create
      (params.getObject (ascii "object"))
    let name ← optional "name" (.ok (params.getString (ascii "name")))
    let startLocation ← optionalPart "startLocation" "'startLocation' format error;"
      Location.create (params.getObject (ascii "startLocation"))
    let endLocation ← optionalPart "endLocation" "'endLocation' format error;"
      Location.create (params.getObject (ascii "endLocation"))
    return { type, object, name, startLocation, endLocation }

def Valid (scope : Scope) : Prop :=
  typeNames.contains (cStr scope.type) = true ∧ scope.object.Valid

def cut (scope : Scope) : Scope :=
  { scope with
    type := cStr scope.type
    object := scope.object.cut
    name := scope.name.map cStr }

theorem distinctKeys (scope : Scope) : DistinctKeys scope.fields := by
  simp only [DistinctKeys, fields, List.map_cons, List.map_nil]
  decide +kernel

end Scope

variable {invalid : String}

theorem optional_location {fields : List (Bytes × Option PtJson)} (h : DistinctKeys fields)
    {l : Option Location} (hmem : (ascii key, l.map Location.toJson) ∈ fields) :
    optionalPart key invalid Location.create ((ofMembers fields).getObject (ascii key))
      = pure l :=
  optionalPart_eq (getObject_ofMembers h Location.fields Location.distinctKeys hmem)
    fun location _ => location.create_toJson

/-- A remote object is judged as `create_toJson` says. -/
theorem accepts_object {fields : List (Bytes × Option PtJson)} (h : DistinctKeys fields)
    (hinvalid : ascii invalid ≠ []) {o : RemoteObject}
    (hmem : (ascii key, some o.toJson) ∈ fields) :
    Accepts (requiredPart key invalid RemoteObject.create
      ((ofMembers fields).getObject (ascii key))) o.Valid o.cut :=
  Accepts.of_requiredPart hinvalid (getObject_ofMembers h RemoteObject.fields
    RemoteObject.distinctKeys (v := some o) hmem) o.create_toJson

namespace Scope

/-- **Scopes** are turned down with their objects. -/
theorem create_toJson (scope : Scope) : CreatesIff (create scope.toJson) scope.Valid scope.cut := by
  have h := scope.distinctKeys
  have htype : Accepts (requiredName "type" typeNames.contains _) _ _ :=
    accepts_requiredName (getString_ofMembers h (k := ascii "type") (v := some scope.type)
      (by simp [fields]))
  have hobject : Accepts (requiredPart "object" "'object' format error;" _ _) _ _ :=
    accepts_object h (by decide +kernel) (o := scope.object) (by simp [fields])
  rw [create, toJson, optional_string h (t := scope.name) (by simp [fields]),
    optional_location h (l := scope.startLocation) (by simp [fields]),
    optional_location h (l := scope.endLocation) (by simp [fields])]
  simp only [pure_bind]
  apply CreatesIff.of_finish
  have hbind := htype.bind fun type => hobject.bind fun object => Accepts.pure ({
    type
    object
    name := scope.name.map cStr
    startLocation := scope.startLocation
    endLocation := scope.endLocation } : Scope)
  exact hbind.congr (by rw [and_true]; rfl)

end Scope

/-! ### Call frames -/

structure CallFrame where
  callFrameId : Int32 := 0
  functionName : Bytes := []
  functionLocation : Option Location := none
  location : Location := {}
  url : Bytes := []
  scopeChain : List Scope := []
  /-- `none` is a null pointer -/
  this : Option RemoteObject := none
  returnValue : Option RemoteObject := none
  isStaticFrame : Bool := false
  deriving DecidableEq, Inhabited

namespace CallFrame

variable (frame : CallFrame)

/-- `this` as it is written: without an object it is undefined. -/
def writtenThis : RemoteObject :=
  frame.this.getD { type := ascii "undefined" }

def thisJson : PtJson :=
  match frame.this with
  | some this => this.toJson
  | none => ofMembers [(ascii "type", some (ofString (ascii "undefined")))]

def fields : List (Bytes × Option PtJson) :=
  [(ascii "callFrameId", some (ofId frame.callFrameId)),
    (ascii "functionName", some (ofString frame.functionName)),
    (ascii "functionLocation", frame.functionLocation.map Location.toJson),
    (ascii "location", some frame.location.toJson),
    (ascii "url", some (ofString frame.url)),
    (ascii "scopeChain", some (array (frame.scopeChain.map Scope.toJson))),
    (ascii "this", some frame.thisJson),
    (ascii "returnValue", frame.returnValue.map RemoteObject.toJson),
    (ascii "isStaticFrame", if frame.isStaticFrame then some (bool true) else none)]

def toJson : PtJson := ofMembers frame.fields

/-- `isStaticFrame` is not read. -/
def create (params : PtJson) : Created CallFrame :=
  finish "CallFrame" do
    let callFrameId ← requiredId "callFrameId" (params.getString (ascii "callFrameId"))
    let functionName ← required "functionName" (.ok (params.getString (ascii "functionName")))
    let functionLocation ← optionalPart "functionLocation" "'functionLocation' format error;"
      Location.create (params.getObject (ascii "functionLocation"))
    let location ← requiredPart "location" "'location' format error;" Location.create
      (params.getObject (ascii "location"))
    let url ← required "url" (.ok (params.getString (ascii "url")))
    let scopeChain ← requiredParts "scopeChain" "'scopeChain' format error;" Scope.create
      (params.getArray (ascii "scopeChain"))
    let this ← requiredPart "this" "'this' format error;" RemoteObject.create
      (params.getObject (ascii "this"))
    let returnValue ← optionalPart "returnValue" "'returnValue' format error;"
      RemoteObject.create (params.getObject (ascii "returnValue"))
    return { callFrameId, functionName, functionLocation, location, url, scopeChain,
             this := some this, returnValue }

def Valid : Prop :=
  (∀ scope ∈ frame.scopeChain, scope.Valid) ∧ frame.writtenThis.Valid ∧
    ∀ value ∈ frame.returnValue, value.Valid

/-- The frame that `Create` makes. -/
def cut : CallFrame :=
  { callFrameId := frame.callFrameId
    functionName := cStr frame.functionName
    functionLocation := frame.functionLocation
    location := frame.location
    url := cStr frame.url
    scopeChain := frame.scopeChain.map Scope.cut
    this := some frame.writtenThis.cut
    returnValue := frame.returnValue.map RemoteObject.cut }

variable (frame : CallFrame)

theorem distinctKeys : DistinctKeys frame.fields := by
  simp only [DistinctKeys, fields, List.map_cons, List.map_nil]
  decide +kernel

/-- The undefined `this` is an object with nothing but a type. -/
theorem thisJson_eq : frame.thisJson = frame.writtenThis.toJson := by
  rw [thisJson, writtenThis]
  cases frame.this with
  | some this | none => rfl

/-- **Call frames** are turned down with the objects in them. -/
theorem create_toJson : CreatesIff (create frame.toJson) frame.Valid frame.cut := by
  have h := frame.distinctKeys
  have hlocation := getObject_ofMembers h (k := ascii "location") Location.fields
    Location.distinctKeys (v := some frame.location) (by simp [fields, Location.toJson])
  have hscopes : Accepts (requiredParts "scopeChain" "'scopeChain' format error;" Scope.create _)
      _ _ :=
    Accepts.of_requiredParts (by decide +kernel)
      (getArray_ofMembers h (k := ascii "scopeChain")
        (v := some (frame.scopeChain.map Scope.toJson)) (by simp [fields]))
      fun scope _ => scope.create_toJson
  have hthis : Accepts (requiredPart "this" "'this' format error;" _ _) _ _ :=
    accepts_object h (by decide +kernel) (o := frame.writtenThis) (by simp [fields, thisJson_eq])
  have hvalue :
      (ascii "returnValue", frame.returnValue.map RemoteObject.toJson) ∈ frame.fields := by
    simp [fields]
  have hreturn : Accepts (optionalPart "returnValue" "'returnValue' format error;"
      RemoteObject.create _) _ _ :=
    Accepts.of_optionalPart (by decide +kernel)
      (getObject_ofMembers h RemoteObject.fields RemoteObject.distinctKeys hvalue)
      fun value _ => value.create_toJson
  rw [create, toJson, required_id h (n := frame.callFrameId) (by simp [fields]),
    required_string h (t := frame.functionName) (by simp [fields]),
    optional_location h (l := frame.functionLocation) (by simp [fields]),
    requiredPart_eq hlocation frame.location.create_toJson,
    required_string h (t := frame.url) (by simp [fields])]
  simp only [pure_bind]
  apply CreatesIff.of_finish
  have hbind := hscopes.bind fun scopeChain => hthis.bind fun this =>
    hreturn.bind fun returnValue => Accepts.pure ({
      callFrameId := frame.callFrameId
      functionName := cStr frame.functionName
      functionLocation := frame.functionLocation
      location := frame.location
      url := cStr frame.url
      scopeChain
      this := some this
      returnValue } : CallFrame)
  exact hbind.congr (by rw [and_true]; rfl)

end CallFrame

/-! ### Trace configurations -/

theorem map_cStr_eq_self_iff {text : Option Bytes} : text.map cStr = text ↔ ∀ t ∈ text, 0 ∉ t := by
  cases text with
  | none => simp
  | some t => simp [cStr_eq_self_iff]

/-- `MemoryDumpConfig` is a `PtJson`. -/
structure TraceConfig where
  recordMode : Option Bytes := none
  enableSampling : Option Bool := none
  enableSystrace : Option Bool := none
  enableArgumentFilter : Option Bool := none
  includedCategories : Option (List Bytes) := none
  excludedCategories : Option (List Bytes) := none
  syntheticDelays : Option (List Bytes) := none
  memoryDumpConfig : Option PtJson := none

namespace TraceConfig

/-- `RecordModeValues::Valid`. -/
def recordModes : List Bytes :=
  [ascii "recordUntilFull", ascii "recordContinuously", ascii "recordAsMuchAsPossible",
    ascii "echoToConsole"]

def ofTexts (texts : List Bytes) : PtJson := array (texts.map ofString)

/-- `GetArray`, and `GetString` of the elements. -/
def getTexts : PtJson → Bytes → Result (List Bytes) :=
  get fun json => (isArray json).map (List.map fun element => (isString element).getD [])

/-- The member of `memoryDumpConfig` is `functionLocation`. -/
def fields (config : TraceConfig) : List (Bytes × Option PtJson) :=
  [(ascii "recordMode", config.recordMode.map ofString),
    (ascii "enableSampling", config.enableSampling.map bool),
    (ascii "enableSystrace", config.enableSystrace.map bool),
    (ascii "enableArgumentFilter", config.enableArgumentFilter.map bool),
    (ascii "includedCategories", config.includedCategories.map ofTexts),
    (ascii "excludedCategories", config.excludedCategories.map ofTexts),
    (ascii "syntheticDelays", config.syntheticDelays.map ofTexts),
    (ascii "functionLocation", config.memoryDumpConfig)]

def toJson (config : TraceConfig) : PtJson := ofMembers config.fields

def create (params : PtJson) : Created TraceConfig :=
  finish "TraceConfig" do
    let recordMode ← optionalName "recordMode" recordModes.contains
      (params.getString (ascii "recordMode"))
    let enableSampling ← optional "enableSampling" (.ok (params.getBool (ascii "enableSampling")))
    let enableSystrace ← optional "enableSystrace" (.ok (params.getBool (ascii "enableSystrace")))
    let enableArgumentFilter ← optional "enableArgumentFilter"
      (.ok (params.getBool (ascii "enableArgumentFilter")))
    let includedCategories ← optional "includedCategories"
      (.ok (getTexts params (ascii "includedCategories")))
    let excludedCategories ← optional "excludedCategories"
      (.ok (getTexts params (ascii "excludedCategories")))
    let syntheticDelays ← optional "syntheticDelays"
      (.ok (getTexts params (ascii "syntheticDelays")))
    let memoryDumpConfig ← optional "memoryDumpConfig"
      (.ok (params.getObject (ascii "memoryDumpConfig")))
    return { recordMode, enableSampling, enableSystrace, enableArgumentFilter,
             includedCategories, excludedCategories, syntheticDelays, memoryDumpConfig }

/-- The configuration that `Create` makes. -/
def cut (config : TraceConfig) : TraceConfig :=
  { config with
    recordMode := config.recordMode.map cStr
    includedCategories := config.includedCategories.map (List.map cStr)
    excludedCategories := config.excludedCategories.map (List.map cStr)
    syntheticDelays := config.syntheticDelays.map (List.map cStr)
    memoryDumpConfig := none }

variable (config : TraceConfig)

theorem distinctKeys : DistinctKeys config.fields := by
  simp only [DistinctKeys, fields, List.map_cons, List.map_nil]
  decide +kernel

section ofMembers

variable {fields : List (Bytes × Option PtJson)} (h : DistinctKeys fields) {key : String}

include h

theorem optional_bool {b : Option Bool} (hmem : (ascii key, b.map bool) ∈ fields) :
    optional key (.ok ((ofMembers fields).getBool (ascii key))) = pure b := by
  have hget := get_ofMembers h isBool bool id (fun _ => rfl) hmem
  rw [Option.map_id_apply] at hget
  exact optional_eq (congrArg Except.ok hget)

theorem optional_texts {l : Option (List Bytes)} (hmem : (ascii key, l.map ofTexts) ∈ fields) :
    optional key (.ok (getTexts (ofMembers fields) (ascii key)))
      = pure (l.map (List.map cStr)) := by
  refine optional_eq (congrArg Except.ok (get_ofMembers h _ ofTexts _ (fun texts => ?_) hmem))
  simp [ofTexts, isArray, isString, ofString]

end ofMembers

/-- **Trace configurations** are turned down for their mode only. -/
theorem create_toJson : CreatesIff (create config.toJson)
    (∀ mode ∈ config.recordMode.map cStr, recordModes.contains mode = true) config.cut := by
  have h := config.distinctKeys
  have hmode : Accepts (optionalName "recordMode" recordModes.contains _) _ _ :=
    accepts_optionalName (getString_ofMembers h (k := ascii "recordMode")
      (v := config.recordMode) (by simp [fields]))
  have hmemory : (ofMembers config.fields).getObject (ascii "memoryDumpConfig") = .notExist :=
    get_ofMembers_eq_notExist h isObject (by
      simp only [fields, List.map_cons, List.map_nil]
      decide +kernel)
  rw [create, toJson, optional_bool h (b := config.enableSampling) (by simp [fields]),
    optional_bool h (b := config.enableSystrace) (by simp [fields]),
    optional_bool h (b := config.enableArgumentFilter) (by simp [fields]),
    optional_texts h (l := config.includedCategories) (by simp [fields]),
    optional_texts h (l := config.excludedCategories) (by simp [fields]),
    optional_texts h (l := config.syntheticDelays) (by simp [fields]), hmemory]
  simp only [pure_bind]
  apply CreatesIff.of_finish
  have hbind := hmode.bind fun recordMode => Accepts.pure { config.cut with recordMode }
  exact hbind.congr (by rw [and_true])

theorem map_map_cStr_eq_self_iff {texts : Option (List Bytes)} :
    texts.map (List.map cStr) = texts ↔ ∀ l ∈ texts, ∀ t ∈ l, 0 ∉ t := by
  cases texts with
  | none => simp
  | some l => simpa [cStr_eq_self_iff] using List.map_inj_left (l := l) (f := cStr) (g := id)

/-- **A trace configuration comes back** exactly if its mode is one of the four, no text of a
list has a NUL, and there is no configuration of memory dumps. -/
theorem trace_config_round_trip_iff : create config.toJson = .ok (.ok config) ↔
    (∀ mode ∈ config.recordMode, mode ∈ recordModes) ∧
      (∀ texts ∈ [config.includedCategories, config.excludedCategories, config.syntheticDelays],
        ∀ l ∈ texts, ∀ t ∈ l, 0 ∉ t) ∧
      config.memoryDumpConfig = none := by
  have hnames : ∀ t ∈ recordModes, 0 ∉ t := by
    unfold recordModes
    decide +kernel
  have hcut : config.cut = config ↔
      (∀ t ∈ config.recordMode, 0 ∉ t) ∧ (∀ l ∈ config.includedCategories, ∀ t ∈ l, 0 ∉ t) ∧
        (∀ l ∈ config.excludedCategories, ∀ t ∈ l, 0 ∉ t) ∧
        (∀ l ∈ config.syntheticDelays, ∀ t ∈ l, 0 ∉ t) ∧ config.memoryDumpConfig = none := by
    simp only [← map_cStr_eq_self_iff, ← map_map_cStr_eq_self_iff]
    cases config
    simp [cut, eq_comm]
  rw [config.create_toJson.eq_iff, hcut]
  constructor
  · rintro ⟨hmode, hnul, hincluded, hexcluded, hdelays, hmemory⟩
    rw [map_cStr_eq_self_iff.mpr hnul] at hmode
    refine ⟨fun mode h => List.contains_iff_mem.mp (hmode mode h), ?_, hmemory⟩
    simp only [List.forall_mem_cons]
    exact ⟨hincluded, hexcluded, hdelays, nofun⟩
  · rintro ⟨hmode, htexts, hmemory⟩
    have hnul : ∀ t ∈ config.recordMode, 0 ∉ t := fun t h => hnames t (hmode t h)
    simp only [List.forall_mem_cons] at htexts
    rw [map_cStr_eq_self_iff.mpr hnul]
    exact ⟨fun mode h => List.contains_iff_mem.mpr (hmode mode h), hnul, htexts.1, htexts.2.1,
      htexts.2.2.1, hmemory⟩

/-- What is written as `functionLocation` is not read. -/
theorem trace_config_not_read_back :
    create ({ memoryDumpConfig := some createObject } : TraceConfig).toJson = .ok (.ok {}) :=
  (create_toJson _).1 nofun

end TraceConfig

end Pt

end ArkToolchain
