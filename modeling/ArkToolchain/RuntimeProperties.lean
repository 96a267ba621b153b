/-
Remote objects in the replies of the dynamic debugger (`GetProperties` of runtime_impl.cpp and
what it calls; the scope chains and the evaluations of debugger_impl.cpp).

Every builder of a remote object sets the id and stores the handle.  Each of them reports only
objects whose ids lead to their values, so every run of requests does.

Main result: `objectIds_resolve`, over all sequences of pauses and requests.
-/
import ArkToolchain.CallFrameHandlers
import ArkToolchain.ObjectTable

namespace ArkToolchain

universe u

/-! ### Values of the VM -/

/-- The first of the tests in `GetProperties` that succeeds. -/
inductive ValueKind
  | typedArray | sharedTypedArray | arrayBuffer | sharedArrayBuffer | proxy
  | mapIterator | setIterator | primitiveNumber | primitiveString | primitiveBoolean
  | generatorFunction | generatorObject | numberFormat | collator | dateTimeFormat
  | sharedMap | map | weakMap | regExp | sharedSet | set | weakSet | dataView
  | hashMap | hashSet | lightWeightMap | lightWeightSet | linkedList | list
  | plainArray | treeMap | treeSet | arrayList | deque | queue | stack | vector
  | promise | other
  deriving DecidableEq

/-- `PropertyAttribute`, as the runtime gives it. -/
structure PropertyAttribute (V : Type u) where
  value : Option V := none
  getter : Option V := none
  setter : Option V := none

/-- What the VM answers while a request is handled. -/
structure Vm (V : Type u) where
  isObject : V → Bool
  /-- `RemoteObject::FromTagged` sets the field `value`. -/
  hasValue : V → Bool
  isConstructor : V → Bool
  isSymbol : V → Bool
  /-- The text of a property's name. -/
  toName : V → String
  kind : V → ValueKind
  /-- The elements of a typed array. -/
  elements : V → List V
  /-- The length of a buffer. -/
  byteLength : V → Nat
  /-- The value made for an entry of the reply that is not an own property. -/
  internalValue : V → String → V
  ownPropertyNames : V → List V
  getOwnProperty : V → V → Option (PropertyAttribute V)
  functionPrototype : V → V
  prototype : V → V
  /-- `internalObjects_` marks the value as an entry or a scope. -/
  isInternal : V → Bool

/-- `GetPropertiesParams`. -/
structure GetPropertiesParams where
  objectId : Int
  ownProperties : Bool := false
  accessorPropertiesOnly : Bool := false
  startIndex : Option Int := none
  groupCount : Option Int := none
  deriving DecidableEq

namespace GetPropertiesParams

/-- `AdjustStartAndLength` for a list of the given length. -/
def adjustStartAndLength (params : GetPropertiesParams) (length : Nat) : Int × Int :=
  match params.startIndex, params.groupCount with
  | some startIndex, some groupCount =>
    -- `IsValidRequestUsingRange`, and the start is in the list
    if 0 ≤ startIndex && 0 < groupCount && startIndex < length then
      let stop := int32 (startIndex + groupCount)
      (startIndex, if stop ≤ length then stop else length)
    else (0, length)
  | _, _ => (0, length)

/-- The part of a container that was asked for. -/
def slice {α : Type u} (params : GetPropertiesParams) (xs : List α) : List α :=
  let (start, stop) := params.adjustStartAndLength xs.length
  (xs.take stop.toNat).drop start.toNat

end GetPropertiesParams

/-- `PropertyDescriptor`, with the objects that it carries. -/
structure PropertyDescriptor (V : Type u) where
  name : String
  value : Option (RemoteObject V) := none
  get : Option (RemoteObject V) := none
  set : Option (RemoteObject V) := none
  symbol : Option (RemoteObject V) := none

open PropertyDescriptor

variable {V : Type u}

/-- The objects in a descriptor. -/
def PropertyDescriptor.objects (p : PropertyDescriptor V) : List (RemoteObject V) :=
  p.get.toList ++ p.set.toList ++ p.value.toList ++ p.symbol.toList

/-! ### Entries that are not own properties -/

/-- `AddTypedArrayRefs`. -/
def typedArrayRefs (byteLength : Nat) : List String :=
  ["[[Int8Array]]", "[[Uint8Array]]", "[[Uint8ClampedArray]]"] ++
  (if byteLength % 2 = 0 then ["[[Int16Array]]", "[[Uint16Array]]"] else []) ++
  (if byteLength % 4 = 0 then ["[[Int32Array]]", "[[Uint32Array]]", "[[Float32Array]]"]
    else []) ++
  (if byteLength % 8 = 0 then ["[[Float64Array]]", "[[BigInt64Array]]", "[[BigUint64Array]]"]
    else [])

/-- `AddSharedArrayBufferRefs`, without the lengths. -/
def sharedArrayBufferRefs (byteLength : Nat) : List String :=
  ["[[Int8Array]]", "[[Uint8Array]]"] ++
  (if byteLength % 2 = 0 then ["[[Int16Array]]"] else []) ++
  (if byteLength % 4 = 0 then ["[[Int32Array]]"] else [])

namespace ValueKind

/-- The names of the entries, each with the name of the value that is reported.  A
regular expression's `hasIndices` is reported with the value of `dotAll`. -/
def entries (byteLength : Nat) : ValueKind → List (String × String)
  | .arrayBuffer => same (typedArrayRefs byteLength)
  | .sharedArrayBuffer =>
    same (sharedArrayBufferRefs byteLength) ++
      [("[[ArrayBufferByteLength]]", "byteLength"), ("byteLength", "byteLength")]
  | .proxy => same ["[[Target]]", "[[Handler]]", "[[IsRevoked]]"]
  | .mapIterator | .setIterator => same ["[[IteratorIndex]]", "[[IteratorKind]]"]
  | .primitiveNumber | .primitiveString | .primitiveBoolean => same ["[[PrimitiveValue]]"]
  | .generatorFunction => same ["[[IsGenerator]]"]
  | .generatorObject =>
    same ["[[GeneratorState]]", "[[GeneratorFunction]]", "[[GeneratorReceiver]]"]
  | .numberFormat => same ["format"]
  | .collator => same ["compare"]
  | .dateTimeFormat => same ["format"]
  | .sharedMap => same ["size", "[[SendableMap]]"]
  | .map => same ["size", "[[Map]]"]
  | .weakMap => same ["size", "[[WeakMap]]"]
  | .regExp =>
    same ["global", "ignoreCase", "multiline", "dotAll"] ++ [("hasIndices", "dotAll")] ++
      same ["unicode", "sticky", "flags", "source"]
  | .sharedSet => same ["size", "[[SendableSet]]"]
  | .set => same ["size", "[[Set]]"]
  | .weakSet => same ["size", "[[WeakSet]]"]
  | .dataView => same ["buffer", "byteLength", "byteOffset"]
  | .hashMap => same ["size", "[[HashMap]]"]
  | .hashSet => same ["size", "[[HashSet]]"]
  | .lightWeightMap => same ["size", "[[LightWeightMap]]"]
  | .lightWeightSet => same ["size", "[[LightWeightSet]]"]
  | .linkedList => same ["size", "[[LinkedList]]"]
  | .list => same ["size", "[[List]]"]
  | .plainArray => same ["size", "[[PlainArray]]"]
  | .treeMap => same ["size", "[[TreeMap]]"]
  | .treeSet => same ["size", "[[TreeSet]]"]
  | .arrayList => same ["size", "[[ArrayList]]"]
  | .deque => same ["size", "[[Deque]]"]
  | .queue => same ["size", "[[Queue]]"]
  | .stack => same ["size", "[[Stack]]"]
  | .vector => same ["size", "[[Vector]]"]
  | .promise => same ["[[PromiseState]]", "[[PromiseResult]]"]
  | .typedArray | .sharedTypedArray | .other => []
where
  same (names : List String) : List (String × String) :=
    names.map fun name => (name, name)

/-- What is reported after the entries. -/
inductive Rest
  | nothing
  | proto
  | ownProperties
  deriving DecidableEq

/-- What `GetProperties` does for a kind of value after its entries. -/
def rest : ValueKind → Rest
  | .proxy => .nothing
  | .typedArray | .sharedTypedArray | .linkedList | .list | .arrayList | .deque | .queue
  | .stack | .vector | .promise => .proto
  | _ => .ownProperties

end ValueKind

/-! ### Properties -/

namespace ObjectTable

variable (vm : Vm V) (params : GetPropertiesParams) (value : V)

/-- `CacheObjectIfNeeded`: only objects get an id. -/
def cacheObjectIfNeeded (value : V) : StateM (ObjectTable V) (RemoteObject V) :=
  if vm.isObject value then cacheObject value else pure { value }

/-- `SetKeyValue` and `AddTypedArrayRef`: the value gets an id whatever it is. -/
def setKeyValue (name : String) (value : V) : StateM (ObjectTable V) (PropertyDescriptor V) := do
  let remoteObj ← cacheObject value
  return { name, value := some remoteObj }

/-- The elements of a typed array. -/
def getTypedArrayValue : StateM (ObjectTable V) (List (PropertyDescriptor V)) :=
  (params.slice (vm.elements value).zipIdx).mapM fun (element, i) => do
    let remoteObj ← cacheObjectIfNeeded vm element
    return { name := toString i, value := some remoteObj }

/-- The entries that depend on the kind of the value. -/
def getEntries : StateM (ObjectTable V) (List (PropertyDescriptor V)) :=
  match vm.kind value with
  | .typedArray | .sharedTypedArray => getTypedArrayValue vm params value
  | kind => (kind.entries (vm.byteLength value)).mapM fun (name, key) =>
    setKeyValue name (vm.internalValue value key)

/-- One round of the loop over the own properties; `none` is a property that is
passed over. -/
def getOwnProperty (vm : Vm V) (params : GetPropertiesParams) (value name : V) :
    StateM (ObjectTable V) (Option (PropertyDescriptor V)) :=
  match vm.getOwnProperty value name with
  | none => pure none
  | some jsProperty =>
    if params.accessorPropertiesOnly && jsProperty.getter.isNone && jsProperty.setter.isNone then
      pure none
    else do
      let get ← jsProperty.getter.mapM cacheObject
      let set ← jsProperty.setter.mapM cacheObject
      let propValue ← jsProperty.value.mapM (cacheObjectIfNeeded vm)
      let symbol ← (if vm.isSymbol name then some name else none).mapM cacheObject
      return some { name := vm.toName name, value := propValue, get, set, symbol }

/-- The properties of the object itself. -/
def getOwnProperties : StateM (ObjectTable V) (List (PropertyDescriptor V)) := do
  let properties ← (params.slice (vm.ownPropertyNames value)).mapM (getOwnProperty vm params value)
  return properties.flatMap Option.toList

/-- `GetProtoOrProtoType`. -/
def getProtoOrProtoType : StateM (ObjectTable V) (List (PropertyDescriptor V)) :=
  if !params.accessorPropertiesOnly && params.ownProperties then pure []
  else do
    let prototype ← (if vm.isConstructor value then some (vm.functionPrototype value)
      else none).mapM (cacheObjectIfNeeded vm)
    let proto ← cacheObjectIfNeeded vm (vm.prototype value)
    return (prototype.toList.map fun protoObj => { name := "prototype", value := some protoObj }) ++
      [{ name := "__proto__", value := some proto }]

/-- Entries and scopes were made for the client and are shown without a prototype. -/
def getProtoUnlessInternal : StateM (ObjectTable V) (List (PropertyDescriptor V)) :=
  if vm.isInternal value then pure [] else getProtoOrProtoType vm params value

/-- The properties of an object of the table. -/
def getPropertiesOf : StateM (ObjectTable V) (List (PropertyDescriptor V)) := do
  let entries ← getEntries vm params value
  match (vm.kind value).rest with
  | .nothing => return entries
  | .proto =>
    let proto ← getProtoOrProtoType vm params value
    return entries ++ proto
  | .ownProperties =>
    let own ← getOwnProperties vm params value
    let proto ← getProtoUnlessInternal vm params value
    return entries ++ own ++ proto

/-- `GetProperties` of an object by its id. -/
def getProperties : StateM (ObjectTable V) (Except String (List (PropertyDescriptor V))) := fun s =>
  match s.properties.lookup params.objectId with
  | none => (.error "Unknown object id", s)
  | some none => (.error "Not a object", s)
  | some (some handle) =>
    if vm.isObject handle.value then
      (Except.ok <$> getPropertiesOf vm params handle.value) s
    else (.error "Not a object", s)

end ObjectTable

/-! ### Call frames -/

/-- An environment of a closure: its variables, if it has any information about
them, and the object made of them. -/
structure LexicalEnv (V : Type u) where
  scopeInfo : Option (List (String × V))
  scopeObj : V

/-- A dynamic frame with what its scopes are made of; `matchesScript` says whether the
script of the scopes is known. -/
structure ScopeFrame (V : Type u) extends FrameHandler where
  matchesScript : Bool := true
  localObj : V
  thisVal : V
  envs : List (LexicalEnv V) := []
  moduleObj : Option V := none
  globalObj : V

/-- `Scope`, of a call frame. -/
structure Scope (V : Type u) where
  type : Option ScopeType := none
  object : Option (RemoteObject V) := none

/-- `CallFrame`, as far as it has objects. -/
structure CallFrame (V : Type u) where
  callFrameId : Nat
  scopeChain : List (Scope V)
  thisObj : Option (RemoteObject V)

/-- The objects in a call frame. -/
def CallFrame.objects (callFrame : CallFrame V) : List (RemoteObject V) :=
  callFrame.scopeChain.flatMap (fun scope => scope.object.toList) ++ callFrame.thisObj.toList

/-- `IsVariableSkipped`. -/
def isVariableSkipped (varName : String) : Bool :=
  varName = "4newTarget" || varName = "0this" || varName = "0newTarget" || varName = "0funcObj"

namespace ObjectTable

/-- `GetLocalScopeChain`: the scope of the locals, and `this`. -/
def getLocalScopeChain (vm : Vm V) (frame : ScopeFrame V) :
    StateM (ObjectTable V) (Scope V × RemoteObject V) := do
  let localScope ← cacheScope frame.sp .local frame.localObj
  let thisObj ← cacheObjectIfNeeded vm frame.thisVal
  return (if frame.matchesScript then { type := some .local, object := some localScope } else {},
    thisObj)

/-- The variables of one environment: whether one of them is a closure variable,
whether `this` has been found, and `this`. -/
def closureVariables (vm : Vm V) : List (String × V) → Bool → RemoteObject V →
    StateM (ObjectTable V) (Bool × Bool × RemoteObject V)
  | [], thisFound, thisObj => pure (false, thisFound, thisObj)
  | (name, value) :: vars, thisFound, thisObj =>
    if isVariableSkipped name then closureVariables vm vars thisFound thisObj
    else if !thisFound && name = "this" then do
      let thisObj ← cacheObjectIfNeeded vm value
      closureVariables vm vars true thisObj
    else do
      let (_, found) ← closureVariables vm vars thisFound thisObj
      return (true, found)

/-- The loop of `GetClosureScopeChains`; the first environment with `this` counts. -/
def closureScopes (vm : Vm V) (frame : ScopeFrame V) : List (LexicalEnv V) → Bool →
    RemoteObject V → StateM (ObjectTable V) (List (Scope V) × RemoteObject V)
  | [], _, thisObj => pure ([], thisObj)
  | env :: envs, thisFound, thisObj =>
    match env.scopeInfo with
    | none => closureScopes vm frame envs thisFound thisObj
    | some vars => do
        let (closureVarFound, thisFound, thisObj) ←
          closureVariables vm vars thisFound thisObj
        let closure ← (if closureVarFound && frame.matchesScript then some env.scopeObj
          else none).mapM (cacheScope frame.sp .closure)
        let (scopes, thisObj) ← closureScopes vm frame envs thisFound thisObj
        return ((closure.toList.map fun r => { type := some .closure, object := some r }) ++
          scopes, thisObj)

/-- `GetClosureScopeChains`. -/
def getClosureScopeChains (vm : Vm V) (frame : ScopeFrame V) (thisObj : RemoteObject V) :
    StateM (ObjectTable V) (List (Scope V) × RemoteObject V) :=
  closureScopes vm frame frame.envs (vm.hasValue thisObj.value) thisObj

/-- `GetModuleScopeChain` and `GetGlobalScopeChain`. -/
def getOuterScopeChain (frame : ScopeFrame V) (type : ScopeType) (obj : V) :
    StateM (ObjectTable V) (Scope V) := do
  let object ← cacheScope frame.sp type obj
  return { type := some type, object := some object }

/-- The scope chain and `this`, if they are asked for. -/
def generateScopeChains (vm : Vm V) (getScope : Bool) (frame : ScopeFrame V) :
    StateM (ObjectTable V) (List (Scope V) × Option (RemoteObject V)) :=
  if getScope then do
    let (localScope, thisObj) ← getLocalScopeChain vm frame
    let (closures, thisObj) ← getClosureScopeChains vm frame thisObj
    let module ← frame.moduleObj.mapM (getOuterScopeChain frame .module)
    let global ← getOuterScopeChain frame .global frame.globalObj
    return ([localScope] ++ closures ++ module.toList ++ [global], some thisObj)
  else pure ([], none)

/-- `GenerateCallFrame`. -/
def generateCallFrame (vm : Vm V) (getScope : Bool) (frame : ScopeFrame V) (callFrameId : Nat) :
    StateM (ObjectTable V) (CallFrame V) := do
  let (scopeChain, thisObj) ← generateScopeChains vm getScope frame
  return { callFrameId, scopeChain, thisObj }

/-- The walk of `GenerateCallFrames`, and whether it succeeds. -/
def walkFrames (vm : Vm V) (getScope : Bool) : List (ScopeFrame V) → Nat →
    StateM (ObjectTable V) (Bool × List (CallFrame V))
  | [], _ => pure (true, [])
  | frame :: frames, callFrameId =>
    if frame.isNative then walkFrames vm getScope frames callFrameId
    else if !frame.generates then
      if callFrameId = 0 then pure (false, []) else walkFrames vm getScope frames callFrameId
    else do
      let callFrame ← generateCallFrame vm getScope frame callFrameId
      let (success, callFrames) ← walkFrames vm getScope frames (callFrameId + 1)
      return (success, callFrame :: callFrames)

/-- `GenerateCallFrames`, with ids from 0 on. -/
def generateCallFrames (vm : Vm V) (getScope : Bool) (frames : List (ScopeFrame V)) :
    StateM (ObjectTable V) (Bool × List (CallFrame V)) :=
  walkFrames vm getScope frames 0

/-- The union stack; `none` is a static frame with its information, and its remote
objects have no ids. -/
def walkUnionFrames (vm : Vm V) : List (Option (ScopeFrame V)) → Nat →
    StateM (ObjectTable V) (List (CallFrame V))
  | [], _ => pure []
  | none :: frames, callFrameId => do
      let callFrames ← walkUnionFrames vm frames (callFrameId + 1)
      return { callFrameId, scopeChain := [], thisObj := none } :: callFrames
  | some frame :: frames, callFrameId =>
    if frame.isNative || !frame.generates then walkUnionFrames vm frames callFrameId
    else do
      let callFrame ← generateCallFrame vm true frame callFrameId
      let callFrames ← walkUnionFrames vm frames (callFrameId + 1)
      return callFrame :: callFrames

end ObjectTable

open ObjectTable

/-! ### The builders report objects that resolve -/

namespace Reports

variable {given : List (RemoteObject V)}

theorem of_cacheObjectIfNeeded (vm : Vm V) (value : V) :
    Reports given (cacheObjectIfNeeded vm value) fun r => [r] := by
  unfold cacheObjectIfNeeded
  split
  · exact of_cacheObject value
  · -- a remote object without an id resolves
    refine Extends.of_pure fun s _ _ r hr => ?_
    obtain rfl := List.mem_singleton.mp hr
    intro _ id hid
    cases hid

theorem of_setKeyValue (name : String) (value : V) :
    Reports given (setKeyValue name value) objects :=
  bind (of_cacheObject value) fun r => of_pure (by simp [objects])

variable (vm : Vm V) (params : GetPropertiesParams) (value : V)

theorem of_getTypedArrayValue :
    Reports given (getTypedArrayValue vm params value)
      (List.flatMap objects) :=
  mapM fun ⟨element, _⟩ => bind (of_cacheObjectIfNeeded vm element) fun r =>
    of_pure (by simp [objects])

theorem of_getEntries : Reports given (getEntries vm params value) (List.flatMap objects) := by
  unfold getEntries
  split
  · exact of_getTypedArrayValue vm params value
  · exact of_getTypedArrayValue vm params value
  · exact mapM fun ⟨name, _⟩ => of_setKeyValue name _

theorem of_getOwnProperty (name : V) :
    Reports given (getOwnProperty vm params value name)
      fun p => p.toList.flatMap objects := by
  unfold getOwnProperty
  split
  · exact of_pure (List.nil_subset _)
  · split
    · exact of_pure (List.nil_subset _)
    · refine bind (optionMapM of_cacheObject _) fun get => ?_
      refine bind (optionMapM of_cacheObject _) fun set => ?_
      refine bind (optionMapM (of_cacheObjectIfNeeded vm) _) fun propValue => ?_
      refine bind (optionMapM of_cacheObject _) fun symbol => ?_
      apply of_pure
      simp [objects]

theorem of_getOwnProperties :
    Reports given (getOwnProperties vm params value) (List.flatMap objects) := by
  refine bind (mapM (of_getOwnProperty vm params value)) fun properties => ?_
  apply of_pure
  rw [List.flatMap_assoc]
  exact List.subset_append_right _ _

theorem of_getProtoOrProtoType :
    Reports given (getProtoOrProtoType vm params value) (List.flatMap objects) := by
  unfold getProtoOrProtoType
  split
  · exact of_pure (List.nil_subset _)
  · refine bind (optionMapM (of_cacheObjectIfNeeded vm) _) fun prototype => ?_
    refine bind (of_cacheObjectIfNeeded vm _) fun proto => ?_
    apply of_pure
    cases prototype <;> simp [objects]

theorem of_getProtoUnlessInternal :
    Reports given (getProtoUnlessInternal vm params value) (List.flatMap objects) := by
  unfold getProtoUnlessInternal
  split
  · exact of_pure (List.nil_subset _)
  · exact of_getProtoOrProtoType vm params value

theorem of_getPropertiesOf :
    Reports given (getPropertiesOf vm params value) (List.flatMap objects) := by
  refine bind (of_getEntries vm params value) fun entries => ?_
  split
  · exact of_pure (List.subset_append_right _ _)
  · refine bind (of_getProtoOrProtoType vm params value) fun proto => of_pure ?_
    simp
  · refine bind (of_getOwnProperties vm params value) fun own => ?_
    refine bind (of_getProtoUnlessInternal vm params value) fun proto => of_pure ?_
    simp

end Reports

/-- The objects in an answer. -/
def replyObjects : Except String (List (PropertyDescriptor V)) → List (RemoteObject V)
  | .ok properties => properties.flatMap objects
  | .error _ => []

namespace Reports

variable {given : List (RemoteObject V)} (vm : Vm V)

theorem of_getProperties (params : GetPropertiesParams) :
    Reports given (getProperties vm params) replyObjects := by
  intro s hs hgiven
  unfold getProperties
  split
  · exact ⟨le_rfl, hs, nofun⟩
  · exact ⟨le_rfl, hs, nofun⟩
  · split
    · exact Extends.map (of_getPropertiesOf vm params _) (fun _ _ h => h) s hs hgiven
    · exact ⟨le_rfl, hs, nofun⟩

/-! ### Scope chains -/

variable (frame : ScopeFrame V)

theorem of_getLocalScopeChain :
    Reports given (getLocalScopeChain vm frame) fun r => r.1.object.toList ++ [r.2] := by
  refine bind (of_cacheScope _ _ _) fun localScope => ?_
  refine bind (of_cacheObjectIfNeeded vm _) fun thisObj => ?_
  apply of_pure
  split <;> simp

variable {thisObj : RemoteObject V}

/-- `this` is the one found before or has been cached here. -/
theorem of_closureVariables (vars : List (String × V)) (thisFound : Bool)
    (hthis : thisObj ∈ given) :
    Reports given (closureVariables vm vars thisFound thisObj) fun r => [r.2.2] := by
  induction vars generalizing given thisFound thisObj with
  | nil => exact of_pure (by simpa using hthis)
  | cons entry vars ih =>
    obtain ⟨name, value⟩ := entry
    unfold closureVariables
    split
    · exact ih thisFound hthis
    · split
      · exact bind (of_cacheObjectIfNeeded vm value) fun thisObj => ih true (by simp)
      · exact bind (ih thisFound hthis) fun r => of_pure (by simp)

theorem of_closureScopes (envs : List (LexicalEnv V)) (thisFound : Bool) (hthis : thisObj ∈ given) :
    Reports given (closureScopes vm frame envs thisFound thisObj)
      fun r => r.1.flatMap (fun scope => scope.object.toList) ++ [r.2] := by
  induction envs generalizing given thisFound thisObj with
  | nil => exact of_pure (by simpa using hthis)
  | cons env envs ih =>
    unfold closureScopes
    split
    · exact ih thisFound hthis
    · refine bind (of_closureVariables vm _ thisFound hthis) fun r => ?_
      refine bind (optionMapM (of_cacheScope _ _) _) fun closure => ?_
      refine bind (ih r.2.1 (by simp)) fun r' => ?_
      apply of_pure
      cases closure <;> simp

theorem of_getOuterScopeChain (type : ScopeType) (obj : V) :
    Reports given (getOuterScopeChain frame type obj) fun scope => scope.object.toList :=
  bind (of_cacheScope _ _ _) fun object => of_pure (by simp)

variable (getScope : Bool)

theorem of_generateScopeChains (frame : ScopeFrame V) :
    Reports given (generateScopeChains vm getScope frame)
      fun r => r.1.flatMap (fun scope => scope.object.toList) ++ r.2.toList := by
  unfold generateScopeChains
  split
  · refine bind (of_getLocalScopeChain vm frame) fun r => ?_
    refine bind (of_closureScopes vm frame _ _ (by simp)) fun r' => ?_
    refine bind (optionMapM (of_getOuterScopeChain frame .module) _) fun module => ?_
    refine bind (of_getOuterScopeChain frame .global _) fun global => ?_
    apply of_pure
    intro x hx
    simp only [List.flatMap_append, List.flatMap_singleton, List.mem_append] at hx ⊢
    tauto
  · exact of_pure (List.nil_subset _)

/-! ### Call frames -/

theorem of_generateCallFrame (frame : ScopeFrame V) (callFrameId : Nat) :
    Reports given (generateCallFrame vm getScope frame callFrameId) CallFrame.objects :=
  bind (of_generateScopeChains vm getScope frame) fun _ => of_pure (List.subset_append_right _ _)

theorem of_walkFrames (frames : List (ScopeFrame V)) (callFrameId : Nat) :
    Reports given (walkFrames vm getScope frames callFrameId)
      fun r => r.2.flatMap CallFrame.objects := by
  induction frames generalizing given callFrameId with
  | nil => exact of_pure (List.nil_subset _)
  | cons frame frames ih =>
    unfold walkFrames
    split_ifs
    · exact ih callFrameId
    · exact of_pure (List.nil_subset _)
    · exact ih callFrameId
    · refine bind (of_generateCallFrame vm getScope frame callFrameId) fun callFrame => ?_
      refine bind (ih (callFrameId + 1)) fun r => of_pure ?_
      simp

theorem of_walkUnionFrames (frames : List (Option (ScopeFrame V))) (callFrameId : Nat) :
    Reports given (walkUnionFrames vm frames callFrameId) (List.flatMap CallFrame.objects) := by
  induction frames generalizing given callFrameId with
  | nil => exact of_pure (List.nil_subset _)
  | cons frame frames ih =>
    cases frame with
    | none =>
      refine bind (ih (callFrameId + 1)) fun callFrames => of_pure ?_
      simp [CallFrame.objects]
    | some frame =>
      unfold walkUnionFrames
      split
      · exact ih callFrameId
      · refine bind (of_generateCallFrame vm true frame callFrameId) fun callFrame => ?_
        refine bind (ih (callFrameId + 1)) fun callFrames => of_pure ?_
        simp

end Reports

/-! ### Requests -/

/-- A pause, a request that reports call frames or properties, an evaluation that has
given a value, or the assignment to a variable of a scope. -/
inductive ObjectRequest (V : Type u)
  | paused (vm : Vm V) (frames : List (ScopeFrame V))
  | pausedHybrid (vm : Vm V) (unionStack : List (Option (ScopeFrame V)))
  | reportFrames (vm : Vm V) (getScope : Bool) (frames : List (ScopeFrame V))
  | getProperties (vm : Vm V) (params : GetPropertiesParams)
  | evaluated (vm : Vm V) (value : V)
  | updateScopeObject (sp : Nat) (scope : ScopeType) (has : V → Bool)

namespace ObjectRequest

/-- `CleanUpOnPaused` comes before the event. -/
def cleansUp : ObjectRequest V → Bool
  | .paused .. | .pausedHybrid .. => true
  | _ => false

/-- The call frames are sent if they could be generated. -/
def framesReply (vm : Vm V) (getScope : Bool) (frames : List (ScopeFrame V)) :
    StateM (ObjectTable V) (List (RemoteObject V)) := do
  let (success, callFrames) ← ObjectTable.generateCallFrames vm getScope frames
  return if success then callFrames.flatMap CallFrame.objects else []

/-- The remote objects in the reply or the event. -/
def reply : ObjectRequest V → StateM (ObjectTable V) (List (RemoteObject V))
  | .paused vm frames => framesReply vm true frames
  | .pausedHybrid vm unionStack => do
      let callFrames ← walkUnionFrames vm unionStack 0
      return callFrames.flatMap CallFrame.objects
  | .reportFrames vm getScope frames => framesReply vm getScope frames
  | .getProperties vm params => do
      let properties ← ObjectTable.getProperties vm params
      return replyObjects properties
  | .evaluated vm value => do
      let result ← cacheObjectIfNeeded vm value
      return [result]
  | .updateScopeObject sp scope has => fun s => ([], s.updateScopeObject sp scope has)

end ObjectRequest

/-- The table, and the remote objects reported since the last clean-up. -/
structure ObjectSession (V : Type u) where
  table : ObjectTable V := {}
  reported : List (RemoteObject V) := []

namespace ObjectSession

/-- A new pause forgets what was reported before. -/
def cleanUp (s : ObjectSession V) : ObjectSession V :=
  { table := s.table.cleanUpOnPaused }

/-- A request adds the objects of its answer. -/
def respond (request : ObjectRequest V) (s : ObjectSession V) : ObjectSession V :=
  let (objects, table) := request.reply s.table
  { table, reported := s.reported ++ objects }

/-- A request that begins a pause cleans up first. -/
def step (s : ObjectSession V) (request : ObjectRequest V) : ObjectSession V :=
  if request.cleansUp then s.cleanUp.respond request else s.respond request

/-- The table is well formed, and what has been reported resolves. -/
structure Sound (s : ObjectSession V) : Prop where
  wellFormed : s.table.WellFormed
  resolves : s.table.AllResolve s.reported

end ObjectSession

variable {given : List (RemoteObject V)}

theorem Reports.of_framesReply (vm : Vm V) (getScope : Bool) (frames : List (ScopeFrame V)) :
    Reports given (ObjectRequest.framesReply vm getScope frames) id := by
  refine bind (of_walkFrames vm getScope frames 0) fun r => of_pure ?_
  split <;> simp

theorem ObjectTable.stored_lookAt (id : Int) (s : ObjectTable V) :
    (s.lookAt id).2.stored = s.stored := by
  unfold lookAt
  split <;> rfl

theorem ObjectTable.stored_searchScope (has : V → Bool) (ids : List Int) (s : ObjectTable V) :
    (searchScope has ids s).stored = s.stored := by
  induction ids generalizing s with
  | nil => rfl
  | cons id ids ih =>
    unfold searchScope
    simp only
    split
    · exact stored_lookAt id s
    · rw [ih, stored_lookAt]

theorem Reports.of_updateScopeObject (sp : Nat) (scope : ScopeType) (has : V → Bool) :
    Reports given (ObjectRequest.updateScopeObject sp scope has).reply id := by
  intro s hs _
  have hstored : (s.updateScopeObject sp scope has).stored = s.stored := stored_searchScope _ _ _
  refine ⟨?_, fun hfits => ?_, nofun⟩
  · show s.stored <+: (s.updateScopeObject sp scope has).stored
    rw [hstored]
  · have hfits' : s.Fits := by
      show s.stored.length < 2 ^ 31
      rw [← hstored]
      exact hfits
    show (s.updateScopeObject sp scope has).Listed
    rw [updateScopeObject_eq (hs hfits')]
    exact hs hfits'

theorem Reports.of_reply (request : ObjectRequest V) : Reports given request.reply id := by
  cases request with
  | paused vm frames => exact of_framesReply vm true frames
  | pausedHybrid vm unionStack =>
    exact bind (of_walkUnionFrames vm unionStack 0) fun _ =>
      of_pure (List.subset_append_right _ _)
  | reportFrames vm getScope frames => exact of_framesReply vm getScope frames
  | getProperties vm params =>
    exact bind (of_getProperties vm params) fun _ => of_pure (List.subset_append_right _ _)
  | evaluated vm value =>
    exact bind (of_cacheObjectIfNeeded vm value) fun _ => of_pure (List.subset_append_right _ _)
  | updateScopeObject sp scope has => exact of_updateScopeObject sp scope has

/-! ### Runs -/

namespace ObjectSession

theorem sound_empty : ({} : ObjectSession V).Sound :=
  { wellFormed := wellFormed_empty, resolves := nofun }

variable {s : ObjectSession V}

theorem Sound.cleanUp (h : s.Sound) (hfits : s.table.Fits) : s.cleanUp.Sound where
  wellFormed := fun _ => (h.wellFormed hfits).cleanUpOnPaused hfits
  resolves := nofun

theorem Sound.respond (h : s.Sound) (request : ObjectRequest V) : (s.respond request).Sound := by
  obtain ⟨hle, hwell, hobjects⟩ := Reports.of_reply request s.table h.wellFormed h.resolves
  exact
    { wellFormed := hwell
      resolves := allResolve_append.mpr ⟨monotone_allResolve _ hle h.resolves, hobjects⟩ }

/-- **One request.** -/
theorem Sound.step (h : s.Sound) (hfits : s.table.Fits) (request : ObjectRequest V) :
    (s.step request).Sound := by
  unfold ObjectSession.step
  split
  · exact (h.cleanUp hfits).respond request
  · exact h.respond request

/-- **Every run** in which the ids fit. -/
theorem sound_stateAt {requests : List (ObjectRequest V)}
    (hfits : ∀ k, (stateAt step {} requests k).table.Fits) (k : Nat) :
    (stateAt step {} requests k).Sound := by
  induction k with
  | zero => exact sound_empty
  | succ k ih =>
    rcases he : requests[k]? with - | request
    · rw [stateAt_succ_of_none he]
      exact ih
    · rw [stateAt_succ he]
      exact ih.step (hfits k) request

end ObjectSession

/-- The clean-up empties the table and frees the handles in it, after which every
handle that was ever created has been freed once. -/
def ObjectTable.ReleasesAll (s : ObjectTable V) : Prop :=
  s.cleanUpOnPaused.properties = ∅ ∧ s.cleanUpOnPaused.curObjectId = 0 ∧
    s.cleanUpOnPaused.freed.Perm (List.range s.created) ∧
    ∃ released, s.cleanUpOnPaused.freed = s.freed ++ released ∧
      ∀ address, address ∈ released ↔
        ∃ id handle, s.properties.lookup id = some (some handle) ∧ handle.address = address

variable {s : ObjectTable V} {handle : GlobalHandle V}

theorem ObjectTable.Indexed.lookup_eq_some_some_iff (h : s.Indexed) {id : Int} :
    s.properties.lookup id = some (some handle) ↔ handleOf s.stored id = some handle := by
  rw [h]
  simp

theorem ObjectTable.Listed.mem_properties_iff (h : s.Listed) (id : Int) :
    id ∈ s.properties ↔ 0 ≤ id ∧ id < s.curObjectId := by
  rw [← AList.lookup_isSome, h.indexed, Option.isSome_map, isSome_handleOf_iff, h.curObjectId_eq]

theorem ObjectTable.Listed.mem_stored_iff (h : s.Listed) :
    handle ∈ s.stored ↔ ∃ id, s.properties.lookup id = some (some handle) := by
  simp only [h.indexed.lookup_eq_some_some_iff, List.mem_iff_getElem?]
  constructor
  · rintro ⟨n, hn⟩
    exact ⟨n, by rw [handleOf_natCast, hn]⟩
  · rintro ⟨id, hid⟩
    unfold handleOf at hid
    split at hid
    · exact ⟨id.toNat, hid⟩
    · cases hid

theorem ObjectTable.Listed.releasesAll (h : s.Listed) (hfits : s.Fits) : s.ReleasesAll := by
  have hclean := h.cleanUpOnPaused hfits
  have haddresses := hclean.addresses
  unfold ReleasesAll
  simp only [ObjectTable.cleanUpOnPaused, cleanUpRuntimeProperties_eq h hfits, List.map_nil,
    List.append_nil] at haddresses ⊢
  refine ⟨trivial, trivial, haddresses, _, rfl, ?_⟩
  intro address
  simp only [List.mem_reverse, List.mem_map, h.mem_stored_iff]
  constructor
  · rintro ⟨handle, ⟨id, hid⟩, rfl⟩
    exact ⟨id, handle, hid, rfl⟩
  · rintro ⟨id, handle, hid, rfl⟩
    exact ⟨handle, ⟨id, hid⟩, rfl⟩

/-- **Remote object ids**: in every run of requests whose ids fit in 32 bits between
two clean-ups, the ids in the table are `0` to `curObjectId - 1`, every id reported
since the last clean-up leads to the object it was reported for, and the next
clean-up releases every handle once. -/
theorem objectIds_resolve (requests : List (ObjectRequest V))
    (hfits : ∀ k, (stateAt ObjectSession.step {} requests k).table.Fits) (k : Nat) :
    let s := stateAt ObjectSession.step {} requests k
    (∀ id, id ∈ s.table.properties ↔ 0 ≤ id ∧ id < s.table.curObjectId) ∧
      (∀ r ∈ s.reported, ∀ id, r.objectId = some id →
        ∃ handle, s.table.properties.lookup id = some (some handle) ∧ handle.value = r.value) ∧
      s.table.ReleasesAll := by
  intro s
  have hsound : s.Sound := ObjectSession.sound_stateAt hfits k
  have hlisted : s.table.Listed := hsound.wellFormed (hfits k)
  refine ⟨hlisted.mem_properties_iff, ?_, hlisted.releasesAll (hfits k)⟩
  intro r hr id hid
  obtain ⟨handle, hhandle, hvalue⟩ := hsound.resolves r hr (hfits k) id hid
  exact ⟨handle, hlisted.indexed.lookup_eq_some_some_iff.mpr hhandle, hvalue⟩

/-- Numbers below `10` are objects; `2` is a map. -/
def numberVm : Vm Nat where
  isObject v := v < 10
  hasValue _ := false
  isConstructor _ := false
  isSymbol _ := false
  toName _ := "name"
  kind v := if v = 2 then .map else .other
  elements _ := []
  byteLength _ := 0
  internalValue _ name := if name = "size" then 12 else 3
  ownPropertyNames v := if v = 4 then [10, 11] else []
  getOwnProperty _ name := some { value := some (if name = 10 then 2 else 13) }
  functionPrototype v := v
  prototype _ := 9
  isInternal v := v = 4

def topFrame : ScopeFrame Nat :=
  { sp := 0, localObj := 4, thisVal := 5, envs := [⟨some [("x", 14)], 6⟩], globalObj := 7 }

/-- A pause, the properties of its local scope and of the map in it, an evaluation,
an assignment, and a second pause. -/
def inspectedPause : List (ObjectRequest Nat) :=
  [.paused numberVm [topFrame], .getProperties numberVm { objectId := 0 },
    .getProperties numberVm { objectId := 4 }, .evaluated numberVm 8,
    .updateScopeObject 0 .local fun _ => true, .paused numberVm [topFrame]]

/-- Before the second pause `0` to `8` have been reported, and then `0` to `3`
again. -/
theorem objectIds_resolve_inspectedPause :
    (stateAt ObjectSession.step {} inspectedPause 5).table.curObjectId = 9 ∧
      (stateAt ObjectSession.step {} inspectedPause 6).reported.filterMap RemoteObject.objectId =
        [0, 2, 3, 1] ∧
      (stateAt ObjectSession.step {} inspectedPause 5).table.ReleasesAll := by
  have hfits : ∀ k, (stateAt ObjectSession.step {} inspectedPause k).table.Fits := by
    refine (forall_stateAt_iff_le (P := fun s : ObjectSession Nat => s.table.Fits)).mpr ?_
    decide +kernel
  exact ⟨by decide +kernel, by decide +kernel, (objectIds_resolve inspectedPause hfits 5).2.2⟩

end ArkToolchain
