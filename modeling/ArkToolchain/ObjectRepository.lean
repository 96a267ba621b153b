/-
The remote objects of the static debugger (tooling/static/debugger/object_repository.cpp).

Frame objects and heap objects take their ids from one counter, the global object has id `0`,
and a heap object that already has an id keeps it.  A query for properties creates the objects
that it reports.  Every id that was handed out is in the table in which it is looked up, and in
no other (`WellFormed`).

Main result: `objectRepository_ids`.  What each call adds is an `Extends` triple, and the calls
compose by its rules.
-/
import ArkToolchain.Growth
import ArkToolchain.Traces
import Mathlib.Data.List.Nodup

namespace ArkToolchain

open Extends

variable {O : Type}

/-! ### Values -/

/-- A tagged value; numbers with a fraction are kept as their bits. -/
inductive TaggedValue (O : Type)
  | heapObject (object : O)
  | undefined
  | hole
  | null
  | boolean (b : Bool)
  | int (n : Int)
  | double (bits : Nat)
  deriving DecidableEq

inductive TypedValue (O : Type)
  | invalid
  | void
  | u1 (b : Bool)
  | i8 (n : Int)
  | u8 (n : Nat)
  | i16 (n : Int)
  | u16 (char : Nat)
  | i32 (n : Int)
  | u32 (n : Nat)
  | f32 (bits : Nat)
  | f64 (bits : Nat)
  | i64 (n : Int)
  | u64 (n : Nat)
  | reference (object : Option O)
  | tagged (value : TaggedValue O)
  deriving DecidableEq

/-- A property as the language extension enumerates it. -/
structure EnumeratedProperty (O : Type) where
  name : String
  value : TypedValue O
  isFinal : Bool := false
  isAccessor : Bool := false
  deriving DecidableEq

/-- `PtLangExt`, and the conversions to text, at the time of a call. -/
structure PtLangExt (O : Type) where
  thisParameterName : String
  getAsString : O → Option String
  getAsBigIntString : O → Option String
  getLengthIfArray : O → Option Nat
  getClassName : O → String
  enumerateGlobals : List (EnumeratedProperty O)
  enumerateProperties : O → List (EnumeratedProperty O)
  charToString : Nat → String
  floatToString : Nat → String

/-! ### Remote objects -/

/-- `RemoteObjectType::TypeValue`, as far as the repository makes such values. -/
inductive RemoteValue
  | undefined
  | null
  | boolean (b : Bool)
  | integer (n : Int)
  | float32 (bits : Nat)
  | float64 (bits : Nat)
  | bigInt (n : Int)
  | bigIntString (value : String)
  | string (value : String)
  | object (className : String) (objectId : Nat) (description : Option String)
  | array (className : String) (objectId : Nat) (length : Nat)
  deriving DecidableEq

namespace RemoteValue

def objectId : RemoteValue → Option Nat
  | .object _ id _ => some id
  | .array _ id _ => some id
  | _ => none

/-- `RemoteObject::GetType`: the type and the subtype. -/
def getType : RemoteValue → String × Option String
  | .undefined => ("undefined", none)
  | .null => ("object", some "null")
  | .boolean _ => ("boolean", none)
  | .integer _ | .float32 _ | .float64 _ => ("number", none)
  | .bigInt _ | .bigIntString _ => ("bigint", none)
  | .string _ => ("string", none)
  | .object .. => ("object", none)
  | .array .. => ("object", some "array")

/-- `RemoteObject::Number` for integers. -/
def number (n : Int) : RemoteValue :=
  if -2 ^ 31 ≤ n ∧ n < 2 ^ 31 then .integer n else .bigInt n

/-- `GetPropertyPreviewValue`. -/
def previewText (ext : PtLangExt O) : RemoteValue → String
  | .undefined => "undefined"
  | .null => "null"
  | .boolean b => if b then "true" else "false"
  | .integer n => toString n
  | .float32 bits | .float64 bits => ext.floatToString bits
  | .bigInt n => toString n
  | .bigIntString value => value
  | .string value => value
  | .object className _ description => description.getD className
  | .array className _ length => className ++ "(" ++ toString length ++ ")"

end RemoteValue

structure PropertyPreview where
  name : String
  type : String × Option String
  value : Option String := none
  deriving DecidableEq

structure ObjectPreview where
  type : String × Option String
  overflow : Bool
  properties : List PropertyPreview
  deriving DecidableEq

/-- Descriptors are enumerable and not configurable. -/
structure StaticProperty where
  name : String
  value : RemoteValue
  isAccessor : Bool := false
  writable : Bool := true
  preview : Option ObjectPreview := none
  deriving DecidableEq

/-- The constructor of `ObjectPreview`, with `PROPERTIES_NMB_LIMIT`. -/
def ObjectPreview.create (ext : PtLangExt O) (type : String × Option String)
    (properties : List StaticProperty) : ObjectPreview where
  type := type
  overflow := 10 < properties.length
  properties := (properties.take 10).map fun p =>
    if p.isAccessor then { name := p.name, type := ("accessor", none) }
    else { name := p.name, type := p.value.getType, value := some (p.value.previewText ext) }

/-! ### The repository -/

/-- What an id was handed out for.  A frame object shows the locals as they were
when it was created. -/
inductive Referent (O : Type)
  | global
  | frame (ext : PtLangExt O) (locals : List (String × TypedValue O))
  | object (object : O)

/-- `handedOut` are the ids that have been handed out. -/
structure ObjectRepository (O : Type) where
  counter : Nat := 1
  frames : List (Nat × List StaticProperty) := []
  objects : List (Nat × O) := []
  handedOut : List (Nat × Referent O) := []

def isSkippedVariable (varName : String) : Bool :=
  varName = "opt"

/-- The locals that are properties of a frame object. -/
def visibleLocals (ext : PtLangExt O) (locals : List (String × TypedValue O)) :
    List (EnumeratedProperty O) :=
  (locals.filter fun p => !isSkippedVariable p.1 && p.1 ≠ ext.thisParameterName).map
    fun p => { name := p.1, value := p.2 }

namespace Referent

/-- The properties of what an id was handed out for. -/
def properties (ext : PtLangExt O) : Referent O → List (EnumeratedProperty O)
  | .global => ext.enumerateGlobals
  | .frame ext' locals => visibleLocals ext' locals
  | .object o => ext.enumerateProperties o

/-- Values of locals are shown as they were seen when the frame object was created. -/
def viewedBy (ext : PtLangExt O) : Referent O → PtLangExt O
  | .frame ext' _ => ext'
  | _ => ext

end Referent

namespace ObjectRepository

def GLOBAL_OBJECT_ID : Nat := 0

/-- `map::emplace`: a key that is there keeps its value. -/
def emplace {β : Type} (map : List (Nat × β)) (id : Nat) (value : β) : List (Nat × β) :=
  if (map.lookup id).isSome then map else map ++ [(id, value)]

def handOut (id : Nat) (referent : Referent O) (s : ObjectRepository O) : ObjectRepository O :=
  { s with handedOut := s.handedOut ++ [(id, referent)] }

def createGlobalObject : StateM (ObjectRepository O) RemoteValue := fun s =>
  (.object "[Global]" GLOBAL_OBJECT_ID (some "Global object"), s.handOut GLOBAL_OBJECT_ID .global)

section

variable [DecidableEq O] (ext : PtLangExt O)

/-- The id of a heap object: the one under which it is stored, or a new one. -/
def objectIdOf (object : O) : StateM (ObjectRepository O) Nat := fun s =>
  match s.objects.find? fun p => p.2 = object with
  | some (id, _) => (id, s.handOut id (.object object))
  | none =>
    (s.counter, { s with
      counter := s.counter + 1
      objects := emplace s.objects s.counter object }.handOut s.counter (.object object))

/-- What is reported of a heap object that has an id. -/
def ofHeapObject (object : O) (id : Nat) : RemoteValue :=
  match ext.getLengthIfArray object with
  | some length => .array (ext.getClassName object) id length
  | none => .object (ext.getClassName object) id none

/-- `CreateObject(ObjectHeader *)`. -/
def createHeapObject : Option O → StateM (ObjectRepository O) RemoteValue
  | none => pure .null
  | some object =>
    match ext.getAsString object, ext.getAsBigIntString object with
    | some str, _ => pure (.string str)
    | none, some bigintStr => pure (.bigIntString bigintStr)
    | none, none => do
        let id ← objectIdOf object
        return ofHeapObject ext object id

def ofPrimitive : TypedValue O → RemoteValue
  | .invalid | .void => .undefined
  | .u1 b => .boolean b
  | .i8 n | .i16 n | .i32 n | .i64 n => .number n
  | .u8 n | .u32 n | .u64 n => .number n
  | .u16 char => .string (ext.charToString char)
  | .f32 bits => .float32 bits
  | .f64 bits => .float64 bits
  | .reference _ => .null
  | .tagged value =>
    match value with
    | .heapObject _ | .null => .null
    | .undefined | .hole => .undefined
    | .boolean b => .boolean b
    | .int n => .number n
    | .double bits => .float64 bits

/-- `CreateObject(TypedValue)` and `CreateObject(TaggedValue)`. -/
def createObject : TypedValue O → StateM (ObjectRepository O) RemoteValue
  | .reference object => createHeapObject ext object
  | .tagged (.heapObject object) => createHeapObject ext (some object)
  | value => pure (ofPrimitive ext value)

/-- The loop of `CreateFrameObject`: the properties, and `this`. -/
def createLocals (ext : PtLangExt O) : List (String × TypedValue O) → Option RemoteValue →
    StateM (ObjectRepository O) (List StaticProperty × Option RemoteValue)
  | [], objThis => pure ([], objThis)
  | (paramName, value) :: locals, objThis =>
    if isSkippedVariable paramName then createLocals ext locals objThis
    else do
      let obj ← createObject ext value
      if paramName = ext.thisParameterName then createLocals ext locals (some obj)
      else do
        let (properties, objThis) ← createLocals ext locals objThis
        return ({ name := paramName, value := obj } :: properties, objThis)

def addFrame (locals : List (String × TypedValue O))
    (properties : List StaticProperty) : StateM (ObjectRepository O) Nat := fun s =>
  (s.counter, { s with
    counter := s.counter + 1
    frames := emplace s.frames s.counter properties }.handOut s.counter (.frame ext locals))

def createFrameObject (frameId : Nat) (locals : List (String × TypedValue O)) :
    StateM (ObjectRepository O) (RemoteValue × Option RemoteValue) := do
  let (properties, objThis) ← createLocals ext locals none
  let id ← addFrame ext locals properties
  return (.object "" id (some ("Frame #" ++ toString frameId)), objThis)

/-- The handler to which properties are enumerated. -/
def propertyHandler (p : EnumeratedProperty O) : StateM (ObjectRepository O) StaticProperty := do
  let value ← createObject ext p.value
  return { name := p.name, value, isAccessor := p.isAccessor
           writable := p.isAccessor || !p.isFinal }

/-- `GetProperties(id)`. -/
def propertiesOf (id : Nat) : StateM (ObjectRepository O) (List StaticProperty) := fun s =>
  match s.frames.lookup id with
  | some properties => (properties, s)
  | none =>
    if id = GLOBAL_OBJECT_ID then ext.enumerateGlobals.mapM (propertyHandler ext) s
    else
      match s.objects.lookup id with
      | some object => (ext.enumerateProperties object).mapM (propertyHandler ext) s
      | none => ([], s)

/-- `CreateObjectPreview` for a property that is not an accessor. -/
def addPreview (property : StaticProperty) : StateM (ObjectRepository O) StaticProperty :=
  match property.isAccessor, property.value.objectId with
  | false, some valueId => do
      let properties ← propertiesOf ext valueId
      return { property with
        preview := some (ObjectPreview.create ext property.value.getType properties) }
  | _, _ => pure property

def getProperties (id : Nat) (generatePreview : Bool) :
    StateM (ObjectRepository O) (List StaticProperty) := do
  let properties ← propertiesOf ext id
  if generatePreview then properties.mapM (addPreview ext) else pure properties

end

/-! ### What replies say -/

/-- What a heap object is reported as: a text, or an object with an id handed out
for it. -/
def ShowsHeapObject (ext : PtLangExt O) (object : Option O) (r : RemoteValue)
    (s : ObjectRepository O) : Prop :=
  match object with
  | none => r = .null
  | some object =>
    match ext.getAsString object, ext.getAsBigIntString object with
    | some str, _ => r = .string str
    | none, some bigintStr => r = .bigIntString bigintStr
    | none, none => ∃ id, (id, .object object) ∈ s.handedOut ∧ r = ofHeapObject ext object id

def Shows (ext : PtLangExt O) (value : TypedValue O) (r : RemoteValue) (s : ObjectRepository O) :
    Prop :=
  match value with
  | .reference object => ShowsHeapObject ext object r s
  | .tagged (.heapObject object) => ShowsHeapObject ext (some object) r s
  | value => r = ofPrimitive ext value

def ShowsProperty (ext : PtLangExt O) (p : EnumeratedProperty O) (d : StaticProperty)
    (s : ObjectRepository O) : Prop :=
  d.name = p.name ∧ d.isAccessor = p.isAccessor ∧ d.writable = (p.isAccessor || !p.isFinal) ∧
    Shows ext p.value d.value s

/-- Each property is shown, in the order in which they are enumerated. -/
def ShowsAll (ext : PtLangExt O) (ps : List (EnumeratedProperty O)) (ds : List StaticProperty)
    (s : ObjectRepository O) : Prop :=
  List.Forall₂ (fun p d => ShowsProperty ext p d s) ps ds

/-- The last local that is `this`. -/
def thisLocal (ext : PtLangExt O) : List (String × TypedValue O) → Option (TypedValue O)
  | [] => none
  | (name, value) :: locals =>
    (thisLocal ext locals).or
      (if ¬ isSkippedVariable name ∧ name = ext.thisParameterName then some value else none)

/-- `this` is shown if there is a local for it. -/
def ShowsThis (ext : PtLangExt O) (locals : List (String × TypedValue O))
    (before objThis : Option RemoteValue) (s : ObjectRepository O) : Prop :=
  match thisLocal ext locals with
  | none => objThis = before
  | some value => ∃ this ∈ objThis, Shows ext value this s

/-- The id of a property was handed out for a heap object. -/
def KnownId (d : StaticProperty) (s : ObjectRepository O) : Prop :=
  ∀ id, d.value.objectId = some id → ∃ object, (id, .object object) ∈ s.handedOut

/-- The preview of a property that has an id shows the properties of its object. -/
def ShowsPreview (ext : PtLangExt O) (d : StaticProperty) (s : ObjectRepository O) : Prop :=
  d.isAccessor = false → ∀ id, d.value.objectId = some id →
    ∃ object ds, (id, .object object) ∈ s.handedOut ∧
      d.preview = some (ObjectPreview.create ext d.value.getType ds) ∧
      ShowsAll ext (ext.enumerateProperties object) ds s

theorem objectId_ofHeapObject (ext : PtLangExt O) (object : O) (id : Nat) :
    (ofHeapObject ext object id).objectId = some id := by
  unfold ofHeapObject
  split <;> rfl

theorem objectId_number (n : Int) : (RemoteValue.number n).objectId = none := by
  unfold RemoteValue.number
  split <;> rfl

theorem objectId_ofPrimitive (ext : PtLangExt O) (value : TypedValue O) :
    (ofPrimitive ext value).objectId = none := by
  cases value with
  | tagged value => cases value <;> first | exact objectId_number _ | rfl
  | _ => first | exact objectId_number _ | rfl

variable {s : ObjectRepository O} {ext : PtLangExt O} {id : Nat}

theorem ShowsHeapObject.exists_id {object : Option O} {r : RemoteValue}
    (h : ShowsHeapObject ext object r s) (hid : r.objectId = some id) :
    ∃ object, (id, .object object) ∈ s.handedOut := by
  cases object with
  | none =>
    obtain rfl : r = .null := h
    cases hid
  | some object =>
    unfold ShowsHeapObject at h
    simp only at h
    split at h
    · subst h
      cases hid
    · subst h
      cases hid
    · obtain ⟨id', hmem, rfl⟩ := h
      obtain rfl : id' = id := by
        rw [objectId_ofHeapObject] at hid
        exact Option.some.inj hid
      exact ⟨object, hmem⟩

theorem Shows.exists_id {value : TypedValue O} {r : RemoteValue} (h : Shows ext value r s)
    (hid : r.objectId = some id) : ∃ object, (id, .object object) ∈ s.handedOut := by
  unfold Shows at h
  split at h
  · exact h.exists_id hid
  · exact h.exists_id hid
  · rw [h, objectId_ofPrimitive] at hid
    cases hid

theorem ShowsProperty.knownId {p : EnumeratedProperty O} {d : StaticProperty}
    (h : ShowsProperty ext p d s) : KnownId d s :=
  fun _ hid => h.2.2.2.exists_id hid

variable {ps : List (EnumeratedProperty O)}

theorem ShowsAll.knownId {ds : List StaticProperty} (h : ShowsAll ext ps ds s) :
    ∀ d ∈ ds, KnownId d s :=
  forall_mem_of_forall₂ h fun _ _ hd => hd.knownId

theorem ShowsAll.of_previews {ds ds' : List StaticProperty} (h : ShowsAll ext ps ds s)
    (h' : List.Forall₂ (fun d d' => { d' with preview := d.preview } = d) ds ds') :
    ShowsAll ext ps ds' s := by
  induction h generalizing ds' with
  | nil =>
    cases h'
    exact .nil
  | cons hd _ ih =>
    obtain ⟨d', ds', heq, hrest, rfl⟩ := List.forall₂_cons_left_iff.mp h'
    rw [← heq] at hd
    exact .cons hd (ih hrest)

/-- A repository grows by the ids that are handed out. -/
instance : Preorder (ObjectRepository O) where
  le s s' := s.frames <+: s'.frames ∧ s.objects <+: s'.objects ∧ s.handedOut <+: s'.handedOut
  le_refl _ := ⟨List.prefix_rfl, List.prefix_rfl, List.prefix_rfl⟩
  le_trans _ _ _ h h' := ⟨h.1.trans h'.1, h.2.1.trans h'.2.1, h.2.2.trans h'.2.2⟩

theorem le_handOut (s : ObjectRepository O) (id : Nat) (referent : Referent O) :
    s ≤ s.handOut id referent :=
  ⟨List.prefix_rfl, List.prefix_rfl, List.prefix_append _ _⟩

theorem mem_handOut (s : ObjectRepository O) (id : Nat) (referent : Referent O) :
    (id, referent) ∈ (s.handOut id referent).handedOut :=
  List.mem_append_right _ (List.mem_singleton_self _)

theorem monotone_mem_handedOut (id : Nat) (referent : Referent O) :
    Monotone fun s : ObjectRepository O => (id, referent) ∈ s.handedOut :=
  fun _ _ hle h => hle.2.2.subset h

section

variable (ext)

theorem monotone_showsHeapObject (object : Option O) (r : RemoteValue) :
    Monotone (ShowsHeapObject ext object r) := by
  intro s s' hle h
  cases object with
  | none => exact h
  | some object =>
    unfold ShowsHeapObject at h ⊢
    simp only at h ⊢
    split at h
    · exact h
    · exact h
    · obtain ⟨id, hid, hr⟩ := h
      exact ⟨id, monotone_mem_handedOut id _ hle hid, hr⟩

theorem monotone_shows (value : TypedValue O) (r : RemoteValue) : Monotone (Shows ext value r) := by
  intro s s' hle h
  unfold Shows at h ⊢
  split at h
  · exact monotone_showsHeapObject ext _ r hle h
  · exact monotone_showsHeapObject ext _ r hle h
  · exact h

theorem monotone_showsProperty (p : EnumeratedProperty O)
    (d : StaticProperty) : Monotone (ShowsProperty ext p d) :=
  fun _ _ hle h => ⟨h.1, h.2.1, h.2.2.1, monotone_shows ext _ _ hle h.2.2.2⟩

theorem monotone_showsAll (ps : List (EnumeratedProperty O))
    (ds : List StaticProperty) : Monotone (ShowsAll ext ps ds) :=
  fun _ _ hle h => h.imp fun _ _ hd => monotone_showsProperty ext _ _ hle hd

theorem monotone_showsThis (locals : List (String × TypedValue O))
    (before objThis : Option RemoteValue) : Monotone (ShowsThis ext locals before objThis) := by
  intro s s' hle h
  unfold ShowsThis at h ⊢
  split at h
  · exact h
  · exact h.imp fun this hthis => ⟨hthis.1, monotone_shows ext _ _ hle hthis.2⟩

theorem monotone_showsPreview (d : StaticProperty) : Monotone (ShowsPreview ext d) := by
  intro s s' hle h haccessor id hid
  obtain ⟨object, ds, hmem, hpreview, hshows⟩ := h haccessor id hid
  exact ⟨object, ds, monotone_mem_handedOut id _ hle hmem, hpreview,
    monotone_showsAll ext _ _ hle hshows⟩

end

/-! ### The tables -/

def ids (s : ObjectRepository O) : List Nat :=
  s.frames.map Prod.fst ++ s.objects.map Prod.fst

/-- The id is looked up in the table of its referent, and what is found there belongs
to it. -/
def Holds (id : Nat) : Referent O → ObjectRepository O → Prop
  | .global, _ => id = GLOBAL_OBJECT_ID
  | .frame ext locals, s =>
    ∃ properties, (id, properties) ∈ s.frames ∧ ShowsAll ext (visibleLocals ext locals) properties s
  | .object object, s => (id, object) ∈ s.objects

structure WellFormed (s : ObjectRepository O) : Prop where
  nodup : s.ids.Nodup
  ids_lt : ∀ id ∈ s.ids, GLOBAL_OBJECT_ID < id ∧ id < s.counter
  counter_pos : GLOBAL_OBJECT_ID < s.counter
  objects_nodup : (s.objects.map Prod.snd).Nodup
  holds : ∀ p ∈ s.handedOut, s.Holds p.1 p.2

theorem monotone_holds (id : Nat) (referent : Referent O) : Monotone (Holds id referent) := by
  intro s s' hle h
  cases referent with
  | global => exact h
  | frame ext locals =>
    obtain ⟨properties, hmem, hshows⟩ := h
    exact ⟨properties, hle.1.subset hmem, monotone_showsAll ext _ _ hle hshows⟩
  | object object => exact hle.2.1.subset h

variable {β : Type} {value : β}

theorem lookup_of_mem {map : List (Nat × β)} (hnodup : (map.map Prod.fst).Nodup)
    (h : (id, value) ∈ map) : map.lookup id = some value := by
  obtain ⟨l₁, l₂, rfl⟩ := List.append_of_mem h
  refine List.lookup_eq_some_iff.mpr ⟨l₁, l₂, rfl, fun p hp => ?_⟩
  rw [List.map_append, List.map_cons] at hnodup
  have hne := (List.nodup_append.mp hnodup).2.2 p.1 (List.mem_map_of_mem hp) id List.mem_cons_self
  simpa using hne.symm

theorem lookup_eq_none_of_not_mem {map : List (Nat × β)} (h : id ∉ map.map Prod.fst) :
    map.lookup id = none := by
  refine List.lookup_eq_none_iff.mpr fun p hp => ?_
  have hne : id ≠ p.1 := by
    rintro rfl
    exact h (List.mem_map_of_mem hp)
  simpa using hne

theorem emplace_of_not_mem {map : List (Nat × β)} (h : id ∉ map.map Prod.fst) :
    emplace map id value = map ++ [(id, value)] := by
  rw [emplace, lookup_eq_none_of_not_mem h]
  rfl

namespace WellFormed

variable {s : ObjectRepository O}

section

variable (h : s.WellFormed)
include h

theorem frames_nodup : (s.frames.map Prod.fst).Nodup :=
  (List.nodup_append.mp h.nodup).1

theorem objects_ids_nodup : (s.objects.map Prod.fst).Nodup :=
  (List.nodup_append.mp h.nodup).2.1

theorem counter_not_mem : s.counter ∉ s.ids :=
  fun hmem => absurd (h.ids_lt _ hmem).2 (Nat.lt_irrefl _)

theorem not_mem_frames_of_mem_objects {object : O} (hmem : (id, object) ∈ s.objects) :
    id ∉ s.frames.map Prod.fst :=
  fun hframe => (List.nodup_append.mp h.nodup).2.2 id hframe id (List.mem_map_of_mem hmem) rfl

theorem pos_of_mem_ids (hmem : id ∈ s.ids) : id ≠ GLOBAL_OBJECT_ID :=
  Nat.ne_of_gt (h.ids_lt id hmem).1

theorem handOut (id : Nat) (referent : Referent O) (hholds : s.Holds id referent) :
    (s.handOut id referent).WellFormed := by
  refine { h with holds := ?_ }
  intro p hp
  apply monotone_holds p.1 p.2 (s.le_handOut id referent)
  rcases List.mem_append.mp hp with hp | hp
  · exact h.holds p hp
  · obtain rfl := List.mem_singleton.mp hp
    exact hholds

theorem of_grows {s' : ObjectRepository O} (hle : s ≤ s') (hids : s'.ids.Perm (s.counter :: s.ids))
    (hcounter : s'.counter = s.counter + 1) (hobjects : (s'.objects.map Prod.snd).Nodup)
    (hhanded : s'.handedOut = s.handedOut) : s'.WellFormed where
  nodup := hids.nodup_iff.mpr (List.nodup_cons.mpr ⟨h.counter_not_mem, h.nodup⟩)
  ids_lt := by
    intro id hid
    rw [hcounter]
    rcases List.mem_cons.mp (hids.mem_iff.mp hid) with rfl | hid
    · exact ⟨h.counter_pos, Nat.lt_succ_self _⟩
    · exact ⟨(h.ids_lt id hid).1, Nat.lt_succ_of_lt (h.ids_lt id hid).2⟩
  counter_pos := by
    rw [hcounter]
    exact Nat.lt_succ_of_lt h.counter_pos
  objects_nodup := hobjects
  holds := by
    rw [hhanded]
    exact fun p hp => monotone_holds p.1 p.2 hle (h.holds p hp)

end

end WellFormed

/-! ### What each call adds -/

section

variable {P : ObjectRepository O → Prop} (ext)

theorem createGlobalObject_extends : Extends WellFormed P createGlobalObject fun r s =>
      ∃ id, r.objectId = some id ∧ (id, .global) ∈ s.handedOut := by
  intro s hs _
  exact ⟨s.le_handOut _ _, hs.handOut _ .global rfl, GLOBAL_OBJECT_ID, rfl, s.mem_handOut _ _⟩

theorem addFrame_extends (locals : List (String × TypedValue O)) {properties : List StaticProperty}
    (hP : ∀ s, P s → ShowsAll ext (visibleLocals ext locals) properties s) :
    Extends WellFormed P (addFrame ext locals properties)
      fun id s => (id, .frame ext locals) ∈ s.handedOut := by
  intro s hs hPs
  have hfresh : s.counter ∉ s.frames.map Prod.fst :=
    fun hmem => hs.counter_not_mem (List.mem_append_left _ hmem)
  unfold addFrame
  rw [emplace_of_not_mem hfresh]
  have hle : s ≤ { s with
      counter := s.counter + 1, frames := s.frames ++ [(s.counter, properties)] } :=
    ⟨List.prefix_append _ _, List.prefix_rfl, List.prefix_rfl⟩
  refine ⟨hle.trans (le_handOut _ _ _), ?_, mem_handOut _ _ _⟩
  refine WellFormed.handOut (hs.of_grows hle ?_ rfl hs.objects_nodup rfl) _ _ ?_
  · show ((s.frames ++ [_]).map Prod.fst ++ s.objects.map Prod.fst).Perm _
    rw [List.map_append, List.append_assoc]
    exact List.perm_middle
  · exact ⟨properties, List.mem_append_right _ (List.mem_singleton_self _),
      monotone_showsAll ext _ _ hle (hP s hPs)⟩

variable [DecidableEq O]

theorem objectIdOf_extends (object : O) :
    Extends WellFormed P (objectIdOf object) fun id s => (id, .object object) ∈ s.handedOut := by
  intro s hs _
  unfold objectIdOf
  split
  · next id object' hfind =>
      -- the handle found is one to the same object
      have hsame : object' = object := by simpa using List.find?_some hfind
      have hmem : (id, object) ∈ s.objects := hsame ▸ List.mem_of_find?_eq_some hfind
      exact ⟨s.le_handOut _ _, hs.handOut id (.object object) hmem, s.mem_handOut _ _⟩
  · next hfind =>
      have hnew : object ∉ s.objects.map Prod.snd := by
        intro hmem
        obtain ⟨p, hp, rfl⟩ := List.mem_map.mp hmem
        simpa using List.find?_eq_none.mp hfind p hp
      have hfresh : s.counter ∉ s.objects.map Prod.fst :=
        fun hmem => hs.counter_not_mem (List.mem_append_right _ hmem)
      rw [emplace_of_not_mem hfresh]
      have hle : s ≤ { s with
          counter := s.counter + 1, objects := s.objects ++ [(s.counter, object)] } :=
        ⟨List.prefix_rfl, List.prefix_append _ _, List.prefix_rfl⟩
      refine ⟨hle.trans (le_handOut _ _ _), ?_, mem_handOut _ _ _⟩
      refine WellFormed.handOut (hs.of_grows hle ?_ rfl ?_ rfl) _ _ ?_
      · show (s.frames.map Prod.fst ++ (s.objects ++ [_]).map Prod.fst).Perm _
        rw [List.map_append, ← List.append_assoc]
        exact List.perm_append_singleton _ _
      · rw [List.map_append, List.nodup_append]
        refine ⟨hs.objects_nodup, List.nodup_singleton _, ?_⟩
        rintro o ho _ hsingle rfl
        rw [List.mem_singleton.mp hsingle] at ho
        exact hnew ho
      · exact List.mem_append_right _ (List.mem_singleton_self _)

theorem createHeapObject_extends (object : Option O) (hP : Monotone P) :
    Extends WellFormed P (createHeapObject ext object) (ShowsHeapObject ext object) := by
  cases object with
  | none => exact of_pure fun _ _ _ => rfl
  | some object =>
    unfold createHeapObject ShowsHeapObject
    simp only
    split
    · exact of_pure fun _ _ _ => rfl
    · exact of_pure fun _ _ _ => rfl
    · refine bind hP (objectIdOf_extends object) fun id => ?_
      exact of_pure fun s _ h => ⟨id, h.2, rfl⟩

/-- **Creating an object** shows the value. -/
theorem createObject_extends (value : TypedValue O) (hP : Monotone P) :
    Extends WellFormed P (createObject ext value) (Shows ext value) := by
  unfold createObject Shows
  split
  · exact createHeapObject_extends ext _ hP
  · exact createHeapObject_extends ext _ hP
  · exact of_pure fun _ _ _ => rfl

theorem createLocals_extends (locals : List (String × TypedValue O))
    (objThis : Option RemoteValue) (hP : Monotone P) :
    Extends WellFormed P (createLocals ext locals objThis) fun r s =>
      ShowsAll ext (visibleLocals ext locals) r.1 s ∧ ShowsThis ext locals objThis r.2 s := by
  induction locals generalizing P objThis with
  | nil => exact of_pure fun _ _ _ => ⟨.nil, rfl⟩
  | cons p locals ih =>
    obtain ⟨paramName, value⟩ := p
    have hvisible : visibleLocals ext ((paramName, value) :: locals) =
        if isSkippedVariable paramName ∨ paramName = ext.thisParameterName then
          visibleLocals ext locals
        else { name := paramName, value := value } :: visibleLocals ext locals := by
      by_cases hskip : isSkippedVariable paramName <;>
        by_cases hthis : paramName = ext.thisParameterName <;> simp [visibleLocals, hskip, hthis]
    rw [hvisible]
    unfold createLocals ShowsThis thisLocal
    split
    · next hskip =>
        rw [if_pos (.inl hskip), if_neg fun h => h.1 hskip, Option.or_none]
        exact ih objThis hP
    · next hskip =>
        refine bind hP (createObject_extends ext value hP) fun obj => ?_
        have hP' := monotone_and hP (monotone_shows ext value obj)
        split
        · next hthis =>
            rw [if_pos (.inr hthis), if_pos ⟨hskip, hthis⟩]
            refine ((ih (some obj) hP').keep hP').weaken (fun _ h => h) fun r s h => ?_
            obtain ⟨⟨-, hshows⟩, hall, hlast⟩ := h
            refine ⟨hall, ?_⟩
            unfold ShowsThis at hlast
            cases hlocal : thisLocal ext locals with
            | none => exact ⟨obj, by simpa [hlocal] using hlast, hshows⟩
            | some value' => simpa [hlocal] using hlast
        · next hthis =>
            rw [if_neg (not_or.mpr ⟨hskip, hthis⟩), if_neg fun h => hthis h.2, Option.or_none]
            refine bind hP' (ih objThis hP') fun r => ?_
            exact of_pure fun s _ h => ⟨.cons ⟨rfl, rfl, rfl, h.1.2⟩ h.2.1, h.2.2⟩

/-- **Creating a frame object** stores its visible locals, and shows `this`. -/
theorem createFrameObject_extends (frameId : Nat)
    (locals : List (String × TypedValue O)) (hP : Monotone P) :
    Extends WellFormed P (createFrameObject ext frameId locals)
      fun r s => (∃ id, r.1.objectId = some id ∧ (id, .frame ext locals) ∈ s.handedOut) ∧
        ShowsThis ext locals none r.2 s := by
  refine bind hP (createLocals_extends ext locals none hP) fun r => ?_
  refine bind (monotone_and hP (monotone_and (monotone_showsAll ext _ _)
    (monotone_showsThis ext _ _ _))) (addFrame_extends ext locals fun s h => h.2.1) fun id => ?_
  exact of_pure fun s _ h => ⟨⟨id, rfl, h.2⟩, h.1.2.2⟩

/-! ### Properties -/

theorem propertyHandler_extends (p : EnumeratedProperty O) (hP : Monotone P) :
    Extends WellFormed P (propertyHandler ext p) (ShowsProperty ext p) := by
  refine bind hP (createObject_extends ext p.value hP) fun value => ?_
  exact of_pure fun s _ h => ⟨rfl, rfl, rfl, h.2⟩

theorem enumerate_extends (ps : List (EnumeratedProperty O)) (hP : Monotone P) :
    Extends WellFormed P (ps.mapM (propertyHandler ext)) (ShowsAll ext ps) :=
  mapM hP (monotone_showsProperty ext) fun p _ => propertyHandler_extends ext p hP

theorem propertiesOf_keeps (id : Nat) :
    Extends WellFormed P (propertiesOf ext id) fun _ _ => True := by
  intro s hs _
  have henumerate (ps : List (EnumeratedProperty O)) :
      Extends WellFormed (fun _ => True) (ps.mapM (propertyHandler ext)) fun _ _ => True :=
    (enumerate_extends ext ps monotone_const).weaken (fun _ h => h) fun _ _ _ => trivial
  unfold propertiesOf
  split
  · exact ⟨le_rfl, hs, trivial⟩
  · split
    · exact henumerate _ s hs trivial
    · split
      · exact henumerate _ s hs trivial
      · exact ⟨le_rfl, hs, trivial⟩

variable {referent : Referent O}

theorem propertiesOf_object (object : O) :
    Extends WellFormed (fun s => (id, object) ∈ s.objects) (propertiesOf ext id)
      (ShowsAll ext (ext.enumerateProperties object)) := by
  intro s hs hmem
  have hpos := hs.pos_of_mem_ids (List.mem_append_right _ (List.mem_map_of_mem hmem))
  unfold propertiesOf
  rw [lookup_eq_none_of_not_mem (hs.not_mem_frames_of_mem_objects hmem)]
  simp only [if_neg hpos, lookup_of_mem hs.objects_ids_nodup hmem]
  exact enumerate_extends ext _ (monotone_const (c := True)) s hs trivial

/-- **Properties**: an id leads to the properties of its referent. -/
theorem propertiesOf_extends (hP : Monotone P) (hid : ∀ s, P s → (id, referent) ∈ s.handedOut) :
    Extends WellFormed P (propertiesOf ext id)
      (ShowsAll (referent.viewedBy ext) (referent.properties ext)) := by
  intro s hs hPs
  have hholds : s.Holds id referent := hs.holds _ (hid s hPs)
  cases referent with
  | global =>
    obtain rfl : id = GLOBAL_OBJECT_ID := hholds
    have hframe : GLOBAL_OBJECT_ID ∉ s.frames.map Prod.fst :=
      fun hmem => hs.pos_of_mem_ids (List.mem_append_left _ hmem) rfl
    rw [propertiesOf, lookup_eq_none_of_not_mem hframe]
    exact enumerate_extends ext _ hP s hs hPs
  | frame ext' locals =>
    obtain ⟨properties, hmem, hshows⟩ := hholds
    rw [propertiesOf, lookup_of_mem hs.frames_nodup hmem]
    exact ⟨le_rfl, hs, hshows⟩
  | object object => exact propertiesOf_object ext object s hs hholds

/-! ### Previews -/

theorem addPreview_extends (d : StaticProperty) (hP : ∀ s, P s → KnownId d s) :
    Extends WellFormed P (addPreview ext d) fun d' s =>
      { d' with preview := d.preview } = d ∧ ShowsPreview ext d' s := by
  unfold addPreview
  split
  · next id haccessor hid =>
      refine weaken (of_exists fun object => ?_) (fun s hPs => hP s hPs id hid)
        fun _ _ h => h
      have hmono := monotone_mem_handedOut id (.object object)
      refine bind hmono (propertiesOf_extends ext hmono fun _ h => h) fun ds => ?_
      apply of_pure
      intro s' _ h
      refine ⟨rfl, fun _ id' hid' => ?_⟩
      obtain rfl : id = id' := Option.some.inj (hid.symm.trans hid')
      exact ⟨object, ds, h.1, rfl, h.2⟩
  · next hnone =>
      refine of_pure fun s _ _ => ⟨rfl, fun haccessor id hid => ?_⟩
      exact absurd hid (hnone id haccessor)

/-- **Queries** with previews. -/
theorem getProperties_extends (generatePreview : Bool) (hP : Monotone P)
    {ext' : PtLangExt O} {ps : List (EnumeratedProperty O)}
    (hproperties : Extends WellFormed P (propertiesOf ext id) (ShowsAll ext' ps)) :
    Extends WellFormed P (getProperties ext id generatePreview) fun ds s =>
      ShowsAll ext' ps ds s ∧ (generatePreview = true → ∀ d ∈ ds, ShowsPreview ext d s) := by
  refine bind hP hproperties fun ds => ?_
  cases generatePreview with
  | false => exact of_pure fun s _ h => ⟨h.2, nofun⟩
  | true =>
    have hP' := monotone_and hP (monotone_showsAll ext' ps ds)
    refine weaken (keep hP' (mapM hP'
      (fun d d' => monotone_and monotone_const (monotone_showsPreview ext d'))
      fun d hd => addPreview_extends ext d fun s h => h.2.knownId d hd)) (fun _ h => h) ?_
    rintro ds' s ⟨⟨-, hshows⟩, hall⟩
    exact ⟨hshows.of_previews (hall.imp fun _ _ h => h.1),
      fun _ => forall_mem_of_forall₂ hall fun _ _ h => h.2⟩

theorem addPreview_keeps (d : StaticProperty) (hP : Monotone P) :
    Extends WellFormed P (addPreview ext d) fun _ _ => True := by
  unfold addPreview
  split
  · refine bind hP (propertiesOf_keeps ext _) fun _ => ?_
    exact of_pure fun _ _ _ => trivial
  · exact of_pure fun _ _ _ => trivial

theorem getProperties_keeps (id : Nat) (generatePreview : Bool) (hP : Monotone P) :
    Extends WellFormed P (getProperties ext id generatePreview) fun _ _ => True := by
  refine bind hP (propertiesOf_keeps ext id) fun ds => ?_
  have hP' := monotone_and hP (monotone_const (c := True))
  split
  · have hpreviews : Extends WellFormed _ (ds.mapM (addPreview ext)) _ :=
      mapM hP' (fun _ _ => monotone_const) fun d _ => addPreview_keeps ext d hP'
    exact hpreviews.weaken (fun _ h => h) fun _ _ _ => trivial
  · exact of_pure fun _ _ _ => trivial

end

/-! ### Runs -/

end ObjectRepository

/-- The calls of a repository. -/
inductive RepositoryCall (O : Type)
  | createGlobalObject
  | createFrameObject (ext : PtLangExt O) (frameId : Nat) (locals : List (String × TypedValue O))
  | createObject (ext : PtLangExt O) (value : TypedValue O)
  | getProperties (ext : PtLangExt O) (id : Nat) (generatePreview : Bool)

namespace ObjectRepository

theorem wellFormed_empty : ({} : ObjectRepository O).WellFormed where
  nodup := List.nodup_nil
  ids_lt := nofun
  counter_pos := Nat.zero_lt_one
  objects_nodup := List.nodup_nil
  holds := nofun

variable [DecidableEq O] (s : ObjectRepository O)

def step : RepositoryCall O → ObjectRepository O
  | .createGlobalObject => (createGlobalObject s).2
  | .createFrameObject ext frameId locals => (createFrameObject ext frameId locals s).2
  | .createObject ext value => (createObject ext value s).2
  | .getProperties ext id generatePreview => (getProperties ext id generatePreview s).2

/-- **One call.** -/
theorem WellFormed.step {s : ObjectRepository O} (h : s.WellFormed) (call : RepositoryCall O) :
    (s.step call).WellFormed := by
  have hmono : Monotone fun _ : ObjectRepository O => True := monotone_const
  cases call with
  | createGlobalObject => exact (createGlobalObject_extends (P := fun _ => True) s h trivial).2.1
  | createFrameObject ext frameId locals =>
    exact (createFrameObject_extends ext frameId locals hmono s h trivial).2.1
  | createObject ext value => exact (createObject_extends ext value hmono s h trivial).2.1
  | getProperties ext id generatePreview =>
    exact (getProperties_keeps ext id generatePreview hmono s h trivial).2.1

/-- Ids of frame objects and of heap objects are apart and not that of the global
object, and heap objects have the same id exactly if they are the same. -/
def IdsApart : Prop :=
  (∀ id ext locals, (id, .frame ext locals) ∈ s.handedOut →
    id ≠ GLOBAL_OBJECT_ID ∧ ∀ object, (id, .object object) ∉ s.handedOut) ∧
  (∀ id object, (id, .object object) ∈ s.handedOut → id ≠ GLOBAL_OBJECT_ID) ∧
  ∀ id object id' object', (id, .object object) ∈ s.handedOut →
    (id', .object object') ∈ s.handedOut → (id = id' ↔ object = object')

/-- What is created next, also `this` of a frame object, is shown under an id that is handed
out for it. -/
def CreatesShown : Prop :=
  (∃ id, (createGlobalObject s).1.objectId = some id ∧
    (id, .global) ∈ (createGlobalObject s).2.handedOut) ∧
  (∀ ext value, Shows ext value (createObject ext value s).1 (createObject ext value s).2) ∧
  ∀ ext frameId locals, (∃ id, (createFrameObject ext frameId locals s).1.1.objectId = some id ∧
      (id, .frame ext locals) ∈ (createFrameObject ext frameId locals s).2.handedOut) ∧
    ShowsThis ext locals none (createFrameObject ext frameId locals s).1.2
      (createFrameObject ext frameId locals s).2

/-- A query about an id that was handed out is answered with the properties of the
object it was handed out for. -/
def AnswersQueries : Prop :=
  ∀ id referent, (id, referent) ∈ s.handedOut → ∀ ext generatePreview,
    ShowsAll (referent.viewedBy ext) (referent.properties ext)
        (getProperties ext id generatePreview s).1 (getProperties ext id generatePreview s).2 ∧
      (generatePreview = true → ∀ d ∈ (getProperties ext id generatePreview s).1,
        ShowsPreview ext d (getProperties ext id generatePreview s).2)

namespace WellFormed

variable {s : ObjectRepository O}

omit [DecidableEq O] in
theorem idsApart (h : s.WellFormed) : s.IdsApart := by
  have hobject : ∀ {id object}, (id, .object object) ∈ s.handedOut → (id, object) ∈ s.objects :=
    fun hmem => h.holds _ hmem
  refine ⟨?_, ?_, ?_⟩
  · intro id ext locals hmem
    obtain ⟨properties, hframe, -⟩ := h.holds _ hmem
    have hid : id ∈ s.frames.map Prod.fst := List.mem_map_of_mem hframe
    refine ⟨h.pos_of_mem_ids (List.mem_append_left _ hid), fun object hmem' => ?_⟩
    exact h.not_mem_frames_of_mem_objects (hobject hmem') hid
  · intro id object hmem
    exact h.pos_of_mem_ids (List.mem_append_right _ (List.mem_map_of_mem (hobject hmem)))
  · intro id object id' object' hmem hmem'
    constructor
    · rintro rfl
      have hsame := (lookup_of_mem h.objects_ids_nodup (hobject hmem)).symm.trans
        (lookup_of_mem h.objects_ids_nodup (hobject hmem'))
      exact Option.some.inj hsame
    · rintro rfl
      have hsame := List.inj_on_of_nodup_map h.objects_nodup (hobject hmem) (hobject hmem') rfl
      exact congrArg Prod.fst hsame

theorem createsShown (h : s.WellFormed) : s.CreatesShown := by
  have hmono : Monotone fun _ : ObjectRepository O => True := monotone_const
  exact ⟨(createGlobalObject_extends (P := fun _ => True) s h trivial).2.2,
    fun ext value => (createObject_extends ext value hmono s h trivial).2.2,
    fun ext frameId locals =>
      (createFrameObject_extends ext frameId locals hmono s h trivial).2.2⟩

theorem answersQueries (h : s.WellFormed) : s.AnswersQueries := by
  intro id referent hmem ext generatePreview
  have hmono := monotone_mem_handedOut id referent
  exact (getProperties_extends ext generatePreview hmono
    (propertiesOf_extends ext hmono fun _ h => h) s h hmem).2.2

end WellFormed

end ObjectRepository

open ObjectRepository

end ArkToolchain
