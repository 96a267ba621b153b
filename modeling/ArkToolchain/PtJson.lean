/-
JSON values, and how the types of the protocol are read from them (`pt_json.cpp`).

An object is the list of its members.  `Add` does not replace a member, and looks for it with
its exact key; the getters are not case-sensitive.  A `Create` collects its complaints in a
text, and returns null if there are any.  What can go wrong beyond that is a `Fault`.  A member
that is found is read without a trace in the text, so that a `Create` is evaluated by rewriting
with `pure_bind`.

Of cJSON it is assumed that a getter finds the first member whose key is the same up to case,
that a member is added at the end, and that numbers are kept exactly.
-/
import ArkToolchain.ToolchainUtils
import Mathlib.Data.Rat.Defs

namespace ArkToolchain

/-- A JSON value.  Doubles stand for rational numbers; they are exact for the integers
of the protocol, and so is the number of the elements of an array. -/
inductive PtJson where
  | null
  | bool (value : Bool)
  | number (value : Rat)
  | string (value : Bytes)
  | array (elements : List PtJson)
  | object (members : List (Bytes × PtJson))

/-- What the code can run into, apart from an error that it reports. -/
inductive Fault where
  /-- `value()` of an empty `std::optional` -/
  | badOptionalAccess
  /-- a conversion to an integer type that does not have the number -/
  | castOutOfRange
  /-- an index outside of a vector -/
  | indexOutOfRange
  deriving DecidableEq

namespace PtJson

instance : Inhabited PtJson := ⟨null⟩

/-- `Result`, with the value that is set. -/
inductive Result (α : Type) where
  | success (value : α)
  | notExist
  | typeError

/-! ### Members -/

/-- The members of an object, and none of another value. -/
def members : PtJson → List (Bytes × PtJson)
  | object members => members
  | _ => []

/-- `cJSON_GetObjectItem`: the first member with the key in any case. -/
def getObjectItem (json : PtJson) (key : Bytes) : Option PtJson :=
  (json.members.find? fun m => toLowerCase m.1 = toLowerCase key).map Prod.snd

/-- `Contains`, with `cJSON_GetObjectItemCaseSensitive`. -/
def contains (json : PtJson) (key : Bytes) : Bool :=
  json.members.any fun m => m.1 = key

def createObject : PtJson := object []

/-- `Add` to an object. -/
def add (json : PtJson) (key : Bytes) (value : PtJson) : PtJson :=
  if json.contains key then json else object (json.members ++ [(key, value)])

/-- The value of a `Add(key, value.c_str())`. -/
def ofString (value : Bytes) : PtJson := string (cStr value)

def ofInt (value : Int) : PtJson := number value

/-- The members that a `ToJson` adds, in its order; one without a value is left out. -/
def ofMembers (fields : List (Bytes × Option PtJson)) : PtJson :=
  fields.foldl (fun json field => field.2.elim json (json.add field.1)) createObject

/-! ### Getters -/

/-- A getter: the member, if it is of the kind. -/
def get {α : Type} (kind : PtJson → Option α) (json : PtJson) (key : Bytes) : Result α :=
  match json.getObjectItem key with
  | none => .notExist
  | some item =>
    match kind item with
    | none => .typeError
    | some value => .success value

def isBool : PtJson → Option Bool
  | bool value => some value
  | _ => none

def isNumber : PtJson → Option Rat
  | number value => some value
  | _ => none

def isString : PtJson → Option Bytes
  | string value => some value
  | _ => none

def isObject : PtJson → Option PtJson
  | object members => some (object members)
  | _ => none

/-- The elements of an array, as `GetSize` and `Get` give them. -/
def isArray : PtJson → Option (List PtJson)
  | array elements => some elements
  | _ => none

def getBool : PtJson → Bytes → Result Bool := get isBool

def getDouble : PtJson → Bytes → Result Rat := get isNumber

def getString : PtJson → Bytes → Result Bytes := get isString

def getObject : PtJson → Bytes → Result PtJson := get isObject

def getArray : PtJson → Bytes → Result (List PtJson) := get isArray

/-- `static_cast<int32_t>` of a double. -/
def castInt32 (value : Rat) : Except Fault Int32 :=
  let n := value.num.tdiv value.den
  if -2 ^ 31 ≤ n ∧ n < 2 ^ 31 then .ok (Int32.ofInt n) else .error .castOutOfRange

/-- `static_cast<int64_t>` of a double. -/
def castInt64 (value : Rat) : Except Fault Int64 :=
  let n := value.num.tdiv value.den
  if -2 ^ 63 ≤ n ∧ n < 2 ^ 63 then .ok (Int64.ofInt n) else .error .castOutOfRange

/-- A number that was found is converted. -/
def Result.cast {α β : Type} (f : α → Except Fault β) : Result α → Except Fault (Result β)
  | .success value => (f value).map .success
  | .notExist => .ok .notExist
  | .typeError => .ok .typeError

/-- `GetInt`: the double is converted to an `int32_t`. -/
def getInt (json : PtJson) (key : Bytes) : Except Fault (Result Int32) :=
  (json.getDouble key).cast castInt32

/-- `GetInt64`. -/
def getInt64 (json : PtJson) (key : Bytes) : Except Fault (Result Int64) :=
  (json.getDouble key).cast castInt64

/-- `GetInt` of an element, with its default `0`. -/
def asInt : PtJson → Except Fault Int32
  | number value => castInt32 value
  | _ => .ok 0

/-! ### Reading a value -/

/-- The body of a `Create`: the text of `error` grows. -/
abbrev Reading := StateT Bytes (Except Fault)

/-- `error += message`. -/
def complain (message : String) : Reading Unit := modify (· ++ ascii message)

/-- A member that must be there; otherwise the `Create` complains. -/
def required {α : Type} [Inhabited α] (key : String) (ret : Except Fault (Result α)) :
    Reading α := do
  match ← (ret : Reading (Result α)) with
  | .success value => return value
  | _ =>
    complain ("Unknown or wrong type of '" ++ key ++ "';")
    return default

/-- A member that may be missing, but not have another type. -/
def optional {α : Type} (key : String) (ret : Except Fault (Result α)) : Reading (Option α) := do
  match ← (ret : Reading (Result α)) with
  | .success value => return some value
  | .notExist => return none
  | .typeError =>
    complain ("Wrong type of '" ++ key ++ "';")
    return none

/-- What a `Create` returns: a value, or null, with the text that is logged. -/
abbrev Created (α : Type) := Except Fault (Except Bytes α)

/-- The end of a `Create`. -/
def finish {α : Type} (name : String) (body : Reading α) : Except Fault (Except Bytes α) := do
  let (value, error) ← body.run []
  if error ≠ [] then return .error (ascii (name ++ "::Create ") ++ error) else return .ok value

/-- A `Create` for a part of the value. -/
def nested {α : Type} (invalid : String) (part : Created α) : Reading (Option α) := do
  match ← (part : Reading (Except Bytes α)) with
  | .ok value => return some value
  | .error _ =>
    complain invalid
    return none

/-- The elements of an array, each with its `Create`. -/
def createAll {ε α : Type} (invalid : String) (create : ε → Created α) : List ε → Reading (List α)
  | [] => return []
  | element :: elements => do
      let value ← nested invalid (create element)
      let values ← createAll invalid create elements
      return value.toList ++ values

/-- A part of the value that has to be there. -/
def requiredPart {α : Type} [Inhabited α] (key invalid : String) (create : PtJson → Created α) :
    Result PtJson → Reading α
  | .success part => do return (← nested invalid (create part)).getD default
  | _ => do
      complain ("Unknown or wrong type of '" ++ key ++ "';")
      return default

/-- An object that may be missing. -/
def optionalPart {α : Type} (key invalid : String) (create : PtJson → Created α) :
    Result PtJson → Reading (Option α)
  | .success part => nested invalid (create part)
  | .notExist => return none
  | .typeError => do
      complain ("Wrong type of '" ++ key ++ "';")
      return none

/-- An array that must be there. -/
def requiredParts {α : Type} (key invalid : String) (create : PtJson → Created α) :
    Result (List PtJson) → Reading (List α)
  | .success elements => createAll invalid create elements
  | _ => do
      complain ("Unknown or wrong type of '" ++ key ++ "';")
      return []

variable {key : Bytes}

/-- The elements of a member are smaller than the value; a `Create` for trees ends. -/
theorem sizeOf_lt_of_getArray {json element : PtJson} {elements : List PtJson}
    (h : json.getArray key = .success elements) (hmem : element ∈ elements) :
    sizeOf element < sizeOf json := by
  rw [getArray, get] at h
  cases hitem : json.getObjectItem key with
  | none =>
    rw [hitem] at h
    cases h
  | some item =>
    rw [hitem] at h
    cases item with
    | array xs =>
      obtain rfl : xs = elements := Result.success.inj h
      obtain ⟨m, hfind, hm⟩ := Option.map_eq_some_iff.mp hitem
      obtain ⟨key', value⟩ := m
      obtain rfl : value = array xs := hm
      cases json with
      | object members =>
        have hmember := List.sizeOf_lt_of_mem (List.mem_of_find?_eq_some hfind)
        have helement := List.sizeOf_lt_of_mem hmem
        simp only [PtJson.object.sizeOf_spec, Prod.mk.sizeOf_spec,
          PtJson.array.sizeOf_spec, PtJson.members] at hmember ⊢
        omega
      | _ => cases hfind
    | _ => cases h

/-! ### What has been added is found -/

/-- The keys differ in more than case, so that each member is found. -/
def DistinctKeys (fields : List (Bytes × Option PtJson)) : Prop :=
  (fields.map fun field => toLowerCase field.1).Nodup

/-- The members of an object, without those that have no value. -/
def present (fields : List (Bytes × Option PtJson)) : List (Bytes × PtJson) :=
  fields.filterMap fun field => field.2.map fun value => (field.1, value)

variable {fields : List (Bytes × Option PtJson)}

theorem mem_keys_of_mem_present {m : Bytes × PtJson} (h : m ∈ present fields) :
    toLowerCase m.1 ∈ fields.map fun field => toLowerCase field.1 := by
  obtain ⟨field, hfield, hm⟩ := List.mem_filterMap.mp h
  obtain ⟨value, -, rfl⟩ := Option.map_eq_some_iff.mp hm
  exact List.mem_map.mpr ⟨field, hfield, rfl⟩

theorem find?_present_eq_none
    (hkey : toLowerCase key ∉ fields.map fun field => toLowerCase field.1) :
    (present fields).find? (fun m => toLowerCase m.1 = toLowerCase key) = none := by
  rw [List.find?_eq_none]
  intro m hm heq
  exact hkey (of_decide_eq_true heq ▸ mem_keys_of_mem_present hm)

/-- `Add` never meets its key. -/
theorem foldl_add (h : DistinctKeys fields) (ms : List (Bytes × PtJson))
    (hms : ∀ m ∈ ms, ∀ field ∈ fields, toLowerCase m.1 ≠ toLowerCase field.1) :
    fields.foldl (fun json field => field.2.elim json (json.add field.1)) (object ms)
      = object (ms ++ present fields) := by
  induction fields generalizing ms with
  | nil => rw [present, List.filterMap_nil, List.append_nil, List.foldl_nil]
  | cons field fields ih =>
    obtain ⟨key, v⟩ := field
    obtain ⟨hnotMem, hfields⟩ := List.nodup_cons.mp h
    rw [List.foldl_cons]
    cases v with
    | none =>
      exact ih hfields ms fun m hm field hfield =>
        hms m hm field (List.mem_cons_of_mem _ hfield)
    | some value =>
      have hadd : (object ms).add key value = object (ms ++ [(key, value)]) := by
        have hnot : ¬ (object ms).contains key = true := by
          intro hcontains
          obtain ⟨m, hm, hkey⟩ := List.any_eq_true.mp hcontains
          exact hms m hm _ List.mem_cons_self (congrArg toLowerCase (of_decide_eq_true hkey))
        rw [add, if_neg hnot]
        rfl
      rw [Option.elim_some, hadd, ih hfields]
      · rw [List.append_assoc]
        rfl
      · intro m hm field hfield
        rcases List.mem_append.mp hm with hm | hm
        · exact hms m hm field (List.mem_cons_of_mem _ hfield)
        · obtain rfl := List.mem_singleton.mp hm
          exact fun heq => hnotMem (List.mem_map.mpr ⟨field, hfield, heq.symm⟩)

theorem ofMembers_eq (h : DistinctKeys fields) : ofMembers fields = object (present fields) :=
  foldl_add h [] nofun

/-- **A getter finds** what has been added under its key. -/
theorem getObjectItem_ofMembers (h : DistinctKeys fields) {value : Option PtJson}
    (hmem : (key, value) ∈ fields) : (ofMembers fields).getObjectItem key = value := by
  rw [ofMembers_eq h, getObjectItem, members]
  induction fields with
  | nil => cases hmem
  | cons field fields ih =>
    obtain ⟨hnotMem, hfields⟩ := List.nodup_cons.mp h
    rcases List.mem_cons.mp hmem with rfl | hmem
    · cases value with
      | some value => rw [present, List.filterMap_cons]; simp
      | none =>
        exact congrArg (Option.map Prod.snd) (find?_present_eq_none hnotMem)
    · have hne : toLowerCase field.1 ≠ toLowerCase key :=
        fun heq => hnotMem (List.mem_map.mpr ⟨_, hmem, heq.symm⟩)
      rw [← ih hfields hmem]
      obtain ⟨key', v⟩ := field
      cases v with
      | none => rfl
      | some v => simp [present, hne]

/-! ### Numbers -/

theorem castInt32_toInt (n : Int32) : castInt32 (n.toInt : Int) = .ok n := by
  have hlow := n.le_toInt
  have hhigh := n.toInt_lt
  simp only [castInt32, Rat.num_intCast, Rat.den_intCast, Nat.cast_one, Int.tdiv_one]
  rw [if_pos ⟨hlow, hhigh⟩, Int32.ofInt_toInt]

theorem castInt64_toInt (n : Int64) : castInt64 (n.toInt : Int) = .ok n := by
  have hlow := n.le_toInt
  have hhigh := n.toInt_lt
  simp only [castInt64, Rat.num_intCast, Rat.den_intCast, Nat.cast_one, Int.tdiv_one]
  rw [if_pos ⟨hlow, hhigh⟩, Int64.ofInt_toInt]

theorem asInt_ofInt (n : Int32) : asInt (ofInt n.toInt) = .ok n := castInt32_toInt n

/-! ### Getters on what has been added -/

def Result.ofOption {α : Type} : Option α → Result α
  | some value => .success value
  | none => .notExist

section ofMembers

variable {fields : List (Bytes × Option PtJson)} (h : DistinctKeys fields) {k : Bytes}

include h

theorem get_ofMembers {α β : Type} (kind : PtJson → Option α) (write : β → PtJson) (read : β → α)
    (hkind : ∀ b, kind (write b) = some (read b)) {v : Option β}
    (hmem : (k, v.map write) ∈ fields) :
    get kind (ofMembers fields) k = .ofOption (v.map read) := by
  rw [get, getObjectItem_ofMembers h hmem]
  cases v with
  | none => rfl
  | some b =>
    rw [Option.map_some, Option.map_some]
    dsimp only
    rw [hkind]
    rfl

theorem get_ofMembers_eq_notExist {α : Type} (kind : PtJson → Option α)
    (hkey : toLowerCase k ∉ fields.map fun field => toLowerCase field.1) :
    get kind (ofMembers fields) k = .notExist := by
  rw [get, ofMembers_eq h, getObjectItem, members, find?_present_eq_none hkey]
  rfl

theorem getString_ofMembers {v : Option Bytes} (hmem : (k, v.map ofString) ∈ fields) :
    (ofMembers fields).getString k = .ofOption (v.map cStr) :=
  get_ofMembers h isString ofString cStr (fun _ => rfl) hmem

theorem getArray_ofMembers {v : Option (List PtJson)} (hmem : (k, v.map array) ∈ fields) :
    (ofMembers fields).getArray k = .ofOption v := by
  have hget : (ofMembers fields).getArray k = .ofOption (v.map id) :=
    get_ofMembers h isArray array id (fun _ => rfl) hmem
  rwa [Option.map_id_apply] at hget

theorem getInt_ofMembers {v : Option Int32} (hmem : (k, v.map fun n => ofInt n.toInt) ∈ fields) :
    (ofMembers fields).getInt k = .ok (.ofOption v) := by
  rw [getInt, getDouble, get_ofMembers h isNumber _ (fun n => (n.toInt : Rat)) (fun _ => rfl) hmem]
  cases v with
  | none => rfl
  | some n =>
    show (castInt32 _).map _ = _
    rw [castInt32_toInt]
    rfl

theorem getInt64_ofMembers {v : Option Int64} (hmem : (k, v.map fun n => ofInt n.toInt) ∈ fields) :
    (ofMembers fields).getInt64 k = .ok (.ofOption v) := by
  rw [getInt64, getDouble,
    get_ofMembers h isNumber _ (fun n => (n.toInt : Rat)) (fun _ => rfl) hmem]
  cases v with
  | none => rfl
  | some n =>
    show (castInt64 _).map _ = _
    rw [castInt64_toInt]
    rfl

theorem isObject_ofMembers : isObject (ofMembers fields) = some (ofMembers fields) := by
  rw [ofMembers_eq h, isObject]

theorem getObject_ofMembers {α : Type} (parts : α → List (Bytes × Option PtJson))
    (hparts : ∀ a, DistinctKeys (parts a)) {v : Option α}
    (hmem : (k, v.map fun a => ofMembers (parts a)) ∈ fields) :
    (ofMembers fields).getObject k = .ofOption (v.map fun a => ofMembers (parts a)) :=
  get_ofMembers h isObject _ _ (fun a => isObject_ofMembers (hparts a)) hmem

end ofMembers

/-! ### Reading what has been added -/

section Reading

variable {α : Type} {key : String} {ret : Except Fault (Result α)}

theorem required_eq [Inhabited α] {value : α} (h : ret = .ok (.ofOption (some value))) :
    required key ret = pure value := by
  rw [h]
  rfl

variable {value : Option α}

theorem optional_eq (h : ret = .ok (.ofOption value)) : optional key ret = pure value := by
  rw [h]
  cases value with
  | none | some value => rfl

section ofMembers

variable {fields : List (Bytes × Option PtJson)} (h : DistinctKeys fields) {key : String}

include h

theorem required_string {t : Bytes} (hmem : (ascii key, some (ofString t)) ∈ fields) :
    required key (.ok ((ofMembers fields).getString (ascii key))) = pure (cStr t) :=
  required_eq (congrArg Except.ok (getString_ofMembers h (v := some t) hmem))

theorem required_int {n : Int32} (hmem : (ascii key, some (ofInt n.toInt)) ∈ fields) :
    required key ((ofMembers fields).getInt (ascii key)) = pure n :=
  required_eq (getInt_ofMembers h (v := some n) hmem)

theorem required_int64 {n : Int64} (hmem : (ascii key, some (ofInt n.toInt)) ∈ fields) :
    required key ((ofMembers fields).getInt64 (ascii key)) = pure n :=
  required_eq (getInt64_ofMembers h (v := some n) hmem)

theorem optional_string {t : Option Bytes} (hmem : (ascii key, t.map ofString) ∈ fields) :
    optional key (.ok ((ofMembers fields).getString (ascii key))) = pure (t.map cStr) :=
  optional_eq (congrArg Except.ok (getString_ofMembers h hmem))

theorem optional_int {n : Option Int32}
    (hmem : (ascii key, n.map fun n => ofInt n.toInt) ∈ fields) :
    optional key ((ofMembers fields).getInt (ascii key)) = pure n :=
  optional_eq (getInt_ofMembers h hmem)

end ofMembers

theorem finish_pure (name : String) (value : α) : finish name (pure value) = .ok (.ok value) := rfl

theorem nested_ok (invalid : String) (value : α) :
    nested invalid (.ok (.ok value)) = pure (some value) := rfl

variable {invalid : String}

theorem createAll_map {β ε : Type} {create : ε → Created α} {write : β → ε} (read : β → α)
    {values : List β} (h : ∀ v ∈ values, create (write v) = .ok (.ok (read v))) :
    createAll invalid create (values.map write) = pure (values.map read) := by
  induction values with
  | nil => rfl
  | cons v values ih =>
    rw [List.map_cons, createAll, h v List.mem_cons_self, nested_ok, pure_bind,
      ih fun v' hv' => h v' (List.mem_cons_of_mem _ hv'), pure_bind]
    rfl

theorem createAll_attach {ε : Type} (invalid : String) (create : ε → Created α)
    (elements : List ε) :
    createAll invalid (fun e => create e.1) elements.attach
      = createAll invalid create elements := by
  have hmap : ∀ {γ : Type} (g : γ → ε) (xs : List γ),
      createAll invalid (fun x => create (g x)) xs = createAll invalid create (xs.map g) := by
    intro γ g xs
    induction xs with
    | nil => rfl
    | cons x xs ih => rw [List.map_cons, createAll, createAll, ih]
  rw [hmap, List.attach_map_subtype_val]

variable {create : PtJson → Created α}

theorem requiredPart_eq [Inhabited α] {ret : Result PtJson} {part : PtJson} {value : α}
    (h : ret = .ofOption (some part)) (hpart : create part = .ok (.ok value)) :
    requiredPart key invalid create ret = pure value := by
  rw [h]
  show (do return (← nested invalid (create part)).getD default) = _
  rw [hpart]
  rfl

variable {write : α → PtJson}

theorem optionalPart_eq {ret : Result PtJson} (h : ret = .ofOption (value.map write))
    (hpart : ∀ v ∈ value, create (write v) = .ok (.ok v)) :
    optionalPart key invalid create ret = pure value := by
  rw [h]
  cases value with
  | none => rfl
  | some value =>
    show nested invalid (create (write value)) = _
    rw [hpart value rfl]
    rfl

theorem requiredParts_eq {ret : Result (List PtJson)} {values : List α}
    (h : ret = .ofOption (some (values.map write)))
    (hpart : ∀ v ∈ values, create (write v) = .ok (.ok v)) :
    requiredParts key invalid create ret = pure values := by
  rw [h]
  show createAll invalid create (values.map write) = _
  rw [createAll_map id hpart, List.map_id]

end Reading

/-! ### Reading what may be turned down -/

/-- The part reads the value, without a complaint exactly if the condition holds. -/
def Accepts {α : Type} (part : Reading α) (condition : Prop) (value : α) : Prop :=
  ∃ error read, (∀ s, part s = .ok (read, s ++ error)) ∧
    (condition → error = [] ∧ read = value) ∧ (¬ condition → error ≠ [])

/-- The same for a whole `Create`: it returns the value, or null. -/
def CreatesIff {α : Type} (created : Created α) (condition : Prop) (value : α) : Prop :=
  (condition → created = .ok (.ok value)) ∧ (¬ condition → ∃ error, created = .ok (.error error))

section Accepts

variable {α β : Type} {c d : Prop}

theorem Accepts.pure (value : α) : Accepts (pure value : Reading α) True value :=
  ⟨[], value, fun s => by rw [List.append_nil]; rfl, fun _ => ⟨rfl, rfl⟩, fun h => absurd trivial h⟩

variable {value : α} {part : Reading α}

theorem Accepts.bind {next : α → Reading β} {result : α → β} (hpart : Accepts part c value)
    (hnext : ∀ read, Accepts (next read) d (result read)) :
    Accepts (part >>= next) (c ∧ d) (result value) := by
  obtain ⟨error, read, hrun, hyes, hno⟩ := hpart
  obtain ⟨error', read', hrun', hyes', hno'⟩ := hnext read
  refine ⟨error ++ error', read', fun s => ?_, ?_, ?_⟩
  · show (part s >>= fun r => next r.1 r.2) = _
    rw [hrun, ← List.append_assoc, ← hrun']
    rfl
  · rintro ⟨hc, hd⟩
    obtain ⟨rfl, rfl⟩ := hyes hc
    obtain ⟨rfl, rfl⟩ := hyes' hd
    exact ⟨rfl, rfl⟩
  · intro h hnil
    obtain ⟨herror, herror'⟩ := List.append_eq_nil_iff.mp hnil
    by_cases hc : c
    · exact hno' (fun hd => h ⟨hc, hd⟩) herror'
    · exact hno hc herror

theorem Accepts.congr (h : Accepts part c value) (hcd : c ↔ d) : Accepts part d value := by
  obtain ⟨error, read, hrun, hyes, hno⟩ := h
  exact ⟨error, read, hrun, fun hd => hyes (hcd.mpr hd), fun hd => hno fun hc => hd (hcd.mp hc)⟩

theorem CreatesIff.of_finish {name : String} (h : Accepts part c value) :
    CreatesIff (finish name part) c value := by
  obtain ⟨error, read, hrun, hyes, hno⟩ := h
  have hfinish : finish name part = if error ≠ [] then
      .ok (.error (ascii (name ++ "::Create ") ++ error)) else .ok (.ok read) := by
    show (part [] >>= fun r => _) = _
    rw [hrun]
    show (if [] ++ error ≠ [] then _ else _) = _
    rw [List.nil_append]
    split <;> rfl
  rw [hfinish]
  constructor
  · intro hc
    obtain ⟨rfl, rfl⟩ := hyes hc
    rfl
  · intro hc
    rw [if_pos (hno hc)]
    exact ⟨_, rfl⟩

theorem CreatesIff.eq_iff {created : Created α} (h : CreatesIff created c value) {v : α} :
    created = .ok (.ok v) ↔ c ∧ value = v := by
  by_cases hc : c
  · rw [h.1 hc]
    simp [hc]
  · obtain ⟨error, herror⟩ := h.2 hc
    simp [herror, hc]

variable {invalid : String}

theorem Accepts.of_nested (hinvalid : ascii invalid ≠ []) {created : Created α}
    (h : CreatesIff created c value) : Accepts (nested invalid created) c (some value) := by
  by_cases hc : c
  · rw [h.1 hc]
    exact (Accepts.pure (some value)).congr (iff_of_true trivial hc)
  · obtain ⟨error, herror⟩ := h.2 hc
    rw [herror]
    exact ⟨ascii invalid, none, fun s => rfl, fun h => absurd h hc, fun _ => hinvalid⟩

variable {condition : α → Prop} {read : α → β} {values : List α}

theorem Accepts.of_createAll {ε : Type} (hinvalid : ascii invalid ≠ []) {create : ε → Created β}
    {write : α → ε} (h : ∀ v ∈ values, CreatesIff (create (write v)) (condition v) (read v)) :
    Accepts (createAll invalid create (values.map write)) (∀ v ∈ values, condition v)
      (values.map read) := by
  induction values with
  | nil => exact (Accepts.pure []).congr (by simp)
  | cons v values ih =>
    have hrest := ih fun v' hv' => h v' (List.mem_cons_of_mem _ hv')
    have hhead := Accepts.of_nested hinvalid (h v List.mem_cons_self)
    have hbind := hhead.bind fun value => hrest.bind fun vs => Accepts.pure (value.toList ++ vs)
    exact hbind.congr (by simp)

variable {ret : Result PtJson} {key : String}

theorem Accepts.of_requiredPart [Inhabited α] (hinvalid : ascii invalid ≠ [])
    {create : PtJson → Created α} {part : PtJson} (h : ret = .ofOption (some part))
    (hpart : CreatesIff (create part) c value) :
    Accepts (requiredPart key invalid create ret) c value := by
  rw [h]
  have hbind := (Accepts.of_nested hinvalid hpart).bind fun v => Accepts.pure (v.getD default)
  exact hbind.congr (by rw [and_true])

variable {create : PtJson → Created β} {write : α → PtJson}

theorem Accepts.of_optionalPart (hinvalid : ascii invalid ≠ []) {value : Option α}
    (h : ret = .ofOption (value.map write))
    (hpart : ∀ v ∈ value, CreatesIff (create (write v)) (condition v) (read v)) :
    Accepts (optionalPart key invalid create ret) (∀ v ∈ value, condition v) (value.map read) := by
  rw [h]
  cases value with
  | none => exact (Accepts.pure none).congr (by simp)
  | some v => exact (Accepts.of_nested hinvalid (hpart v rfl)).congr (by simp)

theorem Accepts.of_requiredParts (hinvalid : ascii invalid ≠ []) {ret : Result (List PtJson)}
    (h : ret = .ofOption (some (values.map write)))
    (hpart : ∀ v ∈ values, CreatesIff (create (write v)) (condition v) (read v)) :
    Accepts (requiredParts key invalid create ret) (∀ v ∈ values, condition v)
      (values.map read) := by
  rw [h]
  exact Accepts.of_createAll hinvalid hpart

end Accepts

end PtJson

end ArkToolchain
