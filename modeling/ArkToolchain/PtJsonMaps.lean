/-
`PtJson` objects as finite maps (`Add`, `Remove`, `Contains` and the getters of `pt_json.cpp`).

`Contains`, and with it `Add` and the test of `Remove`, compares keys exactly.  The getters, and
the deletion in `Remove`, ignore case and take the first member that they meet.  `Tracked` keeps
the map that the operations with the result `true` should have left.

Integers are stored as doubles, and an `int64_t` is rounded to 53 bits (`toDouble`).

Main result: `ptJson_map_iff`.
-/
import ArkToolchain.PtJson
import ArkToolchain.Traces
import Mathlib.Data.Set.Basic
import Mathlib.Logic.Function.Basic

namespace ArkToolchain

namespace PtJson

/-! ### Numbers -/

/-- The double next to a natural number; of two that are equally near, the even one. -/
def roundNat (n : Nat) : Nat :=
  let unit := 2 ^ (n.log2 - 52)
  let q := n / unit
  let r := n % unit
  if unit < 2 * r ∨ unit = 2 * r ∧ q % 2 = 1 then (q + 1) * unit else q * unit

/-- `static_cast<double>` of an integer. -/
def toDouble (n : Int) : Rat := ((n.sign * roundNat n.natAbs : Int) : Rat)

/-- `static_cast<uint32_t>` of a double. -/
def castUInt32 (value : Rat) : Except Fault UInt32 :=
  let n := value.num.tdiv value.den
  if 0 ≤ n ∧ n < 2 ^ 32 then .ok (UInt32.ofNat n.toNat) else .error .castOutOfRange

/-- `static_cast<uint64_t>` of a double. -/
def castUInt64 (value : Rat) : Except Fault UInt64 :=
  let n := value.num.tdiv value.den
  if 0 ≤ n ∧ n < 2 ^ 64 then .ok (UInt64.ofNat n.toNat) else .error .castOutOfRange

/-! ### Operations -/

/-- `cJSON_DeleteItemFromObject`: the first member with the key in any case. -/
def deleteItemFromObject (json : PtJson) (key : Bytes) : PtJson :=
  object (json.members.eraseP fun m => toLowerCase m.1 = toLowerCase key)

def remove (json : PtJson) (key : Bytes) : PtJson :=
  if json.contains key then json.deleteItemFromObject key else json

def getUInt (json : PtJson) (key : Bytes) : Except Fault (Result UInt32) :=
  (json.getDouble key).cast castUInt32

def getUInt64 (json : PtJson) (key : Bytes) : Except Fault (Result UInt64) :=
  (json.getDouble key).cast castUInt64

def getAny : PtJson → Bytes → Result PtJson := get some

/-- What an `Add` is given; `json` is the node of another `PtJson`. -/
inductive Value
  | bool (value : Bool)
  | int32 (value : Int32)
  | int64 (value : Int64)
  | uint32 (value : UInt32)
  | double (value : Rat)
  | string (value : Bytes)
  | json (value : PtJson)

/-- The node that is linked into the object. -/
def Value.node : Value → PtJson
  | .bool value => .bool value
  | .int32 value => .number (toDouble value.toInt)
  | .int64 value => .number (toDouble value.toInt)
  | .uint32 value => .number (toDouble value.toNat)
  | .double value => .number value
  | .string value => .string value
  | .json value => value

/-- The getters with a key. -/
inductive Getter : Type → Type 1
  | getBool : Getter Bool
  | getInt : Getter Int32
  | getInt64 : Getter Int64
  | getUInt : Getter UInt32
  | getUInt64 : Getter UInt64
  | getDouble : Getter Rat
  | getString : Getter Bytes
  | getObject : Getter PtJson
  | getArray : Getter (List PtJson)
  | getAny : Getter PtJson

namespace Getter

def run {α : Type} : Getter α → PtJson → Bytes → Except Fault (Result α)
  | getBool, json, key => .ok (json.getBool key)
  | getInt, json, key => json.getInt key
  | getInt64, json, key => json.getInt64 key
  | getUInt, json, key => json.getUInt key
  | getUInt64, json, key => json.getUInt64 key
  | getDouble, json, key => .ok (json.getDouble key)
  | getString, json, key => .ok (json.getString key)
  | getObject, json, key => .ok (json.getObject key)
  | getArray, json, key => .ok (json.getArray key)
  | getAny, json, key => .ok (json.getAny key)

/-- The value that has been added, if it is of the type of the getter. -/
def valueOf {α : Type} : Getter α → Value → Option α
  | getBool, .bool value => some value
  | getInt, .int32 value => some value
  | getInt64, .int64 value => some value
  | getUInt, .uint32 value => some value
  | getDouble, .double value => some value
  | getString, .string value => some value
  | getObject, .json (.object members) => some (.object members)
  | getArray, .json (.array elements) => some elements
  | getAny, value => some value.node
  | _, _ => none

end Getter

inductive Operation : Type 1
  | add (key : Bytes) (value : Value)
  | remove (key : Bytes)
  | contains (key : Bytes)
  | get {α : Type} (getter : Getter α) (key : Bytes)

namespace Operation

def key : Operation → Bytes
  | add key _ => key
  | remove key => key
  | contains key => key
  | get _ key => key

def value? : Operation → Option Value
  | add _ value => some value
  | _ => none

end Operation

/-! ### The map -/

/-- An object, with the map that the operations on it have left. -/
structure Tracked where
  json : PtJson := createObject
  map : Bytes → Option Value := fun _ => none

namespace Tracked

/-- `Add` has an effect if the key is not there, and `Remove` if it is. -/
def step (s : Tracked) : Operation → Tracked
  | .add key value =>
    { json := s.json.add key value.node
      map := if s.json.contains key then s.map else Function.update s.map key (some value) }
  | .remove key =>
    { json := s.json.remove key
      map := if s.json.contains key then Function.update s.map key none else s.map }
  | .contains _ => s
  | .get _ _ => s

/-- The operation is answered as the map would answer it. -/
def Answers (s : Tracked) : Operation → Prop
  | .contains key => s.json.contains key = (s.map key).isSome
  | .get getter key =>
    (getter.run s.json key = .ok .notExist ↔ s.map key = none)
      ∧ ∀ value, (s.map key).bind getter.valueOf = some value →
        getter.run s.json key = .ok (.success value)
  | _ => True

end Tracked

/-- A new object answers all operations as the map does. -/
def BehavesAsMap (ops : List Operation) : Prop :=
  Admits Tracked.step Tracked.Answers {} ops

def CaseDistinct (keys : Set Bytes) : Prop :=
  ∀ key ∈ keys, ∀ key' ∈ keys, toLowerCase key = toLowerCase key' → key = key'

/-- The value is a double, if it is stored as one. -/
def Value.Exact : Value → Prop
  | .int64 value => toDouble value.toInt = value.toInt
  | _ => True

/-! ### Rounding -/

theorem roundNat_of_lt {n : Nat} (h : n < 2 ^ 53) : roundNat n = n := by
  have hlog : n.log2 - 52 = 0 := by
    by_cases h₀ : n = 0
    · rw [h₀]
      rfl
    · have := (Nat.log2_lt h₀).mpr h
      omega
  simp [roundNat, hlog, Nat.mod_one]

theorem toDouble_of_lt {n : Int} (h : n.natAbs < 2 ^ 53) : toDouble n = n := by
  rw [toDouble, roundNat_of_lt h, Int.sign_mul_natAbs]

theorem castInt32_toDouble (n : Int32) : castInt32 (toDouble n.toInt) = .ok n := by
  have hlow := n.le_toInt
  have hhigh := n.toInt_lt
  rw [toDouble_of_lt (by omega), castInt32_toInt]

theorem castUInt32_toDouble (n : UInt32) : castUInt32 (toDouble n.toNat) = .ok n := by
  have hlt := n.toNat_lt
  rw [toDouble_of_lt (by omega)]
  simp only [castUInt32, Rat.num_intCast, Rat.den_intCast, Nat.cast_one, Int.tdiv_one]
  rw [if_pos (by omega), Int.toNat_natCast, UInt32.ofNat_toNat]

theorem castInt64_toDouble_iff (n : Int64) :
    castInt64 (toDouble n.toInt) = .ok n ↔ toDouble n.toInt = n.toInt := by
  constructor
  · intro h
    rw [toDouble] at h ⊢
    simp only [castInt64, Rat.num_intCast, Rat.den_intCast, Nat.cast_one, Int.tdiv_one] at h
    split at h
    next hrange =>
        have hn := congrArg Int64.toInt (Except.ok.inj h)
        rw [Int64.toInt_ofInt_of_le hrange.1 hrange.2] at hn
        rw [hn]
    next => cases h
  · intro h
    rw [h, castInt64_toInt]

/-! ### Looking for a key -/

theorem contains_eq_lookup (json : PtJson) (key : Bytes) :
    json.contains key = (json.members.lookup key).isSome := by
  rw [Bool.eq_iff_iff, contains, List.any_eq_true, List.lookup_isSome_iff]
  refine exists_congr fun m => and_congr_right fun _ => ?_
  rw [decide_eq_true_iff, beq_iff_eq, eq_comm]

variable {keys : Set Bytes} {key key' : Bytes}

/-- In a set without keys that differ in case only, the comparison that ignores case is the
exact one. -/
theorem toLowerCase_eq_iff (h : CaseDistinct keys) (hkey : key ∈ keys) (hkey' : key' ∈ keys) :
    toLowerCase key = toLowerCase key' ↔ key = key' :=
  ⟨h key hkey key' hkey', congrArg toLowerCase⟩

variable {ms : List (Bytes × PtJson)}

theorem find?_eq_lookup (h : CaseDistinct keys) (hkeys : ∀ m ∈ ms, m.1 ∈ keys) (hkey : key ∈ keys) :
    (ms.find? fun m => toLowerCase m.1 = toLowerCase key).map Prod.snd = ms.lookup key := by
  induction ms with
  | nil => rfl
  | cons m ms ih =>
    have hm := toLowerCase_eq_iff h (hkeys m List.mem_cons_self) hkey
    rw [List.lookup_cons, ← ih fun m' hm' => hkeys m' (.tail _ hm')]
    by_cases heq : m.1 = key
    · simp [heq]
    · rw [List.find?_cons_of_neg (by simpa [hm] using heq), beq_eq_false_iff_ne.mpr (Ne.symm heq)]

theorem lookup_eraseP (h : CaseDistinct keys) (hkeys : ∀ m ∈ ms, m.1 ∈ keys)
    (hnodup : (ms.map Prod.fst).Nodup) (hkey : key ∈ keys) (key' : Bytes) :
    (ms.eraseP fun m => toLowerCase m.1 = toLowerCase key).lookup key'
      = if key' = key then none else ms.lookup key' := by
  induction ms with
  | nil => simp
  | cons m ms ih =>
    obtain ⟨hnotMem, hnodup⟩ := List.nodup_cons.mp hnodup
    have hm := toLowerCase_eq_iff h (hkeys m List.mem_cons_self) hkey
    by_cases heq : m.1 = key
    · rw [List.eraseP_cons_of_pos (by simpa [hm] using heq)]
      split_ifs with hkey'
      · -- no other member has the key
        rw [List.lookup_eq_none_iff]
        intro m' hm'
        rw [bne_iff_ne, hkey', ← heq]
        exact fun h => hnotMem (h ▸ List.mem_map_of_mem hm')
      · rw [List.lookup_cons, beq_eq_false_iff_ne.mpr (heq ▸ hkey')]
    · rw [List.eraseP_cons_of_neg (by simpa [hm] using heq), List.lookup_cons, List.lookup_cons,
        ih (fun m' hm' => hkeys m' (.tail _ hm')) hnodup]
      by_cases hkey' : key' = m.1
      · simp [hkey', heq]
      · rw [beq_eq_false_iff_ne.mpr hkey']

/-! ### The invariant -/

/-- The members are the map. -/
structure Represents (keys : Set Bytes) (ms : List (Bytes × PtJson))
    (map : Bytes → Option Value) : Prop where
  keys : ∀ m ∈ ms, m.1 ∈ keys
  nodup : (ms.map Prod.fst).Nodup
  lookup : ∀ key, ms.lookup key = (map key).map Value.node
  exact : ∀ key value, map key = some value → value.Exact

theorem represents_nil : Represents keys [] fun _ => none where
  keys := by simp
  nodup := List.nodup_nil
  lookup _ := rfl
  exact _ _ h := by cases h

variable {ms : List (Bytes × PtJson)} {map : Bytes → Option Value} {key : Bytes} {value : Value}

theorem Represents.append (h : Represents keys ms map) (hnone : map key = none)
    (hkey : key ∈ keys) (hexact : value.Exact) :
    Represents keys (ms ++ [(key, value.node)]) (Function.update map key (some value)) where
  keys m hm := by
    rcases List.mem_append.mp hm with hm | hm
    · exact h.keys m hm
    · rw [List.mem_singleton.mp hm]
      exact hkey
  nodup := by
    have hnotMem : key ∉ ms.map Prod.fst := by
      intro hmem
      obtain ⟨m, hm, rfl⟩ := List.mem_map.mp hmem
      have hlookup := h.lookup m.1
      rw [hnone, Option.map_none, List.lookup_eq_none_iff] at hlookup
      exact absurd (hlookup m hm) (by simp)
    rw [List.map_append]
    exact List.nodup_append_comm.mp (List.nodup_cons.mpr ⟨hnotMem, h.nodup⟩)
  lookup key' := by
    rw [List.lookup_append, h.lookup]
    by_cases heq : key' = key
    · rw [heq, hnone, Function.update_self]
      simp
    · rw [Function.update_of_ne heq, List.lookup_cons, beq_eq_false_iff_ne.mpr heq]
      simp
  exact := (Function.forall_update_iff map fun _ v => ∀ value', v = some value' → value'.Exact).mpr
    ⟨fun _ hvalue' => Option.some.inj hvalue' ▸ hexact, fun key' _ => h.exact key'⟩

theorem Represents.eraseP (hdistinct : CaseDistinct keys) (h : Represents keys ms map)
    (hkey : key ∈ keys) :
    Represents keys (ms.eraseP fun m => toLowerCase m.1 = toLowerCase key)
      (Function.update map key none) where
  keys m hm := h.keys m (List.mem_of_mem_eraseP hm)
  nodup := (List.eraseP_sublist.map _).nodup h.nodup
  lookup key' := by
    rw [lookup_eraseP hdistinct h.keys h.nodup hkey, h.lookup]
    by_cases heq : key' = key
    · rw [if_pos heq, heq, Function.update_self, Option.map_none]
    · rw [if_neg heq, Function.update_of_ne heq]
  exact := (Function.forall_update_iff map fun _ v => ∀ value, v = some value → value.Exact).mpr
    ⟨nofun, fun key' _ => h.exact key'⟩

theorem Represents.contains {json : PtJson} (h : Represents keys json.members map)
    (key : Bytes) : json.contains key = (map key).isSome := by
  rw [contains_eq_lookup, h.lookup, Option.isSome_map]

theorem Represents.getObjectItem (hdistinct : CaseDistinct keys) {json : PtJson}
    (h : Represents keys json.members map) (hkey : key ∈ keys) :
    json.getObjectItem key = (map key).map Value.node := by
  rw [PtJson.getObjectItem, find?_eq_lookup hdistinct h.keys hkey, h.lookup]

variable {s : Tracked} {op : Operation}

/-- **One operation** keeps the members and the map together. -/
theorem Represents.step (hdistinct : CaseDistinct keys) (h : Represents keys s.json.members s.map)
    (hkey : op.key ∈ keys) (hexact : ∀ value, op.value? = some value → value.Exact) :
    Represents keys (s.step op).json.members (s.step op).map := by
  cases op with
  | add key value =>
    simp only [Tracked.step, PtJson.add]
    have hcontains := h.contains key
    by_cases hsome : s.json.contains key = true
    · rw [if_pos hsome, if_pos hsome]
      exact h
    · rw [if_neg hsome, if_neg hsome]
      rw [hcontains, Option.not_isSome_iff_eq_none] at hsome
      exact h.append hsome hkey (hexact value rfl)
  | remove key =>
    simp only [Tracked.step, PtJson.remove]
    split
    · exact h.eraseP hdistinct hkey
    · exact h
  | contains key | get getter key => exact h

/-! ### Getters -/

section Getters

variable {α : Type} {json item : PtJson} (getter : Getter α)

theorem Getter.run_of_none (h : json.getObjectItem key = none) :
    getter.run json key = .ok .notExist := by
  cases getter <;>
    simp only [Getter.run, PtJson.getBool, PtJson.getInt, PtJson.getInt64, PtJson.getUInt,
      PtJson.getUInt64, PtJson.getDouble, PtJson.getString, PtJson.getObject, PtJson.getArray,
      PtJson.getAny, PtJson.get, h, Result.cast]

theorem get_ne_notExist (kind : PtJson → Option α) (h : json.getObjectItem key = some item) :
    PtJson.get kind json key ≠ .notExist := by
  rw [PtJson.get, h]
  dsimp only
  cases kind item with
  | none | some value => simp

theorem Result.cast_ne_notExist {β : Type} {f : α → Except Fault β} {result : Result α}
    (h : result ≠ .notExist) : result.cast f ≠ .ok .notExist := by
  cases result with
  | success value =>
    rw [Result.cast]
    cases f value with
    | error fault | ok value => simp [Except.map]
  | notExist => exact absurd rfl h
  | typeError => simp [Result.cast]

theorem Getter.run_of_some (h : json.getObjectItem key = some item) :
    getter.run json key ≠ .ok .notExist := by
  have hok : ∀ {β : Type} (kind : PtJson → Option β),
      (Except.ok (PtJson.get kind json key) : Except Fault _) ≠ .ok .notExist := by
    intro β kind heq
    exact get_ne_notExist kind h (Except.ok.inj heq)
  cases getter with
  | getInt | getInt64 | getUInt | getUInt64 =>
    exact Result.cast_ne_notExist (get_ne_notExist isNumber h)
  | _ => exact hok _

variable {a : α}

theorem get_of_kind {kind : PtJson → Option α} (h : json.getObjectItem key = some item)
    (hkind : kind item = some a) : PtJson.get kind json key = .success a := by
  rw [PtJson.get, h]
  dsimp only
  rw [hkind]

theorem cast_getDouble {number : Rat} {f : Rat → Except Fault α}
    (h : json.getObjectItem key = some (.number number)) (hf : f number = .ok a) :
    (json.getDouble key).cast f = .ok (.success a) := by
  have hget : json.getDouble key = .success number := get_of_kind h rfl
  rw [hget, Result.cast, hf]
  rfl

theorem Getter.run_valueOf (h : json.getObjectItem key = some value.node)
    (ha : getter.valueOf value = some a) (hexact : value.Exact) :
    getter.run json key = .ok (.success a) := by
  cases getter <;> cases value
  case getInt.int32 n =>
    obtain rfl := Option.some.inj ha
    exact cast_getDouble h (castInt32_toDouble n)
  case getInt64.int64 n =>
    obtain rfl := Option.some.inj ha
    exact cast_getDouble h ((castInt64_toDouble_iff n).mpr hexact)
  case getUInt.uint32 n =>
    obtain rfl := Option.some.inj ha
    exact cast_getDouble h (castUInt32_toDouble n)
  case getObject.json node | getArray.json node =>
    cases node <;> exact congrArg Except.ok (get_of_kind h ha)
  all_goals first | exact congrArg Except.ok (get_of_kind h ha) | cases ha

end Getters

/-! ### Objects are maps -/

theorem Represents.answers (hdistinct : CaseDistinct keys)
    (h : Represents keys s.json.members s.map) (hkey : op.key ∈ keys) : s.Answers op := by
  cases op with
  | add key value | remove key => trivial
  | contains key => exact h.contains key
  | get getter key =>
    have hitem := h.getObjectItem hdistinct hkey
    cases hmap : s.map key with
    | none =>
      rw [show (Operation.get getter key).key = key from rfl, hmap, Option.map_none] at hitem
      refine ⟨iff_of_true (getter.run_of_none hitem) hmap, fun value hvalue => ?_⟩
      rw [hmap] at hvalue
      cases hvalue
    | some value =>
      rw [show (Operation.get getter key).key = key from rfl, hmap, Option.map_some] at hitem
      refine ⟨iff_of_false (getter.run_of_some hitem) (by simp [hmap]), fun a ha => ?_⟩
      rw [hmap, Option.bind_some] at ha
      exact getter.run_valueOf hitem ha (h.exact key value hmap)

theorem Represents.admits (hdistinct : CaseDistinct keys) (h : Represents keys s.json.members s.map)
    {ops : List Operation} (hkeys : ∀ op ∈ ops, op.key ∈ keys)
    (hexact : ∀ op ∈ ops, ∀ value, op.value? = some value → value.Exact) :
    Admits Tracked.step Tracked.Answers s ops := by
  induction ops generalizing s with
  | nil => trivial
  | cons op ops ih =>
    have hkey := hkeys op List.mem_cons_self
    have hnext := h.step hdistinct hkey (hexact op List.mem_cons_self)
    refine ⟨h.answers hdistinct hkey, ih hnext ?_ ?_⟩
    · exact fun op' hop' => hkeys op' (.tail _ hop')
    · exact fun op' hop' => hexact op' (.tail _ hop')

theorem getObjectItem_singleton (h : toLowerCase key = toLowerCase key') (node : PtJson) :
    (object [(key, node)]).getObjectItem key' = some node := by
  simp [getObjectItem, members, h]

theorem exact_of_answers {n : Int64}
    (h : (({} : Tracked).step (.add key (.int64 n))).Answers (.get .getInt64 key)) :
    toDouble n.toInt = n.toInt := by
  have hmap : (Function.update (fun _ => none) key (some (Value.int64 n)) key).bind
      Getter.getInt64.valueOf = some n := by
    rw [Function.update_self]
    rfl
  have hrun : (object [(key, (Value.int64 n).node)]).getInt64 key = .ok (.success n) :=
    h.2 n hmap
  have hget : (object [(key, (Value.int64 n).node)]).getDouble key = .success (toDouble n.toInt) :=
    get_of_kind (getObjectItem_singleton rfl _) rfl
  rw [getInt64, hget, Result.cast] at hrun
  rw [← castInt64_toDouble_iff]
  cases hcast : castInt64 (toDouble n.toInt) with
  | error fault =>
    rw [hcast] at hrun
    cases hrun
  | ok m =>
    rw [hcast] at hrun
    rw [Result.success.inj (Except.ok.inj hrun)]

/-- **Objects are maps**: for all operations with keys and values from two sets, exactly if
no two of the keys differ in case only, and the values of 64 bits are doubles. -/
theorem ptJson_map_iff (keys : Set Bytes) (values : Set Value) (hkeys : keys.Nonempty)
    (hvalues : values.Nonempty) :
    (∀ ops : List Operation, (∀ op ∈ ops, op.key ∈ keys)
        → (∀ op ∈ ops, ∀ value, op.value? = some value → value ∈ values) → BehavesAsMap ops)
      ↔ CaseDistinct keys ∧ ∀ value ∈ values, value.Exact := by
  constructor
  · intro h
    have hpair : ∀ {α : Type} (getter : Getter α) {key key' value}, key ∈ keys → key' ∈ keys →
        value ∈ values → BehavesAsMap [.add key value, .get getter key'] := by
      intro α getter key key' value hkey hkey' hvalue
      apply h
      · simp [Operation.key, hkey, hkey']
      · simp [Operation.value?, hvalue]
    constructor
    · intro key hkey key' hkey' hlower
      obtain ⟨value, hvalue⟩ := hvalues
      by_contra hne
      obtain ⟨-, ⟨hnone, -⟩, -⟩ := hpair .getAny hkey hkey' hvalue
      have hmap : Function.update (fun _ => none) key (some value) key' = none :=
        Function.update_of_ne (Ne.symm hne) _ _
      exact Getter.getAny.run_of_some (getObjectItem_singleton hlower value.node) (hnone.mpr hmap)
    · intro value hvalue
      obtain ⟨key, hkey⟩ := hkeys
      cases value with
      | int64 n =>
        obtain ⟨-, hanswers, -⟩ := hpair .getInt64 hkey hkey hvalue
        exact exact_of_answers hanswers
      | _ => trivial
  · rintro ⟨hdistinct, hexact⟩ ops hops hvals
    refine Represents.admits hdistinct represents_nil hops fun op hop value hvalue => ?_
    exact hexact value (hvals op hop value hvalue)

/-- One key, and numbers of 32 bits. -/
theorem ptJson_map_ids :
    ({ascii "id"} : Set Bytes).Nonempty ∧ (Set.range Value.int32).Nonempty
      ∧ ∀ ops : List Operation, (∀ op ∈ ops, op.key ∈ ({ascii "id"} : Set Bytes))
        → (∀ op ∈ ops, ∀ value, op.value? = some value → value ∈ Set.range Value.int32)
        → BehavesAsMap ops := by
  have hkeys : ({ascii "id"} : Set Bytes).Nonempty := ⟨_, rfl⟩
  have hvalues : (Set.range Value.int32).Nonempty := ⟨_, 0, rfl⟩
  have hdistinct : CaseDistinct {ascii "id"} := by
    rintro key rfl key' rfl -
    rfl
  have hexact : ∀ value ∈ Set.range Value.int32, value.Exact := by
    rintro value ⟨n, rfl⟩
    trivial
  exact ⟨hkeys, hvalues, (ptJson_map_iff _ _ hkeys hvalues).mpr ⟨hdistinct, hexact⟩⟩

/-- `Remove` of one key deletes the other one. -/
def removeOther : List Operation :=
  [.add [0x61] (.bool true), .add [0x41] (.bool false), .remove [0x41], .contains [0x41]]

def largeNumber : List Operation :=
  [.add [0x61] (.int64 9007199254740993), .get .getInt64 [0x61]]

theorem ptJson_not_map :
    ¬ BehavesAsMap [.add [0x61] (.bool true), .get .getBool [0x41]]
      ∧ ¬ BehavesAsMap removeOther ∧ ¬ BehavesAsMap largeNumber := by
  refine ⟨?_, ?_, ?_⟩
  · rintro ⟨-, ⟨hnone, -⟩, -⟩
    exact Getter.getBool.run_of_some (getObjectItem_singleton (by decide) (.bool true))
      (hnone.mpr (by decide))
  · rintro ⟨-, -, -, hcontains, -⟩
    -- the member `A` is still there
    have hfalse : true = false := hcontains
    cases hfalse
  · rintro ⟨-, hanswers, -⟩
    exact absurd (exact_of_answers hanswers) (by decide)

end PtJson

end ArkToolchain
