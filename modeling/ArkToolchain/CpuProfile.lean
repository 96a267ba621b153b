/-
CPU profiles, written with `ToJson` and read with `Create`.

`Create` appends the elements of an optional list to `value()` of a member that has never been
set, so that the first element is a `std::bad_optional_access`.  A list that is present and
empty comes back absent.

Main result: `cpu_profile_round_trip_iff`.
-/
import ArkToolchain.HeapProfile

namespace ArkToolchain

open PtJson

namespace Pt

/-! ### Optional lists -/

/-- `list.value().emplace_back(value)`. -/
def emplaceBack {α : Type} (list : Option (List α)) (value : α) : Except Fault (Option (List α)) :=
  match list with
  | none => .error .badOptionalAccess
  | some values => .ok (some (values ++ [value]))

def emplaceInts (list : Option (List Int32)) : List PtJson → Reading (Option (List Int32))
  | [] => return list
  | element :: elements => do
      let value ← (asInt element : Except Fault Int32)
      let list ← (emplaceBack list value : Except Fault _)
      emplaceInts list elements

def emplaceParts {α : Type} (invalid : String) (create : PtJson → Created α)
    (list : Option (List α)) : List PtJson → Reading (Option (List α))
  | [] => return list
  | element :: elements => do
      match ← nested invalid (create element) with
      | none => emplaceParts invalid create list elements
      | some value =>
        let list ← (emplaceBack list value : Except Fault _)
        emplaceParts invalid create list elements

/-- A list that can be missing; the member is empty before the loop. -/
def optionalList {α : Type}
    (key : String) (loop : Option (List α) → List PtJson → Reading (Option (List α))) :
    Result (List PtJson) → Reading (Option (List α))
  | .success elements => loop none elements
  | .notExist => return none
  | .typeError => do
      complain ("Wrong type of '" ++ key ++ "';")
      return none

/-! ### Position ticks -/

structure PositionTickInfo where
  line : Int32 := 0
  ticks : Int32 := 0
  deriving DecidableEq

namespace PositionTickInfo

def fields (info : PositionTickInfo) : List (Bytes × Option PtJson) :=
  [(ascii "line", some (ofInt info.line.toInt)), (ascii "ticks", some (ofInt info.ticks.toInt))]

def toJson (info : PositionTickInfo) : PtJson := ofMembers info.fields

def create (params : PtJson) : Created PositionTickInfo :=
  finish "PositionTickInfo" do
    let line ← required "line" (params.getInt (ascii "line"))
    let ticks ← required "ticks" (params.getInt (ascii "ticks"))
    return { line, ticks }

variable (info : PositionTickInfo)

theorem distinctKeys : DistinctKeys info.fields := by
  simp only [DistinctKeys, fields, List.map_cons, List.map_nil]
  decide +kernel

theorem create_toJson : create info.toJson = .ok (.ok info) := by
  have h := info.distinctKeys
  rw [create, toJson, required_int h (n := info.line) (by simp [fields]),
    required_int h (n := info.ticks) (by simp [fields])]
  rfl

end PositionTickInfo

/-! ### Nodes -/

structure ProfileNode where
  id : Int32 := 0
  callFrame : RuntimeCallFrame := {}
  hitCount : Option Int32 := some 0
  children : Option (List Int32) := none
  positionTicks : Option (List PositionTickInfo) := none
  deoptReason : Option Bytes := none
  deriving DecidableEq

namespace ProfileNode

def fields (node : ProfileNode) : List (Bytes × Option PtJson) :=
  [(ascii "id", some (ofInt node.id.toInt)),
    (ascii "callFrame", some node.callFrame.toJson),
    (ascii "hitCount", node.hitCount.map fun n => ofInt n.toInt),
    (ascii "children", (node.children.map (List.map fun n => ofInt n.toInt)).map array),
    (ascii "positionTicks", (node.positionTicks.map (List.map PositionTickInfo.toJson)).map array),
    (ascii "deoptReason", node.deoptReason.map ofString)]

def toJson (node : ProfileNode) : PtJson := ofMembers node.fields

def create (params : PtJson) : Created ProfileNode :=
  finish "ProfileNode" do
    let id ← required "id" (params.getInt (ascii "id"))
    let callFrame ← requiredPart "callFrame" "'callFrame' format invalid;" RuntimeCallFrame.create
      (params.getObject (ascii "callFrame"))
    let hitCount ← optional "hitCount" (params.getInt (ascii "hitCount"))
    let children ← optionalList "children" emplaceInts (params.getArray (ascii "children"))
    let positionTicks ← optionalList "positionTicks"
      (emplaceParts "'positionTicks' format invalid;" PositionTickInfo.create)
      (params.getArray (ascii "positionTicks"))
    let deoptReason ← optional "deoptReason" (.ok (params.getString (ascii "deoptReason")))
    -- the member `hitCount_` is `0` before it is read
    return { id, callFrame, hitCount := hitCount.or (some 0), children, positionTicks,
             deoptReason }

end ProfileNode

/-! ### Profiles -/

structure Profile where
  tid : Int64 := 0
  startTime : Int64 := 0
  endTime : Int64 := 0
  gcTime : Int64 := 0
  cInterpreterTime : Int64 := 0
  asmInterpreterTime : Int64 := 0
  aotTime : Int64 := 0
  builtinTime : Int64 := 0
  napiTime : Int64 := 0
  arkuiEngineTime : Int64 := 0
  runtimeTime : Int64 := 0
  otherTime : Int64 := 0
  nodes : List ProfileNode := []
  samples : Option (List Int32) := none
  timeDeltas : Option (List Int32) := none
  deriving DecidableEq

namespace Profile

def fields (profile : Profile) : List (Bytes × Option PtJson) :=
  [(ascii "tid", some (ofInt profile.tid.toInt)),
    (ascii "startTime", some (ofInt profile.startTime.toInt)),
    (ascii "endTime", some (ofInt profile.endTime.toInt)),
    (ascii "gcTime", some (ofInt profile.gcTime.toInt)),
    (ascii "cInterpreterTime", some (ofInt profile.cInterpreterTime.toInt)),
    (ascii "asmInterpreterTime", some (ofInt profile.asmInterpreterTime.toInt)),
    (ascii "aotTime", some (ofInt profile.aotTime.toInt)),
    (ascii "builtinTime", some (ofInt profile.builtinTime.toInt)),
    (ascii "napiTime", some (ofInt profile.napiTime.toInt)),
    (ascii "arkuiEngineTime", some (ofInt profile.arkuiEngineTime.toInt)),
    (ascii "runtimeTime", some (ofInt profile.runtimeTime.toInt)),
    (ascii "otherTime", some (ofInt profile.otherTime.toInt)),
    (ascii "nodes", some (array (profile.nodes.map ProfileNode.toJson))),
    (ascii "samples", (profile.samples.map (List.map fun n => ofInt n.toInt)).map array),
    (ascii "timeDeltas", (profile.timeDeltas.map (List.map fun n => ofInt n.toInt)).map array)]

def toJson (profile : Profile) : PtJson := ofMembers profile.fields

def create (params : PtJson) : Created Profile :=
  finish "Profile" do
    let nodes ← requiredParts "nodes" "'nodes' format invalid;" ProfileNode.create
      (params.getArray (ascii "nodes"))
    let tid ← required "tid" (params.getInt64 (ascii "tid"))
    let startTime ← required "startTime" (params.getInt64 (ascii "startTime"))
    let endTime ← required "endTime" (params.getInt64 (ascii "endTime"))
    let gcTime ← required "gcTime" (params.getInt64 (ascii "gcTime"))
    let cInterpreterTime ← required "cInterpreterTime"
      (params.getInt64 (ascii "cInterpreterTime"))
    let asmInterpreterTime ← required "asmInterpreterTime"
      (params.getInt64 (ascii "asmInterpreterTime"))
    let aotTime ← required "aotTime" (params.getInt64 (ascii "aotTime"))
    let builtinTime ← required "builtinTime" (params.getInt64 (ascii "builtinTime"))
    let napiTime ← required "napiTime" (params.getInt64 (ascii "napiTime"))
    let arkuiEngineTime ← required "arkuiEngineTime" (params.getInt64 (ascii "arkuiEngineTime"))
    let runtimeTime ← required "runtimeTime" (params.getInt64 (ascii "runtimeTime"))
    let otherTime ← required "otherTime" (params.getInt64 (ascii "otherTime"))
    let samples ← optionalList "samples" emplaceInts (params.getArray (ascii "samples"))
    let timeDeltas ← optionalList "timeDeltas" emplaceInts (params.getArray (ascii "timeDeltas"))
    return { tid, startTime, endTime, gcTime, cInterpreterTime, asmInterpreterTime, aotTime,
             builtinTime, napiTime, arkuiEngineTime, runtimeTime, otherTime, nodes, samples,
             timeDeltas }

end Profile

/-! ### Reading lists that are not empty -/

def NoElements {α : Type} (list : Option (List α)) : Prop := ∀ values ∈ list, values = []

instance {α : Type} (list : Option (List α)) : Decidable (NoElements list) :=
  match list with
  | none => .isTrue nofun
  | some [] => .isTrue fun _ h => (Option.some.inj h).symm
  | some (_ :: _) => .isFalse fun h => List.cons_ne_nil _ _ (h _ rfl)

/-- A part of a `Create` that reads the value if the condition holds, and throws
otherwise. -/
def provided {α : Type} (condition : Prop) [Decidable condition] (value : α) : Reading α :=
  if condition then pure value else throw .badOptionalAccess

/-- A whole `Create` of this kind. -/
def createdIf {α : Type} (condition : Prop) [Decidable condition] (value : α) : Created α :=
  if condition then .ok (.ok value) else .error .badOptionalAccess

section provided

variable {α β : Type} {c d : Prop} [Decidable c] [Decidable d] {f : α → Reading β} {b : β} {a : α}

theorem provided_bind (hf : f a = provided d b) : provided c a >>= f = provided (c ∧ d) b := by
  by_cases hc : c
  · simp [provided, hc, hf]
  · simp only [provided, hc, false_and, if_false]
    rfl

theorem provided_bind_pure (hf : f a = pure b) : provided c a >>= f = provided c b := by
  have hbind := provided_bind (c := c) (d := True) (hf.trans (if_pos trivial).symm)
  simpa only [provided, and_true] using hbind

theorem finish_provided (name : String) (a : α) : finish name (provided c a) = createdIf c a := by
  by_cases hc : c <;> simp only [provided, createdIf, hc, if_true, if_false] <;> rfl

theorem nested_createdIf (invalid : String) (a : α) :
    nested invalid (createdIf c a) = provided c (some a) := by
  by_cases hc : c <;> simp only [provided, createdIf, hc, if_true, if_false] <;> rfl

theorem createAll_createdIf {invalid : String} {create : PtJson → Created β} {write : α → PtJson}
    {condition : α → Prop} [DecidablePred condition] {read : α → β} {values : List α}
    (h : ∀ v ∈ values, create (write v) = createdIf (condition v) (read v)) :
    createAll invalid create (values.map write)
      = provided (∀ v ∈ values, condition v) (values.map read) := by
  induction values with
  | nil => rfl
  | cons v values ih =>
    have hrest := ih fun v' hv' => h v' (List.mem_cons_of_mem _ hv')
    rw [List.map_cons, createAll, h v List.mem_cons_self, nested_createdIf, hrest]
    have hbind : (do
        let value ← provided (condition v) (some (read v))
        let values ← provided (∀ v ∈ values, condition v) (values.map read)
        return value.toList ++ values)
        = provided (condition v ∧ ∀ v ∈ values, condition v) (read v :: values.map read) :=
      provided_bind (provided_bind_pure rfl)
    rw [hbind]
    simp only [provided, List.forall_mem_cons, List.map_cons]

end provided

variable {ret : Result (List PtJson)} {key : String}

theorem optionalList_eq {α : Type}
    {loop : Option (List α) → List PtJson → Reading (Option (List α))} {write : α → PtJson}
    (hnil : loop none [] = pure none)
    (hcons : ∀ value elements, loop none (write value :: elements) = throw .badOptionalAccess)
    {list : Option (List α)} (h : ret = .ofOption (list.map (List.map write))) :
    optionalList key loop ret = provided (NoElements list) none := by
  rw [h]
  cases list with
  | none => rfl
  | some values =>
    cases values with
    | nil => exact hnil
    | cons value values => exact hcons _ _

theorem optionalList_ints {l : Option (List Int32)}
    (h : ret = .ofOption (l.map (List.map fun n => ofInt n.toInt))) :
    optionalList key emplaceInts ret = provided (NoElements l) none := by
  refine optionalList_eq rfl (fun n elements => ?_) h
  rw [emplaceInts, asInt_ofInt]
  rfl

theorem optionalList_ticks {l : Option (List PositionTickInfo)}
    (h : ret = .ofOption (l.map (List.map PositionTickInfo.toJson))) :
    optionalList key (emplaceParts "'positionTicks' format invalid;" PositionTickInfo.create) ret
      = provided (NoElements l) none := by
  refine optionalList_eq rfl (fun info elements => ?_) h
  rw [emplaceParts, info.create_toJson]
  rfl

/-! ### What comes back -/

namespace ProfileNode

def Listless (node : ProfileNode) : Prop :=
  NoElements node.children ∧ NoElements node.positionTicks

instance (node : ProfileNode) : Decidable node.Listless := by unfold Listless; infer_instance

/-- What is left of the node: the lists are absent, the texts are cut, and a missing
hit count is `0`. -/
def rest (node : ProfileNode) : ProfileNode :=
  { node with
    callFrame := node.callFrame.cut
    hitCount := node.hitCount.or (some 0)
    children := none
    positionTicks := none
    deoptReason := node.deoptReason.map cStr }

variable (node : ProfileNode)

theorem distinctKeys : DistinctKeys node.fields := by
  simp only [DistinctKeys, fields, List.map_cons, List.map_nil]
  decide +kernel

theorem create_toJson : create node.toJson = createdIf node.Listless node.rest := by
  have h := node.distinctKeys
  rw [create, toJson, required_int h (n := node.id) (by simp [fields]),
    requiredPart_eq (getObject_ofMembers h RuntimeCallFrame.fields
      RuntimeCallFrame.distinctKeys (v := some node.callFrame)
      (by simp [fields, RuntimeCallFrame.toJson])) node.callFrame.create_toJson,
    optional_int h (n := node.hitCount) (by simp [fields]),
    optionalList_ints (l := node.children) (getArray_ofMembers h (by simp [fields])),
    optionalList_ticks (l := node.positionTicks) (getArray_ofMembers h (by simp [fields])),
    optional_string h (t := node.deoptReason) (by simp [fields])]
  simp only [pure_bind]
  refine Eq.trans (congrArg (finish "ProfileNode") ?_)
    (finish_provided (c := node.Listless) "ProfileNode" node.rest)
  exact provided_bind (provided_bind_pure rfl)

theorem rest_eq_self_iff {node : ProfileNode} :
    node.rest = node ↔ node.callFrame.NulFree ∧ node.hitCount ≠ none ∧ node.children = none ∧
      node.positionTicks = none ∧ ∀ reason ∈ node.deoptReason, (0 : UInt8) ∉ reason := by
  have hreason : node.deoptReason.map cStr = node.deoptReason ↔
      ∀ reason ∈ node.deoptReason, (0 : UInt8) ∉ reason := by
    cases node.deoptReason with
    | none => simp
    | some reason => simp [cStr_eq_self_iff]
  have hcount : node.hitCount.or (some 0) = node.hitCount ↔ node.hitCount ≠ none := by
    cases node.hitCount with
    | none | some n => simp
  rw [← RuntimeCallFrame.cut_eq_self_iff, ← hreason, ← hcount]
  constructor
  · intro h
    exact ⟨congrArg callFrame h, congrArg hitCount h, (congrArg children h).symm,
      (congrArg positionTicks h).symm, congrArg deoptReason h⟩
  · rintro ⟨hframe, hcount, hchildren, hticks, hreason⟩
    rw [rest, hframe, hcount, ← hchildren, ← hticks, hreason]

end ProfileNode

namespace Profile

def Listless (profile : Profile) : Prop :=
  (∀ node ∈ profile.nodes, node.Listless) ∧ NoElements profile.samples ∧
    NoElements profile.timeDeltas

instance (profile : Profile) : Decidable profile.Listless := by unfold Listless; infer_instance

def rest (profile : Profile) : Profile :=
  { profile with
    nodes := profile.nodes.map ProfileNode.rest
    samples := none
    timeDeltas := none }

variable (profile : Profile)

theorem distinctKeys : DistinctKeys profile.fields := by
  simp only [DistinctKeys, fields, List.map_cons, List.map_nil]
  decide +kernel

/-- **What `Create` makes of a profile**: nothing, if one of its optional lists has an
element. -/
theorem create_toJson : create profile.toJson = createdIf profile.Listless profile.rest := by
  have h := profile.distinctKeys
  have hnodes : requiredParts "nodes" "'nodes' format invalid;" ProfileNode.create
      ((ofMembers profile.fields).getArray (ascii "nodes"))
      = provided (∀ node ∈ profile.nodes, node.Listless) (profile.nodes.map ProfileNode.rest) := by
    rw [getArray_ofMembers h (v := some (profile.nodes.map ProfileNode.toJson)) (by simp [fields])]
    exact createAll_createdIf fun node _ => node.create_toJson
  rw [create, toJson, hnodes, required_int64 h (n := profile.tid) (by simp [fields]),
    required_int64 h (n := profile.startTime) (by simp [fields]),
    required_int64 h (n := profile.endTime) (by simp [fields]),
    required_int64 h (n := profile.gcTime) (by simp [fields]),
    required_int64 h (n := profile.cInterpreterTime) (by simp [fields]),
    required_int64 h (n := profile.asmInterpreterTime) (by simp [fields]),
    required_int64 h (n := profile.aotTime) (by simp [fields]),
    required_int64 h (n := profile.builtinTime) (by simp [fields]),
    required_int64 h (n := profile.napiTime) (by simp [fields]),
    required_int64 h (n := profile.arkuiEngineTime) (by simp [fields]),
    required_int64 h (n := profile.runtimeTime) (by simp [fields]),
    required_int64 h (n := profile.otherTime) (by simp [fields]),
    optionalList_ints (l := profile.samples) (getArray_ofMembers h (by simp [fields])),
    optionalList_ints (l := profile.timeDeltas) (getArray_ofMembers h (by simp [fields]))]
  simp only [pure_bind]
  refine Eq.trans (congrArg (finish "Profile") ?_)
    (finish_provided (c := profile.Listless) "Profile" profile.rest)
  exact provided_bind (provided_bind (provided_bind_pure rfl))

/-- **CPU profiles** are read back exactly if they have no optional list at all, neither
in the profile nor in a node, every node has a hit count, and no text has a NUL. -/
theorem cpu_profile_round_trip_iff (profile : Profile) :
    create profile.toJson = .ok (.ok profile) ↔
      profile.samples = none ∧ profile.timeDeltas = none ∧
        ∀ node ∈ profile.nodes, node.callFrame.NulFree ∧ node.hitCount ≠ none ∧
          node.children = none ∧ node.positionTicks = none ∧
          ∀ reason ∈ node.deoptReason, (0 : UInt8) ∉ reason := by
  simp only [← ProfileNode.rest_eq_self_iff]
  rw [create_toJson, createdIf]
  constructor
  · intro h
    split at h
    · have hrest : profile.rest = profile := Except.ok.inj (Except.ok.inj h)
      have hnodes : profile.nodes.map ProfileNode.rest = profile.nodes.map id :=
        (congrArg nodes hrest).trans (List.map_id _).symm
      exact ⟨(congrArg samples hrest).symm, (congrArg timeDeltas hrest).symm,
        List.map_inj_left.mp hnodes⟩
    · cases h
  · rintro ⟨hsamples, hdeltas, hnodes⟩
    have hlistless : profile.Listless := by
      refine ⟨fun node hnode => ?_, by rw [hsamples]; exact nofun, by rw [hdeltas]; exact nofun⟩
      have hnode := hnodes node hnode
      rw [← hnode]
      exact ⟨nofun, nofun⟩
    have hmap : profile.nodes.map ProfileNode.rest = profile.nodes :=
      (List.map_inj_left.mpr hnodes).trans (List.map_id _)
    have hrest : profile.rest = profile := by
      rw [rest, hmap]
      cases profile
      subst hsamples hdeltas
      rfl
    rw [if_pos hlistless, hrest]

/-- A profile with a sample makes `Create` throw; the children of a node are lost if
they are present and empty. -/
theorem cpu_profile_not_read_back :
    create ({ samples := some [1] } : Profile).toJson = .error .badOptionalAccess ∧
      create ({ nodes := [{ children := some [] }] } : Profile).toJson
        = .ok (.ok { nodes := [{ children := none }] }) := by
  rw [create_toJson, create_toJson]
  exact ⟨rfl, rfl⟩

end Profile

end Pt

end ArkToolchain
