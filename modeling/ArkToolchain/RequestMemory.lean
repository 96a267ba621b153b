/-
The memory of a request (`DispatchRequest` of `dispatcher.cpp`, `Parse`, `ReleaseRoot` and
`GetObject` of `pt_json.cpp`).

A `PtJson` is a pointer to a node that it does not own.  A request keeps a pointer to `params`
only, and the destructor deletes what it points to.  `cJSON_Delete` goes down and to the right,
but never up: the root and the members before `params` are not freed.  A node is named by the
way that leads to it from the root.

Main results: `request_released_iff`, what is freed (`count_releaseRoot_member`), and a bound on
what is leaked (`length_le_leaked`).
-/
import ArkToolchain.Dispatchers
import Mathlib.Data.List.Nodup

namespace ArkToolchain

open PtJson

namespace RequestMemory

/-! ### Nodes -/

/-- A node, as the positions on the way from the root to it. -/
abbrev Node := List Nat

mutual

def nodes : PtJson → List Node
  | .array elements => [] :: elementNodes 0 elements
  | .object members => [] :: memberNodes 0 members
  | .null => [[]]
  | .bool _ => [[]]
  | .number _ => [[]]
  | .string _ => [[]]

/-- The nodes of the elements from position `i` on. -/
def elementNodes (i : Nat) : List PtJson → List Node
  | [] => []
  | element :: elements => (nodes element).map (i :: ·) ++ elementNodes (i + 1) elements

/-- The nodes of the members from position `i` on. -/
def memberNodes (i : Nat) : List (Bytes × PtJson) → List Node
  | [] => []
  | (_, value) :: members => (nodes value).map (i :: ·) ++ memberNodes (i + 1) members

end

/-- The pointer `object_` of a `PtJson`. -/
inductive Handle
  | null
  | root
  | member (i : Nat)
  deriving DecidableEq

/-- `ReleaseRoot`: the nodes that `cJSON_Delete` frees, in the tree of `json`. -/
def releaseRoot (json : PtJson) : Handle → List Node
  | .null => []
  | .root => nodes json
  | .member i => memberNodes i (json.members.drop i)

/-! ### Requests -/

/-- A request, with the pointer `params_`, and the nodes that the constructor has freed. -/
structure Constructed where
  request : DispatchRequest := {}
  params : Handle := .null
  freed : List Node := []

/-- The pointer that `GetObject` sets. -/
def memberHandle (json : PtJson) (key : Bytes) : Handle :=
  .member (json.members.findIdx fun m => toLowerCase m.1 = toLowerCase key)

/-- The constructor, after `Parse`, which gives a pointer to the root, or null. -/
def construct : Option PtJson → Except Fault Constructed
  | none =>
    -- `IsObject` fails on a null pointer, and `ReleaseRoot` does nothing
    return {
      request := { code := .paramsFormatError }
      freed := releaseRoot .null .null }
  | some json => do
      if json.isObject.isNone then
        return {
          request := { code := .paramsFormatError }
          freed := releaseRoot json .root }
      match ← json.getInt (ascii "id") with
      | .success callId =>
        match json.getString (ascii "method") with
        | .success wholeMethod =>
          if wholeMethod = [] then return { request := { callId, code := .parseMethodError } }
          match splitMethod wholeMethod with
          | none => return { request := { callId, code := .methodFormatError } }
          | some (domain, method) =>
            match json.getObject (ascii "params") with
            | .notExist => return { request := { callId, domain, method } }
            | .typeError =>
              return { request := { callId, domain, method, code := .paramsFormatError } }
            | .success params =>
              return {
                request := { callId, domain, method, params }
                params := memberHandle json (ascii "params") }
        | _ => return { request := { callId, code := .parseMethodError } }
      | _ => return { request := { code := .parseIdError } }

/-- The nodes that `Parse` has allocated and kept. -/
def allocated (parsed : Option PtJson) : List Node := parsed.elim [] nodes

/-- All that is freed, by the constructor and by the destructor. -/
def Constructed.released (c : Constructed) (parsed : Option PtJson) : List Node :=
  c.freed ++ parsed.elim [] fun json => releaseRoot json c.params

/-- Every node has been freed once when the request is gone. -/
def Released (parsed : Option PtJson) : Prop :=
  ∃ c, construct parsed = .ok c ∧ ∀ node, (c.released parsed).count node
    = if node ∈ allocated parsed then 1 else 0

/-! ### Every node has its own name -/

/-- The nodes below the elements from `i` on, by the position of the element. -/
theorem mem_elementNodes {i : Nat} {elements : List PtJson} {node : Node} :
    node ∈ elementNodes i elements ↔
      ∃ k rest, node = (i + k) :: rest ∧ ∃ element ∈ elements[k]?, rest ∈ nodes element := by
  induction elements generalizing i with
  | nil => simp [elementNodes]
  | cons element elements ih =>
    rw [elementNodes, List.mem_append, List.mem_map, ih]
    constructor
    · rintro (⟨rest, hrest, rfl⟩ | ⟨k, rest, rfl, hk⟩)
      · exact ⟨0, rest, rfl, element, rfl, hrest⟩
      · exact ⟨k + 1, rest, by rw [Nat.add_right_comm, Nat.add_assoc], hk⟩
    · rintro ⟨k, rest, rfl, element', hk, hrest⟩
      cases k with
      | zero =>
        obtain rfl : element = element' := Option.some.inj hk
        exact .inl ⟨rest, hrest, rfl⟩
      | succ k =>
        exact .inr ⟨k, rest, by rw [Nat.add_right_comm, Nat.add_assoc], element', hk, hrest⟩

theorem nil_notMem_elementNodes (i : Nat) (elements : List PtJson) :
    [] ∉ elementNodes i elements := by
  simp [mem_elementNodes]

theorem cons_notMem_elementNodes (i : Nat) (elements : List PtJson) (rest : Node) :
    i :: rest ∉ elementNodes (i + 1) elements := by
  intro h
  obtain ⟨k, rest', heq, -⟩ := mem_elementNodes.mp h
  have := List.head_eq_of_cons_eq heq
  omega

theorem memberNodes_eq (i : Nat) (members : List (Bytes × PtJson)) :
    memberNodes i members = elementNodes i (members.map Prod.snd) := by
  induction members generalizing i with
  | nil => rw [memberNodes, List.map_nil, elementNodes]
  | cons m members ih => rw [memberNodes, List.map_cons, elementNodes, ih]

theorem nodup_map_cons_append {i : Nat} {part rest : List Node} (hpart : part.Nodup)
    (hrest : rest.Nodup) (hbehind : ∀ tail, i :: tail ∉ rest) :
    (part.map (i :: ·) ++ rest).Nodup := by
  refine List.nodup_append.mpr ⟨hpart.map fun a b h => List.tail_eq_of_cons_eq h, hrest, ?_⟩
  rintro node hnode node' hnode' rfl
  obtain ⟨tail, -, rfl⟩ := List.mem_map.mp hnode
  exact hbehind tail hnode'

mutual

theorem nodup_nodes (json : PtJson) : (nodes json).Nodup := by
  cases json with
  | array elements =>
    exact List.nodup_cons.mpr ⟨nil_notMem_elementNodes 0 elements, nodup_elementNodes 0 elements⟩
  | object members =>
    exact List.nodup_cons.mpr
      ⟨memberNodes_eq 0 members ▸ nil_notMem_elementNodes 0 _, nodup_memberNodes 0 members⟩
  | null | bool _ | number _ | string _ => exact List.nodup_singleton []

theorem nodup_elementNodes (i : Nat) (elements : List PtJson) :
    (elementNodes i elements).Nodup := by
  cases elements with
  | nil => exact List.nodup_nil
  | cons element elements =>
    exact nodup_map_cons_append (nodup_nodes element) (nodup_elementNodes (i + 1) elements)
      (cons_notMem_elementNodes i elements)

theorem nodup_memberNodes (i : Nat) (members : List (Bytes × PtJson)) :
    (memberNodes i members).Nodup := by
  cases members with
  | nil => exact List.nodup_nil
  | cons m members =>
    obtain ⟨key, value⟩ := m
    exact nodup_map_cons_append (nodup_nodes value) (nodup_memberNodes (i + 1) members)
      (memberNodes_eq _ members ▸ cons_notMem_elementNodes i _)

end

/-! ### What is freed -/

/-- For an object, `construct` is the constructor of `DispatchRequest`; it frees nothing, and
the pointer does not go to the root. -/
theorem map_construct (members : List (Bytes × PtJson)) :
    (construct (some (.object members))).map
        (fun c => (c.request, c.freed, decide (c.params = .root)))
      = (DispatchRequest.create (some (.object members))).map fun request =>
        (request, [], false) := by
  rw [construct, DispatchRequest.create]
  cases (PtJson.object members).getInt (ascii "id") with
  | error fault => rfl
  | ok id =>
    cases id with
    | success callId =>
      cases (PtJson.object members).getString (ascii "method") with
      | success wholeMethod =>
        by_cases hempty : wholeMethod = []
        · rw [hempty]
          rfl
        · simp only [hempty]
          cases splitMethod wholeMethod with
          | none => rfl
          | some split =>
            cases (PtJson.object members).getObject (ascii "params") with
            | _ => rfl
      | _ => rfl
    | _ => rfl

variable {members : List (Bytes × PtJson)} {c : Constructed}

theorem construct_object (h : construct (some (.object members)) = .ok c) :
    c.freed = [] ∧ c.params ≠ .root := by
  have hmap := map_construct members
  rw [h] at hmap
  cases hcreate : DispatchRequest.create (some (.object members)) with
  | error fault =>
    rw [hcreate] at hmap
    cases hmap
  | ok request =>
    rw [hcreate] at hmap
    obtain ⟨-, hfreed, hroot⟩ : c.request = request ∧ c.freed = [] ∧ ¬ c.params = .root := by
      simpa [Except.map] using hmap
    exact ⟨hfreed, hroot⟩

theorem nil_notMem_released (h : construct (some (.object members)) = .ok c) :
    [] ∉ c.released (some (.object members)) := by
  obtain ⟨hfreed, hroot⟩ := construct_object h
  rw [Constructed.released, hfreed, List.nil_append, Option.elim_some]
  cases hparams : c.params with
  | null => exact List.not_mem_nil
  | root => exact absurd hparams hroot
  | member i =>
    rw [releaseRoot, memberNodes_eq]
    exact nil_notMem_elementNodes i _

theorem released_of_not_object {json : PtJson} (h : json.isObject = none) :
    Released (some json) := by
  refine ⟨{ request := { code := .paramsFormatError }, freed := nodes json }, ?_, fun node => ?_⟩
  · rw [construct, h]
    rfl
  · rw [Constructed.released, allocated, Option.elim_some, Option.elim_some, releaseRoot,
      List.append_nil, (nodup_nodes json).count]

theorem not_released_object (members : List (Bytes × PtJson)) :
    ¬ Released (some (.object members)) := by
  rintro ⟨c, hc, hcount⟩
  have hroot := hcount []
  rw [if_pos (by simp [allocated, nodes]), List.count_eq_zero_of_not_mem (nil_notMem_released hc)]
    at hroot
  cases hroot

/-- **The nodes of a request are freed** exactly if the text is not that of an object,
whatever `Parse` makes of it. -/
theorem request_released_iff (parse : Bytes → Option PtJson) (message : Bytes) :
    Released (parse message) ↔ ∀ members, parse message ≠ some (.object members) := by
  constructor
  · intro h members heq
    rw [heq] at h
    exact not_released_object members h
  · intro h
    cases hparse : parse message with
    | none => exact ⟨_, rfl, fun node => rfl⟩
    | some json =>
      apply released_of_not_object
      cases json with
      | object members => exact absurd hparse (h members)
      | _ => rfl

/-! ### Many requests -/

/-- The nodes that are left when the request is gone; after a fault nothing is freed. -/
def leaked (parsed : Option PtJson) : List Node :=
  match construct parsed with
  | .ok c => (allocated parsed).filter fun node => node ∉ c.released parsed
  | .error _ => allocated parsed

theorem leaked_object (members : List (Bytes × PtJson)) : [] ∈ leaked (some (.object members)) := by
  have hmem : [] ∈ allocated (some (.object members)) := by
    simp [allocated, nodes]
  rw [leaked]
  cases hc : construct (some (.object members)) with
  | ok c => exact List.mem_filter.mpr ⟨hmem, decide_eq_true (nil_notMem_released hc)⟩
  | error fault => exact hmem

/-- **The memory grows** by a node at least with every request that is an object. -/
theorem length_le_leaked (requests : List (List (Bytes × PtJson))) :
    requests.length
      ≤ (requests.map fun members => (leaked (some (.object members))).length).sum := by
  induction requests with
  | nil => exact le_rfl
  | cons members requests ih =>
    have hpos : 0 < (leaked (some (.object members))).length :=
      List.length_pos_of_mem (leaked_object members)
    rw [List.map_cons, List.sum_cons, List.length_cons]
    omega

/-- A request of `Debugger.enable`, with `params` between the other members. -/
def enableRequest : PtJson :=
  .object
    [(ascii "id", .number 1),
      (ascii "params", .object [(ascii "maxScriptsCacheSize", .number 0)]),
      (ascii "method", .string (ascii "Debugger.enable"))]

/-- Of the five nodes, three are freed: the root and the `id` are left. -/
theorem enable_request_leaks :
    leaked (some enableRequest) = [[], [0]] ∧ ¬ Released (some enableRequest) :=
  ⟨by decide +kernel, not_released_object _⟩

end RequestMemory

end ArkToolchain
