/-
Sampling heap profiles, written with `ToJson` and read with `Create`.

Reading gives the profile back as long as no text has a NUL in it and every ordinal fits in 32
bits: `Create` reads the 64-bit ordinal with `GetInt`.

Main result: `heap_profile_round_trip`.
-/
import ArkToolchain.PtJson

namespace ArkToolchain

open PtJson

namespace Pt

/-! ### Call frames -/

/-- `RuntimeCallFrame`. -/
structure RuntimeCallFrame where
  functionName : Bytes := []
  moduleName : Bytes := []
  scriptId : Bytes := []
  url : Bytes := []
  lineNumber : Int32 := 0
  columnNumber : Int32 := 0
  deriving DecidableEq, Inhabited

namespace RuntimeCallFrame

def fields (frame : RuntimeCallFrame) : List (Bytes × Option PtJson) :=
  [(ascii "functionName", some (ofString frame.functionName)),
    (ascii "moduleName", some (ofString frame.moduleName)),
    (ascii "scriptId", some (ofString frame.scriptId)),
    (ascii "url", some (ofString frame.url)),
    (ascii "lineNumber", some (ofInt frame.lineNumber.toInt)),
    (ascii "columnNumber", some (ofInt frame.columnNumber.toInt))]

def toJson (frame : RuntimeCallFrame) : PtJson := ofMembers frame.fields

def create (params : PtJson) : Created RuntimeCallFrame :=
  finish "RuntimeCallFrame" do
    let functionName ← required "functionName" (.ok (params.getString (ascii "functionName")))
    let moduleName ← required "moduleName" (.ok (params.getString (ascii "moduleName")))
    let scriptId ← required "scriptId" (.ok (params.getString (ascii "scriptId")))
    let url ← required "url" (.ok (params.getString (ascii "url")))
    let lineNumber ← required "lineNumber" (params.getInt (ascii "lineNumber"))
    let columnNumber ← required "columnNumber" (params.getInt (ascii "columnNumber"))
    return { functionName, moduleName, scriptId, url, lineNumber, columnNumber }

/-- The frame with every text cut at its first NUL. -/
def cut (frame : RuntimeCallFrame) : RuntimeCallFrame :=
  { frame with
    functionName := cStr frame.functionName
    moduleName := cStr frame.moduleName
    scriptId := cStr frame.scriptId
    url := cStr frame.url }

/-- No text has a NUL. -/
def NulFree (frame : RuntimeCallFrame) : Prop :=
  (0 : UInt8) ∉ frame.functionName ∧ (0 : UInt8) ∉ frame.moduleName ∧
    (0 : UInt8) ∉ frame.scriptId ∧ (0 : UInt8) ∉ frame.url

instance (frame : RuntimeCallFrame) : Decidable frame.NulFree := by
  unfold NulFree; infer_instance

theorem cut_eq_self_iff {frame : RuntimeCallFrame} : frame.cut = frame ↔ frame.NulFree := by
  simp only [cut, NulFree, ← cStr_eq_self_iff]
  constructor
  · intro h
    exact ⟨congrArg functionName h, congrArg moduleName h, congrArg scriptId h, congrArg url h⟩
  · rintro ⟨hfunction, hmodule, hscript, hurl⟩
    rw [hfunction, hmodule, hscript, hurl]

variable (frame : RuntimeCallFrame)

theorem distinctKeys : DistinctKeys frame.fields := by
  simp only [DistinctKeys, fields, List.map_cons, List.map_nil]
  decide +kernel

theorem create_toJson : create frame.toJson = .ok (.ok frame.cut) := by
  have h := frame.distinctKeys
  rw [create, toJson, required_string h (t := frame.functionName) (by simp [fields]),
    required_string h (t := frame.moduleName) (by simp [fields]),
    required_string h (t := frame.scriptId) (by simp [fields]),
    required_string h (t := frame.url) (by simp [fields]),
    required_int h (n := frame.lineNumber) (by simp [fields]),
    required_int h (n := frame.columnNumber) (by simp [fields])]
  rfl

end RuntimeCallFrame

/-! ### Samples -/

/-- `SamplingHeapProfileSample`. -/
structure SamplingHeapProfileSample where
  size : Int32 := 0
  nodeId : Int32 := 0
  ordinal : Int64 := 0
  deriving DecidableEq

namespace SamplingHeapProfileSample

def fields (sample : SamplingHeapProfileSample) : List (Bytes × Option PtJson) :=
  [(ascii "size", some (ofInt sample.size.toInt)),
    (ascii "nodeId", some (ofInt sample.nodeId.toInt)),
    (ascii "ordinal", some (ofInt sample.ordinal.toInt))]

def toJson (sample : SamplingHeapProfileSample) : PtJson := ofMembers sample.fields

def create (params : PtJson) : Created SamplingHeapProfileSample :=
  finish "SamplingHeapProfileSample" do
    let size ← required "size" (params.getInt (ascii "size"))
    let nodeId ← required "nodeId" (params.getInt (ascii "nodeId"))
    let ordinal ← required "ordinal" (params.getInt (ascii "ordinal"))
    return { size, nodeId, ordinal := Int64.ofInt ordinal.toInt }

/-- The ordinal fits in 32 bits. -/
def Fits (sample : SamplingHeapProfileSample) : Prop :=
  -2 ^ 31 ≤ sample.ordinal.toInt ∧ sample.ordinal.toInt < 2 ^ 31

theorem distinctKeys (sample : SamplingHeapProfileSample) : DistinctKeys sample.fields := by
  simp only [DistinctKeys, fields, List.map_cons, List.map_nil]
  decide +kernel

theorem create_toJson {sample : SamplingHeapProfileSample} (hfits : sample.Fits) :
    create sample.toJson = .ok (.ok sample) := by
  have h := sample.distinctKeys
  have hordinal : (Int32.ofInt sample.ordinal.toInt).toInt = sample.ordinal.toInt :=
    Int32.toInt_ofInt_of_le hfits.1 hfits.2
  rw [create, toJson, required_int h (n := sample.size) (by simp [fields]),
    required_int h (n := sample.nodeId) (by simp [fields]),
    required_int h (n := Int32.ofInt sample.ordinal.toInt) (by rw [hordinal]; simp [fields])]
  simp only [pure_bind, finish_pure, hordinal, Int64.ofInt_toInt]

end SamplingHeapProfileSample

/-! ### Nodes -/

/-- `SamplingHeapProfileNode`, a tree. -/
structure SamplingHeapProfileNode where
  callFrame : RuntimeCallFrame := {}
  selfSize : Int32 := 0
  id : Int32 := 0
  children : List SamplingHeapProfileNode := []
  deriving Inhabited

namespace SamplingHeapProfileNode

def toJson : SamplingHeapProfileNode → PtJson
  | { callFrame, selfSize, id, children } =>
    ofMembers [(ascii "callFrame", some callFrame.toJson),
      (ascii "selfSize", some (ofInt selfSize.toInt)),
      (ascii "id", some (ofInt id.toInt)),
      (ascii "children", some (array (children.map toJson)))]

def create (params : PtJson) : Created SamplingHeapProfileNode :=
  finish "SamplingHeapProfileNode" do
    let callFrame ← requiredPart "callFrame" "'callFrame' format invalid;" RuntimeCallFrame.create
      (params.getObject (ascii "callFrame"))
    let selfSize ← required "selfSize" (params.getInt (ascii "selfSize"))
    let id ← required "id" (params.getInt (ascii "id"))
    let children ← (match _h : params.getArray (ascii "children") with
      | .success elements =>
        createAll "'children' format invalid;" (fun e => create e.1) elements.attach
      | _ => do
          complain "Unknown or wrong type of 'children';"
          return [] : Reading (List SamplingHeapProfileNode))
    return { callFrame, selfSize, id, children }
termination_by params
decreasing_by exact sizeOf_lt_of_getArray _h e.2

def fields (node : SamplingHeapProfileNode) : List (Bytes × Option PtJson) :=
  [(ascii "callFrame", some (ofMembers node.callFrame.fields)),
    (ascii "selfSize", some (ofInt node.selfSize.toInt)),
    (ascii "id", some (ofInt node.id.toInt)),
    (ascii "children", some (array (node.children.map toJson)))]

variable (node : SamplingHeapProfileNode)

theorem toJson_eq : node.toJson = ofMembers node.fields := by
  obtain ⟨callFrame, selfSize, id, children⟩ := node
  rw [toJson]
  rfl

theorem create_eq (params : PtJson) :
    create params = finish "SamplingHeapProfileNode" (do
      let callFrame ← requiredPart "callFrame" "'callFrame' format invalid;"
        RuntimeCallFrame.create (params.getObject (ascii "callFrame"))
      let selfSize ← required "selfSize" (params.getInt (ascii "selfSize"))
      let id ← required "id" (params.getInt (ascii "id"))
      let children ← requiredParts "children" "'children' format invalid;" create
        (params.getArray (ascii "children"))
      return { callFrame, selfSize, id, children }) := by
  rw [create]
  refine congrArg (finish "SamplingHeapProfileNode") ?_
  refine bind_congr fun callFrame => bind_congr fun selfSize => bind_congr fun id => ?_
  refine congrArg (· >>= _) ?_
  cases params.getArray (ascii "children") with
  | success elements => exact createAll_attach _ create elements
  | notExist | typeError => rfl

/-- No text in the tree has a NUL. -/
inductive NulFree : SamplingHeapProfileNode → Prop
  | node {node : SamplingHeapProfileNode} (callFrame : node.callFrame.NulFree)
      (children : ∀ child ∈ node.children, NulFree child) : NulFree node

theorem distinctKeys : DistinctKeys node.fields := by
  simp only [DistinctKeys, fields, List.map_cons, List.map_nil]
  decide +kernel

/-- **A tree** is read back, by induction on it. -/
theorem create_toJson {node : SamplingHeapProfileNode} (hnode : node.NulFree) :
    create node.toJson = .ok (.ok node) := by
  induction hnode with
  | @node node hframe _ ih =>
    have h := node.distinctKeys
    have hpart : RuntimeCallFrame.create (ofMembers node.callFrame.fields)
        = .ok (.ok node.callFrame) := by
      have hcreate := node.callFrame.create_toJson
      rwa [RuntimeCallFrame.cut_eq_self_iff.mpr hframe] at hcreate
    rw [create_eq, toJson_eq,
      requiredPart_eq (getObject_ofMembers h RuntimeCallFrame.fields
        RuntimeCallFrame.distinctKeys (v := some node.callFrame) (by simp [fields])) hpart,
      required_int h (n := node.selfSize) (by simp [fields]),
      required_int h (n := node.id) (by simp [fields]),
      requiredParts_eq (getArray_ofMembers h (v := some (node.children.map toJson))
        (by simp [fields])) ih]
    obtain ⟨callFrame, selfSize, id, children⟩ := node
    rfl

end SamplingHeapProfileNode

/-! ### Profiles -/

/-- `SamplingHeapProfile`. -/
structure SamplingHeapProfile where
  head : SamplingHeapProfileNode := {}
  samples : List SamplingHeapProfileSample := []

namespace SamplingHeapProfile

def fields (profile : SamplingHeapProfile) : List (Bytes × Option PtJson) :=
  [(ascii "head", some profile.head.toJson),
    (ascii "samples", some (array (profile.samples.map SamplingHeapProfileSample.toJson)))]

def toJson (profile : SamplingHeapProfile) : PtJson := ofMembers profile.fields

def create (params : PtJson) : Created SamplingHeapProfile :=
  finish "SamplingHeapProfile" do
    -- the text for the head is that of the samples
    let head ← requiredPart "head" "'sample' format invalid;" SamplingHeapProfileNode.create
      (params.getObject (ascii "head"))
    let samples ← requiredParts "samples" "'sample' format invalid;"
      SamplingHeapProfileSample.create (params.getArray (ascii "samples"))
    return { head, samples }

theorem distinctKeys (profile : SamplingHeapProfile) : DistinctKeys profile.fields := by
  simp only [DistinctKeys, fields, List.map_cons, List.map_nil]
  decide +kernel

/-- **Heap profiles** are read back. -/
theorem heap_profile_round_trip (profile : SamplingHeapProfile) (hhead : profile.head.NulFree)
    (hsamples : ∀ sample ∈ profile.samples, sample.Fits) :
    create profile.toJson = .ok (.ok profile) := by
  have h := profile.distinctKeys
  have hnode := SamplingHeapProfileNode.create_toJson hhead
  rw [SamplingHeapProfileNode.toJson_eq] at hnode
  rw [create, toJson,
    requiredPart_eq (getObject_ofMembers h SamplingHeapProfileNode.fields
      SamplingHeapProfileNode.distinctKeys (v := some profile.head)
      (by simp [fields, SamplingHeapProfileNode.toJson_eq])) hnode,
    requiredParts_eq (getArray_ofMembers h
      (v := some (profile.samples.map SamplingHeapProfileSample.toJson)) (by simp [fields]))
      fun sample hsample => SamplingHeapProfileSample.create_toJson (hsamples sample hsample)]
  rfl

def sampleProfile : SamplingHeapProfile where
  head :=
    { callFrame := { functionName := ascii "(root)", scriptId := ascii "0" }
      children := [{
        callFrame := { functionName := ascii "main", url := ascii "entry.ets", lineNumber := 3 }
        selfSize := 64
        id := 1 }] }
  samples := [{ size := 64, nodeId := 1, ordinal := 7 }]

theorem sampleProfile_round_trip : create sampleProfile.toJson = .ok (.ok sampleProfile) := by
  apply heap_profile_round_trip
  · refine .node (by decide +kernel) fun child hchild => ?_
    obtain rfl := List.mem_singleton.mp hchild
    exact .node (by decide +kernel) nofun
  · intro sample hsample
    obtain rfl := List.mem_singleton.mp hsample
    exact ⟨by decide, by decide⟩

end SamplingHeapProfile

end Pt

end ArkToolchain
