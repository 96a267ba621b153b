/-
The tables of the `SourceManager` (tooling/static/source_manager.cpp).

The map from keys to ids, the ids that have been handed out and the map back together are the
registry of the keys (`ScriptTable.Represents`): the id of a script is the position of its key.
The map back holds pointers to the keys of the first map, which stay where they are.

Main result: `script_ids`.
-/
import ArkToolchain.Registries
import ArkToolchain.ScriptAnnouncements

namespace ArkToolchain

/-- The `SourceManager` with `idToScript_`. -/
structure ScriptTable extends SourceManager where
  /-- the pointers, as the keys that they point to -/
  idToScript : AList fun _ : Nat => ScriptKey := ∅

namespace ScriptTable

def getScriptId (t : ScriptTable) (fileName scriptIdentity : String) : (Nat × Bool) × ScriptTable :=
  let key := { fileName, identity := scriptIdentity }
  let inserted := t.fileNameToId.lookup key = none
  let (result, m) := t.toSourceManager.getScriptId key
  (result, {
    toSourceManager := m
    idToScript := if inserted then emplace t.idToScript result.1 key else t.idToScript })

def getSourceFileName (t : ScriptTable) (id : Nat) : String :=
  match t.idToScript.lookup id with
  | some key => key.fileName
  | none => ""

/-- `GetScript`; an unknown id has an empty `ScriptInfo`. -/
def getScript (t : ScriptTable) (id : Nat) : ScriptKey :=
  (t.idToScript.lookup id).getD { fileName := "", identity := "" }

/-- Calls of `GetScriptId`, with what they return. -/
def getScriptIds (t : ScriptTable) : List ScriptKey → List (Nat × Bool) × ScriptTable
  | [] => ([], t)
  | key :: keys =>
    let (result, t) := t.getScriptId key.fileName key.identity
    let (results, t) := t.getScriptIds keys
    (result :: results, t)

/-! ### The tables are a registry -/

/-- The tables hold the keys `ks`, in this order. -/
structure Represents (t : ScriptTable) (ks : List ScriptKey) : Prop where
  wellFormed : t.WellFormed
  size : t.fileNameToId.length = ks.length
  ids : ∀ key, t.fileNameToId.lookup key = if key ∈ ks then some (ks.idxOf key) else none
  scripts : ∀ id, t.idToScript.lookup id = ks[id]?

theorem represents_empty : Represents {} [] where
  wellFormed := ⟨by simp, by simp⟩
  size := rfl
  ids key := by simp
  scripts id := by simp

variable {t : ScriptTable} {ks : List ScriptKey} {key : ScriptKey}

theorem Represents.getScriptId_of_mem (h : t.Represents ks) (hkey : key ∈ ks) :
    t.getScriptId key.fileName key.identity = ((ks.idxOf key, false), t) := by
  have hlookup : t.fileNameToId.lookup key = some (ks.idxOf key) := by
    rw [h.ids, if_pos hkey]
  simp only [ScriptTable.getScriptId, hlookup, SourceManager.getScriptId_known h.wellFormed hlookup,
    reduceCtorEq, if_false]

def insertKey (t : ScriptTable) (key : ScriptKey) : ScriptTable where
  toSourceManager := t.insertNew key
  idToScript := emplace t.idToScript t.fileNameToId.length key

theorem Represents.getScriptId_of_notMem (h : t.Represents ks) (hkey : key ∉ ks) :
    t.getScriptId key.fileName key.identity = ((ks.length, true), t.insertKey key) := by
  have hlookup : t.fileNameToId.lookup key = none := by
    rw [h.ids, if_neg hkey]
  simp only [ScriptTable.getScriptId, hlookup, SourceManager.getScriptId_new h.wellFormed hlookup,
    if_true, insertKey, h.size]

theorem idxOf_append_self (hkey : key ∉ ks) : (ks ++ [key]).idxOf key = ks.length := by
  rw [List.idxOf_append_of_notMem hkey, List.idxOf_cons_self, Nat.add_zero]

theorem Represents.insertKey (h : t.Represents ks) (hkey : key ∉ ks) :
    (t.insertKey key).Represents (ks ++ [key]) where
  wellFormed := h.wellFormed.insertNew
  size := by
    show t.fileNameToId.length + 1 = (ks ++ [key]).length
    rw [h.size, List.length_append, List.length_singleton]
  ids key' := by
    show ((key, t.fileNameToId.length) :: t.fileNameToId).lookup key' = _
    rw [List.lookup_cons, h.ids, h.size]
    by_cases heq : key' = key
    · rw [heq, beq_self_eq_true, if_pos (List.mem_append_right _ (List.mem_singleton_self _)),
        idxOf_append_self hkey]
    rw [beq_eq_false_iff_ne.mpr heq]
    by_cases hmem : key' ∈ ks
    · simp only [if_pos hmem, if_pos (List.mem_append_left [key] hmem),
        List.idxOf_append_of_mem hmem]
    · have hmem' : key' ∉ ks ++ [key] := by simp [hmem, heq]
      simp only [if_neg hmem, if_neg hmem']
  scripts id := by
    have hnew : t.fileNameToId.length ∉ t.idToScript := by
      rw [← AList.lookup_eq_none, h.scripts, h.size]
      exact List.getElem?_eq_none le_rfl
    show (emplace t.idToScript t.fileNameToId.length key).lookup id = _
    rw [lookup_emplace key hnew, h.scripts, h.size, List.getElem?_append]
    rcases Nat.lt_trichotomy id ks.length with hlt | heq | hgt
    · rw [if_neg (Nat.ne_of_lt hlt), if_pos hlt]
    · simp [heq]
    · rw [if_neg (Nat.ne_of_gt hgt), if_neg (Nat.not_lt_of_gt hgt),
        List.getElem?_eq_none (Nat.le_of_lt hgt), List.getElem?_eq_none]
      rw [List.length_singleton]
      omega

/-- **One call**: the id is the position of the key, and it is new if the key is. -/
theorem Represents.getScriptId (h : t.Represents ks) (key : ScriptKey) :
    (t.getScriptId key.fileName key.identity).1 = ((register ks key).idxOf key, decide (key ∉ ks))
      ∧ (t.getScriptId key.fileName key.identity).2.Represents (register ks key) := by
  by_cases hkey : key ∈ ks
  · rw [h.getScriptId_of_mem hkey, register, if_pos hkey, decide_eq_false (not_not.mpr hkey)]
    exact ⟨rfl, h⟩
  · rw [h.getScriptId_of_notMem hkey, register, if_neg hkey, decide_eq_true hkey,
      idxOf_append_self hkey]
    exact ⟨rfl, h.insertKey hkey⟩

/-- **All calls**: the ids are the positions in the registry after the last one. -/
theorem Represents.getScriptIds (h : t.Represents ks) (calls : List ScriptKey) :
    (t.getScriptIds calls).2.Represents (calls.foldl register ks)
      ∧ ∀ i key, calls[i]? = some key → (t.getScriptIds calls).1[i]?
        = some ((calls.foldl register ks).idxOf key,
            decide (key ∉ (calls.take i).foldl register ks)) := by
  induction calls generalizing t ks with
  | nil => exact ⟨h, by simp⟩
  | cons key calls ih =>
    obtain ⟨hresult, hnext⟩ := h.getScriptId key
    obtain ⟨hlast, hresults⟩ := ih hnext
    refine ⟨hlast, fun i key' hkey' => ?_⟩
    cases i with
    | zero =>
      obtain rfl : key = key' := by simpa using hkey'
      have hmem : key ∈ register ks key := mem_register.mpr (.inr rfl)
      have hidx := (prefix_foldl_register (register ks key) calls).idxOf_eq_of_mem hmem
      simp only [ScriptTable.getScriptIds, List.getElem?_cons_zero, hresult, hidx]
      rfl
    | succ i => exact hresults i key' (by simpa using hkey')

/-! ### Script ids -/

/-- What the inspector relies on, for the calls `calls` that have returned `results` and
left `t`. -/
structure Numbers (calls : List ScriptKey) (results : List (Nat × Bool)) (t : ScriptTable) :
    Prop where
  /-- every call has returned -/
  length_eq : results.length = calls.length
  /-- the ids count from zero -/
  dense : ∀ id id', id' < id → id ∈ results.map Prod.fst → id' ∈ results.map Prod.fst
  /-- equal ids are equal keys -/
  same : ∀ (i j : Nat) key key' (r r' : Nat × Bool), calls[i]? = some key → calls[j]? = some key' →
    results[i]? = some r → results[j]? = some r' → (r.1 = r'.1 ↔ key = key')
  /-- the key is found under its id -/
  found : ∀ (i : Nat) key (r : Nat × Bool), calls[i]? = some key → results[i]? = some r →
    t.getScript r.1 = key ∧ t.getSourceFileName r.1 = key.fileName
  /-- only the first call with a key is new -/
  new : ∀ (i : Nat) key (r : Nat × Bool), calls[i]? = some key → results[i]? = some r →
    (r.2 = true ↔ key ∉ calls.take i)

theorem length_getScriptIds (t : ScriptTable) (calls : List ScriptKey) :
    (t.getScriptIds calls).1.length = calls.length := by
  induction calls generalizing t with
  | nil => rfl
  | cons key calls ih => exact congrArg (· + 1) (ih _)

/-- **Script ids**: for every sequence of calls of `GetScriptId`. -/
theorem script_ids (calls : List ScriptKey) :
    Numbers calls (({} : ScriptTable).getScriptIds calls).1
      (({} : ScriptTable).getScriptIds calls).2 := by
  obtain ⟨hlast, hresults⟩ := represents_empty.getScriptIds calls
  have hmem : ∀ {calls : List ScriptKey} {key}, key ∈ calls.foldl register [] ↔ key ∈ calls := by
    intro calls key
    rw [mem_foldl_register, List.mem_nil_iff, false_or]
  have hresult : ∀ {i : Nat} {key r}, calls[i]? = some key →
      (({} : ScriptTable).getScriptIds calls).1[i]? = some r →
        r = ((calls.foldl register []).idxOf key, decide (key ∉ calls.take i)) := by
    intro i key r hkey hr
    rw [hresults i key hkey, Option.some.injEq] at hr
    rw [← hr]
    simp only [hmem]
  refine ⟨length_getScriptIds {} calls, ?_, ?_, ?_, ?_⟩
  · intro id id' hlt hid
    obtain ⟨r, hr, rfl⟩ := List.mem_map.mp hid
    obtain ⟨i, hi, hri⟩ := List.mem_iff_getElem.mp hr
    have hi' : i < calls.length := length_getScriptIds {} calls ▸ hi
    have hid' : id' < (calls.foldl register []).length := by
      have hkey : calls[i] ∈ calls.foldl register [] := hmem.mpr (List.getElem_mem hi')
      rw [hresult (List.getElem?_eq_getElem hi') (List.getElem?_eq_some_iff.mpr ⟨hi, hri⟩)] at hlt
      exact hlt.trans (List.idxOf_lt_length_of_mem hkey)
    -- the key with the smaller id has been looked up, too
    obtain ⟨j, hj, hkey⟩ := List.mem_iff_getElem.mp (hmem.mp (List.getElem_mem hid'))
    have hrj := hresults j _ (List.getElem?_eq_some_iff.mpr ⟨hj, hkey⟩)
    rw [(nodup_foldl_register List.nodup_nil calls).idxOf_getElem] at hrj
    exact List.mem_map.mpr ⟨_, List.mem_of_getElem? hrj, rfl⟩
  · intro i j key key' r r' hi hj hr hr'
    rw [hresult hi hr, hresult hj hr']
    exact List.idxOf_inj (hmem.mpr (List.mem_of_getElem? hi))
  · intro i key r hi hr
    have hscript := hlast.scripts r.1
    rw [hresult hi hr, List.getElem?_idxOf (hmem.mpr (List.mem_of_getElem? hi))] at hscript
    rw [hresult hi hr, getScript, getSourceFileName, hscript]
    exact ⟨rfl, rfl⟩
  · intro i key r hi hr
    rw [hresult hi hr]
    exact decide_eq_true_iff

end ScriptTable

end ArkToolchain
