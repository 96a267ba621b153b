/-
The table of remote objects of the dynamic debugger (`curObjectId_` and `properties_` of
runtime_impl.h, `scopeObjects_` and `CleanUpRuntimeProperties` of debugger_impl.cpp).

A table that has handed out its ids one after another is the list of the handles stored since
the last clean-up, as long as the ids fit in 32 bits (`WellFormed`).  `Reports` says that every
id a computation reports leads to its value.
-/
import ArkToolchain.Growth
import ArkToolchain.Numbering
import Mathlib.Algebra.Group.Int.Defs
import Mathlib.Algebra.Group.Nat.Defs
import Mathlib.Data.List.AList

namespace ArkToolchain

universe u v

/-- A global handle of the VM.  The address names the handle: no other one is
created with it. -/
structure GlobalHandle (V : Type u) where
  address : Nat
  value : V
  deriving DecidableEq

/-- What the client is told about a value. -/
structure RemoteObject (V : Type u) where
  value : V
  objectId : Option Int := none
  deriving DecidableEq

inductive ScopeType
  | «local»
  | closure
  | module
  | global
  deriving DecidableEq

/-- `properties_[id]` is empty where it was only looked at.  `created` counts the
handles that were created, `stored` are those stored since the last clean-up, and
`freed` the addresses on which `FreeGlobalHandleAddr` was called. -/
structure ObjectTable (V : Type u) where
  curObjectId : Int := 0
  properties : AList fun _ : Int => Option (GlobalHandle V) := ∅
  scopeObjects : List (Nat × ScopeType × Int) := []
  created : Nat := 0
  stored : List (GlobalHandle V) := []
  freed : List Nat := []

def int32 (n : Int) : Int :=
  n.bmod (2 ^ 32)

theorem int32_eq {z : Int} (hle : -2 ^ 31 ≤ z) (hlt : z < 2 ^ 31) : int32 z = z := by
  apply Int.bmod_eq_of_le <;> omega

variable {V : Type u}

namespace ObjectTable

/-! ### Handing out ids -/

/-- `SetObjectId(curObjectId_); properties_[curObjectId_++] = Global(vm_, value)`. -/
def cacheObject (value : V) : StateM (ObjectTable V) (RemoteObject V) := fun s =>
  ({ value, objectId := some s.curObjectId },
    { s with
      curObjectId := int32 (s.curObjectId + 1)
      properties := s.properties.insert s.curObjectId (some ⟨s.created, value⟩)
      created := s.created + 1
      stored := s.stored ++ [⟨s.created, value⟩] })

/-- The object of a scope, whose id is kept for `UpdateScopeObject`. -/
def cacheScope (sp : Nat) (scope : ScopeType) (value : V) :
    StateM (ObjectTable V) (RemoteObject V) := fun s =>
  cacheObject value { s with scopeObjects := s.scopeObjects ++ [(sp, scope, s.curObjectId)] }

/-! ### Looking ids up -/

/-- `properties_[id]`: an id that is not in the table is put there. -/
def lookAt (id : Int) (s : ObjectTable V) : Option (GlobalHandle V) × ObjectTable V :=
  match s.properties.lookup id with
  | some handle => (handle, s)
  | none => (none, { s with properties := s.properties.insert id none })

/-- The search of `UpdateScopeObject` through the objects of a scope, for one that
has the variable. -/
def searchScope (has : V → Bool) : List Int → ObjectTable V → ObjectTable V
  | [], s => s
  | objectId :: ids, s =>
    let (handle, s) := s.lookAt objectId
    if handle.any fun h => has h.value then s else searchScope has ids s

def updateScopeObject (sp : Nat) (scope : ScopeType) (has : V → Bool) (s : ObjectTable V) :
    ObjectTable V :=
  let ids := (s.scopeObjects.filter fun e => e.1 = sp && e.2.1 = scope).map fun e => e.2.2
  searchScope has ids s

/-! ### The clean-up -/

/-- `properties_[id].FreeGlobalHandleAddr()`. -/
def freeGlobalHandleAddr (id : Int) (s : ObjectTable V) : ObjectTable V :=
  match s.lookAt id with
  | (some handle, s) => { s with freed := s.freed ++ [handle.address] }
  | (none, s) => s

/-- The loop of the clean-up.  It counts `validObjId` down to `0`, so the number of
its rounds is `validObjId + 1`. -/
def freeDown : Nat → ObjectTable V → ObjectTable V
  | 0, s => s
  | validObjId + 1, s => freeDown validObjId (s.freeGlobalHandleAddr validObjId)

def cleanUpRuntimeProperties (s : ObjectTable V) : ObjectTable V :=
  if s.properties.entries.isEmpty then s
  else
    let validObjId := int32 (s.curObjectId - 1)
    { freeDown (validObjId + 1).toNat s with
      curObjectId := 0
      properties := ∅
      stored := [] }

def cleanUpOnPaused (s : ObjectTable V) : ObjectTable V :=
  { s.cleanUpRuntimeProperties with scopeObjects := [] }

/-! ### The handles stored since the last clean-up -/

/-- Handle number `id`. -/
def handleOf (stored : List (GlobalHandle V)) (id : Int) : Option (GlobalHandle V) :=
  if 0 ≤ id then stored[id.toNat]? else none

variable (stored : List (GlobalHandle V))

theorem handleOf_natCast (n : Nat) : handleOf stored n = stored[n]? := by
  simp [handleOf]

theorem handleOf_append (handle : GlobalHandle V) (id : Int) :
    handleOf (stored ++ [handle]) id =
      if id = stored.length then some handle else handleOf stored id := by
  unfold handleOf
  by_cases hid : 0 ≤ id
  · obtain ⟨n, rfl⟩ := Int.eq_ofNat_of_zero_le hid
    rw [if_pos hid, if_pos hid, Int.toNat_natCast]
    by_cases hn : n = stored.length
    · simp [hn]
    · have hne : (n : Int) ≠ stored.length := by omega
      rw [if_neg hne, List.getElem?_append]
      split
      · rfl
      · rw [List.getElem?_eq_none (by simpa using by omega), List.getElem?_eq_none (by omega)]
  · rw [if_neg hid, if_neg hid, if_neg (by omega)]

theorem isSome_handleOf_iff {stored : List (GlobalHandle V)} {id : Int} :
    (handleOf stored id).isSome ↔ 0 ≤ id ∧ id < stored.length := by
  unfold handleOf
  split
  · rw [isSome_getElem?]
    omega
  · constructor
    · nofun
    · intro h
      exact absurd h.1 ‹_›

/-- The table is the list of the handles stored since the last clean-up. -/
def Indexed (s : ObjectTable V) : Prop :=
  ∀ id, s.properties.lookup id = (handleOf s.stored id).map some

/-- The next id is the length of the list, and every handle that was created is in
the list or has been freed. -/
structure Listed (s : ObjectTable V) : Prop where
  curObjectId_eq : s.curObjectId = s.stored.length
  indexed : s.Indexed
  scopeObjects_lt : ∀ e ∈ s.scopeObjects, 0 ≤ e.2.2 ∧ e.2.2 < s.stored.length
  addresses : (s.freed ++ s.stored.map GlobalHandle.address).Perm (List.range s.created)

/-- The ids handed out since the last clean-up fit in 32 bits. -/
def Fits (s : ObjectTable V) : Prop :=
  s.stored.length < 2 ^ 31

instance (s : ObjectTable V) : Decidable s.Fits :=
  inferInstanceAs (Decidable (s.stored.length < 2 ^ 31))

def WellFormed (s : ObjectTable V) : Prop :=
  s.Fits → s.Listed

/-- The id of the remote object leads to its value. -/
def Resolves (r : RemoteObject V) (s : ObjectTable V) : Prop :=
  s.Fits → ∀ id, r.objectId = some id → ∃ handle, handleOf s.stored id = some handle ∧
    handle.value = r.value

/-- A table grows by the handles that are stored. -/
instance : Preorder (ObjectTable V) where
  le s s' := s.stored <+: s'.stored
  le_refl _ := List.prefix_rfl
  le_trans _ _ _ h h' := h.trans h'

variable {s : ObjectTable V}

theorem Fits.of_le {s' : ObjectTable V} (hle : s ≤ s') (h : s'.Fits) : s.Fits :=
  lt_of_le_of_lt hle.length_le h

theorem monotone_resolves (r : RemoteObject V) : Monotone (Resolves r) := by
  intro s s' hle h hfits id hid
  obtain ⟨handle, hhandle, hvalue⟩ := h (hfits.of_le hle) id hid
  refine ⟨handle, ?_, hvalue⟩
  unfold handleOf at hhandle ⊢
  split at hhandle
  · rw [if_pos ‹_›]
    exact prefix_iff_forall_getElem?.mp hle _ _ hhandle
  · cases hhandle

theorem wellFormed_empty : ({} : ObjectTable V).WellFormed := by
  intro _
  exact
    { curObjectId_eq := rfl
      indexed := fun id => by simp [handleOf]
      scopeObjects_lt := nofun
      addresses := .refl _ }

/-! ### Handing out ids keeps the table -/

theorem Listed.cacheObject (h : s.Listed) (value : V) (hfits : (cacheObject value s).2.Fits) :
    (cacheObject value s).2.Listed := by
  have hlt : s.stored.length + 1 < 2 ^ 31 := by simpa [Fits, ObjectTable.cacheObject] using hfits
  refine { curObjectId_eq := ?_, indexed := ?_, scopeObjects_lt := ?_, addresses := ?_ }
  · show int32 (s.curObjectId + 1) = ((s.stored ++ [_]).length : Int)
    rw [h.curObjectId_eq, List.length_append, List.length_singleton]
    exact int32_eq (by omega) (by omega)
  · intro id
    show (s.properties.insert s.curObjectId _).lookup id = _
    rw [ObjectTable.cacheObject, handleOf_append, h.curObjectId_eq]
    by_cases hid : id = s.stored.length
    · rw [if_pos hid, hid, AList.lookup_insert]
      rfl
    · rw [if_neg hid, AList.lookup_insert_ne hid, h.indexed]
  · intro e he
    have := h.scopeObjects_lt e he
    simp only [ObjectTable.cacheObject, List.length_append, List.length_singleton]
    omega
  · show (s.freed ++ (s.stored ++ [_]).map _).Perm (List.range (s.created + 1))
    rw [List.map_append, ← List.append_assoc, List.range_succ]
    exact h.addresses.append_right _

theorem resolves_cacheObject (h : s.WellFormed) (value : V) :
    (cacheObject value s).2.Resolves (cacheObject value s).1 := by
  intro hfits id hid
  obtain rfl : s.curObjectId = id := Option.some.inj hid
  have hle : s ≤ (cacheObject value s).2 := List.prefix_append _ _
  refine ⟨⟨s.created, value⟩, ?_, rfl⟩
  show handleOf (s.stored ++ [_]) _ = _
  rw [handleOf_append, if_pos (h (hfits.of_le hle)).curObjectId_eq]

theorem Listed.cacheScope (h : s.Listed) (sp : Nat) (scope : ScopeType) (value : V)
    (hfits : (cacheScope sp scope value s).2.Fits) : (cacheScope sp scope value s).2.Listed := by
  have hlisted := h.cacheObject value hfits
  refine { hlisted with scopeObjects_lt := ?_ }
  intro e he
  rcases List.mem_append.mp he with he | he
  · exact hlisted.scopeObjects_lt e he
  · -- the id that is kept is the one handed out
    obtain rfl := List.mem_singleton.mp he
    show 0 ≤ s.curObjectId ∧ s.curObjectId < ((s.stored ++ [_]).length : Int)
    rw [h.curObjectId_eq, List.length_append, List.length_singleton]
    omega

/-! ### Looking known ids up changes nothing -/

variable {handle : GlobalHandle V}

theorem Indexed.lookAt (h : s.Indexed) {id : Int} (hid : handleOf s.stored id = some handle) :
    s.lookAt id = (some handle, s) := by
  rw [ObjectTable.lookAt, h, hid]
  rfl

theorem searchScope_eq (h : s.Indexed) (has : V → Bool) {ids : List Int}
    (hids : ∀ id ∈ ids, 0 ≤ id ∧ id < s.stored.length) : searchScope has ids s = s := by
  induction ids with
  | nil => rfl
  | cons id ids ih =>
    have hid := isSome_handleOf_iff.mpr (hids id List.mem_cons_self)
    obtain ⟨handle, hhandle⟩ := Option.isSome_iff_exists.mp hid
    rw [searchScope, h.lookAt hhandle]
    show (if _ then s else searchScope has ids s) = s
    rw [ih fun id' hid' => hids id' (List.mem_cons_of_mem id hid'), ite_self]

/-- The ids of the scopes are in the table, so `properties_[id]` adds none. -/
theorem updateScopeObject_eq (h : s.Listed) (sp : Nat) (scope : ScopeType) (has : V → Bool) :
    s.updateScopeObject sp scope has = s := by
  apply searchScope_eq h.indexed
  intro id hid
  obtain ⟨e, he, rfl⟩ := List.mem_map.mp hid
  exact h.scopeObjects_lt e (List.mem_filter.mp he).1

/-! ### The clean-up frees what is stored -/

theorem Indexed.freeGlobalHandleAddr (h : s.Indexed) {n : Nat} (hn : s.stored[n]? = some handle) :
    s.freeGlobalHandleAddr n = { s with freed := s.freed ++ [handle.address] } := by
  have hid : handleOf s.stored n = some handle := by rw [handleOf_natCast, hn]
  rw [ObjectTable.freeGlobalHandleAddr, h.lookAt hid]

/-- **The loop**: `n` rounds free the first `n` handles, from the last one down. -/
theorem freeDown_eq {n : Nat} (h : s.Indexed) (hn : n ≤ s.stored.length) :
    freeDown n s =
      { s with freed := s.freed ++ ((s.stored.take n).map GlobalHandle.address).reverse } := by
  induction n generalizing s with
  | zero => simp [freeDown]
  | succ n ih =>
    have hget : s.stored[n]? = some s.stored[n] := List.getElem?_eq_getElem hn
    rw [freeDown, h.freeGlobalHandleAddr hget]
    -- what is freed is not read by the loop
    rw [ih (s := { s with freed := s.freed ++ [s.stored[n].address] }) h (Nat.le_of_succ_le hn)]
    rw [List.take_add_one, hget, Option.toList_some, List.map_append, List.reverse_append,
      List.append_assoc]
    rfl

theorem Listed.eq_nil_of_isEmpty (h : s.Listed) (hempty : s.properties.entries.isEmpty = true) :
    s.properties = ∅ ∧ s.stored = [] := by
  have hproperties : s.properties = ∅ := AList.ext (List.isEmpty_iff.mp hempty)
  refine ⟨hproperties, ?_⟩
  have hzero := h.indexed 0
  rw [hproperties, AList.lookup_empty] at hzero
  cases hstored : s.stored with
  | nil => rfl
  | cons handle stored => simp [handleOf, hstored] at hzero

/-- **The clean-up** frees the handles of the list, the last one first, and empties
the table. -/
theorem cleanUpRuntimeProperties_eq (h : s.Listed) (hfits : s.Fits) :
    s.cleanUpRuntimeProperties =
      { s with
        curObjectId := 0
        properties := ∅
        stored := []
        freed := s.freed ++ (s.stored.map GlobalHandle.address).reverse } := by
  unfold cleanUpRuntimeProperties
  split
  · next hempty =>
      obtain ⟨hproperties, hstored⟩ := h.eq_nil_of_isEmpty hempty
      have hcur : s.curObjectId = 0 := by rw [h.curObjectId_eq, hstored]; rfl
      cases s
      simp_all
  · have hrounds : (int32 (s.curObjectId - 1) + 1).toNat = s.stored.length := by
      have hlt : s.stored.length < 2 ^ 31 := hfits
      rw [h.curObjectId_eq, int32_eq (by omega) (by omega)]
      omega
    simp only [hrounds]
    rw [freeDown_eq h.indexed le_rfl, List.take_length]

theorem Listed.cleanUpOnPaused (h : s.Listed) (hfits : s.Fits) : s.cleanUpOnPaused.Listed := by
  rw [ObjectTable.cleanUpOnPaused, cleanUpRuntimeProperties_eq h hfits]
  refine { curObjectId_eq := rfl, indexed := ?_, scopeObjects_lt := nofun, addresses := ?_ }
  · intro id
    simp [handleOf]
  · show (s.freed ++ _ ++ []).Perm (List.range s.created)
    rw [List.append_nil]
    exact ((List.reverse_perm _).append_left _).trans h.addresses

/-! ### Computations that report remote objects -/

def AllResolve (rs : List (RemoteObject V)) (s : ObjectTable V) : Prop :=
  ∀ r ∈ rs, s.Resolves r

theorem monotone_allResolve (rs : List (RemoteObject V)) : Monotone (AllResolve rs) :=
  fun _ _ hle h r hr => monotone_resolves r hle (h r hr)

theorem allResolve_append {rs rs' : List (RemoteObject V)} :
    s.AllResolve (rs ++ rs') ↔ s.AllResolve rs ∧ s.AllResolve rs' :=
  List.forall_mem_append

end ObjectTable

open ObjectTable

variable {α β : Type u}

/-- The computation keeps the table well formed, and the remote objects in its
result resolve if those it is given do. -/
def Reports (given : List (RemoteObject V)) (m : StateM (ObjectTable V) α)
    (objects : α → List (RemoteObject V)) : Prop :=
  Extends WellFormed (AllResolve given) m fun a => AllResolve (objects a)

namespace Reports

variable {given : List (RemoteObject V)} {m : StateM (ObjectTable V) α}
  {objects : α → List (RemoteObject V)} {objects' : β → List (RemoteObject V)}

theorem of_pure {a : α} (h : objects a ⊆ given) : Reports given (pure a) objects :=
  Extends.of_pure fun _ _ hs r hr => hs r (h hr)

variable {f : α → StateM (ObjectTable V) β}

theorem bind (hm : Reports given m objects)
    (hf : ∀ a, Reports (given ++ objects a) (f a) objects') : Reports given (m >>= f) objects' :=
  Extends.bind (monotone_allResolve given) hm fun a =>
    (hf a).weaken (fun _ hs => allResolve_append.mpr hs) fun _ _ h => h

theorem mapM {ι : Type v} {f : ι → StateM (ObjectTable V) β} {xs : List ι}
    (hf : ∀ x, Reports given (f x) objects') :
    Reports given (xs.mapM f) fun bs => bs.flatMap objects' := by
  refine (Extends.mapM (monotone_allResolve given) (fun _ b => monotone_allResolve (objects' b))
    fun x _ => hf x).weaken (fun _ h => h) ?_
  intro bs s hall
  exact List.forall_mem_flatMap.mpr (forall_mem_of_forall₂ hall fun _ _ h => h)

theorem optionMapM (hf : ∀ x, Reports given (f x) objects') (x : Option α) :
    Reports given (x.mapM f) fun b => b.toList.flatMap objects' := by
  cases x with
  | none => exact of_pure (List.nil_subset _)
  | some x =>
    refine (hf x).map fun b s hb => ?_
    simpa using hb

theorem of_cacheObject (value : V) : Reports given (cacheObject value) fun r => [r] := by
  intro s hs _
  refine ⟨List.prefix_append _ _, fun hfits => ?_, ?_⟩
  · exact (hs (hfits.of_le (List.prefix_append _ _))).cacheObject value hfits
  · intro r hr
    obtain rfl := List.mem_singleton.mp hr
    exact resolves_cacheObject hs value

theorem of_cacheScope (sp : Nat) (scope : ScopeType) (value : V) :
    Reports given (cacheScope sp scope value) fun r => [r] := by
  intro s hs _
  refine ⟨List.prefix_append _ _, fun hfits => ?_, ?_⟩
  · exact (hs (hfits.of_le (List.prefix_append _ _))).cacheScope sp scope value hfits
  · intro r hr
    obtain rfl := List.mem_singleton.mp hr
    -- the entry for the scope is not what the id leads to
    exact resolves_cacheObject hs value

end Reports

end ArkToolchain
