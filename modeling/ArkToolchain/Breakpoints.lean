/-
The breakpoints of the static debugger and their store (tooling/static/debugger/breakpoint.cpp,
conditional_breakpoint.cpp and breakpoint_storage.cpp), with the debug information that they are
resolved against (debug_info_cache.cpp).

The store keeps the breakpoints by their ids and the ids by location.  Both tables are lists of
pairs; the second is a multimap, so a pair can be in it more than once.  An unordered set of
locations is a list without duplicates.
-/
import ArkToolchain.SingleStepper
import Mathlib.Data.List.Dedup

namespace ArkToolchain

/-! ### Debug information of files -/

/-- Whether a source file of a panda file is meant. -/
abbrev SourceFileFilter := String → String → Bool

/-- What the extractor knows of one method. -/
structure MethodDebugInfo where
  methodId : Nat
  sourceFile : String
  lineNumberTable : List LineTableEntry
  deriving DecidableEq

/-- A loaded file with its debug information; files are told apart by their
address. -/
structure PandaFile where
  address : Nat
  filename : String
  methods : List MethodDebugInfo
  deriving DecidableEq

namespace PandaFile

variable (filter : SourceFileFilter) (lineNumber : Int) (file : PandaFile)

/-- The first bytecode location of the line in a method that passes the
filter. -/
def methodLocation (method : MethodDebugInfo) : Option PtLocation :=
  if filter method.sourceFile file.filename then
    (method.lineNumberTable.find? fun entry => entry.line = lineNumber).map fun entry =>
      ⟨file.filename, method.methodId, entry.offset⟩
  else none

/-- The locations of the line, one for each method that has it. -/
def lineLocations : List PtLocation :=
  file.methods.filterMap (methodLocation filter lineNumber file)

/-- The source files in which the locations are. -/
def lineSourceFiles : List (String × String) :=
  (file.methods.filter fun method => (methodLocation filter lineNumber file method).isSome).map
    fun method => (method.sourceFile, file.filename)

end PandaFile

/-- `DebugInfoCache`: the files that are loaded. -/
structure DebugInfoCache where
  debugInfos : List PandaFile := []
  deriving DecidableEq

namespace DebugInfoCache

/-- `AddPandaFile`; a file that is there already is not added again. -/
def addPandaFile (cache : DebugInfoCache) (file : PandaFile) : DebugInfoCache :=
  if cache.debugInfos.any fun known => known.address = file.address then cache
  else { debugInfos := cache.debugInfos ++ [file] }

/-- `GetBreakpointLocations`; the second component is what it leaves in
`sourceFiles`. -/
def getBreakpointLocations (cache : DebugInfoCache) (filter : SourceFileFilter)
    (lineNumber : Int) : List PtLocation × List (String × String) :=
  ((cache.debugInfos.flatMap (PandaFile.lineLocations filter lineNumber)).dedup,
    (cache.debugInfos.flatMap (PandaFile.lineSourceFiles filter lineNumber)).dedup)

end DebugInfoCache

/-! ### Breakpoints -/

abbrev BreakpointId := Nat

/-- `breakpointLocations_`. -/
abbrev LocationMap := List (PtLocation × BreakpointId)

/-- What evaluates conditions: an error, or the value as a `U1` and the
exception that was thrown. -/
structure EvaluationEngine where
  evaluateExpression : (frameNumber : Nat) → (bytecode : String) → Except String (Bool × Option Nat)

/-- A breakpoint without condition. -/
structure Breakpoint where
  id : BreakpointId
  resolved : Bool := false
  locations : List PtLocation := []
  sourceFileFilter : SourceFileFilter
  lineNumber : Int

/-- `ConditionalBreakpoint`. -/
structure ConditionalBreakpoint where
  id : BreakpointId
  resolved : Bool := false
  location : Option PtLocation := none
  sourceFileFilter : SourceFileFilter
  lineNumber : Int
  bytecode : String

/-- A breakpoint of one of the two classes. -/
inductive BreakpointBase
  | plain (bp : Breakpoint)
  | conditional (bp : ConditionalBreakpoint)

open BreakpointBase

namespace Breakpoint

/-- `SetLocations`; the result says whether the breakpoint can be kept. -/
def setLocations (bp : Breakpoint) (cache : DebugInfoCache) (map : LocationMap) :
    Bool × Breakpoint × LocationMap :=
  let locations := (cache.getBreakpointLocations bp.sourceFileFilter bp.lineNumber).1
  if locations.isEmpty then (false, { bp with locations }, map)
  else (true, { bp with locations, resolved := true }, map ++ locations.map fun l => (l, bp.id))

/-- The body of the loop over the methods of a file. -/
def tryResolveMethod (file : PandaFile) (state : Breakpoint × LocationMap)
    (method : MethodDebugInfo) : Breakpoint × LocationMap :=
  match file.methodLocation state.1.sourceFileFilter state.1.lineNumber method with
  | none => state
  | some location =>
    ({ state.1 with locations := state.1.locations.insert location, resolved := true },
      state.2 ++ [(location, state.1.id)])

/-- `TryResolve`, for each method of the file. -/
def tryResolve (bp : Breakpoint) (file : PandaFile) (map : LocationMap) :
    Breakpoint × LocationMap :=
  file.methods.foldl (tryResolveMethod file) (bp, map)

/-- `ShouldStopAt`. -/
def shouldStopAt (bp : Breakpoint) (location : PtLocation) : Bool :=
  if !bp.resolved then false else bp.locations.any fun l => l = location

end Breakpoint

namespace ConditionalBreakpoint

/-- `SetLocations`: the breakpoint is not kept if it has several locations. -/
def setLocations (bp : ConditionalBreakpoint) (cache : DebugInfoCache) (map : LocationMap) :
    Bool × ConditionalBreakpoint × LocationMap :=
  match (cache.getBreakpointLocations bp.sourceFileFilter bp.lineNumber).1 with
  | [] => (true, bp, map)
  | [location] =>
    (true, { bp with location := some location, resolved := true }, map ++ [(location, bp.id)])
  | _ :: _ :: _ => (false, bp, map)

/-- One round of the loop of `TryResolveImpl`. -/
def tryResolveMethod (file : PandaFile) (state : ConditionalBreakpoint × LocationMap)
    (method : MethodDebugInfo) : ConditionalBreakpoint × LocationMap :=
  match file.methodLocation state.1.sourceFileFilter state.1.lineNumber method with
  | none => state
  | some location =>
    ({ state.1 with location := some location, resolved := true },
      state.2 ++ [(location, state.1.id)])

/-- `TryResolve`. -/
def tryResolve (bp : ConditionalBreakpoint) (file : PandaFile) (map : LocationMap) :
    ConditionalBreakpoint × LocationMap :=
  if bp.resolved then (bp, map) else file.methods.foldl (tryResolveMethod file) (bp, map)

/-- The condition is evaluated in the top frame. -/
def shouldStopAt (bp : ConditionalBreakpoint) (location : PtLocation)
    (engine : EvaluationEngine) : Bool :=
  if bp.location ≠ some location then false
  else
    match engine.evaluateExpression 0 bp.bytecode with
    | .error _ => false
    | .ok (_, some _) => false
    | .ok (value, none) => value

end ConditionalBreakpoint

namespace BreakpointBase

def getId : BreakpointBase → BreakpointId
  | .plain bp => bp.id
  | .conditional bp => bp.id

/-- The locations that `EnumerateLocations` goes through. -/
def locations : BreakpointBase → List PtLocation
  | .plain bp => bp.locations
  | .conditional bp => bp.location.toList

/-- The virtual function; the first component says that the breakpoint is kept. -/
def setLocations (cache : DebugInfoCache) (map : LocationMap) :
    BreakpointBase → Bool × BreakpointBase × LocationMap
  | .plain bp =>
    let (kept, bp, map) := bp.setLocations cache map
    (kept, .plain bp, map)
  | .conditional bp =>
    let (kept, bp, map) := bp.setLocations cache map
    (kept, .conditional bp, map)

def tryResolve (file : PandaFile) (map : LocationMap) :
    BreakpointBase → BreakpointBase × LocationMap
  | .plain bp =>
    let (bp, map) := bp.tryResolve file map
    (.plain bp, map)
  | .conditional bp =>
    let (bp, map) := bp.tryResolve file map
    (.conditional bp, map)

def shouldStopAt (location : PtLocation) (engine : EvaluationEngine) : BreakpointBase → Bool
  | .plain bp => bp.shouldStopAt location
  | .conditional bp => bp.shouldStopAt location engine

end BreakpointBase

/-! ### The store -/

/-- `BreakpointStorage`. -/
structure BreakpointStorage where
  breakpointsActive : Bool := true
  nextBreakpointId : BreakpointId := 0
  breakpointLocations : LocationMap := []
  breakpointStorage : List (BreakpointId × BreakpointBase) := []

/-- The loop of `ResolveBreakpoints`. -/
def resolveAll (file : PandaFile) :
    List (BreakpointId × BreakpointBase) → LocationMap →
      List (BreakpointId × BreakpointBase) × LocationMap
  | [], map => ([], map)
  | (id, bp) :: rest, map =>
    let (bp, map) := bp.tryResolve file map
    let (rest, map) := resolveAll file rest map
    ((id, bp) :: rest, map)

namespace BreakpointStorage

/-- A breakpoint of the class that the condition asks for. -/
def newBreakpoint (id : BreakpointId) (filter : SourceFileFilter) (lineNumber : Int) :
    Option String → BreakpointBase
  | none => .plain { id, sourceFileFilter := filter, lineNumber }
  | some bytecode => .conditional { id, sourceFileFilter := filter, lineNumber, bytecode }

variable (s : BreakpointStorage)

/-- `SetBreakpoint`; the second component is what it leaves in `sourceFiles`. -/
def setBreakpoint (filter : SourceFileFilter) (lineNumber : Int)
    (condition : Option String) (cache : DebugInfoCache) :
    Option BreakpointId × List (String × String) × BreakpointStorage :=
  let id := s.nextBreakpointId
  let sourceFiles := (cache.getBreakpointLocations filter lineNumber).2
  match (newBreakpoint id filter lineNumber condition).setLocations cache s.breakpointLocations with
  | (false, _, map) => (none, sourceFiles, { s with breakpointLocations := map })
  | (true, bp, map) =>
    (some id, sourceFiles,
      { s with
        nextBreakpointId := id + 1
        breakpointLocations := map
        breakpointStorage := (id, bp) :: s.breakpointStorage.filter fun e => e.1 ≠ id })

/-- `ResolveBreakpoints`, when a file has been loaded. -/
def resolveBreakpoints (file : PandaFile) : BreakpointStorage :=
  let (storage, map) := resolveAll file s.breakpointStorage s.breakpointLocations
  { s with breakpointStorage := storage, breakpointLocations := map }

/-- `RemoveBreakpoint`, with its locations. -/
def removeBreakpoint (id : BreakpointId) : BreakpointStorage :=
  { s with
    breakpointLocations := s.breakpointLocations.filter fun e => e.2 ≠ id
    breakpointStorage := s.breakpointStorage.filter fun e => e.1 ≠ id }

/-- `RemoveBreakpoints`: every breakpoint with a location that passes. -/
def removeBreakpoints (filter : PtLocation → Bool) : BreakpointStorage :=
  ((s.breakpointLocations.filter fun e => filter e.1).map Prod.snd).foldl removeBreakpoint s

def reset (_ : BreakpointStorage) : BreakpointStorage :=
  {}

def setBreakpointsActive (active : Bool) : BreakpointStorage :=
  { s with breakpointsActive := active }

/-- `GetBreakpointsByLocation`. -/
def getBreakpointsByLocation (location : PtLocation) : List BreakpointId :=
  (s.breakpointLocations.filter fun e => e.1 = location).map Prod.snd

/-- The loop of `ShouldStopAtBreakpoint`; `none` if `breakpointStorage_[id]`
is no breakpoint. -/
def anyStops (s : BreakpointStorage) (location : PtLocation) (engine : EvaluationEngine) :
    List BreakpointId → Option Bool
  | [] => some false
  | id :: ids =>
    match s.breakpointStorage.lookup id with
    | none => none
    | some bp =>
      if bp.shouldStopAt location engine then some true else anyStops s location engine ids

/-- `ShouldStopAtBreakpoint`. -/
def shouldStopAtBreakpoint (location : PtLocation) (engine : EvaluationEngine) : Option Bool :=
  if !s.breakpointsActive then some false
  else s.anyStops location engine (s.getBreakpointsByLocation location)

end BreakpointStorage

/-- The operations on the store. -/
inductive StorageOp
  | setBreakpoint (filter : SourceFileFilter) (lineNumber : Int) (condition : Option String)
      (cache : DebugInfoCache)
  | resolveBreakpoints (file : PandaFile)
  | removeBreakpoint (id : BreakpointId)
  | removeBreakpoints (filter : PtLocation → Bool)
  | reset
  | setBreakpointsActive (active : Bool)

/-- The store after an operation. -/
def BreakpointStorage.step (s : BreakpointStorage) : StorageOp → BreakpointStorage
  | .setBreakpoint filter lineNumber condition cache =>
    (s.setBreakpoint filter lineNumber condition cache).2.2
  | .resolveBreakpoints file => s.resolveBreakpoints file
  | .removeBreakpoint id => s.removeBreakpoint id
  | .removeBreakpoints filter => s.removeBreakpoints filter
  | .reset => s.reset
  | .setBreakpointsActive active => s.setBreakpointsActive active

/-! ### What resolving adds -/

theorem mem_foldl_insert {α : Type*} [DecidableEq α] {a : α} (new held : List α) :
    a ∈ new.foldl (fun ls l => ls.insert l) held ↔ a ∈ held ∨ a ∈ new := by
  induction new generalizing held with
  | nil => simp
  | cons x new ih =>
    rw [List.foldl_cons, ih, List.mem_insert_iff, List.mem_cons]
    tauto

namespace Breakpoint

theorem foldl_tryResolveMethod (file : PandaFile) (methods : List MethodDebugInfo)
    (bp : Breakpoint) (map : LocationMap) :
    let found := methods.filterMap (file.methodLocation bp.sourceFileFilter bp.lineNumber)
    methods.foldl (tryResolveMethod file) (bp, map) =
      ({ bp with
          locations := found.foldl (fun ls l => ls.insert l) bp.locations
          resolved := bp.resolved || !found.isEmpty }, map ++ found.map fun l => (l, bp.id)) := by
  induction methods generalizing bp map with
  | nil => simp
  | cons method methods ih =>
    rcases hloc : file.methodLocation bp.sourceFileFilter bp.lineNumber method with - | location
    all_goals
      simp [tryResolveMethod, hloc, ih]

end Breakpoint

namespace ConditionalBreakpoint

theorem foldl_tryResolveMethod (file : PandaFile) (methods : List MethodDebugInfo)
    (bp : ConditionalBreakpoint) (map : LocationMap) :
    let found := methods.filterMap (file.methodLocation bp.sourceFileFilter bp.lineNumber)
    methods.foldl (tryResolveMethod file) (bp, map) =
      ({ bp with
          location := found.getLast?.or bp.location
          resolved := bp.resolved || !found.isEmpty }, map ++ found.map fun l => (l, bp.id)) := by
  induction methods generalizing bp map with
  | nil => simp
  | cons method methods ih =>
    rcases hloc : file.methodLocation bp.sourceFileFilter bp.lineNumber method with - | location
    · simp [tryResolveMethod, hloc, ih]
    · simp [tryResolveMethod, hloc, ih, List.getLast?_cons]

end ConditionalBreakpoint

namespace BreakpointBase

/-- The locations that a newly loaded file has for the breakpoint.  A
conditional breakpoint that has its location does not look for others. -/
def newLocations (file : PandaFile) : BreakpointBase → List PtLocation
  | .plain bp => file.lineLocations bp.sourceFileFilter bp.lineNumber
  | .conditional bp =>
    if bp.resolved then [] else file.lineLocations bp.sourceFileFilter bp.lineNumber

/-- The breakpoint after `TryResolve`. -/
def afterResolve (file : PandaFile) (bp : BreakpointBase) : BreakpointBase :=
  (bp.tryResolve file []).1

variable (file : PandaFile) (map : LocationMap)

theorem tryResolve_plain (bp : Breakpoint) :
    let found := file.lineLocations bp.sourceFileFilter bp.lineNumber
    (plain bp).tryResolve file map =
      (.plain { bp with
          locations := found.foldl (fun ls l => ls.insert l) bp.locations
          resolved := bp.resolved || !found.isEmpty }, map ++ found.map fun l => (l, bp.id)) := by
  simp only [tryResolve, Breakpoint.tryResolve, Breakpoint.foldl_tryResolveMethod]
  rfl

theorem tryResolve_conditional (bp : ConditionalBreakpoint) :
    let found := file.lineLocations bp.sourceFileFilter bp.lineNumber
    (conditional bp).tryResolve file map =
      if bp.resolved then (.conditional bp, map)
      else
        (.conditional
          { bp with location := found.getLast?.or bp.location, resolved := !found.isEmpty },
          map ++ found.map fun l => (l, bp.id)) := by
  rcases hresolved : bp.resolved with - | -
  · simp only [tryResolve, ConditionalBreakpoint.tryResolve, hresolved,
      ConditionalBreakpoint.foldl_tryResolveMethod]
    rfl
  · simp [tryResolve, ConditionalBreakpoint.tryResolve, hresolved]

variable (bp : BreakpointBase)

/-- `TryResolve` adds the new locations to the multimap. -/
theorem tryResolve_eq :
    bp.tryResolve file map =
      (bp.afterResolve file, map ++ (bp.newLocations file).map fun l => (l, bp.getId)) := by
  cases bp with
  | plain bp =>
    rw [afterResolve, tryResolve_plain, tryResolve_plain]
    rfl
  | conditional bp =>
    rw [afterResolve, tryResolve_conditional, tryResolve_conditional]
    rcases hresolved : bp.resolved with - | -
    · simp [newLocations, hresolved, getId]
    · simp [newLocations, hresolved]

@[simp] theorem getId_afterResolve : (bp.afterResolve file).getId = bp.getId := by
  cases bp with
  | plain bp => rw [afterResolve, tryResolve_plain]; rfl
  | conditional bp =>
    rw [afterResolve, tryResolve_conditional]
    split <;> rfl

end BreakpointBase

/-- `ResolveBreakpoints` adds the new locations of every breakpoint. -/
theorem resolveAll_eq (file : PandaFile) (storage : List (BreakpointId × BreakpointBase))
    (map : LocationMap) :
    resolveAll file storage map =
      (storage.map fun e => (e.1, e.2.afterResolve file),
        map ++ storage.flatMap fun e => (e.2.newLocations file).map fun l => (l, e.2.getId)) := by
  induction storage generalizing map with
  | nil => simp [resolveAll]
  | cons e storage ih =>
    simp [resolveAll, tryResolve_eq, ih, List.append_assoc]

/-! ### What setting adds -/

/-- What holds of every breakpoint of a store: the set of locations has no
duplicates, and a breakpoint is resolved when it has a location. -/
def BreakpointBase.Sound : BreakpointBase → Prop
  | .plain bp => bp.locations.Nodup ∧ bp.resolved = !bp.locations.isEmpty
  | .conditional bp => bp.resolved = bp.location.isSome

namespace BreakpointStorage

/-- Whether a breakpoint is kept that has these locations when it is set: a
plain one needs a location, a conditional one must not have two. -/
def keepsBreakpoint (locations : List PtLocation) : Option String → Bool
  | none => !locations.isEmpty
  | some _ => locations.length ≤ 1

theorem setLocations_newBreakpoint (id : BreakpointId) (filter : SourceFileFilter)
    (lineNumber : Int) (condition : Option String) (cache : DebugInfoCache) (map : LocationMap) :
    let locations := (cache.getBreakpointLocations filter lineNumber).1
    ∃ bp, (newBreakpoint id filter lineNumber condition).setLocations cache map =
        (keepsBreakpoint locations condition, bp,
          if keepsBreakpoint locations condition then map ++ locations.map fun l => (l, id)
          else map) ∧
      bp.getId = id ∧
      (keepsBreakpoint locations condition = true → bp.locations = locations ∧ bp.Sound) := by
  intro locations
  have hnodup : locations.Nodup := List.nodup_dedup _
  have hget : (cache.getBreakpointLocations filter lineNumber).1 = locations := rfl
  clear_value locations
  cases condition with
  | none =>
    rcases locations with - | ⟨l, ls⟩
    all_goals
      refine ⟨_, by simp [newBreakpoint, setLocations, Breakpoint.setLocations,
        hget, keepsBreakpoint]; rfl, rfl, ?_⟩
      simp_all [keepsBreakpoint, locations, BreakpointBase.Sound]
  | some bytecode =>
    rcases locations with - | ⟨l, - | ⟨l', ls⟩⟩
    all_goals
      refine ⟨_, by simp [newBreakpoint, setLocations,
        ConditionalBreakpoint.setLocations, hget, keepsBreakpoint]; rfl, rfl, ?_⟩
      simp_all [keepsBreakpoint, locations, BreakpointBase.Sound]

def added (s : BreakpointStorage) (bp : BreakpointBase) : BreakpointStorage :=
  { s with
    nextBreakpointId := s.nextBreakpointId + 1
    breakpointLocations :=
      s.breakpointLocations ++ bp.locations.map fun l => (l, s.nextBreakpointId)
    breakpointStorage :=
      (s.nextBreakpointId, bp) :: s.breakpointStorage.filter fun e => e.1 ≠ s.nextBreakpointId }

/-- **Setting a breakpoint** adds it with the locations found, or leaves the
store as it is. -/
theorem setBreakpoint_cases (s : BreakpointStorage) (filter : SourceFileFilter)
    (lineNumber : Int) (condition : Option String) (cache : DebugInfoCache) :
    let locations := (cache.getBreakpointLocations filter lineNumber).1
    let result := s.setBreakpoint filter lineNumber condition cache
    (keepsBreakpoint locations condition = false ∧ result.1 = none ∧ result.2.2 = s) ∨
      (keepsBreakpoint locations condition = true ∧ result.1 = some s.nextBreakpointId ∧
        ∃ bp, result.2.2 = s.added bp ∧ bp.getId = s.nextBreakpointId ∧
          bp.locations = locations ∧ bp.Sound) := by
  intro locations result
  obtain ⟨bp, hset, hid, hkept⟩ := setLocations_newBreakpoint s.nextBreakpointId filter lineNumber
    condition cache s.breakpointLocations
  rcases hkeeps : keepsBreakpoint locations condition with - | -
  · left
    have hresult : result = (none, (cache.getBreakpointLocations filter lineNumber).2, s) := by
      simp [result, setBreakpoint, hset, locations, hkeeps]
    simp [hresult]
  · right
    obtain ⟨hlocs, hsound⟩ := hkept hkeeps
    have hresult : result = (some s.nextBreakpointId,
        (cache.getBreakpointLocations filter lineNumber).2, s.added bp) := by
      simp [result, setBreakpoint, hset, locations, hkeeps, added, hlocs]
    exact ⟨rfl, by simp [hresult], bp, by simp [hresult], hid, hlocs, hsound⟩

end BreakpointStorage

end ArkToolchain
