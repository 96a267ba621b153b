/-
Breakpoints and the loading of modules (`LoadModule` and `SetBreakpoint` of
tooling/static/inspector.cpp).

`LoadModule` adds the files of a module to the debug information, and that is all it does: the
store is not told, although it has `ResolveBreakpoints` for this.  A plain breakpoint for which
no location is found does not even get into the store.

Main result: when setting and loading commute (`set_load_comm_iff`).
-/
import ArkToolchain.BreakpointIntegrity

namespace ArkToolchain

open BreakpointStorage

structure BreakpointRequest where
  sourceFilesFilter : SourceFileFilter
  lineNumber : Int
  condition : Option String := none

/-- The condition as `Inspector::SetBreakpoint` passes it on; an empty one
counts as none. -/
def BreakpointRequest.bytecode (request : BreakpointRequest) (decode : String → String) :
    Option String :=
  match request.condition with
  | none => none
  | some condition => if condition = "" then none else some (decode condition)

/-- What the inspector knows of files and breakpoints.  Its store is one that
the operations build. -/
structure InspectorBreakpoints where
  debugInfoCache : DebugInfoCache := {}
  breakpointStorage : BreakpointStorage
  integrity : breakpointStorage.Integrity

def conditionsHold : EvaluationEngine where
  evaluateExpression := fun _ _ => .ok (true, none)

namespace BreakpointStorage

/-- The locations at which a breakpoint stops when its condition holds. -/
def stoppingLocations (s : BreakpointStorage) (id : Option BreakpointId) : List PtLocation :=
  match id with
  | none => []
  | some id =>
    ((s.breakpointLocations.filter fun e => e.2 = id).map Prod.fst).filter fun l =>
      (s.breakpointStorage.lookup id).any fun bp => bp.shouldStopAt l conditionsHold

variable {bp : BreakpointBase}

theorem shouldStopAt_conditionsHold (h : bp.Sound) (l : PtLocation) :
    bp.shouldStopAt l conditionsHold = true ↔ l ∈ bp.locations := by
  cases bp with
  | plain bp =>
    obtain ⟨-, hresolved⟩ := h
    simp only [BreakpointBase.shouldStopAt, Breakpoint.shouldStopAt, hresolved,
      BreakpointBase.locations]
    rcases bp.locations with - | ⟨l₀, ls⟩
    · simp
    · simp [eq_comm (a := l₀)]
  | conditional bp =>
    simp [BreakpointBase.shouldStopAt, ConditionalBreakpoint.shouldStopAt, conditionsHold,
      BreakpointBase.locations]

theorem mem_stoppingLocations_added {s : BreakpointStorage} (hi : s.Integrity) (hsound : bp.Sound)
    (l : PtLocation) :
    l ∈ (s.added bp).stoppingLocations (some s.nextBreakpointId) ↔ l ∈ bp.locations := by
  have hlookup : (s.added bp).breakpointStorage.lookup s.nextBreakpointId = some bp := by
    simp [added]
  -- older pairs have smaller ids
  have hmapped : (l, s.nextBreakpointId) ∈ (s.added bp).breakpointLocations ↔ l ∈ bp.locations := by
    show _ ∈ s.breakpointLocations ++ _ ↔ _
    rw [List.mem_append]
    constructor
    · rintro (hold | hnew)
      · exact absurd (hi.mapped_below hold) (Nat.lt_irrefl _)
      · obtain ⟨l', hl', heq⟩ := List.mem_map.mp hnew
        obtain rfl : l' = l := (Prod.mk.inj heq).1
        exact hl'
    · intro hl
      exact .inr (List.mem_map.mpr ⟨l, hl, rfl⟩)
  simp only [stoppingLocations, List.mem_filter, hlookup, Option.any_some, List.mem_map,
    decide_eq_true_eq]
  constructor
  · rintro ⟨-, hstop⟩
    exact (shouldStopAt_conditionsHold hsound l).mp hstop
  · intro hl
    exact ⟨⟨(l, s.nextBreakpointId), ⟨hmapped.mpr hl, rfl⟩, rfl⟩,
      (shouldStopAt_conditionsHold hsound l).mpr hl⟩

end BreakpointStorage

namespace InspectorBreakpoints

variable (decode : String → String)

/-- `Inspector::LoadModule`; `files` are the files that the class linker
enumerates. -/
def loadModule (files : List PandaFile) (s : InspectorBreakpoints) (fileName : String) :
    InspectorBreakpoints :=
  { s with
    debugInfoCache := (files.filter fun file => file.filename = fileName).foldl
      DebugInfoCache.addPandaFile s.debugInfoCache }

variable (s : InspectorBreakpoints) (request : BreakpointRequest)

/-- `Inspector::SetBreakpoint`. -/
def setBreakpoint : Option BreakpointId × List (String × String) × InspectorBreakpoints :=
  let result := s.breakpointStorage.setBreakpoint request.sourceFilesFilter request.lineNumber
    (request.bytecode decode) s.debugInfoCache
  (result.1, result.2.1,
    { s with
      breakpointStorage := result.2.2
      integrity := s.integrity.step (.setBreakpoint request.sourceFilesFilter request.lineNumber
        (request.bytecode decode) s.debugInfoCache) })

/-- The locations of the request in the loaded files. -/
def locations : List PtLocation :=
  (s.debugInfoCache.getBreakpointLocations request.sourceFilesFilter request.lineNumber).1

/-- Where the breakpoint stops if it is set first and the modules are loaded
then. -/
def setThenLoad (files : List PandaFile) (modules : List String) : List PtLocation :=
  let (id, _, s) := s.setBreakpoint decode request
  (modules.foldl (loadModule files) s).breakpointStorage.stoppingLocations id

/-- Where it stops if the modules are loaded first. -/
def loadThenSet (files : List PandaFile) (modules : List String) : List PtLocation :=
  let (id, _, s) := (modules.foldl (loadModule files) s).setBreakpoint decode request
  s.breakpointStorage.stoppingLocations id

variable (l : PtLocation)

/-- **A new breakpoint** stops at the locations found, if it is kept. -/
theorem mem_stoppingLocations_setBreakpoint :
    l ∈ (s.setBreakpoint decode request).2.2.breakpointStorage.stoppingLocations
        (s.setBreakpoint decode request).1 ↔
      keepsBreakpoint (s.locations request) (request.bytecode decode) = true ∧
        l ∈ s.locations request := by
  rcases s.breakpointStorage.setBreakpoint_cases request.sourceFilesFilter request.lineNumber
      (request.bytecode decode) s.debugInfoCache with
    ⟨hkeeps, hid, -⟩ | ⟨hkeeps, hid, bp, hstore, -, hlocs, hsound⟩
  · have hnone : (s.setBreakpoint decode request).1 = none := hid
    rw [hnone, locations, hkeeps]
    simp [stoppingLocations]
  · have hsome : (s.setBreakpoint decode request).1 = some s.breakpointStorage.nextBreakpointId :=
      hid
    have hadded : (s.setBreakpoint decode request).2.2.breakpointStorage
        = s.breakpointStorage.added bp := hstore
    rw [hsome, hadded, mem_stoppingLocations_added s.integrity hsound, locations, hkeeps, hlocs]
    simp

variable (files : List PandaFile) (modules : List String)

theorem breakpointStorage_foldl_loadModule :
    (modules.foldl (loadModule files) s).breakpointStorage = s.breakpointStorage := by
  induction modules generalizing s with
  | nil => rfl
  | cons fileName modules ih =>
    rw [List.foldl_cons, ih]
    rfl

theorem mem_setThenLoad :
    l ∈ s.setThenLoad decode request files modules ↔
      keepsBreakpoint (s.locations request) (request.bytecode decode) = true ∧
        l ∈ s.locations request := by
  show l ∈ stoppingLocations
    (modules.foldl (loadModule files) (s.setBreakpoint decode request).2.2).breakpointStorage _ ↔ _
  rw [breakpointStorage_foldl_loadModule]
  exact s.mem_stoppingLocations_setBreakpoint decode request l

/-- **Setting and loading** in either order give the same stopping locations,
for a breakpoint that has no location before the modules are loaded, exactly
if it has none afterwards, or has a condition and more than one. -/
theorem set_load_comm_iff (s : InspectorBreakpoints) (request : BreakpointRequest)
    (files : List PandaFile) (modules : List String) (hbefore : s.locations request = []) :
    (∀ l, l ∈ s.setThenLoad decode request files modules ↔
        l ∈ s.loadThenSet decode request files modules) ↔
      (modules.foldl (loadModule files) s).locations request = [] ∨
        ((request.bytecode decode).isSome = true ∧
          1 < ((modules.foldl (loadModule files) s).locations request).length) := by
  have hload : ∀ l, l ∈ s.loadThenSet decode request files modules ↔ _ := fun l =>
    (modules.foldl (loadModule files) s).mem_stoppingLocations_setBreakpoint decode request l
  simp only [mem_setThenLoad, hbefore, hload, List.not_mem_nil, and_false, false_iff, not_and]
  generalize (modules.foldl (loadModule files) s).locations request = locations
  rcases request.bytecode decode with - | bytecode
  · rcases locations with - | ⟨l, ls⟩
    · simp
    · simp only [keepsBreakpoint, List.isEmpty_cons, Bool.not_false,
        forall_const, Option.isSome_none, Bool.false_eq_true, false_and, or_false, reduceCtorEq,
        iff_false, not_forall, not_not]
      exact ⟨l, List.mem_cons_self⟩
  · rcases locations with - | ⟨l, - | ⟨l', ls⟩⟩
    · simp
    all_goals
      simp [keepsBreakpoint]

/-- No file is loaded and no breakpoint is set. -/
def fresh : InspectorBreakpoints where
  breakpointStorage := {}
  integrity := integrity_empty

/-- Line 7 of `main.ets`. -/
def lineSeven (condition : Option String) : BreakpointRequest where
  sourceFilesFilter := fun source _ => source == "main.ets"
  lineNumber := 7
  condition := condition

/-- A conditional breakpoint with two locations stops nowhere. -/
theorem set_load_comm_twoMethods :
    fresh.locations (lineSeven (some "AQ==")) = [] ∧
      ∀ l, l ∈ fresh.setThenLoad id (lineSeven (some "AQ==")) [twoMethods]
          ["main.abc"] ↔
        l ∈ fresh.loadThenSet id (lineSeven (some "AQ==")) [twoMethods]
          ["main.abc"] :=
  ⟨by decide,
    (set_load_comm_iff id fresh (lineSeven (some "AQ==")) [twoMethods]
      ["main.abc"] (by decide)).mpr (.inr (by decide))⟩

def oneMethod : PandaFile where
  address := 1
  filename := "main.abc"
  methods := [⟨1, "main.ets", [⟨0, 7⟩]⟩]

/-- Neither a plain breakpoint nor a conditional one that is set before its
module is loaded stops; set afterwards, both do. -/
theorem set_before_load_lost :
    (fresh.locations (lineSeven none) = [] ∧
      fresh.setThenLoad id (lineSeven none) [oneMethod] ["main.abc"] = [] ∧
      fresh.loadThenSet id (lineSeven none) [oneMethod] ["main.abc"] = [⟨"main.abc", 1, 0⟩]) ∧
    (fresh.locations (lineSeven (some "AQ==")) = [] ∧
      fresh.setThenLoad id (lineSeven (some "AQ==")) [oneMethod] ["main.abc"] = [] ∧
      fresh.loadThenSet id (lineSeven (some "AQ==")) [oneMethod] ["main.abc"]
        = [⟨"main.abc", 1, 0⟩]) := by
  decide

end InspectorBreakpoints

end ArkToolchain
