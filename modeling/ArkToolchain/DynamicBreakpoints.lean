/-
Breakpoints of the dynamic debugger (tooling/dynamic/agent/debugger_impl.cpp).

The debugger knows the scripts that have been parsed, and for launch-accelerate mode the
breakpoints that wait for a script.  The breakpoints themselves are kept by the runtime, which
is not part of this repository: `JSDebugger`, `DebugTables` and `DebugInfoExtractor` hold what
is assumed of it, and `Environment` what it answers while an event is handled.

`handle` is one event: a request of the client, a notification of a script or a hook.
-/
import ArkToolchain.BreakpointIds
import ArkToolchain.SingleStepper

namespace ArkToolchain

open Pt

/-! ### The runtime -/

/-- `JSPtLocation`: a place in the bytecode. -/
structure JSPtLocation where
  /-- the pointer to the file -/
  jsPandaFile : Nat
  methodId : Nat
  bytecodeOffset : Nat
  sourceFile : Bytes
  deriving DecidableEq

/-- The lines and columns of the bytecode, as `MatchLineWithOffset` and
`MatchColumnWithOffset` find them. -/
structure DebugTables where
  line : JSPtLocation → Option Int32
  column : JSPtLocation → Option Int32

/-- `DebugInfoExtractor`: `MatchWithLocation` calls back for the place that it finds, and
returns what the callback does.  The place is in the source file and on the line that were
asked for. -/
structure DebugInfoExtractor (tables : DebugTables) where
  /-- by line, column, url and the names of records -/
  matchWithLocation : Int32 → Int32 → Bytes → List Bytes → Option JSPtLocation
  sound : ∀ {line column : Int32} {url : Bytes} {recordName : List Bytes} {place : JSPtLocation},
    matchWithLocation line column url recordName = some place →
      place.sourceFile = url ∧ tables.line place = some line

/-- `JSDebugger`, behind `DebuggerApi`: the places at which it calls the hook, and how they
change. -/
structure JSDebugger where
  State : Type
  breakpoints : State → List JSPtLocation
  /-- with the condition, and whether the breakpoint is a smart one -/
  setBreakpoint : JSPtLocation → Option Bytes → Bool → State → Bool × State
  removeBreakpoint : JSPtLocation → State → Bool × State
  removeBreakpointsByUrl : Bytes → State → Bool × State
  removeAllBreakpoints : State → State
  mem_setBreakpoint : ∀ {place new : JSPtLocation} {condition : Option Bytes} {smart : Bool}
    {s : State}, place ∈ breakpoints (setBreakpoint new condition smart s).2 →
      place = new ∨ place ∈ breakpoints s
  mem_removeBreakpoint : ∀ {place old : JSPtLocation} {s : State},
    place ∈ breakpoints (removeBreakpoint old s).2 → place ∈ breakpoints s
  mem_removeBreakpointsByUrl : ∀ {place : JSPtLocation} {url : Bytes} {s : State},
    place ∈ breakpoints (removeBreakpointsByUrl url s).2 →
      place ∈ breakpoints s ∧ ((removeBreakpointsByUrl url s).1 = true → place.sourceFile ≠ url)
  removeAllBreakpoints_eq : ∀ s, breakpoints (removeAllBreakpoints s) = []

/-- What the VM answers during an event. -/
structure Environment (tables : DebugTables) where
  /-- `GetPatchExtractors` -/
  patchExtractors : Bytes → List (Option (DebugInfoExtractor tables)) := fun _ => []
  /-- the extractor of a file that is found by its name -/
  fileExtractor : Bytes → Option (DebugInfoExtractor tables) := fun _ => none
  /-- `GetExtractor` is not null for the file of a place -/
  hasExtractor : Nat → Bool := fun _ => true
  /-- `CheckAndGenerateCondFunc` makes a function of the condition -/
  generatesCondFunc : Bytes → Bool := fun _ => true
  isDebugApp : Bool := true
  /-- `DATA_APP_PATH`; some platforms do not check the path -/
  dataAppPath : Option Bytes := none
  isExceptionCaught : Bool := false
  /-- the call frames of a pause can be generated -/
  generatesCallFrames : Bool := true

/-! ### The debugger -/

/-- `BreakpointInfo`: what the client asks for. -/
structure BreakpointInfo where
  lineNumber : Int32 := 0
  columnNumber : Int32 := 0
  url : Bytes := []
  condition : Option Bytes := none
  deriving DecidableEq

/-- `BreakpointReturnInfo`: what the client is told. -/
structure BreakpointReturnInfo where
  id : Bytes := []
  lineNumber : Int32 := 0
  columnNumber : Int32 := 0
  scriptId : Int32 := 0
  deriving DecidableEq

/-- `PtScript`, with the breakpoints that were set when it was parsed. -/
structure PtScript where
  scriptId : Int32
  fileName : Bytes
  url : Bytes
  locations : List BreakpointReturnInfo := []
  deriving DecidableEq

/-- `PauseReason`, as far as the hooks give one. -/
inductive DynamicPauseReason
  | breakOnStart
  | debuggerStmt
  | exception
  | nativeOut
  | symbol
  | other
  deriving DecidableEq

/-- `PauseOnExceptionsState`. -/
inductive DynamicPauseOnExceptions
  | none
  | uncaught
  | all
  deriving DecidableEq

/-- `DebuggerImpl` over a runtime: what decides about breakpoints and pauses. -/
structure DynamicDebugger (js : JSDebugger) where
  jsDebugger : js.State
  /-- `IsDebugMode` of the VM -/
  debugMode : Bool := false
  breakOnStartEnable : Bool := true
  /-- the sets compare pointers, and every entry is an object of its own -/
  breakpointPendingMap : Bytes → Option (List BreakpointInfo) := fun _ => none
  recordNames : Bytes → List Bytes := fun _ => []
  urlFileNameMap : Bytes → List Bytes := fun _ => []
  scripts : List PtScript := []
  pauseOnException : DynamicPauseOnExceptions := .none
  debuggerState : DebuggerState := .enabled
  breakpointsState : Bool := true
  skipAllPauses : Bool := false

namespace DynamicDebugger

variable {tables : DebugTables} {js : JSDebugger} (env : Environment tables)

variable (dbg : DynamicDebugger js) (url : Bytes)

/-- `IsLaunchAccelerateMode`. -/
def isLaunchAccelerateMode : Bool := !dbg.breakOnStartEnable

/-- `MatchScripts` with `ScriptMatchType::URL`. -/
def matchScripts : Option PtScript :=
  dbg.scripts.find? fun script => script.url = url

/-- `MatchAllScripts`: the scripts with the url. -/
def matchAllScripts : List PtScript :=
  dbg.scripts.filter fun script => script.url = url

/-- `GetExtractors`: those of the patches, or else those of the scripts with the url. -/
def getExtractors (url : Bytes) (dbg : DynamicDebugger js) :
    List (Option (DebugInfoExtractor tables)) :=
  if (env.patchExtractors url).isEmpty then
    (dbg.matchAllScripts url).filterMap fun script => (env.fileExtractor script.fileName).map some
  else env.patchExtractors url

/-- A loop over the extractors that ends at the first one that fails. -/
def setAll (visit : DebugInfoExtractor tables → js.State → Bool × js.State) :
    List (Option (DebugInfoExtractor tables)) → js.State → Bool × js.State
  | [], s => (true, s)
  | none :: extractors, s => setAll visit extractors s
  | some extractor :: extractors, s =>
    match visit extractor s with
    | (true, s) => setAll visit extractors s
    | (false, s) => (false, s)

/-- There is a condition, and no function can be made of it. -/
def invalidCondition (condition : Option Bytes) : Bool :=
  match condition with
  | none => false
  | some condition => !condition.isEmpty && !env.generatesCondFunc condition

/-- `AddBreakpointDetail`: the id, which has column 0, and the locations. -/
def addBreakpointDetail (url : Bytes) (lineNumber : Int32) (dbg : DynamicDebugger js) :
    Bytes × List Location :=
  (BreakpointDetails.toString { line := lineNumber, column := 0, url },
    (dbg.matchAllScripts url).map fun script =>
      { scriptId := script.scriptId, lineNumber, columnNumber := some 0 })

/-- One round of `SetBreakpointByUrl`: the condition is looked at in the callback. -/
def setAtLocation (params : BreakpointInfo) (isSmartBreakpoint : Bool)
    (recordName : List Bytes) (extractor : DebugInfoExtractor tables) (s : js.State) :
    Bool × js.State :=
  match extractor.matchWithLocation params.lineNumber (-1) params.url recordName with
  | none => (false, s)
  | some place =>
    if invalidCondition env params.condition then (false, s)
    else js.setBreakpoint place params.condition isSmartBreakpoint s

/-- One round of `ProcessSingleBreakpoint`, which looks at the condition first. -/
def processAtLocation (breakpoint : BreakpointInfo)
    (recordName : List Bytes) (extractor : DebugInfoExtractor tables) (s : js.State) :
    Bool × js.State :=
  if invalidCondition env breakpoint.condition then (false, s)
  else
    match extractor.matchWithLocation breakpoint.lineNumber (-1) breakpoint.url recordName with
    | none => (false, s)
    | some place => js.setBreakpoint place breakpoint.condition false s

/-- `SetBreakpointByUrl`, with the id and the locations that it gives out. -/
def setBreakpointByUrl (params : BreakpointInfo)
    (isSmartBreakpoint : Bool) (dbg : DynamicDebugger js) :
    DispatchResponse × (Bytes × List Location) × DynamicDebugger js :=
  if !dbg.debugMode then
    (.fail "SetBreakpointByUrl: debugger agent is not enabled", ([], []), dbg)
  else
    match dbg.matchScripts params.url with
    | none => (.fail "Unknown file name.", ([], []), dbg)
    | some _ =>
      match setAll (setAtLocation env params isSmartBreakpoint (dbg.recordNames params.url))
        (dbg.getExtractors env params.url) dbg.jsDebugger with
      | (false, s) => (.fail "Breakpoint not found.", ([], []), { dbg with jsDebugger := s })
      | (true, s) =>
        (.ok, dbg.addBreakpointDetail params.url params.lineNumber, { dbg with jsDebugger := s })

/-- `SmartStepInto`, which does not return the id of its breakpoint. -/
def smartStepInto (params : BreakpointInfo) (dbg : DynamicDebugger js) :
    DispatchResponse × DynamicDebugger js :=
  if dbg.debuggerState ≠ .paused then (.fail "Can only perform operation while paused", dbg)
  else
    let (response, _, dbg) := dbg.setBreakpointByUrl env params true
    (response, dbg)

/-- `ProcessSingleBreakpoint`: what it adds to the locations, and the breakpoints of the
runtime. -/
def processSingleBreakpoint (breakpoint : BreakpointInfo)
    (dbg : DynamicDebugger js) : Option BreakpointReturnInfo × js.State :=
  match dbg.matchScripts breakpoint.url with
  | none => (none, dbg.jsDebugger)
  | some script =>
    match setAll (processAtLocation env breakpoint (dbg.recordNames breakpoint.url))
      (dbg.getExtractors env breakpoint.url) dbg.jsDebugger with
    | (false, s) => (none, s)
    | (true, s) =>
      (some
        { id := BreakpointDetails.toString
            { line := breakpoint.lineNumber, column := 0, url := breakpoint.url }
          lineNumber := breakpoint.lineNumber
          columnNumber := 0
          scriptId := script.scriptId }, s)

/-- The loop over a list of breakpoints; `next` is done after each. -/
def processBreakpoints (env : Environment tables)
    (next : BreakpointInfo → DynamicDebugger js → DynamicDebugger js) :
    List BreakpointInfo → DynamicDebugger js → List BreakpointReturnInfo × DynamicDebugger js
  | [], dbg => ([], dbg)
  | breakpoint :: breakpoints, dbg =>
    let (info, s) := dbg.processSingleBreakpoint env breakpoint
    let (infos, dbg) :=
      processBreakpoints env next breakpoints (next breakpoint { dbg with jsDebugger := s })
    (info.getD
      { id := ascii "invalid"
        lineNumber := breakpoint.lineNumber
        columnNumber := breakpoint.columnNumber } :: infos, dbg)

/-- An entry of an unordered map is changed. -/
def update {α : Type} (map : Bytes → α) (key : Bytes) (value : α) : Bytes → α :=
  fun key' => if key' = key then value else map key'

/-- The breakpoints that wait under the url. -/
def pending (dbg : DynamicDebugger js) (url : Bytes) : List BreakpointInfo :=
  (dbg.breakpointPendingMap url).getD []

/-- Breakpoints are inserted into the pending ones of an url. -/
def addPending (url : Bytes) (breakpoints : List BreakpointInfo) (dbg : DynamicDebugger js) :
    DynamicDebugger js :=
  { dbg with
    breakpointPendingMap :=
      update dbg.breakpointPendingMap url (some (dbg.pending url ++ breakpoints)) }

/-- `InsertIntoPendingBreakpoints`: a copy, for which no condition is an empty one. -/
def insertIntoPendingBreakpoints (breakpoint : BreakpointInfo) (dbg : DynamicDebugger js) :
    DynamicDebugger js :=
  dbg.addPending breakpoint.url
    [{ breakpoint with condition := some (breakpoint.condition.getD []) }]

/-- The breakpoints of a list wait for further scripts in launch-accelerate mode. -/
def insertInLaunchAccelerateMode (breakpoint : BreakpointInfo) (dbg : DynamicDebugger js) :
    DynamicDebugger js :=
  if dbg.isLaunchAccelerateMode then dbg.insertIntoPendingBreakpoints breakpoint else dbg

/-- `GetPossibleAndSetBreakpointByUrl`. -/
def getPossibleAndSetBreakpointByUrl
    (breakpointsList : Option (List BreakpointInfo)) (dbg : DynamicDebugger js) :
    DispatchResponse × List BreakpointReturnInfo × DynamicDebugger js :=
  if !dbg.debugMode then
    (.fail "GetPossibleAndSetBreakpointByUrl: debugger agent is not enabled", [], dbg)
  else
    match breakpointsList with
    | none => (.fail "GetPossibleAndSetBreakpointByUrl: no pennding breakpoint exists", [], dbg)
    | some breakpointsList =>
      (.ok, processBreakpoints env insertInLaunchAccelerateMode breakpointsList dbg)

/-- `SavePendingBreakpoints`. -/
def savePendingBreakpoints (breakpointsMap : List (Bytes × List BreakpointInfo))
    (dbg : DynamicDebugger js) : DynamicDebugger js :=
  breakpointsMap.foldl (fun dbg entry => dbg.addPending entry.1 entry.2) dbg

/-- `SaveAllPossibleBreakpoints`. -/
def saveAllPossibleBreakpoints (breakpointsMap : Option (List (Bytes × List BreakpointInfo)))
    (dbg : DynamicDebugger js) : DispatchResponse × DynamicDebugger js :=
  if !dbg.debugMode then
    (.fail "SaveAllPossibleBreakpoints: debugger agent is not enabled", dbg)
  else if !dbg.isLaunchAccelerateMode then
    (.fail "SaveAllPossibleBreakpoints: protocol is not enabled", dbg)
  else
    match breakpointsMap with
    | none => (.fail "SaveAllPossibleBreakpoints: no pending breakpoint exists", dbg)
    | some breakpointsMap => (.ok, dbg.savePendingBreakpoints breakpointsMap)

/-- The loop of `RemoveBreakpoint`, which goes on where nothing is found. -/
def removeAll (details : BreakpointDetails) (recordName : List Bytes) :
    List (Option (DebugInfoExtractor tables)) → js.State → js.State
  | [], s => s
  | none :: extractors, s => removeAll details recordName extractors s
  | some extractor :: extractors, s =>
    match extractor.matchWithLocation details.line details.column details.url recordName with
    | none => removeAll details recordName extractors s
    | some place => removeAll details recordName extractors (js.removeBreakpoint place s).2

/-- `RemoveBreakpoint`, which answers with success also if it finds nothing. -/
def removeBreakpoint (id : Bytes) (dbg : DynamicDebugger js) :
    DispatchResponse × DynamicDebugger js :=
  match BreakpointDetails.parseBreakpointId id {} with
  | (false, _) => (.fail "Parse breakpoint id failed", dbg)
  | (true, details) =>
    match dbg.matchScripts details.url with
    | none => (.fail "Unknown file name.", dbg)
    | some _ =>
      (.ok,
        { dbg with
          jsDebugger := removeAll details (dbg.recordNames details.url)
            (dbg.getExtractors env details.url) dbg.jsDebugger })

/-- `RemoveBreakpointsByUrl`. -/
def removeBreakpointsByUrl (url : Bytes) (dbg : DynamicDebugger js) :
    DispatchResponse × DynamicDebugger js :=
  match dbg.matchScripts url with
  | none =>
    if dbg.isLaunchAccelerateMode && (dbg.breakpointPendingMap url).isSome then
      (.ok, { dbg with breakpointPendingMap := update dbg.breakpointPendingMap url none })
    else (.fail "Unknown url", dbg)
  | some _ =>
    match js.removeBreakpointsByUrl url dbg.jsDebugger with
    | (false, s) => (.fail "RemoveBreakpointByUrl failed", { dbg with jsDebugger := s })
    | (true, s) =>
      (.ok,
        { dbg with
          jsDebugger := s
          breakpointPendingMap :=
            if dbg.isLaunchAccelerateMode then update dbg.breakpointPendingMap url none
            else dbg.breakpointPendingMap })

/-- `Enable`; of the features only launch-accelerate mode concerns breakpoints. -/
def enable (enableOptionsList : List Bytes) (dbg : DynamicDebugger js) :
    DispatchResponse × DynamicDebugger js :=
  (.ok,
    { dbg with
      debugMode := true
      breakOnStartEnable :=
        dbg.breakOnStartEnable && !enableOptionsList.contains (ascii "enableLaunchAccelerate")
      debuggerState := .enabled })

/-- `Disable`, which leaves the pending breakpoints. -/
def disable (dbg : DynamicDebugger js) : DispatchResponse × DynamicDebugger js :=
  (.ok,
    { dbg with
      jsDebugger := js.removeAllBreakpoints dbg.jsDebugger
      debugMode := false
      debuggerState := .disabled })

/-- `Resume`, and the steps: the program goes on. -/
def resume (dbg : DynamicDebugger js) : DispatchResponse × DynamicDebugger js :=
  if dbg.debuggerState ≠ .paused then (.fail "Can only perform operation while paused", dbg)
  else (.ok, { dbg with debuggerState := .enabled })

/-! ### Scripts -/

/-- A file that has been parsed, with what `NotifyScriptParsed` or
`NotifyScriptParsedBySendable` look up for it. -/
structure ParsedFile where
  fileName : Bytes
  /-- what `g_scriptId++` gives; other debuggers count it up too -/
  scriptId : Int32 := 0
  /-- of the main method, or of the method that has been entered -/
  url : Bytes
  recordName : Bytes := []
  /-- the file and its extractor are found -/
  isFound : Bool := true
  isFaApp : Bool := false
  isBundlePack : Bool := false
  /-- the notification is for a sendable method -/
  bySendable : Bool := false

/-- `IsApplicationFile`. -/
def isApplicationFile (fileName dataAppPath : Bytes) : Bool :=
  !fileName.isEmpty && fileName.take dataAppPath.length = dataAppPath

/-- `CheckScriptParsed`. -/
def checkScriptParsed (fileName : Bytes) : Bool :=
  env.dataAppPath.all (isApplicationFile fileName) && env.isDebugApp

/-- `MatchUrlAndFileName`: the pair has been parsed before. -/
def matchUrlAndFileName (url fileName : Bytes) (dbg : DynamicDebugger js) : Bool :=
  (dbg.urlFileNameMap url).contains fileName

/-- The script is entered into the maps; a script with its id would be replaced. -/
def registerScript (file : ParsedFile) (dbg : DynamicDebugger js) : DynamicDebugger js :=
  { dbg with
    recordNames :=
      update dbg.recordNames file.url ((dbg.recordNames file.url).insert file.recordName)
    urlFileNameMap :=
      update dbg.urlFileNameMap file.url ((dbg.urlFileNameMap file.url).insert file.fileName)
    scripts :=
      (dbg.scripts.filter fun script => script.scriptId ≠ file.scriptId) ++
        [{ scriptId := file.scriptId, fileName := file.fileName, url := file.url }] }

/-- `SetLocations` of the script. -/
def setLocations (scriptId : Int32) (locations : List BreakpointReturnInfo)
    (dbg : DynamicDebugger js) : DynamicDebugger js :=
  { dbg with
    scripts := dbg.scripts.map fun script =>
      if script.scriptId = scriptId then { script with locations } else script }

/-- `SaveParsedScriptsAndUrl`, with the locations of the script. -/
def saveParsedScriptsAndUrl (file : ParsedFile)
    (dbg : DynamicDebugger js) : List BreakpointReturnInfo × DynamicDebugger js :=
  let dbg := dbg.registerScript file
  if dbg.isLaunchAccelerateMode && !(dbg.pending file.url).isEmpty then
    let (locations, dbg) := processBreakpoints env (fun _ => id) (dbg.pending file.url) dbg
    (locations, dbg.setLocations file.scriptId locations)
  else ([], dbg)

/-- The notification gets as far as `SaveParsedScriptsAndUrl`. -/
def isNewScript (file : ParsedFile) (dbg : DynamicDebugger js) : Bool :=
  checkScriptParsed env file.fileName && file.isFound &&
    (file.bySendable || file.isFaApp || !file.isBundlePack) &&
    !dbg.matchUrlAndFileName file.url file.fileName

/-- `NotifyScriptParsed` and `NotifyScriptParsedBySendable`. -/
def notifyScriptParsed (file : ParsedFile) (dbg : DynamicDebugger js) :
    List BreakpointReturnInfo × DynamicDebugger js :=
  if dbg.isNewScript env file then dbg.saveParsedScriptsAndUrl env file else ([], dbg)

/-- The breakpoints that the notification sets: it goes through the pending ones. -/
def setWhenParsing (file : ParsedFile) (dbg : DynamicDebugger js) : List BreakpointInfo :=
  if dbg.isNewScript env file && dbg.isLaunchAccelerateMode then dbg.pending file.url else []

/-! ### Pauses -/

/-- `CheckPauseOnException`. -/
def checkPauseOnException (dbg : DynamicDebugger js) : Bool :=
  match dbg.pauseOnException with
  | .none => false
  | .uncaught => !env.isExceptionCaught
  | .all => true

/-- The id of the breakpoint at a place, if it can be found. -/
def hitBreakpoint (place : JSPtLocation) (dbg : DynamicDebugger js) : Option Bytes := do
  let script ← dbg.matchScripts place.sourceFile
  guard (env.hasExtractor place.jsPandaFile)
  let line ← tables.line place
  let column ← tables.column place
  return BreakpointDetails.toString { line, column, url := script.url }

/-- `GeneratePausedInfo`: the ids in the event, if it is sent. -/
def generatePausedInfo (reason : DynamicPauseReason)
    (hitBreakpoints : List Bytes) (dbg : DynamicDebugger js) : List Bytes × DynamicDebugger js :=
  if !env.generatesCallFrames then ([], dbg)
  else
    let hitBreakpoints :=
      if reason = .debuggerStmt then hitBreakpoints ++ [BreakpointDetails.toString {}]
      else hitBreakpoints
    -- the event is not sent outside debug mode
    (if dbg.debugMode then hitBreakpoints else [], { dbg with debuggerState := .paused })

/-- `NotifyPaused`: the ids in the event for the pause. -/
def notifyPaused (place : Option JSPtLocation)
    (reason : DynamicPauseReason) (dbg : DynamicDebugger js) : List Bytes × DynamicDebugger js :=
  if dbg.skipAllPauses then ([], dbg)
  else if place.isSome && !dbg.breakpointsState then ([], dbg)
  else if reason = .exception && !dbg.checkPauseOnException env then ([], dbg)
  else
    match place with
    | none => dbg.generatePausedInfo env reason []
    | some place =>
      match dbg.hitBreakpoint env place with
      | none => ([], dbg)
      | some id => dbg.generatePausedInfo env reason [id]

/-! ### What the requests do -/

theorem getPossibleAndSetBreakpointByUrl_cases
    (breakpointsList : Option (List BreakpointInfo)) (dbg : DynamicDebugger js) :
    (∃ message,
      dbg.getPossibleAndSetBreakpointByUrl env breakpointsList = (.fail message, [], dbg)) ∨
    ∃ breakpoints, breakpointsList = some breakpoints ∧ dbg.debugMode = true ∧
      dbg.getPossibleAndSetBreakpointByUrl env breakpointsList =
        (.ok, processBreakpoints env insertInLaunchAccelerateMode breakpoints dbg) := by
  fun_cases getPossibleAndSetBreakpointByUrl env breakpointsList dbg
  case case3 hmode breakpoints => exact .inr ⟨breakpoints, rfl, by simpa using hmode, rfl⟩
  all_goals exact .inl ⟨_, rfl⟩

theorem saveAllPossibleBreakpoints_cases
    (breakpointsMap : Option (List (Bytes × List BreakpointInfo))) (dbg : DynamicDebugger js) :
    (∃ message, dbg.saveAllPossibleBreakpoints breakpointsMap = (.fail message, dbg)) ∨
    ∃ breakpoints, breakpointsMap = some breakpoints ∧ dbg.breakOnStartEnable = false ∧
      dbg.saveAllPossibleBreakpoints breakpointsMap
        = (.ok, dbg.savePendingBreakpoints breakpoints) := by
  fun_cases saveAllPossibleBreakpoints breakpointsMap dbg
  case case4 hmode breakpoints =>
    exact .inr ⟨breakpoints, rfl, by simpa [isLaunchAccelerateMode] using hmode, rfl⟩
  all_goals exact .inl ⟨_, rfl⟩

/-- An url without a script has pending breakpoints at most; otherwise the runtime decides
whether the request succeeds. -/
theorem removeBreakpointsByUrl_cases (url : Bytes) (dbg : DynamicDebugger js) :
    (∃ message, dbg.removeBreakpointsByUrl url = (.fail message, dbg)) ∨
    (dbg.matchScripts url = none ∧ dbg.removeBreakpointsByUrl url =
      (.ok, { dbg with breakpointPendingMap := update dbg.breakpointPendingMap url none })) ∨
    (∃ message, dbg.removeBreakpointsByUrl url =
      (.fail message,
        { dbg with jsDebugger := (js.removeBreakpointsByUrl url dbg.jsDebugger).2 })) ∨
    ((js.removeBreakpointsByUrl url dbg.jsDebugger).1 = true ∧ dbg.removeBreakpointsByUrl url =
      (.ok,
        { dbg with
          jsDebugger := (js.removeBreakpointsByUrl url dbg.jsDebugger).2
          breakpointPendingMap :=
            if dbg.isLaunchAccelerateMode then update dbg.breakpointPendingMap url none
            else dbg.breakpointPendingMap })) := by
  fun_cases removeBreakpointsByUrl url dbg
  case case1 => exact .inr (.inl ⟨‹_›, rfl⟩)
  case case2 => exact .inl ⟨_, rfl⟩
  case case3 heq => exact .inr (.inr (.inl ⟨_, by rw [heq]⟩))
  case case4 heq => exact .inr (.inr (.inr ⟨by rw [heq], by rw [heq]⟩))

theorem notifyScriptParsed_cases (file : ParsedFile)
    (dbg : DynamicDebugger js) : dbg.notifyScriptParsed env file = ([], dbg) ∨
    dbg.notifyScriptParsed env file = ([], dbg.registerScript file) ∨
    ∃ locations dbg',
      processBreakpoints env (fun _ => id) (dbg.setWhenParsing env file) (dbg.registerScript file)
        = (locations, dbg') ∧
      dbg.setWhenParsing env file = dbg.pending file.url ∧
      dbg.notifyScriptParsed env file = (locations, dbg'.setLocations file.scriptId locations) := by
  rw [notifyScriptParsed, setWhenParsing]
  split
  case isTrue hnew =>
    refine .inr ?_
    rw [saveParsedScriptsAndUrl, hnew]
    split
    case isTrue hpending =>
      have hmode : dbg.isLaunchAccelerateMode = true := (Bool.and_eq_true_iff.mp hpending).1
      rw [hmode, Bool.and_self, if_pos rfl]
      exact .inr ⟨_, _, rfl, rfl, rfl⟩
    case isFalse => exact .inl rfl
  case isFalse => exact .inl rfl

theorem resume_spec (dbg : DynamicDebugger js) :
    ∃ state, (dbg.resume).2 = { dbg with debuggerState := state } := by
  rw [resume]
  split
  · exact ⟨dbg.debuggerState, rfl⟩
  · exact ⟨.enabled, rfl⟩

theorem generatePausedInfo_spec (reason : DynamicPauseReason)
    (ids : List Bytes) (dbg : DynamicDebugger js) :
    ∃ state, (dbg.generatePausedInfo env reason ids).2 = { dbg with debuggerState := state } ∧
      ∀ id ∈ (dbg.generatePausedInfo env reason ids).1,
        id ∈ ids ∨ (reason = .debuggerStmt ∧ id = BreakpointDetails.toString {}) := by
  rw [generatePausedInfo]
  split
  · exact ⟨dbg.debuggerState, rfl, nofun⟩
  · refine ⟨.paused, rfl, fun id hid => ?_⟩
    dsimp only at hid
    split at hid
    · split at hid
      case isTrue hreason =>
        rcases List.mem_append.mp hid with hid | hid
        · exact .inl hid
        · exact .inr ⟨hreason, List.mem_singleton.mp hid⟩
      case isFalse => exact .inl hid
    · cases hid

/-- A pause changes nothing but the state; its ids are that of the breakpoint that is hit
and, for a `debugger` statement, one of no breakpoint. -/
theorem notifyPaused_spec (place : Option JSPtLocation)
    (reason : DynamicPauseReason) (dbg : DynamicDebugger js) :
    ∃ state, (dbg.notifyPaused env place reason).2 = { dbg with debuggerState := state } ∧
      ∀ id ∈ (dbg.notifyPaused env place reason).1,
        (∃ hit, place = some hit ∧ dbg.hitBreakpoint env hit = some id) ∨
          (reason = .debuggerStmt ∧ id = BreakpointDetails.toString {}) := by
  fun_cases notifyPaused env place reason dbg
  case case4 =>
    obtain ⟨state, hstate, hids⟩ := dbg.generatePausedInfo_spec env reason []
    refine ⟨state, hstate, fun id hid => .inr ?_⟩
    exact (hids id hid).resolve_left List.not_mem_nil
  case case6 hit id' hhit _ =>
    obtain ⟨state, hstate, hids⟩ := dbg.generatePausedInfo_spec env reason [id']
    refine ⟨state, hstate, fun id hid => ?_⟩
    rcases hids id hid with hid | hid
    · exact .inl ⟨hit, rfl, List.mem_singleton.mp hid ▸ hhit⟩
    · exact .inr hid
  all_goals exact ⟨dbg.debuggerState, rfl, nofun⟩

/-! ### Where breakpoints are set -/

/-- The runtime has a breakpoint at the place. -/
def At (s : js.State) (place : JSPtLocation) : Prop := place ∈ js.breakpoints s

/-- The place is on the line of the breakpoint. -/
def OnLine (tables : DebugTables) (breakpoint : BreakpointInfo) (place : JSPtLocation) : Prop :=
  place.sourceFile = breakpoint.url ∧ tables.line place = some breakpoint.lineNumber

variable {extractors : List (Option (DebugInfoExtractor tables))} {place : JSPtLocation}
  {s : js.State}

theorem mem_setAll {visit : DebugInfoExtractor tables → js.State → Bool × js.State} {p : Prop}
    (hvisit : ∀ extractor s, At (visit extractor s).2 place → At s place ∨ p)
    (h : At (setAll visit extractors s).2 place) : At s place ∨ p := by
  fun_induction setAll visit extractors s with
  | case1 => exact .inl h
  | case2 s extractors ih => exact ih h
  | case3 extractor extractors s s' hv ih =>
    rcases ih h with h | h
    · exact hvisit extractor s (hv ▸ h)
    · exact .inr h
  | case4 extractor extractors s s' hv => exact hvisit extractor s (hv ▸ h)

variable {recordName : List Bytes}

theorem at_setAtLocation {env : Environment tables} {params : BreakpointInfo} {smart : Bool}
    (extractor : DebugInfoExtractor tables) (s : js.State)
    (h : At (setAtLocation env params smart recordName extractor s).2 place) :
    At s place ∨ OnLine tables params place := by
  unfold setAtLocation at h
  split at h
  case h_1 => exact .inl h
  case h_2 found hfound =>
    split at h
    · exact .inl h
    · rcases js.mem_setBreakpoint h with rfl | h
      · exact .inr (extractor.sound hfound)
      · exact .inl h

/-- The order of the two tests does not matter. -/
theorem processAtLocation_eq (breakpoint : BreakpointInfo) :
    (processAtLocation env breakpoint : _ → _ → js.State → _)
      = setAtLocation env breakpoint false := by
  funext recordName extractor s
  unfold processAtLocation setAtLocation
  split
  · split <;> rfl
  · rfl

theorem at_setAll {env : Environment tables} {params : BreakpointInfo} {smart success : Bool}
    {s' : js.State}
    (hloop : setAll (setAtLocation env params smart recordName) extractors s = (success, s'))
    (h : At s' place) : At s place ∨ OnLine tables params place := by
  have hset : At (setAll (setAtLocation env params smart recordName) extractors s).2 place := by
    rw [hloop]
    exact h
  exact mem_setAll at_setAtLocation hset

/-- What `SetBreakpointByUrl` sets is on the line that was asked for; the id names the line if it
succeeds. -/
theorem setBreakpointByUrl_spec (params : BreakpointInfo) (smart : Bool)
    (dbg : DynamicDebugger js) :
    ∃ s, (dbg.setBreakpointByUrl env params smart).2.2 = { dbg with jsDebugger := s } ∧
      (∀ place, At s place → At dbg.jsDebugger place ∨ OnLine tables params place) ∧
      ((dbg.setBreakpointByUrl env params smart).1 = .ok →
        (dbg.setBreakpointByUrl env params smart).2.1.1 =
          BreakpointDetails.toString { line := params.lineNumber, url := params.url }) := by
  fun_cases setBreakpointByUrl env params smart dbg
  case case3 s heq => exact ⟨s, rfl, fun _ => at_setAll heq, nofun⟩
  case case4 s heq => exact ⟨s, rfl, fun _ => at_setAll heq, fun _ => rfl⟩
  all_goals exact ⟨dbg.jsDebugger, rfl, fun _ h => .inl h, nofun⟩

theorem smartStepInto_spec (params : BreakpointInfo) (dbg : DynamicDebugger js) :
    ∃ s, (dbg.smartStepInto env params).2 = { dbg with jsDebugger := s } := by
  rw [smartStepInto]
  split
  · exact ⟨dbg.jsDebugger, rfl⟩
  · exact (dbg.setBreakpointByUrl_spec env params true).imp fun _ h => h.1

/-- The same for `ProcessSingleBreakpoint`. -/
theorem processSingleBreakpoint_spec (breakpoint : BreakpointInfo) (dbg : DynamicDebugger js) :
    (∀ place, At (dbg.processSingleBreakpoint env breakpoint).2 place → At dbg.jsDebugger place ∨
      OnLine tables breakpoint place) ∧
    ∀ info ∈ (dbg.processSingleBreakpoint env breakpoint).1, info.id =
      BreakpointDetails.toString { line := breakpoint.lineNumber, url := breakpoint.url } := by
  unfold processSingleBreakpoint
  rw [processAtLocation_eq]
  split
  case h_1 => exact ⟨fun _ h => .inl h, nofun⟩
  case h_2 script hscript =>
    split
    case h_1 s heq => exact ⟨fun _ => at_setAll heq, nofun⟩
    case h_2 s heq =>
      refine ⟨fun _ => at_setAll heq, ?_⟩
      rintro info ⟨⟩
      rfl

theorem at_removeAll {details : BreakpointDetails}
    (h : At (removeAll details recordName extractors s) place) : At s place := by
  fun_induction removeAll details recordName extractors s with
  | case1 => exact h
  | case4 s extractor extractors place' hplace ih => exact js.mem_removeBreakpoint (ih h)
  | case2 s extractors ih | case3 s extractor extractors hnone ih => exact ih h

theorem removeBreakpoint_spec (id : Bytes) (dbg : DynamicDebugger js) :
    ∃ s, (dbg.removeBreakpoint env id).2 = { dbg with jsDebugger := s } ∧
      ∀ place, At s place → At dbg.jsDebugger place := by
  fun_cases removeBreakpoint env id dbg
  case case3 => exact ⟨_, rfl, fun _ h => at_removeAll h⟩
  all_goals exact ⟨dbg.jsDebugger, rfl, fun _ h => h⟩

end DynamicDebugger

/-! ### Events -/

/-- Requests of the client and hooks of the runtime. -/
inductive DynamicAction
  | enable (enableOptionsList : List Bytes)
  | disable
  | setBreakpointByUrl (params : BreakpointInfo)
  | smartStepInto (params : BreakpointInfo)
  | getPossibleAndSetBreakpointByUrl (breakpointsList : Option (List BreakpointInfo))
  | saveAllPossibleBreakpoints (breakpointsMap : Option (List (Bytes × List BreakpointInfo)))
  | removeBreakpoint (id : Bytes)
  | removeBreakpointsByUrl (url : Bytes)
  | setBreakpointsActive (state : Bool)
  | setSkipAllPauses (skip : Bool)
  | setPauseOnExceptions (state : DynamicPauseOnExceptions)
  | resume
  | scriptParsed (file : DynamicDebugger.ParsedFile)
  /-- the hook for a breakpoint -/
  | breakpoint (place : JSPtLocation)
  /-- a hook that pauses without a place -/
  | pause (reason : DynamicPauseReason)

/-- An event, with what the VM answers during it. -/
structure DynamicEvent (tables : DebugTables) where
  env : Environment tables := {}
  action : DynamicAction

/-- What the client sees of an event. -/
structure DynamicOutcome where
  response : DispatchResponse := .ok
  /-- the ids of breakpoints in the answer, or in the event for a script -/
  ids : List Bytes := []
  /-- the ids in the event for a pause -/
  hitBreakpoints : List Bytes := []
  deriving DecidableEq

namespace DynamicDebugger

variable {tables : DebugTables} {js : JSDebugger}

variable (dbg : DynamicDebugger js) (event : DynamicEvent tables)

/-- What an event does, and what the client sees of it. -/
def handle : DynamicOutcome × DynamicDebugger js :=
  match event.action with
  | .enable options =>
    let (response, dbg) := dbg.enable options
    ({ response }, dbg)
  | .disable =>
    let (response, dbg) := dbg.disable
    ({ response }, dbg)
  | .setBreakpointByUrl params =>
    let (response, (id, _), dbg) := dbg.setBreakpointByUrl event.env params false
    ({ response, ids := if response = .ok then [id] else [] }, dbg)
  | .smartStepInto params =>
    let (response, dbg) := dbg.smartStepInto event.env params
    ({ response }, dbg)
  | .getPossibleAndSetBreakpointByUrl breakpoints =>
    let (response, infos, dbg) := dbg.getPossibleAndSetBreakpointByUrl event.env breakpoints
    ({ response, ids := infos.map BreakpointReturnInfo.id }, dbg)
  | .saveAllPossibleBreakpoints breakpoints =>
    let (response, dbg) := dbg.saveAllPossibleBreakpoints breakpoints
    ({ response }, dbg)
  | .removeBreakpoint id =>
    let (response, dbg) := dbg.removeBreakpoint event.env id
    ({ response }, dbg)
  | .removeBreakpointsByUrl url =>
    let (response, dbg) := dbg.removeBreakpointsByUrl url
    ({ response }, dbg)
  | .setBreakpointsActive state => ({}, { dbg with breakpointsState := state })
  | .setSkipAllPauses skip => ({}, { dbg with skipAllPauses := skip })
  | .setPauseOnExceptions state => ({}, { dbg with pauseOnException := state })
  | .resume =>
    let (response, dbg) := dbg.resume
    ({ response }, dbg)
  | .scriptParsed file =>
    let (locations, after) := dbg.notifyScriptParsed event.env file
    ({ ids := if dbg.debugMode then locations.map BreakpointReturnInfo.id else [] }, after)
  | .breakpoint place =>
    -- the runtime calls the hook at its breakpoints only
    if place ∈ js.breakpoints dbg.jsDebugger then
      let (hitBreakpoints, dbg) := dbg.notifyPaused event.env (some place) .other
      ({ hitBreakpoints }, dbg)
    else ({}, dbg)
  | .pause reason =>
    let (hitBreakpoints, dbg) := dbg.notifyPaused event.env none reason
    ({ hitBreakpoints }, dbg)

/-- The debugger after the event. -/
def step : DynamicDebugger js :=
  (dbg.handle event).2

/-- What the client sees of the event. -/
def outcome : DynamicOutcome :=
  (dbg.handle event).1

/-- The debugger as it is made, over a runtime. -/
def start (s : js.State) : DynamicDebugger js := { jsDebugger := s }

theorem breakpoint_spec (env : Environment tables) (place : JSPtLocation)
    (dbg : DynamicDebugger js) :
    ∃ state, dbg.step { env, action := .breakpoint place } = { dbg with debuggerState := state } ∧
      ∀ id ∈ (dbg.outcome { env, action := .breakpoint place }).hitBreakpoints,
        At dbg.jsDebugger place ∧ dbg.hitBreakpoint env place = some id := by
  unfold step outcome handle
  dsimp only
  split
  case isTrue hat =>
    obtain ⟨state, hstate, hids⟩ := dbg.notifyPaused_spec env (some place) .other
    refine ⟨state, hstate, fun id hid => ⟨hat, ?_⟩⟩
    rcases hids id hid with ⟨hit, hplace, hid⟩ | ⟨hreason, -⟩
    · rwa [Option.some.inj hplace]
    · cases hreason
  case isFalse => exact ⟨dbg.debuggerState, rfl, nofun⟩

end DynamicDebugger

/-! ### A runtime for examples -/

/-- A runtime that keeps the places in a list. -/
def listDebugger : JSDebugger where
  State := List JSPtLocation
  breakpoints := id
  setBreakpoint place _ _ s := (true, s.insert place)
  removeBreakpoint place s := (s.contains place, s.filter (· ≠ place))
  removeBreakpointsByUrl url s := (true, s.filter (·.sourceFile ≠ url))
  removeAllBreakpoints _ := []
  mem_setBreakpoint h := List.mem_insert_iff.mp h
  mem_removeBreakpoint h := (List.mem_filter.mp h).1
  mem_removeBreakpointsByUrl h :=
    ⟨(List.mem_filter.mp h).1, fun _ => of_decide_eq_true (List.mem_filter.mp h).2⟩
  removeAllBreakpoints_eq _ := rfl

/-- Debug information in which the offset of the bytecode is its line, and all of it is in
one column. -/
def lineTables (column : Int32) : DebugTables where
  line place := some (Int32.ofNat place.bytecodeOffset)
  column _ := some column

/-- The extractor of a file with such information. -/
def lineExtractor (column : Int32) (jsPandaFile : Nat) :
    DebugInfoExtractor (lineTables column) where
  matchWithLocation line column' url _ :=
    let place : JSPtLocation :=
      { jsPandaFile, methodId := 0, bytecodeOffset := line.toNatClampNeg, sourceFile := url }
    if (lineTables column).line place = some line ∧ (column' = -1 ∨ column' = column) then
      some place
    else none
  sound := by
    intro line column' url recordName place h
    dsimp only at h
    split at h
    case isTrue hline =>
      obtain rfl := Option.some.inj h
      exact ⟨rfl, hline.1⟩
    case isFalse => cases h

def lineEnvironment (column : Int32) : Environment (lineTables column) where
  fileExtractor fileName := some (lineExtractor column fileName.length)

end ArkToolchain
