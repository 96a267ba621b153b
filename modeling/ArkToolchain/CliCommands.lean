/-
What the command-line client does with a line (`InputOnMessage` in `ark_cli/main.cpp`,
`cli_command.cpp`, and what the commands call).

A handler is a program on the state of a session that prints, sends requests, and can crash: by
an index outside of a vector, or by an exception of `std::stoi` that nobody catches.  Of what
requests contain, only what `print` asks for is part of this; replies are not.

Each command of the source is a definition of its own, under its name; `commandMap` is the table,
and `inputOnMessage` the whole way of a line.  When a line is safe is in `CliSafety`.
-/
import ArkToolchain.BreakpointIds
import ArkToolchain.ClientMessages
import ArkToolchain.Outcomes
import Mathlib.Data.List.Infix

namespace ArkToolchain

namespace ArkDb

/-! ### Crashes -/

/-- What ends the client: an exception that nobody catches, or a read outside of a container. -/
inductive Crash
  /-- an index outside of a vector or a string -/
  | indexOutOfRange
  /-- `std::invalid_argument` -/
  | invalidArgument
  /-- `std::out_of_range` -/
  | outOfRange
  deriving DecidableEq

/-- `operator[]`. -/
def element {α : Type} (xs : List α) (i : Nat) : Except Crash α :=
  match xs[i]? with
  | some x => .ok x
  | none => .error .indexOutOfRange

/-- `back()` of a vector. -/
def back {α : Type} (xs : List α) : Except Crash α :=
  match xs.getLast? with
  | some x => .ok x
  | none => .error .indexOutOfRange

/-- `std::stoi`, which throws if there is no number or it does not fit in an `int`. -/
def stoi (str : Bytes) : Except Crash Int :=
  let (num, endPtr) := strtoll (cStr str)
  if endPtr = 0 then .error .invalidArgument
  else if num > 2 ^ 31 - 1 ∨ num < -2 ^ 31 then .error .outOfRange
  else .ok num

/-- `atoi`, which takes what does not fit modulo `2 ^ 32`. -/
def atoi (str : Bytes) : Int :=
  (Int32.ofInt (strtoll (cStr str)).1).toInt

/-- `Utils::IsNumber`. -/
def isNumber (str : Bytes) : Bool :=
  let tmpStr := str.dropWhile (· = 0x30)
  tmpStr.length ≤ 9 && tmpStr.all isDigit

/-! ### Sessions -/

/-- What a command returns. -/
inductive ErrCode
  | ok
  | fail
  deriving DecidableEq

/-- The object that `GetPropertiesCommand` asks for, and the range. -/
structure PropertiesParams where
  objectId : Int
  range : Option (Int × Int)
  deriving DecidableEq

/-- What a command does that can be seen from outside. -/
inductive Output
  /-- a line on `std::cout` -/
  | out (text : Bytes)
  /-- `HELP_MSG` -/
  | help
  /-- a line of the log -/
  | log (text : String)
  /-- the request of a command, and for `print` what it asks for -/
  | request (cmd : String) (params : Option PropertiesParams)
  deriving DecidableEq

/-- What the commands use of a session. -/
structure CliSession where
  sockInfo : Bytes := []
  breaklist : List Pt.Breaklocation := []
  breakPointInfoList : List (Bytes × Int) := []
  symbolicBreakpointInfoList : List Bytes := []
  urlList : List Bytes := []
  /-- `fileSource_`: the name of a script and its lines -/
  fileSource : List (Int × Bytes × List Bytes) := []
  scriptId : Int := 0
  debugLineNum : Int := 0
  isDebug : Bool := false
  watchInfoList : List Bytes := []
  /-- the call frames, as they are shown -/
  callFrames : List Bytes := []
  /-- what the tree of the variables yields -/
  findObjectIdWithIndex : Int → Int := fun _ => 0
  objectId : Int := 0
  startIndex : Option Int := none
  groupCount : Option Int := none
  isInitializeTree : Bool := true
  cpulist : List Bytes := []
  address : Bytes := ascii "/data/"
  interval : Int := 0

/-- What the environment decides. -/
structure CliEnv where
  /-- the file can be opened -/
  good : Bytes → Bool
  /-- a new session can be connected -/
  connects : Bytes → Bool

/-- The current session, if there is one, and what has been put out so far. -/
structure CliState where
  session : Option CliSession
  outputs : List Output := []

/-- A command in a session. -/
abbrev Cli := StateT CliState (Except Crash)

/-- Puts something out. -/
def print (output : Output) : Cli Unit :=
  modify fun st => { st with outputs := st.outputs ++ [output] }

/-- A line on `std::cout`. -/
def say (text : String) : Cli Unit := print (.out (ascii text))

/-- Several lines on `std::cout`. -/
def sayAll (texts : List Bytes) : Cli Unit :=
  modify fun st => { st with outputs := st.outputs ++ texts.map Output.out }

/-- Changes the session. -/
def update (f : CliSession → CliSession) : Cli Unit :=
  modify fun st => { st with session := st.session.map f }

/-- `GetSessionById`, and the test for a null pointer. -/
def withSession (body : CliSession → Cli ErrCode) : Cli ErrCode := do
  match (← get).session with
  | some session => body session
  | none => do
      print (.log "get session by id failed")
      return .fail

/-- `OutputCommand`. -/
def outputCommand (cmd : String) (flag : Bool) : Cli Unit :=
  if flag then print (.out (ascii "exe success, cmd is " ++ ascii cmd))
  else print (.out (ascii cmd ++ ascii " parameters is incorrect"))

/-- The result of a dispatcher as an error code. -/
def errCode (result : Bool) : ErrCode := if result then .ok else .fail

/-- The end of a command with wrong arguments. -/
def incorrect (cmd : String) : Cli ErrCode := do
  outputCommand cmd false
  return .fail

/-! ### Requests -/

/-- The commands that `HeapProfilerClient::DispatcherCmd` knows. -/
def heapProfilerTable : List String :=
  ["allocationtrack", "allocationtrack-stop", "heapdump", "heapprofiler-enable",
   "heapprofiler-disable", "sampling", "sampling-stop", "collectgarbage"]

/-- The commands that `ProfilerClient::DispatcherCmd` knows. -/
def profilerTable : List String :=
  ["cpuprofile", "cpuprofile-stop", "cpuprofile-setSamplingInterval", "cpuprofile-enable",
   "cpuprofile-disable"]

/-- The commands that `RuntimeClient::DispatcherCmd` knows. -/
def runtimeTable : List String :=
  ["heapusage", "runtime-enable", "runtime-disable", "print", "run"]

/-- The commands that `DebuggerClient::DispatcherCmd` knows. -/
def debuggerTable : List String :=
  ["break", "backtrack", "continue", "delete", "jump", "disable", "display", "enable", "finish",
   "frame", "ignore", "infobreakpoints", "infosource", "list", "next", "ptype", "run", "setvar",
   "step", "undisplay", "watch", "setAsyncStackDepth", "resume", "step-into", "step-out",
   "step-over", "enable-launch-accelerate", "enable-simplified-mode", "removeBreakpointsByUrl",
   "saveAllPossibleBreakpoints", "setSymbolicBreakpoints", "removeSymbolicBreakpoints"]

/-- The commands that `TestClient::DispatcherCmd` knows. -/
def testTable : List String := ["success", "fail"]

/-- `start_` and `count_`, if both have a value. -/
def CliSession.range (session : CliSession) : Option (Int × Int) :=
  match session.startIndex, session.groupCount with
  | some start, some count => some (start, count)
  | _, _ => none

/-- What `GetPropertiesCommand` finds in the session. -/
def CliSession.asked (session : CliSession) : PropertiesParams :=
  ⟨session.objectId, session.range⟩

/-- What the request for a command takes from the session, where it is modelled. -/
def requestParams (cmd : String) (session : CliSession) : Option PropertiesParams :=
  if cmd = "print" then some session.asked else none

/-- `DispatcherCmd` of a domain. -/
def dispatcherCmd (dispatcherTable : List String) (cmd : String) : Cli Bool := do
  if cmd ∈ dispatcherTable then do
    print (.request cmd ((← get).session.bind (requestParams cmd)))
    return true
  else return false

/-- The requests that read the last entry of the list of breakpoints. -/
def breakTable : List String := ["break", "delete", "saveAllPossibleBreakpoints"]

/-- The requests with the name of a function. -/
def symbolicTable : List String := ["setSymbolicBreakpoints", "removeSymbolicBreakpoints"]

/-- What the requests of the debugger take from the session. -/
def lastInfo (cmd : String) (session : CliSession) : Except Crash Unit :=
  if cmd ∈ breakTable then do
    let _ ← back session.breakPointInfoList
  else if cmd ∈ symbolicTable then do
    let _ ← back session.symbolicBreakpointInfoList
  else if cmd = "removeBreakpointsByUrl" then do
    let _ ← back session.urlList
  else return ()

/-- The end of the commands of the debugger: the request, and a report of success. -/
def debuggerDispatcherCmd (cmd : String) : Cli ErrCode :=
  withSession fun session => do
    liftM (lastInfo cmd session)
    let result ← dispatcherCmd debuggerTable cmd
    outputCommand cmd true
    return errCode result

/-- The end of the commands of the runtime; a `print` forgets its object. -/
def runtimeDispatcherCmd (cmd : String) : Cli ErrCode := do
  -- `DebugFalseState`
  update fun session => if cmd = "run" then { session with isDebug := false } else session
  let result ← dispatcherCmd runtimeTable cmd
  if result then do
    update fun session => { session with objectId := 0 }
    outputCommand cmd true
    return .ok
  else return .fail

/-! ### Commands in a session -/

section Commands

variable (env : CliEnv) (cmd : String) (argList : List Bytes)

/-- The first character of a path is the last one. -/
def sameEnds (path : Bytes) : Except Crash Bool := do
  let first ← element path 0
  let last ← element path (path.length - 1)
  return first == last

/-- `HeapProfilerCommand`. -/
def heapProfilerCommand : Cli ErrCode :=
  withSession fun _ =>
    if (cmd = "allocationtrack" ∨ cmd = "sampling") ∧ argList ≠ [] then do
      say "This command does not need to follow a suffix"
      return .fail
    else if argList = [] then do
      outputCommand cmd true
      let result ← dispatcherCmd heapProfilerTable cmd
      return errCode result
    else do
      let pathDump ← liftM (element argList 0)
      let same ← liftM (sameEnds pathDump)
      if env.good pathDump ∧ same ∧ argList.length = 1 then do
        outputCommand cmd true
        let result ← dispatcherCmd heapProfilerTable cmd
        return errCode result
      else if argList.length > 1 then do
        say "The folder path may contains spaces"
        return .fail
      else if ¬ same then do
        print (.out (ascii "The folder path format is incorrect :" ++ pathDump))
        say "Attention: Check for symbols /"
        return .fail
      else do
        print (.out (ascii "The folder path does not exist :" ++ pathDump))
        return .fail

/-- `CpuProfileCommand`. -/
def cpuProfileCommand : Cli ErrCode :=
  withSession fun session =>
    if cmd = "cpuprofile" ∧ argList ≠ [] then do
      say "This command does not need to follow a suffix"
      return .fail
    else if cmd = "cpuprofile" then do
      outputCommand cmd true
      let result ← dispatcherCmd profilerTable cmd
      return errCode result
    else if cmd = "cpuprofile-show" then do
      outputCommand cmd true
      sayAll session.cpulist
      return .ok
    else if cmd = "cpuprofile-setSamplingInterval" then do
      outputCommand cmd true
      let arg ← liftM (element argList 0)
      update fun session => { session with interval := atoi arg }
      let result ← dispatcherCmd profilerTable cmd
      return errCode result
    else if cmd = "cpuprofile-stop" ∧ argList.length = 1 then do
      let pathCpuPro ← liftM (element argList 0)
      update fun session => { session with address := pathCpuPro }
      let same ← liftM (sameEnds pathCpuPro)
      if env.good pathCpuPro ∧ same then do
        outputCommand cmd true
        let result ← dispatcherCmd profilerTable cmd
        return errCode result
      else if ¬ same then do
        print (.out (ascii "The folder path format is incorrect :" ++ pathCpuPro))
        say "Attention: Check for symbols /"
        return .fail
      else do
        print (.out (ascii "The folder path does not exist :" ++ pathCpuPro))
        return .fail
    else do
      let result ← dispatcherCmd profilerTable cmd
      return errCode result

/-- `DebuggerCommand`, for commands without arguments. -/
def debuggerCommand : Cli ErrCode :=
  if argList ≠ [] then incorrect cmd else debuggerDispatcherCmd cmd

/-- `RuntimeCommand`. -/
def runtimeCommand : Cli ErrCode :=
  if argList ≠ [] then incorrect cmd else withSession fun _ => runtimeDispatcherCmd cmd

/-- The loop of `BreakCommand`: there is a breakpoint at this line. -/
def breakpointIsExist (url : Bytes) (line : Int) : List Pt.Breaklocation → Except Crash Bool
  | [] => return false
  | breakpoint :: breaklist =>
    if breakpoint.url = url then do
      let lineNumber ← stoi breakpoint.lineNumber
      if lineNumber + 1 = line then return true else breakpointIsExist url line breaklist
    else breakpointIsExist url line breaklist

/-- `AddBreakPointInfo`. -/
def addBreakPointInfo (url : Bytes) (lineNumber : Int) (session : CliSession) : CliSession :=
  { session with breakPointInfoList := session.breakPointInfoList ++ [(url, lineNumber - 1)] }

/-- `BreakCommand`: `break url line`. -/
def breakCommand : Cli ErrCode :=
  withSession fun session =>
    if argList.length = 2 then do
      let url ← liftM (element argList 0)
      let lineArg ← liftM (element argList 1)
      if isNumber lineArg = false then incorrect cmd
      else do
        let line ← liftM (stoi lineArg)
        let isExist ← liftM (breakpointIsExist url line session.breaklist)
        if isExist then do
          say "the breakpoint is exist"
          return .fail
        else do
          update (addBreakPointInfo url line)
          debuggerDispatcherCmd cmd
    else incorrect cmd

/-- The commands with a name: it is noted in the session for the request. -/
def nameCommand (add : Bytes → CliSession → CliSession) (cmd : String) (argList : List Bytes) :
    Cli ErrCode :=
  withSession fun _ =>
    if argList.length = 1 then do
      let arg ← liftM (element argList 0)
      if isNumber arg then incorrect cmd
      else do
        update (add arg)
        debuggerDispatcherCmd cmd
    else incorrect cmd

/-- `BreakPointManager` notes the name of a function. -/
def addSymbolicBreakpointInfo (functionName : Bytes) (session : CliSession) : CliSession :=
  { session with
    symbolicBreakpointInfoList := session.symbolicBreakpointInfoList ++ [functionName] }

/-- `BreakPointManager` notes the url of a request. -/
def addUrl (url : Bytes) (session : CliSession) : CliSession :=
  { session with urlList := session.urlList ++ [url] }

/-- `SetSymbolicBreakpointsCommand`. -/
def setSymbolicBreakpointsCommand : String → List Bytes → Cli ErrCode :=
  nameCommand addSymbolicBreakpointInfo

/-- `RemoveSymbolicBreakpointsCommand`. -/
def removeSymbolicBreakpointsCommand : String → List Bytes → Cli ErrCode :=
  nameCommand addSymbolicBreakpointInfo

/-- `RemoveBreakpointsByUrlCommand`. -/
def removeBreakpointsByUrlCommand : String → List Bytes → Cli ErrCode :=
  nameCommand addUrl

/-- `DeleteCommand`: the breakpoint with the number in the list. -/
def deleteCommand : Cli ErrCode :=
  withSession fun session =>
    if argList.length = 1 then do
      let arg ← liftM (element argList 0)
      if isNumber arg = false then incorrect cmd
      else do
        let tmpNum ← liftM (stoi arg)
        let num := tmpNum.toNat
        if num ≤ session.breaklist.length ∧ num > 0 then do
          let breakpoint ← liftM (element session.breaklist (num - 1))
          update (addBreakPointInfo breakpoint.breakpointId 0)
          update fun session => { session with breaklist := session.breaklist.eraseIdx (num - 1) }
          debuggerDispatcherCmd cmd
        else do
          say "the breakpoint is not exist"
          return .fail
    else incorrect cmd

/-- The commands that show something of the session and take no arguments. -/
def showCommand (show' : CliSession → List Bytes) (cmd : String) (argList : List Bytes) :
    Cli ErrCode :=
  if argList ≠ [] then incorrect cmd
  else
    withSession fun session => do
      sayAll (show' session)
      outputCommand cmd true
      return .ok

/-- `BreakPointManager::Show`. -/
def showBreakpoint (i : Nat) (b : Pt.Breaklocation) : Bytes :=
  natText (i + 1) ++ ascii ": url:" ++ b.url ++ ascii " lineNumber:"
    ++ intText (atoi b.lineNumber + 1) ++ ascii " columnNumber:" ++ b.columnNumber

/-- `DisplayCommand`: the list of breakpoints. -/
def displayCommand : String → List Bytes → Cli ErrCode :=
  showCommand fun session => session.breaklist.mapIdx showBreakpoint

/-- `ShowstackCommand`: the call stack. -/
def showstackCommand : String → List Bytes → Cli ErrCode :=
  showCommand CliSession.callFrames

/-- A line of a source with its number. -/
def numbered (i : Nat) (line : Bytes) : Bytes :=
  natText (i + 1) ++ ascii "    " ++ line

/-- `GetFileSource`: the lines of a source with their numbers. -/
def getFileSource (session : CliSession) (scriptId : Int) : List Bytes :=
  match session.fileSource.lookup scriptId with
  | some (_, lines) => ascii "fileSource : " :: lines.mapIdx numbered
  | none => []

/-- `GetFileName`: the scripts that are known. -/
def getFileName (session : CliSession) : List Bytes :=
  session.fileSource.map fun (scriptId, fileName, _) =>
    ascii "scriptID : " ++ intText scriptId ++ ascii " fileName : " ++ fileName

/-- `InfosourceCommand`: all scripts, or the source of one. -/
def infosourceCommand : Cli ErrCode :=
  withSession fun session =>
    if argList.length > 1 then incorrect cmd
    else if argList.length = 1 then do
      let arg ← liftM (element argList 0)
      if isNumber arg = false then incorrect cmd
      else do
        let scriptId ← liftM (stoi arg)
        sayAll (getFileSource session scriptId)
        outputCommand cmd true
        return .ok
    else do
      sayAll (getFileName session)
      outputCommand cmd true
      return .ok

/-- The loops of the source manager: lines `showLine`, … of a script. -/
def showLines (lines : List Bytes) (showLine count : Nat) : Except Crash (List Bytes) :=
  (List.range' showLine count).mapM fun i => (element lines i).map (numbered i)

/-- `ListSource` without parameters. -/
def listSource (session : CliSession) : Cli Unit :=
  match session.fileSource.lookup session.scriptId with
  | none => print (.log "arkdb: get file source error")
  | some (_, lines) => do
      let start := session.debugLineNum + 1 - 6
      let showLine := if start < 0 then 0 else start.toNat
      let endLine := if start < 0 then 10 else session.debugLineNum + 4
      -- the last line that is shown has the index `endLine`
      let texts ← liftM (showLines lines showLine ((min endLine lines.length + 1).toNat - showLine))
      sayAll texts

/-- `ListSourceCodeWithParameters` with a first line only.  `IsNumber` accepts at most nine
digits, so that no argument of `list` is the sentinel `BLANK_LINE`. -/
def listSourceFrom (startLine : Int) (session : CliSession) : Cli Unit :=
  match session.fileSource.lookup session.scriptId with
  | none => print (.log "arkdb: get file source error")
  | some (_, lines) =>
    if startLine ≥ lines.length + 6 ∨ startLine < 0 then
      print (.out (ascii "Line number out of range, this file has " ++ natText lines.length
        ++ ascii " lines"))
    else do
      let start := startLine - 6
      let showLine := if start < 0 then 0 else start.toNat
      let endLine := if start < 0 then 10 else startLine + 4
      let texts ← liftM (showLines lines showLine ((min endLine lines.length).toNat - showLine))
      sayAll texts

/-- `ListSourceCodeWithParameters` with two lines, of which again none is `BLANK_LINE`. -/
def listSourceBetween (startLine endLine : Int) (session : CliSession) : Cli Unit :=
  match session.fileSource.lookup session.scriptId with
  | none => print (.log "arkdb: get file source error")
  | some (_, lines) =>
    if startLine > lines.length ∨ endLine > lines.length ∨ startLine < 1 then
      print (.out (ascii "Line number out of range, this file has " ++ natText lines.length
        ++ ascii " lines"))
    else do
      let showLine := (startLine - 1).toNat
      let texts ← liftM (showLines lines showLine (endLine.toNat - showLine))
      sayAll texts

/-- `ListCommand`: lines around the current one, around a line, or between two lines. -/
def listCommand : Cli ErrCode :=
  withSession fun session =>
    if session.isDebug = false then do
      say "Start debugging your code before using the list command"
      return .fail
    else if argList.length > 2 then incorrect cmd
    else if argList.length = 2 then do
      let first ← liftM (element argList 0)
      let last ← liftM (element argList 1)
      if isNumber first ∧ isNumber last then do
        let startLine ← liftM (stoi first)
        let endLine ← liftM (stoi last)
        listSourceBetween startLine endLine session
        outputCommand cmd true
        return .ok
      else incorrect cmd
    else if argList.length = 1 then do
      let first ← liftM (element argList 0)
      if isNumber first then do
        let startLine ← liftM (stoi first)
        listSourceFrom startLine session
        outputCommand cmd true
        return .ok
      else incorrect cmd
    else do
      listSource session
      outputCommand cmd true
      return .ok

/-- `StepCommand`: the tree of variables is built anew after the step. -/
def stepCommand : Cli ErrCode :=
  if argList ≠ [] then incorrect cmd
  else
    withSession fun _ => do
      update fun session => { session with isInitializeTree := true }
      debuggerDispatcherCmd cmd

/-- `PrintCommand`: `print`, `print index`, `print name object` or `print object start count`. -/
def printCommand : Cli ErrCode :=
  if argList.length > 3 then incorrect cmd
  else
    withSession fun session =>
      if argList.length = 1 then do
        let index ← liftM (element argList 0)
        if isNumber index = false then return .fail
        else do
          let number ← liftM (stoi index)
          update fun s =>
            { s with isInitializeTree := false, objectId := session.findObjectIdWithIndex number }
          runtimeDispatcherCmd cmd
      else if argList.length = 2 then do
        let object ← liftM (element argList 1)
        if isNumber object = false then return .fail
        else do
          let number ← liftM (stoi object)
          update fun s => { s with isInitializeTree := false, objectId := number }
          runtimeDispatcherCmd cmd
      else if argList.length = 3 then do
        let object ← liftM (element argList 0)
        let start ← liftM (element argList 1)
        let count ← liftM (element argList 2)
        if isNumber object = false ∨ isNumber start = false ∨ isNumber count = false then
          return .fail
        else do
          let objectId ← liftM (stoi object)
          let startIndex ← liftM (stoi start)
          let groupCount ← liftM (stoi count)
          update fun s =>
            { s with isInitializeTree := false, objectId, startIndex, groupCount }
          runtimeDispatcherCmd cmd
      else runtimeDispatcherCmd cmd

/-- `WatchCommand`. -/
def watchCommand : Cli ErrCode :=
  if argList.length ≠ 1 then incorrect cmd
  else
    withSession fun session => do
      let arg ← liftM (element argList 0)
      update fun session => { session with watchInfoList := session.watchInfoList ++ [arg] }
      if session.isDebug then do
        -- `SendRequestWatch`, for the last entry
        let _ ← liftM (element (session.watchInfoList ++ [arg])
          ((session.watchInfoList ++ [arg]).length - 1))
        print (.request cmd none)
        outputCommand cmd true
        return .ok
      else do
        say "Start debugging your code before using the watch command"
        return .fail

/-- `TestCommand`. -/
def testCommand : Cli ErrCode :=
  withSession fun _ => do
    let _ ← dispatcherCmd testTable cmd
    return .ok

/-- `ExecHelpCommand`. -/
def execHelpCommand : Cli ErrCode := do
  print .help
  return .ok

end Commands

/-! ### The command table -/

/-- The commands about sessions. -/
inductive SessionHandler
  | add
  | del
  | list
  | switch
  deriving DecidableEq

/-- What handles a command. -/
inductive Handler
  | heapProfiler
  | cpuProfile
  | runtime
  | break
  | debugger
  | delete
  | display
  | setSymbolicBreakpoints
  | removeSymbolicBreakpoints
  | removeBreakpointsByUrl
  | help
  | infosource
  | list
  | print
  | watch
  | showstack
  | step
  | test
  /-- a command on the sessions -/
  | session (handler : SessionHandler)
  deriving DecidableEq

/-- An entry of the table of commands. -/
structure Command where
  name : String
  shortName : String
  handler : Handler

/-- `commandMap_`.  No word stands for two commands, so that the order does not matter. -/
def commandMap : List Command :=
  [⟨"allocationtrack", "at", .heapProfiler⟩,
   ⟨"allocationtrack-stop", "at-stop", .heapProfiler⟩,
   ⟨"heapdump", "hd", .heapProfiler⟩,
   ⟨"heapprofiler-enable", "hp-enable", .heapProfiler⟩,
   ⟨"heapprofiler-disable", "hp-disable", .heapProfiler⟩,
   ⟨"sampling", "sampling", .heapProfiler⟩,
   ⟨"sampling-stop", "sampling-stop", .heapProfiler⟩,
   ⟨"collectgarbage", "gc", .heapProfiler⟩,
   ⟨"cpuprofile", "cp", .cpuProfile⟩,
   ⟨"cpuprofile-stop", "cp-stop", .cpuProfile⟩,
   ⟨"cpuprofile-enable", "cp-enable", .cpuProfile⟩,
   ⟨"cpuprofile-disable", "cp-disable", .cpuProfile⟩,
   ⟨"cpuprofile-show", "cp-show", .cpuProfile⟩,
   ⟨"cpuprofile-setSamplingInterval", "cp-ssi", .cpuProfile⟩,
   ⟨"runtime-enable", "rt-enable", .runtime⟩,
   ⟨"heapusage", "hu", .runtime⟩,
   ⟨"break", "b", .break⟩,
   ⟨"backtrack", "bt", .debugger⟩,
   ⟨"continue", "c", .debugger⟩,
   ⟨"delete", "d", .delete⟩,
   ⟨"disable", "disable", .debugger⟩,
   ⟨"display", "display", .display⟩,
   ⟨"enable", "enable", .debugger⟩,
   ⟨"finish", "fin", .debugger⟩,
   ⟨"frame", "f", .debugger⟩,
   ⟨"saveAllPossibleBreakpoints", "b-new", .break⟩,
   ⟨"setSymbolicBreakpoints", "setSymbolicBreakpoints", .setSymbolicBreakpoints⟩,
   ⟨"removeSymbolicBreakpoints", "removeSymbolicBreakpoints", .removeSymbolicBreakpoints⟩,
   ⟨"removeBreakpointsByUrl", "removeBreakpointsByUrl", .removeBreakpointsByUrl⟩,
   ⟨"enable-launch-accelerate", "enable-acc", .debugger⟩,
   ⟨"enable-simplified-mode", "enable-simplified", .debugger⟩,
   ⟨"help", "h", .help⟩,
   ⟨"ignore", "ig", .debugger⟩,
   ⟨"infobreakpoints", "infob", .debugger⟩,
   ⟨"infosource", "infos", .infosource⟩,
   ⟨"jump", "j", .debugger⟩,
   ⟨"list", "l", .list⟩,
   ⟨"next", "n", .debugger⟩,
   ⟨"print", "p", .print⟩,
   ⟨"ptype", "ptype", .debugger⟩,
   ⟨"run", "r", .runtime⟩,
   ⟨"setvar", "sv", .debugger⟩,
   ⟨"step", "s", .debugger⟩,
   ⟨"undisplay", "undisplay", .debugger⟩,
   ⟨"watch", "wa", .watch⟩,
   ⟨"resume", "resume", .debugger⟩,
   ⟨"showstack", "ss", .showstack⟩,
   ⟨"step-into", "si", .step⟩,
   ⟨"step-out", "so", .step⟩,
   ⟨"step-over", "sov", .step⟩,
   ⟨"runtime-disable", "rt-disable", .runtime⟩,
   ⟨"setAsyncStackDepth", "setAsyncStackDepth", .debugger⟩,
   ⟨"session-new", "session-new", .session .add⟩,
   ⟨"session-remove", "session-remove", .session .del⟩,
   ⟨"session-list", "session-list", .session .list⟩,
   ⟨"session", "session", .session .switch⟩,
   ⟨"success", "success", .test⟩,
   ⟨"fail", "fail", .test⟩]

/-- The names that are proposed for the beginning of one. -/
def cmdList : List String :=
  ["allocationtrack", "allocationtrack-stop", "heapdump", "heapprofiler-enable",
   "heapprofiler-disable", "sampling", "sampling-stop", "collectgarbage", "cpuprofile",
   "cpuprofile-stop", "cpuprofile-enable", "cpuprofile-disable", "cpuprofile-show",
   "cpuprofile-setSamplingInterval", "runtime-enable", "heapusage", "break",
   "setSymbolicBreakpoints", "removeSymbolicBreakpoints", "removeBreakpointsByUrl", "backtrack",
   "continue", "delete", "disable", "display", "enable", "finish", "frame", "help", "ignore",
   "infobreakpoints", "infosource", "jump", "list", "next", "print", "ptype", "run", "setvar",
   "step", "undisplay", "watch", "resume", "step-into", "step-out", "step-over",
   "runtime-disable", "setAsyncStackDepth", "session-new", "session-remove", "session-list",
   "session", "success", "fail"]

/-- The first entry with the name or the short name. -/
def findCommand (cmd : Bytes) : Option Command :=
  commandMap.find? fun command => ascii command.name = cmd || ascii command.shortName = cmd

/-- What the entry of the table does, in the session of the command. -/
def respond (env : CliEnv) (command : Command) (argList : List Bytes) : Cli ErrCode :=
  match command.handler with
  | .heapProfiler => heapProfilerCommand env command.name argList
  | .cpuProfile => cpuProfileCommand env command.name argList
  | .runtime => runtimeCommand command.name argList
  | .break => breakCommand command.name argList
  | .debugger => debuggerCommand command.name argList
  | .delete => deleteCommand command.name argList
  | .display => displayCommand command.name argList
  | .setSymbolicBreakpoints => setSymbolicBreakpointsCommand command.name argList
  | .removeSymbolicBreakpoints => removeSymbolicBreakpointsCommand command.name argList
  | .removeBreakpointsByUrl => removeBreakpointsByUrlCommand command.name argList
  | .help => execHelpCommand
  | .infosource => infosourceCommand command.name argList
  | .list => listCommand command.name argList
  | .print => printCommand command.name argList
  | .watch => watchCommand command.name argList
  | .showstack => showstackCommand command.name argList
  | .step => stepCommand command.name argList
  | .test => testCommand command.name
  | .session _ => return .ok

/-! ### Lines -/

/-- The client: its sessions, and what the TCP server has read. -/
structure CliClient where
  sessions : Nat → Option CliSession := fun _ => none
  currentSessionId : Nat := 0
  isServerActive : Bool := false
  /-- `g_inputStr`: what the TCP server has read -/
  inputStr : Bytes := []

/-- How a command ends, and what it has printed. -/
structure Answer where
  code : ErrCode
  outputs : List Output
  deriving DecidableEq

namespace CliClient

variable (env : CliEnv) (client : CliClient)

/-- `GetSessionById`. -/
def getSessionById (sessionId : Nat) : Option CliSession :=
  if sessionId < maxSessionNum then client.sessions sessionId else none

/-- `CreateNewSession`. -/
def createNewSession (sockInfo : Bytes) : Option CliClient :=
  if ∃ i < maxSessionNum, ((client.sessions i).map CliSession.sockInfo) = some sockInfo then none
  else
    match (List.range maxSessionNum).find? fun i => (client.sessions i).isNone with
    | some id =>
      if env.connects sockInfo then
        some { client with sessions := Function.update client.sessions id (some { sockInfo }) }
      else none
    | none => none

/-- `DelSessionById`; session 0 becomes the current one in its place. -/
def delSessionById (sessionId : Nat) : Option CliClient :=
  match client.getSessionById sessionId with
  | none => none
  | some _ =>
    some { client with
      sessions := Function.update client.sessions sessionId none
      currentSessionId :=
        if sessionId = client.currentSessionId then 0 else client.currentSessionId }

/-- `SessionSwitch`. -/
def sessionSwitch (sessionId : Nat) : Option CliClient :=
  match client.getSessionById sessionId with
  | none => none
  | some _ => some { client with currentSessionId := sessionId }

/-- `SessionList`. -/
def sessionList : List Output :=
  (List.range maxSessionNum).filterMap fun i => (client.sessions i).map fun session =>
    .out (ascii (if i = client.currentSessionId then "* " else "  ") ++ natText i ++ ascii ": "
      ++ session.sockInfo)

end CliClient

/-- The report of a command that has succeeded. -/
def success (cmd : String) : Output := .out (ascii "exe success, cmd is " ++ ascii cmd)

/-- The report of a command with wrong arguments. -/
def parametersIncorrect (cmd : String) : Answer :=
  ⟨.fail, [.out (ascii cmd ++ ascii " parameters is incorrect")]⟩

/-- The commands about sessions, which may change the client. -/
def respondSession (env : CliEnv) (handler : SessionHandler) (cmd : String)
    (argList : List Bytes) (client : CliClient) : Except Crash (Answer × CliClient) :=
  match handler with
  | .add =>
    if argList.length = 1 then do
      let arg ← element argList 0
      match client.createNewSession env arg with
      | some client' => return (⟨.ok, [success cmd]⟩, client')
      | none => return (⟨.fail, [.out (ascii "session add failed")]⟩, client)
    else return (parametersIncorrect cmd, client)
  | .del =>
    if argList.length = 1 then do
      let arg ← element argList 0
      if isNumber arg then
        match strToUInt arg with
        | some sessionId =>
          if sessionId = 0 then
            return (⟨.ok, [.out (ascii "cannot remove default session 0")]⟩, client)
          else
            match client.delSessionById sessionId with
            | some client' =>
              return (⟨.ok, [.out (ascii "session remove success")]⟩, client')
            | none => return (⟨.fail, [.out (ascii "sessionId is not exist")]⟩, client)
        | none => return (⟨.fail, []⟩, client)
      else return (parametersIncorrect cmd, client)
    else return (parametersIncorrect cmd, client)
  | .list =>
    if argList ≠ [] then return (parametersIncorrect cmd, client)
    else return (⟨.ok, client.sessionList ++ [success cmd]⟩, client)
  | .switch =>
    if argList.length = 1 then do
      let arg ← element argList 0
      if isNumber arg then
        match strToUInt arg with
        | some sessionId =>
          match client.sessionSwitch sessionId with
          | some client' => return (⟨.ok, [success cmd]⟩, client')
          | none => return (⟨.fail, [.out (ascii "sessionId is not exist")]⟩, client)
        | none => return (⟨.fail, []⟩, client)
      else return (parametersIncorrect cmd, client)
    else return (parametersIncorrect cmd, client)

/-- The end of `OnCommand`: names that start with the word, or all commands. -/
def unknownCommand (cmd : Bytes) : Answer :=
  match cmdList.filter fun name => cmd.isPrefixOf (ascii name) with
  | [] => ⟨.fail, [.help]⟩
  | names => ⟨.fail, names.map fun name => .out (ascii name)⟩

/-- `InputMessageInSession`: the constructor of `CliCommand`, and `ExecCommand`. -/
def inputMessageInSession (env : CliEnv) (cliCmdStr : List Bytes) (sessionId : Nat)
    (client : CliClient) : Except Crash (Answer × CliClient) := do
  let cmd ← element cliCmdStr 0
  let argList := cliCmdStr.drop 1
  match findCommand cmd with
  | none => return (unknownCommand cmd, client)
  | some command =>
    match command.handler with
    | .session handler => respondSession env handler command.name argList client
    | _ => do
        let (code, st) ← (respond env command argList).run
          { session := client.getSessionById sessionId }
        return (⟨code, st.outputs⟩,
          { client with sessions := Function.update client.sessions sessionId st.session })

/-- `CmdForAllSessions`, for the ids that are left.  The line with the number of the session
that it prints is not an answer of the command. -/
def cmdForAllSessions (env : CliEnv) (cliCmdStr : List Bytes) :
    List Nat → CliClient → Except Crash (List Answer × CliClient)
  | [], client => return ([], client)
  | sessionId :: ids, client =>
    match client.sessions sessionId with
    | none => cmdForAllSessions env cliCmdStr ids client
    | some _ => do
        let (answer, client) ← inputMessageInSession env cliCmdStr sessionId client
        let (answers, client) ← cmdForAllSessions env cliCmdStr ids client
        return (answer :: answers, client)

/-- `g_allCmds`. -/
def allCmds : List String :=
  ["allocationtrack", "at", "allocationtrack-stop", "at-stop", "heapdump", "hd",
   "heapprofiler-enable", "hp-enable", "heapprofiler-disable", "hp-disable", "sampling",
   "sampling-stop", "collectgarbage", "gc", "cpuprofile", "cp", "cpuprofile-stop", "cp-stop",
   "cpuprofile-enable", "cp-enable", "cpuprofile-disable", "cp-disable", "cpuprofile-show",
   "cp-show", "cpuprofile-setSamplingInterval", "cp-ssi", "runtime-enable", "rt-enable",
   "heapusage", "hu", "break", "b", "backtrack", "bt", "continue", "c", "delete", "d", "disable",
   "display", "enable", "finish", "fin", "frame", "f", "help", "h", "ignore", "ig",
   "infobreakpoints", "infob", "infosource", "infos", "jump", "j", "list", "l", "next", "n",
   "print", "p", "ptype", "run", "r", "setvar", "sv", "step", "s", "undisplay", "watch", "wa",
   "resume", "showstack", "ss", "step-into", "si", "step-out", "so", "step-over", "sov",
   "runtime-disable", "rt-disable"]

/-- `g_inputOnMessages`. -/
def inputOnMessages : List String :=
  ["b", "break", "bt", "backtrack", "d", "delete", "display", "fin", "finish", "f", "frame", "h",
   "help", "ig", "ignore", "infob", "infobreakpoints", "infos", "infosource", "j", "jump", "l",
   "list", "n", "next", "ptype", "s", "step", "ss", "showstack", "watch", "wa"]

/-- The separator of words. -/
def blank : Bytes := ascii " "

/-- `FindCommand` of the TCP server. -/
def tcpFindCommand (cmds : List String) (cmd : Bytes) : Bool :=
  cmds.any fun name => ascii name = cmd

/-- `TcpServerWrite("InputOnMessage")`, without what is written to the socket. -/
def tcpServerWrite (client : CliClient) : Except Crash CliClient :=
  if client.inputStr = [] then return client
  else do
    let cmd ← element (splitString client.inputStr blank) 0
    if !tcpFindCommand allCmds cmd || tcpFindCommand inputOnMessages cmd then
      return { client with inputStr := [] }
    else return client

/-- A line that has been split into words: a `forall` is executed in every session. -/
def execLine (env : CliEnv) (cliCmdStr : List Bytes) (client : CliClient) :
    Except Crash (List Answer × CliClient) := do
  let first ← element cliCmdStr 0
  if first = ascii "forall" then
    match cliCmdStr[1]? with
    | some cmd =>
      if ascii "session" <:+: cmd then
        return ([⟨.fail, [.out (ascii "command " ++ cmd ++ ascii " not support forall")]⟩],
          client)
      else cmdForAllSessions env (cliCmdStr.drop 1) (List.range maxSessionNum) client
    | none => cmdForAllSessions env (cliCmdStr.drop 1) (List.range maxSessionNum) client
  else do
    let (answer, client) ← inputMessageInSession env cliCmdStr client.currentSessionId client
    return ([answer], client)

/-- `InputOnMessage`. -/
def inputOnMessage (env : CliEnv) (msg : Bytes) (client : CliClient) :
    Except Crash (List Answer × CliClient) :=
  let cliCmdStr := splitString (cStr msg) blank
  if cliCmdStr = [] then return ([⟨.fail, [.log "Empty command input"]⟩], client)
  else do
    let (answers, client) ← execLine env cliCmdStr client
    let client ← if client.isServerActive then tcpServerWrite client else pure client
    return (answers, client)

end ArkDb

end ArkToolchain
