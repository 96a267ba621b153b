/-
Requests to the dynamic debugger, and the responses to them (`dispatcher.cpp`, the dispatchers
of the agents, and `SendResponse` of `protocol_handler.cpp`).

The dispatcher of a domain reads the parameters, asks its agent, and sends one response with the
id of the request; what the agent decides is up to `Agents`.  A request for a domain without a
dispatcher, and one whose `params` are not an object, are only logged.

Main result: `request_answered_iff`.
-/
import ArkToolchain.PtJson

namespace ArkToolchain

open PtJson

/-! ### Requests -/

/-- `RequestCode`: what has become of the request. -/
inductive RequestCode
  | ok
  | nok
  | jsonParseError
  | parseIdError
  | idFormatError
  | parseMethodError
  | methodFormatError
  | parseParamsError
  | paramsFormatError
  deriving DecidableEq

/-- `DispatchRequest`, without the JSON that it keeps. -/
structure DispatchRequest where
  callId : Int32 := -1
  domain : Bytes := []
  method : Bytes := []
  params : PtJson := .null
  code : RequestCode := .ok

namespace DispatchRequest

/-- The constructor, after `Parse`.  Without a value there is a null pointer, which `Parse` does
not return. -/
def create : Option PtJson → Except Fault DispatchRequest
  | none => return { code := .jsonParseError }
  | some json => do
      if json.isObject.isNone then return { code := .paramsFormatError }
      match ← json.getInt (ascii "id") with
      | .success callId =>
        match json.getString (ascii "method") with
        | .success wholeMethod =>
          if wholeMethod = [] then return { callId, code := .parseMethodError }
          match splitMethod wholeMethod with
          | none => return { callId, code := .methodFormatError }
          | some (domain, method) =>
            match json.getObject (ascii "params") with
            | .notExist => return { callId, domain, method }
            | .typeError => return { callId, domain, method, code := .paramsFormatError }
            | .success params => return { callId, domain, method, params }
        | _ => return { callId, code := .parseMethodError }
      | _ => return { code := .parseIdError }

end DispatchRequest

namespace Dispatcher

/-! ### Responses -/

/-- `ResponseCode`. -/
inductive ResponseCode
  | ok
  | nok
  deriving DecidableEq

/-- `DispatchResponse`. -/
structure DispatchResponse where
  code : ResponseCode := .ok
  errorMsg : Bytes := []

namespace DispatchResponse

def fail (message : Bytes) : DispatchResponse := { code := .nok, errorMsg := message }

/-- `CreateErrorReply`, and `DispatchResponseToJson`. -/
def createErrorReply (response : DispatchResponse) : PtJson :=
  match response.code with
  | .ok => ofMembers []
  | .nok =>
    ofMembers
      [(ascii "code", some (ofInt 1)), (ascii "message", some (ofString response.errorMsg))]

/-- The reply of `SendResponse`, or of `ReturnsValueToString`.  Without a result, that of
`PtBaseReturns` is taken. -/
def reply (response : DispatchResponse) (callId : Int32) (result : Option PtJson) : PtJson :=
  ofMembers
    [(ascii "id", some (ofInt callId.toInt)),
      (ascii "result", some (match response.code with
        | .ok => result.getD createObject
        | .nok => response.createErrorReply))]

end DispatchResponse

/-- What goes out to the client. -/
inductive Outgoing
  | response (reply : PtJson)
  | notification (event : PtJson)

def Outgoing.isResponse : Outgoing → Bool
  | response _ => true
  | notification _ => false

/-! ### Agents -/

/-- What an agent answers to its dispatcher. -/
structure AgentAnswer where
  response : DispatchResponse
  /-- the value that it sets for the response -/
  result : Option PtJson := none
  /-- the notifications that it sends meanwhile -/
  notifications : List PtJson := []

/-- What the agents do, by domain and method. -/
structure Agents where
  /-- the `Create` of the parameters of a method does not return null -/
  accepts : Bytes → Bytes → PtJson → Bool
  call : Bytes → Bytes → PtJson → AgentAnswer
  /-- `TracingImpl::End`, with the notifications about the events, or null -/
  endTracing : Option (List PtJson)

/-- What becomes of the value that an agent sets: nothing, or always a result, or a result
if it is set. -/
inductive Returned
  | never
  | always
  | ifSet

/-- A method of a dispatcher. -/
inductive DispatchMethod
  | agent (readsParams : Bool) (returned : Returned)
  /-- succeeds without asking an agent -/
  | ok (result : Option PtJson)
  | endTracing
  | clientDisconnect

/-- What a method does: notifications, a response, further notifications. -/
structure Reaction where
  before : List PtJson := []
  response : Option (DispatchResponse × Option PtJson)
  after : List PtJson := []

/-- What the method does with its parameters. -/
def DispatchMethod.react (agents : Agents) (domain method : Bytes) (params : PtJson) :
    DispatchMethod → Reaction
  | agent readsParams returned =>
    if readsParams && !agents.accepts domain method params then
      { response := some (.fail (ascii "wrong params"), none) }
    else
      let answer := agents.call domain method params
      let result :=
        match returned with
        | .never => none
        | .always => some (answer.result.getD createObject)
        | .ifSet => answer.result
      { before := answer.notifications, response := some (answer.response, result) }
  | ok result => { response := some ({}, result) }
  | endTracing =>
    match agents.endTracing with
    | none => { response := some (.fail (ascii "Stop is failure"), none) }
    | some events => { response := some ({}, none), after := events }
  | clientDisconnect =>
    { before := (agents.call domain method params).notifications, response := none }

/-! ### Dispatchers -/

/-- `DispatcherImpl`: the methods of a domain. -/
structure DispatcherImpl where
  /-- `GetMethodEnum`, and the `switch` over it -/
  methods : List (String × DispatchMethod)
  /-- the text for another method -/
  unknown : String := "Unknown method: "
  /-- returns its response instead of sending it, if it is asked to -/
  crossLanguage : Bool := false

/-- A method without parameters. -/
def plain : DispatchMethod := .agent false .never

/-- A method with parameters. -/
def reads : DispatchMethod := .agent true .never

def debuggerDispatcher : DispatcherImpl where
  crossLanguage := true
  methods :=
    [("continueToLocation", reads), ("enable", .agent true .always), ("disable", plain),
      ("evaluateOnCallFrame", .agent true .ifSet),
      ("getPossibleBreakpoints", .agent true .always), ("getScriptSource", .agent true .always),
      ("pause", plain), ("removeBreakpoint", reads), ("removeBreakpointsByUrl", reads),
      ("resume", reads), ("setAsyncCallStackDepth", reads),
      ("setBreakpointByUrl", .agent true .always), ("setBreakpointsActive", reads),
      ("setPauseOnExceptions", reads), ("setSkipAllPauses", reads), ("stepInto", reads),
      ("smartStepInto", reads), ("stepOut", plain), ("stepOver", reads),
      ("setMixedDebugEnabled", reads), ("setBlackboxPatterns", plain),
      ("replyNativeCalling", reads),
      ("getPossibleAndSetBreakpointByUrl", .agent true .always), ("dropFrame", reads),
      ("setNativeRange", reads), ("resetSingleStepper", reads),
      ("clientDisconnect", .clientDisconnect), ("callFunctionOn", .agent true .ifSet),
      ("saveAllPossibleBreakpoints", reads), ("setSymbolicBreakpoints", reads),
      ("removeSymbolicBreakpoints", reads)]

def runtimeDispatcher : DispatcherImpl where
  crossLanguage := true
  unknown := "unknown method: "
  methods :=
    [("enable", .agent false .always), ("disable", plain),
      ("getProperties", .agent true .always), ("runIfWaitingForDebugger", plain),
      ("getHeapUsage", .agent false .always)]

def heapProfilerDispatcher : DispatcherImpl where
  methods :=
    [("addInspectedHeapObject", reads), ("collectGarbage", plain),
      ("enable", .agent false .always), ("disable", plain),
      ("getHeapObjectId", .agent true .always), ("getObjectByHeapObjectId", .agent true .ifSet),
      ("getSamplingProfile", .agent false .ifSet), ("startSampling", reads),
      ("startTrackingHeapObjects", reads), ("stopSampling", .agent false .ifSet),
      ("stopTrackingHeapObjects", reads), ("takeHeapSnapshot", reads)]

def profilerDispatcher : DispatcherImpl where
  methods :=
    [("disable", plain), ("enable", .agent false .always), ("start", plain),
      ("stop", .agent false .ifSet), ("setSamplingInterval", reads),
      ("getBestEffortCoverage", plain), ("stopPreciseCoverage", plain),
      ("takePreciseCoverage", plain), ("startPreciseCoverage", reads),
      ("startTypeProfile", plain), ("stopTypeProfile", plain), ("takeTypeProfile", plain),
      ("enableSerializationTimeoutCheck", reads), ("disableSerializationTimeoutCheck", plain)]

def tracingDispatcher : DispatcherImpl where
  methods :=
    [("end", .endTracing), ("getCategories", plain), ("recordClockSyncMarker", plain),
      ("requestMemoryDump", reads), ("start", reads)]

/-- The domains that only know `disable`. -/
def disableDispatcher : DispatcherImpl where
  methods := [("disable", .ok none)]

def targetDispatcher : DispatcherImpl where
  methods := [("setAutoAttach", .ok none)]

def pageDispatcher : DispatcherImpl where
  methods :=
    [("getNavigationHistory", .ok (some (ofMembers
      [(ascii "currentIndex", some (ofInt 0)),
        (ascii "entries", some (array [createObject]))])))]

/-- The features with which the debugger is built. -/
structure BuildFeatures where
  cpuProfiler : Bool
  heapProfiler : Bool
  tracing : Bool

/-- `dispatchers_`. -/
def dispatchers (build : BuildFeatures) : List (String × DispatcherImpl) :=
  (if build.cpuProfiler then [("Profiler", profilerDispatcher)] else []) ++
    (if build.heapProfiler then [("HeapProfiler", heapProfilerDispatcher)] else []) ++
    (if build.tracing then [("Tracing", tracingDispatcher)] else []) ++
    [("Runtime", runtimeDispatcher), ("Debugger", debuggerDispatcher),
      ("DOM", disableDispatcher), ("CSS", disableDispatcher), ("Overlay", disableDispatcher),
      ("Target", targetDispatcher), ("Page", pageDispatcher), ("Animation", disableDispatcher)]

/-- The entry of a table with the name. -/
def entry {α : Type} (table : List (String × α)) (name : Bytes) : Option α :=
  (table.find? fun e => ascii e.1 = name).map Prod.snd

namespace DispatcherImpl

/-- What the dispatcher does about a request. -/
def react (impl : DispatcherImpl) (agents : Agents) (request : DispatchRequest) : Reaction :=
  match entry impl.methods request.method with
  | some method => method.react agents request.domain request.method request.params
  | none => { response := some (.fail (ascii impl.unknown ++ request.method), none) }

/-- `Dispatch`: what is sent, and what is returned. -/
def dispatch (impl : DispatcherImpl) (agents : Agents) (request : DispatchRequest)
    (crossLanguageDebug : Bool) : List Outgoing × Option PtJson :=
  let reaction := impl.react agents request
  let reply := reaction.response.map fun r => r.1.reply request.callId r.2
  if crossLanguageDebug && impl.crossLanguage then
    (reaction.before.map .notification ++ reaction.after.map .notification, reply)
  else
    (reaction.before.map .notification ++ (reply.map .response).toList ++
      reaction.after.map .notification, none)

end DispatcherImpl

/-- `Dispatcher::Dispatch`; without a value, it has aborted the process. -/
def dispatch (build : BuildFeatures) (agents : Agents) (request : DispatchRequest)
    (crossLanguageDebug : Bool) : Option (List Outgoing × Option PtJson) :=
  if request.code ≠ .ok then some ([], none)
  else
    match entry (dispatchers build) request.domain with
    | some impl => some (impl.dispatch agents request crossLanguageDebug)
    | none =>
      if request.domain = ascii "Test" ∧ request.method = ascii "fail" then none
      else some ([], none)

/-- The domain has a dispatcher in this build. -/
def Registered (build : BuildFeatures) (domain : Bytes) : Prop :=
  ∃ e ∈ dispatchers build, ascii e.1 = domain

/-- `Dispatch` sends one response, which has the id. -/
def Responds (build : BuildFeatures) (agents : Agents) (request : DispatchRequest) (id : Int32) :
    Prop :=
  ∃ sent reply, dispatch build agents request false = some (sent, none) ∧
    sent.filter Outgoing.isResponse = [.response reply] ∧
    reply.getInt (ascii "id") = .ok (.success id)

/-- The message is answered by one response, which has the id. -/
def Answered (build : BuildFeatures) (agents : Agents) (json : PtJson) (id : Int32) : Prop :=
  ∃ request, DispatchRequest.create (some json) = .ok request ∧ Responds build agents request id

/-! ### One response -/

def DispatchMethod.isClientDisconnect : DispatchMethod → Bool
  | clientDisconnect => true
  | _ => false

theorem DispatchMethod.response_react {method : DispatchMethod}
    (h : method.isClientDisconnect = false) (agents : Agents) (domain name : Bytes)
    (params : PtJson) : ((method.react agents domain name params).response).isSome = true := by
  cases method with
  | agent readsParams returned | endTracing =>
    rw [react]
    split <;> rfl
  | ok result => rfl
  | clientDisconnect => cases h

theorem clientDisconnect_of_mem (build : BuildFeatures) :
    ∀ e ∈ dispatchers build, ∀ m ∈ e.2.methods, m.2.isClientDisconnect = true →
      e.1 = "Debugger" ∧ m.1 = "clientDisconnect" := by
  rcases build with ⟨cpuProfiler, heapProfiler, tracing⟩
  cases cpuProfiler <;> cases heapProfiler <;> cases tracing <;> decide +kernel

theorem mem_of_entry {α : Type} {table : List (String × α)} {name : Bytes} {a : α}
    (h : entry table name = some a) : ∃ e ∈ table, ascii e.1 = name ∧ e.2 = a := by
  obtain ⟨e, hfind, rfl⟩ := Option.map_eq_some_iff.mp h
  exact ⟨e, List.mem_of_find?_eq_some hfind, by simpa using List.find?_some hfind, rfl⟩

theorem entry_isSome_iff {α : Type} {table : List (String × α)} {name : Bytes} :
    (entry table name).isSome = true ↔ ∃ e ∈ table, ascii e.1 = name := by
  rw [entry, Option.isSome_map, List.find?_isSome]
  simp

variable {request : DispatchRequest} {impl : DispatcherImpl}

theorem response_react {build : BuildFeatures}
    (himpl : entry (dispatchers build) request.domain = some impl)
    (hrequest : ¬ (request.domain = ascii "Debugger" ∧ request.method = ascii "clientDisconnect"))
    (agents : Agents) : ∃ r, (impl.react agents request).response = some r := by
  rw [← Option.isSome_iff_exists, DispatcherImpl.react]
  cases hmethod : entry impl.methods request.method with
  | none => rfl
  | some method =>
    apply DispatchMethod.response_react
    obtain ⟨e, he, hdomain, rfl⟩ := mem_of_entry himpl
    obtain ⟨m, hm, hname, rfl⟩ := mem_of_entry hmethod
    by_contra hdisconnect
    rw [Bool.not_eq_false] at hdisconnect
    obtain ⟨hd, hn⟩ := clientDisconnect_of_mem build e he m hm hdisconnect
    rw [hd] at hdomain
    rw [hn] at hname
    exact hrequest ⟨hdomain.symm, hname.symm⟩

theorem filter_notifications (events : List PtJson) :
    (events.map Outgoing.notification).filter Outgoing.isResponse = [] := by
  rw [List.filter_eq_nil_iff]
  intro out hout
  obtain ⟨event, -, rfl⟩ := List.mem_map.mp hout
  exact Bool.false_ne_true

theorem filter_dispatch {agents : Agents} {r : DispatchResponse × Option PtJson}
    (hresponse : (impl.react agents request).response = some r) :
    (impl.dispatch agents request false).1.filter Outgoing.isResponse =
      [.response (r.1.reply request.callId r.2)] := by
  rw [DispatcherImpl.dispatch, hresponse]
  show List.filter _ (_ ++ [Outgoing.response _] ++ _) = _
  rw [List.filter_append, List.filter_append, filter_notifications, filter_notifications]
  rfl

theorem getInt_reply (response : DispatchResponse) (callId : Int32) (result : Option PtJson) :
    (response.reply callId result).getInt (ascii "id") = .ok (.success callId) := by
  have hkeys : DistinctKeys
      [(ascii "id", some (ofInt callId.toInt)),
        (ascii "result", some (match response.code with
          | .ok => result.getD createObject
          | .nok => response.createErrorReply))] := by
    simp only [DistinctKeys, List.map_cons, List.map_nil]
    decide +kernel
  exact getInt_ofMembers hkeys (v := some callId) (by simp)

theorem not_responds_of_code (hcode : request.code ≠ .ok) (build : BuildFeatures) (agents : Agents)
    (id : Int32) : ¬ Responds build agents request id := by
  rintro ⟨sent, reply, hdispatch, hfilter, -⟩
  rw [dispatch, if_pos hcode] at hdispatch
  cases hdispatch
  cases hfilter

theorem responds_iff (hcode : request.code = .ok)
    (hrequest : ¬ (request.domain = ascii "Debugger" ∧ request.method = ascii "clientDisconnect"))
    (htest : request.domain ≠ ascii "Test") (build : BuildFeatures) (agents : Agents) :
    Responds build agents request request.callId ↔ Registered build request.domain := by
  rw [Registered, ← entry_isSome_iff]
  cases himpl : entry (dispatchers build) request.domain with
  | none =>
    refine iff_of_false ?_ (by simp)
    rintro ⟨sent, reply, hdispatch, hfilter, -⟩
    rw [dispatch, if_neg (not_not_intro hcode), himpl] at hdispatch
    rw [if_neg fun h => htest h.1] at hdispatch
    cases hdispatch
    cases hfilter
  | some impl =>
    refine iff_of_true ?_ rfl
    obtain ⟨r, hr⟩ := response_react himpl hrequest agents
    refine ⟨(impl.dispatch agents request false).1, r.1.reply request.callId r.2, ?_,
      filter_dispatch hr, getInt_reply r.1 request.callId r.2⟩
    rw [dispatch, if_neg (not_not_intro hcode), himpl]
    rfl

/-! ### Requests with an id and a method -/

section Create

variable {json : PtJson} {id : Int32} {domain name : Bytes}
  (hid : json.getInt (ascii "id") = .ok (.success id))
  (hmethod : json.getString (ascii "method") = .success (domain ++ 0x2e :: name))
  (hdomain : domain ≠ []) (hdot : (0x2e : UInt8) ∉ domain) (hname : name ≠ [])

include hmethod in
theorem isObject_of_getString : json.isObject.isNone = false := by
  cases json with
  | object members => rfl
  | _ => cases hmethod

include hid hmethod hdomain hdot hname

theorem create_eq :
    DispatchRequest.create (some json) = .ok
      (match json.getObject (ascii "params") with
        | .notExist => { callId := id, domain, method := name }
        | .typeError => { callId := id, domain, method := name, code := .paramsFormatError }
        | .success params => { callId := id, domain, method := name, params }) := by
  have hwhole : domain ++ 0x2e :: name ≠ [] := by simp
  rw [DispatchRequest.create, isObject_of_getString hmethod, hid, hmethod]
  dsimp only [bind, Except.bind, pure, Except.pure]
  rw [if_neg (by decide), if_neg hwhole, splitMethod_append hdomain hdot hname]
  cases json.getObject (ascii "params") with
  | success params | notExist | typeError => rfl

/-- **Requests are answered** exactly if they have neither of two flaws. -/
theorem request_answered_iff (build : BuildFeatures) (agents : Agents)
    (hrequest : ¬ (domain = ascii "Debugger" ∧ name = ascii "clientDisconnect"))
    (htest : domain ≠ ascii "Test") :
    Answered build agents json id ↔
      json.getObject (ascii "params") ≠ .typeError ∧ Registered build domain := by
  have hcreate := create_eq hid hmethod hdomain hdot hname
  have hanswered : ∀ request, DispatchRequest.create (some json) = .ok request →
      (Answered build agents json id ↔ Responds build agents request id) := by
    intro request hrequest
    constructor
    · rintro ⟨request', hrequest', hresponds⟩
      obtain rfl := Except.ok.inj (hrequest.symm.trans hrequest')
      exact hresponds
    · intro hresponds
      exact ⟨request, hrequest, hresponds⟩
  rw [hanswered _ hcreate]
  cases json.getObject (ascii "params") with
  | typeError =>
    refine iff_of_false (not_responds_of_code (by simp) build agents id) ?_
    exact fun h => h.1 rfl
  | notExist | success params =>
    rw [and_iff_right (by simp)]
    exact responds_iff rfl hrequest htest build agents

end Create

/-! ### Three requests -/

/-- Agents that accept everything and do nothing. -/
def idleAgents : Agents where
  accepts _ _ _ := true
  call _ _ _ := { response := {} }
  endTracing := none

def allFeatures : BuildFeatures := { cpuProfiler := true, heapProfiler := true, tracing := true }

def sampleRequest (method : String) (params : Option PtJson) : PtJson :=
  ofMembers
    [(ascii "id", some (ofInt 7)), (ascii "method", some (ofString (ascii method))),
      (ascii "params", params)]

/-- A request with parameters is answered. -/
theorem resume_answered :
    Answered allFeatures idleAgents (sampleRequest "Debugger.resume" (some createObject)) 7 := by
  have hkeys : DistinctKeys
      [(ascii "id", some (ofInt 7)), (ascii "method", some (ofString (ascii "Debugger.resume"))),
        (ascii "params", some createObject)] := by
    simp only [DistinctKeys, List.map_cons, List.map_nil]
    decide +kernel
  have hid : (sampleRequest "Debugger.resume" (some createObject)).getInt (ascii "id") =
      .ok (.success 7) :=
    getInt_ofMembers hkeys (v := some 7) (by simp)
  have hmethod : (sampleRequest "Debugger.resume" (some createObject)).getString
      (ascii "method") = .success (ascii "Debugger" ++ 0x2e :: ascii "resume") :=
    getString_ofMembers hkeys (v := some (ascii "Debugger.resume")) (by simp)
  have hparams : (sampleRequest "Debugger.resume" (some createObject)).getObject
      (ascii "params") = .success createObject :=
    getObject_ofMembers hkeys (fun _ => []) (fun _ => List.nodup_nil) (v := some ())
      (by simp [createObject, ofMembers])
  refine (request_answered_iff hid hmethod (by decide) (by decide +kernel) (by decide)
    allFeatures idleAgents (by decide +kernel) (by decide +kernel)).mpr ⟨?_, ?_⟩
  · rw [hparams]
    simp
  · exact ⟨("Debugger", debuggerDispatcher), by simp [dispatchers], rfl⟩

/-- **A request for a domain without a dispatcher**, and one with `null` for its
parameters, get no response. -/
theorem requests_not_answered :
    ((DispatchRequest.create (some (sampleRequest "Network.enable" none))).toOption.bind
        fun request => dispatch allFeatures idleAgents request false).map
          (fun r => r.1.length) = some 0 ∧
      ((DispatchRequest.create (some (sampleRequest "Debugger.resume" (some .null)))).toOption.bind
        fun request => dispatch allFeatures idleAgents request false).map
          (fun r => r.1.length) = some 0 := by
  decide +kernel

end Dispatcher

end ArkToolchain
