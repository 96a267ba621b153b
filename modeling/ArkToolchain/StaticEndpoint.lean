/-
Requests to the static debugger, and the responses to them (`endpoint_base.cpp`,
`endpoint_base.h` and `OnCallImpl` of `server_endpoint_base.cpp`).

A registered method is handled by the wrapper of `OnCallImpl`, which replies with the id and the
session of the request.  A method that is not registered is answered by an error that has the
id, but not the session.

Main result: `static_request_answered_iff`.
-/
import ArkToolchain.Bytes
import ArkToolchain.Http

namespace ArkToolchain

/-! ### JSON -/

/-- What `JsonObject` reads, and `JsonObjectBuilder` writes: the JSON of libarkbase, of which it
is assumed that numbers are read and written without loss. -/
inductive JsonValue
  | null
  | bool (b : Bool)
  | num (x : Rat)
  | string (s : Bytes)
  | array (values : List JsonValue)
  | object (members : List (Bytes × JsonValue))

abbrev JsonObject := List (Bytes × JsonValue)

namespace JsonObject

variable (object : JsonObject) (key : String)

def getValue : Option JsonValue :=
  (object.find? fun member => member.1 = ascii key).map Prod.snd

/-- `GetValue<StringT>`. -/
def getString : Option Bytes :=
  match object.getValue key with
  | some (.string s) => some s
  | _ => none

/-- `GetValue<NumT>`. -/
def getNum : Option Rat :=
  match object.getValue key with
  | some (.num x) => some x
  | _ => none

/-- `GetValue<JsonObjPointer>`. -/
def getObject : Option JsonObject :=
  match object.getValue key with
  | some (.object members) => some members
  | _ => none

variable {key name : String} {value : JsonValue} {rest : JsonObject}

@[simp] theorem getValue_nil : getValue [] key = none := rfl

@[simp] theorem getValue_cons_self : getValue ((ascii key, value) :: rest) key = some value := by
  rw [getValue, List.find?_cons_of_pos (by simp)]
  rfl

theorem getValue_cons_of_ne (h : ascii name ≠ ascii key) :
    getValue ((ascii name, value) :: rest) key = getValue rest key := by
  rw [getValue, List.find?_cons_of_neg (by simpa using h)]
  rfl

end JsonObject

namespace StaticEndpoint

/-! ### Messages -/

inductive ErrorCode
  | parseError
  | internalError
  | invalidParams
  | methodNotFound
  | invalidRequest
  | sessionNotFound
  | serverError
  deriving DecidableEq

variable (sessionId : Bytes)

def ErrorCode.value : ErrorCode → Int
  | parseError => -32700
  | internalError => -32603
  | invalidParams => -32602
  | methodNotFound => -32601
  | invalidRequest => -32600
  | sessionNotFound => -32001
  | serverError => -32000

structure JRPCError where
  message : Bytes
  code : ErrorCode := .invalidRequest

/-- `Serialize`. -/
def JRPCError.serialize (error : JRPCError) : JsonObject :=
  [(ascii "code", .num error.code.value), (ascii "message", .string error.message)]

/-- The last member of a message, for a session that has an id. -/
def sessionMember : JsonObject :=
  if sessionId = [] then [] else [(ascii "sessionId", .string sessionId)]

/-- The message of `EndpointBase::Call`. -/
def call (id : Option Rat) (method : Bytes) (params : JsonObject) : JsonObject :=
  (id.map fun id => (ascii "id", JsonValue.num id)).toList ++
    [(ascii "method", .string method), (ascii "params", .object params)] ++
    sessionMember sessionId

/-- The message of `Reply`. -/
def reply (id : Rat) (result : JsonObject) : JsonObject :=
  [(ascii "id", .num id), (ascii "result", .object result)] ++ sessionMember sessionId

/-- The message of `ReplyError`. -/
def replyError (id : Rat) (error : JRPCError) : JsonObject :=
  [(ascii "id", .num id), (ascii "error", .object error.serialize)] ++ sessionMember sessionId

/-- The message of `HandleUnsupportedMethod`. -/
def handleUnsupportedMethod (optId : Option Rat) (method : Bytes) : JsonObject :=
  (optId.map fun id => (ascii "id", JsonValue.num id)).toList ++
    [(ascii "error", .object (JRPCError.serialize
      { message := ascii "Unsupported method: " ++ method, code := .methodNotFound }))]

/-! ### Handlers -/

structure Event where
  sessionId : Bytes
  method : Bytes
  params : JsonObject

/-- What a handler does: the events that it raises, and what it returns. -/
structure HandlerRun where
  events : List Event := []
  response : Except JRPCError (Option JsonObject)

abbrev Handler := Bytes → JsonObject → HandlerRun

/-- A method handler of the endpoint, with the messages that it sends. -/
abbrev MethodHandler := Bytes → Option Rat → JsonObject → List JsonObject

def HandlerRun.eventMessages (run : HandlerRun) : List JsonObject :=
  run.events.map fun e => call e.sessionId none e.method e.params

def HandlerRun.responseMessage (run : HandlerRun) (sessionId : Bytes) (id : Rat) : JsonObject :=
  match run.response with
  | .ok (some result) => reply sessionId id result
  | .ok none => reply sessionId id []
  | .error error => replyError sessionId id error

/-- The lambda of `OnCallImpl`. -/
def wrap (handler : Handler) : MethodHandler
  | _, none, _ => []
  | sessionId, some id, params =>
    let run := handler sessionId params
    run.eventMessages ++ [run.responseMessage sessionId id]

structure EndpointBase where
  methodHandlers : Bytes → Option MethodHandler := fun _ => none
  resultHandlers : Rat → Option (JsonObject → List JsonObject) := fun _ => none

open EndpointBase

namespace EndpointBase

/-- `EndpointBase::OnCall`. -/
def onCall (endpoint : EndpointBase) (method : Bytes) (handler : MethodHandler) : EndpointBase :=
  { endpoint with
    methodHandlers := fun m => if m = method then some handler else endpoint.methodHandlers m }

/-- `OnCallImpl`. -/
def onCallImpl (endpoint : EndpointBase) (method : Bytes) (handler : Handler) : EndpointBase :=
  endpoint.onCall method (wrap handler)

/-- `HandleMessage`, for a text that is no JSON object or is one. -/
def handleMessage (endpoint : EndpointBase) : Option JsonObject → EndpointBase × List JsonObject
  | none => (endpoint, [])
  | some request =>
    match request.getString "method", request.getObject "result" with
    | some method, none =>
      let optId := request.getNum "id"
      match endpoint.methodHandlers method with
      | some handler =>
        (endpoint, handler ((request.getString "sessionId").getD []) optId
          ((request.getObject "params").getD []))
      | none => (endpoint, [handleUnsupportedMethod optId method])
    | none, some result =>
      match request.getNum "id" with
      | none => (endpoint, [])
      | some id =>
        match endpoint.resultHandlers id with
        | none => (endpoint, [])
        | some handler =>
          ({ endpoint with
              resultHandlers := fun i =>
                if i = id then none else endpoint.resultHandlers i },
            handler result)
    | _, _ => (endpoint, [])

/-- An endpoint after its handlers have been registered. -/
def ofHandlers (handlers : List (Bytes × Handler)) : EndpointBase :=
  handlers.foldl (fun endpoint h => endpoint.onCallImpl h.1 h.2) {}

end EndpointBase

/-! ### Responses -/

def isResponse (message : JsonObject) : Bool :=
  (message.getValue "result").isSome || (message.getValue "error").isSome

/-- The response is for the request with the id, in the session. -/
structure AnswersTo (response : JsonObject) (sessionId : Bytes) (id : Rat) : Prop where
  id : response.getNum "id" = some id
  session : sessionId ≠ [] → response.getString "sessionId" = some sessionId

/-- The request has one response, which is for it. -/
def Answered (endpoint : EndpointBase) (request : JsonObject) (sessionId : Bytes) (id : Rat) :
    Prop :=
  ∃ response, (endpoint.handleMessage (some request)).2.filter isResponse = [response] ∧
    AnswersTo response sessionId id

open JsonObject

variable (sessionId : Bytes)

theorem isResponse_call (id : Option Rat) (method : Bytes) (params : JsonObject) :
    isResponse (call sessionId id method params) = false := by
  rw [isResponse, call, sessionMember]
  cases id <;> split <;>
    simp (disch := decide +kernel) only [Option.map_none, Option.map_some, Option.toList_none,
      Option.toList_some, List.nil_append, List.cons_append, List.append_nil, getValue_nil,
      getValue_cons_of_ne, Option.isSome_none, Bool.or_self]

section Reply

variable {sessionId : Bytes} {id : Rat} {kind : String} {value : JsonValue}

/-- `Reply` and `ReplyError`: the id, one member, the session. -/
theorem isResponse_reply (hkind : kind = "result" ∨ kind = "error") :
    isResponse ([(ascii "id", .num id), (ascii kind, value)] ++ sessionMember sessionId) =
      true := by
  rcases hkind with rfl | rfl <;>
    simp (disch := decide +kernel) [isResponse, getValue_cons_of_ne]

theorem answersTo_reply (hkind : kind = "result" ∨ kind = "error") :
    AnswersTo ([(ascii "id", .num id), (ascii kind, value)] ++ sessionMember sessionId)
      sessionId id where
  id := by
    rw [List.cons_append, getNum, getValue_cons_self]
  session hsession := by
    rw [sessionMember, if_neg hsession]
    rcases hkind with rfl | rfl <;>
      simp (disch := decide +kernel) only [List.cons_append, List.nil_append, getString,
        getValue_cons_of_ne, getValue_cons_self]

end Reply

theorem answers_responseMessage (run : HandlerRun) (sessionId : Bytes) (id : Rat) :
    isResponse (run.responseMessage sessionId id) = true ∧
      AnswersTo (run.responseMessage sessionId id) sessionId id := by
  rw [HandlerRun.responseMessage]
  rcases run.response with error | - | result
  · exact ⟨isResponse_reply (.inr rfl), answersTo_reply (.inr rfl)⟩
  all_goals
    exact ⟨isResponse_reply (.inl rfl), answersTo_reply (.inl rfl)⟩

theorem filter_wrap (handler : Handler) (sessionId : Bytes) (id : Rat) (params : JsonObject) :
    (wrap handler sessionId (some id) params).filter isResponse =
      [(handler sessionId params).responseMessage sessionId id] := by
  have hevents : ((handler sessionId params).eventMessages).filter isResponse = [] := by
    rw [List.filter_eq_nil_iff]
    intro message hmessage
    obtain ⟨event, -, rfl⟩ := List.mem_map.mp hmessage
    rw [isResponse_call]
    exact Bool.false_ne_true
  rw [wrap, List.filter_append, hevents, List.nil_append,
    List.filter_cons_of_pos (answers_responseMessage _ sessionId id).1, List.filter_nil]

theorem answers_handleUnsupportedMethod (id : Rat) (method : Bytes) :
    isResponse (handleUnsupportedMethod (some id) method) = true ∧
      (AnswersTo (handleUnsupportedMethod (some id) method) sessionId id ↔ sessionId = []) := by
  have hsession : (handleUnsupportedMethod (some id) method).getString "sessionId" = none := by
    simp (disch := decide +kernel) [handleUnsupportedMethod, getString, getValue_cons_of_ne]
  refine ⟨?_, ?_, ?_⟩
  · simp (disch := decide +kernel) [handleUnsupportedMethod, isResponse, getValue_cons_of_ne]
  · intro h
    by_contra hne
    have hgot := h.session hne
    rw [hsession] at hgot
    cases hgot
  · intro h
    refine ⟨?_, fun hne => absurd h hne⟩
    simp [handleUnsupportedMethod, getNum]

/-! ### The table of handlers -/

variable (handlers : List (Bytes × Handler))

theorem methodHandlers_ofHandlers (method : Bytes) :
    (method ∈ handlers.map Prod.fst ∧
      ∃ handler, (ofHandlers handlers).methodHandlers method =
        some (wrap handler)) ∨
    (method ∉ handlers.map Prod.fst ∧ (ofHandlers handlers).methodHandlers method = none) := by
  -- the registration that counts is the last one
  induction handlers using List.reverseRecOn with
  | nil => exact .inr ⟨List.not_mem_nil, rfl⟩
  | append_singleton handlers h ih =>
    have hlast : (ofHandlers (handlers ++ [h])).methodHandlers method =
        if method = h.1 then some (wrap h.2)
        else (ofHandlers handlers).methodHandlers method := by
      rw [ofHandlers, List.foldl_append]
      rfl
    rw [hlast, List.map_append, List.mem_append]
    by_cases hmethod : method = h.1
    · rw [if_pos hmethod]
      exact .inl ⟨.inr (List.mem_singleton.mpr hmethod), h.2, rfl⟩
    · rw [if_neg hmethod]
      rcases ih with ⟨hmem, hsome⟩ | ⟨hmem, hnone⟩
      · exact .inl ⟨.inl hmem, hsome⟩
      · refine .inr ⟨?_, hnone⟩
        rintro (hin | hin)
        · exact hmem hin
        · exact hmethod (List.mem_singleton.mp hin)

theorem resultHandlers_ofHandlers (id : Rat) : (ofHandlers handlers).resultHandlers id = none := by
  induction handlers using List.reverseRecOn with
  | nil => rfl
  | append_singleton handlers h ih =>
    rw [ofHandlers, List.foldl_append]
    exact ih

/-! ### Requests -/

theorem getNum_of_isResponse {handlers : List (Bytes × Handler)} {request message : JsonObject}
    (hmem : message ∈ ((ofHandlers handlers).handleMessage (some request)).2)
    (hresponse : isResponse message = true) : message.getNum "id" = request.getNum "id" := by
  rw [handleMessage] at hmem
  rcases hmethod : request.getString "method" with - | method <;>
    rcases hresult : request.getObject "result" with - | result <;>
    rw [hmethod, hresult] at hmem
  · cases hmem
  · dsimp only at hmem
    rcases hid : request.getNum "id" with - | id <;> rw [hid] at hmem
    · cases hmem
    · dsimp only at hmem
      rw [resultHandlers_ofHandlers] at hmem
      cases hmem
  · dsimp only at hmem
    rcases methodHandlers_ofHandlers handlers method with ⟨-, handler, hhandler⟩ | ⟨-, hnone⟩
    · rw [hhandler] at hmem
      rcases hid : request.getNum "id" with - | id <;> rw [hid] at hmem
      · cases hmem
      · have hfilter := List.mem_filter.mpr ⟨hmem, hresponse⟩
        rw [filter_wrap] at hfilter
        obtain rfl := List.mem_singleton.mp hfilter
        exact (answers_responseMessage _ _ _).2.id
    · rw [hnone] at hmem
      obtain rfl := List.mem_singleton.mp hmem
      rcases request.getNum "id" with - | id
      · simp (disch := decide +kernel) [handleUnsupportedMethod, getNum, getValue_cons_of_ne]
      · simp [handleUnsupportedMethod, getNum]
  · cases hmem

/-- **Requests are answered** in their session exactly if the method is registered or there
is no session. -/
theorem static_request_answered_iff (handlers : List (Bytes × Handler)) {request : JsonObject}
    {id : Rat} {method : Bytes} (hid : request.getNum "id" = some id)
    (hmethod : request.getString "method" = some method)
    (hresult : request.getObject "result" = none) :
    Answered (ofHandlers handlers) request
        ((request.getString "sessionId").getD []) id ↔
      method ∈ handlers.map Prod.fst ∨ (request.getString "sessionId").getD [] = [] := by
  rw [Answered, handleMessage, hmethod, hresult, hid]
  dsimp only
  rcases methodHandlers_ofHandlers handlers method with ⟨hmem, handler, hhandler⟩ | ⟨hmem, hnone⟩
  · rw [hhandler]
    dsimp only
    rw [filter_wrap]
    exact iff_of_true ⟨_, rfl, (answers_responseMessage _ _ _).2⟩ (.inl hmem)
  · obtain ⟨hresponse, hanswers⟩ :=
      answers_handleUnsupportedMethod ((request.getString "sessionId").getD []) id method
    rw [hnone]
    dsimp only
    rw [List.filter_cons_of_pos hresponse, List.filter_nil, or_iff_right hmem, ← hanswers]
    constructor
    · rintro ⟨response, hone, h⟩
      obtain rfl := List.singleton_inj.mp hone
      exact h
    · intro h
      exact ⟨_, rfl, h⟩

/-! ### Two requests -/

/-- A handler that finds its session but has nothing to return. -/
def sampleHandlers : List (Bytes × Handler) :=
  [(ascii "Debugger.pause", fun _ _ => { response := .ok none })]

def sampleRequest (method : String) : JsonObject :=
  [(ascii "id", .num 3), (ascii "method", .string (ascii method)),
    (ascii "sessionId", .string (ascii "42"))]

/-- A registered method is answered. -/
theorem pause_answered :
    Answered (ofHandlers sampleHandlers) (sampleRequest "Debugger.pause")
      (ascii "42") 3 := by
  have hid : (sampleRequest "Debugger.pause").getNum "id" = some 3 := rfl
  have hregistered : ascii "Debugger.pause" ∈ sampleHandlers.map Prod.fst := by decide +kernel
  exact (static_request_answered_iff sampleHandlers hid rfl rfl).mpr (.inl hregistered)

/-- **A request for a method that is not registered** names a session, its response does
not. -/
theorem unsupported_not_answered :
    (sampleRequest "Debugger.freeze").getString "sessionId" = some (ascii "42") ∧
      (((ofHandlers sampleHandlers).handleMessage
          (some (sampleRequest "Debugger.freeze"))).2.map
        fun message => (message.getNum "id", message.getString "sessionId")) =
          [(some 3, none)] := by
  decide +kernel

end StaticEndpoint

end ArkToolchain
