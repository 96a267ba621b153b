/-
Messages of the IDE to an application (inspector/connect_inspector.cpp).

`OnMessage` looks for the words of its commands in the whole text.  A request of the user
interface, which is known by the domain of its method, ends it early, but only after
`OnConnectedMessage` has looked for `connected` and `disconnect`.

Main result: `ui_message_iff`.
-/
import ArkToolchain.PtJson

namespace ArkToolchain

/-- A callback that is invoked, or a message that is sent. -/
inductive InspectorCall where
  | setConnectCallBack (connected : Bool)
  | arkUICallback (message : Bytes)
  | wMSCallback (message : Bytes)
  | cangjieCallback (message : Bytes)
  | setArkUIStateProfilerStatus (status : Bool)
  | createLayoutInfo (instanceId : Int32)
  | setDebugMode
  | startRecord
  | stopRecord
  | sendMessage (message : Bytes)
  deriving DecidableEq

/-- The inspector with its connect server.  A callback may be null. -/
structure ConnectInspector where
  setConnectCallBack : Bool := true
  arkUICallback : Bool := true
  wMSCallback : Bool := true
  cangjieCallback : Bool := true
  setArkUIStateProfilerStatus : Bool := true
  createLayoutInfo : Bool := true
  setDebugMode : Bool := true
  startRecord : Bool := true
  stopRecord : Bool := true
  instanceId : Int32 := -1
  waitingForDebugger : Bool := true
  isRecording : Bool := false
  infoBuffer : List (Int32 × Bytes) := []
  /-- what has been called and sent -/
  calls : List InspectorCall := []
  deriving DecidableEq

namespace ConnectInspector

/-- A callback is invoked unless it is null. -/
def invoke (s : ConnectInspector) (isSet : Bool) (call : InspectorCall) : ConnectInspector :=
  { s with calls := s.calls ++ if isSet then [call] else [] }

variable (message : Bytes) (s : ConnectInspector)

def has (word : String) : Bool := (find (ascii word) message 0).isSome

def onConnectedMessage : ConnectInspector :=
  let s :=
    if has message "connected" then
      let s := { s with waitingForDebugger := false }
      let s := s.invoke s.setConnectCallBack (.setConnectCallBack true)
      { s with calls := s.calls ++ s.infoBuffer.map fun info => .sendMessage info.2 }
    else s
  if has message "disconnect" then s.invoke s.setConnectCallBack (.setConnectCallBack false) else s

def onInspectorRecordMessage : ConnectInspector :=
  let s :=
    if has message "rsNodeStartRecord" && s.startRecord && !s.isRecording then
      { s.invoke true .startRecord with isRecording := true }
    else s
  if has message "rsNodeStopRecord" && s.stopRecord && s.isRecording then
    { s.invoke true .stopRecord with isRecording := false }
  else s

/-- `GetDomain` of a `ConnectRequest` that is valid; `json` is what `Parse` makes of the
message. -/
def requestDomain (json : Option PtJson) : Option Bytes := do
  let json ← json
  let object ← json.isObject
  match object.getString (ascii "method") with
  | .success wholeMethod => (splitMethod wholeMethod).map Prod.fst
  | _ => none

/-- The state after the message, if the function returns true. -/
def onArkUIInspectorMessage (message : Bytes) (json : Option PtJson) (s : ConnectInspector) :
    Option ConnectInspector := do
  let domain ← requestDomain json
  if domain = ascii "ArkUI" then some (s.invoke s.arkUICallback (.arkUICallback (cStr message)))
  else if domain = ascii "WMS" then some (s.invoke s.wMSCallback (.wMSCallback (cStr message)))
  else none

def onCangjieInspectorMessage : Option ConnectInspector :=
  if has message "cangjie profiler" then
    some (s.invoke s.cangjieCallback (.cangjieCallback message))
  else none

/-- The rest of `OnMessage`. -/
def onCommand : ConnectInspector :=
  let s :=
    if has message "ArkUIStateProfilerOpen" then
      s.invoke s.setArkUIStateProfilerStatus (.setArkUIStateProfilerStatus true)
    else s
  let s :=
    if has message "ArkUIStateProfilerClose" then
      s.invoke s.setArkUIStateProfilerStatus (.setArkUIStateProfilerStatus false)
    else s
  let s :=
    if has message "tree" then s.invoke s.createLayoutInfo (.createLayoutInfo s.instanceId) else s
  let s :=
    if has message "stopDebugger" then
      let s := { s with waitingForDebugger := true }.invoke s.setDebugMode .setDebugMode
      s.invoke s.setConnectCallBack (.setConnectCallBack false)
    else s
  s.onInspectorRecordMessage message

/-- `OnMessage` of an inspector with a connect server, which it gets its messages from. -/
def onMessage (message : Bytes) (json : Option PtJson) (s : ConnectInspector) : ConnectInspector :=
  if message = [] then s
  else
    let s := s.onConnectedMessage message
    match s.onArkUIInspectorMessage message json with
    | some s => s
    | none =>
      match s.onCangjieInspectorMessage message with
      | some s => s
      | none => s.onCommand message

/-! ### Requests of the user interface -/

inductive UiDomain where
  | arkUI
  | wMS

namespace UiDomain

def name : UiDomain → Bytes
  | arkUI => ascii "ArkUI"
  | wMS => ascii "WMS"

/-- The callback of the domain, with the message, unless it is null. -/
def calls (s : ConnectInspector) (message : Bytes) : UiDomain → List InspectorCall
  | arkUI => if s.arkUICallback then [.arkUICallback message] else []
  | wMS => if s.wMSCallback then [.wMSCallback message] else []

end UiDomain

variable {message : Bytes} {json : Option PtJson} {s : ConnectInspector} {domain : UiDomain}

/-- What `OnConnectedMessage` calls and sends. -/
def connectionCalls (message : Bytes) (s : ConnectInspector) : List InspectorCall :=
  (if has message "connected" then
    (if s.setConnectCallBack then [.setConnectCallBack true] else []) ++
      s.infoBuffer.map fun info => .sendMessage info.2
  else []) ++
  if has message "disconnect" && s.setConnectCallBack then [.setConnectCallBack false] else []

theorem onConnectedMessage_eq :
    s.onConnectedMessage message =
      { s with
        waitingForDebugger := s.waitingForDebugger && !has message "connected"
        calls := s.calls ++ connectionCalls message s } := by
  unfold onConnectedMessage connectionCalls invoke
  rcases has message "connected" <;> rcases has message "disconnect" <;> simp

/-- **Requests of the user interface** reach the callback of their domain, and nothing else
happens, exactly if no word in them is taken for a message about the connection. -/
theorem ui_message_iff (hmessage : message ≠ []) (hnul : (0 : UInt8) ∉ message)
    (hdomain : requestDomain json = some domain.name) :
    s.onMessage message json = { s with calls := s.calls ++ domain.calls s message } ↔
      (has message "connected" = true →
        s.waitingForDebugger = false ∧ s.setConnectCallBack = false ∧ s.infoBuffer = []) ∧
      (has message "disconnect" = true → s.setConnectCallBack = false) := by
  have honMessage : s.onMessage message json =
      { s with
        waitingForDebugger := s.waitingForDebugger && !has message "connected"
        calls := s.calls ++ (connectionCalls message s ++ domain.calls s message) } := by
    rw [onMessage, if_neg hmessage, onConnectedMessage_eq, ← List.append_assoc]
    unfold onArkUIInspectorMessage
    rw [hdomain, cStr_eq_self_iff.mpr hnul]
    cases domain with
    | arkUI => rfl
    | wMS => rfl
  have hcalls : connectionCalls message s = [] ↔
      (has message "connected" = true → s.setConnectCallBack = false ∧ s.infoBuffer = []) ∧
        (has message "disconnect" = true → s.setConnectCallBack = false) := by
    unfold connectionCalls
    rcases has message "connected" <;> simp [and_assoc]
  rw [honMessage, ConnectInspector.mk.injEq]
  simp only [true_and, List.append_cancel_left_eq, List.append_left_eq_self, hcalls]
  rcases has message "connected" <;> simp [and_assoc]

/-- A layout request with a text in its parameters. -/
def textRequest (text : String) : Bytes × Option PtJson :=
  (ascii ("\x7b\"method\":\"ArkUI.tree\",\"params\":\x7b\"text\":\"" ++ text ++ "\"\x7d\x7d"),
    some (.object [(ascii "method", .string (ascii "ArkUI.tree")),
      (ascii "params", .object [(ascii "text", .string (ascii text))])]))

theorem ui_message_plain :
    onMessage (textRequest "a").1 (textRequest "a").2 {}
      = { calls := [.arkUICallback (textRequest "a").1] } :=
  (@ui_message_iff _ _ {} .arkUI (by decide) (by decide +kernel) (by decide)).mpr
    (by decide +kernel)

/-- A text `connected` in the parameters is taken for a connection. -/
theorem ui_message_connected :
    requestDomain (textRequest "connected").2 = some UiDomain.arkUI.name ∧
      onMessage (textRequest "connected").1 (textRequest "connected").2 {}
        = { waitingForDebugger := false
            calls := [.setConnectCallBack true, .arkUICallback (textRequest "connected").1] } ∧
      onMessage (textRequest "connected").1 (textRequest "connected").2 {}
        ≠ { calls := [.arkUICallback (textRequest "connected").1] } := by
  decide +kernel

end ConnectInspector

end ArkToolchain
