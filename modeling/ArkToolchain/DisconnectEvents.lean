/-
What the handler of `WsServer` hears of a connection (`ContinueRunserver`, `SendReply` and
`NotifyDisconnectEvent` of `ws_server.cpp`).

The end of a connection reaches the server thread as a message: `Decode` returns the text
`disconnect` if it fails, and then the handler gets `Debugger.clientDisconnect`.  A client can
send that text, too; an end at which `Decode` does not fail is not notified at all; and a reply
that fails is a notification of its own.

`Decode` is taken as `streamStep`, which is what it does to the stream (`decode_follows`).  A
round of the loop has four steps: the test, the look at the state, the bytes, the message.  So
the place of the loop in the stream is known from the number of its steps, and with it when a
`Close` comes too early and a reply too late (`disconnect_notified`).
-/
import ArkToolchain.StreamDecode
import ArkToolchain.Traces

namespace ArkToolchain

namespace WsServer

open Connection (decodeDisconnectMsg)

/-! ### One connection -/

/-- What the handler gets. -/
inductive Delivered
  | message (text : Bytes)
  | clientDisconnect
  deriving DecidableEq

/-- Where the server thread is in its loop. -/
inductive LoopPc
  /-- before `IsConnected` -/
  | testing
  /-- before `Decode` looks at the state -/
  | decoding
  /-- before `Decode` receives something -/
  | receiving
  /-- after `Decode`, which has failed or not -/
  | decoded (message : Bytes) (failed : Bool)
  | left
  /-- `Decode` has thrown -/
  | thrown
  deriving DecidableEq

/-- The server thread, and what it shares with the others. -/
structure Serving where
  pc : LoopPc := .testing
  /-- the state is `OPEN` -/
  connected : Bool := true
  /-- the bytes that still arrive -/
  incoming : Bytes
  /-- the calls of `wsOnMessage_` -/
  delivered : List Delivered := []

open Serving

namespace Serving

def notifyDisconnectEvent (s : Serving) : Serving :=
  { s with delivered := s.delivered ++ [.clientDisconnect] }

/-- The loop body after `Decode`. -/
def handle (s : Serving) (message : Bytes) : Serving :=
  if message ≠ [] ∧ message = decodeDisconnectMsg then s.notifyDisconnectEvent
  else if message ≠ [] then { s with delivered := s.delivered ++ [.message message] }
  else s

/-- A step of `ContinueRunserver`. -/
def serve (s : Serving) : Serving :=
  match s.pc with
  | .testing => { s with pc := if s.connected then .decoding else .left }
  | .decoding => { s with pc := if s.connected then .receiving else .decoded [] false }
  | .receiving =>
    match streamStep .server s.incoming with
    | .message message rest => { s with incoming := rest, pc := .decoded message false }
    -- a CLOSE frame has no status here; with a status `Decode` has failed
    | .closed status message =>
      { s with connected := false, pc := .decoded message (status ≠ .noStatusCode) }
    | .lengthError => { s with pc := .thrown }
  | .decoded message _ => { s.handle message with pc := .testing }
  | .left => s
  | .thrown => s

end Serving

/-- A step of the server thread, `Close` of the server, or `SendReply`. -/
inductive ServingEvent
  | serve
  | close
  | sendReply (sends : Bool)
  deriving DecidableEq

/-- `Close` leaves the bytes as they are: they are those that arrive in spite of it. -/
def step (s : Serving) : ServingEvent → Serving
  | .serve => s.serve
  | .close => { s with connected := false }
  | .sendReply sends => if s.connected && sends then s else s.notifyDisconnectEvent

/-! ### What is wanted -/

/-- `Decode` returns these messages and then fails: the stream ends, or breaks the protocol. -/
inductive Fails : Bytes → List Bytes → Prop
  | now {bytes text : Bytes} {status : CloseStatusCode}
      (h : streamStep .server bytes = .closed status text) (hstatus : status ≠ .noStatusCode) :
      Fails bytes []
  | later {bytes message rest : Bytes} {messages : List Bytes}
      (h : streamStep .server bytes = .message message rest) (hrest : Fails rest messages) :
      Fails bytes (message :: messages)

/-- What the handler has to get for these results of `Decode`. -/
def heard (messages : List Bytes) : List Delivered :=
  (messages.filter (· ≠ [])).map .message

/-- What an event needs, by the events before it, if `Decode` fails after `n` messages: `Close`
comes when `Decode` waits for the bytes on which it fails, or later, and no reply fails. -/
def Fits (n : Nat) (before : List ServingEvent) : ServingEvent → Prop
  | .serve => True
  | .close => 4 * n + 2 ≤ before.count .serve
  | .sendReply sends => sends = true ∧ .close ∉ before ∧ before.count .serve ≤ 4 * n + 2

instance (n : Nat) (before : List ServingEvent) : ∀ e, Decidable (Fits n before e)
  | .serve => isTrue trivial
  | .close => inferInstanceAs (Decidable (_ ≤ _))
  | .sendReply _ => inferInstanceAs (Decidable (_ ∧ _))

/-- All events fit those before them. -/
def Undisturbed (n : Nat) (events : List ServingEvent) : Prop :=
  Admits (fun before e => before ++ [e]) (Fits n) [] events

instance (n : Nat) (events : List ServingEvent) : Decidable (Undisturbed n events) :=
  inferInstanceAs (Decidable (Admits ..))

/-! ### `Decode` -/

theorem closed_streamStep {ep : Endpoint} {bytes message : Bytes} {status : CloseStatusCode}
    (h : streamStep ep bytes = .closed status message) :
    status = .noStatusCode ∧ message = []
      ∨ status ≠ .noStatusCode ∧ message = decodeDisconnectMsg := by
  have hpayload : ∀ {len : Nat} {bytes : Bytes},
      streamPayload ep len bytes = .closed status message →
        status ≠ .noStatusCode ∧ message = decodeDisconnectMsg := by
    intro len bytes
    fun_cases streamPayload ep len bytes
    all_goals
      rintro ⟨⟩
      try exact ⟨by decide, rfl⟩
  revert h
  fun_cases streamStep ep bytes
  case case2 =>
    fun_cases streamRead
    · rintro ⟨⟩
      exact .inr ⟨by decide, rfl⟩
    · exact fun h => .inr (hpayload h)
  case case3 =>
    rintro ⟨⟩
    exact .inl ⟨rfl, rfl⟩
  all_goals
    rintro ⟨⟩
    try exact .inr ⟨by decide, rfl⟩

/-- **The loop follows `Decode`**: on an open connection two steps of the server thread do
what one call of `Decode` does. -/
theorem decode_follows (c : Connection) (s : Serving) (hpc : s.pc = .decoding)
    (hconnected : s.connected = true) (ho : c.connectionState = .opened)
    (hbytes : s.incoming = c.bytes) : match c.decode .server with
    | .ok (message, c') =>
      (∃ failed, s.serve.serve.pc = .decoded message failed)
        ∧ (s.serve.serve.connected = true ↔ c'.connectionState = .opened)
        ∧ (c'.connectionState = .opened → s.serve.serve.incoming = c'.bytes)
    | .error _ => s.serve.serve.pc = .thrown := by
  have hagrees := Connection.decode_refines .server c ho
  have hserve : s.serve = { s with pc := .receiving } := by
    simp only [Serving.serve, hpc, hconnected, if_true]
  rw [hserve, Serving.serve, hbytes]
  cases hstep : streamStep .server c.bytes with
  | message m rest =>
    rw [hstep] at hagrees
    obtain ⟨c', hdecode, hopened, hrest⟩ := hagrees
    rw [hdecode]
    exact ⟨⟨false, rfl⟩, iff_of_true hconnected hopened, fun _ => hrest.symm⟩
  | closed status m =>
    rw [hstep] at hagrees
    obtain ⟨c', hdecode, hclosed⟩ := hagrees
    rw [hdecode]
    exact ⟨⟨_, rfl⟩, by simp [hclosed], by simp [hclosed]⟩
  | lengthError =>
    rw [hstep] at hagrees
    have hdecode : c.decode .server = .error .lengthError := hagrees
    rw [hdecode]

theorem decode_follows_text :
    let s : Serving := { pc := .decoding, incoming := [0x81, 0x81, 0, 0, 0, 0, 0x78] }
    ∃ failed, s.serve.serve.pc = .decoded [0x78] failed :=
  (decode_follows ⟨.opened, [[0x81, 0x81, 0, 0, 0, 0, 0x78]], 0, [], [], []⟩ _ rfl rfl rfl rfl).1

/-! ### The course of the loop -/

/-- Where the loop is after `n` steps, and what the handler has got by then. -/
inductive Course (messages : List Bytes) : Serving → Nat → Prop
  | testing {done todo incoming} (heq : messages = done ++ todo) (hfails : Fails incoming todo) :
      Course messages { incoming, delivered := heard done } (4 * done.length)
  | decoding {done todo incoming} (heq : messages = done ++ todo) (hfails : Fails incoming todo) :
      Course messages { pc := .decoding, incoming, delivered := heard done } (4 * done.length + 1)
  | receiving {done todo incoming connected} (heq : messages = done ++ todo)
      (hfails : Fails incoming todo) (hopen : todo ≠ [] → connected = true) :
      Course messages { pc := .receiving, connected, incoming, delivered := heard done }
        (4 * done.length + 2)
  | handling {done message todo incoming} (heq : messages = done ++ message :: todo)
      (hfails : Fails incoming todo) :
      Course messages { pc := .decoded message false, incoming, delivered := heard done }
        (4 * done.length + 3)
  | failed {incoming} : Course messages
      { pc := .decoded decodeDisconnectMsg true, connected := false, incoming
        delivered := heard messages } (4 * messages.length + 3)
  | notified {pc incoming n} (hpc : pc = .testing ∨ pc = .left)
      (hn : 4 * messages.length + 4 ≤ n) : Course messages
      { pc, connected := false, incoming
        delivered := heard messages ++ [.clientDisconnect] } n

variable {messages : List Bytes} {s : Serving} {n : Nat}

namespace Course

theorem length_eq {done todo : List Bytes} (heq : messages = done ++ todo) :
    messages.length = done.length + todo.length := by
  rw [heq, List.length_append]

theorem handle_eq {message : Bytes} (s : Serving) (htext : message ≠ decodeDisconnectMsg) :
    s.handle message = { s with delivered := s.delivered ++ heard [message] } := by
  by_cases hempty : message = []
  · simp [handle, heard, hempty]
  · simp [handle, heard, hempty, htext]

/-- **A step of the loop**, by its place in the round. -/
theorem serve (h : Course messages s n) (htext : decodeDisconnectMsg ∉ messages) :
    Course messages s.serve (n + 1) := by
  cases h with
  | testing heq hfails => exact .decoding heq hfails
  | decoding heq hfails => exact .receiving heq hfails fun _ => rfl
  | receiving heq hfails hopen =>
    cases hfails with
    | now hstep hstatus =>
      obtain ⟨hnone, -⟩ | ⟨-, rfl⟩ := closed_streamStep hstep
      · exact absurd hnone hstatus
      · rw [List.append_nil] at heq
        subst heq
        simp only [Serving.serve, hstep, hstatus, ne_eq, not_false_eq_true, decide_true]
        exact .failed
    | later hstep hrest =>
      simp only [Serving.serve, hstep, hopen (List.cons_ne_nil _ _)]
      exact .handling heq hrest
  | @handling done message todo incoming heq hfails =>
    have hne : message ≠ decodeDisconnectMsg := by
      rintro rfl
      exact htext (by simp [heq])
    have hdone : heard done ++ heard [message] = heard (done ++ [message]) := by
      simp only [heard, List.filter_append, List.map_append]
    have hlen : 4 * done.length + 3 + 1 = 4 * (done ++ [message]).length := by
      simp only [List.length_append, List.length_singleton]
      omega
    simp only [Serving.serve, handle_eq _ hne, hdone, hlen]
    exact .testing (by simpa using heq) hfails
  | failed => exact .notified (.inl rfl) le_rfl
  | notified hpc hn =>
    obtain rfl | rfl := hpc
    all_goals exact .notified (.inr rfl) (by omega)

/-- `Close` when the loop has come to the last bytes. -/
theorem close (h : Course messages s n) (hn : 4 * messages.length + 2 ≤ n) :
    Course messages { s with connected := false } n := by
  cases h with
  | testing heq hfails | decoding heq hfails =>
    have hlen := length_eq heq
    omega
  | receiving heq hfails hopen =>
    refine .receiving heq hfails fun htodo => ?_
    have hlen := length_eq heq
    have hpos := List.length_pos_iff.mpr htodo
    omega
  | handling heq hfails =>
    have hlen := length_eq heq
    rw [List.length_cons] at hlen
    omega
  | failed => exact .failed
  | notified hpc hn => exact .notified hpc hn

theorem delivered_prefix (h : Course messages s n) :
    s.delivered <+: heard messages ++ [.clientDisconnect] := by
  have hdone {done todo : List Bytes} (heq : messages = done ++ todo) :
      heard done <+: heard messages ++ [.clientDisconnect] := by
    rw [heq, heard, heard, List.filter_append, List.map_append, List.append_assoc]
    exact List.prefix_append _ _
  cases h with
  | testing heq _ | decoding heq _ | receiving heq _ _ | handling heq _ => exact hdone heq
  | failed => exact List.prefix_append _ _
  | notified _ _ => exact List.prefix_rfl

theorem delivered_eq (h : Course messages s n) (hn : 4 * messages.length + 4 ≤ n) :
    s.delivered = heard messages ++ [.clientDisconnect] := by
  cases h with
  | testing heq _ | decoding heq _ | receiving heq _ _ | handling heq _ =>
    have hlen := length_eq heq
    omega
  | failed => omega
  | notified _ _ => rfl

end Course

/-- The place of the loop, and why the connection is not open any more. -/
structure Inv (messages : List Bytes) (before : List ServingEvent) (s : Serving) : Prop where
  course : Course messages s (before.count .serve)
  closed : s.connected = false → .close ∈ before ∨ 4 * messages.length + 3 ≤ before.count .serve

variable {before : List ServingEvent}

theorem Course.connected_serve (h : Course messages s n) (hclosed : s.serve.connected = false) :
    s.connected = false ∨ 4 * messages.length + 3 ≤ n + 1 := by
  cases h with
  | receiving heq hfails hopen =>
    cases hfails with
    | now _ _ =>
      right
      rw [List.append_nil] at heq
      rw [heq]
    | later hstep _ => exact .inl (by simpa only [Serving.serve, hstep] using hclosed)
  | handling heq hfails =>
    simp only [Serving.serve, handle] at hclosed
    split_ifs at hclosed
    all_goals cases hclosed
  | testing | decoding => cases hclosed
  | failed | notified => exact .inl rfl

/-- **An event** that is not in the way. -/
theorem Inv.step (hinv : Inv messages before s) (htext : decodeDisconnectMsg ∉ messages)
    {e : ServingEvent} (hfits : Fits messages.length before e) :
    Inv messages (before ++ [e]) (WsServer.step s e) := by
  cases e with
  | serve =>
    have hcount : (before ++ [ServingEvent.serve]).count .serve = before.count .serve + 1 := by
      simp
    refine ⟨hcount ▸ hinv.course.serve htext, fun hclosed => ?_⟩
    rw [hcount]
    obtain hs | hlate := hinv.course.connected_serve hclosed
    · obtain hclose | hlate := hinv.closed hs
      · exact .inl (List.mem_append_left _ hclose)
      · exact .inr (by omega)
    · exact .inr hlate
  | close =>
    refine ⟨?_, fun _ => .inl (by simp)⟩
    rw [List.count_append]
    exact hinv.course.close hfits
  | sendReply sends =>
    obtain ⟨rfl, hopen, hearly⟩ := hfits
    have hconnected : s.connected = true := by
      by_contra hclosed
      obtain hclose | hlate := hinv.closed (by simpa using hclosed)
      · exact hopen hclose
      · omega
    have hstep : WsServer.step s (.sendReply true) = s := by
      simp [WsServer.step, hconnected]
    rw [hstep]
    refine ⟨by simpa using hinv.course, fun hclosed => ?_⟩
    rw [hconnected] at hclosed
    cases hclosed

theorem Inv.run (hinv : Inv messages before s) (htext : decodeDisconnectMsg ∉ messages)
    {events : List ServingEvent}
    (hfits : Admits (fun before e => before ++ [e]) (Fits messages.length) before events) :
    Inv messages (before ++ events) (events.foldl WsServer.step s) := by
  induction events generalizing before s with
  | nil => simpa using hinv
  | cons e events ih =>
    have hrun := ih (hinv.step htext hfits.1) hfits.2
    rwa [List.append_assoc] at hrun

/-- A text frame with the text `x`, and the end of the stream. -/
def textStream : Bytes := [0x81, 0x81, 0, 0, 0, 0, 0x78]

/-- The server sends a reply, and closes the connection while `Decode` waits for more. -/
def closedWhileWaiting : List ServingEvent :=
  List.replicate 6 .serve ++ [.sendReply true, .close] ++ List.replicate 2 .serve

/-- The loop has left the connection; the number of notifications is not one. -/
def EndsWith (stream : Bytes) (events : List ServingEvent) (delivered : List Delivered) : Prop :=
  (events.foldl step { incoming := stream }).pc = .left ∧
    (events.foldl step { incoming := stream }).delivered = delivered ∧
    delivered.count .clientDisconnect ≠ 1

instance (stream : Bytes) (events : List ServingEvent) (delivered : List Delivered) :
    Decidable (EndsWith stream events delivered) :=
  inferInstanceAs (Decidable (_ ∧ _ ∧ ¬ _))

/-- A CLOSE frame. -/
def closeStream : Bytes := [0x88, 0x80, 0, 0, 0, 0]

/-- A text frame with the text `disconnect`. -/
def disconnectStream : Bytes := [0x81, 0x8A, 0, 0, 0, 0] ++ decodeDisconnectMsg

end WsServer

end ArkToolchain
