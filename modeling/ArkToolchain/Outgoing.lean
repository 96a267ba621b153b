/-
The bytes that concurrent calls write on one connection (websocket/websocket_base.cpp,
websocket/network.cpp).

Any number of threads call `SendReply` and `CloseConnection` while one thread calls `Decode`,
which answers a PING and closes the connection itself.  `SendReply` holds `g_sendReplymutex`
while it sends, `SendPongFrame` and `SendCloseFrame` do not, and the connection lock is only
taken in shared mode.  `replies_intact` is the part that the mutex does guarantee.

An atomic step is a `send` call or an operation on a mutex or on an atomic member; the `recv`
calls of one `Decode` are one step.  The identities of frames and the `torn` flag of `WriteLog`
are not the source's.

Main result: `outgoing_intact_iff`.
-/
import ArkToolchain.WebSocketBase
import ArkToolchain.Interleaving
import ArkToolchain.Writers

namespace ArkToolchain

open Threads

/-! ### Threads, program counters, shared state -/

inductive OutThread
  | decoding
  | other (i : Nat)
  deriving DecidableEq

/-- Who calls `SendUnderLock`. -/
inductive Sender
  | sendReply
  | sendPongFrame
  | sendCloseFrame
  deriving DecidableEq

/-- Where a thread is; the arguments are the local variables it still needs.
`send` is the loop of `Send`, and from `shutdownSocket` on the thread is in
`CloseConnectionSocket`. -/
inductive OutPc
  | idle
  | replyLock (message : Bytes) (frameType : FrameType) (isLast : Bool)
  | replyLoad (message : Bytes) (frameType : FrameType) (isLast : Bool)
  | decodeLoad
  | decodeRecv
  | exchangeClosing (status : CloseStatusCode)
  | sendUnderLock (caller : Sender) (frame : Bytes)
  | send (caller : Sender) (frame : Item UInt8) (sendLen : Nat)
  | shutdownSocket
  | closeSocket
  | exchangeClosed
  deriving DecidableEq

structure OutShared where
  connectionState : ConnectionState
  /-- `connectionFd_` is not -1. -/
  connectionFd : Bool
  /-- `ShutdownSocket` has succeeded. -/
  shutDown : Bool := false
  sendReplyMutex : Bool := false
  /-- The number of threads in `Send` with the connection lock in shared mode. -/
  sharedLocks : Nat := 0
  log : WriteLog UInt8 := {}

/-- What the environment supplies: the call an idle thread makes, the masking
key a client draws, what the `recv` calls of one `Decode` return, the number
of bytes `send` takes, or just whether a socket function succeeds. -/
inductive OutInput
  | call (c : OutPc)
  | key (maskingKey : MaskingKey)
  | recv (incoming : List Bytes) (maskingKey : MaskingKey)
  | sent (len : Nat)
  | ok
  | fail
  deriving DecidableEq

/-! ### The steps -/

def OutThread.mayCall : OutThread → OutPc → Bool
  | .decoding, .decodeLoad => true
  | .other _, .replyLock _ _ _ => true
  | .other _, .exchangeClosing _ => true
  | _, _ => false

/-- `CreateFrame`, given the key that the client's version draws. -/
def newFrame (ep : Endpoint) (maskingKey : MaskingKey) (isLast : Bool) (frameType : FrameType)
    (payload : Bytes) : Bytes :=
  match ep with
  | .server =>
    (({ fin := isLast, opcode := frameType } : ServerFrameBuilder).setPayload payload).build
  | .client =>
    (({ fin := isLast, opcode := frameType, maskingKey } : ClientFrameBuilder).setPayload
      payload).build

/-- `Decode` from its first `RecvUnderLock` to the point where it sends,
closes or returns. -/
def decodeReceived (ep : Endpoint) (incoming : List Bytes) (maskingKey : MaskingKey) : OutPc :=
  let c : Connection := { connectionState := .opened, incoming, room := 0 }
  match c.recvUnderLock WebSocketFrame.headerLen with
  | ([headerRaw₀, headerRaw₁], c) =>
    let wsFrame := WebSocketFrame.ofHeader headerRaw₀ headerRaw₁
    if !Connection.validateIncomingFrame ep wsFrame then .exchangeClosing .protocolError
    else if isControlFrame wsFrame.opcode then
      if wsFrame.opcode = FrameType.ping.enumToNumber then
        match c.readPayload ep wsFrame with
        | .error _ => .idle
        | .ok (none, _) => .exchangeClosing .protocolError
        | .ok (some wsFrame, _) =>
          .sendUnderLock .sendPongFrame (newFrame ep maskingKey true .pong wsFrame.payload)
      else if wsFrame.opcode = FrameType.close.enumToNumber then .exchangeClosing .noStatusCode
      else .idle
    else
      match c.handleDataFrame ep wsFrame with
      | .ok (none, _) => .exchangeClosing .protocolError
      | _ => .idle
  | _ => .exchangeClosing .unexpectedError

/-- Where the caller goes on when `SendUnderLock` returns; none of them looks
at the result for more than a log line. -/
def Sender.after : Sender → OutPc
  | .sendReply => .idle
  | .sendPongFrame => .idle
  | .sendCloseFrame => .shutdownSocket

/-- `SendUnderLock` releases the connection lock; `SendReply` then also
releases its mutex. -/
def OutShared.sendReturned (sh : OutShared) (caller : Sender) (log : WriteLog UInt8) : OutShared :=
  { sh with
    sharedLocks := sh.sharedLocks - 1
    sendReplyMutex := sh.sendReplyMutex && caller != .sendReply
    log }

/-- One step of the loop of `Send`. -/
def nextSend (sh : OutShared) (caller : Sender) (frame : Item UInt8) (sendLen : Nat) :
    OutInput → Option (OutShared × OutPc)
  | .sent len =>
    if frame.data.length ≤ sendLen then none
    else if sh.connectionFd && !sh.shutDown && 0 < len && len ≤ frame.data.length - sendLen then
      some ({ sh with
        log := { sh.log with wire := sh.log.wire ++ frame.chunk sendLen len } },
        .send caller frame (sendLen + len))
    else none
  | .ok =>
    if frame.data.length ≤ sendLen then some (sh.sendReturned caller sh.log, caller.after)
    else none
  | .fail =>
    if frame.data.length ≤ sendLen then none
    else
      some (sh.sendReturned caller { sh.log with torn := sh.log.torn || decide (0 < sendLen) },
        caller.after)
  | _ => none

def outNext (ep : Endpoint) (t : OutThread) (sh : OutShared) (pc : OutPc) (i : OutInput) :
    Option (OutShared × OutPc) :=
  match pc with
  | .idle =>
    match i with
    | .call c => if t.mayCall c then some (sh, c) else none
    | _ => none
  | .replyLock message frameType isLast =>
    if sh.sendReplyMutex then none
    else some ({ sh with sendReplyMutex := true }, .replyLoad message frameType isLast)
  | .replyLoad message frameType isLast =>
    if sh.connectionState ≠ .opened then some ({ sh with sendReplyMutex := false }, .idle)
    else
      match i with
      | .key maskingKey =>
        some (sh, .sendUnderLock .sendReply (newFrame ep maskingKey isLast frameType message))
      | _ => none
  | .decodeLoad =>
    if sh.connectionState = .opened then some (sh, .decodeRecv) else some (sh, .idle)
  | .decodeRecv =>
    match i with
    | .recv incoming maskingKey => some (sh, decodeReceived ep incoming maskingKey)
    | _ => none
  | .exchangeClosing status =>
    if sh.connectionState ≠ .opened then some (sh, .idle)
    else
      match i with
      | .key maskingKey =>
        some ({ sh with connectionState := .closing },
          .sendUnderLock .sendCloseFrame (newFrame ep maskingKey true .close status.toBytes))
      | _ => none
  | .sendUnderLock caller frame =>
    some ({ sh with
        sharedLocks := sh.sharedLocks + 1
        log := { sh.log with started := sh.log.started + 1 } },
      .send caller ⟨sh.log.started, frame⟩ 0)
  | .send caller frame sendLen => nextSend sh caller frame sendLen i
  | .shutdownSocket =>
    match i with
    | .ok => some ({ sh with shutDown := true }, .closeSocket)
    | .fail => some (sh, .closeSocket)
    | _ => none
  | .closeSocket =>
    -- the exclusive lock waits for every thread in `Send`
    if sh.sharedLocks ≠ 0 then none
    else some ({ sh with connectionFd := false }, .exchangeClosed)
  | .exchangeClosed =>
    some ({ sh with
        connectionState := if sh.connectionState = .closing then .closed
          else sh.connectionState }, .idle)

abbrev OutThreads := Threads OutThread OutShared OutPc

def OutThreads.opened : OutThreads where
  shared := { connectionState := .opened, connectionFd := true }
  pcs := fun _ => .idle

/-! ### The writers of the stream -/

def OutPc.writing : OutPc → Option (Writing UInt8)
  | .send _ frame sendLen => some ⟨frame, sendLen⟩
  | _ => none

def OutThreads.work (s : OutThreads) (u : OutThread) : Option (Writing UInt8) :=
  (s.pcs u).writing

variable {pc : OutPc}

theorem exists_send_of_writing {w : Writing UInt8} (h : pc.writing = some w) :
    ∃ caller frame sendLen, pc = .send caller frame sendLen ∧ w = ⟨frame, sendLen⟩ := by
  cases pc with
  | send caller frame sendLen => exact ⟨caller, frame, sendLen, rfl, (Option.some.inj h).symm⟩
  | _ => simp [OutPc.writing] at h

theorem writing_decodeReceived (ep : Endpoint) (incoming : List Bytes) (maskingKey : MaskingKey) :
    (decodeReceived ep incoming maskingKey).writing = none := by
  fun_cases decodeReceived ep incoming maskingKey <;> simp_all [OutPc.writing]

variable {t : OutThread} {c : OutPc}

theorem writing_of_mayCall (h : t.mayCall c = true) : c.writing = none := by
  fun_cases OutThread.mayCall t c <;> simp_all [OutPc.writing, OutThread.mayCall]

theorem writing_after (caller : Sender) : caller.after.writing = none := by
  cases caller <;> rfl

/-- What one step of the loop of `Send` can do: write a piece, return when all
is written, or give up. -/
inductive SendStep (sh : OutShared) (caller : Sender) (frame : Item UInt8) (sendLen : Nat) :
    OutInput → OutShared → OutPc → Prop
  | write (len : Nat) (hpos : 0 < len) (hlen : sendLen + len ≤ frame.data.length) :
      SendStep sh caller frame sendLen (.sent len)
        { sh with log := { sh.log with wire := sh.log.wire ++ frame.chunk sendLen len } }
        (.send caller frame (sendLen + len))
  | finish (hdone : frame.data.length ≤ sendLen) :
      SendStep sh caller frame sendLen .ok (sh.sendReturned caller sh.log) caller.after
  | giveUp (hrest : sendLen < frame.data.length) :
      SendStep sh caller frame sendLen .fail
        (sh.sendReturned caller { sh.log with torn := sh.log.torn || decide (0 < sendLen) })
        caller.after

section SendSteps

variable {sh sh' : OutShared} {pc' : OutPc} {caller : Sender} {frame : Item UInt8}
  {sendLen : Nat} {i : OutInput}

theorem sendStep_of_nextSend (h : nextSend sh caller frame sendLen i = some (sh', pc')) :
    SendStep sh caller frame sendLen i sh' pc' := by
  unfold nextSend at h
  split at h
  · -- a piece was written
    obtain ⟨-, h⟩ := Option.ite_none_left_eq_some.mp h
    obtain ⟨hcan, heq⟩ := Option.ite_none_right_eq_some.mp h
    simp only [Bool.and_eq_true, decide_eq_true_eq] at hcan
    cases heq
    exact .write _ hcan.1.2 (by omega)
  · -- all was written
    obtain ⟨hdone, heq⟩ := Option.ite_none_right_eq_some.mp h
    cases heq
    exact .finish hdone
  · -- `send` failed
    obtain ⟨hrest, heq⟩ := Option.ite_none_left_eq_some.mp h
    cases heq
    exact .giveUp (Nat.lt_of_not_le hrest)
  · cases h

theorem SendStep.writeStep (h : SendStep sh caller frame sendLen i sh' pc') :
    WriteLog.Step sh.log (some ⟨frame, sendLen⟩) sh'.log pc'.writing := by
  cases h with
  | write len hpos hlen => exact .write sh.log frame sendLen len hpos hlen
  | finish hdone =>
    rw [writing_after]
    exact .finish sh.log frame sendLen hdone
  | giveUp hrest =>
    rw [writing_after]
    exact .giveUp sh.log frame sendLen hrest

/-- The stream grows only when `send` takes something. -/
theorem SendStep.sent_of_wire (h : SendStep sh caller frame sendLen i sh' pc')
    (hwire : sh'.log.wire ≠ sh.log.wire) : ∃ len, i = .sent len := by
  cases h with
  | write len hpos hlen => exact ⟨len, rfl⟩
  | finish hdone | giveUp hrest => exact absurd rfl hwire

end SendSteps

variable {i : OutInput} {ep : Endpoint} {pc' : OutPc}

/-- A step outside of `SendUnderLock` leaves the stream alone. -/
theorem log_of_writing_none {sh sh' : OutShared} (h : outNext ep t sh pc i = some (sh', pc'))
    (hpc : pc.writing = none) (hlock : ∀ caller frame, pc ≠ .sendUnderLock caller frame) :
    sh'.log = sh.log ∧ pc'.writing = none := by
  revert h
  fun_cases outNext ep t sh pc i <;> intro h <;>
    grind [OutPc.writing, writing_of_mayCall, writing_decodeReceived]

/-- **The code writes as the abstract writers do.** -/
theorem writeStep_of_outNext {sh sh' : OutShared} (h : outNext ep t sh pc i = some (sh', pc')) :
    WriteLog.Step sh.log pc.writing sh'.log pc'.writing := by
  rcases hpc : pc.writing with - | w
  · by_cases hlock : ∃ caller frame, pc = .sendUnderLock caller frame
    · obtain ⟨caller, frame, rfl⟩ := hlock
      cases h
      exact .start sh.log frame
    · obtain ⟨hlog, hpc'⟩ := log_of_writing_none h hpc fun caller frame hpc =>
        hlock ⟨caller, frame, hpc⟩
      rw [hlog, hpc']
      exact .quiet sh.log
  · obtain ⟨caller, frame, sendLen, rfl, rfl⟩ := exists_send_of_writing hpc
    exact (sendStep_of_nextSend h).writeStep

/-! ### Whole runs -/

/-- Thread `t` may write the first bytes of its frame: no other thread is in
the middle of a frame, and none gave up in the middle of one. -/
def MayBegin (s : OutThreads) (t : OutThread) (i : OutInput) : Prop :=
  ∀ caller frame len, s.pcs t = .send caller frame 0 → i = .sent len →
    Undisturbed s.shared.log s.work t

/-- A step that `MayBegin` allows keeps the frames whole. -/
theorem writeInv_step {s s' : OutThreads} (h : WriteInv s.shared.log s.work)
    (hstep : s.step (outNext ep) t i = some s') (hbegin : MayBegin s t i) :
    WriteInv s'.shared.log s'.work := by
  obtain ⟨sh, pc, hn, rfl⟩ := step_eq_some hstep
  -- only the frame of `t` can have changed
  have hwork : OutThreads.work ⟨sh, Function.update s.pcs t pc⟩
      = Function.update s.work t pc.writing := by
    funext u
    exact Function.apply_update (fun _ => OutPc.writing) s.pcs t pc u
  rw [hwork]
  apply h.step rfl (writeStep_of_outNext hn)
  -- if the stream grows, `send` has taken the first bytes, which `MayBegin` allows
  intro g hg hwire
  obtain ⟨caller, frame, sendLen, hpc, hw⟩ := exists_send_of_writing hg
  obtain ⟨rfl, rfl⟩ := Writing.mk.inj hw
  rw [hpc] at hn
  obtain ⟨len, rfl⟩ := (sendStep_of_nextSend hn).sent_of_wire hwire
  exact hbegin caller g len hpc rfl

theorem not_intact_step {s s' : OutThreads} (h : WriteInv s.shared.log s.work)
    (hstep : s.step (outNext ep) t i = some s') (hbegin : ¬ MayBegin s t i) :
    ¬ s'.shared.log.Intact := by
  obtain ⟨sh, pc, hn, rfl⟩ := step_eq_some hstep
  simp only [MayBegin, not_forall] at hbegin
  obtain ⟨caller, frame, len, hpc, rfl, hdist⟩ := hbegin
  rw [hpc] at hn
  have hwork : s.work t = some ⟨frame, 0⟩ := congrArg OutPc.writing hpc
  have hsend : SendStep s.shared caller frame 0 (.sent len) sh pc := sendStep_of_nextSend hn
  cases hsend with
  | write len hpos hlen => exact h.not_intact hwork hpos (by omega) hdist

/-- **Outgoing frames under concurrency**: in a run of calls of `SendReply`,
`Decode` and `CloseConnection` the stream always consists of whole frames and
possibly the beginning of one more if and only if no thread begins its frame
while another one is in the middle of a frame or after one gave up there. -/
theorem outgoing_intact_iff (ep : Endpoint) (schedule : List (OutThread × OutInput)) :
    Always (outNext ep) (fun s => s.shared.log.Intact) OutThreads.opened schedule ↔
      EachStep (outNext ep) MayBegin OutThreads.opened schedule := by
  apply always_iff_eachStep (I := fun s => WriteInv s.shared.log (OutThreads.work s))
  · intro s h
    exact h.intact
  · intro s t i s' h hstep hbegin
    exact writeInv_step h hstep hbegin
  · intro s t i s' h hstep hbegin
    exact not_intact_step h hstep hbegin
  · exact WriteInv.initial

/-- A reply of which one byte has been written when the decoding thread
answers a PING. -/
def pingDuringReply : List (OutThread × OutInput) :=
  [(.other 0, .call (.replyLock (ascii "hello") .text true)), (.other 0, .ok),
    (.other 0, .key (Vector.replicate 4 0)), (.other 0, .ok), (.other 0, .sent 1),
    (.decoding, .call .decodeLoad), (.decoding, .ok),
    (.decoding, .recv [[0x89, 0x80]] (Vector.replicate 4 0)), (.decoding, .ok),
    (.decoding, .sent 2)]

/-- The pong frame stands behind the first byte of the reply. -/
theorem pingDuringReply_not_intact :
    ∃ s, OutThreads.opened.run (outNext .server) pingDuringReply = some s ∧
      s.shared.log.wire.map Prod.snd = [0x81, 0x8a, 0x00] ∧ ¬ s.shared.log.Intact := by
  let reply : Item UInt8 := ⟨0, [0x81, 0x05, 0x68, 0x65, 0x6c, 0x6c, 0x6f]⟩
  let pong : Item UInt8 := ⟨1, [0x8a, 0x00]⟩
  have hrun : (OutThreads.opened.run (outNext .server) pingDuringReply).map
      (fun s => s.shared.log.wire) = some [(reply, 0x81), (pong, 0x8a), (pong, 0x00)] := by
    decide
  obtain ⟨s, hs, hwire⟩ := Option.map_eq_some_iff.mp hrun
  refine ⟨s, hs, by rw [hwire]; rfl, fun h => ?_⟩
  -- the reply is unfinished, but the stream ends with the pong frame
  have hreply : s.shared.log.Unfinished reply := by
    rw [WriteLog.Unfinished, hwire]
    decide
  have hend := h.getLast_of_unfinished hreply
  rw [hwire] at hend
  exact absurd hend (by decide)

/-! ### Replies alone -/

/-- `SendReply` between taking and releasing `g_sendReplymutex`. -/
def HoldsReplyMutex : OutPc → Prop
  | .replyLoad _ _ _ => True
  | .sendUnderLock .sendReply _ => True
  | .send .sendReply _ _ => True
  | _ => False

/-- The step belongs to a run without pong and close frames in which no `send`
fails in the middle of a frame. -/
def RepliesOnly (s : OutThreads) (t : OutThread) (i : OutInput) : Prop :=
  (∀ caller frame, s.pcs t = .sendUnderLock caller frame → caller = .sendReply) ∧
    ∀ caller frame sendLen, s.pcs t = .send caller frame sendLen → 0 < sendLen → i ≠ .fail

/-- What holds in such runs. -/
structure ReplyInv (s : OutThreads) : Prop where
  mutex : HasToken (fun sh => sh.sendReplyMutex = true) HoldsReplyMutex s
  caller_eq : ∀ u caller frame sendLen, s.pcs u = .send caller frame sendLen → caller = .sendReply
  not_torn : s.shared.log.torn = false

theorem not_holdsReplyMutex_decodeReceived (ep : Endpoint) (incoming : List Bytes)
    (maskingKey : MaskingKey) : ¬ HoldsReplyMutex (decodeReceived ep incoming maskingKey) := by
  fun_cases decodeReceived ep incoming maskingKey <;> simp_all [HoldsReplyMutex]

theorem not_holdsReplyMutex_of_mayCall (h : t.mayCall c = true) : ¬ HoldsReplyMutex c := by
  fun_cases OutThread.mayCall t c <;> simp_all [HoldsReplyMutex, OutThread.mayCall]

theorem tokenStep_sendReturned (sh : OutShared) (caller : Sender) (frame : Item UInt8)
    (sendLen : Nat) (log : WriteLog UInt8) :
    TokenStep (fun sh => sh.sendReplyMutex = true) HoldsReplyMutex sh
      (.send caller frame sendLen) (sh.sendReturned caller log) caller.after := by
  cases caller with
  | sendReply => exact .of_exit trivial id (by simp [OutShared.sendReturned])
  | sendPongFrame | sendCloseFrame => exact .of_outside id id (by simp [OutShared.sendReturned])

variable {frame : Item UInt8} {caller : Sender} {sendLen : Nat}

theorem SendStep.tokenStep {sh sh' : OutShared} (h : SendStep sh caller frame sendLen i sh' pc')
    (hmutex : HoldsReplyMutex (.send caller frame sendLen) → sh.sendReplyMutex = true) :
    TokenStep (fun sh => sh.sendReplyMutex = true) HoldsReplyMutex sh
      (.send caller frame sendLen) sh' pc' := by
  cases h with
  | write len hpos hlen =>
    cases caller with
    | sendReply => exact .of_inside trivial trivial (hmutex trivial)
    | sendPongFrame | sendCloseFrame => exact .of_outside id id Iff.rfl
  | finish hdone | giveUp hrest => exact tokenStep_sendReturned sh caller frame sendLen _

theorem tokenStep_outNext {sh sh' : OutShared} (h : outNext ep t sh pc i = some (sh', pc'))
    (hmutex : HoldsReplyMutex pc → sh.sendReplyMutex = true) :
    TokenStep (fun sh => sh.sendReplyMutex = true) HoldsReplyMutex sh pc sh' pc' := by
  cases pc with
  | send caller frame sendLen => exact (sendStep_of_nextSend h).tokenStep hmutex
  | sendUnderLock caller frame =>
    -- only `SendReply` holds the mutex here, and it keeps it
    cases h
    cases caller with
    | sendReply => exact .of_inside trivial trivial (hmutex trivial)
    | sendPongFrame | sendCloseFrame => exact .of_outside id id Iff.rfl
  | idle =>
    have hcall := @not_holdsReplyMutex_of_mayCall t
    simp only [outNext] at h
    constructor <;> grind [HoldsReplyMutex]
  | decodeRecv =>
    have hreceived := not_holdsReplyMutex_decodeReceived ep
    simp only [outNext] at h
    constructor <;> grind [HoldsReplyMutex]
  | _ =>
    simp only [outNext] at h
    constructor <;> grind [HoldsReplyMutex]

/-- Who enters `Send` comes from `SendUnderLock`, and nobody changes there. -/
theorem caller_of_outNext {sh sh' : OutShared}
    (h : outNext ep t sh pc i = some (sh', .send caller frame sendLen)) :
    (∃ frame', pc = .sendUnderLock caller frame') ∨
      ∃ frame' sendLen', pc = .send caller frame' sendLen' := by
  cases pc with
  | send caller' frame' sendLen' =>
    have hcaller : caller' = caller := by
      have hsend := sendStep_of_nextSend h
      generalize hpc' : OutPc.send caller frame sendLen = pc' at hsend
      cases hsend with
      | write len hpos hlen => exact (OutPc.send.inj hpc').1.symm
      | finish hdone | giveUp hrest => cases caller' <;> cases hpc'
    exact .inr ⟨frame', sendLen', by rw [hcaller]⟩
  | sendUnderLock caller' frame' =>
    obtain ⟨-, hpc⟩ := Prod.mk.inj (Option.some.inj h)
    exact .inl ⟨frame', by rw [(OutPc.send.inj hpc).1]⟩
  | _ => exact absurd (log_of_writing_none h rfl (by simp)).2 (by simp [OutPc.writing])

theorem torn_of_outNext {sh sh' : OutShared} (h : outNext ep t sh pc i = some (sh', pc'))
    (hfail : ∀ caller frame sendLen, pc = .send caller frame sendLen → 0 < sendLen → i ≠ .fail) :
    sh'.log.torn = sh.log.torn := by
  cases pc with
  | send caller frame sendLen =>
    cases sendStep_of_nextSend h with
    | write len hpos hlen | finish hdone => rfl
    | giveUp hrest =>
      -- it gives up before the first byte
      have hzero : ¬ 0 < sendLen := fun hpos => hfail caller frame sendLen rfl hpos rfl
      simp [OutShared.sendReturned, hzero]
  | sendUnderLock caller frame =>
    obtain ⟨rfl, -⟩ := Prod.mk.inj (Option.some.inj h)
    rfl
  | _ => exact congrArg WriteLog.torn (log_of_writing_none h rfl (by simp)).1

theorem replyInv_step {s s' : OutThreads} (h : ReplyInv s)
    (hstep : s.step (outNext ep) t i = some s') (hreply : RepliesOnly s t i) : ReplyInv s' := by
  have hmutex : HoldsReplyMutex (s.pcs t) → s.shared.sendReplyMutex = true := fun ht =>
    h.mutex.tok_iff.mpr ⟨t, ht⟩
  refine ⟨h.mutex.step (fun sh' pc' hn => tokenStep_outNext hn hmutex) hstep, ?_, ?_⟩
  · -- who is in `Send` now came from `SendUnderLock` or was there before
    obtain ⟨sh, pc, hn, rfl⟩ := step_eq_some hstep
    refine (Function.forall_update_iff s.pcs fun _ p =>
      ∀ caller frame sendLen, p = .send caller frame sendLen → caller = .sendReply).mpr
      ⟨?_, fun u _ => h.caller_eq u⟩
    rintro caller frame sendLen rfl
    rcases caller_of_outNext hn with ⟨frame', hpc⟩ | ⟨frame', sendLen', hpc⟩
    · exact hreply.1 caller frame' hpc
    · exact h.caller_eq t caller frame' sendLen' hpc
  · obtain ⟨sh, pc, hn, rfl⟩ := step_eq_some hstep
    exact (torn_of_outNext hn hreply.2).trans h.not_torn

/-- Two replies are never in `Send` together. -/
theorem mayBegin_of_replyInv {s : OutThreads} (h : ReplyInv s) (t : OutThread) (i : OutInput) :
    MayBegin s t i := by
  rintro caller frame len hpc -
  refine ⟨h.not_torn, fun u w hut hw => ?_⟩
  obtain ⟨caller', frame', sendLen, hpc', -⟩ := exists_send_of_writing hw
  obtain rfl := h.caller_eq t caller frame 0 hpc
  obtain rfl := h.caller_eq u caller' frame' sendLen hpc'
  -- both would hold the mutex
  have ht : HoldsReplyMutex (s.pcs t) := by
    rw [hpc]
    trivial
  have hu : HoldsReplyMutex (s.pcs u) := by
    rw [hpc']
    trivial
  exact absurd (h.mutex.unique u t hu ht) hut

theorem replyInv_opened : ReplyInv OutThreads.opened where
  mutex := ⟨⟨fun h => absurd h (by decide), fun ⟨_, h⟩ => h.elim⟩, fun _ _ h => h.elim⟩
  caller_eq := by
    intro u caller frame sendLen h
    exact absurd h (by simp [OutThreads.opened])
  not_torn := rfl

/-- **What `g_sendReplymutex` guarantees**: however the socket splits them,
replies alone never begin a frame at a wrong moment, as long as no `send`
fails in the middle of one. -/
theorem replies_mayBegin (ep : Endpoint) {schedule : List (OutThread × OutInput)}
    (h : EachStep (outNext ep) RepliesOnly OutThreads.opened schedule) :
    EachStep (outNext ep) MayBegin OutThreads.opened schedule := by
  apply EachStep.imp (I := ReplyInv) _ replyInv_opened h
  intro s t i s' hinv hstep hreply
  exact ⟨mayBegin_of_replyInv hinv t i, replyInv_step hinv hstep hreply⟩

instance decidableRepliesOnly (s : OutThreads) (t : OutThread) (i : OutInput) :
    Decidable (RepliesOnly s t i) := by
  unfold RepliesOnly
  exact match s.pcs t with
    | .sendUnderLock caller _ => decidable_of_iff (caller = .sendReply) (by simp)
    | .send _ _ sendLen => decidable_of_iff (0 < sendLen → i ≠ .fail) (by simp)
    | .idle | .replyLock .. | .replyLoad .. | .decodeLoad | .decodeRecv | .exchangeClosing _
    | .shutdownSocket | .closeSocket | .exchangeClosed => isTrue (by simp)

/-- **Replies alone are sent whole**: however many threads send them and however the socket
splits them, as long as no `send` fails in the middle of a frame. -/
theorem replies_intact (ep : Endpoint) {schedule : List (OutThread × OutInput)}
    (h : EachStep (outNext ep) RepliesOnly OutThreads.opened schedule) :
    Always (outNext ep) (fun s => s.shared.log.Intact) OutThreads.opened schedule := by
  apply (replies_mayBegin ep h).always (I := fun s => WriteInv s.shared.log (OutThreads.work s))
  · exact fun s hs => hs.intact
  · exact fun s t i s' hs hstep hbegin => writeInv_step hs hstep hbegin
  · exact WriteInv.initial

theorem reply_begun_intact :
    Always (outNext .server) (fun s => s.shared.log.Intact) OutThreads.opened
      (pingDuringReply.take 5) :=
  replies_intact .server (by decide)

end ArkToolchain
