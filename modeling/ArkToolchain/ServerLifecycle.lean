/-
The life cycle of the server's connection.

The connection state is a token: while it is CONNECTING the accepting thread is between the
exchange that made it so and the one that ends it, and while it is CLOSING exactly one thread is
closing the socket (`Owned`).

Main result: `connection_lifecycle`, for every reachable state.
-/
import ArkToolchain.ServerThreads

namespace ArkToolchain

open ServerPc

/-! ### Regions of the code -/

/-- Between the exchange to CONNECTING and the one that ends it. -/
def ServerPc.connecting : ServerPc → Bool
  | .accept (.loadServerUp _) | .accept (.exchangeConnecting _) => false
  | .accept _ => true
  | _ => false

/-- Between the exchange to CLOSING and the one to CLOSED. -/
def ServerPc.closing : ServerPc → Bool
  | .close _ .exchangeClosing => false
  | .close _ _ => true
  | _ => false

/-- In `Close`, after the exchange that stops the server. -/
def ServerPc.shutting : ServerPc → Bool
  | .shut .exchangeServerUp => false
  | .shut _ => true
  | .close .close _ => true
  | _ => false

def ServerPc.OfThread (t : ServerThread) : ServerPc → Prop
  | .accept _ => t = .accepting
  | _ => True

variable {p : ServerPc}

theorem ServerPc.OfThread.accepting_of_connecting {t : ServerThread} (h : p.OfThread t)
    (hp : p.connecting = true) : t = .accepting := by
  cases p with
  | accept q => exact h
  | _ => cases hp

/-- Outside all regions, and where thread `t` may be: the calls a thread may
make and what `Decode` and `SendReply` go on to. -/
def ServerPc.Plain (t : ServerThread) (p : ServerPc) : Prop :=
  p.connecting = false ∧ p.closing = false ∧ p.shutting = false ∧ p.OfThread t

theorem mayCall_plain {t : ServerThread} (h : t.mayCall p = true) : p.Plain t := by
  unfold ServerThread.mayCall at h
  split at h
  case h_6 => cases h
  all_goals exact ⟨rfl, rfl, rfl, by trivial⟩

/-- How far `Decode` is from its end. -/
def DecodePc.rank : DecodePc → Nat
  | .loadState => 14
  | .recvHeader => 13
  | .recvLength _ => 12
  | .recvMaskingKey _ => 11
  | .recvPayload _ => 10
  | .sendPongFrame => 5

/-- `Decode` ends, closes the connection, or comes closer to its end. -/
theorem nextDecode_of {P : ServerPc → Prop} {q : DecodePc} (sh : ServerShared) (i : ServerInput)
    (hidle : P .idle) (hclose : q ≠ .sendPongFrame → P (.close .user .exchangeClosing))
    (hdecode : ∀ q' : DecodePc, q'.rank < q.rank → P (.decode q')) : P (nextDecode sh i q) := by
  simp only [nextDecode, decodeHeaderPc, readPayloadPc, decodeMessagePc, decodedFrame]
  repeat' split
  all_goals first
    | exact hidle
    | exact hclose (by simp)
    | exact hdecode _ (by simp [DecodePc.rank])

theorem handShakeReceived_cases (validateCb : Option (HttpRequest → Bool)) (msgBuf : Bytes) :
    handShakeReceived validateCb msgBuf = .handShakeFailed ∨
      handShakeReceived validateCb msgBuf = .protocolUpgrade ∨
      handShakeReceived validateCb msgBuf = .responseInvalidHandShake := by
  unfold handShakeReceived
  dsimp only
  repeat' split
  all_goals simp

open Threads

section Tokens

variable {validateCb : Option (HttpRequest → Bool)} {t : ServerThread} {sh sh' : ServerShared}
  {p p' : ServerPc} {i : ServerInput}

def IsConnecting (sh : ServerShared) : Prop := sh.connectionState = .connecting

def IsClosing (sh : ServerShared) : Prop := sh.connectionState = .closing

/-- A step of `serverNext` is a step of one of the three parts of the code
that change more than their own mutex, or goes to a point outside their
regions. -/
theorem serverNext_cases (h : serverNext validateCb t sh p i = some (sh', p')) :
    (∃ q, p = .accept q ∧ sh' = (nextAccept validateCb sh i q).1 ∧
      p' = (nextAccept validateCb sh i q).2) ∨
    (∃ caller q, p = .close caller q ∧ sh' = (nextClose sh caller q).1 ∧
      p' = (nextClose sh caller q).2) ∨
    (∃ q, p = .shut q ∧ sh' = (nextShut sh q).1 ∧ p' = (nextShut sh q).2) ∨
    (p.Plain t ∧ p'.Plain t ∧ ∃ b, sh' = { sh with sendReplyMutex := b }) := by
  cases p with
  | idle =>
    -- a call begins outside all regions
    simp only [serverNext] at h
    split at h
    · split at h
      next hcall =>
        cases h
        exact .inr (.inr (.inr ⟨⟨rfl, rfl, rfl, trivial⟩, mayCall_plain hcall, _, rfl⟩))
      next => cases h
    · cases h
  | accept q =>
    have hq := Option.some.inj h
    exact .inl ⟨q, rfl, by rw [hq], by rw [hq]⟩
  | close caller q =>
    have hq := Option.some.inj h
    exact .inr (.inl ⟨caller, q, rfl, by rw [hq], by rw [hq]⟩)
  | shut q =>
    have hq := Option.some.inj h
    exact .inr (.inr (.inl ⟨q, rfl, by rw [hq], by rw [hq]⟩))
  | decode q =>
    cases h
    exact .inr (.inr (.inr ⟨⟨rfl, rfl, rfl, trivial⟩, nextDecode_of
      (P := ServerPc.Plain t) _ _ ⟨rfl, rfl, rfl, trivial⟩ (fun _ => ⟨rfl, rfl, rfl, trivial⟩)
      fun _ _ => ⟨rfl, rfl, rfl, trivial⟩, _, rfl⟩))
  | reply q =>
    -- `SendReply` touches only its own mutex
    revert h
    simp only [serverNext]
    fun_cases nextReply sh q
    all_goals rintro ⟨⟩
    all_goals exact .inr (.inr (.inr ⟨⟨rfl, rfl, rfl, trivial⟩, ⟨rfl, rfl, rfl, trivial⟩, _, rfl⟩))

/-- What a step of the accepting thread does to the connection state: nothing,
begin CONNECTING, end it, or report that it has not ended. -/
inductive AcceptMove (sh : ServerShared) (q : AcceptPc) : ServerShared → ServerPc → Prop
  | stay {sh' : ServerShared} {p' : ServerPc} (hstate : sh'.connectionState = sh.connectionState)
      (hviolations : sh'.violations = sh.violations)
      (hconn : p'.connecting = (ServerPc.accept q).connecting) (hclos : p'.closing = false) :
      AcceptMove sh q sh' p'
  | begin {p' : ServerPc} (hq : (ServerPc.accept q).connecting = false)
      (hclosed : sh.connectionState = .closed) (hconn : p'.connecting = true)
      (hclos : p'.closing = false) :
      AcceptMove sh q { sh with connectionState := .connecting } p'
  | finish {p' : ServerPc} (newState : ConnectionState) (v : Violation)
      (hq : (ServerPc.accept q).connecting = true) (hnew : newState ≠ .connecting)
      (hconn : p'.connecting = false) (hclos : p'.closing = (newState == .closing)) :
      AcceptMove sh q (sh.leaveConnecting newState v) p'
  | refuse (v : Violation) (hq : (ServerPc.accept q).connecting = false)
      (hconnecting : sh.connectionState = .connecting) : AcceptMove sh q (sh.report v) .idle

theorem acceptMove (validateCb : Option (HttpRequest → Bool)) (sh : ServerShared)
    (i : ServerInput) (q : AcceptPc) :
    AcceptMove sh q (nextAccept validateCb sh i q).1 (nextAccept validateCb sh i q).2 := by
  fun_cases nextAccept validateCb sh i q
  case case3 call hclosed => exact .begin rfl hclosed rfl rfl
  case case4 call hconnecting => exact .refuse _ rfl hconnecting
  case case10 | case13 => exact .finish .closed _ rfl (by simp) rfl rfl
  case case15 msgBuf =>
    refine .stay rfl rfl ?_ rfl
    obtain h | h | h := handShakeReceived_cases validateCb msgBuf
    all_goals rw [h]; rfl
  case case20 => exact .finish .closing _ rfl (by simp) rfl rfl
  case case21 => exact .finish .opened _ rfl (by simp) rfl rfl
  all_goals exact .stay rfl rfl rfl rfl

theorem AcceptMove.connecting {q : AcceptPc} (h : AcceptMove sh q sh' p')
    (hp : (ServerPc.accept q).connecting = true → IsConnecting sh) :
    TokenStep IsConnecting (fun p : ServerPc => p.connecting = true) sh (.accept q) sh' p' := by
  cases h with
  | stay hstate hviolations hconn hclos =>
    have htok : IsConnecting sh' ↔ IsConnecting sh := by rw [IsConnecting, hstate, IsConnecting]
    by_cases hq : (ServerPc.accept q).connecting = true
    · exact .of_inside hq (hconn.trans hq) (htok.mpr (hp hq))
    · exact .of_outside hq (hconn.trans_ne hq) htok
  | begin hq hclosed hconn hclos =>
    exact .of_enter (by simp [hq]) hconn (by simp [IsConnecting, hclosed]) rfl
  | finish newState v hq hnew hconn hclos => exact .of_exit hq (by simp [hconn]) hnew
  | refuse v hq hconnecting =>
    exact .of_outside (by simp [hq]) (by simp [connecting]) Iff.rfl

/-- What does not touch the connection. -/
structure KeepsConnection (sh sh' : ServerShared) : Prop where
  state : sh'.connectionState = sh.connectionState
  fd : sh'.connectionFd = sh.connectionFd
  log : sh'.fdLog = sh.fdLog
  violations : sh'.violations = sh.violations
  served : sh'.serverFd = sh.serverFd ∨ sh'.serverFd = none

/-- `Close` leaves the connection to `CloseConnection`. -/
theorem nextShut_keeps (sh : ServerShared) (q : ShutPc) : KeepsConnection sh (nextShut sh q).1 := by
  fun_cases nextShut sh q
  all_goals first
    | exact ⟨rfl, rfl, rfl, rfl, .inl rfl⟩
    | exact ⟨rfl, rfl, rfl, rfl, .inr rfl⟩

/-- `Close` ends, goes on, or calls `CloseConnection`. -/
theorem nextShut_target (sh : ServerShared) (q : ShutPc) :
    (nextShut sh q).2 = .idle ∨ (∃ q', (nextShut sh q).2 = .shut q') ∨
      (nextShut sh q).2 = .close .close .exchangeClosing := by
  fun_cases nextShut sh q
  all_goals first
    | exact .inl rfl
    | exact .inr (.inl ⟨_, rfl⟩)
    | exact .inr (.inr rfl)

/-- `Close` is in no region itself. -/
theorem nextShut_outside (sh : ServerShared) (q : ShutPc) :
    (nextShut sh q).2.connecting = false ∧ (nextShut sh q).2.closing = false := by
  obtain h | ⟨q', h⟩ | h := nextShut_target sh q
  all_goals rw [h]
  all_goals exact ⟨rfl, rfl⟩

theorem serverNext_connecting (hp : p.connecting = true → IsConnecting sh)
    (h : serverNext validateCb t sh p i = some (sh', p')) :
    TokenStep IsConnecting (fun p : ServerPc => p.connecting = true) sh p sh' p' := by
  rcases serverNext_cases h with ⟨q, rfl, rfl, rfl⟩ | ⟨caller, q, rfl, rfl, rfl⟩ |
    ⟨q, rfl, rfl, rfl⟩ | ⟨hplain, hplain', b, rfl⟩
  · exact (acceptMove validateCb sh i q).connecting hp
  · fun_cases nextClose sh caller q
    all_goals apply TokenStep.of_outside
    all_goals simp_all [connecting, IsConnecting, ServerShared.returned, ServerShared.report]
  · exact TokenStep.of_outside (by simp [connecting])
      (by simp [(nextShut_outside sh q).1]) (by simp [IsConnecting, (nextShut_keeps sh q).state])
  · exact TokenStep.of_outside (by simp [hplain.1]) (by simp [hplain'.1]) Iff.rfl

theorem AcceptMove.closing {q : AcceptPc} (h : AcceptMove sh q sh' p')
    (hp : (ServerPc.accept q).connecting = true → IsConnecting sh) :
    TokenStep IsClosing (fun p : ServerPc => p.closing = true) sh (.accept q) sh' p' := by
  have hq : ¬ (ServerPc.accept q).closing = true := by simp [ServerPc.closing]
  cases h with
  | stay hstate hviolations hconn hclos =>
    exact .of_outside hq (by simp [hclos]) (by rw [IsClosing, hstate, IsClosing])
  | begin hq' hclosed hconn hclos =>
    exact .of_outside hq (by simp [hclos]) (by simp [IsClosing, hclosed])
  | finish newState v hq' hnew hconn hclos =>
    have hnot : ¬ IsClosing sh := by
      have hconnecting : sh.connectionState = .connecting := hp hq'
      simp [IsClosing, hconnecting]
    by_cases hclosing : newState = .closing
    · exact .of_enter hq (by simp [hclos, hclosing]) hnot hclosing
    · exact .of_outside hq (by simp [hclos, hclosing]) (iff_of_false hclosing hnot)
  | refuse v hq' hconnecting => exact .of_outside hq (by simp [ServerPc.closing]) Iff.rfl

theorem serverNext_closing (hconn : p.connecting = true → IsConnecting sh)
    (hclos : p.closing = true → IsClosing sh)
    (h : serverNext validateCb t sh p i = some (sh', p')) :
    TokenStep IsClosing (fun p : ServerPc => p.closing = true) sh p sh' p' := by
  rcases serverNext_cases h with ⟨q, rfl, rfl, rfl⟩ | ⟨caller, q, rfl, rfl, rfl⟩ |
    ⟨q, rfl, rfl, rfl⟩ | ⟨hplain, hplain', b, rfl⟩
  · exact (acceptMove validateCb sh i q).closing hconn
  · fun_cases nextClose sh caller q
    case case1 hopened =>
      exact .of_enter (by simp [ServerPc.closing]) rfl (by simp [IsClosing, hopened]) rfl
    case case2 =>
      exact .of_outside (by simp [ServerPc.closing]) (by simp [ServerPc.closing]) Iff.rfl
    case case6 =>
      exact .of_exit rfl (by simp [ServerPc.closing]) (by simp [IsClosing, ServerShared.returned])
    case case7 hclosing => exact absurd (hclos rfl) hclosing
    all_goals exact .of_inside rfl rfl (hclos rfl)
  · exact TokenStep.of_outside (by simp [ServerPc.closing])
      (by simp [(nextShut_outside sh q).2]) (by simp [IsClosing, (nextShut_keeps sh q).state])
  · exact TokenStep.of_outside (by simp [hplain.2.1]) (by simp [hplain'.2.1]) Iff.rfl

end Tokens

/-! ### The connection state is owned -/

variable {validateCb : Option (HttpRequest → Bool)} {i : ServerInput} {p' : ServerPc}

theorem serverNext_ofThread {t : ServerThread} {sh sh' : ServerShared} (hp : p.OfThread t)
    (h : serverNext validateCb t sh p i = some (sh', p')) : p'.OfThread t := by
  rcases serverNext_cases h with ⟨q, rfl, rfl, rfl⟩ | ⟨caller, q, rfl, rfl, rfl⟩ |
    ⟨q, rfl, rfl, rfl⟩ | ⟨-, hplain, -⟩
  · -- the accepting thread may be anywhere
    generalize (nextAccept validateCb sh i q).2 = p'
    cases p' <;> trivial
  · fun_cases nextClose sh caller q <;> trivial
  · obtain h | ⟨q', h⟩ | h := nextShut_target sh q
    all_goals rw [h]
    all_goals trivial
  · exact hplain.2.2.2

/-- Who owns the connection state. -/
structure Owned (s : ServerThreads) : Prop where
  role : ∀ t, (s.pcs t).OfThread t
  connecting : HasToken IsConnecting (fun p : ServerPc => p.connecting = true) s
  closing : HasToken IsClosing (fun p : ServerPc => p.closing = true) s

namespace Owned

variable {validateCb : Option (HttpRequest → Bool)} {s s' : ServerThreads} {t : ServerThread}
  {i : ServerInput}

theorem connecting_of (h : Owned s) (ht : (s.pcs t).connecting = true) :
    s.shared.connectionState = .connecting :=
  h.connecting.tok_iff.mpr ⟨t, ht⟩

theorem closing_of (h : Owned s) (ht : (s.pcs t).closing = true) :
    s.shared.connectionState = .closing :=
  h.closing.tok_iff.mpr ⟨t, ht⟩

theorem accepting_of (h : Owned s) (hs : s.shared.connectionState = .connecting) :
    (s.pcs .accepting).connecting = true := by
  obtain ⟨t, ht⟩ := h.connecting.tok_iff.mp hs
  rwa [← (h.role t).accepting_of_connecting ht]

theorem step (h : Owned s) (hs : s.step (serverNext validateCb) t i = some s') : Owned s' where
  role := forall_pcs_step (fun _ _ _ _ _ _ => serverNext_ofThread) h.role hs
  connecting := h.connecting.step (fun _ _ => serverNext_connecting h.connecting_of) hs
  closing := h.closing.step (fun _ _ => serverNext_closing h.connecting_of h.closing_of) hs

theorem not_connecting_of (h : Owned s) {q : AcceptPc} (ht : s.pcs t = .accept q)
    (hq : (ServerPc.accept q).connecting = false) : s.shared.connectionState ≠ .connecting := by
  intro hs
  have hrole := h.role t
  rw [ht] at hrole
  obtain rfl : t = .accepting := hrole
  have hacc := h.accepting_of hs
  rw [ht, hq] at hacc
  cases hacc

end Owned

/-! ### No violation -/

variable {s : ServerThreads}

/-- **No branch that reports a violation is taken.** -/
theorem serverNext_violations {t : ServerThread} {sh' : ServerShared} (ho : Owned s)
    (h : serverNext validateCb t s.shared (s.pcs t) i = some (sh', p')) :
    sh'.violations = s.shared.violations := by
  have hconn : (s.pcs t).connecting = true → s.shared.connectionState = .connecting :=
    ho.connecting_of
  have hclos : (s.pcs t).closing = true → s.shared.connectionState = .closing := ho.closing_of
  have hfree : ∀ q, s.pcs t = .accept q → (ServerPc.accept q).connecting = false →
      s.shared.connectionState ≠ .connecting := fun q => ho.not_connecting_of
  rcases serverNext_cases h with ⟨q, hq, rfl, rfl⟩ | ⟨caller, q, hq, rfl, rfl⟩ |
    ⟨q, hq, rfl, rfl⟩ | ⟨-, -, b, rfl⟩
  · rw [hq] at hconn
    have hmove := acceptMove validateCb s.shared i q
    generalize nextAccept validateCb s.shared i q = r at hmove ⊢
    obtain ⟨sh', p'⟩ := r
    cases hmove with
    | stay hstate hviolations => exact hviolations
    | begin => rfl
    | finish newState v hq' => simp [hconn hq']
    | refuse v hq' hconnecting => exact absurd hconnecting (hfree q hq hq')
  · rw [hq] at hclos
    fun_cases nextClose s.shared caller q
    case case7 hclosing => exact absurd (hclos rfl) hclosing
    all_goals rfl
  · exact (nextShut_keeps s.shared q).violations
  · rfl

/-! ### Sockets -/

/-- Connecting, but before a socket can have been accepted. -/
def ServerPc.early : ServerPc → Bool
  | .accept (.reloadServerUp _) | .accept .backOff | .accept .accept | .accept .acceptExited => true
  | _ => false

/-- Before a socket is installed or after it has been closed. -/
def ServerPc.unset : ServerPc → Bool
  | .accept (.setConnectionSocket _) | .close _ .exchangeClosed => true
  | _ => false

/-- After the handshake's `recv` the socket is installed. -/
theorem ServerPc.region_of (h : p.early = true ∨ p.unset = true) :
    p.connecting = true ∨ p.closing = true := by
  rcases h with h | h
  · unfold early at h
    split at h
    case h_5 => cases h
    all_goals exact .inl rfl
  · unfold unset at h
    split at h
    · exact .inl rfl
    · exact .inr rfl
    · cases h

/-- Sockets that were installed and closed, one after the other. -/
def closedSockets (fds : List Nat) : List FdEvent :=
  fds.flatMap fun fd => [.installed fd, .closed fd]

/-- Every installed socket has been closed, except the current one. -/
def Balanced (sh : ServerShared) : Prop :=
  ∃ fds, sh.fdLog = closedSockets fds ++ (sh.connectionFd.map FdEvent.installed).toList

/-- When the connection has no socket.  A server that was given one end of a
socket pair has it from the start, but then it has no descriptor to accept
on. -/
structure Sockets (paired : Prop) (s : ServerThreads) : Prop where
  served : paired → s.shared.serverFd = none
  closed : s.shared.connectionState = .closed → s.shared.connectionFd = none ∨ paired
  early : ∀ t, (s.pcs t).early = true → s.shared.connectionFd = none ∨ paired
  unset : ∀ t, (s.pcs t).unset = true → s.shared.connectionFd = none
  balanced : Balanced s.shared

/-- What one step does to the socket, seen from its own thread. -/
structure SocketStep (paired : Prop) (sh : ServerShared) (p : ServerPc) (sh' : ServerShared)
    (p' : ServerPc) : Prop where
  served : paired → sh'.serverFd = none
  closed : sh'.connectionState = .closed → sh'.connectionFd = none ∨ paired
  early : p'.early = true → sh'.connectionFd = none ∨ paired
  unset : p'.unset = true → sh'.connectionFd = none
  balanced : Balanced sh'
  /-- Only installing sets it. -/
  kept : sh'.connectionFd = sh.connectionFd ∨ sh'.connectionFd = none ∨
    ∃ fd, p = .accept (.setConnectionSocket fd)

section SocketSteps

variable {paired : Prop} {validateCb : Option (HttpRequest → Bool)} {sh : ServerShared}

theorem Balanced.install (hb : Balanced sh) (hfd : sh.connectionFd = none) (fd : Nat) :
    Balanced { sh with connectionFd := some fd, fdLog := sh.fdLog ++ [.installed fd] } := by
  obtain ⟨fds, hlog⟩ := hb
  exact ⟨fds, by simp [hlog, hfd]⟩

theorem Balanced.close (hb : Balanced sh) :
    Balanced { sh with
      connectionFd := none
      fdLog := sh.fdLog ++ (sh.connectionFd.map FdEvent.closed).toList } := by
  obtain ⟨fds, hlog⟩ := hb
  rcases hfd : sh.connectionFd with - | fd
  · exact ⟨fds, by simp [hlog, hfd]⟩
  · exact ⟨fds ++ [fd], by simp [hlog, hfd, closedSockets]⟩

variable (hserved : paired → sh.serverFd = none)
  (hclosed : sh.connectionState = .closed → sh.connectionFd = none ∨ paired)
  (hb : Balanced sh)
include hserved hclosed hb

theorem nextAccept_socket (i : ServerInput) (q : AcceptPc)
    (hconn : (ServerPc.accept q).connecting = true → sh.connectionState = .connecting)
    (hearly : (ServerPc.accept q).early = true → sh.connectionFd = none ∨ paired)
    (hunset : (ServerPc.accept q).unset = true → sh.connectionFd = none) :
    SocketStep paired sh (.accept q) (nextAccept validateCb sh i q).1
      (nextAccept validateCb sh i q).2 := by
  fun_cases nextAccept validateCb sh i q
  case case14 fd =>
    -- the one step that installs a socket; the state is CONNECTING then
    exact ⟨hserved, fun h => (nomatch (hconn rfl).symm.trans h), nofun, nofun,
      hb.install (hunset rfl) fd, .inr (.inr ⟨fd, rfl⟩)⟩
  case case15 msgBuf =>
    obtain h | h | h := handShakeReceived_cases validateCb msgBuf
    all_goals
      rw [h]
      exact ⟨hserved, hclosed, nofun, nofun, hb, .inl rfl⟩
  all_goals
    refine ⟨hserved, ?_, ?_, ?_, hb, .inl rfl⟩
    all_goals simp_all [early, unset, ServerShared.leaveConnecting, ServerShared.report]

/-- A step that does not touch the connection, to a point that does not rely on
the socket being unset. -/
theorem SocketStep.of_keeps {sh' : ServerShared} {p p' : ServerPc} (h : KeepsConnection sh sh')
    (hearly : p'.early = false) (hunset : p'.unset = false) : SocketStep paired sh p sh' p' where
  served hp := h.served.elim (fun hs => hs.trans (hserved hp)) id
  closed hst := by
    rw [h.state] at hst
    rw [h.fd]
    exact hclosed hst
  early he := absurd he (by simp [hearly])
  unset hu := absurd hu (by simp [hunset])
  balanced := by
    obtain ⟨fds, hlog⟩ := hb
    exact ⟨fds, by rw [h.log, h.fd, hlog]⟩
  kept := .inl h.fd

theorem nextClose_socket (caller : CloseCaller) (q : ClosePc)
    (hunset : (close caller q).unset = true → sh.connectionFd = none) :
    SocketStep paired sh (.close caller q) (nextClose sh caller q).1 (nextClose sh caller q).2 := by
  fun_cases nextClose sh caller q
  case case1 hopened => exact ⟨hserved, nofun, nofun, nofun, hb, .inl rfl⟩
  case case5 =>
    exact ⟨hserved, fun _ => .inl rfl, nofun, fun _ => rfl, hb.close, .inr (.inl rfl)⟩
  case case6 hclosing =>
    exact ⟨hserved, fun _ => .inl (hunset rfl), nofun, nofun, hb, .inl rfl⟩
  case case7 hclosing => exact ⟨hserved, hclosed, nofun, nofun, hb, .inl rfl⟩
  all_goals exact .of_keeps hserved hclosed hb ⟨rfl, rfl, rfl, rfl, .inl rfl⟩ rfl rfl

theorem nextShut_socket (q : ShutPc) :
    SocketStep paired sh (.shut q) (nextShut sh q).1 (nextShut sh q).2 := by
  apply SocketStep.of_keeps hserved hclosed hb (nextShut_keeps sh q)
  all_goals obtain h | ⟨q', h⟩ | h := nextShut_target sh q
  all_goals rw [h]
  all_goals rfl

end SocketSteps

section SocketRuns

variable {paired : Prop} {validateCb : Option (HttpRequest → Bool)} {s s' : ServerThreads}
  {t : ServerThread} {i : ServerInput}

theorem serverNext_socket (ho : Owned s) (h : Sockets paired s) {sh' : ServerShared}
    (hn : serverNext validateCb t s.shared (s.pcs t) i = some (sh', p')) :
    SocketStep paired s.shared (s.pcs t) sh' p' := by
  have hconn : (s.pcs t).connecting = true → s.shared.connectionState = .connecting :=
    ho.connecting_of
  have hearly := h.early t
  have hunset := h.unset t
  rcases serverNext_cases hn with ⟨q, hq, rfl, rfl⟩ | ⟨caller, q, hq, rfl, rfl⟩ |
    ⟨q, hq, rfl, rfl⟩ | ⟨hplain, hplain', b, rfl⟩
  · rw [hq] at hconn hearly hunset ⊢
    exact nextAccept_socket h.served h.closed h.balanced i q hconn hearly hunset
  · rw [hq] at hunset ⊢
    exact nextClose_socket h.served h.closed h.balanced caller q hunset
  · rw [hq]
    exact nextShut_socket h.served h.closed h.balanced q
  · -- `Decode` and `SendReply` do not touch the sockets and enter no region
    have hnot : ¬ (p'.early = true ∨ p'.unset = true) := by
      intro hregion
      simpa [hplain'.1, hplain'.2.1] using region_of hregion
    rw [not_or, Bool.not_eq_true, Bool.not_eq_true] at hnot
    exact .of_keeps h.served h.closed h.balanced ⟨rfl, rfl, rfl, rfl, .inl rfl⟩ hnot.1 hnot.2

theorem Sockets.step (ho : Owned s) (h : Sockets paired s)
    (hs : s.step (serverNext validateCb) t i = some s') : Sockets paired s' := by
  obtain ⟨sh', p', hn, rfl⟩ := step_eq_some hs
  have hstep := serverNext_socket ho h hn
  -- another thread relies on the socket being unset only where `t` cannot install one
  have hother : ∀ u, u ≠ t → (s.pcs u).early = true ∨ (s.pcs u).unset = true →
      sh'.connectionFd = s.shared.connectionFd ∨ sh'.connectionFd = none := by
    intro u hu hreg
    rcases hstep.kept with hk | hk | ⟨fd, hinst⟩
    · exact .inl hk
    · exact .inr hk
    · -- `t` owns CONNECTING, so `u` neither connects nor closes
      have ht : (s.pcs t).connecting = true := by rw [hinst]; rfl
      rcases region_of hreg with hc | hc
      · exact absurd (ho.connecting.unique u t hc ht) hu
      · have hst := ho.closing_of hc
        rw [ho.connecting_of ht] at hst
        cases hst
  refine ⟨hstep.served, hstep.closed, ?_, ?_, hstep.balanced⟩
  · refine (Function.forall_update_iff s.pcs
      fun _ p => p.early = true → sh'.connectionFd = none ∨ paired).mpr ⟨hstep.early, ?_⟩
    intro u hut hu
    rcases hother u hut (.inl hu) with hk | hk
    · rw [hk]
      exact h.early u hu
    · exact .inl hk
  · refine (Function.forall_update_iff s.pcs
      fun _ p => p.unset = true → sh'.connectionFd = none).mpr ⟨hstep.unset, ?_⟩
    intro u hut hu
    rcases hother u hut (.inr hu) with hk | hk
    · rw [hk]
      exact h.unset u hu
    · exact hk

end SocketRuns

/-! ### Runs -/

/-- What holds in every reachable state. -/
structure Lifecycle (paired : Prop) (s : ServerThreads) : Prop where
  owned : Owned s
  sockets : Sockets paired s
  violations : s.shared.violations = []

variable {s' : ServerThreads} {paired : Prop}

theorem Lifecycle.step {t : ServerThread} (h : Lifecycle paired s)
    (hs : s.step (serverNext validateCb) t i = some s') : Lifecycle paired s' where
  owned := h.owned.step hs
  sockets := h.sockets.step h.owned hs
  violations := by
    obtain ⟨sh', p', hn, rfl⟩ := step_eq_some hs
    rw [← h.violations, ← serverNext_violations h.owned hn]

theorem Lifecycle.initial (h : s.Initial) : Lifecycle (s.shared.connectionFd ≠ none) s := by
  rcases h with ⟨fd, rfl⟩ | ⟨fd, rfl⟩
  all_goals
    refine ⟨⟨fun _ => trivial, ⟨?_, ?_⟩, ⟨?_, ?_⟩⟩,
      ⟨?_, fun _ => Classical.em _, nofun, nofun, [], rfl⟩, rfl⟩
    all_goals simp [IsConnecting, IsClosing, connecting, ServerPc.closing,
      ServerThreads.listening, ServerThreads.socketpair]

theorem Lifecycle.reaches (h : Lifecycle paired s) (hr : Reaches (serverNext validateCb) s s') :
    Lifecycle paired s' :=
  hr.invariant (fun _ _ _ _ => Lifecycle.step) h

/-- **The connection's life cycle.**  In every interleaving, from a server that
listens or has been given one end of a socket pair:

* the state leaves CONNECTING only by a step of the accepting thread;
* the exchange from CLOSING to CLOSED succeeds wherever it is made;
* no branch that reports a violation is taken;
* every socket is closed once, before the next one is installed, and none that
  `AcceptNewConnection` has installed is left when the state is CLOSED. -/
theorem connection_lifecycle (validateCb : Option (HttpRequest → Bool)) (s₀ s : ServerThreads)
    (h₀ : s₀.Initial) (h : Reaches (serverNext validateCb) s₀ s) :
    (∀ t i s', s.step (serverNext validateCb) t i = some s' →
      s.shared.connectionState = .connecting → s'.shared.connectionState ≠ .connecting →
      t = .accepting) ∧
    (∀ t caller, s.pcs t = .close caller .exchangeClosed →
      s.shared.connectionState = .closing) ∧
    s.shared.violations = [] ∧
    (∃ fds, s.shared.fdLog
      = closedSockets fds ++ (s.shared.connectionFd.map FdEvent.installed).toList) ∧
    (s.shared.connectionState = .closed → s₀.shared.connectionFd = none →
      s.shared.connectionFd = none) := by
  have hl := (Lifecycle.initial h₀).reaches h
  refine ⟨?_, ?_, hl.violations, hl.sockets.balanced, ?_⟩
  · intro t i s' hs hst hst'
    by_contra hne
    -- the accepting thread has not moved, so it still owns CONNECTING
    have hpc : s'.pcs .accepting = s.pcs .accepting := by
      obtain ⟨sh', p', -, rfl⟩ := step_eq_some hs
      simp [Ne.symm hne]
    have hacc := hl.owned.accepting_of hst
    rw [← hpc] at hacc
    exact hst' ((hl.step hs).owned.connecting_of hacc)
  · -- a thread that is about to make the exchange owns CLOSING
    intro t caller hpc
    exact hl.owned.closing_of (t := t) (by rw [hpc]; rfl)
  · intro hst hfd
    exact (hl.sockets.closed hst).resolve_right fun hp => hp hfd

/-- A connection whose client closes it before it sends a request. -/
def failedAccept : List (ServerThread × ServerInput) :=
  [(.accepting, .call (.accept (.loadServerUp .acceptNewConnection))), (.accepting, .ok),
    (.accepting, .ok), (.accepting, .ok), (.accepting, .accepted 5), (.accepting, .ok),
    (.accepting, .recv []), (.accepting, .ok), (.accepting, .ok), (.accepting, .ok),
    (.accepting, .ok)]

theorem failedAccept_lifecycle :
    ∃ s, Reaches (serverNext none) (ServerThreads.listening 3) s ∧
      s.shared.fdLog = [.installed 5, .closed 5] ∧ s.shared.violations = [] := by
  refine ⟨_, ⟨failedAccept, rfl⟩, by decide, ?_⟩
  exact (connection_lifecycle none (ServerThreads.listening 3) _ (.inl ⟨3, rfl⟩)
    ⟨failedAccept, rfl⟩).2.2.1

end ArkToolchain
