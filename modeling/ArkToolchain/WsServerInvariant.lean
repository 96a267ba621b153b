/-
What holds while `StopServer` closes the socket of `WsServer`.

`Close` shuts the sockets down before it waits for the server thread, and after it has seen
CONNECTING no further connection is accepted.  So a `recv` of the server thread waits for its
client only as long as the connection is open or `Close` is about to shut it down, and the
socket for which `Close` waits is the one that it has shut down.

Main result: `socket_regions`.
-/
import ArkToolchain.WsServerThreads

namespace ArkToolchain

open WsPc ServerPc

open Threads

/-! ### Regions of the code -/

/-- In `WaitConnectingStateEnds`. -/
def ServerPc.waits : ServerPc → Bool
  | .shut .waitShutdown | .shut (.waitReload _) => true
  | _ => false

def ServerPc.entering : ServerPc → Bool
  | .accept (.loadServerUp _) | .accept (.exchangeConnecting _) => true
  | _ => false

section Calls

variable {validateCb : Option (HttpRequest → Bool)} {role : ServerThread} {sh sh' : ServerShared}
  {p p' : ServerPc} {i : ServerInput}

theorem ServerPc.of_entering (h : p.entering = true) :
    p.role = some .accepting ∧ p.connecting = false := by
  unfold entering at h
  split at h
  · exact ⟨rfl, rfl⟩
  · exact ⟨rfl, rfl⟩
  · cases h

theorem ServerPc.role_of_shutting (h : p.shutting = true) : p.role = some (.other 0) := by
  unfold shutting at h
  split at h
  · cases h
  · rfl
  · rfl
  · cases h

theorem ServerPc.role_of_receives (h : p.receives = true) : p.role = some .decoding := by
  unfold receives at h
  split at h
  · rfl
  · rfl
  · rfl
  · rfl
  · cases h

/-- What a step of the server thread does to the connection. -/
structure RunStep (sh : ServerShared) (p : ServerPc) (sh' : ServerShared) (p' : ServerPc) :
    Prop where
  entering : p'.entering = true → p.entering = true
  connecting : sh'.connectionState = .connecting →
    sh.connectionState = .connecting ∨ p.entering = true
  receives : p'.receives = true → sh' = sh ∧ (p.receives = true ∨ sh.connectionState = .opened)
  /-- The socket changes where it is installed or closed. -/
  fd : sh'.connectionFd = sh.connectionFd ∨ p.unset = true ∨ p.closing = true

theorem nextAccept_runStep (i : ServerInput) (q : AcceptPc) :
    RunStep sh (.accept q) (nextAccept validateCb sh i q).1 (nextAccept validateCb sh i q).2 := by
  fun_cases nextAccept validateCb sh i q
  case case15 msgBuf =>
    refine ⟨fun he => ?_, .inl, fun hr => ?_, .inl rfl⟩
    · obtain h | h | h := handShakeReceived_cases validateCb msgBuf
      all_goals
        rw [h] at he
        cases he
    · cases role_of_receives hr
  all_goals constructor
  all_goals simp_all [entering, receives, unset, ServerShared.report, ServerShared.leaveConnecting]

theorem runStep (hrole : role.thread = .server) (hp : p.role = some role)
    (h : serverNext validateCb role sh p i = some (sh', p')) : RunStep sh p sh' p' := by
  cases p with
  | idle | reply q => cases hp
  | shut q =>
    cases hp
    cases hrole
  | accept q =>
    obtain ⟨rfl, rfl⟩ := Prod.ext_iff.mp (Option.some.inj h)
    exact nextAccept_runStep i q
  | close caller q =>
    obtain ⟨rfl, rfl⟩ := Prod.ext_iff.mp (Option.some.inj h)
    fun_cases nextClose sh caller q
    all_goals constructor
    all_goals simp_all [entering, receives, closing, ServerShared.report, ServerShared.returned]
  | decode q =>
    obtain ⟨rfl, rfl⟩ := Prod.ext_iff.mp (Option.some.inj h)
    refine ⟨fun he => ?_, .inl, fun hr => ⟨rfl, ?_⟩, .inl rfl⟩
    · -- `Decode` does not accept
      obtain hidle | hdecoding := role_nextDecode sh i q
      · simp [hidle, entering] at he
      · rw [(of_entering he).1] at hdecoding
        cases hdecoding
    · cases q with
      | loadState =>
        rw [nextDecode] at hr
        split at hr
        next hopened => exact .inr hopened
        next => cases hr
      | sendPongFrame => cases hr
      | _ => exact .inl rfl

end Calls

/-! ### The sockets of the system -/

/-- What is known of the sockets while `StopServer` runs. -/
structure WsShuts (ws : SocketState) (server stopper : WsPc) : Prop where
  serverShut : stopper.call = .shut .getConnectionState ∨ stopper.call.waits = true →
    ws.serverShut = true
  /-- After CONNECTING has been seen no further connection is accepted. -/
  late : stopper.call.waits = true → server.call.entering = false
  waited : stopper.call = .shut (.waitReload true) → ws.server.connectionState = .connecting →
    ws.server.connectionFd ≠ none ∧ ws.connectionShut = true
  /-- A `recv` waits for the client, or returns now or after the next steps of `Close`. -/
  received : server.call.receives = true → ws.server.connectionState = .opened
    ∨ stopper.call = .close .close .sendCloseFrame ∨ stopper.call = .close .close .shutdownSocket
    ∨ ws.Unblocked
  closes : stopper.call = .close .close .closeSocket → ws.connectionShut = true
  down : stopper = .unlocking ∨ stopper = .joining → ws.server.serverUp = false

/-- What holds in every state. -/
structure WsInv (config : WsConfig) (s : WsThreads) : Prop where
  flags : WsFlags config s.shared (s.pcs .server) (s.pcs .stopper)
  good : ∀ ws, s.shared.webSocket = some ws → WsGood ws s
  shuts : ∀ ws, s.shared.webSocket = some ws → WsShuts ws (s.pcs .server) (s.pcs .stopper)

namespace WsInv

variable {config : WsConfig} {s s' : WsThreads} {t : SocketThread} {i : ServerInput}
  {ws ws' : SocketState}

theorem owner (h : WsInv config s) (t : SocketThread) : (s.pcs t).owner = some t := by
  cases t with
  | server => exact h.flags.server_owner
  | stopper => exact h.flags.stopper_owner

/-- Before the server is terminated `StopServer` has not begun. -/
theorem stopping (h : WsInv config s) (hterminate : s.shared.terminateExecution = false) :
    s.pcs .stopper = .stopping := by
  by_contra hne
  rw [h.flags.terminate hne] at hterminate
  cases hterminate

end WsInv

section Moved

variable {ws : SocketState} {p : ServerPc} (server : ServerShared)

theorem moved_serverShut (h : ws.serverShut = true) : (ws.moved p server).serverShut = true := by
  simp [SocketState.moved, h]

theorem moved_connectionShut (hp : ∀ fd, p ≠ .accept (.setConnectionSocket fd))
    (h : ws.connectionShut = true) : (ws.moved p server).connectionShut = true := by
  unfold SocketState.moved
  split
  next fd => exact absurd rfl (hp fd)
  · rfl
  · simp [h]
  · exact h

theorem unblocked_moved (hp : ∀ fd, p ≠ .accept (.setConnectionSocket fd))
    (hfd : ws.server.connectionFd = none → server.connectionFd = none) (h : ws.Unblocked) :
    (ws.moved p server).Unblocked :=
  h.imp (moved_connectionShut server hp) hfd

end Moved

namespace WsShuts

variable {config : WsConfig} {s s' : WsThreads} {i : ServerInput} {ws ws' : SocketState}
  {p p' : ServerPc}

theorem server_call (hinv : WsInv config s) (hpc : s.pcs .server = .calling p)
    (hws : s.shared.webSocket = some ws) (hnext : ws.next config.validateCb p i = some (ws', p')) :
    WsShuts ws' (.proceed p p') (s.pcs .stopper) := by
  obtain ⟨role, server, hrole, hserver, rfl⟩ := SocketState.next_eq_some hnext
  have h := hinv.shuts ws hws
  have hgood := hinv.good ws hws
  have hcall : (s.pcs .server).call = p := by rw [hpc]; rfl
  have hrun : RunStep ws.server p server p' := by
    have howner := hinv.owner .server
    rw [hpc, owner, hrole] at howner
    exact runStep (Option.some.inj howner) hrole hserver
  -- where a socket is installed the state is CONNECTING
  have hinstall : ws.server.connectionState ≠ .connecting →
      ∀ fd, p ≠ .accept (.setConnectionSocket fd) := by
    rintro hst fd rfl
    exact hst (hgood.connecting_of (hinv.owner .server) (by rw [hcall]; rfl))
  refine ⟨fun hc => moved_serverShut server (h.serverShut hc), fun hw => ?_, fun hw hst => ?_,
    fun hr => ?_, fun hc => ?_, fun hd => ?_⟩
  · rw [call_proceed, Bool.eq_false_iff]
    intro hentering
    have hlate := h.late hw
    rw [hcall, hrun.entering hentering] at hlate
    cases hlate
  · have hlate : p.entering = false := by
      rw [← hcall]
      exact h.late (by rw [hw]; rfl)
    have hold : ws.server.connectionState = .connecting :=
      (hrun.connecting hst).resolve_right (by simp [hlate])
    obtain ⟨hfd, hshut⟩ := h.waited hw hold
    have hunset : ¬ p.unset = true := by
      intro hunset
      exact hfd (hgood.fd_of_unset (hinv.owner .server) (by rw [hcall]; exact hunset))
    have hclosing : ¬ p.closing = true := by
      intro hclosing
      have hst' := hgood.closing_of (hinv.owner .server) (by rw [hcall]; exact hclosing)
      rw [hold] at hst'
      cases hst'
    have hsame := hrun.fd.resolve_right (not_or.mpr ⟨hunset, hclosing⟩)
    refine ⟨fun hnone => hfd (hsame.symm.trans hnone), moved_connectionShut server ?_ hshut⟩
    rintro fd rfl
    exact hunset rfl
  · rw [call_proceed] at hr
    obtain ⟨rfl, hbefore⟩ := hrun.receives hr
    obtain hreceives | hopened := hbefore
    · refine (h.received (by rwa [hcall])).imp_right (Or.imp_right (Or.imp_right fun hun => ?_))
      refine unblocked_moved _ ?_ id hun
      rintro fd rfl
      cases hreceives
    · exact .inl hopened
  · refine moved_connectionShut server (hinstall ?_) (h.closes hc)
    rw [hgood.closing_of (hinv.owner .stopper) (by rw [hc]; rfl)]
    simp
  · obtain hup | ⟨hup, -⟩ := (serverNext_shut hserver).up
    · exact hup.trans (h.down hd)
    · exact hup

/-- When `Close` returns the server is down. -/
theorem down_of_proceed {sh : ServerShared} (hinv : WsInv config s)
    (hpc : s.pcs .stopper = .calling p) (hws : s.shared.webSocket = some ws)
    (hstep : ShutStep ws.server p sh p')
    (hidle : p' = .idle → p.shutting = true ∨ ws.server.serverUp = false)
    (hd : proceed p p' = .unlocking ∨ proceed p p' = .joining) : sh.serverUp = false := by
  have hreturns : p' = .idle := by
    obtain heq | heq := hd
    · unfold proceed at heq
      split at heq
      · assumption
      · cases heq
    · exact absurd heq (ne_of_inside (inside_proceed p p') rfl)
  have hbefore : ws.server.serverUp = false := by
    obtain hshutting | hdown := hidle hreturns
    · exact (hinv.good ws hws).serverUp_of_shutting (hinv.owner .stopper)
        (by rw [hpc]; exact hshutting)
    · exact hdown
  obtain hup | ⟨hup, -⟩ := hstep.up
  · exact hup.trans hbefore
  · exact hup

variable (sh : ServerShared)

/-- Where `Close` goes. -/
theorem nextShut_goes (q : ShutPc) :
    ((nextShut sh q).2 = .shut .getConnectionState → q = .shutdownServer)
    ∧ ((nextShut sh q).2.waits = true →
      q = .getConnectionState ∧ sh.connectionState = .connecting ∨ (shut q).waits = true)
    ∧ ((nextShut sh q).2 = .shut (.waitReload true) →
      q = .waitShutdown ∧ sh.connectionFd ≠ none ∨ q = .waitReload true)
    ∧ (nextShut sh q).2 ≠ .close .close .closeSocket
    ∧ ((nextShut sh q).2 = .idle → (shut q).shutting = true ∨ sh.serverUp = false) := by
  fun_cases nextShut sh q
  all_goals simp_all [waits, shutting, Option.isSome_iff_ne_none]

/-- `Close` makes a step before it closes the connection. -/
theorem shut_call {q : ShutPc} (hinv : WsInv config s) (hpc : s.pcs .stopper = .calling (.shut q))
    (hws : s.shared.webSocket = some ws) :
    WsShuts (ws.moved (.shut q) (nextShut ws.server q).1) (s.pcs .server)
      (.proceed (.shut q) (nextShut ws.server q).2) := by
  have h := hinv.shuts ws hws
  have hgood := hinv.good ws hws
  have hkeeps := nextShut_keeps ws.server q
  obtain ⟨hstate, hwaits, hreload, hnotclose, hidle⟩ := nextShut_goes ws.server q
  rw [hpc] at h
  refine ⟨fun hc => ?_, fun hw => ?_, fun hw hst => ?_, fun hr => ?_, fun hc => ?_, fun hd => ?_⟩
  · rw [call_proceed] at hc
    obtain hc | hc := hc
    · simp [SocketState.moved, hstate hc]
    · apply moved_serverShut
      obtain ⟨rfl, -⟩ | hw := hwaits hc
      · exact h.serverShut (.inl rfl)
      · exact h.serverShut (.inr hw)
  · rw [call_proceed] at hw
    obtain ⟨rfl, hst⟩ | hw := hwaits hw
    · -- the server thread is past the exchange that made the state CONNECTING
      have hconnecting := hgood.server_connecting hst
      rw [Bool.eq_false_iff]
      intro hentering
      rw [(of_entering hentering).2] at hconnecting
      cases hconnecting
    · exact h.late hw
  · rw [call_proceed] at hw
    obtain ⟨rfl, hfd⟩ | rfl := hreload hw
    · refine ⟨fun hnone => hfd (hkeeps.fd.symm.trans hnone), ?_⟩
      simp [SocketState.moved, Option.isSome_iff_ne_none.mpr hfd]
    · obtain ⟨hfd, hshut⟩ := h.waited rfl (hkeeps.state.symm.trans hst)
      exact ⟨fun hnone => hfd (hkeeps.fd.symm.trans hnone), moved_connectionShut _ nofun hshut⟩
  · obtain hopened | hc | hc | hun := h.received hr
    · exact .inl (hkeeps.state.trans hopened)
    · cases hc
    · cases hc
    · exact .inr (.inr (.inr (unblocked_moved _ nofun (fun hnone => hkeeps.fd.trans hnone) hun)))
  · rw [call_proceed] at hc
    exact absurd hc hnotclose
  · exact down_of_proceed hinv hpc hws (nextShut_shut q) hidle hd

/-- Outside `Close`, at its beginning and where it closes the connection, `StopServer` has
no part in most of this. -/
theorem of_call {server stopper : WsPc}
    (hcall : ∀ q, stopper.call = .shut q → q = .exchangeServerUp)
    (hreceived : server.call.receives = true → ws.server.connectionState = .opened
      ∨ stopper.call = .close .close .sendCloseFrame
      ∨ stopper.call = .close .close .shutdownSocket ∨ ws.Unblocked)
    (hcloses : stopper.call = .close .close .closeSocket → ws.connectionShut = true)
    (hdown : stopper = .unlocking ∨ stopper = .joining → ws.server.serverUp = false) :
    WsShuts ws server stopper := by
  have hwaits : ¬ stopper.call.waits = true := by
    intro hw
    unfold waits at hw
    split at hw
    next hc => cases hcall _ hc
    next hc => cases hcall _ hc
    next => cases hw
  refine ⟨fun hc => ?_, fun hw => absurd hw hwaits, fun hc => (nomatch hcall _ hc), hreceived,
    hcloses, hdown⟩
  exact hc.elim (fun hc => nomatch hcall _ hc) fun hw => absurd hw hwaits

/-- Where `CloseConnection` goes. -/
theorem nextClose_goes (caller : CloseCaller) (q : ClosePc) :
    (∀ {q'}, (nextClose sh caller q).2 ≠ .shut q')
    ∧ ((nextClose sh caller q).2 = .close caller .closeSocket → q = .shutdownSocket) := by
  fun_cases nextClose sh caller q
  all_goals simp

/-- `Close` makes a step while it closes the connection. -/
theorem close_call {q : ClosePc} (hinv : WsInv config s)
    (hpc : s.pcs .stopper = .calling (.close .close q)) (hws : s.shared.webSocket = some ws) :
    WsShuts (ws.moved (.close .close q) (nextClose ws.server .close q).1) (s.pcs .server)
      (.proceed (.close .close q) (nextClose ws.server .close q).2) := by
  have hclosing : (close .close q).closing = true → ws.server.connectionState = .closing :=
    fun hc => (hinv.good ws hws).closing_of (hinv.owner .stopper) (by rw [hpc]; exact hc)
  have h := hinv.shuts ws hws
  rw [hpc] at h
  refine of_call (fun q' hc => ?_) (fun hr => ?_) (fun hc => ?_)
    (down_of_proceed hinv hpc hws (nextClose_shut .close q) fun _ => .inl rfl)
  · rw [call_proceed] at hc
    exact absurd hc (nextClose_goes ws.server .close q).1
  · -- a `recv` that waits while the connection is not open returns
    have hbefore : ws.server.connectionState ≠ .opened → q ≠ .sendCloseFrame →
        q ≠ .shutdownSocket → ws.Unblocked := by
      intro hst hsend hshut
      obtain hopened | hc | hc | hun := h.received hr
      · exact absurd hopened hst
      · cases hc
        exact absurd rfl hsend
      · cases hc
        exact absurd rfl hshut
      · exact hun
    fun_cases nextClose ws.server .close q
    case case1 hopened => exact .inr (.inl rfl)
    case case2 hopened =>
      have hun := hbefore hopened (by simp) (by simp)
      exact .inr (.inr (.inr (unblocked_moved _ (by simp) id hun)))
    case case3 => exact .inr (.inr (.inl rfl))
    case case4 => exact .inr (.inr (.inr (.inl rfl)))
    case case5 => exact .inr (.inr (.inr (.inr rfl)))
    case case6 hst =>
      have hnot : ws.server.connectionState ≠ .opened := by simp [hst]
      have hun := hbefore hnot (by simp) (by simp)
      exact .inr (.inr (.inr (unblocked_moved _ (by simp) id hun)))
    case case7 hst => exact absurd (hclosing rfl) hst
  · rw [call_proceed] at hc
    obtain rfl := (nextClose_goes ws.server .close q).2 hc
    rfl

theorem stopper_call {role : ServerThread} {server : ServerShared} (hinv : WsInv config s)
    (hpc : s.pcs .stopper = .calling p) (hws : s.shared.webSocket = some ws)
    (howner : (calling p).owner = some .stopper) (hrole : p.role = some role)
    (hserver : serverNext config.validateCb role ws.server p i = some (server, p')) :
    WsShuts (ws.moved p server) (s.pcs .server) (.proceed p p') := by
  cases p with
  | shut q =>
    obtain heq : nextShut ws.server q = (server, p') := Option.some.inj hserver
    have hshuts := shut_call hinv hpc hws
    rwa [heq] at hshuts
  | close caller q =>
    obtain heq : nextClose ws.server caller q = (server, p') := Option.some.inj hserver
    cases caller with
    | close =>
      have hshuts := close_call hinv hpc hws
      rwa [heq] at hshuts
    | _ => cases howner
  | _ => cases howner

theorem step (hinv : WsInv config s) {t : SocketThread} (hs : s.step (wsNext config) t i = some s')
    (hws' : s'.shared.webSocket = some ws') : WsShuts ws' (s'.pcs .server) (s'.pcs .stopper) := by
  obtain ⟨-, hstep, hkeep⟩ | ⟨-, hstep, hkeep⟩ := WsThreads.step_cases hs
  · -- a step of the server thread
    rw [hkeep]
    have howner := hinv.owner .server
    generalize hpc : s.pcs .server = pc at hstep howner
    generalize hpc' : s'.pcs .server = pc' at hstep
    generalize hsh' : s'.shared = sh' at hstep hws'
    cases hstep with
    | create hmutex hterminate =>
      rw [hinv.stopping hterminate]
      refine of_call nofun (fun hr => ?_) nofun nofun
      split at hr <;> cases hr
    | accept hterminate =>
      rw [hinv.stopping hterminate]
      exact of_call nofun nofun nofun nofun
    | call hws hnext =>
      obtain rfl := Option.some.inj hws'
      exact server_call hinv hpc hws hnext
    | stop | unlock | join | reset => cases howner
    | _ => exact { hinv.shuts ws' hws' with late := fun _ => rfl, received := nofun }
  · -- a step of `StopServer`
    rw [hkeep]
    have howner := hinv.owner .stopper
    have hshuts := hinv.shuts
    generalize hpc : s.pcs .stopper = pc at hstep howner hshuts
    generalize hpc' : s'.pcs .stopper = pc' at hstep
    generalize hsh' : s'.shared = sh' at hstep hws'
    cases hstep with
    | stop hmutex =>
      have hws : s.shared.webSocket = some ws' := hws'
      rw [hws]
      refine of_call (fun q hq => ?_) (fun hr => ?_) nofun nofun
      · cases hq
        rfl
      · obtain hopened | hc | hc | hun := (hshuts ws' hws).received hr
        · exact .inl hopened
        · cases hc
        · cases hc
        · exact .inr (.inr (.inr hun))
    | call hws hnext =>
      obtain rfl := Option.some.inj hws'
      obtain ⟨role, server, hrole, hserver, rfl⟩ := SocketState.next_eq_some hnext
      exact stopper_call hinv hpc hws howner hrole hserver
    | unlock =>
      have hold := hshuts ws' hws'
      exact of_call nofun hold.received nofun fun _ => hold.down (.inl rfl)
    | join => exact of_call nofun (hshuts ws' hws').received nofun nofun
    | reset => cases hws'
    | _ => cases howner

end WsShuts

namespace WsInv

variable {config : WsConfig} {s s' : WsThreads} {t : SocketThread} {i : ServerInput}

theorem created : WsInv config WsThreads.created where
  flags := by
    refine ⟨rfl, rfl, fun _ => rfl, fun h => absurd rfl h, fun _ => rfl, ?_, ?_, nofun,
      fun _ => rfl⟩
    · exact iff_of_false nofun nofun
    · rintro (h | h) <;> cases h
  good := nofun
  shuts := nofun

/-- Only the initialisation makes a socket. -/
theorem of_socket {sh sh' : WsShared} {pc pc' : WsPc} {ws' : SocketState}
    (h : WsStep config i sh pc sh' pc') (hws : sh.webSocket = none)
    (hws' : sh'.webSocket = some ws') :
    pc = .start ∧ sh.terminateExecution = false ∧ ws' = { server := initWebSocket config.call i }
      ∧ pc'.call = .idle := by
  cases h with
  | create hmutex hterminate =>
    exact ⟨rfl, hterminate, (Option.some.inj hws').symm, by split <;> rfl⟩
  | call hws₁ => cases hws.symm.trans hws₁
  | reset => cases hws'
  | _ => cases hws.symm.trans hws'

theorem good_step (h : WsInv config s) (hs : s.step (wsNext config) t i = some s')
    {ws' : SocketState} (hws' : s'.shared.webSocket = some ws') : WsGood ws' s' := by
  have hstart : ∀ t, s.pcs t = .start → t = .server := by
    intro t ht
    have howner := h.owner t
    rw [ht] at howner
    exact (Option.some.inj howner).symm
  rcases hws : s.shared.webSocket with - | ws
  · obtain ⟨-, hstep, hkeep⟩ | ⟨-, hstep, -⟩ := WsThreads.step_cases hs
    · obtain ⟨-, hterminate, rfl, hidle⟩ := of_socket hstep hws hws'
      apply WsGood.init config.call i
      intro t
      cases t with
      | server => exact hidle
      | stopper =>
        rw [hkeep, h.stopping hterminate]
        rfl
    · cases hstart .stopper (of_socket hstep hws hws').1
  · refine (h.good ws hws).step h.owner (fun t ht => ?_) hs hws hws'
    obtain rfl := hstart t ht
    exact h.flags.start ht

theorem step (h : WsInv config s) (hs : s.step (wsNext config) t i = some s') :
    WsInv config s' where
  flags := by
    obtain ⟨-, hstep, hkeep⟩ | ⟨-, hstep, hkeep⟩ := WsThreads.step_cases hs
    · rw [hkeep]
      exact h.flags.server_step hstep
    · rw [hkeep]
      exact h.flags.stopper_step hstep
  good _ hws' := h.good_step hs hws'
  shuts _ hws' := WsShuts.step h hs hws'

end WsInv

/-- **The state of the socket tells where the threads are**: only the server thread makes it
CONNECTING, a thread that closes the connection keeps it CLOSING, and `StopServer` waits for the
server thread only once the server is down. -/
theorem socket_regions (config : WsConfig) (schedule : List (SocketThread × ServerInput)) :
    Always (wsNext config) (fun s => ∀ ws ∈ s.shared.webSocket,
      (ws.server.connectionState = .connecting ↔ (s.pcs .server).call.connecting = true) ∧
      (∀ t, (s.pcs t).call.closing = true → ws.server.connectionState = .closing) ∧
      (∀ t, (s.pcs t).call.unset = true → ws.server.connectionFd = none) ∧
      (s.pcs .stopper = .joining → ws.server.serverUp = false))
      WsThreads.created schedule := by
  apply always_of_invariant (I := WsInv config) _ (fun _ _ _ _ => WsInv.step) WsInv.created
  intro s hs ws hws
  have hgood := hs.good ws hws
  exact ⟨⟨hgood.server_connecting, hgood.connecting_of (hs.owner _)⟩,
    fun t => hgood.closing_of (hs.owner t), fun t => hgood.fd_of_unset (hs.owner t),
    fun hpc => (hs.shuts ws hws).down (.inr hpc)⟩

end ArkToolchain
