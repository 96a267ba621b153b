/-
`StopServer` of `WsServer` returns, and the server thread and the socket are gone then.

The proof ranks the states.  `StopServer` goes on by itself, except where it waits for the
server thread: for the end of CONNECTING, for the connection lock and for the thread's end.
There the server thread is sure to go on, since its socket has been shut down, and comes closer
to the end of `RunServer` with every step.

Main result: `shutdown_terminates`, for fair runs.
-/
import ArkToolchain.Fairness
import ArkToolchain.WsServerInvariant

namespace ArkToolchain

open Threads InfiniteRun ServerPc WsPc

/-! ### The way to the end of `RunServer` -/

/-! How far a call of the server thread is from its end. -/

def AcceptPc.rank : AcceptPc → Nat
  | .loadServerUp _ => 15
  | .exchangeConnecting _ => 14
  | .reloadServerUp _ => 13
  | .accept => 12
  | .setConnectionSocket _ => 11
  | .httpHandShake => 10
  | .protocolUpgrade | .responseInvalidHandShake => 9
  | .backOff | .acceptExited | .handShakeFailed | .onNewConnection => 8

def ClosePc.rank : ClosePc → Nat
  | .exchangeClosing => 9
  | .sendCloseFrame => 8
  | .shutdownSocket => 7
  | .closeSocket => 6
  | .exchangeClosed => 5

def ServerPc.runRank : ServerPc → Nat
  | .accept q => q.rank
  | .decode q => q.rank
  | .close _ q => q.rank
  | _ => 0

/-- How far the server thread is from its end, once the server is terminated. -/
def WsPc.serverRank : WsPc → Nat
  | .calling p => p.runRank
  | .handling => 4
  | .testConnected => 3
  | .start | .testTerminate => 2
  | .leaving => 1
  | _ => 0

theorem ServerPc.runRank_le (p : ServerPc) : p.runRank ≤ 15 := by
  cases p with
  | accept q => cases q <;> simp [runRank, AcceptPc.rank]
  | decode q => cases q <;> simp [runRank, DecodePc.rank]
  | close caller q => cases q <;> simp [runRank, ClosePc.rank]
  | _ => simp [runRank]

theorem WsPc.serverRank_le (pc : WsPc) : pc.serverRank ≤ 15 := by
  cases pc with
  | calling p => exact p.runRank_le
  | _ => simp [serverRank]

theorem WsPc.serverRank_proceed_lt {p p' : ServerPc} {n : Nat} (hn : 4 < n)
    (h : p'.runRank < n) : (proceed p p').serverRank < n := by
  unfold proceed afterCall
  split
  · split
    · split <;> simp [serverRank] <;> omega
    · exact hn
    · simp [serverRank]
      omega
  · exact h

section Ranks

variable {validateCb : Option (HttpRequest → Bool)} {sh : ServerShared} {i : ServerInput}

theorem runRank_nextAccept (q : AcceptPc) : (nextAccept validateCb sh i q).2.runRank < q.rank := by
  fun_cases nextAccept validateCb sh i q
  case case15 msgBuf =>
    obtain h | h | h := handShakeReceived_cases validateCb msgBuf
    all_goals simp [h, runRank, AcceptPc.rank]
  all_goals simp [runRank, AcceptPc.rank, ClosePc.rank]

theorem runRank_nextClose (caller : CloseCaller) (q : ClosePc) :
    (nextClose sh caller q).2.runRank < q.rank := by
  fun_cases nextClose sh caller q
  all_goals simp [runRank, ClosePc.rank]

theorem runRank_nextDecode (q : DecodePc) : (nextDecode sh i q).runRank < q.rank := by
  refine nextDecode_of (P := fun p => p.runRank < q.rank) sh i ?_ ?_ fun _ h => h
  all_goals cases q <;> simp [runRank, DecodePc.rank, ClosePc.rank]

theorem serverRank_call {role : ServerThread} {sh' : ServerShared} {p p' : ServerPc}
    (hrole : role.thread = .server) (hp : p.role = some role)
    (h : serverNext validateCb role sh p i = some (sh', p')) :
    (proceed p p').serverRank < p.runRank := by
  cases p with
  | idle | reply q => cases hp
  | shut q =>
    cases hp
    cases hrole
  | accept q =>
    obtain rfl : (nextAccept validateCb sh i q).2 = p' := congrArg Prod.snd (Option.some.inj h)
    exact serverRank_proceed_lt (by cases q <;> simp [runRank, AcceptPc.rank])
      (runRank_nextAccept q)
  | decode q =>
    obtain rfl : nextDecode sh i q = p' := congrArg Prod.snd (Option.some.inj h)
    exact serverRank_proceed_lt (by cases q <;> simp [runRank, DecodePc.rank])
      (runRank_nextDecode q)
  | close caller q =>
    obtain rfl : (nextClose sh caller q).2 = p' := congrArg Prod.snd (Option.some.inj h)
    exact serverRank_proceed_lt (by cases q <;> simp [runRank, ClosePc.rank])
      (runRank_nextClose caller q)

end Ranks

/-- **The server thread comes closer to its end** with every step, when the server is
terminated and the connection is not open. -/
theorem WsStep.serverRank_lt {config : WsConfig} {i : ServerInput} {sh sh' : WsShared}
    {pc pc' : WsPc} (h : WsStep config i sh pc sh' pc') (howner : pc.owner = some .server)
    (hterminate : sh.terminateExecution = true)
    (hopened : ∀ ws, sh.webSocket = some ws → ws.server.connectionState ≠ .opened) :
    pc'.serverRank < pc.serverRank := by
  cases h with
  | create hmutex hnot | accept hnot => simp [hterminate] at hnot
  | decode hws hst => exact absurd hst (hopened _ hws)
  | call hws hnext =>
    obtain ⟨role, server, hrole, hserver, rfl⟩ := SocketState.next_eq_some hnext
    rw [WsPc.owner, hrole] at howner
    exact serverRank_call (Option.some.inj howner) hrole hserver
  | stop | unlock | join | reset => cases howner
  | _ => simp [serverRank]

/-! ### The rank of a state -/

/-- How far `StopServer` is from its end. -/
def WsPc.stopRank : WsPc → Nat
  | .stopping => 16
  | .calling (.shut .exchangeServerUp) => 15
  | .calling (.shut .shutdownServer) => 14
  | .calling (.shut .getConnectionState) => 13
  | .calling (.shut .waitShutdown) | .calling (.shut (.waitReload _)) => 12
  | .calling (.shut .closeServerEarly) | .calling (.shut (.closeServerLate _)) => 11
  | .calling (.close _ q) => q.rank + 1
  | .unlocking => 5
  | .joining => 4
  | .resetting => 1
  | _ => 0

/-- What `StopServer` may have to wait for: the end of CONNECTING (`position` is where it is
in its loop), the connection lock or the end of the server thread. -/
inductive Awaits
  | nothing
  | connecting (position : Nat)
  | lock
  | exit

def WsPc.awaits : WsPc → Awaits
  | .calling (.shut .waitShutdown) => .connecting 1
  | .calling (.shut (.waitReload connectionSocketWasShutdown)) =>
    .connecting (if connectionSocketWasShutdown then 0 else 2)
  | .calling (.close _ .closeSocket) => .lock
  | .joining => .exit
  | _ => .nothing

/-- Where `StopServer` is then. -/
theorem WsPc.awaits_cases (pc : WsPc) (howner : pc.owner = some .stopper) :
    (pc.awaits = .nothing ∧ (∀ caller, pc.call ≠ .close caller .closeSocket) ∧ pc ≠ .joining)
    ∨ (pc.call.waits = true ∧ ∃ position ≤ 2, pc.awaits = .connecting position)
    ∨ (pc = .calling (.close .close .closeSocket) ∧ pc.awaits = .lock)
    ∨ pc = .joining ∧ pc.awaits = .exit := by
  cases pc with
  | joining => exact .inr (.inr (.inr ⟨rfl, rfl⟩))
  | calling p =>
    cases p with
    | shut q =>
      cases q with
      | waitShutdown => exact .inr (.inl ⟨rfl, 1, by omega, rfl⟩)
      | waitReload shut => exact .inr (.inl ⟨rfl, _, by split <;> omega, rfl⟩)
      | _ => exact .inl ⟨rfl, nofun, nofun⟩
    | close caller q =>
      cases caller with
      | close =>
        cases q with
        | closeSocket => exact .inr (.inr (.inl ⟨rfl, rfl⟩))
        | _ => exact .inl ⟨rfl, nofun, nofun⟩
      | _ => cases howner
    | _ => cases howner
  | _ => exact .inl ⟨rfl, nofun, nofun⟩

namespace WsThreads

def Connecting (s : WsThreads) : Prop :=
  ∃ ws ∈ s.shared.webSocket, ws.server.connectionState = .connecting

/-- The server thread waits for the request of a client. -/
def HandshakeWaits (s : WsThreads) : Prop :=
  s.pcs .server = .calling (.accept .httpHandShake) ∧ ∃ ws ∈ s.shared.webSocket, ¬ ws.Unblocked

open Classical in
/-- What is left to do where `StopServer` waits. -/
noncomputable def waitRank (s : WsThreads) : Nat :=
  match (s.pcs .stopper).awaits with
  | .nothing => 0
  | .connecting position =>
    if s.Connecting then
      3 * (s.pcs .server).serverRank + 3 + (if s.HandshakeWaits then position else 0)
    else position % 2
  | .lock | .exit => (s.pcs .server).serverRank

noncomputable def rank (s : WsThreads) : Nat :=
  100 * (s.pcs .stopper).stopRank + s.waitRank

open Classical in
noncomputable def helpful (s : WsThreads) : SocketThread :=
  match (s.pcs .stopper).awaits with
  | .nothing => .stopper
  | .connecting _ => if s.Connecting ∧ ¬ s.HandshakeWaits then .server else .stopper
  | .lock => if (s.pcs .server).call.locks then .server else .stopper
  | .exit => if s.shared.exited then .stopper else .server

/-- The threads that are sure to go on: they get locks that are free, handlers return, and a
socket that has been shut down makes `accept` and `recv` return. -/
def Ready (t : SocketThread) (s : WsThreads) : Prop :=
  s.shared.aborted = false ∧
    match s.pcs t with
    | .start | .stopping => s.shared.wsMutex = false
    | .joining => s.shared.exited = true
    | .exited | .returned => False
    | .calling p =>
      ∀ ws ∈ s.shared.webSocket, ∀ u, u ≠ t → ws.Returns p (s.pcs u).call
    | _ => True

theorem waitRank_lt (s : WsThreads) : s.waitRank < 100 := by
  have hserver := (s.pcs .server).serverRank_le
  unfold waitRank
  split
  · omega
  next position hpos =>
    have hpos' : position ≤ 2 := by
      unfold awaits at hpos
      split at hpos
      · cases hpos
        omega
      · cases hpos
        split <;> omega
      all_goals
        cases hpos
    split
    · split <;> omega
    · omega
  · omega
  · omega

/-! ### Somebody goes on -/

variable {config : WsConfig} {s s' : WsThreads} {t : SocketThread} {i : ServerInput}
  {ws : SocketState} {p : ServerPc}

/-- A call that is sure to go on, or waits for a `send`. -/
theorem ready_of_calling (habort : s.shared.aborted = false) (hpc : s.pcs t = .calling p)
    (h : p.sends = false → ∀ ws ∈ s.shared.webSocket, ∀ u, u ≠ t → ws.Returns p (s.pcs u).call) :
    Ready t s ∨ (s.pcs t).call.sends = true := by
  by_cases hsends : p.sends = true
  · right
    rw [hpc]
    exact hsends
  · left
    refine ⟨habort, ?_⟩
    rw [hpc]
    exact h (by simpa using hsends)

/-- After `Close` the server is down. -/
theorem isDown_of_joining (h : WsInv config s) (hpc : s.pcs .stopper = .joining)
    (hws : s.shared.webSocket = some ws) : IsDown (s.view ws) := by
  refine ⟨(h.shuts ws hws).down (.inr hpc), fun role => ?_⟩
  rw [Bool.eq_false_iff]
  intro hshutting
  obtain heq | heq := view_pcs_eq ws s role
  · rw [heq] at hshutting
    have howner := h.owner role.thread
    generalize hpc' : s.pcs role.thread = pc at hshutting howner
    cases pc with
    | calling p =>
      -- then it would be a call of `StopServer`
      have hrole : p.role = some (.other 0) := role_of_shutting hshutting
      rw [WsPc.owner, hrole] at howner
      rw [← Option.some.inj howner] at hpc'
      cases hpc'.symm.trans hpc
    | _ => cases hshutting
  · rw [heq] at hshutting
    cases hshutting

section

variable (h : WsInv config s) (habort : s.shared.aborted = false)

include h habort

/-- While `StopServer` waits for its end, the server thread goes on. -/
theorem ready_server_of_joining (hpc : s.pcs .stopper = .joining)
    (hexited : s.shared.exited = false) : Ready .server s ∨ (s.pcs .server).call.sends = true := by
  have howner := h.owner .server
  obtain ⟨pc, hserver⟩ : ∃ pc, s.pcs .server = pc := ⟨_, rfl⟩
  cases pc with
  | calling p =>
    refine ready_of_calling habort hserver fun hsends ws hws u hu => ?_
    obtain rfl : u = .stopper := by
      cases u with
      | server => exact absurd rfl hu
      | stopper => rfl
    have hdown := isDown_of_joining h hpc hws
    obtain ⟨hpast, hst⟩ := (h.good ws hws).2.of_isDown hdown
    have hpast' : p.pastCheck = false := by
      obtain ⟨role, hrole⟩ := exists_view_pcs_eq ws howner
      rw [hserver] at hrole
      rw [← hpast role, hrole]
      rfl
    refine SocketState.returns_of hsends ?_ ?_ ?_ ?_
    · rintro rfl
      cases hpast'
    · rintro rfl
      cases hpast'
    · intro _ _
      rw [hpc]
      rfl
    · intro hr
      obtain hopened | hc | hc | hun := (h.shuts ws hws).received (by rw [hserver]; exact hr)
      · exact absurd hopened hst
      · rw [hpc] at hc
        cases hc
      · rw [hpc] at hc
        cases hc
      · exact hun
  | start => exact .inl ⟨habort, by rw [hserver]; exact h.flags.mutex (.inr hpc)⟩
  | exited =>
    rw [h.flags.exited.mpr hserver] at hexited
    cases hexited
  | testTerminate | testConnected | handling | leaving =>
    exact .inl ⟨habort, by rw [hserver]; trivial⟩
  | _ =>
    rw [hserver] at howner
    cases howner

/-- While `StopServer` waits for the lock, the thread that has it goes on. -/
theorem ready_server_of_lock (hpc : (s.pcs .stopper).call = .close .close .closeSocket)
    (hlocks : (s.pcs .server).call.locks = true) :
    Ready .server s ∨ (s.pcs .server).call.sends = true := by
  obtain ⟨pc, hserver⟩ : ∃ pc, s.pcs .server = pc := ⟨_, rfl⟩
  cases pc with
  | calling p =>
    refine ready_of_calling habort hserver fun hsends ws hws u hu => ?_
    have hun : ws.Unblocked := .inl ((h.shuts ws hws).closes hpc)
    rw [hserver] at hlocks
    refine SocketState.returns_of hsends ?_ (fun _ => hun) ?_ fun _ => hun
    · rintro rfl
      cases hlocks
    · rintro caller rfl
      cases hlocks
  | _ =>
    rw [hserver] at hlocks
    cases hlocks

theorem ready_server_of_connecting (hpc : (s.pcs .stopper).call.waits = true)
    (hconnecting : s.Connecting) (hwaits : ¬ s.HandshakeWaits) :
    Ready .server s ∨ (s.pcs .server).call.sends = true := by
  obtain ⟨ws₀, hws₀, hst⟩ := hconnecting
  have hregion := (h.good ws₀ hws₀).server_connecting hst
  obtain ⟨pc, hserver⟩ : ∃ pc, s.pcs .server = pc := ⟨_, rfl⟩
  cases pc with
  | calling p =>
    refine ready_of_calling habort hserver fun hsends ws hws u hu => ?_
    rw [hserver] at hregion
    refine SocketState.returns_of hsends ?_ ?_ ?_ ?_
    · intro _
      exact (h.shuts ws hws).serverShut (.inr hpc)
    · rintro rfl
      by_contra hun
      exact hwaits ⟨hserver, ws, hws, hun⟩
    · rintro caller rfl
      cases hregion
    · intro hr
      cases p with
      | accept q => cases hr
      | _ => cases hregion
  | _ =>
    rw [hserver] at hregion
    cases hregion

/-- `StopServer` goes on where it waits for nothing. -/
theorem ready_stopper (hreturned : s.pcs .stopper ≠ .returned)
    (hlock : ∀ caller, (s.pcs .stopper).call = .close caller .closeSocket →
      (s.pcs .server).call.locks = false)
    (hexited : s.pcs .stopper = .joining → s.shared.exited = true) :
    Ready .stopper s ∨ (s.pcs .stopper).call.sends = true := by
  have howner := h.owner .stopper
  obtain ⟨pc, hstopper⟩ : ∃ pc, s.pcs .stopper = pc := ⟨_, rfl⟩
  cases pc with
  | calling p =>
    refine ready_of_calling habort hstopper fun hsends ws hws u hu => ?_
    obtain rfl : u = .server := by
      cases u with
      | server => rfl
      | stopper => exact absurd rfl hu
    rw [hstopper] at hlock howner
    -- `StopServer` neither accepts nor receives
    refine SocketState.returns_of hsends ?_ ?_ hlock ?_
    · rintro rfl
      cases howner
    · rintro rfl
      cases howner
    · intro hr
      have hrole := role_of_receives hr
      rw [WsPc.owner, hrole] at howner
      cases howner
  | stopping => exact .inl ⟨habort, by rw [hstopper]; exact h.flags.mutex (.inl hstopper)⟩
  | unlocking | resetting => exact .inl ⟨habort, by rw [hstopper]; trivial⟩
  | joining => exact .inl ⟨habort, by rw [hstopper]; exact hexited hstopper⟩
  | returned => exact absurd hstopper hreturned
  | _ =>
    rw [hstopper] at howner
    cases howner

/-- **Somebody is sure to go on**, as long as `send` returns. -/
theorem ready_helpful (hreturned : s.pcs .stopper ≠ .returned) :
    Ready s.helpful s ∨ (s.pcs s.helpful).call.sends = true := by
  have hstopper := ready_stopper h habort hreturned
  obtain ⟨hawaits, hclose, hjoin⟩ | ⟨hw, position, -, hawaits⟩ | ⟨hpc, hawaits⟩ |
    ⟨hpc, hawaits⟩ := WsPc.awaits_cases _ (h.owner .stopper)
  · rw [helpful, hawaits]
    exact hstopper (fun caller hc => absurd hc (hclose caller)) fun hc => absurd hc hjoin
  · rw [helpful, hawaits]
    dsimp only
    split
    next hboth => exact ready_server_of_connecting h habort hw hboth.1 hboth.2
    next =>
      refine hstopper (fun caller hc => ?_) fun hc => ?_
      all_goals
        rw [hc] at hw
        cases hw
  · rw [helpful, hawaits]
    dsimp only
    split
    next hlocks => exact ready_server_of_lock h habort (by rw [hpc]; rfl) hlocks
    next hlocks =>
      refine hstopper (fun _ _ => by simpa using hlocks) fun hc => ?_
      cases hpc.symm.trans hc
  · rw [helpful, hawaits]
    dsimp only
    split
    next hexited =>
      refine hstopper (fun caller hc => ?_) fun _ => hexited
      rw [hpc] at hc
      cases hc
    next hexited => exact ready_server_of_joining h habort hpc (by simpa using hexited)

end

/-! ### Everybody leads on -/

def Descends (t : SocketThread) (s s' : WsThreads) : Prop :=
  s'.rank < s.rank ∨ s'.rank = s.rank ∧ t ≠ s.helpful ∧ s'.helpful = s.helpful

/-- Where `StopServer` waits, a step of the server thread leads to its end. -/
theorem descends_of_serverRank_lt (hkeep : s'.pcs .stopper = s.pcs .stopper)
    (hawaits : (s.pcs .stopper).awaits = .lock ∨ (s.pcs .stopper).awaits = .exit)
    (hrank : (s'.pcs .server).serverRank < (s.pcs .server).serverRank) : Descends t s s' := by
  left
  unfold rank waitRank
  rw [hkeep]
  obtain h | h := hawaits
  all_goals
    rw [h]
    exact Nat.add_lt_add_left hrank _

theorem terminate_of_waits (h : WsInv config s) (hw : (s.pcs .stopper).call.waits = true) :
    s.shared.terminateExecution = true := by
  apply h.flags.terminate
  intro heq
  rw [heq] at hw
  cases hw

theorem not_connecting_step (h : WsInv config s) (hw : (s.pcs .stopper).call.waits = true)
    (hstep : WsStep config i s.shared (s.pcs .server) s'.shared (s'.pcs .server))
    (hnot : ¬ s.Connecting) : ¬ s'.Connecting := by
  rintro ⟨ws', hws', hst'⟩
  have hterminate := terminate_of_waits h hw
  have howner := h.owner .server
  have hlate := fun ws hws => (h.shuts ws hws).late hw
  generalize s.pcs .server = pc at hstep howner hlate
  generalize s'.pcs .server = pc' at hstep
  generalize s'.shared = sh' at hstep hws'
  cases hstep with
  | create hmutex hterminate' => simp [hterminate] at hterminate'
  | call hws hnext =>
    obtain ⟨role, server, hrole, hserver, rfl⟩ := SocketState.next_eq_some hnext
    obtain rfl := Option.some.inj hws'
    rw [WsPc.owner, hrole] at howner
    obtain hst | hentering :=
      (runStep (Option.some.inj howner) hrole hserver).connecting hst'
    · exact hnot ⟨_, hws, hst⟩
    · have hnotentering := hlate _ hws
      rw [show (calling _).call.entering = true from hentering] at hnotentering
      cases hnotentering
  | reset => cases hws'
  | _ => exact hnot ⟨ws', hws', hst'⟩

theorem connecting_iff (hws : s.shared.webSocket = some ws) :
    s.Connecting ↔ ws.server.connectionState = .connecting := by
  simp [Connecting, hws]

section

variable (h : WsInv config s)
  (hstep : WsStep config i s.shared (s.pcs .server) s'.shared (s'.pcs .server))
  (hkeep : s'.pcs .stopper = s.pcs .stopper)
include h hstep hkeep

/-- While `StopServer` waits for the end of CONNECTING. -/
theorem descends_of_connecting {position : Nat} (hw : (s.pcs .stopper).call.waits = true)
    (hawaits : (s.pcs .stopper).awaits = .connecting position) (hposition : position ≤ 2) :
    Descends .server s s' := by
  unfold Descends rank waitRank helpful
  rw [hkeep, hawaits]
  dsimp only
  by_cases hconnecting : s.Connecting
  · left
    have hlt : (s'.pcs .server).serverRank < (s.pcs .server).serverRank := by
      refine hstep.serverRank_lt (h.owner .server) (terminate_of_waits h hw) fun ws hws => ?_
      simp [(connecting_iff hws).mp hconnecting]
    split
    · split <;> split <;> omega
    · split <;> omega
  · right
    simp [hconnecting, not_connecting_step h hw hstep hconnecting]

theorem descends_server : Descends .server s s' := by
  have hstopper := h.owner .stopper
  have hrank : s.pcs .stopper ≠ .stopping →
      (∀ ws, s.shared.webSocket = some ws → ws.server.connectionState ≠ .opened) →
        (s'.pcs .server).serverRank < (s.pcs .server).serverRank :=
    fun hne => hstep.serverRank_lt (h.owner .server) (h.flags.terminate hne)
  obtain ⟨hawaits, -⟩ | ⟨hw, position, hposition, hawaits⟩ | ⟨hpc, hawaits⟩ | ⟨hpc, hawaits⟩ :=
    WsPc.awaits_cases _ hstopper
  · right
    unfold rank waitRank helpful
    rw [hkeep, hawaits]
    exact ⟨rfl, nofun, rfl⟩
  · exact descends_of_connecting h hstep hkeep hw hawaits hposition
  · refine descends_of_serverRank_lt hkeep (.inl hawaits) (hrank (by simp [hpc]) ?_)
    intro ws hws
    rw [(h.good ws hws).closing_of hstopper (by rw [hpc]; rfl)]
    nofun
  · refine descends_of_serverRank_lt hkeep (.inr hawaits) (hrank (by simp [hpc]) ?_)
    intro ws hws
    exact ((h.good ws hws).2.of_isDown (isDown_of_joining h hpc hws)).2

end

/-- A step of `StopServer` out of its waiting loop leads on. -/
theorem descends_of_stopRank_lt (hrank : (s'.pcs .stopper).stopRank < (s.pcs .stopper).stopRank) :
    Descends t s s' := by
  left
  have hwait := waitRank_lt s'
  unfold rank
  omega

variable (sh : ServerShared)

/-- `Close` leads on, or is in its loop. -/
theorem nextShut_leads (q : ShutPc) :
    (proceed (.shut q) (nextShut sh q).2).stopRank < (calling (.shut q)).stopRank
    ∨ (q = .waitShutdown ∧ nextShut sh q = (sh, .shut (.waitReload sh.connectionFd.isSome)))
    ∨ (q = .waitReload false ∧ sh.connectionState = .connecting
      ∧ nextShut sh q = (sh, .shut .waitShutdown))
    ∨ q = .waitReload true ∧ sh.connectionState = .connecting
      ∧ nextShut sh q = (sh, .shut (.waitReload true)) := by
  fun_cases nextShut sh q
  all_goals simp_all [proceed, afterCall, stopRank, role, ClosePc.rank]

theorem handshakeWaits_iff (hws : s.shared.webSocket = some ws) :
    s.HandshakeWaits ↔ s.pcs .server = .calling (.accept .httpHandShake) ∧ ¬ ws.Unblocked := by
  simp [HandshakeWaits, hws]

/-- A step in the loop leads to where the connection is shut down, if the server thread
waits for that, and out of the loop, if the state is not CONNECTING any more. -/
theorem descends_of_loop {q q' : ShutPc} {position position' : Nat}
    (hws : s.shared.webSocket = some ws)
    (hws' : s'.shared.webSocket = some (ws.moved (.shut q) ws.server))
    (hpc : s.pcs .stopper = .calling (.shut q)) (hpc' : s'.pcs .stopper = .calling (.shut q'))
    (hkeep : s'.pcs .server = s.pcs .server)
    (hrank : (calling (.shut q')).stopRank = (calling (.shut q)).stopRank)
    (hawaits : (calling (.shut q)).awaits = .connecting position)
    (hawaits' : (calling (.shut q')).awaits = .connecting position')
    (hposition : ¬ ws.Unblocked → 0 < position ∧
      (¬ (ws.moved (.shut q) ws.server).Unblocked → position' < position))
    (hout : ws.server.connectionState ≠ .connecting → position' % 2 < position % 2) :
    Descends .stopper s s' := by
  -- the state stays as it is, and nothing begins to wait
  have hconnecting : s'.Connecting ↔ s.Connecting :=
    (connecting_iff hws').trans (connecting_iff hws).symm
  have hmoved : ws.Unblocked → (ws.moved (.shut q) ws.server).Unblocked :=
    unblocked_moved ws.server nofun id
  unfold Descends rank waitRank helpful
  rw [hpc, hpc', hrank, hkeep, hawaits, hawaits']
  by_cases hc : s.Connecting
  · by_cases hh : s.HandshakeWaits
    · left
      obtain ⟨hpos, hlt⟩ := hposition ((handshakeWaits_iff hws).mp hh).2
      simp only [hconnecting.mpr hc, hc, hh, if_true]
      split
      next hh' =>
        have := hlt ((handshakeWaits_iff hws').mp hh').2
        omega
      next => omega
    · right
      have hh' : ¬ s'.HandshakeWaits := by
        rw [handshakeWaits_iff hws', hkeep]
        exact fun hh' => hh ((handshakeWaits_iff hws).mpr (hh'.imp_right (mt hmoved)))
      simp [hconnecting, hc, hh, hh']
  · left
    simp only [hconnecting, hc, if_false]
    exact Nat.add_lt_add_left (hout (mt (connecting_iff hws).mpr hc)) _

/-- `StopServer` is in `Close`, before it closes the connection. -/
theorem descends_shut {q : ShutPc} (h : WsInv config s) (hws : s.shared.webSocket = some ws)
    (hws' : s'.shared.webSocket = some (ws.moved (.shut q) (nextShut ws.server q).1))
    (hpc : s.pcs .stopper = .calling (.shut q))
    (hpc' : s'.pcs .stopper = .proceed (.shut q) (nextShut ws.server q).2)
    (hkeep : s'.pcs .server = s.pcs .server) : Descends .stopper s s' := by
  obtain hlt | ⟨rfl, hnext⟩ | ⟨rfl, hst, hnext⟩ | ⟨rfl, hst, hnext⟩ := nextShut_leads ws.server q
  · apply descends_of_stopRank_lt
    rwa [hpc, hpc']
  all_goals rw [hnext] at hws' hpc'
  · -- the connection is shut down
    refine descends_of_loop hws hws' hpc hpc' hkeep rfl rfl rfl
      (fun hun => ⟨by omega, fun hun' => absurd (.inl ?_) hun'⟩) fun _ => by split <;> decide
    have hfd : ws.server.connectionFd ≠ none := fun hnone => hun (.inr hnone)
    simp [SocketState.moved, Option.isSome_iff_ne_none.mpr hfd]
  · -- once more, since there was no connection to shut down
    exact descends_of_loop hws hws' hpc hpc' hkeep rfl rfl rfl
      (fun _ => ⟨by decide, fun _ => by decide⟩) (absurd hst)
  · -- the server thread does not wait
    have hshut := ((h.shuts ws hws).waited (by rw [hpc]; rfl) hst).2
    exact descends_of_loop hws hws' hpc hpc' hkeep rfl rfl rfl (absurd (.inl hshut)) (absurd hst)

theorem stopRank_close (q : ClosePc) :
    (proceed (.close .close q) (nextClose sh .close q).2).stopRank
      < (calling (.close .close q)).stopRank := by
  fun_cases nextClose sh .close q
  all_goals simp [proceed, afterCall, stopRank, role, CloseCaller.role, ClosePc.rank]

theorem descends_stopper (h : WsInv config s)
    (hstep : WsStep config i s.shared (s.pcs .stopper) s'.shared (s'.pcs .stopper))
    (hkeep : s'.pcs .server = s.pcs .server) : Descends .stopper s s' := by
  have howner := h.owner .stopper
  obtain ⟨pc, hpc⟩ : ∃ pc, s.pcs .stopper = pc := ⟨_, rfl⟩
  obtain ⟨pc', hpc'⟩ : ∃ pc', s'.pcs .stopper = pc' := ⟨_, rfl⟩
  obtain ⟨sh', hsh'⟩ : ∃ sh', s'.shared = sh' := ⟨_, rfl⟩
  rw [hpc, hpc', hsh'] at hstep
  rw [hpc] at howner
  cases hstep with
  | stop hmutex =>
    apply descends_of_stopRank_lt
    rw [hpc, hpc']
    split <;> simp [stopRank]
  | call hws hnext =>
    obtain ⟨role, server, hrole, hserver, rfl⟩ := SocketState.next_eq_some hnext
    rename_i ws p p'
    cases p with
    | shut q =>
      have heq : nextShut ws.server q = (server, p') := Option.some.inj hserver
      refine descends_shut h hws ?_ hpc ?_ hkeep
      · rw [hsh', heq]
      · rw [hpc', heq]
    | close caller q =>
      have heq : nextClose ws.server caller q = (server, p') := Option.some.inj hserver
      cases caller with
      | close =>
        apply descends_of_stopRank_lt
        have hlt := stopRank_close ws.server q
        rw [heq] at hlt
        rwa [hpc, hpc']
      | _ => cases howner
    | _ => cases howner
  | unlock | join | reset =>
    apply descends_of_stopRank_lt
    rw [hpc, hpc']
    decide
  | _ => cases howner

end WsThreads

/-! ### Shutdown -/

section Shutdown

variable {config : WsConfig} {run : InfiniteRun (wsNext config)}

theorem WsInv.states (h₀ : run.states 0 = WsThreads.created) (n : Nat) :
    WsInv config (run.states n) := by
  refine run.invariant (P := WsInv config) (fun n t i hmove h => ?_) (h₀ ▸ WsInv.created) n
  exact h.step (step_of_moves hmove)

theorem not_stepsAt_of_exited {n : Nat} (h : (run.states n).pcs .server = .exited) :
    ¬ run.StepsAt .server n := by
  rintro ⟨i, hmove⟩
  obtain ⟨-, hstep, -⟩ | ⟨ht, -⟩ := WsThreads.step_cases (step_of_moves hmove)
  · rw [h] at hstep
    cases hstep
  · cases ht

theorem exited_of_le {n m : Nat} (h : (run.states n).pcs .server = .exited) (hm : n ≤ m) :
    (run.states m).pcs .server = .exited := by
  induction m, hm using Nat.le_induction with
  | base => exact h
  | succ m _ ih => exact (pcs_succ (not_stepsAt_of_exited ih)).trans ih

end Shutdown

/-- **Shutdown terminates**: in every fair run in which `send` returns, no frame is too long
and the static debugger is not started, a call of `StopServer` returns, and then the
server thread makes no further step and the socket is destroyed. -/
theorem shutdown_terminates (config : WsConfig) (hhybrid : config.isHybrid = false)
    (run : InfiniteRun (wsNext config)) (h₀ : run.states 0 = WsThreads.created)
    (hfair : ∀ t, run.FairWhen t (WsThreads.Ready t))
    (hsends : ∀ t, run.FairWhen t fun s => (s.pcs t).call.sends = true)
    (habort : ∀ n, (run.states n).shared.aborted = false) :
    (∃ n, (run.states n).pcs .stopper = .returned) ∧
      ∀ n, (run.states n).pcs .stopper = .returned →
        (∀ m, n ≤ m → ¬ run.StepsAt .server m) ∧ WsThreads.Destroyed (run.states n) := by
  have hinv := WsInv.states h₀
  constructor
  · have hready : ∀ t, run.FairWhen t fun s => WsThreads.Ready t s ∨ (s.pcs t).call.sends = true :=
      fun t => (hfair t).or (A := fun pc => pc.call.sends = true) (hsends t)
    obtain ⟨n, -, hn⟩ := eventually_of_rank
      (I := fun s => WsInv config s ∧ s.shared.aborted = false) hready
      (fun n => ⟨hinv n, habort n⟩) (fun s h hgoal => WsThreads.ready_helpful h.1 h.2 hgoal)
      (fun s t i s' h _ _ hs => by
        obtain ⟨rfl, hstep, hkeep⟩ | ⟨rfl, hstep, hkeep⟩ := WsThreads.step_cases hs
        · exact WsThreads.descends_server h.1 hstep hkeep
        · exact WsThreads.descends_stopper h.1 hstep hkeep) 0
    exact ⟨n, hn⟩
  · intro n hn
    have hflags := (hinv n).flags
    have hexited := hflags.exited.mp (hflags.joined (.inr hn))
    refine ⟨fun m hm => not_stepsAt_of_exited (exited_of_le hexited hm), hflags.reset hn,
      hflags.owner hhybrid⟩

/-! ### Runs -/

def listeningConfig (isHybrid : Bool) : WsConfig where
  call := .acceptNewConnection
  isHybrid := isHybrid

theorem exists_of_run (config : WsConfig) (schedule : List (SocketThread × ServerInput))
    (ends : WsThreads → Bool)
    (h : (WsThreads.created.run (wsNext config) schedule).any ends = true) :
    ∃ s, WsThreads.created.run (wsNext config) schedule = some s ∧ ends s = true :=
  (Option.any_eq_true _ _).mp h

/-- `StopServer` is called while the server thread waits in `accept`. -/
def stopInAccept : List (SocketThread × ServerInput) :=
  [(.server, .accepted 3), (.server, .ok), (.server, .ok), (.server, .ok), (.server, .ok),
    (.stopper, .ok), (.stopper, .ok), (.stopper, .ok), (.stopper, .ok), (.stopper, .ok),
    (.server, .fail), (.server, .ok), (.stopper, .ok), (.stopper, .ok), (.stopper, .ok),
    (.server, .ok), (.stopper, .ok), (.stopper, .ok)]

theorem stopInAccept_terminates :
    ∃ run : InfiniteRun (wsNext (listeningConfig false)),
      run.states 0 = WsThreads.created ∧ (∃ m, run.StepsAt .server m)
        ∧ ∃ n, (run.states n).pcs .stopper = .returned ∧ WsThreads.Destroyed (run.states n) := by
  obtain ⟨s, hrun, hs⟩ := exists_of_run (listeningConfig false) stopInAccept
    (fun s => s.pcs .server == .exited && s.pcs .stopper == .returned && !s.shared.aborted)
    (by decide +kernel)
  simp only [Bool.and_eq_true, beq_iff_eq, Bool.not_eq_eq_eq_not, Bool.not_true] at hs
  obtain ⟨⟨hserver, hstopper⟩, habort⟩ := hs
  have hend : ∀ t, ¬ WsThreads.Ready t s ∧ ¬ (s.pcs t).call.sends = true := by
    intro t
    cases t with
    | server => simp [WsThreads.Ready, hserver, call, sends]
    | stopper => simp [WsThreads.Ready, hstopper, call, sends]
  have hshutdown := shutdown_terminates (listeningConfig false) rfl (ofSchedule hrun)
    (WsThreads.created.afterSteps_zero)
    (fun t => fairWhen_ofSchedule hrun (hend t).1)
    (fun t => fairWhen_ofSchedule hrun (hend t).2)
    (forall_states_ofSchedule hrun (P := fun s => s.shared.aborted = false)
      (by decide +kernel) habort)
  obtain ⟨⟨n, hn⟩, hafter⟩ := hshutdown
  exact ⟨_, afterSteps_zero, ⟨0, _, rfl⟩, n, hn, (hafter n hn).2⟩

/-- A client connects, and the server thread waits for a message. -/
def clientConnects : List (SocketThread × ServerInput) :=
  [(.server, .accepted 3), (.server, .ok), (.server, .ok), (.server, .ok), (.server, .ok),
    (.server, .accepted 5), (.server, .ok),
    (.server, .recv (WebSocketClient.upgradeReq (List.replicate 24 0x41))), (.server, .ok),
    (.server, .ok), (.server, .ok), (.server, .ok)]

/-- `StopServer` sends a CLOSE frame to a client that does not read. -/
def stopBeforeSend : List (SocketThread × ServerInput) :=
  clientConnects ++ List.replicate 6 (.stopper, .ok)

/-- The client sends a frame that claims the largest length. -/
def longFrame : List (SocketThread × ServerInput) :=
  clientConnects ++ [(.server, .recv [0x81, 0xFF]), (.server, .recv (List.replicate 8 0xFF))]

/-- In a fair run in which `send` does not return, `StopServer` need not return. -/
theorem stopBeforeSend_hangs :
    ∃ run : InfiniteRun (wsNext (listeningConfig false)),
      run.states 0 = WsThreads.created ∧ (∀ t, run.FairWhen t (WsThreads.Ready t))
        ∧ (∀ n, (run.states n).shared.aborted = false)
        ∧ ∀ n, (run.states n).pcs .stopper ≠ .returned := by
  obtain ⟨s, hrun, hs⟩ := exists_of_run (listeningConfig false) stopBeforeSend
    (fun s => s.pcs .server == .calling (.decode .recvHeader)
      && s.pcs .stopper == .calling (.close .close .sendCloseFrame) && !s.shared.aborted
      && s.shared.webSocket.any fun ws => !ws.Unblocked) (by decide +kernel)
  simp only [Bool.and_eq_true, beq_iff_eq, Bool.not_eq_eq_eq_not, Bool.not_true] at hs
  obtain ⟨⟨⟨hserver, hstopper⟩, habort⟩, hws⟩ := hs
  obtain ⟨ws, hws, hun⟩ : ∃ ws, s.shared.webSocket = some ws ∧ ¬ ws.Unblocked := by
    rcases hsocket : s.shared.webSocket with - | ws
    · simp [hsocket] at hws
    · exact ⟨ws, rfl, by simpa [hsocket] using hws⟩
  have hend : ∀ t, ¬ WsThreads.Ready t s := by
    rintro t ⟨-, hready⟩
    cases t with
    | server =>
      rw [hserver] at hready
      exact hun (hready ws hws .stopper nofun)
    | stopper =>
      rw [hstopper] at hready
      cases hready ws hws .server nofun
  exact ⟨ofSchedule hrun, afterSteps_zero,
    fun t => fairWhen_ofSchedule hrun (hend t),
    forall_states_ofSchedule hrun (P := fun s => s.shared.aborted = false)
      (by decide +kernel) habort,
    forall_states_ofSchedule hrun (P := fun s => s.pcs .stopper ≠ .returned)
      (by decide +kernel) (by simp [hstopper])⟩

/-- With the static debugger the socket is not destroyed; a client that does not read keeps
`StopServer` from returning, and so does one that sends a frame which is too long. -/
theorem shutdown_does_not_terminate :
    (∃ s, WsThreads.created.run (wsNext (listeningConfig true)) stopInAccept = some s
      ∧ s.pcs .stopper = .returned ∧ ¬ WsThreads.Destroyed s)
    ∧ (∃ run : InfiniteRun (wsNext (listeningConfig false)),
      run.states 0 = WsThreads.created ∧ (∀ t, run.FairWhen t (WsThreads.Ready t))
        ∧ (∀ n, (run.states n).shared.aborted = false)
        ∧ ∀ n, (run.states n).pcs .stopper ≠ .returned)
    ∧ ∃ s, WsThreads.created.run (wsNext (listeningConfig false)) longFrame = some s
      ∧ s.pcs .stopper = .stopping ∧ s.shared.aborted = true := by
  refine ⟨?_, stopBeforeSend_hangs, ?_⟩
  · obtain ⟨s, hrun, hs⟩ := exists_of_run (listeningConfig true) stopInAccept
      (fun s => s.pcs .stopper == .returned && s.shared.staticOwner) (by decide +kernel)
    simp only [Bool.and_eq_true, beq_iff_eq] at hs
    exact ⟨s, hrun, hs.1, fun hdestroyed => absurd hdestroyed.2 (by simp [hs.2])⟩
  · obtain ⟨s, hrun, hs⟩ := exists_of_run (listeningConfig false) longFrame
      (fun s => s.pcs .stopper == .stopping && s.shared.aborted) (by decide +kernel)
    simp only [Bool.and_eq_true, beq_iff_eq] at hs
    exact ⟨s, hrun, hs⟩

end ArkToolchain
