/-
`ConnectServer` with its server thread and a call of `StopServer` (`connect_server.cpp`).

`RunServer` stores everything that `StopServer` needs itself: it clears `terminateExecution_`,
creates the socket and stores its own thread identifier, one after the other and without a lock.
A `StopServer` that comes too early returns while the thread goes on, and what it has written to
`terminateExecution_` is overwritten.

What `Decode` has returned is up to the environment.

Main result: `StopServer` is final exactly if it finds the socket and the thread
(`stop_final_iff`).
-/
import ArkToolchain.SocketCalls

namespace ArkToolchain

namespace ConnectServer

open Threads

/-! ### States -/

inductive Pc
  /-- in `RunServer`, before `terminateExecution_` is cleared -/
  | start
  | createSocket
  | storeTid
  | init
  | testTerminate
  | testConnected
  | calling (p : ServerPc)
  /-- with what `Decode` has returned -/
  | handling
  | leaving
  | exited
  /-- in `StopServer`, before `terminateExecution_` is set -/
  | stopping
  | testSocket
  | joining
  | resetting
  | returned
  deriving DecidableEq

structure Shared where
  terminateExecution : Bool := false
  webSocket : Option SocketState := none
  /-- `tid_` has been stored -/
  tid : Bool := false
  /-- the server thread has ended, so that it can be joined -/
  exited : Bool := false
  /-- an exception or a null pointer has ended the process -/
  aborted : Bool := false
  /-- the calls of `wsOnMessage_` -/
  delivered : List Bytes := []

/-- The call by which the server gets connections; there is none except on OpenHarmony. -/
structure Config where
  call : Option AcceptCall
  validateCb : Option (HttpRequest → Bool) := none

/-! ### Steps -/

/-- Where the caller goes on when the call ends at `p`. -/
def Pc.afterCall (p : ServerPc) : Pc :=
  match p.role with
  | some .accepting => if p = .accept .onNewConnection then .testConnected else .leaving
  | some .decoding => .handling
  | _ => .joining

def Pc.proceed (p p' : ServerPc) : Pc :=
  if p' = .idle then .afterCall p else .calling p'

/-- The socket is used; without a socket this ends the process. -/
def Shared.withSocket (sh : Shared) (pc : Pc) (f : SocketState → Option (Shared × Pc)) :
    Option (Shared × Pc) :=
  match sh.webSocket with
  | some ws => f ws
  | none => some ({ sh with aborted := true }, pc)

/-- One step of `RunServer` or `StopServer`. -/
def next (config : Config) (_t : SocketThread) (sh : Shared) (pc : Pc) (i : ServerInput) :
    Option (Shared × Pc) :=
  if sh.aborted then none
  else
    match pc with
    | .start => some ({ sh with terminateExecution := false }, .createSocket)
    | .createSocket => some ({ sh with webSocket := some { server := .down } }, .storeTid)
    | .storeTid => some ({ sh with tid := true }, .init)
    | .init =>
      match config.call with
      | none => some (sh, .testTerminate)
      | some call =>
        sh.withSocket .init fun ws =>
          let server := initWebSocket call i
          some ({ sh with webSocket := some { ws with server := server } },
            if server.serverUp then .testTerminate else .leaving)
    | .testTerminate =>
      if sh.terminateExecution then some (sh, .leaving)
      else
        match config.call with
        | none => some (sh, .testConnected)
        | some call => some (sh, .calling (.accept (.loadServerUp call)))
    | .testConnected =>
      sh.withSocket .testConnected fun ws =>
        some (sh, if ws.server.connectionState = .opened then .calling (.decode .loadState)
          else .testTerminate)
    | .calling p =>
      sh.withSocket (.calling p) fun ws =>
        (ws.next config.validateCb p i).map fun r =>
          ({ sh with webSocket := some r.1, aborted := p.throws i }, .proceed p r.2)
    | .handling =>
      match i with
      | .recv (b :: bs) =>
        some ({ sh with delivered := sh.delivered ++ [b :: bs] }, .testConnected)
      | _ => some (sh, .testConnected)
    | .leaving => some ({ sh with exited := true }, .exited)
    | .exited => none
    | .stopping => some ({ sh with terminateExecution := true }, .testSocket)
    | .testSocket =>
      some (sh, if sh.webSocket.isSome then .calling (.shut .exchangeServerUp) else .returned)
    | .joining =>
      -- a `pthread_join` of 0 waits for no thread
      if sh.tid && !sh.exited then none else some (sh, .resetting)
    | .resetting => some ({ sh with webSocket := none }, .returned)
    | .returned => none

abbrev State := Threads SocketThread Shared Pc

/-- Before the server thread runs and before `StopServer` is called. -/
def created : State where
  shared := {}
  pcs
    | .server => .start
    | .stopper => .stopping

/-! ### What is wanted -/

/-- `StopServer` has joined the thread, or found nothing to join. -/
def Pc.stopped : Pc → Bool
  | .resetting | .returned => true
  | _ => false

/-- After that the server thread makes no further step. -/
def Final (s : State) : Prop :=
  (s.pcs .stopper).stopped = true → s.pcs .server = .exited

/-- `StopServer` finds a socket, and a thread identifier when it joins. -/
def FindsThread (s : State) (t : SocketThread) (_ : ServerInput) : Prop :=
  (s.pcs t = .testSocket → s.shared.webSocket ≠ none) ∧ (s.pcs t = .joining → s.shared.tid = true)

/-! ### What a step can do -/

inductive Step (config : Config) (i : ServerInput) (sh : Shared) : Pc → Shared → Pc → Prop
  | clear : Step config i sh .start { sh with terminateExecution := false } .createSocket
  | create : Step config i sh .createSocket
      { sh with webSocket := some { server := .down } } .storeTid
  | identify : Step config i sh .storeTid { sh with tid := true } .init
  | noInit (hcall : config.call = none) : Step config i sh .init sh .testTerminate
  | init {call : AcceptCall} {ws : SocketState} (hcall : config.call = some call)
      (hws : sh.webSocket = some ws) :
      Step config i sh .init
        { sh with webSocket := some { ws with server := initWebSocket call i } }
        (if (initWebSocket call i).serverUp then .testTerminate else .leaving)
  | leave (hterminate : sh.terminateExecution = true) : Step config i sh .testTerminate sh .leaving
  | noAccept (hcall : config.call = none) : Step config i sh .testTerminate sh .testConnected
  | accept {call : AcceptCall} (hcall : config.call = some call) :
      Step config i sh .testTerminate sh (.calling (.accept (.loadServerUp call)))
  | decode {ws : SocketState} (hws : sh.webSocket = some ws)
      (hopened : ws.server.connectionState = .opened) :
      Step config i sh .testConnected sh (.calling (.decode .loadState))
  | again {ws : SocketState} (hws : sh.webSocket = some ws)
      (hopened : ws.server.connectionState ≠ .opened) :
      Step config i sh .testConnected sh .testTerminate
  | call {ws ws' : SocketState} {p p' : ServerPc} (hws : sh.webSocket = some ws)
      (hnext : ws.next config.validateCb p i = some (ws', p')) :
      Step config i sh (.calling p)
        { sh with webSocket := some ws', aborted := p.throws i } (.proceed p p')
  | null {pc : Pc} (hws : sh.webSocket = none)
      (huses : pc = .init ∨ pc = .testConnected ∨ ∃ p, pc = .calling p) :
      Step config i sh pc { sh with aborted := true } pc
  | handle (delivered : List Bytes) :
      Step config i sh .handling { sh with delivered := delivered } .testConnected
  | exit : Step config i sh .leaving { sh with exited := true } .exited
  | terminate : Step config i sh .stopping { sh with terminateExecution := true } .testSocket
  | close {ws : SocketState} (hws : sh.webSocket = some ws) :
      Step config i sh .testSocket sh (.calling (.shut .exchangeServerUp))
  | absent (hws : sh.webSocket = none) : Step config i sh .testSocket sh .returned
  | join (hexited : sh.tid = true → sh.exited = true) : Step config i sh .joining sh .resetting
  | reset : Step config i sh .resetting { sh with webSocket := none } .returned

section Steps

variable {config : Config} {t : SocketThread} {sh sh' : Shared} {pc pc' : Pc} {i : ServerInput}

theorem step_of_withSocket {f : SocketState → Option (Shared × Pc)}
    (huses : pc = .init ∨ pc = .testConnected ∨ ∃ p, pc = .calling p)
    (hf : ∀ ws, sh.webSocket = some ws → f ws = some (sh', pc') → Step config i sh pc sh' pc')
    (h : sh.withSocket pc f = some (sh', pc')) : Step config i sh pc sh' pc' := by
  unfold Shared.withSocket at h
  split at h
  next ws hws => exact hf ws hws h
  next hws =>
    cases h
    exact .null hws huses

theorem next_cases (h : next config t sh pc i = some (sh', pc')) : Step config i sh pc sh' pc' := by
  revert h
  fun_cases next config t sh pc i
  all_goals intro h
  -- the steps that use the socket, or test whether there is one
  case case6 call hcall =>
    refine step_of_withSocket (.inl rfl) (fun ws hws hf => ?_) h
    cases hf
    exact .init hcall hws
  case case10 =>
    refine step_of_withSocket (.inr (.inl rfl)) (fun ws hws hf => ?_) h
    cases hf
    split
    next hopened => exact .decode hws hopened
    next hopened => exact .again hws hopened
  case case11 p =>
    refine step_of_withSocket (.inr (.inr ⟨p, rfl⟩)) (fun ws hws hf => ?_) h
    obtain ⟨⟨ws', p'⟩, hnext, heq⟩ := Option.map_eq_some_iff.mp hf
    cases heq
    exact .call hws hnext
  case case17 =>
    cases h
    rcases hws : sh.webSocket with - | ws
    · exact .absent hws
    · exact .close hws
  all_goals cases h
  all_goals constructor
  all_goals simp_all

def Pc.owner : Pc → Option SocketThread
  | .calling p => p.role.map ServerThread.thread
  | .stopping | .testSocket | .joining | .resetting | .returned => some .stopper
  | _ => some .server

theorem Pc.owner_proceed {p p' : ServerPc} {role : ServerThread} (hrole : p.role = some role)
    (hrole' : p' = .idle ∨ p'.role = some role) : (Pc.proceed p p').owner = some role.thread := by
  unfold Pc.proceed Pc.afterCall
  rw [hrole]
  split
  · cases role with
    | accepting => dsimp only; split <;> rfl
    | decoding | other i => rfl
  next hidle =>
    rw [Pc.owner, hrole'.resolve_left hidle]
    rfl

theorem Step.owner (h : Step config i sh pc sh' pc') : pc'.owner = pc.owner := by
  cases h with
  | init => split <;> rfl
  | call hws hnext =>
    obtain ⟨role, server, hrole, hserver, rfl⟩ := SocketState.next_eq_some hnext
    rw [Pc.owner_proceed hrole (role_serverNext hrole hserver), Pc.owner, hrole]
    rfl
  | _ => rfl

end Steps

/-! ### The invariant -/

/-- Before `RunServer` has created the socket. -/
def Pc.beforeSocket : Pc → Bool
  | .start | .createSocket => true
  | _ => false

/-- Before `RunServer` has stored the thread identifier. -/
def Pc.beforeTid : Pc → Bool
  | .start | .createSocket | .storeTid => true
  | _ => false

/-- What the server thread has left behind. -/
structure Inv (sh : Shared) (server stopper : Pc) : Prop where
  server_owner : server.owner = some .server
  stopper_owner : stopper.owner = some .stopper
  final : stopper.stopped = true → server = .exited
  exited : sh.exited = true → server = .exited
  socket : sh.webSocket = none → stopper ≠ .returned → server.beforeSocket = true
  tid : sh.tid = false → server.beforeTid = true

namespace Inv

variable {config : Config} {i : ServerInput} {sh sh' : Shared} {server server' stopper
  stopper' : Pc}

theorem runs (h : Inv sh server stopper) (hserver : server ≠ .exited)
    (howner : server'.owner = some .server) (hexited : sh'.exited = sh.exited)
    (hsocket : sh'.webSocket = none →
      sh.webSocket = none ∧ (server.beforeSocket = true → server'.beforeSocket = true))
    (htid : sh'.tid = false →
      sh.tid = false ∧ (server.beforeTid = true → server'.beforeTid = true)) :
    Inv sh' server' stopper where
  server_owner := howner
  stopper_owner := h.stopper_owner
  final hstopped := absurd (h.final hstopped) hserver
  exited he := absurd (h.exited (hexited.symm.trans he)) hserver
  socket hnone hreturned := by
    obtain ⟨hbefore, hkeep⟩ := hsocket hnone
    exact hkeep (h.socket hbefore hreturned)
  tid hnone := by
    obtain ⟨hbefore, hkeep⟩ := htid hnone
    exact hkeep (h.tid hbefore)

theorem server_step (h : Inv sh server stopper) (hstep : Step config i sh server sh' server') :
    Inv sh' server' stopper := by
  have howner : server'.owner = some .server := hstep.owner.trans h.server_owner
  cases hstep with
  | clear =>
    exact h.runs nofun howner rfl (fun hn => ⟨hn, fun _ => rfl⟩) fun hn => ⟨hn, fun _ => rfl⟩
  | create => exact h.runs nofun howner rfl nofun fun hn => ⟨hn, fun _ => rfl⟩
  | identify => exact h.runs nofun howner rfl (fun hn => ⟨hn, nofun⟩) nofun
  | init hcall hws | call hws hnext => exact h.runs nofun howner rfl nofun fun hn => ⟨hn, nofun⟩
  | null hws huses =>
    refine h.runs ?_ howner rfl (fun hn => ⟨hn, id⟩) fun hn => ⟨hn, id⟩
    rintro rfl
    obtain heq | heq | ⟨p, heq⟩ := huses <;> cases heq
  | exit =>
    exact { h with
      server_owner := rfl
      final := fun _ => rfl
      exited := fun _ => rfl
      socket := fun hnone hreturned => absurd (h.socket hnone hreturned) nofun
      tid := fun hnone => absurd (h.tid hnone) nofun }
  | terminate | close | absent | join | reset => cases h.server_owner
  | _ => exact h.runs nofun howner rfl (fun hn => ⟨hn, nofun⟩) fun hn => ⟨hn, nofun⟩

/-- `StopServer` goes on, before its end. -/
theorem stops (h : Inv sh server stopper) (howner : stopper'.owner = some .stopper)
    (hstopped : stopper'.stopped = false) (hstopper : stopper ≠ .returned)
    (hexited : sh'.exited = sh.exited) (htid : sh'.tid = sh.tid)
    (hsocket : sh'.webSocket = none → sh.webSocket = none) : Inv sh' server stopper' where
  server_owner := h.server_owner
  stopper_owner := howner
  final hstopped' := absurd hstopped' (by simp [hstopped])
  exited he := h.exited (hexited.symm.trans he)
  socket hnone _ := h.socket (hsocket hnone) hstopper
  tid hnone := h.tid (htid.symm.trans hnone)

theorem stopped_proceed (p p' : ServerPc) : (Pc.proceed p p').stopped = false := by
  unfold Pc.proceed Pc.afterCall
  split
  · split
    · split <;> rfl
    · rfl
    · rfl
  · rfl

theorem stopper_step (h : Inv sh server stopper) (hstep : Step config i sh stopper sh' stopper')
    (hsocket : stopper = .testSocket → sh.webSocket ≠ none)
    (htid : stopper = .joining → sh.tid = true) : Inv sh' server stopper' := by
  have howner : stopper'.owner = some .stopper := hstep.owner.trans h.stopper_owner
  cases hstep with
  | terminate | close hws => exact h.stops howner rfl nofun rfl rfl id
  | absent hws => exact absurd hws (hsocket rfl)
  | call hws hnext => exact h.stops howner (stopped_proceed _ _) nofun rfl rfl nofun
  | null hws huses =>
    obtain rfl | rfl | ⟨p, rfl⟩ := huses
    · cases h.stopper_owner
    · cases h.stopper_owner
    · exact h.stops howner rfl nofun rfl rfl id
  | join hexited =>
    exact { h with
      stopper_owner := rfl
      final := fun _ => h.exited (hexited (htid rfl))
      socket := fun hnone _ => h.socket hnone nofun }
  | reset =>
    exact { h with
      stopper_owner := rfl
      final := fun _ => h.final rfl
      socket := fun _ hne => absurd rfl hne }
  | _ => cases h.stopper_owner

theorem not_final_step (h : Inv sh server stopper) (hstep : Step config i sh stopper sh' stopper')
    (hfinds : (stopper = .testSocket ∧ sh.webSocket = none) ∨ stopper = .joining ∧ sh.tid = false) :
    stopper'.stopped = true ∧ server ≠ .exited := by
  obtain ⟨rfl, hnone⟩ | ⟨rfl, hnone⟩ := hfinds
  · cases hstep with
    | close hws => cases hws.symm.trans hnone
    | null hws huses => obtain heq | heq | ⟨p, heq⟩ := huses <;> cases heq
    | absent =>
      refine ⟨rfl, ?_⟩
      rintro rfl
      cases h.socket hnone nofun
  · cases hstep with
    | null hws huses => obtain heq | heq | ⟨p, heq⟩ := huses <;> cases heq
    | join =>
      refine ⟨rfl, ?_⟩
      rintro rfl
      cases h.tid hnone

end Inv

/-! ### Shutdown -/

section Shutdown

variable {config : Config} {s s' : State} {t : SocketThread} {i : ServerInput}

theorem step_cases (h : s.step (next config) t i = some s') :
    (t = .server ∧ Step config i s.shared (s.pcs .server) s'.shared (s'.pcs .server)
      ∧ s'.pcs .stopper = s.pcs .stopper)
    ∨ t = .stopper ∧ Step config i s.shared (s.pcs .stopper) s'.shared (s'.pcs .stopper)
      ∧ s'.pcs .server = s.pcs .server :=
  (SocketThread.step_cases h).imp (And.imp_right (And.imp_left next_cases))
    (And.imp_right (And.imp_left next_cases))

end Shutdown

theorem inv_created : Inv created.shared (created.pcs .server) (created.pcs .stopper) :=
  ⟨rfl, rfl, nofun, nofun, fun _ _ => rfl, fun _ => rfl⟩

/-- **Shutdown is final where it finds the thread**: whatever the interleaving, `StopServer`
leaves no server thread behind exactly if it finds the socket, and the thread identifier when
it joins. -/
theorem stop_final_iff (config : Config) (schedule : List (SocketThread × ServerInput)) :
    Always (next config) Final created schedule ↔
      EachStep (next config) FindsThread created schedule := by
  refine always_iff_eachStep (I := fun s => Inv s.shared (s.pcs .server) (s.pcs .stopper))
    (fun s h => h.final) ?_ ?_ inv_created schedule
  · intro s t i s' h hs hfinds
    obtain ⟨rfl, hstep, hkeep⟩ | ⟨rfl, hstep, hkeep⟩ := step_cases hs
    · rw [hkeep]
      exact h.server_step hstep
    · rw [hkeep]
      exact h.stopper_step hstep hfinds.1 hfinds.2
  · intro s t i s' h hs hfinds hfinal
    have hmisses : (s.pcs t = .testSocket ∧ s.shared.webSocket = none)
        ∨ s.pcs t = .joining ∧ s.shared.tid = false := by
      rw [FindsThread, not_and_or, Classical.not_imp, Classical.not_imp] at hfinds
      simpa using hfinds
    obtain ⟨rfl, hstep, -⟩ | ⟨rfl, hstep, hkeep⟩ := step_cases hs
    · -- the server thread is never there
      have howner := h.server_owner
      obtain ⟨hpc, -⟩ | ⟨hpc, -⟩ := hmisses
      all_goals
        rw [hpc] at howner
        cases howner
    · obtain ⟨hstopped, hserver⟩ := h.not_final_step hstep hmisses
      exact hserver (hkeep.symm.trans (hfinal hstopped))

def listeningConfig : Config where
  call := some .acceptNewConnection

/-- `StopServer` is called before the server thread runs; then a client connects and sends
a message. -/
def stopBeforeStart : List (SocketThread × ServerInput) :=
  [(.stopper, .ok), (.stopper, .ok), (.server, .ok), (.server, .ok), (.server, .ok),
    (.server, .accepted 3), (.server, .ok), (.server, .ok), (.server, .ok), (.server, .ok),
    (.server, .accepted 5), (.server, .ok),
    (.server, .recv (WebSocketClient.upgradeReq (List.replicate 24 0x41))), (.server, .ok),
    (.server, .ok), (.server, .ok), (.server, .ok), (.server, .recv [0x81, 0x81]),
    (.server, .recv [0, 0, 0, 0]), (.server, .recv [0x41]), (.server, .recv [0x41])]

/-- `StopServer` is called when the socket has been created and the thread identifier not. -/
def stopBeforeTid : List (SocketThread × ServerInput) :=
  [(.server, .ok), (.server, .ok), (.stopper, .ok), (.stopper, .ok), (.stopper, .ok),
    (.stopper, .ok), (.stopper, .ok), (.server, .ok), (.server, .accepted 3)]

/-- A call of `StopServer` that comes too early returns, and the server thread goes on: it
delivers a message, or uses the socket that has been destroyed. -/
theorem stop_not_final :
    (created.run (next listeningConfig) (stopBeforeStart.take 2)).any
        (fun s => s.pcs .stopper == .returned && s.shared.delivered == []) = true
      ∧ (created.run (next listeningConfig) stopBeforeStart).any
        (fun s => s.pcs .stopper == .returned && s.shared.delivered == [[0x41]]) = true
      ∧ (created.run (next listeningConfig) stopBeforeTid).any
        (fun s => s.pcs .stopper == .returned && s.shared.webSocket.isNone && s.shared.aborted)
          = true := by
  decide +kernel

end ConnectServer

end ArkToolchain
