/-
`WsServer` with its server thread and a call of `StopServer` (`ws_server.cpp`).

The server thread runs `RunServer` and `ContinueRunserver`; another thread calls `StopServer`
once, at any time.  Initialisation is done in one step, under `wsMutex_`.  `StopServer` holds
`wsMutex_` while it closes the socket and joins the thread after that.

A state has a view as a state of `ServerThreads`, in which the server thread plays the accepting
and the decoding thread.
-/
import ArkToolchain.SocketCalls

namespace ArkToolchain

open Threads

/-! ### States -/

inductive WsPc
  /-- in `RunServer`, before the lock -/
  | start
  /-- before `while (!terminateExecution_)` -/
  | testTerminate
  /-- before `while (webSocket_->IsConnected())` -/
  | testConnected
  | calling (p : ServerPc)
  /-- with a message that has been decoded -/
  | handling
  /-- `RunServer` has returned -/
  | leaving
  | exited
  /-- in `StopServer`, before the lock -/
  | stopping
  | unlocking
  | joining
  | resetting
  | returned
  deriving DecidableEq

open WsPc

structure WsShared where
  terminateExecution : Bool := false
  /-- `StopServer` holds `wsMutex_` -/
  wsMutex : Bool := false
  webSocket : Option SocketState := none
  /-- the static debugger has its own reference to the socket -/
  staticOwner : Bool := false
  /-- the server thread has ended, so that it can be joined -/
  exited : Bool := false
  /-- an exception has ended the process -/
  aborted : Bool := false

/-- What the server was created with: the call by which it gets connections, and whether
the static debugger is started, too. -/
structure WsConfig where
  call : AcceptCall
  isHybrid : Bool
  validateCb : Option (HttpRequest → Bool) := none

/-! ### Steps -/

/-- Where the caller goes on when the call ends at `p`. -/
def WsPc.afterCall (p : ServerPc) : WsPc :=
  match p.role with
  | some .accepting => if p = .accept .onNewConnection then .testConnected else .leaving
  | some .decoding => .handling
  | _ => .unlocking

def WsPc.proceed (p p' : ServerPc) : WsPc :=
  if p' = .idle then .afterCall p else .calling p'

/-- One step of `RunServer` or `StopServer`. -/
def wsNext (config : WsConfig) (_t : SocketThread) (sh : WsShared) (pc : WsPc) (i : ServerInput) :
    Option (WsShared × WsPc) :=
  if sh.aborted then none
  else
    match pc with
    | .start =>
      if sh.wsMutex then none
      else if sh.terminateExecution then some (sh, .leaving)
      else
        let server := initWebSocket config.call i
        some ({ sh with
            webSocket := some { server := server }
            staticOwner := server.serverUp && config.isHybrid },
          if server.serverUp then .testTerminate else .leaving)
    | .testTerminate =>
      some (sh, if sh.terminateExecution then .leaving
        else .calling (.accept (.loadServerUp config.call)))
    | .testConnected =>
      sh.webSocket.map fun ws =>
        (sh, if ws.server.connectionState = .opened then .calling (.decode .loadState)
          else .testTerminate)
    | .calling p =>
      sh.webSocket.bind fun ws =>
        (ws.next config.validateCb p i).map fun r =>
          ({ sh with webSocket := some r.1, aborted := p.throws i }, .proceed p r.2)
    | .handling => some (sh, .testConnected)
    | .leaving => some ({ sh with exited := true }, .exited)
    | .exited => none
    | .stopping =>
      if sh.wsMutex then none
      else
        some ({ sh with wsMutex := true, terminateExecution := true },
          if sh.webSocket.isSome then .calling (.shut .exchangeServerUp) else .unlocking)
    | .unlocking => some ({ sh with wsMutex := false }, .joining)
    | .joining => if sh.exited then some (sh, .resetting) else none
    | .resetting => some ({ sh with webSocket := none }, .returned)
    | .returned => none

abbrev WsThreads := Threads SocketThread WsShared WsPc

namespace WsThreads

/-- Before the server thread runs and before `StopServer` is called. -/
def created : WsThreads where
  shared := {}
  pcs
    | .server => .start
    | .stopper => .stopping

def Destroyed (s : WsThreads) : Prop :=
  s.shared.webSocket = none ∧ s.shared.staticOwner = false

end WsThreads

/-- What a step can do. -/
inductive WsStep (config : WsConfig) (i : ServerInput) (sh : WsShared) :
    WsPc → WsShared → WsPc → Prop
  | refuse (hmutex : sh.wsMutex = false) (hterminate : sh.terminateExecution = true) :
      WsStep config i sh .start sh .leaving
  | create (hmutex : sh.wsMutex = false) (hterminate : sh.terminateExecution = false) :
      WsStep config i sh .start
        { sh with
          webSocket := some { server := initWebSocket config.call i }
          staticOwner := (initWebSocket config.call i).serverUp && config.isHybrid }
        (if (initWebSocket config.call i).serverUp then .testTerminate else .leaving)
  | leave (hterminate : sh.terminateExecution = true) :
      WsStep config i sh .testTerminate sh .leaving
  | accept (hterminate : sh.terminateExecution = false) :
      WsStep config i sh .testTerminate sh (.calling (.accept (.loadServerUp config.call)))
  | decode {ws : SocketState} (hws : sh.webSocket = some ws)
      (hopened : ws.server.connectionState = .opened) :
      WsStep config i sh .testConnected sh (.calling (.decode .loadState))
  | again {ws : SocketState} (hws : sh.webSocket = some ws)
      (hopened : ws.server.connectionState ≠ .opened) :
      WsStep config i sh .testConnected sh .testTerminate
  | call {ws ws' : SocketState} {p p' : ServerPc} (hws : sh.webSocket = some ws)
      (hnext : ws.next config.validateCb p i = some (ws', p')) :
      WsStep config i sh (.calling p)
        { sh with webSocket := some ws', aborted := p.throws i } (.proceed p p')
  | handle : WsStep config i sh .handling sh .testConnected
  | exit : WsStep config i sh .leaving { sh with exited := true } .exited
  | stop (hmutex : sh.wsMutex = false) :
      WsStep config i sh .stopping { sh with wsMutex := true, terminateExecution := true }
        (if sh.webSocket.isSome then .calling (.shut .exchangeServerUp) else .unlocking)
  | unlock : WsStep config i sh .unlocking { sh with wsMutex := false } .joining
  | join (hexited : sh.exited = true) : WsStep config i sh .joining sh .resetting
  | reset : WsStep config i sh .resetting { sh with webSocket := none } .returned

theorem wsNext_cases {config : WsConfig} {t : SocketThread} {sh sh' : WsShared} {pc pc' : WsPc}
    {i : ServerInput} (h : wsNext config t sh pc i = some (sh', pc')) :
    WsStep config i sh pc sh' pc' := by
  revert h
  fun_cases wsNext config t sh pc i
  all_goals intro h
  -- the steps that end in one of two places
  case case5 =>
    cases h
    split
    next hterminate => exact .leave hterminate
    next hterminate => exact .accept (by simpa using hterminate)
  case case6 =>
    obtain ⟨ws, hws, heq⟩ := Option.map_eq_some_iff.mp h
    cases heq
    split
    next hopened => exact .decode hws hopened
    next hopened => exact .again hws hopened
  case case7 =>
    obtain ⟨ws, hws, hmap⟩ := Option.bind_eq_some_iff.mp h
    obtain ⟨⟨ws', p'⟩, hnext, heq⟩ := Option.map_eq_some_iff.mp hmap
    cases heq
    exact .call hws hnext
  all_goals cases h
  all_goals constructor
  all_goals simp_all

/-! ### Who is where -/

def WsPc.call : WsPc → ServerPc
  | .calling p => p
  | _ => .idle

def WsPc.owner : WsPc → Option SocketThread
  | .calling p => p.role.map ServerThread.thread
  | .start | .testTerminate | .testConnected | .handling | .leaving | .exited => some .server
  | .stopping | .unlocking | .joining | .resetting | .returned => some .stopper

@[simp] theorem WsPc.call_afterCall (p : ServerPc) : (afterCall p).call = .idle := by
  unfold afterCall
  split
  · split <;> rfl
  · rfl
  · rfl

@[simp] theorem WsPc.call_proceed (p p' : ServerPc) : (proceed p p').call = p' := by
  unfold proceed
  split
  next h => rw [call_afterCall, h]
  next => rfl

theorem WsPc.owner_afterCall {p : ServerPc} {role : ServerThread} (h : p.role = some role) :
    (afterCall p).owner = some role.thread := by
  unfold afterCall
  rw [h]
  cases role with
  | accepting => dsimp only; split <;> rfl
  | decoding | other i => rfl

/-- Neither at the beginning of `RunServer` or `StopServer` nor at the end. -/
def WsPc.inside : WsPc → Bool
  | .testTerminate | .testConnected | .calling _ | .handling | .leaving | .unlocking => true
  | _ => false

theorem WsPc.inside_proceed (p p' : ServerPc) : (proceed p p').inside = true := by
  unfold proceed afterCall
  split
  · split
    · split <;> rfl
    · rfl
    · rfl
  · rfl

theorem WsPc.ne_of_inside {pc pc' : WsPc} (h : pc.inside = true) (h' : pc'.inside = false) :
    pc ≠ pc' := by
  rintro rfl
  exact absurd h (by simp [h'])

section Steps

variable {config : WsConfig} {i : ServerInput} {sh sh' : WsShared} {pc pc' : WsPc}

theorem WsStep.owner (h : WsStep config i sh pc sh' pc') : pc'.owner = pc.owner := by
  cases h with
  | call hws hnext =>
    obtain ⟨role, server, hrole, hserver, rfl⟩ := SocketState.next_eq_some hnext
    rw [owner, hrole, Option.map_some]
    unfold proceed
    split
    · exact owner_afterCall hrole
    next hidle =>
      rw [owner, (role_serverNext hrole hserver).resolve_left hidle]
      rfl
  | create | stop => split <;> rfl
  | _ => rfl

end Steps

/-! ### The view -/

def WsPc.callAs (pc : WsPc) (role : ServerThread) : ServerPc :=
  if pc.call.role = some role then pc.call else .idle

namespace WsThreads

def view (ws : SocketState) (s : WsThreads) : ServerThreads where
  shared := ws.server
  pcs role := (s.pcs role.thread).callAs role

variable {config : WsConfig} {s s' : WsThreads} {ws ws' : SocketState} {t : SocketThread}
  {i : ServerInput}

theorem view_pcs_eq (ws : SocketState) (s : WsThreads) (role : ServerThread) :
    (view ws s).pcs role = (s.pcs role.thread).call ∨ (view ws s).pcs role = .idle := by
  show callAs _ role = _ ∨ callAs _ role = _
  unfold callAs
  split
  · exact .inl rfl
  · exact .inr rfl

variable {role : ServerThread}

theorem view_pcs_of_idle (h : (s.pcs role.thread).call = .idle) : (view ws s).pcs role = .idle := by
  obtain heq | heq := view_pcs_eq ws s role
  · exact heq.trans h
  · exact heq

theorem view_pcs_of_role (h : (s.pcs role.thread).call.role = some role) :
    (view ws s).pcs role = (s.pcs role.thread).call :=
  if_pos h

theorem exists_thread_eq (t : SocketThread) : ∃ role : ServerThread, role.thread = t := by
  cases t with
  | server => exact ⟨.accepting, rfl⟩
  | stopper => exact ⟨.other 0, rfl⟩

theorem exists_view_pcs_eq (ws : SocketState) (howner : (s.pcs t).owner = some t) :
    ∃ role, (view ws s).pcs role = (s.pcs t).call := by
  by_cases hidle : (s.pcs t).call = .idle
  · obtain ⟨role, rfl⟩ := exists_thread_eq t
    exact ⟨role, (view_pcs_of_idle hidle).trans hidle.symm⟩
  · cases hpc : s.pcs t with
    | calling p =>
      rw [hpc, owner] at howner
      obtain ⟨role, hrole, rfl⟩ := Option.map_eq_some_iff.mp howner
      refine ⟨role, ?_⟩
      rw [view_pcs_of_role (by rw [hpc]; exact hrole), hpc]
    | _ =>
      rw [hpc] at hidle
      exact absurd rfl hidle

variable {sh : WsShared}

theorem view_update (ws : SocketState) (pc : WsPc)
    (hbefore : (s.pcs role.thread).call = .idle ∨ (s.pcs role.thread).call.role = some role)
    (hafter : pc.call = .idle ∨ pc.call.role = some role) :
    view ws' { shared := sh, pcs := Function.update s.pcs role.thread pc }
      = { shared := ws'.server, pcs := Function.update (view ws s).pcs role pc.call } := by
  have hother : ∀ {pc : WsPc} {r : ServerThread}, r ≠ role →
      pc.call = .idle ∨ pc.call.role = some role → pc.callAs r = .idle := by
    intro pc r hne hpc
    unfold callAs
    split
    next hr =>
      obtain h | h := hpc
      · exact h
      · exact absurd (Option.some.inj (hr.symm.trans h)) hne
    next => rfl
  have hpcs : (fun r => (Function.update s.pcs role.thread pc r.thread).callAs r)
      = Function.update (view ws s).pcs role pc.call := by
    funext r
    by_cases hr : r = role
    · subst hr
      rw [Function.update_self, Function.update_self, callAs]
      split
      next => rfl
      next hrole => exact (hafter.resolve_right hrole).symm
    · rw [Function.update_of_ne hr]
      show _ = (s.pcs r.thread).callAs r
      by_cases hthread : r.thread = role.thread
      · rw [hthread, Function.update_self, hother hr hafter, hother hr hbefore]
      · rw [Function.update_of_ne hthread]
  exact congrArg (mk ws'.server) hpcs

theorem view_silent {pc : WsPc} (hbefore : (s.pcs t).call = .idle) (hafter : pc.call = .idle) :
    view ws { shared := sh, pcs := Function.update s.pcs t pc } = view ws s := by
  obtain ⟨role, rfl⟩ := exists_thread_eq t
  rw [view_update ws pc (.inl hbefore) (.inl hafter), hafter, ← view_pcs_of_idle hbefore,
    Function.update_eq_self]
  rfl

theorem view_begin (role : ServerThread) {p : ServerPc} (hbefore : (s.pcs role.thread).call = .idle)
    (hp : p.role = some role) (hmay : role.mayCall p = true) :
    (view ws s).step (serverNext config.validateCb) role (.call p)
      = some (view ws { shared := sh, pcs := Function.update s.pcs role.thread (.calling p) }) := by
  rw [view_update ws (.calling p) (.inl hbefore) (.inr hp), step, view_pcs_of_idle hbefore]
  simp only [serverNext, hmay, if_true, Option.map_some]
  rfl

theorem view_call {p p' : ServerPc} {server : ServerShared} (hpc : s.pcs role.thread = .calling p)
    (hp : p.role = some role)
    (hnext : serverNext config.validateCb role ws.server p i = some (server, p'))
    (hserver : ws'.server = server) :
    (view ws s).step (serverNext config.validateCb) role i
      = some (view ws'
        { shared := sh, pcs := Function.update s.pcs role.thread (.proceed p p') }) := by
  have hcall : (view ws s).pcs role = p := by
    rw [view_pcs_of_role (by rw [hpc]; exact hp), hpc]
    rfl
  rw [view_update ws (.proceed p p') (.inr (by rw [hpc]; exact hp))
    (by rw [call_proceed]; exact role_serverNext hp hnext), call_proceed, step,
    hcall]
  show Option.map _ (serverNext config.validateCb role ws.server p i) = _
  rw [hnext, hserver]
  rfl

/-- **The view follows**: a step of the server thread or of `StopServer` is a step of
`ServerThreads`, or none. -/
theorem reaches_view (howner : ∀ t, (s.pcs t).owner = some t)
    (hstart : ∀ t, s.pcs t = .start → s.shared.webSocket = none)
    (h : s.step (wsNext config) t i = some s') (hws : s.shared.webSocket = some ws)
    (hws' : s'.shared.webSocket = some ws') :
    Reaches (serverNext config.validateCb) (view ws s) (view ws' s') := by
  obtain ⟨sh', pc', hn, rfl⟩ := step_eq_some h
  have hstep := wsNext_cases hn
  have hown := howner t
  -- steps that leave the socket alone and make no call
  have hsilent : (s.pcs t).call = .idle → pc'.call = .idle → sh'.webSocket = s.shared.webSocket →
      Reaches (serverNext config.validateCb) (view ws s)
        (view ws' { shared := sh', pcs := Function.update s.pcs t pc' }) := by
    intro hbefore hafter hsame
    obtain rfl : ws' = ws := Option.some.inj (hws'.symm.trans (hsame.trans hws))
    rw [view_silent hbefore hafter]
    exact ⟨[], rfl⟩
  have hsingle : ∀ {v : ServerThreads} {role : ServerThread} {i : ServerInput},
      (view ws s).step (serverNext config.validateCb) role i = some v →
        Reaches (serverNext config.validateCb) (view ws s) v := by
    intro v role i hv
    exact ⟨[(role, i)], by rw [run, hv]; rfl⟩
  generalize hpc : s.pcs t = pc at hstep hown hsilent
  cases hstep with
  | create hmutex hterminate => cases (hstart t hpc).symm.trans hws
  | accept hterminate =>
    cases hown
    obtain rfl : ws' = ws := Option.some.inj (hws'.symm.trans hws)
    exact hsingle (view_begin .accepting (by rw [ServerThread.thread, hpc]; rfl) rfl rfl)
  | decode hws₁ hopened =>
    cases hown
    obtain rfl : ws' = ws := Option.some.inj (hws'.symm.trans hws)
    exact hsingle (view_begin .decoding (by rw [ServerThread.thread, hpc]; rfl) rfl rfl)
  | call hws₁ hnext =>
    obtain rfl := Option.some.inj (hws.symm.trans hws₁)
    obtain rfl := Option.some.inj hws'
    obtain ⟨role, server, hrole, hserver, rfl⟩ := SocketState.next_eq_some hnext
    obtain rfl : role.thread = t := by
      rw [owner, hrole] at hown
      exact Option.some.inj hown
    exact hsingle (view_call hpc hrole hserver rfl)
  | stop hmutex =>
    cases hown
    obtain rfl : ws' = ws := Option.some.inj (hws'.symm.trans hws)
    rw [hws]
    exact hsingle (view_begin (.other 0) (by rw [ServerThread.thread, hpc]; rfl) rfl rfl)
  | reset => cases hws'
  | _ => exact hsilent rfl rfl rfl

/-- A step is one of the server thread or one of `StopServer`. -/
theorem step_cases (h : s.step (wsNext config) t i = some s') :
    (t = .server ∧ WsStep config i s.shared (s.pcs .server) s'.shared (s'.pcs .server)
      ∧ s'.pcs .stopper = s.pcs .stopper)
    ∨ t = .stopper ∧ WsStep config i s.shared (s.pcs .stopper) s'.shared (s'.pcs .stopper)
      ∧ s'.pcs .server = s.pcs .server :=
  (SocketThread.step_cases h).imp (And.imp_right (And.imp_left wsNext_cases))
    (And.imp_right (And.imp_left wsNext_cases))

end WsThreads

/-! ### The flags -/

/-- What the flags say about the two threads. -/
structure WsFlags (config : WsConfig) (sh : WsShared) (server stopper : WsPc) : Prop where
  server_owner : server.owner = some .server
  stopper_owner : stopper.owner = some .stopper
  start : server = .start → sh.webSocket = none
  terminate : stopper ≠ .stopping → sh.terminateExecution = true
  mutex : stopper = .stopping ∨ stopper = .joining → sh.wsMutex = false
  exited : sh.exited = true ↔ server = .exited
  joined : stopper = .resetting ∨ stopper = .returned → sh.exited = true
  reset : stopper = .returned → sh.webSocket = none
  owner : config.isHybrid = false → sh.staticOwner = false

namespace WsFlags

variable {config : WsConfig} {i : ServerInput} {sh sh' : WsShared} {server server' stopper
  stopper' : WsPc}

section

variable (h : WsFlags config sh server stopper)
include h

/-- `RunServer` goes on: nothing but the socket changes. -/
theorem runs (howner : server'.owner = some .server) (hserver : server ≠ .exited)
    (hinside : server'.inside = true) {webSocket : Option SocketState} {staticOwner aborted : Bool}
    (hstatic : config.isHybrid = false → staticOwner = false) :
    WsFlags config
      { sh with webSocket := webSocket, staticOwner := staticOwner, aborted := aborted }
      server' stopper := by
  have hexited : ¬ sh.exited = true := fun he => hserver (h.exited.mp he)
  exact { h with
    server_owner := howner
    start := fun heq => absurd heq (ne_of_inside hinside rfl)
    exited := iff_of_false hexited (ne_of_inside hinside rfl)
    reset := fun heq => absurd (h.joined (.inr heq)) hexited
    owner := hstatic }

theorem server_step (hstep : WsStep config i sh server sh' server') :
    WsFlags config sh' server' stopper := by
  have howner : server'.owner = some .server := hstep.owner.trans h.server_owner
  cases hstep with
  | create hmutex hterminate =>
    refine h.runs howner nofun ?_ ?_
    · split <;> rfl
    · intro hybrid
      simp [hybrid]
  | call hws hnext => exact h.runs howner nofun (inside_proceed _ _) h.owner
  | exit =>
    exact { h with
      server_owner := rfl
      start := nofun
      exited := iff_of_true rfl rfl
      joined := fun _ => rfl }
  | unlock | stop | join | reset => cases h.server_owner
  | _ => exact h.runs howner nofun rfl h.owner

/-- `StopServer` is in the middle: the server is terminated. -/
theorem stops (howner : stopper'.owner = some .stopper) (hinside : stopper'.inside = true)
    (hterminate : sh'.terminateExecution = true) (hstart : server = .start → sh'.webSocket = none)
    (hexited : sh'.exited = sh.exited) (hstatic : sh'.staticOwner = sh.staticOwner) :
    WsFlags config sh' server stopper' where
  server_owner := h.server_owner
  stopper_owner := howner
  start := hstart
  terminate _ := hterminate
  mutex hpc := by
    obtain heq | heq := hpc
    all_goals exact absurd heq (ne_of_inside hinside rfl)
  exited := by rw [hexited, h.exited]
  joined hpc := by
    obtain heq | heq := hpc
    all_goals exact absurd heq (ne_of_inside hinside rfl)
  reset heq := absurd heq (ne_of_inside hinside rfl)
  owner := by
    rw [hstatic]
    exact h.owner

theorem stopper_step (hstep : WsStep config i sh stopper sh' stopper') :
    WsFlags config sh' server stopper' := by
  have howner : stopper'.owner = some .stopper := hstep.owner.trans h.stopper_owner
  cases hstep with
  | stop hmutex =>
    refine h.stops howner ?_ rfl h.start rfl rfl
    split <;> rfl
  | call hws hnext =>
    refine h.stops howner (inside_proceed _ _) (h.terminate nofun) ?_ rfl rfl
    intro heq
    cases hws.symm.trans (h.start heq)
  | unlock =>
    exact { h with
      stopper_owner := rfl
      terminate := fun _ => h.terminate nofun
      mutex := fun _ => rfl
      joined := nofun
      reset := nofun }
  | join hexited =>
    exact { h with
      stopper_owner := rfl
      terminate := fun _ => h.terminate nofun
      mutex := nofun
      joined := fun _ => hexited
      reset := nofun }
  | reset =>
    exact { h with
      stopper_owner := rfl
      start := fun _ => rfl
      terminate := fun _ => h.terminate nofun
      mutex := nofun
      joined := fun _ => h.joined (.inl rfl)
      reset := fun _ => rfl }
  | _ => cases h.stopper_owner

end

end WsFlags

/-! ### What is known of the connection -/

/-- In the view, the connection's life cycle and its shutdown are as in `ServerThreads`. -/
def WsGood (ws : SocketState) (s : WsThreads) : Prop :=
  (∃ paired, Lifecycle paired (s.view ws)) ∧ Shutdown (s.view ws)

namespace WsGood

variable {config : WsConfig} {s s' : WsThreads} {ws ws' : SocketState} {t : SocketThread}
  {i : ServerInput}

section

variable (h : WsGood ws s)

include h

theorem owned : Owned (s.view ws) := by
  obtain ⟨⟨paired, hlife⟩, -⟩ := h
  exact hlife.owned

/-! The regions of the code, seen from the two threads. -/

theorem server_connecting (hst : ws.server.connectionState = .connecting) :
    (s.pcs .server).call.connecting = true := by
  have hacc := h.owned.accepting_of hst
  obtain heq | heq := WsThreads.view_pcs_eq ws s .accepting
  · rwa [heq] at hacc
  · rw [heq] at hacc
    cases hacc

variable (howner : (s.pcs t).owner = some t)

include howner

theorem connecting_of (ht : (s.pcs t).call.connecting = true) :
    ws.server.connectionState = .connecting := by
  obtain ⟨role, hrole⟩ := WsThreads.exists_view_pcs_eq ws howner
  exact h.owned.connecting_of (t := role) (by rwa [hrole])

theorem closing_of (ht : (s.pcs t).call.closing = true) : ws.server.connectionState = .closing := by
  obtain ⟨role, hrole⟩ := WsThreads.exists_view_pcs_eq ws howner
  exact h.owned.closing_of (t := role) (by rwa [hrole])

theorem fd_of_unset (ht : (s.pcs t).call.unset = true) : ws.server.connectionFd = none := by
  obtain ⟨⟨paired, hlife⟩, -⟩ := h
  obtain ⟨role, hrole⟩ := WsThreads.exists_view_pcs_eq ws howner
  exact hlife.sockets.unset role (by rwa [hrole])

theorem serverUp_of_shutting (ht : (s.pcs t).call.shutting = true) :
    ws.server.serverUp = false := by
  obtain ⟨role, hrole⟩ := WsThreads.exists_view_pcs_eq ws howner
  exact h.2.down role (by rwa [hrole])

end

theorem step (h : WsGood ws s) (howner : ∀ t, (s.pcs t).owner = some t)
    (hstart : ∀ t, s.pcs t = .start → s.shared.webSocket = none)
    (hs : s.step (wsNext config) t i = some s') (hws : s.shared.webSocket = some ws)
    (hws' : s'.shared.webSocket = some ws') : WsGood ws' s' := by
  have hreaches := WsThreads.reaches_view howner hstart hs hws hws'
  obtain ⟨⟨paired, hlife⟩, hshut⟩ := h
  exact ⟨⟨paired, hlife.reaches hreaches⟩, (hshut.reaches hlife.owned hreaches).2⟩

theorem down : (∃ paired, Lifecycle paired { shared := .down, pcs := fun _ => .idle })
    ∧ Shutdown { shared := .down, pcs := fun _ => .idle } := by
  refine ⟨⟨False, ⟨fun _ => trivial, ⟨?_, ?_⟩, ⟨?_, ?_⟩⟩,
    ⟨nofun, fun _ => .inl rfl, nofun, nofun, [], rfl⟩, rfl⟩, nofun, ⟨?_, ?_⟩, nofun, nofun, nofun,
    nofun⟩
  all_goals simp [IsConnecting, IsClosing, IsStopping, ServerShared.down, ServerPc.connecting,
    ServerPc.closing, ServerPc.stopping]

theorem init (call : AcceptCall) (i : ServerInput) (hcall : ∀ t, (s.pcs t).call = .idle) :
    WsGood { server := initWebSocket call i } s := by
  have hview : s.view { server := initWebSocket call i }
      = { shared := initWebSocket call i, pcs := fun _ => .idle } := by
    have hpcs : (fun role : ServerThread => (s.pcs role.thread).callAs role)
        = fun _ => ServerPc.idle := by
      funext role
      rw [callAs, hcall]
      rfl
    exact congrArg (mk (initWebSocket call i)) hpcs
  rw [WsGood, hview]
  have hinitial : ∀ v : ServerThreads, v.Initial → (∃ paired, Lifecycle paired v) ∧ Shutdown v :=
    fun v hv => ⟨⟨_, Lifecycle.initial hv⟩, Shutdown.initial hv⟩
  unfold initWebSocket
  split
  · exact hinitial _ (.inl ⟨_, rfl⟩)
  · exact hinitial _ (.inr ⟨_, rfl⟩)
  · exact down

end WsGood

end ArkToolchain
