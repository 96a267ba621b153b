/-
The sessions of the command-line client and their socket threads (session.cpp of the client).

A session starts a thread that reads the id of the session through a pointer into it, looks the
session up under the id, and then stays in its loop.  To delete a session is to close its socket
and to destroy it; nobody waits for the thread.

Steps are single operations on a session, its socket, or the table.  A session is known by the
number of sessions created before it.

Main result: no thread outlives its session exactly if the command thread is careful in every step
(`sessions_outlive_iff`).
-/
import ArkToolchain.ClientMessages

namespace ArkToolchain

open Threads

namespace ArkDb

/-! ### Threads -/

inductive SessionThread
  | command
  /-- the socket thread of a session -/
  | socket (session : Nat)
  deriving DecidableEq

structure Session where
  sessionId : Nat
  sockInfo : Bytes
  /-- `uv_thread_create` has been called -/
  started : Bool := false
  isConnected : Bool := false
  deriving DecidableEq

structure Sessions where
  /-- all sessions that have been created -/
  created : List Session := []
  /-- `sessions_`: the session under an id -/
  sessions : Nat → Option Nat := fun _ => none
  currentSessionId : Nat := 0
  /-- the accesses of socket threads to sessions that had been destroyed -/
  stale : List Nat := []
  /-- the socket threads that have come to the loop of a session -/
  served : List (Nat × Nat) := []

open Sessions

namespace Sessions

variable (sh : Sessions)

def IsAlive (session : Nat) : Prop :=
  (sh.created[session]?.bind fun s => sh.sessions s.sessionId) = some session

instance (session : Nat) : Decidable (sh.IsAlive session) :=
  inferInstanceAs (Decidable (_ = _))

def getSessionById (sessionId : Nat) : Option Nat :=
  if sessionId < maxSessionNum then sh.sessions sessionId else none

/-- `make_unique<Session>` in `CreateSessionById`. -/
def construct (sessionId : Nat) (sockInfo : Bytes) : Sessions :=
  { sh with
    created := sh.created ++ [{ sessionId, sockInfo }]
    sessions := Function.update sh.sessions sessionId (some sh.created.length) }

/-- `sessions_[sessionId] = nullptr`. -/
def destroy (sessionId : Nat) : Sessions :=
  { sh with sessions := Function.update sh.sessions sessionId none }

def modifySession (session : Nat) (f : Session → Session) : Sessions :=
  { sh with created := sh.created.modify session f }

/-- The loop of `CreateNewSession`: the id for the new session, unless there is a session
with the same socket. -/
def newId (sockInfo : Bytes) : Option Nat :=
  if ∃ i < maxSessionNum, ∃ session ∈ sh.sessions i,
      (sh.created[session]?.map Session.sockInfo) = some sockInfo then none
  else (List.range maxSessionNum).find? fun i => (sh.sessions i).isNone

end Sessions

inductive SessionPc
  /-- before `CreateDefaultSession` -/
  | creatingDefault
  /-- the command thread waits for a command -/
  | idle
  /-- before `Start` -/
  | starting (sessionId session : Nat)
  /-- before `Stop` in `DelSessionById` -/
  | stopping (sessionId session : Nat)
  /-- before `sessions_[sessionId] = nullptr` -/
  | destroying (sessionId : Nat)
  /-- before the test of `currentSessionId_` -/
  | resetting (sessionId : Nat)
  /-- before `SocketMessageThread` reads the id of its session -/
  | reading
  /-- before `GetSessionById` -/
  | finding (sessionId : Nat)
  /-- before `IsConnected` in `SocketMessageLoop` of a session -/
  | testing (session : Nat)
  /-- before `Decode` has returned -/
  | decoding (session : Nat)
  /-- before `sessionId_` is read -/
  | pushing (session : Nat)
  | left
  deriving DecidableEq

inductive SessionInput
  | go
  /-- `session-new`, or the default session -/
  | createSession (sockInfo : Bytes)
  /-- the socket is connected or not -/
  | connect (connects : Bool)
  /-- `session-remove` -/
  | delSession (sessionId : Nat)
  /-- `session` -/
  | switchSession (sessionId : Nat)
  /-- `Decode` returns a text -/
  | receive (text : Bytes)
  /-- `Decode` fails, and closes the socket -/
  | fail
  deriving DecidableEq

def commandNext (sh : Sessions) : SessionPc → SessionInput → Option (Sessions × SessionPc)
  | .creatingDefault, .createSession sockInfo =>
    some (sh.construct 0 sockInfo, .starting 0 sh.created.length)
  | .idle, .createSession sockInfo =>
    match sh.newId sockInfo with
    | some id => some (sh.construct id sockInfo, .starting id sh.created.length)
    | none => some (sh, .idle)
  | .starting sessionId session, .connect connects =>
    if connects then
      some (sh.modifySession session fun s => { s with started := true, isConnected := true },
        .idle)
    -- without the default session `Main` ends
    else some (sh.destroy sessionId, if session = 0 then .left else .idle)
  | .idle, .delSession sessionId =>
    if sessionId = 0 then some (sh, .idle)
    else
      match sh.getSessionById sessionId with
      | none => some (sh, .idle)
      | some session => some (sh, .stopping sessionId session)
  | .stopping sessionId session, .go =>
    some (sh.modifySession session fun s => { s with isConnected := false }, .destroying sessionId)
  | .destroying sessionId, .go => some (sh.destroy sessionId, .resetting sessionId)
  | .resetting sessionId, .go =>
    some (if sessionId = sh.currentSessionId then { sh with currentSessionId := 0 } else sh, .idle)
  | .idle, .switchSession sessionId =>
    match sh.getSessionById sessionId with
    | none => some (sh, .idle)
    | some _ => some ({ sh with currentSessionId := sessionId }, .idle)
  | _, _ => none

/-- A socket thread uses a session; without it, it is lost. -/
def useSession (sh : Sessions) (session : Nat) (next : Sessions × SessionPc) :
    Option (Sessions × SessionPc) :=
  if sh.IsAlive session then some next
  else some ({ sh with stale := sh.stale ++ [session] }, .left)

/-- `SocketMessageThread`, started by `own`, and `SocketMessageLoop`. -/
def socketThreadNext (own : Nat) (self : Session) (sh : Sessions) :
    SessionPc → SessionInput → Option (Sessions × SessionPc)
  | .reading, .go => useSession sh own (sh, .finding self.sessionId)
  | .finding sessionId, .go =>
    match sh.getSessionById sessionId with
    | none => some (sh, .left)
    | some session => some ({ sh with served := sh.served ++ [(own, session)] }, .testing session)
  | .testing session, .go =>
    let isConnected := (sh.created[session]?.map Session.isConnected).getD false
    useSession sh session (sh, if isConnected then .decoding session else .left)
  | .decoding session, .receive text =>
    useSession sh session
      (sh, if text.length % 2 ^ 32 = 0 then .testing session else .pushing session)
  | .decoding session, .fail =>
    useSession sh session
      (sh.modifySession session fun s => { s with isConnected := false }, .testing session)
  | .pushing session, .go => useSession sh session (sh, .testing session)
  | _, _ => none

def sessionNext (t : SessionThread) (sh : Sessions) (pc : SessionPc) (i : SessionInput) :
    Option (Sessions × SessionPc) :=
  match t with
  | .command => commandNext sh pc i
  | .socket session =>
    sh.created[session]?.bind fun self =>
      if self.started then socketThreadNext session self sh pc i else none

abbrev SessionThreads := Threads SessionThread Sessions SessionPc

def sessionStart : SessionThreads where
  shared := {}
  pcs
    | .command => .creatingDefault
    | .socket _ => .reading

/-! ### What is wanted -/

/-- No socket thread has used a session that had been destroyed, or has served another
session than its own. -/
structure SessionThreads.Fine (s : SessionThreads) : Prop where
  stale : s.shared.stale = []
  served : ∀ pair ∈ s.shared.served, pair.2 = pair.1

/-- That is so whatever the socket threads do next. -/
def SessionThreads.Safe (s : SessionThreads) : Prop :=
  ∀ schedule : List (SessionThread × SessionInput), (∀ e ∈ schedule, e.1 ≠ .command) →
    Always sessionNext SessionThreads.Fine s schedule

/-- The socket thread of a session does not need it: it has not been started, it has left,
or it has read the id but has not looked the session up. -/
def Released (sh : Sessions) (session : Nat) (pc : SessionPc) : Prop :=
  (∀ self ∈ sh.created[session]?, self.started = false) ∨ pc = .left ∨ ∃ id, pc = .finding id

/-- What a step needs: a session that is destroyed is not needed, and no thread is about to
look up the id of a session that is created. -/
def SessionThreads.Careful (s : SessionThreads) (t : SessionThread) (i : SessionInput) : Prop :=
  match t, s.pcs t, i with
  | .command, .destroying sessionId, .go =>
    ∀ session ∈ s.shared.sessions sessionId, Released s.shared session (s.pcs (.socket session))
  | .command, .idle, .createSession sockInfo =>
    ∀ sessionId ∈ s.shared.newId sockInfo, ∀ session, s.pcs (.socket session) ≠ .finding sessionId
  | _, _, _ => True

/-! ### Sessions that are alive -/

namespace Sessions

variable {sh : Sessions} {session id : Nat} {sockInfo : Bytes}

theorem isAlive_iff :
    sh.IsAlive session ↔
      ∃ s, sh.created[session]? = some s ∧ sh.sessions s.sessionId = some session :=
  Option.bind_eq_some_iff

theorem getElem?_construct {s : Session} :
    (sh.construct id sockInfo).created[session]? = some s ↔
      sh.created[session]? = some s ∨
        session = sh.created.length ∧ s = { sessionId := id, sockInfo } := by
  show (sh.created ++ [_])[session]? = some s ↔ _
  rcases Nat.lt_trichotomy session sh.created.length with hlt | rfl | hgt
  · rw [List.getElem?_append_left hlt]
    simp [Nat.ne_of_lt hlt]
  · simp [eq_comm]
  · rw [List.getElem?_eq_none (by rw [List.length_append]; exact hgt),
      List.getElem?_eq_none (Nat.le_of_lt hgt)]
    simp [Nat.ne_of_gt hgt]

theorem IsAlive.construct (hfree : sh.sessions id = none) (h : sh.IsAlive session) :
    (sh.construct id sockInfo).IsAlive session := by
  obtain ⟨s, hs, hslot⟩ := isAlive_iff.mp h
  have hne : s.sessionId ≠ id := by
    rintro rfl
    rw [hfree] at hslot
    cases hslot
  exact isAlive_iff.mpr
    ⟨s, getElem?_construct.mpr (.inl hs), (Function.update_of_ne hne _ _).trans hslot⟩

theorem IsAlive.destroy (h : sh.IsAlive session) (hne : sh.sessions id ≠ some session) :
    (sh.destroy id).IsAlive session := by
  obtain ⟨s, hs, hslot⟩ := isAlive_iff.mp h
  have hid : s.sessionId ≠ id := by
    rintro rfl
    exact hne hslot
  exact isAlive_iff.mpr ⟨s, hs, (Function.update_of_ne hid _ _).trans hslot⟩

variable {f : Session → Session}

theorem getElem?_modifySession (other : Nat) :
    (sh.modifySession session f).created[other]?
      = sh.created[other]?.map fun s => if session = other then f s else s :=
  List.getElem?_modify _ _ _ _

theorem isAlive_modifySession (hf : ∀ s, (f s).sessionId = s.sessionId) {other : Nat} :
    (sh.modifySession session f).IsAlive other ↔ sh.IsAlive other := by
  have hsame (s : Session) : (if session = other then f s else s).sessionId = s.sessionId := by
    split
    · exact hf s
    · rfl
  rw [IsAlive, IsAlive, getElem?_modifySession, Option.bind_map]
  simp only [Function.comp_def, hsame]
  rfl

theorem newId_lt (h : sh.newId sockInfo = some id) : id < maxSessionNum := by
  obtain ⟨-, h⟩ := Option.ite_none_left_eq_some.mp h
  exact List.mem_range.mp (List.mem_of_find?_eq_some h)

theorem sessions_newId (h : sh.newId sockInfo = some id) : sh.sessions id = none := by
  obtain ⟨-, h⟩ := Option.ite_none_left_eq_some.mp h
  have hnone := List.find?_some h
  exact Option.isNone_iff_eq_none.mp hnone

theorem sessions_getSessionById (h : sh.getSessionById id = some session) :
    sh.sessions id = some session :=
  (Option.ite_none_right_eq_some.mp h).2

end Sessions

/-! ### The invariant -/

/-- What a socket thread has of its session. -/
def Keeps (sh : Sessions) (own : Nat) : SessionPc → Prop
  | .reading => ∀ s ∈ sh.created[own]?, s.started = true → sh.IsAlive own
  | .finding sessionId => sh.sessions sessionId = none ∨ sh.sessions sessionId = some own
  | .testing session => session = own ∧ sh.IsAlive own
  | .decoding session => session = own ∧ sh.IsAlive own
  | .pushing session => session = own ∧ sh.IsAlive own
  | .left => True
  | _ => False

/-- What holds of the sessions, of the command thread and of the socket threads. -/
structure SessionInv (sh : Sessions) (command : SessionPc) (socket : Nat → SessionPc) : Prop where
  slots : ∀ id session, sh.sessions id = some session →
    ∃ s, sh.created[session]? = some s ∧ s.sessionId = id
  /-- a thread that has made a step has been started -/
  started : ∀ session, socket session ≠ .reading →
    ∃ s, sh.created[session]? = some s ∧ s.started = true
  keeps : ∀ session, Keeps sh session (socket session)
  stale : sh.stale = []
  served : ∀ pair ∈ sh.served, pair.2 = pair.1
  fresh : command = .creatingDefault → sh.created = []
  starting : ∀ id session, command = .starting id session →
    sh.sessions id = some session ∧ ∀ s ∈ sh.created[session]?, s.started = false

variable {sh sh' : Sessions} {command command' pc : SessionPc} {socket : Nat → SessionPc}
  {i : SessionInput} {session id : Nat} {sockInfo : Bytes}

theorem sessionInv_start : SessionInv {} .creatingDefault fun _ => .reading where
  slots := by simp
  started := by simp
  keeps _ := by simp [Keeps]
  stale := rfl
  served := by simp
  fresh _ := rfl
  starting := by simp

theorem Keeps.mono {own : Nat} (h : Keeps sh own pc)
    (hstarted : ∀ s' ∈ sh'.created[own]?, s'.started = true →
      sh.IsAlive own ∨ ∃ s ∈ sh.created[own]?, s.started = true)
    (halive : sh.IsAlive own → sh'.IsAlive own)
    (hfinding : ∀ id, pc = .finding id → sh'.sessions id = none ∨ sh'.sessions id = some own) :
    Keeps sh' own pc := by
  cases pc with
  | reading =>
    intro s' hs' hstarted'
    rcases hstarted s' hs' hstarted' with hown | ⟨s, hs, hstart⟩
    · exact halive hown
    · exact halive (h s hs hstart)
  | finding id => exact hfinding id rfl
  | testing session | decoding session | pushing session => exact ⟨h.1, halive h.2⟩
  | left => trivial
  | _ => exact h.elim

theorem Keeps.finding_destroy {own id' : Nat} (h : Keeps sh own (.finding id')) :
    Keeps (sh.destroy id) own (.finding id') := by
  show Function.update sh.sessions id none id' = none ∨ Function.update sh.sessions id none id' = _
  by_cases heq : id' = id
  · exact .inl (heq ▸ Function.update_self _ _ _)
  · rw [Function.update_of_ne heq]
    exact h

namespace SessionInv

variable (h : SessionInv sh command socket)
include h

theorem isAlive (hslot : sh.sessions id = some session) : sh.IsAlive session := by
  obtain ⟨s, hs, rfl⟩ := h.slots id session hslot
  exact isAlive_iff.mpr ⟨s, hs, hslot⟩

theorem construct (hfree : sh.sessions id = none)
    (hfinding : ∀ session, socket session ≠ .finding id) :
    SessionInv (sh.construct id sockInfo) (.starting id sh.created.length) socket where
  slots id' session hslot := by
    by_cases heq : id' = id
    · obtain rfl : sh.created.length = session := by
        simpa [Sessions.construct, heq] using hslot
      exact ⟨_, Sessions.getElem?_construct.mpr (.inr ⟨rfl, rfl⟩), heq.symm⟩
    · obtain ⟨s, hs, hid⟩ := h.slots id' session ((Function.update_of_ne heq _ _).symm.trans hslot)
      exact ⟨s, Sessions.getElem?_construct.mpr (.inl hs), hid⟩
  started session hpc := by
    obtain ⟨s, hs, hstarted⟩ := h.started session hpc
    exact ⟨s, Sessions.getElem?_construct.mpr (.inl hs), hstarted⟩
  keeps session := by
    refine (h.keeps session).mono ?_ (Sessions.IsAlive.construct hfree) ?_
    · intro s hs hstarted
      rcases Sessions.getElem?_construct.mp hs with hs | ⟨-, rfl⟩
      · exact .inr ⟨s, hs, hstarted⟩
      · cases hstarted
    · intro id' hpc
      have hkeeps := h.keeps session
      rw [hpc] at hkeeps
      have hne : id' ≠ id := by
        rintro rfl
        exact hfinding session hpc
      show Function.update sh.sessions id _ id' = none ∨ Function.update sh.sessions id _ id' = _
      rw [Function.update_of_ne hne]
      exact hkeeps
  stale := h.stale
  served := h.served
  fresh := by simp
  starting id' session heq := by
    cases heq
    refine ⟨Function.update_self _ _ _, ?_⟩
    intro s hs
    rcases Sessions.getElem?_construct.mp hs with hs | ⟨-, rfl⟩
    · rw [List.getElem?_eq_none (Nat.le_refl _)] at hs
      cases hs
    · rfl

/-- A change within a session that does not start it, or that starts a session which is
alive. -/
theorem modifySession {f : Session → Session}
    (hf : ∀ s, (f s).sessionId = s.sessionId) (hkeep : ∀ s, s.started = true → (f s).started = true)
    (hstarted : (∀ s, (f s).started = s.started) ∨ sh.IsAlive session)
    (hfresh : command' = .creatingDefault → sh.created = [])
    (hstarting : ∀ id session, command' = .starting id session →
      sh.sessions id = some session ∧
        ∀ s ∈ sh.created[session]?, s.started = false ∧ (f s).started = false) :
    SessionInv (sh.modifySession session f) command' socket where
  slots id' session' hslot := by
    obtain ⟨s, hs, hid⟩ := h.slots id' session' hslot
    rw [Sessions.getElem?_modifySession, hs]
    refine ⟨_, rfl, ?_⟩
    split
    · exact (hf s).trans hid
    · exact hid
  started session' hpc := by
    obtain ⟨s, hs, hstart⟩ := h.started session' hpc
    rw [Sessions.getElem?_modifySession, hs]
    refine ⟨_, rfl, ?_⟩
    split
    · exact hkeep s hstart
    · exact hstart
  keeps session' := by
    refine (h.keeps session').mono ?_ (isAlive_modifySession hf).mpr ?_
    · intro s' hs' hstart
      rw [Sessions.getElem?_modifySession] at hs'
      obtain ⟨s, hs, rfl⟩ := Option.map_eq_some_iff.mp hs'
      split at hstart
      · rename_i heq
        rcases hstarted with hsame | halive
        · exact .inr ⟨s, hs, (hsame s).symm.trans hstart⟩
        · exact .inl (heq ▸ halive)
      · exact .inr ⟨s, hs, hstart⟩
    · intro id' hpc
      have hkeeps := h.keeps session'
      rw [hpc] at hkeeps
      exact hkeeps
  stale := h.stale
  served := h.served
  fresh heq := by
    show sh.created.modify session f = []
    rw [hfresh heq, List.modify_nil]
  starting id' session' heq := by
    obtain ⟨hslot, hunstarted⟩ := hstarting id' session' heq
    refine ⟨hslot, ?_⟩
    intro s' hs'
    rw [Sessions.getElem?_modifySession] at hs'
    obtain ⟨s, hs, rfl⟩ := Option.map_eq_some_iff.mp hs'
    split
    · exact (hunstarted s hs).2
    · exact (hunstarted s hs).1

theorem destroy (hreleased : ∀ session ∈ sh.sessions id, Released sh session (socket session))
    (hfresh : command' ≠ .creatingDefault)
    (hstarting : ∀ id session, command' ≠ .starting id session) :
    SessionInv (sh.destroy id) command' socket where
  slots id' session hslot := by
    have hne : id' ≠ id := by
      rintro rfl
      simp [Sessions.destroy] at hslot
    exact h.slots id' session ((Function.update_of_ne hne _ _).symm.trans hslot)
  started := h.started
  keeps session := by
    have hkeeps := h.keeps session
    by_cases hslot : sh.sessions id = some session
    · rcases hreleased session hslot with hunstarted | hleft | ⟨id', hfinding⟩
      · have hpc : socket session = .reading := by
          by_contra hpc
          obtain ⟨s, hs, hstarted⟩ := h.started session hpc
          rw [hunstarted s hs] at hstarted
          cases hstarted
        rw [hpc]
        intro s hs hstarted
        rw [hunstarted s hs] at hstarted
        cases hstarted
      · rw [hleft]
        trivial
      · rw [hfinding] at hkeeps ⊢
        exact hkeeps.finding_destroy
    · refine hkeeps.mono (fun s hs hstarted => .inr ⟨s, hs, hstarted⟩) (·.destroy hslot) ?_
      intro id' hpc
      rw [hpc] at hkeeps
      exact hkeeps.finding_destroy
  stale := h.stale
  served := h.served
  fresh heq := absurd heq hfresh
  starting id' session' heq := absurd heq (hstarting id' session')

/-- **A step of the command thread**. -/
theorem command_step
    (hdestroy : ∀ id, command = .destroying id → i = .go →
      ∀ session ∈ sh.sessions id, Released sh session (socket session))
    (hconstruct : ∀ sockInfo, command = .idle → i = .createSession sockInfo →
      ∀ id ∈ sh.newId sockInfo, ∀ session, socket session ≠ .finding id)
    (hstep : commandNext sh command i = some (sh', command')) : SessionInv sh' command' socket := by
  revert hstep
  fun_cases commandNext sh command i
  all_goals rintro ⟨⟩
  case case1 =>
    -- the default session is the first one
    have hnil := h.fresh rfl
    apply h.construct
    · by_contra hslot
      obtain ⟨session, hslot⟩ := Option.ne_none_iff_exists'.mp hslot
      obtain ⟨s, hs, -⟩ := h.slots 0 session hslot
      simp [hnil] at hs
    · intro session hpc
      obtain ⟨s, hs, -⟩ := h.started session (by simp [hpc])
      simp [hnil] at hs
  case case2 sockInfo id hid =>
    exact h.construct (sessions_newId hid) (hconstruct sockInfo rfl rfl id hid)
  case case4 id session =>
    obtain ⟨hslot, -⟩ := h.starting id session rfl
    exact h.modifySession (fun _ => rfl) (fun _ _ => rfl) (.inr (h.isAlive hslot)) (by simp)
      (by simp)
  case case5 id session _ _ =>
    obtain ⟨hslot, hunstarted⟩ := h.starting id session rfl
    apply h.destroy
    · intro session' hslot'
      obtain rfl : session = session' := Option.some.inj (hslot.symm.trans hslot')
      exact .inl hunstarted
    · split <;> simp
    · intro id' session'
      split <;> simp
  case case8 | case13 => exact { h with fresh := by simp, starting := by simp }
  case case9 =>
    exact h.modifySession (fun _ => rfl) (fun _ => id) (.inl fun _ => rfl) (by simp) (by simp)
  case case10 id => exact h.destroy (hdestroy id rfl rfl) (by simp) (by simp)
  case case11 =>
    split
    all_goals exact { h with fresh := by simp, starting := by simp }
  all_goals exact h

theorem update (hstarted : ∃ s, sh.created[session]? = some s ∧ s.started = true)
    (hkeeps : Keeps sh session pc) : SessionInv sh command (Function.update socket session pc) :=
  { h with
    started := (Function.forall_update_iff socket fun session pc => pc ≠ .reading →
      ∃ s, sh.created[session]? = some s ∧ s.started = true).mpr
        ⟨fun _ => hstarted, fun other _ => h.started other⟩
    keeps := (Function.forall_update_iff socket (Keeps sh)).mpr
      ⟨hkeeps, fun other _ => h.keeps other⟩ }

omit h in
theorem useSession_of_isAlive (h : sh.IsAlive session) (next : Sessions × SessionPc) :
    useSession sh session next = some next :=
  if_pos h

variable {self : Session}

/-- **A step of a socket thread**: it never needs care. -/
theorem socket_step (hself : sh.created[session]? = some self) (hstarted : self.started = true)
    (hstep : socketThreadNext session self sh (socket session) i = some (sh', pc)) :
    SessionInv sh' command (Function.update socket session pc) := by
  have hkeeps := h.keeps session
  generalize socket session = old at hkeeps hstep
  have hself' : ∃ s, sh.created[session]? = some s ∧ s.started = true := ⟨self, hself, hstarted⟩
  revert hstep
  fun_cases socketThreadNext session self sh old i
  case case1 =>
    have halive : sh.IsAlive session := hkeeps self hself hstarted
    rw [useSession_of_isAlive halive]
    rintro ⟨⟩
    obtain ⟨s, hs, hslot⟩ := isAlive_iff.mp halive
    obtain rfl : self = s := Option.some.inj (hself.symm.trans hs)
    exact h.update hself' (.inr hslot)
  case case2 =>
    rintro ⟨⟩
    exact h.update hself' trivial
  case case3 sessionId found hfound =>
    rintro ⟨⟩
    have hslot := sessions_getSessionById hfound
    obtain rfl : found = session := by
      rcases hkeeps with hnone | hown
      · rw [hnone] at hslot
        cases hslot
      · exact Option.some.inj (hslot.symm.trans hown)
    have hnext : SessionInv sh command (Function.update socket _ (.testing found)) :=
      h.update hself' ⟨rfl, h.isAlive hslot⟩
    exact { hnext with
      served := by
        intro pair hpair
        rcases List.mem_append.mp hpair with hpair | hpair
        · exact h.served pair hpair
        · rw [List.mem_singleton.mp hpair] }
  case case8 => nofun
  -- the other steps use the session
  all_goals
    obtain ⟨rfl, halive⟩ := hkeeps
    rw [useSession_of_isAlive halive]
    rintro ⟨⟩
    have hnext : SessionInv sh command (Function.update socket _ (.testing _)) :=
      h.update hself' ⟨rfl, halive⟩
  case case4 =>
    apply h.update hself'
    split
    · exact ⟨rfl, halive⟩
    · trivial
  case case5 =>
    apply h.update hself'
    split <;> exact ⟨rfl, halive⟩
  case case6 =>
    refine hnext.modifySession (fun _ => rfl) (fun _ => id) (.inl fun _ => rfl) h.fresh ?_
    intro id' session' heq
    obtain ⟨hslot, hunstarted⟩ := h.starting id' session' heq
    exact ⟨hslot, fun s hs => ⟨hunstarted s hs, hunstarted s hs⟩⟩
  case case7 => exact hnext

end SessionInv

/-! ### Runs -/

def SessionThreads.Inv (s : SessionThreads) : Prop :=
  SessionInv s.shared (s.pcs .command) fun session => s.pcs (.socket session)

variable {s : SessionThreads}

theorem SessionThreads.Inv.fine (h : s.Inv) : s.Fine :=
  ⟨h.stale, h.served⟩

variable {s' : SessionThreads} {t : SessionThread}

theorem SessionThreads.Inv.step (h : s.Inv) (hstep : s.step sessionNext t i = some s')
    (hcareful : s.Careful t i) : s'.Inv := by
  obtain ⟨sh', pc, hnext, rfl⟩ := step_eq_some hstep
  cases t with
  | command =>
    refine h.command_step ?_ ?_ hnext
    · rintro id hpc rfl
      simpa only [SessionThreads.Careful, hpc] using hcareful
    · rintro sockInfo hpc rfl
      simpa only [SessionThreads.Careful, hpc] using hcareful
  | socket session =>
    obtain ⟨self, hself, hnext⟩ := Option.bind_eq_some_iff.mp hnext
    obtain ⟨hstarted, hnext⟩ := Option.ite_none_right_eq_some.mp hnext
    have hinj : Function.Injective SessionThread.socket := fun _ _ => SessionThread.socket.inj
    show SessionInv sh' (Function.update s.pcs (.socket session) pc .command)
      fun k => Function.update s.pcs (.socket session) pc (.socket k)
    rw [Function.update_of_ne (by simp), Function.update_comp_eq_of_injective' s.pcs hinj]
    exact h.socket_step hself hstarted hnext

theorem SessionThreads.Inv.safe (h : s.Inv) : s.Safe := by
  intro schedule hsockets
  induction schedule generalizing s with
  | nil => exact h.fine
  | cons e schedule ih =>
    obtain ⟨t, i⟩ := e
    refine ⟨h.fine, fun s' hstep => ih (h.step hstep ?_) ?_⟩
    · cases t with
      | command => exact absurd rfl (hsockets (.command, i) List.mem_cons_self)
      | socket session => trivial
    · exact fun e he => hsockets e (List.mem_cons_of_mem _ he)

theorem not_safe_of_next
    (hnext : sessionNext (.socket session) s.shared (s.pcs (.socket session)) i = some (sh', pc))
    (hbad : sh'.stale ≠ [] ∨ ∃ pair ∈ sh'.served, pair.2 ≠ pair.1) : ¬ s.Safe := by
  intro hsafe
  have hfine := (hsafe [(.socket session, i)] (by simp)).2
    ⟨sh', Function.update s.pcs (.socket session) pc⟩ (by rw [step, hnext]; rfl)
  rcases hbad with hstale | ⟨pair, hpair, hne⟩
  · exact hstale hfine.stale
  · exact hne (hfine.served pair hpair)

theorem SessionInv.not_isAlive_destroy (h : SessionInv sh command socket)
    (hslot : sh.sessions id = some session) : ¬ (sh.destroy id).IsAlive session := by
  intro halive
  obtain ⟨s, hs, hslot'⟩ := isAlive_iff.mp halive
  obtain ⟨s', hs', rfl⟩ := h.slots id session hslot
  obtain rfl : s' = s := Option.some.inj (hs'.symm.trans hs)
  simp [Sessions.destroy] at hslot'

theorem exists_stale (hlost : ¬ sh.IsAlive session) (hself : sh.created[session]? = some self)
    (hstarted : self.started = true)
    (hpc : pc = .reading ∨ pc = .testing session ∨ pc = .decoding session ∨ pc = .pushing session) :
    ∃ i, sessionNext (.socket session) sh pc i
      = some ({ sh with stale := sh.stale ++ [session] }, .left) := by
  have huse (next : Sessions × SessionPc) : useSession sh session next
      = some ({ sh with stale := sh.stale ++ [session] }, .left) := if_neg hlost
  rcases hpc with rfl | rfl | rfl | rfl
  case inr.inr.inl => exact ⟨.fail, by simp [sessionNext, hself, hstarted, socketThreadNext, huse]⟩
  all_goals exact ⟨.go, by simp [sessionNext, hself, hstarted, socketThreadNext, huse]⟩

/-- A thread that looks for its session after the id has been used again finds the new
session. -/
theorem exists_stranger (sockInfo : Bytes) (hself : sh.created[session]? = some self)
    (hstarted : self.started = true) (hid : id < maxSessionNum) :
    sessionNext (.socket session) (sh.construct id sockInfo) (.finding id) .go
      = some ({ sh.construct id sockInfo with
          served := sh.served ++ [(session, sh.created.length)] },
          .testing sh.created.length) := by
  have hget : (sh.construct id sockInfo).getSessionById id = some sh.created.length := by
    rw [getSessionById, if_pos hid]
    exact Function.update_self _ _ _
  simp only [sessionNext, Sessions.getElem?_construct.mpr (.inl hself), Option.bind_some, hstarted,
    if_true, socketThreadNext, hget]
  rfl

theorem SessionInv.of_not_released (h : SessionInv sh command socket)
    (hreleased : ¬ Released sh session (socket session)) :
    (∃ self, sh.created[session]? = some self ∧ self.started = true) ∧
      (socket session = .reading ∨ socket session = .testing session
        ∨ socket session = .decoding session ∨ socket session = .pushing session) := by
  rw [Released, not_or, not_or] at hreleased
  obtain ⟨hunstarted, hleft, hfinding⟩ := hreleased
  refine ⟨by simpa using hunstarted, ?_⟩
  have hkeeps := h.keeps session
  rcases hpc : socket session
  all_goals rw [hpc] at hkeeps hleft hfinding
  case reading => exact .inl rfl
  case finding id => exact absurd ⟨id, rfl⟩ hfinding
  case testing found => exact .inr (.inl (by rw [hkeeps.1]))
  case decoding found => exact .inr (.inr (.inl (by rw [hkeeps.1])))
  case pushing found => exact .inr (.inr (.inr (by rw [hkeeps.1])))
  case left => exact absurd rfl hleft
  all_goals exact hkeeps.elim

theorem SessionThreads.Inv.not_safe (h : s.Inv) (hstep : s.step sessionNext t i = some s')
    (hcareless : ¬ s.Careful t i) : ¬ s'.Safe := by
  obtain ⟨sh', pc, hnext, rfl⟩ := step_eq_some hstep
  have hsocket (session : Nat) : Function.update s.pcs .command pc (.socket session)
      = s.pcs (.socket session) := Function.update_of_ne (by simp) _ _
  unfold SessionThreads.Careful at hcareless
  split at hcareless
  · -- a session is destroyed too early
    rename_i id hpc
    rw [sessionNext, hpc] at hnext
    cases hnext
    simp only [not_forall] at hcareless
    obtain ⟨session, hslot, hneeded⟩ := hcareless
    obtain ⟨⟨self, hself, hstarted⟩, hplace⟩ := h.of_not_released hneeded
    obtain ⟨i, hi⟩ := exists_stale (h.not_isAlive_destroy hslot) hself hstarted hplace
    exact not_safe_of_next hi (.inl (by simp))
  · -- an id is used again too early
    rename_i sockInfo hpc
    simp only [not_forall, not_not] at hcareless
    obtain ⟨id, hid, session, hfinding⟩ := hcareless
    have hcommand : commandNext s.shared .idle (.createSession sockInfo)
        = some (s.shared.construct id sockInfo, .starting id s.shared.created.length) := by
      simp only [commandNext]
      rw [hid]
    rw [sessionNext, hpc, hcommand] at hnext
    cases hnext
    obtain ⟨self, hself, hstarted⟩ := h.started session (by simp [hfinding])
    have hlt := (List.getElem?_eq_some_iff.mp hself).1
    have hi := exists_stranger sockInfo hself hstarted (newId_lt hid)
    rw [← hfinding, ← hsocket session] at hi
    exact not_safe_of_next hi
      (.inr ⟨_, List.mem_append_right _ (List.mem_singleton_self _), Nat.ne_of_gt hlt⟩)
  · exact absurd trivial hcareless

/-- **Sessions and their threads**: whatever the socket threads do at any time of a run, none
uses a session that has been destroyed or serves a session of another thread, if and only if
the command thread is careful in every step. -/
theorem sessions_outlive_iff (schedule : List (SessionThread × SessionInput)) :
    Always sessionNext SessionThreads.Safe sessionStart schedule ↔
      EachStep sessionNext SessionThreads.Careful sessionStart schedule :=
  always_iff_eachStep (I := SessionThreads.Inv) (fun _ h => h.safe)
    (fun _ _ _ _ h hstep hcareful => h.step hstep hcareful)
    (fun _ _ _ _ h hstep hcareless => h.not_safe hstep hcareless)
    (show sessionStart.Inv from sessionInv_start) schedule

/-- Two sessions, and the thread of the second one is in its loop when it is removed. -/
def removedInLoop : List (SessionThread × SessionInput) :=
  [(.command, .createSession (ascii "1")), (.command, .connect true),
   (.command, .createSession (ascii "2")), (.command, .connect true),
   (.socket 1, .go), (.socket 1, .go), (.socket 1, .go),
   (.command, .delSession 1), (.command, .go), (.command, .go),
   (.socket 1, .fail)]

/-- The second session is replaced before its thread has looked for it. -/
def replacedEarly : List (SessionThread × SessionInput) :=
  [(.command, .createSession (ascii "1")), (.command, .connect true),
   (.command, .createSession (ascii "2")), (.command, .connect true),
   (.socket 1, .go),
   (.command, .delSession 1), (.command, .go), (.command, .go), (.command, .go),
   (.command, .createSession (ascii "3")), (.socket 1, .go)]

/-- The first thread uses a session that has been destroyed; the second one serves the third
session. -/
theorem session_not_outlived :
    (sessionStart.run sessionNext removedInLoop).map (fun s => s.shared.stale) = some [1] ∧
      (sessionStart.run sessionNext replacedEarly).map (fun s => s.shared.served)
        = some [(1, 2)] := by
  decide

end ArkDb

end ArkToolchain
