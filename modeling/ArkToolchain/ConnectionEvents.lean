/-
Connections to the static debugger over websocketpp (`server_endpoint-inl.h` and
`server_endpoint.h` of `connection/asio`, and the callbacks of the constructor of `Inspector`).

Between the validation of a connection and its opening or failure, the server thread holds the
write lock on the debugger events, so that nothing is sent.  One flag stands for all
connections: a second validation requests the lock again, and a failure without a validation
releases it too early.

Main result: `pauses_events_iff`.
-/
import ArkToolchain.Traces
import Mathlib.Logic.Function.Basic

namespace ArkToolchain

namespace ServerEndpoint

/-! ### Callbacks -/

/-- How far a connection is, for websocketpp. -/
inductive Phase
  | new
  | validated
  | rejected
  | opened
  | finished
  deriving DecidableEq

structure Endpoint where
  connecting : Bool := false
  /-- the server thread holds `debuggerEventsLock_` -/
  writeLock : Bool := false
  /-- the server thread waits for a lock that it holds itself -/
  blocked : Bool := false
  /-- the pinned connection -/
  connection : Option Nat := none
  phase : Nat → Phase := fun _ => .new

namespace Endpoint

variable (s : Endpoint) (hdl : Nat)

def onValidate : Endpoint :=
  if s.writeLock then { s with blocked := true }
  else { s with writeLock := true, connecting := true }

def onOpen : Endpoint := { s with connecting := false, writeLock := false }

def onFail : Endpoint :=
  if s.connecting then { s with connecting := false, writeLock := false } else s

def pin : Bool × Endpoint :=
  if s.connection = none then (true, { s with connection := some hdl }) else (false, s)

def unpin : Endpoint :=
  if s.connection = some hdl then { s with connection := none } else s

def setPhase (phase : Phase) : Endpoint :=
  { s with phase := Function.update s.phase hdl phase }

end Endpoint

inductive ConnectionEvent
  | validate (hdl : Nat)
  | opens (hdl : Nat)
  | fail (hdl : Nat)
  | close (hdl : Nat)
  deriving DecidableEq

/-- The handlers, in a thread that may be blocked. -/
def step (s : Endpoint) (e : ConnectionEvent) : Endpoint :=
  if s.blocked then s
  else
    match e with
    | .validate hdl =>
      let s := s.onValidate
      -- the request for a lock that is held does not return
      if s.blocked then s
      else
        let (pinned, s) := s.pin hdl
        s.setPhase hdl (if pinned then .validated else .rejected)
    | .opens hdl => s.onOpen.setPhase hdl .opened
    | .fail hdl => (s.onFail.unpin hdl).setPhase hdl .finished
    | .close hdl => (s.unpin hdl).setPhase hdl .finished

def Allowed (s : Endpoint) : ConnectionEvent → Prop
  | .validate hdl => s.phase hdl = .new
  | .opens hdl => s.phase hdl = .validated
  | .fail hdl => s.phase hdl = .new ∨ s.phase hdl = .validated ∨ s.phase hdl = .rejected
  | .close hdl => s.phase hdl = .opened

instance (s : Endpoint) (e : ConnectionEvent) : Decidable (Allowed s e) :=
  match e with
  | .validate hdl => inferInstanceAs (Decidable (s.phase hdl = .new))
  | .opens hdl => inferInstanceAs (Decidable (s.phase hdl = .validated))
  | .fail hdl => inferInstanceAs (Decidable
      (s.phase hdl = .new ∨ s.phase hdl = .validated ∨ s.phase hdl = .rejected))
  | .close hdl => inferInstanceAs (Decidable (s.phase hdl = .opened))

/-! ### What is wanted -/

/-- Between its validation and its opening or failure. -/
def Phase.Pending (phase : Phase) : Prop := phase = .validated ∨ phase = .rejected

def Phase.Accepted (phase : Phase) : Prop := phase = .validated ∨ phase = .opened

structure PausesEvents (s : Endpoint) : Prop where
  writeLock_iff : s.writeLock = true ↔ ∃ hdl, (s.phase hdl).Pending
  not_blocked : s.blocked = false
  pinned_iff : ∀ hdl, s.connection = some hdl ↔ (s.phase hdl).Accepted

/-- It holds before and after every callback. -/
def AlwaysPausesEvents (events : List ConnectionEvent) : Prop :=
  ∀ k, PausesEvents (stateAt step {} events k)

/-- A connection is validated, or fails without having been validated, only while no other
one is in between. -/
def Alone (s : Endpoint) : ConnectionEvent → Prop
  | .validate _ => ∀ hdl, ¬ (s.phase hdl).Pending
  | .fail hdl => s.phase hdl = .new → ∀ other, ¬ (s.phase other).Pending
  | _ => True

/-! ### The invariant -/

structure Inv (s : Endpoint) : Prop extends PausesEvents s where
  connecting_eq : s.connecting = s.writeLock
  pending_unique : ∀ hdl other, (s.phase hdl).Pending → (s.phase other).Pending → hdl = other

variable {s : Endpoint} {hdl : Nat}

namespace Inv

theorem of_pending (hinv : Inv s) (h : (s.phase hdl).Pending) :
    s.writeLock = true ∧ ∀ other, other ≠ hdl → ¬ (s.phase other).Pending := by
  refine ⟨hinv.writeLock_iff.mpr ⟨hdl, h⟩, fun other hne hother => ?_⟩
  exact hne (hinv.pending_unique other hdl hother h)

theorem writeLock_of_none (hinv : Inv s) (h : ∀ other, ¬ (s.phase other).Pending) :
    s.writeLock = false := by
  rw [Bool.eq_false_iff, Ne, hinv.writeLock_iff]
  rintro ⟨other, hother⟩
  exact h other hother

end Inv

variable {phase : Phase}

theorem inv_setPhase (hnone : ∀ other, other ≠ hdl → ¬ (s.phase other).Pending)
    (hlock : s.writeLock = true ↔ phase.Pending) (hblocked : s.blocked = false)
    (hconnecting : s.connecting = s.writeLock) (hpinned : ∀ other, s.connection = some other ↔
      (Function.update s.phase hdl phase other).Accepted) : Inv (s.setPhase hdl phase) where
  writeLock_iff := by
    show s.writeLock = true ↔ ∃ other, (Function.update s.phase hdl phase other).Pending
    rw [Function.exists_update_iff s.phase fun _ p => p.Pending, hlock]
    constructor
    · exact .inl
    · rintro (h | ⟨other, hne, h⟩)
      · exact h
      · exact absurd h (hnone other hne)
  not_blocked := hblocked
  pinned_iff := hpinned
  connecting_eq := hconnecting
  pending_unique first second hfirst hsecond := by
    have hdown : ∀ other, (Function.update s.phase hdl phase other).Pending → other = hdl := by
      intro other h
      by_contra hne
      rw [Function.update_of_ne hne] at h
      exact hnone other hne h
    exact (hdown first hfirst).trans (hdown second hsecond).symm

/-! ### The callbacks keep it -/

theorem pinned_update (hinv : Inv s) {connection : Option Nat}
    (hself : connection = some hdl ↔ phase.Accepted)
    (hother : ∀ other, other ≠ hdl → (connection = some other ↔ s.connection = some other))
    (other : Nat) :
    connection = some other ↔ (Function.update s.phase hdl phase other).Accepted := by
  by_cases h : other = hdl
  · subst h
    rw [Function.update_self]
    exact hself
  · rw [Function.update_of_ne h, hother other h]
    exact hinv.pinned_iff other

theorem unpin_eq : s.unpin hdl = { s with connection := (s.unpin hdl).connection } := by
  rw [Endpoint.unpin]
  split <;> rfl

theorem connection_unpin_ne : (s.unpin hdl).connection ≠ some hdl := by
  rw [Endpoint.unpin]
  split
  · simp
  · next h => exact h

theorem connection_unpin_iff {other : Nat} (hne : other ≠ hdl) :
    (s.unpin hdl).connection = some other ↔ s.connection = some other := by
  rw [Endpoint.unpin]
  split
  · next h => simp [h, Ne.symm hne]
  · exact Iff.rfl

theorem inv_validate (hinv : Inv s) (hnew : s.phase hdl = .new)
    (halone : ∀ other, ¬ (s.phase other).Pending) : Inv (step s (.validate hdl)) := by
  have hlock := hinv.writeLock_of_none halone
  have hblocked := hinv.not_blocked
  have hunpinned : s.connection ≠ some hdl := by
    rw [Ne, hinv.pinned_iff, hnew]
    simp [Phase.Accepted]
  have hvalidate : s.onValidate = { s with writeLock := true, connecting := true } := by
    rw [Endpoint.onValidate, if_neg (by simp [hlock])]
  rw [step, if_neg (by simp [hblocked]), hvalidate]
  dsimp only
  rw [if_neg (by simp [hblocked]), Endpoint.pin]
  split
  · next hfree =>
      have hnone : s.connection = none := hfree
      apply inv_setPhase
      · exact fun other _ => halone other
      · exact iff_of_true rfl (.inl rfl)
      · exact hblocked
      · rfl
      · apply pinned_update hinv
        · exact iff_of_true rfl (.inl rfl)
        · intro other hne
          simp [hnone, Ne.symm hne]
  · apply inv_setPhase
    · exact fun other _ => halone other
    · exact iff_of_true rfl (.inr rfl)
    · exact hblocked
    · rfl
    · exact pinned_update hinv (iff_of_false hunpinned (by simp [Phase.Accepted]))
        fun _ _ => Iff.rfl

theorem inv_opens (hinv : Inv s) (hvalidated : s.phase hdl = .validated) :
    Inv (step s (.opens hdl)) := by
  have hpinned : s.connection = some hdl := (hinv.pinned_iff hdl).mpr (.inl hvalidated)
  rw [step, if_neg (by simp [hinv.not_blocked])]
  apply inv_setPhase
  · exact (hinv.of_pending (.inl hvalidated)).2
  · exact iff_of_false Bool.false_ne_true (by simp [Phase.Pending])
  · exact hinv.not_blocked
  · rfl
  · exact pinned_update hinv (iff_of_true hpinned (.inr rfl)) fun _ _ => Iff.rfl

/-- After `onFail`, the lock is free if no other connection is in between. -/
theorem onFail_eq (hinv : Inv s) :
    s.onFail = { s with connecting := false, writeLock := false } := by
  rw [Endpoint.onFail]
  split
  · rfl
  · next h =>
      have hconnecting : s.connecting = false := by simpa using h
      have hlock : s.writeLock = false := by rw [← hinv.connecting_eq, hconnecting]
      cases s
      cases hconnecting
      cases hlock
      rfl

theorem inv_fail (hinv : Inv s) (hnone : ∀ other, other ≠ hdl → ¬ (s.phase other).Pending) :
    Inv (step s (.fail hdl)) := by
  rw [step, if_neg (by simp [hinv.not_blocked]), onFail_eq hinv, unpin_eq]
  apply inv_setPhase
  · exact hnone
  · exact iff_of_false Bool.false_ne_true (by simp [Phase.Pending])
  · exact hinv.not_blocked
  · rfl
  · apply pinned_update hinv
    · exact iff_of_false connection_unpin_ne (by simp [Phase.Accepted])
    · exact fun other hne => connection_unpin_iff hne

theorem inv_close (hinv : Inv s) (hopened : s.phase hdl = .opened) : Inv (step s (.close hdl)) := by
  -- the connection has not been in between before
  have hpending : ∀ other, (Function.update s.phase hdl .finished other).Pending ↔
      (s.phase other).Pending := by
    intro other
    by_cases h : other = hdl
    · subst h
      rw [Function.update_self, hopened]
      simp [Phase.Pending]
    · rw [Function.update_of_ne h]
  rw [step, if_neg (by simp [hinv.not_blocked]), unpin_eq]
  constructor
  · constructor
    · rw [Endpoint.setPhase]
      simp only [hpending]
      exact hinv.writeLock_iff
    · exact hinv.not_blocked
    · apply pinned_update hinv
      · exact iff_of_false connection_unpin_ne (by simp [Phase.Accepted])
      · exact fun other hne => connection_unpin_iff hne
  · exact hinv.connecting_eq
  · intro first second hfirst hsecond
    exact hinv.pending_unique first second ((hpending first).mp hfirst)
      ((hpending second).mp hsecond)

/-! ### The condition -/

variable {e : ConnectionEvent}

theorem Inv.step (hinv : Inv s) (hallowed : Allowed s e) (halone : Alone s e) :
    Inv (ServerEndpoint.step s e) := by
  cases e with
  | validate hdl => exact inv_validate hinv hallowed halone
  | opens hdl => exact inv_opens hinv hallowed
  | fail hdl =>
    apply inv_fail hinv
    rcases hallowed with hnew | hpending
    · exact fun other _ => halone hnew other
    · exact (hinv.of_pending hpending).2
  | close hdl => exact inv_close hinv hallowed

theorem not_pausesEvents_step (hinv : Inv s) (halone : ¬ Alone s e) :
    ¬ PausesEvents (ServerEndpoint.step s e) := by
  intro hpauses
  apply halone
  cases e with
  | validate hdl =>
    intro other hother
    have hlock := hinv.writeLock_iff.mpr ⟨other, hother⟩
    have hblocked := hpauses.not_blocked
    rw [ServerEndpoint.step, if_neg (by simp [hinv.not_blocked]), Endpoint.onValidate,
      if_pos hlock] at hblocked
    cases hblocked
  | opens hdl | close hdl => trivial
  | fail hdl =>
    intro hnew other hother
    have hne : other ≠ hdl := by
      rintro rfl
      rw [hnew] at hother
      simp [Phase.Pending] at hother
    have hiff := hpauses.writeLock_iff
    rw [ServerEndpoint.step, if_neg (by simp [hinv.not_blocked]), onFail_eq hinv, unpin_eq] at hiff
    refine absurd (hiff.mpr ⟨other, ?_⟩) Bool.false_ne_true
    show (Function.update s.phase hdl .finished other).Pending
    rw [Function.update_of_ne hne]
    exact hother

theorem inv_start : Inv {} where
  writeLock_iff := by simp [Phase.Pending]
  not_blocked := rfl
  pinned_iff := by simp [Phase.Accepted]
  connecting_eq := rfl
  pending_unique := by simp [Phase.Pending]

/-- **Connection events pause the debugger** exactly if a connection is validated, or fails
without validation, only while no other one is between its validation and its opening or
failure. -/
theorem pauses_events_iff {events : List ConnectionEvent}
    (hallowed : Admits step Allowed {} events) :
    AlwaysPausesEvents events ↔ Admits step Alone {} events := by
  apply hallowed.forall_stateAt_iff (I := Inv)
  · exact fun _ hinv => hinv.toPausesEvents
  · exact fun _ _ hinv hallowed halone => hinv.step hallowed halone
  · exact fun _ _ hinv _ halone => not_pausesEvents_step hinv halone
  · exact inv_start

/-- One connection after the other. -/
theorem one_connection_pauses : AlwaysPausesEvents [.validate 0, .opens 0, .fail 1] := by
  have hallowed : Admits step Allowed {} [.validate 0, .opens 0, .fail 1] := by decide
  have hopened : ∀ other, ¬ (Function.update (Function.update (fun _ => Phase.new) 0 .validated) 0
      .opened other).Pending := by
    intro other
    by_cases h : other = 0
    · subst h
      simp [Phase.Pending]
    · simp [h, Phase.Pending]
  refine (pauses_events_iff hallowed).mpr ⟨?_, trivial, ?_, trivial⟩
  · intro other
    simp [Phase.Pending]
  · exact fun _ => hopened

/-- **A second validation** requests the lock that the server thread holds, and **a failure
without validation** releases it, both while connection 0 is in between. -/
theorem connection_events_not_paused :
    Admits step Allowed {} [.validate 0, .validate 1] ∧
      (stateAt step {} [.validate 0, .validate 1] 2).blocked = true ∧
      Admits step Allowed {} [.validate 0, .fail 1] ∧
      (stateAt step {} [.validate 0, .fail 1] 2).phase 0 = .validated ∧
      (stateAt step {} [.validate 0, .fail 1] 2).writeLock = false := by
  decide

end ServerEndpoint

end ArkToolchain
