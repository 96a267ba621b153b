/-
Shutting the server down while it accepts.

`Close` clears the flag that lets connections in, waits until the state is not CONNECTING, and
only then closes the server's descriptor.  An accept that has passed its second look at the flag
is covered: the flag is still set, or a thread in `Close` has yet to see the state leave
CONNECTING.

Main result: `shutdown_against_accept`.
-/
import ArkToolchain.ServerLifecycle

namespace ArkToolchain

open Threads ServerPc ServerShared

/-! ### Regions of the code -/

namespace ServerPc

/-- In `Close`, before the server's descriptor is closed. -/
def stopping : ServerPc → Bool
  | .shut .exchangeServerUp => false
  | .shut _ => true
  | _ => false

/-- In `Close`, before it has seen the state leave CONNECTING. -/
def waiting : ServerPc → Bool
  | .shut .shutdownServer | .shut .getConnectionState | .shut .waitShutdown
  | .shut (.waitReload _) => true
  | _ => false

/-- In `Close`, on the way to closing a connection that is open. -/
def willClose : ServerPc → Bool
  | .shut (.closeServerLate .opened) | .close .close .exchangeClosing => true
  | p => p.waiting

/-- Accepting, after the second look at the flag. -/
def pastCheck : ServerPc → Bool
  | .accept .accept | .accept (.setConnectionSocket _) | .accept .httpHandShake
  | .accept .protocolUpgrade | .accept .responseInvalidHandShake | .accept .handShakeFailed
  | .accept .onNewConnection => true
  | _ => false

/-! Which regions lie in which. -/

variable {p : ServerPc}

theorem stopping_of_waiting (h : p.waiting = true) : p.stopping = true := by
  unfold waiting at h
  split at h <;> first | rfl | cases h

theorem willClose_of_waiting (h : p.waiting = true) : p.willClose = true := by
  unfold waiting at h
  split at h <;> first | rfl | cases h

theorem shutting_of_stopping (h : p.stopping = true) : p.shutting = true := by
  cases p with
  | shut q => cases q <;> first | rfl | cases h
  | _ => cases h

theorem shutting_of_willClose (h : p.willClose = true) : p.shutting = true := by
  unfold willClose at h
  split at h
  · rfl
  · rfl
  · exact shutting_of_stopping (stopping_of_waiting h)

theorem connecting_of_pastCheck (h : p.pastCheck = true) : p.connecting = true := by
  unfold pastCheck at h
  split at h <;> first | rfl | cases h

theorem not_waiting_of_pastCheck (h : p.pastCheck = true) : p.waiting = false := by
  unfold pastCheck at h
  split at h <;> first | rfl | cases h

end ServerPc

/-! ### Single steps -/

section Steps

variable {validateCb : Option (HttpRequest → Bool)} {t : ServerThread} {sh sh' : ServerShared}
  {p p' : ServerPc} {i : ServerInput}

/-- The server has been stopped and its descriptor not yet closed. -/
def IsStopping (sh : ServerShared) : Prop := sh.serverUp = false ∧ sh.serverClosed = false

/-- What one step does to the shutdown of the server, seen from its own
thread. -/
structure ShutStep (sh : ServerShared) (p : ServerPc) (sh' : ServerShared) (p' : ServerPc) :
    Prop where
  /-- The flag is only cleared, by a thread that then waits. -/
  up : sh'.serverUp = sh.serverUp ∨ sh'.serverUp = false ∧ p'.waiting = true
  past : p'.pastCheck = true → p.pastCheck = true ∨ sh.serverUp = true
  waits : p.waiting = true → sh.connectionState = .connecting → p'.waiting = true
  opens : sh'.connectionState = .opened → sh.connectionState = .opened ∨ p.pastCheck = true
  closes : p.willClose = true → sh.connectionState = .opened → sh'.connectionState = .opened →
    p'.willClose = true
  shutting : p'.shutting = true → p.shutting = true ∨ sh.serverUp = true ∧ sh'.serverUp = false
  closed : sh'.serverClosed = sh.serverClosed ∨ p.stopping = true
  returned : sh'.closeReturned = true →
    sh.closeReturned = true ∨ p.shutting = true ∨ sh.serverUp = false

theorem nextClose_shut (caller : CloseCaller) (q : ClosePc) :
    ShutStep sh (.close caller q) (nextClose sh caller q).1 (nextClose sh caller q).2 := by
  fun_cases nextClose sh caller q <;> constructor <;>
    cases caller <;>
    simp_all [pastCheck, willClose, waiting, ServerPc.shutting, report, returned]

theorem nextShut_shut (q : ShutPc) : ShutStep sh (.shut q) (nextShut sh q).1 (nextShut sh q).2 := by
  fun_cases nextShut sh q <;> constructor <;>
    simp_all [pastCheck, willClose, waiting, ServerPc.shutting,
      ServerPc.stopping, returned, closeServerSocket]

theorem serverNext_shut (h : serverNext validateCb t sh p i = some (sh', p')) :
    ShutStep sh p sh' p' := by
  rcases serverNext_cases h with ⟨q, rfl, rfl, rfl⟩ | ⟨caller, q, rfl, rfl, rfl⟩ |
    ⟨q, rfl, rfl, rfl⟩ | ⟨hplain, hplain', b, rfl⟩
  · clear h
    fun_cases nextAccept validateCb sh i q <;> constructor <;>
      simp_all [pastCheck, willClose, waiting, ServerPc.shutting, report, leaveConnecting]
  · exact nextClose_shut caller q
  · exact nextShut_shut q
  · -- outside `Close` and `AcceptNewConnection` nothing happens to the server
    obtain ⟨-, -, hp, -⟩ := hplain
    obtain ⟨hconn', -, hp', -⟩ := hplain'
    have hwill : p.willClose = false := by
      rw [Bool.eq_false_iff]
      exact fun hw => absurd (shutting_of_willClose hw) (by simp [hp])
    have hwait : p.waiting = false := by
      rw [Bool.eq_false_iff]
      exact fun hw => absurd (willClose_of_waiting hw) (by simp [hwill])
    refine ⟨.inl rfl, fun h' => ?_, fun h' => ?_, .inl, fun h' => ?_, fun h' => ?_, .inl rfl, .inl⟩
    · exact absurd (connecting_of_pastCheck h') (by simp [hconn'])
    · simp [hwait] at h'
    · simp [hwill] at h'
    · simp [hp'] at h'

theorem serverNext_stopping (hup : sh.serverUp = true → sh.serverClosed = false)
    (hp : p.stopping = true → IsStopping sh) (h : serverNext validateCb t sh p i = some (sh', p')) :
    TokenStep IsStopping (fun p : ServerPc => p.stopping = true) sh p sh' p' := by
  rcases serverNext_cases h with ⟨q, rfl, rfl, rfl⟩ | ⟨caller, q, rfl, rfl, rfl⟩ |
    ⟨q, rfl, rfl, rfl⟩ | ⟨hplain, hplain', b, rfl⟩
  · fun_cases nextAccept validateCb sh i q <;> apply TokenStep.of_outside <;>
      simp [ServerPc.stopping, IsStopping, report, leaveConnecting]
  · fun_cases nextClose sh caller q <;> apply TokenStep.of_outside <;>
      simp [ServerPc.stopping, IsStopping, report, returned]
  · clear h
    fun_cases nextShut sh q <;> constructor <;>
      simp_all [ServerPc.stopping, IsStopping, returned, closeServerSocket]
  · refine TokenStep.of_outside (fun hs => ?_) (fun hs => ?_) Iff.rfl
    · exact absurd (shutting_of_stopping hs) (by simp [hplain.2.2.1])
    · exact absurd (shutting_of_stopping hs) (by simp [hplain'.2.2.1])

end Steps

/-! ### The invariant -/

def Anyone (region : ServerPc → Bool) (s : ServerThreads) : Prop :=
  ∃ u, region (s.pcs u) = true

structure Shutdown (s : ServerThreads) : Prop where
  up : s.shared.serverUp = true → s.shared.serverClosed = false
  stopping : HasToken IsStopping (fun p : ServerPc => p.stopping = true) s
  down : ∀ t, (s.pcs t).shutting = true → s.shared.serverUp = false
  returned : s.shared.closeReturned = true → s.shared.serverUp = false
  /-- An accept past its check is covered by the flag or by a waiting thread. -/
  covered : ∀ t, (s.pcs t).pastCheck = true → s.shared.serverUp = true ∨ Anyone waiting s
  /-- An open connection is covered by the flag or by a thread that closes it. -/
  closes : s.shared.connectionState = .opened → s.shared.serverUp = true ∨ Anyone willClose s

section Invariant

variable {validateCb : Option (HttpRequest → Bool)} {s s' : ServerThreads} {t : ServerThread}
  {i : ServerInput} {sh' : ServerShared} {p' : ServerPc} {region : ServerPc → Bool}

/-- A thread other than `t` that is in a region stays there. -/
theorem Anyone.of_ne {u : ServerThread} (hu : u ≠ t) (h : region (s.pcs u) = true) :
    Anyone region { shared := sh', pcs := Function.update s.pcs t p' } :=
  ⟨u, by simpa [hu] using h⟩

theorem Anyone.self (h : region p' = true) :
    Anyone region { shared := sh', pcs := Function.update s.pcs t p' } :=
  ⟨t, by simpa using h⟩

theorem Shutdown.covered_step (ho : Owned s) (h : Shutdown s)
    (hstep : ShutStep s.shared (s.pcs t) sh' p') (v : ServerThread)
    (hv : (Function.update s.pcs t p' v).pastCheck = true) :
    sh'.serverUp = true ∨ Anyone waiting { shared := sh', pcs := Function.update s.pcs t p' } := by
  rcases hstep.up with hup | ⟨-, hwait⟩
  · rw [hup]
    -- the accept was past its check before the step, or the flag was set
    have hpast : (s.pcs v).pastCheck = true ∨ s.shared.serverUp = true := by
      by_cases hvt : v = t
      · subst hvt
        rw [Function.update_self] at hv
        exact hstep.past hv
      · rw [Function.update_of_ne hvt] at hv
        exact .inl hv
    rcases hpast with hpast | hset
    · rcases h.covered v hpast with hset | ⟨u, hu⟩
      · exact .inl hset
      · right
        by_cases hut : u = t
        · -- the waiting thread moves, but the state is still CONNECTING
          subst hut
          have hconn := ho.connecting_of (connecting_of_pastCheck hpast)
          exact Anyone.self (hstep.waits hu hconn)
        · exact Anyone.of_ne hut hu
    · exact .inl hset
  · exact .inr (Anyone.self hwait)

theorem Shutdown.closes_step (h : Shutdown s) (hstep : ShutStep s.shared (s.pcs t) sh' p')
    (hst : sh'.connectionState = .opened) :
    sh'.serverUp = true ∨
      Anyone willClose { shared := sh', pcs := Function.update s.pcs t p' } := by
  rcases hstep.up with hup | ⟨-, hwait⟩
  · rw [hup]
    rcases hstep.opens hst with hopen | hpast
    · rcases h.closes hopen with hset | ⟨u, hu⟩
      · exact .inl hset
      · right
        by_cases hut : u = t
        · subst hut
          exact Anyone.self (hstep.closes hu hopen hst)
        · exact Anyone.of_ne hut hu
    · -- the connection has just been opened, so `t` is not the waiting thread
      rcases h.covered t hpast with hset | ⟨u, hu⟩
      · exact .inl hset
      · right
        have hut : u ≠ t := by
          rintro rfl
          rw [not_waiting_of_pastCheck hpast] at hu
          cases hu
        exact Anyone.of_ne hut (willClose_of_waiting hu)
  · exact .inr (Anyone.self (willClose_of_waiting hwait))

theorem Shutdown.step (ho : Owned s) (h : Shutdown s)
    (hs : s.step (serverNext validateCb) t i = some s') : Shutdown s' := by
  have htok := h.stopping.step (fun _ _ => serverNext_stopping h.up
    fun hp => h.stopping.tok_iff.mpr ⟨t, hp⟩) hs
  obtain ⟨sh', p', hn, rfl⟩ := step_eq_some hs
  have hstep := serverNext_shut hn
  -- the flag is never set again
  have hdown : s.shared.serverUp = false → sh'.serverUp = false := by
    intro hf
    rcases hstep.up with hup | ⟨hup, -⟩
    · rw [hup, hf]
    · exact hup
  refine ⟨?_, htok, ?_, ?_, h.covered_step ho hstep, h.closes_step hstep⟩
  · -- the descriptor is closed by a thread in `Close`, which has cleared the flag
    intro hset
    have hset' : s.shared.serverUp = true := by
      by_contra hf
      rw [hdown (by simpa using hf)] at hset
      cases hset
    rcases hstep.closed with hclosed | hstop
    · exact hclosed.trans (h.up hset')
    · rw [h.down t (shutting_of_stopping hstop)] at hset'
      cases hset'
  · refine (Function.forall_update_iff s.pcs
      fun _ p => p.shutting = true → sh'.serverUp = false).mpr
        ⟨fun hp' => ?_, fun u _ hu => hdown (h.down u hu)⟩
    rcases hstep.shutting hp' with hshut | ⟨-, hf⟩
    · exact hdown (h.down t hshut)
    · exact hf
  · intro hret
    rcases hstep.returned hret with hret | hshut | hf
    · exact hdown (h.returned hret)
    · exact hdown (h.down t hshut)
    · exact hdown hf

theorem Shutdown.initial (h : s.Initial) : Shutdown s := by
  have hidle : ∀ t, s.pcs t = .idle := by
    rcases h with ⟨fd, rfl⟩ | ⟨fd, rfl⟩ <;> exact fun t => rfl
  obtain ⟨hup, hclosed, hret⟩ : s.shared.serverUp = true ∧ s.shared.serverClosed = false ∧
      s.shared.closeReturned = false := by
    rcases h with ⟨fd, rfl⟩ | ⟨fd, rfl⟩ <;> exact ⟨rfl, rfl, rfl⟩
  refine ⟨fun _ => hclosed, ⟨?_, ?_⟩, ?_, ?_, fun _ _ => .inl hup, fun _ => .inl hup⟩
  · simp [IsStopping, hup, hidle, ServerPc.stopping]
  · simp [hidle, ServerPc.stopping]
  · simp [hidle, ServerPc.shutting]
  · simp [hret]

theorem Shutdown.reaches (ho : Owned s) (h : Shutdown s)
    (hr : Reaches (serverNext validateCb) s s') : Owned s' ∧ Shutdown s' :=
  hr.invariant (P := fun s => Owned s ∧ Shutdown s)
    (fun _ _ _ _ hinv hs => ⟨hinv.1.step hs, hinv.2.step hinv.1 hs⟩) ⟨ho, h⟩

theorem Shutdown.not_closed (h : Shutdown s) (ht : (s.pcs t).pastCheck = true) :
    s.shared.serverClosed = false := by
  rcases h.covered t ht with hup | ⟨u, hu⟩
  · exact h.up hup
  · exact (h.stopping.tok_iff.mpr ⟨u, stopping_of_waiting hu⟩).2

/-- The server is down and nobody is in `Close` any more. -/
def IsDown (s : ServerThreads) : Prop :=
  s.shared.serverUp = false ∧ ∀ u, (s.pcs u).shutting = false

theorem IsDown.step (h : IsDown s) (hs : s.step (serverNext validateCb) t i = some s') :
    IsDown s' := by
  obtain ⟨sh', p', hn, rfl⟩ := step_eq_some hs
  have hstep := serverNext_shut hn
  refine ⟨?_, fun u => ?_⟩
  · rcases hstep.up with hup | ⟨hup, -⟩
    · exact hup.trans h.1
    · exact hup
  · refine (Function.forall_update_iff s.pcs fun _ p => p.shutting = false).mpr
      ⟨?_, fun v _ => h.2 v⟩ u
    rw [Bool.eq_false_iff]
    intro hp'
    rcases hstep.shutting hp' with hshut | ⟨hset, -⟩
    · simp [h.2 t] at hshut
    · simp [h.1] at hset

/-- When the server is down, no accept is past its check and no connection is
open. -/
theorem Shutdown.of_isDown (h : Shutdown s) (hd : IsDown s) :
    (∀ t, (s.pcs t).pastCheck = false) ∧ s.shared.connectionState ≠ .opened := by
  have hnone : ¬ Anyone willClose s := by
    rintro ⟨u, hu⟩
    exact absurd (shutting_of_willClose hu) (by simp [hd.2 u])
  refine ⟨fun t => ?_, fun hst => ?_⟩
  · rw [Bool.eq_false_iff]
    intro ht
    rcases h.covered t ht with hup | ⟨u, hu⟩
    · simp [hd.1] at hup
    · exact hnone ⟨u, willClose_of_waiting hu⟩
  · rcases h.closes hst with hup | hany
    · simp [hd.1] at hup
    · exact hnone hany

end Invariant

/-- **Shutdown against accept.**  In every interleaving `accept` is called only
before the server's descriptor is closed.  When a call of `Close` has returned
and every thread is idle, the connection is not open, and no continuation
makes an accept succeed. -/
theorem shutdown_against_accept (validateCb : Option (HttpRequest → Bool)) (s₀ s : ServerThreads)
    (h₀ : s₀.Initial) (h : Reaches (serverNext validateCb) s₀ s) :
    (s.pcs .accepting = .accept .accept → s.shared.serverClosed = false) ∧
    (s.shared.closeReturned = true → (∀ t, s.pcs t = .idle) →
      s.shared.connectionState ≠ .opened ∧
      ∀ s', Reaches (serverNext validateCb) s s' →
        s'.pcs .accepting ≠ .accept .onNewConnection ∧ s'.shared.connectionState ≠ .opened) := by
  obtain ⟨ho, hs⟩ := (Shutdown.initial h₀).reaches (Lifecycle.initial h₀).owned h
  refine ⟨fun hpc => hs.not_closed (t := .accepting) (by rw [hpc]; rfl), fun hret hidle => ?_⟩
  -- from here on the server is down, in every continuation
  have hdown : IsDown s := ⟨hs.returned hret, fun u => by rw [hidle u]; rfl⟩
  refine ⟨(hs.of_isDown hdown).2, fun s' hr => ?_⟩
  have hs' := (hs.reaches ho hr).2
  obtain ⟨hpast, hst⟩ := hs'.of_isDown (hr.invariant (fun _ _ _ _ => IsDown.step) hdown)
  refine ⟨fun hpc => ?_, hst⟩
  have hp := hpast .accepting
  rw [hpc] at hp
  cases hp

/-- A server that is closed while a thread waits in `accept`: the socket that is accepted after
that is shut down in the second round of `WaitConnectingStateEnds`. -/
def closeSchedule : List (ServerThread × ServerInput) :=
  [(.accepting, .call (.accept (.loadServerUp .acceptNewConnection))), (.accepting, .ok),
    (.accepting, .ok), (.accepting, .ok), (.other 0, .call (.shut .exchangeServerUp)),
    (.other 0, .ok), (.other 0, .ok), (.other 0, .ok), (.other 0, .ok), (.accepting, .accepted 5),
    (.accepting, .ok), (.other 0, .ok), (.other 0, .ok), (.accepting, .fail), (.accepting, .ok),
    (.accepting, .ok), (.accepting, .ok), (.accepting, .ok), (.other 0, .ok), (.other 0, .ok)]

theorem closeSchedule_shutdown :
    (∃ s, Reaches (serverNext none) (ServerThreads.listening 3) s ∧
      s.pcs .accepting = .accept .accept ∧ s.shared.serverClosed = false) ∧
    ∃ s, Reaches (serverNext none) (ServerThreads.listening 3) s ∧
      s.shared.closeReturned = true ∧ (∀ t, s.pcs t = .idle) ∧
      s.shared.connectionState ≠ .opened := by
  obtain ⟨s₁, h₁⟩ : ∃ s, (ServerThreads.listening 3).run (serverNext none)
      (closeSchedule.take 9) = some s := ⟨_, rfl⟩
  obtain ⟨s, hs⟩ : ∃ s, (ServerThreads.listening 3).run (serverNext none) closeSchedule = some s :=
    ⟨_, rfl⟩
  have hpc : s₁.pcs .accepting = .accept .accept := by
    cases h₁
    rfl
  have hret : s.shared.closeReturned = true := by
    cases hs
    rfl
  have hidle : ∀ t, s.pcs t = .idle := by
    cases hs
    rintro (_ | _ | _ | _) <;> rfl
  have hshutdown {s} := shutdown_against_accept none _ s (.inl ⟨3, rfl⟩)
  exact ⟨⟨s₁, ⟨_, h₁⟩, hpc, (hshutdown ⟨_, h₁⟩).1 hpc⟩,
    s, ⟨_, hs⟩, hret, hidle, ((hshutdown ⟨_, hs⟩).2 hret hidle).1⟩

end ArkToolchain
