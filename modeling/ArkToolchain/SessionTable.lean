/-
The sessions of the static inspector (tooling/static/session_manager.cpp).

A session is named after its thread, but the first one has the empty name.  While no two live
threads have the same id, every live thread has one session, under one of its two names
(`SessionManager.Inv`).  Which threads are live is said by the calls alone: a session lives from
the call that adds it to the call that removes its id.

Main result: `session_table`, where a thread is live by the history and not by the table.
-/
import ArkToolchain.Registries
import ArkToolchain.DecimalText
import ArkToolchain.Traces

namespace ArkToolchain

/-- `PtThread`: the managed thread, and its id. -/
structure PtThread where
  managedThread : Nat
  id : Nat
  deriving DecidableEq

/-- `sessions_`. -/
structure SessionManager where
  sessions : AList fun _ : Bytes => PtThread := ∅

namespace SessionManager

variable (m : SessionManager)

/-- `AddSession`, with the id of the session. -/
def addSession (thread : PtThread) : Bytes × SessionManager :=
  let id := if m.sessions.entries ≠ [] then natText thread.id else []
  (id, { sessions := emplace m.sessions id thread })

def removeSession (id : Bytes) : SessionManager :=
  { sessions := m.sessions.erase id }

def getSessionIdByThread (thread : PtThread) : Bytes :=
  if m.sessions.lookup [] = some thread then [] else natText thread.id

/-- `GetThreadBySessionId`; `none` is `PtThread::NONE`. -/
def getThreadBySessionId (id : Bytes) : Option PtThread :=
  m.sessions.lookup id

/-- What the handler of `EnumerateSessions` gets. -/
def enumerateSessions : List (Bytes × PtThread) :=
  m.sessions.entries.map fun session => (session.1, session.2)

/-- The session table in `CallTargetDetachedFromTarget`. -/
def detach (thread : PtThread) : SessionManager :=
  m.removeSession (m.getSessionIdByThread thread)

/-! ### Histories -/

inductive Event
  | addSession (thread : PtThread)
  | removeSession (id : Bytes)

/-- The table, and the sessions that have been added and not removed since. -/
structure History where
  manager : SessionManager := {}
  sessions : List (Bytes × PtThread) := []

namespace History

variable (h : History)

def step : Event → History
  | .addSession thread =>
    { manager := (h.manager.addSession thread).2
      sessions := ((h.manager.addSession thread).1, thread) :: h.sessions }
  | .removeSession id =>
    { manager := h.manager.removeSession id
      sessions := h.sessions.filter (·.1 ≠ id) }

/-- The threads of these sessions. -/
def live : List PtThread := h.sessions.map Prod.snd

/-- No live thread has the id of a thread that is added. -/
def DistinctIds : Event → Prop
  | .addSession thread => ∀ thread' ∈ h.live, thread'.id ≠ thread.id
  | .removeSession _ => True

instance (h : History) : DecidablePred h.DistinctIds
  | .addSession _ => inferInstanceAs (Decidable (∀ _ ∈ _, _))
  | .removeSession _ => isTrue trivial

/-- What the inspector relies on. -/
structure TwoWay (h : History) : Prop where
  distinct : ∀ t ∈ h.live, ∀ t' ∈ h.live,
    h.manager.getSessionIdByThread t = h.manager.getSessionIdByThread t' → t = t'
  found : ∀ t ∈ h.live, h.manager.getThreadBySessionId (h.manager.getSessionIdByThread t) = some t
  detached : ∀ t ∈ h.live, t ∉ (h.manager.detach t).enumerateSessions.map Prod.snd
    ∧ ∀ id, (h.manager.detach t).getThreadBySessionId id ≠ some t

end History

/-! ### The invariant -/

/-- A thread has one session, and it is named in one of the two ways. -/
structure Inv (m : SessionManager) : Prop where
  named : ∀ {id t}, m.getThreadBySessionId id = some t → id = [] ∨ id = natText t.id
  one : ∀ {id id' t t'}, m.getThreadBySessionId id = some t →
    m.getThreadBySessionId id' = some t' → t.id = t'.id → id = id'

theorem natText_inj {n n' : Nat} (h : natText n = natText n') : n = n' := by
  rw [← digitsVal_natText n, h, digitsVal_natText]

variable {t : PtThread}

theorem mem_enumerateSessions {m : SessionManager} {id : Bytes} :
    (id, t) ∈ m.enumerateSessions ↔ m.getThreadBySessionId id = some t := by
  rw [getThreadBySessionId, ← Option.mem_def, AList.mem_lookup_iff, enumerateSessions]
  simp

theorem inv_empty : Inv {} where
  named h := by cases h
  one h := by cases h

variable {m : SessionManager}

theorem getThreadBySessionId_removeSession (m : SessionManager) (id id' : Bytes) :
    (m.removeSession id).getThreadBySessionId id'
      = if id' = id then none else m.getThreadBySessionId id' := by
  rw [getThreadBySessionId, removeSession]
  split
  next heq => rw [heq, AList.lookup_erase]
  next heq => rw [AList.lookup_erase_ne heq, getThreadBySessionId]

theorem Inv.removeSession (h : m.Inv) (id : Bytes) : (m.removeSession id).Inv := by
  -- what is left was there before
  have hleft : ∀ {id' t}, (m.removeSession id).getThreadBySessionId id' = some t →
      m.getThreadBySessionId id' = some t := by
    intro id' t hid'
    rw [getThreadBySessionId_removeSession] at hid'
    exact (Option.ite_none_left_eq_some.mp hid').2
  exact ⟨fun hid => h.named (hleft hid), fun hid hid' => h.one (hleft hid) (hleft hid')⟩

variable {thread : PtThread}

section

variable (h : m.Inv) (hnew : ∀ {id t}, m.getThreadBySessionId id = some t → t.id ≠ thread.id)
include h hnew

theorem Inv.fresh : (m.addSession thread).1 ∉ m.sessions := by
  rw [← AList.lookup_eq_none]
  by_contra hsome
  obtain ⟨t, ht⟩ := Option.ne_none_iff_exists'.mp hsome
  have hnonempty : m.sessions.entries ≠ [] := by
    intro hempty
    rw [show m.sessions = ∅ from AList.ext hempty, AList.lookup_empty] at ht
    cases ht
  rw [SessionManager.addSession, if_pos hnonempty] at ht
  rcases h.named ht with hnil | heq
  · exact natText_ne_nil _ hnil
  · exact hnew ht (natText_inj heq).symm

theorem Inv.getThreadBySessionId_addSession (id : Bytes) :
    (m.addSession thread).2.getThreadBySessionId id
      = if id = (m.addSession thread).1 then some thread else m.getThreadBySessionId id :=
  lookup_emplace thread (h.fresh hnew) id

theorem Inv.addSession : (m.addSession thread).2.Inv := by
  -- a session is the new one, or it was there before
  have hcases : ∀ {id t}, (m.addSession thread).2.getThreadBySessionId id = some t →
      id = (m.addSession thread).1 ∧ t = thread ∨ m.getThreadBySessionId id = some t := by
    intro id t hid
    rw [h.getThreadBySessionId_addSession hnew] at hid
    split at hid
    next heq => exact .inl ⟨heq, (Option.some.inj hid).symm⟩
    next => exact .inr hid
  constructor
  · intro id t hid
    rcases hcases hid with ⟨rfl, rfl⟩ | hid
    · rw [SessionManager.addSession]
      split
      · exact .inr rfl
      · exact .inl rfl
    · exact h.named hid
  · intro id id' t t' hid hid' heq
    rcases hcases hid with ⟨hi, ht⟩ | hold
    · rcases hcases hid' with ⟨hi', -⟩ | hold'
      · rw [hi, hi']
      · exact absurd (ht ▸ heq).symm (hnew hold')
    · rcases hcases hid' with ⟨-, ht'⟩ | hold'
      · exact absurd (ht' ▸ heq) (hnew hold)
      · exact h.one hold hold' heq

end

/-! ### The session of a live thread -/

theorem Inv.found (h : m.Inv) {id : Bytes} (hid : m.getThreadBySessionId id = some t) :
    m.getThreadBySessionId (m.getSessionIdByThread t) = some t := by
  rw [getSessionIdByThread]
  split
  next hfirst => exact hfirst
  next hfirst =>
      rcases h.named hid with rfl | rfl
      · exact absurd hid hfirst
      · exact hid

theorem Inv.eq_getSessionIdByThread (h : m.Inv) {id : Bytes}
    (hid : m.getThreadBySessionId id = some t) : id = m.getSessionIdByThread t :=
  h.one hid (h.found hid) rfl

theorem Inv.detach (h : m.Inv) (t : PtThread) (id : Bytes) :
    (m.detach t).getThreadBySessionId id ≠ some t := by
  intro hid
  rw [SessionManager.detach, getThreadBySessionId_removeSession] at hid
  obtain ⟨heq, hid⟩ := Option.ite_none_left_eq_some.mp hid
  exact heq (h.eq_getSessionIdByThread hid)

/-! ### Whole histories -/

/-- The table has the sessions that the calls leave. -/
structure History.Inv (h : History) : Prop where
  inv : h.manager.Inv
  mem_sessions : ∀ {id t}, (id, t) ∈ h.sessions ↔ h.manager.getThreadBySessionId id = some t

namespace History.Inv

variable {h : History}

theorem mem_live (hinv : h.Inv) : t ∈ h.live ↔ ∃ id, h.manager.getThreadBySessionId id = some t := by
  simp only [live, List.mem_map, Prod.exists, hinv.mem_sessions, exists_eq_right]

theorem step (hinv : h.Inv) {e : Event} (hfits : h.DistinctIds e) : (h.step e).Inv := by
  cases e with
  | addSession thread =>
    have hnew : ∀ {id t}, h.manager.getThreadBySessionId id = some t → t.id ≠ thread.id :=
      fun hid => hfits _ (hinv.mem_live.mpr ⟨_, hid⟩)
    refine ⟨hinv.inv.addSession hnew, fun {id t} => ?_⟩
    have hfresh : h.manager.getThreadBySessionId (h.manager.addSession thread).1 = none :=
      AList.lookup_eq_none.mpr (hinv.inv.fresh hnew)
    show (id, t) ∈ _ :: h.sessions ↔
      (h.manager.addSession thread).2.getThreadBySessionId id = some t
    rw [hinv.inv.getThreadBySessionId_addSession hnew, List.mem_cons, hinv.mem_sessions]
    split
    next heq => simp [heq, hfresh, eq_comm]
    next heq => simp [heq]
  | removeSession id =>
    refine ⟨hinv.inv.removeSession id, fun {id' t} => ?_⟩
    show (id', t) ∈ h.sessions.filter _ ↔ (h.manager.removeSession id).getThreadBySessionId id' = _
    rw [getThreadBySessionId_removeSession, List.mem_filter, hinv.mem_sessions]
    split <;> simp_all

theorem twoWay (hinv : h.Inv) : h.TwoWay := by
  have hfound : ∀ t ∈ h.live,
      h.manager.getThreadBySessionId (h.manager.getSessionIdByThread t) = some t := by
    intro t ht
    obtain ⟨id, hid⟩ := hinv.mem_live.mp ht
    exact hinv.inv.found hid
  refine ⟨fun t ht t' ht' heq => ?_, hfound, fun t _ => ⟨fun hmem => ?_, hinv.inv.detach t⟩⟩
  · exact Option.some.inj ((hfound t ht).symm.trans (heq ▸ hfound t' ht'))
  · obtain ⟨⟨id, t'⟩, hmem, rfl⟩ := List.mem_map.mp hmem
    exact hinv.inv.detach t' id (mem_enumerateSessions.mp hmem)

end History.Inv

/-- **The session table** can be read in both directions, after every part of a history in
which the threads that are added have other ids than the live ones. -/
theorem session_table (events : List Event)
    (h : Admits History.step History.DistinctIds {} events) (k : Nat) :
    (stateAt History.step {} events k).TwoWay := by
  have hstart : History.Inv {} := ⟨inv_empty, by simp [getThreadBySessionId]⟩
  have hinv : History.Inv (stateAt History.step {} events k) :=
    h.invariant (fun _ _ hinv hfits => hinv.step hfits) hstart k
  exact hinv.twoWay

/-- The first thread ends, and its id is used again. -/
def threadEndsFirst : List Event :=
  [.addSession ⟨0, 1⟩, .addSession ⟨1, 2⟩, .removeSession [], .addSession ⟨2, 1⟩]

theorem session_table_reused :
    (stateAt History.step {} threadEndsFirst 4).live = [⟨2, 1⟩, ⟨1, 2⟩] ∧
      (stateAt History.step {} threadEndsFirst 4).TwoWay :=
  ⟨by decide, session_table threadEndsFirst (by decide) 4⟩

end SessionManager

end ArkToolchain
