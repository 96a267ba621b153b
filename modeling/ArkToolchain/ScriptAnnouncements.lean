/-
Script ids of the static inspector (tooling/static/source_manager.cpp, the message builders of
inspector_server.cpp, `BuildCallFrameJson` and `GetStaticCallFrames` in inspector.cpp,
`ServerEndpointBase::Call`).

A builder that is told that a number is new announces the script with `Debugger.scriptParsed`
before it goes on; the builder of the mixed stack does not.  The lookup and the announcement are
two steps, and the table outlives the connection.  `sent` is what the client has received on the
current connection, the last message first; no function of the source reads it.

Main result: `scripts_announced`, with the invariant `AnnouncedInv`.
-/
import ArkToolchain.Interleaving
import Mathlib.Data.Fintype.Basic

namespace ArkToolchain

/-! ### The source manager -/

/-- What a script is looked up by. -/
structure ScriptKey where
  fileName : String
  identity : String
  deriving DecidableEq

/-- `idToScript_` is left out: it is `fileNameToId_` read backwards. -/
structure SourceManager where
  fileNameToId : List (ScriptKey × Nat) := []
  knownSources : List Nat := []
  deriving DecidableEq

namespace SourceManager

variable {m : SourceManager} {key : ScriptKey} {id : Nat}

/-- `fileNameToId_.emplace` with the size of the map. -/
def emplace (m : SourceManager) (key : ScriptKey) : Nat × SourceManager :=
  match m.fileNameToId.lookup key with
  | some id => (id, m)
  | none =>
    let id := m.fileNameToId.length
    (id, { m with fileNameToId := (key, id) :: m.fileNameToId })

/-- `GetScriptId`: the id, and whether it was not in `knownSources_` before. -/
def getScriptId (m : SourceManager) (key : ScriptKey) : (Nat × Bool) × SourceManager :=
  let (id, m) := m.emplace key
  ((id, !m.knownSources.contains id), { m with knownSources := m.knownSources.insert id })

/-- The ids in the map are known, and smaller than its size. -/
structure WellFormed (m : SourceManager) : Prop where
  known : ∀ p ∈ m.fileNameToId, p.2 ∈ m.knownSources
  lt : ∀ id ∈ m.knownSources, id < m.fileNameToId.length

theorem known_of_lookup (h : m.WellFormed) (hkey : m.fileNameToId.lookup key = some id) :
    id ∈ m.knownSources := by
  obtain ⟨l₁, l₂, heq, -⟩ := List.lookup_eq_some_iff.mp hkey
  exact h.known (key, id) (by simp [heq])

theorem getScriptId_known (h : m.WellFormed) (hkey : m.fileNameToId.lookup key = some id) :
    m.getScriptId key = ((id, false), m) := by
  have hid := known_of_lookup h hkey
  simp [getScriptId, emplace, hkey, hid]

/-- The source manager after the lookup of a new script. -/
def insertNew (m : SourceManager) (key : ScriptKey) : SourceManager where
  fileNameToId := (key, m.fileNameToId.length) :: m.fileNameToId
  knownSources := m.fileNameToId.length :: m.knownSources

theorem getScriptId_new (h : m.WellFormed) (hkey : m.fileNameToId.lookup key = none) :
    m.getScriptId key = ((m.fileNameToId.length, true), m.insertNew key) := by
  have hnew : m.fileNameToId.length ∉ m.knownSources := fun hmem => Nat.lt_irrefl _ (h.lt _ hmem)
  simp [getScriptId, emplace, insertNew, hkey, hnew]

theorem WellFormed.insertNew (h : m.WellFormed) : (m.insertNew key).WellFormed where
  known p hp := by
    rcases List.mem_cons.mp hp with rfl | hp
    · exact .head _
    · exact .tail _ (h.known p hp)
  lt id hid := by
    rcases List.mem_cons.mp hid with rfl | hid
    · exact Nat.lt_succ_self _
    · exact Nat.lt_succ_of_lt (h.lt id hid)

end SourceManager

/-! ### Messages -/

/-- What is sent to the client. -/
inductive ClientMessage
  | scriptParsed (scriptId : Nat) (url : String)
  | paused (scriptIds : List Nat)
  | locations (scriptIds : List Nat)
  | mixedStack (scriptIds : List Nat)
  deriving DecidableEq

namespace ClientMessage

/-- The script ids that the client has to resolve. -/
def scriptIds : ClientMessage → List Nat
  | .scriptParsed _ _ => []
  | .paused scriptIds => scriptIds
  | .locations scriptIds => scriptIds
  | .mixedStack scriptIds => scriptIds

/-- The script that the message announces. -/
def announces : ClientMessage → Option Nat
  | .scriptParsed scriptId _ => some scriptId
  | _ => none

end ClientMessage

/-- The script ids that have been announced. -/
def announcedIn (sent : List ClientMessage) : List Nat :=
  sent.filterMap ClientMessage.announces

/-- Every script id in a message was announced by an earlier one. -/
def WellAnnounced : List ClientMessage → Prop
  | [] => True
  | message :: earlier =>
    (∀ id ∈ message.scriptIds, id ∈ announcedIn earlier) ∧ WellAnnounced earlier

instance decidableWellAnnounced : ∀ sent, Decidable (WellAnnounced sent)
  | [] => isTrue trivial
  | _ :: earlier =>
    have := decidableWellAnnounced earlier
    inferInstanceAs (Decidable (_ ∧ _))

/-- What the threads share, and the messages that have been sent. -/
structure ScriptServer where
  sourceManager : SourceManager := {}
  connected : Bool := false
  syncMode : Bool := false
  /-- How many threads hold `debuggerEventsLock_` for reading. -/
  readers : Nat := 0
  sent : List ClientMessage := []
  deriving DecidableEq

namespace ScriptServer

variable (sh : ScriptServer)

/-- A reply.  In sync mode it is returned to the caller of `RunSync`, who passes
it on to the client. -/
def send (message : ClientMessage) : ScriptServer :=
  if sh.connected then { sh with sent := message :: sh.sent } else sh

/-- `ServerEndpointBase::Call`. -/
def call (message : ClientMessage) : ScriptServer :=
  if sh.syncMode then sh else sh.send message

def setSourceManager (m : SourceManager) : ScriptServer :=
  { sh with sourceManager := m }

/-- A reader takes the lock of the events. -/
def lock : ScriptServer :=
  { sh with readers := sh.readers + 1 }

/-- A reader leaves it. -/
def unlock : ScriptServer :=
  { sh with readers := sh.readers - 1 }

/-- A new connection; the source manager stays as it is. -/
def onOpen : ScriptServer :=
  { sh with connected := true, sent := [] }

def close : ScriptServer :=
  { sh with connected := false }

def setSyncMode (syncMode : Bool) : ScriptServer :=
  { sh with syncMode := syncMode }

@[simp] theorem setSourceManager_self (sh : ScriptServer) :
    sh.setSourceManager sh.sourceManager = sh := rfl

end ScriptServer

/-! ### Message builders -/

/-- What a builder is looking scripts up for.  `CreateAsyncStackTrace` comes
before the call frames of the same event. -/
inductive Report
  | asyncFrames (callFrames : List ScriptKey)
  | callFrames
  | locations
  /-- one of several breakpoints, with the script ids of those before it and the files of those
  after it -/
  | customLocations (chosen : List Nat) (requests : List (List ScriptKey))
  | mixedStack
  deriving DecidableEq

namespace Report

/-- `BuildCallFrameJson` drops the second component of the result. -/
def announcesNew : Report → Bool
  | .mixedStack => false
  | _ => true

/-- The script ids that are in the message before those of `AddLocations`. -/
def chosen : Report → List Nat
  | .customLocations chosen _ => chosen
  | _ => []

/-- A `CustomUrlBreakpointResponse` without a location keeps the script id 0. -/
def keepsDefault (scriptIds : List Nat) : Report → Bool
  | .customLocations _ _ => scriptIds.isEmpty
  | _ => false

end Report

/-- Where a thread is that makes a report. -/
inductive BuilderPc
  | idle
  | lookUp (report : Report) (todo : List ScriptKey) (scriptIds : List Nat)
  | announce (report : Report) (key : ScriptKey) (id : Nat) (todo : List ScriptKey)
      (scriptIds : List Nat)
  deriving DecidableEq

namespace BuilderPc

/-- The script ids that the message will have. -/
def scriptIds : BuilderPc → List Nat
  | .idle => []
  | .lookUp report _ scriptIds => report.chosen ++ scriptIds
  | .announce report _ _ _ scriptIds => report.chosen ++ scriptIds

/-- The script that the thread is about to announce. -/
def announcing : BuilderPc → Option Nat
  | .announce _ _ id _ _ => some id
  | _ => none

end BuilderPc

/-- The threads of the application, and the server thread. -/
inductive ScriptThread (Θ : Type*)
  | app (t : Θ)
  | server
  deriving DecidableEq

/-- Events of the program, requests of the client and changes of the connection. -/
inductive ScriptInput
  | paused (asyncFrames callFrames : List ScriptKey)
  | getStaticCallFrames (callFrames : List ScriptKey)
  | setBreakpointByUrl (sourceFiles : List ScriptKey)
  | setBreakpoint (scriptId : Nat)
  /-- with the number of lines that the handler finds -/
  | getPossibleBreakpoints (scriptId lines : Nat)
  /-- the files that are found for each breakpoint: none for one that cannot be set -/
  | getPossibleAndSetBreakpointByUrl (requests : List (List ScriptKey))
  | onOpen
  | close
  | runSync
  | endSync
  | goOn
  deriving DecidableEq

/-- The loop of `getPossibleAndSetBreakpointByUrl`. -/
def ScriptServer.setNext (sh : ScriptServer) (chosen : List Nat) :
    List (List ScriptKey) → ScriptServer × BuilderPc
  | [] => (sh.send (.locations chosen), .idle)
  | sourceFiles :: requests => (sh, .lookUp (.customLocations chosen requests) sourceFiles [])

/-- All scripts have been looked up. -/
def ScriptServer.finish (sh : ScriptServer) (scriptIds : List Nat) :
    Report → ScriptServer × BuilderPc
  | .asyncFrames callFrames =>
    -- in sync mode `Call` does not build the message
    if sh.syncMode then (sh.unlock, .idle) else (sh, .lookUp .callFrames callFrames scriptIds)
  | .callFrames => ((sh.send (.paused scriptIds)).unlock, .idle)
  | .locations => (sh.send (.locations scriptIds), .idle)
  | .customLocations chosen requests =>
    -- `ToCustomUrlBreakpointResponse` takes the first location
    sh.setNext (chosen ++ [scriptIds.headD 0]) requests
  | .mixedStack => (sh.send (.mixedStack scriptIds), .idle)

/-- `GetScriptId` in a builder. -/
def ScriptServer.lookUp (sh : ScriptServer) (report : Report) (key : ScriptKey)
    (todo : List ScriptKey) (scriptIds : List Nat) : ScriptServer × BuilderPc :=
  let ((id, isNew), m) := sh.sourceManager.getScriptId key
  (sh.setSourceManager m,
    if isNew && report.announcesNew then .announce report key id todo scriptIds
    else .lookUp report todo (scriptIds ++ [id]))

variable {Θ : Type*}

/-- A step: the lookup of a script, its announcement and the report are apart. -/
def scriptNext : ScriptThread Θ → ScriptServer → BuilderPc → ScriptInput →
    Option (ScriptServer × BuilderPc)
  | .app _, sh, .idle, .paused asyncFrames callFrames =>
    some (sh.lock, .lookUp (.asyncFrames callFrames) asyncFrames [])
  | .app _, sh, .idle, .getStaticCallFrames callFrames =>
    some (sh, .lookUp .mixedStack callFrames [])
  | .server, sh, .idle, .setBreakpointByUrl sourceFiles =>
    some (sh, .lookUp .locations sourceFiles [])
  | .server, sh, .idle, .setBreakpoint scriptId => some (sh.send (.locations [scriptId]), .idle)
  | .server, sh, .idle, .getPossibleBreakpoints scriptId lines =>
    some (sh.send (.locations (List.replicate lines scriptId)), .idle)
  | .server, sh, .idle, .getPossibleAndSetBreakpointByUrl requests => some (sh.setNext [] requests)
  | .server, sh, .idle, .onOpen =>
    -- `OnValidate` takes `debuggerEventsLock_` for writing
    if sh.readers = 0 then some (sh.onOpen, .idle) else none
  | .server, sh, .idle, .close => some (sh.close, .idle)
  | .server, sh, .idle, .runSync => some (sh.setSyncMode true, .idle)
  | .server, sh, .idle, .endSync => some (sh.setSyncMode false, .idle)
  | _, sh, .lookUp report (key :: todo) scriptIds, .goOn =>
    some (sh.lookUp report key todo scriptIds)
  | _, sh, .lookUp report [] scriptIds, .goOn => some (sh.finish scriptIds report)
  | _, sh, .announce report key id todo scriptIds, .goOn =>
    some (sh.call (.scriptParsed id key.fileName), .lookUp report todo (scriptIds ++ [id]))
  | _, _, _, _ => none

/-! The steps of a builder, whichever thread it runs in. -/

section Builders

variable {t : ScriptThread Θ} {i : ScriptInput} {sh : ScriptServer} {r : ScriptServer × BuilderPc}
  {report : Report} {key : ScriptKey} {id : Nat} {todo : List ScriptKey} {scriptIds : List Nat}

theorem eq_finish_of_scriptNext (h : scriptNext t sh (.lookUp report [] scriptIds) i = some r) :
    r = sh.finish scriptIds report := by
  cases i with
  | goOn => cases t <;> exact (Option.some.inj h).symm
  | _ => cases t <;> cases h

theorem eq_lookUp_of_scriptNext
    (h : scriptNext t sh (.lookUp report (key :: todo) scriptIds) i = some r) :
    r = sh.lookUp report key todo scriptIds := by
  cases i with
  | goOn => cases t <;> exact (Option.some.inj h).symm
  | _ => cases t <;> cases h

theorem eq_announce_of_scriptNext
    (h : scriptNext t sh (.announce report key id todo scriptIds) i = some r) :
    r = (sh.call (.scriptParsed id key.fileName), .lookUp report todo (scriptIds ++ [id])) := by
  cases i with
  | goOn => cases t <;> exact (Option.some.inj h).symm
  | _ => cases t <;> cases h

end Builders

abbrev ScriptThreads (Θ : Type*) := Threads (ScriptThread Θ) ScriptServer BuilderPc

def ScriptThreads.init (Θ : Type*) : ScriptThreads Θ where
  shared := {}
  pcs _ := .idle

/-! ### The condition -/

variable (s : ScriptThreads Θ)

/-- No thread is about to announce the script. -/
def NoneAnnounces (id : Nat) : Prop :=
  (s.pcs .server).announcing ≠ some id ∧ ∀ t, (s.pcs (.app t)).announcing ≠ some id

/-- The script is known, and not about to be announced. -/
def Known (id : Nat) : Prop :=
  id ∈ s.shared.sourceManager.knownSources ∧ NoneAnnounces s id

/-- A lookup for the mixed stack finds a script that is known, a script that is
known is not about to be announced, an announcement is not dropped, and a response without a
location does not come before script 0. -/
def MayBuild : BuilderPc → Prop
  | .lookUp report (key :: _) _ =>
    (∀ id ∈ s.shared.sourceManager.fileNameToId.lookup key, NoneAnnounces s id) ∧
      (s.shared.sourceManager.fileNameToId.lookup key = none → report ≠ .mixedStack)
  | .lookUp report [] scriptIds => report.keepsDefault scriptIds = true → Known s 0
  | .announce _ _ _ _ _ => s.shared.connected = true ∧ s.shared.syncMode = false
  | _ => True

/-- A connection begins with no script known, and requests name known scripts. -/
def MayReceive : ScriptInput → Prop
  | .onOpen => s.shared.sourceManager.knownSources = []
  | .setBreakpoint scriptId => Known s scriptId
  | .getPossibleBreakpoints scriptId lines => 0 < lines → Known s scriptId
  | _ => True

/-- The step is not one of those that send a script unannounced. -/
def AnnouncesInTime (t : ScriptThread Θ) (i : ScriptInput) : Prop :=
  MayReceive s i ∧ MayBuild s (s.pcs t)

section Decidable

variable [Fintype Θ] (s : ScriptThreads Θ)

instance decidableNoneAnnounces (id : Nat) : Decidable (NoneAnnounces s id) :=
  inferInstanceAs (Decidable (_ ∧ _))

instance decidableKnown (id : Nat) : Decidable (Known s id) :=
  inferInstanceAs (Decidable (_ ∧ _))

instance decidableMayBuild : ∀ pc, Decidable (MayBuild s pc)
  | .idle => isTrue trivial
  | .lookUp _ [] _ => inferInstanceAs (Decidable (_ → _))
  | .lookUp _ (_ :: _) _ => inferInstanceAs (Decidable (_ ∧ _))
  | .announce _ _ _ _ _ => inferInstanceAs (Decidable (_ ∧ _))

instance decidableMayReceive : ∀ i, Decidable (MayReceive s i)
  | .onOpen => inferInstanceAs (Decidable (_ = _))
  | .setBreakpoint _ => inferInstanceAs (Decidable (Known _ _))
  | .getPossibleBreakpoints _ _ => inferInstanceAs (Decidable (_ → _))
  | .getPossibleAndSetBreakpointByUrl _ => isTrue trivial
  | .paused _ _ => isTrue trivial
  | .getStaticCallFrames _ => isTrue trivial
  | .setBreakpointByUrl _ => isTrue trivial
  | .close => isTrue trivial
  | .runSync => isTrue trivial
  | .endSync => isTrue trivial
  | .goOn => isTrue trivial

instance decidableAnnouncesInTime (t : ScriptThread Θ) (i : ScriptInput) :
    Decidable (AnnouncesInTime s t i) :=
  inferInstanceAs (Decidable (_ ∧ _))

end Decidable

/-! ### What a step keeps -/

/-- Known scripts have been announced, or are about to be, and what reports name is known. -/
structure AnnouncedInv (s : ScriptThreads Θ) : Prop where
  wellFormed : s.shared.sourceManager.WellFormed
  announced : ∀ id ∈ s.shared.sourceManager.knownSources,
    id ∈ announcedIn s.shared.sent ∨ ∃ t, (s.pcs t).announcing = some id
  pending : ∀ t, ∀ id ∈ (s.pcs t).announcing, id ∈ s.shared.sourceManager.knownSources
  collected : ∀ t, ∀ id ∈ (s.pcs t).scriptIds,
    id ∈ s.shared.sourceManager.knownSources ∧ id ∈ announcedIn s.shared.sent
  sent : WellAnnounced s.shared.sent

theorem mem_announcedIn_cons {id : Nat} {message : ClientMessage} {sent : List ClientMessage}
    (h : id ∈ announcedIn sent) : id ∈ announcedIn (message :: sent) := by
  obtain ⟨m, hm, hid⟩ := List.mem_filterMap.mp h
  exact List.mem_filterMap.mpr ⟨m, .tail _ hm, hid⟩

namespace ScriptServer

variable (sh : ScriptServer) (message : ClientMessage)

@[simp] theorem sourceManager_send : (sh.send message).sourceManager = sh.sourceManager := by
  unfold send
  split <;> rfl

theorem announcedIn_send {id : Nat} (h : id ∈ announcedIn sh.sent) :
    id ∈ announcedIn (sh.send message).sent := by
  unfold send
  split
  · exact mem_announcedIn_cons h
  · exact h

theorem wellAnnounced_send (h : WellAnnounced sh.sent)
    (hmessage : ∀ id ∈ message.scriptIds, id ∈ announcedIn sh.sent) :
    WellAnnounced (sh.send message).sent := by
  unfold send
  split
  · exact ⟨hmessage, h⟩
  · exact h

end ScriptServer

/-- The state after a step of `t`. -/
abbrev ScriptThreads.moved [DecidableEq Θ] (s : ScriptThreads Θ) (t : ScriptThread Θ)
    (r : ScriptServer × BuilderPc) : ScriptThreads Θ :=
  { shared := r.1, pcs := Function.update s.pcs t r.2 }

section Steps

variable [DecidableEq Θ] {s s' : ScriptThreads Θ} {t : ScriptThread Θ} {i : ScriptInput} {id : Nat}

namespace AnnouncedInv

variable (h : AnnouncedInv s)
include h

omit [DecidableEq Θ] in
/-- A script that is known, and that nobody is about to announce, has been
announced. -/
theorem of_known (hknown : Known s id) :
    id ∈ s.shared.sourceManager.knownSources ∧ id ∈ announcedIn s.shared.sent := by
  obtain ⟨hid, happ, hnone⟩ := hknown
  rcases h.announced id hid with hsent | ⟨t, ht⟩
  · exact ⟨hid, hsent⟩
  · cases t with
    | app t => exact absurd ht (hnone t)
    | server => exact absurd ht happ

variable {sh : ScriptServer} {pc : BuilderPc}

section

variable (hmanager : sh.sourceManager = s.shared.sourceManager)
include hmanager

theorem update (hkeep : ∀ id ∈ announcedIn s.shared.sent, id ∈ announcedIn sh.sent)
    (hsent : WellAnnounced sh.sent)
    (hannounced : ∀ id ∈ (s.pcs t).announcing, id ∈ announcedIn sh.sent)
    (hpc : pc.announcing = none) (hcollected : ∀ id ∈ pc.scriptIds,
      id ∈ s.shared.sourceManager.knownSources ∧ id ∈ announcedIn sh.sent) :
    AnnouncedInv (s.moved t (sh, pc)) := by
  refine ⟨hmanager ▸ h.wellFormed, ?_, ?_, ?_, hsent⟩
  · intro id hid
    rcases h.announced id (hmanager ▸ hid) with hid | ⟨u, hu⟩
    · exact .inl (hkeep id hid)
    · by_cases hut : u = t
      · exact .inl (hannounced id (hut ▸ hu))
      · exact .inr ⟨u, by simpa [Function.update_of_ne hut] using hu⟩
  · rw [hmanager]
    refine (Function.forall_update_iff s.pcs (fun _ pc => ∀ id ∈ pc.announcing,
      id ∈ s.shared.sourceManager.knownSources)).mpr ⟨?_, fun u _ => h.pending u⟩
    rw [hpc]
    exact nofun
  · rw [hmanager]
    refine (Function.forall_update_iff s.pcs (fun _ pc => ∀ id ∈ pc.scriptIds,
      id ∈ s.shared.sourceManager.knownSources ∧ id ∈ announcedIn sh.sent)).mpr
        ⟨hcollected, fun u _ id hid => ?_⟩
    obtain ⟨hknown, hid⟩ := h.collected u id hid
    exact ⟨hknown, hkeep id hid⟩

theorem quiet (hsent : sh.sent = s.shared.sent) (hold : (s.pcs t).announcing = none)
    (hpc : pc.announcing = none) (hcollected : ∀ id ∈ pc.scriptIds, id ∈ (s.pcs t).scriptIds) :
    AnnouncedInv (s.moved t (sh, pc)) := by
  refine h.update hmanager ?_ ?_ ?_ hpc ?_
  · rw [hsent]
    exact fun _ hid => hid
  · rw [hsent]
    exact h.sent
  · rw [hold]
    exact nofun
  · rw [hsent]
    exact fun id hid => h.collected t id (hcollected id hid)

theorem send {message : ClientMessage} (hsent : sh.sent = (s.shared.send message).sent)
    (hold : (s.pcs t).announcing = none)
    (hmessage : ∀ id ∈ message.scriptIds, id ∈ announcedIn s.shared.sent) :
    AnnouncedInv (s.moved t (sh, .idle)) := by
  refine h.update hmanager ?_ ?_ ?_ rfl nofun
  · rw [hsent]
    exact fun id hid => s.shared.announcedIn_send message hid
  · rw [hsent]
    exact s.shared.wellAnnounced_send message h.sent hmessage
  · rw [hold]
    exact nofun

end

variable {scriptIds : List Nat} {report : Report}

theorem setNext (hold : (s.pcs t).announcing = none) {chosen : List Nat}
    (hchosen : ∀ id ∈ chosen,
      id ∈ s.shared.sourceManager.knownSources ∧ id ∈ announcedIn s.shared.sent)
    (requests : List (List ScriptKey)) :
    AnnouncedInv (s.moved t (s.shared.setNext chosen requests)) := by
  cases requests with
  | nil => exact h.send (s.shared.sourceManager_send _) rfl hold fun id hid => (hchosen id hid).2
  | cons sourceFiles requests =>
    refine h.update rfl (fun _ hid => hid) h.sent ?_ rfl ?_
    · rw [hold]
      exact nofun
    · simpa [BuilderPc.scriptIds, Report.chosen] using hchosen

theorem finish (hpc : s.pcs t = .lookUp report [] scriptIds)
    (hdefault : report.keepsDefault scriptIds = true → Known s 0) :
    AnnouncedInv (s.moved t (s.shared.finish scriptIds report)) := by
  have hold : (s.pcs t).announcing = none := by rw [hpc]; rfl
  have hcollected := h.collected t
  rw [hpc] at hcollected
  have hids : ∀ id ∈ scriptIds, id ∈ announcedIn s.shared.sent :=
    fun id hid => (hcollected id (List.mem_append_right _ hid)).2
  cases report with
  | asyncFrames callFrames =>
    unfold ScriptServer.finish
    dsimp only
    split
    · exact h.quiet rfl rfl hold rfl nofun
    · refine h.quiet rfl rfl hold rfl fun id hid => ?_
      rw [hpc]
      exact hid
  | callFrames | locations | mixedStack =>
    exact h.send (s.shared.sourceManager_send _) rfl hold hids
  | customLocations chosen requests =>
    refine h.setNext hold (fun id hid => ?_) requests
    rcases List.mem_append.mp hid with hid | hid
    · exact hcollected id (List.mem_append_left _ hid)
    · obtain rfl := List.mem_singleton.mp hid
      cases scriptIds with
      | nil => exact h.of_known (hdefault rfl)
      | cons id scriptIds => exact hcollected id (List.mem_append_right _ (.head _))

variable {todo : List ScriptKey} {key : ScriptKey}

theorem lookUp_known (hpc : s.pcs t = .lookUp report (key :: todo) scriptIds)
    (hkey : s.shared.sourceManager.fileNameToId.lookup key = some id) (hnone : NoneAnnounces s id) :
    AnnouncedInv (s.moved t (s.shared, .lookUp report todo (scriptIds ++ [id]))) := by
  refine h.update rfl (fun _ hid => hid) h.sent ?_ rfl ?_
  · rw [hpc]
    exact nofun
  · intro id' hid'
    rw [BuilderPc.scriptIds, ← List.append_assoc] at hid'
    rcases List.mem_append.mp hid' with hid' | hid'
    · exact h.collected t id' (by rw [hpc]; exact hid')
    · obtain rfl := List.mem_singleton.mp hid'
      exact h.of_known ⟨SourceManager.known_of_lookup h.wellFormed hkey, hnone⟩

theorem lookUp_new (hpc : s.pcs t = .lookUp report (key :: todo) scriptIds) :
    AnnouncedInv (s.moved t
      (s.shared.setSourceManager (s.shared.sourceManager.insertNew key),
        .announce report key s.shared.sourceManager.fileNameToId.length todo scriptIds)) := by
  refine ⟨h.wellFormed.insertNew, ?_, ?_, ?_, h.sent⟩
  · intro id hid
    rcases List.mem_cons.mp hid with rfl | hid
    · exact .inr ⟨t, by simp [BuilderPc.announcing]⟩
    · rcases h.announced id hid with hid | ⟨u, hu⟩
      · exact .inl hid
      · have hut : u ≠ t := by
          rintro rfl
          rw [hpc] at hu
          cases hu
        exact .inr ⟨u, by simpa [Function.update_of_ne hut] using hu⟩
  · refine (Function.forall_update_iff s.pcs (fun _ pc => ∀ id ∈ pc.announcing,
      id ∈ (s.shared.sourceManager.insertNew key).knownSources)).mpr
        ⟨?_, fun u _ id hid => .tail _ (h.pending u id hid)⟩
    rintro id ⟨⟩
    exact .head _
  · refine (Function.forall_update_iff s.pcs (fun _ pc => ∀ id ∈ pc.scriptIds,
      id ∈ (s.shared.sourceManager.insertNew key).knownSources ∧
        id ∈ announcedIn s.shared.sent)).mpr ⟨fun id hid => ?_, fun u _ id hid => ?_⟩
    · obtain ⟨hknown, hid⟩ := h.collected t id (by rw [hpc]; exact hid)
      exact ⟨.tail _ hknown, hid⟩
    · obtain ⟨hknown, hid⟩ := h.collected u id hid
      exact ⟨.tail _ hknown, hid⟩

theorem announce (hpc : s.pcs t = .announce report key id todo scriptIds)
    (hconnected : s.shared.connected = true) (hsync : s.shared.syncMode = false) :
    AnnouncedInv (s.moved t (s.shared.call (.scriptParsed id key.fileName),
      .lookUp report todo (scriptIds ++ [id]))) := by
  have hcall : s.shared.call (.scriptParsed id key.fileName) =
      { s.shared with sent := .scriptParsed id key.fileName :: s.shared.sent } := by
    simp [ScriptServer.call, ScriptServer.send, hconnected, hsync]
  have hid : id ∈ announcedIn (.scriptParsed id key.fileName :: s.shared.sent) := .head _
  rw [hcall]
  refine h.update rfl (fun _ hid => mem_announcedIn_cons hid) ⟨nofun, h.sent⟩ ?_ rfl ?_
  · rw [hpc]
    rintro id' ⟨⟩
    exact hid
  · intro id' hid'
    rw [BuilderPc.scriptIds, ← List.append_assoc] at hid'
    rcases List.mem_append.mp hid' with hid' | hid'
    · obtain ⟨hknown, hid'⟩ := h.collected t id' (by rw [hpc]; exact hid')
      exact ⟨hknown, mem_announcedIn_cons hid'⟩
    · obtain rfl := List.mem_singleton.mp hid'
      exact ⟨h.pending t id' (by rw [hpc]; rfl), hid⟩

theorem onOpen (hidle : s.pcs t = .idle) (hnone : s.shared.sourceManager.knownSources = []) :
    AnnouncedInv (s.moved t (s.shared.onOpen, .idle)) := by
  rw [← hidle, ScriptThreads.moved, Function.update_eq_self]
  refine ⟨h.wellFormed, fun id hid => ?_, h.pending, fun u id hid => ?_, trivial⟩
  · replace hid : id ∈ s.shared.sourceManager.knownSources := hid
    rw [hnone] at hid
    cases hid
  · have hknown := (h.collected u id hid).1
    rw [hnone] at hknown
    cases hknown

theorem lookUp (hpc : s.pcs t = .lookUp report (key :: todo) scriptIds)
    (hmay : MayBuild s (s.pcs t)) :
    AnnouncedInv (s.moved t (s.shared.lookUp report key todo scriptIds)) := by
  rw [hpc] at hmay
  obtain ⟨hnone, hreport⟩ := hmay
  rcases hkey : s.shared.sourceManager.fileNameToId.lookup key with - | id
  · have hannounces : report.announcesNew = true := by
      cases report with
      | mixedStack => exact absurd rfl (hreport hkey)
      | _ => rfl
    simpa [ScriptServer.lookUp, SourceManager.getScriptId_new h.wellFormed hkey, hannounces]
      using h.lookUp_new hpc
  · simpa [ScriptServer.lookUp, SourceManager.getScriptId_known h.wellFormed hkey]
      using h.lookUp_known hpc hkey (hnone id hkey)

/-- **Announcements, one step.** -/
theorem step (hstep : s.step scriptNext t i = some s')
    (htime : AnnouncesInTime s t i) : AnnouncedInv s' := by
  obtain ⟨sh, pc, hn, rfl⟩ := Threads.step_eq_some hstep
  obtain ⟨hreceive, hbuild⟩ := htime
  rcases hpc : s.pcs t with - | ⟨report, todo, scriptIds⟩ | ⟨report, key, id, todo, scriptIds⟩
  · have hold : (s.pcs t).announcing = none := by rw [hpc]; rfl
    rw [hpc] at hn
    cases t with
    | app t =>
      cases i with
      | paused asyncFrames callFrames | getStaticCallFrames callFrames =>
        cases hn
        exact h.quiet rfl rfl hold rfl nofun
      | _ => cases hn
    | server =>
      cases i with
      | setBreakpointByUrl sourceFiles | close | runSync | endSync =>
        cases hn
        exact h.quiet rfl rfl hold rfl nofun
      | setBreakpoint scriptId =>
        cases hn
        refine h.send (s.shared.sourceManager_send _) rfl hold fun id hid => ?_
        obtain rfl := List.mem_singleton.mp hid
        exact (h.of_known hreceive).2
      | getPossibleBreakpoints scriptId lines =>
        cases hn
        refine h.send (s.shared.sourceManager_send _) rfl hold fun id hid => ?_
        obtain ⟨hlines, rfl⟩ := List.mem_replicate.mp hid
        exact (h.of_known (hreceive (Nat.pos_of_ne_zero hlines))).2
      | getPossibleAndSetBreakpointByUrl requests =>
        have hnext : AnnouncedInv (s.moved .server (s.shared.setNext [] requests)) :=
          h.setNext hold (by simp) requests
        rwa [Option.some.inj hn] at hnext
      | onOpen =>
        obtain ⟨-, heq⟩ := Option.ite_none_right_eq_some.mp hn
        cases heq
        exact h.onOpen hpc hreceive
      | _ => cases hn
  · rw [hpc] at hn
    rcases todo with - | ⟨key, todo⟩
    · have hfinish := h.finish hpc (by rw [hpc] at hbuild; exact hbuild)
      rwa [← eq_finish_of_scriptNext hn] at hfinish
    · have hlookUp := h.lookUp hpc hbuild
      rwa [← eq_lookUp_of_scriptNext hn] at hlookUp
  · rw [hpc] at hn hbuild
    have hannounce := h.announce hpc hbuild.1 hbuild.2
    rwa [← eq_announce_of_scriptNext hn] at hannounce

end AnnouncedInv

/-- **Script announcements**: in every run in which connections are opened before
the first lookup, scripts that are not new are used only after they have been
announced, announcements are not dropped, and no breakpoint is without a file before script 0 is
announced, every script id in a message was announced before on the same connection. -/
theorem scripts_announced (schedule : List (ScriptThread Θ × ScriptInput))
    (h : Threads.EachStep scriptNext AnnouncesInTime (ScriptThreads.init Θ) schedule) :
    Threads.Always scriptNext (fun s => WellAnnounced s.shared.sent) (ScriptThreads.init Θ)
      schedule := by
  refine h.always (I := AnnouncedInv) (fun s hs => hs.sent) (fun s t i s' hs => hs.step) ?_
  exact ⟨⟨nofun, nofun⟩, nofun, nofun, nofun, trivial⟩

end Steps

/-! ### Runs -/

section Runs

def mainScript : ScriptKey where
  fileName := "main.ets"
  identity := "app.abc"

/-- A pause in a new script: the lookup, the announcement, the event. -/
def pauseIn (key : ScriptKey) : List (ScriptThread Unit × ScriptInput) :=
  [(.app (), .paused [] [key]), (.app (), .goOn), (.app (), .goOn), (.app (), .goOn),
   (.app (), .goOn)]

def pauseAgainIn (key : ScriptKey) : List (ScriptThread Unit × ScriptInput) :=
  [(.app (), .paused [] [key]), (.app (), .goOn), (.app (), .goOn), (.app (), .goOn)]

def pausedTwiceIn (key : ScriptKey) : List (ScriptThread Unit × ScriptInput) :=
  (.server, .onOpen) :: pauseIn key ++ pauseAgainIn key

theorem scripts_announced_pausedTwiceIn :
    (ScriptThreads.init Unit).run scriptNext (pausedTwiceIn mainScript) ≠ none ∧
      Threads.Always scriptNext (fun s => WellAnnounced s.shared.sent) (ScriptThreads.init Unit)
        (pausedTwiceIn mainScript) :=
  ⟨nofun, scripts_announced (pausedTwiceIn mainScript) (by decide)⟩

/-- The client reconnects between the pauses. -/
def reconnected : List (ScriptThread Unit × ScriptInput) :=
  (.server, .onOpen) :: pauseIn mainScript ++ [(.server, .close), (.server, .onOpen)] ++
    pauseAgainIn mainScript

/-- The mixed stack is the first to have the script. -/
def mixedStackFirst : List (ScriptThread Unit × ScriptInput) :=
  [(.server, .onOpen), (.app (), .getStaticCallFrames [mainScript]), (.app (), .goOn),
   (.app (), .goOn)]

/-- A breakpoint in a file that is not loaded. -/
def fileNotLoaded : List (ScriptThread Unit × ScriptInput) :=
  [(.server, .onOpen), (.server, .getPossibleAndSetBreakpointByUrl [[]]), (.server, .goOn)]

/-- On the new connection, with the mixed stack, and for a file that is not loaded, the client
gets a script id that has not been announced. -/
theorem script_not_announced :
    (∃ s : ScriptThreads Unit,
      (ScriptThreads.init Unit).run scriptNext reconnected = some s ∧
      s.shared.sent = [.paused [0]] ∧ ¬ WellAnnounced s.shared.sent) ∧
    (∃ s : ScriptThreads Unit,
      (ScriptThreads.init Unit).run scriptNext mixedStackFirst = some s ∧
      s.shared.sent = [.mixedStack [0]] ∧ ¬ WellAnnounced s.shared.sent) ∧
    ∃ s : ScriptThreads Unit,
      (ScriptThreads.init Unit).run scriptNext fileNotLoaded = some s ∧
      s.shared.sent = [.locations [0]] ∧ ¬ WellAnnounced s.shared.sent :=
  ⟨⟨_, rfl, rfl, by decide⟩, ⟨_, rfl, rfl, by decide⟩, ⟨_, rfl, rfl, by decide⟩⟩

end Runs

end ArkToolchain
