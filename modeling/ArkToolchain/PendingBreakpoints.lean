/-
Launch-accelerate mode: breakpoints that are set when their script is parsed.

A breakpoint that is removed should not come back with the next file that has its url.  The
pending breakpoints are forgotten by `removeBreakpointsByUrl` for the url under which they are
pending; `disable` and `removeBreakpoint` leave them, and so does `removeBreakpointsByUrl` if
they have been saved under another url.

Main results: `pending_sets_iff` for one file, `removed_breakpoints_stay_removed` for runs.
-/
import ArkToolchain.DynamicBreakpoints
import ArkToolchain.Traces

namespace ArkToolchain

open Pt

namespace DynamicDebugger

variable {tables : DebugTables} {js : JSDebugger}

/-! ### Requests and removals -/

variable (dbg : DynamicDebugger js) (event : DynamicEvent tables)

/-- Breakpoints have one place for each url and line; columns are not supported. -/
def SamePlace (a b : BreakpointInfo) : Prop := a.url = b.url ∧ a.lineNumber = b.lineNumber

def requested : DynamicAction → List BreakpointInfo
  | .getPossibleAndSetBreakpointByUrl (some breakpoints) => breakpoints
  | .saveAllPossibleBreakpoints (some breakpoints) => breakpoints.flatMap Prod.snd
  | _ => []

/-- The event is a request for the breakpoint, and succeeds. -/
def Requests (breakpoint : BreakpointInfo) : Prop :=
  (dbg.outcome event).response = .ok ∧
    ∃ breakpoint' ∈ requested event.action, SamePlace breakpoint' breakpoint

/-- The event removes the breakpoint by its id or url, and says so, or disables the
debugger. -/
def Removes (breakpoint : BreakpointInfo) : Prop :=
  match event.action with
  | .disable => True
  | .removeBreakpoint id =>
    (dbg.outcome event).response = .ok ∧
      ∃ column, BreakpointDetails.parseBreakpointId id {} =
        (true, { line := breakpoint.lineNumber, column, url := breakpoint.url })
  | .removeBreakpointsByUrl url =>
    (dbg.outcome event).response = .ok ∧ breakpoint.url = url
  | _ => False

/-- Pending breakpoints are removed by the url under which they are pending, and in no
other way. -/
def RemovalFits : Prop :=
  ∀ url, ∀ breakpoint ∈ dbg.pending url, Removes dbg event breakpoint →
    event.action = .removeBreakpointsByUrl url

/-! ### What becomes of the pending breakpoints -/

/-- Neither the pending breakpoints nor the mode have changed. -/
structure SamePending (dbg dbg' : DynamicDebugger js) : Prop where
  map : dbg'.breakpointPendingMap = dbg.breakpointPendingMap
  mode : dbg'.breakOnStartEnable = dbg.breakOnStartEnable

variable {dbg dbg' : DynamicDebugger js}

theorem SamePending.pending (h : SamePending dbg dbg') (url : Bytes) :
    dbg'.pending url = dbg.pending url := by
  rw [DynamicDebugger.pending, h.map]
  rfl

theorem SamePending.refl (dbg : DynamicDebugger js) : SamePending dbg dbg := ⟨rfl, rfl⟩

theorem processBreakpoints_invariant {I : DynamicDebugger js → Prop} {env : Environment tables}
    {next : BreakpointInfo → DynamicDebugger js → DynamicDebugger js}
    (hjs : ∀ dbg s, I dbg → I { dbg with jsDebugger := s }) {breakpoints : List BreakpointInfo}
    (hnext : ∀ breakpoint ∈ breakpoints, ∀ dbg, I dbg → I (next breakpoint dbg)) (h : I dbg) :
    I (processBreakpoints env next breakpoints dbg).2 := by
  induction breakpoints generalizing dbg with
  | nil => exact h
  | cons breakpoint breakpoints ih =>
    rw [List.forall_mem_cons] at hnext
    exact ih hnext.2 (hnext.1 _ (hjs _ _ h))

theorem samePending_notifyScriptParsed (env : Environment tables) (file : ParsedFile)
    (dbg : DynamicDebugger js) : SamePending dbg (dbg.notifyScriptParsed env file).2 := by
  rcases dbg.notifyScriptParsed_cases env file with heq | heq | ⟨locations, dbg', hloop, -, heq⟩
  · rw [heq]
    exact .refl dbg
  · rw [heq]
    exact ⟨rfl, rfl⟩
  · have h : SamePending dbg (processBreakpoints env (fun _ => id) (dbg.setWhenParsing env file)
        (dbg.registerScript file)).2 :=
      processBreakpoints_invariant (fun _ _ h => ⟨h.map, h.mode⟩) (fun _ _ _ h => h) ⟨rfl, rfl⟩
    rw [hloop] at h
    rw [heq]
    exact ⟨h.map, h.mode⟩

def changesPending : DynamicAction → Bool
  | .enable _ | .getPossibleAndSetBreakpointByUrl _ | .saveAllPossibleBreakpoints _
  | .removeBreakpointsByUrl _ => true
  | _ => false

variable {event : DynamicEvent tables}

/-- The events that touch neither the pending breakpoints nor the scripts. -/
theorem step_frame (h : changesPending event.action = false)
    (hfile : ∀ file, event.action ≠ .scriptParsed file) (dbg : DynamicDebugger js) :
    ∃ jsDebugger debuggerState debugMode breakpointsState skipAllPauses pauseOnException,
      dbg.step event = { dbg with
        jsDebugger, debuggerState, debugMode, breakpointsState, skipAllPauses,
        pauseOnException } := by
  obtain ⟨env, action⟩ := event
  cases action with
  | enable | getPossibleAndSetBreakpointByUrl | saveAllPossibleBreakpoints
  | removeBreakpointsByUrl => cases h
  | scriptParsed file => exact absurd rfl (hfile file)
  | disable | setBreakpointsActive | setSkipAllPauses | setPauseOnExceptions =>
    exact ⟨_, _, _, _, _, _, rfl⟩
  | setBreakpointByUrl params =>
    obtain ⟨s, hs, -⟩ := dbg.setBreakpointByUrl_spec env params false
    exact ⟨s, _, _, _, _, _, hs⟩
  | smartStepInto params =>
    obtain ⟨s, hs⟩ := dbg.smartStepInto_spec env params
    exact ⟨s, _, _, _, _, _, hs⟩
  | removeBreakpoint id =>
    obtain ⟨s, hs, -⟩ := dbg.removeBreakpoint_spec env id
    exact ⟨s, _, _, _, _, _, hs⟩
  | resume =>
    obtain ⟨state, hstate⟩ := dbg.resume_spec
    exact ⟨_, state, _, _, _, _, hstate⟩
  | breakpoint place =>
    obtain ⟨state, hstate, -⟩ := dbg.breakpoint_spec env place
    exact ⟨_, state, _, _, _, _, hstate⟩
  | pause reason =>
    obtain ⟨state, hstate, -⟩ := dbg.notifyPaused_spec env none reason
    exact ⟨_, state, _, _, _, _, hstate⟩

theorem samePending_step (h : changesPending event.action = false) (dbg : DynamicDebugger js) :
    SamePending dbg (dbg.step event) := by
  by_cases hfile : ∃ file, event.action = .scriptParsed file
  · obtain ⟨env, action⟩ := event
    obtain ⟨file, rfl⟩ := hfile
    exact samePending_notifyScriptParsed env file dbg
  · obtain ⟨_, _, _, _, _, _, heq⟩ := step_frame h (fun file hf => hfile ⟨file, hf⟩) dbg
    rw [heq]
    exact ⟨rfl, rfl⟩

/-! ### The requests that change them -/

variable {b : BreakpointInfo} {breakpoints : List BreakpointInfo} {key : Bytes}

theorem pending_addPending (url : Bytes) :
    (dbg.addPending url breakpoints).pending key
      = dbg.pending key ++ if url = key then breakpoints else [] := by
  by_cases h : url = key
  · subst h
    simp [addPending, pending, update]
  · simp [addPending, pending, update, h, Ne.symm h]

theorem mem_pending_addPending {url : Bytes} :
    b ∈ (dbg.addPending url breakpoints).pending key ↔
      b ∈ dbg.pending key ∨ (url = key ∧ b ∈ breakpoints) := by
  rw [pending_addPending, List.mem_append]
  split <;> simp_all

theorem savePendingBreakpoints_eq (breakpointsMap : List (Bytes × List BreakpointInfo))
    (dbg : DynamicDebugger js) (key : Bytes) :
    (dbg.savePendingBreakpoints breakpointsMap).pending key = dbg.pending key ++
        (breakpointsMap.filter fun entry => entry.1 = key).flatMap Prod.snd ∧
      (dbg.savePendingBreakpoints breakpointsMap).breakOnStartEnable = dbg.breakOnStartEnable ∧
      (dbg.savePendingBreakpoints breakpointsMap).debugMode = dbg.debugMode := by
  induction breakpointsMap generalizing dbg with
  | nil => exact ⟨(List.append_nil _).symm, rfl, rfl⟩
  | cons entry breakpointsMap ih =>
    obtain ⟨hpending, hmodes⟩ := ih (dbg.addPending entry.1 entry.2)
    refine ⟨hpending.trans ?_, hmodes⟩
    rw [pending_addPending, List.filter_cons]
    split <;> simp_all

variable {env : Environment tables}

theorem mem_pending_insert {breakpoint : BreakpointInfo}
    (h : b ∈ (dbg.insertInLaunchAccelerateMode breakpoint).pending key) :
    b ∈ dbg.pending key ∨ SamePlace breakpoint b := by
  rw [insertInLaunchAccelerateMode] at h
  split at h
  · rcases mem_pending_addPending.mp h with h | ⟨-, h⟩
    · exact .inl h
    · obtain rfl := List.mem_singleton.mp h
      exact .inr ⟨rfl, rfl⟩
  · exact .inl h

/-- Breakpoints are pending in launch-accelerate mode only. -/
def PendingInMode (dbg : DynamicDebugger js) : Prop :=
  ∀ url, dbg.pending url ≠ [] → dbg.breakOnStartEnable = false

theorem SamePending.pendingInMode (h : SamePending dbg dbg') (hdbg : dbg.PendingInMode) :
    dbg'.PendingInMode := by
  intro url hurl
  rw [h.mode]
  exact hdbg url (h.pending url ▸ hurl)

theorem PendingInMode.insert (h : dbg.PendingInMode) (breakpoint : BreakpointInfo) :
    (dbg.insertInLaunchAccelerateMode breakpoint).PendingInMode := by
  rw [insertInLaunchAccelerateMode]
  split
  case isTrue hmode =>
    intro _ _
    exact (Bool.not_eq_true' _).mp hmode
  case isFalse => exact h

theorem pending_removeBreakpointsByUrl (url key : Bytes) (dbg : DynamicDebugger js) :
    (dbg.removeBreakpointsByUrl url).2.breakOnStartEnable = dbg.breakOnStartEnable ∧
    ∀ b ∈ (dbg.removeBreakpointsByUrl url).2.pending key, b ∈ dbg.pending key ∧
      ((dbg.removeBreakpointsByUrl url).1 = .ok → dbg.breakOnStartEnable = false → key ≠ url) := by
  have herase : ∀ b ∈ (update dbg.breakpointPendingMap url none key).getD [],
      b ∈ dbg.pending key ∧ key ≠ url := by
    intro b hb
    rw [update] at hb
    split at hb
    case isTrue => cases hb
    case isFalse hne => exact ⟨hb, hne⟩
  rcases removeBreakpointsByUrl_cases url dbg with ⟨message, h⟩ | ⟨-, h⟩ | ⟨message, h⟩ | ⟨-, h⟩
  · rw [h]
    exact ⟨rfl, fun b hb => ⟨hb, nofun⟩⟩
  · rw [h]
    exact ⟨rfl, fun b hb => ⟨(herase b hb).1, fun _ _ => (herase b hb).2⟩⟩
  · rw [h]
    exact ⟨rfl, fun b hb => ⟨hb, nofun⟩⟩
  · rw [h]
    refine ⟨rfl, fun b hb => ?_⟩
    dsimp only [pending] at hb
    split at hb
    case isTrue => exact ⟨(herase b hb).1, fun _ _ => (herase b hb).2⟩
    case isFalse hmode =>
      refine ⟨hb, fun _ hon => absurd ?_ hmode⟩
      rw [isLaunchAccelerateMode, hon, Bool.not_false]

/-! ### Runs -/

theorem PendingInMode.step (h : dbg.PendingInMode) (event : DynamicEvent tables) :
    (dbg.step event).PendingInMode := by
  by_cases hchanges : changesPending event.action = false
  · exact (samePending_step hchanges dbg).pendingInMode h
  · obtain ⟨env, action⟩ := event
    cases action with
    | enable options =>
      intro url hurl
      show (dbg.breakOnStartEnable && _) = false
      rw [h url hurl, Bool.false_and]
    | getPossibleAndSetBreakpointByUrl breakpoints =>
      show (dbg.getPossibleAndSetBreakpointByUrl env breakpoints).2.2.PendingInMode
      rcases getPossibleAndSetBreakpointByUrl_cases env breakpoints dbg with
        ⟨message, heq⟩ | ⟨breakpoints, -, -, heq⟩
      · rw [heq]
        exact h
      · rw [heq]
        exact processBreakpoints_invariant (fun _ _ h => h) (fun b _ _ h => h.insert b) h
    | saveAllPossibleBreakpoints breakpoints =>
      show (dbg.saveAllPossibleBreakpoints breakpoints).2.PendingInMode
      rcases saveAllPossibleBreakpoints_cases breakpoints dbg with
        ⟨message, heq⟩ | ⟨breakpoints, -, hmode, heq⟩
      · rw [heq]
        exact h
      · rw [heq]
        intro url _
        exact (savePendingBreakpoints_eq breakpoints dbg url).2.1.trans hmode
    | removeBreakpointsByUrl url =>
      intro key hkey
      obtain ⟨hmode, hpending⟩ := pending_removeBreakpointsByUrl url key dbg
      obtain ⟨b, hb⟩ := List.exists_mem_of_ne_nil _ hkey
      exact hmode.trans (h key (List.ne_nil_of_mem (hpending b hb).1))
    | _ => exact absurd rfl hchanges

/-- Whatever is pending after an event has been pending before and is not removed, or is
requested. -/
theorem mem_pending_step (hmode : dbg.PendingInMode) (hfits : dbg.RemovalFits event)
    (hb : b ∈ (dbg.step event).pending key) :
    dbg.Requests event b ∨ (b ∈ dbg.pending key ∧ ¬ dbg.Removes event b) := by
  by_cases hchanges : changesPending event.action = false
  · rw [(samePending_step hchanges dbg).pending] at hb
    refine .inr ⟨hb, fun hremoves => ?_⟩
    rw [hfits key b hb hremoves] at hchanges
    cases hchanges
  · obtain ⟨env, action⟩ := event
    cases action with
    | enable options => exact .inr ⟨hb, id⟩
    | getPossibleAndSetBreakpointByUrl breakpoints =>
      have hb' : b ∈ (dbg.getPossibleAndSetBreakpointByUrl env breakpoints).2.2.pending key := hb
      rcases getPossibleAndSetBreakpointByUrl_cases env breakpoints dbg with
        ⟨message, heq⟩ | ⟨breakpoints, rfl, -, heq⟩
      · rw [heq] at hb'
        exact .inr ⟨hb', id⟩
      · rw [heq] at hb'
        rcases processBreakpoints_invariant (I := fun dbg' => b ∈ dbg'.pending key →
            b ∈ dbg.pending key ∨ ∃ breakpoint ∈ breakpoints, SamePlace breakpoint b)
          (fun _ _ h => h) (fun breakpoint hmem _ ih hb => (mem_pending_insert hb).elim ih
            fun hsame => .inr ⟨breakpoint, hmem, hsame⟩) .inl hb' with hold | hnew
        · exact .inr ⟨hold, id⟩
        · exact .inl ⟨congrArg Prod.fst heq, hnew⟩
    | saveAllPossibleBreakpoints breakpoints =>
      have hb' : b ∈ (dbg.saveAllPossibleBreakpoints breakpoints).2.pending key := hb
      rcases saveAllPossibleBreakpoints_cases breakpoints dbg with
        ⟨message, heq⟩ | ⟨breakpoints, rfl, -, heq⟩
      · rw [heq] at hb'
        exact .inr ⟨hb', id⟩
      · rw [heq, (savePendingBreakpoints_eq ..).1, List.mem_append, List.mem_flatMap] at hb'
        rcases hb' with hold | ⟨entry, hentry, hnew⟩
        · exact .inr ⟨hold, id⟩
        · exact .inl ⟨congrArg Prod.fst heq, b,
            List.mem_flatMap.mpr ⟨entry, List.mem_of_mem_filter hentry, hnew⟩, rfl, rfl⟩
    | removeBreakpointsByUrl url =>
      obtain ⟨hold, hne⟩ := (pending_removeBreakpointsByUrl url key dbg).2 b hb
      refine .inr ⟨hold, fun hremoves => ?_⟩
      have haction := hfits key b hold hremoves
      exact hne hremoves.1 (hmode key (List.ne_nil_of_mem hold))
        (DynamicAction.removeBreakpointsByUrl.inj haction).symm
    | _ => exact absurd rfl hchanges

/-- **Removed breakpoints stay removed**: in every run in which pending breakpoints are
removed by their url alone, a breakpoint that the notification of a script sets has been
requested before, and neither removed nor disabled since. -/
theorem removed_breakpoints_stay_removed (s : js.State) (events : List (DynamicEvent tables))
    (h : Admits step RemovalFits (start s) events) (k : Nat) (env : Environment tables)
    (file : ParsedFile) (b : BreakpointInfo)
    (hb : b ∈ (stateAt step (start s) events k).setWhenParsing env file) :
    Since (EventAt step (start s) events fun dbg event => dbg.Requests event b)
      (EventAt step (start s) events fun dbg event => dbg.Removes event b) k := by
  have hpending : ∃ url, b ∈ (stateAt step (start s) events k).pending url := by
    rw [setWhenParsing] at hb
    split at hb
    · exact ⟨file.url, hb⟩
    · cases hb
  refine Admits.since (I := PendingInMode) (H := fun dbg b => ∃ url, b ∈ dbg.pending url)
    (A := Requests) (D := Removes) (fun dbg event hmode _ => hmode.step event) ?_
    (fun url hurl => absurd rfl hurl) ?_ h hpending
  · rintro dbg event b hmode hfits ⟨url, hb⟩
    rcases mem_pending_step hmode hfits hb with hrequests | ⟨hold, hremoves⟩
    · exact .inl hrequests
    · exact .inr ⟨⟨url, hold⟩, hremoves⟩
  · rintro b ⟨url, hb⟩
    cases hb

/-- A breakpoint is saved, removed by its url and saved again. -/
def savedTwice : List (DynamicEvent (lineTables 0)) :=
  [{ action := .enable [ascii "enableLaunchAccelerate"] },
    { action := .saveAllPossibleBreakpoints
        (some [(ascii "a.ets", [{ lineNumber := 3, url := ascii "a.ets" }])]) },
    { action := .removeBreakpointsByUrl (ascii "a.ets") },
    { action := .saveAllPossibleBreakpoints
        (some [(ascii "a.ets", [{ lineNumber := 3, url := ascii "a.ets" }])]) }]

theorem savedTwice_stay_removed :
    Since
      (EventAt (@step _ listDebugger) (start []) savedTwice fun dbg event =>
        dbg.Requests event { lineNumber := 3, url := ascii "a.ets" })
      (EventAt (@step _ listDebugger) (start []) savedTwice fun dbg event =>
        dbg.Removes event { lineNumber := 3, url := ascii "a.ets" }) 4 := by
  refine @removed_breakpoints_stay_removed _ listDebugger [] savedTwice ?_ 4 (lineEnvironment 0)
    { fileName := ascii "1.abc", url := ascii "a.ets" } _ (by decide +kernel)
  refine ⟨fun _ _ _ h => h.elim, fun _ _ _ h => h.elim, ?_, fun _ _ _ h => h.elim, trivial⟩
  intro url b hb _
  by_cases hurl : url = ascii "a.ets"
  · rw [hurl]
  · rcases mem_pending_addPending.mp hb with hb | ⟨hmem, -⟩
    · cases hb
    · exact absurd hmem.symm hurl

/-! ### Removals that are forgotten -/

theorem not_since_of_removed {s : DynamicDebugger js} {events : List (DynamicEvent tables)}
    {k : Nat} (he : events[k]? = some event) (hno : requested event.action = [])
    (h : Removes (stateAt step s events k) event b) :
    ¬ Since (EventAt step s events fun dbg event => dbg.Requests event b)
      (EventAt step s events fun dbg event => dbg.Removes event b) (k + 1) := by
  rw [since_succ]
  rintro (⟨event', he', -, b', hb', -⟩ | ⟨-, hnot⟩)
  · obtain rfl : event = event' := Option.some.inj (he.symm.trans he')
    rw [hno] at hb'
    cases hb'
  · exact hnot ⟨event, he, h⟩

/-- A breakpoint on line 3 of `a.ets` is saved under an url, set for a first file, and
removed. -/
def removalRun (url : Bytes) (removal : DynamicAction) : List (DynamicEvent (lineTables 0)) :=
  [{ action := .enable [ascii "enableLaunchAccelerate"] },
    { action := .saveAllPossibleBreakpoints
        (some [(url, [{ lineNumber := 3, url := ascii "a.ets" }])]) },
    { env := lineEnvironment 0
      action := .scriptParsed { fileName := ascii "1.abc", url := ascii "a.ets" } },
    { env := lineEnvironment 0, action := removal }]

/-- The next file with the url sets the breakpoint, which has been removed since it was
requested. -/
def SetAgain (url : Bytes) (removal : DynamicAction) : Prop :=
  let b : BreakpointInfo := { lineNumber := 3, url := ascii "a.ets" }
  let file : ParsedFile := { fileName := ascii "2.abc", url, scriptId := 1 }
  let events := removalRun url removal
  let dbg : DynamicDebugger listDebugger := stateAt step (start []) events 4
  b ∈ dbg.setWhenParsing (lineEnvironment 0) file ∧
  listDebugger.breakpoints dbg.jsDebugger ≠
    listDebugger.breakpoints
      (dbg.step { env := lineEnvironment 0, action := .scriptParsed file }).jsDebugger ∧
  ¬ Since
    (EventAt (@step _ listDebugger) (start []) events fun dbg event => dbg.Requests event b)
    (EventAt (@step _ listDebugger) (start []) events fun dbg event => dbg.Removes event b) 4

/-- The next file sets the breakpoint again after `disable`, after `removeBreakpoint` and,
if it has been saved under another url, after `removeBreakpointsByUrl`. -/
theorem removed_breakpoint_set_again : SetAgain (ascii "a.ets") .disable ∧
    SetAgain (ascii "a.ets") (.removeBreakpoint (ascii "id:3:0:a.ets")) ∧
    SetAgain (ascii "b.ets") (.removeBreakpointsByUrl (ascii "a.ets")) := by
  refine ⟨?_, ?_, ?_⟩
  · exact ⟨by decide +kernel, by decide +kernel, not_since_of_removed rfl rfl trivial⟩
  · exact ⟨by decide +kernel, by decide +kernel,
      not_since_of_removed rfl rfl ⟨by decide +kernel, 0, by decide +kernel⟩⟩
  · exact ⟨by decide +kernel, by decide +kernel,
      not_since_of_removed rfl rfl ⟨by decide +kernel, rfl⟩⟩

/-! ### Equal pending breakpoints -/

/-- What a request inserts into the pending breakpoints of an url. -/
def saved (url : Bytes) : DynamicAction → List BreakpointInfo
  | .getPossibleAndSetBreakpointByUrl (some breakpoints) =>
    (breakpoints.filter fun b => b.url = url).map fun b =>
      { b with condition := some (b.condition.getD []) }
  | .saveAllPossibleBreakpoints (some breakpointsMap) =>
    (breakpointsMap.filter fun entry => entry.1 = url).flatMap Prod.snd
  | _ => []

def savesPending : DynamicAction → Bool
  | .getPossibleAndSetBreakpointByUrl _ | .saveAllPossibleBreakpoints _ => true
  | _ => false

/-- The debugger is enabled, and in launch-accelerate mode. -/
structure Saving (dbg : DynamicDebugger js) : Prop where
  debugMode : dbg.debugMode = true
  mode : dbg.breakOnStartEnable = false

theorem pending_processBreakpoints (breakpoints : List BreakpointInfo) {dbg : DynamicDebugger js}
    (h : dbg.Saving) :
    let dbg' := (processBreakpoints env insertInLaunchAccelerateMode breakpoints dbg).2
    dbg'.Saving ∧ ∀ url, dbg'.pending url = dbg.pending url ++
      saved url (.getPossibleAndSetBreakpointByUrl (some breakpoints)) := by
  induction breakpoints generalizing dbg with
  | nil => exact ⟨h, fun _ => (List.append_nil _).symm⟩
  | cons b breakpoints ih =>
    let s := (dbg.processSingleBreakpoint env b).2
    have hinsert : insertInLaunchAccelerateMode b { dbg with jsDebugger := s }
        = insertIntoPendingBreakpoints b { dbg with jsDebugger := s } :=
      if_pos (by simp [isLaunchAccelerateMode, h.mode])
    obtain ⟨hsaving, hpending⟩ := @ih (insertInLaunchAccelerateMode b { dbg with jsDebugger := s })
      (by rw [hinsert]; exact ⟨h.debugMode, h.mode⟩)
    refine ⟨hsaving, fun url => (hpending url).trans ?_⟩
    rw [hinsert, insertIntoPendingBreakpoints, pending_addPending, saved, saved, List.filter_cons]
    split <;> simp_all [pending]

theorem pending_step (h : dbg.Saving) (hsaves : savesPending event.action = true) :
    (dbg.step event).Saving ∧
      ∀ url, (dbg.step event).pending url = dbg.pending url ++ saved url event.action := by
  obtain ⟨env, action⟩ := event
  cases action with
  | getPossibleAndSetBreakpointByUrl breakpoints =>
    simp only [step, handle, getPossibleAndSetBreakpointByUrl, h.debugMode]
    cases breakpoints with
    | none => exact ⟨h, fun _ => (List.append_nil _).symm⟩
    | some breakpoints => exact pending_processBreakpoints breakpoints h
  | saveAllPossibleBreakpoints breakpointsMap =>
    simp only [step, handle, saveAllPossibleBreakpoints, isLaunchAccelerateMode, h.debugMode,
      h.mode]
    cases breakpointsMap with
    | none => exact ⟨h, fun _ => (List.append_nil _).symm⟩
    | some breakpointsMap =>
      have hsave := savePendingBreakpoints_eq breakpointsMap dbg
      exact ⟨⟨(hsave []).2.2.trans h.debugMode, (hsave []).2.1.trans h.mode⟩,
        fun url => (hsave url).1⟩
  | _ => cases hsaves

/-- The pending breakpoints of an url are a set exactly if no breakpoint is saved that is
pending or saved before, and only what saves nothing leaves them as they are. -/
theorem pending_sets_iff {events : List (DynamicEvent tables)} (h : dbg.Saving)
    (hsaves : ∀ event ∈ events, savesPending event.action = true) :
    (∀ url, ((events.foldl step dbg).pending url).Nodup ↔
      (dbg.pending url ++ events.flatMap fun event => saved url event.action).Nodup) ∧
    ∀ event : DynamicEvent tables, savesPending event.action = true → ∀ url,
      (((events.foldl step dbg).step event).pending url = (events.foldl step dbg).pending url ↔
        saved url event.action = []) := by
  have hrun : (events.foldl step dbg).Saving ∧ ∀ url, (events.foldl step dbg).pending url
      = dbg.pending url ++ events.flatMap fun event => saved url event.action := by
    induction events generalizing dbg with
    | nil => exact ⟨h, fun _ => (List.append_nil _).symm⟩
    | cons event events ih =>
      obtain ⟨hsaving, hpending⟩ := pending_step h (hsaves event List.mem_cons_self)
      obtain ⟨hsaving', hpending'⟩ :=
        ih hsaving fun event' h' => hsaves event' (List.mem_cons_of_mem _ h')
      refine ⟨hsaving', fun url => ?_⟩
      rw [List.foldl_cons, hpending', hpending, List.flatMap_cons, List.append_assoc]
  refine ⟨fun url => by rw [hrun.2], fun event hevent url => ?_⟩
  rw [(pending_step hrun.1 hevent).2, List.append_right_eq_self]

/-- A request that saves a breakpoint of `a.ets`. -/
def saveLine (lineNumber : Int32) : DynamicEvent (lineTables 0) where
  action := .saveAllPossibleBreakpoints
    (some [(ascii "a.ets", [{ lineNumber, url := ascii "a.ets" }])])

def savingStart : DynamicDebugger listDebugger :=
  { start [] with debugMode := true, breakOnStartEnable := false }

theorem pending_sets_two :
    (([saveLine 3, saveLine 4].foldl step savingStart).pending (ascii "a.ets")).Nodup :=
  ((pending_sets_iff ⟨rfl, rfl⟩ (by decide)).1 _).mpr (by decide +kernel)

theorem pending_twice :
    ¬ (([saveLine 3, saveLine 3].foldl step savingStart).pending (ascii "a.ets")).Nodup := by
  decide +kernel

end DynamicDebugger

end ArkToolchain
