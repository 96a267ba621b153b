/-
The ids of breakpoints in pause events.

A client knows a breakpoint by the id that it got when the breakpoint was set, with column 0.
The id in a pause event has the column of the bytecode.  Other ways to an id that the client
does not have: a `debugger` statement reports the id of no breakpoint, `smartStepInto` keeps its
id, a request that fails after the first of several files leaves a breakpoint behind,
breakpoints are set for a script while the client is not told, and `removeBreakpoint` looks for
column 0 and answers that it has removed a breakpoint that it did not find.  Where none of this
happens the ids are those of the client (`hit_ids_returned`).
-/
import ArkToolchain.DynamicBreakpoints
import ArkToolchain.Traces

namespace ArkToolchain

open Pt

/-- What is assumed of the runtime: it takes breakpoints at certain places, one that it refuses
changes nothing, and one that is removed is gone. -/
structure JSDebugger.Precise (js : JSDebugger) (accepts : JSPtLocation → Bool) : Prop where
  set : ∀ place condition smart s, (js.setBreakpoint place condition smart s).1 = accepts place
  refused : ∀ place condition smart s, (js.setBreakpoint place condition smart s).1 = false →
    js.breakpoints (js.setBreakpoint place condition smart s).2 = js.breakpoints s
  removed : ∀ place s, place ∉ js.breakpoints (js.removeBreakpoint place s).2

namespace DynamicDebugger

variable {tables : DebugTables} {js : JSDebugger}

/-! ### Ids -/

/-- The id that is returned for a breakpoint at the place. -/
def idOf (tables : DebugTables) (place : JSPtLocation) : Option Bytes :=
  (tables.line place).map fun line => BreakpointDetails.toString { line, url := place.sourceFile }

variable {place : JSPtLocation}

theorem idOf_of_onLine {breakpoint : BreakpointInfo} (h : OnLine tables breakpoint place) :
    idOf tables place = some (BreakpointDetails.toString
      { line := breakpoint.lineNumber, url := breakpoint.url }) := by
  rw [idOf, h.1, h.2]
  rfl

variable (dbg : DynamicDebugger js) (event : DynamicEvent tables)

/-- The event removes the id, or all ids, and says so. -/
def RemovesId (id : Bytes) : Prop :=
  match event.action with
  | .disable => True
  | .removeBreakpoint id' =>
    (dbg.outcome event).response = .ok ∧
      ∃ details, BreakpointDetails.parseBreakpointId id' {} = (true, details) ∧
        id = details.toString
  | .removeBreakpointsByUrl url =>
    (dbg.outcome event).response = .ok ∧
      ∃ details : BreakpointDetails, id = details.toString ∧ details.url = url
  | _ => False

/-! ### Steps that keep the client up to date -/

/-- The breakpoint can be set in the file: a place is found, and the runtime takes it. -/
def canSet (accepts : JSPtLocation → Bool) (breakpoint : BreakpointInfo)
    (extractor : DebugInfoExtractor tables) : Bool :=
  (extractor.matchWithLocation breakpoint.lineNumber (-1) breakpoint.url
    (dbg.recordNames breakpoint.url)).any accepts

/-- The breakpoint can be set in all of the files that are tried, or in none. -/
def SetIn (accepts : JSPtLocation → Bool) (env : Environment tables) (breakpoint : BreakpointInfo)
    (answer : Bool) : Prop :=
  ∀ extractor, some extractor ∈ dbg.getExtractors env breakpoint.url →
    dbg.canSet accepts breakpoint extractor = answer

/-- `RemoveBreakpoint` finds the place. -/
def Finds (env : Environment tables) (details : BreakpointDetails) (place : JSPtLocation) : Prop :=
  ∃ extractor, some extractor ∈ dbg.getExtractors env details.url ∧
    extractor.matchWithLocation details.line details.column details.url
      (dbg.recordNames details.url) = some place

/-- What is set gets its id returned, what is removed is found, and what is hit is in
column 0. -/
def IdFits (accepts : JSPtLocation → Bool) (dbg : DynamicDebugger js)
    (event : DynamicEvent tables) : Prop :=
  match event.action with
  | .setBreakpointByUrl params => ∃ answer, dbg.SetIn accepts event.env params answer
  | .smartStepInto params =>
    dbg.debuggerState = .paused → dbg.SetIn accepts event.env params false
  | .getPossibleAndSetBreakpointByUrl breakpoints =>
    ∀ bs ∈ breakpoints, ∀ breakpoint ∈ bs, ∃ answer, dbg.SetIn accepts event.env breakpoint answer
  | .scriptParsed file =>
    -- the client is told in debug mode only
    ∀ breakpoint ∈ dbg.setWhenParsing event.env file, ∃ answer,
      (dbg.registerScript file).SetIn accepts event.env breakpoint answer ∧
        (answer = true → dbg.debugMode = true)
  | .removeBreakpoint id =>
    ∀ details, BreakpointDetails.parseBreakpointId id {} = (true, details) →
      ∀ place, At dbg.jsDebugger place → idOf tables place = some details.toString →
        dbg.Finds event.env details place
  | .removeBreakpointsByUrl url =>
    dbg.matchScripts url = none → ∀ place, At dbg.jsDebugger place → place.sourceFile ≠ url
  | .breakpoint place => ∀ column ∈ tables.column place, column = 0
  | .pause reason => reason = .debuggerStmt → dbg.skipAllPauses = true ∨ dbg.debugMode = false
  | _ => True

/-! ### What the runtime does -/

variable {dbg : DynamicDebugger js} {event : DynamicEvent tables} {env : Environment tables}
  {accepts : JSPtLocation → Bool} {breakpoint : BreakpointInfo} {answer : Bool} {url id : Bytes}

theorem At.congr {s s' : js.State} (h : At s place)
    (hsame : js.breakpoints s = js.breakpoints s') : At s' place := by
  rwa [At, ← hsame]

theorem SetIn.congr {dbg' : DynamicDebugger js} (h : dbg.SetIn accepts env breakpoint answer)
    (hscripts : dbg'.scripts = dbg.scripts) (hrecords : dbg'.recordNames = dbg.recordNames) :
    dbg'.SetIn accepts env breakpoint answer := by
  simp only [SetIn, canSet, getExtractors, matchAllScripts, hscripts, hrecords] at h ⊢
  exact h

/-- A loop in which every round has the same answer, and changes nothing if it fails. -/
theorem setAll_of_answer {visit : DebugInfoExtractor tables → js.State → Bool × js.State}
    {ok : Bool} {extractors : List (Option (DebugInfoExtractor tables))} {s : js.State}
    (hvisit : ∀ extractor, some extractor ∈ extractors → ∀ s, (visit extractor s).1 = ok ∧
      (ok = false → js.breakpoints (visit extractor s).2 = js.breakpoints s)) :
    (ok = true → (setAll visit extractors s).1 = true) ∧
      (ok = false → js.breakpoints (setAll visit extractors s).2 = js.breakpoints s) := by
  fun_induction setAll visit extractors s with
  | case1 => exact ⟨fun _ => rfl, fun _ => rfl⟩
  | case2 s extractors ih => exact ih fun extractor h => hvisit extractor (.tail _ h)
  | case3 extractor extractors s s' hv ih =>
    obtain ⟨rfl, -⟩ := hvisit extractor (.head _) s
    rw [hv] at ih ⊢
    exact ⟨(ih fun extractor h => by simpa [hv] using hvisit extractor (.tail _ h)).1, by simp⟩
  | case4 extractor extractors s s' hv =>
    obtain ⟨rfl, hsame⟩ := hvisit extractor (.head _) s
    rw [hv] at hsame ⊢
    exact ⟨by simp, hsame⟩

section Runtime

variable (hjs : js.Precise accepts)
include hjs

theorem SetIn.setOne (hset : dbg.SetIn accepts env breakpoint answer) (smart : Bool)
    {extractor : DebugInfoExtractor tables}
    (h : some extractor ∈ dbg.getExtractors env breakpoint.url) (s : js.State) :
    let set := setAtLocation env breakpoint smart (dbg.recordNames breakpoint.url) extractor s
    let ok := answer && !invalidCondition env breakpoint.condition
    set.1 = ok ∧ (ok = false → js.breakpoints set.2 = js.breakpoints s) := by
  have hcan := hset extractor h
  rw [canSet] at hcan
  rw [setAtLocation, ← hcan]
  cases extractor.matchWithLocation breakpoint.lineNumber (-1) breakpoint.url
    (dbg.recordNames breakpoint.url) with
  | none => exact ⟨rfl, fun _ => rfl⟩
  | some place =>
    cases invalidCondition env breakpoint.condition with
    | true => simp
    | false => simpa [hjs.set] using hjs.refused place breakpoint.condition smart s

/-- The breakpoint is set in all files, or nothing is changed. -/
theorem SetIn.setAll (hset : dbg.SetIn accepts env breakpoint answer) (smart : Bool) :
    let set := setAll (setAtLocation env breakpoint smart (dbg.recordNames breakpoint.url))
      (dbg.getExtractors env breakpoint.url) dbg.jsDebugger
    (answer = true ∧ set.1 = true) ∨ js.breakpoints set.2 = js.breakpoints dbg.jsDebugger := by
  have hall := setAll_of_answer (s := dbg.jsDebugger) fun _ h => hset.setOne hjs smart h
  cases hok : answer && !invalidCondition env breakpoint.condition with
  | true => exact .inl ⟨(Bool.and_eq_true_iff.mp hok).1, hall.1 hok⟩
  | false => exact .inr (hall.2 hok)

theorem SetIn.setBreakpointByUrl (hset : dbg.SetIn accepts env breakpoint answer) (smart : Bool) :
    (answer = true ∧ (dbg.setBreakpointByUrl env breakpoint smart).1 = .ok) ∨
      js.breakpoints (dbg.setBreakpointByUrl env breakpoint smart).2.2.jsDebugger
        = js.breakpoints dbg.jsDebugger := by
  have hall := hset.setAll hjs smart
  fun_cases DynamicDebugger.setBreakpointByUrl env breakpoint smart dbg
  case case3 heq | case4 heq =>
    rw [heq] at hall
    simpa using hall
  all_goals exact .inr rfl

theorem SetIn.processSingleBreakpoint (hset : dbg.SetIn accepts env breakpoint answer) :
    (answer = true ∧ (dbg.processSingleBreakpoint env breakpoint).1.isSome) ∨
      js.breakpoints (dbg.processSingleBreakpoint env breakpoint).2
        = js.breakpoints dbg.jsDebugger := by
  have hall := hset.setAll hjs false
  rw [← processAtLocation_eq] at hall
  fun_cases DynamicDebugger.processSingleBreakpoint env breakpoint dbg
  case case2 heq | case3 heq =>
    rw [heq] at hall
    simpa using hall
  all_goals exact .inr rfl

variable {p : Prop} {next : BreakpointInfo → DynamicDebugger js → DynamicDebugger js}

/-- New places are set for breakpoints whose ids the loop gives out. -/
theorem at_processBreakpoints (hnext : ∀ breakpoint dbg,
      (next breakpoint dbg).jsDebugger = dbg.jsDebugger ∧
        (next breakpoint dbg).scripts = dbg.scripts ∧
        (next breakpoint dbg).recordNames = dbg.recordNames)
    (breakpoints : List BreakpointInfo) (dbg : DynamicDebugger js)
    (hset : ∀ breakpoint ∈ breakpoints, ∃ answer, dbg.SetIn accepts env breakpoint answer ∧
      (answer = true → p))
    (h : At (processBreakpoints env next breakpoints dbg).2.jsDebugger place) :
    At dbg.jsDebugger place ∨ (p ∧ ∀ id, idOf tables place = some id →
      id ∈ (processBreakpoints env next breakpoints dbg).1.map BreakpointReturnInfo.id) := by
  induction breakpoints generalizing dbg with
  | nil => exact .inl h
  | cons breakpoint breakpoints ih =>
    obtain ⟨honline, hids⟩ := processSingleBreakpoint_spec env breakpoint dbg
    obtain ⟨hjsDebugger, hscripts, hrecords⟩ := hnext breakpoint
      { dbg with jsDebugger := (dbg.processSingleBreakpoint env breakpoint).2 }
    rw [processBreakpoints] at h ⊢
    rw [List.map_cons]
    rcases ih _ (fun b hb => (hset b (.tail _ hb)).imp fun _ hb =>
      ⟨hb.1.congr hscripts hrecords, hb.2⟩) h with hold | ⟨hp, hid⟩
    · rw [hjsDebugger] at hold
      obtain ⟨answer, hb, hp⟩ := hset breakpoint (.head _)
      rcases hb.processSingleBreakpoint hjs with ⟨hanswer, hsome⟩ | hsame
      · refine (honline place hold).imp_right fun hline => ⟨hp hanswer, fun id hid => ?_⟩
        obtain ⟨info, hinfo⟩ := Option.isSome_iff_exists.mp hsome
        rw [idOf_of_onLine hline, ← hids info hinfo] at hid
        rw [hinfo, Option.getD_some, ← Option.some.inj hid]
        exact .head _
      · exact .inl (hold.congr hsame)
    · exact .inr ⟨hp, fun id h => .tail _ (hid id h)⟩

variable {details : BreakpointDetails}

theorem not_at_removeAll {extractors : List (Option (DebugInfoExtractor tables))}
    {recordName : List Bytes} {s : js.State} {extractor : DebugInfoExtractor tables}
    (hmem : some extractor ∈ extractors)
    (hmatch : extractor.matchWithLocation details.line details.column details.url recordName
      = some place) : ¬ At (removeAll details recordName extractors s) place := by
  fun_induction removeAll details recordName extractors s with
  | case1 => cases hmem
  | case2 s extractors ih => exact ih (by simpa using hmem)
  | case3 other extractors s hnone ih =>
    rcases List.mem_cons.mp hmem with heq | hmem
    · rw [Option.some.inj heq, hnone] at hmatch
      cases hmatch
    · exact ih hmem
  | case4 other extractors s found hfound ih =>
    rcases List.mem_cons.mp hmem with heq | hmem
    · rw [Option.some.inj heq, hfound] at hmatch
      obtain rfl := Option.some.inj hmatch
      exact fun h => hjs.removed found s (at_removeAll h)
    · exact ih hmem

/-- A place that is found is removed. -/
theorem Finds.removeBreakpoint (h : dbg.Finds env details place)
    (hparse : BreakpointDetails.parseBreakpointId id {} = (true, details))
    (hok : (dbg.removeBreakpoint env id).1 = .ok) :
    ¬ At (dbg.removeBreakpoint env id).2.jsDebugger place := by
  obtain ⟨extractor, hmem, hmatch⟩ := h
  revert hok
  fun_cases DynamicDebugger.removeBreakpoint env id dbg
  case case3 details' hdetails _ _ =>
    obtain rfl : details' = details := (Prod.mk.inj (hdetails.symm.trans hparse)).2
    exact fun _ => not_at_removeAll hjs hmem hmatch
  all_goals simp

end Runtime

/-! ### One event -/

/-- What an event that fits does to the breakpoints of the runtime: those that stay are not
removed for the client, and those that are new are returned to it. -/
def TellsClient (dbg : DynamicDebugger js) (event : DynamicEvent tables) : Prop :=
  ∀ place, At (dbg.step event).jsDebugger place →
    (At dbg.jsDebugger place ∧ ∀ id, idOf tables place = some id → ¬ dbg.RemovesId event id) ∨
    ∀ id, idOf tables place = some id → id ∈ (dbg.outcome event).ids

theorem TellsClient.of_same
    (hsame : js.breakpoints (dbg.step event).jsDebugger = js.breakpoints dbg.jsDebugger)
    (hid : ∀ id, ¬ dbg.RemovesId event id) : dbg.TellsClient event :=
  fun _ h => .inl ⟨h.congr hsame, fun id _ => hid id⟩

theorem TellsClient.of_state {state : DebuggerState}
    (hstep : dbg.step event = { dbg with debuggerState := state })
    (hid : ∀ id, ¬ dbg.RemovesId event id) : dbg.TellsClient event :=
  .of_same (by rw [hstep]) hid

section Events

variable (hjs : js.Precise accepts)
include hjs

theorem tellsClient_setBreakpointByUrl
    (hfits : dbg.IdFits accepts { env, action := .setBreakpointByUrl breakpoint }) :
    dbg.TellsClient { env, action := .setBreakpointByUrl breakpoint } := by
  obtain ⟨answer, hset⟩ := hfits
  rcases hset.setBreakpointByUrl hjs false with ⟨-, hok⟩ | hsame
  · obtain ⟨s, hs, honline, hid⟩ := dbg.setBreakpointByUrl_spec env breakpoint false
    have hids : (dbg.outcome { env, action := .setBreakpointByUrl breakpoint }).ids =
        [BreakpointDetails.toString { line := breakpoint.lineNumber, url := breakpoint.url }] := by
      show (if (dbg.setBreakpointByUrl env breakpoint false).1 = .ok then
        [(dbg.setBreakpointByUrl env breakpoint false).2.1.1] else []) = _
      rw [if_pos hok, hid hok]
    intro place h
    replace h : At s place := (congrArg jsDebugger hs ▸ h :)
    refine (honline place h).imp (⟨·, fun _ _ => id⟩) fun hline id' hid' => ?_
    rw [idOf_of_onLine hline] at hid'
    rw [hids, ← Option.some.inj hid']
    exact List.mem_singleton_self _
  · exact .of_same hsame fun _ => id

theorem tellsClient_getPossible {breakpoints : Option (List BreakpointInfo)}
    (hfits : dbg.IdFits accepts { env, action := .getPossibleAndSetBreakpointByUrl breakpoints }) :
    dbg.TellsClient { env, action := .getPossibleAndSetBreakpointByUrl breakpoints } := by
  have hstep : dbg.step { env, action := .getPossibleAndSetBreakpointByUrl breakpoints }
      = (dbg.getPossibleAndSetBreakpointByUrl env breakpoints).2.2 := rfl
  have hids : (dbg.outcome { env, action := .getPossibleAndSetBreakpointByUrl breakpoints }).ids
      = (dbg.getPossibleAndSetBreakpointByUrl env breakpoints).2.1.map
        BreakpointReturnInfo.id := rfl
  rcases dbg.getPossibleAndSetBreakpointByUrl_cases env breakpoints with
    ⟨message, heq⟩ | ⟨bs, rfl, -, heq⟩
  · rw [heq] at hstep
    exact .of_state hstep fun _ => id
  · rw [heq] at hstep hids
    intro place h
    rw [hstep] at h
    rw [hids]
    refine (at_processBreakpoints hjs (p := True) (fun b dbg => ?_) bs dbg
      (fun b hb => (hfits bs rfl b hb).imp fun _ h => ⟨h, fun _ => trivial⟩) h).imp
        (⟨·, fun _ _ => id⟩) (·.2)
    fun_cases insertInLaunchAccelerateMode b dbg <;> exact ⟨rfl, rfl, rfl⟩

theorem tellsClient_scriptParsed {file : ParsedFile}
    (hfits : dbg.IdFits accepts { env, action := .scriptParsed file }) :
    dbg.TellsClient { env, action := .scriptParsed file } := by
  have hstep : dbg.step { env, action := .scriptParsed file }
      = (dbg.notifyScriptParsed env file).2 := rfl
  have hids : (dbg.outcome { env, action := .scriptParsed file }).ids = if dbg.debugMode then
      (dbg.notifyScriptParsed env file).1.map BreakpointReturnInfo.id else [] := rfl
  rcases dbg.notifyScriptParsed_cases env file with heq | heq | ⟨locations, dbg', hloop, -, heq⟩
  · exact .of_same (by rw [hstep, heq]) fun _ => id
  · exact .of_same (by rw [hstep, heq]; rfl) fun _ => id
  · rw [heq] at hstep hids
    intro place h
    rw [hstep] at h
    have hplaces : At _ place → _ :=
      at_processBreakpoints hjs (fun _ _ => ⟨rfl, rfl, rfl⟩) _ _ hfits
    erw [hloop] at hplaces
    refine (hplaces h).imp (⟨·, fun _ _ => id⟩) fun hnew => ?_
    rw [hids, if_pos hnew.1]
    exact hnew.2

theorem tellsClient_removeBreakpoint
    (hfits : dbg.IdFits accepts { env, action := .removeBreakpoint id }) :
    dbg.TellsClient { env, action := .removeBreakpoint id } := by
  obtain ⟨s, hs, hplaces⟩ := dbg.removeBreakpoint_spec env id
  intro place h
  have hold : At dbg.jsDebugger place := hplaces place (congrArg jsDebugger hs ▸ h :)
  refine .inl ⟨hold, ?_⟩
  rintro id' hid' ⟨hok, details, hparse, rfl⟩
  exact (hfits details hparse place hold hid').removeBreakpoint hjs hparse hok h

end Events

theorem tellsClient_removeBreakpointsByUrl
    (hfits : dbg.IdFits accepts { env, action := .removeBreakpointsByUrl url }) :
    dbg.TellsClient { env, action := .removeBreakpointsByUrl url } := by
  have hstep : dbg.step { env, action := .removeBreakpointsByUrl url }
      = (dbg.removeBreakpointsByUrl url).2 := rfl
  have hresponse : (dbg.outcome { env, action := .removeBreakpointsByUrl url }).response
      = (dbg.removeBreakpointsByUrl url).1 := rfl
  -- an id of the url is the id of a place in its file
  have hkeep : ∀ place, place.sourceFile ≠ url → ∀ id, idOf tables place = some id →
      ¬ dbg.RemovesId { env, action := .removeBreakpointsByUrl url } id := by
    rintro place hne id hid ⟨-, details, rfl, hurl⟩
    obtain ⟨line, -, hline⟩ := Option.map_eq_some_iff.mp hid
    rw [← hurl, ← BreakpointDetails.toString_injective hline] at hne
    exact hne rfl
  have hfail : ∀ message, (dbg.removeBreakpointsByUrl url).1 = .fail message →
      ∀ id, ¬ dbg.RemovesId { env, action := .removeBreakpointsByUrl url } id := by
    rintro message hmessage id ⟨hok, -⟩
    rw [hresponse, hmessage] at hok
    cases hok
  intro place h
  refine .inl ?_
  rcases dbg.removeBreakpointsByUrl_cases url with
    ⟨message, heq⟩ | ⟨hnone, heq⟩ | ⟨message, heq⟩ | ⟨htrue, heq⟩
  all_goals rw [hstep, heq] at h
  · exact ⟨h, fun id _ => hfail message (by rw [heq]) id⟩
  · exact ⟨h, hkeep place (hfits hnone place h)⟩
  · exact ⟨(js.mem_removeBreakpointsByUrl h).1, fun id _ => hfail message (by rw [heq]) id⟩
  · have hmem := js.mem_removeBreakpointsByUrl h
    exact ⟨hmem.1, hkeep place (hmem.2 htrue)⟩

theorem savePendingBreakpoints_frame (breakpointsMap : List (Bytes × List BreakpointInfo))
    (dbg : DynamicDebugger js) : ∃ breakpointPendingMap,
      dbg.savePendingBreakpoints breakpointsMap = { dbg with breakpointPendingMap } := by
  induction breakpointsMap generalizing dbg with
  | nil => exact ⟨_, rfl⟩
  | cons entry breakpointsMap ih => exact ih (dbg.addPending entry.1 entry.2)

/-- **One event** that fits keeps the client up to date. -/
theorem tellsClient_step (hjs : js.Precise accepts) (hfits : dbg.IdFits accepts event) :
    dbg.TellsClient event := by
  obtain ⟨env, action⟩ := event
  cases action with
  | enable | setBreakpointsActive | setSkipAllPauses | setPauseOnExceptions =>
    exact .of_same rfl fun _ => id
  | disable =>
    intro place h
    have hnone := js.removeAllBreakpoints_eq dbg.jsDebugger
    change place ∈ js.breakpoints (js.removeAllBreakpoints dbg.jsDebugger) at h
    rw [hnone] at h
    cases h
  | setBreakpointByUrl => exact tellsClient_setBreakpointByUrl hjs hfits
  | smartStepInto params =>
    refine .of_same ?_ fun _ => id
    show js.breakpoints (dbg.smartStepInto env params).2.jsDebugger = _
    fun_cases smartStepInto env params dbg
    case case1 => rfl
    case case2 hpaused response _ dbg' heq =>
      have hsame := (hfits (by simpa using hpaused)).setBreakpointByUrl hjs true
      rw [heq] at hsame
      exact hsame.resolve_left nofun
  | getPossibleAndSetBreakpointByUrl => exact tellsClient_getPossible hjs hfits
  | saveAllPossibleBreakpoints breakpoints =>
    rcases dbg.saveAllPossibleBreakpoints_cases breakpoints with
      ⟨message, heq⟩ | ⟨bs, -, -, heq⟩
    · exact .of_state (congrArg Prod.snd heq) fun _ => id
    · obtain ⟨map, hsave⟩ := savePendingBreakpoints_frame bs dbg
      have hstep : dbg.step { env, action := .saveAllPossibleBreakpoints breakpoints } =
          { dbg with breakpointPendingMap := map } :=
        (congrArg Prod.snd heq).trans hsave
      exact .of_same (by rw [hstep]) fun _ => id
  | removeBreakpoint => exact tellsClient_removeBreakpoint hjs hfits
  | removeBreakpointsByUrl => exact tellsClient_removeBreakpointsByUrl hfits
  | resume =>
    obtain ⟨state, hstate⟩ := dbg.resume_spec
    exact .of_state hstate fun _ => id
  | scriptParsed => exact tellsClient_scriptParsed hjs hfits
  | breakpoint place =>
    obtain ⟨state, hstate, -⟩ := dbg.breakpoint_spec env place
    exact .of_state hstate fun _ => id
  | pause reason =>
    obtain ⟨state, hstate, -⟩ := dbg.notifyPaused_spec env none reason
    exact .of_state hstate fun _ => id

/-! ### Runs -/

/-- The id is that of a breakpoint in the runtime. -/
def Holds (tables : DebugTables) (dbg : DynamicDebugger js) (id : Bytes) : Prop :=
  ∃ place, At dbg.jsDebugger place ∧ idOf tables place = some id

theorem hitBreakpoint_eq_some (h : dbg.hitBreakpoint env place = some id) :
    ∃ line column, tables.line place = some line ∧ tables.column place = some column ∧
      id = BreakpointDetails.toString { line, column, url := place.sourceFile } := by
  obtain ⟨script, hscript, h⟩ := Option.bind_eq_some_iff.mp h
  obtain ⟨-, -, h⟩ := Option.bind_eq_some_iff.mp h
  obtain ⟨line, hline, h⟩ := Option.bind_eq_some_iff.mp h
  obtain ⟨column, hcolumn, h⟩ := Option.bind_eq_some_iff.mp h
  have hurl := List.find?_some (p := fun script : PtScript =>
    decide (script.url = place.sourceFile)) hscript
  rw [of_decide_eq_true hurl] at h
  exact ⟨line, column, hline, hcolumn, (Option.some.inj h).symm⟩

/-- No ids are reported while pauses are skipped, or outside debug mode. -/
theorem notifyPaused_silent {reason : DynamicPauseReason}
    (h : dbg.skipAllPauses = true ∨ dbg.debugMode = false) :
    (dbg.notifyPaused env none reason).1 = [] := by
  rw [notifyPaused, generatePausedInfo]
  rcases h with h | h
  · rw [if_pos h]
  · simp only [h, Bool.false_eq_true, if_false]
    split_ifs
    all_goals rfl

theorem holds_of_mem_hitBreakpoints (hfits : dbg.IdFits accepts event)
    (hid : id ∈ (dbg.outcome event).hitBreakpoints) : Holds tables dbg id := by
  obtain ⟨env, action⟩ := event
  cases action with
  | breakpoint place =>
    obtain ⟨-, -, hids⟩ := dbg.breakpoint_spec env place
    obtain ⟨hat, hhit⟩ := hids id hid
    obtain ⟨line, column, hline, hcolumn, rfl⟩ := hitBreakpoint_eq_some hhit
    obtain rfl : column = 0 := hfits column hcolumn
    refine ⟨place, hat, ?_⟩
    rw [idOf, hline]
    rfl
  | pause reason =>
    obtain ⟨-, -, hids⟩ := dbg.notifyPaused_spec env none reason
    rcases hids id hid with ⟨hit, heq, -⟩ | ⟨hreason, -⟩
    · cases heq
    · change id ∈ (dbg.notifyPaused env none reason).1 at hid
      rw [notifyPaused_silent (hfits hreason)] at hid
      cases hid
  | _ => exact absurd hid List.not_mem_nil

/-- **Ids in pause events**: in every run whose events keep the client up to date, an id in
a pause event has been returned to the client before and not been removed since. -/
theorem hit_ids_returned {accepts : JSPtLocation → Bool} (hjs : js.Precise accepts) (s : js.State)
    (hs : js.breakpoints s = []) (events : List (DynamicEvent tables))
    (h : Admits step (IdFits accepts) (start s) events) (k : Nat)
    (event : DynamicEvent tables) (he : events[k]? = some event) (id : Bytes)
    (hid : id ∈ ((stateAt step (start s) events k).outcome event).hitBreakpoints) :
    Since (EventAt step (start s) events fun dbg event => id ∈ (dbg.outcome event).ids)
      (EventAt step (start s) events fun dbg event => dbg.RemovesId event id) k := by
  have hnone : ∀ place, ¬ At s place := by
    intro place hplace
    rw [At, hs] at hplace
    cases hplace
  refine Admits.since (I := fun _ => True) (H := Holds tables)
    (A := fun dbg event id => id ∈ (dbg.outcome event).ids) (D := RemovesId)
    (fun _ _ _ _ => trivial) ?_ trivial ?_ h (holds_of_mem_hitBreakpoints (h.fits he) hid)
  · rintro dbg event id - hfits ⟨place, hplace, hid⟩
    rcases tellsClient_step hjs hfits place hplace with ⟨hold, hkept⟩ | htold
    · exact .inr ⟨⟨place, hold, hid⟩, hkept id hid⟩
    · exact .inl (htold id hid)
  · rintro id ⟨place, hplace, -⟩
    exact hnone place hplace

/-- The place of line 3 of `a.ets`. -/
def lineThree : JSPtLocation :=
  { jsPandaFile := 5, methodId := 0, bytecodeOffset := 3, sourceFile := ascii "a.ets" }

def hitRun (column : Int32) : List (DynamicEvent (lineTables column)) :=
  [{ action := .enable [] },
    { action := .scriptParsed { fileName := ascii "1.abc", url := ascii "a.ets" } },
    { env := lineEnvironment column
      action := .setBreakpointByUrl { lineNumber := 3, url := ascii "a.ets" } },
    { action := .breakpoint lineThree }]

theorem precise_listDebugger : listDebugger.Precise fun _ => true where
  set _ _ _ _ := rfl
  refused _ _ _ _ := nofun
  removed := by simp [listDebugger]

theorem hit_ids_returned_hitRun :
    Since
      (EventAt (@step _ listDebugger) (start []) (hitRun 0) fun dbg event =>
        ascii "id:3:0:a.ets" ∈ (dbg.outcome event).ids)
      (EventAt (@step _ listDebugger) (start []) (hitRun 0) fun dbg event =>
        dbg.RemovesId event (ascii "id:3:0:a.ets")) 3 := by
  refine hit_ids_returned precise_listDebugger [] rfl (hitRun 0) ?_ 3 _ rfl _ (by decide +kernel)
  refine ⟨trivial, nofun, ⟨true, fun extractor h => ?_⟩, fun _ => ?_, trivial⟩
  · obtain rfl := Option.some.inj (List.mem_singleton.mp h)
    rfl
  · exact fun h => (Option.some.inj h).symm

/-- A breakpoint in column 4 is reported with an id that was not returned, and again after
its removal; a `debugger` statement is reported with an id too. -/
theorem hit_id_not_returned :
    let events := hitRun 4 ++
      [{ env := lineEnvironment 4, action := .removeBreakpoint (ascii "id:3:0:a.ets") },
        { action := .breakpoint lineThree },
        { action := .pause .debuggerStmt }]
    EventAt (@step _ listDebugger) (start []) events
      (fun dbg event => (dbg.outcome event).response = .ok) 4 ∧
    ∀ p ∈ [(3, ascii "id:3:4:a.ets"), (5, ascii "id:3:4:a.ets"), (6, ascii "id:0:0:")],
      EventAt (@step _ listDebugger) (start []) events
        (fun dbg event => p.2 ∈ (dbg.outcome event).hitBreakpoints) p.1 ∧
      ¬ Since
        (EventAt (@step _ listDebugger) (start []) events fun dbg event =>
          p.2 ∈ (dbg.outcome event).ids)
        (EventAt (@step _ listDebugger) (start []) events fun dbg event =>
          dbg.RemovesId event p.2) p.1 := by
  intro events
  -- none of the ids has been returned
  have hnever : ∀ p ∈ [(3, ascii "id:3:4:a.ets"), (5, ascii "id:3:4:a.ets"), (6, ascii "id:0:0:")],
      ∀ j < p.1, ¬ EventAt (@step _ listDebugger) (start []) events
        (fun dbg event => p.2 ∈ (dbg.outcome event).ids) j := by
    decide +kernel
  refine ⟨by decide +kernel, fun p hp => ⟨?_, ?_⟩⟩
  · revert p
    decide +kernel
  · rintro ⟨j, hj, hids, -⟩
    exact hnever p hp j hj hids

end DynamicDebugger

end ArkToolchain
