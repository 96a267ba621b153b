/-
Which lines the command-line client survives.

Every command has a rule: the condition on its arguments and on the session under which it ends
without a crash, and with a message if it fails.  Four commands do have a condition
(`CommandFits`).  From the rules follows what a line needs (`line_safe_iff`).
-/
import ArkToolchain.CliCommands

namespace ArkToolchain

namespace ArkDb

/-! ### What is wanted -/

/-- The user sees it, or finds it in the log. -/
def Output.IsMessage : Output → Prop
  | .request _ _ => False
  | _ => True

def Answer.Told (answer : Answer) : Prop :=
  answer.code = .fail → ∃ output ∈ answer.outputs, output.IsMessage

instance : DecidablePred Output.IsMessage
  | .request _ _ => isFalse id
  | .out _ | .help | .log _ => isTrue trivial

instance : DecidablePred Answer.Told := fun answer =>
  inferInstanceAs (Decidable (answer.code = .fail → _))

def Told (code : ErrCode) (st : CliState) : Prop := Answer.Told ⟨code, st.outputs⟩

/-! ### Rules -/

section Rules

variable {Q : Unit → CliState → Prop} {st : CliState} {cmd : String}

@[simp] theorem told_ok : Told .ok st := by
  simp [Told, Answer.Told]

variable {session : Option CliSession} {outputs : List Output} {code : ErrCode} {output : Output}

theorem told_append (h : output.IsMessage) : Told code ⟨session, outputs ++ [output]⟩ :=
  fun _ => ⟨output, List.mem_append_right _ (List.mem_singleton_self _), h⟩

@[simp] theorem told_out {text : Bytes} : Told code ⟨session, outputs ++ [.out text]⟩ :=
  told_append trivial

@[simp] theorem told_log {text : String} : Told code ⟨session, outputs ++ [.log text]⟩ :=
  told_append trivial

@[simp] theorem not_told_nil : ¬ Told .fail ⟨session, []⟩ := by
  simp [Told, Answer.Told]

@[simp] theorem errCode_true : errCode true = .ok := rfl

@[simp] theorem ends_print :
    Ends (print output) Q st ↔ Q () { st with outputs := st.outputs ++ [output] } :=
  Iff.rfl

@[simp] theorem ends_say {text : String} :
    Ends (say text) Q st ↔ Q () { st with outputs := st.outputs ++ [.out (ascii text)] } :=
  Iff.rfl

@[simp] theorem ends_sayAll {texts : List Bytes} :
    Ends (sayAll texts) Q st ↔ Q () { st with outputs := st.outputs ++ texts.map Output.out } :=
  Iff.rfl

@[simp] theorem ends_update {f : CliSession → CliSession} :
    Ends (update f) Q st ↔ Q () { st with session := st.session.map f } :=
  Iff.rfl

@[simp] theorem ends_withSession {body : CliSession → Cli ErrCode} :
    Ends (withSession body) Told st ↔ ∀ session ∈ st.session, Ends (body session) Told st := by
  rw [withSession, ends_bind, ends_get]
  rcases hs : st.session with - | session
  · simp
  · simp

@[simp] theorem ends_outputCommand {flag : Bool} :
    Ends (outputCommand cmd flag) Q st ↔
      Q () { st with
        outputs := st.outputs ++ [.out (if flag then ascii "exe success, cmd is " ++ ascii cmd
          else ascii cmd ++ ascii " parameters is incorrect")] } := by
  cases flag <;> rfl

@[simp] theorem ends_incorrect : Ends (incorrect cmd) Told st := by
  simp [incorrect]

@[simp] theorem ends_dispatcherCmd {Q : Bool → CliState → Prop} {table : List String} :
    Ends (dispatcherCmd table cmd) Q st ↔
      (cmd ∈ table → Q true { st with
        outputs := st.outputs ++ [.request cmd (st.session.bind (requestParams cmd))] }) ∧
        (cmd ∉ table → Q false st) := by
  simp [dispatcherCmd]

@[simp] theorem ends_debuggerDispatcherCmd :
    Ends (debuggerDispatcherCmd cmd) Told st ↔
      ∀ session ∈ st.session, Yields (lastInfo cmd session) fun _ => True := by
  simp [debuggerDispatcherCmd]

theorem ends_runtimeDispatcherCmd (hcmd : cmd ∈ runtimeTable) :
    Ends (runtimeDispatcherCmd cmd) Told st := by
  simp [runtimeDispatcherCmd, hcmd]

end Rules

/-! ### Words -/

@[simp] theorem yields_element {α : Type} {xs : List α} {i : Nat} {P : α → Prop} :
    Yields (element xs i) P ↔ ∃ h : i < xs.length, P xs[i] := by
  unfold element
  split
  · rename_i x hx
    obtain ⟨h, rfl⟩ := List.getElem?_eq_some_iff.mp hx
    simp [h]
  · rename_i hx
    have hle := List.getElem?_eq_none_iff.mp hx
    simp [Nat.not_lt.mpr hle]

@[simp] theorem yields_back_append {α : Type} {xs : List α} {x : α} {P : α → Prop} :
    Yields (back (xs ++ [x])) P ↔ P x := by
  simp [back]

theorem yields_sameEnds {path : Bytes} {P : Bool → Prop} (hne : path ≠ []) :
    Yields (sameEnds path) P ↔ P (path.head hne == path.getLast hne) := by
  have hpos := List.length_pos_iff.mpr hne
  have hlast : path.length - 1 < path.length := by omega
  simp [sameEnds, hpos, hlast, List.getLast_eq_getElem, List.head_eq_getElem]

variable (digits : Bytes)

theorem foldl_digits_lt (h : ∀ d ∈ digits, isDigit d = true) (v : Nat) :
    digits.foldl (fun v d => 10 * v + (d.toNat - 0x30)) v < (v + 1) * 10 ^ digits.length := by
  induction digits generalizing v with
  | nil => simp
  | cons d digits ih =>
    have hd : d.toNat ≤ 0x39 := by
      have hdigit := h d List.mem_cons_self
      simp only [isDigit, Bool.and_eq_true, decide_eq_true_eq] at hdigit
      exact UInt8.le_iff_toNat_le.mp hdigit.2
    rw [List.foldl_cons, List.length_cons, Nat.pow_succ']
    calc digits.foldl (fun v d => 10 * v + (d.toNat - 0x30)) (10 * v + (d.toNat - 0x30))
        < (10 * v + (d.toNat - 0x30) + 1) * 10 ^ digits.length :=
          ih (fun d' hd' => h d' (List.mem_cons_of_mem _ hd')) _
      _ ≤ ((v + 1) * 10) * 10 ^ digits.length := Nat.mul_le_mul_right _ (by omega)
      _ = (v + 1) * (10 * 10 ^ digits.length) := Nat.mul_assoc _ _ _

theorem digitsVal_dropWhile : digitsVal (digits.dropWhile (· = 0x30)) = digitsVal digits := by
  induction digits with
  | nil => rfl
  | cons d digits ih =>
    by_cases hd : d = 0x30
    · subst hd
      rw [List.dropWhile_cons_of_pos (by simp), ih]
      rfl
    · rw [List.dropWhile_cons_of_neg (by simpa using hd)]

variable {str : Bytes}

theorem of_isNumber (h : isNumber str = true) :
    (∀ d ∈ str, isDigit d = true) ∧ digitsVal str < 10 ^ 9 := by
  simp only [isNumber, Bool.and_eq_true, decide_eq_true_eq, List.all_eq_true] at h
  obtain ⟨hlength, hdigits⟩ := h
  constructor
  · intro d hd
    rw [← List.takeWhile_append_dropWhile (p := (· = 0x30)) (l := str), List.mem_append] at hd
    rcases hd with hd | hd
    · have hzero : d = 0x30 := by simpa using List.mem_takeWhile_imp hd
      rw [hzero]
      rfl
    · exact hdigits d hd
  · rw [← digitsVal_dropWhile]
    calc digitsVal (str.dropWhile (· = 0x30))
        < (0 + 1) * 10 ^ (str.dropWhile (· = 0x30)).length := foldl_digits_lt _ hdigits 0
      _ = 10 ^ (str.dropWhile (· = 0x30)).length := by rw [Nat.zero_add, Nat.one_mul]
      _ ≤ 10 ^ 9 := Nat.pow_le_pow_right (by decide) hlength

theorem cStr_of_digits (h : ∀ d ∈ str, isDigit d = true) : cStr str = str := by
  rw [cStr_eq_self_iff]
  intro hzero
  exact absurd (h 0 hzero) (by decide)

theorem yields_stoi {P : Int → Prop} (hne : str ≠ []) (h : isNumber str = true) :
    Yields (stoi str) P ↔ P (digitsVal str) := by
  obtain ⟨hdigits, hval⟩ := of_isNumber h
  obtain ⟨d, ds, rfl⟩ := List.exists_cons_of_ne_nil hne
  rw [stoi, cStr_of_digits hdigits, strtoll_digits hdigits (by omega)]
  simp only [List.length_cons, Nat.add_one_ne_zero, if_false]
  rw [if_neg (by omega)]
  rfl

theorem strToUInt_of_isNumber (hne : str ≠ []) (h : isNumber str = true) :
    strToUInt str = some (digitsVal str) := by
  obtain ⟨hdigits, hval⟩ := of_isNumber h
  obtain ⟨-, -, hliteral⟩ := of_unsignedLiteral (if_pos ⟨hne, List.all_eq_true.mpr hdigits⟩)
  rw [strToUInt_eq, scanned_of_literal hliteral, hliteral, Option.map_some, wrapped,
    if_neg (by omega)]
  congr
  omega

/-! ### The tables -/

/-- The name of a command is known where its handler looks it up, and only the commands that
leave something in the session take it from there. -/
def Command.known (command : Command) : Bool :=
  match command.handler with
  | .heapProfiler => command.name ∈ heapProfilerTable
  | .cpuProfile => command.name = "cpuprofile-show" || command.name ∈ profilerTable
  | .runtime | .print => command.name ∈ runtimeTable
  | .break | .delete => command.name ∈ breakTable
  | .setSymbolicBreakpoints | .removeSymbolicBreakpoints => command.name ∈ symbolicTable
  | .removeBreakpointsByUrl => command.name = "removeBreakpointsByUrl"
  | .debugger | .step =>
    command.name ∉ breakTable && command.name ∉ symbolicTable
      && command.name ≠ "removeBreakpointsByUrl"
  | .session _ =>
    ascii "session" <:+: ascii command.name && ascii "session" <:+: ascii command.shortName
  | _ => true

theorem known_of_mem : ∀ command ∈ commandMap, command.known = true := by
  decide +kernel

section lastInfo

variable {cmd : String} {session : CliSession}

theorem yields_lastInfo_of_breakTable (hcmd : cmd ∈ breakTable)
    (hlist : session.breakPointInfoList ≠ []) : Yields (lastInfo cmd session) fun _ => True := by
  obtain ⟨infos, info, hinfos⟩ :=
    (List.eq_nil_or_concat' session.breakPointInfoList).resolve_left hlist
  rw [lastInfo, if_pos hcmd, hinfos]
  simp

theorem yields_lastInfo_of_symbolicTable {functionName : Bytes} (hcmd : cmd ∈ symbolicTable) :
    Yields (lastInfo cmd (addSymbolicBreakpointInfo functionName session)) fun _ => True := by
  have hdisjoint : ∀ name ∈ symbolicTable, name ∉ breakTable := by decide
  rw [lastInfo, if_neg (hdisjoint cmd hcmd), if_pos hcmd]
  simp [addSymbolicBreakpointInfo]

theorem yields_lastInfo (hcmd : (cmd ∉ breakTable && cmd ∉ symbolicTable
      && cmd ≠ "removeBreakpointsByUrl") = true) :
    Yields (lastInfo cmd session) fun _ => True := by
  simp only [Bool.and_eq_true, decide_eq_true_eq] at hcmd
  rw [lastInfo, if_neg hcmd.1.1, if_neg hcmd.1.2, if_neg hcmd.2]
  trivial

end lastInfo

/-! ### Commands -/

/-- The breakpoints of the script, up to one at this line, have numbers as their lines. -/
def BreakFits (url : Bytes) (line : Int) (breaklist : List Pt.Breaklocation) : Prop :=
  ∀ b ∈ breaklist.takeWhile fun b => ¬ (b.url = url ∧ stoi b.lineNumber = .ok (line - 1)),
    b.url = url → Yields (stoi b.lineNumber) fun _ => True

/-- The lines that `list` shows around the current one are there, or none is to be shown. -/
def ListFits (session : CliSession) : Prop :=
  ∀ fileName lines, session.fileSource.lookup session.scriptId = some (fileName, lines) →
    let start := session.debugLineNum - 5
    if start < 0 then 10 < lines.length
    else session.debugLineNum + 4 < lines.length ∨ lines.length < start

/-- The arguments of `print` that are used are numbers. -/
def PrintFits : List Bytes → Prop
  | [index] => isNumber index = true
  | [_, object] => isNumber object = true
  | [object, start, count] =>
    isNumber object = true ∧ isNumber start = true ∧ isNumber count = true
  | _ => True

def CommandFits (command : Command) (argList : List Bytes) (session : CliSession) : Prop :=
  match command.handler with
  | .cpuProfile => command.name = "cpuprofile-setSamplingInterval" → argList ≠ []
  | .break =>
    ∀ url line, argList = [url, line] → isNumber line = true →
      BreakFits url (digitsVal line) session.breaklist
  | .list => session.isDebug = true → argList = [] → ListFits session
  | .print => PrintFits argList
  | _ => True

section Commands

variable {env : CliEnv} {st : CliState} {cmd : String} {argList : List Bytes}

theorem yields_breakpointIsExist (url : Bytes) (line : Int) (breaklist : List Pt.Breaklocation) :
    Yields (breakpointIsExist url line breaklist) (fun _ => True) ↔
      BreakFits url line breaklist := by
  induction breaklist with
  | nil => simp [breakpointIsExist, BreakFits]
  | cons b breaklist ih =>
    by_cases hurl : b.url = url
    · rw [breakpointIsExist, if_pos hurl, BreakFits]
      rcases hn : stoi b.lineNumber with e | n
      · simp [hn, hurl]
      · by_cases hline : n + 1 = line
        · subst hline
          simp [hn, hurl]
        · have hne : n ≠ line - 1 := by omega
          simp [hn, hurl, hline, hne, ih, BreakFits]
    · rw [breakpointIsExist, if_neg hurl, ih, BreakFits, BreakFits,
        List.takeWhile_cons_of_pos (by simp [hurl])]
      simp [hurl]

theorem ends_nameCommand {add : Bytes → CliSession → CliSession}
    (hadd : ∀ arg session, Yields (lastInfo cmd (add arg session)) fun _ => True) :
    Ends (nameCommand add cmd argList) Told st := by
  simp only [nameCommand, ends_withSession]
  intro session hsession
  rcases argList with - | ⟨arg, - | ⟨arg', rest⟩⟩
  · simp
  · simp [hadd]
  · simp

theorem yields_showLines (lines : List Bytes) (showLine count : Nat) :
    Yields (showLines lines showLine count) (fun _ => True) ↔
      count = 0 ∨ showLine + count ≤ lines.length := by
  rw [showLines]
  induction count generalizing showLine with
  | zero => simp
  | succ count ih =>
    rw [List.range'_succ, List.mapM_cons]
    simp only [yields_bind, yields_exceptMap, yields_element, yields_pure, ih, exists_prop]
    omega

variable {session : CliSession} {Q : Unit → CliState → Prop}

theorem ends_listSource (hQ : ∀ outputs, Q () { st with outputs }) :
    Ends (listSource session) Q st ↔ ListFits session := by
  rw [listSource, ListFits]
  rcases session.fileSource.lookup session.scriptId with - | ⟨fileName, lines⟩
  · simp [hQ]
  · simp only [ends_bind, ends_liftM, ends_sayAll, hQ, yields_showLines, Option.some.injEq,
      Prod.mk.injEq, and_imp, forall_apply_eq_imp_iff, forall_eq']
    split
    all_goals
      split <;> omega

theorem ends_listSourceFrom {startLine : Int} (hQ : ∀ outputs, Q () { st with outputs }) :
    Ends (listSourceFrom startLine session) Q st := by
  rw [listSourceFrom]
  rcases session.fileSource.lookup session.scriptId with - | ⟨fileName, lines⟩
  · simp [hQ]
  · simp only [ends_ite, ends_print, ends_bind, ends_liftM, ends_sayAll, hQ, yields_showLines,
      implies_true, true_and]
    intro hrange
    split <;> omega

theorem ends_listSourceBetween {startLine endLine : Int}
    (hQ : ∀ outputs, Q () { st with outputs }) :
    Ends (listSourceBetween startLine endLine session) Q st := by
  rw [listSourceBetween]
  rcases session.fileSource.lookup session.scriptId with - | ⟨fileName, lines⟩
  · simp [hQ]
  · simp only [ends_ite, ends_print, ends_bind, ends_liftM, ends_sayAll, hQ, yields_showLines,
      implies_true, true_and]
    omega

theorem ends_watchCommand : Ends (watchCommand cmd argList) Told st := by
  rw [watchCommand]
  rcases argList with - | ⟨arg, - | ⟨arg', rest⟩⟩
  all_goals
    simp

variable (hargs : ∀ arg ∈ argList, arg ≠ [])
include hargs

theorem ends_heapProfilerCommand
    (hcmd : cmd ∈ heapProfilerTable) : Ends (heapProfilerCommand env cmd argList) Told st := by
  simp only [heapProfilerCommand, ends_withSession]
  intro session hsession
  rcases argList with - | ⟨path, rest⟩
  · simp [hcmd]
  · simp [hcmd, yields_sameEnds (hargs path List.mem_cons_self)]

theorem ends_cpuProfileCommand (hcmd : cmd = "cpuprofile-show" ∨ cmd ∈ profilerTable) :
    Ends (cpuProfileCommand env cmd argList) Told st ↔
      ∀ session ∈ st.session, cmd = "cpuprofile-setSamplingInterval" → argList ≠ [] := by
  simp only [cpuProfileCommand, ends_withSession]
  refine forall₂_congr fun session hsession => ?_
  rcases argList with - | ⟨path, rest⟩
  · rcases hcmd with rfl | hcmd
    · simp
    · by_cases hinterval : cmd = "cpuprofile-setSamplingInterval"
      · simp [hinterval]
      · simp [hcmd, hinterval]
  · rcases hcmd with rfl | hcmd
    · simp
    · simp [hcmd, yields_sameEnds (hargs path List.mem_cons_self)]

theorem ends_breakCommand (hcmd : cmd ∈ breakTable) :
    Ends (breakCommand cmd argList) Told st ↔
      ∀ session ∈ st.session, ∀ url line, argList = [url, line] → isNumber line = true →
        BreakFits url (digitsVal line) session.breaklist := by
  simp only [breakCommand, ends_withSession]
  refine forall₂_congr fun session hsession => ?_
  rcases argList with - | ⟨url, - | ⟨line, - | ⟨arg, rest⟩⟩⟩
  · simp
  · simp
  · cases hnumber : isNumber line
    · simp [hnumber]
    · have hline := hargs line (by simp)
      simp [hnumber, yields_stoi hline hnumber, ← yields_breakpointIsExist,
        yields_lastInfo_of_breakTable hcmd, addBreakPointInfo]
  · simp

theorem ends_deleteCommand (hcmd : cmd ∈ breakTable) :
    Ends (deleteCommand cmd argList) Told st := by
  simp only [deleteCommand, ends_withSession]
  intro session hsession
  rcases argList with - | ⟨arg, - | ⟨arg', rest⟩⟩
  · simp
  · cases hnumber : isNumber arg
    · simp [hnumber]
    · have harg := hargs arg List.mem_cons_self
      have hget : digitsVal arg ≤ session.breaklist.length → 0 < digitsVal arg →
          digitsVal arg - 1 < session.breaklist.length := by omega
      simpa [hnumber, yields_stoi harg hnumber, yields_lastInfo_of_breakTable hcmd,
        addBreakPointInfo] using hget
  · simp

theorem ends_infosourceCommand : Ends (infosourceCommand cmd argList) Told st := by
  simp only [infosourceCommand, ends_withSession]
  intro session hsession
  rcases argList with - | ⟨arg, - | ⟨arg', rest⟩⟩
  · simp
  · cases hnumber : isNumber arg
    · simp [hnumber]
    · simp [hnumber, yields_stoi (hargs arg List.mem_cons_self) hnumber]
  · simp

theorem ends_listCommand :
    Ends (listCommand cmd argList) Told st ↔
      ∀ session ∈ st.session, session.isDebug = true → argList = [] → ListFits session := by
  simp only [listCommand, ends_withSession]
  refine forall₂_congr fun session hsession => ?_
  cases hdebug : session.isDebug with
  | false => simp
  | true =>
    rcases argList with - | ⟨first, - | ⟨last, - | ⟨arg, rest⟩⟩⟩
    · simp [ends_listSource]
    · cases hfirst : isNumber first with
      | false => simp [hfirst]
      | true =>
        simp [hfirst, yields_stoi (hargs first (by simp)) hfirst, ends_listSourceFrom]
    · by_cases hnumbers : isNumber first = true ∧ isNumber last = true
      · simp [hnumbers, yields_stoi (hargs first (by simp)) hnumbers.1,
          yields_stoi (hargs last (by simp)) hnumbers.2, ends_listSourceBetween]
      · have hfail : isNumber first = true → isNumber last = false :=
          fun h => Bool.eq_false_iff.mpr fun h' => hnumbers ⟨h, h'⟩
        simp +contextual [hfail]
    · simp

theorem ends_printCommand {session : Option CliSession} (hcmd : cmd ∈ runtimeTable) :
    Ends (printCommand cmd argList) Told ⟨session, []⟩ ↔ ∀ s ∈ session, PrintFits argList := by
  rw [printCommand]
  rcases argList with - | ⟨a, - | ⟨b, - | ⟨c, - | ⟨d, rest⟩⟩⟩⟩
  · simp [PrintFits, ends_runtimeDispatcherCmd hcmd]
  · cases ha : isNumber a
    · simp [PrintFits, ha]
    · simp [PrintFits, ha, yields_stoi (hargs a (by simp)) ha, ends_runtimeDispatcherCmd hcmd]
  · cases hb : isNumber b
    · simp [PrintFits, hb]
    · simp [PrintFits, hb, yields_stoi (hargs b (by simp)) hb, ends_runtimeDispatcherCmd hcmd]
  · by_cases hnumbers : isNumber a = true ∧ isNumber b = true ∧ isNumber c = true
    · obtain ⟨ha, hb, hc⟩ := hnumbers
      simp [PrintFits, ha, hb, hc, yields_stoi (hargs a (by simp)) ha,
        yields_stoi (hargs b (by simp)) hb, yields_stoi (hargs c (by simp)) hc,
        ends_runtimeDispatcherCmd hcmd]
    · simp [PrintFits, hnumbers]
  · simp [PrintFits]

variable {command : Command} {s : Option CliSession}

/-- **The commands of a session** end as they should, if what they need is there. -/
theorem ends_respond (hcommand : command ∈ commandMap) :
    Ends (respond env command argList) Told ⟨s, []⟩ ↔
      ∀ session ∈ s, CommandFits command argList session := by
  have hknown := known_of_mem command hcommand
  obtain ⟨name, shortName, handler⟩ := command
  simp only [Command.known] at hknown
  cases handler with
  | cpuProfile => exact ends_cpuProfileCommand hargs (by simpa using hknown)
  | «break» => exact ends_breakCommand hargs (by simpa using hknown)
  | list => exact ends_listCommand hargs
  | print => exact ends_printCommand hargs (by simpa using hknown)
  | heapProfiler =>
    simp [respond, CommandFits, ends_heapProfilerCommand hargs (by simpa using hknown)]
  | runtime =>
    simp [respond, CommandFits, runtimeCommand, ends_runtimeDispatcherCmd (by simpa using hknown)]
  | debugger | step =>
    simp [respond, CommandFits, debuggerCommand, stepCommand, yields_lastInfo hknown]
  | delete => simp [respond, CommandFits, ends_deleteCommand hargs (by simpa using hknown)]
  | display | showstack | help | test | session handler =>
    simp [respond, CommandFits, displayCommand, showstackCommand, showCommand, execHelpCommand,
      testCommand]
  | setSymbolicBreakpoints | removeSymbolicBreakpoints =>
    simp [respond, CommandFits, setSymbolicBreakpointsCommand, removeSymbolicBreakpointsCommand,
      ends_nameCommand fun _ _ => yields_lastInfo_of_symbolicTable (by simpa using hknown)]
  | removeBreakpointsByUrl =>
    obtain rfl : name = "removeBreakpointsByUrl" := by simpa using hknown
    refine iff_of_true (ends_nameCommand fun _ _ => ?_) fun _ _ => trivial
    simp [lastInfo, breakTable, symbolicTable, addUrl]
  | infosource => simp [respond, CommandFits, ends_infosourceCommand hargs]
  | watch => simp [respond, CommandFits, ends_watchCommand]

end Commands

/-! ### The commands on the sessions -/

section Lines

variable {env : CliEnv} {client client' : CliClient} {argList words : List Bytes}

def SameServer (client client' : CliClient) : Prop :=
  client'.isServerActive = client.isServerActive ∧ client'.inputStr = client.inputStr

theorem SameServer.refl : SameServer client client := ⟨rfl, rfl⟩

theorem SameServer.trans {client'' : CliClient} (h : SameServer client client')
    (h' : SameServer client' client'') : SameServer client client'' :=
  ⟨h'.1.trans h.1, h'.2.trans h.2⟩

variable {outputs : List Output}

theorem answer_told_cons {code : ErrCode} {output : Output} (h : output.IsMessage) :
    Answer.Told ⟨code, output :: outputs⟩ :=
  fun _ => ⟨output, List.mem_cons_self, h⟩

theorem answer_ok (h : SameServer client client') :
    Answer.Told ⟨.ok, outputs⟩ ∧ SameServer client client' :=
  ⟨by simp [Answer.Told], h⟩

theorem answer_unchanged {code : ErrCode} {text : Bytes} :
    Answer.Told ⟨code, .out text :: outputs⟩ ∧ SameServer client client :=
  ⟨answer_told_cons trivial, .refl⟩

variable {sessionId : Nat} {handler : SessionHandler}

theorem yields_respondSession {cmd : String} (hargs : ∀ arg ∈ argList, arg ≠ []) :
    Yields (respondSession env handler cmd argList client)
      fun r => r.1.Told ∧ SameServer client r.2 := by
  cases handler with
  | add =>
    simp only [respondSession, yields_ite, yields_bind, yields_element, yields_pure]
    refine ⟨fun hone => ⟨by omega, ?_⟩, fun _ => answer_unchanged⟩
    fun_cases client.createNewSession env _
    all_goals exact answer_unchanged
  | del =>
    simp only [respondSession, yields_ite, yields_bind, yields_element, yields_pure]
    refine ⟨fun hone => ⟨by omega, fun hnumber => ?_, fun _ => answer_unchanged⟩,
      fun _ => answer_unchanged⟩
    rw [strToUInt_of_isNumber (hargs _ (List.getElem_mem _)) hnumber]
    simp only [yields_ite, yields_pure]
    refine ⟨fun _ => answer_ok .refl, fun _ => ?_⟩
    fun_cases client.delSessionById _
    · exact answer_unchanged
    · exact answer_ok .refl
  | list =>
    simp only [respondSession, yields_ite, yields_pure]
    exact ⟨fun _ => answer_unchanged, fun _ => answer_ok .refl⟩
  | switch =>
    simp only [respondSession, yields_ite, yields_bind, yields_element, yields_pure]
    refine ⟨fun hone => ⟨by omega, fun hnumber => ?_, fun _ => answer_unchanged⟩,
      fun _ => answer_unchanged⟩
    rw [strToUInt_of_isNumber (hargs _ (List.getElem_mem _)) hnumber]
    dsimp only
    fun_cases client.sessionSwitch _
    · exact answer_unchanged
    · exact answer_ok .refl

theorem unknownCommand_told (cmd : Bytes) : (unknownCommand cmd).Told := by
  unfold unknownCommand
  rcases cmdList.filter fun name => cmd.isPrefixOf (ascii name) with - | ⟨name, names⟩
  all_goals
    exact answer_told_cons trivial

/-! ### Lines -/

/-- What a line of words needs in a session. -/
def WordsFit (words : List Bytes) (session : Option CliSession) : Prop :=
  match words with
  | [] => False
  | cmd :: argList =>
    ∀ command ∈ findCommand cmd, ∀ s ∈ session, CommandFits command argList s

variable {command : Command} {cmd : Bytes}

theorem mem_of_findCommand (h : findCommand cmd = some command) :
    command ∈ commandMap ∧ (ascii command.name = cmd ∨ ascii command.shortName = cmd) := by
  refine ⟨List.mem_of_find?_eq_some h, ?_⟩
  simpa using List.find?_some h

theorem session_infix_of_findCommand (h : findCommand cmd = some command)
    (hhandler : command.handler = .session handler) : ascii "session" <:+: cmd := by
  obtain ⟨hcommand, hcmd⟩ := mem_of_findCommand h
  have hknown := known_of_mem command hcommand
  simp only [Command.known, hhandler, Bool.and_eq_true, decide_eq_true_eq] at hknown
  rcases hcmd with rfl | rfl
  · exact hknown.1
  · exact hknown.2

/-- **A line in a session** is safe if its command has what it needs. -/
theorem yields_inputMessageInSession (env : CliEnv) (hwords : ∀ word ∈ words, word ≠ []) :
    Yields (inputMessageInSession env words sessionId client) (fun r => r.1.Told) ↔
      WordsFit words (client.getSessionById sessionId) := by
  rcases words with - | ⟨cmd, argList⟩
  · simp [inputMessageInSession, WordsFit]
  · have hargs : ∀ arg ∈ argList, arg ≠ [] := fun arg h => hwords arg (List.mem_cons_of_mem _ h)
    rw [inputMessageInSession, WordsFit, yields_bind, yields_element]
    simp only [List.length_cons, Nat.zero_lt_succ, List.getElem_cons_zero, exists_true_left,
      List.drop_succ_cons, List.drop_zero]
    cases hfind : findCommand cmd with
    | none => simp [unknownCommand_told]
    | some command =>
      have hcommand := (mem_of_findCommand hfind).1
      simp only [Option.mem_some_iff, forall_eq']
      split
      · rename_i handler hhandler
        refine iff_of_true ((yields_respondSession hargs).imp fun _ _ h => h.1) ?_
        simp [CommandFits, hhandler]
      · rw [yields_bind]
        exact ends_respond hargs hcommand

theorem frame_inputMessageInSession {answer : Answer} (hwords : ∀ word ∈ words, word ≠ [])
    (h : inputMessageInSession env words sessionId client = .ok (answer, client')) :
    SameServer client client' ∧
      ((∀ cmd ∈ words.head?, ¬ ascii "session" <:+: cmd) →
        ∀ id ≠ sessionId, client'.sessions id = client.sessions id) := by
  rcases words with - | ⟨cmd, argList⟩
  · cases h
  · have hargs : ∀ arg ∈ argList, arg ≠ [] := fun arg h => hwords arg (List.mem_cons_of_mem _ h)
    obtain ⟨_, hcmd, h⟩ := bind_eq_ok_iff.mp h
    cases hcmd
    cases hfind : findCommand cmd with
    | none =>
      rw [hfind] at h
      cases h
      exact ⟨.refl, fun _ _ _ => rfl⟩
    | some command =>
      rw [hfind] at h
      dsimp only at h
      split at h
      · rename_i handler hhandler
        obtain ⟨r, hr, hserver⟩ := yields_iff.mp (yields_respondSession hargs)
        cases hr.symm.trans h
        refine ⟨hserver.2, fun hcmd => ?_⟩
        exact absurd (session_infix_of_findCommand hfind hhandler) (hcmd cmd rfl)
      · obtain ⟨_, -, h⟩ := bind_eq_ok_iff.mp h
        cases h
        exact ⟨.refl, fun _ id hid => Function.update_of_ne hid _ _⟩

theorem yields_cmdForAllSessions (env : CliEnv) (hwords : ∀ word ∈ words, word ≠ [])
    (hcmd : ∀ cmd ∈ words.head?, ¬ ascii "session" <:+: cmd) (ids : List Nat) (hids : ids.Nodup)
    (hlt : ∀ id ∈ ids, id < maxSessionNum) (client : CliClient) :
    Yields (cmdForAllSessions env words ids client)
        (fun r => ∀ answer ∈ r.1, answer.Told) ↔
      ∀ id ∈ ids, ∀ s ∈ client.sessions id, WordsFit words (some s) := by
  induction ids generalizing client with
  | nil => simp [cmdForAllSessions]
  | cons id ids ih =>
    obtain ⟨hid, hids⟩ := List.nodup_cons.mp hids
    have hlt' : ∀ id' ∈ ids, id' < maxSessionNum :=
      fun id' h => hlt id' (List.mem_cons_of_mem _ h)
    rw [cmdForAllSessions, List.forall_mem_cons]
    cases hsession : client.sessions id with
    | none => simpa using ih hids hlt' client
    | some session =>
      have hget : client.getSessionById id = some session := by
        rw [CliClient.getSessionById, if_pos (hlt id List.mem_cons_self), hsession]
      -- the sessions that are left are as they were
      have hrest : ∀ r, inputMessageInSession env words id client = .ok r →
          (Yields (cmdForAllSessions env words ids r.2)
              (fun r' => ∀ answer ∈ r.1 :: r'.1, answer.Told) ↔
            r.1.Told ∧ ∀ id' ∈ ids, ∀ s ∈ client.sessions id', WordsFit words (some s)) := by
        intro r hr
        have hframe := (frame_inputMessageInSession hwords hr).2 hcmd
        have hsame : ∀ id' ∈ ids, r.2.sessions id' = client.sessions id' :=
          fun id' h => hframe id' (ne_of_mem_of_not_mem h hid)
        simp only [List.forall_mem_cons]
        rw [yields_congr fun _ _ => and_comm, yields_and_const, ih hids hlt' r.2, and_comm]
        refine and_congr_right' (forall₂_congr fun id' h => ?_)
        rw [hsame id' h]
      simp only [yields_bind, yields_pure]
      rw [yields_congr hrest, yields_and_const, yields_inputMessageInSession env hwords, hget]
      simp

/-- What a line needs, beyond its commands: what has come over TCP does not start with a
blank. -/
def InputFits (client : CliClient) : Prop :=
  client.isServerActive = true → client.inputStr.head? ≠ some 0x20

def LineFits (client : CliClient) (words : List Bytes) : Prop :=
  match words with
  | [] => True
  | first :: rest =>
    (if first = ascii "forall" then
      (∃ cmd ∈ rest.head?, ascii "session" <:+: cmd) ∨
        ∀ id < maxSessionNum, ∀ s ∈ client.sessions id, WordsFit rest (some s)
    else WordsFit words (client.getSessionById client.currentSessionId)) ∧
    InputFits client

/-- Nothing crashes, and a command that fails has said so. -/
def SafeLine (env : CliEnv) (msg : Bytes) (client : CliClient) : Prop :=
  Yields (inputOnMessage env msg client) fun r => ∀ answer ∈ r.1, answer.Told

theorem splitString_blank_eq_nil_iff {text : Bytes} :
    splitString text blank = [] ↔ ∀ c ∈ text.head?, c = 0x20 := by
  have hblank : blank = [0x20] := by decide
  rw [splitString_eq, parts_eq_nil_iff, hblank]
  simp

theorem yields_tcpServerWrite :
    Yields (tcpServerWrite client) (fun _ => True) ↔ client.inputStr.head? ≠ some 0x20 := by
  rw [tcpServerWrite]
  rcases hinput : client.inputStr with - | ⟨c, rest⟩
  · simp
  · have hsplit : 0 < (splitString (c :: rest) blank).length ↔ ¬ c = 0x20 := by
      rw [List.length_pos_iff, ne_eq, splitString_blank_eq_nil_iff]
      simp
    simp [hsplit]

theorem frame_cmdForAllSessions (hwords : ∀ word ∈ words, word ≠ []) (ids : List Nat)
    {answers : List Answer} (h : cmdForAllSessions env words ids client = .ok (answers, client')) :
    SameServer client client' := by
  induction ids generalizing client answers with
  | nil =>
    cases h
    exact .refl
  | cons id ids ih =>
    rw [cmdForAllSessions] at h
    split at h
    · exact ih h
    · obtain ⟨⟨answer, client₁⟩, hfirst, h⟩ := bind_eq_ok_iff.mp h
      obtain ⟨⟨answers', client₂⟩, hrest, h⟩ := bind_eq_ok_iff.mp h
      cases h
      exact (frame_inputMessageInSession hwords hfirst).1.trans (ih hrest)

theorem frame_execLine {answers : List Answer} (hwords : ∀ word ∈ words, word ≠ [])
    (h : execLine env words client = .ok (answers, client')) : SameServer client client' := by
  have hrest : ∀ word ∈ words.drop 1, word ≠ [] :=
    fun word h => hwords word (List.mem_of_mem_drop h)
  obtain ⟨first, -, h⟩ := bind_eq_ok_iff.mp h
  split at h
  · split at h
    · split at h
      · cases h
        exact .refl
      · exact frame_cmdForAllSessions hrest _ h
    · exact frame_cmdForAllSessions hrest _ h
  · obtain ⟨⟨answer, client₁⟩, hfirst, h⟩ := bind_eq_ok_iff.mp h
    cases h
    exact (frame_inputMessageInSession hwords hfirst).1

theorem server_iff (h : SameServer client client') {p : Prop} :
    ((client'.isServerActive = true → Yields (tcpServerWrite client') fun _ => p) ∧
      (¬ client'.isServerActive = true → p)) ↔ p ∧ InputFits client := by
  have hconst := yields_and_const (x := tcpServerWrite client') (P := fun _ => True) (p := p)
  simp only [true_and] at hconst
  rw [hconst, yields_tcpServerWrite, InputFits, ← h.1, ← h.2]
  tauto

/-- **Which lines are safe.** -/
theorem line_safe_iff (env : CliEnv) (msg : Bytes) (client : CliClient) :
    SafeLine env msg client ↔ LineFits client (splitString (cStr msg) blank) := by
  rw [SafeLine, inputOnMessage]
  have hwords : ∀ word ∈ splitString (cStr msg) blank, word ≠ [] := by
    rw [splitString_eq]
    exact fun word => ne_nil_of_mem_parts
  generalize splitString (cStr msg) blank = words at hwords ⊢
  rcases words with - | ⟨first, rest⟩
  · simp [LineFits, Answer.Told, Output.IsMessage]
  · rw [if_neg (List.cons_ne_nil _ _), LineFits]
    simp only [yields_bind, yields_ite, yields_pure]
    rw [yields_congr fun r hr => server_iff (frame_execLine hwords hr), yields_and_const]
    refine and_congr_left' ?_
    by_cases hfirst : first = ascii "forall"
    · have hall := fun hcmd => yields_cmdForAllSessions env (List.forall_mem_cons.mp hwords).2 hcmd
        (List.range maxSessionNum) List.nodup_range (fun id => List.mem_range.mp) client
      rw [execLine, if_pos hfirst, yields_bind, yields_element]
      rcases rest with - | ⟨cmd, argList⟩
      · simpa [hfirst] using hall
      · by_cases hsession : ascii "session" <:+: cmd
        · simp [hfirst, hsession, Answer.Told, Output.IsMessage]
        · simpa [hfirst, hsession] using hall (by simpa using hsession)
    · rw [execLine, if_neg hfirst, ← yields_inputMessageInSession env hwords]
      simp [hfirst]

/-- No file can be opened, and no session can be added. -/
def offline : CliEnv := ⟨fun _ => false, fun _ => false⟩

def oneSession (session : CliSession) : CliClient :=
  { sessions := fun id => if id = 0 then some session else none }

def answers (msg : String) (session : CliSession) : Except Crash (List Answer) :=
  (inputOnMessage offline (ascii msg) (oneSession session)).map Prod.fst

def debugging : CliSession :=
  { isDebug := true, fileSource := [(0, ascii "a.js", [ascii "let a"])] }

/-- A breakpoint whose line is not a number. -/
def withBreakpoint : CliSession :=
  { breaklist := [⟨ascii "id", ascii "a.js", ascii "x", ascii "0"⟩] }

theorem safeLine_iff_answers (msg : String) (session : CliSession) :
    SafeLine offline (ascii msg) (oneSession session) ↔
      Yields (answers msg session) fun as => ∀ answer ∈ as, answer.Told := by
  rw [SafeLine, answers, yields_exceptMap]

/-- Four lines that end the client, and one that fails without a word. -/
theorem line_not_safe :
    answers "forall" {} = .error .indexOutOfRange ∧
      answers "cp-ssi" {} = .error .indexOutOfRange ∧
      answers "list" debugging = .error .indexOutOfRange ∧
      answers "b a.js 3" withBreakpoint = .error .invalidArgument ∧
      answers "print x" {} = .ok [⟨.fail, []⟩] ∧
      ¬ SafeLine offline (ascii "forall") (oneSession {}) ∧
      ¬ SafeLine offline (ascii "print x") (oneSession {}) := by
  have hforall : answers "forall" {} = .error .indexOutOfRange := by decide +kernel
  have hprint : answers "print x" {} = .ok [⟨.fail, []⟩] := by decide +kernel
  refine ⟨hforall, by decide +kernel, by decide +kernel, by decide +kernel, hprint, ?_, ?_⟩
  · rw [safeLine_iff_answers, hforall]
    exact yields_error
  · rw [safeLine_iff_answers, hprint]
    decide

end Lines

end ArkDb

end ArkToolchain
