/-
Which commands the pauses at the language border go back to.

A flag is fresh if the last command on its side is the one that has set it.  Resuming clears the
flag and stepping into or out of a function sets it, but `StepOver` leaves it as it is, on both
sides.  The two sides are instances of `SideStep`.

Main result: `flags_in_force_iff`.
-/
import ArkToolchain.HybridDebuggers

namespace ArkToolchain

/-! ### One flag and the last command of its side -/

namespace ResumeKind

/-- Stepping into or out of a function may cross the border. -/
def crosses : ResumeKind → Bool
  | .stepInto | .stepOut => true
  | .resume | .stepOver => false

def flagAfter (flag : Bool) : ResumeKind → Bool
  | .resume => false
  | .stepInto | .stepOut => true
  | .stepOver => flag

end ResumeKind

/-- A flag that is set was set by the last command. -/
def FreshFlag (flag : Bool) (last : Option ResumeKind) : Prop :=
  flag = true → ∃ kind ∈ last, kind.crosses = true

/-- A step over or a resume leaves no flag in force. -/
def ClearedFlag (flag : Bool) (last : Option ResumeKind) : Prop :=
  ∀ kind ∈ last, kind.crosses = false → flag = false

/-- What an event does to the flag and the last command of one side. -/
structure SideStep (flag : Bool) (last executed : Option ResumeKind) (flag' : Bool)
    (last' : Option ResumeKind) : Prop where
  last_eq : last' = executed.or last
  flag_eq : ∀ kind ∈ executed, flag' = kind.flagAfter flag
  flag_le : executed = none → flag' = true → flag = true

theorem SideStep.of_none {flag flag' : Bool} {last : Option ResumeKind}
    (h : flag' = true → flag = true) : SideStep flag last none flag' last :=
  ⟨rfl, nofun, fun _ => h⟩

theorem FreshFlag.cleared {flag : Bool} {last : Option ResumeKind} (h : FreshFlag flag last) :
    ClearedFlag flag last := by
  intro kind hkind hcross
  cases flag with
  | false => rfl
  | true =>
    obtain ⟨kind', hkind', hcross'⟩ := h rfl
    obtain rfl : kind = kind' := Option.mem_unique hkind hkind'
    exact absurd hcross' (by simp [hcross])

namespace SideStep

variable {flag flag' : Bool} {last executed last' : Option ResumeKind}

theorem fresh (h : SideStep flag last executed flag' last') (hfresh : FreshFlag flag last)
    (hover : executed = some .stepOver → flag = false) : FreshFlag flag' last' := by
  intro hflag'
  rw [h.last_eq]
  rcases executed with - | kind
  · exact hfresh (h.flag_le rfl hflag')
  · have hkind := h.flag_eq kind rfl
    refine ⟨kind, rfl, ?_⟩
    cases kind with
    | resume => simp [hflag', ResumeKind.flagAfter] at hkind
    | stepInto | stepOut => rfl
    | stepOver => simp [hflag', ResumeKind.flagAfter, hover rfl] at hkind

theorem not_cleared (h : SideStep flag last executed flag' last')
    (hover : executed = some .stepOver) (hflag : flag = true) : ¬ ClearedFlag flag' last' := by
  intro hcleared
  have hflag' : flag' = true := by
    rw [h.flag_eq .stepOver hover]
    exact hflag
  have := hcleared .stepOver (by rw [h.last_eq, hover]; rfl) rfl
  exact absurd hflag' (by simp [this])

end SideStep

/-! ### Flags after commands and events -/

namespace Debuggee

theorem hybrid_dispatch {d : Debuggee} {command : StaticCommand} (h : d.executes command = true) :
    (d.dispatch command).state.hybrid =
      { d.state.hybrid with
        staticToDynamic := command.kind.flagAfter d.state.hybrid.staticToDynamic } := by
  cases command with
  | continueThread => rfl
  | continueTo locations => simp [dispatch, continueTo, show d.state.paused = true from h]; rfl
  | stepInto locations => simp [dispatch, stepInto, show d.state.paused = true from h]; rfl
  | stepOver locations => simp [dispatch, stepOver, show d.state.paused = true from h]; rfl
  | stepOut => simp [dispatch, stepOut, show d.state.paused = true from h]; rfl

theorem hybrid_step (d : Debuggee) (e : VmEvent) :
    (d.step e).state.hybrid.staticToDynamic = d.state.hybrid.staticToDynamic ∧
      ((d.step e).state.hybrid.dynamicToStatic = true →
        d.state.hybrid.dynamicToStatic = true) := by
  cases e with
  | methodEntry isCFrame sourceFile =>
    have hcheck : ∀ d' : Debuggee,
        (d'.checkSourceFile sourceFile).state.hybrid = d'.state.hybrid := by
      intro d'
      fun_cases checkSourceFile d' sourceFile <;> rfl
    have hentry : ∀ ts : ThreadState, ts.onMethodEntry.2.hybrid = ts.hybrid := by
      intro ts
      fun_cases ThreadState.onMethodEntry ts <;> rfl
    have hsame : (d.methodEntry isCFrame sourceFile).state.hybrid = d.state.hybrid := by
      unfold methodEntry
      dsimp only
      split
      · rfl
      · split <;> exact (hentry _).trans (hcheck _)
    show (d.methodEntry isCFrame sourceFile).state.hybrid.staticToDynamic = _ ∧ _
    simp [step, hsame]
  | framePop =>
    have hsame : d.framePop.state.hybrid = d.state.hybrid := by
      unfold framePop
      split
      · rfl
      · dsimp only
        split
        · fun_cases ThreadState.onFramePop d.state <;> rfl
        · rfl
    simp [step, hsame]
  | singleStep location hit =>
    show (d.state.onSingleStep location hit).hybrid.staticToDynamic = _ ∧
      ((d.state.onSingleStep location hit).hybrid.dynamicToStatic = true → _)
    fun_cases ThreadState.onSingleStep d.state location hit <;> simp_all
  | exception uncaught =>
    show (d.state.onException uncaught).hybrid.staticToDynamic = _ ∧
      ((d.state.onException uncaught).hybrid.dynamicToStatic = true → _)
    fun_cases ThreadState.onException d.state uncaught <;> simp

end Debuggee

namespace DebuggerImpl

variable {info : DebugInfo} {dbg dbg' : DebuggerImpl} {method : PtMethod} {stackDepth offset : Nat}

theorem hybrid_step {type : StepperType} {failMessage : String} {toStatic : Bool}
    {response : DispatchResponse}
    (h : dbg.step info type failMessage toStatic method stackDepth offset = (response, dbg')) :
    dbg'.hybrid = if response = .ok then
        { dbg.hybrid with
          dynamicToStatic := dbg.hybrid.dynamicToStatic || (toStatic && dbg.isHybrid) }
      else dbg.hybrid := by
  revert h
  fun_cases step info type failMessage toStatic dbg method stackDepth offset <;> rintro ⟨⟩
  all_goals simp

theorem hybrid_dispatch (hhybrid : dbg.isHybrid = true) {command : ResumeKind}
    {response : DispatchResponse}
    (h : dbg.dispatch info command method stackDepth offset = (response, dbg')) :
    dbg'.hybrid = if response = .ok then
        { dbg.hybrid with dynamicToStatic := command.flagAfter dbg.hybrid.dynamicToStatic }
      else dbg.hybrid := by
  cases command with
  | resume =>
    change dbg.resume = _ at h
    revert h
    fun_cases resume dbg <;> rintro ⟨⟩
    · simp
    · simp [hhybrid, ResumeKind.flagAfter]
  | stepInto | stepOver | stepOut => simp [hybrid_step h, hhybrid, ResumeKind.flagAfter]

end DebuggerImpl

namespace JSPtHooks

variable (info : DebugInfo) (hooks : JSPtHooks)

theorem flags_dispatch (command : ResumeKind) (offset : Nat) :
    (hooks.dispatch info command offset).2.flags =
      if (hooks.dispatch info command offset).1 = .ok then
        { hooks.flags with dynamicToStatic := command.flagAfter hooks.flags.dynamicToStatic }
      else hooks.flags := by
  show (hooks.thread.dispatch info command offset).2.hybrid =
    if (hooks.thread.dispatch info command offset).1 = .ok then _ else _
  unfold JsThread.dispatch
  split
  · rfl
  · exact DebuggerImpl.hybrid_dispatch hooks.isHybrid rfl

theorem flags_step (e : JsEvent) :
    (hooks.step info e).flags.dynamicToStatic = hooks.flags.dynamicToStatic ∧
      ((hooks.step info e).flags.staticToDynamic = true → hooks.flags.staticToDynamic = true) := by
  cases e with
  | call method | ret => exact ⟨rfl, id⟩
  | singleStep bcOffset => exact (hooks.thread.singleStep_spec info bcOffset).2

end JSPtHooks

/-! ### Runs -/

namespace HybridDebuggers

variable {Θ Δ : Type*} [DecidableEq Θ] [DecidableEq Δ] (info : DebugInfo) (s : HybridDebuggers Θ Δ)

omit [DecidableEq Θ] [DecidableEq Δ] in
theorem flags_dynamic (v : Δ) : (s.dynamic v).flags = s.flags :=
  rfl

variable (e : HybridEvent Θ Δ)

theorem static_step :
    SideStep s.flags.staticToDynamic s.lastStatic (s.executedStatic e)
      (s.step info e).flags.staticToDynamic (s.step info e).lastStatic := by
  fun_cases step info s e
  case case1 t command hexec _ =>
    rw [executedStatic, if_pos hexec]
    refine ⟨rfl, ?_, nofun⟩
    rintro _ ⟨⟩
    exact congrArg _ (Debuggee.hybrid_dispatch hexec)
  case case2 t command hexec =>
    rw [executedStatic, if_neg hexec]
    exact .of_none id
  case case4 t e _ => exact .of_none fun h => ((s.static t).hybrid_step e).1.symm.trans h
  case case5 v command offset hooks hres _ | case6 v command offset message hooks hres =>
    have hflags := (s.dynamic v).flags_dispatch info command offset
    rw [hres, flags_dynamic] at hflags
    exact .of_none fun h => by simpa +zetaDelta [setDynamic, hflags] using h
  case case8 v e _ => exact .of_none ((s.dynamic v).flags_step info e).2
  all_goals exact .of_none id

theorem dynamic_step :
    SideStep s.flags.dynamicToStatic s.lastDynamic (s.executedDynamic info e)
      (s.step info e).flags.dynamicToStatic (s.step info e).lastDynamic := by
  fun_cases step info s e
  case case1 t command hexec _ =>
    have hsame := congrArg HybridSingleStepper.dynamicToStatic (Debuggee.hybrid_dispatch hexec)
    exact .of_none hsame.symm.trans
  case case4 t e _ => exact .of_none ((s.static t).hybrid_step e).2
  case case5 v command offset hooks hres _ =>
    have hflags := (s.dynamic v).flags_dispatch info command offset
    rw [hres, flags_dynamic] at hflags
    rw [executedDynamic, hres]
    exact ⟨rfl, by simp +zetaDelta [setDynamic, hflags], nofun⟩
  case case6 v command offset message hooks hres =>
    have hflags := (s.dynamic v).flags_dispatch info command offset
    rw [hres, flags_dynamic] at hflags
    rw [executedDynamic, hres]
    exact .of_none fun h => by simpa +zetaDelta [setDynamic, hflags] using h
  case case8 v e _ => exact .of_none ((s.dynamic v).flags_step info e).1.symm.trans
  all_goals exact .of_none id

/-- Both flags are fresh. -/
structure Fresh (s : HybridDebuggers Θ Δ) : Prop where
  static : FreshFlag s.flags.staticToDynamic s.lastStatic
  dynamic : FreshFlag s.flags.dynamicToStatic s.lastDynamic

/-- No step over or resume has left a flag in force. -/
structure Cleared (s : HybridDebuggers Θ Δ) : Prop where
  static : ClearedFlag s.flags.staticToDynamic s.lastStatic
  dynamic : ClearedFlag s.flags.dynamicToStatic s.lastDynamic

/-- A step over is executed only while the flag of its side is clear. -/
def OverFits (s : HybridDebuggers Θ Δ) (e : HybridEvent Θ Δ) : Prop :=
  (s.executedStatic e = some .stepOver → s.flags.staticToDynamic = false) ∧
    (s.executedDynamic info e = some .stepOver → s.flags.dynamicToStatic = false)

variable (statics : Θ → Debuggee) (dynamics : Δ → JSPtHooks)

omit [DecidableEq Θ] [DecidableEq Δ] in
theorem fresh_start : (start statics dynamics).Fresh :=
  ⟨fun h => absurd h (by simp [start]), fun h => absurd h (by simp [start])⟩

variable {s : HybridDebuggers Θ Δ} {e : HybridEvent Θ Δ}

theorem Fresh.step (hs : s.Fresh) (he : s.OverFits info e) : (s.step info e).Fresh :=
  ⟨(s.static_step info e).fresh hs.static he.1, (s.dynamic_step info e).fresh hs.dynamic he.2⟩

theorem not_cleared_step (he : ¬ s.OverFits info e) : ¬ (s.step info e).Cleared := by
  intro hcleared
  refine he ⟨fun hover => ?_, fun hover => ?_⟩
  · by_contra hflag
    exact (s.static_step info e).not_cleared hover (by simpa using hflag) hcleared.static
  · by_contra hflag
    exact (s.dynamic_step info e).not_cleared hover (by simpa using hflag) hcleared.dynamic

theorem step_pausedByDynamic (h : s.pausedByDynamic e = true) :
    s.flags.dynamicToStatic = true ∧ (s.step info e).flags.dynamicToStatic = false ∧
      ∃ t, ((s.step info e).statics t).state.paused = true := by
  unfold pausedByDynamic at h
  split at h
  · next t location hit =>
      simp only [Bool.and_eq_true, Bool.not_eq_true'] at h
      obtain ⟨⟨hrun, hstart⟩, hflag⟩ := h
      have hset : (s.static t).state.hybrid.dynamicToStatic = true := hflag
      refine ⟨hflag, ?_, t, ?_⟩
      all_goals
        simp [step, setStatic, hrun, Debuggee.step, ThreadState.onSingleStep, hstart, hset]
  · simp at h

theorem step_pausedByStatic (h : s.pausedByStatic e = true) :
    s.flags.staticToDynamic = true ∧ (s.step info e).flags.staticToDynamic = false ∧
      ∃ v, ((s.step info e).dynamics v).paused = true := by
  unfold pausedByStatic at h
  split at h
  · next v bcOffset =>
      simp only [Bool.and_eq_true, Bool.not_eq_true'] at h
      obtain ⟨⟨⟨hrun, hfirst⟩, hskip⟩, hflag⟩ := h
      have hset : (s.dynamic v).thread.debugger.hybrid.staticToDynamic = true := hflag
      have hafter : (s.dynamic v).thread.singleStep info bcOffset =
          { (s.dynamic v).thread.debugger with
            hybrid.staticToDynamic := false
            singleStepper := none
            debuggerState := .paused } := by
        simp [JsThread.singleStep, hfirst, JsThread.pausedFromStatic, (s.dynamic v).isHybrid, hset,
          DebuggerImpl.notifyPaused, hskip]
      refine ⟨hflag, ?_, v, ?_⟩
      · simp [step, setDynamic, hrun, JSPtHooks.step, JsThread.step, JSPtHooks.flags, hafter]
      · simp only [step, setDynamic, hrun, Bool.false_eq_true, if_false, Function.update_self]
        simp [JSPtHooks.paused, JSPtHooks.step, JsThread.step, hafter]
  · simp at h

/-- **Pauses at the border** go back to a step into or out of a function, and
no step over or resume leaves a flag in force, in exactly those runs in which
every step over finds the flag of its side clear. -/
theorem flags_in_force_iff (statics : Θ → Debuggee) (dynamics : Δ → JSPtHooks)
    (events : List (HybridEvent Θ Δ)) :
    (∀ k, (stateAt (step info) (start statics dynamics) events k).Cleared ∧
      ∀ e, events[k]? = some e →
        ((stateAt (step info) (start statics dynamics) events k).pausedByDynamic e = true →
          ∃ kind ∈ (stateAt (step info) (start statics dynamics) events k).lastDynamic,
            kind.crosses = true) ∧
        ((stateAt (step info) (start statics dynamics) events k).pausedByStatic e = true →
          ∃ kind ∈ (stateAt (step info) (start statics dynamics) events k).lastStatic,
            kind.crosses = true)) ↔
      Admits (step info) (OverFits info) (start statics dynamics) events := by
  constructor
  · intro h
    exact (forall_stateAt_iff_admits (fun _ hs => ⟨hs.static.cleared, hs.dynamic.cleared⟩)
      (fun _ _ hs he => hs.step info he) (fun _ _ _ he => not_cleared_step info he)
      (fresh_start statics dynamics) events).mp fun k => (h k).1
  · intro hadmits k
    have hfresh := hadmits.invariant (fun _ _ hs he => hs.step info he)
      (fresh_start statics dynamics) k
    refine ⟨⟨hfresh.static.cleared, hfresh.dynamic.cleared⟩, fun e _ => ⟨fun hpause => ?_,
      fun hpause => ?_⟩⟩
    · exact hfresh.dynamic (step_pausedByDynamic info hpause).1
    · exact hfresh.static (step_pausedByStatic info hpause).1

/-! ### A step over that crosses the border -/

/-- Debug information of a VM without line tables. -/
def noLines : DebugInfo where
  hasExtractor := fun _ => true
  matchScripts := fun _ => true
  lineNumberTable := fun _ => []
  matchLineWithOffset := fun _ _ => 0
  increasing := fun _ => List.Pairwise.nil
  matchLine_eq := by
    intro m offset line h
    exact absurd h (by simp [lineOf])

def staticMain : Debuggee where
  state := {}
  frames := []

def dynamicMain : JSPtHooks where
  thread :=
    { stack :=
        { activations := [⟨0, ⟨"app.abc", 1⟩⟩]
          nextId := 1
          id_lt := by decide
          nodup := by decide }
      debugger := { isHybrid := true } }
  isHybrid := rfl

/-- Both sides pause at their start.  Then the static thread steps into the
next line and over the one after it, and a function of the dynamic side is
called from there. -/
def stepIntoThenOver : List (HybridEvent Unit Unit) :=
  [.dynamicEvent () (.singleStep 0),
    .dynamicCommand () .resume 0,
    .staticEvent () (.methodEntry false (some "main.ets")),
    .staticEvent () (.singleStep ⟨"main.abc", 1, 0⟩ false),
    .staticCommand () (.stepInto [⟨"main.abc", 1, 0⟩]),
    .staticEvent () (.singleStep ⟨"main.abc", 1, 4⟩ false),
    .staticCommand () (.stepOver [⟨"main.abc", 1, 4⟩]),
    .dynamicEvent () (.singleStep 0)]

/-- The dynamic side pauses because of the flag, although the last command on
the static side was the step over. -/
theorem stepOver_pauses_across :
    (stateAt (step noLines) (start (fun _ => staticMain) (fun _ => dynamicMain))
        stepIntoThenOver 7).pausedByStatic (.dynamicEvent () (.singleStep 0)) = true ∧
      (stateAt (step noLines) (start (fun _ => staticMain) (fun _ => dynamicMain))
        stepIntoThenOver 7).lastStatic = some .stepOver ∧
      ((stateAt (step noLines) (start (fun _ => staticMain) (fun _ => dynamicMain))
        stepIntoThenOver 8).dynamics ()).paused = true := by
  refine ⟨?_, ?_, ?_⟩ <;> decide

end HybridDebuggers

end ArkToolchain
