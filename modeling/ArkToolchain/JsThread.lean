/-
A JS thread under the debugger: the stack of activations and the callbacks of
tooling/dynamic/backend/js_pt_hooks.cpp.

Every call creates an activation with an identity of its own, which is never used twice; so an
activation is current at its own depth only (`CallStack.Later.depth_le`).

`singleStep` is the whole of `JSPtHooks::SingleStep`.  A callback gets to the stepper only if the
start of the script has been reported and the static side has not asked for a pause; `Notifies`
says so, and no event of the thread changes it (`Notifies.step`).
-/
import ArkToolchain.SingleStepper
import ArkToolchain.Traces

namespace ArkToolchain

/-! ### Activations -/

structure Activation where
  id : Nat
  method : PtMethod
  deriving DecidableEq

/-- The activations of a thread, the current one first; identities are not
used twice. -/
structure CallStack where
  activations : List Activation
  nextId : Nat
  id_lt : ∀ a ∈ activations, a.id < nextId
  nodup : (activations.map Activation.id).Nodup

namespace CallStack

def depth (stack : CallStack) : Nat :=
  stack.activations.length

def call (stack : CallStack) (method : PtMethod) : CallStack where
  activations := ⟨stack.nextId, method⟩ :: stack.activations
  nextId := stack.nextId + 1
  id_lt := by
    intro a ha
    rcases List.mem_cons.mp ha with rfl | ha
    · exact Nat.lt_succ_self _
    · exact Nat.lt_succ_of_lt (stack.id_lt a ha)
  nodup := by
    refine List.nodup_cons.mpr ⟨fun hmem => ?_, stack.nodup⟩
    obtain ⟨a, ha, hid⟩ := List.mem_map.mp hmem
    exact absurd (stack.id_lt a ha) (by rw [hid]; exact Nat.lt_irrefl _)

def ret (stack : CallStack) : CallStack where
  activations := stack.activations.tail
  nextId := stack.nextId
  id_lt := fun a ha => stack.id_lt a (List.mem_of_mem_tail ha)
  nodup := by
    rw [List.map_tail]
    exact stack.nodup.tail

end CallStack

/-! ### The thread -/

inductive JsEvent
  | call (method : PtMethod)
  | ret
  | singleStep (bcOffset : Nat)
  deriving DecidableEq

/-- A thread, with its debugger and the hooks that call it. -/
structure JsThread where
  stack : CallStack
  /-- `firstTime_`: the start of a script has not been reported -/
  firstTime : Bool := true
  debugger : DebuggerImpl

def CallStack.after (stack : CallStack) : JsEvent → CallStack
  | .call method => stack.call method
  | .ret => stack.ret
  | .singleStep _ => stack

/-- A return needs an activation to return from.  A callback is for an
instruction of the current activation; its offset is less than the code size,
which is a 32-bit number. -/
def JsEvent.Fits (stack : CallStack) : JsEvent → Prop
  | .call _ => True
  | .ret => stack.activations ≠ []
  | .singleStep bcOffset => stack.activations ≠ [] ∧ bcOffset < uint32Max

instance JsEvent.decidableFits (stack : CallStack) (e : JsEvent) : Decidable (e.Fits stack) :=
  match e with
  | .call _ => inferInstanceAs (Decidable True)
  | .ret => inferInstanceAs (Decidable (stack.activations ≠ []))
  | .singleStep bcOffset =>
    inferInstanceAs (Decidable (stack.activations ≠ [] ∧ bcOffset < uint32Max))

def JsWellNested (stack : CallStack) (events : List JsEvent) : Prop :=
  Admits CallStack.after (fun stack e => e.Fits stack) stack events

instance decidableJsWellNested (stack : CallStack) (events : List JsEvent) :
    Decidable (JsWellNested stack events) :=
  inferInstanceAs (Decidable (Admits _ _ stack events))

namespace JsThread

variable (info : DebugInfo) (thread : JsThread)

/-- `NotifySingleStep` for the current activation. -/
def notifySingleStep (bcOffset : Nat) : Bool × DebuggerImpl :=
  match thread.stack.activations with
  | [] => (false, thread.debugger)
  | a :: _ => thread.debugger.notifySingleStep info a.method thread.stack.depth bcOffset

/-- The static side has asked for a pause. -/
def pausedFromStatic : Bool :=
  thread.debugger.isHybrid && thread.debugger.hybrid.staticToDynamic

/-- `JSPtHooks::SingleStep`.  The pause at the start of a script and the one for the static side
come before `NotifySingleStep`. -/
def singleStep (bcOffset : Nat) : DebuggerImpl :=
  let dbg := thread.debugger
  if thread.firstTime then dbg.notifyPausedOnStart
  else if thread.pausedFromStatic then
    ({ dbg with hybrid.staticToDynamic := false } : DebuggerImpl).notifyPaused
  else
    let (pause, debugger) := thread.notifySingleStep info bcOffset
    if pause then debugger.notifyPaused else debugger

/-- One event of the thread. -/
def step (e : JsEvent) : JsThread :=
  match e with
  | .singleStep bcOffset =>
    { thread with firstTime := false, debugger := thread.singleStep info bcOffset }
  | _ => { thread with stack := thread.stack.after e }

/-- `StepOver` for the current activation at the given offset. -/
def stepOver (offset : Nat) : JsThread :=
  match thread.stack.activations with
  | [] => thread
  | a :: _ =>
    { thread with
      debugger := (thread.debugger.stepOver info a.method thread.stack.depth offset).2 }

def stepInto (offset : Nat) : JsThread :=
  match thread.stack.activations with
  | [] => thread
  | a :: _ =>
    { thread with
      debugger := (thread.debugger.stepInto info a.method thread.stack.depth offset).2 }

def stepOut (offset : Nat) : JsThread :=
  match thread.stack.activations with
  | [] => thread
  | a :: _ =>
    { thread with
      debugger := (thread.debugger.stepOut info a.method thread.stack.depth offset).2 }

end JsThread

namespace DebuggerImpl

variable (dbg : DebuggerImpl)

@[simp] theorem isHybrid_notifyPaused : dbg.notifyPaused.isHybrid = dbg.isHybrid := by
  unfold notifyPaused
  split <;> rfl

@[simp] theorem hybrid_notifyPaused : dbg.notifyPaused.hybrid = dbg.hybrid := by
  unfold notifyPaused
  split <;> rfl

end DebuggerImpl

namespace JsThread

variable (info : DebugInfo) (thread : JsThread)

/-- `NotifySingleStep` changes neither the mode nor the flags. -/
theorem notifySingleStep_keeps (bcOffset : Nat) :
    (thread.notifySingleStep info bcOffset).2.isHybrid = thread.debugger.isHybrid ∧
      (thread.notifySingleStep info bcOffset).2.hybrid = thread.debugger.hybrid := by
  unfold notifySingleStep
  split
  · exact ⟨rfl, rfl⟩
  next a _ _ =>
    fun_cases thread.debugger.notifySingleStep info a.method thread.stack.depth bcOffset
    all_goals exact ⟨rfl, rfl⟩

variable {info thread}

/-- Callbacks come to `NotifySingleStep`. -/
structure Notifies (thread : JsThread) : Prop where
  started : thread.firstTime = false
  alone : thread.pausedFromStatic = false

namespace Notifies

variable (h : thread.Notifies)
include h

theorem singleStep_eq (bcOffset : Nat) :
    thread.singleStep info bcOffset =
      if (thread.notifySingleStep info bcOffset).1 then
        (thread.notifySingleStep info bcOffset).2.notifyPaused
      else (thread.notifySingleStep info bcOffset).2 := by
  simp [singleStep, h.started, h.alone]

theorem step (e : JsEvent) : (thread.step info e).Notifies := by
  cases e with
  | call method | ret => exact ⟨h.started, h.alone⟩
  | singleStep bcOffset =>
    have halone := h.alone
    obtain ⟨hmode, hflags⟩ := thread.notifySingleStep_keeps info bcOffset
    rw [pausedFromStatic, ← hmode, ← hflags] at halone
    refine ⟨rfl, ?_⟩
    rw [pausedFromStatic, JsThread.step, h.singleStep_eq]
    split
    · simpa using halone
    · exact halone

/-- No event of the thread changes this. -/
theorem stateAt (events : List JsEvent) (k : Nat) :
    (ArkToolchain.stateAt (JsThread.step info) thread events k).Notifies :=
  stateAt_invariant (fun _ e h => h.step e) h events k

end Notifies

end JsThread

/-! ### Where the starting activation can be -/

namespace CallStack

/-- What is left of an earlier stack is at the bottom, and everything above it
is newer. -/
structure Later (stack₀ stack : CallStack) : Prop where
  nextId_le : stack₀.nextId ≤ stack.nextId
  split : ∃ above below, stack.activations = above ++ below ∧ below <:+ stack₀.activations ∧
    ∀ a ∈ above, stack₀.nextId ≤ a.id

variable (stack : CallStack)

theorem Later.refl : Later stack stack :=
  ⟨Nat.le_refl _, [], stack.activations, rfl, List.suffix_refl _, by simp⟩

theorem Later.after {stack₀ stack : CallStack} (h : Later stack₀ stack) (e : JsEvent) :
    Later stack₀ (stack.after e) := by
  obtain ⟨hnext, above, below, hsplit, hbelow, habove⟩ := h
  cases e with
  | call method =>
    refine ⟨Nat.le_succ_of_le hnext, ⟨stack.nextId, method⟩ :: above, below, ?_, hbelow, ?_⟩
    · show _ :: stack.activations = _
      rw [hsplit]
      rfl
    · intro a ha
      rcases List.mem_cons.mp ha with rfl | ha
      · exact hnext
      · exact habove a ha
  | ret =>
    refine ⟨hnext, ?_⟩
    cases above with
    | nil =>
      -- the return leaves an activation of the earlier stack
      refine ⟨[], below.tail, ?_, (List.tail_suffix below).trans hbelow, by simp⟩
      show stack.activations.tail = _
      rw [hsplit]
      rfl
    | cons a above =>
      refine ⟨above, below, ?_, hbelow, fun x hx => habove x (List.mem_cons_of_mem a hx)⟩
      show stack.activations.tail = _
      rw [hsplit]
      rfl
  | singleStep bcOffset => exact ⟨hnext, above, below, hsplit, hbelow, habove⟩

theorem later_stateAt (events : List JsEvent) (k : Nat) :
    Later stack (stateAt CallStack.after stack events k) :=
  stateAt_invariant (fun _ e h => h.after e) (Later.refl stack) events k

theorem Later.depth_le {stack₀ stack : CallStack} (h : Later stack₀ stack) {start : Activation}
    {rest : List Activation} (hstart : stack₀.activations = start :: rest)
    (hhead : stack.activations.head? = some start) : stack₀.depth ≤ stack.depth := by
  obtain ⟨-, above, below, hsplit, hbelow, habove⟩ := h
  have hlt : start.id < stack₀.nextId := stack₀.id_lt start (by simp [hstart])
  cases above with
  | cons a above =>
    -- a newer activation has another identity
    obtain rfl : a = start := by simpa [hsplit] using hhead
    have := habove a (by simp)
    omega
  | nil =>
    rw [hstart, List.suffix_cons_iff] at hbelow
    rcases hbelow with hall | hrest
    · rw [depth, depth, hstart, hsplit, hall]
      exact Nat.le_refl _
    · -- the identity of the starting activation occurs once
      have hmem : start ∈ rest := by
        apply hrest.subset
        exact List.mem_of_head? (by simpa [hsplit] using hhead)
      have hnodup := stack₀.nodup
      rw [hstart, List.map_cons, List.nodup_cons] at hnodup
      exact absurd (List.mem_map_of_mem hmem) hnodup.1

end CallStack

end ArkToolchain
