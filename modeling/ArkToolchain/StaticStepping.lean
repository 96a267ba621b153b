/-
Stepping on the static side, in terms of call depth.

The VM's own view of a trace is a stack that says which frames are native (`stackAfter`); the
depth of a callback is the height of that stack.  The debugger has only its flag and the
reported pops. The invariant that links the two is `Entered`: of the frames above the lowest
depth reached since the command, the lowest one that runs bytecode has its pop reported, no
other one has, and the flag is set exactly if there is such a frame.  Marks that earlier steps
left on the frames below do no harm, because such a frame is popped only when the lowest depth
sinks anyway.

Main result: `stepping_refines_depth`.
-/
import ArkToolchain.ThreadState
import ArkToolchain.Traces

namespace ArkToolchain

open ThreadState

/-! ### The specification -/

/-- What an event does to the stack; an entry says whether the frame is
native. -/
def stackAfter (stack : List Bool) : VmEvent → List Bool
  | .methodEntry isCFrame _ => isCFrame :: stack
  | .framePop => stack.tail
  | .singleStep _ _ => stack
  | .exception _ => stack

/-- Pops need a frame, and only bytecode is stepped through. -/
def VmEvent.Fits (stack : List Bool) : VmEvent → Prop
  | .methodEntry _ _ => True
  | .framePop => stack ≠ []
  | .singleStep _ _ => stack.head? = some false
  | .exception _ => True

instance VmEvent.decidableFits (stack : List Bool) (e : VmEvent) : Decidable (e.Fits stack) :=
  match e with
  | .methodEntry _ _ => inferInstanceAs (Decidable True)
  | .framePop => inferInstanceAs (Decidable (stack ≠ []))
  | .singleStep _ _ => inferInstanceAs (Decidable (stack.head? = some false))
  | .exception _ => inferInstanceAs (Decidable True)

section

variable (stack : List Bool) (events : List VmEvent)

def WellNested : Prop :=
  Admits stackAfter (fun stack e => e.Fits stack) stack events

instance decidableWellNested : Decidable (WellNested stack events) :=
  inferInstanceAs (Decidable (Admits _ _ stack events))

/-- The call depth before event `k`. -/
def depthAt (k : Nat) : Nat :=
  (stateAt stackAfter stack events k).length

/-- A step over ends at a callback that is not deeper than any point since
the command and lies on another line. -/
def StepOverEnds (locations : List PtLocation) (events : List VmEvent) (k : Nat) : Prop :=
  ∃ location hit, events[k]? = some (.singleStep location hit) ∧
    depthAt stack events k ≤ lowestAt (depthAt stack events) k ∧ location ∉ locations

/-- A step out ends at a callback after the starting frame has been popped
that is not deeper than any point since the command. -/
def StepOutEnds (k : Nat) : Prop :=
  ∃ location hit, events[k]? = some (.singleStep location hit) ∧
    lowestAt (depthAt stack events) k < stack.length ∧
    depthAt stack events k ≤ lowestAt (depthAt stack events) k

end

namespace Debuggee

def stack (d : Debuggee) : List Bool :=
  d.frames.map VmFrame.isCFrame

/-- The event makes the thread pause for a reason other than the step: the
first callback in a new source file, a step that comes from the dynamic side,
a breakpoint or an exception. -/
def Interrupts (d : Debuggee) : VmEvent → Prop
  | .singleStep _ hit =>
    d.state.breakOnStartFlag = true ∨ d.state.hybrid.dynamicToStatic = true ∨
      d.state.shouldStopAtBreakpoint hit = true
  | .exception uncaught => (d.state.onException uncaught).paused = true
  | _ => False

def InterruptedAt (d : Debuggee) (events : List VmEvent) (k : Nat) : Prop :=
  ∃ e, events[k]? = some e ∧ (stateAt step d events k).Interrupts e

/-- The thread is paused after event `k`. -/
def PausedAfter (d : Debuggee) (events : List VmEvent) (k : Nat) : Prop :=
  (stateAt step d events (k + 1)).state.paused = true

instance decidablePausedAfter (d : Debuggee) (events : List VmEvent) (k : Nat) :
    Decidable (d.PausedAfter events k) :=
  inferInstanceAs (Decidable ((stateAt step d events (k + 1)).state.paused = true))

/-! ### What events do -/

theorem checkSourceFile_cases (d : Debuggee) (sourceFile : Option String) :
    d.checkSourceFile sourceFile = d ∨
      (d.checkSourceFile sourceFile).state.breakOnStartFlag = true := by
  fun_cases checkSourceFile d sourceFile
  · exact .inl rfl
  · exact .inr rfl
  · exact .inl rfl

@[simp] theorem frames_checkSourceFile (d : Debuggee) (sourceFile : Option String) :
    (d.checkSourceFile sourceFile).frames = d.frames := by
  fun_cases checkSourceFile d sourceFile <;> rfl

@[simp] theorem paused_checkSourceFile (d : Debuggee) (sourceFile : Option String) :
    (d.checkSourceFile sourceFile).state.paused = d.state.paused := by
  fun_cases checkSourceFile d sourceFile <;> rfl

/-- `MethodEntry` for a frame that runs bytecode. -/
theorem methodEntry_false (d : Debuggee) (sourceFile : Option String) :
    let d' := checkSourceFile { d with frames := ⟨false, false⟩ :: d.frames } sourceFile
    d.methodEntry false sourceFile =
      { d' with
        frames := ⟨false, d'.state.onMethodEntry.1⟩ :: d.frames
        state := d'.state.onMethodEntry.2 } := by
  intro d'
  have hf : d'.frames = ⟨false, false⟩ :: d.frames := frames_checkSourceFile _ _
  show (if d'.state.onMethodEntry.1 then
      ({ d' with state := d'.state.onMethodEntry.2 } : Debuggee).notifyFramePop
    else { d' with state := d'.state.onMethodEntry.2 }) = _
  rcases hn : d'.state.onMethodEntry.1 with - | -
  · simp [← hf]
  · simp [notifyFramePop, hf]

variable {d : Debuggee} {low : Nat}

/-- A step that watches entries and pops is under way. -/
def Watches (d : Debuggee) : Prop :=
  d.state.stepKind = .stepOver ∨ d.state.stepKind = .stepOut

/-- Entering a method while such a step is under way: the flag is set if the
method has bytecode, and the pop is to be reported if it was not set before. -/
def enterFrame (d : Debuggee) (isCFrame : Bool) : Debuggee :=
  { d with
    frames := ⟨isCFrame, !isCFrame && !d.state.methodEntered⟩ :: d.frames
    state.methodEntered := d.state.methodEntered || !isCFrame }

/-- Popping the frame `f` meanwhile. -/
def dropFrame (d : Debuggee) (f : VmFrame) (fs : List VmFrame) : Debuggee :=
  { d with
    frames := fs
    state.methodEntered := d.state.methodEntered && !f.notifyPop }

theorem methodEntry_cases (h : d.Watches) (isCFrame : Bool) (sourceFile : Option String) :
    (d.methodEntry isCFrame sourceFile).state.breakOnStartFlag = true ∨
      d.methodEntry isCFrame sourceFile = d.enterFrame isCFrame := by
  cases isCFrame with
  | true =>
    right
    simp [methodEntry, enterFrame]
  | false =>
    rw [methodEntry_false]
    rcases checkSourceFile_cases { d with frames := ⟨false, false⟩ :: d.frames } sourceFile
      with hsame | hnew
    · right
      rw [hsame]
      rcases h with h | h <;> simp [onMethodEntry, enterFrame, h]
    · left
      simpa using hnew

variable {f : VmFrame}

theorem framePop_eq (h : d.Watches) {fs : List VmFrame} (hf : d.frames = f :: fs) :
    d.framePop = d.dropFrame f fs := by
  rcases hn : f.notifyPop with - | -
  · simp [framePop, dropFrame, hf, hn]
  · rcases h with h | h <;> simp [framePop, dropFrame, hf, hn, onFramePop, h]

theorem stack_step (d : Debuggee) (e : VmEvent) : (d.step e).stack = stackAfter d.stack e := by
  cases e with
  | methodEntry isCFrame sourceFile =>
    cases isCFrame with
    | true => rfl
    | false =>
      show (d.methodEntry false sourceFile).stack = _
      rw [methodEntry_false]
      rfl
  | framePop =>
    show d.framePop.stack = _
    rcases hf : d.frames with - | ⟨f, fs⟩ <;> simp [framePop, stack, stackAfter, hf]
  | singleStep location hit | exception uncaught => rfl

theorem stack_stateAt (d : Debuggee) (events : List VmEvent) (k : Nat) :
    (stateAt step d events k).stack = stateAt stackAfter d.stack events k :=
  map_stateAt stack_step d events k

theorem depthAt_eq (d : Debuggee) (events : List VmEvent) (k : Nat) :
    depthAt d.stack events k = (stateAt step d events k).frames.length := by
  rw [depthAt, ← stack_stateAt, stack, List.length_map]

/-! ### Frames above the lowest depth -/

/-- The frames above the lowest depth, and the flag: the first frame that runs
bytecode has its pop reported and sets the flag. -/
inductive Entered : List VmFrame → Bool → Prop
  | nil : Entered [] false
  | native {fs b} : Entered fs b → Entered (⟨true, false⟩ :: fs) b
  | first {fs} : Entered fs false → Entered (⟨false, true⟩ :: fs) true
  | nested {fs} : Entered fs true → Entered (⟨false, false⟩ :: fs) true

variable {b : Bool}

theorem Entered.enter {fs : List VmFrame} (h : Entered fs b) (isCFrame : Bool) :
    Entered (⟨isCFrame, !isCFrame && !b⟩ :: fs) (b || !isCFrame) := by
  cases isCFrame with
  | true => simpa using h.native
  | false =>
    cases b with
    | true => exact h.nested
    | false => exact h.first

theorem Entered.pop {fs : List VmFrame} (h : Entered (f :: fs) b) :
    Entered fs (b && !f.notifyPop) := by
  cases h with
  | native h => simpa using h
  | first h | nested h => exact h

theorem Entered.eq_false (h : Entered [] b) : b = false := by
  cases h
  rfl

/-- In a frame that runs bytecode the flag is set, unless the frame is at the
lowest depth. -/
theorem Entered.eq_true {fs : List VmFrame} (h : Entered (f :: fs) b) (hf : f.isCFrame = false) :
    b = true := by
  cases h with
  | native h => simp at hf
  | first h | nested h => rfl

/-- The flag and the marks follow the lowest depth. -/
def Follows (d : Debuggee) (low : Nat) : Prop :=
  ∃ above below, d.frames = above ++ below ∧ below.length = low ∧
    Entered above d.state.methodEntered

/-- The starting frame of a step out is still on the stack: its pop is
reported, no pop above it is, and the flag is set. -/
def Inside (d : Debuggee) (start : Nat) : Prop :=
  ∃ above f below, d.frames = above ++ f :: below ∧ below.length + 1 = start ∧
    f.notifyPop = true ∧ (∀ g ∈ above, g.notifyPop = false) ∧ d.state.methodEntered = true

theorem Follows.enterFrame (h : d.Follows low) (isCFrame : Bool) :
    (d.enterFrame isCFrame).Follows (min low (d.frames.length + 1)) := by
  obtain ⟨above, below, hframes, hlow, henter⟩ := h
  refine ⟨_ :: above, below, ?_, ?_, henter.enter isCFrame⟩
  · rw [Debuggee.enterFrame, hframes]
    rfl
  · rw [hframes, List.length_append]
    omega

theorem Follows.dropFrame (h : d.Follows low) {fs : List VmFrame} (hf : d.frames = f :: fs) :
    (d.dropFrame f fs).Follows (min low fs.length) := by
  obtain ⟨above, below, hframes, hlow, henter⟩ := h
  rw [hf] at hframes
  cases above with
  | nil =>
    -- the lowest depth sinks, and nothing is above it
    subst hframes
    refine ⟨[], fs, rfl, ?_, ?_⟩
    · simp at hlow
      omega
    · show Entered [] (d.state.methodEntered && !f.notifyPop)
      rw [henter.eq_false]
      exact .nil
  | cons g above =>
    -- the popped frame is above the lowest depth, which stays
    rw [List.cons_append] at hframes
    obtain ⟨rfl, rfl⟩ := List.cons.inj hframes
    refine ⟨above, below, rfl, ?_, henter.pop⟩
    rw [List.length_append]
    omega

theorem Follows.methodEntered_iff (h : d.Follows low) (hfits : d.stack.head? = some false) :
    d.state.methodEntered = false ↔ d.frames.length ≤ low := by
  obtain ⟨above, below, hframes, hlow, henter⟩ := h
  cases above with
  | nil => simp [henter.eq_false, hframes, hlow]
  | cons f above =>
    have hf : f.isCFrame = false := by simpa [stack, hframes] using hfits
    simp [henter.eq_true hf, hframes]
    omega

variable {start : Nat}

theorem Inside.enterFrame (h : d.Inside start) (isCFrame : Bool) :
    (d.enterFrame isCFrame).Inside start := by
  obtain ⟨above, f, below, hframes, hstart, hf, habove, hflag⟩ := h
  refine ⟨⟨isCFrame, false⟩ :: above, f, below, by simp [Debuggee.enterFrame, hframes, hflag],
    hstart, hf, ?_, by simp [Debuggee.enterFrame, hflag]⟩
  intro g hg
  rcases List.mem_cons.mp hg with rfl | hg
  · rfl
  · exact habove g hg

/-- A pop leaves the starting frame where it is, or it is the pop of that
frame. -/
theorem Inside.dropFrame (h : d.Inside start) {fs : List VmFrame} (hf : d.frames = f :: fs) :
    (start ≤ fs.length ∧ (d.dropFrame f fs).Inside start) ∨
      (fs.length + 1 = start ∧ (d.dropFrame f fs).Follows fs.length) := by
  obtain ⟨above, g, below, hframes, hstart, hg, habove, hflag⟩ := h
  rw [hf] at hframes
  cases above with
  | nil =>
    -- the reported pop of the starting frame clears the flag
    obtain ⟨rfl, rfl⟩ := List.cons.inj hframes
    refine .inr ⟨hstart, [], fs, rfl, rfl, ?_⟩
    simpa [Debuggee.dropFrame, hg] using Entered.nil
  | cons g' above =>
    obtain ⟨rfl, rfl⟩ := List.cons.inj hframes
    have hg' : f.notifyPop = false := habove f (by simp)
    refine .inl ⟨by simp; omega, above, g, below, rfl, hstart, hg, ?_,
      by simp [Debuggee.dropFrame, hflag, hg']⟩
    intro x hx
    exact habove x (by simp [hx])

/-! ### Runs -/

theorem paused_methodEntry (d : Debuggee) (isCFrame : Bool) (sourceFile : Option String) :
    (d.methodEntry isCFrame sourceFile).state.paused = d.state.paused := by
  cases isCFrame with
  | true => rfl
  | false =>
    rw [methodEntry_false]
    simp

theorem breakOnStartFlag_methodEntry (h : d.state.breakOnStartFlag = true) (isCFrame : Bool)
    (sourceFile : Option String) :
    (d.methodEntry isCFrame sourceFile).state.breakOnStartFlag = true := by
  cases isCFrame with
  | true => exact h
  | false =>
    rw [methodEntry_false]
    simp
    rcases checkSourceFile_cases { d with frames := ⟨false, false⟩ :: d.frames } sourceFile
      with hsame | hnew
    · rw [hsame]
      exact h
    · exact hnew

theorem paused_framePop (d : Debuggee) : d.framePop.state.paused = d.state.paused := by
  fun_cases framePop d with
  | case1 => rfl
  | case2 f fs =>
    split <;> simp

theorem breakOnStartFlag_framePop (h : d.state.breakOnStartFlag = true) :
    d.framePop.state.breakOnStartFlag = true := by
  fun_cases framePop d with
  | case1 => exact h
  | case2 f fs =>
    split <;> simpa using h

/-- `Core low d` relates the debugger to the lowest depth since the command,
and `Ends location depth low` says when the step ends. -/
structure Tracks (Core : Nat → Debuggee → Prop) (Ends : PtLocation → Nat → Nat → Prop) : Prop where
  watches : ∀ {low d}, Core low d → d.Watches
  low_le : ∀ {low d}, Core low d → low ≤ d.frames.length
  enterFrame : ∀ {low d}, Core low d → ∀ isCFrame,
    Core (min low (d.frames.length + 1)) (d.enterFrame isCFrame)
  dropFrame : ∀ {low d}, Core low d → ∀ {f fs}, d.frames = f :: fs →
    Core (min low fs.length) (d.dropFrame f fs)
  ends : ∀ {low d}, Core low d → d.stack.head? = some false → ∀ location,
    (d.state.stepEnds location = true ↔ Ends location d.frames.length low)

variable {Core : Nat → Debuggee → Prop} {Ends : PtLocation → Nat → Nat → Prop} {e : VmEvent}

section

variable (ht : Tracks Core Ends) (h : d.state.breakOnStartFlag = true ∨ Core low d)
  (hrun : d.state.paused = false) (hfits : e.Fits d.stack)
include ht h hrun hfits

/-- An event that does not pause the thread keeps the relation, unless a new
source file overrides the step. -/
theorem Tracks.of_step (hrun' : (d.step e).state.paused = false) :
    (d.step e).state.breakOnStartFlag = true ∨
      Core (min low (d.step e).frames.length) (d.step e) := by
  -- an event that leaves the debuggee as it is keeps the lowest depth
  have hsame : d.step e = d → (d.step e).state.breakOnStartFlag = true ∨
      Core (min low (d.step e).frames.length) (d.step e) := by
    intro heq
    rw [heq]
    exact h.imp_right fun hcore => by rwa [Nat.min_eq_left (ht.low_le hcore)]
  cases e with
  | methodEntry isCFrame sourceFile =>
    rcases h with hflag | hcore
    · exact .inl (breakOnStartFlag_methodEntry hflag isCFrame sourceFile)
    · rcases methodEntry_cases (ht.watches hcore) isCFrame sourceFile with hflag | heq
      · exact .inl hflag
      · right
        show Core (min low (d.methodEntry isCFrame sourceFile).frames.length)
          (d.methodEntry isCFrame sourceFile)
        rw [heq]
        exact ht.enterFrame hcore isCFrame
  | framePop =>
    rcases h with hflag | hcore
    · exact .inl (breakOnStartFlag_framePop hflag)
    · -- a well-nested pop finds a frame
      obtain ⟨f, fs, hf⟩ : ∃ f fs, d.frames = f :: fs := by
        apply List.exists_cons_of_ne_nil
        intro hnil
        exact hfits (by simp [stack, hnil])
      right
      show Core (min low d.framePop.frames.length) d.framePop
      rw [framePop_eq (ht.watches hcore) hf]
      exact ht.dropFrame hcore hf
  | singleStep location hit =>
    apply hsame
    show ({ d with state := d.state.onSingleStep location hit } : Debuggee) = d
    rw [onSingleStep_eq_self d.state hrun location hit hrun']
  | exception uncaught =>
    apply hsame
    show ({ d with state := d.state.onException uncaught } : Debuggee) = d
    rw [onException_eq_self d.state hrun uncaught hrun']

theorem Tracks.paused_iff :
    (d.step e).state.paused = true ↔
      d.Interrupts e ∨
        ∃ location hit, e = .singleStep location hit ∧ Ends location d.frames.length low := by
  cases e with
  | methodEntry isCFrame sourceFile =>
    show (d.methodEntry isCFrame sourceFile).state.paused = true ↔ _
    simp [paused_methodEntry, hrun, Interrupts]
  | framePop =>
    show d.framePop.state.paused = true ↔ _
    simp [paused_framePop, hrun, Interrupts]
  | singleStep location hit =>
    show (d.state.onSingleStep location hit).paused = true ↔ _
    -- with the flag set the callback interrupts the step, whatever the relation
    rcases hflag : d.state.breakOnStartFlag with - | -
    · have hcore : Core low d := h.resolve_left (by simp [hflag])
      rw [paused_onSingleStep_iff d.state hflag, ht.ends hcore hfits]
      simp [Interrupts, hflag]
    · simp [paused_onSingleStep_of_flag d.state hflag, Interrupts, hflag]
  | exception uncaught => simp [Debuggee.step, Interrupts]

end

variable {events : List VmEvent}

section

variable (ht : Tracks Core Ends) (h : d.state.breakOnStartFlag = true ∨ Core d.frames.length d)
  (hrun : d.state.paused = false) (hnest : WellNested d.stack events)
include ht h hrun hnest

theorem Tracks.running (k : Nat) (hk : ∀ j < k, ¬ d.PausedAfter events j) :
    let d' := stateAt step d events k
    d'.state.paused = false ∧
      (d'.state.breakOnStartFlag = true ∨ Core (lowestAt (depthAt d.stack events) k) d') := by
  induction k with
  | zero =>
    refine ⟨hrun, h.imp_right fun hcore => ?_⟩
    rw [lowestAt, depthAt_eq]
    exact hcore
  | succ k ih =>
    obtain ⟨hrunk, hcore⟩ := ih fun j hj => hk j (by omega)
    have hrun' : (stateAt step d events (k + 1)).state.paused = false := by
      simpa [PausedAfter] using hk k (by omega)
    refine ⟨hrun', ?_⟩
    rcases he : events[k]? with - | e
    · -- behind the end of the trace nothing changes
      rw [stateAt_succ_of_none he]
      refine hcore.imp_right fun hcore => ?_
      rw [lowestAt, depthAt_eq, stateAt_succ_of_none he, Nat.min_eq_left (ht.low_le hcore)]
      exact hcore
    · have hfits : e.Fits (stateAt step d events k).stack := by
        rw [stack_stateAt]
        exact hnest.fits he
      rw [lowestAt, depthAt_eq]
      rw [stateAt_succ he] at hrun' ⊢
      exact ht.of_step hcore hrunk hfits hrun'

/-- **The next pause**: the first event that interrupts the step or ends it. -/
theorem Tracks.firstAt (k : Nat) :
    FirstAt (d.PausedAfter events) k ↔
      FirstAt (fun k => d.InterruptedAt events k ∨
        ∃ location hit, events[k]? = some (.singleStep location hit) ∧
          Ends location (depthAt d.stack events k) (lowestAt (depthAt d.stack events) k)) k := by
  apply firstAt_iff
  intro k hk
  obtain ⟨hrunk, hcore⟩ := ht.running h hrun hnest k hk
  rcases he : events[k]? with - | e
  · simp [PausedAfter, InterruptedAt, stateAt_succ_of_none he, hrunk, he]
  · have hfits : e.Fits (stateAt step d events k).stack := by
      rw [stack_stateAt]
      exact hnest.fits he
    rw [PausedAfter, stateAt_succ he, ht.paused_iff hcore hrunk hfits, depthAt_eq]
    simp [InterruptedAt, he]

end

/-! ### The two commands -/

theorem Follows.low_le (h : d.Follows low) : low ≤ d.frames.length := by
  obtain ⟨above, below, hframes, hlow, -⟩ := h
  rw [hframes, List.length_append]
  omega

theorem Inside.start_le (h : d.Inside start) : start ≤ d.frames.length := by
  obtain ⟨above, f, below, hframes, hstart, -⟩ := h
  rw [hframes, List.length_append, List.length_cons]
  omega

theorem tracks_stepOver (locations : List PtLocation) :
    Tracks
      (fun low d => d.state.stepKind = .stepOver ∧ d.state.stepLocations = locations ∧
        d.Follows low)
      (fun location depth low => depth ≤ low ∧ location ∉ locations) where
  watches h := .inl h.1
  low_le h := h.2.2.low_le
  enterFrame h isCFrame := ⟨h.1, h.2.1, h.2.2.enterFrame isCFrame⟩
  dropFrame h _ _ hf := ⟨h.1, h.2.1, h.2.2.dropFrame hf⟩
  ends := by
    rintro low d ⟨hkind, rfl, hfollows⟩ hfits location
    rw [← hfollows.methodEntered_iff hfits]
    simp [stepEnds, hkind]

theorem tracks_stepOut (start : Nat) :
    Tracks
      (fun low d => d.state.stepKind = .stepOut ∧
        ((low = start ∧ d.Inside start) ∨ (low < start ∧ d.Follows low)))
      (fun _ depth low => low < start ∧ depth ≤ low) where
  watches h := .inr h.1
  low_le := by
    rintro low d ⟨-, ⟨rfl, h⟩ | ⟨-, h⟩⟩
    · exact h.start_le
    · exact h.low_le
  enterFrame := by
    rintro low d ⟨hkind, h⟩ isCFrame
    refine ⟨hkind, h.imp ?_ ?_⟩
    · rintro ⟨rfl, h⟩
      exact ⟨by have := h.start_le; omega, h.enterFrame isCFrame⟩
    · rintro ⟨hlow, h⟩
      exact ⟨by omega, h.enterFrame isCFrame⟩
  dropFrame := by
    rintro low d ⟨hkind, h⟩ f fs hf
    refine ⟨hkind, ?_⟩
    rcases h with ⟨rfl, h⟩ | ⟨hlow, h⟩
    · -- the popped frame may be the one the step started in
      rcases h.dropFrame hf with ⟨hle, h⟩ | ⟨heq, h⟩
      · exact .inl ⟨by omega, h⟩
      · exact .inr ⟨by omega, by rwa [Nat.min_eq_right (by omega)]⟩
    · exact .inr ⟨by omega, h.dropFrame hf⟩
  ends := by
    rintro low d ⟨hkind, ⟨rfl, h⟩ | ⟨hlow, h⟩⟩ hfits location
    · -- the flag stays set as long as the starting frame is there
      obtain ⟨-, -, -, -, -, -, -, hflag⟩ := h
      simp [stepEnds, hkind, hflag]
    · rw [← h.methodEntered_iff hfits]
      simp [stepEnds, hkind, hlow]

theorem follows_stepOver (h : d.state.paused = true) (locations : List PtLocation) :
    (d.stepOver locations).Follows d.frames.length := by
  rw [stepOver, if_pos h]
  exact ⟨[], d.frames, rfl, rfl, .nil⟩

theorem inside_stepOut (h : d.state.paused = true) (hframes : d.frames ≠ []) :
    d.stepOut.Inside d.frames.length := by
  obtain ⟨f, fs, hf⟩ := List.exists_cons_of_ne_nil hframes
  refine ⟨[], { f with notifyPop := true }, fs, ?_, by rw [hf]; rfl, rfl, by simp, ?_⟩
  · simp [stepOut, h, notifyFramePop, hf]
  · simp [stepOut, h, ThreadState.stepOut]

theorem stack_stepOut (d : Debuggee) : d.stepOut.stack = d.stack := by
  unfold stepOut
  split
  · rcases hf : d.frames with - | ⟨f, fs⟩ <;> simp [stack, notifyFramePop, hf]
  · rfl

/-- **Stepping follows the call depth.**  Whatever earlier steps left behind:
after a step over the thread next pauses at the first event that interrupts
it, or ends it because it is a callback on another line at the lowest depth
since the command; after a step out, at the first event that interrupts it, or
ends it because it is a callback at the lowest depth after the pop of the
starting frame. -/
theorem stepping_refines_depth {d : Debuggee} {events : List VmEvent}
    (hpaused : d.state.paused = true) (hframes : d.frames ≠ [])
    (hnest : WellNested d.stack events) :
    (∀ locations k, FirstAt ((d.stepOver locations).PausedAfter events) k ↔
      FirstAt (fun k => (d.stepOver locations).InterruptedAt events k ∨
        StepOverEnds d.stack locations events k) k) ∧
    (∀ k, FirstAt (d.stepOut.PausedAfter events) k ↔
      FirstAt (fun k => d.stepOut.InterruptedAt events k ∨ StepOutEnds d.stack events k) k) := by
  constructor
  · -- a step over starts at the lowest depth, with nothing above it
    intro locations k
    have hover : d.stepOver locations = { d with state := d.state.stepOver locations } :=
      if_pos hpaused
    have hstack : (d.stepOver locations).stack = d.stack := by
      rw [hover]
      rfl
    have hcore := follows_stepOver hpaused locations
    rw [hover] at hcore
    have h := (tracks_stepOver locations).firstAt (d := d.stepOver locations)
      (.inr ⟨by rw [hover]; rfl, by rw [hover]; rfl, by rw [hover]; exact hcore⟩)
      (by rw [hover]; rfl) (hstack ▸ hnest) k
    rw [hstack] at h
    exact h
  · -- a step out starts inside the frame whose pop it asks for
    intro k
    have hlen : d.stepOut.frames.length = d.stack.length := by
      rw [← stack_stepOut, stack, List.length_map]
    have hinside := inside_stepOut hpaused hframes
    have h := (tracks_stepOut d.stack.length).firstAt (d := d.stepOut)
      (.inr ⟨by simp [stepOut, hpaused, ThreadState.stepOut],
        .inl ⟨hlen, by simpa [stack] using hinside⟩⟩)
      (by simp [stepOut, hpaused, ThreadState.stepOut]) (by rwa [stack_stepOut]) k
    rw [stack_stepOut] at h
    exact h

/-- A paused thread in a bytecode frame that native code called. -/
def calledFromNative : Debuggee where
  state := { stepKind := .pause, paused := true }
  frames := [⟨false, false⟩, ⟨true, false⟩]
  sourceFiles := ["main.ets"]

/-- A call of another method from the current line, a further callback on that
line, and one on the next line. -/
def overCall : List VmEvent :=
  [.methodEntry false (some "main.ets"), .singleStep ⟨"app.abc", 2, 0⟩ false, .framePop,
    .singleStep ⟨"app.abc", 1, 4⟩ false, .singleStep ⟨"app.abc", 1, 6⟩ false]

def currentLine : List PtLocation :=
  [⟨"app.abc", 1, 0⟩, ⟨"app.abc", 1, 4⟩]

theorem overCall_pauses_on_next_line :
    WellNested calledFromNative.stack overCall ∧
      FirstAt (fun k => (calledFromNative.stepOver currentLine).InterruptedAt overCall k ∨
        StepOverEnds calledFromNative.stack currentLine overCall k) 4 :=
  ⟨by decide,
    ((stepping_refines_depth (d := calledFromNative) rfl (by decide) (by decide)).1 _ 4).mp
      ⟨by decide, by decide⟩⟩

/-- The starting frame returns to native code, which calls another method. -/
def outToNative : List VmEvent :=
  [.framePop, .methodEntry false (some "main.ets"), .singleStep ⟨"app.abc", 2, 0⟩ false]

/-- The first callback after the pop of the starting frame does not end a step
out: it is in a method that native code entered after the pop, and such a
method is stepped over. -/
theorem outToNative_not_paused :
    WellNested calledFromNative.stack outToNative ∧
      FirstAt (fun k => (∃ location hit, outToNative[k]? = some (.singleStep location hit)) ∧
        lowestAt (depthAt calledFromNative.stack outToNative) k
          < calledFromNative.stack.length) 2 ∧
      ¬ calledFromNative.stepOut.PausedAfter outToNative 2 := by
  refine ⟨by decide, ⟨⟨⟨_, _, rfl⟩, by decide⟩, ?_⟩, by decide⟩
  rintro j hj ⟨⟨location, hit, hj'⟩, -⟩
  have : j = 0 ∨ j = 1 := by omega
  rcases this with rfl | rfl <;> simp [outToNative] at hj'

end Debuggee

end ArkToolchain
