/-
The ranges of the `print` command (`PrintCommand`, and `GetPropertiesCommand` of
`runtime_client.cpp`).

A command with three arguments asks for a part of an object.  The runtime client keeps the part
for the request and does not forget it, so that later commands without one ask for the same part
(`print_ranges_iff`).

What one `print` does is `ends_print_request`.
-/
import ArkToolchain.CliSafety

namespace ArkToolchain

namespace ArkDb

/-! ### Requests -/

/-- The parameters of `GetPropertiesCommand`. -/
def getPropertiesParams (params : PropertiesParams) : List (Bytes × Option PtJson) :=
  [(ascii "accessorPropertiesOnly", some (.bool false)),
   (ascii "generatePreview", some (.bool true)),
   (ascii "objectId", some (.ofString (intText params.objectId))),
   (ascii "ownProperties", some (.bool true)),
   (ascii "start", params.range.map fun r => .ofInt r.1),
   (ascii "count", params.range.map fun r => .ofInt r.2)]

/-- The request of `GetPropertiesCommand`. -/
def getPropertiesCommand (id : Int) (session : CliSession) : PtJson :=
  .ofMembers [(ascii "id", some (.ofInt id)),
    (ascii "method", some (.ofString (ascii "Runtime.getProperties"))),
    (ascii "params", some (.ofMembers (getPropertiesParams session.asked)))]

/-- The request asks for this range. -/
def AsksFor (request : PtJson) (range : Option (Int × Int)) : Prop :=
  ∃ params ∈ request.getObjectItem (ascii "params"),
    params.getObjectItem (ascii "start") = range.map (fun r => .ofInt r.1) ∧
    params.getObjectItem (ascii "count") = range.map (fun r => .ofInt r.2)

theorem asksFor_iff {id : Int} {session : CliSession} {range : Option (Int × Int)} :
    AsksFor (getPropertiesCommand id session) range ↔ session.range = range := by
  have hkeys : PtJson.DistinctKeys (getPropertiesParams session.asked) := by
    simp only [PtJson.DistinctKeys, getPropertiesParams, List.map_cons, List.map_nil]
    decide
  have hparams : (getPropertiesCommand id session).getObjectItem (ascii "params")
      = some (.ofMembers (getPropertiesParams session.asked)) := by
    refine PtJson.getObjectItem_ofMembers ?_ (by simp)
    simp only [PtJson.DistinctKeys, List.map_cons, List.map_nil]
    decide
  have hget : ∀ m ∈ getPropertiesParams session.asked,
      (PtJson.ofMembers (getPropertiesParams session.asked)).getObjectItem m.1 = m.2 :=
    fun m hm => PtJson.getObjectItem_ofMembers hkeys hm
  have hstart := hget (ascii "start", session.range.map fun r => .ofInt r.1)
    (by simp [getPropertiesParams, CliSession.asked])
  have hcount := hget (ascii "count", session.range.map fun r => .ofInt r.2)
    (by simp [getPropertiesParams, CliSession.asked])
  simp only [AsksFor, hparams, Option.mem_some_iff, exists_eq_left', hstart, hcount]
  cases session.range <;> cases range
  all_goals simp [PtJson.ofInt, Prod.ext_iff]

/-! ### Commands -/

/-- The arguments of a `print` command, which are words. -/
structure PrintArgs where
  args : List Bytes
  nonempty : ∀ arg ∈ args, arg ≠ []

namespace PrintArgs

/-- What the command sets before it sends its request, unless it fails. -/
def settings (command : PrintArgs) : Option (CliSession → CliSession) :=
  match command.args with
  | [] => some id
  | [index] =>
    if isNumber index then
      some fun s => { s with
        isInitializeTree := false, objectId := s.findObjectIdWithIndex (digitsVal index) }
    else none
  | [_, object] =>
    if isNumber object then
      some fun s => { s with isInitializeTree := false, objectId := digitsVal object }
    else none
  | [object, start, count] =>
    if isNumber object ∧ isNumber start ∧ isNumber count then
      some fun s => { s with
        isInitializeTree := false, objectId := digitsVal object
        startIndex := some (digitsVal start), groupCount := some (digitsVal count) }
    else none
  | _ => none

/-- The range that the command gives. -/
def range (command : PrintArgs) : Option (Int × Int) :=
  match command.args with
  | [_, start, count] => some (digitsVal start, digitsVal count)
  | _ => none

variable {command : PrintArgs} {session : CliSession}

/-- The request of a `print`, after which the object is forgotten. -/
@[simp] theorem ends_runtimeDispatcherCmd_print {Q : ErrCode → CliState → Prop}
    {outputs : List Output} :
    Ends (runtimeDispatcherCmd "print") Q ⟨some session, outputs⟩ ↔
      Q .ok ⟨some { session with objectId := 0 },
        outputs ++ [.request "print" (some session.asked), success "print"]⟩ := by
  have hruntime : "print" ∈ runtimeTable := by decide
  have hparams : requestParams "print" session = some session.asked := rfl
  simp [runtimeDispatcherCmd, hruntime, hparams, success]

variable (command session)

/-- The commands that send a request, with the session in which it is sent. -/
def sent : CliSession → List PrintArgs → List (PrintArgs × CliSession)
  | _, [] => []
  | session, command :: commands =>
    match command.settings with
    | some set => (command, set session) :: sent { set session with objectId := 0 } commands
    | none => sent session commands

variable {command session}

/-- A range that is kept is the range of a command that gives none. -/
theorem range_settings {set : CliSession → CliSession} (h : command.settings = some set) :
    (set session).range = command.range.or session.range := by
  revert h
  rw [range]
  fun_cases settings command
  all_goals
    rintro ⟨⟩
  all_goals
    simp_all [CliSession.range]

theorem ranges_iff (commands : List PrintArgs) :
    (∀ p ∈ sent session commands, p.2.range = p.1.range) ↔
      (session.range.isSome →
        ∀ command ∈ commands.filter (·.settings.isSome), command.range.isSome) ∧
      (commands.filter (·.settings.isSome)).Pairwise
        fun earlier later => earlier.range.isSome → later.range.isSome := by
  induction commands generalizing session with
  | nil => simp [sent]
  | cons command commands ih =>
    cases hset : command.settings with
    | none => simpa [sent, hset] using ih
    | some set =>
      have hrange : (set session).range = command.range.or session.range := range_settings hset
      have hafter : CliSession.range { set session with objectId := 0 } = (set session).range := rfl
      rw [List.filter_cons_of_pos (by simp [hset]), List.pairwise_cons, List.forall_mem_cons, sent,
        hset]
      simp only [List.forall_mem_cons, ih, hafter, hrange]
      cases command.range
      · cases session.range <;> simp
      · simpa using fun h _ _ => h

/-- **Which commands ask for what they say**: a range, once given, is always given. -/
theorem print_ranges_iff (session : CliSession) (commands : List PrintArgs) :
    (∀ p ∈ sent { session with startIndex := none, groupCount := none } commands, ∀ id,
        AsksFor (getPropertiesCommand id p.2) p.1.range) ↔
      (commands.filter (·.settings.isSome)).Pairwise
        fun earlier later => earlier.range.isSome → later.range.isSome := by
  simp only [asksFor_iff, forall_const]
  rw [ranges_iff]
  exact and_iff_right nofun

/-- A command with a range, and one without. -/
def printTwice : List PrintArgs :=
  [⟨[ascii "1", ascii "0", ascii "5"], by decide⟩, ⟨[ascii "2"], by decide⟩]

/-- The second command asks for the range of the first one. -/
theorem print_range_kept :
    (sent {} printTwice).map (fun p => (p.1.range, p.2.range))
        = [(some (0, 5), some (0, 5)), (none, some (0, 5))] ∧
      ¬ ∀ p ∈ sent {} printTwice, ∀ id, AsksFor (getPropertiesCommand id p.2) p.1.range := by
  simp only [asksFor_iff, forall_const]
  decide

end PrintArgs

end ArkDb

end ArkToolchain
