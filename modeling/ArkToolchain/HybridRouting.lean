/-
Messages for a program of both languages (`Inspector::OnMessage` in `inspector.cpp`).

The dynamic debugger gets the messages without a session, the static one those whose `sessionId`
is empty or a number.  Which is which is decided by two regular expressions on the text.  They
find the members of all objects, at any depth, whose key is written `sessionId` or ends so after
an escaped quotation mark (`hasKey_iff`, `findVal_iff`).

Main result: `hybrid_routing_iff`, about the text that the client sends.
-/
import ArkToolchain.Http
import ArkToolchain.JsonText

namespace ArkToolchain

namespace HybridRouting

open JsonText

inductive Destination
  | dynamic
  | static
  | dropped
  deriving DecidableEq

/-! ### The regular expressions -/

def expect (c : UInt8) : Bytes → Option Bytes
  | [] => none
  | x :: rest => if x = c then some rest else none

/-- `\s*:\s*"`, and what follows. -/
def afterColon (text : Bytes) : Option Bytes := do
  let rest ← expect 0x3a (text.dropWhile isSpace)
  expect quote (rest.dropWhile isSpace)

def sessionId : Bytes := ascii "sessionId"

/-- `"sessionId"\s*:\s*"`, and what follows. -/
def afterKey (text : Bytes) : Option Bytes :=
  let key := quote :: (sessionId ++ [quote])
  if key.isPrefixOf text then afterColon (text.drop key.length) else none

/-- The search for `hasKey`. -/
def hasKey (msg : Bytes) : Bool := msg.tails.any fun text => (afterKey text).isSome

/-- `(\d*)"`: the digits. -/
def digitsGroup (text : Bytes) : Option Bytes :=
  if (text.dropWhile isDigit).head? = some quote then some (text.takeWhile isDigit) else none

/-- The search for `valPattern`: the group of the first match. -/
def findVal (msg : Bytes) : Option Bytes :=
  msg.tails.findSome? fun text => (afterKey text).bind digitsGroup

/-- Where `OnMessage` delivers a message. -/
def onMessage (msg : Bytes) (isHybrid : Bool) : Destination :=
  if isHybrid then
    if !hasKey msg then .dynamic
    else
      match findVal msg with
      | some digits => if digits.isEmpty || digits.all isDigit then .static else .dropped
      | none => .dropped
  else .dynamic

/-! ### What is wanted -/

def isSession (key : Str) : Bool := key.map StrItem.ascii? = sessionId.map some

def isDigits : Json → Bool
  | .string s => s.all fun item => item.ascii?.any isDigit
  | _ => false

/-- Where the top-level object says that the message goes. -/
def expected (value : Json) : Destination :=
  if value.topMembers.any fun m => isSession m.1 && isDigits m.2 then .static
  else if value.topMembers.any fun m => isSession m.1 then .dropped
  else .dynamic

/-! ### What is found -/

/-- The key is written `sessionId`, or ends so after an escaped quotation mark. -/
def SeenKey (key : Str) : Prop :=
  key.text = sessionId ∨ ∃ tail, AfterQuote key tail ∧ Str.text tail = sessionId

theorem quote_notMem_sessionId : quote ∉ sessionId := by decide +kernel

theorem backslash_notMem_sessionId : backslash ∉ sessionId := by decide +kernel

variable {rest : Bytes}

theorem afterKey_head {text : Bytes} (h : afterKey text = some rest) : text.head? = some quote := by
  rw [afterKey] at h
  split at h
  · next hprefix =>
      obtain ⟨u, rfl⟩ := List.isPrefixOf_iff_prefix.mp hprefix
      rfl
  · cases h

theorem afterKey_string (s : Str) (rest : Bytes) :
    afterKey (quote :: (s.text ++ quote :: rest)) =
      if s.text = sessionId then afterColon rest else none := by
  rw [afterKey]
  by_cases hs : s.text = sessionId
  · have hsplit : quote :: (sessionId ++ quote :: rest) =
        (quote :: (sessionId ++ [quote])) ++ rest := by simp
    rw [if_pos hs, hs, hsplit, if_pos (List.isPrefixOf_iff_prefix.mpr (List.prefix_append _ _)),
      List.drop_left]
  · rw [if_neg hs, if_neg]
    intro hprefix
    rw [List.isPrefixOf_iff_prefix, List.cons_prefix_cons] at hprefix
    exact hs (Str.text_eq_of_prefix quote_notMem_sessionId backslash_notMem_sessionId hprefix.2)

variable (ts : List Token)

theorem afterKey_outside : afterKey (quote :: render ts) = none := by
  rw [afterKey, if_neg]
  intro hprefix
  rw [List.isPrefixOf_iff_prefix, List.cons_prefix_cons] at hprefix
  have houtside := isOutside_of_prefix quote_notMem_sessionId
    ((List.prefix_append sessionId [quote]).trans hprefix.2)
  exact absurd (houtside 0x69 (by decide +kernel)) (by decide +kernel)

variable {ts : List Token}

/-- **The key is found** at the strings that end in it. -/
theorem exists_afterKey_iff :
    (∃ text, text <:+ render ts ∧ afterKey text = some rest) ↔
      ∃ before key after, ts = before ++ .string key :: after ∧ SeenKey key ∧
        afterColon (render after) = some rest := by
  induction ts with
  | nil =>
    constructor
    · rintro ⟨text, htext, h⟩
      obtain rfl := List.suffix_nil.mp htext
      cases h
    · rintro ⟨before, key, after, hts, -⟩
      simp at hts
  | cons t ts ih =>
    have hlater : (∃ text, text <:+ render ts ∧ afterKey text = some rest) →
        ∃ before key after, t :: ts = before ++ .string key :: after ∧ SeenKey key ∧
          afterColon (render after) = some rest := by
      intro h
      obtain ⟨before, key, after, rfl, hkey, hcolon⟩ := ih.mp h
      exact ⟨t :: before, key, after, rfl, hkey, hcolon⟩
    constructor
    · rintro ⟨text, htext, h⟩
      have hhead := afterKey_head h
      cases ht : t.isString with
      | false =>
        exact hlater ⟨text, suffix_of_notMem (Token.quote_notMem_text ht) hhead htext, h⟩
      | true =>
        obtain ⟨key, rfl⟩ := Token.eq_string_of_isString ht
        have hhere {tail : Str} (hkey : Str.text tail = sessionId → SeenKey key)
            (htail : text = quote :: (Str.text tail ++ quote :: render ts)) :
            ∃ before key' after, .string key :: ts = before ++ .string key' :: after ∧
              SeenKey key' ∧ afterColon (render after) = some rest := by
          rw [htail, afterKey_string] at h
          split at h
          · next hs => exact ⟨[], key, ts, rfl, hkey hs, h⟩
          · cases h
        rw [render_cons_string] at htext
        rcases List.suffix_cons_iff.mp htext with heq | htext
        · exact hhere .inl heq
        rcases suffix_text hhead htext with hend | ⟨tail, hafter, heq⟩
        · rcases List.suffix_cons_iff.mp hend with rfl | htext
          · rw [afterKey_outside] at h
            cases h
          · exact hlater ⟨text, htext, h⟩
        · exact hhere (fun hs => .inr ⟨tail, hafter, hs⟩) heq
    · rintro ⟨before, key, after, hts, hkey, hcolon⟩
      cases before with
      | nil =>
        obtain ⟨rfl, rfl⟩ := List.cons_eq_cons.mp hts
        rw [render_cons_string]
        rcases hkey with hs | ⟨tail, hafter, hs⟩
        · exact ⟨_, List.suffix_rfl, by rw [afterKey_string, if_pos hs, hcolon]⟩
        · exact ⟨_, (hafter.suffix (quote :: render ts)).trans (List.suffix_cons _ _),
            by rw [afterKey_string, if_pos hs, hcolon]⟩
      | cons t' before =>
        obtain ⟨rfl, rfl⟩ := List.cons_eq_cons.mp hts
        obtain ⟨text, htext, h⟩ := ih.mpr ⟨before, key, after, rfl, hkey, hcolon⟩
        exact ⟨text, htext.trans (List.suffix_append _ _), h⟩

/-! ### What follows a key -/

theorem isSpace_of_isLiteralChar {c : UInt8} (h : isLiteralChar c = true) : isSpace c = false := by
  have hall : ∀ c ∈ ascii "0123456789+-.eEtruefalsn", isSpace c = false := by decide +kernel
  exact hall c (by simpa [isLiteralChar] using h)

theorem dropWhile_render : (render ts).dropWhile isSpace = render (ts.dropWhile Token.isSpace) := by
  induction ts with
  | nil => rfl
  | cons t ts ih =>
    cases t with
    | punct p => cases p <;> rfl
    | literal text =>
      obtain ⟨text, hne, hchars⟩ := text
      obtain ⟨c, text, rfl⟩ := List.exists_cons_of_ne_nil hne
      have hc := isSpace_of_isLiteralChar (hchars c List.mem_cons_self)
      rw [List.dropWhile_cons_of_neg (by simp [Token.isSpace]), render_cons, Token.text,
        List.cons_append, List.dropWhile_cons_of_neg (by simp [hc])]
    | string s => rfl
    | space c =>
      rw [List.dropWhile_cons_of_pos rfl, ← ih]
      cases c <;> rfl

theorem expect_render_iff {c : UInt8} :
    expect c (render ts) = some rest ↔
      ∃ t ts' text, ts = t :: ts' ∧ t.text = c :: text ∧ rest = text ++ render ts' := by
  cases ts with
  | nil => simp [expect]
  | cons t ts =>
    obtain ⟨x, text, htext⟩ := List.exists_cons_of_ne_nil t.text_ne_nil
    rw [render_cons, htext, List.cons_append, expect, Option.ite_none_right_eq_some]
    constructor
    · rintro ⟨rfl, h⟩
      exact ⟨t, ts, text, rfl, htext, (Option.some.inj h).symm⟩
    · rintro ⟨t', ts', text', hts, ht', rfl⟩
      obtain ⟨rfl, rfl⟩ := List.cons_eq_cons.mp hts
      obtain ⟨rfl, rfl⟩ := List.cons_eq_cons.mp (htext.symm.trans ht')
      exact ⟨rfl, rfl⟩

theorem expect_colon_render :
    expect 0x3a (render ts) = some rest ↔ ∃ ts', ts = .punct .colon :: ts' ∧ rest = render ts' := by
  rw [expect_render_iff]
  constructor
  · rintro ⟨t, ts', text, rfl, ht, rfl⟩
    cases t with
    | punct p =>
      cases p with
      | colon =>
        cases ht
        exact ⟨ts', rfl, rfl⟩
      | _ => cases ht
    | literal l =>
      have hmem := l.2.2 0x3a (by rw [show l.1 = _ from ht]; exact List.mem_cons_self)
      exact absurd hmem (by decide +kernel)
    | string s => cases ht
    | space c => cases c <;> cases ht
  · rintro ⟨ts', rfl, rfl⟩
    exact ⟨_, ts', [], rfl, rfl, rfl⟩

theorem expect_quote_render :
    expect quote (render ts) = some rest ↔
      ∃ s ts', ts = .string s :: ts' ∧ rest = Str.text s ++ quote :: render ts' := by
  rw [expect_render_iff]
  constructor
  · rintro ⟨t, ts', text, rfl, ht, rfl⟩
    cases hstring : t.isString with
    | true =>
      obtain ⟨s, rfl⟩ := Token.eq_string_of_isString hstring
      cases ht
      exact ⟨s, ts', rfl, by simp⟩
    | false => exact absurd (by simp [ht]) (Token.quote_notMem_text hstring)
  · rintro ⟨s, ts', rfl, rfl⟩
    exact ⟨_, ts', _, rfl, rfl, by simp⟩

theorem filter_not_eq_cons_iff {α : Type} {p : α → Bool} {xs ys : List α} {x : α} :
    xs.filter (fun a => !p a) = x :: ys ↔
      ∃ xs', xs.dropWhile p = x :: xs' ∧ p x = false ∧ xs'.filter (fun a => !p a) = ys := by
  induction xs with
  | nil => simp
  | cons a xs ih =>
    cases ha : p a with
    | true => rw [List.filter_cons_of_neg (by simp [ha]), List.dropWhile_cons_of_pos ha, ih]
    | false =>
      rw [List.filter_cons_of_pos (by simp [ha]), List.dropWhile_cons_of_neg (by simp [ha])]
      constructor
      · rintro ⟨⟩
        exact ⟨xs, rfl, ha, rfl⟩
      · rintro ⟨xs', ⟨⟩, -, rfl⟩
        rfl

variable {P : Bytes → Prop} {Q : Str → Prop}

theorem afterColon_render_iff (hP : ∀ s rest, P (Str.text s ++ quote :: rest) ↔ Q s) :
    (∃ rest, afterColon (render ts) = some rest ∧ P rest) ↔
      ∃ s us, ts.filter (fun t => !t.isSpace) = .punct .colon :: .string s :: us ∧ Q s := by
  simp only [afterColon, Option.bind_eq_bind, Option.bind_eq_some_iff, dropWhile_render,
    expect_colon_render]
  constructor
  · rintro ⟨rest, ⟨rest₁, ⟨ts₁, hts, rfl⟩, hrest⟩, h⟩
    rw [dropWhile_render, expect_quote_render] at hrest
    obtain ⟨s, ts₂, hts₁, rfl⟩ := hrest
    refine ⟨s, ts₂.filter fun t => !t.isSpace, ?_, (hP s _).mp h⟩
    have hfilter₁ := filter_not_eq_cons_iff.mpr ⟨ts₂, hts₁, rfl, rfl⟩
    exact filter_not_eq_cons_iff.mpr ⟨ts₁, hts, rfl, hfilter₁⟩
  · rintro ⟨s, us, hfilter, h⟩
    obtain ⟨ts₁, hts, -, hfilter⟩ := filter_not_eq_cons_iff.mp hfilter
    obtain ⟨ts₂, hts₁, -, -⟩ := filter_not_eq_cons_iff.mp hfilter
    refine ⟨_, ⟨_, ⟨ts₁, hts, rfl⟩, ?_⟩, (hP s (render ts₂)).mpr h⟩
    rw [dropWhile_render, expect_quote_render]
    exact ⟨s, ts₂, hts₁, rfl⟩

variable {value : Json}

/-- **The searches** find members of objects. -/
theorem search_iff (hts : Represents ts value)
    (hP : ∀ s rest, P (Str.text s ++ quote :: rest) ↔ Q s) :
    (∃ text, text <:+ render ts ∧ ∃ rest, afterKey text = some rest ∧ P rest) ↔
      ∃ key s, (key, .string s) ∈ value.members ∧ SeenKey key ∧ Q s := by
  have hmembers : ∀ key s, (key, .string s) ∈ value.members ↔ ∃ before after us,
      ts = before ++ .string key :: after ∧
        after.filter (fun t => !t.isSpace) = .punct .colon :: .string s :: us := by
    intro key s
    rw [← Json.infix_tokens_iff, ← hts]
    constructor
    · rintro ⟨before, us, h⟩
      rw [List.append_assoc, eq_comm, List.filter_eq_append_iff] at h
      obtain ⟨ts₁, ts₂, rfl, -, h⟩ := h
      obtain ⟨spaces, after, rfl, -, -, hafter⟩ := List.filter_eq_cons_iff.mp h
      exact ⟨ts₁ ++ spaces, after, us, by simp, hafter⟩
    · rintro ⟨before, after, us, rfl, hafter⟩
      rw [List.filter_append, List.filter_cons_of_pos rfl, hafter]
      exact ⟨before.filter fun t => !t.isSpace, us, by simp⟩
  constructor
  · rintro ⟨text, htext, rest, hrest, h⟩
    obtain ⟨before, key, after, hsplit, hkey, hcolon⟩ := exists_afterKey_iff.mp ⟨text, htext, hrest⟩
    obtain ⟨s, us, hfilter, hQ⟩ := (afterColon_render_iff hP).mp ⟨rest, hcolon, h⟩
    exact ⟨key, s, (hmembers key s).mpr ⟨before, after, us, hsplit, hfilter⟩, hkey, hQ⟩
  · rintro ⟨key, s, hmem, hkey, hQ⟩
    obtain ⟨before, after, us, hsplit, hfilter⟩ := (hmembers key s).mp hmem
    obtain ⟨rest, hcolon, h⟩ := (afterColon_render_iff hP).mpr ⟨s, us, hfilter, hQ⟩
    obtain ⟨text, htext, hrest⟩ :=
      exists_afterKey_iff.mpr ⟨before, key, after, hsplit, hkey, hcolon⟩
    exact ⟨text, htext, rest, hrest, h⟩

theorem hasKey_iff (hts : Represents ts value) :
    hasKey (render ts) = true ↔ ∃ key s, (key, .string s) ∈ value.members ∧ SeenKey key := by
  have hsearch := search_iff hts (P := fun _ => True) (Q := fun _ => True) fun _ _ => Iff.rfl
  simp only [and_true] at hsearch
  rw [← hsearch, hasKey, List.any_eq_true]
  simp only [List.mem_tails, Option.isSome_iff_exists]

/-- `(\d*)"` matches at a string that is written in digits. -/
theorem digitsGroup_iff (s : Str) (rest : Bytes) :
    (digitsGroup (s.text ++ quote :: rest)).isSome = true ↔ ∀ c ∈ s.text, isDigit c = true := by
  have hgroup : ∀ text, (digitsGroup text).isSome = true ↔
      (text.dropWhile isDigit).head? = some quote := by
    intro text
    rw [digitsGroup]
    split
    · next h => exact iff_of_true rfl h
    · next h => exact iff_of_false Bool.false_ne_true h
  rw [hgroup]
  induction s with
  | nil => exact iff_of_true rfl nofun
  | cons item s ih =>
    -- a character that is no digit stops the match, and is no quotation mark
    have hstop {c : UInt8} {text : Bytes} (hitem : item.text = c :: text)
        (hc : isDigit c = false) (hquote : c ≠ quote) :
        ((Str.text (item :: s) ++ quote :: rest).dropWhile isDigit).head? = some quote ↔
          ∀ c ∈ Str.text (item :: s), isDigit c = true := by
      rw [Str.text_cons, hitem, List.cons_append, List.cons_append,
        List.dropWhile_cons_of_neg (by simp [hc]), List.forall_mem_cons, hc]
      exact iff_of_false (fun h => hquote (Option.some.inj h)) (fun h => Bool.false_ne_true h.1)
    cases item with
    | plain c =>
      cases hc : isDigit c.1 with
      | false => exact hstop rfl hc c.2.2.1
      | true =>
        rw [Str.text_cons, StrItem.text, List.singleton_append, List.cons_append,
          List.dropWhile_cons_of_pos hc, List.forall_mem_cons, hc]
        exact ⟨fun h => ⟨rfl, ih.mp h⟩, fun h => ih.mpr h.2⟩
    | escape e | unicode a b c d => exact hstop rfl (by decide) (by decide)

theorem findVal_iff (hts : Represents ts value) :
    (findVal (render ts)).isSome = true ↔
      ∃ key s, (key, .string s) ∈ value.members ∧ SeenKey key ∧
        ∀ c ∈ Str.text s, isDigit c = true := by
  rw [← search_iff hts (P := fun rest => (digitsGroup rest).isSome = true) digitsGroup_iff,
    findVal, List.findSome?_isSome_iff]
  simp only [List.mem_tails, Option.isSome_bind, Option.any_eq_true]

theorem all_isDigit_of_findVal {msg digits : Bytes} (h : findVal msg = some digits) :
    digits.all isDigit = true := by
  obtain ⟨text, -, hgroup⟩ := List.exists_of_findSome?_eq_some h
  obtain ⟨rest, -, hrest⟩ := Option.bind_eq_some_iff.mp hgroup
  rw [digitsGroup] at hrest
  split at hrest
  · obtain rfl := Option.some.inj hrest
    exact List.all_takeWhile
  · cases hrest

/-! ### Routing -/

def Seen (value : Json) : Prop := ∃ key s, (key, .string s) ∈ value.members ∧ SeenKey key

def SeenDigits (value : Json) : Prop :=
  ∃ key s, (key, .string s) ∈ value.members ∧ SeenKey key ∧ ∀ c ∈ Str.text s, isDigit c = true

def HasSession (value : Json) : Prop := ∃ m ∈ value.topMembers, isSession m.1 = true

def HasDigits (value : Json) : Prop :=
  ∃ m ∈ value.topMembers, isSession m.1 = true ∧ isDigits m.2 = true

/-- The destination, by two answers of which the second one implies the first. -/
structure Follows (destination : Destination) (session digits : Prop) : Prop where
  static_iff : destination = .static ↔ digits
  dynamic_iff : destination = .dynamic ↔ ¬ session

theorem follows_onMessage (hts : Represents ts value) :
    Follows (onMessage (render ts) true) (Seen value) (SeenDigits value) := by
  have hseen : hasKey (render ts) = true ↔ Seen value := hasKey_iff hts
  have hdigits : (findVal (render ts)).isSome = true ↔ SeenDigits value := findVal_iff hts
  rw [onMessage, if_pos rfl]
  cases hkey : hasKey (render ts) with
  | false =>
    have hnot : ¬ Seen value := by simp [← hseen, hkey]
    refine ⟨iff_of_false nofun ?_, iff_of_true rfl hnot⟩
    rintro ⟨key, s, hmem, hsession, -⟩
    exact hnot ⟨key, s, hmem, hsession⟩
  | true =>
    have hsession : Seen value := hseen.mp hkey
    cases hval : findVal (render ts) with
    | none =>
      refine ⟨iff_of_false nofun ?_, iff_of_false nofun (not_not_intro hsession)⟩
      simp [← hdigits, hval]
    | some digits =>
      simp only [all_isDigit_of_findVal hval, Bool.or_true, if_true]
      refine ⟨iff_of_true rfl ?_, iff_of_false nofun (not_not_intro hsession)⟩
      simp [← hdigits, hval]

theorem follows_expected (value : Json) :
    Follows (expected value) (HasSession value) (HasDigits value) := by
  have hsession : (value.topMembers.any fun m => isSession m.1) = true ↔ HasSession value := by
    rw [List.any_eq_true]
    rfl
  have hdigits : (value.topMembers.any fun m => isSession m.1 && isDigits m.2) = true ↔
      HasDigits value := by
    simp only [List.any_eq_true, Bool.and_eq_true]
    rfl
  rw [expected]
  split
  · next h =>
      obtain ⟨m, hm, hkey, -⟩ := hdigits.mp h
      exact ⟨iff_of_true rfl (hdigits.mp h), iff_of_false nofun (not_not_intro ⟨m, hm, hkey⟩)⟩
  · next h =>
      split
      · next h' =>
          exact ⟨iff_of_false nofun (mt hdigits.mpr h),
            iff_of_false nofun (not_not_intro (hsession.mp h'))⟩
      · next h' =>
          exact ⟨iff_of_false nofun (mt hdigits.mpr h), iff_of_true rfl (mt hsession.mpr h')⟩

theorem Follows.eq_iff {d d' : Destination} {session session' digits digits' : Prop}
    (h : Follows d session digits) (h' : Follows d' session' digits') :
    d = d' ↔ (session ↔ session') ∧ (digits ↔ digits') := by
  rw [← h.static_iff, ← h'.static_iff, ← not_iff_not (a := session), ← h.dynamic_iff,
    ← h'.dynamic_iff]
  cases d <;> cases d' <;> simp

/-- **Messages are routed** by their top-level object exactly if the searches find a session,
and one that is written in digits, where it has one. -/
theorem hybrid_routing_iff {ts : List Token} {value : Json} (hts : Represents ts value) :
    onMessage (render ts) true = expected value ↔
      (Seen value ↔ HasSession value) ∧ (SeenDigits value ↔ HasDigits value) :=
  (follows_onMessage hts).eq_iff (follows_expected value)

/-! ### Three messages -/

def spell (text : String) : Str :=
  (ascii text).filterMap fun c =>
    if h : 0x20 ≤ c ∧ c ≠ quote ∧ c ≠ backslash then some (.plain ⟨c, h⟩) else none

/-- A message with a session and parameters. -/
def sampleMessage (session params : List (Str × Json)) : Json :=
  .object ((spell "method", .string (spell "Debugger.resume")) :: session ++
    [(spell "params", .object params)])

def session (value : Json) : List (Str × Json) := [(spell "sessionId", value)]

def one : Literal := ⟨ascii "1", by decide +kernel⟩

/-- A message for the static debugger gets there. -/
theorem session_routed :
    (Seen (sampleMessage (session (.string (spell "1"))) []) ↔
        HasSession (sampleMessage (session (.string (spell "1"))) [])) ∧
      (SeenDigits (sampleMessage (session (.string (spell "1"))) []) ↔
        HasDigits (sampleMessage (session (.string (spell "1"))) [])) := by
  have hts : Represents (sampleMessage (session (.string (spell "1"))) []).tokens
      (sampleMessage (session (.string (spell "1"))) []) := by
    unfold Represents
    decide +kernel
  exact (hybrid_routing_iff hts).mp (by decide +kernel)

/-- **A session in the parameters** sends a message to the static debugger, and **a session
that is no string** leaves one to the dynamic debugger. -/
theorem session_misrouted :
    render (sampleMessage [] (session (.string (spell "1")))).tokens =
        ascii "\x7b\"method\":\"Debugger.resume\",\"params\":\x7b\"sessionId\":\"1\"\x7d\x7d" ∧
      onMessage (render (sampleMessage [] (session (.string (spell "1")))).tokens) true =
        .static ∧
      expected (sampleMessage [] (session (.string (spell "1")))) = .dynamic ∧
      onMessage (render (sampleMessage (session (.literal one)) []).tokens) true = .dynamic ∧
      expected (sampleMessage (session (.literal one)) []) = .dropped := by
  decide +kernel

end HybridRouting

end ArkToolchain
