/-
JSON as text.

A text is a sequence of tokens: punctuation, literals, strings as they are written, with their
escapes, and white space.  `Json.tokens` are the tokens of a value without white space.  A
string, a colon and a string follow one another exactly where an object has a member with a
string for its value (`Json.infix_tokens_iff`).
-/
import ArkToolchain.Bytes
import Mathlib.Data.List.Infix

namespace ArkToolchain

namespace JsonText

/-! ### Strings -/

/-- The quotation mark. -/
def quote : UInt8 := 0x22

/-- The backslash. -/
def backslash : UInt8 := 0x5c

/-- A character that stands for itself. -/
abbrev PlainChar := { c : UInt8 // 0x20 ≤ c ∧ c ≠ quote ∧ c ≠ backslash }

/-- The escapes of one letter. -/
inductive Escape
  | quote
  | backslash
  | slash
  | backspace
  | formFeed
  | newline
  | carriageReturn
  | tab
  deriving DecidableEq

namespace Escape

/-- The letter behind the backslash. -/
def char : Escape → UInt8
  | quote => 0x22
  | backslash => 0x5c
  | slash => 0x2f
  | backspace => 0x62
  | formFeed => 0x66
  | newline => 0x6e
  | carriageReturn => 0x72
  | tab => 0x74

/-- The character that is meant. -/
def value : Escape → UInt8
  | quote => 0x22
  | backslash => 0x5c
  | slash => 0x2f
  | backspace => 0x08
  | formFeed => 0x0c
  | newline => 0x0a
  | carriageReturn => 0x0d
  | tab => 0x09

end Escape

/-- Hexadecimal digits, in both cases. -/
def isHexDigit (c : UInt8) : Bool :=
  (0x30 ≤ c && c ≤ 0x39) || (0x41 ≤ c && c ≤ 0x46) || (0x61 ≤ c && c ≤ 0x66)

/-- A hexadecimal digit. -/
abbrev HexDigit := { c : UInt8 // isHexDigit c = true }

/-- The number that the digit stands for. -/
def HexDigit.value (d : HexDigit) : Nat :=
  if d.1 ≤ 0x39 then d.1.toNat - 0x30
  else if d.1 ≤ 0x46 then d.1.toNat - 0x37
  else d.1.toNat - 0x57

/-- A part of a string literal that stands for one character. -/
inductive StrItem
  | plain (c : PlainChar)
  | escape (e : Escape)
  | unicode (a b c d : HexDigit)
  deriving DecidableEq

/-- What stands between the quotation marks. -/
abbrev Str := List StrItem

namespace StrItem

/-- How the part is written. -/
def text : StrItem → Bytes
  | plain c => [c.1]
  | escape e => [backslash, e.char]
  | unicode a b c d => [backslash, 0x75, a.1, b.1, c.1, d.1]

/-- The ASCII character that is meant, if it is one. -/
def ascii? : StrItem → Option UInt8
  | plain c => if c.1 < 0x80 then some c.1 else none
  | escape e => some e.value
  | unicode a b c d =>
    let n := ((a.value * 16 + b.value) * 16 + c.value) * 16 + d.value
    if n < 0x80 then some (UInt8.ofNat n) else none

end StrItem

namespace Str

/-- How the string is written, without its quotation marks. -/
def text (s : Str) : Bytes := s.flatMap StrItem.text

end Str

/-! ### Tokens -/

/-- The structural characters. -/
inductive Punct
  | leftBracket
  | rightBracket
  | leftBrace
  | rightBrace
  | comma
  | colon
  deriving DecidableEq

/-- How they are written. -/
def Punct.char : Punct → UInt8
  | leftBracket => 0x5b
  | rightBracket => 0x5d
  | leftBrace => 0x7b
  | rightBrace => 0x7d
  | comma => 0x2c
  | colon => 0x3a

/-- The white space of JSON. -/
inductive Space
  | space
  | tab
  | newline
  | carriageReturn
  deriving DecidableEq

/-- How it is written. -/
def Space.char : Space → UInt8
  | space => 0x20
  | tab => 0x09
  | newline => 0x0a
  | carriageReturn => 0x0d

/-- The characters of numbers, and of `true`, `false` and `null`. -/
def isLiteralChar (c : UInt8) : Bool :=
  c ∈ ArkToolchain.ascii "0123456789+-.eEtruefalsn"

/-- A number, `true`, `false` or `null`; which of them does not matter here. -/
abbrev Literal := { text : Bytes // text ≠ [] ∧ ∀ c ∈ text, isLiteralChar c = true }

/-- A piece of the text that is not split up any more. -/
inductive Token
  | punct (p : Punct)
  | literal (text : Literal)
  | string (s : Str)
  | space (c : Space)
  deriving DecidableEq

namespace Token

/-- How the token is written. -/
def text : Token → Bytes
  | punct p => [p.char]
  | literal t => t.1
  | string s => quote :: (s.text ++ [quote])
  | space c => [c.char]

/-- The token is white space. -/
def isSpace : Token → Bool
  | space _ => true
  | _ => false

end Token

/-- The text of a list of tokens. -/
def render (tokens : List Token) : Bytes := tokens.flatMap Token.text

/-! ### Values -/

/-- A JSON value with the literals and strings as they are written. -/
inductive Json
  | literal (text : Literal)
  | string (s : Str)
  | array (elements : List Json)
  | object (members : List (Str × Json))

namespace Json

mutual

/-- The tokens of a value, without white space. -/
def tokens : Json → List Token
  | literal text => [.literal text]
  | string s => [.string s]
  | array elements =>
    .punct .leftBracket ::
      (List.intercalate [.punct .comma] (elementTokens elements) ++ [.punct .rightBracket])
  | object members =>
    .punct .leftBrace ::
      (List.intercalate [.punct .comma] (memberTokens members) ++ [.punct .rightBrace])

/-- The tokens of each element of an array. -/
def elementTokens : List Json → List (List Token)
  | [] => []
  | value :: rest => tokens value :: elementTokens rest

/-- The tokens of each member of an object. -/
def memberTokens : List (Str × Json) → List (List Token)
  | [] => []
  | (key, value) :: rest =>
    (.string key :: .punct .colon :: tokens value) :: memberTokens rest

end

mutual

/-- All members of all objects in the value, in the order of the text. -/
def members : Json → List (Str × Json)
  | literal _ => []
  | string _ => []
  | array elements => elementMembers elements
  | object ms => memberMembers ms

/-- Those in the elements of an array. -/
def elementMembers : List Json → List (Str × Json)
  | [] => []
  | value :: rest => members value ++ elementMembers rest

/-- Those in the members of an object, and these members. -/
def memberMembers : List (Str × Json) → List (Str × Json)
  | [] => []
  | (key, value) :: rest => (key, value) :: (members value ++ memberMembers rest)

end

/-- The members of a value that is an object. -/
def topMembers : Json → List (Str × Json)
  | object ms => ms
  | _ => []

end Json

/-- The tokens are those of the value, with white space anywhere between them. -/
def Represents (ts : List Token) (value : Json) : Prop :=
  ts.filter (fun t => !t.isSpace) = value.tokens

/-! ### Quotation marks -/

theorem suffix_of_notMem {α : Type*} {c : α} {xs ys t : List α} (hc : c ∉ xs)
    (hhead : t.head? = some c) (h : t <:+ xs ++ ys) : t <:+ ys := by
  induction xs with
  | nil => exact h
  | cons x xs ih =>
    rcases List.suffix_cons_iff.mp h with rfl | h
    · exact absurd (Option.some.inj hhead ▸ List.mem_cons_self) hc
    · exact ih (fun hm => hc (List.mem_cons_of_mem _ hm)) h

theorem HexDigit.ne_quote (d : HexDigit) : quote ≠ d.1 := by
  intro h
  have hd := d.2
  rw [← h] at hd
  revert hd
  decide

theorem StrItem.quote_notMem_text {item : StrItem} (h : item ≠ .escape .quote) :
    quote ∉ item.text := by
  cases item with
  | plain c => simpa [text] using Ne.symm c.2.2.1
  | escape e =>
    cases e with
    | quote => exact absurd rfl h
    | _ => decide
  | unicode a b c d =>
    simp only [text, List.mem_cons, List.not_mem_nil, or_false, not_or]
    exact ⟨by decide, by decide, a.ne_quote, b.ne_quote, c.ne_quote, d.ne_quote⟩

@[simp] theorem Str.text_cons (item : StrItem) (s : Str) :
    Str.text (item :: s) = item.text ++ Str.text s := rfl

theorem Str.text_eq_of_prefix {p rest : Bytes} {s : Str} (hquote : quote ∉ p)
    (hbackslash : backslash ∉ p) (h : p ++ [quote] <+: s.text ++ quote :: rest) : s.text = p := by
  induction s generalizing p with
  | nil =>
    cases p with
    | nil => rfl
    | cons c p =>
      obtain ⟨rfl, -⟩ := List.cons_prefix_cons.mp h
      exact absurd List.mem_cons_self hquote
  | cons item s ih =>
    cases item with
    | plain c =>
      cases p with
      | nil =>
        obtain ⟨heq, -⟩ := List.cons_prefix_cons.mp h
        exact absurd heq.symm c.2.2.1
      | cons d p =>
        obtain ⟨rfl, h'⟩ := List.cons_prefix_cons.mp h
        rw [Str.text_cons, ih (fun hm => hquote (List.mem_cons_of_mem _ hm))
          (fun hm => hbackslash (List.mem_cons_of_mem _ hm)) h']
        rfl
    -- an escape begins with a backslash
    | escape e | unicode a b c d =>
      cases p with
      | nil =>
        obtain ⟨heq, -⟩ := List.cons_prefix_cons.mp h
        exact absurd heq (by decide)
      | cons d p =>
        obtain ⟨rfl, -⟩ := List.cons_prefix_cons.mp h
        exact absurd List.mem_cons_self hbackslash

/-- What follows a quotation mark in a string: the rest of the string after an escape. -/
def AfterQuote (s tail : Str) : Prop := ∃ before, s = before ++ .escape .quote :: tail

theorem AfterQuote.suffix {s tail : Str} (h : AfterQuote s tail) (rest : Bytes) :
    quote :: (tail.text ++ rest) <:+ s.text ++ rest := by
  obtain ⟨before, rfl⟩ := h
  refine ⟨Str.text before ++ [backslash], ?_⟩
  simp [Str.text, StrItem.text, Escape.char, quote]

theorem suffix_text {t rest : Bytes} {s : Str} (hhead : t.head? = some quote)
    (h : t <:+ s.text ++ rest) :
    t <:+ rest ∨ ∃ tail, AfterQuote s tail ∧ t = quote :: (Str.text tail ++ rest) := by
  induction s with
  | nil => exact .inl h
  | cons item s ih =>
    have hrest (h : t <:+ Str.text s ++ rest) : t <:+ rest ∨
        ∃ tail, AfterQuote (item :: s) tail ∧ t = quote :: (Str.text tail ++ rest) := by
      rcases ih h with hrest | ⟨tail, ⟨before, hbefore⟩, ht⟩
      · exact .inl hrest
      · exact .inr ⟨tail, ⟨item :: before, by rw [hbefore]; rfl⟩, ht⟩
    rw [Str.text_cons, List.append_assoc] at h
    by_cases hitem : item = .escape .quote
    · subst hitem
      rcases List.suffix_cons_iff.mp h with rfl | h
      · exact absurd (Option.some.inj hhead) (by decide)
      · rcases List.suffix_cons_iff.mp h with ht | h
        · exact .inr ⟨s, ⟨[], rfl⟩, ht⟩
        · exact hrest h
    · exact hrest (suffix_of_notMem (StrItem.quote_notMem_text hitem) hhead h)

/-! ### Outside of strings -/

/-- The characters that stand outside of strings. -/
def isOutside (c : UInt8) : Bool :=
  isLiteralChar c || c ∈ ArkToolchain.ascii "[]\x7b\x7d,: \t\n\r"

/-- The token is a string. -/
def Token.isString : Token → Bool
  | string _ => true
  | _ => false

variable {t : Token}

theorem Token.eq_string_of_isString (h : t.isString = true) : ∃ s, t = .string s := by
  cases t with
  | string s => exact ⟨s, rfl⟩
  | _ => cases h

theorem Token.isOutside_text (ht : t.isString = false) : ∀ c ∈ t.text, isOutside c = true := by
  cases t with
  | punct p => cases p <;> decide +kernel
  | literal t =>
    intro c hc
    rw [isOutside, t.2.2 c hc]
    rfl
  | string s => cases ht
  | space c => cases c <;> decide +kernel

theorem Token.quote_notMem_text (ht : t.isString = false) : quote ∉ t.text := by
  intro h
  exact absurd (Token.isOutside_text ht quote h) (by decide +kernel)

theorem Token.text_ne_nil (t : Token) : t.text ≠ [] := by
  cases t with
  | literal text => exact text.2.1
  | _ => exact List.cons_ne_nil _ _

@[simp] theorem render_nil : render [] = [] := rfl

@[simp] theorem render_cons (t : Token) (ts : List Token) :
    render (t :: ts) = t.text ++ render ts := rfl

theorem render_cons_string (s : Str) (ts : List Token) :
    render (.string s :: ts) = quote :: (s.text ++ quote :: render ts) := by
  rw [render_cons, Token.text, List.cons_append, List.append_assoc, List.singleton_append]

variable {ts : List Token}

theorem isOutside_of_prefix {p : Bytes} (hquote : quote ∉ p) (h : p <+: render ts) :
    ∀ c ∈ p, isOutside c = true := by
  induction ts generalizing p with
  | nil =>
    rw [List.prefix_nil.mp h]
    nofun
  | cons t ts ih =>
    cases ht : t.isString with
    | false =>
      obtain ⟨u, hu⟩ := h
      rw [render_cons] at hu
      rcases List.append_eq_append_iff.mp hu with ⟨v, hv, -⟩ | ⟨v, rfl, hv⟩
      · intro c hc
        exact Token.isOutside_text ht c (hv ▸ List.mem_append_left _ hc)
      · intro c hc
        rcases List.mem_append.mp hc with hc | hc
        · exact Token.isOutside_text ht c hc
        · exact ih (fun hm => hquote (List.mem_append_right _ hm)) ⟨u, hv.symm⟩ c hc
    | true =>
      obtain ⟨s, rfl⟩ := Token.eq_string_of_isString ht
      cases p with
      | nil => nofun
      | cons c p =>
        obtain ⟨rfl, -⟩ := List.cons_prefix_cons.mp h
        exact absurd List.mem_cons_self hquote

/-! ### Keys -/

/-- The string at the beginning, if a colon follows it, with the token after the colon. -/
def keyedHead : List Token → List (Str × Token)
  | .string key :: .punct .colon :: t :: _ => [(key, t)]
  | _ => []

/-- All strings that a colon follows, with the token after it. -/
def keyed : List Token → List (Str × Token)
  | [] => []
  | t :: ts => keyedHead (t :: ts) ++ keyed ts

variable {key : Str}

theorem mem_keyedHead_iff : (key, t) ∈ keyedHead ts ↔ [.string key, .punct .colon, t] <+: ts := by
  unfold keyedHead
  split
  · next key' t' rest =>
      simp only [List.mem_singleton, Prod.mk.injEq, List.cons_prefix_cons, Token.string.injEq,
        List.nil_prefix, and_true, true_and]
  · next h =>
      refine iff_of_false List.not_mem_nil ?_
      rintro ⟨rest, hrest⟩
      exact h key t rest hrest.symm

theorem mem_keyed_iff : (key, t) ∈ keyed ts ↔ [.string key, .punct .colon, t] <:+: ts := by
  induction ts with
  | nil => simp [keyed]
  | cons x ts ih => rw [keyed, List.mem_append, mem_keyedHead_iff, ih, List.infix_cons_iff]

theorem keyedHead_of_ne {x : Token} (h : ts.head? ≠ some (.punct .colon)) :
    keyedHead (x :: ts) = [] := by
  unfold keyedHead
  split
  · next heq =>
      obtain ⟨-, rfl⟩ := List.cons_eq_cons.mp heq
      exact absurd rfl h
  · rfl

theorem keyedHead_cons_cons_cons (x y z : Token) (ts : List Token) :
    keyedHead (x :: y :: z :: ts) = keyedHead [x, y, z] := by
  cases x with
  | string key =>
    cases y with
    | punct p => cases p <;> rfl
    | _ => rfl
  | _ => rfl

theorem keyed_append {xs ys : List Token} (hx : xs.getLast? ≠ some (.punct .colon))
    (hy : ys.head? ≠ some (.punct .colon)) : keyed (xs ++ ys) = keyed xs ++ keyed ys := by
  induction xs with
  | nil => rfl
  | cons x xs ih =>
    rw [List.cons_append, keyed, keyed, List.append_assoc]
    -- what follows `x` and its colon is still in `xs`
    rcases xs with - | ⟨y, - | ⟨z, xs⟩⟩
    · rw [List.nil_append, keyedHead_of_ne hy, keyedHead_of_ne (by simp)]
      rfl
    · have hne : y ≠ .punct .colon := fun h => hx (by rw [h]; rfl)
      have hhead (ts : List Token) : (y :: ts).head? ≠ some (.punct .colon) :=
        fun h => hne (Option.some.inj h)
      rw [List.cons_append, keyedHead_of_ne (hhead _), keyedHead_of_ne (hhead _),
        ← List.cons_append, ih (hhead [])]
    · have hlast : (y :: z :: xs).getLast? ≠ some (.punct .colon) := by
        rwa [List.getLast?_cons_cons] at hx
      rw [ih hlast, List.cons_append, List.cons_append, keyedHead_cons_cons_cons,
        keyedHead_cons_cons_cons x y z xs]

/-! ### The tokens of a value -/

namespace Json

/-- The token with which the value begins. -/
def head : Json → Token
  | literal text => .literal text
  | string s => .string s
  | array _ => .punct .leftBracket
  | object _ => .punct .leftBrace

theorem tokens_eq_cons (value : Json) : ∃ ts, value.tokens = value.head :: ts := by
  cases value with
  | literal text | string s | array elements | object members => exact ⟨_, by rw [tokens]; rfl⟩

end Json

variable {parts : List (List Token)}

theorem keyed_intercalate (h : ∀ ts ∈ parts, ts.getLast? ≠ some (.punct .colon)) {ys : List Token}
    (hy : ys.head? ≠ some (.punct .colon)) :
    keyed (List.intercalate [.punct .comma] parts ++ ys) = parts.flatMap keyed ++ keyed ys := by
  induction parts with
  | nil => rfl
  | cons ts parts ih =>
    rw [List.forall_mem_cons] at h
    cases parts with
    | nil => simp [keyed_append h.1 hy]
    | cons ts' parts =>
      rw [List.intercalate_cons_cons, List.append_assoc, List.append_assoc,
        keyed_append h.1 (by simp), List.singleton_append, keyed, ih h.2]
      simp [keyedHead]

theorem keyed_brackets (h : ∀ ts ∈ parts, ts.getLast? ≠ some (.punct .colon)) {left right : Punct}
    (hright : right ≠ .colon) :
    keyed (.punct left :: (List.intercalate [.punct .comma] parts ++ [.punct right])) =
      parts.flatMap keyed := by
  rw [keyed, keyed_intercalate h (by simpa using hright)]
  exact List.append_nil _

namespace Json

theorem getLast?_tokens (value : Json) : value.tokens.getLast? ≠ some (.punct .colon) := by
  cases value with
  | literal text | string s =>
    rw [tokens]
    simp
  | array elements | object ms =>
    rw [tokens, ← List.cons_append, List.getLast?_concat]
    simp

theorem getLast?_elementTokens (elements : List Json) :
    ∀ ts ∈ elementTokens elements, ts.getLast? ≠ some (.punct .colon) := by
  induction elements with
  | nil => nofun
  | cons value rest ih =>
    rw [elementTokens, List.forall_mem_cons]
    exact ⟨value.getLast?_tokens, ih⟩

theorem getLast?_memberTokens (ms : List (Str × Json)) :
    ∀ ts ∈ memberTokens ms, ts.getLast? ≠ some (.punct .colon) := by
  induction ms with
  | nil => nofun
  | cons m rest ih =>
    obtain ⟨key, value⟩ := m
    rw [memberTokens, List.forall_mem_cons]
    refine ⟨?_, ih⟩
    obtain ⟨ts, hts⟩ := value.tokens_eq_cons
    have hlast := value.getLast?_tokens
    rw [hts] at hlast ⊢
    rw [List.getLast?_cons_cons, List.getLast?_cons_cons]
    exact hlast

theorem keyed_member (key : Str) (value : Json) :
    keyed (.string key :: .punct .colon :: value.tokens) =
      (key, value.head) :: keyed value.tokens := by
  obtain ⟨ts, hts⟩ := value.tokens_eq_cons
  rw [keyed, keyed, hts]
  rfl

mutual

theorem keyed_tokens (value : Json) :
    keyed value.tokens = value.members.map fun m => (m.1, m.2.head) :=
  match value with
  | literal text | string s => by rw [tokens, members]; rfl
  | array elements => by
      rw [tokens, members, keyed_brackets (getLast?_elementTokens elements) (by decide)]
      exact keyed_elementTokens elements
  | object ms => by
      rw [tokens, members, keyed_brackets (getLast?_memberTokens ms) (by decide)]
      exact keyed_memberTokens ms

theorem keyed_elementTokens (elements : List Json) :
    (elementTokens elements).flatMap keyed =
      (elementMembers elements).map fun m => (m.1, m.2.head) :=
  match elements with
  | [] => rfl
  | value :: rest => by
      rw [elementTokens, elementMembers, List.flatMap_cons, List.map_append,
        keyed_tokens value, keyed_elementTokens rest]

theorem keyed_memberTokens (ms : List (Str × Json)) :
    (memberTokens ms).flatMap keyed = (memberMembers ms).map fun m => (m.1, m.2.head) :=
  match ms with
  | [] => rfl
  | (key, value) :: rest => by
      rw [memberTokens, memberMembers, List.flatMap_cons, List.map_cons, List.map_append,
        keyed_member, keyed_tokens value, keyed_memberTokens rest]
      rfl

end

/-- **Members**: a string, a colon and a string follow one another exactly where an object
has a member with a string for its value. -/
theorem infix_tokens_iff {value : Json} {s : Str} :
    [.string key, .punct .colon, .string s] <:+: value.tokens ↔
      (key, string s) ∈ value.members := by
  rw [← mem_keyed_iff, keyed_tokens, List.mem_map]
  constructor
  · rintro ⟨⟨key', value'⟩, hmem, heq⟩
    obtain ⟨rfl, hhead⟩ := Prod.mk.inj heq
    cases value' with
    | string s' =>
      cases hhead
      exact hmem
    | _ => cases hhead
  · intro hmem
    exact ⟨_, hmem, rfl⟩

end Json

end JsonText

end ArkToolchain
