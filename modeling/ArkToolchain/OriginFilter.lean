/-
Which requests the origin filter lets through (websocket/http.cpp, `ValidateHttpRequestOrigin`).

`HasOrigin` reads the origins of a request as the protocol has them: header names and schemes in
any letter case, blanks around the value.  The filter sees what follows the first `Origin: ` of
the text.  Of the two regular expressions only the second one ignores the case.

Main result: `origin_filter`.
-/
import ArkToolchain.HttpMessages

namespace ArkToolchain

open HttpBase

/-! ### Origins -/

/-- The header lines of any text: those between the first line and an empty
one. -/
def headerLines (text : Bytes) : List Bytes :=
  (messageLines text).tail.takeWhile fun line => !line.isEmpty

/-- A header line with the field name `Origin`, in any letter case, has the
value. -/
def HasOrigin (text value : Bytes) : Prop :=
  ∃ name rest, name ++ 0x3a :: rest ∈ headerLines text ∧ 0x3a ∉ name ∧
    toLowerCase name = ascii "origin" ∧ value = stripBlanks rest

def httpSchemes : List Bytes := [ascii "http://", ascii "https://"]

def localHosts : List Bytes := [ascii "localhost", ascii "127.0.0.1", ascii "[::1]"]

/-- An origin with the scheme `http` or `https`, in any letter case. -/
def IsHttpOrigin (value : Bytes) : Prop :=
  ∃ scheme ∈ httpSchemes, scheme <+: toLowerCase value

def IsPort (text : Bytes) : Prop :=
  text = [] ∨ ∃ digits, digits ≠ [] ∧ (∀ d ∈ digits, isDigit d = true) ∧ text = 0x3a :: digits

def IsLocalOrigin (value : Bytes) : Prop :=
  ∃ scheme ∈ httpSchemes, ∃ host ∈ localHosts, ∃ port, IsPort port ∧
    toLowerCase value = scheme ++ host ++ port

/-! ### The regular expressions -/

namespace HttpRequest

variable {text rest : Bytes}

theorem stripStart_eq_some_iff {start : Bytes} :
    stripStart start text = some rest ↔ text = start ++ rest := by
  unfold stripStart
  split
  next h =>
    obtain ⟨more, rfl⟩ := List.isPrefixOf_iff_prefix.mp h
    rw [List.drop_left, Option.some_inj, List.append_cancel_left_eq]
  next h =>
    constructor
    · intro hnone
      cases hnone
    · rintro rfl
      exact absurd (List.isPrefixOf_iff_prefix.mpr (List.prefix_append _ _)) h

theorem afterScheme_eq_some_iff :
    afterScheme text = some rest ↔ ∃ scheme ∈ httpSchemes, text = scheme ++ rest := by
  rw [afterScheme, Option.or_eq_some_iff, stripStart_eq_some_iff, stripStart_eq_some_iff]
  simp only [httpSchemes, List.mem_cons, List.not_mem_nil, or_false, exists_eq_or_imp,
    exists_eq_left]
  refine or_congr_right ⟨fun h => h.2, fun h => ⟨?_, h⟩⟩
  -- a text that begins with one scheme does not begin with the other
  rw [h, stripStart, if_neg]
  rw [List.isPrefixOf_iff_prefix]
  intro hpre
  have hshort : ascii "http://" <+: ascii "https://" :=
    List.prefix_of_prefix_length_le hpre (List.prefix_append _ _) (by decide)
  exact absurd hshort (by decide)

theorem portRegex_iff : portRegex text = true ↔ IsPort text := by
  unfold portRegex IsPort
  rcases h : stripStart (ascii ":") text with - | digits
  · have hno : ∀ digits, text ≠ 0x3a :: digits := by
      intro digits htext
      have hsome : stripStart (ascii ":") text = some digits :=
        stripStart_eq_some_iff.mpr htext
      rw [h] at hsome
      cases hsome
    simp [hno]
  · obtain rfl : text = 0x3a :: digits := stripStart_eq_some_iff.mp h
    simp

variable {value : Bytes}

theorem localUrlRegex_iff : localUrlRegex value = true ↔ IsLocalOrigin value := by
  have hmatch : localUrlRegex value = true ↔
      ∃ rest, afterScheme (toLowerCase value) = some rest ∧
        ∃ host ∈ localHosts, ∃ port, stripStart host rest = some port ∧ IsPort port := by
    unfold localUrlRegex
    rcases afterScheme (toLowerCase value) with - | rest
    · simp
    · simp [localHosts, Option.any_eq_true, portRegex_iff]
  rw [hmatch]
  simp only [afterScheme_eq_some_iff, stripStart_eq_some_iff]
  constructor
  · rintro ⟨rest, ⟨scheme, hscheme, htext⟩, host, hhost, port, rfl, hport⟩
    exact ⟨scheme, hscheme, host, hhost, port, hport, by rw [htext, List.append_assoc]⟩
  · rintro ⟨scheme, hscheme, host, hhost, port, hport, htext⟩
    rw [List.append_assoc] at htext
    exact ⟨host ++ port, ⟨scheme, hscheme, htext⟩, host, hhost, port, rfl, hport⟩

theorem httpPrefixRegex_iff :
    httpPrefixRegex value = true ↔
      (∃ scheme ∈ httpSchemes, scheme <+: value) ∧ 0x0a ∉ value ∧ 0x0d ∉ value := by
  have hmatch : httpPrefixRegex value = true ↔
      ∃ rest, afterScheme value = some rest ∧ 0x0a ∉ rest ∧ 0x0d ∉ rest := by
    unfold httpPrefixRegex
    rcases afterScheme value with - | rest
    · simp
    · simp only [Option.some_inj, exists_eq_left', List.all_eq_true, Bool.and_eq_true, bne_iff_ne]
      constructor
      · intro h
        exact ⟨fun hmem => (h _ hmem).1 rfl, fun hmem => (h _ hmem).2 rfl⟩
      · rintro ⟨hlf, hcr⟩ ch hmem
        exact ⟨fun h => hlf (h ▸ hmem), fun h => hcr (h ▸ hmem)⟩
  have hscheme : ∀ scheme ∈ httpSchemes, 0x0a ∉ scheme ∧ 0x0d ∉ scheme := by decide
  rw [hmatch]
  simp only [afterScheme_eq_some_iff]
  constructor
  · rintro ⟨rest, ⟨scheme, hs, rfl⟩, hlf, hcr⟩
    refine ⟨⟨scheme, hs, List.prefix_append _ _⟩, ?_, ?_⟩
    · simp [hlf, (hscheme scheme hs).1]
    · simp [hcr, (hscheme scheme hs).2]
  · rintro ⟨⟨scheme, hs, rest, rfl⟩, hlf, hcr⟩
    refine ⟨rest, ⟨scheme, hs, rfl⟩, ?_, ?_⟩
    · exact fun hmem => hlf (List.mem_append_right _ hmem)
    · exact fun hmem => hcr (List.mem_append_right _ hmem)

theorem validateHttpRequestOrigin_eq_false_iff :
    validateHttpRequestOrigin value = false ↔
      (∃ scheme ∈ httpSchemes, scheme <+: value) ∧ 0x0a ∉ value ∧ 0x0d ∉ value ∧
        ¬ IsLocalOrigin value := by
  have hrej : validateHttpRequestOrigin value = false ↔
      httpPrefixRegex value = true ∧ ¬ localUrlRegex value = true := by
    unfold validateHttpRequestOrigin
    rcases value with - | ⟨ch, value⟩
    · simp only [List.isEmpty_nil, if_true]
      decide
    · rw [List.isEmpty_cons, if_neg Bool.false_ne_true]
      rcases httpPrefixRegex (ch :: value) with - | - <;> simp
  rw [hrej, httpPrefixRegex_iff, localUrlRegex_iff, and_assoc, and_assoc]

theorem decode_accepts_iff :
    (decode text).1 = true ↔
      get <:+: text ∧ validateHttpRequestOrigin (decodeHeader text HttpBase.origin) = true := by
  rcases hpos : find get text 0 with - | pos
  · have hget : ¬ get <:+: text := by rwa [find_zero, findIdx_eq_none_iff] at hpos
    simp [decode, hpos, hget]
  · have hget : get <:+: text := by
      by_contra hget
      rw [find_zero, findIdx_eq_none_iff.mpr hget] at hpos
      cases hpos
    simp [decode, hpos, hget]

end HttpRequest

/-! ### The filter -/

/-- A request with an `http` or `https` origin is accepted only if that origin
is a local one. -/
def OriginFiltered (text : Bytes) : Prop :=
  ∀ value, HasOrigin text value → IsHttpOrigin value →
    (HttpRequest.decode text).1 = true → IsLocalOrigin value

/-- The first `Origin: ` of the text, wherever it stands, is followed by a
foreign origin, with its scheme in small letters and no line end in it. -/
def ForeignFirst (text : Bytes) : Prop :=
  ∃ value, (messageLines text).findSome? (textAfter HttpBase.origin) = some value ∧
    (∃ scheme ∈ httpSchemes, scheme <+: value) ∧ 0x0a ∉ value ∧ 0x0d ∉ value ∧ ¬ IsLocalOrigin value

theorem foreignFirst_iff {text : Bytes} :
    ForeignFirst text ↔
      HttpRequest.validateHttpRequestOrigin (decodeHeader text HttpBase.origin) = false := by
  obtain ⟨hne, hcr, hlf⟩ := AskedHeader.origin.pattern_line
  have hheader : decodeHeader text HttpBase.origin
      = ((messageLines text).findSome? (textAfter HttpBase.origin)).getD [] :=
    decodeHeader_eq hne hcr hlf text
  rw [hheader, ForeignFirst]
  rcases (messageLines text).findSome? (textAfter HttpBase.origin) with - | value
  · -- without a mention the origin is empty, which is accepted
    rw [Option.getD_none]
    simp only [reduceCtorEq, false_and, exists_false, false_iff]
    decide
  · simp only [Option.some_inj, exists_eq_left', Option.getD_some,
      HttpRequest.validateHttpRequestOrigin_eq_false_iff]

/-- **The origin filter** works exactly if a request with a foreign origin,
unless it has no `GET`, mentions such an origin first and in the spelling that
the decoder knows. -/
theorem origin_filter (text : Bytes) :
    OriginFiltered text ↔
      ((∃ value, HasOrigin text value ∧ IsHttpOrigin value ∧ ¬ IsLocalOrigin value) →
        get <:+: text → ForeignFirst text) := by
  rw [foreignFirst_iff]
  constructor
  · rintro hfilter ⟨value, hhas, hhttp, hforeign⟩ hget
    by_contra hvalid
    rw [Bool.not_eq_false] at hvalid
    exact hforeign (hfilter value hhas hhttp (HttpRequest.decode_accepts_iff.mpr ⟨hget, hvalid⟩))
  · intro hfirst value hhas hhttp haccept
    obtain ⟨hget, hvalid⟩ := HttpRequest.decode_accepts_iff.mp haccept
    by_contra hforeign
    rw [hfirst ⟨value, hhas, hhttp, hforeign⟩ hget] at hvalid
    cases hvalid

/-- A request with a foreign origin and the header name in small letters. -/
def smallOrigin : Bytes :=
  ascii "GET / HTTP/1.1\r\norigin: http://evil.example\r\n\r\n"

theorem smallOrigin_not_filtered : ¬ OriginFiltered smallOrigin := by
  intro hfilter
  have haccept : (HttpRequest.decode smallOrigin).1 = true := by decide +kernel
  have hlocal : IsLocalOrigin (ascii "http://evil.example") := by
    apply hfilter _ _ _ haccept
    · exact ⟨ascii "origin", ascii " http://evil.example", by decide +kernel, by decide +kernel,
        by decide +kernel, by decide +kernel⟩
    · exact ⟨ascii "http://", by decide +kernel, by decide +kernel⟩
  rw [← HttpRequest.localUrlRegex_iff] at hlocal
  exact absurd hlocal (by decide +kernel)

end ArkToolchain
