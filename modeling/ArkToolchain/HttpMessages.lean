/-
The messages of the opening handshake, line by line (websocket/http.cpp).

The decoders search the whole text.  `decodeHeader_eq` says what they find: what follows the
first mention of the name, in the first line that has one.  The request line, longer names,
other values and the body count as mentions as well, and the blank after a status can be one of
a later line.

Main results: `header_lookup` and `status_line_decoded`.
-/
import ArkToolchain.Http
import ArkToolchain.Lines

namespace ArkToolchain

open HttpResponse

open HttpBase

def messageLines (text : Bytes) : List Bytes :=
  lines 0x0d 0x0a text

theorem eol_eq : eol = [0x0d, 0x0a] := by
  decide

/-! ### Headers are read line by line -/

namespace HttpBase

variable {name : Bytes}

/-- The two comparisons of `DecodeHeader` only avoid an empty value. -/
theorem decodeHeader_of_find {text : Bytes} {i : Nat} (h : find name text 0 = some i) :
    decodeHeader text name =
      (text.drop (i + name.length)).take
        ((find eol text i).getD text.length - (i + name.length)) := by
  rw [decodeHeader, h]
  dsimp only
  split
  next => rfl
  next hend =>
    by_cases hlen : i + name.length < text.length
    · have hzero : (find eol text i).getD text.length - (i + name.length) = 0 := by omega
      rw [hzero, List.take_zero]
    · rw [List.drop_eq_nil_iff.mpr (by omega), List.take_nil]

theorem decodeHeader_of_not_infix {line : Bytes} (h : ¬ [0x0d, 0x0a] <:+: line) :
    decodeHeader line name = (textAfter name line).getD [] := by
  rw [textAfter, ← find_zero]
  rcases hi : find name line 0 with - | i
  · rw [decodeHeader, hi]
    rfl
  · rw [decodeHeader_of_find hi, eol_eq, find_lineEnd_eq_none h, Option.getD_none,
      List.take_of_length_le (by rw [List.length_drop])]
    rfl

theorem decodeHeader_line (hne : name ≠ []) (hcr : 0x0d ∉ name) (hlf : 0x0a ∉ name)
    {line : Bytes} (h : ¬ [0x0d, 0x0a] <:+: line) (text : Bytes) :
    decodeHeader (line ++ 0x0d :: 0x0a :: text) name =
      (textAfter name line).getD (decodeHeader text name) := by
  have hsearch := findIdx_line hne hcr hlf line text
  rw [textAfter]
  rcases hi : findIdx name line with - | i
  · -- the search goes on behind the line
    rw [hi, Option.none_or, ← find_zero, ← find_zero name text] at hsearch
    rw [Option.map_none, Option.getD_none]
    rcases hj : find name text 0 with - | j
    · rw [hj, Option.map_none] at hsearch
      rw [decodeHeader, hsearch, decodeHeader, hj]
    · rw [hj, Option.map_some] at hsearch
      have htext : line ++ 0x0d :: 0x0a :: text = (line ++ [0x0d, 0x0a]) ++ text := by simp
      rw [decodeHeader_of_find hsearch, decodeHeader_of_find hj, htext, find_append_add,
        Nat.add_assoc, List.drop_length_add_append]
      congr 1
      rcases find eol text j with - | e
      · simp only [Option.map_none, Option.getD_none, List.length_append]
        omega
      · simp only [Option.map_some, Option.getD_some]
        omega
  · rw [hi, Option.some_or, ← find_zero] at hsearch
    have hle : i + name.length ≤ line.length := find_le_length ((find_zero name line).trans hi)
    rw [decodeHeader_of_find hsearch, eol_eq, find_lineEnd (by decide) h text (by omega),
      Option.getD_some, List.drop_append_of_le_length hle,
      List.take_left' (by rw [List.length_drop])]
    rfl

/-- **What `DecodeHeader` finds**: what follows the first occurrence of the
name, in the first line that has one. -/
theorem decodeHeader_eq (hne : name ≠ []) (hcr : 0x0d ∉ name) (hlf : 0x0a ∉ name) (text : Bytes) :
    decodeHeader text name = ((messageLines text).findSome? (textAfter name)).getD [] := by
  unfold messageLines
  induction text using lines_induction (0x0d : UInt8) 0x0a with
  | last line h =>
    rw [ decodeHeader_of_not_infix h, lines_of_not_infix h, List.findSome?_singleton]
  | next line text h ih =>
    rw [decodeHeader_line hne hcr hlf h, lines_append (by decide) h, List.findSome?_cons, ih]
    rcases textAfter name line with - | value <;> rfl

end HttpBase

/-! ### Header lookup -/

/-- The headers that the decoder of requests asks for. -/
inductive AskedHeader
  | connection
  | upgrade
  | secWebSocketKey
  | origin
  deriving DecidableEq

namespace AskedHeader

def fieldName : AskedHeader → Bytes
  | .connection => ascii "Connection"
  | .upgrade => ascii "Upgrade"
  | .secWebSocketKey => ascii "Sec-WebSocket-Key"
  | .origin => ascii "Origin"

/-- What the decoder searches for: the name, a colon and a blank. -/
def pattern : AskedHeader → Bytes
  | .connection => HttpBase.connection
  | .upgrade => HttpBase.upgrade
  | .secWebSocketKey => HttpBase.secWebSocketKey
  | .origin => HttpBase.origin

/-- The field of the parsed request in which the value is stored. -/
def stored (parsed : HttpRequest) : AskedHeader → Bytes
  | .connection => parsed.connection
  | .upgrade => parsed.upgrade
  | .secWebSocketKey => parsed.secWebSocketKey
  | .origin => parsed.origin

theorem pattern_line (header : AskedHeader) :
    header.pattern ≠ [] ∧ 0x0d ∉ header.pattern ∧ 0x0a ∉ header.pattern := by
  cases header <;> decide

end AskedHeader

/-- Without the blanks and tabs at both ends. -/
def stripBlanks (text : Bytes) : Bytes :=
  let isBlank := fun ch : UInt8 => ch == 0x20 || ch == 0x09
  ((text.dropWhile isBlank).reverse.dropWhile isBlank).reverse

/-- A header line: a field name, a colon and the rest of the line. -/
structure HeaderLine where
  name : Bytes
  rest : Bytes
  name_colon : 0x3a ∉ name
  name_line : ∀ ch ∈ name, ch ≠ 0x0d ∧ ch ≠ 0x0a
  rest_line : ∀ ch ∈ rest, ch ≠ 0x0d ∧ ch ≠ 0x0a

namespace HeaderLine

def line (header : HeaderLine) : Bytes :=
  header.name ++ 0x3a :: header.rest

/-- The field value, without the blanks around it. -/
def value (header : HeaderLine) : Bytes :=
  stripBlanks header.rest

theorem not_infix_line (header : HeaderLine) : ¬ [0x0d, 0x0a] <:+: header.line := by
  apply not_infix_of_notMem
  intro hmem
  rcases List.mem_append.mp hmem with hname | hrest
  · exact (header.name_line _ hname).1 rfl
  · rcases List.mem_cons.mp hrest with hcolon | hrest
    · exact absurd hcolon (by decide)
    · exact (header.rest_line _ hrest).1 rfl

end HeaderLine

/-- A well-formed request: the request line, header lines, an empty line and
the body. -/
structure RequestText where
  requestLine : Bytes
  headers : List HeaderLine
  body : Bytes := []
  requestLine_line : ∀ ch ∈ requestLine, ch ≠ 0x0d ∧ ch ≠ 0x0a

namespace RequestText

variable (request : RequestText)

/-- The header lines, with what follows them. -/
def headersText (body : Bytes) : List HeaderLine → Bytes
  | [] => 0x0d :: 0x0a :: body
  | header :: headers => header.line ++ 0x0d :: 0x0a :: headersText body headers

def text : Bytes :=
  request.requestLine ++ 0x0d :: 0x0a :: headersText request.body request.headers

/-- The value of the first header line with the field name. -/
def value (fieldName : Bytes) : Bytes :=
  match request.headers.find? fun header => header.name = fieldName with
  | none => []
  | some header => header.value

theorem messageLines_headersText (body : Bytes) (headers : List HeaderLine) :
    messageLines (headersText body headers) =
      headers.map HeaderLine.line ++ [] :: messageLines body := by
  unfold messageLines
  induction headers with
  | nil =>
    have hempty : ¬ [0x0d, 0x0a] <:+: ([] : Bytes) := by simp
    exact lines_append (by decide) hempty body
  | cons header headers ih =>
    rw [headersText, lines_append (by decide) header.not_infix_line, ih]
    rfl

/-- The request line, the header lines, the empty line and those of the
body. -/
def allLines : List Bytes :=
  request.requestLine :: (request.headers.map HeaderLine.line ++ [] :: messageLines request.body)

theorem messageLines_text (request : RequestText) :
    messageLines request.text = request.allLines := by
  have hline : ¬ [0x0d, 0x0a] <:+: request.requestLine :=
    not_infix_of_notMem fun hmem => (request.requestLine_line _ hmem).1 rfl
  rw [allLines, ← messageLines_headersText, text, messageLines, lines_append (by decide) hline]
  rfl

/-- The value that the decoder stores is the one of the first header line with
exactly that name.  Without `GET` in the text it asks for no header. -/
def LooksUp (header : AskedHeader) : Prop :=
  get <:+: request.text →
    header.stored (HttpRequest.decode request.text).2 = request.value header.fieldName

/-- The first line of the text that mentions the header, be it the request
line, another header or a line of the body, goes on with the value; and if
none does, the value is empty. -/
def FirstMention (header : AskedHeader) : Prop :=
  match request.allLines.find? fun line => header.pattern <:+: line with
  | none => request.value header.fieldName = []
  | some line => textAfter header.pattern line = some (request.value header.fieldName)

end RequestText

/-- What is stored is what `DecodeHeader` finds, if the text has a `GET`. -/
theorem AskedHeader.stored_decode (header : AskedHeader) {text : Bytes} (hget : get <:+: text) :
    header.stored (HttpRequest.decode text).2 = decodeHeader text header.pattern := by
  rcases hpos : find get text 0 with - | pos
  · rw [find_zero, findIdx_eq_none_iff] at hpos
    exact absurd hget hpos
  · rw [HttpRequest.decode, hpos]
    cases header <;> rfl

/-- **Header lookup.**  The decoder stores the value of the first header line
with the name it asks for exactly if the first mention of `name: ` in the
text, wherever it stands, is followed by that value. -/
theorem header_lookup (request : RequestText) (header : AskedHeader) :
    request.LooksUp header ↔ (get <:+: request.text → request.FirstMention header) := by
  refine forall_congr' fun hget => ?_
  obtain ⟨hne, hcr, hlf⟩ := header.pattern_line
  rw [header.stored_decode hget, decodeHeader_eq hne hcr hlf, request.messageLines_text,
    findSome?_textAfter, RequestText.FirstMention]
  rcases hfind : request.allLines.find? fun line => header.pattern <:+: line with - | line
  · exact eq_comm
  · -- the line has an occurrence, so something follows it
    have hin : header.pattern <:+: line := by simpa using List.find?_some hfind
    obtain ⟨value, hvalue⟩ := exists_textAfter hin
    show _ ↔ textAfter header.pattern line = some (request.value header.fieldName)
    rw [Option.bind_some, hvalue, Option.getD_some, Option.some_inj]

def proxyRequest : RequestText where
  requestLine := ascii "GET / HTTP/1.1"
  headers :=
    [⟨ascii "Proxy-Connection", ascii " keep-alive", by decide, by decide +kernel,
        by decide +kernel⟩,
      ⟨ascii "Connection", ascii " Upgrade", by decide, by decide +kernel, by decide +kernel⟩]
  requestLine_line := by decide +kernel

/-- The value is taken from the header whose name ends with the one asked
for. -/
theorem proxyRequest_not_looksUp : ¬ proxyRequest.LooksUp .connection := by
  intro hlook
  have hstored : decodeHeader proxyRequest.text HttpBase.connection = ascii "Upgrade" :=
    (AskedHeader.connection.stored_decode (by decide +kernel)).symm.trans
      (hlook (by decide +kernel))
  exact absurd hstored (by decide +kernel)

/-! ### The status line -/

/-- A response with a well-formed status line; `more` is everything behind its
end.  The reason phrase may be missing, and it may be empty. -/
structure ResponseText where
  version : Bytes
  status : Bytes
  reason : Option Bytes
  more : Bytes
  version_http : ascii "HTTP" <+: version
  version_token : ∀ ch ∈ version, ch ≠ 0x20 ∧ ch ≠ 0x0d ∧ ch ≠ 0x0a
  status_token : ∀ ch ∈ status, ch ≠ 0x20 ∧ ch ≠ 0x0d ∧ ch ≠ 0x0a
  status_ne : status ≠ []
  reason_line : ∀ phrase ∈ reason, ∀ ch ∈ phrase, ch ≠ 0x0d ∧ ch ≠ 0x0a

namespace ResponseText

def afterStatus (response : ResponseText) : Bytes :=
  (match response.reason with
    | none => []
    | some phrase => 0x20 :: phrase) ++ 0x0d :: 0x0a :: response.more

def text (response : ResponseText) : Bytes :=
  (response.version ++ [0x20]) ++ (response.status ++ response.afterStatus)

variable (response : ResponseText)

theorem decodeVersion_text : decodeVersion response.text 0 = response.version := by
  have hspace : find space response.text 0 = some response.version.length := by
    rw [find_zero, text, List.append_assoc,
      show space = [0x20] by decide,
      findIdx_append_of_notMem fun hmem => (response.version_token _ hmem).1 rfl,
      List.singleton_append, findIdx, if_pos (by simp [List.isPrefixOf]), Option.map_some,
      Nat.zero_add]
  have hlen : 0 < response.text.length := by
    rw [text, List.length_append, List.length_append, List.length_singleton]
    omega
  rw [decodeVersion, if_pos hlen, hspace]
  dsimp only
  rw [substr, List.drop_zero, Nat.sub_zero, text, List.append_assoc, List.take_left]

/-- The status ends with the first blank behind its start, in whatever line
that stands, and only without one with the line. -/
theorem decodeStatus_text :
    decodeStatus response.text response.version.length =
      match (findIdx [0x20] (response.status ++ response.afterStatus)).or
          (findIdx [0x0d, 0x0a] (response.status ++ response.afterStatus)) with
      | none => []
      | some statusEnd => (response.status ++ response.afterStatus).take statusEnd := by
  set rest := response.status ++ response.afterStatus with hrest
  have htext : response.text = (response.version ++ [0x20]) ++ rest := rfl
  have hlen : (response.version ++ [0x20]).length = response.version.length + 1 := by simp
  have hblank : response.text[response.version.length]? = some 0x20 := by
    rw [htext, List.append_assoc, List.getElem?_append_right (Nat.le_refl _), Nat.sub_self]
    rfl
  -- the status begins right behind the blank
  have hstart : findFirstNotOf 0x20 response.text response.version.length
      = some (response.version.length + 1) := by
    obtain ⟨ch, status, hstatus⟩ := List.exists_cons_of_ne_nil response.status_ne
    have hch : ch ≠ 0x20 := (response.status_token ch (by rw [hstatus]; simp)).1
    rw [findFirstNotOf, htext, List.append_assoc, List.drop_left, hrest, hstatus]
    simp [List.findIdx?_cons, hch, Nat.add_comm]
  have hfind : ∀ pat, find pat response.text (response.version.length + 1)
      = (findIdx pat rest).map (response.version.length + 1 + ·) := by
    intro pat
    have hshift := find_append_add pat (response.version ++ [0x20]) rest 0
    rwa [Nat.add_zero, hlen, find_zero, ← htext] at hshift
  rw [decodeStatus, if_pos hblank, hstart]
  dsimp only
  rw [hfind, hfind, ← Option.map_or, eol_eq, show space = [0x20] by decide]
  rcases (findIdx [0x20] rest).or (findIdx [0x0d, 0x0a] rest) with - | statusEnd
  · rfl
  · dsimp only [Option.map_some]
    rw [substr, htext, List.drop_left' hlen, Nat.add_sub_cancel_left]

/-- Version and status are the first two tokens of the status line. -/
def Decoded : Prop :=
  (decode response.text).1 = true ∧
    (decode response.text).2.version = response.version ∧
    (decode response.text).2.status = response.status

/-- **Status lines** are decoded exactly if there is a reason phrase, be it an
empty one, or no blank in the whole text behind the line. -/
theorem status_line_decoded :
    response.Decoded ↔ response.reason.isSome = true ∨ 0x20 ∉ response.more := by
  have hstatus : 0x20 ∉ response.status := fun hmem => (response.status_token _ hmem).1 rfl
  have hcr : ¬ [0x0d, 0x0a] <:+: response.status :=
    not_infix_of_notMem fun hmem => (response.status_token _ hmem).2.1 rfl
  have hstart : find (ascii "HTTP") response.text 0 = some 0 := by
    rw [find_zero, findIdx_eq_some_iff]
    refine ⟨Nat.zero_le _, ?_, fun j hj => absurd hj (Nat.not_lt_zero j)⟩
    rw [List.drop_zero, text, List.append_assoc]
    exact response.version_http.trans (List.prefix_append _ _)
  have hdecoded : response.Decoded ↔
      decodeStatus response.text response.version.length = response.status := by
    rw [Decoded, decode, hstart]
    simp [decodeVersion_text]
  have hmore : findIdx [0x20] response.more = none ↔ 0x20 ∉ response.more := by
    rw [findIdx_eq_none_iff, List.singleton_infix_iff]
  rw [hdecoded, decodeStatus_text, findIdx_append_of_notMem hstatus]
  rcases hreason : response.reason with - | phrase
  · have hafter : response.afterStatus = [0x0d, 0x0a] ++ response.more := by
      rw [afterStatus, hreason]
      rfl
    have hends : (0x20 : UInt8) ∉ [0x0d, 0x0a] := by decide
    rw [hafter, findIdx_append_of_notMem hends]
    rcases hblank : findIdx [0x20] response.more with - | i
    · -- no blank is left, so the line end counts
      have heol : findIdx [0x0d, 0x0a] (response.status ++ ([0x0d, 0x0a] ++ response.more))
          = some response.status.length := by
        rw [← find_zero]
        exact find_lineEnd (by decide) hcr response.more (Nat.zero_le _)
      rw [Option.map_none, Option.map_none, Option.none_or, heol]
      simp [hmore.mp hblank]
    · -- the blank stands in a later line
      have hmore : 0x20 ∈ response.more := by simpa [hblank] using hmore
      have hi : i < response.more.length := find_le_length ((find_zero _ _).trans hblank)
      rw [Option.map_some, Option.map_some, Option.some_or]
      simp only [hmore, Option.isSome_none, Bool.false_eq_true, not_true_eq_false, or_self,
        iff_false]
      intro htake
      have hlen := congrArg List.length htake
      simp only [List.length_take, List.length_append, List.length_cons, List.length_nil] at hlen
      omega
  · have hafter : response.afterStatus = 0x20 :: (phrase ++ 0x0d :: 0x0a :: response.more) := by
      rw [afterStatus, hreason]
      rfl
    have hzero : findIdx [0x20] response.afterStatus = some 0 := by
      rw [hafter, findIdx, if_pos (by simp [List.isPrefixOf])]
    rw [hzero, Option.map_some, Option.some_or]
    simp

end ResponseText

/-- A response without a reason phrase, and with a blank in a header. -/
def noReason : ResponseText where
  version := ascii "HTTP/1.1"
  status := ascii "101"
  reason := none
  more := ascii "Upgrade: websocket\r\n\r\n"
  version_http := by decide
  version_token := by decide +kernel
  status_token := by decide +kernel
  status_ne := by decide
  reason_line := by decide

/-- The status goes on into the next line. -/
theorem noReason_not_decoded :
    ¬ noReason.Decoded ∧
      (decode noReason.text).2.status = ascii "101\r\nUpgrade:" := by
  have hstatus : (decode noReason.text).2.status = ascii "101\r\nUpgrade:" := by
    decide +kernel
  refine ⟨?_, hstatus⟩
  rintro ⟨-, -, hdecoded⟩
  rw [hstatus] at hdecoded
  exact absurd hdecoded (by decide +kernel)

end ArkToolchain
