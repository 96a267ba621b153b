/-
The texts of the opening handshake (websocket/http.cpp, websocket/string_utils.h).

Both sides search their peer's message for header names.  `std::string::npos` as the end of a
line means the end of the text, so a missing line end is the text's length.  The two regular
expressions that judge an `Origin` are written out as matchers.
-/
import ArkToolchain.Bytes
import ArkToolchain.Search

namespace ArkToolchain

/-! ### String utilities -/

/-- `std::isspace` in the C locale. -/
def isSpace (ch : UInt8) : Bool :=
  ch == 0x20 || (0x09 ≤ ch && ch ≤ 0x0d)

def isDigit (ch : UInt8) : Bool :=
  0x30 ≤ ch && ch ≤ 0x39

def trimLeft (str : Bytes) : Bytes := str.dropWhile isSpace

def trimRight (str : Bytes) : Bytes := (str.reverse.dropWhile isSpace).reverse

def trim (str : Bytes) : Bytes := trimRight (trimLeft str)

/-- `std::tolower` in the C locale, on every character. -/
def toLowerCase (str : Bytes) : Bytes :=
  str.map fun c => if 0x41 ≤ c && c ≤ 0x5a then c + 0x20 else c

/-- `std::string::substr`. -/
def substr (text : Bytes) (pos n : Nat) : Bytes := (text.drop pos).take n

/-- `std::string::find_first_not_of` for one character. -/
def findFirstNotOf (ch : UInt8) (text : Bytes) (pos : Nat) : Option Nat :=
  ((text.drop pos).findIdx? (· != ch)).map (· + pos)

/-! ### Headers -/

namespace HttpBase

def eol : Bytes := ascii "\r\n"
def get : Bytes := ascii "GET"
def connection : Bytes := ascii "Connection: "
def upgrade : Bytes := ascii "Upgrade: "
def origin : Bytes := ascii "Origin: "
def secWebSocketAccept : Bytes := ascii "Sec-WebSocket-Accept: "
def secWebSocketKey : Bytes := ascii "Sec-WebSocket-Key: "

def space : Bytes := ascii " "

/-- `DecodeHeader`: what stands behind the first occurrence up to the end of the line. -/
def decodeHeader (headersText headerName : Bytes) : Bytes :=
  match find headerName headersText 0 with
  | none => []
  | some startPos =>
    let endOfLinePos := (find eol headersText startPos).getD headersText.length
    let startPos := startPos + headerName.length
    if startPos < headersText.length ∧ startPos < endOfLinePos then
      substr headersText startPos (endOfLinePos - startPos)
    else []

end HttpBase

open HttpBase

/-! ### Requests -/

/-- `HttpRequest`. -/
structure HttpRequest where
  version : Bytes := []
  connection : Bytes := []
  upgrade : Bytes := []
  secWebSocketKey : Bytes := []
  origin : Bytes := []
  deriving DecidableEq

namespace HttpRequest

/-- The text after `start`, if it begins so. -/
def stripStart (start text : Bytes) : Option Bytes :=
  if start.isPrefixOf text then some (text.drop start.length) else none

/-- What follows `https?:\/\/` at the beginning of a text. -/
def afterScheme (text : Bytes) : Option Bytes :=
  (stripStart (ascii "http://") text).or (stripStart (ascii "https://") text)

/-- `^(https?:\/\/).*` on the whole text; the dot matches no line end. -/
def httpPrefixRegex (text : Bytes) : Bool :=
  match afterScheme text with
  | none => false
  | some rest => rest.all fun ch => ch != 0x0a && ch != 0x0d

/-- `(:\d+)?$`. -/
def portRegex (text : Bytes) : Bool :=
  match stripStart (ascii ":") text with
  | none => text.isEmpty
  | some digits => !digits.isEmpty && digits.all isDigit

/-- `^(https?:\/\/)(localhost|127\.0\.0\.1|\[::1\])(:\d+)?$`, ignoring case. -/
def localUrlRegex (text : Bytes) : Bool :=
  match afterScheme (toLowerCase text) with
  | none => false
  | some rest =>
    [ascii "localhost", ascii "127.0.0.1", ascii "[::1]"].any fun host =>
      (stripStart host rest).any portRegex

/-- `ValidateHttpRequestOrigin`. -/
def validateHttpRequestOrigin (httpRequestOrigin : Bytes) : Bool :=
  if httpRequestOrigin.isEmpty then true
  else if !httpPrefixRegex httpRequestOrigin then true
  else localUrlRegex httpRequestOrigin

/-- The version: what stands behind the second blank of the line. -/
def decodeVersion (request : Bytes) (methodStartPos : Nat) : Bytes :=
  if request.length ≤ methodStartPos then []
  else
    let endOfLinePos := (find eol request methodStartPos).getD request.length
    -- the version stands after the second space
    match (find space request methodStartPos).bind fun pos => find space request (pos + 1) with
    | none => []
    | some pos =>
      if pos + 1 < request.length ∧ pos + 1 < endOfLinePos then
        substr request (pos + 1) (endOfLinePos - (pos + 1))
      else []

/-- `Decode`: whether it succeeded, and the fields it has filled in. -/
def decode (request : Bytes) : Bool × HttpRequest :=
  match find get request 0 with
  | none => (false, {})
  | some pos =>
    let parsed : HttpRequest :=
      { version := decodeVersion request pos
        connection := decodeHeader request HttpBase.connection
        upgrade := decodeHeader request HttpBase.upgrade
        secWebSocketKey := decodeHeader request HttpBase.secWebSocketKey
        origin := decodeHeader request HttpBase.origin }
    (validateHttpRequestOrigin parsed.origin, parsed)

end HttpRequest

/-! ### Responses -/

/-- `HttpResponse`. -/
structure HttpResponse where
  version : Bytes := []
  status : Bytes := []
  connection : Bytes := []
  upgrade : Bytes := []
  secWebSocketAccept : Bytes := []
  deriving DecidableEq

namespace HttpResponse

/-- The version, up to the first blank. -/
def decodeVersion (response : Bytes) (versionStartPos : Nat) : Bytes :=
  if versionStartPos < response.length then
    match find space response versionStartPos with
    | none => []
    | some versionEndPos => substr response versionStartPos (versionEndPos - versionStartPos)
  else []

/-- The status, the word after it. -/
def decodeStatus (response : Bytes) (versionEndPos : Nat) : Bytes :=
  if response[versionEndPos]? = some 0x20 then
    match findFirstNotOf 0x20 response versionEndPos with
    | none => []
    | some statusStartPos =>
      -- a status without a reason phrase ends with its line
      match (find space response statusStartPos).or (find eol response statusStartPos) with
      | none => []
      | some statusEndPos => substr response statusStartPos (statusEndPos - statusStartPos)
  else []

/-- `Decode`: whether it succeeded, and the fields it has filled in. -/
def decode (response : Bytes) : Bool × HttpResponse :=
  match find (ascii "HTTP") response 0 with
  | none => (false, {})
  | some versionStartPos =>
    let version := decodeVersion response versionStartPos
    (true,
      { version := version
        status := decodeStatus response (versionStartPos + version.length)
        connection := decodeHeader response HttpBase.connection
        upgrade := decodeHeader response HttpBase.upgrade
        secWebSocketAccept := decodeHeader response HttpBase.secWebSocketAccept })

end HttpResponse

/-! ### Headers of a message put together from parts -/

variable {text pat : Bytes} {pos i : Nat}

theorem find_le_length (h : find pat text pos = some i) : i + pat.length ≤ text.length := by
  unfold find at h
  split at h
  next hpos =>
    obtain ⟨j, hj, rfl⟩ := Option.map_eq_some_iff.mp h
    obtain ⟨hle, hocc, -⟩ := findIdx_eq_some_iff.mp hj
    have hlen := hocc.length_le
    simp only [List.length_drop] at hle hlen
    omega
  next => cases h

theorem le_of_find (h : find pat text pos = some i) : pos ≤ i := by
  unfold find at h
  split at h
  next =>
    obtain ⟨j, -, rfl⟩ := Option.map_eq_some_iff.mp h
    omega
  next => cases h

theorem substr_append {n : Nat} (h : pos + n ≤ text.length) (more : Bytes) :
    substr (text ++ more) pos n = substr text pos n := by
  unfold substr
  rw [List.drop_append_of_le_length (by omega), List.take_append_of_le_length]
  rw [List.length_drop]
  omega

theorem HttpRequest.decodeVersion_append {e s t : Nat} (he : find eol text pos = some e)
    (hs : find space text pos = some s) (ht : find space text (s + 1) = some t) (more : Bytes) :
    HttpRequest.decodeVersion (text ++ more) pos = HttpRequest.decodeVersion text pos := by
  have hend : e + 2 ≤ text.length := find_le_length he
  have hpos : pos ≤ e := le_of_find he
  unfold HttpRequest.decodeVersion
  rw [if_neg (by rw [List.length_append]; omega), if_neg (by omega)]
  simp only [find_append_of_eq_some he, he, find_append_of_eq_some hs, hs,
    find_append_of_eq_some ht, ht, Option.bind_some, Option.getD_some, List.length_append]
  by_cases hlt : t + 1 < e
  · rw [if_pos (by omega), if_pos (by omega), substr_append (by omega)]
  · rw [if_neg (by omega), if_neg (by omega)]

theorem HttpResponse.decodeVersion_append {e : Nat} (he : find space text pos = some e)
    (more : Bytes) :
    HttpResponse.decodeVersion (text ++ more) pos = HttpResponse.decodeVersion text pos := by
  have hend : e + 1 ≤ text.length := find_le_length he
  have hpos : pos ≤ e := le_of_find he
  unfold HttpResponse.decodeVersion
  rw [if_pos (by rw [List.length_append]; omega), if_pos (by omega), find_append_of_eq_some he, he]
  exact substr_append (by omega) more

theorem findFirstNotOf_append {ch : UInt8} (h : findFirstNotOf ch text pos = some i)
    (more : Bytes) : findFirstNotOf ch (text ++ more) pos = some i := by
  obtain ⟨j, hj, rfl⟩ := Option.map_eq_some_iff.mp h
  rw [findFirstNotOf, List.drop_append, List.findIdx?_append, hj]
  rfl

theorem HttpResponse.decodeStatus_append {s e : Nat} (hs : findFirstNotOf 0x20 text pos = some s)
    (he : find space text s = some e) (more : Bytes) :
    HttpResponse.decodeStatus (text ++ more) pos = HttpResponse.decodeStatus text pos := by
  have hend : e + 1 ≤ text.length := find_le_length he
  have hse : s ≤ e := le_of_find he
  have hpos : pos ≤ s := by
    obtain ⟨j, -, rfl⟩ := Option.map_eq_some_iff.mp hs
    omega
  unfold HttpResponse.decodeStatus
  rw [List.getElem?_append_left (by omega), findFirstNotOf_append hs, hs]
  simp only [find_append_of_eq_some he, he, Option.some_or,
    substr_append (show s + (e - s) ≤ text.length by omega)]

theorem decodeHeader_append {name : Bytes} {p e : Nat} (hp : find name text 0 = some p)
    (he : find eol text p = some e) (more : Bytes) :
    decodeHeader (text ++ more) name = decodeHeader text name := by
  -- the line end lies within `text`, so both searches stay where they are
  have hend : e + 2 ≤ text.length := find_le_length he
  unfold decodeHeader
  rw [find_append_of_eq_some hp, hp]
  simp only [find_append_of_eq_some he, he, Option.getD_some, List.length_append]
  by_cases hlt : p + name.length < e
  · rw [if_pos (by omega), if_pos (by omega), substr_append (by omega)]
  · rw [if_neg (by omega), if_neg (by omega)]

theorem findIdx_eol_append (h : 0x0d ∉ text) (more : Bytes) :
    findIdx eol (text ++ (eol ++ more)) = some text.length := by
  have hfirst : findIdx eol (eol ++ more) = some 0 := findIdx_append_of_eq_some (by decide) more
  rw [show eol = [0x0d, 0x0a] by decide] at hfirst ⊢
  rw [findIdx_append_of_notMem h, hfirst, Option.map_some, Nat.zero_add]

/-- A value without carriage returns, inserted between the first occurrence of
a header name and a line end, is the value of that header. -/
theorem decodeHeader_inserted {pre name value : Bytes}
    (hname : find name (pre ++ name) 0 = some pre.length) (hcr : 0x0d ∉ name ++ value)
    (hne : value ≠ []) (more : Bytes) :
    decodeHeader (pre ++ name ++ (value ++ (eol ++ more))) name = value := by
  -- the search for the line end starts at the name, not behind it
  have hend : find eol (pre ++ name ++ (value ++ (eol ++ more))) pre.length
      = some (pre.length + (name.length + value.length)) := by
    rw [find, if_pos (by simp), List.append_assoc, List.drop_left, ← List.append_assoc,
      findIdx_eol_append hcr, Option.map_some, List.length_append, Nat.add_comm]
  have hpos : 0 < value.length := List.length_pos_iff.mpr hne
  unfold decodeHeader
  rw [find_append_of_eq_some hname]
  simp only [hend, Option.getD_some]
  rw [if_pos (by simp only [List.length_append]; omega), substr,
    List.drop_left' (List.length_append ..), List.take_left' (by omega)]

end ArkToolchain
