/-
How the server's results depend on the segments of the client's stream.

`session` is the handshake on a connection that has just been accepted, then calls of `Decode`.
The calls of `Decode` see the byte stream only (`decodeMany_congr`); the handshake takes what a
single `recv` brings for the request.

Main result: `session_segmentation_iff`.
-/
import ArkToolchain.Handshake
import ArkToolchain.StreamDecode

namespace ArkToolchain

namespace Connection

/-! ### Decode and the segments -/

/-- Two connections that `Decode` cannot tell apart. -/
structure Alike (c d : Connection) : Prop where
  state : c.connectionState = d.connectionState
  bytes : c.connectionState = .opened → c.bytes = d.bytes

theorem Alike.decode (ep : Endpoint) {c d : Connection} (h : Alike c d) :
    (c.decode ep = .error .lengthError ∧ d.decode ep = .error .lengthError) ∨
      ∃ m c' d', c.decode ep = .ok (m, c') ∧ d.decode ep = .ok (m, d') ∧ Alike c' d' := by
  by_cases ho : c.connectionState = .opened
  · -- both calls do what `streamStep` says about the one stream
    have hc := decode_refines ep c ho
    have hd := decode_refines ep d (h.state ▸ ho)
    rw [← h.bytes ho] at hd
    rcases hs : streamStep ep c.bytes with ⟨m, rest⟩ | ⟨status, m⟩ | -
    · rw [hs] at hc hd
      obtain ⟨c', hc, hoc, hbc⟩ := hc
      obtain ⟨d', hd, hod, hbd⟩ := hd
      exact .inr ⟨m, c', d', hc, hd, hoc.trans hod.symm, fun _ => hbc.trans hbd.symm⟩
    · rw [hs] at hc hd
      obtain ⟨c', hc, hoc⟩ := hc
      obtain ⟨d', hd, hod⟩ := hd
      refine .inr ⟨m, c', d', hc, hd, hoc.trans hod.symm, fun ho' => ?_⟩
      rw [hoc] at ho'
      cases ho'
    · rw [hs] at hc hd
      exact .inl ⟨hc, hd⟩
  · exact .inr ⟨[], c, d, decode_not_opened ep ho, decode_not_opened ep (h.state ▸ ho), h⟩

/-- **`Decode` does not see the segments**: the strings a run of calls returns
depend on the state and the byte stream only. -/
theorem decodeMany_congr (ep : Endpoint) (n : Nat) {c d : Connection} (h : Alike c d) :
    (c.decodeMany ep n).map Prod.fst = (d.decodeMany ep n).map Prod.fst := by
  induction n generalizing c d with
  | zero => rfl
  | succ n ih =>
    rcases h.decode ep with ⟨hc, hd⟩ | ⟨m, c', d', hc, hd, h'⟩
    · simp only [decodeMany, hc, hd]
    · have hrec := ih h'
      simp only [decodeMany, hc, hd]
      rcases hmc : c'.decodeMany ep n with e | ⟨ms, c''⟩ <;>
        rcases hmd : d'.decodeMany ep n with e' | ⟨ms', d''⟩ <;>
        rw [hmc, hmd] at hrec <;> simp_all [Except.map]

/-! ### A session -/

/-- The end of `AcceptNewConnection`, after the socket has been installed. -/
def acceptConnection (crypto : Crypto) (validateCb : Option (HttpRequest → Bool))
    (c : Connection) : Bool × Connection :=
  let (accepted, c) := c.httpHandShake crypto validateCb
  if !accepted then
    (false, { c with connectionState := .closing }.closeConnectionSocket .fail)
  else (true, { c with connectionState := .opened })

/-- The outcome of the handshake and the results of `n` calls of `Decode`, for
a stream that comes in the given segments. -/
def session (crypto : Crypto) (validateCb : Option (HttpRequest → Bool)) (c : Connection)
    (segments : List Bytes) (n : Nat) : Bool × Except LengthError (List Bytes) :=
  let (accepted, c) := { c with incoming := segments }.acceptConnection crypto validateCb
  (accepted, (c.decodeMany .server n).map Prod.fst)

/-- The requests the server accepts: decoded, let through by the callback if
there is one, asking for the upgrade, and answered in full. -/
structure Accepts (validateCb : Option (HttpRequest → Bool)) (room : Nat) (msgBuf : Bytes) :
    Prop where
  decoded : (HttpRequest.decode msgBuf).1 = true
  validated : ∀ cb ∈ validateCb, cb (HttpRequest.decode msgBuf).2 = true
  upgrade : validateHandShakeMessage (HttpRequest.decode msgBuf).2 = true
  answered : ProtocolUpgradeBuilder.messageLength ≤ room

section Session

variable (crypto : Crypto) (validateCb : Option (HttpRequest → Bool)) (c : Connection)
  (req : HttpRequest)

theorem protocolUpgrade_fst :
    (c.protocolUpgrade crypto req).1 = true ↔ ProtocolUpgradeBuilder.messageLength ≤ c.room := by
  have hlen := length_serverResponse crypto req.secWebSocketKey
  rw [serverResponse] at hlen
  simp [protocolUpgrade, encodeKey_eq, sendUnderLock, hlen]

theorem protocolUpgrade_incoming : (c.protocolUpgrade crypto req).2.incoming = c.incoming := by
  simp [protocolUpgrade, encodeKey_eq, sendUnderLock]

/-- The handshake judges what its one `recv` has brought. -/
theorem httpHandShake_fst :
    (c.httpHandShake crypto validateCb).1 = true ↔
      Accepts validateCb c.room (readSome httpHandshakeMaxLen c.incoming).1 := by
  fun_cases c.httpHandShake crypto validateCb
  case case1 hread _ hnil =>
    -- an empty message has no request in it
    rw [hread, List.eq_nil_of_length_eq_zero hnil]
    have hnone : (HttpRequest.decode []).1 ≠ true := by decide
    exact iff_of_false nofun fun h => hnone h.decoded
  case case4 hread _ _ _ req hdecode hd hany hv =>
    have hcb := any_reject_eq_false_iff.mp (Bool.eq_false_iff.mpr hany)
    rw [protocolUpgrade_fst, hread]
    refine ⟨fun h => ⟨?_, ?_, ?_, h⟩, fun h => h.answered⟩
    all_goals simp_all
  all_goals
    refine iff_of_false nofun fun h => ?_
    have hdecoded := h.decoded
    have hany := any_reject_eq_false_iff.mpr h.validated
    have hupgrade := h.upgrade
    simp_all

theorem httpHandShake_incoming :
    (c.httpHandShake crypto validateCb).2.incoming
      = (readSome httpHandshakeMaxLen c.incoming).2 := by
  fun_cases c.httpHandShake crypto validateCb
  all_goals simp_all [protocolUpgrade_incoming, responseInvalidHandShake]
  all_goals rfl

theorem acceptConnection_of (h : (c.httpHandShake crypto validateCb).1 = true) :
    (c.acceptConnection crypto validateCb).1 = true ∧
      (c.acceptConnection crypto validateCb).2.connectionState = .opened ∧
      (c.acceptConnection crypto validateCb).2.bytes
        = (readSome httpHandshakeMaxLen c.incoming).2.flatten := by
  have hin := httpHandShake_incoming crypto validateCb c
  simp only [acceptConnection, h, Bool.not_true, Bool.false_eq_true, if_false, bytes, hin]
  simp

variable {segments : List Bytes}

/-- A stream whose first piece is rejected closes the connection, and every
call returns the empty string. -/
theorem session_of_not_accepts
    (h : ¬ Accepts validateCb c.room (readSome httpHandshakeMaxLen segments).1) (n : Nat) :
    (c.session crypto validateCb segments n) = (false, .ok (List.replicate n [])) := by
  have hshake : ({ c with incoming := segments }.httpHandShake crypto validateCb).1 = false := by
    rw [Bool.eq_false_iff]
    exact fun ht => h ((httpHandShake_fst crypto validateCb _).mp ht)
  simp [session, acceptConnection, hshake, closeConnectionSocket, decodeMany_not_opened, Except.map]

theorem session_fst_of_accepts
    (h : Accepts validateCb c.room (readSome httpHandshakeMaxLen segments).1) (n : Nat) :
    (c.session crypto validateCb segments n).1 = true :=
  (acceptConnection_of crypto validateCb _ ((httpHandShake_fst crypto validateCb _).mpr h)).1

/-- Runs whose first `recv` brings the same bytes have the same results. -/
theorem session_congr {segments' : List Bytes} (hflat : segments.flatten = segments'.flatten)
    (hfirst : (readSome httpHandshakeMaxLen segments).1
      = (readSome httpHandshakeMaxLen segments').1) (n : Nat) :
    c.session crypto validateCb segments n = c.session crypto validateCb segments' n := by
  by_cases h : Accepts validateCb c.room (readSome httpHandshakeMaxLen segments).1
  · have h' := h
    rw [hfirst] at h'
    obtain ⟨hf, ho, hb⟩ := acceptConnection_of crypto validateCb { c with incoming := segments }
      ((httpHandShake_fst crypto validateCb _).mpr h)
    obtain ⟨hf', ho', hb'⟩ := acceptConnection_of crypto validateCb { c with incoming := segments' }
      ((httpHandShake_fst crypto validateCb _).mpr h')
    -- both connections are open, with the same rest of the stream unread
    have halike : Alike ({ c with incoming := segments }.acceptConnection crypto validateCb).2
        ({ c with incoming := segments' }.acceptConnection crypto validateCb).2 := by
      refine ⟨ho.trans ho'.symm, fun _ => ?_⟩
      rw [hb, hb', readSome_snd, readSome_snd, hflat, hfirst]
    simp only [session, hf, hf', decodeMany_congr .server n halike]
  · have h' := h
    rw [hfirst] at h'
    rw [session_of_not_accepts crypto validateCb c h, session_of_not_accepts crypto validateCb c h']

end Session

/-! ### Segmentation independence -/

theorem not_accepts_of_length_lt {validateCb : Option (HttpRequest → Bool)} {room : Nat}
    {msgBuf : Bytes} (h : msgBuf.length < 3) : ¬ Accepts validateCb room msgBuf := by
  intro hacc
  have hd := hacc.decoded
  rw [HttpRequest.decode] at hd
  rcases hf : find HttpBase.get msgBuf 0 with - | i
  · rw [hf] at hd
    cases hd
  · have hlen := find_le_length hf
    have hget : HttpBase.get.length = 3 := by decide
    omega

/-- **Segmentation independence.**  All segmentations of a stream lead to the
same handshake outcome and the same results of `Decode` if and only if no
beginning of the stream that one `recv` can bring is an acceptable request.
Segmentations whose first `recv` brings the same bytes always do. -/
theorem session_segmentation_iff (crypto : Crypto) (validateCb : Option (HttpRequest → Bool))
    (c : Connection) :
    (∀ stream : Bytes,
      (∀ segments segments' : List Bytes, segments.flatten = stream →
        segments'.flatten = stream → ∀ n,
        c.session crypto validateCb segments n = c.session crypto validateCb segments' n) ↔
      ∀ k ≤ httpHandshakeMaxLen, ¬ Accepts validateCb c.room (stream.take k)) ∧
    (∀ segments segments' : List Bytes, segments.flatten = segments'.flatten →
      (readSome httpHandshakeMaxLen segments).1 = (readSome httpHandshakeMaxLen segments').1 →
      ∀ n, c.session crypto validateCb segments n = c.session crypto validateCb segments' n) := by
  refine ⟨fun stream => ⟨fun hall k hk hacc => ?_, fun hnone segments segments' hs hs' n => ?_⟩,
    fun segments segments' => session_congr crypto validateCb c⟩
  · -- the acceptable beginning at once, or its first byte alone
    have hlen : ¬ (stream.take k).length < 3 := fun h => not_accepts_of_length_lt h hacc
    rw [List.length_take] at hlen
    have hne : stream ≠ [] := by
      rintro rfl
      simp at hlen
    have hcut : ∀ j, 0 < j → j ≤ httpHandshakeMaxLen →
        (readSome httpHandshakeMaxLen [stream.take j, stream.drop j]).1 = stream.take j :=
      fun j hj hjmax => by rw [readSome_take_drop hne hj hjmax]
    have hflat : ∀ j, [stream.take j, stream.drop j].flatten = stream := by simp
    have hsame := hall _ _ (hflat k) (hflat 1) 0
    have htrue := session_fst_of_accepts crypto validateCb c
      (by rw [hcut k (by omega) hk]; exact hacc) 0
    have hrej : ¬ Accepts validateCb c.room
        (readSome httpHandshakeMaxLen [stream.take 1, stream.drop 1]).1 := by
      rw [hcut 1 (by omega) (by decide)]
      exact not_accepts_of_length_lt (by rw [List.length_take]; omega)
    have hfalse := session_of_not_accepts crypto validateCb c hrej 0
    rw [hsame, hfalse] at htrue
    cases htrue
  · -- whatever the first `recv` brings, it is rejected
    have hrej : ∀ ss : List Bytes, ss.flatten = stream →
        ¬ Accepts validateCb c.room (readSome httpHandshakeMaxLen ss).1 := by
      intro ss hss
      rw [readSome_fst, hss]
      exact hnone _ (length_readSome_le _ _)
    rw [session_of_not_accepts crypto validateCb c (hrej _ hs),
      session_of_not_accepts crypto validateCb c (hrej _ hs')]

/-- The client's own request is accepted in one segment and rejected when the
first `recv` brings its first line only. -/
theorem session_request_split :
    let c : Connection := { connectionState := .connecting, incoming := [], room := 1024 }
    let request := WebSocketClient.upgradeReq (clientKey sampleCrypto sampleNonce ++ [0])
    let line := ascii "GET / HTTP/1.1\r\n"
    request.length ≤ httpHandshakeMaxLen ∧
      [line, request.drop 16].flatten = [request].flatten ∧
      (c.session sampleCrypto none [request] 0).1 = true ∧
      (c.session sampleCrypto none [line, request.drop 16] 0).1 = false := by
  intro c request line
  obtain ⟨hne, hlen⟩ := length_upgradeReq_le sampleCrypto sampleNonce
  have hacc : Accepts none c.room request := by
    refine ⟨?_, by simp, validateHandShakeMessage_clientRequest _ _, by decide +kernel⟩
    rw [decode_clientRequest]
  have hrej : ¬ Accepts none c.room line := fun h => absurd h.upgrade (by decide)
  refine ⟨hlen, by decide +kernel, ?_, ?_⟩
  · exact session_fst_of_accepts sampleCrypto none c (by rw [readSome_cons hne hlen]; exact hacc) 0
  · rw [session_of_not_accepts sampleCrypto none c
      (by rw [readSome_cons (by decide) (by decide)]; exact hrej)]

end Connection

end ArkToolchain
