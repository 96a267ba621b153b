/-
Framing round trips.

From the server to the client the payloads always come back.  The client's builder writes the
masking key even for an empty payload, and the server's `DecodeMessage` returns before reading
it. From there on the server is behind the frame boundaries, and no later payloads and masking
keys let it catch up: the bytes it would have to read in excess include the first byte of a
header, and a length with that byte in it is too large (`streamStep_behind`).

Main results: `server_to_client_roundTrip` and `client_to_server_roundTrip_iff`.
-/
import ArkToolchain.FrameSync

namespace ArkToolchain

open FrameType

/-- The frame the server writes for a final TEXT message. -/
def serverFrame (payload : Bytes) : Bytes :=
  (({ fin := true, opcode := .text } : ServerFrameBuilder).setPayload payload).build

/-- The frame the client writes for a final TEXT message under a masking key. -/
def clientFrame (payload : Bytes) (key : MaskingKey) : Bytes :=
  (({ fin := true, opcode := .text, maskingKey := key } : ClientFrameBuilder).setPayload
    payload).build

/-- Decoding once per payload returns the payloads in order, leaves the
connection open and nothing unread. -/
def Connection.Delivers (ep : Endpoint) (c : Connection) (payloads : List Bytes) : Prop :=
  ∃ c', c.decodeMany ep payloads.length = .ok (payloads, c') ∧
    c'.connectionState = .opened ∧ c'.bytes = []

/-! ### One frame -/

variable {p : Bytes}

theorem serverFrame_eq (h : p.length < 2 ^ 63) :
    serverFrame p = (text.frame true none p h).encode :=
  ServerFrameBuilder.build_eq_encode _ h

theorem clientFrame_eq (h : p.length < 2 ^ 63) (key : MaskingKey) :
    clientFrame p key = (text.frame true (some key) p h).encode :=
  ClientFrameBuilder.build_eq_encode _ h

theorem text_not_isClose (fin : Bool) (key : Option MaskingKey) (p : Bytes)
    (h : p.length < 2 ^ 63) : ¬ (text.frame fin key p h).IsClose := by
  simp [Frame.IsClose, frame, enumToNumber]

theorem streamStep_serverFrame (h : p.length < 2 ^ 63) (rest : Bytes) :
    streamStep .client (serverFrame p ++ rest) = .message p rest := by
  set f := text.frame true none p h with hf
  have hacc : f.Accepted .client := by simp [hf, Frame.Accepted, frame]
  have hread : f.IsRead := .inl rfl
  have hsync : f.Synced := ⟨.inl hread, fun hkey => by simp [hf, frame] at hkey⟩
  rw [serverFrame_eq h, streamStep_encode .client f hacc (text_not_isClose true none p h) rest,
    (f.unread_eq_nil_iff).mpr hsync, Frame.message, if_pos hread]
  rfl

/-- The server reads a client's frame to its end unless the payload is empty:
then the masking key is left. -/
theorem streamStep_clientFrame (h : p.length < 2 ^ 63) (key : MaskingKey) (rest : Bytes) :
    streamStep .server (clientFrame p key ++ rest)
      = .message p ((if p = [] then key.toList else []) ++ rest) := by
  set f := text.frame true (some key) p h with hf
  have hacc : f.Accepted .server := by simp [hf, Frame.Accepted, frame]
  have hread : f.IsRead := .inl rfl
  rw [clientFrame_eq h, streamStep_encode .server f hacc
      (text_not_isClose true (some key) p h) rest,
    Frame.message, if_pos hread, Frame.unread, if_pos hread]
  by_cases hp : p = []
  · subst hp
    simp [hf, frame, Frame.body, xorMask_nil]
  · simp [hf, frame, hp]

/-! ### Server to client -/

/-- **Server-to-client round trip**: whatever the payloads and however the
stream is cut into segments, the client decodes exactly the payloads. -/
theorem server_to_client_roundTrip (payloads : List Bytes)
    (hsize : ∀ p ∈ payloads, p.length < 2 ^ 63) (c : Connection)
    (ho : c.connectionState = .opened) (hb : c.bytes = (payloads.map serverFrame).flatten) :
    c.Delivers .client payloads := by
  have hstep : ∀ p ∈ payloads, ∀ rest,
      streamStep .client (serverFrame p ++ rest) = .message (id p) rest :=
    fun p hp rest => streamStep_serverFrame (hsize p hp) rest
  have hb' : c.bytes = (payloads.map serverFrame).flatten ++ [] := by rw [hb, List.append_nil]
  obtain ⟨c', hm, ho', hrest⟩ := Connection.decodeMany_of_steps .client _ id payloads hstep ho hb'
  exact ⟨c', by rw [hm, List.map_id], ho', hrest⟩

/-- Two payloads, one of them empty, with the second header cut in two. -/
theorem server_to_client_two :
    Connection.Delivers .client
      { connectionState := .opened, room := 0,
        incoming := [[0x81, 0x00, 0x81], [0x02, 0x68, 0x69]] }
      [[], ascii "hi"] :=
  server_to_client_roundTrip [[], ascii "hi"] (by decide) _ rfl (by decide)

/-! ### What the server has read of a message -/

theorem streamLength_some {field len : Nat} {bs bs' : Bytes}
    (h : streamLength field bs = some (len, bs')) :
    ∃ e, bs' = bs.drop e ∧
      (e = 0 ∨ ((e = 2 ∨ e = 8) ∧ e ≤ bs.length ∧ len = beNat (bs.take e))) := by
  revert h
  fun_cases streamLength field bs
  all_goals rintro ⟨⟩
  · exact ⟨2, rfl, .inr ⟨.inl rfl, by omega, rfl⟩⟩
  · exact ⟨8, rfl, .inr ⟨.inr rfl, by omega, rfl⟩⟩
  · exact ⟨0, rfl, .inl rfl⟩

theorem streamPayload_server_message {len : Nat} {bs rest : Bytes}
    (h : streamPayload .server len bs = .message p rest) :
    p.length = len ∧ rest = bs.drop (if p.length = 0 then 0 else 4 + p.length) := by
  unfold streamPayload at h
  split at h
  · cases h
    simp_all
  · split at h
    · cases h
    · dsimp only at h
      split at h
      · cases h
      · cases h
        have hlen : min len (bs.length - 4) = len := by omega
        simp_all

/-! ### Behind the frame boundaries -/

theorem length_extendedLength (n : Nat) :
    (Frame.extendedLength n).length = if n ≤ 125 then 0 else if n < 65536 then 2 else 8 := by
  unfold Frame.extendedLength
  split
  · rfl
  · split <;> simp

theorem clientFrame_eq_cons (h : p.length < 2 ^ 63) (key : MaskingKey) :
    ∃ t, clientFrame p key = 0x81 :: t ∧
      (clientFrame p key).length = 6 + (Frame.extendedLength p.length).length + p.length := by
  rw [clientFrame_eq h]
  refine ⟨_, rfl, ?_⟩
  rw [Frame.length_encode, Frame.length_body]
  simp [frame]
  omega

/-- A length read from `e` bytes that reach beyond `pre` has the first byte of
the frame after `pre` among its digits. -/
theorem le_beNat_take {pre t : Bytes} {e : Nat} (he : pre.length < e)
    (hlen : e ≤ (pre ++ 0x81 :: t).length) :
    0x81 * 256 ^ (e - 1 - pre.length) ≤ beNat ((pre ++ 0x81 :: t).take e) := by
  have htake : (pre ++ 0x81 :: t).take e = pre ++ 0x81 :: t.take (e - 1 - pre.length) := by
    rw [List.take_append, List.take_of_length_le (by omega),
      show e - pre.length = (e - 1 - pre.length) + 1 by omega, List.take_succ_cons]
  have hbound := mul_pow_le_beNat pre (t.take (e - 1 - pre.length)) 0x81
  rw [htake]
  simpa [show min (e - 1 - pre.length) t.length = e - 1 - pre.length by
    simp at hlen; omega] using hbound

/-- A read that starts `pre` bytes before a client's frame and returns that
frame's payload ends before the frame does. -/
theorem streamRead_behind (h : p.length < 2 ^ 63) (key : MaskingKey) {field : Nat}
    {pre more rest : Bytes}
    (hs : streamRead .server field (pre ++ (clientFrame p key ++ more)) = .message p rest) :
    ∃ d, rest = (pre ++ (clientFrame p key ++ more)).drop d ∧
      d < pre.length + (clientFrame p key).length ∧
      d % 2 = (clientFrame p key).length % 2 := by
  obtain ⟨t, hcons, hlen⟩ := clientFrame_eq_cons h key
  rw [length_extendedLength] at hlen
  unfold streamRead at hs
  rcases hl : streamLength field (pre ++ (clientFrame p key ++ more)) with - | ⟨len, bs⟩
  · rw [hl] at hs
    cases hs
  rw [hl] at hs
  obtain ⟨hp, hrest⟩ := streamPayload_server_message hs
  obtain ⟨e, rfl, he⟩ := streamLength_some hl
  -- `e` bytes of length, then the key and the payload unless it is empty
  refine ⟨e + if p.length = 0 then 0 else 4 + p.length, ?_, ?_, ?_⟩
  · rw [hrest, List.drop_drop]
  · rcases he with rfl | ⟨he, hle, hbe⟩
    · split <;> omega
    · -- a length that reaches into the frame is larger than any for which the
      -- frame has a length field of fewer bytes
      by_cases hpre : pre.length < e
      · rw [hcons, List.cons_append] at hle hbe
        have hbound := le_beNat_take hpre hle
        rw [← hbe, ← hp] at hbound
        have hpow : ∀ k, k + 1 + pre.length ≤ e → 0x81 * 256 ^ k ≤ p.length := fun k hk =>
          le_trans (Nat.mul_le_mul_left _ (Nat.pow_le_pow_right (by omega) (by omega))) hbound
        have h₀ := hpow 0 (by omega)
        have h₁ := hpow 1
        have h₃ := hpow 3
        split at hlen
        · omega
        · split at hlen <;> split <;> omega
      · split <;> omega
  · -- `e` is even, and so is what a frame has besides its payload
    rcases he with rfl | ⟨rfl | rfl, -, -⟩ <;> split at hlen <;> (try split at hlen) <;>
      split <;> omega

/-- **The server never catches up.**  A step that starts an even, positive
number of bytes before a client's frame and returns that frame's payload ends
an even, positive number of bytes before the end of the frame. -/
theorem streamStep_behind (h : p.length < 2 ^ 63) (key : MaskingKey) {pre more rest : Bytes}
    (hpos : 0 < pre.length) (heven : pre.length % 2 = 0)
    (hs : streamStep .server (pre ++ (clientFrame p key ++ more)) = .message p rest) :
    ∃ pre', 0 < pre'.length ∧ pre'.length % 2 = 0 ∧ rest = pre' ++ more := by
  obtain ⟨t, -, hlen⟩ := clientFrame_eq_cons h key
  -- in every branch the step drops `d` bytes of what follows its header
  suffices hd : ∃ d, rest = (pre.drop 2 ++ (clientFrame p key ++ more)).drop d ∧
      d < (pre.drop 2).length + (clientFrame p key).length ∧
      d % 2 = (clientFrame p key).length % 2 by
    obtain ⟨d, hrest, hlt, hpar⟩ := hd
    have hpre : (pre.drop 2).length = pre.length - 2 := List.length_drop
    refine ⟨(pre.drop 2 ++ clientFrame p key).drop d, ?_, ?_, ?_⟩
    · rw [List.length_drop, List.length_append]
      omega
    · rw [List.length_drop, List.length_append]
      omega
    · rw [hrest, ← List.append_assoc, List.drop_append_of_le_length]
      rw [List.length_append]
      omega
  -- the header lies within `pre`, because its length is even
  rcases pre with - | ⟨b₀, - | ⟨b₁, pre⟩⟩
  · simp at hpos
  · simp at heven
  simp only [List.cons_append, streamStep] at hs
  split at hs
  · cases hs
  · split at hs
    · exact streamRead_behind h key hs
    · split at hs
      · cases hs
      · -- a frame of which only the header is read returns the empty string
        cases hs
        exact ⟨0, rfl, by rw [hlen]; omega, by rw [hlen]; rfl⟩

/-! ### Client to server -/

/-- The bytes the client writes for payloads with their masking keys. -/
def clientStream (messages : List (Bytes × MaskingKey)) : Bytes :=
  (messages.map fun m => clientFrame m.1 m.2).flatten

variable (messages : List (Bytes × MaskingKey))

/-- Once behind, a server that returns the remaining payloads is still behind
at the end. -/
theorem decodeMany_behind (hsize : ∀ m ∈ messages, m.1.length < 2 ^ 63) {pre : Bytes}
    (hpos : 0 < pre.length) (heven : pre.length % 2 = 0) {c c' : Connection}
    (hb : c.bytes = pre ++ clientStream messages)
    (hd : c.decodeMany .server messages.length = .ok (messages.map Prod.fst, c'))
    (ho' : c'.connectionState = .opened) : c'.bytes ≠ [] := by
  induction messages generalizing c pre with
  | nil =>
    simp only [List.length_nil, Connection.decodeMany, Except.ok.injEq, Prod.mk.injEq] at hd
    obtain ⟨-, rfl⟩ := hd
    rw [hb]
    simpa [clientStream] using List.length_pos_iff.mp hpos
  | cons m messages ih =>
    obtain ⟨p, c₁, ps, hd₁, hd₂, hps⟩ := Connection.decodeMany_succ_ok .server hd
    simp only [List.map_cons, List.cons.injEq] at hps
    obtain ⟨rfl, rfl⟩ := hps
    have ho₁ := Connection.opened_of_decodeMany .server hd₂ ho'
    have hs := Connection.streamStep_of_decode .server hd₁ ho₁
    rw [hb, clientStream, List.map_cons, List.flatten_cons] at hs
    obtain ⟨pre', hpos', heven', hb₁⟩ :=
      streamStep_behind (hsize m (by simp)) m.2 hpos heven hs
    exact ih (fun q hq => hsize q (by simp [hq])) hpos' heven' hb₁ hd₂

/-- A server that starts at a frame boundary and delivers everything has met
no empty payload. -/
theorem ne_nil_of_decodeMany (hsize : ∀ m ∈ messages, m.1.length < 2 ^ 63) {c c' : Connection}
    (hb : c.bytes = clientStream messages)
    (hd : c.decodeMany .server messages.length = .ok (messages.map Prod.fst, c'))
    (ho' : c'.connectionState = .opened) (hb' : c'.bytes = []) : ∀ m ∈ messages, m.1 ≠ [] := by
  induction messages generalizing c with
  | nil => simp
  | cons m messages ih =>
    obtain ⟨p, c₁, ps, hd₁, hd₂, hps⟩ := Connection.decodeMany_succ_ok .server hd
    simp only [List.map_cons, List.cons.injEq] at hps
    obtain ⟨rfl, rfl⟩ := hps
    have ho₁ := Connection.opened_of_decodeMany .server hd₂ ho'
    have hs := Connection.streamStep_of_decode .server hd₁ ho₁
    rw [hb, clientStream, List.map_cons, List.flatten_cons,
      streamStep_clientFrame (hsize m (by simp))] at hs
    simp only [Received.message.injEq, true_and] at hs
    have hsize' : ∀ q ∈ messages, q.1.length < 2 ^ 63 := fun q hq => hsize q (by simp [hq])
    by_cases hp : m.1 = []
    · -- the masking key is still to be read: four bytes behind
      rw [if_pos hp] at hs
      exact absurd hb' (decodeMany_behind messages hsize' (by simp) (by simp) hs.symm hd₂ ho')
    · -- this frame is read to its end: the next call is at a boundary again
      rw [if_neg hp, List.nil_append] at hs
      intro q hq
      rcases List.mem_cons.mp hq with rfl | hq
      · exact hp
      · exact ih hsize' hs.symm hd₂ q hq

/-- **Client-to-server round trip**: the server decodes exactly the payloads if
and only if none of them is empty. -/
theorem client_to_server_roundTrip_iff (messages : List (Bytes × MaskingKey))
    (hsize : ∀ m ∈ messages, m.1.length < 2 ^ 63) (c : Connection)
    (ho : c.connectionState = .opened)
    (hb : c.bytes = (messages.map fun m => clientFrame m.1 m.2).flatten) :
    c.Delivers .server (messages.map Prod.fst) ↔ ∀ m ∈ messages, m.1 ≠ [] := by
  constructor
  · rintro ⟨c', hd, ho', hb'⟩
    rw [List.length_map] at hd
    exact ne_nil_of_decodeMany messages hsize hb hd ho' hb'
  · intro hne
    have hstep : ∀ m ∈ messages, ∀ rest,
        streamStep .server (clientFrame m.1 m.2 ++ rest) = .message m.1 rest := by
      intro m hm rest
      rw [streamStep_clientFrame (hsize m hm), if_neg (hne m hm), List.nil_append]
    obtain ⟨c', hm, ho', hrest⟩ := Connection.decodeMany_of_steps .server
      (fun m : Bytes × MaskingKey => clientFrame m.1 m.2) Prod.fst messages hstep ho
      (hb.trans (List.append_nil _).symm)
    exact ⟨c', by rw [List.length_map, hm], ho', hrest⟩

/-- One payload, masked, that arrives byte by byte after its header. -/
theorem client_to_server_hi :
    Connection.Delivers .server
      { connectionState := .opened, room := 0,
        incoming := [[0x81, 0x82], [0x01], [0x02], [0x03], [0x04], [0x69], [0x6b]] }
      [ascii "hi"] :=
  (client_to_server_roundTrip_iff [(ascii "hi", #v[1, 2, 3, 4])] (by decide) _ rfl
    (by decide)).mpr (by decide)

/-- The server returns the empty payload but leaves the masking key unread. -/
theorem client_to_server_empty :
    let key : MaskingKey := Vector.replicate 4 0x55
    let c : Connection :=
      { connectionState := .opened, room := 0, incoming := [clientFrame [] key] }
    c.bytes = ([([], key)].map fun m => clientFrame m.1 m.2).flatten ∧
      ¬ c.Delivers .server [[]] := by
  intro key c
  refine ⟨by decide, ?_⟩
  rintro ⟨c', hd, -, hb'⟩
  have hleft : (c.decodeMany .server 1).toOption.map (fun r => r.2.bytes)
      = some key.toList := by decide
  rw [show c.decodeMany .server 1 = .ok ([[]], c') from hd] at hleft
  simp [Except.toOption, hb'] at hleft

end ArkToolchain
