/-
Frame boundaries.

A call of `Decode` that starts at the first byte of a frame should end at the first byte of the
next one.  `Frame.unread` is what it leaves: the masking key of a TEXT or PING frame without
payload, and everything after the header of a frame of any other kind.

Main result: `decode_frame_synced_iff`, for one call and for runs of calls.
-/
import ArkToolchain.FrameBuilder
import ArkToolchain.StreamDecode

namespace ArkToolchain

namespace Frame

/-- TEXT and PING are the two opcodes whose payload `Decode` reads. -/
def IsRead (f : Frame) : Prop :=
  f.opcode.val = FrameType.text.enumToNumber.toNat
    ∨ f.opcode.val = FrameType.ping.enumToNumber.toNat

def IsClose (f : Frame) : Prop :=
  f.opcode.val = FrameType.close.enumToNumber.toNat

instance (f : Frame) : Decidable f.IsRead := inferInstanceAs (Decidable (_ ∨ _))
instance (f : Frame) : Decidable f.IsClose := inferInstanceAs (Decidable (_ = _))

def Accepted (ep : Endpoint) (f : Frame) : Prop :=
  f.key.isSome ↔ ep = .server

instance (ep : Endpoint) (f : Frame) : Decidable (f.Accepted ep) :=
  inferInstanceAs (Decidable (_ ↔ _))

/-- The string `Decode` returns for the frame. -/
def message (f : Frame) : Bytes :=
  if f.IsRead then f.payload else []

/-- The bytes of the frame that `Decode` does not read. -/
def unread (f : Frame) : Bytes :=
  if f.IsRead then
    if f.payload = [] then f.body else []
  else extendedLength f.payload.length ++ f.body

/-- The frames that are read to their end: those of type TEXT or PING and
those without a payload, except masked ones without a payload. -/
def Synced (f : Frame) : Prop :=
  (f.IsRead ∨ f.payload = []) ∧ (f.key.isSome → f.payload ≠ [])

instance (f : Frame) : Decidable f.Synced := inferInstanceAs (Decidable (_ ∧ _))

theorem body_eq_nil_iff (f : Frame) : f.body = [] ↔ f.key = none ∧ f.payload = [] := by
  unfold body
  rcases f.key with - | key
  · simp
  · have hne : key.toList ≠ [] := fun h => by simpa using congrArg List.length h
    simp [hne]

theorem extendedLength_zero : extendedLength 0 = [] := rfl

theorem unread_eq_nil_iff (f : Frame) : f.unread = [] ↔ f.Synced := by
  unfold unread Synced
  have hbody := f.body_eq_nil_iff
  by_cases hread : f.IsRead <;> by_cases hp : f.payload = []
  · rcases hk : f.key with - | key <;> simp [hread, hp, hbody, hk]
  · simp [hread, hp]
  · rcases hk : f.key with - | key <;> simp [hread, hp, hbody, hk, extendedLength_zero]
  · simp [hread, hp, hbody]

end Frame

/-! ### Reading an encoded frame -/

theorem streamLength_encode {n : Nat} (h : n < 2 ^ 63) (bs : Bytes) :
    streamLength (Frame.lengthField n) (Frame.extendedLength n ++ bs) = some (n, bs) := by
  have hread : ∀ k, n < 256 ^ k →
      (if (beBytes k n ++ bs).length < k then none
        else some (beNat ((beBytes k n ++ bs).take k), (beBytes k n ++ bs).drop k))
        = some (n, bs) := by
    intro k hk
    have hlen : (beBytes k n).length = k := length_beBytes k n
    rw [if_neg (by simp [hlen]), List.take_left' hlen, List.drop_left' hlen, beNat_beBytes hk]
  unfold Frame.lengthField Frame.extendedLength streamLength
  split
  · -- the field is the length itself
    rw [if_neg (by omega), if_neg (by omega)]
    rfl
  · split
    · -- two bytes hold every length below 65536
      exact hread 2 (by omega)
    · -- eight bytes hold the others
      exact hread 8 (by omega)

section

variable [StringLimit] (ep : Endpoint) (f : Frame)

theorem streamPayload_body (hep : f.Accepted ep) (hne : f.payload ≠ []) (rest : Bytes) :
    streamPayload ep f.payload.length (f.body ++ rest) = .message f.payload rest := by
  have hpos : f.payload.length ≠ 0 := by simpa using hne
  have hmax : ¬ stringMaxSize < f.payload.length := by
    have := f.size_lt
    have := StringLimit.le_stringMaxSize
    omega
  unfold streamPayload Frame.body
  rw [if_neg hpos, if_neg hmax]
  cases ep with
  | server =>
    obtain ⟨key, hkey⟩ : ∃ key, f.key = some key := Option.isSome_iff_exists.mp (hep.mpr rfl)
    -- the key, then the payload, which is unmasked with the same key stream
    have hlen : key.toList.length = 4 := by simp
    simp only [hkey, List.append_assoc]
    rw [if_neg (by simp), List.take_left' hlen, List.drop_left' hlen,
      List.take_left' (by simp), MaskingKey.ofBytes_toList, xorMask_xorMask,
      ← List.append_assoc, List.drop_left' (by simp)]
  | client =>
    have hkey : f.key = none := by simpa [Frame.Accepted] using hep
    simp only [hkey]
    rw [if_neg (by simp), List.take_left' rfl, List.drop_left' rfl]

/-- **What one step reads of an encoded frame.** -/
theorem streamStep_encode (hep : f.Accepted ep) (hclose : ¬ f.IsClose) (rest : Bytes) :
    streamStep ep (f.encode ++ rest) = .message f.message (f.unread ++ rest) := by
  have hvalid : Connection.validateIncomingFrame ep
      (WebSocketFrame.ofHeader f.header₀ f.header₁) = true := by
    unfold Connection.validateIncomingFrame
    rw [ofHeader_mask]
    cases ep with
    | server =>
      have hkey : f.key.isSome = true := hep.mpr rfl
      simp [hkey]
    | client =>
      have hkey : f.key.isSome = false := by simpa [Frame.Accepted] using hep
      simp [hkey]
  -- the opcode is read as it was written
  have hop : ∀ t : FrameType,
      UInt8.ofNat f.opcode = t.enumToNumber ↔ f.opcode.val = t.enumToNumber.toNat := by
    intro t
    rw [← UInt8.toNat_inj]
    have := f.opcode.isLt
    simp
    omega
  simp only [Frame.encode, List.cons_append, streamStep, hvalid, Bool.not_true,
    Bool.false_eq_true, if_false, ofHeader_opcode, ofHeader_payloadLen, hop]
  by_cases hread : f.IsRead
  · -- the length is read in full; an empty payload ends the reading there
    rw [if_pos (show _ ∨ _ from hread), streamRead, List.append_assoc,
      streamLength_encode f.size_lt]
    simp only [Frame.message, Frame.unread, if_pos hread]
    by_cases hp : f.payload = []
    · simp [hp, streamPayload]
    · rw [if_neg hp, streamPayload_body ep f hep hp]
      rfl
  · -- of the other frames only the header is read
    rw [if_neg (show ¬ (_ ∨ _) from hread), if_neg (show ¬ _ = _ from hclose)]
    simp [Frame.message, Frame.unread, hread]

theorem streamStep_not_accepted (hep : ¬ f.Accepted ep) (rest : Bytes) :
    streamStep ep (f.encode ++ rest) = .closed .protocolError Connection.decodeDisconnectMsg := by
  have hinvalid : Connection.validateIncomingFrame ep
      (WebSocketFrame.ofHeader f.header₀ f.header₁) = false := by
    unfold Connection.validateIncomingFrame
    rw [ofHeader_mask]
    cases ep with
    | server =>
      have hkey : f.key.isSome = false := by simpa [Frame.Accepted] using hep
      simp [hkey]
    | client =>
      have hkey : f.key.isSome = true :=
        Option.isSome_iff_ne_none.mpr (by simpa [Frame.Accepted] using hep)
      simp [hkey]
  simp [Frame.encode, streamStep, hinvalid]

end

/-! ### Staying in step with the frames -/

namespace Connection

section

variable [StringLimit] {rest : Bytes} (ep : Endpoint)

/-- One call that leaves the connection open returns the frame's message and
leaves the frame's unread bytes. -/
theorem decode_frame {f : Frame} (hclose : ¬ f.IsClose) {c c' : Connection} {m : Bytes}
    (hb : c.bytes = f.encode ++ rest) (hd : c.decode ep = .ok (m, c'))
    (ho' : c'.connectionState = .opened) : m = f.message ∧ c'.bytes = f.unread ++ rest := by
  have hs := streamStep_of_decode ep hd ho'
  rw [hb] at hs
  -- a frame with the wrong mask bit would have closed the connection
  by_cases hep : f.Accepted ep
  · rw [streamStep_encode ep f hep hclose rest] at hs
    simp only [Received.message.injEq] at hs
    exact ⟨hs.1.symm, hs.2.symm⟩
  · rw [streamStep_not_accepted ep f hep rest] at hs
    cases hs

/-- Successive calls over a stream of encoded items return the items' messages
if each single step does. -/
theorem decodeMany_of_steps {β : Type*} (enc msg : β → Bytes) (xs : List β)
    (hstep : ∀ x ∈ xs, ∀ rest, streamStep ep (enc x ++ rest) = .message (msg x) rest)
    {c : Connection} (ho : c.connectionState = .opened)
    (hb : c.bytes = (xs.map enc).flatten ++ rest) :
    ∃ c', c.decodeMany ep xs.length = .ok (xs.map msg, c') ∧ c'.connectionState = .opened ∧
      c'.bytes = rest := by
  induction xs generalizing c with
  | nil => exact ⟨c, rfl, ho, by simpa using hb⟩
  | cons x xs ih =>
    have hs : streamStep ep c.bytes = .message (msg x) ((xs.map enc).flatten ++ rest) := by
      rw [hb]
      simpa using hstep x (by simp) ((xs.map enc).flatten ++ rest)
    obtain ⟨c₁, hd, ho₁, hb₁⟩ := decode_of_streamStep ep ho hs
    obtain ⟨c', hm, ho', hb'⟩ := ih (fun y hy => hstep y (by simp [hy])) ho₁ hb₁
    exact ⟨c', decodeMany_succ ep hd hm, ho', hb'⟩

/-- In a run of calls over frames that are all read to their end, every call
starts at a frame boundary. -/
theorem decodeMany_frames (fs : List Frame) (hfs : ∀ f ∈ fs, ¬ f.IsClose ∧ f.Synced) {n : Nat}
    (hn : n ≤ fs.length) {c c' : Connection} {ms : List Bytes}
    (hb : c.bytes = (fs.map Frame.encode).flatten ++ rest) (hd : c.decodeMany ep n = .ok (ms, c'))
    (ho' : c'.connectionState = .opened) :
    c'.bytes = ((fs.drop n).map Frame.encode).flatten ++ rest := by
  induction n generalizing fs c ms with
  | zero =>
    simp only [decodeMany, Except.ok.injEq, Prod.mk.injEq] at hd
    obtain ⟨-, rfl⟩ := hd
    simpa using hb
  | succ n ih =>
    rcases fs with - | ⟨f, fs⟩
    · simp at hn
    obtain ⟨hclose, hsync⟩ := hfs f (by simp)
    -- the first call reads `f` to its end, so the others start behind it
    obtain ⟨m, c₁, ms', hd₁, hd₂, -⟩ := decodeMany_succ_ok ep hd
    have ho₁ := opened_of_decodeMany ep hd₂ ho'
    have hb' : c.bytes = f.encode ++ ((fs.map Frame.encode).flatten ++ rest) := by
      simpa using hb
    obtain ⟨-, hb₁⟩ := decode_frame ep hclose hb' hd₁ ho₁
    rw [(f.unread_eq_nil_iff).mpr hsync, List.nil_append] at hb₁
    exact ih fs (fun g hg => hfs g (by simp [hg])) (by simpa using hn) hb₁ hd₂

/-- **Frame synchronisation.**  A call that starts at a frame other than CLOSE
and leaves the connection open consumes exactly that frame if and only if the
frame is TEXT or PING or has no payload, and is not masked without a payload.
Hence along any run over such frames every call starts at a frame boundary. -/
theorem decode_frame_synced_iff (ep : Endpoint) :
    (∀ (f : Frame) (rest m : Bytes) (c c' : Connection), ¬ f.IsClose →
      c.connectionState = .opened → c.bytes = f.encode ++ rest →
      c.decode ep = .ok (m, c') → c'.connectionState = .opened →
      (c'.bytes = rest ↔ f.Synced)) ∧
    (∀ (fs : List Frame) (rest : Bytes) (n : Nat) (ms : List Bytes)
      (c c' : Connection), (∀ f ∈ fs, ¬ f.IsClose ∧ f.Synced) → n ≤ fs.length →
      c.bytes = (fs.map Frame.encode).flatten ++ rest →
      c.decodeMany ep n = .ok (ms, c') → c'.connectionState = .opened →
      c'.bytes = ((fs.drop n).map Frame.encode).flatten ++ rest) := by
  constructor
  · intro f rest m c c' hclose _ hb hd ho'
    obtain ⟨-, hb'⟩ := decode_frame ep hclose hb hd ho'
    rw [hb', ← f.unread_eq_nil_iff]
    constructor
    · intro h
      simpa using h
    · intro h
      rw [h, List.nil_append]
  · intro fs rest n ms c c' hfs hn hb hd ho'
    exact decodeMany_frames ep fs hfs hn hb hd ho'

end

/-- A TEXT frame with one byte of payload, as a server may send it. -/
def textFrame : Frame :=
  FrameType.text.frame true none [0x61] (by decide)

theorem decode_text_leaves_rest :
    let c : Connection :=
      { connectionState := .opened, incoming := [textFrame.encode, [0x89]], room := 0 }
    let c' : Connection := { connectionState := .opened, incoming := [[0x89]], room := 0 }
    c.decode .client = .ok ([0x61], c') ∧ c'.bytes = [0x89] := by
  intro c c'
  have hd : c.decode .client = .ok ([0x61], c') := by decide
  exact ⟨hd, ((decode_frame_synced_iff .client).1 textFrame [0x89] [0x61] c c' (by decide) rfl
    rfl hd rfl).mpr (by decide)⟩

/-- A PONG frame with one byte of payload, as a server may send it. -/
def pongFrame : Frame :=
  FrameType.pong.frame true none [0x61] (by decide)

/-- A client that receives this frame takes its header only: the payload byte
is left where the next call expects a header. -/
theorem decode_pong_leaves_payload :
    ¬ pongFrame.IsClose ∧
      ∃ c : Connection, c.connectionState = .opened ∧ c.bytes = pongFrame.encode ++ [] ∧
        ∃ m c', c.decode .client = .ok (m, c') ∧ c'.connectionState = .opened ∧ c'.bytes ≠ [] := by
  refine ⟨by decide, { connectionState := .opened, incoming := [pongFrame.encode], room := 0 },
    rfl, rfl, [], _, rfl, rfl, ?_⟩
  decide

end Connection

end ArkToolchain
