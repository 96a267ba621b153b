/-
Heap snapshots, which travel in chunks (`heapprofiler_impl.h`, `heapprofiler_client.cpp`).

The client appends the chunks to a file.  A chunk that starts like a text opens a new file, and
one that ends like a text ends the allocation tracking; for the second comparison it takes the
last four bytes of every chunk, and `substr` throws if there are less.  So a text comes together
exactly if every chunk has four bytes and the first one has the whole start; a client that is
still at the file of that name does without the start.  A file that is there already is not
emptied.

Main result: `heap_snapshot_reassembled_iff`.
-/
import ArkToolchain.PtJson
import Mathlib.Logic.Function.Basic

namespace ArkToolchain

open PtJson

/-! ### Notifications -/

/-- The notifications of the heap profiler, apart from the chunks. -/
inductive HeapReport
  | addHeapSnapshotExtraInfo (extraInfo : Bytes)
  | reportHeapSnapshotProgress (done total : Int32)
  | heapStatsUpdate (statsUpdate : List Int32)
  | lastSeenObjectId (lastSeenObjectId : Int32) (timestamp : Rat)

/-- `ToJson` of an event of the heap profiler. -/
def heapEvent (name : Bytes) (params : List (Bytes × Option PtJson)) : PtJson :=
  ofMembers
    [(ascii "method", some (ofString (ascii "HeapProfiler" ++ 0x2e :: name))),
      (ascii "params", some (ofMembers params))]

namespace HeapReport

def name : HeapReport → Bytes
  | addHeapSnapshotExtraInfo _ => ascii "addHeapSnapshotExtraInfo"
  | reportHeapSnapshotProgress _ _ => ascii "reportHeapSnapshotProgress"
  | heapStatsUpdate _ => ascii "heapStatsUpdate"
  | lastSeenObjectId _ _ => ascii "lastSeenObjectId"

def params : HeapReport → List (Bytes × Option PtJson)
  | addHeapSnapshotExtraInfo extraInfo => [(ascii "extraInfo", some (ofString extraInfo))]
  | reportHeapSnapshotProgress done total =>
    [(ascii "done", some (ofInt done.toInt)), (ascii "total", some (ofInt total.toInt)),
      (ascii "finished", if total ≤ done then some (bool true) else none)]
  | heapStatsUpdate statsUpdate =>
    [(ascii "statsUpdate", some (array (statsUpdate.map fun n => ofInt n.toInt)))]
  | lastSeenObjectId id timestamp =>
    [(ascii "lastSeenObjectId", some (ofInt id.toInt)),
      (ascii "timestamp", some (number timestamp))]

def toJson (report : HeapReport) : PtJson := heapEvent report.name report.params

/-- The announcement of allocation tracking. -/
def announces (report : HeapReport) : Bool := report.name = ascii "lastSeenObjectId"

end HeapReport

/-- `AddHeapSnapshotChunk`. -/
def addHeapSnapshotChunk (chunk : Bytes) : PtJson :=
  heapEvent (ascii "addHeapSnapshotChunk") [(ascii "chunk", some (ofString chunk))]

/-! ### The client -/

/-- `std::out_of_range`, thrown by `substr`. -/
inductive OutOfRange
  | outOfRange
  deriving DecidableEq

/-- What the client asks the system for. -/
structure HeapHost where
  /-- `GetCurrentTime`: the date and the time of day, to the second -/
  currentTime : Option (Bytes × Bytes)
  /-- whether `realpath` takes the path and the file can be opened -/
  opens : Bytes → Bool
  /-- `Stringify` -/
  stringify : PtJson → Bytes

structure HeapProfilerClient where
  sessionId : UInt32 := 0
  path : Bytes := []
  fileName : Bytes := []
  isAllocationMsg : Bool := false
  /-- the contents of the files -/
  files : Bytes → Bytes := fun _ => []

def snapshotHead : Bytes := ascii "\x7b\"snapshot\":\n"

def snapshotTail : Bytes := ascii "]\n\x7d\n"

def pathMax : Nat := 4096

namespace HeapProfilerClient

variable (client : HeapProfilerClient) (host : HeapHost)

def writeHeapProfilerForFile (fileName data : Bytes) : HeapProfilerClient :=
  -- the first two are refused by `RealPath` itself
  if fileName = [] ∨ pathMax < fileName.length ∨ host.opens fileName = false then client
  else
    { client with
      files := Function.update client.files fileName (client.files fileName ++ data) }

def heapFile (now : Bytes × Bytes) (extension : String) : Bytes :=
  ascii "Heap-" ++ natText client.sessionId.toNat ++ ascii "-" ++ now.1 ++ ascii "T" ++ now.2 ++
    ascii extension

def snapshotFile (now : Bytes × Bytes) : Bytes :=
  client.path ++
    client.heapFile now (if client.isAllocationMsg then ".heaptimeline" else ".heapsnapshot")

theorem snapshotFile_ne_nil (client : HeapProfilerClient) (now : Bytes × Bytes) :
    client.snapshotFile now ≠ [] := by
  rw [snapshotFile, heapFile]
  have hheap : ascii "Heap-" ≠ [] := by decide +kernel
  simp [hheap]

def saveHeapsamplingData (result : PtJson) : HeapProfilerClient :=
  match result.getObject (ascii "profile") with
  | .success profile =>
    match host.currentTime with
    | none => client
    | some now =>
      let fileName := client.path ++ client.heapFile now ".heapprofile"
      { client with fileName }.writeHeapProfilerForFile host fileName (host.stringify profile)
  | _ => client

/-- `SaveHeapSnapshotAndAllocationTrackData`, from the comparison with the tail on. -/
def saveChunk (chunk : Bytes) : Except OutOfRange HeapProfilerClient :=
  if chunk.length < snapshotTail.length then .error .outOfRange
  else
    let subStr := chunk.drop (chunk.length - snapshotTail.length)
    let client := { client with isAllocationMsg := client.isAllocationMsg && subStr ≠ snapshotTail }
    .ok (client.writeHeapProfilerForFile host client.fileName chunk)

def saveHeapSnapshotAndAllocationTrackData (chunk : Bytes) : Except OutOfRange HeapProfilerClient :=
  if snapshotHead.isPrefixOf chunk then
    match host.currentTime with
    | none => .ok client
    | some now => { client with fileName := client.snapshotFile now }.saveChunk host chunk
  else client.saveChunk host chunk

/-- `RecvReply`; without a value the text was not JSON. -/
def recvReply : Option PtJson → Except OutOfRange HeapProfilerClient
  | none => .ok client
  | some json =>
    if json.isObject.isNone then .ok client
    else
      match json.getObject (ascii "result") with
      | .success result => .ok (client.saveHeapsamplingData host result)
      | _ =>
        match json.getString (ascii "method") with
        | .success wholeMethod =>
          match splitMethod wholeMethod with
          | none => .ok client
          | some (_, method) =>
            let client :=
              { client with
                isAllocationMsg :=
                  client.isAllocationMsg || method = ascii "lastSeenObjectId" }
            match json.getObject (ascii "params") with
            | .success params =>
              match params.getString (ascii "chunk") with
              | .success chunk =>
                client.saveHeapSnapshotAndAllocationTrackData host chunk
              | _ => .ok client
            | _ => .ok client
        | _ => .ok client

end HeapProfilerClient

/-! ### What a notification does -/

section heapEvent

variable {params : List (Bytes × Option PtJson)} {name : Bytes}

variable (name params) in
theorem distinctKeys_heapEvent :
    DistinctKeys
      [(ascii "method", some (ofString (ascii "HeapProfiler" ++ 0x2e :: name))),
        (ascii "params", some (ofMembers params))] := by
  simp only [DistinctKeys, List.map_cons, List.map_nil]
  decide +kernel

/-- `RecvReply` takes a notification apart. -/
theorem recvReply_heapEvent (client : HeapProfilerClient) (host : HeapHost)
    (hparams : DistinctKeys params) (hname : name ≠ []) (hnul : (0 : UInt8) ∉ name) :
    client.recvReply host (some (heapEvent name params)) =
      let client :=
        { client with
          isAllocationMsg := client.isAllocationMsg || name = ascii "lastSeenObjectId" }
      match (ofMembers params).getString (ascii "chunk") with
      | .success chunk => client.saveHeapSnapshotAndAllocationTrackData host chunk
      | _ => .ok client := by
  have hkeys := distinctKeys_heapEvent params name
  have hresult : (heapEvent name params).getObject (ascii "result") = .notExist :=
    get_ofMembers_eq_notExist hkeys isObject (by
      simp only [List.map_cons, List.map_nil]
      decide +kernel)
  have hcut :
      cStr (ascii "HeapProfiler" ++ 0x2e :: name) = ascii "HeapProfiler" ++ 0x2e :: name := by
    rw [cStr_eq_self_iff, List.mem_append, List.mem_cons, not_or, not_or]
    exact ⟨by decide +kernel, by decide, hnul⟩
  have hmethod : (heapEvent name params).getString (ascii "method") =
      .success (ascii "HeapProfiler" ++ 0x2e :: name) := by
    have hget := getString_ofMembers hkeys (k := ascii "method")
      (v := some (ascii "HeapProfiler" ++ 0x2e :: name)) (by simp)
    rw [Option.map_some, hcut] at hget
    exact hget
  have hsplit : splitMethod (ascii "HeapProfiler" ++ 0x2e :: name) =
      some (ascii "HeapProfiler", name) :=
    splitMethod_append (by decide +kernel) (by decide +kernel) hname
  have hobject : (heapEvent name params).getObject (ascii "params") = .success (ofMembers params) :=
    getObject_ofMembers hkeys (k := ascii "params") (fun _ : Unit => params) (fun _ => hparams)
      (v := some ()) (by simp)
  have hisObject : (heapEvent name params).isObject.isNone = false := by
    rfl
  rw [HeapProfilerClient.recvReply, hisObject, hresult, hmethod]
  simp only [hsplit, hobject, Bool.false_eq_true, if_false]

end heapEvent

variable (client : HeapProfilerClient) (host : HeapHost)

theorem recvReply_addHeapSnapshotChunk {chunk : Bytes} (hnul : (0 : UInt8) ∉ chunk) :
    client.recvReply host (some (addHeapSnapshotChunk chunk)) =
      client.saveHeapSnapshotAndAllocationTrackData host chunk := by
  have hkeys : DistinctKeys [(ascii "chunk", some (ofString chunk))] :=
    List.pairwise_singleton _ _
  have hget := getString_ofMembers hkeys (k := ascii "chunk") (v := some chunk) (by simp)
  rw [Option.map_some, cStr_eq_self_iff.mpr hnul] at hget
  have hname : decide (ascii "addHeapSnapshotChunk" = ascii "lastSeenObjectId") = false := by
    decide +kernel
  rw [addHeapSnapshotChunk, recvReply_heapEvent client host hkeys (by decide +kernel)
    (by decide +kernel), hget]
  simp only [hname, Bool.or_false]
  rfl

theorem recvReply_report (report : HeapReport) :
    client.recvReply host (some report.toJson) =
      .ok { client with isAllocationMsg := client.isAllocationMsg || report.announces } := by
  have hkeys : DistinctKeys report.params := by
    cases report <;> simp only [DistinctKeys, HeapReport.params, List.map_cons, List.map_nil] <;>
      decide +kernel
  have hchunk : (ofMembers report.params).getString (ascii "chunk") = .notExist := by
    apply get_ofMembers_eq_notExist hkeys
    cases report <;> simp only [HeapReport.params, List.map_cons, List.map_nil] <;>
      decide +kernel
  have hname : report.name ≠ [] ∧ (0 : UInt8) ∉ report.name := by
    cases report <;> simp only [HeapReport.name] <;> decide +kernel
  rw [HeapReport.toJson, recvReply_heapEvent client host hkeys hname.1 hname.2, hchunk]
  rfl

/-! ### Streams -/

/-- A chunk, and the other notifications that arrive before it. -/
structure HeapPiece where
  host : HeapHost
  reports : List HeapReport := []
  chunk : Bytes

/-- The text of a snapshot or of a timeline.  It is JSON, so that there is no NUL in it,
and a line end only outside of strings. -/
structure HeapText (text : Bytes) : Prop where
  head : snapshotHead <+: text
  once : ¬ snapshotHead <:+: text.tail
  tail : snapshotTail <:+ text
  nulFree : (0 : UInt8) ∉ text

namespace HeapProfilerClient

variable (client : HeapProfilerClient)

def receivePiece (piece : HeapPiece) : Except OutOfRange HeapProfilerClient := do
  let client ← piece.reports.foldlM
    (fun client report => client.recvReply piece.host (some report.toJson)) client
  client.recvReply piece.host (some (addHeapSnapshotChunk piece.chunk))

def receive (pieces : List HeapPiece) : Except OutOfRange HeapProfilerClient :=
  pieces.foldlM receivePiece client

/-- The client after the notifications before a chunk. -/
def informed (reports : List HeapReport) : HeapProfilerClient :=
  { client with
    isAllocationMsg := client.isAllocationMsg || reports.any HeapReport.announces }

/-- The client has not thrown, the text is all that it has written, to the file of that
name, and the flag is reset. -/
def Reassembled (pieces : List HeapPiece) (fileName text : Bytes) : Prop :=
  ∃ client', client.receive pieces = .ok client' ∧ client'.isAllocationMsg = false ∧
    client'.files = Function.update client.files fileName (client.files fileName ++ text)

variable (client : HeapProfilerClient)

theorem foldlM_recvReply (reports : List HeapReport) :
    reports.foldlM (fun client report => client.recvReply host (some report.toJson)) client =
      .ok (client.informed reports) := by
  induction reports generalizing client with
  | nil =>
    show Except.ok client = _
    rw [informed, List.any_nil, Bool.or_false]
  | cons report reports ih =>
    rw [List.foldlM_cons, recvReply_report]
    show List.foldlM _ _ reports = _
    rw [ih, informed, informed, List.any_cons, Bool.or_assoc]

theorem receivePiece_eq {piece : HeapPiece} (hnul : (0 : UInt8) ∉ piece.chunk) :
    client.receivePiece piece =
      (client.informed piece.reports).saveHeapSnapshotAndAllocationTrackData piece.host
        piece.chunk := by
  rw [receivePiece, foldlM_recvReply]
  exact recvReply_addHeapSnapshotChunk _ _ hnul

/-! ### Appending to a file -/

/-- Names that `RealPath` takes. -/
def Usable (fileName : Bytes) : Prop := fileName ≠ [] ∧ fileName.length ≤ pathMax

instance (fileName : Bytes) : Decidable (Usable fileName) := by
  unfold Usable; infer_instance

def append (client : HeapProfilerClient) (data : Bytes) : HeapProfilerClient :=
  if Usable client.fileName then
    { client with
      files := Function.update client.files client.fileName (client.files client.fileName ++ data) }
  else client

theorem writeHeapProfilerForFile_eq {host : HeapHost}
    (hopens : ∀ fileName, host.opens fileName = true) (data : Bytes) :
    client.writeHeapProfilerForFile host client.fileName data = client.append data := by
  rw [append, ← ite_not, writeHeapProfilerForFile, hopens]
  refine if_congr ?_ rfl rfl
  rw [Usable, not_and_or, not_not, not_le]
  simp

theorem append_with (flag : Bool) (data : Bytes) :
    { client with isAllocationMsg := flag }.append data =
      { client.append data with isAllocationMsg := flag } := by
  rw [append, append]
  split <;> rfl

theorem files_append_of_ne {client : HeapProfilerClient} {fileName : Bytes}
    (hne : client.fileName ≠ fileName) (data : Bytes) :
    (client.append data).files fileName = client.files fileName := by
  rw [append]
  split
  · exact Function.update_of_ne hne.symm _ _
  · rfl

theorem append_append (data data' : Bytes) :
    (client.append data).append data' = client.append (data ++ data') := by
  by_cases h : Usable client.fileName
  · simp only [append, if_pos h, Function.update_self, Function.update_idem, List.append_assoc]
  · simp only [append, if_neg h]

end HeapProfilerClient

/-! ### Reassembly -/

namespace HeapProfilerClient

variable {host : HeapHost} {pieces : List HeapPiece} (client : HeapProfilerClient)

theorem saveChunk_eq (hopens : ∀ f, host.opens f = true) {chunk : Bytes}
    (hlong : snapshotTail.length ≤ chunk.length) :
    ∃ flag, client.saveChunk host chunk =
        .ok { client.append chunk with isAllocationMsg := flag } ∧
      (snapshotTail <:+ chunk → flag = false) := by
  let subStr := chunk.drop (chunk.length - snapshotTail.length)
  refine ⟨client.isAllocationMsg && subStr ≠ snapshotTail, ?_, ?_⟩
  · rw [saveChunk, if_neg (by omega), ← append_with]
    exact congrArg Except.ok (writeHeapProfilerForFile_eq _ hopens chunk)
  · intro htail
    have hsub : subStr = snapshotTail := (List.suffix_iff_eq_drop.mp htail).symm
    simp [hsub]

variable {piece : HeapPiece}

theorem receivePiece_of_not_head (hnul : (0 : UInt8) ∉ piece.chunk)
    (hhead : ¬ snapshotHead <+: piece.chunk) :
    client.receivePiece piece =
      (client.informed piece.reports).saveChunk piece.host piece.chunk := by
  rw [receivePiece_eq client hnul, saveHeapSnapshotAndAllocationTrackData, if_neg]
  rwa [List.isPrefixOf_iff_prefix]

theorem receive_of_short (hmem : piece ∈ pieces) (hshort : piece.chunk.length < snapshotTail.length)
    (hnul : (0 : UInt8) ∉ piece.chunk) (client : HeapProfilerClient) :
    client.receive pieces = .error .outOfRange := by
  induction pieces generalizing client with
  | nil => cases hmem
  | cons first rest ih =>
    rw [receive, List.foldlM_cons]
    rcases List.mem_cons.mp hmem with rfl | hmem
    · -- it is shorter than the head, too
      have hhead : ¬ snapshotHead <+: piece.chunk := by
        intro hhead
        have hle := hhead.length_le
        have hlt : snapshotTail.length < snapshotHead.length := by decide +kernel
        omega
      rw [receivePiece_of_not_head client hnul hhead, saveChunk, if_pos hshort]
      rfl
    · cases hfirst : client.receivePiece first with
      | error e =>
        cases e
        rfl
      | ok client' => exact ih hmem client'

/-- **The chunks after the first** are appended, and the last one resets the flag. -/
theorem receive_cons {rest : List HeapPiece} {client client₀ : HeapProfilerClient}
    (hfirst : client.receivePiece piece = client₀.saveChunk piece.host piece.chunk)
    (hopens : ∀ p ∈ piece :: rest, ∀ f, p.host.opens f = true)
    (hnul : ∀ p ∈ piece :: rest, (0 : UInt8) ∉ p.chunk)
    (hhead : ∀ p ∈ rest, ¬ snapshotHead <+: p.chunk)
    (hlong : ∀ p ∈ piece :: rest, snapshotTail.length ≤ p.chunk.length) :
    ∃ client', client.receive (piece :: rest) = .ok client' ∧
      client'.files = (client₀.append ((piece :: rest).map HeapPiece.chunk).flatten).files ∧
      ∀ last, (piece :: rest).getLast? = some last → snapshotTail <:+ last.chunk →
        client'.isAllocationMsg = false := by
  induction rest generalizing piece client client₀ with
  | nil =>
    rw [List.forall_mem_singleton] at hopens hlong
    obtain ⟨flag, hsave, hflag⟩ := client₀.saveChunk_eq hopens hlong
    refine ⟨{ client₀.append piece.chunk with isAllocationMsg := flag }, ?_, by simp, ?_⟩
    · rw [receive, List.foldlM_cons, hfirst, hsave]
      rfl
    · simpa using hflag
  | cons next rest ih =>
    rw [List.forall_mem_cons] at hopens hnul hhead hlong
    obtain ⟨flag, hsave, -⟩ := client₀.saveChunk_eq hopens.1 hlong.1
    obtain ⟨client', hreceive, hfiles, hlast⟩ :=
      ih (receivePiece_of_not_head { client₀.append piece.chunk with isAllocationMsg := flag }
        (hnul.2 next (by simp)) hhead.1) hopens.2 hnul.2 hhead.2 hlong.2
    refine ⟨client', ?_, ?_, hlast⟩
    · rw [receive, List.foldlM_cons, hfirst, hsave]
      exact hreceive
    · rw [hfiles, @List.map_cons _ _ _ piece, List.flatten_cons, ← append_append]
      exact (congrArg files (append_with (client₀.append piece.chunk) _ _) :)

end HeapProfilerClient

/-! ### The whole text -/

variable {text : Bytes}

theorem HeapText.chunks (htext : HeapText text) {first : HeapPiece} {rest : List HeapPiece}
    (hne : first.chunk ≠ []) (hcut : ((first :: rest).map HeapPiece.chunk).flatten = text) :
    (∀ piece ∈ first :: rest, (0 : UInt8) ∉ piece.chunk) ∧
      (snapshotHead <+: first.chunk ↔ snapshotHead.length ≤ first.chunk.length) ∧
      ∀ piece ∈ rest, ¬ snapshotHead <+: piece.chunk := by
  refine ⟨?_, ?_, ?_⟩
  · intro piece hmem hzero
    apply htext.nulFree
    rw [← hcut]
    exact List.mem_flatten.mpr ⟨piece.chunk, List.mem_map.mpr ⟨piece, hmem, rfl⟩, hzero⟩
  · constructor
    · intro hhead
      exact hhead.length_le
    · intro hlength
      have hfirst : first.chunk <+: text := by
        rw [← hcut, List.map_cons, List.flatten_cons]
        exact List.prefix_append _ _
      exact List.prefix_of_prefix_length_le htext.head hfirst hlength
  · -- a later chunk would be another place where the head stands
    intro piece hmem hhead
    apply htext.once
    obtain ⟨a, chunk, hchunk⟩ := List.exists_cons_of_ne_nil hne
    have htail : text.tail = chunk ++ (rest.map HeapPiece.chunk).flatten := by
      rw [← hcut, List.map_cons, List.flatten_cons, hchunk]
      rfl
    have hpiece : piece.chunk <:+: (rest.map HeapPiece.chunk).flatten :=
      List.infix_of_mem_flatten (List.mem_map.mpr ⟨piece, hmem, rfl⟩)
    rw [htail]
    exact (hhead.isInfix.trans hpiece).trans (List.suffix_append _ _).isInfix

theorem HeapText.ne_nil (htext : HeapText text) : text ≠ [] := by
  rintro rfl
  have hnil := List.prefix_nil.mp htext.head
  exact absurd hnil (by decide +kernel)

theorem HeapText.tail_last (htext : HeapText text) {pieces : List HeapPiece}
    (hcut : (pieces.map HeapPiece.chunk).flatten = text) {last : HeapPiece}
    (hlast : pieces.getLast? = some last) (hlong : snapshotTail.length ≤ last.chunk.length) :
    snapshotTail <:+ last.chunk := by
  obtain ⟨before, rfl⟩ := List.getLast?_eq_some_iff.mp hlast
  have hsuffix : last.chunk <:+ text := by
    rw [← hcut, List.map_append, List.flatten_append]
    simp
  exact List.suffix_of_suffix_length_le htext.tail hsuffix hlong

open HeapProfilerClient in
/-- **Reassembly of heap snapshots.** -/
theorem heap_snapshot_reassembled_iff (client : HeapProfilerClient) {text : Bytes}
    (htext : HeapText text) {first : HeapPiece} {rest : List HeapPiece}
    (hne : ∀ piece ∈ first :: rest, piece.chunk ≠ [])
    (hcut : ((first :: rest).map HeapPiece.chunk).flatten = text)
    {now : Bytes × Bytes} (hnow : first.host.currentTime = some now)
    (hopens : ∀ piece ∈ first :: rest, ∀ f, piece.host.opens f = true)
    (hpath : ((client.informed first.reports).snapshotFile now).length ≤ pathMax) :
    client.Reassembled (first :: rest) ((client.informed first.reports).snapshotFile now) text ↔
      (∀ piece ∈ first :: rest, snapshotTail.length ≤ piece.chunk.length) ∧
        (snapshotHead.length ≤ first.chunk.length ∨
          client.fileName = (client.informed first.reports).snapshotFile now) := by
  obtain ⟨hnul, hfirst, hrest⟩ := htext.chunks (hne first List.mem_cons_self) hcut
  generalize hname : (client.informed first.reports).snapshotFile now = fileName at hpath ⊢
  constructor
  · rintro ⟨client', hreceive, -, hfiles⟩
    have hlong : ∀ piece ∈ first :: rest, snapshotTail.length ≤ piece.chunk.length := by
      intro piece hmem
      by_contra hshort
      rw [receive_of_short hmem (by omega) (hnul piece hmem) client] at hreceive
      cases hreceive
    refine ⟨hlong, ?_⟩
    by_contra hother
    rw [not_or, ← hfirst] at hother
    -- the client has gone on with another file
    obtain ⟨client'', hreceive', hfiles', -⟩ :=
      receive_cons (receivePiece_of_not_head client (hnul first List.mem_cons_self) hother.1)
        hopens hnul hrest hlong
    obtain rfl : client' = client'' := Except.ok.inj (hreceive.symm.trans hreceive')
    rw [hcut, hfiles] at hfiles'
    have hsame := congrFun hfiles' fileName
    rw [Function.update_self, files_append_of_ne
      (show (client.informed first.reports).fileName ≠ fileName from hother.2)] at hsame
    exact htext.ne_nil (List.append_right_eq_self.mp hsame)
  · rintro ⟨hlong, hstarts⟩
    have husable : Usable fileName := ⟨hname ▸ snapshotFile_ne_nil _ now, hpath⟩
    have hfirstPiece : client.receivePiece first =
        { client.informed first.reports with fileName }.saveChunk first.host first.chunk := by
      by_cases hhead : snapshotHead <+: first.chunk
      · rw [receivePiece_eq client (hnul first List.mem_cons_self),
          saveHeapSnapshotAndAllocationTrackData, if_pos (List.isPrefixOf_iff_prefix.mpr hhead),
          hnow]
        dsimp only
        rw [hname]
      · have hfile : client.fileName = fileName := hstarts.resolve_left (mt hfirst.mpr hhead)
        rw [receivePiece_of_not_head client (hnul first List.mem_cons_self) hhead, ← hfile]
        rfl
    obtain ⟨client', hreceive, hfiles, hflag⟩ := receive_cons hfirstPiece hopens hnul hrest hlong
    obtain ⟨last, hlast⟩ : ∃ last, (first :: rest).getLast? = some last :=
      ⟨_, List.getLast?_eq_some_getLast (List.cons_ne_nil _ _)⟩
    refine ⟨client', hreceive, hflag last hlast ?_, ?_⟩
    · exact htext.tail_last hcut hlast (hlong last (List.mem_of_getLast? hlast))
    · rw [hfiles, hcut, append, if_pos husable]
      rfl

/-! ### Two streams -/

def sampleHost : HeapHost where
  currentTime := some (ascii "20240101", ascii "120000")
  opens _ := true
  stringify _ := []

def sampleText : Bytes := snapshotHead ++ ascii "1,\"strings\":[" ++ snapshotTail

theorem heapText_sampleText : HeapText sampleText where
  head := by decide +kernel
  once := by decide +kernel
  tail := by decide +kernel
  nulFree := by decide +kernel

/-- The text in three chunks, the second of which begins with the byte `n`. -/
def samplePieces (n m : Nat) : List HeapPiece :=
  [{ host := sampleHost, chunk := sampleText.take n,
      reports := [.lastSeenObjectId 1 0, .reportHeapSnapshotProgress 0 1] },
    { host := sampleHost, chunk := (sampleText.drop n).take m,
      reports := [.heapStatsUpdate [1, 2, 3]] },
    { host := sampleHost, chunk := sampleText.drop (n + m) }]

def sampleTimeline : Bytes := ascii "Heap-0-20240101T120000.heaptimeline"

/-- A timeline that comes in long chunks is in its file. -/
theorem sampleTimeline_reassembled :
    ({} : HeapProfilerClient).Reassembled (samplePieces 14 5) sampleTimeline sampleText := by
  have hname : (({} : HeapProfilerClient).informed
      [.lastSeenObjectId 1 0, .reportHeapSnapshotProgress 0 1]).snapshotFile
      (ascii "20240101", ascii "120000") = sampleTimeline := by decide +kernel
  rw [← hname]
  refine (heap_snapshot_reassembled_iff {} heapText_sampleText ?_ ?_ rfl ?_ ?_).mpr ⟨?_, .inl ?_⟩
  · decide +kernel
  · decide +kernel
  · intro piece hmem f
    rcases hmem with - | ⟨-, - | ⟨-, - | ⟨-, hnil⟩⟩⟩
    · rfl
    · rfl
    · rfl
    · cases hnil
  all_goals
    decide +kernel

/-- **A last chunk of three bytes** makes the client throw, and a short first chunk
goes with all the others to the file of the last stream. -/
theorem short_chunks_not_reassembled :
    ({} : HeapProfilerClient).receive (samplePieces 14 13) = .error .outOfRange ∧
      (({ fileName := ascii "old" } : HeapProfilerClient).receive (samplePieces 5 9)).toOption.map
        (fun client => (client.files sampleTimeline, client.files (ascii "old"))) =
          some ([], sampleText) := by
  constructor
  · exact HeapProfilerClient.receive_of_short (List.mem_of_getLast? rfl) (by decide +kernel)
      (by decide +kernel) {}
  · decide +kernel

end ArkToolchain
