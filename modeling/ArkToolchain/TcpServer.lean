/-
The TCP server of the command-line client (`tcp_server.cpp`).

The server thread reads a chunk at a time, hands it to the main loop as a command, and answers it
or leaves the answer to the callbacks of the main loop.  A chunk is taken for a C string, which it
is only if there is a NUL in the buffer; and the words of a text with a blank in front are none
(`tcp_server_safe_iff`).
-/
import ArkToolchain.CliSafety

namespace ArkToolchain

namespace ArkDb

/-- `g_noRecvCmds`. -/
def noRecvCmds : List String :=
  ["cpuprofile-enable", "cp-enable", "cpuprofile-disable", "cp-disable", "cpuprofile-stop",
   "cp-stop"]

/-- The argument of `TcpServerWrite`. -/
inductive TcpCaller
  | inner
  | inputOnMessage
  | socketOnMessage

/-- `sizeof(recvBuf)`. -/
def recvBufSize : Nat := 1024

/-- What `read` returns, unless the connection ends. -/
structure Chunk where
  bytes : Bytes
  nonempty : bytes ≠ []
  fits : bytes.length ≤ recvBufSize

/-- `recvBuf` after `read`. -/
def Chunk.recvBuf (chunk : Chunk) : Bytes :=
  chunk.bytes ++ List.replicate (recvBufSize - chunk.bytes.length) 0

/-- `std::string` of a buffer: without a NUL it is read on behind the end. -/
def stringOf (buf : Bytes) : Except Crash Bytes :=
  if 0 ∈ buf then .ok (cStr buf) else .error .indexOutOfRange

structure TcpServer where
  /-- `g_inputStr` -/
  inputStr : Bytes := []
  /-- `uv_is_active(g_inputSignal)` -/
  isActive : Bool := true
  /-- `g_inputSignal->data` -/
  data : Option Bytes := none
  /-- what has been written to `cfd` -/
  written : List Bytes := []

namespace TcpServer

variable (server : TcpServer)

def sendCommand (inputStr : Bytes) (server : TcpServer) : TcpServer :=
  let inputStr := inputStr.dropWhile (· = 0x20)
  if inputStr = [] || !server.isActive then server else { server with data := inputStr }

/-- `write` of `g_inputStr`, and `clear`. -/
def writeInputStr : TcpServer :=
  { server with written := server.written ++ [server.inputStr], inputStr := [] }

def tcpServerWrite (msg : TcpCaller) : Except Crash TcpServer :=
  if server.inputStr = [] then return server
  else do
    let cmd ← element (splitString server.inputStr blank) 0
    if !tcpFindCommand allCmds cmd then
      return { server with inputStr := ascii "error cmd" }.writeInputStr
    else
      match msg with
      | .inner => return if tcpFindCommand noRecvCmds cmd then server.writeInputStr else server
      | .inputOnMessage =>
        return if tcpFindCommand inputOnMessages cmd then server.writeInputStr else server
      | .socketOnMessage =>
        return if tcpFindCommand inputOnMessages cmd then server else server.writeInputStr

/-- One round of the loop of `StartTcpServer`: a chunk, and the callbacks before and after the
server thread has answered it. -/
structure Round where
  chunk : Chunk
  before : List TcpCaller
  after : List TcpCaller

/-- The round; the calls of `TcpServerWrite` are taken one after the other. -/
def handle (round : Round) : Except Crash TcpServer := do
  let inputStr ← stringOf round.chunk.recvBuf
  let server ← round.before.foldlM tcpServerWrite (sendCommand inputStr { server with inputStr })
  let server ← server.tcpServerWrite .inner
  round.after.foldlM tcpServerWrite server

def startTcpServer (rounds : List Round) : Except Crash TcpServer :=
  rounds.foldlM handle {}

/-! ### What is safe -/

/-- The next answer finds a word. -/
def HasWord : Prop := server.inputStr.head? ≠ some 0x20

variable {server : TcpServer} {P : TcpServer → Prop}

theorem yields_tcpServerWrite (hP : ∀ s : TcpServer, s.HasWord → P s) (msg : TcpCaller) :
    Yields (server.tcpServerWrite msg) P ↔ server.HasWord := by
  have hwritten (s : TcpServer) : P s.writeInputStr := hP _ (by simp [HasWord, writeInputStr])
  by_cases hword : server.HasWord
  · refine iff_of_true ?_ hword
    have hserver := hP server hword
    rw [tcpServerWrite]
    rcases hinput : server.inputStr with - | ⟨c, rest⟩
    · simpa using hserver
    · have hne : splitString (c :: rest) blank ≠ [] := by
        rw [HasWord, hinput] at hword
        rw [ne_eq, splitString_blank_eq_nil_iff]
        simpa using hword
      simp [List.length_pos_iff.mpr hne]
      cases msg
      all_goals split_ifs <;> simp [hwritten, hserver]
  · refine iff_of_false ?_ hword
    have hblank := not_not.mp hword
    have hnil : splitString server.inputStr blank = [] := by
      rw [splitString_blank_eq_nil_iff, hblank]
      simp
    have hne : server.inputStr ≠ [] := by
      intro h
      simp [h] at hblank
    simp [tcpServerWrite, hne, hnil]

theorem yields_callbacks (msgs : List TcpCaller) :
    Yields (msgs.foldlM tcpServerWrite server) HasWord ↔ server.HasWord := by
  induction msgs generalizing server with
  | nil => rfl
  | cons msg msgs ih =>
    rw [List.foldlM_cons, yields_bind, yields_congr fun s _ => ih]
    exact yields_tcpServerWrite (fun _ h => h) msg

/-- There is a NUL in the buffer, and no blank in front. -/
def Safe (chunk : Chunk) : Prop :=
  (0 ∈ chunk.bytes ∨ chunk.bytes.length < recvBufSize) ∧ chunk.bytes.head? ≠ some 0x20

theorem hasWord_sendCommand (inputStr : Bytes) :
    (sendCommand inputStr server).HasWord ↔ server.HasWord := by
  rw [sendCommand]
  split
  · rfl
  · rfl

theorem yields_handle (round : Round) :
    Yields (server.handle round) (fun _ => True) ↔ Safe round.chunk := by
  have hafter (s : TcpServer) (h : s.HasWord) :
      Yields (round.after.foldlM tcpServerWrite s) fun _ => True :=
    ((yields_callbacks round.after).mpr h).imp fun _ _ _ => trivial
  have hnul : 0 ∈ round.chunk.recvBuf ↔
      0 ∈ round.chunk.bytes ∨ round.chunk.bytes.length < recvBufSize := by
    simp [Chunk.recvBuf, Nat.sub_eq_zero_iff_le]
  obtain ⟨c, rest, hbytes⟩ := List.exists_cons_of_ne_nil round.chunk.nonempty
  have hfirst : (cStr round.chunk.recvBuf).head? = some 0x20 ↔ c = 0x20 := by
    simp only [cStr, Chunk.recvBuf, hbytes, List.cons_append, List.takeWhile_cons]
    split <;> simp_all
  simp only [handle, yields_bind, yields_tcpServerWrite hafter, yields_callbacks,
    hasWord_sendCommand, Safe, ← hnul]
  by_cases h : 0 ∈ round.chunk.recvBuf
  · simp [stringOf, HasWord, h, hfirst, hbytes]
  · simp [stringOf, h]

/-- **When the server is safe**, whatever the main loop answers meanwhile. -/
theorem tcp_server_safe_iff (rounds : List Round) :
    Yields (startTcpServer rounds) (fun _ => True) ↔ ∀ round ∈ rounds, Safe round.chunk :=
  yields_foldlM fun _ => yields_handle

/-- A buffer full of letters. -/
def fullChunk : Chunk :=
  ⟨List.replicate recvBufSize 0x61, mt (List.replicate_eq_nil_iff _).mp (by decide),
    List.length_replicate.le⟩

def blankChunk : Chunk := ⟨blank, by decide, by decide⟩

/-- The first chunk is read behind its end, the second has no words. -/
theorem tcp_server_not_safe :
    ¬ Yields (startTcpServer [⟨fullChunk, [], []⟩]) (fun _ => True) ∧
      ¬ Yields (startTcpServer [⟨blankChunk, [], []⟩]) (fun _ => True) := by
  simp only [startTcpServer, yields_foldlM fun _ => yields_handle, List.forall_mem_singleton]
  constructor
  · rintro ⟨hnul | hlen, -⟩
    · exact absurd (List.eq_of_mem_replicate hnul) (by decide)
    · exact absurd hlen (by simp [fullChunk])
  · rintro ⟨-, hword⟩
    exact hword rfl

end TcpServer

end ArkDb

end ArkToolchain
