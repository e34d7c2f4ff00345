import TgWsProxy.WebSocket.Recv

/-!
# The end of a WebSocket

`send`, `send_batch` and `close` of `RawWebSocket`.  One flag says both that the peer has sent a
CLOSE and that `close()` has run.

* `Socket`, `Op`, `Socket.perform` — a WebSocket over its transport, and what its owner does to it.
* `MeetsClose` — a `recv()` that comes upon a CLOSE.
* `perform_closed` — what an operation makes of the flag.
* **`close_releases`** — when `close()` releases the transport.
-/

namespace TgWsProxy

open Wire

/-! ## The code -/

/-- The exceptions of the operations: of the reading side, of `struct`, and of the writer. -/
inductive SocketError
  | ws (e : WsError)
  | struct
  | writer
  deriving DecidableEq, Repr

/-- A WebSocket and its transport: whether `writer.close()` was called. -/
structure Socket where
  ws : RawWebSocket
  writerClosed : Bool

/-- An operation of the owner.  `fails` is the number of the call on the writer, of those that the
operation makes, that raises. -/
inductive Op
  | send (data : Bytes) (fails : Option ℕ)
  | sendBatch (parts : List Bytes) (fails : Option ℕ)
  | recv
  | close
  deriving DecidableEq

namespace RawWebSocket

/-- `writer.write(_build_frame(OP_BINARY, part, mask=True))` for each part, and `drain()`. -/
def writeParts (urandom : ℕ → MaskKey) (fails : Option ℕ) :
    ℕ → List Bytes → RawWebSocket → Except SocketError Unit × RawWebSocket
  | call, [], ws => (if fails = some call then .error .writer else .ok (), ws)
  | call, part :: parts, ws =>
      match buildFrame opBinary part (some (urandom ws.drawn)) with
      | none => (.error .struct, { ws with drawn := ws.drawn + 1 })
      | some frame =>
          let ws := { ws with written := ws.written ++ [frame], drawn := ws.drawn + 1 }
          if fails = some call then (.error .writer, ws)
          else writeParts urandom fails (call + 1) parts ws

/-- `send_batch(parts)`. -/
def sendBatch (urandom : ℕ → MaskKey) (fails : Option ℕ) (parts : List Bytes) (ws : RawWebSocket) :
    Except SocketError Unit × RawWebSocket :=
  if ws.closed then (.error (.ws (.connection "WebSocket closed")), ws)
  else ws.writeParts urandom fails 0 parts

/-- `send(data)`. -/
def send (urandom : ℕ → MaskKey) (fails : Option ℕ) (data : Bytes) (ws : RawWebSocket) :
    Except SocketError Unit × RawWebSocket :=
  if ws.closed then (.error (.ws (.connection "WebSocket closed")), ws)
  else ws.writeParts urandom fails 0 [data]

end RawWebSocket

namespace Socket

/-- `RawWebSocket(reader, writer)`. -/
def new (reader : StreamReader) : Socket := ⟨.new reader, false⟩

/-- `close()`.  Whatever the writer raises is dropped. -/
def close (urandom : ℕ → MaskKey) (s : Socket) : Socket :=
  if s.ws.closed then s
  else ⟨{ s.ws with closed := true }.answer urandom opClose [], true⟩

/-- One operation: what it returns or raises, and what it leaves. -/
def perform (urandom : ℕ → MaskKey) : Op → Socket → Except SocketError (Option Bytes) × Socket
  | .send data fails, s =>
      let (result, ws) := s.ws.send urandom fails data
      (result.map fun _ => none, { s with ws })
  | .sendBatch parts fails, s =>
      let (result, ws) := s.ws.sendBatch urandom fails parts
      (result.map fun _ => none, { s with ws })
  | .recv, s =>
      let (result, ws) := s.ws.recv urandom
      (result.mapError .ws, { s with ws })
  | .close, s => (.ok none, s.close urandom)

/-- Operations one after another. -/
def run (urandom : ℕ → MaskKey) : List Op → Socket → Socket
  | [], s => s
  | op :: ops, s => run urandom ops (s.perform urandom op).2

end Socket

/-! ## The flag -/

/-- The frame that a `recv()` reads next, or one that it reads after control frames and fragments,
is a CLOSE. -/
inductive MeetsClose (urandom : ℕ → MaskKey) : RawWebSocket → Prop
  | here {ws : RawWebSocket} {f : Frame} {reader : StreamReader} (hopen : ws.closed = false)
      (hread : readFrame ws.reader = (.ok f, reader)) (hclose : f.opcode = opClose) :
      MeetsClose urandom ws
  | later {ws ws' : RawWebSocket} (hturn : ws.turn urandom = (.continues, ws'))
      (h : MeetsClose urandom ws') : MeetsClose urandom ws

namespace RawWebSocket

variable {urandom : ℕ → MaskKey} {ws ws' : RawWebSocket}

lemma onData_closed (f : Frame) (ws : RawWebSocket) : (ws.onData f).2.closed = ws.closed := by
  rw [onData_eq]

/-- A turn that does not come upon a CLOSE leaves the flag alone. -/
lemma turn_closed {outcome : Outcome} (hopen : ws.closed = false)
    (hturn : ws.turn urandom = (outcome, ws')) (hnot : ¬ MeetsClose urandom ws) :
    ws'.closed = false := by
  rw [turn, if_neg (by simp [hopen])] at hturn
  split at hturn
  · next hread =>
      obtain ⟨-, rfl⟩ := Prod.mk.inj hturn
      exact hopen
  · next f reader hread =>
      have hframe : f.opcode ≠ opClose := fun hclose => hnot (.here hopen hread hclose)
      have hws' : ws' = (onFrame urandom f { ws with reader }).2 := by rw [hturn]
      rw [hws', onFrame, if_neg hframe]
      split_ifs
      · exact (answer_closed ..).trans hopen
      · exact hopen
      · exact (onData_closed ..).trans hopen
      · exact hopen

/-- The CLOSE sets it. -/
lemma recv_of_meets (h : MeetsClose urandom ws) : (ws.recv urandom).2.closed = true := by
  induction h with
  | @here ws f reader hopen hread hclose =>
      have hturn : ws.turn urandom = { ws with reader }.onFrame urandom f := by
        rw [turn, hopen, hread]
        rfl
      rw [onFrame, if_pos hclose] at hturn
      rw [recv_of_returns hturn]
      exact answer_closed ..
  | later hturn h ih => rwa [recv_of_continues hturn]

/-- Without one it stays as it is. -/
lemma recv_of_not_meets : ∀ {ws : RawWebSocket}, ws.closed = false → ¬ MeetsClose urandom ws →
    (ws.recv urandom).2.closed = false := by
  intro ws
  induction ws using recv.induct urandom with
  | case1 ws message ws' hturn =>
      intro hopen hnot
      rw [recv_of_returns hturn]
      exact turn_closed hopen hturn hnot
  | case2 ws e ws' hturn =>
      intro hopen hnot
      have hrecv : ws.recv urandom = (.error e, ws') := by
        rw [recv]
        split <;> simp_all
      rw [hrecv]
      exact turn_closed hopen hturn hnot
  | case3 ws ws' hturn ih =>
      intro hopen hnot
      rw [recv_of_continues hturn]
      exact ih (turn_closed hopen hturn hnot) fun h => hnot (.later hturn h)

/-- A closed WebSocket reads nothing. -/
lemma recv_of_closed (h : ws.closed = true) : ws.recv urandom = (.ok none, ws) := by
  have hturn : ws.turn urandom = (.returns none, ws) := by rw [turn, if_pos h]
  exact recv_of_returns hturn

lemma writeParts_closed (urandom : ℕ → MaskKey) (fails : Option ℕ) :
    ∀ (call : ℕ) (parts : List Bytes) (ws : RawWebSocket),
      (ws.writeParts urandom fails call parts).2.closed = ws.closed
  | _, [], _ => rfl
  | call, part :: parts, ws => by
      rw [writeParts]
      split
      · rfl
      · split_ifs
        · rfl
        · exact writeParts_closed urandom fails (call + 1) parts _

lemma send_closed (urandom : ℕ → MaskKey) (fails : Option ℕ) (data : Bytes) (ws : RawWebSocket) :
    (ws.send urandom fails data).2.closed = ws.closed := by
  rw [send]
  split_ifs
  · rfl
  · exact writeParts_closed ..

lemma sendBatch_closed (urandom : ℕ → MaskKey) (fails : Option ℕ) (parts : List Bytes)
    (ws : RawWebSocket) : (ws.sendBatch urandom fails parts).2.closed = ws.closed := by
  rw [sendBatch]
  split_ifs
  · rfl
  · exact writeParts_closed ..

end RawWebSocket

namespace Socket

variable {urandom : ℕ → MaskKey} {s : Socket}

/-- Once the flag is set nothing changes the flag or releases the transport. -/
lemma perform_of_closed (op : Op) (h : s.ws.closed = true) :
    (s.perform urandom op).2.ws.closed = true ∧
      (s.perform urandom op).2.writerClosed = s.writerClosed := by
  cases op with
  | send data fails => exact ⟨(RawWebSocket.send_closed ..).trans h, rfl⟩
  | sendBatch parts fails => exact ⟨(RawWebSocket.sendBatch_closed ..).trans h, rfl⟩
  | recv =>
      rw [perform, RawWebSocket.recv_of_closed h]
      exact ⟨h, rfl⟩
  | close =>
      rw [perform, close, if_pos h]
      exact ⟨h, rfl⟩

lemma run_of_closed : ∀ (ops : List Op) {s : Socket}, s.ws.closed = true →
    (s.run urandom ops).writerClosed = s.writerClosed
  | [], _, _ => rfl
  | op :: ops, _, h => by
      obtain ⟨hclosed, hwriter⟩ := perform_of_closed op h
      rw [run, run_of_closed ops hclosed, hwriter]

/-- Sending neither sets the flag nor releases the transport, and `recv()` sets it at a CLOSE. -/
lemma perform_closed {op : Op} (hop : op ≠ .close) (h : s.ws.closed = false)
    (hnot : op = .recv → ¬ MeetsClose urandom s.ws) :
    (s.perform urandom op).2.ws.closed = false ∧
      (s.perform urandom op).2.writerClosed = s.writerClosed := by
  cases op with
  | send data fails => exact ⟨(RawWebSocket.send_closed ..).trans h, rfl⟩
  | sendBatch parts fails => exact ⟨(RawWebSocket.sendBatch_closed ..).trans h, rfl⟩
  | recv => exact ⟨RawWebSocket.recv_of_not_meets h (hnot rfl), rfl⟩
  | close => exact absurd rfl hop

/-- A `recv()` before the first `close()` comes upon a CLOSE. -/
def ClosedByPeer (urandom : ℕ → MaskKey) (ops : List Op) (s : Socket) : Prop :=
  ∃ before after, ops = before ++ .recv :: after ∧ .close ∉ before ∧ .close ∈ after ∧
    MeetsClose urandom (s.run urandom before).ws

lemma closedByPeer_cons {op : Op} (hop : op ≠ .close) {ops : List Op}
    (hnot : op = .recv → ¬ MeetsClose urandom s.ws) :
    ClosedByPeer urandom (op :: ops) s ↔ ClosedByPeer urandom ops (s.perform urandom op).2 := by
  constructor
  · rintro ⟨before, after, hops, hbefore, hafter, hmeets⟩
    cases before with
    | nil =>
        obtain ⟨rfl, -⟩ := List.cons.inj hops
        exact absurd hmeets (hnot rfl)
    | cons o before =>
        obtain ⟨rfl, rfl⟩ := List.cons.inj hops
        exact ⟨before, after, rfl, fun h => hbefore (List.mem_cons_of_mem _ h), hafter, hmeets⟩
  · rintro ⟨before, after, rfl, hbefore, hafter, hmeets⟩
    refine ⟨op :: before, after, rfl, ?_, hafter, hmeets⟩
    rw [List.mem_cons, not_or]
    exact ⟨hop.symm, hbefore⟩

lemma not_closedByPeer_of_close {ops : List Op} :
    ¬ ClosedByPeer urandom (.close :: ops) s := by
  rintro ⟨before, after, hops, hbefore, -⟩
  cases before with
  | nil => cases (List.cons.inj hops).1
  | cons o before =>
      obtain ⟨rfl, -⟩ := List.cons.inj hops
      exact hbefore List.mem_cons_self

/-- From an open WebSocket, `close()` releases the transport unless the peer was first. -/
lemma run_of_open : ∀ (ops : List Op) {s : Socket}, s.ws.closed = false → s.writerClosed = false →
    ((.close ∈ ops → (s.run urandom ops).writerClosed = true) ↔ ¬ ClosedByPeer urandom ops s)
  | [], s, _, _ => by
      refine iff_of_true (fun h => absurd h List.not_mem_nil) ?_
      rintro ⟨before, after, hops, -⟩
      cases before <;> cases hops
  | op :: ops, s, hopen, hwriter => by
      by_cases hop : op = .close
      · subst hop
        refine iff_of_true (fun _ => ?_) not_closedByPeer_of_close
        have hclose : (s.perform urandom .close).2 =
            ⟨{ s.ws with closed := true }.answer urandom opClose [], true⟩ := by
          rw [perform, close, hopen]
          rfl
        rw [run, hclose]
        exact run_of_closed ops (RawWebSocket.answer_closed ..)
      have hmem : .close ∈ op :: ops ↔ .close ∈ ops := by simp [Ne.symm hop]
      rw [hmem, run]
      by_cases hmeets : op = .recv ∧ MeetsClose urandom s.ws
      · -- The flag is set, and from here on `close()` does nothing.
        obtain ⟨rfl, hmeets⟩ := hmeets
        rw [run_of_closed ops (RawWebSocket.recv_of_meets hmeets)]
        show (_ → s.writerClosed = true) ↔ _
        rw [hwriter]
        constructor
        · rintro hrun ⟨before, after, hops, hbefore, hafter, -⟩
          refine absurd (hrun ?_) Bool.false_ne_true
          rw [← hmem, hops]
          exact List.mem_append_right _ (List.mem_cons_of_mem _ hafter)
        · intro hpeer hclose
          exact absurd ⟨[], ops, rfl, List.not_mem_nil, hclose, hmeets⟩ hpeer
      · have hnot : op = .recv → ¬ MeetsClose urandom s.ws := fun h h' => hmeets ⟨h, h'⟩
        obtain ⟨hopen', hwriter'⟩ := perform_closed hop hopen hnot
        rw [closedByPeer_cons hop hnot]
        exact run_of_open ops hopen' (hwriter'.trans hwriter)

end Socket

/-! ## The release -/

/-- **When `close()` releases the transport.**  After any operations on a new WebSocket among which
there is a `close()`, `writer.close()` has been called, if and only if no `recv()` before the first
`close()` came upon a CLOSE of the peer. -/
theorem close_releases (urandom : ℕ → MaskKey) (reader : StreamReader) (ops : List Op) :
    (.close ∈ ops → ((Socket.new reader).run urandom ops).writerClosed = true) ↔
      ¬ Socket.ClosedByPeer urandom ops (Socket.new reader) :=
  Socket.run_of_open ops rfl rfl

/-- The peer sends a CLOSE, the owner reads it and calls `close()`. -/
theorem close_after_peer :
    ¬ ∀ (urandom : ℕ → MaskKey) (reader : StreamReader) (ops : List Op), .close ∈ ops →
      ((Socket.new reader).run urandom ops).writerClosed = true := by
  intro h
  have hmeets : MeetsClose (fun _ => ⟨[1, 2, 3, 4], rfl⟩)
      (Socket.new ⟨[0x88, 0], fun _ => 0⟩).ws :=
    .here (f := ⟨8, [], true⟩) rfl rfl rfl
  have hrun := h (fun _ => ⟨[1, 2, 3, 4], rfl⟩) ⟨[0x88, 0], fun _ => 0⟩ [.recv, .close] (by decide)
  rw [Socket.run, Socket.run_of_closed _ (RawWebSocket.recv_of_meets hmeets)] at hrun
  exact Bool.false_ne_true hrun

end TgWsProxy
