import Mathlib
import TgWsProxy.Core.Nursery
import TgWsProxy.Bridge.TcpToWs
import TgWsProxy.WebSocket.Close

/-!
# A session over a WebSocket

`bridge_ws_reencrypt` of `proxy/bridge.py`: `tcp_to_ws` and `ws_to_tcp` as two tasks over the
client, the WebSocket and the four ciphers, and the parent that ends the session with the first of
them.

* `WsSession` — the tasks and what they share; `goUp` and `goDown` take a task from one suspension
  to the next, so either may be anywhere when the other moves, when a write fails, or when it is
  cancelled.
* `wrapUp` — the `finally` behind the two.
* `WsSession.nursery` — all of it together, with the laws of a nursery.
-/

namespace TgWsProxy

open Wire

/-! ## The code -/

/-- The two tasks. -/
inductive Side
  | up
  | down
  deriving DecidableEq, Repr

instance : Fintype Side := ⟨{.up, .down}, by rintro (_ | _) <;> decide⟩

/-- Where `tcp_to_ws` stands: in `reader.read`, in the `drain()` behind the frames of a chunk or of
the tail, or at its end, which it came to behind `b''` or otherwise. -/
inductive UpAt
  | reading
  | draining (last : Bool)
  | ended (atEnd : Bool)
  deriving DecidableEq, Repr

/-- Where `ws_to_tcp` stands: in `ws.recv`, there in the `drain()` behind the answer to a CLOSE, in
`writer.drain()`, or at its end, which it came to behind a `None` or otherwise. -/
inductive DownAt
  | receiving
  | closing
  | delivering
  | ended (atEnd : Bool)
  deriving DecidableEq, Repr

/-- Where the `finally` stands behind the two tasks: before `ws.close()`, in its `drain()`, in its
`wait_closed()`, in the client's `wait_closed()`, at its end. -/
inductive ClosingAt
  | notBegun
  | wsDrain
  | wsWait
  | clientWait
  | finished
  deriving DecidableEq, Repr

/-- How a suspension of a task ends.  `fails` is the number of the call on the writer, of those up
to the next suspension, that raises. -/
inductive Resume
  | go (fails : Option ℕ)
  | drained (ok : Bool)
  deriving DecidableEq, Repr

/-- How a suspension of the `finally` ends. -/
inductive Awaited
  | returned
  | raised
  | cancelled
  deriving DecidableEq, Repr

/-- `toClient` are the arguments of `writer.write`, and `clientClosed` says whether its `close()`
was called. -/
structure WsSession (ρ : Type*) where
  client : ρ
  ctx : CryptoCtx
  splitter : Option MsgSplitter
  socket : Socket
  toClient : List Bytes
  clientClosed : Bool
  up : UpAt
  down : DownAt
  closing : ClosingAt

namespace WsSession

variable {ρ : Type*}

/-- The two tasks as they are created. -/
def start (client : ρ) (ctx : CryptoCtx) (splitter : Option MsgSplitter) (ws : RawWebSocket) :
    WsSession ρ :=
  { client, ctx, splitter
    socket := ⟨ws, false⟩
    toClient := []
    clientClosed := false
    up := .reading
    down := .receiving
    closing := .notBegun }

/-- `ws.send_batch(parts)`, or `ws.send(parts[0])` when there are not several, up to the `drain()`;
an exception ends the task. -/
def send (urandom : ℕ → MaskKey) (fails : Option ℕ) (last : Bool) (parts : List Bytes)
    (s : WsSession ρ) : WsSession ρ :=
  let (result, ws) :=
    if 1 < parts.length then s.socket.ws.sendBatch urandom fails parts
    else s.socket.ws.send urandom fails (parts.headD [])
  { s with
    socket := { s.socket with ws }
    up := match result with
      | .ok () => .draining last
      | .error _ => .ended false }

/-- `tcp_to_ws` behind a chunk. -/
def onChunk (E : AesKeystream) (urandom : ℕ → MaskKey) (fails : Option ℕ) (data : Bytes)
    (s : WsSession ρ) : WsSession ρ :=
  let plain := (s.ctx.cltDec.update E data).1
  let (chunk, ctx) := s.ctx.up E data
  let (parts, splitter) := splitParts s.splitter chunk plain
  let s := { s with ctx, splitter }
  if parts = [] then s else s.send urandom fails false parts

/-- `tcp_to_ws` behind `b''`. -/
def onEnd (urandom : ℕ → MaskKey) (fails : Option ℕ) (s : WsSession ρ) : WsSession ρ :=
  let tail := flushTail s.splitter
  let s := { s with splitter := s.splitter.map fun (sp : MsgSplitter) => sp.flush.2 }
  if tail = [] then { s with up := .ended true } else s.send urandom fails true tail

/-- `tcp_to_ws`. -/
def goUp (R : Source ρ IncompleteRead) (E : AesKeystream) (urandom : ℕ → MaskKey) (m : Resume)
    (s : WsSession ρ) : Option (WsSession ρ) :=
  match m, s.up with
  | .go fails, .reading =>
      match R.read 65536 s.client with
      | (.error _, client) => some { s with client, up := .ended false }
      | (.ok data, client) =>
          if data = [] then some ({ s with client }.onEnd urandom fails)
          else some ({ s with client }.onChunk E urandom fails data)
  | .drained ok, .draining last =>
      some { s with up := if ok then (if last then .ended true else .reading) else .ended false }
  | _, _ => none

/-- `ws_to_tcp` behind a message: `writer.write(data)`. -/
def deliver (E : AesKeystream) (fails : Option ℕ) (data : Bytes) (s : WsSession ρ) : WsSession ρ :=
  let (data, ctx) := s.ctx.down E data
  { s with
    ctx
    toClient := s.toClient ++ [data]
    down := if fails = some 0 then .ended false else .delivering }

/-- `ws_to_tcp`, a turn of the loop of `ws.recv` at a time.  Behind a PING there is a `drain()`
whose exceptions are dropped, and nothing happens between it and the next read. -/
def goDown (E : AesKeystream) (urandom : ℕ → MaskKey) (m : Resume) (s : WsSession ρ) :
    Option (WsSession ρ) :=
  match m, s.down with
  | .go fails, .receiving =>
      if s.socket.ws.closed then some { s with down := .ended true }
      else
        match s.socket.ws.turn urandom with
        | (.continues, ws) => some { s with socket := { s.socket with ws } }
        | (.raises _, ws) => some { s with socket := { s.socket with ws }, down := .ended false }
        | (.returns none, ws) => some { s with socket := { s.socket with ws }, down := .closing }
        | (.returns (some data), ws) =>
            some ({ s with socket := { s.socket with ws } }.deliver E fails data)
  | .drained _, .closing => some { s with down := .ended true }
  | .drained ok, .delivering => some { s with down := if ok then .receiving else .ended false }
  | _, _ => none

/-- The task is at its end. -/
def done : Side → WsSession ρ → Bool
  | .up, s => match s.up with
    | .ended _ => true
    | _ => false
  | .down, s => match s.down with
    | .ended _ => true
    | _ => false

/-- `CancelledError` inside the task, which is caught there. -/
def cancel (side : Side) (s : WsSession ρ) : WsSession ρ :=
  if s.done side then s
  else match side with
    | .up => { s with up := .ended false }
    | .down => { s with down := .ended false }

/-- `writer.close()`, and the `await` behind it. -/
def closeClient (s : WsSession ρ) : WsSession ρ :=
  { s with clientClosed := true, closing := .clientWait }

/-- The `finally` behind the two tasks.  `ws.close()` drops every exception but a cancellation, and
the caller drops that. -/
def wrapUp (urandom : ℕ → MaskKey) (a : Awaited) (s : WsSession ρ) : Option (WsSession ρ) :=
  match s.closing with
  | .notBegun =>
      if s.socket.ws.closed then some s.closeClient
      else
        let ws := { s.socket.ws with closed := true }.answer urandom opClose []
        some { s with socket := { s.socket with ws }, closing := .wsDrain }
  | .wsDrain =>
      if a = .cancelled then some s.closeClient
      else some { s with socket := { s.socket with writerClosed := true }, closing := .wsWait }
  | .wsWait => some s.closeClient
  | .clientWait => some { s with closing := .finished }
  | .finished => none

/-! ## The two tasks and their parent -/

section Laws

variable {R : Source ρ IncompleteRead} {E : AesKeystream} {urandom : ℕ → MaskKey} {m : Resume}
  {a : Awaited} {s s' : WsSession ρ}

lemma done_up : s.done .up = true ↔ ∃ atEnd, s.up = .ended atEnd := by
  rw [done]
  split <;> simp_all

lemma done_down : s.done .down = true ↔ ∃ atEnd, s.down = .ended atEnd := by
  rw [done]
  split <;> simp_all

/-- `tcp_to_ws` leaves the other task where it is. -/
lemma goUp_down (h : s.goUp R E urandom m = some s') : s'.down = s.down := by
  unfold goUp at h
  split at h
  · split at h
    · obtain rfl := Option.some.inj h
      rfl
    · split_ifs at h
      · obtain rfl := Option.some.inj h
        rw [onEnd]
        split_ifs <;> rfl
      · obtain rfl := Option.some.inj h
        rw [onChunk]
        dsimp only
        split_ifs <;> rfl
  · obtain rfl := Option.some.inj h
    rfl
  · cases h

/-- `ws_to_tcp` leaves the other task where it is. -/
lemma goDown_up (h : s.goDown E urandom m = some s') : s'.up = s.up := by
  unfold goDown at h
  split at h
  · split_ifs at h
    · obtain rfl := Option.some.inj h
      rfl
    · split at h <;>
        · obtain rfl := Option.some.inj h
          rfl
  · obtain rfl := Option.some.inj h
    rfl
  · obtain rfl := Option.some.inj h
    rfl
  · cases h

/-- The `finally` leaves both where they are. -/
lemma wrapUp_tasks (h : s.wrapUp urandom a = some s') : s'.up = s.up ∧ s'.down = s.down := by
  unfold wrapUp at h
  split at h
  · split_ifs at h <;>
      · obtain rfl := Option.some.inj h
        exact ⟨rfl, rfl⟩
  · split_ifs at h <;>
      · obtain rfl := Option.some.inj h
        exact ⟨rfl, rfl⟩
  · obtain rfl := Option.some.inj h
    exact ⟨rfl, rfl⟩
  · obtain rfl := Option.some.inj h
    exact ⟨rfl, rfl⟩
  · cases h

lemma done_cancel (k : Side) (s : WsSession ρ) : (s.cancel k).done k = true := by
  unfold cancel
  split_ifs with h
  · exact h
  · cases k <;> rfl

lemma done_of_cancel {k : Side} (j : Side) {s : WsSession ρ} (h : s.done k = true) :
    (s.cancel j).done k = true := by
  unfold cancel
  split_ifs
  · exact h
  · cases j <;> cases k <;> first | rfl | exact h

/-- A side goes on. -/
def run (R : Source ρ IncompleteRead) (E : AesKeystream) (urandom : ℕ → MaskKey) :
    Side → Resume → WsSession ρ → Option (WsSession ρ)
  | .up, m, s => s.goUp R E urandom m
  | .down, m, s => s.goDown E urandom m

lemma done_of_run {k j : Side} (hk : s.done k = true) (hj : s.done j = false)
    (h : run R E urandom j m s = some s') : s'.done k = true := by
  cases j <;> cases k
  · rw [hk] at hj
    cases hj
  · rw [done_down] at hk ⊢
    rwa [goUp_down h]
  · rw [done_up] at hk ⊢
    rwa [goDown_up h]
  · rw [hk] at hj
    cases hj

lemma done_of_wrapUp {k : Side} (hk : s.done k = true) (h : s.wrapUp urandom a = some s') :
    s'.done k = true := by
  obtain ⟨hup, hdown⟩ := wrapUp_tasks h
  cases k
  · rw [done_up] at hk ⊢
    rwa [hup]
  · rw [done_down] at hk ⊢
    rwa [hdown]

end Laws

/-- The session: `asyncio.wait(tasks, return_when=FIRST_COMPLETED)` and its `finally`. -/
def nursery (R : Source ρ IncompleteRead) (E : AesKeystream) (urandom : ℕ → MaskKey) :
    Nursery Side (WsSession ρ) Resume Awaited where
  run := run R E urandom
  cancel := cancel
  done := done
  tidy a s := s.wrapUp urandom a
  tidied s := decide (s.closing = .finished)
  done_cancel := done_cancel
  done_of_cancel := done_of_cancel
  done_of_run := done_of_run
  done_of_tidy := done_of_wrapUp

end WsSession

end TgWsProxy
