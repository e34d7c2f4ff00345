import TgWsProxy.H2.Lane.Channel
import Mathlib.Data.Finset.Sort

/-!
# A lane, its channels and their coroutines

The coroutines of `proxy/cf_h2.py` on one lane as a step function.  A step runs one coroutine from
the await it is suspended in to the next one; between steps anything else may run.

* `Coro` — where a coroutine is suspended, with the locals it still needs.
* `Sys` — the lane, the channels, the coroutines, and the tasks whose cancellation was requested.
* `sendStep`, `requestStep`, `recoverStep`, `downloadStep`, `bridgeStep`, `closeStep`,
  `closeLaneStep` — the code of each coroutine.
* `Event`, `step` — who runs next, and what the outside world does.

Every acquisition of a lock is an await of its own, a waiter on a condition may wake at any time and
find its predicate false, and a wait with a timeout may expire at any time.

Up to Python 3.11 `wait_for` runs its argument in a task of its own.  A coroutine that waits for
capacity may then be suspended with the lock held, before (`start`) and after (`granted`) that task
has evaluated the predicate; where it gives up, that task has to take the lock again first
(`leaving`), and has taken it, or has raised (`failed`).  Cancelled again while it is `leaving`, the
coroutine goes without its task.  It releases the lock on its way out, whoever holds it, and the
task that it has left behind takes the lock later and never gives it back.
-/

namespace TgWsProxy

open Wire

/-! ## Where a coroutine is suspended -/

/-- Inside `wait_for(condition.wait_for(predicate))`. -/
inductive WaitPc
  | start
  | parked
  | granted
  | leaving
  | failed
  deriving DecidableEq, Repr

/-- How `send` ends. -/
inductive SendExit
  | returned
  | raised
  deriving DecidableEq, Repr

/-- Inside `send` and `_send`. -/
inductive SendPc
  | sendLock
  | capacityLock
  | capacityWait (w : WaitPc)
  | laneLock
  | laneWait (w : WaitPc)
  | releasing (length : ℕ) (exit : SendExit)
  deriving DecidableEq, Repr

/-- Who awaits `send`. -/
inductive Caller
  | native
  | upload
  | recover
  deriving DecidableEq, Repr

/-- The `replay` argument of `send`. -/
def Caller.replay : Caller → Bool
  | recover => true
  | _ => false

/-- The arguments of `_run_request`. -/
structure Request where
  body : Bytes
  replay : Bool
  packet : Option ℕ
  deriving DecidableEq, Repr

/-- The locals of `_post`; as many octets are buffered as `content` has.  `uploaded` is when the
upload completed. -/
structure Post where
  uploaded : Option ℤ := none
  receiving : Bool := false
  opened : Bool := false
  declaredLength : Option ℤ := none
  identity : Bool := true
  content : Bytes := []
  deriving DecidableEq, Repr

/-- Inside `_run_request`. -/
inductive RequestPc
  | created
  | posting (p : Post)
  | releasing (length : ℕ)
  | notifying
  | finished
  deriving DecidableEq, Repr

/-- Inside `_recover`. -/
inductive RecoverPc
  | sleeping
  | waking (dying : Bool)
  | makingRoom (now : ℤ) (victim : ℕ)
  | replacing (body : Bytes) (victim : ℕ)
  deriving DecidableEq, Repr

inductive DownloadPc
  | dequeuing
  | draining
  deriving DecidableEq, Repr

/-- Inside `bridge_h2`, up to `channel.close()`. -/
inductive BridgePc
  | waiting
  | teardown (cancelled : Bool)
  | draining
  deriving DecidableEq, Repr

/-- Inside `close` of a channel. -/
inductive ClosePc
  | closeLock
  | gathering (tasks : List ℕ)
  | releasing (length : ℕ) (rest : List ℕ)
  | notifying (rest : List ℕ)
  deriving DecidableEq, Repr

/-- Inside `close` of a lane. -/
inductive CloseLanePc
  | lock
  | gathering (tasks : List ℕ)
  deriving DecidableEq, Repr

/-- A coroutine. -/
inductive Coro
  | send (c : ℕ) (caller : Caller) (body : Bytes) (pc : SendPc)
  | upload (c : ℕ)
  | download (c : ℕ) (pc : DownloadPc)
  | recover (c : ℕ) (pc : RecoverPc)
  | request (c : ℕ) (info : Request) (pc : RequestPc)
  | bridge (c : ℕ) (tasks : List ℕ) (pc : BridgePc)
  | close (c : ℕ) (pc : ClosePc)
  | closeLane (pc : CloseLanePc)
  | done
  deriving DecidableEq, Repr

/-- `task.done()`. -/
def Coro.IsDone : Coro → Bool
  | done => true
  | request _ _ .finished => true
  | _ => false

/-- The entry of `send` for a native packet. -/
def Channel.beginWait (ch : Channel) (now : ℤ) (body : Bytes) : Channel :=
  { ch with
    uploadWaitSince := some now
    uploadWaitPhase := .sendLock
    uploadWaitBytes := body.length }

/-- The `finally` of `send`. -/
def Channel.endWait (ch : Channel) (caller : Caller) : Channel :=
  if caller.replay then ch
  else { ch with uploadWaitSince := none, uploadWaitPhase := .idle, uploadWaitBytes := 0 }

/-! ## The state -/

/-- A lane with its channels and coroutines.  `orphans` are the tasks that a `wait_for` has left
behind, by the coroutine that has, and the channel whose condition it is, or the lane's. -/
structure Sys where
  clock : ℤ
  debug : Bool
  lane : Lane
  chan : ℕ → Channel
  nextChan : ℕ
  coro : ℕ → Coro
  nextTask : ℕ
  cancelling : Finset ℕ
  native : ℕ → Option Native
  log : ℕ → List Mark
  orphans : Finset (ℕ × Option ℕ)

namespace Sys

/-- A fresh lane.  The monotonic clock is positive. -/
def start (clock : ℤ) (debug : Bool) : Sys where
  clock := clock
  debug := debug
  lane := {}
  chan := fun _ => {}
  nextChan := 0
  coro := fun _ => .done
  nextTask := 0
  cancelling := ∅
  native := fun _ => none
  log := fun _ => []
  orphans := ∅

@[simps] def setCoro (s : Sys) (t : ℕ) (k : Coro) : Sys :=
  { s with coro := Function.update s.coro t k }

@[simps] def setChan (s : Sys) (c : ℕ) (ch : Channel) : Sys :=
  { s with chan := Function.update s.chan c ch }

@[simps] def setLane (s : Sys) (lane : Lane) : Sys := { s with lane := lane }

@[simps] def setNative (s : Sys) (c : ℕ) (n : Native) : Sys :=
  { s with native := Function.update s.native c (some n) }

@[simps] def mark (s : Sys) (c : ℕ) (marks : List Mark) : Sys :=
  { s with log := Function.update s.log c (s.log c ++ marks) }

/-- The coroutine goes, and the inner task of its `wait_for` stays. -/
@[simps] def leaveBehind (s : Sys) (t : ℕ) (place : Option ℕ) : Sys :=
  { s with orphans := insert (t, place) s.orphans }

/-- `asyncio.create_task` for each of the coroutines. -/
@[simps] def spawn (s : Sys) (ks : List Coro) : Sys :=
  { s with
    coro := fun t => if t < s.nextTask then s.coro t else ks.getD (t - s.nextTask) .done
    nextTask := s.nextTask + ks.length }

/-- What `gather` or `asyncio.wait` of a coroutine awaits: cancelling it cancels these too. -/
def awaited (s : Sys) (t : ℕ) : List ℕ :=
  match s.coro t with
  | .recover _ (.makingRoom _ victim) => [victim]
  | .recover _ (.replacing _ victim) => [victim]
  | .bridge _ tasks (.teardown _) => tasks
  | .close _ (.gathering tasks) => tasks
  | .closeLane (.gathering tasks) => tasks
  | _ => []

/-- The tasks that a cancellation of `t` reaches; no `gather` chain is longer than three. -/
def reached (s : Sys) : ℕ → ℕ → List ℕ
  | 0, t => [t]
  | depth + 1, t => t :: (s.awaited t).flatMap (s.reached depth)

/-- `task.cancel()` for each of the tasks. -/
@[simps] def cancelAll (s : Sys) (tasks : List ℕ) : Sys :=
  { s with cancelling := s.cancelling ∪ (tasks.flatMap (s.reached 3)).toFinset }

def isDone (s : Sys) (t : ℕ) : Bool := (s.coro t).IsDone

/-! ## Sending -/

/-- `_HttpLane._release` once the lock is taken. -/
def releaseLane (s : Sys) (length : ℕ) : Sys :=
  s.setLane { s.lane with
    inflight := s.lane.inflight - 1
    queuedBytes := s.lane.queuedBytes - length }

/-- `while not self.closed` in `_recover`. -/
def loopRecover (s : Sys) (t : ℕ) (c : ℕ) : Sys :=
  s.setCoro t (if (s.chan c).closed then .done else .recover c .sleeping)

/-- Back in the caller of `send`. -/
def afterSend (s : Sys) (t : ℕ) (c : ℕ) : Caller → SendExit → Sys
  | .upload, .returned => s.setCoro t (.upload c)
  | .recover, .returned => s.loopRecover t c
  | _, _ => s.setCoro t .done

/-- The end of `send`, its lock released. -/
def leaveSend (s : Sys) (t : ℕ) (c : ℕ) (caller : Caller) (exit : SendExit) : Sys :=
  (s.setChan c ({ s.chan c with sendLock := none }.endWait caller)).afterSend t c caller exit

/-- `_send` behind the channel's capacity condition. -/
def passChannel (s : Sys) (t : ℕ) (c : ℕ) (caller : Caller) (body : Bytes) : Sys :=
  let ch := s.chan c
  if ch.closed then s.leaveSend t c caller .raised
  else
    (s.setChan c
        (if caller.replay then ch else { ch with uploadWaitPhase := .laneCapacity })).setCoro t
      (.send c caller body .laneLock)

/-- `_send` with the reservation made: the request is created, or the reservation is given back. -/
def enter (s : Sys) (t : ℕ) (c : ℕ) (caller : Caller) (body : Bytes) : Sys :=
  let ch := s.chan c
  let task := s.nextTask
  if ch.closed then s.setCoro t (.send c caller body (.releasing body.length .raised))
  else if caller.replay then
    match ch.findPacket body with
    | some entry =>
        if entry.pending = none ∧ ch.ReplayDue entry s.clock then
          (((s.setChan c (ch.registerReplay task s.clock body s.debug entry.sequence)).spawn
            [.request c ⟨body, true, some entry.sequence⟩ .created]).mark c
            [.replay s.clock entry.sequence body task]).leaveSend t c caller .returned
        else s.setCoro t (.send c caller body (.releasing body.length .returned))
    | none => s.setCoro t (.send c caller body (.releasing body.length .returned))
  else
    let (ch, packet) := ch.registerNative task s.clock body s.debug
    (((s.setChan c ch).spawn [.request c ⟨body, false, packet⟩ .created]).mark c
      [.native s.clock body task]).leaveSend t c caller .returned

/-- The end of `_reserve`, its lock released, and what follows. -/
def reserve (s : Sys) (t : ℕ) (c : ℕ) (caller : Caller) (body : Bytes) : Sys :=
  if s.lane.closed then s.leaveSend t c caller .raised
  else
    (s.setLane { s.lane with
      inflight := s.lane.inflight + 1
      queuedBytes := s.lane.queuedBytes + body.length }).enter t c caller body

/-- The end of `_reserve` where nobody holds its lock: it raises once the counters are up. -/
def reserveUnlocked (s : Sys) (t : ℕ) (c : ℕ) (caller : Caller) (length : ℕ) : Sys :=
  if s.lane.closed then s.leaveSend t c caller .raised
  else
    (s.setLane { s.lane with
      inflight := s.lane.inflight + 1
      queuedBytes := s.lane.queuedBytes + length }).leaveSend t c caller .raised

end Sys

/-- What `_post` looks at in the head of a response. -/
structure ResponseHead where
  httpVersion : String := "HTTP/2"
  statusCode : ℕ := 200
  cfRay : String := "-"
  html : Bool := false
  contentLength : Option ℤ := none
  identity : Bool := true
  deriving DecidableEq, Repr

/-- What a coroutine is resumed with. -/
inductive Input
  /-- What it awaits is there. -/
  | resume
  /-- `CancelledError` is thrown into it. -/
  | cancelled
  /-- A timeout expires. -/
  | timeout
  /-- The native reader or writer fails, or the one has ended. -/
  | broken
  /-- `_read_packet` returns. -/
  | packet (body : Bytes)
  /-- A resumption that iterates over the channels of the lane, in some order. -/
  | channels (order : List ℕ)
  /-- A resumption that frames a reply, with some padding. -/
  | frame (padding : Padding)
  /-- The trace event `http2.send_request_body.complete`. -/
  | uploaded
  /-- The callback `h2_response_started`. -/
  | responseStarted
  /-- The response object is there. -/
  | opened (head : ResponseHead)
  /-- A chunk of the response body is there. -/
  | chunk (data : Bytes)
  /-- The response body has ended. -/
  | bodyEnd
  /-- The HTTP client raises. -/
  | raised (failure : Failure)
  deriving DecidableEq

/-- `send` and `_send`. -/
def sendStep (s : Sys) (t : ℕ) (c : ℕ) (caller : Caller) (body : Bytes) :
    SendPc → Input → Option Sys
  | .sendLock, .resume =>
      let ch := s.chan c
      if ch.sendLock = none then
        some ((s.setChan c { ch with sendLock := some t }).setCoro t
          (.send c caller body .capacityLock))
      else none
  | .sendLock, .cancelled =>
      some ((s.setChan c ((s.chan c).endWait caller)).afterSend t c caller .raised)
  | .capacityLock, .resume =>
      let ch := s.chan c
      if ch.capacity ≠ none then none
      else if caller.replay then
        if ch.HasCapacity body.length then some (s.passChannel t c caller body)
        else some (s.leaveSend t c caller .returned)
      else
        some ((s.setChan c
            { ch with capacity := some t, uploadWaitPhase := .channelCapacity }).setCoro t
          (.send c caller body (.capacityWait .start)))
  | .capacityWait .start, .resume =>
      let ch := s.chan c
      if ch.closed ∨ ch.HasCapacity body.length then
        some (s.setCoro t (.send c caller body (.capacityWait .granted)))
      else if ch.capacity = none then
        -- `wait()` without the lock raises
        some (s.setCoro t (.send c caller body (.capacityWait .failed)))
      else
        some ((s.setChan c { ch with capacity := none }).setCoro t
          (.send c caller body (.capacityWait .parked)))
  | .capacityWait .parked, .resume =>
      let ch := s.chan c
      if ch.capacity = none then
        some ((s.setChan c { ch with capacity := some t }).setCoro t
          (.send c caller body (.capacityWait .start)))
      else none
  | .capacityWait .granted, .resume =>
      let ch := s.chan c
      -- `release()` raises where nobody holds the lock
      if ch.capacity = none then some (s.leaveSend t c caller .raised)
      else some ((s.setChan c { ch with capacity := none }).passChannel t c caller body)
  | .capacityWait .leaving, .resume =>
      let ch := s.chan c
      if ch.capacity = none then
        some ((s.setChan c { ch with capacity := some t }).setCoro t
          (.send c caller body (.capacityWait .failed)))
      else none
  | .capacityWait .leaving, .cancelled =>
      some (((s.leaveBehind t (some c)).setChan c
        { s.chan c with capacity := none }).leaveSend t c caller .raised)
  | .capacityWait .failed, .resume =>
      some ((s.setChan c { s.chan c with capacity := none }).leaveSend t c caller .raised)
  | .capacityWait w, i =>
      if ¬ (i = .cancelled ∨ i = .timeout ∧ w ≠ .leaving) then none
      else if w = .parked then
        -- the lock is taken again before the exception leaves the condition
        some (s.setCoro t (.send c caller body (.capacityWait .leaving)))
      else some ((s.setChan c { s.chan c with capacity := none }).leaveSend t c caller .raised)
  | .laneLock, .resume =>
      if s.lane.capacity ≠ none then none
      else if caller.replay then
        if s.lane.HasCapacity body.length then some (s.reserve t c caller body)
        else some (s.leaveSend t c caller .returned)
      else
        some ((s.setLane { s.lane with capacity := some t }).setCoro t
          (.send c caller body (.laneWait .start)))
  | .laneWait .start, .resume =>
      if s.lane.closed ∨ s.lane.HasCapacity body.length then
        some (s.setCoro t (.send c caller body (.laneWait .granted)))
      else if s.lane.capacity = none then
        some (s.setCoro t (.send c caller body (.laneWait .failed)))
      else
        some ((s.setLane { s.lane with capacity := none }).setCoro t
          (.send c caller body (.laneWait .parked)))
  | .laneWait .parked, .resume =>
      if s.lane.capacity = none then
        some ((s.setLane { s.lane with capacity := some t }).setCoro t
          (.send c caller body (.laneWait .start)))
      else none
  | .laneWait .granted, .resume =>
      if s.lane.capacity = none then some (s.reserveUnlocked t c caller body.length)
      else some ((s.setLane { s.lane with capacity := none }).reserve t c caller body)
  | .laneWait .leaving, .resume =>
      if s.lane.capacity = none then
        some ((s.setLane { s.lane with capacity := some t }).setCoro t
          (.send c caller body (.laneWait .failed)))
      else none
  | .laneWait .leaving, .cancelled =>
      some (((s.leaveBehind t none).setLane
        { s.lane with capacity := none }).leaveSend t c caller .raised)
  | .laneWait .failed, .resume =>
      some ((s.setLane { s.lane with capacity := none }).leaveSend t c caller .raised)
  | .laneWait w, i =>
      if ¬ (i = .cancelled ∨ i = .timeout ∧ w ≠ .leaving) then none
      else if w = .parked then some (s.setCoro t (.send c caller body (.laneWait .leaving)))
      else some ((s.setLane { s.lane with capacity := none }).leaveSend t c caller .raised)
  | .releasing length exit, .resume =>
      if s.lane.capacity = none then some ((s.releaseLane length).leaveSend t c caller exit)
      else none
  | .capacityLock, .cancelled => some (s.leaveSend t c caller .raised)
  | .laneLock, .cancelled => some (s.leaveSend t c caller .raised)
  | .releasing _ _, .cancelled => some (s.leaveSend t c caller .raised)
  | _, _ => none

/-! ## Requests -/

/-- How `_post` ends. -/
inductive PostEnd
  | returned (reply : Bytes)
  | raised (failure : Failure)
  | cancelled
  deriving DecidableEq, Repr

/-- `_post` on the head of the response, up to `response_started()`. -/
def ResponseHead.check (head : ResponseHead) : Option Failure :=
  if head.httpVersion ≠ "HTTP/2" then
    some (.value s!"CF /api downgraded to {head.httpVersion}")
  else if head.statusCode ∈ [403, 404, 429, 444] then some (.transport (-head.statusCode))
  else if head.statusCode ≠ 200 then
    some (.connection s!"CF /api HTTP {head.statusCode} cf_ray={head.cfRay}")
  else if head.html then some (.value "CF /api returned HTML instead of MTProto")
  else none

/-- `not 0 <= declared_length <= MAX_PACKET`. -/
def BadLength (declared : Option ℤ) : Prop :=
  ∃ n ∈ declared, ¬ (0 ≤ n ∧ n ≤ maxPacket)

instance (declared : Option ℤ) : Decidable (BadLength declared) :=
  inferInstanceAs (Decidable (∃ n ∈ declared, _))

/-- The end of `_post` when the body is complete. -/
def Post.finish (p : Post) : PostEnd :=
  let received := p.content.length
  if p.declaredLength ≠ none ∧ p.identity ∧ p.declaredLength ≠ some (received : ℤ) then
    .raised (.value "incomplete H2 response body")
  else if received % 4 ≠ 0 then
    .raised (.value "CF /api response is not an aligned MTProto packet")
  else if received = 4 ∧ leInt p.content < 0 then .raised (.transport (leInt p.content))
  else .returned p.content

/-- `response_started()`. -/
def Channel.responseStarted (ch : Channel) (t : ℕ) (now : ℤ) : Channel :=
  { ch with receivingTasks := insert t ch.receivingTasks, lastProgress := now }

/-- `_run_request` once `_post` has ended. -/
def Channel.settle (ch : Channel) (packet : Option ℕ) (now : ℤ) : PostEnd → Channel × List Mark
  | .returned reply => ch.complete packet reply now
  | .raised failure => (ch.fail failure, [.failed failure])
  | .cancelled => (ch, [])

/-- A result touches the reply queue, the history and the failure records. -/
lemma Channel.settle_eq (ch : Channel) (packet : Option ℕ) (now : ℤ) (e : PostEnd) :
    ∃ closed error wakeup queue bytes history progress,
      (ch.settle packet now e).1 = { ch with
        closed := closed
        transportError := error
        recoveryWakeup := wakeup
        queue := queue
        replyBytes := bytes
        replayHistory := history
        lastProgress := progress } := by
  cases e with
  | returned reply =>
      unfold settle complete fail updatePacket
      simp only
      split_ifs <;> (try split) <;> exact ⟨_, _, _, _, _, _, _, rfl⟩
  | raised failure =>
      unfold settle fail
      simp only
      split_ifs <;> exact ⟨_, _, _, _, _, _, _, rfl⟩
  | cancelled => exact ⟨_, _, _, _, _, _, _, rfl⟩

namespace Sys

/-- `_finish_request` of a request's own task, up to its first await. -/
def finish (s : Sys) (t : ℕ) (c : ℕ) (info : Request) : Sys :=
  match (s.chan c).finishRequest t info.packet with
  | some (length, ch) => (s.setChan c ch).setCoro t (.request c info (.releasing length))
  | none => s.setCoro t (.request c info .finished)

/-- The `finally` of `_post`, the rest of `_run_request`, and its `finally`. -/
def endPost (s : Sys) (t : ℕ) (c : ℕ) (info : Request) (p : Post) (e : PostEnd) : Sys :=
  let s := s.setLane { s.lane with
    replyBufferBytes := s.lane.replyBufferBytes - p.content.length }
  let ch := s.chan c
  let ch :=
    if p.receiving then { ch with receivingTasks := ch.receivingTasks.erase t } else ch
  let (ch, marks) := ch.settle info.packet s.clock e
  ((s.setChan c ch).mark c marks).finish t c info

end Sys

/-- `_run_request`. -/
def requestStep (s : Sys) (t : ℕ) (c : ℕ) (info : Request) :
    RequestPc → Input → Option Sys
  | .created, .resume => some (s.setCoro t (.request c info (.posting {})))
  | .created, .cancelled =>
      -- a task that is cancelled before its first step never runs its `finally`
      some (s.setCoro t (.request c info .finished))
  | .posting p, .uploaded =>
      let ch := s.chan c
      if p.uploaded = none ∧ ¬ p.opened then
        some ((s.setChan c { ch with sentSince := ch.sentSince.set t s.clock }).setCoro t
          (.request c info (.posting { p with uploaded := some s.clock })))
      else none
  | .posting p, .responseStarted =>
      if p.receiving then none
      else
        some ((s.setChan c ((s.chan c).responseStarted t s.clock)).setCoro t
          (.request c info (.posting { p with receiving := true })))
  | .posting p, .opened head =>
      if p.opened then none
      else
        match head.check with
        | some failure => some (s.endPost t c info p (.raised failure))
        | none =>
            let s :=
              if p.receiving then s else s.setChan c ((s.chan c).responseStarted t s.clock)
            let p := { p with
              receiving := true
              opened := true
              declaredLength := head.contentLength
              identity := head.identity }
            if BadLength head.contentLength then
              some (s.endPost t c info p (.raised
                (.buffer "H2 response Content-Length exceeds native packet bound")))
            else some (s.setCoro t (.request c info (.posting p)))
  | .posting p, .chunk data =>
      if ¬ p.opened then none
      else if maxPacket < p.content.length + data.length then
        some (s.endPost t c info p (.raised
          (.buffer "H2 response exceeds native packet bound")))
      else if maxLaneReplyBytes < s.lane.replyBufferBytes + data.length then
        some (s.endPost t c info p (.raised
          (.replyBufferFull "H2 lane response buffers exceeded bound")))
      else
        let s := s.setLane { s.lane with
          replyBufferBytes := s.lane.replyBufferBytes + data.length }
        some ((s.setChan c { s.chan c with lastProgress := s.clock }).setCoro t
          (.request c info (.posting { p with content := p.content ++ data })))
  | .posting p, .bodyEnd =>
      if p.opened then some (s.endPost t c info p p.finish) else none
  | .posting p, .raised failure =>
      match failure with
      | .transport _ => none
      | failure => some (s.endPost t c info p (.raised failure))
  | .posting p, .cancelled => some (s.endPost t c info p .cancelled)
  | .releasing length, .resume =>
      if s.lane.capacity = none then
        some ((s.releaseLane length).setCoro t (.request c info .notifying))
      else none
  | .releasing _, .cancelled => some (s.setCoro t (.request c info .finished))
  | .notifying, .resume =>
      if (s.chan c).capacity = none then
        some ((s.setChan c (s.chan c).wakeReceiver).setCoro t (.request c info .finished))
      else none
  | .notifying, .cancelled => some (s.setCoro t (.request c info .finished))
  | _, _ => none

/-! ## The recovery loop -/

namespace Sys

/-- The key of the sort in `_make_upload_room`. -/
def oldestSent (s : Sys) (now : ℤ) (c : ℕ) : ℤ :=
  match (s.chan c).sentSince.values with
  | [] => now
  | since :: rest => rest.foldl min since

/-- The channels `_make_upload_room` looks at, in order. -/
def roomChannels (s : Sys) (c : ℕ) (now : ℤ) (order : List ℕ) : List ℕ :=
  let ch := s.chan c
  if ch.closed ∨ ch.uploadWaitSince = none then []
  else
    match ch.uploadWaitPhase with
    | .channelCapacity => if ch.HasCapacity ch.uploadWaitBytes then [] else [c]
    | .laneCapacity =>
        if s.lane.HasCapacity ch.uploadWaitBytes then []
        else order.insertionSort fun a b => s.oldestSent now a ≤ s.oldestSent now b
    | _ => []

/-- `_make_upload_room(now)`: the channel, the task and the packet to retire, if any. -/
def makeUploadRoom (s : Sys) (c : ℕ) (now : ℤ) (order : List ℕ) :
    Option (ℕ × ℕ × Option ℕ) :=
  (s.roomChannels c now order).findSome? fun owner =>
    ((s.chan owner).capacityCandidate s.isDone now).map fun candidate => (owner, candidate)

/-- `self.send(entry.body, False, replay=True)` up to its first await. -/
def sendReplay (s : Sys) (t : ℕ) (c : ℕ) (body : Bytes) : Sys :=
  if (s.chan c).sendLock ≠ none then s.loopRecover t c
  else s.setCoro t (.send c .recover body .sendLock)

/-- `_recover` behind `_make_upload_room`. -/
def recoverPass (s : Sys) (t : ℕ) (c : ℕ) (now : ℤ) : Sys :=
  let ch := s.chan c
  if ch.closed ∨ ch.NativeBackpressure then s.loopRecover t c
  else
    match ch.choose now with
    | none => s.loopRecover t c
    | some (body, none) => s.sendReplay t c body
    | some (body, some victim) =>
        (s.cancelAll [victim]).setCoro t (.recover c (.replacing body victim))

end Sys

/-- `_recover`. -/
def recoverStep (s : Sys) (t : ℕ) (c : ℕ) : RecoverPc → Input → Option Sys
  | .sleeping, .resume => some (s.setCoro t (.recover c (.waking false)))
  | .sleeping, .cancelled => some (s.setCoro t (.recover c (.waking true)))
  | .waking true, .resume => some (s.setCoro t .done)
  | .waking false, .channels order =>
      if order.Nodup ∧ order.toFinset = s.lane.channels then
        let s := s.setChan c { s.chan c with recoveryWakeup := false }
        match s.makeUploadRoom c s.clock order with
        | some (owner, victim, packet) =>
            some (((s.setChan owner ((s.chan owner).rotate victim packet)).cancelAll
              [victim]).setCoro t (.recover c (.makingRoom s.clock victim)))
        | none => some (s.recoverPass t c s.clock)
      else none
  | .waking _, .cancelled => some (s.setCoro t .done)
  | .makingRoom now victim, .resume =>
      if s.isDone victim then some (s.recoverPass t c now) else none
  | .replacing body victim, .resume =>
      if s.isDone victim then some (s.sendReplay t c body) else none
  | .makingRoom _ victim, .cancelled => if s.isDone victim then some (s.setCoro t .done) else none
  | .replacing _ victim, .cancelled => if s.isDone victim then some (s.setCoro t .done) else none
  | _, _ => none

/-! ## The native side -/

namespace Sys

variable (E : AesKeystream)

/-- `writer.write(ctx.clt_enc.update(data))`. -/
def writeNative (s : Sys) (c : ℕ) (n : Native) (data : Bytes) : Sys :=
  let (out, cltEnc) := n.cltEnc.update E data
  s.setNative c { n with wire := n.wire ++ out, cltEnc := cltEnc }

/-- `download` from a reply on, up to `drain`. -/
def writeReply (s : Sys) (t : ℕ) (c : ℕ) (body : Bytes) (padding : Padding) :
    Option Sys :=
  match s.native c with
  | none => none
  | some n =>
      match encodeReply body n.tag padding with
      | .error _ => some (s.setCoro t .done)
      | .ok frame =>
          some (((((s.setChan c { s.chan c with deliveringSince := some s.clock }).writeNative E c n
            frame).mark c [.wrote body frame])).setCoro t (.download c .draining))

/-- `bridge_h2` once its tasks have ended: the frame of a transport error, or straight to
`channel.close()`. -/
def reportError (s : Sys) (t : ℕ) (c : ℕ) (tasks : List ℕ) (padding : Padding) :
    Option Sys :=
  match s.native c with
  | none => none
  | some n =>
      let frame := do
        let code ← (s.chan c).transportError
        let packed ← leIntBytes 4 code
        let frame ← (encodeReply packed n.tag padding).toOption
        pure (code, frame)
      match frame with
      | some (code, frame) =>
          some (((s.writeNative E c n frame).mark c [.wroteError code frame]).setCoro t
            (.bridge c tasks .draining))
      | none => some (s.setCoro t (.close c .closeLock))

end Sys

/-- `download()` of `bridge_h2`, with `receive()`. -/
def downloadStep (E : AesKeystream) (s : Sys) (t : ℕ) (c : ℕ) :
    DownloadPc → Input → Option Sys
  | .dequeuing, .frame padding =>
      let ch := s.chan c
      match ch.queue with
      | [] => none
      | .error _ :: queue => some ((s.setChan c { ch with queue := queue }).setCoro t .done)
      | .reply body :: queue =>
          let ch := { ch with queue := queue, replyBytes := ch.replyBytes - body.length }
          let s := s.setChan c ch.wakeReceiver
          if ch.closed then some (s.setCoro t .done) else s.writeReply E t c body padding
  | .dequeuing, .cancelled => some (s.setCoro t .done)
  | .draining, .resume =>
      let ch := { s.chan c with deliveringSince := none, lastProgress := s.clock }
      some ((s.setChan c ch.wakeReceiver).setCoro t (.download c .dequeuing))
  | .draining, .broken =>
      some ((s.setChan c { s.chan c with deliveringSince := none }).setCoro t .done)
  | .draining, .cancelled =>
      some ((s.setChan c { s.chan c with deliveringSince := none }).setCoro t .done)
  | _, _ => none

/-- `bridge_h2` between the creation of its tasks and `channel.close()`. -/
def bridgeStep (E : AesKeystream) (s : Sys) (t : ℕ) (c : ℕ) (tasks : List ℕ) :
    BridgePc → Input → Option Sys
  | .waiting, .resume =>
      if ∃ task ∈ tasks, s.isDone task then
        some ((s.cancelAll tasks).setCoro t (.bridge c tasks (.teardown false)))
      else none
  | .waiting, .cancelled =>
      some ((s.cancelAll tasks).setCoro t (.bridge c tasks (.teardown true)))
  | .teardown cancelled, .frame padding =>
      if ¬ ∀ task ∈ tasks, s.isDone task then none
      else if cancelled then some (s.setCoro t (.close c .closeLock))
      else s.reportError E t c tasks padding
  | .teardown _, .cancelled =>
      if ∀ task ∈ tasks, s.isDone task then some (s.setCoro t (.close c .closeLock)) else none
  | .draining, .resume => some (s.setCoro t (.close c .closeLock))
  | .draining, .broken => some (s.setCoro t (.close c .closeLock))
  | .draining, .cancelled => some (s.setCoro t (.close c .closeLock))
  | _, _ => none

/-- `upload()` of `bridge_h2`, with the entry of `send`. -/
def uploadStep (s : Sys) (t : ℕ) (c : ℕ) : Input → Option Sys
  | .packet body => some ((s.setChan c ((s.chan c).beginWait s.clock body)).setCoro t
      (.send c .upload body .sendLock))
  | .broken => some (s.setCoro t .done)
  | .cancelled => some (s.setCoro t .done)
  | _ => none

/-! ## Closing -/

namespace Sys

/-- The loop of `close` over the tasks that are still pending, and its end. -/
def sweep (s : Sys) (t : ℕ) (c : ℕ) : List ℕ → Sys
  | [] =>
      ((s.setChan c (s.chan c).clear).setLane
        { s.lane with channels := s.lane.channels.erase c }).setCoro t .done
  | task :: rest =>
      match (s.chan c).finishRequest task none with
      | some (length, ch) => (s.setChan c ch).setCoro t (.close c (.releasing length rest))
      | none => s.sweep t c rest

/-- `close` leaves by an exception, its lock released. -/
def abortClose (s : Sys) (t : ℕ) (c : ℕ) : Sys :=
  (s.setChan c { s.chan c with closeLock := none }).setCoro t .done

end Sys

/-- `close` of a channel. -/
def closeStep (s : Sys) (t : ℕ) (c : ℕ) : ClosePc → Input → Option Sys
  | .closeLock, .resume =>
      let ch := s.chan c
      if ch.closeLock ≠ none then none
      else if ch.closeDone then some (s.setCoro t .done)
      else
        let failure := .connection "H2 channel closed"
        let tasks := ch.pending.keys
        some ((((s.setChan c { ch.fail failure with closed := true, closeLock := some t }).mark c
          [.failed failure]).cancelAll tasks).setCoro t (.close c (.gathering tasks)))
  | .closeLock, .cancelled => some (s.setCoro t .done)
  | .gathering tasks, .resume =>
      if ∀ task ∈ tasks, s.isDone task then some (s.sweep t c (s.chan c).pending.keys) else none
  | .gathering tasks, .cancelled =>
      if ∀ task ∈ tasks, s.isDone task then some (s.abortClose t c) else none
  | .releasing length rest, .resume =>
      if s.lane.capacity = none then
        some ((s.releaseLane length).setCoro t (.close c (.notifying rest)))
      else none
  | .releasing _ _, .cancelled => some (s.abortClose t c)
  | .notifying rest, .resume =>
      if (s.chan c).capacity = none then
        some ((s.setChan c (s.chan c).wakeReceiver).sweep t c rest)
      else none
  | .notifying _, .cancelled => some (s.abortClose t c)
  | _, _ => none

/-- `close` of a lane, once `closed` is set. -/
def closeLaneStep (s : Sys) (t : ℕ) : CloseLanePc → Input → Option Sys
  | .lock, .channels order =>
      if s.lane.capacity = none ∧ order.Nodup ∧ order.toFinset = s.lane.channels then
        some ((s.spawn (order.map (.close · .closeLock))).setCoro t
          (.closeLane (.gathering (List.range' s.nextTask order.length))))
      else none
  | .lock, .cancelled => some (s.setCoro t .done)
  | .gathering tasks, .resume =>
      if ∀ task ∈ tasks, s.isDone task then some (s.setCoro t .done) else none
  | .gathering tasks, .broken =>
      -- `gather` passes on the first exception of a child and leaves the others running
      if ∃ task ∈ tasks, s.isDone task then some (s.setCoro t .done) else none
  | .gathering tasks, .cancelled =>
      if ∀ task ∈ tasks, s.isDone task then some (s.setCoro t .done) else none
  | _, _ => none

/-! ## Events -/

/-- What happens next. -/
inductive Event
  /-- Time passes. -/
  | tick (nanoseconds : ℕ)
  /-- `_HttpChannel(lane, …)`. -/
  | openChannel
  /-- `bridge_h2(reader, writer, channel, ctx, tag)` is called. -/
  | bridge (c : ℕ) (tag : Bytes) (cltEnc : Cipher)
  /-- `channel.send(body, quick)` is called. -/
  | send (c : ℕ) (body : Bytes)
  /-- `channel.close()` is called. -/
  | close (c : ℕ)
  /-- `lane.close()` is called. -/
  | closeLane
  /-- The caller of one of these is cancelled. -/
  | cancel (t : ℕ)
  /-- A coroutine runs to its next await. -/
  | run (t : ℕ) (i : Input)
  /-- A task that was left behind takes the lock of a channel's condition, and ends. -/
  | orphanOn (t c : ℕ)
  /-- A task that was left behind takes the lock of the lane's condition, and ends. -/
  | orphan (t : ℕ)
  deriving DecidableEq

/-- The coroutines that others than this module's code may cancel. -/
def Coro.IsOuter : Coro → Bool
  | send _ .native _ _ => true
  | bridge _ _ _ => true
  | close _ _ => true
  | closeLane _ => true
  | _ => false

/-- The step of a coroutine. -/
def coroStep (E : AesKeystream) (s : Sys) (t : ℕ) (i : Input) : Option Sys :=
  match s.coro t with
  | .send c caller body pc => sendStep s t c caller body pc i
  | .upload c => uploadStep s t c i
  | .download c pc => downloadStep E s t c pc i
  | .recover c pc => recoverStep s t c pc i
  | .request c info pc => requestStep s t c info pc i
  | .bridge c tasks pc => bridgeStep E s t c tasks pc i
  | .close c pc => closeStep s t c pc i
  | .closeLane pc => closeLaneStep s t pc i
  | .done => none

/-- The step function. -/
def step (E : AesKeystream) : Event → Sys → Option Sys
  | .tick nanoseconds, s => some { s with clock := s.clock + nanoseconds }
  | .openChannel, s =>
      some { (s.setChan s.nextChan { lastProgress := s.clock }).setLane
          { s.lane with channels := insert s.nextChan s.lane.channels } with
        nextChan := s.nextChan + 1 }
  | .bridge c tag cltEnc, s =>
      if c < s.nextChan ∧ (s.native c).isNone then
        let t := s.nextTask
        some ((s.setNative c { tag := tag, given := cltEnc, cltEnc := cltEnc, first := t }).spawn
          [.upload c, .download c .dequeuing, .recover c .sleeping,
            .bridge c [t, t + 1, t + 2] .waiting])
      else none
  | .send c body, s =>
      if c < s.nextChan then
        some ((s.setChan c ((s.chan c).beginWait s.clock body)).spawn
          [.send c .native body .sendLock])
      else none
  | .close c, s => if c < s.nextChan then some (s.spawn [.close c .closeLock]) else none
  | .closeLane, s =>
      some ((s.setLane { s.lane with closed := true }).spawn [.closeLane .lock])
  | .cancel t, s => if (s.coro t).IsOuter then some (s.cancelAll [t]) else none
  | .run t .cancelled, s =>
      if t ∈ s.cancelling then
        coroStep E { s with cancelling := s.cancelling.erase t } t .cancelled
      else none
  | .run t i, s => coroStep E s t i
  | .orphanOn t c, s =>
      if (t, some c) ∈ s.orphans ∧ c < s.nextChan ∧ (s.chan c).capacity = none then
        some ({ s with orphans := s.orphans.erase (t, some c) }.setChan c
          { s.chan c with capacity := some t })
      else none
  | .orphan t, s =>
      if (t, none) ∈ s.orphans ∧ s.lane.capacity = none then
        some ({ s with orphans := s.orphans.erase (t, none) }.setLane
          { s.lane with capacity := some t })
      else none

end TgWsProxy
