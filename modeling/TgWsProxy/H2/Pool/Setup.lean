import TgWsProxy.Core.Dict
import TgWsProxy.Core.Transition
import TgWsProxy.Datacenters

/-!
# The lane pool

`CfH2Pool` of `proxy/cf_h2.py`: `open`, its setup task `_open`, `_HttpLane.close` and `close`, as a
system that takes the code between two suspension points as one step.

* `WaitFor` — the `asyncio.wait_for` around the setup task, which Python changed twice.
* `CfH2Pool` — the pool, the lanes and channels ever made, and where every coroutine stands.
* `scan`, `serve` — the loop of `_open` over the domains, and its body under the lock of a host.
* `step` — what each event makes of the pool.

The domains that the balancer yields to a call are any list, and a preflight ends in any way.  A
lock keeps its waiters in order.  `lane.close()` sets both flags before it suspends for the first
time; where there is nothing to wait for, it does not suspend, and the model lets it suspend
everywhere. -/

namespace TgWsProxy.H2Pool

open Wire

/-- The `asyncio.wait_for` of a range of Python versions.  Up to 3.11 the coroutine runs in a task
of its own.  A cancelled `wait_for` cancels this task, and from 3.9 on waits for it; a second
cancellation ends the wait.  From 3.12 on the coroutine runs in the task of the caller. -/
inductive WaitFor
  | python38
  | python39
  | python312
  deriving DecidableEq, Repr

def domainCooldown : ℤ := 30000000000

/-- Where `lane.close()` stands that `close()` of the pool has started. -/
inductive LaneClose
  | idle
  | created
  | notifying
  | gathering (channels : List ℕ)
  | aclosing
  | ended
  deriving DecidableEq, Repr

/-- `_HttpLane`, and the call that made it. -/
structure Lane where
  host : String
  failedUntil : ℤ
  closed : Bool
  clientClosed : Bool
  maker : ℕ
  closer : LaneClose
  deriving DecidableEq, Repr

/-- `_HttpChannel`.  It leaves `lane.channels` in the same step that sets `close_done`. -/
structure Channel where
  lane : ℕ
  closed : Bool
  closeDone : Bool
  deriving DecidableEq, Repr

/-- `asyncio.Lock`: who holds it, and who waits. -/
structure HostLock where
  holder : Option ℕ
  waiters : List ℕ
  deriving DecidableEq, Repr

/-- What `_open` and `open` end with. -/
inductive Outcome
  | channel (channel : ℕ)
  | unavailable
  | raised (text : String)
  | cancelled
  deriving DecidableEq, Repr

/-- What follows `lane.close()` in `_open`. -/
inductive AfterClose
  | next (rest : List String)
  | reraise
  | late
  deriving DecidableEq, Repr

/-- Where `_open` stands. -/
inductive SetupPc
  | created
  | locking (baseDomain : String) (rest : List String)
  | preflight (lane : ℕ) (rest : List String)
  | closing (lane : ℕ) (after : AfterClose)
  | ended (outcome : Outcome)
  deriving DecidableEq, Repr

/-- Where `open` stands: in `wait_for`, with its setup task cancelled by the timeout or by the
caller, at its end, or at an end that left the setup task running. -/
inductive Waiter
  | waiting
  | timing
  | cancelling
  | ended (outcome : Outcome)
  | abandoned
  deriving DecidableEq, Repr

/-- A call of `open`, and its setup task. -/
structure OpenCall where
  dc : ℕ
  domains : List String
  pc : SetupPc
  cancelled : Bool
  waiter : Waiter
  deriving DecidableEq, Repr

/-- Whether `close()` of the pool has been called, and has ended. -/
inductive PoolClose
  | idle
  | running
  | ended
  deriving DecidableEq, Repr

structure CfH2Pool where
  clock : ℤ
  lanes : Dict String ℕ
  locks : String → HostLock
  failedUntil : Dict String ℤ
  setupRetryAfter : Dict ℕ ℤ
  closed : Bool
  closer : PoolClose
  made : List Lane
  channels : List Channel
  calls : List OpenCall

namespace CfH2Pool

/-! ## Parts of a step -/

def setCall (p : CfH2Pool) (c : ℕ) (o : OpenCall) : CfH2Pool :=
  { p with calls := p.calls.set c o }

def setLock (p : CfH2Pool) (host : String) (lock : HostLock) : CfH2Pool :=
  { p with locks := Function.update p.locks host lock }

/-- `lock.release()`. -/
def release (p : CfH2Pool) (host : String) : CfH2Pool :=
  p.setLock host { p.locks host with holder := none }

/-- `lane.close()` up to its first suspension, of a lane without channels. -/
def shut (p : CfH2Pool) (l : ℕ) : CfH2Pool :=
  { p with made := p.made.modify l fun lane => { lane with closed := true, clientClosed := true } }

/-- `_HttpChannel(lane, self.next_channel, label)`. -/
def newChannel (p : CfH2Pool) (l : ℕ) : CfH2Pool :=
  { p with channels := p.channels ++ [⟨l, false, false⟩] }

/-- `time.monotonic() < max(self.failed_until.get(host, 0), lane.failed_until if lane else 0)`. -/
def cooling (p : CfH2Pool) (host : String) : Bool :=
  let laneFailed := ((p.lanes.get? host).bind fun l => p.made[l]?).elim 0 Lane.failedUntil
  p.clock < max ((p.failedUntil.get? host).getD 0) laneFailed

/-- The body of the loop under the lock of `host`, from the lookup of the lane on. -/
def serve (p : CfH2Pool) (c : ℕ) (host : String) (rest : List String) : CfH2Pool × SetupPc :=
  match p.lanes.get? host with
  | none =>
      ({ p.setLock host { p.locks host with holder := some c } with
          made := p.made ++ [⟨host, 0, false, false, c, .idle⟩] },
        .preflight p.made.length rest)
  | some l => (p.newChannel l, .ended (.channel p.channels.length))

/-- The body of the loop, with the lock of `host` just acquired; `next` is where `continue` leads.
-/
def enter (p : CfH2Pool) (c : ℕ) (host : String) (rest : List String)
    (next : CfH2Pool × SetupPc) : CfH2Pool × SetupPc :=
  if p.closed then (p, .ended (.raised "H2 pool closed"))
  else if p.cooling host then next
  else p.serve c host rest

/-- The loop of `_open` over the domains, up to its next suspension. -/
def scan (p : CfH2Pool) (c dc : ℕ) : List String → CfH2Pool × SetupPc
  | [] => (p, .ended .unavailable)
  | baseDomain :: rest =>
      let host := kws dc baseDomain
      if (p.locks host).holder = none ∧ (p.locks host).waiters = [] then
        p.enter c host rest (p.scan c dc rest)
      else
        (p.setLock host { p.locks host with waiters := (p.locks host).waiters ++ [c] },
          .locking baseDomain rest)

/-- The first turn of `_open`. -/
def begin (p : CfH2Pool) (c : ℕ) (o : OpenCall) : CfH2Pool × SetupPc :=
  if p.closed then (p, .ended (.raised "H2 pool closed"))
  else if o.dc ∉ dcDefaultIps.map Prod.fst then (p, .ended .unavailable)
  else p.scan c o.dc o.domains

/-- The setup task of a call goes to a position. -/
def goto (o : OpenCall) (c : ℕ) (next : CfH2Pool × SetupPc) : CfH2Pool :=
  next.1.setCall c { o with pc := next.2 }

/-! ## The setup task -/

/-- The first turn of the task. -/
def start (p : CfH2Pool) (c : ℕ) (o : OpenCall) : Option CfH2Pool :=
  if o.pc = .created ∧ o.cancelled = false then some (goto o c (p.begin c o)) else none

/-- The first waiter of a free lock gets it. -/
def grant (p : CfH2Pool) (c : ℕ) (o : OpenCall) : Option CfH2Pool :=
  match o.pc with
  | .locking baseDomain rest =>
      let host := kws o.dc baseDomain
      if (p.locks host).holder = none ∧ (p.locks host).waiters.head? = some c ∧
          o.cancelled = false then
        let p := p.setLock host { p.locks host with waiters := (p.locks host).waiters.tail }
        some (goto o c (p.enter c host rest (p.scan c o.dc rest)))
      else none
  | _ => none

/-- `lane._preflight()` returns.  A cancelled preflight may still return: what it awaits may
swallow the cancellation. -/
def preflightOk (p : CfH2Pool) (c : ℕ) (o : OpenCall) : Option CfH2Pool :=
  match o.pc with
  | .preflight l _ =>
      (p.made[l]?).map fun lane =>
        let o := { o with cancelled := false }
        if p.closed then goto o c (p.shut l, .closing l .late)
        else
          let p := { p with lanes := p.lanes.set lane.host l }.release lane.host
          goto o c (p.newChannel l, .ended (.channel p.channels.length))
  | _ => none

/-- `lane._preflight()` raises one of `httpx.HTTPError, OSError, ValueError`. -/
def preflightFails (p : CfH2Pool) (c : ℕ) (o : OpenCall) : Option CfH2Pool :=
  match o.pc with
  | .preflight l rest =>
      (p.made[l]?).map fun lane =>
        let p := { p with failedUntil := p.failedUntil.set lane.host (p.clock + domainCooldown) }
        goto { o with cancelled := false } c (p.shut l, .closing l (.next rest))
  | _ => none

/-- `lane.close()` returns. -/
def laneClosed (p : CfH2Pool) (c : ℕ) (o : OpenCall) : Option CfH2Pool :=
  match o.pc with
  | .closing l after =>
      if o.cancelled then none
      else (p.made[l]?).map fun lane =>
        let p := p.release lane.host
        match after with
        | .next rest => goto o c (p.scan c o.dc rest)
        | .reraise => goto o c (p, .ended .cancelled)
        | .late => goto o c (p, .ended (.raised "H2 pool closed during preflight"))
  | _ => none

/-- `CancelledError` is raised where the task is suspended. -/
def cancelled (p : CfH2Pool) (c : ℕ) (o : OpenCall) : Option CfH2Pool :=
  let o' := { o with cancelled := false }
  if o.cancelled then
    match o.pc with
    | .created => some (goto o' c (p, .ended .cancelled))
    | .locking baseDomain _ =>
        let host := kws o.dc baseDomain
        let lock := { p.locks host with waiters := (p.locks host).waiters.erase c }
        some (goto o' c (p.setLock host lock, .ended .cancelled))
    | .preflight l _ => some (goto o' c (p.shut l, .closing l .reraise))
    | .closing l _ =>
        (p.made[l]?).map fun lane => goto o' c (p.release lane.host, .ended .cancelled)
    | .ended _ => none
  else none

/-! ## The call -/

/-- A call of `open`, up to its first suspension. -/
def openCall (v : WaitFor) (p : CfH2Pool) (dc : ℕ) (domains : List String) : CfH2Pool :=
  let c := p.calls.length
  let add (pc : SetupPc) (w : Waiter) : CfH2Pool :=
    { p with calls := p.calls ++ [⟨dc, domains, pc, false, w⟩] }
  if p.closed then add (.ended (.raised "H2 pool closed")) (.ended (.raised "H2 pool closed"))
  else if p.clock < (p.setupRetryAfter.get? dc).getD 0 then
    add (.ended .unavailable) (.ended .unavailable)
  else
    let p := add .created .waiting
    if v = .python312 then
      goto ⟨dc, domains, .created, false, .waiting⟩ c
        (p.begin c ⟨dc, domains, .created, false, .waiting⟩)
    else p

/-- What `open` ends with when its setup task has ended. -/
def result (v : WaitFor) : Waiter → Outcome → Outcome
  | .timing, .cancelled => .unavailable
  | .timing, outcome => if v = .python38 then .unavailable else outcome
  | .cancelling, outcome => if v = .python312 then outcome else .cancelled
  | _, outcome => outcome

/-- `open` goes on after its setup task has ended. -/
def resume (v : WaitFor) (p : CfH2Pool) (c : ℕ) (o : OpenCall) : Option CfH2Pool :=
  match o.pc, o.waiter with
  | _, .ended _ => none
  | _, .abandoned => none
  | .ended outcome, w =>
      let final := result v w outcome
      let p := p.setCall c { o with waiter := .ended final }
      some (if w = .timing ∧ (outcome = .cancelled ∨ v = .python38) then
        { p with setupRetryAfter := p.setupRetryAfter.set o.dc (p.clock + domainCooldown) } else p)
  | _, _ => none

/-- The setup has not ended in time. -/
def timeout (p : CfH2Pool) (c : ℕ) (o : OpenCall) : Option CfH2Pool :=
  match o.pc, o.waiter with
  | .ended _, _ => none
  | _, .waiting => some (p.setCall c { o with cancelled := true, waiter := .timing })
  | _, _ => none

/-- The task of the caller is cancelled. -/
def cancel (v : WaitFor) (p : CfH2Pool) (c : ℕ) (o : OpenCall) : Option CfH2Pool :=
  match o.pc, o.waiter with
  | _, .ended _ => none
  | _, .abandoned => none
  | .ended outcome, .waiting => some (p.setCall c { o with waiter := .ended outcome })
  | .ended outcome, w =>
      let final := if v = .python312 then result v w outcome else .cancelled
      some (p.setCall c { o with waiter := .ended final })
  | _, .waiting =>
      some (p.setCall c { o with
        cancelled := true, waiter := if v = .python38 then .abandoned else .cancelling })
  | _, _ =>
      some (p.setCall c (if v = .python312 then { o with cancelled := true, waiter := .cancelling }
        else { o with waiter := .abandoned }))

/-! ## Closing -/

/-- `close()` up to its first suspension: a task for every lane of the pool. -/
def close (p : CfH2Pool) : Option CfH2Pool :=
  if p.closer = .idle then
    some { p with
      closed := true, closer := .running
      made := p.made.mapIdx fun l lane =>
        if p.lanes.get? lane.host = some l then { lane with closer := .created } else lane }
  else none

/-- A turn of `lane.close()` in a task of its own. -/
def laneClose (p : CfH2Pool) (l : ℕ) (lane : Lane) : Option CfH2Pool :=
  let put (lane : Lane) : CfH2Pool := { p with made := p.made.set l lane }
  match lane.closer with
  | .created => some (put { lane with closed := true, closer := .notifying })
  | .notifying =>
      -- `list(self.channels)`, each closed in a task of its own
      let listed := (List.range p.channels.length).filter fun i =>
        p.channels[i]?.any fun ch => ch.lane = l && !ch.closeDone
      some (put { lane with closer := .gathering listed })
  | .gathering ids =>
      if ids.all fun i => p.channels[i]?.all Channel.closeDone then
        some (put { lane with clientClosed := true, closer := .aclosing })
      else none
  | .aclosing => some (put { lane with closer := .ended })
  | _ => none

/-- The tasks of all lanes have ended, and `self.lanes.clear()`. -/
def closeEnds (p : CfH2Pool) : Option CfH2Pool :=
  if p.closer = .running ∧ ∀ l ∈ p.lanes.values, (p.made[l]?.map Lane.closer) = some .ended then
    some { p with lanes := .empty, closer := .ended }
  else none

end CfH2Pool

/-! ## The system -/

/-- What can happen next.  Every event but the first names a call, a lane or a channel by its
place in the order of creation. -/
inductive Event
  | tick (elapsed : ℕ)
  | openCall (dc : ℕ) (domains : List String)
  | start (call : ℕ)
  | grant (call : ℕ)
  | preflightOk (call : ℕ)
  | preflightFails (call : ℕ)
  | laneClosed (call : ℕ)
  | cancelled (call : ℕ)
  | resume (call : ℕ)
  | timeout (call : ℕ)
  | cancel (call : ℕ)
  | laneFails (lane : ℕ)
  | channelCloses (channel : ℕ)
  | channelDone (channel : ℕ)
  | close
  | laneClose (lane : ℕ)
  | closeEnds
  deriving DecidableEq, Repr

open CfH2Pool in
/-- What an event makes of the pool. -/
def step (v : WaitFor) : Event → CfH2Pool → Option CfH2Pool
  | .tick elapsed, p => some { p with clock := p.clock + elapsed }
  | .openCall dc domains, p => some (p.openCall v dc domains)
  | .start c, p => (p.calls[c]?).bind (p.start c)
  | .grant c, p => (p.calls[c]?).bind (p.grant c)
  | .preflightOk c, p => (p.calls[c]?).bind (p.preflightOk c)
  | .preflightFails c, p => (p.calls[c]?).bind (p.preflightFails c)
  | .laneClosed c, p => (p.calls[c]?).bind (p.laneClosed c)
  | .cancelled c, p => (p.calls[c]?).bind (p.cancelled c)
  | .resume c, p => (p.calls[c]?).bind (p.resume v c)
  | .timeout c, p => (p.calls[c]?).bind (p.timeout c)
  | .cancel c, p => (p.calls[c]?).bind (p.cancel v c)
  | .laneFails l, p =>
      -- `_post` on a lane of the pool
      some { p with made := p.made.modify l fun lane =>
        { lane with failedUntil := p.clock + domainCooldown } }
  | .channelCloses i, p =>
      some { p with channels := p.channels.modify i fun ch => { ch with closed := true } }
  | .channelDone i, p =>
      (p.channels[i]?).bind fun ch =>
        if ch.closed then some { p with channels := p.channels.set i { ch with closeDone := true } }
        else none
  | .close, p => p.close
  | .laneClose l, p => (p.made[l]?).bind (p.laneClose l)
  | .closeEnds, p => p.closeEnds

/-- A pool as `__init__` makes it. -/
def Starting (p : CfH2Pool) : Prop :=
  p.lanes = .empty ∧ (∀ host, p.locks host = ⟨none, []⟩) ∧ p.closed = false ∧ p.closer = .idle ∧
    p.made = [] ∧ p.channels = [] ∧ p.calls = []

/-- The pools of all runs. -/
def Reaches (v : WaitFor) (p : CfH2Pool) : Prop := Reachable Starting (step v) Always p

end TgWsProxy.H2Pool
