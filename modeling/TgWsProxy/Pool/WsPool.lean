import TgWsProxy.Core.Registry
import TgWsProxy.Core.Shelf
import TgWsProxy.Core.Transition
import Mathlib

/-!
# The pool of direct connections

`_WsPool` of `proxy/pool.py`, with its refill and rotation tasks.  What runs between two
suspensions of a task is one step.  A refill dials in parallel: each dial is a task of its own,
which ends whenever it likes, also with a connection after it was cancelled.

* `WsPool` — the maps of the class.
* `Dial`, `Phase`, `Refill` — a refill task with its dials; `Refill.held` is what it owns.
* `Rotation` — a rotation task.
* `World`, `World.step` — the pool with its tasks, its callers and the clock.
-/

namespace TgWsProxy.Ws

open Wire

/-! ## The constants -/

/-- `WS_POOL_MAX_AGE`. -/
def wsPoolMaxAge : ℚ := 120

/-- `REFILL_BACKOFF_INITIAL`. -/
def refillBackoffInitial : ℚ := 1

/-- `REFILL_BACKOFF_MAX`. -/
def refillBackoffMax : ℚ := 3600

/-- What the pool reads of `proxy_config`. -/
structure ProxyConfig where
  poolSize : ℕ
  dcRedirects : Dict ℤ (Option String)
  forceTestDc : Bool

/-! ## The pool -/

/-- A key of the maps: `(dc, is_media, is_test_dc)`. -/
structure Key where
  dc : ℤ
  isMedia : Bool
  isTestDc : Bool
  deriving DecidableEq, Repr

/-- An idle connection. -/
structure Idle where
  ws : ℕ
  created : ℚ
  deriving DecidableEq

/-- `_WsPool`. -/
structure WsPool where
  idle : Shelf Key Idle
  refilling : Dict Key ℕ
  rotating : Dict Key ℕ
  refillFailures : Dict Key ℕ
  refillAfter : Dict Key ℚ

namespace WsPool

/-- `_WsPool()`. -/
def new : WsPool := ⟨.empty, .empty, .empty, .empty, .empty⟩

/-- The bookkeeping of a refill behind its loop. -/
def settle (now : ℚ) (key : Key) (connected : ℕ) (p : WsPool) : WsPool :=
  if connected ≠ 0 then
    { p with refillFailures := p.refillFailures.erase key, refillAfter := p.refillAfter.erase key }
  else
    let failures := (p.refillFailures.get? key).getD 0 + 1
    let delay := min (refillBackoffInitial * 2 ^ min (failures - 1) 12) refillBackoffMax
    { p with
      refillFailures := p.refillFailures.set key failures
      refillAfter := p.refillAfter.set key (now + delay) }

/-- The end of the `finally` of refill `t`. -/
def release (key : Key) (t : ℕ) (p : WsPool) : WsPool :=
  if p.refilling.get? key = some t then { p with refilling := p.refilling.erase key } else p

/-- The `finally` of rotation `t`. -/
def releaseRotation (key : Key) (t : ℕ) (p : WsPool) : WsPool :=
  if p.rotating.get? key = some t then { p with rotating := p.rotating.erase key } else p

/-- `reset()`, its maps. -/
def clear (p : WsPool) : WsPool := ⟨p.idle.clear, .empty, .empty, .empty, .empty⟩

/-- The bookkeeping leaves the buckets and the registries alone. -/
lemma settle_eq (now : ℚ) (key : Key) (connected : ℕ) (p : WsPool) :
    ∃ f a, p.settle now key connected = { p with refillFailures := f, refillAfter := a } := by
  rw [settle]
  split_ifs <;> exact ⟨_, _, rfl⟩

end WsPool

/-! ## The tasks -/

/-- A task of `_connect_one`: in the air, ended with a connection, or ended without one. -/
inductive Dial
  | pending
  | returned (ws : ℕ)
  | failed
  deriving DecidableEq, Repr

/-- A dial that has ended. -/
def Dial.ended : Option ℕ → Dial
  | some ws => .returned ws
  | none => .failed

/-- Where a refill is suspended.  In its loop, `todo` are the dials that have ended and that
`as_completed` has not handed out yet; `cleaning` is the `gather` of the `finally`, and `closing` a
close that it awaits, with `rest` still to be closed. -/
inductive Phase
  | created
  | dialling (bucket connected : ℕ) (dials : List Dial) (todo adopted : List ℕ)
  | cleaning (dials : List Dial) (adopted : List ℕ)
  | closing (rest : List ℕ)
  | done
  deriving DecidableEq, Repr

/-- The connections that dials have returned and that are not adopted. -/
def unadopted (dials : List Dial) (adopted : List ℕ) : List ℕ :=
  dials.filterMap fun
    | .returned ws => if ws ∈ adopted then none else some ws
    | _ => none

/-- The connections that a refill owns. -/
def Phase.held : Phase → List ℕ
  | .dialling _ _ dials _ adopted => unadopted dials adopted
  | .cleaning dials adopted => unadopted dials adopted
  | .closing rest => rest
  | _ => []

/-- A task of `_refill(key, target_ip, domains)`.  `cancelled` says that it was cancelled and the
cancellation has not been delivered. -/
structure Refill where
  key : Key
  phase : Phase
  cancelled : Bool
  deriving DecidableEq

/-- Where a rotation is suspended. -/
inductive Turn
  | created
  | sleeping
  | done
  deriving DecidableEq, Repr

/-- A task of `_rotate(key, target_ip, domains)`. -/
structure Rotation where
  key : Key
  turn : Turn
  cancelled : Bool
  deriving DecidableEq

/-- A call of `close()`: the tasks that it gathers, the refills that run although no key maps to
them any more when it starts, whether `get` and `warmup` have kept out since, and whether it has
returned. -/
structure Closer where
  refills : List ℕ
  rotations : List ℕ
  overtaken : List ℕ
  quiet : Bool
  returned : Bool
  deriving DecidableEq

/-- The pool with everything around it.  `dialled`, `handed` and `closed` are the connections that
dials returned, that callers of `get` own, and that are closed or about to be. -/
structure World where
  pool : WsPool
  now : ℚ
  refills : List Refill
  rotations : List Rotation
  closers : List Closer
  dialled : List ℕ
  handed : List ℕ
  closed : List ℕ

/-- What can happen next.  `dead` are the connections that are closed, closing, at the end of their
stream or broken; a dial ends with a connection or without. -/
inductive Event
  | tick (t : ℚ)
  | get (dc : ℤ) (isMedia isTestDc : Bool) (dead : List ℕ)
  | warmup
  | refill (t : ℕ)
  | dial (t i : ℕ) (result : Option ℕ)
  | rotate (t : ℕ) (dead : List ℕ)
  | reset
  | closeBegin
  | closeEnd (c : ℕ)
  deriving DecidableEq

/-- The refill that takes the step. -/
def Event.task : Event → Option ℕ
  | .refill t => some t
  | .dial t _ _ => some t
  | _ => none

/-- `_is_stale(ws, created, now)`. -/
def isStale (now : ℚ) (dead : List ℕ) (e : Idle) : Bool :=
  wsPoolMaxAge ≤ now - e.created ∨ e.ws ∈ dead

/-- The loop of `get` over a bucket: what it closes, what it finds, and what it leaves. -/
def popFresh (stale : Idle → Bool) : List Idle → List Idle × Option Idle × List Idle
  | [] => ([], none, [])
  | e :: bucket =>
      if stale e then
        let (expired, found, left) := popFresh stale bucket
        (e :: expired, found, left)
      else ([], some e, bucket)

namespace World

/-- Refill `t` becomes `r`. -/
def put (t : ℕ) (r : Refill) (s : World) : World := { s with refills := s.refills.set t r }

/-- Rotation `t` becomes `r`. -/
def putRotation (t : ℕ) (r : Rotation) (s : World) : World :=
  { s with rotations := s.rotations.set t r }

/-- `_schedule_rotation(key, target_ip, domains)`. -/
def scheduleRotation (key : Key) (s : World) : World :=
  if key ∈ s.pool.rotating.keys then s
  else
    { s with
      pool := { s.pool with rotating := s.pool.rotating.set key s.rotations.length }
      rotations := s.rotations ++ [⟨key, .created, false⟩] }

/-- `_schedule_refill(key, target_ip, domains)`. -/
def scheduleRefill (poolSize : ℕ) (key : Key) (s : World) : World :=
  if poolSize = 0 then s
  else
    let s := s.scheduleRotation key
    if key ∈ s.pool.refilling.keys ∨ s.now < (s.pool.refillAfter.get? key).getD 0 then s
    else
      { s with
        pool := { s.pool with refilling := s.pool.refilling.set key s.refills.length }
        refills := s.refills ++ [⟨key, .created, false⟩] }

/-- `get(dc, is_media, is_test_dc=is_test_dc)`. -/
def get (cfg : ProxyConfig) (key : Key) (dead : List ℕ) (s : World) : World :=
  match (cfg.dcRedirects.get? key.dc).join with
  | none => s
  | some targetIp =>
      if targetIp = "" ∨ cfg.poolSize = 0 then s
      else
        let (b, idle) := s.pool.idle.setdefault key
        let (expired, found, left) := popFresh (isStale s.now dead) (idle.heap b)
        let s := { s with
          pool := { s.pool with idle := idle.modify b left }
          closed := s.closed ++ expired.map Idle.ws }
        match found with
        | some e => { s with handed := s.handed ++ [e.ws] }.scheduleRefill cfg.poolSize key
        | none => s.scheduleRefill cfg.poolSize key

/-- `warmup()`. -/
def warmup (cfg : ProxyConfig) (s : World) : World :=
  cfg.dcRedirects.entries.foldl (fun s entry =>
    match entry.2 with
    | none => s
    | some _ =>
        [false, true].foldl (fun s isMedia =>
          s.scheduleRefill cfg.poolSize ⟨entry.1, isMedia, cfg.forceTestDc⟩) s) s

/-- Refill `t` runs to its end. -/
def finish (t : ℕ) (r : Refill) (s : World) : World :=
  { s with pool := s.pool.release r.key t }.put t { r with phase := .done, cancelled := false }

/-- The `finally` of refill `t` goes on to the next connection that is to be closed. -/
def closeNext (t : ℕ) (r : Refill) (s : World) : List ℕ → World
  | [] => s.finish t r
  | ws :: rest =>
      { s with closed := s.closed ++ [ws] }.put t
        { r with phase := .closing rest, cancelled := false }

/-- The loop of refill `t` goes round: to the next dial, or behind the loop. -/
def again (t : ℕ) (r : Refill) (bucket connected : ℕ) (dials : List Dial) (todo adopted : List ℕ)
    (s : World) : World :=
  if todo = [] ∧ .pending ∉ dials then
    { s with pool := s.pool.settle s.now r.key connected }.put t
      { r with phase := .cleaning dials adopted, cancelled := false }
  else s.put t { r with phase := .dialling bucket connected dials todo adopted, cancelled := false }

/-- The first step of refill `t`: up to its dials. -/
def begin (poolSize t : ℕ) (r : Refill) (s : World) : World :=
  let (bucket, idle) := s.pool.idle.setdefault r.key
  let needed := poolSize - (idle.heap bucket).length
  let s := { s with pool := { s.pool with idle } }
  -- The `gather` of no task does not suspend.
  if needed = 0 then s.finish t r
  else s.put t { r with phase := .dialling bucket 0 (.replicate needed .pending) [] [] }

/-- Refill `t` is handed the result of a dial. -/
def consume (t : ℕ) (r : Refill) (bucket connected : ℕ) (dials : List Dial) (dial : Dial)
    (todo adopted : List ℕ) (s : World) : World :=
  match dial with
  | .returned ws =>
      if s.pool.refilling.get? r.key = some t then
        let idle := s.pool.idle.modify bucket (s.pool.idle.heap bucket ++ [⟨ws, s.now⟩])
        { s with pool := { s.pool with idle } }.again t r bucket (connected + 1) dials todo
          (ws :: adopted)
      else s.put t { r with phase := .cleaning dials adopted, cancelled := false }
  | _ => s.again t r bucket connected dials todo adopted

/-- The next step of refill `t`. -/
def refill (poolSize t : ℕ) (r : Refill) (s : World) : Option World :=
  match r.phase with
  | .created =>
      -- A task that is cancelled before its first step never enters its `try`.
      if r.cancelled then some (s.put t { r with phase := .done, cancelled := false })
      else some (s.begin poolSize t r)
  | .dialling bucket connected dials todo adopted =>
      if r.cancelled then
        some (s.put t { r with phase := .cleaning dials adopted, cancelled := false })
      else
        match todo with
        | [] => none
        | i :: todo =>
            match dials[i]? with
            | none => none
            | some dial => some (s.consume t r bucket connected dials dial todo adopted)
  | .cleaning dials adopted =>
      if .pending ∈ dials then none
      else if r.cancelled then
        -- The cancellation leaves the `finally`, and with it everything behind the `gather`.
        some (s.put t { r with phase := .done, cancelled := false })
      else some (s.closeNext t r (unadopted dials adopted))
  | .closing rest =>
      if r.cancelled then some (s.put t { r with phase := .done, cancelled := false })
      else some (s.closeNext t r rest)
  | .done => none

/-- Dial `i` of refill `t` ends with `result`. -/
def dial (t i : ℕ) (result : Option ℕ) (r : Refill) (s : World) : Option World :=
  if ∃ ws ∈ result, ws ∈ s.dialled then none
  else
    let s := { s with dialled := s.dialled ++ result.toList }
    match r.phase with
    | .dialling bucket connected dials todo adopted =>
        if dials[i]? = some .pending then
          some (s.put t { r with
            phase := .dialling bucket connected (dials.set i (.ended result))
                (todo ++ [i]) adopted })
        else none
    | .cleaning dials adopted =>
        if dials[i]? = some .pending then
          some (s.put t { r with phase := .cleaning (dials.set i (.ended result)) adopted })
        else none
    | _ => none

/-- One round of the loop of rotation `t`. -/
def rotateRound (poolSize t : ℕ) (r : Rotation) (dead : List ℕ) (s : World) : World :=
  let (b, idle) := s.pool.idle.setdefault r.key
  let stale := isStale s.now dead
  let expired := (idle.heap b).filter stale
  let ready := (idle.heap b).filter fun e => !stale e
  let s := { s with
    pool := { s.pool with idle := idle.modify b ready }
    closed := s.closed ++ expired.map Idle.ws }
  let s := if ready.length < poolSize then s.scheduleRefill poolSize r.key else s
  s.putRotation t { r with turn := .sleeping, cancelled := false }

/-- The next step of rotation `t`. -/
def rotate (poolSize t : ℕ) (r : Rotation) (dead : List ℕ) (s : World) : Option World :=
  match r.turn, r.cancelled with
  | .created, true => some (s.putRotation t { r with turn := .done, cancelled := false })
  | .sleeping, true =>
      some ({ s with pool := s.pool.releaseRotation r.key t }.putRotation t
        { r with turn := .done, cancelled := false })
  | .done, _ => none
  | _, false =>
      if poolSize = 0 then
        some ({ s with pool := s.pool.releaseRotation r.key t }.putRotation t
          { r with turn := .done, cancelled := false })
      else some (s.rotateRound poolSize t r dead)

/-- `reset()`. -/
def reset (s : World) : World :=
  { s with
    pool := s.pool.clear
    refills := s.refills.mapIdx fun t r =>
      if t ∈ s.pool.refilling.values ∧ r.phase ≠ .done then { r with cancelled := true } else r
    rotations := s.rotations.mapIdx fun t r =>
      if t ∈ s.pool.rotating.values ∧ r.turn ≠ .done then { r with cancelled := true } else r
    closed := s.closed ++ s.pool.idle.contents.map Idle.ws }

/-- The refills that run although no key maps to them. -/
def overtaken (s : World) : List ℕ :=
  (List.range s.refills.length).filter fun t =>
    t ∉ s.pool.refilling.values ∧ ∃ r ∈ s.refills[t]?, r.phase ≠ .done

/-- A call of `get` or `warmup` after `close()` has started. -/
def disturb (s : World) : World :=
  { s with closers := s.closers.map fun c => { c with quiet := false } }

/-- One step. -/
def step (cfg : ProxyConfig) : Event → World → Option World
  | .tick t, s => if s.now ≤ t then some { s with now := t } else none
  | .get dc isMedia isTestDc dead, s => some (s.disturb.get cfg ⟨dc, isMedia, isTestDc⟩ dead)
  | .warmup, s => some (s.disturb.warmup cfg)
  | .refill t, s => (s.refills[t]?).bind fun r => s.refill cfg.poolSize t r
  | .dial t i result, s => (s.refills[t]?).bind fun r => s.dial t i result r
  | .rotate t dead, s => (s.rotations[t]?).bind fun r => s.rotate cfg.poolSize t r dead
  | .reset, s => some s.reset
  | .closeBegin, s =>
      some { s.reset with
        closers := s.closers ++
          [⟨s.pool.refilling.values, s.pool.rotating.values, s.overtaken, true, false⟩] }
  | .closeEnd c, s =>
      (s.closers[c]?).bind fun closer =>
        if (∀ t ∈ closer.refills, ∀ r ∈ s.refills[t]?, r.phase = .done) ∧
            ∀ t ∈ closer.rotations, ∀ r ∈ s.rotations[t]?, r.turn = .done then
          some { s with closers := s.closers.set c { closer with returned := true } }
        else none

end World

/-- A fresh pool. -/
def Starting (s : World) : Prop :=
  s.pool = .new ∧ s.refills = [] ∧ s.rotations = [] ∧ s.closers = [] ∧ s.dialled = [] ∧
    s.handed = [] ∧ s.closed = []

end TgWsProxy.Ws
