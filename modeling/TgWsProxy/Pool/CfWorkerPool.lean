import TgWsProxy.Core.Binary64
import TgWsProxy.Core.Shelf
import TgWsProxy.Core.Transition
import Mathlib

/-!
# The pool of worker connections

`_CfWorkerPool` of `proxy/pool.py`, with its refill tasks.  What runs between two suspensions of a
task is one step; a refill is suspended in a dial, or in the close of a connection that nobody
wants any more.

* `CfWorkerPool` — the maps of the class, and the operations on the breaker of the workers.
* `Refill`, `Phase` — a refill task; `cancelled` until the cancellation is delivered.
* `World`, `World.step` — the pool with its tasks, its callers and the clock.
-/

namespace TgWsProxy.CfWorker

open Wire

/-! ## The constants -/

/-- `WS_POOL_MAX_AGE`. -/
def wsPoolMaxAge : ℚ := 100

/-- `PER_DC_LIMIT`. -/
def perDcLimit : ℕ := 1

/-- `FAILURE_COOLDOWN`. -/
def failureCooldown : ℚ := 60

/-- `QUOTA_COOLDOWN`. -/
def quotaCooldown : ℚ := 900

/-- `COOLDOWN_MAX`. -/
def cooldownMax : ℚ := 21600

/-- `BACKOFF_STEPS`. -/
def backoffSteps : ℕ := 8

/-- `LOCAL_ABORT_COOLDOWN`. -/
def localAbortCooldown : ℚ := 5

/-- `REFILL_BACKOFF_INITIAL`. -/
def refillBackoffInitial : ℚ := 60

/-- `REFILL_BACKOFF_MAX`. -/
def refillBackoffMax : ℚ := 3600

/-! ## The pool -/

/-- An idle connection. -/
structure Idle (δ : Type*) where
  ws : ℕ
  created : ℚ
  workerDomain : δ
  deriving DecidableEq

/-- `_CfWorkerPool`, over any type of worker domains. -/
structure CfWorkerPool (δ : Type*) where
  idle : Shelf ℤ (Idle δ)
  refilling : Dict ℤ ℕ
  unavailableUntil : Dict δ ℚ
  failures : Dict δ ℕ
  refillFailures : Dict ℤ ℕ
  refillAfter : Dict ℤ ℚ

/-- What a dial can be refused with, as `report_failure` tells it apart. -/
inductive Refusal
  | localAbort
  | quota
  | other
  deriving DecidableEq, Repr

variable {δ : Type*} [DecidableEq δ]

namespace CfWorkerPool

/-- `_CfWorkerPool()`. -/
def new : CfWorkerPool δ := ⟨.empty, .empty, .empty, .empty, .empty, .empty⟩

/-- The loop of `available_domains`, before the shuffle: the domains that are not resting, with the
rests that are over forgotten. -/
def availableDomains (now : ℚ) (workerDomains : List δ) (p : CfWorkerPool δ) :
    List δ × CfWorkerPool δ :=
  workerDomains.foldl (fun (domains, p) domain =>
    let unavailableUntil := (p.unavailableUntil.get? domain).getD 0
    if domain ∈ domains then (domains, p)
    else if now < unavailableUntil then (domains, p)
    else if unavailableUntil ≠ 0 then
      (domains ++ [domain], { p with unavailableUntil := p.unavailableUntil.erase domain })
    else (domains ++ [domain], p)) ([], p)

/-- `report_success(worker_domain)`. -/
def reportSuccess (workerDomain : δ) (p : CfWorkerPool δ) : CfWorkerPool δ :=
  { p with
    unavailableUntil := p.unavailableUntil.erase workerDomain
    failures := p.failures.erase workerDomain }

/-- `report_failure(worker_domain, exc)` at the time `now`.  Sums and differences of times are
doubles, none of them so large that it overflows. -/
def reportFailure (now : ℚ) (workerDomain : δ) (exc : Refusal) (p : CfWorkerPool δ) :
    ℚ × CfWorkerPool δ :=
  let base := if exc = .quota then quotaCooldown else failureCooldown
  let restingUntil := (p.unavailableUntil.get? workerDomain).getD 0
  if exc = .localAbort then
    let until_ := max restingUntil (rounded (now + localAbortCooldown))
    (rounded (until_ - now),
      { p with unavailableUntil := p.unavailableUntil.set workerDomain until_ })
  else if exc ≠ .quota ∧ now < restingUntil then (rounded (restingUntil - now), p)
  else
    let failures := min ((p.failures.get? workerDomain).getD 0 + 1) backoffSteps
    let cooldown := min (base * 2 ^ (failures - 1)) cooldownMax
    (cooldown, { p with
      unavailableUntil := p.unavailableUntil.set workerDomain (rounded (now + cooldown))
      failures := p.failures.set workerDomain failures })

/-- The bookkeeping of a refill behind its loop. -/
def settle (now : ℚ) (dc : ℤ) (connected : ℕ) (p : CfWorkerPool δ) : CfWorkerPool δ :=
  if connected ≠ 0 then
    { p with refillFailures := p.refillFailures.erase dc, refillAfter := p.refillAfter.erase dc }
  else
    let failures := (p.refillFailures.get? dc).getD 0 + 1
    let delay := min (refillBackoffInitial * 2 ^ min (failures - 1) 6) refillBackoffMax
    { p with
      refillFailures := p.refillFailures.set dc failures
      refillAfter := p.refillAfter.set dc (now + delay) }

/-- The `finally` of task `t`. -/
def release (dc : ℤ) (t : ℕ) (p : CfWorkerPool δ) : CfWorkerPool δ :=
  if p.refilling.get? dc = some t then { p with refilling := p.refilling.erase dc } else p

/-- `reset()`, its maps. -/
def clear (p : CfWorkerPool δ) : CfWorkerPool δ :=
  ⟨p.idle.clear, .empty, .empty, .empty, .empty, .empty⟩

/-- `available_domains` forgets rests that are over and nothing else. -/
lemma availableDomains_eq (now : ℚ) (workerDomains : List δ) (p : CfWorkerPool δ) :
    ∃ u, (p.availableDomains now workerDomains).2 = { p with unavailableUntil := u } := by
  have hloop : ∀ (ds acc : List δ) (q : CfWorkerPool δ) (u : Dict δ ℚ),
      q = { p with unavailableUntil := u } → ∃ u',
        (ds.foldl (fun (domains, p) domain =>
          let unavailableUntil := (p.unavailableUntil.get? domain).getD 0
          if domain ∈ domains then (domains, p)
          else if now < unavailableUntil then (domains, p)
          else if unavailableUntil ≠ 0 then
            (domains ++ [domain], { p with unavailableUntil := p.unavailableUntil.erase domain })
          else (domains ++ [domain], p)) (acc, q)).2 = { p with unavailableUntil := u' } := by
    intro ds
    induction ds with
    | nil => intro acc q u hq; exact ⟨u, hq⟩
    | cons d ds ih =>
        intro acc q u hq
        rw [List.foldl_cons]
        simp only
        split_ifs
        · exact ih _ q u hq
        · exact ih _ q u hq
        · exact ih _ _ (q.unavailableUntil.erase d) (by rw [hq])
        · exact ih _ q u hq
  exact hloop workerDomains [] p p.unavailableUntil rfl

/-- `report_failure` touches the breaker of the workers and nothing else. -/
lemma reportFailure_eq (now : ℚ) (workerDomain : δ) (exc : Refusal) (p : CfWorkerPool δ) :
    ∃ u f, (p.reportFailure now workerDomain exc).2 =
      { p with unavailableUntil := u, failures := f } := by
  unfold reportFailure
  simp only
  split_ifs <;> exact ⟨_, _, rfl⟩

omit [DecidableEq δ] in
/-- The bookkeeping leaves the registry and the buckets alone. -/
lemma settle_eq (now : ℚ) (dc : ℤ) (connected : ℕ) (p : CfWorkerPool δ) :
    ∃ f a, p.settle now dc connected = { p with refillFailures := f, refillAfter := a } := by
  unfold settle
  simp only
  split_ifs <;> exact ⟨_, _, rfl⟩

end CfWorkerPool

/-! ## The tasks -/

/-- Where a refill is suspended.  In a dial it has `more` rounds of its loop to go after this one,
and the domains `rest` to try in this one. -/
inductive Phase (δ : Type*)
  | created
  | dialling (bucket more connected : ℕ) (domain : δ) (rest : List δ)
  | closing
  | done
  deriving DecidableEq

/-- A task of `_refill(dc, fallback_dst, worker_domains)`.  `cancelled` says that it was cancelled
and the cancellation has not been delivered. -/
structure Refill (δ : Type*) where
  dc : ℤ
  workerDomains : List δ
  phase : Phase δ
  cancelled : Bool
  deriving DecidableEq

/-- A call of `close()`: the tasks that it gathers, whether `get` and `warmup` have kept out since
it started, and whether it has returned. -/
structure Closer where
  tasks : List ℕ
  quiet : Bool
  returned : Bool
  deriving DecidableEq, Repr

/-- The pool with everything around it.  `dialled`, `handed` and `closed` are the connections that
dials returned, that callers of `get` own, and that are closed or about to be. -/
structure World (δ : Type*) where
  pool : CfWorkerPool δ
  now : ℚ
  tasks : List (Refill δ)
  closers : List Closer
  dialled : List ℕ
  handed : List ℕ
  closed : List ℕ

/-- What can happen next.  A `shuffled` list is what `available_domains` returned; `dead` are the
connections whose transport has gone. -/
inductive Event (δ : Type*)
  | tick (t : ℚ)
  | get (dc : ℤ) (workerDomains : List δ) (dead : List ℕ)
  | warmup (dcs : List ℤ) (workerDomains : List δ)
  | reportSuccess (workerDomain : δ)
  | reportFailure (workerDomain : δ) (exc : Refusal)
  | availableDomains (workerDomains : List δ)
  | begin (t : ℕ) (shuffled : List δ)
  | dialReturned (t ws : ℕ) (shuffled : List δ)
  | dialRaised (t : ℕ) (exc : Refusal)
  | dialCancelled (t : ℕ)
  | closed (t : ℕ)
  | reset
  | closeBegin
  | closeEnd (c : ℕ)
  deriving DecidableEq

/-- The refill that takes the step. -/
def Event.task : Event δ → Option ℕ
  | .begin t _ => some t
  | .dialReturned t _ _ => some t
  | .dialRaised t _ => some t
  | .dialCancelled t => some t
  | .closed t => some t
  | _ => none

/-- The loop of `get` over a bucket: what it closes, what it finds, and what it leaves. -/
def popFresh (now : ℚ) (dead : List ℕ) : List (Idle δ) → List ℕ × Option (Idle δ) × List (Idle δ)
  | [] => ([], none, [])
  | e :: bucket =>
      if wsPoolMaxAge < now - e.created ∨ e.ws ∈ dead then
        let (stale, found, left) := popFresh now dead bucket
        (e.ws :: stale, found, left)
      else ([], some e, bucket)

namespace World

/-- Task `t` becomes `r`. -/
def put (t : ℕ) (r : Refill δ) (s : World δ) : World δ := { s with tasks := s.tasks.set t r }

/-- `_schedule_refill(dc, fallback_dst, worker_domains)`. -/
def scheduleRefill (dc : ℤ) (workerDomains : List δ) (s : World δ) : World δ :=
  if dc ∈ s.pool.refilling.keys ∨ s.now < (s.pool.refillAfter.get? dc).getD 0 then s
  else
    { s with
      pool := { s.pool with refilling := s.pool.refilling.set dc s.tasks.length }
      tasks := s.tasks ++ [⟨dc, workerDomains, .created, false⟩] }

/-- `get(dc, fallback_dst, worker_domains)`. -/
def get (dc : ℤ) (workerDomains : List δ) (dead : List ℕ) (s : World δ) : World δ :=
  let (b, idle) := s.pool.idle.setdefault dc
  let (stale, found, left) := popFresh s.now dead (idle.heap b)
  let s := { s with
    pool := { s.pool with idle := idle.modify b left }
    closed := s.closed ++ stale }
  match found with
  | some e =>
      { s with
        pool := s.pool.reportSuccess e.workerDomain
        handed := s.handed ++ [e.ws] }.scheduleRefill dc workerDomains
  | none => s.scheduleRefill dc workerDomains

/-- Task `t` runs through its `finally` and ends. -/
def finish (t : ℕ) (r : Refill δ) (s : World δ) : World δ :=
  { s with pool := s.pool.release r.dc t }.put t { r with phase := .done, cancelled := false }

/-- A round of the loop starts: a dial to the first domain, or the end of the loop. -/
def dialOrSettle (t : ℕ) (r : Refill δ) (bucket more connected : ℕ) (domains : List δ)
    (s : World δ) : World δ :=
  match domains with
  | domain :: rest =>
      s.put t { r with phase := .dialling bucket more connected domain rest, cancelled := false }
  | [] => { s with pool := s.pool.settle s.now r.dc connected }.finish t r

/-- The first step of task `t`: up to its first dial. -/
def begin (poolSize : ℕ) (t : ℕ) (r : Refill δ) (shuffled : List δ) (s : World δ) :
    Option (World δ) :=
  let (bucket, idle) := s.pool.idle.setdefault r.dc
  let needed := min poolSize perDcLimit - (idle.heap bucket).length
  let s := { s with pool := { s.pool with idle } }
  if needed = 0 then some (s.finish t r)
  else
    let (available, pool) := s.pool.availableDomains s.now r.workerDomains
    let s := { s with pool }
    if available = [] then some (s.finish t r)
    else if shuffled.Perm available then
      some (s.dialOrSettle t r bucket (needed - 1) 0 shuffled)
    else none

/-- A dial of task `t` returns the connection `ws`. -/
def dialReturned (t ws : ℕ) (r : Refill δ) (bucket more connected : ℕ) (domain : δ)
    (shuffled : List δ) (s : World δ) : Option (World δ) :=
  let s := { s with dialled := s.dialled ++ [ws] }
  if s.pool.refilling.get? r.dc = some t then
    let idle := s.pool.idle.modify bucket (s.pool.idle.heap bucket ++ [⟨ws, s.now, domain⟩])
    let s := { s with pool := { s.pool with idle } }
    if more = 0 then
      some ({ s with pool := s.pool.settle s.now r.dc (connected + 1) }.finish t r)
    else
      let (available, pool) := s.pool.availableDomains s.now r.workerDomains
      if shuffled.Perm available then
        some ({ s with pool }.dialOrSettle t r bucket (more - 1) (connected + 1) shuffled)
      else none
  else
    some ({ s with closed := s.closed ++ [ws] }.put t
      { r with phase := .closing, cancelled := false })

/-- `reset()`. -/
def reset (s : World δ) : World δ :=
  { s with
    pool := s.pool.clear
    tasks := s.tasks.mapIdx fun t r =>
      if t ∈ s.pool.refilling.values ∧ r.phase ≠ .done then { r with cancelled := true } else r
    closed := s.closed ++ s.pool.idle.contents.map Idle.ws }

/-- A call of `get` or `warmup` after `close()` has started. -/
def disturb (s : World δ) : World δ :=
  { s with closers := s.closers.map fun c => { c with quiet := false } }

/-- One step, with the size that the pool is configured to. -/
def step (poolSize : ℕ) : Event δ → World δ → Option (World δ)
  | .tick t, s => if s.now ≤ t then some { s with now := t } else none
  | .get dc workerDomains dead, s => some (s.disturb.get dc workerDomains dead)
  | .warmup dcs workerDomains, s =>
      some (dcs.foldl (fun s dc => s.scheduleRefill dc workerDomains) s.disturb)
  | .reportSuccess workerDomain, s => some { s with pool := s.pool.reportSuccess workerDomain }
  | .reportFailure workerDomain exc, s =>
      some { s with pool := (s.pool.reportFailure s.now workerDomain exc).2 }
  | .availableDomains workerDomains, s =>
      some { s with pool := (s.pool.availableDomains s.now workerDomains).2 }
  | .begin t shuffled, s =>
      match s.tasks[t]? with
      | none => none
      | some r =>
          match r.phase with
          | .created =>
              -- A task that is cancelled before its first step never enters its `try`.
              if r.cancelled then some (s.put t { r with phase := .done, cancelled := false })
              else s.begin poolSize t r shuffled
          | _ => none
  | .dialReturned t ws shuffled, s =>
      match s.tasks[t]? with
      | none => none
      | some r =>
          match r.phase with
          | .dialling bucket more connected domain _ =>
              if ws ∈ s.dialled then none
              else s.dialReturned t ws r bucket more connected domain shuffled
          | _ => none
  | .dialRaised t exc, s =>
      match s.tasks[t]? with
      | none => none
      | some r =>
          match r.phase with
          | .dialling bucket more connected domain rest =>
              some ({ s with pool := (s.pool.reportFailure s.now domain exc).2 }.dialOrSettle t r
                bucket more connected rest)
          | _ => none
  | .dialCancelled t, s =>
      match s.tasks[t]? with
      | none => none
      | some r =>
          match r.phase with
          | .dialling _ _ _ _ _ => if r.cancelled then some (s.finish t r) else none
          | _ => none
  | .closed t, s =>
      match s.tasks[t]? with
      | none => none
      | some r =>
          match r.phase with
          | .closing => some (s.finish t r)
          | _ => none
  | .reset, s => some s.reset
  | .closeBegin, s =>
      some { s.reset with
        closers := s.closers ++ [⟨s.pool.refilling.values, true, false⟩] }
  | .closeEnd c, s =>
      match s.closers[c]? with
      | none => none
      | some closer =>
          if ∀ t ∈ closer.tasks, ∀ r ∈ s.tasks[t]?, r.phase = .done then
            some { s with closers := s.closers.set c { closer with returned := true } }
          else none

end World

/-- A fresh pool. -/
def Starting (s : World δ) : Prop :=
  s.pool = .new ∧ s.tasks = [] ∧ s.closers = [] ∧ s.dialled = [] ∧ s.handed = [] ∧ s.closed = []

end TgWsProxy.CfWorker
