import TgWsProxy.Core.Dict
import TgWsProxy.Core.Program
import TgWsProxy.Datacenters
import TgWsProxy.Bridge.MsgSplitter
import TgWsProxy.Obfuscation.Handshake
import Mathlib.Data.Finset.Insert

/-!
# Falling back

`do_fallback` of `proxy/bridge.py` with its methods, and `CfH2Pool.open` of `proxy/cf_h2.py`: other
ways to the data centre when there is no WebSocket for a client.

* `Session`, `Shared`, `World`, `Env` — the client's side, what all clients share, and what the
  network and the other tasks do at every suspension point.
* `h2Open`, `cfproxyWorkerFallback`, `cfproxyFallback`, `tcpFallback`, `doFallback` — the code.
* `Idle`, `Bridged` — nothing has happened to the client yet, or one bridge was started.
* `keeps_idle_h2Open`, `cfproxyFallback_spec`, ... — what each method leaves.
* **`doFallback_leaves_session`** — a method that gives up leaves the session as it was; at most one
  bridge starts, behind exactly one `relay_init`.
-/

namespace TgWsProxy.Fallback

open Wire Prog

/-! ## The state -/

/-- The client's side: what was read from it and written to it, the four ciphers, the splitter. -/
structure Session where
  read : Bytes
  written : Bytes
  ctx : CryptoCtx
  splitter : Option MsgSplitter

/-- What an await raises. -/
inductive Raised
  /-- an `OSError` -/
  | os
  /-- an `httpx.HTTPError` or a `ValueError` -/
  | http
  /-- any other `Exception` -/
  | other
  /-- `asyncio.TimeoutError`; inside `wait_for` it is still a cancellation -/
  | timedOut
  | cancelled
  deriving DecidableEq

/-- `except Exception` catches it. -/
def Raised.isException (e : Raised) : Bool := e ≠ .cancelled

/-- A WebSocket to the data centre, and the messages sent on it. -/
structure RawWebSocket where
  id : ℕ
  sent : List Bytes

/-- A WebSocket that nobody has sent on: what `connect` returns and what the pool keeps, whatever
the other tasks put there. -/
abbrev FreshWs := {ws : RawWebSocket // ws.sent = []}

structure Lane where
  laneId : ℕ
  failedUntil : ℚ

/-- A channel of a lane, and what was posted on it. -/
structure Channel where
  host : String
  channelId : ℕ
  sent : List Bytes

/-- The part of `proxy_config` that the fallbacks read. -/
structure Config where
  fallbackCfproxy : Bool
  cfproxyWorkerDomains : List String
  disableSecure : Bool

/-- `CfH2Pool`. -/
structure CfH2Pool where
  closed : Bool
  lanes : Dict String Lane
  failedUntil : Dict String ℚ
  setupRetryAfter : Dict ℕ ℚ
  nextLane : ℕ
  nextChannel : ℕ

/-- What the tasks of all clients share; any of it may change while one of them waits. -/
structure Shared where
  config : Config
  now : ℚ
  /-- the pooled WebSockets of the workers -/
  idle : List (FreshWs × String)
  h2 : CfH2Pool
  tcpConnecting : Finset (String × ℕ)
  tcpRetryAfter : Dict (String × ℕ) ℚ
  tcpFailures : Dict (String × ℕ) ℕ

inductive Method
  | cfWorker
  | h2
  | cf
  | tcp
  deriving DecidableEq

/-- A bridge at its start: the client as it finds it, what was sent upstream before, and the
splitter it is given. -/
structure Bridge where
  method : Method
  session : Session
  sent : List Bytes
  splitter : Option MsgSplitter

structure Stats where
  connectionsH2 : ℕ
  connectionsCfproxy : ℕ
  connectionsTcpFallback : ℕ
  h2Errors : ℕ

/-- What a fallback tells the balancer and the pool of workers. -/
inductive Report
  | workerSuccess (domain : String)
  | workerFailure (domain : String) (exc : Raised)
  | frontSuccess (domain : String)
  | frontFailure (domain : String)
  | frontForDc (dc : ℕ) (domain : String)

structure World where
  session : Session
  shared : Shared
  stats : Stats
  /-- the suspension points so far -/
  tick : ℕ
  /-- the methods tried so far, each with the session it found -/
  attempts : List (Method × Session)
  bridges : List Bridge
  reports : List Report
  /-- the TCP connections closed again -/
  closed : List ℕ

/-- A dial. -/
structure Dial where
  host : String
  path : String
  secure : Bool

/-- The world around a call, asked at a suspension point. -/
structure Env where
  /-- what the other tasks make of the shared state meanwhile -/
  others : ℕ → Shared → Shared
  /-- how an await ends -/
  answer : ℕ → Except Raised Unit
  dial : ℕ → Dial → Except Raised Unit
  /-- which pooled WebSocket `cf_worker_pool.get` finds -/
  poolGet : ℕ → Except Raised (Option ℕ)
  /-- `cf_worker_pool.available_domains` -/
  availableDomains : ℕ → List String → List String
  /-- what `balancer.get_domains_for_dc` yields -/
  domainsForDc : ℕ → ℕ → List String
  /-- what a bridge does to the session, and how it ends -/
  bridged : ℕ → Session → Except Raised Unit × Session

/-- The arguments of `do_fallback`. -/
structure Call where
  relayInit : Bytes
  dc : ℕ
  isTestDc : Bool
  isMedia : Bool
  /-- `h2_pool is not None` -/
  h2Pool : Bool
  protoTag : Option Bytes

abbrev Task (α : Type) := Prog World Raised α

variable (env : Env) (call : Call)

/-! ## Suspension points -/

/-- An await: the others run, and then the answer is there. -/
def await {α : Type} (answer : ℕ → Shared → Except Raised α) : Task α := fun w =>
  (answer w.tick w.shared, { w with shared := env.others w.tick w.shared, tick := w.tick + 1 })

/-- An await of which only the end matters. -/
def await_ : Task Unit := await env fun t _ => env.answer t

def modifyShared (f : Shared → Shared) : Task Unit :=
  modify fun w => { w with shared := f w.shared }

def modifyH2 (f : CfH2Pool → CfH2Pool) : Task Unit :=
  modifyShared fun s => { s with h2 := f s.h2 }

def report (r : Report) : Task Unit := modify fun w => { w with reports := w.reports ++ [r] }

def count (f : Stats → Stats) : Task Unit := modify fun w => { w with stats := f w.stats }

/-- The method is taken up, on the session as it is now. -/
def takeUp (m : Method) : Task Unit :=
  modify fun w => { w with attempts := w.attempts ++ [(m, w.session)] }

/-- `RawWebSocket.connect(...)`. -/
def connect (d : Dial) : Task FreshWs := fun w =>
  match await env (fun t _ => env.dial t d) w with
  | (.ok (), w') => (.ok ⟨⟨w.tick, []⟩, rfl⟩, w')
  | (.error e, w') => (.error e, w')

/-- `ws.send(data)`. -/
def send (ws : RawWebSocket) (data : Bytes) : Task RawWebSocket := do
  await_ env
  pure { ws with sent := ws.sent ++ [data] }

/-- A bridge runs until it ends. -/
def bridge (method : Method) (sent : List Bytes) (splitter : Session → Option MsgSplitter) :
    Task Unit := do
  modify fun w =>
    { w with bridges := w.bridges ++ [⟨method, w.session, sent, splitter w.session⟩] }
  fun w =>
    let (r, session) := env.bridged w.tick w.session
    (r, { w with session := session, shared := env.others w.tick w.shared, tick := w.tick + 1 })

/-! ## `CfH2Pool.open` -/

/-- `DOMAIN_COOLDOWN`. -/
def domainCooldown : ℚ := 30

/-- A channel of the lane to `host`. -/
def newChannel (dc : ℕ) (baseDomain host : String) : Task Channel := do
  let w ← get
  let channelId := w.shared.h2.nextChannel + 1
  modifyH2 fun h2 => { h2 with nextChannel := channelId }
  report (.frontForDc dc baseDomain)
  pure ⟨host, channelId, []⟩

/-- The loop of `_open` over the fronts. -/
def h2Scan (dc : ℕ) : List String → Task (Option Channel)
  | [] => pure none
  | baseDomain :: rest => do
      let host := kws dc baseDomain
      await_ env -- the lock of the host
      let w ← get
      if w.shared.h2.closed then raise .os
      else
        let lane := w.shared.h2.lanes.get? host
        let restsUntil := max ((w.shared.h2.failedUntil.get? host).getD 0)
          ((lane.map Lane.failedUntil).getD 0)
        if w.shared.now < restsUntil then h2Scan dc rest
        else
          match lane with
          | some _ => some <$> newChannel dc baseDomain host
          | none => do
              let laneId := w.shared.h2.nextLane + 1
              modifyH2 fun h2 => { h2 with nextLane := laneId }
              match ← (await_ env).attempt with -- the preflight
              | .ok () => do
                  let w ← get
                  if w.shared.h2.closed then do
                    await_ env -- the lane closes
                    raise .os
                  else do
                    modifyH2 fun h2 => { h2 with lanes := h2.lanes.set host ⟨laneId, 0⟩ }
                    some <$> newChannel dc baseDomain host
              | .error .other => raise .other
              | .error e => do
                  if e = .os ∨ e = .http then do
                    count fun s => { s with h2Errors := s.h2Errors + 1 }
                    let w ← get
                    let until_ := w.shared.now + domainCooldown
                    modifyH2 fun h2 => { h2 with failedUntil := h2.failedUntil.set host until_ }
                    await_ env -- the lane closes
                    h2Scan dc rest
                  else do
                    await_ env -- the lane closes
                    raise e

/-- `CfH2Pool._open(dc, label)`. -/
def h2OpenFront (dc : ℕ) : Task (Option Channel) := do
  let w ← get
  if w.shared.h2.closed then raise .os
  else if dc ∉ dcDefaultIps.map Prod.fst then pure none
  else h2Scan env dc (env.domainsForDc w.tick dc)

/-- `CfH2Pool.open(dc, label)`. -/
def h2Open (dc : ℕ) : Task (Option Channel) := do
  let w ← get
  if w.shared.h2.closed then raise .os
  else if w.shared.now < (w.shared.h2.setupRetryAfter.get? dc).getD 0 then pure none
  else
    match ← (h2OpenFront env dc).attempt with
    | .ok channel => pure channel
    | .error .timedOut => do
        let w ← get
        let retry := w.shared.now + domainCooldown
        modifyH2 fun h2 => { h2 with setupRetryAfter := h2.setupRetryAfter.set dc retry }
        count fun s => { s with h2Errors := s.h2Errors + 1 }
        pure none
    | .error e => raise e

/-! ## The methods -/

/-- `cf_worker_pool.get(...)`. -/
def poolGet : Task (Option (FreshWs × String)) := fun w =>
  match await env (fun t _ => env.poolGet t) w with
  | (.ok (some i), w') =>
      match w'.shared.idle[i]? with
      | some entry =>
          (.ok (some entry), { w' with shared := { w'.shared with
            idle := w'.shared.idle.eraseIdx i } })
      | none => (.ok none, w')
  | (.ok none, w') => (.ok none, w')
  | (.error e, w') => (.error e, w')

/-- The loop of `_cfproxy_worker_fallback` over the workers that do not rest. -/
def dialWorkers (path : String) : List String → Task (Option FreshWs)
  | [] => pure none
  | domain :: rest => do
      let w ← get
      match ← (connect env ⟨domain, path, !w.shared.config.disableSecure⟩).attempt with
      | .ok ws => do
          report (.workerSuccess domain)
          pure (some ws)
      | .error e =>
          if e.isException then do
            report (.workerFailure domain e)
            dialWorkers path rest
          else raise e

/-- The end of `_cfproxy_worker_fallback` and `_cfproxy_fallback`: `relay_init`, then the bridge. -/
def bridgeWs (method : Method) (ws : FreshWs) (splitter : Session → Option MsgSplitter) :
    Task Bool := do
  count fun s => { s with connectionsCfproxy := s.connectionsCfproxy + 1 }
  let ws ← send env ws.1 call.relayInit
  bridge env method ws.sent splitter
  pure true

/-- `None if is_test_dc else await cf_worker_pool.get(...)`. -/
def pooledWs : Task (Option (FreshWs × String)) :=
  if call.isTestDc then pure none else poolGet env

/-- `_cfproxy_worker_fallback(...)`. -/
def cfproxyWorkerFallback (fallbackDst : String) : Task Bool := do
  let w ← get
  let workerDomains := w.shared.config.cfproxyWorkerDomains
  if workerDomains = [] then pure false
  else do
    match ← pooledWs env call with
    | some (ws, _) => bridgeWs env call .cfWorker ws fun _ => none
    | none => do
        let w ← get
        let path := "/apiws?dst=" ++ fallbackDst ++ "&dc=" ++ toString call.dc
        let available := env.availableDomains w.tick workerDomains
        match ← dialWorkers env path available with
        | some ws => bridgeWs env call .cfWorker ws fun _ => none
        | none => pure false

/-- The loop of `_cfproxy_fallback` over the fronts: the WebSocket and its front. -/
def dialFronts : List String → Task (Option (FreshWs × String))
  | [] => pure none
  | baseDomain :: rest => do
      let w ← get
      match ← (connect env ⟨kws call.dc baseDomain, "/apiws",
        !w.shared.config.disableSecure⟩).attempt with
      | .ok ws => pure (some (ws, baseDomain))
      | .error e =>
          if e.isException then do
            report (.frontFailure baseDomain)
            dialFronts rest
          else raise e

/-- `_cfproxy_fallback(...)`. -/
def cfproxyFallback : Task Bool := do
  let w ← get
  let fronts := env.domainsForDc w.tick call.dc
  match ← dialFronts env call fronts with
  | none => pure false
  | some (ws, chosenDomain) => do
      report (.frontSuccess chosenDomain)
      report (.frontForDc call.dc chosenDomain)
      bridgeWs env call .cf ws Session.splitter

/-- `TCP_BACKOFF_INITIAL` and `TCP_BACKOFF_MAX`. -/
def tcpBackoff (failures : ℕ) : ℚ := min (30 * 2 ^ min (failures - 1) 7) 3600

/-- The `except Exception` clause of `_tcp_fallback`. -/
def tcpFailed (key : String × ℕ) : Task Unit :=
  modifyShared fun s =>
    let failures := (s.tcpFailures.get? key).getD 0 + 1
    { s with
      tcpFailures := s.tcpFailures.set key failures
      tcpRetryAfter := s.tcpRetryAfter.set key (s.now + tcpBackoff failures) }

/-- `_tcp_connecting.discard(key)`. -/
def tcpDiscard (key : String × ℕ) : Task Unit :=
  modifyShared fun s => { s with tcpConnecting := s.tcpConnecting.erase key }

/-- `rw.close()` and waiting for it. -/
def closeTcp (id : ℕ) : Task Unit := do
  modify fun w => { w with closed := w.closed ++ [id] }
  match ← (await_ env).attempt with
  | .error .os => pure ()
  | .error e => raise e
  | .ok () => pure ()

/-- The outer `finally` of `_tcp_fallback`. -/
def closeRw : Option ℕ → Task Unit
  | some id => closeTcp env id
  | none => pure ()

/-- What `_tcp_fallback` does with an exception of the connection; `rw` is there if it was made. -/
def tcpRefused (key : String × ℕ) (rw : Option ℕ) (e : Raised) : Task Bool :=
  if e.isException then do
    tcpFailed key
    tcpDiscard key
    closeRw env rw
    pure false
  else do
    tcpDiscard key
    closeRw env rw
    raise e

/-- `_tcp_fallback(...)`. -/
def tcpFallback (dst : String) (port : ℕ) : Task Bool := do
  let key := (dst, port)
  let w ← get
  if key ∈ w.shared.tcpConnecting ∨ w.shared.now < (w.shared.tcpRetryAfter.get? key).getD 0 then
    pure false
  else do
    modifyShared fun s => { s with tcpConnecting := insert key s.tcpConnecting }
    let id := w.tick
    match ← (await_ env).attempt with -- the connection
    | .error e => tcpRefused env key none e
    | .ok () => do
        let sent := [call.relayInit]
        match ← (await_ env).attempt with -- `drain` of `relay_init`
        | .error e => tcpRefused env key (some id) e
        | .ok () => do
            tcpDiscard key
            modifyShared fun s =>
              { s with
                tcpFailures := s.tcpFailures.erase key
                tcpRetryAfter := s.tcpRetryAfter.erase key }
            count fun s => { s with connectionsTcpFallback := s.connectionsTcpFallback + 1 }
            let ended ← (bridge env .tcp sent fun _ => none).attempt
            closeTcp env id
            match ended with
            | .ok () => pure true
            | .error e => raise e

/-! ## `do_fallback` -/

/-- `fallback_dst`. -/
def fallbackDst : Option String :=
  (if call.isTestDc then dcTestIps else dcDefaultIps).lookup call.dc

/-- A channel for media, if there is a pool of lanes. -/
def h2Channel : Task (Option Channel) :=
  if call.isMedia ∧ call.h2Pool ∧ call.protoTag.isSome then do
    takeUp .h2
    h2Open env call.dc
  else pure none

/-- The `cf` method: an H2 channel if there is one, else a WebSocket. -/
def cfMethod : Task Bool := do
  match ← h2Channel env call with
  | some channel => do
      count fun s => { s with
        connectionsH2 := s.connectionsH2 + 1, connectionsCfproxy := s.connectionsCfproxy + 1 }
      bridge env .h2 channel.sent fun _ => none
      pure true
  | none => do
      takeUp .cf
      cfproxyFallback env call

/-- One turn of the loop of `do_fallback`. -/
def runMethod : Method → Task Bool
  | .cfWorker =>
      match fallbackDst call with
      | some dst => do
          takeUp .cfWorker
          cfproxyWorkerFallback env call dst
      | none => pure false
  | .cf => cfMethod env call
  | .tcp =>
      match fallbackDst call with
      | some dst => do
          takeUp .tcp
          tcpFallback env call dst 443
      | none => pure false
  | .h2 => pure false

/-- The loop of `do_fallback`. -/
def runMethods : List Method → Task Bool
  | [] => pure false
  | method :: rest => do
      let ok ← runMethod env call method
      if ok then pure true else runMethods rest

/-- `methods`. -/
def methods (config : Config) : List Method :=
  (if config.cfproxyWorkerDomains ≠ [] ∧ (fallbackDst call).isSome then [.cfWorker] else [])
    ++ (if config.fallbackCfproxy ∧ ¬ call.isTestDc then [.cf] else [])
    ++ (if (fallbackDst call).isSome then [.tcp] else [])

/-- `do_fallback(...)`. -/
def doFallback : Task Bool := do
  let w ← get
  runMethods env call (methods call w.shared.config)

/-! ## What happens to the client -/

/-- The client's side, the bridges that were started for it, and the methods tried. -/
structure Client where
  session : Session
  bridges : List Bridge
  attempts : List (Method × Session)

def World.client (w : World) : Client := ⟨w.session, w.bridges, w.attempts⟩

/-- A property of the client's side. -/
def OnClient (J : Client → Prop) (w : World) : Prop := J w.client

/-- Every method so far was taken up on the session of `c₀`. -/
def Tried (c₀ c : Client) : Prop :=
  ∃ l, c.attempts = c₀.attempts ++ l ∧ ∀ a ∈ l, a.2 = c₀.session

/-- Nothing has happened to the client since `c₀`. -/
structure Idle (c₀ c : Client) : Prop where
  session : c.session = c₀.session
  bridges : c.bridges = c₀.bridges
  tried : Tried c₀ c

/-- Since `c₀` one bridge was started, on the session of `c₀` and, unless it is an H2 channel,
behind `relay_init` alone. -/
structure Bridged (relayInit : Bytes) (c₀ c : Client) : Prop where
  bridge : ∃ b, c.bridges = c₀.bridges ++ [b] ∧ b.session = c₀.session ∧
    (b.method ≠ .h2 → b.sent = [relayInit])
  tried : Tried c₀ c

/-- How a method ends: it says so if it was a bridge that ended. -/
def Ended (relayInit : Bytes) (c₀ : Client) (ok : Bool) (w : World) : Prop :=
  if ok then Bridged relayInit c₀ w.client else Idle c₀ w.client

/-- An exception comes before the bridge or out of it. -/
def Broken (relayInit : Bytes) (c₀ : Client) (_ : Raised) (w : World) : Prop :=
  Idle c₀ w.client ∨ Bridged relayInit c₀ w.client

/-- What is proved of every method. -/
def Behaves (relayInit : Bytes) (c₀ : Client) (m : Task Bool) : Prop :=
  Triple (OnClient (Idle c₀)) m (Ended relayInit c₀) (Broken relayInit c₀)

section Upstream

variable {env} {call} {J : Client → Prop}

/-! ## What stays away from the client -/

lemma keeps_await {α : Type} {answer : ℕ → Shared → Except Raised α} :
    Keeps (OnClient J) (await env answer) := by
  intro w hw
  show EndsIn (fun _ => OnClient J) (fun _ => OnClient J) (answer w.tick w.shared, _)
  cases answer w.tick w.shared with
  | ok a => exact hw
  | error e => exact hw

lemma keeps_modifyShared {f : Shared → Shared} : Keeps (OnClient J) (modifyShared f) :=
  Keeps.modify fun _ hw => hw

lemma keeps_modifyH2 {f : CfH2Pool → CfH2Pool} : Keeps (OnClient J) (modifyH2 f) :=
  keeps_modifyShared

lemma keeps_report {r : Report} : Keeps (OnClient J) (report r) := Keeps.modify fun _ hw => hw

lemma keeps_count {f : Stats → Stats} : Keeps (OnClient J) (count f) :=
  Keeps.modify fun _ hw => hw

lemma keeps_connect {d : Dial} : Keeps (OnClient J) (connect env d) := by
  intro w hw
  have hawait : EndsIn (fun _ => OnClient J) (fun _ => OnClient J)
      (await env (fun t _ => env.dial t d) w) := keeps_await w hw
  rw [connect]
  rcases hend : await env (fun t _ => env.dial t d) w with ⟨e | a, w'⟩
  · rw [hend] at hawait
    exact hawait
  · rw [hend] at hawait
    exact hawait

lemma keeps_poolGet : Keeps (OnClient J) (poolGet env) := by
  intro w hw
  have hawait : EndsIn (fun _ => OnClient J) (fun _ => OnClient J)
      (await env (fun t _ => env.poolGet t) w) := keeps_await w hw
  rw [poolGet]
  rcases hend : await env (fun t _ => env.poolGet t) w with ⟨e | i, w'⟩
  · rw [hend] at hawait
    exact hawait
  · rw [hend] at hawait
    cases i with
    | none => exact hawait
    | some i =>
        dsimp only
        split
        · exact hawait
        · exact hawait

lemma send_spec {ws : RawWebSocket} {data : Bytes} :
    Triple (OnClient J) (send env ws data)
      (fun ws' w => ws'.sent = ws.sent ++ [data] ∧ OnClient J w) fun _ => OnClient J :=
  Triple.bind keeps_await fun _ => Triple.pure fun _ hw => ⟨rfl, hw⟩

lemma keeps_newChannel {dc : ℕ} {baseDomain host : String} :
    Keeps (OnClient J) (newChannel dc baseDomain host) :=
  Keeps.get_bind fun _ => keeps_modifyH2.bind fun _ => keeps_report.bind fun _ => Keeps.pure _

lemma keeps_some_newChannel {dc : ℕ} {baseDomain host : String} :
    Keeps (OnClient J) (some <$> newChannel dc baseDomain host) :=
  keeps_newChannel.bind fun _ => Keeps.pure _

lemma keeps_h2Scan {dc : ℕ} (fronts : List String) : Keeps (OnClient J) (h2Scan env dc fronts) := by
  induction fronts with
  | nil => exact Keeps.pure _
  | cons baseDomain rest ih =>
      rw [h2Scan]
      refine keeps_await.bind fun _ => Keeps.get_bind fun w => ?_
      dsimp only
      split_ifs
      · exact Keeps.raise _
      · exact ih
      · split
        · exact keeps_some_newChannel
        · refine keeps_modifyH2.bind fun _ => keeps_await.attempt.bind fun r => ?_
          split
          · refine Keeps.get_bind fun w => ?_
            split_ifs
            · exact keeps_await.bind fun _ => Keeps.raise _
            · exact keeps_modifyH2.bind fun _ => keeps_some_newChannel
          · exact Keeps.raise _
          · split_ifs
            · exact keeps_count.bind fun _ => Keeps.get_bind fun w =>
                keeps_modifyH2.bind fun _ => keeps_await.bind fun _ => ih
            · exact keeps_await.bind fun _ => Keeps.raise _

/-- **Opening an H2 channel does not touch the client.** -/
lemma keeps_h2Open {dc : ℕ} : Keeps (OnClient J) (h2Open env dc) := by
  have hfront : Keeps (OnClient J) (h2OpenFront env dc) := by
    refine Keeps.get_bind fun w => ?_
    split_ifs
    · exact Keeps.raise _
    · exact keeps_h2Scan _
    · exact Keeps.pure _
  refine Keeps.get_bind fun w => ?_
  split_ifs
  · exact Keeps.raise _
  · exact Keeps.pure _
  · refine hfront.attempt.bind fun r => ?_
    split
    · exact Keeps.pure _
    · exact Keeps.get_bind fun w => keeps_modifyH2.bind fun _ => keeps_count.bind fun _ =>
        Keeps.pure _
    · exact Keeps.raise _

lemma keeps_dialWorkers {path : String} (domains : List String) :
    Keeps (OnClient J) (dialWorkers env path domains) := by
  induction domains with
  | nil => exact Keeps.pure _
  | cons domain rest ih =>
      rw [dialWorkers]
      refine Keeps.get_bind fun w => keeps_connect.attempt.bind fun r => ?_
      split
      · exact keeps_report.bind fun _ => Keeps.pure _
      · split_ifs
        · exact keeps_report.bind fun _ => ih
        · exact Keeps.raise _

lemma keeps_dialFronts (fronts : List String) :
    Keeps (OnClient J) (dialFronts env call fronts) := by
  induction fronts with
  | nil => exact Keeps.pure _
  | cons baseDomain rest ih =>
      rw [dialFronts]
      refine Keeps.get_bind fun w => keeps_connect.attempt.bind fun r => ?_
      split
      · exact Keeps.pure _
      · split_ifs
        · exact keeps_report.bind fun _ => ih
        · exact Keeps.raise _

lemma keeps_closeTcp {id : ℕ} : Keeps (OnClient J) (closeTcp env id) := by
  rw [closeTcp]
  refine Keeps.bind (Keeps.modify fun _ hw => hw) fun _ => keeps_await.attempt.bind fun r => ?_
  split
  · exact Keeps.pure _
  · exact Keeps.raise _
  · exact Keeps.pure _

lemma keeps_closeRw {rw : Option ℕ} : Keeps (OnClient J) (closeRw env rw) := by
  cases rw with
  | some id => exact keeps_closeTcp
  | none => exact Keeps.pure _

end Upstream

section Methods

variable {env} {call} {c₀ : Client}

/-! ## The methods -/

/-- A method is taken up on an untouched session. -/
lemma idle_takeUp {m : Method} : Keeps (OnClient (Idle c₀)) (takeUp m) := by
  refine Keeps.modify fun w hw => ⟨hw.session, hw.bridges, ?_⟩
  obtain ⟨l, hl, hsession⟩ := hw.tried
  refine ⟨l ++ [(m, w.session)], ?_, ?_⟩
  · show w.attempts ++ _ = _
    rw [show w.attempts = c₀.attempts ++ l from hl, List.append_assoc]
  · intro a ha
    rcases List.mem_append.mp ha with ha | ha
    · exact hsession a ha
    · rw [List.mem_singleton.mp ha]
      exact hw.session

/-- **A bridge starts.**  It finds the client as it was. -/
lemma bridge_spec {method : Method} {sent : List Bytes} {splitter : Session → Option MsgSplitter}
    {relayInit : Bytes} (hsent : method ≠ .h2 → sent = [relayInit]) :
    Triple (OnClient (Idle c₀)) (bridge env method sent splitter)
      (fun _ w => Bridged relayInit c₀ w.client) fun _ w => Bridged relayInit c₀ w.client := by
  intro w hw
  have hbridged : ∀ session shared tick, Bridged relayInit c₀
      (World.client { w with
        bridges := w.bridges ++ [⟨method, w.session, sent, splitter w.session⟩]
        session := session, shared := shared, tick := tick }) := by
    intro session shared tick
    refine ⟨⟨⟨method, w.session, sent, splitter w.session⟩, ?_, hw.session, hsent⟩, hw.tried⟩
    show w.bridges ++ _ = _
    rw [show w.bridges = c₀.bridges from hw.bridges]
  show EndsIn _ _ ((env.bridged w.tick w.session).1, _)
  rcases env.bridged w.tick w.session with ⟨_ | _, session⟩
  · exact hbridged _ _ _
  · exact hbridged _ _ _

lemma behaves_pure_false {relayInit : Bytes} : Behaves relayInit c₀ (pure false) :=
  Triple.pure fun _ hw => hw

lemma behaves_raise {relayInit : Bytes} {e : Raised} : Behaves relayInit c₀ (raise e) :=
  Triple.raise fun _ hw => Or.inl hw

/-- What leaves the client alone may stand in front of a method. -/
lemma behaves_bind {relayInit : Bytes} {α : Type} {m : Task α} {f : α → Task Bool}
    (hm : Keeps (OnClient (Idle c₀)) m) (hf : ∀ a, Behaves relayInit c₀ (f a)) :
    Behaves relayInit c₀ (m >>= f) :=
  hm.before (fun _ _ hw => Or.inl hw) hf

lemma behaves_get_bind {relayInit : Bytes} {f : World → Task Bool}
    (hf : ∀ w, Behaves relayInit c₀ (f w)) : Behaves relayInit c₀ (get >>= f) :=
  Triple.get_bind hf

/-- **`relay_init`, then the bridge.** -/
lemma bridgeWs_spec {method : Method} {ws : FreshWs} {splitter : Session → Option MsgSplitter} :
    Behaves call.relayInit c₀ (bridgeWs env call method ws splitter) := by
  refine behaves_bind keeps_count fun _ => ?_
  refine Triple.bind (send_spec.weaken (fun _ hw => hw) (fun _ _ hw => hw)
    fun _ _ hw => Or.inl hw) fun ws' => ?_
  intro w hw
  have hsent : ws'.sent = [call.relayInit] := by rw [hw.1, ws.2, List.nil_append]
  have hrun : Behaves call.relayInit c₀
      (bridge env method ws'.sent splitter >>= fun _ => pure true) :=
    Triple.bind ((bridge_spec fun _ => hsent).weaken (fun _ hw => hw) (fun _ _ hw => hw)
      fun _ _ hw => Or.inr hw) fun _ => Triple.pure fun _ hw => hw
  exact hrun w hw.2

lemma cfproxyWorkerFallback_spec {dst : String} :
    Behaves call.relayInit c₀ (cfproxyWorkerFallback env call dst) := by
  refine behaves_get_bind fun w => ?_
  dsimp only
  split
  · exact behaves_pure_false
  · have hpooled : Keeps (OnClient (Idle c₀)) (pooledWs env call) := by
      rw [pooledWs]
      split_ifs
      · exact Keeps.pure _
      · exact keeps_poolGet
    refine behaves_bind hpooled fun pooled => ?_
    split
    · exact bridgeWs_spec
    · refine behaves_get_bind fun w => behaves_bind (keeps_dialWorkers _) fun r => ?_
      split
      · exact bridgeWs_spec
      · exact behaves_pure_false

lemma cfproxyFallback_spec : Behaves call.relayInit c₀ (cfproxyFallback env call) := by
  refine behaves_get_bind fun w => behaves_bind (keeps_dialFronts _) fun r => ?_
  split
  · exact behaves_pure_false
  · exact behaves_bind keeps_report fun _ => behaves_bind keeps_report fun _ => bridgeWs_spec

/-- The connection is closed behind the bridge, however the bridge ends. -/
lemma tcpBridge_spec {sent : List Bytes} {id : ℕ} (hsent : sent = [call.relayInit]) :
    Behaves call.relayInit c₀ (do
      let ended ← (bridge env .tcp sent fun _ => none).attempt
      closeTcp env id
      match ended with
      | .ok () => pure true
      | .error e => raise e) := by
  refine Triple.bind (Q := fun _ => OnClient (Bridged call.relayInit c₀)) ?_ fun ended => ?_
  · refine (Triple.attempt (bridge_spec fun _ => hsent)).weaken (fun _ hw => hw) ?_ fun _ _ hw => hw
    rintro (_ | _) w hw
    · exact hw
    · exact hw
  · refine keeps_closeTcp.before (fun _ _ hw => Or.inr hw) fun _ => ?_
    split
    · exact Triple.pure fun _ hw => hw
    · exact Triple.raise fun _ hw => Or.inr hw

lemma tcpRefused_spec {relayInit : Bytes} {key : String × ℕ} {rw : Option ℕ} {e : Raised} :
    Behaves relayInit c₀ (tcpRefused env key rw e) := by
  simp only [tcpRefused]
  split_ifs
  · exact behaves_bind keeps_modifyShared fun _ => behaves_bind keeps_modifyShared fun _ =>
      behaves_bind keeps_closeRw fun _ => behaves_pure_false
  · exact behaves_bind keeps_modifyShared fun _ => behaves_bind keeps_closeRw fun _ =>
      behaves_raise

lemma tcpFallback_spec {dst : String} {port : ℕ} :
    Behaves call.relayInit c₀ (tcpFallback env call dst port) := by
  refine behaves_get_bind fun w => ?_
  dsimp only
  split
  · exact behaves_pure_false
  · refine behaves_bind keeps_modifyShared fun _ => behaves_bind keeps_await.attempt fun r => ?_
    split
    · exact tcpRefused_spec
    · refine behaves_bind keeps_await.attempt fun r => ?_
      split
      · exact tcpRefused_spec
      · exact behaves_bind keeps_modifyShared fun _ => behaves_bind keeps_modifyShared fun _ =>
          behaves_bind keeps_count fun _ => tcpBridge_spec rfl

lemma cfMethod_spec : Behaves call.relayInit c₀ (cfMethod env call) := by
  have hchannel : Keeps (OnClient (Idle c₀)) (h2Channel env call) := by
    rw [h2Channel]
    split_ifs
    · exact idle_takeUp.bind fun _ => keeps_h2Open
    · exact Keeps.pure _
  refine behaves_bind hchannel fun channel => ?_
  split
  · refine behaves_bind keeps_count fun _ => ?_
    exact Triple.bind ((bridge_spec nofun).weaken (fun _ hw => hw) (fun _ _ hw => hw)
      fun _ _ hw => Or.inr hw) fun _ => Triple.pure fun _ hw => hw
  · exact behaves_bind idle_takeUp fun _ => cfproxyFallback_spec

lemma runMethod_spec (method : Method) : Behaves call.relayInit c₀ (runMethod env call method) := by
  cases method with
  | cfWorker =>
      rw [runMethod]
      split
      · exact behaves_bind idle_takeUp fun _ => cfproxyWorkerFallback_spec
      · exact behaves_pure_false
  | h2 => exact behaves_pure_false
  | cf => exact cfMethod_spec
  | tcp =>
      rw [runMethod]
      split
      · exact behaves_bind idle_takeUp fun _ => tcpFallback_spec
      · exact behaves_pure_false

/-- **One method after the other.**  The next one is tried only if the last one left the client
alone. -/
lemma runMethods_spec (l : List Method) : Behaves call.relayInit c₀ (runMethods env call l) := by
  induction l with
  | nil => exact behaves_pure_false
  | cons method rest ih =>
      refine Triple.bind (runMethod_spec method) fun ok => ?_
      cases ok with
      | true => exact Triple.pure fun _ hw => hw
      | false => exact ih

lemma doFallback_spec : Behaves call.relayInit c₀ (doFallback env call) :=
  behaves_get_bind fun _ => runMethods_spec _

end Methods

/-- **A failed fallback leaves the session untouched.**  Whatever the network and the other tasks
do, every method is taken up on the session as `do_fallback` got it, and so is it left when all of
them fail; and at most one bridge is started, on that session and, unless it is an H2 channel, on a
connection on which exactly `relay_init` was sent before. -/
theorem doFallback_leaves_session (env : Env) (call : Call) (w : World) :
    let w' := (doFallback env call w).2
    Tried w.client w'.client ∧
      ((doFallback env call w).1 = .ok false →
        w'.session = w.session ∧ w'.bridges = w.bridges) ∧
      (w'.session = w.session ∧ w'.bridges = w.bridges ∨
        ∃ b, w'.bridges = w.bridges ++ [b] ∧ b.session = w.session ∧
          (b.method ≠ .h2 → b.sent = [call.relayInit])) := by
  have hstart : Idle w.client w.client := ⟨rfl, rfl, [], (List.append_nil _).symm, nofun⟩
  have hspec : EndsIn (Ended call.relayInit w.client) (Broken call.relayInit w.client)
      (doFallback env call w) := doFallback_spec w hstart
  rcases hend : doFallback env call w with ⟨e | ok, w'⟩
  · rw [hend] at hspec
    rcases hspec with hidle | hbridged
    · exact ⟨hidle.tried, nofun, Or.inl ⟨hidle.session, hidle.bridges⟩⟩
    · exact ⟨hbridged.tried, nofun, Or.inr hbridged.bridge⟩
  · rw [hend] at hspec
    cases ok with
    | true => exact ⟨hspec.tried, nofun, Or.inr hspec.bridge⟩
    | false =>
        exact ⟨hspec.tried, fun _ => ⟨hspec.session, hspec.bridges⟩,
          Or.inl ⟨hspec.session, hspec.bridges⟩⟩

end TgWsProxy.Fallback
