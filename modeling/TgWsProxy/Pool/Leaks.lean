import TgWsProxy.Pool.CfWorkerAccount
import TgWsProxy.Pool.WsClose

/-!
# The pools neither leak nor overfill

What holds of both pools in every run.

* `Ws.Accounted`, `CfWorker.Accounted` — the account is balanced, a key has one registered refill,
  an overtaken refill keeps out, and `close()` leaves nothing behind.
* **`pools_accounted`** — for both pools, whatever their callers and their network do.
* `left_by_earlier_reset` — what `close()` does not wait for.
-/

namespace TgWsProxy

open Wire

namespace Ws

/-- The direct pool owns up to every connection. -/
structure Accounted (cfg : ProxyConfig) (s : World) : Prop where
  balanced : s.account.Balanced cfg.poolSize
  single : ∀ (t u : ℕ) (r q : Refill), s.refills[t]? = some r → s.refills[u]? = some q →
    t ∈ s.pool.refilling.values → u ∈ s.pool.refilling.values → r.key = q.key → t = u
  overtaken : ∀ (e : Event) (s' : World) (t : ℕ), World.step cfg e s = some s' →
    e.task = some t → t ∉ s.pool.refilling.values → s'.pool.idle = s.pool.idle
  closed : ∀ c ∈ s.closers, c.quiet = true → c.returned = true →
    s.pool.idle.contents = [] ∧
      ∀ (t : ℕ) (r : Refill), s.refills[t]? = some r → r.phase.held ≠ [] → t ∈ c.overtaken

lemma Reaches.accounted {cfg : ProxyConfig} {s : World} (h : Reaches cfg s) : Accounted cfg s := by
  obtain ⟨hshape, hb⟩ := h.sound
  refine ⟨h.sound.account, fun t u r q hr hq ht hu hkey => ?_, ?_, ?_⟩
  · exact hshape.refills.unique hr hq ht hu hkey
  · intro e s' t hs he hnot
    have hnot' : ∀ {key}, s.pool.refilling.get? key ≠ some t :=
      fun hreg => hnot (Dict.mem_values.mpr ⟨_, hreg⟩)
    cases e with
    | refill u =>
        obtain rfl := Option.some.inj he
        obtain ⟨r, hr, hs⟩ := Option.bind_eq_some_iff.mp hs
        rw [refill_of_not_registered hshape hr hnot' hs]
    | dial u i result =>
        obtain ⟨r, -, hs⟩ := Option.bind_eq_some_iff.mp hs
        rw [pool_dial hs]
    | _ => cases he
  · intro c hc hquiet hreturned
    have hemptied := h.closers c hc hquiet
    refine ⟨hemptied.contents, fun t r hr hheld => ?_⟩
    have hne : r.phase ≠ .done := by
      intro hdone
      exact hheld (by rw [hdone]; rfl)
    refine (hemptied.known t r hr hne).resolve_left fun ht => ?_
    exact hne (hemptied.waited hreturned t ht r hr)

end Ws

namespace CfWorker

variable {δ : Type*} [DecidableEq δ]

/-- The worker pool owns up to every connection. -/
structure Accounted (poolSize : ℕ) (s : World δ) : Prop where
  balanced : s.account.Balanced (min poolSize perDcLimit)
  single : ∀ (t u : ℕ) (r q : Refill δ), s.tasks[t]? = some r → s.tasks[u]? = some q →
    t ∈ s.pool.refilling.values → u ∈ s.pool.refilling.values → r.dc = q.dc → t = u
  overtaken : ∀ (e : Event δ) (s' : World δ) (t : ℕ), World.step poolSize e s = some s' →
    e.task = some t → t ∉ s.pool.refilling.values → s'.pool.idle = s.pool.idle
  closed : ∀ c ∈ s.closers, c.quiet = true → c.returned = true → s.pool.idle.contents = []

lemma Reaches.accounted {poolSize : ℕ} {s : World δ} (h : Reaches poolSize s) :
    Accounted poolSize s := by
  obtain ⟨hshape, hb, hclosers⟩ := h.sound
  refine ⟨h.sound.account, fun t u r q hr hq ht hu hdc => ?_, ?_, ?_⟩
  · exact hshape.tasks.unique hr hq ht hu hdc
  · intro e s' t hs he hnot
    obtain ⟨r, hr, hs⟩ := taskStep_of_step he hs
    have hnot' : s.pool.refilling.get? r.dc ≠ some t :=
      fun hreg => hnot (Dict.mem_values.mpr ⟨_, hreg⟩)
    exact (Keeps.task hshape hr hnot' hs).1
  · exact fun c hc hquiet _ => (hclosers c hc hquiet).1

end CfWorker

/-- **The pools neither leak, duplicate nor overfill connections,** in every run. -/
theorem pools_accounted {δ : Type*} [DecidableEq δ] :
    (∀ (cfg : Ws.ProxyConfig) (s : Ws.World), Ws.Reaches cfg s → Ws.Accounted cfg s) ∧
    ∀ (poolSize : ℕ) (s : CfWorker.World δ), CfWorker.Reaches poolSize s →
      CfWorker.Accounted poolSize s :=
  ⟨fun _ _ h => h.accounted, fun _ _ h => h.accounted⟩

/-- A pool of two connections for the DC 2. -/
def pairConfig : Ws.ProxyConfig :=
  ⟨2, .set .empty 2 (some "149.154.167.220"), false⟩

/-- A fresh pool at 1000 s. -/
def freshPool : Ws.World := ⟨.new, 1000, [], [], [], [], [], []⟩

/-- A fresh pool of worker connections at 1000 s. -/
def freshWorkerPool : CfWorker.World String := ⟨.new, 1000, [], [], [], [], []⟩

lemma freshPool_reaches : Ws.Reaches pairConfig freshPool :=
  .start ⟨rfl, rfl, rfl, rfl, rfl, rfl, rfl⟩

/-- One of two connections is handed out, and the other is closed by `close()`; a worker connection
is handed out. -/
theorem pools_accounted_sample :
    (∃ s, exec (Ws.World.step pairConfig) [.get 2 false false [], .refill 0, .dial 0 1 (some 7),
        .refill 0, .get 2 false false [], .closeBegin, .dial 0 0 (some 8), .refill 0, .refill 0,
        .refill 0, .rotate 0 [], .closeEnd 0] freshPool = some s ∧
      (s.handed, s.closed) = ([7], [8]) ∧ Ws.Accounted pairConfig s) ∧
    ∃ s, exec (CfWorker.World.step 4) [.get 2 ["a"] [], .begin 0 ["a"], .dialReturned 0 7 [],
        .get 2 ["a"] []] freshWorkerPool = some s ∧
      s.handed = [7] ∧ CfWorker.Accounted 4 s := by
  have hpair : (exec (Ws.World.step pairConfig) [.get 2 false false [], .refill 0,
      .dial 0 1 (some 7), .refill 0, .get 2 false false [], .closeBegin, .dial 0 0 (some 8),
      .refill 0, .refill 0, .refill 0, .rotate 0 [], .closeEnd 0] freshPool).map
        (fun s => (s.handed, s.closed)) = some ([7], [8]) := by decide +kernel
  have hworker : (exec (CfWorker.World.step 4) [.get 2 ["a"] [], .begin 0 ["a"],
      .dialReturned 0 7 [], .get 2 ["a"] []] freshWorkerPool).map CfWorker.World.handed =
        some [7] := by decide +kernel
  obtain ⟨s, hs, hplaces⟩ := Option.map_eq_some_iff.mp hpair
  obtain ⟨w, hw, hhanded⟩ := Option.map_eq_some_iff.mp hworker
  have hstart : CfWorker.Reaches 4 freshWorkerPool := .start ⟨rfl, rfl, rfl, rfl, rfl, rfl⟩
  obtain ⟨hdirect, hcf⟩ := pools_accounted (δ := String)
  exact ⟨⟨s, hs, hplaces, hdirect pairConfig s (reachable_of_exec freshPool_reaches hs)⟩,
    w, hw, hhanded, hcf 4 w (reachable_of_exec hstart hw)⟩

/-- **What `close()` does not wait for.**  A refill that an earlier `reset()` has cancelled is still
cleaning up when `close()` starts: `close()` returns at once, and the refill owns a connection that
is not closed. -/
theorem left_by_earlier_reset :
    ∃ s, Ws.Reaches pairConfig s ∧ (∃ c ∈ s.closers, c.quiet = true ∧ c.returned = true) ∧
      ∃ r ∈ s.refills, ∃ ws ∈ r.phase.held, ws ∉ s.closed := by
  have hview : (exec (Ws.World.step pairConfig) [.get 2 false false [], .refill 0, .reset,
      .refill 0, .dial 0 1 (some 7), .closeBegin, .closeEnd 0] freshPool).map
        (fun s => (s.closers.map fun c => (c.quiet, c.returned),
          s.refills.map fun r => r.phase.held, s.closed)) =
      some ([(true, true)], [[7]], []) := by decide +kernel
  obtain ⟨s, hs, hfinal⟩ := Option.map_eq_some_iff.mp hview
  simp only [Prod.mk.injEq, List.map_eq_singleton_iff] at hfinal
  obtain ⟨⟨c, hc, hquiet, hreturned⟩, ⟨r, hr, hheld⟩, hclosed⟩ := hfinal
  refine ⟨s, reachable_of_exec freshPool_reaches hs, ⟨c, ?_, hquiet, hreturned⟩, r, ?_, 7, ?_, ?_⟩
  · rw [hc]
    exact List.mem_singleton_self c
  · rw [hr]
    exact List.mem_singleton_self r
  · rw [hheld]
    exact List.mem_singleton_self 7
  · rw [hclosed]
    exact List.not_mem_nil

end TgWsProxy
