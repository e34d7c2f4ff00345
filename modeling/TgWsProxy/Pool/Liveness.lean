import TgWsProxy.Pool.Leaks

/-!
# What the pools hand out

Both pools look at the connections in a bucket before they hand one out, each with its own test.

* `Signals` — what there is to be seen of a pooled connection.
* `Usable` — nothing says that the connection is dead, and it is not too old.
* `Delivers` — a bucket gives a usable connection, or has none.
* `Ws.World.taken`, `CfWorker.World.taken` — what `get` hands out.
* **`pools_hand_out_usable`** — when the pools deliver.
-/

namespace TgWsProxy

open Wire

/-- `ws._closed`, `ws.writer.transport.is_closing()`, `ws.reader.at_eof()` and
`ws.reader.exception() is not None`. -/
structure Signals where
  closed : Bool
  isClosing : Bool
  atEof : Bool
  exception : Bool
  deriving DecidableEq, Repr

/-- Nothing to be seen. -/
def Signals.quiet : Signals := ⟨false, false, false, false⟩

/-- No signal of a dead peer, and not older than `maxAge`. -/
def Usable (maxAge age : ℚ) (x : Signals) : Prop := x = .quiet ∧ age ≤ maxAge

instance (maxAge age : ℚ) (x : Signals) : Decidable (Usable maxAge age x) :=
  inferInstanceAs (Decidable (_ ∧ _))

section Bucket

variable {α : Type*}

/-- What is taken from a bucket is good, and nothing is taken only if nothing in it is. -/
def Delivers (good : α → Prop) (bucket : List α) (taken : Option α) : Prop :=
  (∀ e ∈ taken, good e) ∧ (taken = none → ∀ e ∈ bucket, ¬ good e)

variable {good : α → Prop} {fresh : α → Bool} {bucket : List α}

/-- A test that every good one passes. -/
lemma delivers_find?_of_le (h : ∀ e, good e → fresh e = true) :
    Delivers good bucket (bucket.find? fresh) ↔ ∀ e ∈ bucket.find? fresh, good e := by
  refine and_iff_left fun hnone e he hgood => ?_
  exact List.find?_eq_none.mp hnone e he (h e hgood)

/-- A test that only good ones pass. -/
lemma delivers_find?_of_ge (h : ∀ e, fresh e = true → good e) :
    Delivers good bucket (bucket.find? fresh) ↔
      ((∃ e ∈ bucket, good e) → ∃ e ∈ bucket, fresh e = true) := by
  constructor
  · rintro ⟨-, hnone⟩ ⟨e, he, hgood⟩
    by_contra hfresh
    refine hnone (List.find?_eq_none.mpr fun d hd hf => hfresh ⟨d, hd, hf⟩) e he hgood
  · intro hex
    refine ⟨fun e he => h e (List.find?_some he), fun hnone e he hgood => ?_⟩
    obtain ⟨d, hd, hfresh⟩ := hex ⟨e, he, hgood⟩
    exact List.find?_eq_none.mp hnone d hd hfresh

end Bucket

/-! ## Connections to the data centres -/

namespace Ws

/-- The connections among those of a bucket that `_is_stale` finds dead. -/
def dead (signals : ℕ → Signals) (bucket : List Idle) : List ℕ :=
  (bucket.map Idle.ws).filter fun ws => (signals ws).closed || (signals ws).isClosing ||
    (signals ws).atEof || (signals ws).exception

/-- A pooled connection is usable. -/
def Idle.Usable (now : ℚ) (signals : ℕ → Signals) (e : Idle) : Prop :=
  TgWsProxy.Usable wsPoolMaxAge (now - e.created) (signals e.ws)

/-- The test of `get`. -/
def fresh (now : ℚ) (signals : ℕ → Signals) (e : Idle) : Bool :=
  signals e.ws = .quiet ∧ now - e.created < wsPoolMaxAge

lemma popFresh_found (stale : Idle → Bool) :
    ∀ bucket : List Idle, (popFresh stale bucket).2.1 = bucket.find? fun e => !stale e
  | [] => rfl
  | e :: bucket => by
      rw [popFresh, List.find?_cons]
      cases hstale : stale e with
      | true => simpa using popFresh_found stale bucket
      | false => simp

lemma mem_dead (signals : ℕ → Signals) {bucket : List Idle} {e : Idle} (he : e ∈ bucket) :
    e.ws ∈ dead signals bucket ↔ signals e.ws ≠ .quiet := by
  have hmem : e.ws ∈ bucket.map Idle.ws := List.mem_map_of_mem he
  rw [dead, List.mem_filter, and_iff_right hmem]
  rcases signals e.ws with ⟨a, b, c, d⟩
  revert a b c d
  decide

namespace World

/-- The bucket that `get` looks at. -/
def bucket (key : Key) (s : World) : List Idle :=
  (s.pool.idle.setdefault key).2.heap (s.pool.idle.setdefault key).1

/-- `get` looks at its bucket: the DC is configured, and the pool is on. -/
def Serves (cfg : ProxyConfig) (key : Key) : Prop :=
  (∃ ip ∈ (cfg.dcRedirects.get? key.dc).join, ip ≠ "") ∧ cfg.poolSize ≠ 0

instance (cfg : ProxyConfig) (key : Key) : Decidable (Serves cfg key) :=
  inferInstanceAs (Decidable (_ ∧ _))

/-- What `get` finds. -/
def taken (cfg : ProxyConfig) (key : Key) (signals : ℕ → Signals) (s : World) : Option Idle :=
  if Serves cfg key then
    (popFresh (isStale s.now (dead signals (s.bucket key))) (s.bucket key)).2.1
  else none

lemma scheduleRefill_handed (n : ℕ) (key : Key) (s : World) :
    (s.scheduleRefill n key).handed = s.handed := by
  have hrotation : (s.scheduleRotation key).handed = s.handed := by
    rw [scheduleRotation]
    split_ifs <;> rfl
  rw [scheduleRefill]
  simp only
  split_ifs
  · rfl
  · exact hrotation
  · exact hrotation

/-- `get` hands out what it finds. -/
lemma get_handed (cfg : ProxyConfig) (key : Key) (signals : ℕ → Signals) (s : World) :
    (s.get cfg key (dead signals (s.bucket key))).handed =
      s.handed ++ ((s.taken cfg key signals).map Idle.ws).toList := by
  rw [get]
  cases hip : (cfg.dcRedirects.get? key.dc).join with
  | none =>
      have hnot : ¬ Serves cfg key := by simp [Serves, hip]
      rw [taken, if_neg hnot]
      simp
  | some ip =>
      simp only
      by_cases hoff : ip = "" ∨ cfg.poolSize = 0
      · have hnot : ¬ Serves cfg key := by
          rintro ⟨⟨ip', hip', hne⟩, hsize⟩
          rw [hip] at hip'
          obtain rfl := Option.some.inj hip'
          exact hoff.elim hne hsize
        rw [if_pos hoff, taken, if_neg hnot]
        simp
      · push Not at hoff
        have hserves : Serves cfg key := ⟨⟨ip, hip, hoff.1⟩, hoff.2⟩
        rw [if_neg (by simpa using hoff), taken, if_pos hserves]
        simp only [bucket]
        split
        · next hfound => rw [scheduleRefill_handed, hfound]; rfl
        · next hfound => rw [scheduleRefill_handed, hfound]; simp

lemma taken_eq_find? {cfg : ProxyConfig} {key : Key} (h : Serves cfg key) (signals : ℕ → Signals)
    (s : World) : s.taken cfg key signals = (s.bucket key).find? (fresh s.now signals) := by
  rw [taken, if_pos h, popFresh_found]
  refine List.find?_congr fun e he => ?_
  have hdead := mem_dead signals he
  simp only [isStale, fresh, ← decide_not, decide_eq_decide, not_or, not_le, hdead, not_not]
  exact And.comm

/-- **When the pool delivers.**  If there is a usable connection in the bucket, `get` looks at the
bucket and there is one that has not reached the maximal age either. -/
theorem taken_delivers (cfg : ProxyConfig) (key : Key) (signals : ℕ → Signals) (s : World) :
    Delivers (Idle.Usable s.now signals) (s.bucket key) (s.taken cfg key signals) ↔
      ((∃ e ∈ s.bucket key, e.Usable s.now signals) → Serves cfg key ∧
        ∃ e ∈ s.bucket key, signals e.ws = .quiet ∧ s.now - e.created < wsPoolMaxAge) := by
  by_cases h : Serves cfg key
  · have hfresh : ∀ e : Idle, fresh s.now signals e = true → e.Usable s.now signals := by
      intro e he
      obtain ⟨hquiet, hage⟩ := of_decide_eq_true he
      exact ⟨hquiet, hage.le⟩
    rw [taken_eq_find? h, delivers_find?_of_ge hfresh]
    simp [h, fresh]
  · rw [taken, if_neg h]
    simp [Delivers, h]

end World

end Ws

/-! ## Connections to workers -/

namespace CfWorker

variable {δ : Type*} [DecidableEq δ]

/-- The connections among those of a bucket that `get` finds dead. -/
def dead (signals : ℕ → Signals) (bucket : List (Idle δ)) : List ℕ :=
  (bucket.map Idle.ws).filter fun ws => (signals ws).closed || (signals ws).isClosing

/-- A pooled connection is usable. -/
def Idle.Usable (now : ℚ) (signals : ℕ → Signals) (e : Idle δ) : Prop :=
  TgWsProxy.Usable wsPoolMaxAge (now - e.created) (signals e.ws)

/-- The test of `get`: young, not closed and not closing. -/
def fresh (now : ℚ) (signals : ℕ → Signals) (e : Idle δ) : Bool :=
  ((signals e.ws).closed = false ∧ (signals e.ws).isClosing = false) ∧
    now - e.created ≤ wsPoolMaxAge

omit [DecidableEq δ] in
lemma popFresh_found (now : ℚ) (dead : List ℕ) : ∀ bucket : List (Idle δ),
    (popFresh now dead bucket).2.1 =
      bucket.find? fun e => ¬ (wsPoolMaxAge < now - e.created ∨ e.ws ∈ dead)
  | [] => rfl
  | e :: bucket => by
      rw [popFresh, List.find?_cons]
      by_cases hstale : wsPoolMaxAge < now - e.created ∨ e.ws ∈ dead
      · simpa [hstale] using popFresh_found now dead bucket
      · simp [hstale]

omit [DecidableEq δ] in
lemma mem_dead (signals : ℕ → Signals) {bucket : List (Idle δ)} {e : Idle δ} (he : e ∈ bucket) :
    e.ws ∈ dead signals bucket ↔
      ¬ ((signals e.ws).closed = false ∧ (signals e.ws).isClosing = false) := by
  have hmem : e.ws ∈ bucket.map Idle.ws := List.mem_map_of_mem he
  rw [dead, List.mem_filter, and_iff_right hmem]
  rcases signals e.ws with ⟨a, b, c, d⟩
  revert a b c d
  decide

namespace World

omit [DecidableEq δ] in
/-- The bucket that `get` looks at. -/
def bucket (dc : ℤ) (s : World δ) : List (Idle δ) :=
  (s.pool.idle.setdefault dc).2.heap (s.pool.idle.setdefault dc).1

/-- What `get` finds. -/
def taken (dc : ℤ) (signals : ℕ → Signals) (s : World δ) : Option (Idle δ) :=
  (popFresh s.now (dead signals (s.bucket dc)) (s.bucket dc)).2.1

omit [DecidableEq δ] in
lemma scheduleRefill_handed (dc : ℤ) (workerDomains : List δ) (s : World δ) :
    (s.scheduleRefill dc workerDomains).handed = s.handed := by
  rw [scheduleRefill]
  split_ifs <;> rfl

/-- `get` hands out what it finds. -/
lemma get_handed (dc : ℤ) (workerDomains : List δ) (signals : ℕ → Signals) (s : World δ) :
    (s.get dc workerDomains (dead signals (s.bucket dc))).handed =
      s.handed ++ ((s.taken dc signals).map Idle.ws).toList := by
  rw [get]
  simp only [taken, bucket]
  split
  · next hfound => rw [scheduleRefill_handed, hfound]; rfl
  · next hfound => rw [scheduleRefill_handed, hfound]; simp

omit [DecidableEq δ] in
lemma taken_eq_find? (dc : ℤ) (signals : ℕ → Signals) (s : World δ) :
    s.taken dc signals = (s.bucket dc).find? (fresh s.now signals) := by
  rw [taken, popFresh_found]
  refine List.find?_congr fun e he => ?_
  have hdead := mem_dead signals he
  simp only [fresh, decide_eq_decide, not_or, not_lt, hdead, not_not]
  exact And.comm

omit [DecidableEq δ] in
/-- **When the pool delivers.**  The first connection in the bucket that is young, not closed and
not closing is not at the end of its stream and not broken. -/
theorem taken_delivers (dc : ℤ) (signals : ℕ → Signals) (s : World δ) :
    Delivers (Idle.Usable s.now signals) (s.bucket dc) (s.taken dc signals) ↔
      ∀ e ∈ (s.bucket dc).find? (fresh s.now signals),
        (signals e.ws).atEof = false ∧ (signals e.ws).exception = false := by
  have hfresh : ∀ e : Idle δ, e.Usable s.now signals ↔ fresh s.now signals e = true ∧
      (signals e.ws).atEof = false ∧ (signals e.ws).exception = false := by
    intro e
    rw [Idle.Usable, TgWsProxy.Usable, fresh, decide_eq_true_iff]
    rcases signals e.ws with ⟨a, b, c, d⟩
    simp only [Signals.quiet, Signals.mk.injEq]
    tauto
  rw [taken_eq_find?, delivers_find?_of_le fun e he => ((hfresh e).mp he).1]
  refine forall₂_congr fun e he => ?_
  rw [hfresh, and_iff_right (List.find?_some he)]

end World

end CfWorker

/-! ## Both pools -/

/-- **When the pools hand out usable connections.**  For any buckets and whatever is to be seen of
the pooled connections, `get` hands out what it takes from its bucket.  The pool of data centres
takes a usable connection, or there is none, unless it is off or its only usable connections have
just reached the maximal age.  The pool of workers does if and only if the first connection that
is young, not closed and not closing is neither at the end of its stream nor broken. -/
theorem pools_hand_out_usable {δ : Type*} [DecidableEq δ] (signals : ℕ → Signals) :
    (∀ (cfg : Ws.ProxyConfig) (key : Ws.Key) (s : Ws.World),
      (s.get cfg key (Ws.dead signals (s.bucket key))).handed =
        s.handed ++ ((s.taken cfg key signals).map Ws.Idle.ws).toList ∧
      (Delivers (Ws.Idle.Usable s.now signals) (s.bucket key) (s.taken cfg key signals) ↔
        ((∃ e ∈ s.bucket key, e.Usable s.now signals) → Ws.World.Serves cfg key ∧
          ∃ e ∈ s.bucket key, signals e.ws = .quiet ∧ s.now - e.created < Ws.wsPoolMaxAge))) ∧
    ∀ (dc : ℤ) (workerDomains : List δ) (s : CfWorker.World δ),
      (s.get dc workerDomains (CfWorker.dead signals (s.bucket dc))).handed =
        s.handed ++ ((s.taken dc signals).map CfWorker.Idle.ws).toList ∧
      (Delivers (CfWorker.Idle.Usable s.now signals) (s.bucket dc) (s.taken dc signals) ↔
        ∀ e ∈ (s.bucket dc).find? (CfWorker.fresh s.now signals),
          (signals e.ws).atEof = false ∧ (signals e.ws).exception = false) :=
  ⟨fun cfg key s => ⟨s.get_handed cfg key signals, s.taken_delivers cfg key signals⟩,
    fun dc workerDomains s =>
      ⟨s.get_handed dc workerDomains signals, s.taken_delivers dc signals⟩⟩

/-- A worker ends a pooled connection over plain TCP, and `get` hands it out. -/
theorem handed_out_at_eof :
    ¬ ∀ (s : CfWorker.World String) (signals : ℕ → Signals), CfWorker.Reaches 4 s →
      Delivers (CfWorker.Idle.Usable s.now signals) (s.bucket 2) (s.taken 2 signals) := by
  intro h
  have hrun : (exec (CfWorker.World.step 4) [.get 2 ["a"] [], .begin 0 ["a"], .dialReturned 0 7 []]
      freshWorkerPool).map (fun s => (s.now, s.bucket 2)) = some (1000, [⟨7, 1000, "a"⟩]) := by
    decide +kernel
  obtain ⟨s, hs, hview⟩ := Option.map_eq_some_iff.mp hrun
  obtain ⟨hnow, hbucket⟩ := Prod.mk.inj hview
  have hstart : CfWorker.Reaches 4 freshWorkerPool := .start ⟨rfl, rfl, rfl, rfl, rfl, rfl⟩
  have hdelivers := h s (fun _ => ⟨false, false, true, false⟩) (reachable_of_exec hstart hs)
  rw [CfWorker.World.taken_delivers, hnow, hbucket] at hdelivers
  exact Bool.false_ne_true (hdelivers ⟨7, 1000, "a"⟩ (by decide +kernel)).1.symm

end TgWsProxy
