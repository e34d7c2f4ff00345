import TgWsProxy.Pool.CfWorkerPool

/-!
# The failure ladder of the workers

Three kinds of failure share one deadline, and two of them climb a ladder that makes the next rest
longer.

* `restsUntil`, `rungs` — the deadline and the ladder of a worker in the maps of the pool.
* `rest` — the longest rest that a rung can have earned.
* `Ladder`, `Ladder.step` — calls of `report_failure`, `report_success` and `available_domains`,
  counting what climbs.
* `Ladder.Upright` — the deadline is never further away than the rung earns.
* **`ladder_climbs`** — the ladder in every run.
* `rest_beyond_cooldownMax` — the rounding may make a rest longer than `COOLDOWN_MAX`.
-/

namespace TgWsProxy.CfWorker

open Wire

variable {δ : Type*} [DecidableEq δ]

namespace CfWorkerPool

/-- `_unavailable_until.get(domain, 0)`. -/
def restsUntil (p : CfWorkerPool δ) (domain : δ) : ℚ := (p.unavailableUntil.get? domain).getD 0

/-- `_failures.get(domain, 0)`. -/
def rungs (p : CfWorkerPool δ) (domain : δ) : ℕ := (p.failures.get? domain).getD 0

end CfWorkerPool

/-! ## Rests -/

/-- The rest after a quota refusal that makes the counter `failures`. -/
def rest (failures : ℕ) : ℚ := min (quotaCooldown * 2 ^ (failures - 1)) cooldownMax

lemma rest_mono {m n : ℕ} (h : m ≤ n) : rest m ≤ rest n := by
  refine min_le_min_right _ (mul_le_mul_of_nonneg_left ?_ (by norm_num [quotaCooldown]))
  exact pow_le_pow_right₀ (by norm_num) (Nat.sub_le_sub_right h 1)

lemma rest_le (n : ℕ) : rest n ≤ cooldownMax := min_le_right _ _

/-- The shortest is the pause after a local abort. -/
lemma localAbortCooldown_le_rest (n : ℕ) : localAbortCooldown ≤ rest n := by
  have h : rest 0 ≤ rest n := rest_mono n.zero_le
  refine le_trans ?_ h
  norm_num [rest, quotaCooldown, cooldownMax, localAbortCooldown]

lemma rest_nonneg (n : ℕ) : 0 ≤ rest n :=
  le_trans (by norm_num [localAbortCooldown]) (localAbortCooldown_le_rest n)

/-- `COOLDOWN_MAX`, or what the doubles leave of it at the time `now` at which it begins. -/
def longestRest (now : ℚ) : ℚ := max cooldownMax (rounded (rounded (now + cooldownMax) - now))

/-- An ordinary failure earns no more than a quota refusal. -/
lemma cooldown_le_rest (exc : Refusal) (n : ℕ) :
    min ((if exc = .quota then quotaCooldown else failureCooldown) * 2 ^ (n - 1)) cooldownMax ≤
      rest n := by
  refine min_le_min_right _ (mul_le_mul_of_nonneg_right ?_ (by positivity))
  split_ifs
  · exact le_rfl
  · norm_num [failureCooldown, quotaCooldown]

lemma cooldown_nonneg (exc : Refusal) (n : ℕ) :
    0 ≤ min ((if exc = .quota then quotaCooldown else failureCooldown) * 2 ^ (n - 1))
      cooldownMax := by
  refine le_min (mul_nonneg ?_ (by positivity)) (by norm_num [cooldownMax])
  split_ifs <;> norm_num [failureCooldown, quotaCooldown]

/-! ## The operations -/

namespace CfWorkerPool

variable {p : CfWorkerPool δ} {now : ℚ} {d : δ}

/-- A failure climbs: a quota refusal, or an ordinary failure while the worker is not resting. -/
def Climbs (p : CfWorkerPool δ) (now : ℚ) (domain : δ) (exc : Refusal) : Prop :=
  exc = .quota ∨ exc = .other ∧ p.restsUntil domain ≤ now

instance (p : CfWorkerPool δ) (now : ℚ) (domain : δ) (exc : Refusal) :
    Decidable (p.Climbs now domain exc) :=
  inferInstanceAs (Decidable (_ ∨ _))

/-- A local abort moves the deadline a little, and nothing else. -/
lemma reportFailure_localAbort (p : CfWorkerPool δ) (now : ℚ) (d : δ) :
    p.reportFailure now d .localAbort =
      (rounded (max (p.restsUntil d) (rounded (now + localAbortCooldown)) - now),
        { p with
          unavailableUntil := p.unavailableUntil.set d
            (max (p.restsUntil d) (rounded (now + localAbortCooldown))) }) := by
  rw [reportFailure]
  simp [restsUntil]

/-- An ordinary failure of a resting worker changes nothing. -/
lemma reportFailure_resting (h : now < p.restsUntil d) :
    p.reportFailure now d .other = (rounded (p.restsUntil d - now), p) := by
  rw [reportFailure]
  simp only [reduceCtorEq, if_false]
  rw [if_pos ⟨by decide, h⟩]
  rfl

/-- Any other failure climbs, and starts a rest. -/
lemma reportFailure_climbs {exc : Refusal} (h : p.Climbs now d exc) :
    ∃ cooldown, p.reportFailure now d exc =
        (cooldown, { p with
          unavailableUntil := p.unavailableUntil.set d (rounded (now + cooldown))
          failures := p.failures.set d (min (p.rungs d + 1) backoffSteps) }) ∧
      cooldown = min ((if exc = .quota then quotaCooldown else failureCooldown) *
        2 ^ (min (p.rungs d + 1) backoffSteps - 1)) cooldownMax := by
  have hlocal : exc ≠ .localAbort := by
    rintro rfl
    rcases h with h | ⟨h, -⟩ <;> cases h
  have hresting : ¬ (exc ≠ .quota ∧ now < (p.unavailableUntil.get? d).getD 0) := by
    rintro ⟨hquota, hlt⟩
    rcases h with h | ⟨-, h⟩
    · exact hquota h
    · exact absurd hlt h.not_gt
  refine ⟨_, ?_, rfl⟩
  rw [reportFailure]
  simp only [if_neg hlocal, if_neg hresting]
  rfl

/-- The cases of `report_failure`. -/
lemma refusal_cases (p : CfWorkerPool δ) (now : ℚ) (d : δ) (exc : Refusal) :
    exc = .localAbort ∨ exc = .other ∧ now < p.restsUntil d ∨ p.Climbs now d exc := by
  cases exc with
  | localAbort => exact .inl rfl
  | quota => exact .inr (.inr (.inl rfl))
  | other =>
      rcases lt_or_ge now (p.restsUntil d) with h | h
      · exact .inr (.inl ⟨rfl, h⟩)
      · exact .inr (.inr (.inr ⟨rfl, h⟩))

/-- One turn of the loop of `available_domains`. -/
def availableTurn (now : ℚ) : List δ × CfWorkerPool δ → δ → List δ × CfWorkerPool δ :=
  fun (domains, p) domain =>
    let unavailableUntil := (p.unavailableUntil.get? domain).getD 0
    if domain ∈ domains then (domains, p)
    else if now < unavailableUntil then (domains, p)
    else if unavailableUntil ≠ 0 then
      (domains ++ [domain], { p with unavailableUntil := p.unavailableUntil.erase domain })
    else (domains ++ [domain], p)

lemma availableDomains_eq_foldl (now : ℚ) (ds : List δ) (p : CfWorkerPool δ) :
    p.availableDomains now ds = ds.foldl (availableTurn now) ([], p) := rfl

lemma availableTurn_eq (now : ℚ) (acc : List δ) (p : CfWorkerPool δ) (e : δ) :
    availableTurn now (acc, p) e =
      if e ∈ acc ∨ now < p.restsUntil e then (acc, p)
      else (acc ++ [e], if p.restsUntil e ≠ 0 then
        { p with unavailableUntil := p.unavailableUntil.erase e } else p) := by
  by_cases hmem : e ∈ acc
  · simp [availableTurn, hmem]
  · by_cases hresting : now < p.restsUntil e
    · rw [if_pos (.inr hresting)]
      rw [restsUntil] at hresting
      simp [availableTurn, hmem, hresting]
    · rw [if_neg (not_or.mpr ⟨hmem, hresting⟩)]
      rw [restsUntil] at hresting ⊢
      simp only [availableTurn, if_neg hmem, if_neg hresting]
      split_ifs <;> rfl

/-- Another worker's deadline is not touched, and its own is forgotten at most. -/
lemma restsUntil_erase (p : CfWorkerPool δ) (e d : δ) :
    ({ p with unavailableUntil := p.unavailableUntil.erase e } : CfWorkerPool δ).restsUntil d =
      if d = e then 0 else p.restsUntil d := by
  rw [restsUntil, restsUntil]
  split_ifs with h
  · subst h
    rw [Dict.get?_erase_self]
    rfl
  · rw [Dict.get?_erase_of_ne h]

/-- What the loop adds to the domains that it has: those that are not resting, each once. -/
lemma availableTurn_foldl (now : ℚ) : ∀ (ds acc : List δ) (p : CfWorkerPool δ), acc.Nodup →
    (ds.foldl (availableTurn now) (acc, p)).1.Nodup ∧
      (∀ d, d ∈ (ds.foldl (availableTurn now) (acc, p)).1 ↔
        d ∈ acc ∨ d ∈ ds ∧ p.restsUntil d ≤ now) ∧
      ∀ d, (ds.foldl (availableTurn now) (acc, p)).2.restsUntil d = p.restsUntil d ∨
        (ds.foldl (availableTurn now) (acc, p)).2.restsUntil d = 0
  | [], acc, p, hacc => ⟨hacc, by simp, fun d => .inl rfl⟩
  | e :: ds, acc, p, hacc => by
      rw [List.foldl_cons, availableTurn_eq]
      split_ifs with hskip hrest
      · obtain ⟨hnodup, hmem, huntil⟩ := availableTurn_foldl now ds acc p hacc
        refine ⟨hnodup, fun d => ?_, huntil⟩
        rw [hmem, List.mem_cons]
        constructor
        · rintro (h | ⟨h, hle⟩)
          · exact .inl h
          · exact .inr ⟨.inr h, hle⟩
        · rintro (h | ⟨rfl | h, hle⟩)
          · exact .inl h
          · exact .inl (hskip.resolve_right hle.not_gt)
          · exact .inr ⟨h, hle⟩
      all_goals
        push Not at hskip
        have hacc' : (acc ++ [e]).Nodup := by
          rw [List.nodup_append]
          refine ⟨hacc, List.nodup_singleton e, fun a ha b hb => ?_⟩
          rw [List.mem_singleton.mp hb]
          rintro rfl
          exact hskip.1 ha
      · obtain ⟨hnodup, hmem, huntil⟩ := availableTurn_foldl now ds (acc ++ [e])
          { p with unavailableUntil := p.unavailableUntil.erase e } hacc'
        refine ⟨hnodup, fun d => ?_, fun d => ?_⟩
        · rw [hmem, restsUntil_erase, List.mem_append, List.mem_singleton, List.mem_cons]
          by_cases hd : d = e
          · subst hd
            simp [hskip.2]
          · simp [hd]
        · rcases huntil d with h | h
          · rw [restsUntil_erase] at h
            split_ifs at h
            · exact .inr h
            · exact .inl h
          · exact .inr h
      · obtain ⟨hnodup, hmem, huntil⟩ := availableTurn_foldl now ds (acc ++ [e]) p hacc'
        refine ⟨hnodup, fun d => ?_, huntil⟩
        rw [hmem, List.mem_append, List.mem_singleton, List.mem_cons]
        by_cases hd : d = e
        · subst hd
          simp [hskip.2]
        · simp [hd]

lemma rungs_availableDomains (now : ℚ) (ds : List δ) (p : CfWorkerPool δ) (d : δ) :
    (p.availableDomains now ds).2.rungs d = p.rungs d := by
  obtain ⟨u, hu⟩ := p.availableDomains_eq now ds
  rw [hu]
  rfl

end CfWorkerPool

/-! ## Runs -/

/-- A pool and the clock, which shows doubles.  `climbed d` counts the failures of `d` that climbed
since its last success. -/
structure Ladder (δ : Type*) where
  pool : CfWorkerPool δ
  now : ℚ
  climbed : δ → ℕ

/-- A call, or time that passes. -/
inductive Call (δ : Type*)
  | tick (t : ℚ)
  | reportFailure (workerDomain : δ) (exc : Refusal)
  | reportSuccess (workerDomain : δ)
  | availableDomains (workerDomains : List δ)
  deriving DecidableEq

namespace Ladder

/-- One call. -/
def step : Call δ → Ladder δ → Option (Ladder δ)
  | .tick t, s => if s.now ≤ t ∧ rounded t = t then some { s with now := t } else none
  | .reportFailure d exc, s =>
      some { s with
        pool := (s.pool.reportFailure s.now d exc).2
        climbed :=
          if s.pool.Climbs s.now d exc then Function.update s.climbed d (s.climbed d + 1)
          else s.climbed }
  | .reportSuccess d, s =>
      some { s with pool := s.pool.reportSuccess d, climbed := Function.update s.climbed d 0 }
  | .availableDomains ds, s => some { s with pool := (s.pool.availableDomains s.now ds).2 }

/-- A new pool.  The monotonic clock is a double, and not negative. -/
def Starting (s : Ladder δ) : Prop :=
  s.pool = .new ∧ 0 ≤ s.now ∧ rounded s.now = s.now ∧ s.climbed = fun _ => 0

/-- Any calls, in any order, while time passes. -/
def Reaches (s : Ladder δ) : Prop := Reachable Starting step Always s

/-- The counter of every worker counts what climbed, and its deadline is no further away than the
counter earns. -/
structure Upright (s : Ladder δ) : Prop where
  clock : 0 ≤ s.now
  double : rounded s.now = s.now
  counts : ∀ d, s.pool.rungs d = min backoffSteps (s.climbed d)
  near : ∀ d, s.pool.restsUntil d ≤ rounded (s.now + rest (s.pool.rungs d))

namespace Upright

variable {s : Ladder δ}

/-- Longer rests end no earlier. -/
lemma rounded_add_le (h : Upright s) {a b : ℚ} (ha : 0 ≤ a) (hab : a ≤ b) :
    rounded (s.now + a) ≤ rounded (s.now + b) :=
  rounded_mono (add_nonneg h.clock ha) (add_le_add_right hab _)

/-- No rest ends before it begins. -/
lemma now_le_rounded (h : Upright s) {a : ℚ} (ha : 0 ≤ a) : s.now ≤ rounded (s.now + a) := by
  have hle := rounded_mono h.clock (le_add_of_nonneg_right ha : s.now ≤ s.now + a)
  rwa [h.double] at hle

/-- The deadlines of the others are not touched. -/
lemma near_set (h : Upright s) {d : δ} {t : ℚ} {f : Dict δ ℕ}
    (ht : t ≤ rounded (s.now + rest ((f.get? d).getD 0)))
    (hf : ∀ e, e ≠ d → f.get? e = s.pool.failures.get? e) (e : δ) :
    ({ s.pool with
      unavailableUntil := s.pool.unavailableUntil.set d t
      failures := f } : CfWorkerPool δ).restsUntil e ≤
        rounded (s.now + rest ((f.get? e).getD 0)) := by
  rw [CfWorkerPool.restsUntil]
  by_cases he : e = d
  · subst he
    rw [Dict.get?_set_self]
    exact ht
  · rw [Dict.get?_set_of_ne _ he, hf e he]
    exact h.near e

/-- The next rung earns no less. -/
lemma next_rung (h : Upright s) (d : δ) :
    rest (s.pool.rungs d) ≤ rest (min (s.pool.rungs d + 1) backoffSteps) := by
  refine rest_mono (le_min (Nat.le_succ _) ?_)
  rw [h.counts]
  exact min_le_left _ _

/-- The counter behind a failure that climbs. -/
lemma counts_climb (h : Upright s) (d e : δ) :
    ((s.pool.failures.set d (min (s.pool.rungs d + 1) backoffSteps)).get? e).getD 0 =
      min backoffSteps (Function.update s.climbed d (s.climbed d + 1) e) := by
  by_cases he : e = d
  · subst he
    rw [Dict.get?_set_self, Function.update_self, Option.getD_some, h.counts]
    omega
  · rw [Dict.get?_set_of_ne _ he, Function.update_of_ne he]
    exact h.counts e

lemma reportFailure (h : Upright s) {d : δ} {exc : Refusal} {s' : Ladder δ}
    (hs : step (.reportFailure d exc) s = some s') : Upright s' := by
  obtain rfl := Option.some.inj hs
  rcases s.pool.refusal_cases s.now d exc with rfl | ⟨rfl, hresting⟩ | hclimbs
  · have hnot : ¬ s.pool.Climbs s.now d .localAbort := by simp [CfWorkerPool.Climbs]
    rw [if_neg hnot, s.pool.reportFailure_localAbort]
    refine ⟨h.clock, h.double, h.counts, h.near_set (max_le (h.near d) ?_) fun _ _ => rfl⟩
    exact h.rounded_add_le (by norm_num [localAbortCooldown]) (localAbortCooldown_le_rest _)
  · have hnot : ¬ s.pool.Climbs s.now d .other := by simp [CfWorkerPool.Climbs, hresting]
    rw [if_neg hnot, CfWorkerPool.reportFailure_resting hresting]
    exact ⟨h.clock, h.double, h.counts, h.near⟩
  · obtain ⟨cooldown, hreport, hcooldown⟩ := CfWorkerPool.reportFailure_climbs hclimbs
    rw [if_pos hclimbs, hreport]
    refine ⟨h.clock, h.double, h.counts_climb d,
      h.near_set ?_ fun e he => Dict.get?_set_of_ne _ he⟩
    rw [Dict.get?_set_self, hcooldown]
    exact h.rounded_add_le (cooldown_nonneg _ _) (cooldown_le_rest _ _)

/-- **One call.** -/
lemma step (h : Upright s) {c : Call δ} {s' : Ladder δ} (hs : Ladder.step c s = some s') :
    Upright s' := by
  cases c with
  | tick t =>
      rw [Ladder.step] at hs
      split_ifs at hs with ht
      obtain rfl := Option.some.inj hs
      refine ⟨h.clock.trans ht.1, ht.2, h.counts, fun d => (h.near d).trans ?_⟩
      exact rounded_mono (add_nonneg h.clock (rest_nonneg _)) (add_le_add_left ht.1 _)
  | reportFailure d exc => exact h.reportFailure hs
  | reportSuccess d =>
      obtain rfl := Option.some.inj hs
      refine ⟨h.clock, h.double, fun e => ?_, fun e => ?_⟩
      · show ((s.pool.failures.erase d).get? e).getD 0 = _
        by_cases he : e = d
        · subst he
          simp
        · show _ = min backoffSteps (Function.update s.climbed d 0 e)
          rw [Dict.get?_erase_of_ne he, Function.update_of_ne he]
          exact h.counts e
      · show ((s.pool.unavailableUntil.erase d).get? e).getD 0 ≤
          rounded (s.now + rest (((s.pool.failures.erase d).get? e).getD 0))
        by_cases he : e = d
        · subst he
          rw [Dict.get?_erase_self]
          exact rounded_nonneg (add_nonneg h.clock (rest_nonneg _))
        · rw [Dict.get?_erase_of_ne he, Dict.get?_erase_of_ne he]
          exact h.near e
  | availableDomains ds =>
      obtain rfl := Option.some.inj hs
      refine ⟨h.clock, h.double, fun e => ?_, fun e => ?_⟩
      · show (s.pool.availableDomains s.now ds).2.rungs e = _
        rw [CfWorkerPool.rungs_availableDomains]
        exact h.counts e
      · show (s.pool.availableDomains s.now ds).2.restsUntil e ≤
          rounded (s.now + rest ((s.pool.availableDomains s.now ds).2.rungs e))
        rw [CfWorkerPool.rungs_availableDomains]
        rcases (CfWorkerPool.availableTurn_foldl s.now ds [] s.pool List.nodup_nil).2.2 e with
          hsame | hzero
        · exact hsame.trans_le (h.near e)
        · exact hzero.trans_le (rounded_nonneg (add_nonneg h.clock (rest_nonneg _)))

/-- No report moves a deadline to an earlier time. -/
lemma le_restsUntil (h : Upright s) (d : δ) (exc : Refusal) (e : δ) :
    s.pool.restsUntil e ≤ (s.pool.reportFailure s.now d exc).2.restsUntil e := by
  have hset : ∀ {t : ℚ} {f : Dict δ ℕ}, s.pool.restsUntil d ≤ t →
      s.pool.restsUntil e ≤ ({ s.pool with
        unavailableUntil := s.pool.unavailableUntil.set d t
        failures := f } : CfWorkerPool δ).restsUntil e := by
    intro t f ht
    show _ ≤ ((s.pool.unavailableUntil.set d t).get? e).getD 0
    by_cases he : e = d
    · subst he
      rwa [Dict.get?_set_self]
    · rw [Dict.get?_set_of_ne _ he]
      exact le_rfl
  rcases s.pool.refusal_cases s.now d exc with rfl | ⟨rfl, hresting⟩ | hclimbs
  · rw [s.pool.reportFailure_localAbort]
    exact hset (le_max_left _ _)
  · rw [CfWorkerPool.reportFailure_resting hresting]
  · obtain ⟨cooldown, hreport, hcooldown⟩ := CfWorkerPool.reportFailure_climbs hclimbs
    rw [hreport]
    refine hset ?_
    rcases hclimbs with rfl | ⟨-, hle⟩
    · rw [if_pos rfl] at hcooldown
      calc s.pool.restsUntil d ≤ rounded (s.now + rest (s.pool.rungs d)) := h.near d
        _ ≤ rounded (s.now + cooldown) := by
            rw [hcooldown]
            exact h.rounded_add_le (rest_nonneg _) (h.next_rung d)
    · have hnonneg : 0 ≤ cooldown := hcooldown ▸ cooldown_nonneg exc _
      exact hle.trans (h.now_le_rounded hnonneg)

/-- No report asks for a rest longer than `COOLDOWN_MAX`, as the doubles have it. -/
lemma reportFailure_le (h : Upright s) (d : δ) (exc : Refusal) :
    (s.pool.reportFailure s.now d exc).1 ≤ longestRest s.now := by
  have hnear : s.pool.restsUntil d ≤ rounded (s.now + cooldownMax) :=
    (h.near d).trans (h.rounded_add_le (rest_nonneg _) (rest_le _))
  have hleft : ∀ {u : ℚ}, s.now ≤ u → u ≤ rounded (s.now + cooldownMax) →
      rounded (u - s.now) ≤ longestRest s.now := fun hlow hhigh =>
    (rounded_mono (sub_nonneg.mpr hlow) (sub_le_sub_right hhigh _)).trans (le_max_right _ _)
  rcases s.pool.refusal_cases s.now d exc with rfl | ⟨rfl, hresting⟩ | hclimbs
  · rw [s.pool.reportFailure_localAbort]
    have hnonneg : 0 ≤ localAbortCooldown := by norm_num [localAbortCooldown]
    have habort : rounded (s.now + localAbortCooldown) ≤ rounded (s.now + cooldownMax) :=
      h.rounded_add_le hnonneg ((localAbortCooldown_le_rest 0).trans (rest_le 0))
    exact hleft ((h.now_le_rounded hnonneg).trans (le_max_right _ _)) (max_le hnear habort)
  · rw [CfWorkerPool.reportFailure_resting hresting]
    exact hleft hresting.le hnear
  · obtain ⟨cooldown, hreport, hcooldown⟩ := CfWorkerPool.reportFailure_climbs hclimbs
    rw [hreport, hcooldown]
    exact (min_le_right _ _).trans (le_max_left _ _)

end Upright

lemma Reaches.upright {s : Ladder δ} (h : Reaches s) : Upright s := by
  refine Reachable.invariant (P := Upright) ?_ (fun s c s' _ hs _ hstep => hs.step hstep) h
  rintro s ⟨hpool, hclock, hdouble, hclimbed⟩
  refine ⟨hclock, hdouble, fun d => ?_, fun d => ?_⟩
  · rw [hpool, hclimbed]
    rfl
  · rw [hpool]
    exact rounded_nonneg (add_nonneg hclock (rest_nonneg _))

end Ladder

/-- **The ladder in every run.**  No report of a failure moves a deadline to an earlier time or asks
for a rest longer than `COOLDOWN_MAX`, rounded as the deadline is; the counter of a worker is the
number of its failures since its last success that were quota refusals or came while it was not
resting, up to `BACKOFF_STEPS`; an ordinary failure of a resting worker changes nothing, and a local
abort changes no counter; and `available_domains` returns, in some order, each given worker that is
not resting once. -/
theorem ladder_climbs {s : Ladder δ} (h : Ladder.Reaches s) :
    (∀ d exc, (∀ e, s.pool.restsUntil e ≤ (s.pool.reportFailure s.now d exc).2.restsUntil e) ∧
      (s.pool.reportFailure s.now d exc).1 ≤ longestRest s.now) ∧
    (∀ d, s.pool.rungs d = min backoffSteps (s.climbed d)) ∧
    (∀ d, s.now < s.pool.restsUntil d → (s.pool.reportFailure s.now d .other).2 = s.pool) ∧
    (∀ d, (s.pool.reportFailure s.now d .localAbort).2.failures = s.pool.failures) ∧
    ∀ ds shuffled : List δ, shuffled.Perm (s.pool.availableDomains s.now ds).1 →
      shuffled.Nodup ∧ ∀ d, d ∈ shuffled ↔ d ∈ ds ∧ s.pool.restsUntil d ≤ s.now := by
  have hup := h.upright
  refine ⟨fun d exc => ⟨hup.le_restsUntil d exc, hup.reportFailure_le d exc⟩, hup.counts,
    fun d hd => ?_, fun d => ?_, fun ds shuffled hperm => ?_⟩
  · rw [CfWorkerPool.reportFailure_resting hd]
  · rw [s.pool.reportFailure_localAbort]
  · obtain ⟨hnodup, hmem, -⟩ :=
      CfWorkerPool.availableTurn_foldl s.now ds [] s.pool List.nodup_nil
    refine ⟨hperm.nodup_iff.mpr hnodup, fun d => hperm.mem_iff.trans ?_⟩
    rw [CfWorkerPool.availableDomains_eq_foldl, hmem]
    simp

/-- Two failures in one rest and a quota refusal: two rungs, and a rest of half an hour. -/
theorem ladder_climbs_sample :
    ∃ s : Ladder String, exec Ladder.step [.reportFailure "a" .other, .tick 130,
        .reportFailure "a" .other, .reportFailure "a" .localAbort, .reportFailure "a" .quota]
        ⟨.new, 100, fun _ => 0⟩ = some s ∧
      s.pool.restsUntil "a" = 1930 ∧ s.pool.rungs "a" = min backoffSteps (s.climbed "a") := by
  have hrun : (exec Ladder.step [.reportFailure "a" .other, .tick 130,
      .reportFailure "a" .other, .reportFailure "a" .localAbort, .reportFailure "a" .quota]
      (⟨.new, 100, fun _ => 0⟩ : Ladder String)).map (fun s => s.pool.restsUntil "a") =
        some 1930 := by decide +kernel
  obtain ⟨s, hs, huntil⟩ := Option.map_eq_some_iff.mp hrun
  have hreaches : Ladder.Reaches s :=
    reachable_of_exec (.start ⟨rfl, by norm_num, by decide +kernel, rfl⟩) hs
  exact ⟨s, hs, huntil, (ladder_climbs hreaches).2.1 "a"⟩

/-- Six quota refusals within one instant at 255069.0257394217 s, and a further failure. -/
theorem rest_beyond_cooldownMax : ¬ ∀ s : Ladder String, Ladder.Reaches s →
    ∀ d exc, (s.pool.reportFailure s.now d exc).1 ≤ cooldownMax := by
  intro hclaim
  have hrun : (exec Ladder.step (List.replicate 6 (.reportFailure "a" .quota))
      (⟨.new, 8764104990187187 / 34359738368, fun _ => 0⟩ : Ladder String)).map (fun s =>
        decide ((s.pool.reportFailure s.now "a" .other).1 ≤ cooldownMax)) = some false := by
    decide +kernel
  obtain ⟨s, hs, hover⟩ := Option.map_eq_some_iff.mp hrun
  have hreaches : Ladder.Reaches s :=
    reachable_of_exec (.start ⟨rfl, by norm_num, by decide +kernel, rfl⟩) hs
  exact of_decide_eq_false hover (hclaim s hreaches "a" .other)

end TgWsProxy.CfWorker
