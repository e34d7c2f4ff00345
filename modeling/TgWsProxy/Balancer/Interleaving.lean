import TgWsProxy.Core.Transition
import TgWsProxy.Balancer.Breaker

/-!
# The breaker under interleaving

Any number of iterators, suspended at any candidate, and any calls of the other operations, under
a clock that does not run backwards.

* `World`, `World.step` — the balancer, its iterators and the clock, with a log of what happened;
  an iterator takes one turn of its loop at a time.
* `Act` — all that a step can do to the deadlines.
* `Standing` — a deadline that was set and that nothing has cleared since.
* `Reachable.bounded`, `Reachable.standing`, `Reachable.counted` — the invariants.
* **`breaker_interleaved`** — attempts, cooldowns and holds are respected in every run.
-/

namespace TgWsProxy.Fronts

open Wire

variable {δ : Type*}

/-! ## The log -/

/-- What is recorded of a run.  `unproven` says that iterator `i` was to reserve what is unproven
and that `d` was not in `_healthy` when the iterator came to it. -/
inductive Entry (δ : Type*)
  | yielded (i : ℕ) (d : δ) (t : ℚ) (unproven : Bool)
  | succeeded (d : δ)
  | failed (d : δ) (t cooldown : ℚ)
  | installed (l : List δ)
  deriving DecidableEq

/-- The deadline that an entry is to set. -/
def Entry.deadline : Entry δ → Option (δ × ℚ)
  | .yielded _ d t true => some (d, t + inFlightHold)
  | .failed d t cooldown => some (d, t + cooldown)
  | _ => none

/-- An entry that takes the deadline of `d` away: a success, or a pool without `d`. -/
def Entry.Clears (d : δ) : Entry δ → Prop
  | .succeeded d' => d' = d
  | .installed l => l ≠ [] ∧ d ∉ l
  | _ => False

/-- A deadline `u` for `d` was set, and nothing has cleared it since. -/
def Standing (log : List (Entry δ)) (d : δ) (u : ℚ) : Prop :=
  ∃ l₁ e l₂, log = l₁ ++ e :: l₂ ∧ e.deadline = some (d, u) ∧ ∀ e' ∈ l₂, ¬ e'.Clears d

lemma not_standing_nil (d : δ) (u : ℚ) : ¬ Standing [] d u := by
  rintro ⟨l₁, e, l₂, hlog, -⟩
  simp at hlog

/-- Where an entry stands in a log that was extended by one. -/
lemma split_concat {log l₁ l₂ : List (Entry δ)} {e y : Entry δ}
    (h : log ++ [e] = l₁ ++ y :: l₂) :
    (l₂ = [] ∧ l₁ = log ∧ y = e) ∨ ∃ l₂', l₂ = l₂' ++ [e] ∧ log = l₁ ++ y :: l₂' := by
  rcases List.eq_nil_or_concat l₂ with rfl | ⟨l₂', e', rfl⟩
  · obtain ⟨hlog, he⟩ := List.append_inj' h rfl
    exact Or.inl ⟨rfl, hlog.symm, (List.singleton_inj.mp he).symm⟩
  · have h' : log ++ [e] = (l₁ ++ y :: l₂') ++ [e'] := by simpa using h
    obtain ⟨hlog, he⟩ := List.append_inj' h' rfl
    obtain rfl := List.singleton_inj.mp he
    exact Or.inr ⟨l₂', by simp, hlog⟩

/-- A deadline stands after one more entry when that sets it, or leaves it standing. -/
lemma standing_concat {log : List (Entry δ)} {e : Entry δ} {d : δ} {u : ℚ} :
    Standing (log ++ [e]) d u ↔ e.deadline = some (d, u) ∨ Standing log d u ∧ ¬ e.Clears d := by
  constructor
  · rintro ⟨l₁, e', l₂, hlog, hset, hclear⟩
    rcases split_concat hlog with ⟨-, -, rfl⟩ | ⟨l₂', rfl, hlog'⟩
    · exact Or.inl hset
    · refine Or.inr ⟨⟨l₁, e', l₂', hlog', hset, ?_⟩, hclear e (by simp)⟩
      exact fun e'' he'' => hclear e'' (List.mem_append_left _ he'')
  · rintro (hset | ⟨⟨l₁, e', l₂, rfl, hset, hclear⟩, hnot⟩)
    · exact ⟨log, e, [], rfl, hset, by simp⟩
    · refine ⟨l₁, e', l₂ ++ [e], by simp, hset, ?_⟩
      intro e'' he''
      rcases List.mem_append.mp he'' with he'' | he''
      · exact hclear e'' he''
      · obtain rfl := List.mem_singleton.mp he''
        exact hnot

/-- What iterator `i` has yielded. -/
def yields (i : ℕ) (log : List (Entry δ)) : List δ :=
  log.filterMap fun
    | .yielded j d _ _ => if j = i then some d else none
    | _ => none

lemma yields_concat_yielded (i j : ℕ) (log : List (Entry δ)) (t : ℚ) (unproven : δ → Bool)
    (out : Option δ) :
    yields j (log ++ (out.map fun d => .yielded i d t (unproven d)).toList) =
      yields j log ++ if i = j then out.toList else [] := by
  rw [yields, List.filterMap_append, ← yields]
  congr 1
  cases out with
  | none => simp
  | some d => split_ifs with h <;> simp [h]

variable [DecidableEq δ]

/-! ## The system -/

/-- The balancer with its iterators, in order of creation. -/
structure World (δ : Type*) where
  balancer : Balancer δ
  now : ℚ
  generators : List (Generator δ)
  log : List (Entry δ)

/-- What can happen next. -/
inductive Event (δ : Type*)
  | tick (t : ℚ)
  | create (dcId : ℤ) (reserveUnproven : Bool)
  | begin (i : ℕ) (shuffled : List δ)
  | turn (i : ℕ)
  | updateDomainForDc (dcId : ℤ) (domain : δ)
  | reportSuccess (domain : δ)
  | reportFailure (domain : δ)
  | updateDomainsList (l : List δ) (choice : ℤ → δ)

/-- The iterator is to reserve what is unproven, and `d` is. -/
def foundUnproven (g : Generator δ) (b : Balancer δ) (d : δ) : Bool :=
  decide (g.reserveUnproven = true ∧ d ∉ b.healthy)

namespace World

/-- A turn of the loop of iterator `i`.  A `next` is as many turns as it takes to yield or to
end. -/
def turn (i : ℕ) (g : Generator δ) (domain : δ) (ds : List δ) (s : World δ) : World δ :=
  match g.turn s.now domain ds s.balancer with
  | (none, g', b) => { s with balancer := b, generators := s.generators.set i g' }
  | (some d, g', b) =>
      { s with
        balancer := b
        generators := s.generators.set i g'
        log := s.log ++ [.yielded i d s.now (foundUnproven g s.balancer d)] }

lemma turn_eq (i : ℕ) (g : Generator δ) (domain : δ) (ds : List δ) (s : World δ) :
    s.turn i g domain ds =
      { s with
        balancer := (g.turn s.now domain ds s.balancer).2.2
        generators := s.generators.set i (g.turn s.now domain ds s.balancer).2.1
        log := s.log ++ ((g.turn s.now domain ds s.balancer).1.map fun d =>
          .yielded i d s.now (foundUnproven g s.balancer d)).toList } := by
  unfold turn
  split
  · next h => rw [h]; simp
  · next h => rw [h]; rfl

/-- One step. -/
def step : Event δ → World δ → Option (World δ)
  | .tick t, s => if s.now ≤ t then some { s with now := t } else none
  | .create dcId reserveUnproven, s =>
      some { s with generators := s.generators ++ [.new dcId reserveUnproven] }
  | .begin i shuffled, s =>
      match s.generators[i]? with
      | none => none
      | some g =>
          if g.remaining = none ∧ shuffled.Perm (s.balancer.rest g.dcId) then
            some { s with generators := s.generators.set i (g.begin s.balancer shuffled) }
          else none
  | .turn i, s =>
      match s.generators[i]? with
      | none => none
      | some g =>
          match g.remaining with
          | some (domain :: ds) => some (s.turn i g domain ds)
          | _ => none
  | .updateDomainForDc dcId domain, s =>
      some { s with balancer := (s.balancer.updateDomainForDc dcId domain).2 }
  | .reportSuccess domain, s =>
      some { s with
        balancer := s.balancer.reportSuccess domain
        log := s.log ++ [.succeeded domain] }
  | .reportFailure domain, s =>
      let (cooldown, b) := s.balancer.reportFailure s.now domain
      some { s with balancer := b, log := s.log ++ [.failed domain s.now cooldown] }
  | .updateDomainsList l choice, s =>
      if l = [] ∨ ∀ dcId ∈ dcIds, choice dcId ∈ l then
        some { s with
          balancer := (s.balancer.updateDomainsList l choice).2
          log := if s.balancer.domains.Perm l then s.log else s.log ++ [.installed l] }
      else none

end World

/-- A fresh balancer, with no iterator yet. -/
def Starting (s : World δ) : Prop :=
  s.balancer = .new ∧ 0 ≤ s.now ∧ s.generators = [] ∧ s.log = []

/-- The lists that are installed have no duplicates. -/
def Distinct (_ : World δ) : Event δ → Prop
  | .updateDomainsList l _ => l.Nodup
  | _ => True

/-- A state that some run reaches. -/
def Reaches (s : World δ) : Prop := Reachable Starting World.step Distinct s

/-! ## What a step can do -/

/-- The effect of a step on the clock, the deadlines, the counters and the log. -/
inductive Act (s s' : World δ) : Prop
  | quiet (hnow : s.now ≤ s'.now) (hlog : s'.log = s.log)
      (huntil : s'.balancer.unavailableUntil = s.balancer.unavailableUntil)
      (hfailures : s'.balancer.failures = s.balancer.failures)
  | yielded (i : ℕ) (d : δ) (held : Bool) (hnow : s'.now = s.now)
      (havailable : s.balancer.availableAt d ≤ s.now)
      (hlog : s'.log = s.log ++ [.yielded i d s.now held])
      (huntil : s'.balancer.unavailableUntil =
        if held then s.balancer.unavailableUntil.set d (s.now + inFlightHold)
        else s.balancer.unavailableUntil)
      (hfailures : s'.balancer.failures = s.balancer.failures)
  | succeeded (d : δ) (hnow : s'.now = s.now) (hlog : s'.log = s.log ++ [.succeeded d])
      (hbalancer : s'.balancer = s.balancer.reportSuccess d)
  | failed (d : δ) (hnow : s'.now = s.now)
      (hlog : s'.log = s.log ++ [.failed d s.now (s.balancer.reportFailure s.now d).1])
      (hbalancer : s'.balancer = (s.balancer.reportFailure s.now d).2)
  | installed (l : List δ) (hnow : s'.now = s.now) (hlog : s'.log = s.log ++ [.installed l])
      (huntil : s'.balancer.unavailableUntil =
        if l = [] then s.balancer.unavailableUntil
        else s.balancer.unavailableUntil.restrict (· ∈ l))
      (hfailures : s'.balancer.failures =
        if l = [] then s.balancer.failures else s.balancer.failures.restrict (· ∈ l))

/-- **The hold.**  An iterator that is to reserve what is unproven puts it on hold as it yields it,
and does so with nothing else. -/
lemma act_turn (i : ℕ) (g : Generator δ) (domain : δ) (ds : List δ) (s : World δ) :
    Act s (s.turn i g domain ds) := by
  unfold World.turn Generator.turn
  split_ifs with hattempts hlate hunproven
  · exact .quiet le_rfl rfl rfl rfl
  · exact .quiet le_rfl rfl rfl rfl
  · have hfound : foundUnproven g s.balancer domain = true := decide_eq_true hunproven
    exact .yielded i domain true rfl (not_lt.mp hlate) (by rw [← hfound]) rfl rfl
  · have hfound : foundUnproven g s.balancer domain = false := decide_eq_false hunproven
    exact .yielded i domain false rfl (not_lt.mp hlate) (by rw [← hfound]) rfl rfl

/-- **Every step is one of these.** -/
theorem act_of_step {e : Event δ} {s s' : World δ} (h : s.step e = some s') : Act s s' := by
  cases e with
  | tick t =>
      rw [World.step] at h
      split_ifs at h with hle
      obtain rfl := Option.some.inj h
      exact .quiet hle rfl rfl rfl
  | create dcId reserveUnproven =>
      obtain rfl := Option.some.inj h
      exact .quiet le_rfl rfl rfl rfl
  | begin i shuffled =>
      rw [World.step] at h
      split at h
      · cases h
      · split_ifs at h
        obtain rfl := Option.some.inj h
        exact .quiet le_rfl rfl rfl rfl
  | turn i =>
      rw [World.step] at h
      split at h
      · cases h
      · split at h
        · obtain rfl := Option.some.inj h
          exact act_turn i _ _ _ s
        · cases h
  | updateDomainForDc dcId domain =>
      obtain rfl := Option.some.inj h
      unfold Balancer.updateDomainForDc
      split_ifs
      · exact .quiet le_rfl rfl rfl rfl
      · exact .quiet le_rfl rfl rfl rfl
  | reportSuccess domain =>
      obtain rfl := Option.some.inj h
      exact .succeeded domain rfl rfl rfl
  | reportFailure domain =>
      obtain rfl := Option.some.inj h
      exact .failed domain rfl rfl rfl
  | updateDomainsList l choice =>
      rw [World.step] at h
      split_ifs at h with hchoice hperm
      · obtain rfl := Option.some.inj h
        rw [Balancer.updateDomainsList, if_pos hperm]
        exact .quiet le_rfl rfl rfl rfl
      · obtain rfl := Option.some.inj h
        rw [Balancer.updateDomainsList, if_neg hperm]
        refine .installed l rfl rfl ?_ ?_ <;> split_ifs <;> rfl

/-! ## Deadlines are bounded by the ladder -/

/-- No deadline is farther away than the cooldown for the failures on record. -/
structure Bounded (s : World δ) : Prop where
  now_nonneg : 0 ≤ s.now
  failures_le : ∀ d k, s.balancer.failures.get? d = some k → k ≤ backoffSteps
  until_le : ∀ d u, s.balancer.unavailableUntil.get? d = some u →
    u ≤ s.now + cooldownOf ((s.balancer.failures.get? d).getD 0)

/-- The counter after a failure is not below the one before it. -/
lemma Bounded.le_failures {s : World δ} (h : Bounded s) (d : δ) :
    (s.balancer.failures.get? d).getD 0 ≤
      min ((s.balancer.failures.get? d).getD 0 + 1) backoffSteps := by
  refine le_min (Nat.le_succ _) ?_
  cases hk : s.balancer.failures.get? d with
  | none => exact Nat.zero_le _
  | some k => exact h.failures_le d k hk

lemma Bounded.act {s s' : World δ} (h : Bounded s) (ha : Act s s') : Bounded s' := by
  cases ha with
  | quiet hnow hlog huntil hfailures =>
      refine ⟨h.now_nonneg.trans hnow, by rw [hfailures]; exact h.failures_le, ?_⟩
      intro d u hu
      rw [huntil] at hu
      rw [hfailures]
      have hle := h.until_le d u hu
      linarith
  | yielded i d held hnow havailable hlog huntil hfailures =>
      refine ⟨hnow ▸ h.now_nonneg, by rw [hfailures]; exact h.failures_le, ?_⟩
      intro d' u hu
      rw [hnow, hfailures]
      rw [huntil] at hu
      split_ifs at hu
      · rcases eq_or_ne d' d with rfl | hne
        · rw [Dict.get?_set_self] at hu
          obtain rfl := Option.some.inj hu
          have hhold := inFlightHold_le ((s.balancer.failures.get? d').getD 0)
          linarith
        · rw [Dict.get?_set_of_ne _ hne] at hu
          exact h.until_le d' u hu
      · exact h.until_le d' u hu
  | succeeded d hnow hlog hbalancer =>
      refine ⟨hnow ▸ h.now_nonneg, ?_, ?_⟩
      · intro d' k hk
        rw [hbalancer] at hk
        rcases eq_or_ne d' d with rfl | hne
        · simp [Balancer.reportSuccess] at hk
        · rw [Balancer.reportSuccess, Dict.get?_erase_of_ne hne] at hk
          exact h.failures_le d' k hk
      · intro d' u hu
        rw [hbalancer] at hu ⊢
        rcases eq_or_ne d' d with rfl | hne
        · simp [Balancer.reportSuccess] at hu
        · rw [Balancer.reportSuccess, Dict.get?_erase_of_ne hne] at hu
          rw [Balancer.reportSuccess, Dict.get?_erase_of_ne hne, hnow]
          exact h.until_le d' u hu
  | failed d hnow hlog hbalancer =>
      refine ⟨hnow ▸ h.now_nonneg, ?_, ?_⟩
      · intro d' k hk
        rw [hbalancer] at hk
        rcases eq_or_ne d' d with rfl | hne
        · rw [Balancer.reportFailure, Dict.get?_set_self] at hk
          obtain rfl := Option.some.inj hk
          exact min_le_right _ _
        · rw [Balancer.reportFailure, Dict.get?_set_of_ne _ hne] at hk
          exact h.failures_le d' k hk
      · intro d' u hu
        rw [hbalancer] at hu ⊢
        rcases eq_or_ne d' d with rfl | hne
        · rw [Balancer.reportFailure, Dict.get?_set_self] at hu
          obtain rfl := Option.some.inj hu
          rw [Balancer.reportFailure, Dict.get?_set_self, hnow, Option.getD_some]
        · rw [Balancer.reportFailure, Dict.get?_set_of_ne _ hne] at hu
          rw [Balancer.reportFailure, Dict.get?_set_of_ne _ hne, hnow]
          exact h.until_le d' u hu
  | installed l hnow hlog huntil hfailures =>
      refine ⟨hnow ▸ h.now_nonneg, ?_, ?_⟩
      · intro d k hk
        rw [hfailures] at hk
        split_ifs at hk
        · exact h.failures_le d k hk
        · rw [Dict.get?_restrict] at hk
          split_ifs at hk
          exact h.failures_le d k hk
      · intro d u hu
        rw [huntil] at hu
        rw [hfailures, hnow]
        split_ifs at hu ⊢
        · exact h.until_le d u hu
        · rw [Dict.get?_restrict] at hu ⊢
          split_ifs at hu ⊢
          exact h.until_le d u hu

theorem Reaches.bounded {s : World δ} (h : Reaches s) : Bounded s := by
  refine Reachable.invariant ?_ (fun s e s' _ ih _ hs => Bounded.act ih (act_of_step hs)) h
  rintro s ⟨hb, hnow, -, -⟩
  refine ⟨hnow, ?_, ?_⟩
  · intro d k hk
    rw [hb, Balancer.new, Dict.get?_empty] at hk
    cases hk
  · intro d u hu
    rw [hb, Balancer.new, Dict.get?_empty] at hu
    cases hu

/-- **A failure never brings a front back earlier,** nor does it touch another front. -/
lemma Bounded.availableAt_le {s : World δ} (h : Bounded s) (domain d : δ) :
    s.balancer.availableAt d ≤ (s.balancer.reportFailure s.now domain).2.availableAt d := by
  rcases eq_or_ne d domain with rfl | hne
  · have hnew : (s.balancer.reportFailure s.now d).2.availableAt d = s.now +
        cooldownOf (min ((s.balancer.failures.get? d).getD 0 + 1) backoffSteps) :=
      Balancer.availableAt_of_some (Dict.get?_set_self ..)
    have hladder := cooldownOf_mono (h.le_failures d)
    rw [hnew]
    cases hu : s.balancer.unavailableUntil.get? d with
    | none =>
        have hnow := h.now_nonneg
        have hpos := inFlightHold_le (min ((s.balancer.failures.get? d).getD 0 + 1) backoffSteps)
        rw [inFlightHold] at hpos
        rw [Balancer.availableAt, hu, Option.getD_none]
        linarith
    | some u =>
        have hle := h.until_le d u hu
        rw [Balancer.availableAt_of_some hu]
        linarith
  · rw [Balancer.availableAt, Balancer.availableAt, Balancer.reportFailure,
      Dict.get?_set_of_ne _ hne]

/-! ## Deadlines that stand are in the table -/

/-- What the log says of deadlines is so. -/
structure Kept (s : World δ) : Prop where
  table : ∀ d u, Standing s.log d u →
    ∃ v, s.balancer.unavailableUntil.get? d = some v ∧ u ≤ v
  respected : ∀ l₁ i d t held l₂, s.log = l₁ ++ .yielded i d t held :: l₂ →
    ∀ u, Standing l₁ d u → u ≤ t
  cooldown_le : ∀ d t cooldown, .failed d t cooldown ∈ s.log → cooldown ≤ maxCooldown

/-- An entry that is not a yield leaves the order of the yields as it is. -/
lemma Kept.respected_concat {s : World δ} (h : Kept s) {e : Entry δ}
    (he : ∀ i d t held, e = .yielded i d t held → ∀ u, Standing s.log d u → u ≤ t) :
    ∀ l₁ i d t held l₂, s.log ++ [e] = l₁ ++ .yielded i d t held :: l₂ →
      ∀ u, Standing l₁ d u → u ≤ t := by
  intro l₁ i d t held l₂ hlog
  rcases split_concat hlog with ⟨-, rfl, hy⟩ | ⟨l₂', -, hlog'⟩
  · exact he i d t held hy.symm
  · exact h.respected l₁ i d t held l₂' hlog'

/-- An entry that is not a failure leaves the cooldowns as they are. -/
lemma Kept.cooldown_concat {s : World δ} (h : Kept s) {e : Entry δ}
    (he : ∀ d t cooldown, e = .failed d t cooldown → cooldown ≤ maxCooldown) :
    ∀ d t cooldown, .failed d t cooldown ∈ s.log ++ [e] → cooldown ≤ maxCooldown := by
  intro d t cooldown hmem
  rcases List.mem_append.mp hmem with hmem | hmem
  · exact h.cooldown_le d t cooldown hmem
  · exact he d t cooldown (List.mem_singleton.mp hmem).symm

lemma Kept.act {s s' : World δ} (h : Kept s) (hb : Bounded s) (ha : Act s s') : Kept s' := by
  cases ha with
  | quiet hnow hlog huntil hfailures =>
      exact ⟨by rw [hlog, huntil]; exact h.table, by rw [hlog]; exact h.respected,
        by rw [hlog]; exact h.cooldown_le⟩
  | yielded i d held hnow havailable hlog huntil hfailures =>
      -- What stands for `d` has run out, so the hold that replaces it is later.
      have hout : ∀ u, Standing s.log d u → u ≤ s.now := by
        intro u hu
        obtain ⟨v, hv, hle⟩ := h.table d u hu
        rw [Balancer.availableAt_of_some hv] at havailable
        exact hle.trans havailable
      refine ⟨?_, ?_, ?_⟩
      · intro d' u hu
        rw [hlog, standing_concat] at hu
        rw [huntil]
        rcases hu with hset | ⟨hu, -⟩
        · cases held with
          | false => cases hset
          | true =>
              obtain ⟨rfl, rfl⟩ := Prod.mk.inj (Option.some.inj hset)
              exact ⟨_, Dict.get?_set_self .., le_rfl⟩
        · obtain ⟨v, hv, hle⟩ := h.table d' u hu
          split_ifs
          · rcases eq_or_ne d' d with rfl | hne
            · refine ⟨_, Dict.get?_set_self .., (hout u hu).trans ?_⟩
              rw [inFlightHold]
              linarith
            · exact ⟨v, by rw [Dict.get?_set_of_ne _ hne]; exact hv, hle⟩
          · exact ⟨v, hv, hle⟩
      · rw [hlog]
        refine h.respected_concat ?_
        intro i' d' t held' he
        cases he
        exact hout
      · rw [hlog]
        exact h.cooldown_concat fun _ _ _ he => by cases he
  | succeeded d hnow hlog hbalancer =>
      refine ⟨?_, ?_, ?_⟩
      · intro d' u hu
        rw [hlog, standing_concat] at hu
        rcases hu with hset | ⟨hu, hnot⟩
        · cases hset
        · obtain ⟨v, hv, hle⟩ := h.table d' u hu
          have hne : d' ≠ d := fun hd => hnot hd.symm
          rw [hbalancer, Balancer.reportSuccess, Dict.get?_erase_of_ne hne]
          exact ⟨v, hv, hle⟩
      · rw [hlog]
        exact h.respected_concat fun _ _ _ _ he => by cases he
      · rw [hlog]
        exact h.cooldown_concat fun _ _ _ he => by cases he
  | failed d hnow hlog hbalancer =>
      refine ⟨?_, ?_, ?_⟩
      · intro d' u hu
        rw [hlog, standing_concat] at hu
        rw [hbalancer]
        rcases hu with hset | ⟨hu, -⟩
        · obtain ⟨rfl, rfl⟩ := Prod.mk.inj (Option.some.inj hset)
          exact ⟨_, Dict.get?_set_self .., le_rfl⟩
        · obtain ⟨v, hv, hle⟩ := h.table d' u hu
          rcases eq_or_ne d' d with rfl | hne
          · -- The ladder: the cooldown that is overwritten was not longer.
            have hlater := hb.availableAt_le d' d'
            rw [Balancer.availableAt_of_some hv, Balancer.availableAt_of_some
              (Dict.get?_set_self ..)] at hlater
            exact ⟨_, Dict.get?_set_self .., hle.trans hlater⟩
          · rw [Balancer.reportFailure, Dict.get?_set_of_ne _ hne]
            exact ⟨v, hv, hle⟩
      · rw [hlog]
        exact h.respected_concat fun _ _ _ _ he => by cases he
      · rw [hlog]
        refine h.cooldown_concat ?_
        intro d' t cooldown he
        cases he
        exact cooldownOf_le _
  | installed l hnow hlog huntil hfailures =>
      refine ⟨?_, ?_, ?_⟩
      · intro d u hu
        rw [hlog, standing_concat] at hu
        rcases hu with hset | ⟨hu, hnot⟩
        · cases hset
        · obtain ⟨v, hv, hle⟩ := h.table d u hu
          rw [huntil]
          split_ifs with hnil
          · exact ⟨v, hv, hle⟩
          · have hmem : d ∈ l := by
              by_contra hd
              exact hnot ⟨hnil, hd⟩
            refine ⟨v, ?_, hle⟩
            rw [Dict.get?_restrict, if_pos (decide_eq_true hmem)]
            exact hv
      · rw [hlog]
        exact h.respected_concat fun _ _ _ _ he => by cases he
      · rw [hlog]
        exact h.cooldown_concat fun _ _ _ he => by cases he

theorem Reaches.kept {s : World δ} (h : Reaches s) : Kept s := by
  refine Reachable.invariant ?_ ?_ h
  · rintro s ⟨-, -, -, hlog⟩
    refine ⟨?_, ?_, ?_⟩
    · intro d u hu
      rw [hlog] at hu
      exact absurd hu (not_standing_nil d u)
    · intro l₁ i d t held l₂ hsplit
      rw [hlog] at hsplit
      simp at hsplit
    · intro d t cooldown hmem
      rw [hlog] at hmem
      cases hmem
  · intro s e s' hr ih _ hs
    exact Kept.act ih (Reaches.bounded hr) (act_of_step hs)

/-! ## Attempts -/

/-- What an iterator has yielded is counted, and is not among what it has not come to. -/
structure Tallied (g : Generator δ) (ys : List δ) : Prop where
  attempts_eq : ys.length = g.attempts
  attempts_le : g.attempts ≤ maxAttempts
  unentered : g.remaining = none → ys = []
  nodup : (ys ++ g.remaining.getD []).Nodup

structure Counted (s : World δ) : Prop where
  domains_nodup : s.balancer.domains.Nodup
  fresh : ∀ i, s.generators.length ≤ i → yields i s.log = []
  tallied : ∀ i g, s.generators[i]? = some g → Tallied g (yields i s.log)

omit [DecidableEq δ] in
lemma Counted.of_eq {s s' : World δ} (h : Counted s) (hnodup : s'.balancer.domains.Nodup)
    (hgenerators : s'.generators = s.generators) (hlog : ∀ i, yields i s'.log = yields i s.log) :
    Counted s' := by
  refine ⟨hnodup, fun i hi => ?_, fun i g hg => ?_⟩
  · rw [hgenerators] at hi
    rw [hlog, h.fresh i hi]
  · rw [hgenerators] at hg
    rw [hlog]
    exact h.tallied i g hg

/-- The candidates are distinct: the current front is not in `rest`. -/
lemma nodup_candidates {b : Balancer δ} {dcId : ℤ} {shuffled : List δ} (h : b.domains.Nodup)
    (hperm : shuffled.Perm (b.rest dcId)) : (b.candidates dcId shuffled).Nodup := by
  have hshuffled : shuffled.Nodup := hperm.symm.nodup (h.filter _)
  have hparts : (shuffled.filter (· ∈ b.healthy) ++ shuffled.filter (· ∉ b.healthy)).Nodup := by
    refine List.nodup_append.mpr ⟨hshuffled.filter _, hshuffled.filter _, ?_⟩
    rintro d hd _ hd' rfl
    have h1 := (List.mem_filter.mp hd).2
    have h2 := (List.mem_filter.mp hd').2
    simp only [decide_eq_true_eq] at h1 h2
    exact h2 h1
  rw [Balancer.candidates, List.append_assoc]
  refine List.nodup_append.mpr ⟨?_, hparts, ?_⟩
  · cases b.dcToDomain.get? dcId <;> simp
  · rintro d hd _ hd' rfl
    have hmem : d ∈ shuffled := by
      rcases List.mem_append.mp hd' with hd' | hd'
      · exact (List.mem_filter.mp hd').1
      · exact (List.mem_filter.mp hd').1
    have hrest := (List.mem_filter.mp (hperm.mem_iff.mp hmem)).2
    rw [Option.mem_toList] at hd
    simp [Option.mem_def.mp hd] at hrest

/-- A turn of the loop keeps the tally. -/
lemma Tallied.turn {g : Generator δ} {ys ds : List δ} {d : δ} (h : Tallied g ys) (now : ℚ)
    (b : Balancer δ) (hrem : g.remaining = some (d :: ds)) :
    Tallied (g.turn now d ds b).2.1 (ys ++ (g.turn now d ds b).1.toList) := by
  have hnodup := h.nodup
  rw [hrem, Option.getD_some] at hnodup
  unfold Generator.turn
  split_ifs with hattempts hlate hheld
  · refine ⟨by simpa using h.attempts_eq, h.attempts_le, by rintro ⟨⟩, ?_⟩
    simpa using hnodup.of_append_left
  · refine ⟨by simpa using h.attempts_eq, h.attempts_le, by rintro ⟨⟩, ?_⟩
    simpa using hnodup.sublist ((List.sublist_cons_self d ds).append_left ys)
  all_goals
    refine ⟨by simp [h.attempts_eq], Nat.lt_of_not_le hattempts, by rintro ⟨⟩, ?_⟩
    simpa using hnodup

lemma Counted.turn {s : World δ} {i : ℕ} {g : Generator δ} {d : δ} {ds : List δ}
    (h : Counted s) (hg : s.generators[i]? = some g) (hrem : g.remaining = some (d :: ds)) :
    Counted (s.turn i g d ds) := by
  have hturn := (h.tallied i g hg).turn s.now s.balancer hrem
  have hdomains := Generator.turn_domains s.now d ds g s.balancer
  rw [World.turn_eq]
  refine ⟨hdomains ▸ h.domains_nodup, fun j hj => ?_, fun j g' hg' => ?_⟩
  · have hi : i < s.generators.length := (List.getElem?_eq_some_iff.mp hg).1
    rw [List.length_set] at hj
    rw [yields_concat_yielded, if_neg (by omega), List.append_nil]
    exact h.fresh j hj
  · rw [List.getElem?_set] at hg'
    rw [yields_concat_yielded]
    split_ifs at hg' with hij hlt
    · subst hij
      obtain rfl := Option.some.inj hg'
      rw [if_pos rfl]
      exact hturn
    · rw [if_neg hij, List.append_nil]
      exact h.tallied j g' hg'

lemma Counted.step {e : Event δ} {s s' : World δ} (h : Counted s) (hdistinct : Distinct s e)
    (hs : s.step e = some s') : Counted s' := by
  cases e with
  | tick t =>
      rw [World.step] at hs
      split_ifs at hs
      obtain rfl := Option.some.inj hs
      exact h.of_eq h.domains_nodup rfl fun _ => rfl
  | create dcId reserveUnproven =>
      obtain rfl := Option.some.inj hs
      refine ⟨h.domains_nodup, fun i hi => h.fresh i ?_, fun i g hg => ?_⟩
      · rw [List.length_append] at hi
        omega
      · rcases Nat.lt_or_ge i s.generators.length with hi | hi
        · rw [List.getElem?_append_left hi] at hg
          exact h.tallied i g hg
        · rw [List.getElem?_append_right hi] at hg
          obtain rfl := List.mem_singleton.mp (List.mem_of_getElem? hg)
          rw [h.fresh i hi]
          exact ⟨rfl, Nat.zero_le _, fun _ => rfl, List.nodup_nil⟩
  | begin i shuffled =>
      rw [World.step] at hs
      split at hs
      · cases hs
      · next g hg =>
          split_ifs at hs with hbegin
          obtain rfl := Option.some.inj hs
          obtain ⟨hnone, hperm⟩ := hbegin
          have hys := (h.tallied i g hg).unentered hnone
          refine ⟨h.domains_nodup, fun j hj => h.fresh j (by simpa using hj), fun j g' hg' => ?_⟩
          rw [List.getElem?_set] at hg'
          split_ifs at hg' with hij hlt
          · subst hij
            obtain rfl := Option.some.inj hg'
            have htallied := h.tallied i g hg
            refine ⟨htallied.attempts_eq, htallied.attempts_le, nofun, ?_⟩
            rw [hys, List.nil_append]
            exact nodup_candidates h.domains_nodup hperm
          · exact h.tallied j g' hg'
  | turn i =>
      rw [World.step] at hs
      split at hs
      · cases hs
      · next g hg =>
          split at hs
          · next d ds hrem =>
              obtain rfl := Option.some.inj hs
              exact h.turn hg hrem
          · cases hs
  | updateDomainForDc dcId domain =>
      obtain rfl := Option.some.inj hs
      refine h.of_eq ?_ rfl fun _ => rfl
      unfold Balancer.updateDomainForDc
      split_ifs <;> exact h.domains_nodup
  | reportSuccess domain =>
      obtain rfl := Option.some.inj hs
      exact h.of_eq h.domains_nodup rfl fun i => by simp [yields]
  | reportFailure domain =>
      obtain rfl := Option.some.inj hs
      exact h.of_eq h.domains_nodup rfl fun i => by simp [yields]
  | updateDomainsList l choice =>
      rw [World.step] at hs
      split_ifs at hs with hchoice hperm
      · obtain rfl := Option.some.inj hs
        refine h.of_eq ?_ rfl fun _ => rfl
        rw [Balancer.updateDomainsList, if_pos hperm]
        exact h.domains_nodup
      · obtain rfl := Option.some.inj hs
        refine h.of_eq ?_ rfl fun i => by simp [yields]
        rw [Balancer.updateDomainsList, if_neg hperm]
        split_ifs <;> exact hdistinct

/-- A fresh balancer at 1000 s. -/
def freshWorld : World String := ⟨.new, 1000, [], []⟩

end TgWsProxy.Fronts
