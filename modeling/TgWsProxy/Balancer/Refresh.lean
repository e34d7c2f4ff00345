import TgWsProxy.Core.Transition
import TgWsProxy.Balancer.Breaker

/-!
# Refreshing the pool under dials in flight

The hourly refresh of `proxy/config.py` replaces the pool while fallbacks of `proxy/bridge.py` are
dialling; they write their outcome back under the name they dialled.

* `Fallback`, `Service`, `Service.step` — `_cfproxy_fallback` up to its connection, any number of
  them, with the refresh.
* `Offered`, `Clean` — no departed front is offered to a later fallback, and none is remembered.
* `Current` — outcomes are written back for fronts of the pool only.
* **`service_current`** — then both hold in every state of a run.
* `departed_front_returns` — otherwise neither does.
-/

namespace TgWsProxy.Refresh

open Wire

variable {δ : Type*} [DecidableEq δ]

/-! ## The system -/

/-- Where a fallback stands: at its iterator, in a dial, between `report_success` and
`update_domain_for_dc`, or behind them. -/
inductive Phase (δ : Type*)
  | iterating
  | dialling (domain : δ)
  | connected (domain : δ)
  | done
  deriving DecidableEq

/-- `_cfproxy_fallback`.  `since` counts the refreshes before it took its iterator, and `offered`
is what that has yielded. -/
structure Fallback (δ : Type*) where
  generator : Generator δ
  phase : Phase δ
  since : ℕ
  offered : List δ

/-- The balancer, the fallbacks in order of their start, and the refreshes: how many, and the list
of the last. -/
structure Service (δ : Type*) where
  balancer : Balancer δ
  now : ℚ
  fallbacks : List (Fallback δ)
  refreshes : ℕ
  installed : List δ

/-- What can happen next. -/
inductive Event (δ : Type*)
  | tick (t : ℚ)
  | start (dcId : ℤ)
  | begin (i : ℕ) (shuffled : List δ)
  | turn (i : ℕ)
  | dialFailed (i : ℕ)
  | dialSucceeded (i : ℕ)
  | switch (i : ℕ)
  | refresh (l : List δ) (choice : ℤ → δ)

namespace Service

/-- Fallback `i` becomes `f`. -/
def put (i : ℕ) (f : Fallback δ) (s : Service δ) : Service δ :=
  { s with fallbacks := s.fallbacks.set i f }

/-- A turn of the loop over the iterator, up to the dial of what it yields. -/
def turn (i : ℕ) (f : Fallback δ) (domain : δ) (ds : List δ) (s : Service δ) : Service δ :=
  match f.generator.turn s.now domain ds s.balancer with
  | (none, g, b) => { s with balancer := b }.put i { f with generator := g }
  | (some d, g, b) =>
      { s with balancer := b }.put i
        { f with generator := g, phase := .dialling d, offered := f.offered ++ [d] }

/-- One step. -/
def step : Event δ → Service δ → Option (Service δ)
  | .tick t, s => if s.now ≤ t then some { s with now := t } else none
  | .start dcId, s =>
      some { s with
        fallbacks := s.fallbacks ++ [⟨.new dcId true, .iterating, s.refreshes, []⟩] }
  | .begin i shuffled, s =>
      match s.fallbacks[i]? with
      | none => none
      | some f =>
          if f.generator.remaining = none ∧ shuffled.Perm (s.balancer.rest f.generator.dcId) then
            some (s.put i { f with generator := f.generator.begin s.balancer shuffled })
          else none
  | .turn i, s =>
      match s.fallbacks[i]? with
      | none => none
      | some f =>
          match f.phase, f.generator.remaining with
          | .iterating, some (domain :: ds) => some (s.turn i f domain ds)
          | .iterating, some [] => some (s.put i { f with phase := .done })
          | _, _ => none
  | .dialFailed i, s =>
      match s.fallbacks[i]? with
      | none => none
      | some f =>
          match f.phase with
          | .dialling d =>
              some ({ s with balancer := (s.balancer.reportFailure s.now d).2 }.put i
                { f with phase := .iterating })
          | _ => none
  | .dialSucceeded i, s =>
      match s.fallbacks[i]? with
      | none => none
      | some f =>
          match f.phase with
          | .dialling d =>
              some ({ s with balancer := s.balancer.reportSuccess d }.put i
                { f with phase := .connected d })
          | _ => none
  | .switch i, s =>
      match s.fallbacks[i]? with
      | none => none
      | some f =>
          match f.phase with
          | .connected d =>
              some ({ s with
                balancer := (s.balancer.updateDomainForDc f.generator.dcId d).2 }.put i
                { f with phase := .done })
          | _ => none
  | .refresh l choice, s =>
      if l = [] ∨ ∀ dcId ∈ dcIds, choice dcId ∈ l then
        some { s with
          balancer := (s.balancer.updateDomainsList l choice).2
          refreshes := s.refreshes + 1
          installed := l }
      else none

end Service

/-- A fresh balancer, and nothing running. -/
def Starting (s : Service δ) : Prop :=
  s.balancer = .new ∧ s.fallbacks = [] ∧ s.installed = []

/-! ## What is wanted -/

/-- An iterator that was created after the last refresh has yielded fronts of its list only. -/
def Offered (s : Service δ) : Prop :=
  ∀ f ∈ s.fallbacks, f.since = s.refreshes → ∀ d ∈ f.offered, d ∈ s.installed

/-- A dial to `d` is in flight, or its outcome is being written back. -/
def Fallback.InFlight (d : δ) (f : Fallback δ) : Prop :=
  f.phase = .dialling d ∨ f.phase = .connected d

/-- The balancer keeps some state under the name `d`. -/
def Remembers (d : δ) (b : Balancer δ) : Prop :=
  d ∈ b.unavailableUntil.keys ∨ d ∈ b.failures.keys ∨ d ∈ b.healthy ∨ d ∈ b.dcToDomain.values

/-- Nothing is remembered of a front outside the pool, unless a dial to it is in flight. -/
def Clean (s : Service δ) : Prop :=
  ∀ d, d ∉ s.balancer.domains → (∀ f ∈ s.fallbacks, ¬ f.InFlight d) → ¬ Remembers d s.balancer

/-- An outcome is written back for a front of the pool, and the pool is not replaced by an empty
list. -/
def Current (s : Service δ) : Event δ → Prop
  | .dialFailed i => ∀ f d, s.fallbacks[i]? = some f → f.InFlight d → d ∈ s.balancer.domains
  | .dialSucceeded i => ∀ f d, s.fallbacks[i]? = some f → f.InFlight d → d ∈ s.balancer.domains
  | .switch i => ∀ f d, s.fallbacks[i]? = some f → f.InFlight d → d ∈ s.balancer.domains
  | .refresh l _ => l = [] → s.balancer.domains = []
  | _ => True

/-! ## The invariant -/

/-- A balancer that knows fronts of its pool only, the deadlines apart. -/
structure Pruned (b : Balancer δ) : Prop where
  active : ∀ dcId d, b.dcToDomain.get? dcId = some d → d ∈ b.domains
  failures : ∀ d k, b.failures.get? d = some k → d ∈ b.domains
  healthy : ∀ d ∈ b.healthy, d ∈ b.domains

/-- What a fallback has been offered, and will be, is in the list. -/
structure Within (domains : List δ) (f : Fallback δ) : Prop where
  offered : ∀ d ∈ f.offered, d ∈ domains
  remaining : ∀ ds, f.generator.remaining = some ds → ∀ d ∈ ds, d ∈ domains

structure Tidy (s : Service δ) : Prop where
  installed : ∀ d, d ∈ s.installed ↔ d ∈ s.balancer.domains
  pruned : Pruned s.balancer
  deadlines : ∀ d u, s.balancer.unavailableUntil.get? d = some u →
    d ∈ s.balancer.domains ∨ ∃ f ∈ s.fallbacks, f.InFlight d
  since_le : ∀ f ∈ s.fallbacks, f.since ≤ s.refreshes
  within : ∀ f ∈ s.fallbacks, f.since = s.refreshes → Within s.balancer.domains f

lemma Tidy.offered {s : Service δ} (h : Tidy s) : Offered s :=
  fun f hf hsince d hd => (h.installed d).mpr ((h.within f hf hsince).offered d hd)

lemma Tidy.clean {s : Service δ} (h : Tidy s) : Clean s := by
  rintro d hd hidle (hk | hk | hk | hk)
  · obtain ⟨u, hu⟩ := Dict.mem_keys.mp hk
    rcases h.deadlines d u (Dict.get?_eq_some.mpr hu) with hmem | ⟨f, hf, hflight⟩
    · exact hd hmem
    · exact hidle f hf hflight
  · obtain ⟨k, hk⟩ := Dict.mem_keys.mp hk
    exact hd (h.pruned.failures d k (Dict.get?_eq_some.mpr hk))
  · exact hd (h.pruned.healthy d hk)
  · obtain ⟨⟨dcId, d'⟩, hmem, rfl⟩ := List.mem_map.mp hk
    exact hd (h.pruned.active dcId d' (Dict.get?_eq_some.mpr hmem))

/-- The candidates of a pruned balancer are in the pool. -/
lemma Pruned.mem_candidates {b : Balancer δ} (h : Pruned b) {dcId : ℤ} {shuffled : List δ}
    (hperm : shuffled.Perm (b.rest dcId)) {d : δ} (hd : d ∈ b.candidates dcId shuffled) :
    d ∈ b.domains := by
  have hrest : d ∈ shuffled → d ∈ b.domains := fun hmem =>
    (List.mem_filter.mp (hperm.mem_iff.mp hmem)).1
  rw [Balancer.candidates] at hd
  rcases List.mem_append.mp hd with hd | hd
  · rcases List.mem_append.mp hd with hd | hd
    · exact h.active dcId d (Option.mem_def.mp (Option.mem_toList.mp hd))
    · exact hrest (List.mem_filter.mp hd).1
  · exact hrest (List.mem_filter.mp hd).1

/-- **One fallback moves.**  The pool stays; what the fallback had in flight is in the pool, or
still in flight; and a new deadline is for a front of the pool or one in flight. -/
lemma Tidy.put {s : Service δ} (h : Tidy s) {i : ℕ} {f f' : Fallback δ} {b : Balancer δ}
    (hf : s.fallbacks[i]? = some f) (hdomains : b.domains = s.balancer.domains) (hpruned : Pruned b)
    (hdeadlines : ∀ d u, b.unavailableUntil.get? d = some u →
      (∃ u', s.balancer.unavailableUntil.get? d = some u') ∨ d ∈ b.domains ∨ f'.InFlight d)
    (hflight : ∀ d, f.InFlight d → d ∈ b.domains ∨ f'.InFlight d)
    (hsince : f'.since = f.since)
    (hwithin : Within s.balancer.domains f → Within b.domains f') :
    Tidy ({ s with balancer := b }.put i f') := by
  have hmem : f ∈ s.fallbacks := List.mem_of_getElem? hf
  have hf' : f' ∈ s.fallbacks.set i f' :=
    List.mem_set (List.getElem?_eq_some_iff.mp hf).1 _
  have hset : ∀ g ∈ s.fallbacks.set i f', g ∈ s.fallbacks ∨ g = f' :=
    fun g hg => List.mem_or_eq_of_mem_set hg
  refine ⟨?_, hpruned, ?_, ?_, ?_⟩
  · intro d
    rw [Service.put, hdomains]
    exact h.installed d
  · intro d u hu
    rcases hdeadlines d u hu with ⟨u', hu'⟩ | hd | hd
    · rcases h.deadlines d u' hu' with hd | ⟨g, hg, hgd⟩
      · exact Or.inl (hdomains ▸ hd)
      · obtain ⟨k, hk, hgk⟩ := List.getElem_of_mem hg
        rcases eq_or_ne i k with rfl | hne
        · -- The fallback that moved was the one in flight.
          have hgf : f = g := by
            rw [List.getElem?_eq_getElem hk, hgk] at hf
            exact (Option.some.inj hf).symm
          rcases hflight d (hgf ▸ hgd) with hd | hd
          · exact Or.inl hd
          · exact Or.inr ⟨f', hf', hd⟩
        · refine Or.inr ⟨g, ?_, hgd⟩
          refine List.mem_of_getElem? (i := k) ?_
          rw [Service.put, List.getElem?_set_ne hne, List.getElem?_eq_getElem hk, hgk]
    · exact Or.inl hd
    · exact Or.inr ⟨f', hf', hd⟩
  · intro g hg
    rcases hset g hg with hg | rfl
    · exact h.since_le g hg
    · rw [hsince]
      exact h.since_le f hmem
  · intro g hg hgs
    rcases hset g hg with hg | rfl
    · have hw := h.within g hg hgs
      exact ⟨hdomains ▸ hw.offered, hdomains ▸ hw.remaining⟩
    · exact hwithin (h.within f hmem (hsince ▸ hgs))

/-! ## The operations -/

lemma Pruned.turn {b : Balancer δ} (h : Pruned b) (now : ℚ) (domain : δ) (ds : List δ)
    (g : Generator δ) : Pruned (g.turn now domain ds b).2.2 := by
  unfold Generator.turn
  split_ifs <;> exact ⟨h.active, h.failures, h.healthy⟩

lemma Pruned.reportFailure {b : Balancer δ} (h : Pruned b) (now : ℚ) {domain : δ}
    (hmem : domain ∈ b.domains) : Pruned (b.reportFailure now domain).2 := by
  refine ⟨h.active, fun d k hk => ?_, fun d hd => h.healthy d (Finset.mem_of_mem_erase hd)⟩
  rcases eq_or_ne d domain with rfl | hne
  · exact hmem
  · rw [Balancer.reportFailure, Dict.get?_set_of_ne _ hne] at hk
    exact h.failures d k hk

lemma Pruned.reportSuccess {b : Balancer δ} (h : Pruned b) {domain : δ}
    (hmem : domain ∈ b.domains) : Pruned (b.reportSuccess domain) := by
  refine ⟨h.active, fun d k hk => ?_, fun d hd => ?_⟩
  · rcases eq_or_ne d domain with rfl | hne
    · exact hmem
    · rw [Balancer.reportSuccess, Dict.get?_erase_of_ne hne] at hk
      exact h.failures d k hk
  · rcases Finset.mem_insert.mp hd with rfl | hd
    · exact hmem
    · exact h.healthy d hd

lemma Pruned.updateDomainForDc {b : Balancer δ} (h : Pruned b) (dcId : ℤ) {domain : δ}
    (hmem : domain ∈ b.domains) : Pruned (b.updateDomainForDc dcId domain).2 := by
  unfold Balancer.updateDomainForDc
  split_ifs
  · exact h
  · refine ⟨fun dcId' d hd => ?_, h.failures, h.healthy⟩
    rcases eq_or_ne dcId' dcId with rfl | hne
    · rw [Dict.get?_set_self] at hd
      exact Option.some.inj hd ▸ hmem
    · rw [Dict.get?_set_of_ne _ hne] at hd
      exact h.active dcId' d hd

omit [DecidableEq δ] in
/-- The values that a list of keys is given. -/
lemma get?_foldl_set {choice : ℤ → δ} {dcId : ℤ} {d : δ} :
    ∀ {ids : List ℤ} {m : Dict ℤ δ},
      (ids.foldl (fun m dcId => m.set dcId (choice dcId)) m).get? dcId = some d →
      (dcId ∈ ids ∧ choice dcId = d) ∨ m.get? dcId = some d
  | [], _, h => Or.inr h
  | id :: ids, m, h => by
      rw [List.foldl_cons] at h
      rcases get?_foldl_set h with ⟨hmem, hd⟩ | hget
      · exact Or.inl ⟨List.mem_cons_of_mem _ hmem, hd⟩
      · rcases eq_or_ne dcId id with rfl | hne
        · rw [Dict.get?_set_self] at hget
          exact Or.inl ⟨List.mem_cons_self, Option.some.inj hget⟩
        · rw [Dict.get?_set_of_ne _ hne] at hget
          exact Or.inr hget

/-- A refresh leaves nothing of the fronts that are not in the new list. -/
lemma Tidy.refresh {s : Service δ} {l : List δ} {choice : ℤ → δ} (h : Tidy s)
    (hchoice : l = [] ∨ ∀ dcId ∈ dcIds, choice dcId ∈ l) (hnil : l = [] → s.balancer.domains = []) :
    Tidy { s with
      balancer := (s.balancer.updateDomainsList l choice).2
      refreshes := s.refreshes + 1
      installed := l } := by
  have hsince : ∀ f ∈ s.fallbacks, f.since ≠ s.refreshes + 1 := by
    intro f hf heq
    have hle := h.since_le f hf
    omega
  rcases s.balancer.updateDomainsList_cases l choice with ⟨hperm, hb⟩ | ⟨hne, rfl, -⟩ |
    ⟨-, hne, hb⟩
  · rw [hb]
    exact ⟨fun d => hperm.symm.mem_iff, h.pruned, h.deadlines,
      fun f hf => (h.since_le f hf).trans (Nat.le_succ _), fun f hf hs => absurd hs (hsince f hf)⟩
  · exact absurd (by rw [hnil rfl]) hne
  · rw [hb]
    refine ⟨fun d => Iff.rfl, ⟨?_, ?_, ?_⟩, ?_, ?_, ?_⟩
    · intro dcId d hd
      dsimp only at hd
      rcases get?_foldl_set hd with ⟨hmem, rfl⟩ | hd
      · exact hchoice.resolve_left hne dcId hmem
      · cases hd
    · intro d k hk
      rw [Dict.get?_restrict] at hk
      split_ifs at hk with hmem
      exact of_decide_eq_true hmem
    · intro d hd
      exact (Finset.mem_filter.mp hd).2
    · intro d u hu
      rw [Dict.get?_restrict] at hu
      split_ifs at hu with hmem
      exact Or.inl (of_decide_eq_true hmem)
    · exact fun f hf => (h.since_le f hf).trans (Nat.le_succ _)
    · exact fun f hf hs => absurd hs (hsince f hf)

/-! ## Steps and runs -/

lemma Tidy.turn {s : Service δ} {i : ℕ} {f : Fallback δ} {domain : δ} {ds : List δ} (h : Tidy s)
    (hf : s.fallbacks[i]? = some f) (hphase : f.phase = .iterating)
    (hremaining : f.generator.remaining = some (domain :: ds)) : Tidy (s.turn i f domain ds) := by
  have hidle : ∀ d, ¬ f.InFlight d := by
    rintro d (hd | hd) <;> rw [hphase] at hd <;> cases hd
  have hpruned := h.pruned.turn s.now domain ds f.generator
  rw [Service.turn]
  rcases f.generator.turn_cases s.now domain ds s.balancer with ⟨ds', hsub, hturn⟩ |
    ⟨deadlines, hdeadlines, hturn⟩
  · rw [hturn]
    refine h.put hf rfl h.pruned (fun d u hu => Or.inl ⟨u, hu⟩) (fun d hd => absurd hd (hidle d))
      rfl ?_
    intro hw
    refine ⟨hw.offered, fun ds'' hds d hd => ?_⟩
    obtain rfl := Option.some.inj hds
    exact hw.remaining _ hremaining d (List.mem_cons_of_mem _ (hsub hd))
  · rw [hturn] at hpruned ⊢
    refine h.put hf rfl hpruned ?_ (fun d hd => absurd hd (hidle d)) rfl ?_
    · intro d u hu
      rcases hdeadlines d u hu with hu | rfl
      · exact Or.inl ⟨u, hu⟩
      · exact Or.inr (Or.inr (Or.inl rfl))
    · intro hw
      have hmem := hw.remaining _ hremaining
      refine ⟨fun d hd => ?_, fun ds'' hds d hd => ?_⟩
      · rcases List.mem_append.mp hd with hd | hd
        · exact hw.offered d hd
        · exact List.mem_singleton.mp hd ▸ hmem domain List.mem_cons_self
      · obtain rfl := Option.some.inj hds
        exact hmem d (List.mem_cons_of_mem _ hd)

lemma Tidy.step {e : Event δ} {s s' : Service δ} (h : Tidy s) (hcurrent : Current s e)
    (hs : s.step e = some s') : Tidy s' := by
  cases e with
  | tick t =>
      rw [Service.step] at hs
      split_ifs at hs
      obtain rfl := Option.some.inj hs
      exact ⟨h.installed, h.pruned, h.deadlines, h.since_le, h.within⟩
  | start dcId =>
      obtain rfl := Option.some.inj hs
      refine ⟨h.installed, h.pruned, ?_, ?_, ?_⟩
      · intro d u hu
        rcases h.deadlines d u hu with hd | ⟨f, hf, hflight⟩
        · exact Or.inl hd
        · exact Or.inr ⟨f, List.mem_append_left _ hf, hflight⟩
      · intro f hf
        rcases List.mem_append.mp hf with hf | hf
        · exact h.since_le f hf
        · rw [List.mem_singleton.mp hf]
      · intro f hf hsince
        rcases List.mem_append.mp hf with hf | hf
        · exact h.within f hf hsince
        · rw [List.mem_singleton.mp hf]
          exact ⟨fun d hd => absurd hd List.not_mem_nil, nofun⟩
  | begin i shuffled =>
      rw [Service.step] at hs
      split at hs
      · cases hs
      · next f hf =>
          split_ifs at hs with hbegin
          obtain rfl := Option.some.inj hs
          refine h.put hf rfl h.pruned (fun d u hu => Or.inl ⟨u, hu⟩) (fun d hd => Or.inr hd) rfl ?_
          intro hw
          refine ⟨hw.offered, fun ds hds d hd => ?_⟩
          obtain rfl := Option.some.inj hds
          exact h.pruned.mem_candidates hbegin.2 hd
  | turn i =>
      rw [Service.step] at hs
      split at hs
      · cases hs
      · next f hf =>
          split at hs
          · next domain ds hphase hremaining =>
              obtain rfl := Option.some.inj hs
              exact h.turn hf hphase hremaining
          · next hphase hremaining =>
              obtain rfl := Option.some.inj hs
              refine h.put hf rfl h.pruned (fun d u hu => Or.inl ⟨u, hu⟩) ?_ rfl
                fun hw => ⟨hw.offered, hw.remaining⟩
              rintro d (hd | hd) <;> rw [hphase] at hd <;> cases hd
          · cases hs
  | dialFailed i =>
      rw [Service.step] at hs
      split at hs
      · cases hs
      · next f hf =>
          split at hs
          · next d hphase =>
              obtain rfl := Option.some.inj hs
              have hmem := hcurrent f d hf (Or.inl hphase)
              refine h.put hf rfl (h.pruned.reportFailure s.now hmem) ?_ ?_ rfl
                fun hw => ⟨hw.offered, hw.remaining⟩
              · intro d' u hu
                rcases eq_or_ne d' d with rfl | hne
                · exact Or.inr (Or.inl hmem)
                · rw [Balancer.reportFailure, Dict.get?_set_of_ne _ hne] at hu
                  exact Or.inl ⟨u, hu⟩
              · exact fun d' hd' => Or.inl (hcurrent f d' hf hd')
          · cases hs
  | dialSucceeded i =>
      rw [Service.step] at hs
      split at hs
      · cases hs
      · next f hf =>
          split at hs
          · next d hphase =>
              obtain rfl := Option.some.inj hs
              have hmem := hcurrent f d hf (Or.inl hphase)
              refine h.put hf rfl (h.pruned.reportSuccess hmem) ?_ ?_ rfl
                fun hw => ⟨hw.offered, hw.remaining⟩
              · intro d' u hu
                rcases eq_or_ne d' d with rfl | hne
                · exact Or.inr (Or.inl hmem)
                · rw [Balancer.reportSuccess, Dict.get?_erase_of_ne hne] at hu
                  exact Or.inl ⟨u, hu⟩
              · exact fun d' hd' => Or.inl (hcurrent f d' hf hd')
          · cases hs
  | switch i =>
      rw [Service.step] at hs
      split at hs
      · cases hs
      · next f hf =>
          split at hs
          · next d hphase =>
              obtain rfl := Option.some.inj hs
              have hmem := hcurrent f d hf (Or.inr hphase)
              have hsame := s.balancer.updateDomainForDc_frame f.generator.dcId d
              refine h.put hf hsame.1 (h.pruned.updateDomainForDc _ hmem) ?_ ?_ rfl ?_
              · intro d' u hu
                rw [hsame.2] at hu
                exact Or.inl ⟨u, hu⟩
              · intro d' hd'
                rw [hsame.1]
                exact Or.inl (hcurrent f d' hf hd')
              · intro hw
                rw [hsame.1]
                exact ⟨hw.offered, hw.remaining⟩
          · cases hs
  | refresh l choice =>
      rw [Service.step] at hs
      split_ifs at hs with hchoice
      obtain rfl := Option.some.inj hs
      exact h.refresh hchoice hcurrent

/-- **Under the condition no departed front is offered or remembered,** in any state of a run. -/
theorem service_current {s : Service δ} (h : Reachable Starting Service.step Current s) :
    Offered s ∧ Clean s := by
  have htidy : Tidy s := by
    refine Reachable.invariant ?_ (fun s e s' _ ih hc hs => Tidy.step ih hc hs) h
    rintro s ⟨hb, hfallbacks, hinstalled⟩
    refine ⟨fun d => by rw [hinstalled, hb]; rfl, ?_, ?_, ?_, ?_⟩
    · rw [hb]
      exact ⟨nofun, nofun, nofun⟩
    · intro d u hu
      rw [hb] at hu
      cases hu
    · intro f hf
      rw [hfallbacks] at hf
      cases hf
    · intro f hf
      rw [hfallbacks] at hf
      cases hf
  exact ⟨htidy.offered, htidy.clean⟩

/-- A fresh balancer over names. -/
def freshService : Service String := ⟨.new, 1000, [], 0, []⟩

/-- All dials in flight are to fronts of the pool, and so will be those of an installed list. -/
def current? (s : Service δ) (e : Event δ) : Bool :=
  (s.fallbacks.all fun f => match f.phase with
    | .dialling d | .connected d => decide (d ∈ s.balancer.domains)
    | _ => true) &&
  match e with
  | .refresh l _ => !l.isEmpty
  | _ => true

lemma current_of_test {s : Service δ} {e : Event δ} (h : current? s e = true) : Current s e := by
  obtain ⟨hall, hlist⟩ := Bool.and_eq_true_iff.mp h
  have hflight : ∀ (i : ℕ) (f : Fallback δ) (d : δ), s.fallbacks[i]? = some f → f.InFlight d →
      d ∈ s.balancer.domains := by
    intro i f d hf hd
    have hmem := List.all_eq_true.mp hall f (List.mem_of_getElem? hf)
    rcases hd with hd | hd <;> rw [hd] at hmem <;> exact of_decide_eq_true hmem
  cases e with
  | dialFailed i | dialSucceeded i | switch i => exact hflight i
  | refresh l choice =>
      rintro rfl
      cases hlist
  | tick t | start dcId | begin i shuffled | turn i => trivial

/-- One dial fails, the next one succeeds and its front becomes the one of its DC; and a refresh
overtakes a dial that is still in flight. -/
theorem service_current_sample : ∃ s : Service String,
    exec Service.step [.refresh ["a", "b"] fun _ => "a", .start 1, .begin 0 ["b"], .turn 0,
      .dialFailed 0, .turn 0, .dialSucceeded 0, .switch 0, .start 1, .begin 1 ["a"], .turn 1,
      .refresh ["c"] fun _ => "c"] freshService = some s ∧ Offered s ∧ Clean s := by
  have hrun : (exec (guarded current? Service.step) [.refresh ["a", "b"] fun _ => "a", .start 1,
      .begin 0 ["b"], .turn 0, .dialFailed 0, .turn 0, .dialSucceeded 0, .switch 0, .start 1,
      .begin 1 ["a"], .turn 1, .refresh ["c"] fun _ => "c"] freshService).isSome := by
    decide +kernel
  obtain ⟨s, hs⟩ := Option.isSome_iff_exists.mp hrun
  have hstart : Reachable Starting Service.step Current freshService := .start ⟨rfl, rfl, rfl⟩
  obtain ⟨hexec, hreach⟩ := reachable_of_exec_guarded (fun _ _ => current_of_test) hstart hs
  exact ⟨s, hexec, service_current hreach⟩

/-- **A departed front comes back.**  A refresh overtakes a dial; when that succeeds its front is
offered to the next fallback, and when it fails its cooldown and its counter stay behind. -/
theorem departed_front_returns :
    (¬ ∀ s : Service String, Reachable Starting Service.step Always s → Offered s) ∧
      ¬ ∀ s : Service String, Reachable Starting Service.step Always s → Clean s := by
  have hstart : Reachable Starting Service.step Always freshService := .start ⟨rfl, rfl, rfl⟩
  constructor
  · intro hclaim
    have hrun : (exec Service.step [.refresh ["a"] fun _ => "a", .start 1, .begin 0 [], .turn 0,
        .refresh ["c"] fun _ => "c", .dialSucceeded 0, .switch 0, .start 1, .begin 1 ["c"],
        .turn 1] freshService).map (fun s => (s.installed, s.refreshes,
          s.fallbacks.map fun f => (f.since, f.offered))) =
        some (["c"], 2, [(1, ["a"]), (2, ["a"])]) := by decide +kernel
    obtain ⟨s, hs, hview⟩ := Option.map_eq_some_iff.mp hrun
    simp only [Prod.mk.injEq] at hview
    obtain ⟨hinstalled, hrefreshes, hfallbacks⟩ := hview
    have hmem : (2, ["a"]) ∈ s.fallbacks.map fun f => (f.since, f.offered) := by
      rw [hfallbacks]
      decide
    obtain ⟨f, hf, hfields⟩ := List.mem_map.mp hmem
    obtain ⟨hsince, hoffered⟩ := Prod.mk.inj hfields
    have h := hclaim s (reachable_of_exec hstart hs) f hf (hsince.trans hrefreshes.symm) "a"
      (by rw [hoffered]; decide)
    rw [hinstalled] at h
    exact absurd h (by decide)
  · intro hclaim
    have hrun : (exec Service.step [.refresh ["a", "b"] fun _ => "a", .start 1, .begin 0 ["b"],
        .turn 0, .refresh ["c"] fun _ => "c", .dialFailed 0] freshService).map (fun s =>
          (s.balancer.domains, s.balancer.failures.keys, s.fallbacks.map Fallback.phase)) =
        some (["c"], ["a"], [.iterating]) := by decide +kernel
    obtain ⟨s, hs, hview⟩ := Option.map_eq_some_iff.mp hrun
    simp only [Prod.mk.injEq] at hview
    obtain ⟨hdomains, hfailures, hphases⟩ := hview
    refine hclaim s (reachable_of_exec hstart hs) "a" (by rw [hdomains]; decide) ?_
      (Or.inr (Or.inl (by rw [hfailures]; decide)))
    intro f hf
    have hphase : f.phase = .iterating := by
      have hmem := List.mem_map_of_mem (f := Fallback.phase) hf
      rw [hphases] at hmem
      exact List.mem_singleton.mp hmem
    rintro (h | h) <;> rw [hphase] at h <;> cases h

end TgWsProxy.Refresh
