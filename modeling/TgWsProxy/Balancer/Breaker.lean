import TgWsProxy.Core.Dict
import Mathlib

/-!
# The balancer of CF fronts

`_Balancer` of `proxy/balancer.py`.  Cooldowns of failed fronts and holds of fronts that are being
dialled share one table of deadlines.

* `Balancer`, `updateDomainsList`, `updateDomainForDc`, `reportSuccess`, `reportFailure` — the
  code; what `random` returned is an argument.
* `Generator`, `Generator.begin`, `Generator.turn` — an iterator of `get_domains_for_dc`, between
  two turns of its loop.
* `cooldownOf` — the ladder of cooldowns, with the two facts that are used of it.
-/

namespace TgWsProxy

open Wire

/-- `FAILURE_COOLDOWN`. -/
def failureCooldown : ℚ := 60

/-- `MAX_COOLDOWN`. -/
def maxCooldown : ℚ := 600

/-- `BACKOFF_STEPS`. -/
def backoffSteps : ℕ := 8

/-- `IN_FLIGHT_HOLD`. -/
def inFlightHold : ℚ := 12

/-- `MAX_ATTEMPTS`. -/
def maxAttempts : ℕ := 3

variable {δ : Type*} [DecidableEq δ]

/-- `_Balancer`, over any type of domain names. -/
structure Balancer (δ : Type*) where
  domains : List δ
  dcToDomain : Dict ℤ δ
  unavailableUntil : Dict δ ℚ
  failures : Dict δ ℕ
  healthy : Finset δ

/-- The keys of `_dc_to_domain` after a change of the pool. -/
def dcIds : List ℤ := [1, 2, 3, 4, 5, 203]

/-- The cooldown after the given number of failures. -/
def cooldownOf (failures : ℕ) : ℚ := min (failureCooldown * 2 ^ (failures - 1)) maxCooldown

namespace Balancer

/-- `_Balancer()`. -/
def new : Balancer δ := ⟨[], .empty, .empty, .empty, ∅⟩

/-- `_unavailable_until.get(domain, 0.0)`. -/
def availableAt (b : Balancer δ) (domain : δ) : ℚ := (b.unavailableUntil.get? domain).getD 0

/-- `update_domains_list(domains_list)`, with the results of `random.choice`.  From an empty list
nothing can be chosen: the exception leaves everything but the list as it was. -/
def updateDomainsList (domainsList : List δ) (choice : ℤ → δ) (b : Balancer δ) :
    Except String Unit × Balancer δ :=
  if b.domains.Perm domainsList then (.ok (), b)
  else if domainsList = [] then
    (.error "Cannot choose from an empty sequence", { b with domains := domainsList })
  else
    (.ok (), {
      domains := domainsList
      dcToDomain := dcIds.foldl (fun d dcId => d.set dcId (choice dcId)) .empty
      unavailableUntil := b.unavailableUntil.restrict (· ∈ domainsList)
      failures := b.failures.restrict (· ∈ domainsList)
      healthy := b.healthy.filter (· ∈ domainsList) })

/-- `update_domain_for_dc(dc_id, domain)`. -/
def updateDomainForDc (dcId : ℤ) (domain : δ) (b : Balancer δ) : Bool × Balancer δ :=
  if b.dcToDomain.get? dcId = some domain then (false, b)
  else (true, { b with dcToDomain := b.dcToDomain.set dcId domain })

/-- `report_success(domain)`. -/
def reportSuccess (domain : δ) (b : Balancer δ) : Balancer δ :=
  { b with
    unavailableUntil := b.unavailableUntil.erase domain
    failures := b.failures.erase domain
    healthy := insert domain b.healthy }

/-- `report_failure(domain)` at the time `now`. -/
def reportFailure (now : ℚ) (domain : δ) (b : Balancer δ) : ℚ × Balancer δ :=
  let failures := min ((b.failures.get? domain).getD 0 + 1) backoffSteps
  let cooldown := cooldownOf failures
  (cooldown, { b with
    unavailableUntil := b.unavailableUntil.set domain (now + cooldown)
    failures := b.failures.set domain failures
    healthy := b.healthy.erase domain })

/-- The list `rest` of `get_domains_for_dc`, before it is shuffled. -/
def rest (b : Balancer δ) (dcId : ℤ) : List δ :=
  b.domains.filter fun d => some d ≠ b.dcToDomain.get? dcId

/-- The list `candidates` of `get_domains_for_dc`, from the shuffled `rest`. -/
def candidates (b : Balancer δ) (dcId : ℤ) (shuffled : List δ) : List δ :=
  (b.dcToDomain.get? dcId).toList ++ shuffled.filter (· ∈ b.healthy)
    ++ shuffled.filter (· ∉ b.healthy)

end Balancer

/-- An iterator of `get_domains_for_dc(dc_id, reserve_unproven=…)`.  `remaining` is what its loop
has not come to, and `none` before the first `next`, when the body has not been entered. -/
structure Generator (δ : Type*) where
  dcId : ℤ
  reserveUnproven : Bool
  remaining : Option (List δ)
  attempts : ℕ

namespace Generator

/-- `get_domains_for_dc(dc_id, reserve_unproven=…)`. -/
def new (dcId : ℤ) (reserveUnproven : Bool) : Generator δ := ⟨dcId, reserveUnproven, none, 0⟩

/-- The body up to its loop, with the result of `random.shuffle`. -/
def begin (b : Balancer δ) (shuffled : List δ) (g : Generator δ) : Generator δ :=
  { g with remaining := some (b.candidates g.dcId shuffled) }

/-- A turn of the loop at the time `now`, for the candidate `domain` with `ds` behind it, and what
it yields. -/
def turn (now : ℚ) (domain : δ) (ds : List δ) (g : Generator δ) (b : Balancer δ) :
    Option δ × Generator δ × Balancer δ :=
  if maxAttempts ≤ g.attempts then (none, { g with remaining := some [] }, b)
  else if now < b.availableAt domain then (none, { g with remaining := some ds }, b)
  else
    let g' := { g with remaining := some ds, attempts := g.attempts + 1 }
    if g.reserveUnproven ∧ domain ∉ b.healthy then
      (some domain, g',
        { b with unavailableUntil := b.unavailableUntil.set domain (now + inFlightHold) })
    else (some domain, g', b)

end Generator

/-- An iterator writes nothing but a hold. -/
lemma Generator.turn_domains (now : ℚ) (domain : δ) (ds : List δ) (g : Generator δ)
    (b : Balancer δ) : (g.turn now domain ds b).2.2.domains = b.domains := by
  unfold Generator.turn
  split_ifs <;> rfl

/-- A turn passes over the candidate or yields it, with a deadline for no one else. -/
lemma Generator.turn_cases (now : ℚ) (domain : δ) (ds : List δ) (g : Generator δ)
    (b : Balancer δ) :
    (∃ ds', ds' ⊆ ds ∧ g.turn now domain ds b = (none, { g with remaining := some ds' }, b)) ∨
    ∃ deadlines, (∀ d u, Dict.get? deadlines d = some u →
        b.unavailableUntil.get? d = some u ∨ d = domain) ∧
      g.turn now domain ds b = (some domain,
        { g with remaining := some ds, attempts := g.attempts + 1 },
        { b with unavailableUntil := deadlines }) := by
  unfold Generator.turn
  split_ifs with hattempts hlate hheld
  · exact Or.inl ⟨[], List.nil_subset ds, rfl⟩
  · exact Or.inl ⟨ds, List.Subset.refl ds, rfl⟩
  · refine Or.inr ⟨_, fun d u hu => ?_, rfl⟩
    rcases eq_or_ne d domain with rfl | hne
    · exact Or.inr rfl
    · rw [Dict.get?_set_of_ne _ hne] at hu
      exact Or.inl hu
  · exact Or.inr ⟨b.unavailableUntil, fun d u hu => Or.inl hu, rfl⟩

/-! ## The ladder -/

lemma cooldownOf_le (failures : ℕ) : cooldownOf failures ≤ maxCooldown := min_le_right _ _

lemma inFlightHold_le (failures : ℕ) : inFlightHold ≤ cooldownOf failures := by
  have hpow : (1 : ℚ) ≤ 2 ^ (failures - 1) := one_le_pow₀ (by norm_num)
  refine le_min ?_ (by norm_num [inFlightHold, maxCooldown])
  rw [inFlightHold, failureCooldown]
  linarith

/-- A further failure never shortens the cooldown. -/
lemma cooldownOf_mono {m n : ℕ} (h : m ≤ n) : cooldownOf m ≤ cooldownOf n := by
  have hpow : (2 : ℚ) ^ (m - 1) ≤ 2 ^ (n - 1) := pow_le_pow_right₀ (by norm_num) (by omega)
  refine min_le_min ?_ le_rfl
  rw [failureCooldown]
  linarith

/-! ## What the operations do to the deadlines -/

namespace Balancer

lemma availableAt_of_some {b : Balancer δ} {d : δ} {u : ℚ}
    (h : b.unavailableUntil.get? d = some u) : b.availableAt d = u := by
  rw [availableAt, h]
  rfl

/-- Switching the front of a DC touches neither the pool nor the deadlines. -/
lemma updateDomainForDc_frame (dcId : ℤ) (domain : δ) (b : Balancer δ) :
    (b.updateDomainForDc dcId domain).2.domains = b.domains ∧
      (b.updateDomainForDc dcId domain).2.unavailableUntil = b.unavailableUntil := by
  unfold updateDomainForDc
  split_ifs <;> exact ⟨rfl, rfl⟩

/-- `update_domains_list` keeps everything, or fails on an empty list, or prunes. -/
lemma updateDomainsList_cases (l : List δ) (choice : ℤ → δ) (b : Balancer δ) :
    (b.domains.Perm l ∧ (b.updateDomainsList l choice).2 = b) ∨
    (¬ b.domains.Perm l ∧ l = [] ∧ (b.updateDomainsList l choice).2 = { b with domains := [] }) ∨
    (¬ b.domains.Perm l ∧ l ≠ [] ∧ (b.updateDomainsList l choice).2 = {
      domains := l
      dcToDomain := dcIds.foldl (fun d dcId => d.set dcId (choice dcId)) .empty
      unavailableUntil := b.unavailableUntil.restrict (· ∈ l)
      failures := b.failures.restrict (· ∈ l)
      healthy := b.healthy.filter (· ∈ l) }) := by
  rw [updateDomainsList]
  split_ifs with hperm hnil
  · exact Or.inl ⟨hperm, rfl⟩
  · subst hnil
    exact Or.inr (Or.inl ⟨hperm, rfl, rfl⟩)
  · exact Or.inr (Or.inr ⟨hperm, hnil, rfl⟩)

end Balancer

end TgWsProxy
