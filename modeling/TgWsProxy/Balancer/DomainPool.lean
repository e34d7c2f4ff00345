import TgWsProxy.Balancer.Breaker
import TgWsProxy.Core.Text
import TgWsProxy.DomainCensor

/-!
# The pool of fronts that is fetched

`refresh_cfproxy_domains` of `proxy/config.py`, from the text that is fetched to the balancer.

* `dd`, `fetchedDomains` — the lines of the text, decoded.
* `normalizeDomainPool` — trimmed, in lower case, valid, and each once.
* `refreshCfproxyDomains`, `refreshes` — one refresh of the balancer, and one after the other.
* `mem_normalizeDomainPool` — what is in the pool.
* **`refreshes_admit`** — a sequence of refreshes leaves the balancer as it was, or with the valid
  domains of one of the texts, at least three of them and none twice; none of them raises.
-/

namespace TgWsProxy

open Wire

/-! ## The code -/

-- `str.isalnum`, `str.isalpha` and `str.lower`
variable (db : CharacterDb) (lower : List Char → List Char)

/-- `_S`. -/
def frontSuffix : List Char := ['.', 'c', 'o', '.', 'u', 'k']

/-- A letter moved back by `n` in its alphabet. -/
def shiftBack (n : ℕ) (c : Char) : Char :=
  let base : ℕ := if '`' < c then 97 else 65
  Char.ofNat ((((c.toNat : ℤ) - base - n) % 26).toNat + base)

/-- `_dd(s)`. -/
def dd (s : List Char) : List Char :=
  if s.drop (s.length - 4) = ['.', 'c', 'o', 'm'] then
    let p := s.take (s.length - 4)
    let n := (p.filter db.isalpha).length
    p.map (fun c => if db.isalpha c then shiftBack n c else c) ++ frontSuffix
  else s

/-- `_fetch_cfproxy_domain_list()` for the text that is fetched; `none` where that raises. -/
def fetchedDomains : Option (List Char) → List (List Char)
  | none => []
  | some text =>
      ((splitlines text).filter fun line => strip line ≠ [] && line.head? ≠ some '#').map
        fun line => dd db (strip line)

/-- The loop of `_normalize_domain_pool`. -/
def normalizeFrom (seen : List (List Char)) : List (List Char) → List (List Char)
  | [] => []
  | domain :: rest =>
      let item := lower (strip domain)
      if ¬ isValidDomain db item then normalizeFrom seen rest
      else if seen.contains item then normalizeFrom seen rest
      else item :: normalizeFrom (item :: seen) rest

/-- `_normalize_domain_pool(domains)`. -/
def normalizeDomainPool (domains : List (List Char)) : List (List Char) :=
  normalizeFrom db lower [] domains

/-- `_CFPROXY_MIN_VALID_DOMAINS`. -/
def cfproxyMinValidDomains : ℕ := 3

/-- What a refresh finds: `cfproxy_user_domains`, the text, and the results of `random.choice`. -/
structure PoolRefresh where
  userDomains : List (List Char)
  text : Option (List Char)
  choice : ℤ → List Char

/-- `refresh_cfproxy_domains()`. -/
def refreshCfproxyDomains (r : PoolRefresh) (b : Balancer (List Char)) :
    Except String Unit × Balancer (List Char) :=
  if r.userDomains ≠ [] then (.ok (), b)
  else
    let pool := normalizeDomainPool db lower (fetchedDomains db r.text)
    if cfproxyMinValidDomains ≤ pool.length then b.updateDomainsList pool r.choice
    else (.ok (), b)

/-- One refresh after the other. -/
def refreshes (rs : List PoolRefresh) (b : Balancer (List Char)) : Balancer (List Char) :=
  rs.foldl (fun b r => (refreshCfproxyDomains db lower r b).2) b

/-! ## The pool -/

variable {db lower} {seen domains : List (List Char)} {d : List Char}

/-- What the loop lets through. -/
lemma mem_normalizeFrom : d ∈ normalizeFrom db lower seen domains ↔
    isValidDomain db d = true ∧ d ∉ seen ∧ ∃ domain ∈ domains, d = lower (strip domain) := by
  induction domains generalizing seen with
  | nil => simp [normalizeFrom]
  | cons domain rest ih =>
      -- a line that is not let through makes no difference
      have hskip : (isValidDomain db (lower (strip domain)) = true →
          lower (strip domain) ∈ seen) →
          ((isValidDomain db d = true ∧ d ∉ seen ∧ ∃ x ∈ rest, d = lower (strip x)) ↔
            isValidDomain db d = true ∧ d ∉ seen ∧ ∃ x ∈ domain :: rest, d = lower (strip x)) := by
        intro hdomain
        constructor
        · rintro ⟨hd, hnew, x, hx, rfl⟩
          exact ⟨hd, hnew, x, List.mem_cons_of_mem _ hx, rfl⟩
        · rintro ⟨hd, hnew, x, hx, rfl⟩
          rcases List.mem_cons.mp hx with rfl | hx
          · exact absurd (hdomain hd) hnew
          · exact ⟨hd, hnew, x, hx, rfl⟩
      rw [normalizeFrom]
      split_ifs with hvalid hseen
      · rw [ih]
        exact hskip fun _ => List.contains_iff_mem.mp hseen
      · rw [List.mem_cons, ih]
        constructor
        · rintro (rfl | ⟨hd, hnew, x, hx, rfl⟩)
          · exact ⟨hvalid, mt List.contains_iff_mem.mpr hseen, domain, List.mem_cons_self, rfl⟩
          · exact ⟨hd, fun h => hnew (List.mem_cons_of_mem _ h), x, List.mem_cons_of_mem _ hx, rfl⟩
        · rintro ⟨hd, hnew, x, hx, rfl⟩
          by_cases heq : lower (strip x) = lower (strip domain)
          · exact Or.inl heq
          · refine Or.inr ⟨hd, ?_, x, ?_, rfl⟩
            · exact fun h => (List.mem_cons.mp h).elim heq hnew
            · refine (List.mem_cons.mp hx).resolve_left ?_
              rintro rfl
              exact heq rfl
      · rw [ih]
        exact hskip fun h => absurd h hvalid

lemma nodup_normalizeFrom : (normalizeFrom db lower seen domains).Nodup := by
  induction domains generalizing seen with
  | nil => exact List.nodup_nil
  | cons domain rest ih =>
      rw [normalizeFrom]
      split_ifs with hvalid hseen
      · exact ih
      · refine List.nodup_cons.mpr ⟨?_, ih⟩
        intro h
        exact (mem_normalizeFrom.mp h).2.1 List.mem_cons_self
      · exact ih

/-- **What is in the pool**: the valid ones of the lines, trimmed and in lower case. -/
lemma mem_normalizeDomainPool : d ∈ normalizeDomainPool db lower domains ↔
    isValidDomain db d = true ∧ ∃ domain ∈ domains, d = lower (strip domain) := by
  rw [normalizeDomainPool, mem_normalizeFrom]
  simp

/-! ## The balancer -/

/-- A change to a pool that is not empty does not raise. -/
lemma updateDomainsList_of_ne {pool : List (List Char)} (choice : ℤ → List Char)
    (h : pool ≠ []) (b : Balancer (List Char)) : (b.updateDomainsList pool choice).1 = .ok () ∧
      ((b.updateDomainsList pool choice).2 = b ∨
        (b.updateDomainsList pool choice).2.domains = pool) := by
  rw [Balancer.updateDomainsList]
  split_ifs
  · exact ⟨rfl, Or.inl rfl⟩
  · exact ⟨rfl, Or.inr rfl⟩

/-- The balancer has the domains of this text, and enough of them. -/
def Admits (db : CharacterDb) (lower : List Char → List Char) (r : PoolRefresh)
    (pool : List (List Char)) : Prop :=
  r.userDomains = [] ∧ cfproxyMinValidDomains ≤ pool.length ∧ pool.Nodup ∧
    ∀ d, d ∈ pool ↔ isValidDomain db d = true ∧
      ∃ domain ∈ fetchedDomains db r.text, d = lower (strip domain)

/-- **One refresh.** -/
lemma refresh_admits (db : CharacterDb) (lower : List Char → List Char) (r : PoolRefresh)
    (b : Balancer (List Char)) : (refreshCfproxyDomains db lower r b).1 = .ok () ∧
    ((refreshCfproxyDomains db lower r b).2 = b ∨
      Admits db lower r (refreshCfproxyDomains db lower r b).2.domains) := by
  rw [refreshCfproxyDomains]
  dsimp only
  split_ifs with huser henough
  · exact ⟨rfl, Or.inl rfl⟩
  · obtain ⟨hok, hsame | hpool⟩ := updateDomainsList_of_ne r.choice
      (List.ne_nil_of_length_pos (lt_of_lt_of_le (by decide) henough)) b
    · exact ⟨hok, Or.inl hsame⟩
    · refine ⟨hok, Or.inr ?_⟩
      rw [hpool]
      exact ⟨not_not.mp huser, henough, nodup_normalizeFrom, fun _ => mem_normalizeDomainPool⟩
  · exact ⟨rfl, Or.inl rfl⟩

/-- **What is fetched is checked.**  After any sequence of refreshes the balancer is as it was, or
its pool has come from the text of one of them: at least three domains, none of them twice, and
exactly the valid ones among its decoded lines, trimmed and in lower case; and the next refresh
does not raise. -/
theorem refreshes_admit (db : CharacterDb) (lower : List Char → List Char)
    (rs : List PoolRefresh) (b : Balancer (List Char)) :
    (refreshes db lower rs b = b ∨
      ∃ r ∈ rs, Admits db lower r (refreshes db lower rs b).domains) ∧
    ∀ r, (refreshCfproxyDomains db lower r (refreshes db lower rs b)).1 = .ok () := by
  refine ⟨?_, fun r => (refresh_admits db lower r _).1⟩
  induction rs using List.reverseRecOn with
  | nil => exact Or.inl rfl
  | append_singleton rs r ih =>
      have hlast : refreshes db lower (rs ++ [r]) b =
          (refreshCfproxyDomains db lower r (refreshes db lower rs b)).2 := by
        rw [refreshes, List.foldl_append]
        rfl
      rw [hlast]
      obtain ⟨-, hsame | hnew⟩ := refresh_admits db lower r (refreshes db lower rs b)
      · rw [hsame]
        rcases ih with hold | ⟨q, hq, hpool⟩
        · exact Or.inl hold
        · exact Or.inr ⟨q, List.mem_append_left _ hq, hpool⟩
      · exact Or.inr ⟨r, List.mem_append_right _ List.mem_cons_self, hnew⟩

end TgWsProxy
