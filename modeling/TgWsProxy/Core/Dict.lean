import Mathlib

/-!
# Insertion-ordered dictionaries

A finite map that remembers the order in which its keys were first set, as the dictionaries of
scripting languages do.

* `Dict κ ν` — the entries in order; the keys are distinct by construction.
* `get?`, `set`, `erase` — look up, set in place or at the end, and remove.
* `total` — the sum of the values of a dictionary of numbers.
-/

namespace Wire

/-- A dictionary: its entries in insertion order, no key twice. -/
structure Dict (κ ν : Type*) where
  entries : List (κ × ν)
  nodup : (entries.map Prod.fst).Nodup

namespace Dict

variable {κ ν : Type*}

/-- `{}`. -/
def empty : Dict κ ν := ⟨[], List.nodup_nil⟩

/-- `list(d)`. -/
def keys (d : Dict κ ν) : List κ := d.entries.map Prod.fst

/-- `list(d.values())`. -/
def values (d : Dict κ ν) : List ν := d.entries.map Prod.snd

/-- `len(d)`. -/
def size (d : Dict κ ν) : ℕ := d.entries.length

/-- `sum(d.values())`. -/
def total (d : Dict κ ℕ) : ℕ := d.values.sum

@[simp] lemma entries_empty : (empty : Dict κ ν).entries = [] := rfl

@[simp] lemma size_empty : (empty : Dict κ ν).size = 0 := rfl

@[simp] lemma total_empty : (empty : Dict κ ℕ).total = 0 := rfl

lemma mem_keys {d : Dict κ ν} {k : κ} : k ∈ d.keys ↔ ∃ v, (k, v) ∈ d.entries := by
  simp [keys]

lemma mem_keys_of_mem {d : Dict κ ν} {k : κ} {v : ν} (h : (k, v) ∈ d.entries) : k ∈ d.keys :=
  mem_keys.mpr ⟨v, h⟩

/-- A key has one value. -/
lemma eq_of_mem {d : Dict κ ν} {k : κ} {v w : ν} (hv : (k, v) ∈ d.entries)
    (hw : (k, w) ∈ d.entries) : v = w := by
  have h := List.inj_on_of_nodup_map d.nodup hv hw rfl
  exact (Prod.mk.inj h).2

variable [DecidableEq κ]

/-- `d.get(k)`. -/
def get? (d : Dict κ ν) (k : κ) : Option ν := (d.entries.find? (·.1 = k)).map Prod.snd

/-- `d.pop(k, None)`, the dictionary that is left. -/
def erase (d : Dict κ ν) (k : κ) : Dict κ ν :=
  ⟨d.entries.filter (·.1 ≠ k), d.nodup.sublist (List.filter_sublist.map _)⟩

/-- `{k: v for k, v in d.items() if p(k)}`. -/
def restrict (d : Dict κ ν) (p : κ → Bool) : Dict κ ν :=
  ⟨d.entries.filter fun e => p e.1, d.nodup.sublist (List.filter_sublist.map _)⟩

private lemma map_fst_replace (k : κ) (v : ν) (l : List (κ × ν)) :
    (l.map fun p => if p.1 = k then (k, v) else p).map Prod.fst = l.map Prod.fst := by
  induction l with
  | nil => rfl
  | cons p l ih =>
      rw [List.map_cons, List.map_cons, ih, List.map_cons]
      by_cases h : p.1 = k <;> simp [h]

/-- `d[k] = v`: in place when the key is there, else at the end. -/
def set (d : Dict κ ν) (k : κ) (v : ν) : Dict κ ν :=
  if h : k ∈ d.keys then
    ⟨d.entries.map fun p => if p.1 = k then (k, v) else p, by
      rw [map_fst_replace]; exact d.nodup⟩
  else
    ⟨d.entries ++ [(k, v)], by
      rw [List.map_append, List.nodup_append]
      refine ⟨d.nodup, List.nodup_singleton _, fun a ha b hb => ?_⟩
      obtain rfl := List.mem_singleton.mp hb
      rintro rfl
      exact h ha⟩

/-- `d.setdefault(k, v)`, the dictionary that is left. -/
def setdefault (d : Dict κ ν) (k : κ) (v : ν) : Dict κ ν := if k ∈ d.keys then d else d.set k v

/-! ## Entries -/

lemma get?_eq_some {d : Dict κ ν} {k : κ} {v : ν} : d.get? k = some v ↔ (k, v) ∈ d.entries := by
  constructor
  · intro h
    obtain ⟨p, hp, rfl⟩ := Option.map_eq_some_iff.mp h
    have hk : p.1 = k := by simpa using List.find?_some hp
    subst hk
    exact List.mem_of_find?_eq_some hp
  · intro h
    have hsome : (d.entries.find? (·.1 = k)).isSome := by
      rw [List.find?_isSome]
      exact ⟨_, h, by simp⟩
    obtain ⟨p, hp⟩ := Option.isSome_iff_exists.mp hsome
    have hk : p.1 = k := by simpa using List.find?_some hp
    have hmem := List.mem_of_find?_eq_some hp
    subst hk
    rw [get?, hp, Option.map_some, eq_of_mem h (w := p.2) hmem]

lemma get?_eq_none {d : Dict κ ν} {k : κ} : d.get? k = none ↔ k ∉ d.keys := by
  rw [← not_iff_not, ← ne_eq, Option.ne_none_iff_exists', not_not, mem_keys]
  simp only [get?_eq_some]

@[simp] lemma mem_entries_erase {d : Dict κ ν} {k : κ} {p : κ × ν} :
    p ∈ (d.erase k).entries ↔ p ∈ d.entries ∧ p.1 ≠ k := by
  simp [erase]

@[simp] lemma mem_keys_erase {d : Dict κ ν} {k j : κ} :
    j ∈ (d.erase k).keys ↔ j ∈ d.keys ∧ j ≠ k := by
  simp [mem_keys]

@[simp] lemma mem_entries_set {d : Dict κ ν} {k : κ} {v : ν} {p : κ × ν} :
    p ∈ (d.set k v).entries ↔ p = (k, v) ∨ p ∈ d.entries ∧ p.1 ≠ k := by
  unfold set
  split_ifs with h
  · simp only [List.mem_map]
    constructor
    · rintro ⟨q, hq, rfl⟩
      by_cases hk : q.1 = k
      · exact Or.inl (if_pos hk)
      · rw [if_neg hk]
        exact Or.inr ⟨hq, hk⟩
    · rintro (rfl | ⟨hp, hk⟩)
      · obtain ⟨w, hw⟩ := mem_keys.mp h
        exact ⟨_, hw, if_pos rfl⟩
      · exact ⟨p, hp, if_neg hk⟩
  · simp only [List.mem_append, List.mem_singleton]
    constructor
    · rintro (hp | rfl)
      · refine Or.inr ⟨hp, ?_⟩
        rintro rfl
        exact h (mem_keys_of_mem (v := p.2) hp)
      · exact Or.inl rfl
    · rintro (rfl | ⟨hp, -⟩)
      · exact Or.inr rfl
      · exact Or.inl hp

@[simp] lemma mem_keys_set {d : Dict κ ν} {k j : κ} {v : ν} :
    j ∈ (d.set k v).keys ↔ j = k ∨ j ∈ d.keys := by
  simp only [mem_keys, mem_entries_set, Prod.mk.injEq]
  constructor
  · rintro ⟨w, ⟨rfl, -⟩ | ⟨hw, -⟩⟩
    · exact Or.inl rfl
    · exact Or.inr ⟨w, hw⟩
  · rintro (rfl | ⟨w, hw⟩)
    · exact ⟨v, Or.inl ⟨rfl, rfl⟩⟩
    · by_cases hj : j = k
      · exact ⟨v, Or.inl ⟨hj, rfl⟩⟩
      · exact ⟨w, Or.inr ⟨hw, hj⟩⟩

lemma mem_values {d : Dict κ ν} {v : ν} : v ∈ d.values ↔ ∃ k, d.get? k = some v := by
  simp only [values, List.mem_map, get?_eq_some, Prod.exists, exists_eq_right]

lemma mem_values_of_erase {d : Dict κ ν} {k : κ} {v : ν} (h : v ∈ (d.erase k).values) :
    v ∈ d.values :=
  (List.filter_sublist.map _).subset h

lemma eq_or_mem_values_of_set {d : Dict κ ν} {k : κ} {v w : ν} (h : v ∈ (d.set k w).values) :
    v = w ∨ v ∈ d.values := by
  obtain ⟨⟨j, u⟩, hp, rfl⟩ := List.mem_map.mp h
  rcases mem_entries_set.mp hp with hp | ⟨hp, -⟩
  · exact Or.inl (Prod.mk.inj hp).2
  · exact Or.inr (List.mem_map_of_mem hp)

lemma entries_set_of_not_mem {d : Dict κ ν} {k : κ} (v : ν) (h : k ∉ d.keys) :
    (d.set k v).entries = d.entries ++ [(k, v)] := by
  rw [set, dif_neg h]

lemma size_set_of_not_mem {d : Dict κ ν} {k : κ} (v : ν) (h : k ∉ d.keys) :
    (d.set k v).size = d.size + 1 := by
  rw [size, entries_set_of_not_mem v h, List.length_append, List.length_singleton, size]

lemma size_erase_le (d : Dict κ ν) (k : κ) : (d.erase k).size ≤ d.size :=
  List.length_filter_le _ _

/-- Removing a key that is there removes one entry. -/
lemma perm_erase {d : Dict κ ν} {k : κ} {v : ν} (h : (k, v) ∈ d.entries) :
    d.entries.Perm ((k, v) :: (d.erase k).entries) := by
  obtain ⟨l₁, l₂, hl⟩ := List.append_of_mem h
  have hnodup := d.nodup
  rw [hl, List.map_append, List.map_cons, List.nodup_middle, List.nodup_cons, List.mem_append,
    not_or] at hnodup
  obtain ⟨⟨h₁, h₂⟩, -⟩ := hnodup
  have hfilter : ∀ l : List (κ × ν), k ∉ l.map Prod.fst → l.filter (·.1 ≠ k) = l := by
    intro l hk
    rw [List.filter_eq_self]
    intro p hp
    simp only [ne_eq, decide_not, Bool.not_eq_eq_eq_not, Bool.not_true, decide_eq_false_iff_not]
    rintro rfl
    exact hk (List.mem_map_of_mem hp)
  have herase : (d.erase k).entries = l₁ ++ l₂ := by
    change d.entries.filter _ = _
    rw [hl, List.filter_append, List.filter_cons_of_neg (by simp), hfilter l₁ h₁,
      hfilter l₂ h₂]
  rw [hl, herase]
  exact List.perm_middle

lemma size_erase_of_mem {d : Dict κ ν} {k : κ} {v : ν} (h : (k, v) ∈ d.entries) :
    d.size = (d.erase k).size + 1 := by
  rw [size, (perm_erase h).length_eq, List.length_cons, size]

/-! ## Look-up -/

@[simp] lemma get?_empty (k : κ) : (empty : Dict κ ν).get? k = none := rfl

@[simp] lemma get?_set_self (d : Dict κ ν) (k : κ) (v : ν) : (d.set k v).get? k = some v := by
  rw [get?_eq_some, mem_entries_set]
  exact Or.inl rfl

lemma get?_set_of_ne {d : Dict κ ν} {k j : κ} (v : ν) (h : j ≠ k) :
    (d.set k v).get? j = d.get? j := by
  ext w
  rw [get?_eq_some, get?_eq_some, mem_entries_set]
  simp [h]

lemma get?_setdefault (d : Dict κ ν) (k j : κ) (v : ν) :
    (d.setdefault k v).get? j = (d.get? j).or (if k = j then some v else none) := by
  rw [setdefault]
  split_ifs with hmem hkj hkj
  · obtain ⟨w, hw⟩ := mem_keys.mp hmem
    subst hkj
    rw [get?_eq_some.mpr hw, Option.some_or]
  · rw [Option.or_none]
  · subst hkj
    rw [get?_set_self, get?_eq_none.mpr hmem, Option.none_or]
  · rw [get?_set_of_ne v (Ne.symm hkj), Option.or_none]

/-- Setting a default never empties a dictionary. -/
lemma setdefault_ne_empty (d : Dict κ ν) (k : κ) (v : ν) : d.setdefault k v ≠ empty := by
  intro h
  have hget := get?_setdefault d k k v
  rw [h, get?_empty, if_pos rfl] at hget
  cases hd : d.get? k <;> simp [hd] at hget

@[simp] lemma get?_erase_self (d : Dict κ ν) (k : κ) : (d.erase k).get? k = none := by
  rw [get?_eq_none, mem_keys_erase]
  simp

lemma get?_erase_of_ne {d : Dict κ ν} {k j : κ} (h : j ≠ k) : (d.erase k).get? j = d.get? j := by
  ext w
  rw [get?_eq_some, get?_eq_some, mem_entries_erase]
  simp [h]

lemma get?_restrict (d : Dict κ ν) (p : κ → Bool) (k : κ) :
    (d.restrict p).get? k = if p k then d.get? k else none := by
  ext w
  rw [get?_eq_some, restrict, List.mem_filter]
  split_ifs with h
  · rw [get?_eq_some]
    simp [h]
  · simp [h]

/-! ## Sums -/

lemma total_set_of_not_mem {d : Dict κ ℕ} {k : κ} (v : ℕ) (h : k ∉ d.keys) :
    (d.set k v).total = d.total + v := by
  rw [total, values, entries_set_of_not_mem v h, List.map_append, List.sum_append]
  rfl

lemma total_erase_of_mem {d : Dict κ ℕ} {k : κ} {v : ℕ} (h : (k, v) ∈ d.entries) :
    d.total = v + (d.erase k).total := by
  rw [total, values, ((perm_erase h).map Prod.snd).sum_eq, List.map_cons, List.sum_cons]
  rfl

end Dict

end Wire
