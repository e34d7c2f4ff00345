import TgWsProxy.Core.Dict
import Mathlib.Data.List.Perm.Basic
import Mathlib.Tactic.Ring

/-!
# A dictionary of mutable lists

A dictionary whose values are mutable lists shares them with whoever looked one up: dropping the
dictionary detaches a list, and its holder goes on with it unseen.

* `Shelf` — an index from keys to lists in a heap, no list under two keys.
* `contents` — what lies in the lists that the index reaches.
* `countP_modify` — rewriting one list changes the contents by the difference; one that is detached
  does not count.
* `countP_flatMap_set` — the same for a list of tasks, each of which holds something.
-/

namespace Wire

variable {κ α β : Type*}

/-- An index into a heap of lists; `next` is the first list that was never used. -/
structure Shelf (κ α : Type*) where
  index : Dict κ ℕ
  heap : ℕ → List α
  next : ℕ
  lt_next : ∀ d ∈ index.values, d < next
  nodup : index.values.Nodup

namespace Shelf

/-- Nothing indexed. -/
def empty : Shelf κ α := ⟨.empty, fun _ => [], 0, nofun, List.nodup_nil⟩

/-- What lies in the lists of the index. -/
def contents (s : Shelf κ α) : List α := s.index.values.flatMap s.heap

/-- The list `d` is rewritten. -/
def modify (d : ℕ) (l : List α) (s : Shelf κ α) : Shelf κ α :=
  { s with heap := Function.update s.heap d l }

/-- `index.clear()`. -/
def clear (s : Shelf κ α) : Shelf κ α :=
  { s with index := .empty, lt_next := nofun, nodup := List.nodup_nil }

@[simp] lemma contents_empty : (empty : Shelf κ α).contents = [] := rfl

@[simp] lemma contents_clear (s : Shelf κ α) : s.clear.contents = [] := rfl

variable [DecidableEq κ]

/-- `index.get(k)`. -/
def get? (s : Shelf κ α) (k : κ) : Option ℕ := s.index.get? k

lemma mem_values_of_get? {s : Shelf κ α} {k : κ} {d : ℕ} (h : s.get? k = some d) :
    d ∈ s.index.values :=
  List.mem_map.mpr ⟨(k, d), Dict.get?_eq_some.mp h, rfl⟩

private lemma values_set_of_not_mem {m : Dict κ ℕ} {k : κ} (d : ℕ) (h : k ∉ m.keys) :
    (m.set k d).values = m.values ++ [d] := by
  rw [Dict.values, Dict.entries_set_of_not_mem d h, List.map_append]
  rfl

/-- A fresh empty list under a key that has none. -/
def add (s : Shelf κ α) (k : κ) (h : s.get? k = none) : Shelf κ α where
  index := s.index.set k s.next
  heap := Function.update s.heap s.next []
  next := s.next + 1
  lt_next := by
    intro d hd
    rw [values_set_of_not_mem _ (Dict.get?_eq_none.mp h)] at hd
    rcases List.mem_append.mp hd with hd | hd
    · exact Nat.lt_succ_of_lt (s.lt_next d hd)
    · rw [List.mem_singleton.mp hd]
      exact Nat.lt_succ_self _
  nodup := by
    rw [values_set_of_not_mem _ (Dict.get?_eq_none.mp h), List.nodup_append]
    refine ⟨s.nodup, List.nodup_singleton _, fun d hd d' hd' => ?_⟩
    rw [List.mem_singleton.mp hd']
    exact (s.lt_next d hd).ne

/-- `index.setdefault(k, [])`. -/
def setdefault (s : Shelf κ α) (k : κ) : ℕ × Shelf κ α :=
  match h : s.get? k with
  | some d => (d, s)
  | none => (s.next, s.add k h)

lemma setdefault_of_some {s : Shelf κ α} {k : κ} {d : ℕ} (h : s.get? k = some d) :
    s.setdefault k = (d, s) := by
  unfold setdefault
  split <;> simp_all

lemma setdefault_of_none {s : Shelf κ α} {k : κ} (h : s.get? k = none) :
    s.setdefault k = (s.next, s.add k h) := by
  unfold setdefault
  split <;> simp_all

@[simp] lemma contents_add (s : Shelf κ α) (k : κ) (h : s.get? k = none) :
    (s.add k h).contents = s.contents := by
  have hheap : ∀ d ∈ s.index.values, Function.update s.heap s.next [] d = s.heap d := by
    intro d hd
    exact Function.update_of_ne (s.lt_next d hd).ne _ _
  rw [contents, add, values_set_of_not_mem _ (Dict.get?_eq_none.mp h), List.flatMap_append,
    List.flatMap_congr hheap]
  simp [contents]

@[simp] lemma contents_setdefault (s : Shelf κ α) (k : κ) :
    (s.setdefault k).2.contents = s.contents := by
  cases h : s.get? k with
  | some d => rw [setdefault_of_some h]
  | none => rw [setdefault_of_none h, contents_add]

/-- A list of the index has one key. -/
lemma key_unique {s : Shelf κ α} {k k' : κ} {d : ℕ} (h : s.get? k = some d)
    (h' : s.get? k' = some d) : k = k' := by
  have hkey := List.inj_on_of_nodup_map s.nodup (Dict.get?_eq_some.mp h) (Dict.get?_eq_some.mp h')
    rfl
  exact (Prod.mk.inj hkey).1

@[simp] lemma get?_setdefault_self (s : Shelf κ α) (k : κ) :
    (s.setdefault k).2.get? k = some (s.setdefault k).1 := by
  cases h : s.get? k with
  | some d => rw [setdefault_of_some h, h]
  | none =>
      rw [setdefault_of_none h]
      exact Dict.get?_set_self _ _ _

/-- The lists that were there stay what they are. -/
lemma setdefault_of_get? {s : Shelf κ α} {k : κ} {d : ℕ} (k' : κ) (h : s.get? k = some d) :
    (s.setdefault k').2.get? k = some d ∧ (s.setdefault k').2.heap d = s.heap d := by
  cases h' : s.get? k' with
  | some d' => rw [setdefault_of_some h']; exact ⟨h, rfl⟩
  | none =>
      rw [setdefault_of_none h']
      have hne : k ≠ k' := by
        rintro rfl
        rw [h] at h'
        cases h'
      exact ⟨(Dict.get?_set_of_ne _ hne).trans h,
        Function.update_of_ne (s.lt_next d (mem_values_of_get? h)).ne _ _⟩

/-- A list of the index was there, or it is new and empty. -/
lemma get?_of_setdefault {s : Shelf κ α} {k k' : κ} {d : ℕ}
    (h : (s.setdefault k').2.get? k = some d) :
    s.get? k = some d ∨ (s.setdefault k').2.heap d = [] := by
  cases h' : s.get? k' with
  | some d' =>
      rw [setdefault_of_some h'] at h
      exact Or.inl h
  | none =>
      rw [setdefault_of_none h'] at h ⊢
      by_cases hk : k = k'
      · subst hk
        have hd : s.next = d := Option.some.inj ((Dict.get?_set_self _ _ _).symm.trans h)
        exact Or.inr (hd ▸ Function.update_self _ _ _)
      · exact Or.inl ((Dict.get?_set_of_ne _ hk).symm.trans h)

omit [DecidableEq κ] in
@[simp] lemma heap_modify_self (s : Shelf κ α) (d : ℕ) (l : List α) :
    (s.modify d l).heap d = l :=
  Function.update_self _ _ _

omit [DecidableEq κ] in
lemma heap_modify_of_ne (s : Shelf κ α) {d d' : ℕ} (h : d' ≠ d) (l : List α) :
    (s.modify d l).heap d' = s.heap d' :=
  Function.update_of_ne h _ _

@[simp] lemma get?_modify (s : Shelf κ α) (d : ℕ) (l : List α) (k : κ) :
    (s.modify d l).get? k = s.get? k := rfl

omit [DecidableEq κ] in
/-- Rewriting a list of the index changes the contents by the difference. -/
lemma countP_modify (s : Shelf κ α) (p : α → Bool) {d : ℕ} (h : d ∈ s.index.values) (l : List α) :
    (s.modify d l).contents.countP p + (s.heap d).countP p =
      s.contents.countP p + l.countP p := by
  have hperm := List.perm_cons_erase h
  have hne : ∀ d' ∈ s.index.values.erase d, Function.update s.heap d l d' = s.heap d' := by
    intro d' hd'
    refine Function.update_of_ne ?_ _ _
    rintro rfl
    exact (List.Nodup.not_mem_erase s.nodup) hd'
  have hnew := (hperm.flatMap_right (Function.update s.heap d l)).countP_eq p
  have hold := (hperm.flatMap_right s.heap).countP_eq p
  rw [List.flatMap_cons, List.countP_append, Function.update_self, List.flatMap_congr hne] at hnew
  rw [List.flatMap_cons, List.countP_append] at hold
  rw [contents, contents, modify, hnew, hold]
  omega

end Shelf

/-- When one task changes, what all of them hold changes by the difference. -/
lemma countP_flatMap_set (f : β → List α) (p : α → Bool) :
    ∀ {l : List β} {i : ℕ} {b : β} (b' : β), l[i]? = some b →
      ((l.set i b').flatMap f).countP p + (f b).countP p =
        (l.flatMap f).countP p + (f b').countP p
  | [], i, b, b', h => by simp at h
  | a :: l, 0, b, b', h => by
      obtain rfl := Option.some.inj h
      rw [List.set_cons_zero, List.flatMap_cons, List.flatMap_cons, List.countP_append,
        List.countP_append]
      omega
  | a :: l, i + 1, b, b', h => by
      have ih := countP_flatMap_set f p b' (show l[i]? = some b by simpa using h)
      rw [List.set_cons_succ, List.flatMap_cons, List.flatMap_cons, List.countP_append,
        List.countP_append]
      omega

end Wire
