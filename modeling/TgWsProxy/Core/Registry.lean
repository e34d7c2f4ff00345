import TgWsProxy.Core.Dict
import Mathlib.Data.List.Basic
import Mathlib.Order.Basic
import Mathlib.Data.Nat.Basic
import Mathlib.Tactic.Common

/-!
# Tasks and the dictionary that names the current one of each key

Tasks are started in order and never forgotten; a dictionary maps a key to the task that works for
it now.  A task that ends takes its own entry out, and nobody else's; dropping the dictionary
leaves the tasks to themselves.

* `Enrolled` — a task that is named satisfies one predicate, one that is not another.
* `Enrolled.append`, `set`, `release`, `clear` — a task is started, moves on, ends, and all are
  dropped.
* `Enrolled.unique` — a key has one named task.
-/

namespace Wire

variable {κ τ : Type*} [DecidableEq κ]

/-- What stands in a list with one more at its end. -/
lemma getElem?_concat {α : Type*} {l : List α} {a b : α} {i : ℕ} :
    (l ++ [a])[i]? = some b ↔ l[i]? = some b ∨ i = l.length ∧ a = b := by
  rw [List.getElem?_append]
  split_ifs with hi
  · simp [Nat.ne_of_lt hi]
  · rw [List.getElem?_eq_none_iff.mpr (Nat.not_lt.mp hi), List.getElem?_singleton]
    by_cases h : i = l.length
    · simp [h]
    · have hpos : i - l.length ≠ 0 := by omega
      simp [h, hpos]

/-- The tasks that `reg` names exist, work for the key that names them and satisfy `P`; the others
satisfy `Q`. -/
structure Enrolled (key : τ → κ) (P Q : τ → Prop) (reg : Dict κ ℕ) (tasks : List τ) : Prop where
  named : ∀ k t, reg.get? k = some t → ∃ r, tasks[t]? = some r ∧ key r = k ∧ P r
  loose : ∀ t r, tasks[t]? = some r → reg.get? (key r) ≠ some t → Q r

namespace Enrolled

variable {key : τ → κ} {P P' Q : τ → Prop} {reg : Dict κ ℕ} {tasks : List τ} {t : ℕ} {r r' : τ}

lemma nil : Enrolled key P Q .empty [] := ⟨nofun, nofun⟩

lemma of_named (h : Enrolled key P Q reg tasks) (hr : tasks[t]? = some r)
    (hreg : reg.get? (key r) = some t) : P r := by
  obtain ⟨q, hq, -, hP⟩ := h.named (key r) t hreg
  obtain rfl := Option.some.inj (hr.symm.trans hq)
  exact hP

lemma named_of_not_loose (h : Enrolled key P Q reg tasks) (hr : tasks[t]? = some r)
    (hnot : ¬ Q r) : reg.get? (key r) = some t :=
  not_not.mp (mt (h.loose t r hr) hnot)

/-- A key that names a task is the key of the task. -/
lemma key_eq (h : Enrolled key P Q reg tasks) (hr : tasks[t]? = some r) {k : κ}
    (hreg : reg.get? k = some t) : key r = k := by
  obtain ⟨q, hq, hk, -⟩ := h.named k t hreg
  obtain rfl := Option.some.inj (hr.symm.trans hq)
  exact hk

/-- **One task a key.** -/
lemma unique (h : Enrolled key P Q reg tasks) {u : ℕ} {q : τ} (hr : tasks[t]? = some r)
    (hq : tasks[u]? = some q) (ht : t ∈ reg.values) (hu : u ∈ reg.values) (hkey : key r = key q) :
    t = u := by
  obtain ⟨k, hk⟩ := Dict.mem_values.mp ht
  obtain ⟨j, hj⟩ := Dict.mem_values.mp hu
  rw [← h.key_eq hr hk] at hk
  rw [← h.key_eq hq hj, ← hkey, hk] at hj
  exact Option.some.inj hj

lemma imp (h : Enrolled key P Q reg tasks)
    (hP : ∀ t r, tasks[t]? = some r → reg.get? (key r) = some t → P r → P' r) :
    Enrolled key P' Q reg tasks := by
  refine ⟨fun k t hk => ?_, h.loose⟩
  obtain ⟨r, hr, rfl, hPr⟩ := h.named k t hk
  exact ⟨r, hr, rfl, hP t r hr hk hPr⟩

/-- A task is started for a key that has none. -/
lemma append (h : Enrolled key P Q reg tasks) (hkey : key r ∉ reg.keys) (hP : P r) :
    Enrolled key P Q (reg.set (key r) tasks.length) (tasks ++ [r]) := by
  refine ⟨?_, ?_⟩
  · intro k u hu
    by_cases hk : k = key r
    · subst hk
      have hlast := Option.some.inj ((Dict.get?_set_self _ _ _).symm.trans hu)
      exact ⟨r, getElem?_concat.mpr (Or.inr ⟨hlast.symm, rfl⟩), rfl, hP⟩
    · obtain ⟨q, hq, hrest⟩ := h.named k u ((Dict.get?_set_of_ne _ hk).symm.trans hu)
      exact ⟨q, getElem?_concat.mpr (Or.inl hq), hrest⟩
  · intro u q hq hu
    rcases getElem?_concat.mp hq with hq | ⟨rfl, rfl⟩
    · refine h.loose u q hq fun hu' => ?_
      by_cases hqk : key q = key r
      · exact hkey (hqk ▸ Dict.mem_keys_of_mem (Dict.get?_eq_some.mp hu'))
      · exact hu ((Dict.get?_set_of_ne _ hqk).trans hu')
    · exact absurd (Dict.get?_set_self _ _ _) hu

/-- A task moves on, and what it shares with the others with it. -/
lemma update (h : Enrolled key P Q reg tasks) (hr : tasks[t]? = some r) (hkey : key r' = key r)
    (hothers : ∀ u q, u ≠ t → tasks[u]? = some q → reg.get? (key q) = some u → P q → P' q)
    (hP : reg.get? (key r) = some t → P' r') (hQ : reg.get? (key r) ≠ some t → Q r') :
    Enrolled key P' Q reg (tasks.set t r') := by
  have hlt : t < tasks.length := (List.getElem?_eq_some_iff.mp hr).1
  refine ⟨?_, ?_⟩
  · intro k u hu
    by_cases hut : t = u
    · subst hut
      have hk := h.key_eq hr hu
      exact ⟨r', List.getElem?_set_self hlt, hkey.trans hk, hP (hk ▸ hu)⟩
    · obtain ⟨q, hq, rfl, hPq⟩ := h.named k u hu
      exact ⟨q, (List.getElem?_set_ne hut).trans hq, rfl, hothers u q (Ne.symm hut) hq hu hPq⟩
  · intro u q hq hu
    rw [List.getElem?_set] at hq
    split_ifs at hq with hut
    · obtain rfl := Option.some.inj hq
      subst hut
      exact hQ (hkey ▸ hu)
    · exact h.loose u q hq hu

lemma set (h : Enrolled key P Q reg tasks) (hr : tasks[t]? = some r) (hkey : key r' = key r)
    (hP : reg.get? (key r) = some t → P r') (hQ : reg.get? (key r) ≠ some t → Q r') :
    Enrolled key P Q reg (tasks.set t r') :=
  h.update hr hkey (fun _ _ _ _ _ hq => hq) hP hQ

/-- A task ends, takes its entry out, and changes what it shares with the others. -/
lemma release (h : Enrolled key P Q reg tasks) (hr : tasks[t]? = some r) (r' : τ)
    (hkey : key r' = key r)
    (hothers : ∀ u q, u ≠ t → tasks[u]? = some q → reg.get? (key q) = some u → P q → P' q)
    (hQ : Q r') : Enrolled key P' Q
      (if reg.get? (key r) = some t then reg.erase (key r) else reg) (tasks.set t r') := by
  split_ifs with hreg
  · refine ⟨?_, ?_⟩
    · intro k u hu
      have hk : k ≠ key r := by
        rintro rfl
        exact Option.some_ne_none _ (hu.symm.trans (Dict.get?_erase_self _ _))
      rw [Dict.get?_erase_of_ne hk] at hu
      obtain ⟨q, hq, rfl, hPq⟩ := h.named k u hu
      have hut : u ≠ t := by
        rintro rfl
        exact hk (h.key_eq hr hu).symm
      exact ⟨q, (List.getElem?_set_ne (Ne.symm hut)).trans hq, rfl, hothers u q hut hq hu hPq⟩
    · intro u q hq hu
      rw [List.getElem?_set] at hq
      split_ifs at hq with hut
      · exact Option.some.inj hq ▸ hQ
      · refine h.loose u q hq fun hu' => ?_
        have hk : key q ≠ key r := by
          intro hk
          exact hut (Option.some.inj (hreg.symm.trans (hk ▸ hu')))
        exact hu ((Dict.get?_erase_of_ne hk).trans hu')
  · exact h.update hr hkey hothers (fun hreg' => absurd hreg' hreg) fun _ => hQ

/-- All are dropped, and told so unless `c` spares them. -/
lemma clear (h : Enrolled key P Q reg tasks) (c : τ → Prop) [DecidablePred c] (f : τ → τ)
    (hf : ∀ r, c r → P r → Q (f r)) (hc : ∀ r, ¬ c r → Q r) :
    Enrolled key P Q .empty
      (tasks.mapIdx fun t r => if t ∈ reg.values ∧ c r then f r else r) := by
  refine ⟨nofun, fun t r' hr' _ => ?_⟩
  rw [List.getElem?_mapIdx] at hr'
  obtain ⟨r, hr, rfl⟩ := Option.map_eq_some_iff.mp hr'
  split_ifs with hdrop
  · obtain ⟨k, hk⟩ := Dict.mem_values.mp hdrop.1
    obtain rfl := h.key_eq hr hk
    exact hf r hdrop.2 (h.of_named hr hk)
  · by_cases hcr : c r
    · refine h.loose t r hr fun hreg => hdrop ⟨Dict.mem_values.mpr ⟨_, hreg⟩, hcr⟩
    · exact hc r hcr

end Enrolled

end Wire
