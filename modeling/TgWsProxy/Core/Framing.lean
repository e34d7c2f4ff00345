import TgWsProxy.Core.Bytes

/-!
# Self-delimiting streams

A stream of frames carries its own boundaries: from the octets at hand one can tell where the
first frame ends, or that more octets are needed, or that no frame starts here.  A `Framer` is
that decision together with the two facts that make it usable on a stream that arrives in pieces:
a frame ends within the octets seen, and more octets never change a decision already taken.

* `Framer.lengths` — the greedy parse: the lengths of the complete frames, from the start.
* `Framer.rest` — what follows the last of them.
* **`Framer.lengths_append`** — parsing `s ++ t` is parsing `s`, then its rest followed by `t`.
  This is why a stream may be cut anywhere.
* `cut` — the pieces of a parallel sequence along given lengths.
-/

namespace Wire

variable {α β : Type*}

/-- Where the first frame of a stream ends: `none` when the octets do not tell yet, `some 0` when
no frame can start here, `some n` when the first `n` are a frame. -/
structure Framer (α : Type*) where
  next : List α → Option ℕ
  next_le : ∀ {s : List α} {n : ℕ}, next s = some n → n ≤ s.length
  next_append : ∀ {s : List α} {n : ℕ} (t : List α), next s = some n → next (s ++ t) = some n

namespace Framer

variable (F : Framer α)

/-- The lengths of the complete frames in the greedy parse of `s`. -/
def lengths (s : List α) : List ℕ :=
  match F.next s with
  | none => []
  | some 0 => []
  | some (n + 1) => if s.length = 0 then [] else (n + 1) :: lengths (s.drop (n + 1))
termination_by s.length
decreasing_by simp; omega

/-- What follows the last complete frame. -/
def rest (s : List α) : List α := s.drop (F.lengths s).sum

/-- The parse stopped because no frame can start at the rest. -/
def Halted (s : List α) : Prop := F.next (F.rest s) = some 0

variable {F} {s : List α}

lemma lengths_of_none (h : F.next s = none) : F.lengths s = [] := by rw [lengths, h]

lemma lengths_of_zero (h : F.next s = some 0) : F.lengths s = [] := by rw [lengths, h]

lemma lengths_of_succ {n : ℕ} (h : F.next s = some (n + 1)) :
    F.lengths s = (n + 1) :: F.lengths (s.drop (n + 1)) := by
  have hle := F.next_le h
  rw [lengths, h]
  exact if_neg (by omega)

lemma rest_of_succ {n : ℕ} (h : F.next s = some (n + 1)) :
    F.rest s = F.rest (s.drop (n + 1)) := by
  rw [rest, rest, lengths_of_succ h, List.sum_cons, List.drop_drop]

/-- The parse, one frame at a time. -/
@[elab_as_elim]
lemma parse_induction {motive : List α → Prop}
    (stop : ∀ s, F.next s = none ∨ F.next s = some 0 → motive s)
    (frame : ∀ s n, F.next s = some (n + 1) → motive (s.drop (n + 1)) → motive s)
    (s : List α) : motive s := by
  induction h : s.length using Nat.strongRecOn generalizing s with
  | _ m ih =>
      match hs : F.next s with
      | none => exact stop s (Or.inl hs)
      | some 0 => exact stop s (Or.inr hs)
      | some (n + 1) =>
          have hle := F.next_le hs
          exact frame s n hs (ih (s.length - (n + 1)) (by omega) _ (by simp))

lemma sum_lengths_le (s : List α) : (F.lengths s).sum ≤ s.length := by
  induction s using parse_induction (F := F) with
  | stop s h =>
      rw [h.elim lengths_of_none lengths_of_zero]
      simp
  | frame s n h ih =>
      have hle := F.next_le h
      rw [lengths_of_succ h, List.sum_cons]
      rw [List.length_drop] at ih
      omega

/-- **A stream may be cut anywhere.**  The frames of `s` stay frames when more arrives, and the
rest is parsed with what follows it. -/
theorem lengths_append (s t : List α) :
    F.lengths (s ++ t) = F.lengths s ++ F.lengths (F.rest s ++ t) := by
  induction s using parse_induction (F := F) with
  | stop s h =>
      have hnil : F.lengths s = [] := h.elim lengths_of_none lengths_of_zero
      simp [rest, hnil]
  | frame s n h ih =>
      have hle := F.next_le h
      rw [lengths_of_succ h, lengths_of_succ (F.next_append t h), rest_of_succ h,
        List.drop_append_of_le_length hle, ih, List.cons_append]

lemma rest_append (s t : List α) : F.rest (s ++ t) = F.rest (F.rest s ++ t) := by
  have hle := sum_lengths_le (F := F) s
  rw [rest, lengths_append, List.sum_append, ← List.drop_drop, List.drop_append_of_le_length hle,
    rest, rest]

/-- A parse that has halted ignores whatever comes later. -/
lemma Halted.append (h : F.Halted s) (t : List α) :
    F.lengths (s ++ t) = F.lengths s ∧ F.Halted (s ++ t) := by
  have h0 : F.next (F.rest s ++ t) = some 0 := F.next_append t h
  have hnil : F.lengths (F.rest s ++ t) = [] := lengths_of_zero h0
  constructor
  · rw [lengths_append, hnil, List.append_nil]
  · rw [Halted, rest_append, rest, hnil]
    exact h0

end Framer

/-! ## Cutting a parallel sequence -/

/-- The pieces of `c` of the given lengths, from its start. -/
def cut : List ℕ → List β → List (List β)
  | [], _ => []
  | n :: ns, c => c.take n :: cut ns (c.drop n)

lemma cut_append : ∀ (ms ns : List ℕ) (c : List β),
    cut (ms ++ ns) c = cut ms c ++ cut ns (c.drop ms.sum)
  | [], ns, c => by simp [cut]
  | m :: ms, ns, c => by simp [cut, cut_append ms ns, List.drop_drop]

lemma flatten_cut : ∀ (ns : List ℕ) (c : List β), (cut ns c).flatten = c.take ns.sum
  | [], c => by simp [cut]
  | n :: ns, c => by
      rw [cut, List.flatten_cons, flatten_cut ns, List.sum_cons, List.take_add]

/-- Only as much of the sequence is looked at as the lengths add up to. -/
lemma cut_append_of_le : ∀ {ns : List ℕ} {c : List β} (d : List β), ns.sum ≤ c.length →
    cut ns (c ++ d) = cut ns c
  | [], _, _, _ => rfl
  | n :: ns, c, d, h => by
      rw [List.sum_cons] at h
      rw [cut, cut, List.take_append_of_le_length (by omega),
        List.drop_append_of_le_length (by omega),
        cut_append_of_le d (by rw [List.length_drop]; omega)]

lemma map_length_cut : ∀ {ns : List ℕ} {c : List β}, ns.sum ≤ c.length →
    (cut ns c).map List.length = ns
  | [], _, _ => rfl
  | n :: ns, c, h => by
      rw [List.sum_cons] at h
      rw [cut, List.map_cons, List.length_take, Nat.min_eq_left (by omega),
        map_length_cut (by rw [List.length_drop]; omega)]

end Wire
