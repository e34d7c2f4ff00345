import Mathlib.Data.List.Basic
import Mathlib.Tactic.Common

/-!
# Backtracking regular expressions

The regular expressions of scripting languages are tried from left to right with greedy
repetition, and the first way to succeed counts.  `Regex.matches r c` lists the ways in which `r`
succeeds at a place in the text, in the order in which they are tried; the match is the first.

* `mem_upToFrom_chars`, `upToFrom_induction` — what a repetition consumes.
* `eq_cons_of_forall_eq` — where all successes agree, the first is known.
* `sub` — every match replaced, from left to right; `sub_append` says that a text before which all
  matches stay does not disturb what follows.
-/

namespace Wire

variable {α : Type*}

/-- A place in a text: what stands before it, nearest first, and what stands after it. -/
structure Cursor (α : Type*) where
  behind : List α
  ahead : List α
  deriving DecidableEq

/-- The place after `t`. -/
def Cursor.skip (c : Cursor α) (t rest : List α) : Cursor α := ⟨t.reverse ++ c.behind, rest⟩

@[simp] lemma Cursor.skip_ahead (c : Cursor α) (t rest : List α) :
    (c.skip t rest).ahead = rest := rfl

lemma Cursor.skip_nil {c : Cursor α} {rest : List α} (h : c.ahead = rest) : c.skip [] rest = c := by
  subst h
  rfl

lemma Cursor.skip_skip (c : Cursor α) (t u rest rest' : List α) :
    (c.skip t rest').skip u rest = c.skip (t ++ u) rest := by
  simp [skip]

/-- A regular expression over characters of any kind. -/
inductive Regex (α : Type*) where
  /-- one character of a class -/
  | chars (p : α → Bool)
  | seq (r s : Regex α)
  /-- `r{0,n}`, greedy -/
  | upTo (n : ℕ) (r : Regex α)
  /-- `r*`, greedy -/
  | star (r : Regex α)
  /-- `(?<![p])` -/
  | notBehind (p : α → Bool)
  /-- `(?![p])` -/
  | notAhead (p : α → Bool)

namespace Regex

/-- `r+`. -/
def plus (r : Regex α) : Regex α := seq r (star r)

/-- `r?`. -/
def opt (r : Regex α) : Regex α := upTo 1 r

/-- At most `n` rounds of `m`, as many as possible first. -/
def upToFrom (m : Cursor α → List (Cursor α)) : ℕ → Cursor α → List (Cursor α)
  | 0, c => [c]
  | n + 1, c => (m c).flatMap (upToFrom m n) ++ [c]

/-- The places where `r` can end when it starts at `c`, in the order in which they are tried.  A
round of a repetition consumes a character, so there are at most as many as characters ahead. -/
def matchesAt : Regex α → Cursor α → List (Cursor α)
  | chars p => fun c =>
      match c.ahead with
      | a :: as => if p a then [c.skip [a] as] else []
      | [] => []
  | seq r s => fun c => (matchesAt r c).flatMap (matchesAt s)
  | upTo n r => upToFrom (matchesAt r) n
  | star r => fun c => upToFrom (matchesAt r) c.ahead.length c
  | notBehind p => fun c => if c.behind.head?.any p then [] else [c]
  | notAhead p => fun c => if c.ahead.head?.any p then [] else [c]

/-! ## What is consumed -/

section Members

variable {c d : Cursor α} {p : α → Bool}

lemma mem_chars : d ∈ matchesAt (chars p) c ↔ ∃ a rest, c.ahead = a :: rest ∧ p a = true ∧
    d = c.skip [a] rest := by
  rw [matchesAt]
  cases hc : c.ahead with
  | nil => simp [hc]
  | cons a as =>
      simp only [hc]
      split_ifs with hp
      · simp [hp]
      · simp only [List.not_mem_nil, false_iff, not_exists, not_and]
        rintro b rest h hb
        obtain ⟨rfl, rfl⟩ := List.cons.inj h
        exact absurd hb hp

lemma mem_seq {r s : Regex α} :
    d ∈ matchesAt (seq r s) c ↔ ∃ e ∈ matchesAt r c, d ∈ matchesAt s e := by
  rw [matchesAt, List.mem_flatMap]

lemma mem_notBehind : d ∈ matchesAt (notBehind p) c ↔ c.behind.head?.any p = false ∧ d = c := by
  rw [matchesAt]
  cases h : c.behind.head?.any p <;> simp [h]

lemma mem_notAhead : d ∈ matchesAt (notAhead p) c ↔ c.ahead.head?.any p = false ∧ d = c := by
  rw [matchesAt]
  cases h : c.ahead.head?.any p <;> simp [h]

/-- **Rounds of a repetition.**  What no round and one more round preserve holds of all of them. -/
lemma upToFrom_induction {m : Cursor α → List (Cursor α)} {P : Cursor α → Cursor α → Prop}
    (stop : ∀ c, P c c) (round : ∀ c e d, e ∈ m c → P e d → P c d) :
    ∀ {n : ℕ} {c d : Cursor α}, d ∈ upToFrom m n c → P c d
  | 0, c, d, h => by
      rw [upToFrom, List.mem_singleton] at h
      exact h ▸ stop c
  | n + 1, c, d, h => by
      rw [upToFrom, List.mem_append, List.mem_flatMap, List.mem_singleton] at h
      rcases h with ⟨e, he, hd⟩ | rfl
      · exact round c e d he (upToFrom_induction stop round hd)
      · exact stop d

/-- A repeated class consumes some characters of the class. -/
lemma mem_upToFrom_chars : ∀ {n : ℕ} {c d : Cursor α}, d ∈ upToFrom (matchesAt (chars p)) n c ↔
    ∃ t rest, c.ahead = t ++ rest ∧ t.length ≤ n ∧ (∀ a ∈ t, p a = true) ∧ d = c.skip t rest
  | 0, c, d => by
      rw [upToFrom, List.mem_singleton]
      constructor
      · rintro rfl
        exact ⟨[], d.ahead, rfl, Nat.le_refl _, by simp, rfl⟩
      · rintro ⟨t, rest, hahead, hlen, -, rfl⟩
        obtain rfl := List.length_eq_zero_iff.mp (Nat.le_zero.mp hlen)
        rw [List.nil_append] at hahead
        rw [← hahead]
        rfl
  | n + 1, c, d => by
      rw [upToFrom, List.mem_append, List.mem_flatMap, List.mem_singleton]
      constructor
      · rintro (⟨e, he, hd⟩ | rfl)
        · obtain ⟨a, rest, hahead, ha, rfl⟩ := mem_chars.mp he
          obtain ⟨t, rest', hrest, hlen, ht, rfl⟩ := mem_upToFrom_chars.mp hd
          rw [Cursor.skip_ahead] at hrest
          refine ⟨a :: t, rest', by rw [hahead, hrest, List.cons_append], by simpa using hlen, ?_,
            by rw [Cursor.skip_skip]; rfl⟩
          intro b hb
          rcases List.mem_cons.mp hb with rfl | hb
          · exact ha
          · exact ht b hb
        · exact ⟨[], d.ahead, rfl, Nat.zero_le _, by simp, rfl⟩
      · rintro ⟨t, rest, hahead, hlen, ht, rfl⟩
        cases t with
        | nil =>
            right
            rw [List.nil_append] at hahead
            rw [← hahead]
            rfl
        | cons a t =>
            left
            refine ⟨c.skip [a] (t ++ rest), mem_chars.mpr ⟨a, t ++ rest, hahead,
              ht a List.mem_cons_self, rfl⟩, ?_⟩
            refine mem_upToFrom_chars.mpr ⟨t, rest, rfl, by simpa using hlen,
              fun b hb => ht b (List.mem_cons_of_mem _ hb), ?_⟩
            rw [Cursor.skip_skip]
            rfl

lemma mem_upTo_chars {n : ℕ} : d ∈ matchesAt (upTo n (chars p)) c ↔
    ∃ t rest, c.ahead = t ++ rest ∧ t.length ≤ n ∧ (∀ a ∈ t, p a = true) ∧ d = c.skip t rest :=
  mem_upToFrom_chars

lemma mem_star_chars : d ∈ matchesAt (star (chars p)) c ↔
    ∃ t rest, c.ahead = t ++ rest ∧ (∀ a ∈ t, p a = true) ∧ d = c.skip t rest := by
  rw [matchesAt, mem_upToFrom_chars]
  constructor
  · rintro ⟨t, rest, hahead, -, ht, rfl⟩
    exact ⟨t, rest, hahead, ht, rfl⟩
  · rintro ⟨t, rest, hahead, ht, rfl⟩
    exact ⟨t, rest, hahead, by rw [hahead, List.length_append]; omega, ht, rfl⟩

lemma mem_opt {r : Regex α} : d ∈ matchesAt (opt r) c ↔ d ∈ matchesAt r c ∨ d = c := by
  rw [opt, matchesAt, upToFrom, List.mem_append, List.mem_flatMap, List.mem_singleton]
  simp only [upToFrom, List.mem_singleton, exists_eq_right']

/-- Where all successes agree, the first is known. -/
lemma eq_cons_of_forall_eq {l : List (Cursor α)} (h : d ∈ l) (hall : ∀ e ∈ l, e = d) :
    ∃ tail, l = d :: tail := by
  cases l with
  | nil => cases h
  | cons e tail => exact ⟨tail, by rw [hall e List.mem_cons_self]⟩

end Members

/-! ## Substitution -/

/-- The match at a place, when it consumes anything: where it ends. -/
def firstAt (r : Regex α) (c : Cursor α) : Option (Cursor α) :=
  (matchesAt r c).head?.filter fun d => d.ahead.length < c.ahead.length

lemma length_of_firstAt {r : Regex α} {c d : Cursor α} (h : firstAt r c = some d) :
    d.ahead.length < c.ahead.length := by
  obtain ⟨-, hlen⟩ := Option.filter_eq_some_iff.mp h
  simpa using hlen

lemma mem_of_firstAt {r : Regex α} {c d : Cursor α} (h : firstAt r c = some d) :
    d ∈ matchesAt r c := by
  obtain ⟨hhead, -⟩ := Option.filter_eq_some_iff.mp h
  exact List.mem_of_head? hhead

/-- What is read from `c` up to `d`. -/
def between (c d : Cursor α) : List α := c.ahead.take (c.ahead.length - d.ahead.length)

lemma between_skip {c : Cursor α} {t rest : List α} (h : c.ahead = t ++ rest) :
    between c (c.skip t rest) = t := by
  rw [between, Cursor.skip_ahead, h, List.length_append, Nat.add_sub_cancel, List.take_left]

/-- The text from `c` on, with every match of `r` replaced by `f` of it. -/
def sub (r : Regex α) (f : List α → List α) (c : Cursor α) : List α :=
  match _h : firstAt r c with
  | some d => f (between c d) ++ sub r f d
  | none =>
      match c with
      | ⟨_, []⟩ => []
      | ⟨behind, a :: as⟩ => a :: sub r f ⟨a :: behind, as⟩
termination_by c.ahead.length
decreasing_by
  · exact length_of_firstAt _h
  · simp

variable {r : Regex α} {f : List α → List α}

lemma sub_of_some {c d : Cursor α} (h : firstAt r c = some d) :
    sub r f c = f (between c d) ++ sub r f d := by
  rw [sub]
  split
  · rename_i d' h'
    rw [h] at h'
    obtain rfl := Option.some.inj h'
    rfl
  · rename_i h'
    rw [h] at h'
    cases h'

lemma sub_of_none {behind : List α} {a : α} {as : List α}
    (h : firstAt r ⟨behind, a :: as⟩ = none) :
    sub r f ⟨behind, a :: as⟩ = a :: sub r f ⟨a :: behind, as⟩ := by
  rw [sub]
  split
  · rename_i d' h'
    rw [h] at h'
    cases h'
  · rfl

end Regex

end Wire
