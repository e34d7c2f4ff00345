import TgWsProxy.Core.Text
import TgWsProxy.Update.Apply
import Mathlib.Order.PiLex

/-!
# Which release is offered

`_parse_version_tuple`, `_version_gt` and `find_asset` of `utils/update_check.py`, and what
`run_check` concludes from a version.

* `parseVersionTuple`, `versionGt` — the numbers of two versions, compared with zeros behind the
  shorter one.
* `rank`, `zipGt_iff` — a version as a sequence that goes on with zeros; the comparison is the
  lexicographic order of these.
* `runCheck`, `findAsset` — whether a release is newer or older, and the file that belongs to it.
* **`runCheck_offers`** — only a version that is greater is offered, and once it is installed it
  is not offered again.
-/

namespace TgWsProxy.Update

open Wire

/-! ## The code -/

section Code

-- the decimal value of a character beyond ASCII, and `str.isdigit` of a character
variable (decimal : Char → Option (Fin 10)) (isdigit : Char → Bool)

/-- What `\d` matches. -/
def isDecimal (c : Char) : Bool := if c.toNat < 128 then c.isDigit else (decimal c).isSome

/-- `s.strip().lstrip("vV")`. -/
def stripVersion (s : List Char) : List Char :=
  (strip s).dropWhile fun c => c = 'v' || c = 'V'

/-- The number a part begins with, or 0; `int` may raise. -/
def versionPart (part : List Char) : Option ℤ :=
  match part.takeWhile (isDecimal decimal) with
  | [] => some 0
  | digits => integer decimal digits

/-- `_parse_version_tuple(s)`. -/
def parseVersionTuple (s : List Char) : Option (List ℤ) :=
  ((stripVersion s).splitOn '.').mapM (versionPart decimal)

/-- `zip_longest(xs, ys, fillvalue=0)`. -/
def zipLongest (xs ys : List ℤ) : List (ℤ × ℤ) :=
  List.zipWithAll (fun x? y? => (x?.getD 0, y?.getD 0)) xs ys

/-- The loop of `_version_gt`. -/
def firstGt : List (ℤ × ℤ) → Bool
  | [] => false
  | (x, y) :: rest => if x ≠ y then decide (x > y) else firstGt rest

/-- `_version_gt(a, b)`. -/
def versionGt (a b : List Char) : Option Bool := do
  let xs ← parseVersionTuple decimal a
  let ys ← parseVersionTuple decimal b
  return firstGt (zipLongest xs ys)

/-- What `run_check` says about versions. -/
structure CheckState where
  latest : List Char
  hasUpdate : Bool
  aheadOfRelease : Bool
  deriving DecidableEq

/-- `run_check(current_version)` for a release with this `tag_name`; `none` where it raises. -/
def runCheck (current tag : List Char) : Option CheckState :=
  let latest := stripVersion tag
  match latest with
  | [] => none
  | c :: _ =>
      if isdigit c then do
        let hasUpdate ← versionGt decimal latest current
        let aheadOfRelease ← versionGt decimal current latest
        return ⟨latest, hasUpdate, aheadOfRelease⟩
      else none

/-- A file of a release. -/
structure Asset where
  name : List Char
  url : List Char
  digest : List Char

/-- `find_asset(name)`. -/
def findAsset (assets : List Asset) (name : List Char) : Option Asset :=
  assets.find? fun a => a.name = name && a.url ≠ [] && (expected a.digest).isSome

end Code

/-! ## The order of versions -/

/-- The numbers of a version, and zeros behind them. -/
def numbers (xs : List ℤ) (i : ℕ) : ℤ := xs.getD i 0

/-- The sequences of the versions in lexicographic order. -/
def ranked (xs : List ℤ) : Lex (ℕ → ℤ) := toLex (numbers xs)

lemma ranked_lt_iff {xs ys : List ℤ} : ranked ys < ranked xs ↔
    ∃ i, (∀ j < i, numbers ys j = numbers xs j) ∧ numbers ys i < numbers xs i := Iff.rfl

/-- The first number decides, and where it is the same the others do. -/
lemma ranked_cons_lt_iff {x y : ℤ} {xs ys : List ℤ} :
    ranked (y :: ys) < ranked (x :: xs) ↔ y < x ∨ x = y ∧ ranked ys < ranked xs := by
  rw [ranked_lt_iff, ranked_lt_iff]
  constructor
  · rintro ⟨i, hbefore, hlt⟩
    cases i with
    | zero => exact Or.inl hlt
    | succ i =>
        refine Or.inr ⟨(hbefore 0 i.succ_pos).symm, i, ?_, hlt⟩
        exact fun j hj => hbefore (j + 1) (Nat.succ_lt_succ hj)
  · rintro (hlt | ⟨rfl, i, hbefore, hlt⟩)
    · exact ⟨0, fun j hj => absurd hj j.not_lt_zero, hlt⟩
    · refine ⟨i + 1, ?_, hlt⟩
      intro j hj
      cases j with
      | zero => rfl
      | succ j => exact hbefore j (Nat.lt_of_succ_lt_succ hj)

/-- The loop compares the sequences. -/
lemma firstGt_iff (l : List (ℤ × ℤ)) :
    firstGt l = true ↔ ranked (l.map Prod.snd) < ranked (l.map Prod.fst) := by
  induction l with
  | nil => exact ⟨fun h => absurd h Bool.false_ne_true, fun h => absurd h (lt_irrefl _)⟩
  | cons p l ih =>
      obtain ⟨x, y⟩ := p
      rw [List.map_cons, List.map_cons, ranked_cons_lt_iff, ← ih, firstGt]
      split_ifs with h
      · simp [h]
      · simp [not_not.mp h]

/-- The zeros that fill up the shorter version are those of its sequence. -/
lemma numbers_zipLongest (xs ys : List ℤ) (i : ℕ) :
    numbers ((zipLongest xs ys).map Prod.fst) i = numbers xs i ∧
      numbers ((zipLongest xs ys).map Prod.snd) i = numbers ys i := by
  simp only [numbers, zipLongest, List.getD_eq_getElem?_getD, List.getElem?_map,
    List.getElem?_zipWithAll]
  cases xs[i]? <;> cases ys[i]? <;> exact ⟨rfl, rfl⟩

/-- **The comparison is the lexicographic order.** -/
lemma zipGt_iff (xs ys : List ℤ) :
    firstGt (zipLongest xs ys) = true ↔ ranked ys < ranked xs := by
  have hfst : ranked ((zipLongest xs ys).map Prod.fst) = ranked xs :=
    congrArg toLex (funext fun i => (numbers_zipLongest xs ys i).1)
  have hsnd : ranked ((zipLongest xs ys).map Prod.snd) = ranked ys :=
    congrArg toLex (funext fun i => (numbers_zipLongest xs ys i).2)
  rw [firstGt_iff, hfst, hsnd]

variable {decimal : Char → Option (Fin 10)} {isdigit : Char → Bool} {current tag a b : List Char}
  {c : CheckState}

/-- What a version ranks as. -/
def rank (decimal : Char → Option (Fin 10)) (s : List Char) : Option (Lex (ℕ → ℤ)) :=
  (parseVersionTuple decimal s).map ranked

lemma versionGt_eq_some {r : Bool} (h : versionGt decimal a b = some r) :
    ∃ new old, rank decimal a = some new ∧ rank decimal b = some old ∧ (r = true ↔ old < new) := by
  obtain ⟨xs, hxs, h⟩ := Option.bind_eq_some_iff.mp h
  obtain ⟨ys, hys, h⟩ := Option.bind_eq_some_iff.mp h
  obtain rfl := Option.some.inj h
  exact ⟨ranked xs, ranked ys, congrArg (Option.map ranked) hxs, congrArg (Option.map ranked) hys,
    zipGt_iff xs ys⟩

/-- No version is newer than itself. -/
lemma versionGt_self {new : Lex (ℕ → ℤ)} (h : rank decimal a = some new) :
    versionGt decimal a a = some false := by
  obtain ⟨xs, hxs, -⟩ := Option.map_eq_some_iff.mp h
  have hnot : firstGt (zipLongest xs xs) = false :=
    Bool.eq_false_iff.mpr fun hgt => lt_irrefl _ ((zipGt_iff xs xs).mp hgt)
  rw [versionGt, hxs]
  exact congrArg some hnot

lemma runCheck_eq_some (h : runCheck decimal isdigit current tag = some c) :
    c.latest = stripVersion tag ∧ (∃ d ds, c.latest = d :: ds ∧ isdigit d = true) ∧
      versionGt decimal c.latest current = some c.hasUpdate ∧
      versionGt decimal current c.latest = some c.aheadOfRelease := by
  rw [runCheck] at h
  split at h
  · cases h
  · rename_i d ds hlatest
    split_ifs at h with hd
    obtain ⟨newer, hnewer, h⟩ := Option.bind_eq_some_iff.mp h
    obtain ⟨older, holder, h⟩ := Option.bind_eq_some_iff.mp h
    obtain rfl := Option.some.inj h
    exact ⟨rfl, ⟨d, ds, hlatest, hd⟩, hnewer, holder⟩

/-- **Only what is greater is offered.**  Where `run_check` comes to a conclusion, the release is
offered exactly if its version is greater than that of the program, the program is ahead exactly if
it is the other way round; and the program that has the version of the release is told neither. -/
theorem runCheck_offers (h : runCheck decimal isdigit current tag = some c) :
    ∃ old new, rank decimal current = some old ∧ rank decimal c.latest = some new ∧
      (c.hasUpdate = true ↔ old < new) ∧ (c.aheadOfRelease = true ↔ new < old) ∧
      runCheck decimal isdigit c.latest tag = some ⟨c.latest, false, false⟩ := by
  obtain ⟨hlatest, ⟨d, ds, hcons, hd⟩, hnewer, holder⟩ := runCheck_eq_some h
  obtain ⟨new, old, hnew, hold, hhas⟩ := versionGt_eq_some hnewer
  obtain ⟨old', new', hold', hnew', hahead⟩ := versionGt_eq_some holder
  obtain rfl := Option.some.inj (hold.symm.trans hold')
  obtain rfl := Option.some.inj (hnew.symm.trans hnew')
  refine ⟨old, new, hold, hnew, hhas, hahead, ?_⟩
  have hself := versionGt_self hnew
  rw [runCheck, ← hlatest]
  rw [hcons] at hself ⊢
  refine (if_pos hd).trans ?_
  rw [hself]
  rfl

/-- The tag `v1.10` and the program `1.9.1`. -/
theorem runCheck_offers_sample : ∃ old new,
    rank (fun _ => none) ['1', '.', '9', '.', '1'] = some old ∧
    rank (fun _ => none) ['1', '.', '1', '0'] = some new ∧ old < new := by
  have hcheck : runCheck (fun _ => none) Char.isDigit ['1', '.', '9', '.', '1']
      ['v', '1', '.', '1', '0'] = some ⟨['1', '.', '1', '0'], true, false⟩ := by decide +kernel
  obtain ⟨old, new, hold, hnew, hhas, -, -⟩ := runCheck_offers hcheck
  exact ⟨old, new, hold, hnew, hhas.mp rfl⟩

/-! ## The file of a release -/

/-- A file that is found can be downloaded: its digest is one that `download_asset` takes. -/
lemma stepApply_of_findAsset {assets : List Asset} {name : List Char} {asset : Asset} {s : Sys}
    {pid : ℕ} {p : Proc} (h : findAsset assets name = some asset) (hpc : p.pc = .idle) :
    s.stepApply pid asset.digest true p =
      some { s.goTo pid { p with digest := asset.digest } s.disk
        (.downloading ⟨s.nextId, []⟩ []) with nextId := s.nextId + 1 } := by
  have hfound := List.find?_some h
  simp only [Bool.and_eq_true] at hfound
  rw [Sys.stepApply, hpc]
  exact if_pos ⟨rfl, hfound.2⟩

end TgWsProxy.Update
