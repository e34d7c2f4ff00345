import TgWsProxy.Core.Binary64
import Mathlib.Data.Nat.Digits.Lemmas
import Mathlib.Data.List.DropRight

/-!
# Text and the numbers it spells

A scripting language's reading of text: what is white space, what is a line, and which integer or
floating-point number a text stands for.

* `isSpace`, `strip`, `splitlines`, `words` — white space and lines.
* `digitPart` — digits with single underscores between them.
* `integer` — the integer a text spells.
* `decimalText`, **`integer_decimalText`** — a number written and read again.
* `Spelled`, `spelled` — the number, infinity or NaN a text spells, before any rounding.
* `Double`, `float` — the floating-point number it is read as.
-/

namespace Wire

/-! ## White space and lines -/

/-- White space: the bidirectional types WS, B and S, and the category Zs. -/
def isSpace (c : Char) : Bool :=
  let n := c.toNat
  (9 ≤ n && n ≤ 13) || (0x1c ≤ n && n ≤ 0x20) || n = 0x85 || n = 0xa0 || n = 0x1680
    || (0x2000 ≤ n && n ≤ 0x200a) || n = 0x2028 || n = 0x2029 || n = 0x202f || n = 0x205f
    || n = 0x3000

/-- `s.strip()`. -/
def strip (s : List Char) : List Char := (s.dropWhile isSpace).rdropWhile isSpace

/-- The characters that end a line. -/
def isLineBreak (c : Char) : Bool :=
  let n := c.toNat
  (10 ≤ n && n ≤ 13) || (0x1c ≤ n && n ≤ 0x1e) || n = 0x85 || n = 0x2028 || n = 0x2029

/-- The lines from `line`, which holds what is read of the present one, on. -/
def linesFrom (line : List Char) : List Char → List (List Char)
  | [] => if line = [] then [] else [line]
  | '\r' :: '\n' :: s => line :: linesFrom [] s
  | c :: s => if isLineBreak c then line :: linesFrom [] s else linesFrom (line ++ [c]) s

/-- `s.splitlines()`. -/
def splitlines (s : List Char) : List (List Char) := linesFrom [] s

/-- `s.split()`. -/
def words (s : List Char) : List (List Char) := (s.splitOnP isSpace).filter (· ≠ [])

/-! ## Digits -/

/-- White space as number literals have it once they are ASCII. -/
def isAsciiSpace (c : Char) : Bool := (9 ≤ c.toNat && c.toNat ≤ 13) || c = ' '

/-- `"0123456789abcdefABCDEF"`. -/
def isHexDigit (c : Char) : Bool :=
  c.isDigit || ('a' ≤ c && c ≤ 'f') || ('A' ≤ c && c ≤ 'F')

/-- The value of a digit. -/
def digit (c : Char) : ℕ := c.toNat - '0'.toNat

/-- Digits, each alone or behind one underscore; and the rest. -/
def moreDigits : List Char → List ℕ × List Char
  | [] => ([], [])
  | '_' :: c :: s =>
      if c.isDigit then (digit c :: (moreDigits s).1, (moreDigits s).2) else ([], '_' :: c :: s)
  | c :: s => if c.isDigit then (digit c :: (moreDigits s).1, (moreDigits s).2) else ([], c :: s)

/-- A digit and what `moreDigits` finds behind it; and the rest. -/
def digitPart : List Char → Option (List ℕ × List Char)
  | [] => none
  | c :: s => if c.isDigit then some (digit c :: (moreDigits s).1, (moreDigits s).2) else none

/-- Digits that may be missing. -/
def optDigitPart (s : List Char) : List ℕ × List Char := (digitPart s).getD ([], s)

/-- Whether a minus sign leads, and what stands behind the sign. -/
def sign : List Char → Bool × List Char
  | '-' :: s => (true, s)
  | '+' :: s => (false, s)
  | s => (false, s)

/-- The value of digits, the most significant first. -/
def ofDigits (ds : List ℕ) : ℕ := Nat.ofDigits 10 ds.reverse

section Numbers

-- the decimal value of a character beyond ASCII, which the character database knows
variable (decimal : Char → Option (Fin 10))

/-- The ASCII character that stands for `c` in a number literal. -/
def toAscii (c : Char) : Char :=
  if c.toNat < 127 then c
  else if isSpace c then ' '
  else
    match decimal c with
    | some d => d.val.digitChar
    | none => '?'

/-- A number literal in ASCII, the white space around it gone. -/
def literal (s : List Char) : List Char :=
  ((s.map (toAscii decimal)).dropWhile isAsciiSpace).rdropWhile isAsciiSpace

/-! ## Integers -/

/-- More digits than this are refused. -/
def maxStrDigits : ℕ := 4300

/-- `int(s)`; `none` is a `ValueError`. -/
def integer (s : List Char) : Option ℤ :=
  let (negative, unsigned) := sign (literal decimal s)
  match digitPart unsigned with
  | some (ds, []) =>
      if ds.length ≤ maxStrDigits then
        some (if negative then -(ofDigits ds : ℤ) else ofDigits ds)
      else none
  | _ => none

/-! ## Integers written and read -/

/-- The digits of a number, the most significant first. -/
def decimalDigits (n : ℕ) : List ℕ := if n = 0 then [0] else (Nat.digits 10 n).reverse

/-- `str(n)`. -/
def decimalText (n : ℕ) : List Char := (decimalDigits n).map Nat.digitChar

lemma decimalDigits_ne_nil (n : ℕ) : decimalDigits n ≠ [] := by
  rw [decimalDigits]
  split_ifs with h
  · simp
  · simpa using Nat.digits_ne_nil_iff_ne_zero.mpr h

lemma lt_ten_of_mem_decimalDigits {n d : ℕ} (h : d ∈ decimalDigits n) : d < 10 := by
  rw [decimalDigits] at h
  split_ifs at h
  · rw [List.mem_singleton.mp h]
    norm_num
  · exact Nat.digits_lt_base (by norm_num) (List.mem_reverse.mp h)

lemma ofDigits_decimalDigits (n : ℕ) : ofDigits (decimalDigits n) = n := by
  rw [decimalDigits]
  split_ifs with h
  · rw [h]
    rfl
  · rw [ofDigits, List.reverse_reverse, Nat.ofDigits_digits]

lemma length_decimalDigits_le {n k : ℕ} (hk : 0 < k) (h : n < 10 ^ k) :
    (decimalDigits n).length ≤ k := by
  rw [decimalDigits]
  split_ifs
  · exact hk
  · rw [List.length_reverse]
    exact (Nat.digits_length_le_iff (by norm_num) n).mpr h

lemma isDigit_digitChar {d : ℕ} (h : d < 10) : d.digitChar.isDigit = true := by
  interval_cases d <;> decide

lemma digit_digitChar {d : ℕ} (h : d < 10) : digit d.digitChar = d := by
  interval_cases d <;> decide

lemma toNat_of_isDigit {c : Char} (h : c.isDigit = true) : 48 ≤ c.toNat ∧ c.toNat ≤ 57 := by
  simp only [Char.isDigit, Bool.and_eq_true, decide_eq_true_eq] at h
  exact ⟨UInt32.le_iff_toNat_le.mp h.1, UInt32.le_iff_toNat_le.mp h.2⟩

lemma not_isAsciiSpace_of_isDigit {c : Char} (h : c.isDigit = true) : isAsciiSpace c = false := by
  have hc := toNat_of_isDigit h
  have hne : c ≠ ' ' := by
    rintro rfl
    cases h
  simp only [isAsciiSpace, hne, decide_false, Bool.or_false, Bool.and_eq_false_iff,
    decide_eq_false_iff_not]
  omega

lemma toAscii_of_isDigit {c : Char} (h : c.isDigit = true) : toAscii decimal c = c := by
  have hc := toNat_of_isDigit h
  exact if_pos (by omega)

lemma moreDigits_map : ∀ {ds : List ℕ}, (∀ d ∈ ds, d < 10) →
    moreDigits (ds.map Nat.digitChar) = (ds, []) := by
  intro ds hds
  induction ds with
  | nil => rfl
  | cons d ds ih =>
      have hd : d < 10 := hds d List.mem_cons_self
      have hne : d.digitChar ≠ '_' := by
        intro heq
        have hdigit := isDigit_digitChar hd
        rw [heq] at hdigit
        cases hdigit
      rw [List.map_cons, moreDigits, if_pos (isDigit_digitChar hd),
        ih fun x hx => hds x (List.mem_cons_of_mem d hx), digit_digitChar hd]
      intro c s hc
      exact absurd hc hne

lemma digitPart_map {ds : List ℕ} (hne : ds ≠ []) (hds : ∀ d ∈ ds, d < 10) :
    digitPart (ds.map Nat.digitChar) = some (ds, []) := by
  obtain ⟨d, ds, rfl⟩ := List.exists_cons_of_ne_nil hne
  have hd : d < 10 := hds d List.mem_cons_self
  rw [List.map_cons, digitPart, if_pos (isDigit_digitChar hd),
    moreDigits_map fun x hx => hds x (List.mem_cons_of_mem d hx), digit_digitChar hd]

/-- A text of digits is its own literal. -/
lemma literal_of_isDigit {s : List Char} (h : ∀ c ∈ s, c.isDigit = true) :
    literal decimal s = s := by
  have hmap : s.map (toAscii decimal) = s :=
    (List.map_congr_left fun c hc => toAscii_of_isDigit decimal (h c hc)).trans (List.map_id' s)
  have hspace : ∀ c ∈ s, ¬ isAsciiSpace c = true := fun c hc => by
    simp [not_isAsciiSpace_of_isDigit (h c hc)]
  have hfront : s.dropWhile isAsciiSpace = s :=
    List.dropWhile_eq_self_iff.mpr fun hl => hspace _ (List.getElem_mem hl)
  rw [literal, hmap, hfront]
  exact List.rdropWhile_eq_self_iff.mpr fun hl => hspace _ (List.getLast_mem hl)

/-- It has no sign either. -/
lemma sign_of_isDigit {s : List Char} (h : ∀ c ∈ s, c.isDigit = true) : sign s = (false, s) := by
  have hfirst : ∀ c r, s = c :: r → c ≠ '-' ∧ c ≠ '+' := by
    rintro c r rfl
    have hc := h c List.mem_cons_self
    constructor
    all_goals
      rintro rfl
      cases hc
  rw [sign]
  · rintro r rfl
    exact (hfirst _ _ rfl).1 rfl
  · rintro r rfl
    exact (hfirst _ _ rfl).2 rfl

/-- **Integers survive being written.** -/
theorem integer_decimalText {n : ℕ} (h : n < 10 ^ maxStrDigits) :
    integer decimal (decimalText n) = some (n : ℤ) := by
  have hdigits : ∀ d ∈ decimalDigits n, d < 10 := fun _ => lt_ten_of_mem_decimalDigits
  have htext : ∀ c ∈ decimalText n, c.isDigit = true := by
    intro c hc
    obtain ⟨d, hd, rfl⟩ := List.mem_map.mp hc
    exact isDigit_digitChar (hdigits d hd)
  have hlen : (decimalDigits n).length ≤ maxStrDigits :=
    length_decimalDigits_le (by norm_num [maxStrDigits]) h
  have hpart := digitPart_map (decimalDigits_ne_nil n) hdigits
  rw [← decimalText] at hpart
  simp only [integer, literal_of_isDigit decimal htext, sign_of_isDigit htext, hpart, hlen, if_true,
    ofDigits_decimalDigits, Bool.false_eq_true, if_false]

/-! ## Floating-point numbers -/

/-- What a text spells. -/
inductive Spelled
  | number (q : ℚ)
  | infinity
  | nan
  deriving DecidableEq

/-- The exponent part, which may be missing. -/
def exponent : List Char → Option ℤ
  | [] => some 0
  | c :: s =>
      if c = 'e' ∨ c = 'E' then
        let (negative, unsigned) := sign s
        match digitPart unsigned with
        | some (ds, []) => some (if negative then -(ofDigits ds : ℤ) else ofDigits ds)
        | _ => none
      else none

/-- A decimal number without a sign: digits, a point among or around them, an exponent. -/
def unsignedNumber (s : List Char) : Option ℚ :=
  let (whole, s₁) := optDigitPart s
  let (fraction, s₂) :=
    match s₁ with
    | '.' :: r => optDigitPart r
    | _ => ([], s₁)
  if whole = [] ∧ fraction = [] then none
  else
    (exponent s₂).map fun (e : ℤ) =>
      (ofDigits (whole ++ fraction) : ℚ) * 10 ^ (e - (fraction.length : ℤ))

/-- What a text spells, if it is a floating-point literal at all. -/
def spelled (s : List Char) : Option Spelled :=
  let (negative, unsigned) := sign (literal decimal s)
  let lower := unsigned.map Char.toLower
  if lower = ['i', 'n', 'f'] ∨ lower = ['i', 'n', 'f', 'i', 'n', 'i', 't', 'y'] then some .infinity
  else if lower = ['n', 'a', 'n'] then some .nan
  else (unsignedNumber unsigned).map fun q => .number (if negative then -q else q)

/-- A floating-point number. -/
inductive Double
  | finite (q : ℚ)
  | infinite
  | nan
  deriving DecidableEq

/-- The double next to what is spelled; too large a number becomes an infinity. -/
def Spelled.toDouble : Spelled → Double
  | .number q =>
      match binary64 q with
      | some r => .finite r
      | none => .infinite
  | .infinity => .infinite
  | .nan => .nan

/-- `float(s)`; `none` is a `ValueError`. -/
def float (s : List Char) : Option Double := (spelled decimal s).map Spelled.toDouble

/-- A text is read as a finite number exactly if it spells a number that does not overflow. -/
lemma float_eq_finite_iff {s : List Char} {r : ℚ} :
    float decimal s = some (.finite r) ↔
      ∃ q, spelled decimal s = some (.number q) ∧ binary64 q = some r := by
  rw [float]
  cases hs : spelled decimal s with
  | none => simp
  | some n =>
      cases n with
      | number q => cases hq : binary64 q <;> simp [Spelled.toDouble, hq]
      | infinity => simp [Spelled.toDouble]
      | nan => simp [Spelled.toDouble]

end Numbers

end Wire
