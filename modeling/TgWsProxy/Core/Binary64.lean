import Mathlib.Data.Int.Log
import Mathlib.Data.Rat.Floor
import Mathlib.Tactic.Linarith
import Mathlib.Tactic.NormNum
import Mathlib.Tactic.Ring

/-!
# Rounding a rational to double precision

* `roundHalfEven` — to the nearest integer, ties to the even one.
* `ulp` — the distance of two neighbouring doubles at a rational.
* `binary64` — the nearest double, and nothing beyond the largest one.
* **`two_pow_le_rounded_iff`** — a rational is rounded up to a power of two exactly from half an ulp
  below it on.
* **`rounded_mono`** — a larger rational has no smaller double.
* `trunc` — towards zero.
-/

namespace Wire

/-! ## To an integer -/

/-- The nearest integer, and of two equally near ones the even one. -/
def roundHalfEven (x : ℚ) : ℤ :=
  if x - ⌊x⌋ < 1 / 2 then ⌊x⌋
  else if 1 / 2 < x - ⌊x⌋ then ⌊x⌋ + 1
  else if Even ⌊x⌋ then ⌊x⌋ else ⌊x⌋ + 1

lemma floor_le_roundHalfEven (x : ℚ) : ⌊x⌋ ≤ roundHalfEven x := by
  simp only [roundHalfEven]
  split_ifs <;> omega

lemma roundHalfEven_le_floor_succ (x : ℚ) : roundHalfEven x ≤ ⌊x⌋ + 1 := by
  simp only [roundHalfEven]
  split_ifs <;> omega

/-- Rounding does not go below an integer that bounds the number from below. -/
lemma le_roundHalfEven {x : ℚ} {n : ℤ} (h : (n : ℚ) ≤ x) : n ≤ roundHalfEven x :=
  (Int.le_floor.mpr h).trans (floor_le_roundHalfEven x)

/-- Rounding does not go above an integer that bounds the number from above. -/
lemma roundHalfEven_le {x : ℚ} {n : ℤ} (h : x ≤ n) : roundHalfEven x ≤ n := by
  rcases lt_or_eq_of_le h with hlt | rfl
  · exact (roundHalfEven_le_floor_succ x).trans (Int.floor_lt.mpr hlt)
  · simp [roundHalfEven]

/-- An even integer is reached from half a unit below it on: there the tie goes up. -/
lemma even_le_roundHalfEven_iff {n : ℤ} (hn : Even n) (x : ℚ) :
    n ≤ roundHalfEven x ↔ (n : ℚ) - 1 / 2 ≤ x := by
  have hfloor := Int.floor_le x
  have hlt := Int.lt_floor_add_one x
  constructor
  · intro h
    by_contra hx
    have hx : x < n - 1 / 2 := not_le.mp hx
    have hfl : ⌊x⌋ + 1 ≤ n := by
      have : (⌊x⌋ : ℚ) < n := by linarith
      have : ⌊x⌋ < n := by exact_mod_cast this
      omega
    have hround : roundHalfEven x = ⌊x⌋ + 1 :=
      le_antisymm (roundHalfEven_le_floor_succ x) (hfl.trans h)
    have hnx : (n : ℚ) = ⌊x⌋ + 1 := by exact_mod_cast le_antisymm (hround ▸ h) hfl
    have hsmall : x - ⌊x⌋ < 1 / 2 := by linarith
    simp only [roundHalfEven, if_pos hsmall] at hround
    omega
  · intro hx
    rcases le_or_gt (n : ℚ) x with hnx | hnx
    · exact le_roundHalfEven hnx
    · have hfl : ⌊x⌋ = n - 1 := by
        rw [Int.floor_eq_iff]
        push_cast
        constructor <;> linarith
      have hodd : ¬ Even ⌊x⌋ := by
        rw [hfl, Int.even_sub_one]
        exact not_not.mpr hn
      have hbig : ¬ x - ⌊x⌋ < 1 / 2 := by
        rw [hfl]
        push_cast
        linarith
      have hround : roundHalfEven x = ⌊x⌋ + 1 := by
        rw [roundHalfEven, if_neg hbig, if_neg hodd, ite_self]
      omega

/-- Rounding keeps the order. -/
lemma roundHalfEven_mono {x y : ℚ} (h : x ≤ y) : roundHalfEven x ≤ roundHalfEven y := by
  rcases lt_or_eq_of_le (Int.floor_mono h) with hlt | heq
  · exact (roundHalfEven_le_floor_succ x).trans
      ((Int.add_one_le_of_lt hlt).trans (floor_le_roundHalfEven y))
  · -- in one unit what lies further up is not rounded further down
    simp only [roundHalfEven, ← heq]
    split_ifs <;> first | omega | (exfalso; linarith)

/-! ## To a double -/

/-- The unit in the last place of the doubles around `q`: 53 binary digits, none of them below
`2 ^ -1074`. -/
def ulp (q : ℚ) : ℚ := 2 ^ (max (Int.log 2 |q|) (-1022) - 52)

/-- The nearest double if there were no largest one. -/
def rounded (q : ℚ) : ℚ := roundHalfEven (q / ulp q) * ulp q

/-- The nearest double; `none` is the overflow to an infinity. -/
def binary64 (q : ℚ) : Option ℚ := if |rounded q| < 2 ^ 1024 then some (rounded q) else none

lemma ulp_pos (q : ℚ) : 0 < ulp q := zpow_pos two_pos _

/-- Multiples of the ulp that bound a rational bound its double. -/
lemma mul_ulp_le_rounded {q : ℚ} {n : ℤ} (h : n * ulp q ≤ q) : n * ulp q ≤ rounded q := by
  have hn : (n : ℚ) ≤ q / ulp q := (le_div_iff₀ (ulp_pos q)).mpr h
  exact mul_le_mul_of_nonneg_right (by exact_mod_cast le_roundHalfEven hn) (ulp_pos q).le

lemma rounded_le_mul_ulp {q : ℚ} {n : ℤ} (h : q ≤ n * ulp q) : rounded q ≤ n * ulp q := by
  have hn : q / ulp q ≤ (n : ℚ) := (div_le_iff₀ (ulp_pos q)).mpr h
  exact mul_le_mul_of_nonneg_right (by exact_mod_cast roundHalfEven_le hn) (ulp_pos q).le

lemma rounded_nonpos {q : ℚ} (h : q ≤ 0) : rounded q ≤ 0 := by
  have h0 : q ≤ (0 : ℤ) * ulp q := by simpa using h
  simpa using rounded_le_mul_ulp h0

lemma rounded_nonneg {q : ℚ} (h : 0 ≤ q) : 0 ≤ rounded q := by
  have h0 : (0 : ℤ) * ulp q ≤ q := by simpa using h
  simpa using mul_ulp_le_rounded h0

/-- `2 ^ n` ulps make a power of two. -/
lemma two_pow_mul_ulp (q : ℚ) (n : ℕ) :
    ((2 ^ n : ℤ) : ℚ) * ulp q = 2 ^ (max (Int.log 2 |q|) (-1022) - 52 + n) := by
  rw [ulp, zpow_add₀ two_ne_zero, mul_comm]
  push_cast
  rfl

/-- Around a positive rational the ulp is small enough for every power of two above it. -/
lemma rounded_le_two_pow {q : ℚ} {k : ℤ} (hk : -1022 ≤ k) (hq : 0 < q) (h : q < 2 ^ k) :
    rounded q ≤ 2 ^ k := by
  have hlow : (2 : ℚ) ^ Int.log 2 q ≤ q := by exact_mod_cast Int.zpow_log_le_self one_lt_two hq
  have hlog : Int.log 2 q < k := (zpow_lt_zpow_iff_right₀ one_lt_two).mp (hlow.trans_lt h)
  obtain ⟨n, hn⟩ : ∃ n : ℕ, max (Int.log 2 |q|) (-1022) - 52 + n = k :=
    ⟨(k - (max (Int.log 2 |q|) (-1022) - 52)).toNat, by rw [abs_of_pos hq]; omega⟩
  have htop : ((2 ^ n : ℤ) : ℚ) * ulp q = 2 ^ k := by rw [two_pow_mul_ulp, hn]
  exact htop ▸ rounded_le_mul_ulp (htop ▸ h.le)

/-- A power of two that bounds a rational from below bounds its double. -/
lemma two_pow_le_rounded {q : ℚ} (hq : 0 < q) (hlog : -1022 ≤ Int.log 2 q) :
    (2 : ℚ) ^ Int.log 2 q ≤ rounded q := by
  have hlow : (2 : ℚ) ^ Int.log 2 q ≤ q := by exact_mod_cast Int.zpow_log_le_self one_lt_two hq
  have hbottom : ((2 ^ 52 : ℤ) : ℚ) * ulp q = 2 ^ Int.log 2 q := by
    rw [two_pow_mul_ulp, abs_of_pos hq, max_eq_left hlog]
    congr 1
    omega
  exact hbottom ▸ mul_ulp_le_rounded (hbottom ▸ hlow)

/-- **Where a power of two begins.** The double of a rational reaches `2 ^ (k + 1)` exactly if the
rational is at most half an ulp below it. -/
theorem two_pow_le_rounded_iff (q : ℚ) {k : ℤ} (hk : -1022 ≤ k) :
    (2 : ℚ) ^ (k + 1) ≤ rounded q ↔ (2 : ℚ) ^ (k + 1) - 2 ^ (k - 53) ≤ q := by
  have hpow : ∀ {a b : ℤ}, a ≤ b → (2 : ℚ) ^ a ≤ 2 ^ b := fun h => zpow_le_zpow_right₀ one_le_two h
  have htwo : (2 : ℚ) ^ (k + 1) = 2 * 2 ^ k := by rw [zpow_add_one₀ two_ne_zero, mul_comm]
  have hgap : (0 : ℚ) < 2 ^ k := zpow_pos two_pos _
  have hhalf : (2 : ℚ) ^ (k - 53) ≤ 2 ^ k := hpow (by omega)
  rcases le_or_gt q 0 with hq | hq
  · have := rounded_nonpos hq
    constructor <;> intro h <;> linarith
  have hlow : (2 : ℚ) ^ Int.log 2 q ≤ q := by exact_mod_cast Int.zpow_log_le_self one_lt_two hq
  have hup : q < (2 : ℚ) ^ (Int.log 2 q + 1) := by
    exact_mod_cast Int.lt_zpow_succ_log_self (b := 2) one_lt_two q
  have habs : |q| = q := abs_of_pos hq
  rcases lt_trichotomy (Int.log 2 q) k with hlog | hlog | hlog
  · -- below `2 ^ k` nothing is rounded beyond `2 ^ k`
    have hqk : q < 2 ^ k := hup.trans_le (hpow (by omega))
    have hr : rounded q ≤ 2 ^ k := rounded_le_two_pow hk hq hqk
    constructor <;> intro h <;> linarith
  · -- in the last octave `2 ^ (k + 1)` is the even multiple `2 ^ 53` of the ulp
    have hulp : ulp q = 2 ^ (k - 52) := by rw [ulp, habs, hlog, max_eq_left hk]
    have htop : (2 : ℚ) ^ (k + 1) = ((2 ^ 53 : ℤ) : ℚ) * ulp q := by
      rw [two_pow_mul_ulp, habs, hlog, max_eq_left hk]
      congr 1
      omega
    have hgap : (2 : ℚ) ^ (k - 53) = 1 / 2 * ulp q := by
      rw [hulp, show k - 52 = k - 53 + 1 by omega, zpow_add_one₀ two_ne_zero]
      ring
    have heven : Even (2 ^ 53 : ℤ) := ⟨2 ^ 52, by norm_num⟩
    rw [htop, hgap, ← sub_mul, rounded, mul_le_mul_iff_left₀ (ulp_pos q), Int.cast_le,
      even_le_roundHalfEven_iff heven, le_div_iff₀ (ulp_pos q)]
  · -- from `2 ^ (k + 1)` on nothing is rounded below it
    have hqk : (2 : ℚ) ^ (k + 1) ≤ q := (hpow (by omega)).trans hlow
    have hr : (2 : ℚ) ^ (k + 1) ≤ rounded q :=
      (hpow (by omega)).trans (two_pow_le_rounded hq (by omega))
    have : (0 : ℚ) < 2 ^ (k - 53) := zpow_pos two_pos _
    constructor <;> intro h <;> linarith

/-- **Doubles keep the order of what they are rounded from.** -/
theorem rounded_mono {q r : ℚ} (h0 : 0 ≤ q) (h : q ≤ r) : rounded q ≤ rounded r := by
  rcases h0.eq_or_lt with rfl | hq
  · exact (rounded_nonpos le_rfl).trans (rounded_nonneg h)
  have hr : 0 < r := hq.trans_le h
  have hlogs : Int.log 2 q ≤ Int.log 2 r := Int.log_mono_right hq h
  by_cases hsame : max (Int.log 2 q) (-1022) = max (Int.log 2 r) (-1022)
  · have hulp : ulp q = ulp r := by rw [ulp, ulp, abs_of_pos hq, abs_of_pos hr, hsame]
    have hdiv : q / ulp q ≤ r / ulp q := div_le_div_of_nonneg_right h (ulp_pos q).le
    rw [rounded, rounded, ← hulp]
    exact mul_le_mul_of_nonneg_right (by exact_mod_cast roundHalfEven_mono hdiv) (ulp_pos q).le
  · -- a power of two lies between them
    have hlog : Int.log 2 q + 1 ≤ Int.log 2 r := by omega
    have hmin : -1022 ≤ Int.log 2 r := by omega
    have hup : q < (2 : ℚ) ^ (Int.log 2 q + 1) := by
      exact_mod_cast Int.lt_zpow_succ_log_self (b := 2) one_lt_two q
    have hlt : q < (2 : ℚ) ^ Int.log 2 r :=
      hup.trans_le (zpow_le_zpow_right₀ one_le_two hlog)
    exact (rounded_le_two_pow hmin hq hlt).trans (two_pow_le_rounded hr hmin)

/-- An overflow upwards begins half an ulp above the largest double. -/
lemma binary64_eq_none_of_le {q : ℚ} (h : (2 : ℚ) ^ 1024 - 2 ^ 970 ≤ q) : binary64 q = none := by
  have hr := (two_pow_le_rounded_iff q (k := 1023) (by norm_num)).mpr (by simpa using h)
  refine if_neg (not_lt.mpr ?_)
  exact (by simpa using hr : (2 : ℚ) ^ 1024 ≤ rounded q).trans (le_abs_self _)

lemma binary64_eq_some {q : ℚ} (h0 : 0 ≤ q) (h : q < (2 : ℚ) ^ 1024 - 2 ^ 970) :
    binary64 q = some (rounded q) := by
  have hr := (two_pow_le_rounded_iff q (k := 1023) (by norm_num)).not.mpr (not_le.mpr h)
  refine if_pos ?_
  rw [abs_of_nonneg (rounded_nonneg h0)]
  simpa using hr

lemma eq_rounded_of_binary64 {q r : ℚ} (h : binary64 q = some r) : r = rounded q := by
  rw [binary64] at h
  split_ifs at h
  exact (Option.some.inj h).symm

/-! ## Towards zero -/

/-- Towards zero. -/
def trunc (x : ℚ) : ℤ := if 0 ≤ x then ⌊x⌋ else ⌈x⌉

/-- A positive integer bounds the truncation exactly if it bounds the number. -/
lemma trunc_lt_iff {x : ℚ} {n : ℤ} (hn : 0 < n) : trunc x < n ↔ x < n := by
  rw [trunc]
  split_ifs with hx
  · exact Int.floor_lt
  · have hx0 : x < 0 := not_le.mp hx
    have hceil : ⌈x⌉ ≤ 0 := Int.ceil_le.mpr (by exact_mod_cast hx0.le)
    have hn0 : (0 : ℚ) < n := by exact_mod_cast hn
    constructor
    · intro _
      linarith
    · intro _
      omega

end Wire
