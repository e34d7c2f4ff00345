import Mathlib

/-!
# Byte strings and fixed-width integers

The wire formats of the proxy are sequences of octets with integers stored in them at fixed
width.  A byte string is a list of octets; an integer of a given width is read with `leNat` or
`beNat` and written with `leBytes` or `beBytes`.  Nothing here knows which protocol uses it.
-/

namespace Wire

/-- A byte string. -/
abbrev Bytes := List UInt8

/-! ## Little endian -/

/-- The number whose little-endian octets are `bs`. -/
def leNat (bs : Bytes) : ℕ := Nat.ofDigits 256 (bs.map UInt8.toNat)

/-- The `k` low octets of `n`, least significant first. -/
def leBytes : ℕ → ℕ → Bytes
  | 0, _ => []
  | k + 1, n => UInt8.ofNat n :: leBytes k (n / 256)

@[simp] lemma leNat_nil : leNat [] = 0 := rfl

@[simp] lemma leNat_cons (b : UInt8) (bs : Bytes) :
    leNat (b :: bs) = b.toNat + 256 * leNat bs := by
  simp [leNat, Nat.ofDigits_cons]

@[simp] lemma length_leBytes : ∀ k n : ℕ, (leBytes k n).length = k
  | 0, _ => rfl
  | k + 1, n => by simp [leBytes, length_leBytes k]

/-- An integer read from `k` octets is below `256 ^ k`. -/
lemma leNat_lt : ∀ bs : Bytes, leNat bs < 256 ^ bs.length
  | [] => by simp
  | b :: bs => by
      have hb := b.toNat_lt
      have ih := leNat_lt bs
      rw [leNat_cons, List.length_cons, pow_succ]
      omega

/-- Reading back what was written gives the number modulo the width. -/
lemma leNat_leBytes : ∀ k n : ℕ, leNat (leBytes k n) = n % 256 ^ k
  | 0, n => by simp [leBytes, Nat.mod_one]
  | k + 1, n => by
      have h : (UInt8.ofNat n).toNat = n % 256 := by simp
      rw [leBytes, leNat_cons, leNat_leBytes k, h, pow_succ', Nat.mod_mul]

lemma leNat_leBytes_of_lt {k n : ℕ} (h : n < 256 ^ k) : leNat (leBytes k n) = n := by
  rw [leNat_leBytes, Nat.mod_eq_of_lt h]

/-- Writing back what was read gives the octets. -/
lemma leBytes_leNat : ∀ bs : Bytes, leBytes bs.length (leNat bs) = bs
  | [] => rfl
  | b :: bs => by
      have hb := b.toNat_lt
      have hdiv : (b.toNat + 256 * leNat bs) / 256 = leNat bs := by omega
      have hmod : UInt8.ofNat (b.toNat + 256 * leNat bs) = b := by
        apply UInt8.toNat_inj.mp
        simp only [UInt8.toNat_ofNat']
        omega
      rw [List.length_cons, leBytes, leNat_cons, hdiv, leBytes_leNat bs, hmod]

/-! ## Big endian -/

/-- The number whose big-endian octets are `bs`. -/
def beNat (bs : Bytes) : ℕ := leNat bs.reverse

/-- The `k` low octets of `n`, most significant first. -/
def beBytes (k n : ℕ) : Bytes := (leBytes k n).reverse

@[simp] lemma length_beBytes (k n : ℕ) : (beBytes k n).length = k := by simp [beBytes]

lemma beNat_lt (bs : Bytes) : beNat bs < 256 ^ bs.length := by
  simpa [beNat] using leNat_lt bs.reverse

lemma beNat_beBytes_of_lt {k n : ℕ} (h : n < 256 ^ k) : beNat (beBytes k n) = n := by
  simp [beNat, beBytes, leNat_leBytes_of_lt h]

lemma beBytes_beNat (bs : Bytes) : beBytes bs.length (beNat bs) = bs := by
  have h := leBytes_leNat bs.reverse
  rw [List.length_reverse] at h
  rw [beBytes, beNat, h, List.reverse_reverse]

/-! ## Signed integers -/

/-- Two's complement reading of `k` little-endian octets. -/
def leInt (bs : Bytes) : ℤ :=
  if 2 * leNat bs < 256 ^ bs.length then leNat bs else (leNat bs : ℤ) - 256 ^ bs.length

/-- The `k` octets of `i` in two's complement, or nothing when `i` does not fit. -/
def leIntBytes (k : ℕ) (i : ℤ) : Option Bytes :=
  if -(256 ^ k : ℤ) ≤ 2 * i ∧ 2 * i < 256 ^ k then some (leBytes k (i % 256 ^ k).toNat) else none

lemma length_leIntBytes {k : ℕ} {i : ℤ} {bs : Bytes} (h : leIntBytes k i = some bs) :
    bs.length = k := by
  unfold leIntBytes at h
  split_ifs at h
  obtain rfl := Option.some.inj h
  exact length_leBytes _ _

/-- A two's complement reading stays within its width. -/
lemma leInt_range (bs : Bytes) :
    -(256 ^ bs.length : ℤ) ≤ 2 * leInt bs ∧ 2 * leInt bs < 256 ^ bs.length := by
  have hlt : (leNat bs : ℤ) < 256 ^ bs.length := by exact_mod_cast leNat_lt bs
  have hnonneg : (0 : ℤ) ≤ leNat bs := Int.natCast_nonneg _
  rw [leInt]
  split_ifs with h
  · have h' : 2 * (leNat bs : ℤ) < 256 ^ bs.length := by exact_mod_cast h
    omega
  · have h' : (256 ^ bs.length : ℤ) ≤ 2 * leNat bs := by exact_mod_cast not_lt.mp h
    omega

/-- What fits is written. -/
lemma leIntBytes_of_range {k : ℕ} {i : ℤ} (hlo : -(256 ^ k : ℤ) ≤ 2 * i)
    (hhi : 2 * i < 256 ^ k) : leIntBytes k i = some (leBytes k (i % 256 ^ k).toNat) :=
  if_pos ⟨hlo, hhi⟩

/-- What was written in two's complement is read back. -/
lemma leInt_leIntBytes {k : ℕ} {i : ℤ} {bs : Bytes} (h : leIntBytes k i = some bs) :
    leInt bs = i := by
  rw [leIntBytes] at h
  split_ifs at h with hrange
  obtain ⟨hlo, hhi⟩ := hrange
  obtain rfl := Option.some.inj h
  have hpos : (0 : ℤ) < 256 ^ k := by positivity
  have hmod : 0 ≤ i % 256 ^ k := Int.emod_nonneg i hpos.ne'
  have hlt : i % 256 ^ k < 256 ^ k := Int.emod_lt_of_pos i hpos
  have hlen : (leBytes k (i % 256 ^ k).toNat).length = k := length_leBytes _ _
  have hnat : leNat (leBytes k (i % 256 ^ k).toNat) = (i % 256 ^ k).toNat :=
    leNat_leBytes_of_lt (by zify; rwa [Int.toNat_of_nonneg hmod])
  have hcond : 2 * (i % 256 ^ k).toNat < 256 ^ k ↔ 2 * (i % 256 ^ k) < 256 ^ k := by
    zify
    rw [Int.toNat_of_nonneg hmod]
  rw [leInt, hlen, hnat, Int.toNat_of_nonneg hmod]
  rcases lt_or_ge i 0 with hneg | hnonneg
  · have hwrap : i % 256 ^ k = i + 256 ^ k := by
      rw [← Int.add_emod_right]
      exact Int.emod_eq_of_lt (by omega) (by omega)
    rw [if_neg (by rw [hcond, hwrap]; omega), hwrap]
    omega
  · have hself : i % 256 ^ k = i := Int.emod_eq_of_lt hnonneg (by omega)
    rw [if_pos (by rw [hcond, hself]; exact hhi), hself]

/-! ## Slices -/

/-- `bs[a:b]`. -/
def slice (bs : Bytes) (a b : ℕ) : Bytes := (bs.take b).drop a

@[simp] lemma length_slice (bs : Bytes) (a b : ℕ) :
    (slice bs a b).length = min b bs.length - a := by simp [slice]

/-- Within the first part of a concatenation a slice sees only that part. -/
lemma slice_append_left {as : Bytes} (bs : Bytes) {a b : ℕ} (h : b ≤ as.length) :
    slice (as ++ bs) a b = slice as a b := by
  rw [slice, slice, List.take_append_of_le_length h]

/-- A slice of a slice. -/
lemma slice_slice {bs : Bytes} {a b c d : ℕ} (h : a + d ≤ b) :
    slice (slice bs a b) c d = slice bs (a + c) (a + d) := by
  simp only [slice, List.take_drop, List.take_take, List.drop_drop]
  rw [Nat.min_eq_left (by omega)]

lemma drop_slice (bs : Bytes) (a b k : ℕ) : (slice bs a b).drop k = slice bs (a + k) b := by
  rw [slice, slice, List.drop_drop]

lemma take_slice (bs : Bytes) (a b k : ℕ) :
    (slice bs a b).take k = slice bs a (min (a + k) b) := by
  rw [slice, slice, List.take_drop, List.take_take]

lemma slice_eq_take_drop (bs : Bytes) (a k : ℕ) : slice bs a (a + k) = (bs.drop a).take k := by
  rw [slice, List.drop_take, Nat.add_sub_cancel_left]

/-- A slice followed by what is behind it. -/
lemma slice_append_drop (bs : Bytes) (a k : ℕ) :
    slice bs a (a + k) ++ bs.drop (a + (slice bs a (a + k)).length) = bs.drop a := by
  rw [slice_eq_take_drop, ← List.drop_drop, List.length_take]
  rcases le_total k (bs.drop a).length with h | h
  · rw [Nat.min_eq_left h, List.take_append_drop]
  · rw [Nat.min_eq_right h, List.take_of_length_le h, List.drop_length, List.append_nil]

/-- Past the first part of a concatenation a slice sees only the second. -/
lemma slice_append_right (as bs : Bytes) (a b : ℕ) :
    slice (as ++ bs) (as.length + a) (as.length + b) = slice bs a b := by
  simp [slice, List.take_append, List.drop_append]

/-! ## Extended slices -/

section Stride

variable {α : Type*}

/-- `as[offset::step]`. -/
def stride (step : ℕ) : ℕ → List α → List α
  | _, [] => []
  | 0, a :: as => a :: stride step (step - 1) as
  | offset + 1, _ :: as => stride step offset as

/-- `as[offset::step] = bs`, for a `bs` of the length that it replaces. -/
def setStride (step : ℕ) : ℕ → List α → List α → List α
  | _, [], _ => []
  | 0, as, [] => as
  | 0, _ :: as, b :: bs => b :: setStride step (step - 1) as bs
  | offset + 1, a :: as, bs => a :: setStride step offset as bs

/-- Rewriting an extended slice entry by entry touches the places of the slice and no other. -/
lemma getElem?_setStride_map (m : ℕ) (f : α → α) (offset : ℕ) (as : List α) (i : ℕ) :
    (setStride (m + 1) offset as ((stride (m + 1) offset as).map f))[i]? =
      if offset ≤ i ∧ m + 1 ∣ i - offset then as[i]?.map f else as[i]? := by
  induction as generalizing offset i with
  | nil => simp [setStride]
  | cons a as ih =>
      cases offset with
      | zero =>
          rw [stride, List.map_cons, setStride, Nat.add_sub_cancel]
          cases i with
          | zero => simp
          | succ i =>
              have hstep : (m ≤ i ∧ m + 1 ∣ i - m) ↔ m + 1 ∣ i + 1 := by
                constructor
                · rintro ⟨hle, hd⟩
                  have hadd := Nat.dvd_add hd (Nat.dvd_refl (m + 1))
                  rwa [show i - m + (m + 1) = i + 1 by omega] at hadd
                · intro hd
                  have hle := Nat.le_of_dvd (Nat.succ_pos i) hd
                  have hsub := Nat.dvd_sub hd (Nat.dvd_refl (m + 1))
                  exact ⟨by omega, by rwa [Nat.add_sub_add_right] at hsub⟩
              rw [List.getElem?_cons_succ, List.getElem?_cons_succ, ih]
              simp [hstep]
      | succ offset =>
          rw [stride, setStride]
          cases i with
          | zero => simp
          | succ i => simp [ih]

end Stride

end Wire
