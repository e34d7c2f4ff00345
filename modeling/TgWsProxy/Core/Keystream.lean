import TgWsProxy.Core.Bytes

/-!
# Stream ciphers as a running XOR

A cipher in counter mode XORs its input with a keystream that depends on nothing but the running
byte offset.  Two facts are all a relay needs.

* `xorFrom_append` — a text may be enciphered piece by piece, as long as the offset runs on:
  how a stream is cut into chunks is invisible in what comes out.
* `xorFrom_xorFrom` — the same offset undoes itself, so encryption and decryption coincide.

The XOR of two byte strings is also the XOR of the numbers they spell (`beBytes_beNat_xor`).
-/

namespace Wire

variable (ks : ℕ → UInt8)

/-- `bs` XORed with the keystream `ks` from offset `n` on. -/
def xorFrom : ℕ → Bytes → Bytes
  | _, [] => []
  | n, b :: bs => (b ^^^ ks n) :: xorFrom (n + 1) bs

@[simp] lemma xorFrom_nil (n : ℕ) : xorFrom ks n [] = [] := rfl

@[simp] lemma length_xorFrom : ∀ (n : ℕ) (bs : Bytes), (xorFrom ks n bs).length = bs.length
  | _, [] => rfl
  | n, b :: bs => by simp [xorFrom, length_xorFrom (n + 1) bs]

/-- The offset runs on: a text in two pieces is the text in one. -/
lemma xorFrom_append (n : ℕ) (as bs : Bytes) :
    xorFrom ks n (as ++ bs) = xorFrom ks n as ++ xorFrom ks (n + as.length) bs := by
  induction as generalizing n with
  | nil => rfl
  | cons a as ih =>
      have hlen : n + 1 + as.length = n + (a :: as).length := by simp; omega
      simp [xorFrom, ih, hlen]

/-- The keystream cancels itself. -/
@[simp] lemma xorFrom_xorFrom : ∀ (n : ℕ) (bs : Bytes), xorFrom ks n (xorFrom ks n bs) = bs
  | _, [] => rfl
  | n, b :: bs => by
      simp [xorFrom, xorFrom_xorFrom (n + 1) bs]

lemma xorFrom_take (n k : ℕ) (bs : Bytes) :
    xorFrom ks n (bs.take k) = (xorFrom ks n bs).take k := by
  induction bs generalizing n k with
  | nil => simp
  | cons b bs ih =>
      cases k with
      | zero => rfl
      | succ k => simp [xorFrom, ih]

lemma xorFrom_drop (n k : ℕ) (bs : Bytes) :
    (xorFrom ks n bs).drop k = xorFrom ks (n + k) (bs.drop k) := by
  induction bs generalizing n k with
  | nil => simp
  | cons b bs ih =>
      cases k with
      | zero => rfl
      | succ k =>
          rw [xorFrom, List.drop_succ_cons, List.drop_succ_cons, ih]
          congr 1
          omega

lemma getElem?_xorFrom (n : ℕ) (bs : Bytes) (i : ℕ) :
    (xorFrom ks n bs)[i]? = bs[i]?.map (· ^^^ ks (n + i)) := by
  induction bs generalizing n i with
  | nil => simp
  | cons b bs ih =>
      cases i with
      | zero => simp [xorFrom]
      | succ i => simp [xorFrom, ih, Nat.add_right_comm, Nat.add_assoc]

/-- A keystream recovered from an encryption enciphers any text of the same length. -/
lemma zipWith_xor_xorFrom (n : ℕ) : ∀ {as bs : Bytes}, as.length = bs.length →
    List.zipWith (· ^^^ ·) as (List.zipWith (· ^^^ ·) (xorFrom ks n bs) bs) = xorFrom ks n as
  | [], [], _ => rfl
  | a :: as, b :: bs, h => by
      have hkey : b ^^^ ks n ^^^ b = ks n := by
        rw [UInt8.xor_comm b, UInt8.xor_assoc, UInt8.xor_self, UInt8.xor_zero]
      rw [xorFrom, List.zipWith_cons_cons, List.zipWith_cons_cons, hkey,
        zipWith_xor_xorFrom (n + 1) (Nat.succ.inj h), xorFrom]

/-! ## The XOR of two numbers -/

lemma leNat_xor : ∀ {as bs : Bytes}, as.length = bs.length →
    leNat as ^^^ leNat bs = leNat (List.zipWith (· ^^^ ·) as bs)
  | [], [], _ => by simp
  | a :: as, b :: bs, h => by
      have ih := leNat_xor (Nat.succ.inj h)
      have ha := a.toNat_lt
      have hb := b.toNat_lt
      rw [List.zipWith_cons_cons, leNat_cons, leNat_cons, leNat_cons, ← ih, UInt8.toNat_xor]
      have hmod : ∀ {c : ℕ} (m : ℕ), c < 2 ^ 8 → (c + 2 ^ 8 * m) % 2 ^ 8 = c := by
        intro c m hc
        rw [Nat.add_mul_mod_self_left, Nat.mod_eq_of_lt hc]
      have hdiv : ∀ {c : ℕ} (m : ℕ), c < 2 ^ 8 → (c + 2 ^ 8 * m) / 2 ^ 8 = m := by
        intro c m hc
        rw [Nat.add_mul_div_left _ _ (by decide), Nat.div_eq_of_lt hc, Nat.zero_add]
      have hxor := Nat.mod_add_div
        ((a.toNat + 2 ^ 8 * leNat as) ^^^ (b.toNat + 2 ^ 8 * leNat bs)) (2 ^ 8)
      rw [Nat.xor_mod_two_pow, Nat.xor_div_two_pow, hmod _ ha, hmod _ hb, hdiv _ ha, hdiv _ hb]
        at hxor
      exact hxor.symm

/-- XORing the numbers that two byte strings of one length spell, octet by octet. -/
lemma beBytes_beNat_xor {as bs : Bytes} (h : as.length = bs.length) :
    beBytes as.length (beNat as ^^^ beNat bs) = List.zipWith (· ^^^ ·) as bs := by
  have hz : (List.zipWith (· ^^^ ·) as bs).length = as.length := by simp [h]
  rw [beNat, beNat, leNat_xor (by simpa using h), ← List.reverse_zipWith h, ← beNat, ← hz,
    beBytes_beNat]

end Wire
