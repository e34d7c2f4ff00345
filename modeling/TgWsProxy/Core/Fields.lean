import TgWsProxy.Core.Bytes

/-!
# Fields behind their own length

Binary formats put a variable part behind its length.  `vec k bs` is the field `bs` with a length
of `k` octets, and `readVec k` takes one such field off a byte string.

* `readVec_vec` — what was written is read back, whatever follows.
* `readVec_eq_some` — what is read was written so.
* `Overrun` — a length that claims more than there is; the only way to fail once the length itself
  is there (`readVec_eq_none`).
-/

namespace Wire

/-- The field `bs` behind its length. -/
def vec (k : ℕ) (bs : Bytes) : Bytes := beBytes k bs.length ++ bs

@[simp] lemma length_vec (k : ℕ) (bs : Bytes) : (vec k bs).length = k + bs.length := by simp [vec]

/-- Takes a field off the front: the field and what follows it. -/
def readVec (k : ℕ) (bs : Bytes) : Option (Bytes × Bytes) :=
  if k + beNat (bs.take k) ≤ bs.length then
    some ((bs.drop k).take (beNat (bs.take k)), (bs.drop k).drop (beNat (bs.take k)))
  else none

/-- The octets of a length are there, those it counts are not. -/
def Overrun (k : ℕ) (bs : Bytes) : Prop := k ≤ bs.length ∧ bs.length < k + beNat (bs.take k)

instance (k : ℕ) (bs : Bytes) : Decidable (Overrun k bs) := by
  unfold Overrun; infer_instance

lemma take_vec_append {k : ℕ} {bs : Bytes} (rest : Bytes) (h : bs.length < 256 ^ k) :
    beNat ((vec k bs ++ rest).take k) = bs.length := by
  rw [vec, List.append_assoc, List.take_left' (length_beBytes _ _), beNat_beBytes_of_lt h]

lemma drop_vec_append (k : ℕ) (bs rest : Bytes) :
    (vec k bs ++ rest).drop k = bs ++ rest := by
  rw [vec, List.append_assoc, List.drop_left' (length_beBytes _ _)]

/-- **A written field is read back**, whatever stands behind it. -/
theorem readVec_vec {k : ℕ} {bs : Bytes} (rest : Bytes) (h : bs.length < 256 ^ k) :
    readVec k (vec k bs ++ rest) = some (bs, rest) := by
  rw [readVec, take_vec_append rest h, drop_vec_append, List.take_left, List.drop_left,
    if_pos (by simp only [List.length_append, length_vec]; omega)]

lemma readVec_of_le {k : ℕ} {bs : Bytes} (h : k + beNat (bs.take k) ≤ bs.length) :
    readVec k bs =
      some ((bs.drop k).take (beNat (bs.take k)), (bs.drop k).drop (beNat (bs.take k))) :=
  if_pos h

lemma readVec_eq_none {k : ℕ} {bs : Bytes} :
    readVec k bs = none ↔ bs.length < k ∨ Overrun k bs := by
  rw [readVec, Overrun]
  split_ifs with h
  · simp only [false_iff]
    omega
  · simp only [true_iff]
    omega

lemma not_overrun_of_readVec {k : ℕ} {bs field rest : Bytes}
    (h : readVec k bs = some (field, rest)) : ¬ Overrun k bs := by
  intro hover
  rw [readVec_eq_none.mpr (Or.inr hover)] at h
  cases h

/-- What a read takes apart. -/
lemma readVec_eq_some {k : ℕ} {bs field rest : Bytes} (h : readVec k bs = some (field, rest)) :
    bs = vec k field ++ rest ∧ field.length < 256 ^ k := by
  rw [readVec] at h
  split_ifs at h with hle
  simp only [Option.some.injEq, Prod.mk.injEq] at h
  obtain ⟨rfl, rfl⟩ := h
  have hk : (bs.take k).length = k := by rw [List.length_take]; omega
  have hlt := beNat_lt (bs.take k)
  rw [hk] at hlt
  have hlen : ((bs.drop k).take (beNat (bs.take k))).length = beNat (bs.take k) := by
    rw [List.length_take, List.length_drop]
    omega
  have hwrite := beBytes_beNat (bs.take k)
  rw [hk] at hwrite
  refine ⟨?_, by rw [hlen]; exact hlt⟩
  rw [vec, hlen, hwrite, List.append_assoc, List.take_append_drop, List.take_append_drop]

lemma length_of_readVec {k : ℕ} {bs field rest : Bytes} (h : readVec k bs = some (field, rest)) :
    bs.length = k + field.length + rest.length := by
  rw [(readVec_eq_some h).1, List.length_append, length_vec]

lemma beNat_take_of_readVec {k : ℕ} {bs field rest : Bytes}
    (h : readVec k bs = some (field, rest)) : beNat (bs.take k) = field.length := by
  obtain ⟨rfl, hlt⟩ := readVec_eq_some h
  exact take_vec_append rest hlt

lemma drop_of_readVec {k : ℕ} {bs field rest : Bytes} (h : readVec k bs = some (field, rest)) :
    bs.drop k = field ++ rest := by
  rw [(readVec_eq_some h).1, drop_vec_append]

/-! ## Narrowing a length -/

lemma leBytes_succ_append (k n : ℕ) :
    leBytes (k + 1) n = leBytes k n ++ [UInt8.ofNat (n / 256 ^ k)] := by
  induction k generalizing n with
  | zero => simp [leBytes]
  | succ k ih =>
      rw [leBytes, ih, leBytes, List.cons_append, Nat.div_div_eq_div_mul, ← pow_succ']

/-- Without its first octet a number is written one octet narrower. -/
lemma drop_one_beBytes (k n : ℕ) : (beBytes (k + 1) n).drop 1 = beBytes k n := by
  rw [beBytes, leBytes_succ_append, List.reverse_append, List.reverse_singleton, beBytes]
  rfl

/-! ## Lists of 16-bit numbers -/

/-- The whole 16-bit numbers in a byte string; an odd octet at the end is left out. -/
def u16s (bs : Bytes) : List ℕ :=
  (List.range (bs.length / 2)).map fun i => beNat (slice bs (2 * i) (2 * i + 2))

@[simp] lemma length_u16s (bs : Bytes) : (u16s bs).length = bs.length / 2 := by simp [u16s]

lemma u16s_eq_nil {bs : Bytes} : u16s bs = [] ↔ bs.length < 2 := by
  rw [← List.length_eq_zero_iff, length_u16s]
  omega

lemma u16s_cons (a b : UInt8) (bs : Bytes) : u16s (a :: b :: bs) = beNat [a, b] :: u16s bs := by
  have hlen : (a :: b :: bs).length / 2 = bs.length / 2 + 1 := by
    rw [List.length_cons, List.length_cons]
    omega
  rw [u16s, hlen, List.range_succ_eq_map, List.map_cons, List.map_map, u16s]
  refine congrArg _ (List.map_congr_left fun i _ => ?_)
  have hmul : 2 * (i + 1) = 2 + 2 * i := by ring
  have hright := slice_append_right [a, b] bs (2 * i) (2 * i + 2)
  rw [Function.comp_apply, Nat.succ_eq_add_one, hmul, Nat.add_assoc]
  exact congrArg beNat hright

/-- Numbers written one after the other are read back. -/
lemma u16s_flatMap : ∀ {ns : List ℕ}, (∀ n ∈ ns, n < 256 ^ 2) →
    u16s (ns.flatMap (beBytes 2)) = ns
  | [], _ => rfl
  | n :: ns, h => by
      obtain ⟨a, b, hab⟩ := List.length_eq_two.mp (length_beBytes 2 n)
      have hn := beNat_beBytes_of_lt (h n List.mem_cons_self)
      rw [hab] at hn
      rw [List.flatMap_cons, hab, List.cons_append, List.cons_append, List.nil_append, u16s_cons,
        u16s_flatMap fun m hm => h m (List.mem_cons_of_mem _ hm), hn]

end Wire
