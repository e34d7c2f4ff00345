import TgWsProxy.Obfuscation.ReEncrypt

/-!
# The announcement in the relay init

Between the client's init and the one sent upstream, `_handle_client` does arithmetic on the DC
index: the sign is split off, the offset of the test DCs is taken away, the sign is put back.

* `dcTarget` — that arithmetic.
* `serverPlain` — a relay init as the server deciphers it.
* **`relayInit_announces`** — no 16-bit index makes the arithmetic or the packing fail, no relay
  init looks like another protocol, and the server reads the client's tag and DC out of it.
-/

namespace TgWsProxy

open Wire

variable (sha256 : Bytes → Digest) (E : AesKeystream)

/-! ## The DC arithmetic -/

/-- What `_handle_client` makes of the DC of a handshake. -/
structure DcTarget where
  isTestDc : Bool
  dc : ℕ
  dcIdx : ℤ
  deriving DecidableEq, Repr

/-- The DC arithmetic of `_handle_client`, on `proxy_config.force_test_dc` and the DC and media
flag of `_try_handshake`. -/
def dcTarget (forceTestDc : Bool) (dc : ℕ) (isMedia : Bool) : DcTarget :=
  let isTestDc := forceTestDc || decide (10000 ≤ dc)
  let dc := if 10000 ≤ dc then dc - 10000 else dc
  { isTestDc := isTestDc
    dc := dc
    dcIdx := if isMedia then -(dc : ℤ) else dc }

/-- The index announced for the client's signed index. -/
def announcedDcIdx (dcIdx : ℤ) : ℤ :=
  (dcTarget false dcIdx.natAbs (decide (dcIdx < 0))).dcIdx

lemma dcTarget_dcIdx (forceTestDc : Bool) (i : ℤ) :
    (dcTarget forceTestDc i.natAbs (decide (i < 0))).dcIdx = announcedDcIdx i := rfl

/-- The offset is off, and the sign is the client's. -/
lemma announcedDcIdx_spec (i : ℤ) :
    (announcedDcIdx i).natAbs = (if 10000 ≤ i.natAbs then i.natAbs - 10000 else i.natAbs) ∧
    (announcedDcIdx i ≠ 0 → (announcedDcIdx i).sign = i.sign) := by
  simp only [announcedDcIdx, dcTarget, decide_eq_true_eq]
  rcases lt_or_ge i 0 with hneg | hpos
  · rw [if_pos hneg, Int.sign_eq_neg_one_of_neg hneg]
    refine ⟨by rw [Int.natAbs_neg, Int.natAbs_natCast], fun hne => ?_⟩
    exact Int.sign_eq_neg_one_of_neg (by omega)
  · rw [if_neg (not_lt.mpr hpos)]
    refine ⟨Int.natAbs_natCast _, fun hne => ?_⟩
    have hi : 0 < i := by
      rcases hpos.lt_or_eq with h | rfl
      · exact h
      · simp at hne
    rw [Int.sign_eq_one_of_pos hi]
    exact Int.sign_eq_one_of_pos (by omega)

/-- Even the most negative index fits again: its magnitude is above the offset. -/
lemma announcedDcIdx_range {i : ℤ} (hlo : -(256 ^ 2 : ℤ) ≤ 2 * i) (hhi : 2 * i < 256 ^ 2) :
    -(256 ^ 2 : ℤ) ≤ 2 * announcedDcIdx i ∧ 2 * announcedDcIdx i < 256 ^ 2 := by
  have h := (announcedDcIdx_spec i).1
  split_ifs at h with htest
  · omega
  · omega

/-! ## The server's reading -/

/-- The relay init as the server deciphers it: key and iv stand in its octets 8 to 56. -/
def serverPlain (relayInit : Bytes) : Bytes :=
  Cipher.peek E ⟨slice relayInit 8 40, slice relayInit 40 56, 0⟩ relayInit

section Seal

variable {protoTag rnd pad : Bytes} {dcIdx : ℤ} {dcBytes : Bytes}

/-- What the body after the loop returns: the draw, with the announcement enciphered behind it. -/
lemma sealRelayInit_ok (hrnd : rnd.length = 64) (htag : protoTag.length = 4)
    (hpad : pad.length = 2) (hdc : leIntBytes 2 dcIdx = some dcBytes) :
    sealRelayInit E protoTag dcIdx rnd pad = .ok (rnd.take 56 ++
      xorFrom (E (slice rnd 8 40) (slice rnd 40 56)) 56 (protoTag ++ dcBytes ++ pad)) := by
  have hnew := Cipher.new_ok (show (slice rnd 8 40).length = 32 by simp [hrnd])
    (show (slice rnd 40 56).length = 16 by simp [hrnd])
  have hstream : slice (xorFrom (E (slice rnd 8 40) (slice rnd 40 56)) 0 rnd) 56 64
      = xorFrom (E (slice rnd 8 40) (slice rnd 40 56)) 56 (slice rnd 56 64) := by
    simp [slice, ← xorFrom_take, xorFrom_drop]
  have hlen : (protoTag ++ dcBytes ++ pad).length = (slice rnd 56 64).length := by
    simp [hrnd, htag, hpad, length_leIntBytes hdc]
  simp only [sealRelayInit, skipLen, prekeyLen, ivLen, protoTagPos, Nat.reduceAdd, hnew, hdc, bind,
    Except.bind, pure, Except.pure, Cipher.update_fst, Cipher.peek, hstream,
    zipWith_xor_xorFrom _ 56 hlen]

/-- The server deciphers the tail of a sealed draw to the announcement. -/
lemma slice_serverPlain_seal (hrnd : rnd.length = 64) (tail : Bytes) (a b : ℕ) :
    slice (serverPlain E (rnd.take 56 ++
      xorFrom (E (slice rnd 8 40) (slice rnd 40 56)) 56 tail)) (56 + a) (56 + b)
      = slice tail a b := by
  have hhead : (rnd.take 56).length = 56 := by simp [hrnd]
  have hkey : ∀ {a b : ℕ}, b ≤ 56 → ∀ sealed : Bytes,
      slice (rnd.take 56 ++ sealed) a b = slice rnd a b := by
    intro a b hb sealed
    rw [slice_append_left _ (by omega), slice, slice, List.take_take, Nat.min_eq_left hb]
  have hplain : (xorFrom (E (slice rnd 8 40) (slice rnd 40 56)) 0 (rnd.take 56)).length = 56 := by
    rw [length_xorFrom, hhead]
  have hright := slice_append_right
    (xorFrom (E (slice rnd 8 40) (slice rnd 40 56)) 0 (rnd.take 56)) tail a b
  rw [hplain] at hright
  rw [serverPlain, hkey (by decide), hkey (le_refl 56), Cipher.peek, xorFrom_append, hhead,
    Nat.zero_add, xorFrom_xorFrom, hright]

/-- The patterns are looked for in the first eight octets only. -/
lemma isReserved_take_append (hrnd : rnd.length = 64) (tail : Bytes) :
    isReserved (rnd.take 56 ++ tail) = isReserved rnd := by
  have h0 : (rnd.take 56 ++ tail).getD 0 0 = rnd.getD 0 0 := by
    rw [List.getD_append _ _ _ _ (by simp [hrnd]), List.getD_eq_getElem?_getD,
      List.getElem?_take_of_lt (by decide), ← List.getD_eq_getElem?_getD]
  have h4 : (rnd.take 56 ++ tail).take 4 = rnd.take 4 := by
    rw [List.take_append_of_le_length (by simp [hrnd]), List.take_take]
    rfl
  have h8 : slice (rnd.take 56 ++ tail) 4 8 = slice rnd 4 8 := by
    rw [slice_append_left _ (by simp [hrnd]), slice, slice, List.take_take]
    rfl
  rw [isReserved, isReserved, h0, h4, h8]

end Seal

/-! ## The announcement -/

/-- The relay init `r` tells the server the tag and the DC index that stand in `plain`. -/
structure Announces (plain r : Bytes) : Prop where
  length_eq : r.length = 64
  unreserved : isReserved r = false
  tag : slice (serverPlain E r) 56 60 = slice plain 56 60
  dc : (leInt (slice (serverPlain E r) 60 62)).natAbs =
    if 10000 ≤ (leInt (slice plain 60 62)).natAbs then (leInt (slice plain 60 62)).natAbs - 10000
    else (leInt (slice plain 60 62)).natAbs
  sign : leInt (slice (serverPlain E r) 60 62) ≠ 0 →
    (leInt (slice (serverPlain E r) 60 62)).sign = (leInt (slice plain 60 62)).sign

/-- One draw that is not reserved, sealed. -/
lemma sealRelayInit_announces {plain rnd pad : Bytes} (hplain : 62 ≤ plain.length)
    (hrnd : rnd.length = 64) (hpad : pad.length = 2) (hres : isReserved rnd = false) :
    ∃ r, sealRelayInit E (slice plain 56 60) (announcedDcIdx (leInt (slice plain 60 62))) rnd pad
      = .ok r ∧ Announces E plain r := by
  have htag : (slice plain 56 60).length = 4 := by simp; omega
  have hwidth : (slice plain 60 62).length = 2 := by simp; omega
  obtain ⟨hlo, hhi⟩ := leInt_range (slice plain 60 62)
  rw [hwidth] at hlo hhi
  obtain ⟨hlo', hhi'⟩ := announcedDcIdx_range hlo hhi
  have hdc := leIntBytes_of_range hlo' hhi'
  generalize hbs : leBytes 2 (announcedDcIdx (leInt (slice plain 60 62)) % 256 ^ 2).toNat = dcBytes
    at hdc
  have hdcLen : dcBytes.length = 2 := length_leIntBytes hdc
  refine ⟨_, sealRelayInit_ok E hrnd htag hpad hdc, ?_⟩
  have htail : slice (slice plain 56 60 ++ dcBytes ++ pad) 0 4 = slice plain 56 60 := by
    rw [List.append_assoc, slice_append_left _ (by omega), slice, List.drop_zero,
      List.take_of_length_le (by omega)]
  have hidx : slice (slice plain 56 60 ++ dcBytes ++ pad) 4 6 = dcBytes := by
    have h := slice_append_right (slice plain 56 60) (dcBytes ++ pad) 0 2
    rw [htag] at h
    rw [List.append_assoc, h, slice_append_left _ (by omega), slice, List.drop_zero,
      List.take_of_length_le (by omega)]
  have hread := slice_serverPlain_seal E hrnd (slice plain 56 60 ++ dcBytes ++ pad)
  have hserver : leInt (slice (serverPlain E (rnd.take 56 ++
      xorFrom (E (slice rnd 8 40) (slice rnd 40 56)) 56 (slice plain 56 60 ++ dcBytes ++ pad)))
      60 62) = announcedDcIdx (leInt (slice plain 60 62)) := by
    rw [hread 4 6, hidx, leInt_leIntBytes hdc]
  obtain ⟨habs, hsign⟩ := announcedDcIdx_spec (leInt (slice plain 60 62))
  exact
    { length_eq := by simp [hrnd, hpad, hdcLen, htag]
      unreserved := by rw [isReserved_take_append hrnd, hres]
      tag := by rw [hread 0 4, htail]
      dc := by rw [hserver, habs]
      sign := by rw [hserver]; exact hsign }

/-- **The relay init announces what the client asked for.**  For every accepted handshake, every
setting of the test flag and every sequence of draws nothing is raised; the loop is still drawing
exactly while every draw was reserved, and what it returns passes for no other protocol and carries
the client's tag and DC under the server's keys. -/
theorem relayInit_announces (secret handshake : Bytes) (hlen : handshake.length = 64)
    (forceTestDc : Bool) {dc : ℕ} {isMedia : Bool} {protoTag prekeyIv : Bytes}
    (haccept : tryHandshake sha256 E handshake secret
      = .ok (some (dc, isMedia, protoTag, prekeyIv)))
    {pad : Bytes} (hpad : pad.length = 2) (draws : List Bytes)
    (hdraws : ∀ rnd ∈ draws, rnd.length = handshakeLen) :
    ∃ relayInit,
      generateRelayInit E protoTag (dcTarget forceTestDc dc isMedia).dcIdx pad draws
        = .ok relayInit ∧
      (relayInit = none ↔ ∀ rnd ∈ draws, isReserved rnd = true) ∧
      ∀ r, relayInit = some r →
        Announces E ((clientEnc sha256 secret handshake).peek E handshake) r := by
  rw [tryHandshake_eq sha256 E secret hlen] at haccept
  generalize hplain : (clientEnc sha256 secret handshake).peek E handshake = plain at haccept ⊢
  have hplainLen : plain.length = 64 := by rw [← hplain, Cipher.length_peek, hlen]
  dsimp only at haccept
  split_ifs at haccept with htag
  · simp only [Except.ok.injEq, Option.some.injEq, Prod.mk.injEq] at haccept
    obtain ⟨rfl, rfl, rfl, -⟩ := haccept
    rw [dcTarget_dcIdx]
    induction draws with
    | nil => exact ⟨none, rfl, by simp, fun r h => by cases h⟩
    | cons rnd draws ih =>
        rw [generateRelayInit]
        have hrnd : rnd.length = 64 := hdraws rnd List.mem_cons_self
        split_ifs with hres
        · obtain ⟨relayInit, hrun, hnone, hsome⟩ :=
            ih fun rnd' h => hdraws rnd' (List.mem_cons_of_mem _ h)
          exact ⟨relayInit, hrun, by simp [hnone, hres], hsome⟩
        · have hres' : isReserved rnd = false := by simpa using hres
          obtain ⟨r, hseal, hann⟩ :=
            sealRelayInit_announces E (show 62 ≤ plain.length by omega) hrnd hpad hres'
          refine ⟨some r, by rw [hseal]; rfl, by simp [hres'], ?_⟩
          rintro r' h
          obtain rfl := Option.some.inj h
          exact hann
  · simp at haccept

/-- The most negative index, for the media side of a test DC, behind one reserved draw. -/
theorem relayInit_announces_sample :
    let sha256 : Bytes → Digest := fun _ => ⟨List.replicate 32 7, rfl⟩
    let E : AesKeystream := fun key _ n => key.headD 0 + UInt8.ofNat n
    let handshake := clientInit sha256 E [5]
      (List.replicate 56 1 ++ protoTagSecure ++ [0x00, 0x80, 9, 9])
    ∃ r, generateRelayInit E protoTagSecure (dcTarget false 32768 true).dcIdx [0, 0]
        [List.replicate 64 0xEF, List.replicate 64 3] = .ok (some r) ∧
      Announces E ((clientEnc sha256 [5] handshake).peek E handshake) r ∧
      leInt (slice (serverPlain E r) 60 62) = -22768 := by
  intro sha256 E handshake
  let draws : List Bytes := [List.replicate 64 0xEF, List.replicate 64 3]
  have hdraws : ∀ rnd ∈ draws, rnd.length = handshakeLen := by decide
  have hpad : ([0, 0] : Bytes).length = 2 := rfl
  have haccept : tryHandshake sha256 E handshake [5]
      = .ok (some (32768, true, protoTagSecure, List.replicate 48 1)) :=
    tryHandshake_clientInit sha256 E [5] rfl (Or.inr (Or.inr rfl))
  obtain ⟨relayInit, hrun, hnone, hsome⟩ :=
    relayInit_announces sha256 E [5] handshake rfl false haccept hpad draws hdraws
  cases relayInit with
  | none => exact absurd (hnone.mp rfl) (by decide)
  | some r =>
      have hann := hsome r rfl
      have hdc : leInt (slice ((clientEnc sha256 [5] handshake).peek E handshake) 60 62) = -32768 :=
        by decide
      have habs := hann.dc
      have hsign := hann.sign
      rw [hdc] at habs hsign
      have habs' : (leInt (slice (serverPlain E r) 60 62)).natAbs = 22768 := habs
      have hneg := Int.sign_eq_neg_one_iff_neg.mp (hsign (by omega))
      exact ⟨r, hrun, hann, by omega⟩

end TgWsProxy
