import TgWsProxy.FakeTls.ServerHello

/-!
# Who may come in

`verify_client_hello` of `proxy/fake_tls.py`.  A client that knows the secret puts a MAC over its
hello, with zeros for the random field, into that field, and its clock into the last four octets.

* `verifyClientHello` — the code.  HMAC is a parameter.
* `stampHello` — the client's half: a hello stamped for a secret and a time.
* `blank_stampHello`, `random_stampHello` — what a stamp leaves as it is, and what it writes.
* **`verifyClientHello_iff`** — accepted are exactly the hellos stamped with the secret within two
  minutes of the clock.
-/

namespace TgWsProxy

open Wire

variable (hmac : Bytes → Bytes → Digest)

/-! ## The code -/

/-- `CLIENT_RANDOM_OFFSET`. -/
def clientRandomOffset : ℕ := 11

/-- `SESSION_ID_OFFSET`. -/
def sessionIdOffset : ℕ := 44

/-- `SESSION_ID_LEN`. -/
def sessionIdLen : ℕ := 32

/-- `TIMESTAMP_TOLERANCE`. -/
def timestampTolerance : ℤ := 120

/-- `zeroed`: the hello with zeros for its random field. -/
def blankHello (data : Bytes) : Bytes :=
  data.take clientRandomOffset ++ List.replicate clientRandomLen 0
    ++ data.drop (clientRandomOffset + clientRandomLen)

/-- `session_id`: what the hello says, or zeros. -/
def helloSessionId (data : Bytes) : Bytes :=
  if sessionIdOffset + sessionIdLen ≤ data.length ∧ data.getD 43 0 = 0x20 then
    slice data sessionIdOffset (sessionIdOffset + sessionIdLen)
  else List.replicate sessionIdLen 0

/-- `verify_client_hello(data, secret)`, when `int(time.time())` is `now`. -/
def verifyClientHello (now : ℤ) (data secret : Bytes) : Option (Bytes × Bytes × ℕ) :=
  let n := data.length
  -- 5 (record hdr) + 6 (hs type+len+version) + 32 (random) = 43
  if n < 43 then none
  else if data.getD 0 0 ≠ tlsRecordHandshake then none
  else if data.getD 5 0 ≠ 0x01 then none
  else
    let clientRandom := slice data clientRandomOffset (clientRandomOffset + clientRandomLen)
    let expected := (hmac secret (blankHello data)).1
    if expected.take 28 ≠ clientRandom.take 28 then none
    else
      let tsXor := List.zipWith (· ^^^ ·) (slice clientRandom 28 32) (slice expected 28 32)
      let timestamp := leNat tsXor
      if timestampTolerance < |now - timestamp| then none
      else some (clientRandom, helloSessionId data, timestamp)

/-! ## The client's half -/

/-- The random field of a hello stamped for the time `t`. -/
def stamp (secret data : Bytes) (t : ℕ) : Bytes :=
  let expected := (hmac secret (blankHello data)).1
  expected.take 28 ++ List.zipWith (· ^^^ ·) (slice expected 28 32) (leBytes 4 t)

/-- A hello stamped for the time `t`. -/
def stampHello (secret data : Bytes) (t : ℕ) : Bytes :=
  data.take clientRandomOffset ++ stamp hmac secret data t
    ++ data.drop (clientRandomOffset + clientRandomLen)

/-- A handshake record with a ClientHello that reaches to the end of its random field. -/
structure HelloShape (data : Bytes) : Prop where
  length_le : 43 ≤ data.length
  record : data.getD 0 0 = tlsRecordHandshake
  message : data.getD 5 0 = 0x01

section Stamp

variable {secret data : Bytes} {t : ℕ}

@[simp] lemma length_stamp (secret data : Bytes) (t : ℕ) :
    (stamp hmac secret data t).length = 32 := by
  simp [stamp, (hmac secret (blankHello data)).2]

/-- A hello with something else in its random field. -/
lemma patch_spec (h : 43 ≤ data.length) {random : Bytes} (hrandom : random.length = 32) :
    let patched := data.take 11 ++ random ++ data.drop 43
    patched.length = data.length ∧ slice patched 11 43 = random ∧ patched.take 11 = data.take 11 ∧
      patched.drop 43 = data.drop 43 := by
  have h11 : (data.take 11).length = 11 := by
    rw [List.length_take]
    omega
  have h43 : (data.take 11 ++ random).length = 43 := by
    rw [List.length_append, h11, hrandom]
  refine ⟨?_, ?_, ?_, ?_⟩
  · rw [List.length_append, h43, List.length_drop]
    omega
  · rw [slice, List.take_left' h43, List.drop_left' h11]
  · rw [List.append_assoc, List.take_left' h11]
  · rw [List.drop_left' h43]

/-- The MAC does not see the field it is put into. -/
lemma blank_stampHello (h : 43 ≤ data.length) :
    blankHello (stampHello hmac secret data t) = blankHello data := by
  obtain ⟨-, -, htake, hdrop⟩ := patch_spec h (length_stamp hmac secret data t)
  show (stampHello hmac secret data t).take 11 ++ _ ++ (stampHello hmac secret data t).drop 43 = _
  rw [show stampHello hmac secret data t = data.take 11 ++ stamp hmac secret data t ++ data.drop 43
    from rfl, htake, hdrop]
  rfl

lemma random_stampHello (h : 43 ≤ data.length) :
    slice (stampHello hmac secret data t) 11 43 = stamp hmac secret data t :=
  (patch_spec h (length_stamp hmac secret data t)).2.1

lemma length_stampHello (h : 43 ≤ data.length) :
    (stampHello hmac secret data t).length = data.length :=
  (patch_spec h (length_stamp hmac secret data t)).1

lemma slice_stampHello (h : 43 ≤ data.length) {a b : ℕ} (hb : b ≤ 11) :
    slice (stampHello hmac secret data t) a b = slice data a b := by
  obtain ⟨-, -, htake, -⟩ := patch_spec h (length_stamp hmac secret data t)
  have hcut : ∀ bs : Bytes, slice bs a b = slice (bs.take 11) a b := by
    intro bs
    rw [slice, slice, List.take_take, Nat.min_eq_left hb]
  rw [hcut, hcut data, ← htake]
  rfl

/-- What stands before and behind the field stays. -/
lemma shape_stampHello (secret : Bytes) (t : ℕ) (h : HelloShape data) :
    HelloShape (stampHello hmac secret data t) := by
  obtain ⟨hlen, -, htake, -⟩ :=
    patch_spec h.length_le (length_stamp hmac secret data t)
  have hget : ∀ i < 11, (stampHello hmac secret data t).getD i 0 = data.getD i 0 := by
    intro i hi
    have heq : ((stampHello hmac secret data t).take 11)[i]? = (data.take 11)[i]? := by
      rw [show stampHello hmac secret data t
        = data.take 11 ++ stamp hmac secret data t ++ data.drop 43 from rfl, htake]
    rw [List.getElem?_take_of_lt hi, List.getElem?_take_of_lt hi] at heq
    rw [List.getD_eq_getElem?_getD, List.getD_eq_getElem?_getD, heq]
  refine ⟨?_, ?_, ?_⟩
  · exact h.length_le.trans_eq hlen.symm
  · rw [hget 0 (by decide), h.record]
  · rw [hget 5 (by decide), h.message]

lemma stampHello_stampHello (secret : Bytes) (t t' : ℕ) (h : 43 ≤ data.length) :
    stampHello hmac secret (stampHello hmac secret data t) t' = stampHello hmac secret data t' := by
  obtain ⟨-, -, htake, hdrop⟩ := patch_spec h (length_stamp hmac secret data t)
  have hstamp : stamp hmac secret (stampHello hmac secret data t) t' =
      stamp hmac secret data t' := by
    rw [stamp, blank_stampHello hmac h]
    rfl
  rw [stampHello, hstamp]
  show (data.take 11 ++ stamp hmac secret data t ++ data.drop 43).take 11 ++ _ ++
    (data.take 11 ++ stamp hmac secret data t ++ data.drop 43).drop 43 = _
  rw [htake, hdrop]
  rfl

/-- The XOR of four octets with a key gives them back. -/
lemma zipWith_xor_cancel : ∀ {as bs : Bytes}, as.length = bs.length →
    List.zipWith (· ^^^ ·) (List.zipWith (· ^^^ ·) as bs) as = bs ∧
      List.zipWith (· ^^^ ·) as (List.zipWith (· ^^^ ·) bs as) = bs
  | [], [], _ => ⟨rfl, rfl⟩
  | a :: as, b :: bs, h => by
      obtain ⟨h₁, h₂⟩ := zipWith_xor_cancel (Nat.succ.inj h)
      have hab : a ^^^ b ^^^ a = b := by
        rw [UInt8.xor_comm a, UInt8.xor_assoc, UInt8.xor_self, UInt8.xor_zero]
      have hba : a ^^^ (b ^^^ a) = b := by rw [UInt8.xor_comm b, ← UInt8.xor_assoc, UInt8.xor_self,
        UInt8.zero_xor]
      rw [List.zipWith_cons_cons, List.zipWith_cons_cons, List.zipWith_cons_cons,
        List.zipWith_cons_cons, h₁, h₂, hab, hba]
      exact ⟨rfl, rfl⟩

/-- A field is a stamp when its MAC is right, and then it says for which time. -/
lemma eq_stamp_iff (secret data : Bytes) (t : ℕ) {random : Bytes} (hrandom : random.length = 32) :
    random = stamp hmac secret data t ∧ t < 2 ^ 32 ↔
      (hmac secret (blankHello data)).1.take 28 = random.take 28 ∧
        leNat (List.zipWith (· ^^^ ·) (slice random 28 32)
          (slice (hmac secret (blankHello data)).1 28 32)) = t := by
  have hmacLen := (hmac secret (blankHello data)).2
  rw [stamp]
  generalize (hmac secret (blankHello data)).1 = mac at hmacLen ⊢
  have h28 : (mac.take 28).length = 28 := by simp [hmacLen]
  have hslice : (slice mac 28 32).length = (slice random 28 32).length := by
    simp [hmacLen, hrandom]
  have hfour : (slice mac 28 32).length = 4 := by simp [hmacLen]
  constructor
  · rintro ⟨rfl, ht⟩
    rw [List.take_left' h28]
    refine ⟨rfl, ?_⟩
    have htail : slice (mac.take 28 ++ List.zipWith (· ^^^ ·) (slice mac 28 32) (leBytes 4 t)) 28 32
        = List.zipWith (· ^^^ ·) (slice mac 28 32) (leBytes 4 t) := by
      rw [slice, List.take_of_length_le (by simp [hmacLen]), List.drop_left' h28]
    rw [htail, (zipWith_xor_cancel (by simp [hfour])).1, leNat_leBytes_of_lt (by omega)]
  · rintro ⟨hhead, rfl⟩
    have hxor : (List.zipWith (· ^^^ ·) (slice random 28 32) (slice mac 28 32)).length = 4 := by
      simp [hmacLen, hrandom]
    have hlt := leNat_lt (List.zipWith (· ^^^ ·) (slice random 28 32) (slice mac 28 32))
    rw [hxor] at hlt
    have hbytes := leBytes_leNat (List.zipWith (· ^^^ ·) (slice random 28 32) (slice mac 28 32))
    rw [hxor] at hbytes
    refine ⟨?_, hlt.trans_eq (by norm_num)⟩
    rw [hbytes, (zipWith_xor_cancel hslice).2, hhead, slice,
      List.take_of_length_le hrandom.le, List.take_append_drop]

end Stamp

/-! ## What is accepted -/

/-- **Accepted is what was stamped.**  A hello is accepted exactly when it is one, it is stamped
with the secret for a time of 32 bits, and that time is within the tolerance; what is returned is
its random field, its session id and the time. -/
theorem verifyClientHello_iff (now : ℤ) (data secret random sessionId : Bytes) (t : ℕ) :
    verifyClientHello hmac now data secret = some (random, sessionId, t) ↔
      HelloShape data ∧ data = stampHello hmac secret data t ∧ t < 2 ^ 32 ∧
        |now - t| ≤ timestampTolerance ∧ random = slice data 11 43 ∧
        sessionId = helloSessionId data := by
  by_cases hshape : HelloShape data
  · have hlen := hshape.length_le
    have hrandom : (slice data 11 43).length = 32 := by
      rw [length_slice]
      omega
    -- The hello is its stamp exactly when its random field is.
    have hstamped : data = stampHello hmac secret data t ↔
        slice data 11 43 = stamp hmac secret data t := by
      constructor
      · intro h
        rw [← random_stampHello hmac hlen, ← h]
      · intro h
        rw [stampHello, ← h]
        show data = data.take 11 ++ slice data 11 43 ++ data.drop 43
        have hcut := slice_append_drop data 11 32
        rw [show 11 + 32 = 43 from rfl, hrandom] at hcut
        rw [List.append_assoc, hcut, List.take_append_drop]
    have hiff := eq_stamp_iff hmac secret data t hrandom
    have hcode : verifyClientHello hmac now data secret =
        (let expected := (hmac secret (blankHello data)).1
        if expected.take 28 ≠ (slice data 11 43).take 28 then none
        else
          let time := leNat (List.zipWith (· ^^^ ·) (slice (slice data 11 43) 28 32)
            (slice expected 28 32))
          if timestampTolerance < |now - time| then none
          else some (slice data 11 43, helloSessionId data, time)) := by
      rw [verifyClientHello]
      dsimp only
      rw [if_neg (by omega), if_neg (not_not.mpr hshape.record),
        if_neg (not_not.mpr hshape.message)]
      rfl
    rw [hstamped, ← and_assoc (b := t < 2 ^ 32), hiff, hcode]
    dsimp only
    constructor
    · intro h
      split at h
      · exact absurd h (by simp)
      · rename_i hhead
        split at h
        · exact absurd h (by simp)
        · rename_i htime
          obtain ⟨rfl, hrest⟩ := Prod.mk.inj (Option.some.inj h)
          obtain ⟨rfl, rfl⟩ := Prod.mk.inj hrest
          exact ⟨hshape, ⟨not_not.mp hhead, rfl⟩, not_lt.mp htime, rfl, rfl⟩
    · rintro ⟨-, ⟨hhead, rfl⟩, htime, rfl, rfl⟩
      rw [if_neg (not_not.mpr hhead), if_neg (not_lt.mpr htime)]
  · refine iff_of_false (fun h => hshape ?_) fun h => hshape h.1
    rw [verifyClientHello] at h
    dsimp only at h
    split_ifs at h with hlen hrecord hmessage
    exact ⟨not_lt.mp hlen, not_not.mp hrecord, not_not.mp hmessage⟩

/-- A stamped hello is let in while its time is near, as often as it comes, and no longer. -/
lemma verifyClientHello_stampHello {secret data : Bytes} {t : ℕ} (hshape : HelloShape data)
    (ht : t < 2 ^ 32) (now : ℤ) (hnow : |now - t| ≤ timestampTolerance) :
    verifyClientHello hmac now (stampHello hmac secret data t) secret =
      some (stamp hmac secret data t, helloSessionId (stampHello hmac secret data t), t) := by
  have hagain := stampHello_stampHello hmac secret t t hshape.length_le
  exact (verifyClientHello_iff hmac now _ secret _ _ t).mpr
    ⟨shape_stampHello hmac secret t hshape, hagain.symm, ht, hnow,
      (random_stampHello hmac hshape.length_le).symm, rfl⟩

end TgWsProxy
