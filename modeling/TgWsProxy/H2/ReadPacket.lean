import TgWsProxy.Obfuscation.Aes

/-!
# Reading native packets

`_read_packet` of `proxy/cf_h2.py` takes one transport frame off the client's deciphered stream and
returns the MTProto packet in it.

* `readPacket` — the code: header, length check, body, and on the padded transport the removal of
  the padding, by the packet's own length field or by whole cipher blocks.
* `NativeHeader` — the header forms of the transports, with the quick-acknowledgement bit.
* `readPacket_reject`, `readPacket_ok`, `readPacket_frame` — what is refused before its body is
  read, what is accepted, and what must be.
-/

namespace TgWsProxy

open Wire

/-! ## The code -/

/-- `MAX_PACKET`. -/
def maxPacket : ℕ := 4 * 1024 * 1024

/-- `MAX_PLAIN_PADDING`. -/
def maxPlainPadding : ℕ := 256

/-- A client's stream and the decryptor that reads it. -/
structure Reader where
  wire : Bytes
  dec : Cipher
  deriving DecidableEq, Repr

/-- What reading a packet may raise. -/
inductive ReadError
  | incompleteRead
  | lengthRange (length : ℕ)
  | invalidPadding (frame packet : ℕ) (padding : ℤ) (limit : ℕ)
  | alignmentOrSize
  deriving DecidableEq, Repr

/-- The texts of the `ValueError`s of `_read_packet`; `IncompleteReadError` carries no text of its
own. -/
def ReadError.message : ReadError → Option String
  | .incompleteRead => none
  | .lengthRange length => some s!"native packet length outside supported range: {length}"
  | .invalidPadding frame packet padding limit => some
      s!"invalid padded native packet: frame={frame} packet={packet} padding={padding} limit={limit}"
  | .alignmentOrSize => some "invalid native packet alignment or size"

variable (E : AesKeystream)

/-- The plaintext a reader stands before. -/
def Reader.plain (r : Reader) : Bytes := r.dec.peek E r.wire

/-- `plaintext(count)`: read exactly `count` octets and decipher them.  At the end of the stream
`readexactly` drops what there was. -/
def plaintext (count : ℕ) (r : Reader) : Except ReadError Bytes × Reader :=
  if count ≤ r.wire.length then
    let (data, dec) := r.dec.update E (r.wire.take count)
    (.ok data, ⟨r.wire.drop count, dec⟩)
  else (.error .incompleteRead, { r with wire := [] })

/-- The header of `_read_packet`: the announced length and the quick-acknowledgement bit. -/
def readHeader (tag : Bytes) (r : Reader) : Except ReadError (ℕ × Bool) × Reader :=
  if tag = protoTagAbridged then
    match plaintext E 1 r with
    | (.error e, r) => (.error e, r)
    | (.ok one, r) =>
        let first := one.headD 0
        let quick := decide (first &&& 0x80 ≠ 0)
        let words := first &&& 0x7f
        if words = 0x7f then
          match plaintext E 3 r with
          | (.error e, r) => (.error e, r)
          | (.ok three, r) => (.ok (leNat three * 4, quick), r)
        else (.ok (words.toNat * 4, quick), r)
  else
    match plaintext E 4 r with
    | (.error e, r) => (.error e, r)
    | (.ok four, r) =>
        let value := leNat four
        (.ok (value &&& 0x7fffffff, decide (value &&& 0x80000000 ≠ 0)), r)

/-- The largest length a header may announce. -/
def maxLength (tag : Bytes) : ℕ := maxPacket + if tag = protoTagSecure then maxPlainPadding else 0

/-- The end of `_read_packet`: padding removal on the padded transport and the final check. -/
def unpad (tag : Bytes) (length : ℕ) (body : Bytes) : Except ReadError Bytes :=
  let check (body : Bytes) : Except ReadError Bytes :=
    if body.length % 4 ≠ 0 ∨ maxPacket < body.length then .error .alignmentOrSize else .ok body
  if tag = protoTagSecure then
    let plain := body.take 8 = List.replicate 8 0
    let packetLength :=
      if plain then 20 + leNat (slice body 16 20) else 24 + (length - 24) / 16 * 16
    let maxPadding := if plain then maxPlainPadding else 15
    let padding : ℤ := (length : ℤ) - packetLength
    if ¬ (24 ≤ packetLength ∧ packetLength ≤ length) ∨ padding > maxPadding then
      .error (.invalidPadding length packetLength padding maxPadding)
    else check (body.take packetLength)
  else check body

/-- `_read_packet(reader, decryptor, tag)`. -/
def readPacket (tag : Bytes) (r : Reader) : Except ReadError (Bytes × Bool) × Reader :=
  match readHeader E tag r with
  | (.error e, r) => (.error e, r)
  | (.ok (length, quick), r) =>
      if ¬ (24 ≤ length ∧ length ≤ maxLength tag) then (.error (.lengthRange length), r)
      else
        match plaintext E length r with
        | (.error e, r) => (.error e, r)
        | (.ok body, r) => ((unpad tag length body).map (·, quick), r)

/-! ## Frames -/

/-- `NativeHeader tag n quick h`: the octets `h` announce a frame of `n` octets on the transport
`tag`. -/
inductive NativeHeader : Bytes → ℕ → Bool → Bytes → Prop
  | short (words : ℕ) (quick : Bool) (hw : words < 0x7f) :
      NativeHeader protoTagAbridged (words * 4) quick [UInt8.ofNat (words + quick.toNat * 128)]
  | extended (words : ℕ) (quick : Bool) (hw : words < 2 ^ 24) :
      NativeHeader protoTagAbridged (words * 4) quick
        (UInt8.ofNat (127 + quick.toNat * 128) :: leBytes 3 words)
  | word (tag : Bytes) (n : ℕ) (quick : Bool) (htag : tag ≠ protoTagAbridged) (hn : n < 2 ^ 31) :
      NativeHeader tag n quick (leBytes 4 (n + quick.toNat * 2 ^ 31))

/-- An MTProto packet a client may send: unencrypted with its own length field, or encrypted in
whole cipher blocks. -/
def IsMtprotoPacket (m : Bytes) : Prop :=
  24 ≤ m.length ∧ m.length ≤ maxPacket ∧ m.length % 4 = 0 ∧
    (if m.take 8 = List.replicate 8 0 then leNat (slice m 16 20) = m.length - 20
     else (m.length - 24) % 16 = 0)

instance (m : Bytes) : Decidable (IsMtprotoPacket m) := by
  unfold IsMtprotoPacket; infer_instance

/-- The padding a transport may put after a packet. -/
def IsPadding (tag m pad : Bytes) : Prop :=
  if tag = protoTagSecure then
    pad.length ≤ if m.take 8 = List.replicate 8 0 then maxPlainPadding else 15
  else pad = []

instance (tag m pad : Bytes) : Decidable (IsPadding tag m pad) := by
  unfold IsPadding; infer_instance

/-! ## Reading octets -/

section Plaintext

variable {E}

@[simp] lemma Reader.length_plain (r : Reader) : (r.plain E).length = r.wire.length := by
  simp [Reader.plain]

lemma plaintext_ok {count : ℕ} {r : Reader} (h : count ≤ (r.plain E).length) :
    (plaintext E count r).1 = .ok ((r.plain E).take count) ∧
      (plaintext E count r).2.plain E = (r.plain E).drop count := by
  rw [Reader.length_plain] at h
  constructor
  · simp [plaintext, h, Reader.plain, Cipher.peek, xorFrom_take]
  · simp [plaintext, h, Reader.plain, Cipher.peek, Cipher.update, xorFrom_drop]

lemma plaintext_append {a b : Bytes} {r : Reader} (h : r.plain E = a ++ b) :
    ∃ r', plaintext E a.length r = (.ok a, r') ∧ r'.plain E = b := by
  have hle : a.length ≤ (r.plain E).length := by simp [h]
  obtain ⟨h1, h2⟩ := plaintext_ok hle
  rw [h, List.take_left] at h1
  rw [h, List.drop_left] at h2
  exact ⟨_, Prod.ext h1 rfl, h2⟩

lemma plaintext_eq_ok {count : ℕ} {r r' : Reader} {a : Bytes}
    (h : plaintext E count r = (.ok a, r')) : r.plain E = a ++ r'.plain E ∧ a.length = count := by
  by_cases hle : count ≤ (r.plain E).length
  · obtain ⟨h1, h2⟩ := plaintext_ok hle
    rw [h] at h1 h2
    obtain rfl := Except.ok.inj h1
    refine ⟨by rw [h2, List.take_append_drop], ?_⟩
    rw [List.length_take, Nat.min_eq_left hle]
  · simp only [plaintext, Reader.length_plain] at h hle
    rw [if_neg hle] at h
    simp at h

end Plaintext

/-! ## Reading the header -/

section Header

variable {E}

lemma and_0x80 (b : UInt8) : b &&& 0x80 ≠ 0 ↔ 128 ≤ b.toNat := by
  have hb := b.toNat_lt
  have h : b.toNat &&& 2 ^ 7 = (b.toNat.testBit 7).toNat * 2 ^ 7 := Nat.and_two_pow _ _
  rw [Nat.testBit_eq_decide_div_mod_eq] at h
  rw [ne_eq, ← UInt8.toNat_inj, UInt8.toNat_and]
  change ¬ (b.toNat &&& 2 ^ 7 = 0) ↔ _
  rw [h]
  by_cases h7 : b.toNat / 2 ^ 7 % 2 = 1
  · rw [decide_eq_true h7, Bool.toNat_true]
    omega
  · rw [decide_eq_false h7, Bool.toNat_false]
    omega

lemma toNat_and_0x7f (b : UInt8) : (b &&& 0x7f).toNat = b.toNat % 128 := by
  rw [UInt8.toNat_and]
  exact Nat.and_two_pow_sub_one_eq_mod b.toNat 7

lemma and_0x7f_eq (b : UInt8) : b &&& 0x7f = 0x7f ↔ b.toNat % 128 = 127 := by
  rw [← UInt8.toNat_inj, toNat_and_0x7f]
  rfl

lemma and_0x80000000 {n : ℕ} (hn : n < 2 ^ 32) : n &&& 0x80000000 ≠ 0 ↔ 2 ^ 31 ≤ n := by
  have h : n &&& 2 ^ 31 = (n.testBit 31).toNat * 2 ^ 31 := Nat.and_two_pow _ _
  rw [Nat.testBit_eq_decide_div_mod_eq] at h
  change ¬ (n &&& 2 ^ 31 = 0) ↔ _
  rw [h]
  by_cases h31 : n / 2 ^ 31 % 2 = 1
  · rw [decide_eq_true h31, Bool.toNat_true]
    omega
  · rw [decide_eq_false h31, Bool.toNat_false]
    omega

lemma and_0x7fffffff (n : ℕ) : n &&& 0x7fffffff = n % 2 ^ 31 :=
  Nat.and_two_pow_sub_one_eq_mod n 31

/-- A header is read as what it announces. -/
theorem readHeader_append {tag h rest : Bytes} {n : ℕ} {quick : Bool}
    (hh : NativeHeader tag n quick h) {r : Reader} (hr : r.plain E = h ++ rest) :
    ∃ r', readHeader E tag r = (.ok (n, quick), r') ∧ r'.plain E = rest := by
  cases hh with
  | short words _ hw =>
      obtain ⟨r', h1, h2⟩ := plaintext_append hr
      have hb : (UInt8.ofNat (words + quick.toNat * 128)).toNat = words + quick.toNat * 128 := by
        cases quick <;> simp <;> omega
      refine ⟨r', ?_, h2⟩
      rw [List.length_singleton] at h1
      simp only [readHeader, if_true, h1, List.headD_cons, and_0x7f_eq, and_0x80,
          toNat_and_0x7f, hb]
      rw [if_neg (by cases quick <;> simp <;> omega)]
      cases quick <;> simp <;> omega
  | extended words _ hw =>
      obtain ⟨r', h1, h2⟩ := plaintext_append (a := [UInt8.ofNat (127 + quick.toNat * 128)])
        (b := leBytes 3 words ++ rest) (by simpa using hr)
      obtain ⟨r'', h3, h4⟩ := plaintext_append h2
      have hb : (UInt8.ofNat (127 + quick.toNat * 128)).toNat = 127 + quick.toNat * 128 := by
        cases quick <;> rfl
      refine ⟨r'', ?_, h4⟩
      rw [List.length_singleton] at h1
      rw [length_leBytes] at h3
      simp only [readHeader, if_true, h1, List.headD_cons, and_0x7f_eq, and_0x80, hb]
      rw [if_pos (by cases quick <;> rfl), h3]
      have hw' : words < 256 ^ 3 := hw.trans_eq (by norm_num)
      simp only [leNat_leBytes_of_lt hw']
      cases quick <;> simp
  | word _ n _ htag hn =>
      obtain ⟨r', h1, h2⟩ := plaintext_append hr
      have hv : n + quick.toNat * 2 ^ 31 < 256 ^ 4 := by cases quick <;> simp <;> omega
      refine ⟨r', ?_, h2⟩
      rw [length_leBytes] at h1
      simp only [readHeader, if_neg htag, h1, leNat_leBytes_of_lt hv, and_0x7fffffff,
        and_0x80000000 (show n + quick.toNat * 2 ^ 31 < 2 ^ 32 by omega)]
      rw [Nat.add_mul_mod_self_right, Nat.mod_eq_of_lt hn]
      cases quick with
      | false => rw [Bool.toNat_false, decide_eq_false (by omega)]
      | true => rw [Bool.toNat_true, decide_eq_true (by omega)]

/-- Only a header is read as one. -/
theorem readHeader_eq_ok {tag : Bytes} {n : ℕ} {quick : Bool} {r r' : Reader}
    (h : readHeader E tag r = (.ok (n, quick), r')) :
    ∃ hd, NativeHeader tag n quick hd ∧ r.plain E = hd ++ r'.plain E := by
  unfold readHeader at h
  split_ifs at h with htag
  · subst htag
    match h1 : plaintext E 1 r with
    | (.error e, r1) => simp [h1] at h
    | (.ok one, r1) =>
        obtain ⟨hr, hlen⟩ := plaintext_eq_ok h1
        obtain ⟨b, rfl⟩ := List.length_eq_one_iff.mp hlen
        have hb := b.toNat_lt
        simp only [h1, List.headD_cons, and_0x7f_eq, and_0x80, toNat_and_0x7f] at h
        split_ifs at h with hesc
        · match h3 : plaintext E 3 r1 with
          | (.error e, r2) => simp [h3] at h
          | (.ok three, r2) =>
              obtain ⟨hr1, hlen3⟩ := plaintext_eq_ok h3
              simp only [h3, Prod.mk.injEq, Except.ok.injEq] at h
              obtain ⟨⟨rfl, rfl⟩, rfl⟩ := h
              have hlt := leNat_lt three
              rw [hlen3] at hlt
              refine ⟨_, .extended (leNat three) _ (by omega), ?_⟩
              have hback := leBytes_leNat three
              rw [hlen3] at hback
              have hfirst : UInt8.ofNat (127 + (decide (128 ≤ b.toNat)).toNat * 128) = b := by
                rw [← UInt8.toNat_inj]
                by_cases h8 : 128 ≤ b.toNat <;> simp [h8] <;> omega
              rw [hfirst, hback, hr, hr1]
              simp
        · simp only [Prod.mk.injEq, Except.ok.injEq] at h
          obtain ⟨⟨rfl, rfl⟩, rfl⟩ := h
          refine ⟨_, .short (b.toNat % 128) _ (by omega), ?_⟩
          have hfirst : UInt8.ofNat (b.toNat % 128 + (decide (128 ≤ b.toNat)).toNat * 128) = b := by
            rw [← UInt8.toNat_inj]
            by_cases h8 : 128 ≤ b.toNat <;> simp [h8] <;> omega
          rw [hfirst, hr]
  · match h1 : plaintext E 4 r with
    | (.error e, r1) => simp [h1] at h
    | (.ok four, r1) =>
        obtain ⟨hr, hlen⟩ := plaintext_eq_ok h1
        have hlt := leNat_lt four
        rw [hlen] at hlt
        simp only [h1, and_0x7fffffff, and_0x80000000 (show leNat four < 2 ^ 32 by omega),
          Prod.mk.injEq, Except.ok.injEq] at h
        obtain ⟨⟨rfl, rfl⟩, rfl⟩ := h
        refine ⟨_, .word tag _ _ htag (by omega), ?_⟩
        have hback := leBytes_leNat four
        rw [hlen] at hback
        have hval : leNat four % 2 ^ 31 + (decide (2 ^ 31 ≤ leNat four)).toNat * 2 ^ 31
            = leNat four := by
          rcases le_or_gt (2 ^ 31) (leNat four) with h8 | h8
          · rw [decide_eq_true h8, Bool.toNat_true]
            omega
          · rw [decide_eq_false (by omega), Bool.toNat_false]
            omega
        rw [hval, hback, hr]

end Header

/-! ## Removing the padding -/

section Unpad

/-- What survives is a prefix of the frame, all of it without padding, of a packet's size. -/
theorem unpad_eq_ok {tag body m : Bytes} (h : unpad tag body.length body = .ok m) :
    m <+: body ∧ (tag ≠ protoTagSecure → m = body) ∧ m.length % 4 = 0 ∧ m.length ≤ maxPacket ∧
      (24 ≤ body.length → 24 ≤ m.length) := by
  simp only [unpad] at h
  split_ifs at h with hsecure hplain hbad hsize hbad hsize hsize
  · obtain rfl := Except.ok.inj h
    push Not at hbad hsize
    refine ⟨List.take_prefix _ _, fun hn => absurd hsecure hn, hsize.1, hsize.2, fun _ => ?_⟩
    rw [List.length_take]
    omega
  · obtain rfl := Except.ok.inj h
    push Not at hbad hsize
    refine ⟨List.take_prefix _ _, fun hn => absurd hsecure hn, hsize.1, hsize.2, fun _ => ?_⟩
    rw [List.length_take]
    omega
  · obtain rfl := Except.ok.inj h
    push Not at hsize
    exact ⟨List.prefix_rfl, fun _ => rfl, hsize.1, hsize.2, id⟩

/-- The packet is recovered from under its padding. -/
theorem unpad_append {tag m pad : Bytes} (hm : IsMtprotoPacket m) (hpad : IsPadding tag m pad) :
    unpad tag (m ++ pad).length (m ++ pad) = .ok m := by
  obtain ⟨hmin, hmax, h4, hshape⟩ := hm
  have hcheck : ¬ (m.length % 4 ≠ 0 ∨ maxPacket < m.length) := by omega
  unfold IsPadding at hpad
  by_cases hsecure : tag = protoTagSecure
  · rw [if_pos hsecure] at hpad
    have h8 : (m ++ pad).take 8 = m.take 8 := List.take_append_of_le_length (by omega)
    simp only [unpad, if_pos hsecure, h8, List.length_append]
    by_cases hplain : m.take 8 = List.replicate 8 0
    · rw [if_pos hplain] at hpad hshape
      have hlen : 20 + leNat (slice (m ++ pad) 16 20) = m.length := by
        rw [slice_append_left pad (by omega : 20 ≤ m.length), hshape]
        omega
      rw [if_pos hplain, if_pos hplain, hlen, if_neg (by omega), List.take_left, if_neg hcheck]
    · rw [if_neg hplain] at hpad hshape
      have hlen : 24 + (m.length + pad.length - 24) / 16 * 16 = m.length := by omega
      rw [if_neg hplain, if_neg hplain, hlen, if_neg (by omega), List.take_left, if_neg hcheck]
  · rw [if_neg hsecure] at hpad
    rw [hpad, List.append_nil]
    simp only [unpad, if_neg hsecure, if_neg hcheck]

end Unpad

/-! ## Reading a packet -/

section Packet

variable {E}

/-- **Refusal.** A length out of range is refused with the stream still before the body. -/
theorem readPacket_reject {tag h rest : Bytes} {n : ℕ} {quick : Bool}
    (hh : NativeHeader tag n quick h) (hn : ¬ (24 ≤ n ∧ n ≤ maxLength tag)) {r : Reader}
    (hr : r.plain E = h ++ rest) :
    ∃ r', readPacket E tag r = (.error (.lengthRange n), r') ∧ r'.plain E = rest := by
  obtain ⟨r', h1, h2⟩ := readHeader_append hh hr
  refine ⟨r', ?_, h2⟩
  simp only [readPacket, h1, if_pos hn]

/-- **Acceptance.** One whole frame is taken, and the packet is what stands first in it. -/
theorem readPacket_eq_ok {tag m : Bytes} {quick : Bool} {r r' : Reader}
    (h : readPacket E tag r = (.ok (m, quick), r')) :
    ∃ hd n payload, NativeHeader tag n quick hd ∧ payload.length = n ∧
      r.plain E = hd ++ payload ++ r'.plain E ∧ m <+: payload ∧
      (tag ≠ protoTagSecure → m = payload) ∧
      24 ≤ m.length ∧ m.length ≤ maxPacket ∧ m.length % 4 = 0 := by
  unfold readPacket at h
  match h1 : readHeader E tag r with
  | (.error e, r1) => simp [h1] at h
  | (.ok (n, q), r1) =>
      simp only [h1] at h
      obtain ⟨hd, hhd, hr⟩ := readHeader_eq_ok h1
      by_cases hrange : 24 ≤ n ∧ n ≤ maxLength tag
      swap
      · rw [if_pos hrange] at h
        cases h
      rw [if_neg (not_not.mpr hrange)] at h
      match h2 : plaintext E n r1 with
      | (.error e, r2) => simp [h2] at h
      | (.ok body, r2) =>
          obtain ⟨hr1, hlen⟩ := plaintext_eq_ok h2
          simp only [h2, Prod.mk.injEq] at h
          obtain ⟨hmap, rfl⟩ := h
          match h3 : unpad tag n body with
          | .error e =>
              rw [h3] at hmap
              cases hmap
          | .ok m' =>
              rw [h3] at hmap
              obtain ⟨rfl, rfl⟩ := Prod.mk.inj (Except.ok.inj hmap)
              rw [← hlen] at h3
              obtain ⟨hpre, hwhole, h4, hmax, hmin⟩ := unpad_eq_ok h3
              refine ⟨hd, n, body, hhd, hlen, ?_, hpre, hwhole, hmin (by omega), hmax, h4⟩
              rw [hr, hr1, List.append_assoc]

/-- **Decoding.** A framed packet is read back, with its quick-acknowledgement bit. -/
theorem readPacket_append {tag h m pad rest : Bytes} {quick : Bool} (hm : IsMtprotoPacket m)
    (hpad : IsPadding tag m pad) (hh : NativeHeader tag (m.length + pad.length) quick h)
    {r : Reader} (hr : r.plain E = h ++ (m ++ pad) ++ rest) :
    ∃ r', readPacket E tag r = (.ok (m, quick), r') ∧ r'.plain E = rest := by
  rw [List.append_assoc] at hr
  obtain ⟨r1, h1, hr1⟩ := readHeader_append hh hr
  obtain ⟨r2, h2, hr2⟩ := plaintext_append hr1
  have hrange : 24 ≤ m.length + pad.length ∧ m.length + pad.length ≤ maxLength tag := by
    have hmin := hm.1
    have hmax := hm.2.1
    refine ⟨by omega, ?_⟩
    unfold IsPadding at hpad
    unfold maxLength
    by_cases hsecure : tag = protoTagSecure
    · rw [if_pos hsecure] at hpad ⊢
      unfold maxPlainPadding at hpad ⊢
      split_ifs at hpad <;> omega
    · rw [if_neg hsecure] at hpad ⊢
      rw [hpad, List.length_nil]
      exact hmax
  have hbody := unpad_append hm hpad
  rw [List.length_append] at h2 hbody
  refine ⟨r2, ?_, hr2⟩
  simp only [readPacket, h1, if_neg (not_not.mpr hrange), h2, hbody]
  rfl

/-- **Native framing.**  On every transport and every stream: a header out of range is refused
before its body; a packet that is read is the beginning, and without padding the whole, of exactly
one frame; and a framed packet is read back as it was sent. -/
theorem readPacket_decodes (tag : Bytes) (r : Reader) :
    (∀ h n quick rest, NativeHeader tag n quick h → r.plain E = h ++ rest →
      ¬ (24 ≤ n ∧ n ≤ maxLength tag) →
      ∃ r', readPacket E tag r = (.error (.lengthRange n), r') ∧ r'.plain E = rest) ∧
    (∀ m quick r', readPacket E tag r = (.ok (m, quick), r') →
      ∃ h n payload, NativeHeader tag n quick h ∧ payload.length = n ∧
        r.plain E = h ++ payload ++ r'.plain E ∧ m <+: payload ∧
        (tag ≠ protoTagSecure → m = payload) ∧
        24 ≤ m.length ∧ m.length ≤ maxPacket ∧ m.length % 4 = 0) ∧
    (∀ h m pad quick rest, IsMtprotoPacket m → IsPadding tag m pad →
      NativeHeader tag (m.length + pad.length) quick h → r.plain E = h ++ (m ++ pad) ++ rest →
      ∃ r', readPacket E tag r = (.ok (m, quick), r') ∧ r'.plain E = rest) :=
  ⟨fun _ _ _ _ hh hr hn => readPacket_reject hh hn hr, fun _ _ _ h => readPacket_eq_ok h,
    fun _ _ _ _ _ hm hpad hh hr => readPacket_append hm hpad hh hr⟩

/-- A padded plain packet is read, and one that announces too little is refused, both enciphered. -/
theorem readPacket_decodes_sample :
    let E : AesKeystream := fun key _ n => key.headD 0 + UInt8.ofNat n
    let dec : Cipher := ⟨[5], [], 64⟩
    let m : Bytes := List.replicate 16 0 ++ [4, 0, 0, 0, 1, 2, 3, 4]
    (∃ r', readPacket E protoTagSecure
        ⟨dec.peek E (leBytes 4 (26 + 2 ^ 31) ++ (m ++ [7, 7]) ++ [9]), dec⟩ = (.ok (m, true), r') ∧
        r'.plain E = [9]) ∧
      ∃ r', readPacket E protoTagAbridged ⟨dec.peek E ([5] ++ m), dec⟩
        = (.error (.lengthRange 20), r') ∧ r'.plain E = m := by
  intro E dec m
  constructor
  · exact (readPacket_decodes protoTagSecure _).2.2 _ m [7, 7] true [9] (by decide) (by decide)
      (.word protoTagSecure 26 true (by decide) (by decide)) (Cipher.peek_peek E dec _)
  · exact (readPacket_decodes protoTagAbridged _).1 _ _ _ m (.short 5 false (by decide))
      (Cipher.peek_peek E dec _) (by decide)

end Packet

end TgWsProxy
