import TgWsProxy.Obfuscation.Handshake

/-!
# Re-encryption is transparent

The relay deciphers what the client sends and enciphers it again for Telegram, and the same the
other way round.  Two peers sit at its ends, and each fixes its keys by a rule of its own.

* The **client** keys both directions through the secret: `clientInit` is what it sends,
  `clientSend` and `clientRecv` are its two streams.
* The **server** reads raw key material from the relay init: `serverRecv` and `serverSend`.

`reencryption_transparent` says that the four ciphers `buildCryptoCtx` sets up meet both rules:
whatever either peer sends, and however the stream is cut on the way, the other reads it back.
The argument is in two halves.  `flatten_upstream` and `flatten_downstream` remove the chunks, for
any four ciphers; then each pair of ciphers is matched with its peer, key by key and offset by
offset.
-/

namespace TgWsProxy

open Wire

variable (sha256 : Bytes → Digest) (E : AesKeystream)

/-! ## The relay loops -/

/-- One turn of `tcp_to_ws`: `tg_enc.update(clt_dec.update(chunk))`. -/
def CryptoCtx.up (ctx : CryptoCtx) (chunk : Bytes) : Bytes × CryptoCtx :=
  let (plain, cltDec) := ctx.cltDec.update E chunk
  let (out, tgEnc) := ctx.tgEnc.update E plain
  (out, { ctx with cltDec := cltDec, tgEnc := tgEnc })

/-- One turn of `ws_to_tcp`: `clt_enc.update(tg_dec.update(data))`. -/
def CryptoCtx.down (ctx : CryptoCtx) (data : Bytes) : Bytes × CryptoCtx :=
  let (plain, tgDec) := ctx.tgDec.update E data
  let (out, cltEnc) := ctx.cltEnc.update E plain
  (out, { ctx with tgDec := tgDec, cltEnc := cltEnc })

/-- What `tcp_to_ws` sends for the chunks it reads. -/
def upstream : CryptoCtx → List Bytes → List Bytes
  | _, [] => []
  | ctx, chunk :: chunks => (ctx.up E chunk).1 :: upstream (ctx.up E chunk).2 chunks

/-- What `ws_to_tcp` writes for the messages it receives. -/
def downstream : CryptoCtx → List Bytes → List Bytes
  | _, [] => []
  | ctx, data :: datas => (ctx.down E data).1 :: downstream (ctx.down E data).2 datas

/-- **Upstream chunks vanish.**  The two ciphers advance together, so chunk by chunk is all at
once. -/
theorem flatten_upstream (ctx : CryptoCtx) (chunks : List Bytes) :
    (upstream E ctx chunks).flatten = ctx.tgEnc.peek E (ctx.cltDec.peek E chunks.flatten) := by
  induction chunks generalizing ctx with
  | nil => simp [upstream]
  | cons chunk chunks ih =>
      rw [upstream, List.flatten_cons, ih, List.flatten_cons, Cipher.peek_append,
        Cipher.peek_append]
      rfl

/-- **Downstream chunks vanish.** -/
theorem flatten_downstream (ctx : CryptoCtx) (datas : List Bytes) :
    (downstream E ctx datas).flatten = ctx.cltEnc.peek E (ctx.tgDec.peek E datas.flatten) := by
  induction datas generalizing ctx with
  | nil => simp [downstream]
  | cons data datas ih =>
      rw [downstream, List.flatten_cons, ih, List.flatten_cons, Cipher.peek_append,
        Cipher.peek_append]
      rfl

/-! ## The client's rule -/

/-- The client's sending cipher, from its 64-byte plaintext init: the key is hashed with the
secret. -/
def clientEnc (secret init : Bytes) : Cipher :=
  ⟨(sha256 (slice init 8 40 ++ secret)).1, slice init 40 56, 0⟩

/-- The client's receiving cipher: the same 48 octets reversed, the key hashed with the secret. -/
def clientDec (secret init : Bytes) : Cipher :=
  let rev := (slice init 8 56).reverse
  ⟨(sha256 (rev.take 32 ++ secret)).1, rev.drop 32, 0⟩

/-- The init on the wire: the last eight octets are replaced by their encryption, which stands at
offset 56 of the sending stream. -/
def clientInit (secret init : Bytes) : Bytes :=
  init.take 56 ++ slice ((clientEnc sha256 secret init).peek E init) 56 64

/-- The client's ciphertext for the plaintext `x`: the stream goes on after the init. -/
def clientSend (secret init x : Bytes) : Bytes :=
  { clientEnc sha256 secret init with pos := 64 }.peek E x

/-- What the client reads in the ciphertext `y`. -/
def clientRecv (secret init y : Bytes) : Bytes := (clientDec sha256 secret init).peek E y

/-! ## The server's rule -/

/-- What the server reads in the ciphertext `x` that follows the relay init. -/
def serverRecv (relayInit x : Bytes) : Bytes :=
  Cipher.peek E ⟨slice relayInit 8 40, slice relayInit 40 56, 64⟩ x

/-- The server's ciphertext for the plaintext `y`. -/
def serverSend (relayInit y : Bytes) : Bytes :=
  let rev := (slice relayInit 8 56).reverse
  Cipher.peek E ⟨rev.take 32, rev.drop 32, 0⟩ y

/-! ## The handshake agrees with the client -/

section Handshake

variable {init : Bytes} (secret : Bytes)

/-- What `_try_handshake` makes of 64 octets, in terms of what they decipher to. -/
lemma tryHandshake_eq (hinit : init.length = 64) :
    tryHandshake sha256 E init secret = .ok
      (let plain := (clientEnc sha256 secret init).peek E init
      if IsProtoTag (slice plain 56 60) then
        some ((leInt (slice plain 60 62)).natAbs, decide (leInt (slice plain 60 62) < 0),
          slice plain 56 60, slice init 8 56)
      else none) := by
  have hkey : (slice init 8 56).take 32 = slice init 8 40 := by
    simp [slice, List.take_drop, List.take_take]
  have hiv : (slice init 8 56).drop 32 = slice init 40 56 := by
    simp [slice, List.drop_drop]
  have hbe : beBytes 16 (beNat (slice init 40 56)) = slice init 40 56 := by
    have h := beBytes_beNat (slice init 40 56)
    rwa [show (slice init 40 56).length = 16 by simp [hinit]] at h
  have hnew := Cipher.new_ok (sha256 (slice init 8 40 ++ secret)).2
    (show (slice init 40 56).length = 16 by simp [hinit])
  simp only [tryHandshake, skipLen, prekeyLen, ivLen, protoTagPos, dcIdxPos, Nat.reduceAdd, hkey,
    hiv, hbe, hnew, bind, Except.bind, Cipher.update_fst, pure, Except.pure, clientEnc]
  exact (apply_ite Except.ok _ _ _).symm

lemma length_clientInit (hinit : init.length = 64) :
    (clientInit sha256 E secret init).length = 64 := by
  simp [clientInit, hinit]

/-- The key material stands in the clear. -/
lemma slice_clientInit (hinit : init.length = 64) {a b : ℕ} (hb : b ≤ 56) :
    slice (clientInit sha256 E secret init) a b = slice init a b := by
  rw [clientInit, slice_append_left _ (by simp [hinit, hb]), slice, slice, List.take_take,
    Nat.min_eq_left hb]

/-- Deciphering the init from offset 0 restores its last eight octets. -/
lemma slice_peek_clientInit (hinit : init.length = 64) {a b : ℕ} :
    slice ((clientEnc sha256 secret init).peek E (clientInit sha256 E secret init))
        (56 + a) (56 + b) = slice (slice init 56 64) a b := by
  have hlen : ((clientEnc sha256 secret init).peek E (init.take 56)).length = 56 := by
    simp [hinit]
  have htail : slice ((clientEnc sha256 secret init).peek E init) 56 64
      = { clientEnc sha256 secret init with pos := 56 }.peek E (slice init 56 64) := by
    simp [slice, Cipher.peek, clientEnc, ← xorFrom_take, xorFrom_drop]
  have hpos : ((clientEnc sha256 secret init).update E (init.take 56)).2
      = { clientEnc sha256 secret init with pos := 56 } := by
    simp [Cipher.update, clientEnc, hinit]
  have hright := slice_append_right ((clientEnc sha256 secret init).peek E (init.take 56))
    (slice init 56 64) a b
  rw [hlen] at hright
  rw [clientInit, Cipher.peek_append, htail, hpos, Cipher.peek_peek, hright]

/-- **The proxy recognises the client.**  On a client's init `_try_handshake` returns the DC index
and the tag the client wrote, with the key material. -/
theorem tryHandshake_clientInit (hinit : init.length = 64)
    (htag : IsProtoTag (slice init 56 60)) :
    tryHandshake sha256 E (clientInit sha256 E secret init) secret = .ok (some
      ((leInt (slice init 60 62)).natAbs, decide (leInt (slice init 60 62) < 0),
        slice init 56 60, slice init 8 56)) := by
  have htag' := slice_peek_clientInit sha256 E secret hinit (a := 0) (b := 4)
  have hdc' := slice_peek_clientInit sha256 E secret hinit (a := 4) (b := 6)
  rw [slice_slice (by omega)] at htag' hdc'
  simp only [Nat.add_zero, Nat.reduceAdd] at htag' hdc'
  -- the keys are in the clear, so the proxy deciphers with the client's own cipher
  have hcipher : clientEnc sha256 secret (clientInit sha256 E secret init)
      = clientEnc sha256 secret init := by
    simp only [clientEnc, slice_clientInit sha256 E secret hinit (show 40 ≤ 56 by decide),
      slice_clientInit sha256 E secret hinit (le_refl 56)]
  simp only [tryHandshake_eq sha256 E secret (length_clientInit sha256 E secret hinit), hcipher,
    htag', hdc', slice_clientInit sha256 E secret hinit (le_refl 56), if_pos htag]

end Handshake

/-! ## Transparency -/

/-- **Re-encryption is transparent end to end.**  For every secret, every init a client builds for
it and every relay init that can be drawn, the handshake succeeds, the four ciphers are set up, and
in both directions the far peer reads exactly what the near peer wrote, whatever the chunks. -/
theorem reencryption_transparent (secret init : Bytes) (hinit : init.length = 64)
    (htag : IsProtoTag (slice init 56 60)) {protoTag pad relayInit : Bytes} {dcIdx : ℤ}
    {draws : List Bytes} (hdraws : ∀ rnd ∈ draws, rnd.length = handshakeLen)
    (hrelay : generateRelayInit E protoTag dcIdx pad draws = .ok (some relayInit)) :
    ∃ dc isMedia prekeyIv ctx,
      tryHandshake sha256 E (clientInit sha256 E secret init) secret
        = .ok (some (dc, isMedia, slice init 56 60, prekeyIv)) ∧
      buildCryptoCtx sha256 E prekeyIv secret relayInit = .ok ctx ∧
      (∀ (x : Bytes) (chunks : List Bytes),
        chunks.flatten = clientSend sha256 E secret init x →
        serverRecv E relayInit (upstream E ctx chunks).flatten = x) ∧
      (∀ (y : Bytes) (chunks : List Bytes),
        chunks.flatten = serverSend E relayInit y →
        clientRecv sha256 E secret init (downstream E ctx chunks).flatten = y) := by
  obtain ⟨rnd, hmem, -, sealed, rfl⟩ := generateRelayInit_draw E hrelay
  have hrnd : rnd.length = 64 := hdraws rnd hmem
  have hprekey : (slice init 8 56).length = 48 := by simp [hinit]
  have hlen : 56 ≤ (rnd.take protoTagPos ++ sealed).length := by simp [hrnd, protoTagPos]
  have hctx := buildCryptoCtx_ok sha256 E secret hprekey hlen
  refine ⟨_, _, _, _, tryHandshake_clientInit sha256 E secret hinit htag, hctx, ?_, ?_⟩
  · intro x chunks hchunks
    have hkey : (slice init 8 56).take 32 = slice init 8 40 := by
      simp [slice, List.take_drop, List.take_take]
    have hiv : (slice init 8 56).drop 32 = slice init 40 56 := by simp [slice, List.drop_drop]
    -- the client's cipher meets `clt_dec`, the server's meets `tg_enc`
    rw [flatten_upstream, hchunks, clientSend, serverRecv]
    simp only [hkey, hiv, clientEnc, Cipher.peek_peek]
  · intro y chunks hchunks
    rw [flatten_downstream, hchunks, serverSend, clientRecv]
    simp only [clientDec, Cipher.peek_peek]

/-- A session with a constant digest, a keystream that counts, and a reserved first draw. -/
theorem reencryption_transparent_sample :
    let sha256 : Bytes → Digest := fun _ => ⟨List.replicate 32 7, rfl⟩
    let E : AesKeystream := fun key _ n => key.headD 0 + UInt8.ofNat n
    let init : Bytes := List.replicate 56 1 ++ protoTagSecure ++ [2, 0, 9, 9]
    let draws : List Bytes := [List.replicate 64 0xEF, List.replicate 64 3]
    ∃ relayInit dc isMedia prekeyIv ctx,
      generateRelayInit E protoTagSecure 2 [0, 0] draws = .ok (some relayInit) ∧
      tryHandshake sha256 E (clientInit sha256 E [5] init) [5]
        = .ok (some (dc, isMedia, slice init 56 60, prekeyIv)) ∧
      buildCryptoCtx sha256 E prekeyIv [5] relayInit = .ok ctx ∧
      (∀ (x : Bytes) (chunks : List Bytes), chunks.flatten = clientSend sha256 E [5] init x →
        serverRecv E relayInit (upstream E ctx chunks).flatten = x) ∧
      (∀ (y : Bytes) (chunks : List Bytes), chunks.flatten = serverSend E relayInit y →
        clientRecv sha256 E [5] init (downstream E ctx chunks).flatten = y) := by
  intro sha256 E init draws
  have hrelay : generateRelayInit E protoTagSecure 2 [0, 0] draws = .ok (some _) := rfl
  have hdraws : ∀ rnd ∈ draws, rnd.length = handshakeLen := by decide
  obtain ⟨dc, isMedia, prekeyIv, ctx, h⟩ :=
    reencryption_transparent sha256 E [5] init (by decide) (by decide) hdraws hrelay
  exact ⟨_, dc, isMedia, prekeyIv, ctx, hrelay, h⟩

end TgWsProxy
