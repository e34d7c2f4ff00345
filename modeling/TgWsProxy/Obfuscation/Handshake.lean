import TgWsProxy.Obfuscation.Aes

/-!
# The obfuscated handshake

The three functions of `proxy/tg_ws_proxy.py` that turn a client's 64-byte init into the four
ciphers of a session.

* `tryHandshake` — decrypt the init with the secret, read the transport tag and the DC index.
* `generateRelayInit` — draw the init sent to Telegram, redrawing while it looks like another
  protocol, and encrypt the announcement into its last eight octets.
* `buildCryptoCtx` — the four ciphers, two keyed through the secret and two raw.

SHA-256 and the AES keystream are parameters.
-/

namespace TgWsProxy

open Wire

variable (sha256 : Bytes → Digest) (E : AesKeystream)

/-! ## Reading the client's init -/

/-- `_try_handshake(handshake, secret)`: the DC, whether it is a media DC, the transport tag and
the key material, or nothing when the decrypted tag is not one the proxy knows. -/
def tryHandshake (handshake secret : Bytes) :
    Except String (Option (ℕ × Bool × Bytes × Bytes)) := do
  let decPrekeyAndIv := slice handshake skipLen (skipLen + prekeyLen + ivLen)
  let decPrekey := decPrekeyAndIv.take prekeyLen
  let decIv := decPrekeyAndIv.drop prekeyLen
  let decKey := (sha256 (decPrekey ++ secret)).1
  let decIvInt := beNat decIv
  let decryptor ← Cipher.new decKey (beBytes 16 decIvInt)
  let decrypted := (decryptor.update E handshake).1
  let protoTag := slice decrypted protoTagPos (protoTagPos + 4)
  if IsProtoTag protoTag then
    let dcIdx := leInt (slice decrypted dcIdxPos (dcIdxPos + 2))
    return some (dcIdx.natAbs, decide (dcIdx < 0), protoTag, decPrekeyAndIv)
  else
    return none

/-! ## Drawing the relay init -/

/-- The patterns `_generate_relay_init` refuses to send. -/
def isReserved (rnd : Bytes) : Bool :=
  decide (rnd.getD 0 0 ∈ reservedFirstBytes) || decide (rnd.take 4 ∈ reservedStarts) ||
    decide (slice rnd 4 8 = reservedContinue)

/-- The body of `_generate_relay_init` after the loop, for the draw `rnd` that ended it and the
two octets `pad` drawn last. -/
def sealRelayInit (protoTag : Bytes) (dcIdx : ℤ) (rnd pad : Bytes) : Except String Bytes := do
  let encKey := slice rnd skipLen (skipLen + prekeyLen)
  let encIv := slice rnd (skipLen + prekeyLen) (skipLen + prekeyLen + ivLen)
  let encryptor ← Cipher.new encKey encIv
  match leIntBytes 2 dcIdx with
  | none => throw "short format requires (-0x7fff -1) <= number <= 0x7fff"
  | some dcBytes =>
      let tailPlain := protoTag ++ dcBytes ++ pad
      let encryptedFull := (encryptor.update E rnd).1
      let keystreamTail := List.zipWith (· ^^^ ·) (slice encryptedFull 56 64) (slice rnd 56 64)
      let encryptedTail := List.zipWith (· ^^^ ·) tailPlain keystreamTail
      return rnd.take protoTagPos ++ encryptedTail

/-- `_generate_relay_init(proto_tag, dc_idx)` on the draws of `os.urandom(64)`: the first one that
is not reserved ends the loop.  `none` is a loop still drawing. -/
def generateRelayInit (protoTag : Bytes) (dcIdx : ℤ) (pad : Bytes) :
    List Bytes → Except String (Option Bytes)
  | [] => .ok none
  | rnd :: draws =>
      if isReserved rnd then generateRelayInit protoTag dcIdx pad draws
      else (sealRelayInit E protoTag dcIdx rnd pad).map some

/-- A relay init is a draw whose last eight octets were replaced. -/
lemma generateRelayInit_draw {protoTag : Bytes} {dcIdx : ℤ} {pad : Bytes} {r : Bytes} :
    ∀ {draws : List Bytes}, generateRelayInit E protoTag dcIdx pad draws = .ok (some r) →
      ∃ rnd ∈ draws, isReserved rnd = false ∧ ∃ sealed, r = rnd.take protoTagPos ++ sealed
  | [], h => by simp [generateRelayInit] at h
  | rnd :: draws, h => by
      rw [generateRelayInit] at h
      split_ifs at h with hres
      · obtain ⟨rnd', hmem, hrest⟩ := generateRelayInit_draw h
        exact ⟨rnd', List.mem_cons_of_mem _ hmem, hrest⟩
      · refine ⟨rnd, List.mem_cons_self, by simpa using hres, ?_⟩
        unfold sealRelayInit at h
        cases hnew : Cipher.new (slice rnd skipLen (skipLen + prekeyLen))
            (slice rnd (skipLen + prekeyLen) (skipLen + prekeyLen + ivLen)) with
        | error e => simp [hnew, Except.map, bind, Except.bind] at h
        | ok encryptor =>
            cases hdc : leIntBytes 2 dcIdx with
            | none =>
                simp [hnew, hdc, Except.map, bind, Except.bind, throw, throwThe,
                  MonadExceptOf.throw] at h
            | some dcBytes =>
                simp only [hnew, hdc, Except.map, bind, Except.bind, pure, Except.pure,
                  Except.ok.injEq, Option.some.injEq] at h
                exact ⟨_, h.symm⟩

/-! ## The four ciphers -/

/-- `CryptoCtx`. -/
structure CryptoCtx where
  /-- decrypt from client -/
  cltDec : Cipher
  /-- encrypt to client -/
  cltEnc : Cipher
  /-- encrypt to telegram -/
  tgEnc : Cipher
  /-- decrypt from telegram -/
  tgDec : Cipher
  deriving DecidableEq, Repr

/-- `_build_crypto_ctx(client_dec_prekey_iv, secret, relay_init)`. -/
def buildCryptoCtx (clientDecPrekeyIv secret relayInit : Bytes) : Except String CryptoCtx := do
  let cltDecPrekey := clientDecPrekeyIv.take prekeyLen
  let cltDecIv := clientDecPrekeyIv.drop prekeyLen
  let cltDecKey := (sha256 (cltDecPrekey ++ secret)).1
  let cltEncPrekeyIv := clientDecPrekeyIv.reverse
  let cltEncKey := (sha256 (cltEncPrekeyIv.take prekeyLen ++ secret)).1
  let cltEncIv := cltEncPrekeyIv.drop prekeyLen
  let cltDecryptor ← Cipher.new cltDecKey cltDecIv
  let cltEncryptor ← Cipher.new cltEncKey cltEncIv
  -- fast-forward the client decryptor past the 64-byte init
  let cltDecryptor := (cltDecryptor.update E zero64).2
  -- relay side: raw key material, no secret
  let relayEncKey := slice relayInit skipLen (skipLen + prekeyLen)
  let relayEncIv := slice relayInit (skipLen + prekeyLen) (skipLen + prekeyLen + ivLen)
  let relayDecPrekeyIv := (slice relayInit skipLen (skipLen + prekeyLen + ivLen)).reverse
  let relayDecKey := relayDecPrekeyIv.take keyLen
  let relayDecIv := relayDecPrekeyIv.drop keyLen
  let tgEncryptor ← Cipher.new relayEncKey relayEncIv
  let tgDecryptor ← Cipher.new relayDecKey relayDecIv
  let tgEncryptor := (tgEncryptor.update E zero64).2
  return ⟨cltDecryptor, cltEncryptor, tgEncryptor, tgDecryptor⟩

/-- On key material of the handshake's lengths no constructor refuses, and the offsets are those
of a session just after both inits. -/
theorem buildCryptoCtx_ok {prekeyIv relayInit : Bytes} (secret : Bytes)
    (hp : prekeyIv.length = 48) (hr : 56 ≤ relayInit.length) :
    buildCryptoCtx sha256 E prekeyIv secret relayInit = .ok
      { cltDec := ⟨(sha256 (prekeyIv.take 32 ++ secret)).1, prekeyIv.drop 32, 64⟩
        cltEnc := ⟨(sha256 (prekeyIv.reverse.take 32 ++ secret)).1, prekeyIv.reverse.drop 32, 0⟩
        tgEnc := ⟨slice relayInit 8 40, slice relayInit 40 56, 64⟩
        tgDec := ⟨(slice relayInit 8 56).reverse.take 32, (slice relayInit 8 56).reverse.drop 32,
          0⟩ } := by
  have h1 := Cipher.new_ok (sha256 (prekeyIv.take 32 ++ secret)).2
    (show (prekeyIv.drop 32).length = 16 by simp [hp])
  have h2 := Cipher.new_ok (sha256 (prekeyIv.reverse.take 32 ++ secret)).2
    (show (prekeyIv.reverse.drop 32).length = 16 by simp [hp])
  have h3 := Cipher.new_ok (show (slice relayInit 8 40).length = 32 by simp; omega)
    (show (slice relayInit 40 56).length = 16 by simp; omega)
  have h4 := Cipher.new_ok
    (show ((slice relayInit 8 56).reverse.take 32).length = 32 by simp; omega)
    (show ((slice relayInit 8 56).reverse.drop 32).length = 16 by simp; omega)
  simp only [buildCryptoCtx, prekeyLen, skipLen, ivLen, keyLen, Nat.reduceAdd, h1, h2, h3, h4,
    bind, Except.bind, pure, Except.pure]
  rfl

end TgWsProxy
