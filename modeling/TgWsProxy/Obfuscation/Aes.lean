import TgWsProxy.Utils

/-!
# The AES-CTR shim

`proxy/_aes.py` offers exactly `Cipher(algorithms.AES(key),
modes.CTR(iv)).encryptor().update(data)`. The block cipher itself is a parameter: `E key iv n` is
octet `n` of the keystream that AES in counter mode produces, and the only thing assumed about it is
that it depends on nothing else. -/

namespace TgWsProxy

open Wire

/-- Octet `n` of the counter-mode keystream under a key and an iv. -/
abbrev AesKeystream := Bytes → Bytes → ℕ → UInt8

/-- The value of SHA-256: an octet string of the digest's length. -/
abbrev Digest := { bs : Bytes // bs.length = 32 }

/-- An encryptor object: the key material and the offset it has reached. -/
structure Cipher where
  key : Bytes
  iv : Bytes
  pos : ℕ
  deriving DecidableEq, Repr

/-- `Cipher(algorithms.AES(key), modes.CTR(iv)).encryptor()`.  Both constructors check lengths. -/
def Cipher.new (key iv : Bytes) : Except String Cipher :=
  if key.length = 16 ∨ key.length = 24 ∨ key.length = 32 then
    if iv.length = 16 then .ok ⟨key, iv, 0⟩ else .error "CTR IV must be 16 bytes"
  else .error "AES key must be 16/24/32 bytes"

lemma Cipher.new_ok {key iv : Bytes} (hk : key.length = 32) (hi : iv.length = 16) :
    Cipher.new key iv = .ok ⟨key, iv, 0⟩ := by
  simp [Cipher.new, hk, hi]

variable (E : AesKeystream)

/-- `update(data)`: the output, and the object with its offset moved on. -/
def Cipher.update (c : Cipher) (data : Bytes) : Bytes × Cipher :=
  (xorFrom (E c.key c.iv) c.pos data, { c with pos := c.pos + data.length })

/-- What the cipher would make of `data` from its present offset. -/
def Cipher.peek (c : Cipher) (data : Bytes) : Bytes := xorFrom (E c.key c.iv) c.pos data

@[simp] lemma Cipher.update_fst (c : Cipher) (data : Bytes) :
    (c.update E data).1 = c.peek E data := rfl

@[simp] lemma Cipher.length_peek (c : Cipher) (data : Bytes) :
    (c.peek E data).length = data.length := by simp [Cipher.peek]

/-- A cipher undoes a cipher of the same key material at the same offset. -/
@[simp] lemma Cipher.peek_peek (c : Cipher) (data : Bytes) :
    c.peek E (c.peek E data) = data := by simp [Cipher.peek]

lemma Cipher.peek_append (c : Cipher) (a b : Bytes) :
    c.peek E (a ++ b) = c.peek E a ++ (c.update E a).2.peek E b := by
  simp [Cipher.peek, Cipher.update, xorFrom_append]

lemma Cipher.update_append (c : Cipher) (a b : Bytes) :
    (c.update E (a ++ b)).2 = ((c.update E a).2.update E b).2 := by
  simp [Cipher.update, Nat.add_assoc]

lemma Cipher.peek_prefix (c : Cipher) {a b : Bytes} (h : a <+: b) : c.peek E a <+: c.peek E b := by
  obtain ⟨rest, rfl⟩ := h
  rw [Cipher.peek_append]
  exact List.prefix_append _ _

@[simp] lemma Cipher.peek_nil (c : Cipher) : c.peek E [] = [] := rfl

end TgWsProxy
