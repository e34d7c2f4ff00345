import TgWsProxy.Core.Keystream

/-!
# Shared constants

The handshake layout, the transport tags and the reserved patterns of `proxy/utils.py`.
-/

namespace TgWsProxy

open Wire

/-- `ZERO_64`: the block that fast-forwards a cipher past an init. -/
def zero64 : Bytes := List.replicate 64 0

def handshakeLen : ℕ := 64
def skipLen : ℕ := 8
def prekeyLen : ℕ := 32
def keyLen : ℕ := 32
def ivLen : ℕ := 16
def protoTagPos : ℕ := 56
def dcIdxPos : ℕ := 60

def protoTagAbridged : Bytes := [0xef, 0xef, 0xef, 0xef]
def protoTagIntermediate : Bytes := [0xee, 0xee, 0xee, 0xee]
def protoTagSecure : Bytes := [0xdd, 0xdd, 0xdd, 0xdd]

def protoAbridgedInt : ℕ := 0xEFEFEFEF
def protoIntermediateInt : ℕ := 0xEEEEEEEE
def protoPaddedIntermediateInt : ℕ := 0xDDDDDDDD

def reservedFirstBytes : List UInt8 := [0xEF]

def reservedStarts : List Bytes :=
  [[0x48, 0x45, 0x41, 0x44], [0x50, 0x4F, 0x53, 0x54], [0x47, 0x45, 0x54, 0x20],
   [0xee, 0xee, 0xee, 0xee], [0xdd, 0xdd, 0xdd, 0xdd], [0x16, 0x03, 0x01, 0x02],
   [0x4F, 0x50, 0x54, 0x49]]

def reservedContinue : Bytes := [0, 0, 0, 0]

/-- A transport tag the proxy accepts. -/
def IsProtoTag (tag : Bytes) : Prop :=
  tag = protoTagAbridged ∨ tag = protoTagIntermediate ∨ tag = protoTagSecure

instance (tag : Bytes) : Decidable (IsProtoTag tag) := by
  unfold IsProtoTag; infer_instance

lemma IsProtoTag.length {tag : Bytes} (h : IsProtoTag tag) : tag.length = 4 := by
  rcases h with rfl | rfl | rfl <;> rfl

end TgWsProxy
