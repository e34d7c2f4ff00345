import TgWsProxy.H2.ReadPacket

/-!
# Framing replies

`_encode_reply` of `proxy/cf_h2.py` frames one HTTP reply for the native transport.

* `encodeReply` — the code; the padding it draws is an argument.
* `encodeReply_ok` — which bodies are framed.
-/

namespace TgWsProxy

open Wire

/-- `os.urandom(os.urandom(1)[0] % 4)`. -/
abbrev Padding := { bs : Bytes // bs.length < 4 }

/-- `_encode_reply(body, tag)`. -/
def encodeReply (body tag : Bytes) (padding : Padding) : Except String Bytes :=
  if body = [] ∨ body.length % 4 ≠ 0 ∨ maxPacket < body.length then
    .error s!"invalid HTTP MTProto response length: {body.length}"
  else if tag = protoTagAbridged then
    let words := body.length / 4
    .ok ((if words < 0x7f then [UInt8.ofNat words] else 0x7f :: leBytes 3 words) ++ body)
  else
    let padding := if tag = protoTagSecure then padding.1 else []
    .ok (leBytes 4 (body.length + padding.length) ++ body ++ padding)

/-- A body that can be framed. -/
def Encodable (body : Bytes) : Prop :=
  body ≠ [] ∧ body.length % 4 = 0 ∧ body.length ≤ maxPacket

/-- Exactly the non-empty aligned bodies up to the packet bound are framed. -/
theorem encodeReply_ok {body : Bytes} (tag : Bytes) (padding : Padding) :
    (∃ frame, encodeReply body tag padding = .ok frame) ↔ Encodable body := by
  unfold encodeReply Encodable
  by_cases h : body = [] ∨ body.length % 4 ≠ 0 ∨ maxPacket < body.length
  · rw [if_pos h]
    refine ⟨fun ⟨_, hf⟩ => (nomatch hf), fun ⟨h1, h2, h3⟩ => ?_⟩
    rcases h with h | h | h
    · exact absurd h h1
    · exact absurd h2 h
    · omega
  · rw [if_neg h]
    push Not at h
    refine iff_of_true ?_ ⟨h.1, h.2.1, h.2.2⟩
    split_ifs <;> exact ⟨_, rfl⟩

end TgWsProxy
