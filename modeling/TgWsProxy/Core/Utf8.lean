import TgWsProxy.Core.Bytes

/-!
# UTF-8 with replacement

Octets that should be UTF-8, read by a decoder that never fails.

* `Pending`, `Begun`, `beginOctet` — what an octet begins.
* `decodeUtf8` — the text; U+FFFD stands for each longest part of a character that breaks off, and
  for each octet that begins none.
* `decodeUtf8_append_of_ascii` — ASCII is itself.
-/

namespace Wire

/-- A character of which `owed` octets are to come, the next of them from `low` to `high`; `value`
is what the others are worth. -/
structure Pending where
  owed : ℕ
  value : ℕ
  low : ℕ
  high : ℕ

/-- What an octet begins. -/
inductive Begun
  | whole (c : Char)
  | pending (p : Pending)
  | invalid

/-- An octet where a character begins. -/
def beginOctet (b : UInt8) : Begun :=
  let n := b.toNat
  if n < 0x80 then .whole (Char.ofNat n)
  else if n < 0xc2 then .invalid
  else if n < 0xe0 then .pending ⟨1, n - 0xc0, 0x80, 0xbf⟩
  -- the ranges leave out what is too long, the surrogates, and what is beyond U+10FFFF
  else if n < 0xf0 then
    .pending ⟨2, n - 0xe0, if n = 0xe0 then 0xa0 else 0x80, if n = 0xed then 0x9f else 0xbf⟩
  else if n < 0xf5 then
    .pending ⟨3, n - 0xf0, if n = 0xf0 then 0x90 else 0x80, if n = 0xf4 then 0x8f else 0xbf⟩
  else .invalid

/-- U+FFFD. -/
def replacement : Char := Char.ofNat 0xfffd

/-- Decode what comes behind the first octets of a character, or at its beginning. -/
def decodeFrom : Option Pending → Bytes → List Char
  | none, [] => []
  | some _, [] => [replacement]
  | p?, b :: bs =>
      let start := fun before : List Char =>
        match beginOctet b with
        | .whole c => before ++ c :: decodeFrom none bs
        | .pending p => before ++ decodeFrom (some p) bs
        | .invalid => before ++ replacement :: decodeFrom none bs
      match p? with
      | none => start []
      | some p =>
          if p.low ≤ b.toNat ∧ b.toNat ≤ p.high then
            let value := p.value * 64 + (b.toNat - 0x80)
            if p.owed = 1 then Char.ofNat value :: decodeFrom none bs
            else decodeFrom (some ⟨p.owed - 1, value, 0x80, 0xbf⟩) bs
          else start [replacement]

/-- `bs.decode('utf-8', errors='replace')`. -/
def decodeUtf8 (bs : Bytes) : List Char := decodeFrom none bs

/-- ASCII is itself. -/
lemma decodeUtf8_append_of_ascii : ∀ {bs : Bytes}, (∀ b ∈ bs, b.toNat < 0x80) → ∀ later : Bytes,
    decodeUtf8 (bs ++ later) = bs.map (fun b => Char.ofNat b.toNat) ++ decodeUtf8 later
  | [], _, _ => rfl
  | b :: bs, h, later => by
      have hrest := decodeUtf8_append_of_ascii (fun c hc => h c (List.mem_cons_of_mem b hc)) later
      have hb : beginOctet b = .whole (Char.ofNat b.toNat) := if_pos (h b List.mem_cons_self)
      rw [decodeUtf8] at hrest ⊢
      rw [List.cons_append, decodeFrom, hb, List.map_cons, List.cons_append, ← hrest]
      rfl

example : decodeUtf8 [0x41, 0xe2, 0x82, 0xac, 0xf0, 0x9f, 0x28, 0xed, 0xa0, 0xc3] =
    ['A', '€', replacement, '(', replacement, replacement, replacement] := by decide

end Wire
