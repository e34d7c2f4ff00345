import TgWsProxy.Core.Bytes

/-!
# The reading side of a connection

* `StreamReader` — an asyncio stream, by what is still to come on it.
* `StreamReader.read`, `StreamReader.readexactly` — its two reads; the first returns what has
  arrived, the second waits for all that it was asked for.
* `StreamReader.readline` — a line.
-/

namespace TgWsProxy

open Wire

/-- An asyncio stream after which `wire` is still to come.  `ready k` says how many octets have
arrived, beyond the first, when `k` are still to come. -/
structure StreamReader where
  wire : Bytes
  ready : ℕ → ℕ

/-- `IncompleteReadError(partial, expected)`. -/
structure IncompleteRead where
  partialData : Bytes
  expected : ℕ
  deriving DecidableEq, Repr

/-- The limit of a stream's buffer. -/
def readerLimit : ℕ := 2 ^ 16

namespace StreamReader

/-- `read(n)`: what has arrived, at most `n` octets; nothing only for `n = 0` or at the end. -/
def read (n : ℕ) (r : StreamReader) : Bytes × StreamReader :=
  let count := min n (r.ready r.wire.length + 1)
  (r.wire.take count, { r with wire := r.wire.drop count })

/-- `readexactly(n)`: all or, at the end, an error that takes what there was. -/
def readexactly (n : ℕ) (r : StreamReader) : Except IncompleteRead Bytes × StreamReader :=
  if n ≤ r.wire.length then (.ok (r.wire.take n), { r with wire := r.wire.drop n })
  else (.error ⟨r.wire, n⟩, { r with wire := [] })

lemma readexactly_eq_ok {n : ℕ} {r r' : StreamReader} {a : Bytes}
    (h : r.readexactly n = (.ok a, r')) : r.wire = a ++ r'.wire ∧ a.length = n := by
  unfold readexactly at h
  split at h
  · obtain ⟨h1, rfl⟩ := Prod.mk.inj h
    obtain rfl := Except.ok.inj h1
    refine ⟨(List.take_append_drop n r.wire).symm, ?_⟩
    rwa [List.length_take, Nat.min_eq_left]
  · cases h

/-- `readline()`: up to the end of a line, or of the stream; it raises `ValueError` where that is
too far. -/
def readline (r : StreamReader) : Option (Bytes × StreamReader) :=
  let n := r.wire.findIdx (· = 10)
  if readerLimit < n then none
  else some (r.wire.take (n + 1), { r with wire := r.wire.drop (n + 1) })

/-- What is there is read, and the rest is left. -/
@[simp] lemma readexactly_append (a rest : Bytes) (ready : ℕ → ℕ) :
    readexactly a.length ⟨a ++ rest, ready⟩ = (.ok a, ⟨rest, ready⟩) := by
  simp [readexactly]

lemma readexactly_append_of_length {n : ℕ} {a : Bytes} (h : a.length = n) (rest : Bytes)
    (ready : ℕ → ℕ) : readexactly n ⟨a ++ rest, ready⟩ = (.ok a, ⟨rest, ready⟩) := by
  rw [← h, readexactly_append]

/-- A line that ends. -/
lemma readline_append {text : Bytes} (hlf : 10 ∉ text) (rest : Bytes) (ready : ℕ → ℕ) :
    readline ⟨text ++ 10 :: rest, ready⟩ =
      if readerLimit < text.length then none else some (text ++ [10], ⟨rest, ready⟩) := by
  have hidx : (text ++ 10 :: rest).findIdx (· = 10) = text.length := by
    rw [List.findIdx_append, List.findIdx_eq_length_of_false, if_neg (lt_irrefl _)]
    · simp [List.findIdx_cons]
    · intro b hb
      simpa using fun h : b = 10 => hlf (h ▸ hb)
  have htake : (text ++ 10 :: rest).take (text.length + 1) = text ++ [10] := by
    rw [List.take_append, List.take_of_length_le (by omega)]
    simp
  have hdrop : (text ++ 10 :: rest).drop (text.length + 1) = rest := by
    rw [List.drop_append, List.drop_of_length_le (by omega)]
    simp
  simp only [readline, hidx, htake, hdrop]

/-- The end of the stream. -/
lemma readline_of_not_mem {text : Bytes} (hlf : 10 ∉ text) (ready : ℕ → ℕ) :
    readline ⟨text, ready⟩ =
      if readerLimit < text.length then none else some (text, ⟨[], ready⟩) := by
  have hidx : text.findIdx (· = 10) = text.length := by
    refine List.findIdx_eq_length_of_false fun b hb => ?_
    simpa using fun h : b = 10 => hlf (h ▸ hb)
  have htake : text.take (text.length + 1) = text := List.take_of_length_le (by omega)
  have hdrop : text.drop (text.length + 1) = [] := List.drop_of_length_le (by omega)
  simp only [readline, hidx, htake, hdrop]

/-- What is read is one of the two. -/
lemma readline_eq_some {r r' : StreamReader} {line : Bytes} (h : r.readline = some (line, r')) :
    r'.ready = r.ready ∧
      ((∃ text, line = text ++ [10] ∧ 10 ∉ text ∧ text.length ≤ readerLimit ∧
          r.wire = text ++ 10 :: r'.wire) ∨
        10 ∉ line ∧ line.length ≤ readerLimit ∧ r.wire = line ∧ r'.wire = []) := by
  obtain ⟨wire, ready⟩ := r
  by_cases hlf : 10 ∈ wire
  · obtain ⟨text, rest, rfl, hnot⟩ := List.eq_append_cons_of_mem hlf
    rw [readline_append hnot] at h
    split_ifs at h with hlen
    cases h
    exact ⟨rfl, Or.inl ⟨text, rfl, hnot, not_lt.mp hlen, rfl⟩⟩
  · rw [readline_of_not_mem hlf] at h
    split_ifs at h with hlen
    cases h
    exact ⟨rfl, Or.inr ⟨hlf, not_lt.mp hlen, rfl, rfl⟩⟩

/-- A line that is not empty has been taken off the stream. -/
lemma readline_lt {r r' : StreamReader} {line : Bytes} (h : r.readline = some (line, r'))
    (hne : line ≠ []) : r'.wire.length < r.wire.length := by
  obtain ⟨-, ⟨text, -, -, -, hwire⟩ | ⟨-, -, hwire, hend⟩⟩ := readline_eq_some h
  · rw [hwire, List.length_append, List.length_cons]
    omega
  · rw [hwire, hend]
    exact List.length_pos_of_ne_nil hne

end StreamReader

end TgWsProxy
