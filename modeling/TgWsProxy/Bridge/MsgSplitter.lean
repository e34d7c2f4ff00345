import TgWsProxy.Core.Framing
import TgWsProxy.Utils

/-!
# Cutting the client stream into transport packets

`MsgSplitter` of `proxy/bridge.py` reads packet headers in the plaintext and cuts the ciphertext at
the same places, so that each packet can travel as one WebSocket message.  It is fed chunk by chunk,
keeps what is incomplete in two parallel buffers, and gives up for good at a header that announces
no payload.

* `MsgSplitter.split`, `MsgSplitter.flush`, `nextPacketLen` — the code.
* `Header`, `IsPacket`, `Greedy` — what a packet is and how a stream falls into packets, with no
  reference to buffers or offsets.
* `packetFramer` — `nextPacketLen` at the start of a buffer, as a `Framer`; `next_eq_succ_iff` and
  `next_eq_zero_iff` connect it to `IsPacket` and `ZeroHeader`.
* `Fed` — the invariant: what the buffers hold and what has been emitted, after any chunks.
* **`split_lossless`** — nothing is lost, and the packets come out whole, in order, and from the
  call that completes them.
-/

namespace TgWsProxy

open Wire

/-! ## The code -/

/-- `MsgSplitter`. -/
structure MsgSplitter where
  proto : ℕ
  cipherBuf : Bytes
  plainBuf : Bytes
  disabled : Bool
  deriving DecidableEq, Repr

/-- `MsgSplitter(proto_int)`. -/
def MsgSplitter.new (proto : ℕ) : MsgSplitter := ⟨proto, [], [], false⟩

/-- `_next_abridged_len(offset, avail)`. -/
def nextAbridgedLen (plain : Bytes) (offset avail : ℕ) : Option ℕ :=
  let first := plain.getD offset 0
  if first = 0x7F ∨ first = 0xFF then
    if avail < 4 then none
    else
      let payloadLen := leNat (slice plain (offset + 1) (offset + 4)) * 4
      if payloadLen = 0 then some 0
      else if avail < 4 + payloadLen then none
      else some (4 + payloadLen)
  else
    let payloadLen := (first &&& 0x7F).toNat * 4
    if payloadLen = 0 then some 0
    else if avail < 1 + payloadLen then none
    else some (1 + payloadLen)

/-- `_next_intermediate_len(offset, avail)`. -/
def nextIntermediateLen (plain : Bytes) (offset avail : ℕ) : Option ℕ :=
  if avail < 4 then none
  else
    let payloadLen := leNat (slice plain offset (offset + 4)) &&& 0x7FFFFFFF
    if payloadLen = 0 then some 0
    else if avail < 4 + payloadLen then none
    else some (4 + payloadLen)

/-- `_next_packet_len(offset, avail)`. -/
def nextPacketLen (proto : ℕ) (plain : Bytes) (offset avail : ℕ) : Option ℕ :=
  if avail = 0 then none
  else if proto = protoAbridgedInt then nextAbridgedLen plain offset avail
  else if proto = protoIntermediateInt ∨ proto = protoPaddedIntermediateInt then
    nextIntermediateLen plain offset avail
  else some 0

/-- The loop of `split` from `offset` on: the parts it appends, the offset it stops at and whether
it disables the splitter. -/
def splitLoop (proto : ℕ) (cipher plain : Bytes) (offset : ℕ) : List Bytes × ℕ × Bool :=
  if offset < cipher.length then
    match nextPacketLen proto plain offset (cipher.length - offset) with
    | none => ([], offset, false)
    | some 0 => ([cipher.drop offset], cipher.length, true)
    | some (n + 1) =>
        let (parts, stop, disable) := splitLoop proto cipher plain (offset + (n + 1))
        (slice cipher offset (offset + (n + 1)) :: parts, stop, disable)
  else ([], offset, false)
termination_by cipher.length - offset

/-- `split(chunk, plain)`. -/
def MsgSplitter.split (s : MsgSplitter) (chunk plain : Bytes) : List Bytes × MsgSplitter :=
  if chunk = [] then ([], s)
  else if s.disabled then ([chunk], s)
  else
    let cipher := s.cipherBuf ++ chunk
    let plain := s.plainBuf ++ plain
    let (parts, offset, disable) := splitLoop s.proto cipher plain 0
    (parts, { s with
      cipherBuf := cipher.drop offset
      plainBuf := plain.drop offset
      disabled := disable })

/-- `flush()`. -/
def MsgSplitter.flush (s : MsgSplitter) : List Bytes × MsgSplitter :=
  if s.cipherBuf = [] then ([], s)
  else ([s.cipherBuf], { s with cipherBuf := [], plainBuf := [] })

/-- The parts returned by successive calls of `split`, one list for each call, and the splitter
after them. -/
def MsgSplitter.splitAll : MsgSplitter → List (Bytes × Bytes) → List (List Bytes) × MsgSplitter
  | s, [] => ([], s)
  | s, x :: xs =>
      let (parts, s') := s.split x.1 x.2
      let (outs, s'') := s'.splitAll xs
      (parts :: outs, s'')

/-! ## Packets -/

/-- The transport protocols a splitter is made for. -/
def IsProto (proto : ℕ) : Prop :=
  proto = protoAbridgedInt ∨ proto = protoIntermediateInt ∨ proto = protoPaddedIntermediateInt

/-- `Header proto h n`: the octets `h` are a header announcing `n` octets of payload.  The top bit
of the length, a request for a quick acknowledgement, does not count. -/
inductive Header : ℕ → Bytes → ℕ → Prop
  | short (b : UInt8) (hb : b.toNat % 128 ≠ 127) :
      Header protoAbridgedInt [b] (b.toNat % 128 * 4)
  | extended (b : UInt8) (w : Bytes) (hb : b.toNat % 128 = 127) (hw : w.length = 3) :
      Header protoAbridgedInt (b :: w) (leNat w * 4)
  | intermediate (w : Bytes) (hw : w.length = 4) :
      Header protoIntermediateInt w (leNat w % 2 ^ 31)
  | padded (w : Bytes) (hw : w.length = 4) :
      Header protoPaddedIntermediateInt w (leNat w % 2 ^ 31)

/-- A complete packet: a header and as many octets as it announces. -/
def IsPacket (proto : ℕ) (q : Bytes) : Prop :=
  ∃ h body, Header proto h body.length ∧ 0 < body.length ∧ q = h ++ body

/-- The stream goes on with a header that announces nothing. -/
def ZeroHeader (proto : ℕ) (s : Bytes) : Prop := ∃ h, Header proto h 0 ∧ h <+: s

/-- The greedy parse: `s` is the packets `pkts` and a rest that starts no complete packet. -/
structure Greedy (proto : ℕ) (s : Bytes) (pkts : List Bytes) (rest : Bytes) : Prop where
  eq : s = pkts.flatten ++ rest
  packets : ∀ q ∈ pkts, IsPacket proto q
  stuck : ¬ ∃ q, IsPacket proto q ∧ q <+: rest

/-! ## The next packet, from the start of the buffer -/

/-- `nextPacketLen` at an offset sees only what lies beyond it. -/
lemma nextPacketLen_drop (proto : ℕ) (plain : Bytes) (offset avail : ℕ) :
    nextPacketLen proto plain offset avail = nextPacketLen proto (plain.drop offset) 0 avail := by
  have h1 : (plain.drop offset).getD 0 0 = plain.getD offset 0 := by
    simp [List.getD_eq_getElem?_getD]
  have h2 : ∀ a b, slice (plain.drop offset) a b = slice plain (offset + a) (offset + b) := by
    intro a b
    simp [slice, List.take_drop, List.drop_drop]
  simp only [nextPacketLen, nextAbridgedLen, nextIntermediateLen, h1, h2,
      Nat.add_zero, Nat.zero_add]

lemma first_escape_iff (b : UInt8) : (b = 0x7F ∨ b = 0xFF) ↔ b.toNat % 128 = 127 := by
  have hb := b.toNat_lt
  rw [← UInt8.toNat_inj, ← UInt8.toNat_inj]
  change b.toNat = 127 ∨ b.toNat = 255 ↔ _
  omega

lemma low_7_bits (n : ℕ) : n &&& 127 = n % 128 := Nat.and_two_pow_sub_one_eq_mod n 7

lemma low_31_bits (n : ℕ) : n &&& 0x7FFFFFFF = n % 2 ^ 31 :=
  Nat.and_two_pow_sub_one_eq_mod n 31

/-- A decision on a header that announces `n` octets after `k` octets of header. -/
def decideLen (k n avail : ℕ) : Option ℕ :=
  if n = 0 then some 0 else if avail < k + n then none else some (k + n)

/-- **What `nextPacketLen` decides.**  With a whole header at hand the decision is `decideLen` of
what it announces; with less there is none. -/
theorem nextPacketLen_header {proto : ℕ} {h : Bytes} {n : ℕ} (hh : Header proto h n) (t : Bytes) :
    nextPacketLen proto (h ++ t) 0 (h ++ t).length = decideLen h.length n (h ++ t).length := by
  cases hh with
  | short b hb =>
      have hesc : ¬ (b = 0x7F ∨ b = 0xFF) := fun h => hb ((first_escape_iff b).mp h)
      simp [nextPacketLen, nextAbridgedLen, decideLen, hesc, low_7_bits, protoAbridgedInt]
  | extended b w hb hw =>
      have hesc : b = 0x7F ∨ b = 0xFF := (first_escape_iff b).mpr hb
      have hs : slice (b :: (w ++ t)) 1 4 = w := by
        have htake : (w ++ t).take 3 = w := by rw [← hw]; simp
        simp [slice, htake]
      simp [nextPacketLen, nextAbridgedLen, decideLen, hesc, hs, hw, protoAbridgedInt]
  | intermediate _ hw | padded _ hw =>
      have hs : slice (h ++ t) 0 4 = h := by
        rw [← hw]; simp [slice]
      simp [nextPacketLen, nextIntermediateLen, decideLen, hs, hw, low_31_bits,
        protoAbridgedInt, protoIntermediateInt, protoPaddedIntermediateInt]

/-- Either a stream starts with a whole header or nothing is decided. -/
theorem header_or_undecided {proto : ℕ} (hproto : IsProto proto) (s : Bytes) :
    (∃ h n t, Header proto h n ∧ s = h ++ t) ∨ nextPacketLen proto s 0 s.length = none := by
  rcases hproto with rfl | rfl | rfl
  · cases s with
    | nil => exact Or.inr rfl
    | cons b t =>
        by_cases hb : b.toNat % 128 = 127
        · by_cases h3 : t.length < 3
          · have hesc : b = 0x7F ∨ b = 0xFF := (first_escape_iff b).mpr hb
            right
            simp [nextPacketLen, nextAbridgedLen, hesc, h3]
          · exact Or.inl ⟨_, _, t.drop 3, .extended b (t.take 3) hb (by simp; omega), by simp⟩
        · exact Or.inl ⟨_, _, t, .short b hb, rfl⟩
  all_goals
    by_cases h4 : s.length < 4
    · right
      simp [nextPacketLen, nextIntermediateLen, h4, protoAbridgedInt, protoIntermediateInt,
        protoPaddedIntermediateInt]
  · exact Or.inl ⟨_, _, s.drop 4, .intermediate (s.take 4) (by simp; omega), by simp⟩
  · exact Or.inl ⟨_, _, s.drop 4, .padded (s.take 4) (by simp; omega), by simp⟩

lemma decideLen_le {k n avail m : ℕ} (hk : k ≤ avail) (h : decideLen k n avail = some m) :
    m ≤ avail := by
  unfold decideLen at h
  split_ifs at h <;> simp at h <;> omega

lemma decideLen_mono {k n avail avail' m : ℕ} (hle : avail ≤ avail')
    (h : decideLen k n avail = some m) : decideLen k n avail' = some m := by
  unfold decideLen at h ⊢
  split_ifs at h ⊢ with h0 h1 h2 <;> first | exact h | omega

/-- `_next_packet_len` at the start of the buffer. -/
def packetFramer (proto : ℕ) (hproto : IsProto proto) : Framer UInt8 where
  next s := nextPacketLen proto s 0 s.length
  next_le := by
    intro s n h
    rcases header_or_undecided hproto s with ⟨hd, m, t, hh, rfl⟩ | hnone
    · rw [nextPacketLen_header hh] at h
      exact decideLen_le (by simp) h
    · simp [hnone] at h
  next_append := by
    intro s n t h
    rcases header_or_undecided hproto s with ⟨hd, m, t', hh, rfl⟩ | hnone
    · rw [nextPacketLen_header hh] at h
      rw [List.append_assoc, nextPacketLen_header hh]
      exact decideLen_mono (by simp) h
    · simp [hnone] at h

/-- **A decided length is a packet at the start of the stream.** -/
theorem next_eq_succ_iff {proto : ℕ} (hproto : IsProto proto) (s : Bytes) (n : ℕ) :
    (packetFramer proto hproto).next s = some (n + 1) ↔
      ∃ q, IsPacket proto q ∧ q <+: s ∧ q.length = n + 1 := by
  constructor
  · intro h
    change nextPacketLen proto s 0 s.length = some (n + 1) at h
    rcases header_or_undecided hproto s with ⟨hd, m, t, hh, rfl⟩ | hnone
    · rw [nextPacketLen_header hh, decideLen] at h
      split_ifs at h with h0 hlt
      · simp at h
      · have hsum : hd.length + m = n + 1 := Option.some.inj h
        have hm : m ≤ t.length := by simpa using hlt
        refine ⟨hd ++ t.take m, ⟨hd, t.take m, ?_, ?_, rfl⟩, ?_, ?_⟩
        · rwa [List.length_take, Nat.min_eq_left hm]
        · rw [List.length_take]; omega
        · exact (List.prefix_append_right_inj hd).mpr (List.take_prefix m t)
        · rw [List.length_append, List.length_take]; omega
    · simp [hnone] at h
  · rintro ⟨q, ⟨hd, body, hh, hpos, rfl⟩, ⟨t, rfl⟩, hlen⟩
    change nextPacketLen proto _ 0 _ = some (n + 1)
    rw [List.length_append] at hlen
    rw [List.append_assoc, nextPacketLen_header hh, decideLen, if_neg (by omega),
      if_neg (by simp), hlen]

/-- **A decided zero is a header that announces nothing.** -/
theorem next_eq_zero_iff {proto : ℕ} (hproto : IsProto proto) (s : Bytes) :
    (packetFramer proto hproto).next s = some 0 ↔ ZeroHeader proto s := by
  constructor
  · intro h
    change nextPacketLen proto s 0 s.length = some 0 at h
    rcases header_or_undecided hproto s with ⟨hd, m, t, hh, rfl⟩ | hnone
    · rw [nextPacketLen_header hh, decideLen] at h
      split_ifs at h with h0 hlt
      · exact ⟨hd, h0 ▸ hh, List.prefix_append hd t⟩
      · have hz : hd.length + m = 0 := Option.some.inj h
        omega
    · simp [hnone] at h
  · rintro ⟨hd, hh, t, rfl⟩
    change nextPacketLen proto _ 0 _ = some 0
    rw [nextPacketLen_header hh, decideLen, if_pos rfl]

/-- The first packet of a stream determines the first frame. -/
lemma next_packet_append {proto : ℕ} (hproto : IsProto proto) {q : Bytes} (hq : IsPacket proto q)
    (t : Bytes) : (packetFramer proto hproto).next (q ++ t) = some q.length := by
  have hpos : 0 < q.length := by
    obtain ⟨hd, body, -, hbody, rfl⟩ := hq
    rw [List.length_append]; omega
  obtain ⟨n, hn⟩ : ∃ n, q.length = n + 1 := ⟨q.length - 1, by omega⟩
  rw [hn]
  exact (next_eq_succ_iff hproto _ n).mpr ⟨q, hq, List.prefix_append q t, hn⟩

/-! ## The greedy parse -/

/-- The greedy parse is the framer's, and so it is unique. -/
theorem Greedy.lengths_eq {proto : ℕ} (hproto : IsProto proto) {s rest : Bytes}
    {pkts : List Bytes} (h : Greedy proto s pkts rest) :
    (packetFramer proto hproto).lengths s = pkts.map List.length ∧
      (packetFramer proto hproto).rest s = rest := by
  obtain ⟨rfl, hpkts, hstuck⟩ := h
  induction pkts with
  | nil =>
      have hnil : (packetFramer proto hproto).lengths rest = [] := by
        match hn : (packetFramer proto hproto).next rest with
        | none => exact Framer.lengths_of_none hn
        | some 0 => exact Framer.lengths_of_zero hn
        | some (n + 1) =>
            obtain ⟨q, hq, hpre, -⟩ := (next_eq_succ_iff hproto _ _).mp hn
            exact absurd ⟨q, hq, hpre⟩ hstuck
      simp [Framer.rest, hnil]
  | cons q pkts ih =>
      have hnext := next_packet_append hproto (hpkts q List.mem_cons_self) (pkts.flatten ++ rest)
      obtain ⟨ihl, ihr⟩ := ih fun p hp => hpkts p (List.mem_cons_of_mem _ hp)
      rw [List.flatten_cons, List.append_assoc]
      cases hq : q.length with
      | zero =>
          rw [hq, next_eq_zero_iff hproto] at hnext
          obtain rfl : q = [] := List.length_eq_zero_iff.mp hq
          obtain ⟨hd, body, -, hbody, heq⟩ := hpkts [] List.mem_cons_self
          have hlen := congrArg List.length heq
          rw [List.length_append, List.length_nil] at hlen
          omega
      | succ n =>
          rw [hq] at hnext
          have hdrop : (q ++ (pkts.flatten ++ rest)).drop (n + 1) = pkts.flatten ++ rest := by
            rw [← hq, List.drop_left]
          rw [Framer.lengths_of_succ hnext, Framer.rest_of_succ hnext, hdrop, ihl, ihr,
            List.map_cons, hq]
          exact ⟨rfl, rfl⟩

/-- Every stream has a greedy parse. -/
theorem Greedy.exists {proto : ℕ} (hproto : IsProto proto) (s : Bytes) :
    ∃ pkts rest, Greedy proto s pkts rest := by
  induction s using Framer.parse_induction (F := packetFramer proto hproto) with
  | stop s h =>
      refine ⟨[], s, rfl, by simp, ?_⟩
      rintro ⟨q, hq, t, rfl⟩
      have hpos : q.length ≠ 0 := by
        obtain ⟨hd, body, -, hbody, rfl⟩ := hq
        rw [List.length_append]; omega
      simp [next_packet_append hproto hq t, hpos] at h
  | frame s n h ih =>
      obtain ⟨q, hq, ⟨t, rfl⟩, hlen⟩ := (next_eq_succ_iff hproto s n).mp h
      obtain ⟨pkts, rest, heq, hpkts, hstuck⟩ := ih
      rw [← hlen, List.drop_left] at heq
      refine ⟨q :: pkts, rest, by rw [heq, List.flatten_cons, List.append_assoc], ?_, hstuck⟩
      intro p hp
      rcases List.mem_cons.mp hp with rfl | hp
      · exact hq
      · exact hpkts p hp

/-! ## The loop of one call -/

/-- **What the loop does.**  It emits the frames of the plaintext beyond `offset`, cut out of the
ciphertext; and if the parse halts there, all that is left as well. -/
theorem splitLoop_spec {proto : ℕ} (hproto : IsProto proto) {cipher plain : Bytes}
    (hlen : plain.length = cipher.length) {offset : ℕ} (hoff : offset ≤ cipher.length) :
    let F := packetFramer proto hproto
    let ns := F.lengths (plain.drop offset)
    (F.Halted (plain.drop offset) → splitLoop proto cipher plain offset
      = (cut ns (cipher.drop offset) ++ [cipher.drop (offset + ns.sum)], cipher.length, true)) ∧
    (¬ F.Halted (plain.drop offset) → splitLoop proto cipher plain offset
      = (cut ns (cipher.drop offset), offset + ns.sum, false)) := by
  intro F ns
  have hnext : F.next (plain.drop offset)
      = nextPacketLen proto plain offset (cipher.length - offset) := by
    change nextPacketLen proto (plain.drop offset) 0 (plain.drop offset).length = _
    rw [nextPacketLen_drop proto plain offset, List.length_drop, hlen]
  rw [splitLoop]
  by_cases hlt : offset < cipher.length
  · rw [if_pos hlt]
    match hn : F.next (plain.drop offset) with
    | none =>
        have hns : ns = [] := Framer.lengths_of_none hn
        have hhalt : ¬ F.Halted (plain.drop offset) := by
          simp [Framer.Halted, Framer.rest, Framer.lengths_of_none hn, hn]
        simp [← hnext, hn, hns, hhalt, cut]
    | some 0 =>
        have hns : ns = [] := Framer.lengths_of_zero hn
        have hhalt : F.Halted (plain.drop offset) := by
          simp [Framer.Halted, Framer.rest, Framer.lengths_of_zero hn, hn]
        simp [← hnext, hn, hns, hhalt, cut]
    | some (n + 1) =>
        have hle := F.next_le hn
        rw [List.length_drop, hlen] at hle
        have ih := splitLoop_spec hproto hlen (show offset + (n + 1) ≤ cipher.length by omega)
        have hns : ns = (n + 1) :: F.lengths (plain.drop (offset + (n + 1))) := by
          rw [← List.drop_drop]; exact Framer.lengths_of_succ hn
        have hhalt : F.Halted (plain.drop offset) ↔ F.Halted (plain.drop (offset + (n + 1))) := by
          rw [Framer.Halted, Framer.Halted, Framer.rest_of_succ hn, List.drop_drop]
        have hslice : slice cipher offset (offset + (n + 1)) =
            (cipher.drop offset).take (n + 1) := by
          simp [slice, List.take_drop]
        rw [← hnext, hn, hhalt, hns]
        simp only [cut, List.sum_cons, List.drop_drop, ← Nat.add_assoc, List.cons_append]
        simp only [← Nat.add_assoc] at ih hslice
        constructor
        · intro h
          rw [ih.1 h]
          simp only [hslice]
          rfl
        · intro h
          rw [ih.2 h]
          simp only [hslice]
          rfl
  · rw [if_neg hlt]
    have hnil : plain.drop offset = [] := List.drop_of_length_le (by omega)
    have hn : F.next (plain.drop offset) = none := by rw [hnil]; rfl
    have hns : ns = [] := Framer.lengths_of_none hn
    have hhalt : ¬ F.Halted (plain.drop offset) := by
      simp [Framer.Halted, Framer.rest, Framer.lengths_of_none hn, hn]
    simp [hns, hhalt, cut]
termination_by cipher.length - offset

/-! ## The invariant of a fed splitter -/

/-- A splitter of protocol `proto` that was fed the ciphertext `c` and the plaintext `p`, in chunks,
and returned `outs`, one list of parts for each chunk. -/
structure Fed {proto : ℕ} (hproto : IsProto proto) (s : MsgSplitter) (outs : List (List Bytes))
    (c p : Bytes) : Prop where
  proto_eq : s.proto = proto
  length_eq : p.length = c.length
  buffers : s.plainBuf.length = s.cipherBuf.length
  lossless : outs.flatten.flatten ++ s.cipherBuf = c
  running : s.disabled = false → s.plainBuf = (packetFramer proto hproto).rest p ∧
    ¬ (packetFramer proto hproto).Halted p ∧
    outs.flatten = cut ((packetFramer proto hproto).lengths p) c
  stopped : s.disabled = true → s.cipherBuf = [] ∧ (packetFramer proto hproto).Halted p ∧
    ∃ tail, outs.flatten = cut ((packetFramer proto hproto).lengths p) c ++ tail

lemma Fed.new {proto : ℕ} (hproto : IsProto proto) :
    Fed hproto (MsgSplitter.new proto) [] [] [] := by
  have hn : (packetFramer proto hproto).next [] = none := rfl
  have hl : (packetFramer proto hproto).lengths [] = [] := Framer.lengths_of_none hn
  refine ⟨rfl, rfl, rfl, rfl, fun _ => ⟨?_, ?_, ?_⟩, fun h => Bool.noConfusion h⟩
  · simp [MsgSplitter.new, Framer.rest]
  · simp [Framer.Halted, Framer.rest, hn]
  · simp [hl, cut]

/-- A running splitter holds the ciphertext of the incomplete packet. -/
lemma Fed.cipherBuf_eq {proto : ℕ} {hproto : IsProto proto} {s : MsgSplitter}
    {outs : List (List Bytes)} {c p : Bytes} (h : Fed hproto s outs c p)
    (hrun : s.disabled = false) :
    s.cipherBuf = c.drop ((packetFramer proto hproto).lengths p).sum := by
  have hc := h.lossless
  rw [(h.running hrun).2.2, flatten_cut] at hc
  exact List.append_cancel_left (hc.trans (List.take_append_drop _ c).symm)

/-- A call of a running splitter, with the invariant's names for what it reads: the frames of the
whole stream are those emitted so far and those of the buffer. -/
lemma Fed.running_append {proto : ℕ} {hproto : IsProto proto} {s : MsgSplitter}
    {outs : List (List Bytes)} {c p : Bytes} (h : Fed hproto s outs c p)
    (hrun : s.disabled = false) (chunk plain : Bytes) :
    let F := packetFramer proto hproto
    let ns := F.lengths (s.plainBuf ++ plain)
    cut (F.lengths (p ++ plain)) (c ++ chunk)
        = outs.flatten ++ cut ns (s.cipherBuf ++ chunk) ∧
      F.rest (p ++ plain) = (s.plainBuf ++ plain).drop ns.sum ∧
      (F.Halted (p ++ plain) ↔ F.Halted (s.plainBuf ++ plain)) := by
  intro F ns
  obtain ⟨hplain, -, houts⟩ := h.running hrun
  have hle : (F.lengths p).sum ≤ c.length := h.length_eq ▸ Framer.sum_lengths_le p
  have hrest : F.rest (p ++ plain) = F.rest (s.plainBuf ++ plain) := by
    rw [Framer.rest_append, ← hplain]
  refine ⟨?_, hrest, by rw [Framer.Halted, Framer.Halted, hrest]⟩
  rw [Framer.lengths_append, cut_append, cut_append_of_le chunk hle,
    List.drop_append_of_le_length hle, ← h.cipherBuf_eq hrun, ← hplain, houts]

/-- **One call keeps the invariant.** -/
theorem Fed.split {proto : ℕ} {hproto : IsProto proto} {s : MsgSplitter}
    {outs : List (List Bytes)} {c p : Bytes} (h : Fed hproto s outs c p) {chunk plain : Bytes}
    (hne : chunk ≠ []) (hlen : plain.length = chunk.length) :
    Fed hproto (s.split chunk plain).2 (outs ++ [(s.split chunk plain).1]) (c ++ chunk)
      (p ++ plain) := by
  have hlen' : (p ++ plain).length = (c ++ chunk).length := by simp [h.length_eq, hlen]
  cases hdis : s.disabled with
  | true =>
      -- a disabled splitter passes the chunk through; its buffers no longer change
      obtain ⟨hnil, hhalt, tail, htail⟩ := h.stopped hdis
      obtain ⟨hlens, hhalt'⟩ := hhalt.append plain
      have hle : ((packetFramer proto hproto).lengths p).sum ≤ c.length :=
        h.length_eq ▸ Framer.sum_lengths_le p
      have hsplit : s.split chunk plain = ([chunk], s) := by simp [MsgSplitter.split, hne, hdis]
      have hc : outs.flatten.flatten = c := by simpa [hnil] using h.lossless
      rw [hsplit]
      refine ⟨h.proto_eq, hlen', h.buffers, by simp [hnil, hc], by simp [hdis], fun _ => ?_⟩
      refine ⟨hnil, hhalt', tail ++ [chunk], ?_⟩
      rw [hlens, cut_append_of_le chunk hle, List.flatten_append, htail]
      simp
  | false =>
      obtain ⟨hcut, hrest, hhalt⟩ := h.running_append hdis chunk plain
      have hbuf : (s.plainBuf ++ plain).length = (s.cipherBuf ++ chunk).length := by
        simp [h.buffers, hlen]
      obtain ⟨hstop, hrun⟩ := splitLoop_spec hproto hbuf (Nat.zero_le _)
      have hloop : splitLoop s.proto = splitLoop proto := by rw [h.proto_eq]
      simp only [List.drop_zero, Nat.zero_add, ← hloop] at hstop hrun
      by_cases hh : (packetFramer proto hproto).Halted (s.plainBuf ++ plain)
      · have hsplit := hstop hh
        simp only [MsgSplitter.split, hne, hdis, hsplit, if_false, Bool.false_eq_true]
        refine ⟨h.proto_eq, hlen', ?_, ?_, by simp, fun _ => ⟨by simp, hhalt.mpr hh, ?_⟩⟩
        · simp only [List.length_drop, hbuf]
        · simp [flatten_cut, ← h.lossless]
        · refine ⟨[(s.cipherBuf ++ chunk).drop
            ((packetFramer proto hproto).lengths (s.plainBuf ++ plain)).sum], ?_⟩
          rw [hcut, List.flatten_append]
          simp
      · have hsplit := hrun hh
        simp only [MsgSplitter.split, hne, hdis, hsplit, if_false, Bool.false_eq_true]
        refine ⟨h.proto_eq, hlen', ?_, ?_, fun _ => ⟨hrest.symm, mt hhalt.mp hh, ?_⟩, by simp⟩
        · simp only [List.length_drop, hbuf]
        · simp [flatten_cut, ← h.lossless]
        · rw [hcut, List.flatten_append]; simp

/-- **Any number of calls keeps the invariant.** -/
theorem Fed.splitAll {proto : ℕ} {hproto : IsProto proto} {xs : List (Bytes × Bytes)}
    (hne : ∀ x ∈ xs, x.1 ≠ []) (hlen : ∀ x ∈ xs, x.2.length = x.1.length) :
    ∀ {s : MsgSplitter} {outs : List (List Bytes)} {c p : Bytes}, Fed hproto s outs c p →
      Fed hproto (s.splitAll xs).2 (outs ++ (s.splitAll xs).1) (c ++ (xs.map Prod.fst).flatten)
        (p ++ (xs.map Prod.snd).flatten) := by
  induction xs with
  | nil => intro s outs c p h; simpa [MsgSplitter.splitAll] using h
  | cons x xs ih =>
      intro s outs c p h
      have hx := h.split (hne x List.mem_cons_self) (hlen x List.mem_cons_self)
      have hxs := ih (fun y hy => hne y (List.mem_cons_of_mem _ hy))
        (fun y hy => hlen y (List.mem_cons_of_mem _ hy)) hx
      simpa [MsgSplitter.splitAll] using hxs

lemma splitAll_take (s : MsgSplitter) (xs : List (Bytes × Bytes)) (k : ℕ) :
    (s.splitAll (xs.take k)).1 = (s.splitAll xs).1.take k := by
  induction xs generalizing s k with
  | nil => simp [MsgSplitter.splitAll]
  | cons x xs ih =>
      cases k with
      | zero => simp [MsgSplitter.splitAll]
      | succ k => simp [MsgSplitter.splitAll, ih]

/-! ## Losslessness and independence of the cut -/

/-- **The splitter is lossless and does not depend on how the stream is cut.**  Feed a splitter of
one of the three protocols any chunks.

* All parts, followed by what `flush` returns, are the ciphertext; the buffers never differ in
  length.
* After any number `k` of calls, the parts returned are the packets of the greedy parse of the
  plaintext fed so far, cut out of the ciphertext.  More than that is returned only once the parse
  has met a header that announces nothing. -/
theorem split_lossless {proto : ℕ} (hproto : IsProto proto) (xs : List (Bytes × Bytes))
    (hne : ∀ x ∈ xs, x.1 ≠ []) (hlen : ∀ x ∈ xs, x.2.length = x.1.length) :
    let c := (xs.map Prod.fst).flatten
    let run := fun k => (MsgSplitter.new proto).splitAll (xs.take k)
    let final := (MsgSplitter.new proto).splitAll xs
    (final.1.flatten ++ final.2.flush.1).flatten = c ∧
    (∀ k, (run k).2.plainBuf.length = (run k).2.cipherBuf.length) ∧
    (∀ k, ∃ pkts rest, Greedy proto ((xs.take k).map Prod.snd).flatten pkts rest) ∧
    ∀ k pkts rest, Greedy proto ((xs.take k).map Prod.snd).flatten pkts rest →
      ∃ tail, (final.1.take k).flatten = cut (pkts.map List.length) c ++ tail ∧
        (tail ≠ [] → ZeroHeader proto rest) := by
  intro c run final
  have hfed : ∀ k, Fed hproto (run k).2 (run k).1 ((xs.take k).map Prod.fst).flatten
      ((xs.take k).map Prod.snd).flatten := by
    intro k
    have hne' : ∀ x ∈ xs.take k, x.1 ≠ [] := fun x hx => hne x (List.mem_of_mem_take hx)
    have h := Fed.splitAll hne' (fun x hx => hlen x (List.mem_of_mem_take hx)) (Fed.new hproto)
    simpa using h
  refine ⟨?_, fun k => (hfed k).buffers, fun k => Greedy.exists hproto _, ?_⟩
  · have h := (hfed xs.length).lossless
    simp only [run, List.take_length] at h
    rw [List.flatten_append]
    by_cases hnil : final.2.cipherBuf = []
    · rw [hnil] at h
      simpa [MsgSplitter.flush, hnil] using h
    · simpa [MsgSplitter.flush, hnil] using h
  · intro k pkts rest hg
    obtain ⟨hlens, hrest⟩ := hg.lengths_eq hproto
    have hc : c = ((xs.take k).map Prod.fst).flatten ++ ((xs.drop k).map Prod.fst).flatten := by
      rw [← List.flatten_append, ← List.map_append, List.take_append_drop]
    have hle : (pkts.map List.length).sum ≤ ((xs.take k).map Prod.fst).flatten.length := by
      rw [← hlens, ← (hfed k).length_eq]
      exact Framer.sum_lengths_le _
    rw [← splitAll_take, hc, cut_append_of_le _ hle, ← hlens]
    cases hdis : (run k).2.disabled with
    | true =>
        obtain ⟨-, hhalt, tail, htail⟩ := (hfed k).stopped hdis
        refine ⟨tail, htail, fun _ => (next_eq_zero_iff hproto rest).mp ?_⟩
        rw [← hrest]
        exact hhalt
    | false => exact ⟨[], by simpa using ((hfed k).running hdis).2.2, by simp⟩

/-- One abridged packet and the start of a second, in two chunks. -/
theorem split_lossless_sample :
    let xs : List (Bytes × Bytes) := [([9, 8, 7], [1, 0, 0]), ([6, 5, 4], [0, 0, 0x81])]
    let final := (MsgSplitter.new protoAbridgedInt).splitAll xs
    (final.1.flatten ++ final.2.flush.1).flatten = [9, 8, 7, 6, 5, 4] ∧
      ∀ k pkts rest, Greedy protoAbridgedInt ((xs.take k).map Prod.snd).flatten pkts rest →
        ∃ tail, (final.1.take k).flatten
            = cut (pkts.map List.length) (xs.map Prod.fst).flatten ++ tail ∧
          (tail ≠ [] → ZeroHeader protoAbridgedInt rest) := by
  have h := split_lossless (Or.inl rfl)
    [([9, 8, 7], [1, 0, 0]), ([6, 5, 4], [0, 0, 0x81])] (by decide) (by decide)
  exact ⟨h.1, h.2.2.2⟩

end TgWsProxy
