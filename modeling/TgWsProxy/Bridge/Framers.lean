import TgWsProxy.Bridge.MsgSplitter
import TgWsProxy.H2.ReadPacket

/-!
# The two native framers agree

A client session may go over a WebSocket, cut by `MsgSplitter`, or over HTTP/2, cut by
`_read_packet`.  Both cut it at the same places.

* `protoInt` — the protocol a splitter is made for, from the transport tag.
* `ReadsTo` — repeated calls of `_read_packet` up to the end of the stream.
* `isPacket_of_nativeHeader` — what one of them takes is a packet to the other.
* **`framers_agree`** — the parts of a splitter are the frames that were read.
-/

namespace TgWsProxy

open Wire

variable {E : AesKeystream}

/-! ## The two sides -/

/-- The choice of `proto_int` in `_handle_client`. -/
def protoInt (tag : Bytes) : ℕ :=
  if tag = protoTagAbridged then protoAbridgedInt
  else if tag = protoTagIntermediate then protoIntermediateInt
  else protoPaddedIntermediateInt

lemma isProto_protoInt (tag : Bytes) : IsProto (protoInt tag) := by
  unfold protoInt IsProto
  split_ifs <;> simp

/-- Repeated calls of `_read_packet` succeed until the stream is exhausted, and consume as many
octets as `counts` says. -/
inductive ReadsTo (E : AesKeystream) (tag : Bytes) : Reader → List ℕ → Prop
  | done (r : Reader) (h : r.wire = []) : ReadsTo E tag r []
  | packet (r r' : Reader) (m : Bytes) (quick : Bool) (counts : List ℕ)
      (h : readPacket E tag r = (.ok (m, quick), r')) (hrest : ReadsTo E tag r' counts) :
      ReadsTo E tag r ((r.wire.length - r'.wire.length) :: counts)

/-! ## One packet -/

/-- A header that `_read_packet` understands announces the same to a splitter. -/
lemma header_of_nativeHeader {tag h : Bytes} {n : ℕ} {quick : Bool} (htag : IsProtoTag tag)
    (hh : NativeHeader tag n quick h) : Header (protoInt tag) h n := by
  cases hh with
  | short words _ hw =>
      have hb : (UInt8.ofNat (words + quick.toNat * 128)).toNat % 128 = words := by
        cases quick <;> simp <;> omega
      have hshort := Header.short (UInt8.ofNat (words + quick.toNat * 128)) (by omega)
      rwa [hb] at hshort
  | extended words _ hw =>
      have hb : (UInt8.ofNat (127 + quick.toNat * 128)).toNat % 128 = 127 := by
        cases quick <;> rfl
      have hext := Header.extended _ (leBytes 3 words) hb (length_leBytes 3 words)
      rwa [leNat_leBytes_of_lt (hw.trans_eq (by norm_num))] at hext
  | word _ n _ hne hn =>
      have hval : leNat (leBytes 4 (n + quick.toNat * 2 ^ 31)) % 2 ^ 31 = n := by
        rw [leNat_leBytes_of_lt (by cases quick <;> simp <;> omega), Nat.add_mul_mod_self_right,
          Nat.mod_eq_of_lt hn]
      rcases htag with rfl | rfl | rfl
      · exact absurd rfl hne
      · have hword := Header.intermediate (leBytes 4 (n + quick.toNat * 2 ^ 31))
          (length_leBytes 4 _)
        rwa [hval] at hword
      · have hword := Header.padded (leBytes 4 (n + quick.toNat * 2 ^ 31)) (length_leBytes 4 _)
        rwa [hval] at hword

/-- What a call of `_read_packet` takes off the stream is one packet. -/
lemma isPacket_of_readPacket {tag m : Bytes} {quick : Bool} {r r' : Reader}
    (htag : IsProtoTag tag) (h : readPacket E tag r = (.ok (m, quick), r')) :
    ∃ q, IsPacket (protoInt tag) q ∧ r.plain E = q ++ r'.plain E := by
  obtain ⟨hd, n, payload, hhd, hlen, hr, hpre, -, hmin, -⟩ := readPacket_eq_ok h
  have hpos : 24 ≤ payload.length := hmin.trans hpre.length_le
  exact ⟨hd ++ payload, ⟨hd, payload, hlen ▸ header_of_nativeHeader htag hhd, by omega, rfl⟩, hr⟩

/-! ## A whole stream -/

/-- The frames that are read are a greedy parse of the stream. -/
theorem greedy_of_readsTo {tag : Bytes} {r : Reader} {counts : List ℕ} (htag : IsProtoTag tag)
    (h : ReadsTo E tag r counts) :
    ∃ pkts, Greedy (protoInt tag) (r.plain E) pkts [] ∧ pkts.map List.length = counts := by
  have hstuck : ¬ ∃ q, IsPacket (protoInt tag) q ∧ q <+: [] := by
    rintro ⟨q, ⟨hd, body, -, hpos, rfl⟩, hq⟩
    have hnil := congrArg List.length (List.prefix_nil.mp hq)
    rw [List.length_append, List.length_nil] at hnil
    omega
  induction h with
  | done r h =>
      refine ⟨[], ⟨?_, fun _ hq => absurd hq List.not_mem_nil, hstuck⟩, rfl⟩
      rw [Reader.plain, h]
      rfl
  | packet r r' m quick counts h hrest ih =>
      obtain ⟨pkts, hg, hlens⟩ := ih
      obtain ⟨q, hq, hr⟩ := isPacket_of_readPacket htag h
      refine ⟨q :: pkts, ⟨?_, ?_, hstuck⟩, ?_⟩
      · rw [hr, hg.eq, List.append_nil, List.append_nil, List.flatten_cons]
      · intro p hp
        rcases List.mem_cons.mp hp with rfl | hp
        · exact hq
        · exact hg.packets p hp
      · have hlen := congrArg List.length hr
        rw [List.length_append, Reader.length_plain, Reader.length_plain] at hlen
        rw [List.map_cons, hlens, hlen, Nat.add_sub_cancel]

/-- A call with an empty chunk changes nothing. -/
lemma Fed.split_nil {proto : ℕ} {hproto : IsProto proto} {s : MsgSplitter}
    {outs : List (List Bytes)} {c p : Bytes} (h : Fed hproto s outs c p) :
    Fed hproto (s.split [] []).2 (outs ++ [(s.split [] []).1]) (c ++ []) (p ++ []) := by
  have houts : (outs ++ [(s.split [] []).1]).flatten = outs.flatten := by
    simp [MsgSplitter.split]
  rw [List.append_nil, List.append_nil]
  exact ⟨h.proto_eq, h.length_eq, h.buffers, by rw [houts]; exact h.lossless,
    fun hrun => by rw [houts]; exact h.running hrun,
    fun hstop => by rw [houts]; exact h.stopped hstop⟩

/-- The invariant of a splitter holds after any chunks, empty ones among them. -/
theorem Fed.of_chunks {proto : ℕ} {hproto : IsProto proto} {xs : List (Bytes × Bytes)}
    (hlen : ∀ x ∈ xs, x.2.length = x.1.length) :
    ∀ {s : MsgSplitter} {outs : List (List Bytes)} {c p : Bytes}, Fed hproto s outs c p →
      Fed hproto (s.splitAll xs).2 (outs ++ (s.splitAll xs).1) (c ++ (xs.map Prod.fst).flatten)
        (p ++ (xs.map Prod.snd).flatten) := by
  induction xs with
  | nil => intro s outs c p h; simpa [MsgSplitter.splitAll] using h
  | cons x xs ih =>
      intro s outs c p h
      have hx : Fed hproto (s.split x.1 x.2).2 (outs ++ [(s.split x.1 x.2).1]) (c ++ x.1)
          (p ++ x.2) := by
        have hx2 := hlen x List.mem_cons_self
        by_cases hnil : x.1 = []
        · rw [hnil, List.length_nil] at hx2
          rw [hnil, List.length_eq_zero_iff.mp hx2]
          exact h.split_nil
        · exact h.split hnil hx2
      have hxs := ih (fun y hy => hlen y (List.mem_cons_of_mem _ hy)) hx
      simpa [MsgSplitter.splitAll] using hxs

/-- A splitter that has met no header without payload is running. -/
lemma Fed.running_of_greedy {proto : ℕ} {hproto : IsProto proto} {s : MsgSplitter}
    {outs : List (List Bytes)} {c p t : Bytes} {pkts : List Bytes} (h : Fed hproto s outs c p)
    (hg : Greedy proto (p ++ t) pkts []) : s.disabled = false := by
  cases hdis : s.disabled with
  | false => rfl
  | true =>
      obtain ⟨-, hhalt, -⟩ := h.stopped hdis
      have hwhole := (hhalt.append t).2
      rw [Framer.Halted, (hg.lengths_eq hproto).2] at hwhole
      cases hwhole

/-- **The two framers agree.**  Whenever repeated reads of packets succeed until a stream is
exhausted, a splitter of the same protocol that is fed this stream in any chunks returns one part
for each of them, of the length that was read; it is never disabled, and nothing is left to
flush. -/
theorem framers_agree {tag : Bytes} (htag : IsProtoTag tag) {r : Reader} {counts : List ℕ}
    (hread : ReadsTo E tag r counts) (xs : List (Bytes × Bytes))
    (hlen : ∀ x ∈ xs, x.2.length = x.1.length) (hplain : (xs.map Prod.snd).flatten = r.plain E) :
    let final := (MsgSplitter.new (protoInt tag)).splitAll xs
    final.1.flatten.map List.length = counts ∧
      (∀ k, ((MsgSplitter.new (protoInt tag)).splitAll (xs.take k)).2.disabled = false) ∧
      final.2.flush.1 = [] := by
  intro final
  obtain ⟨pkts, hg, hcounts⟩ := greedy_of_readsTo htag hread
  rw [← hplain] at hg
  have hproto := isProto_protoInt tag
  have hfed : ∀ k, Fed hproto ((MsgSplitter.new (protoInt tag)).splitAll (xs.take k)).2
      ((MsgSplitter.new (protoInt tag)).splitAll (xs.take k)).1 ((xs.take k).map Prod.fst).flatten
      ((xs.take k).map Prod.snd).flatten := by
    intro k
    have htake : ∀ x ∈ xs.take k, x.2.length = x.1.length := fun x hx =>
      hlen x (List.mem_of_mem_take hx)
    simpa using Fed.of_chunks htake (Fed.new hproto)
  have hrunning : ∀ k,
      ((MsgSplitter.new (protoInt tag)).splitAll (xs.take k)).2.disabled = false := by
    intro k
    have hk : Greedy (protoInt tag)
        (((xs.take k).map Prod.snd).flatten ++ ((xs.drop k).map Prod.snd).flatten) pkts [] := by
      rwa [← List.flatten_append, ← List.map_append, List.take_append_drop]
    exact (hfed k).running_of_greedy hk
  have hlast := hfed xs.length
  have hrun := hrunning xs.length
  rw [List.take_length] at hlast hrun
  obtain ⟨hlens, hrest⟩ := hg.lengths_eq hproto
  obtain ⟨hbuf, -, houts⟩ := hlast.running hrun
  rw [hrest] at hbuf
  refine ⟨?_, hrunning, ?_⟩
  · rw [houts, hlens, hcounts]
    refine map_length_cut ?_
    rw [← hlast.length_eq, ← hcounts, ← hlens]
    exact Framer.sum_lengths_le _
  · have hnil : final.2.cipherBuf = [] := by
      have hbuffers := hlast.buffers
      rw [hbuf, List.length_nil] at hbuffers
      exact List.length_eq_zero_iff.mp hbuffers.symm
    simp [MsgSplitter.flush, hnil]

/-- One abridged packet of six words, with a quick acknowledgement, cut after its header. -/
theorem framers_agree_sample :
    let E : AesKeystream := fun key _ n => key.headD 0 + UInt8.ofNat n
    let dec : Cipher := ⟨[5], [], 64⟩
    let body : Bytes := List.replicate 24 1
    let final := (MsgSplitter.new protoAbridgedInt).splitAll
      [([0], [0x86]), ([], []), (List.replicate 24 9, body)]
    ReadsTo E protoTagAbridged ⟨dec.peek E (0x86 :: body), dec⟩ [25] ∧
      final.1.flatten.map List.length = [25] ∧ final.2.flush.1 = [] := by
  intro E dec body final
  let r : Reader := ⟨dec.peek E (0x86 :: body), dec⟩
  have hcount : r.wire.length - (readPacket E protoTagAbridged r).2.wire.length = 25 := by
    decide +kernel
  have hread : ReadsTo E protoTagAbridged r [25] := by
    rw [← hcount]
    exact .packet r (readPacket E protoTagAbridged r).2 body true [] (by decide +kernel)
      (.done _ (by decide +kernel))
  have h := framers_agree (Or.inl rfl) hread
    [([0], [0x86]), ([], []), (List.replicate 24 9, body)] (by decide)
    (Cipher.peek_peek E dec (0x86 :: body)).symm
  exact ⟨hread, h.1, h.2.2⟩

end TgWsProxy
