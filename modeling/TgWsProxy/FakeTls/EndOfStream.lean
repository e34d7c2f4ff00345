import TgWsProxy.FakeTls.Transparency
import TgWsProxy.Bridge.TcpToWs

/-!
# The end of a TLS-shaped client

`tcp_to_ws` reads a plain client through a `StreamReader` and a TLS-shaped one through a
`FakeTlsStream`.  The first returns `b''` at the end; the second looks for a record header there,
and raises.

* `StreamReader.source`, `FakeTlsStream.source` — the two readers as sources.
* `FakeTlsStream.closing` — a stream whose transport ends behind its last record.
* `EndsAlike` — it reads as its payload, and is relayed as a plain client would be.
* **`endsAlike_iff`** — that is so exactly behind a trailing record without a body.
-/

namespace TgWsProxy

open Wire FakeTlsStream

/-! ## The two readers -/

/-- A read that returns something leaves less. -/
lemma StreamReader.read_lt {n : ℕ} {r r' : StreamReader} {data : Bytes}
    (h : ((.ok (r.read n).1, (r.read n).2) : Except IncompleteRead Bytes × StreamReader) =
      (.ok data, r')) (hne : data ≠ []) : r'.wire.length < r.wire.length := by
  obtain ⟨hdata, rfl⟩ := Prod.mk.inj h
  obtain rfl := Except.ok.inj hdata
  simp only [StreamReader.read] at hne ⊢
  rw [ne_eq, List.take_eq_nil_iff, not_or] at hne
  have hpos := List.length_pos_iff.mpr hne.2
  rw [List.length_drop]
  omega

/-- A plain client. -/
def StreamReader.source : Source StreamReader IncompleteRead where
  read n r := (.ok (r.read n).1, (r.read n).2)
  left r := r.wire.length
  left_lt := StreamReader.read_lt

/-- What a `StreamReader` returns is what is to come. -/
lemma StreamReader.readsAs (x : Bytes) (ready : ℕ → ℕ) :
    StreamReader.source.ReadsAs ⟨x, ready⟩ x := by
  refine Source.ReadsAs.of_invariant (P := fun r x => r.wire = x) ?_ rfl
  rintro r x n rfl hn
  refine ⟨_, _, _, rfl, ?_, (List.take_append_drop _ _).symm, ?_, fun _ => rfl⟩
  · exact (List.length_take_le _ _).trans (min_le_left _ _)
  · rw [StreamReader.read, List.take_eq_nil_iff]
    exact or_iff_right (by omega)

lemma StreamReader.read_length {n : ℕ} {r r' : StreamReader} {data : Bytes}
    (h : r.read n = (data, r')) : data.length + r'.wire.length = r.wire.length := by
  obtain ⟨rfl, rfl⟩ := Prod.mk.inj h
  rw [List.length_take, List.length_drop]
  omega

/-- A record takes its payload off the wire. -/
lemma readRecord_length {r r' : StreamReader} {data : Bytes} {left : ℕ}
    (h : readRecord r = (.ok (data, left), r')) : data.length + r'.wire.length ≤ r.wire.length := by
  induction hk : r.wire.length using Nat.strong_induction_on generalizing r with
  | _ k ih =>
    subst hk
    cases hhdr : r.readexactly 5 with
    | mk out r₁ =>
      cases out with
      | error e =>
          rw [readRecord_of_error hhdr] at h
          cases h
      | ok hdr =>
          obtain ⟨hwire, hlen⟩ := StreamReader.readexactly_eq_ok hhdr
          rw [readRecord_of_readexactly hhdr] at h
          rw [hwire, List.length_append]
          split_ifs at h with hccs happ
          · cases hbody : r₁.readexactly (beNat (slice hdr 3 5)) with
            | mk out r₂ =>
              rw [hbody] at h
              cases out with
              | error e => cases h
              | ok body =>
                  obtain ⟨hwire', -⟩ := StreamReader.readexactly_eq_ok hbody
                  rw [hwire', List.length_append]
                  have hle := ih r₂.wire.length (by rw [hwire, hwire']; simp; omega) h rfl
                  omega
          · obtain ⟨hdata, rfl⟩ := Prod.mk.inj h
            obtain ⟨rfl, -⟩ := Prod.mk.inj (Except.ok.inj hdata)
            rw [List.length_nil]
            omega
          · cases hread : r₁.read (min (beNat (slice hdr 3 5)) 65536) with
            | mk d r₂ =>
              have hle := StreamReader.read_length hread
              rw [hread] at h
              simp only at h
              split_ifs at h
              · obtain ⟨hdata, rfl⟩ := Prod.mk.inj h
                obtain ⟨rfl, -⟩ := Prod.mk.inj (Except.ok.inj hdata)
                rw [List.length_nil]
                omega
              · obtain ⟨hdata, rfl⟩ := Prod.mk.inj h
                obtain ⟨rfl, -⟩ := Prod.mk.inj (Except.ok.inj hdata)
                omega

lemma readTlsPayload_length {s s' : FakeTlsStream} {data : Bytes}
    (h : s.readTlsPayload = (.ok data, s')) :
    data.length + s'.reader.wire.length ≤ s.reader.wire.length := by
  by_cases hleft : 0 < s.readLeft
  · rw [readTlsPayload_of_left hleft rfl] at h
    obtain ⟨hdata, rfl⟩ := Prod.mk.inj h
    obtain rfl := Except.ok.inj hdata
    exact (StreamReader.read_length rfl).le
  · have hzero : s.readLeft = 0 := by omega
    cases hrec : readRecord s.reader with
    | mk out r =>
      cases out with
      | error e =>
          rw [readTlsPayload_of_error hzero hrec] at h
          cases h
      | ok pair =>
          rw [readTlsPayload_of_ok hzero hrec] at h
          obtain ⟨hdata, rfl⟩ := Prod.mk.inj h
          obtain rfl := Except.ok.inj hdata
          exact readRecord_length hrec

/-- A read that returns something leaves less. -/
lemma FakeTlsStream.read_lt {n : ℕ} {s s' : FakeTlsStream} {data : Bytes}
    (h : s.read n = (.ok data, s')) (hne : data ≠ []) :
    s'.readBuf.length + s'.reader.wire.length < s.readBuf.length + s.reader.wire.length := by
  rw [FakeTlsStream.read] at h
  split_ifs at h with hbuf
  · obtain ⟨hdata, rfl⟩ := Prod.mk.inj h
    obtain rfl := Except.ok.inj hdata
    rw [ne_eq, List.take_eq_nil_iff, not_or] at hne
    have hpos := List.length_pos_iff.mpr hbuf
    simp only [List.length_drop]
    omega
  · have hkeep := readBuf_readTlsPayload s
    cases hread : s.readTlsPayload with
    | mk out s₁ =>
      rw [hread] at h hkeep
      cases out with
      | error e => cases h
      | ok payload =>
          have hle := readTlsPayload_length hread
          simp only at h
          split_ifs at h with hlong
          · obtain ⟨hdata, rfl⟩ := Prod.mk.inj h
            obtain rfl := Except.ok.inj hdata
            rw [ne_eq, List.take_eq_nil_iff, not_or] at hne
            simp only [List.length_append, List.length_drop]
            simp only at hkeep
            rw [hkeep]
            omega
          · obtain ⟨hdata, rfl⟩ := Prod.mk.inj h
            obtain rfl := Except.ok.inj hdata
            have hpos := List.length_pos_iff.mpr hne
            simp only at hkeep
            rw [hkeep]
            omega

/-- A TLS-shaped client. -/
def FakeTlsStream.source : Source FakeTlsStream IncompleteRead where
  read n s := s.read n
  left s := s.readBuf.length + s.reader.wire.length
  left_lt := FakeTlsStream.read_lt

/-! ## At the last record -/

variable {s s' : FakeTlsStream} {rest x : Bytes}

lemma read_of_nil (hbuf : s.readBuf = []) (h : s.readTlsPayload = (.ok [], s')) (n : ℕ) :
    s.read n = (.ok [], s') := by
  rw [FakeTlsStream.read, if_neg (not_not.mpr hbuf), h]
  rfl

lemma read_of_error {e : IncompleteRead} (hbuf : s.readBuf = [])
    (h : s.readTlsPayload = (.error e, s')) (n : ℕ) : s.read n = (.error e, s') := by
  rw [FakeTlsStream.read, if_neg (not_not.mpr hbuf), h]

/-- An empty record is returned as `b''`. -/
lemma read_emptyRecord {rec : Record} (hk : rec.kind = .applicationData) (hb : rec.body = [])
    (h : Before s (rec.encode ++ rest) []) (n : ℕ) : ∃ s', s.read n = (.ok [], s') := by
  obtain ⟨cur, recs, hne, hleft, hwire, hx⟩ := h
  obtain ⟨hbuf, hx⟩ := List.append_eq_nil_iff.mp hx.symm
  obtain ⟨rfl, hnil⟩ := List.append_eq_nil_iff.mp hx
  obtain ⟨count, -, -, hread⟩ := readRecord_applicationData hk rest s.reader.ready
  rw [← readRecord_passes hne hnil, ← List.nil_append (encodeAll recs ++ _), ← hwire, hb,
    List.take_nil] at hread
  exact ⟨_, read_of_nil hbuf (readTlsPayload_of_ok hleft hread) n⟩

/-- At the end of the transport, the search for a header raises. -/
lemma read_closed (h : Before s [] []) (n : ℕ) : ∃ e s', s.read n = (.error e, s') := by
  obtain ⟨cur, recs, hne, hleft, hwire, hx⟩ := h
  obtain ⟨hbuf, hx⟩ := List.append_eq_nil_iff.mp hx.symm
  obtain ⟨rfl, hnil⟩ := List.append_eq_nil_iff.mp hx
  have hread : readRecord ⟨[], s.reader.ready⟩ = (.error ⟨[], 5⟩, ⟨[], s.reader.ready⟩) :=
    readRecord_of_error rfl
  rw [← readRecord_passes hne hnil, ← List.nil_append (encodeAll recs ++ _), ← hwire] at hread
  exact ⟨_, _, read_of_error hbuf (readTlsPayload_of_error hleft hread) n⟩

/-- What a stream holds can be read, octet by octet. -/
lemma exists_gets (h : Before s rest x) :
    ∃ s', FakeTlsStream.source.Gets s x s' ∧ Before s' rest [] := by
  induction hk : x.length using Nat.strong_induction_on generalizing s x with
  | _ k ih =>
    subst hk
    by_cases hx : x = []
    · subst hx
      exact ⟨s, .refl s, h⟩
    · have hpos := List.length_pos_iff.mpr hx
      obtain ⟨k, s₁, hk, -, hle, hread, hs₁⟩ := read_takes h hx le_rfl
      obtain ⟨s', hgets, hs'⟩ := ih (x.drop k).length (by rw [List.length_drop]; omega) hs₁ rfl
      refine ⟨s', ?_, hs'⟩
      rw [← List.take_append_drop k x]
      refine .read le_rfl hread ?_ hgets
      rw [ne_eq, List.take_eq_nil_iff, not_or]
      exact ⟨by omega, hx⟩

/-! ## The end -/

/-- A stream that has `buf` in its buffer, `cur` of the present record and the records `recs` to
come, and then the end of the transport; nothing but `recs` when it starts. -/
def FakeTlsStream.closing (buf cur : Bytes) (recs : List Record) (ready : ℕ → ℕ) : FakeTlsStream :=
  ⟨⟨cur ++ encodeAll recs, ready⟩, buf, cur.length⟩

/-- The payload of such a stream. -/
def toCome (buf cur : Bytes) (recs : List Record) : Bytes := buf ++ (cur ++ payloads recs)

/-- **The same end.**  The stream reads as the octets `x`: they come in order, nothing only behind
the last of them, and no read raises.  The relay ends alike for it and for a plain client that sends
`x`, and sends the re-encryption of `x` for both. -/
structure EndsAlike (s : FakeTlsStream) (x : Bytes) : Prop where
  reads : FakeTlsStream.source.ReadsAs s x
  relays : ∀ (E : AesKeystream) (ctx : CryptoCtx) (proto : Option ℕ) (ready : ℕ → ℕ),
    let tls := tcpToWs FakeTlsStream.source E s ctx (proto.map MsgSplitter.new)
    let plain := tcpToWs StreamReader.source E ⟨x, ready⟩ ctx (proto.map MsgSplitter.new)
    tls.2 = .endOfStream ∧ plain.2 = .endOfStream ∧
      tls.1.flatten = ctx.tgEnc.peek E (ctx.cltDec.peek E x) ∧
      plain.1.flatten = ctx.tgEnc.peek E (ctx.cltDec.peek E x)

/-- Behind the last payload comes an ApplicationData record without a body, the first one. -/
def TrailingEmpty (recs : List Record) : Prop :=
  ∃ pre rec post, recs = pre ++ rec :: post ∧ NoEmptyAppdata pre ∧
    rec.kind = .applicationData ∧ rec.body = [] ∧ payloads post = []

/-- A stream that reads as its payload is relayed like a plain client. -/
lemma EndsAlike.of_readsAs (h : FakeTlsStream.source.ReadsAs s x) : EndsAlike s x := by
  refine ⟨h, fun E ctx proto ready => ?_⟩
  have hsound : ∀ sp ∈ proto.map MsgSplitter.new, sp.Sound := by
    intro sp hsp
    obtain ⟨p, -, rfl⟩ := Option.map_eq_some_iff.mp hsp
    exact fun _ => rfl
  have hheld : heldBack (proto.map MsgSplitter.new) = [] := by
    cases proto <;> rfl
  obtain ⟨htls, hend⟩ := tcpToWs_of_readsAs E h ctx hsound
  obtain ⟨hplain, hend'⟩ := tcpToWs_of_readsAs E (StreamReader.readsAs x ready) ctx hsound
  rw [hheld, List.nil_append] at htls hplain
  exact ⟨hend, hend', htls, hplain⟩

/-- Behind a trailing record without a body, the stream reads as its payload. -/
lemma readsAs_of_trailingEmpty {buf cur : Bytes} {recs : List Record} (ready : ℕ → ℕ)
    (h : TrailingEmpty recs) :
    FakeTlsStream.source.ReadsAs (.closing buf cur recs ready) (toCome buf cur recs) := by
  obtain ⟨pre, rec, post, rfl, hpre, hk, hb, hpost⟩ := h
  have hstart : Before (.closing buf cur (pre ++ rec :: post) ready)
      (rec.encode ++ encodeAll post) (toCome buf cur (pre ++ rec :: post)) := by
    refine ⟨cur, pre, hpre, rfl, ?_, ?_⟩
    · simp [FakeTlsStream.closing]
    · simp [FakeTlsStream.closing, toCome, Record.payload, hk, hb, hpost]
  refine Source.ReadsAs.of_invariant
    (P := fun s x => Before s (rec.encode ++ encodeAll post) x) ?_ hstart
  intro s x n hs hn
  by_cases hx : x = []
  · subst hx
    obtain ⟨s', hread⟩ := read_emptyRecord hk hb hs n
    exact ⟨[], s', [], hread, Nat.zero_le n, rfl, Iff.rfl, fun hne => absurd rfl hne⟩
  · obtain ⟨k, s', hk, hkn, hle, hread, hs'⟩ := read_takes hs hx hn
    refine ⟨_, s', x.drop k, hread, (List.length_take_le k x).trans hkn,
      (List.take_append_drop k x).symm, ?_, fun _ => hs'⟩
    rw [List.take_eq_nil_iff]
    exact or_iff_right (by omega)

/-- Nothing else reads as its payload: without an empty record the end raises, and one before the
last payload is taken for the end. -/
lemma trailingEmpty_of_readsAs {buf cur : Bytes} {recs : List Record} {ready : ℕ → ℕ}
    (h : FakeTlsStream.source.ReadsAs (.closing buf cur recs ready) (toCome buf cur recs)) :
    TrailingEmpty recs := by
  by_cases hne : NoEmptyAppdata recs
  · have hstart : Before (.closing buf cur recs ready) [] (toCome buf cur recs) :=
      ⟨cur, recs, hne, rfl, by simp [FakeTlsStream.closing], rfl⟩
    obtain ⟨s', hgets, hs'⟩ := exists_gets hstart
    obtain ⟨data, s'', hread, -⟩ := h _ s' 1 hgets le_rfl
    obtain ⟨e, s₃, hraise⟩ := read_closed hs' 1
    rw [show FakeTlsStream.source.read 1 s' = s'.read 1 from rfl, hraise] at hread
    cases hread
  · obtain ⟨pre, rec, post, rfl, hpre, hk, hb⟩ := exists_empty_of_not hne
    have hstart : Before (.closing buf cur (pre ++ rec :: post) ready)
        (rec.encode ++ encodeAll post) (buf ++ (cur ++ payloads pre)) :=
      ⟨cur, pre, hpre, rfl, by simp [FakeTlsStream.closing], rfl⟩
    obtain ⟨s', hgets, hs'⟩ := exists_gets hstart
    have hsplit : toCome buf cur (pre ++ rec :: post)
        = buf ++ (cur ++ payloads pre) ++ payloads post := by
      simp [toCome, Record.payload, hk, hb]
    rw [hsplit] at h
    obtain ⟨data, s'', hread, -, -, hend⟩ := h _ s' 1 hgets le_rfl
    obtain ⟨s₃, hempty⟩ := read_emptyRecord hk hb hs' 1
    rw [show FakeTlsStream.source.read 1 s' = s'.read 1 from rfl, hempty] at hread
    obtain ⟨hdata, -⟩ := Prod.mk.inj hread
    have hlast := hend.mp (Except.ok.inj hdata).symm
    exact ⟨pre, rec, post, rfl, hpre, hk, hb, List.self_eq_append_right.mp hlast⟩

/-- **The end of a TLS-shaped client.**  When its transport is closed behind a record, the stream
ends as the `StreamReader` of a plain client does exactly if, behind all of its payload, it has sent
an ApplicationData record without a body. -/
theorem endsAlike_iff (buf cur : Bytes) (recs : List Record) (ready : ℕ → ℕ) :
    EndsAlike (.closing buf cur recs ready) (toCome buf cur recs) ↔ TrailingEmpty recs :=
  ⟨fun h => trailingEmpty_of_readsAs h.reads,
    fun h => EndsAlike.of_readsAs (readsAs_of_trailingEmpty ready h)⟩

/-- Three octets of an abridged packet of five. -/
def halfPacket : List Record := [⟨.applicationData, (0x03, 0x03), [1, 2, 3], by decide⟩]

/-- A client that stops in the middle of a packet: through records, the relay sends nothing of it
and ends with an error; a plain client's three octets are sent. -/
theorem not_endsAlike_halfPacket :
    ¬ ∀ (recs : List Record) (ready : ℕ → ℕ),
      EndsAlike (.closing [] [] recs ready) (toCome [] [] recs) := by
  intro h
  have hend := ((h halfPacket fun _ => 0).relays (fun _ _ _ => 0)
    ⟨⟨[], [], 0⟩, ⟨[], [], 0⟩, ⟨[], [], 0⟩, ⟨[], [], 0⟩⟩ (some protoAbridgedInt) fun _ => 0).1
  have hsent : (tcpToWs FakeTlsStream.source (fun _ _ _ => 0)
      (.closing [] [] halfPacket fun _ => 0)
      ⟨⟨[], [], 0⟩, ⟨[], [], 0⟩, ⟨[], [], 0⟩, ⟨[], [], 0⟩⟩
      ((some protoAbridgedInt).map .new)) = ([], .raised ⟨[], 5⟩) := by decide +kernel
  rw [hsent] at hend
  cases hend

end TgWsProxy
