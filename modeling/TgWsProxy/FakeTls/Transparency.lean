import TgWsProxy.FakeTls.Stream

/-!
# Record boundaries are invisible

A reader of `FakeTlsStream` sees the payloads of the records as one octet stream, exactly when no
ApplicationData record is empty: an empty one looks like the end.

* `Before s rest x` — the state `s` has the payload `x` still to return and `rest` behind it.
* `Stops rest rest'` — no record is found in `rest`, and `rest'` is left of it.
* `read_spec`, `readexactly_spec` — one specification for each call, and `runCalls_spec` for runs.
* `transparent_iff` — the result, with what `wrap_tls_record` emits.
-/

namespace TgWsProxy

open Wire FakeTlsStream

/-! ## States -/

/-- The stream holds back the payload `x`: what is buffered, what is left of the record being read,
and the payloads of the records behind it. -/
def Before (s : FakeTlsStream) (rest x : Bytes) : Prop :=
  ∃ cur recs, NoEmptyAppdata recs ∧ s.readLeft = cur.length ∧
    s.reader.wire = cur ++ (encodeAll recs ++ rest) ∧ x = s.readBuf ++ (cur ++ payloads recs)

/-- The outcome of a read that found no payload. -/
def NoPayload : Except IncompleteRead (Bytes × ℕ) → Prop
  | .ok (data, left) => data = [] ∧ left = 0
  | .error _ => True

/-- Looking for a record in `rest` finds no payload, and leaves `rest'`. -/
def Stops (rest rest' : Bytes) : Prop :=
  ∀ ready, ∃ out, readRecord ⟨rest, ready⟩ = (out, ⟨rest', ready⟩) ∧ NoPayload out

/-- The end of the transport and a record of another type stop a reader. -/
lemma Ends.stops {tail : Bytes} (h : Ends tail) : Stops tail (tail.drop 5) := by
  intro ready
  by_cases hlen : tail.length < 5
  · refine ⟨.error ⟨tail, 5⟩, ?_, trivial⟩
    have hr : StreamReader.readexactly 5 ⟨tail, ready⟩ = (.error ⟨tail, 5⟩, ⟨[], ready⟩) := by
      simp [StreamReader.readexactly, hlen]
    rw [readRecord_of_error hr, List.drop_eq_nil_of_le hlen.le]
  · obtain ⟨hccs, happ⟩ := h.resolve_left hlen
    have hr : StreamReader.readexactly 5 ⟨tail, ready⟩
        = (.ok (tail.take 5), ⟨tail.drop 5, ready⟩) := by
      simp [StreamReader.readexactly, not_lt.mp hlen]
    have hhead : (tail.take 5).headD 0 = tail.headD 0 := by cases tail <;> rfl
    refine ⟨.ok ([], 0), ?_, rfl, rfl⟩
    rw [readRecord_of_readexactly hr, hhead, if_neg hccs, if_pos happ]

/-- So does an ApplicationData record without a body. -/
lemma stops_of_empty {rec : Record} (hk : rec.kind = .applicationData) (hb : rec.body = [])
    (rest : Bytes) : Stops (rec.encode ++ rest) rest := by
  intro ready
  obtain ⟨count, -, -, h⟩ := readRecord_applicationData hk rest ready
  exact ⟨_, by rw [h, hb, List.drop_nil, List.nil_append], by simp [NoPayload]⟩

lemma stops_nil : Stops [] [] := Ends.stops (Or.inl (by simp))

/-! ## Taking a payload -/

/-- Records without payload are passed over. -/
lemma readRecord_passes : ∀ {recs : List Record}, NoEmptyAppdata recs → payloads recs = [] →
    ∀ rest ready, readRecord ⟨encodeAll recs ++ rest, ready⟩ = readRecord ⟨rest, ready⟩
  | [], _, _, _, _ => rfl
  | rec :: recs, hne, hnil, rest, ready => by
      rw [payloads_cons, List.append_eq_nil_iff] at hnil
      cases hk : rec.kind with
      | changeCipherSpec =>
          rw [encodeAll_cons, List.append_assoc, readRecord_changeCipherSpec hk,
            readRecord_passes hne.tail hnil.2]
      | applicationData =>
          have hbody := hne rec List.mem_cons_self hk
          simp [Record.payload, hk, hbody] at hnil

/-- Otherwise some of the next payload is taken. -/
lemma readRecord_takes : ∀ {recs : List Record}, NoEmptyAppdata recs → payloads recs ≠ [] →
    ∀ rest ready, ∃ data cur recs', data ≠ [] ∧ NoEmptyAppdata recs' ∧
      payloads recs = data ++ (cur ++ payloads recs') ∧
      readRecord ⟨encodeAll recs ++ rest, ready⟩
        = (.ok (data, cur.length), ⟨cur ++ (encodeAll recs' ++ rest), ready⟩)
  | [], _, h, _, _ => absurd rfl h
  | rec :: recs, hne, h, rest, ready => by
      rw [encodeAll_cons, List.append_assoc]
      cases hk : rec.kind with
      | changeCipherSpec =>
          have hpay : payloads (rec :: recs) = payloads recs := by
            simp [Record.payload, hk]
          rw [hpay] at h ⊢
          rw [readRecord_changeCipherSpec hk]
          exact readRecord_takes hne.tail h rest ready
      | applicationData =>
          have hbody := hne rec List.mem_cons_self hk
          obtain ⟨count, hpos, -, hread⟩ :=
            readRecord_applicationData hk (encodeAll recs ++ rest) ready
          refine ⟨_, _, recs, ?_, hne.tail, ?_, hread⟩
          · rw [ne_eq, List.take_eq_nil_iff]
            exact not_or.mpr ⟨(hpos hbody).ne', hbody⟩
          · rw [← List.append_assoc, List.take_append_drop, payloads_cons, Record.payload, hk]

/-- `_read_tls_payload` returns some of the payload that is not buffered while there is any. -/
theorem readTlsPayload_takes {s : FakeTlsStream} {rest x : Bytes} (h : Before s rest x)
    (hx : x ≠ s.readBuf) :
    ∃ data s', data ≠ [] ∧ s.readTlsPayload = (.ok data, s') ∧ s'.readBuf = s.readBuf ∧
      Before { s' with readBuf := s.readBuf ++ data } rest x := by
  obtain ⟨cur, recs, hne, hleft, hwire, rfl⟩ := h
  by_cases hcur : cur = []
  · subst hcur
    have hpay : payloads recs ≠ [] := fun hnil => hx (by simp [hnil])
    obtain ⟨data, cur', recs', hdata, hne', hsplit, hread⟩ :=
      readRecord_takes hne hpay rest s.reader.ready
    rw [← List.nil_append (encodeAll recs ++ rest), ← hwire] at hread
    refine ⟨data, _, hdata, readTlsPayload_of_ok hleft hread, rfl, ?_⟩
    exact ⟨cur', recs', hne', rfl, rfl, by simp [hsplit]⟩
  · have hpos : 0 < cur.length := List.length_pos_iff.mpr hcur
    obtain ⟨count, hcount⟩ : ∃ count,
        min s.readLeft (s.reader.ready s.reader.wire.length + 1) = count := ⟨_, rfl⟩
    have hle : count ≤ cur.length := by omega
    have hread : s.reader.read s.readLeft
        = (cur.take count, ⟨cur.drop count ++ (encodeAll recs ++ rest), s.reader.ready⟩) := by
      simp only [StreamReader.read, hcount]
      rw [hwire, List.take_append_of_le_length hle, List.drop_append_of_le_length hle]
    refine ⟨cur.take count, _, ?_, readTlsPayload_of_left (by omega) hread, rfl, ?_⟩
    · rw [ne_eq, List.take_eq_nil_iff]
      exact not_or.mpr ⟨by omega, hcur⟩
    · refine ⟨cur.drop count, recs, hne, ?_, rfl, ?_⟩
      · simp [hleft, Nat.min_eq_left hle]
      · simp only [List.append_assoc]
        rw [← List.append_assoc (cur.take count), List.take_append_drop]

/-- When everything is buffered it returns nothing, from wherever reading stops. -/
theorem readTlsPayload_stops {s : FakeTlsStream} {rest rest' : Bytes}
    (h : Before s rest s.readBuf) (hstop : Stops rest rest') :
    ∃ out, s.readTlsPayload
        = (out, { s with reader := ⟨rest', s.reader.ready⟩, readLeft := 0 }) ∧
      ∀ data, out = .ok data → data = [] := by
  obtain ⟨cur, recs, hne, hleft, hwire, hx⟩ := h
  obtain ⟨rfl, hnil⟩ := List.append_eq_nil_iff.mp (List.self_eq_append_right.mp hx)
  obtain ⟨out, hread, hno⟩ := hstop s.reader.ready
  rw [← readRecord_passes hne hnil, ← List.nil_append (encodeAll recs ++ rest), ← hwire] at hread
  match out, hno with
  | .ok (data, left), ⟨hdata, hzero⟩ =>
      subst hdata hzero
      exact ⟨.ok [], readTlsPayload_of_ok hleft hread, fun _ h => (Except.ok.inj h).symm⟩
  | .error e, _ =>
      refine ⟨.error e, ?_, fun _ h => nomatch h⟩
      rw [readTlsPayload_of_error hleft hread, show s.readLeft = 0 from hleft]

/-! ## Calls -/

/-- A call on the stream. -/
inductive Call
  | read (n : ℕ)
  | readexactly (n : ℕ)

/-- What a call returns or raises. -/
abbrev Outcome := Except IncompleteRead Bytes

/-- The octets a caller gets. -/
def returned : Outcome → Bytes
  | .ok data => data
  | .error _ => []

namespace Call

/-- `read` is asked for something. -/
def Valid : Call → Prop
  | read n => 1 ≤ n
  | readexactly _ => True

def run : Call → FakeTlsStream → Outcome × FakeTlsStream
  | read n, s => s.read n
  | readexactly n, s => s.readexactly n

/-- The outcomes by which a caller sees the end. -/
def AtEnd : Call → Outcome → Prop
  | read _, .ok data => data = []
  | readexactly _, .ok _ => False
  | _, .error _ => True

end Call

lemma Call.AtEnd.returned_eq_nil {c : Call} {out : Outcome} (h : c.AtEnd out) :
    returned out = [] := by
  match c, out with
  | .read _, .ok _ => exact h
  | .readexactly _, .ok _ => exact absurd h id
  | _, .error _ => rfl

/-- The stream has stopped at `rest'` with the octets `x` in its buffer. -/
def StoppedAt (s : FakeTlsStream) (rest' x : Bytes) : Prop :=
  s.reader.wire = rest' ∧ s.readLeft = 0 ∧ s.readBuf = x

/-- What is buffered comes first. -/
lemma Before.take {s : FakeTlsStream} {rest x : Bytes} (h : Before s rest x) {k : ℕ}
    (hk : k ≤ s.readBuf.length) :
    k ≤ x.length ∧ s.readBuf.take k = x.take k ∧
      Before { s with readBuf := s.readBuf.drop k } rest (x.drop k) := by
  obtain ⟨cur, recs, hrecs, hleft, hwire, rfl⟩ := h
  refine ⟨?_, (List.take_append_of_le_length hk).symm, cur, recs, hrecs, hleft, hwire, ?_⟩
  · rw [List.length_append]
    omega
  · rw [List.drop_append_of_le_length hk]

/-- `read` on a stream that holds something. -/
lemma read_takes {s : FakeTlsStream} {rest x : Bytes} (h : Before s rest x) (hx : x ≠ [])
    {n : ℕ} (hn : 1 ≤ n) :
    ∃ k s', 1 ≤ k ∧ k ≤ n ∧ k ≤ x.length ∧ s.read n = (.ok (x.take k), s') ∧
      Before s' rest (x.drop k) := by
  by_cases hbuf : s.readBuf = []
  · obtain ⟨payload, s', hne, hread, hbuf', hbefore⟩ := readTlsPayload_takes h (hbuf.symm ▸ hx)
    rw [hbuf, List.nil_append] at hbefore
    rw [hbuf] at hbuf'
    have hpos := List.length_pos_iff.mpr hne
    by_cases hlong : n < payload.length
    · obtain ⟨hle, htake, hdrop⟩ := hbefore.take hlong.le
      refine ⟨n, _, hn, le_rfl, hle, ?_, hdrop⟩
      simp [FakeTlsStream.read, hbuf, hread, hlong, hbuf', ← htake]
    · obtain ⟨hle, htake, hdrop⟩ := hbefore.take le_rfl
      refine ⟨payload.length, s', hpos, by omega, hle, ?_, ?_⟩
      · rw [← htake, List.take_length]
        simp [FakeTlsStream.read, hbuf, hread, hlong]
      · simpa only [List.drop_length, ← hbuf'] using hdrop
  · have hpos := List.length_pos_iff.mpr hbuf
    have hmin : s.readBuf.take (min n s.readBuf.length) = s.readBuf.take n := by
      rw [← List.take_take, List.take_length]
    obtain ⟨hle, htake, hdrop⟩ := h.take (k := min n s.readBuf.length) (by omega)
    refine ⟨min n s.readBuf.length, { s with readBuf := s.readBuf.drop n }, by omega, by omega,
      hle, ?_, ?_⟩
    · rw [FakeTlsStream.read, if_pos hbuf, ← htake, hmin]
    · rcases le_total n s.readBuf.length with hshort | hlong
      · rwa [Nat.min_eq_left hshort] at hdrop ⊢
      · rw [Nat.min_eq_right hlong] at hdrop ⊢
        rwa [List.drop_length, ← List.drop_eq_nil_of_le hlong] at hdrop

/-- `read` on a stream that holds nothing. -/
lemma read_stops {s : FakeTlsStream} {rest rest' : Bytes} (h : Before s rest [])
    (hstop : Stops rest rest') (n : ℕ) :
    ∃ out s', s.read n = (out, s') ∧ Call.AtEnd (.read n) out ∧ StoppedAt s' rest' [] := by
  have hbuf : s.readBuf = [] := by
    obtain ⟨cur, recs, -, -, -, hx⟩ := h
    exact (List.append_eq_nil_iff.mp hx.symm).1
  obtain ⟨out, hread, hout⟩ := readTlsPayload_stops (hbuf.symm ▸ h) hstop
  refine ⟨out, { s with reader := ⟨rest', s.reader.ready⟩, readLeft := 0 }, ?_, ?_, rfl, rfl, hbuf⟩
  · match out with
    | .error e => rw [FakeTlsStream.read, if_neg (not_not.mpr hbuf), hread]
    | .ok data =>
        obtain rfl := hout data rfl
        rw [FakeTlsStream.read, if_neg (not_not.mpr hbuf), hread]
        rfl
  · match out with
    | .error e => trivial
    | .ok data => exact hout data rfl

/-- `readexactly` on a stream that holds enough. -/
lemma readexactly_takes {s : FakeTlsStream} {rest x : Bytes} {n : ℕ} (h : Before s rest x)
    (hn : n ≤ x.length) :
    ∃ s', s.readexactly n = (.ok (x.take n), s') ∧ Before s' rest (x.drop n) := by
  induction hk : n - s.readBuf.length using Nat.strong_induction_on generalizing s with
  | _ k ih =>
    subst hk
    by_cases hlt : s.readBuf.length < n
    · have hx : x ≠ s.readBuf := by
        rintro rfl
        omega
      obtain ⟨data, s', hne, hread, hbuf', hbefore⟩ := readTlsPayload_takes h hx
      have hpos := List.length_pos_iff.mpr hne
      rw [readexactly_of_payload hlt hne hread, hbuf']
      refine ih _ ?_ hbefore rfl
      simp only [List.length_append]
      omega
    · obtain ⟨-, htake, hdrop⟩ := h.take (not_lt.mp hlt)
      refine ⟨_, ?_, hdrop⟩
      rw [FakeTlsStream.readexactly, if_neg hlt, htake]

/-- `readexactly` on a stream that holds too little. -/
lemma readexactly_stops {s : FakeTlsStream} {rest rest' x : Bytes} {n : ℕ} (h : Before s rest x)
    (hstop : Stops rest rest') (hn : x.length < n) :
    ∃ e s', s.readexactly n = (.error e, s') ∧ StoppedAt s' rest' x := by
  induction hk : n - s.readBuf.length using Nat.strong_induction_on generalizing s with
  | _ k ih =>
    subst hk
    have hlt : s.readBuf.length < n := by
      obtain ⟨hle, -, -⟩ := h.take le_rfl
      omega
    by_cases hx : x = s.readBuf
    · subst hx
      obtain ⟨out, hread, hout⟩ := readTlsPayload_stops h hstop
      match out with
      | .error e => exact ⟨e, _, readexactly_of_error hlt hread, rfl, rfl, rfl⟩
      | .ok data =>
          obtain rfl := hout data rfl
          exact ⟨_, _, readexactly_of_nil hlt hread, rfl, rfl, rfl⟩
    · obtain ⟨data, s', hne, hread, hbuf', hbefore⟩ := readTlsPayload_takes h hx
      have hpos := List.length_pos_iff.mpr hne
      rw [readexactly_of_payload hlt hne hread, hbuf']
      refine ih _ ?_ hbefore rfl
      simp only [List.length_append]
      omega

/-! ## Runs -/

/-- The calls of a reader one after the other, with what each of them gave. -/
def runCalls : List Call → FakeTlsStream → List (Call × Outcome) × FakeTlsStream
  | [], s => ([], s)
  | c :: cs, s =>
      let (out, s') := c.run s
      let (outs, s'') := runCalls cs s'
      ((c, out) :: outs, s'')

/-- All a reader got. -/
def allReturned (outs : List (Call × Outcome)) : Bytes :=
  (outs.map fun o => returned o.2).flatten

@[simp] lemma allReturned_nil : allReturned [] = [] := rfl

@[simp] lemma allReturned_cons (c : Call) (out : Outcome) (outs : List (Call × Outcome)) :
    allReturned ((c, out) :: outs) = returned out ++ allReturned outs := rfl

/-- What one call does to a stream that holds `x`. -/
lemma Call.run_spec {s : FakeTlsStream} {rest rest' x : Bytes} (h : Before s rest x)
    (hstop : Stops rest rest') {c : Call} (hc : c.Valid) :
    (¬ c.AtEnd (c.run s).1 ∧ ∃ y, x = returned (c.run s).1 ++ y ∧ Before (c.run s).2 rest y) ∨
      (c.AtEnd (c.run s).1 ∧ StoppedAt (c.run s).2 rest' x) := by
  cases c with
  | read n =>
      by_cases hx : x = []
      · subst hx
        obtain ⟨out, s', hrun, hend, hs⟩ := read_stops h hstop n
        refine Or.inr ?_
        rw [Call.run, hrun]
        exact ⟨hend, hs⟩
      · obtain ⟨k, s', hk, -, hle, hrun, hs⟩ := read_takes h hx hc
        refine Or.inl ?_
        rw [Call.run, hrun]
        refine ⟨?_, x.drop k, (List.take_append_drop k x).symm, hs⟩
        rw [Call.AtEnd, List.take_eq_nil_iff]
        exact not_or.mpr ⟨by omega, hx⟩
  | readexactly n =>
      rcases le_or_gt n x.length with hn | hn
      · obtain ⟨s', hrun, hs⟩ := readexactly_takes h hn
        refine Or.inl ?_
        rw [Call.run, hrun]
        exact ⟨id, x.drop n, (List.take_append_drop n x).symm, hs⟩
      · obtain ⟨e, s', hrun, hs⟩ := readexactly_stops h hstop hn
        refine Or.inr ?_
        rw [Call.run, hrun]
        exact ⟨trivial, hs⟩

/-- A stream at the end of the transport keeps what it has buffered. -/
lemma StoppedAt.before {s : FakeTlsStream} {x : Bytes} (h : StoppedAt s [] x) : Before s [] x := by
  obtain ⟨hwire, hleft, hbuf⟩ := h
  exact ⟨[], [], fun _ h => absurd h List.not_mem_nil, hleft, hwire, by simp [hbuf]⟩

/-- After a run that has not met a record of another type, the stream holds what has not been
returned. -/
theorem runCalls_spec {tail : Bytes} : ∀ {cs : List Call} {s : FakeTlsStream} {rest x : Bytes},
    Before s rest x → Stops rest (tail.drop 5) → (∀ c ∈ cs, c.Valid) →
    (tail.length < 5 ∨ ∀ o ∈ (runCalls cs s).1, ¬ o.1.AtEnd o.2) →
    ∃ rest' y, Before (runCalls cs s).2 rest' y ∧ Stops rest' (tail.drop 5) ∧
      x = allReturned (runCalls cs s).1 ++ y
  | [], _, rest, x, h, hstop, _, _ => ⟨rest, x, h, hstop, rfl⟩
  | c :: cs, s, rest, x, h, hstop, hvalid, hend => by
      have hvalid' : ∀ c ∈ cs, c.Valid := fun c hc => hvalid c (List.mem_cons_of_mem _ hc)
      have hend' : tail.length < 5 ∨ ∀ o ∈ (runCalls cs (c.run s).2).1, ¬ o.1.AtEnd o.2 :=
        hend.imp_right fun hall o ho => hall o (List.mem_cons_of_mem _ ho)
      rcases c.run_spec h hstop (hvalid c List.mem_cons_self) with
        ⟨-, y, rfl, hs⟩ | ⟨hat, hs⟩
      · obtain ⟨rest', z, hz, hstop', rfl⟩ := runCalls_spec hs hstop hvalid' hend'
        exact ⟨rest', z, hz, hstop', (List.append_assoc _ _ _).symm⟩
      · have hclosed : tail.length < 5 :=
          hend.resolve_right fun hall => hall _ List.mem_cons_self hat
        rw [List.drop_eq_nil_of_le hclosed.le] at hs hstop ⊢
        have hnil : Stops [] (List.drop 5 ([] : Bytes)) := by simpa using stops_nil
        obtain ⟨rest', z, hz, hstop', hx⟩ := runCalls_spec hs.before hnil hvalid'
          (Or.inl (by simp))
        refine ⟨rest', z, hz, by simpa using hstop', ?_⟩
        simp only [runCalls, allReturned_cons, hat.returned_eq_nil, List.nil_append]
        exact hx

/-! ## Transparency -/

/-- What the outcome of a call must be after the octets `got`, when the records carry `total` and
leave `rest` on the wire behind the last of them. -/
def Faithful (total rest got : Bytes) (out : Outcome) (s : FakeTlsStream) : Call → Prop
  | .read n =>
      returned out ≠ [] ∧ (returned out).length ≤ n ∧ got ++ returned out <+: total ∨
        returned out = [] ∧ got = total ∧ s.reader.wire = rest
  | .readexactly n =>
      (∃ data, out = .ok data ∧ data.length = n ∧ got ++ data <+: total) ∨
        (∃ e, out = .error e) ∧ total.length < got.length + n ∧ s.reader.wire = rest

/-- A list of records is read as one octet stream: whatever follows it, however its octets arrive
and whatever calls are made, every call is faithful, as long as no record of another type has been
met before. -/
def Transparent (recs : List Record) : Prop :=
  ∀ (tail : Bytes) (ready : ℕ → ℕ) (cs : List Call) (c : Call), Ends tail → (∀ c ∈ cs, c.Valid) →
    c.Valid →
    let before := runCalls cs (FakeTlsStream.new ⟨encodeAll recs ++ tail, ready⟩)
    (tail.length < 5 ∨ ∀ o ∈ before.1, ¬ o.1.AtEnd o.2) →
    Faithful (payloads recs) (tail.drop 5) (allReturned before.1) (c.run before.2).1
      (c.run before.2).2 c

/-- Without empty records, boundaries are invisible. -/
theorem transparent_of_noEmptyAppdata {recs : List Record} (hne : NoEmptyAppdata recs) :
    Transparent recs := by
  intro tail ready cs c htail hvalid hc before hend
  have hstart : Before (FakeTlsStream.new ⟨encodeAll recs ++ tail, ready⟩) tail (payloads recs) :=
    ⟨[], recs, hne, rfl, rfl, rfl⟩
  obtain ⟨rest, y, hy, hstop, hx⟩ := runCalls_spec hstart htail.stops hvalid hend
  change payloads recs = allReturned before.1 ++ y at hx
  rw [hx]
  cases c with
  | read n =>
      by_cases hnil : y = []
      · subst hnil
        obtain ⟨out, s', hrun, hat, hwire, -, -⟩ := read_stops hy hstop n
        refine Or.inr ?_
        rw [Call.run, hrun]
        exact ⟨hat.returned_eq_nil, (List.append_nil _).symm, hwire⟩
      · obtain ⟨k, s', hk, hkn, hle, hrun, -⟩ := read_takes hy hnil hc
        refine Or.inl ?_
        rw [Call.run, hrun]
        refine ⟨?_, (List.length_take_le k y).trans hkn, ?_⟩
        · rw [returned, ne_eq, List.take_eq_nil_iff]
          exact not_or.mpr ⟨by omega, hnil⟩
        · exact (List.prefix_append_right_inj _).mpr (List.take_prefix k y)
  | readexactly n =>
      rcases le_or_gt n y.length with hn | hn
      · obtain ⟨s', hrun, -⟩ := readexactly_takes hy hn
        refine Or.inl ⟨y.take n, ?_, ?_, ?_⟩
        · rw [Call.run, hrun]
        · rw [List.length_take, Nat.min_eq_left hn]
        · exact (List.prefix_append_right_inj _).mpr (List.take_prefix n y)
      · obtain ⟨e, s', hrun, hwire, -, -⟩ := readexactly_stops hy hstop hn
        refine Or.inr ?_
        rw [Call.run, hrun, List.length_append]
        exact ⟨⟨e, rfl⟩, by omega, hwire⟩

/-- The first empty record. -/
lemma exists_empty_of_not : ∀ {recs : List Record}, ¬ NoEmptyAppdata recs →
    ∃ pre rec post, recs = pre ++ rec :: post ∧ NoEmptyAppdata pre ∧
      rec.kind = .applicationData ∧ rec.body = []
  | [], h => absurd (fun _ hr => absurd hr List.not_mem_nil) h
  | rec :: recs, h => by
      by_cases hrec : rec.kind = .applicationData ∧ rec.body = []
      · exact ⟨[], rec, recs, rfl, fun _ hr => absurd hr List.not_mem_nil, hrec⟩
      · have hrecs : ¬ NoEmptyAppdata recs := fun hne => h fun r hr hk hb => by
          rcases List.mem_cons.mp hr with rfl | hr
          · exact hrec ⟨hk, hb⟩
          · exact hne r hr hk hb
        obtain ⟨pre, r, post, rfl, hpre, hr⟩ := exists_empty_of_not hrecs
        refine ⟨rec :: pre, r, post, rfl, fun r' hr' hk hb => ?_, hr⟩
        rcases List.mem_cons.mp hr' with rfl | hr'
        · exact hrec ⟨hk, hb⟩
        · exact hpre r' hr' hk hb

/-- An empty record is mistaken for the end. -/
theorem noEmptyAppdata_of_transparent {recs : List Record} (h : Transparent recs) :
    NoEmptyAppdata recs := by
  by_contra hempty
  obtain ⟨pre, rec, post, rfl, hpre, hk, hb⟩ := exists_empty_of_not hempty
  have hstart : Before (FakeTlsStream.new ⟨encodeAll (pre ++ rec :: post) ++ [0], fun _ => 0⟩)
      (rec.encode ++ (encodeAll post ++ [0])) (payloads pre) :=
    ⟨[], pre, hpre, rfl, by simp [FakeTlsStream.new], rfl⟩
  obtain ⟨s, hrun, hs⟩ := readexactly_takes hstart le_rfl
  rw [List.drop_length] at hs
  obtain ⟨out, s', hrun', hat, hwire, -, -⟩ := read_stops hs (stops_of_empty hk hb _) 1
  have hfaithful := h [0] (fun _ => 0) [.readexactly (payloads pre).length] (.read 1)
    (Or.inl (by simp)) (by simp [Call.Valid]) le_rfl (Or.inl (by simp))
  simp only [runCalls, Call.run, hrun, hrun', Faithful, hat.returned_eq_nil] at hfaithful
  rcases hfaithful with ⟨hne, -⟩ | ⟨-, -, hrest⟩
  · exact hne rfl
  · rw [hwire] at hrest
    simp at hrest

/-! ## What is emitted -/

/-- `wrap_tls_record` emits records of its data, none of them empty or too long. -/
lemma wrapTlsRecordFrom_eq (data : Bytes) (offset : ℕ) :
    ∃ recs, wrapTlsRecordFrom data offset = encodeAll recs ∧
      (∀ rec ∈ recs, rec.kind = .applicationData ∧ 1 ≤ rec.body.length ∧
        rec.body.length ≤ tlsAppdataMax) ∧
      payloads recs = data.drop offset := by
  induction offset using wrapTlsRecordFrom.induct data with
  | case1 offset hlt chunk ih =>
      obtain ⟨recs, henc, hsize, hpay⟩ := ih
      have hlen : chunk.length ≤ tlsAppdataMax ∧ 1 ≤ chunk.length := by
        simp only [chunk, length_slice, tlsAppdataMax]
        omega
      have hshort : chunk.length < 256 ^ 2 := hlen.1.trans_lt (by decide)
      refine ⟨⟨.applicationData, (0x03, 0x03), chunk, hshort⟩ :: recs, ?_, ?_, ?_⟩
      · rw [wrapTlsRecordFrom, if_pos hlt]
        simp only [chunk] at henc ⊢
        rw [henc]
        rfl
      · intro rec hrec
        rcases List.mem_cons.mp hrec with rfl | hrec
        · exact ⟨rfl, hlen.2, hlen.1⟩
        · exact hsize rec hrec
      · rw [payloads_cons, hpay, Record.payload]
        exact slice_append_drop data offset tlsAppdataMax
  | case2 offset hge =>
      refine ⟨[], ?_, fun _ h => absurd h List.not_mem_nil, ?_⟩
      · rw [wrapTlsRecordFrom, if_neg hge]
        rfl
      · rw [List.drop_eq_nil_of_le (not_lt.mp hge)]
        rfl

/-- What is wrapped is read back. -/
lemma flatten_wrapTlsRecord : ∀ ds : List Bytes,
    ∃ recs, (ds.map wrapTlsRecord).flatten = encodeAll recs ∧
      (∀ rec ∈ recs, rec.kind = .applicationData ∧ 1 ≤ rec.body.length ∧
        rec.body.length ≤ tlsAppdataMax) ∧
      payloads recs = ds.flatten
  | [] => ⟨[], rfl, fun _ h => absurd h List.not_mem_nil, rfl⟩
  | d :: ds => by
      obtain ⟨recs, henc, hsize, hpay⟩ := wrapTlsRecordFrom_eq d 0
      obtain ⟨recs', henc', hsize', hpay'⟩ := flatten_wrapTlsRecord ds
      refine ⟨recs ++ recs', ?_, fun rec hrec => ?_, ?_⟩
      · rw [List.map_cons, List.flatten_cons, henc', wrapTlsRecord, henc, encodeAll_append]
      · exact (List.mem_append.mp hrec).elim (hsize rec) (hsize' rec)
      · rw [payloads_append, hpay, hpay', List.drop_zero, List.flatten_cons]

/-- **Record boundaries.**  A list of ChangeCipherSpec and ApplicationData records is read as one
octet stream exactly when none of the latter is empty; what `wrap_tls_record` emits is such a list,
with records of legal size that carry the data. -/
theorem transparent_iff (recs : List Record) (ds : List Bytes) :
    (Transparent recs ↔ NoEmptyAppdata recs) ∧
      ∃ recs, (ds.map wrapTlsRecord).flatten = encodeAll recs ∧
        (∀ rec ∈ recs, rec.kind = .applicationData ∧ 1 ≤ rec.body.length ∧
          rec.body.length ≤ tlsAppdataMax) ∧
        payloads recs = ds.flatten ∧ Transparent recs := by
  refine ⟨⟨noEmptyAppdata_of_transparent, transparent_of_noEmptyAppdata⟩, ?_⟩
  obtain ⟨recs, henc, hsize, hpay⟩ := flatten_wrapTlsRecord ds
  refine ⟨recs, henc, hsize, hpay, transparent_of_noEmptyAppdata fun rec hrec _ hb => ?_⟩
  have hpos := (hsize rec hrec).2.1
  rw [hb] at hpos
  exact absurd hpos (by decide)

/-- An empty record before one octet of data. -/
def emptyRecordFirst : List Record :=
  [⟨.applicationData, (0x03, 0x03), [], by decide⟩,
    ⟨.applicationData, (0x03, 0x03), [7], by decide⟩]

/-- The first read of it returns nothing. -/
theorem not_transparent_emptyRecordFirst : ¬ Transparent emptyRecordFirst := by
  intro h
  have hread := h [] (fun _ => 0) [] (.read 1) (Or.inl (by decide)) (by simp) le_rfl
    (Or.inl (by decide))
  have hnone : returned ((Call.read 1).run
      (FakeTlsStream.new ⟨encodeAll emptyRecordFirst ++ [], fun _ => 0⟩)).1 = [] := by
    decide +kernel
  rcases hread with ⟨hne, -⟩ | ⟨-, htotal, -⟩
  · exact hne hnone
  · exact absurd htotal (by decide)

end TgWsProxy
