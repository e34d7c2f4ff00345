import TgWsProxy.StreamReader

/-!
# TLS-shaped framing

`wrap_tls_record` and `FakeTlsStream` of `proxy/fake_tls.py`, over a transport that delivers its
octets in pieces of any size.

* `FakeTlsStream`, `wrapTlsRecord` — the code.
* `Record`, `encodeAll`, `payloads` — what is on the wire and what it carries.
* `readRecord_changeCipherSpec`, `readRecord_applicationData` — what a record is read as.
-/

namespace TgWsProxy

open Wire

/-! ## The code -/

/-- `TLS_RECORD_CCS`. -/
def tlsRecordCcs : UInt8 := 0x14

/-- `TLS_RECORD_APPDATA`. -/
def tlsRecordAppdata : UInt8 := 0x17

/-- `TLS_APPDATA_MAX`. -/
def tlsAppdataMax : ℕ := 16384

/-- The loop of `wrap_tls_record` from `offset` on. -/
def wrapTlsRecordFrom (data : Bytes) (offset : ℕ) : Bytes :=
  if offset < data.length then
    let chunk := slice data offset (offset + tlsAppdataMax)
    [0x17, 0x03, 0x03] ++ beBytes 2 chunk.length ++ chunk
      ++ wrapTlsRecordFrom data (offset + chunk.length)
  else []
termination_by data.length - offset
decreasing_by
  simp only [length_slice, tlsAppdataMax]
  omega

/-- `wrap_tls_record(data)`. -/
def wrapTlsRecord (data : Bytes) : Bytes := wrapTlsRecordFrom data 0

/-- `FakeTlsStream`, the reading side. -/
structure FakeTlsStream where
  reader : StreamReader
  readBuf : Bytes
  readLeft : ℕ

namespace FakeTlsStream

/-- `FakeTlsStream(reader, writer)`. -/
def new (reader : StreamReader) : FakeTlsStream := ⟨reader, [], 0⟩

/-- The loop of `_read_tls_payload`: skip ChangeCipherSpec records up to the next one, and take
what has arrived of it.  The result carries the new `_read_left`. -/
def readRecord (r : StreamReader) : Except IncompleteRead (Bytes × ℕ) × StreamReader :=
  match _h : r.readexactly 5 with
  | (.error e, r') => (.error e, r')
  | (.ok hdr, r') =>
      let rtype := hdr.headD 0
      let recLen := beNat (slice hdr 3 5)
      if rtype = tlsRecordCcs then
        if 0 < recLen then
          match _h' : r'.readexactly recLen with
          | (.error e, r'') => (.error e, r'')
          | (.ok _, r'') => readRecord r''
        else readRecord r'
      else if rtype ≠ tlsRecordAppdata then (.ok ([], 0), r')
      else
        let (data, r'') := r'.read (min recLen 65536)
        if data = [] then (.ok ([], 0), r'') else (.ok (data, recLen - data.length), r'')
termination_by r.wire.length
decreasing_by
  · obtain ⟨hw, hl⟩ := StreamReader.readexactly_eq_ok _h
    obtain ⟨hw', hl'⟩ := StreamReader.readexactly_eq_ok _h'
    simp only [hw, hw', List.length_append]
    omega
  · obtain ⟨hw, hl⟩ := StreamReader.readexactly_eq_ok _h
    simp only [hw, List.length_append]
    omega

/-- `_read_tls_payload`. -/
def readTlsPayload (s : FakeTlsStream) : Except IncompleteRead Bytes × FakeTlsStream :=
  if 0 < s.readLeft then
    let (data, r) := s.reader.read s.readLeft
    (.ok data, { s with reader := r, readLeft := s.readLeft - data.length })
  else
    match readRecord s.reader with
    | (.error e, r) => (.error e, { s with reader := r })
    | (.ok (data, left), r) => (.ok data, { s with reader := r, readLeft := left })

/-- `read(n)`. -/
def read (n : ℕ) (s : FakeTlsStream) : Except IncompleteRead Bytes × FakeTlsStream :=
  if s.readBuf ≠ [] then (.ok (s.readBuf.take n), { s with readBuf := s.readBuf.drop n })
  else
    match s.readTlsPayload with
    | (.error e, s) => (.error e, s)
    | (.ok payload, s) =>
        if n < payload.length then
          (.ok (payload.take n), { s with readBuf := s.readBuf ++ payload.drop n })
        else (.ok payload, s)

section Payload

variable {s : FakeTlsStream} {r : StreamReader} {data : Bytes}

lemma readTlsPayload_of_left (hleft : 0 < s.readLeft)
    (h : s.reader.read s.readLeft = (data, r)) :
    s.readTlsPayload
      = (.ok data, { s with reader := r, readLeft := s.readLeft - data.length }) := by
  rw [readTlsPayload, if_pos hleft, h]

lemma readTlsPayload_of_ok {left : ℕ} (hleft : s.readLeft = 0)
    (h : readRecord s.reader = (.ok (data, left), r)) :
    s.readTlsPayload = (.ok data, { s with reader := r, readLeft := left }) := by
  rw [readTlsPayload, if_neg (by omega), h]

lemma readTlsPayload_of_error {e : IncompleteRead} (hleft : s.readLeft = 0)
    (h : readRecord s.reader = (.error e, r)) :
    s.readTlsPayload = (.error e, { s with reader := r }) := by
  rw [readTlsPayload, if_neg (by omega), h]

end Payload

lemma readBuf_readTlsPayload (s : FakeTlsStream) : s.readTlsPayload.2.readBuf = s.readBuf := by
  unfold readTlsPayload
  split_ifs
  · rfl
  · split <;> rfl

/-- `readexactly(n)`: payloads are buffered until there are `n` octets; the error keeps them. -/
def readexactly (n : ℕ) (s : FakeTlsStream) : Except IncompleteRead Bytes × FakeTlsStream :=
  if s.readBuf.length < n then
    match _h : s.readTlsPayload with
    | (.error e, s') => (.error e, s')
    | (.ok [], s') => (.error ⟨s'.readBuf, n⟩, s')
    | (.ok (b :: bs), s') => readexactly n { s' with readBuf := s'.readBuf ++ b :: bs }
  else (.ok (s.readBuf.take n), { s with readBuf := s.readBuf.drop n })
termination_by n - s.readBuf.length
decreasing_by
  have hbuf := congrArg List.length (readBuf_readTlsPayload s)
  rw [_h] at hbuf
  simp only [List.length_append, List.length_cons] at hbuf ⊢
  omega

section Readexactly

variable {s s' : FakeTlsStream} {n : ℕ} (hlt : s.readBuf.length < n)

include hlt

lemma readexactly_of_error {e : IncompleteRead} (h : s.readTlsPayload = (.error e, s')) :
    s.readexactly n = (.error e, s') := by
  rw [readexactly, if_pos hlt]
  split <;> rename_i h' <;> rw [h] at h' <;> cases h'
  rfl

lemma readexactly_of_nil (h : s.readTlsPayload = (.ok [], s')) :
    s.readexactly n = (.error ⟨s'.readBuf, n⟩, s') := by
  rw [readexactly, if_pos hlt]
  split <;> rename_i h' <;> rw [h] at h' <;> cases h'
  rfl

lemma readexactly_of_payload {data : Bytes} (hne : data ≠ [])
    (h : s.readTlsPayload = (.ok data, s')) :
    s.readexactly n = readexactly n { s' with readBuf := s'.readBuf ++ data } := by
  rw [readexactly, if_pos hlt]
  split <;> rename_i h' <;> rw [h] at h' <;> cases h'
  · exact absurd rfl hne
  · rfl

end Readexactly

end FakeTlsStream

/-! ## Records -/

/-- The records a stream reads through. -/
inductive RecordKind
  | changeCipherSpec
  | applicationData
  deriving DecidableEq, Repr

/-- The content type octet. -/
def RecordKind.type : RecordKind → UInt8
  | .changeCipherSpec => tlsRecordCcs
  | .applicationData => tlsRecordAppdata

/-- A TLS record: its kind, version octets, and a body whose length fits the header. -/
structure Record where
  kind : RecordKind
  version : UInt8 × UInt8
  body : Bytes
  length_lt : body.length < 256 ^ 2

/-- The header of a record. -/
def Record.header (rec : Record) : Bytes :=
  [rec.kind.type, rec.version.1, rec.version.2] ++ beBytes 2 rec.body.length

def Record.encode (rec : Record) : Bytes := rec.header ++ rec.body

/-- What a record contributes to the stream. -/
def Record.payload (rec : Record) : Bytes :=
  match rec.kind with
  | .changeCipherSpec => []
  | .applicationData => rec.body

def encodeAll (recs : List Record) : Bytes := (recs.map Record.encode).flatten

def payloads (recs : List Record) : Bytes := (recs.map Record.payload).flatten

/-- No ApplicationData record is empty. -/
def NoEmptyAppdata (recs : List Record) : Prop :=
  ∀ rec ∈ recs, rec.kind = .applicationData → rec.body ≠ []

/-- What ends a list of records: too little for a header, or the header of another type. -/
def Ends (tail : Bytes) : Prop :=
  tail.length < 5 ∨ tail.headD 0 ≠ tlsRecordCcs ∧ tail.headD 0 ≠ tlsRecordAppdata

@[simp] lemma length_header (rec : Record) : rec.header.length = 5 := rfl

@[simp] lemma encodeAll_nil : encodeAll [] = [] := rfl

@[simp] lemma encodeAll_cons (rec : Record) (recs : List Record) :
    encodeAll (rec :: recs) = rec.encode ++ encodeAll recs := rfl

@[simp] lemma encodeAll_append (recs recs' : List Record) :
    encodeAll (recs ++ recs') = encodeAll recs ++ encodeAll recs' := by
  simp [encodeAll]

@[simp] lemma payloads_nil : payloads [] = [] := rfl

@[simp] lemma payloads_cons (rec : Record) (recs : List Record) :
    payloads (rec :: recs) = rec.payload ++ payloads recs := rfl

@[simp] lemma payloads_append (recs recs' : List Record) :
    payloads (recs ++ recs') = payloads recs ++ payloads recs' := by
  simp [payloads]

lemma NoEmptyAppdata.tail {rec : Record} {recs : List Record}
    (h : NoEmptyAppdata (rec :: recs)) : NoEmptyAppdata recs :=
  fun r hr => h r (List.mem_cons_of_mem _ hr)

/-! ## Reading records -/

namespace FakeTlsStream

/-- The header of a record is read as such. -/
lemma readexactly_header (rec : Record) (rest : Bytes) (ready : ℕ → ℕ) :
    StreamReader.readexactly 5 ⟨rec.header ++ rest, ready⟩ = (.ok rec.header, ⟨rest, ready⟩) :=
  StreamReader.readexactly_append rec.header rest ready

lemma beNat_header (rec : Record) : beNat (slice rec.header 3 5) = rec.body.length := by
  have h : slice rec.header 3 5 = beBytes 2 rec.body.length := rfl
  rw [h, beNat_beBytes_of_lt rec.length_lt]

lemma readRecord_of_error {r r' : StreamReader} {e : IncompleteRead}
    (h : r.readexactly 5 = (.error e, r')) : readRecord r = (.error e, r') := by
  rw [readRecord]
  split
  · rename_i h'
    rw [h] at h'
    obtain ⟨h1, rfl⟩ := Prod.mk.inj h'
    rw [Except.error.inj h1]
  · rename_i h'
    rw [h] at h'
    cases h'

/-- What follows a header that has been read. -/
lemma readRecord_of_readexactly {r r' : StreamReader} {hdr : Bytes}
    (h : r.readexactly 5 = (.ok hdr, r')) :
    readRecord r =
      if hdr.headD 0 = tlsRecordCcs then
        match r'.readexactly (beNat (slice hdr 3 5)) with
        | (.error e, r'') => (.error e, r'')
        | (.ok _, r'') => readRecord r''
      else if hdr.headD 0 ≠ tlsRecordAppdata then (.ok ([], 0), r')
      else
        let (data, r'') := r'.read (min (beNat (slice hdr 3 5)) 65536)
        if data = [] then (.ok ([], 0), r'')
        else (.ok (data, beNat (slice hdr 3 5) - data.length), r'') := by
  rw [readRecord]
  split
  · rename_i h'
    rw [h] at h'
    cases h'
  · rename_i h'
    obtain ⟨h1, rfl⟩ := Prod.mk.inj (h.symm.trans h')
    obtain rfl := Except.ok.inj h1
    by_cases hccs : hdr.headD 0 = tlsRecordCcs
    · simp only [if_pos hccs]
      by_cases hpos : 0 < beNat (slice hdr 3 5)
      · rw [if_pos hpos]
        split <;> rename_i h'' <;> rw [h'']
      · rw [if_neg hpos, Nat.eq_zero_of_not_pos hpos]
        rfl
    · simp only [if_neg hccs]

/-- A ChangeCipherSpec record is skipped. -/
lemma readRecord_changeCipherSpec {rec : Record} (hk : rec.kind = .changeCipherSpec)
    (rest : Bytes) (ready : ℕ → ℕ) :
    readRecord ⟨rec.encode ++ rest, ready⟩ = readRecord ⟨rest, ready⟩ := by
  have htype : rec.header.headD 0 = tlsRecordCcs := by simp [Record.header, hk, RecordKind.type]
  rw [Record.encode, List.append_assoc, readRecord_of_readexactly (readexactly_header _ _ _),
    if_pos htype, beNat_header, StreamReader.readexactly_append]

/-- Of an ApplicationData record, what has arrived of its body is taken. -/
lemma readRecord_applicationData {rec : Record} (hk : rec.kind = .applicationData)
    (rest : Bytes) (ready : ℕ → ℕ) :
    ∃ count, (rec.body ≠ [] → 0 < count) ∧ count ≤ rec.body.length ∧
      readRecord ⟨rec.encode ++ rest, ready⟩
        = (.ok (rec.body.take count, (rec.body.drop count).length),
            ⟨rec.body.drop count ++ rest, ready⟩) := by
  have htype : rec.header.headD 0 = tlsRecordAppdata := by
    simp [Record.header, hk, RecordKind.type]
  refine ⟨min rec.body.length (ready (rec.body ++ rest).length + 1), ?_, by omega, ?_⟩
  · intro hne
    have := List.length_pos_iff.mpr hne
    omega
  rw [Record.encode, List.append_assoc, readRecord_of_readexactly (readexactly_header _ _ _),
    if_neg (by rw [htype]; decide), if_neg (not_not.mpr htype), beNat_header,
    Nat.min_eq_left (rec.length_lt.le.trans_eq (by norm_num)), StreamReader.read]
  simp only
  generalize hcount : min rec.body.length (ready (rec.body ++ rest).length + 1) = count
  have hle : count ≤ rec.body.length := by omega
  rw [List.take_append_of_le_length hle, List.drop_append_of_le_length hle]
  split_ifs with hnil
  · have hbody : rec.body = [] := by
      rcases List.take_eq_nil_iff.mp hnil with h0 | h0
      · exact List.length_eq_zero_iff.mp (by omega)
      · exact h0
    simp [hbody]
  · rw [List.length_drop, List.length_take, Nat.min_eq_left hle]

end FakeTlsStream

end TgWsProxy
