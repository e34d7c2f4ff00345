import TgWsProxy.Core.Bytes
import TgWsProxy.H2.Transport.Connection

/-!
# Receive credit

* `ResponseStream.claims`, `Credited` — the bytes of a stream that are still to be returned to the
  peer, and what holds of them while the stream is open.
* `Books` — the streams of a connection against its map and the library, in the middle of a batch.
* `Books.consumed`, `Books.handle`, `Books.receive`, … — every operation keeps the books.
* **`receive_credit_conserved`** — no credit is lost, and a stream that has been read is open.
-/

namespace TgWsProxy.H2Transport

open Wire H2Library

variable {η : Type*} {lib : H2Library η} {m : H2Library.Meaning η}

/-! ## One stream -/

namespace ResponseStream

/-- The bytes that the program has not returned to the peer yet. -/
def claims (st : ResponseStream) : ℕ :=
  st.consumedCredit + (st.chunks.map Prod.snd).sum + st.handed.getD 0

/-- Neither ended, nor reset, nor closed. -/
def Open (st : ResponseStream) : Prop :=
  st.ended = false ∧ st.error = none ∧ st.closed = false

/-- Every byte that has come in is among the `returned` ones or is claimed, and what has been
consumed is held back only while there is more to be read. -/
structure Credited (st : ResponseStream) (returned : ℕ) : Prop where
  conserved : st.received = returned + st.claims
  small : st.consumedCredit < ioBatchSize
  drained : st.chunks = [] → st.handed = none → st.consumedCredit = 0
  chunks : ∀ p ∈ st.chunks, p.2 ≠ 0
  handed : st.handed ≠ some 0

lemma credited_new (j : ℕ) : (new j).Credited 0 :=
  ⟨rfl, Nat.two_pow_pos 16, fun _ _ => rfl, nofun, nofun⟩

end ResponseStream

/-! ## Streams and requests -/

namespace Connection

variable {s : Connection η} {c d : ℕ}

@[simp] lemma streamOf_goto (s : Connection η) (c d : ℕ) (p : Phase) :
    (s.goto c p).streamOf d = s.streamOf d := by
  simp only [streamOf, goto, List.getElem?_modify]
  cases s.requests[d]? with
  | none => rfl
  | some r =>
      simp only [Option.map_eq_map, Option.map_some, Option.bind_some]
      split_ifs <;> rfl

lemma streamOf_putStream_of_lt (hc : c < s.requests.length) (st : ResponseStream) (d : ℕ) :
    (s.putStream c st).streamOf d = if d = c then some st else s.streamOf d := by
  simp only [streamOf, putStream, List.getElem?_modify]
  by_cases h : d = c
  · subst h
    rw [List.getElem?_eq_getElem hc]
    simp
  · rw [if_neg h]
    cases s.requests[d]? with
    | none => rfl
    | some r => simp [Ne.symm h]

lemma lt_of_streamOf {st : ResponseStream} (h : s.streamOf c = some st) :
    c < s.requests.length := by
  obtain ⟨r, hr, -⟩ := Option.bind_eq_some_iff.mp h
  exact (List.getElem?_eq_some_iff.mp hr).1

lemma streamOf_putStream {st : ResponseStream} (h : s.streamOf c = some st)
    (st' : ResponseStream) (d : ℕ) :
    (s.putStream c st').streamOf d = if d = c then some st' else s.streamOf d :=
  streamOf_putStream_of_lt (lt_of_streamOf h) st' d

/-- A stream is stored over another. -/
lemma putStream_putStream (s : Connection η) (c : ℕ) (st st' : ResponseStream) :
    (s.putStream c st).putStream c st' = s.putStream c st' := by
  simp only [putStream, List.modify_modify_eq]
  rfl

@[simp] lemma streamOf_set (s : Connection η) (d : ℕ) : s.set.streamOf d = s.streamOf d := by
  unfold set
  split_ifs
  · rfl
  · simp only [streamOf, List.getElem?_map]
    cases s.requests[d]? <;> rfl

lemma set_eq (s : Connection η) : ∃ b rs, s.set = { s with changed := b, requests := rs } := by
  unfold set
  split_ifs
  · exact ⟨s.changed, s.requests, rfl⟩
  · exact ⟨_, _, rfl⟩

@[simp] lemma h2_set (s : Connection η) : s.set.h2 = s.h2 := by
  obtain ⟨b, rs, h⟩ := s.set_eq
  rw [h]

@[simp] lemma streams_set (s : Connection η) : s.set.streams = s.streams := by
  obtain ⟨b, rs, h⟩ := s.set_eq
  rw [h]

@[simp] lemma error_set (s : Connection η) : s.set.error = s.error := by
  obtain ⟨b, rs, h⟩ := s.set_eq
  rw [h]

@[simp] lemma reader_set (s : Connection η) : s.set.reader = s.reader := by
  obtain ⟨b, rs, h⟩ := s.set_eq
  rw [h]

lemma reader_stop (error : Failure) (s : Connection η) : (s.stop error).reader = .stopped := by
  rw [stop, fail]
  split_ifs
  · rfl
  · rw [reader_set]

end Connection

namespace H2Library.Calm

/-- A step that does not touch the library. -/
lemma refl (h : η) : lib.Calm m noStream nowhere h h :=
  ⟨id, fun _ => id, fun _ _ => id, fun _ _ => le_rfl, fun _ _ => rfl, fun _ _ => id, le_rfl⟩

lemma trans {h₁ h₂ h₃ : η} {closes : ℕ → Prop} {returns : Option ℕ → Prop}
    (h : lib.Calm m closes returns h₁ h₂) (h' : lib.Calm m closes returns h₂ h₃) :
    lib.Calm m closes returns h₁ h₃ :=
  ⟨fun ha => h'.alive (h.alive ha), fun j hj => h'.opened j (h.opened j hj),
    fun j hj hr => h'.receiving j hj (h.receiving j hj hr),
    fun i hi => (h.owed i hi).trans (h'.owed i hi),
    fun i hi => (h'.returned i hi).trans (h.returned i hi),
    fun j hj hw => h.window j hj (h'.window j (h.opened j hj) hw), h'.slots.trans h.slots⟩

/-- What closes and returns nothing closes and returns at most something. -/
lemma of_none {h h' : η} (hcalm : lib.Calm m noStream nowhere h h') (closes : ℕ → Prop)
    (returns : Option ℕ → Prop) : lib.Calm m closes returns h h' :=
  ⟨hcalm.alive, hcalm.opened, fun j _ => hcalm.receiving j (not_noStream j), fun i _ =>
      hcalm.owed i (not_nowhere i),
    fun i _ => hcalm.returned i (not_nowhere i), hcalm.window, hcalm.slots⟩

end H2Library.Calm

/-- The library refuses to return bytes on some stream, and not because that is closed. -/
def RefusesCredit (lib : H2Library η) : Prop :=
  ∃ n j h, (lib.incrementFlowControlWindow n (some j) h).1 = some .other

/-! ## The books -/

/-- The streams of a connection in the middle of a batch, with the events `es` still to be handled:
the map knows the streams that are not closed, the bytes that a stream claims can be returned, and
an open stream is credited unless an event to come closes it. -/
structure Books (m : H2Library.Meaning η) (es : List H2Event) (s : Connection η) : Prop where
  named : ∀ j c, s.streams.get? j = some c → ∃ st, s.streamOf c = some st ∧ st.streamId = j ∧
    st.closed = false ∧ m.opened s.h2 j
  listed : ∀ c st, s.streamOf c = some st → st.closed = false →
    s.streams.get? st.streamId = some c
  running : s.error = none → s.reader ≠ .stopped
  alive : s.reader ≠ .stopped → m.alive s.h2 ∨ .connectionTerminated ∈ es
  owed : ∀ c st, s.streamOf c = some st → st.closed = false → s.error = none →
    st.claims + flow (some st.streamId) es ≤ m.owed s.h2 (some st.streamId)
  credit : ∀ c st, s.streamOf c = some st → st.Open → s.error = none →
    (∃ e ∈ es, e.Dooms st.streamId) ∨ m.receiving s.h2 st.streamId ∧
      st.Credited (m.returned s.h2 (some st.streamId))

namespace Books

variable {es : List H2Event} {s s' : Connection η} {c : ℕ} {st st' : ResponseStream}

/-- Nothing that the books read has changed. -/
lemma frame (h : Books m es s) (hstreams : s'.streams = s.streams)
    (hof : ∀ c, s'.streamOf c = s.streamOf c) (herror : s'.error = s.error)
    (hreader : s'.reader = s.reader) (hh2 : s'.h2 = s.h2) : Books m es s' := by
  refine ⟨fun j c hj => ?_, fun c st hst hclosed => ?_, fun he => ?_, fun hr => ?_,
    fun c st hst hclosed he => ?_, fun c st hst hopen he => ?_⟩
  · rw [hof, hh2]
    exact h.named j c (hstreams ▸ hj)
  · rw [hstreams]
    exact h.listed c st ((hof c).symm.trans hst) hclosed
  · rw [hreader]
    exact h.running (herror ▸ he)
  · rw [hh2]
    exact h.alive (hreader ▸ hr)
  · rw [hh2]
    exact h.owed c st ((hof c).symm.trans hst) hclosed (herror ▸ he)
  · rw [hh2]
    exact h.credit c st ((hof c).symm.trans hst) hopen (herror ▸ he)

/-- An operation of the library that closes and returns nothing. -/
lemma calm (h : Books m es s) {h2 : η} (hcalm : lib.Calm m noStream nowhere s.h2 h2) :
    Books m es { s with h2 := h2 } := by
  refine ⟨fun j c hj => ?_, h.listed, h.running, fun hr => (h.alive hr).imp hcalm.alive id,
    fun c st hst hclosed he => (h.owed c st hst hclosed he).trans (hcalm.owed _ (not_nowhere _)),
    fun c st hst hopen he => (h.credit c st hst hopen he).imp id
      fun hc => ⟨hcalm.receiving _ (not_noStream _) hc.1,
        (hcalm.returned _ (not_nowhere _)).symm ▸ hc.2⟩⟩
  obtain ⟨st, hst, hid, hclosed, hopened⟩ := h.named j c hj
  exact ⟨st, hst, hid, hclosed, hcalm.opened j hopened⟩

lemma goto (h : Books m es s) (c : ℕ) (p : Phase) : Books m es (s.goto c p) :=
  h.frame rfl (fun d => s.streamOf_goto c d p) rfl rfl rfl

lemma set (h : Books m es s) : Books m es s.set :=
  h.frame s.streams_set s.streamOf_set s.error_set s.reader_set s.h2_set

lemma clear (h : Books m es s) : Books m es s.clear := h.frame rfl (fun _ => rfl) rfl rfl rfl

lemma flush (hlib : lib.Lawful m) (h : Books m es s) : Books m es (s.flush lib).2 :=
  h.calm (hlib.data_to_send s.h2)

/-- Two streams that are not closed have different identifiers. -/
lemma streamId_inj (h : Books m es s) {d : ℕ} {q : ResponseStream} (hst : s.streamOf c = some st)
    (hq : s.streamOf d = some q) (hclosed : st.closed = false) (hqc : q.closed = false)
    (hid : q.streamId = st.streamId) : d = c := by
  have hc := h.listed c st hst hclosed
  have hd := h.listed d q hq hqc
  rw [hid] at hd
  exact Option.some.inj (hd.symm.trans hc)

lemma opened (h : Books m es s) (hst : s.streamOf c = some st) (hclosed : st.closed = false) :
    m.opened s.h2 st.streamId := by
  obtain ⟨q, hq, hid, -, hopened⟩ := h.named _ _ (h.listed c st hst hclosed)
  exact hopened

/-- The open stream of one request changes, and bytes are returned on it. -/
lemma update (h : Books m es s) (hst : s.streamOf c = some st) (hsc : st.closed = false)
    (hid : st'.streamId = st.streamId) (hclosed : st'.closed = false) {h2 : η}
    (hcalm : lib.Calm m noStream (· = some st.streamId) s.h2 h2)
    (howed : s.error = none →
      st'.claims + flow (some st.streamId) es ≤ m.owed h2 (some st.streamId))
    (hcredit : st'.Open → s.error = none → (∃ e ∈ es, e.Dooms st.streamId) ∨
      m.receiving h2 st.streamId ∧ st'.Credited (m.returned h2 (some st.streamId))) :
    Books m es ({ s with h2 := h2 }.putStream c st') := by
  have hof : ∀ d, ({ s with h2 := h2 }.putStream c st').streamOf d =
      if d = c then some st' else s.streamOf d :=
    Connection.streamOf_putStream (s := { s with h2 := h2 }) hst st'
  refine ⟨fun j d hj => ?_, fun d q hq hqc => ?_, h.running,
    fun hr => (h.alive hr).imp hcalm.alive id, fun d q hq hqc he => ?_, fun d q hq hopen he => ?_⟩
  · obtain ⟨q, hq, rfl, hqc, hopened⟩ := h.named j d hj
    by_cases hdc : d = c
    · subst hdc
      obtain rfl := Option.some.inj (hq.symm.trans hst)
      exact ⟨st', (hof d).trans (if_pos rfl), hid, hclosed, hcalm.opened _ hopened⟩
    · exact ⟨q, ((hof d).trans (if_neg hdc)).trans hq, rfl, hqc, hcalm.opened _ hopened⟩
  all_goals
    rw [hof] at hq
    split_ifs at hq with hdc
  · obtain rfl := Option.some.inj hq
    subst hdc
    rw [hid]
    exact h.listed d st hst hsc
  · exact h.listed d q hq hqc
  · obtain rfl := Option.some.inj hq
    rw [hid]
    exact howed he
  · refine (h.owed d q hq hqc he).trans (hcalm.owed _ fun hqid => ?_)
    exact hdc (h.streamId_inj hst hq hsc hqc (Option.some.inj hqid))
  · obtain rfl := Option.some.inj hq
    rw [hid]
    exact hcredit hopen he
  · have hsame : m.returned h2 (some q.streamId) = m.returned s.h2 (some q.streamId) :=
      hcalm.returned _ fun hqid =>
        hdc (h.streamId_inj hst hq hsc hopen.2.2 (Option.some.inj hqid))
    exact (h.credit d q hq hopen he).imp id
      fun hc => ⟨hcalm.receiving _ (not_noStream _) hc.1, hsame.symm ▸ hc.2⟩

/-- The stream changes, and the library does not. -/
lemma put (lib : H2Library η) (h : Books m es s) (hst : s.streamOf c = some st)
    (hsc : st.closed = false)
    (hid : st'.streamId = st.streamId) (hclosed : st'.closed = false)
    (howed : s.error = none →
      st'.claims + flow (some st.streamId) es ≤ m.owed s.h2 (some st.streamId))
    (hcredit : st'.Open → s.error = none → (∃ e ∈ es, e.Dooms st.streamId) ∨
      m.receiving s.h2 st.streamId ∧ st'.Credited (m.returned s.h2 (some st.streamId))) :
    Books m es (s.putStream c st') := by
  have hcalm := @Calm.refl _ lib m s.h2
  exact h.update hst hsc hid hclosed (hcalm.of_none _ _) howed hcredit

/-- A stream whose chunk has just been consumed, `credit` bytes of which are still to be accounted
for. -/
structure Due (st : ResponseStream) (returned credit : ℕ) : Prop where
  conserved : st.received = returned + st.claims + credit
  small : st.consumedCredit < ioBatchSize
  drained : credit = 0 → st.chunks = [] → st.handed = none → st.consumedCredit = 0
  chunks : ∀ p ∈ st.chunks, p.2 ≠ 0
  handed : st.handed ≠ some 0

/-- **Credit that has been consumed** is returned, or kept while there is more to be read. -/
lemma consumed (hlib : lib.Lawful m) (h : Books m es s) (hst : s.streamOf c = some st)
    (hsc : st.closed = false) (st' : ResponseStream) (hid : st'.streamId = st.streamId)
    (hclosed : st'.closed = false) {credit : ℕ} (halive : s.error = none → m.alive s.h2)
    (howed : s.error = none →
      st'.claims + credit + flow (some st.streamId) es ≤ m.owed s.h2 (some st.streamId))
    (hcredit : st'.Open → s.error = none → (∃ e ∈ es, e.Dooms st.streamId) ∨
      m.receiving s.h2 st.streamId ∧ Due st' (m.returned s.h2 (some st.streamId)) credit) :
    ∃ refused s', (s.putStream c st').consumed lib c credit = (refused, s') ∧ Books m es s' ∧
      (∃ q, s'.streamOf c = some q ∧ q.handed = st'.handed) ∧ s'.reader = s.reader ∧
      m.returned s'.h2 none = m.returned s.h2 none ∧ m.owed s.h2 none ≤ m.owed s'.h2 none ∧
      (m.alive s.h2 → m.alive s'.h2) ∧ (refused ≠ none → RefusesCredit lib) := by
  have hstored : ∀ (h2 : η) (q : ResponseStream),
      ({ s with h2 := h2 }.putStream c q).streamOf c = some q := fun h2 q =>
    (Connection.streamOf_putStream (s := { s with h2 := h2 }) hst q c).trans (if_pos rfl)
  have hof : (s.putStream c st').streamOf c = some st' := hstored s.h2 st'
  have hstored' : ∀ (h2 : η) (q : ResponseStream),
      (({ s with h2 := h2 }.putStream c st').putStream c q).streamOf c = some q := fun h2 q => by
    rw [Connection.putStream_putStream, hstored]
  rw [Connection.consumed, hof]
  dsimp only
  by_cases hcond : credit ≠ 0 ∧ st'.ended = false ∧ st'.closed = false ∧
      (s.putStream c st').error = none
  · rw [if_pos hcond]
    obtain ⟨hne, hended, -, he⟩ := hcond
    replace he : s.error = none := he
    have hh2 : (s.putStream c st').h2 = s.h2 := rfl
    obtain ⟨n, hn⟩ : ∃ n, st'.consumedCredit + credit = n := ⟨_, rfl⟩
    have hclaims := howed he
    rw [ResponseStream.claims] at hclaims
    have hle : n ≤ m.owed s.h2 (some st.streamId) := by omega
    rw [hn, hh2]
    by_cases hwait : st'.chunks ≠ [] ∧ n < ioBatchSize
    · -- it is kept, for there is more to be read
      rw [if_pos hwait, Connection.putStream_putStream]
      refine ⟨none, _, rfl, h.put lib hst hsc hid hclosed (fun _ => ?_) fun hopen _ => ?_,
        ⟨_, hstored s.h2 _, rfl⟩, rfl, rfl, le_rfl, id, fun hnone => absurd rfl hnone⟩
      · rw [ResponseStream.claims]
        dsimp only
        omega
      · refine (hcredit hopen he).imp id fun ⟨hrec, hdue⟩ => ⟨hrec, ?_, hwait.2,
          fun hnil => absurd hnil hwait.1, hdue.chunks, hdue.handed⟩
        have hconserved := hdue.conserved
        rw [ResponseStream.claims] at hconserved ⊢
        dsimp only
        omega
    · rw [if_neg hwait]
      have hcalm := hlib.increment n (some st'.streamId) s.h2
      have hreturn := hlib.increment_owed n (some st'.streamId) s.h2
      have hpaid := hlib.increment_returned n (some st'.streamId) s.h2
      have hreceiving := fun hrec => hlib.increment_receiving s.h2 n st'.streamId (halive he)
        (by omega) (hid ▸ hle) hrec
      obtain ⟨result, hresult⟩ :
          ∃ r, lib.incrementFlowControlWindow n (some st'.streamId) s.h2 = r :=
        ⟨_, rfl⟩
      rw [hresult] at hcalm hreturn hpaid hreceiving ⊢
      rw [hid] at hcalm hreturn hpaid hreceiving
      obtain ⟨refused, h2⟩ := result
      dsimp only at hcalm hreturn hpaid hreceiving
      -- a refusal: the stream is closed to the peer, and an event to come says so
      have hkept : refused ≠ none → Books m es ({ s with h2 := h2 }.putStream c
          { st' with consumedCredit := n }) := by
        intro hsome
        refine h.update hst hsc ?_ ?_ hcalm (fun _ => ?_) fun hopen _ => ?_
        · exact hid
        · exact hclosed
        · rw [if_neg hsome] at hreturn
          rw [ResponseStream.claims]
          dsimp only
          omega
        · refine (hcredit hopen he).imp id fun ⟨hrec, hdue⟩ => ?_
          exact absurd (hreceiving (hid ▸ hrec)) hsome
      match refused with
      | none =>
          -- it is returned
          have hput : Books m es ({ s with h2 := h2 }.putStream c
              { st' with consumedCredit := 0 }) := by
            refine h.update hst hsc ?_ ?_ hcalm (fun _ => ?_) fun hopen _ => ?_
            · exact hid
            · exact hclosed
            · rw [if_pos rfl] at hreturn
              rw [ResponseStream.claims]
              dsimp only
              omega
            · refine (hcredit hopen he).imp id fun ⟨hrec, hdue⟩ =>
                ⟨hcalm.receiving _ (not_noStream _) hrec, ?_, Nat.two_pow_pos 16, fun _ _ => rfl,
                  hdue.chunks, hdue.handed⟩
              have hconserved := hdue.conserved
              rw [if_pos rfl] at hpaid
              rw [ResponseStream.claims] at hconserved ⊢
              dsimp only
              omega
          have hflush := hput.flush hlib
          rw [← Connection.putStream_putStream { s with h2 := h2 } c st'] at hflush
          refine ⟨none, _, rfl, hflush, ⟨_, hstored' _ _, rfl⟩, rfl, ?_, ?_, fun ha => ?_,
            fun hnone => absurd rfl hnone⟩
          · exact ((hlib.data_to_send h2).returned none (not_nowhere _)).trans
              (hcalm.returned none (by simp))
          · exact (hcalm.owed none (by simp)).trans
              ((hlib.data_to_send h2).owed none (not_nowhere _))
          · exact (hlib.data_to_send h2).alive (hcalm.alive ha)
      | some .streamClosed =>
          have hput := hkept nofun
          rw [← Connection.putStream_putStream { s with h2 := h2 } c st'] at hput
          exact ⟨none, _, rfl, hput, ⟨_, hstored' _ _, rfl⟩, rfl, hcalm.returned none (by simp),
            hcalm.owed none (by simp), hcalm.alive, fun hnone => absurd rfl hnone⟩
      | some .other =>
          have hput := hkept nofun
          rw [← Connection.putStream_putStream { s with h2 := h2 } c st'] at hput
          exact ⟨some .other, _, rfl, hput, ⟨_, hstored' _ _, rfl⟩, rfl,
            hcalm.returned none (by simp), hcalm.owed none (by simp), hcalm.alive,
            fun _ => ⟨n, _, s.h2, by rw [hresult]⟩⟩
  · rw [if_neg hcond]
    refine ⟨none, _, rfl, h.put lib hst hsc hid hclosed (fun he => ?_) fun hopen he => ?_,
      ⟨_, hof, rfl⟩, rfl, rfl, le_rfl, id, fun hnone => absurd rfl hnone⟩
    · have := howed he
      omega
    · have hzero : credit = 0 := by
        by_contra hne
        exact hcond ⟨hne, hopen.1, hclosed, he⟩
      refine (hcredit hopen he).imp id fun ⟨hrec, hdue⟩ => ⟨hrec, ?_, hdue.small,
        hdue.drained hzero, hdue.chunks, hdue.handed⟩
      rw [hdue.conserved, hzero, Nat.add_zero]

/-- A stream that is closed may change as long as it stays closed. -/
lemma put_closed (h : Books m es s) (hst : s.streamOf c = some st) (hsc : st.closed = true)
    (hclosed : st'.closed = true) : Books m es (s.putStream c st') := by
  have hof := Connection.streamOf_putStream hst st'
  refine ⟨fun j d hj => ?_, fun d q hq hqc => ?_, h.running, h.alive, fun d q hq hqc he => ?_,
    fun d q hq hopen he => ?_⟩
  · obtain ⟨q, hq, hid, hqc, hopened⟩ := h.named j d hj
    refine ⟨q, (hof d).trans ((if_neg ?_).trans hq), hid, hqc, hopened⟩
    rintro rfl
    rw [Option.some.inj (hq.symm.trans hst), hsc] at hqc
    cases hqc
  all_goals
    rw [hof] at hq
    split_ifs at hq
  · rw [← Option.some.inj hq, hclosed] at hqc
    cases hqc
  · exact h.listed d q hq hqc
  · rw [← Option.some.inj hq, hclosed] at hqc
    cases hqc
  · exact h.owed d q hq hqc he
  · have hnot := hopen.2.2
    rw [← Option.some.inj hq, hclosed] at hnot
    cases hnot
  · exact h.credit d q hq hopen he

/-- The stream of one request is closed and leaves the map. -/
lemma close (h : Books m es s) (hst : s.streamOf c = some st) (hsc : st.closed = false)
    (st' : ResponseStream) (hclosed : st'.closed = true)
    (hstreams : s'.streams = s.streams.erase st.streamId)
    (hof : ∀ d, s'.streamOf d = if d = c then some st' else s.streamOf d)
    (herror : s'.error = s.error) (hreader : s'.reader = s.reader)
    (hcalm : lib.Calm m (· = st.streamId) nowhere s.h2 s'.h2) : Books m es s' := by
  have hother : ∀ {d q}, d ≠ c → s.streamOf d = some q → q.closed = false →
      q.streamId ≠ st.streamId := fun hdc hq hqc hid => hdc (h.streamId_inj hst hq hsc hqc hid)
  refine ⟨fun j d hj => ?_, fun d q hq hqc => ?_, fun he => ?_, fun hr => ?_,
    fun d q hq hqc he => ?_, fun d q hq hopen he => ?_⟩
  · rw [hstreams, Dict.get?_eq_some, Dict.mem_entries_erase] at hj
    obtain ⟨q, hq, rfl, hqc, hopened⟩ := h.named j d (Dict.get?_eq_some.mpr hj.1)
    refine ⟨q, (hof d).trans ((if_neg ?_).trans hq), rfl, hqc, hcalm.opened _ hopened⟩
    rintro rfl
    obtain rfl := Option.some.inj (hq.symm.trans hst)
    exact hj.2 rfl
  · rw [hof] at hq
    split_ifs at hq with hdc
    · rw [← Option.some.inj hq, hclosed] at hqc
      cases hqc
    · rw [hstreams, Dict.get?_eq_some, Dict.mem_entries_erase]
      exact ⟨Dict.get?_eq_some.mp (h.listed d q hq hqc), hother hdc hq hqc⟩
  · rw [hreader]
    exact h.running (herror ▸ he)
  · exact (h.alive (hreader ▸ hr)).imp hcalm.alive id
  · rw [hof] at hq
    split_ifs at hq with hdc
    · rw [← Option.some.inj hq, hclosed] at hqc
      cases hqc
    · exact (h.owed d q hq hqc (herror ▸ he)).trans (hcalm.owed _ (not_nowhere _))
  · rw [hof] at hq
    split_ifs at hq with hdc
    · have hnot := hopen.2.2
      rw [← Option.some.inj hq, hclosed] at hnot
      cases hnot
    · exact (h.credit d q hq hopen (herror ▸ he)).imp id fun hc =>
        ⟨hcalm.receiving _ (hother hdc hq hopen.2.2) hc.1,
          (hcalm.returned _ (not_nowhere _)).symm ▸ hc.2⟩

end Books

/-- What `release` leaves behind. -/
lemma release_spec (hlib : lib.Lawful m) (j : ℕ) (s : Connection η) :
    (s.release lib j).streams = s.streams.erase j ∧
      (∀ d, (s.release lib j).streamOf d = s.streamOf d) ∧ (s.release lib j).error = s.error ∧
      (s.release lib j).reader = s.reader ∧
      lib.Calm m (· = j) nowhere s.h2 (s.release lib j).h2 := by
  have hreset := hlib.reset_stream j s.h2
  rw [Connection.release]
  dsimp only
  split_ifs with he
  · split
    · rename_i h2 heq
      rw [heq] at hreset
      have hboth := hreset.trans ((hlib.data_to_send h2).of_none (· = j) nowhere)
      refine ⟨Connection.streams_set _, Connection.streamOf_set _, Connection.error_set _,
        Connection.reader_set _, ?_⟩
      rw [Connection.h2_set]
      exact hboth
    · rename_i h2 heq
      rw [heq] at hreset
      refine ⟨Connection.streams_set _, Connection.streamOf_set _, Connection.error_set _,
        Connection.reader_set _, ?_⟩
      rw [Connection.h2_set]
      exact hreset
    · rename_i h2 heq
      rw [heq] at hreset
      exact ⟨rfl, fun _ => rfl, rfl, rfl, hreset⟩
  · refine ⟨Connection.streams_set _, Connection.streamOf_set _, Connection.error_set _,
      Connection.reader_set _, ?_⟩
    rw [Connection.h2_set]
    exact (Calm.refl s.h2).of_none _ _

namespace Books

variable {es : List H2Event} {s s' : Connection η} {c : ℕ} {st st' : ResponseStream}

lemma acloseStream (hlib : lib.Lawful m) (h : Books m es s) (c : ℕ) :
    Books m es (s.acloseStream lib c) := by
  rw [Connection.acloseStream]
  split
  · exact h
  · rename_i st hst
    split_ifs with hsc
    · exact h
    · obtain ⟨hstreams, hof, herror, hreader, hcalm⟩ := release_spec hlib st.streamId
        (s.putStream c { st with closed := true, chunks := [] })
      refine h.close hst (Bool.eq_false_iff.mpr hsc) { st with closed := true, chunks := [] } rfl
        hstreams (fun d => ?_) herror hreader hcalm
      rw [hof]
      exact Connection.streamOf_putStream hst _ d

lemma abandon (hlib : lib.Lawful m) (h : Books m es s) (c : ℕ) : Books m es (s.abandon lib c) :=
  (h.acloseStream hlib c).goto c .failed

/-- Once the connection has failed, nothing is owed. -/
lemma of_error (h : Books m es s) {es' : List H2Event} (hstreams : s'.streams = s.streams)
    (hof : ∀ d, ∃ f : ResponseStream → ResponseStream, s'.streamOf d = (s.streamOf d).map f ∧
      ∀ st, (f st).streamId = st.streamId ∧ (f st).closed = st.closed)
    (herror : s'.error ≠ none) (hopened : ∀ j, m.opened s.h2 j → m.opened s'.h2 j)
    (halive : s'.reader ≠ .stopped → m.alive s'.h2 ∨ .connectionTerminated ∈ es') :
    Books m es' s' := by
  refine ⟨fun j d hj => ?_, fun d q hq hqc => ?_, fun he => absurd he herror, halive,
    fun _ _ _ _ he => absurd he herror, fun _ _ _ _ he => absurd he herror⟩
  · obtain ⟨q, hq, hid, hqc, ho⟩ := h.named j d (hstreams ▸ hj)
    obtain ⟨f, hf, hkeep⟩ := hof d
    exact ⟨f q, by rw [hf, hq]; rfl, (hkeep q).1.trans hid, (hkeep q).2.trans hqc, hopened j ho⟩
  · obtain ⟨f, hf, hkeep⟩ := hof d
    rw [hf] at hq
    obtain ⟨q', hq', rfl⟩ := Option.map_eq_some_iff.mp hq
    rw [hstreams, (hkeep q').1]
    exact h.listed d q' hq' ((hkeep q').2 ▸ hqc)

lemma fail (h : Books m es s) (error : Failure) {es' : List H2Event}
    (hopened : ∀ j, m.opened s.h2 j → m.opened s'.h2 j) (hstreams : s'.streams = s.streams)
    (hof : ∀ d, s'.streamOf d = s.streamOf d)
    (halive : s'.reader ≠ .stopped → m.alive s'.h2 ∨ .connectionTerminated ∈ es') :
    Books m es' (s'.fail error) := by
  rw [Connection.fail]
  split_ifs with he
  · refine h.of_error hstreams (fun d => ⟨id, ?_, fun st => ⟨rfl, rfl⟩⟩) he hopened halive
    rw [Option.map_id]
    exact hof d
  · refine h.of_error ((Connection.streams_set _).trans hstreams) (fun d => ?_) ?_ (fun j => ?_)
      fun hr => ?_
    · refine ⟨fun st => if d ∈ s'.streams.values ∧ st.ended = false then
        { st with error := some error } else st, ?_, fun st => ?_⟩
      · rw [Connection.streamOf_set, ← hof]
        simp only [Connection.streamOf, List.getElem?_mapIdx]
        cases s'.requests[d]? <;> rfl
      · dsimp only
        split_ifs <;> exact ⟨rfl, rfl⟩
    · rw [Connection.error_set]
      nofun
    · rw [Connection.h2_set]
      exact hopened j
    · rw [Connection.h2_set]
      rw [Connection.reader_set] at hr
      exact halive hr

lemma stop (h : Books m es s) (error : Failure) : Books m [] (s.stop error) :=
  h.fail error (fun _ => id) rfl (fun _ => rfl) fun hr => absurd rfl hr

/-! ## A batch -/

variable {e : H2Event}

lemma flow_cons (i : Option ℕ) (e : H2Event) (es : List H2Event) :
    H2Transport.flow i (e :: es) = e.flow i + H2Transport.flow i es := by
  rw [H2Transport.flow, List.map_cons, List.sum_cons, H2Transport.flow]

/-- An event has been handled that closes no open stream. -/
lemma drop (h : Books m (e :: es) s) (hne : e ≠ .connectionTerminated)
    (hnot : ∀ c st, s.streamOf c = some st → st.Open → ¬ e.Closes st.streamId) : Books m es s := by
  refine ⟨h.named, h.listed, h.running, fun hr => (h.alive hr).imp id fun hmem => ?_,
    fun c st hst hsc he => ?_, fun c st hst hopen he => ?_⟩
  · exact (List.mem_cons.mp hmem).resolve_left (Ne.symm hne)
  · have hflow := h.owed c st hst hsc he
    rw [flow_cons] at hflow
    omega
  · refine (h.credit c st hst hopen he).imp ?_ id
    rintro ⟨e', hmem, hdooms⟩
    refine ⟨e', (List.mem_cons.mp hmem).resolve_left ?_, hdooms⟩
    rintro rfl
    exact hdooms.elim (hnot c st hst hopen) hne

/-- The stream that the map has under an identifier. -/
lemma found (h : Books m es s) {j : ℕ} {p : ℕ × ResponseStream}
    (hp : (s.streams.get? j).bind (fun c => (s.streamOf c).map (c, ·)) = some p) :
    s.streamOf p.1 = some p.2 ∧ p.2.streamId = j ∧ p.2.closed = false := by
  obtain ⟨c, hc, hmap⟩ := Option.bind_eq_some_iff.mp hp
  obtain ⟨st, hst, rfl⟩ := Option.map_eq_some_iff.mp hmap
  obtain ⟨q, hq, hid, hqc, -⟩ := h.named j c hc
  obtain rfl := Option.some.inj (hst.symm.trans hq)
  exact ⟨hst, hid, hqc⟩

lemma not_found (h : Books m es s) {j : ℕ}
    (hp : (s.streams.get? j).bind (fun c => (s.streamOf c).map (c, ·)) = none)
    (hst : s.streamOf c = some st)
    (hsc : st.closed = false) : st.streamId ≠ j := by
  rintro rfl
  rw [h.listed c st hst hsc, Option.bind_some, hst] at hp
  cases hp

/-- What the reader keeps on its way through a batch. -/
structure Passes (m : H2Library.Meaning η) (es : List H2Event) (s s' : Connection η) : Prop where
  books : Books m es s'
  reader : s'.reader = s.reader
  returned : m.returned s'.h2 none = m.returned s.h2 none
  alive : m.alive s.h2 → m.alive s'.h2
  owed : m.owed s.h2 none ≤ m.owed s'.h2 none

/-- An event that the library has no part in. -/
lemma Passes.of_books (h : Books m es s') (hh2 : s'.h2 = s.h2) (hreader : s'.reader = s.reader) :
    Passes m es s s' :=
  ⟨h, hreader, by rw [hh2], fun ha => hh2 ▸ ha, by rw [hh2]⟩

/-- DATA for a stream: its bytes are claimed, or accounted for at once. -/
lemma handle_data (hlib : lib.Lawful m) {j n : ℕ} {data : List UInt8}
    (h : Books m (.dataReceived j data n :: es) s) {terminated : Bool} (credit : ℕ)
    (hterm : terminated = true ↔ .connectionTerminated ∈ es)
    (halive : terminated = false → m.alive s.h2) (hdata : data.length ≤ n) :
    ∃ s', (s.handle lib terminated credit (.dataReceived j data n) =
        .go (if n ≠ 0 ∧ terminated = false then credit + n else credit) s' ∨
      s.handle lib terminated credit (.dataReceived j data n) = .raised s' ∧ RefusesCredit lib) ∧
      Passes m es s s' := by
  have hdrop : Books m es s := by
    refine h.drop nofun fun c st hst hopen hcloses => ?_
    rcases hcloses with heq | ⟨code, heq⟩
    · cases heq
    · cases heq
  rw [Connection.handle]
  dsimp only
  generalize (if n ≠ 0 ∧ terminated = false then credit + n else credit) = credit'
  split
  · exact ⟨s, .inl rfl, .of_books hdrop rfl rfl⟩
  rename_i c st hfound
  obtain ⟨hst, hid, hsc⟩ := h.found hfound
  dsimp only at hst hid hsc
  have hslack : s.error = none →
      st.claims + n + H2Transport.flow (some st.streamId) es ≤ m.owed s.h2 (some st.streamId) := by
    intro he
    have hflow := h.owed c st hst hsc he
    rw [flow_cons, H2Event.flow, if_pos (.inr (by rw [hid]))] at hflow
    omega
  split_ifs with hempty hgoing
  · -- a payload
    refine ⟨_, .inl rfl, .of_books (hdrop.put lib hst hsc ?_ ?_ (fun he => ?_)
      fun hopen he => ?_) rfl rfl⟩
    · rfl
    · exact hsc
    · have := hslack he
      rw [ResponseStream.claims] at this ⊢
      simp only [List.map_append, List.sum_append, List.map_singleton, List.sum_singleton]
      omega
    · refine (hdrop.credit c st hst hopen he).imp id fun ⟨hrec, hcred⟩ => ⟨hrec, ?_, hcred.small,
        ?_, ?_, hcred.handed⟩
      · have hconserved := hcred.conserved
        rw [ResponseStream.claims] at hconserved ⊢
        simp only [List.map_append, List.sum_append, List.map_singleton, List.sum_singleton]
        omega
      · intro hnil
        exact absurd hnil (by simp)
      · intro p hp
        rcases List.mem_append.mp hp with hp | hp
        · exact hcred.chunks p hp
        · rw [List.mem_singleton.mp hp]
          have := List.length_pos_of_ne_nil hempty
          dsimp only
          omega
  · -- padding only
    obtain ⟨refused, s', hs', hbooks, -, hreader, hreturned, howed, ha, hrefuses⟩ :=
      hdrop.consumed hlib hst hsc { st with received := st.received + n } rfl hsc
        (fun _ => halive hgoing) hslack fun hopen he =>
          (hdrop.credit c st hst hopen he).imp id fun ⟨hrec, hcred⟩ => ⟨hrec,
            by rw [hcred.conserved]; rfl, hcred.small, fun _ => hcred.drained, hcred.chunks,
            hcred.handed⟩
    rw [hs']
    cases refused with
    | none => exact ⟨s', .inl rfl, hbooks, hreader, hreturned, ha, howed⟩
    | some refused =>
        exact ⟨s', .inr ⟨rfl, hrefuses nofun⟩, hbooks, hreader, hreturned, ha, howed⟩
  · -- padding only, ahead of a GOAWAY in the same batch
    have hmem : .connectionTerminated ∈ es := hterm.mp (Bool.not_eq_false _ ▸ hgoing)
    refine ⟨_, .inl rfl, .of_books (hdrop.put lib hst hsc ?_ ?_ (fun he => ?_)
      fun hopen he => ?_) rfl rfl⟩
    · rfl
    · exact hsc
    · have := hslack he
      rw [ResponseStream.claims] at this ⊢
      dsimp only
      omega
    · exact .inl ⟨_, hmem, .inr rfl⟩

/-- An event that no stream is closed by. -/
lemma drop_other (h : Books m (e :: es) s) (hne : e ≠ .connectionTerminated)
    (hcloses : ∀ j, ¬ e.Closes j) : Books m es s :=
  h.drop hne fun _ st _ _ => hcloses st.streamId

/-- The event that closes stream `j` has been handled, and the stream is not open. -/
lemma drop_closing (h : Books m (e :: es) s) (hne : e ≠ .connectionTerminated) {j : ℕ}
    (hcloses : ∀ i, e.Closes i → i = j)
    (hnot : ∀ c st, s.streamOf c = some st → st.streamId = j → ¬ st.Open) : Books m es s :=
  h.drop hne fun c st hst hopen hc => hnot c st hst (hcloses _ hc) hopen

/-- The stream of an identifier is no longer open. -/
lemma put_closing (lib : H2Library η) (h : Books m (e :: es) s) (hst : s.streamOf c = some st)
    (hsc : st.closed = false) (hne : e ≠ .connectionTerminated)
    (hcloses : ∀ i, e.Closes i → i = st.streamId) (st' : ResponseStream)
    (hid : st'.streamId = st.streamId) (hclosed : st'.closed = false)
    (hclaims : st'.claims = st.claims) (hnot : ¬ st'.Open) : Books m es (s.putStream c st') := by
  have hput : Books m (e :: es) (s.putStream c st') :=
    h.put lib hst hsc hid hclosed (fun he => by rw [hclaims]; exact h.owed c st hst hsc he)
      fun hopen => absurd hopen hnot
  refine hput.drop_closing hne hcloses fun d q hq hqid hopen => ?_
  have hq' := hq
  rw [Connection.streamOf_putStream hst] at hq'
  split_ifs at hq' with hdc
  · rw [← Option.some.inj hq'] at hopen
    exact hnot hopen
  · exact hdc (h.streamId_inj hst hq' hsc hopen.2.2 hqid)

/-- An event about a stream that the map does not have. -/
lemma drop_not_found (h : Books m (e :: es) s) (hne : e ≠ .connectionTerminated) {j : ℕ}
    (hcloses : ∀ i, e.Closes i → i = j)
    (hp : (s.streams.get? j).bind (fun c => (s.streamOf c).map (c, ·)) = none) : Books m es s :=
  h.drop_closing hne hcloses fun _ _ hst hid hopen => h.not_found hp hst hopen.2.2 hid

/-- One event: it is accounted for, or it is a GOAWAY, or the library refuses what it must not. -/
lemma handle (hlib : lib.Lawful m) (h : Books m (e :: es) s) {terminated : Bool} (credit : ℕ)
    (hterm : terminated = true ↔ .connectionTerminated ∈ e :: es)
    (halive : terminated = false → m.alive s.h2)
    (hdata : ∀ j data n, e = .dataReceived j data n → data.length ≤ n) :
    e = .connectionTerminated ∧ s.handle lib terminated credit e = .raised s ∨
      ∃ credit' s', e ≠ .connectionTerminated ∧
        (s.handle lib terminated credit e = .go credit' s' ∨
          s.handle lib terminated credit e = .raised s' ∧ RefusesCredit lib) ∧ Passes m es s s' ∧
        (terminated = false → credit' = credit + e.flow none) := by
  cases e with
  | connectionTerminated => exact .inl ⟨rfl, rfl⟩
  | remoteSettingsChanged =>
      have hdrop := h.drop_other nofun fun j => by simp [H2Event.Closes]
      have hset : Books m es { s with settingsReceived := true } :=
        hdrop.frame rfl (fun _ => rfl) rfl rfl rfl
      exact .inr ⟨credit, _, nofun, .inl rfl, .of_books hset.set (Connection.h2_set _)
        (Connection.reader_set _), fun _ => rfl⟩
  | windowUpdated j =>
      have hdrop := h.drop_other nofun fun j => by simp [H2Event.Closes]
      exact .inr ⟨credit, _, nofun, .inl rfl, .of_books hdrop.set (Connection.h2_set _)
        (Connection.reader_set _), fun _ => rfl⟩
  | dataReceived j data n =>
      have hterm' : terminated = true ↔ .connectionTerminated ∈ es := by
        rw [hterm, List.mem_cons, or_iff_right nofun]
      obtain ⟨s', hs', hpasses⟩ := h.handle_data hlib credit hterm' halive (hdata j data n rfl)
      refine .inr ⟨_, s', nofun, hs', hpasses, fun hgoing => ?_⟩
      rw [H2Event.flow, if_pos (Or.inl rfl : none = none ∨ none = some j)]
      split_ifs with hn
      · rfl
      · have hzero : n = 0 := by
          by_contra hne
          exact hn ⟨hne, hgoing⟩
        rw [hzero, Nat.add_zero]
  | responseReceived j headers =>
      have hdrop := h.drop_other nofun fun j => by simp [H2Event.Closes]
      rw [Connection.handle]
      split
      · exact .inr ⟨credit, s, nofun, .inl rfl, .of_books hdrop rfl rfl, fun _ => rfl⟩
      · rename_i c st hfound
        obtain ⟨hst, hid, hsc⟩ := h.found hfound
        have hput : Books m es (s.putStream c { st with headers := some headers }) :=
          hdrop.put lib hst hsc rfl hsc (hdrop.owed c st hst hsc) fun hopen he =>
            (hdrop.credit c st hst hopen he).imp id fun ⟨hrec, hcred⟩ =>
              ⟨hrec, hcred.conserved, hcred.small, hcred.drained, hcred.chunks, hcred.handed⟩
        exact .inr ⟨credit, _, nofun, .inl rfl, .of_books hput rfl rfl, fun _ => rfl⟩
  | streamEnded j =>
      have hcloses : ∀ i, (H2Event.streamEnded j).Closes i → i = j := by
        intro i hi
        simpa [H2Event.Closes, eq_comm] using hi
      rw [Connection.handle]
      split
      · rename_i hfound
        exact .inr ⟨credit, s, nofun, .inl rfl,
          .of_books (h.drop_not_found nofun hcloses hfound) rfl rfl, fun _ => rfl⟩
      · rename_i c st hfound
        obtain ⟨hst, hid, hsc⟩ := h.found hfound
        have hput : Books m es (s.putStream c { st with ended := true }) :=
          h.put_closing lib hst hsc nofun (fun i hi => (hcloses i hi).trans hid.symm) _ rfl hsc rfl
            fun hopen => by cases hopen.1
        exact .inr ⟨credit, _, nofun, .inl rfl, .of_books hput rfl rfl, fun _ => rfl⟩
  | streamReset j code =>
      have hcloses : ∀ i, (H2Event.streamReset j code).Closes i → i = j := by
        intro i hi
        simpa [H2Event.Closes, eq_comm] using hi
      rw [Connection.handle]
      split
      · rename_i hfound
        exact .inr ⟨credit, s, nofun, .inl rfl,
          .of_books (h.drop_not_found nofun hcloses hfound) rfl rfl, fun _ => rfl⟩
      · rename_i c st hfound
        obtain ⟨hst, hid, hsc⟩ := h.found hfound
        have hput : Books m es (s.putStream c { st with error := some .remoteProtocolError }) :=
          h.put_closing lib hst hsc nofun (fun i hi => (hcloses i hi).trans hid.symm) _ rfl hsc rfl
            fun hopen => by cases hopen.2.1
        exact .inr ⟨credit, _, nofun, .inl rfl, .of_books hput.set (Connection.h2_set _)
          (Connection.reader_set _), fun _ => rfl⟩
  | other j =>
      have hdrop := h.drop_other nofun fun j => by simp [H2Event.Closes]
      exact .inr ⟨credit, s, nofun, .inl rfl, .of_books hdrop rfl rfl, fun _ => rfl⟩

/-- **A batch.**  It ends at a GOAWAY or at a refusal, or its bytes are counted. -/
lemma handleAll (hlib : lib.Lawful m) {terminated : Bool} :
    ∀ {es : List H2Event} {s : Connection η} (credit : ℕ), Books m es s →
      (terminated = true ↔ .connectionTerminated ∈ es) → (terminated = false → m.alive s.h2) →
      (∀ j data n, .dataReceived j data n ∈ es → data.length ≤ n) →
      (∃ es' s', Connection.handleAll lib terminated es credit s = .raised s' ∧ Books m es' s' ∧
        (terminated = true ∨ RefusesCredit lib)) ∨
      terminated = false ∧ ∃ s', Connection.handleAll lib terminated es credit s =
        .go (credit + H2Transport.flow none es) s' ∧ Passes m [] s s'
  | [], s, credit, h, hterm, halive, hdata => by
      have hgoing : terminated ≠ true := fun ht => List.not_mem_nil (hterm.mp ht)
      exact .inr ⟨Bool.eq_false_iff.mpr hgoing, s, rfl, .of_books h rfl rfl⟩
  | e :: es, s, credit, h, hterm, halive, hdata => by
      rw [Connection.handleAll]
      rcases h.handle hlib credit hterm halive
        (fun j data n he => hdata j data n (he ▸ List.mem_cons_self)) with
        ⟨rfl, hraised⟩ | ⟨credit', s', hne, hgo | ⟨hraised, hrefuses⟩, hpasses, hcredit⟩
      · rw [hraised]
        exact .inl ⟨_, s, rfl, h, .inl (hterm.mpr List.mem_cons_self)⟩
      · have hterm' : terminated = true ↔ .connectionTerminated ∈ es := by
          rw [hterm, List.mem_cons, or_iff_right hne.symm]
        have hrest := handleAll hlib credit' hpasses.books hterm'
            (fun ht => hpasses.alive (halive ht))
          fun j data n hmem => hdata j data n (List.mem_cons_of_mem _ hmem)
        rw [hgo]
        dsimp only
        refine hrest.imp id ?_
        rintro ⟨ht, s'', hgo', hpasses'⟩
        rw [hcredit ht] at hgo'
        refine ⟨ht, s'', ?_, hpasses'.books, hpasses'.reader.trans hpasses.reader,
          hpasses'.returned.trans hpasses.returned, fun ha => hpasses'.alive (hpasses.alive ha),
          hpasses.owed.trans hpasses'.owed⟩
        rw [hcredit ht, hgo', flow_cons, Nat.add_assoc]
      · rw [hraised]
        exact .inl ⟨es, s', rfl, hpasses.books, .inr hrefuses⟩

lemma turn_reader (h : Books m [] s) (hr : s.reader ≠ .stopped) {r : Reader}
    (hrun : s.error = none → r ≠ .stopped) : Books m [] { s with reader := r } :=
  ⟨h.named, h.listed, hrun, fun _ => h.alive hr, h.owed, h.credit⟩

lemma next (h : Books m [] s) (hr : s.reader ≠ .stopped) : Books m [] s.next := by
  refine h.turn_reader hr fun he => ?_
  rw [if_pos he]
  nofun

/-- **Behind a batch** its bytes are returned on the connection. -/
lemma settle (hlib : lib.Lawful m) (h : Books m [] s) (hr : s.reader ≠ .stopped) {credit : ℕ}
    (howed : credit ≤ m.owed s.h2 none) :
    Books m [] (s.settle lib credit) ∧
      m.returned (s.settle lib credit).h2 none = m.returned s.h2 none + credit := by
  have hfinish : ∀ {t t₁ : Connection η} {b}, Books m [] t → t.reader ≠ .stopped →
      t.flush lib = (b, t₁) → ∀ {t'}, t' = { t₁ with reader := .draining } ∨ t' = t₁.next →
        Books m [] t' ∧ m.returned t'.h2 none = m.returned t.h2 none := by
    intro t t₁ b ht hrt hflushed t' ht'
    have hflush := ht.flush hlib
    have hreturned : m.returned (t.flush lib).2.h2 none = m.returned t.h2 none :=
      (hlib.data_to_send t.h2).returned none (not_nowhere _)
    have hreader : (t.flush lib).2.reader = t.reader := rfl
    rw [hflushed] at hflush hreturned hreader
    rw [← hreader] at hrt
    rcases ht' with rfl | rfl
    · exact ⟨hflush.turn_reader hrt (by rintro - ⟨⟩), hreturned⟩
    · exact ⟨hflush.next hrt, hreturned⟩
  rw [Connection.settle]
  dsimp only
  split_ifs with hzero
  · subst hzero
    split <;> rename_i hflushed
    · exact hfinish h hr hflushed (.inl rfl)
    · exact hfinish h hr hflushed (.inr rfl)
  · have hcalm := hlib.increment credit none s.h2
    have hpaid := hlib.increment_returned credit none s.h2
    have hnone : (lib.incrementFlowControlWindow credit none s.h2).1 = none :=
      hlib.increment_connection s.h2 credit ((h.alive hr).resolve_right (List.not_mem_nil))
        (Nat.pos_of_ne_zero hzero) howed
    split
    · rename_i h2 heq
      rw [heq] at hcalm hpaid
      replace hpaid : m.returned h2 none = m.returned s.h2 none + credit := hpaid
      have hnamed : Books m [] { s with h2 := h2 } := by
        refine ⟨fun j c hj => ?_, h.listed, h.running, fun hr => (h.alive hr).imp hcalm.alive id,
          fun c st hst hsc he => (h.owed c st hst hsc he).trans (hcalm.owed _ (by simp)),
          fun c st hst hopen he => (h.credit c st hst hopen he).imp id fun hc =>
            ⟨hcalm.receiving _ (not_noStream _) hc.1,
              (hcalm.returned (some st.streamId) (by simp)).symm ▸ hc.2⟩⟩
        obtain ⟨st, hst, hid, hsc, hopened⟩ := h.named j c hj
        exact ⟨st, hst, hid, hsc, hcalm.opened j hopened⟩
      rw [← hpaid]
      split <;> rename_i hflushed
      · exact hfinish hnamed hr hflushed (.inl rfl)
      · exact hfinish hnamed hr hflushed (.inr rfl)
    · rename_i heq
      rw [heq] at hnone
      cases hnone

/-- **A read of the reader.** -/
lemma receive (hlib : lib.Lawful m) (h : Books m [] s) (hr : s.reader = .reading)
    (data : List UInt8) :
    Books m [] (s.receive lib data) ∧ ∀ events h2, data ≠ [] →
      lib.receiveData data s.h2 = (some events, h2) → .connectionTerminated ∉ events →
        m.returned (s.receive lib data).h2 none =
            m.returned s.h2 none + H2Transport.flow none events ∨
          (s.receive lib data).reader = .stopped ∧ RefusesCredit lib := by
  have hopened := hlib.receive_opened data s.h2
  have halive : m.alive s.h2 :=
    (h.alive (by rw [hr]; nofun)).resolve_right (List.not_mem_nil)
  rw [Connection.receive]
  split_ifs with hnil
  · exact ⟨h.stop _, fun _ _ hne => absurd hnil hne⟩
  split
  · rename_i h2 heq
    rw [heq] at hopened
    exact ⟨h.fail _ hopened rfl (fun _ => rfl) fun hr => absurd rfl hr,
      fun events h2' _ hsome => by cases heq.symm.trans hsome⟩
  · rename_i events h2 heq
    rw [heq] at hopened
    have hbatch : Books m events { s with h2 := h2 } := by
      refine ⟨fun j c hj => ?_, h.listed, h.running, fun _ => ?_, fun c st hst hsc he => ?_,
        fun c st hst hopen he => ?_⟩
      · obtain ⟨st, hst, hid, hsc, ho⟩ := h.named j c hj
        exact ⟨st, hst, hid, hsc, hopened j ho⟩
      · by_cases hmem : .connectionTerminated ∈ events
        · exact .inr hmem
        · exact .inl (hlib.receive_alive data s.h2 events h2 heq halive hmem)
      · have howed := h.owed c st hst hsc he
        have hmore := hlib.receive_owed data s.h2 events h2 heq (some st.streamId)
        rw [H2Transport.flow, List.map_nil, List.sum_nil] at howed
        show _ ≤ m.owed h2 _
        omega
      · by_cases hdoomed : ∃ e ∈ events, e.Dooms st.streamId
        · exact .inl hdoomed
        · obtain ⟨hrec, hcred⟩ := (h.credit c st hst hopen he).resolve_left (by simp)
          have hsame := hlib.receive_returned data s.h2 (some st.streamId)
          rw [heq] at hsame
          refine .inr ⟨hlib.receive_receiving data s.h2 events h2 heq halive (fun hmem => ?_) _ hrec
            fun e hmem hcloses => ?_, hsame.symm ▸ hcred⟩
          · exact hdoomed ⟨_, hmem, .inr rfl⟩
          · exact hdoomed ⟨e, hmem, .inl hcloses⟩
    have hiff : decide (.connectionTerminated ∈ events) = true ↔ .connectionTerminated ∈ events :=
      decide_eq_true_iff
    have hall := hbatch.handleAll hlib 0 hiff (fun ht =>
        hlib.receive_alive data s.h2 events h2 heq halive
        (of_decide_eq_false ht)) fun j d n hmem =>
            hlib.receive_data data s.h2 events h2 heq j d n hmem
    rcases hall with ⟨es', s', hraised, hbooks, hwhy⟩ | ⟨-, s', hgo, hpasses⟩
    · rw [hraised]
      refine ⟨hbooks.stop _, fun events' h2' _ hsome hnot => ?_⟩
      obtain ⟨rfl, rfl⟩ : events = events' ∧ h2 = h2' := by
        simpa using heq.symm.trans hsome
      refine .inr ⟨Connection.reader_stop .., hwhy.resolve_left fun hterm => ?_⟩
      exact hnot (of_decide_eq_true hterm)
    · rw [hgo, Nat.zero_add]
      have hbatch := hlib.receive_owed data s.h2 events h2 heq none
      have hsame := hlib.receive_returned data s.h2 none
      rw [heq] at hsame
      obtain ⟨hbooks, hreturned⟩ := hpasses.books.settle hlib (s := s')
        (by rw [hpasses.reader]; exact hr ▸ nofun)
        (((Nat.le_add_left _ _).trans hbatch).trans hpasses.owed)
      refine ⟨hbooks, fun events' h2' _ hsome _ => .inl ?_⟩
      obtain ⟨rfl, rfl⟩ : events = events' ∧ h2 = h2' := by
        simpa using heq.symm.trans hsome
      rw [hreturned, hpasses.returned]
      exact congrArg (· + H2Transport.flow none events) hsame

/-! ## Requests -/

/-- A stream that has just been opened. -/
lemma open_stream (h : Books m [] s) (hlt : c < s.requests.length) (hnone : s.streamOf c = none)
    {j : ℕ} (hfresh : ¬ m.opened s.h2 j) {h2 : η} (hcalm : lib.Calm m noStream nowhere s.h2 h2)
    (hopened : m.opened h2 j) (hreceiving : m.receiving h2 j)
    (hreturned : m.returned h2 (some j) = 0) :
    Books m [] ({ s with h2 := h2, streams := s.streams.set j c }.putStream c (.new j)) := by
  have hof : ∀ d, ({ s with h2 := h2, streams := s.streams.set j c }.putStream c
      (.new j)).streamOf d =
      if d = c then some (.new j) else s.streamOf d :=
    Connection.streamOf_putStream_of_lt
      (s := { s with h2 := h2, streams := s.streams.set j c }) hlt (.new j)
  have hother : ∀ {d q}, s.streamOf d = some q → d ≠ c := by
    rintro d q hq rfl
    cases hnone.symm.trans hq
  have hdifferent : ∀ {d q}, s.streamOf d = some q → q.closed = false → q.streamId ≠ j := by
    rintro d q hq hqc rfl
    exact hfresh (h.opened hq hqc)
  refine ⟨fun i d hi => ?_, fun d q hq hqc => ?_, h.running,
    fun hr => (h.alive hr).imp hcalm.alive id, fun d q hq hqc he => ?_, fun d q hq hopen he => ?_⟩
  · rcases Dict.mem_entries_set.mp (Dict.get?_eq_some.mp hi) with heq | ⟨hmem, -⟩
    · obtain ⟨hij, hdc⟩ := Prod.mk.inj heq
      exact ⟨.new j, (hof d).trans (if_pos hdc), hij.symm, rfl, hij ▸ hopened⟩
    · obtain ⟨q, hq, hid, hqc, ho⟩ := h.named i d (Dict.get?_eq_some.mpr hmem)
      exact ⟨q, (hof d).trans ((if_neg (hother hq)).trans hq), hid, hqc, hcalm.opened _ ho⟩
  all_goals
    rw [hof] at hq
    split_ifs at hq with hdc
  · obtain rfl := Option.some.inj hq
    exact Dict.get?_eq_some.mpr (Dict.mem_entries_set.mpr (.inl (by rw [hdc]; rfl)))
  · exact Dict.get?_eq_some.mpr (Dict.mem_entries_set.mpr
      (.inr ⟨Dict.get?_eq_some.mp (h.listed d q hq hqc), hdifferent hq hqc⟩))
  · obtain rfl := Option.some.inj hq
    exact Nat.zero_le _
  · exact (h.owed d q hq hqc he).trans (hcalm.owed _ (not_nowhere _))
  · obtain rfl := Option.some.inj hq
    exact .inr ⟨hreceiving, hreturned.symm ▸ ResponseStream.credited_new j⟩
  · exact (h.credit d q hq hopen he).imp id fun hc =>
      ⟨hcalm.receiving _ (not_noStream _) hc.1, (hcalm.returned _ (not_nowhere _)).symm ▸ hc.2⟩

/-- A stream that could not be opened has left the map again. -/
lemma discard (h : Books m [] s) (st : ResponseStream) (hnone : s.streamOf c = none)
    {j : ℕ} (hfresh : ¬ m.opened s.h2 j) (hcalm : lib.Calm m (· = j) nowhere s.h2 s'.h2)
    (hstreams : s'.streams = (s.streams.set j c).erase j)
    (hof : ∀ d, s'.streamOf d = if d = c then some st else s.streamOf d)
    (hclosed : st.closed = true)
    (herror : s'.error = s.error) (hreader : s'.reader = s.reader) : Books m [] s' := by
  have hdifferent : ∀ {d q}, s.streamOf d = some q → q.closed = false → q.streamId ≠ j := by
    rintro d q hq hqc rfl
    exact hfresh (h.opened hq hqc)
  have hkeep : ∀ {d q}, s'.streamOf d = some q → q.closed = false → s.streamOf d = some q := by
    intro d q hq hqc
    rw [hof] at hq
    split_ifs at hq
    · rw [← Option.some.inj hq, hclosed] at hqc
      cases hqc
    · exact hq
  refine ⟨fun i d hi => ?_, fun d q hq hqc => ?_, fun he => ?_, fun hr => ?_,
    fun d q hq hqc he => ?_, fun d q hq hopen he => ?_⟩
  · rw [hstreams, Dict.get?_eq_some, Dict.mem_entries_erase, Dict.mem_entries_set] at hi
    obtain ⟨q, hq, hid, hqc, ho⟩ :=
      h.named i d (Dict.get?_eq_some.mpr (hi.1.resolve_left fun heq => hi.2 (Prod.mk.inj heq).1).1)
    refine ⟨q, (hof d).trans ((if_neg ?_).trans hq), hid, hqc, hcalm.opened _ ho⟩
    rintro rfl
    cases hnone.symm.trans hq
  · have hq' := hkeep hq hqc
    rw [hstreams, Dict.get?_eq_some, Dict.mem_entries_erase, Dict.mem_entries_set]
    exact ⟨.inr ⟨Dict.get?_eq_some.mp (h.listed d q hq' hqc), hdifferent hq' hqc⟩,
      hdifferent hq' hqc⟩
  · rw [hreader]
    exact h.running (herror ▸ he)
  · exact (h.alive (hreader ▸ hr)).imp hcalm.alive id
  · exact (h.owed d q (hkeep hq hqc) hqc (herror ▸ he)).trans (hcalm.owed _ (not_nowhere _))
  · have hq' := hkeep hq hopen.2.2
    exact (h.credit d q hq' hopen (herror ▸ he)).imp id fun hc =>
      ⟨hcalm.receiving _ (hdifferent hq' hopen.2.2) hc.1,
        (hcalm.returned _ (not_nowhere _)).symm ▸ hc.2⟩

lemma close_unopened (hlib : lib.Lawful m) (h : Books m [] s) (hlt : c < s.requests.length)
    (hnone : s.streamOf c = none) {j : ℕ} (hfresh : ¬ m.opened s.h2 j) {h2 : η}
    (hcalm : lib.Calm m noStream nowhere s.h2 h2) :
    Books m [] (({ s with h2 := h2, streams := s.streams.set j c }.putStream c
        (.new j)).acloseStream
      lib c) := by
  obtain ⟨t, ht⟩ : ∃ t : Connection η,
      ({ s with h2 := h2, streams := s.streams.set j c } : Connection η).putStream c (.new j) = t :=
    ⟨_, rfl⟩
  have hput : ∀ d, t.streamOf d = if d = c then some (.new j) else s.streamOf d := by
    intro d
    rw [← ht]
    exact Connection.streamOf_putStream_of_lt
      (s := { s with h2 := h2, streams := s.streams.set j c }) hlt (.new j) d
  have hnew : t.streamOf c = some (.new j) := (hput c).trans (if_pos rfl)
  have hopen : ¬ (ResponseStream.new j).closed = true := nofun
  rw [ht, Connection.acloseStream, hnew]
  dsimp only
  rw [if_neg hopen]
  obtain ⟨hstreams, hkeep, herror, hreader, hrelease⟩ := release_spec hlib
    (ResponseStream.new j).streamId
    (t.putStream c { ResponseStream.new j with closed := true, chunks := [] })
  have hh2 : t.h2 = h2 := ht ▸ rfl
  refine h.discard { ResponseStream.new j with closed := true, chunks := [] } hnone hfresh
    ((hcalm.of_none _ _).trans (hh2 ▸ hrelease)) (hstreams.trans (ht ▸ rfl)) (fun d => ?_) rfl
    (herror.trans (ht ▸ rfl)) (hreader.trans (ht ▸ rfl))
  refine (hkeep d).trans ?_
  rw [Connection.streamOf_putStream hnew, hput]
  split_ifs <;> rfl

variable {cfg : Config} {r : Request}

/-- **The end of `reserve`.** -/
lemma reserveTurn (hlib : lib.Lawful m) (h : Books m [] s) (hr : s.requests[c]? = some r)
    (hnone : r.stream = none) : Books m [] (s.reserveTurn lib cfg c r) := by
  have hclear := h.clear
  have hlt : c < s.requests.length := (List.getElem?_eq_some_iff.mp hr).1
  have hof : s.streamOf c = none := by rw [Connection.streamOf, hr, Option.bind_some, hnone]
  rw [Connection.reserveTurn]
  dsimp only
  split_ifs with he hroom
  · exact hclear.goto _ _
  · split
    · exact hclear.goto _ _
    · rename_i j hj
      have hfresh := hlib.fresh s.clear.h2 j hj
      have hopens := hlib.opens s.clear.h2 j hj
      have hcalm := hlib.send_headers j s.clear.h2
      split
      · rename_i h2 heq
        replace heq : lib.sendHeaders j s.clear.h2 = (none, h2) := heq
        rw [heq] at hopens hcalm
        obtain ⟨hopened, hreceiving⟩ := hopens rfl
        have hreturned : m.returned h2 (some j) = 0 :=
          (hcalm.returned _ (not_nowhere _)).trans (hlib.fresh_returned _ j hfresh)
        exact ((hclear.open_stream hlt hof hfresh hcalm hopened hreceiving hreturned).flush
          hlib).goto _ _
      · rename_i refused h2 heq
        replace heq : lib.sendHeaders j s.clear.h2 = (some refused, h2) := heq
        rw [heq] at hcalm
        exact (hclear.close_unopened hlib hlt hof hfresh hcalm).goto _ _
  · exact hclear.goto _ _

lemma calm_sendFrames (hlib : lib.Lawful m) (j size : ℕ) : ∀ (fuel count : ℕ) (h : η),
    lib.Calm m noStream nowhere h (Connection.sendFrames lib j size fuel count h).2
  | 0, _, h => Calm.refl h
  | fuel + 1, count, h => by
      have hcalm := hlib.send_data j (min size count) h
      rw [Connection.sendFrames]
      split_ifs
      · exact Calm.refl h
      · split
        · rename_i h2 heq
          rw [heq] at hcalm
          exact hcalm.trans (calm_sendFrames hlib j size fuel _ h2)
        · rename_i heq
          rw [heq] at hcalm
          exact hcalm

lemma sendTurn (hlib : lib.Lawful m) (h : Books m [] s) (c left : ℕ) (st : ResponseStream) :
    Books m [] (s.sendTurn lib cfg c left st) := by
  have hclear := h.clear
  rw [Connection.sendTurn]
  dsimp only
  split_ifs with hleft herror
  · exact h.goto _ _
  · exact hclear.abandon hlib _
  · split
    · exact hclear.abandon hlib _
    · rename_i window hwindow
      split_ifs
      · exact hclear.goto _ _
      · have hcalm := calm_sendFrames hlib st.streamId (lib.maxOutboundFrameSize s.clear.h2)
          (min (min left ioBatchSize) window.toNat) (min (min left ioBatchSize) window.toNat)
          s.clear.h2
        split
        · rename_i h2 heq
          rw [heq] at hcalm
          exact ((hclear.calm hcalm).flush hlib).goto _ _
        · rename_i h2 heq
          rw [heq] at hcalm
          exact (hclear.calm hcalm).abandon hlib _

lemma endBody (hlib : lib.Lawful m) (h : Books m [] s) (c : ℕ) (st : ResponseStream) :
    Books m [] (s.endBody lib c st) := by
  have hcalm := hlib.end_stream st.streamId s.h2
  rw [Connection.endBody]
  split
  · rename_i h2 heq
    rw [heq] at hcalm
    exact ((h.calm hcalm).flush hlib).goto _ _
  · rename_i h2 heq
    rw [heq] at hcalm
    exact (h.calm hcalm).abandon hlib _

lemma respond (hlib : lib.Lawful m) (h : Books m [] s) (c : ℕ) (st : ResponseStream) :
    Books m [] (s.respond lib c st) := by
  rw [Connection.respond]
  split_ifs
  · exact h.abandon hlib c
  · exact h
  · exact h.goto _ _

/-- **The next chunk** is handed to the consumer. -/
lemma iterate (lib : H2Library η) (h : Books m [] s) (c : ℕ)
    (hhanded : ∀ st, s.streamOf c = some st → st.closed = false → st.handed = none) :
    Books m [] (s.iterate c) := by
  rw [Connection.iterate]
  split
  · exact h
  rename_i st hst
  by_cases hstop : st.closed ∨ st.error ≠ none
  · rw [if_pos hstop]
    exact h.goto _ _
  rw [if_neg hstop]
  rw [not_or, Bool.not_eq_true] at hstop
  obtain ⟨hsc, herror⟩ := hstop
  have hnone := hhanded st hst hsc
  split
  · rename_i data credit chunks hchunks
    have hclaims : { st with chunks := chunks, handed := some credit }.claims = st.claims := by
      rw [ResponseStream.claims, ResponseStream.claims, hchunks, hnone,
          List.map_cons, List.sum_cons]
      simp only [Option.getD_some, Option.getD_none]
      omega
    refine h.put lib hst hsc ?_ ?_ (fun he => ?_) fun hopen he => ?_
    · rfl
    · exact hsc
    · rw [hclaims]
      exact h.owed c st hst hsc he
    · refine (h.credit c st hst hopen he).imp id fun ⟨hrec, hcred⟩ => ⟨hrec, ?_, hcred.small, ?_,
        fun p hp => hcred.chunks p (hchunks ▸ List.mem_cons_of_mem _ hp), fun hzero => ?_⟩
      · rw [hclaims]
        exact hcred.conserved
      · rintro - ⟨⟩
      · refine hcred.chunks (data, credit) (hchunks ▸ List.mem_cons_self) ?_
        exact Option.some.inj hzero
  · split_ifs
    · exact h.goto _ _
    · exact h

/-- **The consumer of a response** has dealt with the chunk in its hands, and wants the next. -/
lemma readNext (hlib : lib.Lawful m) (h : Books m [] s) (hst : s.streamOf c = some st) :
    Books m [] (s.readNext lib c st) := by
  rw [Connection.readNext]
  split
  · rename_i hnone
    refine h.iterate lib c fun q hq _ => ?_
    rw [Option.some.inj (hq.symm.trans hst)]
    exact hnone
  · rename_i credit hhanded
    by_cases hsc : st.closed = true
    · -- the credit of a stream that is closed is nobody's
      have hput : Books m [] (s.putStream c { st with handed := none }) :=
        h.put_closed hst hsc hsc
      have hof : (s.putStream c { st with handed := none }).streamOf c =
          some { st with handed := none } :=
        (Connection.streamOf_putStream hst _ c).trans (if_pos rfl)
      rw [Connection.consumed, hof]
      dsimp only
      rw [if_neg fun hcond => by rw [hsc] at hcond; cases hcond.2.2.1]
      refine hput.iterate lib c fun q hq _ => ?_
      rw [← Option.some.inj (hof.symm.trans hq)]
    · rw [Bool.not_eq_true] at hsc
      have hclaims : st.claims = { st with handed := none }.claims + credit := by
        rw [ResponseStream.claims, ResponseStream.claims, hhanded]
        rfl
      have howed : s.error = none → { st with handed := none }.claims + credit +
          H2Transport.flow (some st.streamId) [] ≤ m.owed s.h2 (some st.streamId) := by
        rw [← hclaims]
        exact h.owed c st hst hsc
      have hdue : ∀ {returned}, st.Credited returned →
          Due { st with handed := none } returned credit := by
        intro returned hcred
        refine ⟨?_, hcred.small, fun hzero => ?_, hcred.chunks, nofun⟩
        · rw [Nat.add_assoc, ← hclaims]
          exact hcred.conserved
        · rw [hzero] at hhanded
          exact absurd hhanded hcred.handed
      obtain ⟨refused, s', hs', hbooks, ⟨q, hq, hnone⟩, -⟩ :=
        h.consumed hlib hst hsc { st with handed := none } rfl hsc
          (fun he => (h.alive (h.running he)).resolve_right List.not_mem_nil) howed
          fun hopen he => (h.credit c st hst hopen he).imp id fun hc => ⟨hc.1, hdue hc.2⟩
      rw [hs']
      cases refused with
      | none =>
          refine hbooks.iterate lib c fun q' hq' _ => ?_
          rw [Option.some.inj (hq'.symm.trans hq)]
          exact hnone
      | some refused => exact hbooks.goto _ _

lemma readTimedOut (h : Books m [] s) (c : ℕ) : Books m [] (s.readTimedOut c) := by
  rw [Connection.readTimedOut]
  split_ifs
  · exact h
  · exact h.fail _ (fun _ => id) rfl (fun _ => rfl) h.alive

end Books

/-! ## Steps -/

variable {cfg : Config} {s s' : Connection η}

lemma books_starting (h : Starting m s) : Books m [] s := by
  obtain ⟨halive, hstreams, -, -, herror, hreader, hrequests⟩ := h
  have hof : ∀ c, s.streamOf c = none := by
    intro c
    rw [Connection.streamOf, hrequests]
    rfl
  refine ⟨fun j c hj => ?_, fun c st hst => ?_, fun _ => hreader ▸ nofun, fun _ => .inl halive,
    fun c st hst => ?_, fun c st hst => ?_⟩
  · rw [hstreams] at hj
    cases hj
  all_goals
    rw [hof] at hst
    cases hst

/-- **Every step keeps the books.** -/
lemma Books.step (hlib : lib.Lawful m) (h : Books m [] s) (e : Event)
    (hs : Connection.step lib cfg e s = some s') : Books m [] s' := by
  have hof : ∀ {c r}, s.requests[c]? = some r → s.streamOf c = r.stream := by
    intro c r hr
    rw [Connection.streamOf, hr]
    rfl
  cases e with
  | request poolTimeout =>
      obtain rfl := Option.some.inj hs
      refine h.frame rfl (fun c => ?_) rfl rfl rfl
      simp only [Connection.streamOf]
      rcases Nat.lt_trichotomy c s.requests.length with hc | rfl | hc
      · rw [List.getElem?_append_left hc]
      · simp
      · rw [List.getElem?_eq_none (by rw [List.length_append]; exact hc),
          List.getElem?_eq_none hc.le]
  | start c =>
      obtain ⟨r, hr, hs⟩ := Option.bind_eq_some_iff.mp hs
      split at hs
      · obtain rfl := Option.some.inj hs
        exact h.goto _ _
      · obtain rfl := Option.some.inj hs
        exact h.goto _ _
      · cases hs
  | turn c =>
      obtain ⟨r, hr, hs⟩ := Option.bind_eq_some_iff.mp hs
      split at hs
      · rename_i hnone
        obtain rfl := Option.some.inj hs
        exact h.reserveTurn hlib hr hnone
      · rename_i hnone
        obtain rfl := Option.some.inj hs
        exact h.reserveTurn hlib hr hnone
      · obtain rfl := Option.some.inj hs
        exact h.sendTurn hlib _ _ _
      · cases hs
  | timeout c =>
      obtain ⟨r, hr, hs⟩ := Option.bind_eq_some_iff.mp hs
      split at hs
      · split_ifs at hs
        obtain rfl := Option.some.inj hs
        exact h.goto _ _
      · split_ifs at hs
        obtain rfl := Option.some.inj hs
        exact h.abandon hlib _
      · cases hs
  | fetched c data =>
      obtain ⟨r, hr, hs⟩ := Option.bind_eq_some_iff.mp hs
      split at hs
      · obtain rfl := Option.some.inj hs
        exact h.sendTurn hlib _ _ _
      · obtain rfl := Option.some.inj hs
        exact h.endBody hlib _ _
      · cases hs
  | drained c outcome =>
      obtain ⟨r, hr, hs⟩ := Option.bind_eq_some_iff.mp hs
      have hfail : ∀ error, Books m [] (s.fail error) := fun error =>
        h.fail error (fun _ => id) rfl (fun _ => rfl) h.alive
      split at hs
      · obtain rfl := Option.some.inj hs
        exact h.sendTurn hlib _ _ _
      · obtain rfl := Option.some.inj hs
        exact h.goto _ _
      · obtain rfl := Option.some.inj hs
        exact (hfail _).abandon hlib _
      · obtain rfl := Option.some.inj hs
        exact (hfail _).abandon hlib _
      · cases hs
  | respond c =>
      obtain ⟨r, hr, hs⟩ := Option.bind_eq_some_iff.mp hs
      split at hs
      · obtain rfl := Option.some.inj hs
        exact h.respond hlib _ _
      · cases hs
  | cancel c =>
      obtain ⟨r, hr, hs⟩ := Option.bind_eq_some_iff.mp hs
      split at hs
      · cases hs
      · cases hs
      · cases hs
      · obtain rfl := Option.some.inj hs
        exact h.abandon hlib _
  | read c =>
      obtain ⟨r, hr, hs⟩ := Option.bind_eq_some_iff.mp hs
      split at hs
      · rename_i st hst
        obtain rfl := Option.some.inj hs
        exact h.readNext hlib ((hof hr).trans hst)
      · cases hs
  | readTimeout c =>
      obtain ⟨r, hr, hs⟩ := Option.bind_eq_some_iff.mp hs
      split at hs
      · obtain rfl := Option.some.inj hs
        exact (h.readTimedOut c).abandon hlib _
      · split_ifs at hs
        obtain rfl := Option.some.inj hs
        exact (h.readTimedOut c).goto _ _
      · cases hs
  | closeResponse c =>
      obtain ⟨r, hr, hs⟩ := Option.bind_eq_some_iff.mp hs
      split at hs
      · obtain rfl := Option.some.inj hs
        exact h.acloseStream hlib _
      · obtain rfl := Option.some.inj hs
        exact h.acloseStream hlib _
      · cases hs
  | receive data =>
      rw [Connection.step] at hs
      split_ifs at hs with hr
      obtain rfl := Option.some.inj hs
      exact (h.receive hlib hr data).1
  | readerDrained outcome =>
      rw [Connection.step] at hs
      split_ifs at hs with hr
      split at hs
      · obtain rfl := Option.some.inj hs
        exact h.next (hr ▸ nofun)
      · obtain rfl := Option.some.inj hs
        exact h.stop _
  | aclose =>
      obtain rfl := Option.some.inj hs
      exact h.stop _

/-- The connections that a run reaches. -/
abbrev Connection.Reaches (lib : H2Library η) (m : H2Library.Meaning η) (cfg : Config)
    (s : Connection η) : Prop :=
  Reachable (Starting m) (Connection.step lib cfg) Always s

lemma Connection.Reaches.books (hlib : lib.Lawful m) (h : Connection.Reaches lib m cfg s) :
    Books m [] s :=
  h.invariant (fun _ hstart => books_starting hstart) fun _ e _ _ hbooks _ hs =>
    hbooks.step hlib e hs

/-- A peer that knows three frames: the next stream, the streams that it may send on and those that
it has answered, the bytes that are not returned to it and those that are, the bytes of bodies that
have been sent, and the frames that have not. -/
structure Peer where
  next : ℕ
  live : List ℕ
  answered : List ℕ
  owed : Option ℕ → ℕ
  returned : Option ℕ → ℕ
  sent : ℕ
  out : Bytes

namespace Peer

/-- An empty SETTINGS frame. -/
def settings : Bytes := [0, 0, 0, 4, 0, 0, 0, 0, 0]

/-- A HEADERS frame on stream 1, with `:status: 200`. -/
def headers : Bytes := [0, 0, 1, 1, 4, 0, 0, 0, 1, 0x88]

/-- A DATA frame of three octets on stream 1. -/
def data : Bytes := [0, 0, 3, 0, 0, 0, 0, 0, 1, 97, 98, 99]

/-- The frame of that type, without its payload. -/
def frame (length type flags : ℕ) (streamId : ℕ) : Bytes :=
  beBytes 3 length ++ beBytes 1 type ++ beBytes 1 flags ++ beBytes 4 streamId

/-- The stream is still to come. -/
def isToCome (h : Peer) : Option ℕ → Bool
  | none => false
  | some j => decide (h.next ≤ j)

def library : H2Library Peer where
  receiveData d h :=
    if d = settings then (some [.remoteSettingsChanged], { h with out := h.out ++ frame 0 4 1 0 })
    else if d = headers ∧ 1 ∈ h.live ∧ 1 ∉ h.answered then
      (some [.responseReceived 1 [([58, 115, 116, 97, 116, 117, 115], [50, 48, 48])]],
        { h with answered := 1 :: h.answered })
    else if d = data ∧ 1 ∈ h.live ∧ 1 ∈ h.answered then
      (some [.dataReceived 1 [97, 98, 99] 3],
        { h with owed := fun i => h.owed i + if i = none ∨ i = some 1 then 3 else 0 })
    else (none, h)
  dataToSend h := (h.out, { h with out := [] })
  incrementFlowControlWindow n i h :=
    if h.isToCome i then (some .other, h)
    else
      (none, { h with
        owed := fun k => if k = i then h.owed k - n else h.owed k
        returned := fun k => if k = i then h.returned k + n else h.returned k
        out := h.out ++ frame 4 8 0 (i.getD 0) ++ beBytes 4 n })
  maxConcurrentStreams _ := 2 ^ 32 + 1
  getNextAvailableStreamId h := some h.next
  sendHeaders j h :=
    if j = h.next then
      (none, { h with
        next := j + 2
        live := j :: h.live
        returned := fun k => if k = some j ∨ k = some (j + 1) then 0 else h.returned k
        out := h.out ++ frame 0 1 4 j })
    else (some .other, h)
  localFlowControlWindow _ h := .ok (65535 - h.sent)
  maxOutboundFrameSize _ := 16384
  sendData j n h := (none, { h with sent := h.sent + n, out := h.out ++ frame n 0 0 j })
  endStream j h := (none, { h with out := h.out ++ frame 0 0 1 j })
  resetStream j h := (none, { h with
    live := h.live.erase j
    out := h.out ++ frame 4 3 0 j ++ beBytes 4 8 })

/-- Nothing is returned on a stream that is to come. -/
def paid (h : Peer) (i : Option ℕ) : ℕ := if h.isToCome i then 0 else h.returned i

def meaning : H2Library.Meaning Peer where
  alive _ := True
  opened h j := j < h.next
  receiving h j := j ∈ h.live ∧ j < h.next
  owed h i := h.owed i
  returned := paid

/-- A peer to which nothing has been sent. -/
def fresh : Peer := ⟨1, [], [], fun _ => 0, fun _ => 0, 0, []⟩

lemma calm_of {h h' : Peer} {closes : ℕ → Prop} {returns : Option ℕ → Prop}
    (hnext : h.next ≤ h'.next)
    (hlive : ∀ j, ¬ closes j → j ∈ h.live → j ∈ h'.live)
    (howed : ∀ i, ¬ returns i → h.owed i ≤ h'.owed i)
    (hpaid : ∀ i, ¬ returns i → h'.paid i = h.paid i) (hsent : h.sent ≤ h'.sent) :
    library.Calm meaning closes returns h h' := by
  refine ⟨id, fun j hj => lt_of_lt_of_le hj hnext,
    fun j hj hr => ⟨hlive j hj hr.1, lt_of_lt_of_le hr.2 hnext⟩, howed, hpaid, fun j _ => ?_,
    le_rfl⟩
  rintro ⟨w, hw, hpos⟩
  obtain rfl := Except.ok.inj hw
  exact ⟨_, rfl, by omega⟩

lemma increment_eq (n : ℕ) {i : Option ℕ} {h : Peer} (hopen : ¬ h.isToCome i = true) :
    library.incrementFlowControlWindow n i h = (none, { h with
      owed := fun k => if k = i then h.owed k - n else h.owed k
      returned := fun k => if k = i then h.returned k + n else h.returned k
      out := h.out ++ frame 4 8 0 (i.getD 0) ++ beBytes 4 n }) :=
  if_neg hopen

lemma lawful : library.Lawful meaning where
  data_to_send h := calm_of le_rfl (fun _ _ => id) (fun _ _ => le_rfl) (fun _ _ => rfl) le_rfl
  send_headers j h := by
    simp only [library]
    split_ifs with hj
    · refine calm_of (by show h.next ≤ j + 2; omega) (fun _ _ => List.mem_cons_of_mem _)
        (fun _ _ => le_rfl) (fun i _ => ?_) le_rfl
      subst hj
      -- the identifiers that are skipped are those that have just been blanked
      cases i with
      | none => rfl
      | some k =>
          simp only [paid, isToCome, Option.some.injEq, decide_eq_true_eq]
          split_ifs <;> first | rfl | omega
    · exact .refl h
  send_data j n h :=
    calm_of le_rfl (fun _ _ => id) (fun _ _ => le_rfl) (fun _ _ => rfl) (Nat.le_add_right _ _)
  end_stream j h := calm_of le_rfl (fun _ _ => id) (fun _ _ => le_rfl) (fun _ _ => rfl) le_rfl
  reset_stream j h := calm_of le_rfl (fun _ hij hi => (List.mem_erase_of_ne hij).mpr hi)
    (fun _ _ => le_rfl) (fun _ _ => rfl) le_rfl
  fresh h j hj := by
    obtain rfl := Option.some.inj hj
    exact lt_irrefl h.next
  opens h j hj _ := by
    obtain rfl := Option.some.inj hj
    simp only [library, if_true]
    have hnext : h.next < h.next + 2 := by omega
    exact ⟨hnext, List.mem_cons_self, hnext⟩
  fresh_returned h j hj := if_pos (decide_eq_true (not_lt.mp hj))
  reset_opened h j _ _ := nofun
  increment n i h := by
    by_cases hnot : h.isToCome i = true
    · rw [show library.incrementFlowControlWindow n i h = (some .other, h) from if_pos hnot]
      exact calm_of le_rfl (fun _ _ => id) (fun _ _ => le_rfl) (fun _ _ => rfl) le_rfl
    · rw [increment_eq n hnot]
      refine calm_of le_rfl (fun _ _ => id) (fun k hk => ?_) (fun k hk => ?_) le_rfl
      · exact (if_neg hk : (if k = i then h.owed k - n else h.owed k) = h.owed k).ge
      · show (if h.isToCome k then 0 else if k = i then h.returned k + n else h.returned k) = _
        rw [if_neg hk]
        rfl
  increment_owed n i h := by
    by_cases hnot : h.isToCome i = true
    · rw [show library.incrementFlowControlWindow n i h = (some .other, h) from if_pos hnot]
      exact Nat.le_add_right _ _
    · rw [increment_eq n hnot]
      show h.owed i ≤ (if i = i then h.owed i - n else h.owed i) + if none = none then n else 0
      simp only [if_true]
      omega
  increment_returned n i h := by
    by_cases hnot : h.isToCome i = true
    · rw [show library.incrementFlowControlWindow n i h = (some .other, h) from if_pos hnot]
      rfl
    · rw [increment_eq n hnot]
      show (if h.isToCome i then 0 else if i = i then h.returned i + n else h.returned i) =
        (if h.isToCome i then 0 else h.returned i) + if none = none then n else 0
      simp only [if_neg hnot, if_true]
  increment_connection _ _ _ _ _ := rfl
  increment_receiving h n j _ _ _ hrec := by
    have hopen : ¬ h.isToCome (some j) = true := fun hnot => (of_decide_eq_true hnot).not_gt hrec.2
    rw [increment_eq n hopen]
  receive_alive _ _ _ _ _ _ _ := trivial
  receive_receiving d h es h' heq _ _ j hj _ := by
    simp only [library] at heq
    split_ifs at heq
    · cases heq
      exact hj
    · cases heq
      exact hj
    · cases heq
      exact hj
    · cases heq
  receive_opened d h j hj := by
    simp only [library]
    split_ifs <;> exact hj
  receive_data d h es h' heq j payload n hmem := by
    simp only [library] at heq
    split_ifs at heq
    · cases heq
      cases List.mem_singleton.mp hmem
    · cases heq
      cases List.mem_singleton.mp hmem
    · cases heq
      cases List.mem_singleton.mp hmem
      exact le_rfl
    · cases heq
  receive_owed d h es h' heq i := by
    simp only [library] at heq
    split_ifs at heq
    · cases heq
      exact le_rfl
    · cases heq
      exact le_rfl
    · cases heq
      simp [meaning, H2Transport.flow, H2Event.flow]
    · cases heq
  receive_returned d h i := by
    simp only [library]
    split_ifs <;> rfl
  receive_window d h es h' heq _ _ j _ := by
    simp only [library] at heq
    split_ifs at heq
    · cases heq
      exact id
    · cases heq
      exact id
    · cases heq
      exact id
    · cases heq
  receive_slots _ _ _ _ _ _ := le_rfl

end Peer

end TgWsProxy.H2Transport
