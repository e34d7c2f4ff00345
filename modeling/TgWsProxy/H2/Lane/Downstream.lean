import TgWsProxy.H2.Lane.Closing
import TgWsProxy.H2.Lane.Replies

/-!
# What the native client is sent

The octets that `bridge_h2` hands to the native writer, over a whole run.

* `Mark.asReply`, `asFailure`, `asWrote`, `asError`, `asFrame` — what a history says of replies,
  failures and frames.
* `Delivered` — the invariant: while the channel is open, what was written and what is queued are
  the replies in order; what was written is one keystream over the frames.
* `Reported` — a channel reports one error at most.
* **`downstream_intact`** — a prefix of the replies, and at most one error frame at the end.
-/

namespace TgWsProxy

open Wire

/-! ## Histories -/

namespace Mark

def asReply : Mark → Option Bytes
  | reply _ body => some body
  | _ => none

def asFailure : Mark → Option Failure
  | failed failure => some failure
  | _ => none

def asWrote : Mark → Option (Bytes × Bytes)
  | wrote body frame => some (body, frame)
  | _ => none

def asError : Mark → Option (ℤ × Bytes)
  | wroteError code frame => some (code, frame)
  | _ => none

/-- The frame that was handed to the writer. -/
def asFrame : Mark → Option Bytes
  | wrote _ frame => some frame
  | wroteError _ frame => some frame
  | _ => none

/-- The mark tells of no reply, no failure and no frame. -/
def Other (m : Mark) : Prop := m.asReply = none ∧ m.asFailure = none ∧ m.asFrame = none

/-- `b` may come after `a`: no reply is written after a failure, and nothing after an error. -/
def Before (a b : Mark) : Prop :=
  (a.asFailure ≠ none → b.asWrote = none) ∧ (a.asError ≠ none → b.asFrame = none)

lemma asWrote_of_asFrame {m : Mark} (h : m.asFrame = none) : m.asWrote = none := by
  cases m with
  | wrote body frame => cases h
  | _ => rfl

lemma asError_of_asFrame {m : Mark} (h : m.asFrame = none) : m.asError = none := by
  cases m with
  | wroteError code frame => cases h
  | _ => rfl

lemma before_of_asFrame {a b : Mark} (h : b.asFrame = none) : a.Before b :=
  ⟨fun _ => asWrote_of_asFrame h, fun _ => h⟩

end Mark

/-- The code of a transport error. -/
def Failure.code : Failure → Option ℤ
  | transport code => some code
  | _ => none

/-! ## One channel -/

/-- The channels agree on what they have queued and whether they have failed. -/
structure Channel.Alike (a b : Channel) : Prop where
  closed : b.closed = a.closed
  queue : b.queue = a.queue
  transportError : b.transportError = a.transportError

lemma Channel.Same.alike {a b : Channel} (h : a.Same b) : a.Alike b :=
  ⟨h.closed, h.queue, h.transportError⟩

/-- What a channel, its history and its writer have in common. -/
structure Delivered (E : AesKeystream) (ch : Channel) (log : List Mark) (native : Option Native) :
    Prop where
  queued : ch.closed = false → ∃ bodies : List Bytes, ch.queue = bodies.map .reply ∧
    (∀ body ∈ bodies, Encodable body) ∧
    (log.filterMap Mark.asWrote).map Prod.fst ++ bodies = log.filterMap Mark.asReply
  healthy : ch.closed = false → ch.transportError = none ∧ log.filterMap Mark.asFailure = []
  failed : ch.closed = true → ∃ failure,
    (log.filterMap Mark.asFailure).head? = some failure ∧ ch.transportError = failure.code
  taken : (log.filterMap Mark.asWrote).map Prod.fst <+: log.filterMap Mark.asReply
  errors : ∀ p ∈ log.filterMap Mark.asError, ch.closed = true ∧ ch.transportError = some p.1
  ordered : log.Pairwise Mark.Before
  unbridged : native = none → log.filterMap Mark.asFrame = []
  wire : ∀ n, native = some n →
    n.wire = n.given.peek E (log.filterMap Mark.asFrame).flatten ∧
    n.cltEnc = (n.given.update E (log.filterMap Mark.asFrame).flatten).2
  framed : ∀ n, native = some n →
    (∀ p ∈ log.filterMap Mark.asWrote, ∃ padding, encodeReply p.1 n.tag padding = .ok p.2) ∧
    ∀ p ∈ log.filterMap Mark.asError, ∃ packed padding, leIntBytes 4 p.1 = some packed ∧
      encodeReply packed n.tag padding = .ok p.2

namespace Delivered

variable {E : AesKeystream} {ch ch' : Channel} {log : List Mark} {native : Option Native}

lemma fresh (E : AesKeystream) : Delivered E {} [] none where
  queued _ := ⟨[], rfl, nofun, rfl⟩
  healthy _ := ⟨rfl, rfl⟩
  failed h := nomatch h
  taken := List.prefix_rfl
  errors _ h := nomatch h
  ordered := .nil
  unbridged _ := rfl
  wire _ h := nomatch h
  framed _ h := nomatch h

lemma alike (h : Delivered E ch log native) (ha : ch.Alike ch') : Delivered E ch' log native where
  queued hopen := ha.queue ▸ h.queued (ha.closed ▸ hopen)
  healthy hopen := ha.transportError ▸ h.healthy (ha.closed ▸ hopen)
  failed hclosed := ha.transportError ▸ h.failed (ha.closed ▸ hclosed)
  taken := h.taken
  errors p hp := by
    rw [ha.closed, ha.transportError]
    exact h.errors p hp
  ordered := h.ordered
  unbridged := h.unbridged
  wire := h.wire
  framed := h.framed

/-- The channel is bridged to a client. -/
lemma bridge (h : Delivered E ch log none) (tag : Bytes) (cltEnc : Cipher) (first : ℕ) :
    Delivered E ch log
      (some { tag := tag, given := cltEnc, cltEnc := cltEnc, first := first }) where
  queued := h.queued
  healthy := h.healthy
  failed := h.failed
  taken := h.taken
  errors := h.errors
  ordered := h.ordered
  unbridged hn := nomatch hn
  wire n hn := by
    rw [h.unbridged rfl, ← Option.some.inj hn]
    exact ⟨rfl, rfl⟩
  framed n hn := by
    have hframes := h.unbridged rfl
    have hnone : ∀ m ∈ log, m.asFrame = none := List.filterMap_eq_nil_iff.mp hframes
    rw [List.filterMap_eq_nil_iff.mpr fun m hm => Mark.asWrote_of_asFrame (hnone m hm),
      List.filterMap_eq_nil_iff.mpr fun m hm => Mark.asError_of_asFrame (hnone m hm)]
    exact ⟨nofun, nofun⟩

/-! ## Marks without a frame -/

/-- No frame is written, and what the history says of replies and failures fits the channel. -/
lemma silent (h : Delivered E ch log native) {marks : List Mark}
    (hframe : ∀ m ∈ marks, m.asFrame = none)
    (hqueued : ch'.closed = false → ∃ bodies : List Bytes, ch'.queue = bodies.map .reply ∧
      (∀ body ∈ bodies, Encodable body) ∧ (log.filterMap Mark.asWrote).map Prod.fst ++ bodies =
        (log ++ marks).filterMap Mark.asReply)
    (hhealthy : ch'.closed = false → ch'.transportError = none ∧
      (log ++ marks).filterMap Mark.asFailure = [])
    (hfailed : ch'.closed = true → ∃ failure,
      ((log ++ marks).filterMap Mark.asFailure).head? = some failure ∧
      ch'.transportError = failure.code)
    (herrors : ch.closed = true → ch'.closed = true ∧ ch'.transportError = ch.transportError) :
    Delivered E ch' (log ++ marks) native := by
  have hwrote : (log ++ marks).filterMap Mark.asWrote = log.filterMap Mark.asWrote := by
    rw [List.filterMap_append, List.filterMap_eq_nil_iff.mpr fun m hm =>
      Mark.asWrote_of_asFrame (hframe m hm), List.append_nil]
  have herror : (log ++ marks).filterMap Mark.asError = log.filterMap Mark.asError := by
    rw [List.filterMap_append, List.filterMap_eq_nil_iff.mpr fun m hm =>
      Mark.asError_of_asFrame (hframe m hm), List.append_nil]
  have hframes : (log ++ marks).filterMap Mark.asFrame = log.filterMap Mark.asFrame := by
    rw [List.filterMap_append, List.filterMap_eq_nil_iff.mpr hframe, List.append_nil]
  constructor
  · rw [hwrote]
    exact hqueued
  · exact hhealthy
  · exact hfailed
  · rw [hwrote, List.filterMap_append]
    exact h.taken.trans (List.prefix_append _ _)
  · rw [herror]
    intro p hp
    obtain ⟨hclosed, hcode⟩ := h.errors p hp
    obtain ⟨hclosed', hcode'⟩ := herrors hclosed
    exact ⟨hclosed', hcode'.trans hcode⟩
  · rw [List.pairwise_append]
    refine ⟨h.ordered, ?_, fun a _ b hb => Mark.before_of_asFrame (hframe b hb)⟩
    exact List.pairwise_of_forall_mem_list fun a _ b hb => Mark.before_of_asFrame (hframe b hb)
  · rw [hframes]
    exact h.unbridged
  · rw [hframes]
    exact h.wire
  · rw [hwrote, herror]
    exact h.framed

/-- The mark has nothing to say. -/
lemma other (h : Delivered E ch log native) {m : Mark} (hm : m.Other) :
    Delivered E ch (log ++ [m]) native := by
  obtain ⟨hreply, hfailure, hframe⟩ := hm
  refine h.silent ?_ ?_ ?_ ?_ fun hclosed => ⟨hclosed, rfl⟩
  · intro m' hm'
    rw [List.mem_singleton.mp hm']
    exact hframe
  · simpa [hreply] using h.queued
  · simpa [hfailure] using h.healthy
  · simpa [hfailure] using h.failed

/-- A reply comes in, and the channel has failed. -/
lemma late (h : Delivered E ch log native) (hclosed : ch.closed = true) (packet : Option ℕ)
    (reply : Bytes) : Delivered E ch (log ++ [.reply packet reply]) native := by
  refine h.silent ?_ ?_ ?_ ?_ fun hclosed => ⟨hclosed, rfl⟩
  · intro m hm
    rw [List.mem_singleton.mp hm]
    rfl
  · intro hopen
    exact absurd (hopen.symm.trans hclosed) Bool.false_ne_true
  · intro hopen
    exact absurd (hopen.symm.trans hclosed) Bool.false_ne_true
  · simpa [Mark.asFailure] using h.failed

/-- A reply comes in and is queued. -/
lemma reply (h : Delivered E ch log native) (hopen : ch.closed = false) (packet : Option ℕ)
    {reply : Bytes} (hreply : Encodable reply) (hopen' : ch'.closed = false)
    (herror : ch'.transportError = ch.transportError)
    (hqueue : ch'.queue = ch.queue ++ [.reply reply]) :
    Delivered E ch' (log ++ [.reply packet reply]) native := by
  refine h.silent ?_ ?_ ?_ ?_ ?_
  · intro m hm
    rw [List.mem_singleton.mp hm]
    rfl
  · intro _
    obtain ⟨bodies, hbodies, henc, heq⟩ := h.queued hopen
    refine ⟨bodies ++ [reply], by rw [hqueue, hbodies, List.map_append]; rfl, ?_, ?_⟩
    · intro body hbody
      rcases List.mem_append.mp hbody with hbody | hbody
      · exact henc body hbody
      · rw [List.mem_singleton.mp hbody]
        exact hreply
    · rw [← List.append_assoc, heq, List.filterMap_append]
      rfl
  · intro _
    obtain ⟨hnone, hno⟩ := h.healthy hopen
    exact ⟨herror.trans hnone, by rw [List.filterMap_append, hno]; rfl⟩
  · intro hclosed
    exact absurd (hopen'.symm.trans hclosed) Bool.false_ne_true
  · intro hclosed
    exact absurd (hopen.symm.trans hclosed) Bool.false_ne_true

/-- The channel fails, with a reply that it has no room for or without. -/
lemma fail (h : Delivered E ch log native) {marks : List Mark} {failure : Failure}
    (hmarks : marks = [.failed failure] ∨
      ∃ packet reply, marks = [.reply packet reply, .failed failure])
    (ha : (ch.fail failure).Alike ch') : Delivered E ch' (log ++ marks) native := by
  have hfailures : marks.filterMap Mark.asFailure = [failure] := by
    rcases hmarks with rfl | ⟨packet, reply, rfl⟩ <;> rfl
  have hframe : ∀ m ∈ marks, m.asFrame = none := by
    rcases hmarks with rfl | ⟨packet, reply, rfl⟩ <;> simp [Mark.asFrame]
  have hclosed : ch'.closed = true := by
    rw [ha.closed, Channel.fail.eq_def]
    split_ifs with hc
    · exact hc
    · rfl
  refine h.silent hframe ?_ ?_ ?_ ?_
  · intro hopen
    exact absurd (hopen.symm.trans hclosed) Bool.false_ne_true
  · intro hopen
    exact absurd (hopen.symm.trans hclosed) Bool.false_ne_true
  · intro _
    rw [List.filterMap_append, hfailures, ha.transportError, Channel.fail.eq_def]
    split_ifs with hc
    · obtain ⟨first, hfirst, hcode⟩ := h.failed hc
      exact ⟨first, by rw [List.head?_append, hfirst]; rfl, hcode⟩
    · obtain ⟨hnone, hno⟩ := h.healthy (Bool.eq_false_iff.mpr hc)
      refine ⟨failure, by rw [hno]; rfl, ?_⟩
      cases failure with
      | transport code => rfl
      | _ => exact hnone
  · intro hc
    refine ⟨hclosed, ?_⟩
    rw [ha.transportError, Channel.fail.eq_def, if_pos hc]

/-! ## Frames -/

/-- The writer goes on where it stopped. -/
lemma wire_append {n : Native} {frames : Bytes}
    (h : n.wire = n.given.peek E frames ∧ n.cltEnc = (n.given.update E frames).2) (frame : Bytes) :
    n.wire ++ n.cltEnc.peek E frame = n.given.peek E (frames ++ frame) ∧
      (n.cltEnc.update E frame).2 = (n.given.update E (frames ++ frame)).2 := by
  obtain ⟨hwire, henc⟩ := h
  refine ⟨by rw [hwire, henc, Cipher.peek_append], ?_⟩
  rw [henc]
  simp [Cipher.update, Nat.add_assoc]

/-- An item leaves the queue and nothing is written: the channel has failed. -/
lemma drop (h : Delivered E ch log native) {item : QueueItem} {queue : List QueueItem}
    (hqueue : ch.queue = item :: queue)
    (hdrop : ∀ body, item = .reply body → ch.closed = true ∨ ¬ Encodable body)
    (hclosed : ch'.closed = ch.closed) (herror : ch'.transportError = ch.transportError) :
    Delivered E ch' log native := by
  have hfailed : ch.closed = true := by
    by_contra hopen
    obtain ⟨bodies, hbodies, henc, -⟩ := h.queued (Bool.eq_false_iff.mpr hopen)
    cases bodies with
    | nil =>
        rw [hqueue] at hbodies
        cases hbodies
    | cons body bodies =>
        rw [hqueue] at hbodies
        rcases hdrop body (List.cons.inj hbodies).1 with hc | hnot
        · exact hopen hc
        · exact hnot (henc body List.mem_cons_self)
  have hopen' : ch'.closed ≠ false := by
    rw [hclosed, hfailed]
    exact Bool.noConfusion
  have hsilent : Delivered E ch' (log ++ []) native := by
    refine h.silent nofun (fun hopen => absurd hopen hopen') (fun hopen => absurd hopen hopen')
      ?_ ?_
    · intro _
      rw [List.append_nil, herror]
      exact h.failed hfailed
    · exact fun hc => ⟨hclosed.trans hc, herror⟩
  rwa [List.append_nil] at hsilent

/-- A reply leaves the queue and is written. -/
lemma write {n : Native} (h : Delivered E ch log (some n)) (hopen : ch.closed = false)
    {body frame : Bytes} {queue : List QueueItem} {padding : Padding}
    (hqueue : ch.queue = .reply body :: queue) (hframe : encodeReply body n.tag padding = .ok frame)
    (hqueue' : ch'.queue = queue) (hclosed : ch'.closed = ch.closed)
    (herror : ch'.transportError = ch.transportError) :
    Delivered E ch' (log ++ [.wrote body frame])
      (some { n with
        wire := n.wire ++ n.cltEnc.peek E frame
        cltEnc := (n.cltEnc.update E frame).2 }) := by
  have hopen' : ch'.closed = false := hclosed.trans hopen
  have hclosed' : ¬ ch'.closed = true := Bool.eq_false_iff.mp hopen'
  have hno : ∀ m ∈ log, m.asFailure = none := List.filterMap_eq_nil_iff.mp (h.healthy hopen).2
  have hnone : log.filterMap Mark.asError = [] := by
    refine List.eq_nil_iff_forall_not_mem.mpr fun p hp => ?_
    exact Bool.eq_false_iff.mp hopen (h.errors p hp).1
  have hwrote : (log ++ [Mark.wrote body frame]).filterMap Mark.asWrote =
      log.filterMap Mark.asWrote ++ [(body, frame)] := List.filterMap_append
  have hframes : (log ++ [Mark.wrote body frame]).filterMap Mark.asFrame =
      log.filterMap Mark.asFrame ++ [frame] := List.filterMap_append
  have herrors : (log ++ [Mark.wrote body frame]).filterMap Mark.asError = [] := by
    rw [List.filterMap_append, hnone]
    rfl
  have hreplies : (log ++ [Mark.wrote body frame]).filterMap Mark.asReply =
      log.filterMap Mark.asReply := by
    rw [List.filterMap_append]
    exact List.append_nil _
  obtain ⟨bodies, hbodies, henc, heq⟩ := h.queued hopen
  rw [hqueue] at hbodies
  obtain ⟨rest, rfl, hrest⟩ : ∃ rest, bodies = body :: rest ∧ queue = rest.map .reply := by
    cases bodies with
    | nil => cases hbodies
    | cons b rest =>
        obtain ⟨hb, hrest⟩ := List.cons.inj hbodies
        exact ⟨rest, by rw [QueueItem.reply.inj hb], hrest⟩
  have hall : (log.filterMap Mark.asWrote ++ [(body, frame)]).map Prod.fst ++ rest =
      log.filterMap Mark.asReply := by
    rw [List.map_append, List.append_assoc]
    exact heq
  constructor
  · intro _
    rw [hwrote, hreplies]
    exact ⟨rest, hqueue'.trans hrest, fun b hb => henc b (List.mem_cons_of_mem _ hb), hall⟩
  · intro _
    refine ⟨herror.trans (h.healthy hopen).1, ?_⟩
    rw [List.filterMap_append, (h.healthy hopen).2]
    rfl
  · exact fun hc => absurd hc hclosed'
  · rw [hwrote, hreplies]
    exact ⟨rest, hall⟩
  · rw [herrors]
    exact nofun
  · rw [List.pairwise_append]
    refine ⟨h.ordered, List.pairwise_singleton _ _, fun a ha b hb => ?_⟩
    refine ⟨fun hf => absurd (hno a ha) hf, fun he => ?_⟩
    exact absurd (List.filterMap_eq_nil_iff.mp hnone a ha) he
  · exact nofun
  · intro n' hn'
    rw [hframes, List.flatten_append, List.flatten_singleton, ← Option.some.inj hn']
    exact wire_append (h.wire n rfl) frame
  · intro n' hn'
    rw [hwrote, herrors, ← Option.some.inj hn']
    refine ⟨fun p hp => ?_, nofun⟩
    rcases List.mem_append.mp hp with hp | hp
    · exact (h.framed n rfl).1 p hp
    · rw [List.mem_singleton.mp hp]
      exact ⟨padding, hframe⟩

/-- The frame of a transport error is written. -/
lemma report {n : Native} (h : Delivered E ch log (some n)) {code : ℤ}
    (hcode : ch.transportError = some code) (hno : log.filterMap Mark.asError = [])
    {packed frame : Bytes} {padding : Padding} (hpacked : leIntBytes 4 code = some packed)
    (hframe : encodeReply packed n.tag padding = .ok frame) :
    Delivered E ch (log ++ [.wroteError code frame])
      (some { n with
        wire := n.wire ++ n.cltEnc.peek E frame
        cltEnc := (n.cltEnc.update E frame).2 }) := by
  have hclosed : ch.closed = true := by
    by_contra hopen
    rw [(h.healthy (Bool.eq_false_iff.mpr hopen)).1] at hcode
    cases hcode
  have hopen : ch.closed ≠ false := fun hc => Bool.false_ne_true (hc.symm.trans hclosed)
  have hwrote : (log ++ [Mark.wroteError code frame]).filterMap Mark.asWrote =
      log.filterMap Mark.asWrote := by
    rw [List.filterMap_append]
    exact List.append_nil _
  have hframes : (log ++ [Mark.wroteError code frame]).filterMap Mark.asFrame =
      log.filterMap Mark.asFrame ++ [frame] := List.filterMap_append
  have herrors : (log ++ [Mark.wroteError code frame]).filterMap Mark.asError =
      [(code, frame)] := by
    rw [List.filterMap_append, hno]
    rfl
  have hreplies : (log ++ [Mark.wroteError code frame]).filterMap Mark.asReply =
      log.filterMap Mark.asReply := by
    rw [List.filterMap_append]
    exact List.append_nil _
  have hfailures : (log ++ [Mark.wroteError code frame]).filterMap Mark.asFailure =
      log.filterMap Mark.asFailure := by
    rw [List.filterMap_append]
    exact List.append_nil _
  constructor
  · exact fun hc => absurd hc hopen
  · exact fun hc => absurd hc hopen
  · rw [hfailures]
    exact h.failed
  · rw [hwrote, hreplies]
    exact h.taken
  · rw [herrors]
    intro p hp
    rw [List.mem_singleton.mp hp]
    exact ⟨hclosed, hcode⟩
  · rw [List.pairwise_append]
    refine ⟨h.ordered, List.pairwise_singleton _ _, fun a ha b hb => ?_⟩
    rw [List.mem_singleton.mp hb]
    exact ⟨fun _ => rfl, fun he => absurd (List.filterMap_eq_nil_iff.mp hno a ha) he⟩
  · exact nofun
  · intro n' hn'
    rw [hframes, List.flatten_append, List.flatten_singleton, ← Option.some.inj hn']
    exact wire_append (h.wire n rfl) frame
  · intro n' hn'
    rw [hwrote, herrors, ← Option.some.inj hn']
    refine ⟨(h.framed n rfl).1, fun p hp => ?_⟩
    rw [List.mem_singleton.mp hp]
    exact ⟨packed, padding, hpacked, hframe⟩

/-! ## The end of a request -/

/-- A request settles. -/
lemma settle (h : Delivered E ch log native) (packet : Option ℕ) (now : ℤ) (e : PostEnd)
    (henc : ∀ reply, e = .returned reply → reply ≠ [] → Encodable reply) :
    Delivered E (ch.settle packet now e).1 (log ++ (ch.settle packet now e).2) native := by
  cases e with
  | cancelled =>
      show Delivered E ch (log ++ []) native
      rw [List.append_nil]
      exact h
  | raised failure => exact h.fail (.inl rfl) ⟨rfl, rfl, rfl⟩
  | returned reply =>
      -- what a reply changes in the history of packets is of no interest here
      have hrecord : ∀ a : Channel, a.Alike (a.recordReply packet reply) := by
        intro a
        cases packet <;> exact ⟨rfl, rfl, rfl⟩
      have hprogress : Delivered E { ch with lastProgress := now } log native :=
        h.alike ⟨rfl, rfl, rfl⟩
      rw [Channel.settle, Channel.complete_eq]
      dsimp only
      split_ifs with hempty hclosed hfull
      · rw [List.append_nil]
        exact hprogress
      · exact hprogress.late hclosed packet reply
      · exact (hprogress.alike (hrecord _)).fail (.inr ⟨packet, reply, rfl⟩) ⟨rfl, rfl, rfl⟩
      · have hopen : ch.closed = false := Bool.eq_false_iff.mpr hclosed
        have hsame := hrecord { ch with lastProgress := now }
        exact hprogress.reply hopen packet (henc reply rfl hempty) (hsame.closed.trans hopen)
          hsame.transportError (congrArg (· ++ [.reply reply]) hsame.queue)

end Delivered

lemma asFrame_settle (ch : Channel) (packet : Option ℕ) (now : ℤ) (e : PostEnd) :
    ∀ m ∈ (ch.settle packet now e).2, m.asFrame = none := by
  cases e with
  | cancelled => exact nofun
  | raised failure => simp [Channel.settle, Mark.asFrame]
  | returned reply =>
      rw [Channel.settle, Channel.complete.eq_def]
      dsimp only
      split_ifs <;> simp [Mark.asFrame]

/-! ## One report -/

/-- Once a channel has reported an error its `bridge_h2` is past the report. -/
def Reported (s : Sys) : Prop :=
  ∀ t c tasks pc, s.coro t = .bridge c tasks pc →
    (s.log c).filterMap Mark.asError ≠ [] → pc = .draining

section Steps

variable {E : AesKeystream} {s s' : Sys} {e : Event} {c : ℕ}

/-- Where a `bridge_h2` comes from. -/
lemma bridge_of_step (h : Reaches E s) (hs : step E e s = some s') {t : ℕ} {tasks : List ℕ}
    {pc : BridgePc} (hb : s'.coro t = .bridge c tasks pc) :
    s.coro t = .bridge c tasks pc ∨
      (∃ tasks₀ pc₀, s.coro t = .bridge c tasks₀ pc₀ ∧ pc₀ ≠ .draining) ∨ s.native c = none := by
  have hstation : (s'.coro t).station = some (c, 3) := by
    rw [hb]
    rfl
  rcases station_of_step h hs hstation with hold | ⟨-, hnone, -⟩
  · obtain ⟨tasks₀, pc₀, hb₀⟩ := Coro.bridge_of_station hold
    by_cases hmover : some t = e.mover
    · cases e with
      | run u i =>
          obtain rfl : t = u := Option.some.inj hmover
          obtain ⟨cancelling, hstep⟩ := coroStep_of_run hs
          simp only [coroStep, hb₀] at hstep
          rcases coro_bridgeStep hstep with ⟨hpc₀, -⟩ | hclose
          · exact .inr (.inl ⟨tasks₀, pc₀, hb₀, hpc₀⟩)
          · rw [hb] at hclose
            cases hclose
      | _ => cases hmover
    · have hlt : t < s.nextTask := h.formed.toAllocated.lt (by simp [hb₀])
      rw [(h.turn hs).coro t hmover hlt] at hb
      exact .inl hb
  · exact .inr (.inr hnone)

/-- Who reports an error. -/
lemma errors_of_step (h : Reaches E s) (hs : step E e s = some s') (c : ℕ) :
    (s'.log c).filterMap Mark.asError = (s.log c).filterMap Mark.asError ∨
      ∃ t tasks, s.coro t = .bridge c tasks (.teardown false) ∧
        s'.coro t = .bridge c tasks .draining := by
  rcases stays_or_on h.formed.toAllocated (h.move hs) c with hst | hmv
  · exact .inl (by rw [hst.log])
  have hmarks : ∀ {marks : List Mark}, s'.log c = s.log c ++ marks →
      (∀ m ∈ marks, m.asFrame = none) →
        (s'.log c).filterMap Mark.asError = (s.log c).filterMap Mark.asError := by
    intro marks hlog hframe
    rw [hlog, List.filterMap_append, List.filterMap_eq_nil_iff.mpr fun m hm =>
      Mark.asError_of_asFrame (hframe m hm), List.append_nil]
  have hkeep : s'.log = s.log →
      (s'.log c).filterMap Mark.asError = (s.log c).filterMap Mark.asError :=
    fun hlog => by rw [hlog]
  cases hmv with
  | opened _ _ hlog => exact .inl (hkeep hlog)
  | bridged _ _ _ _ _ hlog => exact .inl (hkeep hlog)
  | native _ _ _ _ _ _ _ _ _ _ _ hlog => exact .inl (hmarks hlog (by simp [Mark.asFrame]))
  | replay _ _ _ _ _ _ _ _ _ _ _ _ _ hlog => exact .inl (hmarks hlog (by simp [Mark.asFrame]))
  | advance _ _ _ _ _ _ _ _ hlog => exact .inl (hkeep hlog)
  | uploaded _ _ _ _ _ _ _ hlog => exact .inl (hkeep hlog)
  | received _ _ _ _ _ _ _ _ _ _ _ hlog => exact .inl (hkeep hlog)
  | ended _ info _ e _ ch _ _ _ _ _ hlog =>
      exact .inl (hmarks hlog (asFrame_settle ch info.packet s.clock e))
  | closing _ _ _ hlog => exact .inl (hmarks hlog (by simp [Mark.asFrame]))
  | swept _ _ _ _ _ _ _ _ _ _ _ _ _ _ hlog => exact .inl (hkeep hlog)
  | cleared _ _ _ _ _ hlog => exact .inl (hkeep hlog)
  | rotated _ _ _ hlog => exact .inl (hkeep hlog)
  | dropped _ _ _ _ _ hlog => exact .inl (hkeep hlog)
  | wrote _ _ _ _ _ _ _ _ _ _ _ _ hlog =>
      refine .inl ?_
      rw [hlog, List.filterMap_append]
      exact List.append_nil _
  | drained _ _ _ _ hlog => exact .inl (hkeep hlog)
  | wroteError t tasks _ _ _ _ _ hpc hpc' => exact .inr ⟨t, tasks, hpc, hpc'⟩

/-- Reports go on as they should. -/
lemma Reported.step (hrep : Reported s) (hd : ∀ c, Delivered E (s.chan c) (s.log c) (s.native c))
    (h : Reaches E s) (hs : step E e s = some s') : Reported s' := by
  intro t c tasks pc hb herr
  rcases errors_of_step h hs c with heq | ⟨t', tasks', hb', hdraining⟩
  · rw [heq] at herr
    rcases bridge_of_step h hs hb with hb₀ | ⟨tasks₀, pc₀, hb₀, hnot⟩ | hnone
    · exact hrep t c tasks pc hb₀ herr
    · exact absurd (hrep t c tasks₀ pc₀ hb₀ herr) hnot
    · have hframes := List.filterMap_eq_nil_iff.mp ((hd c).unbridged hnone)
      exact absurd (List.filterMap_eq_nil_iff.mpr fun m hm =>
        Mark.asError_of_asFrame (hframes m hm)) herr
  · -- the one that has just reported is the only one
    have hattached : Attached s' := Reaches.attached (.step e h trivial hs)
    obtain ⟨n, hn, ht⟩ := hattached t c 3 (by rw [hb]; rfl)
    obtain ⟨n', hn', ht'⟩ := hattached t' c 3 (by rw [hdraining]; rfl)
    obtain rfl := Option.some.inj (hn.symm.trans hn')
    obtain rfl : t = t' := ht.trans ht'.symm
    rw [hb] at hdraining
    cases hdraining
    rfl

lemma Channel.finishRequest_alike {ch ch' : Channel} {task length : ℕ} {packet : Option ℕ}
    (h : ch.finishRequest task packet = some (length, ch')) : ch.Alike ch' := by
  obtain ⟨-, history, rfl⟩ := finishRequest_eq_some h
  exact ⟨rfl, rfl, rfl⟩

/-- What a step does to a channel keeps it as it should be. -/
lemma Delivered.step (hrep : Reported s) (hd : Delivered E (s.chan c) (s.log c) (s.native c))
    (h : Reaches E s) (hmv : MoveOn E c s s') :
    Delivered E (s'.chan c) (s'.log c) (s'.native c) := by
  cases hmv with
  | opened hc hchan hlog hnative =>
      rw [hlog, hnative, h.formed.log c hc.ge, h.formed.native c hc.ge]
      exact (Delivered.fresh E).alike hchan.alike
  | bridged tag cltEnc hnone hnative hchan hlog =>
      rw [hnone] at hd
      rw [hlog, hnative]
      exact (hd.bridge tag cltEnc s.nextTask).alike hchan.alike
  | native t caller body pc _ _ _ _ _ hchan _ hlog hnative =>
      rw [hlog, hnative]
      have hsame : (s.chan c).Alike
          ((s.chan c).registerNative s.nextTask s.clock body s.debug).1 := by
        obtain ⟨key, history, traces, heq⟩ :=
          (s.chan c).registerNative_eq s.nextTask s.clock body s.debug
        rw [heq]
        exact ⟨rfl, rfl, rfl⟩
      exact ((hd.other ⟨rfl, rfl, rfl⟩).alike hsame).alike hchan.alike
  | replay t entry pc _ _ _ _ _ _ _ _ hchan _ hlog hnative =>
      rw [hlog, hnative]
      have hsame : (s.chan c).Alike ((s.chan c).registerReplay s.nextTask s.clock entry.body s.debug
          entry.sequence) := ⟨rfl, rfl, rfl⟩
      exact ((hd.other ⟨rfl, rfl, rfl⟩).alike hsame).alike hchan.alike
  | advance _ _ _ _ _ _ _ hchan hlog hnative =>
      rw [hlog, hnative]
      exact hd.alike hchan.alike
  | uploaded _ _ _ _ _ _ hchan hlog hnative =>
      rw [hlog, hnative]
      exact hd.alike ⟨hchan.closed, hchan.queue, hchan.transportError⟩
  | received _ _ _ _ _ _ _ _ _ _ hchan hlog hnative =>
      rw [hlog, hnative]
      exact hd.alike ⟨hchan.closed, hchan.queue, hchan.transportError⟩
  | ended u info p e receiving ch hreq he _ hbefore hafter hlog hnative =>
      rw [hlog, hnative]
      have hch : Delivered E ch (s.log c) (s.native c) :=
        hd.alike ⟨hbefore.closed, hbefore.queue, hbefore.transportError⟩
      have hsettled := hch.settle info.packet s.clock e fun reply hreply hne =>
        Returnable.encodable ⟨E, s, u, c, info, p, h, hreq, he reply hreply⟩ hne
      split at hafter
      · rename_i length ch' hfinish
        exact (hsettled.alike (Channel.finishRequest_alike hfinish)).alike hafter.1.alike
      · exact hsettled.alike hafter.1.alike
  | closing failure hchan _ hlog hnative =>
      rw [hlog, hnative]
      have hclosed : ((s.chan c).fail failure).closed = true := by
        rw [Channel.fail.eq_def]
        split_ifs with hc
        · exact hc
        · rfl
      have hsame : ((s.chan c).fail failure).Alike
          { (s.chan c).fail failure with closed := true } := ⟨hclosed.symm, rfl, rfl⟩
      exact (hd.fail (.inl rfl) hsame).alike hchan.alike
  | swept _ _ _ _ _ _ _ _ _ _ _ hbefore hfinish hchan hlog hnative =>
      rw [hlog, hnative]
      exact ((hd.alike hbefore.alike).alike (Channel.finishRequest_alike hfinish)).alike hchan.alike
  | cleared _ _ _ _ hchan hlog hnative =>
      rw [hlog, hnative]
      exact hd.alike ⟨hchan.closed, hchan.queue, hchan.transportError⟩
  | rotated victim packet hchan hlog hnative =>
      rw [hlog, hnative]
      have hsame : (s.chan c).Alike ((s.chan c).rotate victim packet) := by
        cases packet <;> exact ⟨rfl, rfl, rfl⟩
      exact (hd.alike hsame).alike hchan.alike
  | dropped item queue hqueue hdrop hchan hlog hnative =>
      rw [hlog, hnative]
      exact hd.drop hqueue hdrop hchan.closed hchan.transportError
  | wrote _ body queue n padding frame _ hqueue hopen hn hframe hchan hlog hnative =>
      rw [hn] at hd
      rw [hlog, hnative]
      exact hd.write hopen hqueue hframe hchan.queue hchan.closed hchan.transportError
  | drained _ _ _ hchan hlog hnative =>
      rw [hlog, hnative]
      exact hd.alike ⟨hchan.closed, hchan.queue, hchan.transportError⟩
  | wroteError t tasks n code packed padding frame hpc _ hcode hpacked hn hframe hchan hlog
      hnative =>
      have hno : (s.log c).filterMap Mark.asError = [] := by
        by_contra herr
        cases hrep t c tasks _ hpc herr
      rw [hn] at hd
      rw [hlog, hnative]
      exact (hd.report hcode hno hpacked hframe).alike hchan.alike

end Steps

/-- Every run keeps both. -/
theorem Reaches.delivered {E : AesKeystream} {s : Sys} (h : Reaches E s) :
    Reported s ∧ ∀ c, Delivered E (s.chan c) (s.log c) (s.native c) := by
  refine h.invariant
    (P := fun s => Reported s ∧ ∀ c, Delivered E (s.chan c) (s.log c) (s.native c)) ?_ ?_
  · rintro s ⟨clock, debug, -, rfl⟩
    exact ⟨nofun, fun c => .fresh E⟩
  · intro s e s' hr ⟨hrep, hd⟩ _ hs
    refine ⟨hrep.step hd hr hs, fun c => ?_⟩
    rcases stays_or_on (Reaches.formed hr).toAllocated (Reaches.move hr hs) c with hst | hmv
    · rw [hst.log, hst.native]
      exact (hd c).alike hst.chan.alike
    · exact (hd c).step hrep hr hmv

/-- In order, the frames are those of the replies and then that of the error, if any. -/
lemma asFrame_of_ordered {log : List Mark} (h : log.Pairwise Mark.Before) :
    ∃ report : Option (ℤ × Bytes), log.filterMap Mark.asError = report.toList ∧
      log.filterMap Mark.asFrame =
        (log.filterMap Mark.asWrote).map Prod.snd ++ report.toList.map Prod.snd := by
  induction log with
  | nil => exact ⟨none, rfl, rfl⟩
  | cons m log ih =>
      obtain ⟨hafter, hlog⟩ := List.pairwise_cons.mp h
      obtain ⟨report, herrors, hframes⟩ := ih hlog
      cases m with
      | wrote body frame =>
          refine ⟨report, herrors, ?_⟩
          show frame :: log.filterMap Mark.asFrame = _
          rw [hframes]
          rfl
      | wroteError code frame =>
          -- nothing is written after it
          have hnone : ∀ m ∈ log, m.asFrame = none := fun m hm => (hafter m hm).2 nofun
          have hwrote := List.filterMap_eq_nil_iff.mpr fun m hm =>
            Mark.asWrote_of_asFrame (hnone m hm)
          have herror := List.filterMap_eq_nil_iff.mpr fun m hm =>
            Mark.asError_of_asFrame (hnone m hm)
          refine ⟨some (code, frame), ?_, ?_⟩
          · show (code, frame) :: log.filterMap Mark.asError = _
            rw [herror]
            rfl
          · show frame :: log.filterMap Mark.asFrame = (log.filterMap Mark.asWrote).map _ ++ _
            rw [hwrote, List.filterMap_eq_nil_iff.mpr hnone]
            rfl
      | _ => exact ⟨report, herrors, hframes⟩

lemma asReply_complete (ch : Channel) (packet : Option ℕ) {reply : Bytes} (hne : reply ≠ [])
    (now : ℤ) : (ch.complete packet reply now).2.filterMap Mark.asReply = [reply] := by
  unfold Channel.complete
  simp only [if_neg hne]
  split_ifs <;> rfl

/-- What `_post` returns is on record. -/
lemma asReply_of_bodyEnd {E : AesKeystream} {s s' : Sys} {t c : ℕ} {info : Request} {p : Post}
    {reply : Bytes} (hpc : s.coro t = .request c info (.posting p))
    (hfinish : p.finish = .returned reply) (hne : reply ≠ [])
    (hs : step E (.run t .bodyEnd) s = some s') :
    (s'.log c).filterMap Mark.asReply = (s.log c).filterMap Mark.asReply ++ [reply] := by
  simp only [step, coroStep, hpc, requestStep, hfinish, Option.ite_none_right_eq_some] at hs
  obtain rfl := Option.some.inj hs.2
  unfold Sys.endPost Sys.finish Channel.settle
  simp only
  split <;> simp [asReply_complete _ _ hne]

/-- **What the native client is sent.**  In every state that a run reaches the octets handed to the
writer are one keystream over the frames of a prefix of the replies, in the order in which their
requests completed, and of the first failure, if it is a transport error and has been reported.  No
reply is written once the channel has failed, and nothing once the error is.  A reply is on record
from the step in which `_post` returns it. -/
theorem downstream_intact {E : AesKeystream} {s : Sys} (h : Reaches E s) (c : ℕ) {n : Native}
    (hn : s.native c = some n) :
    ∃ (sent : List (Bytes × Bytes)) (report : Option (ℤ × Bytes)),
      (s.log c).filterMap Mark.asWrote = sent ∧
      (s.log c).filterMap Mark.asError = report.toList ∧
      n.wire = n.given.peek E (sent.map Prod.snd ++ report.toList.map Prod.snd).flatten ∧
      (∀ p ∈ sent, ∃ padding, encodeReply p.1 n.tag padding = .ok p.2) ∧
      sent.map Prod.fst <+: (s.log c).filterMap Mark.asReply ∧
      (∀ code frame, report = some (code, frame) →
        ((s.log c).filterMap Mark.asFailure).head? = some (.transport code) ∧
        ∃ packed padding, leIntBytes 4 code = some packed ∧
          encodeReply packed n.tag padding = .ok frame) ∧
      (s.log c).Pairwise Mark.Before ∧
      ∀ t info p reply s', s.coro t = .request c info (.posting p) → p.finish = .returned reply →
        reply ≠ [] → step E (.run t .bodyEnd) s = some s' →
          (s'.log c).filterMap Mark.asReply = (s.log c).filterMap Mark.asReply ++ [reply] := by
  have hd := h.delivered.2 c
  obtain ⟨report, herrors, hframes⟩ := asFrame_of_ordered hd.ordered
  obtain ⟨hreplies, hreport⟩ := hd.framed n hn
  refine ⟨_, report, rfl, herrors, ?_, hreplies, hd.taken, ?_, hd.ordered,
    fun _ _ _ _ _ hpc hfinish hne hs => asReply_of_bodyEnd hpc hfinish hne hs⟩
  · rw [(hd.wire n hn).1, hframes]
  · rintro code frame rfl
    have hmem : (code, frame) ∈ (s.log c).filterMap Mark.asError := by
      rw [herrors]
      exact List.mem_singleton_self _
    obtain ⟨hclosed, hcode⟩ := hd.errors _ hmem
    obtain ⟨failure, hfirst, hfailure⟩ := hd.failed hclosed
    refine ⟨?_, hreport _ hmem⟩
    rw [hfirst]
    cases failure with
    | transport code' =>
        obtain rfl := Option.some.inj (hcode.symm.trans hfailure)
        rfl
    | _ => cases hcode.symm.trans hfailure

/-- A bridged lane that answers one packet with eight octets and fails on the next. -/
def answeredOnce : List Event :=
  [Event.openChannel, .bridge 0 protoTagSecure ⟨[], [], 0⟩,
      .run 0 (.packet (List.replicate 24 1))] ++
    List.replicate 7 (Event.run 0 .resume) ++
    [Event.run 4 .resume, .run 4 (.opened {}), .run 4 (.chunk [1, 2, 3, 4, 5, 6, 7, 8]),
      .run 4 .bodyEnd, .run 1 (.frame ⟨[9], by decide⟩), .run 1 .resume,
      .run 0 (.packet (List.replicate 24 2))] ++
    List.replicate 7 (Event.run 0 .resume) ++
    [Event.run 5 .resume, .run 5 (.opened { statusCode := 404 }), .run 1 (.frame ⟨[], by decide⟩),
      .run 3 .resume, .run 0 .cancelled, .run 2 .cancelled, .run 2 .resume,
      .run 3 (.frame ⟨[], by decide⟩)]

/-- Both frames are there, and the second is that of the error. -/
theorem downstream_intact_sample :
    ∃ (s : Sys) (n : Native), Reaches (fun _ _ _ => 0) s ∧ s.native 0 = some n ∧
      n.wire = [9, 0, 0, 0, 1, 2, 3, 4, 5, 6, 7, 8, 9] ++ [4, 0, 0, 0, 0x6c, 0xfe, 0xff, 0xff] ∧
      ∃ (sent : List (Bytes × Bytes)) (report : Option (ℤ × Bytes)),
        (s.log 0).filterMap Mark.asWrote = sent ∧
        (s.log 0).filterMap Mark.asError = report.toList ∧
        n.wire = n.given.peek (fun _ _ _ => 0)
          (sent.map Prod.snd ++ report.toList.map Prod.snd).flatten ∧
        sent.map Prod.fst <+: (s.log 0).filterMap Mark.asReply := by
  let E : AesKeystream := fun _ _ _ => 0
  have hrun : (exec (step E) answeredOnce (Sys.start 1 false)).bind
      (fun s => (s.native 0).map Native.wire) =
      some ([9, 0, 0, 0, 1, 2, 3, 4, 5, 6, 7, 8, 9] ++
        [4, 0, 0, 0, 0x6c, 0xfe, 0xff, 0xff]) := by
    decide +kernel
  obtain ⟨s, hs, hwire⟩ := Option.bind_eq_some_iff.mp hrun
  obtain ⟨n, hn, hwire⟩ := Option.map_eq_some_iff.mp hwire
  have hreach : Reaches E s := reachable_of_exec (.start ⟨1, false, one_pos, rfl⟩) hs
  obtain ⟨sent, report, hsent, hreport, hsame, -, hprefix, -, -⟩ := downstream_intact hreach 0 hn
  exact ⟨s, n, hreach, hn, hwire, sent, report, hsent, hreport, hsame, hprefix⟩

end TgWsProxy
