import TgWsProxy.H2.Transport.Connection
import TgWsProxy.Core.Bytes

/-!
# Uploads

`send_body` of `proxy/h2_transport.py`, octet by octet, over any HTTP/2 library.  Between its awaits
the peer, the reader and the other requests do what they like to the library.

* `Upload`, `Upload.step` — the loop over the chunks of a body, suspended in one of its awaits.
* `Handed` — what it hands to the library, with the state the library is in.
* `sendBatch_spec` — the frames of one batch.
* `Upload.Kept` — the invariant: what has been handed over and what is still to come are the body.
* **`sendBody_lossless`** — the frames are the body, and the end of the stream comes behind it.
-/

namespace TgWsProxy.H2Transport

open Wire

variable {η : Type*}

/-! ## The code -/

/-- A call of `send_data` or `end_stream`: what is sent, the state of the library before, and
whether it raises. -/
inductive Handed (η : Type*)
  | data (payload : Bytes) (h2 : η) (refused : Bool)
  | endStream (refused : Bool)

/-- The octets in a call. -/
def Handed.payload : Handed η → Bytes
  | data payload _ _ => payload
  | endStream _ => []

/-- The octets in some calls. -/
def payloads (handed : List (Handed η)) : Bytes := (handed.map Handed.payload).flatten

/-- Where `send_body` is suspended: in the iterator of the body, in its wait for the window, in
`drain` behind a batch or behind the end of the stream; or it has ended. -/
inductive UploadPhase
  | fetching
  | blocked
  | draining
  | finishing
  | returned
  | raised
  deriving DecidableEq, Repr

/-- `send_body`: the chunks the iterator has still to give, the present one and the offset in it,
and what `check_error` would find on the connection or on the stream.  For the record: what has been
handed to the library. -/
structure Upload (η : Type*) where
  h2 : η
  chunks : List Bytes
  data : Bytes
  offset : ℕ
  error : Bool
  phase : UploadPhase
  handed : List (Handed η)

/-- What can happen next.  `peer` is whatever others do to the library, windows and settings
included. -/
inductive UploadEvent (η : Type*)
  | peer (h2 : η)
  | failed
  | fetched
  | fetchRaised
  | woken
  | timeout
  | drained
  | drainRaised
  | cancelled

section Library

variable (lib : H2Library η) (streamId : ℕ)

/-- The loop of `send_data` up to `batchEnd`: the calls, whether one raised, and the library behind
it.  A frame takes at least one octet, so that `fuel` is an upper bound for the octets. -/
def sendBatch (data : Bytes) (batchEnd : ℕ) : ℕ → ℕ → η → List (Handed η) × Bool × η
  | 0, _, h => ([], false, h)
  | fuel + 1, offset, h =>
      if offset < batchEnd then
        let frameEnd := min batchEnd (offset + lib.maxOutboundFrameSize h)
        let payload := slice data offset frameEnd
        match lib.sendData streamId payload.length h with
        | (none, h') =>
            let (frames, refused, h'') := sendBatch data batchEnd fuel frameEnd h'
            (.data payload h false :: frames, refused, h'')
        | (some _, h') => ([.data payload h true], true, h')
      else ([], false, h)

namespace Upload

/-- One turn of the loop over a chunk. -/
def turn (u : Upload η) : Upload η :=
  if u.offset < u.data.length then
    if u.error then { u with phase := .raised }
    else
      match lib.localFlowControlWindow streamId u.h2 with
      | .error _ => { u with phase := .raised }
      | .ok window =>
          let count := min (min ((u.data.length : ℤ) - u.offset) ioBatchSize) window
          if count ≤ 0 then { u with phase := .blocked }
          else
            let batchEnd := u.offset + count.toNat
            match sendBatch lib streamId u.data batchEnd count.toNat u.offset u.h2 with
            | (frames, true, h2) => { u with h2, phase := .raised, handed := u.handed ++ frames }
            | (frames, false, h2) =>
                { u with h2, offset := batchEnd, phase := .draining, handed := u.handed ++ frames }
  else { u with phase := .fetching }

/-- Behind the last chunk. -/
def endBody (u : Upload η) : Upload η :=
  match lib.endStream streamId u.h2 with
  | (none, h2) => { u with h2, phase := .finishing, handed := u.handed ++ [.endStream false] }
  | (some _, h2) => { u with h2, phase := .raised, handed := u.handed ++ [.endStream true] }

/-- One step. -/
def step (e : UploadEvent η) (u : Upload η) : Option (Upload η) :=
  match e, u.phase with
  | .peer h2, _ => some { u with h2 }
  | .failed, _ => some { u with error := true }
  | .fetched, .fetching =>
      match u.chunks with
      | [] => some (u.endBody lib streamId)
      | data :: chunks => some ({ u with chunks, data, offset := 0 }.turn lib streamId)
  | .fetchRaised, .fetching => some { u with phase := .raised }
  | .woken, .blocked => some (u.turn lib streamId)
  | .timeout, .blocked => some { u with phase := .raised }
  | .drained, .draining => some (u.turn lib streamId)
  | .drained, .finishing => some { u with phase := .returned }
  | .drainRaised, .draining => some { u with phase := .raised }
  | .drainRaised, .finishing => some { u with phase := .raised }
  | .cancelled, .returned => none
  | .cancelled, .raised => none
  | .cancelled, _ => some { u with phase := .raised }
  | _, _ => none

/-- `send_body` as it starts on a body. -/
def Starting (body : List Bytes) (u : Upload η) : Prop :=
  u.chunks = body ∧ u.data = [] ∧ u.offset = 0 ∧ u.phase = .fetching ∧ u.handed = []

/-- Any peer, any errors, any timeouts. -/
def Reaches (body : List Bytes) (u : Upload η) : Prop :=
  Reachable (Starting body) (step lib streamId) Always u

end Upload

end Library

/-! ## A batch -/

section Batch

variable {lib : H2Library η} {streamId : ℕ}

/-- Calls of `send_data` that went through. -/
def Plain (frames : List (Handed η)) : Prop := ∀ f ∈ frames, ∃ payload h, f = .data payload h false

/-- A frame as it should be: not empty, not above the frame size, and within the window left. -/
def Fits (lib : H2Library η) (streamId : ℕ) (payload : Bytes) (h : η) : Prop :=
  payload ≠ [] ∧ payload.length ≤ lib.maxOutboundFrameSize h ∧
    ∃ window, lib.localFlowControlWindow streamId h = .ok window ∧ (payload.length : ℤ) ≤ window

/-- `send_data` takes the payload off the window. -/
def Decreasing (lib : H2Library η) (streamId : ℕ) : Prop :=
  ∀ (n : ℕ) (h : η) (window : ℤ), lib.localFlowControlWindow streamId h = .ok window →
    (lib.sendData streamId n h).1 = none →
      lib.localFlowControlWindow streamId (lib.sendData streamId n h).2 = .ok (window - n)

@[simp] lemma payloads_nil : payloads ([] : List (Handed η)) = [] := rfl

@[simp] lemma payloads_cons (f : Handed η) (frames : List (Handed η)) :
    payloads (f :: frames) = f.payload ++ payloads frames := rfl

@[simp] lemma payloads_append (frames frames' : List (Handed η)) :
    payloads (frames ++ frames') = payloads frames ++ payloads frames' := by
  simp [payloads]

lemma Plain.append {frames frames' : List (Handed η)} (h : Plain frames) (h' : Plain frames') :
    Plain (frames ++ frames') := fun f hf => (List.mem_append.mp hf).elim (h f) (h' f)

lemma slice_append_slice (bs : Bytes) {a b c : ℕ} (hab : a ≤ b) (hbc : b ≤ c) :
    slice bs a b ++ slice bs b c = slice bs a c := by
  obtain ⟨k, rfl⟩ := Nat.exists_eq_add_of_le hab
  obtain ⟨l, rfl⟩ := Nat.exists_eq_add_of_le hbc
  simp only [slice, List.drop_take, Nat.add_sub_cancel_left]
  rw [show a + k + l - a = k + l by omega, List.take_add, List.drop_drop]

section Step

variable {data : Bytes} {batchEnd fuel offset : ℕ} {h h' : η}

lemma sendBatch_end (hge : batchEnd ≤ offset) :
    sendBatch lib streamId data batchEnd fuel offset h = ([], false, h) := by
  cases fuel with
  | zero => rfl
  | succ fuel => rw [sendBatch, if_neg (not_lt.mpr hge)]

lemma sendBatch_sent {frameEnd : ℕ} (hlt : offset < batchEnd)
    (hframe : min batchEnd (offset + lib.maxOutboundFrameSize h) = frameEnd)
    (hsend : lib.sendData streamId (slice data offset frameEnd).length h = (none, h')) :
    sendBatch lib streamId data batchEnd (fuel + 1) offset h =
      let rest := sendBatch lib streamId data batchEnd fuel frameEnd h'
      (.data (slice data offset frameEnd) h false :: rest.1, rest.2.1, rest.2.2) := by
  rw [sendBatch, if_pos hlt]
  simp only [hframe, hsend]

lemma sendBatch_refused {frameEnd : ℕ} {e : Refused} (hlt : offset < batchEnd)
    (hframe : min batchEnd (offset + lib.maxOutboundFrameSize h) = frameEnd)
    (hsend : lib.sendData streamId (slice data offset frameEnd).length h = (some e, h')) :
    sendBatch lib streamId data batchEnd (fuel + 1) offset h =
      ([.data (slice data offset frameEnd) h true], true, h') := by
  rw [sendBatch, if_pos hlt]
  simp only [hframe, hsend]

end Step

/-- The frames of a batch: each fits, and the payloads are the octets from the offset on, all of
them up to the end of the batch unless a frame was refused, which is then the last. -/
structure Batch (lib : H2Library η) (streamId : ℕ) (data : Bytes) (offset batchEnd : ℕ)
    (frames : List (Handed η)) (refused : Bool) : Prop where
  fits : ∀ f ∈ frames, ∃ payload h r, f = .data payload h r ∧ Fits lib streamId payload h
  octets : ∃ e, offset ≤ e ∧ e ≤ batchEnd ∧ payloads frames = slice data offset e ∧
    (refused = false → e = batchEnd)
  plain : refused = false → Plain frames

/-- **A batch** within the window. -/
lemma sendBatch_spec (hsize : ∀ h, 1 ≤ lib.maxOutboundFrameSize h)
    (hwindow : Decreasing lib streamId) (data : Bytes) (batchEnd : ℕ)
    (hend : batchEnd ≤ data.length) (fuel offset : ℕ) {h : η} {window : ℤ}
    (hoff : offset ≤ batchEnd) (hfuel : batchEnd - offset ≤ fuel)
    (hw : lib.localFlowControlWindow streamId h = .ok window)
    (hle : ((batchEnd - offset : ℕ) : ℤ) ≤ window) :
    Batch lib streamId data offset batchEnd
      (sendBatch lib streamId data batchEnd fuel offset h).1
      (sendBatch lib streamId data batchEnd fuel offset h).2.1 := by
  induction fuel generalizing offset h window with
  | zero =>
      rw [sendBatch_end (by omega)]
      exact ⟨by rintro _ ⟨⟩, ⟨offset, le_rfl, hoff, by simp [slice], fun _ => by omega⟩, by rintro - _ ⟨⟩⟩
  | succ fuel ih =>
      by_cases hlt : offset < batchEnd
      · have hpos := hsize h
        obtain ⟨frameEnd, hframe⟩ :
            ∃ e, min batchEnd (offset + lib.maxOutboundFrameSize h) = e := ⟨_, rfl⟩
        have hlen : (slice data offset frameEnd).length = frameEnd - offset := by
          rw [length_slice]
          omega
        have hfits : Fits lib streamId (slice data offset frameEnd) h := by
          refine ⟨List.ne_nil_of_length_pos ?_, ?_, window, hw, ?_⟩
          all_goals
            rw [hlen]
            omega
        rcases hsend : lib.sendData streamId (slice data offset frameEnd).length h with ⟨_ | e, h₁⟩
        · have hnext := hwindow (slice data offset frameEnd).length h window hw (by rw [hsend])
          rw [hsend, hlen] at hnext
          obtain ⟨hall, ⟨e, hge, hle', hpay, hdone⟩, hplain⟩ :=
            ih frameEnd (by omega) (by omega) hnext (by omega)
          rw [sendBatch_sent hlt hframe hsend]
          refine ⟨fun f hf => ?_, ⟨e, by omega, hle', ?_, hdone⟩, fun hr f hf => ?_⟩
          · rcases List.mem_cons.mp hf with rfl | hf
            · exact ⟨_, _, _, rfl, hfits⟩
            · exact hall f hf
          · rw [payloads_cons, hpay]
            exact slice_append_slice data (by omega) hge
          · rcases List.mem_cons.mp hf with rfl | hf
            · exact ⟨_, _, rfl⟩
            · exact hplain hr f hf
        · rw [sendBatch_refused hlt hframe hsend]
          refine ⟨fun f hf => ?_, ⟨frameEnd, by omega, by omega, ?_, by rintro ⟨⟩⟩, by rintro ⟨⟩⟩
          · obtain rfl := List.mem_singleton.mp hf
            exact ⟨_, _, _, rfl, hfits⟩
          · simp [Handed.payload]
      · rw [sendBatch_end (not_lt.mp hlt)]
        exact ⟨by rintro _ ⟨⟩, ⟨offset, le_rfl, hoff, by simp [slice], fun _ => by omega⟩, by rintro - _ ⟨⟩⟩

/-- **The connection sees the same batch.**  Without the octets, and with a frame size that sending
does not change, a batch is what `Connection.sendFrames` makes of its length. -/
lemma sendFrames_eq_sendBatch {size : ℕ} (hpos : 1 ≤ size)
    (hconst : ∀ n h, lib.maxOutboundFrameSize h = size →
      lib.maxOutboundFrameSize (lib.sendData streamId n h).2 = size)
    {data : Bytes} {batchEnd : ℕ} (hend : batchEnd ≤ data.length) {fuel offset : ℕ} {h : η}
    (hsize : lib.maxOutboundFrameSize h = size) :
    let r := Connection.sendFrames lib streamId size fuel (batchEnd - offset) h
    (r.1.isSome, r.2) = (sendBatch lib streamId data batchEnd fuel offset h).2 := by
  induction fuel generalizing offset h with
  | zero => rfl
  | succ fuel ih =>
      by_cases hlt : offset < batchEnd
      · obtain ⟨frameEnd, hframe⟩ :
            ∃ e, min batchEnd (offset + lib.maxOutboundFrameSize h) = e := ⟨_, rfl⟩
        have hlen : (slice data offset frameEnd).length = min size (batchEnd - offset) := by
          rw [length_slice]
          omega
        rw [Connection.sendFrames, if_neg (by omega)]
        match hsend : lib.sendData streamId (slice data offset frameEnd).length h with
        | (none, h₁) =>
            have hnext := hconst (slice data offset frameEnd).length h hsize
            rw [hsend] at hnext
            rw [sendBatch_sent hlt hframe hsend, ← hlen, hsend]
            simp only
            rw [hlen, show batchEnd - offset - min size (batchEnd - offset) = batchEnd - frameEnd by
              omega]
            exact ih hnext
        | (some e, h₁) =>
            rw [sendBatch_refused hlt hframe hsend, ← hlen, hsend]
            rfl
      · rw [sendBatch_end (not_lt.mp hlt), Connection.sendFrames, if_pos (by omega)]
        rfl

end Batch

/-! ## The invariant -/

namespace Upload

variable {lib : H2Library η} {streamId : ℕ} {body : List Bytes} {u u' : Upload η}

/-- What has been handed over and what is still to come are the body. -/
def Running (body : List Bytes) (u : Upload η) (rest : Bytes) : Prop :=
  Plain u.handed ∧ payloads u.handed ++ rest = body.flatten

/-- The whole body has been handed over, and the end of the stream behind it. -/
def Ended (body : List Bytes) (u : Upload η) : Prop :=
  ∃ frames, u.handed = frames ++ [.endStream false] ∧ Plain frames ∧
    payloads frames = body.flatten

/-- What has been handed over is a part of the body, and the whole body before the end of the
stream. -/
def Stopped (body : List Bytes) (u : Upload η) : Prop :=
  payloads u.handed <+: body.flatten ∧ ∀ r, .endStream r ∈ u.handed →
    payloads u.handed = body.flatten ∧ ∀ payload h, .data payload h true ∉ u.handed

/-- The invariant, by where `send_body` is suspended. -/
def Progress (body : List Bytes) (u : Upload η) : Prop :=
  match u.phase with
  | .fetching => u.Running body u.chunks.flatten
  | .blocked => u.Running body (u.data.drop u.offset ++ u.chunks.flatten)
  | .draining => u.Running body (u.data.drop u.offset ++ u.chunks.flatten)
  | .finishing => u.Ended body
  | .returned => u.Ended body
  | .raised => u.Stopped body

/-- **The invariant.** -/
structure Kept (lib : H2Library η) (streamId : ℕ) (body : List Bytes) (u : Upload η) : Prop where
  fits : ∀ payload h r, .data payload h r ∈ u.handed → Fits lib streamId payload h
  progress : u.Progress body

lemma endStream_not_mem {frames : List (Handed η)} (h : Plain frames) (r : Bool) :
    .endStream r ∉ frames := by
  intro hmem
  obtain ⟨payload, h', heq⟩ := h _ hmem
  cases heq

lemma refused_not_mem {frames : List (Handed η)} (h : Plain frames) (payload : Bytes) (h2 : η) :
    .data payload h2 true ∉ frames := by
  intro hmem
  obtain ⟨payload', h', heq⟩ := h _ hmem
  cases heq

lemma Running.stopped {rest : Bytes} (h : u.Running body rest) : u.Stopped body :=
  ⟨⟨rest, h.2⟩, fun r hr => absurd hr (endStream_not_mem h.1 r)⟩

lemma Ended.stopped (h : u.Ended body) : u.Stopped body := by
  obtain ⟨frames, hhanded, hplain, hpay⟩ := h
  have hall : payloads u.handed = body.flatten := by
    rw [hhanded, payloads_append, hpay]
    exact List.append_nil _
  refine ⟨hall ▸ List.prefix_rfl, fun r _ => ⟨hall, fun payload h hmem => ?_⟩⟩
  rw [hhanded] at hmem
  rcases List.mem_append.mp hmem with hmem | hmem
  · exact refused_not_mem hplain payload h hmem
  · cases List.mem_singleton.mp hmem

/-- Wherever it is suspended, what has been handed over is a part of the body. -/
lemma Progress.stopped (h : u.Progress body) : u.Stopped body := by
  rw [Progress] at h
  split at h
  · exact h.stopped
  · exact h.stopped
  · exact h.stopped
  · exact h.stopped
  · exact h.stopped
  · exact h

/-- An exception. -/
lemma Kept.raise (h : Kept lib streamId body u) :
    Kept lib streamId body { u with phase := .raised } :=
  ⟨h.fits, h.progress.stopped⟩

/-- **One turn of the loop.** -/
lemma kept_turn (hsize : ∀ h, 1 ≤ lib.maxOutboundFrameSize h) (hwindow : Decreasing lib streamId)
    (hfits : ∀ payload h r, .data payload h r ∈ u.handed → Fits lib streamId payload h)
    (h : u.Running body (u.data.drop u.offset ++ u.chunks.flatten)) :
    Kept lib streamId body (u.turn lib streamId) := by
  rw [turn]
  by_cases hlt : u.offset < u.data.length
  · rw [if_pos hlt]
    by_cases herror : u.error = true
    · rw [if_pos herror]
      exact ⟨hfits, h.stopped⟩
    rw [if_neg herror]
    rcases hw : lib.localFlowControlWindow streamId u.h2 with _ | window
    · exact ⟨hfits, h.stopped⟩
    · simp only
      obtain ⟨count, hcount⟩ :
          ∃ n, min (min ((u.data.length : ℤ) - u.offset) ioBatchSize) window = n := ⟨_, rfl⟩
      simp only [hcount]
      by_cases hzero : count ≤ 0
      · rw [if_pos hzero]
        exact ⟨hfits, h⟩
      rw [if_neg hzero]
      have hspec := sendBatch_spec hsize hwindow u.data (u.offset + count.toNat) (by omega)
        count.toNat u.offset (by omega) (by omega) hw (by omega)
      have hfits' : ∀ payload h r, .data payload h r ∈ u.handed ++
          (sendBatch lib streamId u.data (u.offset + count.toNat) count.toNat u.offset u.h2).1 →
            Fits lib streamId payload h := by
        intro payload h r hmem
        rcases List.mem_append.mp hmem with hmem | hmem
        · exact hfits payload h r hmem
        · obtain ⟨payload', h', r', heq, hf⟩ := hspec.fits _ hmem
          cases heq
          exact hf
      obtain ⟨e, hge, hle, hpay, hdone⟩ := hspec.octets
      have hpart : ∀ k, u.offset ≤ k →
          slice u.data u.offset k ++ u.data.drop k = u.data.drop u.offset := by
        intro k hk
        obtain ⟨l, rfl⟩ := Nat.exists_eq_add_of_le hk
        rw [slice, List.drop_take, Nat.add_sub_cancel_left, ← List.drop_drop,
          List.take_append_drop]
      rcases hrefused : (sendBatch lib streamId u.data (u.offset + count.toNat) count.toNat
          u.offset u.h2) with ⟨frames, _ | _, h2⟩
      · rw [hrefused] at hfits' hpay hdone hspec
        obtain rfl := hdone rfl
        refine ⟨hfits', h.1.append (hspec.plain rfl), ?_⟩
        show payloads (u.handed ++ frames) ++ _ = _
        rw [payloads_append, hpay, List.append_assoc, ← List.append_assoc (slice _ _ _),
          hpart _ hge]
        exact h.2
      · rw [hrefused] at hfits' hpay
        refine ⟨hfits', ?_, fun r hr => ?_⟩
        · refine ⟨u.data.drop e ++ u.chunks.flatten, ?_⟩
          show payloads (u.handed ++ frames) ++ _ = _
          rw [payloads_append, hpay, List.append_assoc, ← List.append_assoc (slice _ _ _),
            hpart e hge]
          exact h.2
        · rcases List.mem_append.mp hr with hr | hr
          · exact absurd hr (endStream_not_mem h.1 r)
          · rw [hrefused] at hspec
            obtain ⟨payload, h', r', heq, -⟩ := hspec.fits _ hr
            cases heq
  · rw [if_neg hlt]
    rw [List.drop_eq_nil_of_le (not_lt.mp hlt), List.nil_append] at h
    exact ⟨hfits, h⟩

lemma kept_endBody (h : Kept lib streamId body u) (hphase : u.phase = .fetching)
    (hchunks : u.chunks = []) : Kept lib streamId body (u.endBody lib streamId) := by
  have hrun := h.progress
  rw [Progress, hphase, hchunks] at hrun
  have hall : payloads u.handed = body.flatten := (List.append_nil _).symm.trans hrun.2
  have hfits : ∀ r payload h r', .data payload h r' ∈ u.handed ++ [.endStream r] →
      Fits lib streamId payload h := by
    intro r payload h' r' hmem
    rcases List.mem_append.mp hmem with hmem | hmem
    · exact h.fits payload h' r' hmem
    · cases List.mem_singleton.mp hmem
  rw [endBody]
  split
  · exact ⟨hfits false, u.handed, rfl, hrun.1, hall⟩
  · refine ⟨hfits true, ?_⟩
    have hpay : payloads (u.handed ++ [.endStream true]) = body.flatten := by
      rw [payloads_append, hall]
      exact List.append_nil _
    refine ⟨(congrArg (· <+: body.flatten) hpay).mpr List.prefix_rfl, fun r _ => ⟨hpay, ?_⟩⟩
    intro payload h' hmem
    rcases List.mem_append.mp hmem with hmem | hmem
    · exact refused_not_mem hrun.1 payload h' hmem
    · cases List.mem_singleton.mp hmem

/-- **One step.** -/
lemma Kept.step (hsize : ∀ h, 1 ≤ lib.maxOutboundFrameSize h) (hwindow : Decreasing lib streamId)
    (h : Kept lib streamId body u) {e : UploadEvent η}
    (hs : Upload.step lib streamId e u = some u') : Kept lib streamId body u' := by
  have hprogress := h.progress
  rw [Progress] at hprogress
  rw [Upload.step.eq_def] at hs
  split at hs
  · obtain rfl := Option.some.inj hs
    exact ⟨h.fits, h.progress⟩
  · obtain rfl := Option.some.inj hs
    exact ⟨h.fits, h.progress⟩
  · next hphase =>
      rw [hphase] at hprogress
      split at hs
      · next hchunks =>
          obtain rfl := Option.some.inj hs
          exact kept_endBody h hphase hchunks
      · next data chunks hchunks =>
          obtain rfl := Option.some.inj hs
          refine kept_turn hsize hwindow h.fits ⟨hprogress.1, ?_⟩
          rw [hchunks] at hprogress
          exact hprogress.2
  · obtain rfl := Option.some.inj hs
    exact h.raise
  · next hphase =>
      rw [hphase] at hprogress
      obtain rfl := Option.some.inj hs
      exact kept_turn hsize hwindow h.fits hprogress
  · obtain rfl := Option.some.inj hs
    exact h.raise
  · next hphase =>
      rw [hphase] at hprogress
      obtain rfl := Option.some.inj hs
      exact kept_turn hsize hwindow h.fits hprogress
  · next hphase =>
      rw [hphase] at hprogress
      obtain rfl := Option.some.inj hs
      exact ⟨h.fits, hprogress⟩
  · obtain rfl := Option.some.inj hs
    exact h.raise
  · obtain rfl := Option.some.inj hs
    exact h.raise
  · cases hs
  · cases hs
  · obtain rfl := Option.some.inj hs
    exact h.raise
  · cases hs

lemma Reaches.kept (hsize : ∀ h, 1 ≤ lib.maxOutboundFrameSize h)
    (hwindow : Decreasing lib streamId) (h : Reaches lib streamId body u) :
    Kept lib streamId body u := by
  refine h.invariant ?_ fun u e u' _ hk _ hs => hk.step hsize hwindow hs
  rintro u ⟨hchunks, -, -, hphase, hhanded⟩
  refine ⟨fun payload h r hmem => ?_, ?_⟩
  · rw [hhanded] at hmem
    cases hmem
  · rw [Progress, hphase, Running, hhanded, hchunks]
    exact ⟨nofun, rfl⟩

end Upload

open Upload

/-- **Uploads.**  Whatever the windows and the frame sizes that the peer allows, every frame is not
empty, not above the frame size and within the window left; the frames are the body, in order, as
far as it has been sent; when `send_body` returns, the end of the stream has been sent once, behind
the whole body; and while octets of the body are unsent, or have been refused, it has not been. -/
theorem sendBody_lossless {lib : H2Library η} {streamId : ℕ}
    (hsize : ∀ h, 1 ≤ lib.maxOutboundFrameSize h) (hwindow : Decreasing lib streamId)
    {body : List Bytes} {u : Upload η} (h : Reaches lib streamId body u) :
    (∀ payload h r, .data payload h r ∈ u.handed → Fits lib streamId payload h) ∧
      payloads u.handed <+: body.flatten ∧
      (u.phase = .returned → ∃ frames, u.handed = frames ++ [.endStream false] ∧ Plain frames ∧
        payloads frames = body.flatten) ∧
      (payloads u.handed ≠ body.flatten ∨ (∃ payload h, .data payload h true ∈ u.handed) →
        ∀ r, .endStream r ∉ u.handed) := by
  have hkept := h.kept hsize hwindow
  obtain ⟨hpre, hend⟩ := hkept.progress.stopped
  refine ⟨hkept.fits, hpre, fun hphase => ?_, fun hunsent r hr => ?_⟩
  · have hprogress := hkept.progress
    rw [Progress, hphase] at hprogress
    exact hprogress
  · obtain ⟨hall, hnone⟩ := hend r hr
    rcases hunsent with hne | ⟨payload, h', hmem⟩
    · exact hne hall
    · exact hnone payload h' hmem

/-- A library that knows a window and takes frames of two octets. -/
def windowLibrary : H2Library ℤ where
  receiveData _ h := (none, h)
  dataToSend h := ([], h)
  incrementFlowControlWindow _ _ h := (none, h)
  maxConcurrentStreams _ := 1
  getNextAvailableStreamId _ := some 1
  sendHeaders _ h := (none, h)
  localFlowControlWindow _ h := .ok h
  maxOutboundFrameSize _ := 2
  sendData _ n h := if n ≤ h then (none, h - n) else (some .other, h)
  endStream _ h := (none, h)
  resetStream _ h := (none, h)

lemma windowLibrary_decreasing (streamId : ℕ) : Decreasing windowLibrary streamId := by
  intro n h window hw hsend
  obtain rfl := Except.ok.inj hw
  simp only [windowLibrary] at hsend ⊢
  split_ifs at hsend ⊢
  rfl

/-- Two chunks, one of them empty, through a window of three octets that is opened again. -/
theorem sendBody_lossless_sample :
    ∃ u : Upload ℤ, Reaches windowLibrary 1 [[1, 2, 3, 4, 5], []] u ∧ u.phase = .returned ∧
      u.handed.map Handed.payload = [[1, 2], [3], [4, 5], []] ∧
      payloads u.handed <+: [1, 2, 3, 4, 5] := by
  let start : Upload ℤ := ⟨3, [[1, 2, 3, 4, 5], []], [], 0, false, .fetching, []⟩
  have hrun : (exec (step windowLibrary 1) [.fetched, .drained, .peer 9, .woken, .drained, .fetched,
      .fetched, .drained] start).map (fun u => (u.phase, u.handed.map Handed.payload)) =
        some (.returned, [[1, 2], [3], [4, 5], []]) := by decide +kernel
  obtain ⟨u, hu, hview⟩ := Option.map_eq_some_iff.mp hrun
  obtain ⟨hphase, hhanded⟩ := Prod.mk.inj hview
  have hreach : Reaches windowLibrary 1 [[1, 2, 3, 4, 5], []] u :=
    reachable_of_exec (.start ⟨rfl, rfl, rfl, rfl, rfl⟩) hu
  exact ⟨u, hreach, hphase, hhanded,
    (sendBody_lossless (fun _ => one_le_two) (windowLibrary_decreasing 1) hreach).2.1⟩

end TgWsProxy.H2Transport
