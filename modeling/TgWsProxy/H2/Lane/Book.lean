import TgWsProxy.H2.Lane.Closing
import TgWsProxy.H2.Lane.History

/-!
# The records of requests

A channel keeps seven collections of tasks beside `pending`: when each was sent, which are received,
which are replays, their traces, and for each packet its originals and its replay.

* `Channel.Original`, `Channel.Probe` — what the history says about a task.
* `Book` — what the records of a channel have to do with its requests.
* `Clerical` — a change of the records that adds nothing.
* `Enters` — a change of the records that adds one task.
* **`request_books_kept`** — the records agree along every run, and `close` leaves none.
-/

namespace TgWsProxy

open Wire

/-- The requests of a lane. -/
abbrev Requests := ℕ → Option (ℕ × Request × RequestPc)

namespace Channel

/-- The history has the task as an original of the packet. -/
def Original (ch : Channel) (u sequence : ℕ) : Prop :=
  ∃ entry ∈ ch.replayHistory, entry.sequence = sequence ∧ u ∈ entry.originals

/-- The history has the task as the replay of the packet. -/
def Probe (ch : Channel) (u sequence : ℕ) : Prop :=
  ∃ entry ∈ ch.replayHistory, entry.sequence = sequence ∧ entry.pending = some u

end Channel

/-- **The books of a channel.**  What it records about a task is about a request that is pending, in
the role and with the packet that the request was given. -/
structure Book (c : ℕ) (ch : Channel) (req : Requests) : Prop where
  since : ∀ u ∈ ch.pendingSince.keys, u ∈ ch.pending.keys
  sent : ∀ u ∈ ch.sentSince.keys, u ∈ ch.pending.keys
  traces : ∀ u ∈ ch.requestTraces, u ∈ ch.pending.keys
  live : ∀ u info pc, req u = some (c, info, pc) → pc.Live → u ∈ ch.pending.keys
  receiving : ∀ u ∈ ch.receivingTasks,
    ∃ info p, req u = some (c, info, .posting p) ∧ p.receiving = true
  replay : ∀ u ∈ ch.replayPending, u ∈ ch.pending.keys ∧
    ∃ info pc, req u = some (c, info, pc) ∧ info.replay = true
  original : ∀ u q, ch.Original u q → u ∈ ch.pending.keys ∧
    ∃ info pc, req u = some (c, info, pc) ∧ info.replay = false ∧ info.packet = some q
  probe : ∀ u q, ch.Probe u q → u ∈ ch.replayPending ∧
    ∃ info pc, req u = some (c, info, pc) ∧ info.replay = true ∧ info.packet = some q
  done : ch.closeDone = true → ch.closed = true ∧ ch.pending.keys = [] ∧ ch.replayHistory = []

/-! ## Records that add nothing -/

/-- The records of `b` are records of `a`. -/
structure Clerical (a b : Channel) : Prop where
  closed : a.closed = true → b.closed = true
  done : b.closeDone = a.closeDone
  pending : b.pending = a.pending
  since : b.pendingSince = a.pendingSince
  sent : ∀ u ∈ b.sentSince.keys, u ∈ a.sentSince.keys
  traces : b.requestTraces = a.requestTraces
  receiving : b.receivingTasks ⊆ a.receivingTasks
  replay : b.replayPending = a.replayPending
  original : ∀ u q, b.Original u q → a.Original u q
  probe : ∀ u q, b.Probe u q → a.Probe u q
  history : a.replayHistory = [] → b.replayHistory = []

namespace Clerical

variable {a b d : Channel}

lemma trans (h : Clerical a b) (h' : Clerical b d) : Clerical a d where
  closed hc := h'.closed (h.closed hc)
  done := h'.done.trans h.done
  pending := h'.pending.trans h.pending
  since := h'.since.trans h.since
  sent u hu := h.sent u (h'.sent u hu)
  traces := h'.traces.trans h.traces
  receiving := h'.receiving.trans h.receiving
  replay := h'.replay.trans h.replay
  original u q hu := h.original u q (h'.original u q hu)
  probe u q hu := h.probe u q (h'.probe u q hu)
  history hn := h'.history (h.history hn)

lemma of_same (h : a.Same b) : Clerical a b where
  closed hc := h.closed ▸ hc
  done := h.closeDone
  pending := h.pending
  since := h.pendingSince
  sent u hu := h.sentSince ▸ hu
  traces := h.requestTraces
  receiving := h.receivingTasks.subset
  replay := h.replayPending
  original u q := by
    rintro ⟨entry, hentry, heq⟩
    exact ⟨entry, h.replayHistory ▸ hentry, heq⟩
  probe u q := by
    rintro ⟨entry, hentry, heq⟩
    exact ⟨entry, h.replayHistory ▸ hentry, heq⟩
  history hn := h.replayHistory.trans hn

end Clerical

/-- The replies are no records of tasks. -/
lemma Clerical.setReplies (a : Channel) (queue : List QueueItem) (bytes : ℤ) (since : Option ℤ) :
    Clerical a { a with queue := queue, replyBytes := bytes, deliveringSince := since } :=
  ⟨id, rfl, rfl, rfl, fun _ => id, rfl, subset_rfl, rfl, fun _ _ => id, fun _ _ => id, id⟩

/-- An entry after a change of the packet of that number. -/
lemma Channel.mem_updatePacket {ch : Channel} {sequence : ℕ} {f : ReplayPacket → ReplayPacket}
    {entry : ReplayPacket} (h : entry ∈ (ch.updatePacket sequence f).replayHistory) :
    ∃ old ∈ ch.replayHistory,
      entry = old ∧ old.sequence ≠ sequence ∨ entry = f old ∧ old.sequence = sequence := by
  obtain ⟨old, hold, heq⟩ := List.mem_map.mp h
  refine ⟨old, hold, ?_⟩
  split_ifs at heq with hseq
  · exact Or.inr ⟨heq.symm, hseq⟩
  · exact Or.inl ⟨heq.symm, hseq⟩

/-- A packet is changed, but not its tasks. -/
lemma Clerical.updatePacket (a : Channel) (sequence : ℕ) {f : ReplayPacket → ReplayPacket}
    (hseq : ∀ entry, (f entry).sequence = entry.sequence)
    (horiginals : ∀ entry, (f entry).originals = entry.originals)
    (hpending : ∀ entry, (f entry).pending = entry.pending) :
    Clerical a (a.updatePacket sequence f) := by
  refine ⟨id, rfl, rfl, rfl, fun _ => id, rfl, subset_rfl, rfl, ?_, ?_, ?_⟩
  · rintro u q ⟨entry, hentry, rfl, hu⟩
    obtain ⟨old, hold, ⟨rfl, -⟩ | ⟨rfl, -⟩⟩ := Channel.mem_updatePacket hentry
    · exact ⟨entry, hold, rfl, hu⟩
    · exact ⟨old, hold, (hseq old).symm, horiginals old ▸ hu⟩
  · rintro u q ⟨entry, hentry, rfl, hu⟩
    obtain ⟨old, hold, ⟨rfl, -⟩ | ⟨rfl, -⟩⟩ := Channel.mem_updatePacket hentry
    · exact ⟨entry, hold, rfl, hu⟩
    · exact ⟨old, hold, (hseq old).symm, hpending old ▸ hu⟩
  · intro hnil
    simp [Channel.updatePacket, hnil]

lemma Clerical.fail (a : Channel) (failure : Failure) : Clerical a (a.fail failure) := by
  rw [Channel.fail.eq_def]
  split_ifs
  · exact .of_same (.refl a)
  · exact ⟨fun _ => rfl, rfl, rfl, rfl, fun _ => id, rfl, subset_rfl, rfl, fun _ _ => id,
      fun _ _ => id, id⟩

lemma Clerical.complete (a : Channel) (packet : Option ℕ) (reply : Bytes) (now : ℤ) :
    Clerical a (a.complete packet reply now).1 := by
  have hrecord : ∀ ch : Channel, Clerical ch (ch.recordReply packet reply) := by
    intro ch
    cases packet with
    | none => exact .of_same (.refl ch)
    | some sequence =>
        refine updatePacket ch sequence (fun entry => ?_) (fun entry => ?_) fun entry => ?_
        all_goals split_ifs <;> rfl
  have hprogress : Clerical a { a with lastProgress := now } := .of_same (by constructor <;> rfl)
  rw [Channel.complete_eq]
  dsimp only
  split_ifs
  · exact hprogress
  · exact hprogress
  · refine (hprogress.trans (hrecord _)).trans ?_
    dsimp only
    exact fail _ _
  · exact (hprogress.trans (hrecord _)).trans (setReplies _ _ _ _)

lemma Clerical.settle (a : Channel) (packet : Option ℕ) (now : ℤ) (e : PostEnd) :
    Clerical a (a.settle packet now e).1 := by
  cases e with
  | returned reply => exact complete a packet reply now
  | raised failure => exact fail a failure
  | cancelled => exact .of_same (.refl a)

lemma Clerical.rotate (a : Channel) (task : ℕ) (packet : Option ℕ) :
    Clerical a (a.rotate task packet) := by
  have hsent : Clerical a { a with sentSince := a.sentSince.erase task } :=
    ⟨id, rfl, rfl, rfl, fun u hu => (Dict.mem_keys_erase.mp hu).1, rfl, subset_rfl, rfl,
      fun _ _ => id, fun _ _ => id, id⟩
  cases packet with
  | none => exact hsent
  | some sequence =>
      exact hsent.trans (updatePacket _ sequence (fun _ => rfl) (fun _ => rfl) fun _ => rfl)

lemma Book.clerical {c : ℕ} {a b : Channel} {req : Requests} (h : Book c a req)
    (hab : Clerical a b) : Book c b req where
  since u hu := hab.pending ▸ h.since u (hab.since ▸ hu)
  sent u hu := hab.pending ▸ h.sent u (hab.sent u hu)
  traces u hu := hab.pending ▸ h.traces u (hab.traces ▸ hu)
  live u info pc hu hlive := hab.pending ▸ h.live u info pc hu hlive
  receiving u hu := h.receiving u (hab.receiving hu)
  replay u hu := hab.pending ▸ h.replay u (hab.replay ▸ hu)
  original u q hu := hab.pending ▸ h.original u q (hab.original u q hu)
  probe u q hu := hab.replay ▸ h.probe u q (hab.probe u q hu)
  done hdone := by
    obtain ⟨hclosed, hpending, hhistory⟩ := h.done (hab.done ▸ hdone)
    exact ⟨hab.closed hclosed, hab.pending ▸ hpending, hab.history hhistory⟩

/-! ## Requests that move on -/

section Requests

variable {c u : ℕ} {ch ch' : Channel} {req req' : Requests}

/-- Only the requests of the channel count. -/
lemma Book.congr (h : Book c ch req)
    (hreq : ∀ v info pc, req' v = some (c, info, pc) ↔ req v = some (c, info, pc)) :
    Book c ch req' where
  since := h.since
  sent := h.sent
  traces := h.traces
  live v info pc hv hlive := h.live v info pc ((hreq v info pc).mp hv) hlive
  receiving v hv := by
    obtain ⟨info, p, hp, hreceiving⟩ := h.receiving v hv
    exact ⟨info, p, (hreq _ _ _).mpr hp, hreceiving⟩
  replay v hv := by
    obtain ⟨hpending, info, pc, hpc, hrest⟩ := h.replay v hv
    exact ⟨hpending, info, pc, (hreq _ _ _).mpr hpc, hrest⟩
  original v q hv := by
    obtain ⟨hpending, info, pc, hpc, hrest⟩ := h.original v q hv
    exact ⟨hpending, info, pc, (hreq _ _ _).mpr hpc, hrest⟩
  probe v q hv := by
    obtain ⟨hpending, info, pc, hpc, hrest⟩ := h.probe v q hv
    exact ⟨hpending, info, pc, (hreq _ _ _).mpr hpc, hrest⟩
  done := h.done

/-- A request moves on, and its task stays pending. -/
lemma Book.move {info : Request} {pc pc' : RequestPc} (h : Book c ch req)
    (hreq : req u = some (c, info, pc)) (hreq' : req' u = some (c, info, pc'))
    (hother : ∀ v, v ≠ u → req' v = req v) (hlive : pc'.Live → pc.Live)
    (hreceiving : ∀ p, pc = .posting p → p.receiving = true →
      ∃ p', pc' = .posting p' ∧ p'.receiving = true) : Book c ch req' := by
  -- whatever is known about a request but its position, is still known
  have hkeep : ∀ {P : Request → Prop} v, (∃ info pc, req v = some (c, info, pc) ∧ P info) →
      ∃ info pc, req' v = some (c, info, pc) ∧ P info := by
    rintro P v ⟨info', pc₁, hv, hP⟩
    by_cases hvu : v = u
    · subst hvu
      obtain ⟨-, rfl, rfl⟩ : c = c ∧ info = info' ∧ pc = pc₁ := by simpa using hreq.symm.trans hv
      exact ⟨info, pc', hreq', hP⟩
    · exact ⟨info', pc₁, (hother v hvu).trans hv, hP⟩
  refine ⟨h.since, h.sent, h.traces, ?_, ?_, ?_, ?_, ?_, h.done⟩
  · intro v info' pc₁ hv hpc₁
    by_cases hvu : v = u
    · subst hvu
      obtain ⟨-, rfl, rfl⟩ : c = c ∧ info = info' ∧ pc' = pc₁ := by simpa using hreq'.symm.trans hv
      exact h.live v info pc hreq (hlive hpc₁)
    · exact h.live v info' pc₁ ((hother v hvu).symm.trans hv) hpc₁
  · intro v hv
    obtain ⟨info', p, hp, hrec⟩ := h.receiving v hv
    by_cases hvu : v = u
    · subst hvu
      obtain ⟨-, rfl, rfl⟩ : c = c ∧ info = info' ∧ pc = .posting p := by
        simpa using hreq.symm.trans hp
      obtain ⟨p', rfl, hrec'⟩ := hreceiving p rfl hrec
      exact ⟨info, p', hreq', hrec'⟩
    · exact ⟨info', p, (hother v hvu).trans hp, hrec⟩
  · exact fun v hv => ⟨(h.replay v hv).1, hkeep v (h.replay v hv).2⟩
  · exact fun v q hv => ⟨(h.original v q hv).1, hkeep v (h.original v q hv).2⟩
  · exact fun v q hv => ⟨(h.probe v q hv).1, hkeep v (h.probe v q hv).2⟩

/-- An upload completes. -/
lemma Book.upload (h : Book c ch req) (hu : u ∈ ch.pending.keys) (now : ℤ) :
    Book c { ch with sentSince := ch.sentSince.set u now } req where
  since := h.since
  sent v hv := by
    rcases Dict.mem_keys_set.mp hv with rfl | hv
    · exact hu
    · exact h.sent v hv
  traces := h.traces
  live := h.live
  receiving := h.receiving
  replay := h.replay
  original := h.original
  probe := h.probe
  done := h.done

/-- A response begins. -/
lemma Book.receive {info : Request} {p : Post} (h : Book c ch req)
    (hu : req u = some (c, info, .posting p)) (hp : p.receiving = true) :
    Book c { ch with receivingTasks := insert u ch.receivingTasks } req where
  since := h.since
  sent := h.sent
  traces := h.traces
  live := h.live
  receiving v hv := by
    rcases Finset.mem_insert.mp hv with rfl | hv
    · exact ⟨info, p, hu, hp⟩
    · exact h.receiving v hv
  replay := h.replay
  original := h.original
  probe := h.probe
  done := h.done

/-! ## A task that is entered -/

/-- The records of `ch'` are those of `ch` and those of one new task. -/
structure Enters (ch ch' : Channel) (u : ℕ) (info : Request) : Prop where
  pending : ∀ v, v ∈ ch'.pending.keys ↔ v = u ∨ v ∈ ch.pending.keys
  since : ∀ v ∈ ch'.pendingSince.keys, v = u ∨ v ∈ ch.pendingSince.keys
  sent : ch'.sentSince = ch.sentSince
  traces : ∀ v ∈ ch'.requestTraces, v = u ∨ v ∈ ch.requestTraces
  receiving : ch'.receivingTasks = ch.receivingTasks
  replay : ∀ v, v ∈ ch'.replayPending ↔ v = u ∧ info.replay = true ∨ v ∈ ch.replayPending
  original : ∀ v q, ch'.Original v q →
    v = u ∧ info.replay = false ∧ info.packet = some q ∨ ch.Original v q
  probe : ∀ v q, ch'.Probe v q →
    v = u ∧ info.replay = true ∧ info.packet = some q ∨ ch.Probe v q
  done : ch'.closeDone = ch.closeDone

/-- A request is created. -/
lemma Book.enter {info : Request} (h : Book c ch req) (hopen : ch.closed = false)
    (henters : Enters ch ch' u info) (hnew : req u = none)
    (hreq' : req' u = some (c, info, .created)) (hother : ∀ v, v ≠ u → req' v = req v) :
    Book c ch' req' := by
  have hpend : ∀ {v}, v ∈ ch.pending.keys → v ∈ ch'.pending.keys := fun hv =>
    (henters.pending _).mpr (Or.inr hv)
  have hself : u ∈ ch'.pending.keys := (henters.pending u).mpr (Or.inl rfl)
  have hkeep : ∀ {v r}, req v = some r → req' v = some r := by
    intro v r hv
    refine (hother v ?_).trans hv
    rintro rfl
    rw [hnew] at hv
    cases hv
  have hissued : ∀ {P : Request → Prop} v, (∃ info pc, req v = some (c, info, pc) ∧ P info) →
      ∃ info pc, req' v = some (c, info, pc) ∧ P info := by
    rintro P v ⟨info', pc, hv, hP⟩
    exact ⟨info', pc, hkeep hv, hP⟩
  constructor
  · intro v hv
    rcases henters.since v hv with rfl | hv
    · exact hself
    · exact hpend (h.since v hv)
  · intro v hv
    exact hpend (h.sent v (henters.sent ▸ hv))
  · intro v hv
    rcases henters.traces v hv with rfl | hv
    · exact hself
    · exact hpend (h.traces v hv)
  · intro v info' pc hv hlive
    by_cases hvu : v = u
    · exact hvu ▸ hself
    · exact hpend (h.live v info' pc ((hother v hvu).symm.trans hv) hlive)
  · intro v hv
    obtain ⟨info', p, hp, hrec⟩ := h.receiving v (henters.receiving ▸ hv)
    exact ⟨info', p, hkeep hp, hrec⟩
  · intro v hv
    rcases (henters.replay v).mp hv with ⟨rfl, hreplay⟩ | hv
    · exact ⟨hself, info, .created, hreq', hreplay⟩
    · exact ⟨hpend (h.replay v hv).1, hissued v (h.replay v hv).2⟩
  · intro v q hv
    rcases henters.original v q hv with ⟨rfl, hinfo⟩ | hv
    · exact ⟨hself, info, .created, hreq', hinfo⟩
    · exact ⟨hpend (h.original v q hv).1, hissued v (h.original v q hv).2⟩
  · intro v q hv
    rcases henters.probe v q hv with ⟨rfl, hinfo⟩ | hv
    · exact ⟨(henters.replay v).mpr (Or.inl ⟨rfl, hinfo.1⟩), info, .created, hreq', hinfo⟩
    · exact ⟨(henters.replay v).mpr (Or.inr (h.probe v q hv).1), hissued v (h.probe v q hv).2⟩
  · intro hdone
    have hclosed := (h.done (henters.done ▸ hdone)).1
    rw [hopen] at hclosed
    cases hclosed

/-! ## A task that is finished -/

/-- The packet of the task gives it up, and the others stay as they are. -/
lemma Channel.finishRequest_history {length : ℕ} {packet : Option ℕ}
    (h : ch.finishRequest u packet = some (length, ch')) :
    ch'.replayHistory = ch.replayHistory.map fun entry =>
      if packet.or (ch.packetOf u) = some entry.sequence then release u entry else entry := by
  have hpacketOf : ∀ {b : Channel}, b.replayHistory = ch.replayHistory →
      b.packetOf u = ch.packetOf u := fun hb => by rw [packetOf, hb, packetOf]
  rw [Channel.finishRequest] at h
  split at h
  · cases h
  dsimp only at h
  split at h
  · rename_i sequence hsequence
    obtain ⟨-, rfl⟩ : _ = length ∧ _ = ch' := by simpa using h
    rw [hpacketOf (by rfl)] at hsequence
    simp only [hsequence, Option.some.injEq, updatePacket, eq_comm]
  · rename_i hnone
    obtain ⟨-, rfl⟩ : _ = length ∧ _ = ch' := by simpa using h
    rw [hpacketOf (by rfl)] at hnone
    simp [hnone]

/-- The packet that a task is released from is the one that its request was given. -/
lemma Book.released {info : Request} {pc : RequestPc} {packet : Option ℕ} {q : ℕ}
    (h : Book c ch req) (hu : req u = some (c, info, pc))
    (hpacket : packet = none ∨ packet = info.packet) (hrole : ch.Original u q ∨ ch.Probe u q) :
    packet.or (ch.packetOf u) = some q := by
  have hown : ∀ {q'}, ch.Original u q' ∨ ch.Probe u q' → info.packet = some q' := by
    rintro q' (hrole | hrole)
    · obtain ⟨-, info', pc', hu', -, hq⟩ := h.original u q' hrole
      rw [hu] at hu'
      cases hu'
      exact hq
    · obtain ⟨-, info', pc', hu', -, hq⟩ := h.probe u q' hrole
      rw [hu] at hu'
      cases hu'
      exact hq
  rcases hpacket with rfl | rfl
  · rw [Option.none_or, Channel.packetOf]
    cases hfind : ch.replayHistory.find? fun entry =>
        u ∈ entry.originals ∨ entry.pending = some u with
    | none =>
        simp only [List.find?_eq_none, decide_eq_true_eq, not_or] at hfind
        rcases hrole with ⟨entry, hentry, -, hmem⟩ | ⟨entry, hentry, -, hmem⟩
        · exact absurd hmem (hfind entry hentry).1
        · exact absurd hmem (hfind entry hentry).2
    | some entry =>
        have hentry := List.mem_of_find?_eq_some hfind
        have hmem := List.find?_some hfind
        rw [decide_eq_true_eq] at hmem
        have hsequence := hown (hmem.imp (fun hm => ⟨entry, hentry, rfl, hm⟩)
          fun hm => ⟨entry, hentry, rfl, hm⟩)
        exact hsequence.symm.trans (hown hrole)
  · rw [hown hrole, Option.some_or]

/-- What the history says after a task was finished, is not about that task, and it said so
before. -/
lemma Book.finished_roles {info : Request} {pc : RequestPc} {packet : Option ℕ} {length : ℕ}
    (h : Book c ch req) (hu : req u = some (c, info, pc))
    (hpacket : packet = none ∨ packet = info.packet)
    (hfinish : ch.finishRequest u packet = some (length, ch')) (v q : ℕ) :
    (ch'.Original v q → v ≠ u ∧ ch.Original v q) ∧ (ch'.Probe v q → v ≠ u ∧ ch.Probe v q) := by
  have hmem : ∀ entry ∈ ch'.replayHistory, ∃ old ∈ ch.replayHistory,
      entry.sequence = old.sequence ∧ (entry = Channel.release u old ∨
        entry = old ∧ packet.or (ch.packetOf u) ≠ some old.sequence) := by
    intro entry hentry
    rw [Channel.finishRequest_history hfinish] at hentry
    obtain ⟨old, hold, rfl⟩ := List.mem_map.mp hentry
    refine ⟨old, hold, ?_⟩
    split_ifs with hreleased
    · exact ⟨rfl, Or.inl rfl⟩
    · exact ⟨rfl, Or.inr ⟨rfl, hreleased⟩⟩
  constructor
  · rintro ⟨entry, hentry, rfl, hv⟩
    obtain ⟨old, hold, hsequence, rfl | ⟨rfl, hother⟩⟩ := hmem entry hentry
    · obtain ⟨hvu, hv⟩ := Finset.mem_erase.mp hv
      exact ⟨hvu, old, hold, hsequence.symm, hv⟩
    · have hrole : ch.Original v entry.sequence := ⟨entry, hold, rfl, hv⟩
      refine ⟨?_, hrole⟩
      rintro rfl
      exact hother (h.released hu hpacket (Or.inl hrole))
  · rintro ⟨entry, hentry, rfl, hv⟩
    obtain ⟨old, hold, hsequence, rfl | ⟨rfl, hother⟩⟩ := hmem entry hentry
    · simp only [Channel.release, ite_eq_iff, reduceCtorEq, and_false, false_or] at hv
      refine ⟨?_, old, hold, hsequence.symm, hv.2⟩
      rintro rfl
      exact hv.1 hv.2
    · have hrole : ch.Probe v entry.sequence := ⟨entry, hold, rfl, hv⟩
      refine ⟨?_, hrole⟩
      rintro rfl
      exact hother (h.released hu hpacket (Or.inr hrole))

/-- **The end of a request.**  Nothing is left of its task. -/
lemma Book.finish {info : Request} {pc : RequestPc} {packet : Option ℕ} {length : ℕ}
    (h : Book c ch req) (hu : req u = some (c, info, pc))
    (hpacket : packet = none ∨ packet = info.packet) (hnot : u ∉ ch.receivingTasks)
    (hfinish : ch.finishRequest u packet = some (length, ch'))
    (hdead : ∀ info pc, req' u = some (c, info, pc) → ¬ pc.Live)
    (hother : ∀ v, v ≠ u → req' v = req v) : Book c ch' req' := by
  have hroles := h.finished_roles hu hpacket hfinish
  have hhistory := Channel.finishRequest_history hfinish
  obtain ⟨-, history, rfl⟩ := Channel.finishRequest_eq_some hfinish
  have hpend : ∀ {v}, v ≠ u → v ∈ ch.pending.keys → v ∈ (ch.pending.erase u).keys := fun hvu hv =>
    Dict.mem_keys_erase.mpr ⟨hv, hvu⟩
  have hissued : ∀ {P : Request → Prop} {v}, v ≠ u →
      (∃ info pc, req v = some (c, info, pc) ∧ P info) →
      ∃ info pc, req' v = some (c, info, pc) ∧ P info := by
    rintro P v hvu ⟨info', pc', hv, hP⟩
    exact ⟨info', pc', (hother v hvu).trans hv, hP⟩
  constructor
  · intro v hv
    obtain ⟨hv, hvu⟩ := Dict.mem_keys_erase.mp hv
    exact hpend hvu (h.since v hv)
  · intro v hv
    obtain ⟨hv, hvu⟩ := Dict.mem_keys_erase.mp hv
    exact hpend hvu (h.sent v hv)
  · intro v hv
    obtain ⟨hvu, hv⟩ := Finset.mem_erase.mp hv
    exact hpend hvu (h.traces v hv)
  · intro v info' pc' hv hlive
    have hvu : v ≠ u := by
      rintro rfl
      exact hdead info' pc' hv hlive
    exact hpend hvu (h.live v info' pc' ((hother v hvu).symm.trans hv) hlive)
  · intro v hv
    have hvu : v ≠ u := by
      rintro rfl
      exact hnot hv
    obtain ⟨info', p, hp, hrec⟩ := h.receiving v hv
    exact ⟨info', p, (hother v hvu).trans hp, hrec⟩
  · intro v hv
    obtain ⟨hvu, hv⟩ := Finset.mem_erase.mp hv
    obtain ⟨hpending, hinfo⟩ := h.replay v hv
    exact ⟨hpend hvu hpending, hissued hvu hinfo⟩
  · intro v q hv
    obtain ⟨hvu, hv⟩ := (hroles v q).1 hv
    obtain ⟨hpending, hinfo⟩ := h.original v q hv
    exact ⟨hpend hvu hpending, hissued hvu hinfo⟩
  · intro v q hv
    obtain ⟨hvu, hv⟩ := (hroles v q).2 hv
    obtain ⟨hreplay, hinfo⟩ := h.probe v q hv
    exact ⟨Finset.mem_erase.mpr ⟨hvu, hreplay⟩, hissued hvu hinfo⟩
  · intro hdone
    obtain ⟨hclosed, hpending, hnil⟩ := h.done hdone
    refine ⟨hclosed, List.eq_nil_iff_forall_not_mem.mpr fun v hv => ?_, ?_⟩
    · have hv := (Dict.mem_keys_erase.mp hv).1
      rw [hpending] at hv
      cases hv
    · rw [hhistory, hnil]
      rfl

end Requests

/-! ## What `_send` enters -/

section Register

variable (ch : Channel) (task : ℕ) (now : ℤ) (body : Bytes) (debug : Bool)

lemma mem_traces {traces : Finset ℕ} :
    ∀ v ∈ (if debug then insert task traces else traces), v = task ∨ v ∈ traces := by
  intro v hv
  split_ifs at hv
  · exact Finset.mem_insert.mp hv
  · exact Or.inr hv

/-- A replay is entered. -/
lemma enters_registerReplay (sequence : ℕ) :
    Enters ch (ch.registerReplay task now body debug sequence) task
      ⟨body, true, some sequence⟩ where
  pending v := by simp [Channel.registerReplay, Channel.updatePacket]
  since v hv := by simpa [Channel.registerReplay, Channel.updatePacket] using hv
  sent := rfl
  traces := mem_traces task debug
  receiving := rfl
  replay v := by simp [Channel.registerReplay, Channel.updatePacket]
  original v q := by
    rintro ⟨entry, hentry, rfl, hv⟩
    obtain ⟨old, hold, ⟨rfl, -⟩ | ⟨rfl, -⟩⟩ := Channel.mem_updatePacket hentry
    · exact Or.inr ⟨entry, hold, rfl, hv⟩
    · exact Or.inr ⟨old, hold, rfl, hv⟩
  probe v q := by
    rintro ⟨entry, hentry, rfl, hv⟩
    obtain ⟨old, hold, ⟨rfl, -⟩ | ⟨rfl, hsequence⟩⟩ := Channel.mem_updatePacket hentry
    · exact Or.inr ⟨entry, hold, rfl, hv⟩
    · exact Or.inl ⟨(Option.some.inj hv).symm, rfl, congrArg some hsequence.symm⟩
  done := rfl

/-- What a packet is remembered with is no task. -/
lemma roles_rememberPacket {ch second : Channel} {packet : Option ℕ}
    (h : Channel.Remembers ch body now second packet) (v q : ℕ) :
    (second.Original v q → ch.Original v q) ∧ (second.Probe v q → ch.Probe v q) := by
  have hmem : ∀ entry ∈ second.replayHistory,
      entry ∈ ch.replayHistory ∨ entry.originals = ∅ ∧ entry.pending = none := by
    intro entry hentry
    rcases h.entries hentry with hold | rfl
    · exact Or.inl hold
    · exact Or.inr ⟨rfl, rfl⟩
  constructor
  · rintro ⟨entry, hentry, hsequence, hv⟩
    rcases hmem entry hentry with hold | ⟨hnone, -⟩
    · exact ⟨entry, hold, hsequence, hv⟩
    · rw [hnone] at hv
      cases hv
  · rintro ⟨entry, hentry, hsequence, hv⟩
    rcases hmem entry hentry with hold | ⟨-, hnone⟩
    · exact ⟨entry, hold, hsequence, hv⟩
    · rw [hnone] at hv
      cases hv

variable {ch task} in
/-- The task joins the originals of its packet. -/
lemma Enters.carry {ch' : Channel} {info : Request} {sequence : ℕ} (h : Enters ch ch' task info)
    (hreplay : info.replay = false) (hpacket : info.packet = some sequence) :
    Enters ch (ch'.updatePacket sequence (Channel.carry task)) task info :=
  { h with
    original := by
      rintro v q ⟨entry, hentry, rfl, hv⟩
      obtain ⟨old, hold, ⟨rfl, -⟩ | ⟨rfl, hsequence⟩⟩ := Channel.mem_updatePacket hentry
      · exact h.original v entry.sequence ⟨entry, hold, rfl, hv⟩
      · rcases Finset.mem_insert.mp hv with rfl | hv
        · exact Or.inl ⟨rfl, hreplay, hpacket.trans (congrArg some hsequence.symm)⟩
        · exact h.original v old.sequence ⟨old, hold, rfl, hv⟩
    probe := by
      rintro v q ⟨entry, hentry, rfl, hv⟩
      obtain ⟨old, hold, ⟨rfl, -⟩ | ⟨rfl, -⟩⟩ := Channel.mem_updatePacket hentry
      · exact h.probe v entry.sequence ⟨entry, hold, rfl, hv⟩
      · exact h.probe v old.sequence ⟨old, hold, rfl, hv⟩ }

variable {ch task} in
lemma Enters.trimHistory {ch' : Channel} {info : Request} (h : Enters ch ch' task info) :
    Enters ch (ch'.trimHistory now) task info := by
  have hmem : ∀ entry ∈ (ch'.trimHistory now).replayHistory, entry ∈ ch'.replayHistory := by
    obtain ⟨n, -, htrims⟩ := Channel.trims_trimList now ch'.replayHistory
    exact fun entry hentry => htrims.sublist.subset hentry
  exact { h with
    original := fun v q ⟨entry, hentry, hv⟩ => h.original v q ⟨entry, hmem entry hentry, hv⟩
    probe := fun v q ⟨entry, hentry, hv⟩ => h.probe v q ⟨entry, hmem entry hentry, hv⟩ }

/-- A native request is entered. -/
lemma enters_registerNative :
    Enters ch (ch.registerNative task now body debug).1 task
      ⟨body, false, (ch.registerNative task now body debug).2⟩ := by
  let first : Channel := { ch with
    pendingBytes := ch.pendingBytes + body.length
    requests := ch.requests + 1 }
  let second := (first.rememberPacket body now).1
  let third : Channel := { second with
    pending := second.pending.set task body.length
    pendingSince := second.pendingSince.set task now
    requestTraces := if debug then insert task second.requestTraces else second.requestTraces }
  have hthird : ∀ info : Request, info.replay = false → Enters ch third task info := by
    intro info hreplay
    have hroles := roles_rememberPacket now body (Channel.remembers_rememberPacket first body now)
    obtain ⟨key, history, hsecond⟩ := first.rememberPacket_eq body now
    have hfields : ∀ {α : Type} (f : Channel → α), (∀ k h, f { first with
        replayKey := k
        replayHistory := h } = f ch) → f second = f ch := fun f hf =>
      (congrArg f hsecond).trans (hf key history)
    have hpending : second.pending = ch.pending := hfields (·.pending) fun _ _ => rfl
    have hsince : second.pendingSince = ch.pendingSince := hfields (·.pendingSince) fun _ _ => rfl
    have htraces : second.requestTraces = ch.requestTraces :=
      hfields (·.requestTraces) fun _ _ => rfl
    have hplay : second.replayPending = ch.replayPending := hfields (·.replayPending) fun _ _ => rfl
    constructor
    · intro v
      rw [show third.pending = ch.pending.set task body.length from hpending ▸ rfl,
        Dict.mem_keys_set]
    · intro v hv
      rw [show third.pendingSince = ch.pendingSince.set task now from hsince ▸ rfl,
        Dict.mem_keys_set] at hv
      exact hv
    · exact hfields (·.sentSince) fun _ _ => rfl
    · exact htraces ▸ mem_traces task debug
    · exact hfields (·.receivingTasks) fun _ _ => rfl
    · intro v
      rw [show third.replayPending = ch.replayPending from hplay, hreplay]
      simp
    · exact fun v q hv => Or.inr ((hroles v q).1 hv)
    · exact fun v q hv => Or.inr ((hroles v q).2 hv)
    · exact hfields (·.closeDone) fun _ _ => rfl
  have heq : ch.registerNative task now body debug =
      (first.rememberPacket body now).2.elim (third, none) fun sequence =>
        ((third.updatePacket sequence (Channel.carry task)).trimHistory now,
          (first.rememberPacket body now).2) := ch.registerNative_elim task now body debug
  rw [heq]
  cases (first.rememberPacket body now).2 with
  | none => exact hthird _ rfl
  | some sequence => exact ((hthird _ rfl).carry rfl rfl).trimHistory now

end Register

/-! ## Runs -/

/-- The channel is fresh, and nobody works for it. -/
lemma Book.fresh {c : ℕ} {req : Requests} (h : ∀ u info pc, req u ≠ some (c, info, pc)) :
    Book c {} req where
  since _ hu := nomatch hu
  sent _ hu := nomatch hu
  traces _ hu := nomatch hu
  live u info pc hu := absurd hu (h u info pc)
  receiving _ hu := nomatch hu
  replay _ hu := nomatch hu
  original := by
    rintro u q ⟨entry, hentry, -⟩
    cases hentry
  probe := by
    rintro u q ⟨entry, hentry, -⟩
    cases hentry
  done h := nomatch h

/-- What `close` finishes has ended. -/
lemma Reaches.swept_ended {E : AesKeystream} {s : Sys} {t c u : ℕ} {rest : List ℕ}
    (h : Reaches E s) (hsweep : Sweeping s t c rest) (hu : u ∈ (s.chan c).pending.keys) :
    (s.chan c).closed = true ∧ u ∈ rest ∧ Ended s c u := by
  rcases hsweep with ⟨tasks, hpc, hdone, rfl⟩ | hpc
  · obtain ⟨hclosed, htasks⟩ := h.covers t c _ hpc
    exact ⟨hclosed, hu, (h.listed c).ended hu (hdone u (htasks u hu))⟩
  · obtain ⟨hclosed, hrest⟩ := h.covers t c _ hpc
    exact ⟨hclosed, hrest u hu⟩

lemma Reaches.sweeping_closed {E : AesKeystream} {s : Sys} {t c : ℕ} {rest : List ℕ}
    (h : Reaches E s) (hsweep : Sweeping s t c rest) : (s.chan c).closed = true := by
  rcases hsweep with ⟨tasks, hpc, -, -⟩ | hpc
  · exact (h.covers t c _ hpc).1
  · exact (h.covers t c _ hpc).1

/-- `close` ends. -/
lemma Book.clear {c : ℕ} {ch : Channel} {req : Requests} (h : Book c ch req)
    (hclosed : ch.closed = true) (hpending : ch.pending.keys = []) : Book c ch.clear req where
  since := h.since
  sent _ hu := nomatch hu
  traces _ hu := nomatch hu
  live := h.live
  receiving := h.receiving
  replay _ hu := nomatch hu
  original := by
    rintro u q ⟨entry, hentry, -⟩
    cases hentry
  probe := by
    rintro u q ⟨entry, hentry, -⟩
    cases hentry
  done _ := ⟨hclosed, hpending, rfl⟩

/-- **The books are kept.** -/
theorem Reaches.book {E : AesKeystream} {s : Sys} (h : Reaches E s) (c : ℕ) :
    Book c (s.chan c) s.req := by
  refine h.channel (P := fun s c => Book c (s.chan c) s.req) ?_ ?_ ?_ c
  · rintro _ c ⟨clock, debug, -, rfl⟩
    exact .fresh fun u info pc hu => nomatch hu
  · intro s s' c hst hb
    exact (hb.clerical (.of_same hst.chan)).congr hst.req
  · intro s e s' c hr hs hb hmv
    have hformed := Reaches.formed hr
    have hsame : ∀ {ch}, Clerical (s.chan c) ch → ch.Same (s'.chan c) → Only c none s s' →
        Book c (s'.chan c) s'.req := fun hclerical hchan honly =>
      (hb.clerical (hclerical.trans (.of_same hchan))).congr fun v _ _ => by
        rw [honly.req v (by simp)]
    have hother : ∀ {u}, Only c (some u) s s' → ∀ v, v ≠ u → s'.req v = s.req v :=
      fun honly v hvu => honly.req v (by simpa using hvu)
    have hrefl : Clerical (s.chan c) (s.chan c) := .of_same (.refl _)
    cases hmv with
    | opened hc hchan hlog hnative honly =>
        have hnobody : ∀ u info pc, s'.req u ≠ some (c, info, pc) := by
          intro u info pc hu
          rw [honly.req u (by simp)] at hu
          have hlt := hformed.channel u c (by rw [Sys.coro_of_req hu]; rfl)
          omega
        exact (Book.fresh hnobody).clerical (.of_same hchan)
    | bridged tag cltEnc hnone hnative hchan hlog honly => exact hsame hrefl hchan honly
    | native t caller body pc hpc hadm hleft hfree hopen hchan hreq hlog hnative hnext honly =>
        exact (hb.enter hopen (enters_registerNative _ _ _ _ _) hformed.req_next hreq
          (hother honly)).clerical (.of_same hchan)
    | replay t entry pc hpc hadm hleft hfree hopen hfind hpending hdue hchan hreq hlog hnative
        hnext honly =>
        exact (hb.enter hopen (enters_registerReplay _ _ _ _ _ _) hformed.req_next hreq
          (hother honly)).clerical (.of_same hchan)
    | advance u info pc pc' hcalm hreq hreq' hchan hlog hnative honly =>
        refine (hb.move hreq hreq' (hother honly) hcalm.live ?_).clerical (.of_same hchan)
        rintro p rfl hreceiving
        cases hcalm with
        | read p data hopen hmax => exact ⟨_, rfl, hreceiving⟩
        | start p p' hr hr' hu hc => exact ⟨p', rfl, hr'⟩
    | uploaded u info p hreq hnone hreq' hchan hlog hnative honly =>
        have hmoved : Book c (s.chan c) s'.req := by
          refine hb.move hreq hreq' (hother honly) (fun _ => trivial) ?_
          rintro _ ⟨⟩ hreceiving
          exact ⟨_, rfl, hreceiving⟩
        exact (hmoved.upload (hb.live u info _ hreq trivial) s.clock).clerical (.of_same hchan)
    | received u info p p' hreq hnot hreq' hreceiving huploaded hcontent hchan hlog hnative honly =>
        have hmoved : Book c (s.chan c) s'.req :=
          hb.move hreq hreq' (hother honly) (fun _ => trivial) fun _ _ _ => ⟨p', rfl, hreceiving⟩
        exact (hmoved.receive hreq' hreceiving).clerical (.of_same hchan)
    | ended u info p e receiving ch hreq he hreceiving hbefore hafter hlog hnative honly =>
        have hsub : receiving ⊆ (s.chan c).receivingTasks ∧ u ∉ receiving := by
          rcases hreceiving with rfl | ⟨hnot, rfl⟩
          · exact ⟨Finset.erase_subset _ _, Finset.notMem_erase _ _⟩
          · refine ⟨subset_rfl, fun hu => ?_⟩
            obtain ⟨info', p', hp, hrec⟩ := hb.receiving u hu
            rw [hreq] at hp
            cases hp
            rw [hnot] at hrec
            cases hrec
        have hsettled : Clerical (s.chan c) (ch.settle info.packet s.clock e).1 := by
          have hreceive : Clerical (s.chan c) { s.chan c with receivingTasks := receiving } :=
            { hrefl with receiving := hsub.1 }
          exact (hreceive.trans (.of_same hbefore)).trans (.settle ch info.packet s.clock e)
        have hb' := hb.clerical hsettled
        split at hafter
        · rename_i length ch' hfinish
          have hdead : ∀ info' pc, s'.req u = some (c, info', pc) → ¬ pc.Live := by
            intro info' pc hpc
            rw [hafter.2] at hpc
            cases hpc
            exact id
          have hnot : u ∉ (ch.settle info.packet s.clock e).1.receivingTasks := by
            obtain ⟨closed, error, wakeup, queue, bytes, history, progress, hsettle⟩ :=
              ch.settle_eq info.packet s.clock e
            rw [hsettle, show ch.receivingTasks = receiving from hbefore.receivingTasks]
            exact hsub.2
          exact (hb'.finish hreq (Or.inr rfl) hnot hfinish hdead (hother honly)).clerical
            (.of_same hafter.1)
        · -- a request that is still answered is pending
          rename_i hfinish
          exact absurd (hb'.live u info _ hreq trivial) (Channel.finishRequest_eq_none.mp hfinish)
    | closing failure hchan hcode hlog hnative honly =>
        refine hsame ((Clerical.fail _ failure).trans ?_) hchan honly
        exact ⟨fun _ => rfl, rfl, rfl, rfl, fun _ => id, rfl, subset_rfl, rfl, fun _ _ => id,
          fun _ _ => id, id⟩
    | swept t rest skipped task rest' length ch ch' hsweep hrest hskipped hbefore hfinish hchan
        hlog hnative honly =>
        have hpending : task ∈ (s.chan c).pending.keys := by
          have hget := (Channel.finishRequest_eq_some hfinish).1
          rw [Dict.get?_eq_some, hbefore.pending] at hget
          exact Dict.mem_keys_of_mem hget
        obtain ⟨-, -, info, hended⟩ := Reaches.swept_ended hr hsweep hpending
        have hreq' : ∀ v, s'.req v = s.req v := fun v => honly.req v (by simp)
        have hb' := hb.clerical (.of_same hbefore)
        have hdead : ∀ info' pc, s'.req task = some (c, info', pc) → ¬ pc.Live := by
          intro info' pc hpc
          rw [hreq', hended] at hpc
          cases hpc
          exact id
        refine (hb'.finish hended (Or.inl rfl) (fun hu => ?_) hfinish hdead fun v _ =>
          hreq' v).clerical (.of_same hchan)
        obtain ⟨info', p, hp, -⟩ := hb'.receiving task hu
        rw [hended] at hp
        cases hp
    | cleared t rest hsweep hskipped hchan hlog hnative honly =>
        have hempty : (s.chan c).pending.keys = [] :=
          List.eq_nil_iff_forall_not_mem.mpr fun u hu =>
            hskipped u (Reaches.swept_ended hr hsweep hu).2.1 hu
        exact ((hb.clear (Reaches.sweeping_closed hr hsweep) hempty).clerical
          (.of_same hchan)).congr fun v _ _ => by rw [honly.req v (by simp)]
    | rotated victim packet hchan hlog hnative honly =>
        exact hsame (.rotate _ victim packet) hchan honly
    | dropped item queue hqueue hdrop hchan hlog hnative honly =>
        exact hsame (.setReplies _ _ _ _) hchan honly
    | wrote t body queue n padding frame hpc hqueue hopen hn hframe hchan hlog hnative honly =>
        exact hsame (.setReplies _ _ _ _) hchan honly
    | drained t hpc hpc' hchan hlog hnative honly =>
        exact hsame (.setReplies _ _ _ _) hchan honly
    | wroteError t tasks n code packed padding frame hpc hpc' hcode hpacked hn hframe hchan hlog
        hnative honly =>
        exact hsame hrefl hchan honly

/-! ## What the records say -/

/-- The records of the channel agree. -/
structure Channel.Consistent (ch : Channel) : Prop where
  sent : ∀ u ∈ ch.sentSince.keys, u ∈ ch.pending.keys
  since : ∀ u ∈ ch.pendingSince.keys, u ∈ ch.pending.keys
  receiving : ∀ u ∈ ch.receivingTasks, u ∈ ch.pending.keys
  replay : ∀ u ∈ ch.replayPending, u ∈ ch.pending.keys
  traces : ∀ u ∈ ch.requestTraces, u ∈ ch.pending.keys
  originals : ∀ entry ∈ ch.replayHistory, ∀ u ∈ entry.originals, u ∈ ch.pending.keys
  probes : ∀ entry ∈ ch.replayHistory, ∀ u, entry.pending = some u →
    u ∈ ch.pending.keys ∧ u ∈ ch.replayPending
  roles : ∀ entry ∈ ch.replayHistory, ∀ u ∈ entry.originals,
    u ∉ ch.replayPending ∧ ∀ entry' ∈ ch.replayHistory, entry'.pending ≠ some u
  distinct : ch.replayHistory.Pairwise fun a b => ∀ u, a.pending = some u → b.pending ≠ some u

/-- The channel has no records. -/
structure Channel.Emptied (ch : Channel) : Prop where
  pending : ch.pending.keys = []
  since : ch.pendingSince.keys = []
  sent : ch.sentSince.keys = []
  receiving : ch.receivingTasks = ∅
  replay : ch.replayPending = ∅
  history : ch.replayHistory = []
  traces : ch.requestTraces = ∅

lemma Book.consistent {c : ℕ} {ch : Channel} {req : Requests} (h : Book c ch req)
    (hordered : ch.Ordered) : ch.Consistent := by
  have hroles : ∀ entry ∈ ch.replayHistory, ∀ u ∈ entry.originals, u ∉ ch.replayPending := by
    intro entry hentry u hu hreplay
    obtain ⟨-, info, pc, hreq, horiginal, -⟩ := h.original u _ ⟨entry, hentry, rfl, hu⟩
    obtain ⟨-, info', pc', hreq', hinfo'⟩ := h.replay u hreplay
    rw [hreq] at hreq'
    cases hreq'
    rw [horiginal] at hinfo'
    cases hinfo'
  have hprobe : ∀ entry ∈ ch.replayHistory, ∀ u, entry.pending = some u → u ∈ ch.replayPending :=
    fun entry hentry u hu => (h.probe u _ ⟨entry, hentry, rfl, hu⟩).1
  have hreceiving : ∀ u ∈ ch.receivingTasks, u ∈ ch.pending.keys := by
    intro u hu
    obtain ⟨info, p, hp, -⟩ := h.receiving u hu
    exact h.live u info _ hp trivial
  refine ⟨h.sent, h.since, hreceiving, fun u hu => (h.replay u hu).1, h.traces, ?_, ?_, ?_, ?_⟩
  · exact fun entry hentry u hu => (h.original u _ ⟨entry, hentry, rfl, hu⟩).1
  · intro entry hentry u hu
    have hreplay := hprobe entry hentry u hu
    exact ⟨(h.replay u hreplay).1, hreplay⟩
  · intro entry hentry u hu
    have hnot := hroles entry hentry u hu
    exact ⟨hnot, fun entry' hentry' hpending => hnot (hprobe entry' hentry' u hpending)⟩
  · -- the numbers of two packets differ, and a replay was given one of them
    have hascending := hordered.ascending
    rw [Channel.carried, List.map_map, List.pairwise_map] at hascending
    refine hascending.imp_of_mem fun {a b} ha hb hlt u hua hub => ?_
    obtain ⟨-, info, pc, hreq, -, hpacket⟩ := h.probe u _ ⟨a, ha, rfl, hua⟩
    obtain ⟨-, info', pc', hreq', -, hpacket'⟩ := h.probe u _ ⟨b, hb, rfl, hub⟩
    rw [hreq] at hreq'
    cases hreq'
    rw [hpacket] at hpacket'
    exact absurd (Option.some.inj hpacket') (Nat.ne_of_lt hlt)

lemma Book.emptied {c : ℕ} {ch : Channel} {req : Requests} (h : Book c ch req)
    (hdone : ch.closeDone = true) : ch.Emptied := by
  obtain ⟨-, hpending, hhistory⟩ := h.done hdone
  have hnone : ∀ u, u ∉ ch.pending.keys := by simp [hpending]
  refine ⟨hpending, ?_, ?_, ?_, ?_, hhistory, ?_⟩
  · exact List.eq_nil_iff_forall_not_mem.mpr fun u hu => hnone u (h.since u hu)
  · exact List.eq_nil_iff_forall_not_mem.mpr fun u hu => hnone u (h.sent u hu)
  · refine Finset.eq_empty_iff_forall_notMem.mpr fun u hu => ?_
    obtain ⟨info, p, hp, -⟩ := h.receiving u hu
    exact hnone u (h.live u info _ hp trivial)
  · exact Finset.eq_empty_iff_forall_notMem.mpr fun u hu => hnone u (h.replay u hu).1
  · exact Finset.eq_empty_iff_forall_notMem.mpr fun u hu => hnone u (h.traces u hu)

/-- What is done stays done. -/
lemma Reaches.done_of_run {E : AesKeystream} {s s' : Sys} {c : ℕ} (h : Reaches E s)
    (hdone : (s.chan c).closeDone = true)
    (hrun : Reachable (· = s) (step E) Always s') :
    Reaches E s' ∧ (s'.chan c).closeDone = true := by
  refine hrun.invariant (P := fun s' => Reaches E s' ∧ (s'.chan c).closeDone = true) ?_ ?_
  · rintro _ rfl
    exact ⟨h, hdone⟩
  · intro s₁ e s₂ _ ⟨h₁, hd₁⟩ _ hs
    exact ⟨.step e h₁ trivial hs, (h₁.subsides hs c).done hd₁⟩

/-- **The bookkeeping of requests.**  At any time the records of a channel agree: every task in any
of them is pending, no task is an original and a replay, and the replay of a packet is recorded as
one and is that of no other packet.  Where `close` returns, with whatever tasks were cancelled,
started or not, nothing is recorded from then on. -/
theorem request_books_kept {E : AesKeystream} {s : Sys} (h : Reaches E s) (c : ℕ) :
    (s.chan c).Consistent ∧
    ∀ t pc i s' s'', s.coro t = .close c pc → i ≠ .cancelled → step E (.run t i) s = some s' →
      s'.coro t = .done → Reachable (· = s') (step E) Always s'' → (s''.chan c).Emptied := by
  refine ⟨(h.book c).consistent (h.recorded c).remembered.toOrdered, ?_⟩
  intro t pc i s' s'' hpc hi hs hended hrun
  have hdone : (s'.chan c).closeDone = true := by
    rcases h.closes hs hpc (h.covers t c pc hpc) with ⟨pc', hpc', -⟩ | ⟨-, hcancelled | hdone⟩
    · rw [hended] at hpc'
      cases hpc'
    · exact absurd hcancelled hi
    · exact hdone
  obtain ⟨hreach, hdone'⟩ := Reaches.done_of_run (.step _ h trivial hs) hdone hrun
  exact (hreach.book c).emptied hdone'

/-- A packet is sent, the channel is closed, and the request is cancelled before its first step. -/
def cancelledUnstarted : List Event :=
  [Event.openChannel, .send 0 (List.replicate 24 1)] ++ List.replicate 7 (Event.run 0 .resume) ++
    [Event.close 0, .run 2 .resume, .run 1 .cancelled]

/-- Its task has ended and is still recorded, until `close` returns. -/
theorem request_books_kept_sample :
    ∃ (E : AesKeystream) (s₁ s s' : Sys), Reaches E s₁ ∧ s₁.isDone 1 = true ∧
      (s₁.chan 0).pending.keys = [1] ∧ (s₁.chan 0).requestTraces = {1} ∧
      (s₁.chan 0).Consistent ∧
      Reachable (· = s₁) (step E) Always s ∧ s.coro 2 = .close 0 (.notifying []) ∧
      step E (.run 2 .resume) s = some s' ∧ s'.coro 2 = .done ∧ (s'.chan 0).Emptied := by
  let E : AesKeystream := fun _ _ _ => 0
  have hrun : (exec (step E) cancelledUnstarted (Sys.start 1 true)).map (fun s₁ =>
      (decide (s₁.isDone 1 = true ∧ (s₁.chan 0).pending.keys = [1] ∧
          (s₁.chan 0).requestTraces = {1}),
        (exec (step E) [.run 2 .resume, .run 2 .resume] s₁).map fun s =>
          (s.coro 2, (step E (.run 2 .resume) s).map fun s' => s'.coro 2))) =
      some (true, some (.close 0 (.notifying []), some .done)) := by
    decide +kernel
  obtain ⟨s₁, hs₁, heq⟩ := Option.map_eq_some_iff.mp hrun
  obtain ⟨hstate, hrest⟩ := Prod.mk.inj heq
  obtain ⟨hended, hpending, htraces⟩ := of_decide_eq_true hstate
  obtain ⟨s, hs, heq⟩ := Option.map_eq_some_iff.mp hrest
  obtain ⟨hpc, hrest⟩ := Prod.mk.inj heq
  obtain ⟨s', hs', hdone⟩ := Option.map_eq_some_iff.mp hrest
  have hreach₁ : Reaches E s₁ := reachable_of_exec (.start ⟨1, true, one_pos, rfl⟩) hs₁
  have hreach : Reaches E s := reachable_of_exec hreach₁ hs
  exact ⟨E, s₁, s, s', hreach₁, hended, hpending, htraces, (request_books_kept hreach₁ 0).1,
    reachable_of_exec (.start rfl) hs, hpc, hs', hdone,
    (request_books_kept hreach 0).2 2 _ .resume s' s' hpc nofun hs' hdone (.start rfl)⟩

end TgWsProxy
