import TgWsProxy.H2.Lane.Next
import TgWsProxy.H2.Lane.Packets

/-!
# What the recovery loop cancels

* `Channel.capacityCandidate_spec`, `Channel.choose_spec` — which requests the loop picks.
* `Spendable` — the request may be cancelled: it waits, nothing of its answer has come, and what it
  carries need not be lost.
* **`cancels_only_spendable`** — no step of `_recover` cancels anything else, nor more than one.
* **`rotation_strands_iff`** — when a packet that lost its request to make room can be sent again.
-/

namespace TgWsProxy

open Wire

/-! ## Choices -/

namespace Channel

/-- **The choice of `_capacity_candidate`.** -/
lemma capacityCandidate_spec {ch : Channel} {done : ℕ → Bool} {now : ℤ} {u : ℕ}
    {packet : Option ℕ} (h : ch.capacityCandidate done now = some (u, packet)) :
    ∃ sent, (u, sent) ∈ ch.sentSince.entries ∧ u ∉ ch.receivingTasks ∧
      replayRequestSeconds ≤ now - sent ∧
      (u ∈ ch.replayPending ∧ packet = none ∨
        ∃ entry ∈ ch.replayHistory, u ∈ entry.originals ∧ now - entry.sentAt ≤ replayMaxAge ∧
          packet = some entry.sequence) := by
  obtain ⟨⟨v, sent⟩, hmem, hturn⟩ := List.exists_of_findSome?_eq_some h
  rw [List.mem_insertionSort] at hmem
  rw [candidateTurn] at hturn
  split_ifs at hturn with hskip hreplay
  · cases hturn
    exact ⟨sent, hmem, fun hr => hskip (.inr (.inl hr)),
      not_lt.mp fun hlt => hskip (.inr (.inr hlt)), .inl ⟨hreplay, rfl⟩⟩
  · split at hturn
    · rename_i entry hfind
      split_ifs at hturn with hage
      cases hturn
      have horiginal : v ∈ entry.originals := by simpa using List.find?_some hfind
      exact ⟨sent, hmem, fun hr => hskip (.inr (.inl hr)),
        not_lt.mp fun hlt => hskip (.inr (.inr hlt)),
        .inr ⟨entry, List.mem_of_find?_eq_some hfind, horiginal, hage, rfl⟩⟩
    · cases hturn

/-- **The choice of `_recover`.**  What is to be replaced is a replay that has waited. -/
lemma choose_spec {ch : Channel} {now : ℤ} {body : Bytes} {victim : ℕ}
    (h : ch.choose now = some (body, some victim)) :
    ∃ sent, (victim, sent) ∈ ch.sentSince.entries ∧ victim ∉ ch.receivingTasks ∧
      replaySlotSeconds ≤ now - sent ∧
      (victim ∈ ch.replayPending ∨ ∃ entry ∈ ch.replayHistory, entry.pending = some victim) := by
  obtain ⟨entry, hmem, hturn⟩ := List.exists_of_findSome?_eq_some h
  rw [List.mem_insertionSort] at hmem
  rw [chooseTurn] at hturn
  split_ifs at hturn with hdue
  obtain ⟨replace, hreplace, heq⟩ := Option.map_eq_some_iff.mp hturn
  cases heq
  rw [replaceFor] at hreplace
  split at hreplace
  · rename_i task hchoice
    split at hreplace
    · rename_i sent hsent
      split_ifs at hreplace with hskip
      cases hreplace
      refine ⟨sent, Dict.get?_eq_some.mp hsent, fun hr => hskip (.inl hr),
        not_lt.mp fun hlt => hskip (.inr hlt), ?_⟩
      split at hchoice
      · rename_i task hpending
        cases hchoice
        exact .inr ⟨entry, hmem, hpending⟩
      · split_ifs at hchoice
        · cases hchoice
        · obtain ⟨task, hfind, heq⟩ := Option.map_eq_some_iff.mp hchoice
          cases heq
          have hreplay := List.find?_some hfind
          exact .inl (of_decide_eq_true hreplay).1
    · cases hreplace
  · rename_i hother
    exact absurd hreplace (hother victim)

end Channel

/-! ## What may be cancelled -/

/-- The request of `u` may be cancelled: it is uploaded and has waited for that long, no response to
it has begun, and it is a replay, or else the history still holds what it carries, encrypted and
young enough to be sent again. -/
structure Spendable (s : Sys) (owner u : ℕ) (wait : ℤ) (info : Request) : Prop where
  waits : ∃ p sent, s.req u = some (owner, info, .posting p) ∧ p.uploaded = some sent ∧
    p.receiving = false ∧ wait ≤ s.clock - sent
  kept : info.replay = true ∨ ∃ entry ∈ (s.chan owner).replayHistory,
    info.packet = some entry.sequence ∧ entry.body = info.body ∧
    info.body.take 8 ≠ Channel.plainKey ∧ s.clock - entry.sentAt ≤ replayMaxAge

section Choices

variable {E : AesKeystream} {s : Sys} {c u : ℕ}

/-- What has been sent and is not being received waits. -/
lemma Reaches.waiting (h : Reaches E s) {sent wait now : ℤ}
    (hsent : (u, sent) ∈ (s.chan c).sentSince.entries) (hnot : u ∉ (s.chan c).receivingTasks)
    (hwait : wait ≤ now - sent) (hnow : now ≤ s.clock) :
    ∃ info p, s.req u = some (c, info, .posting p) ∧ p.uploaded = some sent ∧
      p.receiving = false ∧ wait ≤ s.clock - sent := by
  obtain ⟨info, p, hreq, huploaded⟩ := (h.waits c).sent u sent hsent
  have hquiet : p.receiving = false :=
    Bool.eq_false_iff.mpr fun hr => hnot ((h.waits c).received u info p hreq hr)
  exact ⟨info, p, hreq, huploaded, hquiet, by omega⟩

/-- What `_make_upload_room` picks. -/
lemma Reaches.spendable_of_candidate (h : Reaches E s) {done : ℕ → Bool} {packet : Option ℕ}
    (hcand : (s.chan c).capacityCandidate done s.clock = some (u, packet)) :
    ∃ info, Spendable s c u replayRequestSeconds info := by
  obtain ⟨sent, hsent, hnot, hwait, hcase⟩ := Channel.capacityCandidate_spec hcand
  obtain ⟨info, p, hreq, huploaded, hquiet, hwaited⟩ := h.waiting hsent hnot hwait le_rfl
  refine ⟨info, ⟨p, sent, hreq, huploaded, hquiet, hwaited⟩, ?_⟩
  rcases hcase with ⟨hreplay, -⟩ | ⟨entry, hentry, horiginal, hage, -⟩
  · obtain ⟨-, info', pc, hreq', hinfo⟩ := (h.book c).replay u hreplay
    rw [hreq] at hreq'
    cases hreq'
    exact .inl hinfo
  · obtain ⟨-, info', pc, hreq', -, hpacket⟩ :=
      (h.book c).original u entry.sequence ⟨entry, hentry, rfl, horiginal⟩
    rw [hreq] at hreq'
    cases hreq'
    refine .inr ⟨entry, hentry, hpacket, (h.carries c).body u info _ hreq entry hentry hpacket,
      (h.carries c).encrypted u info _ hreq ?_, hage⟩
    rw [hpacket]
    exact nofun

/-- What `_recover` replaces. -/
lemma Reaches.spendable_of_choose (h : Reaches E s) {now : ℤ} {body : Bytes}
    (hnow : now ≤ s.clock) (hchoose : (s.chan c).choose now = some (body, some u)) :
    ∃ info, Spendable s c u replaySlotSeconds info ∧ info.replay = true := by
  obtain ⟨sent, hsent, hnot, hwait, hcase⟩ := Channel.choose_spec hchoose
  obtain ⟨info, p, hreq, huploaded, hquiet, hwaited⟩ := h.waiting hsent hnot hwait hnow
  have hreplay : u ∈ (s.chan c).replayPending := by
    rcases hcase with hreplay | ⟨entry, hentry, hpending⟩
    · exact hreplay
    · exact ((h.book c).probe u entry.sequence ⟨entry, hentry, rfl, hpending⟩).1
  obtain ⟨-, info', pc, hreq', hinfo⟩ := (h.book c).replay u hreplay
  rw [hreq] at hreq'
  cases hreq'
  exact ⟨info, ⟨⟨p, sent, hreq, huploaded, hquiet, hwaited⟩, .inl hinfo⟩, hinfo⟩

end Choices

/-- The packet that waits on a channel does not fit. -/
def Crowded (s : Sys) (c : ℕ) : Prop :=
  (s.chan c).uploadWaitSince ≠ none ∧
    ((s.chan c).uploadWaitPhase = .channelCapacity ∧
        ¬ (s.chan c).HasCapacity (s.chan c).uploadWaitBytes ∨
      (s.chan c).uploadWaitPhase = .laneCapacity ∧
        ¬ s.lane.HasCapacity (s.chan c).uploadWaitBytes)

/-! ## Steps of the recovery loop -/

section Steps

variable {E : AesKeystream} {s s' : Sys} {t c : ℕ} {pc : RecoverPc} {i : Input}

/-- A cancelled `_recover` cancels nobody. -/
lemma cancelling_of_cancelled (h : recoverStep s t c pc .cancelled = some s') :
    s'.cancelling = s.cancelling ∧
      ∀ now victim, s'.coro t ≠ .recover c (.makingRoom now victim) := by
  have hset : ∀ k, (∀ now victim, k ≠ .recover c (.makingRoom now victim)) →
      (s.setCoro t k).cancelling = s.cancelling ∧
        ∀ now victim, (s.setCoro t k).coro t ≠ .recover c (.makingRoom now victim) := by
    intro k hk
    exact ⟨rfl, by simpa using hk⟩
  cases pc with
  | sleeping =>
      obtain rfl := Option.some.inj h
      exact hset _ nofun
  | waking dying =>
      cases dying <;> obtain rfl := Option.some.inj h <;> exact hset _ nofun
  | makingRoom now victim =>
      rw [recoverStep, Option.ite_none_right_eq_some] at h
      obtain rfl := Option.some.inj h.2
      exact hset _ nofun
  | replacing body victim =>
      rw [recoverStep, Option.ite_none_right_eq_some] at h
      obtain rfl := Option.some.inj h.2
      exact hset _ nofun

/-- What a step of `_recover` decides, along a run. -/
lemma recover_next_of_step (hs : step E (.run t i) s = some s') (hpc : s.coro t = .recover c pc) :
    RecoverNext s s' t c pc ∨ s'.cancelling ⊆ s.cancelling ∧
      ∀ now victim, s'.coro t ≠ .recover c (.makingRoom now victim) := by
  by_cases hi : i = .cancelled
  · subst hi
    rw [step, Option.ite_none_right_eq_some] at hs
    obtain ⟨-, hstep⟩ := hs
    simp only [coroStep, hpc] at hstep
    obtain ⟨hcancel, hcoro⟩ := cancelling_of_cancelled hstep
    refine .inr ⟨?_, hcoro⟩
    rw [hcancel]
    exact Finset.erase_subset _ _
  · have hstep : coroStep E s t i = some s' := by
      cases i with
      | cancelled => exact absurd rfl hi
      | _ => exact hs
    simp only [coroStep, hpc] at hstep
    exact .inl (recover_next hstep)

/-- Only the request itself is reached when it is cancelled. -/
lemma cancelling_request {u c' : ℕ} {info : Request} {pc : RequestPc}
    (h : s.req u = some (c', info, pc)) :
    (s.cancelAll [u]).cancelling = insert u s.cancelling := by
  simp only [Sys.cancelAll_cancelling, List.flatMap_cons, List.flatMap_nil, List.append_nil,
    reached_request h, List.toFinset_cons, List.toFinset_nil]
  rw [Finset.union_insert, Finset.union_empty]

/-- **Only safe requests are cancelled to make room.**  Of the steps of a recovery loop, one that
makes room cancels one request, of its own channel or of another of the lane, while the packet that
waits does not fit; one that replaces a replay cancels that one; and no other cancels any. -/
theorem cancels_only_spendable (h : Reaches E s) (hs : step E (.run t i) s = some s')
    (hpc : s.coro t = .recover c pc) :
    (∃ owner victim info, Crowded s c ∧ (owner = c ∨ owner ∈ s.lane.channels) ∧
      Spendable s owner victim replayRequestSeconds info ∧
      s'.cancelling = insert victim s.cancelling ∧
      s'.coro t = .recover c (.makingRoom s.clock victim)) ∨
    (∃ victim info body, Spendable s c victim replaySlotSeconds info ∧ info.replay = true ∧
      s'.cancelling = insert victim s.cancelling ∧
      s'.coro t = .recover c (.replacing body victim)) ∨
    s'.cancelling ⊆ s.cancelling := by
  rcases recover_next_of_step hs hpc with hnext | ⟨hsub, -⟩
  · cases hnext with
    | room owner victim packet order horder hroom hchan hcoro hcancel =>
        left
        obtain ⟨howner, hcand⟩ := mem_of_makeUploadRoom hroom
        obtain ⟨info, hsafe⟩ := h.spendable_of_candidate hcand
        obtain ⟨p, sent, hreq, -⟩ := hsafe.waits
        obtain ⟨⟨-, hsince⟩, hwhere⟩ := mem_roomChannels howner
        refine ⟨owner, victim, info, ⟨hsince, ?_⟩, ?_, hsafe,
          hcancel.trans (cancelling_request hreq), hcoro⟩
        · rcases hwhere with ⟨hphase, hfull, -⟩ | ⟨hphase, hfull, -⟩
          · exact .inl ⟨hphase, hfull⟩
          · exact .inr ⟨hphase, hfull⟩
        · rcases hwhere with ⟨-, -, hself⟩ | ⟨-, -, hmem⟩
          · exact .inl hself
          · rw [← List.mem_toFinset, horder] at hmem
            exact .inr hmem
    | replace now body victim hnow hchoose hcoro hcancel =>
        right
        left
        have hpast : now ≤ s.clock := by
          rcases hnow with rfl | ⟨v, rfl⟩
          · exact le_rfl
          · exact h.recalls t c now v hpc
        obtain ⟨info, hsafe, hreplay⟩ := h.spendable_of_choose hpast hchoose
        obtain ⟨p, sent, hreq, -⟩ := hsafe.waits
        exact ⟨victim, info, body, hsafe, hreplay, hcancel.trans (cancelling_request hreq), hcoro⟩
    | send body hwhy hcoro hcancel => exact .inr (.inr hcancel.subset)
    | rest hcoro hcancel => exact .inr (.inr hcancel.subset)
  · exact .inr (.inr hsub)

end Steps

/-- A lane with a channel that is bridged, and one packet on its way. -/
def firstUploaded : List Event :=
  [Event.openChannel, .bridge 0 protoTagSecure ⟨[], [], 0⟩,
    .run 0 (.packet (List.replicate 23 1 ++ [0]))] ++ List.replicate 7 (Event.run 0 .resume) ++
    [Event.run 4 .resume, .run 4 .uploaded]

/-- Seven more packets of the same client, and then one for which there is no room. -/
def crowding : List Event :=
  (List.range 7).flatMap (fun k => .run 0 (.packet (List.replicate 23 1 ++ [UInt8.ofNat k + 1])) ::
    List.replicate 7 (Event.run 0 .resume)) ++
    [Event.run 0 (.packet (List.replicate 23 1 ++ [8]))] ++ List.replicate 3 (Event.run 0 .resume)

/-- The first packet has waited for three seconds when the loop wakes. -/
theorem cancels_only_spendable_sample :
    ∃ (E : AesKeystream) (s s' : Sys), Reaches E s ∧
      step E (.run 2 (.channels [0])) s = some s' ∧ s'.cancelling = insert 4 s.cancelling ∧
      ∃ info, Spendable s 0 4 replayRequestSeconds info := by
  let E : AesKeystream := fun _ _ _ => 0
  have hrun : (exec (step E) (firstUploaded ++ crowding ++ [.tick 3000000000, .run 2 .resume])
      (Sys.start 1 false)).map (fun s => (s.coro 2, s.cancelling, s.lane.channels,
        (step E (.run 2 (.channels [0])) s).map fun s' => (s'.coro 2, s'.cancelling))) =
      some (.recover 0 (.waking false), ∅, {0},
        some (.recover 0 (.makingRoom 3000000001 4), {4})) := by
    decide +kernel
  obtain ⟨s, hs, heq⟩ := Option.map_eq_some_iff.mp hrun
  obtain ⟨hpc, heq⟩ := Prod.mk.inj heq
  obtain ⟨hnone, heq⟩ := Prod.mk.inj heq
  obtain ⟨hchannels, heq⟩ := Prod.mk.inj heq
  obtain ⟨s', hs', heq⟩ := Option.map_eq_some_iff.mp heq
  obtain ⟨hpc', hcancel⟩ := Prod.mk.inj heq
  have hreach : Reaches E s := reachable_of_exec (.start ⟨1, false, one_pos, rfl⟩) hs
  rcases cancels_only_spendable hreach hs' hpc with
    ⟨owner, victim, info, -, howner, hsafe, hadded, hcoro⟩ | ⟨_, _, _, _, _, _, hcoro⟩ | hsub
  · rw [hpc', Coro.recover.injEq, RecoverPc.makingRoom.injEq] at hcoro
    obtain ⟨-, -, rfl⟩ := hcoro
    rw [hchannels, Finset.mem_singleton, or_self] at howner
    subst howner
    exact ⟨E, s, s', hreach, hs', hadded, info, hsafe⟩
  · rw [hpc'] at hcoro
    cases hcoro
  · rw [hcancel, hnone] at hsub
    exact absurd hsub (by decide)

/-! ## What is stranded -/

/-- The attempts of the packet are used up, and no replay of it is on its way. -/
def ReplayPacket.Spent (entry : ReplayPacket) : Prop :=
  entry.pending = none ∧ replayMaxAttempts ≤ entry.attempts

instance (entry : ReplayPacket) : Decidable entry.Spent := inferInstanceAs (Decidable (_ ∧ _))

/-- The history holds the packet, with a replay on its way or attempts left. -/
def Channel.Recovers (ch : Channel) (sequence : ℕ) : Prop :=
  ∃ entry ∈ ch.replayHistory, entry.sequence = sequence ∧
    (entry.pending ≠ none ∨ entry.attempts < replayMaxAttempts)

instance (ch : Channel) (sequence : ℕ) : Decidable (ch.Recovers sequence) :=
  inferInstanceAs (Decidable (∃ entry ∈ ch.replayHistory, _))

section Stranded

variable {E : AesKeystream} {s s' : Sys} {t c owner victim : ℕ} {pc : RecoverPc} {i : Input}
  {now : ℤ} {info : Request} {pcv : RequestPc}

/-- **What rotation leaves behind.**  The packet of an original that is cancelled to make room stays
in the history; but `_capacity_candidate` does not ask for its budget, and it can be sent again just
if that was not spent before. -/
theorem rotation_strands_iff (h : Reaches E s) (hs : step E (.run t i) s = some s')
    (hpc : s.coro t = .recover c pc) (hpc' : s'.coro t = .recover c (.makingRoom now victim))
    (hreq : s.req victim = some (owner, info, pcv)) (horiginal : info.replay = false) :
    ∃ sequence, info.packet = some sequence ∧
      (∃ entry ∈ (s'.chan owner).replayHistory,
        entry.sequence = sequence ∧ entry.body = info.body ∧ entry.retired = true) ∧
      ((s'.chan owner).Recovers sequence ↔
        ∀ entry ∈ (s.chan owner).replayHistory, victim ∈ entry.originals → ¬ entry.Spent) := by
  rcases recover_next_of_step hs hpc with hnext | ⟨-, hno⟩
  swap
  · exact absurd hpc' (hno now victim)
  cases hnext with
  | replace _ _ _ _ _ hcoro =>
      rw [hpc'] at hcoro
      cases hcoro
  | send _ _ hcoro =>
      rw [hpc'] at hcoro
      cases hcoro
  | rest hcoro =>
      rw [hpc'] at hcoro
      rcases hcoro with hcoro | ⟨dying, hcoro⟩ | hcoro <;> cases hcoro
  | room owner' victim' packet order horder hroom hchan hcoro hcancel =>
      rw [hpc'] at hcoro
      cases hcoro
      obtain ⟨howner, hcand⟩ := mem_of_makeUploadRoom hroom
      obtain ⟨info', hsafe⟩ := h.spendable_of_candidate hcand
      obtain ⟨p, sent, hreq', -⟩ := hsafe.waits
      rw [hreq] at hreq'
      cases hreq'
      obtain ⟨sent, -, -, -, hcase⟩ := Channel.capacityCandidate_spec hcand
      rcases hcase with ⟨hreplay, -⟩ | ⟨entry, hentry, hmem, hage, rfl⟩
      · obtain ⟨-, info', pc', hreq', hinfo⟩ := (h.book _).replay _ hreplay
        rw [hreq] at hreq'
        cases hreq'
        rw [horiginal] at hinfo
        cases hinfo
      have hordered := (h.recorded owner).remembered.toOrdered
      have hpacket : ∀ old ∈ (s.chan owner).replayHistory, victim ∈ old.originals →
          info.packet = some old.sequence := by
        intro old hold hvictim
        obtain ⟨-, info', pc', hreq', -, hpacket⟩ :=
          (h.book owner).original victim old.sequence ⟨old, hold, rfl, hvictim⟩
        rw [hreq] at hreq'
        cases hreq'
        exact hpacket
      have hsequence := hpacket entry hentry hmem
      -- the one entry of that number is retired
      have hretired : { entry with retired := true } ∈ (s'.chan owner).replayHistory := by
        rw [hchan.replayHistory]
        exact List.mem_map.mpr ⟨entry, hentry, if_pos rfl⟩
      refine ⟨entry.sequence, hsequence, ⟨_, hretired, rfl,
        (h.carries owner).body victim info _ hreq entry hentry hsequence, rfl⟩, ?_⟩
      constructor
      · rintro ⟨entry', hentry', heq, hleft⟩ old hold hvictim ⟨hpending, hspent⟩
        have hsame : old = entry := hordered.unique hold hentry
          (Option.some.inj ((hpacket old hold hvictim).symm.trans hsequence))
        subst hsame
        rw [hchan.replayHistory] at hentry'
        obtain ⟨old', hold', ⟨rfl, hne⟩ | ⟨rfl, heq'⟩⟩ := Channel.mem_updatePacket hentry'
        · exact hne heq
        · obtain rfl := hordered.unique hold' hentry heq'
          rcases hleft with hpending' | hlt
          · exact hpending' hpending
          · exact absurd hspent (not_le.mpr hlt)
      · intro hnot
        refine ⟨_, hretired, rfl, ?_⟩
        by_cases hpending : entry.pending = none
        · exact .inr (not_le.mp fun hle => hnot entry hentry hmem ⟨hpending, hle⟩)
        · exact .inl hpending

end Stranded

/-- Three replays of the first packet, each answered with an empty body, before the others. -/
def threeReplays : List Event :=
  [(3000000000, 5), (2000000000, 6), (2000000000, 7)].flatMap fun (wait, task) =>
    [Event.tick wait, .run 2 .resume, .run 2 (.channels [0])] ++
        List.replicate 3 (Event.run 2 .resume) ++
      [Event.run task .resume, .run task (.opened {}), .run task .bodyEnd, .run task .resume,
        .run task .resume]

/-- Without the replays the packet can be sent again. -/
theorem rotation_strands_iff_sample :
    ∃ (E : AesKeystream) (s s' : Sys), Reaches E s ∧
      step E (.run 2 (.channels [0])) s = some s' ∧ (s'.chan 0).Recovers 1 := by
  let E : AesKeystream := fun _ _ _ => 0
  have hrun : (exec (step E) (firstUploaded ++ crowding ++ [.tick 3000000000, .run 2 .resume])
      (Sys.start 1 false)).map (fun s => (s.coro 2, s.coro 4,
        decide (∀ entry ∈ (s.chan 0).replayHistory, 4 ∈ entry.originals → ¬ entry.Spent),
        (step E (.run 2 (.channels [0])) s).map fun s' => s'.coro 2)) =
      some (.recover 0 (.waking false),
        .request 0 ⟨List.replicate 23 1 ++ [0], false, some 1⟩
          (.posting { uploaded := some 1 }), true,
        some (.recover 0 (.makingRoom 3000000001 4))) := by
    decide +kernel
  obtain ⟨s, hs, heq⟩ := Option.map_eq_some_iff.mp hrun
  obtain ⟨hpc, heq⟩ := Prod.mk.inj heq
  obtain ⟨hreq, heq⟩ := Prod.mk.inj heq
  obtain ⟨hfunded, heq⟩ := Prod.mk.inj heq
  obtain ⟨s', hs', hpc'⟩ := Option.map_eq_some_iff.mp heq
  have hreach : Reaches E s := reachable_of_exec (.start ⟨1, false, one_pos, rfl⟩) hs
  obtain ⟨sequence, hpacket, -, hiff⟩ :=
    rotation_strands_iff hreach hs' hpc hpc' (Sys.req_of_coro hreq) rfl
  obtain rfl := Option.some.inj hpacket
  exact ⟨E, s, s', hreach, hs', hiff.mpr (of_decide_eq_true hfunded)⟩

/-- After them it is stranded: the request is cancelled, and no replay may follow. -/
theorem rotation_strands_packet :
    ∃ (E : AesKeystream) (s s' : Sys), Reaches E s ∧
      s.coro 2 = .recover 0 (.waking false) ∧
      s.req 4 = some (0, ⟨List.replicate 23 1 ++ [0], false, some 1⟩,
        .posting { uploaded := some 1 }) ∧
      step E (.run 2 (.channels [0])) s = some s' ∧
      s'.coro 2 = .recover 0 (.makingRoom 7000000001 4) ∧ s'.cancelling = {4} ∧
      ¬ (s'.chan 0).Recovers 1 := by
  let E : AesKeystream := fun _ _ _ => 0
  have hrun : (exec (step E) (firstUploaded ++ threeReplays ++ crowding ++ [.run 2 .resume])
      (Sys.start 1 false)).map (fun s => (s.coro 2, s.coro 4,
        (step E (.run 2 (.channels [0])) s).map fun s' =>
          (s'.coro 2, decide (s'.cancelling = {4} ∧ ¬ (s'.chan 0).Recovers 1)))) =
      some (.recover 0 (.waking false),
        .request 0 ⟨List.replicate 23 1 ++ [0], false, some 1⟩
          (.posting { uploaded := some 1 }),
        some (.recover 0 (.makingRoom 7000000001 4), true)) := by
    decide +kernel
  obtain ⟨s, hs, heq⟩ := Option.map_eq_some_iff.mp hrun
  obtain ⟨hpc, heq⟩ := Prod.mk.inj heq
  obtain ⟨hreq, heq⟩ := Prod.mk.inj heq
  obtain ⟨s', hs', heq⟩ := Option.map_eq_some_iff.mp heq
  obtain ⟨hpc', heq⟩ := Prod.mk.inj heq
  obtain ⟨hcancel, hstranded⟩ := of_decide_eq_true heq
  have hreach : Reaches E s := reachable_of_exec (.start ⟨1, false, one_pos, rfl⟩) hs
  exact ⟨E, s, s', hreach, hpc, Sys.req_of_coro hreq, hs', hpc', hcancel, hstranded⟩

end TgWsProxy
