import TgWsProxy.H2.Lane.Backlog
import TgWsProxy.H2.Lane.Ledger
import TgWsProxy.H2.Lane.Ownership
import TgWsProxy.H2.Lane.Rotation

/-!
# Resource bounds

Room is looked for in one coroutine and taken several awaits later.  `send_lock` keeps other senders
of the channel out meanwhile, and the lane's lock those of other channels, until somebody releases
it for its holder.

* `Sizing` — a step enters one request of the channel, or finishes one, or leaves them alone.
* `Reaches.room` — a sender that has been admitted still has room when it enters its request.
* `Reaches.slots` — and so has a replay.
* **`resources_bounded`** — the bounds, where nobody releases the lane's lock for another.
* `lane_overfilled` — a run in which somebody does.
-/

namespace TgWsProxy

open Wire

/-! ## Requests that come and go -/

/-- What is pending is counted, and within its bounds. -/
structure Channel.Sized (ch : Channel) : Prop where
  few : ch.pending.size ≤ maxChannelRequests
  bytes : ch.pendingBytes = ch.pending.total
  bound : ch.pendingBytes ≤ maxChannelBytes

/-- What a step does to the pending requests of a channel. -/
inductive Sizing (c : ℕ) (s s' : Sys) : Prop
  | enter (t : ℕ) (caller : Caller) (body : Bytes) (pc : SendPc)
      (hpc : s.coro t = .send c caller body pc) (hadmitted : pc.Admitted)
      (hfree : (s'.chan c).sendLock = none) (hopen : (s.chan c).closed = false)
      (hpending : (s'.chan c).pending = (s.chan c).pending.set s.nextTask body.length)
      (hbytes : (s'.chan c).pendingBytes = (s.chan c).pendingBytes + body.length)
  | finish (u n : ℕ) (hu : (u, n) ∈ (s.chan c).pending.entries)
      (hclosed : (s.chan c).closed = true → (s'.chan c).closed = true)
      (hpending : (s'.chan c).pending = (s.chan c).pending.erase u)
      (hbytes : (s'.chan c).pendingBytes = (s.chan c).pendingBytes - n)
  | keep (hclosed : (s.chan c).closed = true → (s'.chan c).closed = true)
      (hpending : (s'.chan c).pending = (s.chan c).pending)
      (hbytes : (s'.chan c).pendingBytes = (s.chan c).pendingBytes)

lemma SendPc.Admitting.admitted {pc : SendPc} (h : pc.Admitting) : pc.Admitted := by
  cases pc with
  | laneLock => trivial
  | laneWait w => trivial
  | _ => cases h

section Sizes

variable {E : AesKeystream} {s s' : Sys} {e : Event}

lemma sizing_same {c : ℕ} {ch : Channel} (hchan : ch.Same (s'.chan c))
    (hclosed : (s.chan c).closed = true → ch.closed = true)
    (hpending : ch.pending = (s.chan c).pending)
    (hbytes : ch.pendingBytes = (s.chan c).pendingBytes) : Sizing c s s' :=
  .keep (fun hc => hchan.closed.trans (hclosed hc)) (hchan.pending.trans hpending)
    (hchan.pendingBytes.trans hbytes)

lemma sizing_finish {c u n : ℕ} {packet : Option ℕ} {ch ch' : Channel}
    (hfinish : ch.finishRequest u packet = some (n, ch')) (hchan : ch'.Same (s'.chan c))
    (hclosed : (s.chan c).closed = true → ch.closed = true)
    (hpending : ch.pending = (s.chan c).pending)
    (hbytes : ch.pendingBytes = (s.chan c).pendingBytes) : Sizing c s s' := by
  obtain ⟨hget, history, rfl⟩ := Channel.finishRequest_eq_some hfinish
  refine .finish u n ?_ (fun hc => hchan.closed.trans (hclosed hc)) ?_ ?_
  · rw [← hpending]
    exact Dict.get?_eq_some.mp hget
  · rw [hchan.pending, hpending]
  · rw [hchan.pendingBytes, hbytes]

lemma MoveOn.sizing {c : ℕ} (hf : Formed s) (h : MoveOn E c s s') : Sizing c s s' := by
  cases h with
  | opened hc hchan =>
      rw [← hf.chan c hc.ge] at hchan
      exact sizing_same hchan id rfl rfl
  | bridged _ _ _ _ hchan => exact sizing_same hchan id rfl rfl
  | native t caller body pc hpc hadm _ hfree hopen hchan =>
      obtain ⟨key, history, traces, heq⟩ :=
        (s.chan c).registerNative_eq s.nextTask s.clock body s.debug
      rw [heq] at hchan
      exact .enter t caller body pc hpc hadm.admitted hfree hopen hchan.pending hchan.pendingBytes
  | replay t entry pc hpc hadm _ hfree hopen _ _ _ hchan =>
      exact .enter t .recover entry.body pc hpc hadm.admitted hfree hopen hchan.pending
        hchan.pendingBytes
  | advance _ _ _ _ _ _ _ hchan => exact sizing_same hchan id rfl rfl
  | uploaded _ _ _ _ _ _ hchan => exact sizing_same hchan id rfl rfl
  | received _ _ _ _ _ _ _ _ _ _ hchan => exact sizing_same hchan id rfl rfl
  | ended u info p e receiving ch _ _ _ hbefore hafter =>
      have hclosed : (s.chan c).closed = true → (ch.settle info.packet s.clock e).1.closed = true :=
        fun hc => Channel.settle_closed _ _ _ (hbefore.closed.trans hc)
      have hsettle : (ch.settle info.packet s.clock e).1.pending = (s.chan c).pending ∧
          (ch.settle info.packet s.clock e).1.pendingBytes = (s.chan c).pendingBytes := by
        obtain ⟨_, _, _, _, _, _, _, heq⟩ := ch.settle_eq info.packet s.clock e
        rw [heq]
        exact ⟨hbefore.pending, hbefore.pendingBytes⟩
      split at hafter
      · rename_i length ch' hfinish
        exact sizing_finish hfinish hafter.1 hclosed hsettle.1 hsettle.2
      · exact sizing_same hafter.1 hclosed hsettle.1 hsettle.2
  | closing failure hchan =>
      have hfail : ((s.chan c).fail failure).pending = (s.chan c).pending ∧
          ((s.chan c).fail failure).pendingBytes = (s.chan c).pendingBytes := by
        rw [Channel.fail.eq_def]
        split_ifs <;> exact ⟨rfl, rfl⟩
      exact sizing_same hchan (fun _ => rfl) hfail.1 hfail.2
  | swept _ _ _ _ _ _ _ _ _ _ _ hbefore hfinish hchan =>
      exact sizing_finish hfinish hchan (fun hc => hbefore.closed.trans hc) hbefore.pending
        hbefore.pendingBytes
  | cleared _ _ _ _ hchan => exact sizing_same hchan id rfl rfl
  | rotated victim packet hchan =>
      have hrotate : ((s.chan c).rotate victim packet).closed = (s.chan c).closed ∧
          ((s.chan c).rotate victim packet).pending = (s.chan c).pending ∧
          ((s.chan c).rotate victim packet).pendingBytes = (s.chan c).pendingBytes := by
        cases packet <;> exact ⟨rfl, rfl, rfl⟩
      exact sizing_same hchan (fun hc => hrotate.1.trans hc) hrotate.2.1 hrotate.2.2
  | dropped _ _ _ _ hchan => exact sizing_same hchan id rfl rfl
  | wrote _ _ _ _ _ _ _ _ _ _ _ hchan => exact sizing_same hchan id rfl rfl
  | drained _ _ _ hchan => exact sizing_same hchan id rfl rfl
  | wroteError _ _ _ _ _ _ _ _ _ _ _ _ _ hchan => exact sizing_same hchan id rfl rfl

lemma Reaches.sizing (h : Reaches E s) (hs : step E e s = some s') (c : ℕ) : Sizing c s s' := by
  rcases stays_or_on h.formed.toAllocated (h.move hs) c with hst | hmv
  · exact sizing_same hst.chan id rfl rfl
  · exact hmv.sizing h.formed

end Sizes

/-! ## Room on the channel -/

/-- A sender that has been admitted has room, or the channel has failed. -/
def Room (s : Sys) : Prop :=
  ∀ t c caller body pc, s.coro t = .send c caller body pc → pc.Admitted →
    (s.chan c).closed = true ∨ (s.chan c).HasCapacity body.length

theorem Reaches.room {E : AesKeystream} {s : Sys} (h : Reaches E s) : Room s := by
  refine h.invariant (P := Room) ?_ ?_
  · rintro s ⟨clock, debug, -, rfl⟩ t c caller body pc hpc
    cases hpc
  · intro s e s' hr hroom _ hs t c caller body pc' hpc' hadmitted
    have hbegun : pc' ≠ .sendLock := by
      rintro rfl
      exact hadmitted
    -- when it was admitted there was room, or it has been since
    have hold : (s.chan c).closed = true ∨ (s.chan c).HasCapacity body.length := by
      cases sendOrigin_of_step hr hs hpc' with
      | called heq => exact absurd heq hbegun
      | decided _ heq => exact absurd heq hbegun
      | stayed pc hpc hadm =>
          rcases hadm hadmitted with hadm | hcase
          · exact hroom t c caller body pc hpc hadm
          · exact hcase
    cases Reaches.sizing hr hs c with
    | enter _ _ _ _ _ _ hfree =>
        exact absurd hfree (Reaches.sendLock_ne_none (.step e hr trivial hs) hpc' hbegun)
    | finish u n hu hclosed hpending hbytes =>
        rcases hold with hold | ⟨hfew, hbound⟩
        · exact .inl (hclosed hold)
        · refine .inr ⟨?_, ?_⟩
          · rw [hpending]
            exact (Dict.size_erase_le _ _).trans_lt hfew
          · rw [hbytes]
            omega
    | keep hclosed hpending hbytes =>
        rcases hold with hold | ⟨hfew, hbound⟩
        · exact .inl (hclosed hold)
        · exact .inr ⟨by rw [hpending]; exact hfew, by rw [hbytes]; exact hbound⟩

/-- **The pending requests of a channel.** -/
theorem Reaches.sized {E : AesKeystream} {s : Sys} (h : Reaches E s) (c : ℕ) :
    (s.chan c).Sized := by
  refine h.invariant (P := fun s => ∀ c, (s.chan c).Sized) ?_ ?_ c
  · rintro s ⟨clock, debug, -, rfl⟩ c
    exact ⟨Nat.zero_le _, rfl, show (0 : ℤ) ≤ maxChannelBytes by decide⟩
  · intro s e s' hr hsized _ hs c
    obtain ⟨hfew, heq, hbound⟩ := hsized c
    cases Reaches.sizing hr hs c with
    | enter t caller body pc hpc hadmitted _ hopen hpending hbytes =>
        have hnew := Reaches.next_not_pending hr c
        rcases Reaches.room hr t c caller body pc hpc hadmitted with hclosed | ⟨hroom, hlength⟩
        · rw [hopen] at hclosed
          cases hclosed
        · refine ⟨?_, ?_, ?_⟩
          · rw [hpending, Dict.size_set_of_not_mem _ hnew]
            exact hroom
          · rw [hbytes, hpending, Dict.total_set_of_not_mem _ hnew, heq, Nat.cast_add]
          · rw [hbytes]
            exact hlength
    | finish u n hu _ hpending hbytes =>
        refine ⟨?_, ?_, ?_⟩
        · rw [hpending]
          exact (Dict.size_erase_le _ _).trans hfew
        · rw [hbytes, hpending, heq, Dict.total_erase_of_mem hu, Nat.cast_add]
          ring
        · rw [hbytes]
          omega
    | keep _ hpending hbytes =>
        exact ⟨by rw [hpending]; exact hfew, by rw [hbytes, hpending, heq],
          by rw [hbytes]; exact hbound⟩

/-! ## Replays -/

/-- What a step does to the replays of a channel. -/
inductive Replays (c : ℕ) (s s' : Sys) : Prop
  | enter (t : ℕ) (body : Bytes) (pc : SendPc) (hpc : s.coro t = .send c .recover body pc)
      (hadmitted : pc.Admitted) (hfree : (s'.chan c).sendLock = none)
      (hreplays : (s'.chan c).replayPending = insert s.nextTask (s.chan c).replayPending)
  | ease (hreplays : (s'.chan c).replayPending ⊆ (s.chan c).replayPending)
      (hposting : ∀ u ∈ (s'.chan c).replayPending, ∀ info p,
        s.req u = some (c, info, .posting p) → ∃ p', s'.req u = some (c, info, .posting p'))

section Replays

variable {E : AesKeystream} {s s' : Sys} {e : Event} {c : ℕ}

/-- A request stays where it was, unless it is that of `u`. -/
lemma replays_only {ch : Channel} {v : Option ℕ} (hchan : ch.Same (s'.chan c))
    (hsub : ch.replayPending ⊆ (s.chan c).replayPending) (honly : Only c v s s')
    (hu : ∀ u, v = some u → u ∈ ch.replayPending → ∀ info p,
      s.req u = some (c, info, .posting p) → ∃ p', s'.req u = some (c, info, .posting p')) :
    Replays c s s' := by
  refine .ease (by rw [hchan.replayPending]; exact hsub) fun u hmem info p hp => ?_
  rw [hchan.replayPending] at hmem
  by_cases huv : some u = v
  · exact hu u huv.symm hmem info p hp
  · exact ⟨p, (honly.req u huv).trans hp⟩

lemma replays_request {ch : Channel} {u : ℕ} {info : Request} {pc pc' : RequestPc}
    (hchan : ch.Same (s'.chan c)) (hsub : ch.replayPending ⊆ (s.chan c).replayPending)
    (honly : Only c (some u) s s') (hreq : s.req u = some (c, info, pc))
    (hreq' : s'.req u = some (c, info, pc'))
    (hpc : ∀ p, pc = .posting p → u ∉ ch.replayPending ∨ ∃ p', pc' = .posting p') :
    Replays c s s' := by
  refine replays_only hchan hsub honly fun v hv hmem info' p hp => ?_
  obtain rfl := Option.some.inj hv
  rw [hreq] at hp
  cases hp
  rcases hpc p rfl with hnot | ⟨p', rfl⟩
  · exact absurd hmem hnot
  · exact ⟨p', hreq'⟩

lemma MoveOn.replays (hf : Formed s) (hbook : Book c (s.chan c) s.req) (h : MoveOn E c s s') :
    Replays c s s' := by
  have hnone : ∀ {ch : Channel}, ch.Same (s'.chan c) →
      ch.replayPending ⊆ (s.chan c).replayPending → Only c none s s' → Replays c s s' :=
    fun hchan hsub honly => replays_only hchan hsub honly nofun
  cases h with
  | opened hc hchan _ _ honly => exact hnone hchan (Finset.empty_subset _) honly
  | bridged _ _ _ _ hchan _ honly => exact hnone hchan subset_rfl honly
  | native t caller body pc _ _ _ _ _ hchan hreq _ _ _ honly =>
      obtain ⟨key, history, traces, heq⟩ :=
        (s.chan c).registerNative_eq s.nextTask s.clock body s.debug
      rw [heq] at hchan
      refine replays_only hchan subset_rfl honly fun u hu _ info p hp => ?_
      rw [← Option.some.inj hu, hf.req_next] at hp
      cases hp
  | replay t entry pc hpc hadm _ hfree _ _ _ _ hchan =>
      exact .enter t entry.body pc hpc hadm.admitted hfree hchan.replayPending
  | advance u info pc pc' hcalm hreq hreq' hchan _ _ honly =>
      refine replays_request hchan subset_rfl honly hreq hreq' fun p hp => .inr ?_
      subst hp
      cases hcalm with
      | read => exact ⟨_, rfl⟩
      | start => exact ⟨_, rfl⟩
  | uploaded u info p hreq _ hreq' hchan _ _ honly =>
      exact replays_request hchan subset_rfl honly hreq hreq' fun _ _ => .inr ⟨_, rfl⟩
  | received u info p p' hreq _ hreq' _ _ _ hchan _ _ honly =>
      exact replays_request hchan subset_rfl honly hreq hreq' fun _ _ => .inr ⟨_, rfl⟩
  | ended u info p e receiving ch hreq _ _ hbefore hafter _ _ honly =>
      have hsettle : (ch.settle info.packet s.clock e).1.replayPending = (s.chan c).replayPending ∧
          (ch.settle info.packet s.clock e).1.pending = (s.chan c).pending := by
        obtain ⟨_, _, _, _, _, _, _, heq⟩ := ch.settle_eq info.packet s.clock e
        rw [heq]
        exact ⟨hbefore.replayPending, hbefore.pending⟩
      split at hafter
      · rename_i length ch' hfinish
        obtain ⟨-, history, rfl⟩ := Channel.finishRequest_eq_some hfinish
        refine replays_request hafter.1 ?_ honly hreq hafter.2 fun _ _ =>
          .inl (Finset.notMem_erase u _)
        exact (Finset.erase_subset _ _).trans hsettle.1.subset
      · -- a task that is not pending is no replay either
        rename_i hfinish
        have hnot := Channel.finishRequest_eq_none.mp hfinish
        refine replays_request hafter.1 hsettle.1.subset honly hreq hafter.2 fun _ _ => .inl ?_
        rw [hsettle.1]
        rw [hsettle.2] at hnot
        exact fun hmem => hnot (hbook.replay u hmem).1
  | closing failure hchan _ _ _ honly =>
      refine hnone hchan ?_ honly
      show ((s.chan c).fail failure).replayPending ⊆ _
      rw [Channel.fail.eq_def]
      split_ifs <;> exact subset_rfl
  | swept _ _ _ _ _ _ _ _ _ _ _ hbefore hfinish hchan _ _ honly =>
      obtain ⟨-, history, rfl⟩ := Channel.finishRequest_eq_some hfinish
      exact hnone hchan ((Finset.erase_subset _ _).trans hbefore.replayPending.subset) honly
  | cleared _ _ _ _ hchan _ _ honly => exact hnone hchan (Finset.empty_subset _) honly
  | rotated victim packet hchan _ _ honly =>
      refine hnone hchan ?_ honly
      cases packet <;> exact subset_rfl
  | dropped _ _ _ _ hchan _ _ honly => exact hnone hchan subset_rfl honly
  | wrote _ _ _ _ _ _ _ _ _ _ _ hchan _ _ honly => exact hnone hchan subset_rfl honly
  | drained _ _ _ hchan _ _ honly => exact hnone hchan subset_rfl honly
  | wroteError _ _ _ _ _ _ _ _ _ _ _ _ _ hchan _ _ honly => exact hnone hchan subset_rfl honly

lemma Reaches.replays (h : Reaches E s) (hs : step E e s = some s') (c : ℕ) : Replays c s s' := by
  rcases stays_or_on h.formed.toAllocated (h.move hs) c with hst | hmv
  · exact .ease hst.chan.replayPending.subset fun u _ info p hp => ⟨p, (hst.req u info _).mpr hp⟩
  · exact hmv.replays h.formed (h.book c)

end Replays

/-- **The choice of `_recover`** where nothing is to be replaced: a slot is free. -/
lemma Channel.choose_free {ch : Channel} {now : ℤ} {body : Bytes}
    (h : ch.choose now = some (body, none)) : ch.replayPending.card < maxChannelReplays := by
  obtain ⟨entry, -, hturn⟩ := List.exists_of_findSome?_eq_some h
  rw [chooseTurn] at hturn
  split_ifs at hturn
  obtain ⟨replace, hreplace, heq⟩ := Option.map_eq_some_iff.mp hturn
  cases heq
  rw [replaceFor] at hreplace
  split at hreplace
  · split at hreplace
    · split_ifs at hreplace
      cases hreplace
    · cases hreplace
  · rename_i hchoice
    rw [hreplace] at hchoice
    split at hreplace
    · cases hreplace
    · split_ifs at hreplace with hroom
      · exact hroom
      · obtain ⟨task, -, heq⟩ := Option.map_eq_some_iff.mp hreplace
        cases heq

/-- The replays of a channel do not exceed their bound, and leave a slot for the one that is being
sent, or that waits for another to end. -/
structure Slots (s : Sys) (c : ℕ) : Prop where
  few : (s.chan c).replayPending.card ≤ maxChannelReplays
  send : ∀ t body pc, s.coro t = .send c .recover body pc →
    (s.chan c).replayPending.card < maxChannelReplays
  replace : ∀ t body victim, s.coro t = .recover c (.replacing body victim) →
    ((s.chan c).replayPending.erase victim).card < maxChannelReplays ∧
      (victim ∈ (s.chan c).replayPending → ∃ info p, s.req victim = some (c, info, .posting p))

section Slots

variable {E : AesKeystream} {s s' : Sys} {e : Event} {t c : ℕ}

/-- What `_recover` waits for has made room when it has ended. -/
lemma Slots.replaced (h : Slots s c) {body : Bytes} {victim : ℕ}
    (hpc : s.coro t = .recover c (.replacing body victim)) (hdone : s.isDone victim = true) :
    (s.chan c).replayPending.card < maxChannelReplays := by
  obtain ⟨hroom, hposting⟩ := h.replace t body victim hpc
  have hnot : victim ∉ (s.chan c).replayPending := by
    intro hmem
    obtain ⟨info, p, hreq⟩ := hposting hmem
    rw [Sys.isDone, Sys.coro_of_req hreq] at hdone
    cases hdone
  rwa [Finset.erase_eq_of_notMem hnot] at hroom

/-- What is to be replaced is a replay whose response is awaited. -/
lemma Reaches.posting_of_choose (h : Reaches E s) {now : ℤ} {body : Bytes} {victim : ℕ}
    (hchoose : (s.chan c).choose now = some (body, some victim)) :
    victim ∈ (s.chan c).replayPending ∧ ∃ info p, s.req victim = some (c, info, .posting p) := by
  obtain ⟨sent, hsent, -, -, hcase⟩ := Channel.choose_spec hchoose
  obtain ⟨info, p, hreq, -⟩ := (h.waits c).sent victim sent hsent
  refine ⟨?_, info, p, hreq⟩
  rcases hcase with hreplay | ⟨entry, hentry, hpending⟩
  · exact hreplay
  · exact ((h.book c).probe victim entry.sequence ⟨entry, hentry, rfl, hpending⟩).1

/-- The recovery loop of a channel is one task. -/
lemma Reaches.recover_unique (h : Reaches E s) {u : ℕ} (ht : (s.coro t).station = some (c, 2))
    (hu : (s.coro u).station = some (c, 2)) : t = u := by
  obtain ⟨n, hn, rfl⟩ := h.attached t c 2 ht
  obtain ⟨n', hn', rfl⟩ := h.attached u c 2 hu
  obtain rfl := Option.some.inj (hn.symm.trans hn')
  rfl

/-- Where a replay has just been created, its sender has gone back to the loop. -/
lemma Reaches.loop_of_enter (h : Reaches E s) (hs : step E e s = some s') {body : Bytes}
    {pc : SendPc} (hpc : s.coro t = .send c .recover body pc) (hadmitted : pc.Admitted)
    (hfree : (s'.chan c).sendLock = none) {u : ℕ} (hu : (s'.coro u).station = some (c, 2)) :
    s'.coro u = .recover c .sleeping := by
  have hreach : Reaches E s' := .step e h trivial hs
  have hstation : (s.coro t).station = some (c, 2) := by
    rw [hpc]
    rfl
  obtain rfl : u = t := by
    rcases station_of_step h hs hu with hold | ⟨-, hnone, -⟩
    · exact h.recover_unique hold hstation
    · obtain ⟨n, hn, -⟩ := h.attached t c 2 hstation
      rw [hnone] at hn
      cases hn
  have hlt : u < s.nextTask := h.formed.lt (by simp [hpc])
  by_cases hmover : some u = e.mover
  · cases e with
    | run v i =>
        obtain rfl : u = v := Option.some.inj hmover
        obtain ⟨cancelling, hstep⟩ := coroStep_of_run hs
        simp only [coroStep, hpc] at hstep
        rcases send_next hstep with ⟨pc', hsend, hbegun, -⟩ | (⟨hcaller, -⟩ | ⟨-, hsleep⟩) | hdone
        · exact absurd hfree (Reaches.sendLock_ne_none hreach hsend hbegun)
        · cases hcaller
        · exact hsleep
        · rw [hdone] at hu
          cases hu
    | _ => cases hmover
  · have hstill := ((h.turn hs).coro u hmover hlt).trans hpc
    refine absurd hfree (Reaches.sendLock_ne_none hreach hstill ?_)
    rintro rfl
    exact hadmitted

theorem Reaches.slots (h : Reaches E s) (c : ℕ) : Slots s c := by
  refine h.invariant (P := fun s => ∀ c, Slots s c) ?_ ?_ c
  · rintro s ⟨clock, debug, -, rfl⟩ c
    exact ⟨Nat.zero_le _, nofun, nofun⟩
  · intro s e s' hr hslots _ hs c
    have hold := hslots c
    cases Reaches.replays hr hs c with
    | enter t body pc hpc hadmitted hfree hreplays =>
        have hloop := fun {u} hu => Reaches.loop_of_enter hr hs hpc hadmitted hfree (u := u) hu
        refine ⟨?_, fun u body' pc' hpc' => ?_, fun u body' victim hpc' => ?_⟩
        · rw [hreplays]
          exact (Finset.card_insert_le _ _).trans (hold.send t body pc hpc)
        · have hsleep := hloop (u := u) (by rw [hpc']; rfl)
          rw [hpc'] at hsleep
          cases hsleep
        · have hsleep := hloop (u := u) (by rw [hpc']; rfl)
          rw [hpc'] at hsleep
          cases hsleep
    | ease hreplays hposting =>
        have hcard := Finset.card_le_card hreplays
        refine ⟨hcard.trans hold.few, fun t body pc' hpc' => hcard.trans_lt ?_,
          fun t body victim hpc' => ?_⟩
        · cases sendOrigin_of_step hr hs hpc' with
          | called _ hcaller => exact absurd rfl hcaller
          | stayed pc hpc => exact hold.send t body pc hpc
          | decided pc _ _ hpc hwhy =>
              rcases hwhy with ⟨now, hchoose⟩ | ⟨victim, rfl, hdone⟩
              · exact Channel.choose_free hchoose
              · exact hold.replaced hpc hdone
        · have hroom : ((s.chan c).replayPending.erase victim).card < maxChannelReplays ∧
              (victim ∈ (s.chan c).replayPending →
                ∃ info p, s.req victim = some (c, info, .posting p)) := by
            rcases Reaches.victim_of_step hr hs hpc' nofun nofun with
              hpc | ⟨_, hroom⟩ | ⟨now, _, _, hreplace, hchoose⟩
            · exact hold.replace t body victim hpc
            · cases hroom
            · cases hreplace
              obtain ⟨hmem, hreq⟩ := Reaches.posting_of_choose hr hchoose
              refine ⟨?_, fun _ => hreq⟩
              rw [Finset.card_erase_of_mem hmem]
              have hpos := Finset.card_pos.mpr ⟨victim, hmem⟩
              have hfew := hold.few
              omega
          refine ⟨(Finset.card_le_card (Finset.erase_subset_erase _ hreplays)).trans_lt hroom.1,
            fun hmem => ?_⟩
          obtain ⟨info, p, hreq⟩ := hroom.2 (hreplays hmem)
          obtain ⟨p', hreq'⟩ := hposting victim hmem info p hreq
          exact ⟨info, p', hreq'⟩

end Slots

/-! ## All bounds -/

/-- The reply buffers of a lane are within their bound. -/
lemma Reaches.replies {E : AesKeystream} {s : Sys} (h : Reaches E s) :
    s.lane.replyBufferBytes ≤ maxLaneReplyBytes := by
  refine h.invariant (P := fun s => s.lane.replyBufferBytes ≤ (maxLaneReplyBytes : ℤ)) ?_ ?_
  · rintro s ⟨clock, debug, -, rfl⟩
    exact show (0 : ℤ) ≤ maxLaneReplyBytes by decide
  · intro s e s' hr hfits _ hs
    exact (Reaches.turn hr hs).lane.replies hfits

/-- So are the counters of its requests, where nobody releases the lock of another. -/
lemma fits_of_owning {E : AesKeystream} {s : Sys} (h : Reachable Starting (step E) Owning s) :
    s.lane.Fits := by
  refine h.invariant (P := fun s => s.lane.Fits) ?_ ?_
  · rintro s ⟨clock, debug, -, rfl⟩
    exact ⟨show (0 : ℤ) ≤ maxLaneRequests by decide, show (0 : ℤ) ≤ maxLaneBytes by decide⟩
  · intro s e s' hr hfits ha hs
    exact (Reaches.turn hr.always hs).lane.fits
      ((laneHeld_of_owning (fun _ _ => id) hr).secure ha hs) hfits

/-- A packet that `_read_packet` accepts fits where nothing is pending. -/
lemma Channel.Sized.idle {ch : Channel} (h : ch.Sized) (hidle : ch.pending.keys = []) {n : ℕ}
    (hn : n ≤ maxPacket) : ch.HasCapacity n := by
  rw [Dict.keys, List.map_eq_nil_iff] at hidle
  refine ⟨?_, ?_⟩
  · rw [Dict.size, hidle]
    decide
  · have hempty : ch.pending.total = 0 := by
      rw [Dict.total, Dict.values, hidle]
      rfl
    rw [h.bytes, hempty, maxChannelBytes]
    rw [maxPacket] at hn
    omega

/-- **Resources are bounded**, as long as no coroutine releases the lock of another.  In every state
of such a run the records of a channel count what is pending and what waits to be delivered, the
lane counts what the running `_post` calls have buffered, and nothing exceeds its bound; and a
packet that `_read_packet` accepts has room on an idle channel of an idle lane. -/
theorem resources_bounded {E : AesKeystream} {s : Sys}
    (h : Reachable Starting (step E) Owning s) (c : ℕ) :
    (s.chan c).Sized ∧ (s.chan c).replayPending.card ≤ maxChannelReplays ∧ (s.chan c).Stocked ∧
    (s.lane.inflight ≤ maxLaneRequests ∧ s.lane.queuedBytes ≤ maxLaneBytes) ∧
    (s.lane.replyBufferBytes = s.buffered ∧ s.lane.replyBufferBytes ≤ maxLaneReplyBytes) ∧
    ∀ tag r m quick r', readPacket E tag r = (.ok (m, quick), r') →
      ((s.chan c).pending.keys = [] → (s.chan c).HasCapacity m.length) ∧
      (s.lane.inflight = 0 → s.lane.queuedBytes = 0 → s.lane.HasCapacity m.length) := by
  have hreach : Reaches E s := h.always
  refine ⟨hreach.sized c, (hreach.slots c).few, hreach.stocked c, fits_of_owning h,
    ⟨hreach.replyBufferBytes, hreach.replies⟩, fun tag r m quick r' hread => ?_⟩
  obtain ⟨_, _, _, -, -, -, -, -, -, hmax, -⟩ := readPacket_eq_ok hread
  refine ⟨fun hidle => (hreach.sized c).idle hidle hmax, fun hzero hempty => ⟨?_, ?_⟩⟩
  · rw [hzero]
    decide
  · rw [hempty, maxLaneBytes]
    rw [maxPacket] at hmax
    omega

/-- Where eight packets are on their way and a ninth waits, the channel is full. -/
theorem resources_bounded_sample :
    ∃ (E : AesKeystream) (s : Sys), Reachable Starting (step E) Owning s ∧
      (s.chan 0).pending.size = maxChannelRequests ∧
      (s.chan 0).Sized ∧ (s.chan 0).Stocked ∧ (s.chan 0).replayPending.card ≤ maxChannelReplays ∧
      s.lane.replyBufferBytes = s.buffered := by
  let E : AesKeystream := fun _ _ _ => 0
  have hrun : (exec (step E) (firstUploaded ++ crowding) (Sys.start 1 false)).map
      (fun s => (s.chan 0).pending.size) = some 8 := by
    decide +kernel
  obtain ⟨s, hs, hsize⟩ := Option.map_eq_some_iff.mp hrun
  have howning : ∀ e ∈ firstUploaded ++ crowding, ∀ s, Owning s e := by
    rintro _ he s t rfl
    simp [firstUploaded, crowding] at he
  have hreach : Reachable Starting (step E) Owning s :=
    reachable_of_exec_of_allowed howning (.start ⟨1, false, one_pos, rfl⟩) hs
  obtain ⟨hsized, hreplays, hstocked, -, ⟨hbuffer, -⟩, -⟩ := resources_bounded hreach 0
  exact ⟨E, s, hreach, hsize, hsized, hstocked, hreplays, hbuffer⟩

/-- A third packet finds the room that the second one has found. -/
def letInTwice : List Event :=
  foreignRelease ++ sendsNext 66 130 6 ++ [.run 129 .resume, .run 130 .resume]

set_option maxRecDepth 100000 in
/-- One request more than there may be. -/
theorem lane_overfilled :
    ∃ (E : AesKeystream) (s : Sys), Reaches E s ∧ ¬ s.lane.inflight ≤ maxLaneRequests := by
  let E : AesKeystream := fun _ _ _ => 0
  have hrun : (exec (step E) letInTwice (Sys.start 1 false)).map (fun s => s.lane.inflight) =
      some 65 := by
    decide +kernel
  obtain ⟨s, hs, hinflight⟩ := Option.map_eq_some_iff.mp hrun
  refine ⟨E, s, reachable_of_exec (.start ⟨1, false, one_pos, rfl⟩) hs, ?_⟩
  rw [hinflight]
  decide

end TgWsProxy
