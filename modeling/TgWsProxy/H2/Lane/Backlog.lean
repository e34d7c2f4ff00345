import TgWsProxy.H2.Lane.Downstream

/-!
# Replies that have not been delivered

`native_backpressure` holds a replay back while a reply is queued or being written.  It looks at a
counter and at a time; here they are what they stand for.

* `Channel.Stocked` — the counter is the size of the queue, and both are bounded.
* `Delivering` — while a reply is being written, the time is set.
* **`Reaches.nothing_undelivered`** — without backpressure there is no reply on its way.
-/

namespace TgWsProxy

open Wire

/-! ## The reply queue -/

/-- The octets counted are those queued, and neither they nor the items exceed their bounds. -/
structure Channel.Stocked (ch : Channel) : Prop where
  bytes : ch.replyBytes = ((ch.queue.map QueueItem.size).sum : ℕ)
  items : ch.queue.length ≤ queueSize
  bound : ch.replyBytes ≤ maxChannelBytes

namespace Channel.Stocked

variable {ch ch' : Channel}

lemma fresh : Channel.Stocked {} := ⟨rfl, Nat.zero_le _, by decide⟩

lemma of_eq (h : ch.Stocked) (hqueue : ch'.queue = ch.queue)
    (hbytes : ch'.replyBytes = ch.replyBytes) : ch'.Stocked where
  bytes := by rw [hbytes, hqueue, h.bytes]
  items := by rw [hqueue]; exact h.items
  bound := by rw [hbytes]; exact h.bound

lemma same (h : ch.Stocked) (hsame : ch.Same ch') : ch'.Stocked :=
  h.of_eq hsame.queue hsame.replyBytes

/-- A failure throws the queue away and leaves the error in it. -/
lemma fail (h : ch.Stocked) (failure : Failure) : (ch.fail failure).Stocked := by
  rw [Channel.fail.eq_def]
  split_ifs
  · exact h
  · exact ⟨rfl, show 1 ≤ queueSize by decide, show (0 : ℤ) ≤ maxChannelBytes by decide⟩

/-- A reply is queued where there is room. -/
lemma push (h : ch.Stocked) {reply : Bytes}
    (hroom : ¬ (queueSize ≤ ch.queue.length ∨ maxChannelBytes < ch.replyBytes + reply.length)) :
    Channel.Stocked { ch with
      replyBytes := ch.replyBytes + reply.length
      queue := ch.queue ++ [.reply reply] } := by
  rw [not_or, not_le, not_lt] at hroom
  refine ⟨?_, ?_, hroom.2⟩
  · show ch.replyBytes + reply.length = _
    rw [h.bytes, List.map_append, List.sum_append]
    simp [QueueItem.size]
  · rw [List.length_append]
    exact hroom.1

/-- A reply is queued, or there is no room and the channel fails. -/
lemma settle (h : ch.Stocked) (packet : Option ℕ) (now : ℤ) (e : PostEnd) :
    (ch.settle packet now e).1.Stocked := by
  cases e with
  | cancelled => exact h
  | raised failure => exact h.fail failure
  | returned reply =>
      have hrecord : ∀ a : Channel, a.Stocked → Channel.Stocked (a.recordReply packet reply) := by
        intro a ha
        cases packet with
        | none => exact ha
        | some sequence => exact ha.of_eq rfl rfl
      have hprogress : Channel.Stocked { ch with lastProgress := now } := h.of_eq rfl rfl
      rw [Channel.settle, Channel.complete_eq]
      dsimp only
      split_ifs with hempty hclosed hfull
      · exact hprogress
      · exact hprogress
      · exact (hrecord _ hprogress).fail (.buffer "H2 client response queue exceeded bound")
      · exact (hrecord _ hprogress).push hfull

/-- An item is taken off the queue. -/
lemma pop (h : ch.Stocked) {item : QueueItem} {queue : List QueueItem}
    (hqueue : ch.queue = item :: queue) (hqueue' : ch'.queue = queue)
    (hbytes : ch'.replyBytes = ch.replyBytes - item.size) : ch'.Stocked where
  bytes := by
    rw [hbytes, h.bytes, hqueue, hqueue']
    simp
  items := by
    have hitems := h.items
    rw [hqueue, List.length_cons] at hitems
    rw [hqueue']
    omega
  bound := by
    have hbound := h.bound
    rw [hbytes]
    omega

end Channel.Stocked

theorem Reaches.stocked {E : AesKeystream} {s : Sys} (h : Reaches E s) (c : ℕ) :
    (s.chan c).Stocked := by
  refine h.channel (P := fun s c => (s.chan c).Stocked) ?_ ?_ ?_ c
  · rintro _ c ⟨clock, debug, -, rfl⟩
    exact .fresh
  · intro s s' c hst hstocked
    exact hstocked.same hst.chan
  · intro s e s' c hreach hs hstocked hmv
    have hfinish : ∀ {ch ch' : Channel} {task length : ℕ} {packet : Option ℕ}, ch.Stocked →
        ch.finishRequest task packet = some (length, ch') → ch'.Stocked := by
      intro ch ch' task length packet hch hfinish
      obtain ⟨-, history, rfl⟩ := Channel.finishRequest_eq_some hfinish
      exact hch.of_eq rfl rfl
    cases hmv with
    | opened _ hchan => exact Channel.Stocked.fresh.same hchan
    | bridged _ _ _ _ hchan => exact hstocked.same hchan
    | native _ _ body _ _ _ _ _ _ hchan =>
        obtain ⟨key, history, traces, heq⟩ :=
          (s.chan c).registerNative_eq s.nextTask s.clock body s.debug
        rw [heq] at hchan
        exact hstocked.of_eq hchan.queue hchan.replyBytes
    | replay _ _ _ _ _ _ _ _ _ _ _ hchan => exact hstocked.of_eq hchan.queue hchan.replyBytes
    | advance _ _ _ _ _ _ _ hchan => exact hstocked.same hchan
    | uploaded _ _ _ _ _ _ hchan => exact hstocked.of_eq hchan.queue hchan.replyBytes
    | received _ _ _ _ _ _ _ _ _ _ hchan => exact hstocked.of_eq hchan.queue hchan.replyBytes
    | ended _ info _ e _ ch _ _ _ hbefore hafter =>
        have hch : ch.Stocked := hstocked.of_eq hbefore.queue hbefore.replyBytes
        have hsettled := hch.settle info.packet s.clock e
        split at hafter
        · rename_i length ch' hfin
          exact (hfinish hsettled hfin).same hafter.1
        · exact hsettled.same hafter.1
    | closing failure hchan =>
        exact (hstocked.fail failure).of_eq hchan.queue hchan.replyBytes
    | swept _ _ _ _ _ _ _ _ _ _ _ hbefore hfin hchan =>
        exact (hfinish (hstocked.same hbefore) hfin).same hchan
    | cleared _ _ _ _ hchan => exact hstocked.of_eq hchan.queue hchan.replyBytes
    | rotated victim packet hchan =>
        have hrotated : ((s.chan c).rotate victim packet).Stocked := by
          cases packet <;> exact hstocked.of_eq rfl rfl
        exact hrotated.same hchan
    | dropped item queue hqueue _ hchan => exact hstocked.pop hqueue hchan.queue hchan.replyBytes
    | wrote _ body queue _ _ _ _ hqueue _ _ _ hchan =>
        exact hstocked.pop hqueue hchan.queue hchan.replyBytes
    | drained _ _ _ hchan => exact hstocked.of_eq hchan.queue hchan.replyBytes
    | wroteError _ _ _ _ _ _ _ _ _ _ _ _ _ hchan => exact hstocked.same hchan

/-! ## The write in progress -/

/-- While a reply is being written, the channel knows since when. -/
def Delivering (s : Sys) : Prop :=
  ∀ t c, s.coro t = .download c .draining → (s.chan c).deliveringSince ≠ none

section Delivering

variable {E : AesKeystream} {s s' : Sys} {e : Event} {t c : ℕ}

/-- A download that comes to a write has noted the time. -/
lemma since_of_downloadStep {pc : DownloadPc} {i : Input}
    (h : downloadStep E s t c pc i = some s') (hdraining : s'.coro t = .download c .draining) :
    (s'.chan c).deliveringSince ≠ none := by
  have hself : ∀ (s₁ : Sys) (k : Coro), (s₁.setCoro t k).coro t = k := by simp
  have hdone : ∀ {s₁ : Sys}, (s₁.setCoro t .done).coro t ≠ .download c .draining := by
    intro s₁ heq
    rw [hself] at heq
    cases heq
  unfold downloadStep at h
  split at h
  · dsimp only at h
    split at h
    · cases h
    · obtain rfl := Option.some.inj h
      exact absurd hdraining hdone
    · split_ifs at h
      · obtain rfl := Option.some.inj h
        exact absurd hdraining hdone
      · unfold Sys.writeReply at h
        split at h
        · cases h
        · split at h
          · obtain rfl := Option.some.inj h
            exact absurd hdraining hdone
          · obtain rfl := Option.some.inj h
            simp [Sys.writeNative]
  · obtain rfl := Option.some.inj h
    exact absurd hdraining hdone
  · obtain rfl := Option.some.inj h
    rw [hself] at hdraining
    cases hdraining
  · obtain rfl := Option.some.inj h
    exact absurd hdraining hdone
  · obtain rfl := Option.some.inj h
    exact absurd hdraining hdone
  · cases h

/-- Only the end of a write forgets its time. -/
lemma MoveOn.since (h : MoveOn E c s s') :
    (s'.chan c).deliveringSince = (s.chan c).deliveringSince ∨
      (s'.chan c).deliveringSince ≠ none ∨ c = s.nextChan ∨
      ∃ t, s.coro t = .download c .draining ∧ s'.coro t ≠ .download c .draining := by
  cases h with
  | opened hc => exact .inr (.inr (.inl hc))
  | bridged _ _ _ _ hchan => exact .inl hchan.deliveringSince
  | native _ _ body _ _ _ _ _ _ hchan =>
      obtain ⟨key, history, traces, heq⟩ :=
        (s.chan c).registerNative_eq s.nextTask s.clock body s.debug
      rw [heq] at hchan
      exact .inl hchan.deliveringSince
  | replay _ _ _ _ _ _ _ _ _ _ _ hchan => exact .inl hchan.deliveringSince
  | advance _ _ _ _ _ _ _ hchan => exact .inl hchan.deliveringSince
  | uploaded _ _ _ _ _ _ hchan => exact .inl hchan.deliveringSince
  | received _ _ _ _ _ _ _ _ _ _ hchan => exact .inl hchan.deliveringSince
  | ended _ info _ e _ ch _ _ _ hbefore hafter =>
      have hsettled : (ch.settle info.packet s.clock e).1.deliveringSince = ch.deliveringSince := by
        obtain ⟨_, _, _, _, _, _, _, heq⟩ := ch.settle_eq info.packet s.clock e
        rw [heq]
      have hch : ch.deliveringSince = (s.chan c).deliveringSince := hbefore.deliveringSince
      left
      split at hafter
      · rename_i length ch' hfin
        obtain ⟨-, history, rfl⟩ := Channel.finishRequest_eq_some hfin
        exact hafter.1.deliveringSince.trans (hsettled.trans hch)
      · exact hafter.1.deliveringSince.trans (hsettled.trans hch)
  | closing failure hchan =>
      have hfail : ((s.chan c).fail failure).deliveringSince = (s.chan c).deliveringSince := by
        rw [Channel.fail.eq_def]
        split_ifs <;> rfl
      exact .inl (hchan.deliveringSince.trans hfail)
  | swept _ _ _ _ _ _ _ _ _ _ _ hbefore hfin hchan =>
      obtain ⟨-, history, rfl⟩ := Channel.finishRequest_eq_some hfin
      exact .inl (hchan.deliveringSince.trans hbefore.deliveringSince)
  | cleared _ _ _ _ hchan => exact .inl hchan.deliveringSince
  | rotated victim packet hchan =>
      have hrotated : ((s.chan c).rotate victim packet).deliveringSince =
          (s.chan c).deliveringSince := by
        cases packet <;> rfl
      exact .inl (hchan.deliveringSince.trans hrotated)
  | dropped _ _ _ _ hchan => exact .inl hchan.deliveringSince
  | wrote _ _ _ _ _ _ _ _ _ _ _ hchan =>
      refine .inr (.inl ?_)
      rw [hchan.deliveringSince]
      rintro ⟨⟩
  | drained t hpc hpc' => exact .inr (.inr (.inr ⟨t, hpc, hpc'⟩))
  | wroteError _ _ _ _ _ _ _ _ _ _ _ _ _ hchan => exact .inl hchan.deliveringSince

theorem Reaches.delivering (h : Reaches E s) : Delivering s := by
  refine h.invariant (P := Delivering) ?_ ?_
  · rintro s ⟨clock, debug, -, rfl⟩ t c hpc
    cases hpc
  · intro s e s' hr hall _ hs t c hpc
    have hstation : (s'.coro t).station = some (c, 1) := by
      rw [hpc]
      rfl
    rcases station_of_step hr hs hstation with hold | ⟨hnew, -⟩
    · obtain ⟨pc, hcoro⟩ := Coro.download_of_station hold
      by_cases hmover : some t = e.mover
      · cases e with
        | run u i =>
            obtain rfl : t = u := Option.some.inj hmover
            obtain ⟨cancelling, hstep⟩ := coroStep_of_run hs
            simp only [coroStep, hcoro] at hstep
            exact since_of_downloadStep hstep hpc
        | _ => cases hmover
      · have hlt : t < s.nextTask := (Reaches.formed hr).toAllocated.lt (by simp [hcoro])
        rw [(Reaches.turn hr hs).coro t hmover hlt] at hpc
        have hsince := hall t c hpc
        rcases stays_or_on (Reaches.formed hr).toAllocated (Reaches.move hr hs) c with hst | hmv
        · rw [hst.chan.deliveringSince]
          exact hsince
        · rcases hmv.since with heq | hsome | hnew | ⟨t', ht', hleft⟩
          · rw [heq]
            exact hsince
          · exact hsome
          · have hlt := (Reaches.formed hr).channel t c (by rw [hpc]; rfl)
            omega
          · -- the download that has left is this one
            obtain ⟨n, hn, ht⟩ := Reaches.attached hr t c 1 hold
            obtain ⟨n', hn', ht''⟩ := Reaches.attached hr t' c 1 (by rw [ht']; rfl)
            obtain rfl := Option.some.inj (hn.symm.trans hn')
            obtain rfl : t = t' := ht.trans ht''.symm
            rw [(Reaches.turn hr hs).coro t hmover hlt] at hleft
            exact absurd hpc hleft
    · -- a download that has just been created waits for the queue
      have hborn := (Reaches.turn hr hs).born t hnew
      rw [hpc] at hborn
      cases hborn

end Delivering

/-- **Nothing is on its way.**  On a channel that has not failed and sees no backpressure there is
neither a reply in the queue nor one being written. -/
theorem Reaches.nothing_undelivered {E : AesKeystream} {s : Sys} {c : ℕ} (h : Reaches E s)
    (hopen : (s.chan c).closed = false) (hidle : ¬ (s.chan c).NativeBackpressure) :
    (s.chan c).queue = [] ∧ ∀ t, s.coro t ≠ .download c .draining := by
  rw [Channel.NativeBackpressure, not_or, not_not, not_not] at hidle
  obtain ⟨hbytes, hsince⟩ := hidle
  refine ⟨?_, fun t hpc => h.delivering t c hpc hsince⟩
  obtain ⟨bodies, hqueue, hencodable, -⟩ := (h.delivered.2 c).queued hopen
  have hsum := (h.stocked c).bytes
  rw [hbytes, hqueue] at hsum
  cases bodies with
  | nil => exact hqueue
  | cons body bodies =>
      have hpos := List.length_pos_iff.mpr (hencodable body List.mem_cons_self).1
      simp only [List.map_cons, List.sum_cons, QueueItem.size] at hsum
      omega

end TgWsProxy
