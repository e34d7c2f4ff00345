import TgWsProxy.H2.Lane.Book

/-!
# Requests and the packets they carry

* `Waits` — `sent_since` and `receiving_tasks` say how far a request has come.
* `Channel.Ages` — what happens to the history between sends.
* `Packing` — a step creates a request of the channel, or lets its packets age.
* `Channel.registerNative_entries` — what a native request makes of the history.
* `Carries` — what a request and its packet have in common; `Reaches.carries`, along every run.
-/

namespace TgWsProxy

open Wire

/-! ## How far a request has come -/

/-- What `sent_since` and `receiving_tasks` say about the requests of a channel. -/
structure Waits (c : ℕ) (ch : Channel) (req : Requests) : Prop where
  sent : ∀ u time, (u, time) ∈ ch.sentSince.entries →
    ∃ info p, req u = some (c, info, .posting p) ∧ p.uploaded = some time
  received : ∀ u info p, req u = some (c, info, .posting p) → p.receiving = true →
    u ∈ ch.receivingTasks

section Waits

variable {c u : ℕ} {ch ch' : Channel} {req req' : Requests}

/-- Nothing is uploaded, and nobody begins to receive. -/
lemma Waits.keep (h : Waits c ch req)
    (hsent : ∀ p ∈ ch'.sentSince.entries, p ∈ ch.sentSince.entries)
    (hreceiving : ch'.receivingTasks = ch.receivingTasks)
    (hreq : ∀ v info pc, req' v = some (c, info, pc) ↔ req v = some (c, info, pc)) :
    Waits c ch' req' where
  sent v time hv := by
    obtain ⟨info, p, hp, huploaded⟩ := h.sent v time (hsent _ hv)
    exact ⟨info, p, (hreq _ _ _).mpr hp, huploaded⟩
  received v info p hp hrec := hreceiving ▸ h.received v info p ((hreq _ _ _).mp hp) hrec

/-- The request of one task moves on. -/
lemma Waits.move {info : Request} {pc' : RequestPc} (h : Waits c ch req)
    (hreq' : req' u = some (c, info, pc')) (hother : ∀ v, v ≠ u → req' v = req v)
    (hsent : ∀ v time, v ≠ u → (v, time) ∈ ch'.sentSince.entries → (v, time) ∈ ch.sentSince.entries)
    (hreceiving : ∀ v, v ≠ u → v ∈ ch.receivingTasks → v ∈ ch'.receivingTasks)
    (huploaded : ∀ time, (u, time) ∈ ch'.sentSince.entries →
      ∃ p, pc' = .posting p ∧ p.uploaded = some time)
    (hreceived : ∀ p, pc' = .posting p → p.receiving = true → u ∈ ch'.receivingTasks) :
    Waits c ch' req' where
  sent v time hv := by
    by_cases hvu : v = u
    · subst hvu
      obtain ⟨p, rfl, hp⟩ := huploaded time hv
      exact ⟨info, p, hreq', hp⟩
    · obtain ⟨info', p, hp, hup⟩ := h.sent v time (hsent v time hvu hv)
      exact ⟨info', p, (hother v hvu).trans hp, hup⟩
  received v info' p hp hrec := by
    by_cases hvu : v = u
    · subst hvu
      rw [hreq'] at hp
      cases hp
      exact hreceived p rfl hrec
    · exact hreceiving v hvu (h.received v info' p ((hother v hvu).symm.trans hp) hrec)

end Waits

theorem Reaches.waits {E : AesKeystream} {s : Sys} (h : Reaches E s) (c : ℕ) :
    Waits c (s.chan c) s.req := by
  refine h.channel (P := fun s c => Waits c (s.chan c) s.req) ?_ ?_ ?_ c
  · rintro _ c ⟨clock, debug, -, rfl⟩
    exact ⟨nofun, nofun⟩
  · intro s s' c hst hw
    exact hw.keep (fun p hp => hst.chan.sentSince ▸ hp) hst.chan.receivingTasks hst.req
  · intro s e s' c hr hs hw hmv
    have hbook := Reaches.book hr c
    have hnone : Only c none s s' → ∀ v info pc, s'.req v = some (c, info, pc) ↔
        s.req v = some (c, info, pc) := fun honly v _ _ => by rw [honly.req v (by simp)]
    have hother : ∀ {u}, Only c (some u) s s' → ∀ v, v ≠ u → s'.req v = s.req v :=
      fun honly v hvu => honly.req v (by simpa using hvu)
    -- who has uploaded is still at it, so it is not another request that begins
    have hstale : ∀ {u time}, (u, time) ∈ (s.chan c).sentSince.entries →
        s.req u ≠ none := by
      intro u time hu hnone
      obtain ⟨info, p, hp, -⟩ := hw.sent u time hu
      rw [hp] at hnone
      cases hnone
    have hborn : ∀ {info : Request} {ch : Channel}, ch.sentSince = (s.chan c).sentSince →
        ch.receivingTasks = (s.chan c).receivingTasks → ch.Same (s'.chan c) →
        s'.req s.nextTask = some (c, info, .created) → Only c (some s.nextTask) s s' →
        Waits c (s'.chan c) s'.req := by
      intro info ch hsent hreceiving hchan hreq honly
      have hsent' : (s'.chan c).sentSince = (s.chan c).sentSince := hchan.sentSince.trans hsent
      refine hw.move hreq (hother honly) (fun v time _ hv => hsent' ▸ hv) (fun v _ hv => ?_)
        (fun time hv => ?_) nofun
      · rw [hchan.receivingTasks, hreceiving]
        exact hv
      · exact absurd (Reaches.formed hr).req_next (hstale (hsent' ▸ hv))
    cases hmv with
    | opened hc hchan hlog hnative honly =>
        refine ⟨fun u time hu => ?_, fun u info p hp => ?_⟩
        · rw [hchan.sentSince] at hu
          cases hu
        · rw [honly.req u (by simp)] at hp
          have hlt := (Reaches.formed hr).channel u c (by rw [Sys.coro_of_req hp]; rfl)
          omega
    | bridged tag cltEnc hnone' hnative hchan hlog honly =>
        exact hw.keep (fun p hp => hchan.sentSince ▸ hp) hchan.receivingTasks (hnone honly)
    | native t caller body pc hpc hadm hleft hfree hopen hchan hreq hlog hnative hnext honly =>
        obtain ⟨key, history, traces, heq⟩ :=
          (s.chan c).registerNative_eq s.nextTask s.clock body s.debug
        exact hborn (by rw [heq]) (by rw [heq]) hchan hreq honly
    | replay t entry pc hpc hadm hleft hfree hopen hfind hpending hdue hchan hreq hlog hnative
        hnext honly =>
        exact hborn (by rfl) (by rfl) hchan hreq honly
    | advance u info pc pc' hcalm hreq hreq' hchan hlog hnative honly =>
        refine hw.move hreq' (hother honly) (fun v time _ hv => hchan.sentSince ▸ hv)
          (fun v _ hv => hchan.receivingTasks ▸ hv) (fun time hv => ?_) fun p hp hrec => ?_
        · rw [hchan.sentSince] at hv
          obtain ⟨info', p, hp, huploaded⟩ := hw.sent u time hv
          rw [hreq] at hp
          cases hp
          cases hcalm with
          | read p data hopen hmax => exact ⟨_, rfl, huploaded⟩
          | start p p' hr hr' hu hc => exact ⟨p', rfl, hu.trans huploaded⟩
        · subst hp
          rw [hchan.receivingTasks]
          cases hcalm with
          | post => cases hrec
          | read p data hopen hmax => exact hw.received u info p hreq hrec
          | start p p' hr hr' hu hc => exact hw.received u info _ hreq hr
    | uploaded u info p hreq hnone' hreq' hchan hlog hnative honly =>
        refine hw.move hreq' (hother honly) (fun v time hvu hv => ?_)
          (fun v _ hv => hchan.receivingTasks ▸ hv) (fun time hv => ⟨_, rfl, ?_⟩)
          fun p' hp' hrec => ?_
        · rw [hchan.sentSince, Dict.mem_entries_set] at hv
          rcases hv with heq | ⟨hv, -⟩
          · exact absurd (congrArg Prod.fst heq) hvu
          · exact hv
        · rw [hchan.sentSince, Dict.mem_entries_set] at hv
          rcases hv with heq | ⟨-, hne⟩
          · exact congrArg some (congrArg Prod.snd heq).symm
          · exact absurd rfl hne
        · cases hp'
          rw [hchan.receivingTasks]
          exact hw.received u info p hreq hrec
    | received u info p p' hreq hnot hreq' hreceiving huploaded hcontent hchan hlog hnative honly =>
        refine hw.move hreq' (hother honly) (fun v time _ hv => hchan.sentSince ▸ hv)
          (fun v _ hv => ?_) (fun time hv => ?_) fun p' hp' hrec => ?_
        · rw [hchan.receivingTasks]
          exact Finset.mem_insert_of_mem hv
        · rw [hchan.sentSince] at hv
          obtain ⟨info', p₀, hp₀, hup⟩ := hw.sent u time hv
          rw [hreq] at hp₀
          cases hp₀
          exact ⟨p', rfl, huploaded.trans hup⟩
        · rw [hchan.receivingTasks]
          exact Finset.mem_insert_self u _
    | ended u info p e receiving ch hreq he hreceiving hbefore hafter hlog hnative honly =>
        obtain ⟨closed, error, wakeup, queue, bytes, history, progress, hsettle⟩ :=
          ch.settle_eq info.packet s.clock e
        have hkept : ∀ v, v ≠ u → v ∈ (s.chan c).receivingTasks → v ∈ receiving := by
          intro v hvu hv
          rcases hreceiving with rfl | ⟨-, rfl⟩
          · exact Finset.mem_erase.mpr ⟨hvu, hv⟩
          · exact hv
        split at hafter
        · rename_i length ch' hfinish
          obtain ⟨-, history', rfl⟩ := Channel.finishRequest_eq_some hfinish
          have hsent : (s'.chan c).sentSince = (s.chan c).sentSince.erase u := by
            rw [hafter.1.sentSince, hsettle]
            exact congrArg (·.erase u) hbefore.sentSince
          refine hw.move hafter.2 (hother honly) (fun v time _ hv => ?_) (fun v hvu hv => ?_)
            (fun time hv => ?_) nofun
          · rw [hsent, Dict.mem_entries_erase] at hv
            exact hv.1
          · rw [hafter.1.receivingTasks, hsettle, show ch.receivingTasks = receiving from
              hbefore.receivingTasks]
            exact hkept v hvu hv
          · rw [hsent, Dict.mem_entries_erase] at hv
            exact absurd rfl hv.2
        · -- a request that is still answered is pending
          rename_i hfinish
          refine absurd ?_ (Channel.finishRequest_eq_none.mp hfinish)
          rw [hsettle, show ch.pending = (s.chan c).pending from hbefore.pending]
          exact hbook.live u info _ hreq trivial
    | closing failure hchan hcode hlog hnative honly =>
        refine hw.keep (fun p hp => ?_) ?_ (hnone honly)
        · rw [hchan.sentSince, Channel.fail.eq_def] at hp
          split_ifs at hp <;> exact hp
        · rw [hchan.receivingTasks, Channel.fail.eq_def]
          split_ifs <;> rfl
    | swept t rest skipped task rest' length ch ch' hsweep hrest hskipped hbefore hfinish hchan
        hlog hnative honly =>
        obtain ⟨-, history, rfl⟩ := Channel.finishRequest_eq_some hfinish
        refine hw.keep (fun p hp => ?_) (hchan.receivingTasks.trans hbefore.receivingTasks)
          (hnone honly)
        rw [hchan.sentSince, Dict.mem_entries_erase, hbefore.sentSince] at hp
        exact hp.1
    | cleared t rest hsweep hskipped hchan hlog hnative honly =>
        refine hw.keep (fun p hp => ?_) hchan.receivingTasks (hnone honly)
        rw [hchan.sentSince] at hp
        cases hp
    | rotated victim packet hchan hlog hnative honly =>
        refine hw.keep (fun p hp => ?_) (hchan.receivingTasks.trans ?_) (hnone honly)
        · have hsent : (s'.chan c).sentSince = (s.chan c).sentSince.erase victim := by
            rw [hchan.sentSince]
            cases packet <;> rfl
          rw [hsent, Dict.mem_entries_erase] at hp
          exact hp.1
        · cases packet <;> rfl
    | dropped item queue hqueue hdrop hchan hlog hnative honly =>
        exact hw.keep (fun p hp => hchan.sentSince ▸ hp) hchan.receivingTasks (hnone honly)
    | wrote t body queue n padding frame hpc hqueue hopen hn hframe hchan hlog hnative honly =>
        exact hw.keep (fun p hp => hchan.sentSince ▸ hp) hchan.receivingTasks (hnone honly)
    | drained t hpc hpc' hchan hlog hnative honly =>
        exact hw.keep (fun p hp => hchan.sentSince ▸ hp) hchan.receivingTasks (hnone honly)
    | wroteError t tasks n code packed padding frame hpc hpc' hcode hpacked hn hframe hchan hlog
        hnative honly =>
        exact hw.keep (fun p hp => hchan.sentSince ▸ hp) hchan.receivingTasks (hnone honly)

/-! ## Packets over time -/

/-- The mark tells of a request that was created. -/
def Mark.Creates : Mark → Prop
  | native _ _ _ => True
  | replay _ _ _ _ => True
  | _ => False

/-- What happens to a packet between sends: tasks other than `v` stay its tasks, and its attempts
are counted anew when a reply is in the marks. -/
structure ReplayPacket.Ages (v : Option ℕ) (marks : List Mark) (a b : ReplayPacket) : Prop where
  body : b.body = a.body
  sequence : b.sequence = a.sequence
  sentAt : b.sentAt = a.sentAt
  lastAttemptAt : b.lastAttemptAt = a.lastAttemptAt
  originals : ∀ u ∈ a.originals, some u ≠ v → u ∈ b.originals
  pending : ∀ u, a.pending = some u → some u ≠ v → b.pending = some u
  attempts : b.attempts = a.attempts ∨
    b.attempts = 0 ∧ ∃ reply, reply ≠ [] ∧ Mark.reply (some a.sequence) reply ∈ marks

lemma ReplayPacket.Ages.refl (v : Option ℕ) (marks : List Mark) (a : ReplayPacket) :
    a.Ages v marks a :=
  ⟨rfl, rfl, rfl, rfl, fun _ hu _ => hu, fun _ hu _ => hu, Or.inl rfl⟩

lemma ReplayPacket.Ages.trans {v : Option ℕ} {marks : List Mark} {a b d : ReplayPacket}
    (h : a.Ages v marks b) (h' : b.Ages v marks d) : a.Ages v marks d where
  body := h'.body.trans h.body
  sequence := h'.sequence.trans h.sequence
  sentAt := h'.sentAt.trans h.sentAt
  lastAttemptAt := h'.lastAttemptAt.trans h.lastAttemptAt
  originals u hu hv := h'.originals u (h.originals u hu hv) hv
  pending u hu hv := h'.pending u (h.pending u hu hv) hv
  attempts := by
    rcases h'.attempts with heq | ⟨hzero, hreply⟩
    · rw [heq]
      exact h.attempts
    · exact Or.inr ⟨hzero, h.sequence ▸ hreply⟩

namespace Channel

/-- What happens to the history between sends. -/
structure Ages (v : Option ℕ) (marks : List Mark) (a b : Channel) : Prop where
  entries : ∀ entry' ∈ b.replayHistory, ∃ entry ∈ a.replayHistory, entry.Ages v marks entry'
  key : b.replayKey = a.replayKey
  requests : b.requests = a.requests

namespace Ages

variable {v : Option ℕ} {marks : List Mark} {a b d : Channel}

lemma trans (h : a.Ages v marks b) (h' : b.Ages v marks d) : a.Ages v marks d where
  entries entry' hentry' := by
    obtain ⟨entry₁, hentry₁, h₁⟩ := h'.entries entry' hentry'
    obtain ⟨entry, hentry, h₂⟩ := h.entries entry₁ hentry₁
    exact ⟨entry, hentry, h₂.trans h₁⟩
  key := h'.key.trans h.key
  requests := h'.requests.trans h.requests

lemma of_eq (hhistory : b.replayHistory = a.replayHistory) (hkey : b.replayKey = a.replayKey)
    (hrequests : b.requests = a.requests) : a.Ages v marks b :=
  ⟨fun entry hentry => ⟨entry, hhistory ▸ hentry, .refl v marks entry⟩, hkey, hrequests⟩

lemma of_same (h : a.Same b) : a.Ages v marks b := of_eq h.replayHistory h.replayKey h.requests

lemma updatePacket (a : Channel) (sequence : ℕ) {f : ReplayPacket → ReplayPacket}
    (hf : ∀ entry : ReplayPacket, entry.sequence = sequence → entry.Ages v marks (f entry)) :
    a.Ages v marks (a.updatePacket sequence f) := by
  refine ⟨fun entry' hentry' => ?_, rfl, rfl⟩
  obtain ⟨entry, hentry, ⟨rfl, -⟩ | ⟨rfl, hsequence⟩⟩ := mem_updatePacket hentry'
  · exact ⟨entry', hentry, .refl v marks entry'⟩
  · exact ⟨entry, hentry, hf entry hsequence⟩

lemma fail (a : Channel) (failure : Failure) : a.Ages v marks (a.fail failure) := by
  rw [Channel.fail.eq_def]
  split_ifs <;> exact of_eq rfl rfl rfl

/-- A reply that is not empty may give the packet of its request new attempts. -/
lemma complete (a : Channel) (packet : Option ℕ) (reply : Bytes) (now : ℤ) :
    a.Ages v (a.complete packet reply now).2 (a.complete packet reply now).1 := by
  have hrecord : ∀ {marks : List Mark} (ch : Channel), reply ≠ [] → .reply packet reply ∈ marks →
      ch.Ages v marks (ch.recordReply packet reply) := by
    intro marks ch hne hmark
    cases packet with
    | none => exact of_eq rfl rfl rfl
    | some sequence =>
        refine updatePacket ch sequence fun entry hsequence => ?_
        split_ifs
        · refine ⟨rfl, rfl, rfl, rfl, fun _ hu _ => hu, fun _ hu _ => hu,
            Or.inr ⟨rfl, reply, hne, ?_⟩⟩
          rw [hsequence]
          exact hmark
        · exact .refl _ _ _
  have hprogress : ∀ {marks : List Mark}, a.Ages v marks { a with lastProgress := now } :=
    of_eq rfl rfl rfl
  rw [Channel.complete_eq]
  dsimp only
  split_ifs with hempty hclosed hfull
  · exact hprogress
  · exact hprogress
  · refine (hprogress.trans (hrecord _ hempty (by simp))).trans ?_
    dsimp only
    exact fail _ _
  · exact (hprogress.trans (hrecord _ hempty (by simp))).trans (of_eq rfl rfl rfl)

lemma settle (a : Channel) (packet : Option ℕ) (now : ℤ) (e : PostEnd) :
    a.Ages v (a.settle packet now e).2 (a.settle packet now e).1 := by
  cases e with
  | returned reply => exact complete a packet reply now
  | raised failure => exact fail a failure
  | cancelled => exact of_eq rfl rfl rfl

lemma rotate (a : Channel) (task : ℕ) (packet : Option ℕ) :
    a.Ages v marks (a.rotate task packet) := by
  cases packet with
  | none => exact of_eq rfl rfl rfl
  | some sequence =>
      have hsent : a.Ages v marks { a with sentSince := a.sentSince.erase task } :=
          of_eq rfl rfl rfl
      exact hsent.trans (updatePacket _ sequence fun _ _ =>
        ⟨rfl, rfl, rfl, rfl, fun _ hu _ => hu, fun _ hu _ => hu, Or.inl rfl⟩)

lemma finishRequest {task length : ℕ} {packet : Option ℕ}
    (h : a.finishRequest task packet = some (length, b)) : a.Ages (some task) marks b := by
  have hhistory := finishRequest_history h
  obtain ⟨-, history, rfl⟩ := finishRequest_eq_some h
  refine ⟨fun entry' hentry' => ?_, rfl, rfl⟩
  rw [hhistory] at hentry'
  obtain ⟨entry, hentry, rfl⟩ := List.mem_map.mp hentry'
  refine ⟨entry, hentry, ?_⟩
  split_ifs
  · refine ⟨rfl, rfl, rfl, rfl, fun u hu hne => ?_, fun u hu hne => ?_, Or.inl rfl⟩
    · exact Finset.mem_erase.mpr ⟨fun heq => hne (congrArg some heq), hu⟩
    · rw [Channel.release, hu, if_neg hne]
  · exact .refl _ _ _

lemma clear (a : Channel) : a.Ages v marks a.clear := ⟨nofun, rfl, rfl⟩

end Ages

end Channel

/-- **Packets and requests.**  A step creates a native request or a replay of the channel, or lets
its packets age. -/
inductive Packing (c : ℕ) (s s' : Sys) : Prop
  | native (body : Bytes) (hopen : (s.chan c).closed = false)
      (hchan : ((s.chan c).registerNative s.nextTask s.clock body s.debug).1.Same (s'.chan c))
      (hreq : s'.req s.nextTask = some (c, ⟨body, false,
        ((s.chan c).registerNative s.nextTask s.clock body s.debug).2⟩, .created))
      (hlog : s'.log c = s.log c ++ [.native s.clock body s.nextTask])
      (honly : Only c (some s.nextTask) s s')
  | replay (entry : ReplayPacket) (hopen : (s.chan c).closed = false)
      (hfind : (s.chan c).findPacket entry.body = some entry) (hpending : entry.pending = none)
      (hdue : (s.chan c).ReplayDue entry s.clock)
      (hchan : ((s.chan c).registerReplay s.nextTask s.clock entry.body s.debug
        entry.sequence).Same (s'.chan c))
      (hreq : s'.req s.nextTask
        = some (c, ⟨entry.body, true, some entry.sequence⟩, .created))
      (hlog : s'.log c
        = s.log c ++ [.replay s.clock entry.sequence entry.body s.nextTask])
      (honly : Only c (some s.nextTask) s s')
  | ages (v : Option ℕ) (marks : List Mark) (hlog : s'.log c = s.log c ++ marks)
      (hmarks : ∀ m ∈ marks, ¬ m.Creates)
      (hages : (s.chan c).Ages v marks (s'.chan c))
      (hreq : ∀ u info pc', s'.req u = some (c, info, pc') →
        ∃ pc, s.req u = some (c, info, pc) ∧ (pc'.Live → pc.Live))
      (hv : ∀ u info pc, v = some u → s'.req u = some (c, info, pc) → ¬ pc.Live)

lemma not_creates_settle (ch : Channel) (packet : Option ℕ) (now : ℤ) (e : PostEnd) :
    ∀ m ∈ (ch.settle packet now e).2, ¬ m.Creates := by
  cases e with
  | returned reply =>
      show ∀ m ∈ (ch.complete packet reply now).2, ¬ m.Creates
      rw [Channel.complete.eq_def]
      dsimp only
      split_ifs <;> simp [Mark.Creates]
  | raised failure => simp [Channel.settle, Mark.Creates]
  | cancelled => simp [Channel.settle]

theorem Reaches.packing {E : AesKeystream} {s s' : Sys} {e : Event} (h : Reaches E s)
    (hs : step E e s = some s') (c : ℕ) : Packing c s s' := by
  have hnone : Only c none s s' → ∀ u info pc', s'.req u = some (c, info, pc') →
      ∃ pc, s.req u = some (c, info, pc) ∧ (pc'.Live → pc.Live) := by
    intro honly u info pc' hu
    exact ⟨pc', (honly.req u (by simp)).symm.trans hu, id⟩
  have hsome : ∀ {u info pc pc'}, Only c (some u) s s' → s.req u = some (c, info, pc) →
      s'.req u = some (c, info, pc') → (pc'.Live → pc.Live) →
      ∀ v info pc', s'.req v = some (c, info, pc') →
        ∃ pc, s.req v = some (c, info, pc) ∧ (pc'.Live → pc.Live) := by
    intro u info pc pc' honly hreq hreq' hlive v info' pc₁ hv
    by_cases hvu : v = u
    · subst hvu
      rw [hreq'] at hv
      cases hv
      exact ⟨pc, hreq, hlive⟩
    · exact ⟨pc₁, (honly.req v (by simpa using hvu)).symm.trans hv, id⟩
  have hnobody : ∀ u info pc, (none : Option ℕ) = some u → s'.req u = some (c, info, pc) →
      ¬ pc.Live := fun _ _ _ hu => nomatch hu
  have hnil : s'.log = s.log → s'.log c = s.log c ++ [] := fun hlog => by
    rw [hlog, List.append_nil]
  have hsilent : (s.chan c).Ages none [] (s'.chan c) → s'.log = s.log → Only c none s s' →
      Packing c s s' := fun hages hlog honly =>
    .ages none [] (hnil hlog) nofun hages (hnone honly) hnobody
  rcases stays_or_on h.formed.toAllocated (h.move hs) c with hst | hmv
  · exact .ages none [] (by rw [hst.log, List.append_nil]) nofun (.of_same hst.chan)
      (fun u info pc' hu => ⟨pc', (hst.req u info pc').mp hu, id⟩) hnobody
  cases hmv with
  | opened hc hchan hlog hnative honly =>
      have hfresh := h.formed.chan c hc.ge
      rw [← hfresh] at hchan
      exact hsilent (.of_same hchan) hlog honly
  | bridged tag cltEnc hnone' hnative hchan hlog honly =>
      exact hsilent (.of_same hchan) hlog honly
  | native t caller body pc hpc hadm hleft hfree hopen hchan hreq hlog hnative hnext honly =>
      exact .native body hopen hchan hreq hlog honly
  | replay t entry pc hpc hadm hleft hfree hopen hfind hpending hdue hchan hreq hlog hnative
      hnext honly =>
      exact .replay entry hopen hfind hpending hdue hchan hreq hlog honly
  | advance u info pc pc' hcalm hreq hreq' hchan hlog hnative honly =>
      exact .ages none [] (hnil hlog) nofun (.of_same hchan)
          (hsome honly hreq hreq' hcalm.live) hnobody
  | uploaded u info p hreq hnone' hreq' hchan hlog hnative honly =>
      exact .ages none [] (hnil hlog) nofun (.of_eq hchan.replayHistory hchan.replayKey
          hchan.requests)
        (hsome honly hreq hreq' id) hnobody
  | received u info p p' hreq hnot hreq' hreceiving huploaded hcontent hchan hlog hnative honly =>
      exact .ages none [] (hnil hlog) nofun (.of_eq hchan.replayHistory hchan.replayKey
          hchan.requests)
        (hsome honly hreq hreq' id) hnobody
  | ended u info p e receiving ch hreq he hreceiving hbefore hafter hlog hnative honly =>
      have hsettle : (s.chan c).Ages (some u) (ch.settle info.packet s.clock e).2
          (ch.settle info.packet s.clock e).1 := by
        refine .trans (.of_eq ?_ ?_ ?_) (.settle ch info.packet s.clock e)
        · exact hbefore.replayHistory
        · exact hbefore.replayKey
        · exact hbefore.requests
      have hmarks := not_creates_settle ch info.packet s.clock e
      have hdead : ∀ {pc' : RequestPc}, ¬ pc'.Live → s'.req u = some (c, info, pc') →
          ∀ v info pc, some u = some v → s'.req v = some (c, info, pc) → ¬ pc.Live := by
        rintro pc' hdead hreq' v info' pc hv hpc
        obtain rfl := Option.some.inj hv
        rw [hreq'] at hpc
        cases hpc
        exact hdead
      split at hafter
      · rename_i length ch' hfinish
        exact .ages (some u) _ hlog hmarks
          ((hsettle.trans (.finishRequest hfinish)).trans (.of_same hafter.1))
          (hsome honly hreq hafter.2 nofun) (hdead id hafter.2)
      · exact .ages (some u) _ hlog hmarks (hsettle.trans (.of_same hafter.1))
          (hsome honly hreq hafter.2 nofun) (hdead id hafter.2)
  | closing failure hchan hcode hlog hnative honly =>
      refine .ages none [.failed failure] hlog (by simp [Mark.Creates]) ?_ (hnone honly) hnobody
      exact (Channel.Ages.fail _ failure).trans
        (.of_eq hchan.replayHistory hchan.replayKey hchan.requests)
  | swept t rest skipped task rest' length ch ch' hsweep hrest hskipped hbefore hfinish hchan
      hlog hnative honly =>
      refine .ages (some task) [] (hnil hlog) nofun
        ((Channel.Ages.of_same hbefore).trans ((Channel.Ages.finishRequest hfinish).trans
          (.of_same hchan))) (hnone honly) ?_
      rintro u info pc heq hu
      obtain rfl := Option.some.inj heq
      have hpending : task ∈ (s.chan c).pending.keys := by
        have hget := (Channel.finishRequest_eq_some hfinish).1
        rw [Dict.get?_eq_some, hbefore.pending] at hget
        exact Dict.mem_keys_of_mem hget
      obtain ⟨-, -, info', hended⟩ := h.swept_ended hsweep hpending
      rw [honly.req task (by simp), hended] at hu
      cases hu
      exact id
  | cleared t rest hsweep hskipped hchan hlog hnative honly =>
      exact hsilent ((Channel.Ages.clear _).trans (.of_same hchan)) hlog honly
  | rotated victim packet hchan hlog hnative honly =>
      exact hsilent ((Channel.Ages.rotate _ victim packet).trans (.of_same hchan)) hlog honly
  | dropped item queue hqueue hdrop hchan hlog hnative honly =>
      exact hsilent (.of_eq hchan.replayHistory hchan.replayKey hchan.requests) hlog honly
  | wrote t body queue n padding frame hpc hqueue hopen hn hframe hchan hlog hnative honly =>
      refine .ages none _ hlog (by simp [Mark.Creates]) ?_ (hnone honly) hnobody
      exact .of_eq hchan.replayHistory hchan.replayKey hchan.requests
  | drained t hpc hpc' hchan hlog hnative honly =>
      exact hsilent (.of_eq hchan.replayHistory hchan.replayKey hchan.requests) hlog honly
  | wroteError t tasks n code packed padding frame hpc hpc' hcode hpacked hn hframe hchan hlog
      hnative honly =>
      exact .ages none _ hlog (by simp [Mark.Creates]) (.of_same hchan) (hnone honly) hnobody

/-! ## Entering a request -/

namespace Channel

/-- A number belongs to one packet. -/
lemma Ordered.unique {ch : Channel} (h : ch.Ordered) {a b : ReplayPacket}
    (ha : a ∈ ch.replayHistory) (hb : b ∈ ch.replayHistory) (heq : a.sequence = b.sequence) :
    a = b := by
  have hnodup := h.ascending.imp Nat.ne_of_lt
  rw [carried, List.map_map] at hnodup
  exact List.inj_on_of_nodup_map hnodup ha hb heq

lemma mem_trimHistory {ch : Channel} {now : ℤ} {entry : ReplayPacket}
    (h : entry ∈ (ch.trimHistory now).replayHistory) : entry ∈ ch.replayHistory := by
  obtain ⟨n, -, htrims⟩ := trims_trimList now ch.replayHistory
  exact htrims.sublist.subset h

lemma carry_ages (v : Option ℕ) (marks : List Mark) (task : ℕ) (entry : ReplayPacket) :
    entry.Ages v marks (carry task entry) :=
  ⟨rfl, rfl, rfl, rfl, fun _ hu _ => Finset.mem_insert_of_mem hu, fun _ hu _ => hu, Or.inl rfl⟩

/-- A packet as it comes into the history. -/
structure Fresh (ch : Channel) (now : ℤ) (body : Bytes) (entry : ReplayPacket) : Prop where
  sequence : entry.sequence = ch.requests + 1
  body : entry.body = body
  sentAt : entry.sentAt = now
  attempts : entry.attempts = 0
  lastAttemptAt : entry.lastAttemptAt = 0
  pending : entry.pending = none

/-- The packet that a native request carries is encrypted, and it is the one of its number. -/
lemma Remembers.packet {ch second : Channel} {body : Bytes} {now : ℤ} {q : ℕ}
    (h : Remembers ch body now second (some q)) (hordered : ch.Ordered)
    (hlast : ∀ p ∈ ch.carried, p.2 < ch.requests) :
    body.take 8 ≠ plainKey ∧ q ≤ ch.requests ∧
      ∀ entry ∈ second.replayHistory, entry.sequence = q → entry.body = body := by
  have hsequence : ∀ entry ∈ ch.replayHistory, entry.sequence < ch.requests := fun entry hentry =>
    hlast (entry.body, entry.sequence) (List.mem_map_of_mem hentry)
  cases h with
  | again kept entry hkey hkept hentry hbody =>
      have hmem := mem_of_kept hkept hentry
      refine ⟨hkey, (hsequence entry hmem).le, fun entry' hentry' heq => ?_⟩
      rw [hordered.unique (mem_of_kept hkept hentry') hmem heq, hbody]
  | fresh kept hkey hkept hfits hnew =>
      refine ⟨hkey, le_rfl, fun entry' hentry' heq => ?_⟩
      rcases List.mem_append.mp hentry' with hentry' | hentry'
      · have hlt := hsequence entry' (mem_of_kept hkept hentry')
        exact absurd heq hlt.ne
      · rw [List.mem_singleton.mp hentry']

/-- **A native request is entered.**  The packets that stay have aged, and at most one is new; the
packet of the request has its body, and the task among its originals. -/
lemma registerNative_entries {ch : Channel} (h : ch.Ordered) (task : ℕ) (now : ℤ) (body : Bytes)
    (debug : Bool) :
    (∀ entry' ∈ (ch.registerNative task now body debug).1.replayHistory,
      (∃ entry ∈ ch.replayHistory, entry.Ages none [] entry') ∨ Fresh ch now body entry') ∧
    (∀ q, (ch.registerNative task now body debug).2 = some q →
      body.take 8 ≠ plainKey ∧ q ≤ ch.requests + 1 ∧
      ∀ entry' ∈ (ch.registerNative task now body debug).1.replayHistory, entry'.sequence = q →
        entry'.body = body ∧ task ∈ entry'.originals) ∧
    (ch.registerNative task now body debug).1.requests = ch.requests + 1 := by
  obtain ⟨first, second, third, packet, hkept, hsame, hcount, hcases, hhistory, hkey, hrequests,
    hpacket, hmatch⟩ := registerNative_parts ch task now body debug
  have hthin : ch.Thins first := by
    refine ⟨?_, hsame, hcount ▸ Nat.le_succ _⟩
    rw [carried, carried, hkept]
  have hlast : ∀ p ∈ first.carried, p.2 < first.requests := by
    intro p hp
    rw [hcount]
    exact Nat.lt_succ_of_le (h.numbered p (hthin.carried.subset hp))
  have hentries : ∀ entry ∈ third.replayHistory,
      (∃ old ∈ ch.replayHistory, old.Ages none [] entry) ∨ Fresh ch now body entry := by
    intro entry hentry
    rw [hhistory] at hentry
    rcases hcases.entries hentry with hold | rfl
    · exact Or.inl ⟨entry, hkept ▸ hold, .refl _ _ entry⟩
    · exact Or.inr ⟨hcount, rfl, rfl, rfl, rfl, rfl⟩
  have hcarry : ∀ entry, ((∃ old ∈ ch.replayHistory, old.Ages none [] entry) ∨
      Fresh ch now body entry) → (∃ old ∈ ch.replayHistory, old.Ages none [] (carry task entry)) ∨
        Fresh ch now body (carry task entry) := by
    rintro entry (⟨old, hold, hages⟩ | hfresh)
    · exact Or.inl ⟨old, hold, hages.trans (carry_ages _ _ task entry)⟩
    · exact Or.inr ⟨hfresh.sequence, hfresh.body, hfresh.sentAt, hfresh.attempts,
        hfresh.lastAttemptAt, hfresh.pending⟩
  rw [hpacket, hmatch]
  have hsum : (ch.registerNative task now body debug).1.requests = ch.requests + 1 := by
    obtain ⟨key, history, traces, heq⟩ := ch.registerNative_eq task now body debug
    rw [heq]
  rw [hmatch] at hsum
  cases packet with
  | none => exact ⟨hentries, by rintro _ ⟨⟩, hsum⟩
  | some sequence =>
      refine ⟨fun entry' hentry' => ?_, ?_, hsum⟩
      · obtain ⟨old, hold, ⟨rfl, -⟩ | ⟨rfl, -⟩⟩ := mem_updatePacket (mem_trimHistory hentry')
        · exact hentries entry' hold
        · exact hcarry old (hentries old hold)
      · rintro _ ⟨⟩
        obtain ⟨hplain, hle, hbody⟩ := hcases.packet (h.thin hthin) hlast
        refine ⟨hplain, hcount ▸ hle, fun entry' hentry' hsequence => ?_⟩
        obtain ⟨old, hold, ⟨rfl, hne⟩ | ⟨rfl, heq⟩⟩ := mem_updatePacket (mem_trimHistory hentry')
        · exact absurd hsequence hne
        · exact ⟨hbody old (hhistory ▸ hold) heq, Finset.mem_insert_self _ _⟩

end Channel

/-! ## What a request and its packet have in common -/

/-- A request carries a packet, and while the history holds that packet it has the request's body;
while the request may still be answered, the packet has its task. -/
structure Carries (s : Sys) (c : ℕ) : Prop where
  numbered : ∀ u info pc q, s.req u = some (c, info, pc) → info.packet = some q →
    q ≤ (s.chan c).requests
  encrypted : ∀ u info pc, s.req u = some (c, info, pc) → info.packet ≠ none →
    info.body.take 8 ≠ Channel.plainKey
  body : ∀ u info pc, s.req u = some (c, info, pc) → ∀ entry ∈ (s.chan c).replayHistory,
    info.packet = some entry.sequence → entry.body = info.body
  original : ∀ u info pc, s.req u = some (c, info, pc) → pc.Live → info.replay = false →
    ∀ entry ∈ (s.chan c).replayHistory, info.packet = some entry.sequence → u ∈ entry.originals
  probe : ∀ u info pc, s.req u = some (c, info, pc) → pc.Live → info.replay = true →
    ∀ entry ∈ (s.chan c).replayHistory, info.packet = some entry.sequence → entry.pending = some u
  budget : ∀ entry ∈ (s.chan c).replayHistory, entry.attempts ≤ replayMaxAttempts

theorem Reaches.carries {E : AesKeystream} {s : Sys} (h : Reaches E s) (c : ℕ) : Carries s c := by
  refine h.invariant (P := fun s => ∀ c, Carries s c) ?_ ?_ c
  · rintro s ⟨clock, debug, -, rfl⟩ c
    exact ⟨nofun, nofun, nofun, nofun, nofun, nofun⟩
  · intro s e s' hr hall _ hs c
    have hc := hall c
    have hordered := (Reaches.recorded hr c).remembered.toOrdered
    have hback : ∀ {task info₀}, s'.req task = some (c, info₀, .created) →
        Only c (some task) s s' → ∀ u info pc, s'.req u = some (c, info, pc) →
        u = task ∧ info = info₀ ∨ u ≠ task ∧ s.req u = some (c, info, pc) := by
      intro task info₀ hreq honly u info pc hu
      by_cases hut : u = task
      · subst hut
        rw [hreq] at hu
        cases hu
        exact Or.inl ⟨rfl, rfl⟩
      · exact Or.inr ⟨hut, (honly.req u (by simpa using hut)).symm.trans hu⟩
    cases Reaches.packing hr hs c with
    | ages v marks hlog hmarks hages hreq hv =>
        refine ⟨?_, ?_, ?_, ?_, ?_, ?_⟩
        · intro u info pc q hu hq
          obtain ⟨pc₀, hu₀, -⟩ := hreq u info pc hu
          rw [hages.requests]
          exact hc.numbered u info pc₀ q hu₀ hq
        · intro u info pc hu hpacket
          obtain ⟨pc₀, hu₀, -⟩ := hreq u info pc hu
          exact hc.encrypted u info pc₀ hu₀ hpacket
        · intro u info pc hu entry' hentry' hpacket
          obtain ⟨pc₀, hu₀, -⟩ := hreq u info pc hu
          obtain ⟨entry, hentry, haged⟩ := hages.entries entry' hentry'
          rw [haged.body]
          exact hc.body u info pc₀ hu₀ entry hentry (haged.sequence ▸ hpacket)
        · intro u info pc hu hlive hreplay entry' hentry' hpacket
          obtain ⟨pc₀, hu₀, hlive₀⟩ := hreq u info pc hu
          obtain ⟨entry, hentry, haged⟩ := hages.entries entry' hentry'
          exact haged.originals u (hc.original u info pc₀ hu₀ (hlive₀ hlive) hreplay entry hentry
            (haged.sequence ▸ hpacket)) fun heq => hv u info pc heq.symm hu hlive
        · intro u info pc hu hlive hreplay entry' hentry' hpacket
          obtain ⟨pc₀, hu₀, hlive₀⟩ := hreq u info pc hu
          obtain ⟨entry, hentry, haged⟩ := hages.entries entry' hentry'
          exact haged.pending u (hc.probe u info pc₀ hu₀ (hlive₀ hlive) hreplay entry hentry
            (haged.sequence ▸ hpacket)) fun heq => hv u info pc heq.symm hu hlive
        · intro entry' hentry'
          obtain ⟨entry, hentry, haged⟩ := hages.entries entry' hentry'
          rcases haged.attempts with heq | ⟨hzero, -⟩
          · rw [heq]
            exact hc.budget entry hentry
          · rw [hzero]
            exact Nat.zero_le _
    | native body hopen hchan hreq hlog honly =>
        obtain ⟨hentries, hpacket, hrequests⟩ := Channel.registerNative_entries hordered s.nextTask
          s.clock body s.debug
        rw [← hchan.replayHistory] at hentries hpacket
        have hold : ∀ u info pc, s.req u = some (c, info, pc) →
            ∀ entry' ∈ (s'.chan c).replayHistory,
            info.packet = some entry'.sequence →
            ∃ entry ∈ (s.chan c).replayHistory, entry.Ages none [] entry' := by
          intro u info pc hu entry' hentry' hq
          refine (hentries entry' hentry').resolve_right fun hfresh => ?_
          have hle := hc.numbered u info pc _ hu hq
          rw [hfresh.sequence] at hle
          omega
        refine ⟨?_, ?_, ?_, ?_, ?_, ?_⟩
        · intro u info pc q hu hq
          rw [hchan.requests, hrequests]
          rcases hback hreq honly u info pc hu with ⟨-, rfl⟩ | ⟨-, hu⟩
          · exact (hpacket q hq).2.1
          · exact (hc.numbered u info pc q hu hq).trans (Nat.le_succ _)
        · intro u info pc hu hne
          rcases hback hreq honly u info pc hu with ⟨-, rfl⟩ | ⟨-, hu⟩
          · obtain ⟨q, hq⟩ := Option.ne_none_iff_exists'.mp hne
            exact (hpacket q hq).1
          · exact hc.encrypted u info pc hu hne
        · intro u info pc hu entry' hentry' hq
          rcases hback hreq honly u info pc hu with ⟨-, rfl⟩ | ⟨-, hu⟩
          · exact ((hpacket _ hq).2.2 entry' hentry' rfl).1
          · obtain ⟨entry, hentry, haged⟩ := hold u info pc hu entry' hentry' hq
            rw [haged.body]
            exact hc.body u info pc hu entry hentry (haged.sequence ▸ hq)
        · intro u info pc hu hlive hreplay entry' hentry' hq
          rcases hback hreq honly u info pc hu with ⟨rfl, rfl⟩ | ⟨-, hu⟩
          · exact ((hpacket _ hq).2.2 entry' hentry' rfl).2
          · obtain ⟨entry, hentry, haged⟩ := hold u info pc hu entry' hentry' hq
            exact haged.originals u (hc.original u info pc hu hlive hreplay entry hentry
              (haged.sequence ▸ hq)) nofun
        · intro u info pc hu hlive hreplay entry' hentry' hq
          rcases hback hreq honly u info pc hu with ⟨-, rfl⟩ | ⟨-, hu⟩
          · cases hreplay
          · obtain ⟨entry, hentry, haged⟩ := hold u info pc hu entry' hentry' hq
            exact haged.pending u (hc.probe u info pc hu hlive hreplay entry hentry
              (haged.sequence ▸ hq)) nofun
        · intro entry' hentry'
          rcases hentries entry' hentry' with ⟨entry, hentry, haged⟩ | hfresh
          · rcases haged.attempts with heq | ⟨hzero, -⟩
            · rw [heq]
              exact hc.budget entry hentry
            · rw [hzero]
              exact Nat.zero_le _
          · rw [hfresh.attempts]
            exact Nat.zero_le _
    | replay packet hopen hfind hpending hdue hchan hreq hlog honly =>
        have hmem : packet ∈ (s.chan c).replayHistory := List.mem_of_find?_eq_some hfind
        obtain ⟨-, hattempts, -⟩ := hdue.spec
        -- the packet changes its attempts and its replay, and the others stay
        have hentries : ∀ entry' ∈ (s'.chan c).replayHistory, ∃ entry ∈ (s.chan c).replayHistory,
            entry'.body = entry.body ∧ entry'.sequence = entry.sequence ∧
            entry'.originals = entry.originals ∧
            (entry = packet ∧ entry'.pending = some s.nextTask ∧
                entry'.attempts = packet.attempts + 1 ∨
              entry.sequence ≠ packet.sequence ∧ entry' = entry) := by
          intro entry' hentry'
          rw [hchan.replayHistory] at hentry'
          obtain ⟨entry, hentry, ⟨rfl, hne⟩ | ⟨rfl, heq⟩⟩ := Channel.mem_updatePacket hentry'
          · exact ⟨entry', hentry, rfl, rfl, rfl, Or.inr ⟨hne, rfl⟩⟩
          · obtain rfl := hordered.unique hentry hmem heq
            exact ⟨entry, hentry, rfl, rfl, rfl, Or.inl ⟨rfl, rfl, rfl⟩⟩
        have hrequests : (s'.chan c).requests = (s.chan c).requests + 1 := hchan.requests
        refine ⟨?_, ?_, ?_, ?_, ?_, ?_⟩
        · intro u info pc q hu hq
          rw [hrequests]
          rcases hback hreq honly u info pc hu with ⟨-, rfl⟩ | ⟨-, hu⟩
          · obtain rfl := Option.some.inj hq
            exact (hordered.numbered _ (List.mem_map_of_mem hmem)).trans (Nat.le_succ _)
          · exact (hc.numbered u info pc q hu hq).trans (Nat.le_succ _)
        · intro u info pc hu hne
          rcases hback hreq honly u info pc hu with ⟨-, rfl⟩ | ⟨-, hu⟩
          · exact hordered.encrypted _ (hordered.keyed _ (List.mem_map_of_mem hmem))
          · exact hc.encrypted u info pc hu hne
        · intro u info pc hu entry' hentry' hq
          obtain ⟨entry, hentry, hbody, hsequence, -⟩ := hentries entry' hentry'
          rw [hsequence] at hq
          rw [hbody]
          rcases hback hreq honly u info pc hu with ⟨-, rfl⟩ | ⟨-, hu⟩
          · rw [hordered.unique hentry hmem (Option.some.inj hq).symm]
          · exact hc.body u info pc hu entry hentry hq
        · intro u info pc hu hlive hreplay entry' hentry' hq
          obtain ⟨entry, hentry, -, hsequence, horiginals, -⟩ := hentries entry' hentry'
          rw [hsequence] at hq
          rw [horiginals]
          rcases hback hreq honly u info pc hu with ⟨-, rfl⟩ | ⟨-, hu⟩
          · cases hreplay
          · exact hc.original u info pc hu hlive hreplay entry hentry hq
        · intro u info pc hu hlive hreplay entry' hentry' hq
          obtain ⟨entry, hentry, -, hsequence, -, hcase⟩ := hentries entry' hentry'
          rw [hsequence] at hq
          rcases hback hreq honly u info pc hu with ⟨rfl, rfl⟩ | ⟨-, hu⟩
          · rcases hcase with ⟨-, hself, -⟩ | ⟨hne, -⟩
            · exact hself
            · exact absurd (Option.some.inj hq).symm hne
          · have hprobe := hc.probe u info pc hu hlive hreplay entry hentry hq
            rcases hcase with ⟨rfl, -, -⟩ | ⟨-, rfl⟩
            · rw [hpending] at hprobe
              cases hprobe
            · exact hprobe
        · intro entry' hentry'
          obtain ⟨entry, hentry, -, -, -, hcase⟩ := hentries entry' hentry'
          rcases hcase with ⟨-, -, hcount⟩ | ⟨-, rfl⟩
          · rw [hcount]
            exact Nat.succ_le_of_lt (hattempts.trans_le (Channel.replayLimit_le _ _))
          · exact hc.budget entry' hentry

end TgWsProxy
