import TgWsProxy.H2.Lane.Runs

/-!
# Pending requests

What a channel has pending agrees with where the tasks are.

* `RequestPc.Unsettled`, `RequestPc.Live` — how far a request has come.
* `Listed` — a pending task is a request that nobody has finished yet.
* `Reaches.listed` — it holds along every run.
-/

namespace TgWsProxy

open Wire

/-! ## Positions of a request -/

namespace RequestPc

/-- `_finish_request` has not been entered by the task itself. -/
def Unsettled : RequestPc → Prop
  | created => True
  | posting _ => True
  | finished => True
  | _ => False

/-- The request may still be answered. -/
def Live : RequestPc → Prop
  | created => True
  | posting _ => True
  | _ => False

end RequestPc

lemma Calm.unsettled {pc pc' : RequestPc} (h : Calm pc pc') (hu : pc.Unsettled) :
    pc'.Unsettled := by
  cases h <;> trivial

lemma Calm.live {pc pc' : RequestPc} (h : Calm pc pc') (hl : pc'.Live) : pc.Live := by
  cases h <;> trivial

/-! ## Pending tasks -/

/-- A pending task is a request of the channel, and its length is that of the body. -/
def Listed (s : Sys) (c : ℕ) : Prop :=
  ∀ u n, (u, n) ∈ (s.chan c).pending.entries →
    ∃ info pc, s.req u = some (c, info, pc) ∧ pc.Unsettled ∧ n = info.body.length

/-- Pending tasks stay, as long as their requests do. -/
lemma Listed.keep {s s' : Sys} {c : ℕ} (h : Listed s c)
    (hsub : ∀ p ∈ (s'.chan c).pending.entries, p ∈ (s.chan c).pending.entries)
    (hreq : ∀ u n, (u, n) ∈ (s'.chan c).pending.entries → s'.req u = s.req u) : Listed s' c := by
  intro u n hu
  obtain ⟨info, pc, hpc⟩ := h u n (hsub _ hu)
  exact ⟨info, pc, by rw [hreq u n hu]; exact hpc⟩

lemma Listed.create {s s' : Sys} {c n : ℕ} {info : Request} (h : Listed s c)
    (hpending : (s'.chan c).pending = (s.chan c).pending.set s.nextTask n)
    (hn : n = info.body.length) (hreq : s'.req s.nextTask = some (c, info, .created))
    (honly : Only c (some s.nextTask) s s') : Listed s' c := by
  intro u m hu
  rw [hpending, Dict.mem_entries_set] at hu
  rcases hu with heq | ⟨hu, hne⟩
  · cases heq
    exact ⟨info, .created, hreq, trivial, hn⟩
  · rw [honly.req u (by simpa using hne)]
    exact h u m hu

/-- A request moves on, and its task stays pending. -/
lemma Listed.move {s s' : Sys} {c u : ℕ} {info : Request} {pc pc' : RequestPc} (h : Listed s c)
    (hpending : (s'.chan c).pending = (s.chan c).pending) (hreq : s.req u = some (c, info, pc))
    (hreq' : s'.req u = some (c, info, pc')) (hpc : pc.Unsettled → pc'.Unsettled)
    (honly : Only c (some u) s s') : Listed s' c := by
  intro v n hv
  rw [hpending] at hv
  obtain ⟨info', pc'', hv', hun, hn⟩ := h v n hv
  by_cases hvu : v = u
  · subst hvu
    obtain ⟨-, rfl, rfl⟩ : c = c ∧ info = info' ∧ pc = pc'' := by simpa using hreq.symm.trans hv'
    exact ⟨info, pc', hreq', hpc hun, hn⟩
  · rw [honly.req v (by simpa using hvu)]
    exact ⟨info', pc'', hv', hun, hn⟩

theorem Reaches.listed {E : AesKeystream} {s : Sys} (h : Reaches E s) (c : ℕ) : Listed s c := by
  refine h.channel (P := Listed) ?_ ?_ ?_ c
  · rintro _ c ⟨clock, debug, -, rfl⟩ u n hu
    cases hu
  · intro s s' c hst hl u n hu
    rw [hst.chan.pending] at hu
    obtain ⟨info, pc, hpc, hrest⟩ := hl u n hu
    exact ⟨info, pc, (hst.req u info pc).mpr hpc, hrest⟩
  · intro s e s' c hr hs hl hmv
    have hsame : ∀ {ch : Channel}, ch.pending = (s.chan c).pending → ch.Same (s'.chan c) →
        ∀ p ∈ (s'.chan c).pending.entries, p ∈ (s.chan c).pending.entries := fun hch hchan p hp =>
      hch ▸ hchan.pending ▸ hp
    have hnone : Only c none s s' → ∀ u n, (u, n) ∈ (s'.chan c).pending.entries →
        s'.req u = s.req u := fun honly u _ _ => honly.req u (by simp)
    cases hmv with
    | opened hc hchan hlog hnative honly =>
        intro u n hu
        rw [hchan.pending] at hu
        cases hu
    | bridged tag cltEnc hnone' hnative hchan hlog honly =>
        exact hl.keep (hsame rfl hchan) (hnone honly)
    | native t caller body pc hpc hadm hleft hfree hopen hchan hreq hlog hnative hnext honly =>
        obtain ⟨key, history, traces, heq⟩ :=
          (s.chan c).registerNative_eq s.nextTask s.clock body s.debug
        exact hl.create (by rw [hchan.pending, heq]) rfl hreq honly
    | replay t entry pc hpc hadm hleft hfree hopen hfind hpending hdue hchan hreq hlog hnative
        hnext honly =>
        exact hl.create hchan.pending rfl hreq honly
    | advance u info pc pc' hcalm hreq hreq' hchan hlog hnative honly =>
        exact hl.move hchan.pending hreq hreq' hcalm.unsettled honly
    | uploaded u info p hreq hnone hreq' hchan hlog hnative honly =>
        exact hl.move hchan.pending hreq hreq' (fun _ => trivial) honly
    | received u info p p' hreq hnot hreq' hreceiving huploaded hcontent hchan hlog hnative honly =>
        exact hl.move hchan.pending hreq hreq' (fun _ => trivial) honly
    | ended u info p e receiving ch hreq he hreceiving hbefore hafter hlog hnative honly =>
        obtain ⟨closed, error, wakeup, queue, bytes, history, progress, hsettle⟩ :=
          ch.settle_eq info.packet s.clock e
        have hpending : (ch.settle info.packet s.clock e).1.pending = (s.chan c).pending := by
          rw [hsettle]
          exact hbefore.pending
        split at hafter
        · rename_i length ch' hfinish
          obtain ⟨-, history, rfl⟩ := Channel.finishRequest_eq_some hfinish
          have herase : (s'.chan c).pending = (s.chan c).pending.erase u := by
            rw [hafter.1.pending, ← hpending]
          refine hl.keep (fun q hq => ?_) fun v n hv => honly.req v ?_
          · rw [herase, Dict.mem_entries_erase] at hq
            exact hq.1
          · rw [herase, Dict.mem_entries_erase] at hv
            simpa using hv.2
        · rename_i hfinish
          have hnot := Channel.finishRequest_eq_none.mp hfinish
          have hkeep : (s'.chan c).pending = (s.chan c).pending := by
            rw [hafter.1.pending, hpending]
          refine hl.keep (fun q hq => hkeep ▸ hq) fun v n hv => honly.req v ?_
          rw [hkeep, ← hpending] at hv
          rintro heq
          cases heq
          exact hnot (Dict.mem_keys_of_mem hv)
    | closing failure hchan hcode hlog hnative honly =>
        refine hl.keep (hsame ?_ hchan) (hnone honly)
        unfold Channel.fail
        split_ifs <;> rfl
    | swept t rest skipped task rest' length ch ch' hsweep hrest hskipped hbefore hfinish hchan
        hlog hnative honly =>
        obtain ⟨-, history, rfl⟩ := Channel.finishRequest_eq_some hfinish
        refine hl.keep (fun p hp => ?_) (hnone honly)
        rw [hchan.pending, Dict.mem_entries_erase, hbefore.pending] at hp
        exact hp.1
    | cleared t rest hsweep hskipped hchan hlog hnative honly =>
        exact hl.keep (hsame (by rfl) hchan) (hnone honly)
    | rotated victim packet hchan hlog hnative honly =>
        exact hl.keep (hsame (by cases packet <;> rfl) hchan) (hnone honly)
    | dropped item queue hqueue hdrop hchan hlog hnative honly =>
        exact hl.keep (hsame (by rfl) hchan) (hnone honly)
    | wrote t body queue n padding frame hpc hqueue hopen hn hframe hchan hlog hnative honly =>
        exact hl.keep (hsame (by rfl) hchan) (hnone honly)
    | drained t hpc hpc' hchan hlog hnative honly =>
        exact hl.keep (hsame (by rfl) hchan) (hnone honly)
    | wroteError t tasks n code packed padding frame hpc hpc' hcode hpacked hn hframe hchan hlog
        hnative honly =>
        exact hl.keep (hsame (by rfl) hchan) (hnone honly)

end TgWsProxy
