import TgWsProxy.H2.Lane.Next
import TgWsProxy.H2.Lane.Requests

/-!
# What `close` has left to do

Between its awaits `close` knows which tasks may still be pending: at first those it has cancelled,
and once they have all ended, the rest of its list.

* `Ended` — a task that will not do anything any more.
* `ClosePc.Covers` — what a position of `close` says about the tasks that are pending.
* `Subsides` — a closed channel takes no new tasks.
* `Reaches.covers` — every `close` covers what is pending, along every run.
-/

namespace TgWsProxy

open Wire

/-- The task is a request of the channel, and it has ended. -/
def Ended (s : Sys) (c u : ℕ) : Prop := ∃ info, s.req u = some (c, info, .finished)

/-- Nothing is pending but what is in the list, and that has ended. -/
def Leaves (s : Sys) (c : ℕ) (rest : List ℕ) : Prop :=
  (s.chan c).closed = true ∧ ∀ u ∈ (s.chan c).pending.keys, u ∈ rest ∧ Ended s c u

/-- What the position of `close` says about the tasks that are pending. -/
def ClosePc.Covers (s : Sys) (c : ℕ) : ClosePc → Prop
  | closeLock => True
  | gathering tasks => (s.chan c).closed = true ∧ ∀ u ∈ (s.chan c).pending.keys, u ∈ tasks
  | releasing _ rest => Leaves s c rest
  | notifying rest => Leaves s c rest

/-! ## A closed channel -/

/-- Where the channel is closed, no task comes in, and what has ended or is done stays so. -/
structure Subsides (c : ℕ) (s s' : Sys) : Prop where
  closed : (s.chan c).closed = true → (s'.chan c).closed = true
  done : (s.chan c).closeDone = true → (s'.chan c).closeDone = true
  pending : (s.chan c).closed = true → ∀ u ∈ (s'.chan c).pending.keys, u ∈ (s.chan c).pending.keys
  ended : ∀ u, Ended s c u → Ended s' c u

lemma Stays.subsides {c : ℕ} {s s' : Sys} (h : Stays c s s') : Subsides c s s' where
  closed hc := h.chan.closed ▸ hc
  done hd := h.chan.closeDone ▸ hd
  pending _ _ hu := h.chan.pending ▸ hu
  ended _ := fun ⟨info, hu⟩ => ⟨info, (h.req _ info .finished).mpr hu⟩

/-- The records of the channel are touched, but not these. -/
lemma Subsides.of_same {c : ℕ} {s s' : Sys} {v : Option ℕ} {ch : Channel}
    (hchan : ch.Same (s'.chan c)) (hclosed : (s.chan c).closed = true → ch.closed = true)
    (hdone : (s.chan c).closeDone = true → ch.closeDone = true)
    (hpending : ∀ u ∈ ch.pending.keys, u ∈ (s.chan c).pending.keys)
    (hmoved : ∀ u, v = some u → ¬ Ended s c u) (honly : Only c v s s') : Subsides c s s' where
  closed hc := hchan.closed ▸ hclosed hc
  done hd := hchan.closeDone ▸ hdone hd
  pending _ u hu := hpending u (hchan.pending ▸ hu)
  ended _ := fun ⟨info, hu⟩ =>
    ⟨info, (honly.req _ fun heq => hmoved _ heq.symm ⟨info, hu⟩).trans hu⟩

lemma not_ended {s : Sys} {c u : ℕ} {info : Request} {pc : RequestPc}
    (h : s.req u = some (c, info, pc)) (hpc : pc ≠ .finished) :
    ∀ v, some u = some v → ¬ Ended s c v := by
  rintro _ ⟨⟩ ⟨info', hu⟩
  rw [h] at hu
  cases hu
  exact hpc rfl

lemma Channel.fail_closed {ch : Channel} (failure : Failure) (h : ch.closed = true) :
    (ch.fail failure).closed = true := by
  rw [Channel.fail.eq_def, if_pos h]
  exact h

lemma Channel.settle_closed {ch : Channel} (packet : Option ℕ) (now : ℤ) (e : PostEnd)
    (h : ch.closed = true) : (ch.settle packet now e).1.closed = true := by
  cases e with
  | returned reply =>
      show (ch.complete packet reply now).1.closed = true
      rw [Channel.complete.eq_def]
      dsimp only
      split_ifs
      · exact h
      · exact h
  | raised failure => exact fail_closed failure h
  | cancelled => exact h

lemma MoveOn.subsides {E : AesKeystream} {c : ℕ} {s s' : Sys} (hf : Formed s)
    (h : MoveOn E c s s') : Subsides c s s' := by
  have hnone : ∀ u, (none : Option ℕ) = some u → ¬ Ended s c u := fun _ heq => nomatch heq
  have hborn : Only c (some s.nextTask) s s' → ∀ u, Ended s c u → Ended s' c u := by
    rintro honly u ⟨info, hu⟩
    refine ⟨info, (honly.req u fun heq => ?_).trans hu⟩
    rw [Option.some.inj heq, hf.req_next] at hu
    cases hu
  cases h with
  | opened hc hchan hlog hnative honly =>
      have hopen : (s.chan c).closed ≠ true ∧ (s.chan c).closeDone ≠ true := by
        rw [hf.chan c hc.ge]
        exact ⟨nofun, nofun⟩
      exact ⟨fun h => absurd h hopen.1, fun h => absurd h hopen.2, fun h => absurd h hopen.1,
        fun u ⟨info, hu⟩ => ⟨info, (honly.req u nofun).trans hu⟩⟩
  | bridged tag cltEnc hnone' hnative hchan hlog honly =>
      exact .of_same hchan id id (fun _ => id) hnone honly
  | native t caller body pc hpc hadm hleft hfree hopen hchan hreq hlog hnative hnext honly =>
      have hopen' : (s.chan c).closed ≠ true := by simp [hopen]
      refine ⟨fun h => absurd h hopen', fun hd => ?_, fun h => absurd h hopen', hborn honly⟩
      obtain ⟨key, history, traces, heq⟩ :=
        (s.chan c).registerNative_eq s.nextTask s.clock body s.debug
      rw [hchan.closeDone, heq]
      exact hd
  | replay t entry pc hpc hadm hleft hfree hopen hfind hpending hdue hchan hreq hlog hnative
      hnext honly =>
      have hopen' : (s.chan c).closed ≠ true := by simp [hopen]
      exact ⟨fun h => absurd h hopen', fun hd => hchan.closeDone ▸ hd, fun h => absurd h hopen',
        hborn honly⟩
  | advance u info pc pc' hcalm hreq hreq' hchan hlog hnative honly =>
      refine .of_same hchan id id (fun _ => id) (not_ended hreq ?_) honly
      rintro rfl
      cases hcalm
  | uploaded u info p hreq hnone' hreq' hchan hlog hnative honly =>
      exact .of_same hchan id id (fun _ => id) (not_ended hreq nofun) honly
  | received u info p p' hreq hnot hreq' hreceiving huploaded hcontent hchan hlog hnative honly =>
      exact .of_same hchan id id (fun _ => id) (not_ended hreq nofun) honly
  | ended u info p e receiving ch hreq he hreceiving hbefore hafter hlog hnative honly =>
      have hclosed : (s.chan c).closed = true →
          (ch.settle info.packet s.clock e).1.closed = true := fun h =>
        Channel.settle_closed _ _ _ (hbefore.closed ▸ h)
      obtain ⟨hpending, hdone⟩ : (ch.settle info.packet s.clock e).1.pending = (s.chan c).pending ∧
          (ch.settle info.packet s.clock e).1.closeDone = (s.chan c).closeDone := by
        obtain ⟨closed, error, wakeup, queue, bytes, history, progress, hsettle⟩ :=
          ch.settle_eq info.packet s.clock e
        rw [hsettle]
        exact ⟨hbefore.pending, hbefore.closeDone⟩
      have hnot : ∀ v, some u = some v → ¬ Ended s c v := not_ended hreq nofun
      split at hafter
      · rename_i length ch' hfinish
        obtain ⟨-, history, rfl⟩ := Channel.finishRequest_eq_some hfinish
        refine .of_same hafter.1 hclosed (fun hd => hdone.trans hd) (fun v hv => ?_) hnot honly
        rw [Dict.mem_keys_erase, hpending] at hv
        exact hv.1
      · exact .of_same hafter.1 hclosed (fun hd => hdone.trans hd) (fun v hv => hpending ▸ hv) hnot
          honly
  | closing failure hchan hcode hlog hnative honly =>
      refine .of_same hchan (fun _ => rfl) (fun hd => ?_) (fun v hv => ?_) hnone honly
      · rw [Channel.fail.eq_def]
        split_ifs <;> exact hd
      · rw [Channel.fail.eq_def] at hv
        split_ifs at hv <;> exact hv
  | swept t rest skipped task rest' length ch ch' hsweep hrest hskipped hbefore hfinish hchan
      hlog hnative honly =>
      obtain ⟨-, history, rfl⟩ := Channel.finishRequest_eq_some hfinish
      refine .of_same hchan (fun h => hbefore.closed ▸ h) (fun h => hbefore.closeDone ▸ h)
        (fun v hv => ?_) hnone honly
      rw [Dict.mem_keys_erase, hbefore.pending] at hv
      exact hv.1
  | cleared t rest hsweep hskipped hchan hlog hnative honly =>
      exact .of_same hchan id (fun _ => rfl) (fun _ => id) hnone honly
  | rotated victim packet hchan hlog hnative honly =>
      refine .of_same hchan (fun h => ?_) (fun h => ?_) (fun v hv => ?_) hnone honly
      · cases packet <;> exact h
      · cases packet <;> exact h
      · cases packet <;> exact hv
  | dropped item queue hqueue hdrop hchan hlog hnative honly =>
      exact .of_same hchan id id (fun _ => id) hnone honly
  | wrote t body queue n padding frame hpc hqueue hopen hn hframe hchan hlog hnative honly =>
      exact .of_same hchan id id (fun _ => id) hnone honly
  | drained t hpc hpc' hchan hlog hnative honly =>
      exact .of_same hchan id id (fun _ => id) hnone honly
  | wroteError t tasks n code packed padding frame hpc hpc' hcode hpacked hn hframe hchan hlog
      hnative honly =>
      exact .of_same hchan id id (fun _ => id) hnone honly

/-- Along a step of a run, every channel subsides. -/
lemma Reaches.subsides {E : AesKeystream} {s s' : Sys} {e : Event} (h : Reaches E s)
    (hs : step E e s = some s') (c : ℕ) : Subsides c s s' := by
  rcases stays_or_on h.formed.toAllocated (h.move hs) c with hst | hmv
  · exact hst.subsides
  · exact hmv.subsides h.formed

/-! ## A step of `close` -/

lemma ClosePc.Covers.subside {c : ℕ} {s s' : Sys} {pc : ClosePc} (h : pc.Covers s c)
    (hsub : Subsides c s s') : pc.Covers s' c := by
  have hleaves : ∀ rest, Leaves s c rest → Leaves s' c rest := fun rest ⟨hclosed, hrest⟩ =>
    ⟨hsub.closed hclosed, fun u hu =>
      (hrest u (hsub.pending hclosed u hu)).imp_right (hsub.ended u)⟩
  cases pc with
  | closeLock => trivial
  | gathering tasks => exact ⟨hsub.closed h.1, fun u hu => h.2 u (hsub.pending h.1 u hu)⟩
  | releasing length rest => exact hleaves rest h
  | notifying rest => exact hleaves rest h

/-- After a step of `close`: it goes on and covers what is pending, or it has ended, and then it was
cancelled or the channel is done. -/
def Closes (s' : Sys) (t c : ℕ) (i : Input) : Prop :=
  (∃ pc, s'.coro t = .close c pc ∧ pc.Covers s' c) ∨
    s'.coro t = .done ∧ (i = .cancelled ∨ (s'.chan c).closeDone = true)

lemma closes_sweep {s : Sys} (t : ℕ) {c : ℕ} {rest : List ℕ} (ch : Channel) (i : Input)
    (hleaves : Leaves s c rest)
    (hsub : Subsides c s ((s.setChan c ch).sweep t c rest)) :
    Closes ((s.setChan c ch).sweep t c rest) t c i := by
  rcases (s.setChan c ch).sweep_cases t c rest with
    ⟨skipped, task, rest', length, ch', rfl, hskipped, hfinish, heq⟩ | ⟨hskipped, heq⟩
  · rw [heq] at hsub ⊢
    refine Or.inl ⟨.releasing length rest', by simp, hsub.closed hleaves.1, fun u hu => ?_⟩
    obtain ⟨hmem, hended⟩ := hleaves.2 u (hsub.pending hleaves.1 u hu)
    refine ⟨?_, hsub.ended u hended⟩
    obtain ⟨-, history, rfl⟩ := Channel.finishRequest_eq_some hfinish
    simp only [Sys.setCoro_chan, Sys.setChan_chan, Function.update_self, Dict.mem_keys_erase]
      at hu hskipped
    -- it is neither one of the tasks before, nor the task that has just been finished
    rcases List.mem_append.mp hmem with hmem | hmem
    · exact absurd hu.1 (hskipped u hmem)
    · exact (List.mem_cons.mp hmem).resolve_left hu.2
  · rw [heq]
    exact Or.inr ⟨by simp, Or.inr (by simp [Channel.clear])⟩

/-- A task that is pending, and has ended, has ended as a request. -/
lemma Listed.ended {s : Sys} {c u : ℕ} (h : Listed s c) (hu : u ∈ (s.chan c).pending.keys)
    (hdone : s.isDone u = true) : Ended s c u := by
  obtain ⟨n, hn⟩ := Dict.mem_keys.mp hu
  obtain ⟨info, pc, hreq, -, -⟩ := h u n hn
  rw [Sys.isDone, Sys.coro_of_req hreq] at hdone
  cases pc with
  | finished => exact ⟨info, hreq⟩
  | _ => cases hdone

lemma closes_closeStep {s s' : Sys} {t c : ℕ} {pc : ClosePc} {i : Input} (hlisted : Listed s c)
    (hcov : pc.Covers s c) (hsub : Subsides c s s') (h : closeStep s t c pc i = some s') :
    Closes s' t c i := by
  have habort : Closes (s.abortClose t c) t c .cancelled :=
    Or.inr ⟨by simp [Sys.abortClose], Or.inl rfl⟩
  unfold closeStep at h
  split at h
  · simp only at h
    split_ifs at h with hlock hdone
    · obtain rfl := Option.some.inj h
      exact Or.inr ⟨by simp, Or.inr hdone⟩
    · obtain rfl := Option.some.inj h
      refine Or.inl ⟨.gathering (s.chan c).pending.keys, by simp, by simp, fun u hu => ?_⟩
      simp only [Sys.setCoro_chan, Sys.cancelAll_chan, Sys.mark_chan, Sys.setChan_chan,
        Function.update_self] at hu
      rw [Channel.fail.eq_def] at hu
      split_ifs at hu <;> exact hu
  · obtain rfl := Option.some.inj h
    exact Or.inr ⟨by simp, Or.inl rfl⟩
  · rename_i tasks
    rw [Option.ite_none_right_eq_some] at h
    obtain ⟨hdone, h⟩ := h
    obtain rfl := Option.some.inj h
    have hleaves : Leaves s c (s.chan c).pending.keys :=
      ⟨hcov.1, fun u hu => ⟨hu, hlisted.ended hu (hdone u (hcov.2 u hu))⟩⟩
    have heq : s.setChan c (s.chan c) = s := by simp [Sys.setChan]
    have hcloses := closes_sweep t (s.chan c) .resume hleaves
    rw [heq] at hcloses
    exact hcloses hsub
  · rw [Option.ite_none_right_eq_some] at h
    obtain rfl := Option.some.inj h.2
    exact habort
  · rename_i length rest
    rw [Option.ite_none_right_eq_some] at h
    obtain rfl := Option.some.inj h.2
    have hcov' : (ClosePc.notifying rest).Covers s c := hcov
    exact Or.inl ⟨.notifying rest, by simp, hcov'.subside hsub⟩
  · obtain rfl := Option.some.inj h
    exact habort
  · rw [Option.ite_none_right_eq_some] at h
    obtain rfl := Option.some.inj h.2
    exact closes_sweep t _ .resume hcov hsub
  · obtain rfl := Option.some.inj h
    exact habort
  · cases h

/-! ## Runs -/

/-- A step of a `close` that covers what is pending. -/
lemma Reaches.closes {E : AesKeystream} {s s' : Sys} {t c : ℕ} {pc : ClosePc} {i : Input}
    (h : Reaches E s) (hs : step E (.run t i) s = some s') (hpc : s.coro t = .close c pc)
    (hcov : pc.Covers s c) : Closes s' t c i := by
  have hsub := h.subsides hs c
  obtain ⟨cancelling, hstep⟩ := coroStep_of_run hs
  simp only [coroStep, hpc] at hstep
  have hcov' : pc.Covers { s with cancelling := cancelling } c :=
    hcov.subside ⟨id, id, fun _ _ => id, fun _ => id⟩
  have hlisted : Listed { s with cancelling := cancelling } c := h.listed c
  exact closes_closeStep hlisted hcov' ⟨hsub.closed, hsub.done, hsub.pending, hsub.ended⟩ hstep

/-- **What `close` has left to do.**  At any time every `close` covers what is pending. -/
theorem Reaches.covers {E : AesKeystream} {s : Sys} (h : Reaches E s) :
    ∀ t c pc, s.coro t = .close c pc → pc.Covers s c := by
  refine h.invariant (P := fun s => ∀ t c pc, s.coro t = .close c pc → pc.Covers s c) ?_ ?_
  · rintro s ⟨clock, debug, -, rfl⟩ t c pc hpc
    cases hpc
  · intro s e s' hr hall _ hs t c pc' hpc'
    have hturn := Reaches.turn hr hs
    have hsub := Reaches.subsides hr hs c
    by_cases hnew : s.nextTask ≤ t
    · have hborn := hturn.born t hnew
      rw [hpc'] at hborn
      rw [show pc' = .closeLock from hborn]
      trivial
    by_cases hmover : some t = e.mover
    · cases e with
      | run u i =>
          obtain rfl : t = u := Option.some.inj hmover
          have hkind := hturn.kind t rfl
          rw [hpc'] at hkind
          obtain ⟨cancelling, hstep⟩ := coroStep_of_run hs
          cases hcoro : s.coro t with
          | close c₀ pc =>
              rcases Reaches.closes hr hs hcoro (hall t c₀ pc hcoro) with
                ⟨pc₁, h₁, hcov⟩ | ⟨hdone, -⟩
              · rw [hpc'] at h₁
                cases h₁
                exact hcov
              · rw [hpc'] at hdone
                cases hdone
          | bridge c₀ tasks pc =>
              simp only [coroStep, hcoro] at hstep
              rcases coro_bridgeStep hstep with ⟨-, pc, hpc⟩ | hpc
              · rw [hpc'] at hpc
                cases hpc
              · rw [hpc'] at hpc
                cases hpc
                trivial
          | send c₀ caller body pc =>
              cases caller <;> simp [hcoro, Kind.Becomes, Coro.kind, Caller.kind] at hkind
          | _ => simp [hcoro, Kind.Becomes, Coro.kind] at hkind
      | _ => cases hmover
    · rw [hturn.coro t hmover (not_le.mp hnew)] at hpc'
      exact (hall t c pc' hpc').subside hsub

end TgWsProxy
