import TgWsProxy.H2.Lane.Move

/-!
# Every step is a move

* `Allocated` — tasks and channels beyond the counters do not exist yet.
* `Quiet`, `Only` — closed under the updates that a step is made of.
* `move_of_step` — the kinds of steps in `Move` are all there are.
-/

namespace TgWsProxy

open Wire

/-! ## Closure under updates -/

namespace Quiet

variable {s s' s'' : Sys}

@[refl] lemma refl (s : Sys) : Quiet s s := ⟨fun _ => .refl _, rfl, rfl, fun _ => rfl⟩

lemma trans (h : Quiet s s') (h' : Quiet s' s'') : Quiet s s'' :=
  ⟨fun c => (h.chan c).trans (h'.chan c), h'.log.trans h.log, h'.native.trans h.native,
    fun u => (h'.req u).trans (h.req u)⟩

lemma setChan (h : Quiet s s') {c : ℕ} {ch : Channel} (hch : (s'.chan c).Same ch) :
    Quiet s (s'.setChan c ch) := by
  refine h.trans ⟨fun c' => ?_, rfl, rfl, fun _ => rfl⟩
  by_cases hc : c' = c
  · subst hc
    simpa using hch
  · simpa [Function.update_of_ne hc] using Channel.Same.refl _

lemma setCoro (h : Quiet s s') {t : ℕ} {k : Coro}
    (hk : k.asRequest = (s'.coro t).asRequest) : Quiet s (s'.setCoro t k) := by
  refine h.trans ⟨fun _ => .refl _, rfl, rfl, fun u => ?_⟩
  by_cases hu : u = t
  · subst hu
    simpa [Sys.req] using hk
  · simp [Sys.req, Function.update_of_ne hu]

lemma setLane (h : Quiet s s') (lane : Lane) : Quiet s (s'.setLane lane) :=
  h.trans ⟨fun _ => .refl _, rfl, rfl, fun _ => rfl⟩

lemma cancelAll (h : Quiet s s') (tasks : List ℕ) : Quiet s (s'.cancelAll tasks) :=
  h.trans ⟨fun _ => .refl _, rfl, rfl, fun _ => rfl⟩

end Quiet

namespace Only

variable {c : ℕ} {o : Option ℕ} {s s' s'' : Sys}

@[refl] lemma refl (c : ℕ) (o : Option ℕ) (s : Sys) : Only c o s s :=
  ⟨fun _ _ => .refl _, fun _ _ => rfl, fun _ _ => rfl, fun _ _ => rfl⟩

lemma quiet (h : Only c o s s') (h' : Quiet s' s'') : Only c o s s'' :=
  ⟨fun c' hc => (h.chan c' hc).trans (h'.chan c'), fun c' hc => by rw [h'.log, h.log c' hc],
    fun c' hc => by rw [h'.native, h.native c' hc], fun v hv => by rw [h'.req, h.req v hv]⟩

lemma trans (h : Only c o s s') (h' : Only c o s' s'') : Only c o s s'' :=
  ⟨fun c' hc => (h.chan c' hc).trans (h'.chan c' hc),
    fun c' hc => (h'.log c' hc).trans (h.log c' hc),
    fun c' hc => (h'.native c' hc).trans (h.native c' hc),
    fun v hv => (h'.req v hv).trans (h.req v hv)⟩

lemma setChan (h : Only c o s s') (ch : Channel) : Only c o s (s'.setChan c ch) :=
  ⟨fun c' hc => by simpa [Function.update_of_ne hc] using h.chan c' hc, h.log, h.native, h.req⟩

lemma mark (h : Only c o s s') (marks : List Mark) : Only c o s (s'.mark c marks) :=
  ⟨h.chan, fun c' hc => by simpa [Function.update_of_ne hc] using h.log c' hc, h.native, h.req⟩

lemma setNative (h : Only c o s s') (n : Native) : Only c o s (s'.setNative c n) :=
  ⟨h.chan, h.log, fun c' hc => by simpa [Function.update_of_ne hc] using h.native c' hc, h.req⟩

lemma setCoro (h : Only c o s s') {t : ℕ} {k : Coro}
    (hk : o = some t ∨ k.asRequest = (s'.coro t).asRequest) : Only c o s (s'.setCoro t k) := by
  refine ⟨h.chan, h.log, h.native, fun v hv => ?_⟩
  by_cases hvt : v = t
  · subst hvt
    rw [← h.req v hv]
    simpa [Sys.req] using hk.resolve_left fun ho => hv ho.symm
  · rw [← h.req v hv]
    simp [Sys.req, Function.update_of_ne hvt]

lemma setLane (h : Only c o s s') (lane : Lane) : Only c o s (s'.setLane lane) :=
  ⟨h.chan, h.log, h.native, h.req⟩

lemma cancelAll (h : Only c o s s') (tasks : List ℕ) : Only c o s (s'.cancelAll tasks) :=
  ⟨h.chan, h.log, h.native, h.req⟩

end Only

/-! ## Allocation -/

/-- What has not been created is not there. -/
structure Allocated (s : Sys) : Prop where
  coro : ∀ u, s.nextTask ≤ u → s.coro u = .done

namespace Allocated

variable {s : Sys}

lemma lt (h : Allocated s) {t : ℕ} (ht : s.coro t ≠ .done) : t < s.nextTask := by
  by_contra hge
  exact ht (h.coro t (not_lt.mp hge))

/-- New coroutines that run no request go unnoticed. -/
lemma quiet_spawn (h : Allocated s) {ks : List Coro} (hks : ∀ k ∈ ks, k.asRequest = none) :
    Quiet s (s.spawn ks) := by
  refine ⟨fun _ => .refl _, rfl, rfl, fun u => ?_⟩
  by_cases hu : u < s.nextTask
  · simp [Sys.req, hu]
  · rw [Sys.req, Sys.req, h.coro u (not_lt.mp hu)]
    simp only [Sys.spawn_coro, if_neg hu]
    by_cases hlen : u - s.nextTask < ks.length
    · rw [List.getD_eq_getElem _ _ hlen]
      exact hks _ (List.getElem_mem hlen)
    · rw [List.getD_eq_default _ _ (not_lt.mp hlen)]

/-- A new request is the next task. -/
lemma only_spawn (h : Allocated s) (c : ℕ) (k : Coro) :
    Only c (some s.nextTask) s (s.spawn [k]) := by
  refine ⟨fun _ _ => .refl _, fun _ _ => rfl, fun _ _ => rfl, fun v hv => ?_⟩
  by_cases hlt : v < s.nextTask
  · simp [Sys.req, hlt]
  · have hne : v ≠ s.nextTask := fun heq => hv (by rw [heq])
    have hpos : 1 ≤ v - s.nextTask := by omega
    rw [Sys.req, Sys.req, h.coro v (not_lt.mp hlt)]
    simp only [Sys.spawn_coro, if_neg hlt]
    rw [List.getD_eq_default _ _ (by simpa using hpos)]

lemma only_create (h : Allocated s) (c : ℕ) (ch : Channel) (k : Coro) (marks : List Mark) :
    Only c (some s.nextTask) s (((s.setChan c ch).spawn [k]).mark c marks) :=
  Only.mark (Only.trans (Only.setChan (.refl c _ s) ch)
    (Allocated.only_spawn (s := s.setChan c ch) ⟨h.coro⟩ c k)) marks

end Allocated

@[simp] lemma Sys.spawn_coro_next (s : Sys) (k : Coro) : (s.spawn [k]).coro s.nextTask = k := by
  simp

@[simp] lemma Sys.spawn_coro_of_lt {s : Sys} {ks : List Coro} {t : ℕ} (h : t < s.nextTask) :
    (s.spawn ks).coro t = s.coro t := by
  simp [h]

/-! ## Sending -/

section Send

variable {s s' : Sys} {t : ℕ} {c : ℕ} {caller : Caller}

lemma quiet_loopRecover (hreq : (s.coro t).asRequest = none) : Quiet s (s.loopRecover t c) := by
  refine (Quiet.refl s).setCoro ?_
  rw [hreq]
  split_ifs <;> rfl

lemma quiet_afterSend (hreq : (s.coro t).asRequest = none) (exit : SendExit) :
    Quiet s (s.afterSend t c caller exit) := by
  unfold Sys.afterSend
  split
  · exact (Quiet.refl s).setCoro hreq.symm
  · exact quiet_loopRecover hreq
  · exact (Quiet.refl s).setCoro hreq.symm

lemma quiet_leaveSend (hreq : (s.coro t).asRequest = none) (exit : SendExit) :
    Quiet s (s.leaveSend t c caller exit) :=
  ((Quiet.refl s).setChan (((Channel.Same.refl _).setSendLock none).endWait caller)).trans
    (quiet_afterSend (by exact hreq) exit)

lemma quiet_passChannel (hreq : (s.coro t).asRequest = none) (body : Bytes) :
    Quiet s (s.passChannel t c caller body) := by
  unfold Sys.passChannel
  simp only
  split_ifs
  · exact quiet_leaveSend hreq .raised
  · exact ((Quiet.refl s).setChan (.refl _)).setCoro hreq.symm
  · exact ((Quiet.refl s).setChan ((Channel.Same.refl _).setWaitPhase _)).setCoro hreq.symm

end Send

@[simp] lemma Sys.leaveSend_nextTask (s : Sys) (t c : ℕ) (caller : Caller) (exit : SendExit) :
    (s.leaveSend t c caller exit).nextTask = s.nextTask := by
  unfold Sys.leaveSend Sys.afterSend Sys.loopRecover
  split <;> rfl

/-- What a step does to a lane or to the requested cancellations before does not matter. -/
lemma Only.of_with {c : ℕ} {o : Option ℕ} {s s' : Sys} {lane : Lane} {cancelling : Finset ℕ}
    (h : Only c o { s with lane := lane, cancelling := cancelling } s') : Only c o s s' :=
  ⟨h.chan, h.log, h.native, h.req⟩

lemma MoveOn.of_with {E : AesKeystream} {c : ℕ} {s s' : Sys} {lane : Lane} {cancelling : Finset ℕ}
    (h : MoveOn E c { s with lane := lane, cancelling := cancelling } s') : MoveOn E c s s' := by
  cases h with
  | opened h1 h2 h3 h4 h5 => exact .opened h1 h2 h3 h4 h5.of_with
  | bridged tag cltEnc h1 h2 h3 h4 h5 => exact .bridged tag cltEnc h1 h2 h3 h4 h5.of_with
  | native t caller body pc h1 h2 h3 h4 h5 h6 h7 h8 h9 h10 h11 =>
      exact .native t caller body pc h1 h2 h3 h4 h5 h6 h7 h8 h9 h10 h11.of_with
  | replay t entry pc h1 h2 h3 h4 h5 h6 h7 h8 h9 h10 h11 h12 h13 h14 =>
      exact .replay t entry pc h1 h2 h3 h4 h5 h6 h7 h8 h9 h10 h11 h12 h13 h14.of_with
  | advance u info pc pc' h1 h2 h3 h4 h5 h6 h7 =>
      exact .advance u info pc pc' h1 h2 h3 h4 h5 h6 h7.of_with
  | uploaded u info p h1 h2 h3 h4 h5 h6 h7 =>
      exact .uploaded u info p h1 h2 h3 h4 h5 h6 h7.of_with
  | received u info p p' h1 h2 h3 h4 h5 h6 h7 h8 h9 h10 =>
      exact .received u info p p' h1 h2 h3 h4 h5 h6 h7 h8 h9 h10.of_with
  | ended u info p e receiving ch h1 h2 h3 h4 h5 h6 h7 h8 =>
      exact .ended u info p e receiving ch h1 h2 h3 h4 h5 h6 h7 h8.of_with
  | closing failure h1 h2 h3 h4 h5 => exact .closing failure h1 h2 h3 h4 h5.of_with
  | swept t rest skipped task rest' length ch ch' h1 h2 h3 h4 h5 h6 h7 h8 h9 =>
      exact .swept t rest skipped task rest' length ch ch' h1 h2 h3 h4 h5 h6 h7 h8 h9.of_with
  | cleared t rest h1 h2 h3 h4 h5 h6 => exact .cleared t rest h1 h2 h3 h4 h5 h6.of_with
  | rotated victim packet h1 h2 h3 h4 => exact .rotated victim packet h1 h2 h3 h4.of_with
  | dropped item queue h1 h2 h3 h4 h5 h6 => exact .dropped item queue h1 h2 h3 h4 h5 h6.of_with
  | wrote t body queue n padding frame h1 h2 h3 h4 h5 h6 h7 h8 h9 =>
      exact .wrote t body queue n padding frame h1 h2 h3 h4 h5 h6 h7 h8 h9.of_with
  | drained t h1 h2 h3 h4 h5 h6 => exact .drained t h1 h2 h3 h4 h5 h6.of_with
  | wroteError t tasks n code packed padding frame h1 h2 h3 h4 h5 h6 h7 h8 h9 h10 =>
      exact .wroteError t tasks n code packed padding frame h1 h2 h3 h4 h5 h6 h7 h8 h9 h10.of_with

lemma Move.of_with {E : AesKeystream} {s s' : Sys} (lane : Lane) (cancelling : Finset ℕ)
    (h : Move E { s with lane := lane, cancelling := cancelling } s') : Move E s s' := by
  cases h with
  | quiet h => exact .quiet ⟨h.chan, h.log, h.native, h.req⟩
  | on c h => exact .on c h.of_with

@[simp] lemma Sys.leaveSend_sendLock (s : Sys) (t c : ℕ) (caller : Caller) (exit : SendExit) :
    ((s.leaveSend t c caller exit).chan c).sendLock = none := by
  have hlock : ((s.leaveSend t c caller exit).chan c)
      = { s.chan c with sendLock := none }.endWait caller := by
    unfold Sys.leaveSend Sys.afterSend Sys.loopRecover
    split <;> simp
  rw [hlock, Channel.endWait]
  split_ifs <;> rfl

/-- Whoever leaves `send` is no longer in it. -/
lemma Sys.leaveSend_coro_ne (s : Sys) (t c c' : ℕ) (caller caller' : Caller) (exit : SendExit)
    (body : Bytes) (pc : SendPc) :
    (s.leaveSend t c caller exit).coro t ≠ .send c' caller' body pc := by
  unfold Sys.leaveSend Sys.afterSend Sys.loopRecover
  split
  · simp
  · simp only [Sys.setCoro_coro, Function.update_self]
    split_ifs <;> simp
  · simp

/-- Once the request is created, only locks are left to be given back. -/
lemma quiet_created {s : Sys} {t : ℕ} (hlt : t < s.nextTask) (hreq : (s.coro t).asRequest = none)
    (c : ℕ) (caller : Caller) (ch : Channel) (info : Request) (marks : List Mark) :
    Quiet (((s.setChan c ch).spawn [.request c info .created]).mark c marks)
      ((((s.setChan c ch).spawn [.request c info .created]).mark c marks).leaveSend t c caller
        .returned) :=
  quiet_leaveSend (by simpa [hlt] using hreq) .returned

/-- The step that creates a request, or keeps its reservation to return it. -/
lemma move_enter {E : AesKeystream} {s : Sys} {t c : ℕ} {caller : Caller} {body : Bytes}
    {pc : SendPc} (halloc : Allocated s) (hpc : s.coro t = .send c caller body pc)
    (hadmitting : pc.Admitting) : Move E s (s.enter t c caller body) := by
  have hlt : t < s.nextTask := halloc.lt (by simp [hpc])
  have hreq : (s.coro t).asRequest = none := by rw [hpc]; rfl
  unfold Sys.enter
  simp only
  split_ifs with hclosed hreplay
  · exact .quiet ((Quiet.refl s).setCoro hreq.symm)
  · have hcaller : caller = .recover := by cases caller <;> simp_all [Caller.replay]
    split
    · rename_i entry hfind
      split_ifs with hdue
      · have hbody : entry.body = body := by simpa using List.find?_some hfind
        subst hbody hcaller
        have hquiet := quiet_created hlt hreq c .recover
            ((s.chan c).registerReplay s.nextTask s.clock
          entry.body s.debug entry.sequence) ⟨entry.body, true, some entry.sequence⟩
          [.replay s.clock entry.sequence entry.body s.nextTask]
        refine .on c <| .replay t entry pc hpc hadmitting ?_ ?_ (by simpa using hclosed)
            hfind hdue.1 hdue.2
          ?_ ?_ ?_ ?_ ?_ ?_
        · rw [hpc]
          exact Sys.leaveSend_coro_ne _ _ _ _ _ _ _ _ _
        · exact Sys.leaveSend_sendLock _ _ _ _ _
        · simpa using hquiet.chan c
        · rw [hquiet.req]
          simp [Sys.req, Coro.asRequest]
        · rw [hquiet.log]
          simp
        · rw [hquiet.native]
          rfl
        · simp
        · exact (halloc.only_create c _ _ _).quiet hquiet
      · exact .quiet ((Quiet.refl s).setCoro hreq.symm)
    · exact .quiet ((Quiet.refl s).setCoro hreq.symm)
  · have hquiet := quiet_created hlt hreq c caller
      ((s.chan c).registerNative s.nextTask s.clock body
      s.debug).1 ⟨body, false, ((s.chan c).registerNative s.nextTask s.clock body s.debug).2⟩
      [.native s.clock body s.nextTask]
    refine .on c <| .native t caller body pc hpc hadmitting ?_ ?_ (by simpa using hclosed)
        ?_ ?_ ?_ ?_ ?_ ?_
    · rw [hpc]
      exact Sys.leaveSend_coro_ne _ _ _ _ _ _ _ _ _
    · exact Sys.leaveSend_sendLock _ _ _ _ _
    · simpa using hquiet.chan c
    · rw [hquiet.req]
      simp [Sys.req, Coro.asRequest]
    · rw [hquiet.log]
      simp
    · rw [hquiet.native]
      rfl
    · simp
    · exact (halloc.only_create c _ _ _).quiet hquiet

lemma move_reserve {E : AesKeystream} {s : Sys} {t c : ℕ} {caller : Caller} {body : Bytes}
    {pc : SendPc} (halloc : Allocated s) (hpc : s.coro t = .send c caller body pc)
    (hadmitting : pc.Admitting) : Move E s (s.reserve t c caller body) := by
  unfold Sys.reserve
  split_ifs
  · exact .quiet (quiet_leaveSend (by rw [hpc]; rfl) .raised)
  · exact Move.of_with _ s.cancelling
      (move_enter ⟨halloc.coro⟩ hpc hadmitting)

/-- A lock changes hands and the coroutine moves along. -/
lemma quiet_lock {s : Sys} {t c : ℕ} {ch : Channel} {k : Coro} (hch : (s.chan c).Same ch)
    (hk : k.asRequest = (s.coro t).asRequest) : Quiet s ((s.setChan c ch).setCoro t k) :=
  Quiet.setCoro (Quiet.setChan (.refl _) hch) hk

lemma Quiet.orphans (s : Sys) (orphans : Finset (ℕ × Option ℕ)) :
    Quiet s { s with orphans := orphans } :=
  ⟨fun _ => .refl _, rfl, rfl, fun _ => rfl⟩

lemma quiet_reserveUnlocked {s : Sys} {t c : ℕ} {caller : Caller}
    (hreq : (s.coro t).asRequest = none) (length : ℕ) :
    Quiet s (s.reserveUnlocked t c caller length) := by
  rw [Sys.reserveUnlocked]
  split_ifs
  · exact quiet_leaveSend hreq _
  · exact Quiet.trans (Quiet.setLane (.refl _) _) (quiet_leaveSend (by exact hreq) _)

theorem move_sendStep {E : AesKeystream} {s s' : Sys} {t : ℕ} {c : ℕ} {caller : Caller}
    {body : Bytes} {pc : SendPc} {i : Input} (halloc : Allocated s)
    (hpc : s.coro t = .send c caller body pc) (h : sendStep s t c caller body pc i = some s') :
    Move E s s' := by
  have hlt : t < s.nextTask := halloc.lt (by simp [hpc])
  have hreq : (s.coro t).asRequest = none := by rw [hpc]; rfl
  unfold sendStep at h
  split at h
  · simp only [Option.ite_none_right_eq_some, Option.some.injEq] at h
    obtain ⟨-, rfl⟩ := h
    exact .quiet (quiet_lock (by constructor <;> rfl) hreq.symm)
  · obtain rfl := Option.some.inj h
    exact .quiet (Quiet.trans (Quiet.setChan (.refl _) (.endWait (.refl _) _))
      (quiet_afterSend (by exact hreq) _))
  · simp only at h
    split_ifs at h
    all_goals obtain rfl := Option.some.inj h
    · exact .quiet (quiet_passChannel hreq body)
    · exact .quiet (quiet_leaveSend hreq _)
    · exact .quiet (quiet_lock (by constructor <;> rfl) hreq.symm)
  · simp only at h
    split_ifs at h
    all_goals obtain rfl := Option.some.inj h
    · exact .quiet (Quiet.setCoro (.refl _) hreq.symm)
    · exact .quiet (Quiet.setCoro (.refl _) hreq.symm)
    · exact .quiet (quiet_lock (by constructor <;> rfl) hreq.symm)
  · simp only [Option.ite_none_right_eq_some, Option.some.injEq] at h
    obtain ⟨-, rfl⟩ := h
    exact .quiet (quiet_lock (by constructor <;> rfl) hreq.symm)
  · simp only at h
    split_ifs at h
    all_goals obtain rfl := Option.some.inj h
    · exact .quiet (quiet_leaveSend hreq _)
    · exact .quiet (Quiet.trans (Quiet.setChan (.refl _) (.setCapacity (.refl _) _))
        (quiet_passChannel (by exact hreq) body))
  · simp only [Option.ite_none_right_eq_some, Option.some.injEq] at h
    obtain ⟨-, rfl⟩ := h
    exact .quiet (quiet_lock (by constructor <;> rfl) hreq.symm)
  · obtain rfl := Option.some.inj h
    exact .quiet (Quiet.trans (Quiet.setChan (Quiet.orphans s _)
      (.setCapacity (.refl _) _)) (quiet_leaveSend (by exact hreq) _))
  · obtain rfl := Option.some.inj h
    exact .quiet (Quiet.trans (Quiet.setChan (.refl _) (.setCapacity (.refl _) _))
      (quiet_leaveSend (by exact hreq) _))
  · split_ifs at h
    all_goals obtain rfl := Option.some.inj h
    · exact .quiet (Quiet.setCoro (.refl _) hreq.symm)
    · exact .quiet (Quiet.trans (Quiet.setChan (.refl _) (.setCapacity (.refl _) _))
        (quiet_leaveSend (by exact hreq) _))
  · split_ifs at h
    all_goals obtain rfl := Option.some.inj h
    · exact move_reserve halloc hpc trivial
    · exact .quiet (quiet_leaveSend hreq _)
    · exact .quiet (Quiet.setCoro (Quiet.setLane (.refl _) _) hreq.symm)
  · split_ifs at h
    all_goals obtain rfl := Option.some.inj h
    · exact .quiet (Quiet.setCoro (.refl _) hreq.symm)
    · exact .quiet (Quiet.setCoro (.refl _) hreq.symm)
    · exact .quiet (Quiet.setCoro (Quiet.setLane (.refl _) _) hreq.symm)
  · simp only [Option.ite_none_right_eq_some, Option.some.injEq] at h
    obtain ⟨-, rfl⟩ := h
    exact .quiet (Quiet.setCoro (Quiet.setLane (.refl _) _) hreq.symm)
  · split_ifs at h
    all_goals obtain rfl := Option.some.inj h
    · exact .quiet (quiet_reserveUnlocked hreq _)
    · exact Move.of_with _ s.cancelling
        (move_reserve ⟨halloc.coro⟩ hpc rfl)
  · simp only [Option.ite_none_right_eq_some, Option.some.injEq] at h
    obtain ⟨-, rfl⟩ := h
    exact .quiet (Quiet.setCoro (Quiet.setLane (.refl _) _) hreq.symm)
  · obtain rfl := Option.some.inj h
    exact .quiet (Quiet.trans (Quiet.setLane (Quiet.orphans s _) _)
      (quiet_leaveSend (by exact hreq) _))
  · obtain rfl := Option.some.inj h
    exact .quiet (Quiet.trans (Quiet.setLane (.refl _) _) (quiet_leaveSend (by exact hreq) _))
  · split_ifs at h
    all_goals obtain rfl := Option.some.inj h
    · exact .quiet (Quiet.setCoro (.refl _) hreq.symm)
    · exact .quiet (Quiet.trans (Quiet.setLane (.refl _) _) (quiet_leaveSend (by exact hreq) _))
  · simp only [Option.ite_none_right_eq_some, Option.some.injEq] at h
    obtain ⟨-, rfl⟩ := h
    exact .quiet (Quiet.trans (Quiet.setLane (.refl _) _) (quiet_leaveSend (by exact hreq) _))
  · obtain rfl := Option.some.inj h
    exact .quiet (quiet_leaveSend hreq _)
  · obtain rfl := Option.some.inj h
    exact .quiet (quiet_leaveSend hreq _)
  · obtain rfl := Option.some.inj h
    exact .quiet (quiet_leaveSend hreq _)
  · cases h

/-! ## Requests -/

/-- A request ends, from a state in which its response may just have begun. -/
lemma move_endPost {E : AesKeystream} {s s₁ : Sys} {t c : ℕ} {info : Request} {p p₁ : Post}
    {e : PostEnd} {receiving : Finset ℕ} (hreq : s.req t = some (c, info, .posting p))
    (he : ∀ reply, e = .returned reply → p.finish = .returned reply)
    (hreceiving : receiving = (s.chan c).receivingTasks.erase t ∨
      p.receiving = false ∧ receiving = (s.chan c).receivingTasks)
    (hbefore : Channel.Same { s.chan c with receivingTasks := receiving }
      (if p₁.receiving then
        { s₁.chan c with receivingTasks := (s₁.chan c).receivingTasks.erase t } else s₁.chan c))
    (hlog : s₁.log c = s.log c) (hnative : s₁.native = s.native) (hclock : s₁.clock = s.clock)
    (honly : Only c (some t) s s₁) : Move E s (s₁.endPost t c info p₁ e) := by
  refine .on c <| .ended t info p e receiving _ hreq he hreceiving hbefore ?_ ?_ ?_ ?_
  · unfold Sys.endPost Sys.finish
    simp only [Sys.setLane_chan, Sys.setLane_clock, Sys.mark_chan, Sys.setChan_chan,
      Function.update_self, hclock]
    cases ((if p₁.receiving then
        { s₁.chan c with receivingTasks := (s₁.chan c).receivingTasks.erase t }
      else s₁.chan c).settle info.packet s.clock e).1.finishRequest t info.packet with
    | some entry => exact ⟨by simpa using Channel.Same.refl _, by simp [Sys.req, Coro.asRequest]⟩
    | none => exact ⟨by simpa using Channel.Same.refl _, by simp [Sys.req, Coro.asRequest]⟩
  · unfold Sys.endPost Sys.finish
    simp only
    split <;> simp [hlog, hclock]
  · unfold Sys.endPost Sys.finish
    simp only
    split <;> exact hnative
  · unfold Sys.endPost Sys.finish
    simp only
    split
    · exact Only.setCoro (Only.setChan (Only.mark (Only.setChan (honly.setLane _) _) _) _)
        (Or.inl rfl)
    · exact Only.setCoro (Only.mark (Only.setChan (honly.setLane _) _) _) (Or.inl rfl)

/-- A request ends. -/
lemma move_endPost_self {E : AesKeystream} {s : Sys} {t c : ℕ} {info : Request} {p : Post}
    {e : PostEnd} (hreq : s.req t = some (c, info, .posting p))
    (he : ∀ reply, e = .returned reply → p.finish = .returned reply) :
    Move E s (s.endPost t c info p e) := by
  cases hr : p.receiving with
  | true =>
      exact move_endPost hreq he (Or.inl rfl) (by rw [if_pos hr]) rfl rfl rfl (.refl _ _ _)
  | false =>
      exact move_endPost hreq he (Or.inr ⟨hr, rfl⟩) (by rw [if_neg (by simp [hr])]) rfl rfl rfl
        (.refl _ _ _)

lemma same_set {s : Sys} {t c : ℕ} {k : Coro} {a ch : Channel} (h : a.Same ch) :
    a.Same (((s.setChan c ch).setCoro t k).chan c) := by
  simpa using h

lemma same_deliver {s : Sys} {t c : ℕ} {k : Coro} {E : AesKeystream} {n : Native}
    {frame : Bytes} {marks : List Mark} {a ch : Channel} (h : a.Same ch) :
    a.Same (((((s.setChan c ch).writeNative E c n frame).mark c marks).setCoro t k).chan c) := by
  simpa [Sys.writeNative] using h

lemma same_close {s : Sys} {t c : ℕ} {k : Coro} {marks : List Mark} {tasks : List ℕ}
    {a ch : Channel} (h : a.Same ch) :
    a.Same (((((s.setChan c ch).mark c marks).cancelAll tasks).setCoro t k).chan c) := by
  simpa using h

@[simp] lemma req_setCoro_self (s : Sys) (t : ℕ) (k : Coro) :
    (s.setCoro t k).req t = k.asRequest := by
  simp [Sys.req]

theorem move_requestStep {E : AesKeystream} {s s' : Sys} {t c : ℕ} {info : Request}
    {pc : RequestPc} {i : Input} (hpc : s.coro t = .request c info pc)
    (h : requestStep s t c info pc i = some s') : Move E s s' := by
  have hreq := Sys.req_of_coro hpc
  have hadvance : ∀ {pc' : RequestPc}, Calm pc pc' →
      Move E s (s.setCoro t (.request c info pc')) := fun hcalm =>
    .on c <| .advance t info pc _ hcalm hreq (by simp [Sys.req, Coro.asRequest]) (.refl _) rfl rfl
      (Only.setCoro (.refl _ _ _) (Or.inl rfl))
  unfold requestStep at h
  split at h
  · obtain rfl := Option.some.inj h
    exact hadvance .post
  · obtain rfl := Option.some.inj h
    exact hadvance .never
  · rename_i p
    simp only [Option.ite_none_right_eq_some, Option.some.injEq] at h
    obtain ⟨⟨hnone, -⟩, rfl⟩ := h
    exact .on c <| .uploaded t info p hreq hnone (req_setCoro_self _ _ _)
        (same_set (.refl _)) rfl rfl
      (Only.setCoro (Only.setChan (.refl _ _ _) _) (Or.inl rfl))
  · rename_i p
    split_ifs at h with hnot
    obtain rfl := Option.some.inj h
    exact .on c <| .received t info p { p with receiving := true } hreq (by simpa using hnot)
      (req_setCoro_self _ _ _) rfl rfl rfl (same_set (by constructor <;> rfl)) rfl rfl
      (Only.setCoro (Only.setChan (.refl _ _ _) _) (Or.inl rfl))
  · rename_i p head
    rw [Option.ite_none_left_eq_some] at h
    obtain ⟨-, h⟩ := h
    cases hcheck : head.check with
    | some failure =>
        simp only [hcheck, Option.some.injEq] at h
        subst h
        exact move_endPost_self hreq fun _ he => by cases he
    | none =>
        simp only [hcheck] at h
        cases hr : p.receiving with
        | true =>
            simp only [hr, if_true] at h
            split_ifs at h
            · obtain rfl := Option.some.inj h
              exact move_endPost hreq (fun _ he => by cases he) (Or.inl rfl) (by rw [if_pos rfl])
                rfl rfl rfl (.refl _ _ _)
            · obtain rfl := Option.some.inj h
              exact hadvance (.start p _ hr rfl rfl rfl)
        | false =>
            simp only [hr, Bool.false_eq_true, if_false] at h
            split_ifs at h
            · obtain rfl := Option.some.inj h
              refine move_endPost hreq (fun _ he => by cases he) (Or.inl rfl) ?_ rfl rfl rfl
                (Only.setChan (.refl _ _ _) _)
              rw [if_pos rfl]
              simp only [Sys.setChan_chan, Function.update_self, Channel.responseStarted,
                Finset.erase_insert_eq_erase]
              constructor <;> rfl
            · obtain rfl := Option.some.inj h
              exact .on c <| .received t info p _ hreq hr (req_setCoro_self _ _ _) rfl rfl rfl
                (same_set (by constructor <;> rfl)) rfl rfl
                (Only.setCoro (Only.setChan (.refl _ _ _) _) (Or.inl rfl))
  · rename_i p data
    split_ifs at h with hopened hmax hlane
    · obtain rfl := Option.some.inj h
      exact move_endPost_self hreq fun _ he => by cases he
    · obtain rfl := Option.some.inj h
      exact move_endPost_self hreq fun _ he => by cases he
    · obtain rfl := Option.some.inj h
      refine Move.of_with { s.lane with
        replyBufferBytes := s.lane.replyBufferBytes + data.length } s.cancelling ?_
      exact .on c <| .advance t info _ _ (.read p data (by simpa using hopened)
          (not_lt.mp hmax)) hreq
        (req_setCoro_self _ _ _) (same_set (by constructor <;> rfl)) rfl rfl
        (Only.setCoro (Only.setChan (.refl _ _ _) _) (Or.inl rfl))
  · split_ifs at h
    obtain rfl := Option.some.inj h
    exact move_endPost_self hreq fun _ he => he
  · split at h
    · cases h
    · obtain rfl := Option.some.inj h
      exact move_endPost_self hreq fun _ he => by cases he
  · obtain rfl := Option.some.inj h
    exact move_endPost_self hreq fun _ he => by cases he
  · rename_i length
    simp only [Option.ite_none_right_eq_some, Option.some.injEq] at h
    obtain ⟨-, rfl⟩ := h
    exact .on c <| .advance t info _ _ (.notify length) hreq (req_setCoro_self _ _ _)
        (.refl _) rfl rfl
      (Only.setCoro (Only.setLane (.refl _ _ _) _) (Or.inl rfl))
  · obtain rfl := Option.some.inj h
    exact hadvance (.leak _)
  · simp only [Option.ite_none_right_eq_some, Option.some.injEq] at h
    obtain ⟨-, rfl⟩ := h
    exact .on c <| .advance t info _ _ .finish hreq (req_setCoro_self _ _ _)
      (same_set (.wakeReceiver (.refl _))) rfl rfl
      (Only.setCoro (Only.setChan (.refl _ _ _) _) (Or.inl rfl))
  · obtain rfl := Option.some.inj h
    exact hadvance .finish
  · cases h

/-! ## The other coroutines -/

lemma Channel.Same.rotate {a b : Channel} (h : a.Same b) (victim : ℕ) (packet : Option ℕ) :
    (a.rotate victim packet).Same (b.rotate victim packet) := by
  unfold Channel.rotate Channel.updatePacket
  cases packet <;> constructor <;> simp only [h.closed, h.transportError, h.pending,
    h.pendingSince, h.sentSince, h.pendingBytes, h.replyBytes, h.queue, h.requests,
    h.receivingTasks, h.deliveringSince, h.replayPending, h.replayHistory, h.replayKey,
    h.closeDone, h.requestTraces]

lemma Channel.Same.setDelivering {a b : Channel} (h : a.Same b) (since : Option ℤ) :
    Channel.Same { a with deliveringSince := since } { b with deliveringSince := since } := by
  constructor <;> simp only [h.closed, h.transportError, h.pending, h.pendingSince, h.sentSince,
    h.pendingBytes, h.replyBytes, h.queue, h.requests, h.receivingTasks, h.replayPending,
    h.replayHistory, h.replayKey, h.closeDone, h.requestTraces]

section Recover

variable {s : Sys} {t c : ℕ}

lemma quiet_sendReplay (hreq : (s.coro t).asRequest = none) (body : Bytes) :
    Quiet s (s.sendReplay t c body) := by
  unfold Sys.sendReplay
  split_ifs
  · exact quiet_loopRecover hreq
  · exact Quiet.setCoro (.refl _) hreq.symm

lemma quiet_recoverPass (hreq : (s.coro t).asRequest = none) (now : ℤ) :
    Quiet s (s.recoverPass t c now) := by
  unfold Sys.recoverPass
  simp only
  split_ifs
  · exact quiet_loopRecover hreq
  · split
    · exact quiet_loopRecover hreq
    · exact quiet_sendReplay hreq _
    · exact Quiet.setCoro (Quiet.cancelAll (.refl _) _) hreq.symm

end Recover

theorem move_recoverStep {E : AesKeystream} {s s' : Sys} {t c : ℕ} {pc : RecoverPc} {i : Input}
    (hpc : s.coro t = .recover c pc) (h : recoverStep s t c pc i = some s') : Move E s s' := by
  have hreq : (s.coro t).asRequest = none := by rw [hpc]; rfl
  have hstay : ∀ {k : Coro}, k.asRequest = none → Move E s (s.setCoro t k) := fun hk =>
    .quiet (Quiet.setCoro (.refl _) (hk.trans hreq.symm))
  unfold recoverStep at h
  split at h
  · obtain rfl := Option.some.inj h
    exact hstay rfl
  · obtain rfl := Option.some.inj h
    exact hstay rfl
  · obtain rfl := Option.some.inj h
    exact hstay rfl
  · rename_i order
    rw [Option.ite_none_right_eq_some] at h
    obtain ⟨-, h⟩ := h
    simp only at h
    split at h
    · rename_i owner victim packet hroom
      obtain rfl := Option.some.inj h
      have hwake : ∀ c', (s.chan c').Same
          ((s.setChan c { s.chan c with recoveryWakeup := false }).chan c') :=
        (Quiet.setChan (.refl _) (.setWakeup (.refl _) _)).chan
      refine .on owner <| .rotated victim packet ?_ rfl rfl
        ⟨fun c' hc' => ?_, fun _ _ => rfl, fun _ _ => rfl, fun v _ => ?_⟩
      · simpa using (hwake owner).rotate victim packet
      · simpa [Function.update_of_ne hc'] using hwake c'
      · exact (Quiet.setCoro (.refl s) (k := .recover c (.makingRoom s.clock victim))
          hreq.symm).req v
    · obtain rfl := Option.some.inj h
      exact .quiet (Quiet.trans (Quiet.setChan (.refl _) (.setWakeup (.refl _) _))
        (quiet_recoverPass (by exact hreq) _))
  · obtain rfl := Option.some.inj h
    exact hstay rfl
  · rw [Option.ite_none_right_eq_some] at h
    obtain rfl := Option.some.inj h.2
    exact .quiet (quiet_recoverPass hreq _)
  · rw [Option.ite_none_right_eq_some] at h
    obtain rfl := Option.some.inj h.2
    exact .quiet (quiet_sendReplay hreq _)
  · rw [Option.ite_none_right_eq_some] at h
    obtain rfl := Option.some.inj h.2
    exact hstay rfl
  · rw [Option.ite_none_right_eq_some] at h
    obtain rfl := Option.some.inj h.2
    exact hstay rfl
  · cases h

/-- Handing octets to the writer moves its cipher on. -/
lemma Sys.native_writeNative (E : AesKeystream) (s : Sys) (c : ℕ) (n : Native) (data : Bytes) :
    (s.writeNative E c n data).native c = some { n with
      wire := n.wire ++ n.cltEnc.peek E data
      cltEnc := (n.cltEnc.update E data).2 } := by
  simp [Sys.writeNative]

theorem move_downloadStep {E : AesKeystream} {s s' : Sys} {t c : ℕ} {pc : DownloadPc} {i : Input}
    (hpc : s.coro t = .download c pc) (h : downloadStep E s t c pc i = some s') : Move E s s' := by
  have hreq : (s.coro t).asRequest = none := by rw [hpc]; rfl
  have honly : ∀ (ch : Channel) {k : Coro}, k.asRequest = none →
      Only c none s ((s.setChan c ch).setCoro t k) := fun ch _ hk =>
    Only.setCoro (Only.setChan (.refl _ _ _) ch) (Or.inr (hk.trans hreq.symm))
  unfold downloadStep at h
  split at h
  · rename_i padding
    simp only at h
    split at h
    · cases h
    · rename_i failure queue hqueue
      obtain rfl := Option.some.inj h
      exact .on c <| .dropped _ queue hqueue (fun _ he => nomatch he)
        (same_set (by constructor <;> first | rfl | simp [QueueItem.size])) rfl rfl (honly _ rfl)
    · rename_i body queue hqueue
      split_ifs at h with hclosed
      · obtain rfl := Option.some.inj h
        exact .on c <| .dropped _ queue hqueue (fun _ _ => Or.inl hclosed)
          (same_set (.wakeReceiver (by constructor <;> rfl))) rfl rfl (honly _ rfl)
      · unfold Sys.writeReply at h
        simp only [Sys.setChan_native, Sys.setChan_chan, Function.update_self] at h
        split at h
        · cases h
        · rename_i n hn
          split at h
          · rename_i text herror
            obtain rfl := Option.some.inj h
            refine .on c <| .dropped _ queue hqueue (fun body' he => Or.inr fun henc => ?_)
              (same_set (.wakeReceiver (by constructor <;> rfl))) rfl rfl (honly _ rfl)
            cases he
            obtain ⟨frame, hframe⟩ := (encodeReply_ok n.tag padding).mpr henc
            rw [herror] at hframe
            cases hframe
          · rename_i frame hframe
            obtain rfl := Option.some.inj h
            have hwake := Channel.Same.wakeReceiver (.refl
              { s.chan c with queue := queue, replyBytes := (s.chan c).replyBytes - body.length })
            refine .on c <| .wrote t body queue n padding frame hpc hqueue
                (by simpa using hclosed) hn hframe
              (same_deliver (hwake.setDelivering _)) ?_ ?_ ?_
            · simp [Sys.writeNative]
            · exact Sys.native_writeNative E _ c n frame
            · exact Only.setCoro (Only.mark (Only.setNative (Only.setChan (Only.setChan
                (.refl _ _ _) _) _) _) _) (Or.inr hreq.symm)
  · obtain rfl := Option.some.inj h
    exact .quiet (Quiet.setCoro (.refl _) hreq.symm)
  · obtain rfl := Option.some.inj h
    exact .on c <| .drained t hpc (by simp)
      (same_set (.wakeReceiver (by constructor <;> rfl))) rfl rfl
      (honly _ rfl)
  · obtain rfl := Option.some.inj h
    exact .on c <| .drained t hpc (by simp) (same_set (.refl _)) rfl rfl (honly _ rfl)
  · obtain rfl := Option.some.inj h
    exact .on c <| .drained t hpc (by simp) (same_set (.refl _)) rfl rfl (honly _ rfl)
  · cases h

theorem move_bridgeStep {E : AesKeystream} {s s' : Sys} {t c : ℕ} {tasks : List ℕ}
    {pc : BridgePc} {i : Input} (hpc : s.coro t = .bridge c tasks pc)
    (h : bridgeStep E s t c tasks pc i = some s') : Move E s s' := by
  have hreq : (s.coro t).asRequest = none := by rw [hpc]; rfl
  have hstay : ∀ {k : Coro}, k.asRequest = none → Move E s (s.setCoro t k) := fun hk =>
    .quiet (Quiet.setCoro (.refl _) (hk.trans hreq.symm))
  unfold bridgeStep at h
  split at h
  · rw [Option.ite_none_right_eq_some] at h
    obtain rfl := Option.some.inj h.2
    exact .quiet (Quiet.setCoro (Quiet.cancelAll (.refl _) _) hreq.symm)
  · obtain rfl := Option.some.inj h
    exact .quiet (Quiet.setCoro (Quiet.cancelAll (.refl _) _) hreq.symm)
  · rename_i cancelled padding
    rw [Option.ite_none_left_eq_some] at h
    obtain ⟨-, h⟩ := h
    split_ifs at h with hcancelled
    · obtain rfl := Option.some.inj h
      exact hstay rfl
    · obtain rfl : cancelled = false := by simpa using hcancelled
      unfold Sys.reportError at h
      split at h
      · cases h
      · rename_i n hn
        simp only at h
        split at h
        · rename_i code frame hframe
          obtain rfl := Option.some.inj h
          simp only [Option.bind_eq_bind, Option.bind_eq_some_iff, Option.pure_def,
            Option.some.injEq, Prod.mk.injEq] at hframe
          obtain ⟨code', hcode, packed, hpacked, frame', hencode, rfl, rfl⟩ := hframe
          have hok : encodeReply packed n.tag padding = .ok frame' := by
            cases hres : encodeReply packed n.tag padding with
            | error _ => simp [hres, Except.toOption] at hencode
            | ok f => simpa [hres, Except.toOption] using hencode
          exact .on c <| .wroteError t tasks n code' packed padding frame' hpc (by simp)
              hcode hpacked hn
            hok (.refl _) (by simp [Sys.writeNative]) (Sys.native_writeNative E _ c n frame')
            (Only.setCoro (Only.mark (Only.setNative (.refl _ _ _) _) _) (Or.inr hreq.symm))
        · obtain rfl := Option.some.inj h
          exact hstay rfl
  · rw [Option.ite_none_right_eq_some] at h
    obtain rfl := Option.some.inj h.2
    exact hstay rfl
  · obtain rfl := Option.some.inj h
    exact hstay rfl
  · obtain rfl := Option.some.inj h
    exact hstay rfl
  · obtain rfl := Option.some.inj h
    exact hstay rfl
  · cases h

theorem move_uploadStep {E : AesKeystream} {s s' : Sys} {t c : ℕ} {i : Input}
    (hpc : s.coro t = .upload c) (h : uploadStep s t c i = some s') : Move E s s' := by
  have hreq : (s.coro t).asRequest = none := by rw [hpc]; rfl
  unfold uploadStep at h
  split at h
  · obtain rfl := Option.some.inj h
    exact .quiet (quiet_lock (.beginWait (.refl _) _ _) hreq.symm)
  · obtain rfl := Option.some.inj h
    exact .quiet (Quiet.setCoro (.refl _) hreq.symm)
  · obtain rfl := Option.some.inj h
    exact .quiet (Quiet.setCoro (.refl _) hreq.symm)
  · cases h

/-! ## Closing -/

/-- Where the loop of `close` stops: at a task that is still pending, or at its end. -/
lemma Sys.sweep_cases (s : Sys) (t c : ℕ) : ∀ rest : List ℕ,
    (∃ skipped task rest' length ch', rest = skipped ++ task :: rest' ∧
      (∀ u ∈ skipped, u ∉ (s.chan c).pending.keys) ∧
      (s.chan c).finishRequest task none = some (length, ch') ∧
      s.sweep t c rest = (s.setChan c ch').setCoro t (.close c (.releasing length rest'))) ∨
    (∀ u ∈ rest, u ∉ (s.chan c).pending.keys) ∧
      s.sweep t c rest = ((s.setChan c (s.chan c).clear).setLane
        { s.lane with channels := s.lane.channels.erase c }).setCoro t .done
  | [] => Or.inr ⟨fun _ h => absurd h List.not_mem_nil, rfl⟩
  | task :: rest => by
      cases hf : (s.chan c).finishRequest task none with
      | some r =>
          refine Or.inl ⟨[], task, rest, r.1, r.2, rfl, fun _ h =>
              absurd h List.not_mem_nil, hf, ?_⟩
          simp only [Sys.sweep, hf]
      | none =>
          have hnot : task ∉ (s.chan c).pending.keys := Channel.finishRequest_eq_none.mp hf
          have hsweep : s.sweep t c (task :: rest) = s.sweep t c rest := by
            simp only [Sys.sweep, hf]
          rw [hsweep]
          rcases s.sweep_cases t c rest with
            ⟨skipped, u, rest', length, ch', rfl, hskipped, hfinish, heq⟩ | ⟨hskipped, heq⟩
          · refine Or.inl ⟨task :: skipped, u, rest', length, ch', rfl, ?_, hfinish, heq⟩
            intro v hv
            rcases List.mem_cons.mp hv with rfl | hv
            · exact hnot
            · exact hskipped v hv
          · refine Or.inr ⟨fun v hv => ?_, heq⟩
            rcases List.mem_cons.mp hv with rfl | hv
            · exact hnot
            · exact hskipped v hv

lemma move_sweep {E : AesKeystream} {s : Sys} {t c : ℕ} {rest : List ℕ} {ch : Channel}
    (hreq : (s.coro t).asRequest = none) (hsweep : Sweeping s t c rest)
    (hch : (s.chan c).Same ch) : Move E s ((s.setChan c ch).sweep t c rest) := by
  have hkeys : ch.pending = (s.chan c).pending := hch.pending
  rcases (s.setChan c ch).sweep_cases t c rest with
    ⟨skipped, task, rest', length, ch', hrest, hskipped, hfinish, heq⟩ | ⟨hskipped, heq⟩
  · simp only [Sys.setChan_chan, Function.update_self, hkeys] at hskipped hfinish
    rw [heq]
    exact .on c <| .swept t rest skipped task rest' length ch ch' hsweep hrest hskipped hch hfinish
      (same_set (.refl _)) rfl rfl
      (Only.setCoro (Only.setChan (Only.setChan (.refl _ _ _) _) _) (Or.inr hreq.symm))
  · simp only [Sys.setChan_chan, Function.update_self, hkeys] at hskipped
    rw [heq]
    refine .on c <| .cleared t rest hsweep hskipped ?_ rfl rfl
      (Only.setCoro (Only.setLane (Only.setChan (Only.setChan (.refl _ _ _) _) _) _)
        (Or.inr hreq.symm))
    simp only [Sys.setCoro_chan, Sys.setLane_chan, Sys.setChan_chan, Function.update_self]
    constructor <;> simp only [Channel.clear, hch.closed, hch.transportError, hch.pending,
      hch.pendingSince, hch.pendingBytes, hch.replyBytes, hch.queue, hch.requests,
      hch.receivingTasks, hch.deliveringSince, hch.replayKey]

theorem move_closeStep {E : AesKeystream} {s s' : Sys} {t c : ℕ} {pc : ClosePc} {i : Input}
    (hpc : s.coro t = .close c pc) (h : closeStep s t c pc i = some s') : Move E s s' := by
  have hreq : (s.coro t).asRequest = none := by rw [hpc]; rfl
  have hstay : ∀ {k : Coro}, k.asRequest = none → Move E s (s.setCoro t k) := fun hk =>
    .quiet (Quiet.setCoro (.refl _) (hk.trans hreq.symm))
  have habort : Move E s (s.abortClose t c) :=
    .quiet (quiet_lock (.setCloseLock (.refl _) _) hreq.symm)
  unfold closeStep at h
  split at h
  · simp only at h
    split_ifs at h
    · obtain rfl := Option.some.inj h
      exact hstay rfl
    · obtain rfl := Option.some.inj h
      exact .on c <| .closing _ (same_close (by constructor <;> rfl))
          (fun _ => by simp) (by simp) rfl
        (Only.setCoro (Only.cancelAll (Only.mark (Only.setChan (.refl _ _ _) _) _) _)
          (Or.inr hreq.symm))
  · obtain rfl := Option.some.inj h
    exact hstay rfl
  · rename_i tasks
    rw [Option.ite_none_right_eq_some] at h
    obtain ⟨hdone, h⟩ := h
    obtain rfl := Option.some.inj h
    have hmove := move_sweep (E := E) hreq (Or.inl ⟨tasks, hpc, hdone, rfl⟩) (.refl (s.chan c))
    simpa [Sys.setChan] using hmove
  · rw [Option.ite_none_right_eq_some] at h
    obtain rfl := Option.some.inj h.2
    exact habort
  · rw [Option.ite_none_right_eq_some] at h
    obtain rfl := Option.some.inj h.2
    exact .quiet (Quiet.setCoro (Quiet.setLane (.refl _) _) hreq.symm)
  · obtain rfl := Option.some.inj h
    exact habort
  · rw [Option.ite_none_right_eq_some] at h
    obtain rfl := Option.some.inj h.2
    exact move_sweep hreq (Or.inr hpc) (.wakeReceiver (.refl _))
  · obtain rfl := Option.some.inj h
    exact habort
  · cases h

theorem move_closeLaneStep {E : AesKeystream} {s s' : Sys} {t : ℕ} {pc : CloseLanePc} {i : Input}
    (halloc : Allocated s) (hpc : s.coro t = .closeLane pc) (h : closeLaneStep s t pc i = some s') :
    Move E s s' := by
  have hlt : t < s.nextTask := halloc.lt (by simp [hpc])
  have hreq : (s.coro t).asRequest = none := by rw [hpc]; rfl
  have hstay : ∀ {k : Coro}, k.asRequest = none → Move E s (s.setCoro t k) := fun hk =>
    .quiet (Quiet.setCoro (.refl _) (hk.trans hreq.symm))
  unfold closeLaneStep at h
  split at h
  · rename_i order
    rw [Option.ite_none_right_eq_some] at h
    obtain rfl := Option.some.inj h.2
    refine .quiet (Quiet.setCoro (halloc.quiet_spawn fun k hk => ?_) ?_)
    · obtain ⟨c, -, rfl⟩ := List.mem_map.mp hk
      rfl
    · rw [Sys.spawn_coro_of_lt hlt, hreq]
      rfl
  · obtain rfl := Option.some.inj h
    exact hstay rfl
  all_goals first
    | (rw [Option.ite_none_right_eq_some] at h
       obtain rfl := Option.some.inj h.2
       exact hstay rfl)
    | cases h

/-! ## Every step -/

theorem move_coroStep {E : AesKeystream} {s s' : Sys} {t : ℕ} {i : Input} (halloc : Allocated s)
    (h : coroStep E s t i = some s') : Move E s s' := by
  unfold coroStep at h
  split at h
  · exact move_sendStep halloc ‹_› h
  · exact move_uploadStep ‹_› h
  · exact move_downloadStep ‹_› h
  · exact move_recoverStep ‹_› h
  · exact move_requestStep ‹_› h
  · exact move_bridgeStep ‹_› h
  · exact move_closeStep ‹_› h
  · exact move_closeLaneStep halloc ‹_› h
  · cases h

/-- A coroutine runs; when it is cancelled the request to cancel it is spent. -/
lemma coroStep_of_run {E : AesKeystream} {s s' : Sys} {t : ℕ} {i : Input}
    (h : step E (.run t i) s = some s') :
    ∃ cancelling, coroStep E { s with cancelling := cancelling } t i = some s' := by
  cases i with
  | cancelled =>
      rw [step, Option.ite_none_right_eq_some] at h
      exact ⟨_, h.2⟩
  | _ => exact ⟨s.cancelling, h⟩

lemma bridgeTasks_asRequest (c t : ℕ) : ∀ k ∈ [Coro.upload c, .download c .dequeuing,
    .recover c .sleeping, .bridge c [t, t + 1, t + 2] .waiting], k.asRequest = none := by
  simp [Coro.asRequest]

/-- **Every step is a move.** -/
theorem move_of_step {E : AesKeystream} {s s' : Sys} {e : Event} (halloc : Allocated s)
    (h : step E e s = some s') : Move E s s' := by
  cases e with
  | tick nanoseconds =>
      obtain rfl := Option.some.inj h
      exact .quiet ⟨fun _ => .refl _, rfl, rfl, fun _ => rfl⟩
  | openChannel =>
      obtain rfl := Option.some.inj h
      have honly : Only s.nextChan none s (s.setChan s.nextChan { lastProgress := s.clock }) :=
        Only.setChan (.refl _ _ _) _
      refine .on s.nextChan <| .opened rfl ?_ rfl rfl
          ⟨honly.chan, honly.log, honly.native, honly.req⟩
      simp only [Sys.setLane_chan, Sys.setChan_chan, Function.update_self]
      constructor <;> rfl
  | bridge c tag cltEnc =>
      rw [step, Option.ite_none_right_eq_some] at h
      obtain ⟨⟨-, hnone⟩, h⟩ := h
      obtain rfl := Option.some.inj h
      have hquiet := Allocated.quiet_spawn (s := s.setNative c
        { tag := tag, given := cltEnc, cltEnc := cltEnc, first := s.nextTask }) ⟨halloc.coro⟩
        (bridgeTasks_asRequest c s.nextTask)
      exact .on c <| .bridged tag cltEnc (by simpa using hnone) (by simp) (.refl _) rfl
        (Only.quiet (Only.setNative (.refl _ _ _) _) hquiet)
  | send c body =>
      rw [step, Option.ite_none_right_eq_some] at h
      obtain rfl := Option.some.inj h.2
      exact .quiet (Quiet.trans (Quiet.setChan (.refl _) (.beginWait (.refl _) _ _))
        (Allocated.quiet_spawn (by exact ⟨halloc.coro⟩) (by simp [Coro.asRequest])))
  | close c =>
      rw [step, Option.ite_none_right_eq_some] at h
      obtain rfl := Option.some.inj h.2
      exact .quiet (halloc.quiet_spawn (by simp [Coro.asRequest]))
  | closeLane =>
      obtain rfl := Option.some.inj h
      exact .quiet (Quiet.trans (Quiet.setLane (.refl _) _)
        (Allocated.quiet_spawn (by exact ⟨halloc.coro⟩) (by simp [Coro.asRequest])))
  | cancel t =>
      rw [step, Option.ite_none_right_eq_some] at h
      obtain rfl := Option.some.inj h.2
      exact .quiet (Quiet.cancelAll (.refl _) _)
  | run t i =>
      obtain ⟨cancelling, h⟩ := coroStep_of_run h
      exact Move.of_with s.lane cancelling
        (move_coroStep ⟨halloc.coro⟩ h)
  | orphanOn t c =>
      rw [step, Option.ite_none_right_eq_some] at h
      obtain rfl := Option.some.inj h.2
      exact .quiet (Quiet.setChan (Quiet.orphans s _)
        (.setCapacity (.refl _) _))
  | orphan t =>
      rw [step, Option.ite_none_right_eq_some] at h
      obtain rfl := Option.some.inj h.2
      exact .quiet (Quiet.setLane (Quiet.orphans s _) _)

end TgWsProxy
