import TgWsProxy.H2.Lane.Replay
import TgWsProxy.H2.ReadPacket

/-!
# What the native client sends

The packets that `upload` of `bridge_h2` takes from a client's stream, on their way to the requests
that carry them, over a whole run.

* `SendTells` — a step of a sender adds to the history what it creates, and then leaves.
* `Clients` — a lane and the streams of its clients; `send` is called by nobody but `bridge_h2`.
* `Climbing` — the invariant: what was sent is what was taken, but for the packet that is on its
  way.
* **`Clients.Reaches.upstream`** — the native requests are the client's packets, in order and each
  of them once, and every request carries one of them.
-/

namespace TgWsProxy

open Wire

/-! ## Histories -/

/-- The packet of a native request. -/
def Mark.asNative : Mark → Option Bytes
  | native _ body _ => some body
  | _ => none

/-- The packets of the native requests, in the order in which these were created. -/
def posted (log : List Mark) : List Bytes := log.filterMap Mark.asNative

@[simp] lemma posted_append (log marks : List Mark) :
    posted (log ++ marks) = posted log ++ posted marks := List.filterMap_append

lemma posted_silent {log marks : List Mark} (h : ∀ m ∈ marks, ¬ m.Creates) :
    posted (log ++ marks) = posted log := by
  have hnone : posted marks = [] := List.filterMap_eq_nil_iff.mpr fun m hm => by
    cases m with
    | native time body task => exact absurd trivial (h _ hm)
    | _ => rfl
  rw [posted_append, hnone, List.append_nil]

lemma mem_posted {log : List Mark} {body : Bytes} :
    body ∈ posted log ↔ ∃ time task, Mark.native time body task ∈ log := by
  constructor
  · intro h
    obtain ⟨m, hm, hbody⟩ := List.mem_filterMap.mp h
    cases m with
    | native time body' task =>
        obtain rfl := Option.some.inj hbody
        exact ⟨time, task, hm⟩
    | _ => cases hbody
  · rintro ⟨time, task, hm⟩
    exact List.mem_filterMap.mpr ⟨_, hm, rfl⟩

/-! ## Senders -/

/-- Where the caller of `send` is when `send` is left. -/
def Caller.Back (caller : Caller) (exit : SendExit) (c : ℕ) (k : Coro) : Prop :=
  caller = .upload → k = match exit with
    | .returned => .upload c
    | .raised => .done

/-- What a step of a sender says: nothing while it waits and where it gives up, else the mark of the
request it has created. -/
inductive SendTells (s s' : Sys) (t c : ℕ) (caller : Caller) (body : Bytes) (pc : SendPc) : Prop
  | waits (pc' : SendPc) (hcoro : s'.coro t = .send c caller body pc')
      (hexit : caller.replay = false → ∀ length, pc' ≠ .releasing length .returned)
      (hlog : s'.log = s.log)
  | leaves (exit : SendExit) (hback : caller.Back exit c (s'.coro t))
      (hexit : caller.replay = false → exit = .returned →
        ∃ length, pc = .releasing length .returned)
      (hlog : s'.log = s.log)
  | creates (m : Mark) (hback : caller.Back .returned c (s'.coro t))
      (hnative : caller.replay = false → m.asNative = some body)
      (hreplay : caller.replay = true → m.asNative = none)
      (hlog : s'.log = Function.update s.log c (s.log c ++ [m]))

section Send

variable {s s₁ : Sys} {t c : ℕ} {caller : Caller} {body : Bytes} {pc pc' : SendPc}

lemma back_afterSend (exit : SendExit) :
    caller.Back exit c ((s₁.afterSend t c caller exit).coro t) := by
  rintro rfl
  cases exit <;> simp [Sys.afterSend]

lemma back_leaveSend (exit : SendExit) :
    caller.Back exit c ((s₁.leaveSend t c caller exit).coro t) :=
  back_afterSend exit

@[simp] lemma Sys.log_afterSend (s : Sys) (t c : ℕ) (caller : Caller) (exit : SendExit) :
    (s.afterSend t c caller exit).log = s.log := by
  unfold Sys.afterSend Sys.loopRecover
  split <;> rfl

@[simp] lemma Sys.log_leaveSend (s : Sys) (t c : ℕ) (caller : Caller) (exit : SendExit) :
    (s.leaveSend t c caller exit).log = s.log :=
  Sys.log_afterSend _ t c caller exit

lemma tells_leaveSend {exit : SendExit} (hlog : s₁.log = s.log)
    (hexit : caller.replay = false → exit = .returned →
      ∃ length, pc = .releasing length .returned) :
    SendTells s (s₁.leaveSend t c caller exit) t c caller body pc :=
  .leaves exit (back_leaveSend exit) hexit (by rw [Sys.log_leaveSend, hlog])

lemma tells_stay (hlog : s₁.log = s.log)
    (hexit : caller.replay = false → ∀ length, pc' ≠ .releasing length .returned) :
    SendTells s (s₁.setCoro t (.send c caller body pc')) t c caller body pc :=
  .waits pc' (by simp) hexit hlog

lemma tells_passChannel (hlog : s₁.log = s.log) :
    SendTells s (s₁.passChannel t c caller body) t c caller body pc := by
  rw [Sys.passChannel]
  split_ifs
  · exact tells_leaveSend hlog (by rintro - ⟨⟩)
  · exact tells_stay hlog (by rintro - length ⟨⟩)
  · exact tells_stay hlog (by rintro - length ⟨⟩)

/-- A request is created, or the reservation is given back. -/
lemma tells_enter (hlog : s₁.log = s.log) :
    SendTells s (s₁.enter t c caller body) t c caller body pc := by
  have hrelease : ∀ exit, (caller.replay = false → exit ≠ .returned) → SendTells s
      (s₁.setCoro t (.send c caller body (.releasing body.length exit))) t c caller body pc :=
    fun exit hexit => tells_stay hlog fun hnot length heq => hexit hnot (SendPc.releasing.inj heq).2
  rw [Sys.enter]
  dsimp only
  split_ifs with hclosed hreplay
  · exact hrelease _ (by rintro - ⟨⟩)
  · have hany : ∀ exit, caller.replay = false → exit ≠ SendExit.returned := by
      intro exit hnot
      rw [hreplay] at hnot
      cases hnot
    split
    · next entry _ =>
        split_ifs
        · refine .creates (.replay s₁.clock entry.sequence body s₁.nextTask) (back_leaveSend _)
            (fun hnot => absurd rfl (hany .returned hnot)) (fun _ => rfl) ?_
          rw [Sys.log_leaveSend, ← hlog]
          rfl
        · exact hrelease _ (hany _)
    · exact hrelease _ (hany _)
  · refine .creates (.native s₁.clock body s₁.nextTask) (back_leaveSend _) (fun _ => rfl)
      (fun hyes => absurd hyes hreplay) ?_
    rw [Sys.log_leaveSend, ← hlog]
    rfl

lemma tells_reserve (hlog : s₁.log = s.log) :
    SendTells s (s₁.reserve t c caller body) t c caller body pc := by
  rw [Sys.reserve]
  split_ifs
  · exact tells_leaveSend hlog (by rintro - ⟨⟩)
  · exact tells_enter hlog

lemma tells_reserveUnlocked {length : ℕ} (hlog : s₁.log = s.log) :
    SendTells s (s₁.reserveUnlocked t c caller length) t c caller body pc := by
  rw [Sys.reserveUnlocked]
  split_ifs
  · exact tells_leaveSend hlog (by rintro - ⟨⟩)
  · exact tells_leaveSend hlog (by rintro - ⟨⟩)

/-- **What a step of a sender says.** -/
theorem send_tells {s' : Sys} {i : Input} (h : sendStep s t c caller body pc i = some s') :
    SendTells s s' t c caller body pc := by
  unfold sendStep at h
  split at h
  · rw [Option.ite_none_right_eq_some] at h
    obtain rfl := Option.some.inj h.2
    exact tells_stay rfl (by rintro - length ⟨⟩)
  · obtain rfl := Option.some.inj h
    exact .leaves .raised (back_afterSend _) (by rintro - ⟨⟩) (Sys.log_afterSend _ t c caller _)
  · dsimp only at h
    split_ifs at h with hlock hreplay hroom
    all_goals obtain rfl := Option.some.inj h
    · exact tells_passChannel rfl
    · exact tells_leaveSend rfl fun hnot => absurd (hnot.symm.trans hreplay) Bool.false_ne_true
    · exact tells_stay rfl (by rintro - length ⟨⟩)
  · dsimp only at h
    split_ifs at h
    all_goals obtain rfl := Option.some.inj h
    · exact tells_stay rfl (by rintro - length ⟨⟩)
    · exact tells_stay rfl (by rintro - length ⟨⟩)
    · exact tells_stay rfl (by rintro - length ⟨⟩)
  · rw [Option.ite_none_right_eq_some] at h
    obtain rfl := Option.some.inj h.2
    exact tells_stay rfl (by rintro - length ⟨⟩)
  · dsimp only at h
    split_ifs at h
    all_goals obtain rfl := Option.some.inj h
    · exact tells_leaveSend rfl (by rintro - ⟨⟩)
    · exact tells_passChannel rfl
  · rw [Option.ite_none_right_eq_some] at h
    obtain rfl := Option.some.inj h.2
    exact tells_stay rfl (by rintro - length ⟨⟩)
  · obtain rfl := Option.some.inj h
    exact tells_leaveSend rfl (by rintro - ⟨⟩)
  · obtain rfl := Option.some.inj h
    exact tells_leaveSend rfl (by rintro - ⟨⟩)
  · split_ifs at h
    all_goals obtain rfl := Option.some.inj h
    · exact tells_stay rfl (by rintro - length ⟨⟩)
    · exact tells_leaveSend rfl (by rintro - ⟨⟩)
  · split_ifs at h with hlock hreplay hroom
    all_goals obtain rfl := Option.some.inj h
    · exact tells_reserve rfl
    · exact tells_leaveSend rfl fun hnot => absurd (hnot.symm.trans hreplay) Bool.false_ne_true
    · exact tells_stay rfl (by rintro - length ⟨⟩)
  · split_ifs at h
    all_goals obtain rfl := Option.some.inj h
    · exact tells_stay rfl (by rintro - length ⟨⟩)
    · exact tells_stay rfl (by rintro - length ⟨⟩)
    · exact tells_stay rfl (by rintro - length ⟨⟩)
  · rw [Option.ite_none_right_eq_some] at h
    obtain rfl := Option.some.inj h.2
    exact tells_stay rfl (by rintro - length ⟨⟩)
  · split_ifs at h
    all_goals obtain rfl := Option.some.inj h
    · exact tells_reserveUnlocked rfl
    · exact tells_reserve rfl
  · rw [Option.ite_none_right_eq_some] at h
    obtain rfl := Option.some.inj h.2
    exact tells_stay rfl (by rintro - length ⟨⟩)
  · obtain rfl := Option.some.inj h
    exact tells_leaveSend rfl (by rintro - ⟨⟩)
  · obtain rfl := Option.some.inj h
    exact tells_leaveSend rfl (by rintro - ⟨⟩)
  · split_ifs at h
    all_goals obtain rfl := Option.some.inj h
    · exact tells_stay rfl (by rintro - length ⟨⟩)
    · exact tells_leaveSend rfl (by rintro - ⟨⟩)
  · rw [Option.ite_none_right_eq_some] at h
    obtain rfl := Option.some.inj h.2
    refine tells_leaveSend rfl fun _ hexit => ?_
    rw [hexit]
    exact ⟨_, rfl⟩
  all_goals first
    | (obtain rfl := Option.some.inj h
       exact tells_leaveSend rfl (by rintro - ⟨⟩))
    | cases h

end Send

/-! ## The upload of a channel -/

/-- A native request is created by a sender of its channel, and nobody else adds to the packets. -/
lemma sender_of_posted {E : AesKeystream} {s s' : Sys} {e : Event} (h : Reaches E s)
    (hs : step E e s = some s') (c : ℕ) : posted (s'.log c) = posted (s.log c) ∨
      ∃ t i caller body pc, e = .run t i ∧ s.coro t = .send c caller body pc := by
  have hone : ∀ {m : Mark}, m.asNative = none → s'.log c = s.log c ++ [m] →
      posted (s'.log c) = posted (s.log c) := by
    intro m hm hlog
    rw [hlog, posted_append, posted, posted, List.filterMap_cons_none hm]
    exact List.append_nil _
  have hsame : s'.log = s.log → posted (s'.log c) = posted (s.log c) := fun hlog => by rw [hlog]
  rcases stays_or_on h.formed.toAllocated (h.move hs) c with hst | hmv
  · exact Or.inl (by rw [hst.log])
  cases hmv with
  | native t caller body pc hpc hadm hleft =>
      refine Or.inr ?_
      have hlt : t < s.nextTask := by
        by_contra hnew
        rw [h.formed.coro t (not_lt.mp hnew)] at hpc
        cases hpc
      have hmover : some t = e.mover := by
        by_contra hnot
        exact hleft ((h.turn hs).coro t hnot hlt)
      cases e with
      | run u i =>
          obtain rfl : t = u := Option.some.inj hmover
          exact ⟨t, i, caller, body, pc, rfl, hpc⟩
      | _ => cases hmover
  | replay _ _ _ _ _ _ _ _ _ _ _ _ _ hlog => exact Or.inl (hone rfl hlog)
  | ended _ _ _ _ _ _ _ _ _ _ _ hlog =>
      refine Or.inl ?_
      rw [hlog]
      exact posted_silent (not_creates_settle _ _ _ _)
  | closing _ _ _ hlog => exact Or.inl (hone rfl hlog)
  | wrote _ _ _ _ _ _ _ _ _ _ _ _ hlog => exact Or.inl (hone rfl hlog)
  | wroteError _ _ _ _ _ _ _ _ _ _ _ _ _ _ hlog => exact Or.inl (hone rfl hlog)
  | opened _ _ hlog => exact Or.inl (hsame hlog)
  | bridged _ _ _ _ _ hlog => exact Or.inl (hsame hlog)
  | advance _ _ _ _ _ _ _ _ hlog => exact Or.inl (hsame hlog)
  | uploaded _ _ _ _ _ _ _ hlog => exact Or.inl (hsame hlog)
  | received _ _ _ _ _ _ _ _ _ _ _ hlog => exact Or.inl (hsame hlog)
  | swept _ _ _ _ _ _ _ _ _ _ _ _ _ _ hlog => exact Or.inl (hsame hlog)
  | cleared _ _ _ _ _ hlog => exact Or.inl (hsame hlog)
  | rotated _ _ _ hlog => exact Or.inl (hsame hlog)
  | dropped _ _ _ _ _ hlog => exact Or.inl (hsame hlog)
  | drained _ _ _ _ hlog => exact Or.inl (hsame hlog)

/-- Every request of a channel carries a packet that was posted. -/
theorem Reaches.request_posted {E : AesKeystream} {s : Sys} (h : Reaches E s) (c : ℕ) :
    ∀ u info pc, s.req u = some (c, info, pc) → info.body ∈ posted (s.log c) := by
  refine h.invariant (P := fun s => ∀ c u info pc, s.req u = some (c, info, pc) →
    info.body ∈ posted (s.log c)) ?_ ?_ c
  · rintro s ⟨clock, debug, -, rfl⟩ c u info pc hu
    cases hu
  · intro s e s' hr hall _ hs c u info pc hu
    have hkeep : ∀ marks, s'.log c = s.log c ++ marks → ∀ body ∈ posted (s.log c),
        body ∈ posted (s'.log c) := by
      intro marks hlog body hbody
      rw [hlog, posted_append]
      exact List.mem_append_left _ hbody
    have hold : ∀ {marks}, s'.log c = s.log c ++ marks → Only c (some s.nextTask) s s' →
        u ≠ s.nextTask → info.body ∈ posted (s'.log c) := by
      intro marks hlog honly hne
      rw [honly.req u (by simpa using hne)] at hu
      exact hkeep _ hlog _ (hall c u info pc hu)
    cases Reaches.packing hr hs c with
    | ages v marks hlog hmarks hages hreq =>
        obtain ⟨pc₀, hu₀, -⟩ := hreq u info pc hu
        exact hkeep _ hlog _ (hall c u info pc₀ hu₀)
    | native body hopen hchan hreq hlog honly =>
        by_cases hne : u = s.nextTask
        · subst hne
          rw [hreq] at hu
          cases hu
          rw [hlog, posted_append]
          exact List.mem_append_right _ (List.mem_singleton_self _)
        · exact hold hlog honly hne
    | replay packet hopen hfind hpending hdue hchan hreq hlog honly =>
        by_cases hne : u = s.nextTask
        · subst hne
          rw [hreq] at hu
          cases hu
          obtain ⟨task, hmem⟩ := (Reaches.logged hr c).sent packet (List.mem_of_find?_eq_some hfind)
          exact hkeep _ hlog _ (mem_posted.mpr ⟨_, task, hmem⟩)
        · exact hold hlog honly hne

/-- A step, as the upload of the channel `c` sees it. -/
inductive UploadTurn (e : Event) (c : ℕ) (s s' : Sys) : Prop
  /-- It is somebody else's. -/
  | still (hnot : ∀ t i, e = .run t i → (s.coro t).station ≠ some (c, 0))
      (hcoro : ∀ t, (s'.coro t).station = some (c, 0) →
        s'.coro t = s.coro t ∨ s'.coro t = .upload c ∧ s.native c = none)
      (hposted : posted (s'.log c) = posted (s.log c))
  /-- A packet is taken from the client. -/
  | took (t : ℕ) (body : Bytes) (he : e = .run t (.packet body)) (hcoro : s.coro t = .upload c)
      (hcoro' : s'.coro t = .send c .upload body .sendLock)
      (hposted : posted (s'.log c) = posted (s.log c))
  /-- Its packet goes on. -/
  | waits (t : ℕ) (body : Bytes) (pc pc' : SendPc) (i : Input) (he : e = .run t i)
      (hcoro : s.coro t = .send c .upload body pc)
      (hcoro' : s'.coro t = .send c .upload body pc')
      (hpc' : ∀ length, pc' ≠ .releasing length .returned)
      (hposted : posted (s'.log c) = posted (s.log c))
  /-- Its packet is sent. -/
  | sent (t : ℕ) (body : Bytes) (pc : SendPc) (i : Input) (he : e = .run t i)
      (hcoro : s.coro t = .send c .upload body pc)
      (hcoro' : s'.coro t = .upload c) (hposted : posted (s'.log c) = posted (s.log c) ++ [body])
  /-- It ends. -/
  | ended (t : ℕ) (i : Input) (he : e = .run t i) (hpacket : ∀ body, i ≠ .packet body)
      (hcoro : (s.coro t).station = some (c, 0)) (hcoro' : s'.coro t = .done)
      (hposted : posted (s'.log c) = posted (s.log c))

/-- A task that is the upload of the channel. -/
lemma Coro.upload_of_station {k : Coro} {c : ℕ} (h : k.station = some (c, 0)) :
    k = .upload c ∨ ∃ body pc, k = .send c .upload body pc := by
  cases k with
  | upload c' =>
      cases h
      exact Or.inl rfl
  | send c' caller body pc =>
      cases caller with
      | upload =>
          cases h
          exact Or.inr ⟨body, pc, rfl⟩
      | native | recover => cases h
  | _ => cases h

/-- A step of somebody else's adds no packet. -/
lemma posted_of_not_upload {E : AesKeystream} {s s' : Sys} {e : Event} {c : ℕ} (h : Reaches E s)
    (hs : step E e s = some s') (hno : ∀ t, (s.coro t).kind ≠ .sender)
    (hnot : ∀ t i, e = .run t i → (s.coro t).station ≠ some (c, 0)) :
    posted (s'.log c) = posted (s.log c) := by
  rcases sender_of_posted h hs c with hsame | ⟨t, i, caller, body, pc, rfl, hcoro⟩
  · exact hsame
  cases caller with
  | native => exact absurd (by rw [hcoro]; rfl) (hno t)
  | upload => exact absurd (by rw [hcoro]; rfl) (hnot t i rfl)
  | recover =>
      -- a replay is no native request
      obtain ⟨cancelling, hstep⟩ := coroStep_of_run hs
      simp only [coroStep, hcoro] at hstep
      cases send_tells hstep with
      | waits pc' hcoro' hexit hlog => rw [hlog]
      | leaves exit hback hexit hlog => rw [hlog]
      | creates m hback hnative hreplay hlog =>
          rw [hlog, Function.update_self, posted_append, posted, posted,
            List.filterMap_cons_none (hreplay rfl)]
          exact List.append_nil _

/-- **Every step is one of these.** -/
theorem upload_turn {E : AesKeystream} {s s' : Sys} {e : Event} {c : ℕ} (h : Reaches E s)
    (hs : step E e s = some s') (hno : ∀ t, (s.coro t).kind ≠ .sender)
    (hpc : ∀ t body pc, s.coro t = .send c .upload body pc →
      ∀ length, pc ≠ .releasing length .returned) : UploadTurn e c s s' := by
  by_cases hmine : ∃ t i, e = .run t i ∧ (s.coro t).station = some (c, 0)
  · obtain ⟨t, i, rfl, hstation⟩ := hmine
    obtain ⟨cancelling, hstep⟩ := coroStep_of_run hs
    rcases Coro.upload_of_station hstation with hcoro | ⟨body, pc, hcoro⟩
    · simp only [coroStep, hcoro] at hstep
      cases i with
      | packet body =>
          obtain rfl := Option.some.inj hstep
          exact .took t body rfl hcoro (by simp) rfl
      | broken =>
          obtain rfl := Option.some.inj hstep
          exact .ended t _ rfl (by rintro body ⟨⟩) hstation (by simp) rfl
      | cancelled =>
          obtain rfl := Option.some.inj hstep
          exact .ended t _ rfl (by rintro body ⟨⟩) hstation (by simp) rfl
      | _ => cases hstep
    · have hpacket : ∀ body', i ≠ .packet body' := by
        rintro body' rfl
        simp only [coroStep, hcoro] at hstep
        cases pc with
        | capacityWait w => cases w <;> simp [sendStep] at hstep
        | laneWait w => cases w <;> simp [sendStep] at hstep
        | _ => cases hstep
      simp only [coroStep, hcoro] at hstep
      cases send_tells hstep with
      | waits pc' hcoro' hexit hlog =>
          exact .waits t body pc pc' i rfl hcoro hcoro' (hexit rfl) (by rw [hlog])
      | leaves exit hback hexit hlog =>
          cases exit with
          | returned =>
              obtain ⟨length, heq⟩ := hexit rfl rfl
              exact absurd heq (hpc t body pc hcoro length)
          | raised => exact .ended t i rfl hpacket hstation (hback rfl) (by rw [hlog])
      | creates m hback hnative hreplay hlog =>
          refine .sent t body pc i rfl hcoro (hback rfl) ?_
          rw [hlog, Function.update_self, posted_append, posted, posted,
            List.filterMap_cons_some (hnative rfl)]
          rfl
  · have hnot : ∀ t i, e = .run t i → (s.coro t).station ≠ some (c, 0) :=
      fun t i he hstation => hmine ⟨t, i, he, hstation⟩
    refine .still hnot (fun t hstation => ?_) (posted_of_not_upload h hs hno hnot)
    rcases station_of_step h hs hstation with hold | ⟨hnew, hnone, -⟩
    · refine Or.inl ((h.turn hs).coro t (fun hmover => ?_) ?_)
      · cases e with
        | run u i => exact hnot u i rfl (Option.some.inj hmover ▸ hold)
        | _ => cases hmover
      · by_contra hnew
        rw [h.formed.coro t (not_lt.mp hnew)] at hold
        cases hold
    · refine Or.inr ⟨?_, hnone⟩
      have hborn := (h.turn hs).born t hnew
      rcases Coro.upload_of_station hstation with hcoro | ⟨body, pc, hcoro⟩
      · exact hcoro
      · rw [hcoro] at hborn
        cases hborn.1

/-! ## Clients -/

/-- A lane, what its clients have still to be read of, and what has been read of them. -/
structure Clients where
  sys : Sys
  reader : ℕ → Reader
  taken : ℕ → List Bytes

/-- What `upload` reads in a row. -/
inductive Took (E : AesKeystream) (tag : Bytes) (r₀ : Reader) : List Bytes → Reader → Prop
  | nothing : Took E tag r₀ [] r₀
  | packet {bodies : List Bytes} {r r' : Reader} {body : Bytes} {quick : Bool}
      (h : Took E tag r₀ bodies r) (hread : readPacket E tag r = (.ok (body, quick), r')) :
      Took E tag r₀ (bodies ++ [body]) r'

namespace Clients

/-- Clients that will send these streams. -/
def start (clock : ℤ) (debug : Bool) (reader : ℕ → Reader) : Clients :=
  ⟨Sys.start clock debug, reader, fun _ => []⟩

/-- `await _read_packet(reader, ctx.clt_dec, tag)` of the upload of `c` returns `body`. -/
def take (E : AesKeystream) (s : Clients) (c : ℕ) (body : Bytes) : Option Clients :=
  (s.sys.native c).bind fun n =>
    match readPacket E n.tag (s.reader c) with
    | (.ok (read, _), reader) =>
        if read = body then
          some { s with
            reader := Function.update s.reader c reader
            taken := Function.update s.taken c (s.taken c ++ [body]) }
        else none
    | (.error _, _) => none

/-- A step of the lane.  A packet that `upload` gets is the client's next one, and nobody but
`bridge_h2` calls `send`. -/
def step (E : AesKeystream) (e : Event) (s : Clients) : Option Clients :=
  (TgWsProxy.step E e s.sys).bind fun sys =>
    match e with
    | .send _ _ => none
    | .run t (.packet body) =>
        match s.sys.coro t with
        | .upload c => (s.take E c body).map fun s => { s with sys }
        | _ => none
    | _ => some { s with sys }

/-- The states that are reached from clients that will send these streams. -/
abbrev Reaches (E : AesKeystream) (reader : ℕ → Reader) (s : Clients) : Prop :=
  Reachable (fun s => ∃ clock debug, 0 < clock ∧ s = start clock debug reader) (step E) Always s

/-- What a step does to the streams. -/
inductive StepOf (E : AesKeystream) (e : Event) (s s' : Clients) : Prop
  | lane (hpacket : ∀ t body, e ≠ .run t (.packet body)) (hsend : ∀ c body, e ≠ .send c body)
      (hreader : s'.reader = s.reader) (htaken : s'.taken = s.taken)
  | packet (t c : ℕ) (body : Bytes) (n : Native) (quick : Bool) (reader : Reader)
      (he : e = .run t (.packet body)) (hcoro : s.sys.coro t = .upload c)
      (hn : s.sys.native c = some n)
      (hread : readPacket E n.tag (s.reader c) = (.ok (body, quick), reader))
      (hreader : s'.reader = Function.update s.reader c reader)
      (htaken : s'.taken = Function.update s.taken c (s.taken c ++ [body]))

variable {E : AesKeystream} {reader₀ : ℕ → Reader} {s s' : Clients} {e : Event} {c : ℕ}

lemma take_eq_some {body : Bytes} (h : s.take E c body = some s') :
    ∃ n quick reader, s.sys.native c = some n ∧
      readPacket E n.tag (s.reader c) = (.ok (body, quick), reader) ∧
      s'.reader = Function.update s.reader c reader ∧
      s'.taken = Function.update s.taken c (s.taken c ++ [body]) := by
  obtain ⟨n, hn, h⟩ := Option.bind_eq_some_iff.mp h
  split at h
  · next read quick reader hread =>
      split_ifs at h with heq
      obtain rfl := Option.some.inj h
      exact ⟨n, quick, reader, hn, heq ▸ hread, rfl, rfl⟩
  · cases h

/-- A step of the clients is one of the lane. -/
lemma stepOf (h : step E e s = some s') :
    TgWsProxy.step E e s.sys = some s'.sys ∧ StepOf E e s s' := by
  obtain ⟨sys, hsys, h⟩ := Option.bind_eq_some_iff.mp h
  cases e with
  | send c' body => cases h
  | run t i =>
      cases i with
      | packet body =>
          dsimp only at h
          split at h
          · next c hcoro =>
              obtain ⟨s₁, htake, rfl⟩ := Option.map_eq_some_iff.mp h
              obtain ⟨n, quick, reader, hn, hread, hreader, htaken⟩ := take_eq_some htake
              exact ⟨hsys, .packet t c body n quick reader rfl hcoro hn hread hreader htaken⟩
          · cases h
      | _ =>
          obtain rfl := Option.some.inj h
          exact ⟨hsys, .lane (by rintro t body ⟨⟩) (by rintro c body ⟨⟩) rfl rfl⟩
  | _ =>
      obtain rfl := Option.some.inj h
      exact ⟨hsys, .lane (by rintro t body ⟨⟩) (by rintro c body ⟨⟩) rfl rfl⟩

/-- A run of the clients is one of the lane. -/
lemma Reaches.sys (h : Reaches E reader₀ s) : TgWsProxy.Reaches E s.sys := by
  refine h.invariant (P := fun s => TgWsProxy.Reaches E s.sys) ?_ ?_
  · rintro s ⟨clock, debug, hpos, rfl⟩
    exact .start ⟨clock, debug, hpos, rfl⟩
  · intro s e s' _ hsys _ hstep
    exact .step e hsys trivial (stepOf hstep).1

/-- Nobody has called `send` on his own. -/
lemma Reaches.no_sender (h : Reaches E reader₀ s) : ∀ t, (s.sys.coro t).kind ≠ .sender := by
  refine h.invariant (P := fun s => ∀ t, (s.sys.coro t).kind ≠ .sender) ?_ ?_
  · rintro s ⟨clock, debug, -, rfl⟩ t ⟨⟩
  · intro s e s' hr hno _ hstep t hkind
    obtain ⟨hs, hof⟩ := stepOf hstep
    have hturn := (Reaches.sys hr).turn hs
    by_cases hnew : s.sys.nextTask ≤ t
    · have hspawned : ∀ {sys : Sys} {ks : List Coro}, s'.sys = sys.spawn ks →
          sys.nextTask = s.sys.nextTask → (∀ k ∈ ks, k.kind ≠ .sender) → False := by
        intro sys ks heq hnext hks
        rw [heq, Sys.spawn_coro, hnext, if_neg (not_lt.mpr hnew)] at hkind
        by_cases hlt : t - s.sys.nextTask < ks.length
        · rw [List.getD_eq_getElem _ _ hlt] at hkind
          exact hks _ (List.getElem_mem hlt) hkind
        · rw [List.getD_eq_default _ _ (not_lt.mp hlt)] at hkind
          cases hkind
      have hunborn : s'.sys.coro t ≠ s.sys.coro t := by
        intro hsame
        rw [hsame, (Reaches.sys hr).formed.coro t hnew] at hkind
        cases hkind
      cases e with
      | tick nanoseconds =>
          rw [← Option.some.inj hs] at hunborn
          exact hunborn rfl
      | openChannel =>
          rw [← Option.some.inj hs] at hunborn
          exact hunborn rfl
      | bridge c' tag cltEnc =>
          rw [TgWsProxy.step, Option.ite_none_right_eq_some] at hs
          exact hspawned (Option.some.inj hs.2).symm rfl (by simp [Coro.kind])
      | send c' body =>
          cases hof with
          | lane _ hsend => exact hsend c' body rfl
          | packet _ _ _ _ _ _ he => cases he
      | close c' =>
          rw [TgWsProxy.step, Option.ite_none_right_eq_some] at hs
          exact hspawned (Option.some.inj hs.2).symm rfl (by simp [Coro.kind])
      | closeLane =>
          exact hspawned (Option.some.inj hs).symm rfl (by simp [Coro.kind])
      | cancel u =>
          rw [TgWsProxy.step, Option.ite_none_right_eq_some] at hs
          rw [← Option.some.inj hs.2] at hunborn
          exact hunborn rfl
      | run u i =>
          rcases hturn.ran (by rintro ⟨⟩) t hnew with hran | hran | hran <;>
          · rw [hran] at hkind
            cases hkind
      | orphanOn u c' =>
          rw [TgWsProxy.step, Option.ite_none_right_eq_some] at hs
          rw [← Option.some.inj hs.2] at hunborn
          exact hunborn rfl
      | orphan u =>
          rw [TgWsProxy.step, Option.ite_none_right_eq_some] at hs
          rw [← Option.some.inj hs.2] at hunborn
          exact hunborn rfl
    · by_cases hmover : some t = e.mover
      · rcases hturn.kind t hmover.symm with heq | heq | ⟨-, heq⟩
        · exact hno t (heq.symm.trans hkind)
        · rw [heq] at hkind
          cases hkind
        · rw [heq] at hkind
          cases hkind
      · rw [hturn.coro t hmover (not_le.mp hnew)] at hkind
        exact hno t hkind

/-! ## What is kept -/

/-- What was posted for the channel is what was taken from its client, but for a packet on its way.
-/
structure Climbing (E : AesKeystream) (reader₀ : ℕ → Reader) (s : Clients) (c : ℕ) : Prop where
  took : ∀ n, s.sys.native c = some n → Took E n.tag (reader₀ c) (s.taken c) (s.reader c)
  unbridged : s.sys.native c = none →
    s.taken c = [] ∧ s.reader c = reader₀ c ∧ posted (s.sys.log c) = []
  idle : ∀ t, s.sys.coro t = .upload c → posted (s.sys.log c) = s.taken c
  sending : ∀ t body pc, s.sys.coro t = .send c .upload body pc →
    posted (s.sys.log c) ++ [body] = s.taken c ∧ ∀ length, pc ≠ .releasing length .returned
  ahead : posted (s.sys.log c) <+: s.taken c ∧
    (s.taken c).length ≤ (posted (s.sys.log c)).length + 1

lemma ahead_of_eq {a b : List Bytes} (h : a = b) : a <+: b ∧ b.length ≤ a.length + 1 := by
  rw [h]
  exact ⟨List.prefix_rfl, Nat.le_succ _⟩

lemma ahead_of_snoc {a b : List Bytes} {body : Bytes} (h : a ++ [body] = b) :
    a <+: b ∧ b.length ≤ a.length + 1 := by
  rw [← h, List.length_append]
  exact ⟨List.prefix_append _ _, le_refl _⟩

/-- A client keeps its tag. -/
lemma tag_of_step {sys sys' : Sys} (h : TgWsProxy.Reaches E sys)
    (hs : TgWsProxy.step E e sys = some sys') {n n' : Native} (hn : sys.native c = some n)
    (hn' : sys'.native c = some n') : n'.tag = n.tag ∧ n'.given = n.given := by
  have hkeep : sys'.native c = sys.native c → n'.tag = n.tag ∧ n'.given = n.given := by
    intro hsame
    rw [hsame, hn] at hn'
    obtain rfl := Option.some.inj hn'
    exact ⟨rfl, rfl⟩
  rcases stays_or_on h.formed.toAllocated (h.move hs) c with hst | hmv
  · exact hkeep hst.native
  cases hmv with
  | opened _ _ _ hnative => exact hkeep (by rw [hnative])
  | bridged _ _ hnone =>
      rw [hnone] at hn
      cases hn
  | native _ _ _ _ _ _ _ _ _ _ _ _ hnative => exact hkeep (by rw [hnative])
  | replay _ _ _ _ _ _ _ _ _ _ _ _ _ _ hnative => exact hkeep (by rw [hnative])
  | advance _ _ _ _ _ _ _ _ _ hnative => exact hkeep (by rw [hnative])
  | uploaded _ _ _ _ _ _ _ _ hnative => exact hkeep (by rw [hnative])
  | received _ _ _ _ _ _ _ _ _ _ _ _ hnative => exact hkeep (by rw [hnative])
  | ended _ _ _ _ _ _ _ _ _ _ _ _ hnative => exact hkeep (by rw [hnative])
  | closing _ _ _ _ hnative => exact hkeep (by rw [hnative])
  | swept _ _ _ _ _ _ _ _ _ _ _ _ _ _ _ hnative => exact hkeep (by rw [hnative])
  | cleared _ _ _ _ _ _ hnative => exact hkeep (by rw [hnative])
  | rotated _ _ _ _ hnative => exact hkeep (by rw [hnative])
  | dropped _ _ _ _ _ _ hnative => exact hkeep (by rw [hnative])
  | drained _ _ _ _ _ hnative => exact hkeep (by rw [hnative])
  | wrote _ _ _ n₀ _ _ _ _ _ hn₀ _ _ _ hnative =>
      obtain rfl := Option.some.inj (hn.symm.trans hn₀)
      obtain rfl := Option.some.inj (hn'.symm.trans hnative)
      exact ⟨rfl, rfl⟩
  | wroteError _ _ n₀ _ _ _ _ _ _ _ _ hn₀ _ _ _ hnative =>
      obtain rfl := Option.some.inj (hn.symm.trans hn₀)
      obtain rfl := Option.some.inj (hn'.symm.trans hnative)
      exact ⟨rfl, rfl⟩

/-- One task only is the upload of a channel. -/
lemma uploads_unique {sys : Sys} (h : TgWsProxy.Reaches E sys) {t t' : ℕ}
    (ht : (sys.coro t).station = some (c, 0)) (ht' : (sys.coro t').station = some (c, 0)) :
    t = t' := by
  obtain ⟨n, hn, rfl⟩ := h.attached t c 0 ht
  obtain ⟨n', hn', rfl⟩ := h.attached t' c 0 ht'
  rw [Option.some.inj (hn.symm.trans hn')]

/-- A step that takes nothing from the client of `c`. -/
lemma Climbing.took_same (h : Climbing E reader₀ s c) (hr : TgWsProxy.Reaches E s.sys)
    (hs : TgWsProxy.step E e s.sys = some s'.sys) (hreader : s'.reader c = s.reader c)
    (htaken : s'.taken c = s.taken c) (n' : Native) (hn' : s'.sys.native c = some n') :
    Took E n'.tag (reader₀ c) (s'.taken c) (s'.reader c) := by
  rw [hreader, htaken]
  cases hn : s.sys.native c with
  | none =>
      obtain ⟨htaken₀, hreader₀, -⟩ := h.unbridged hn
      rw [htaken₀, hreader₀]
      exact .nothing
  | some n =>
      rw [(tag_of_step hr hs hn hn').1]
      exact h.took n hn

/-- Only its own upload takes from a client. -/
lemma StepOf.same (h : StepOf E e s s')
    (hnot : ∀ t body, e = .run t (.packet body) → s.sys.coro t ≠ .upload c) :
    s'.reader c = s.reader c ∧ s'.taken c = s.taken c := by
  cases h with
  | lane hpacket hsend hreader htaken => exact ⟨by rw [hreader], by rw [htaken]⟩
  | packet t c' body n quick reader he hcoro hn hread hreader htaken =>
      have hne : c ≠ c' := by
        rintro rfl
        exact hnot t body he hcoro
      exact ⟨by rw [hreader, Function.update_of_ne hne],
        by rw [htaken, Function.update_of_ne hne]⟩

/-- **One step.** -/
theorem Climbing.step (h : Climbing E reader₀ s c) (hr : TgWsProxy.Reaches E s.sys)
    (hno : ∀ t, (s.sys.coro t).kind ≠ .sender) (hstep : Clients.step E e s = some s') :
    Climbing E reader₀ s' c := by
  obtain ⟨hs, hof⟩ := stepOf hstep
  have hr' : TgWsProxy.Reaches E s'.sys := .step e hr trivial hs
  have hkept : s'.sys.native c = none → s.sys.native c = none := by
    intro hnone
    by_contra hsome
    obtain ⟨n, hn⟩ := Option.ne_none_iff_exists'.mp hsome
    obtain ⟨n', hn', -⟩ := native_of_step hr hs hn
    rw [hnone] at hn'
    cases hn'
  have hbridged : ∀ {t}, (s.sys.coro t).station = some (c, 0) → s'.sys.native c ≠ none := by
    intro t hstation hnone
    obtain ⟨n, hn, -⟩ := hr.attached t c 0 hstation
    rw [hkept hnone] at hn
    cases hn
  have hmine : ∀ {t} (t'), (s'.sys.coro t).station = some (c, 0) →
      (s'.sys.coro t').station = some (c, 0) → s'.sys.coro t' = s'.sys.coro t := by
    intro t t' ht ht'
    rw [uploads_unique hr' ht ht']
  cases upload_turn hr hs hno fun t body pc hcoro => (h.sending t body pc hcoro).2 with
  | still hnot hcoro hposted =>
      obtain ⟨hreader, htaken⟩ := hof.same (c := c) fun t body he hat =>
        hnot t _ he (by rw [hat]; rfl)
      refine ⟨h.took_same hr hs hreader htaken, fun hnone => ?_, fun t hat => ?_,
        fun t body pc hat => ?_, ?_⟩
      · rw [hreader, htaken, hposted]
        exact h.unbridged (hkept hnone)
      · rw [htaken, hposted]
        rcases hcoro t (by rw [hat]; rfl) with hold | ⟨-, hnone⟩
        · exact h.idle t (hold.symm.trans hat)
        · obtain ⟨htaken₀, -, hposted₀⟩ := h.unbridged hnone
          rw [htaken₀, hposted₀]
      · rw [htaken, hposted]
        rcases hcoro t (by rw [hat]; rfl) with hold | ⟨hnew, -⟩
        · exact h.sending t body pc (hold.symm.trans hat)
        · cases hnew.symm.trans hat
      · rw [htaken, hposted]
        exact h.ahead
  | took t body he hcoro hcoro' hposted =>
      cases hof with
      | lane hpacket => exact absurd he (hpacket t body)
      | packet t' c' body' n quick reader he' hcoro₀ hn hread hreader htaken =>
          obtain ⟨rfl, heq⟩ := Event.run.inj (he.symm.trans he')
          obtain rfl := Input.packet.inj heq
          obtain rfl := Coro.upload.inj (hcoro.symm.trans hcoro₀)
          have hnow : posted (s'.sys.log c) ++ [body] = s'.taken c := by
            rw [hposted, htaken, Function.update_self, h.idle t hcoro]
          have hstation : (s'.sys.coro t).station = some (c, 0) := by
            rw [hcoro']
            rfl
          refine ⟨fun n' hn' => ?_, fun hnone => absurd hnone (hbridged (by rw [hcoro]; rfl)),
            fun t' hat => ?_, fun t' body' pc hat => ?_, ahead_of_snoc hnow⟩
          · rw [hreader, htaken, Function.update_self, Function.update_self,
              (tag_of_step hr hs hn hn').1]
            exact .packet (h.took n hn) hread
          · have hsame := hmine t' hstation (by rw [hat]; rfl)
            rw [hat, hcoro'] at hsame
            cases hsame
          · have hsame := hmine t' hstation (by rw [hat]; rfl)
            rw [hat, hcoro'] at hsame
            cases hsame
            exact ⟨hnow, by rintro length ⟨⟩⟩
  | waits t body pc pc' i he hcoro hcoro' hpc' hposted =>
      obtain ⟨hreader, htaken⟩ := hof.same (c := c) fun t' body' he' hat => by
        obtain ⟨rfl, -⟩ := Event.run.inj (he.symm.trans he')
        rw [hcoro] at hat
        cases hat
      have hnow := (h.sending t body pc hcoro).1
      rw [← hposted, ← htaken] at hnow
      have hstation : (s'.sys.coro t).station = some (c, 0) := by
        rw [hcoro']
        rfl
      refine ⟨h.took_same hr hs hreader htaken,
        fun hnone => absurd hnone (hbridged (by rw [hcoro]; rfl)), fun t' hat => ?_,
        fun t' body' pc'' hat => ?_, ahead_of_snoc hnow⟩
      · have hsame := hmine t' hstation (by rw [hat]; rfl)
        rw [hat, hcoro'] at hsame
        cases hsame
      · have hsame := hmine t' hstation (by rw [hat]; rfl)
        rw [hat, hcoro'] at hsame
        cases hsame
        exact ⟨hnow, hpc'⟩
  | sent t body pc i he hcoro hcoro' hposted =>
      obtain ⟨hreader, htaken⟩ := hof.same (c := c) fun t' body' he' hat => by
        obtain ⟨rfl, -⟩ := Event.run.inj (he.symm.trans he')
        rw [hcoro] at hat
        cases hat
      have hnow : posted (s'.sys.log c) = s'.taken c := by
        rw [hposted, htaken, (h.sending t body pc hcoro).1]
      have hstation : (s'.sys.coro t).station = some (c, 0) := by
        rw [hcoro']
        rfl
      refine ⟨h.took_same hr hs hreader htaken,
        fun hnone => absurd hnone (hbridged (by rw [hcoro]; rfl)), fun _ _ => hnow,
        fun t' body' pc' hat => ?_, ahead_of_eq hnow⟩
      have hsame := hmine t' hstation (by rw [hat]; rfl)
      rw [hat, hcoro'] at hsame
      cases hsame
  | ended t i he hpacket hcoro hcoro' hposted =>
      obtain ⟨hreader, htaken⟩ := hof.same (c := c) fun t' body' he' _ =>
        hpacket body' (Event.run.inj (he.symm.trans he')).2
      -- no task is the upload any more
      have hnone : ∀ t', (s'.sys.coro t').station ≠ some (c, 0) := by
        intro t' hstation
        rcases station_of_step hr hs hstation with hold | ⟨-, hno', -⟩
        · obtain rfl := uploads_unique hr hcoro hold
          rw [hcoro'] at hstation
          cases hstation
        · obtain ⟨n, hn, -⟩ := hr.attached t c 0 hcoro
          rw [hno'] at hn
          cases hn
      refine ⟨h.took_same hr hs hreader htaken, fun hnone' => absurd hnone' (hbridged hcoro),
        fun t' hat => absurd (by rw [hat]; rfl) (hnone t'),
        fun t' body pc hat => absurd (by rw [hat]; rfl) (hnone t'), ?_⟩
      rw [htaken, hposted]
      exact h.ahead

/-- **Upstream.**  Along every run: what was taken from a client is what `_read_packet` reads in a
row; the native requests carry it, in order and each packet once, but for one packet at most that is
on its way or was lost with its upload; and every request, native or replayed, carries one of these.
-/
theorem Reaches.upstream (h : Reaches E reader₀ s) (c : ℕ) :
    Climbing E reader₀ s c ∧
      ∀ u info pc, s.sys.req u = some (c, info, pc) → info.body ∈ posted (s.sys.log c) := by
  refine ⟨?_, h.sys.request_posted c⟩
  refine h.invariant (P := fun s => ∀ c, Climbing E reader₀ s c) ?_ ?_ c
  · rintro s ⟨clock, debug, -, rfl⟩ c
    exact ⟨by rintro n ⟨⟩, fun _ => ⟨rfl, rfl, rfl⟩, by rintro t ⟨⟩, by rintro t body pc ⟨⟩,
      List.prefix_rfl, Nat.zero_le _⟩
  · intro s e s' hr hall _ hstep c
    exact (hall c).step (Reaches.sys hr) (Reaches.no_sender hr) hstep

end Clients

end TgWsProxy
