import TgWsProxy.H2.Lane.Runs

/-!
# Where a coroutine goes next

* `SendPc.Admitted` — `_send` is past the channel's capacity.
* `send_next` — a sender stays with its packet, and is admitted where the packet fits.
* `recover_next` — `_recover` cancels a request to make room, or one to replace it, or none.
* `Coro.station`, `Reaches.attached` — a channel has one task of each kind that `bridge_h2` creates.
* `Reaches.recalls` — the time that `_recover` remembers is past.
-/

namespace TgWsProxy

open Wire

/-! ## Senders -/

/-- `_send` is past the channel's capacity condition, and has not reserved on the lane. -/
def SendPc.Admitted : SendPc → Prop
  | capacityWait w => w = .granted
  | laneLock => True
  | laneWait _ => True
  | _ => False

/-- Where a sender is after a step of its own. -/
def SendNext (s s' : Sys) (t c : ℕ) (caller : Caller) (body : Bytes) (pc : SendPc) : Prop :=
  (∃ pc', s'.coro t = .send c caller body pc' ∧ pc' ≠ .sendLock ∧ (pc'.Admitted → pc.Admitted ∨
      (s.chan c).closed = true ∨ (s.chan c).HasCapacity body.length)) ∨
    (caller = .upload ∧ s'.coro t = .upload c ∨
      caller = .recover ∧ s'.coro t = .recover c .sleeping) ∨
    s'.coro t = .done

section Send

variable {s s₁ : Sys} {t c : ℕ} {caller : Caller} {body : Bytes} {pc pc' : SendPc}

lemma sendNext_stay (hpc' : pc' ≠ .sendLock) (h : pc'.Admitted → pc.Admitted ∨
    (s.chan c).closed = true ∨ (s.chan c).HasCapacity body.length) :
    SendNext s (s₁.setCoro t (.send c caller body pc')) t c caller body pc :=
  Or.inl ⟨pc', by simp, hpc', h⟩

lemma sendNext_afterSend (exit : SendExit) :
    SendNext s (s₁.afterSend t c caller exit) t c caller body pc := by
  refine Or.inr ?_
  unfold Sys.afterSend
  split
  · exact Or.inl (Or.inl ⟨rfl, by simp⟩)
  · rw [Sys.loopRecover]
    split_ifs
    · exact Or.inr (by simp)
    · exact Or.inl (Or.inr ⟨rfl, by simp⟩)
  · exact Or.inr (by simp)

lemma sendNext_leaveSend (exit : SendExit) :
    SendNext s (s₁.leaveSend t c caller exit) t c caller body pc :=
  sendNext_afterSend exit

lemma sendNext_passChannel (h : pc.Admitted ∨ (s.chan c).closed = true ∨
    (s.chan c).HasCapacity body.length) :
    SendNext s (s₁.passChannel t c caller body) t c caller body pc := by
  rw [Sys.passChannel]
  split_ifs
  · exact sendNext_leaveSend _
  · exact sendNext_stay nofun fun _ => h
  · exact sendNext_stay nofun fun _ => h

lemma sendNext_enter : SendNext s (s₁.enter t c caller body) t c caller body pc := by
  have hrelease : ∀ exit, SendNext s
      (s₁.setCoro t (.send c caller body (.releasing body.length exit))) t c caller body pc :=
    fun _ => sendNext_stay nofun False.elim
  rw [Sys.enter]
  dsimp only
  split_ifs
  · exact hrelease _
  · split
    · split_ifs
      · exact sendNext_leaveSend _
      · exact hrelease _
    · exact hrelease _
  · exact sendNext_leaveSend _

lemma sendNext_reserve : SendNext s (s₁.reserve t c caller body) t c caller body pc := by
  rw [Sys.reserve]
  split_ifs
  · exact sendNext_leaveSend _
  · exact sendNext_enter

lemma sendNext_reserveUnlocked {length : ℕ} :
    SendNext s (s₁.reserveUnlocked t c caller length) t c caller body pc := by
  rw [Sys.reserveUnlocked]
  split_ifs
  · exact sendNext_leaveSend _
  · exact sendNext_leaveSend _

/-- **A step of a sender.**  It goes on with its packet, and past the channel's condition only where
the channel is closed or has room; or it returns to its caller. -/
theorem send_next {s' : Sys} {i : Input} (h : sendStep s t c caller body pc i = some s') :
    SendNext s s' t c caller body pc := by
  unfold sendStep at h
  split at h
  · rw [Option.ite_none_right_eq_some] at h
    obtain rfl := Option.some.inj h.2
    exact sendNext_stay nofun False.elim
  · obtain rfl := Option.some.inj h
    exact sendNext_afterSend _
  · dsimp only at h
    split_ifs at h with hlock hreplay hroom
    all_goals obtain rfl := Option.some.inj h
    · exact sendNext_passChannel (Or.inr (Or.inr hroom))
    · exact sendNext_leaveSend _
    · exact sendNext_stay nofun nofun
  · dsimp only at h
    split_ifs at h with hroom
    all_goals obtain rfl := Option.some.inj h
    · exact sendNext_stay nofun fun _ => Or.inr hroom
    · exact sendNext_stay nofun nofun
    · exact sendNext_stay nofun nofun
  · rw [Option.ite_none_right_eq_some] at h
    obtain rfl := Option.some.inj h.2
    exact sendNext_stay nofun nofun
  · dsimp only at h
    split_ifs at h
    all_goals obtain rfl := Option.some.inj h
    · exact sendNext_leaveSend _
    · exact sendNext_passChannel (Or.inl rfl)
  · rw [Option.ite_none_right_eq_some] at h
    obtain rfl := Option.some.inj h.2
    exact sendNext_stay nofun nofun
  · obtain rfl := Option.some.inj h
    exact sendNext_leaveSend _
  · obtain rfl := Option.some.inj h
    exact sendNext_leaveSend _
  · split_ifs at h
    all_goals obtain rfl := Option.some.inj h
    · exact sendNext_stay nofun nofun
    · exact sendNext_leaveSend _
  · split_ifs at h
    all_goals obtain rfl := Option.some.inj h
    · exact sendNext_reserve
    · exact sendNext_leaveSend _
    · exact sendNext_stay nofun fun _ => Or.inl trivial
  · split_ifs at h
    all_goals obtain rfl := Option.some.inj h
    · exact sendNext_stay nofun fun _ => Or.inl trivial
    · exact sendNext_stay nofun fun _ => Or.inl trivial
    · exact sendNext_stay nofun fun _ => Or.inl trivial
  · rw [Option.ite_none_right_eq_some] at h
    obtain rfl := Option.some.inj h.2
    exact sendNext_stay nofun fun _ => Or.inl trivial
  · split_ifs at h
    all_goals obtain rfl := Option.some.inj h
    · exact sendNext_reserveUnlocked
    · exact sendNext_reserve
  · rw [Option.ite_none_right_eq_some] at h
    obtain rfl := Option.some.inj h.2
    exact sendNext_stay nofun fun _ => Or.inl trivial
  · obtain rfl := Option.some.inj h
    exact sendNext_leaveSend _
  · obtain rfl := Option.some.inj h
    exact sendNext_leaveSend _
  · split_ifs at h
    all_goals obtain rfl := Option.some.inj h
    · exact sendNext_stay nofun fun _ => Or.inl trivial
    · exact sendNext_leaveSend _
  · rw [Option.ite_none_right_eq_some] at h
    obtain rfl := Option.some.inj h.2
    exact sendNext_leaveSend _
  all_goals first
    | (obtain rfl := Option.some.inj h
       exact sendNext_leaveSend _)
    | cases h

end Send

/-! ## The recovery loop -/

/-- Whom a cancellation reaches, the coroutines say. -/
lemma reached_congr {s s₁ : Sys} (h : s₁.coro = s.coro) (depth : ℕ) :
    s₁.reached depth = s.reached depth := by
  have hawaited : s₁.awaited = s.awaited := by
    funext u
    rw [Sys.awaited, Sys.awaited, h]
  induction depth with
  | zero => rfl
  | succ depth ih =>
      funext u
      rw [Sys.reached, Sys.reached, ih, hawaited]

/-- A request awaits no task. -/
lemma reached_request {s : Sys} {u c : ℕ} {info : Request} {pc : RequestPc}
    (h : s.req u = some (c, info, pc)) : ∀ depth, s.reached depth u = [u]
  | 0 => rfl
  | depth + 1 => by
      rw [Sys.reached, Sys.awaited, Sys.coro_of_req h]
      rfl

/-- The event of a wake-up says nothing about room. -/
lemma makeUploadRoom_wakeup (s : Sys) (c : ℕ) (wakeup : Bool) (now : ℤ) (order : List ℕ) :
    (s.setChan c { s.chan c with recoveryWakeup := wakeup }).makeUploadRoom c now order =
      s.makeUploadRoom c now order := by
  have hchan : ∀ c', ∃ wakeup', (s.setChan c { s.chan c with recoveryWakeup := wakeup }).chan c' =
      { s.chan c' with recoveryWakeup := wakeup' } := by
    intro c'
    by_cases hc : c' = c
    · subst hc
      exact ⟨wakeup, by simp⟩
    · exact ⟨(s.chan c').recoveryWakeup, by simp [Function.update_of_ne hc]⟩
  have hold : (s.setChan c { s.chan c with recoveryWakeup := wakeup }).oldestSent now =
      s.oldestSent now := by
    funext c'
    obtain ⟨wakeup', heq⟩ := hchan c'
    rw [Sys.oldestSent, heq]
    rfl
  have hroom : (s.setChan c { s.chan c with recoveryWakeup := wakeup }).roomChannels c now order =
      s.roomChannels c now order := by
    obtain ⟨wakeup', heq⟩ := hchan c
    rw [Sys.roomChannels, heq]
    simp only [hold]
    rfl
  rw [Sys.makeUploadRoom, hroom, Sys.makeUploadRoom]
  congr 1
  funext owner
  obtain ⟨wakeup', heq⟩ := hchan owner
  rw [heq]
  rfl

/-- What a step of `_recover` decides. -/
inductive RecoverNext (s s' : Sys) (t c : ℕ) (pc : RecoverPc) : Prop
  /-- A request is cancelled to make room. -/
  | room (owner victim : ℕ) (packet : Option ℕ) (order : List ℕ)
      (horder : order.toFinset = s.lane.channels)
      (hroom : s.makeUploadRoom c s.clock order = some (owner, victim, packet))
      (hchan : ((s.chan owner).rotate victim packet).Same (s'.chan owner))
      (hcoro : s'.coro t = .recover c (.makingRoom s.clock victim))
      (hcancel : s'.cancelling = (s.cancelAll [victim]).cancelling)
  /-- A replay is cancelled to be replaced. -/
  | replace (now : ℤ) (body : Bytes) (victim : ℕ)
      (hnow : now = s.clock ∨ ∃ v, pc = .makingRoom now v)
      (hchoose : (s.chan c).choose now = some (body, some victim))
      (hcoro : s'.coro t = .recover c (.replacing body victim))
      (hcancel : s'.cancelling = (s.cancelAll [victim]).cancelling)
  /-- A packet is to be sent again. -/
  | send (body : Bytes)
      (hwhy : (∃ now, (s.chan c).choose now = some (body, none)) ∨
        ∃ victim, pc = .replacing body victim ∧ s.isDone victim = true)
      (hcoro : s'.coro t = .send c .recover body .sendLock)
      (hcancel : s'.cancelling = s.cancelling)
  /-- Nothing is to be done. -/
  | rest (hcoro : s'.coro t = .recover c .sleeping ∨
      (∃ dying, s'.coro t = .recover c (.waking dying)) ∨
        s'.coro t = .done)
      (hcancel : s'.cancelling = s.cancelling)

section Recover

variable {s s₁ : Sys} {t c : ℕ} {pc : RecoverPc}

lemma recoverNext_loop (hcancel : s₁.cancelling = s.cancelling) :
    RecoverNext s (s₁.loopRecover t c) t c pc := by
  refine .rest ?_ hcancel
  rw [Sys.loopRecover]
  split_ifs
  · exact Or.inr (Or.inr (by simp))
  · exact Or.inl (by simp)

lemma recoverNext_sendReplay {body : Bytes} (hcancel : s₁.cancelling = s.cancelling)
    (hwhy : (∃ now, (s.chan c).choose now = some (body, none)) ∨
      ∃ victim, pc = .replacing body victim ∧ s.isDone victim = true) :
    RecoverNext s (s₁.sendReplay t c body) t c pc := by
  rw [Sys.sendReplay]
  split_ifs
  · exact recoverNext_loop hcancel
  · exact .send body hwhy (by simp) hcancel

lemma recoverNext_recoverPass {now : ℤ} (hcancel : s₁.cancelling = s.cancelling)
    (hcoro : s₁.coro = s.coro) (hchoose : (s₁.chan c).choose now = (s.chan c).choose now)
    (hnow : now = s.clock ∨ ∃ v, pc = .makingRoom now v) :
    RecoverNext s (s₁.recoverPass t c now) t c pc := by
  rw [Sys.recoverPass]
  split_ifs
  · exact recoverNext_loop hcancel
  · rw [hchoose]
    split
    · exact recoverNext_loop hcancel
    · rename_i body heq
      exact recoverNext_sendReplay hcancel (Or.inl ⟨now, heq⟩)
    · rename_i body victim heq
      refine .replace now body victim hnow heq (by simp) ?_
      simp only [Sys.setCoro_cancelling, Sys.cancelAll_cancelling, hcancel, reached_congr hcoro]

/-- **A step of the recovery loop.** -/
theorem recover_next {s' : Sys} {i : Input} (h : recoverStep s t c pc i = some s') :
    RecoverNext s s' t c pc := by
  have hset : ∀ {k}, (k = .recover c .sleeping ∨ (∃ dying, k = .recover c (.waking dying)) ∨
      k = .done) → RecoverNext s (s.setCoro t k) t c pc := fun hk => .rest (by simpa using hk) rfl
  unfold recoverStep at h
  split at h
  · obtain rfl := Option.some.inj h
    exact hset (Or.inr (Or.inl ⟨_, rfl⟩))
  · obtain rfl := Option.some.inj h
    exact hset (Or.inr (Or.inl ⟨_, rfl⟩))
  · obtain rfl := Option.some.inj h
    exact hset (Or.inr (Or.inr rfl))
  · rename_i order
    rw [Option.ite_none_right_eq_some] at h
    obtain ⟨⟨-, horder⟩, h⟩ := h
    simp only [makeUploadRoom_wakeup] at h
    split at h
    · rename_i owner victim packet hroom
      obtain rfl := Option.some.inj h
      have hwake : (s.chan owner).Same
          ((s.setChan c { s.chan c with recoveryWakeup := false }).chan owner) :=
        (Quiet.setChan (.refl s) (.setWakeup (.refl _) false)).chan owner
      refine .room owner victim packet order horder hroom ?_ (by simp) ?_
      · simpa using hwake.rotate victim packet
      · exact congrArg (fun reached => s.cancelling ∪ ([victim].flatMap reached).toFinset)
          (reached_congr rfl 3)
    · obtain rfl := Option.some.inj h
      exact recoverNext_recoverPass rfl rfl (by simp; rfl) (Or.inl rfl)
  · obtain rfl := Option.some.inj h
    exact hset (Or.inr (Or.inr rfl))
  · rw [Option.ite_none_right_eq_some] at h
    obtain rfl := Option.some.inj h.2
    exact recoverNext_recoverPass rfl rfl rfl (Or.inr ⟨_, rfl⟩)
  · rw [Option.ite_none_right_eq_some] at h
    obtain rfl := Option.some.inj h.2
    exact recoverNext_sendReplay rfl (Or.inr ⟨_, rfl, h.1⟩)
  · rw [Option.ite_none_right_eq_some] at h
    obtain rfl := Option.some.inj h.2
    exact hset (Or.inr (Or.inr rfl))
  · rw [Option.ite_none_right_eq_some] at h
    obtain rfl := Option.some.inj h.2
    exact hset (Or.inr (Or.inr rfl))
  · cases h

end Recover

/-! ## The tasks of a bridge -/

/-- The channel that a task of `bridge_h2` works for, and its place among these tasks. -/
def Coro.station : Coro → Option (ℕ × ℕ)
  | upload c => some (c, 0)
  | send c .upload _ _ => some (c, 0)
  | download c _ => some (c, 1)
  | recover c _ => some (c, 2)
  | send c .recover _ _ => some (c, 2)
  | bridge c _ _ => some (c, 3)
  | _ => none

lemma Coro.download_of_station {k : Coro} {c : ℕ} (h : k.station = some (c, 1)) :
    ∃ pc, k = .download c pc := by
  cases k with
  | download c' pc =>
      cases h
      exact ⟨pc, rfl⟩
  | send c' caller body pc => cases caller <;> cases h
  | _ => cases h

lemma Coro.bridge_of_station {k : Coro} {c : ℕ} (h : k.station = some (c, 3)) :
    ∃ tasks pc, k = .bridge c tasks pc := by
  cases k with
  | bridge c' tasks pc =>
      cases h
      exact ⟨tasks, pc, rfl⟩
  | send c' caller body pc => cases caller <;> cases h
  | _ => cases h

/-- What becomes of a `bridge_h2`. -/
lemma coro_bridgeStep {E : AesKeystream} {s s' : Sys} {t c : ℕ} {tasks : List ℕ} {pc : BridgePc}
    {i : Input} (h : bridgeStep E s t c tasks pc i = some s') :
    (pc ≠ .draining ∧ ∃ pc', s'.coro t = .bridge c tasks pc') ∨
      s'.coro t = .close c .closeLock := by
  have hself : ∀ (s₁ : Sys) (k : Coro), (s₁.setCoro t k).coro t = k := by simp
  unfold bridgeStep at h
  split at h
  · rw [Option.ite_none_right_eq_some] at h
    obtain rfl := Option.some.inj h.2
    exact .inl ⟨nofun, _, hself _ _⟩
  · obtain rfl := Option.some.inj h
    exact .inl ⟨nofun, _, hself _ _⟩
  · split_ifs at h
    · obtain rfl := Option.some.inj h
      exact .inr (hself _ _)
    · unfold Sys.reportError at h
      split at h
      · cases h
      · dsimp only at h
        split at h
        · obtain rfl := Option.some.inj h
          exact .inl ⟨nofun, _, hself _ _⟩
        · obtain rfl := Option.some.inj h
          exact .inr (hself _ _)
  · rw [Option.ite_none_right_eq_some] at h
    obtain rfl := Option.some.inj h.2
    exact .inr (hself _ _)
  · obtain rfl := Option.some.inj h
    exact .inr (hself _ _)
  · obtain rfl := Option.some.inj h
    exact .inr (hself _ _)
  · obtain rfl := Option.some.inj h
    exact .inr (hself _ _)
  · cases h

lemma coro_uploadStep {s s' : Sys} {t c : ℕ} {i : Input} (h : uploadStep s t c i = some s') :
    (∃ body, s'.coro t = .send c .upload body .sendLock) ∨ s'.coro t = .done := by
  cases i with
  | packet body =>
      obtain rfl := Option.some.inj h
      exact .inl ⟨body, by simp⟩
  | broken =>
      obtain rfl := Option.some.inj h
      exact .inr (by simp)
  | cancelled =>
      obtain rfl := Option.some.inj h
      exact .inr (by simp)
  | _ => cases h

lemma coro_downloadStep {E : AesKeystream} {s s' : Sys} {t c : ℕ} {pc : DownloadPc} {i : Input}
    (h : downloadStep E s t c pc i = some s') :
    (∃ pc', s'.coro t = .download c pc') ∨ s'.coro t = .done := by
  have hself : ∀ (s₁ : Sys) (k : Coro), (s₁.setCoro t k).coro t = k := by simp
  unfold downloadStep at h
  split at h
  · dsimp only at h
    split at h
    · cases h
    · obtain rfl := Option.some.inj h
      exact .inr (hself _ _)
    · split_ifs at h
      · obtain rfl := Option.some.inj h
        exact .inr (hself _ _)
      · unfold Sys.writeReply at h
        split at h
        · cases h
        · split at h
          · obtain rfl := Option.some.inj h
            exact .inr (hself _ _)
          · obtain rfl := Option.some.inj h
            exact .inl ⟨_, hself _ _⟩
  · obtain rfl := Option.some.inj h
    exact .inr (hself _ _)
  · obtain rfl := Option.some.inj h
    exact .inl ⟨_, hself _ _⟩
  · obtain rfl := Option.some.inj h
    exact .inr (hself _ _)
  · obtain rfl := Option.some.inj h
    exact .inr (hself _ _)
  · cases h

/-- A task stays at its station until it ends. -/
lemma station_coroStep {E : AesKeystream} {s s' : Sys} {t : ℕ} {i : Input}
    (hkind : (s.coro t).kind.Becomes (s'.coro t).kind) (h : coroStep E s t i = some s') {c k : ℕ}
    (hstation : (s'.coro t).station = some (c, k)) : (s.coro t).station = some (c, k) := by
  have hdone : s'.coro t ≠ .done := by
    intro hdone
    rw [hdone] at hstation
    cases hstation
  have hplain : ∀ kind : Kind, (s.coro t).kind = kind → kind = .request ∨ kind = .close ∨
      kind = .closeLane ∨ kind = .done → False := by
    intro kind hk hplain
    rw [hk] at hkind
    cases hcoro' : s'.coro t with
    | send c₀ caller body pc =>
        rcases hplain with rfl | rfl | rfl | rfl <;> cases caller <;>
          simp [hcoro', Kind.Becomes, Coro.kind, Caller.kind] at hkind hstation
    | _ =>
        rcases hplain with rfl | rfl | rfl | rfl <;>
          simp [hcoro', Kind.Becomes, Coro.kind, Coro.station] at hkind hstation
  cases hcoro : s.coro t with
  | send c₀ caller body pc =>
      simp only [coroStep, hcoro] at h
      rcases send_next h with ⟨pc', heq, -⟩ | (⟨rfl, heq⟩ | ⟨rfl, heq⟩) | heq
      · rw [heq] at hstation
        cases caller <;> exact hstation
      · rw [heq] at hstation
        exact hstation
      · rw [heq] at hstation
        exact hstation
      · exact absurd heq hdone
  | upload c₀ =>
      simp only [coroStep, hcoro] at h
      rcases coro_uploadStep h with ⟨body, heq⟩ | heq
      · rw [heq] at hstation
        exact hstation
      · exact absurd heq hdone
  | download c₀ pc =>
      simp only [coroStep, hcoro] at h
      rcases coro_downloadStep h with ⟨pc', heq⟩ | heq
      · rw [heq] at hstation
        exact hstation
      · exact absurd heq hdone
  | recover c₀ pc =>
      simp only [coroStep, hcoro] at h
      rcases recover_next h with ⟨_, _, _, _, _, _, _, heq, -⟩ | ⟨_, _, _, _, _, heq, -⟩ |
        ⟨_, _, heq, -⟩ | ⟨heq | ⟨dying, heq⟩ | heq, -⟩
      · rw [heq] at hstation
        exact hstation
      · rw [heq] at hstation
        exact hstation
      · rw [heq] at hstation
        exact hstation
      · rw [heq] at hstation
        exact hstation
      · rw [heq] at hstation
        exact hstation
      · exact absurd heq hdone
  | bridge c₀ tasks pc =>
      simp only [coroStep, hcoro] at h
      rcases coro_bridgeStep h with ⟨-, pc', heq⟩ | heq
      · rw [heq] at hstation
        exact hstation
      · rw [heq] at hstation
        cases hstation
  | request c₀ info pc => exact (hplain .request (by rw [hcoro]; rfl) (by simp)).elim
  | close c₀ pc => exact (hplain .close (by rw [hcoro]; rfl) (by simp)).elim
  | closeLane pc => exact (hplain .closeLane (by rw [hcoro]; rfl) (by simp)).elim
  | done => exact (hplain .done (by rw [hcoro]; rfl) (by simp)).elim

/-- A channel has one task of each kind, those that its `bridge_h2` created. -/
def Attached (s : Sys) : Prop :=
  ∀ t c k, (s.coro t).station = some (c, k) → ∃ n, s.native c = some n ∧ t = n.first + k

/-- Where a task of a bridge comes from. -/
lemma station_of_step {E : AesKeystream} {s s' : Sys} {e : Event} (h : Reaches E s)
    (hs : step E e s = some s') {t c k : ℕ} (hb : (s'.coro t).station = some (c, k)) :
    (s.coro t).station = some (c, k) ∨
      s.nextTask ≤ t ∧ s.native c = none ∧ ∃ n, s'.native c = some n ∧ t = n.first + k := by
  have hturn := h.turn hs
  by_cases hnew : s.nextTask ≤ t
  · refine .inr ⟨hnew, ?_⟩
    have hunborn : (s.coro t).station ≠ some (c, k) := by
      rw [h.formed.coro t hnew]
      rintro ⟨⟩
    have hspawned : ∀ {k' : Coro} {s₁ : Sys}, s₁.nextTask = s.nextTask → k'.station = none →
        ((s₁.spawn [k']).coro t).station ≠ some (c, k) := by
      intro k' s₁ hnext hk'
      simp only [Sys.spawn_coro, hnext, if_neg (not_lt.mpr hnew)]
      cases t - s.nextTask with
      | zero =>
          show k'.station ≠ some (c, k)
          rw [hk']
          rintro ⟨⟩
      | succ m => rintro ⟨⟩
    cases e with
    | tick nanoseconds =>
        obtain rfl := Option.some.inj hs
        exact absurd hb hunborn
    | openChannel =>
        obtain rfl := Option.some.inj hs
        exact absurd hb hunborn
    | bridge c' tag cltEnc =>
        rw [step, Option.ite_none_right_eq_some] at hs
        obtain ⟨⟨-, hnone⟩, hs⟩ := hs
        obtain rfl := Option.some.inj hs
        have hnone' := Option.isNone_iff_eq_none.mp hnone
        simp only [Sys.spawn_coro, Sys.setNative_nextTask, if_neg (not_lt.mpr hnew)] at hb
        obtain ⟨j, rfl⟩ := Nat.exists_eq_add_of_le hnew
        rw [Nat.add_sub_cancel_left] at hb
        have hat : ∀ (native : Native) j, native.first = s.nextTask →
            some (c', j) = some (c, k) → s.native c = none ∧
              ∃ n, (s.setNative c' native).native c = some n ∧ s.nextTask + j = n.first + k := by
          intro native j hfirst heq
          cases heq
          exact ⟨hnone', native, Function.update_self _ _ _, by rw [hfirst]⟩
        rcases j with _ | _ | _ | _ | j
        · exact hat _ 0 rfl hb
        · exact hat _ 1 rfl hb
        · exact hat _ 2 rfl hb
        · exact hat _ 3 rfl hb
        · cases hb
    | send c' body =>
        rw [step, Option.ite_none_right_eq_some] at hs
        obtain rfl := Option.some.inj hs.2
        exact absurd hb (hspawned rfl rfl)
    | close c' =>
        rw [step, Option.ite_none_right_eq_some] at hs
        obtain rfl := Option.some.inj hs.2
        exact absurd hb (hspawned rfl rfl)
    | closeLane =>
        obtain rfl := Option.some.inj hs
        exact absurd hb (hspawned rfl rfl)
    | cancel u =>
        rw [step, Option.ite_none_right_eq_some] at hs
        obtain rfl := Option.some.inj hs.2
        exact absurd hb hunborn
    | run u i =>
        have hkind := hturn.ran (by rintro ⟨⟩) t hnew
        cases hcoro : s'.coro t with
        | send c₀ caller body pc =>
            cases caller <;> simp [hcoro, Coro.kind, Caller.kind] at hkind
        | _ => simp [hcoro, Coro.kind, Coro.station] at hkind hb
    | orphanOn u c' =>
        rw [step, Option.ite_none_right_eq_some] at hs
        obtain rfl := Option.some.inj hs.2
        exact absurd hb hunborn
    | orphan u =>
        rw [step, Option.ite_none_right_eq_some] at hs
        obtain rfl := Option.some.inj hs.2
        exact absurd hb hunborn
  · left
    by_cases hmover : some t = e.mover
    · cases e with
      | run u i =>
          obtain rfl : t = u := Option.some.inj hmover
          obtain ⟨cancelling, hstep⟩ := coroStep_of_run hs
          exact station_coroStep (by exact hturn.kind t rfl) hstep hb
      | _ => cases hmover
    · rw [hturn.coro t hmover (not_le.mp hnew)] at hb
      exact hb

/-- A client stays who it is. -/
lemma native_of_step {E : AesKeystream} {s s' : Sys} {e : Event} (h : Reaches E s)
    (hs : step E e s = some s') {c : ℕ} {n : Native} (hn : s.native c = some n) :
    ∃ n', s'.native c = some n' ∧ n'.first = n.first := by
  rcases stays_or_on h.formed.toAllocated (h.move hs) c with hst | hmv
  · exact ⟨n, hst.native.trans hn, rfl⟩
  have hkeep : s'.native = s.native → ∃ n', s'.native c = some n' ∧ n'.first = n.first :=
    fun hnative => ⟨n, by rw [hnative, hn], rfl⟩
  cases hmv with
  | opened _ _ _ hnative => exact hkeep hnative
  | bridged _ _ hnone => exact absurd (hnone.symm.trans hn) (by simp)
  | native _ _ _ _ _ _ _ _ _ _ _ _ hnative => exact hkeep hnative
  | replay _ _ _ _ _ _ _ _ _ _ _ _ _ _ hnative => exact hkeep hnative
  | advance _ _ _ _ _ _ _ _ _ hnative => exact hkeep hnative
  | uploaded _ _ _ _ _ _ _ _ hnative => exact hkeep hnative
  | received _ _ _ _ _ _ _ _ _ _ _ _ hnative => exact hkeep hnative
  | ended _ _ _ _ _ _ _ _ _ _ _ _ hnative => exact hkeep hnative
  | closing _ _ _ _ hnative => exact hkeep hnative
  | swept _ _ _ _ _ _ _ _ _ _ _ _ _ _ _ hnative => exact hkeep hnative
  | cleared _ _ _ _ _ _ hnative => exact hkeep hnative
  | rotated _ _ _ _ hnative => exact hkeep hnative
  | dropped _ _ _ _ _ _ hnative => exact hkeep hnative
  | wrote _ _ _ n' _ _ _ _ _ hn' _ _ _ hnative =>
      obtain rfl := Option.some.inj (hn.symm.trans hn')
      exact ⟨_, hnative, rfl⟩
  | drained _ _ _ _ _ hnative => exact hkeep hnative
  | wroteError _ _ n' _ _ _ _ _ _ _ _ hn' _ _ _ hnative =>
      obtain rfl := Option.some.inj (hn.symm.trans hn')
      exact ⟨_, hnative, rfl⟩

/-! ## Runs -/

/-- A request that `_recover` awaits after a step, it awaited before, or has just cancelled: to make
room, or to replace it. -/
lemma Reaches.victim_of_step {E : AesKeystream} {s s' : Sys} {e : Event} (h : Reaches E s)
    (hs : step E e s = some s') {t c : ℕ} {pc' : RecoverPc} (hpc' : s'.coro t = .recover c pc')
    (hsleeping : pc' ≠ .sleeping) (hwaking : ∀ dying, pc' ≠ .waking dying) :
    s.coro t = .recover c pc' ∨ (∃ victim, pc' = .makingRoom s.clock victim) ∨
      ∃ now body victim, pc' = .replacing body victim ∧
        (s.chan c).choose now = some (body, some victim) := by
  have hturn := h.turn hs
  by_cases hnew : s.nextTask ≤ t
  · have hborn := hturn.born t hnew
    rw [hpc'] at hborn
    cases hborn
    exact absurd rfl hsleeping
  by_cases hmover : some t = e.mover
  · cases e with
    | run u i =>
        obtain rfl : t = u := Option.some.inj hmover
        have hkind := hturn.kind t rfl
        rw [hpc'] at hkind
        obtain ⟨cancelling, hstep⟩ := coroStep_of_run hs
        cases hcoro : s.coro t with
        | recover c₀ pc =>
            simp only [coroStep, hcoro] at hstep
            rcases recover_next hstep with
              ⟨_, victim, _, _, _, _, _, hroom, -⟩ | ⟨now, body, victim, _, hchoose, hreplace, -⟩ |
                ⟨_, _, hsend, -⟩ | ⟨hsleep | ⟨dying, hwake⟩ | hdone, -⟩
            · rw [hpc'] at hroom
              cases hroom
              exact .inr (.inl ⟨victim, rfl⟩)
            · rw [hpc'] at hreplace
              cases hreplace
              exact .inr (.inr ⟨now, body, victim, rfl, hchoose⟩)
            · rw [hpc'] at hsend
              cases hsend
            · rw [hpc'] at hsleep
              cases hsleep
              exact absurd rfl hsleeping
            · rw [hpc'] at hwake
              cases hwake
              exact absurd rfl (hwaking dying)
            · rw [hpc'] at hdone
              cases hdone
        | send c₀ caller body pc =>
            simp only [coroStep, hcoro] at hstep
            rcases send_next hstep with ⟨_, hsend, -⟩ | (⟨-, hupload⟩ | ⟨-, hsleep⟩) | hdone
            · rw [hpc'] at hsend
              cases hsend
            · rw [hpc'] at hupload
              cases hupload
            · rw [hpc'] at hsleep
              cases hsleep
              exact absurd rfl hsleeping
            · rw [hpc'] at hdone
              cases hdone
        | _ => simp [hcoro, Kind.Becomes, Coro.kind] at hkind
    | _ => cases hmover
  · rw [hturn.coro t hmover (not_le.mp hnew)] at hpc'
    exact .inl hpc'

/-- **What `_recover` remembers.**  The time at which it began to make room is past. -/
theorem Reaches.recalls {E : AesKeystream} {s : Sys} (h : Reaches E s) :
    ∀ t c now victim, s.coro t = .recover c (.makingRoom now victim) → now ≤ s.clock := by
  refine h.invariant (P := fun s => ∀ t c now victim,
    s.coro t = .recover c (.makingRoom now victim) → now ≤ s.clock) ?_ ?_
  · rintro s ⟨clock, debug, -, rfl⟩ t c now victim hpc
    cases hpc
  · intro s e s' hr hall _ hs t c now victim hpc
    have hclock := (Reaches.turn hr hs).clock
    rcases Reaches.victim_of_step hr hs hpc nofun nofun with
      hold | ⟨_, hroom⟩ | ⟨_, _, _, hreplace, -⟩
    · exact (hall t c now victim hold).trans hclock
    · cases hroom
      exact hclock
    · cases hreplace

/-- **The tasks of a bridge.** -/
theorem Reaches.attached {E : AesKeystream} {s : Sys} (h : Reaches E s) : Attached s := by
  refine h.invariant (P := Attached) ?_ ?_
  · rintro s ⟨clock, debug, -, rfl⟩ t c k hb
    cases hb
  · intro s e s' hr hatt _ hs t c k hb
    rcases station_of_step hr hs hb with hold | ⟨-, -, hnew⟩
    · obtain ⟨n, hn, ht⟩ := hatt t c k hold
      obtain ⟨n', hn', hfirst⟩ := native_of_step hr hs hn
      exact ⟨n', hn', by rw [hfirst, ht]⟩
    · exact hnew

end TgWsProxy
