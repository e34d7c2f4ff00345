import TgWsProxy.H2.Lane.Next

/-!
# Who holds the lock of the lane

A coroutine inside `_reserve` holds the lock of the lane, and what it has found there is still so
when it goes on.  A coroutine that leaves its inner task behind ends this: it releases the lock
whoever holds it.

* `SendOrigin` — where a sender comes from.
* `Reserves` — what a step of a sender means for the lock.
* `Owning` — the event does not release the lock of another coroutine.
* `laneHeld_of_step` — then whoever is inside `_reserve` holds its lock.
* `foreignRelease` — a run in which it does.
-/

namespace TgWsProxy

open Wire

/-! ## Where a sender comes from -/

/-- Where the coroutine was that is now a sender. -/
inductive SendOrigin (s : Sys) (t c : ℕ) (caller : Caller) (body : Bytes) (pc' : SendPc) : Prop
  /-- It has been called. -/
  | called (hpc' : pc' = .sendLock) (hcaller : caller ≠ .recover)
  /-- It was a sender of the same packet. -/
  | stayed (pc : SendPc) (hpc : s.coro t = .send c caller body pc)
      (hadmitted : pc'.Admitted → pc.Admitted ∨ (s.chan c).closed = true ∨
        (s.chan c).HasCapacity body.length)
  /-- It is called by `_recover`. -/
  | decided (pc : RecoverPc) (hpc' : pc' = .sendLock) (hcaller : caller = .recover)
      (hpc : s.coro t = .recover c pc)
      (hwhy : (∃ now, (s.chan c).choose now = some (body, none)) ∨
        ∃ victim, pc = .replacing body victim ∧ s.isDone victim = true)

section Origins

variable {E : AesKeystream} {s s' : Sys} {e : Event} {t c : ℕ}

lemma sendOrigin_of_step (h : Reaches E s) (hs : step E e s = some s') {caller : Caller}
    {body : Bytes} {pc' : SendPc} (hpc' : s'.coro t = .send c caller body pc') :
    SendOrigin s t c caller body pc' := by
  have hturn := h.turn hs
  by_cases hnew : s.nextTask ≤ t
  · have hborn := hturn.born t hnew
    rw [hpc'] at hborn
    exact .called hborn.2 (by rw [hborn.1]; rintro ⟨⟩)
  by_cases hmover : some t = e.mover
  · cases e with
    | run u i =>
        obtain rfl : t = u := Option.some.inj hmover
        have hkind := hturn.kind t rfl
        rw [hpc'] at hkind
        obtain ⟨cancelling, hstep⟩ := coroStep_of_run hs
        cases hcoro : s.coro t with
        | send c₀ caller₀ body₀ pc =>
            simp only [coroStep, hcoro] at hstep
            rcases send_next hstep with ⟨pc₁, hsend, -, hadm⟩ | (⟨-, hupload⟩ | ⟨-, hsleep⟩) | hdone
            · rw [hpc'] at hsend
              cases hsend
              exact .stayed pc hcoro hadm
            · rw [hpc'] at hupload
              cases hupload
            · rw [hpc'] at hsleep
              cases hsleep
            · rw [hpc'] at hdone
              cases hdone
        | upload c₀ =>
            simp only [coroStep, hcoro] at hstep
            rcases coro_uploadStep hstep with ⟨body₀, hsend⟩ | hdone
            · rw [hpc'] at hsend
              cases hsend
              exact .called rfl (by rintro ⟨⟩)
            · rw [hpc'] at hdone
              cases hdone
        | recover c₀ pc =>
            simp only [coroStep, hcoro] at hstep
            rcases recover_next hstep with
              ⟨_, _, _, _, _, _, _, hroom, -⟩ | ⟨_, _, _, _, _, hreplace, -⟩ |
                ⟨body₀, hwhy, hsend, -⟩ | ⟨hsleep | ⟨dying, hwake⟩ | hdone, -⟩
            · rw [hpc'] at hroom
              cases hroom
            · rw [hpc'] at hreplace
              cases hreplace
            · rw [hpc'] at hsend
              cases hsend
              exact .decided pc rfl rfl hcoro hwhy
            · rw [hpc'] at hsleep
              cases hsleep
            · rw [hpc'] at hwake
              cases hwake
            · rw [hpc'] at hdone
              cases hdone
        | _ => cases caller <;> simp [hcoro, Kind.Becomes, Coro.kind, Caller.kind] at hkind
    | _ => cases hmover
  · rw [hturn.coro t hmover (not_le.mp hnew)] at hpc'
    exact .stayed pc' hpc' .inl

/-- A sender that has begun keeps the channel's lock. -/
lemma Reaches.sendLock_ne_none (h : Reaches E s) {caller : Caller} {body : Bytes} {pc : SendPc}
    (hpc : s.coro t = .send c caller body pc) (hbegun : pc ≠ .sendLock) :
    (s.chan c).sendLock ≠ none := by
  rw [h.held t c caller body pc hpc hbegun]
  exact nofun

end Origins

/-! ## One sender -/

/-- What a step of a sender means for the lock of the lane. -/
inductive Reserves (s s' : Sys) (t c : ℕ) (caller : Caller) (body : Bytes) (pc : SendPc) : Prop
  /-- It takes the lock. -/
  | takes (hlock : s'.lane.capacity = some t)
      (hnot : s'.coro t ≠ .send c caller body (.laneWait .granted))
  /-- It has the lock, and there is room. -/
  | grants (hpc : pc = .laneWait .start) (hlane : s'.lane = s.lane)
      (hroom : s.lane.closed = true ∨ s.lane.HasCapacity body.length)
  /-- It has lost the lock. -/
  | fails (hpc : pc = .laneWait .start) (hfree : s.lane.capacity = none)
  | leaves (h : ¬ (s'.coro t).Reserving)

section Reserves

variable {s s₁ : Sys} {t c : ℕ} {caller : Caller} {body : Bytes} {pc pc' : SendPc}

lemma not_reserving_stay (h : ¬ (Coro.send c caller body pc').Reserving) :
    ¬ ((s.setCoro t (.send c caller body pc')).coro t).Reserving := by
  rwa [Sys.setCoro_coro, Function.update_self]

lemma not_reserving_afterSend (exit : SendExit) :
    ¬ ((s.afterSend t c caller exit).coro t).Reserving := by
  unfold Sys.afterSend
  split
  · simp [Coro.Reserving]
  · rw [Sys.loopRecover]
    split_ifs <;> simp [Coro.Reserving]
  · simp [Coro.Reserving]

lemma not_reserving_leaveSend (exit : SendExit) :
    ¬ ((s.leaveSend t c caller exit).coro t).Reserving :=
  not_reserving_afterSend exit

lemma not_reserving_passChannel : ¬ ((s.passChannel t c caller body).coro t).Reserving := by
  rw [Sys.passChannel]
  split_ifs
  · exact not_reserving_leaveSend _
  · exact not_reserving_stay id
  · exact not_reserving_stay id

lemma not_reserving_enter : ¬ ((s.enter t c caller body).coro t).Reserving := by
  rw [Sys.enter]
  dsimp only
  split_ifs
  · exact not_reserving_stay id
  · split
    · split_ifs
      · exact not_reserving_leaveSend _
      · exact not_reserving_stay id
    · exact not_reserving_stay id
  · exact not_reserving_leaveSend _

lemma not_reserving_reserve : ¬ ((s.reserve t c caller body).coro t).Reserving := by
  rw [Sys.reserve]
  split_ifs
  · exact not_reserving_leaveSend _
  · exact not_reserving_enter

lemma not_reserving_reserveUnlocked {length : ℕ} :
    ¬ ((s.reserveUnlocked t c caller length).coro t).Reserving := by
  rw [Sys.reserveUnlocked]
  split_ifs
  · exact not_reserving_leaveSend _
  · exact not_reserving_leaveSend _

lemma reserves_stay (h : ¬ (Coro.send c caller body pc').Reserving) :
    Reserves s (s₁.setCoro t (.send c caller body pc')) t c caller body pc :=
  .leaves (not_reserving_stay h)

lemma reserves_leaveSend (exit : SendExit) :
    Reserves s (s₁.leaveSend t c caller exit) t c caller body pc :=
  .leaves (not_reserving_leaveSend exit)

lemma reserves_takes {lane : Lane} {w : WaitPc} (hlock : lane.capacity = some t)
    (hw : w ≠ .granted) :
    Reserves s ((s₁.setLane lane).setCoro t (.send c caller body (.laneWait w))) t c caller body
      pc :=
  .takes hlock (by simpa using hw)

/-- **A step of a sender and the lock of the lane.** -/
theorem reserves_sendStep {s' : Sys} {i : Input}
    (h : sendStep s t c caller body pc i = some s') : Reserves s s' t c caller body pc := by
  have hwait : ∀ w, ¬ (Coro.send c caller body (.capacityWait w)).Reserving := fun _ => id
  unfold sendStep at h
  split at h
  · rw [Option.ite_none_right_eq_some] at h
    obtain rfl := Option.some.inj h.2
    exact reserves_stay id
  · obtain rfl := Option.some.inj h
    exact .leaves (not_reserving_afterSend _)
  · dsimp only at h
    split_ifs at h
    all_goals obtain rfl := Option.some.inj h
    · exact .leaves not_reserving_passChannel
    · exact reserves_leaveSend _
    · exact reserves_stay (hwait _)
  · dsimp only at h
    split_ifs at h
    all_goals obtain rfl := Option.some.inj h
    · exact reserves_stay (hwait _)
    · exact reserves_stay (hwait _)
    · exact reserves_stay (hwait _)
  · rw [Option.ite_none_right_eq_some] at h
    obtain rfl := Option.some.inj h.2
    exact reserves_stay (hwait _)
  · dsimp only at h
    split_ifs at h
    all_goals obtain rfl := Option.some.inj h
    · exact reserves_leaveSend _
    · exact .leaves not_reserving_passChannel
  · rw [Option.ite_none_right_eq_some] at h
    obtain rfl := Option.some.inj h.2
    exact reserves_stay (hwait _)
  · obtain rfl := Option.some.inj h
    exact reserves_leaveSend _
  · obtain rfl := Option.some.inj h
    exact reserves_leaveSend _
  · split_ifs at h
    all_goals obtain rfl := Option.some.inj h
    · exact reserves_stay (hwait _)
    · exact reserves_leaveSend _
  · split_ifs at h
    all_goals obtain rfl := Option.some.inj h
    · exact .leaves not_reserving_reserve
    · exact reserves_leaveSend _
    · exact reserves_takes rfl (by decide)
  · split_ifs at h with hroom hfree
    all_goals obtain rfl := Option.some.inj h
    · exact .grants rfl rfl hroom
    · exact .fails rfl hfree
    · exact reserves_stay (by simp [Coro.Reserving])
  · rw [Option.ite_none_right_eq_some] at h
    obtain rfl := Option.some.inj h.2
    exact reserves_takes rfl (by decide)
  · split_ifs at h
    all_goals obtain rfl := Option.some.inj h
    · exact .leaves not_reserving_reserveUnlocked
    · exact .leaves not_reserving_reserve
  · rw [Option.ite_none_right_eq_some] at h
    obtain rfl := Option.some.inj h.2
    exact reserves_takes rfl (by decide)
  · obtain rfl := Option.some.inj h
    exact reserves_leaveSend _
  · obtain rfl := Option.some.inj h
    exact reserves_leaveSend _
  · split_ifs at h
    all_goals obtain rfl := Option.some.inj h
    · exact reserves_stay (by simp [Coro.Reserving])
    · exact reserves_leaveSend _
  · rw [Option.ite_none_right_eq_some] at h
    obtain rfl := Option.some.inj h.2
    exact reserves_leaveSend _
  all_goals first
    | (obtain rfl := Option.some.inj h
       exact reserves_leaveSend _)
    | cases h

end Reserves

/-! ## All of them -/

/-- The event does not release the lock of another coroutine: it does not cancel one again that is
giving up its wait for room on the lane, while another one is inside `_reserve` with the lock. -/
def Owning (s : Sys) (e : Event) : Prop :=
  ∀ t, e = .run t .cancelled → ∀ c caller body,
    s.coro t = .send c caller body (.laneWait .leaving) →
      ∀ o, s.lane.capacity = some o → ¬ (s.coro o).Reserving

section Owning

variable {E : AesKeystream} {s s' : Sys} {e : Event}

lemma LaneHeld.secure (h : LaneHeld s) (ha : Owning s e) (hs : step E e s = some s') :
    s.Secure e.mover := by
  refine ⟨h, fun t ht c caller body hpc o ho => ?_⟩
  cases e with
  | run u i =>
      obtain rfl : u = t := Option.some.inj ht
      cases i with
      | cancelled => exact ha u rfl c caller body hpc o ho
      | resume =>
          -- its inner task can only take a lock that is free
          simp only [step, coroStep, hpc, sendStep, Option.ite_none_right_eq_some] at hs
          rw [hs.1] at ho
          cases ho
      | _ => simp [step, coroStep, hpc, sendStep] at hs
  | _ => cases ht

/-- **Whoever is inside `_reserve` holds its lock.** -/
theorem laneHeld_of_step (h : Reaches E s) (hheld : LaneHeld s) (ha : Owning s e)
    (hs : step E e s = some s') : LaneHeld s' := by
  have hsec := hheld.secure ha hs
  have hturn := h.turn hs
  have hone : ∀ t, (s'.coro t).Reserving → s'.lane.capacity = some t ∧ ∀ c caller body,
      s'.coro t = .send c caller body (.laneWait .granted) →
        s'.lane.closed = true ∨ s'.lane.HasCapacity body.length := by
    intro t hres
    by_cases hmover : some t = e.mover
    · obtain ⟨c, caller, body, w, hcoro⟩ :
          ∃ c caller body w, s'.coro t = .send c caller body (.laneWait w) := by
        unfold Coro.Reserving at hres
        split at hres
        · exact ⟨_, _, _, _, ‹_›⟩
        · cases hres
      cases sendOrigin_of_step h hs hcoro with
      | called hpc => cases hpc
      | decided _ hpc => cases hpc
      | stayed pc hpc =>
          cases e with
          | run u i =>
              obtain rfl : t = u := Option.some.inj hmover
              obtain ⟨cancelling, hstep⟩ := coroStep_of_run hs
              simp only [coroStep, hpc] at hstep
              have hmine : pc = .laneWait .start → s.lane.capacity = some t := by
                rintro rfl
                exact hheld.lane t (by rw [hpc]; exact Or.inl rfl)
              cases reserves_sendStep hstep with
              | takes hlock hnot =>
                  refine ⟨hlock, fun c' caller' body' hcoro' => ?_⟩
                  rw [hcoro] at hcoro' hnot
                  cases hcoro'
                  exact absurd rfl hnot
              | grants hstart hlane hroom =>
                  rw [hlane]
                  refine ⟨hmine hstart, fun c' caller' body' hcoro' => ?_⟩
                  rw [hcoro] at hcoro'
                  cases hcoro'
                  exact hroom
              | fails hstart hfree =>
                  have hfree : s.lane.capacity = none := hfree
                  rw [hmine hstart] at hfree
                  cases hfree
              | leaves hnot => exact absurd hres hnot
          | _ => cases hmover
    · by_cases hlt : t < s.nextTask
      · rw [hturn.coro t hmover hlt] at hres ⊢
        have hlock := hheld.lane t hres
        obtain ⟨hlock', hinflight, hqueued⟩ := hturn.lane.locked hsec t hmover hres hlock
        refine ⟨hlock', fun c caller body hcoro => ?_⟩
        refine (hheld.room t c caller body hcoro).imp hturn.lane.closed fun hroom => ?_
        exact ⟨hinflight.symm ▸ hroom.1, hqueued.symm ▸ hroom.2⟩
      · have hborn := hturn.born t (not_lt.mp hlt)
        unfold Coro.Reserving at hres
        split at hres
        · rename_i hcoro
          rw [hcoro] at hborn
          cases hborn.2
        · cases hres
  exact ⟨fun t hres => (hone t hres).1, fun t c caller body hcoro =>
    (hone t (by rw [hcoro]; exact Or.inr (Or.inl rfl))).2 c caller body hcoro⟩

lemma laneHeld_starting (h : Starting s) : LaneHeld s := by
  obtain ⟨clock, debug, -, rfl⟩ := h
  exact ⟨nofun, nofun⟩

/-- **The lock of the lane along a run.** -/
theorem laneHeld_of_owning {ok : Sys → Event → Prop} (hok : ∀ s e, ok s e → Owning s e)
    (h : Reachable Starting (step E) ok s) : LaneHeld s :=
  h.invariant (fun _ => laneHeld_starting) fun s e _ hr hheld ha hs =>
    laneHeld_of_step hr.always hheld (hok s e ha) hs

end Owning

/-! ## A foreign release -/

/-- A packet is sent on the next channel, by the coroutine `t`, which runs `n` times. -/
def sendsNext (c t n : ℕ) : List Event :=
  [Event.openChannel, .send c [0]] ++ List.replicate n (Event.run t .resume)

/-- The lane is full and one more packet waits for it.  A request ends and a second packet is let
in; before its coroutine has left `_reserve`, the one that waits is cancelled twice and releases the
lock. -/
def foreignRelease : List Event :=
  (List.range 64).flatMap (fun i => sendsNext i (2 * i) 7) ++ sendsNext 64 128 6 ++
    [Event.run 1 .resume, .run 1 (.opened {}), .run 1 .bodyEnd, .run 1 .resume] ++
    sendsNext 65 129 6 ++ [.cancel 128, .run 128 .cancelled, .cancel 128, .run 128 .cancelled]

end TgWsProxy
