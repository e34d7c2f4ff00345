import TgWsProxy.H2.Lane.Turn

/-!
# Every step is a turn

* `turn_sendStep`, … — one coroutine runs, and leaves to the others what is theirs.
* `turn_of_step` — every step from a well-formed state whose senders hold their locks.
* `held_of_step` — and the senders still hold them.
-/

namespace TgWsProxy

open Wire

/-! ## Sending -/

section Send

variable {s s' : Sys} {t c : ℕ} {caller : Caller}

lemma turn_loopRecover (h : Turn (some t) s s') (ht : t < s.nextTask) (hc : c < s.nextChan)
    (hkind : (s.coro t).kind = .recover) : Turn (some t) s (s'.loopRecover t c) := by
  refine h.setCoro (c := c) ht ?_ ?_
  · split_ifs
    · exact Or.inl rfl
    · exact Or.inr ⟨rfl, hc⟩
  · rw [hkind]
    split_ifs
    · exact Or.inr (Or.inl rfl)
    · exact Or.inl rfl

lemma turn_done (h : Turn (some t) s s') (ht : t < s.nextTask) :
    Turn (some t) s (s'.setCoro t .done) :=
  h.setCoro (c := 0) ht (Or.inl rfl) (Or.inr (Or.inl rfl))

lemma turn_afterSend (h : Turn (some t) s s') (ht : t < s.nextTask) (hc : c < s.nextChan)
    (hkind : (s.coro t).kind = caller.kind) (exit : SendExit) :
    Turn (some t) s (s'.afterSend t c caller exit) := by
  unfold Sys.afterSend
  split
  · exact h.setCoro ht (Or.inr ⟨rfl, hc⟩) (Or.inl hkind.symm)
  · exact turn_loopRecover h ht hc hkind
  · exact turn_done h ht

lemma turn_leaveSend (h : Turn (some t) s s') (ht : t < s.nextTask) (hc : c < s.nextChan)
    (hkind : (s.coro t).kind = caller.kind) (hlock : ∀ u, (s'.chan c).sendLock = some u → u = t)
    (exit : SendExit) : Turn (some t) s (s'.leaveSend t c caller exit) :=
  turn_afterSend (h.setChan hc fun u hu hl => absurd (congrArg some (hlock u hl)) hu) ht hc hkind
    exit

lemma turn_stay {body : Bytes} {pc : SendPc} (h : Turn (some t) s s') (ht : t < s.nextTask)
    (hc : c < s.nextChan) (hkind : (s.coro t).kind = caller.kind) :
    Turn (some t) s (s'.setCoro t (.send c caller body pc)) :=
  h.setCoro ht (Or.inr ⟨rfl, hc⟩) (Or.inl hkind.symm)

lemma turn_passChannel (h : Turn (some t) s s') (ht : t < s.nextTask) (hc : c < s.nextChan)
    (hkind : (s.coro t).kind = caller.kind) (hlock : ∀ u, (s'.chan c).sendLock = some u → u = t)
    (body : Bytes) : Turn (some t) s (s'.passChannel t c caller body) := by
  unfold Sys.passChannel
  simp only
  split_ifs
  · exact turn_leaveSend h ht hc hkind hlock .raised
  · exact turn_stay (h.setChan hc fun _ _ hl => by exact hl) ht hc hkind
  · exact turn_stay (h.setChan hc fun _ _ hl => by exact hl) ht hc hkind

@[simp] lemma Channel.registerNative_sendLock (ch : Channel) (task : ℕ) (now : ℤ) (body : Bytes)
    (debug : Bool) : (ch.registerNative task now body debug).1.sendLock = ch.sendLock := by
  obtain ⟨key, history, traces, heq⟩ := ch.registerNative_eq task now body debug
  rw [heq]

lemma turn_create {info : Request} {ch : Channel} (h : Turn (some t) s s') (ht : t < s.nextTask)
    (hc : c < s.nextChan) (hkind : (s.coro t).kind = caller.kind)
    (hlock : ∀ u, (s'.chan c).sendLock = some u → u = t) (hnew : s'.nextTask = s.nextTask)
    (hch : ch.sendLock = (s'.chan c).sendLock) (marks : List Mark) :
    Turn (some t) s ((((s'.setChan c ch).spawn [.request c info .created]).mark c
      marks).leaveSend t c caller .returned) := by
  refine turn_leaveSend (Turn.mark (Turn.spawn (h.setChan hc fun u _ hl => hch.trans hl) hnew
    (fun u hu => ?_) fun k hk => ?_) hc marks) ht hc hkind (fun u hu => hlock u ?_) .returned
  · cases hu
    exact ht
  · obtain rfl := List.mem_singleton.mp hk
    exact ⟨rfl, fun c' hc' => by cases hc'; exact hc, fun _ => Or.inl rfl⟩
  · rw [← hch]
    simpa using hu

lemma turn_enter (h : Turn (some t) s s') (ht : t < s.nextTask) (hc : c < s.nextChan)
    (hkind : (s.coro t).kind = caller.kind) (hlock : ∀ u, (s'.chan c).sendLock = some u → u = t)
    (hnew : s'.nextTask = s.nextTask) (body : Bytes) :
    Turn (some t) s (s'.enter t c caller body) := by
  unfold Sys.enter
  simp only
  split_ifs
  · exact turn_stay h ht hc hkind
  · split
    · split_ifs
      · exact turn_create h ht hc hkind hlock hnew (by rfl) _
      · exact turn_stay h ht hc hkind
    · exact turn_stay h ht hc hkind
  · exact turn_create h ht hc hkind hlock hnew (Channel.registerNative_sendLock _ _ _ _ _) _

lemma turn_reserve (h : Turn (some t) s s') (ht : t < s.nextTask) (hc : c < s.nextChan)
    (hkind : (s.coro t).kind = caller.kind) (hlock : ∀ u, (s'.chan c).sendLock = some u → u = t)
    (hnew : s'.nextTask = s.nextTask) {body : Bytes}
    (hlane : s.Secure (some t) → ∀ u, (s.coro u).Reserving → s'.lane.capacity = some u → u = t)
    (hroom : s.Secure (some t) → s'.lane.closed = true ∨ s'.lane.HasCapacity body.length) :
    Turn (some t) s (s'.reserve t c caller body) := by
  unfold Sys.reserve
  split_ifs with hclosed
  · exact turn_leaveSend h ht hc hkind hlock .raised
  · exact turn_enter (Turn.setLane h (.reserve hlane fun hsec => (hroom hsec).resolve_left hclosed)
      (by rfl)) ht hc hkind hlock hnew body

lemma turn_reserveUnlocked {n : ℕ} (h : Turn (some t) s s') (ht : t < s.nextTask)
    (hc : c < s.nextChan) (hkind : (s.coro t).kind = caller.kind)
    (hlock : ∀ u, (s'.chan c).sendLock = some u → u = t) (hnot : ¬ s.Secure (some t)) :
    Turn (some t) s (s'.reserveUnlocked t c caller n) := by
  unfold Sys.reserveUnlocked
  split_ifs
  · exact turn_leaveSend h ht hc hkind hlock .raised
  · exact turn_leaveSend (h.setLane (.reserve (fun hsec => absurd hsec hnot)
      fun hsec => absurd hsec hnot) (by rfl)) ht hc hkind (by simpa using hlock) .raised

theorem turn_sendStep {body : Bytes} {pc : SendPc} {i : Input} (hf : Formed s)
    (hpc : s.coro t = .send c caller body pc) (hhold : Holding s t c pc)
    (h : sendStep s t c caller body pc i = some s') : Turn (some t) s s' := by
  have ht : t < s.nextTask := hf.lt (by simp [hpc])
  have hc : c < s.nextChan := hf.channel t c (by rw [hpc]; rfl)
  have hkind : (s.coro t).kind = caller.kind := by rw [hpc]; rfl
  have hrefl : Turn (some t) s s := .refl hf
  have hown : pc ≠ .sendLock → ∀ u, (s.chan c).sendLock = some u → u = t := fun hne u hu =>
    Option.some.inj (hu.symm.trans (hhold hne))
  have hlane : ∀ o, (s.Secure (some t) → ∀ u, (s.coro u).Reserving → s.lane.capacity = some u →
      u = t) → Turn (some t) s (s.setLane { s.lane with capacity := o }) := fun o hfree =>
    hrefl.setLane (.lock hfree) (by rfl)
  -- whoever is in `_reserve` with its lock is the only one
  have hmine : (s.coro t).Reserving → s.Secure (some t) → ∀ u, (s.coro u).Reserving →
      s.lane.capacity = some u → u = t := fun hres hsec u _ hu =>
    Option.some.inj (hu.symm.trans (hsec.1.lane t hres))
  have hnobody : s.lane.capacity = none → s.Secure (some t) → ∀ u, (s.coro u).Reserving →
      s.lane.capacity = some u → u = t := fun hfree _ u _ hu => by
    rw [hfree] at hu
    cases hu
  unfold sendStep at h
  split at h
  · simp only [Option.ite_none_right_eq_some, Option.some.injEq] at h
    obtain ⟨hfree, rfl⟩ := h
    exact turn_stay (hrefl.setChan hc fun u _ hu => by rw [hfree] at hu; cases hu) ht hc hkind
  · obtain rfl := Option.some.inj h
    refine turn_afterSend (hrefl.setChan hc fun u _ hu => ?_) ht hc hkind .raised
    unfold Channel.endWait
    split_ifs <;> exact hu
  · simp only at h
    split_ifs at h
    all_goals obtain rfl := Option.some.inj h
    · exact turn_passChannel hrefl ht hc hkind (hown (by simp)) body
    · exact turn_leaveSend hrefl ht hc hkind (hown (by simp)) .returned
    · exact turn_stay (hrefl.setChan hc fun _ _ hu => by exact hu) ht hc hkind
  · simp only at h
    split_ifs at h
    all_goals obtain rfl := Option.some.inj h
    · exact turn_stay hrefl ht hc hkind
    · exact turn_stay hrefl ht hc hkind
    · exact turn_stay (hrefl.setChan hc fun _ _ hu => by exact hu) ht hc hkind
  · simp only [Option.ite_none_right_eq_some, Option.some.injEq] at h
    obtain ⟨-, rfl⟩ := h
    exact turn_stay (hrefl.setChan hc fun _ _ hu => by exact hu) ht hc hkind
  · simp only at h
    split_ifs at h
    all_goals obtain rfl := Option.some.inj h
    · exact turn_leaveSend hrefl ht hc hkind (hown (by simp)) .raised
    · exact turn_passChannel (hrefl.setChan hc fun _ _ hu => by exact hu) ht hc hkind
        (by simpa using hown (by simp)) body
  · simp only [Option.ite_none_right_eq_some, Option.some.injEq] at h
    obtain ⟨-, rfl⟩ := h
    exact turn_stay (hrefl.setChan hc fun _ _ hu => by exact hu) ht hc hkind
  · obtain rfl := Option.some.inj h
    exact turn_leaveSend ((hrefl.orphans _).setChan hc fun _ _ hu => by exact hu) ht hc hkind
      (by simpa using hown (by simp)) .raised
  · obtain rfl := Option.some.inj h
    exact turn_leaveSend (hrefl.setChan hc fun _ _ hu => by exact hu) ht hc hkind
      (by simpa using hown (by simp)) .raised
  · split_ifs at h
    all_goals obtain rfl := Option.some.inj h
    · exact turn_stay hrefl ht hc hkind
    · exact turn_leaveSend (hrefl.setChan hc fun _ _ hu => by exact hu) ht hc hkind
        (by simpa using hown (by simp)) .raised
  · split_ifs at h with hfree hreplay hroom
    all_goals obtain rfl := Option.some.inj h
    · have hfree : s.lane.capacity = none := by simpa using hfree
      exact turn_reserve hrefl ht hc hkind (hown (by simp)) rfl (hnobody hfree)
        fun _ => Or.inr hroom
    · exact turn_leaveSend hrefl ht hc hkind (hown (by simp)) .returned
    · exact turn_stay (hlane (some t) (hnobody (by simpa using hfree))) ht hc hkind
  · split_ifs at h
    all_goals obtain rfl := Option.some.inj h
    · exact turn_stay hrefl ht hc hkind
    · exact turn_stay hrefl ht hc hkind
    · exact turn_stay (hlane none (hmine (by rw [hpc]; exact Or.inl rfl))) ht hc hkind
  · simp only [Option.ite_none_right_eq_some, Option.some.injEq] at h
    obtain ⟨hfree, rfl⟩ := h
    exact turn_stay (hlane (some t) (hnobody hfree)) ht hc hkind
  · have hres : (s.coro t).Reserving := by
      rw [hpc]
      exact Or.inr (Or.inl rfl)
    split_ifs at h with hfree
    all_goals obtain rfl := Option.some.inj h
    · refine turn_reserveUnlocked hrefl ht hc hkind (hown (by simp)) fun hsec => ?_
      rw [hsec.1.lane t hres] at hfree
      cases hfree
    · exact turn_reserve (hlane none (hmine hres)) ht hc hkind (hown (by simp)) rfl
        (fun _ u _ hu => by simp at hu) fun hsec => hsec.1.room t c caller body hpc
  · simp only [Option.ite_none_right_eq_some, Option.some.injEq] at h
    obtain ⟨hfree, rfl⟩ := h
    exact turn_stay (hlane (some t) (hnobody hfree)) ht hc hkind
  · obtain rfl := Option.some.inj h
    -- it may be the lock of another that is released
    refine turn_leaveSend ((hrefl.orphans _).setLane (.lock fun hsec u hres hu => ?_)
      (by rfl)) ht hc hkind (by simpa using hown (by simp)) .raised
    exact absurd hres (hsec.2 t rfl c caller body hpc u hu)
  · obtain rfl := Option.some.inj h
    exact turn_leaveSend (hlane none (hmine (by rw [hpc]; exact Or.inr (Or.inr rfl)))) ht hc hkind
      (hown (by simp)) .raised
  · rename_i w _ _ _ _ _ _
    split_ifs at h with hi hparked
    all_goals obtain rfl := Option.some.inj h
    · exact turn_stay hrefl ht hc hkind
    · refine turn_leaveSend (hlane none (hmine ?_)) ht hc hkind (hown (by simp)) .raised
      rw [hpc]
      cases w with
      | start => exact Or.inl rfl
      | granted => exact Or.inr (Or.inl rfl)
      | failed => exact Or.inr (Or.inr rfl)
      | parked => exact absurd rfl hparked
      | leaving => simp_all
  · simp only [Option.ite_none_right_eq_some, Option.some.injEq] at h
    obtain ⟨hfree, rfl⟩ := h
    exact turn_leaveSend (hrefl.setLane (.release hfree) (by rfl)) ht hc hkind (hown (by simp)) _
  all_goals first
    | (obtain rfl := Option.some.inj h
       exact turn_leaveSend hrefl ht hc hkind (hown (by simp)) .raised)
    | cases h

end Send

/-! ## Requests -/

section Request

variable {s s' : Sys} {t c : ℕ}

lemma turn_request {info : Request} {pc : RequestPc} (h : Turn (some t) s s')
    (ht : t < s.nextTask) (hc : c < s.nextChan) (hkind : (s.coro t).kind = .request) :
    Turn (some t) s (s'.setCoro t (.request c info pc)) :=
  h.setCoro ht (Or.inr ⟨rfl, hc⟩) (Or.inl hkind.symm)

@[simp] lemma Channel.settle_sendLock (ch : Channel) (packet : Option ℕ) (now : ℤ) (e : PostEnd) :
    (ch.settle packet now e).1.sendLock = ch.sendLock := by
  obtain ⟨_, _, _, _, _, _, _, heq⟩ := ch.settle_eq packet now e
  rw [heq]

lemma Channel.finishRequest_sendLock {ch ch' : Channel} {task length : ℕ} {packet : Option ℕ}
    (h : ch.finishRequest task packet = some (length, ch')) : ch'.sendLock = ch.sendLock := by
  obtain ⟨-, history, rfl⟩ := Channel.finishRequest_eq_some h
  rfl

lemma turn_endPost {info : Request} {p : Post} (h : Turn (some t) s s') (ht : t < s.nextTask)
    (hc : c < s.nextChan) (hkind : (s.coro t).kind = .request) (e : PostEnd) :
    Turn (some t) s (s'.endPost t c info p e) := by
  unfold Sys.endPost Sys.finish
  simp only
  have hlane : Turn (some t) s (s'.setLane { s'.lane with
      replyBufferBytes := s'.lane.replyBufferBytes - p.content.length }) :=
    h.setLane (.buffer (Or.inl (Int.sub_le_self _ (by simp)))) (by rfl)
  have hsettle : ∀ ch : Channel, ch.sendLock = (s'.chan c).sendLock → Turn (some t) s
      (((s'.setLane { s'.lane with
        replyBufferBytes := s'.lane.replyBufferBytes - p.content.length }).setChan c
          (ch.settle info.packet s'.clock e).1).mark c (ch.settle info.packet s'.clock e).2) :=
    fun ch hch => Turn.mark (hlane.setChan hc fun _ _ hu => by
      rw [Channel.settle_sendLock, hch]
      exact hu) hc _
  have hsettle := hsettle (if p.receiving then
    { s'.chan c with receivingTasks := (s'.chan c).receivingTasks.erase t } else s'.chan c)
    (by split_ifs <;> rfl)
  split
  · rename_i length ch hfinish
    refine turn_request (Turn.setChan hsettle hc fun u _ hu => ?_) ht hc hkind
    rw [Channel.finishRequest_sendLock hfinish]
    exact hu
  · exact turn_request hsettle ht hc hkind

theorem turn_requestStep {info : Request} {pc : RequestPc} {i : Input} (hf : Formed s)
    (hpc : s.coro t = .request c info pc) (h : requestStep s t c info pc i = some s') :
    Turn (some t) s s' := by
  have ht : t < s.nextTask := hf.lt (by simp [hpc])
  have hc : c < s.nextChan := hf.channel t c (by rw [hpc]; rfl)
  have hkind : (s.coro t).kind = .request := by rw [hpc]; rfl
  have hrefl : Turn (some t) s s := .refl hf
  have hset : ∀ ch : Channel, ch.sendLock = (s.chan c).sendLock →
      Turn (some t) s (s.setChan c ch) := fun _ hch =>
    hrefl.setChan hc fun _ _ hu => hch.trans hu
  unfold requestStep at h
  split at h
  · obtain rfl := Option.some.inj h
    exact turn_request hrefl ht hc hkind
  · obtain rfl := Option.some.inj h
    exact turn_request hrefl ht hc hkind
  · simp only [Option.ite_none_right_eq_some, Option.some.injEq] at h
    obtain ⟨-, rfl⟩ := h
    exact turn_request (hset _ (by rfl)) ht hc hkind
  · split_ifs at h
    obtain rfl := Option.some.inj h
    exact turn_request (hset _ (by rfl)) ht hc hkind
  · rename_i p head
    rw [Option.ite_none_left_eq_some] at h
    obtain ⟨-, h⟩ := h
    have hhead : Turn (some t) s
        (if p.receiving then s else s.setChan c ((s.chan c).responseStarted t s.clock)) := by
      split_ifs
      · exact hrefl
      · exact hset _ rfl
    split at h
    · obtain rfl := Option.some.inj h
      exact turn_endPost hrefl ht hc hkind _
    · simp only at h
      split_ifs at h hhead
      all_goals obtain rfl := Option.some.inj h
      · exact turn_endPost hhead ht hc hkind _
      · exact turn_endPost hhead ht hc hkind _
      · exact turn_request hhead ht hc hkind
      · exact turn_request hhead ht hc hkind
  · split_ifs at h with hopened hmax hlane
    all_goals obtain rfl := Option.some.inj h
    · exact turn_endPost hrefl ht hc hkind _
    · exact turn_endPost hrefl ht hc hkind _
    · exact turn_request
        (Turn.setChan (hrefl.setLane (.buffer (Or.inr (not_lt.mp hlane))) (by rfl)) hc
        fun _ _ hu => by exact hu) ht hc hkind
  · split_ifs at h
    obtain rfl := Option.some.inj h
    exact turn_endPost hrefl ht hc hkind _
  · split at h
    · cases h
    · obtain rfl := Option.some.inj h
      exact turn_endPost hrefl ht hc hkind _
  · obtain rfl := Option.some.inj h
    exact turn_endPost hrefl ht hc hkind _
  · simp only [Option.ite_none_right_eq_some, Option.some.injEq] at h
    obtain ⟨hfree, rfl⟩ := h
    exact turn_request (hrefl.setLane (.release hfree) (by rfl)) ht hc hkind
  · obtain rfl := Option.some.inj h
    exact turn_request hrefl ht hc hkind
  · simp only [Option.ite_none_right_eq_some, Option.some.injEq] at h
    obtain ⟨-, rfl⟩ := h
    refine turn_request (hset _ ?_) ht hc hkind
    unfold Channel.wakeReceiver
    split_ifs <;> rfl
  · obtain rfl := Option.some.inj h
    exact turn_request hrefl ht hc hkind
  · cases h

end Request

/-! ## The other coroutines -/

section Others

variable {s s' : Sys} {t c : ℕ}

lemma Channel.wakeReceiver_sendLock (ch : Channel) : ch.wakeReceiver.sendLock = ch.sendLock := by
  unfold Channel.wakeReceiver
  split_ifs <;> rfl

lemma turn_sendReplay (h : Turn (some t) s s') (ht : t < s.nextTask) (hc : c < s.nextChan)
    (hkind : (s.coro t).kind = .recover) (body : Bytes) :
    Turn (some t) s (s'.sendReplay t c body) := by
  unfold Sys.sendReplay
  split_ifs
  · exact turn_loopRecover h ht hc hkind
  · exact turn_stay h ht hc hkind

lemma turn_recoverPass (h : Turn (some t) s s') (ht : t < s.nextTask) (hc : c < s.nextChan)
    (hkind : (s.coro t).kind = .recover) (now : ℤ) :
    Turn (some t) s (s'.recoverPass t c now) := by
  unfold Sys.recoverPass
  simp only
  split_ifs
  · exact turn_loopRecover h ht hc hkind
  · split
    · exact turn_loopRecover h ht hc hkind
    · exact turn_sendReplay h ht hc hkind _
    · exact (h.cancelAll _).setCoro ht (Or.inr ⟨rfl, hc⟩) (Or.inl hkind.symm)

/-- When `_make_upload_room` looks at a channel. -/
lemma mem_roomChannels {now : ℤ} {order : List ℕ} {owner : ℕ}
    (h : owner ∈ s.roomChannels c now order) :
    ((s.chan c).closed = false ∧ (s.chan c).uploadWaitSince ≠ none) ∧
      ((s.chan c).uploadWaitPhase = .channelCapacity ∧
          ¬ (s.chan c).HasCapacity (s.chan c).uploadWaitBytes ∧ owner = c ∨
        (s.chan c).uploadWaitPhase = .laneCapacity ∧
          ¬ s.lane.HasCapacity (s.chan c).uploadWaitBytes ∧ owner ∈ order) := by
  unfold Sys.roomChannels at h
  by_cases hskip : (s.chan c).closed = true ∨ (s.chan c).uploadWaitSince = none
  · simp [hskip] at h
  · simp only [hskip, if_false] at h
    refine ⟨⟨Bool.eq_false_iff.mpr fun hclosed => hskip (.inl hclosed),
      fun hsince => hskip (.inr hsince)⟩, ?_⟩
    cases hphase : (s.chan c).uploadWaitPhase with
    | idle => simp [hphase] at h
    | sendLock => simp [hphase] at h
    | channelCapacity =>
        simp only [hphase, List.mem_ite_nil_left, List.mem_singleton] at h
        exact Or.inl ⟨rfl, h⟩
    | laneCapacity =>
        simp only [hphase, List.mem_ite_nil_left, List.mem_insertionSort] at h
        exact Or.inr ⟨rfl, h⟩

/-- The channels `_make_upload_room` looks at are there. -/
lemma lt_of_roomChannels (hf : Formed s) (hc : c < s.nextChan) {now : ℤ} {order : List ℕ}
    (horder : order.toFinset = s.lane.channels) {owner : ℕ}
    (h : owner ∈ s.roomChannels c now order) : owner < s.nextChan := by
  rcases (mem_roomChannels h).2 with ⟨-, -, rfl⟩ | ⟨-, -, hmem⟩
  · exact hc
  · rw [← List.mem_toFinset, horder] at hmem
    exact hf.lane owner hmem

lemma mem_of_makeUploadRoom {now : ℤ} {order : List ℕ} {owner victim : ℕ} {packet : Option ℕ}
    (h : s.makeUploadRoom c now order = some (owner, victim, packet)) :
    owner ∈ s.roomChannels c now order ∧
      (s.chan owner).capacityCandidate s.isDone now = some (victim, packet) := by
  unfold Sys.makeUploadRoom at h
  obtain ⟨owner', hmem, hsome⟩ := List.exists_of_findSome?_eq_some h
  obtain ⟨candidate, hcandidate, heq⟩ := Option.map_eq_some_iff.mp hsome
  cases heq
  exact ⟨hmem, hcandidate⟩

lemma Channel.rotate_sendLock (ch : Channel) (victim : ℕ) (packet : Option ℕ) :
    (ch.rotate victim packet).sendLock = ch.sendLock := by
  cases packet <;> rfl

theorem turn_recoverStep {pc : RecoverPc} {i : Input} (hf : Formed s)
    (hpc : s.coro t = .recover c pc) (h : recoverStep s t c pc i = some s') :
    Turn (some t) s s' := by
  have ht : t < s.nextTask := hf.lt (by simp [hpc])
  have hc : c < s.nextChan := hf.channel t c (by rw [hpc]; rfl)
  have hkind : (s.coro t).kind = .recover := by rw [hpc]; rfl
  have hrefl : Turn (some t) s s := .refl hf
  have hstay : ∀ pc', Turn (some t) s (s.setCoro t (.recover c pc')) := fun _ =>
    hrefl.setCoro ht (Or.inr ⟨rfl, hc⟩) (Or.inl hkind.symm)
  have hwake : Turn (some t) s (s.setChan c { s.chan c with recoveryWakeup := false }) :=
    hrefl.setChan hc fun _ _ hu => by exact hu
  unfold recoverStep at h
  split at h
  · obtain rfl := Option.some.inj h
    exact hstay _
  · obtain rfl := Option.some.inj h
    exact hstay _
  · obtain rfl := Option.some.inj h
    exact turn_done hrefl ht
  · rename_i order
    rw [Option.ite_none_right_eq_some] at h
    obtain ⟨⟨-, horder⟩, h⟩ := h
    simp only at h
    split at h
    · rename_i owner victim packet hroom
      obtain rfl := Option.some.inj h
      have howner := lt_of_roomChannels (s := s.setChan c { s.chan c with recoveryWakeup := false })
        hwake.formed hc horder (mem_of_makeUploadRoom hroom).1
      refine Turn.setCoro (Turn.cancelAll (Turn.setChan hwake howner fun _ _ hu => ?_) _) ht
        (Or.inr ⟨rfl, hc⟩) (Or.inl hkind.symm)
      rw [Channel.rotate_sendLock]
      exact hu
    · obtain rfl := Option.some.inj h
      exact turn_recoverPass hwake ht hc hkind _
  · obtain rfl := Option.some.inj h
    exact turn_done hrefl ht
  · rw [Option.ite_none_right_eq_some] at h
    obtain rfl := Option.some.inj h.2
    exact turn_recoverPass hrefl ht hc hkind _
  · rw [Option.ite_none_right_eq_some] at h
    obtain rfl := Option.some.inj h.2
    exact turn_sendReplay hrefl ht hc hkind _
  · rw [Option.ite_none_right_eq_some] at h
    obtain rfl := Option.some.inj h.2
    exact turn_done hrefl ht
  · rw [Option.ite_none_right_eq_some] at h
    obtain rfl := Option.some.inj h.2
    exact turn_done hrefl ht
  · cases h

lemma turn_writeNative {E : AesKeystream} {n : Native} {data : Bytes} {m : Option ℕ}
    (h : Turn m s s') (hc : c < s.nextChan) : Turn m s (s'.writeNative E c n data) :=
  h.setNative hc _

theorem turn_downloadStep {E : AesKeystream} {pc : DownloadPc} {i : Input} (hf : Formed s)
    (hpc : s.coro t = .download c pc) (h : downloadStep E s t c pc i = some s') :
    Turn (some t) s s' := by
  have ht : t < s.nextTask := hf.lt (by simp [hpc])
  have hc : c < s.nextChan := hf.channel t c (by rw [hpc]; rfl)
  have hkind : (s.coro t).kind = .download := by rw [hpc]; rfl
  have hrefl : Turn (some t) s s := .refl hf
  have hset : ∀ ch : Channel, ch.sendLock = (s.chan c).sendLock →
      Turn (some t) s (s.setChan c ch) := fun _ hch =>
    hrefl.setChan hc fun _ _ hu => hch.trans hu
  unfold downloadStep at h
  split at h
  · simp only at h
    split at h
    · cases h
    · obtain rfl := Option.some.inj h
      exact turn_done (hset _ (by rfl)) ht
    · rename_i body queue hqueue
      have hwake := hset _ (Channel.wakeReceiver_sendLock
        { s.chan c with queue := queue, replyBytes := (s.chan c).replyBytes - body.length })
      split_ifs at h
      · obtain rfl := Option.some.inj h
        exact turn_done hwake ht
      · unfold Sys.writeReply at h
        split at h
        · cases h
        · split at h
          · obtain rfl := Option.some.inj h
            exact turn_done hwake ht
          · obtain rfl := Option.some.inj h
            exact Turn.setCoro (Turn.mark (turn_writeNative (Turn.setChan hwake hc
              fun _ _ hu => by exact hu) hc) hc _) ht (Or.inr ⟨rfl, hc⟩) (Or.inl hkind.symm)
  · obtain rfl := Option.some.inj h
    exact turn_done hrefl ht
  · obtain rfl := Option.some.inj h
    have hwake := hset _ (Channel.wakeReceiver_sendLock
      { s.chan c with deliveringSince := none, lastProgress := s.clock })
    exact hwake.setCoro ht (Or.inr ⟨rfl, hc⟩) (Or.inl hkind.symm)
  · obtain rfl := Option.some.inj h
    exact turn_done (hset _ (by rfl)) ht
  · obtain rfl := Option.some.inj h
    exact turn_done (hset _ (by rfl)) ht
  · cases h

theorem turn_bridgeStep {E : AesKeystream} {tasks : List ℕ} {pc : BridgePc} {i : Input}
    (hf : Formed s) (hpc : s.coro t = .bridge c tasks pc)
    (h : bridgeStep E s t c tasks pc i = some s') : Turn (some t) s s' := by
  have ht : t < s.nextTask := hf.lt (by simp [hpc])
  have hc : c < s.nextChan := hf.channel t c (by rw [hpc]; rfl)
  have hkind : (s.coro t).kind = .bridge := by rw [hpc]; rfl
  have hrefl : Turn (some t) s s := .refl hf
  have hstay : ∀ {s₁} pc', Turn (some t) s s₁ →
      Turn (some t) s (s₁.setCoro t (.bridge c tasks pc')) := fun _ h₁ =>
    h₁.setCoro ht (Or.inr ⟨rfl, hc⟩) (Or.inl hkind.symm)
  have hclose : Turn (some t) s (s.setCoro t (.close c .closeLock)) :=
    hrefl.setCoro ht (Or.inr ⟨rfl, hc⟩) (Or.inr (Or.inr ⟨hkind, rfl⟩))
  unfold bridgeStep at h
  split at h
  · rw [Option.ite_none_right_eq_some] at h
    obtain rfl := Option.some.inj h.2
    exact hstay _ (hrefl.cancelAll _)
  · obtain rfl := Option.some.inj h
    exact hstay _ (hrefl.cancelAll _)
  · rw [Option.ite_none_left_eq_some] at h
    obtain ⟨-, h⟩ := h
    split_ifs at h
    · obtain rfl := Option.some.inj h
      exact hclose
    · unfold Sys.reportError at h
      split at h
      · cases h
      · simp only at h
        split at h
        · obtain rfl := Option.some.inj h
          exact hstay _ (Turn.mark (turn_writeNative hrefl hc) hc _)
        · obtain rfl := Option.some.inj h
          exact hclose
  · rw [Option.ite_none_right_eq_some] at h
    obtain rfl := Option.some.inj h.2
    exact hclose
  · obtain rfl := Option.some.inj h
    exact hclose
  · obtain rfl := Option.some.inj h
    exact hclose
  · obtain rfl := Option.some.inj h
    exact hclose
  · cases h

theorem turn_uploadStep {i : Input} (hf : Formed s) (hpc : s.coro t = .upload c)
    (h : uploadStep s t c i = some s') : Turn (some t) s s' := by
  have ht : t < s.nextTask := hf.lt (by simp [hpc])
  have hc : c < s.nextChan := hf.channel t c (by rw [hpc]; rfl)
  have hkind : (s.coro t).kind = .upload := by rw [hpc]; rfl
  have hrefl : Turn (some t) s s := .refl hf
  unfold uploadStep at h
  split at h
  · obtain rfl := Option.some.inj h
    exact turn_stay (hrefl.setChan hc fun _ _ hu => by exact hu) ht hc hkind
  · obtain rfl := Option.some.inj h
    exact turn_done hrefl ht
  · obtain rfl := Option.some.inj h
    exact turn_done hrefl ht
  · cases h

lemma turn_sweep (h : Turn (some t) s s') (ht : t < s.nextTask) (hc : c < s.nextChan)
    (hkind : (s.coro t).kind = .close) (rest : List ℕ) : Turn (some t) s (s'.sweep t c rest) := by
  rcases s'.sweep_cases t c rest with
    ⟨skipped, task, rest', length, ch', -, -, hfinish, heq⟩ | ⟨-, heq⟩
  · rw [heq]
    refine (h.setChan hc fun _ _ hu => ?_).setCoro ht (Or.inr ⟨rfl, hc⟩) (Or.inl hkind.symm)
    rw [Channel.finishRequest_sendLock hfinish]
    exact hu
  · rw [heq]
    exact turn_done (Turn.setLane (h.setChan hc fun _ _ hu => by exact hu) (.setChannels _)
      (Finset.erase_subset _ _)) ht

theorem turn_closeStep {pc : ClosePc} {i : Input} (hf : Formed s) (hpc : s.coro t = .close c pc)
    (h : closeStep s t c pc i = some s') : Turn (some t) s s' := by
  have ht : t < s.nextTask := hf.lt (by simp [hpc])
  have hc : c < s.nextChan := hf.channel t c (by rw [hpc]; rfl)
  have hkind : (s.coro t).kind = .close := by rw [hpc]; rfl
  have hrefl : Turn (some t) s s := .refl hf
  have hstay : ∀ {s₁} pc', Turn (some t) s s₁ → Turn (some t) s (s₁.setCoro t (.close c pc')) :=
    fun _ h₁ => h₁.setCoro ht (Or.inr ⟨rfl, hc⟩) (Or.inl hkind.symm)
  have hset : ∀ ch : Channel, ch.sendLock = (s.chan c).sendLock →
      Turn (some t) s (s.setChan c ch) := fun _ hch =>
    hrefl.setChan hc fun _ _ hu => hch.trans hu
  have habort : Turn (some t) s (s.abortClose t c) := turn_done (hset _ (by rfl)) ht
  unfold closeStep at h
  split at h
  · simp only at h
    split_ifs at h
    · obtain rfl := Option.some.inj h
      exact turn_done hrefl ht
    · obtain rfl := Option.some.inj h
      refine hstay _ (Turn.cancelAll (Turn.mark (hset _ ?_) hc _) _)
      unfold Channel.fail
      split_ifs <;> rfl
  · obtain rfl := Option.some.inj h
    exact turn_done hrefl ht
  · rw [Option.ite_none_right_eq_some] at h
    obtain rfl := Option.some.inj h.2
    exact turn_sweep hrefl ht hc hkind _
  · rw [Option.ite_none_right_eq_some] at h
    obtain rfl := Option.some.inj h.2
    exact habort
  · rw [Option.ite_none_right_eq_some] at h
    obtain ⟨hfree, h⟩ := h
    obtain rfl := Option.some.inj h
    exact hstay _ (hrefl.setLane (.release hfree) (by rfl))
  · obtain rfl := Option.some.inj h
    exact habort
  · rw [Option.ite_none_right_eq_some] at h
    obtain rfl := Option.some.inj h.2
    exact turn_sweep (hset _ (Channel.wakeReceiver_sendLock _)) ht hc hkind _
  · obtain rfl := Option.some.inj h
    exact habort
  · cases h

theorem turn_closeLaneStep {pc : CloseLanePc} {i : Input} (hf : Formed s)
    (hpc : s.coro t = .closeLane pc) (h : closeLaneStep s t pc i = some s') :
    Turn (some t) s s' := by
  have ht : t < s.nextTask := hf.lt (by simp [hpc])
  have hrefl : Turn (some t) s s := .refl hf
  unfold closeLaneStep at h
  split at h
  · rename_i order
    rw [Option.ite_none_right_eq_some] at h
    obtain ⟨⟨-, -, horder⟩, h⟩ := h
    obtain rfl := Option.some.inj h
    refine Turn.setCoro (c := 0) (hrefl.spawn rfl (fun u hu => ?_) fun k hk => ?_) ht (Or.inl rfl)
      (Or.inl (by rw [hpc]; rfl))
    · cases hu
      exact ht
    · obtain ⟨c, hmem, rfl⟩ := List.mem_map.mp hk
      rw [← List.mem_toFinset, horder] at hmem
      exact ⟨rfl, fun c' hc' => by cases hc'; exact hf.lane c hmem, fun _ => Or.inr rfl⟩
  · obtain rfl := Option.some.inj h
    exact turn_done hrefl ht
  all_goals first
    | (rw [Option.ite_none_right_eq_some] at h
       obtain rfl := Option.some.inj h.2
       exact turn_done hrefl ht)
    | cases h

end Others

/-! ## Every step -/

theorem turn_coroStep {E : AesKeystream} {s s' : Sys} {t : ℕ} {i : Input} (hf : Formed s)
    (hheld : Held s) (h : coroStep E s t i = some s') : Turn (some t) s s' := by
  unfold coroStep at h
  split at h
  · exact turn_sendStep hf ‹_› (hheld _ _ _ _ _ ‹_›) h
  · exact turn_uploadStep hf ‹_› h
  · exact turn_downloadStep hf ‹_› h
  · exact turn_recoverStep hf ‹_› h
  · exact turn_requestStep hf ‹_› h
  · exact turn_bridgeStep hf ‹_› h
  · exact turn_closeStep hf ‹_› h
  · exact turn_closeLaneStep hf ‹_› h
  · cases h

/-- The coroutine an event runs. -/
def Event.mover : Event → Option ℕ
  | run t _ => some t
  | _ => none

lemma Turn.of_cancelling {m : Option ℕ} {s s' : Sys} {cancelling : Finset ℕ}
    (h : Turn m { s with cancelling := cancelling } s') : Turn m s s' :=
  have hsecure : s.Secure m → Sys.Secure { s with cancelling := cancelling } m := fun hsec =>
    ⟨⟨hsec.1.lane, hsec.1.room⟩, hsec.2⟩
  ⟨h.clock, h.nextTask, h.nextChan, h.coro, h.kind, h.born, h.ran, h.sendLock,
    ⟨h.lane.closed, fun hsec => h.lane.locked (hsecure hsec),
      fun hsec => h.lane.fits (hsecure hsec), h.lane.replies⟩, h.formed⟩

lemma Formed.cancelling {s : Sys} (h : Formed s) (cancelling : Finset ℕ) :
    Formed { s with cancelling := cancelling } :=
  ⟨⟨h.coro⟩, h.channel, h.lane, h.chan, h.log, h.native⟩

lemma Held.cancelling {s : Sys} (h : Held s) (cancelling : Finset ℕ) :
    Held { s with cancelling := cancelling } := fun t c caller body pc hpc =>
  h t c caller body pc hpc

/-- **Every step is a turn.** -/
theorem turn_of_step {E : AesKeystream} {s s' : Sys} {e : Event} (hf : Formed s) (hheld : Held s)
    (h : step E e s = some s') : Turn e.mover s s' := by
  have hrefl : Turn none s s := .refl hf
  have hborn : ∀ {s₁ ks}, Turn none s s₁ → s₁.nextTask = s.nextTask →
      (∀ k ∈ ks, k.Newborn ∧ ∀ c', k.onChannel = some c' → c' < s.nextChan) →
      Turn none s (s₁.spawn ks) := fun h₁ hnew hks =>
    h₁.spawn hnew (fun _ hu => by cases hu) fun k hk => ⟨(hks k hk).1, (hks k hk).2, fun hne =>
      absurd rfl hne⟩
  cases e with
  | tick nanoseconds =>
      obtain rfl := Option.some.inj h
      exact { hrefl with
        clock := by simp
        formed := ⟨⟨hf.coro⟩, hf.channel, hf.lane, hf.chan, hf.log, hf.native⟩ }
  | openChannel =>
      obtain rfl := Option.some.inj h
      have hfresh := hf.chan s.nextChan le_rfl
      exact {
        clock := le_rfl
        nextTask := le_rfl
        nextChan := Nat.le_succ _
        coro := hrefl.coro
        kind := hrefl.kind
        born := hrefl.born
        ran := hrefl.ran
        sendLock := fun c o _ hl => by
          have hne : c ≠ s.nextChan := by
            rintro rfl
            rw [hfresh] at hl
            cases hl
          simpa [Function.update_of_ne hne] using hl
        lane := .setChannels _
        formed := {
          coro := hf.coro
          channel := fun u c hu => (hf.channel u c hu).trans (Nat.lt_succ_self _)
          lane := fun c hc => by
            rcases Finset.mem_insert.mp hc with rfl | hc
            · exact Nat.lt_succ_self _
            · exact (hf.lane c hc).trans (Nat.lt_succ_self _)
          chan := fun c hc => by
            have hne : c ≠ s.nextChan := (Nat.lt_of_succ_le hc).ne'
            simpa [Function.update_of_ne hne] using hf.chan c (Nat.le_of_succ_le hc)
          log := fun c hc => hf.log c (Nat.le_of_succ_le hc)
          native := fun c hc => hf.native c (Nat.le_of_succ_le hc) } }
  | bridge c tag cltEnc =>
      rw [step, Option.ite_none_right_eq_some] at h
      obtain ⟨⟨hc, -⟩, h⟩ := h
      obtain rfl := Option.some.inj h
      refine hborn (hrefl.setNative hc _) rfl fun k hk => ?_
      simp only [List.mem_cons, List.not_mem_nil, or_false] at hk
      rcases hk with rfl | rfl | rfl | rfl
      all_goals exact ⟨by simp [Coro.Newborn], fun c' hc' => by cases hc'; exact hc⟩
  | send c body =>
      rw [step, Option.ite_none_right_eq_some] at h
      obtain ⟨hc, h⟩ := h
      obtain rfl := Option.some.inj h
      refine hborn (hrefl.setChan hc fun _ _ hu => by exact hu) rfl fun k hk => ?_
      obtain rfl := List.mem_singleton.mp hk
      exact ⟨⟨rfl, rfl⟩, fun c' hc' => by cases hc'; exact hc⟩
  | close c =>
      rw [step, Option.ite_none_right_eq_some] at h
      obtain ⟨hc, h⟩ := h
      obtain rfl := Option.some.inj h
      refine hborn hrefl rfl fun k hk => ?_
      obtain rfl := List.mem_singleton.mp hk
      exact ⟨rfl, fun c' hc' => by cases hc'; exact hc⟩
  | closeLane =>
      obtain rfl := Option.some.inj h
      refine hborn (hrefl.setLane .setClosed (by rfl)) rfl fun k hk => ?_
      obtain rfl := List.mem_singleton.mp hk
      exact ⟨rfl, fun c' hc' => by cases hc'⟩
  | cancel t =>
      rw [step, Option.ite_none_right_eq_some] at h
      obtain rfl := Option.some.inj h.2
      exact hrefl.cancelAll _
  | run t i =>
      obtain ⟨cancelling, h⟩ := coroStep_of_run h
      exact Turn.of_cancelling (turn_coroStep (hf.cancelling cancelling)
        (hheld.cancelling cancelling) h)
  | orphanOn t c =>
      rw [step, Option.ite_none_right_eq_some] at h
      obtain ⟨⟨-, hc, -⟩, h⟩ := h
      obtain rfl := Option.some.inj h
      exact (hrefl.orphans _).setChan hc fun _ _ hu => by exact hu
  | orphan t =>
      rw [step, Option.ite_none_right_eq_some] at h
      obtain ⟨⟨-, hfree⟩, h⟩ := h
      obtain rfl := Option.some.inj h
      exact (hrefl.orphans _).setLane (.orphan hfree) (by rfl)

/-! ## Senders keep their locks -/

/-- What `Held` says of one coroutine. -/
def HeldBy (s : Sys) (t : ℕ) : Prop :=
  ∀ c caller body pc, s.coro t = .send c caller body pc → Holding s t c pc

section HeldBy

variable {s : Sys} {t c : ℕ} {caller : Caller} {body : Bytes} {pc : SendPc}

lemma heldBy_stay (h : Holding s t c pc) :
    HeldBy (s.setCoro t (.send c caller body pc)) t := by
  intro c' caller' body' pc' hcoro
  simp only [Sys.setCoro_coro, Function.update_self, Coro.send.injEq] at hcoro
  obtain ⟨rfl, rfl, rfl, rfl⟩ := hcoro
  exact h

lemma holding_entering : Holding s t c .sendLock := fun hne => absurd rfl hne

lemma heldBy_entering : HeldBy (s.setCoro t (.send c caller body .sendLock)) t :=
  heldBy_stay holding_entering

/-- The kinds of coroutines that may be inside `send`. -/
def Kind.Sends : Kind → Prop
  | sender => True
  | upload => True
  | recover => True
  | _ => False

lemma heldBy_of_kind (h : ¬ (s.coro t).kind.Sends) : HeldBy s t := by
  intro c caller body pc hcoro
  rw [hcoro] at h
  cases caller <;> exact absurd trivial h

lemma heldBy_loopRecover : HeldBy (s.loopRecover t c) t := by
  intro c' caller body pc hcoro
  simp only [Sys.loopRecover, Sys.setCoro_coro, Function.update_self] at hcoro
  split_ifs at hcoro

lemma heldBy_afterSend (exit : SendExit) : HeldBy (s.afterSend t c caller exit) t := by
  unfold Sys.afterSend
  split
  · intro c' caller body pc hcoro
    simp at hcoro
  · exact heldBy_loopRecover
  · intro c' caller body pc hcoro
    simp at hcoro

lemma heldBy_leaveSend (exit : SendExit) : HeldBy (s.leaveSend t c caller exit) t :=
  heldBy_afterSend exit

lemma heldBy_passChannel (hsend : (s.chan c).sendLock = some t) :
    HeldBy (s.passChannel t c caller body) t := by
  unfold Sys.passChannel
  simp only
  split_ifs
  · exact heldBy_leaveSend _
  · exact heldBy_stay fun _ => by simpa using hsend
  · exact heldBy_stay fun _ => by simpa using hsend

lemma heldBy_enter (hsend : (s.chan c).sendLock = some t) :
    HeldBy (s.enter t c caller body) t := by
  have hstay : ∀ exit, HeldBy (s.setCoro t (.send c caller body (.releasing body.length exit))) t :=
    fun _ => heldBy_stay fun _ => hsend
  unfold Sys.enter
  simp only
  split_ifs
  · exact hstay _
  · split
    · split_ifs
      · exact heldBy_leaveSend _
      · exact hstay _
    · exact hstay _
  · exact heldBy_leaveSend _

lemma heldBy_reserve (hsend : (s.chan c).sendLock = some t) :
    HeldBy (s.reserve t c caller body) t := by
  unfold Sys.reserve
  split_ifs
  · exact heldBy_leaveSend _
  · exact heldBy_enter hsend

lemma heldBy_reserveUnlocked {n : ℕ} : HeldBy (s.reserveUnlocked t c caller n) t := by
  unfold Sys.reserveUnlocked
  split_ifs
  · exact heldBy_leaveSend _
  · exact heldBy_leaveSend _

lemma heldBy_sendStep {s' : Sys} {i : Input} (hhold : Holding s t c pc)
    (h : sendStep s t c caller body pc i = some s') : HeldBy s' t := by
  have hstay : ∀ {s₁ : Sys} {pc'}, pc ≠ .sendLock → (s₁.chan c).sendLock = (s.chan c).sendLock →
      HeldBy (s₁.setCoro t (.send c caller body pc')) t := fun hne hchan =>
    heldBy_stay fun _ => hchan.trans (hhold hne)
  unfold sendStep at h
  split at h
  · simp only [Option.ite_none_right_eq_some, Option.some.injEq] at h
    obtain ⟨-, rfl⟩ := h
    exact heldBy_stay fun _ => by simp
  · obtain rfl := Option.some.inj h
    exact heldBy_afterSend _
  · simp only at h
    split_ifs at h
    all_goals obtain rfl := Option.some.inj h
    · exact heldBy_passChannel (hhold (by simp))
    · exact heldBy_leaveSend _
    · exact hstay (by simp) (by simp)
  · simp only at h
    split_ifs at h
    all_goals obtain rfl := Option.some.inj h
    · exact hstay (by simp) rfl
    · exact hstay (by simp) rfl
    · exact hstay (by simp) (by simp)
  · simp only [Option.ite_none_right_eq_some, Option.some.injEq] at h
    obtain ⟨-, rfl⟩ := h
    exact hstay (by simp) (by simp)
  · simp only at h
    split_ifs at h
    all_goals obtain rfl := Option.some.inj h
    · exact heldBy_leaveSend _
    · exact heldBy_passChannel (by simpa using hhold (by simp))
  · simp only [Option.ite_none_right_eq_some, Option.some.injEq] at h
    obtain ⟨-, rfl⟩ := h
    exact hstay (by simp) (by simp)
  · obtain rfl := Option.some.inj h
    exact heldBy_leaveSend _
  · obtain rfl := Option.some.inj h
    exact heldBy_leaveSend _
  · split_ifs at h
    all_goals obtain rfl := Option.some.inj h
    · exact hstay (by simp) rfl
    · exact heldBy_leaveSend _
  · split_ifs at h
    all_goals obtain rfl := Option.some.inj h
    · exact heldBy_reserve (hhold (by simp))
    · exact heldBy_leaveSend _
    · exact hstay (by simp) rfl
  · split_ifs at h
    all_goals obtain rfl := Option.some.inj h
    · exact hstay (by simp) rfl
    · exact hstay (by simp) rfl
    · exact hstay (by simp) rfl
  · simp only [Option.ite_none_right_eq_some, Option.some.injEq] at h
    obtain ⟨-, rfl⟩ := h
    exact hstay (by simp) rfl
  · split_ifs at h
    all_goals obtain rfl := Option.some.inj h
    · exact heldBy_reserveUnlocked
    · exact heldBy_reserve (hhold (by simp))
  · simp only [Option.ite_none_right_eq_some, Option.some.injEq] at h
    obtain ⟨-, rfl⟩ := h
    exact hstay (by simp) rfl
  · obtain rfl := Option.some.inj h
    exact heldBy_leaveSend _
  · obtain rfl := Option.some.inj h
    exact heldBy_leaveSend _
  · split_ifs at h
    all_goals obtain rfl := Option.some.inj h
    · exact hstay (by simp) rfl
    · exact heldBy_leaveSend _
  · simp only [Option.ite_none_right_eq_some, Option.some.injEq] at h
    obtain ⟨-, rfl⟩ := h
    exact heldBy_leaveSend _
  all_goals first
    | (obtain rfl := Option.some.inj h
       exact heldBy_leaveSend _)
    | cases h

lemma heldBy_sendReplay : HeldBy (s.sendReplay t c body) t := by
  unfold Sys.sendReplay
  split_ifs
  · exact heldBy_loopRecover
  · exact heldBy_entering

lemma heldBy_recoverPass (now : ℤ) : HeldBy (s.recoverPass t c now) t := by
  unfold Sys.recoverPass
  simp only
  split_ifs
  · exact heldBy_loopRecover
  · split
    · exact heldBy_loopRecover
    · exact heldBy_sendReplay
    · intro c' caller body pc hcoro
      simp at hcoro

lemma heldBy_recoverStep {s' : Sys} {pc : RecoverPc} {i : Input}
    (h : recoverStep s t c pc i = some s') : HeldBy s' t := by
  have hset : ∀ {s₁ : Sys} {k : Coro}, (∀ c caller body pc, k ≠ .send c caller body pc) →
      HeldBy (s₁.setCoro t k) t := fun hk c caller body pc hcoro =>
    absurd (by simpa using hcoro) (hk c caller body pc)
  unfold recoverStep at h
  split at h
  all_goals first
    | (obtain rfl := Option.some.inj h
       exact hset (by simp))
    | (rw [Option.ite_none_right_eq_some] at h
       obtain rfl := Option.some.inj h.2
       first
         | exact hset (by simp)
         | exact heldBy_recoverPass _
         | exact heldBy_sendReplay)
    | skip
  · rw [Option.ite_none_right_eq_some] at h
    obtain ⟨-, h⟩ := h
    simp only at h
    split at h
    · obtain rfl := Option.some.inj h
      exact hset (by simp)
    · obtain rfl := Option.some.inj h
      exact heldBy_recoverPass _
  · cases h

lemma heldBy_uploadStep {s' : Sys} {i : Input} (h : uploadStep s t c i = some s') :
    HeldBy s' t := by
  unfold uploadStep at h
  split at h
  · obtain rfl := Option.some.inj h
    exact heldBy_entering
  · obtain rfl := Option.some.inj h
    intro c caller body pc hcoro
    simp at hcoro
  · obtain rfl := Option.some.inj h
    intro c caller body pc hcoro
    simp at hcoro
  · cases h

end HeldBy

/-- The coroutine that runs holds its locks afterwards. -/
lemma heldBy_coroStep {E : AesKeystream} {s s' : Sys} {t : ℕ} {i : Input} (hf : Formed s)
    (hheld : Held s) (h : coroStep E s t i = some s') : HeldBy s' t := by
  have hkind := (turn_coroStep hf hheld h).kind t rfl
  have hother : ¬ (s.coro t).kind.Sends → HeldBy s' t := by
    intro hnot
    refine heldBy_of_kind ?_
    rcases hkind with hk | hk | ⟨-, hk⟩
    · rwa [hk]
    · rw [hk]
      exact id
    · rw [hk]
      exact id
  unfold coroStep at h
  split at h
  · exact heldBy_sendStep (hheld _ _ _ _ _ ‹_›) h
  · exact heldBy_uploadStep h
  · exact hother (by rw [‹s.coro t = _›]; exact id)
  · exact heldBy_recoverStep h
  · exact hother (by rw [‹s.coro t = _›]; exact id)
  · exact hother (by rw [‹s.coro t = _›]; exact id)
  · exact hother (by rw [‹s.coro t = _›]; exact id)
  · exact hother (by rw [‹s.coro t = _›]; exact id)
  · cases h

/-- A turn leaves the locks of the others alone. -/
lemma Holding.turn {m : Option ℕ} {s s' : Sys} {t c : ℕ} {pc : SendPc}
    (h : Holding s t c pc) (hturn : Turn m s s') (hm : some t ≠ m) : Holding s' t c pc :=
  fun hne => hturn.sendLock c t hm (h hne)

/-- **Senders hold their locks.** -/
theorem held_of_step {E : AesKeystream} {s s' : Sys} {e : Event} (hf : Formed s) (hheld : Held s)
    (h : step E e s = some s') : Held s' := by
  have hturn := turn_of_step hf hheld h
  intro t c caller body pc hcoro
  by_cases hm : some t = e.mover
  · cases e with
    | run u i =>
        obtain rfl : t = u := Option.some.inj hm
        obtain ⟨cancelling, h⟩ := coroStep_of_run h
        exact heldBy_coroStep (hf.cancelling cancelling) (hheld.cancelling cancelling) h c caller
          body pc hcoro
    | _ => cases hm
  · by_cases hlt : t < s.nextTask
    · rw [hturn.coro t hm hlt] at hcoro
      exact (hheld t c caller body pc hcoro).turn hturn hm
    · have hborn := hturn.born t (not_lt.mp hlt)
      rw [hcoro] at hborn
      obtain ⟨-, rfl⟩ := hborn
      exact holding_entering

end TgWsProxy
