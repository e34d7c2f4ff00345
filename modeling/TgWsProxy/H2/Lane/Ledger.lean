import TgWsProxy.H2.Lane.Requests
import Mathlib.Algebra.BigOperators.Group.Finset.Piecewise
import Mathlib.Tactic.Ring

/-!
# The ledger of a lane

A lane counts the reservations made on it and the octets its responses have buffered.  This file
keeps the other side of the ledger: who still has to give back what.

* `Sys.reservations`, `Sys.buffered` — what pending requests and running coroutines owe the lane.
* `Sys.worth` — both at once, at any price; it is what the steps are followed with.
* `Posted` — a step enters one reservation or one release, or moves octets, on both sides alike.
* `Leak` — a reservation whose owner is gone.
* `posted_of_step` — every step posts to both sides, unless a release is cancelled.
-/

namespace TgWsProxy

open Wire

/-! ## Debts -/

/-- The reservation that a coroutine is about to give back. -/
def Coro.reservation : Coro → List ℕ
  | send _ _ _ (.releasing length _) => [length]
  | request _ _ (.releasing length) => [length]
  | close _ (.releasing length _) => [length]
  | _ => []

/-- The octets that a running `_post` has buffered. -/
def Coro.buffered : Coro → ℕ
  | request _ _ (.posting p) => p.content.length
  | _ => 0

namespace Sys

/-- The reservations owned by a pending request, or by a running `_send` or `_finish_request`, as
their lengths. -/
def reservations (s : Sys) : Multiset ℕ :=
  ∑ c ∈ Finset.range s.nextChan, ((s.chan c).pending.values : Multiset ℕ) +
    ∑ t ∈ Finset.range s.nextTask, ((s.coro t).reservation : Multiset ℕ)

/-- The octets buffered by the running `_post` calls. -/
def buffered (s : Sys) : ℕ := ∑ t ∈ Finset.range s.nextTask, (s.coro t).buffered

end Sys

/-! ## Prices -/

section Worth

variable (ρ : ℕ → ℤ) (d : ℤ)

/-- What a coroutine owes, a reservation of `n` octets at `ρ n` and a buffered octet at `d`. -/
def Coro.worth (k : Coro) : ℤ := (k.reservation.map ρ).sum + d * k.buffered

def Channel.worth (ch : Channel) : ℤ := (ch.pending.values.map ρ).sum

def Sys.worth (s : Sys) : ℤ :=
  ∑ c ∈ Finset.range s.nextChan, (s.chan c).worth ρ +
    ∑ t ∈ Finset.range s.nextTask, (s.coro t).worth ρ d

variable {ρ d} in
lemma Coro.worth_zero {k : Coro} (h : k.reservation = []) (hb : k.buffered = 0) :
    k.worth ρ d = 0 := by
  simp [worth, h, hb]

variable {ρ d} in
lemma Coro.worth_one {k : Coro} {n : ℕ} (h : k.reservation = [n]) (hb : k.buffered = 0) :
    k.worth ρ d = ρ n := by
  simp [worth, h, hb]

lemma Coro.worth_newborn {k : Coro} (h : k.Newborn) : k.worth ρ d = 0 := by
  cases k with
  | send c caller body pc =>
      obtain ⟨-, rfl⟩ := h
      exact worth_zero rfl rfl
  | request c info pc =>
      obtain rfl : pc = .created := h
      exact worth_zero rfl rfl
  | close c pc =>
      obtain rfl : pc = .closeLock := h
      exact worth_zero rfl rfl
  | _ => exact worth_zero rfl rfl

/-- One term of a sum is replaced. -/
lemma sum_range_update {α : Type*} (f : ℕ → α) (g : α → ℤ) {n t : ℕ} (ht : t < n) (a : α) :
    ∑ u ∈ Finset.range n, g (Function.update f t a u) =
      ∑ u ∈ Finset.range n, g (f u) - g (f t) + g a := by
  have hupdate : ∀ u, g (Function.update f t a u) = Function.update (g ∘ f) t (g a) u := by
    intro u
    by_cases hu : u = t
    · subst hu
      simp
    · simp [Function.update_of_ne hu]
  have hmem := Finset.mem_range.mpr ht
  simp only [hupdate]
  rw [Finset.sum_update_of_mem hmem,
    Finset.sum_eq_add_sum_sdiff_singleton_of_mem hmem fun u => g (f u)]
  simp only [Function.comp_apply]
  ring

variable {ρ d} {s : Sys} {t c : ℕ}

lemma worth_setCoro (ht : t < s.nextTask) (k : Coro) :
    (s.setCoro t k).worth ρ d = s.worth ρ d - (s.coro t).worth ρ d + k.worth ρ d := by
  have hsum := sum_range_update s.coro (Coro.worth ρ d) ht k
  simp only [Sys.worth, Sys.setCoro_coro, Sys.setCoro_chan, Sys.setCoro_nextChan,
    Sys.setCoro_nextTask, hsum]
  ring

/-- A coroutine moves on and owes nothing. -/
lemma worth_leave (ht : t < s.nextTask) {k : Coro} (h : k.reservation = []) (hb : k.buffered = 0) :
    (s.setCoro t k).worth ρ d = s.worth ρ d - (s.coro t).worth ρ d := by
  rw [worth_setCoro ht, Coro.worth_zero h hb, add_zero]

/-- A coroutine moves on and owes a reservation. -/
lemma worth_take (ht : t < s.nextTask) {k : Coro} {n : ℕ} (h : k.reservation = [n])
    (hb : k.buffered = 0) :
    (s.setCoro t k).worth ρ d = s.worth ρ d - (s.coro t).worth ρ d + ρ n := by
  rw [worth_setCoro ht, Coro.worth_one h hb]

lemma worth_setChan (hc : c < s.nextChan) (ch : Channel) :
    (s.setChan c ch).worth ρ d = s.worth ρ d - (s.chan c).worth ρ + ch.worth ρ := by
  have hsum := sum_range_update s.chan (Channel.worth ρ) hc ch
  simp only [Sys.worth, Sys.setChan_chan, Sys.setChan_coro, Sys.setChan_nextChan,
    Sys.setChan_nextTask, hsum]
  ring

/-- A record with the same pending requests owes the same. -/
lemma worth_setChan_same {ch : Channel} (h : ch.pending = (s.chan c).pending) :
    (s.setChan c ch).worth ρ d = s.worth ρ d := by
  have hchan : ∀ c', ((s.setChan c ch).chan c').worth ρ = (s.chan c').worth ρ := by
    intro c'
    by_cases hc : c' = c
    · subst hc
      simp [Channel.worth, h]
    · simp [Function.update_of_ne hc]
  simp only [Sys.worth, hchan, Sys.setChan_coro, Sys.setChan_nextChan, Sys.setChan_nextTask]

@[simp] lemma worth_setLane (lane : Lane) : (s.setLane lane).worth ρ d = s.worth ρ d := rfl

@[simp] lemma worth_mark (marks : List Mark) : (s.mark c marks).worth ρ d = s.worth ρ d := rfl

@[simp] lemma worth_setNative (n : Native) : (s.setNative c n).worth ρ d = s.worth ρ d := rfl

@[simp] lemma worth_cancelAll (tasks : List ℕ) : (s.cancelAll tasks).worth ρ d = s.worth ρ d := rfl

/-- What has just been created owes nothing. -/
lemma worth_spawn {ks : List Coro} (hks : ∀ k ∈ ks, k.Newborn) :
    (s.spawn ks).worth ρ d = s.worth ρ d := by
  have hold : ∑ u ∈ Finset.range s.nextTask, ((s.spawn ks).coro u).worth ρ d =
      ∑ u ∈ Finset.range s.nextTask, (s.coro u).worth ρ d := by
    refine Finset.sum_congr rfl fun u hu => ?_
    rw [Sys.spawn_coro_of_lt (Finset.mem_range.mp hu)]
  have hnew : ∑ j ∈ Finset.range ks.length, ((s.spawn ks).coro (s.nextTask + j)).worth ρ d = 0 := by
    refine Finset.sum_eq_zero fun j hj => ?_
    have hlt := Finset.mem_range.mp hj
    simp only [Sys.spawn_coro, if_neg (Nat.not_lt.mpr (Nat.le_add_right _ _)),
      Nat.add_sub_cancel_left, List.getD_eq_getElem _ _ hlt]
    exact Coro.worth_newborn ρ d (hks _ (List.getElem_mem hlt))
  rw [Sys.worth, Sys.spawn_nextTask, Finset.sum_range_add, hold, hnew, add_zero]
  rfl

end Worth

/-! ## Pending requests -/

section Pending

variable {ρ : ℕ → ℤ} {ch ch' : Channel}

/-- A request is entered. -/
lemma Channel.worth_set {task n : ℕ} (hnew : task ∉ ch.pending.keys)
    (h : ch'.pending = ch.pending.set task n) : ch'.worth ρ = ch.worth ρ + ρ n := by
  rw [worth, h, Dict.values, Dict.entries_set_of_not_mem n hnew, List.map_append, List.map_append,
    List.sum_append]
  simp [worth, Dict.values]

/-- A request is finished. -/
lemma Channel.worth_finishRequest {task length : ℕ} {packet : Option ℕ}
    (h : ch.finishRequest task packet = some (length, ch')) :
    ch'.worth ρ = ch.worth ρ - ρ length := by
  obtain ⟨hget, history, rfl⟩ := Channel.finishRequest_eq_some h
  have hperm := (Dict.perm_erase (Dict.get?_eq_some.mp hget)).map fun p => ρ p.2
  have hsum := hperm.sum_eq
  rw [List.map_cons, List.sum_cons] at hsum
  simp only [worth, Dict.values, List.map_map]
  change (List.map (fun p => ρ p.2) (ch.pending.erase task).entries).sum =
    (List.map (fun p => ρ p.2) ch.pending.entries).sum - ρ length
  rw [hsum]
  ring

end Pending

/-! ## Coroutines that move on -/

section Composite

variable {ρ : ℕ → ℤ} {d : ℤ} {s : Sys} {t c : ℕ} {caller : Caller}

lemma worth_loopRecover (ht : t < s.nextTask) :
    (s.loopRecover t c).worth ρ d = s.worth ρ d - (s.coro t).worth ρ d := by
  rw [Sys.loopRecover]
  split_ifs <;> exact worth_leave ht rfl rfl

lemma worth_afterSend (ht : t < s.nextTask) (exit : SendExit) :
    (s.afterSend t c caller exit).worth ρ d = s.worth ρ d - (s.coro t).worth ρ d := by
  rw [Sys.afterSend.eq_def]
  split
  · exact worth_leave ht rfl rfl
  · exact worth_loopRecover ht
  · exact worth_leave ht rfl rfl

lemma endWait_pending (ch : Channel) : (ch.endWait caller).pending = ch.pending := by
  rw [Channel.endWait]
  split_ifs <;> rfl

/-- A sender that leaves owes nothing more. -/
lemma worth_leaveSend (ht : t < s.nextTask) (exit : SendExit) :
    (s.leaveSend t c caller exit).worth ρ d = s.worth ρ d - (s.coro t).worth ρ d := by
  rw [Sys.leaveSend, worth_afterSend (by exact ht), worth_setChan_same]
  · rfl
  · exact endWait_pending _

lemma worth_passChannel (ht : t < s.nextTask) (body : Bytes) :
    (s.passChannel t c caller body).worth ρ d = s.worth ρ d - (s.coro t).worth ρ d := by
  rw [Sys.passChannel]
  split_ifs
  · exact worth_leaveSend ht _
  · rw [worth_leave (by exact ht) rfl rfl, worth_setChan_same (by rfl)]
    rfl
  · rw [worth_leave (by exact ht) rfl rfl, worth_setChan_same (by rfl)]
    rfl

/-- A request is created, and takes the reservation over. -/
lemma worth_create {info : Request} {ch : Channel} {marks : List Mark} {n : ℕ}
    (ht : t < s.nextTask) (hc : c < s.nextChan) (hnew : s.nextTask ∉ (s.chan c).pending.keys)
    (hch : ch.pending = (s.chan c).pending.set s.nextTask n) (exit : SendExit) :
    ((((s.setChan c ch).spawn [.request c info .created]).mark c marks).leaveSend t c caller
      exit).worth ρ d = s.worth ρ d - (s.coro t).worth ρ d + ρ n := by
  have hspawned : (((s.setChan c ch).spawn [.request c info .created]).mark c marks).coro t =
      s.coro t := Sys.spawn_coro_of_lt (by exact ht)
  have hlt : t < (((s.setChan c ch).spawn [.request c info .created]).mark c marks).nextTask := by
    simp only [Sys.mark_nextTask, Sys.spawn_nextTask, Sys.setChan_nextTask]
    omega
  rw [worth_leaveSend hlt, hspawned, worth_mark, worth_spawn (by simp [Coro.Newborn]),
    worth_setChan hc, Channel.worth_set hnew hch]
  ring

lemma worth_enter (ht : t < s.nextTask) (hc : c < s.nextChan)
    (hnew : s.nextTask ∉ (s.chan c).pending.keys) (body : Bytes) :
    (s.enter t c caller body).worth ρ d =
      s.worth ρ d - (s.coro t).worth ρ d + ρ body.length := by
  have hrelease : ∀ exit, (s.setCoro t (.send c caller body (.releasing body.length exit))).worth
      ρ d = s.worth ρ d - (s.coro t).worth ρ d + ρ body.length := by
    exact fun _ => worth_take ht rfl rfl
  rw [Sys.enter]
  dsimp only
  split_ifs
  · exact hrelease _
  · split
    · split_ifs
      · exact worth_create ht hc hnew (by rfl) _
      · exact hrelease _
    · exact hrelease _
  · refine worth_create ht hc hnew ?_ _
    obtain ⟨key, history, traces, heq⟩ :=
      (s.chan c).registerNative_eq s.nextTask s.clock body s.debug
    rw [heq]

/-- A request's own `finally` takes the reservation over. -/
lemma worth_finish (ht : t < s.nextTask) (hc : c < s.nextChan) (info : Request) :
    (s.finish t c info).worth ρ d = s.worth ρ d - (s.coro t).worth ρ d := by
  rw [Sys.finish]
  split
  · rename_i length ch hfinish
    rw [worth_take (by exact ht) rfl rfl, worth_setChan hc, Channel.worth_finishRequest hfinish,
      Sys.setChan_coro]
    ring
  · exact worth_leave ht rfl rfl

lemma settle_pending (ch : Channel) (packet : Option ℕ) (now : ℤ) (e : PostEnd) :
    (ch.settle packet now e).1.pending = ch.pending := by
  obtain ⟨_, _, _, _, _, _, _, heq⟩ := ch.settle_eq packet now e
  rw [heq]

lemma worth_endPost (ht : t < s.nextTask) (hc : c < s.nextChan) (info : Request) (p : Post)
    (e : PostEnd) :
    (s.endPost t c info p e).worth ρ d = s.worth ρ d - (s.coro t).worth ρ d := by
  rw [Sys.endPost]
  dsimp only
  rw [worth_finish (by exact ht) (by exact hc), worth_mark, worth_setChan_same, worth_setLane]
  · rfl
  · rw [settle_pending]
    split_ifs <;> rfl

/-- The loop of `close` takes over the reservation of the next task that is still pending. -/
lemma worth_sweep (ht : t < s.nextTask) (hc : c < s.nextChan) (rest : List ℕ) :
    (s.sweep t c rest).worth ρ d = s.worth ρ d - (s.coro t).worth ρ d := by
  rcases s.sweep_cases t c rest with
    ⟨skipped, task, rest', length, ch', -, -, hfinish, heq⟩ | ⟨-, heq⟩
  · rw [heq, worth_take (by exact ht) rfl rfl, worth_setChan hc,
      Channel.worth_finishRequest hfinish, Sys.setChan_coro]
    ring
  · rw [heq, worth_leave (by exact ht) rfl rfl, worth_setLane, worth_setChan_same (by rfl)]
    rfl

end Composite

/-! ## Counters of the lane -/

/-- The lane counts the same. -/
structure Lane.Even (l l' : Lane) : Prop where
  inflight : l'.inflight = l.inflight
  queued : l'.queuedBytes = l.queuedBytes
  buffer : l'.replyBufferBytes = l.replyBufferBytes

section Counters

variable {s : Sys} {t c : ℕ} {caller : Caller}

lemma afterSend_lane (exit : SendExit) : (s.afterSend t c caller exit).lane = s.lane := by
  rw [Sys.afterSend.eq_def]
  split <;> rfl

lemma leaveSend_lane (exit : SendExit) : (s.leaveSend t c caller exit).lane = s.lane :=
  afterSend_lane exit

lemma passChannel_lane (body : Bytes) : (s.passChannel t c caller body).lane = s.lane := by
  rw [Sys.passChannel]
  split_ifs
  · exact leaveSend_lane _
  · rfl
  · rfl

lemma enter_lane (body : Bytes) : (s.enter t c caller body).lane = s.lane := by
  rw [Sys.enter]
  dsimp only
  split_ifs
  · rfl
  · split
    · split_ifs
      · exact leaveSend_lane _
      · rfl
    · rfl
  · exact leaveSend_lane _

lemma sendReplay_lane (body : Bytes) : (s.sendReplay t c body).lane = s.lane := by
  rw [Sys.sendReplay]
  split_ifs <;> rfl

lemma recoverPass_lane (now : ℤ) : (s.recoverPass t c now).lane = s.lane := by
  rw [Sys.recoverPass]
  split_ifs
  · rfl
  · split
    · rfl
    · exact sendReplay_lane _
    · rfl

lemma finish_lane (info : Request) : (s.finish t c info).lane = s.lane := by
  rw [Sys.finish]
  split <;> rfl

lemma endPost_lane (info : Request) (p : Post) (e : PostEnd) :
    (s.endPost t c info p e).lane = { s.lane with
      replyBufferBytes := s.lane.replyBufferBytes - p.content.length } := by
  rw [Sys.endPost]
  exact finish_lane info

lemma sweep_lane (rest : List ℕ) : s.lane.Even (s.sweep t c rest).lane := by
  rcases s.sweep_cases t c rest with ⟨_, _, _, _, _, -, -, -, heq⟩ | ⟨-, heq⟩
  · rw [heq]
    exact ⟨rfl, rfl, rfl⟩
  · rw [heq]
    exact ⟨rfl, rfl, rfl⟩

end Counters

/-! ## Postings -/

/-- A step makes `σ` reservations of `length` octets and buffers `n` octets, and the lane counts
them. -/
structure Entry (s s' : Sys) (σ : ℤ) (length : ℕ) (n : ℤ) : Prop where
  worth : ∀ ρ d, s'.worth ρ d = s.worth ρ d + σ * ρ length + d * n
  inflight : s'.lane.inflight = s.lane.inflight + σ
  queued : s'.lane.queuedBytes = s.lane.queuedBytes + σ * length
  buffer : s'.lane.replyBufferBytes = s.lane.replyBufferBytes + n

/-- A step posts to both sides of the ledger. -/
inductive Posted (s s' : Sys) : Prop
  | keep (h : Entry s s' 0 0 0)
  | reserve (length : ℕ) (h : Entry s s' 1 length 0)
  | release (length : ℕ) (h : Entry s s' (-1) length 0)
  | buffer (n : ℤ) (h : Entry s s' 0 0 n)

/-- A reservation loses its owner, and the lane goes on counting it. -/
structure Leak (s s' : Sys) (length : ℕ) : Prop where
  worth : ∀ ρ d, s'.worth ρ d = s.worth ρ d - ρ length
  lane : s.lane.Even s'.lane

/-- The coroutine `t` loses a reservation: it is cancelled while it waits to give one back, or makes
one and cannot release the lock, which nobody holds. -/
inductive Leaks (s s' : Sys) (t : ℕ) (i : Input) : Prop
  | release (hi : i = .cancelled) (length : ℕ) (hlength : (s.coro t).reservation = [length])
      (h : Leak s s' length)
  | reserve (hres : (s.coro t).Reserving) (hfree : s.lane.capacity = none)
      (worth : ∀ ρ d, s'.worth ρ d = s.worth ρ d)
      (buffer : s'.lane.replyBufferBytes = s.lane.replyBufferBytes)

section Post

variable {s s' : Sys} {t c : ℕ}

lemma posted_keep (hworth : ∀ ρ d, s'.worth ρ d = s.worth ρ d) (hlane : s.lane.Even s'.lane) :
    Posted s s' :=
  .keep ⟨fun ρ d => by rw [hworth]; ring, by rw [hlane.inflight]; ring,
    by rw [hlane.queued]; ring, by rw [hlane.buffer]; ring⟩

lemma even_of_eq {l l' : Lane} (h : l' = l) : l.Even l' := by
  subst h
  exact ⟨rfl, rfl, rfl⟩

/-- A coroutine that owes nothing moves on, and nobody else's debts change. -/
lemma posted_pass {s₁ s₂ : Sys} (hworth : ∀ ρ d, s₁.worth ρ d = s.worth ρ d)
    (hcoro : s₁.coro t = s.coro t) (hzero : ∀ ρ d, (s.coro t).worth ρ d = 0)
    (h : ∀ ρ d, s₂.worth ρ d = s₁.worth ρ d - (s₁.coro t).worth ρ d)
    (hlane : s.lane.Even s₂.lane) : Posted s s₂ :=
  posted_keep (fun ρ d => by rw [h, hcoro, hzero, hworth, sub_zero]) hlane

lemma posted_reserve {caller : Caller} {body : Bytes} (lane : Lane) (ht : t < s.nextTask)
    (hc : c < s.nextChan) (hnew : s.nextTask ∉ (s.chan c).pending.keys)
    (hzero : ∀ ρ d, (s.coro t).worth ρ d = 0) (hlane : s.lane.Even lane) :
    Posted s ((s.setLane lane).reserve t c caller body) := by
  rw [Sys.reserve]
  split_ifs
  · refine posted_pass (fun _ _ => worth_setLane _) rfl hzero
      (fun _ _ => worth_leaveSend (by exact ht) _) ?_
    rw [leaveSend_lane]
    exact hlane
  · refine .reserve body.length ⟨fun ρ d => ?_, ?_, ?_, ?_⟩
    · rw [worth_enter (by exact ht) (by exact hc) (by exact hnew), worth_setLane, worth_setLane,
        Sys.setLane_coro, Sys.setLane_coro, hzero]
      ring
    · rw [enter_lane]
      exact congrArg (· + 1) hlane.inflight
    · rw [enter_lane, one_mul]
      exact congrArg (· + (body.length : ℤ)) hlane.queued
    · rw [enter_lane, add_zero]
      exact hlane.buffer

lemma posted_reserveUnlocked {caller : Caller} {n : ℕ} {i : Input} (ht : t < s.nextTask)
    (hres : (s.coro t).Reserving) (hfree : s.lane.capacity = none)
    (hzero : ∀ ρ d, (s.coro t).worth ρ d = 0) :
    Posted s (s.reserveUnlocked t c caller n) ∨ Leaks s (s.reserveUnlocked t c caller n) t i := by
  rw [Sys.reserveUnlocked]
  split_ifs
  · exact .inl (posted_pass (fun _ _ => rfl) rfl hzero (fun _ _ => worth_leaveSend ht _)
      (even_of_eq (leaveSend_lane _)))
  · refine .inr (.reserve hres hfree (fun ρ d => ?_) ?_)
    · rw [worth_leaveSend (by exact ht), worth_setLane, Sys.setLane_coro, hzero, sub_zero]
    · rw [leaveSend_lane]
      rfl

theorem posted_sendStep {caller : Caller} {body : Bytes} {pc : SendPc} {i : Input}
    (ht : t < s.nextTask) (hc : c < s.nextChan) (hnew : s.nextTask ∉ (s.chan c).pending.keys)
    (hpc : s.coro t = .send c caller body pc) (h : sendStep s t c caller body pc i = some s') :
    Posted s s' ∨ Leaks s s' t i := by
  have hzero : (∀ length exit, pc ≠ .releasing length exit) →
      ∀ ρ d, (s.coro t).worth ρ d = 0 := by
    intro hne ρ d
    rw [hpc]
    cases pc with
    | releasing length exit => exact absurd rfl (hne length exit)
    | _ => exact Coro.worth_zero rfl rfl
  have hset : ∀ {ch : Channel} {k : Coro}, (∀ length exit, pc ≠ .releasing length exit) →
      ch.pending = (s.chan c).pending → k.reservation = [] → k.buffered = 0 →
      Posted s ((s.setChan c ch).setCoro t k) := fun hne hch hk hb =>
    posted_pass (fun _ _ => worth_setChan_same hch) rfl (hzero hne)
      (fun _ _ => worth_leave (by exact ht) hk hb) (even_of_eq rfl)
  have hlane : ∀ {lane : Lane} {k : Coro}, (∀ length exit, pc ≠ .releasing length exit) →
      s.lane.Even lane → k.reservation = [] → k.buffered = 0 →
      Posted s ((s.setLane lane).setCoro t k) := fun hne hl hk hb =>
    posted_pass (fun _ _ => worth_setLane _) rfl (hzero hne)
      (fun _ _ => worth_leave (by exact ht) hk hb) hl
  have hleave : ∀ {ch : Channel} (exit : SendExit), (∀ length exit, pc ≠ .releasing length exit) →
      ch.pending = (s.chan c).pending →
      Posted s ((s.setChan c ch).leaveSend t c caller exit) := fun exit hne hch =>
    posted_pass (fun _ _ => worth_setChan_same hch) rfl (hzero hne)
      (fun _ _ => worth_leaveSend (by exact ht) exit) (even_of_eq (leaveSend_lane _))
  have hleave' : ∀ exit : SendExit, (∀ length exit, pc ≠ .releasing length exit) →
      Posted s (s.leaveSend t c caller exit) := fun exit hne =>
    posted_pass (fun _ _ => rfl) rfl (hzero hne) (fun _ _ => worth_leaveSend ht exit)
      (even_of_eq (leaveSend_lane _))
  unfold sendStep at h
  split at h
  · rw [Option.ite_none_right_eq_some] at h
    obtain rfl := Option.some.inj h.2
    exact .inl (hset nofun rfl rfl rfl)
  · obtain rfl := Option.some.inj h
    exact .inl <| posted_pass (fun _ _ => worth_setChan_same (endWait_pending _)) rfl (hzero nofun)
      (fun _ _ => worth_afterSend (by exact ht) _) (even_of_eq (afterSend_lane _))
  · dsimp only at h
    split_ifs at h
    all_goals obtain rfl := Option.some.inj h
    · exact .inl <| posted_pass (fun _ _ => rfl) rfl (hzero nofun)
        (fun _ _ => worth_passChannel ht _) (even_of_eq (passChannel_lane _))
    · exact .inl (hleave' _ nofun)
    · exact .inl (hset nofun rfl rfl rfl)
  · dsimp only at h
    split_ifs at h
    all_goals obtain rfl := Option.some.inj h
    · exact .inl (posted_pass (fun _ _ => rfl) rfl (hzero nofun)
        (fun _ _ => worth_leave ht rfl rfl) (even_of_eq rfl))
    · exact .inl (posted_pass (fun _ _ => rfl) rfl (hzero nofun)
        (fun _ _ => worth_leave ht rfl rfl) (even_of_eq rfl))
    · exact .inl (hset nofun rfl rfl rfl)
  · rw [Option.ite_none_right_eq_some] at h
    obtain rfl := Option.some.inj h.2
    exact .inl (hset nofun rfl rfl rfl)
  · dsimp only at h
    split_ifs at h
    all_goals obtain rfl := Option.some.inj h
    · exact .inl (hleave' _ nofun)
    · exact .inl <| posted_pass (fun _ _ => worth_setChan_same (by rfl)) rfl (hzero nofun)
        (fun _ _ => worth_passChannel (by exact ht) _) (even_of_eq (passChannel_lane _))
  · rw [Option.ite_none_right_eq_some] at h
    obtain rfl := Option.some.inj h.2
    exact .inl (hset nofun rfl rfl rfl)
  · obtain rfl := Option.some.inj h
    exact .inl <| posted_pass (fun _ _ => worth_setChan_same (by rfl)) rfl (hzero nofun)
      (fun _ _ => worth_leaveSend (by exact ht) _) (even_of_eq (leaveSend_lane _))
  · obtain rfl := Option.some.inj h
    exact .inl (hleave _ nofun rfl)
  · split_ifs at h
    all_goals obtain rfl := Option.some.inj h
    · exact .inl (posted_pass (fun _ _ => rfl) rfl (hzero nofun)
        (fun _ _ => worth_leave ht rfl rfl) (even_of_eq rfl))
    · exact .inl (hleave _ nofun rfl)
  · split_ifs at h
    all_goals obtain rfl := Option.some.inj h
    · exact .inl (posted_reserve s.lane ht hc hnew (hzero nofun) (even_of_eq rfl))
    · exact .inl (hleave' _ nofun)
    · exact .inl (hlane nofun ⟨rfl, rfl, rfl⟩ rfl rfl)
  · split_ifs at h
    all_goals obtain rfl := Option.some.inj h
    · exact .inl (posted_pass (fun _ _ => rfl) rfl (hzero nofun)
        (fun _ _ => worth_leave ht rfl rfl) (even_of_eq rfl))
    · exact .inl (posted_pass (fun _ _ => rfl) rfl (hzero nofun)
        (fun _ _ => worth_leave ht rfl rfl) (even_of_eq rfl))
    · exact .inl (hlane nofun ⟨rfl, rfl, rfl⟩ rfl rfl)
  · rw [Option.ite_none_right_eq_some] at h
    obtain rfl := Option.some.inj h.2
    exact .inl (hlane nofun ⟨rfl, rfl, rfl⟩ rfl rfl)
  · split_ifs at h with hfree
    all_goals obtain rfl := Option.some.inj h
    · exact posted_reserveUnlocked ht (by rw [hpc]; exact Or.inr (Or.inl rfl)) hfree (hzero nofun)
    · exact .inl (posted_reserve _ ht hc hnew (hzero nofun) ⟨rfl, rfl, rfl⟩)
  · rw [Option.ite_none_right_eq_some] at h
    obtain rfl := Option.some.inj h.2
    exact .inl (hlane nofun ⟨rfl, rfl, rfl⟩ rfl rfl)
  · obtain rfl := Option.some.inj h
    refine .inl (posted_pass (fun _ _ => worth_setLane _) rfl (hzero nofun)
      (fun _ _ => worth_leaveSend (by exact ht) _) ?_)
    rw [leaveSend_lane]
    exact ⟨rfl, rfl, rfl⟩
  · obtain rfl := Option.some.inj h
    refine .inl (posted_pass (fun _ _ => worth_setLane _) rfl (hzero nofun)
      (fun _ _ => worth_leaveSend (by exact ht) _) ?_)
    rw [leaveSend_lane]
    exact ⟨rfl, rfl, rfl⟩
  · split_ifs at h
    all_goals obtain rfl := Option.some.inj h
    · exact .inl (posted_pass (fun _ _ => rfl) rfl (hzero nofun)
        (fun _ _ => worth_leave ht rfl rfl) (even_of_eq rfl))
    · refine .inl (posted_pass (fun _ _ => worth_setLane _) rfl (hzero nofun)
        (fun _ _ => worth_leaveSend (by exact ht) _) ?_)
      rw [leaveSend_lane]
      exact ⟨rfl, rfl, rfl⟩
  · -- the reservation is given back
    rename_i length exit
    rw [Option.ite_none_right_eq_some] at h
    obtain rfl := Option.some.inj h.2
    refine .inl (.release length ⟨fun ρ d => ?_, ?_, ?_, ?_⟩)
    · rw [worth_leaveSend (by exact ht), Sys.releaseLane, worth_setLane, Sys.setLane_coro, hpc,
        Coro.worth_one rfl rfl]
      ring
    · rw [leaveSend_lane]
      rfl
    · rw [leaveSend_lane, neg_one_mul]
      rfl
    · rw [leaveSend_lane, add_zero]
      rfl
  · obtain rfl := Option.some.inj h
    exact .inl (hleave' _ nofun)
  · obtain rfl := Option.some.inj h
    exact .inl (hleave' _ nofun)
  · -- or it never is
    rename_i length exit
    obtain rfl := Option.some.inj h
    refine .inr (.release rfl length (by rw [hpc]; rfl) ⟨fun ρ d => ?_,
      even_of_eq (leaveSend_lane _)⟩)
    rw [worth_leaveSend ht, hpc, Coro.worth_one rfl rfl]
  · cases h

/-- A coroutine gives its reservation back. -/
lemma posted_release {k : Coro} {length : ℕ} (ht : t < s.nextTask)
    (hold : (s.coro t).reservation = [length]) (hbuffered : (s.coro t).buffered = 0)
    (hk : k.reservation = []) (hb : k.buffered = 0) :
    Posted s ((s.releaseLane length).setCoro t k) := by
  refine .release length ⟨fun ρ d => ?_, rfl, ?_, (add_zero _).symm⟩
  · rw [worth_leave (by exact ht) hk hb, Sys.releaseLane, worth_setLane, Sys.setLane_coro,
      Coro.worth_one hold hbuffered]
    ring
  · rw [neg_one_mul]
    rfl

/-- A coroutine that was to give its reservation back is gone. -/
lemma leaks_of_cancelled {s₁ : Sys} {k : Coro} {length : ℕ} (ht : t < s₁.nextTask)
    (hold : (s.coro t).reservation = [length]) (hbuffered : (s.coro t).buffered = 0)
    (hcoro : s₁.coro t = s.coro t) (hworth : ∀ ρ d, s₁.worth ρ d = s.worth ρ d)
    (hlane : s₁.lane = s.lane) (hk : k.reservation = []) (hb : k.buffered = 0) :
    Leaks s (s₁.setCoro t k) t .cancelled := by
  refine .release rfl length hold ⟨fun ρ d => ?_, even_of_eq hlane⟩
  rw [worth_leave ht hk hb, hworth, hcoro, Coro.worth_one hold hbuffered]

/-- A coroutine goes on with the same debts. -/
lemma posted_stay {s₁ : Sys} {k : Coro} (ht : t < s₁.nextTask) (hcoro : s₁.coro t = s.coro t)
    (hk : k.reservation = (s.coro t).reservation) (hb : k.buffered = (s.coro t).buffered)
    (hworth : ∀ ρ d, s₁.worth ρ d = s.worth ρ d) (hlane : s₁.lane = s.lane) :
    Posted s (s₁.setCoro t k) := by
  refine posted_keep (fun ρ d => ?_) (even_of_eq hlane)
  rw [worth_setCoro ht, hworth, hcoro, Coro.worth, Coro.worth, hk, hb]
  ring

lemma wakeReceiver_pending (ch : Channel) : ch.wakeReceiver.pending = ch.pending := by
  rw [Channel.wakeReceiver]
  split_ifs <;> rfl

/-- `_post` ends, and its buffer is let go. -/
lemma posted_endPost {s₁ : Sys} {info : Request} {p p₁ : Post} (e : PostEnd)
    (ht : t < s₁.nextTask) (hc : c < s₁.nextChan) (hpc : s.coro t = .request c info (.posting p))
    (hcoro : s₁.coro t = s.coro t) (hworth : ∀ ρ d, s₁.worth ρ d = s.worth ρ d)
    (hlane : s₁.lane = s.lane) (hcontent : p₁.content = p.content) :
    Posted s (s₁.endPost t c info p₁ e) := by
  refine .buffer (-p.content.length) ⟨fun ρ d => ?_, ?_, ?_, ?_⟩
  · rw [worth_endPost ht hc, hworth, hcoro, hpc]
    simp only [Coro.worth, Coro.reservation, Coro.buffered, List.map_nil, List.sum_nil]
    ring
  · rw [endPost_lane, hlane, add_zero]
  · rw [endPost_lane, hlane, zero_mul, add_zero]
  · rw [endPost_lane, hlane, hcontent]
    rfl

theorem posted_requestStep {info : Request} {pc : RequestPc} {i : Input} (ht : t < s.nextTask)
    (hc : c < s.nextChan) (hpc : s.coro t = .request c info pc)
    (h : requestStep s t c info pc i = some s') : Posted s s' ∨ Leaks s s' t i := by
  have hsame : ∀ {ch : Channel}, ch.pending = (s.chan c).pending →
      ∀ ρ d, (s.setChan c ch).worth ρ d = s.worth ρ d := fun hch _ _ => worth_setChan_same hch
  have hend : ∀ {p : Post} (e : PostEnd), pc = .posting p → Posted s (s.endPost t c info p e) :=
    fun e hp => posted_endPost e ht hc (by rw [hpc, hp]) rfl (fun _ _ => rfl) rfl rfl
  unfold requestStep at h
  split at h
  · obtain rfl := Option.some.inj h
    exact .inl (posted_stay ht rfl (by rw [hpc]; rfl) (by rw [hpc]; rfl) (fun _ _ => rfl) rfl)
  · obtain rfl := Option.some.inj h
    exact .inl (posted_stay ht rfl (by rw [hpc]; rfl) (by rw [hpc]; rfl) (fun _ _ => rfl) rfl)
  · rw [Option.ite_none_right_eq_some] at h
    obtain rfl := Option.some.inj h.2
    exact .inl (posted_stay (by exact ht) rfl (by rw [hpc]; rfl) (by rw [hpc]; rfl) (hsame rfl) rfl)
  · rw [Option.ite_none_left_eq_some] at h
    obtain rfl := Option.some.inj h.2
    exact .inl (posted_stay (by exact ht) rfl (by rw [hpc]; rfl) (by rw [hpc]; rfl) (hsame rfl) rfl)
  · rename_i p head
    rw [Option.ite_none_left_eq_some] at h
    obtain ⟨-, h⟩ := h
    split at h
    · obtain rfl := Option.some.inj h
      exact .inl (hend _ rfl)
    · dsimp only at h
      split_ifs at h
      all_goals obtain rfl := Option.some.inj h
      · exact .inl (posted_endPost _ ht hc hpc rfl (fun _ _ => rfl) rfl rfl)
      · exact .inl (posted_endPost _ (by exact ht) (by exact hc) hpc rfl (hsame rfl) rfl rfl)
      · exact .inl (posted_stay ht rfl (by rw [hpc]; rfl) (by rw [hpc]; rfl) (fun _ _ => rfl) rfl)
      · exact .inl (posted_stay (by exact ht) rfl (by rw [hpc]; rfl) (by rw [hpc]; rfl) (hsame rfl)
          rfl)
  · rename_i p data
    split_ifs at h
    all_goals obtain rfl := Option.some.inj h
    · exact .inl (hend _ rfl)
    · exact .inl (hend _ rfl)
    · -- a chunk is buffered
      refine .inl (.buffer data.length ⟨fun ρ d => ?_, (add_zero _).symm, ?_, rfl⟩)
      · rw [worth_setCoro (by exact ht), worth_setChan_same (by rfl), worth_setLane]
        simp only [Sys.setChan_coro, Sys.setLane_coro, hpc, Coro.worth, Coro.reservation,
          Coro.buffered, List.map_nil, List.sum_nil, List.length_append, Nat.cast_add]
        ring
      · rw [zero_mul, add_zero]
        rfl
  · rw [Option.ite_none_right_eq_some] at h
    obtain rfl := Option.some.inj h.2
    exact .inl (hend _ rfl)
  · split at h
    · cases h
    · obtain rfl := Option.some.inj h
      exact .inl (hend _ rfl)
  · obtain rfl := Option.some.inj h
    exact .inl (hend _ rfl)
  · rw [Option.ite_none_right_eq_some] at h
    obtain rfl := Option.some.inj h.2
    exact .inl (posted_release ht (by rw [hpc]; rfl) (by rw [hpc]; rfl) rfl rfl)
  · obtain rfl := Option.some.inj h
    exact .inr (leaks_of_cancelled ht (by rw [hpc]; rfl) (by rw [hpc]; rfl) rfl (fun _ _ => rfl) rfl
      rfl rfl)
  · rw [Option.ite_none_right_eq_some] at h
    obtain rfl := Option.some.inj h.2
    exact .inl (posted_stay (by exact ht) rfl (by rw [hpc]; rfl) (by rw [hpc]; rfl)
      (hsame (wakeReceiver_pending _)) rfl)
  · obtain rfl := Option.some.inj h
    exact .inl (posted_stay ht rfl (by rw [hpc]; rfl) (by rw [hpc]; rfl) (fun _ _ => rfl) rfl)
  · cases h

theorem posted_closeStep {pc : ClosePc} {i : Input} (ht : t < s.nextTask) (hc : c < s.nextChan)
    (hpc : s.coro t = .close c pc) (h : closeStep s t c pc i = some s') :
    Posted s s' ∨ Leaks s s' t i := by
  have hsweep : ∀ {ch : Channel} (rest : List ℕ), (s.coro t).reservation = [] →
      (s.coro t).buffered = 0 → ch.pending = (s.chan c).pending →
      Posted s ((s.setChan c ch).sweep t c rest) := fun rest hold hb hch =>
    posted_pass (fun _ _ => worth_setChan_same hch) rfl (fun _ _ => Coro.worth_zero hold hb)
      (fun _ _ => worth_sweep (by exact ht) (by exact hc) rest)
      (show (s.setChan c _).lane.Even _ from sweep_lane rest)
  have habort : (s.coro t).reservation = [] → (s.coro t).buffered = 0 →
      Posted s (s.abortClose t c) := fun hold hb =>
    posted_stay (by exact ht) rfl hold.symm hb.symm (fun _ _ => worth_setChan_same (by rfl)) rfl
  have hfail : ∀ failure, ((s.chan c).fail failure).pending = (s.chan c).pending := by
    intro failure
    rw [Channel.fail.eq_def]
    split_ifs <;> rfl
  unfold closeStep at h
  split at h
  · dsimp only at h
    split_ifs at h
    all_goals obtain rfl := Option.some.inj h
    · exact .inl (posted_stay ht rfl (by rw [hpc]; rfl) (by rw [hpc]; rfl) (fun _ _ => rfl) rfl)
    · exact .inl (posted_stay (by exact ht) rfl (by rw [hpc]; rfl) (by rw [hpc]; rfl)
        (fun _ _ => worth_setChan_same (hfail _)) rfl)
  · obtain rfl := Option.some.inj h
    exact .inl (posted_stay ht rfl (by rw [hpc]; rfl) (by rw [hpc]; rfl) (fun _ _ => rfl) rfl)
  · rw [Option.ite_none_right_eq_some] at h
    obtain rfl := Option.some.inj h.2
    exact .inl (posted_pass (fun _ _ => rfl) rfl
      (fun _ _ => Coro.worth_zero (by rw [hpc]; rfl) (by rw [hpc]; rfl))
      (fun _ _ => worth_sweep ht hc _) (sweep_lane _))
  · rw [Option.ite_none_right_eq_some] at h
    obtain rfl := Option.some.inj h.2
    exact .inl (habort (by rw [hpc]; rfl) (by rw [hpc]; rfl))
  · rw [Option.ite_none_right_eq_some] at h
    obtain rfl := Option.some.inj h.2
    exact .inl (posted_release ht (by rw [hpc]; rfl) (by rw [hpc]; rfl) rfl rfl)
  · obtain rfl := Option.some.inj h
    exact .inr (leaks_of_cancelled (by exact ht) (by rw [hpc]; rfl) (by rw [hpc]; rfl) rfl
      (fun _ _ => worth_setChan_same (by rfl)) rfl rfl rfl)
  · rw [Option.ite_none_right_eq_some] at h
    obtain rfl := Option.some.inj h.2
    exact .inl (hsweep _ (by rw [hpc]; rfl) (by rw [hpc]; rfl) (wakeReceiver_pending _))
  · obtain rfl := Option.some.inj h
    exact .inl (habort (by rw [hpc]; rfl) (by rw [hpc]; rfl))
  · cases h

lemma worth_recoverPass {ρ : ℕ → ℤ} {d : ℤ} (ht : t < s.nextTask) (now : ℤ) :
    (s.recoverPass t c now).worth ρ d = s.worth ρ d - (s.coro t).worth ρ d := by
  rw [Sys.recoverPass]
  split_ifs
  · exact worth_loopRecover ht
  · split
    · exact worth_loopRecover ht
    · rw [Sys.sendReplay]
      split_ifs
      · exact worth_loopRecover ht
      · exact worth_leave ht rfl rfl
    · exact worth_leave (by exact ht) rfl rfl

/-- The other coroutines owe nothing. -/
lemma posted_recoverStep {pc : RecoverPc} {i : Input} (ht : t < s.nextTask)
    (hpc : s.coro t = .recover c pc) (h : recoverStep s t c pc i = some s') : Posted s s' := by
  have hzero : ∀ ρ d, (s.coro t).worth ρ d = 0 := by
    intro ρ d
    rw [hpc]
    exact Coro.worth_zero rfl rfl
  have hset : ∀ {k : Coro}, k.reservation = [] → k.buffered = 0 → Posted s (s.setCoro t k) :=
    fun hk hb => posted_pass (fun _ _ => rfl) rfl hzero (fun _ _ => worth_leave ht hk hb)
      (even_of_eq rfl)
  have hpass : ∀ now, Posted s (s.recoverPass t c now) := fun now =>
    posted_pass (fun _ _ => rfl) rfl hzero (fun _ _ => worth_recoverPass ht now)
      (even_of_eq (recoverPass_lane now))
  have hrotate : ∀ (ch : Channel) victim packet, (ch.rotate victim packet).pending =
      ch.pending := by
    intro ch victim packet
    cases packet <;> rfl
  unfold recoverStep at h
  split at h
  · obtain rfl := Option.some.inj h
    exact hset rfl rfl
  · obtain rfl := Option.some.inj h
    exact hset rfl rfl
  · obtain rfl := Option.some.inj h
    exact hset rfl rfl
  · rw [Option.ite_none_right_eq_some] at h
    replace h := h.2
    dsimp only at h
    split at h
    · obtain rfl := Option.some.inj h
      refine posted_stay (by exact ht) rfl (by rw [hpc]; rfl) (by rw [hpc]; rfl) (fun ρ d => ?_) rfl
      rw [worth_cancelAll, worth_setChan_same (hrotate _ _ _), worth_setChan_same (by rfl)]
    · obtain rfl := Option.some.inj h
      exact posted_pass (fun _ _ => worth_setChan_same (by rfl)) rfl hzero
        (fun _ _ => worth_recoverPass (by exact ht) _) (even_of_eq (recoverPass_lane _))
  · obtain rfl := Option.some.inj h
    exact hset rfl rfl
  · rw [Option.ite_none_right_eq_some] at h
    obtain rfl := Option.some.inj h.2
    exact hpass _
  · rw [Option.ite_none_right_eq_some] at h
    obtain rfl := Option.some.inj h.2
    rw [Sys.sendReplay]
    split_ifs
    · exact posted_pass (fun _ _ => rfl) rfl hzero (fun _ _ => worth_loopRecover ht)
        (even_of_eq rfl)
    · exact hset rfl rfl
  · rw [Option.ite_none_right_eq_some] at h
    obtain rfl := Option.some.inj h.2
    exact hset rfl rfl
  · rw [Option.ite_none_right_eq_some] at h
    obtain rfl := Option.some.inj h.2
    exact hset rfl rfl
  · cases h

lemma posted_downloadStep {E : AesKeystream} {pc : DownloadPc} {i : Input} (ht : t < s.nextTask)
    (hpc : s.coro t = .download c pc) (h : downloadStep E s t c pc i = some s') : Posted s s' := by
  have hset : ∀ {ch : Channel} {k : Coro}, ch.pending = (s.chan c).pending → k.reservation = [] →
      k.buffered = 0 → Posted s ((s.setChan c ch).setCoro t k) := fun hch hk hb =>
    posted_stay (by exact ht) rfl (by rw [hpc, hk]; rfl) (by rw [hpc, hb]; rfl)
      (fun _ _ => worth_setChan_same hch) rfl
  unfold downloadStep at h
  split at h
  · dsimp only at h
    split at h
    · cases h
    · obtain rfl := Option.some.inj h
      exact hset rfl rfl rfl
    · rename_i body queue hqueue
      have hwake := wakeReceiver_pending
        { s.chan c with queue := queue, replyBytes := (s.chan c).replyBytes - body.length }
      split_ifs at h
      · obtain rfl := Option.some.inj h
        exact hset hwake rfl rfl
      · rw [Sys.writeReply] at h
        split at h
        · cases h
        · split at h
          · obtain rfl := Option.some.inj h
            exact hset hwake rfl rfl
          · obtain rfl := Option.some.inj h
            refine posted_stay (by exact ht) rfl (by rw [hpc]; rfl) (by rw [hpc]; rfl)
              (fun ρ d => ?_) rfl
            rw [worth_mark, Sys.writeNative, worth_setNative, worth_setChan_same (by rfl),
              worth_setChan_same hwake]
  · obtain rfl := Option.some.inj h
    exact posted_stay ht rfl (by rw [hpc]; rfl) (by rw [hpc]; rfl) (fun _ _ => rfl) rfl
  · obtain rfl := Option.some.inj h
    exact hset (wakeReceiver_pending _) rfl rfl
  · obtain rfl := Option.some.inj h
    exact hset rfl rfl rfl
  · obtain rfl := Option.some.inj h
    exact hset rfl rfl rfl
  · cases h

lemma posted_bridgeStep {E : AesKeystream} {tasks : List ℕ} {pc : BridgePc} {i : Input}
    (ht : t < s.nextTask) (hpc : s.coro t = .bridge c tasks pc)
    (h : bridgeStep E s t c tasks pc i = some s') : Posted s s' := by
  have hset : ∀ {s₁ : Sys} {k : Coro}, s₁.nextTask = s.nextTask → s₁.coro = s.coro →
      s₁.lane = s.lane → (∀ ρ d, s₁.worth ρ d = s.worth ρ d) → k.reservation = [] →
      k.buffered = 0 → Posted s (s₁.setCoro t k) := fun hnext hcoro hlane hworth hk hb =>
    posted_stay (by rw [hnext]; exact ht) (by rw [hcoro]) (by rw [hpc, hk]; rfl)
      (by rw [hpc, hb]; rfl) hworth hlane
  have hclose : Posted s (s.setCoro t (.close c .closeLock)) :=
    hset rfl rfl rfl (fun _ _ => rfl) rfl rfl
  unfold bridgeStep at h
  split at h
  · rw [Option.ite_none_right_eq_some] at h
    obtain rfl := Option.some.inj h.2
    exact hset rfl rfl rfl (fun _ _ => rfl) rfl rfl
  · obtain rfl := Option.some.inj h
    exact hset rfl rfl rfl (fun _ _ => rfl) rfl rfl
  · split_ifs at h
    · obtain rfl := Option.some.inj h
      exact hclose
    · rw [Sys.reportError] at h
      split at h
      · cases h
      · dsimp only at h
        split at h
        · obtain rfl := Option.some.inj h
          exact hset rfl rfl rfl (fun _ _ => rfl) rfl rfl
        · obtain rfl := Option.some.inj h
          exact hclose
  · rw [Option.ite_none_right_eq_some] at h
    obtain rfl := Option.some.inj h.2
    exact hclose
  · obtain rfl := Option.some.inj h
    exact hclose
  · obtain rfl := Option.some.inj h
    exact hclose
  · obtain rfl := Option.some.inj h
    exact hclose
  · cases h

lemma posted_uploadStep {i : Input} (ht : t < s.nextTask) (hpc : s.coro t = .upload c)
    (h : uploadStep s t c i = some s') : Posted s s' := by
  have hdone : Posted s (s.setCoro t .done) :=
    posted_stay ht rfl (by rw [hpc]; rfl) (by rw [hpc]; rfl) (fun _ _ => rfl) rfl
  cases i with
  | packet body =>
      obtain rfl := Option.some.inj h
      exact posted_stay (by exact ht) rfl (by rw [hpc]; rfl) (by rw [hpc]; rfl)
        (fun _ _ => worth_setChan_same (by rfl)) rfl
  | broken =>
      obtain rfl := Option.some.inj h
      exact hdone
  | cancelled =>
      obtain rfl := Option.some.inj h
      exact hdone
  | _ => cases h

lemma posted_closeLaneStep {pc : CloseLanePc} {i : Input} (ht : t < s.nextTask)
    (hpc : s.coro t = .closeLane pc) (h : closeLaneStep s t pc i = some s') : Posted s s' := by
  have hdone : Posted s (s.setCoro t .done) :=
    posted_stay ht rfl (by rw [hpc]; rfl) (by rw [hpc]; rfl) (fun _ _ => rfl) rfl
  unfold closeLaneStep at h
  split at h
  · rename_i order
    rw [Option.ite_none_right_eq_some] at h
    obtain rfl := Option.some.inj h.2
    refine posted_stay ?_ (Sys.spawn_coro_of_lt ht) (by rw [hpc]; rfl) (by rw [hpc]; rfl)
      (fun _ _ => worth_spawn fun k hk => ?_) rfl
    · rw [Sys.spawn_nextTask]
      exact ht.trans_le (Nat.le_add_right _ _)
    · obtain ⟨c, -, rfl⟩ := List.mem_map.mp hk
      exact rfl
  · obtain rfl := Option.some.inj h
    exact hdone
  all_goals first
    | (rw [Option.ite_none_right_eq_some] at h
       obtain rfl := Option.some.inj h.2
       exact hdone)
    | cases h

end Post

/-! ## Every step -/

section Step

variable {E : AesKeystream} {s s' : Sys}

lemma Posted.of_cancelling {cancelling : Finset ℕ}
    (h : Posted { s with cancelling := cancelling } s') : Posted s s' := by
  cases h with
  | keep h => exact .keep ⟨h.worth, h.inflight, h.queued, h.buffer⟩
  | reserve length h => exact .reserve length ⟨h.worth, h.inflight, h.queued, h.buffer⟩
  | release length h => exact .release length ⟨h.worth, h.inflight, h.queued, h.buffer⟩
  | buffer n h => exact .buffer n ⟨h.worth, h.inflight, h.queued, h.buffer⟩

lemma Leaks.of_cancelling {cancelling : Finset ℕ} {t : ℕ} {i : Input}
    (h : Leaks { s with cancelling := cancelling } s' t i) : Leaks s s' t i := by
  cases h with
  | release hi length hlength h => exact .release hi length hlength ⟨h.worth, h.lane⟩
  | reserve hres hfree worth buffer => exact .reserve hres hfree worth buffer

theorem posted_coroStep {t : ℕ} {i : Input} (hf : Formed s)
    (hnew : ∀ c, s.nextTask ∉ (s.chan c).pending.keys) (h : coroStep E s t i = some s') :
    Posted s s' ∨ Leaks s s' t i := by
  have ht : s.coro t ≠ .done → t < s.nextTask := hf.lt
  have hc : ∀ {c}, (s.coro t).onChannel = some c → c < s.nextChan := fun hc => hf.channel t _ hc
  cases hpc : s.coro t with
  | send c caller body pc =>
      simp only [coroStep, hpc] at h ht hc
      exact posted_sendStep (ht nofun) (hc rfl) (hnew c) hpc h
  | upload c =>
      simp only [coroStep, hpc] at h ht
      exact .inl (posted_uploadStep (ht nofun) hpc h)
  | download c pc =>
      simp only [coroStep, hpc] at h ht
      exact .inl (posted_downloadStep (ht nofun) hpc h)
  | recover c pc =>
      simp only [coroStep, hpc] at h ht
      exact .inl (posted_recoverStep (ht nofun) hpc h)
  | request c info pc =>
      simp only [coroStep, hpc] at h ht hc
      exact posted_requestStep (ht nofun) (hc rfl) hpc h
  | bridge c tasks pc =>
      simp only [coroStep, hpc] at h ht
      exact .inl (posted_bridgeStep (ht nofun) hpc h)
  | close c pc =>
      simp only [coroStep, hpc] at h ht hc
      exact posted_closeStep (ht nofun) (hc rfl) hpc h
  | closeLane pc =>
      simp only [coroStep, hpc] at h ht
      exact .inl (posted_closeLaneStep (ht nofun) hpc h)
  | done =>
      simp only [coroStep, hpc] at h
      cases h

/-- The number of the next task is not pending yet. -/
lemma Reaches.next_not_pending (h : Reaches E s) (c : ℕ) :
    s.nextTask ∉ (s.chan c).pending.keys := by
  intro hmem
  obtain ⟨n, hn⟩ := Dict.mem_keys.mp hmem
  obtain ⟨info, pc, hreq, -⟩ := h.listed c _ n hn
  rw [h.formed.toAllocated.req_next] at hreq
  cases hreq

/-- **Every step is posted.**  It changes what is owed and what the lane counts alike, unless it
cancels a coroutine that waits to give a reservation back. -/
theorem posted_of_step {e : Event} (h : Reaches E s) (hs : step E e s = some s') :
    Posted s s' ∨ ∃ t i, e = .run t i ∧ Leaks s s' t i := by
  cases e with
  | tick nanoseconds =>
      obtain rfl := Option.some.inj hs
      exact .inl (posted_keep (fun _ _ => rfl) (even_of_eq rfl))
  | openChannel =>
      obtain rfl := Option.some.inj hs
      refine .inl (posted_keep (fun ρ d => ?_) ⟨rfl, rfl, rfl⟩)
      have hfresh : s.chan s.nextChan = {} := h.formed.chan _ le_rfl
      have hsame : (s.setChan s.nextChan { lastProgress := s.clock }).worth ρ d = s.worth ρ d :=
        worth_setChan_same (by rw [hfresh])
      rw [← hsame, Sys.worth, Finset.sum_range_succ]
      simp [Channel.worth, Dict.values, Dict.empty, Sys.worth]
  | bridge c tag cltEnc =>
      rw [step, Option.ite_none_right_eq_some] at hs
      obtain rfl := Option.some.inj hs.2
      exact .inl (posted_keep (fun _ _ => worth_spawn (by simp [Coro.Newborn])) (even_of_eq rfl))
  | send c body =>
      rw [step, Option.ite_none_right_eq_some] at hs
      obtain rfl := Option.some.inj hs.2
      refine .inl (posted_keep (fun _ _ => ?_) (even_of_eq rfl))
      rw [worth_spawn (by simp [Coro.Newborn]), worth_setChan_same (by rfl)]
  | close c =>
      rw [step, Option.ite_none_right_eq_some] at hs
      obtain rfl := Option.some.inj hs.2
      exact .inl (posted_keep (fun _ _ => worth_spawn (by simp [Coro.Newborn])) (even_of_eq rfl))
  | closeLane =>
      obtain rfl := Option.some.inj hs
      exact .inl (posted_keep (fun _ _ => worth_spawn (by simp [Coro.Newborn])) ⟨rfl, rfl, rfl⟩)
  | cancel t =>
      rw [step, Option.ite_none_right_eq_some] at hs
      obtain rfl := Option.some.inj hs.2
      exact .inl (posted_keep (fun _ _ => rfl) (even_of_eq rfl))
  | run t i =>
      obtain ⟨cancelling, hstep⟩ := coroStep_of_run hs
      rcases posted_coroStep (h.formed.cancelling cancelling) h.next_not_pending hstep with hp | hl
      · exact .inl hp.of_cancelling
      · exact .inr ⟨t, i, rfl, hl.of_cancelling⟩
  | orphanOn t c =>
      rw [step, Option.ite_none_right_eq_some] at hs
      obtain rfl := Option.some.inj hs.2
      exact .inl (posted_keep (fun _ _ => worth_setChan_same (by rfl)) (even_of_eq rfl))
  | orphan t =>
      rw [step, Option.ite_none_right_eq_some] at hs
      obtain rfl := Option.some.inj hs.2
      exact .inl (posted_keep (fun _ _ => worth_setLane _) ⟨rfl, rfl, rfl⟩)

end Step

/-! ## The other side -/

section Sums

variable {s : Sys}

lemma sum_reservations (ρ : ℕ → ℤ) : (s.reservations.map ρ).sum = s.worth ρ 0 := by
  let price : Multiset ℕ →+ ℤ := Multiset.sumAddMonoidHom.comp (Multiset.mapAddMonoidHom ρ)
  have hprice : ∀ m : Multiset ℕ, (m.map ρ).sum = price m := fun _ => rfl
  rw [hprice, Sys.reservations, map_add, map_sum, map_sum]
  simp [← hprice, Sys.worth, Channel.worth, Coro.worth]

lemma buffered_eq : (s.buffered : ℤ) = s.worth (fun _ => 0) 1 := by
  simp [Sys.buffered, Sys.worth, Channel.worth, Coro.worth]

/-- The octets that the lane counts as buffered are those that the running `_post` calls have. -/
theorem Reaches.replyBufferBytes {E : AesKeystream} (h : Reaches E s) :
    s.lane.replyBufferBytes = s.buffered := by
  rw [buffered_eq]
  refine h.invariant (P := fun s => s.lane.replyBufferBytes = s.worth (fun _ => 0) 1) ?_ ?_
  · rintro s ⟨clock, debug, -, rfl⟩
    rfl
  · intro s e s' hr heq _ hs
    have hentry : ∀ {σ length n}, Entry s s' σ length n →
        s'.lane.replyBufferBytes = s'.worth (fun _ => 0) 1 := by
      intro σ length n hentry
      rw [hentry.buffer, hentry.worth, heq]
      simp
    rcases posted_of_step hr hs with (h | ⟨_, h⟩ | ⟨_, h⟩ | ⟨_, h⟩) | ⟨t, i, -, hleaks⟩
    · exact hentry h
    · exact hentry h
    · exact hentry h
    · exact hentry h
    · cases hleaks with
      | release _ length _ hleak =>
          rw [hleak.lane.buffer, hleak.worth, heq]
          simp
      | reserve _ _ hworth hbuffer => rw [hbuffer, hworth, heq]

end Sums

end TgWsProxy
