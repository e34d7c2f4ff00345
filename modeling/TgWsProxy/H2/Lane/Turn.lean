import TgWsProxy.H2.Lane.Moves

/-!
# Whose turn it is

`Move` says what a step does to requests and replies.  This file says what it leaves alone: the
other coroutines, the locks they hold, and the counters of a lane somebody else has locked.

* `Coro.kind`, `Coro.onChannel` — what a coroutine is, and the channel it works for.
* `Formed` — what has not been created is not there, and coroutines work for channels that are.
* `Holding` — a sender holds the lock of its channel.
* `LaneHeld` — and the lane's, unless somebody has released the lock of another.
* `Turn` — a step in which at most one coroutine runs.
* `turn_of_step` — every step is such a turn.
-/

namespace TgWsProxy

open Wire

/-! ## Coroutines -/

inductive Kind
  | sender
  | upload
  | download
  | recover
  | request
  | bridge
  | close
  | closeLane
  | done
  deriving DecidableEq

def Caller.kind : Caller → Kind
  | native => .sender
  | upload => .upload
  | recover => .recover

/-- What a coroutine is, whatever it awaits. -/
def Coro.kind : Coro → Kind
  | send _ caller _ _ => caller.kind
  | upload _ => .upload
  | download _ _ => .download
  | recover _ _ => .recover
  | request _ _ _ => .request
  | bridge _ _ _ => .bridge
  | close _ _ => .close
  | closeLane _ => .closeLane
  | done => .done

/-- The channel a coroutine works for. -/
def Coro.onChannel : Coro → Option ℕ
  | send c _ _ _ => some c
  | upload c => some c
  | download c _ => some c
  | recover c _ => some c
  | request c _ _ => some c
  | bridge c _ _ => some c
  | close c _ => some c
  | closeLane _ => none
  | done => none

/-- A coroutine that has not run yet. -/
def Coro.Newborn : Coro → Prop
  | send _ caller _ pc => caller = .native ∧ pc = .sendLock
  | upload _ => True
  | download _ pc => pc = .dequeuing
  | recover _ pc => pc = .sleeping
  | request _ _ pc => pc = .created
  | bridge _ _ pc => pc = .waiting
  | close _ pc => pc = .closeLock
  | closeLane pc => pc = .lock
  | done => True

/-- What a coroutine may turn into. -/
def Kind.Becomes (a b : Kind) : Prop := b = a ∨ b = .done ∨ a = .bridge ∧ b = .close

lemma Kind.Becomes.trans {a b d : Kind} (h : a.Becomes b) (h' : b.Becomes d) : a.Becomes d := by
  unfold Kind.Becomes at *
  rcases h with rfl | rfl | ⟨rfl, rfl⟩ <;> rcases h' with rfl | rfl | ⟨h, rfl⟩ <;> simp_all

/-! ## Well-formed states -/

/-- What has not been created is not there, and nothing works for it. -/
structure Formed (s : Sys) : Prop extends Allocated s where
  channel : ∀ u c, (s.coro u).onChannel = some c → c < s.nextChan
  lane : ∀ c ∈ s.lane.channels, c < s.nextChan
  chan : ∀ c, s.nextChan ≤ c → s.chan c = {}
  log : ∀ c, s.nextChan ≤ c → s.log c = []
  native : ∀ c, s.nextChan ≤ c → s.native c = none

lemma Formed.start (clock : ℤ) (debug : Bool) : Formed (Sys.start clock debug) where
  coro _ _ := rfl
  channel _ _ h := nomatch h
  lane c h := absurd h (Finset.notMem_empty c)
  chan _ _ := rfl
  log _ _ := rfl
  native _ _ := rfl

/-! ## Locks of a sender -/

/-- What the position of a sender says about the channel's lock. -/
def Holding (s : Sys) (t c : ℕ) (pc : SendPc) : Prop :=
  pc ≠ .sendLock → (s.chan c).sendLock = some t

/-- Every sender holds the lock of its channel. -/
def Held (s : Sys) : Prop :=
  ∀ t c caller body pc, s.coro t = .send c caller body pc → Holding s t c pc

/-! ## The lock of the lane -/

/-- The coroutine has taken the lock of the lane in `_reserve`. -/
def Coro.Reserving : Coro → Prop
  | send _ _ _ (.laneWait w) => w = .start ∨ w = .granted ∨ w = .failed
  | _ => False

instance (k : Coro) : Decidable k.Reserving := by
  unfold Coro.Reserving
  split <;> infer_instance

/-- Whoever has taken the lock of the lane holds it, and a sender that has been admitted has room.
A coroutine that releases the lock of another one ends this. -/
structure LaneHeld (s : Sys) : Prop where
  lane : ∀ t, (s.coro t).Reserving → s.lane.capacity = some t
  room : ∀ t c caller body, s.coro t = .send c caller body (.laneWait .granted) →
    s.lane.closed = true ∨ s.lane.HasCapacity body.length

/-- The coroutine `m` does not leave its inner task behind while another one holds the lock. -/
def Sys.Secure (s : Sys) (m : Option ℕ) : Prop :=
  LaneHeld s ∧ ∀ t, m = some t → ∀ c caller body,
    s.coro t = .send c caller body (.laneWait .leaving) →
      ∀ o, s.lane.capacity = some o → ¬ (s.coro o).Reserving

/-! ## The lane -/

/-- The counters of a lane are within their bounds. -/
def Lane.Fits (lane : Lane) : Prop :=
  lane.inflight ≤ maxLaneRequests ∧ lane.queuedBytes ≤ maxLaneBytes

/-- What a coroutine does to the lane while another one may have locked it. -/
structure LaneStep (s : Sys) (m : Option ℕ) (l l' : Lane) : Prop where
  closed : l.closed = true → l'.closed = true
  locked : s.Secure m → ∀ o, some o ≠ m → (s.coro o).Reserving → l.capacity = some o →
    l'.capacity = some o ∧ l'.inflight = l.inflight ∧ l'.queuedBytes = l.queuedBytes
  fits : s.Secure m → l.Fits → l'.Fits
  replies : l.replyBufferBytes ≤ maxLaneReplyBytes → l'.replyBufferBytes ≤ maxLaneReplyBytes

namespace LaneStep

variable {s : Sys} {m : Option ℕ} {l l' l'' : Lane} {t : ℕ}

lemma refl (s : Sys) (m : Option ℕ) (l : Lane) : LaneStep s m l l :=
  ⟨id, fun _ _ _ _ h => ⟨h, rfl, rfl⟩, fun _ => id, id⟩

lemma trans (h : LaneStep s m l l') (h' : LaneStep s m l' l'') : LaneStep s m l l'' where
  closed hc := h'.closed (h.closed hc)
  locked hsec o ho hres hl := by
    obtain ⟨h1, h2, h3⟩ := h.locked hsec o ho hres hl
    obtain ⟨h4, h5, h6⟩ := h'.locked hsec o ho hres h1
    exact ⟨h4, h5.trans h2, h6.trans h3⟩
  fits hsec hf := h'.fits hsec (h.fits hsec hf)
  replies hr := h'.replies (h.replies hr)

/-- The lock is taken or given back. -/
lemma lock {o : Option ℕ} (hfree : s.Secure (some t) → ∀ u, (s.coro u).Reserving →
    l.capacity = some u → u = t) : LaneStep s (some t) l { l with capacity := o } :=
  ⟨id, fun hsec u hu hres hl => absurd (congrArg some (hfree hsec u hres hl)) hu, fun _ => id, id⟩

/-- A task that was left behind takes the lock. -/
lemma orphan {o : Option ℕ} (hfree : l.capacity = none) :
    LaneStep s m l { l with capacity := o } :=
  ⟨id, fun _ _ _ _ hl => absurd (hfree.symm.trans hl) (by simp), fun _ => id, id⟩

/-- A reservation is made. -/
lemma reserve {n : ℕ} (hfree : s.Secure (some t) → ∀ u, (s.coro u).Reserving →
    l.capacity = some u → u = t) (hroom : s.Secure (some t) → l.HasCapacity n) :
    LaneStep s (some t) l { l with
      inflight := l.inflight + 1
      queuedBytes := l.queuedBytes + n } :=
  ⟨id, fun hsec u hu hres hl => absurd (congrArg some (hfree hsec u hres hl)) hu,
    fun hsec _ => ⟨Int.add_one_le_of_lt (hroom hsec).1, (hroom hsec).2⟩, id⟩

/-- A reservation is given back. -/
lemma release {n : ℕ} (hfree : l.capacity = none) :
    LaneStep s m l { l with
      inflight := l.inflight - 1
      queuedBytes := l.queuedBytes - n } :=
  ⟨id, fun _ u _ _ hl => absurd (hfree.symm.trans hl) (by simp), fun _ hf =>
    ⟨(Int.sub_le_self _ (by decide)).trans hf.1, (Int.sub_le_self _ (by simp)).trans hf.2⟩, id⟩

/-- Octets of a reply are buffered or let go. -/
lemma buffer {n : ℤ} (hn : n ≤ l.replyBufferBytes ∨ n ≤ maxLaneReplyBytes) :
    LaneStep s m l { l with replyBufferBytes := n } :=
  ⟨id, fun _ _ _ _ hl => ⟨hl, rfl, rfl⟩, fun _ => id, fun hf => hn.elim (fun h => h.trans hf) id⟩

lemma setChannels (channels : Finset ℕ) : LaneStep s m l { l with channels := channels } :=
  ⟨id, fun _ _ _ _ hl => ⟨hl, rfl, rfl⟩, fun _ => id, id⟩

lemma setClosed : LaneStep s m l { l with closed := true } :=
  ⟨fun _ => rfl, fun _ _ _ _ hl => ⟨hl, rfl, rfl⟩, fun _ => id, id⟩

end LaneStep

/-! ## Turns -/

/-- At most the coroutine `m` has run. -/
structure Turn (m : Option ℕ) (s s' : Sys) : Prop where
  clock : s.clock ≤ s'.clock
  nextTask : s.nextTask ≤ s'.nextTask
  nextChan : s.nextChan ≤ s'.nextChan
  coro : ∀ u, some u ≠ m → u < s.nextTask → s'.coro u = s.coro u
  kind : ∀ t, m = some t → (s.coro t).kind.Becomes (s'.coro t).kind
  born : ∀ u, s.nextTask ≤ u → (s'.coro u).Newborn
  ran : m ≠ none → ∀ u, s.nextTask ≤ u →
    (s'.coro u).kind = .request ∨ (s'.coro u).kind = .close ∨ (s'.coro u).kind = .done
  sendLock : ∀ c o, some o ≠ m → (s.chan c).sendLock = some o → (s'.chan c).sendLock = some o
  lane : LaneStep s m s.lane s'.lane
  formed : Formed s'

namespace Turn

variable {m : Option ℕ} {s s' : Sys} {t c : ℕ}

lemma refl (hf : Formed s) : Turn m s s where
  clock := le_rfl
  nextTask := le_rfl
  nextChan := le_rfl
  coro _ _ _ := rfl
  kind _ _ := Or.inl rfl
  born u hu := by rw [hf.coro u hu]; trivial
  ran _ u hu := by rw [hf.coro u hu]; exact Or.inr (Or.inr rfl)
  sendLock _ _ _ h := h
  lane := .refl s m s.lane
  formed := hf

lemma setCoro (h : Turn (some t) s s') {k : Coro} (ht : t < s.nextTask)
    (hk : k.onChannel = none ∨ k.onChannel = some c ∧ c < s.nextChan)
    (hkind : (s.coro t).kind.Becomes k.kind) : Turn (some t) s (s'.setCoro t k) where
  clock := h.clock
  nextTask := h.nextTask
  nextChan := h.nextChan
  coro u hu hlt := by
    have hne : u ≠ t := fun heq => hu (congrArg some heq)
    simpa [Function.update_of_ne hne] using h.coro u hu hlt
  kind u hu := by
    cases hu
    simpa using hkind
  born u hu := by
    have hne : u ≠ t := by omega
    simpa [Function.update_of_ne hne] using h.born u hu
  ran hm u hu := by
    have hne : u ≠ t := by omega
    simpa [Function.update_of_ne hne] using h.ran hm u hu
  sendLock := h.sendLock
  lane := h.lane
  formed := {
    coro := fun u hu => by
      have hne : u ≠ t := by
        have hle : s'.nextTask ≤ u := hu
        have := h.nextTask
        omega
      simpa [Function.update_of_ne hne] using h.formed.coro u hu
    channel := fun u c' hu => by
      by_cases hne : u = t
      · subst hne
        simp only [Sys.setCoro_coro, Function.update_self] at hu
        rcases hk with hk | ⟨hk, hc⟩
        · rw [hk] at hu
          cases hu
        · rw [hk] at hu
          cases hu
          exact hc.trans_le h.nextChan
      · exact h.formed.channel u c' (by simpa [Function.update_of_ne hne] using hu)
    lane := h.formed.lane
    chan := h.formed.chan
    log := h.formed.log
    native := h.formed.native }

lemma setChan (h : Turn m s s') {ch : Channel} (hc : c < s.nextChan)
    (hlock : ∀ o, some o ≠ m → (s'.chan c).sendLock = some o → ch.sendLock = some o) :
    Turn m s (s'.setChan c ch) where
  clock := h.clock
  nextTask := h.nextTask
  nextChan := h.nextChan
  coro := h.coro
  kind := h.kind
  born := h.born
  ran := h.ran
  sendLock c' o ho hs := by
    have hs' := h.sendLock c' o ho hs
    by_cases heq : c' = c
    · subst heq
      simpa using hlock o ho hs'
    · simpa [Function.update_of_ne heq] using hs'
  lane := h.lane
  formed := {
    coro := h.formed.coro
    channel := h.formed.channel
    lane := h.formed.lane
    chan := fun c' hc' => by
      have hne : c' ≠ c := by
        have hle : s'.nextChan ≤ c' := hc'
        have := h.nextChan
        omega
      simpa [Function.update_of_ne hne] using h.formed.chan c' hc'
    log := h.formed.log
    native := h.formed.native }

lemma setLane (h : Turn m s s') {lane : Lane} (hl : LaneStep s m s'.lane lane)
    (hc : lane.channels ⊆ s'.lane.channels) : Turn m s (s'.setLane lane) where
  clock := h.clock
  nextTask := h.nextTask
  nextChan := h.nextChan
  coro := h.coro
  kind := h.kind
  born := h.born
  ran := h.ran
  sendLock := h.sendLock
  lane := h.lane.trans hl
  formed := {
    coro := h.formed.coro
    channel := h.formed.channel
    lane := fun c' hc' => h.formed.lane c' (hc hc')
    chan := h.formed.chan
    log := h.formed.log
    native := h.formed.native }

lemma mark (h : Turn m s s') (hc : c < s.nextChan) (marks : List Mark) :
    Turn m s (s'.mark c marks) where
  clock := h.clock
  nextTask := h.nextTask
  nextChan := h.nextChan
  coro := h.coro
  kind := h.kind
  born := h.born
  ran := h.ran
  sendLock := h.sendLock
  lane := h.lane
  formed := {
    coro := h.formed.coro
    channel := h.formed.channel
    lane := h.formed.lane
    chan := h.formed.chan
    log := fun c' hc' => by
      have hne : c' ≠ c := by
        have hle : s'.nextChan ≤ c' := hc'
        have := h.nextChan
        omega
      simpa [Function.update_of_ne hne] using h.formed.log c' hc'
    native := h.formed.native }

lemma setNative (h : Turn m s s') (hc : c < s.nextChan) (n : Native) :
    Turn m s (s'.setNative c n) where
  clock := h.clock
  nextTask := h.nextTask
  nextChan := h.nextChan
  coro := h.coro
  kind := h.kind
  born := h.born
  ran := h.ran
  sendLock := h.sendLock
  lane := h.lane
  formed := {
    coro := h.formed.coro
    channel := h.formed.channel
    lane := h.formed.lane
    chan := h.formed.chan
    log := h.formed.log
    native := fun c' hc' => by
      have hne : c' ≠ c := by
        have hle : s'.nextChan ≤ c' := hc'
        have := h.nextChan
        omega
      simpa [Function.update_of_ne hne] using h.formed.native c' hc' }

lemma orphans (h : Turn m s s') (orphans : Finset (ℕ × Option ℕ)) :
    Turn m s { s' with orphans := orphans } :=
  ⟨h.clock, h.nextTask, h.nextChan, h.coro, h.kind, h.born, h.ran, h.sendLock, h.lane,
    ⟨⟨h.formed.coro⟩, h.formed.channel, h.formed.lane, h.formed.chan, h.formed.log,
      h.formed.native⟩⟩

lemma cancelAll (h : Turn m s s') (tasks : List ℕ) : Turn m s (s'.cancelAll tasks) :=
  ⟨h.clock, h.nextTask, h.nextChan, h.coro, h.kind, h.born, h.ran, h.sendLock, h.lane,
    ⟨⟨h.formed.coro⟩, h.formed.channel, h.formed.lane, h.formed.chan, h.formed.log,
      h.formed.native⟩⟩

lemma spawn (h : Turn m s s') (hnew : s'.nextTask = s.nextTask) {ks : List Coro}
    (ht : ∀ t, m = some t → t < s.nextTask)
    (hks : ∀ k ∈ ks, k.Newborn ∧ (∀ c', k.onChannel = some c' → c' < s.nextChan) ∧
      (m ≠ none → k.kind = .request ∨ k.kind = .close)) : Turn m s (s'.spawn ks) where
  clock := h.clock
  nextTask := by
    have := h.nextTask
    simp only [Sys.spawn_nextTask]
    omega
  nextChan := h.nextChan
  coro u hu hlt := by
    rw [Sys.spawn_coro_of_lt (by omega)]
    exact h.coro u hu hlt
  kind t hm := by
    rw [Sys.spawn_coro_of_lt (by have := ht t hm; omega)]
    exact h.kind t hm
  born u hu := by
    simp only [Sys.spawn_coro, hnew, if_neg (not_lt.mpr hu)]
    by_cases hlen : u - s.nextTask < ks.length
    · rw [List.getD_eq_getElem _ _ hlen]
      exact (hks _ (List.getElem_mem hlen)).1
    · rw [List.getD_eq_default _ _ (not_lt.mp hlen)]
      trivial
  ran hm u hu := by
    simp only [Sys.spawn_coro, hnew, if_neg (not_lt.mpr hu)]
    by_cases hlen : u - s.nextTask < ks.length
    · rw [List.getD_eq_getElem _ _ hlen]
      rcases (hks _ (List.getElem_mem hlen)).2.2 hm with hk | hk
      · exact Or.inl hk
      · exact Or.inr (Or.inl hk)
    · rw [List.getD_eq_default _ _ (not_lt.mp hlen)]
      exact Or.inr (Or.inr rfl)
  sendLock := h.sendLock
  lane := h.lane
  formed := {
    coro := fun u hu => by
      simp only [Sys.spawn_nextTask] at hu
      simp only [Sys.spawn_coro, if_neg (show ¬ u < s'.nextTask by omega)]
      exact List.getD_eq_default _ _ (by omega)
    channel := fun u c' hu => by
      by_cases hlt : u < s'.nextTask
      · rw [Sys.spawn_coro_of_lt hlt] at hu
        exact h.formed.channel u c' hu
      · simp only [Sys.spawn_coro, if_neg hlt] at hu
        by_cases hlen : u - s'.nextTask < ks.length
        · rw [List.getD_eq_getElem _ _ hlen] at hu
          exact ((hks _ (List.getElem_mem hlen)).2.1 c' hu).trans_le h.nextChan
        · rw [List.getD_eq_default _ _ (not_lt.mp hlen)] at hu
          cases hu
    lane := h.formed.lane
    chan := h.formed.chan
    log := h.formed.log
    native := h.formed.native }

end Turn

end TgWsProxy
