import TgWsProxy.H2.Lane.Types
import Mathlib.Data.List.Sort

/-!
# What a channel computes between two awaits

The methods of `_HttpChannel`, and the stretches of its coroutines in which nothing is awaited, as
functions on the record.

* capacity, failure and wake-up — `HasCapacity`, `fail`, `wakeReceiver`.
* the replay history — `findPacket`, `rememberPacket`, `trimHistory`, `register`.
* decisions of the recovery loop — `capacityCandidate`, `replayBlocker`, `choose`.
* the end of a request — `complete`, `finishRequest`.
-/

namespace TgWsProxy

open Wire

namespace Channel

variable (ch : Channel)

/-! ## Capacity, failure, wake-up -/

/-- `native_backpressure`. -/
def NativeBackpressure : Prop := ch.replyBytes ≠ 0 ∨ ch.deliveringSince ≠ none

instance : Decidable ch.NativeBackpressure := inferInstanceAs (Decidable (_ ∨ _))

/-- `_has_capacity(length)`. -/
def HasCapacity (length : ℕ) : Prop :=
  ch.pending.size < maxChannelRequests ∧ ch.pendingBytes + length ≤ maxChannelBytes

instance (length : ℕ) : Decidable (ch.HasCapacity length) := inferInstanceAs (Decidable (_ ∧ _))

/-- `_wake_receiver()`. -/
def wakeReceiver : Channel :=
  if ¬ ch.closed ∧ ch.pending.keys = [] ∧ ¬ ch.NativeBackpressure then
    { ch with recoveryWakeup := true }
  else ch

/-- `_fail(error)`. -/
def fail (failure : Failure) : Channel :=
  if ch.closed then ch
  else
    { ch with
      transportError :=
        match failure with
        | .transport code => some code
        | _ => ch.transportError
      closed := true
      recoveryWakeup := true
      queue := [.error failure]
      replyBytes := 0 }

/-! ## The replay history -/

/-- `packet.… = …`: the packet of that number, while the history holds it, is changed. -/
def updatePacket (sequence : ℕ) (f : ReplayPacket → ReplayPacket) : Channel :=
  { ch with
    replayHistory := ch.replayHistory.map fun entry =>
      if entry.sequence = sequence then f entry else entry }

/-- `_find_packet(body)`. -/
def findPacket (body : Bytes) : Option ReplayPacket :=
  ch.replayHistory.find? (·.body = body)

/-- The auth key that marks a plaintext handshake. -/
def plainKey : Bytes := List.replicate 8 0

/-- `_remember_packet(body, now)`: the channel, and the packet that carries the body. -/
def rememberPacket (body : Bytes) (now : ℤ) : Channel × Option ℕ :=
  let key := body.take 8
  if key = plainKey then (ch, none)
  else
    let ch :=
      if ch.replayKey ≠ some key then { ch with replayHistory := [], replayKey := some key } else ch
    if replayHistoryBytes < body.length then (ch, none)
    else
      match ch.findPacket body with
      | some entry => (ch, some entry.sequence)
      | none =>
          ({ ch with
            replayHistory :=
              ch.replayHistory ++ [{ sentAt := now, body := body, sequence := ch.requests }] },
            some ch.requests)

lemma rememberPacket_eq (body : Bytes) (now : ℤ) :
    ∃ key history, (ch.rememberPacket body now).1
      = { ch with replayKey := key, replayHistory := history } := by
  unfold rememberPacket
  simp only
  by_cases hkey : ch.replayKey = some (body.take 8)
  · simp only [hkey, ne_eq, not_true_eq_false, if_false]
    split_ifs
    · exact ⟨_, _, rfl⟩
    · exact ⟨_, _, rfl⟩
    · split <;> exact ⟨_, _, rfl⟩
  · simp only [hkey, ne_eq, not_false_eq_true, if_true]
    split_ifs
    · exact ⟨_, _, rfl⟩
    · exact ⟨_, _, rfl⟩
    · split <;> exact ⟨_, _, rfl⟩

/-- What `_trim_history` spares while it can. -/
def Spared (now : ℤ) (entry : ReplayPacket) : Prop :=
  entry.originals ≠ ∅ ∨
    entry.retired ∧ entry.attempts < replayMaxAttempts ∧ now - entry.sentAt ≤ replayMaxAge

instance (now : ℤ) (entry : ReplayPacket) : Decidable (Spared now entry) :=
  inferInstanceAs (Decidable (_ ∨ _))

/-- The loop condition of `_trim_history`. -/
def Overfull (history : List ReplayPacket) : Prop :=
  replayHistoryPackets < history.length ∨
    replayHistoryBytes < (history.map (·.body.length)).sum

instance (history : List ReplayPacket) : Decidable (Overfull history) :=
  inferInstanceAs (Decidable (_ ∨ _))

/-- The first entry that is not spared, or else the first. -/
def trimVictim (now : ℤ) (history : List ReplayPacket) : Option ReplayPacket :=
  (history.find? fun entry => ¬ Spared now entry).or history.head?

lemma mem_of_trimVictim {now : ℤ} {history : List ReplayPacket} {victim : ReplayPacket}
    (h : trimVictim now history = some victim) : victim ∈ history := by
  rcases Option.or_eq_some_iff.mp h with h | ⟨-, h⟩
  · exact List.mem_of_find?_eq_some h
  · exact List.mem_of_mem_head? h

/-- The loop of `_trim_history(now)`. -/
def trimList (now : ℤ) (history : List ReplayPacket) : List ReplayPacket :=
  if Overfull history then
    match _h : trimVictim now history with
    | some victim => trimList now (history.erase victim)
    | none => history
  else history
termination_by history.length
decreasing_by
  have hmem := mem_of_trimVictim _h
  have hpos := List.length_pos_of_mem hmem
  rw [List.length_erase_of_mem hmem]
  omega

/-- `_trim_history(now)`. -/
def trimHistory (now : ℤ) : Channel :=
  { ch with replayHistory := trimList now ch.replayHistory }

/-- The end of `_send` for a native packet: a request `task` is entered. -/
def registerNative (task : ℕ) (now : ℤ) (body : Bytes) (debug : Bool) :
    Channel × Option ℕ :=
  let ch := { ch with pendingBytes := ch.pendingBytes + body.length, requests := ch.requests + 1 }
  let (ch, packet) := ch.rememberPacket body now
  let ch := { ch with
    pending := ch.pending.set task body.length
    pendingSince := ch.pendingSince.set task now
    requestTraces := if debug then insert task ch.requestTraces else ch.requestTraces }
  match packet with
  | some sequence =>
      ((ch.updatePacket sequence fun entry =>
        { entry with originals := insert task entry.originals }).trimHistory now, packet)
  | none => (ch, none)

lemma registerNative_elim (task : ℕ) (now : ℤ) (body : Bytes) (debug : Bool) :
    ch.registerNative task now body debug =
      let first : Channel := { ch with
        pendingBytes := ch.pendingBytes + body.length
        requests := ch.requests + 1 }
      let second := (first.rememberPacket body now).1
      let third : Channel := { second with
        pending := second.pending.set task body.length
        pendingSince := second.pendingSince.set task now
        requestTraces := if debug then insert task second.requestTraces else second.requestTraces }
      (first.rememberPacket body now).2.elim (third, none) fun sequence =>
        ((third.updatePacket sequence fun entry =>
          { entry with originals := insert task entry.originals }).trimHistory now,
          (first.rememberPacket body now).2) := by
  unfold registerNative
  dsimp only
  generalize rememberPacket _ body now = remembered
  rcases remembered with ⟨_, _ | _⟩ <;> rfl

/-- Entering a native request touches the request records, the history and its key. -/
lemma registerNative_eq (task : ℕ) (now : ℤ) (body : Bytes) (debug : Bool) :
    ∃ key history traces, (ch.registerNative task now body debug).1 = { ch with
      pendingBytes := ch.pendingBytes + body.length
      requests := ch.requests + 1
      pending := ch.pending.set task body.length
      pendingSince := ch.pendingSince.set task now
      requestTraces := traces
      replayKey := key
      replayHistory := history } := by
  obtain ⟨key, history, hremember⟩ := rememberPacket_eq
    { ch with pendingBytes := ch.pendingBytes + body.length, requests := ch.requests + 1 } body now
  unfold registerNative
  simp only [hremember]
  split <;> exact ⟨_, _, _, rfl⟩

/-- The end of `_send` for a replay of the packet `sequence`. -/
def registerReplay (task : ℕ) (now : ℤ) (body : Bytes) (debug : Bool) (sequence : ℕ) :
    Channel :=
  let ch := { ch with
    pendingBytes := ch.pendingBytes + body.length
    requests := ch.requests + 1
    pending := ch.pending.set task body.length
    pendingSince := ch.pendingSince.set task now
    requestTraces := if debug then insert task ch.requestTraces else ch.requestTraces
    replayPending := insert task ch.replayPending }
  ch.updatePacket sequence fun entry =>
    { entry with
      attempts := entry.attempts + 1
      lastAttemptAt := now
      pending := some task }

/-! ## Decisions of the recovery loop -/

/-- `_overdue_original(entry, now)`. -/
def OverdueOriginal (entry : ReplayPacket) (now : ℤ) : Prop :=
  entry.retired ∨ ∃ p ∈ ch.sentSince.entries,
    p.1 ∈ entry.originals ∧ p.1 ∉ ch.receivingTasks ∧ replayRequestSeconds ≤ now - p.2

instance (entry : ReplayPacket) (now : ℤ) : Decidable (ch.OverdueOriginal entry now) :=
  inferInstanceAs (Decidable (_ ∨ _))

/-- `entry is self.replay_history[-1]`. -/
def IsLast (entry : ReplayPacket) : Prop :=
  ch.replayHistory.getLast?.map (·.sequence) = some entry.sequence

instance (entry : ReplayPacket) : Decidable (ch.IsLast entry) :=
  inferInstanceAs (Decidable (_ = _))

/-- `_replay_limit(entry)`. -/
def replayLimit (entry : ReplayPacket) : ℕ :=
  if entry.originals ≠ ∅ ∨ entry.retired ∨ ch.IsLast entry then replayMaxAttempts else 0

lemma replayLimit_le (entry : ReplayPacket) : ch.replayLimit entry ≤ replayMaxAttempts := by
  unfold replayLimit
  split_ifs
  · exact le_rfl
  · exact Nat.zero_le _

/-- `_replay_blocker(entry, now)`. -/
def replayBlocker (entry : ReplayPacket) (now : ℤ) : Option String :=
  if ¬ (0 ≤ now - entry.sentAt ∧ now - entry.sentAt ≤ replayMaxAge) then some "expired"
  else if ch.replayLimit entry ≤ entry.attempts then some "budget-used"
  else if ch.NativeBackpressure then some "native-backpressure"
  else if entry.originals ∩ ch.receivingTasks ≠ ∅ then some "original-body"
  else if ∃ task ∈ entry.pending, task ∈ ch.receivingTasks then some "replay-body"
  else if entry.Replayed ∧ now - entry.lastAttemptAt < replayRetrySeconds then
    some "backoff-or-progress"
  else if ch.OverdueOriginal entry now then none
  else if ¬ ch.IsLast entry ∨ ∃ task ∈ ch.pending.keys, some task ≠ entry.pending then
    some "receiver-active"
  else if entry.Replayed ∧ now - ch.lastProgress < replayIdleSeconds then
    some "backoff-or-progress"
  else none

/-- `_replay_due(entry, now)`. -/
def ReplayDue (entry : ReplayPacket) (now : ℤ) : Prop := ch.replayBlocker entry now = none

instance (entry : ReplayPacket) (now : ℤ) : Decidable (ch.ReplayDue entry now) :=
  inferInstanceAs (Decidable (_ = _))

/-- What a packet that is due satisfies. -/
lemma ReplayDue.spec {ch : Channel} {entry : ReplayPacket} {now : ℤ}
    (h : ch.ReplayDue entry now) :
    (0 ≤ now - entry.sentAt ∧ now - entry.sentAt ≤ replayMaxAge) ∧
      entry.attempts < ch.replayLimit entry ∧ ¬ ch.NativeBackpressure ∧
      entry.originals ∩ ch.receivingTasks = ∅ ∧
      (∀ task, entry.pending = some task → task ∉ ch.receivingTasks) ∧
      (entry.Replayed → replayRetrySeconds ≤ now - entry.lastAttemptAt) := by
  unfold ReplayDue replayBlocker at h
  split_ifs at h with h1 h2 h3 h4 h5 h6 <;>
    exact ⟨h1, not_le.mp h2, h3, not_not.mp h4, fun task ht hr => h5 ⟨task, ht, hr⟩,
      fun hr => not_lt.mp fun hlt => h6 ⟨hr, hlt⟩⟩

/-- The key of the sort in `_capacity_candidate`: replays first, then the oldest. -/
def CandidateLE (a b : ℕ × ℤ) : Prop :=
  a.1 ∈ ch.replayPending ∧ b.1 ∉ ch.replayPending ∨
    (a.1 ∈ ch.replayPending ↔ b.1 ∈ ch.replayPending) ∧ a.2 ≤ b.2

instance : DecidableRel ch.CandidateLE := fun _ _ => inferInstanceAs (Decidable (_ ∨ _))

/-- One turn of the loop of `_capacity_candidate`. -/
def candidateTurn (done : ℕ → Bool) (now : ℤ) (p : ℕ × ℤ) :
    Option (ℕ × Option ℕ) :=
  if done p.1 ∨ p.1 ∈ ch.receivingTasks ∨ now - p.2 < replayRequestSeconds then none
  else if p.1 ∈ ch.replayPending then some (p.1, none)
  else
    match ch.replayHistory.find? (p.1 ∈ ·.originals) with
    | some entry =>
        if now - entry.sentAt ≤ replayMaxAge then some (p.1, some entry.sequence) else none
    | none => none

/-- `_capacity_candidate(now)`: a task, and the number of its packet if it is an original. -/
def capacityCandidate (done : ℕ → Bool) (now : ℤ) : Option (ℕ × Option ℕ) :=
  (ch.sentSince.entries.insertionSort ch.CandidateLE).findSome? (ch.candidateTurn done now)

/-- What `_make_upload_room` does to the channel of the task it cancels. -/
def rotate (task : ℕ) (packet : Option ℕ) : Channel :=
  let ch := { ch with sentSince := ch.sentSince.erase task }
  match packet with
  | some sequence => ch.updatePacket sequence fun entry => { entry with retired := true }
  | none => ch

/-- The key of the sort in `_recover`: overdue packets in order, then the others, latest first. -/
def priority (entry : ReplayPacket) (now : ℤ) : ℕ × ℤ :=
  if ch.OverdueOriginal entry now then (0, entry.sequence) else (1, -entry.sequence)

def PriorityLE (now : ℤ) (a b : ReplayPacket) : Prop :=
  (ch.priority a now).1 < (ch.priority b now).1 ∨
    (ch.priority a now).1 = (ch.priority b now).1 ∧ (ch.priority a now).2 ≤ (ch.priority b now).2

instance (now : ℤ) : DecidableRel (ch.PriorityLE now) :=
  fun _ _ => inferInstanceAs (Decidable (_ ∨ _))

/-- The replay that must make way for one of `entry`: its own, or when both slots are taken the
oldest that is not being received.  The outer option is the `continue` of `_recover`. -/
def replaceFor (entry : ReplayPacket) (now : ℤ) : Option (Option ℕ) :=
  let replace : Option (Option ℕ) :=
    match entry.pending with
    | some task => some (some task)
    | none =>
        if ch.replayPending.card < maxChannelReplays then some none
        else
          (ch.pending.keys.find? fun task =>
            task ∈ ch.replayPending ∧ task ∉ ch.receivingTasks).map some
  match replace with
  | some (some task) =>
      match ch.sentSince.get? task with
      | some sent =>
          if task ∈ ch.receivingTasks ∨ now - sent < replaySlotSeconds then none
          else some (some task)
      | none => none
  | other => other

/-- One turn of the loop of `_recover`. -/
def chooseTurn (now : ℤ) (entry : ReplayPacket) : Option (Bytes × Option ℕ) :=
  if ch.ReplayDue entry now then (ch.replaceFor entry now).map fun replace => (entry.body, replace)
  else none

/-- The loop of `_recover` over the history: what to replay, and what to replace for it. -/
def choose (now : ℤ) : Option (Bytes × Option ℕ) :=
  (ch.replayHistory.insertionSort (ch.PriorityLE now)).findSome? (ch.chooseTurn now)

/-! ## The end of a request -/

/-- `_run_request` after `_post` has returned. -/
def complete (packet : Option ℕ) (reply : Bytes) (now : ℤ) : Channel × List Mark :=
  let ch := { ch with lastProgress := now }
  if reply = [] then (ch, [])
  else if ch.closed then (ch, [.reply packet reply])
  else
    let ch : Channel :=
      match packet with
      | some sequence => ch.updatePacket sequence fun entry =>
          if some (reply.take 24) ≠ entry.replyId then
            { entry with replyId := some (reply.take 24), attempts := 0 }
          else entry
      | none => ch
    if queueSize ≤ ch.queue.length ∨ maxChannelBytes < ch.replyBytes + reply.length then
      let failure := .buffer "H2 client response queue exceeded bound"
      (ch.fail failure, [.reply packet reply, .failed failure])
    else
      ({ ch with
        replyBytes := ch.replyBytes + reply.length
        queue := ch.queue ++ [.reply reply] }, [.reply packet reply])

/-- A reply on the record of its packet. -/
def recordReply (packet : Option ℕ) (reply : Bytes) : Channel :=
  packet.elim ch fun sequence => ch.updatePacket sequence fun entry =>
    if some (reply.take 24) ≠ entry.replyId then
      { entry with replyId := some (reply.take 24), attempts := 0 }
    else entry

lemma complete_eq (packet : Option ℕ) (reply : Bytes) (now : ℤ) :
    ch.complete packet reply now =
      let progressed : Channel := { ch with lastProgress := now }
      if reply = [] then (progressed, [])
      else if ch.closed then (progressed, [.reply packet reply])
      else
        let recorded := progressed.recordReply packet reply
        if queueSize ≤ recorded.queue.length ∨
            maxChannelBytes < recorded.replyBytes + reply.length then
          (recorded.fail (.buffer "H2 client response queue exceeded bound"),
            [.reply packet reply, .failed (.buffer "H2 client response queue exceeded bound")])
        else
          ({ recorded with
            replyBytes := recorded.replyBytes + reply.length
            queue := recorded.queue ++ [.reply reply] }, [.reply packet reply]) := by
  cases packet <;> rfl

/-- The packet whose records name the task. -/
def packetOf (task : ℕ) : Option ℕ :=
  (ch.replayHistory.find? fun entry => task ∈ entry.originals ∨ entry.pending = some task).map
    (·.sequence)

/-- What is left of a packet's records when its task ends. -/
def release (task : ℕ) (entry : ReplayPacket) : ReplayPacket :=
  { entry with
    originals := entry.originals.erase task
    pending := if entry.pending = some task then none else entry.pending }

/-- `_finish_request(task, packet)` up to its first await: the length to give back, or nothing for
a task that is not pending. -/
def finishRequest (task : ℕ) (packet : Option ℕ) : Option (ℕ × Channel) :=
  match ch.pending.get? task with
  | none => none
  | some length =>
      let ch := { ch with
        pending := ch.pending.erase task
        requestTraces := ch.requestTraces.erase task
        pendingBytes := ch.pendingBytes - length
        pendingSince := ch.pendingSince.erase task
        sentSince := ch.sentSince.erase task
        replayPending := ch.replayPending.erase task }
      match packet.or (ch.packetOf task) with
      | some sequence => some (length, ch.updatePacket sequence (release task))
      | none => some (length, ch)

/-- What the end of a request changes. -/
lemma finishRequest_eq_some {ch ch' : Channel} {task length : ℕ} {packet : Option ℕ}
    (h : ch.finishRequest task packet = some (length, ch')) :
    ch.pending.get? task = some length ∧ ∃ history, ch' = { ch with
      pending := ch.pending.erase task
      requestTraces := ch.requestTraces.erase task
      pendingBytes := ch.pendingBytes - length
      pendingSince := ch.pendingSince.erase task
      sentSince := ch.sentSince.erase task
      replayPending := ch.replayPending.erase task
      replayHistory := history } := by
  unfold finishRequest at h
  split at h
  · cases h
  · rename_i hget
    simp only at h
    split at h <;> cases h <;> exact ⟨hget, _, rfl⟩

lemma finishRequest_eq_none {ch : Channel} {task : ℕ} {packet : Option ℕ} :
    ch.finishRequest task packet = none ↔ task ∉ ch.pending.keys := by
  rw [← Dict.get?_eq_none]
  unfold finishRequest
  cases ch.pending.get? task with
  | none => exact iff_of_true rfl rfl
  | some length => exact iff_of_false (by simp only; split <;> simp) (by simp)

/-- The end of `close`. -/
def clear : Channel :=
  { ch with
    replayPending := ∅
    replayHistory := []
    sentSince := .empty
    requestTraces := ∅
    closeDone := true
    closeLock := none }

end Channel

end TgWsProxy
