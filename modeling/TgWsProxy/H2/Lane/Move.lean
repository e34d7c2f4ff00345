import TgWsProxy.H2.Lane.System

/-!
# What one step does

Most steps of a lane only pass a lock on or move a coroutine along.  `Move` lists what the others do
to requests, replies and histories, once for all the invariants that are proved from it.

* `Channel.Same` — two records that differ in locks, waits and wake-ups at most.
* `Sys.req` — the request a task is running.
* `Move` — the kinds of steps.
* `move_of_step` — every step is of one of these kinds.
-/

namespace TgWsProxy

open Wire

/-! ## Records up to locks -/

/-- The records agree on requests, replies and the history. -/
structure Channel.Same (a b : Channel) : Prop where
  closed : b.closed = a.closed
  transportError : b.transportError = a.transportError
  pending : b.pending = a.pending
  pendingSince : b.pendingSince = a.pendingSince
  sentSince : b.sentSince = a.sentSince
  pendingBytes : b.pendingBytes = a.pendingBytes
  replyBytes : b.replyBytes = a.replyBytes
  queue : b.queue = a.queue
  requests : b.requests = a.requests
  receivingTasks : b.receivingTasks = a.receivingTasks
  deliveringSince : b.deliveringSince = a.deliveringSince
  replayPending : b.replayPending = a.replayPending
  replayHistory : b.replayHistory = a.replayHistory
  replayKey : b.replayKey = a.replayKey
  closeDone : b.closeDone = a.closeDone
  requestTraces : b.requestTraces = a.requestTraces

namespace Channel.Same

variable {a b d : Channel}

@[refl] lemma refl (a : Channel) : a.Same a := by constructor <;> rfl

lemma trans (h : a.Same b) (h' : b.Same d) : a.Same d where
  closed := h'.closed.trans h.closed
  transportError := h'.transportError.trans h.transportError
  pending := h'.pending.trans h.pending
  pendingSince := h'.pendingSince.trans h.pendingSince
  sentSince := h'.sentSince.trans h.sentSince
  pendingBytes := h'.pendingBytes.trans h.pendingBytes
  replyBytes := h'.replyBytes.trans h.replyBytes
  queue := h'.queue.trans h.queue
  requests := h'.requests.trans h.requests
  receivingTasks := h'.receivingTasks.trans h.receivingTasks
  deliveringSince := h'.deliveringSince.trans h.deliveringSince
  replayPending := h'.replayPending.trans h.replayPending
  replayHistory := h'.replayHistory.trans h.replayHistory
  replayKey := h'.replayKey.trans h.replayKey
  closeDone := h'.closeDone.trans h.closeDone
  requestTraces := h'.requestTraces.trans h.requestTraces

lemma wakeReceiver (h : a.Same b) : a.Same b.wakeReceiver := by
  refine h.trans ?_
  unfold Channel.wakeReceiver
  split_ifs <;> constructor <;> rfl

lemma endWait (h : a.Same b) (caller : Caller) : a.Same (b.endWait caller) := by
  refine h.trans ?_
  unfold Channel.endWait
  split_ifs <;> constructor <;> rfl

lemma setSendLock (h : a.Same b) (o : Option ℕ) : a.Same { b with sendLock := o } :=
  h.trans (by constructor <;> rfl)

lemma setCapacity (h : a.Same b) (o : Option ℕ) : a.Same { b with capacity := o } :=
  h.trans (by constructor <;> rfl)

lemma setCloseLock (h : a.Same b) (o : Option ℕ) : a.Same { b with closeLock := o } :=
  h.trans (by constructor <;> rfl)

lemma setWakeup (h : a.Same b) (w : Bool) : a.Same { b with recoveryWakeup := w } :=
  h.trans (by constructor <;> rfl)

lemma setWaitPhase (h : a.Same b) (phase : UploadWaitPhase) :
    a.Same { b with uploadWaitPhase := phase } :=
  h.trans (by constructor <;> rfl)

lemma beginWait (h : a.Same b) (now : ℤ) (body : Bytes) : a.Same (b.beginWait now body) :=
  h.trans (by constructor <;> rfl)

end Channel.Same

/-! ## Requests -/

/-- The request a coroutine runs: its channel, its arguments and where it is. -/
def Coro.asRequest : Coro → Option (ℕ × Request × RequestPc)
  | request c info pc => some (c, info, pc)
  | _ => none

namespace Sys

def req (s : Sys) (u : ℕ) : Option (ℕ × Request × RequestPc) := (s.coro u).asRequest

lemma coro_of_req {s : Sys} {u : ℕ} {c : ℕ} {info : Request} {pc : RequestPc}
    (h : s.req u = some (c, info, pc)) : s.coro u = .request c info pc := by
  unfold req Coro.asRequest at h
  split at h
  · rename_i heq
    obtain ⟨rfl, rfl, rfl⟩ : _ = c ∧ _ = info ∧ _ = pc := by simpa using h
    exact heq
  · cases h

lemma req_of_coro {s : Sys} {u : ℕ} {c : ℕ} {info : Request} {pc : RequestPc}
    (h : s.coro u = .request c info pc) : s.req u = some (c, info, pc) := by
  rw [req, h]
  rfl

end Sys

/-- `_send` is about to reserve on the lane. -/
def SendPc.Admitting : SendPc → Prop
  | laneLock => True
  | laneWait w => w = .granted
  | _ => False

/-- Where a request goes without touching its channel. -/
inductive Calm : RequestPc → RequestPc → Prop
  | post : Calm .created (.posting {})
  | never : Calm .created .finished
  | read (p : Post) (data : Bytes) (hopen : p.opened = true)
      (hmax : p.content.length + data.length ≤ maxPacket) :
      Calm (.posting p) (.posting { p with content := p.content ++ data })
  | start (p p' : Post) (hr : p.receiving = true) (hr' : p'.receiving = true)
      (hu : p'.uploaded = p.uploaded) (hc : p'.content = p.content) :
      Calm (.posting p) (.posting p')
  | notify (length : ℕ) : Calm (.releasing length) .notifying
  | leak (length : ℕ) : Calm (.releasing length) .finished
  | finish : Calm .notifying .finished

/-! ## Steps -/

/-- A step touches at most the channel `c` and the request `u`. -/
structure Only (c : ℕ) (u : Option ℕ) (s s' : Sys) : Prop where
  chan : ∀ c', c' ≠ c → (s.chan c').Same (s'.chan c')
  log : ∀ c', c' ≠ c → s'.log c' = s.log c'
  native : ∀ c', c' ≠ c → s'.native c' = s.native c'
  req : ∀ v, some v ≠ u → s'.req v = s.req v

/-- A step touches neither requests nor replies nor histories. -/
structure Quiet (s s' : Sys) : Prop where
  chan : ∀ c, (s.chan c).Same (s'.chan c)
  log : s'.log = s.log
  native : s'.native = s.native
  req : ∀ u, s'.req u = s.req u

/-- The coroutine `t` closes `c`, its tasks have ended, and it looks at `rest` next. -/
def Sweeping (s : Sys) (t : ℕ) (c : ℕ) (rest : List ℕ) : Prop :=
  (∃ tasks, s.coro t = .close c (.gathering tasks) ∧ (∀ task ∈ tasks, s.isDone task = true) ∧
      rest = (s.chan c).pending.keys) ∨
    s.coro t = .close c (.notifying rest)

/-- What a step does to the channel `c` when it is not quiet. -/
inductive MoveOn (E : AesKeystream) (c : ℕ) (s s' : Sys) : Prop
  /-- The channel is opened. -/
  | opened (hc : c = s.nextChan) (hchan : Channel.Same {} (s'.chan c)) (hlog : s'.log = s.log)
      (hnative : s'.native = s.native) (honly : Only c none s s')
  /-- The channel is bridged to a client. -/
  | bridged (tag : Bytes) (cltEnc : Cipher) (hnone : s.native c = none)
      (hnative : s'.native c
        = some { tag := tag, given := cltEnc, cltEnc := cltEnc, first := s.nextTask })
      (hchan : (s.chan c).Same (s'.chan c)) (hlog : s'.log = s.log) (honly : Only c none s s')
  /-- A native request is created. -/
  | native (t : ℕ) (caller : Caller) (body : Bytes) (pc : SendPc)
      (hpc : s.coro t = .send c caller body pc) (hadmitting : pc.Admitting)
      (hleft : s'.coro t ≠ s.coro t) (hfree : (s'.chan c).sendLock = none)
      (hopen : (s.chan c).closed = false)
      (hchan : ((s.chan c).registerNative s.nextTask s.clock body s.debug).1.Same (s'.chan c))
      (hreq : s'.req s.nextTask = some (c, ⟨body, false,
        ((s.chan c).registerNative s.nextTask s.clock body s.debug).2⟩, .created))
      (hlog : s'.log c = s.log c ++ [.native s.clock body s.nextTask])
      (hnative : s'.native = s.native) (hnext : s'.nextTask = s.nextTask + 1)
      (honly : Only c (some s.nextTask) s s')
  /-- A replay is created. -/
  | replay (t : ℕ) (entry : ReplayPacket) (pc : SendPc)
      (hpc : s.coro t = .send c .recover entry.body pc) (hadmitting : pc.Admitting)
      (hleft : s'.coro t ≠ s.coro t) (hfree : (s'.chan c).sendLock = none)
      (hopen : (s.chan c).closed = false)
      (hfind : (s.chan c).findPacket entry.body = some entry) (hpending : entry.pending = none)
      (hdue : (s.chan c).ReplayDue entry s.clock)
      (hchan : ((s.chan c).registerReplay s.nextTask s.clock entry.body s.debug
        entry.sequence).Same (s'.chan c))
      (hreq : s'.req s.nextTask
        = some (c, ⟨entry.body, true, some entry.sequence⟩, .created))
      (hlog : s'.log c
        = s.log c ++ [.replay s.clock entry.sequence entry.body s.nextTask])
      (hnative : s'.native = s.native) (hnext : s'.nextTask = s.nextTask + 1)
      (honly : Only c (some s.nextTask) s s')
  /-- A request moves along. -/
  | advance (u : ℕ) (info : Request) (pc pc' : RequestPc) (hcalm : Calm pc pc')
      (hreq : s.req u = some (c, info, pc)) (hreq' : s'.req u = some (c, info, pc'))
      (hchan : (s.chan c).Same (s'.chan c)) (hlog : s'.log = s.log) (hnative : s'.native = s.native)
      (honly : Only c (some u) s s')
  /-- An upload completes. -/
  | uploaded (u : ℕ) (info : Request) (p : Post)
      (hreq : s.req u = some (c, info, .posting p)) (hnone : p.uploaded = none)
      (hreq' : s'.req u = some (c, info, .posting { p with uploaded := some s.clock }))
      (hchan : Channel.Same
        { s.chan c with sentSince := (s.chan c).sentSince.set u s.clock } (s'.chan c))
      (hlog : s'.log = s.log) (hnative : s'.native = s.native) (honly : Only c (some u) s s')
  /-- A response begins. -/
  | received (u : ℕ) (info : Request) (p p' : Post)
      (hreq : s.req u = some (c, info, .posting p)) (hnot : p.receiving = false)
      (hreq' : s'.req u = some (c, info, .posting p')) (hreceiving : p'.receiving = true)
      (huploaded : p'.uploaded = p.uploaded) (hcontent : p'.content = p.content)
      (hchan : Channel.Same
        { s.chan c with receivingTasks := insert u (s.chan c).receivingTasks } (s'.chan c))
      (hlog : s'.log = s.log) (hnative : s'.native = s.native) (honly : Only c (some u) s s')
  /-- `_post` ends, and the request settles. -/
  | ended (u : ℕ) (info : Request) (p : Post) (e : PostEnd)
      (receiving : Finset ℕ) (ch : Channel)
      (hreq : s.req u = some (c, info, .posting p))
      (he : ∀ reply, e = .returned reply → p.finish = .returned reply)
      (hreceiving : receiving = (s.chan c).receivingTasks.erase u ∨
        p.receiving = false ∧ receiving = (s.chan c).receivingTasks)
      (hbefore : Channel.Same { s.chan c with receivingTasks := receiving } ch)
      (hafter : match (ch.settle info.packet s.clock e).1.finishRequest u info.packet with
        | some (length, ch') =>
            ch'.Same (s'.chan c) ∧ s'.req u = some (c, info, .releasing length)
        | none => (ch.settle info.packet s.clock e).1.Same (s'.chan c) ∧
            s'.req u = some (c, info, .finished))
      (hlog : s'.log c = s.log c ++ (ch.settle info.packet s.clock e).2)
      (hnative : s'.native = s.native) (honly : Only c (some u) s s')
  /-- `close` begins. -/
  | closing (failure : Failure)
      (hchan : Channel.Same { (s.chan c).fail failure with closed := true } (s'.chan c))
      (hcode : ∀ code, failure ≠ .transport code)
      (hlog : s'.log c = s.log c ++ [.failed failure]) (hnative : s'.native = s.native)
      (honly : Only c none s s')
  /-- `close` finishes a request on behalf of its task. -/
  | swept (t : ℕ) (rest skipped : List ℕ) (task : ℕ)
      (rest' : List ℕ) (length : ℕ) (ch ch' : Channel) (hsweep : Sweeping s t c rest)
      (hrest : rest = skipped ++ task :: rest')
      (hskipped : ∀ u ∈ skipped, u ∉ (s.chan c).pending.keys) (hbefore : (s.chan c).Same ch)
      (hfinish : ch.finishRequest task none = some (length, ch')) (hchan : ch'.Same (s'.chan c))
      (hlog : s'.log = s.log) (hnative : s'.native = s.native) (honly : Only c none s s')
  /-- `close` ends. -/
  | cleared (t : ℕ) (rest : List ℕ) (hsweep : Sweeping s t c rest)
      (hskipped : ∀ u ∈ rest, u ∉ (s.chan c).pending.keys)
      (hchan : (s.chan c).clear.Same (s'.chan c))
      (hlog : s'.log = s.log) (hnative : s'.native = s.native) (honly : Only c none s s')
  /-- A request is retired to make room. -/
  | rotated (victim : ℕ) (packet : Option ℕ)
      (hchan : ((s.chan c).rotate victim packet).Same (s'.chan c))
      (hlog : s'.log = s.log) (hnative : s'.native = s.native) (honly : Only c none s s')
  /-- An item leaves the queue and nothing is written. -/
  | dropped (item : QueueItem) (queue : List QueueItem)
      (hqueue : (s.chan c).queue = item :: queue)
      (hdrop : ∀ body, item = .reply body → (s.chan c).closed = true ∨ ¬ Encodable body)
      (hchan : Channel.Same
        { s.chan c with
          queue := queue
          replyBytes := (s.chan c).replyBytes - item.size } (s'.chan c))
      (hlog : s'.log = s.log) (hnative : s'.native = s.native) (honly : Only c none s s')
  /-- A reply leaves the queue and is written. -/
  | wrote (t : ℕ) (body : Bytes) (queue : List QueueItem) (n : Native)
      (padding : Padding) (frame : Bytes) (hpc : s.coro t = .download c .dequeuing)
      (hqueue : (s.chan c).queue = .reply body :: queue)
      (hopen : (s.chan c).closed = false) (hn : s.native c = some n)
      (hframe : encodeReply body n.tag padding = .ok frame)
      (hchan : Channel.Same
        { s.chan c with
          queue := queue
          replyBytes := (s.chan c).replyBytes - body.length
          deliveringSince := some s.clock } (s'.chan c))
      (hlog : s'.log c = s.log c ++ [.wrote body frame])
      (hnative : s'.native c = some { n with
        wire := n.wire ++ n.cltEnc.peek E frame
        cltEnc := (n.cltEnc.update E frame).2 }) (honly : Only c none s s')
  /-- A write ends. -/
  | drained (t : ℕ) (hpc : s.coro t = .download c .draining)
      (hpc' : s'.coro t ≠ .download c .draining)
      (hchan : Channel.Same { s.chan c with deliveringSince := none } (s'.chan c))
      (hlog : s'.log = s.log) (hnative : s'.native = s.native) (honly : Only c none s s')
  /-- The frame of a transport error is written. -/
  | wroteError (t : ℕ) (tasks : List ℕ) (n : Native) (code : ℤ)
      (packed : Bytes) (padding : Padding) (frame : Bytes)
      (hpc : s.coro t = .bridge c tasks (.teardown false))
      (hpc' : s'.coro t = .bridge c tasks .draining)
      (hcode : (s.chan c).transportError = some code) (hpacked : leIntBytes 4 code = some packed)
      (hn : s.native c = some n) (hframe : encodeReply packed n.tag padding = .ok frame)
      (hchan : (s.chan c).Same (s'.chan c))
      (hlog : s'.log c = s.log c ++ [.wroteError code frame])
      (hnative : s'.native c = some { n with
        wire := n.wire ++ n.cltEnc.peek E frame
        cltEnc := (n.cltEnc.update E frame).2 }) (honly : Only c none s s')

/-- The kinds of steps. -/
inductive Move (E : AesKeystream) (s s' : Sys) : Prop
  /-- Locks, waits, and coroutines that are no requests. -/
  | quiet (h : Quiet s s')
  | on (c : ℕ) (h : MoveOn E c s s')

/-! ## The view of one channel -/

/-- Nothing happens to the channel `c` or to its requests. -/
structure Stays (c : ℕ) (s s' : Sys) : Prop where
  chan : (s.chan c).Same (s'.chan c)
  log : s'.log c = s.log c
  native : s'.native c = s.native c
  req : ∀ u info pc, s'.req u = some (c, info, pc) ↔ s.req u = some (c, info, pc)

lemma Quiet.stays {s s' : Sys} (h : Quiet s s') (c : ℕ) : Stays c s s' :=
  ⟨h.chan c, by rw [h.log], by rw [h.native], fun u _ _ => by rw [h.req u]⟩

/-- A step that touches no request is nothing to the other channels. -/
lemma Only.stays_none {c c' : ℕ} {s s' : Sys} (h : Only c none s s') (hne : c' ≠ c) :
    Stays c' s s' :=
  ⟨h.chan c' hne, h.log c' hne, h.native c' hne, fun u _ _ => by rw [h.req u (by simp)]⟩

/-- Nor is one that touches a request of its own channel. -/
lemma Only.stays_some {c c' u : ℕ} {s s' : Sys} {r : Request × RequestPc}
    (h : Only c (some u) s s') (hne : c' ≠ c)
    (hreq : ∀ info pc, s.req u ≠ some (c', info, pc)) (hreq' : s'.req u = some (c, r)) :
    Stays c' s s' := by
  refine ⟨h.chan c' hne, h.log c' hne, h.native c' hne, fun v info pc => ?_⟩
  by_cases hv : v = u
  · subst hv
    refine iff_of_false ?_ (hreq info pc)
    rw [hreq']
    simpa using fun heq => absurd heq.symm hne
  · rw [h.req v (by simpa using hv)]

end TgWsProxy
