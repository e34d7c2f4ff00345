import TgWsProxy.H2.Lane.Backlog
import TgWsProxy.H2.Lane.Packets

/-!
# What is sent again

A replay resends authenticated ciphertext.  Whether it may is decided when the recovery loop looks
and again when `_send` has its reservation; here is what holds of it at that moment, from the
history of the channel.

* `replaysOf`, `repliesTo`, `lastKey` — what a history says of a packet, and of the client's key.
* `Logged` — what the entries of `replay_history` have to do with it.
* `Replayable` — what holds of a packet, and of the channel, when it is sent again.
* **`replay_is_safe`** — every replay of every run is of such a packet, and they are few.
-/

namespace TgWsProxy

open Wire

/-! ## Histories -/

namespace Mark

/-- The mark tells of a replay of the packet. -/
def IsReplayOf (q : ℕ) : Mark → Bool
  | replay _ q' _ _ => q' = q
  | _ => false

/-- The mark tells of a reply, not empty, to a request that carried the packet. -/
def IsReplyTo (q : ℕ) : Mark → Bool
  | reply packet _ => packet = some q
  | _ => false

/-- The auth key of a native packet that is encrypted. -/
def nativeKey : Mark → Option Bytes
  | native _ body _ => if body.take 8 = Channel.plainKey then none else some (body.take 8)
  | _ => none

end Mark

def replaysOf (log : List Mark) (q : ℕ) : ℕ := log.countP (Mark.IsReplayOf q)

def repliesTo (log : List Mark) (q : ℕ) : ℕ := log.countP (Mark.IsReplyTo q)

/-- The auth key of the last native packet that was encrypted. -/
def lastKey (log : List Mark) : Option Bytes := (log.filterMap Mark.nativeKey).getLast?

section Histories

variable {log marks : List Mark} {q : ℕ}

lemma isReplayOf_of_not_creates {m : Mark} (h : ¬ m.Creates) : m.IsReplayOf q = false := by
  cases m with
  | replay time q' body task => exact absurd trivial h
  | _ => rfl

lemma nativeKey_of_not_creates {m : Mark} (h : ¬ m.Creates) : m.nativeKey = none := by
  cases m with
  | native time body task => exact absurd trivial h
  | _ => rfl

lemma replaysOf_silent (h : ∀ m ∈ marks, ¬ m.Creates) :
    replaysOf (log ++ marks) q = replaysOf log q := by
  have hnone : marks.countP (Mark.IsReplayOf q) = 0 := by
    refine List.countP_eq_zero.mpr fun m hm => ?_
    rw [isReplayOf_of_not_creates (h m hm)]
    exact Bool.false_ne_true
  rw [replaysOf, List.countP_append, hnone, Nat.add_zero, replaysOf]

lemma lastKey_silent (h : ∀ m ∈ marks, ¬ m.Creates) : lastKey (log ++ marks) = lastKey log := by
  have hnone : marks.filterMap Mark.nativeKey = [] :=
    List.filterMap_eq_nil_iff.mpr fun m hm => nativeKey_of_not_creates (h m hm)
  rw [lastKey, List.filterMap_append, hnone, List.append_nil, lastKey]

lemma repliesTo_le : repliesTo log q ≤ repliesTo (log ++ marks) q := by
  rw [repliesTo, repliesTo, List.countP_append]
  exact Nat.le_add_right _ _

lemma repliesTo_lt {reply : Bytes} (h : Mark.reply (some q) reply ∈ marks) :
    repliesTo log q < repliesTo (log ++ marks) q := by
  rw [repliesTo, repliesTo, List.countP_append]
  have hpos : 0 < marks.countP (Mark.IsReplyTo q) :=
    List.countP_pos_iff.mpr ⟨_, h, decide_eq_true rfl⟩
  omega

lemma replaysOf_eq_zero (h : ∀ time body task, Mark.replay time q body task ∉ log) :
    replaysOf log q = 0 := by
  refine List.countP_eq_zero.mpr fun m hm => ?_
  cases m with
  | replay time q' body task =>
      intro heq
      obtain rfl : q' = q := of_decide_eq_true heq
      exact h time body task hm
  | _ => exact Bool.false_ne_true

end Histories

/-! ## Entries and their history -/

/-- What the entries of a channel's `replay_history` have to do with what has happened. -/
structure Logged (s : Sys) (c : ℕ) : Prop where
  sent : ∀ entry ∈ (s.chan c).replayHistory,
    ∃ task, Mark.native entry.sentAt entry.body task ∈ s.log c
  past : ∀ time q body task, Mark.replay time q body task ∈ s.log c →
    0 < time ∧ time ≤ s.clock ∧ q ≤ (s.chan c).requests
  recent : ∀ entry ∈ (s.chan c).replayHistory, ∀ time body task,
    Mark.replay time entry.sequence body task ∈ s.log c → time ≤ entry.lastAttemptAt
  budget : ∀ entry ∈ (s.chan c).replayHistory, replaysOf (s.log c) entry.sequence ≤
    replayMaxAttempts * repliesTo (s.log c) entry.sequence + entry.attempts
  total : ∀ q, replaysOf (s.log c) q ≤ replayMaxAttempts * (1 + repliesTo (s.log c) q)
  key : (s.chan c).replayKey = lastKey (s.log c)

/-- The monotonic clock stays positive. -/
lemma Reaches.clock_pos {E : AesKeystream} {s : Sys} (h : Reaches E s) : 0 < s.clock := by
  refine h.invariant (P := fun s => 0 < s.clock) ?_ ?_
  · rintro s ⟨clock, debug, hpos, rfl⟩
    exact hpos
  · intro s e s' hr hpos _ hs
    exact hpos.trans_le (Reaches.turn hr hs).clock

/-- The key is that of the packet that was sent last, unless that one is in the clear. -/
lemma Channel.registerNative_key (ch : Channel) (task : ℕ) (now : ℤ) (body : Bytes)
    (debug : Bool) : (ch.registerNative task now body debug).1.replayKey =
      if body.take 8 = plainKey then ch.replayKey else some (body.take 8) := by
  obtain ⟨first, second, third, packet, -, hsame, -, hcases, -, hkey, -, -, hmatch⟩ :=
    registerNative_parts ch task now body debug
  have hthird : (ch.registerNative task now body debug).1.replayKey = third.replayKey := by
    rw [hmatch]
    cases packet <;> rfl
  rw [hthird, hkey]
  cases hcases with
  | plain hplain => rw [if_pos hplain, hsame]
  | large kept hnot => rw [if_neg hnot]
  | again kept entry hnot => rw [if_neg hnot]
  | fresh kept hnot => rw [if_neg hnot]

section Steps

variable {E : AesKeystream} {s s' : Sys} {e : Event} {c : ℕ}

/-- An entry that has aged has kept to its budget. -/
lemma budget_of_ages {v : Option ℕ} {marks log log' : List Mark} {entry entry' : ReplayPacket}
    (hages : entry.Ages v marks entry') (hlog : log' = log ++ marks)
    (hmarks : ∀ m ∈ marks, ¬ m.Creates) (hattempts : entry.attempts ≤ replayMaxAttempts)
    (hbudget : replaysOf log entry.sequence ≤
      replayMaxAttempts * repliesTo log entry.sequence + entry.attempts) :
    replaysOf log' entry'.sequence ≤
      replayMaxAttempts * repliesTo log' entry'.sequence + entry'.attempts := by
  rw [hages.sequence, hlog, replaysOf_silent hmarks]
  rcases hages.attempts with heq | ⟨hzero, reply, -, hreply⟩
  · rw [heq]
    exact hbudget.trans (Nat.add_le_add_right (Nat.mul_le_mul_left _ repliesTo_le) _)
  · rw [hzero, Nat.add_zero]
    calc replaysOf log entry.sequence
        ≤ replayMaxAttempts * repliesTo log entry.sequence + entry.attempts := hbudget
      _ ≤ replayMaxAttempts * repliesTo log entry.sequence + replayMaxAttempts :=
          Nat.add_le_add_left hattempts _
      _ = replayMaxAttempts * (repliesTo log entry.sequence + 1) := rfl
      _ ≤ replayMaxAttempts * repliesTo (log ++ marks) entry.sequence :=
          Nat.mul_le_mul_left _ (repliesTo_lt hreply)

/-- A step between sends. -/
lemma Logged.ages (h : Logged s c) (hcarries : Carries s c) {v : Option ℕ} {marks : List Mark}
    (hclock : s.clock ≤ s'.clock) (hlog : s'.log c = s.log c ++ marks)
    (hmarks : ∀ m ∈ marks, ¬ m.Creates) (hages : (s.chan c).Ages v marks (s'.chan c)) :
    Logged s' c := by
  have hreplay : ∀ {time q body task}, Mark.replay time q body task ∈ s'.log c →
      Mark.replay time q body task ∈ s.log c := by
    intro time q body task hmem
    rw [hlog] at hmem
    exact (List.mem_append.mp hmem).resolve_right fun hnew => hmarks _ hnew trivial
  refine ⟨?_, ?_, ?_, ?_, ?_, ?_⟩
  · intro entry' hentry'
    obtain ⟨entry, hentry, haged⟩ := hages.entries entry' hentry'
    obtain ⟨task, hmem⟩ := h.sent entry hentry
    rw [haged.sentAt, haged.body, hlog]
    exact ⟨task, List.mem_append_left _ hmem⟩
  · intro time q body task hmem
    obtain ⟨hpos, hle, hq⟩ := h.past time q body task (hreplay hmem)
    rw [hages.requests]
    exact ⟨hpos, hle.trans hclock, hq⟩
  · intro entry' hentry' time body task hmem
    obtain ⟨entry, hentry, haged⟩ := hages.entries entry' hentry'
    rw [haged.sequence] at hmem
    rw [haged.lastAttemptAt]
    exact h.recent entry hentry time body task (hreplay hmem)
  · intro entry' hentry'
    obtain ⟨entry, hentry, haged⟩ := hages.entries entry' hentry'
    exact budget_of_ages haged hlog hmarks (hcarries.budget entry hentry) (h.budget entry hentry)
  · intro q
    rw [hlog, replaysOf_silent hmarks]
    exact (h.total q).trans (Nat.mul_le_mul_left _ (Nat.add_le_add_left repliesTo_le 1))
  · rw [hages.key, h.key, hlog, lastKey_silent hmarks]

/-- A native packet is sent. -/
lemma Logged.native (h : Logged s c) (hcarries : Carries s c) (hordered : (s.chan c).Ordered)
    {body : Bytes} (hclock : s.clock ≤ s'.clock)
    (hchan : ((s.chan c).registerNative s.nextTask s.clock body s.debug).1.Same (s'.chan c))
    (hlog : s'.log c = s.log c ++ [.native s.clock body s.nextTask]) : Logged s' c := by
  obtain ⟨hentries, -, hrequests⟩ :=
    Channel.registerNative_entries hordered s.nextTask s.clock body s.debug
  rw [← hchan.replayHistory] at hentries
  rw [← hchan.requests] at hrequests
  have hreplay : ∀ {time q body' task}, Mark.replay time q body' task ∈ s'.log c →
      Mark.replay time q body' task ∈ s.log c := by
    intro time q body' task hmem
    rw [hlog] at hmem
    refine (List.mem_append.mp hmem).resolve_right fun hnew => ?_
    cases List.mem_singleton.mp hnew
  have hreplays : ∀ q, replaysOf (s'.log c) q = replaysOf (s.log c) q := by
    intro q
    rw [hlog, replaysOf, List.countP_append]
    rfl
  have hreplies : ∀ q, repliesTo (s'.log c) q = repliesTo (s.log c) q := by
    intro q
    rw [hlog, repliesTo, List.countP_append]
    rfl
  have hkeep : ∀ {time body' task}, Mark.native time body' task ∈ s.log c →
      Mark.native time body' task ∈ s'.log c := by
    intro time body' task hmem
    rw [hlog]
    exact List.mem_append_left _ hmem
  refine ⟨?_, ?_, ?_, ?_, ?_, ?_⟩
  · intro entry' hentry'
    rcases hentries entry' hentry' with ⟨entry, hentry, haged⟩ | hfresh
    · obtain ⟨task, hmem⟩ := h.sent entry hentry
      rw [haged.sentAt, haged.body]
      exact ⟨task, hkeep hmem⟩
    · rw [hfresh.sentAt, hfresh.body, hlog]
      exact ⟨s.nextTask, List.mem_append_right _ (List.mem_singleton_self _)⟩
  · intro time q body' task hmem
    obtain ⟨hpos, hle, hq⟩ := h.past time q body' task (hreplay hmem)
    exact ⟨hpos, hle.trans hclock, by omega⟩
  · intro entry' hentry' time body' task hmem
    rcases hentries entry' hentry' with ⟨entry, hentry, haged⟩ | hfresh
    · rw [haged.sequence] at hmem
      rw [haged.lastAttemptAt]
      exact h.recent entry hentry time body' task (hreplay hmem)
    · obtain ⟨-, -, hq⟩ := h.past time _ body' task (hreplay hmem)
      rw [hfresh.sequence] at hq
      omega
  · intro entry' hentry'
    rcases hentries entry' hentry' with ⟨entry, hentry, haged⟩ | hfresh
    · have hbudget := budget_of_ages haged (List.append_nil (s.log c)).symm nofun
        (hcarries.budget entry hentry) (h.budget entry hentry)
      rw [hreplays, hreplies]
      exact hbudget
    · have hnone : replaysOf (s.log c) entry'.sequence = 0 := by
        refine replaysOf_eq_zero fun time body' task hmem => ?_
        obtain ⟨-, -, hq⟩ := h.past time _ body' task hmem
        rw [hfresh.sequence] at hq
        omega
      rw [hreplays, hnone]
      exact Nat.zero_le _
  · intro q
    rw [hreplays, hreplies]
    exact h.total q
  · rw [hchan.replayKey, Channel.registerNative_key, hlog, lastKey, List.filterMap_append]
    have hlast : [Mark.native s.clock body s.nextTask].filterMap Mark.nativeKey =
        (if body.take 8 = Channel.plainKey then none else some (body.take 8)).toList := by
      rw [List.filterMap_cons, Mark.nativeKey]
      split_ifs <;> rfl
    rw [hlast]
    split_ifs
    · rw [Option.toList_none, List.append_nil, h.key, lastKey]
    · rw [Option.toList_some, List.getLast?_concat]

/-- A packet is sent again. -/
lemma Logged.replay (h : Logged s c) (hordered : (s.chan c).Ordered) (hpos : 0 < s.clock)
    (hclock : s.clock ≤ s'.clock) {packet : ReplayPacket}
    (hmem : packet ∈ (s.chan c).replayHistory) (hattempts : packet.attempts < replayMaxAttempts)
    (hchan : ((s.chan c).registerReplay s.nextTask s.clock packet.body s.debug
      packet.sequence).Same (s'.chan c))
    (hlog : s'.log c = s.log c ++ [.replay s.clock packet.sequence packet.body s.nextTask]) :
    Logged s' c := by
  have hrequests : (s'.chan c).requests = (s.chan c).requests + 1 := hchan.requests
  have hreplies : ∀ q, repliesTo (s'.log c) q = repliesTo (s.log c) q := by
    intro q
    rw [hlog, repliesTo, List.countP_append]
    rfl
  have hself : replaysOf (s'.log c) packet.sequence =
      replaysOf (s.log c) packet.sequence + 1 := by
    rw [hlog, replaysOf, List.countP_append, List.countP_singleton]
    simp [Mark.IsReplayOf, replaysOf]
  have hother : ∀ q, q ≠ packet.sequence → replaysOf (s'.log c) q = replaysOf (s.log c) q := by
    intro q hne
    rw [hlog, replaysOf, List.countP_append, List.countP_singleton]
    simp [Mark.IsReplayOf, replaysOf, hne.symm]
  have hreplay : ∀ {time q body task}, Mark.replay time q body task ∈ s'.log c →
      Mark.replay time q body task ∈ s.log c ∨ time = s.clock ∧ q = packet.sequence := by
    intro time q body task hmark
    rw [hlog] at hmark
    refine (List.mem_append.mp hmark).imp_right fun hnew => ?_
    obtain ⟨rfl, rfl, -⟩ := Mark.replay.inj (List.mem_singleton.mp hnew)
    exact ⟨rfl, rfl⟩
  -- the packet notes the attempt, and the others stay
  have hentries : ∀ entry' ∈ (s'.chan c).replayHistory,
      entry' ∈ (s.chan c).replayHistory ∧ entry'.sequence ≠ packet.sequence ∨
      entry'.sentAt = packet.sentAt ∧ entry'.body = packet.body ∧
        entry'.sequence = packet.sequence ∧ entry'.attempts = packet.attempts + 1 ∧
        entry'.lastAttemptAt = s.clock := by
    intro entry' hentry'
    rw [hchan.replayHistory] at hentry'
    obtain ⟨entry, hentry, ⟨rfl, hne⟩ | ⟨rfl, heq⟩⟩ := Channel.mem_updatePacket hentry'
    · exact .inl ⟨hentry, hne⟩
    · obtain rfl := hordered.unique hentry hmem heq
      exact .inr ⟨rfl, rfl, rfl, rfl, rfl⟩
  have hbudget : replaysOf (s'.log c) packet.sequence ≤
      replayMaxAttempts * repliesTo (s'.log c) packet.sequence + (packet.attempts + 1) := by
    have hle := h.budget packet hmem
    rw [hself, hreplies]
    omega
  refine ⟨?_, ?_, ?_, ?_, ?_, ?_⟩
  · intro entry' hentry'
    have hkeep : ∀ {time body}, (∃ task, Mark.native time body task ∈ s.log c) →
        ∃ task, Mark.native time body task ∈ s'.log c := by
      rintro time body ⟨task, hmark⟩
      rw [hlog]
      exact ⟨task, List.mem_append_left _ hmark⟩
    rcases hentries entry' hentry' with ⟨hold, -⟩ | ⟨hsent, hbody, -⟩
    · exact hkeep (h.sent entry' hold)
    · rw [hsent, hbody]
      exact hkeep (h.sent packet hmem)
  · intro time q body task hmark
    rcases hreplay hmark with hold | ⟨rfl, rfl⟩
    · obtain ⟨hlt, hle, hq⟩ := h.past time q body task hold
      exact ⟨hlt, hle.trans hclock, by omega⟩
    · have hnumber := hordered.numbered _ (List.mem_map_of_mem hmem)
      exact ⟨hpos, hclock, by omega⟩
  · intro entry' hentry' time body task hmark
    rcases hentries entry' hentry' with ⟨hold, hne⟩ | ⟨-, -, hsequence, -, hlast⟩
    · rcases hreplay hmark with hmark | ⟨-, heq⟩
      · exact h.recent entry' hold time body task hmark
      · exact absurd heq hne
    · rw [hlast]
      rcases hreplay hmark with hmark | ⟨rfl, -⟩
      · exact (h.past time _ body task hmark).2.1
      · exact le_rfl
  · intro entry' hentry'
    rcases hentries entry' hentry' with ⟨hold, hne⟩ | ⟨-, -, hsequence, hcount, -⟩
    · rw [hother _ hne, hreplies]
      exact h.budget entry' hold
    · rw [hsequence, hcount]
      exact hbudget
  · intro q
    by_cases hq : q = packet.sequence
    · subst hq
      refine hbudget.trans ?_
      rw [Nat.mul_add, Nat.mul_one, Nat.add_comm]
      exact Nat.add_le_add_right hattempts _
    · rw [hother q hq, hreplies]
      exact h.total q
  · have hkey : lastKey (s'.log c) = lastKey (s.log c) := by
      rw [hlog, lastKey, List.filterMap_append]
      exact congrArg List.getLast? (List.append_nil _)
    rw [hkey, ← h.key]
    exact hchan.replayKey

theorem Reaches.logged (h : Reaches E s) (c : ℕ) : Logged s c := by
  refine h.invariant (P := fun s => ∀ c, Logged s c) ?_ ?_ c
  · rintro s ⟨clock, debug, -, rfl⟩ c
    exact ⟨nofun, nofun, nofun, nofun, fun _ => Nat.zero_le _, rfl⟩
  · intro s e s' hr hall _ hs c
    have hclock := (Reaches.turn hr hs).clock
    have hordered := (Reaches.recorded hr c).remembered.toOrdered
    cases Reaches.packing hr hs c with
    | ages v marks hlog hmarks hages =>
        exact (hall c).ages (Reaches.carries hr c) hclock hlog hmarks hages
    | native body hopen hchan hreq hlog =>
        exact (hall c).native (Reaches.carries hr c) hordered hclock hchan hlog
    | replay packet hopen hfind hpending hdue hchan hreq hlog =>
        obtain ⟨-, hattempts, -⟩ := hdue.spec
        exact (hall c).replay hordered (Reaches.clock_pos hr) hclock
          (List.mem_of_find?_eq_some hfind)
          (hattempts.trans_le (Channel.replayLimit_le _ _)) hchan hlog

end Steps

/-! ## What is sent again -/

/-- What holds of the packet of a new replay, and of its channel. -/
structure Replayable (s : Sys) (c : ℕ) (entry : ReplayPacket) : Prop where
  kept : entry ∈ (s.chan c).replayHistory
  sent : ∃ task, Mark.native entry.sentAt entry.body task ∈ s.log c
  encrypted : entry.body.take 8 ≠ Channel.plainKey
  key : lastKey (s.log c) = some (entry.body.take 8)
  age : 0 ≤ s.clock - entry.sentAt ∧ s.clock - entry.sentAt ≤ replayMaxAge
  /-- Of the requests that carried it no replay may still be answered, and no answer has begun. -/
  unanswered : ∀ u info pc, s.req u = some (c, info, pc) → info.packet = some entry.sequence →
    (info.replay = true → ¬ pc.Live) ∧ ∀ p, pc = .posting p → p.receiving = false
  undelivered : (s.chan c).queue = [] ∧ ∀ t, s.coro t ≠ .download c .draining
  rested : ∀ time body task, Mark.replay time entry.sequence body task ∈ s.log c →
    replayRetrySeconds ≤ s.clock - time

section Replayable

variable {E : AesKeystream} {s s' : Sys} {c : ℕ}

/-- A packet that is due is one that may be sent again. -/
lemma Reaches.replayable (h : Reaches E s) (hopen : (s.chan c).closed = false)
    {packet : ReplayPacket} (hmem : packet ∈ (s.chan c).replayHistory)
    (hpending : packet.pending = none) (hdue : (s.chan c).ReplayDue packet s.clock) :
    Replayable s c packet := by
  obtain ⟨hage, -, hidle, hreceiving, -, hrest⟩ := hdue.spec
  have hordered := (h.recorded c).remembered.toOrdered
  have hkey := hordered.keyed _ (List.mem_map_of_mem hmem)
  refine ⟨hmem, (h.logged c).sent packet hmem, hordered.encrypted _ hkey, ?_, hage, ?_,
    h.nothing_undelivered hopen hidle, ?_⟩
  · rw [← (h.logged c).key]
    exact hkey
  · intro u info pc hreq hpacket
    have hprobe : info.replay = true → ¬ pc.Live := by
      intro hreplay hlive
      have hpending' := (h.carries c).probe u info pc hreq hlive hreplay packet hmem hpacket
      rw [hpending] at hpending'
      cases hpending'
    refine ⟨hprobe, ?_⟩
    rintro p rfl
    have horiginal : info.replay = false :=
      Bool.eq_false_iff.mpr fun hreplay => hprobe hreplay trivial
    have hmember := (h.carries c).original u info _ hreq trivial horiginal packet hmem hpacket
    refine Bool.eq_false_iff.mpr fun hrec => ?_
    have hboth := Finset.mem_inter.mpr ⟨hmember, (h.waits c).received u info p hreq hrec⟩
    rw [hreceiving] at hboth
    exact Finset.notMem_empty u hboth
  · intro time body task hmark
    have hrecent := (h.logged c).recent packet hmem time body task hmark
    have hpos := ((h.logged c).past time _ body task hmark).1
    have hlast := hrest (.inl (hpos.trans_le hrecent))
    omega

end Replayable

/-- **Replay safety.**  In every run, a replay that is created carries, octet for octet, a packet
that may be sent again, and that packet is in the history with the new task; and of every packet
the attempts counted stay within their bound, and so do its replays. -/
theorem replay_is_safe {E : AesKeystream} {s : Sys} (h : Reaches E s) (c : ℕ) :
    (∀ e s' u info pc, step E e s = some s' → s.req u = none →
      s'.req u = some (c, info, pc) → info.replay = true →
      ∃ entry, Replayable s c entry ∧ info.body = entry.body ∧
        info.packet = some entry.sequence ∧
        ∃ entry' ∈ (s'.chan c).replayHistory, entry'.sequence = entry.sequence ∧
          entry'.body = info.body ∧ entry'.sentAt = entry.sentAt ∧ entry'.pending = some u) ∧
    (∀ entry ∈ (s.chan c).replayHistory, entry.attempts ≤ replayMaxAttempts) ∧
    ∀ q, replaysOf (s.log c) q ≤ replayMaxAttempts * (1 + repliesTo (s.log c) q) := by
  refine ⟨?_, (h.carries c).budget, (h.logged c).total⟩
  intro e s' u info pc hs hnone hreq' hreplay
  have hnew : ∀ {info₀}, s'.req s.nextTask = some (c, info₀, .created) →
      Only c (some s.nextTask) s s' → u = s.nextTask ∧ info = info₀ := by
    intro info₀ hreq honly
    by_cases hu : u = s.nextTask
    · subst hu
      rw [hreq] at hreq'
      cases hreq'
      exact ⟨rfl, rfl⟩
    · have hsame := honly.req u (by simpa using hu)
      rw [hreq', hnone] at hsame
      cases hsame
  cases h.packing hs c with
  | ages v marks hlog hmarks hages hreq =>
      obtain ⟨pc₀, hold, -⟩ := hreq u info pc hreq'
      rw [hnone] at hold
      cases hold
  | native body hopen hchan hreq hlog honly =>
      obtain ⟨-, rfl⟩ := hnew hreq honly
      cases hreplay
  | replay packet hopen hfind hpending hdue hchan hreq hlog honly =>
      obtain ⟨rfl, rfl⟩ := hnew hreq honly
      have hmem := List.mem_of_find?_eq_some hfind
      refine ⟨packet, h.replayable hopen hmem hpending hdue, rfl, rfl, ?_⟩
      rw [hchan.replayHistory]
      exact ⟨_, List.mem_map.mpr ⟨packet, hmem, if_pos rfl⟩, rfl, rfl, rfl, rfl⟩

/-- A packet is uploaded, not answered for three seconds, and about to be sent again. -/
def overdue : List Event :=
  [Event.openChannel, .bridge 0 protoTagSecure ⟨[], [], 0⟩,
      .run 0 (.packet (List.replicate 24 1))] ++
    List.replicate 7 (Event.run 0 .resume) ++
    [Event.run 4 .resume, .run 4 .uploaded, .tick 3000000000, .run 2 .resume,
      .run 2 (.channels [0]), .run 2 .resume, .run 2 .resume]

/-- Its replay is the fifth task. -/
theorem replay_is_safe_sample :
    ∃ (E : AesKeystream) (s s' : Sys) (entry : ReplayPacket), Reaches E s ∧
      step E (.run 2 .resume) s = some s' ∧ Replayable s 0 entry ∧
      entry.body = List.replicate 24 1 := by
  let E : AesKeystream := fun _ _ _ => 0
  have hrun : (exec (step E) overdue (Sys.start 1 false)).map (fun s => (s.coro 5,
      (step E (.run 2 .resume) s).map fun s' => s'.coro 5)) =
      some (.done, some (.request 0 ⟨List.replicate 24 1, true, some 1⟩ .created)) := by
    decide +kernel
  obtain ⟨s, hs, heq⟩ := Option.map_eq_some_iff.mp hrun
  obtain ⟨hdone, heq⟩ := Prod.mk.inj heq
  obtain ⟨s', hs', hcoro⟩ := Option.map_eq_some_iff.mp heq
  have hreach : Reaches E s := reachable_of_exec (.start ⟨1, false, one_pos, rfl⟩) hs
  have hnone : s.req 5 = none := by
    rw [Sys.req, hdone]
    rfl
  obtain ⟨entry, hsafe, hbody, -⟩ := (replay_is_safe hreach 0).1 (.run 2 .resume) s' 5 _ _ hs' hnone
    (Sys.req_of_coro hcoro) rfl
  exact ⟨E, s, s', entry, hreach, hs', hsafe, hbody.symm⟩

end TgWsProxy
