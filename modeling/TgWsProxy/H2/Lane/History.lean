import TgWsProxy.H2.Lane.Runs
import Mathlib.Algebra.Order.BigOperators.Group.List

/-!
# The replay history

The packets that a channel keeps for a replay, over a whole run.

* `Trims` — the loop of `_trim_history`, turn by turn, with its local count of bytes.
* `Remembered` — the invariant: a short list of different packets of one key, in order.
* `Thins` — what all steps but a native send do to the history.
* **`replay_history_kept`** — the invariant holds along every run, and a send keeps its own packet.
-/

namespace TgWsProxy

open Wire

namespace Channel

variable {now : ℤ} {history : List ReplayPacket}

/-! ## Trimming -/

/-- `sum(len(entry.body) for entry in history)`. -/
def retainedBytes (history : List ReplayPacket) : ℕ := (history.map (·.body.length)).sum

/-- The loop of `_trim_history(now)` starts a turn with `history` and `retained_bytes`, and ends `n`
turns later with `rest`. -/
inductive Trims (now : ℤ) : List ReplayPacket → ℤ → ℕ → List ReplayPacket → Prop
  | stop {history : List ReplayPacket} {retained : ℤ}
      (hlen : history.length ≤ replayHistoryPackets) (hbytes : retained ≤ replayHistoryBytes) :
      Trims now history retained 0 history
  | turn {history rest : List ReplayPacket} {retained : ℤ} {n : ℕ} (victim : ReplayPacket)
      (hover : replayHistoryPackets < history.length ∨ replayHistoryBytes < retained)
      (hvictim : trimVictim now history = some victim)
      (hrest : Trims now (history.erase victim) (retained - victim.body.length) n rest) :
      Trims now history retained (n + 1) rest

/-- A victim that is worth sparing is taken from a list of such packets only. -/
lemma spared_of_trimVictim {victim : ReplayPacket} (h : trimVictim now history = some victim)
    (hspared : Spared now victim) : ∀ entry ∈ history, Spared now entry := by
  rcases Option.or_eq_some_iff.mp h with h | ⟨h, -⟩
  · have hnot := List.find?_some h
    simp only [decide_eq_true_eq] at hnot
    exact absurd hspared hnot
  · intro entry hentry
    simpa using List.find?_eq_none.mp h entry hentry

lemma retainedBytes_erase {victim : ReplayPacket} (h : victim ∈ history) :
    victim.body.length + retainedBytes (history.erase victim) = retainedBytes history :=
  List.sum_map_erase (fun entry : ReplayPacket => entry.body.length) h

lemma eq_nil_of_trimVictim (h : trimVictim now history = none) : history = [] := by
  rw [trimVictim, Option.or_eq_none_iff] at h
  exact List.head?_eq_none_iff.mp h.2

lemma not_overfull_nil : ¬ Overfull [] := by decide

/-- **The loop ends.**  Each turn takes a packet away. -/
lemma trims_trimList (now : ℤ) (history : List ReplayPacket) :
    ∃ n ≤ history.length, Trims now history (retainedBytes history) n (trimList now history) := by
  induction history using trimList.induct now with
  | case1 history hover victim hvictim ih =>
      obtain ⟨n, hn, htrims⟩ := ih
      have hmem := mem_of_trimVictim hvictim
      have hlen := List.length_erase_of_mem hmem
      have hpos := List.length_pos_of_mem hmem
      refine ⟨n + 1, by omega, ?_⟩
      rw [trimList, if_pos hover]
      split
      · rename_i victim' hvictim'
        obtain rfl := Option.some.inj (hvictim.symm.trans hvictim')
        refine .turn victim (hover.imp_right fun h => by exact_mod_cast h) hvictim ?_
        have hretained : (retainedBytes history : ℤ) - victim.body.length =
            retainedBytes (history.erase victim) := by
          have := retainedBytes_erase hmem
          omega
        rw [hretained]
        exact htrims
      · rename_i hnone
        rw [hvictim] at hnone
        cases hnone
  | case2 history hover hnone =>
      rw [eq_nil_of_trimVictim hnone] at hover
      exact absurd hover not_overfull_nil
  | case3 history hfits =>
      rw [trimList, if_neg hfits]
      simp only [Overfull, not_or, not_lt] at hfits
      exact ⟨0, Nat.zero_le _, .stop hfits.1 (by exact_mod_cast hfits.2)⟩

namespace Trims

variable {rest : List ReplayPacket} {retained : ℤ} {n : ℕ}

/-- What is left fits. -/
lemma not_overfull (h : Trims now history retained n rest)
    (hretained : retained = retainedBytes history) : ¬ Overfull rest := by
  induction h with
  | stop hlen hbytes =>
      subst hretained
      rintro (hover | hover)
      · omega
      · exact absurd hover (not_lt.mpr (by exact_mod_cast hbytes))
  | turn victim hover hvictim hrest ih =>
      refine ih ?_
      have := retainedBytes_erase (mem_of_trimVictim hvictim)
      omega

lemma sublist (h : Trims now history retained n rest) : rest.Sublist history := by
  induction h with
  | stop hlen hbytes => exact List.Sublist.refl _
  | turn victim hover hvictim hrest ih => exact ih.trans List.erase_sublist

/-- The last packet stays, while it is worth sparing and fits by itself. -/
lemma mem_last (h : Trims now history retained n rest) (front : List ReplayPacket)
    {last : ReplayPacket} (hhistory : history = front ++ [last])
    (hretained : retained = retainedBytes history) (hnew : last ∉ front)
    (hspared : Spared now last) (hfits : last.body.length ≤ replayHistoryBytes) : last ∈ rest := by
  induction h generalizing front with
  | stop hlen hbytes =>
      rw [hhistory]
      exact List.mem_append_right _ (List.mem_singleton_self last)
  | @turn history rest retained n victim hover hvictim hrest ih =>
      have hmem : victim ∈ front := by
        rcases List.mem_append.mp (hhistory ▸ mem_of_trimVictim hvictim) with hmem | hmem
        · exact hmem
        · -- the last packet is nobody's first choice, and the list holds more than it
          obtain rfl := List.mem_singleton.mp hmem
          rcases Option.or_eq_some_iff.mp hvictim with hfind | ⟨-, hhead⟩
          · have hnot := List.find?_some hfind
            simp only [decide_eq_true_eq] at hnot
            exact absurd hspared hnot
          · cases front with
            | nil =>
                subst hretained hhistory
                simp only [retainedBytes, List.nil_append, List.length_singleton, List.map_cons,
                  List.map_nil, List.sum_singleton] at hover
                unfold replayHistoryPackets at hover
                omega
            | cons first front =>
                rw [hhistory] at hhead
                obtain rfl := Option.some.inj hhead
                exact List.mem_cons_self
      refine ih (front.erase victim) ?_ ?_ fun h => hnew (List.mem_of_mem_erase h)
      · rw [hhistory, List.erase_append_left _ hmem]
      · have := retainedBytes_erase (mem_of_trimVictim hvictim)
        omega

end Trims

/-! ## What the history records for good -/

/-- The bodies and the numbers in the history. -/
def carried (ch : Channel) : List (Bytes × ℕ) :=
  ch.replayHistory.map fun entry => (entry.body, entry.sequence)

/-- The packets are different, of one key, and in the order of their numbers. -/
structure Ordered (ch : Channel) : Prop where
  distinct : (ch.carried.map Prod.fst).Nodup
  ascending : (ch.carried.map Prod.snd).Pairwise (· < ·)
  numbered : ∀ p ∈ ch.carried, p.2 ≤ ch.requests
  keyed : ∀ p ∈ ch.carried, ch.replayKey = some (p.1.take 8)
  encrypted : ∀ key, ch.replayKey = some key → key ≠ plainKey

/-- They also fit the history. -/
structure Remembered (ch : Channel) : Prop extends Ordered ch where
  fits : ¬ Overfull ch.replayHistory

lemma overfull_iff_carried (ch : Channel) : Overfull ch.replayHistory ↔
    replayHistoryPackets < ch.carried.length ∨
      replayHistoryBytes < (ch.carried.map (·.1.length)).sum := by
  simp [Overfull, carried, Function.comp_def]

/-- No packet comes in, and the key stays. -/
structure Thins (ch ch' : Channel) : Prop where
  carried : ch'.carried.Sublist ch.carried
  key : ch'.replayKey = ch.replayKey
  requests : ch.requests ≤ ch'.requests

namespace Thins

variable {a b d : Channel}

lemma trans (h : a.Thins b) (h' : b.Thins d) : a.Thins d :=
  ⟨h'.carried.trans h.carried, h'.key.trans h.key, h.requests.trans h'.requests⟩

lemma of_same (h : a.Same b) : a.Thins b :=
  ⟨by rw [Channel.carried, Channel.carried, h.replayHistory], h.replayKey, h.requests.ge⟩

lemma of_eq (hhistory : b.replayHistory = a.replayHistory) (hkey : b.replayKey = a.replayKey)
    (hrequests : b.requests = a.requests) : a.Thins b :=
  ⟨by rw [Channel.carried, Channel.carried, hhistory], hkey, hrequests.ge⟩

lemma updatePacket (a : Channel) (sequence : ℕ) {f : ReplayPacket → ReplayPacket}
    (hbody : ∀ entry, (f entry).body = entry.body)
    (hseq : ∀ entry, (f entry).sequence = entry.sequence) :
    a.Thins (a.updatePacket sequence f) := by
  refine ⟨?_, rfl, le_rfl⟩
  rw [Channel.carried, Channel.carried, Channel.updatePacket, List.map_map]
  refine (List.map_congr_left fun entry _ => ?_) ▸ List.Sublist.refl _
  show _ = ((if entry.sequence = sequence then f entry else entry).body,
    (if entry.sequence = sequence then f entry else entry).sequence)
  split_ifs with h
  · rw [hbody, hseq]
  · rfl

lemma fail (a : Channel) (failure : Failure) : a.Thins (a.fail failure) := by
  rw [Channel.fail.eq_def]
  split_ifs <;> exact of_eq rfl rfl rfl

lemma registerReplay (a : Channel) (task : ℕ) (now : ℤ) (body : Bytes) (debug : Bool)
    (sequence : ℕ) : a.Thins (a.registerReplay task now body debug sequence) := by
  refine .trans ⟨?_, ?_, ?_⟩ (updatePacket _ sequence ?_ ?_)
  · exact List.Sublist.refl _
  · rfl
  · exact Nat.le_succ _
  · intro entry
    rfl
  · intro entry
    rfl

lemma complete (a : Channel) (packet : Option ℕ) (reply : Bytes) (now : ℤ) :
    a.Thins (a.complete packet reply now).1 := by
  have hrecord : ∀ ch : Channel, ch.Thins (ch.recordReply packet reply) := by
    intro ch
    cases packet with
    | none => exact of_eq rfl rfl rfl
    | some sequence =>
        refine updatePacket ch sequence (fun entry => ?_) fun entry => ?_
        · split_ifs <;> rfl
        · split_ifs <;> rfl
  have hprogress : a.Thins { a with lastProgress := now } := of_eq rfl rfl rfl
  rw [Channel.complete_eq]
  dsimp only
  split_ifs
  · exact hprogress
  · exact hprogress
  · refine (hprogress.trans (hrecord _)).trans ?_
    dsimp only
    exact fail _ _
  · exact (hprogress.trans (hrecord _)).trans (of_eq rfl rfl rfl)

lemma settle (a : Channel) (packet : Option ℕ) (now : ℤ) (e : PostEnd) :
    a.Thins (a.settle packet now e).1 := by
  cases e with
  | returned reply => exact complete a packet reply now
  | raised failure => exact fail a failure
  | cancelled => exact of_eq rfl rfl rfl

lemma finishRequest {task length : ℕ} {packet : Option ℕ}
    (h : a.finishRequest task packet = some (length, b)) : a.Thins b := by
  rw [Channel.finishRequest] at h
  split at h
  · cases h
  · dsimp only at h
    split at h <;> cases h
    · refine .trans ?_ (updatePacket _ _ ?_ ?_)
      · exact of_eq rfl rfl rfl
      · intro entry
        rfl
      · intro entry
        rfl
    · exact of_eq rfl rfl rfl

lemma rotate (a : Channel) (task : ℕ) (packet : Option ℕ) : a.Thins (a.rotate task packet) := by
  cases packet with
  | none => exact of_eq rfl rfl rfl
  | some sequence =>
      refine .trans ?_ (updatePacket _ _ ?_ ?_)
      · exact of_eq rfl rfl rfl
      · intro entry
        rfl
      · intro entry
        rfl

lemma clear (a : Channel) : a.Thins a.clear :=
  ⟨List.nil_sublist _, rfl, le_rfl⟩

end Thins

lemma Ordered.thin {ch ch' : Channel} (h : ch.Ordered) (hthin : ch.Thins ch') : ch'.Ordered where
  distinct := h.distinct.sublist (hthin.carried.map _)
  ascending := h.ascending.sublist (hthin.carried.map _)
  numbered := fun p hp => (h.numbered p (hthin.carried.subset hp)).trans hthin.requests
  keyed := fun p hp => hthin.key.trans (h.keyed p (hthin.carried.subset hp))
  encrypted := fun key hkey => h.encrypted key (hthin.key ▸ hkey)

lemma Remembered.thin {ch ch' : Channel} (h : ch.Remembered) (hthin : ch.Thins ch') :
    ch'.Remembered := by
  refine ⟨h.toOrdered.thin hthin, fun hover => h.fits ?_⟩
  rw [overfull_iff_carried] at hover ⊢
  have hsum := (hthin.carried.map (·.1.length)).sum_le_sum fun _ _ => Nat.zero_le _
  exact hover.imp (fun hlen => hlen.trans_le hthin.carried.length_le) fun hlen => hlen.trans_le hsum

/-! ## A native send -/

/-- What `_remember_packet(body)` makes of the history, and what it returns. -/
inductive Remembers (ch : Channel) (body : Bytes) (now : ℤ) : Channel → Option ℕ → Prop
  /-- A handshake in the clear. -/
  | plain (h : body.take 8 = plainKey) : Remembers ch body now ch none
  /-- A packet that does not fit. -/
  | large (kept : List ReplayPacket) (hkey : body.take 8 ≠ plainKey)
      (hkept : kept = [] ∨ kept = ch.replayHistory ∧ ch.replayKey = some (body.take 8))
      (hlarge : replayHistoryBytes < body.length) :
      Remembers ch body now
        { ch with replayHistory := kept, replayKey := some (body.take 8) } none
  /-- A packet that is there already. -/
  | again (kept : List ReplayPacket) (entry : ReplayPacket) (hkey : body.take 8 ≠ plainKey)
      (hkept : kept = [] ∨ kept = ch.replayHistory ∧ ch.replayKey = some (body.take 8))
      (hentry : entry ∈ kept) (hbody : entry.body = body) :
      Remembers ch body now
        { ch with replayHistory := kept, replayKey := some (body.take 8) } (some entry.sequence)
  /-- A packet that is new. -/
  | fresh (kept : List ReplayPacket) (hkey : body.take 8 ≠ plainKey)
      (hkept : kept = [] ∨ kept = ch.replayHistory ∧ ch.replayKey = some (body.take 8))
      (hfits : body.length ≤ replayHistoryBytes) (hnew : ∀ entry ∈ kept, entry.body ≠ body) :
      Remembers ch body now
        { ch with
          replayHistory := kept ++ [{ sentAt := now, body := body, sequence := ch.requests }]
          replayKey := some (body.take 8) }
        (some ch.requests)

lemma remembers_rememberPacket (ch : Channel) (body : Bytes) (now : ℤ) :
    Remembers ch body now (ch.rememberPacket body now).1 (ch.rememberPacket body now).2 := by
  rw [rememberPacket]
  dsimp only
  by_cases hplain : body.take 8 = plainKey
  · rw [if_pos hplain]
    exact .plain hplain
  -- packets of another key are forgotten
  obtain ⟨kept, hkept, heq⟩ : ∃ kept,
      (kept = [] ∨ kept = ch.replayHistory ∧ ch.replayKey = some (body.take 8)) ∧
      (if ch.replayKey ≠ some (body.take 8) then
        { ch with replayHistory := [], replayKey := some (body.take 8) } else ch) =
        { ch with replayHistory := kept, replayKey := some (body.take 8) } := by
    by_cases hkey : ch.replayKey = some (body.take 8)
    · refine ⟨ch.replayHistory, .inr ⟨rfl, hkey⟩, ?_⟩
      rw [if_neg (not_not.mpr hkey), ← hkey]
    · exact ⟨[], .inl rfl, if_pos hkey⟩
  simp only [heq, if_neg hplain]
  by_cases hlarge : replayHistoryBytes < body.length
  · rw [if_pos hlarge]
    exact .large kept hplain hkept hlarge
  rw [if_neg hlarge]
  split
  · rename_i entry hfind
    have hbody := List.find?_some hfind
    simp only [decide_eq_true_eq] at hbody
    exact .again kept entry hplain hkept (List.mem_of_find?_eq_some hfind) hbody
  · rename_i hfind
    refine .fresh kept hplain hkept (not_lt.mp hlarge) fun entry hentry => ?_
    simpa using List.find?_eq_none.mp hfind entry hentry

/-- What a send has left of the history was in it. -/
lemma mem_of_kept {ch : Channel} {kept : List ReplayPacket} {key : Bytes}
    (h : kept = [] ∨ kept = ch.replayHistory ∧ ch.replayKey = some key) {entry : ReplayPacket}
    (hentry : entry ∈ kept) : entry ∈ ch.replayHistory := by
  rcases h with rfl | ⟨rfl, -⟩
  · cases hentry
  · exact hentry

/-- What remembering a packet leaves in the history, and what it adds. -/
lemma Remembers.entries {ch second : Channel} {body : Bytes} {now : ℤ} {packet : Option ℕ}
    (h : Remembers ch body now second packet) {entry : ReplayPacket}
    (hentry : entry ∈ second.replayHistory) :
    entry ∈ ch.replayHistory ∨
      entry = { sentAt := now, body := body, sequence := ch.requests } := by
  cases h with
  | plain hplain => exact Or.inl hentry
  | large kept hkey hkept hlarge => exact Or.inl (mem_of_kept hkept hentry)
  | again kept old hkey hkept hold hbody => exact Or.inl (mem_of_kept hkept hentry)
  | fresh kept hkey hkept hfits hnew =>
      rcases List.mem_append.mp hentry with hentry | hentry
      · exact Or.inl (mem_of_kept hkept hentry)
      · exact Or.inr (List.mem_singleton.mp hentry)

/-- What a send has left of the history fits. -/
lemma Remembered.kept {ch : Channel} (h : ch.Remembered) {kept : List ReplayPacket}
    {key : Bytes} (hkept : kept = [] ∨ kept = ch.replayHistory ∧ ch.replayKey = some key)
    (hkey : key ≠ plainKey) :
    Remembered { ch with replayHistory := kept, replayKey := some key } := by
  have hencrypted : ∀ key', some key = some key' → key' ≠ plainKey := by
    intro key' heq
    rw [← Option.some.inj heq]
    exact hkey
  rcases hkept with rfl | ⟨rfl, hkeep⟩
  · exact ⟨⟨List.nodup_nil, List.Pairwise.nil, nofun, nofun, hencrypted⟩, not_overfull_nil⟩
  · have hsame : { ch with replayHistory := ch.replayHistory, replayKey := some key } = ch := by
      rw [← hkeep]
    rw [hsame]
    exact h

lemma trimList_eq_self (h : ¬ Overfull history) (now : ℤ) : trimList now history = history := by
  rw [trimList, if_neg h]

lemma Thins.trimHistory (ch : Channel) (now : ℤ) : ch.Thins (ch.trimHistory now) := by
  obtain ⟨n, -, htrims⟩ := trims_trimList now ch.replayHistory
  exact ⟨htrims.sublist.map _, rfl, le_rfl⟩

lemma Ordered.trimHistory {ch : Channel} (h : ch.Ordered) (now : ℤ) :
    (ch.trimHistory now).Remembered := by
  obtain ⟨n, -, htrims⟩ := trims_trimList now ch.replayHistory
  exact ⟨h.thin (Thins.trimHistory ch now), htrims.not_overfull rfl⟩

/-- A new packet takes the highest number. -/
lemma Ordered.append {ch : Channel} (h : ch.Ordered) {body : Bytes} (now : ℤ)
    (hkey : ch.replayKey = some (body.take 8))
    (hnew : ∀ entry ∈ ch.replayHistory, entry.body ≠ body)
    (hlast : ∀ p ∈ ch.carried, p.2 < ch.requests) :
    Ordered { ch with
      replayHistory :=
        ch.replayHistory ++ [{ sentAt := now, body := body, sequence := ch.requests }] } := by
  have hcarried : carried { ch with replayHistory :=
      ch.replayHistory ++ [{ sentAt := now, body := body, sequence := ch.requests }] } =
      ch.carried ++ [(body, ch.requests)] := by
    rw [carried, List.map_append]
    rfl
  have hother : ∀ p ∈ ch.carried, p.1 ≠ body := by
    rintro p hp
    obtain ⟨entry, hentry, rfl⟩ := List.mem_map.mp hp
    exact hnew entry hentry
  constructor
  · rw [hcarried, List.map_append, List.nodup_append]
    refine ⟨h.distinct, List.nodup_singleton _, ?_⟩
    rintro a ha b hb rfl
    obtain ⟨p, hp, rfl⟩ := List.mem_map.mp ha
    exact hother p hp (List.mem_singleton.mp hb)
  · rw [hcarried, List.map_append, List.pairwise_append]
    refine ⟨h.ascending, List.pairwise_singleton _ _, ?_⟩
    intro a ha b hb
    obtain ⟨p, hp, rfl⟩ := List.mem_map.mp ha
    obtain rfl := List.mem_singleton.mp hb
    exact hlast p hp
  · rw [hcarried]
    intro p hp
    rcases List.mem_append.mp hp with hp | hp
    · exact h.numbered p hp
    · obtain rfl := List.mem_singleton.mp hp
      exact le_rfl
  · rw [hcarried]
    intro p hp
    rcases List.mem_append.mp hp with hp | hp
    · exact h.keyed p hp
    · obtain rfl := List.mem_singleton.mp hp
      exact hkey
  · exact h.encrypted

/-- The task is entered with its packet. -/
def carry (task : ℕ) (entry : ReplayPacket) : ReplayPacket :=
  { entry with originals := insert task entry.originals }

lemma Thins.carry (ch : Channel) (sequence task : ℕ) :
    ch.Thins (ch.updatePacket sequence (carry task)) := by
  refine updatePacket ch sequence ?_ ?_
  · intro entry
    rfl
  · intro entry
    rfl

/-- The end of `_send` in its parts: it is counted, remembered, entered, and the history trimmed. -/
lemma registerNative_parts (ch : Channel) (task : ℕ) (now : ℤ) (body : Bytes) (debug : Bool) :
    ∃ (first second third : Channel) (packet : Option ℕ),
      first.replayHistory = ch.replayHistory ∧ first.replayKey = ch.replayKey ∧
      first.requests = ch.requests + 1 ∧ Remembers first body now second packet ∧
      third.replayHistory = second.replayHistory ∧ third.replayKey = second.replayKey ∧
      third.requests = second.requests ∧
      (ch.registerNative task now body debug).2 = packet ∧
      (ch.registerNative task now body debug).1 = match packet with
        | some sequence => (third.updatePacket sequence (carry task)).trimHistory now
        | none => third := by
  let first : Channel := { ch with
    pendingBytes := ch.pendingBytes + body.length
    requests := ch.requests + 1 }
  let second := (first.rememberPacket body now).1
  let third : Channel := { second with
    pending := second.pending.set task body.length
    pendingSince := second.pendingSince.set task now
    requestTraces := if debug then insert task second.requestTraces else second.requestTraces }
  refine ⟨first, second, third, (first.rememberPacket body now).2, rfl, rfl, rfl,
    remembers_rememberPacket first body now, rfl, rfl, rfl, ?_⟩
  have heq : ch.registerNative task now body debug =
      match (first.rememberPacket body now).2 with
      | some sequence => ((third.updatePacket sequence (carry task)).trimHistory now,
          (first.rememberPacket body now).2)
      | none => (third, none) := rfl
  rw [heq]
  cases (first.rememberPacket body now).2 <;> exact ⟨rfl, rfl⟩

/-- **A native send.**  The history stays in order and within its bounds, and holds the packet that
has been sent, with its task, unless the packet is in the clear or does not fit. -/
lemma Remembered.registerNative {ch : Channel} (h : ch.Remembered) (task : ℕ) (now : ℤ)
    (body : Bytes) (debug : Bool) {ch' : Channel}
    (hch' : (ch.registerNative task now body debug).1 = ch') :
    ch'.Remembered ∧
      (ch'.replayKey = ch.replayKey ∨ ch'.replayKey = some (body.take 8)) ∧
      (body.take 8 ≠ plainKey → body.length ≤ replayHistoryBytes →
        ∃ entry ∈ ch'.replayHistory, entry.body = body ∧ task ∈ entry.originals) := by
  obtain ⟨first, second, third, packet, hkept, hsame, hcount, hcases, hhistory, hkey, hrequests,
    -, hmatch⟩ := registerNative_parts ch task now body debug
  rw [hch'] at hmatch
  have hthin : ch.Thins first := by
    refine ⟨?_, hsame, hcount ▸ Nat.le_succ _⟩
    rw [carried, carried, hkept]
  have hremembered := h.thin hthin
  have hlast : ∀ p ∈ first.carried, p.2 < first.requests := by
    intro p hp
    rw [hcount]
    exact Nat.lt_succ_of_le (h.numbered p (hthin.carried.subset hp))
  have hthird : second.Thins third := .of_eq hhistory hkey hrequests
  cases hcases with
  | plain hplain =>
      subst hmatch
      exact ⟨hremembered.thin hthird, .inl (hkey.trans hthin.key), fun hnot => absurd hplain hnot⟩
  | large kept hnot hkept hlarge =>
      subst hmatch
      exact ⟨(hremembered.kept hkept hnot).thin hthird, .inr hkey,
        fun _ hfits => absurd hfits (not_le.mpr hlarge)⟩
  | again kept entry hnot hkept hentry hbody =>
      have hcarried := ((hremembered.kept hkept hnot).thin hthird).thin
        (.carry third entry.sequence task)
      subst hmatch
      refine ⟨hcarried.trimHistory now, .inr hkey, fun _ _ => ⟨carry task entry, ?_, hbody, ?_⟩⟩
      · -- the history has not grown, so nothing is trimmed
        show carry task entry ∈ trimList now _
        rw [trimList_eq_self hcarried.fits]
        refine List.mem_map.mpr ⟨entry, hhistory ▸ hentry, ?_⟩
        rw [if_pos rfl]
      · exact Finset.mem_insert_self _ _
  | fresh kept hnot hkept hfits hnew =>
      have hordered := (hremembered.kept hkept hnot).append now rfl hnew fun p hp => by
        rcases hkept with rfl | ⟨rfl, -⟩
        · cases hp
        · exact hlast p hp
      have hcarried := (hordered.thin hthird).thin (.carry third first.requests task)
      subst hmatch
      refine ⟨hcarried.trimHistory now, .inr hkey, fun _ _ =>
        ⟨carry task { sentAt := now, body := body, sequence := first.requests }, ?_, rfl, ?_⟩⟩
      · obtain ⟨n, -, htrims⟩ :=
          trims_trimList now (third.updatePacket first.requests (carry task)).replayHistory
        refine htrims.mem_last (kept.map fun entry =>
          if entry.sequence = first.requests then carry task entry else entry) ?_ rfl ?_ ?_ hfits
        · rw [updatePacket, hhistory, List.map_append, List.map_singleton, if_pos rfl]
        · intro hmem
          obtain ⟨entry, hentry, heq⟩ := List.mem_map.mp hmem
          refine hnew entry hentry ?_
          have hbody := congrArg ReplayPacket.body heq
          split_ifs at hbody
          · exact hbody
          · exact hbody
        · exact .inl (Finset.ne_empty_of_mem (Finset.mem_insert_self task ∅))
      · exact Finset.mem_insert_self _ _

end Channel

/-! ## Runs -/

open Channel

/-- The history of the channel is in order, and its key is that of a packet that has been sent. -/
structure Recorded (s : Sys) (c : ℕ) : Prop where
  remembered : (s.chan c).Remembered
  sent : ∀ key, (s.chan c).replayKey = some key →
    ∃ time body task, Mark.native time body task ∈ s.log c ∧ body.take 8 = key

lemma Recorded.thin {s s' : Sys} {c : ℕ} (h : Recorded s c) {ch : Channel}
    (marks : List Mark) (hsame : ch.Same (s'.chan c)) (hthin : (s.chan c).Thins ch)
    (hlog : s'.log c = s.log c ++ marks) : Recorded s' c := by
  have hboth := hthin.trans (.of_same hsame)
  refine ⟨h.remembered.thin hboth, fun key hkey => ?_⟩
  obtain ⟨time, body, task, hmem, heq⟩ := h.sent key (hboth.key ▸ hkey)
  exact ⟨time, body, task, by rw [hlog]; exact List.mem_append_left _ hmem, heq⟩

/-- A step that records nothing. -/
lemma Recorded.silent {s s' : Sys} {c : ℕ} (h : Recorded s c) {ch : Channel}
    (hsame : ch.Same (s'.chan c)) (hthin : (s.chan c).Thins ch) (hlog : s'.log = s.log) :
    Recorded s' c :=
  h.thin [] hsame hthin (by rw [hlog, List.append_nil])

theorem Reaches.recorded {E : AesKeystream} {s : Sys} (h : Reaches E s) (c : ℕ) :
    Recorded s c := by
  have hempty : Channel.Remembered {} :=
    ⟨⟨List.nodup_nil, List.Pairwise.nil, nofun, nofun, nofun⟩, not_overfull_nil⟩
  refine h.channel (P := Recorded) ?_ ?_ ?_ c
  · rintro _ c ⟨clock, debug, -, rfl⟩
    exact ⟨hempty, nofun⟩
  · intro s s' c hst hr
    exact hr.thin [] hst.chan (.of_eq rfl rfl rfl) (by rw [hst.log, List.append_nil])
  · intro s e s' c hreach hs hr hmv
    cases hmv with
    | opened hc hchan hlog hnative honly =>
        refine ⟨hempty.thin (.of_same hchan), fun key hkey => ?_⟩
        rw [hchan.replayKey] at hkey
        cases hkey
    | bridged tag cltEnc hnone hnative hchan hlog honly =>
        exact hr.silent hchan (.of_eq rfl rfl rfl) hlog
    | native t caller body pc hpc hadm hleft hfree hopen hchan hreq hlog hnative hnext honly =>
        obtain ⟨hremembered, hkey, -⟩ :=
          hr.remembered.registerNative s.nextTask s.clock body s.debug rfl
        refine ⟨hremembered.thin (.of_same hchan), fun key hkey' => ?_⟩
        rw [hchan.replayKey] at hkey'
        rw [hlog]
        rcases hkey with hkey | hkey
        · obtain ⟨time, body', task, hmem, heq⟩ := hr.sent key (hkey ▸ hkey')
          exact ⟨time, body', task, List.mem_append_left _ hmem, heq⟩
        · exact ⟨s.clock, body, s.nextTask, List.mem_append_right _ (List.mem_singleton_self _),
            Option.some.inj (hkey.symm.trans hkey')⟩
    | replay t entry pc hpc hadm hleft hfree hopen hfind hpending hdue hchan hreq hlog hnative
        hnext honly =>
        exact hr.thin _ hchan (.registerReplay _ _ _ _ _ _) hlog
    | advance u info pc pc' hcalm hreq hreq' hchan hlog hnative honly =>
        exact hr.silent hchan (.of_eq rfl rfl rfl) hlog
    | uploaded u info p hreq hnone hreq' hchan hlog hnative honly =>
        exact hr.silent hchan (.of_eq rfl rfl rfl) hlog
    | received u info p p' hreq hnot hreq' hreceiving huploaded hcontent hchan hlog hnative honly =>
        exact hr.silent hchan (.of_eq rfl rfl rfl) hlog
    | ended u info p e receiving ch hreq he hreceiving hbefore hafter hlog hnative honly =>
        have hreceive : (s.chan c).Thins { s.chan c with receivingTasks := receiving } :=
          .of_eq rfl rfl rfl
        have hsettle : (s.chan c).Thins (ch.settle info.packet s.clock e).1 :=
          (hreceive.trans (.of_same hbefore)).trans (.settle ch info.packet s.clock e)
        split at hafter
        · rename_i hfinish
          exact hr.thin _ hafter.1 (hsettle.trans (.finishRequest hfinish)) hlog
        · exact hr.thin _ hafter.1 hsettle hlog
    | closing failure hchan hcode hlog hnative honly =>
        exact hr.thin _ hchan ((Thins.fail _ failure).trans (.of_eq rfl rfl rfl)) hlog
    | swept t rest skipped task rest' length ch ch' hsweep hrest hskipped hbefore hfinish hchan
        hlog hnative honly =>
        exact hr.silent hchan ((Thins.of_same hbefore).trans (.finishRequest hfinish)) hlog
    | cleared t rest hsweep hskipped hchan hlog hnative honly =>
        exact hr.silent hchan (.clear _) hlog
    | rotated victim packet hchan hlog hnative honly =>
        exact hr.silent hchan (.rotate _ _ _) hlog
    | dropped item queue hqueue hdrop hchan hlog hnative honly =>
        exact hr.silent hchan (.of_eq rfl rfl rfl) hlog
    | wrote t body queue n padding frame hpc hqueue hopen hn hframe hchan hlog hnative honly =>
        exact hr.thin _ hchan (.of_eq rfl rfl rfl) hlog
    | drained t hpc hpc' hchan hlog hnative honly =>
        exact hr.silent hchan (.of_eq rfl rfl rfl) hlog
    | wroteError t tasks n code packed padding frame hpc hpc' hcode hpacked hn hframe hchan hlog
        hnative honly =>
        exact hr.thin _ hchan (.of_eq rfl rfl rfl) hlog

lemma native_notMem_settle (ch : Channel) (packet : Option ℕ) (now : ℤ) (e : PostEnd) {time : ℤ}
    {body : Bytes} {task : ℕ} : Mark.native time body task ∉ (ch.settle packet now e).2 := by
  cases e with
  | returned reply =>
      show Mark.native time body task ∉ (ch.complete packet reply now).2
      rw [Channel.complete.eq_def]
      dsimp only
      split_ifs <;> simp
  | raised failure => simp [Channel.settle]
  | cancelled => simp [Channel.settle]

/-- A step that records a native packet is a native send. -/
lemma native_of_log {E : AesKeystream} {s s' : Sys} {e : Event} {c task : ℕ} {time : ℤ}
    {body : Bytes} (h : Reaches E s) (hs : step E e s = some s')
    (hlog : s'.log c = s.log c ++ [.native time body task]) :
    ((s.chan c).registerNative task s.clock body s.debug).1.Same (s'.chan c) := by
  have hsilent : s'.log c ≠ s.log c := by
    rw [hlog]
    simp
  have hother : ∀ marks, s'.log c = s.log c ++ marks → Mark.native time body task ∈ marks := by
    intro marks hmarks
    rw [hlog, List.append_cancel_left_eq] at hmarks
    rw [← hmarks]
    exact List.mem_singleton_self _
  rcases stays_or_on h.formed.toAllocated (h.move hs) c with hst | hmv
  · exact absurd hst.log hsilent
  cases hmv with
  | native t caller body' pc hpc hadm hleft hfree hopen hchan hreq hlog' hnative hnext honly =>
      obtain ⟨-, rfl, rfl⟩ := Mark.native.inj (List.mem_singleton.mp (hother _ hlog'))
      exact hchan
  | ended u info p e receiving ch hreq he hreceiving hbefore hafter hlog' hnative honly =>
      exact absurd (hother _ hlog') (native_notMem_settle ch info.packet s.clock e)
  | replay t entry pc hpc hadm hleft hfree hopen hfind hpending hdue hchan hreq hlog' hnative
      hnext honly =>
      cases List.mem_singleton.mp (hother _ hlog')
  | closing failure hchan hcode hlog' hnative honly =>
      cases List.mem_singleton.mp (hother _ hlog')
  | wrote t body' queue n padding frame hpc hqueue hopen hn hframe hchan hlog' hnative honly =>
      cases List.mem_singleton.mp (hother _ hlog')
  | wroteError t tasks n code packed padding frame hpc hpc' hcode hpacked hn hframe hchan hlog'
      hnative honly =>
      cases List.mem_singleton.mp (hother _ hlog')
  | opened _ _ hlog' => exact absurd (congrFun hlog' c) hsilent
  | bridged _ _ _ _ _ hlog' => exact absurd (congrFun hlog' c) hsilent
  | advance _ _ _ _ _ _ _ _ hlog' => exact absurd (congrFun hlog' c) hsilent
  | uploaded _ _ _ _ _ _ _ hlog' => exact absurd (congrFun hlog' c) hsilent
  | received _ _ _ _ _ _ _ _ _ _ _ hlog' => exact absurd (congrFun hlog' c) hsilent
  | swept _ _ _ _ _ _ _ _ _ _ _ _ _ _ hlog' => exact absurd (congrFun hlog' c) hsilent
  | cleared _ _ _ _ _ hlog' => exact absurd (congrFun hlog' c) hsilent
  | rotated _ _ _ hlog' => exact absurd (congrFun hlog' c) hsilent
  | dropped _ _ _ _ _ hlog' => exact absurd (congrFun hlog' c) hsilent
  | drained _ _ _ _ hlog' => exact absurd (congrFun hlog' c) hsilent

/-- **The replay history.**  At any time the history of a channel is within both of its bounds, its
packets are different, of one key that is not zero, and in the order of their numbers; a packet that
has just been sent is in it, unless it is in the clear or does not fit, and its task belongs to it;
and the loop that trims the history ends, and takes a packet that is worth sparing only where all
that are left are. -/
theorem replay_history_kept {E : AesKeystream} {s : Sys} (h : Reaches E s) (c : ℕ) :
    ((s.chan c).replayHistory.length ≤ replayHistoryPackets ∧
      retainedBytes (s.chan c).replayHistory ≤ replayHistoryBytes) ∧
    ((s.chan c).replayHistory.map (·.body)).Nodup ∧
    (∀ entry ∈ (s.chan c).replayHistory, (s.chan c).replayKey = some (entry.body.take 8)) ∧
    (∀ key, (s.chan c).replayKey = some key → key ≠ plainKey ∧
      ((∀ time body task, Mark.native time body task ∈ s.log c → 8 ≤ body.length) →
        ∃ b ∈ key, b ≠ 0)) ∧
    ((s.chan c).replayHistory.map (·.sequence)).Pairwise (· < ·) ∧
    (∀ e s' time body task, step E e s = some s' →
      s'.log c = s.log c ++ [.native time body task] → body.take 8 ≠ plainKey →
      body.length ≤ replayHistoryBytes →
      ∃ entry ∈ (s'.chan c).replayHistory, entry.body = body ∧ task ∈ entry.originals) ∧
    (∀ now history, ∃ n ≤ history.length,
      Trims now history (retainedBytes history) n (trimList now history)) ∧
    ∀ now history victim, trimVictim now history = some victim → Spared now victim →
      ∀ entry ∈ history, Spared now entry := by
  obtain ⟨hremembered, hsent⟩ := h.recorded c
  have hbounds : (s.chan c).replayHistory.length ≤ replayHistoryPackets ∧
      retainedBytes (s.chan c).replayHistory ≤ replayHistoryBytes := by
    have hfits := hremembered.fits
    simp only [Overfull, not_or, not_lt] at hfits
    exact hfits
  have hdistinct := hremembered.distinct
  have hascending := hremembered.ascending
  rw [carried, List.map_map] at hdistinct hascending
  refine ⟨hbounds, hdistinct, fun entry hentry => ?_, fun key hkey => ⟨?_, fun hlong => ?_⟩,
    hascending, fun e s' time body task hs hlog hkey hfits => ?_, trims_trimList,
    fun now history victim hvictim hspared => spared_of_trimVictim hvictim hspared⟩
  · exact hremembered.keyed _ (List.mem_map_of_mem hentry)
  · exact hremembered.encrypted key hkey
  · -- eight octets that are not all zero
    obtain ⟨time, body, task, hmem, rfl⟩ := hsent key hkey
    by_contra hzero
    push Not at hzero
    refine hremembered.encrypted _ hkey (List.eq_replicate_iff.mpr ⟨?_, hzero⟩)
    rw [List.length_take]
    have hlen := hlong time body task hmem
    omega
  · have hsame := native_of_log h hs hlog
    rw [hsame.replayHistory]
    exact (hremembered.registerNative task s.clock body s.debug rfl).2.2 hkey hfits

/-- A packet is sent, and sent again. -/
def sentTwice : List Event :=
  [Event.openChannel, .send 0 (List.replicate 24 1)] ++ List.replicate 7 (Event.run 0 .resume) ++
    [Event.send 0 (List.replicate 24 1)] ++ List.replicate 6 (Event.run 2 .resume)

/-- The second task joins the first. -/
theorem replay_history_kept_sample :
    ∃ (E : AesKeystream) (s s' : Sys), Reaches E s ∧ step E (.run 2 .resume) s = some s' ∧
      s'.log 0 = s.log 0 ++ [.native 1 (List.replicate 24 1) 3] ∧
      ∃ entry ∈ (s'.chan 0).replayHistory,
        entry.body = List.replicate 24 1 ∧ 3 ∈ entry.originals := by
  let E : AesKeystream := fun _ _ _ => 0
  have hrun : (exec (step E) sentTwice (Sys.start 1 false)).map
      (fun s => (s.log 0, (step E (.run 2 .resume) s).map fun s' => s'.log 0)) =
      some ([.native 1 (List.replicate 24 1) 1],
        some [.native 1 (List.replicate 24 1) 1, .native 1 (List.replicate 24 1) 3]) := by
    decide +kernel
  obtain ⟨s, hs, hlogs⟩ := Option.map_eq_some_iff.mp hrun
  obtain ⟨hlog, hlog'⟩ := Prod.mk.inj hlogs
  obtain ⟨s', hs', hlog'⟩ := Option.map_eq_some_iff.mp hlog'
  have hreach : Reaches E s := reachable_of_exec (.start ⟨1, false, one_pos, rfl⟩) hs
  have happend : s'.log 0 = s.log 0 ++ [.native 1 (List.replicate 24 1) 3] := by
    rw [hlog', hlog]
    rfl
  exact ⟨E, s, s', hreach, hs', happend,
    (replay_history_kept hreach 0).2.2.2.2.2.1 _ s' 1 _ 3 hs' happend (by decide) (by decide)⟩

end TgWsProxy
