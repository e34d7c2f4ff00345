import TgWsProxy.H2.Pool.Sound

/-!
# Single-flight setup

* `Late` — a closed pool makes no channel.
* `setup_single_flight` — one preflight for a host at a time, every channel on the lane stored for
  its host, and no lane left open.
* `left_open_by_cancelled_call` — a call that is cancelled after its timeout ends before its lane is
  closed.
-/

namespace TgWsProxy.H2Pool

open Wire

/-! ## After `close()` has been called -/

section Closed

open CfH2Pool

variable {v : WaitFor} {p p' : CfH2Pool} {c : ℕ} {o : OpenCall}

/-- The pool is closed and has as many channels as before. -/
def Late (p p' : CfH2Pool) : Prop :=
  p'.closed = true ∧ p'.channels.length = p.channels.length

lemma late_enter (hp : p.closed = true) (host : String) (rest : List String)
    (next : CfH2Pool × SetupPc) : Late p (p.enter c host rest next).1 := by
  rw [enter, if_pos hp]
  exact ⟨hp, rfl⟩

lemma late_scan (hp : p.closed = true) (dc : ℕ) (domains : List String) :
    Late p (p.scan c dc domains).1 := by
  cases domains with
  | nil => exact ⟨hp, rfl⟩
  | cons baseDomain rest =>
      simp only [scan]
      split_ifs
      · exact late_enter hp _ rest _
      · exact ⟨hp, rfl⟩

lemma late_task (hp : p.closed = true) (hs : p.start c o = some p' ∨ p.grant c o = some p' ∨
    p.preflightOk c o = some p' ∨ p.preflightFails c o = some p' ∨ p.laneClosed c o = some p' ∨
    p.cancelled c o = some p') : Late p p' := by
  rcases hs with hs | hs | hs | hs | hs | hs
  · rw [start] at hs
    split_ifs at hs
    rw [← Option.some.inj hs, begin, if_pos hp]
    exact ⟨hp, rfl⟩
  · rw [grant] at hs
    split at hs
    · dsimp only at hs
      split_ifs at hs
      rw [← Option.some.inj hs]
      exact late_enter (p := p.setLock _ _) hp _ _ _
    · cases hs
  · rw [preflightOk] at hs
    split at hs
    · obtain ⟨lane, -, rfl⟩ := Option.map_eq_some_iff.mp hs
      dsimp only
      rw [if_pos hp]
      exact ⟨hp, rfl⟩
    · cases hs
  · rw [preflightFails] at hs
    split at hs
    · obtain ⟨lane, -, rfl⟩ := Option.map_eq_some_iff.mp hs
      exact ⟨hp, rfl⟩
    · cases hs
  · rw [laneClosed] at hs
    split at hs
    · split_ifs at hs
      obtain ⟨lane, -, rfl⟩ := Option.map_eq_some_iff.mp hs
      split
      · exact late_scan (p := p.release lane.host) hp _ _
      · exact ⟨hp, rfl⟩
      · exact ⟨hp, rfl⟩
    · cases hs
  · rw [cancelled] at hs
    dsimp only at hs
    split_ifs at hs
    split at hs
    · exact Option.some.inj hs ▸ ⟨hp, rfl⟩
    · exact Option.some.inj hs ▸ ⟨hp, rfl⟩
    · exact Option.some.inj hs ▸ ⟨hp, rfl⟩
    · obtain ⟨lane, -, rfl⟩ := Option.map_eq_some_iff.mp hs
      exact ⟨hp, rfl⟩
    · cases hs

lemma late_call (hp : p.closed = true) (hs : p.resume v c o = some p' ∨ p.timeout c o = some p' ∨
    p.cancel v c o = some p') : Late p p' := by
  rcases hs with hs | hs | hs
  · rw [resume] at hs
    split at hs
    · cases hs
    · cases hs
    · rw [← Option.some.inj hs]
      split_ifs
      · exact ⟨hp, rfl⟩
      · exact ⟨hp, rfl⟩
    · cases hs
  · rw [timeout] at hs
    split at hs
    · cases hs
    · exact Option.some.inj hs ▸ ⟨hp, rfl⟩
    · cases hs
  · rw [cancel] at hs
    split at hs
    · cases hs
    · cases hs
    · exact Option.some.inj hs ▸ ⟨hp, rfl⟩
    · exact Option.some.inj hs ▸ ⟨hp, rfl⟩
    · exact Option.some.inj hs ▸ ⟨hp, rfl⟩
    · exact Option.some.inj hs ▸ ⟨hp, rfl⟩

lemma late_laneClose (hp : p.closed = true) {l : ℕ} {lane : Lane}
    (hs : p.laneClose l lane = some p') : Late p p' := by
  rw [laneClose] at hs
  dsimp only at hs
  split at hs
  · exact Option.some.inj hs ▸ ⟨hp, rfl⟩
  · exact Option.some.inj hs ▸ ⟨hp, rfl⟩
  · split_ifs at hs
    exact Option.some.inj hs ▸ ⟨hp, rfl⟩
  · exact Option.some.inj hs ▸ ⟨hp, rfl⟩
  · cases hs

lemma late_step (hp : p.closed = true) {e : Event} (hs : step v e p = some p') : Late p p' := by
  have htask : ∀ {f : OpenCall → Option CfH2Pool} {d : ℕ}, (∀ o, f o = some p' → Late p p') →
      (p.calls[d]?).bind f = some p' → Late p p' := by
    intro f d hf hs
    obtain ⟨o, -, hs⟩ := Option.bind_eq_some_iff.mp hs
    exact hf o hs
  cases e with
  | tick elapsed => exact Option.some.inj hs ▸ ⟨hp, rfl⟩
  | openCall dc domains =>
      rw [← Option.some.inj hs, openCall]
      dsimp only
      rw [if_pos hp]
      exact ⟨hp, rfl⟩
  | start d => exact htask (fun o ho => late_task hp (.inl ho)) hs
  | grant d => exact htask (fun o ho => late_task hp (.inr (.inl ho))) hs
  | preflightOk d => exact htask (fun o ho => late_task hp (.inr (.inr (.inl ho)))) hs
  | preflightFails d => exact htask (fun o ho => late_task hp (.inr (.inr (.inr (.inl ho))))) hs
  | laneClosed d => exact htask (fun o ho => late_task hp (.inr (.inr (.inr (.inr (.inl ho)))))) hs
  | cancelled d => exact htask (fun o ho => late_task hp (.inr (.inr (.inr (.inr (.inr ho)))))) hs
  | resume d => exact htask (fun o ho => late_call (v := v) hp (.inl ho)) hs
  | timeout d => exact htask (fun o ho => late_call (v := v) hp (.inr (.inl ho))) hs
  | cancel d => exact htask (fun o ho => late_call (v := v) hp (.inr (.inr ho))) hs
  | laneFails l => exact Option.some.inj hs ▸ ⟨hp, rfl⟩
  | channelCloses i =>
      rw [← Option.some.inj hs]
      exact ⟨hp, List.length_modify ..⟩
  | channelDone i =>
      obtain ⟨ch, -, hs⟩ := Option.bind_eq_some_iff.mp hs
      split_ifs at hs
      rw [← Option.some.inj hs]
      exact ⟨hp, List.length_set⟩
  | close =>
      rw [step, close] at hs
      split_ifs at hs
      exact Option.some.inj hs ▸ ⟨rfl, rfl⟩
  | laneClose l =>
      obtain ⟨lane, -, hs⟩ := Option.bind_eq_some_iff.mp hs
      exact late_laneClose hp hs
  | closeEnds =>
      rw [step, closeEnds] at hs
      split_ifs at hs
      exact Option.some.inj hs ▸ ⟨hp, rfl⟩

/-- A closed pool makes no channel in any run. -/
lemma late_of_reachable (hp : p.closed = true)
    (h : Reachable (· = p) (step v) Always p') : Late p p' := by
  refine h.invariant (P := Late p) (fun q hq => ?_) fun q e q' _ hlate _ hs => ?_
  · rw [hq]
    exact ⟨hp, rfl⟩
  obtain ⟨hclosed, hlen⟩ := late_step hlate.1 hs
  exact ⟨hclosed, hlen.trans hlate.2⟩

end Closed

/-! ## Single flight -/

/-- The setup task of the call `c` preflights a lane of `host`. -/
def CfH2Pool.Preflights (p : CfH2Pool) (c : ℕ) (host : String) : Prop :=
  ∃ o l rest lane, p.calls[c]? = some o ∧ o.pc = .preflight l rest ∧ p.made[l]? = some lane ∧
    lane.host = host

lemma CfH2Pool.Preflights.holds {v : WaitFor} {p : CfH2Pool} {c : ℕ} {host : String}
    (h : p.Sound v none) (hc : p.Preflights c host) : (p.locks host).holder = some c := by
  obtain ⟨o, l, rest, lane, ho, hpc, hl, rfl⟩ := hc
  have hfits := h.fits c o (by simp) ho
  rw [hpc] at hfits
  obtain ⟨lane', hl', -, hheld, -⟩ := hfits
  exact Option.some.inj (hl'.symm.trans hl) ▸ hheld

/-- **Single-flight setup.**  A host has one preflight at a time; a lane is stored under its host,
and every channel is on the lane stored for its host, until `close()` has ended.  A lane that is not
stored is closed, or its setup task is still in its preflight; a call that has ended and not
abandoned its setup task has seen it end.  A closed pool makes no channel, and when `close()` and
all setup tasks have ended, every lane and every channel is closed. -/
theorem setup_single_flight {v : WaitFor} {p : CfH2Pool} (h : Reaches v p) :
    (∀ host c d, p.Preflights c host → p.Preflights d host → c = d) ∧
    (∀ host l, p.lanes.get? host = some l → ∃ lane, p.made[l]? = some lane ∧ lane.host = host) ∧
    (∀ (i : ℕ) ch, p.channels[i]? = some ch → ∃ lane, p.made[ch.lane]? = some lane ∧
      (p.lanes.get? lane.host = some ch.lane ∨ p.closer = .ended)) ∧
    (∀ o ∈ p.calls, ∀ i, o.waiter = .ended (.channel i) → i < p.channels.length) ∧
    (∀ l lane, p.made[l]? = some lane → p.lanes.get? lane.host = some l ∨ lane.Shut ∨
      ∃ o rest, p.calls[lane.maker]? = some o ∧ o.pc = .preflight l rest) ∧
    (∀ o ∈ p.calls, ∀ r, o.waiter = .ended r → ∃ r', o.pc = .ended r') ∧
    (v = .python312 → ∀ o ∈ p.calls, o.waiter ≠ .abandoned) ∧
    (p.closed = true → ∀ q, Reachable (· = p) (step v) Always q →
      q.channels.length = p.channels.length) ∧
    (p.closer = .ended → (∀ o ∈ p.calls, ∃ r, o.pc = .ended r) →
      (∀ lane ∈ p.made, lane.Shut) ∧ ∀ ch ∈ p.channels, ch.closed = true) := by
  have hsound := h.sound
  have hcall : ∀ o ∈ p.calls, Waits v p.channels.length o := by
    intro o ho
    obtain ⟨c, hc⟩ := List.mem_iff_getElem?.mp ho
    exact hsound.waits c o (by simp) hc
  refine ⟨fun host c d hc hd => ?_, hsound.stored, hsound.channels, fun o ho i hi => ?_,
    fun l lane hl => ?_, fun o ho r hr => ?_, fun hv o ho hw => ?_, fun hclosed q hq => ?_,
    fun hended hcalls => ⟨fun lane hlane => ?_, fun ch hch => ?_⟩⟩
  · exact Option.some.inj ((hc.holds hsound).symm.trans (hd.holds hsound))
  · have hwaits := hcall o ho
    rw [Waits, hi] at hwaits
    exact hwaits.2 i rfl
  · rcases hsound.lanes l lane hl with hstored | hshut | ⟨o, rest, -, ho, hat⟩
    · exact .inl hstored
    · exact .inr (.inl hshut)
    · exact .inr (.inr ⟨o, rest, ho, hat⟩)
  · have hwaits := hcall o ho
    rw [Waits, hr] at hwaits
    exact hwaits.1
  · have hwaits := hcall o ho
    rw [Waits, hw] at hwaits
    exact hwaits hv
  · exact (late_of_reachable hclosed hq).2
  · obtain ⟨l, hl⟩ := List.mem_iff_getElem?.mp hlane
    rcases hsound.lanes l lane hl with hstored | hshut | ⟨o, rest, -, ho, hat⟩
    · rw [(hsound.cleared hended).1] at hstored
      cases hstored
    · exact hshut
    · obtain ⟨r, hr⟩ := hcalls o (List.mem_iff_getElem?.mpr ⟨_, ho⟩)
      rw [hr] at hat
      cases hat
  · obtain ⟨i, hi⟩ := List.mem_iff_getElem?.mp hch
    exact (hsound.cleared hended).2 i ch hi

/-- A new pool at time zero. -/
def freshPool : CfH2Pool :=
  ⟨0, .empty, fun _ => ⟨none, []⟩, .empty, .empty, false, .idle, [], [], []⟩

lemma starting_freshPool : Starting freshPool := ⟨rfl, fun _ => rfl, rfl, rfl, rfl, rfl, rfl⟩

/-- Two calls share a lane, and `close()` closes both channels and the lane. -/
theorem setup_single_flight_sample :
    ∃ p, Reaches .python39 p ∧ p.made.length = 1 ∧ p.channels.length = 2 ∧
      (∀ lane ∈ p.made, lane.Shut) ∧ ∀ ch ∈ p.channels, ch.closed = true := by
  have hrun : ((exec (step .python39) [.openCall 1 ["a"], .openCall 1 ["a"], .start 0, .start 1,
      .preflightOk 0, .resume 0, .grant 1, .resume 1, .close, .laneClose 0, .laneClose 0,
      .channelCloses 0, .channelDone 0, .channelCloses 1, .channelDone 1, .laneClose 0,
      .laneClose 0, .closeEnds] freshPool).map fun p => (p.made.length, p.channels.length, p.closer,
        p.calls.map OpenCall.pc)) =
      some (1, 2, .ended, [.ended (.channel 0), .ended (.channel 1)]) := by decide +kernel
  obtain ⟨p, hp, hfacts⟩ := Option.map_eq_some_iff.mp hrun
  simp only [Prod.mk.injEq] at hfacts
  obtain ⟨hmade, hchannels, hcloser, hcalls⟩ := hfacts
  have hreach : Reaches .python39 p := reachable_of_exec (.start starting_freshPool) hp
  have hended : ∀ o ∈ p.calls, ∃ r, o.pc = .ended r := by
    intro o ho
    have hmem : o.pc ∈ p.calls.map OpenCall.pc := List.mem_map_of_mem ho
    rw [hcalls] at hmem
    simp only [List.mem_cons, List.not_mem_nil, or_false] at hmem
    exact hmem.elim (fun heq => ⟨_, heq⟩) fun heq => ⟨_, heq⟩
  have hclosed := (setup_single_flight hreach).2.2.2.2.2.2.2.2 hcloser hended
  exact ⟨p, hreach, hmade, hchannels, hclosed⟩

/-- `open` has ended. -/
def Waiter.Over : Waiter → Prop
  | .ended _ => True
  | .abandoned => True
  | _ => False

/-- **A lane outlives its call.**  The setup hangs in its preflight until the timeout cancels it,
and the caller is cancelled before the setup task goes on: `open` ends, and the lane is open. -/
theorem left_open_by_cancelled_call :
    ¬ ∀ p, Reaches .python39 p → ∀ l lane o, p.made[l]? = some lane →
      p.lanes.get? lane.host ≠ some l → p.calls[lane.maker]? = some o → o.waiter.Over →
        lane.clientClosed = true := by
  intro hall
  have hrun : ((exec (step .python39) [.openCall 1 ["a"], .start 0, .timeout 0, .cancel 0]
      freshPool).map fun p => (p.made, p.lanes.entries, p.calls)) =
      some ([⟨"kws1.a", 0, false, false, 0, .idle⟩], [],
        [⟨1, ["a"], .preflight 0 [], true, .abandoned⟩]) := by decide +kernel
  obtain ⟨p, hp, hfacts⟩ := Option.map_eq_some_iff.mp hrun
  simp only [Prod.mk.injEq] at hfacts
  obtain ⟨hmade, hlanes, hcalls⟩ := hfacts
  have hopen := hall p (reachable_of_exec (.start starting_freshPool) hp) 0
    ⟨"kws1.a", 0, false, false, 0, .idle⟩ ⟨1, ["a"], .preflight 0 [], true, .abandoned⟩
    (by rw [hmade]; rfl) (by simp [Dict.get?, hlanes]) (by rw [hcalls]; rfl) trivial
  cases hopen

end TgWsProxy.H2Pool
