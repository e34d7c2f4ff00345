import TgWsProxy.Core.Registry
import TgWsProxy.H2.Pool.Setup

/-!
# The invariant of the lane pool

* `Waits` — what `open` knows of its setup task.
* `Fits` — what a setup task has where it stands: from the preflight of a lane to the end of its
  `close()` it made this lane and holds the lock of its host.
* `Closes` — what `lane.close()` has done where it stands.
* `Sound` — the invariant of the pool, one call possibly aside in the middle of its turn.
* `Sound.step`, `Reaches.sound` — it holds along every run.
-/

namespace TgWsProxy.H2Pool

open Wire

/-! ## What holds of the parts -/

/-- The flags of a closed lane. -/
def Lane.Shut (lane : Lane) : Prop := lane.closed = true ∧ lane.clientClosed = true

/-- `open` has not ended, or it has left its setup task behind. -/
def Running (v : WaitFor) (o : OpenCall) : Prop :=
  match o.waiter with
  | .ended _ => False
  | .abandoned => v ≠ .python312
  | _ => True

/-- `open` ends after its setup task, and what it hands out is one of `n` channels. -/
def Waits (v : WaitFor) (n : ℕ) (o : OpenCall) : Prop :=
  match o.waiter with
  | .ended outcome => (∃ r, o.pc = .ended r) ∧ ∀ i, outcome = .channel i → i < n
  | .abandoned => v ≠ .python312
  | _ => True

lemma Running.waits {v : WaitFor} {n : ℕ} {o : OpenCall} (h : Running v o) : Waits v n o := by
  revert h
  rw [Running, Waits]
  cases o.waiter with
  | ended outcome => exact False.elim
  | abandoned => exact id
  | _ => exact id

lemma Waits.running {v : WaitFor} {n : ℕ} {o : OpenCall} (h : Waits v n o)
    (hpc : ∀ r, o.pc ≠ .ended r) : Running v o := by
  revert h
  rw [Running, Waits]
  cases o.waiter with
  | ended outcome => exact fun ⟨⟨r, hr⟩, _⟩ => hpc r hr
  | abandoned => exact id
  | _ => exact id

lemma Waits.mono {v : WaitFor} {n n' : ℕ} {o : OpenCall} (h : Waits v n o) (hn : n ≤ n') :
    Waits v n' o := by
  revert h
  rw [Waits, Waits]
  cases o.waiter with
  | ended outcome => exact fun ⟨hpc, hi⟩ => ⟨hpc, fun i heq => Nat.lt_of_lt_of_le (hi i heq) hn⟩
  | abandoned => exact id
  | _ => exact id

namespace CfH2Pool

/-- The setup task of the call `c` made the lane `l` and holds the lock of its host, for which no
lane is stored. -/
def Owns (p : CfH2Pool) (c l : ℕ) : Prop :=
  ∃ lane, p.made[l]? = some lane ∧ lane.maker = c ∧ (p.locks lane.host).holder = some c ∧
    p.lanes.get? lane.host = none

/-- What the setup task of the call `c` has where it stands. -/
def Fits (p : CfH2Pool) (c : ℕ) : SetupPc → Prop
  | .preflight l _ => p.Owns c l
  | .closing l _ => p.Owns c l ∧ ∃ lane, p.made[l]? = some lane ∧ lane.Shut
  | .ended (.channel i) => i < p.channels.length
  | _ => True

/-- What `lane.close()` has done where it stands. -/
def Closes (p : CfH2Pool) (l : ℕ) (lane : Lane) : Prop :=
  match lane.closer with
  | .idle => True
  | .created => p.closed = true
  | .notifying => p.closed = true ∧ lane.closed = true
  | .gathering ids => p.closed = true ∧ lane.closed = true ∧
      ∀ (i : ℕ) ch, p.channels[i]? = some ch → ch.lane = l → i ∈ ids ∨ ch.closed = true
  | _ => p.closed = true ∧ lane.Shut ∧
      ∀ (i : ℕ) ch, p.channels[i]? = some ch → ch.lane = l → ch.closed = true

/-- The invariant, without what it says about the call `away`. -/
structure Sound (v : WaitFor) (away : Option ℕ) (p : CfH2Pool) : Prop where
  fits : ∀ c o, some c ≠ away → p.calls[c]? = some o → p.Fits c o.pc
  waits : ∀ c o, some c ≠ away → p.calls[c]? = some o → Waits v p.channels.length o
  lanes : ∀ l lane, p.made[l]? = some lane → p.lanes.get? lane.host = some l ∨ lane.Shut ∨
    ∃ o rest, some lane.maker ≠ away ∧ p.calls[lane.maker]? = some o ∧ o.pc = .preflight l rest
  stored : ∀ host l, p.lanes.get? host = some l → ∃ lane, p.made[l]? = some lane ∧ lane.host = host
  channels : ∀ (i : ℕ) ch, p.channels[i]? = some ch → ∃ lane, p.made[ch.lane]? = some lane ∧
    (p.lanes.get? lane.host = some ch.lane ∨ p.closer = .ended)
  done : ∀ (i : ℕ) ch, p.channels[i]? = some ch → ch.closeDone = true → ch.closed = true
  closes : ∀ l lane, p.made[l]? = some lane → p.Closes l lane
  closing : p.closer ≠ .idle → p.closed = true
  cleared : p.closer = .ended → (∀ host, p.lanes.get? host = none) ∧
    ∀ (i : ℕ) ch, p.channels[i]? = some ch → ch.closed = true

end CfH2Pool

lemma CfH2Pool.getElem?_setCall {p : CfH2Pool} {c : ℕ} {q o : OpenCall}
    (hq : p.calls[c]? = some q) (d : ℕ) :
    (p.setCall c o).calls[d]? = if c = d then some o else p.calls[d]? := by
  have hlen : c < p.calls.length := (List.getElem?_eq_some_iff.mp hq).1
  show (p.calls.set c o)[d]? = _
  rw [List.getElem?_set]
  split_ifs with hcd
  · rfl
  · rfl

/-- A channel that `open` returns is the one its setup task returned. -/
lemma CfH2Pool.channel_of_result {v : WaitFor} {w : Waiter} {outcome : Outcome} {i : ℕ}
    (hr : result v w outcome = .channel i) : outcome = .channel i := by
  revert hr
  cases w with
  | timing =>
      cases outcome with
      | cancelled => exact Outcome.noConfusion
      | _ =>
          show (if v = .python38 then _ else _) = _ → _
          split_ifs
          · exact False.elim
          · exact id
  | cancelling =>
      show (if v = .python312 then _ else _) = _ → _
      split_ifs
      · exact id
      · exact False.elim
  | _ => exact id

namespace CfH2Pool.Sound

variable {v : WaitFor} {a : Option ℕ} {c : ℕ} {o : OpenCall} {p q : CfH2Pool}

/-! ## Changes that the invariant does not see -/

/-- The invariant does not look at the clock, the cooldowns and the waiters of locks. -/
lemma frame (h : p.Sound v a) (hlanes : q.lanes = p.lanes)
    (hlocks : ∀ host, (q.locks host).holder = (p.locks host).holder) (hclosed : q.closed = p.closed)
    (hcloser : q.closer = p.closer) (hmade : q.made = p.made) (hchannels : q.channels = p.channels)
    (hcalls : q.calls = p.calls) : q.Sound v a := by
  have howns : ∀ c l, p.Owns c l → q.Owns c l := by
    rintro c l ⟨lane, hl, hmaker, hholder, hnone⟩
    exact ⟨lane, hmade ▸ hl, hmaker, (hlocks lane.host).trans hholder, hlanes ▸ hnone⟩
  refine ⟨fun c o hc ho => ?_, ?_, ?_, ?_, ?_, ?_, fun l lane hl => ?_, ?_, ?_⟩
  · have hfits := h.fits c o hc (hcalls ▸ ho)
    revert hfits
    cases o.pc with
    | preflight l rest => exact howns c l
    | closing l after => exact fun ⟨hown, lane, hl, hshut⟩ =>
        ⟨howns c l hown, lane, hmade ▸ hl, hshut⟩
    | ended outcome =>
        cases outcome with
        | channel i => exact fun hi => by rw [Fits, hchannels]; exact hi
        | _ => exact id
    | _ => exact id
  · rw [hcalls, hchannels]
    exact h.waits
  · rw [hcalls, hlanes, hmade]
    exact h.lanes
  · rw [hlanes, hmade]
    exact h.stored
  · rw [hlanes, hmade, hchannels, hcloser]
    exact h.channels
  · rw [hchannels]
    exact h.done
  · have hcloses := h.closes l lane (hmade ▸ hl)
    rw [Closes] at hcloses ⊢
    rw [hclosed, hchannels]
    exact hcloses
  · rw [hcloser, hclosed]
    exact h.closing
  · rw [hcloser, hchannels, hlanes]
    exact h.cleared

lemma setLock {host : String} {lock : HostLock} (h : p.Sound v a)
    (hholder : lock.holder = (p.locks host).holder) : (p.setLock host lock).Sound v a := by
  refine h.frame rfl (fun g => ?_) rfl rfl rfl rfl rfl
  show (Function.update p.locks host lock g).holder = _
  rw [Function.update_apply]
  split_ifs with hg
  · rw [hg, hholder]
  · rfl

/-! ## A call aside -/

/-- A call is put aside, unless the invariant needs it for the lane it sets up. -/
lemma aside (h : p.Sound v none) (ho : p.calls[c]? = some o)
    (hpc : ∀ l rest lane, o.pc = .preflight l rest → p.made[l]? = some lane →
      p.lanes.get? lane.host = some l ∨ lane.Shut) : p.Sound v (some c) where
  fits d q hd hq := h.fits d q (by simp) hq
  waits d q hd hq := h.waits d q (by simp) hq
  lanes l lane hl := by
    rcases h.lanes l lane hl with hstored | hshut | ⟨q, rest, -, hq, hat⟩
    · exact .inl hstored
    · exact .inr (.inl hshut)
    · by_cases heq : lane.maker = c
      · rw [heq, ho] at hq
        exact (hpc l rest lane (Option.some.inj hq ▸ hat) hl).imp_right .inl
      · exact .inr (.inr ⟨q, rest, fun hc => heq (Option.some.inj hc), hq, hat⟩)
  stored := h.stored
  channels := h.channels
  done := h.done
  closes := h.closes
  closing := h.closing
  cleared := h.cleared

/-- A call aside comes back.  What its turn left behind is its own, unless it is stored or shut. -/
lemma back (h : p.Sound v (some c)) {q₀ : OpenCall} (ho : p.calls[c]? = some q₀)
    (hfits : p.Fits c o.pc)
    (hwaits : Waits v p.channels.length o) : (p.setCall c o).Sound v none := by
  have hget := getElem?_setCall (o := o) ho
  refine ⟨fun d q hd hq => ?_, fun d q hd hq => ?_, fun l lane hl => ?_, h.stored, h.channels,
    h.done, h.closes, h.closing, h.cleared⟩
  · rw [hget] at hq
    split_ifs at hq with hcd
    · exact hcd ▸ Option.some.inj hq ▸ hfits
    · exact h.fits d q (fun heq => hcd (Option.some.inj heq.symm)) hq
  · rw [hget] at hq
    split_ifs at hq with hcd
    · exact Option.some.inj hq ▸ hwaits
    · exact h.waits d q (fun heq => hcd (Option.some.inj heq.symm)) hq
  · rcases h.lanes l lane hl with hstored | hshut | ⟨q, rest, hne, hq, hat⟩
    · exact .inl hstored
    · exact .inr (.inl hshut)
    · refine .inr (.inr ⟨q, rest, by simp, ?_, hat⟩)
      rw [hget, if_neg fun hcd => hne (congrArg some hcd.symm)]
      exact hq

/-- The setup task that is aside gives its lock back. -/
lemma release (h : p.Sound v (some c)) {host : String} (hheld : (p.locks host).holder = some c) :
    (p.release host).Sound v (some c) := by
  have howns : ∀ d l, some d ≠ some c → p.Owns d l → (p.release host).Owns d l := by
    rintro d l hd ⟨lane, hl, hmaker, hholder, hnone⟩
    refine ⟨lane, hl, hmaker, ?_, hnone⟩
    have hhost : lane.host ≠ host := fun heq => hd (by rw [← hholder, heq, hheld])
    show (Function.update p.locks host _ lane.host).holder = _
    rw [Function.update_of_ne hhost]
    exact hholder
  refine ⟨fun d q hd hq => ?_, h.waits, h.lanes, h.stored, h.channels, h.done, h.closes, h.closing,
    h.cleared⟩
  have hfits := h.fits d q hd hq
  revert hfits
  cases q.pc with
  | preflight l rest => exact howns d l hd
  | closing l after => exact fun ⟨hown, hshut⟩ => ⟨howns d l hd hown, hshut⟩
  | ended outcome =>
      cases outcome with
      | channel i => exact id
      | _ => exact id
  | _ => exact id

/-- A channel is made on the lane stored for a host. -/
lemma newChannel (h : p.Sound v a) (hopen : p.closed = false) {host : String} {l : ℕ}
    (hl : p.lanes.get? host = some l) : (p.newChannel l).Sound v a := by
  have hlen : p.channels.length ≤ (p.newChannel l).channels.length := by
    show _ ≤ (p.channels ++ [_]).length
    rw [List.length_append]
    exact Nat.le_add_right _ _
  have hget : ∀ (i : ℕ) ch, (p.newChannel l).channels[i]? = some ch →
      p.channels[i]? = some ch ∨ ch = ⟨l, false, false⟩ := by
    intro i ch hi
    rcases getElem?_concat.mp hi with hi | ⟨-, rfl⟩
    · exact .inl hi
    · exact .inr rfl
  have hidle : p.closer = .idle := by
    by_contra hne
    exact Bool.false_ne_true (hopen.symm.trans (h.closing hne))
  refine ⟨fun d q hd hq => ?_, fun d q hd hq => (h.waits d q hd hq).mono hlen, h.lanes, h.stored,
    fun i ch hi => ?_, fun i ch hi hdone => ?_, fun m lane hm => ?_, h.closing, fun hended => ?_⟩
  · have hfits := h.fits d q hd hq
    revert hfits
    cases q.pc with
    | ended outcome =>
        cases outcome with
        | channel i => exact fun hi => Nat.lt_of_lt_of_le hi hlen
        | _ => exact id
    | _ => exact id
  · rcases hget i ch hi with hi | rfl
    · exact h.channels i ch hi
    · obtain ⟨lane, hlane, hhost⟩ := h.stored host l hl
      exact ⟨lane, hlane, .inl (hhost ▸ hl)⟩
  · rcases hget i ch hi with hi | rfl
    · exact h.done i ch hi hdone
    · cases hdone
  · have hcloses := h.closes m lane hm
    revert hcloses
    rw [Closes, Closes]
    cases lane.closer with
    | idle => exact id
    | created => exact id
    | notifying => exact id
    | _ => exact fun hf => absurd (hopen.symm.trans hf.1) Bool.false_ne_true
  · exact PoolClose.noConfusion (hidle.symm.trans hended)

/-! ## Lanes and channels change in place -/

/-- Lanes change, each by itself, and nothing gets open again. -/
lemma lanes_map (h : p.Sound v a) (f : ℕ → Lane → Lane) {made : List Lane}
    (hmade : ∀ l, made[l]? = (p.made[l]?).map (f l))
    (hhost : ∀ l lane, (f l lane).host = lane.host)
    (hmaker : ∀ l lane, (f l lane).maker = lane.maker)
    (hshut : ∀ l lane, lane.Shut → (f l lane).Shut)
    (hcloses : ∀ l lane, p.made[l]? = some lane → p.Closes l (f l lane)) :
    Sound v a { p with made := made } := by
  have hold : ∀ {l lane'}, made[l]? = some lane' → ∃ lane, p.made[l]? = some lane ∧
      f l lane = lane' := by
    intro l lane' hl
    rw [hmade] at hl
    exact Option.map_eq_some_iff.mp hl
  have hnew : ∀ {l lane}, p.made[l]? = some lane → made[l]? = some (f l lane) := by
    intro l lane hl
    rw [hmade, hl]
    rfl
  have howns : ∀ d l, p.Owns d l → Owns { p with made := made } d l := by
    rintro d l ⟨lane, hl, hm, hheld⟩
    exact ⟨f l lane, hnew hl, (hmaker l lane).trans hm, by rw [hhost]; exact hheld⟩
  refine ⟨fun d q hd hq => ?_, h.waits, fun l lane' hl => ?_, fun host l hl => ?_,
    fun i ch hi => ?_, h.done, fun l lane' hl => ?_, h.closing, h.cleared⟩
  · have hfits := h.fits d q hd hq
    revert hfits
    cases q.pc with
    | preflight l rest => exact howns d l
    | closing l after =>
        exact fun ⟨hown, lane, hl, hs⟩ => ⟨howns d l hown, f l lane, hnew hl, hshut l lane hs⟩
    | ended outcome =>
        cases outcome with
        | channel i => exact id
        | _ => exact id
    | _ => exact id
  · obtain ⟨lane, hlane, rfl⟩ := hold hl
    rw [hhost, hmaker]
    rcases h.lanes l lane hlane with hstored | hs | hat
    · exact .inl hstored
    · exact .inr (.inl (hshut l lane hs))
    · exact .inr (.inr hat)
  · obtain ⟨lane, hlane, heq⟩ := h.stored host l hl
    exact ⟨f l lane, hnew hlane, (hhost l lane).trans heq⟩
  · obtain ⟨lane, hlane, hor⟩ := h.channels i ch hi
    exact ⟨f ch.lane lane, hnew hlane, by rw [hhost]; exact hor⟩
  · obtain ⟨lane, hlane, rfl⟩ := hold hl
    exact hcloses l lane hlane

/-- Channels change, each by itself, and nothing gets open again. -/
lemma channels_map (h : p.Sound v a) (f : ℕ → Channel → Channel) {channels : List Channel}
    (hchannels : ∀ i, channels[i]? = (p.channels[i]?).map (f i))
    (hlen : channels.length = p.channels.length)
    (hlane : ∀ i ch, (f i ch).lane = ch.lane)
    (hclosed : ∀ i ch, ch.closed = true → (f i ch).closed = true)
    (hdone : ∀ (i : ℕ) ch, p.channels[i]? = some ch → (f i ch).closeDone = true →
      (f i ch).closed = true) : Sound v a { p with channels := channels } := by
  have hold : ∀ {i : ℕ} {ch'}, channels[i]? = some ch' → ∃ ch, p.channels[i]? = some ch ∧
      f i ch = ch' := by
    intro i ch' hi
    rw [hchannels] at hi
    exact Option.map_eq_some_iff.mp hi
  refine ⟨fun d q hd hq => ?_, fun d q hd hq => ?_, h.lanes, h.stored, fun i ch' hi => ?_,
    fun i ch' hi => ?_, fun l lane hl => ?_, h.closing, fun hended =>
        ⟨(h.cleared hended).1, fun i ch' hi => ?_⟩⟩
  · have hfits := h.fits d q hd hq
    revert hfits
    cases q.pc with
    | ended outcome =>
        cases outcome with
        | channel i => exact fun hi => Nat.lt_of_lt_of_eq hi hlen.symm
        | _ => exact id
    | _ => exact id
  · exact (h.waits d q hd hq).mono hlen.ge
  · obtain ⟨ch, hch, rfl⟩ := hold hi
    rw [hlane]
    exact h.channels i ch hch
  · obtain ⟨ch, hch, rfl⟩ := hold hi
    exact hdone i ch hch
  · have hcloses := h.closes l lane hl
    have hnew : (∀ (i : ℕ) ch, p.channels[i]? = some ch → ch.lane = l → ch.closed = true) →
        ∀ (i : ℕ) ch', channels[i]? = some ch' → ch'.lane = l → ch'.closed = true := by
      intro hall i ch' hi hon
      obtain ⟨ch, hch, rfl⟩ := hold hi
      exact hclosed i ch (hall i ch hch ((hlane i ch).symm.trans hon))
    revert hcloses
    rw [Closes, Closes]
    cases lane.closer with
    | gathering ids =>
        refine fun ⟨hp, hl, hids⟩ => ⟨hp, hl, fun i ch' hi hon => ?_⟩
        obtain ⟨ch, hch, rfl⟩ := hold hi
        exact (hids i ch hch ((hlane i ch).symm.trans hon)).imp_right (hclosed i ch)
    | aclosing => exact fun ⟨hp, hs, hall⟩ => ⟨hp, hs, hnew hall⟩
    | ended => exact fun ⟨hp, hs, hall⟩ => ⟨hp, hs, hnew hall⟩
    | _ => exact id
  · obtain ⟨ch, hch, rfl⟩ := hold hi
    exact hclosed i ch ((h.cleared hended).2 i ch hch)

/-- A lane is shut. -/
lemma shut (h : p.Sound v a) (l : ℕ) : (p.shut l).Sound v a := by
  refine h.lanes_map (fun j lane => if l = j then { lane with closed := true, clientClosed := true }
    else lane) (fun j => ?_) (fun j lane => ?_) (fun j lane => ?_) (fun j lane hs => ?_)
    fun j lane hl => ?_
  · rw [List.getElem?_modify]
    rfl
  · split_ifs <;> rfl
  · split_ifs <;> rfl
  · split_ifs
    · exact ⟨rfl, rfl⟩
    · exact hs
  · have hcloses := h.closes j lane hl
    split_ifs
    · revert hcloses
      rw [Closes, Closes]
      cases lane.closer with
      | idle => exact id
      | created => exact id
      | notifying => exact fun ⟨hp, _⟩ => ⟨hp, rfl⟩
      | gathering ids => exact fun ⟨hp, _, hids⟩ => ⟨hp, rfl, hids⟩
      | _ => exact fun ⟨hp, _, hall⟩ => ⟨hp, ⟨rfl, rfl⟩, hall⟩
    · exact hcloses

/-- The lane that a setup task has made is stored, and the lock given back. -/
lemma store (h : p.Sound v none) (ho : p.calls[c]? = some o) (hopen : p.closed = false) {l : ℕ}
    {rest : List String} {lane : Lane} (hpc : o.pc = .preflight l rest)
    (hl : p.made[l]? = some lane) :
    Sound v (some c) ({ p with lanes := p.lanes.set lane.host l }.release lane.host) := by
  have hown : p.Owns c l := by
    have hfits := h.fits c o (by simp) ho
    rw [hpc] at hfits
    exact hfits
  obtain ⟨lane', hl', -, hholder, hnone⟩ := hown
  obtain rfl : lane' = lane := Option.some.inj (hl'.symm.trans hl)
  have hother : ∀ g, g ≠ lane'.host → (p.lanes.set lane'.host l).get? g = p.lanes.get? g :=
    fun g hg => Dict.get?_set_of_ne l hg
  have howns : ∀ d m, d ≠ c → p.Owns d m →
      Owns { p with lanes := p.lanes.set lane'.host l } d m := by
    rintro d m hd ⟨lane, hm, hmaker, hheld, hempty⟩
    refine ⟨lane, hm, hmaker, hheld, (hother _ fun hhost => hd ?_).trans hempty⟩
    rw [hhost, hholder] at hheld
    exact (Option.some.inj hheld).symm
  refine release (p := { p with lanes := p.lanes.set lane'.host l })
    ⟨fun d q hd hq => ?_, fun d q hd hq => ?_, fun m lane hm => ?_, fun g m hg => ?_,
      fun i ch hi => ?_, h.done, h.closes, h.closing, fun hended => ?_⟩ hholder
  · have hfits := h.fits d q (by simp) hq
    have hne : d ≠ c := fun heq => hd (congrArg some heq)
    revert hfits
    cases q.pc with
    | preflight m rest => exact howns d m hne
    | closing m after => exact fun ⟨hown, hs⟩ => ⟨howns d m hne hown, hs⟩
    | ended outcome =>
        cases outcome with
        | channel i => exact id
        | _ => exact id
    | _ => exact id
  · exact h.waits d q (by simp) hq
  · by_cases heq : m = l
    · subst heq
      obtain rfl : lane' = lane := Option.some.inj (hl'.symm.trans hm)
      exact .inl (Dict.get?_set_self ..)
    · rcases h.lanes m lane hm with hstored | hs | ⟨q, rest', -, hq, hat⟩
      · refine .inl ((hother _ fun hhost => ?_).trans hstored)
        rw [hhost, hnone] at hstored
        cases hstored
      · exact .inr (.inl hs)
      · refine .inr (.inr ⟨q, rest', fun hmaker => heq ?_, hq, hat⟩)
        rw [Option.some.inj hmaker, ho] at hq
        rw [← Option.some.inj hq, hpc] at hat
        exact ((SetupPc.preflight.inj hat).1).symm
  · by_cases hhost : g = lane'.host
    · subst hhost
      rw [Dict.get?_set_self] at hg
      exact ⟨lane', Option.some.inj hg ▸ hl', rfl⟩
    · rw [hother g hhost] at hg
      exact h.stored g m hg
  · obtain ⟨lane, hm, hstored | hended⟩ := h.channels i ch hi
    · refine ⟨lane, hm, .inl ((hother _ fun hhost => ?_).trans hstored)⟩
      rw [hhost, hnone] at hstored
      cases hstored
    · exact ⟨lane, hm, .inr hended⟩
  · refine absurd (h.closing ?_) (Bool.eq_false_iff.mp hopen)
    rw [show p.closer = .ended from hended]
    exact PoolClose.noConfusion

/-! ## A turn of the setup task -/

/-- The body of the loop under the lock. -/
lemma serve (h : p.Sound v (some c)) {q₀ : OpenCall} (ho : p.calls[c]? = some q₀)
    (hopen : p.closed = false) (hrun : Running v o) {host : String}
    (hfree : (p.locks host).holder = none) (rest : List String) :
    Sound v none (goto o c (p.serve c host rest)) := by
  rw [CfH2Pool.serve]
  cases hl : p.lanes.get? host with
  | some l =>
      refine (h.newChannel hopen hl).back ho ?_ (Running.waits hrun)
      show p.channels.length < (p.channels ++ [_]).length
      rw [List.length_append]
      exact Nat.lt_succ_self _
  | none =>
      -- the new lane is the last, and its host was free
      have hnew : ∀ m lane, (p.made ++ [⟨host, 0, false, false, c, .idle⟩])[m]? = some lane →
          p.made[m]? = some lane ∨ m = p.made.length ∧ lane =
              ⟨host, 0, false, false, c, .idle⟩ := by
        intro m lane hm
        exact (getElem?_concat.mp hm).imp_right fun ⟨hlen, heq⟩ => ⟨hlen, heq.symm⟩
      have hold : ∀ {m lane}, p.made[m]? = some lane →
          (p.made ++ [⟨host, 0, false, false, c, .idle⟩])[m]? = some lane :=
        fun hm => getElem?_concat.mpr (.inl hm)
      have hget := getElem?_setCall (o := { o with pc := .preflight p.made.length rest }) ho
      have howns : ∀ d m, p.Owns d m →
          Owns (goto o c ({ p.setLock host { p.locks host with holder := some c } with
            made := p.made ++ [⟨host, 0, false, false, c, .idle⟩] },
              .preflight p.made.length rest)) d m := by
        rintro d m ⟨lane, hm, hmaker, hheld, hnone⟩
        refine ⟨lane, hold hm, hmaker, ?_, hnone⟩
        have hhost : lane.host ≠ host := fun heq => by rw [heq, hfree] at hheld; cases hheld
        show (Function.update p.locks host _ lane.host).holder = _
        rw [Function.update_of_ne hhost]
        exact hheld
      refine ⟨fun d x hd hx => ?_, fun d x hd hx => ?_, fun m lane hm => ?_, fun g m hg => ?_,
        fun i ch hi => ?_, h.done, fun m lane hm => ?_, h.closing, h.cleared⟩
      · replace hx := (hget d).symm.trans hx
        split_ifs at hx with hcd
        · subst hcd
          rw [← Option.some.inj hx]
          refine ⟨⟨host, 0, false, false, c, .idle⟩, getElem?_concat.mpr (.inr ⟨rfl, rfl⟩), rfl, ?_,
            hl⟩
          show (Function.update p.locks host _ host).holder = _
          rw [Function.update_self]
        · have hfits := h.fits d x (fun heq => hcd (Option.some.inj heq.symm)) hx
          revert hfits
          cases x.pc with
          | preflight m rest => exact howns d m
          | closing m after =>
              exact fun ⟨hown, lane, hm, hs⟩ => ⟨howns d m hown, lane, hold hm, hs⟩
          | ended outcome =>
              cases outcome with
              | channel i => exact id
              | _ => exact id
          | _ => exact id
      · replace hx := (hget d).symm.trans hx
        split_ifs at hx with hcd
        · rw [← Option.some.inj hx]
          exact Running.waits hrun
        · exact h.waits d x (fun heq => hcd (Option.some.inj heq.symm)) hx
      · rcases hnew m lane hm with hm | ⟨rfl, rfl⟩
        · rcases h.lanes m lane hm with hstored | hs | ⟨x, rest', hne, hx, hat⟩
          · exact .inl hstored
          · exact .inr (.inl hs)
          · refine .inr (.inr ⟨x, rest', by simp, ?_, hat⟩)
            exact (hget _).trans ((if_neg fun hcd => hne (congrArg some hcd.symm)).trans hx)
        · refine .inr (.inr ⟨{ o with pc := .preflight p.made.length rest },
            rest, by simp, ?_, rfl⟩)
          exact (hget c).trans (if_pos rfl)
      · obtain ⟨lane, hm, hhost⟩ := h.stored g m hg
        exact ⟨lane, hold hm, hhost⟩
      · obtain ⟨lane, hm, hor⟩ := h.channels i ch hi
        exact ⟨lane, hold hm, hor⟩
      · rcases hnew m lane hm with hm | ⟨rfl, rfl⟩
        · exact h.closes m lane hm
        · trivial

/-- The body of the loop, and `continue`. -/
lemma enter (h : p.Sound v (some c)) {q₀ : OpenCall} (ho : p.calls[c]? = some q₀)
    (hrun : Running v o) {host : String} (hfree : (p.locks host).holder = none)
    (rest : List String) {next : CfH2Pool × SetupPc} (hnext : Sound v none (goto o c next)) :
    Sound v none (goto o c (p.enter c host rest next)) := by
  rw [CfH2Pool.enter]
  split_ifs with hclosed hcool
  · exact h.back ho trivial (Running.waits hrun)
  · exact hnext
  · exact h.serve ho (Bool.eq_false_iff.mpr hclosed) hrun hfree rest

/-- The loop over the domains. -/
lemma scan (h : p.Sound v (some c)) {q₀ : OpenCall} (ho : p.calls[c]? = some q₀)
    (hrun : Running v o) (dc : ℕ) (domains : List String) :
    Sound v none (goto o c (p.scan c dc domains)) := by
  induction domains with
  | nil => exact h.back ho trivial (Running.waits hrun)
  | cons baseDomain rest ih =>
      simp only [CfH2Pool.scan]
      split_ifs with hfree
      · exact h.enter ho hrun hfree.1 rest ih
      · refine (h.setLock ?_).back ho trivial (Running.waits hrun)
        rfl

/-- The first turn. -/
lemma begin (h : p.Sound v (some c)) {q₀ : OpenCall} (ho : p.calls[c]? = some q₀)
    (hrun : Running v o) : Sound v none (goto o c (p.begin c o)) := by
  rw [CfH2Pool.begin]
  split_ifs
  · exact h.back ho trivial (Running.waits hrun)
  · exact h.scan ho hrun o.dc o.domains
  · exact h.back ho trivial (Running.waits hrun)

/-- The waiter of a call changes, or its task is cancelled. -/
lemma touch (h : p.Sound v none) {q₀ : OpenCall} (ho : p.calls[c]? = some q₀) (hpc : o.pc = q₀.pc)
    (hwaits : Waits v p.channels.length o) : (p.setCall c o).Sound v none := by
  have hget := getElem?_setCall (o := o) ho
  refine ⟨fun d q hd hq => ?_, fun d q hd hq => ?_, fun l lane hl => ?_, h.stored, h.channels,
    h.done, h.closes, h.closing, h.cleared⟩
  · rw [hget] at hq
    split_ifs at hq with hcd
    · rw [← hcd, ← Option.some.inj hq, hpc]
      exact h.fits c q₀ (by simp) ho
    · exact h.fits d q (by simp) hq
  · rw [hget] at hq
    split_ifs at hq with hcd
    · exact Option.some.inj hq ▸ hwaits
    · exact h.waits d q (by simp) hq
  · rcases h.lanes l lane hl with hstored | hshut | ⟨q, rest, -, hq, hat⟩
    · exact .inl hstored
    · exact .inr (.inl hshut)
    · by_cases hcd : c = lane.maker
      · refine .inr (.inr ⟨o, rest, by simp, (hget _).trans (if_pos hcd), ?_⟩)
        rw [← hcd, ho] at hq
        rw [hpc, Option.some.inj hq, hat]
      · exact .inr (.inr ⟨q, rest, by simp, (hget _).trans ((if_neg hcd).trans hq), hat⟩)

/-- A call is made. -/
lemma addCall (h : p.Sound v none) (hfits : p.Fits p.calls.length o.pc)
    (hwaits : Waits v p.channels.length o) :
    Sound v none { p with calls := p.calls ++ [o] } := by
  refine ⟨fun d q hd hq => ?_, fun d q hd hq => ?_, fun l lane hl => ?_, h.stored, h.channels,
    h.done, h.closes, h.closing, h.cleared⟩
  · rcases getElem?_concat.mp hq with hq | ⟨rfl, rfl⟩
    · exact h.fits d q (by simp) hq
    · exact hfits
  · rcases getElem?_concat.mp hq with hq | ⟨rfl, rfl⟩
    · exact h.waits d q (by simp) hq
    · exact hwaits
  · rcases h.lanes l lane hl with hstored | hshut | ⟨q, rest, -, hq, hat⟩
    · exact .inl hstored
    · exact .inr (.inl hshut)
    · exact .inr (.inr ⟨q, rest, by simp, getElem?_concat.mpr (.inl hq), hat⟩)

/-! ## The events of a setup task -/

variable {p' : CfH2Pool}

lemma running (h : p.Sound v none) (ho : p.calls[c]? = some o) (hpc : ∀ r, o.pc ≠ .ended r) :
    Running v o :=
  (h.waits c o (by simp) ho).running hpc

lemma start (h : p.Sound v none) (ho : p.calls[c]? = some o) (hs : p.start c o = some p') :
    p'.Sound v none := by
  rw [CfH2Pool.start] at hs
  split_ifs at hs with hcreated
  refine Option.some.inj hs ▸ (h.aside ho ?_).begin ho (h.running ho ?_)
  · intro l rest lane hpc
    rw [hcreated.1] at hpc
    cases hpc
  · intro r hpc
    rw [hcreated.1] at hpc
    cases hpc

lemma grant (h : p.Sound v none) (ho : p.calls[c]? = some o) (hs : p.grant c o = some p') :
    p'.Sound v none := by
  rw [CfH2Pool.grant] at hs
  split at hs
  · rename_i baseDomain rest hpc
    dsimp only at hs
    split_ifs at hs with hfree
    have haside : p.Sound v (some c) := h.aside ho fun l rest lane hat _ => by
      rw [hpc] at hat
      cases hat
    have hrun : Running v o := h.running ho fun r hat => by
      rw [hpc] at hat
      cases hat
    have hleft : Sound v (some c) (p.setLock (kws o.dc baseDomain)
        { p.locks (kws o.dc baseDomain) with
          waiters := (p.locks (kws o.dc baseDomain)).waiters.tail }) := haside.setLock rfl
    refine Option.some.inj hs ▸ hleft.enter ho hrun ?_ rest (hleft.scan ho hrun o.dc rest)
    show (Function.update p.locks _ _ _).holder = none
    rw [Function.update_self]
    exact hfree.1
  · cases hs

/-- The lane of a preflight is shut, and its setup task waits for its `close()`. -/
lemma shutLane (h : p.Sound v none) {q : OpenCall} (ho : p.calls[c]? = some q) {l : ℕ}
    {rest : List String} (hpc : q.pc = .preflight l rest) (hrun : Running v o)
    (after : AfterClose) :
    Sound v none (goto o c (p.shut l, .closing l after)) := by
  have hshut := h.shut l
  have hown : (p.shut l).Owns c l := by
    have hfits := hshut.fits c q (by simp) ho
    rw [hpc] at hfits
    exact hfits
  obtain ⟨lane, hl, -⟩ := id hown
  have hflags : lane.Shut := by
    have hmodify : (p.made.modify l _)[l]? = some lane := hl
    rw [List.getElem?_modify] at hmodify
    obtain ⟨lane₀, -, rfl⟩ := Option.map_eq_some_iff.mp hmodify
    rw [if_pos rfl]
    exact ⟨rfl, rfl⟩
  refine (hshut.aside ho fun l' rest' lane' hpc' hl' => .inr ?_).back ho
    ⟨hown, lane, hl, hflags⟩ (Running.waits hrun)
  rw [hpc] at hpc'
  obtain rfl := (SetupPc.preflight.inj hpc').1
  exact Option.some.inj (hl.symm.trans hl') ▸ hflags

lemma preflightOk (h : p.Sound v none) (ho : p.calls[c]? = some o)
    (hs : p.preflightOk c o = some p') : p'.Sound v none := by
  rw [CfH2Pool.preflightOk] at hs
  split at hs
  · rename_i l rest hpc
    obtain ⟨lane, hl, rfl⟩ := Option.map_eq_some_iff.mp hs
    have hrun : Running v o := h.running ho fun r hat => by
      rw [hpc] at hat
      cases hat
    dsimp only
    split_ifs with hclosed
    · exact h.shutLane (o := { o with cancelled := false }) ho hpc hrun .late
    · have hopen := Bool.eq_false_iff.mpr hclosed
      refine ((h.store ho hopen hpc hl).newChannel hopen (Dict.get?_set_self ..)).back ho ?_
        (Running.waits hrun)
      show p.channels.length < (p.channels ++ [_]).length
      rw [List.length_append]
      exact Nat.lt_succ_self _
  · cases hs

lemma preflightFails (h : p.Sound v none) (ho : p.calls[c]? = some o)
    (hs : p.preflightFails c o = some p') : p'.Sound v none := by
  rw [CfH2Pool.preflightFails] at hs
  split at hs
  · rename_i l rest hpc
    obtain ⟨lane, hl, rfl⟩ := Option.map_eq_some_iff.mp hs
    have hrun : Running v o := h.running ho fun r hat => by
      rw [hpc] at hat
      cases hat
    have hframe : Sound v none
        { p with failedUntil := p.failedUntil.set lane.host (p.clock + domainCooldown) } :=
      h.frame rfl (fun _ => rfl) rfl rfl rfl rfl rfl
    exact hframe.shutLane (o := { o with cancelled := false }) ho hpc hrun (.next rest)
  · cases hs

/-- A setup task has closed the lane it made, and gives the lock back. -/
lemma unlock (h : p.Sound v none) (ho : p.calls[c]? = some o) {l : ℕ} {after : AfterClose}
    {lane : Lane} (hpc : o.pc = .closing l after) (hl : p.made[l]? = some lane) :
    (p.release lane.host).Sound v (some c) := by
  have hfits := h.fits c o (by simp) ho
  rw [hpc] at hfits
  obtain ⟨⟨lane', hl', -, hheld, -⟩, -⟩ := hfits
  obtain rfl : lane' = lane := Option.some.inj (hl'.symm.trans hl)
  refine (h.aside ho fun l rest lane hat _ => ?_).release hheld
  rw [hpc] at hat
  cases hat

lemma laneClosed (h : p.Sound v none) (ho : p.calls[c]? = some o)
    (hs : p.laneClosed c o = some p') : p'.Sound v none := by
  rw [CfH2Pool.laneClosed] at hs
  split at hs
  · rename_i l after hpc
    split_ifs at hs
    obtain ⟨lane, hl, rfl⟩ := Option.map_eq_some_iff.mp hs
    have hrun : Running v o := h.running ho fun r hat => by
      rw [hpc] at hat
      cases hat
    have hunlock := h.unlock ho hpc hl
    cases after with
    | next rest => exact hunlock.scan ho hrun o.dc rest
    | reraise => exact hunlock.back ho trivial (Running.waits hrun)
    | late => exact hunlock.back ho trivial (Running.waits hrun)
  · cases hs

lemma cancelled (h : p.Sound v none) (ho : p.calls[c]? = some o)
    (hs : p.cancelled c o = some p') : p'.Sound v none := by
  rw [CfH2Pool.cancelled] at hs
  dsimp only at hs
  split_ifs at hs
  have haside : (∀ l rest, o.pc ≠ .preflight l rest) → p.Sound v (some c) := fun hnot =>
    h.aside ho fun l rest _ hat _ => absurd hat (hnot l rest)
  have hrun : (∀ r, o.pc ≠ .ended r) → Running v { o with cancelled := false } := h.running ho
  split at hs
  · rename_i hpc
    refine Option.some.inj hs ▸ (haside fun l rest hat => ?_).back ho trivial
      (Running.waits (hrun fun r hat => ?_))
    · rw [hpc] at hat
      cases hat
    · rw [hpc] at hat
      cases hat
  · rename_i baseDomain rest hpc
    refine Option.some.inj hs ▸ ((haside fun l rest hat => ?_).setLock ?_).back ho trivial
      (Running.waits (hrun fun r hat => ?_))
    · rw [hpc] at hat
      cases hat
    · rfl
    · rw [hpc] at hat
      cases hat
  · rename_i l rest hpc
    refine Option.some.inj hs ▸ h.shutLane ho hpc (hrun fun r hat => ?_) .reraise
    rw [hpc] at hat
    cases hat
  · rename_i l after hpc
    obtain ⟨lane, hl, rfl⟩ := Option.map_eq_some_iff.mp hs
    refine (h.unlock ho hpc hl).back ho trivial (Running.waits (hrun fun r hat => ?_))
    rw [hpc] at hat
    cases hat
  · cases hs

/-! ## The events of a call -/

lemma openCall (h : p.Sound v none) (dc : ℕ) (domains : List String) :
    (p.openCall v dc domains).Sound v none := by
  rw [CfH2Pool.openCall]
  dsimp only
  split_ifs
  · exact h.addCall trivial ⟨⟨_, rfl⟩, by rintro _ ⟨⟩⟩
  · exact h.addCall trivial ⟨⟨_, rfl⟩, by rintro _ ⟨⟩⟩
  · have hadd := h.addCall (o := ⟨dc, domains, .created, false, .waiting⟩) trivial trivial
    have ho : (p.calls ++ [⟨dc, domains, .created, false, .waiting⟩])[p.calls.length]? =
        some ⟨dc, domains, .created, false, .waiting⟩ := getElem?_concat.mpr (.inr ⟨rfl, rfl⟩)
    exact (hadd.aside ho fun _ _ _ hat _ => by cases hat).begin ho trivial
  · exact h.addCall trivial trivial

lemma resume (h : p.Sound v none) (ho : p.calls[c]? = some o) (hs : p.resume v c o = some p') :
    p'.Sound v none := by
  rw [CfH2Pool.resume] at hs
  split at hs
  · cases hs
  · cases hs
  · rename_i outcome hpc _ _
    have hfinal : ∀ i, result v o.waiter outcome = .channel i → i < p.channels.length := by
      intro i hi
      have hfits := h.fits c o (by simp) ho
      rw [hpc, channel_of_result hi] at hfits
      exact hfits
    have htouch :
        (p.setCall c { o with waiter := .ended (result v o.waiter outcome) }).Sound v none :=
      h.touch ho rfl ⟨⟨outcome, hpc⟩, hfinal⟩
    refine Option.some.inj hs ▸ ?_
    split_ifs
    · exact htouch.frame rfl (fun _ => rfl) rfl rfl rfl rfl rfl
    · exact htouch
  · cases hs

lemma timeout (h : p.Sound v none) (ho : p.calls[c]? = some o) (hs : p.timeout c o = some p') :
    p'.Sound v none := by
  rw [CfH2Pool.timeout] at hs
  split at hs
  · cases hs
  · exact Option.some.inj hs ▸ h.touch ho rfl trivial
  · cases hs

lemma cancel (h : p.Sound v none) (ho : p.calls[c]? = some o) (hs : p.cancel v c o = some p') :
    p'.Sound v none := by
  have hchannel : ∀ {outcome i}, o.pc = .ended outcome → outcome = .channel i →
      i < p.channels.length := by
    intro outcome i hpc hi
    have hfits := h.fits c o (by simp) ho
    rw [hpc, hi] at hfits
    exact hfits
  rw [CfH2Pool.cancel] at hs
  split at hs
  · cases hs
  · cases hs
  · rename_i outcome hpc _
    exact Option.some.inj hs ▸ h.touch ho rfl ⟨⟨outcome, hpc⟩, fun i => hchannel hpc⟩
  · rename_i outcome hpc _ _ _
    refine Option.some.inj hs ▸ h.touch ho rfl ⟨⟨outcome, hpc⟩, fun i hi => ?_⟩
    split_ifs at hi
    exact hchannel hpc (channel_of_result hi)
  · refine Option.some.inj hs ▸ h.touch ho rfl ?_
    rw [Waits]
    split_ifs with hv
    · rw [hv]
      exact WaitFor.noConfusion
    · trivial
  · refine Option.some.inj hs ▸ ?_
    split_ifs with hv
    · exact h.touch ho rfl trivial
    · exact h.touch ho rfl hv

/-! ## The events of a channel and of `close()` -/

lemma laneFails (h : p.Sound v a) (l : ℕ) (t : ℤ) :
    Sound v a { p with made := p.made.modify l fun lane => { lane with failedUntil := t } } := by
  refine h.lanes_map (fun j lane => if l = j then { lane with failedUntil := t } else lane)
    (fun j => ?_) (fun j lane => ?_) (fun j lane => ?_) (fun j lane hs => ?_) fun j lane hl => ?_
  · rw [List.getElem?_modify]
    rfl
  · split_ifs <;> rfl
  · split_ifs <;> rfl
  · split_ifs
    · exact hs
    · exact hs
  · split_ifs
    · exact h.closes j lane hl
    · exact h.closes j lane hl

lemma channelCloses (h : p.Sound v a) (i : ℕ) :
    Sound v a { p with channels := p.channels.modify i fun ch => { ch with closed := true } } := by
  refine h.channels_map (fun j ch => if i = j then { ch with closed := true } else ch)
    (fun j => ?_) (List.length_modify ..) (fun j ch => ?_) (fun j ch hclosed => ?_)
    fun j ch hch hdone => ?_
  · rw [List.getElem?_modify]
    rfl
  · split_ifs <;> rfl
  · split_ifs
    · rfl
    · exact hclosed
  · split_ifs at hdone ⊢
    · rfl
    · exact h.done j ch hch hdone

lemma channelDone (h : p.Sound v a) {i : ℕ} {ch : Channel} (hi : p.channels[i]? = some ch)
    (hclosed : ch.closed = true) :
    Sound v a { p with channels := p.channels.set i { ch with closeDone := true } } := by
  refine h.channels_map (fun j x => if i = j then { x with closeDone := true } else x)
    (fun j => ?_) List.length_set (fun j x => ?_) (fun j x hx => ?_) fun j x hx hdone => ?_
  · rw [List.getElem?_set']
    split_ifs with hij
    · rw [← hij, hi]
      rfl
    · cases p.channels[j]? <;> rfl
  · split_ifs <;> rfl
  · split_ifs
    · exact hx
    · exact hx
  · split_ifs at hdone ⊢ with hij
    · rw [← hij, hi] at hx
      exact Option.some.inj hx ▸ hclosed
    · exact h.done j x hx hdone

/-- `close()` starts: nobody has closed a lane of the pool before. -/
lemma close (h : p.Sound v none) (hs : p.close = some p') : p'.Sound v none := by
  rw [CfH2Pool.close] at hs
  split_ifs at hs with hidle
  have hrunning : Sound v none { p with closed := true, closer := .running } := by
    refine ⟨h.fits, h.waits, h.lanes, h.stored, fun i ch hi => ?_, h.done, fun l lane hl => ?_,
      fun _ => rfl, PoolClose.noConfusion⟩
    · obtain ⟨lane, hl, hstored | hended⟩ := h.channels i ch hi
      · exact ⟨lane, hl, .inl hstored⟩
      · exact PoolClose.noConfusion (hidle.symm.trans hended)
    · have hcloses := h.closes l lane hl
      revert hcloses
      rw [Closes, Closes]
      cases lane.closer with
      | idle => exact id
      | created => exact fun _ => rfl
      | notifying => exact fun hf => ⟨rfl, hf.2⟩
      | gathering ids => exact fun hf => ⟨rfl, hf.2⟩
      | _ => exact fun hf => ⟨rfl, hf.2⟩
  refine Option.some.inj hs ▸ hrunning.lanes_map (fun l lane => if p.lanes.get? lane.host = some l
    then { lane with closer := .created } else lane) (fun l => ?_) (fun l lane => ?_)
    (fun l lane => ?_) (fun l lane hshut => ?_) fun l lane hl => ?_
  · rw [List.getElem?_mapIdx]
  · split_ifs <;> rfl
  · split_ifs <;> rfl
  · split_ifs
    · exact hshut
    · exact hshut
  · split_ifs
    · rfl
    · exact hrunning.closes l lane hl

/-- One lane of the pool changes. -/
lemma setLane (h : p.Sound v a) {l : ℕ} {lane : Lane} (hl : p.made[l]? = some lane)
    (f : Lane → Lane) (hhost : ∀ x, (f x).host = x.host) (hmaker : ∀ x, (f x).maker = x.maker)
    (hshut : ∀ x, x.Shut → (f x).Shut) (hcloses : p.Closes l (f lane)) :
    Sound v a { p with made := p.made.set l (f lane) } := by
  refine h.lanes_map (fun j x => if l = j then f x else x) (fun j => ?_) (fun j x => ?_)
    (fun j x => ?_) (fun j x hs => ?_) fun j x hx => ?_
  · rw [List.getElem?_set']
    split_ifs with hlj
    · rw [← hlj, hl]
      rfl
    · cases p.made[j]? <;> rfl
  · split_ifs
    · exact hhost x
    · rfl
  · split_ifs
    · exact hmaker x
    · rfl
  · split_ifs
    · exact hshut x hs
    · exact hs
  · split_ifs with hlj
    · subst hlj
      obtain rfl : lane = x := Option.some.inj (hl.symm.trans hx)
      exact hcloses
    · exact h.closes j x hx

lemma laneClose (h : p.Sound v a) {l : ℕ} {lane : Lane} (hl : p.made[l]? = some lane)
    (hs : p.laneClose l lane = some p') : p'.Sound v a := by
  have hcloses := h.closes l lane hl
  rw [Closes] at hcloses
  rw [CfH2Pool.laneClose] at hs
  cases hat : lane.closer with
  | idle =>
      simp only [hat] at hs
      cases hs
  | created =>
      simp only [hat] at hs hcloses
      exact Option.some.inj hs ▸ h.setLane hl
        (fun x => { x with closed := true, closer := .notifying }) (fun _ => rfl) (fun _ => rfl)
        (fun _ hx => ⟨rfl, hx.2⟩) ⟨hcloses, rfl⟩
  | notifying =>
      simp only [hat] at hs hcloses
      refine Option.some.inj hs ▸ h.setLane hl (fun x => { x with closer := .gathering _ })
        (fun _ => rfl) (fun _ => rfl) (fun _ hx => hx) ⟨hcloses.1, hcloses.2, fun i ch hi hon => ?_⟩
      cases hdone : ch.closeDone with
      | true => exact .inr (h.done i ch hi hdone)
      | false =>
          refine .inl (List.mem_filter.mpr ⟨List.mem_range.mpr ?_, ?_⟩)
          · exact (List.getElem?_eq_some_iff.mp hi).1
          · simp [hi, hon, hdone]
  | gathering ids =>
      simp only [hat] at hs hcloses
      split_ifs at hs with hall
      refine Option.some.inj hs ▸ h.setLane hl
        (fun x => { x with clientClosed := true, closer := .aclosing }) (fun _ => rfl)
        (fun _ => rfl) (fun _ hx => ⟨hx.1, rfl⟩) ⟨hcloses.1, ⟨hcloses.2.1, rfl⟩,
          fun i ch hi hon => (hcloses.2.2 i ch hi hon).elim (fun hmem => ?_) id⟩
      have hdone := List.all_eq_true.mp hall i hmem
      rw [hi] at hdone
      exact h.done i ch hi hdone
  | aclosing =>
      simp only [hat] at hs hcloses
      exact Option.some.inj hs ▸ h.setLane hl (fun x => { x with closer := .ended }) (fun _ => rfl)
        (fun _ => rfl) (fun _ hx => hx) hcloses
  | ended =>
      simp only [hat] at hs
      cases hs

/-- `close()` ends. -/
lemma closeEnds (h : p.Sound v none) (hs : p.closeEnds = some p') : p'.Sound v none := by
  rw [CfH2Pool.closeEnds] at hs
  split_ifs at hs with hall
  obtain ⟨hrunning, hall⟩ := hall
  -- a stored lane is closed, and so are its channels
  have hended : ∀ host l lane, p.lanes.get? host = some l → p.made[l]? = some lane →
      lane.Shut ∧ ∀ (i : ℕ) ch, p.channels[i]? = some ch → ch.lane = l → ch.closed = true := by
    intro host l lane hstored hl
    have hat := hall l (Dict.mem_values.mpr ⟨host, hstored⟩)
    rw [hl] at hat
    have hcloses := h.closes l lane hl
    rw [Closes, Option.some.inj hat] at hcloses
    exact hcloses.2
  refine Option.some.inj hs ▸ ⟨fun c o hc ho => ?_, h.waits, fun l lane hl => ?_, nofun,
    fun i ch hi => ?_, h.done, h.closes, fun _ => h.closing ?_,
    fun _ => ⟨fun _ => Dict.get?_empty .., fun i ch hi => ?_⟩⟩
  · have hfits := h.fits c o hc ho
    have howns : ∀ l, p.Owns c l → Owns { p with lanes := .empty, closer := .ended } c l :=
      fun l ⟨lane, hl, hmaker, hheld, _⟩ => ⟨lane, hl, hmaker, hheld, Dict.get?_empty ..⟩
    revert hfits
    cases o.pc with
    | preflight l rest => exact howns l
    | closing l after => exact fun ⟨hown, hshut⟩ => ⟨howns l hown, hshut⟩
    | ended outcome =>
        cases outcome with
        | channel i => exact id
        | _ => exact id
    | _ => exact id
  · rcases h.lanes l lane hl with hstored | hrest
    · exact .inr (.inl (hended _ l lane hstored hl).1)
    · exact .inr hrest
  · obtain ⟨lane, hl, -⟩ := h.channels i ch hi
    exact ⟨lane, hl, .inr rfl⟩
  · rw [hrunning]
    exact PoolClose.noConfusion
  · obtain ⟨lane, hl, hstored | hat⟩ := h.channels i ch hi
    · exact (hended _ ch.lane lane hstored hl).2 i ch hi rfl
    · exact PoolClose.noConfusion (hrunning.symm.trans hat)

/-! ## Runs -/

lemma step (h : p.Sound v none) (e : Event) (hs : step v e p = some p') : p'.Sound v none := by
  cases e with
  | tick elapsed => exact Option.some.inj hs ▸ h.frame rfl (fun _ => rfl) rfl rfl rfl rfl rfl
  | openCall dc domains => exact Option.some.inj hs ▸ h.openCall dc domains
  | start c =>
      obtain ⟨o, ho, hs⟩ := Option.bind_eq_some_iff.mp hs
      exact h.start ho hs
  | grant c =>
      obtain ⟨o, ho, hs⟩ := Option.bind_eq_some_iff.mp hs
      exact h.grant ho hs
  | preflightOk c =>
      obtain ⟨o, ho, hs⟩ := Option.bind_eq_some_iff.mp hs
      exact h.preflightOk ho hs
  | preflightFails c =>
      obtain ⟨o, ho, hs⟩ := Option.bind_eq_some_iff.mp hs
      exact h.preflightFails ho hs
  | laneClosed c =>
      obtain ⟨o, ho, hs⟩ := Option.bind_eq_some_iff.mp hs
      exact h.laneClosed ho hs
  | cancelled c =>
      obtain ⟨o, ho, hs⟩ := Option.bind_eq_some_iff.mp hs
      exact h.cancelled ho hs
  | resume c =>
      obtain ⟨o, ho, hs⟩ := Option.bind_eq_some_iff.mp hs
      exact h.resume ho hs
  | timeout c =>
      obtain ⟨o, ho, hs⟩ := Option.bind_eq_some_iff.mp hs
      exact h.timeout ho hs
  | cancel c =>
      obtain ⟨o, ho, hs⟩ := Option.bind_eq_some_iff.mp hs
      exact h.cancel ho hs
  | laneFails l => exact Option.some.inj hs ▸ h.laneFails l _
  | channelCloses i => exact Option.some.inj hs ▸ h.channelCloses i
  | channelDone i =>
      obtain ⟨ch, hi, hs⟩ := Option.bind_eq_some_iff.mp hs
      split_ifs at hs with hclosed
      exact Option.some.inj hs ▸ h.channelDone hi hclosed
  | close => exact h.close hs
  | laneClose l =>
      obtain ⟨lane, hl, hs⟩ := Option.bind_eq_some_iff.mp hs
      exact h.laneClose hl hs
  | closeEnds => exact h.closeEnds hs

end CfH2Pool.Sound

/-- A new pool. -/
lemma Starting.sound {v : WaitFor} {p : CfH2Pool} (h : Starting p) : p.Sound v none := by
  obtain ⟨hlanes, -, -, hcloser, hmade, hchannels, hcalls⟩ := h
  refine ⟨fun c o _ ho => ?_, fun c o _ ho => ?_, fun l lane hl => ?_, fun host l hl => ?_,
    fun i ch hi => ?_, fun i ch hi => ?_, fun l lane hl => ?_, fun hne => (hne hcloser).elim,
    fun hended => PoolClose.noConfusion (hcloser.symm.trans hended)⟩
  · rw [hcalls] at ho
    cases ho
  · rw [hcalls] at ho
    cases ho
  · rw [hmade] at hl
    cases hl
  · rw [hlanes] at hl
    cases hl
  · rw [hchannels] at hi
    cases hi
  · rw [hchannels] at hi
    cases hi
  · rw [hmade] at hl
    cases hl

theorem Reaches.sound {v : WaitFor} {p : CfH2Pool} (h : Reaches v p) : p.Sound v none :=
  h.invariant (fun _ hs => hs.sound) fun _ e _ _ hp _ hs => hp.step e hs

end TgWsProxy.H2Pool
