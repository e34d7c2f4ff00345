import TgWsProxy.Core.Dict
import TgWsProxy.Core.Registry
import TgWsProxy.Core.Transition
import Mathlib

/-!
# The direct fallback

`_tcp_fallback` of `proxy/bridge.py`: calls that see one another only through three maps.

* `Fallbacks`, `Fallbacks.step` — the maps and the calls, each suspended in one of its awaits.
* `Dials` — a call that holds the mark of its endpoint.
* `Orderly` — one dial at a time; the maps record the failures since the last success; and what a
  call has opened it closes.
* **`tcpFallback_orderly`** — every run is orderly.
-/

namespace TgWsProxy.TcpFallback

open Wire

/-! ## The code -/

/-- `TCP_BACKOFF_INITIAL`. -/
def tcpBackoffInitial : ℚ := 30

/-- `TCP_BACKOFF_MAX`. -/
def tcpBackoffMax : ℚ := 3600

/-- The delay after so many failures. -/
def backoff (failures : ℕ) : ℚ := min (tcpBackoffInitial * 2 ^ min (failures - 1) 7) tcpBackoffMax

/-- How a call ends. -/
inductive Result
  | returned (ok : Bool)
  | raised
  deriving DecidableEq, Repr

/-- Where a call is suspended: in the dial, in `drain` behind `relay_init`, in the bridge, in
`wait_closed`; or it has ended. -/
inductive Phase
  | dialling
  | sending
  | bridging
  | closing (result : Result)
  | ended (result : Result)
  deriving DecidableEq, Repr

/-- A call of `_tcp_fallback(…, dst, port, …)`: its endpoint `(dst, port)`, where it is, and
`rw`. -/
structure Call (κ : Type*) where
  key : κ
  phase : Phase
  rw : Option ℕ
  deriving DecidableEq

/-- The maps of the module, the calls and the clock.  For the record: the writers that are closed,
and for every endpoint how often it has failed since its last success, and when it failed last. -/
structure Fallbacks (κ : Type*) where
  tcpFailures : Dict κ ℕ
  tcpRetryAfter : Dict κ ℚ
  tcpConnecting : Finset κ
  calls : List (Call κ)
  now : ℚ
  closed : List ℕ
  streak : κ → ℕ
  failedAt : κ → ℚ

/-- What can happen next.  `wrote` says whether `write` goes through; a dial fails when it raises
or times out; the bridge and `wait_closed` end or raise. -/
inductive Event (κ : Type*)
  | tick (t : ℚ)
  | call (key : κ)
  | dialled (i rw : ℕ) (wrote : Bool)
  | dialFailed (i : ℕ)
  | drained (i : ℕ)
  | drainFailed (i : ℕ)
  | bridged (i : ℕ) (ok : Bool)
  | waitedClosed (i : ℕ) (ok : Bool)
  | cancelled (i : ℕ)
  deriving DecidableEq

variable {κ : Type*}

/-- The call that takes a step. -/
def Event.call? : Event κ → Option ℕ
  | .tick _ => none
  | .call _ => none
  | .dialled i _ _ => some i
  | .dialFailed i => some i
  | .drained i => some i
  | .drainFailed i => some i
  | .bridged i _ => some i
  | .waitedClosed i _ => some i
  | .cancelled i => some i

/-- A dial is refused or times out, or `relay_init` cannot be written or drained. -/
def Event.fails : Event κ → Bool
  | .dialled _ _ wrote => !wrote
  | .dialFailed _ => true
  | .drainFailed _ => true
  | _ => false

variable [DecidableEq κ]

/-- `_tcp_retry_after.get(key, 0)`. -/
def Fallbacks.retryAfter (s : Fallbacks κ) (key : κ) : ℚ := (s.tcpRetryAfter.get? key).getD 0

namespace Fallbacks

/-- Call `i` becomes `c`. -/
def put (i : ℕ) (c : Call κ) (s : Fallbacks κ) : Fallbacks κ := { s with calls := s.calls.set i c }

/-- `_tcp_connecting.discard(key)`. -/
def discard (key : κ) (s : Fallbacks κ) : Fallbacks κ :=
  { s with tcpConnecting := s.tcpConnecting.erase key }

/-- The handler of `except Exception`. -/
def fail (key : κ) (s : Fallbacks κ) : Fallbacks κ :=
  let failures := (s.tcpFailures.get? key).getD 0 + 1
  { s with
    tcpFailures := s.tcpFailures.set key failures
    tcpRetryAfter := s.tcpRetryAfter.set key (s.now + backoff failures)
    streak := Function.update s.streak key (s.streak key + 1)
    failedAt := Function.update s.failedAt key s.now }

/-- Behind the inner `try`, when it has succeeded. -/
def succeed (key : κ) (s : Fallbacks κ) : Fallbacks κ :=
  { s with
    tcpFailures := s.tcpFailures.erase key
    tcpRetryAfter := s.tcpRetryAfter.erase key
    streak := Function.update s.streak key 0 }

/-- The outer `finally` of call `i`, up to its await. -/
def leave (i : ℕ) (c : Call κ) (result : Result) (s : Fallbacks κ) : Fallbacks κ :=
  match c.rw with
  | none => s.put i { c with phase := .ended result }
  | some rw => { s with closed := s.closed ++ [rw] }.put i { c with phase := .closing result }

/-- A step of call `i`. -/
def callStep (i : ℕ) (c : Call κ) (s : Fallbacks κ) : Event κ → Option (Fallbacks κ)
  | .dialled _ rw wrote =>
      if c.phase = .dialling then
        let c := { c with rw := some rw }
        if wrote then some (s.put i { c with phase := .sending })
        else some (((s.fail c.key).discard c.key).leave i c (.returned false))
      else none
  | .dialFailed _ =>
      if c.phase = .dialling then
        some (((s.fail c.key).discard c.key).leave i c (.returned false))
      else none
  | .drained _ =>
      if c.phase = .sending then
        some (((s.discard c.key).succeed c.key).put i { c with phase := .bridging })
      else none
  | .drainFailed _ =>
      if c.phase = .sending then
        some (((s.fail c.key).discard c.key).leave i c (.returned false))
      else none
  | .bridged _ ok =>
      if c.phase = .bridging then some (s.leave i c (if ok then .returned true else .raised))
      else none
  | .waitedClosed _ ok =>
      match c.phase with
      | .closing result =>
          some (s.put i { c with phase := .ended (if ok then result else .raised) })
      | _ => none
  | .cancelled _ =>
      match c.phase with
      | .dialling => some ((s.discard c.key).leave i c .raised)
      | .sending => some ((s.discard c.key).leave i c .raised)
      | .bridging => some (s.leave i c .raised)
      | .closing _ => some (s.put i { c with phase := .ended .raised })
      | .ended _ => none
  | _ => none

/-- One step.  A writer that a dial returns is nobody else's. -/
def step (e : Event κ) (s : Fallbacks κ) : Option (Fallbacks κ) :=
  match e with
  | .tick t => if s.now ≤ t then some { s with now := t } else none
  | .call key =>
      if key ∈ s.tcpConnecting ∨ s.now < s.retryAfter key then
        some { s with calls := s.calls ++ [⟨key, .ended (.returned false), none⟩] }
      else
        some { s with
          tcpConnecting := insert key s.tcpConnecting
          calls := s.calls ++ [⟨key, .dialling, none⟩] }
  | .dialled i rw _ =>
      if ∃ c ∈ s.calls, c.rw = some rw then none else (s.calls[i]?).bind fun c => s.callStep i c e
  | _ => e.call?.bind fun i => (s.calls[i]?).bind fun c => s.callStep i c e

/-- The module as it is loaded. -/
def Starting (s : Fallbacks κ) : Prop :=
  s.tcpFailures = .empty ∧ s.tcpRetryAfter = .empty ∧ s.tcpConnecting = ∅ ∧ s.calls = [] ∧
    s.streak = fun _ => 0

/-- Any calls, interleaved in any way. -/
def Reaches (s : Fallbacks κ) : Prop := Reachable Starting step Always s

end Fallbacks

/-! ## Dials -/

/-- The call holds the mark of its endpoint: it dials, or sends `relay_init`. -/
def Phase.Holds (p : Phase) : Prop := p = .dialling ∨ p = .sending

instance (p : Phase) : Decidable p.Holds := inferInstanceAs (Decidable (_ ∨ _))

/-- What a call has opened when it is past its bridge, or has not opened yet. -/
def Call.Tidy (closed : List ℕ) (c : Call κ) : Prop :=
  match c.phase with
  | .dialling => c.rw = none
  | .closing _ => ∀ rw ∈ c.rw, rw ∈ closed
  | .ended _ => ∀ rw ∈ c.rw, rw ∈ closed
  | _ => True

namespace Fallbacks

/-- Call `i` dials `key` or sends to it. -/
def Dials (s : Fallbacks κ) (i : ℕ) (key : κ) : Prop :=
  ∃ c, s.calls[i]? = some c ∧ c.key = key ∧ c.phase.Holds

/-- **The order among the calls.**  An endpoint is marked exactly while a call dials it or sends to
it, and there is one such call; the maps hold the failures since its last success and the end of the
backoff that they earn; and a call that has ended has closed what it opened. -/
structure Orderly (s : Fallbacks κ) : Prop where
  marked : ∀ key, key ∈ s.tcpConnecting ↔ ∃ i, s.Dials i key
  single : ∀ i j key, s.Dials i key → s.Dials j key → i = j
  failures : ∀ key, (s.tcpFailures.get? key).getD 0 = s.streak key
  deadline : ∀ key, s.tcpRetryAfter.get? key =
    if s.streak key = 0 then none else some (s.failedAt key + backoff (s.streak key))
  tidy : ∀ (i : ℕ) (c : Call κ), s.calls[i]? = some c → c.Tidy s.closed

variable {s s' : Fallbacks κ} {i : ℕ} {c c' : Call κ}

omit [DecidableEq κ] in
lemma dials_set (hc : s.calls[i]? = some c) (hkey : c'.key = c.key)
    (hcalls : s'.calls = s.calls.set i c') (j : ℕ) (key : κ) :
    s'.Dials j key ↔ if j = i then c.key = key ∧ c'.phase.Holds else s.Dials j key := by
  simp only [Dials, hcalls]
  split_ifs with hij
  · subst hij
    rw [List.getElem?_set_self (List.getElem?_eq_some_iff.mp hc).1]
    simp [hkey]
  · rw [List.getElem?_set_ne (Ne.symm hij)]

omit [DecidableEq κ] in
lemma dials_self (hc : s.calls[i]? = some c) (key : κ) :
    s.Dials i key ↔ c.key = key ∧ c.phase.Holds := by
  simp [Dials, hc]

omit [DecidableEq κ] in
lemma dials_concat {key k : κ} {r : Phase} (hcalls : s'.calls = s.calls ++ [⟨k, r, none⟩]) (j : ℕ) :
    s'.Dials j key ↔ s.Dials j key ∨ j = s.calls.length ∧ k = key ∧ r.Holds := by
  simp only [Dials, hcalls, getElem?_concat]
  constructor
  · rintro ⟨c, hc | ⟨rfl, rfl⟩, hkey, hholds⟩
    · exact .inl ⟨c, hc, hkey, hholds⟩
    · exact .inr ⟨rfl, hkey, hholds⟩
  · rintro (⟨c, hc, hkey, hholds⟩ | ⟨rfl, hkey, hholds⟩)
    · exact ⟨c, .inl hc, hkey, hholds⟩
    · exact ⟨_, .inr ⟨rfl, rfl⟩, hkey, hholds⟩

omit [DecidableEq κ] in
/-- What is closed stays closed. -/
lemma Tidy.mono {l l' : List ℕ} (h : c.Tidy l) (hl : l ⊆ l') : c.Tidy l' := by
  rw [Call.Tidy] at h ⊢
  split at h
  · exact h
  · exact fun rw hrw => hl (h rw hrw)
  · exact fun rw hrw => hl (h rw hrw)
  · trivial

omit [DecidableEq κ] in
lemma leave_of_none {result : Result} (hrw : c.rw = none) :
    s.leave i c result = s.put i { c with phase := .ended result } := by
  rw [leave]
  split
  · rfl
  · next rw h => rw [hrw] at h; cases h

omit [DecidableEq κ] in
lemma leave_of_some {result : Result} {rw : ℕ} (hrw : c.rw = some rw) :
    s.leave i c result =
      { s with closed := s.closed ++ [rw] }.put i { c with phase := .closing result } := by
  rw [leave]
  split
  · next h => rw [hrw] at h; cases h
  · next rw' h =>
      rw [hrw] at h
      rw [Option.some.inj h]

namespace Orderly

/-- A call moves on: it keeps its mark, gives it up, or had none. -/
lemma move (h : Orderly s) (hc : s.calls[i]? = some c) (c' : Call κ) (s' : Fallbacks κ)
    (hkey : c'.key = c.key) (hcalls : s'.calls = s.calls.set i c')
    (hholds : c'.phase.Holds → c.phase.Holds)
    (hmark : ∀ key, key ∈ s'.tcpConnecting ↔ key ∈ s.tcpConnecting ∧
      (key = c.key → c.phase.Holds → c'.phase.Holds))
    (hf : ∀ key, (s'.tcpFailures.get? key).getD 0 = s'.streak key)
    (hr : ∀ key, s'.tcpRetryAfter.get? key =
      if s'.streak key = 0 then none else some (s'.failedAt key + backoff (s'.streak key)))
    (hclosed : s.closed ⊆ s'.closed) (hc' : c'.Tidy s'.closed) : Orderly s' := by
  have hdials := dials_set hc hkey hcalls
  have hsub : ∀ j key, s'.Dials j key → s.Dials j key := by
    intro j key hj
    have hj := (hdials j key).mp hj
    by_cases hij : j = i
    · subst hij
      rw [if_pos rfl] at hj
      exact (dials_self hc key).mpr ⟨hj.1, hholds hj.2⟩
    · rwa [if_neg hij] at hj
  refine ⟨fun key => ?_, fun j k key hj hk => h.single j k key (hsub j key hj) (hsub k key hk), hf,
    hr, fun j d hd => ?_⟩
  · rw [hmark, h.marked]
    constructor
    · rintro ⟨⟨j, hj⟩, hgives⟩
      refine ⟨j, (hdials j key).mpr ?_⟩
      by_cases hij : j = i
      · subst hij
        rw [if_pos rfl]
        obtain ⟨rfl, hheld⟩ := (dials_self hc key).mp hj
        exact ⟨rfl, hgives rfl hheld⟩
      · rwa [if_neg hij]
    · rintro ⟨j, hj⟩
      have hold := hsub j key hj
      refine ⟨⟨j, hold⟩, ?_⟩
      rintro rfl hheld
      obtain rfl := h.single j i c.key hold ((dials_self hc c.key).mpr ⟨rfl, hheld⟩)
      have hj := (hdials j c.key).mp hj
      rw [if_pos rfl] at hj
      exact hj.2
  · rw [hcalls] at hd
    rcases List.mem_or_eq_of_mem_set (List.mem_of_getElem? hd) with hmem | rfl
    · obtain ⟨k, hk⟩ := List.getElem?_of_mem hmem
      exact Tidy.mono (h.tidy k d hk) hclosed
    · exact hc'

/-- The maps behind a failure. -/
lemma fail_maps (h : Orderly s) (key : κ) :
    (∀ k, ((s.fail key).tcpFailures.get? k).getD 0 = (s.fail key).streak k) ∧
      ∀ k, (s.fail key).tcpRetryAfter.get? k =
        if (s.fail key).streak k = 0 then none
        else some ((s.fail key).failedAt k + backoff ((s.fail key).streak k)) := by
  constructor
  · intro k
    by_cases hk : k = key
    · subst hk
      simp [fail, Dict.get?_set_self, h.failures]
    · simp [fail, Dict.get?_set_of_ne _ hk, Function.update_of_ne hk, h.failures k]
  · intro k
    by_cases hk : k = key
    · subst hk
      simp [fail, Dict.get?_set_self, h.failures]
    · simp [fail, Dict.get?_set_of_ne _ hk, Function.update_of_ne hk, h.deadline k]

/-- The maps behind a success. -/
lemma succeed_maps (h : Orderly s) (key : κ) :
    (∀ k, ((s.succeed key).tcpFailures.get? k).getD 0 = (s.succeed key).streak k) ∧
      ∀ k, (s.succeed key).tcpRetryAfter.get? k =
        if (s.succeed key).streak k = 0 then none
        else some ((s.succeed key).failedAt k + backoff ((s.succeed key).streak k)) := by
  constructor
  · intro k
    by_cases hk : k = key
    · subst hk
      simp [succeed, Dict.get?_erase_self]
    · simp [succeed, Dict.get?_erase_of_ne hk, Function.update_of_ne hk, h.failures k]
  · intro k
    by_cases hk : k = key
    · subst hk
      simp [succeed, Dict.get?_erase_self]
    · simp [succeed, Dict.get?_erase_of_ne hk, Function.update_of_ne hk, h.deadline k]

/-- A call leaves through its outer `finally`, with its mark removed before. -/
lemma leave (h : Orderly s) (hc : s.calls[i]? = some c) (d : Call κ) (w : Fallbacks κ)
    (result : Result) (hkey : d.key = c.key) (hcalls : w.calls = s.calls)
    (hclosed : w.closed = s.closed)
    (hmark : ∀ key, key ∈ w.tcpConnecting ↔ key ∈ s.tcpConnecting ∧
      (key = c.key → ¬ c.phase.Holds))
    (hf : ∀ key, (w.tcpFailures.get? key).getD 0 = w.streak key)
    (hr : ∀ key, w.tcpRetryAfter.get? key =
      if w.streak key = 0 then none else some (w.failedAt key + backoff (w.streak key))) :
    Orderly (w.leave i d result) := by
  have hends : ∀ p : Phase, ¬ p.Holds → ∀ key, key ∈ w.tcpConnecting ↔ key ∈ s.tcpConnecting ∧
      (key = c.key → c.phase.Holds → p.Holds) := by
    intro p hp key
    rw [hmark]
    refine and_congr_right fun _ => forall_congr' fun _ => ?_
    exact ⟨fun hn hheld => absurd hheld hn, fun hn hheld => hp (hn hheld)⟩
  cases hrw : d.rw with
  | none =>
      rw [leave_of_none hrw]
      refine h.move hc { d with phase := .ended result } _ hkey (by rw [← hcalls]; rfl) ?_
          (hends _ ?_) hf hr (by rw [← hclosed]; exact fun _ => id) ?_
      · rintro (hp | hp) <;> cases hp
      · rintro (hp | hp) <;> cases hp
      · rintro rw (hw : d.rw = some rw)
        rw [hrw] at hw
        cases hw
  | some rw =>
      rw [leave_of_some hrw]
      refine h.move hc { d with phase := .closing result } _ hkey (by rw [← hcalls]; rfl) ?_
          (hends _ ?_) hf hr ?_ ?_
      · rintro (hp | hp) <;> cases hp
      · rintro (hp | hp) <;> cases hp
      · rw [← hclosed]
        exact List.subset_append_left _ _
      · rintro rw' (hw : d.rw = some rw')
        rw [hrw] at hw
        obtain rfl := Option.some.inj hw
        exact List.mem_append_right _ (List.mem_singleton_self _)

/-- A call ends behind `wait_closed`. -/
lemma waited (h : Orderly s) (hc : s.calls[i]? = some c) {result : Result}
    (hphase : c.phase = .closing result) (last : Result) :
    Orderly (s.put i { c with phase := .ended last }) := by
  have htidy := h.tidy i c hc
  rw [Call.Tidy, hphase] at htidy
  have hfree : ∀ r : Result, ¬ (Phase.ended r).Holds := by
    rintro r (hp | hp) <;> cases hp
  refine h.move hc { c with phase := .ended last } _ rfl rfl (fun hp => absurd hp (hfree last))
    (fun key => ?_) h.failures h.deadline (fun _ => id) htidy
  refine ⟨fun hmem => ⟨hmem, fun _ hheld => ?_⟩, And.left⟩
  rw [hphase] at hheld
  rcases hheld with hp | hp <;> cases hp

/-- **A step of a call.** -/
lemma callStep (h : Orderly s) (hc : s.calls[i]? = some c) {e : Event κ}
    (hs : s.callStep i c e = some s') : Orderly s' := by
  have hdiscard : ∀ {p : Phase}, c.phase = p → p.Holds → ∀ key,
      key ∈ s.tcpConnecting.erase c.key ↔ key ∈ s.tcpConnecting ∧
          (key = c.key → ¬ c.phase.Holds) := by
    intro p hphase hp key
    rw [Finset.mem_erase, hphase]
    constructor
    · exact fun ⟨hne, hmem⟩ => ⟨hmem, fun heq => absurd heq hne⟩
    · exact fun ⟨hmem, hne⟩ => ⟨fun heq => hne heq hp, hmem⟩
  have hkeep : ¬ c.phase.Holds → ∀ key,
      key ∈ s.tcpConnecting ↔ key ∈ s.tcpConnecting ∧
          (key = c.key → ¬ c.phase.Holds) := fun hn key =>
    ⟨fun hmem => ⟨hmem, fun _ => hn⟩, And.left⟩
  cases e with
  | tick t => cases hs
  | call key => cases hs
  | dialled j rw wrote =>
      rw [Fallbacks.callStep] at hs
      split_ifs at hs with hphase hwrote
      · obtain rfl := Option.some.inj hs
        refine h.move hc { c with rw := some rw, phase := .sending } _ rfl rfl
          (fun _ => .inl hphase) (fun key => ?_) h.failures h.deadline (fun _ => id) trivial
        exact ⟨fun hmem => ⟨hmem, fun _ _ => .inr rfl⟩, And.left⟩
      · obtain rfl := Option.some.inj hs
        exact h.leave hc { c with rw := some rw } ((s.fail c.key).discard c.key) _ rfl rfl rfl
          (hdiscard hphase (.inl rfl)) (h.fail_maps c.key).1 (h.fail_maps c.key).2
  | dialFailed j =>
      rw [Fallbacks.callStep] at hs
      split_ifs at hs with hphase
      obtain rfl := Option.some.inj hs
      exact h.leave hc c ((s.fail c.key).discard c.key) _ rfl rfl rfl
        (hdiscard hphase (.inl rfl)) (h.fail_maps c.key).1 (h.fail_maps c.key).2
  | drained j =>
      rw [Fallbacks.callStep] at hs
      split_ifs at hs with hphase
      obtain rfl := Option.some.inj hs
      have hfree : ¬ Phase.bridging.Holds := by decide
      refine h.move hc { c with phase := .bridging } _ rfl rfl (fun hp => absurd hp hfree)
        (fun key => ?_) (h.succeed_maps c.key).1 (h.succeed_maps c.key).2 (fun _ => id) trivial
      refine (hdiscard hphase (.inr rfl) key).trans
        (and_congr_right fun _ => forall_congr' fun _ => ?_)
      exact ⟨fun hn hheld => absurd hheld hn, fun hn hheld => hfree (hn hheld)⟩
  | drainFailed j =>
      rw [Fallbacks.callStep] at hs
      split_ifs at hs with hphase
      obtain rfl := Option.some.inj hs
      exact h.leave hc c ((s.fail c.key).discard c.key) _ rfl rfl rfl
        (hdiscard hphase (.inr rfl)) (h.fail_maps c.key).1 (h.fail_maps c.key).2
  | bridged j ok =>
      rw [Fallbacks.callStep] at hs
      split_ifs at hs with hphase
      all_goals
        obtain rfl := Option.some.inj hs
        exact h.leave hc c s _ rfl rfl rfl (hkeep (by rw [hphase]; decide)) h.failures h.deadline
  | waitedClosed j ok =>
      rw [Fallbacks.callStep] at hs
      split at hs
      · next result hphase =>
          obtain rfl := Option.some.inj hs
          exact h.waited hc hphase _
      · cases hs
  | cancelled j =>
      rw [Fallbacks.callStep] at hs
      split at hs
      · next hphase =>
          obtain rfl := Option.some.inj hs
          exact h.leave hc c (s.discard c.key) _ rfl rfl rfl (hdiscard hphase (.inl rfl))
            h.failures h.deadline
      · next hphase =>
          obtain rfl := Option.some.inj hs
          exact h.leave hc c (s.discard c.key) _ rfl rfl rfl (hdiscard hphase (.inr rfl))
            h.failures h.deadline
      · next hphase =>
          obtain rfl := Option.some.inj hs
          exact h.leave hc c s _ rfl rfl rfl (hkeep (by rw [hphase]; decide)) h.failures h.deadline
      · next result hphase =>
          obtain rfl := Option.some.inj hs
          exact h.waited hc hphase _
      · cases hs

/-- A call that is passed over. -/
lemma skip (h : Orderly s) (key : κ) :
    Orderly { s with calls := s.calls ++ [⟨key, .ended (.returned false), none⟩] } := by
  have hfree : ∀ r : Result, ¬ (Phase.ended r).Holds := by
    rintro r (hp | hp) <;> cases hp
  have hdials : ∀ (w : Fallbacks κ),
      w.calls = s.calls ++ [⟨key, .ended (.returned false), none⟩] → ∀ j k,
        w.Dials j k ↔ s.Dials j k := by
    intro w hw j k
    rw [dials_concat hw]
    exact or_iff_left fun hn => hfree _ hn.2.2
  refine ⟨fun k => ?_, fun i j k hi hj => ?_, h.failures, h.deadline, fun i c hc => ?_⟩
  · rw [h.marked]
    exact exists_congr fun j => (hdials _ rfl j k).symm
  · exact h.single i j k ((hdials _ rfl i k).mp hi) ((hdials _ rfl j k).mp hj)
  · rcases getElem?_concat.mp hc with hc | ⟨-, rfl⟩
    · exact h.tidy i c hc
    · rintro rw hrw
      cases hrw

/-- A call that dials: nobody else does, for its endpoint carries no mark. -/
lemma dial (h : Orderly s) {key : κ} (hkey : key ∉ s.tcpConnecting) :
    Orderly { s with
      tcpConnecting := insert key s.tcpConnecting
      calls := s.calls ++ [⟨key, .dialling, none⟩] } := by
  have hdials : ∀ (w : Fallbacks κ), w.calls = s.calls ++ [⟨key, .dialling, none⟩] → ∀ j k,
      w.Dials j k ↔ s.Dials j k ∨ j = s.calls.length ∧ key = k := by
    intro w hw j k
    rw [dials_concat hw]
    exact or_congr_right ⟨fun hj => ⟨hj.1, hj.2.1⟩, fun hj => ⟨hj.1, hj.2, .inl rfl⟩⟩
  have hnone : ∀ j, ¬ s.Dials j key := fun j hj => hkey ((h.marked key).mpr ⟨j, hj⟩)
  refine ⟨fun k => ?_, fun i j k hi hj => ?_, h.failures, h.deadline, fun i c hc => ?_⟩
  · rw [Finset.mem_insert, h.marked]
    constructor
    · rintro (rfl | ⟨j, hj⟩)
      · exact ⟨s.calls.length, (hdials _ rfl _ _).mpr (.inr ⟨rfl, rfl⟩)⟩
      · exact ⟨j, (hdials _ rfl _ _).mpr (.inl hj)⟩
    · rintro ⟨j, hj⟩
      rcases (hdials _ rfl _ _).mp hj with hj | ⟨-, rfl⟩
      · exact .inr ⟨j, hj⟩
      · exact .inl rfl
  · rcases (hdials _ rfl _ _).mp hi with hi | ⟨rfl, rfl⟩
    · rcases (hdials _ rfl _ _).mp hj with hj | ⟨rfl, rfl⟩
      · exact h.single i j k hi hj
      · exact absurd hi (hnone i)
    · rcases (hdials _ rfl _ _).mp hj with hj | ⟨rfl, -⟩
      · exact absurd hj (hnone j)
      · rfl
  · rcases getElem?_concat.mp hc with hc | ⟨-, rfl⟩
    · exact h.tidy i c hc
    · exact rfl

end Orderly

/-- A step is a tick, a new call, or a step of a call. -/
lemma step_cases {e : Event κ} (hs : step e s = some s') :
    (∃ t, e = .tick t ∧ s' = { s with now := t }) ∨ (∃ key, e = .call key) ∨
      ∃ i c, e.call? = some i ∧ s.calls[i]? = some c ∧ s.callStep i c e = some s' := by
  have hown : ∀ i, e.call? = some i → ((s.calls[i]?).bind fun c => s.callStep i c e) = some s' →
      ∃ i c, e.call? = some i ∧ s.calls[i]? = some c ∧ s.callStep i c e = some s' := by
    intro i hi hb
    obtain ⟨c, hc, hstep⟩ := Option.bind_eq_some_iff.mp hb
    exact ⟨i, c, hi, hc, hstep⟩
  cases e with
  | tick t =>
      rw [step] at hs
      split_ifs at hs
      exact .inl ⟨t, rfl, (Option.some.inj hs).symm⟩
  | call key => exact .inr (.inl ⟨key, rfl⟩)
  | dialled i rw wrote =>
      rw [step] at hs
      split_ifs at hs
      exact .inr (.inr (hown i rfl hs))
  | dialFailed i => exact .inr (.inr (hown i rfl hs))
  | drained i => exact .inr (.inr (hown i rfl hs))
  | drainFailed i => exact .inr (.inr (hown i rfl hs))
  | bridged i ok => exact .inr (.inr (hown i rfl hs))
  | waitedClosed i ok => exact .inr (.inr (hown i rfl hs))
  | cancelled i => exact .inr (.inr (hown i rfl hs))

/-- **One step.** -/
lemma Orderly.step (h : Orderly s) {e : Event κ} (hs : Fallbacks.step e s = some s') :
    Orderly s' := by
  rcases step_cases hs with ⟨t, rfl, rfl⟩ | ⟨key, rfl⟩ | ⟨i, c, -, hc, hstep⟩
  · exact ⟨h.marked, h.single, h.failures, h.deadline, h.tidy⟩
  · rw [Fallbacks.step] at hs
    split_ifs at hs with hskip
    · obtain rfl := Option.some.inj hs
      exact h.skip key
    · obtain rfl := Option.some.inj hs
      exact h.dial fun hmem => hskip (.inl hmem)
  · exact h.callStep hc hstep

/-- The maps and the record agree at an endpoint. -/
structure Same (s s' : Fallbacks κ) (key : κ) : Prop where
  failures : s'.tcpFailures.get? key = s.tcpFailures.get? key
  deadline : s'.tcpRetryAfter.get? key = s.tcpRetryAfter.get? key
  mark : key ∈ s'.tcpConnecting ↔ key ∈ s.tcpConnecting
  streak : s'.streak key = s.streak key
  failedAt : s'.failedAt key = s.failedAt key

namespace Same

lemma refl (s : Fallbacks κ) (key : κ) : Same s s key := ⟨rfl, rfl, Iff.rfl, rfl, rfl⟩

lemma trans {s₁ s₂ s₃ : Fallbacks κ} {key : κ} (h₁ : Same s₁ s₂ key) (h₂ : Same s₂ s₃ key) :
    Same s₁ s₃ key :=
  ⟨h₂.failures.trans h₁.failures, h₂.deadline.trans h₁.deadline, h₂.mark.trans h₁.mark,
    h₂.streak.trans h₁.streak, h₂.failedAt.trans h₁.failedAt⟩

lemma put (s : Fallbacks κ) (i : ℕ) (c : Call κ) (key : κ) : Same s (s.put i c) key :=
  ⟨rfl, rfl, Iff.rfl, rfl, rfl⟩

lemma leave (s : Fallbacks κ) (i : ℕ) (c : Call κ) (result : Result) (key : κ) :
    Same s (s.leave i c result) key := by
  cases hrw : c.rw with
  | none => rw [leave_of_none hrw]; exact put s i _ key
  | some rw => rw [leave_of_some hrw]; exact ⟨rfl, rfl, Iff.rfl, rfl, rfl⟩

lemma discard {k key : κ} (hne : key ≠ k) (s : Fallbacks κ) : Same s (s.discard k) key :=
  ⟨rfl, rfl, Finset.mem_erase.trans (and_iff_right hne), rfl, rfl⟩

lemma fail {k key : κ} (hne : key ≠ k) (s : Fallbacks κ) : Same s (s.fail k) key :=
  ⟨Dict.get?_set_of_ne _ hne, Dict.get?_set_of_ne _ hne, Iff.rfl, Function.update_of_ne hne ..,
    Function.update_of_ne hne ..⟩

lemma succeed {k key : κ} (hne : key ≠ k) (s : Fallbacks κ) : Same s (s.succeed k) key :=
  ⟨Dict.get?_erase_of_ne hne, Dict.get?_erase_of_ne hne, Iff.rfl, Function.update_of_ne hne ..,
    rfl⟩

/-- A call touches its own endpoint only. -/
lemma callStep {e : Event κ} (hs : s.callStep i c e = some s') {key : κ} (hne : key ≠ c.key) :
    Same s s' key := by
  have hfailed : ∀ d result, Same s (((s.fail c.key).discard c.key).leave i d result) key :=
    fun d result => ((fail hne s).trans (discard hne _)).trans (leave _ i d result key)
  cases e with
  | tick t => cases hs
  | call k => cases hs
  | dialled j rw wrote =>
      rw [Fallbacks.callStep] at hs
      split_ifs at hs
      · obtain rfl := Option.some.inj hs
        exact put s i _ key
      · obtain rfl := Option.some.inj hs
        exact hfailed _ _
  | dialFailed j =>
      rw [Fallbacks.callStep] at hs
      split_ifs at hs
      obtain rfl := Option.some.inj hs
      exact hfailed _ _
  | drained j =>
      rw [Fallbacks.callStep] at hs
      split_ifs at hs
      obtain rfl := Option.some.inj hs
      exact ((discard hne s).trans (succeed hne _)).trans (put _ i _ key)
  | drainFailed j =>
      rw [Fallbacks.callStep] at hs
      split_ifs at hs
      obtain rfl := Option.some.inj hs
      exact hfailed _ _
  | bridged j ok =>
      rw [Fallbacks.callStep] at hs
      split_ifs at hs
      all_goals
        obtain rfl := Option.some.inj hs
        exact leave s i c _ key
  | waitedClosed j ok =>
      rw [Fallbacks.callStep] at hs
      split at hs
      · obtain rfl := Option.some.inj hs
        exact put s i _ key
      · cases hs
  | cancelled j =>
      rw [Fallbacks.callStep] at hs
      split at hs
      · obtain rfl := Option.some.inj hs
        exact (discard hne s).trans (leave _ i c _ key)
      · obtain rfl := Option.some.inj hs
        exact (discard hne s).trans (leave _ i c _ key)
      · obtain rfl := Option.some.inj hs
        exact leave s i c _ key
      · obtain rfl := Option.some.inj hs
        exact put s i _ key
      · cases hs

end Same

/-- Call `i` has opened the writer `rw`. -/
def Opened (s : Fallbacks κ) (i rw : ℕ) : Prop := ∃ c, s.calls[i]? = some c ∧ c.rw = some rw

/-- The endpoint is being dialled, or its backoff has not run out. -/
def Busy (s : Fallbacks κ) (key : κ) : Prop :=
  (∃ i, s.Dials i key) ∨ 0 < s.streak key ∧ s.now < s.failedAt key + backoff (s.streak key)

/-- A busy endpoint does not pass the guard. -/
lemma Orderly.guarded (h : Orderly s) {key : κ} (hbusy : s.Busy key) :
    key ∈ s.tcpConnecting ∨ s.now < s.retryAfter key := by
  refine hbusy.imp (h.marked key).mpr fun hlt => ?_
  rw [retryAfter, h.deadline, if_neg hlt.1.ne']
  exact hlt.2

end Fallbacks

open Fallbacks

end TgWsProxy.TcpFallback
