import TgWsProxy.Core.Transition
import Mathlib.Logic.Function.Basic

/-!
# One connection for one origin

`H2Transport` of `proxy/h2_transport.py`: `handle_async_request` and `aclose` around `connect_lock`,
for any number of calls of both.  What a connection does on its own is that it may fail at any time;
whoever fails one closes its writer in the same step.

* `Transport`, `Transport.step` — the code.  A free lock is taken without a suspension.
* `Transport.Sound` — what every step keeps.
* **`transport_single`** — one live connection at most, all to one origin, and none behind
  `aclose()`.
-/

namespace TgWsProxy.H2Transport

open Wire

/-! ## The code -/

/-- `(request.url.host, request.url.port or 443)`. -/
abbrev Origin := String × ℕ

/-- A `_Connection`: whom it was opened to, and whether it has an error. -/
structure Opened where
  origin : Origin
  failed : Bool
  deriving DecidableEq, Repr

/-- Where a call stands.  `queued`, `retiring`, `dialing`, `tracing` and `requesting` are those of
`handle_async_request`: before the lock, in the `aclose()` of an old connection, before a new one is
there, in the `trace` behind it, in `connection.request`.  The last three are those of `aclose`. -/
inductive CallAt
  | idle
  | queued (origin : Origin)
  | retiring (origin : Origin)
  | dialing (origin : Origin)
  | tracing (origin : Origin) (c : ℕ)
  | requesting (origin : Origin) (c : ℕ)
  | ended
  | closeQueued
  | closing
  | closed
  deriving DecidableEq, Repr

/-- The lock is held there. -/
def CallAt.holds : CallAt → Bool
  | .retiring _ | .dialing _ | .tracing _ _ | .closing => true
  | _ => false

/-- A connection is being made there. -/
def CallAt.dials : CallAt → Bool
  | .retiring _ | .dialing _ | .tracing _ _ => true
  | _ => false

lemma CallAt.holds_of_dials {at' : CallAt} (h : at'.dials = true) : at'.holds = true := by
  cases at' <;> first | rfl | cases h

/-- `H2Transport`; `conns` are the connections that were ever made, and `queue` is who waits for the
lock. -/
structure Transport where
  origin : Option Origin
  closed : Bool
  connection : Option ℕ
  conns : List Opened
  calls : ℕ → CallAt
  holder : Option ℕ
  queue : List ℕ

/-- What may happen: a request comes in, `aclose()` is called, the first in the queue gets the lock,
the old connection has been closed, the dial is over, the trace is over, a request is over, the
connection is closed behind `aclose()`, a call is cancelled, a connection fails. -/
inductive TransportEvent
  | request (k : ℕ) (https : Bool) (origin : Origin)
  | aclose (k : ℕ)
  | acquire
  | retired (k : ℕ)
  | dialed (k : ℕ) (ok : Bool)
  | traced (k : ℕ) (ok : Bool)
  | answered (k : ℕ)
  | released (k : ℕ)
  | cancel (k : ℕ)
  | fail (c : ℕ)
  deriving DecidableEq, Repr

namespace Transport

/-- `H2Transport()`. -/
def start : Transport := ⟨none, false, none, [], fun _ => .idle, none, []⟩

def goto (k : ℕ) (at' : CallAt) (s : Transport) : Transport :=
  { s with calls := Function.update s.calls k at' }

/-- `connection.fail(error)`. -/
def failOne (c : ℕ) (s : Transport) : Transport :=
  { s with conns := s.conns.modify c fun conn => { conn with failed := true } }

/-- The same for `self.connection`, where there is one. -/
def failCurrent (s : Transport) : Transport :=
  match s.connection with
  | none => s
  | some c => s.failOne c

/-- A call leaves the `async with`. -/
def leave (k : ℕ) (at' : CallAt) (s : Transport) : Transport := { s.goto k at' with holder := none }

/-- `self.connection is None or self.connection.error is not None`. -/
def lacking (s : Transport) : Bool :=
  match s.connection with
  | none => true
  | some c => (s.conns[c]?).elim true Opened.failed

/-- `handle_async_request` with the lock just acquired, up to its next suspension. -/
def enter (k : ℕ) (origin : Origin) (s : Transport) : Transport :=
  if s.closed then s.leave k .ended
  else
    let s := { s with origin := some origin, holder := some k }
    match s.connection with
    | none => s.goto k (.dialing origin)
    | some c =>
        if s.lacking then s.goto k (.retiring origin) else s.leave k (.requesting origin c)

/-- `aclose` with the lock just acquired. -/
def enterClose (k : ℕ) (s : Transport) : Transport :=
  match s.connection with
  | none => s.leave k .closed
  | some _ => { s.failCurrent.goto k .closing with holder := some k }

/-- The lock is free, and nobody waits for it. -/
def isFree (s : Transport) : Bool := s.holder.isNone && s.queue.isEmpty

/-- The next suspension, or the end, of a call. -/
def step : TransportEvent → Transport → Option Transport
  | .request k https origin, s =>
      if s.calls k = .idle then
        if https = false ∨ (s.origin ≠ none ∧ s.origin ≠ some origin) then some (s.goto k .ended)
        else if s.isFree then some (s.enter k origin)
        else some { s.goto k (.queued origin) with queue := s.queue ++ [k] }
      else none
  | .aclose k, s =>
      if s.calls k = .idle then
        let s := { s with closed := true }
        if s.isFree then some (s.enterClose k)
        else some { s.goto k .closeQueued with queue := s.queue ++ [k] }
      else none
  | .acquire, s =>
      match s.holder, s.queue with
      | none, k :: queue =>
          match s.calls k with
          | .queued origin => some ({ s with queue }.enter k origin)
          | .closeQueued => some ({ s with queue }.enterClose k)
          | _ => none
      | _, _ => none
  | .retired k, s =>
      match s.calls k with
      | .retiring origin => some (s.goto k (.dialing origin))
      | _ => none
  | .dialed k ok, s =>
      match s.calls k with
      | .dialing origin =>
          if ok then
            some { s.goto k (.tracing origin s.conns.length) with
              conns := s.conns ++ [⟨origin, false⟩]
              connection := some s.conns.length }
          else some (s.failCurrent.leave k .ended)
      | _ => none
  | .traced k ok, s =>
      match s.calls k with
      | .tracing origin c =>
          if ok then some (s.leave k (.requesting origin c))
          else some (s.failCurrent.leave k .ended)
      | _ => none
  | .answered k, s =>
      match s.calls k with
      | .requesting _ _ => some (s.goto k .ended)
      | _ => none
  | .released k, s =>
      match s.calls k with
      | .closing => some (s.leave k .closed)
      | _ => none
  | .cancel k, s =>
      match s.calls k with
      | .queued _ | .closeQueued => some { s.goto k .ended with queue := s.queue.erase k }
      | .retiring _ => some (s.leave k .ended)
      | .dialing _ | .tracing _ _ => some (s.failCurrent.leave k .ended)
      | .requesting _ _ => some (s.goto k .ended)
      | .closing => some (s.leave k .ended)
      | _ => none
  | .fail c, s => some (s.failOne c)

/-! ## What is kept -/

/-- The writer of every connection is closed. -/
def AllFailed (s : Transport) : Prop := ∀ conn ∈ s.conns, conn.failed = true

/-- Connection `c` was opened to the origin. -/
def OpenedTo (s : Transport) (origin : Origin) (c : ℕ) : Prop :=
  ∃ conn, s.conns[c]? = some conn ∧ conn.origin = origin

/-- What the place where a call stands says about the transport. -/
def Fits (s : Transport) : CallAt → Prop
  | .queued origin => s.closed = true ∨ s.origin = some origin
  | .retiring origin => s.origin = some origin ∧ s.AllFailed
  | .dialing origin => s.origin = some origin ∧ s.AllFailed
  | .tracing origin c => s.connection = some c ∧ s.OpenedTo origin c
  | .requesting origin c => s.OpenedTo origin c
  | .closeQueued => s.closed = true
  | .closing => s.closed = true ∧ s.AllFailed
  | .closed => s.closed = true ∧ s.AllFailed
  | .idle | .ended => True

/-- Every call stands where the transport lets it stand, and one of them holds the lock; a
connection that lives is the current one, and to the origin; behind a finished `aclose()` nobody
dials. -/
structure Sound (s : Transport) : Prop where
  calls : ∀ k, s.Fits (s.calls k)
  holder : ∀ k, (s.calls k).holds = true ↔ s.holder = some k
  live : ∀ c conn, s.conns[c]? = some conn → conn.failed = false → s.connection = some c
  bound : ∀ c, s.connection = some c → c < s.conns.length
  origin : ∀ conn ∈ s.conns, s.origin = some conn.origin
  fresh : s.origin = none → s.closed = false → s.holder = none ∧ s.queue = []
  shut : ∀ k j, s.calls k = .closed → (s.calls j).dials = false

lemma sound_start : Sound start :=
  ⟨fun _ => trivial, fun _ => ⟨by rintro ⟨⟩, by rintro ⟨⟩⟩, by rintro c conn ⟨⟩, by rintro c ⟨⟩,
    by rintro conn ⟨⟩, fun _ _ => ⟨rfl, rfl⟩, by rintro k j ⟨⟩⟩

namespace Sound

variable {s s' : Transport} {k : ℕ} {a : CallAt}

/-- A call goes to another place, and the lock may change hands. -/
lemma move (h : Sound s) (hfits : s.Fits a) {holder : Option ℕ} {queue : List ℕ}
    (hother : ∀ j, j ≠ k → (s.holder = some j ↔ holder = some j))
    (hself : a.holds = true ↔ holder = some k)
    (hshut : a = .closed → ∀ j, j ≠ k → (s.calls j).dials = false)
    (hdials : a.dials = true → ∀ j, s.calls j ≠ .closed)
    (hfresh : s.origin = none → s.closed = false → holder = none ∧ queue = []) :
    Sound { s with calls := Function.update s.calls k a, holder, queue } := by
  refine ⟨fun j => ?_, fun j => ?_, h.live, h.bound, h.origin, hfresh, fun i j hi => ?_⟩
  · show s.Fits (Function.update s.calls k a j)
    rcases eq_or_ne j k with rfl | hj
    · rwa [Function.update_self]
    · rw [Function.update_of_ne hj]
      exact h.calls j
  · show (Function.update s.calls k a j).holds = true ↔ holder = some j
    rcases eq_or_ne j k with rfl | hj
    · rwa [Function.update_self]
    · rw [Function.update_of_ne hj]
      exact (h.holder j).trans (hother j hj)
  · show (Function.update s.calls k a j).dials = false
    have hi : Function.update s.calls k a i = .closed := hi
    rcases eq_or_ne j k with rfl | hj
    · rw [Function.update_self]
      rcases eq_or_ne i j with rfl | hij
      · rw [Function.update_self] at hi
        rw [hi]
        rfl
      · rw [Function.update_of_ne hij] at hi
        by_contra hdial
        exact hdials (Bool.not_eq_false _ ▸ hdial) i hi
    · rw [Function.update_of_ne hj]
      rcases eq_or_ne i k with rfl | hik
      · rw [Function.update_self] at hi
        exact hshut hi j hj
      · rw [Function.update_of_ne hik] at hi
        exact h.shut i j hi

/-- The holder of the lock leaves it, or one who has just got it. -/
lemma leave (h : Sound s) (hheld : ∀ j, j ≠ k → s.holder ≠ some j) (hfits : s.Fits a)
    (hholds : a.holds = false) : Sound (s.leave k a) := by
  refine h.move hfits (fun j hj => iff_of_false (hheld j hj) (by rintro ⟨⟩)) ?_ (fun _ j hj => ?_)
    ?_ fun horigin hclosed => ⟨rfl, (h.fresh horigin hclosed).2⟩
  · rw [hholds]
    exact ⟨by rintro ⟨⟩, by rintro ⟨⟩⟩
  · by_contra hdial
    exact hheld j hj ((h.holder j).mp (CallAt.holds_of_dials (Bool.not_eq_false _ ▸ hdial)))
  · intro hdials
    rw [CallAt.holds_of_dials hdials] at hholds
    cases hholds

/-- A call gets the lock, or keeps it. -/
lemma hold (h : Sound s) (hheld : ∀ j, j ≠ k → s.holder ≠ some j) (hfits : s.Fits a)
    (hholds : a.holds = true) (hdials : a.dials = true → ∀ j, s.calls j ≠ .closed)
    (hbegun : s.origin = none → s.closed = true) :
    Sound { s.goto k a with holder := some k } := by
  refine h.move hfits (fun j hj => iff_of_false (hheld j hj) ?_) (iff_of_true hholds rfl) ?_ hdials
    ?_
  · intro heq
    exact hj (Option.some.inj heq).symm
  · rintro rfl
    cases hholds
  · intro horigin hclosed
    rw [hbegun horigin] at hclosed
    cases hclosed

/-- A call that does not hold the lock goes to a place where it does not. -/
lemma goto (h : Sound s) (hfits : s.Fits a) (hnot : (s.calls k).holds = false)
    (hholds : a.holds = false) (hclosed : a ≠ .closed) : Sound (s.goto k a) := by
  refine h.move hfits (fun _ _ => Iff.rfl) ?_ (fun heq => absurd heq hclosed) ?_ h.fresh
  · rw [hholds, ← h.holder, hnot]
  · intro hdials
    rw [CallAt.holds_of_dials hdials] at hholds
    cases hholds

end Sound

/-! ## The parts of a step -/

lemma Fits.mono {s s' : Transport} {a : CallAt} (h : s.Fits a)
    (hclosed : s.closed = true → s'.closed = true)
    (horigin : ∀ o, s.origin = some o → s'.origin = some o)
    (hconnection : s'.connection = s.connection)
    (hopened : ∀ o c, s.OpenedTo o c → s'.OpenedTo o c) (hfailed : s.AllFailed → s'.AllFailed) :
    s'.Fits a := by
  cases a with
  | queued o => exact h.imp hclosed (horigin o)
  | retiring o | dialing o => exact h.imp (horigin o) hfailed
  | tracing o c => exact ⟨hconnection.trans h.1, hopened o c h.2⟩
  | requesting o c => exact hopened o c h
  | closeQueued => exact hclosed h
  | closing | closed => exact h.imp hclosed hfailed
  | idle | ended => trivial

section FailOne

variable (s : Transport) (c : ℕ)

/-- A connection fails and is otherwise what it was. -/
lemma getElem?_failOne (i : ℕ) : (s.failOne c).conns[i]? =
    (s.conns[i]?).map fun conn => if c = i then { conn with failed := true } else conn :=
  List.getElem?_modify _ _ _ _

lemma openedTo_failOne {o : Origin} {i : ℕ} (h : s.OpenedTo o i) : (s.failOne c).OpenedTo o i := by
  obtain ⟨conn, hconn, rfl⟩ := h
  refine ⟨_, by rw [getElem?_failOne, hconn, Option.map_some], ?_⟩
  split_ifs <;> rfl

lemma live_failOne {i : ℕ} {conn : Opened} (h : (s.failOne c).conns[i]? = some conn)
    (hlive : conn.failed = false) : s.conns[i]? = some conn ∧ i ≠ c := by
  rw [getElem?_failOne] at h
  obtain ⟨old, hold, rfl⟩ := Option.map_eq_some_iff.mp h
  by_cases hc : c = i
  · rw [if_pos hc] at hlive
    exact absurd hlive (by simp)
  · rw [if_neg hc]
    exact ⟨hold, fun heq => hc heq.symm⟩

lemma origin_failOne {conn : Opened} (h : conn ∈ (s.failOne c).conns) :
    ∃ old ∈ s.conns, old.origin = conn.origin ∧ (old.failed = true → conn.failed = true) := by
  obtain ⟨i, hi⟩ := List.mem_iff_getElem?.mp h
  rw [getElem?_failOne] at hi
  obtain ⟨old, hold, rfl⟩ := Option.map_eq_some_iff.mp hi
  refine ⟨old, List.mem_of_getElem? hold, ?_, fun hfailed => ?_⟩
  · split_ifs <;> rfl
  · split_ifs
    · rfl
    · exact hfailed

@[simp] lemma length_failOne : (s.failOne c).conns.length = s.conns.length :=
  List.length_modify _ _ _

end FailOne

namespace Sound

variable {s s' : Transport} {k : ℕ}

lemma failOne (h : Sound s) (c : ℕ) : Sound (s.failOne c) := by
  refine ⟨fun k => ?_, h.holder, fun i conn hi hlive => ?_, fun i hi => ?_, fun conn hconn => ?_,
    h.fresh, h.shut⟩
  · refine (h.calls k).mono id (fun _ => id) rfl (fun _ _ => openedTo_failOne s c) ?_
    intro hall conn hconn
    obtain ⟨old, hold, -, hfailed⟩ := origin_failOne s c hconn
    exact hfailed (hall old hold)
  · exact h.live i conn (live_failOne s c hi hlive).1 hlive
  · rw [length_failOne]
    exact h.bound i hi
  · obtain ⟨old, hold, horigin, -⟩ := origin_failOne s c hconn
    rw [← horigin]
    exact h.origin old hold

lemma failCurrent (h : Sound s) : Sound s.failCurrent := by
  unfold Transport.failCurrent
  split
  · exact h
  · exact h.failOne _

/-- Behind the current connection no other lives. -/
lemma allFailed_failCurrent (h : Sound s) : s.failCurrent.AllFailed := by
  intro conn hconn
  by_contra hnot
  have hlive : conn.failed = false := Bool.eq_false_iff.mpr hnot
  obtain ⟨i, hi⟩ := List.mem_iff_getElem?.mp hconn
  unfold Transport.failCurrent at hi
  split at hi
  · next hnone =>
      rw [h.live i conn hi hlive] at hnone
      cases hnone
  · next c hc =>
      obtain ⟨hold, hne⟩ := live_failOne s c hi hlive
      rw [h.live i conn hold hlive] at hc
      exact hne (Option.some.inj hc)

@[simp] lemma holder_failCurrent (s : Transport) : s.failCurrent.holder = s.holder := by
  unfold Transport.failCurrent
  split <;> rfl

@[simp] lemma closed_failCurrent (s : Transport) : s.failCurrent.closed = s.closed := by
  unfold Transport.failCurrent
  split <;> rfl

lemma setOrigin (h : Sound s) {o : Origin} (ho : s.origin = none ∨ s.origin = some o) :
    Sound { s with origin := some o } := by
  have hkeep : ∀ o', s.origin = some o' → some o = some o' := by
    intro o' hsome
    rcases ho with hnone | hsame
    · rw [hnone] at hsome
      cases hsome
    · exact hsame.symm.trans hsome
  exact ⟨fun k => (h.calls k).mono id hkeep rfl (fun _ _ => id) id, h.holder, h.live, h.bound,
    fun conn hconn => hkeep _ (h.origin conn hconn), by rintro ⟨⟩, h.shut⟩

lemma setClosed (h : Sound s) : Sound { s with closed := true } :=
  ⟨fun k => (h.calls k).mono (fun _ => rfl) (fun _ => id) rfl (fun _ _ => id) id, h.holder, h.live,
    h.bound, h.origin, fun _ => by rintro ⟨⟩, h.shut⟩

lemma setQueue (h : Sound s) (queue : List ℕ) (hbegun : s.origin = none → s.closed = true) :
    Sound { s with queue } := by
  refine ⟨h.calls, h.holder, h.live, h.bound, h.origin, fun horigin hclosed => ?_, h.shut⟩
  have hclosed : s.closed = false := hclosed
  rw [hbegun horigin] at hclosed
  cases hclosed

/-! ## One step -/

lemma lacking_eq_false {c : ℕ} (hc : s.connection = some c) (h : s.lacking = false) :
    ∃ conn, s.conns[c]? = some conn ∧ conn.failed = false := by
  rw [lacking, hc] at h
  dsimp only at h
  cases hconn : s.conns[c]? with
  | none =>
      rw [hconn] at h
      cases h
  | some conn =>
      rw [hconn] at h
      exact ⟨conn, rfl, h⟩

/-- A connection that lacks or has failed was the last one that lived. -/
lemma allFailed_of_lacking (h : Sound s) (hlacking : s.lacking = true) : s.AllFailed := by
  intro conn hconn
  by_contra hnot
  obtain ⟨i, hi⟩ := List.mem_iff_getElem?.mp hconn
  have hcurrent := h.live i conn hi (Bool.eq_false_iff.mpr hnot)
  rw [lacking, hcurrent] at hlacking
  simp only [hi, Option.elim_some] at hlacking
  exact hnot hlacking

lemma enter (h : Sound s) {o : Origin} (hheld : ∀ j, j ≠ k → s.holder ≠ some j)
    (ho : s.closed = true ∨ s.origin = none ∨ s.origin = some o) : Sound (s.enter k o) := by
  unfold Transport.enter
  by_cases hclosed : s.closed = true
  · rw [if_pos hclosed]
    exact h.leave hheld trivial rfl
  · rw [if_neg hclosed]
    have hset := h.setOrigin (ho.resolve_left hclosed)
    have hopen : ∀ j, s.calls j ≠ .closed := by
      intro j hj
      have hfits := h.calls j
      rw [hj] at hfits
      exact hclosed hfits.1
    dsimp only
    split
    · next hnone =>
        refine hset.hold (a := .dialing o) hheld ⟨rfl, ?_⟩ rfl (fun _ => hopen) (by rintro ⟨⟩)
        exact hset.allFailed_of_lacking (by rw [lacking, hnone])
    · next c hc =>
        split_ifs with hlacking
        · exact hset.hold (a := .retiring o) hheld ⟨rfl, hset.allFailed_of_lacking hlacking⟩ rfl
            (fun _ => hopen) (by rintro ⟨⟩)
        · obtain ⟨conn, hconn, -⟩ := lacking_eq_false hc (Bool.not_eq_true _ ▸ hlacking)
          refine hset.leave (a := .requesting o c) hheld ⟨conn, hconn, ?_⟩ rfl
          exact (Option.some.inj (hset.origin conn (List.mem_of_getElem? hconn))).symm

lemma enterClose (h : Sound s) (hheld : ∀ j, j ≠ k → s.holder ≠ some j)
    (hclosed : s.closed = true) : Sound (s.enterClose k) := by
  unfold Transport.enterClose
  split
  · next hnone =>
      exact h.leave (a := .closed) hheld
        ⟨hclosed, h.allFailed_of_lacking (by rw [lacking, hnone])⟩ rfl
  · refine h.failCurrent.hold (a := .closing) ?_ ⟨?_, h.allFailed_failCurrent⟩ rfl (by rintro ⟨⟩)
      fun _ => ?_
    · rwa [holder_failCurrent]
    · rwa [closed_failCurrent]
    · rwa [closed_failCurrent]

/-- A dial has succeeded. -/
lemma dialed (h : Sound s) {o : Origin} (hk : s.calls k = .dialing o) :
    Sound { s.goto k (.tracing o s.conns.length) with
      conns := s.conns ++ [⟨o, false⟩]
      connection := some s.conns.length } := by
  have hfits := h.calls k
  rw [hk] at hfits
  obtain ⟨horigin, hfailed⟩ := hfits
  have hholder := (h.holder k).mp (by rw [hk]; rfl)
  have hnew : (s.conns ++ [⟨o, false⟩])[s.conns.length]? = some ⟨o, false⟩ :=
    List.getElem?_concat_length
  have hold : ∀ {i : ℕ} {conn : Opened}, s.conns[i]? = some conn →
      (s.conns ++ [⟨o, false⟩])[i]? = some conn := by
    intro i conn hi
    rw [List.getElem?_append_left (List.getElem?_eq_some_iff.mp hi).1, hi]
  refine ⟨fun j => ?_, fun j => ?_, fun i conn hi hlive => ?_, fun i hi => ?_, fun conn hconn => ?_,
    fun hnone => ?_, fun i j hi => ?_⟩
  · show Fits _ (Function.update s.calls k _ j)
    rcases eq_or_ne j k with rfl | hj
    · rw [Function.update_self]
      exact ⟨rfl, _, hnew, rfl⟩
    · rw [Function.update_of_ne hj]
      have hfits := h.calls j
      have hfree : (s.calls j).holds = true → False := by
        intro hholds
        have hj' := (h.holder j).mp hholds
        rw [hholder] at hj'
        exact hj (Option.some.inj hj').symm
      have hshut := h.shut j k
      rw [hk] at hshut
      cases hat : s.calls j with
      | queued o' =>
          rw [hat] at hfits
          exact hfits
      | requesting o' c =>
          rw [hat] at hfits
          obtain ⟨conn, hconn, ho'⟩ := hfits
          exact ⟨conn, hold hconn, ho'⟩
      | closeQueued =>
          rw [hat] at hfits
          exact hfits
      | idle | ended => trivial
      | retiring o' | dialing o' | tracing o' c | closing =>
          rw [hat] at hfree
          exact (hfree rfl).elim
      | closed => exact absurd (hshut hat) (by rintro ⟨⟩)
  · show (Function.update s.calls k _ j).holds = true ↔ s.holder = some j
    rcases eq_or_ne j k with rfl | hj
    · rw [Function.update_self]
      exact iff_of_true rfl hholder
    · rw [Function.update_of_ne hj]
      exact h.holder j
  · have hi : (s.conns ++ [⟨o, false⟩])[i]? = some conn := hi
    rcases Nat.lt_or_ge i s.conns.length with hlt | hge
    · rw [List.getElem?_append_left hlt] at hi
      rw [hfailed conn (List.mem_of_getElem? hi)] at hlive
      cases hlive
    · have hlast := (List.getElem?_eq_some_iff.mp hi).1
      rw [List.length_append, List.length_singleton] at hlast
      exact congrArg some (show s.conns.length = i by omega)
  · obtain rfl := Option.some.inj hi
    show s.conns.length < (s.conns ++ [(⟨o, false⟩ : Opened)]).length
    simp
  · show s.origin = some conn.origin
    rcases List.mem_append.mp hconn with hconn | hconn
    · exact h.origin conn hconn
    · rw [List.mem_singleton.mp hconn, horigin]
  · rw [show s.origin = none from hnone] at horigin
    cases horigin
  · have hi : Function.update s.calls k _ i = .closed := hi
    have hik : i ≠ k := by
      rintro rfl
      rw [Function.update_self] at hi
      cases hi
    rw [Function.update_of_ne hik] at hi
    have hshut := h.shut i k hi
    rw [hk] at hshut
    cases hshut

/-- Who holds the lock is the only one. -/
lemma held_of_holds (h : Sound s) (hk : (s.calls k).holds = true) :
    ∀ j, j ≠ k → s.holder ≠ some j := by
  intro j hj hheld
  rw [(h.holder k).mp hk] at hheld
  exact hj (Option.some.inj hheld).symm

lemma not_held (hfree : s.holder = none) : ∀ j, j ≠ k → s.holder ≠ some j := by
  intro j _ hheld
  rw [hfree] at hheld
  cases hheld

lemma leaveFailed (h : Sound s) (hk : (s.calls k).holds = true) :
    Sound (s.failCurrent.leave k .ended) := by
  refine h.failCurrent.leave ?_ trivial rfl
  rw [holder_failCurrent]
  exact h.held_of_holds hk

lemma free_of_isFree (hfree : s.isFree = true) : s.holder = none ∧ s.queue = [] := by
  rw [isFree, Bool.and_eq_true] at hfree
  exact ⟨Option.isNone_iff_eq_none.mp hfree.1, List.isEmpty_iff.mp hfree.2⟩

/-- A call joins the queue, or leaves it. -/
lemma requeue (h : Sound s) (hk : (s.calls k).holds = false) {a : CallAt} (hfits : s.Fits a)
    (hholds : a.holds = false) (hclosed : a ≠ .closed) (hbegun : s.origin = none → s.closed = true)
    (queue : List ℕ) : Sound { s.goto k a with queue } :=
  (h.goto hfits hk hholds hclosed).setQueue queue hbegun

/-- **One step.** -/
lemma step {e : TransportEvent} (h : Sound s) (hstep : Transport.step e s = some s') :
    Sound s' := by
  cases e with
  | request k https origin =>
      simp only [Transport.step] at hstep
      split_ifs at hstep with hk hrefused hfree
      · obtain rfl := Option.some.inj hstep
        exact h.goto trivial (by rw [hk]; rfl) rfl (by rintro ⟨⟩)
      · obtain rfl := Option.some.inj hstep
        refine h.enter (not_held (free_of_isFree hfree).1) (Or.inr ?_)
        by_contra hnot
        exact hrefused (Or.inr (not_or.mp hnot))
      · obtain rfl := Option.some.inj hstep
        have hbegun : s.origin = none → s.closed = true := by
          intro horigin
          by_contra hclosed
          obtain ⟨hholder, hqueue⟩ := h.fresh horigin (Bool.not_eq_true _ ▸ hclosed)
          exact hfree (by rw [isFree, hholder, hqueue]; rfl)
        refine h.requeue (by rw [hk]; rfl) ?_ rfl (by rintro ⟨⟩) hbegun _
        by_cases horigin : s.origin = none
        · exact Or.inl (hbegun horigin)
        · refine Or.inr ?_
          by_contra hnot
          exact hrefused (Or.inr ⟨horigin, hnot⟩)
  | aclose k =>
      simp only [Transport.step] at hstep
      split_ifs at hstep with hk hfree
      · obtain rfl := Option.some.inj hstep
        exact h.setClosed.enterClose (not_held (free_of_isFree hfree).1) rfl
      · obtain rfl := Option.some.inj hstep
        exact h.setClosed.requeue (a := .closeQueued)
          (by rw [show Transport.calls _ k = s.calls k from rfl, hk]; rfl) rfl rfl (by rintro ⟨⟩)
          (fun _ => rfl) _
  | acquire =>
      simp only [Transport.step] at hstep
      split at hstep
      · next k queue hholder hqueue =>
          have hbegun : s.origin = none → s.closed = true := by
            intro horigin
            by_contra hclosed
            rw [(h.fresh horigin (Bool.not_eq_true _ ▸ hclosed)).2] at hqueue
            cases hqueue
          have hset := h.setQueue queue hbegun
          have hfits := h.calls k
          split at hstep
          · next origin hk =>
              obtain rfl := Option.some.inj hstep
              rw [hk] at hfits
              exact hset.enter (not_held hholder) (hfits.imp_right Or.inr)
          · next hk =>
              obtain rfl := Option.some.inj hstep
              rw [hk] at hfits
              exact hset.enterClose (not_held hholder) hfits
          · cases hstep
      · cases hstep
  | retired k =>
      simp only [Transport.step] at hstep
      split at hstep
      · next origin hk =>
          obtain rfl := Option.some.inj hstep
          have hfits := h.calls k
          rw [hk] at hfits
          refine h.move (a := .dialing origin) hfits (fun _ _ => Iff.rfl) (iff_of_true rfl ?_)
            (by rintro ⟨⟩) (fun _ j hj => ?_) h.fresh
          · exact (h.holder k).mp (by rw [hk]; rfl)
          · have hshut := h.shut j k hj
            rw [hk] at hshut
            cases hshut
      · cases hstep
  | dialed k ok =>
      simp only [Transport.step] at hstep
      split at hstep
      · next origin hk =>
          split_ifs at hstep
          · obtain rfl := Option.some.inj hstep
            exact h.dialed hk
          · obtain rfl := Option.some.inj hstep
            exact h.leaveFailed (by rw [hk]; rfl)
      · cases hstep
  | traced k ok =>
      simp only [Transport.step] at hstep
      split at hstep
      · next origin c hk =>
          have hfits := h.calls k
          rw [hk] at hfits
          split_ifs at hstep
          · obtain rfl := Option.some.inj hstep
            exact h.leave (h.held_of_holds (by rw [hk]; rfl)) hfits.2 rfl
          · obtain rfl := Option.some.inj hstep
            exact h.leaveFailed (by rw [hk]; rfl)
      · cases hstep
  | answered k =>
      simp only [Transport.step] at hstep
      split at hstep
      · next origin c hk =>
          obtain rfl := Option.some.inj hstep
          exact h.goto trivial (by rw [hk]; rfl) rfl (by rintro ⟨⟩)
      · cases hstep
  | released k =>
      simp only [Transport.step] at hstep
      split at hstep
      · next hk =>
          obtain rfl := Option.some.inj hstep
          have hfits := h.calls k
          rw [hk] at hfits
          exact h.leave (h.held_of_holds (by rw [hk]; rfl)) hfits rfl
      · cases hstep
  | cancel k =>
      simp only [Transport.step] at hstep
      split at hstep
      · next origin hk =>
          obtain rfl := Option.some.inj hstep
          have hfits := h.calls k
          rw [hk] at hfits
          refine h.requeue (a := .ended) (by rw [hk]; rfl) trivial rfl (by rintro ⟨⟩)
            (fun hnone => ?_) _
          refine hfits.resolve_right ?_
          rw [hnone]
          rintro ⟨⟩
      · next hk =>
          obtain rfl := Option.some.inj hstep
          have hfits := h.calls k
          rw [hk] at hfits
          exact h.requeue (a := .ended) (by rw [hk]; rfl) trivial rfl (by rintro ⟨⟩)
            (fun _ => hfits) _
      · next origin hk =>
          obtain rfl := Option.some.inj hstep
          exact h.leave (h.held_of_holds (by rw [hk]; rfl)) trivial rfl
      · next origin hk =>
          obtain rfl := Option.some.inj hstep
          exact h.leaveFailed (by rw [hk]; rfl)
      · next origin c hk =>
          obtain rfl := Option.some.inj hstep
          exact h.leaveFailed (by rw [hk]; rfl)
      · next origin c hk =>
          obtain rfl := Option.some.inj hstep
          exact h.goto trivial (by rw [hk]; rfl) rfl (by rintro ⟨⟩)
      · next hk =>
          obtain rfl := Option.some.inj hstep
          exact h.leave (h.held_of_holds (by rw [hk]; rfl)) trivial rfl
      · cases hstep
  | fail c =>
      obtain rfl := Option.some.inj hstep
      exact h.failOne c

end Sound

lemma sound_of_reachable {s : Transport} (h : Reachable (· = start) step Always s) : Sound s :=
  Reachable.invariant (by rintro _ rfl; exact sound_start)
    (fun _ _ _ _ hs _ hstep => hs.step hstep) h

/-! ## What a step leaves as it is -/

/-- One call that is not a finished `aclose()` goes on, or none does; and a connection is made only
by a call that dials. -/
def Leaves (s s' : Transport) : Prop :=
  (s'.calls = s.calls ∨ ∃ k a, s'.calls = Function.update s.calls k a ∧ s.calls k ≠ .closed) ∧
    (s'.conns.length = s.conns.length ∨ ∃ k, (s.calls k).dials = true)

section Leaves

variable {s s' : Transport} {k : ℕ}

lemma failCurrent_leaves (s : Transport) :
    s.failCurrent.calls = s.calls ∧ s.failCurrent.conns.length = s.conns.length := by
  unfold failCurrent
  split
  · exact ⟨rfl, rfl⟩
  · exact ⟨rfl, length_failOne _ _⟩

lemma enter_leaves (origin : Origin) (s : Transport) :
    (∃ a, (s.enter k origin).calls = Function.update s.calls k a) ∧
      (s.enter k origin).conns = s.conns := by
  unfold enter
  dsimp only
  split_ifs
  · exact ⟨⟨_, rfl⟩, rfl⟩
  · split
    · exact ⟨⟨_, rfl⟩, rfl⟩
    · exact ⟨⟨_, rfl⟩, rfl⟩
  · split
    · exact ⟨⟨_, rfl⟩, rfl⟩
    · exact ⟨⟨_, rfl⟩, rfl⟩

lemma enterClose_leaves (s : Transport) :
    (∃ a, (s.enterClose k).calls = Function.update s.calls k a) ∧
      (s.enterClose k).conns.length = s.conns.length := by
  obtain ⟨hcalls, hconns⟩ := failCurrent_leaves s
  unfold enterClose
  split
  · exact ⟨⟨_, rfl⟩, rfl⟩
  · refine ⟨⟨.closing, ?_⟩, hconns⟩
    rw [← hcalls]
    rfl

/-- **The frame of a step.** -/
lemma step_leaves {e : TransportEvent} (h : step e s = some s') : Leaves s s' := by
  have hcall : ∀ {k : ℕ} {a : CallAt} {s' : Transport}, s.calls k ≠ .closed →
      s'.calls = Function.update s.calls k a → s'.conns.length = s.conns.length → Leaves s s' :=
    fun hk hcalls hlen => ⟨Or.inr ⟨_, _, hcalls, hk⟩, Or.inl hlen⟩
  cases e with
  | request k https origin =>
      simp only [step] at h
      split_ifs at h with hk
      · obtain rfl := Option.some.inj h
        exact hcall (by rw [hk]; rintro ⟨⟩) rfl rfl
      · obtain rfl := Option.some.inj h
        obtain ⟨⟨a, hcalls⟩, hconns⟩ := enter_leaves (k := k) origin s
        exact hcall (by rw [hk]; rintro ⟨⟩) hcalls (by rw [hconns])
      · obtain rfl := Option.some.inj h
        exact hcall (by rw [hk]; rintro ⟨⟩) rfl rfl
  | aclose k =>
      simp only [step] at h
      split_ifs at h with hk
      · obtain rfl := Option.some.inj h
        obtain ⟨⟨a, hcalls⟩, hconns⟩ := enterClose_leaves (k := k) { s with closed := true }
        exact hcall (by rw [hk]; rintro ⟨⟩) hcalls hconns
      · obtain rfl := Option.some.inj h
        exact hcall (by rw [hk]; rintro ⟨⟩) rfl rfl
  | acquire =>
      simp only [step] at h
      split at h
      · next k queue hholder hqueue =>
          split at h
          · next origin hk =>
              obtain rfl := Option.some.inj h
              obtain ⟨⟨a, hcalls⟩, hconns⟩ := enter_leaves (k := k) origin { s with queue }
              exact hcall (by rw [hk]; rintro ⟨⟩) hcalls (by rw [hconns])
          · next hk =>
              obtain rfl := Option.some.inj h
              obtain ⟨⟨a, hcalls⟩, hconns⟩ := enterClose_leaves (k := k) { s with queue }
              exact hcall (by rw [hk]; rintro ⟨⟩) hcalls hconns
          · cases h
      · cases h
  | dialed k ok =>
      simp only [step] at h
      split at h
      · next origin hk =>
          split_ifs at h
          · obtain rfl := Option.some.inj h
            exact ⟨Or.inr ⟨k, _, rfl, by rw [hk]; rintro ⟨⟩⟩, Or.inr ⟨k, by rw [hk]; rfl⟩⟩
          · obtain rfl := Option.some.inj h
            obtain ⟨hcalls, hconns⟩ := failCurrent_leaves s
            exact hcall (a := .ended) (by rw [hk]; rintro ⟨⟩) (by rw [← hcalls]; rfl) hconns
      · cases h
  | retired k | answered k | released k =>
      simp only [step] at h
      split at h
      · next hk =>
          obtain rfl := Option.some.inj h
          exact hcall (by rw [hk]; rintro ⟨⟩) rfl rfl
      · cases h
  | traced k ok =>
      simp only [step] at h
      split at h
      · next origin c hk =>
          split_ifs at h
          · obtain rfl := Option.some.inj h
            exact hcall (by rw [hk]; rintro ⟨⟩) rfl rfl
          · obtain rfl := Option.some.inj h
            obtain ⟨hcalls, hconns⟩ := failCurrent_leaves s
            exact hcall (a := .ended) (by rw [hk]; rintro ⟨⟩) (by rw [← hcalls]; rfl) hconns
      · cases h
  | cancel k =>
      obtain ⟨hcalls, hconns⟩ := failCurrent_leaves s
      simp only [step] at h
      split at h
      · next origin hk =>
          obtain rfl := Option.some.inj h
          exact hcall (by rw [hk]; rintro ⟨⟩) rfl rfl
      · next hk =>
          obtain rfl := Option.some.inj h
          exact hcall (by rw [hk]; rintro ⟨⟩) rfl rfl
      · next origin hk =>
          obtain rfl := Option.some.inj h
          exact hcall (by rw [hk]; rintro ⟨⟩) rfl rfl
      · next origin hk =>
          obtain rfl := Option.some.inj h
          exact hcall (a := .ended) (by rw [hk]; rintro ⟨⟩) (by rw [← hcalls]; rfl) hconns
      · next origin c hk =>
          obtain rfl := Option.some.inj h
          exact hcall (a := .ended) (by rw [hk]; rintro ⟨⟩) (by rw [← hcalls]; rfl) hconns
      · next origin c hk =>
          obtain rfl := Option.some.inj h
          exact hcall (by rw [hk]; rintro ⟨⟩) rfl rfl
      · next hk =>
          obtain rfl := Option.some.inj h
          exact hcall (by rw [hk]; rintro ⟨⟩) rfl rfl
      · cases h
  | fail c =>
      obtain rfl := Option.some.inj h
      exact ⟨Or.inl rfl, Or.inl (length_failOne s c)⟩

/-- A finished `aclose()` stays finished, and behind it nothing is opened. -/
lemma closed_of_exec : ∀ {es : List TransportEvent} {s s' : Transport}, Sound s →
    s.calls k = .closed → exec step es s = some s' →
      Sound s' ∧ s'.calls k = .closed ∧ s'.conns.length = s.conns.length
  | [], s, s', hs, hk, h => by
      obtain rfl := Option.some.inj h
      exact ⟨hs, hk, rfl⟩
  | e :: es, s, s', hs, hk, h => by
      obtain ⟨s₁, h₁, hrest⟩ := Option.bind_eq_some_iff.mp h
      obtain ⟨hcalls, hconns⟩ := step_leaves h₁
      have hk₁ : s₁.calls k = .closed := by
        rcases hcalls with hcalls | ⟨j, a, hcalls, hj⟩
        · rw [hcalls, hk]
        · rw [hcalls, Function.update_of_ne (by rintro rfl; exact hj hk), hk]
      obtain ⟨hsound, hclosed, hlen⟩ := closed_of_exec (hs.step h₁) hk₁ hrest
      refine ⟨hsound, hclosed, hlen.trans (hconns.resolve_right ?_)⟩
      rintro ⟨j, hj⟩
      rw [hs.shut k j hk] at hj
      cases hj

end Leaves

end Transport

/-! ## One connection -/

open Transport

/-- **One connection for one origin.**  Over all ways in which requests, calls of `aclose()`,
failures and cancellations come together:

* the lock has one holder, and one whose holder is cancelled is free;
* two connections that live are one; all that were ever made were made to one origin, and a request
  goes over a connection to the origin it names;
* when an `aclose()` has returned no connection lives, then and ever after, and none is made. -/
theorem transport_single {s : Transport} (h : Reachable (· = start) step Always s) :
    (∀ j k, (s.calls j).holds = true → (s.calls k).holds = true → j = k) ∧
    (∀ k, s.holder = some k → ∃ s', step (.cancel k) s = some s' ∧ s'.holder = none) ∧
    (∀ (c₁ c₂ : ℕ) (conn₁ conn₂ : Opened), s.conns[c₁]? = some conn₁ → s.conns[c₂]? = some conn₂ →
      conn₁.failed = false → conn₂.failed = false → c₁ = c₂) ∧
    (∀ conn ∈ s.conns, s.origin = some conn.origin) ∧
    (∀ k origin c, s.calls k = .requesting origin c → s.OpenedTo origin c) ∧
    (∀ k, s.calls k = .closed → ∀ es s', exec step es s = some s' →
      s'.AllFailed ∧ s'.conns.length = s.conns.length) := by
  have hs := sound_of_reachable h
  refine ⟨fun j k hj hk => ?_, fun k hk => ?_, fun c₁ c₂ conn₁ conn₂ h₁ h₂ hl₁ hl₂ => ?_, hs.origin,
    fun k origin c hk => ?_, fun k hk es s' hexec => ?_⟩
  · have hj := (hs.holder j).mp hj
    rw [(hs.holder k).mp hk] at hj
    exact (Option.some.inj hj).symm
  · have hholds := (hs.holder k).mpr hk
    cases hat : s.calls k with
    | retiring o | dialing o | tracing o c | closing => exact ⟨_, by rw [step, hat], rfl⟩
    | idle | queued o | requesting o c | ended | closeQueued | closed =>
        rw [hat] at hholds
        cases hholds
  · have hc₁ := hs.live c₁ conn₁ h₁ hl₁
    rw [hs.live c₂ conn₂ h₂ hl₂] at hc₁
    exact (Option.some.inj hc₁).symm
  · have hfits := hs.calls k
    rw [hk] at hfits
    exact hfits
  · obtain ⟨hsound, hclosed, hlen⟩ := closed_of_exec hs hk hexec
    have hfits := hsound.calls k
    rw [hclosed] at hfits
    exact ⟨hfits.2, hlen⟩

/-- Two requests, the second of which waits while the first dials, and an `aclose()` behind them. -/
theorem transport_single_sample :
    ∃ s, exec step [.request 0 true ("a", 443), .request 1 true ("a", 443), .dialed 0 true,
          .traced 0 true, .acquire, .aclose 2, .released 2] start = some s ∧
      s.calls 2 = .closed ∧ s.conns.length = 1 ∧ s.AllFailed := by
  obtain ⟨s, hs⟩ : ∃ s, exec step [.request 0 true ("a", 443), .request 1 true ("a", 443),
      .dialed 0 true, .traced 0 true, .acquire, .aclose 2, .released 2] start = some s := ⟨_, rfl⟩
  have hend : s.calls 2 = .closed ∧ s.conns.length = 1 := by
    obtain rfl := Option.some.inj hs
    exact ⟨rfl, rfl⟩
  have hsingle := transport_single (reachable_of_exec (.start rfl) hs)
  exact ⟨s, hs, hend.1, hend.2, (hsingle.2.2.2.2.2 2 hend.1 [] s rfl).1⟩

end TgWsProxy.H2Transport
