import TgWsProxy.H2.Lane.Book
import TgWsProxy.H2.Lane.Ledger
import TgWsProxy.H2.Lane.Ownership

/-!
# Reservations

Every reservation on a lane is given back once, in every run in which nobody is cancelled while it
waits for the lane's lock to give one back, and nobody releases the lane's lock for another.  Such
a cancellation loses the reservation for good.

* `Balanced` — the lane counts the reservations that somebody owns.
* `Matched` — a step keeps the reservations, makes one or gives one back, and so does the lane.
* **`reservations_conserved`** — both hold along the runs that `Spares` allows.
* `reservation_leaks` — two runs that it does not allow, and what is left behind.
-/

namespace TgWsProxy

open Wire

/-- The event does not cancel a coroutine that waits to give a reservation back. -/
def Releases (s : Sys) (e : Event) : Prop :=
  ∀ t, e = .run t .cancelled → (s.coro t).reservation = []

/-- Nor does it release the lock of another. -/
def Spares (s : Sys) (e : Event) : Prop := Releases s e ∧ Owning s e

/-- The lane counts the reservations that are owned. -/
structure Balanced (s : Sys) : Prop where
  inflight : s.lane.inflight = s.reservations.card
  queued : s.lane.queuedBytes = s.reservations.sum

/-- What a step does to the reservations, it does to the counters of the lane. -/
inductive Matched (s s' : Sys) : Prop
  | keep (hres : s'.reservations = s.reservations) (hinflight : s'.lane.inflight = s.lane.inflight)
      (hqueued : s'.lane.queuedBytes = s.lane.queuedBytes)
  | reserve (length : ℕ) (hres : s'.reservations = length ::ₘ s.reservations)
      (hinflight : s'.lane.inflight = s.lane.inflight + 1)
      (hqueued : s'.lane.queuedBytes = s.lane.queuedBytes + length)
  | release (length : ℕ) (hres : s.reservations = length ::ₘ s'.reservations)
      (hinflight : s'.lane.inflight = s.lane.inflight - 1)
      (hqueued : s'.lane.queuedBytes = s.lane.queuedBytes - length)

/-! ## Steps -/

section Steps

variable {E : AesKeystream} {s s' : Sys}

/-- Multisets that come to the same at any price are equal. -/
lemma eq_of_prices {a b : Multiset ℕ}
    (h : ∀ ρ : ℕ → ℤ, (a.map ρ).sum = (b.map ρ).sum) : a = b := by
  have hcount : ∀ (m : Multiset ℕ) (n : ℕ),
      (m.map fun k => if k = n then (1 : ℤ) else 0).sum = m.count n := by
    intro m n
    induction m using Multiset.induction with
    | empty => rfl
    | cons k m ih =>
        rw [Multiset.map_cons, Multiset.sum_cons, ih, Multiset.count_cons, Nat.cast_add]
        simp only [eq_comm (a := n), Nat.cast_ite, Nat.cast_one, Nat.cast_zero]
        ring
  ext n
  have hn := h fun k => if k = n then 1 else 0
  rw [hcount, hcount] at hn
  exact_mod_cast hn

lemma Posted.matched (h : Posted s s') : Matched s s' := by
  have hprice : ∀ {σ length n}, Entry s s' σ length n → ∀ ρ : ℕ → ℤ,
      (s'.reservations.map ρ).sum = (s.reservations.map ρ).sum + σ * ρ length := by
    intro σ length n hentry ρ
    rw [sum_reservations, sum_reservations, hentry.worth, zero_mul, add_zero]
  cases h with
  | keep h =>
      refine .keep (eq_of_prices fun ρ => ?_) (by rw [h.inflight, add_zero])
        (by rw [h.queued, zero_mul, add_zero])
      rw [hprice h, zero_mul, add_zero]
  | reserve length h =>
      refine .reserve length (eq_of_prices fun ρ => ?_) h.inflight (by rw [h.queued, one_mul])
      rw [hprice h, one_mul, Multiset.map_cons, Multiset.sum_cons, add_comm]
  | release length h =>
      refine .release length (eq_of_prices fun ρ => ?_) h.inflight
        (by rw [h.queued, neg_one_mul, sub_eq_add_neg])
      rw [Multiset.map_cons, Multiset.sum_cons, hprice h]
      ring
  | buffer n h =>
      refine .keep (eq_of_prices fun ρ => ?_) (by rw [h.inflight, add_zero])
        (by rw [h.queued, zero_mul, add_zero])
      rw [hprice h, zero_mul, add_zero]

lemma Balanced.matched (h : Balanced s) (hm : Matched s s') : Balanced s' := by
  cases hm with
  | keep hres hinflight hqueued =>
      exact ⟨by rw [hinflight, h.inflight, hres], by rw [hqueued, h.queued, hres]⟩
  | reserve length hres hinflight hqueued =>
      refine ⟨?_, ?_⟩
      · rw [hinflight, h.inflight, hres, Multiset.card_cons, Nat.cast_add, Nat.cast_one]
      · rw [hqueued, h.queued, hres, Multiset.sum_cons, Nat.cast_add, add_comm]
  | release length hres hinflight hqueued =>
      refine ⟨?_, ?_⟩
      · rw [hinflight, h.inflight, hres, Multiset.card_cons, Nat.cast_add, Nat.cast_one]
        ring
      · rw [hqueued, h.queued, hres, Multiset.sum_cons, Nat.cast_add]
        ring

/-- A step that is allowed is matched. -/
lemma Reaches.matched {e : Event} (h : Reaches E s) (hheld : LaneHeld s) (ha : Spares s e)
    (hs : step E e s = some s') : Matched s s' := by
  rcases posted_of_step h hs with hposted | ⟨t, i, rfl, hleaks⟩
  · exact hposted.matched
  cases hleaks with
  | release hi length hlength =>
      rw [ha.1 t (by rw [hi])] at hlength
      cases hlength
  | reserve hres hfree =>
      rw [hheld.lane t hres] at hfree
      cases hfree

end Steps

/-! ## Runs -/

/-- Where every channel is closed and every coroutine has ended, nobody owns a reservation. -/
lemma Reaches.reservations_eq_zero {E : AesKeystream} {s : Sys} (h : Reaches E s)
    (hclosed : ∀ c < s.nextChan, (s.chan c).closeDone = true)
    (hended : ∀ t, s.isDone t = true) : s.reservations = 0 := by
  have hpending : ∀ c ∈ Finset.range s.nextChan, ((s.chan c).pending.values : Multiset ℕ) = 0 := by
    intro c hc
    have hkeys := ((h.book c).done (hclosed c (Finset.mem_range.mp hc))).2.1
    rw [Dict.keys, List.map_eq_nil_iff] at hkeys
    rw [Dict.values, hkeys]
    rfl
  have howed : ∀ t ∈ Finset.range s.nextTask, ((s.coro t).reservation : Multiset ℕ) = 0 := by
    intro t _
    have ht := hended t
    rw [Sys.isDone] at ht
    cases hpc : s.coro t with
    | request c info pc => cases pc <;> simp_all [Coro.IsDone, Coro.reservation]
    | done => rfl
    | _ => simp [hpc, Coro.IsDone] at ht
  rw [Sys.reservations, Finset.sum_eq_zero hpending, Finset.sum_eq_zero howed, add_zero]

lemma Reaches.isDone_of_lt {E : AesKeystream} {s : Sys} (h : Reaches E s)
    (hended : ∀ t < s.nextTask, s.isDone t = true) (t : ℕ) : s.isDone t = true := by
  by_cases ht : t < s.nextTask
  · exact hended t ht
  · rw [Sys.isDone, h.formed.coro t (not_lt.mp ht)]
    rfl

/-- **Reservations are conserved**, as long as no coroutine is cancelled while it waits for the
lock of the lane to give one back, and none releases the lock of another.  The lane counts the
reservations that a pending request or a running `_send` or `_finish_request` owns, none is counted
twice or forgotten in any step, and the lane is idle again when every channel is closed and every
coroutine has ended. -/
theorem reservations_conserved {E : AesKeystream} {s : Sys}
    (h : Reachable Starting (step E) Spares s) :
    Balanced s ∧ 0 ≤ s.lane.inflight ∧ 0 ≤ s.lane.queuedBytes ∧
    (∀ e s', Spares s e → step E e s = some s' → Matched s s') ∧
    ((∀ c < s.nextChan, (s.chan c).closeDone = true) → (∀ t, s.isDone t = true) →
      s.lane.inflight = 0 ∧ s.lane.queuedBytes = 0) := by
  have hbalanced : Balanced s := by
    refine h.invariant ?_ ?_
    · rintro s ⟨clock, debug, -, rfl⟩
      exact ⟨rfl, rfl⟩
    · intro s e s' hr hb ha hs
      have hheld := laneHeld_of_owning (fun _ _ => And.right) hr
      exact hb.matched (Reaches.matched hr.always hheld ha hs)
  have hreach : Reaches E s := h.always
  have hheld := laneHeld_of_owning (fun _ _ => And.right) h
  refine ⟨hbalanced, ?_, ?_, fun e s' ha hs => hreach.matched hheld ha hs, fun hclosed hended => ?_⟩
  · rw [hbalanced.inflight]
    exact Int.natCast_nonneg _
  · rw [hbalanced.queued]
    exact Int.natCast_nonneg _
  · rw [hbalanced.inflight, hbalanced.queued, hreach.reservations_eq_zero hclosed hended]
    exact ⟨rfl, rfl⟩

/-- A packet is sent and answered, and its channel is closed. -/
def sentAndClosed : List Event :=
  [Event.openChannel, .send 0 (List.replicate 24 1)] ++ List.replicate 7 (Event.run 0 .resume) ++
    [Event.run 1 .resume, .run 1 (.opened {}), .run 1 .bodyEnd, .run 1 .resume, .run 1 .resume,
      .close 0, .run 2 .resume, .run 2 .resume]

/-- Its reservation was made and given back. -/
theorem reservations_conserved_sample :
    ∃ (E : AesKeystream) (s : Sys), Reachable Starting (step E) Spares s ∧
      (s.chan 0).requests = 1 ∧ s.lane.inflight = 0 ∧ s.lane.queuedBytes = 0 := by
  let E : AesKeystream := fun _ _ _ => 0
  have hrun : (exec (step E) sentAndClosed (Sys.start 1 false)).map (fun s =>
      decide ((s.chan 0).requests = 1 ∧ (∀ c < s.nextChan, (s.chan c).closeDone = true) ∧
        ∀ t < s.nextTask, s.isDone t = true)) = some true := by
    decide +kernel
  obtain ⟨s, hs, heq⟩ := Option.map_eq_some_iff.mp hrun
  obtain ⟨hrequests, hclosed, hended⟩ := of_decide_eq_true heq
  have hspares : ∀ e ∈ sentAndClosed, ∀ s, Spares s e := by
    intro e he s
    have hnot : ∀ t, e ≠ .run t .cancelled := by
      rintro t rfl
      simp [sentAndClosed] at he
    exact ⟨fun t heq => absurd heq (hnot t), fun t heq => absurd heq (hnot t)⟩
  have hreach : Reachable Starting (step E) Spares s :=
    reachable_of_exec_of_allowed hspares (.start ⟨1, false, one_pos, rfl⟩) hs
  have hdone := Reaches.isDone_of_lt hreach.always hended
  obtain ⟨-, -, -, -, hidle⟩ := reservations_conserved hreach
  exact ⟨E, s, hreach, hrequests, hidle hclosed hdone⟩

/-- A channel is closed while another one has locked the lane, so that its request waits to give
the reservation back, and `close` is cancelled.  Then everything else comes to its end. -/
def closedTwice : List Event :=
  [Event.openChannel, .send 0 (List.replicate 24 1)] ++ List.replicate 7 (Event.run 0 .resume) ++
    [Event.run 1 .resume, .openChannel, .send 1 (List.replicate 24 2)] ++
    List.replicate 5 (Event.run 2 .resume) ++
    [Event.close 0, .run 3 .resume, .run 1 .cancelled, .cancel 3, .run 1 .cancelled,
        .run 3 .cancelled,
      .cancel 2, .run 2 .cancelled, .close 0, .run 4 .resume, .run 4 .resume, .close 1,
      .run 5 .resume, .run 5 .resume]

/-- The test for `Releases`. -/
def releases (s : Sys) : Event → Bool
  | .run t .cancelled => (s.coro t).reservation = []
  | _ => true

lemma releases_of_test {s : Sys} {e : Event} (h : releases s e = true) : Releases s e := by
  rintro t rfl
  exact of_decide_eq_true h

set_option maxRecDepth 100000 in
/-- Nobody is left, and the lane still counts a request; and where the lock of `_reserve` is
released by another, the lane counts one that nobody has, without any such cancellation. -/
theorem reservation_leaks :
    (∃ (E : AesKeystream) (s : Sys), Reaches E s ∧
      (∀ c < s.nextChan, (s.chan c).closeDone = true) ∧ (∀ t, s.isDone t = true) ∧
      s.reservations = 0 ∧ s.lane.inflight = 1 ∧ s.lane.queuedBytes = 24) ∧
    ∃ (E : AesKeystream) (s : Sys), Reachable Starting (step E) Releases s ∧
      s.reservations.card = 63 ∧ s.lane.inflight = 64 := by
  let E : AesKeystream := fun _ _ _ => 0
  constructor
  · have hrun : (exec (step E) closedTwice (Sys.start 1 false)).map (fun s =>
        decide ((∀ c < s.nextChan, (s.chan c).closeDone = true) ∧
          (∀ t < s.nextTask, s.isDone t = true) ∧ s.lane.inflight = 1 ∧
            s.lane.queuedBytes = 24)) = some true := by
      decide +kernel
    obtain ⟨s, hs, heq⟩ := Option.map_eq_some_iff.mp hrun
    obtain ⟨hclosed, hended, hinflight, hqueued⟩ := of_decide_eq_true heq
    have hreach : Reaches E s := reachable_of_exec (.start ⟨1, false, one_pos, rfl⟩) hs
    have hdone := hreach.isDone_of_lt hended
    exact ⟨E, s, hreach, hclosed, hdone, hreach.reservations_eq_zero hclosed hdone,
        hinflight, hqueued⟩
  · have hrun : (exec (guarded releases (step E)) (foreignRelease ++ [.run 129 .resume])
        (Sys.start 1 false)).map (fun s => (s.reservations.card, s.lane.inflight)) =
        some (63, 64) := by
      decide +kernel
    obtain ⟨s, hs, heq⟩ := Option.map_eq_some_iff.mp hrun
    obtain ⟨hcard, hinflight⟩ := Prod.mk.inj heq
    have hstart : Reachable Starting (step E) Releases (Sys.start 1 false) :=
      .start ⟨1, false, one_pos, rfl⟩
    obtain ⟨-, hreach⟩ := reachable_of_exec_guarded (fun _ _ => releases_of_test) hstart hs
    exact ⟨E, s, hreach, hcard, hinflight⟩

end TgWsProxy
