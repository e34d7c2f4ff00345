import TgWsProxy.Core.Transition
import TgWsProxy.H2.Lane.Turns

/-!
# Runs of a lane

* `Reaches` — the states of the runs of a lane, from a fresh one.
* `stays_or_on` — to one channel a step does nothing, or one of the things in `MoveOn`.
* `Reaches.channel` — induction over a run for one channel.
-/

namespace TgWsProxy

open Wire

/-! ## Runs -/

/-- A fresh lane.  The monotonic clock is positive. -/
def Starting (s : Sys) : Prop := ∃ clock debug, 0 < clock ∧ s = Sys.start clock debug

/-- The state can be reached. -/
abbrev Reaches (E : AesKeystream) (s : Sys) : Prop := Reachable Starting (step E) Always s

lemma formed_held_of_reaches {E : AesKeystream} {s : Sys} (h : Reaches E s) :
    Formed s ∧ Held s := by
  refine h.invariant (P := fun s => Formed s ∧ Held s) ?_ ?_
  · rintro s ⟨clock, debug, -, rfl⟩
    exact ⟨.start clock debug, fun _ _ _ _ _ h => nomatch h⟩
  · intro s e s' _ ⟨hf, hheld⟩ _ hs
    exact ⟨(turn_of_step hf hheld hs).formed, held_of_step hf hheld hs⟩

lemma Reaches.formed {E : AesKeystream} {s : Sys} (h : Reaches E s) : Formed s :=
  (formed_held_of_reaches h).1

lemma Reaches.held {E : AesKeystream} {s : Sys} (h : Reaches E s) : Held s :=
  (formed_held_of_reaches h).2

lemma Reaches.turn {E : AesKeystream} {s s' : Sys} {e : Event} (h : Reaches E s)
    (hs : step E e s = some s') : Turn e.mover s s' :=
  turn_of_step h.formed h.held hs

lemma Reaches.move {E : AesKeystream} {s s' : Sys} {e : Event} (h : Reaches E s)
    (hs : step E e s = some s') : Move E s s' :=
  move_of_step h.formed.toAllocated hs

/-! ## One channel -/

lemma Allocated.req_next {s : Sys} (h : Allocated s) : s.req s.nextTask = none := by
  rw [Sys.req, h.coro _ le_rfl]
  rfl

lemma MoveOn.stays {E : AesKeystream} {c c' : ℕ} {s s' : Sys} (halloc : Allocated s)
    (h : MoveOn E c s s') (hne : c' ≠ c) : Stays c' s s' := by
  have hnext : ∀ info pc, s.req s.nextTask ≠ some (c', info, pc) := by simp [halloc.req_next]
  have hreq : ∀ {u r}, s.req u = some (c, r) → ∀ info pc, s.req u ≠ some (c', info, pc) := by
    rintro u r hu info pc heq
    rw [hu] at heq
    exact hne (congrArg Prod.fst (Option.some.inj heq)).symm
  cases h with
  | opened _ _ _ _ honly => exact honly.stays_none hne
  | bridged _ _ _ _ _ _ honly => exact honly.stays_none hne
  | native _ _ _ _ _ _ _ _ _ _ hreq' _ _ _ honly => exact honly.stays_some hne hnext hreq'
  | replay _ _ _ _ _ _ _ _ _ _ _ _ hreq' _ _ _ honly => exact honly.stays_some hne hnext hreq'
  | advance _ _ _ _ _ hu hreq' _ _ _ honly => exact honly.stays_some hne (hreq hu) hreq'
  | uploaded _ _ _ hu _ hreq' _ _ _ honly => exact honly.stays_some hne (hreq hu) hreq'
  | received _ _ _ _ hu _ hreq' _ _ _ _ _ _ honly => exact honly.stays_some hne (hreq hu) hreq'
  | ended u info p e receiving ch hu he hreceiving hbefore hafter hlog hnative honly =>
      split at hafter
      · exact honly.stays_some hne (hreq hu) hafter.2
      · exact honly.stays_some hne (hreq hu) hafter.2
  | closing _ _ _ _ _ honly => exact honly.stays_none hne
  | swept _ _ _ _ _ _ _ _ _ _ _ _ _ _ _ _ honly => exact honly.stays_none hne
  | cleared _ _ _ _ _ _ _ honly => exact honly.stays_none hne
  | rotated _ _ _ _ _ honly => exact honly.stays_none hne
  | dropped _ _ _ _ _ _ _ honly => exact honly.stays_none hne
  | wrote _ _ _ _ _ _ _ _ _ _ _ _ _ _ honly => exact honly.stays_none hne
  | drained _ _ _ _ _ _ honly => exact honly.stays_none hne
  | wroteError _ _ _ _ _ _ _ _ _ _ _ _ _ _ _ _ honly => exact honly.stays_none hne

/-- **One channel at a time.** -/
theorem stays_or_on {E : AesKeystream} {s s' : Sys} (halloc : Allocated s) (h : Move E s s')
    (c : ℕ) : Stays c s s' ∨ MoveOn E c s s' := by
  cases h with
  | quiet h => exact Or.inl (h.stays c)
  | on c' h =>
      by_cases hc : c = c'
      · subst hc
        exact Or.inr h
      · exact Or.inl (h.stays halloc hc)

/-- What holds of a fresh channel, and survives what a step may do to its channel, holds of every
channel that a run reaches. -/
theorem Reaches.channel {E : AesKeystream} {P : Sys → ℕ → Prop}
    (hstart : ∀ s c, Starting s → P s c)
    (hstays : ∀ s s' c, Stays c s s' → P s c → P s' c)
    (hon : ∀ s e s' c, Reaches E s → step E e s = some s' → P s c → MoveOn E c s s' → P s' c)
    {s : Sys} (h : Reaches E s) : ∀ c, P s c := by
  refine h.invariant (P := fun s => ∀ c, P s c) (fun s hs c => hstart s c hs) ?_
  intro s e s' hr hP _ hs c
  rcases stays_or_on (Reaches.formed hr).toAllocated (Reaches.move hr hs) c with hst | hmv
  · exact hstays s s' c hst (hP c)
  · exact hon s e s' c hr hs (hP c) hmv

end TgWsProxy
