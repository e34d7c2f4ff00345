import TgWsProxy.Core.Transition
import Mathlib.Data.Fintype.Basic
import Mathlib.Logic.Function.Basic

/-!
# A parent that waits for the first of its tasks

A parent starts some tasks and waits until one of them is done.  Then, or when it is cancelled
itself while it waits, it cancels all of them, awaits every one, and tidies up.

* `Nursery` — the tasks over a world they share: how each goes on, what a cancellation makes of it,
  when it is done, and the steps of the tidying.  A task that is done stays done.
* `Nursery.step` — the parent and its tasks, in any order.
* `Nursery.told`, `Nursery.joined` — behind the wait every task has been told, and while the parent
  tidies up every task is done.
* `Nursery.invariant` — what every part keeps holds of every world that is reached.
* `Nursery.exists_tidied` — the end of one task is enough for the parent to come to its end.
-/

namespace Wire

/-- Tasks `κ` over worlds `ω`, which go on by `ε`, and a parent that tidies up by `τ`. -/
structure Nursery (κ ω ε τ : Type*) where
  run : κ → ε → ω → Option ω
  cancel : κ → ω → ω
  done : κ → ω → Bool
  tidy : τ → ω → Option ω
  tidied : ω → Bool
  done_cancel : ∀ (k : κ) (w : ω), done k (cancel k w) = true
  done_of_cancel : ∀ {k : κ} (j : κ) {w : ω}, done k w = true → done k (cancel j w) = true
  done_of_run : ∀ {k j : κ} {e : ε} {w w' : ω}, done k w = true → done j w = false →
    run j e w = some w' → done k w' = true
  done_of_tidy : ∀ {k : κ} {t : τ} {w w' : ω}, done k w = true → tidy t w = some w' →
    done k w' = true

namespace Nursery

/-- Where the parent stands: in its wait, awaiting what it has cancelled, or behind that. -/
inductive Parent
  | waiting
  | joining
  | tidying
  deriving DecidableEq, Repr

/-- The world, the tasks whose `cancel()` was called, and the parent. -/
structure State (κ ω : Type*) where
  world : ω
  told : κ → Bool
  parent : Parent

/-- What may happen: a task goes on, somebody cancels it, the cancellation reaches it, the wait of
the parent is over or is cancelled, every task was awaited, the parent tidies up. -/
inductive Event (κ ε τ : Type*)
  | run (k : κ) (e : ε)
  | tell (k : κ)
  | cancelled (k : κ)
  | collect
  | interrupt
  | join
  | tidy (t : τ)

/-- A task goes on. -/
def Event.isRun {κ ε τ : Type*} : Event κ ε τ → Bool
  | .run _ _ => true
  | _ => false

/-- The tasks as they were started. -/
def State.started (κ : Type*) {ω : Type*} (w : ω) : State κ ω := ⟨w, fun _ => false, .waiting⟩

variable {κ ω ε τ : Type*} [Fintype κ] [DecidableEq κ] (N : Nursery κ ω ε τ)

/-- One step.  A task that was told does nothing but end, and a cancellation of the parent behind
its wait is caught. -/
def step : Event κ ε τ → State κ ω → Option (State κ ω)
  | .run k e, s =>
      if N.done k s.world = false ∧ s.told k = false then
        (N.run k e s.world).map fun world => { s with world }
      else none
  | .tell k, s => some { s with told := Function.update s.told k true }
  | .cancelled k, s =>
      if N.done k s.world = false ∧ s.told k = true then
        some { s with world := N.cancel k s.world }
      else none
  | .collect, s =>
      if s.parent = .waiting ∧ ∃ k, N.done k s.world = true then
        some { s with told := fun _ => true, parent := .joining }
      else none
  | .interrupt, s =>
      if s.parent = .waiting then some { s with told := fun _ => true, parent := .joining }
      else none
  | .join, s =>
      if s.parent = .joining ∧ ∀ k, N.done k s.world = true then
        some { s with parent := .tidying }
      else none
  | .tidy t, s =>
      if s.parent = .tidying ∧ N.tidied s.world = false then
        (N.tidy t s.world).map fun world => { s with world }
      else none

/-- The states that are reached from tasks started in the world `w`. -/
abbrev Reaches (w : ω) : State κ ω → Prop :=
  Reachable (· = State.started κ w) N.step Always

variable {N} {w : ω} {s s' : State κ ω}

/-- What a step does to the world. -/
lemma step_world {e : Event κ ε τ} (h : N.step e s = some s') :
    s'.world = s.world ∨
      (∃ k m, N.done k s.world = false ∧ N.run k m s.world = some s'.world) ∨
      (∃ k, N.done k s.world = false ∧ s'.world = N.cancel k s.world) ∨
      ∃ t, s.parent = .tidying ∧ N.tidied s.world = false ∧ N.tidy t s.world = some s'.world := by
  cases e with
  | run k m =>
      simp only [step] at h
      split_ifs at h with hk
      obtain ⟨world, hrun, rfl⟩ := Option.map_eq_some_iff.mp h
      exact Or.inr (Or.inl ⟨k, m, hk.1, hrun⟩)
  | tell k =>
      obtain rfl := Option.some.inj h
      exact Or.inl rfl
  | cancelled k =>
      simp only [step] at h
      split_ifs at h with hk
      obtain rfl := Option.some.inj h
      exact Or.inr (Or.inr (Or.inl ⟨k, hk.1, rfl⟩))
  | collect | interrupt | join =>
      simp only [step] at h
      split_ifs at h
      obtain rfl := Option.some.inj h
      exact Or.inl rfl
  | tidy t =>
      simp only [step] at h
      split_ifs at h with ht
      obtain ⟨world, htidy, rfl⟩ := Option.map_eq_some_iff.mp h
      exact Or.inr (Or.inr (Or.inr ⟨t, ht.1, ht.2, htidy⟩))

/-- What a step does to the parent, and to those who were told. -/
lemma step_parent {e : Event κ ε τ} (h : N.step e s = some s') :
    (s'.parent = s.parent ∧ ∀ k, s.told k = true → s'.told k = true) ∨
      (s'.parent = .joining ∧ ∀ k, s'.told k = true) ∨
      (s.parent = .joining ∧ s'.parent = .tidying ∧ s'.told = s.told ∧ s'.world = s.world ∧
        ∀ k, N.done k s.world = true) := by
  cases e with
  | run k m | tidy t =>
      simp only [step] at h
      split_ifs at h
      obtain ⟨world, -, rfl⟩ := Option.map_eq_some_iff.mp h
      exact Or.inl ⟨rfl, fun _ hk => hk⟩
  | tell k =>
      obtain rfl := Option.some.inj h
      refine Or.inl ⟨rfl, fun j hj => ?_⟩
      by_cases hjk : j = k
      · subst hjk
        exact Function.update_self ..
      · exact (Function.update_of_ne hjk ..).trans hj
  | cancelled k =>
      simp only [step] at h
      split_ifs at h
      obtain rfl := Option.some.inj h
      exact Or.inl ⟨rfl, fun _ hk => hk⟩
  | collect | interrupt =>
      simp only [step] at h
      split_ifs at h
      obtain rfl := Option.some.inj h
      exact Or.inr (Or.inl ⟨rfl, fun _ => rfl⟩)
  | join =>
      simp only [step] at h
      split_ifs at h with hj
      obtain rfl := Option.some.inj h
      exact Or.inr (Or.inr ⟨hj.1, rfl, rfl, rfl, hj.2⟩)

/-- A task that is done stays done. -/
lemma step_done {e : Event κ ε τ} (h : N.step e s = some s') {k : κ}
    (hk : N.done k s.world = true) : N.done k s'.world = true := by
  rcases step_world h with hw | ⟨j, m, hj, hrun⟩ | ⟨j, -, hw⟩ | ⟨t, -, -, htidy⟩
  · rwa [hw]
  · exact N.done_of_run hk hj hrun
  · rw [hw]
    exact N.done_of_cancel j hk
  · exact N.done_of_tidy hk htidy

/-- **Behind the wait every task was told.** -/
theorem told (h : N.Reaches w s) : s.parent ≠ .waiting → ∀ k, s.told k = true := by
  refine h.invariant (P := fun s => s.parent ≠ .waiting → ∀ k, s.told k = true) ?_ ?_
  · rintro s rfl hne
    exact absurd rfl hne
  · intro s e s' _ ih _ hs hne k
    rcases step_parent hs with ⟨hp, hk⟩ | ⟨-, hk⟩ | ⟨hp, -, htold, -⟩
    · exact hk k (ih (hp ▸ hne) k)
    · exact hk k
    · rw [htold]
      exact ih (by rw [hp]; decide) k

/-- **While the parent tidies up every task is done.** -/
theorem joined (h : N.Reaches w s) : s.parent = .tidying → ∀ k, N.done k s.world = true := by
  refine h.invariant (P := fun s => s.parent = .tidying → ∀ k, N.done k s.world = true) ?_ ?_
  · rintro s rfl hp
    cases hp
  · intro s e s' _ ih _ hs hp k
    rcases step_parent hs with ⟨hsame, -⟩ | ⟨hjoin, -⟩ | ⟨-, -, -, hw, hall⟩
    · exact step_done hs (ih (hsame ▸ hp) k)
    · rw [hjoin] at hp
      cases hp
    · rw [hw]
      exact hall k

/-- **Invariants.**  What a task keeps when it goes on and when it is cancelled, and the parent when
it tidies up behind them, holds of every world. -/
theorem invariant {P : ω → Prop} (hstart : P w)
    (hrun : ∀ k m w w', P w → N.done k w = false → N.run k m w = some w' → P w')
    (hcancel : ∀ k w, P w → N.done k w = false → P (N.cancel k w))
    (htidy : ∀ t w w', P w → (∀ k, N.done k w = true) → N.tidied w = false →
      N.tidy t w = some w' → P w') (h : N.Reaches w s) : P s.world := by
  refine h.invariant (P := fun s => P s.world) ?_ ?_
  · rintro s rfl
    exact hstart
  · intro s e s' hs ih _ hstep
    rcases step_world hstep with hw | ⟨k, m, hk, hw⟩ | ⟨k, hk, hw⟩ | ⟨t, hp, ht, hw⟩
    · rwa [hw]
    · exact hrun k m _ _ ih hk hw
    · rw [hw]
      exact hcancel k _ ih hk
    · exact htidy t _ _ ih (joined hs hp) ht hw

/-- The cancellations reach those of `ks` that are not done. -/
lemma exists_cancelled : ∀ (ks : List κ) {s : State κ ω}, (∀ k, s.told k = true) →
    ∃ es s', exec N.step es s = some s' ∧ (∀ e ∈ es, e.isRun = false) ∧
      s'.parent = s.parent ∧ (∀ k ∈ ks, N.done k s'.world = true) ∧
      ∀ k, N.done k s.world = true → N.done k s'.world = true
  | [], s, _ => ⟨[], s, rfl, fun _ h => absurd h List.not_mem_nil, rfl,
      fun _ h => absurd h List.not_mem_nil, fun _ h => h⟩
  | k :: ks, s, htold => by
      cases hk : N.done k s.world with
      | true =>
          obtain ⟨es, s', hexec, hno, hp, hall, hkept⟩ := exists_cancelled ks htold
          refine ⟨es, s', hexec, hno, hp, fun j hj => ?_, hkept⟩
          rcases List.mem_cons.mp hj with rfl | hj
          · exact hkept j hk
          · exact hall j hj
      | false =>
          have hstep : N.step (.cancelled k) s = some { s with world := N.cancel k s.world } :=
            if_pos ⟨hk, htold k⟩
          obtain ⟨es, s', hexec, hno, hp, hall, hkept⟩ :=
            exists_cancelled ks (s := { s with world := N.cancel k s.world }) htold
          refine ⟨.cancelled k :: es, s', ?_, fun e he => ?_, hp, fun j hj => ?_,
            fun j hj => hkept j (N.done_of_cancel k hj)⟩
          · rw [exec, hstep]
            exact hexec
          · rcases List.mem_cons.mp he with rfl | he
            · rfl
            · exact hno e he
          · rcases List.mem_cons.mp hj with rfl | hj
            · exact hkept j (N.done_cancel j s.world)
            · exact hall j hj

/-- Runs one after another. -/
lemma exec_append {es es' : List (Event κ ε τ)} {s₁ : State κ ω}
    (h : exec N.step es s = some s₁) (h' : exec N.step es' s₁ = some s') :
    exec N.step (es ++ es') s = some s' := by
  induction es generalizing s with
  | nil =>
      obtain rfl := Option.some.inj h
      exact h'
  | cons e es ih =>
      obtain ⟨s₂, h₂, h₃⟩ := Option.bind_eq_some_iff.mp h
      rw [List.cons_append, exec, h₂]
      exact ih h₃

/-- The tidying comes to its end when each of its steps can be made and they become fewer. -/
lemma exists_exec_tidy (rank : ω → ℕ) (hrank : ∀ v, N.tidied v = false →
      ∃ t v', N.tidy t v = some v' ∧ rank v' < rank v) {s : State κ ω} (hp : s.parent = .tidying) :
    ∃ es s', exec N.step es s = some s' ∧ (∀ e ∈ es, e.isRun = false) ∧
      s'.parent = .tidying ∧ N.tidied s'.world = true := by
  induction hn : rank s.world using Nat.strong_induction_on generalizing s with
  | _ n ih =>
    subst hn
    cases ht : N.tidied s.world with
    | true => exact ⟨[], s, rfl, fun _ h => absurd h List.not_mem_nil, hp, ht⟩
    | false =>
        obtain ⟨t, v, hv, hlt⟩ := hrank s.world ht
        have hstep : N.step (.tidy t) s = some { s with world := v } := by
          rw [step, if_pos ⟨hp, ht⟩, hv]
          rfl
        obtain ⟨es, s', hexec, hno, hend⟩ := ih (rank v) hlt (s := { s with world := v }) hp rfl
        refine ⟨.tidy t :: es, s', ?_, fun e he => ?_, hend⟩
        · rw [exec, hstep]
          exact hexec
        · rcases List.mem_cons.mp he with rfl | he
          · rfl
          · exact hno e he

/-- **The end of one is the end of all.**  When a task is done, or the parent has left its wait, the
parent can come to its end without any task going on. -/
theorem exists_tidied (rank : ω → ℕ) (hrank : ∀ v, N.tidied v = false →
      ∃ t v', N.tidy t v = some v' ∧ rank v' < rank v) (h : N.Reaches w s)
    (hend : s.parent ≠ .waiting ∨ ∃ k, N.done k s.world = true) :
    ∃ es s', exec N.step es s = some s' ∧ (∀ e ∈ es, e.isRun = false) ∧
      s'.parent = .tidying ∧ N.tidied s'.world = true := by
  -- From the join on: the cancellations are delivered, then everybody is awaited.
  have hjoin : ∀ {s : State κ ω}, s.parent = .joining → (∀ k, s.told k = true) →
      ∃ es s', exec N.step es s = some s' ∧ (∀ e ∈ es, e.isRun = false) ∧
        s'.parent = .tidying ∧ N.tidied s'.world = true := by
    intro s hp htold
    obtain ⟨es, s₁, hexec, hno, hp₁, hall, -⟩ := exists_cancelled Finset.univ.toList htold
    have hjoin : N.step .join s₁ = some { s₁ with parent := .tidying } :=
      if_pos ⟨hp₁.trans hp, fun k => hall k (Finset.mem_toList.mpr (Finset.mem_univ k))⟩
    obtain ⟨es', s', hexec', hno', hend'⟩ :=
      exists_exec_tidy rank hrank (s := { s₁ with parent := .tidying }) rfl
    refine ⟨es ++ .join :: es', s', exec_append hexec ?_, ?_, hend'⟩
    · rw [exec, hjoin]
      exact hexec'
    · intro e he
      rcases List.mem_append.mp he with he | he
      · exact hno e he
      · rcases List.mem_cons.mp he with rfl | he
        · rfl
        · exact hno' e he
  cases hp : s.parent with
  | waiting =>
      have hdone : ∃ k, N.done k s.world = true := hend.resolve_left (not_not.mpr hp)
      have hcollect : N.step .collect s
          = some { s with told := fun _ => true, parent := .joining } := if_pos ⟨hp, hdone⟩
      obtain ⟨es, s', hexec, hno, hend'⟩ :=
        hjoin (s := { s with told := fun _ => true, parent := .joining }) rfl fun _ => rfl
      refine ⟨.collect :: es, s', ?_, fun e he => ?_, hend'⟩
      · rw [exec, hcollect]
        exact hexec
      · rcases List.mem_cons.mp he with rfl | he
        · rfl
        · exact hno e he
  | joining => exact hjoin hp (told h (by rw [hp]; decide))
  | tidying => exact exists_exec_tidy rank hrank hp

end Nursery

end Wire
