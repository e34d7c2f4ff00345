import Mathlib.Tactic.Common

/-!
# Runs of a partial step function

A system is a step function `step : ε → σ → Option σ` that says what each event makes of a state,
and a set of start states.

* `Reachable` — the states of the runs whose events are all allowed where they happen.
* `Reachable.invariant` — what holds at the start and is preserved by every step holds everywhere.
* `exec` — a run as a list of events, to be computed; `guarded` with a test on every event.
-/

namespace Wire

variable {σ ε : Type*}

/-- The states that a run from a start state reaches through allowed steps. -/
inductive Reachable (start : σ → Prop) (step : ε → σ → Option σ) (allowed : σ → ε → Prop) : σ → Prop
  | start {s : σ} (h : start s) : Reachable start step allowed s
  | step {s s' : σ} (e : ε) (h : Reachable start step allowed s) (ha : allowed s e)
      (hs : step e s = some s') : Reachable start step allowed s'

/-- Every event is allowed everywhere. -/
def Always (_ : σ) (_ : ε) : Prop := True

namespace Reachable

variable {start : σ → Prop} {step : ε → σ → Option σ} {allowed : σ → ε → Prop}

/-- **Invariants.**  What holds at the start and survives every allowed step from a reachable state
holds in every reachable state. -/
theorem invariant {P : σ → Prop} (hstart : ∀ s, start s → P s)
    (hstep : ∀ s e s', Reachable start step allowed s → P s → allowed s e → step e s = some s' →
      P s') {s : σ} (h : Reachable start step allowed s) : P s := by
  induction h with
  | start h => exact hstart _ h
  | step e h ha hs ih => exact hstep _ e _ h ih ha hs

/-- A run under a restriction is a run. -/
lemma mono {allowed' : σ → ε → Prop} (hle : ∀ s e, allowed s e → allowed' s e) {s : σ}
    (h : Reachable start step allowed s) : Reachable start step allowed' s := by
  induction h with
  | start h => exact .start h
  | step e _ ha hs ih => exact .step e ih (hle _ _ ha) hs

lemma always {s : σ} (h : Reachable start step allowed s) : Reachable start step Always s :=
  h.mono fun _ _ _ => trivial

end Reachable

/-- The state a list of events leads to. -/
def exec (step : ε → σ → Option σ) : List ε → σ → Option σ
  | [], s => some s
  | e :: es, s => (step e s).bind (exec step es)

/-- A computed run of allowed events is a run. -/
theorem reachable_of_exec_of_allowed {start : σ → Prop} {step : ε → σ → Option σ}
    {allowed : σ → ε → Prop} : ∀ {es : List ε} {s s' : σ}, (∀ e ∈ es, ∀ s, allowed s e) →
      Reachable start step allowed s → exec step es s = some s' → Reachable start step allowed s'
  | [], _, _, _, hs, h => Option.some.inj h ▸ hs
  | e :: es, s, s', hall, hs, h => by
      obtain ⟨s₁, h₁, h₂⟩ := Option.bind_eq_some_iff.mp h
      exact reachable_of_exec_of_allowed (fun e' he' => hall e' (List.mem_cons_of_mem _ he'))
        (.step e hs (hall e List.mem_cons_self s) h₁) h₂

/-- A computed run is a run. -/
theorem reachable_of_exec {start : σ → Prop} {step : ε → σ → Option σ} {es : List ε} {s s' : σ}
    (hs : Reachable start step Always s) (h : exec step es s = some s') :
    Reachable start step Always s' :=
  reachable_of_exec_of_allowed (fun _ _ _ => trivial) hs h

/-- The steps that a test lets through. -/
def guarded (ok : σ → ε → Bool) (step : ε → σ → Option σ) (e : ε) (s : σ) : Option σ :=
  if ok s e then step e s else none

/-- A computed run whose events pass the test where they happen is a run of allowed events. -/
theorem reachable_of_exec_guarded {start : σ → Prop} {step : ε → σ → Option σ}
    {allowed : σ → ε → Prop} {ok : σ → ε → Bool} (hok : ∀ s e, ok s e = true → allowed s e) :
    ∀ {es : List ε} {s s' : σ}, Reachable start step allowed s →
      exec (guarded ok step) es s = some s' →
      exec step es s = some s' ∧ Reachable start step allowed s'
  | [], _, _, hs, h => ⟨h, Option.some.inj h ▸ hs⟩
  | e :: es, s, s', hs, h => by
      obtain ⟨s₁, h₁, h₂⟩ := Option.bind_eq_some_iff.mp h
      rw [guarded] at h₁
      split_ifs at h₁ with htest
      obtain ⟨hexec, hreach⟩ := reachable_of_exec_guarded hok (.step e hs (hok s e htest) h₁) h₂
      refine ⟨?_, hreach⟩
      rw [exec, h₁]
      exact hexec

end Wire
