import TgWsProxy.Core.Source

/-!
# A task that reads, transforms and writes

One direction of a relay: read some octets, put them through a transducer, write what comes out,
wait until it has gone, and again until nothing comes.

* `Transducer` — a transformation of streams that does not see where they are cut.
* `Pump` — the task with its source, the state of its transducer and what it has written; `step`
  takes it from one suspension to the next, and `cancel` ends it.
* `Pump.Fed` — what was written is the transform of what was read; `Fed.step`, `Fed.cancel`.
* `Pump.Fed.extends`, **`Pump.Fed.of_within`** — it is the transform of a beginning of the stream,
  and of all of it when the pump has come to the end.
-/

namespace Wire

/-- Octets in, octets out.  A stream may be cut anywhere. -/
structure Transducer (κ : Type*) where
  feed : κ → Bytes → Bytes × κ
  feed_nil : ∀ k : κ, feed k [] = ([], k)
  feed_append : ∀ (k : κ) (a b : Bytes), feed k (a ++ b) =
    ((feed k a).1 ++ (feed (feed k a).2 b).1, (feed (feed k a).2 b).2)

namespace Transducer

/-- Nothing is changed. -/
def verbatim : Transducer Unit where
  feed _ data := (data, ())
  feed_nil _ := rfl
  feed_append _ _ _ := rfl

/-- The transform of a beginning is a beginning of the transform. -/
lemma feed_prefix {κ : Type*} (T : Transducer κ) (k : κ) {a b : Bytes} (h : a <+: b) :
    (T.feed k a).1 <+: (T.feed k b).1 := by
  obtain ⟨rest, rfl⟩ := h
  rw [T.feed_append]
  exact List.prefix_append _ _

end Transducer

/-- Where a pump stands: before a read, in the wait behind a write, or at its end, which it came to
when nothing was read or otherwise. -/
inductive PumpAt
  | reading
  | draining
  | ended (atEnd : Bool)
  deriving DecidableEq, Repr

/-- How the wait of a pump ends: the read returned, and the write behind it does or does not raise;
the write has gone, or not. -/
inductive PumpMove
  | read (ok : Bool)
  | drained (ok : Bool)
  deriving DecidableEq, Repr

/-- A pump; `written` are the arguments of its writes. -/
structure Pump (ρ κ : Type*) where
  src : ρ
  state : κ
  written : List Bytes
  at' : PumpAt

namespace Pump

variable {ρ κ ε : Type*}

/-- Nothing done yet. -/
def start (src : ρ) (k : κ) : Pump ρ κ := ⟨src, k, [], .reading⟩

/-- From one wait to the next; an exception ends the pump. -/
def step (R : Source ρ ε) (T : Transducer κ) (n : ℕ) (m : PumpMove) (p : Pump ρ κ) :
    Option (Pump ρ κ) :=
  match m, p.at' with
  | .read ok, .reading =>
      match R.read n p.src with
      | (.error _, src) => some { p with src, at' := .ended false }
      | (.ok data, src) =>
          if data = [] then some { p with src, at' := .ended true }
          else
            let (out, state) := T.feed p.state data
            some { src, state
                   written := p.written ++ [out]
                   at' := if ok then .draining else .ended false }
  | .drained ok, .draining => some { p with at' := if ok then .reading else .ended false }
  | _, _ => none

/-- It is at its end. -/
def done (p : Pump ρ κ) : Bool :=
  match p.at' with
  | .ended _ => true
  | _ => false

/-- A cancellation. -/
def cancel (p : Pump ρ κ) : Pump ρ κ := if p.done then p else { p with at' := .ended false }

lemma done_cancel (p : Pump ρ κ) : p.cancel.done = true := by
  unfold cancel
  split_ifs with h
  · exact h
  · rfl

variable {R : Source ρ ε} {T : Transducer κ} {n : ℕ} {p₀ p p' : Pump ρ κ} {m : PumpMove} {x : Bytes}

/-- What was written is the transform of what was read, and at the end the source has no more. -/
def Fed (R : Source ρ ε) (T : Transducer κ) (n : ℕ) (p₀ p : Pump ρ κ) : Prop :=
  ∃ got c, R.Gets p₀.src got c ∧ p.state = (T.feed p₀.state got).2 ∧
    p.written.flatten = p₀.written.flatten ++ (T.feed p₀.state got).1 ∧
    (p.done = false → p.src = c) ∧ (p.at' = .ended true → ∃ c', R.read n c = (.ok [], c'))

lemma Fed.start (src : ρ) (k : κ) : Fed R T n (start src k) (start src k) := by
  refine ⟨[], src, .refl src, ?_, ?_, fun _ => rfl, by rintro ⟨⟩⟩
  · rw [T.feed_nil]
  · rw [T.feed_nil, List.append_nil]

/-- The pump ends otherwise than at the end of its source. -/
lemma Fed.fail (h : Fed R T n p₀ p) (src : ρ) :
    Fed R T n p₀ { p with src, at' := .ended false } := by
  obtain ⟨got, c, hgets, hstate, hwritten, -⟩ := h
  exact ⟨got, c, hgets, hstate, hwritten, by rintro ⟨⟩, by rintro ⟨⟩⟩

/-- **One step.** -/
lemma Fed.step (h : Fed R T n p₀ p) (hn : 1 ≤ n) (hstep : p.step R T n m = some p') :
    Fed R T n p₀ p' := by
  obtain ⟨got, c, hgets, hstate, hwritten, hsrc, -⟩ := id h
  unfold Pump.step at hstep
  split at hstep
  · next ok hat =>
      have hsrc := hsrc (by rw [done, hat])
      split at hstep
      · obtain rfl := Option.some.inj hstep
        exact h.fail _
      · next data src hread =>
          rw [hsrc] at hread
          by_cases hnil : data = []
          · rw [if_pos hnil] at hstep
            obtain rfl := Option.some.inj hstep
            subst hnil
            exact ⟨got, c, hgets, hstate, hwritten, by rintro ⟨⟩, fun _ => ⟨src, hread⟩⟩
          · rw [if_neg hnil] at hstep
            obtain rfl := Option.some.inj hstep
            refine ⟨got ++ data, src, hgets.snoc hn hread hnil, ?_, ?_, fun _ => rfl,
              fun hend => ?_⟩
            · show (T.feed p.state data).2 = _
              rw [T.feed_append, hstate]
            · show (p.written ++ [(T.feed p.state data).1]).flatten = _
              rw [List.flatten_concat, hwritten, hstate, T.feed_append, List.append_assoc]
            · cases ok <;> cases hend
  · next ok hat =>
      have hsrc := hsrc (by rw [done, hat])
      obtain rfl := Option.some.inj hstep
      refine ⟨got, c, hgets, hstate, hwritten, fun _ => hsrc, fun hend => ?_⟩
      cases ok <;> cases hend
  · cases hstep

lemma Fed.cancel (h : Fed R T n p₀ p) : Fed R T n p₀ p.cancel := by
  unfold Pump.cancel
  split_ifs
  · exact h
  · exact h.fail p.src

/-- Behind what the pump began with comes a beginning of the transformed stream, or all of it. -/
lemma Fed.extends (h : Fed R T n p₀ p) (hn : 1 ≤ n) (hx : R.Within p₀.src x) :
    p.written.flatten <+: p₀.written.flatten ++ (T.feed p₀.state x).1 ∧
      (p.at' = .ended true → R.ReadsAs p₀.src x →
        p.written.flatten = p₀.written.flatten ++ (T.feed p₀.state x).1) := by
  obtain ⟨got, c, hgets, -, hwritten, -, hend⟩ := h
  rw [hwritten]
  refine ⟨(List.prefix_append_right_inj _).mpr (T.feed_prefix _ (hx got c hgets)),
    fun hat hreads => ?_⟩
  obtain ⟨c', hnil⟩ := hend hat
  rw [(hreads.of_gets hgets hn).2 c' hnil]

/-- **A beginning of the stream, or all of it.** -/
theorem Fed.of_within (h : Fed R T n p₀ p) (hn : 1 ≤ n) (hstart : p₀.written = [])
    (hx : R.Within p₀.src x) :
    p.written.flatten <+: (T.feed p₀.state x).1 ∧
      (p.at' = .ended true → R.ReadsAs p₀.src x → p.written.flatten = (T.feed p₀.state x).1) := by
  have hextends := h.extends hn hx
  rwa [hstart, List.flatten_nil, List.nil_append] at hextends

end Pump

end Wire
