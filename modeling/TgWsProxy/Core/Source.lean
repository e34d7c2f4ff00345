import TgWsProxy.Core.Bytes

/-!
# Readers of an octet stream

A source returns some octets at each read, and none when it is at its end.

* `Source` — a read function and a bound for what it may still return.
* `Source.Gets` — successive reads, of any sizes, each of which returns something.
* `Source.Within` — whatever is read is a beginning of the octets `x`.
* `Source.ReadsAs` — the source reads as the octets `x`: every read returns more of them, nothing
  only behind the last, and never an error.
* `ReadsAs.read`, `ReadsAs.of_invariant` — what one read of such a source gives, and how a source
  is shown to be one.
-/

namespace Wire

/-- A source of octets with states `ρ` and errors `ε`.  The bound makes a loop that reads until
nothing comes terminate. -/
structure Source (ρ ε : Type*) where
  read : ℕ → ρ → Except ε Bytes × ρ
  left : ρ → ℕ
  left_lt : ∀ {n : ℕ} {s s' : ρ} {data : Bytes}, read n s = (.ok data, s') → data ≠ [] →
    left s' < left s

namespace Source

variable {ρ ε : Type*} {R : Source ρ ε} {s s' : ρ} {x : Bytes}

/-- Reads that return `got` altogether, each of them something. -/
inductive Gets (R : Source ρ ε) : ρ → Bytes → ρ → Prop
  | refl (s : ρ) : Gets R s [] s
  | read {s s₁ s' : ρ} {n : ℕ} {data got : Bytes} (hn : 1 ≤ n) (h : R.read n s = (.ok data, s₁))
      (hne : data ≠ []) (hgets : Gets R s₁ got s') : Gets R s (data ++ got) s'

/-- One more read. -/
lemma Gets.snoc {got data : Bytes} {n : ℕ} {s₁ : ρ} (h : R.Gets s got s₁) (hn : 1 ≤ n)
    (hread : R.read n s₁ = (.ok data, s')) (hne : data ≠ []) : R.Gets s (got ++ data) s' := by
  induction h with
  | refl s =>
      have hone := Gets.read hn hread hne (.refl s')
      rwa [List.append_nil] at hone
  | read hn' hread' hne' _ ih =>
      rw [List.append_assoc]
      exact .read hn' hread' hne' (ih hread)

/-- Whatever is read of the source is a beginning of `x`. -/
def Within (R : Source ρ ε) (s : ρ) (x : Bytes) : Prop := ∀ got s', R.Gets s got s' → got <+: x

/-- The source reads as the octets `x`. -/
def ReadsAs (R : Source ρ ε) (s : ρ) (x : Bytes) : Prop :=
  ∀ (got : Bytes) (s' : ρ) (n : ℕ), R.Gets s got s' → 1 ≤ n →
    ∃ data s'', R.read n s' = (.ok data, s'') ∧ data.length ≤ n ∧ got ++ data <+: x ∧
      (data = [] ↔ got = x)

namespace ReadsAs

/-- What was read, and what the next read says about it. -/
lemma of_gets (h : R.ReadsAs s x) {got : Bytes} (hgets : R.Gets s got s') {n : ℕ} (hn : 1 ≤ n) :
    got <+: x ∧ ∀ s'', R.read n s' = (.ok [], s'') → got = x := by
  obtain ⟨data, s'', hread, -, hpre, hend⟩ := h got s' n hgets hn
  refine ⟨(List.prefix_append got data).trans hpre, fun s₃ hnil => hend.mp ?_⟩
  rw [hread] at hnil
  exact Except.ok.inj (Prod.mk.inj hnil).1

/-- One read. -/
lemma read (h : R.ReadsAs s x) {n : ℕ} (hn : 1 ≤ n) :
    ∃ data s' y, R.read n s = (.ok data, s') ∧ data.length ≤ n ∧ x = data ++ y ∧
      (data = [] ↔ x = []) ∧ (data ≠ [] → R.ReadsAs s' y) := by
  obtain ⟨data, s', hread, hlen, ⟨y, rfl⟩, hend⟩ := h [] s n (.refl s) hn
  refine ⟨data, s', y, hread, hlen, rfl, hend.trans eq_comm, fun hne got s'' m hgets hm => ?_⟩
  obtain ⟨next, s₃, hnext, hle, hpre, hlast⟩ := h (data ++ got) s'' m (.read hn hread hne hgets) hm
  refine ⟨next, s₃, hnext, hle, ?_, ?_⟩
  · rwa [List.append_assoc, List.nil_append, List.prefix_append_right_inj] at hpre
  · rwa [List.nil_append, List.append_cancel_left_eq] at hlast

lemma within (h : R.ReadsAs s x) : R.Within s x := fun _ _ hgets =>
  (h.of_gets hgets le_rfl).1

/-- **Invariants.**  A relation between states and what is still to be read, of which every read
returns some, shows what a source reads as. -/
theorem of_invariant {P : ρ → Bytes → Prop}
    (hstep : ∀ s x n, P s x → 1 ≤ n → ∃ data s' y, R.read n s = (.ok data, s') ∧
      data.length ≤ n ∧ x = data ++ y ∧ (data = [] ↔ x = []) ∧ (data ≠ [] → P s' y))
    (h : P s x) : R.ReadsAs s x := by
  intro got s' n hgets hn
  induction hgets generalizing x with
  | refl s =>
      obtain ⟨data, s', y, hread, hlen, rfl, hend, -⟩ := hstep s x n h hn
      exact ⟨data, s', hread, hlen, List.prefix_append data y, hend.trans eq_comm⟩
  | read hm hread hne hgets ih =>
      obtain ⟨data, s₁, y, hread', -, rfl, -, hnext⟩ := hstep _ x _ h hm
      obtain ⟨hdata, rfl⟩ := Prod.mk.inj (hread.symm.trans hread')
      obtain rfl := Except.ok.inj hdata
      obtain ⟨data', s'', hlast, hlen, hpre, hend⟩ := ih (hnext hne)
      refine ⟨data', s'', hlast, hlen, ?_, ?_⟩
      · rwa [List.append_assoc, List.prefix_append_right_inj]
      · rwa [List.append_cancel_left_eq]

end ReadsAs

end Source

end Wire
