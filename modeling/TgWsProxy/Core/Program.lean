import Mathlib.Tactic.Common

/-!
# Programs with a state and exceptions

A program reads and changes a state and returns or raises; what it changed before it raised stays.

* `Prog`, `raise`, `attempt` — programs, and how they raise and catch.
* `Triple` — what holds after a return and what holds after an exception.
* `Triple.bind`, `Triple.attempt`, `Triple.weaken` — the rules.
* `Keeps` — a property that a program keeps, however it ends.
-/

namespace Wire

/-- A program over states `ω` that returns an `α` or raises an `ε`. -/
def Prog (ω ε α : Type) : Type := ω → Except ε α × ω

namespace Prog

variable {ω ε α β : Type}

instance : Monad (Prog ω ε) where
  pure a := fun w => (.ok a, w)
  bind m f := fun w =>
    match m w with
    | (.ok a, w') => f a w'
    | (.error e, w') => (.error e, w')

/-- The state. -/
def get : Prog ω ε ω := fun w => (.ok w, w)

/-- Change the state. -/
def modify (f : ω → ω) : Prog ω ε Unit := fun w => (.ok (), f w)

def raise (e : ε) : Prog ω ε α := fun w => (.error e, w)

/-- Run a program and look at how it ends. -/
def attempt (m : Prog ω ε α) : Prog ω ε (Except ε α) := fun w => (.ok (m w).1, (m w).2)

lemma bind_of_ok {m : Prog ω ε α} {f : α → Prog ω ε β} {w w' : ω} {a : α}
    (h : m w = (.ok a, w')) : (m >>= f) w = f a w' := by
  show (match m w with
    | (.ok a, w') => f a w'
    | (.error e, w') => (.error e, w')) = _
  rw [h]

lemma bind_of_error {m : Prog ω ε α} {f : α → Prog ω ε β} {w w' : ω} {e : ε}
    (h : m w = (.error e, w')) : (m >>= f) w = (.error e, w') := by
  show (match m w with
    | (.ok a, w') => f a w'
    | (.error e, w') => (.error e, w')) = _
  rw [h]

end Prog

/-! ## Triples -/

variable {ω ε α β : Type}

/-- What a program ends with: a value with `Q`, or an exception with `E`. -/
def EndsIn (Q : α → ω → Prop) (E : ε → ω → Prop) : Except ε α × ω → Prop
  | (.ok a, w) => Q a w
  | (.error e, w) => E e w

/-- From a state with `P`, what `m` returns satisfies `Q`, and what it raises `E`. -/
def Triple (P : ω → Prop) (m : Prog ω ε α) (Q : α → ω → Prop) (E : ε → ω → Prop) : Prop :=
  ∀ w, P w → EndsIn Q E (m w)

namespace Triple

variable {P P' : ω → Prop} {m : Prog ω ε α} {f : α → Prog ω ε β} {Q Q' : α → ω → Prop}
  {R : β → ω → Prop} {E E' : ε → ω → Prop}

lemma pure {a : α} (h : ∀ w, P w → Q a w) : Triple P (Pure.pure a : Prog ω ε α) Q E := h

lemma raise {e : ε} (h : ∀ w, P w → E e w) : Triple P (Prog.raise e : Prog ω ε α) Q E := h

lemma modify {g : ω → ω} {Q : Unit → ω → Prop} (h : ∀ w, P w → Q () (g w)) :
    Triple P (Prog.modify g : Prog ω ε Unit) Q E := h

/-- **Sequencing.**  An exception of the first program ends both. -/
theorem bind (hm : Triple P m Q E) (hf : ∀ a, Triple (Q a) (f a) R E) :
    Triple P (m >>= f) R E := by
  intro w hw
  have hfirst := hm w hw
  rcases hend : m w with ⟨e | a, w'⟩
  · rw [hend] at hfirst
    rw [Prog.bind_of_error hend]
    exact hfirst
  · rw [hend] at hfirst
    rw [Prog.bind_of_ok hend]
    exact hf a w' hfirst

/-- What follows may depend on the state as it is. -/
lemma get_bind {f : ω → Prog ω ε β} (hf : ∀ w, Triple P (f w) R E) :
    Triple P (Prog.get >>= f) R E :=
  fun w hw => hf w w hw

/-- Behind an attempt there is no exception. -/
lemma attempt (hm : Triple P m Q E) :
    Triple P m.attempt (fun r w => EndsIn Q E (r, w)) E' :=
  fun w hw => hm w hw

lemma weaken (h : Triple P m Q E) (hP : ∀ w, P' w → P w) (hQ : ∀ a w, Q a w → Q' a w)
    (hE : ∀ e w, E e w → E' e w) : Triple P' m Q' E' := by
  intro w hw
  have hend := h w (hP w hw)
  rcases hm : m w with ⟨e | a, w'⟩
  · rw [hm] at hend
    exact hE e w' hend
  · rw [hm] at hend
    exact hQ a w' hend

end Triple

/-! ## What a program keeps -/

/-- `I` survives `m`, whether it returns or raises. -/
def Keeps (I : ω → Prop) (m : Prog ω ε α) : Prop := Triple I m (fun _ => I) fun _ => I

namespace Keeps

variable {I : ω → Prop} {m : Prog ω ε α} {f : α → Prog ω ε β}

lemma pure (a : α) : Keeps I (Pure.pure a : Prog ω ε α) := Triple.pure fun _ h => h

lemma raise (e : ε) : Keeps I (Prog.raise e : Prog ω ε α) := Triple.raise fun _ h => h

lemma modify {g : ω → ω} (h : ∀ w, I w → I (g w)) : Keeps I (Prog.modify g : Prog ω ε Unit) :=
  Triple.modify h

lemma bind (hm : Keeps I m) (hf : ∀ a, Keeps I (f a)) : Keeps I (m >>= f) := Triple.bind hm hf

lemma get_bind {f : ω → Prog ω ε β} (hf : ∀ w, Keeps I (f w)) : Keeps I (Prog.get >>= f) :=
  Triple.get_bind hf

lemma attempt (hm : Keeps I m) : Keeps I m.attempt := by
  intro w hw
  have hend := hm w hw
  show I (m w).2
  rcases heq : m w with ⟨_ | _, w'⟩
  · rw [heq] at hend
    exact hend
  · rw [heq] at hend
    exact hend

/-- A program that keeps `I` in front of another one. -/
lemma before {R : β → ω → Prop} {E : ε → ω → Prop} (hm : Keeps I m) (hE : ∀ e w, I w → E e w)
    (hf : ∀ a, Triple I (f a) R E) : Triple I (m >>= f) R E :=
  Triple.bind (hm.weaken (fun _ h => h) (fun _ _ h => h) hE) hf

end Keeps

end Wire
