import TgWsProxy.Core.Pump
import TgWsProxy.Core.Transition
import TgWsProxy.Bridge.WsSession
import TgWsProxy.FakeTls.EndOfStream

/-!
# What a stranger sees

`proxy_to_masking_domain` of `proxy/fake_tls.py`: a client that does not know the secret is
connected to a real site.  What it has said so far is said again there, and two `_relay` tasks carry
the rest.

* `Masking`, `Masking.step` — the code, from one wait to the next.  The `finally` of a `_relay`
  closes its writer in the step that ends its loop.
* `Masking.Kept` — what every step keeps.
* **`masking_relays`** — in every state the site has a beginning of all that the client sends, from
  its first octet, and the client has a beginning of what the site sends and nothing else.
-/

namespace TgWsProxy

open Wire

/-! ## The code -/

/-- Where the coroutine stands: in `open_connection`, in the `drain()` behind the initial data, in
`gather`, at its end. -/
inductive MaskingAt
  | dialing
  | greeting
  | relaying
  | finished
  deriving DecidableEq, Repr

/-- `up` is `_relay(reader, up_writer)`, with the initial data among what was written to the site,
and `down` is `_relay(up_reader, writer)`. -/
structure Masking where
  at' : MaskingAt
  opened : Bool
  up : Pump StreamReader Unit
  down : Pump StreamReader Unit
  upClosed : Bool
  clientClosed : Bool

/-- What may happen: the site was dialled, the initial data has gone, a `_relay` goes on, both are
through the `wait_closed()` behind their loops, the coroutine is cancelled. -/
inductive MaskingMove
  | dialed (ok : Bool)
  | greeted (ok : Bool)
  | relay (k : Side) (m : PumpMove)
  | gathered
  | cancel
  deriving DecidableEq, Repr

namespace Masking

/-- `proxy_to_masking_domain(reader, writer, …)`, and the reader of the site. -/
def start (client site : StreamReader) : Masking :=
  { at' := .dialing
    opened := false
    up := .start client ()
    down := .start site ()
    upClosed := false
    clientClosed := false }

/-- `up_writer.write(initial_data)`, where there is some. -/
def greeting (initialData : Bytes) : List Bytes := if initialData = [] then [] else [initialData]

/-- One step.  A cancelled `_relay` ends its loop, and closes its writer, too. -/
def step (initialData : Bytes) : MaskingMove → Masking → Option Masking
  | .dialed ok, s =>
      if s.at' = .dialing then
        if ok then
          some { s with
            opened := true
            up := { s.up with written := greeting initialData }
            at' := if initialData = [] then .relaying else .greeting }
        else some { s with at' := .finished }
      else none
  | .greeted ok, s =>
      if s.at' = .greeting then
        if ok then some { s with at' := .relaying }
        else some { s with upClosed := true, at' := .finished }
      else none
  | .relay .up m, s =>
      if s.at' = .relaying then
        (s.up.step StreamReader.source .verbatim 16384 m).map fun up =>
          { s with up, upClosed := up.done }
      else none
  | .relay .down m, s =>
      if s.at' = .relaying then
        (s.down.step StreamReader.source .verbatim 16384 m).map fun down =>
          { s with down, clientClosed := down.done }
      else none
  | .gathered, s =>
      if s.at' = .relaying ∧ s.up.done = true ∧ s.down.done = true then
        some { s with upClosed := true, at' := .finished }
      else none
  | .cancel, s =>
      match s.at' with
      | .dialing => some { s with at' := .finished }
      | .greeting => some { s with upClosed := true, at' := .finished }
      | .relaying =>
          some { s with up := s.up.cancel, upClosed := true, down := s.down.cancel
                        clientClosed := true }
      | .finished => none

/-- The states of a run. -/
abbrev Reaches (initialData : Bytes) (client site : StreamReader) : Masking → Prop :=
  Reachable (· = start client site) (step initialData) Always

/-! ## What is kept -/

@[simp] lemma flatten_greeting (initialData : Bytes) :
    (greeting initialData).flatten = initialData := by
  unfold greeting
  split_ifs with h
  · exact h.symm
  · rw [List.flatten_singleton]

/-- The pumps are as they were started until the site is there; from then on they carry what they
read, and what they write to is closed at their ends. -/
structure Kept (initialData : Bytes) (client site : StreamReader) (s : Masking) : Prop where
  unopened : s.opened = false → (s.at' = .dialing ∨ s.at' = .finished) ∧ s.up = .start client () ∧
    s.upClosed = false
  opened : s.opened = true → s.at' ≠ .dialing ∧
    Pump.Fed StreamReader.source .verbatim 16384 ⟨client, (), greeting initialData, .reading⟩ s.up ∧
      (s.upClosed = true ↔ s.up.done = true ∨ s.at' = .finished)
  down : Pump.Fed StreamReader.source .verbatim 16384 (.start site ()) s.down
  client : s.clientClosed = s.down.done

namespace Kept

variable {initialData : Bytes} {client site : StreamReader} {s s' : Masking}

lemma start (initialData : Bytes) (client site : StreamReader) :
    Kept initialData client site (start client site) :=
  ⟨fun _ => ⟨Or.inl rfl, rfl, rfl⟩, by rintro ⟨⟩, .start site (), rfl⟩

/-- Where the site is there, it has been opened. -/
lemma isOpened (h : Kept initialData client site s) (hne : s.at' ≠ .dialing)
    (hne' : s.at' ≠ .finished) : s.opened = true := by
  by_contra hnot
  rcases (h.unopened (Bool.eq_false_iff.mpr hnot)).1 with hat | hat
  · exact hne hat
  · exact hne' hat

/-- The coroutine goes on, or ends, with the pumps as they are. -/
lemma move (h : Kept initialData client site s) (hopened : s.opened = true)
    {at' : MaskingAt} (hat : at' ≠ .dialing) {upClosed : Bool}
    (hup : upClosed = true ↔ s.up.done = true ∨ at' = .finished) :
    Kept initialData client site { s with upClosed, at' } := by
  refine ⟨fun hnot => ?_, fun _ => ⟨hat, (h.opened hopened).2.1, hup⟩, h.down, h.client⟩
  exact absurd hopened (Bool.eq_false_iff.mp hnot)

lemma unopened_of_dialing (h : Kept initialData client site s) (hat : s.at' = .dialing) :
    s.opened = false := by
  by_contra hopened
  exact (h.opened (Bool.not_eq_false _ ▸ hopened)).1 hat

/-- The coroutine ends with no site. -/
lemma abandoned (h : Kept initialData client site s) (hat : s.at' = .dialing) :
    Kept initialData client site { s with at' := .finished } := by
  have hnot := h.unopened_of_dialing hat
  obtain ⟨-, hup, hclosed⟩ := h.unopened hnot
  refine ⟨fun _ => ⟨Or.inr rfl, hup, hclosed⟩, fun hopened => ?_, h.down, h.client⟩
  exact absurd hopened (Bool.eq_false_iff.mp hnot)

/-- The site is there, and is told the initial data. -/
lemma dialed (h : Kept initialData client site s) (hat : s.at' = .dialing) {at' : MaskingAt}
    (hne : at' ≠ .dialing) (hne' : at' ≠ .finished) :
    Kept initialData client site
      { s with opened := true, up := { s.up with written := greeting initialData }, at' } := by
  obtain ⟨-, hup, hclosed⟩ := h.unopened (h.unopened_of_dialing hat)
  refine ⟨by rintro ⟨⟩, fun _ => ⟨hne, ?_, ?_⟩, h.down, h.client⟩
  · show Pump.Fed _ _ _ _ { s.up with written := greeting initialData }
    rw [hup]
    exact ⟨[], client, .refl client, rfl, (List.append_nil _).symm, fun _ => rfl, by rintro ⟨⟩⟩
  · show s.upClosed = true ↔ s.up.done = true ∨ at' = .finished
    rw [hclosed, hup]
    simp [Pump.start, Pump.done, hne']

lemma relay {k : Side} {m : PumpMove} (h : Kept initialData client site s)
    (hstep : step initialData (.relay k m) s = some s') : Kept initialData client site s' := by
  cases k with
  | up =>
      simp only [step] at hstep
      split_ifs at hstep with hat
      obtain ⟨up, hup, rfl⟩ := Option.map_eq_some_iff.mp hstep
      have hopened := h.isOpened (by rw [hat]; rintro ⟨⟩) (by rw [hat]; rintro ⟨⟩)
      obtain ⟨hne, hfed, -⟩ := h.opened hopened
      refine ⟨fun hnot => absurd hopened (Bool.eq_false_iff.mp hnot), fun _ => ⟨hne, ?_, ?_⟩,
        h.down, h.client⟩
      · exact hfed.step (by decide) hup
      · show up.done = true ↔ up.done = true ∨ s.at' = .finished
        rw [hat]
        simp
  | down =>
      simp only [step] at hstep
      split_ifs at hstep with hat
      obtain ⟨down, hdown, rfl⟩ := Option.map_eq_some_iff.mp hstep
      exact ⟨h.unopened, h.opened, h.down.step (by decide) hdown, rfl⟩

lemma cancel (h : Kept initialData client site s)
    (hstep : step initialData .cancel s = some s') : Kept initialData client site s' := by
  simp only [step] at hstep
  split at hstep
  · next hat =>
      obtain rfl := Option.some.inj hstep
      exact h.abandoned hat
  · next hat =>
      obtain rfl := Option.some.inj hstep
      have hopened := h.isOpened (by rw [hat]; rintro ⟨⟩) (by rw [hat]; rintro ⟨⟩)
      exact h.move hopened (by rintro ⟨⟩) (iff_of_true rfl (Or.inr rfl))
  · next hat =>
      obtain rfl := Option.some.inj hstep
      have hopened := h.isOpened (by rw [hat]; rintro ⟨⟩) (by rw [hat]; rintro ⟨⟩)
      obtain ⟨hne, hfed, -⟩ := h.opened hopened
      refine ⟨fun hnot => absurd hopened (Bool.eq_false_iff.mp hnot), fun _ => ⟨hne, ?_, ?_⟩, ?_,
        ?_⟩
      · exact hfed.cancel
      · exact iff_of_true rfl (Or.inl s.up.done_cancel)
      · exact h.down.cancel
      · exact s.down.done_cancel.symm
  · cases hstep

/-- **One step.** -/
lemma step {m : MaskingMove} (h : Kept initialData client site s)
    (hstep : step initialData m s = some s') : Kept initialData client site s' := by
  cases m with
  | dialed ok =>
      simp only [Masking.step] at hstep
      split_ifs at hstep with hat hok
      · obtain rfl := Option.some.inj hstep
        exact h.dialed hat (by rintro ⟨⟩) (by rintro ⟨⟩)
      · obtain rfl := Option.some.inj hstep
        exact h.dialed hat (by rintro ⟨⟩) (by rintro ⟨⟩)
      · obtain rfl := Option.some.inj hstep
        exact h.abandoned hat
  | greeted ok =>
      simp only [Masking.step] at hstep
      split_ifs at hstep with hat hok
      · obtain rfl := Option.some.inj hstep
        have hopened := h.isOpened (by rw [hat]; rintro ⟨⟩) (by rw [hat]; rintro ⟨⟩)
        have hclosed := (h.opened hopened).2.2
        rw [hat] at hclosed
        exact h.move hopened (by rintro ⟨⟩) (hclosed.trans (by simp))
      · obtain rfl := Option.some.inj hstep
        have hopened := h.isOpened (by rw [hat]; rintro ⟨⟩) (by rw [hat]; rintro ⟨⟩)
        exact h.move hopened (by rintro ⟨⟩) (iff_of_true rfl (Or.inr rfl))
  | relay k m => exact h.relay hstep
  | gathered =>
      simp only [Masking.step] at hstep
      split_ifs at hstep with hat
      obtain rfl := Option.some.inj hstep
      have hopened := h.isOpened (by rw [hat.1]; rintro ⟨⟩) (by rw [hat.1]; rintro ⟨⟩)
      exact h.move hopened (by rintro ⟨⟩) (iff_of_true rfl (Or.inr rfl))
  | cancel => exact h.cancel hstep

end Kept

theorem kept_of_reaches {initialData : Bytes} {client site : StreamReader} {s : Masking}
    (h : Reaches initialData client site s) : Kept initialData client site s :=
  Reachable.invariant (by rintro _ rfl; exact .start initialData client site)
    (fun _ _ _ _ hs _ hstep => hs.step hstep) h

end Masking

/-! ## What a stranger sees -/

open Masking

section Said

variable {initialData : Bytes} {client site : StreamReader} {s : Masking}

/-- What the site has of the client. -/
lemma Masking.Kept.toSite (h : Masking.Kept initialData client site s) :
    s.up.written.flatten <+: initialData ++ client.wire ∧
      (s.up.at' = .ended true → s.up.written.flatten = initialData ++ client.wire) := by
  have hclient : StreamReader.source.ReadsAs client client.wire := StreamReader.readsAs _ _
  cases hopened : s.opened with
  | false =>
      obtain ⟨-, hstart, -⟩ := h.unopened hopened
      rw [hstart]
      exact ⟨List.nil_prefix, by rintro ⟨⟩⟩
  | true =>
      obtain ⟨-, hfed, -⟩ := h.opened hopened
      have hextends := hfed.extends (by decide) hclient.within
      simp only [flatten_greeting] at hextends
      exact ⟨hextends.1, fun hend => hextends.2 hend hclient⟩

/-- What the client has of the site. -/
lemma Masking.Kept.toClient (h : Masking.Kept initialData client site s) :
    s.down.written.flatten <+: site.wire ∧
      (s.down.at' = .ended true → s.down.written.flatten = site.wire) := by
  have hsite : StreamReader.source.ReadsAs site site.wire := StreamReader.readsAs _ _
  have hdown := h.down.of_within (by decide) rfl hsite.within
  exact ⟨hdown.1, fun hend => hdown.2 hend hsite⟩

end Said

/-- **A stranger talks to the site.**  In every state of every run, over all ways in which the two
relays take turns, fail and are cancelled: the site has a beginning of what the client has said,
`initial_data` and all that comes behind it, and has all of it when the client's stream has come to
its end; the client has a beginning of what the site has said, and all of it at the end of that.  A
writer is closed exactly when the relay to it is at its end or, the site's, when the coroutine is;
and a cancellation is always enough to come there. -/
theorem masking_relays (initialData : Bytes) (client site : StreamReader) {s : Masking}
    (h : Masking.Reaches initialData client site s) :
    (s.up.written.flatten <+: initialData ++ client.wire ∧
      (s.up.at' = .ended true → s.up.written.flatten = initialData ++ client.wire)) ∧
    (s.down.written.flatten <+: site.wire ∧
      (s.down.at' = .ended true → s.down.written.flatten = site.wire)) ∧
    (s.clientClosed = s.down.done) ∧
    (s.opened = true → (s.upClosed = true ↔ s.up.done = true ∨ s.at' = .finished)) ∧
    ∃ es s', (∀ m ∈ es, m = .cancel ∨ m = .gathered) ∧
      exec (Masking.step initialData) es s = some s' ∧ s'.at' = .finished ∧
      (s'.opened = true → s'.upClosed = true) := by
  have hkept := Masking.kept_of_reaches h
  refine ⟨hkept.toSite, hkept.toClient, hkept.client,
    fun hopened => (hkept.opened hopened).2.2, ?_⟩
  cases hat : s.at' with
  | dialing =>
      refine ⟨[.cancel], { s with at' := .finished }, by simp, ?_, rfl, fun hopened => ?_⟩
      · simp [exec, Masking.step, hat]
      · exact absurd hat (hkept.opened hopened).1
  | greeting =>
      refine ⟨[.cancel], { s with upClosed := true, at' := .finished }, by simp, ?_, rfl,
        fun _ => rfl⟩
      simp [exec, Masking.step, hat]
  | relaying =>
      refine ⟨[.cancel, .gathered], { s with
          up := s.up.cancel
          upClosed := true
          down := s.down.cancel
          clientClosed := true
          at' := .finished },
        by simp, ?_, rfl, fun _ => rfl⟩
      simp [exec, Masking.step, hat, s.up.done_cancel, s.down.done_cancel]
  | finished =>
      refine ⟨[], s, by simp, rfl, hat, fun hopened => ?_⟩
      exact (hkept.opened hopened).2.2.mpr (Or.inr hat)

/-- A client that says two octets behind two, and a site that answers two. -/
theorem masking_relays_sample :
    let client : StreamReader := ⟨[1, 2], fun _ => 0⟩
    let site : StreamReader := ⟨[5, 6], fun _ => 5⟩
    let moves : List MaskingMove := [.dialed true, .greeted true, .relay .up (.read true),
      .relay .up (.drained true), .relay .down (.read true), .relay .up (.read true),
      .relay .down (.drained true), .relay .up (.drained true), .relay .up (.read true),
      .relay .down (.read true), .gathered]
    ∃ s, exec (Masking.step [0x16, 9]) moves (Masking.start client site) = some s ∧
      s.up.written.flatten = [0x16, 9, 1, 2] ∧ s.down.written.flatten = [5, 6] := by
  intro client site moves
  obtain ⟨s, hs⟩ : ∃ s, exec (Masking.step [0x16, 9]) moves (Masking.start client site) = some s :=
    ⟨_, rfl⟩
  have hend : s.up.at' = .ended true ∧ s.down.at' = .ended true := by
    obtain rfl := Option.some.inj hs
    exact ⟨rfl, rfl⟩
  have hsample := masking_relays [0x16, 9] client site (reachable_of_exec (.start rfl) hs)
  exact ⟨s, hs, hsample.1.2 hend.1, hsample.2.1.2 hend.2⟩

end TgWsProxy
