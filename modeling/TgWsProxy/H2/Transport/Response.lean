import TgWsProxy.Core.Bytes
import TgWsProxy.H2.Transport.Connection

/-!
# Response bodies

One `_ResponseStream` of `proxy/h2_transport.py`: what the reader and the failures of the connection
do to it, the request that waits for its head, and the iterator that its owner reads the body with.

* `Response`, `Response.step` — the flags of the stream, and where its reader is suspended.
* `Response.Reported` — the library's promise: nothing more is reported of a stream that is closed.
* `Response.Sound` — the invariant: nothing is lost, and an error spares a complete body.
* **`response_complete`** — a body is yielded in full, or the iterator raises.
-/

namespace TgWsProxy.H2Transport

open Wire

/-! ## The code -/

/-- Why the iterator raises: the error of the stream, an exception of the library in `consumed`, the
read timeout, a cancellation. -/
inductive Cause
  | failed (error : Failure)
  | refused
  | timeout
  | cancelled
  deriving DecidableEq, Repr

/-- Who has the stream: `request`, before or behind the end of its own body, or nobody when it has
raised; then the iterator, which has not begun, stands behind a `yield` with the credit of its
chunk, waits, or has ended. -/
inductive ReadPhase
  | requesting (sent : Bool)
  | abandoned
  | ready
  | yielding (credit : ℕ)
  | waiting
  | finished
  | raised (cause : Cause)
  deriving DecidableEq, Repr

/-- The iterator has not ended. -/
def ReadPhase.Iterating : ReadPhase → Prop
  | .ready => True
  | .yielding _ => True
  | .waiting => True
  | _ => False

/-- A `_ResponseStream`, with `error is not None` of its connection.  For the record: the payloads
of its events and those that have been yielded; whether it has been reset, whether its end came
before the connection failed, and whether its owner has closed it. -/
structure Response where
  chunks : List (Bytes × ℕ)
  headers : Bool
  error : Option Failure
  ended : Bool
  closed : Bool
  changed : Bool
  connectionFailed : Bool
  phase : ReadPhase
  received : List Bytes
  yielded : List Bytes
  reset : Bool
  complete : Bool
  byOwner : Bool
  deriving DecidableEq

/-- What can happen next.  `refused` says that the library raises in `consumed`, `last` that no
other request is active when a read times out. -/
inductive ResponseEvent
  | headers
  | data (payload : Bytes) (credit : ℕ)
  | streamEnded
  | streamReset
  | fail (error : Failure)
  | requestSent
  | respond
  | requestRaised
  | read (refused : Bool)
  | timeout (last : Bool)
  | cancelled
  | aclose
  deriving DecidableEq

namespace Response

/-- `fail(error)` of the connection.  A stream that is closed is not among its streams. -/
def fail (error : Failure) (s : Response) : Response :=
  if s.connectionFailed then s
  else if s.closed then { s with connectionFailed := true }
  else { s with
    connectionFailed := true
    error := if s.ended then s.error else some error
    changed := true }

/-- `aclose()`. -/
def aclose (s : Response) : Response :=
  if s.closed then s else { s with closed := true, chunks := [], changed := true }

/-- The loop of `__aiter__`, up to its next suspension. -/
def iterate (s : Response) : Response :=
  if s.closed then { s with phase := .finished }
  else
    let s := { s with changed := false }
    match s.error with
    | some error => { s with phase := .raised (.failed error) }
    | none =>
        match s.chunks with
        | (data, credit) :: chunks =>
            { s with chunks, phase := .yielding credit, yielded := s.yielded ++ [data] }
        | [] => { s with phase := if s.ended then .finished else .waiting }

/-- `consumed(stream, credit)` gets as far as the library. -/
def Consumes (s : Response) (credit : ℕ) : Prop :=
  credit ≠ 0 ∧ s.ended = false ∧ s.closed = false ∧ s.connectionFailed = false

instance (s : Response) (credit : ℕ) : Decidable (s.Consumes credit) :=
  inferInstanceAs (Decidable (_ ∧ _))

/-- One step. -/
def step (e : ResponseEvent) (s : Response) : Option Response :=
  match e with
  | .headers => some (if s.closed then s else { s with headers := true, changed := true })
  | .data payload credit =>
      let s := if payload = [] then s else { s with received := s.received ++ [payload] }
      some <|
        if s.closed then s
        else if payload = [] then { s with changed := true }
        else { s with chunks := s.chunks ++ [(payload, credit)], changed := true }
  | .streamEnded =>
      some <|
        if s.closed then s
        else { s with
          ended := true
          complete := s.complete || !s.connectionFailed
          changed := true }
  | .streamReset =>
      some <|
        if s.closed then s
        else { s with error := some .remoteProtocolError, reset := true, changed := true }
  | .fail error => some (s.fail error)
  | .requestSent =>
      if s.phase = .requesting false then some { s with phase := .requesting true } else none
  | .respond =>
      if s.phase = .requesting true ∧ s.headers = true then
        some (if s.error = none then { s with phase := .ready }
          else { s.aclose with phase := .abandoned })
      else none
  | .requestRaised =>
      match s.phase with
      | .requesting _ => some { s.aclose with phase := .abandoned }
      | _ => none
  | .read refused =>
      match s.phase with
      | .ready => if refused then none else some s.iterate
      | .yielding credit =>
          if refused then
            if s.Consumes credit then some { s with phase := .raised .refused } else none
          else some s.iterate
      | .waiting => if s.changed = true ∧ refused = false then some s.iterate else none
      | _ => none
  | .timeout last =>
      if s.phase = .waiting then
        some { (if last then s.fail .readTimeout else s) with phase := .raised .timeout }
      else none
  | .cancelled =>
      if s.phase = .waiting then some { s with phase := .raised .cancelled } else none
  | .aclose =>
      match s.phase with
      | .requesting _ => none
      | .abandoned => none
      | _ => some { s.aclose with byOwner := true }

/-- `_ResponseStream(…)`, as `reserve` makes it. -/
def Starting (s : Response) : Prop :=
  s.chunks = [] ∧ s.error = none ∧ s.ended = false ∧ s.closed = false ∧
    s.connectionFailed = false ∧ s.phase = .requesting false ∧ s.received = [] ∧ s.yielded = [] ∧
    s.reset = false ∧ s.complete = false ∧ s.byOwner = false

/-- The stream is closed at the library: it has been reset, or both sides have ended it. -/
def Over (s : Response) : Prop :=
  s.reset = true ∨ s.ended = true ∧ s.phase ≠ .requesting false

/-- The library reports nothing of a stream that is closed. -/
def Reported (s : Response) : ResponseEvent → Prop
  | .data _ _ => ¬ s.Over
  | .streamEnded => ¬ s.Over
  | .streamReset => ¬ s.Over
  | _ => True

instance (s : Response) : Decidable s.Over := inferInstanceAs (Decidable (_ ∨ _ ∧ _))

instance (s : Response) (e : ResponseEvent) : Decidable (s.Reported e) := by
  cases e <;> first
    | exact .isTrue trivial
    | exact inferInstanceAs (Decidable (¬ s.Over))

/-- Any order of events, failures and reads. -/
def Reaches (s : Response) : Prop := Reachable Starting step Always s

/-! ## The invariant -/

/-- **The invariant.**  What has been received has been yielded or is queued, and what has been
yielded is a first part of it; only the owner closes a stream that is read; without a reset, an
error comes from the connection, before the end; and who waits has nothing to wake up for. -/
structure Sound (s : Response) : Prop where
  queued : s.closed = false → s.received = s.yielded ++ s.chunks.map Prod.fst
  ordered : s.yielded <+: s.received
  owner : s.closed = true → s.byOwner = true ∨ s.phase = .abandoned
  ended : s.complete = true → s.ended = true
  resets : s.reset = true → s.error ≠ none
  spared : s.reset = false → s.error ≠ none → s.connectionFailed = true ∧ s.complete = false
  asleep : s.phase = .waiting → s.changed = false →
    s.chunks = [] ∧ s.ended = false ∧ s.error = none ∧ s.closed = false

namespace Sound

variable {s s' : Response}

/-- Nothing changes but the phase, and nobody falls asleep. -/
lemma goto (h : s.Sound) {p : ReadPhase} (hp : p ≠ .waiting)
    (howner : s.phase = .abandoned → p = .abandoned) : ({ s with phase := p } : Response).Sound :=
  ⟨h.queued, h.ordered, fun hc => (h.owner hc).imp id howner, h.ended, h.resets, h.spared,
    fun hw => absurd hw hp⟩

/-- The connection fails. -/
lemma fail (h : s.Sound) (error : Failure) : (s.fail error).Sound := by
  rw [Response.fail]
  split_ifs with hfailed hclosed hended
  · exact h
  · exact ⟨h.queued, h.ordered, h.owner, h.ended, h.resets,
      fun hr he => ⟨rfl, (h.spared hr he).2⟩, h.asleep⟩
  · exact ⟨h.queued, h.ordered, h.owner, h.ended, h.resets,
      fun hr he => ⟨rfl, (h.spared hr he).2⟩, fun _ => nofun⟩
  · exact ⟨h.queued, h.ordered, h.owner, h.ended, fun _ => Option.some_ne_none _,
      fun _ _ => ⟨rfl, Bool.eq_false_iff.mpr fun hc => hended (h.ended hc)⟩, fun _ => nofun⟩

/-- The stream is closed by somebody who may. -/
lemma aclose (h : s.Sound) {p : ReadPhase} {o : Bool} (howner : o = true ∨ p = .abandoned)
    (hp : p = .waiting → s.phase = .waiting) :
    ({ s.aclose with phase := p, byOwner := o } : Response).Sound := by
  rw [Response.aclose]
  split_ifs with hclosed
  · exact ⟨h.queued, h.ordered, fun _ => howner, h.ended, h.resets, h.spared,
      fun hw => h.asleep (hp hw)⟩
  · exact ⟨nofun, h.ordered, fun _ => howner, h.ended, h.resets, h.spared, fun _ => nofun⟩

/-- The iterator runs to its next suspension. -/
lemma iterate (h : s.Sound) (hp : s.phase ≠ .abandoned) : s.iterate.Sound := by
  rw [Response.iterate]
  split_ifs with hclosed
  · exact h.goto nofun fun ha => absurd ha hp
  have hopen : s.closed = false := Bool.eq_false_iff.mpr hclosed
  have hnot : ∀ {q : Prop}, s.closed = true → q := fun hc => absurd hc hclosed
  dsimp only
  split
  · exact ⟨h.queued, h.ordered, hnot, h.ended, h.resets, h.spared, nofun⟩
  · next hnone =>
      have hqueued := h.queued hopen
      split
      · next data credit chunks hchunks =>
          have hsplit : s.received = s.yielded ++ [data] ++ chunks.map Prod.fst := by
            rw [hqueued, hchunks, List.map_cons, List.append_assoc, List.singleton_append]
          exact ⟨fun _ => hsplit, ⟨_, hsplit.symm⟩, hnot, h.ended, h.resets, h.spared, nofun⟩
      · next hchunks =>
          refine ⟨h.queued, h.ordered, hnot, h.ended, h.resets, h.spared, fun hw _ => ?_⟩
          by_cases hended : s.ended = true
          · simp only [if_pos hended] at hw
            cases hw
          · exact ⟨hchunks, Bool.eq_false_iff.mpr hended, hnone, hopen⟩

/-- A payload arrives. -/
lemma data (h : s.Sound) (payload : Bytes) (credit : ℕ) :
    ∀ s', Response.step (.data payload credit) s = some s' → s'.Sound := by
  intro s' hs
  obtain rfl := Option.some.inj hs
  by_cases hempty : payload = []
  · simp only [if_pos hempty]
    split_ifs with hclosed
    · exact h
    · exact ⟨h.queued, h.ordered, h.owner, h.ended, h.resets, h.spared, fun _ => nofun⟩
  · simp only [if_neg hempty]
    have hordered : s.yielded <+: s.received ++ [payload] :=
      h.ordered.trans (List.prefix_append _ _)
    split_ifs with hclosed
    · exact ⟨fun hopen => absurd hclosed (Bool.eq_false_iff.mp hopen), hordered, h.owner, h.ended,
        h.resets, h.spared, h.asleep⟩
    · refine ⟨fun hopen => ?_, hordered, h.owner, h.ended, h.resets, h.spared, fun _ => nofun⟩
      show s.received ++ [payload] = s.yielded ++ (s.chunks ++ [(payload, credit)]).map Prod.fst
      rw [h.queued hopen, List.map_append, List.append_assoc]
      rfl

/-- **One step.** -/
lemma step (h : s.Sound) {e : ResponseEvent} (hs : Response.step e s = some s') : s'.Sound := by
  cases e with
  | headers =>
      obtain rfl := Option.some.inj hs
      split_ifs
      · exact h
      · exact ⟨h.queued, h.ordered, h.owner, h.ended, h.resets, h.spared, fun _ => nofun⟩
  | data payload credit => exact h.data payload credit s' hs
  | streamEnded =>
      obtain rfl := Option.some.inj hs
      split_ifs with hclosed
      · exact h
      · refine ⟨h.queued, h.ordered, h.owner, fun _ => rfl, h.resets, fun hr he => ?_,
          fun _ => nofun⟩
        obtain ⟨hfailed, hcomplete⟩ := h.spared hr he
        exact ⟨hfailed, by simp [hfailed, hcomplete]⟩
  | streamReset =>
      obtain rfl := Option.some.inj hs
      split_ifs with hclosed
      · exact h
      · exact ⟨h.queued, h.ordered, h.owner, h.ended, fun _ => nofun, nofun, fun _ => nofun⟩
  | fail error =>
      obtain rfl := Option.some.inj hs
      exact h.fail error
  | requestSent =>
      rw [Response.step] at hs
      split_ifs at hs with hphase
      obtain rfl := Option.some.inj hs
      exact h.goto nofun (by rw [hphase]; nofun)
  | respond =>
      rw [Response.step] at hs
      split_ifs at hs with hready herror
      · obtain rfl := Option.some.inj hs
        exact h.goto nofun (by rw [hready.1]; nofun)
      · obtain rfl := Option.some.inj hs
        have hsound := h.aclose (p := .abandoned) (o := s.aclose.byOwner) (.inr rfl) nofun
        exact hsound
  | requestRaised =>
      rw [Response.step] at hs
      split at hs
      · obtain rfl := Option.some.inj hs
        have hsound := h.aclose (p := .abandoned) (o := s.aclose.byOwner) (.inr rfl) nofun
        exact hsound
      · cases hs
  | read refused =>
      rw [Response.step] at hs
      split at hs
      · next hphase =>
          split_ifs at hs
          obtain rfl := Option.some.inj hs
          exact h.iterate (by rw [hphase]; nofun)
      · next credit hphase =>
          split_ifs at hs
          · obtain rfl := Option.some.inj hs
            exact h.goto nofun (by rw [hphase]; nofun)
          · obtain rfl := Option.some.inj hs
            exact h.iterate (by rw [hphase]; nofun)
      · next hphase =>
          split_ifs at hs
          obtain rfl := Option.some.inj hs
          exact h.iterate (by rw [hphase]; nofun)
      · cases hs
  | timeout last =>
      have hkeep : (s.fail .readTimeout).phase = s.phase := by
        rw [Response.fail]
        split_ifs <;> rfl
      rw [Response.step] at hs
      split_ifs at hs with hphase hlast
      · obtain rfl := Option.some.inj hs
        exact (h.fail .readTimeout).goto nofun (by rw [hkeep, hphase]; nofun)
      · obtain rfl := Option.some.inj hs
        exact h.goto nofun (by rw [hphase]; nofun)
  | cancelled =>
      rw [Response.step] at hs
      split_ifs at hs with hphase
      obtain rfl := Option.some.inj hs
      exact h.goto nofun (by rw [hphase]; nofun)
  | aclose =>
      rw [Response.step] at hs
      have hkeep : s.aclose.phase = s.phase := by
        rw [Response.aclose]
        split_ifs <;> rfl
      split at hs
      · cases hs
      · cases hs
      · obtain rfl := Option.some.inj hs
        have hsound := h.aclose (p := s.aclose.phase) (o := true) (.inl rfl) fun hw => by
          rwa [hkeep] at hw
        exact hsound

end Sound

lemma Starting.sound {s : Response} (h : s.Starting) : s.Sound := by
  obtain ⟨hchunks, herror, hended, hclosed, hfailed, hphase, hreceived, hyielded, hreset, hcomplete,
    howner⟩ := h
  refine ⟨fun _ => ?_, ?_, fun hc => ?_, fun hc => ?_, fun hr => ?_, fun _ he => absurd herror he,
    fun hw => ?_⟩
  · rw [hreceived, hyielded, hchunks]
    rfl
  · rw [hreceived, hyielded]
  · rw [hclosed] at hc
    cases hc
  · rw [hcomplete] at hc
    cases hc
  · rw [hreset] at hr
    cases hr
  · rw [hphase] at hw
    cases hw

lemma Reaches.sound {s : Response} (h : s.Reaches) : s.Sound :=
  h.invariant (fun _ hs => hs.sound) fun _ _ _ _ hsound _ hs => hsound.step hs

/-! ## Where the iterator goes -/

section Steps

variable {s s' : Response}

lemma fail_phase (error : Failure) (s : Response) : (s.fail error).phase = s.phase := by
  rw [fail]
  split_ifs <;> rfl

lemma aclose_phase (s : Response) : s.aclose.phase = s.phase := by
  rw [aclose]
  split_ifs <;> rfl

/-- A step leaves the iterator where it is, or runs it, or ends it by an exception that is not the
stream's; before, it is the request that moves. -/
lemma step_phase {e : ResponseEvent} (hs : step e s = some s') :
    s'.phase = s.phase ∨
      s.phase.Iterating ∧ (s' = s.iterate ∨ s'.phase = .raised .timeout ∨
        s'.phase = .raised .cancelled ∨
          (∃ credit, s.Consumes credit) ∧ s'.phase = .raised .refused) ∨
      ¬ s.phase.Iterating ∧ (s'.phase = .requesting true ∨ s'.phase = .abandoned ∨
        s'.phase = .ready ∧ s.error = none ∧ s' = { s with phase := .ready }) := by
  cases e with
  | headers =>
      obtain rfl := Option.some.inj hs
      split_ifs <;> exact .inl rfl
  | data payload credit =>
      obtain rfl := Option.some.inj hs
      split_ifs <;> exact .inl rfl
  | streamEnded =>
      obtain rfl := Option.some.inj hs
      split_ifs <;> exact .inl rfl
  | streamReset =>
      obtain rfl := Option.some.inj hs
      split_ifs <;> exact .inl rfl
  | fail error =>
      obtain rfl := Option.some.inj hs
      exact .inl (fail_phase error s)
  | requestSent =>
      rw [step] at hs
      split_ifs at hs with hphase
      obtain rfl := Option.some.inj hs
      exact .inr (.inr ⟨by rw [hphase]; exact id, .inl rfl⟩)
  | respond =>
      rw [step] at hs
      split_ifs at hs with hready herror
      · obtain rfl := Option.some.inj hs
        exact .inr (.inr ⟨by rw [hready.1]; exact id, .inr (.inr ⟨rfl, herror, rfl⟩)⟩)
      · obtain rfl := Option.some.inj hs
        exact .inr (.inr ⟨by rw [hready.1]; exact id, .inr (.inl rfl)⟩)
  | requestRaised =>
      rw [step] at hs
      split at hs
      · next sent hphase =>
          obtain rfl := Option.some.inj hs
          exact .inr (.inr ⟨by rw [hphase]; exact id, .inr (.inl rfl)⟩)
      · cases hs
  | read refused =>
      rw [step] at hs
      split at hs
      · next hphase =>
          split_ifs at hs
          obtain rfl := Option.some.inj hs
          exact .inr (.inl ⟨by rw [hphase]; trivial, .inl rfl⟩)
      · next credit hphase =>
          split_ifs at hs with hrefused hconsumes
          · obtain rfl := Option.some.inj hs
            exact .inr (.inl ⟨by rw [hphase]; trivial,
              .inr (.inr (.inr ⟨⟨credit, hconsumes⟩, rfl⟩))⟩)
          · obtain rfl := Option.some.inj hs
            exact .inr (.inl ⟨by rw [hphase]; trivial, .inl rfl⟩)
      · next hphase =>
          split_ifs at hs
          obtain rfl := Option.some.inj hs
          exact .inr (.inl ⟨by rw [hphase]; trivial, .inl rfl⟩)
      · cases hs
  | timeout last =>
      rw [step] at hs
      split_ifs at hs with hphase
      all_goals
        obtain rfl := Option.some.inj hs
        exact .inr (.inl ⟨by rw [hphase]; trivial, .inr (.inl rfl)⟩)
  | cancelled =>
      rw [step] at hs
      split_ifs at hs with hphase
      obtain rfl := Option.some.inj hs
      exact .inr (.inl ⟨by rw [hphase]; trivial, .inr (.inr (.inl rfl))⟩)
  | aclose =>
      rw [step] at hs
      split at hs
      · cases hs
      · cases hs
      · obtain rfl := Option.some.inj hs
        exact .inl (aclose_phase s)

/-- The iterator ends normally on a stream that its owner has closed, or behind the last payload of
one that has ended. -/
lemma iterate_finished (h : s.Sound) (hp : s.phase.Iterating)
    (hfinished : s.iterate.phase = .finished) :
    s.byOwner = true ∨ s.ended = true ∧ s.iterate.yielded = s.iterate.received := by
  rw [iterate] at hfinished ⊢
  split_ifs at hfinished ⊢ with hclosed
  · refine .inl ((h.owner hclosed).resolve_right fun ha => ?_)
    rw [ha] at hp
    exact hp
  · have hqueued := h.queued (Bool.eq_false_iff.mpr hclosed)
    dsimp only at hfinished ⊢
    split at hfinished
    · cases hfinished
    · next hnone =>
      split at hfinished
      · cases hfinished
      · next hchunks =>
          rw [hchunks, List.map_nil, List.append_nil] at hqueued
          by_cases hended : s.ended = true
          · refine .inr ⟨hended, ?_⟩
            show s.yielded = s.received
            exact hqueued.symm
          · simp only [if_neg hended] at hfinished
            cases hfinished

/-- **The rest of a body.**  With the end received and no error, as many reads as there are payloads
left yield them all, and one more finishes. -/
lemma reads_one (hp : s.phase.Iterating) (hawake : s.phase = .waiting → s.changed = true) :
    step (.read false) s = some s.iterate := by
  rw [step]
  cases hphase : s.phase with
  | ready => rfl
  | yielding credit => rfl
  | waiting => exact if_pos ⟨hawake hphase, rfl⟩
  | _ =>
      rw [hphase] at hp
      exact absurd hp id

lemma reads_rest (rest : List (Bytes × ℕ)) : ∀ {s : Response}, s.chunks = rest →
    s.phase.Iterating → (s.phase = .waiting → s.changed = true) → s.ended = true →
      s.error = none → s.closed = false →
        ∃ s', exec step (List.replicate (rest.length + 1) (.read false)) s = some s' ∧
          s'.phase = .finished ∧ s'.yielded = s.yielded ++ rest.map Prod.fst := by
  induction rest with
  | nil =>
      intro s hchunks hp hawake hended herror hclosed
      rw [List.replicate_succ, exec, reads_one hp hawake, Option.bind_some]
      refine ⟨s.iterate, rfl, ?_, ?_⟩
      · simp [iterate, hclosed, herror, hchunks, hended]
      · simp [iterate, hclosed, herror, hchunks]
  | cons head rest ih =>
      intro s hchunks hp hawake hended herror hclosed
      rw [List.replicate_succ, exec, reads_one hp hawake, Option.bind_some]
      have hiterate : s.iterate = { s with
          changed := false
          chunks := rest
          phase := .yielding head.2
          yielded := s.yielded ++ [head.1] } := by
        simp [iterate, hclosed, herror, hchunks]
      obtain ⟨s', hexec, hfinished, hyielded⟩ := @ih s.iterate
        (by rw [hiterate]) (by rw [hiterate]; trivial) (by rw [hiterate]; rintro ⟨⟩)
        (by rw [hiterate]; exact hended) (by rw [hiterate]; exact herror)
        (by rw [hiterate]; exact hclosed)
      refine ⟨s', hexec, hfinished, ?_⟩
      rw [hyielded, hiterate, List.map_cons, List.append_assoc]
      rfl

lemma fail_records (error : Failure) (s : Response) :
    (s.fail error).reset = s.reset ∧ (s.fail error).complete = s.complete := by
  rw [fail]
  split_ifs <;> exact ⟨rfl, rfl⟩

lemma aclose_records (s : Response) :
    s.aclose.reset = s.reset ∧ s.aclose.complete = s.complete := by
  rw [aclose]
  split_ifs <;> exact ⟨rfl, rfl⟩

lemma iterate_records (s : Response) :
    s.iterate.reset = s.reset ∧ s.iterate.complete = s.complete := by
  rw [iterate]
  split_ifs
  · exact ⟨rfl, rfl⟩
  · dsimp only
    split
    · exact ⟨rfl, rfl⟩
    · split <;> exact ⟨rfl, rfl⟩

/-- Two events are recorded. -/
lemma step_records {e : ResponseEvent} (hs : step e s = some s') (hreset : e ≠ .streamReset)
    (hended : e ≠ .streamEnded) : s'.reset = s.reset ∧ s'.complete = s.complete := by
  cases e with
  | headers =>
      obtain rfl := Option.some.inj hs
      split_ifs <;> exact ⟨rfl, rfl⟩
  | data payload credit =>
      obtain rfl := Option.some.inj hs
      split_ifs <;> exact ⟨rfl, rfl⟩
  | streamEnded => exact absurd rfl hended
  | streamReset => exact absurd rfl hreset
  | fail error =>
      obtain rfl := Option.some.inj hs
      exact fail_records error s
  | requestSent =>
      rw [step] at hs
      split_ifs at hs
      obtain rfl := Option.some.inj hs
      exact ⟨rfl, rfl⟩
  | respond =>
      rw [step] at hs
      split_ifs at hs
      · obtain rfl := Option.some.inj hs
        exact ⟨rfl, rfl⟩
      · obtain rfl := Option.some.inj hs
        exact aclose_records s
  | requestRaised =>
      rw [step] at hs
      split at hs
      · obtain rfl := Option.some.inj hs
        exact aclose_records s
      · cases hs
  | read refused =>
      rw [step] at hs
      split at hs
      · split_ifs at hs
        obtain rfl := Option.some.inj hs
        exact iterate_records s
      · split_ifs at hs
        · obtain rfl := Option.some.inj hs
          exact ⟨rfl, rfl⟩
        · obtain rfl := Option.some.inj hs
          exact iterate_records s
      · split_ifs at hs
        obtain rfl := Option.some.inj hs
        exact iterate_records s
      · cases hs
  | timeout last =>
      rw [step] at hs
      split_ifs at hs
      · obtain rfl := Option.some.inj hs
        exact fail_records .readTimeout s
      · obtain rfl := Option.some.inj hs
        exact ⟨rfl, rfl⟩
  | cancelled =>
      rw [step] at hs
      split_ifs at hs
      obtain rfl := Option.some.inj hs
      exact ⟨rfl, rfl⟩
  | aclose =>
      rw [step] at hs
      split at hs
      · cases hs
      · cases hs
      · obtain rfl := Option.some.inj hs
        exact aclose_records s

/-- While the library reports nothing of a stream that is closed, a body that is read and complete
has not been reset. -/
lemma reset_of_reported (h : Reachable Starting step Reported s) :
    s.phase.Iterating → s.complete = true → s.reset = false := by
  refine h.invariant (P := fun s => s.phase.Iterating → s.complete = true → s.reset = false) ?_ ?_
  · rintro s ⟨-, -, -, -, -, hphase, -⟩ hp
    rw [hphase] at hp
    exact absurd hp id
  · intro s e s' hreach ih hreported hs hp hcomplete
    have hsound : s.Sound := Reaches.sound hreach.always
    by_cases hreset : e = .streamReset
    · -- a stream that is read has been sent to the end, so its own end would have closed it
      subst hreset
      obtain rfl := Option.some.inj hs
      split_ifs at hp hcomplete ⊢ with hclosed
      · exact ih hp hcomplete
      · refine absurd (.inr ⟨hsound.ended hcomplete, fun hphase => ?_⟩) hreported
        simp only [hphase] at hp
        exact hp
    by_cases hended : e = .streamEnded
    · subst hended
      have hnot : s.reset = false := Bool.eq_false_iff.mpr fun hr => hreported (.inl hr)
      obtain rfl := Option.some.inj hs
      split_ifs <;> exact hnot
    obtain ⟨hr, hc⟩ := step_records hs hreset hended
    rw [hr]
    rw [hc] at hcomplete
    rcases step_phase hs with hphase | ⟨hiter, -⟩ | ⟨-, hphase | hphase | ⟨-, hnone, -⟩⟩
    · rw [hphase] at hp
      exact ih hp hcomplete
    · exact ih hiter hcomplete
    · rw [hphase] at hp
      exact absurd hp id
    · rw [hphase] at hp
      exact absurd hp id
    · exact Bool.eq_false_iff.mpr fun hr => hsound.resets hr hnone

end Steps

end Response

open Response

/-- **Response bodies.**  Payloads are yielded in the order in which they came, none twice and none
left out; the iterator finishes only when the owner has closed the stream, or behind the last
payload of a stream that has ended; and a body whose end came before the connection failed can be
read to its end, whatever failed since, for the library does not report a reset of it. -/
theorem response_complete {s : Response} (h : s.Reaches) :
    s.yielded <+: s.received ∧
      (s.phase.Iterating → s.byOwner = false →
        s.received = s.yielded ++ s.chunks.map Prod.fst) ∧
      (∀ e s', step e s = some s' → s'.phase = .finished →
        s.phase = .finished ∨ s.byOwner = true ∨ s.ended = true ∧ s'.yielded = s'.received) ∧
      (s.phase.Iterating → s.complete = true → s.byOwner = false → s.reset = false →
        (∃ s', exec step (List.replicate (s.chunks.length + 1) (.read false)) s = some s' ∧
          s'.phase = .finished ∧ s'.yielded = s.received) ∧
        ∀ e s' cause, step e s = some s' → s'.phase = .raised cause →
          cause = .timeout ∨ cause = .cancelled) ∧
      (Reachable Response.Starting step Reported s → s.phase.Iterating → s.complete = true →
        s.reset = false) := by
  have hsound := h.sound
  have hopen : s.phase.Iterating → s.byOwner = false → s.closed = false := by
    intro hp howner
    refine Bool.eq_false_iff.mpr fun hc => ?_
    rcases hsound.owner hc with ho | ha
    · rw [ho] at howner
      cases howner
    · rw [ha] at hp
      exact hp
  refine ⟨hsound.ordered, fun hp howner => hsound.queued (hopen hp howner), fun e s' hs hfin => ?_,
    fun hp hcomplete howner hreset => ?_, fun hrep => reset_of_reported hrep⟩
  · rcases step_phase hs with hphase | ⟨hp, rfl | hphase | hphase | ⟨-, hphase⟩⟩ |
      ⟨-, hphase | hphase | ⟨hphase, -⟩⟩
    · exact .inl (hphase.symm.trans hfin)
    · exact .inr (iterate_finished hsound hp hfin)
    all_goals
      rw [hphase] at hfin
      cases hfin
  · have hclosed := hopen hp howner
    have hended := hsound.ended hcomplete
    have hnone : s.error = none := by
      by_contra herror
      have hnot := (hsound.spared hreset herror).2
      rw [hcomplete] at hnot
      cases hnot
    have hawake : s.phase = .waiting → s.changed = true := by
      intro hw
      by_contra hchanged
      have hnot := (hsound.asleep hw (Bool.eq_false_iff.mpr hchanged)).2.1
      rw [hended] at hnot
      cases hnot
    constructor
    · obtain ⟨s', hexec, hfin, hyielded⟩ :=
        reads_rest s.chunks rfl hp hawake hended hnone hclosed
      exact ⟨s', hexec, hfin, hyielded.trans (hsound.queued hclosed).symm⟩
    · intro e s' cause hs hraised
      rcases step_phase hs with hphase | ⟨-, rfl | hphase | hphase | ⟨⟨credit, hcons⟩, -⟩⟩ |
        ⟨hnot, -⟩
      · rw [hphase] at hraised
        rw [hraised] at hp
        exact absurd hp id
      · rw [iterate, if_neg (Bool.eq_false_iff.mp hclosed)] at hraised
        simp only [hnone] at hraised
        split at hraised
        · cases hraised
        · simp only [hended] at hraised
          cases hraised
      · exact .inl (ReadPhase.raised.inj (hraised.symm.trans hphase))
      · exact .inr (ReadPhase.raised.inj (hraised.symm.trans hphase))
      · have hnot := hcons.2.1
        rw [hended] at hnot
        cases hnot
      · exact absurd hp hnot

/-- Two payloads and the end, then a GOAWAY; the second payload is still read. -/
theorem response_complete_sample :
    ∃ s : Response, s.Reaches ∧ s.phase = .yielding 5 ∧ s.connectionFailed = true ∧
      ∃ s', exec step (List.replicate 2 (.read false)) s = some s' ∧ s'.phase = .finished ∧
        s'.yielded = [[1], [2, 3]] := by
  let start : Response :=
    ⟨[], false, none, false, false, false, false, .requesting false, [], [], false, false, false⟩
  have hrun : exec (guarded (fun s e => decide (s.Reported e)) step) [.requestSent, .headers,
      .respond, .data [1] 5, .read false, .data [2, 3] 2, .streamEnded,
      .fail .remoteProtocolError] start =
        some ⟨[([2, 3], 2)], true, none, true, false, true, true, .yielding 5, [[1], [2, 3]], [[1]],
          false, true, false⟩ := by decide
  obtain ⟨-, hreported⟩ := reachable_of_exec_guarded (fun _ _ => of_decide_eq_true)
    (.start (show Response.Starting start from
      ⟨rfl, rfl, rfl, rfl, rfl, rfl, rfl, rfl, rfl, rfl, rfl⟩)) hrun
  have hreach : Reaches _ := hreported.always
  obtain ⟨-, -, -, hread, hreset⟩ := response_complete hreach
  exact ⟨_, hreach, rfl, rfl, (hread trivial rfl rfl (hreset hreported trivial rfl)).1⟩

end TgWsProxy.H2Transport
