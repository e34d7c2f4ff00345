import TgWsProxy.H2.Transport.Credit

/-!
# Wake-ups on `changed`

Requests in `reserve` and in `send_body` wait for the one event of their connection, and each clears
it on every turn of its loop.

* `Ready` — the own condition of a request that waits.
* `Spoils` — a turn that clears the event under a wait which has not started yet.
* `Watch` — the invariant of the runs without such turns: whoever is asleep has to wait.
* **`awake_without_spoiling`** — in these runs a request that could go on is woken.
* `lost_wakeup` — in others it sleeps beside a free slot.
-/

namespace TgWsProxy.H2Transport

open Wire H2Library

variable {η : Type*} {lib : H2Library η} {m : H2Library.Meaning η} {cfg : Config}

/-! ## Conditions -/

namespace Phase

/-- The inner `wait()` has not returned, nor has it been woken. -/
def Dozing (p : Phase) : Prop := p.wait = some .waiting ∨ p.wait = some .unstarted

/-- The loop of `send_body`. -/
def Sending : Phase → Prop
  | .fetching => True
  | .blocked _ _ => True
  | .draining _ => True
  | _ => False

end Phase

/-- What a request that waits is waiting for: an error, a free slot, or room to send. -/
def Ready (lib : H2Library η) (cfg : Config) (s : Connection η) (r : Request) : Prop :=
  match r.phase with
  | .reserving _ => s.error ≠ none ∨ s.settingsReceived = true ∧
      s.streams.size < min cfg.maxStreams (lib.maxConcurrentStreams s.h2)
  | .blocked _ _ => s.error ≠ none ∨
      ∃ st, r.stream = some st ∧ (st.error ≠ none ∨ lib.Positive s.h2 st.streamId)
  | _ => False

/-- A wake-up of the request is pending: its inner `wait()` has been woken, or finds the event set
when it starts. -/
def Woken (s : Connection η) (r : Request) : Prop :=
  r.phase.wait = some .woken ∨ r.phase.wait = some .unstarted ∧ s.changed = true

/-- The step clears `changed`. -/
def Clears (s : Connection η) : Event → Prop
  | .turn _ => True
  | .fetched _ (some n) => n ≠ 0
  | .drained c .ok => ∃ r ∈ s.requests[c]?, ∃ left, r.phase = .draining left ∧ left ≠ 0
  | _ => False

/-- The step clears `changed` while it is set and a request that could go on has not started its
inner `wait()`. -/
def Spoils (lib : H2Library η) (cfg : Config) (s : Connection η) (e : Event) : Prop :=
  Clears s e ∧ s.changed = true ∧
    ∃ r ∈ s.requests, r.phase.wait = some .unstarted ∧ Ready lib cfg s r

/-- The event comes with a `changed.set()`, whatever the streams of the connection are. -/
def H2Event.Rouses : H2Event → Prop
  | .remoteSettingsChanged => True
  | .windowUpdated _ => True
  | _ => False

/-! ## The invariant -/

/-- Nobody waits for an event that is set, and a request that sends has a stream. -/
def Tied (m : H2Library.Meaning η) (s : Connection η) : Prop :=
  ∀ r ∈ s.requests, (s.changed = true → r.phase.wait ≠ some .waiting) ∧
    (r.phase.Sending → ∃ st, r.stream = some st ∧ m.opened s.h2 st.streamId)

/-- In the middle of a batch with the events `es` to come: a request that sleeps although the event
is not set has to wait, unless an event to come sets it. -/
structure Watch (lib : H2Library η) (m : H2Library.Meaning η) (cfg : Config) (es : List H2Event)
    (s : Connection η) : Prop where
  tied : Tied m s
  failed : s.error ≠ none → s.changed = false → ∀ r ∈ s.requests, ¬ r.phase.Dozing
  asleep : (∀ e ∈ es, ¬ e.Rouses) → s.changed = false → ∀ r ∈ s.requests, r.phase.Dozing →
    ¬ Ready lib cfg s r

/-- A request gets nothing from a change of the library's state that gives nobody room. -/
lemma Ready.of_less {s : Connection η} {h2 : η} {r : Request}
    (hslots : lib.maxConcurrentStreams h2 ≤ lib.maxConcurrentStreams s.h2)
    (hwindow : ∀ j, m.opened s.h2 j → lib.Positive h2 j → lib.Positive s.h2 j)
    (hsending : r.phase.Sending → ∃ st, r.stream = some st ∧ m.opened s.h2 st.streamId) :
    Ready lib cfg { s with h2 := h2 } r → Ready lib cfg s r := by
  revert hsending
  rw [Ready, Ready]
  cases r.phase with
  | reserving w =>
      rintro - (he | ⟨hset, hlt⟩)
      · exact .inl he
      · exact .inr ⟨hset, lt_of_lt_of_le hlt (min_le_min_left _ hslots)⟩
  | blocked left w =>
      rintro hsending (he | ⟨st, hst, herr | hpos⟩)
      · exact .inl he
      · exact .inr ⟨st, hst, .inl herr⟩
      · obtain ⟨q, hq, ho⟩ := hsending trivial
        obtain rfl := Option.some.inj (hq.symm.trans hst)
        exact .inr ⟨q, hst, .inr (hwindow _ ho hpos)⟩
  | _ => exact fun _ hrdy => hrdy

lemma mem_of_modify {l : List Request} {c : ℕ} {f : Request → Request} {r : Request}
    (h : r ∈ l.modify c f) : r ∈ l ∨ ∃ q, l[c]? = some q ∧ r = f q := by
  obtain ⟨i, hi⟩ := List.mem_iff_getElem?.mp h
  rw [List.getElem?_modify] at hi
  obtain ⟨q, hq, rfl⟩ := Option.map_eq_some_iff.mp hi
  by_cases hic : c = i
  · subst hic
    exact .inr ⟨q, hq, if_pos rfl⟩
  · rw [if_neg hic]
    exact .inl (List.mem_iff_getElem?.mpr ⟨i, hq⟩)

namespace Tied

variable {s s' : Connection η} {c : ℕ}

lemma frame (h : Tied m s) (hrequests : s'.requests = s.requests)
    (hchanged : s'.changed = true → s.changed = true)
    (hopened : ∀ j, m.opened s.h2 j → m.opened s'.h2 j) : Tied m s' := by
  intro r hr
  rw [hrequests] at hr
  obtain ⟨hwoken, hsending⟩ := h r hr
  refine ⟨fun hc => hwoken (hchanged hc), fun hs => ?_⟩
  obtain ⟨st, hst, ho⟩ := hsending hs
  exact ⟨st, hst, hopened _ ho⟩

/-- One request changes. -/
lemma modify (h : Tied m s) (c : ℕ) (f : Request → Request)
    (hwoken : ∀ r, s.requests[c]? = some r → s.changed = true → (f r).phase.wait ≠ some .waiting)
    (hsending : ∀ r, s.requests[c]? = some r → (f r).phase.Sending →
      ∃ st, (f r).stream = some st ∧ m.opened s.h2 st.streamId) :
    Tied m { s with requests := s.requests.modify c f } := by
  intro r hr
  rcases mem_of_modify hr with hr | ⟨q, hq, rfl⟩
  · exact h r hr
  · exact ⟨hwoken q hq, hsending q hq⟩

lemma of_getElem? (h : Tied m s) {r : Request} (hr : s.requests[c]? = some r) :
    (s.changed = true → r.phase.wait ≠ some .waiting) ∧
      (r.phase.Sending → ∃ st, r.stream = some st ∧ m.opened s.h2 st.streamId) :=
  h r (List.mem_iff_getElem?.mpr ⟨c, hr⟩)

/-- The stream of a request changes, and keeps its identifier. -/
lemma putStream (h : Tied m s) {st st' : ResponseStream} (hst : s.streamOf c = some st)
    (hid : st'.streamId = st.streamId) : Tied m (s.putStream c st') := by
  refine h.modify c _ (fun r hr => (h.of_getElem? hr).1) fun r hr hs => ⟨st', rfl, ?_⟩
  obtain ⟨q, hq, ho⟩ := (h.of_getElem? hr).2 hs
  rw [Connection.streamOf, hr, Option.bind_some, hq] at hst
  rw [hid, ← Option.some.inj hst]
  exact ho

lemma set_wait (p : Phase) : p.wake.wait ≠ some .waiting := by
  cases p with
  | reserving w => cases w <;> nofun
  | blocked left w => cases w <;> nofun
  | _ => nofun

lemma set_sending (p : Phase) : p.wake.Sending → p.Sending := by
  cases p <;> exact id

/-- **`changed.set()`** wakes everybody who waits. -/
lemma set (h : Tied m s) : Tied m s.set ∧ s.set.changed = true := by
  rw [Connection.set]
  split_ifs with hc
  · exact ⟨h, hc⟩
  · refine ⟨fun r hr => ?_, rfl⟩
    obtain ⟨q, hq, rfl⟩ := List.mem_map.mp hr
    exact ⟨fun _ => set_wait q.phase, fun hs => (h q hq).2 (set_sending q.phase hs)⟩

end Tied

namespace Watch

variable {es es' : List H2Event} {e : H2Event} {s s' : Connection η} {c : ℕ}
  {st st' : ResponseStream}

/-- The event is set. -/
lemma of_changed (h : Tied m s) (hc : s.changed = true) : Watch lib m cfg es s :=
  ⟨h, fun _ hn => (Bool.eq_false_iff.mp hn hc).elim, fun _ hn => (Bool.eq_false_iff.mp hn hc).elim⟩

lemma set (h : Tied m s) : Watch lib m cfg es s.set := of_changed h.set.1 h.set.2

/-- Requests and event stay, and nobody gets what it waits for. -/
lemma frame (h : Watch lib m cfg es s) (hrequests : s'.requests = s.requests)
    (hchanged : s'.changed = s.changed) (herror : s'.error = s.error)
    (hopened : ∀ j, m.opened s.h2 j → m.opened s'.h2 j)
    (hready : ∀ r ∈ s.requests, Ready lib cfg s' r → Ready lib cfg s r) :
    Watch lib m cfg es s' := by
  refine ⟨h.tied.frame hrequests (fun hc => hchanged ▸ hc) hopened, fun he hc => ?_,
    fun hrouse hc r hr hdoze hrdy => ?_⟩
  · rw [hrequests]
    exact h.failed (herror ▸ he) (hchanged ▸ hc)
  · rw [hrequests] at hr
    exact h.asleep hrouse (hchanged ▸ hc) r hr hdoze (hready r hr hrdy)

/-- The library has done something for this side. -/
lemma calm (h : Watch lib m cfg es s) {closes : ℕ → Prop} {returns : Option ℕ → Prop} {h2 : η}
    (hcalm : lib.Calm m closes returns s.h2 h2) : Watch lib m cfg es { s with h2 := h2 } :=
  h.frame rfl rfl rfl hcalm.opened fun r hr =>
    Ready.of_less hcalm.slots hcalm.window (h.tied r hr).2

lemma flush (hlib : lib.Lawful m) (h : Watch lib m cfg es s) :
    Watch lib m cfg es (s.flush lib).2 :=
  h.calm (hlib.data_to_send s.h2)

/-- One request goes on. -/
lemma goto (h : Watch lib m cfg es s) (c : ℕ) (p : Phase)
    (hwoken : s.changed = true → p.wait ≠ some .waiting)
    (hsending : p.Sending → ∀ r, s.requests[c]? = some r →
      ∃ st, r.stream = some st ∧ m.opened s.h2 st.streamId)
    (hdoze : p.Dozing → s.error = none ∧
      ∀ r, s.requests[c]? = some r → ¬ Ready lib cfg s { r with phase := p }) :
    Watch lib m cfg es (s.goto c p) := by
  refine ⟨h.tied.modify c _ (fun _ _ => hwoken) fun r hr hs => hsending hs r hr,
    fun he hc r hr hd => ?_, fun hrouse hc r hr hd hrdy => ?_⟩
  · rcases mem_of_modify hr with hr | ⟨q, hq, rfl⟩
    · exact h.failed he hc r hr hd
    · exact he (hdoze hd).1
  · rcases mem_of_modify hr with hr | ⟨q, hq, rfl⟩
    · exact h.asleep hrouse hc r hr hd hrdy
    · exact (hdoze hd).2 q hq hrdy

/-- One request goes to a phase without a wait, and sends nothing there. -/
lemma goto_idle (h : Watch lib m cfg es s) (c : ℕ) {p : Phase} (hwait : p.wait = none)
    (hsending : ¬ p.Sending) : Watch lib m cfg es (s.goto c p) := by
  refine h.goto c p (fun _ hw => ?_) (fun hs => absurd hs hsending) fun hd => ?_
  · cases hwait.symm.trans hw
  · rcases hd with hd | hd
    · cases hwait.symm.trans hd
    · cases hwait.symm.trans hd

/-- One request goes on sending. -/
lemma goto_sending (h : Watch lib m cfg es s) (c : ℕ) {p : Phase} (hwait : p.wait = none)
    (hopened : ∀ r, s.requests[c]? = some r →
      ∃ st, r.stream = some st ∧ m.opened s.h2 st.streamId) : Watch lib m cfg es (s.goto c p) := by
  refine h.goto c p (fun _ hw => ?_) (fun _ => hopened) fun hd => ?_
  · cases hwait.symm.trans hw
  · rcases hd with hd | hd
    · cases hwait.symm.trans hd
    · cases hwait.symm.trans hd

/-- The stream of a request changes, and keeps its identifier and its error. -/
lemma putStream (h : Watch lib m cfg es s) (hst : s.streamOf c = some st)
    (hid : st'.streamId = st.streamId) (herr : st'.error = st.error) :
    Watch lib m cfg es (s.putStream c st') := by
  refine ⟨h.tied.putStream hst hid, fun he hc r hr hd => ?_, fun hrouse hc r hr hd hrdy => ?_⟩
  · rcases mem_of_modify hr with hr | ⟨q, hq, rfl⟩
    · exact h.failed he hc r hr hd
    · exact h.failed he hc q (List.mem_iff_getElem?.mpr ⟨c, hq⟩) hd
  · rcases mem_of_modify hr with hr | ⟨q, hq, rfl⟩
    · exact h.asleep hrouse hc r hr hd hrdy
    · refine h.asleep hrouse hc q (List.mem_iff_getElem?.mpr ⟨c, hq⟩) hd ?_
      rw [Connection.streamOf, hq, Option.bind_some] at hst
      revert hrdy
      rw [Ready, Ready]
      dsimp only
      cases q.phase with
      | blocked left w =>
          rintro (he | ⟨q', hq', hor⟩)
          · exact .inl he
          · obtain rfl := Option.some.inj hq'
            rw [hid, herr] at hor
            exact .inr ⟨st, hst, hor⟩
      | _ => exact id

/-- `release` of a stream that the library knows wakes everybody. -/
lemma release (hlib : lib.Lawful m) (h : Tied m s) {j : ℕ}
    (hreset : s.error = none → (lib.resetStream j s.h2).1 ≠ some .other) :
    Watch lib m cfg es (s.release lib j) := by
  have hcalm := hlib.reset_stream j s.h2
  rw [Connection.release]
  dsimp only
  split_ifs with he
  · have hreset' := hreset he
    split
    · rename_i h2 heq
      rw [heq] at hcalm
      refine set (h.frame rfl id fun i hi => ?_)
      exact (hlib.data_to_send h2).opened i (hcalm.opened i hi)
    · rename_i h2 heq
      rw [heq] at hcalm
      exact set (h.frame rfl id hcalm.opened)
    · rename_i h2 heq
      rw [heq] at hreset'
      exact absurd rfl hreset'
  · exact set (h.frame rfl id fun _ => id)

lemma acloseStream (hlib : lib.Lawful m) (h : Watch lib m cfg es s) (hbooks : Books m [] s)
    (c : ℕ) : Watch lib m cfg es (s.acloseStream lib c) := by
  rw [Connection.acloseStream]
  split
  · exact h
  · rename_i st hst
    split_ifs with hsc
    · exact h
    · rw [Bool.not_eq_true] at hsc
      have htied : Tied m (s.putStream c { st with closed := true, chunks := [] }) :=
        h.tied.putStream hst rfl
      refine release hlib htied fun he => ?_
      have halive := (hbooks.alive (hbooks.running he)).resolve_right List.not_mem_nil
      exact hlib.reset_opened s.h2 st.streamId halive (hbooks.opened hst hsc)

lemma abandon (hlib : lib.Lawful m) (h : Watch lib m cfg es s) (hbooks : Books m [] s) (c : ℕ) :
    Watch lib m cfg es (s.abandon lib c) :=
  (h.acloseStream hlib hbooks c).goto_idle c rfl id

/-- **`fail`** wakes everybody, the first time. -/
lemma fail (h : Watch lib m cfg es s) (error : Failure) : Watch lib m cfg [] (s.fail error) := by
  rw [Connection.fail]
  split_ifs with he
  · refine ⟨h.tied, h.failed, fun _ hc r hr hd => absurd hd (h.failed he hc r hr)⟩
  · refine set fun r hr => ?_
    obtain ⟨i, hi⟩ := List.mem_iff_getElem?.mp hr
    rw [List.getElem?_mapIdx] at hi
    obtain ⟨q, hq, rfl⟩ := Option.map_eq_some_iff.mp hi
    obtain ⟨hwoken, hsending⟩ := h.tied.of_getElem? hq
    refine ⟨hwoken, fun hs => ?_⟩
    obtain ⟨st, hst, ho⟩ := hsending hs
    dsimp only
    rw [hst]
    refine ⟨_, rfl, ?_⟩
    dsimp only
    split_ifs <;> exact ho

lemma stop (h : Watch lib m cfg es s) (error : Failure) : Watch lib m cfg [] (s.stop error) := by
  have hreader : Watch lib m cfg es { s with reader := .stopped } :=
    h.frame rfl rfl rfl (fun _ => id) fun _ _ => id
  exact hreader.fail error

lemma consumed (hlib : lib.Lawful m) (h : Watch lib m cfg es s) (c credit : ℕ) :
    Watch lib m cfg es (s.consumed lib c credit).2 := by
  rw [Connection.consumed]
  split
  · exact h
  rename_i st hst
  dsimp only
  split_ifs with hcond hwait
  · exact h.putStream hst rfl rfl
  · have hcalm := hlib.increment (st.consumedCredit + credit) (some st.streamId) s.h2
    split
    · rename_i h2 heq
      rw [heq] at hcalm
      exact Watch.flush hlib ((h.calm hcalm).putStream (s := { s with h2 := h2 }) hst rfl rfl)
    · rename_i h2 heq
      rw [heq] at hcalm
      exact (h.calm hcalm).putStream (s := { s with h2 := h2 }) hst rfl rfl
    · rename_i h2 heq
      rw [heq] at hcalm
      exact (h.calm hcalm).putStream (s := { s with h2 := h2 }) hst rfl rfl
  · exact h

/-! ## A batch -/

/-- An event has been handled that wakes nobody, or the event is set. -/
lemma drop (h : Watch lib m cfg (e :: es) s) (hquiet : ¬ e.Rouses) : Watch lib m cfg es s :=
  ⟨h.tied, h.failed, fun hrouse => h.asleep fun e' he' => by
    rcases List.mem_cons.mp he' with rfl | he'
    · exact hquiet
    · exact hrouse e' he'⟩

/-- The outcome of a part of a batch. -/
def Outcome (lib : H2Library η) (m : H2Library.Meaning η) (cfg : Config) (es : List H2Event) :
    Connection.Outcome η → Prop
  | .go _ s => Watch lib m cfg es s
  | .raised s => ∃ es', Watch lib m cfg es' s

lemma handle (hlib : lib.Lawful m) (h : Watch lib m cfg (e :: es) s) (terminated : Bool)
    (credit : ℕ) : Outcome lib m cfg es (s.handle lib terminated credit e) := by
  have hof : ∀ {j p}, (s.streams.get? j).bind (fun c => (s.streamOf c).map (c, ·)) = some p →
      s.streamOf p.1 = some p.2 := by
    intro j p hp
    obtain ⟨c, -, hmap⟩ := Option.bind_eq_some_iff.mp hp
    obtain ⟨st, hst, rfl⟩ := Option.map_eq_some_iff.mp hmap
    exact hst
  cases e with
  | connectionTerminated => exact ⟨_, h⟩
  | remoteSettingsChanged => exact set (h.tied.frame rfl id fun _ => id)
  | windowUpdated j => exact set h.tied
  | dataReceived j data n =>
      have hdrop := h.drop id
      rw [Connection.handle]
      dsimp only
      generalize (if n ≠ 0 ∧ terminated = false then credit + n else credit) = credit'
      split
      · exact hdrop
      · rename_i c st hfound
        split_ifs with hempty
        · exact hdrop.putStream (hof hfound) rfl rfl
        · have hput : Watch lib m cfg es (s.putStream c { st with received := st.received + n }) :=
            hdrop.putStream (hof hfound) rfl rfl
          have hconsumed := hput.consumed hlib c n
          split
          · rename_i s' heq
            rw [heq] at hconsumed
            exact hconsumed
          · rename_i s' heq
            rw [heq] at hconsumed
            exact ⟨es, hconsumed⟩
        · exact hdrop.putStream (hof hfound) rfl rfl
  | responseReceived j headers =>
      have hdrop := h.drop id
      rw [Connection.handle]
      split
      · exact hdrop
      · rename_i c st hfound
        exact hdrop.putStream (hof hfound) rfl rfl
  | streamEnded j =>
      have hdrop := h.drop id
      rw [Connection.handle]
      split
      · exact hdrop
      · rename_i c st hfound
        exact hdrop.putStream (hof hfound) rfl rfl
  | streamReset j code =>
      have hdrop := h.drop id
      rw [Connection.handle]
      split
      · exact hdrop
      · rename_i c st hfound
        exact set (hdrop.tied.putStream (hof hfound) rfl)
  | other j => exact h.drop id

lemma handleAll (hlib : lib.Lawful m) (terminated : Bool) :
    ∀ (es : List H2Event) (credit : ℕ) (s : Connection η), Watch lib m cfg es s →
      Outcome lib m cfg [] (Connection.handleAll lib terminated es credit s)
  | [], _, _, h => h
  | e :: es, credit, s, h => by
      have hone := h.handle hlib terminated credit
      rw [Connection.handleAll]
      split
      · rename_i credit' s' heq
        rw [heq] at hone
        exact handleAll hlib terminated es credit' s' hone
      · rename_i s' heq
        rw [heq] at hone
        exact hone

lemma turn_reader (h : Watch lib m cfg es s) (reader : Reader) :
    Watch lib m cfg es { s with reader := reader } :=
  h.frame rfl rfl rfl (fun _ => id) fun _ _ => id

lemma settle (hlib : lib.Lawful m) (h : Watch lib m cfg [] s) (credit : ℕ) :
    Watch lib m cfg [] (s.settle lib credit) := by
  have hfinish : ∀ {t t₁ : Connection η} {b}, Watch lib m cfg [] t → t.flush lib = (b, t₁) →
      ∀ {t'}, t' = { t₁ with reader := .draining } ∨ t' = t₁.next → Watch lib m cfg [] t' := by
    intro t t₁ b ht hflushed t' ht'
    have hflush := ht.flush hlib
    rw [hflushed] at hflush
    rcases ht' with rfl | rfl
    · exact hflush.turn_reader _
    · exact hflush.turn_reader _
  rw [Connection.settle]
  dsimp only
  split_ifs
  · split <;> rename_i hflushed
    · exact hfinish h hflushed (.inl rfl)
    · exact hfinish h hflushed (.inr rfl)
  · have hcalm := hlib.increment credit none s.h2
    split
    · rename_i h2 heq
      rw [heq] at hcalm
      have hpaid : Watch lib m cfg [] { s with h2 := h2 } :=
        (h.calm hcalm).frame rfl rfl rfl (fun _ => id) fun _ _ => id
      split <;> rename_i hflushed
      · exact hfinish hpaid hflushed (.inl rfl)
      · exact hfinish hpaid hflushed (.inr rfl)
    · rename_i h2 heq
      rw [heq] at hcalm
      exact (h.calm hcalm).stop _

/-- **A batch** leaves whoever it has given something to awake. -/
lemma receive (hlib : lib.Lawful m) (h : Watch lib m cfg [] s) (data : Bytes) :
    Watch lib m cfg [] (s.receive lib data) := by
  have hopened := hlib.receive_opened data s.h2
  rw [Connection.receive]
  split_ifs
  · exact h.stop _
  split
  · rename_i h2 heq
    rw [heq] at hopened
    -- what the library knows may have changed, and the connection fails
    have hlost : Watch lib m cfg [.remoteSettingsChanged] { s with h2 := h2 } :=
      ⟨h.tied.frame rfl id hopened, h.failed,
        fun hrouse => absurd trivial (hrouse _ (List.mem_singleton_self _))⟩
    exact hlost.stop _
  · rename_i events h2 heq
    rw [heq] at hopened
    have hbatch : Watch lib m cfg events { s with h2 := h2 } := by
      refine ⟨h.tied.frame rfl id hopened, h.failed, fun hrouse hc r hr hd hrdy => ?_⟩
      have hsettings : .remoteSettingsChanged ∉ events := fun hmem => hrouse _ hmem trivial
      have hwindows : ∀ j, .windowUpdated j ∉ events := fun j hmem => hrouse _ hmem trivial
      have hslots := hlib.receive_slots data s.h2 events h2 heq hsettings
      have hwindow := hlib.receive_window data s.h2 events h2 heq hsettings hwindows
      exact h.asleep (by simp) hc r hr hd (Ready.of_less hslots hwindow (h.tied r hr).2 hrdy)
    have hall := hbatch.handleAll hlib (decide (.connectionTerminated ∈ events)) events 0 _
    split
    · rename_i credit s' hgo
      rw [hgo] at hall
      exact hall.settle hlib credit
    · rename_i s' hraised
      rw [hraised] at hall
      obtain ⟨es', hwatch⟩ := hall
      exact hwatch.stop _

/-! ## Requests -/

/-- Without spoiling, the event can be cleared. -/
lemma clear (h : Watch lib m cfg [] s)
    (hspoil : s.changed = true → ∀ r ∈ s.requests, r.phase.wait = some .unstarted →
      ¬ Ready lib cfg s r) : Watch lib m cfg [] s.clear := by
  have hdozing : ∀ r ∈ s.requests, r.phase.Dozing → ¬ Ready lib cfg s r := by
    intro r hr hd
    by_cases hc : s.changed = true
    · exact hspoil hc r hr (hd.resolve_left ((h.tied r hr).1 hc))
    · exact h.asleep (by simp) (Bool.eq_false_iff.mpr hc) r hr hd
  refine ⟨h.tied.frame rfl (fun hc => by cases hc) fun _ => id, fun he _ r hr hd => ?_,
    fun _ _ => hdozing⟩
  refine hdozing r hr hd ?_
  rw [Ready]
  cases hp : r.phase with
  | reserving w => exact .inl he
  | blocked left w => exact .inl he
  | _ =>
      rw [hp] at hd
      rcases hd with hd | hd <;> cases hd

/-- The stream of a request that neither waits nor sends. -/
lemma putStream_new (h : Watch lib m cfg es s) {r : Request} (hr : s.requests[c]? = some r)
    (hdoze : ¬ r.phase.Dozing) (hsend : ¬ r.phase.Sending) (st : ResponseStream) :
    Watch lib m cfg es (s.putStream c st) := by
  have hphase : ∀ q, s.requests[c]? = some q → q.phase = r.phase := fun q hq => by
    rw [Option.some.inj (hq.symm.trans hr)]
  refine ⟨h.tied.modify c _ (fun q hq => (h.tied.of_getElem? hq).1) fun q hq hs => ?_,
    fun he hc q hq hd => ?_, fun hrouse hc q hq hd hrdy => ?_⟩
  · exact absurd (hphase q hq ▸ hs) hsend
  · rcases mem_of_modify hq with hq | ⟨q', hq', rfl⟩
    · exact h.failed he hc q hq hd
    · exact hdoze (hphase q' hq' ▸ hd)
  · rcases mem_of_modify hq with hq | ⟨q', hq', rfl⟩
    · exact h.asleep hrouse hc q hq hd hrdy
    · exact hdoze (hphase q' hq' ▸ hd)

/-- The map of streams gets no smaller. -/
lemma streams (h : Watch lib m cfg es s) {d : Dict ℕ ℕ} (hsize : s.streams.size ≤ d.size) :
    Watch lib m cfg es { s with streams := d } := by
  refine h.frame rfl rfl rfl (fun _ => id) fun r _ => ?_
  rw [Ready, Ready]
  cases r.phase with
  | reserving w => exact Or.imp id fun ⟨hset, hlt⟩ => ⟨hset, lt_of_le_of_lt hsize hlt⟩
  | _ => exact id

lemma sendTurn (hlib : lib.Lawful m) (h : Watch lib m cfg [] s)
    (hbooks : Books m [] s) {r : Request}
    (hr : s.requests[c]? = some r) (hsend : r.phase.Sending) (hst : r.stream = some st) {left : ℕ}
    (hspoil : left ≠ 0 → s.changed = true → ∀ r ∈ s.requests, r.phase.wait = some .unstarted →
      ¬ Ready lib cfg s r) : Watch lib m cfg [] (s.sendTurn lib cfg c left st) := by
  have hopened : ∀ q, s.requests[c]? = some q →
      ∃ st, q.stream = some st ∧ m.opened s.h2 st.streamId := fun q hq => by
    rw [Option.some.inj (hq.symm.trans hr)]
    exact (h.tied.of_getElem? hr).2 hsend
  rw [Connection.sendTurn]
  dsimp only
  by_cases hleft : left = 0
  · rw [if_pos hleft]
    exact h.goto_sending c rfl hopened
  rw [if_neg hleft]
  have hclear := h.clear (hspoil hleft)
  have hbooks' := hbooks.clear
  split_ifs with herror
  · exact hclear.abandon hlib hbooks' c
  rw [not_or, not_not, not_not] at herror
  split
  · exact hclear.abandon hlib hbooks' c
  rename_i window hwindow
  split_ifs with hfull
  · -- there is no room, and nothing has failed
    refine hclear.goto c _ (fun hc => by cases hc) (fun _ => hopened) fun _ => ⟨herror.1, ?_⟩
    rintro q hq (he | ⟨st', hst', herr | ⟨w, hw, hpos⟩⟩)
    · exact he herror.1
    all_goals
      obtain rfl : q = r := Option.some.inj (hq.symm.trans hr)
      obtain rfl := Option.some.inj (hst'.symm.trans hst)
    · exact herr herror.2
    · obtain rfl := Except.ok.inj (hwindow.symm.trans hw)
      exact absurd hpos (not_lt.mpr hfull)
  · have hcalm := Books.calm_sendFrames hlib st.streamId (lib.maxOutboundFrameSize s.clear.h2)
      (min (min left ioBatchSize) window.toNat) (min (min left ioBatchSize) window.toNat)
      s.clear.h2
    split
    · rename_i h2 heq
      rw [heq] at hcalm
      refine Watch.goto_sending ((hclear.calm hcalm).flush hlib) c rfl fun q hq => ?_
      obtain ⟨st', hst', ho⟩ := hopened q hq
      exact ⟨st', hst', (hlib.data_to_send h2).opened _ (hcalm.opened _ ho)⟩
    · rename_i h2 heq
      rw [heq] at hcalm
      exact (hclear.calm hcalm).abandon hlib (hbooks'.calm hcalm) c

/-- The stream that could not be opened is closed: everybody is woken, or the map is as it was. -/
lemma close_unopened (hlib : lib.Lawful m) (h : Watch lib m cfg [] s) {r : Request}
    (hr : s.requests[c]? = some r) (hdoze : ¬ r.phase.Dozing) (hsend : ¬ r.phase.Sending) {j : ℕ}
    (hj : j ∉ s.streams.keys) {h2 : η} (hcalm : lib.Calm m noStream nowhere s.h2 h2) :
    Watch lib m cfg [] (({ s with h2 := h2, streams := s.streams.set j c }.putStream c
      (.new j)).acloseStream lib c) := by
  have hlt : c < s.requests.length := (List.getElem?_eq_some_iff.mp hr).1
  have hnew : ({ s with h2 := h2, streams := s.streams.set j c }.putStream c (.new j)).streamOf c =
      some (.new j) :=
    (Connection.streamOf_putStream_of_lt (s := { s with h2 := h2, streams := s.streams.set j c })
      hlt (.new j) c).trans (if_pos rfl)
  have hsize : s.streams.size = ((s.streams.set j c).erase j).size := by
    have hset := Dict.size_set_of_not_mem c hj
    have herase := Dict.size_erase_of_mem (d := s.streams.set j c)
      (Dict.mem_entries_set.mpr (.inl rfl : (j, c) = (j, c) ∨ _))
    omega
  have hopen : ¬ (ResponseStream.new j).closed = true := nofun
  -- the same, with the stream out of the map from the start
  have hout : Watch lib m cfg [] (({ s with
      h2 := h2
      streams := (s.streams.set j c).erase j }.putStream c (.new j)).putStream c
        { ResponseStream.new j with closed := true, chunks := [] }) :=
    (((h.calm hcalm).streams (d := (s.streams.set j c).erase j) hsize.le).putStream_new hr hdoze
      hsend (.new j)).putStream ((Connection.streamOf_putStream_of_lt
        (s := { s with h2 := h2, streams := (s.streams.set j c).erase j }) hlt (.new j) c).trans
          (if_pos rfl)) rfl rfl
  have hreset := hlib.reset_stream j h2
  rw [Connection.acloseStream, hnew]
  dsimp only
  rw [if_neg hopen, Connection.release]
  dsimp only
  split_ifs with he
  · split
    · rename_i h2' heq
      replace heq : lib.resetStream j h2 = (none, h2') := heq
      rw [heq] at hreset
      exact set (hout.tied.frame rfl id fun i hi =>
        (hlib.data_to_send h2').opened i (hreset.opened i hi))
    · rename_i h2' heq
      replace heq : lib.resetStream j h2 = (some .streamClosed, h2') := heq
      rw [heq] at hreset
      exact set (hout.tied.frame rfl id hreset.opened)
    · rename_i h2' heq
      replace heq : lib.resetStream j h2 = (some .other, h2') := heq
      rw [heq] at hreset
      exact hout.calm hreset
  · exact set (hout.tied.frame rfl id fun _ => id)

lemma reserveTurn (hlib : lib.Lawful m) (h : Watch lib m cfg [] s) (hbooks : Books m [] s)
    {r : Request} (hr : s.requests[c]? = some r) (hdoze : ¬ r.phase.Dozing)
    (hsend : ¬ r.phase.Sending)
    (hspoil : s.changed = true → ∀ r ∈ s.requests, r.phase.wait = some .unstarted →
      ¬ Ready lib cfg s r) : Watch lib m cfg [] (s.reserveTurn lib cfg c r) := by
  have hclear := h.clear hspoil
  rw [Connection.reserveTurn]
  dsimp only
  split_ifs with herror hroom
  · exact hclear.goto_idle c rfl id
  · split
    · exact hclear.goto_idle c rfl id
    · rename_i j hj
      have hfresh := hlib.fresh s.clear.h2 j hj
      have hopens := hlib.opens s.clear.h2 j hj
      have hcalm := hlib.send_headers j s.clear.h2
      have hkey : j ∉ s.clear.streams.keys := by
        intro hmem
        obtain ⟨d, hd⟩ := Dict.mem_keys.mp hmem
        obtain ⟨st, -, -, -, ho⟩ := hbooks.clear.named j d (Dict.get?_eq_some.mpr hd)
        exact hfresh ho
      split
      · rename_i h2 heq
        replace heq : lib.sendHeaders j s.clear.h2 = (none, h2) := heq
        rw [heq] at hopens hcalm
        have hsize : s.clear.streams.size ≤ (s.clear.streams.set j c).size := by
          rw [Dict.size_set_of_not_mem c hkey]
          exact Nat.le_succ _
        have hput : Watch lib m cfg [] ({ s.clear with
            h2 := h2, streams := s.clear.streams.set j c }.putStream c (.new j)) :=
          ((hclear.calm hcalm).streams hsize).putStream_new hr hdoze hsend (.new j)
        refine (hput.flush hlib).goto_sending c rfl fun q hq => ⟨.new j, ?_, ?_⟩
        · have hq' : (s.requests.modify c fun r => { r with stream := some (.new j) })[c]? =
              some q := hq
          rw [List.getElem?_modify_eq, hr] at hq'
          rw [← Option.some.inj hq']
        · exact (hlib.data_to_send h2).opened _ (hopens rfl).1
      · rename_i refused h2 heq
        replace heq : lib.sendHeaders j s.clear.h2 = (some refused, h2) := heq
        rw [heq] at hcalm
        exact (hclear.close_unopened hlib hr hdoze hsend hkey hcalm).goto_idle c rfl id
  · refine hclear.goto c _ (fun hc => by cases hc) (fun hs => absurd hs id) fun _ =>
      ⟨not_not.mp herror, ?_⟩
    rintro q hq (he | hfree)
    · exact herror he
    · exact hroom hfree

/-- What the loop of `__aiter__` does is nothing to the requests that wait. -/
lemma iterate (h : Watch lib m cfg es s) (c : ℕ) : Watch lib m cfg es (s.iterate c) := by
  rw [Connection.iterate]
  split
  · exact h
  rename_i st hst
  by_cases hstop : st.closed ∨ st.error ≠ none
  · rw [if_pos hstop]
    exact h.goto_idle c rfl id
  rw [if_neg hstop]
  split
  · exact h.putStream hst rfl rfl
  · split_ifs
    · exact h.goto_idle c rfl id
    · exact h

lemma readNext (hlib : lib.Lawful m) (h : Watch lib m cfg es s) (hst : s.streamOf c = some st) :
    Watch lib m cfg es (s.readNext lib c st) := by
  rw [Connection.readNext]
  split
  · exact h.iterate c
  · rename_i credit hhanded
    have hput : Watch lib m cfg es (s.putStream c { st with handed := none }) :=
      h.putStream hst rfl rfl
    have hconsumed := hput.consumed hlib c credit
    split
    · rename_i s' heq
      rw [heq] at hconsumed
      exact hconsumed.iterate c
    · rename_i s' heq
      rw [heq] at hconsumed
      exact hconsumed.goto_idle c rfl id

lemma readTimedOut (h : Watch lib m cfg [] s) (c : ℕ) : Watch lib m cfg [] (s.readTimedOut c) := by
  rw [Connection.readTimedOut]
  split_ifs
  · exact h
  · exact h.fail _

/-- The inner `wait()` of a request starts. -/
lemma start (h : Watch lib m cfg [] s) {r : Request} (hr : s.requests[c]? = some r)
    (f : Wait → Phase)
    (hphase : r.phase = f .unstarted) (hwait : ∀ w, (f w).wait = some w)
    (hsending : ∀ w, (f w).Sending → r.phase.Sending)
    (hready : ∀ w, Ready lib cfg s { r with phase := f w } → Ready lib cfg s r) :
    Watch lib m cfg [] (s.goto c (f (if s.changed then .woken else .waiting))) := by
  have hmem : r ∈ s.requests := List.mem_iff_getElem?.mpr ⟨c, hr⟩
  have hsame : ∀ q, s.requests[c]? = some q → q = r := fun q hq =>
    Option.some.inj (hq.symm.trans hr)
  have hdoze : r.phase.Dozing := .inr (by rw [hphase, hwait])
  refine h.goto c _ (fun hc hw => ?_) (fun hs q hq => ?_) fun hd => ⟨?_, fun q hq hrdy => ?_⟩
  · rw [hwait, if_pos hc] at hw
    cases hw
  · rw [hsame q hq]
    exact (h.tied r hmem).2 (hsending _ hs)
  all_goals
    have hc : s.changed = false := by
      by_contra hc
      rw [Bool.not_eq_false] at hc
      rw [if_pos hc] at hd
      rcases hd with hd | hd
      · cases (hwait _).symm.trans hd
      · cases (hwait _).symm.trans hd
  · by_contra he
    exact h.failed he hc r hmem hdoze
  · rw [hsame q hq] at hrdy
    exact h.asleep (by simp) hc r hmem hdoze (hready _ hrdy)

/-- **A step that does not spoil** leaves nobody asleep who could go on. -/
lemma step (hlib : lib.Lawful m) (h : Watch lib m cfg [] s) (hbooks : Books m [] s) (e : Event)
    (hspoil : ¬ Spoils lib cfg s e) (hs : Connection.step lib cfg e s = some s') :
    Watch lib m cfg [] s' := by
  have hof : ∀ {c r}, s.requests[c]? = some r → s.streamOf c = r.stream := by
    intro c r hr
    rw [Connection.streamOf, hr]
    rfl
  have hclears : Clears s e → s.changed = true → ∀ r ∈ s.requests,
      r.phase.wait = some .unstarted → ¬ Ready lib cfg s r :=
    fun hc hchanged r hr hw hrdy => hspoil ⟨hc, hchanged, r, hr, hw, hrdy⟩
  cases e with
  | request poolTimeout =>
      obtain rfl := Option.some.inj hs
      refine ⟨fun r hr => ?_, fun he hc r hr hd => ?_, fun hrouse hc r hr hd => ?_⟩
      all_goals rcases List.mem_append.mp hr with hr | hr
      · exact h.tied r hr
      · obtain rfl := List.mem_singleton.mp hr
        exact ⟨by rintro - ⟨⟩, fun hs => absurd hs id⟩
      · exact h.failed he hc r hr hd
      · obtain rfl := List.mem_singleton.mp hr
        rcases hd with hd | hd <;> cases hd
      · exact h.asleep hrouse hc r hr hd
      · obtain rfl := List.mem_singleton.mp hr
        exact id
  | start c =>
      obtain ⟨r, hr, hs⟩ := Option.bind_eq_some_iff.mp hs
      split at hs
      · rename_i hphase
        obtain rfl := Option.some.inj hs
        refine h.start hr .reserving hphase (fun _ => rfl) (fun _ hs => absurd hs id) fun w => ?_
        rw [Ready, Ready, hphase]
        exact id
      · rename_i left hphase
        obtain rfl := Option.some.inj hs
        refine h.start hr (.blocked left) hphase (fun _ => rfl) (fun _ _ => hphase ▸ trivial)
          fun w => ?_
        rw [Ready, Ready, hphase]
        exact id
      · cases hs
  | turn c =>
      obtain ⟨r, hr, hs⟩ := Option.bind_eq_some_iff.mp hs
      split at hs
      · rename_i hphase hnone
        obtain rfl := Option.some.inj hs
        refine h.reserveTurn hlib hbooks hr ?_ ?_ (hclears trivial)
        · rw [hphase]
          rintro (hd | hd) <;> cases hd
        · rw [hphase]
          exact id
      · rename_i hphase hnone
        obtain rfl := Option.some.inj hs
        refine h.reserveTurn hlib hbooks hr ?_ ?_ (hclears trivial)
        · rw [hphase]
          rintro (hd | hd) <;> cases hd
        · rw [hphase]
          exact id
      · rename_i hphase hst
        obtain rfl := Option.some.inj hs
        exact h.sendTurn hlib hbooks hr (hphase ▸ trivial) hst fun _ => hclears trivial
      · cases hs
  | timeout c =>
      obtain ⟨r, hr, hs⟩ := Option.bind_eq_some_iff.mp hs
      split at hs
      · split_ifs at hs
        obtain rfl := Option.some.inj hs
        exact h.goto_idle c rfl id
      · split_ifs at hs
        obtain rfl := Option.some.inj hs
        exact h.abandon hlib hbooks c
      · cases hs
  | fetched c data =>
      obtain ⟨r, hr, hs⟩ := Option.bind_eq_some_iff.mp hs
      split at hs
      · rename_i hphase hst _
        obtain rfl := Option.some.inj hs
        exact h.sendTurn hlib hbooks hr (hphase ▸ trivial) hst hclears
      · rename_i st hphase hst _
        obtain rfl := Option.some.inj hs
        have hcalm := hlib.end_stream st.streamId s.h2
        rw [Connection.endBody]
        split
        · rename_i h2 heq
          rw [heq] at hcalm
          exact ((h.calm hcalm).flush hlib).goto_idle c rfl id
        · rename_i h2 heq
          rw [heq] at hcalm
          exact (h.calm hcalm).abandon hlib (hbooks.calm hcalm) c
      · cases hs
  | drained c outcome =>
      obtain ⟨r, hr, hs⟩ := Option.bind_eq_some_iff.mp hs
      have hbooks' : ∀ error, Books m [] (s.fail error) := fun error =>
        hbooks.fail error (fun _ => id) rfl (fun _ => rfl) hbooks.alive
      split at hs
      · rename_i left st hphase hst hok
        obtain rfl := Option.some.inj hs
        refine h.sendTurn hlib hbooks hr (hphase ▸ trivial) hst fun hleft => hclears ?_
        cases outcome with
        | ok => exact ⟨r, hr, left, hphase, hleft⟩
        | timeout => cases hok
        | osError => cases hok
      · obtain rfl := Option.some.inj hs
        exact h.goto_idle c rfl id
      · obtain rfl := Option.some.inj hs
        exact (h.fail _).abandon hlib (hbooks' _) c
      · obtain rfl := Option.some.inj hs
        exact (h.fail _).abandon hlib (hbooks' _) c
      · cases hs
  | respond c =>
      obtain ⟨r, hr, hs⟩ := Option.bind_eq_some_iff.mp hs
      split at hs
      · obtain rfl := Option.some.inj hs
        rw [Connection.respond]
        split_ifs
        · exact h.abandon hlib hbooks c
        · exact h
        · exact h.goto_idle c rfl id
      · cases hs
  | cancel c =>
      obtain ⟨r, hr, hs⟩ := Option.bind_eq_some_iff.mp hs
      split at hs
      · cases hs
      · cases hs
      · cases hs
      · obtain rfl := Option.some.inj hs
        exact h.abandon hlib hbooks c
  | read c =>
      obtain ⟨r, hr, hs⟩ := Option.bind_eq_some_iff.mp hs
      split at hs
      · rename_i st hphase hst
        obtain rfl := Option.some.inj hs
        exact h.readNext hlib ((hof hr).trans hst)
      · cases hs
  | readTimeout c =>
      obtain ⟨r, hr, hs⟩ := Option.bind_eq_some_iff.mp hs
      split at hs
      · obtain rfl := Option.some.inj hs
        exact (h.readTimedOut c).abandon hlib (hbooks.readTimedOut c) c
      · split_ifs at hs
        obtain rfl := Option.some.inj hs
        exact (h.readTimedOut c).goto_idle c rfl id
      · cases hs
  | closeResponse c =>
      obtain ⟨r, hr, hs⟩ := Option.bind_eq_some_iff.mp hs
      split at hs
      · obtain rfl := Option.some.inj hs
        exact h.acloseStream hlib hbooks c
      · obtain rfl := Option.some.inj hs
        exact h.acloseStream hlib hbooks c
      · cases hs
  | receive data =>
      rw [Connection.step] at hs
      split_ifs at hs
      obtain rfl := Option.some.inj hs
      exact h.receive hlib data
  | readerDrained outcome =>
      rw [Connection.step] at hs
      split_ifs at hs
      split at hs
      · obtain rfl := Option.some.inj hs
        exact h.turn_reader _
      · obtain rfl := Option.some.inj hs
        exact h.stop _
  | aclose =>
      obtain rfl := Option.some.inj hs
      exact h.stop _

end Watch

/-! ## Runs -/

variable {s s' : Connection η}

lemma watch_starting (h : Starting m s) : Watch lib m cfg [] s := by
  obtain ⟨-, -, -, -, -, -, hrequests⟩ := h
  refine ⟨fun r hr => ?_, fun _ _ r hr => ?_, fun _ _ r hr => ?_⟩
  all_goals
    rw [hrequests] at hr
    cases hr

/-- **Wake-ups.**  In a run in which no request clears the event, set, under the wait of another
that could go on and has not started to wait, whoever could go on has a wake-up pending. -/
theorem awake_without_spoiling (hlib : lib.Lawful m)
    (h : Reachable (Starting m) (Connection.step lib cfg) (fun s e => ¬ Spoils lib cfg s e) s) :
    ∀ r ∈ s.requests, Ready lib cfg s r → Woken s r := by
  have hwatch : Watch lib m cfg [] s := by
    refine (h.invariant (P := fun s => Books m [] s ∧ Watch lib m cfg [] s) ?_ ?_).2
    · exact fun s hs => ⟨books_starting hs, watch_starting hs⟩
    · exact fun s e s' _ ⟨hbooks, hwatch⟩ hspoil hs =>
        ⟨hbooks.step hlib e hs, hwatch.step hlib hbooks e hspoil hs⟩
  intro r hr hrdy
  have hwait : ∃ w, r.phase.wait = some w := by
    revert hrdy
    rw [Ready]
    cases r.phase with
    | reserving w => exact fun _ => ⟨w, rfl⟩
    | blocked left w => exact fun _ => ⟨w, rfl⟩
    | _ => exact fun hf => absurd hf id
  obtain ⟨w, hw⟩ := hwait
  cases w with
  | woken => exact .inl hw
  | unstarted =>
      refine .inr ⟨hw, ?_⟩
      by_contra hc
      exact hwatch.asleep (by simp) (Bool.eq_false_iff.mpr hc) r hr (.inr hw) hrdy
  | waiting =>
      by_cases hc : s.changed = true
      · exact absurd hw ((hwatch.tied r hr).1 hc)
      · exact absurd hrdy (hwatch.asleep (by simp) (Bool.eq_false_iff.mpr hc) r hr (.inl hw))

/-- A connection of the small library. -/
def peerStart : Connection Peer := ⟨Peer.fresh, .empty, false, false, none, .reading, []⟩

lemma starting_peerStart : Starting Peer.meaning peerStart :=
  ⟨trivial, rfl, rfl, rfl, rfl, rfl, rfl⟩

/-- One slot, two requests: the second waits, the first is cancelled. -/
theorem awake_without_spoiling_sample :
    ∃ (s : Connection Peer) (r : Request),
      Reachable (Starting Peer.meaning) (Connection.step Peer.library ⟨1, true⟩)
        (fun s e => ¬ Spoils Peer.library ⟨1, true⟩ s e) s ∧ r ∈ s.requests ∧
      Ready Peer.library ⟨1, true⟩ s r ∧ Woken s r := by
  let step := Connection.step Peer.library ⟨1, true⟩
  let started (s : Connection Peer) : Bool :=
    s.requests.all fun r => decide (r.phase.wait ≠ some .unstarted)
  have hrun : ((exec step [.receive Peer.settings, .readerDrained .ok, .request true, .request true]
      peerStart).bind fun s₁ => (step (.turn 0) s₁).bind fun s₂ =>
          (step (.turn 1) s₂).bind fun s₃ =>
        (step (.cancel 0) s₃).map fun s₄ => (started s₁, started s₂,
          decide (s₄.requests[1]? = some ⟨true, .reserving .unstarted, none⟩),
          s₄.settingsReceived, s₄.streams.size)) = some (true, true, true, true, 0) := by
    decide +kernel
  obtain ⟨s₁, h₁, hrun⟩ := Option.bind_eq_some_iff.mp hrun
  obtain ⟨s₂, h₂, hrun⟩ := Option.bind_eq_some_iff.mp hrun
  obtain ⟨s₃, h₃, hrun⟩ := Option.bind_eq_some_iff.mp hrun
  obtain ⟨s₄, h₄, hfacts⟩ := Option.map_eq_some_iff.mp hrun
  simp only [Prod.mk.injEq, decide_eq_true_eq] at hfacts
  obtain ⟨hstarted₁, hstarted₂, hr, hsettings, hsize⟩ := hfacts
  have hnot : ∀ (s : Connection Peer) (e : Event), started s = true →
      ¬ Spoils Peer.library ⟨1, true⟩ s e := by
    rintro s e hall ⟨-, -, r, hr, hw, -⟩
    simpa [hw] using List.all_eq_true.mp hall r hr
  have hreach₁ : Reachable (Starting Peer.meaning) step
      (fun s e => ¬ Spoils Peer.library ⟨1, true⟩ s e) s₁ := by
    refine reachable_of_exec_of_allowed (fun e he s hspoils => ?_) (.start starting_peerStart) h₁
    have hclears := hspoils.1
    simp only [List.mem_cons, List.not_mem_nil, or_false] at he
    rcases he with rfl | rfl | rfl | rfl <;> exact hclears
  have hreach₃ := (hreach₁.step _ (hnot _ _ hstarted₁) h₂).step _ (hnot _ _ hstarted₂) h₃
  have hreach₄ := hreach₃.step (.cancel 0) (by rintro ⟨hclears, -⟩; exact hclears) h₄
  have hmem : (⟨true, .reserving .unstarted, none⟩ : Request) ∈ s₄.requests :=
    List.mem_iff_getElem?.mpr ⟨1, hr⟩
  have hready : Ready Peer.library ⟨1, true⟩ s₄ ⟨true, .reserving .unstarted, none⟩ := by
    refine .inr ⟨hsettings, ?_⟩
    rw [hsize]
    show 0 < min 1 (2 ^ 32 + 1)
    decide
  exact ⟨s₄, _, hreach₄, hmem, hready,
    awake_without_spoiling Peer.lawful hreach₄ _ hmem hready⟩

/-- **A lost wake-up.**  Two slots, three requests: the third finds no slot, and before its inner
`wait()` has started the first is cancelled, which sets the event, and the second goes on with its
body, which clears it.  The third sleeps beside a free slot. -/
theorem lost_wakeup : Peer.library.Lawful Peer.meaning ∧
    ¬ ∀ s, Connection.Reaches Peer.library Peer.meaning ⟨2, true⟩ s →
      ∀ r ∈ s.requests, Ready Peer.library ⟨2, true⟩ s r → Woken s r := by
  refine ⟨Peer.lawful, fun hall => ?_⟩
  have hrun : (exec (Connection.step Peer.library ⟨2, true⟩) [.receive Peer.settings,
      .readerDrained .ok, .request true, .request true, .request true, .turn 0, .turn 1, .turn 2,
      .cancel 0, .fetched 1 (some 1), .start 2] peerStart).map (fun s =>
        (decide (s.requests[2]? = some ⟨true, .reserving .waiting, none⟩), s.settingsReceived,
          s.streams.size)) = some (true, true, 1) := by decide +kernel
  obtain ⟨s, hs, hfacts⟩ := Option.map_eq_some_iff.mp hrun
  simp only [Prod.mk.injEq, decide_eq_true_eq] at hfacts
  obtain ⟨hr, hsettings, hsize⟩ := hfacts
  have hready : Ready Peer.library ⟨2, true⟩ s ⟨true, .reserving .waiting, none⟩ := by
    refine .inr ⟨hsettings, ?_⟩
    rw [hsize]
    show 1 < min 2 100
    decide
  have hwoken := hall s (reachable_of_exec (.start starting_peerStart) hs) _
    (List.mem_iff_getElem?.mpr ⟨2, hr⟩) hready
  rcases hwoken with hw | ⟨hw, -⟩
  · cases hw
  · cases hw

end TgWsProxy.H2Transport
