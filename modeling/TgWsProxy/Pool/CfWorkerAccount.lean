import TgWsProxy.Core.Registry
import TgWsProxy.Pool.Account
import TgWsProxy.Pool.CfWorkerPool

/-!
# Where the connections of the worker pool are

A refill of this pool owns no connection while it is suspended: what a dial returns goes into the
bucket or is closed in the same step.

* `Shape` — the refills against the registry and the buckets.
* `World.tally`, `Moved` — connections change places, and none appears, doubles or is lost.
* `Sound.step` — every step keeps the shape and the balance of the account.
* `Keeps` — a refill that is not registered keeps its hands off the buckets.
* `Closers` — `close()` leaves nothing behind.
-/

namespace TgWsProxy.CfWorker

open Wire

variable {δ : Type*}

/-! ## The refills against the maps -/

/-- The loop of `get` splits the bucket. -/
lemma popFresh_eq (now : ℚ) (dead : List ℕ) : ∀ bucket : List (Idle δ),
    (popFresh now dead bucket).1 ++ (popFresh now dead bucket).2.1.toList.map Idle.ws ++
      (popFresh now dead bucket).2.2.map Idle.ws = bucket.map Idle.ws
  | [] => rfl
  | e :: bucket => by
      have ih := popFresh_eq now dead bucket
      unfold popFresh
      split_ifs
      · exact congrArg (e.ws :: ·) ih
      · rfl

lemma popFresh_length (now : ℚ) (dead : List ℕ) (bucket : List (Idle δ)) :
    (popFresh now dead bucket).2.2.length ≤ bucket.length := by
  have hlen := congrArg List.length (popFresh_eq now dead bucket)
  rw [List.length_append, List.length_map, List.length_map] at hlen
  omega

/-- A refill that is registered for `dc`: the bucket that it fills is the one of the DC, and has
room for this dial and for the rounds that are still to come. -/
def Phase.Fits (size : ℕ) (idle : Shelf ℤ (Idle δ)) (dc : ℤ) : Phase δ → Prop
  | .created => True
  | .dialling bucket more _ _ _ =>
      idle.get? dc = some bucket ∧ (idle.heap bucket).length + more + 1 ≤ size
  | _ => False

/-- A refill that is not registered is cancelled before its first step. -/
def Refill.Loose (r : Refill δ) : Prop := r.phase = .created → r.cancelled = true

/-- The refills against the registry and the buckets. -/
structure Shape (size : ℕ) (s : World δ) : Prop where
  tasks : Enrolled Refill.dc (fun r => r.cancelled = false ∧ r.phase.Fits size s.pool.idle r.dc)
    Refill.Loose s.pool.refilling s.tasks
  small : ∀ k b, s.pool.idle.get? k = some b → (s.pool.idle.heap b).length ≤ size

lemma Phase.Fits.mono {size : ℕ} {idle idle' : Shelf ℤ (Idle δ)} {dc : ℤ} {p : Phase δ}
    (h : p.Fits size idle dc)
    (hle : ∀ b, idle.get? dc = some b →
      idle'.get? dc = some b ∧ (idle'.heap b).length ≤ (idle.heap b).length) :
    p.Fits size idle' dc := by
  cases p with
  | dialling bucket more connected domain rest =>
      obtain ⟨hget, hroom⟩ := h
      obtain ⟨hget', hlen⟩ := hle bucket hget
      exact ⟨hget', by omega⟩
  | _ => exact h

/-- The buckets of all DCs but that of refill `t` stay or lose connections. -/
def Beside (t : ℕ) (s : World δ) (idle : Shelf ℤ (Idle δ)) : Prop :=
  ∀ k b, s.pool.refilling.get? k ≠ some t → s.pool.idle.get? k = some b →
    idle.get? k = some b ∧ (idle.heap b).length ≤ (s.pool.idle.heap b).length

namespace Shape

variable {size t : ℕ} {s s' : World δ} {r r' : Refill δ}

lemma of_eq (h : Shape size s) (hidle : s'.pool.idle = s.pool.idle)
    (hrefilling : s'.pool.refilling = s.pool.refilling) (htasks : s'.tasks = s.tasks) :
    Shape size s' := by
  refine ⟨?_, ?_⟩
  · rw [hrefilling, htasks, hidle]
    exact h.tasks
  · rw [hidle]
    exact h.small

lemma fits (h : Shape size s) (hr : s.tasks[t]? = some r)
    (hreg : s.pool.refilling.get? r.dc = some t) :
    r.cancelled = false ∧ r.phase.Fits size s.pool.idle r.dc :=
  h.tasks.of_named hr hreg

lemma others (hidle : Beside t s idle) (u : ℕ) (q : Refill δ) (hut : u ≠ t)
    (hreg : s.pool.refilling.get? q.dc = some u)
    (h : q.cancelled = false ∧ q.phase.Fits size s.pool.idle q.dc) :
    q.cancelled = false ∧ q.phase.Fits size idle q.dc := by
  refine ⟨h.1, h.2.mono fun b hb => hidle q.dc b (fun hreg' => hut ?_) hb⟩
  exact Option.some.inj (hreg.symm.trans hreg')

/-- Refill `t` moves on, and with it its own bucket. -/
lemma update (h : Shape size s) (hr : s.tasks[t]? = some r) {idle : Shelf ℤ (Idle δ)}
    (hidle : Beside t s idle) (hsmall : ∀ k b, idle.get? k = some b → (idle.heap b).length ≤ size)
    (hdc : r'.dc = r.dc)
    (hfits : s.pool.refilling.get? r.dc = some t →
      r'.cancelled = false ∧ r'.phase.Fits size idle r.dc)
    (hloose : s.pool.refilling.get? r.dc ≠ some t → r'.Loose) :
    Shape size ({ s with pool := { s.pool with idle := idle } }.put t r') := by
  refine ⟨h.tasks.update hr hdc ?_ (fun hreg => ?_) hloose, hsmall⟩
  · exact fun u q hut _ => others hidle u q hut
  · exact hdc ▸ hfits hreg

/-- Refill `t` ends. -/
lemma finish (h : Shape size s) (hr : s.tasks[t]? = some r) {idle : Shelf ℤ (Idle δ)}
    (hidle : Beside t s idle)
    (hsmall : ∀ k b, idle.get? k = some b → (idle.heap b).length ≤ size) :
    Shape size ({ s with pool := { s.pool with idle := idle } }.finish t r) := by
  have hreleased := h.tasks.release hr { r with phase := .done, cancelled := false } rfl
    (fun u q hut _ => others hidle u q hut) nofun
  unfold World.finish CfWorkerPool.release
  split_ifs at hreleased ⊢
  · exact ⟨hreleased, hsmall⟩
  · exact ⟨hreleased, hsmall⟩

/-- The buckets lose connections, or a new one is opened. -/
lemma withIdle (h : Shape size s) {idle : Shelf ℤ (Idle δ)}
    (hget : ∀ k b, s.pool.idle.get? k = some b →
      idle.get? k = some b ∧ (idle.heap b).length ≤ (s.pool.idle.heap b).length)
    (hnew : ∀ k b, idle.get? k = some b → s.pool.idle.get? k = some b ∨ idle.heap b = []) :
    Shape size { s with pool := { s.pool with idle := idle } } := by
  refine ⟨h.tasks.imp ?_, ?_⟩
  · rintro u q - - ⟨hcancelled, hfits⟩
    exact ⟨hcancelled, hfits.mono (hget q.dc)⟩
  · intro k b hb
    rcases hnew k b hb with hold | hnil
    · exact (hget k b hold).2.trans (h.small k b hold)
    · show (idle.heap b).length ≤ size
      rw [hnil]
      exact Nat.zero_le size

lemma setdefault (h : Shape size s) (dc : ℤ) :
    Shape size { s with pool := { s.pool with idle := (s.pool.idle.setdefault dc).2 } } := by
  refine h.withIdle (fun k b hb => ?_) fun k b hb => Shelf.get?_of_setdefault hb
  obtain ⟨hget, hheap⟩ := Shelf.setdefault_of_get? dc hb
  exact ⟨hget, by rw [hheap]⟩

lemma modify (h : Shape size s) {b : ℕ} {l : List (Idle δ)}
    (hl : l.length ≤ (s.pool.idle.heap b).length) :
    Shape size { s with pool := { s.pool with idle := s.pool.idle.modify b l } } := by
  refine h.withIdle (fun k d hd => ⟨hd, ?_⟩) fun k d hd => Or.inl hd
  by_cases hbd : d = b
  · subst hbd
    rw [Shelf.heap_modify_self]
    exact hl
  · rw [Shelf.heap_modify_of_ne _ hbd]

lemma scheduleRefill (h : Shape size s) (dc : ℤ) (workerDomains : List δ) :
    Shape size (s.scheduleRefill dc workerDomains) := by
  unfold World.scheduleRefill
  split_ifs with hskip
  · exact h
  · have hrefill : (⟨dc, workerDomains, .created, false⟩ : Refill δ).cancelled = false ∧
        Phase.Fits size s.pool.idle dc (.created : Phase δ) := ⟨rfl, trivial⟩
    refine ⟨h.tasks.append (r := ⟨dc, workerDomains, .created, false⟩) (fun hmem => ?_) hrefill,
      h.small⟩
    exact hskip (Or.inl hmem)

/-- Refill `t` dials the next domain, or is behind its loop. -/
lemma dialOrSettle (h : Shape size s) (hr : s.tasks[t]? = some r) {idle : Shelf ℤ (Idle δ)}
    (hidle : Beside t s idle) (hsmall : ∀ k b, idle.get? k = some b → (idle.heap b).length ≤ size)
    {bucket more : ℕ} (connected : ℕ) (domains : List δ)
    (hfits : s.pool.refilling.get? r.dc = some t →
      idle.get? r.dc = some bucket ∧ (idle.heap bucket).length + more + 1 ≤ size) :
    Shape size ({ s with pool := { s.pool with idle := idle } }.dialOrSettle t r bucket more
      connected domains) := by
  cases domains with
  | cons domain rest =>
      exact h.update hr hidle hsmall rfl (fun hreg => ⟨rfl, hfits hreg⟩) fun _ => nofun
  | nil =>
      obtain ⟨f, a, hsettle⟩ :=
        CfWorkerPool.settle_eq s.now r.dc connected { s.pool with idle := idle }
      unfold World.dialOrSettle
      simp only [hsettle]
      have hsettled : Shape size { s with
          pool := { s.pool with refillFailures := f, refillAfter := a } } := h.of_eq rfl rfl rfl
      exact hsettled.finish hr hidle hsmall

lemma warmup (h : Shape size s) (dcs : List ℤ) (workerDomains : List δ) :
    Shape size (dcs.foldl (fun s dc => s.scheduleRefill dc workerDomains) s) := by
  induction dcs generalizing s with
  | nil => exact h
  | cons dc dcs ih => exact ih (h.scheduleRefill dc workerDomains)

lemma beside_self (t : ℕ) (s : World δ) : Beside t s s.pool.idle := fun _ _ _ hb => ⟨hb, le_rfl⟩

/-- Behind the connections in the bucket of a registered refill there is room for one more. -/
lemma room (h : Shape size s) (hr : s.tasks[t]? = some r)
    (hreg : s.pool.refilling.get? r.dc = some t) {bucket more connected : ℕ} {domain : δ}
    {rest : List δ} (hphase : r.phase = .dialling bucket more connected domain rest) (e : Idle δ)
    {idle : Shelf ℤ (Idle δ)}
    (hidle : idle = s.pool.idle.modify bucket (s.pool.idle.heap bucket ++ [e])) :
    Beside t s idle ∧ (∀ k b, idle.get? k = some b → (idle.heap b).length ≤ size) ∧
      idle.get? r.dc = some bucket ∧ (idle.heap bucket).length + more ≤ size := by
  have hfits := (h.fits hr hreg).2
  rw [hphase] at hfits
  obtain ⟨hget, hroom⟩ := hfits
  have hlen : (idle.heap bucket).length = (s.pool.idle.heap bucket).length + 1 := by
    rw [hidle, Shelf.heap_modify_self, List.length_append, List.length_singleton]
  have hne : ∀ {b}, b ≠ bucket → idle.heap b = s.pool.idle.heap b := by
    intro b hb
    rw [hidle, Shelf.heap_modify_of_ne _ hb]
  have hsame : ∀ k, idle.get? k = s.pool.idle.get? k := fun k => hidle ▸ Shelf.get?_modify _ _ _ _
  refine ⟨fun k b hk hb => ⟨(hsame k).trans hb, ?_⟩, fun k b hb => ?_, (hsame _).trans hget, ?_⟩
  · have hbne : b ≠ bucket := by
      rintro rfl
      exact hk (Shelf.key_unique hb hget ▸ hreg)
    rw [hne hbne]
  · by_cases hbne : b = bucket
    · subst hbne
      omega
    · rw [hne hbne]
      exact h.small k b ((hsame k).symm.trans hb)
  · omega

variable [DecidableEq δ]

lemma reset (h : Shape size s) : Shape size s.reset := by
  refine ⟨?_, nofun⟩
  have hloose : ∀ r : Refill δ, ¬ r.phase ≠ .done → r.Loose := by
    intro r hdone hcreated
    rw [not_not.mp hdone] at hcreated
    cases hcreated
  refine (h.tasks.clear (fun r => r.phase ≠ .done) (fun r => { r with cancelled := true })
    (fun _ _ _ _ => rfl) hloose).imp ?_
  rintro u q - hreg -
  cases hreg

lemma get (h : Shape size s) (dc : ℤ) (workerDomains : List δ) (dead : List ℕ) :
    Shape size (s.get dc workerDomains dead) := by
  have hlen := popFresh_length s.now dead
    ((s.pool.idle.setdefault dc).2.heap (s.pool.idle.setdefault dc).1)
  have hidle := (h.setdefault dc).modify hlen
  unfold World.get
  simp only
  split
  all_goals
    refine Shape.scheduleRefill ?_ _ _
    exact hidle.of_eq rfl rfl rfl

lemma begin {n : ℕ} (h : Shape (min n perDcLimit) s) (hr : s.tasks[t]? = some r)
    {shuffled : List δ} (hs : s.begin n t r shuffled = some s') : Shape (min n perDcLimit) s' := by
  have hidle := h.setdefault r.dc
  obtain ⟨u, havailable⟩ := CfWorkerPool.availableDomains_eq s.now r.workerDomains
    { s.pool with idle := (s.pool.idle.setdefault r.dc).2 }
  unfold World.begin at hs
  simp only [havailable] at hs
  have hrest : Shape (min n perDcLimit) { s with pool := { s.pool with
      idle := (s.pool.idle.setdefault r.dc).2, unavailableUntil := u } } := hidle.of_eq rfl rfl rfl
  split_ifs at hs with hneeded hnone hperm
  · exact Option.some.inj hs ▸ hidle.finish hr (beside_self t _) hidle.small
  · exact Option.some.inj hs ▸ hrest.finish hr (beside_self t _) hrest.small
  · refine Option.some.inj hs ▸ hrest.dialOrSettle hr (beside_self t _) hrest.small 0 shuffled
      fun _ => ⟨Shelf.get?_setdefault_self _ _, ?_⟩
    simp only at hneeded ⊢
    omega

/-- A dial returns: the connection goes into the bucket, or the refill has been overtaken. -/
lemma dialReturned (h : Shape size s) (hr : s.tasks[t]? = some r)
    {bucket more connected ws : ℕ} {domain : δ} {rest shuffled : List δ}
    (hphase : r.phase = .dialling bucket more connected domain rest)
    (hs : s.dialReturned t ws r bucket more connected domain shuffled = some s') :
    Shape size s' := by
  unfold World.dialReturned at hs
  simp only at hs
  generalize hidle : s.pool.idle.modify bucket (s.pool.idle.heap bucket ++ [⟨ws, s.now, domain⟩]) =
    idle at hs
  split_ifs at hs with hreg hmore hperm
  · obtain ⟨hbeside, hsmall, -⟩ := h.room hr hreg hphase _ hidle.symm
    obtain ⟨f, a, hsettle⟩ := CfWorkerPool.settle_eq s.now r.dc (connected + 1)
      { s.pool with idle := idle }
    rw [hsettle] at hs
    have hsettled : Shape size { s with
        pool := { s.pool with refillFailures := f, refillAfter := a }
        dialled := s.dialled ++ [ws] } := h.of_eq rfl rfl rfl
    exact Option.some.inj hs ▸ hsettled.finish hr hbeside hsmall
  · obtain ⟨hbeside, hsmall, hget, hroom⟩ := h.room hr hreg hphase _ hidle.symm
    obtain ⟨u, havailable⟩ := CfWorkerPool.availableDomains_eq s.now r.workerDomains
      { s.pool with idle := idle }
    rw [havailable] at hs
    have hrest : Shape size { s with
        pool := { s.pool with unavailableUntil := u }
        dialled := s.dialled ++ [ws] } := h.of_eq rfl rfl rfl
    refine Option.some.inj hs ▸ hrest.dialOrSettle hr hbeside hsmall _ _ fun _ => ⟨hget, ?_⟩
    omega
  · have hrest : Shape size { s with
        dialled := s.dialled ++ [ws]
        closed := s.closed ++ [ws] } := h.of_eq rfl rfl rfl
    exact Option.some.inj hs ▸ hrest.update hr (beside_self t _) hrest.small rfl
      (fun hreg' => absurd hreg' hreg) (by rintro - ⟨⟩)

/-- A dial raises. -/
lemma dialRaised (h : Shape size s) (hr : s.tasks[t]? = some r)
    {bucket more connected : ℕ} {domain : δ} {rest : List δ}
    (hphase : r.phase = .dialling bucket more connected domain rest) (exc : Refusal) :
    Shape size ({ s with pool := (s.pool.reportFailure s.now domain exc).2 }.dialOrSettle t r
      bucket more connected rest) := by
  obtain ⟨u, f, hreport⟩ := CfWorkerPool.reportFailure_eq s.now domain exc s.pool
  rw [hreport]
  have hreported : Shape size { s with
      pool := { s.pool with unavailableUntil := u, failures := f } } := h.of_eq rfl rfl rfl
  refine hreported.dialOrSettle hr (beside_self t _) hreported.small _ _ fun hreg => ?_
  have hfits := (h.fits hr hreg).2
  rw [hphase] at hfits
  exact hfits

end Shape

/-! ## The connections -/

section Connections

variable {t : ℕ} {s s' : World δ}

/-- Where the connections are. -/
def World.account (s : World δ) : Account where
  dialled := s.dialled
  buckets := s.pool.idle.index.values.map fun b => (s.pool.idle.heap b).map Idle.ws
  held := []
  handed := s.handed
  closed := s.closed

/-- How often the connection `c` lies anywhere. -/
def World.tally (c : ℕ) (s : World δ) : ℕ :=
  s.pool.idle.contents.countP (fun e => e.ws == c) + s.handed.countP (· == c) +
    s.closed.countP (· == c)

/-- Every connection lies in one place, and there are no others. -/
structure World.Balanced (s : World δ) : Prop where
  nodup : s.dialled.Nodup
  tally : ∀ c, s.tally c = s.dialled.countP (· == c)

/-- Connections change places. -/
structure Moved (s s' : World δ) : Prop where
  dialled : s'.dialled = s.dialled
  closers : s'.closers = s.closers
  tally : ∀ c, s'.tally c = s.tally c

lemma World.Balanced.move (h : s.Balanced) (hs : Moved s s') : s'.Balanced :=
  ⟨hs.dialled ▸ h.nodup, fun c => by rw [hs.tally, h.tally, hs.dialled]⟩

namespace Moved

lemma refl (s : World δ) : Moved s s := ⟨rfl, rfl, fun _ => rfl⟩

lemma trans {u : World δ} (h : Moved s u) (h' : Moved u s') : Moved s s' :=
  ⟨h'.dialled.trans h.dialled, h'.closers.trans h.closers,
    fun c => (h'.tally c).trans (h.tally c)⟩

lemma of_eq (hidle : s'.pool.idle = s.pool.idle) (hdialled : s'.dialled = s.dialled)
    (hhanded : s'.handed = s.handed) (hclosed : s'.closed = s.closed)
    (hclosers : s'.closers = s.closers) : Moved s s' :=
  ⟨hdialled, hclosers, fun c => by unfold World.tally; rw [hidle, hhanded, hclosed]⟩

lemma setdefault (s : World δ) (dc : ℤ) :
    Moved s { s with pool := { s.pool with idle := (s.pool.idle.setdefault dc).2 } } :=
  ⟨rfl, rfl, fun c => by unfold World.tally; rw [Shelf.contents_setdefault]⟩

lemma finish (s : World δ) (t : ℕ) (r : Refill δ) : Moved s (s.finish t r) := by
  refine .of_eq ?_ rfl rfl rfl rfl
  show (s.pool.release r.dc t).idle = s.pool.idle
  unfold CfWorkerPool.release
  split_ifs <;> rfl

lemma dialOrSettle (s : World δ) (t : ℕ) (r : Refill δ) (bucket more connected : ℕ)
    (domains : List δ) : Moved s (s.dialOrSettle t r bucket more connected domains) := by
  cases domains with
  | cons domain rest => exact .of_eq rfl rfl rfl rfl rfl
  | nil =>
      obtain ⟨f, a, hsettle⟩ := CfWorkerPool.settle_eq s.now r.dc connected s.pool
      have hsettled : Moved s { s with pool := s.pool.settle s.now r.dc connected } := by
        rw [hsettle]
        exact .of_eq rfl rfl rfl rfl rfl
      exact hsettled.trans (.finish _ t r)

lemma scheduleRefill (s : World δ) (dc : ℤ) (workerDomains : List δ) :
    Moved s (s.scheduleRefill dc workerDomains) := by
  unfold World.scheduleRefill
  split_ifs
  · exact .refl s
  · exact .of_eq rfl rfl rfl rfl rfl

lemma warmup (s : World δ) (dcs : List ℤ) (workerDomains : List δ) :
    Moved s (dcs.foldl (fun s dc => s.scheduleRefill dc workerDomains) s) := by
  induction dcs generalizing s with
  | nil => exact .refl s
  | cons dc dcs ih => exact (scheduleRefill s dc workerDomains).trans (ih _)

/-- Connections leave a bucket, to be handed out or closed. -/
lemma drain (s : World δ) (dc : ℤ) (handed closed : List ℕ) {left : List (Idle δ)}
    (hsplit : closed ++ handed ++ left.map Idle.ws =
      ((s.pool.idle.setdefault dc).2.heap (s.pool.idle.setdefault dc).1).map Idle.ws) :
    Moved s { s with
      pool := { s.pool with
        idle := (s.pool.idle.setdefault dc).2.modify (s.pool.idle.setdefault dc).1 left }
      handed := s.handed ++ handed
      closed := s.closed ++ closed } := by
  refine ⟨rfl, rfl, fun c => ?_⟩
  have hget := Shelf.get?_setdefault_self s.pool.idle dc
  have hbucket := Shelf.countP_modify (s.pool.idle.setdefault dc).2
    (fun e : Idle δ => e.ws == c) (Shelf.mem_values_of_get? hget) left
  rw [Shelf.contents_setdefault] at hbucket
  have hcount := congrArg (List.countP (· == c)) hsplit
  rw [List.countP_append, List.countP_append, List.countP_map, List.countP_map] at hcount
  unfold World.tally
  rw [List.countP_append, List.countP_append]
  simp only [Function.comp_def] at hbucket hcount ⊢
  omega

lemma reset [DecidableEq δ] (s : World δ) : Moved s s.reset := by
  refine ⟨rfl, rfl, fun c => ?_⟩
  have hmap : s.pool.idle.contents.countP (fun e => e.ws == c) =
      (s.pool.idle.contents.map Idle.ws).countP (· == c) := by
    rw [List.countP_map]
    rfl
  unfold World.tally
  rw [hmap]
  simp only [World.reset, CfWorkerPool.clear, Shelf.contents_clear, List.countP_nil,
    List.countP_append]
  omega

end Moved

end Connections

/-! ## The steps of a refill -/

/-- What a step of task `t` can do. -/
inductive TaskStep [DecidableEq δ] (n t : ℕ) (r : Refill δ) (s : World δ) : World δ → Prop
  | stillborn (hphase : r.phase = .created) (hc : r.cancelled = true) :
      TaskStep n t r s (s.put t { r with phase := .done, cancelled := false })
  | begin (hphase : r.phase = .created) (hc : r.cancelled = false) {shuffled : List δ}
      {s' : World δ} (hs : s.begin n t r shuffled = some s') : TaskStep n t r s s'
  | returned {bucket more connected ws : ℕ} {domain : δ} {rest shuffled : List δ} {s' : World δ}
      (hphase : r.phase = .dialling bucket more connected domain rest) (hfresh : ws ∉ s.dialled)
      (hs : s.dialReturned t ws r bucket more connected domain shuffled = some s') :
      TaskStep n t r s s'
  | raised {bucket more connected : ℕ} {domain : δ} {rest : List δ} (exc : Refusal)
      (hphase : r.phase = .dialling bucket more connected domain rest) :
      TaskStep n t r s ({ s with pool := (s.pool.reportFailure s.now domain exc).2 }.dialOrSettle t
        r bucket more connected rest)
  | ended : TaskStep n t r s (s.finish t r)

section Steps

variable [DecidableEq δ] {n t : ℕ} {s s' : World δ} {r : Refill δ} {e : Event δ}

lemma taskStep_of_step (he : e.task = some t) (hs : World.step n e s = some s') :
    ∃ r, s.tasks[t]? = some r ∧ TaskStep n t r s s' := by
  cases e with
  | begin u shuffled =>
      obtain rfl := Option.some.inj he
      simp only [World.step] at hs
      split at hs
      · cases hs
      · next r hr =>
          refine ⟨r, hr, ?_⟩
          split at hs
          · next hphase =>
              split_ifs at hs with hc
              · exact Option.some.inj hs ▸ .stillborn hphase hc
              · exact .begin hphase (Bool.eq_false_iff.mpr hc) hs
          · cases hs
  | dialReturned u ws shuffled =>
      obtain rfl := Option.some.inj he
      simp only [World.step] at hs
      split at hs
      · cases hs
      · next r hr =>
          refine ⟨r, hr, ?_⟩
          split at hs
          · next hphase =>
              split_ifs at hs with hfresh
              exact .returned hphase hfresh hs
          · cases hs
  | dialRaised u exc =>
      obtain rfl := Option.some.inj he
      simp only [World.step] at hs
      split at hs
      · cases hs
      · next r hr =>
          refine ⟨r, hr, ?_⟩
          split at hs
          · next hphase => exact Option.some.inj hs ▸ .raised exc hphase
          · cases hs
  | dialCancelled u =>
      obtain rfl := Option.some.inj he
      simp only [World.step] at hs
      split at hs
      · cases hs
      · next r hr =>
          refine ⟨r, hr, ?_⟩
          split at hs
          · split_ifs at hs
            exact Option.some.inj hs ▸ .ended
          · cases hs
  | closed u =>
      obtain rfl := Option.some.inj he
      simp only [World.step] at hs
      split at hs
      · cases hs
      · next r hr =>
          refine ⟨r, hr, ?_⟩
          split at hs
          · exact Option.some.inj hs ▸ .ended
          · cases hs
  | _ => cases he

lemma Shape.task (h : Shape (min n perDcLimit) s) (hr : s.tasks[t]? = some r)
    (hs : TaskStep n t r s s') : Shape (min n perDcLimit) s' := by
  cases hs with
  | stillborn hphase hc =>
      refine h.update hr (beside_self t s) h.small rfl (fun hreg => ?_) fun _ => nofun
      rw [(h.fits hr hreg).1] at hc
      cases hc
  | begin hphase hc hs => exact h.begin hr hs
  | returned hphase hfresh hs => exact h.dialReturned hr hphase hs
  | raised exc hphase => exact h.dialRaised hr hphase exc
  | ended => exact h.finish hr (beside_self t s) h.small

lemma Moved.begin {shuffled : List δ} (hs : s.begin n t r shuffled = some s') : Moved s s' := by
  have hidle := Moved.setdefault s r.dc
  obtain ⟨u, havailable⟩ := CfWorkerPool.availableDomains_eq s.now r.workerDomains
    { s.pool with idle := (s.pool.idle.setdefault r.dc).2 }
  unfold World.begin at hs
  simp only [havailable] at hs
  have hrest : Moved s { s with pool := { s.pool with
      idle := (s.pool.idle.setdefault r.dc).2, unavailableUntil := u } } :=
    hidle.trans (.of_eq rfl rfl rfl rfl rfl)
  split_ifs at hs
  · exact Option.some.inj hs ▸ hidle.trans (.finish _ t r)
  · exact Option.some.inj hs ▸ hrest.trans (.finish _ t r)
  · exact Option.some.inj hs ▸ hrest.trans (.dialOrSettle _ t r _ _ _ _)

lemma Moved.get (s : World δ) (dc : ℤ) (workerDomains : List δ) (dead : List ℕ) :
    Moved s (s.get dc workerDomains dead) := by
  have hsplit := popFresh_eq s.now dead
    ((s.pool.idle.setdefault dc).2.heap (s.pool.idle.setdefault dc).1)
  unfold World.get
  simp only
  split
  · next e he =>
      rw [he] at hsplit
      have hdrain := Moved.drain s dc [e.ws] _ hsplit
      refine (hdrain.trans ?_).trans (.scheduleRefill _ _ _)
      exact .of_eq rfl rfl rfl rfl rfl
  · next he =>
      rw [he] at hsplit
      have hdrain := Moved.drain s dc [] _ hsplit
      rw [List.append_nil] at hdrain
      exact hdrain.trans (.scheduleRefill _ _ _)

/-- A dial adds the connection that it returns. -/
lemma World.Balanced.dialReturned (hb : s.Balanced) (h : Shape (min n perDcLimit) s)
    (hr : s.tasks[t]? = some r) {bucket more connected ws : ℕ} {domain : δ}
    {rest shuffled : List δ} (hphase : r.phase = .dialling bucket more connected domain rest)
    (hfresh : ws ∉ s.dialled)
    (hs : s.dialReturned t ws r bucket more connected domain shuffled = some s') :
    s'.Balanced := by
  have hnodup : (s.dialled ++ [ws]).Nodup := by
    refine List.nodup_append.mpr ⟨hb.nodup, List.nodup_singleton ws, ?_⟩
    rintro c hc _ hc' rfl
    exact hfresh (List.mem_singleton.mp hc' ▸ hc)
  unfold World.dialReturned at hs
  simp only at hs
  generalize hidle : s.pool.idle.modify bucket (s.pool.idle.heap bucket ++ [⟨ws, s.now, domain⟩]) =
    idle at hs
  have hadopted : s.pool.refilling.get? r.dc = some t → World.Balanced { s with
      pool := { s.pool with idle := idle }
      dialled := s.dialled ++ [ws] } := by
    intro hreg
    have hfits := (h.fits hr hreg).2
    rw [hphase] at hfits
    refine ⟨hnodup, fun c => ?_⟩
    have hbucket := Shelf.countP_modify s.pool.idle (fun e : Idle δ => e.ws == c)
      (Shelf.mem_values_of_get? hfits.1) (s.pool.idle.heap bucket ++ [⟨ws, s.now, domain⟩])
    rw [List.countP_append, List.countP_singleton, hidle] at hbucket
    have htally := hb.tally c
    unfold World.tally at htally ⊢
    simp only [List.countP_append, List.countP_singleton] at htally hbucket ⊢
    omega
  split_ifs at hs with hreg hmore hperm
  · have hsettled := (hadopted hreg).move (.dialOrSettle _ t r bucket more (connected + 1) [])
    exact Option.some.inj hs ▸ hsettled
  · obtain ⟨u, havailable⟩ := CfWorkerPool.availableDomains_eq s.now r.workerDomains
      { s.pool with idle := idle }
    rw [havailable] at hs
    have hmoved : Moved { s with
        pool := { s.pool with idle := idle }
        dialled := s.dialled ++ [ws] } { s with
        pool := { s.pool with idle := idle, unavailableUntil := u }
        dialled := s.dialled ++ [ws] } := .of_eq rfl rfl rfl rfl rfl
    exact Option.some.inj hs ▸ ((hadopted hreg).move hmoved).move (.dialOrSettle _ t r _ _ _ _)
  · refine Option.some.inj hs ▸ ⟨hnodup, fun c => ?_⟩
    have htally := hb.tally c
    unfold World.tally World.put at *
    simp only [List.countP_append] at htally ⊢
    omega

lemma World.Balanced.task (hb : s.Balanced) (h : Shape (min n perDcLimit) s)
    (hr : s.tasks[t]? = some r) (hs : TaskStep n t r s s') : s'.Balanced := by
  cases hs with
  | stillborn hphase hc => exact hb.move (.of_eq rfl rfl rfl rfl rfl)
  | begin hphase hc hs => exact hb.move (.begin hs)
  | returned hphase hfresh hs => exact hb.dialReturned h hr hphase hfresh hs
  | @raised bucket more connected domain rest exc hphase =>
      obtain ⟨u, f, hreport⟩ := CfWorkerPool.reportFailure_eq s.now domain exc s.pool
      have hreported : Moved s { s with
          pool := (s.pool.reportFailure s.now domain exc).2 } := by
        rw [hreport]
        exact .of_eq rfl rfl rfl rfl rfl
      exact hb.move (hreported.trans (.dialOrSettle _ t r _ _ _ _))
  | ended => exact hb.move (.finish s t r)

/-! ## Refills that are not registered -/

/-- The buckets and the registry stay. -/
def Keeps (s s' : World δ) : Prop :=
  s'.pool.idle = s.pool.idle ∧ s'.pool.refilling = s.pool.refilling

omit [DecidableEq δ] in
lemma Keeps.finish (hnot : s.pool.refilling.get? r.dc ≠ some t) : Keeps s (s.finish t r) := by
  have hrelease : s.pool.release r.dc t = s.pool := if_neg hnot
  unfold World.finish
  rw [hrelease]
  exact ⟨rfl, rfl⟩

omit [DecidableEq δ] in
lemma Keeps.dialOrSettle (hnot : s.pool.refilling.get? r.dc ≠ some t) (bucket more connected : ℕ)
    (domains : List δ) : Keeps s (s.dialOrSettle t r bucket more connected domains) := by
  cases domains with
  | cons domain rest => exact ⟨rfl, rfl⟩
  | nil =>
      obtain ⟨f, a, hsettle⟩ := CfWorkerPool.settle_eq s.now r.dc connected s.pool
      unfold World.dialOrSettle
      simp only [hsettle]
      exact Keeps.finish (s := { s with
        pool := { s.pool with refillFailures := f, refillAfter := a } }) hnot

/-- **An overtaken refill keeps out.**  The steps of a refill that is not registered leave the
buckets and the registry alone. -/
lemma Keeps.task (h : Shape (min n perDcLimit) s) (hr : s.tasks[t]? = some r)
    (hnot : s.pool.refilling.get? r.dc ≠ some t) (hs : TaskStep n t r s s') : Keeps s s' := by
  cases hs with
  | stillborn hphase hc => exact ⟨rfl, rfl⟩
  | begin hphase hc hs =>
      rw [h.tasks.loose t r hr hnot hphase] at hc
      cases hc
  | returned hphase hfresh hs =>
      unfold World.dialReturned at hs
      simp only [if_neg hnot] at hs
      exact Option.some.inj hs ▸ ⟨rfl, rfl⟩
  | @raised bucket more connected domain rest exc hphase =>
      obtain ⟨u, f, hreport⟩ := CfWorkerPool.reportFailure_eq s.now domain exc s.pool
      rw [hreport]
      exact Keeps.dialOrSettle (s := { s with
        pool := { s.pool with unavailableUntil := u, failures := f } }) hnot _ _ _ _
  | ended => exact Keeps.finish hnot

lemma closers_task (hs : TaskStep n t r s s') : s'.closers = s.closers := by
  cases hs with
  | stillborn hphase hc => rfl
  | begin hphase hc hs => exact (Moved.begin hs).closers
  | returned hphase hfresh hs =>
      unfold World.dialReturned at hs
      simp only at hs
      split_ifs at hs
      · exact Option.some.inj hs ▸ rfl
      · exact Option.some.inj hs ▸ (Moved.dialOrSettle _ t r _ _ _ _).closers
      · exact Option.some.inj hs ▸ rfl
  | raised exc hphase => exact (Moved.dialOrSettle _ t r _ _ _ _).closers
  | ended => rfl

/-! ## Runs -/

/-- The states of the runs of a pool. -/
def Reaches (poolSize : ℕ) (s : World δ) : Prop :=
  Reachable Starting (World.step poolSize) Always s

/-- Every call of `close()` that has been left alone has emptied the pool. -/
def Closers (s : World δ) : Prop :=
  ∀ c ∈ s.closers, c.quiet = true → s.pool.idle.contents = [] ∧ s.pool.refilling.values = []

/-- The shape of the tasks, the balance of the connections, and what `close()` leaves. -/
structure Sound (poolSize : ℕ) (s : World δ) : Prop where
  shape : Shape (min poolSize perDcLimit) s
  balanced : s.Balanced
  closers : Closers s

omit [DecidableEq δ] in
lemma Starting.sound (h : Starting s) (n : ℕ) : Sound n s := by
  obtain ⟨hpool, htasks, hclosers, hdialled, hhanded, hclosed⟩ := h
  refine ⟨⟨?_, ?_⟩, ⟨?_, ?_⟩, ?_⟩
  · rw [hpool, htasks]
    exact .nil
  · rw [hpool]
    exact nofun
  · rw [hdialled]
    exact List.nodup_nil
  · intro c
    simp [World.tally, hpool, hdialled, hhanded, hclosed, CfWorkerPool.new]
  · intro c hc
    rw [hclosers] at hc
    cases hc

omit [DecidableEq δ] in
lemma Sound.account (h : Sound n s) : s.account.Balanced (min n perDcLimit) := by
  refine Account.balanced_of_count h.balanced.nodup (fun c => ?_) fun b hb => ?_
  · have hflat : s.account.buckets.flatten = s.pool.idle.contents.map Idle.ws := by
      rw [Shelf.contents, List.map_flatMap, List.flatMap_def]
      rfl
    have htally := h.balanced.tally c
    rw [hflat, List.count, List.countP_map]
    exact htally
  · obtain ⟨d, hd, rfl⟩ := List.mem_map.mp hb
    obtain ⟨k, hk⟩ := Dict.mem_values.mp hd
    rw [List.length_map]
    exact h.shape.small k d hk

omit [DecidableEq δ] in
/-- Nothing that the account reads changes, but the breaker of the workers and the clock. -/
lemma Sound.of_eq (h : Sound n s) (hidle : s'.pool.idle = s.pool.idle)
    (hrefilling : s'.pool.refilling = s.pool.refilling) (htasks : s'.tasks = s.tasks)
    (hdialled : s'.dialled = s.dialled) (hhanded : s'.handed = s.handed)
    (hclosed : s'.closed = s.closed) (hclosers : s'.closers = s.closers) : Sound n s' := by
  refine ⟨h.shape.of_eq hidle hrefilling htasks,
    h.balanced.move (.of_eq hidle hdialled hhanded hclosed hclosers), ?_⟩
  unfold Closers
  rw [hclosers, hidle, hrefilling]
  exact h.closers

omit [DecidableEq δ] in
/-- A caller of the pool disturbs every call of `close()`. -/
lemma Closers.of_disturbed (h : s'.closers = s.disturb.closers) : Closers s' := by
  intro c hc hquiet
  rw [h] at hc
  obtain ⟨c', -, rfl⟩ := List.mem_map.mp hc
  cases hquiet

lemma Sound.task (h : Sound n s) (hr : s.tasks[t]? = some r) (hs : TaskStep n t r s s') :
    Sound n s' := by
  refine ⟨h.shape.task hr hs, h.balanced.task h.shape hr hs, fun c hc hquiet => ?_⟩
  obtain ⟨hcontents, hvalues⟩ := h.closers c (closers_task hs ▸ hc) hquiet
  have hnot : s.pool.refilling.get? r.dc ≠ some t := by
    intro hreg
    have hmem := Dict.mem_values.mpr ⟨r.dc, hreg⟩
    rw [hvalues] at hmem
    cases hmem
  obtain ⟨hidle, hrefilling⟩ := Keeps.task h.shape hr hnot hs
  rw [hidle, hrefilling]
  exact ⟨hcontents, hvalues⟩

lemma Sound.step (h : Sound n s) (hs : World.step n e s = some s') : Sound n s' := by
  cases htask : e.task with
  | some t =>
      obtain ⟨r, hr, hs⟩ := taskStep_of_step htask hs
      exact h.task hr hs
  | none =>
      cases e with
      | tick now =>
          simp only [World.step] at hs
          split_ifs at hs
          exact Option.some.inj hs ▸ h.of_eq rfl rfl rfl rfl rfl rfl rfl
      | get dc workerDomains dead =>
          have hshape : Shape (min n perDcLimit) s.disturb := h.shape.of_eq rfl rfl rfl
          have hb : s.disturb.Balanced := ⟨h.balanced.nodup, h.balanced.tally⟩
          have hmoved := Moved.get s.disturb dc workerDomains dead
          exact Option.some.inj hs ▸
            ⟨hshape.get _ _ _, hb.move hmoved, .of_disturbed hmoved.closers⟩
      | warmup dcs workerDomains =>
          have hshape : Shape (min n perDcLimit) s.disturb := h.shape.of_eq rfl rfl rfl
          have hb : s.disturb.Balanced := ⟨h.balanced.nodup, h.balanced.tally⟩
          have hmoved := Moved.warmup s.disturb dcs workerDomains
          exact Option.some.inj hs ▸
            ⟨hshape.warmup _ _, hb.move hmoved, .of_disturbed hmoved.closers⟩
      | reportSuccess workerDomain =>
          exact Option.some.inj hs ▸ h.of_eq rfl rfl rfl rfl rfl rfl rfl
      | reportFailure workerDomain exc =>
          obtain ⟨u, f, hreport⟩ :=
            CfWorkerPool.reportFailure_eq s.now workerDomain exc s.pool
          simp only [World.step, hreport] at hs
          exact Option.some.inj hs ▸ h.of_eq rfl rfl rfl rfl rfl rfl rfl
      | availableDomains workerDomains =>
          obtain ⟨u, havailable⟩ := CfWorkerPool.availableDomains_eq s.now workerDomains s.pool
          simp only [World.step, havailable] at hs
          exact Option.some.inj hs ▸ h.of_eq rfl rfl rfl rfl rfl rfl rfl
      | reset =>
          exact Option.some.inj hs ▸ ⟨h.shape.reset, h.balanced.move (.reset s),
            fun _ _ _ => ⟨rfl, rfl⟩⟩
      | closeBegin =>
          have hb := h.balanced.move (.reset s)
          exact Option.some.inj hs ▸ ⟨h.shape.reset.of_eq rfl rfl rfl, ⟨hb.nodup, hb.tally⟩,
            fun _ _ _ => ⟨rfl, rfl⟩⟩
      | closeEnd i =>
          simp only [World.step] at hs
          split at hs
          · cases hs
          · next closer hcloser =>
              split_ifs at hs
              refine Option.some.inj hs ▸ ⟨h.shape.of_eq rfl rfl rfl,
                ⟨h.balanced.nodup, h.balanced.tally⟩, fun c hc hquiet => ?_⟩
              rcases List.mem_or_eq_of_mem_set hc with hc | rfl
              · exact h.closers c hc hquiet
              · exact h.closers closer (List.mem_of_getElem? hcloser) hquiet
      | _ => cases htask

/-- The connections of a pool are accounted for in every run. -/
theorem Reaches.sound (h : Reaches n s) : Sound n s :=
  h.invariant (fun _ hstart => hstart.sound n) fun _ _ _ _ h _ hs => h.step hs

end Steps

end TgWsProxy.CfWorker
