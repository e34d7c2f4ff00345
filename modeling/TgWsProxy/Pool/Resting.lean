import TgWsProxy.Pool.Ladder
import TgWsProxy.Pool.Liveness

/-!
# Dials to resting workers

A fallback and a refill ask which workers are available once, and then dial them one after another.

* `Traffic`, `Traffic.step` — the pool with its refills, and the calls of
  `_cfproxy_worker_fallback`.
* `Starts` — a step starts a dial.
* `Clear` — no worker is reported that still stands in another line.
* `World.stepped`, `Lined.step` — what a step makes of the lines, and that nobody in a line rests.
* **`no_dial_to_resting`** — in runs that are clear, no dial goes to a resting worker.
* `dial_to_resting` — in others one does.
-/

namespace TgWsProxy.CfWorker

open Wire

variable {δ : Type*} [DecidableEq δ]

/-! ## The code -/

/-- The pool, and for every call of `_cfproxy_worker_fallback` the worker that it dials followed by
those that it will dial next; a call that has ended dials nobody. -/
structure Traffic (δ : Type*) where
  world : World δ
  fallbacks : List (List δ)

/-- What can happen next: a step of the pool, of its refills or of the clock, or one of a
fallback. -/
inductive Act (δ : Type*)
  | pool (e : Event δ)
  | fallback (dc : ℤ) (isTestDc : Bool) (workerDomains : List δ) (dead : List ℕ)
      (shuffled : List δ)
  | connected (i : ℕ)
  | refused (i : ℕ) (exc : Refusal)
  | cancelled (i : ℕ)
  deriving DecidableEq

/-- Steps of the pool that are not the work of its callers. -/
def Event.Internal : Event δ → Bool
  | .get _ _ _ => false
  | .reportSuccess _ => false
  | .reportFailure _ _ => false
  | .availableDomains _ => false
  | _ => true

namespace Traffic

/-- A fallback that finds no pooled connection, up to its first dial. -/
def tryWorkers (workerDomains shuffled : List δ) (s : Traffic δ) : Option (Traffic δ) :=
  let (available, pool) := s.world.pool.availableDomains s.world.now workerDomains
  if shuffled.Perm available then
    some ⟨{ s.world with pool }, s.fallbacks ++ [shuffled]⟩
  else none

/-- One step. -/
def step (poolSize : ℕ) : Act δ → Traffic δ → Option (Traffic δ)
  | .pool e, s =>
      if e.Internal then (s.world.step poolSize e).map fun world => { s with world } else none
  | .fallback dc isTestDc workerDomains dead shuffled, s =>
      if workerDomains = [] then some s
      else if isTestDc then s.tryWorkers workerDomains shuffled
      else
        match (popFresh s.world.now dead (s.world.bucket dc)).2.1 with
        | some _ =>
            some ⟨s.world.disturb.get dc workerDomains dead, s.fallbacks ++ [[]]⟩
        | none =>
            { s with world := s.world.disturb.get dc workerDomains dead }.tryWorkers workerDomains
              shuffled
  | .connected i, s =>
      match s.fallbacks[i]? with
      | some (domain :: _) =>
          some ⟨{ s.world with pool := s.world.pool.reportSuccess domain }, s.fallbacks.set i []⟩
      | _ => none
  | .refused i exc, s =>
      match s.fallbacks[i]? with
      | some (domain :: rest) =>
          some ⟨{ s.world with pool := (s.world.pool.reportFailure s.world.now domain exc).2 },
            s.fallbacks.set i rest⟩
      | _ => none
  | .cancelled i, s =>
      match s.fallbacks[i]? with
      | some (_ :: _) => some { s with fallbacks := s.fallbacks.set i [] }
      | _ => none

/-- A new pool.  The monotonic clock is not negative. -/
def Starting (s : Traffic δ) : Prop :=
  CfWorker.Starting s.world ∧ 0 ≤ s.world.now ∧ s.fallbacks = []

end Traffic

/-! ## Lines -/

/-- The worker that a refill dials, and those that it will dial next. -/
def Phase.line : Phase δ → List δ
  | .dialling _ _ _ domain rest => domain :: rest
  | _ => []

/-- A step of the pool starts a dial of a refill to `d`. -/
def World.Starts (s s' : World δ) (d : δ) : Prop :=
  ∃ (t : ℕ) (r : Refill δ), s'.tasks[t]? = some r ∧ r.phase.line.head? = some d ∧
    (s.tasks[t]?).map Refill.phase ≠ some r.phase

/-- A step starts a dial to `d`. -/
def Traffic.Starts (s s' : Traffic δ) (d : δ) : Prop :=
  s.world.Starts s'.world d ∨ ∃ (i : ℕ) (line : List δ),
    s'.fallbacks[i]? = some line ∧ line.head? = some d ∧ s.fallbacks[i]? ≠ some line

/-- `d` stands in line at a refill other than `t`. -/
def World.Awaited (t : Option ℕ) (d : δ) (s : World δ) : Prop :=
  ∃ (u : ℕ) (r : Refill δ), s.tasks[u]? = some r ∧ some u ≠ t ∧ d ∈ r.phase.line.tail

/-- `d` stands in line at a refill other than `t` or a fallback other than `i`. -/
def Traffic.Awaited (t i : Option ℕ) (d : δ) (s : Traffic δ) : Prop :=
  s.world.Awaited t d ∨ ∃ (j : ℕ) (line : List δ), s.fallbacks[j]? = some line ∧ some j ≠ i ∧
    d ∈ line.tail

/-- **No worker is reported that still stands in another line.** -/
def Traffic.Clear (s : Traffic δ) : Act δ → Prop
  | .pool (.dialRaised t _) =>
      ∀ r d, s.world.tasks[t]? = some r → r.phase.line.head? = some d → ¬ s.Awaited (some t) none d
  | .refused i _ =>
      ∀ line d, s.fallbacks[i]? = some line → line.head? = some d → ¬ s.Awaited none (some i) d
  | _ => True

/-! ## Deadlines -/

namespace CfWorkerPool

/-- No deadline is moved, unless it is forgotten. -/
def Eases (p p' : CfWorkerPool δ) : Prop :=
  ∀ d, p'.restsUntil d = p.restsUntil d ∨ p'.restsUntil d = 0

lemma Eases.refl (p : CfWorkerPool δ) : p.Eases p := fun _ => .inl rfl

lemma Eases.of_eq {p p' : CfWorkerPool δ} (h : p'.unavailableUntil = p.unavailableUntil) :
    p.Eases p' := fun d => .inl (by rw [restsUntil, restsUntil, h])

lemma Eases.trans {p p' p'' : CfWorkerPool δ} (h : p.Eases p') (h' : p'.Eases p'') :
    p.Eases p'' := fun d => (h' d).elim (fun he => (h d).imp he.trans he.trans) .inr

lemma Eases.le {p p' : CfWorkerPool δ} (h : p.Eases p') {now now' : ℚ} (hnow : now ≤ now')
    (hpos : 0 ≤ now) {d : δ} (hd : p.restsUntil d ≤ now) : p'.restsUntil d ≤ now' := by
  rcases h d with he | he
  · exact he ▸ hd.trans hnow
  · exact he ▸ hpos.trans hnow

lemma eases_reportSuccess (p : CfWorkerPool δ) (e : δ) : p.Eases (p.reportSuccess e) := by
  intro d
  have h := p.restsUntil_erase e d
  show ((p.unavailableUntil.erase e).get? d).getD 0 = _ ∨
      ((p.unavailableUntil.erase e).get? d).getD 0 = 0
  rw [restsUntil] at h
  rw [h]
  split_ifs
  · exact .inr rfl
  · exact .inl rfl

lemma eases_availableDomains (now : ℚ) (ds : List δ) (p : CfWorkerPool δ) :
    p.Eases (p.availableDomains now ds).2 :=
  (availableTurn_foldl now ds [] p List.nodup_nil).2.2

/-- A report moves the deadline of its own worker at most. -/
lemma restsUntil_reportFailure {p : CfWorkerPool δ} {now : ℚ} {e d : δ} (h : d ≠ e)
    (exc : Refusal) : (p.reportFailure now e exc).2.restsUntil d = p.restsUntil d := by
  rcases p.refusal_cases now e exc with rfl | ⟨rfl, hresting⟩ | hclimbs
  · rw [p.reportFailure_localAbort]
    rw [restsUntil, Dict.get?_set_of_ne _ h]
    rfl
  · rw [reportFailure_resting hresting]
  · obtain ⟨cooldown, hreport, -⟩ := reportFailure_climbs hclimbs
    rw [hreport]
    rw [restsUntil, Dict.get?_set_of_ne _ h]
    rfl

/-- Who is available behind `available_domains` is not resting. -/
lemma available_awake {p : CfWorkerPool δ} {now : ℚ} (hpos : 0 ≤ now) {ds shuffled : List δ}
    (h : shuffled.Perm (p.availableDomains now ds).1) :
    shuffled.Nodup ∧ ∀ d ∈ shuffled, (p.availableDomains now ds).2.restsUntil d ≤ now := by
  obtain ⟨hnodup, hmem, -⟩ := availableTurn_foldl now ds [] p List.nodup_nil
  refine ⟨h.nodup_iff.mpr hnodup, fun d hd => ?_⟩
  have hd := (hmem d).mp (h.mem_iff.mp hd)
  exact (p.eases_availableDomains now ds).le le_rfl hpos (hd.resolve_left List.not_mem_nil).2

end CfWorkerPool

/-! ## Steps -/

/-- Nobody in the line appears twice or rests behind its head. -/
structure InLine (p : CfWorkerPool δ) (now : ℚ) (line : List δ) : Prop where
  nodup : line.Nodup
  awake : ∀ d ∈ line.tail, p.restsUntil d ≤ now

/-- What a step makes of a line: a new one, of workers that are not resting; or the next worker of
the old one is dialled, or none. -/
inductive Advanced (p : CfWorkerPool δ) (now : ℚ) (old new : List δ) : Prop
  | fresh (hnodup : new.Nodup) (hawake : ∀ d ∈ new, p.restsUntil d ≤ now)
  | next (h : new = old.tail)

lemma Advanced.gone {p : CfWorkerPool δ} {now : ℚ} {old : List δ} : Advanced p now old [] :=
  .fresh List.nodup_nil fun _ h => absurd h List.not_mem_nil

lemma InLine.nil {p : CfWorkerPool δ} {now : ℚ} : InLine p now ([] : List δ) :=
  ⟨List.nodup_nil, fun _ h => absurd h List.not_mem_nil⟩

/-- A dial that starts goes to a worker that is not resting, and the line stays in order. -/
lemma InLine.moved {p p' : CfWorkerPool δ} {now now' : ℚ} {old new : List δ} (h : InLine p now old)
    (hkeeps : ∀ d ∈ old.tail, p.restsUntil d ≤ now → p'.restsUntil d ≤ now')
    (hadvanced : Advanced p' now' old new) :
    InLine p' now' new ∧ ∀ d ∈ new, p'.restsUntil d ≤ now' := by
  cases hadvanced with
  | fresh hnodup hawake => exact ⟨⟨hnodup, fun d hd => hawake d (List.mem_of_mem_tail hd)⟩, hawake⟩
  | next hnew =>
      subst hnew
      have hawake : ∀ d ∈ old.tail, p'.restsUntil d ≤ now' := fun d hd =>
        hkeeps d hd (h.awake d hd)
      exact ⟨⟨h.nodup.sublist (List.tail_sublist old),
        fun d hd => hawake d (List.mem_of_mem_tail hd)⟩, hawake⟩

/-- What a step of the pool does: the clock goes on; no deadline moves but that of the worker `e`
that is reported; and every refill is where it was, or its line has moved. -/
structure Stepped (e : Option δ) (s s' : World δ) : Prop where
  now : s.now ≤ s'.now
  eases : ∀ d, some d ≠ e →
    s'.pool.restsUntil d = s.pool.restsUntil d ∨ s'.pool.restsUntil d = 0
  tasks : ∀ (t : ℕ) (r' : Refill δ), s'.tasks[t]? = some r' →
    (s.tasks[t]?).map Refill.phase = some r'.phase ∨
      Advanced s'.pool s'.now ((s.tasks[t]?).elim [] fun r => r.phase.line) r'.phase.line

namespace Stepped

variable {e : Option δ} {s s' s'' : World δ}

lemma of_eases (hnow : s'.now = s.now) (hpool : s.pool.Eases s'.pool)
    (htasks : s'.tasks = s.tasks) : Stepped none s s' :=
  ⟨hnow.ge, fun d _ => hpool d, fun t r' hr' => .inl (by rw [← htasks, hr']; rfl)⟩

/-- Behind a step that moves no line a task moves. -/
lemma put (h : Stepped e s s') (htasks : s'.tasks = s.tasks) {t : ℕ} {r q : Refill δ}
    (hr : s.tasks[t]? = some r)
    (hq : q.phase = r.phase ∨ Advanced s'.pool s'.now r.phase.line q.phase.line) :
    Stepped e s (s'.put t q) := by
  refine ⟨h.now, h.eases, fun u q' hq' => ?_⟩
  simp only [World.put, htasks] at hq'
  by_cases hut : t = u
  · subst hut
    rw [List.getElem?_set_self (List.getElem?_eq_some_iff.mp hr).1] at hq'
    obtain rfl := Option.some.inj hq'
    rw [hr]
    exact hq.imp (fun he => congrArg some he.symm) id
  · rw [List.getElem?_set_ne hut] at hq'
    exact .inl (by rw [hq']; rfl)

/-- The maps of the refills are not read. -/
lemma pool (h : Stepped e s s') {p : CfWorkerPool δ}
    (hp : p.unavailableUntil = s'.pool.unavailableUntil) : Stepped e s { s' with pool := p } := by
  have hrests : ∀ d, p.restsUntil d = s'.pool.restsUntil d := fun d => by
    rw [CfWorkerPool.restsUntil, hp]
    rfl
  refine ⟨h.now, fun d hd => (h.eases d hd).imp (hrests d).trans (hrests d).trans,
    fun t r' hr' => (h.tasks t r' hr').imp id fun hm => ?_⟩
  cases hm with
  | fresh hnodup hawake => exact .fresh hnodup fun d hd => (hrests d).trans_le (hawake d hd)
  | next hnew => exact .next hnew

/-- A new task has no line. -/
lemma scheduleRefill (h : Stepped e s s') (dc : ℤ) (workerDomains : List δ) :
    Stepped e s (s'.scheduleRefill dc workerDomains) := by
  rw [World.scheduleRefill]
  split_ifs
  · exact h
  · refine ⟨h.now, h.eases, fun t r' hr' => ?_⟩
    rcases getElem?_concat.mp hr' with hr' | ⟨-, rfl⟩
    · have hadvanced := h.tasks t r' hr'
      exact hadvanced.imp id fun hm => by
        cases hm with
        | fresh hnodup hawake => exact .fresh hnodup hawake
        | next hnew => exact .next hnew
    · exact .inr .gone

lemma finish (h : Stepped e s s') (htasks : s'.tasks = s.tasks) {t : ℕ} {r : Refill δ}
    (hr : s.tasks[t]? = some r) : Stepped e s (s'.finish t r) := by
  have hrelease : (s'.pool.release r.dc t).unavailableUntil = s'.pool.unavailableUntil := by
    rw [CfWorkerPool.release]
    split_ifs <;> rfl
  exact (h.pool hrelease).put htasks hr (.inr .gone)

lemma dialOrSettle (h : Stepped e s s') (htasks : s'.tasks = s.tasks) {t : ℕ} {r : Refill δ}
    (hr : s.tasks[t]? = some r) (bucket more connected : ℕ) {domains : List δ}
    (hadvanced : Advanced s'.pool s'.now r.phase.line domains) :
    Stepped e s (s'.dialOrSettle t r bucket more connected domains) := by
  cases domains with
  | cons domain rest => exact h.put htasks hr (.inr hadvanced)
  | nil =>
      obtain ⟨f, a, hsettle⟩ := CfWorkerPool.settle_eq s'.now r.dc connected s'.pool
      have hpool := h.pool (p := s'.pool.settle s'.now r.dc connected) (by rw [hsettle])
      exact hpool.finish htasks hr

end Stepped

namespace World

variable {s s' : World δ} {t : ℕ} {r : Refill δ}

lemma stepped_get (dc : ℤ) (workerDomains : List δ) (dead : List ℕ) (s : World δ) :
    Stepped none s (s.disturb.get dc workerDomains dead) := by
  rw [get]
  simp only
  split
  · next d hfound =>
      refine Stepped.scheduleRefill ?_ dc workerDomains
      refine .of_eases rfl ?_ rfl
      have hidle := s.pool.eases_reportSuccess d.workerDomain
      exact fun e => hidle e
  · refine Stepped.scheduleRefill ?_ dc workerDomains
    exact .of_eases rfl (.of_eq rfl) rfl

lemma stepped_begin {poolSize : ℕ} {shuffled : List δ} (hpos : 0 ≤ s.now)
    (hr : s.tasks[t]? = some r) (hs : s.begin poolSize t r shuffled = some s') :
    Stepped none s s' := by
  have hidle : Stepped none s
      { s with pool := { s.pool with idle := (s.pool.idle.setdefault r.dc).2 } } :=
    .of_eases rfl (.of_eq rfl) rfl
  rw [begin] at hs
  simp only at hs
  split_ifs at hs with hneeded hnone hperm
  · obtain rfl := Option.some.inj hs
    exact hidle.finish rfl hr
  all_goals
    obtain rfl := Option.some.inj hs
    have havailable : Stepped none s { s with
        pool := ({ s.pool with idle := (s.pool.idle.setdefault r.dc).2 } :
          CfWorkerPool δ).availableDomains s.now r.workerDomains |>.2 } :=
      .of_eases rfl (CfWorkerPool.eases_availableDomains s.now r.workerDomains
        { s.pool with idle := (s.pool.idle.setdefault r.dc).2 }) rfl
  · exact havailable.finish rfl hr
  · obtain ⟨hnodup, hawake⟩ := CfWorkerPool.available_awake hpos hperm
    exact havailable.dialOrSettle rfl hr _ _ _ (.fresh hnodup hawake)

lemma stepped_dialReturned {ws bucket more connected : ℕ} {domain : δ} {shuffled : List δ}
    (hpos : 0 ≤ s.now) (hr : s.tasks[t]? = some r)
    (hs : s.dialReturned t ws r bucket more connected domain shuffled = some s') :
    Stepped none s s' := by
  rw [dialReturned] at hs
  simp only at hs
  split_ifs at hs with hregistered hmore hperm
  · obtain rfl := Option.some.inj hs
    obtain ⟨f, a, hsettle⟩ := CfWorkerPool.settle_eq s.now r.dc (connected + 1)
      { s.pool with
        idle := s.pool.idle.modify bucket (s.pool.idle.heap bucket ++ [⟨ws, s.now, domain⟩]) }
    rw [hsettle]
    refine Stepped.finish ?_ ?_ hr
    · exact .of_eases rfl (.of_eq rfl) rfl
    · rfl
  · obtain rfl := Option.some.inj hs
    obtain ⟨hnodup, hawake⟩ := CfWorkerPool.available_awake hpos hperm
    have havailable : Stepped none s { s with
        dialled := s.dialled ++ [ws]
        pool := ({ s.pool with
          idle := s.pool.idle.modify bucket (s.pool.idle.heap bucket ++ [⟨ws, s.now, domain⟩]) } :
          CfWorkerPool δ).availableDomains s.now r.workerDomains |>.2 } :=
      .of_eases rfl (CfWorkerPool.eases_availableDomains s.now r.workerDomains
        { s.pool with
          idle := s.pool.idle.modify bucket (s.pool.idle.heap bucket ++ [⟨ws, s.now, domain⟩]) })
        rfl
    exact havailable.dialOrSettle rfl hr _ _ _ (.fresh hnodup hawake)
  · obtain rfl := Option.some.inj hs
    refine Stepped.put ?_ ?_ hr (.inr ?_)
    · exact .of_eases rfl (.refl _) rfl
    · rfl
    · exact .gone

lemma stepped_reset (s : World δ) : Stepped none s s.reset := by
  refine ⟨le_rfl, fun d _ => .inr rfl, fun t r' hr' => .inl ?_⟩
  simp only [reset, List.getElem?_mapIdx] at hr'
  obtain ⟨r, hr, rfl⟩ := Option.map_eq_some_iff.mp hr'
  rw [hr]
  simp only [Option.map_some]
  split_ifs <;> rfl

/-- **What a step of the pool does to the lines.** -/
theorem stepped {poolSize : ℕ} {e : Event δ} (hpos : 0 ≤ s.now) (he : e.Internal = true)
    (hs : s.step poolSize e = some s') :
    Stepped none s s' ∨ ∃ t exc r d, e = .dialRaised t exc ∧ s.tasks[t]? = some r ∧
      r.phase.line.head? = some d ∧ Stepped (some d) s s' := by
  cases e with
  | tick u =>
      rw [step] at hs
      split_ifs at hs with hu
      obtain rfl := Option.some.inj hs
      exact .inl ⟨hu, fun d _ => .inl rfl, fun t r' hr' => .inl (congrArg _ hr')⟩
  | get dc workerDomains dead => cases he
  | warmup dcs workerDomains =>
      obtain rfl := Option.some.inj hs
      have hfold : ∀ (dcs : List ℤ) {w : World δ}, Stepped none s w →
          Stepped none s (dcs.foldl (fun s dc => s.scheduleRefill dc workerDomains) w) := by
        intro dcs
        induction dcs with
        | nil => exact fun h => h
        | cons dc dcs ih => exact fun h => ih (h.scheduleRefill dc workerDomains)
      exact .inl (hfold dcs (.of_eases rfl (.refl _) rfl))
  | reportSuccess workerDomain => cases he
  | reportFailure workerDomain exc => cases he
  | availableDomains workerDomains => cases he
  | begin t shuffled =>
      rw [step] at hs
      split at hs
      · cases hs
      · next r hr =>
          split at hs
          · split_ifs at hs
            · obtain rfl := Option.some.inj hs
              exact .inl (Stepped.put (.of_eases rfl (.refl _) rfl) rfl hr (.inr .gone))
            · exact .inl (stepped_begin hpos hr hs)
          · cases hs
  | dialReturned t ws shuffled =>
      rw [step] at hs
      split at hs
      · cases hs
      · next r hr =>
          split at hs
          · split_ifs at hs
            exact .inl (stepped_dialReturned hpos hr hs)
          · cases hs
  | dialRaised t exc =>
      rw [step] at hs
      split at hs
      · cases hs
      · next r hr =>
          split at hs
          · next bucket more connected domain rest hphase =>
              obtain rfl := Option.some.inj hs
              refine .inr ⟨t, exc, r, domain, rfl, hr, by rw [hphase]; rfl, ?_⟩
              have hreport : Stepped (some domain) s
                  { s with pool := (s.pool.reportFailure s.now domain exc).2 } :=
                ⟨le_rfl, fun d hd => .inl (CfWorkerPool.restsUntil_reportFailure
                  (fun h => hd (congrArg some h)) exc), fun u q hq => .inl (congrArg _ hq)⟩
              exact hreport.dialOrSettle rfl hr _ _ _ (.next (by rw [hphase]; rfl))
          · cases hs
  | dialCancelled t =>
      rw [step] at hs
      split at hs
      · cases hs
      · next r hr =>
          split at hs
          · split_ifs at hs
            obtain rfl := Option.some.inj hs
            exact .inl (Stepped.finish (.of_eases rfl (.refl _) rfl) rfl hr)
          · cases hs
  | closed t =>
      rw [step] at hs
      split at hs
      · cases hs
      · next r hr =>
          split at hs
          · obtain rfl := Option.some.inj hs
            exact .inl (Stepped.finish (.of_eases rfl (.refl _) rfl) rfl hr)
          · cases hs
  | reset =>
      obtain rfl := Option.some.inj hs
      exact .inl s.stepped_reset
  | closeBegin =>
      obtain rfl := Option.some.inj hs
      have hreset := s.stepped_reset
      exact .inl ⟨hreset.now, hreset.eases, hreset.tasks⟩
  | closeEnd c =>
      rw [step] at hs
      split at hs
      · cases hs
      · split_ifs at hs
        obtain rfl := Option.some.inj hs
        exact .inl (.of_eases rfl (.refl _) rfl)

end World

/-! ## Runs -/

/-- Nobody who stands in a line rests. -/
structure Lined (s : Traffic δ) : Prop where
  clock : 0 ≤ s.world.now
  refills : ∀ (t : ℕ) (r : Refill δ), s.world.tasks[t]? = some r →
    InLine s.world.pool s.world.now r.phase.line
  fallbacks : ∀ (i : ℕ) (line : List δ), s.fallbacks[i]? = some line →
    InLine s.world.pool s.world.now line

omit [DecidableEq δ] in
/-- The next worker of a line is not the one that is reported. -/
lemma ne_of_mem_tail {line : List δ} {d e : δ} (hnodup : line.Nodup) (hhead : line.head? = some e)
    (hd : d ∈ line.tail) : d ≠ e := by
  cases line with
  | nil => cases hhead
  | cons e' rest =>
      obtain rfl := Option.some.inj hhead
      rintro rfl
      exact (List.nodup_cons.mp hnodup).1 hd

namespace Lined

variable {s s' : Traffic δ} {e : Option δ}

/-- **One step.**  A step of the pool and a move of the fallbacks leave the lines in order, and a
dial that starts goes to a worker that is not resting, as long as the reported worker stands in
no line behind its head. -/
lemma move (h : Lined s) (hstep : Stepped e s.world s'.world)
    (hfallbacks : ∀ (i : ℕ) (line' : List δ), s'.fallbacks[i]? = some line' →
      s.fallbacks[i]? = some line' ∨
        Advanced s'.world.pool s'.world.now ((s.fallbacks[i]?).getD []) line')
    (hrefill : ∀ (t : ℕ) (r : Refill δ), s.world.tasks[t]? = some r →
      ∀ d ∈ r.phase.line.tail, some d ≠ e)
    (hfallback : ∀ (i : ℕ) (line : List δ), s.fallbacks[i]? = some line →
      ∀ d ∈ line.tail, some d ≠ e) :
    Lined s' ∧ ∀ d, s.Starts s' d → s'.world.pool.restsUntil d ≤ s'.world.now := by
  have hkeeps : ∀ d, some d ≠ e → s.world.pool.restsUntil d ≤ s.world.now →
      s'.world.pool.restsUntil d ≤ s'.world.now := by
    intro d hd hle
    rcases hstep.eases d hd with he | he
    · exact he ▸ hle.trans hstep.now
    · exact he ▸ h.clock.trans hstep.now
  have hrefills : ∀ (t : ℕ) (r' : Refill δ), s'.world.tasks[t]? = some r' →
      InLine s'.world.pool s'.world.now r'.phase.line ∧
        ((s.world.tasks[t]?).map Refill.phase = some r'.phase ∨
          ∀ d ∈ r'.phase.line, s'.world.pool.restsUntil d ≤ s'.world.now) := by
    intro t r' hr'
    rcases hstep.tasks t r' hr' with hsame | hadvanced
    · obtain ⟨r, hr, hphase⟩ := Option.map_eq_some_iff.mp hsame
      have hline := h.refills t r hr
      rw [hphase] at hline
      refine ⟨⟨hline.nodup, fun d hd => ?_⟩, .inl hsame⟩
      exact hkeeps d (hrefill t r hr d (hphase ▸ hd)) (hline.awake d hd)
    · have hold : InLine s.world.pool s.world.now
          ((s.world.tasks[t]?).elim [] fun r => r.phase.line) ∧
          ∀ d ∈ ((s.world.tasks[t]?).elim [] fun r => r.phase.line).tail, some d ≠ e := by
        cases hr : s.world.tasks[t]? with
        | none => exact ⟨.nil, fun _ hd => absurd hd List.not_mem_nil⟩
        | some r => exact ⟨h.refills t r hr, hrefill t r hr⟩
      obtain ⟨hline, hawake⟩ := hold.1.moved (fun d hd => hkeeps d (hold.2 d hd)) hadvanced
      exact ⟨hline, .inr hawake⟩
  have hlines : ∀ (i : ℕ) (line' : List δ), s'.fallbacks[i]? = some line' →
      InLine s'.world.pool s'.world.now line' ∧
        (s.fallbacks[i]? = some line' ∨
          ∀ d ∈ line', s'.world.pool.restsUntil d ≤ s'.world.now) := by
    intro i line' hline'
    rcases hfallbacks i line' hline' with hsame | hadvanced
    · have hline := h.fallbacks i line' hsame
      refine ⟨⟨hline.nodup, fun d hd => ?_⟩, .inl hsame⟩
      exact hkeeps d (hfallback i line' hsame d hd) (hline.awake d hd)
    · have hold : InLine s.world.pool s.world.now ((s.fallbacks[i]?).getD []) ∧
          ∀ d ∈ ((s.fallbacks[i]?).getD []).tail, some d ≠ e := by
        cases hl : s.fallbacks[i]? with
        | none => exact ⟨.nil, fun _ hd => absurd hd List.not_mem_nil⟩
        | some line => exact ⟨h.fallbacks i line hl, hfallback i line hl⟩
      obtain ⟨hline, hawake⟩ := hold.1.moved (fun d hd => hkeeps d (hold.2 d hd)) hadvanced
      exact ⟨hline, .inr hawake⟩
  refine ⟨⟨h.clock.trans hstep.now, fun t r hr => (hrefills t r hr).1,
    fun i line hline => (hlines i line hline).1⟩, ?_⟩
  rintro d (⟨t, r', hr', hhead, hnew⟩ | ⟨i, line', hline', hhead, hnew⟩)
  · exact ((hrefills t r' hr').2.resolve_left hnew) d (List.mem_of_mem_head? hhead)
  · exact ((hlines i line' hline').2.resolve_left hnew) d (List.mem_of_mem_head? hhead)

/-- A fallback that looks for an available worker takes its place. -/
lemma tryWorkers {w : Traffic δ} {workerDomains shuffled : List δ} (h : Lined s)
    (hstep : Stepped none s.world w.world) (hfallbacks : w.fallbacks = s.fallbacks)
    (hs : w.tryWorkers workerDomains shuffled = some s') :
    Lined s' ∧ ∀ d, s.Starts s' d → s'.world.pool.restsUntil d ≤ s'.world.now := by
  rw [Traffic.tryWorkers] at hs
  simp only at hs
  split_ifs at hs with hperm
  obtain rfl := Option.some.inj hs
  have hpos : 0 ≤ w.world.now := h.clock.trans hstep.now
  obtain ⟨hnodup, hawake⟩ := CfWorkerPool.available_awake hpos hperm
  have heases := w.world.pool.eases_availableDomains w.world.now workerDomains
  refine h.move (e := none) ⟨hstep.now, fun d hd => ?_, fun t r' hr' => ?_⟩ (fun i line hline => ?_)
    (fun _ _ _ _ _ => nofun) fun _ _ _ _ _ => nofun
  · exact (heases d).elim (fun he => (hstep.eases d hd).imp he.trans he.trans) .inr
  · refine (hstep.tasks t r' hr').imp id fun hadvanced => ?_
    cases hadvanced with
    | fresh hnodup hawake => exact .fresh hnodup fun d hd => heases.le le_rfl hpos (hawake d hd)
    | next hnew => exact .next hnew
  · simp only [hfallbacks] at hline
    rcases getElem?_concat.mp hline with hline | ⟨-, rfl⟩
    · exact .inl hline
    · exact .inr (.fresh hnodup hawake)

/-- **One step.** -/
lemma step (h : Lined s) {poolSize : ℕ} {a : Act δ} (hclear : s.Clear a)
    (hs : Traffic.step poolSize a s = some s') :
    Lined s' ∧ ∀ d, s.Starts s' d → s'.world.pool.restsUntil d ≤ s'.world.now := by
  have hstay : ∀ {l : List (List δ)}, s.fallbacks = l → ∀ (i : ℕ) (line' : List δ),
      l[i]? = some line' → s.fallbacks[i]? = some line' ∨
        Advanced s'.world.pool s'.world.now ((s.fallbacks[i]?).getD []) line' :=
    fun hl i line' hline' => .inl (hl ▸ hline')
  have hset : ∀ {i : ℕ} {line : List δ}, s.fallbacks[i]? = some line → ∀ {new : List δ},
      Advanced s'.world.pool s'.world.now line new → s'.fallbacks = s.fallbacks.set i new →
      ∀ (j : ℕ) (line' : List δ), s'.fallbacks[j]? = some line' → s.fallbacks[j]? = some line' ∨
        Advanced s'.world.pool s'.world.now ((s.fallbacks[j]?).getD []) line' := by
    intro i line hline new hnew hl j line' hline'
    rw [hl] at hline'
    by_cases hij : i = j
    · subst hij
      rw [List.getElem?_set_self (List.getElem?_eq_some_iff.mp hline).1] at hline'
      obtain rfl := Option.some.inj hline'
      rw [hline]
      exact .inr hnew
    · rw [List.getElem?_set_ne hij] at hline'
      exact .inl hline'
  cases a with
  | pool e =>
      rw [Traffic.step] at hs
      split_ifs at hs with he
      obtain ⟨world, hworld, rfl⟩ := Option.map_eq_some_iff.mp hs
      rcases World.stepped h.clock he hworld with hstep | ⟨t, exc, r, d, rfl, hr, hhead, hstep⟩
      · exact h.move hstep (hstay rfl) (fun _ _ _ _ _ => nofun) fun _ _ _ _ _ => nofun
      · -- The reported worker stands in no other line, and not behind itself in its own.
        have hnot := hclear r d hr hhead
        refine h.move hstep (hstay rfl) (fun u q hq d' hd' => ?_) fun i line hline d' hd' => ?_
        · rintro heq
          obtain rfl := Option.some.inj heq
          by_cases hut : u = t
          · subst hut
            obtain rfl := Option.some.inj (hr.symm.trans hq)
            exact ne_of_mem_tail (h.refills u r hr).nodup hhead hd' rfl
          · exact hnot (.inl ⟨u, q, hq, fun hu => hut (Option.some.inj hu), hd'⟩)
        · rintro heq
          obtain rfl := Option.some.inj heq
          exact hnot (.inr ⟨i, line, hline, nofun, hd'⟩)
  | fallback dc isTestDc workerDomains dead shuffled =>
      rw [Traffic.step] at hs
      have hget := World.stepped_get dc workerDomains dead s.world
      split_ifs at hs with hnone htest
      · obtain rfl := Option.some.inj hs
        exact h.move (.of_eases rfl (.refl _) rfl) (hstay rfl) (fun _ _ _ _ _ => nofun)
          fun _ _ _ _ _ => nofun
      · exact h.tryWorkers (.of_eases rfl (.refl _) rfl) rfl hs
      · split at hs
        · obtain rfl := Option.some.inj hs
          refine h.move hget (fun i line hline => ?_) (fun _ _ _ _ _ => nofun)
            fun _ _ _ _ _ => nofun
          rcases getElem?_concat.mp hline with hline | ⟨-, rfl⟩
          · exact .inl hline
          · exact .inr .gone
        · refine h.tryWorkers ?_ ?_ hs
          · exact hget
          · rfl
  | connected i =>
      rw [Traffic.step] at hs
      split at hs
      · next domain rest hline =>
          obtain rfl := Option.some.inj hs
          exact h.move (.of_eases rfl (s.world.pool.eases_reportSuccess domain) rfl)
            (hset hline .gone rfl) (fun _ _ _ _ _ => nofun) fun _ _ _ _ _ => nofun
      · cases hs
  | refused i exc =>
      rw [Traffic.step] at hs
      split at hs
      · next domain rest hline =>
          obtain rfl := Option.some.inj hs
          have hnot := hclear _ domain hline rfl
          have hreport : Stepped (some domain) s.world
              { s.world with
                pool := (s.world.pool.reportFailure s.world.now domain exc).2 } :=
            ⟨le_rfl, fun d hd => .inl (CfWorkerPool.restsUntil_reportFailure
              (fun h => hd (congrArg some h)) exc), fun u q hq => .inl (congrArg _ hq)⟩
          refine h.move hreport (hset hline (.next rfl) rfl) (fun u q hq d' hd' => ?_)
            fun j line hl d' hd' => ?_
          · rintro heq
            obtain rfl := Option.some.inj heq
            exact hnot (.inl ⟨u, q, hq, nofun, hd'⟩)
          · rintro heq
            obtain rfl := Option.some.inj heq
            by_cases hij : j = i
            · subst hij
              obtain rfl := Option.some.inj (hline.symm.trans hl)
              exact ne_of_mem_tail (h.fallbacks j _ hline).nodup rfl hd' rfl
            · exact hnot (.inr ⟨j, line, hl, fun hj => hij (Option.some.inj hj), hd'⟩)
      · cases hs
  | cancelled i =>
      rw [Traffic.step] at hs
      split at hs
      · next domain rest hline =>
          obtain rfl := Option.some.inj hs
          exact h.move (.of_eases rfl (.refl _) rfl) (hset hline .gone rfl)
            (fun _ _ _ _ _ => nofun) fun _ _ _ _ _ => nofun
      · cases hs

end Lined

lemma Traffic.Starting.lined {s : Traffic δ} (h : s.Starting) : Lined s := by
  obtain ⟨⟨-, htasks, -⟩, hclock, hfallbacks⟩ := h
  refine ⟨hclock, fun t r hr => ?_, fun i line hline => ?_⟩
  · rw [htasks] at hr
    cases hr
  · rw [hfallbacks] at hline
    cases hline

/-- **Dials in runs that are clear.**  As long as no worker is reported that still stands in another
line, every dial that starts goes to a worker whose rest is over. -/
theorem no_dial_to_resting {poolSize : ℕ} {s s' : Traffic δ} {a : Act δ} {d : δ}
    (h : Reachable Traffic.Starting (Traffic.step poolSize) Traffic.Clear s) (ha : s.Clear a)
    (hs : Traffic.step poolSize a s = some s') (hstart : s.Starts s' d) :
    s'.world.pool.restsUntil d ≤ s'.world.now := by
  have hlined : Lined s :=
    Reachable.invariant (P := Lined) (fun _ hs => hs.lined)
      (fun _ _ _ _ hs ha hstep => (hs.step ha hstep).1) h
  exact (hlined.step ha hs).2 d hstart

/-- A pool of worker connections at 1000 s, and no fallback yet. -/
def quietTraffic : Traffic String := ⟨freshWorkerPool, []⟩

lemma quietTraffic_starting : quietTraffic.Starting :=
  ⟨⟨rfl, rfl, rfl, rfl, rfl, rfl⟩, by norm_num [quietTraffic, freshWorkerPool], rfl⟩

/-- Two fallbacks: the first one goes on to its second worker, which the other one is dialling. -/
theorem no_dial_to_resting_sample :
    ∃ s s' : Traffic String,
      exec (Traffic.step 0) [.fallback 2 true ["a", "b"] [] ["a", "b"],
        .fallback 2 true ["b", "c"] [] ["b", "c"]] quietTraffic = some s ∧
      Traffic.step 0 (.refused 0 .other) s = some s' ∧ s'.fallbacks = [["b"], ["b", "c"]] ∧
      s'.world.pool.restsUntil "b" ≤ s'.world.now := by
  have hrun : (exec (Traffic.step 0) [.fallback 2 true ["a", "b"] [] ["a", "b"],
        .fallback 2 true ["b", "c"] [] ["b", "c"]] quietTraffic).map
      (fun s => (s.world.tasks, s.fallbacks, (Traffic.step 0 (.refused 0 .other) s).map
        Traffic.fallbacks)) =
      some ([], [["a", "b"], ["b", "c"]], some [["b"], ["b", "c"]]) := by decide +kernel
  obtain ⟨s, hs, hview⟩ := Option.map_eq_some_iff.mp hrun
  simp only [Prod.mk.injEq] at hview
  obtain ⟨htasks, hbefore, hstep⟩ := hview
  obtain ⟨s', hs', hafter⟩ := Option.map_eq_some_iff.mp hstep
  have hreach : Reachable Traffic.Starting (Traffic.step 0) Traffic.Clear s :=
    reachable_of_exec_of_allowed (by simp [Traffic.Clear]) (.start quietTraffic_starting) hs
  have hclear : s.Clear (.refused 0 .other) := by
    rintro line d hline hd (⟨u, r, hr, -⟩ | ⟨j, line', hline', hj, hmem⟩)
    · rw [htasks] at hr
      cases hr
    · rw [hbefore] at hline hline'
      obtain rfl := Option.some.inj hline
      obtain rfl := Option.some.inj hd
      rcases j with _ | _ | j
      · exact hj rfl
      · obtain rfl := Option.some.inj hline'
        revert hmem
        decide
      · cases hline'
  have hstart : s.Starts s' "b" := by
    refine .inr ⟨0, ["b"], by rw [hafter]; rfl, rfl, ?_⟩
    rw [hbefore]
    decide
  exact ⟨s, s', hs, hs', hafter, no_dial_to_resting hreach hclear hs' hstart⟩

/-- **Two fallbacks.**  The second one puts to rest the worker that the first one dials next. -/
theorem dial_to_resting :
    ¬ ∀ (s s' : Traffic String) (a : Act String) (d : String),
      Reachable Traffic.Starting (Traffic.step 0) Always s → Traffic.step 0 a s = some s' →
        s.Starts s' d → s'.world.pool.restsUntil d ≤ s'.world.now := by
  intro h
  have hrun : (exec (Traffic.step 0) [.fallback 2 true ["a", "b"] [] ["a", "b"],
      .fallback 2 true ["a", "b"] [] ["b", "a"], .refused 1 .other] quietTraffic).map
        (fun s => (s.fallbacks, (Traffic.step 0 (.refused 0 .other) s).map fun s =>
          (s.fallbacks, s.world.now, s.world.pool.restsUntil "b"))) =
      some ([["a", "b"], ["a"]], some ([["b"], ["a"]], 1000, 1060)) := by decide +kernel
  obtain ⟨s, hs, hview⟩ := Option.map_eq_some_iff.mp hrun
  obtain ⟨hbefore, hstep⟩ := Prod.mk.inj hview
  obtain ⟨s', hs', hafter⟩ := Option.map_eq_some_iff.mp hstep
  simp only [Prod.mk.injEq] at hafter
  obtain ⟨hfallbacks, hnow, hrests⟩ := hafter
  have hstart : s.Starts s' "b" := by
    refine .inr ⟨0, ["b"], by rw [hfallbacks]; rfl, rfl, ?_⟩
    rw [hbefore]
    decide
  have hle := h s s' _ "b" (reachable_of_exec (.start quietTraffic_starting) hs) hs' hstart
  rw [hnow, hrests] at hle
  norm_num at hle

end TgWsProxy.CfWorker
