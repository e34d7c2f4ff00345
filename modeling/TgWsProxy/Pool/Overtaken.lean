import TgWsProxy.Pool.CfWorkerPool

/-!
# A refill overtaken by a reset

After `reset()` a refill that was suspended in a dial goes on until it finds out.

* `Without` — two worlds that agree in all but one task, which has ended in the second.
* `Without.step`, `Without.own_step` — the steps of the others keep them so, and the steps of the
  task are not seen, unless one of its dials raises.
* **`overtaken_leaves_no_trace`** — under this condition the pool is what it would be had the
  refill never run.
* `overtaken_charges` — otherwise it is not.
-/

namespace TgWsProxy.CfWorker

open Wire

variable {δ : Type*}

/-! ## A world without a task -/

/-- Task `i` is not registered and past its first step in `s`; in `s'` it has ended, and all that
the rest of the world reads is the same. -/
structure Without (i : ℕ) (s s' : World δ) : Prop where
  pool : s'.pool = s.pool
  now : s'.now = s.now
  closers : s'.closers = s.closers
  dialled : s'.dialled ⊆ s.dialled
  length : s'.tasks.length = s.tasks.length
  others : ∀ t, t ≠ i → s'.tasks[t]? = s.tasks[t]?
  started : ∃ r, s.tasks[i]? = some r ∧ r.phase ≠ .created
  ended : ∃ r, s'.tasks[i]? = some r ∧ r.phase = .done
  unregistered : i ∉ s.pool.refilling.values

/-- The world in which task `t` has ended. -/
def World.without (t : ℕ) (s : World δ) : World δ :=
  { s with tasks := s.tasks.modify t fun r => { r with phase := .done, cancelled := false } }

namespace Without

variable {i t : ℕ} {s s' : World δ}

lemma lt_length (h : Without i s s') : i < s.tasks.length := by
  obtain ⟨r, hr, -⟩ := h.started
  exact (List.getElem?_eq_some_iff.mp hr).1

lemma exists_eq (h : Without i s s') : ∃ tasks dialled handed closed,
    s' = { s with tasks := tasks, dialled := dialled, handed := handed, closed := closed } := by
  refine ⟨s'.tasks, s'.dialled, s'.handed, s'.closed, ?_⟩
  rw [← h.pool, ← h.now, ← h.closers]

/-- The pool changes, and `i` is still not registered. -/
lemma withPool (h : Without i s s') {p : CfWorkerPool δ} (hp : i ∉ p.refilling.values) :
    Without i { s with pool := p } { s' with pool := p } :=
  ⟨rfl, h.now, h.closers, h.dialled, h.length, h.others, h.started, h.ended, hp⟩

/-- Another task moves. -/
lemma put (h : Without i s s') (hti : t ≠ i) (r : Refill δ) :
    Without i (s.put t r) (s'.put t r) := by
  refine ⟨h.pool, h.now, h.closers, h.dialled, ?_, ?_, ?_, ?_, h.unregistered⟩
  · simp [World.put, h.length]
  · intro u hu
    simp only [World.put, List.getElem?_set, h.length, h.others u hu]
  · obtain ⟨r', hr', hphase⟩ := h.started
    exact ⟨r', by rw [World.put, List.getElem?_set_ne hti, hr'], hphase⟩
  · obtain ⟨r', hr', hphase⟩ := h.ended
    exact ⟨r', by rw [World.put, List.getElem?_set_ne hti, hr'], hphase⟩

lemma finish (h : Without i s s') (hti : t ≠ i) (r : Refill δ) :
    Without i (s.finish t r) (s'.finish t r) := by
  obtain ⟨tasks, dialled, handed, closed, rfl⟩ := h.exists_eq
  refine (h.withPool (p := s.pool.release r.dc t) ?_).put hti _
  unfold CfWorkerPool.release
  split_ifs
  · exact fun hi => h.unregistered (Dict.mem_values_of_erase hi)
  · exact h.unregistered

lemma scheduleRefill (h : Without i s s') (dc : ℤ) (workerDomains : List δ) :
    Without i (s.scheduleRefill dc workerDomains) (s'.scheduleRefill dc workerDomains) := by
  have hlt := h.lt_length
  unfold World.scheduleRefill
  rw [h.pool, h.now, h.length]
  split_ifs
  · exact h
  · refine ⟨rfl, rfl, h.closers, h.dialled, by simp [h.length], ?_, ?_, ?_, ?_⟩
    · intro u hu
      simp only [List.getElem?_append, h.length, h.others u hu]
    · obtain ⟨r, hr, hphase⟩ := h.started
      exact ⟨r, by rw [List.getElem?_append_left hlt, hr], hphase⟩
    · obtain ⟨r, hr, hphase⟩ := h.ended
      exact ⟨r, by rw [List.getElem?_append_left (h.length ▸ hlt), hr], hphase⟩
    · intro hi
      rcases Dict.eq_or_mem_values_of_set hi with hi | hi
      · omega
      · exact h.unregistered hi

lemma dialOrSettle (h : Without i s s') (hti : t ≠ i) (r : Refill δ) (bucket more connected : ℕ)
    (domains : List δ) : Without i (s.dialOrSettle t r bucket more connected domains)
      (s'.dialOrSettle t r bucket more connected domains) := by
  obtain ⟨tasks, dialled, handed, closed, rfl⟩ := h.exists_eq
  cases domains with
  | cons domain rest => exact h.put hti _
  | nil =>
      obtain ⟨f, a, hsettle⟩ := CfWorkerPool.settle_eq s.now r.dc connected s.pool
      refine (h.withPool (p := s.pool.settle s.now r.dc connected) ?_).finish hti r
      rw [hsettle]
      exact h.unregistered

variable [DecidableEq δ]

lemma get (h : Without i s s') (dc : ℤ) (workerDomains : List δ) (dead : List ℕ) :
    Without i (s.get dc workerDomains dead) (s'.get dc workerDomains dead) := by
  obtain ⟨tasks, dialled, handed, closed, rfl⟩ := h.exists_eq
  unfold World.get
  simp only
  split
  all_goals
    refine Without.scheduleRefill ?_ dc workerDomains
    exact ⟨rfl, rfl, rfl, h.dialled, h.length, h.others, h.started, h.ended, h.unregistered⟩

lemma begin (h : Without i s s') (hti : t ≠ i) (poolSize : ℕ) (r : Refill δ) (shuffled : List δ)
    {w : World δ} (hw : s.begin poolSize t r shuffled = some w) :
    ∃ w', s'.begin poolSize t r shuffled = some w' ∧ Without i w w' := by
  obtain ⟨tasks, dialled, handed, closed, rfl⟩ := h.exists_eq
  obtain ⟨u, havailable⟩ := CfWorkerPool.availableDomains_eq s.now r.workerDomains
    { s.pool with idle := (s.pool.idle.setdefault r.dc).2 }
  have hidle := h.withPool (p := { s.pool with idle := (s.pool.idle.setdefault r.dc).2 })
    h.unregistered
  unfold World.begin at hw ⊢
  simp only at hw ⊢
  split_ifs at hw ⊢ with hneeded hnone hperm
  · obtain rfl := Option.some.inj hw
    exact ⟨_, rfl, hidle.finish hti r⟩
  · obtain rfl := Option.some.inj hw
    refine ⟨_, rfl, (hidle.withPool ?_).finish hti r⟩
    rw [havailable]
    exact h.unregistered
  · obtain rfl := Option.some.inj hw
    refine ⟨_, rfl, (hidle.withPool ?_).dialOrSettle hti r _ _ _ _⟩
    rw [havailable]
    exact h.unregistered

lemma dialReturned (h : Without i s s') (hti : t ≠ i) (ws : ℕ) (r : Refill δ)
    (bucket more connected : ℕ) (domain : δ) (shuffled : List δ) {w : World δ}
    (hw : s.dialReturned t ws r bucket more connected domain shuffled = some w) :
    ∃ w', s'.dialReturned t ws r bucket more connected domain shuffled = some w' ∧
      Without i w w' := by
  obtain ⟨tasks, dialled, handed, closed, rfl⟩ := h.exists_eq
  have hdialled : dialled ++ [ws] ⊆ s.dialled ++ [ws] :=
    List.append_subset.mpr ⟨List.Subset.trans h.dialled (List.subset_append_left _ _),
      List.subset_append_right _ _⟩
  have hidle : Without i
      { s with
        dialled := s.dialled ++ [ws]
        pool := { s.pool with
          idle := s.pool.idle.modify bucket (s.pool.idle.heap bucket ++ [⟨ws, s.now, domain⟩]) } }
      { s with
        tasks := tasks, handed := handed, closed := closed
        dialled := dialled ++ [ws]
        pool := { s.pool with
          idle := s.pool.idle.modify bucket
            (s.pool.idle.heap bucket ++ [⟨ws, s.now, domain⟩]) } } :=
    ⟨rfl, rfl, rfl, hdialled, h.length, h.others, h.started, h.ended, h.unregistered⟩
  unfold World.dialReturned at hw ⊢
  simp only at hw ⊢
  split_ifs at hw ⊢ with hregistered hmore hperm
  · obtain rfl := Option.some.inj hw
    obtain ⟨f, a, hsettle⟩ := CfWorkerPool.settle_eq s.now r.dc (connected + 1)
      { s.pool with
        idle := s.pool.idle.modify bucket (s.pool.idle.heap bucket ++ [⟨ws, s.now, domain⟩]) }
    refine ⟨_, rfl, (hidle.withPool ?_).finish hti r⟩
    rw [hsettle]
    exact h.unregistered
  · obtain rfl := Option.some.inj hw
    obtain ⟨u, havailable⟩ := CfWorkerPool.availableDomains_eq s.now r.workerDomains
      { s.pool with
        idle := s.pool.idle.modify bucket (s.pool.idle.heap bucket ++ [⟨ws, s.now, domain⟩]) }
    refine ⟨_, rfl, (hidle.withPool ?_).dialOrSettle hti r _ _ _ _⟩
    rw [havailable]
    exact h.unregistered
  · obtain rfl := Option.some.inj hw
    refine ⟨_, rfl, Without.put ?_ hti _⟩
    exact ⟨rfl, rfl, rfl, hdialled, h.length, h.others, h.started, h.ended, h.unregistered⟩

lemma reset (h : Without i s s') : Without i s.reset s'.reset := by
  obtain ⟨tasks, dialled, handed, closed, rfl⟩ := h.exists_eq
  refine ⟨rfl, rfl, rfl, h.dialled, by simpa [World.reset] using h.length, ?_, ?_, ?_, nofun⟩
  · intro t ht
    have hothers := h.others t ht
    simp only [World.reset, List.getElem?_mapIdx]
    rw [hothers]
  · obtain ⟨r, hr, hphase⟩ := h.started
    refine ⟨r, ?_, hphase⟩
    simp [World.reset, List.getElem?_mapIdx, hr, h.unregistered]
  · obtain ⟨r, hr, hphase⟩ := h.ended
    simp only at hr
    refine ⟨r, ?_, hphase⟩
    simp [World.reset, List.getElem?_mapIdx, hr, hphase]

omit [DecidableEq δ] in
lemma disturb (h : Without i s s') : Without i s.disturb s'.disturb := by
  refine ⟨h.pool, h.now, ?_, h.dialled, h.length, h.others, h.started, h.ended, h.unregistered⟩
  rw [World.disturb, World.disturb, h.closers]

/-! ## Steps -/

/-- **The others do not notice.**  A step that is not of task `i` is the same step in both. -/
theorem step {poolSize : ℕ} {e : Event δ} {w : World δ} (h : Without i s s')
    (he : e.task ≠ some i) (hw : s.step poolSize e = some w) :
    ∃ w', s'.step poolSize e = some w' ∧ Without i w w' := by
  have hother : ∀ {t : ℕ}, e.task = some t → t ≠ i := by
    rintro t ht rfl
    exact he ht
  cases e with
  | tick u =>
      rw [World.step] at hw ⊢
      rw [h.now]
      split_ifs at hw ⊢
      obtain rfl := Option.some.inj hw
      exact ⟨_, rfl, h.pool, rfl, h.closers, h.dialled, h.length, h.others, h.started, h.ended,
        h.unregistered⟩
  | get dc workerDomains dead =>
      obtain rfl := Option.some.inj hw
      exact ⟨_, rfl, h.disturb.get dc workerDomains dead⟩
  | warmup dcs workerDomains =>
      obtain rfl := Option.some.inj hw
      refine ⟨_, rfl, ?_⟩
      have hfold : ∀ (dcs : List ℤ) {w w' : World δ}, Without i w w' →
          Without i (dcs.foldl (fun s dc => s.scheduleRefill dc workerDomains) w)
            (dcs.foldl (fun s dc => s.scheduleRefill dc workerDomains) w') := by
        intro dcs
        induction dcs with
        | nil => exact fun h => h
        | cons dc dcs ih => exact fun h => ih (h.scheduleRefill dc workerDomains)
      exact hfold dcs h.disturb
  | reportSuccess workerDomain =>
      obtain rfl := Option.some.inj hw
      refine ⟨_, rfl, ?_⟩
      rw [h.pool]
      exact h.withPool h.unregistered
  | reportFailure workerDomain exc =>
      obtain rfl := Option.some.inj hw
      obtain ⟨u, f, hfailure⟩ := CfWorkerPool.reportFailure_eq s.now workerDomain exc s.pool
      obtain ⟨tasks, dialled, handed, closed, rfl⟩ := h.exists_eq
      refine ⟨_, rfl, h.withPool ?_⟩
      rw [hfailure]
      exact h.unregistered
  | availableDomains workerDomains =>
      obtain rfl := Option.some.inj hw
      obtain ⟨u, havailable⟩ := CfWorkerPool.availableDomains_eq s.now workerDomains s.pool
      obtain ⟨tasks, dialled, handed, closed, rfl⟩ := h.exists_eq
      refine ⟨_, rfl, h.withPool ?_⟩
      rw [havailable]
      exact h.unregistered
  | begin t shuffled =>
      have hti := hother rfl
      rw [World.step] at hw ⊢
      rw [h.others t hti]
      cases hr : s.tasks[t]? with
      | none => rw [hr] at hw; cases hw
      | some r =>
          rw [hr] at hw
          simp only at hw ⊢
          split at hw
          · split_ifs at hw ⊢
            · obtain rfl := Option.some.inj hw
              exact ⟨_, rfl, h.put hti _⟩
            · exact h.begin hti poolSize r shuffled hw
          · cases hw
  | dialReturned t ws shuffled =>
      have hti := hother rfl
      rw [World.step] at hw ⊢
      rw [h.others t hti]
      cases hr : s.tasks[t]? with
      | none => rw [hr] at hw; cases hw
      | some r =>
          rw [hr] at hw
          simp only at hw ⊢
          split at hw
          · split_ifs at hw with hfresh
            rw [if_neg fun hmem => hfresh (h.dialled hmem)]
            exact h.dialReturned hti ws r _ _ _ _ shuffled hw
          · cases hw
  | dialRaised t exc =>
      have hti := hother rfl
      rw [World.step] at hw ⊢
      rw [h.others t hti]
      cases hr : s.tasks[t]? with
      | none => rw [hr] at hw; cases hw
      | some r =>
          rw [hr] at hw
          simp only at hw ⊢
          split at hw
          · next bucket more connected domain rest _ =>
              obtain rfl := Option.some.inj hw
              obtain ⟨u, f, hfailure⟩ := CfWorkerPool.reportFailure_eq s.now domain exc s.pool
              obtain ⟨tasks, dialled, handed, closed, rfl⟩ := h.exists_eq
              refine ⟨_, rfl, (h.withPool ?_).dialOrSettle hti r _ _ _ _⟩
              rw [hfailure]
              exact h.unregistered
          · cases hw
  | dialCancelled t =>
      have hti := hother rfl
      rw [World.step] at hw ⊢
      rw [h.others t hti]
      cases hr : s.tasks[t]? with
      | none => rw [hr] at hw; cases hw
      | some r =>
          rw [hr] at hw
          simp only at hw ⊢
          split at hw
          · split_ifs at hw ⊢
            obtain rfl := Option.some.inj hw
            exact ⟨_, rfl, h.finish hti r⟩
          · cases hw
  | closed t =>
      have hti := hother rfl
      rw [World.step] at hw ⊢
      rw [h.others t hti]
      cases hr : s.tasks[t]? with
      | none => rw [hr] at hw; cases hw
      | some r =>
          rw [hr] at hw
          simp only at hw ⊢
          split at hw
          · obtain rfl := Option.some.inj hw
            exact ⟨_, rfl, h.finish hti r⟩
          · cases hw
  | reset =>
      obtain rfl := Option.some.inj hw
      exact ⟨_, rfl, h.reset⟩
  | closeBegin =>
      obtain rfl := Option.some.inj hw
      have hr := h.reset
      refine ⟨_, rfl, ?_⟩
      rw [h.closers, h.pool]
      exact ⟨hr.pool, hr.now, rfl, hr.dialled, hr.length, hr.others, hr.started, hr.ended,
        hr.unregistered⟩
  | closeEnd c =>
      rw [World.step] at hw ⊢
      rw [h.closers]
      cases hc : s.closers[c]? with
      | none => rw [hc] at hw; cases hw
      | some closer =>
          rw [hc] at hw
          simp only at hw ⊢
          split_ifs at hw with hdone
          obtain rfl := Option.some.inj hw
          have hdone' : ∀ t ∈ closer.tasks, ∀ r ∈ s'.tasks[t]?, r.phase = .done := by
            intro t ht r hr
            rcases eq_or_ne t i with rfl | hti
            · obtain ⟨r', hr', hphase⟩ := h.ended
              rw [Option.mem_def, hr'] at hr
              exact Option.some.inj hr ▸ hphase
            · rw [h.others t hti] at hr
              exact hdone t ht r hr
          rw [if_pos hdone']
          exact ⟨_, rfl, h.pool, h.now, rfl, h.dialled, h.length, h.others, h.started, h.ended,
            h.unregistered⟩

omit [DecidableEq δ] in
/-- The task moves, and neither the pool nor anyone else sees it. -/
lemma own (h : Without i s s') {r : Refill δ} (hr : r.phase ≠ .created) {d c : List ℕ}
    (hdialled : s.dialled ⊆ d) : Without i ({ s with dialled := d, closed := c }.put i r) s' := by
  refine ⟨h.pool, h.now, h.closers, List.Subset.trans h.dialled hdialled, ?_, ?_, ?_, h.ended,
    h.unregistered⟩
  · simpa [World.put] using h.length
  · intro t ht
    rw [World.put, List.getElem?_set_ne (Ne.symm ht), h.others t ht]
  · exact ⟨r, by simp [World.put, h.lt_length], hr⟩

omit [DecidableEq δ] in
/-- The `finally` of a task that is not registered. -/
lemma own_finish (h : Without i s s') (r : Refill δ) : Without i (s.finish i r) s' := by
  have hrelease : s.pool.release r.dc i = s.pool :=
    if_neg fun hget => h.unregistered (Dict.mem_values.mpr ⟨r.dc, hget⟩)
  rw [World.finish, hrelease]
  exact h.own (d := s.dialled) (c := s.closed) (by simp) (List.Subset.refl _)

/-- **The task leaves no trace** in a step in which none of its dials raises. -/
theorem own_step {poolSize : ℕ} {e : Event δ} {w : World δ} (h : Without i s s')
    (he : e.task = some i) (hraised : ∀ exc, e ≠ .dialRaised i exc)
    (hw : s.step poolSize e = some w) : Without i w s' := by
  obtain ⟨r₀, hr₀, hstarted⟩ := h.started
  cases e with
  | tick | get | warmup | reportSuccess | reportFailure | availableDomains | reset | closeBegin
  | closeEnd => cases he
  | begin t shuffled =>
      obtain rfl := Option.some.inj he
      rw [World.step, hr₀] at hw
      simp only at hw
      cases hw
  | dialReturned t ws shuffled =>
      obtain rfl := Option.some.inj he
      rw [World.step, hr₀] at hw
      simp only at hw
      split at hw
      · split_ifs at hw with hfresh
        have hget : s.pool.refilling.get? r₀.dc ≠ some t := fun hget =>
          h.unregistered (Dict.mem_values.mpr ⟨r₀.dc, hget⟩)
        rw [World.dialReturned, if_neg hget] at hw
        obtain rfl := Option.some.inj hw
        exact h.own (by simp) (List.subset_append_left _ _)
      · cases hw
  | dialRaised t exc =>
      obtain rfl := Option.some.inj he
      exact absurd rfl (hraised exc)
  | dialCancelled t =>
      obtain rfl := Option.some.inj he
      rw [World.step, hr₀] at hw
      simp only at hw
      split at hw
      · split_ifs at hw
        obtain rfl := Option.some.inj hw
        exact h.own_finish r₀
      · cases hw
  | closed t =>
      obtain rfl := Option.some.inj he
      rw [World.step, hr₀] at hw
      simp only at hw
      split at hw
      · obtain rfl := Option.some.inj hw
        exact h.own_finish r₀
      · cases hw

end Without

variable [DecidableEq δ]

/-! ## Runs -/

/-- The run `es` from `s` leaves in the maps of the pool what it leaves there when the steps of task
`i` are taken out of it. -/
def NoTrace (poolSize i : ℕ) (s : World δ) (es : List (Event δ)) : Prop :=
  ∀ w, exec (World.step poolSize) es s = some w →
    ∃ w', exec (World.step poolSize) (es.filter fun e => e.task ≠ some i) (s.without i) = some w' ∧
      w'.pool.idle = w.pool.idle ∧ w'.pool.refilling = w.pool.refilling ∧
      w'.pool.refillFailures = w.pool.refillFailures ∧ w'.pool.refillAfter = w.pool.refillAfter

lemma Without.noTrace {poolSize i : ℕ} : ∀ {es : List (Event δ)} {s s' w : World δ},
    Without i s s' → (∀ exc, .dialRaised i exc ∉ es) → exec (World.step poolSize) es s = some w →
      ∃ w', exec (World.step poolSize) (es.filter fun e => e.task ≠ some i) s' = some w' ∧
        Without i w w'
  | [], s, s', w, h, _, hrun => by
      obtain rfl := Option.some.inj hrun
      exact ⟨s', rfl, h⟩
  | e :: es, s, s', w, h, hraised, hrun => by
      obtain ⟨s₁, h₁, hrest⟩ := Option.bind_eq_some_iff.mp hrun
      have hraised' : ∀ exc, .dialRaised i exc ∉ es := fun exc hmem =>
        hraised exc (List.mem_cons_of_mem _ hmem)
      by_cases he : e.task = some i
      · have hown := h.own_step he (fun exc heq => hraised exc (heq ▸ List.mem_cons_self)) h₁
        rw [List.filter_cons_of_neg (by simpa using he)]
        exact hown.noTrace hraised' hrest
      · obtain ⟨s₁', h₁', hw⟩ := h.step he h₁
        obtain ⟨w', hw', hwithout⟩ := hw.noTrace hraised' hrest
        rw [List.filter_cons_of_pos (by simpa using he)]
        exact ⟨w', Option.bind_eq_some_iff.mpr ⟨s₁', h₁', hw'⟩, hwithout⟩

/-- **An overtaken refill leaves no trace,** whatever the others do, in every run in which none of
its dials raises: each returns a connection, or lets the cancellation through. -/
theorem overtaken_leaves_no_trace (poolSize : ℕ) {s s₀ : World δ} {i : ℕ} {r : Refill δ}
    (hi : s.tasks[i]? = some r) {bucket more connected : ℕ} {domain : δ} {rest : List δ}
    (hphase : r.phase = .dialling bucket more connected domain rest) {e : Event δ}
    (he : e = .reset ∨ e = .closeBegin) (hs : s.step poolSize e = some s₀) (es : List (Event δ))
    (hraised : ∀ exc, .dialRaised i exc ∉ es) : NoTrace poolSize i s₀ es := by
  have htask : ∃ r', s₀.tasks[i]? = some r' ∧ r'.phase ≠ .created := by
    rcases he with rfl | rfl
    all_goals
      obtain rfl := Option.some.inj hs
      simp only [World.reset, List.getElem?_mapIdx, hi, Option.map_some]
      refine ⟨_, rfl, ?_⟩
      split_ifs <;> simp [hphase]
  have hempty : s₀.pool.refilling.values = [] := by
    rcases he with rfl | rfl <;> obtain rfl := Option.some.inj hs <;> rfl
  have hwithout : Without i s₀ (s₀.without i) := by
    refine ⟨rfl, rfl, rfl, List.Subset.refl _, by simp [World.without], ?_, htask, ?_, ?_⟩
    · intro t ht
      simp [World.without, Ne.symm ht]
    · obtain ⟨r', hr', -⟩ := htask
      exact ⟨{ r' with phase := .done, cancelled := false }, by
        simp [World.without, hr'], rfl⟩
    · rw [hempty]
      exact List.not_mem_nil
  intro w hrun
  obtain ⟨w', hw', hend⟩ := hwithout.noTrace hraised hrun
  exact ⟨w', hw', by rw [hend.pool], by rw [hend.pool], by rw [hend.pool], by rw [hend.pool]⟩

/-- A fresh pool at 1000 s. -/
def freshWorld : World String := ⟨.new, 1000, [], [], [], [], []⟩

/-- The dial of the overtaken refill returns a connection after a later refill has started. -/
theorem overtaken_leaves_no_trace_sample : ∃ s s₀ s₁ : World String,
    exec (World.step 4) [.get 2 ["a"] [], .begin 0 ["a"]] freshWorld = some s ∧
      s.step 4 .reset = some s₀ ∧
      exec (World.step 4) [.get 2 ["a"] [], .begin 1 ["a"], .dialReturned 0 7 [], .closed 0] s₀ =
        some s₁ ∧
      NoTrace 4 0 s₀ [.get 2 ["a"] [], .begin 1 ["a"], .dialReturned 0 7 [], .closed 0] := by
  have hview : (exec (World.step 4) [.get 2 ["a"] [], .begin 0 ["a"]] freshWorld).map
      (fun s => (s.tasks, (exec (World.step 4) [.get 2 ["a"] [], .begin 1 ["a"],
        .dialReturned 0 7 [], .closed 0] s.reset).isSome)) =
      some ([⟨2, ["a"], .dialling 0 0 0 "a" [], false⟩], true) := by decide +kernel
  obtain ⟨s, hs, hview⟩ := Option.map_eq_some_iff.mp hview
  obtain ⟨htasks, hruns⟩ := Prod.mk.inj hview
  obtain ⟨s₁, hs₁⟩ := Option.isSome_iff_exists.mp hruns
  exact ⟨s, s.reset, s₁, hs, rfl, hs₁, overtaken_leaves_no_trace 4 (i := 0) (by rw [htasks]; rfl)
    rfl (Or.inl rfl) rfl _ (by simp)⟩

/-- **A dial that raises is charged to the new run.**  When it was the last worker, the refill ends
with a backoff for the DC; when another worker answers, the first still rests, and a refill of the
new run has nothing to dial. -/
theorem overtaken_charges :
    (∃ s ∈ exec (World.step 4) [.get 2 ["a"] [], .begin 0 ["a"]] freshWorld,
      s.tasks.map Refill.phase = [.dialling 0 0 0 "a" []] ∧
      ¬ NoTrace 4 0 s.reset [.dialRaised 0 .other]) ∧
    ∃ s ∈ exec (World.step 4) [.get 2 ["a", "b"] [], .begin 0 ["a", "b"]] freshWorld,
      s.tasks.map Refill.phase = [.dialling 0 0 0 "a" ["b"]] ∧
      ¬ NoTrace 4 0 s.reset [.dialRaised 0 .other, .get 2 ["a"] [], .begin 1 ["a"],
        .dialReturned 0 7 [], .closed 0] := by
  constructor
  · have hphase : (exec (World.step 4) [.get 2 ["a"] [], .begin 0 ["a"]] freshWorld).map
        (fun s => s.tasks.map Refill.phase) = some [.dialling 0 0 0 "a" []] := by decide +kernel
    have hcharged : ((exec (World.step 4) [.get 2 ["a"] [], .begin 0 ["a"]] freshWorld).bind
        fun s => exec (World.step 4) [.dialRaised 0 .other] s.reset).map
          (fun w => w.pool.refillFailures.entries) = some [(2, 1)] := by decide +kernel
    obtain ⟨s, hs, hdial⟩ := Option.map_eq_some_iff.mp hphase
    rw [hs, Option.bind_some] at hcharged
    obtain ⟨w, hw, hentries⟩ := Option.map_eq_some_iff.mp hcharged
    refine ⟨s, hs, hdial, fun hnone => ?_⟩
    obtain ⟨w', hw', -, -, hfailures, -⟩ := hnone w hw
    obtain rfl := Option.some.inj hw'
    rw [← hfailures] at hentries
    cases hentries
  · have hphase : (exec (World.step 4) [.get 2 ["a", "b"] [], .begin 0 ["a", "b"]] freshWorld).map
        (fun s => s.tasks.map Refill.phase) = some [.dialling 0 0 0 "a" ["b"]] := by decide +kernel
    have hrefilling : ((exec (World.step 4) [.get 2 ["a", "b"] [], .begin 0 ["a", "b"]]
        freshWorld).bind fun s => exec (World.step 4) [.dialRaised 0 .other, .get 2 ["a"] [],
          .begin 1 ["a"], .dialReturned 0 7 [], .closed 0] s.reset).map
          (fun w => w.pool.refilling.entries) = some [] := by decide +kernel
    have hwithout : ((exec (World.step 4) [.get 2 ["a", "b"] [], .begin 0 ["a", "b"]]
        freshWorld).bind fun s => exec (World.step 4) [.get 2 ["a"] [], .begin 1 ["a"]]
          (s.reset.without 0)).map (fun w => w.pool.refilling.entries) = some [(2, 1)] := by
      decide +kernel
    obtain ⟨s, hs, hdial⟩ := Option.map_eq_some_iff.mp hphase
    rw [hs, Option.bind_some] at hrefilling hwithout
    obtain ⟨w, hw, hentries⟩ := Option.map_eq_some_iff.mp hrefilling
    obtain ⟨v, hv, hentries'⟩ := Option.map_eq_some_iff.mp hwithout
    refine ⟨s, hs, hdial, fun hnone => ?_⟩
    obtain ⟨w', hw', -, hsame, -, -⟩ := hnone w hw
    obtain rfl := Option.some.inj (hv.symm.trans hw')
    rw [hsame, hentries] at hentries'
    cases hentries'

end TgWsProxy.CfWorker
