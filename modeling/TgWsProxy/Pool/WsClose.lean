import TgWsProxy.Pool.WsAccount

/-!
# Closing the direct pool

* `refill_of_not_registered`, `rotate_of_not_registered` — a task that no map knows any more
  leaves the pool alone.
* `Emptied` — the pool after `close()` has started, as long as nobody uses it.
* `Reaches.closers` — it holds in every run.
-/

namespace TgWsProxy.Ws

open Wire

variable {n t : ℕ} {s s' : World} {r : Refill}

/-! ## Tasks that are not registered -/

lemma finish_of_not_registered (hnot : s.pool.refilling.get? r.key ≠ some t) :
    s.finish t r = s.put t { r with phase := .done, cancelled := false } := by
  rw [World.finish, WsPool.release, if_neg hnot]

lemma pool_closeNext_of_not_registered (hnot : s.pool.refilling.get? r.key ≠ some t)
    (l : List ℕ) : (s.closeNext t r l).pool = s.pool := by
  cases l with
  | nil => rw [World.closeNext, finish_of_not_registered hnot]; rfl
  | cons ws rest => rfl

/-- **An overtaken refill keeps out.**  The steps of a refill that is not registered leave the
pool alone. -/
lemma refill_of_not_registered (h : Shape n s) (hr : s.refills[t]? = some r)
    (hnot : s.pool.refilling.get? r.key ≠ some t) (hs : s.refill n t r = some s') :
    s'.pool = s.pool := by
  have hloose := h.refills.loose t r hr hnot
  unfold World.refill at hs
  cases hphase : r.phase with
  | created =>
      rw [Refill.Loose, hphase] at hloose
      simp only [hphase, hloose, if_true] at hs
      exact Option.some.inj hs ▸ rfl
  | dialling bucket connected dials todo adopted =>
      rw [Refill.Loose, hphase] at hloose
      simp only [hphase, hloose, if_true] at hs
      exact Option.some.inj hs ▸ rfl
  | cleaning dials adopted =>
      simp only [hphase] at hs
      split_ifs at hs
      · exact Option.some.inj hs ▸ rfl
      · exact Option.some.inj hs ▸ pool_closeNext_of_not_registered hnot _
  | closing rest =>
      simp only [hphase] at hs
      split_ifs at hs
      · exact Option.some.inj hs ▸ rfl
      · exact Option.some.inj hs ▸ pool_closeNext_of_not_registered hnot _
  | done =>
      simp only [hphase] at hs
      cases hs

lemma pool_dial {i : ℕ} {result : Option ℕ} (hs : s.dial t i result r = some s') :
    s'.pool = s.pool := by
  unfold World.dial at hs
  split_ifs at hs
  simp only at hs
  split at hs
  · split_ifs at hs
    exact Option.some.inj hs ▸ rfl
  · split_ifs at hs
    exact Option.some.inj hs ▸ rfl
  · cases hs

lemma rotate_of_not_registered (h : Shape n s) {q : Rotation} (hq : s.rotations[t]? = some q)
    (hnot : s.pool.rotating.get? q.key ≠ some t) {dead : List ℕ}
    (hs : s.rotate n t q dead = some s') : s'.pool = s.pool ∧ s'.refills = s.refills := by
  have hrelease : s.pool.releaseRotation q.key t = s.pool := if_neg hnot
  unfold World.rotate at hs
  rcases h.rotations.loose t q hq hnot with hc | hdone
  · cases hturn : q.turn with
    | created =>
        simp only [hc, hturn] at hs
        exact Option.some.inj hs ▸ ⟨rfl, rfl⟩
    | sleeping =>
        simp only [hc, hturn, hrelease] at hs
        exact Option.some.inj hs ▸ ⟨rfl, rfl⟩
    | done => simp [hc, hturn] at hs
  · simp [hdone] at hs

/-! ## What runs on -/

/-- No refill comes to life. -/
def Fewer (s s' : World) : Prop :=
  ∀ (t : ℕ) (r' : Refill), s'.refills[t]? = some r' → r'.phase ≠ .done →
    ∃ r, s.refills[t]? = some r ∧ r.phase ≠ .done

namespace Fewer

lemma of_eq (h : s'.refills = s.refills) : Fewer s s' := fun _ r' hr' hne => ⟨r', h ▸ hr', hne⟩

lemma put (hr : s.refills[t]? = some r) (hne : r.phase ≠ .done) {u : World}
    (hu : u.refills = s.refills) (r' : Refill) : Fewer s (u.put t r') := by
  intro i q hq hne'
  rw [World.put, hu, List.getElem?_set] at hq
  split_ifs at hq with hit
  · exact ⟨r, hit ▸ hr, hne⟩
  · exact ⟨q, hq, hne'⟩

lemma closeNext (hr : s.refills[t]? = some r) (hne : r.phase ≠ .done) (l : List ℕ) :
    Fewer s (s.closeNext t r l) := by
  cases l with
  | nil => exact .put hr hne rfl _
  | cons ws rest => exact .put hr hne rfl _

lemma again {bucket connected : ℕ} {dials : List Dial} {todo adopted : List ℕ}
    (hr : s.refills[t]? = some r) (hne : r.phase ≠ .done) {u : World}
    (hu : u.refills = s.refills) :
    Fewer s (u.again t r bucket connected dials todo adopted) := by
  unfold World.again
  split_ifs
  · exact .put hr hne hu _
  · exact .put hr hne hu _

lemma refill (hr : s.refills[t]? = some r) (hs : s.refill n t r = some s') : Fewer s s' := by
  have hne : r.phase ≠ .done := by
    intro hdone
    simp [World.refill, hdone] at hs
  unfold World.refill at hs
  split at hs
  · split_ifs at hs
    · exact Option.some.inj hs ▸ .put hr hne rfl _
    · refine Option.some.inj hs ▸ ?_
      unfold World.begin
      simp only
      split_ifs
      · exact .put hr hne rfl _
      · exact .put hr hne rfl _
  · split_ifs at hs
    · exact Option.some.inj hs ▸ .put hr hne rfl _
    · split at hs
      · cases hs
      · split at hs
        · cases hs
        · refine Option.some.inj hs ▸ ?_
          unfold World.consume
          split
          · simp only
            split_ifs
            · exact .again hr hne rfl
            · exact .put hr hne rfl _
          · exact .again hr hne rfl
  · split_ifs at hs
    · exact Option.some.inj hs ▸ .put hr hne rfl _
    · exact Option.some.inj hs ▸ .closeNext hr hne _
  · split_ifs at hs
    · exact Option.some.inj hs ▸ .put hr hne rfl _
    · exact Option.some.inj hs ▸ .closeNext hr hne _
  · cases hs

lemma dial {i : ℕ} {result : Option ℕ} (hr : s.refills[t]? = some r)
    (hs : s.dial t i result r = some s') : Fewer s s' := by
  have hne : r.phase ≠ .done := by
    intro hdone
    simp [World.dial, hdone] at hs
  unfold World.dial at hs
  split_ifs at hs
  simp only at hs
  split at hs
  · split_ifs at hs
    exact Option.some.inj hs ▸ .put hr hne rfl _
  · split_ifs at hs
    exact Option.some.inj hs ▸ .put hr hne rfl _
  · cases hs

lemma reset (s : World) : Fewer s s.reset := by
  intro t r' hr' hne
  rw [World.reset, List.getElem?_mapIdx] at hr'
  obtain ⟨r, hr, rfl⟩ := Option.map_eq_some_iff.mp hr'
  refine ⟨r, hr, fun hdone => hne ?_⟩
  split_ifs
  · exact hdone
  · exact hdone

end Fewer

/-! ## The calls of `close()` -/

/-- The pool after a call of `close()` has started, as long as nobody uses it: the buckets and the
registries are empty, and the refills that run are those that the call waits for and those that
had been overtaken before it. -/
structure Emptied (s : World) (c : Closer) : Prop where
  contents : s.pool.idle.contents = []
  refilling : s.pool.refilling.values = []
  rotating : s.pool.rotating.values = []
  known : ∀ (t : ℕ) (r : Refill), s.refills[t]? = some r → r.phase ≠ .done →
    t ∈ c.refills ∨ t ∈ c.overtaken
  waited : c.returned = true → ∀ t ∈ c.refills, ∀ r ∈ s.refills[t]?, r.phase = .done

/-- Every call of `close()` that has been left alone has emptied the pool. -/
def Closers (s : World) : Prop := ∀ c ∈ s.closers, c.quiet = true → Emptied s c

lemma Emptied.fewer {c : Closer} (h : Emptied s c) (hpool : s'.pool = s.pool)
    (hfewer : Fewer s s') : Emptied s' c := by
  refine ⟨hpool ▸ h.contents, hpool ▸ h.refilling, hpool ▸ h.rotating, ?_, ?_⟩
  · intro t r' hr' hne
    obtain ⟨r, hr, hne'⟩ := hfewer t r' hr' hne
    exact h.known t r hr hne'
  · intro hreturned t ht r' hr'
    by_contra hne
    obtain ⟨r, hr, hne'⟩ := hfewer t r' hr' hne
    exact hne' (h.waited hreturned t ht r hr)

lemma Emptied.reset {c : Closer} (h : Emptied s c) : Emptied s.reset c := by
  refine ⟨rfl, rfl, rfl, ?_, ?_⟩
  · intro t r' hr' hne
    obtain ⟨r, hr, hne'⟩ := Fewer.reset s t r' hr' hne
    exact h.known t r hr hne'
  · intro hreturned t ht r' hr'
    by_contra hne
    obtain ⟨r, hr, hne'⟩ := Fewer.reset s t r' hr' hne
    exact hne' (h.waited hreturned t ht r hr)

/-- A caller of the pool disturbs every call of `close()`. -/
lemma Closers.of_disturbed (h : s'.closers = s.disturb.closers) : Closers s' := by
  intro c hc hquiet
  rw [h] at hc
  obtain ⟨c', -, rfl⟩ := List.mem_map.mp hc
  cases hquiet

lemma closers_dial {i : ℕ} {result : Option ℕ} (hs : s.dial t i result r = some s') :
    s'.closers = s.closers := by
  unfold World.dial at hs
  split_ifs at hs
  simp only at hs
  split at hs
  · split_ifs at hs
    exact Option.some.inj hs ▸ rfl
  · split_ifs at hs
    exact Option.some.inj hs ▸ rfl
  · cases hs

lemma not_registered_of_emptied {c : Closer} (h : Emptied s c) {key : Key} :
    s.pool.refilling.get? key ≠ some t := by
  intro hreg
  have hmem := Dict.mem_values.mpr ⟨key, hreg⟩
  rw [h.refilling] at hmem
  cases hmem

lemma Closers.step {cfg : ProxyConfig} {e : Event} (h : Closers s) (hsound : Sound cfg.poolSize s)
    (hs : World.step cfg e s = some s') : Closers s' := by
  obtain ⟨hshape, hb⟩ := hsound
  cases e with
  | tick now =>
      simp only [World.step] at hs
      split_ifs at hs
      exact Option.some.inj hs ▸ fun c hc hquiet => (h c hc hquiet).fewer rfl (.of_eq rfl)
  | get dc isMedia isTestDc dead =>
      exact Option.some.inj hs ▸ .of_disturbed (Moved.get _ _ _ _).closers
  | warmup => exact Option.some.inj hs ▸ .of_disturbed (Moved.warmup _ _).closers
  | refill t =>
      obtain ⟨r, hr, hs⟩ := Option.bind_eq_some_iff.mp hs
      intro c hc hquiet
      have hemptied := h c ((Moved.refill hshape hb hr hs).closers ▸ hc) hquiet
      exact hemptied.fewer (refill_of_not_registered hshape hr (not_registered_of_emptied hemptied)
        hs) (.refill hr hs)
  | dial t i result =>
      obtain ⟨r, hr, hs⟩ := Option.bind_eq_some_iff.mp hs
      intro c hc hquiet
      exact (h c (closers_dial hs ▸ hc) hquiet).fewer (pool_dial hs) (.dial hr hs)
  | rotate t dead =>
      obtain ⟨q, hq, hs⟩ := Option.bind_eq_some_iff.mp hs
      intro c hc hquiet
      have hemptied := h c ((Moved.rotate hs).closers ▸ hc) hquiet
      have hnot : s.pool.rotating.get? q.key ≠ some t := by
        intro hreg
        have hmem := Dict.mem_values.mpr ⟨q.key, hreg⟩
        rw [hemptied.rotating] at hmem
        cases hmem
      obtain ⟨hpool, hrefills⟩ := rotate_of_not_registered hshape hq hnot hs
      exact hemptied.fewer hpool (.of_eq hrefills)
  | reset => exact Option.some.inj hs ▸ fun c hc hquiet => (h c hc hquiet).reset
  | closeBegin =>
      obtain rfl := Option.some.inj hs
      intro c hc hquiet
      rcases List.mem_append.mp hc with hc | hc
      · have hemptied := (h c hc hquiet).reset
        exact ⟨hemptied.contents, hemptied.refilling, hemptied.rotating, hemptied.known,
          hemptied.waited⟩
      · obtain rfl := List.mem_singleton.mp hc
        refine ⟨rfl, rfl, rfl, ?_, by rintro ⟨⟩⟩
        intro t r' hr' hne
        obtain ⟨r, hr, hne'⟩ := Fewer.reset s t r' hr' hne
        refine or_iff_not_imp_left.mpr fun hnot => ?_
        refine List.mem_filter.mpr ⟨List.mem_range.mpr (List.getElem?_eq_some_iff.mp hr).1, ?_⟩
        exact decide_eq_true ⟨hnot, r, hr, hne'⟩
  | closeEnd i =>
      obtain ⟨closer, hcloser, hs⟩ := Option.bind_eq_some_iff.mp hs
      split_ifs at hs with hall
      obtain rfl := Option.some.inj hs
      intro c hc hquiet
      rcases List.mem_or_eq_of_mem_set hc with hc | rfl
      · exact (h c hc hquiet).fewer rfl (.of_eq rfl)
      · have hemptied := h closer (List.mem_of_getElem? hcloser) hquiet
        exact ⟨hemptied.contents, hemptied.refilling, hemptied.rotating, hemptied.known,
          fun _ => hall.1⟩

/-- **Closing.**  In every run, every call of `close()` that has been left alone has emptied the
pool. -/
theorem Reaches.closers {cfg : ProxyConfig} (h : Reaches cfg s) : Closers s :=
  h.invariant (fun s hstart c hc => by rw [hstart.2.2.2.1] at hc; cases hc)
    fun _ _ _ hr h _ hs => h.step (Reaches.sound hr) hs

end TgWsProxy.Ws
