import TgWsProxy.Pool.Account
import TgWsProxy.Pool.WsShape

/-!
# Where the connections of the direct pool are

* `World.account`, `World.tally` — the places, and how often a connection lies anywhere.
* `Moved` — connections change places, and none appears, doubles or is lost.
* `Moved.refill`, `Moved.rotate`, … — every step of the pool is such a move but the end of a dial,
  which adds one connection.
* `Balanced.step` — hence the account stays balanced.
-/

namespace TgWsProxy.Ws

open Wire

/-- Where the connections are. -/
def World.account (s : World) : Account where
  dialled := s.dialled
  buckets := s.pool.idle.index.values.map fun b => (s.pool.idle.heap b).map Idle.ws
  held := s.refills.flatMap fun r => r.phase.held
  handed := s.handed
  closed := s.closed

/-- How often the connection `c` lies anywhere. -/
def World.tally (c : ℕ) (s : World) : ℕ :=
  s.pool.idle.contents.countP (fun e => e.ws == c) +
    (s.refills.flatMap fun r => r.phase.held).countP (· == c) + s.handed.countP (· == c) +
    s.closed.countP (· == c)

/-- Connections change places. -/
structure Moved (s s' : World) : Prop where
  dialled : s'.dialled = s.dialled
  closers : s'.closers = s.closers
  tally : ∀ c, s'.tally c = s.tally c

/-- Every connection lies in one place, and there are no others. -/
structure World.Balanced (s : World) : Prop where
  nodup : s.dialled.Nodup
  tally : ∀ c, s.tally c = s.dialled.countP (· == c)

variable {n t : ℕ} {s s' : World} {r r' : Refill}

lemma World.Balanced.move (h : s.Balanced) (hs : Moved s s') : s'.Balanced :=
  ⟨hs.dialled ▸ h.nodup, fun c => by rw [hs.tally, h.tally, hs.dialled]⟩

/-! ## One task -/

lemma tally_put (hr : s.refills[t]? = some r) (r' : Refill) (c : ℕ) :
    (s.put t r').tally c + r.phase.held.countP (· == c) =
      s.tally c + r'.phase.held.countP (· == c) := by
  have hset := countP_flatMap_set (fun r : Refill => r.phase.held) (· == c) r' hr
  unfold World.tally World.put
  simp only at hset ⊢
  omega

lemma tally_again {bucket connected : ℕ} {dials : List Dial} {todo adopted : List ℕ}
    (hr : s.refills[t]? = some r) (c : ℕ) :
    (s.again t r bucket connected dials todo adopted).tally c + r.phase.held.countP (· == c) =
      s.tally c + (unadopted dials adopted).countP (· == c) := by
  unfold World.again
  split_ifs
  · obtain ⟨f, a, hsettle⟩ := WsPool.settle_eq s.now r.key connected s.pool
    rw [hsettle]
    exact tally_put (s := { s with pool := { s.pool with refillFailures := f, refillAfter := a } })
      hr { r with phase := .cleaning dials adopted, cancelled := false } c
  · exact tally_put hr
      { r with phase := .dialling bucket connected dials todo adopted, cancelled := false } c

lemma dialled_again {bucket connected : ℕ} {dials : List Dial} {todo adopted : List ℕ} :
    (s.again t r bucket connected dials todo adopted).dialled = s.dialled := by
  unfold World.again
  split_ifs <;> rfl

lemma closers_again {bucket connected : ℕ} {dials : List Dial} {todo adopted : List ℕ} :
    (s.again t r bucket connected dials todo adopted).closers = s.closers := by
  unfold World.again
  split_ifs <;> rfl

/-- What a refill owns it owns once, and a dial returned it. -/
lemma World.Balanced.held (h : s.Balanced) (hr : s.refills[t]? = some r) :
    r.phase.held.Nodup ∧ r.phase.held ⊆ s.dialled := by
  have hle : ∀ c, r.phase.held.countP (· == c) ≤ s.dialled.countP (· == c) := by
    intro c
    have hput := tally_put hr { r with phase := .done } c
    have hnone : (Phase.done.held).countP (· == c) = 0 := rfl
    rw [← h.tally c]
    simp only [hnone] at hput
    omega
  constructor
  · rw [List.nodup_iff_count_le_one]
    exact fun c => (hle c).trans (List.nodup_iff_count_le_one.mp h.nodup c)
  · intro c hc
    exact List.count_pos_iff.mp ((List.count_pos_iff.mpr hc).trans_le (hle c))

namespace Moved

lemma refl (s : World) : Moved s s := ⟨rfl, rfl, fun _ => rfl⟩

lemma trans {u : World} (h : Moved s u) (h' : Moved u s') : Moved s s' :=
  ⟨h'.dialled.trans h.dialled, h'.closers.trans h.closers, fun c => (h'.tally c).trans (h.tally c)⟩

lemma of_eq (hidle : s'.pool.idle = s.pool.idle) (hrefills : s'.refills = s.refills)
    (hdialled : s'.dialled = s.dialled) (hhanded : s'.handed = s.handed)
    (hclosed : s'.closed = s.closed) (hclosers : s'.closers = s.closers) : Moved s s' :=
  ⟨hdialled, hclosers, fun c => by unfold World.tally; rw [hidle, hrefills, hhanded, hclosed]⟩

lemma setdefault (s : World) (key : Key) :
    Moved s { s with pool := { s.pool with idle := (s.pool.idle.setdefault key).2 } } :=
  ⟨rfl, rfl, fun c => by unfold World.tally; rw [Shelf.contents_setdefault]⟩

/-- A refill goes on with what it owns. -/
lemma put (hr : s.refills[t]? = some r) (hheld : r'.phase.held.Perm r.phase.held) :
    Moved s (s.put t r') := by
  refine ⟨rfl, rfl, fun c => ?_⟩
  have hput := tally_put hr r' c
  rw [hheld.countP_eq] at hput
  omega

lemma finish (hr : s.refills[t]? = some r) (hheld : r.phase.held = []) :
    Moved s (s.finish t r) := by
  have hidle : (s.pool.release r.key t).idle = s.pool.idle := by
    unfold WsPool.release
    split_ifs <;> rfl
  have hrelease : Moved s { s with pool := s.pool.release r.key t } :=
    .of_eq hidle rfl rfl rfl rfl rfl
  exact hrelease.trans (.put hr (hheld ▸ .nil))

/-- The next connection is closed. -/
lemma closeNext (hr : s.refills[t]? = some r) : Moved s (s.closeNext t r r.phase.held) := by
  cases hheld : r.phase.held with
  | nil => exact .finish hr hheld
  | cons ws rest =>
      refine ⟨rfl, rfl, fun c => ?_⟩
      have hput := tally_put (s := { s with closed := s.closed ++ [ws] }) hr
        { r with phase := .closing rest, cancelled := false } c
      unfold World.tally at hput ⊢
      rw [World.closeNext]
      rw [hheld, List.countP_cons] at hput
      simp only [List.countP_append, List.countP_singleton, Phase.held, World.put] at hput ⊢
      omega

lemma begin (n : ℕ) (hr : s.refills[t]? = some r) (hphase : r.phase = .created) :
    Moved s (s.begin n t r) := by
  have hheld : r.phase.held = [] := by rw [hphase]; rfl
  unfold World.begin
  simp only
  split_ifs
  · exact (setdefault s r.key).trans (.finish hr hheld)
  · refine (setdefault s r.key).trans (.put hr ?_)
    rw [hheld, Phase.held, unadopted_replicate]

/-- The result of a dial is handed out: a connection goes into the bucket. -/
lemma consume (h : Shape n s) (hb : s.Balanced) (hr : s.refills[t]? = some r)
    {bucket connected i : ℕ} {dials : List Dial} {todo adopted : List ℕ} {d : Dial}
    (hphase : r.phase = .dialling bucket connected dials (i :: todo) adopted)
    (hd : dials[i]? = some d) (hreg : s.pool.refilling.get? r.key = some t) :
    Moved s (s.consume t r bucket connected dials d todo adopted) := by
  have hheld : r.phase.held = unadopted dials adopted := by rw [hphase]; rfl
  have hkept := h.kept t r hr
  have hfits := (h.fits hr hreg).2
  rw [hphase] at hkept hfits
  have hagain : Moved s (s.again t r bucket connected dials todo adopted) := by
    refine ⟨dialled_again, closers_again, fun c => ?_⟩
    refine Nat.add_right_cancel ((tally_again hr c).trans ?_)
    rw [hheld]
  cases d with
  | pending => exact hagain
  | failed => exact hagain
  | returned ws =>
      have hready := hkept.2.1
      rw [Phase.Kept.ready_cons hd] at hready
      have hnodup : (unadopted dials adopted).Nodup := hheld ▸ (hb.held hr).1
      have hmem : ws ∈ unadopted dials adopted := hready.subset List.mem_cons_self
      have hsplit : (ws :: unadopted dials (ws :: adopted)).Perm (unadopted dials adopted) := by
        have herase : (unadopted dials adopted).filter (· ≠ ws) =
            (unadopted dials adopted).erase ws := by
          rw [hnodup.erase_eq_filter]
          exact List.filter_congr fun c _ => by rw [Bool.eq_iff_iff]; simp
        rw [unadopted_cons, herase]
        exact (List.perm_cons_erase hmem).symm
      unfold World.consume
      simp only [if_pos hreg]
      refine ⟨dialled_again, closers_again, fun c => ?_⟩
      have hbucket := Shelf.countP_modify s.pool.idle (fun e : Idle => e.ws == c)
        (Shelf.mem_values_of_get? hfits.1) (s.pool.idle.heap bucket ++ [⟨ws, s.now⟩])
      rw [List.countP_append, List.countP_singleton] at hbucket
      have hcount := hsplit.countP_eq (· == c)
      rw [List.countP_cons] at hcount
      refine Nat.add_right_cancel ((tally_again (by exact hr) c).trans ?_)
      rw [hheld]
      unfold World.tally
      simp only at hbucket ⊢
      omega

/-- The next step of a refill. -/
lemma refill (h : Shape n s) (hb : s.Balanced) (hr : s.refills[t]? = some r)
    (hs : s.refill n t r = some s') : Moved s s' := by
  have hcancel := h.not_registered_of_cancelled hr
  unfold World.refill at hs
  cases hphase : r.phase with
  | created =>
      simp only [hphase] at hs
      split_ifs at hs with hc
      · exact Option.some.inj hs ▸ .put hr (by rw [hphase]; exact .nil)
      · exact Option.some.inj hs ▸ .begin n hr hphase
  | dialling bucket connected dials todo adopted =>
      simp only [hphase] at hs
      split_ifs at hs with hc
      · exact Option.some.inj hs ▸ .put hr (by rw [hphase]; exact .refl _)
      · have hreg := h.refills.named_of_not_loose hr (by rw [Refill.Loose, hphase]; exact hc)
        cases todo with
        | nil => cases hs
        | cons i todo =>
            simp only at hs
            split at hs
            · cases hs
            · exact Option.some.inj hs ▸ .consume h hb hr hphase ‹_› hreg
  | cleaning dials adopted =>
      simp only [hphase] at hs
      split_ifs at hs with hpending hc
      · have hloose := h.refills.loose t r hr (hcancel hc)
        rw [Refill.Loose, hphase] at hloose
        refine Option.some.inj hs ▸ .put hr ?_
        have hnone : (Phase.cleaning dials adopted).held = [] := (hloose hc).2
        rw [hphase, hnone]
        exact .nil
      · have hheld : unadopted dials adopted = r.phase.held := by rw [hphase]; rfl
        exact Option.some.inj hs ▸ hheld ▸ .closeNext hr
  | closing rest =>
      simp only [hphase] at hs
      split_ifs at hs with hc
      · have hloose := h.refills.loose t r hr (hcancel hc)
        rw [Refill.Loose, hphase, hc] at hloose
        cases hloose
      · have hheld : rest = r.phase.held := by rw [hphase]; rfl
        exact Option.some.inj hs ▸ hheld ▸ .closeNext hr
  | done =>
      simp only [hphase] at hs
      cases hs

/-! ### The other steps -/

lemma scheduleRefill (s : World) (m : ℕ) (key : Key) : Moved s (s.scheduleRefill m key) := by
  have hrotation : Moved s (s.scheduleRotation key) := by
    unfold World.scheduleRotation
    split_ifs
    · exact .refl s
    · exact .of_eq rfl rfl rfl rfl rfl rfl
  unfold World.scheduleRefill
  simp only
  split_ifs
  · exact .refl s
  · exact hrotation
  · refine hrotation.trans ⟨rfl, rfl, fun c => ?_⟩
    unfold World.tally
    simp only [List.flatMap_append, List.flatMap_singleton, Phase.held, List.append_nil]

/-- Connections leave a bucket, to be handed out or closed. -/
lemma drain (s : World) (key : Key) (handed : List ℕ) {left : List Idle} {closed : List ℕ}
    (hsplit : (closed ++ handed ++ left.map Idle.ws).Perm
      (((s.pool.idle.setdefault key).2.heap (s.pool.idle.setdefault key).1).map Idle.ws)) :
    Moved s { s with
      pool := { s.pool with
        idle := (s.pool.idle.setdefault key).2.modify (s.pool.idle.setdefault key).1 left }
      handed := s.handed ++ handed
      closed := s.closed ++ closed } := by
  refine ⟨rfl, rfl, fun c => ?_⟩
  have hget := Shelf.get?_setdefault_self s.pool.idle key
  have hbucket := Shelf.countP_modify (s.pool.idle.setdefault key).2 (fun e : Idle => e.ws == c)
    (Shelf.mem_values_of_get? hget) left
  rw [Shelf.contents_setdefault] at hbucket
  have hcount := hsplit.countP_eq (· == c)
  rw [List.countP_append, List.countP_append, List.countP_map, List.countP_map] at hcount
  unfold World.tally
  rw [List.countP_append, List.countP_append]
  simp only [Function.comp_def] at hbucket hcount ⊢
  omega

lemma get (s : World) (cfg : ProxyConfig) (key : Key) (dead : List ℕ) :
    Moved s (s.get cfg key dead) := by
  unfold World.get
  split
  · exact .refl s
  · split_ifs
    · exact .refl s
    · have hsplit := popFresh_eq (isStale s.now dead)
        ((s.pool.idle.setdefault key).2.heap (s.pool.idle.setdefault key).1)
      have hsplit := congrArg (List.map Idle.ws) hsplit
      rw [List.map_append, List.map_append] at hsplit
      simp only
      split
      · next e he =>
          rw [he] at hsplit
          refine (drain s key [e.ws] (.of_eq hsplit)).trans ?_
          exact .scheduleRefill _ _ _
      · next he =>
          rw [he] at hsplit
          have hdrain := drain s key [] (.of_eq hsplit)
          rw [List.append_nil] at hdrain
          exact hdrain.trans (.scheduleRefill _ _ _)

lemma warmup (s : World) (cfg : ProxyConfig) : Moved s (s.warmup cfg) := by
  unfold World.warmup
  induction cfg.dcRedirects.entries generalizing s with
  | nil => exact .refl s
  | cons entry entries ih =>
      rw [List.foldl_cons]
      refine Moved.trans ?_ (ih _)
      split
      · exact .refl s
      · exact (scheduleRefill s _ _).trans (scheduleRefill _ _ _)

lemma releaseRotation (s : World) (key : Key) (t : ℕ) :
    Moved s { s with pool := s.pool.releaseRotation key t } := by
  refine .of_eq ?_ rfl rfl rfl rfl rfl
  show (s.pool.releaseRotation key t).idle = s.pool.idle
  unfold WsPool.releaseRotation
  split_ifs <;> rfl

lemma rotateRound (s : World) (n t : ℕ) (q : Rotation) (dead : List ℕ) :
    Moved s (s.rotateRound n t q dead) := by
  have hsplit := List.filter_append_perm (isStale s.now dead)
    ((s.pool.idle.setdefault q.key).2.heap (s.pool.idle.setdefault q.key).1)
  have hsplit := hsplit.map Idle.ws
  rw [List.map_append] at hsplit
  have hdrain := drain s q.key [] (by rw [List.append_nil]; exact hsplit)
  rw [List.append_nil] at hdrain
  unfold World.rotateRound
  simp only
  split_ifs
  · exact (hdrain.trans (.scheduleRefill _ _ _)).trans (.of_eq rfl rfl rfl rfl rfl rfl)
  · exact hdrain.trans (.of_eq rfl rfl rfl rfl rfl rfl)

lemma rotate {q : Rotation} {dead : List ℕ} (hs : s.rotate n t q dead = some s') : Moved s s' := by
  unfold World.rotate at hs
  split at hs
  · exact Option.some.inj hs ▸ .of_eq rfl rfl rfl rfl rfl rfl
  · exact Option.some.inj hs ▸ (releaseRotation s q.key t).trans (.of_eq rfl rfl rfl rfl rfl rfl)
  · cases hs
  · split_ifs at hs
    · exact Option.some.inj hs ▸ (releaseRotation s q.key t).trans (.of_eq rfl rfl rfl rfl rfl rfl)
    · exact Option.some.inj hs ▸ rotateRound s n t q dead

lemma reset (s : World) : Moved s s.reset := by
  refine ⟨rfl, rfl, fun c => ?_⟩
  have hheld : (s.reset.refills.flatMap fun r => r.phase.held) =
      s.refills.flatMap fun r => r.phase.held := by
    unfold World.reset
    rw [List.flatMap_def, List.flatMap_def]
    congr 1
    refine List.ext_getElem? fun t => ?_
    rw [List.getElem?_map, List.getElem?_mapIdx, List.getElem?_map, Option.map_map]
    congr 1
    funext r
    simp only [Function.comp_apply]
    split_ifs <;> rfl
  have hmap : s.pool.idle.contents.countP (fun e => e.ws == c) =
      (s.pool.idle.contents.map Idle.ws).countP (· == c) := by
    rw [List.countP_map]
    rfl
  unfold World.tally
  rw [hheld, hmap]
  simp only [World.reset, WsPool.clear, Shelf.contents_clear, List.countP_nil,
    List.countP_append]
  omega

end Moved

/-- The end of a dial adds the connection that it ends with. -/
lemma World.Balanced.dial (hb : s.Balanced) (h : Shape n s) (hr : s.refills[t]? = some r) {i : ℕ}
    {result : Option ℕ} (hs : s.dial t i result r = some s') : s'.Balanced := by
  have hkept := h.kept t r hr
  unfold World.dial at hs
  split_ifs at hs with hknown
  have hfresh : ∀ ws ∈ result, ws ∉ s.dialled := fun ws hws hmem => hknown ⟨ws, hws, hmem⟩
  have hended : ∀ {adopted : List ℕ}, adopted ⊆ s.dialled →
      unadopted [Dial.ended result] adopted = result.toList := by
    intro adopted hadopted
    cases result with
    | none => rfl
    | some ws =>
        have hws : ws ∉ adopted := fun ha => hfresh ws rfl (hadopted ha)
        simp [unadopted, Dial.ended, hws]
  -- Refill `t` owns what the dial ended with on top of what it owned.
  have hadd : ∀ r' : Refill, r'.phase.held.Perm (r.phase.held ++ result.toList) →
      World.Balanced ({ s with dialled := s.dialled ++ result.toList }.put t r') := by
    intro r' hheld
    refine ⟨?_, fun c => ?_⟩
    · refine List.nodup_append.mpr ⟨hb.nodup, ?_, ?_⟩
      · cases result <;> simp
      · rintro c hc _ hc' rfl
        exact hfresh c (Option.mem_toList.mp hc') hc
    · have hput := tally_put (s := { s with dialled := s.dialled ++ result.toList }) hr r' c
      have htally := hb.tally c
      rw [hheld.countP_eq, List.countP_append] at hput
      unfold World.tally at hput htally ⊢
      simp only [World.put, List.countP_append] at hput htally ⊢
      omega
  cases hphase : r.phase with
  | dialling bucket connected dials todo adopted =>
      simp only [hphase] at hs
      split_ifs at hs with hi
      rw [hphase] at hkept hadd
      refine Option.some.inj hs ▸ hadd _ ?_
      rw [← hended hkept.2.2]
      exact unadopted_set hi _ _
  | cleaning dials adopted =>
      simp only [hphase] at hs
      split_ifs at hs with hi
      rw [hphase] at hkept hadd
      refine Option.some.inj hs ▸ hadd _ ?_
      rw [← hended hkept]
      exact unadopted_set hi _ _
  | created => simp [hphase] at hs
  | closing rest => simp [hphase] at hs
  | done => simp [hphase] at hs

/-! ## Runs -/

/-- The states of the runs of a pool. -/
def Reaches (cfg : ProxyConfig) (s : World) : Prop :=
  Reachable Starting (World.step cfg) Always s

/-- The shape of the tasks and the balance of the connections, which carry each other. -/
structure Sound (poolSize : ℕ) (s : World) : Prop where
  shape : Shape poolSize s
  balanced : s.Balanced

lemma Starting.sound (h : Starting s) (n : ℕ) : Sound n s := by
  obtain ⟨hpool, hrefills, hrotations, hclosers, hdialled, hhanded, hclosed⟩ := h
  refine ⟨⟨?_, ?_, ?_, ?_⟩, ?_, ?_⟩
  · simp [hrefills]
  · rw [hpool, hrefills]
    exact .nil
  · rw [hpool, hrotations]
    exact .nil
  · rw [hpool]
    exact nofun
  · rw [hdialled]
    exact List.nodup_nil
  · intro c
    simp [World.tally, hpool, hrefills, hdialled, hhanded, hclosed, WsPool.new]

lemma Sound.account (h : Sound n s) : s.account.Balanced n := by
  refine Account.balanced_of_count h.balanced.nodup (fun c => ?_) fun b hb => ?_
  · have hflat : s.account.buckets.flatten = s.pool.idle.contents.map Idle.ws := by
      rw [Shelf.contents, List.map_flatMap, List.flatMap_def]
      rfl
    have htally := h.balanced.tally c
    rw [hflat, List.count, List.countP_map]
    exact htally
  · obtain ⟨d, hd, rfl⟩ := List.mem_map.mp hb
    obtain ⟨k, hk⟩ := Dict.mem_values.mp hd
    rw [List.length_map]
    exact h.shape.small k d hk

lemma Sound.step {cfg : ProxyConfig} {e : Event} (h : Sound cfg.poolSize s)
    (hs : World.step cfg e s = some s') : Sound cfg.poolSize s' := by
  obtain ⟨hshape, hb⟩ := h
  cases e with
  | tick now =>
      simp only [World.step] at hs
      split_ifs at hs
      exact Option.some.inj hs ▸
        ⟨hshape.of_eq rfl rfl rfl rfl rfl rfl, hb.move (.of_eq rfl rfl rfl rfl rfl rfl)⟩
  | get dc isMedia isTestDc dead =>
      have hquiet : Shape cfg.poolSize s.disturb := hshape.of_eq rfl rfl rfl rfl rfl rfl
      have hb' : s.disturb.Balanced := ⟨hb.nodup, hb.tally⟩
      exact Option.some.inj hs ▸ ⟨hquiet.get _ _, hb'.move (.get _ _ _ _)⟩
  | warmup =>
      have hquiet : Shape cfg.poolSize s.disturb := hshape.of_eq rfl rfl rfl rfl rfl rfl
      have hb' : s.disturb.Balanced := ⟨hb.nodup, hb.tally⟩
      exact Option.some.inj hs ▸ ⟨hquiet.warmup _, hb'.move (.warmup _ _)⟩
  | refill t =>
      obtain ⟨r, hr, hs⟩ := Option.bind_eq_some_iff.mp hs
      exact ⟨hshape.refill hr (hb.held hr) hs, hb.move (.refill hshape hb hr hs)⟩
  | dial t i result =>
      obtain ⟨r, hr, hs⟩ := Option.bind_eq_some_iff.mp hs
      exact ⟨hshape.dial hr hs, hb.dial hshape hr hs⟩
  | rotate t dead =>
      obtain ⟨q, hq, hs⟩ := Option.bind_eq_some_iff.mp hs
      exact ⟨hshape.rotate hq hs, hb.move (.rotate hs)⟩
  | reset => exact Option.some.inj hs ▸ ⟨hshape.reset, hb.move (.reset s)⟩
  | closeBegin =>
      have hb' := hb.move (.reset s)
      exact Option.some.inj hs ▸
        ⟨hshape.reset.of_eq rfl rfl rfl rfl rfl rfl, hb'.nodup, hb'.tally⟩
  | closeEnd c =>
      obtain ⟨closer, -, hs⟩ := Option.bind_eq_some_iff.mp hs
      split_ifs at hs
      exact Option.some.inj hs ▸
        ⟨hshape.of_eq rfl rfl rfl rfl rfl rfl, hb.nodup, hb.tally⟩

/-- The connections of a pool are accounted for in every run. -/
theorem Reaches.sound {cfg : ProxyConfig} (h : Reaches cfg s) : Sound cfg.poolSize s :=
  h.invariant (fun _ hstart => hstart.sound _) fun _ _ _ _ h _ hs => h.step hs

end TgWsProxy.Ws
