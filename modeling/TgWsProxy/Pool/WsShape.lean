import TgWsProxy.Pool.WsPool

/-!
# The tasks of the direct pool against its maps

* `Phase.Kept` — the dials of a refill against what it has adopted.
* `Phase.Fits`, `Refill.Loose` — a refill that is registered, and one that is not.
* `Shape` — the tasks against the registries and the buckets.
* `Shape.refill`, `Shape.dial`, `Shape.rotate`, `Shape.reset`, … — every operation keeps it.
-/

namespace TgWsProxy.Ws

open Wire

/-! ## The dials of a refill -/

/-- The connections among the results that are still to be handed out. -/
def ready (dials : List Dial) (todo : List ℕ) : List ℕ :=
  todo.filterMap fun i =>
    match dials[i]? with
    | some (Dial.returned ws) => some ws
    | _ => none

/-- What is still to be handed out has ended, and of the connections that have come in, those that
are still to be handed out are the ones that are not adopted. -/
def Phase.Kept (dialled : List ℕ) : Phase → Prop
  | .dialling _ _ dials todo adopted =>
      (∀ i ∈ todo, dials[i]? ≠ some .pending) ∧
        (ready dials todo).Perm (unadopted dials adopted) ∧ adopted ⊆ dialled
  | .cleaning _ adopted => adopted ⊆ dialled
  | _ => True

lemma unadopted_append (l l' : List Dial) (adopted : List ℕ) :
    unadopted (l ++ l') adopted = unadopted l adopted ++ unadopted l' adopted :=
  List.filterMap_append

/-- A dial ends. -/
lemma unadopted_set {dials : List Dial} {i : ℕ} (h : dials[i]? = some .pending) (d : Dial)
    (adopted : List ℕ) : (unadopted (dials.set i d) adopted).Perm
      (unadopted dials adopted ++ unadopted [d] adopted) := by
  obtain ⟨hi, hget⟩ := List.getElem?_eq_some_iff.mp h
  have hsplit : dials = dials.take i ++ [.pending] ++ dials.drop (i + 1) := by
    rw [List.append_assoc, List.singleton_append, ← hget, ← List.drop_eq_getElem_cons hi,
      List.take_append_drop]
  have hset : dials.set i d = dials.take i ++ [d] ++ dials.drop (i + 1) := by
    rw [List.set_eq_take_append_cons_drop, if_pos hi, List.append_assoc, List.singleton_append]
  have hold := congrArg (unadopted · adopted) hsplit
  simp only [unadopted_append] at hold
  have hpending : unadopted [.pending] adopted = [] := rfl
  rw [hset, unadopted_append, unadopted_append, hold, hpending, List.append_nil,
    List.append_assoc, List.append_assoc]
  exact (List.perm_append_comm).append_left _

/-- What is adopted is not to be closed any more. -/
lemma unadopted_cons (dials : List Dial) (ws : ℕ) (adopted : List ℕ) :
    unadopted dials (ws :: adopted) = (unadopted dials adopted).filter (· ≠ ws) := by
  induction dials with
  | nil => rfl
  | cons d dials ih =>
      have hsplit : ∀ a, unadopted (d :: dials) a = unadopted [d] a ++ unadopted dials a :=
        unadopted_append [d] dials
      rw [hsplit, hsplit adopted, List.filter_append, ih]
      congr 1
      cases d with
      | pending => rfl
      | failed => rfl
      | returned ws' =>
          by_cases hws : ws' = ws <;> by_cases ha : ws' ∈ adopted <;> simp [unadopted, hws, ha]

lemma ready_set {dials : List Dial} {i : ℕ} {todo : List ℕ} (h : dials[i]? = some .pending)
    (hended : ∀ j ∈ todo, dials[j]? ≠ some .pending) (d : Dial) :
    ready (dials.set i d) todo = ready dials todo := by
  refine List.filterMap_congr fun j hj => ?_
  have hne : i ≠ j := by
    rintro rfl
    exact hended _ hj h
  rw [List.getElem?_set_ne hne]

lemma unadopted_replicate (n : ℕ) (adopted : List ℕ) :
    unadopted (.replicate n .pending) adopted = [] := by
  induction n with
  | zero => rfl
  | succ n ih => exact ih

namespace Phase.Kept

variable {dialled : List ℕ} {bucket connected i : ℕ} {dials : List Dial} {todo adopted : List ℕ}

/-- A dial ends while the loop is on, with a connection that no dial has returned before. -/
lemma returned (h : (dialling bucket connected dials todo adopted).Kept dialled)
    (hi : dials[i]? = some .pending) {result : Option ℕ} (hfresh : ∀ ws ∈ result, ws ∉ dialled) :
    (dialling bucket connected (dials.set i (.ended result)) (todo ++ [i]) adopted).Kept
      (dialled ++ result.toList) := by
  obtain ⟨hended, hready, hadopted⟩ := h
  generalize hd : Dial.ended result = d
  obtain ⟨hlt, -⟩ := List.getElem?_eq_some_iff.mp hi
  have hself : (dials.set i d)[i]? = some d := List.getElem?_set_self hlt
  have hlast : ready (dials.set i d) [i] = unadopted [d] adopted := by
    cases result with
    | none =>
        subst hd
        simp only [Dial.ended] at hself ⊢
        simp [ready, unadopted, hself]
    | some ws =>
        subst hd
        have hws : ws ∉ adopted := fun ha => hfresh ws rfl (hadopted ha)
        simp only [Dial.ended] at hself ⊢
        simp [ready, unadopted, hself, hws]
  refine ⟨?_, ?_, List.Subset.trans hadopted (List.subset_append_left _ _)⟩
  · intro j hj
    rcases List.mem_append.mp hj with hj | hj
    · have hne : i ≠ j := by
        rintro rfl
        exact hended _ hj hi
      rw [List.getElem?_set_ne hne]
      exact hended j hj
    · rw [List.mem_singleton.mp hj, hself, ← hd]
      cases result <;> simp [Dial.ended]
  · have happend : ready (dials.set i d) (todo ++ [i]) =
        ready dials todo ++ unadopted [d] adopted := by
      rw [← hlast, ← ready_set hi hended d]
      exact List.filterMap_append
    rw [happend]
    exact (hready.append_right _).trans (unadopted_set hi d adopted).symm

/-- The result of a dial that has no connection is handed out. -/
lemma skip (h : (dialling bucket connected dials (i :: todo) adopted).Kept dialled) {d : Dial}
    (hi : dials[i]? = some d) (hd : ∀ ws, d ≠ .returned ws) (connected' : ℕ) :
    (dialling bucket connected' dials todo adopted).Kept dialled := by
  obtain ⟨hended, hready, hadopted⟩ := h
  refine ⟨fun j hj => hended j (List.mem_cons_of_mem _ hj), ?_, hadopted⟩
  have hcons : ready dials (i :: todo) = ready dials todo := by
    cases d with
    | returned ws => exact absurd rfl (hd ws)
    | pending => simp [ready, hi]
    | failed => simp [ready, hi]
  exact hcons ▸ hready

lemma ready_cons {ws : ℕ} (hi : dials[i]? = some (.returned ws)) :
    ready dials (i :: todo) = ws :: ready dials todo := by
  simp [ready, hi]

/-- A connection is handed out and adopted. -/
lemma adopt (h : (dialling bucket connected dials (i :: todo) adopted).Kept dialled) {ws : ℕ}
    (hi : dials[i]? = some (.returned ws)) (hws : ws ∈ dialled)
    (hnodup : (unadopted dials adopted).Nodup) (connected' : ℕ) :
    (dialling bucket connected' dials todo (ws :: adopted)).Kept dialled := by
  obtain ⟨hended, hready, hadopted⟩ := h
  refine ⟨fun j hj => hended j (List.mem_cons_of_mem _ hj), ?_,
      List.cons_subset.mpr ⟨hws, hadopted⟩⟩
  rw [ready_cons hi] at hready
  have hnot : ws ∉ ready dials todo := by
    have hcons := hready.nodup_iff.mpr hnodup
    exact (List.nodup_cons.mp hcons).1
  have hfilter : (ready dials todo).filter (· ≠ ws) = ready dials todo := by
    rw [List.filter_eq_self]
    intro c hc
    have hne : c ≠ ws := by
      rintro rfl
      exact hnot hc
    simpa using hne
  rw [unadopted_cons]
  have hperm := hready.filter (· ≠ ws)
  rw [List.filter_cons_of_neg (by simp), hfilter] at hperm
  exact hperm

/-- Behind the loop every connection is adopted. -/
lemma nothing_left (h : (dialling bucket connected dials [] adopted).Kept dialled) :
    unadopted dials adopted = [] :=
  h.2.1.symm.eq_nil

end Phase.Kept

lemma Phase.Kept.mono {p : Phase} {dialled dialled' : List ℕ} (h : p.Kept dialled)
    (hle : dialled ⊆ dialled') : p.Kept dialled' := by
  cases p with
  | dialling bucket connected dials todo adopted =>
      exact ⟨h.1, h.2.1, List.Subset.trans h.2.2 hle⟩
  | cleaning dials adopted => exact List.Subset.trans h hle
  | _ => trivial

/-! ## The buckets -/

/-- The loop of `get` splits the bucket. -/
lemma popFresh_eq (stale : Idle → Bool) : ∀ bucket : List Idle,
    (popFresh stale bucket).1 ++ (popFresh stale bucket).2.1.toList ++
      (popFresh stale bucket).2.2 = bucket
  | [] => rfl
  | e :: bucket => by
      have ih := popFresh_eq stale bucket
      unfold popFresh
      split_ifs
      · exact congrArg (e :: ·) ih
      · rfl

lemma popFresh_length (stale : Idle → Bool) (bucket : List Idle) :
    (popFresh stale bucket).2.2.length ≤ bucket.length := by
  have hlen := congrArg List.length (popFresh_eq stale bucket)
  rw [List.length_append] at hlen
  omega

/-! ## The registries -/

/-- A refill that is registered under `key`: the bucket that it fills is the one of the key, and
has room for every dial that may still end with a connection; behind the loop it owns nothing. -/
def Phase.Fits (poolSize : ℕ) (idle : Shelf Key Idle) (key : Key) : Phase → Prop
  | .created => True
  | .dialling bucket _ dials todo _ => idle.get? key = some bucket ∧
      (idle.heap bucket).length + dials.count .pending + todo.length ≤ poolSize
  | .cleaning dials adopted => .pending ∉ dials ∧ unadopted dials adopted = []
  | _ => False

/-- A refill that is not registered: it is about to be cancelled before it can touch a bucket, or
cleans up undisturbed. -/
def Refill.Loose (r : Refill) : Prop :=
  match r.phase with
  | .created => r.cancelled = true
  | .dialling .. => r.cancelled = true
  | .cleaning dials adopted =>
      r.cancelled = true → .pending ∉ dials ∧ unadopted dials adopted = []
  | .closing _ => r.cancelled = false
  | .done => True

/-- The tasks against the registries and the buckets. -/
structure Shape (poolSize : ℕ) (s : World) : Prop where
  kept : ∀ (t : ℕ) (r : Refill), s.refills[t]? = some r → r.phase.Kept s.dialled
  refills : Enrolled Refill.key
    (fun r => r.cancelled = false ∧ r.phase.Fits poolSize s.pool.idle r.key) Refill.Loose
    s.pool.refilling s.refills
  rotations : Enrolled Rotation.key (fun _ => True) (fun q => q.cancelled = true ∨ q.turn = .done)
    s.pool.rotating s.rotations
  small : ∀ k b, s.pool.idle.get? k = some b → (s.pool.idle.heap b).length ≤ poolSize

lemma Phase.Fits.mono {poolSize : ℕ} {idle idle' : Shelf Key Idle} {key : Key} {p : Phase}
    (h : p.Fits poolSize idle key)
    (hle : ∀ b, idle.get? key = some b →
      idle'.get? key = some b ∧ (idle'.heap b).length ≤ (idle.heap b).length) :
    p.Fits poolSize idle' key := by
  cases p with
  | dialling bucket connected dials todo adopted =>
      obtain ⟨hget, hroom⟩ := h
      obtain ⟨hget', hlen⟩ := hle bucket hget
      exact ⟨hget', by omega⟩
  | _ => exact h

namespace Shape

variable {n t : ℕ} {s s' : World} {r r' : Refill}

/-- The shape reads the buckets, the registries and the tasks. -/
lemma of_eq (h : Shape n s) (hidle : s'.pool.idle = s.pool.idle)
    (hrefilling : s'.pool.refilling = s.pool.refilling)
    (hrotating : s'.pool.rotating = s.pool.rotating) (hrefills : s'.refills = s.refills)
    (hrotations : s'.rotations = s.rotations) (hdialled : s'.dialled = s.dialled) :
    Shape n s' := by
  refine ⟨?_, ?_, ?_, ?_⟩
  · rw [hrefills, hdialled]
    exact h.kept
  · rw [hrefilling, hrefills, hidle]
    exact h.refills
  · rw [hrotations, hrotating]
    exact h.rotations
  · rw [hidle]
    exact h.small

lemma fits (h : Shape n s) (hr : s.refills[t]? = some r)
    (hreg : s.pool.refilling.get? r.key = some t) :
    r.cancelled = false ∧ r.phase.Fits n s.pool.idle r.key :=
  h.refills.of_named hr hreg

/-- Only a reset cancels a refill. -/
lemma not_registered_of_cancelled (h : Shape n s) (hr : s.refills[t]? = some r)
    (hc : r.cancelled = true) : s.pool.refilling.get? r.key ≠ some t := by
  intro hreg
  rw [(h.fits hr hreg).1] at hc
  cases hc

lemma kept_set (h : Shape n s) (t : ℕ) (hkept : r'.phase.Kept s.dialled) (u : ℕ) (q : Refill)
    (hq : (s.refills.set t r')[u]? = some q) : q.phase.Kept s.dialled := by
  rw [List.getElem?_set] at hq
  split_ifs at hq with hut
  · exact Option.some.inj hq ▸ hkept
  · exact h.kept u q hq

/-- Refill `t` moves on, and with it its own bucket. -/
lemma update (h : Shape n s) (hr : s.refills[t]? = some r) {i : Shelf Key Idle}
    (hkey : r'.key = r.key) (hkept : r'.phase.Kept s.dialled)
    (hget : ∀ k b, s.pool.refilling.get? k ≠ some t → s.pool.idle.get? k = some b →
      i.get? k = some b ∧ (i.heap b).length ≤ (s.pool.idle.heap b).length)
    (hsmall : ∀ k b, i.get? k = some b → (i.heap b).length ≤ n)
    (hfits : s.pool.refilling.get? r.key = some t →
      r'.cancelled = false ∧ r'.phase.Fits n i r.key)
    (hloose : s.pool.refilling.get? r.key ≠ some t → r'.Loose) :
    Shape n ({ s with pool := { s.pool with idle := i } }.put t r') := by
  refine ⟨h.kept_set t hkept, h.refills.update hr hkey ?_ (fun hreg => ?_) hloose, h.rotations,
    hsmall⟩
  · intro u q hut hq hreg hfits'
    refine ⟨hfits'.1, hfits'.2.mono fun b hb => hget q.key b (fun hreg' => hut ?_) hb⟩
    exact Option.some.inj (hreg.symm.trans hreg')
  · exact hkey ▸ hfits hreg

/-- Refill `t` moves on. -/
lemma put (h : Shape n s) (hr : s.refills[t]? = some r) (hkey : r'.key = r.key)
    (hkept : r'.phase.Kept s.dialled)
    (hfits : s.pool.refilling.get? r.key = some t →
      r'.cancelled = false ∧ r'.phase.Fits n s.pool.idle r.key)
    (hloose : s.pool.refilling.get? r.key ≠ some t → r'.Loose) : Shape n (s.put t r') :=
  h.update hr (i := s.pool.idle) hkey hkept (fun _ _ _ hb => ⟨hb, le_rfl⟩) h.small hfits hloose

/-- The buckets lose connections, or a new one is opened. -/
lemma withIdle (h : Shape n s) {idle : Shelf Key Idle}
    (hget : ∀ k b, s.pool.idle.get? k = some b →
      idle.get? k = some b ∧ (idle.heap b).length ≤ (s.pool.idle.heap b).length)
    (hnew : ∀ k b, idle.get? k = some b → s.pool.idle.get? k = some b ∨ idle.heap b = []) :
    Shape n { s with pool := { s.pool with idle := idle } } := by
  refine ⟨h.kept, h.refills.imp ?_, h.rotations, ?_⟩
  · rintro u q - - ⟨hcancelled, hfits⟩
    exact ⟨hcancelled, hfits.mono (hget q.key)⟩
  · intro k b hb
    rcases hnew k b hb with hold | hnil
    · exact (hget k b hold).2.trans (h.small k b hold)
    · show (idle.heap b).length ≤ n
      rw [hnil]
      exact Nat.zero_le n

lemma setdefault (h : Shape n s) (key : Key) :
    Shape n { s with pool := { s.pool with idle := (s.pool.idle.setdefault key).2 } } := by
  refine h.withIdle (fun k b hb => ?_) fun k b hb => Shelf.get?_of_setdefault hb
  obtain ⟨hget, hheap⟩ := Shelf.setdefault_of_get? key hb
  exact ⟨hget, by rw [hheap]⟩

lemma modify (h : Shape n s) {b : ℕ} {l : List Idle} (hl : l.length ≤ (s.pool.idle.heap b).length) :
    Shape n { s with pool := { s.pool with idle := s.pool.idle.modify b l } } := by
  refine h.withIdle (fun k d hd => ⟨hd, ?_⟩) fun k d hd => Or.inl hd
  by_cases hbd : d = b
  · subst hbd
    rw [Shelf.heap_modify_self]
    exact hl
  · rw [Shelf.heap_modify_of_ne _ hbd]

/-! ### New tasks -/

lemma scheduleRotation (h : Shape n s) (key : Key) : Shape n (s.scheduleRotation key) := by
  unfold World.scheduleRotation
  split_ifs with hkey
  · exact h
  · exact ⟨h.kept, h.refills, h.rotations.append (r := ⟨key, .created, false⟩) hkey
      trivial, h.small⟩

lemma scheduleRefill (h : Shape n s) (m : ℕ) (key : Key) : Shape n (s.scheduleRefill m key) := by
  have hrotation := h.scheduleRotation key
  unfold World.scheduleRefill
  simp only
  split_ifs with hm hkey
  · exact h
  · exact hrotation
  · have hrefill : (⟨key, .created, false⟩ : Refill).cancelled = false ∧
        Phase.Fits n (s.scheduleRotation key).pool.idle key .created := ⟨rfl, trivial⟩
    refine ⟨?_, hrotation.refills.append (r := ⟨key, .created, false⟩) (fun hmem => ?_) hrefill,
      hrotation.rotations, hrotation.small⟩
    · intro u q hq
      rcases getElem?_concat.mp hq with hq | ⟨-, rfl⟩
      · exact hrotation.kept u q hq
      · trivial
    · exact hkey (Or.inl hmem)

/-! ### The steps of a refill -/

lemma finish (h : Shape n s) (hr : s.refills[t]? = some r) : Shape n (s.finish t r) := by
  have hreleased := h.refills.release hr { r with phase := .done, cancelled := false } rfl
    (fun _ _ _ _ _ hfits => hfits) trivial
  unfold World.finish WsPool.release
  split_ifs at hreleased ⊢
  · exact ⟨h.kept_set t trivial, hreleased, h.rotations, h.small⟩
  · exact ⟨h.kept_set t trivial, hreleased, h.rotations, h.small⟩

lemma closeNext (h : Shape n s) (hr : s.refills[t]? = some r) (l : List ℕ)
    (hl : s.pool.refilling.get? r.key = some t → l = []) : Shape n (s.closeNext t r l) := by
  cases l with
  | nil => exact h.finish hr
  | cons ws rest =>
      have hclosed : Shape n { s with closed := s.closed ++ [ws] } :=
        h.of_eq rfl rfl rfl rfl rfl rfl
      refine hclosed.put hr rfl trivial (fun hreg => ?_) fun _ => rfl
      cases hl hreg

/-- The loop of a registered refill goes round. -/
lemma again (h : Shape n s) (hr : s.refills[t]? = some r) {i : Shelf Key Idle}
    {bucket connected : ℕ} {dials : List Dial} {todo adopted : List ℕ}
    (hreg : s.pool.refilling.get? r.key = some t)
    (hkept : (Phase.dialling bucket connected dials todo adopted).Kept s.dialled)
    (hget : ∀ k b, s.pool.refilling.get? k ≠ some t → s.pool.idle.get? k = some b →
      i.get? k = some b ∧ (i.heap b).length ≤ (s.pool.idle.heap b).length)
    (hsmall : ∀ k b, i.get? k = some b → (i.heap b).length ≤ n)
    (hfits : (Phase.dialling bucket connected dials todo adopted).Fits n i r.key) :
    Shape n ({ s with pool := { s.pool with idle := i } }.again t r bucket connected dials todo
      adopted) := by
  unfold World.again
  split_ifs with hend
  · obtain ⟨rfl, hpending⟩ := hend
    have hclean : Shape n ({ s with pool := { s.pool with idle := i } }.put t
        { r with phase := .cleaning dials adopted, cancelled := false }) :=
      h.update hr rfl hkept.2.2 hget hsmall (fun _ => ⟨rfl, hpending, hkept.nothing_left⟩)
        fun hloose => absurd hreg hloose
    obtain ⟨f, a, hsettle⟩ := WsPool.settle_eq s.now r.key connected { s.pool with idle := i }
    rw [hsettle]
    exact hclean.of_eq rfl rfl rfl rfl rfl rfl
  · exact h.update hr rfl hkept hget hsmall (fun _ => ⟨rfl, hfits⟩) fun hloose => absurd hreg hloose

lemma begin (h : Shape n s) (hr : s.refills[t]? = some r)
    (hreg : s.pool.refilling.get? r.key = some t) : Shape n (s.begin n t r) := by
  have hidle := h.setdefault r.key
  unfold World.begin
  simp only
  split_ifs with hneeded
  · exact hidle.finish hr
  · refine hidle.put hr rfl ?_ (fun _ => ⟨(h.fits hr hreg).1, ?_, ?_⟩)
      fun hloose => absurd hreg hloose
    · refine ⟨nofun, ?_, nofun⟩
      rw [unadopted_replicate]
      exact .nil
    · exact Shelf.get?_setdefault_self _ _
    · rw [List.count_replicate_self, List.length_nil]
      simp only at hneeded ⊢
      omega

lemma consume (h : Shape n s) (hr : s.refills[t]? = some r) {bucket connected i : ℕ}
    {dials : List Dial} {todo adopted : List ℕ} {d : Dial}
    (hphase : r.phase = .dialling bucket connected dials (i :: todo) adopted)
    (hd : dials[i]? = some d) (hreg : s.pool.refilling.get? r.key = some t)
    (hheld : r.phase.held.Nodup ∧ r.phase.held ⊆ s.dialled) :
    Shape n (s.consume t r bucket connected dials d todo adopted) := by
  have hkept := h.kept t r hr
  have hfits := (h.fits hr hreg).2
  rw [hphase] at hkept hfits hheld
  obtain ⟨hget, hroom⟩ := hfits
  rw [List.length_cons] at hroom
  have hskip : (∀ ws, d ≠ .returned ws) → Shape n (s.again t r bucket connected dials todo
      adopted) := by
    intro hnot
    exact h.again hr (i := s.pool.idle) hreg (hkept.skip hd hnot connected)
      (fun _ _ _ hb => ⟨hb, le_rfl⟩) h.small ⟨hget, by omega⟩
  cases d with
  | pending => exact hskip nofun
  | failed => exact hskip nofun
  | returned ws =>
      have hws : ws ∈ unadopted dials adopted := by
        refine hkept.2.1.subset ?_
        rw [Phase.Kept.ready_cons hd]
        exact List.mem_cons_self
      unfold World.consume
      simp only [if_pos hreg]
      have hlen : (s.pool.idle.heap bucket ++ [(⟨ws, s.now⟩ : Idle)]).length =
          (s.pool.idle.heap bucket).length + 1 := List.length_append
      refine h.again hr hreg (hkept.adopt hd (hheld.2 hws) hheld.1 _) ?_ ?_ ⟨hget, ?_⟩
      · intro k b hk hb
        have hne : b ≠ bucket := by
          rintro rfl
          exact hk (Shelf.key_unique hb hget ▸ hreg)
        exact ⟨hb, by rw [Shelf.heap_modify_of_ne _ hne]⟩
      · intro k b hb
        by_cases hne : b = bucket
        · subst hne
          rw [Shelf.heap_modify_self, hlen]
          omega
        · rw [Shelf.heap_modify_of_ne _ hne]
          exact h.small k b hb
      · rw [Shelf.heap_modify_self, hlen]
        omega

/-- The next step of a refill. -/
lemma refill (h : Shape n s) (hr : s.refills[t]? = some r)
    (hheld : r.phase.held.Nodup ∧ r.phase.held ⊆ s.dialled) (hs : s.refill n t r = some s') :
    Shape n s' := by
  have hkept := h.kept t r hr
  have hdone : (s.pool.refilling.get? r.key ≠ some t) →
      Shape n (s.put t { r with phase := .done, cancelled := false }) := by
    intro hnot
    exact h.put hr rfl trivial (fun hreg' => absurd hreg' hnot) fun _ => trivial
  have hcancel := h.not_registered_of_cancelled hr
  unfold World.refill at hs
  cases hphase : r.phase with
  | created =>
      simp only [hphase] at hs
      split_ifs at hs with hc
      · exact Option.some.inj hs ▸ hdone (hcancel hc)
      · refine Option.some.inj hs ▸ h.begin hr (h.refills.named_of_not_loose hr ?_)
        rw [Refill.Loose, hphase]
        exact hc
  | dialling bucket connected dials todo adopted =>
      simp only [hphase] at hs
      rw [hphase] at hkept
      split_ifs at hs with hc
      · refine Option.some.inj hs ▸ h.put hr rfl hkept.2.2 (fun hreg' => ?_) fun _ => nofun
        exact absurd hreg' (hcancel hc)
      · have hreg := h.refills.named_of_not_loose hr (by rw [Refill.Loose, hphase]; exact hc)
        cases todo with
        | nil => cases hs
        | cons i todo =>
            simp only at hs
            split at hs
            · cases hs
            · exact Option.some.inj hs ▸ h.consume hr hphase ‹_› hreg hheld
  | cleaning dials adopted =>
      simp only [hphase] at hs
      split_ifs at hs with hpending hc
      · exact Option.some.inj hs ▸ hdone (hcancel hc)
      · refine Option.some.inj hs ▸ h.closeNext hr _ fun hreg' => ?_
        have hfits := (h.fits hr hreg').2
        rw [hphase] at hfits
        exact hfits.2
  | closing rest =>
      simp only [hphase] at hs
      split_ifs at hs with hc
      · exact Option.some.inj hs ▸ hdone (hcancel hc)
      · refine Option.some.inj hs ▸ h.closeNext hr _ fun hreg' => ?_
        have hfits := (h.fits hr hreg').2
        rw [hphase] at hfits
        exact hfits.elim
  | done =>
      simp only [hphase] at hs
      cases hs

/-- More connections are known. -/
lemma dialMore (h : Shape n s) (l : List ℕ) : Shape n { s with dialled := s.dialled ++ l } :=
  ⟨fun t r hr => (h.kept t r hr).mono (List.subset_append_left _ _), h.refills, h.rotations,
    h.small⟩

lemma dial (h : Shape n s) (hr : s.refills[t]? = some r) {i : ℕ} {result : Option ℕ}
    (hs : s.dial t i result r = some s') : Shape n s' := by
  have hkept := h.kept t r hr
  have hloose := h.refills.loose t r hr
  have hmore := h.dialMore result.toList
  unfold World.dial at hs
  split_ifs at hs with hfresh
  have hfresh : ∀ ws ∈ result, ws ∉ s.dialled := fun ws hws hmem => hfresh ⟨ws, hws, hmem⟩
  simp only at hs
  have hended : Dial.ended result ≠ .pending := by
    cases result <;> exact nofun
  cases hphase : r.phase with
  | dialling bucket connected dials todo adopted =>
      simp only [hphase] at hs
      split_ifs at hs with hi
      rw [hphase] at hkept
      rw [Refill.Loose, hphase] at hloose
      obtain ⟨hlt, hget⟩ := List.getElem?_eq_some_iff.mp hi
      refine Option.some.inj hs ▸ hmore.put hr rfl (hkept.returned hi hfresh)
        (fun hreg => ?_) hloose
      obtain ⟨hcancelled, hfits⟩ := h.fits hr hreg
      rw [hphase] at hfits
      obtain ⟨hbucket, hroom⟩ := hfits
      refine ⟨hcancelled, hbucket, ?_⟩
      have hpos : 0 < dials.count .pending := List.count_pos_iff.mpr (List.mem_of_getElem? hi)
      rw [List.count_set hlt, List.length_append, List.length_singleton, hget]
      simp only [beq_self_eq_true, if_true, beq_iff_eq, hended, if_false]
      omega
  | cleaning dials adopted =>
      simp only [hphase] at hs
      split_ifs at hs with hi
      rw [hphase] at hkept
      rw [Refill.Loose, hphase] at hloose
      refine Option.some.inj hs ▸ hmore.put hr rfl
        (List.Subset.trans hkept (List.subset_append_left _ _)) (fun hreg => ?_)
        fun hnot hc => absurd (List.mem_of_getElem? hi) (hloose hnot hc).1
      have hfits := (h.fits hr hreg).2
      rw [hphase] at hfits
      exact absurd (List.mem_of_getElem? hi) hfits.1
  | created => simp [hphase] at hs
  | closing rest => simp [hphase] at hs
  | done => simp [hphase] at hs

/-! ### The other steps -/

lemma get (h : Shape n s) {cfg : ProxyConfig} (key : Key) (dead : List ℕ) :
    Shape n (s.get cfg key dead) := by
  unfold World.get
  split
  · exact h
  · split_ifs
    · exact h
    · have hlen := popFresh_length (isStale s.now dead)
        ((s.pool.idle.setdefault key).2.heap (s.pool.idle.setdefault key).1)
      have hidle := (h.setdefault key).modify hlen
      simp only
      split
      all_goals
        refine Shape.scheduleRefill ?_ _ _
        exact hidle.of_eq rfl rfl rfl rfl rfl rfl

lemma warmup (h : Shape n s) (cfg : ProxyConfig) : Shape n (s.warmup cfg) := by
  unfold World.warmup
  induction cfg.dcRedirects.entries generalizing s with
  | nil => exact h
  | cons entry entries ih =>
      rw [List.foldl_cons]
      refine ih ?_
      split
      · exact h
      · exact (h.scheduleRefill _ _).scheduleRefill _ _

/-- A registered rotation goes to sleep, or any ends. -/
lemma putRotation (h : Shape n s) {q q' : Rotation} (hq : s.rotations[t]? = some q)
    (hkey : q'.key = q.key) (hgo : s.pool.rotating.get? q.key ≠ some t → q'.turn = .done) :
    Shape n (s.putRotation t q') :=
  ⟨h.kept, h.refills, h.rotations.set hq hkey (fun _ => trivial) fun hnot => Or.inr (hgo hnot),
    h.small⟩

lemma endRotation (h : Shape n s) {q : Rotation} (hq : s.rotations[t]? = some q) :
    Shape n ({ s with pool := s.pool.releaseRotation q.key t }.putRotation t
      { q with turn := .done, cancelled := false }) := by
  have hreleased := h.rotations.release hq { q with turn := .done, cancelled := false } rfl
    (fun _ _ _ _ _ hq' => hq') (Or.inr rfl)
  unfold WsPool.releaseRotation
  split_ifs at hreleased ⊢
  · exact ⟨h.kept, h.refills, hreleased, h.small⟩
  · exact ⟨h.kept, h.refills, hreleased, h.small⟩

/-- A rotation that is there stays there. -/
lemma rotations_scheduleRefill (s : World) (m : ℕ) (key : Key) {u : ℕ} {q : Rotation}
    (hq : s.rotations[u]? = some q) : (s.scheduleRefill m key).rotations[u]? = some q := by
  have hrotation : (s.scheduleRotation key).rotations[u]? = some q := by
    unfold World.scheduleRotation
    split_ifs
    · exact hq
    · exact getElem?_concat.mpr (Or.inl hq)
  unfold World.scheduleRefill
  simp only
  split_ifs
  · exact hq
  · exact hrotation
  · exact hrotation

/-- A registered rotation stays registered. -/
lemma rotating_scheduleRefill (m : ℕ) {key k : Key} {u : ℕ}
    (h : s.pool.rotating.get? k = some u) :
    (s.scheduleRefill m key).pool.rotating.get? k = some u := by
  have hrotation : (s.scheduleRotation key).pool.rotating.get? k = some u := by
    unfold World.scheduleRotation
    split_ifs with hkey
    · exact h
    · have hk : k ≠ key := by
        rintro rfl
        exact hkey (Dict.mem_keys_of_mem (Dict.get?_eq_some.mp h))
      exact (Dict.get?_set_of_ne _ hk).trans h
  unfold World.scheduleRefill
  simp only
  split_ifs
  · exact h
  · exact hrotation
  · exact hrotation

lemma rotate (h : Shape n s) {q : Rotation} (hq : s.rotations[t]? = some q) {dead : List ℕ}
    (hs : s.rotate n t q dead = some s') : Shape n s' := by
  have hrounds : q.cancelled = false → q.turn ≠ .done → Shape n (s.rotateRound n t q dead) := by
    intro hc hturn
    have hreg := h.rotations.named_of_not_loose hq (by simp [hc, hturn])
    have hidle := (h.setdefault q.key).modify (b := (s.pool.idle.setdefault q.key).1)
      (List.length_filter_le (fun e => !isStale s.now dead e) _)
    unfold World.rotateRound
    simp only
    split_ifs
    · refine Shape.putRotation (q := q) (Shape.scheduleRefill ?_ _ _)
        (rotations_scheduleRefill _ _ _ (by exact hq)) rfl fun hnot => ?_
      · exact hidle.of_eq rfl rfl rfl rfl rfl rfl
      · exact absurd (rotating_scheduleRefill n (by exact hreg)) hnot
    · refine Shape.putRotation ?_ hq rfl fun hnot => absurd hreg hnot
      exact hidle.of_eq rfl rfl rfl rfl rfl rfl
  have hgo : ∀ w, (if n = 0 then
        some ({ s with pool := s.pool.releaseRotation q.key t }.putRotation t
          { q with turn := .done, cancelled := false })
      else some (s.rotateRound n t q dead)) = some w →
      q.cancelled = false → q.turn ≠ .done → Shape n w := by
    intro w hw hc hturn
    split_ifs at hw
    · exact Option.some.inj hw ▸ h.endRotation hq
    · exact Option.some.inj hw ▸ hrounds hc hturn
  unfold World.rotate at hs
  cases hc : q.cancelled with
  | true =>
      cases hturn : q.turn with
      | created =>
          simp only [hc, hturn] at hs
          exact Option.some.inj hs ▸ h.putRotation hq rfl fun _ => rfl
      | sleeping =>
          simp only [hc, hturn] at hs
          exact Option.some.inj hs ▸ h.endRotation hq
      | done => simp [hc, hturn] at hs
  | false =>
      cases hturn : q.turn with
      | created =>
          simp only [hc, hturn] at hs
          exact hgo s' hs hc (by simp [hturn])
      | sleeping =>
          simp only [hc, hturn] at hs
          exact hgo s' hs hc (by simp [hturn])
      | done => simp [hc, hturn] at hs

lemma reset (h : Shape n s) : Shape n s.reset := by
  refine ⟨?_, ?_, ?_, nofun⟩
  · intro t r hr
    rw [World.reset, List.getElem?_mapIdx] at hr
    obtain ⟨q, hq, rfl⟩ := Option.map_eq_some_iff.mp hr
    have hkept := h.kept t q hq
    split_ifs
    · exact hkept
    · exact hkept
  · have hclear := h.refills.clear (fun r => r.phase ≠ .done)
      (fun r => { r with cancelled := true })
      ?_ ?_
    · refine hclear.imp ?_
      rintro u q - hreg -
      cases hreg
    · rintro r hdone ⟨-, hfits⟩
      cases hphase : r.phase with
      | created => simp [Refill.Loose]
      | dialling bucket connected dials todo adopted => simp [Refill.Loose]
      | cleaning dials adopted =>
          rw [hphase] at hfits
          simp only [Refill.Loose]
          exact fun _ => hfits
      | closing rest =>
          rw [hphase] at hfits
          exact hfits.elim
      | done => exact absurd hphase hdone
    · intro r hdone
      simp [Refill.Loose, not_not.mp hdone]
  · exact h.rotations.clear (fun q => q.turn ≠ .done) (fun q => { q with cancelled := true })
      (fun _ _ _ => Or.inl rfl) fun q hdone => Or.inr (not_not.mp hdone)

end Shape

end TgWsProxy.Ws
