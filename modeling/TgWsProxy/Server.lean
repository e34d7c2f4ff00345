import TgWsProxy.Core.Transition
import Mathlib.Data.List.Count
import Mathlib.Tactic.Linarith

/-!
# The server

`_run` of `proxy/tg_ws_proxy.py`: the listener and its watchdog, one task for each client, and the
`finally` that ends them all.

* `Server`, `Server.step` — the code.  A connection may come from a listener that has just been
  closed, a task may be cancelled before its first step, which then never comes, and it may raise in
  `set_sock_opts`, which stands before its `try`.  What is not modelled is a cancellation of `_run`
  before its loop, in the middle of a `start_server` that has its socket already, and in the
  `finally` itself; and `server.wait_closed()` is taken to return.
* `Server.Sound` — what every step keeps.
* `Server.toGo` — how many steps are left, once `_run` has begun to stop.
* **`server_leaves_nothing`** — one listener at most, `connections_active` counts the clients that
  are being served and those whose `set_sock_opts` raised, and behind `_run` there is no client
  task, no listener and no pool; once it is told to stop, `_run` comes there.
-/

namespace TgWsProxy

open Wire

/-! ## The code -/

/-- Where a task of `_handle_client` stands: before its first step, in its `try`, behind the
`connections_active -= 1` of its `finally`, at its end, which it may reach without having begun, or
at an end without that `finally`, as `set_sock_opts` raised before the `try`: its writer is open. -/
inductive ClientAt
  | created
  | running
  | leaving
  | ended (begun : Bool)
  | escaped
  deriving DecidableEq, Repr

/-- A task of `_client_tasks`, and whether `cancel()` was called. -/
structure ClientTask where
  at' : ClientAt
  told : Bool
  deriving DecidableEq, Repr

/-- A client that is being served. -/
def ClientTask.isRunning (t : ClientTask) : Bool := decide (t.at' = .running)

/-- A client whose `connections_active += 1` is never taken back. -/
def ClientTask.isEscaped (t : ClientTask) : Bool := decide (t.at' = .escaped)

/-- A task that is done. -/
def ClientTask.isOver (t : ClientTask) : Bool :=
  match t.at' with
  | .ended _ | .escaped => true
  | _ => false

/-- What is closed behind the clients. -/
inductive Closer
  | wsPool
  | cfWorkerPool
  | cfH2Pool
  deriving DecidableEq, Repr

/-- Where `_run` stands: in the `asyncio.wait` of its loop, between the `close()` of a dead listener
and the next one, in the `gather` of its clients, before the pools that are left, at its end. -/
inductive RunAt
  | serving
  | restarting
  | gathering
  | tidying (left : List Closer)
  | ended
  deriving DecidableEq, Repr

/-- `listeners` says which of those that were ever opened are open. -/
structure Server where
  at' : RunAt
  h2Enabled : Bool
  stopSet : Bool
  stopping : Bool
  listeners : List Bool
  clients : List ClientTask
  active : ℤ
  closed : List Closer

/-- What may happen: a client connects, its task takes its first step, raises in `set_sock_opts`,
comes to its `finally`, ends, or is cancelled before it has begun; `stop_event` is set, the listener
dies, the wait is over, for `stop_event` or not, a new listener was opened or not, `_run` is
cancelled; all clients are gathered, a pool is closed. -/
inductive ServerEvent
  | accept
  | begins (i : ℕ)
  | escapes (i : ℕ)
  | leaves (i : ℕ)
  | ends (i : ℕ)
  | cancelled (i : ℕ)
  | setStop
  | dies
  | woken (stop : Bool)
  | restarted (ok : Bool)
  | interrupt
  | gathered
  | tidied
  deriving DecidableEq, Repr

/-- The event is a step of `_run`, or one that brings a task nearer to its end. -/
def ServerEvent.isEnding : ServerEvent → Bool
  | .leaves _ | .ends _ | .cancelled _ | .woken _ | .restarted _ | .gathered | .tidied => true
  | _ => false

namespace Server

/-- `_run` behind its first `start_server`. -/
def start (h2Enabled : Bool) : Server := ⟨.serving, h2Enabled, false, false, [true], [], 0, []⟩

/-- The pools, in the order in which they are closed. -/
def pools (s : Server) : List Closer :=
  .wsPool :: .cfWorkerPool :: if s.h2Enabled then [.cfH2Pool] else []

/-- `server.close()`. -/
def closeListener (s : Server) : Server := { s with listeners := s.listeners.map fun _ => false }

/-- The `finally`, up to its `gather`. -/
def windUp (s : Server) : Server :=
  { s.closeListener with
    stopping := true
    clients := s.clients.map fun t => { t with told := true }
    at' := .gathering }

/-- One step of a task. -/
def setClient (s : Server) (i : ℕ) (t : ClientTask) (active : ℤ) : Server :=
  { s with clients := s.clients.set i t, active }

/-- No client task is left. -/
def allEnded (s : Server) : Bool := s.clients.all ClientTask.isOver

/-- The next suspension. -/
def step : ServerEvent → Server → Option Server
  | .accept, s =>
      if s.stopping then some s else some { s with clients := s.clients ++ [⟨.created, false⟩] }
  | .begins i, s =>
      match s.clients[i]? with
      | some ⟨.created, false⟩ => some (s.setClient i ⟨.running, false⟩ (s.active + 1))
      | _ => none
  | .escapes i, s =>
      match s.clients[i]? with
      | some ⟨.created, false⟩ => some (s.setClient i ⟨.escaped, false⟩ (s.active + 1))
      | _ => none
  | .leaves i, s =>
      match s.clients[i]? with
      | some ⟨.running, told⟩ => some (s.setClient i ⟨.leaving, told⟩ (s.active - 1))
      | _ => none
  | .ends i, s =>
      match s.clients[i]? with
      | some ⟨.leaving, told⟩ => some (s.setClient i ⟨.ended true, told⟩ s.active)
      | _ => none
  | .cancelled i, s =>
      match s.clients[i]? with
      | some ⟨.created, true⟩ => some (s.setClient i ⟨.ended false, true⟩ s.active)
      | _ => none
  | .setStop, s => some { s with stopSet := true }
  | .dies, s => some s.closeListener
  | .woken stop, s =>
      if s.at' = .serving ∧ (stop = true → s.stopSet = true) then
        if stop then some s.windUp else some { s.closeListener with at' := .restarting }
      else none
  | .restarted ok, s =>
      if s.at' = .restarting then
        if ok then some { s with listeners := s.listeners ++ [true], at' := .serving }
        else some s.windUp
      else none
  | .interrupt, s =>
      if s.at' = .serving ∨ s.at' = .restarting then some s.windUp else none
  | .gathered, s =>
      if s.at' = .gathering ∧ s.allEnded = true then some { s with at' := .tidying s.pools }
      else none
  | .tidied, s =>
      match s.at' with
      | .tidying (c :: left) => some { s with closed := s.closed ++ [c], at' := .tidying left }
      | .tidying [] => some { s with at' := .ended }
      | _ => none

end Server

/-! ## What is kept -/

/-- A client that `connections_active` counts. -/
def ClientTask.isCounted (t : ClientTask) : Bool := t.isRunning || t.isEscaped

lemma countP_isCounted (ts : List ClientTask) : ts.countP ClientTask.isCounted =
    ts.countP ClientTask.isRunning + ts.countP ClientTask.isEscaped := by
  induction ts with
  | nil => rfl
  | cons t ts ih =>
      obtain ⟨at', told⟩ := t
      cases at' <;>
        simp [ClientTask.isCounted, ClientTask.isRunning, ClientTask.isEscaped, ih] <;> omega

namespace Server

/-- Who is in the `finally` has set the flag, closed the listener and told every client; who is
behind the `gather` has no client left. -/
structure Sound (s : Server) : Prop where
  one : s.listeners.count true ≤ 1
  active : s.active = s.clients.countP ClientTask.isCounted
  looping : s.at' = .serving ∨ s.at' = .restarting → s.stopping = false ∧ s.closed = []
  restarting : s.at' ≠ .serving → s.listeners.count true = 0
  stopping : s.at' ≠ .serving → s.at' ≠ .restarting → s.stopping = true
  told : s.stopping = true → ∀ t ∈ s.clients, t.told = true
  gathering : s.at' = .gathering → s.closed = []
  gathered : ∀ left, s.at' = .tidying left → s.allEnded = true ∧ s.closed ++ left = s.pools
  ended : s.at' = .ended → s.allEnded = true ∧ s.closed = s.pools

lemma sound_start (h2Enabled : Bool) : Sound (start h2Enabled) :=
  ⟨(by decide : List.count true [true] ≤ 1), rfl, fun _ => ⟨rfl, rfl⟩, fun h => absurd rfl h,
    fun h => absurd rfl h, by rintro ⟨⟩, by rintro ⟨⟩, by rintro left ⟨⟩, by rintro ⟨⟩⟩

variable {s s' : Server}

@[simp] lemma count_closeListener (s : Server) : s.closeListener.listeners.count true = 0 := by
  simp [closeListener, List.count_eq_zero]

/-- A task that is not at its end. -/
lemma allEnded_eq_false {i : ℕ} {t : ClientTask} (hi : s.clients[i]? = some t)
    (ht : t.isOver = false) : s.allEnded = false := by
  rw [allEnded, List.all_eq_false]
  exact ⟨t, List.mem_of_getElem? hi, by rw [ht]; decide⟩

namespace Sound

/-- A task takes a step. -/
lemma setClient (h : Sound s) {i : ℕ} {t t' : ClientTask} {active : ℤ}
    (hi : s.clients[i]? = some t) (ht : t.isOver = false) (htold : t'.told = t.told)
    (hactive : active + t.isCounted.toNat = s.active + t'.isCounted.toNat) :
    Sound (s.setClient i t' active) := by
  have hnot := allEnded_eq_false hi ht
  obtain ⟨hlt, rfl⟩ := List.getElem?_eq_some_iff.mp hi
  refine ⟨h.one, ?_, h.looping, h.restarting, h.stopping, fun hstop t ht' => ?_, h.gathering,
    fun left hat => ?_, fun hat => ?_⟩
  · show active = ((s.clients.set i t').countP ClientTask.isCounted : ℕ)
    have hpos : s.clients[i].isCounted = true → 0 < s.clients.countP ClientTask.isCounted :=
      fun hrun => List.countP_pos_iff.mpr ⟨_, List.getElem_mem hlt, hrun⟩
    rw [List.countP_set hlt]
    rw [h.active] at hactive
    cases hold : s.clients[i].isCounted <;> cases hnew : t'.isCounted <;>
      simp only [hold, hnew, Bool.toNat_true, Bool.toNat_false, forall_const, if_true,
        Bool.false_eq_true, if_false] at hactive hpos ⊢ <;> omega
  · rcases List.mem_or_eq_of_mem_set ht' with hmem | rfl
    · exact h.told hstop t hmem
    · rw [htold]
      exact h.told hstop _ (List.getElem_mem hlt)
  · have hall := (h.gathered left hat).1
    rw [hnot] at hall
    cases hall
  · have hall := (h.ended hat).1
    rw [hnot] at hall
    cases hall

/-- The `finally` begins. -/
lemma windUp (h : Sound s) (hat : s.at' = .serving ∨ s.at' = .restarting) : Sound s.windUp := by
  have hat' : s.windUp.at' = .gathering := rfl
  refine ⟨?_, ?_, ?_, fun _ => count_closeListener s, fun _ _ => rfl, fun _ t ht => ?_,
    fun _ => (h.looping hat).2, by rintro left ⟨⟩, by rintro ⟨⟩⟩
  · exact (count_closeListener s).trans_le zero_le_one
  · show s.active = ((s.clients.map fun t => { t with told := true }).countP _ : ℕ)
    rw [List.countP_map]
    exact h.active
  · rw [hat']
    rintro (h | h) <;> cases h
  · obtain ⟨t, -, rfl⟩ := List.mem_map.mp ht
    rfl

/-- **One step.** -/
lemma step {e : ServerEvent} (h : Sound s) (hstep : Server.step e s = some s') : Sound s' := by
  cases e with
  | accept =>
      simp only [Server.step] at hstep
      split_ifs at hstep with hstop
      · obtain rfl := Option.some.inj hstep
        exact h
      · obtain rfl := Option.some.inj hstep
        have hloop : s.at' = .serving ∨ s.at' = .restarting := by
          by_contra hnot
          exact hstop (h.stopping (fun hat => hnot (Or.inl hat)) fun hat => hnot (Or.inr hat))
        refine ⟨h.one, ?_, h.looping, h.restarting, h.stopping, fun hstop' => absurd hstop' hstop,
          h.gathering, fun left hat => ?_, fun hat => ?_⟩
        · show s.active = ((s.clients ++ [(⟨.created, false⟩ : ClientTask)]).countP _ : ℕ)
          rw [List.countP_append, h.active]
          rfl
        · rw [show s.at' = .tidying left from hat] at hloop
          rcases hloop with hloop | hloop <;> cases hloop
        · rw [show s.at' = .ended from hat] at hloop
          rcases hloop with hloop | hloop <;> cases hloop
  | begins i =>
      simp only [Server.step] at hstep
      split at hstep
      · next hi =>
          obtain rfl := Option.some.inj hstep
          exact h.setClient hi rfl rfl (by simp [ClientTask.isCounted, ClientTask.isRunning,
            ClientTask.isEscaped])
      · cases hstep
  | escapes i =>
      simp only [Server.step] at hstep
      split at hstep
      · next hi =>
          obtain rfl := Option.some.inj hstep
          exact h.setClient hi rfl rfl (by simp [ClientTask.isCounted, ClientTask.isRunning,
            ClientTask.isEscaped])
      · cases hstep
  | leaves i =>
      simp only [Server.step] at hstep
      split at hstep
      · next told hi =>
          obtain rfl := Option.some.inj hstep
          exact h.setClient hi rfl rfl (by simp [ClientTask.isCounted, ClientTask.isRunning,
            ClientTask.isEscaped])
      · cases hstep
  | ends i =>
      simp only [Server.step] at hstep
      split at hstep
      · next told hi =>
          obtain rfl := Option.some.inj hstep
          exact h.setClient hi rfl rfl (by simp [ClientTask.isCounted, ClientTask.isRunning,
            ClientTask.isEscaped])
      · cases hstep
  | cancelled i =>
      simp only [Server.step] at hstep
      split at hstep
      · next hi =>
          obtain rfl := Option.some.inj hstep
          exact h.setClient hi rfl rfl (by simp [ClientTask.isCounted, ClientTask.isRunning,
            ClientTask.isEscaped])
      · cases hstep
  | setStop =>
      obtain rfl := Option.some.inj hstep
      exact ⟨h.one, h.active, h.looping, h.restarting, h.stopping, h.told, h.gathering, h.gathered,
        h.ended⟩
  | dies =>
      obtain rfl := Option.some.inj hstep
      exact ⟨(count_closeListener s).trans_le zero_le_one, h.active, h.looping,
        fun _ => count_closeListener s, h.stopping, h.told, h.gathering, h.gathered, h.ended⟩
  | woken stop =>
      simp only [Server.step] at hstep
      split_ifs at hstep with hat hstop
      · obtain rfl := Option.some.inj hstep
        exact h.windUp (Or.inl hat.1)
      · obtain rfl := Option.some.inj hstep
        have hloop := h.looping (Or.inl hat.1)
        refine ⟨(count_closeListener s).trans_le zero_le_one, h.active, fun _ => hloop,
          fun _ => count_closeListener s, fun _ hne => absurd rfl hne, fun hstop' => ?_,
          by rintro ⟨⟩, by rintro left ⟨⟩, by rintro ⟨⟩⟩
        rw [show s.stopping = true from hstop'] at hloop
        cases hloop.1
  | restarted ok =>
      simp only [Server.step] at hstep
      split_ifs at hstep with hat hok
      · obtain rfl := Option.some.inj hstep
        have hloop := h.looping (Or.inr hat)
        refine ⟨?_, h.active, fun _ => hloop, fun hne => absurd rfl hne, fun hne => absurd rfl hne,
          fun hstop' => ?_, by rintro ⟨⟩, by rintro left ⟨⟩, by rintro ⟨⟩⟩
        · show (s.listeners ++ [true]).count true ≤ 1
          rw [List.count_append, h.restarting (by rw [hat]; rintro ⟨⟩)]
          exact le_refl 1
        · rw [show s.stopping = true from hstop'] at hloop
          cases hloop.1
      · obtain rfl := Option.some.inj hstep
        exact h.windUp (Or.inr hat)
  | interrupt =>
      simp only [Server.step] at hstep
      split_ifs at hstep with hat
      obtain rfl := Option.some.inj hstep
      exact h.windUp hat
  | gathered =>
      simp only [Server.step] at hstep
      split_ifs at hstep with hat
      obtain rfl := Option.some.inj hstep
      have hclosed := h.gathering hat.1
      have hne : s.at' ≠ .serving := by
        rw [hat.1]
        rintro ⟨⟩
      have hne' : s.at' ≠ .restarting := by
        rw [hat.1]
        rintro ⟨⟩
      refine ⟨h.one, h.active, (by rintro (hl | hl) <;> cases hl), fun _ => h.restarting hne,
        fun _ _ => h.stopping hne hne', h.told, by rintro ⟨⟩, fun left hleft => ⟨hat.2, ?_⟩,
        by rintro ⟨⟩⟩
      obtain rfl := RunAt.tidying.inj hleft
      show s.closed ++ s.pools = s.pools
      rw [hclosed, List.nil_append]
  | tidied =>
      simp only [Server.step] at hstep
      have hside : ∀ left, s.at' = .tidying left → s.at' ≠ .serving ∧ s.at' ≠ .restarting := by
        intro left hat
        rw [hat]
        exact ⟨by rintro ⟨⟩, by rintro ⟨⟩⟩
      split at hstep
      · next c left hat =>
          obtain rfl := Option.some.inj hstep
          obtain ⟨hall, hpools⟩ := h.gathered _ hat
          obtain ⟨hne, hne'⟩ := hside _ hat
          refine ⟨h.one, h.active, (by rintro (hl | hl) <;> cases hl), fun _ => h.restarting hne,
            fun _ _ => h.stopping hne hne', h.told, by rintro ⟨⟩, fun left' hleft => ⟨hall, ?_⟩,
            by rintro ⟨⟩⟩
          obtain rfl := RunAt.tidying.inj hleft
          show s.closed ++ [c] ++ left = s.pools
          rw [List.append_assoc]
          exact hpools
      · next hat =>
          obtain rfl := Option.some.inj hstep
          obtain ⟨hall, hpools⟩ := h.gathered _ hat
          obtain ⟨hne, hne'⟩ := hside _ hat
          rw [List.append_nil] at hpools
          exact ⟨h.one, h.active, (by rintro (hl | hl) <;> cases hl), fun _ => h.restarting hne,
            fun _ _ => h.stopping hne hne', h.told, by rintro ⟨⟩, by rintro left ⟨⟩,
            fun _ => ⟨hall, hpools⟩⟩
      · cases hstep

/-- Who is stopping has left the loop. -/
lemma notLooping (h : Sound s) (hstop : s.stopping = true) :
    s.at' ≠ .serving ∧ s.at' ≠ .restarting := by
  refine ⟨fun hat => ?_, fun hat => ?_⟩
  · rw [(h.looping (Or.inl hat)).1] at hstop
    cases hstop
  · rw [(h.looping (Or.inr hat)).1] at hstop
    cases hstop

/-- No client begins once `_run` is stopping. -/
lemma step_begins (h : Sound s) (hstop : s.stopping = true) (i : ℕ) :
    Server.step (.begins i) s = none ∧ Server.step (.escapes i) s = none := by
  have hnot : s.clients[i]? ≠ some ⟨.created, false⟩ := by
    intro hi
    cases h.told hstop _ (List.mem_of_getElem? hi)
  constructor <;> simp only [Server.step]

end Sound

/-! ## The way to the end -/

end Server

/-- How many steps a task has before it, once it was told to end. -/
def ClientTask.toGo (t : ClientTask) : ℕ :=
  match t.at' with
  | .created | .leaving => 1
  | .running => 2
  | .ended _ | .escaped => 0

namespace Server

/-- How many steps the `finally` has before it, without those of the clients. -/
def stagesToGo (s : Server) : ℕ :=
  match s.at' with
  | .tidying left => left.length + 1
  | .ended => 0
  | _ => s.pools.length + 2

/-- How many steps are left, once `_run` has begun to stop. -/
def toGo (s : Server) : ℕ := (s.clients.map ClientTask.toGo).sum + s.stagesToGo

lemma sum_toGo_set : ∀ {ts : List ClientTask} {i : ℕ} {t t' : ClientTask}, ts[i]? = some t →
    t'.toGo + 1 = t.toGo →
    ((ts.set i t').map ClientTask.toGo).sum + 1 = (ts.map ClientTask.toGo).sum
  | [], _, _, _, hi, _ => by cases hi
  | t₀ :: ts, 0, t, t', hi, hgo => by
      obtain rfl := Option.some.inj hi
      simp only [List.set_cons_zero, List.map_cons, List.sum_cons]
      omega
  | t₀ :: ts, i + 1, t, t', hi, hgo => by
      have hi' : ts[i]? = some t := hi
      have ih := sum_toGo_set hi' hgo
      simp only [List.set_cons_succ, List.map_cons, List.sum_cons]
      omega

variable {s s' : Server}

lemma toGo_setClient {i : ℕ} {t t' : ClientTask} {active : ℤ} (hi : s.clients[i]? = some t)
    (hgo : t'.toGo + 1 = t.toGo) : (s.setClient i t' active).toGo + 1 = s.toGo := by
  have hsum := sum_toGo_set hi hgo
  show ((s.clients.set i t').map ClientTask.toGo).sum + s.stagesToGo + 1 = _
  rw [toGo]
  omega

namespace Sound

/-- Every step of the way is one step less. -/
lemma toGo_step {e : ServerEvent} (h : Sound s) (hstop : s.stopping = true)
    (he : e.isEnding = true) (hstep : Server.step e s = some s') :
    s'.stopping = true ∧ s'.toGo + 1 = s.toGo := by
  obtain ⟨hne, hne'⟩ := h.notLooping hstop
  cases e with
  | accept | begins i | escapes i | setStop | dies | interrupt => cases he
  | leaves i =>
      simp only [Server.step] at hstep
      split at hstep
      · next told hi =>
          obtain rfl := Option.some.inj hstep
          exact ⟨hstop, toGo_setClient hi rfl⟩
      · cases hstep
  | ends i =>
      simp only [Server.step] at hstep
      split at hstep
      · next told hi =>
          obtain rfl := Option.some.inj hstep
          exact ⟨hstop, toGo_setClient hi rfl⟩
      · cases hstep
  | cancelled i =>
      simp only [Server.step] at hstep
      split at hstep
      · next hi =>
          obtain rfl := Option.some.inj hstep
          exact ⟨hstop, toGo_setClient hi rfl⟩
      · cases hstep
  | woken stop =>
      simp only [Server.step] at hstep
      rw [if_neg fun hat => hne hat.1] at hstep
      cases hstep
  | restarted ok =>
      simp only [Server.step] at hstep
      rw [if_neg hne'] at hstep
      cases hstep
  | gathered =>
      simp only [Server.step] at hstep
      split_ifs at hstep with hat
      obtain rfl := Option.some.inj hstep
      refine ⟨hstop, ?_⟩
      simp only [toGo, stagesToGo, hat.1]
      rfl
  | tidied =>
      simp only [Server.step] at hstep
      split at hstep
      · next c left hat =>
          obtain rfl := Option.some.inj hstep
          refine ⟨hstop, ?_⟩
          simp only [toGo, stagesToGo, hat, List.length_cons]
          omega
      · next hat =>
          obtain rfl := Option.some.inj hstep
          refine ⟨hstop, ?_⟩
          simp only [toGo, stagesToGo, hat, List.length_nil]
      · cases hstep

/-- Before the end there is a step to take. -/
lemma exists_step (h : Sound s) (hstop : s.stopping = true) (hend : s.at' ≠ .ended) :
    ∃ e, ServerEvent.isEnding e = true ∧ (Server.step e s).isSome = true := by
  obtain ⟨hne, hne'⟩ := h.notLooping hstop
  cases hat : s.at' with
  | serving => exact absurd hat hne
  | restarting => exact absurd hat hne'
  | ended => exact absurd hat hend
  | tidying left =>
      cases left with
      | nil => exact ⟨.tidied, rfl, by simp only [Server.step, hat, Option.isSome_some]⟩
      | cons c left => exact ⟨.tidied, rfl, by simp only [Server.step, hat, Option.isSome_some]⟩
  | gathering =>
      cases hall : s.allEnded with
      | true =>
          refine ⟨.gathered, rfl, ?_⟩
          rw [Server.step, if_pos ⟨hat, hall⟩]
          rfl
      | false =>
          obtain ⟨⟨at', told⟩, hmem, hnot⟩ := List.all_eq_false.mp hall
          obtain ⟨i, hi⟩ := List.getElem?_of_mem hmem
          obtain rfl : told = true := h.told hstop _ hmem
          cases at' with
          | created => exact ⟨.cancelled i, rfl, by simp only [Server.step, hi, Option.isSome_some]⟩
          | running => exact ⟨.leaves i, rfl, by simp only [Server.step, hi, Option.isSome_some]⟩
          | leaving => exact ⟨.ends i, rfl, by simp only [Server.step, hi, Option.isSome_some]⟩
          | ended begun | escaped => exact absurd rfl hnot

/-- There are no more than `toGo` of them. -/
lemma length_le_toGo : ∀ {es : List ServerEvent} {s s' : Server}, Sound s → s.stopping = true →
    (∀ e ∈ es, ServerEvent.isEnding e = true) → exec Server.step es s = some s' →
    es.length ≤ s.toGo
  | [], s, _, _, _, _, _ => Nat.zero_le _
  | e :: es, s, s', h, hstop, hes, hexec => by
      obtain ⟨s₁, hstep, hrest⟩ := Option.bind_eq_some_iff.mp hexec
      obtain ⟨hstop₁, hgo⟩ := h.toGo_step hstop (hes e List.mem_cons_self) hstep
      have ih := length_le_toGo (h.step hstep) hstop₁
        (fun e' he' => hes e' (List.mem_cons_of_mem _ he')) hrest
      rw [List.length_cons]
      omega

/-- Taken one after the other they come to the end. -/
lemma comes_to_end : ∀ (n : ℕ) {s : Server}, s.toGo = n → Sound s → s.stopping = true →
    ∃ es s', (∀ e ∈ es, ServerEvent.isEnding e = true) ∧ exec Server.step es s = some s' ∧
      s'.at' = .ended := by
  intro n
  induction n with
  | zero =>
      intro s hn h hstop
      refine ⟨[], s, fun e he => absurd he List.not_mem_nil, rfl, ?_⟩
      by_contra hend
      obtain ⟨e, he, hsome⟩ := h.exists_step hstop hend
      obtain ⟨s', hstep⟩ := Option.isSome_iff_exists.mp hsome
      have hgo := (h.toGo_step hstop he hstep).2
      omega
  | succ n ih =>
      intro s hn h hstop
      by_cases hend : s.at' = .ended
      · exact ⟨[], s, fun e he => absurd he List.not_mem_nil, rfl, hend⟩
      · obtain ⟨e, he, hsome⟩ := h.exists_step hstop hend
        obtain ⟨s₁, hstep⟩ := Option.isSome_iff_exists.mp hsome
        obtain ⟨hstop₁, hgo⟩ := h.toGo_step hstop he hstep
        obtain ⟨es, s', hes, hexec, hat⟩ := ih (by omega) (h.step hstep) hstop₁
        refine ⟨e :: es, s', List.forall_mem_cons.mpr ⟨he, hes⟩, ?_, hat⟩
        rw [exec, hstep]
        exact hexec

/-- Who is told to stop begins to. -/
lemma begins_to_stop (h : Sound s) (hset : s.stopSet = true) : ∃ es s',
    (∀ e ∈ es, ServerEvent.isEnding e = true) ∧ exec Server.step es s = some s' ∧ Sound s' ∧
      s'.stopping = true := by
  cases hat : s.at' with
  | serving =>
      have hstep : Server.step (.woken true) s = some s.windUp := by
        simp only [Server.step, hat, hset, implies_true, and_self, if_true]
      exact ⟨[.woken true], s.windUp, by simp [ServerEvent.isEnding], by rw [exec, hstep]; rfl,
        h.step hstep, rfl⟩
  | restarting =>
      have hstep : Server.step (.restarted false) s = some s.windUp := by
        simp only [Server.step, hat, if_true, Bool.false_eq_true, if_false]
      exact ⟨[.restarted false], s.windUp, by simp [ServerEvent.isEnding],
        by rw [exec, hstep]; rfl, h.step hstep, rfl⟩
  | gathering | tidying left | ended =>
      refine ⟨[], s, fun e he => absurd he List.not_mem_nil, rfl, h, h.stopping ?_ ?_⟩ <;>
      · rw [hat]
        rintro ⟨⟩

end Sound

/-- Two runs, one behind the other. -/
lemma exec_append {es₁ es₂ : List ServerEvent} {s₁ s₂ s₃ : Server}
    (h₁ : exec step es₁ s₁ = some s₂) (h₂ : exec step es₂ s₂ = some s₃) :
    exec step (es₁ ++ es₂) s₁ = some s₃ := by
  induction es₁ generalizing s₁ with
  | nil =>
      obtain rfl := Option.some.inj h₁
      exact h₂
  | cons e es₁ ih =>
      obtain ⟨s, hstep, hrest⟩ := Option.bind_eq_some_iff.mp h₁
      rw [List.cons_append, exec, hstep]
      exact ih hrest

/-- Behind the clients there is nothing to be counted. -/
lemma countP_isRunning_of_allEnded (hall : s.allEnded = true) :
    s.clients.countP ClientTask.isRunning = 0 := by
  rw [List.countP_eq_zero]
  intro t ht hrun
  have hended := List.all_eq_true.mp hall t ht
  rw [ClientTask.isOver, of_decide_eq_true hrun] at hended
  cases hended

end Server

/-- **The server leaves nothing behind.**  In every order of connections, of steps and ends of
clients, of deaths and restarts of the listener, of stops and cancellations: at most one listener is
open, and `connections_active` counts the clients that are being served and those whose
`set_sock_opts` raised.  Once `_run` is stopping, no listener is open and no client begins, there
are at most `toGo` steps to take, and one of them is always there before the end.  At the end every
client task has ended, nobody but who escaped its `finally` is counted, and the pools are closed,
each once and in the order of the source.  Whoever sets `stop_event` can bring it there. -/
theorem server_leaves_nothing {h2Enabled : Bool} {s : Server}
    (h : Reachable (· = Server.start h2Enabled) Server.step Always s) :
    s.listeners.count true ≤ 1 ∧
    s.active = s.clients.countP ClientTask.isRunning + s.clients.countP ClientTask.isEscaped ∧
    (s.stopping = true →
      s.listeners.count true = 0 ∧
      (∀ i, Server.step (.begins i) s = none ∧ Server.step (.escapes i) s = none) ∧
      (s.at' ≠ .ended → ∃ e, ServerEvent.isEnding e = true ∧ (Server.step e s).isSome = true) ∧
      ∀ es s', (∀ e ∈ es, ServerEvent.isEnding e = true) → exec Server.step es s = some s' →
        es.length ≤ s.toGo) ∧
    (s.at' = .ended → s.allEnded = true ∧ s.active = s.clients.countP ClientTask.isEscaped ∧
      s.closed = s.pools) ∧
    (s.stopSet = true ∨ s.stopping = true → ∃ es s', (∀ e ∈ es, ServerEvent.isEnding e = true) ∧
      exec Server.step es s = some s' ∧ s'.at' = .ended) := by
  have hs : Server.Sound s :=
    h.invariant (fun s hstart => hstart ▸ Server.sound_start h2Enabled)
      fun _ _ _ _ hsound _ hstep => hsound.step hstep
  have hactive : s.active =
      s.clients.countP ClientTask.isRunning + s.clients.countP ClientTask.isEscaped := by
    rw [hs.active, countP_isCounted]
    push_cast
    rfl
  refine ⟨hs.one, hactive, fun hstop => ⟨?_, hs.step_begins hstop, hs.exists_step hstop,
    fun es s' hes hexec => hs.length_le_toGo hstop hes hexec⟩, fun hend => ?_, ?_⟩
  · exact hs.restarting (hs.notLooping hstop).1
  · obtain ⟨hall, hclosed⟩ := hs.ended hend
    refine ⟨hall, ?_, hclosed⟩
    rw [hactive, Server.countP_isRunning_of_allEnded hall]
    simp
  · rintro (hset | hstop)
    · obtain ⟨es₁, s₁, hes₁, hexec₁, hs₁, hstop₁⟩ := hs.begins_to_stop hset
      obtain ⟨es₂, s₂, hes₂, hexec₂, hat⟩ := hs₁.comes_to_end _ rfl hstop₁
      refine ⟨es₁ ++ es₂, s₂, fun e he => ?_, Server.exec_append hexec₁ hexec₂, hat⟩
      exact (List.mem_append.mp he).elim (hes₁ e) (hes₂ e)
    · exact hs.comes_to_end _ rfl hstop

/-- The listener dies and comes back, one client is served, for another one `set_sock_opts` raises,
and a third one is told to stop before it has begun. -/
theorem server_leaves_nothing_sample : ∃ s, exec Server.step
      [.accept, .begins 0, .dies, .woken false, .restarted true, .accept, .escapes 1, .accept,
        .setStop, .woken true] (Server.start true) = some s ∧
    s.active = 2 ∧ s.toGo = 8 ∧
    ∃ es s', (∀ e ∈ es, ServerEvent.isEnding e = true) ∧ exec Server.step es s = some s' ∧
      s'.at' = .ended := by
  have hexec : exec Server.step
      [.accept, .begins 0, .dies, .woken false, .restarted true, .accept, .escapes 1, .accept,
        .setStop, .woken true] (Server.start true) = some _ := rfl
  refine ⟨_, hexec, rfl, rfl, ?_⟩
  exact (server_leaves_nothing (reachable_of_exec (.start rfl) hexec)).2.2.2.2 (Or.inl rfl)

end TgWsProxy
