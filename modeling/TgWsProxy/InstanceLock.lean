import TgWsProxy.Core.Dict
import TgWsProxy.Core.Text
import TgWsProxy.Core.Transition
import Mathlib.Logic.Function.Basic

/-!
# The single-instance lock

`acquire_lock` and `release_lock` of `utils/tray_common.py`: every process of the app that runs has
a file `<pid>.lock`, and whoever finds the file of a live one does not start.

* `Meta`, `Proc`, `Pc`, `Sys` — what a lock file says, the processes and where they stand.
* `Action`, `Sys.step` — one step of one process on the files, and processes that come and go.
* `Careful` — the lock file of a process is opened while nobody else is inside `acquire_lock`, and
  no stranger takes over the pid of a recorded lock within a second.
* `Secured`, `Guarded` — the invariant: whoever opened or holds a lock has its file, and everybody
  else has the file still ahead.
* **`single_instance`** — in every run of careful steps at most one live process holds the lock,
  and the lock of a dead one stops nobody.
-/

namespace TgWsProxy.InstanceLock

open Wire

/-! ## The code -/

/-- The name of a lock file without `.lock`. -/
abbrev Stem := List Char

/-- The `meta` that `acquire_lock` makes of the text of a lock file. -/
inductive Meta
  /-- `{}`: nothing there, half written, not readable -/
  | blank
  /-- a text on which reading the creation time raises -/
  | broken
  /-- a creation time; `owner` is not in the file but says which process wrote it -/
  | recorded (createTime : ℚ) (owner : ℕ)
  deriving DecidableEq

/-- Where a process stands in `acquire_lock`. -/
inductive Pc
  | idle
  /-- these lock files are still to be looked at -/
  | scanning (rest : List Stem)
  /-- `meta` is read, the process behind `pid` is not looked at yet -/
  | checking (stem : Stem) (pid : ℤ) (content : Meta) (rest : List Stem)
  /-- no process runs behind this file -/
  | unlinking (stem : Stem) (rest : List Stem)
  /-- the own lock file is open for writing, and empty -/
  | filling
  deriving DecidableEq

/-- A process. -/
structure Proc where
  /-- tells the processes that have a pid one after the other apart -/
  id : ℕ
  createTime : ℚ
  /-- `APP_NAME.lower() in proc.name().lower()` -/
  named : Bool
  /-- `_lock_file_path` is set -/
  locked : Bool
  pc : Pc

/-- The processes by their pid, and the lock files. -/
structure Sys where
  procs : ℕ → Option Proc
  files : Dict Stem Meta
  nextId : ℕ

variable (decimal : Char → Option (Fin 10))

/-- `f"{os.getpid()}"`. -/
def lockName (pid : ℕ) : Stem := decimalText pid

/-- `_same_process(meta, proc)` in a frozen build. -/
def sameProcess (content : Meta) (proc : Proc) : Bool :=
  match content with
  | .blank => proc.named
  | .broken => false
  | .recorded lockCt _ =>
      if 0 < lockCt ∧ 1 < |lockCt - proc.createTime| then false else proc.named

namespace Sys

/-- `psutil.Process(pid)`; it raises for a pid that nobody has. -/
def proc? (s : Sys) (pid : ℤ) : Option Proc := if 0 ≤ pid then s.procs pid.toNat else none

/-- `is_running`. -/
def isRunning (s : Sys) (pid : ℤ) (content : Meta) : Bool :=
  (s.proc? pid).any (sameProcess content)

def setProc (s : Sys) (pid : ℕ) (proc : Proc) : Sys :=
  { s with procs := Function.update s.procs pid (some proc) }

def setFiles (s : Sys) (files : Dict Stem Meta) : Sys := { s with files := files }

end Sys

/-- One step.  `ok` says whether the call on the file system succeeds, `touched` whether the `touch`
behind a failed writing does. -/
inductive Action
  | spawn (pid : ℕ) (createTime : ℚ) (named : Bool)
  | die (pid : ℕ)
  | list (pid : ℕ) (names : List Stem)
  | read (pid : ℕ) (ok : Bool)
  | check (pid : ℕ)
  | unlink (pid : ℕ) (ok : Bool)
  | openFile (pid : ℕ) (ok touched : Bool)
  | write (pid : ℕ) (ok touched : Bool)
  | release (pid : ℕ) (ok : Bool)

namespace Sys

/-- A step of the live process `pid` of the app. -/
def act (s : Sys) (pid : ℕ) (step : Proc → Option Sys) : Option Sys :=
  match s.procs pid with
  | some proc => if proc.named then step proc else none
  | none => none

/-- `f.unlink(missing_ok=True)`. -/
def unlinked (s : Sys) (stem : Stem) (ok : Bool) : Dict Stem Meta :=
  if ok then s.files.erase stem else s.files

/-- `lock_file.touch()`. -/
def touched (s : Sys) (stem : Stem) (ok : Bool) : Dict Stem Meta :=
  if ok then s.files.setdefault stem .blank else s.files

/-- Listing the lock files starts `acquire_lock`. -/
def stepList (s : Sys) (pid : ℕ) (names : List Stem) (proc : Proc) : Option Sys :=
  if proc.pc = .idle ∧ names.Perm s.files.keys then
    some (s.setProc pid { proc with pc := .scanning names })
  else none

def stepRead (s : Sys) (pid : ℕ) (ok : Bool) (proc : Proc) : Option Sys :=
  match proc.pc with
  | .scanning (stem :: rest) =>
      match integer decimal stem with
      | some n =>
          -- a file that is gone or not readable leaves `meta` empty
          let content := if ok then (s.files.get? stem).getD .blank else .blank
          some (s.setProc pid { proc with pc := .checking stem n content rest })
      | none => none
  | _ => none

/-- `if is_running: return False`. -/
def stepCheck (s : Sys) (pid : ℕ) (proc : Proc) : Option Sys :=
  match proc.pc with
  | .checking stem n content rest =>
      some (s.setProc pid
        { proc with pc := if s.isRunning n content then .idle else .unlinking stem rest })
  | _ => none

/-- The file goes because nobody runs behind it, or because its name is not a pid. -/
def stepUnlink (s : Sys) (pid : ℕ) (ok : Bool) (proc : Proc) : Option Sys :=
  match proc.pc with
  | .unlinking stem rest =>
      some ((s.setProc pid { proc with pc := .scanning rest }).setFiles (s.unlinked stem ok))
  | .scanning (stem :: rest) =>
      match integer decimal stem with
      | some _ => none
      | none =>
          some ((s.setProc pid { proc with pc := .scanning rest }).setFiles (s.unlinked stem ok))
  | _ => none

/-- `write_text` opens the file, which empties it. -/
def stepOpen (s : Sys) (pid : ℕ) (ok touched : Bool) (proc : Proc) : Option Sys :=
  match proc.pc with
  | .scanning [] =>
      if ok then
        some ((s.setProc pid { proc with pc := .filling }).setFiles
          (s.files.set (lockName pid) .blank))
      else
        some ((s.setProc pid { proc with pc := .idle, locked := true }).setFiles
          (s.touched (lockName pid) touched))
  | _ => none

/-- The text is written, if the file is still there; and `acquire_lock` returns `True`. -/
def stepWrite (s : Sys) (pid : ℕ) (ok touched : Bool) (proc : Proc) : Option Sys :=
  match proc.pc with
  | .filling =>
      let files :=
        if ok then
          if lockName pid ∈ s.files.keys then
            s.files.set (lockName pid) (.recorded proc.createTime proc.id)
          else s.files
        else s.touched (lockName pid) touched
      some ((s.setProc pid { proc with pc := .idle, locked := true }).setFiles files)
  | _ => none

/-- `release_lock()`. -/
def stepRelease (s : Sys) (pid : ℕ) (ok : Bool) (proc : Proc) : Option Sys :=
  if proc.pc = .idle ∧ proc.locked = true then
    some ((s.setProc pid { proc with locked := false }).setFiles (s.unlinked (lockName pid) ok))
  else none

/-- A process starts; its pid is a machine integer and its creation time a time since the epoch. -/
def spawned (s : Sys) (pid : ℕ) (createTime : ℚ) (named : Bool) : Option Sys :=
  if s.procs pid = none ∧ pid < 2 ^ 64 ∧ 0 < createTime then
    some { s.setProc pid ⟨s.nextId, createTime, named, false, .idle⟩ with nextId := s.nextId + 1 }
  else none

/-- One step of the system. -/
def step : Action → Sys → Option Sys
  | .spawn pid createTime named, s => s.spawned pid createTime named
  | .die pid, s =>
      if s.procs pid = none then none else some { s with procs := Function.update s.procs pid none }
  | .list pid names, s => s.act pid (s.stepList pid names)
  | .read pid ok, s => s.act pid (s.stepRead decimal pid ok)
  | .check pid, s => s.act pid (s.stepCheck pid)
  | .unlink pid ok, s => s.act pid (s.stepUnlink decimal pid ok)
  | .openFile pid ok touched, s => s.act pid (s.stepOpen pid ok touched)
  | .write pid ok touched, s => s.act pid (s.stepWrite pid ok touched)
  | .release pid ok, s => s.act pid (s.stepRelease pid ok)

end Sys

/-! ## What the lock is for -/

/-- A live process whose `acquire_lock` has returned `True` and that has not released since. -/
def Sys.Holds (s : Sys) (pid : ℕ) : Prop := ∃ proc, s.procs pid = some proc ∧ proc.locked = true

/-- Some live process is the one with this identity. -/
def Sys.Alive (s : Sys) (owner : ℕ) : Prop := ∃ pid proc, s.procs pid = some proc ∧ proc.id = owner

/-- The steps under which the lock works: a process opens its lock file, and succeeds in it, while
no other live process is inside `acquire_lock`; and where a recorded lock is checked, a process of
the app that has the pid and was created within a second of the recorded time is the owner. -/
def Careful (s : Sys) : Action → Prop
  | .openFile pid ok _ =>
      ok = true ∧ ∀ q proc, s.procs q = some proc → q ≠ pid → proc.pc = .idle
  | .check pid => ∀ proc stem n lockCt owner rest, s.procs pid = some proc →
      proc.pc = .checking stem n (.recorded lockCt owner) rest →
      ∀ other, s.proc? n = some other → other.named = true →
        |lockCt - other.createTime| ≤ 1 → other.id = owner
  | _ => True

/-- Any lock files may be there when the first process starts. -/
def Start (s : Sys) : Prop := ∀ pid, s.procs pid = none

/-- The states of the runs whose steps are all careful. -/
abbrev CarefulRun : Sys → Prop := Reachable Start (Sys.step decimal) Careful

/-! ## The invariant -/

/-- A process that has opened its lock file, and has neither released it nor died. -/
def Proc.Claims (proc : Proc) : Prop := proc.locked = true ∨ proc.pc = .filling

/-- The content does not speak against a process with this creation time. -/
def Meta.Fits (createTime : ℚ) : Meta → Prop
  | .blank => True
  | .broken => False
  | .recorded lockCt _ => lockCt ≤ 0 ∨ |lockCt - createTime| ≤ 1

/-- Whoever stands here has the lock file of `pid` still to look at, or has read it. -/
def Ahead (pid : ℕ) (createTime : ℚ) : Pc → Prop
  | .idle => True
  | .filling => True
  | .scanning rest => lockName pid ∈ rest
  | .checking stem n content rest =>
      stem = lockName pid ∧ n = pid ∧ content.Fits createTime ∨
        stem ≠ lockName pid ∧ lockName pid ∈ rest
  | .unlinking stem rest => stem ≠ lockName pid ∧ lockName pid ∈ rest

/-- What a claim rests on. -/
structure Secured (s : Sys) (pid : ℕ) (proc : Proc) : Prop where
  named : proc.named = true
  file : ∃ content, s.files.get? (lockName pid) = some content ∧ content.Fits proc.createTime
  ahead : ∀ q other, s.procs q = some other → Ahead pid proc.createTime other.pc
  sole : ∀ q other, s.procs q = some other → other.Claims → q = pid

/-- The invariant. -/
structure Guarded (s : Sys) : Prop where
  word : ∀ pid proc, s.procs pid = some proc → pid < 2 ^ 64
  secured : ∀ pid proc, s.procs pid = some proc → proc.Claims → Secured s pid proc

lemma sameProcess_iff {content : Meta} {proc : Proc} :
    sameProcess content proc = true ↔ content.Fits proc.createTime ∧ proc.named = true := by
  cases content with
  | blank => simp [sameProcess, Meta.Fits]
  | broken => simp [sameProcess, Meta.Fits]
  | recorded lockCt owner =>
      simp only [sameProcess, Meta.Fits]
      split_ifs with h
      · simp [not_le.mpr h.1, not_le.mpr h.2]
      · have hfits : lockCt ≤ 0 ∨ |lockCt - proc.createTime| ≤ 1 := by
          rcases not_and_or.mp h with h | h
          · exact Or.inl (not_lt.mp h)
          · exact Or.inr (not_lt.mp h)
        simp [hfits]

/-- The name of a lock file tells the pid. -/
lemma integer_lockName {pid : ℕ} (h : pid < 2 ^ 64) :
    integer decimal (lockName pid) = some (pid : ℤ) := by
  refine integer_decimalText decimal (h.trans_le ?_)
  calc 2 ^ 64 ≤ 10 ^ 20 := by norm_num
    _ ≤ 10 ^ maxStrDigits := Nat.pow_le_pow_right (by norm_num) (by norm_num [maxStrDigits])

/-- Who is alive after a step of one process. -/
lemma Sys.procs_setProc {s : Sys} {pid q : ℕ} {new other : Proc}
    (h : (s.setProc pid new).procs q = some other) :
    q = pid ∧ other = new ∨ q ≠ pid ∧ s.procs q = some other := by
  change Function.update s.procs pid (some new) q = some other at h
  by_cases hq : q = pid
  · subst hq
    rw [Function.update_self] at h
    exact Or.inl ⟨rfl, (Option.some.inj h).symm⟩
  · rw [Function.update_of_ne hq] at h
    exact Or.inr ⟨hq, h⟩

namespace Guarded

variable {decimal} {s s' : Sys} {pid : ℕ} {proc : Proc}

/-- **One process moves.**  The invariant survives if the process claims no more than before, has
the files of all claims still ahead, and the files of the claims stay. -/
lemma update (h : Guarded s) {new : Proc} {files : Dict Stem Meta} (hp : s.procs pid = some proc)
    (hnamed : new.named = proc.named) (htime : new.createTime = proc.createTime)
    (hclaims : new.Claims → proc.Claims)
    (hahead : ∀ p other, s.procs p = some other → other.Claims →
      Ahead p other.createTime new.pc)
    (hfiles : ∀ p other, s.procs p = some other → other.Claims → (p = pid → new.Claims) →
      ∃ content, files.get? (lockName p) = some content ∧ content.Fits other.createTime) :
    Guarded ((s.setProc pid new).setFiles files) := by
  constructor
  · intro p other hother
    rcases Sys.procs_setProc hother with ⟨rfl, -⟩ | ⟨-, hold⟩
    · exact h.word p proc hp
    · exact h.word p other hold
  · intro p other hother hc
    rcases Sys.procs_setProc hother with ⟨rfl, rfl⟩ | ⟨hpid, hold⟩
    · have hs := h.secured p proc hp (hclaims hc)
      refine ⟨hnamed ▸ hs.named, htime ▸ hfiles p proc hp (hclaims hc) fun _ => hc, ?_, ?_⟩
      · intro q third hthird
        rcases Sys.procs_setProc hthird with ⟨rfl, rfl⟩ | ⟨-, hthird⟩
        · exact htime ▸ hahead q proc hp (hclaims hc)
        · exact htime ▸ hs.ahead q third hthird
      · intro q third hthird hthirdc
        rcases Sys.procs_setProc hthird with ⟨rfl, -⟩ | ⟨-, hthird⟩
        · rfl
        · exact hs.sole q third hthird hthirdc
    · have hs := h.secured p other hold hc
      refine ⟨hs.named, hfiles p other hold hc fun heq => absurd heq hpid, ?_, ?_⟩
      · intro q third hthird
        rcases Sys.procs_setProc hthird with ⟨rfl, rfl⟩ | ⟨-, hthird⟩
        · exact hahead p other hold hc
        · exact hs.ahead q third hthird
      · intro q third hthird hthirdc
        rcases Sys.procs_setProc hthird with ⟨rfl, rfl⟩ | ⟨-, hthird⟩
        · exact hs.sole q proc hp (hclaims hthirdc)
        · exact hs.sole q third hthird hthirdc

/-- Such a move that leaves the files alone. -/
lemma updateProc (h : Guarded s) {new : Proc} (hp : s.procs pid = some proc)
    (hnamed : new.named = proc.named) (htime : new.createTime = proc.createTime)
    (hclaims : new.Claims → proc.Claims)
    (hahead : ∀ p other, s.procs p = some other → other.Claims →
      Ahead p other.createTime new.pc) : Guarded (s.setProc pid new) := by
  show Guarded ((s.setProc pid new).setFiles s.files)
  refine h.update hp hnamed htime hclaims hahead ?_
  intro p other hother hc _
  exact (h.secured p other hother hc).file

lemma stepList (h : Guarded s) {names : List Stem} (hp : s.procs pid = some proc)
    (hs : s.stepList pid names proc = some s') : Guarded s' := by
  rw [Sys.stepList] at hs
  split_ifs at hs with hguard
  obtain rfl := Option.some.inj hs
  refine h.updateProc hp rfl rfl ?_ ?_
  · rintro (hl | hpc)
    · exact Or.inl hl
    · cases hpc
  · intro p other hother hc
    obtain ⟨content, hfile, -⟩ := (h.secured p other hother hc).file
    exact hguard.2.mem_iff.mpr (Dict.mem_keys_of_mem (Dict.get?_eq_some.mp hfile))

lemma stepRead (h : Guarded s) {ok : Bool} (hp : s.procs pid = some proc)
    (hs : s.stepRead decimal pid ok proc = some s') : Guarded s' := by
  rw [Sys.stepRead] at hs
  split at hs
  · rename_i stem rest hpc
    split at hs
    · rename_i n hn
      obtain rfl := Option.some.inj hs
      refine h.updateProc hp rfl rfl ?_ ?_
      · rintro (hl | hpc)
        · exact Or.inl hl
        · cases hpc
      · intro p other hother hc
        have hsec := h.secured p other hother hc
        have hlist : lockName p ∈ stem :: rest := by
          have hahead := hsec.ahead pid proc hp
          rwa [hpc] at hahead
        by_cases hstem : stem = lockName p
        · refine Or.inl ⟨hstem, ?_, ?_⟩
          · have hname := integer_lockName decimal (h.word p other hother)
            rw [← hstem, hn] at hname
            exact Option.some.inj hname
          · obtain ⟨content, hfile, hfits⟩ := hsec.file
            cases ok with
            | true =>
                rw [if_pos rfl, hstem, hfile]
                exact hfits
            | false => exact trivial
        · exact Or.inr ⟨hstem, (List.mem_cons.mp hlist).resolve_left (Ne.symm hstem)⟩
    · cases hs
  · cases hs

/-- **Whoever reads the lock of a claim stops.** -/
lemma isRunning_of_claims (h : Guarded s) {p : ℕ} {content : Meta} (hp : s.procs p = some proc)
    (hc : proc.Claims) (hfits : content.Fits proc.createTime) :
    s.isRunning p content = true := by
  have hproc : s.proc? p = some proc := by
    rw [Sys.proc?, if_pos (Int.natCast_nonneg p), Int.toNat_natCast, hp]
  rw [Sys.isRunning, hproc]
  exact sameProcess_iff.mpr ⟨hfits, (h.secured p proc hp hc).named⟩

lemma stepCheck (h : Guarded s) (hp : s.procs pid = some proc)
    (hs : s.stepCheck pid proc = some s') : Guarded s' := by
  rw [Sys.stepCheck] at hs
  split at hs
  · rename_i stem n content rest hpc
    obtain rfl := Option.some.inj hs
    refine h.updateProc hp rfl rfl ?_ ?_
    · rintro (hl | hfill)
      · exact Or.inl hl
      · dsimp only at hfill
        split_ifs at hfill
    · intro p other hother hc
      dsimp only
      split_ifs with hrun
      · exact trivial
      · have hahead := (h.secured p other hother hc).ahead pid proc hp
        rw [hpc] at hahead
        rcases hahead with ⟨-, rfl, hfits⟩ | hrest
        · exact absurd (h.isRunning_of_claims hother hc hfits) hrun
        · exact hrest
  · cases hs

/-- The file of a claim outlives the removal of another file. -/
lemma file_unlinked (h : Guarded s) {stem : Stem} {p : ℕ} {other : Proc} {ok : Bool}
    (hother : s.procs p = some other) (hc : other.Claims) (hne : stem ≠ lockName p) :
    ∃ content, (s.unlinked stem ok).get? (lockName p) = some content ∧
      content.Fits other.createTime := by
  have hfile := (h.secured p other hother hc).file
  rw [Sys.unlinked]
  split_ifs
  · rwa [Dict.get?_erase_of_ne (Ne.symm hne)]
  · exact hfile

lemma stepUnlink (h : Guarded s) {ok : Bool} (hp : s.procs pid = some proc)
    (hs : s.stepUnlink decimal pid ok proc = some s') : Guarded s' := by
  have hmove : ∀ {stem rest}, (∀ p other, s.procs p = some other → other.Claims →
      stem ≠ lockName p ∧ lockName p ∈ rest) → Guarded
        ((s.setProc pid { proc with pc := .scanning rest }).setFiles (s.unlinked stem ok)) := by
    intro stem rest hclear
    refine h.update hp rfl rfl ?_ ?_ ?_
    · rintro (hl | hpc)
      · exact Or.inl hl
      · cases hpc
    · intro p other hother hc
      exact (hclear p other hother hc).2
    · intro p other hother hc _
      exact h.file_unlinked hother hc (hclear p other hother hc).1
  rw [Sys.stepUnlink] at hs
  split at hs
  · rename_i stem rest hpc
    obtain rfl := Option.some.inj hs
    refine hmove fun p other hother hc => ?_
    have hahead := (h.secured p other hother hc).ahead pid proc hp
    rwa [hpc] at hahead
  · rename_i stem rest hpc
    split at hs
    · cases hs
    · rename_i hn
      obtain rfl := Option.some.inj hs
      refine hmove fun p other hother hc => ?_
      have hne : stem ≠ lockName p := by
        rintro rfl
        rw [integer_lockName decimal (h.word p other hother)] at hn
        cases hn
      have hahead := (h.secured p other hother hc).ahead pid proc hp
      rw [hpc] at hahead
      exact ⟨hne, (List.mem_cons.mp hahead).resolve_left (Ne.symm hne)⟩
  · cases hs

/-- **Who opens its file is alone.** -/
lemma stepOpen (h : Guarded s) {touched : Bool} (hp : s.procs pid = some proc)
    (hnamed : proc.named = true)
    (hidle : ∀ q other, s.procs q = some other → q ≠ pid → other.pc = .idle)
    (hs : s.stepOpen pid true touched proc = some s') : Guarded s' := by
  rw [Sys.stepOpen] at hs
  split at hs
  · rename_i hpc
    obtain rfl := Option.some.inj hs
    -- everything is looked at, so nobody claims the lock
    have hfree : ∀ p other, s.procs p = some other → ¬ other.Claims := by
      intro p other hother hc
      have hahead := (h.secured p other hother hc).ahead pid proc hp
      rw [hpc] at hahead
      cases hahead
    constructor
    · intro p other hother
      rcases Sys.procs_setProc hother with ⟨rfl, -⟩ | ⟨-, hold⟩
      · exact h.word p proc hp
      · exact h.word p other hold
    · intro p other hother hc
      rcases Sys.procs_setProc hother with ⟨rfl, rfl⟩ | ⟨-, hold⟩
      · refine ⟨hnamed, ⟨.blank, Dict.get?_set_self _ _ _, trivial⟩, ?_, ?_⟩
        · intro q third hthird
          rcases Sys.procs_setProc hthird with ⟨rfl, rfl⟩ | ⟨hq, hthird⟩
          · exact trivial
          · rw [hidle q third hthird hq]
            exact trivial
        · intro q third hthird hthirdc
          rcases Sys.procs_setProc hthird with ⟨rfl, -⟩ | ⟨-, hthird⟩
          · rfl
          · exact absurd hthirdc (hfree q third hthird)
      · exact absurd hc (hfree p other hold)
  · cases hs

lemma stepWrite (h : Guarded s) {ok touched : Bool} (hp : s.procs pid = some proc)
    (hs : s.stepWrite pid ok touched proc = some s') : Guarded s' := by
  rw [Sys.stepWrite] at hs
  split at hs
  · rename_i hpc
    obtain rfl := Option.some.inj hs
    have hclaim : proc.Claims := Or.inr hpc
    have hsec := h.secured pid proc hp hclaim
    obtain ⟨content, hfile, hfits⟩ := hsec.file
    have hmem : lockName pid ∈ s.files.keys :=
      Dict.mem_keys_of_mem (Dict.get?_eq_some.mp hfile)
    refine h.update hp rfl rfl (fun _ => hclaim) (fun _ _ _ _ => trivial) ?_
    intro p other hother hc _
    obtain rfl := hsec.sole p other hother hc
    obtain rfl : proc = other := Option.some.inj (hp.symm.trans hother)
    cases ok with
    | true =>
        rw [if_pos rfl, if_pos hmem, Dict.get?_set_self]
        exact ⟨_, rfl, Or.inr (by simp)⟩
    | false =>
        rw [if_neg (by simp), Sys.touched]
        refine ⟨content, ?_, hfits⟩
        split_ifs
        · rw [Dict.setdefault, if_pos hmem, hfile]
        · exact hfile
  · cases hs

lemma stepRelease (h : Guarded s) {ok : Bool} (hp : s.procs pid = some proc)
    (hs : s.stepRelease pid ok proc = some s') : Guarded s' := by
  rw [Sys.stepRelease] at hs
  split_ifs at hs with hguard
  obtain rfl := Option.some.inj hs
  have hclaim : proc.Claims := Or.inl hguard.2
  have hno : ¬ Proc.Claims { proc with locked := false } := by
    rintro (hl | hpc)
    · cases hl
    · rw [hguard.1] at hpc
      cases hpc
  refine h.update hp rfl rfl (fun hc => absurd hc hno) ?_ ?_
  · intro p other hother hc
    dsimp only
    rw [hguard.1]
    exact trivial
  · intro p other hother hc hstill
    exact absurd (hstill ((h.secured pid proc hp hclaim).sole p other hother hc)) hno

/-- A process that starts claims nothing. -/
lemma spawned (h : Guarded s) {createTime : ℚ} {named : Bool}
    (hs : s.spawned pid createTime named = some s') : Guarded s' := by
  rw [Sys.spawned] at hs
  split_ifs at hs with hguard
  obtain rfl := Option.some.inj hs
  have hno : ¬ Proc.Claims ⟨s.nextId, createTime, named, false, .idle⟩ := by
    rintro (hl | hpc)
    · cases hl
    · cases hpc
  constructor
  · intro p other hother
    rcases Sys.procs_setProc hother with ⟨rfl, -⟩ | ⟨-, hold⟩
    · exact hguard.2.1
    · exact h.word p other hold
  · intro p other hother hc
    rcases Sys.procs_setProc hother with ⟨-, rfl⟩ | ⟨-, hold⟩
    · exact absurd hc hno
    · have hsec := h.secured p other hold hc
      refine ⟨hsec.named, hsec.file, ?_, ?_⟩
      · intro q third hthird
        rcases Sys.procs_setProc hthird with ⟨-, rfl⟩ | ⟨-, hthird⟩
        · exact trivial
        · exact hsec.ahead q third hthird
      · intro q third hthird hthirdc
        rcases Sys.procs_setProc hthird with ⟨-, rfl⟩ | ⟨-, hthird⟩
        · exact absurd hthirdc hno
        · exact hsec.sole q third hthird hthirdc

/-- A process that dies takes its claim along. -/
lemma die (h : Guarded s) : Guarded { s with procs := Function.update s.procs pid none } := by
  have hlive : ∀ {q other}, Function.update s.procs pid none q = some other →
      s.procs q = some other := by
    intro q other hother
    by_cases hq : q = pid
    · subst hq
      rw [Function.update_self] at hother
      cases hother
    · rwa [Function.update_of_ne hq] at hother
  constructor
  · intro p other hother
    exact h.word p other (hlive hother)
  · intro p other hother hc
    have hsec := h.secured p other (hlive hother) hc
    exact ⟨hsec.named, hsec.file, fun q third hthird => hsec.ahead q third (hlive hthird),
      fun q third hthird => hsec.sole q third (hlive hthird)⟩

end Guarded

/-- A step of a process is a step of a live process of the app. -/
lemma Sys.act_eq_some {s s' : Sys} {pid : ℕ} {f : Proc → Option Sys}
    (h : s.act pid f = some s') :
    ∃ proc, s.procs pid = some proc ∧ proc.named = true ∧ f proc = some s' := by
  rw [Sys.act] at h
  split at h
  · rename_i proc hp
    split_ifs at h with hnamed
    exact ⟨proc, hp, hnamed, h⟩
  · cases h

variable {decimal}

/-- **The invariant survives every careful step.** -/
theorem Guarded.step {s s' : Sys} {a : Action} (h : Guarded s) (ha : Careful s a)
    (hs : Sys.step decimal a s = some s') : Guarded s' := by
  cases a with
  | spawn pid createTime named => exact h.spawned hs
  | die pid =>
      rw [Sys.step] at hs
      split_ifs at hs
      exact Option.some.inj hs ▸ h.die
  | list pid names =>
      obtain ⟨proc, hp, -, hs⟩ := Sys.act_eq_some hs
      exact h.stepList hp hs
  | read pid ok =>
      obtain ⟨proc, hp, -, hs⟩ := Sys.act_eq_some hs
      exact h.stepRead hp hs
  | check pid =>
      obtain ⟨proc, hp, -, hs⟩ := Sys.act_eq_some hs
      exact h.stepCheck hp hs
  | unlink pid ok =>
      obtain ⟨proc, hp, -, hs⟩ := Sys.act_eq_some hs
      exact h.stepUnlink hp hs
  | openFile pid ok touched =>
      obtain ⟨proc, hp, hnamed, hs⟩ := Sys.act_eq_some hs
      obtain ⟨rfl, hidle⟩ := ha
      exact h.stepOpen hp hnamed hidle hs
  | write pid ok touched =>
      obtain ⟨proc, hp, -, hs⟩ := Sys.act_eq_some hs
      exact h.stepWrite hp hs
  | release pid ok =>
      obtain ⟨proc, hp, -, hs⟩ := Sys.act_eq_some hs
      exact h.stepRelease hp hs

/-- The invariant holds in every state of a careful run. -/
theorem guarded_of_careful {s : Sys} (h : CarefulRun decimal s) : Guarded s := by
  refine h.invariant ?_ fun s a s' _ hs ha hstep => hs.step ha hstep
  intro s hstart
  refine ⟨fun pid proc hp => ?_, fun pid proc hp => ?_⟩
  all_goals
    rw [hstart pid] at hp
    cases hp

/-- A recorded lock that stops somebody is the lock of a live process. -/
lemma alive_of_isRunning {s : Sys} {pid : ℕ} {proc : Proc} {stem : Stem} {n : ℤ} {lockCt : ℚ}
    {owner : ℕ} {rest : List Stem} (ha : Careful s (.check pid)) (hp : s.procs pid = some proc)
    (hpc : proc.pc = .checking stem n (.recorded lockCt owner) rest) (hct : 0 < lockCt)
    (hrun : s.isRunning n (.recorded lockCt owner) = true) : s.Alive owner := by
  rw [Sys.isRunning, Option.any_eq_true] at hrun
  obtain ⟨other, hother, hsame⟩ := hrun
  obtain ⟨hfits, hnamed⟩ := sameProcess_iff.mp hsame
  have hclose : |lockCt - other.createTime| ≤ 1 := hfits.resolve_left (not_le.mpr hct)
  have hid := ha proc stem n lockCt owner rest hp hpc other hother hnamed hclose
  rw [Sys.proc?] at hother
  split_ifs at hother
  exact ⟨_, other, hother, hid⟩

/-- **The single-instance lock.**  In every state of a careful run at most one live process holds
the lock; and where `acquire_lock` checks the recorded lock of a dead process, it goes on to remove
it. -/
theorem single_instance {s : Sys} (h : CarefulRun decimal s) :
    (∀ p q, s.Holds p → s.Holds q → p = q) ∧
      ∀ pid proc stem n lockCt owner rest, s.procs pid = some proc → proc.named = true →
        proc.pc = .checking stem n (.recorded lockCt owner) rest → 0 < lockCt →
        ¬ s.Alive owner → Careful s (.check pid) →
        Sys.step decimal (.check pid) s =
          some (s.setProc pid { proc with pc := .unlinking stem rest }) := by
  have hinv := guarded_of_careful h
  constructor
  · rintro p q ⟨proc, hp, hl⟩ ⟨other, hq, hlo⟩
    exact ((hinv.secured p proc hp (Or.inl hl)).sole q other hq (Or.inl hlo)).symm
  · intro pid proc stem n lockCt owner rest hp hnamed hpc hct hdead ha
    have hrun : ¬ s.isRunning n (.recorded lockCt owner) = true := fun hrun =>
      hdead (alive_of_isRunning ha hp hpc hct hrun)
    have hact : s.act pid (s.stepCheck pid) = s.stepCheck pid proc := by
      simp only [Sys.act, hp, hnamed, if_true]
    rw [Sys.step, hact, Sys.stepCheck, hpc]
    dsimp only
    rw [if_neg hrun]

/-- A machine on which the process 5 died and left its lock. -/
def deadLock : Sys := ⟨fun _ => none, Dict.empty.set (lockName 5) (.recorded 100 0), 1⟩

/-- The process 7 has read the lock of the dead process 5; and where it holds its own, the process 9
is turned away. -/
theorem dead_lock_removed :
    (∃ s proc, CarefulRun (fun _ => none) s ∧ s.procs 7 = some proc ∧
      (∀ p q, s.Holds p → s.Holds q → p = q) ∧
      Sys.step (fun _ => none) (.check 7) s =
        some (s.setProc 7 { proc with pc := .unlinking (lockName 5) [] })) ∧
    ∃ s, CarefulRun (fun _ => none) s ∧ s.Holds 7 ∧
      s.procs 9 = some ⟨1, 200, true, false, .idle⟩ ∧ ∀ p q, s.Holds p → s.Holds q → p = q := by
  constructor
  · have hexec : ∃ s, exec (Sys.step fun _ => none)
        [.spawn 7 200 true, .list 7 [lockName 5], .read 7 true] deadLock = some s ∧
        s.procs 7 = some ⟨1, 200, true, false, .checking (lockName 5) 5 (.recorded 100 0) []⟩ ∧
        ∀ pid, pid ≠ 7 → s.procs pid = none := by
      refine ⟨_, rfl, rfl, fun pid hpid => ?_⟩
      simp [Function.update, hpid, deadLock, Sys.setProc]
    obtain ⟨s, hs, h7, hothers⟩ := hexec
    have hrun : CarefulRun (fun _ => none) s := by
      refine reachable_of_exec_of_allowed ?_ (.start fun _ => rfl) hs
      simp [Careful]
    have hcareful : Careful s (.check 7) := by
      rintro proc stem n lockCt owner rest hp hpc other hother -
      obtain rfl := Option.some.inj (h7.symm.trans hp)
      cases hpc
      rw [show s.proc? 5 = s.procs 5 from rfl, hothers 5 (by norm_num)] at hother
      cases hother
    have hdead : ¬ s.Alive 0 := by
      rintro ⟨pid, proc, hp, hid⟩
      by_cases hpid : pid = 7
      · rw [hpid, h7] at hp
        rw [← Option.some.inj hp] at hid
        cases hid
      · rw [hothers pid hpid] at hp
        cases hp
    obtain ⟨hsingle, hdeny⟩ := single_instance hrun
    exact ⟨s, _, hrun, h7, hsingle, hdeny 7 _ _ _ _ _ _ h7 rfl rfl (by norm_num) hdead hcareful⟩
  · have hexec : ∃ s₁, exec (Sys.step fun _ => none) [.spawn 7 100 true, .list 7 []]
        ⟨fun _ => none, Dict.empty, 0⟩ = some s₁ ∧ (∀ pid, pid ≠ 7 → s₁.procs pid = none) ∧
        ∃ s₂, Sys.step (fun _ => none) (.openFile 7 true true) s₁ = some s₂ ∧
        ∃ s₃, exec (Sys.step fun _ => none) [.write 7 true true, .spawn 9 200 true,
          .list 9 [lockName 7], .read 9 true] s₂ = some s₃ ∧
        s₃.procs 7 = some ⟨0, 100, true, true, .idle⟩ ∧
        s₃.procs 9 = some ⟨1, 200, true, false, .checking (lockName 7) 7 (.recorded 100 0) []⟩ := by
      refine ⟨_, rfl, fun pid hpid => ?_, _, rfl, _, rfl, rfl, rfl⟩
      simp [Function.update, hpid, Sys.setProc]
    obtain ⟨s₁, hs₁, halone, s₂, hs₂, s₃, hs₃, h7, h9⟩ := hexec
    have hrunning : s₃.isRunning 7 (.recorded 100 0) = true := by
      rw [Sys.isRunning, show s₃.proc? 7 = s₃.procs 7 from rfl, h7]
      simp [sameProcess]
    have hs₄ : Sys.step (fun _ => none) (.check 9) s₃ =
        some (s₃.setProc 9 ⟨1, 200, true, false, .idle⟩) := by
      rw [Sys.step, Sys.act, h9]
      simp [Sys.stepCheck, hrunning]
    have hrun₁ : CarefulRun (fun _ => none) s₁ :=
      reachable_of_exec_of_allowed (by simp [Careful]) (.start fun _ => rfl) hs₁
    have hrun₂ : CarefulRun (fun _ => none) s₂ := by
      refine hrun₁.step (.openFile 7 true true) ⟨rfl, fun q proc hq hne => ?_⟩ hs₂
      rw [halone q hne] at hq
      cases hq
    have hrun₃ : CarefulRun (fun _ => none) s₃ :=
      reachable_of_exec_of_allowed (by simp [Careful]) hrun₂ hs₃
    have hcareful : Careful s₃ (.check 9) := by
      rintro proc stem n lockCt owner rest hp hpc other hother - -
      obtain rfl := Option.some.inj (h9.symm.trans hp)
      cases hpc
      obtain rfl := Option.some.inj (h7.symm.trans hother)
      rfl
    have hrun₄ := hrun₃.step (.check 9) hcareful hs₄
    exact ⟨_, hrun₄, ⟨_, by simpa [Sys.setProc] using h7, rfl⟩, by simp [Sys.setProc],
      (single_instance hrun₄).1⟩

/-- **Two processes that list before either opens its file.** -/
theorem two_holders :
    ¬ ∀ s, Reachable Start (Sys.step fun _ => none) Always s →
      ∀ p q, s.Holds p → s.Holds q → p = q := by
  intro hall
  have hexec : ∃ s, exec (Sys.step fun _ => none)
      [.spawn 7 100 true, .spawn 9 100 true, .list 7 [], .list 9 [], .openFile 7 true true,
        .write 7 true true, .openFile 9 true true, .write 9 true true]
      ⟨fun _ => none, Dict.empty, 0⟩ = some s ∧ s.Holds 7 ∧ s.Holds 9 :=
    ⟨_, rfl, ⟨_, rfl, rfl⟩, ⟨_, rfl, rfl⟩⟩
  obtain ⟨s, hs, h7, h9⟩ := hexec
  have hstart : Start ⟨fun _ => none, Dict.empty, 0⟩ := fun _ => rfl
  have hrun := reachable_of_exec (.start hstart) hs
  exact absurd (hall s hrun 7 9 h7 h9) (by norm_num)

end TgWsProxy.InstanceLock
