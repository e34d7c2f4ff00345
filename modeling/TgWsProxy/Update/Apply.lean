import TgWsProxy.Core.Dict
import TgWsProxy.Core.Text
import TgWsProxy.Core.Transition
import TgWsProxy.Obfuscation.Aes

/-!
# The update in place

`apply_update` of `utils/windows_update.py` with `download_asset` of `utils/update_check.py`, and
the clean-up of `windows.py`: a verified download takes the place of the executable, which is kept
beside it until the new one has been launched.

* `Disk`, `Proc`, `Pc`, `Sys` — the executable and its backup, the processes and where they stand.
* `Action`, `Sys.step` — one call on the files, which may fail; processes start and end at any
  time, and the system may be shut down.  What a call has done to the files stays: as nothing is
  flushed, a loss of power is not covered.  A file that a process was loaded from can be renamed,
  and neither removed nor replaced.
* `Version`, `Move` — what the update is for: a version is installed, gone back from, or settled.
* `Sound` — the invariant: what a process has made sure of, and that one at a time has moved the
  executable away.
* `Turn`, `Goes` — what a step of a process does to the disk, and to the others.
* `step_cases` — a step starts a process, ends some, or is such a step.
-/

namespace TgWsProxy.Update

open Wire

/-! ## The code -/

/-- A file: which of all files it is, and its octets. -/
structure File where
  id : ℕ
  content : Bytes
  deriving DecidableEq

/-- What `sha256:` matches under `re.IGNORECASE`. -/
def shaClasses : List (List Char) :=
  [['s', 'S', 'ſ'], ['h', 'H'], ['a', 'A'], ['2'], ['5'], ['6'], [':']]

/-- `_SHA256.fullmatch(digest)`, and of the match `expected[1].lower()`. -/
def expected (digest : List Char) : Option (List Char) :=
  let named := (List.zipWith (fun c cs => decide (c ∈ cs)) digest shaClasses).all id
  if digest.length = shaClasses.length + 64 ∧ named = true ∧
      (digest.drop shaClasses.length).all isHexDigit = true then
    some ((digest.drop shaClasses.length).map Char.toLower)
  else none

/-- `sha.hexdigest()`. -/
def hexdigest (digest : Digest) : List Char :=
  digest.1.flatMap fun b => [Nat.digitChar (b.toNat / 16), Nat.digitChar (b.toNat % 16)]

/-- Where a process stands in `apply_update`. -/
inductive Pc
  | idle
  /-- in `download_asset`; `hashed` is what `sha` has seen -/
  | downloading (tmp : File) (hashed : Bytes)
  /-- before `backup.unlink(missing_ok=True)` -/
  | unlinking (tmp : File)
  /-- before `exe.rename(backup)` -/
  | renaming (tmp : File)
  /-- before `downloaded.replace(exe)` -/
  | replacing (tmp : File)
  /-- before `before_restart()` -/
  | preparing
  /-- before `subprocess.Popen` -/
  | launching
  /-- before `backup.replace(exe)`, which undoes the update -/
  | restoring (tmp? : Option File)
  /-- something was raised; before `downloaded.unlink` -/
  | discarding (tmp? : Option File)
  /-- before `os._exit(0)` -/
  | exiting

/-- The download that lies in the directory. -/
def Pc.temp? : Pc → Option File
  | .downloading tmp _ => some tmp
  | .unlinking tmp => some tmp
  | .renaming tmp => some tmp
  | .replacing tmp => some tmp
  | .restoring tmp? => tmp?
  | .discarding tmp? => tmp?
  | .idle => none
  | .preparing => none
  | .launching => none
  | .exiting => none

/-- A process: the file it was loaded from, and the digest that `apply_update` was given. -/
structure Proc where
  image : ℕ
  digest : List Char
  pc : Pc

/-- The executable, and what `_oldtgws.exe` keeps. -/
structure Disk where
  exe : Option File
  backup : Option File

/-- The directory and the processes; `litter` are downloads that nobody will remove. -/
structure Sys where
  disk : Disk
  litter : List File
  procs : Dict ℕ Proc
  nextId : ℕ

variable (sha256 : Bytes → Digest)

namespace Sys

/-- Some process was loaded from the file. -/
def busy (s : Sys) (file? : Option File) : Bool :=
  file?.any fun f => s.procs.values.any fun p => p.image = f.id

def setProc (s : Sys) (pid : ℕ) (p : Proc) : Sys := { s with procs := s.procs.set pid p }

/-- The process goes on at `pc` with the disk as it is then. -/
def goTo (s : Sys) (pid : ℕ) (p : Proc) (disk : Disk) (pc : Pc) : Sys :=
  { s.setProc pid { p with pc := pc } with disk := disk }

/-- A process is loaded from the executable. -/
def started (s : Sys) (pid : ℕ) : Option Sys :=
  match s.disk.exe with
  | some f => if pid ∈ s.procs.keys then none else some (s.setProc pid ⟨f.id, [], .idle⟩)
  | none => none

end Sys

/-- One step.  `ok` says whether the calls in it succeed, as far as the disk lets them. -/
inductive Action
  | start (pid : ℕ)
  | exit (pid : ℕ)
  | shutdown
  | cleanup (pid : ℕ) (ok : Bool)
  | apply (pid : ℕ) (digest : List Char) (ok : Bool)
  | chunk (pid : ℕ) (data : Bytes) (ok : Bool)
  | finish (pid : ℕ) (ok : Bool)
  | unlink (pid : ℕ) (ok : Bool)
  | rename (pid : ℕ) (ok : Bool)
  | replace (pid : ℕ) (ok : Bool)
  | prepare (pid : ℕ) (ok : Bool)
  | launch (pid child : ℕ) (ok : Bool)
  | restore (pid : ℕ) (ok : Bool)
  | discard (pid : ℕ) (ok : Bool)

namespace Sys

/-- A step of the live process `pid`. -/
def act (s : Sys) (pid : ℕ) (step : Proc → Option Sys) : Option Sys :=
  match s.procs.get? pid with
  | some p => step p
  | none => none

/-- The process ends wherever it stands. -/
def stepExit (s : Sys) (pid : ℕ) (p : Proc) : Option Sys :=
  some { s with procs := s.procs.erase pid, litter := s.litter ++ p.pc.temp?.toList }

/-- All processes end, wherever they stand, and the system writes out what they have written. -/
def stepShutdown (s : Sys) : Sys :=
  { s with procs := .empty, litter := s.litter ++ s.procs.values.flatMap (·.pc.temp?.toList) }

/-- `_cleanup_old_exes`, on a thread of its own. -/
def stepCleanup (s : Sys) (ok : Bool) (_ : Proc) : Option Sys :=
  if ok = true ∧ s.busy s.disk.backup = false then
    some { s with disk := { s.disk with backup := none } }
  else some s

/-- `apply_update` is called, and `download_asset` makes a file for the download. -/
def stepApply (s : Sys) (pid : ℕ) (digest : List Char) (ok : Bool) (p : Proc) : Option Sys :=
  match p.pc with
  | .idle =>
      if ok = true ∧ (expected digest).isSome = true then
        some { s.goTo pid { p with digest := digest } s.disk (.downloading ⟨s.nextId, []⟩ []) with
          nextId := s.nextId + 1 }
      else some s
  | _ => none

/-- A chunk is read, written and hashed; a writing that fails may have written part of it. -/
def stepChunk (s : Sys) (pid : ℕ) (data : Bytes) (ok : Bool) (p : Proc) : Option Sys :=
  match p.pc with
  | .downloading tmp hashed =>
      let tmp := { tmp with content := tmp.content ++ data }
      some (s.goTo pid p s.disk
        (if ok then .downloading tmp (hashed ++ data) else .discarding (some tmp)))
  | _ => none

/-- The end of the download: the file is closed and the digests are compared. -/
def stepFinish (s : Sys) (pid : ℕ) (ok : Bool) (p : Proc) : Option Sys :=
  match p.pc with
  | .downloading tmp hashed =>
      some (s.goTo pid p s.disk
        (if ok = true ∧ expected p.digest = some (hexdigest (sha256 hashed)) then .unlinking tmp
        else .discarding (some tmp)))
  | _ => none

def stepUnlink (s : Sys) (pid : ℕ) (ok : Bool) (p : Proc) : Option Sys :=
  match p.pc with
  | .unlinking tmp =>
      if ok = true ∧ s.busy s.disk.backup = false then
        some (s.goTo pid p { s.disk with backup := none } (.renaming tmp))
      else some (s.goTo pid p s.disk (.discarding (some tmp)))
  | _ => none

/-- `rename` does not replace what is there. -/
def stepRename (s : Sys) (pid : ℕ) (ok : Bool) (p : Proc) : Option Sys :=
  match p.pc with
  | .renaming tmp =>
      if ok = true ∧ s.disk.exe.isSome = true ∧ s.disk.backup.isNone = true then
        some (s.goTo pid p ⟨none, s.disk.exe⟩ (.replacing tmp))
      else some (s.goTo pid p s.disk (.discarding (some tmp)))
  | _ => none

def stepReplace (s : Sys) (pid : ℕ) (ok : Bool) (p : Proc) : Option Sys :=
  match p.pc with
  | .replacing tmp =>
      if ok = true ∧ s.busy s.disk.exe = false then
        some (s.goTo pid p { s.disk with exe := some tmp } .preparing)
      else some (s.goTo pid p s.disk (.restoring (some tmp)))
  | _ => none

def stepPrepare (s : Sys) (pid : ℕ) (ok : Bool) (p : Proc) : Option Sys :=
  match p.pc with
  | .preparing => some (s.goTo pid p s.disk (if ok then .launching else .restoring none))
  | _ => none

/-- Behind a launch there is no download left to unlink. -/
def stepLaunch (s : Sys) (pid child : ℕ) (ok : Bool) (p : Proc) : Option Sys :=
  match p.pc with
  | .launching =>
      if ok = true ∧ s.disk.exe.isSome = true then (s.goTo pid p s.disk .exiting).started child
      else some (s.goTo pid p s.disk (.restoring none))
  | _ => none

def stepRestore (s : Sys) (pid : ℕ) (ok : Bool) (p : Proc) : Option Sys :=
  match p.pc with
  | .restoring tmp? =>
      if ok = true ∧ s.disk.backup.isSome = true ∧ s.busy s.disk.exe = false then
        some (s.goTo pid p ⟨s.disk.backup, none⟩ (.discarding tmp?))
      else some (s.goTo pid p s.disk (.discarding tmp?))
  | _ => none

/-- `suppress(OSError)`: a download that cannot be removed stays. -/
def stepDiscard (s : Sys) (pid : ℕ) (ok : Bool) (p : Proc) : Option Sys :=
  match p.pc with
  | .discarding tmp? =>
      some { s.goTo pid p s.disk .idle with
        litter := if ok then s.litter else s.litter ++ tmp?.toList }
  | _ => none

/-- One step of the system. -/
def step : Action → Sys → Option Sys
  | .start pid, s => s.started pid
  | .exit pid, s => s.act pid (s.stepExit pid)
  | .shutdown, s => some s.stepShutdown
  | .cleanup pid ok, s => s.act pid (s.stepCleanup ok)
  | .apply pid digest ok, s => s.act pid (s.stepApply pid digest ok)
  | .chunk pid data ok, s => s.act pid (s.stepChunk pid data ok)
  | .finish pid ok, s => s.act pid (s.stepFinish sha256 pid ok)
  | .unlink pid ok, s => s.act pid (s.stepUnlink pid ok)
  | .rename pid ok, s => s.act pid (s.stepRename pid ok)
  | .replace pid ok, s => s.act pid (s.stepReplace pid ok)
  | .prepare pid ok, s => s.act pid (s.stepPrepare pid ok)
  | .launch pid child ok, s => s.act pid (s.stepLaunch pid child ok)
  | .restore pid ok, s => s.act pid (s.stepRestore pid ok)
  | .discard pid ok, s => s.act pid (s.stepDiscard pid ok)

end Sys

/-! ## What the update is for -/

variable (released : List Char → Prop) (installed : File)

/-- The octets have the checksum. -/
def Verified (digest : List Char) (content : Bytes) : Prop :=
  expected digest = some (hexdigest (sha256 content))

/-- The file has the checksum of a release. -/
def Trusted (f : File) : Prop := ∃ digest, released digest ∧ Verified sha256 digest f.content

/-- What will run, and what can still be gone back to. -/
structure Version where
  current : File
  previous : Option File

/-- Install, go back, or settle for what is there. -/
inductive Move : Version → Version → Prop
  | install {old new : File} (h : Trusted sha256 released new) : Move ⟨old, none⟩ ⟨new, some old⟩
  | revert {old new : File} : Move ⟨new, some old⟩ ⟨old, none⟩
  | settle {old new : File} : Move ⟨new, some old⟩ ⟨new, none⟩

/-- Without an executable the backup is what will run. -/
def Disk.version (d : Disk) : Option Version :=
  match d.exe, d.backup with
  | some f, previous => some ⟨f, previous⟩
  | none, some f => some ⟨f, none⟩
  | none, none => none

/-- `apply_update` is given digests of releases. -/
def Known (_ : Sys) : Action → Prop
  | .apply _ digest _ => released digest
  | _ => True

/-- No call of the process is under way, or it has launched the new executable. -/
def Pc.AtRest : Pc → Prop
  | .idle => True
  | .exiting => True
  | _ => False

/-- No call is cut off, and none fails to undo what it has done. -/
def Careful (s : Sys) : Action → Prop
  | .exit pid => ∀ p, s.procs.get? pid = some p → p.pc.AtRest
  | .shutdown => ∀ pid p, s.procs.get? pid = some p → p.pc.AtRest
  | .restore _ ok => ok = true
  | .discard _ ok => ok = true
  | _ => True

/-- The executable is installed, and nobody runs it. -/
def Start (s : Sys) : Prop := s = ⟨⟨some installed, none⟩, [], .empty, installed.id + 1⟩

/-- The states of all runs. -/
abbrev Run : Sys → Prop := Reachable (Start installed) (Sys.step sha256) (Known released)

/-- The states of the runs in which no call is cut off. -/
abbrev CarefulRun : Sys → Prop :=
  Reachable (Start installed) (Sys.step sha256) fun s a => Known released s a ∧ Careful s a

/-! ## The invariant -/

/-- The process has moved the executable away and is not through with it. -/
def Pc.Moved : Pc → Prop
  | .replacing _ => True
  | .preparing => True
  | .launching => True
  | .restoring _ => True
  | _ => False

/-- The process is about to put an executable in its place. -/
def Pc.Middle : Pc → Prop
  | .replacing _ => True
  | .restoring _ => True
  | _ => False

/-- The backup is the file of the process. -/
def Disk.Keeps (d : Disk) (p : Proc) : Prop := ∃ f, d.backup = some f ∧ f.id = p.image

/-- The file of the process is there. -/
def Disk.Holds (d : Disk) (p : Proc) : Prop := (∃ f, d.exe = some f ∧ f.id = p.image) ∨ d.Keeps p

/-- The download has the checksum it was asked for with. -/
def Proc.Checked (p : Proc) (f : File) : Prop :=
  released p.digest ∧ Verified sha256 p.digest f.content

/-- What a process that stands here has made sure of. -/
def Stands (d : Disk) (p : Proc) : Prop :=
  match p.pc with
  | .downloading tmp hashed => released p.digest ∧ tmp.content = hashed
  | .unlinking tmp => p.Checked sha256 released tmp
  | .renaming tmp => p.Checked sha256 released tmp
  | .replacing tmp => p.Checked sha256 released tmp ∧ d.exe = none ∧ d.Keeps p
  | .preparing => (∃ f, d.exe = some f ∧ p.Checked sha256 released f) ∧ d.Keeps p
  | .launching => (∃ f, d.exe = some f ∧ p.Checked sha256 released f) ∧ d.Keeps p
  | .restoring _ => d.Keeps p
  | _ => True

/-- The invariant. -/
structure Sound (s : Sys) : Prop where
  exe : ∀ f, s.disk.exe = some f → f = installed ∨ Trusted sha256 released f
  backup : ∀ f, s.disk.backup = some f → f = installed ∨ Trusted sha256 released f
  there : s.disk.exe = none → ∃ f, s.disk.backup = some f
  holds : ∀ pid p, s.procs.get? pid = some p → s.disk.Holds p
  stands : ∀ pid p, s.procs.get? pid = some p → Stands sha256 released s.disk p
  alone : ∀ pid q p r, s.procs.get? pid = some p → s.procs.get? q = some r → p.pc.Moved →
    r.pc.Moved → pid = q

/-! ## What a step does -/

/-- What a step of a process makes of the disk and of the process. -/
inductive Turn (s : Sys) (a : Action) (p : Proc) : Disk → Proc → Prop
  /-- it leaves the disk alone -/
  | stay {p' : Proc} (himage : p'.image = p.image) (hmoved : p'.pc.Moved → p.pc.Moved)
      (hstands : Stands sha256 released s.disk p → Stands sha256 released s.disk p')
      (hmiddle : p.pc.Middle → p'.pc.Middle) : Turn s a p s.disk p'
  /-- it removes the backup -/
  | forget {p' : Proc} (himage : p'.image = p.image) (hfree : s.busy s.disk.backup = false)
      (hstands : ¬ p.pc.Moved → Stands sha256 released s.disk p →
        Stands sha256 released { s.disk with backup := none } p') :
      Turn s a p { s.disk with backup := none } p'
  /-- it renames the executable -/
  | rename {f tmp : File} (hpc : p.pc = .renaming tmp) (hexe : s.disk.exe = some f)
      (hbackup : s.disk.backup = none) : Turn s a p ⟨none, some f⟩ { p with pc := .replacing tmp }
  /-- it puts the download in its place -/
  | replace {tmp : File} (hpc : p.pc = .replacing tmp) :
      Turn s a p { s.disk with exe := some tmp } { p with pc := .preparing }
  /-- it puts the backup back -/
  | restore {f : File} {tmp? : Option File} (hpc : p.pc = .restoring tmp?)
      (hbackup : s.disk.backup = some f) (hfree : s.busy s.disk.exe = false) :
      Turn s a p ⟨some f, none⟩ { p with pc := .discarding tmp? }
  /-- it cannot put the backup back -/
  | stuck {tmp? : Option File} (hpc : p.pc = .restoring tmp?)
      (hfail : Careful s a → s.disk.backup = none ∨ ∃ f, s.disk.exe = some f) :
      Turn s a p s.disk { p with pc := .discarding tmp? }

/-- A step of one process. -/
structure Goes (s : Sys) (a : Action) (pid : ℕ) (p p' : Proc) (s' : Sys) : Prop where
  was : s.procs.get? pid = some p
  turn : Turn sha256 released s a p s'.disk p'
  self : s'.procs.get? pid = some p'
  others : ∀ q, q ≠ pid → s'.procs.get? q = s.procs.get? q
  litter : Careful s a → s'.litter = s.litter

variable {sha256 released installed} {s s' : Sys} {a : Action} {pid child : ℕ} {p p' : Proc}
  {ok : Bool}

/-- Who has not moved the executable away does not rest on the disk. -/
lemma Stands.of_not_moved {d d' : Disk} (h : Stands sha256 released d p) (hmoved : ¬ p.pc.Moved) :
    Stands sha256 released d' p := by
  rw [Stands] at h ⊢
  cases hpc : p.pc <;> rw [hpc] at h hmoved <;>
    first | exact absurd trivial hmoved | exact h

/-- The process goes on as `goTo` says. -/
lemma Goes.goTo (hp : s.procs.get? pid = some p) {q : Proc} {disk : Disk} {pc : Pc}
    (ht : Turn sha256 released s a p disk { q with pc := pc }) :
    Goes sha256 released s a pid p { q with pc := pc } (s.goTo pid q disk pc) where
  was := hp
  turn := ht
  self := Dict.get?_set_self _ _ _
  others _ hq := Dict.get?_set_of_ne _ hq
  litter _ := rfl

/-- A process that goes on and leaves the disk alone. -/
lemma Goes.stay (hp : s.procs.get? pid = some p) {pc : Pc} (hmoved : pc.Moved → p.pc.Moved)
    (hstands : Stands sha256 released s.disk p → Stands sha256 released s.disk { p with pc := pc })
    (hmiddle : p.pc.Middle → pc.Middle) :
    Goes sha256 released s a pid p { p with pc := pc } (s.goTo pid p s.disk pc) :=
  .goTo hp (.stay rfl hmoved hstands hmiddle)

/-- Something is raised before the executable is moved, and the download is discarded. -/
lemma Goes.raised (hp : s.procs.get? pid = some p) (hmiddle : ¬ p.pc.Middle)
    {tmp? : Option File} :
    Goes sha256 released s a pid p { p with pc := .discarding tmp? }
      (s.goTo pid p s.disk (.discarding tmp?)) :=
  .stay hp (by rintro ⟨⟩) (fun _ => trivial) fun h => absurd h hmiddle

lemma goes_cleanup (hp : s.procs.get? pid = some p) (hs : s.stepCleanup ok p = some s') :
    Goes sha256 released s a pid p p s' := by
  rw [Sys.stepCleanup] at hs
  split_ifs at hs with hok
  · obtain rfl := Option.some.inj hs
    refine ⟨hp, .forget rfl hok.2 ?_, hp, fun _ _ => rfl, fun _ => rfl⟩
    exact fun hmoved hstands => hstands.of_not_moved hmoved
  · obtain rfl := Option.some.inj hs
    exact ⟨hp, .stay rfl id id id, hp, fun _ _ => rfl, fun _ => rfl⟩

lemma goes_apply {digest : List Char} (hp : s.procs.get? pid = some p) (hknown : released digest)
    (hs : s.stepApply pid digest ok p = some s') :
    ∃ p', Goes sha256 released s a pid p p' s' := by
  rw [Sys.stepApply] at hs
  split at hs
  · rename_i hpc
    split_ifs at hs with hok
    · obtain rfl := Option.some.inj hs
      have hg : Goes sha256 released s a pid p _
          (s.goTo pid { p with digest := digest } s.disk (.downloading ⟨s.nextId, []⟩ [])) :=
        .goTo hp (.stay rfl (by rintro ⟨⟩) (fun _ => ⟨hknown, rfl⟩) (by rw [hpc]; exact id))
      exact ⟨_, hg.was, hg.turn, hg.self, hg.others, hg.litter⟩
    · obtain rfl := Option.some.inj hs
      exact ⟨p, hp, .stay rfl id id id, hp, fun _ _ => rfl, fun _ => rfl⟩
  · cases hs

lemma goes_chunk {data : Bytes} (hp : s.procs.get? pid = some p)
    (hs : s.stepChunk pid data ok p = some s') : ∃ p', Goes sha256 released s a pid p p' s' := by
  rw [Sys.stepChunk] at hs
  split at hs
  · rename_i tmp hashed hpc
    obtain rfl := Option.some.inj hs
    cases ok with
    | true =>
        refine ⟨_, .stay hp (by rintro ⟨⟩) ?_ (by rw [hpc]; rintro ⟨⟩)⟩
        intro hstands
        rw [Stands, hpc] at hstands
        exact ⟨hstands.1, congrArg (· ++ data) hstands.2⟩
    | false =>
        exact ⟨_, .raised hp (by rw [hpc]; exact id)⟩
  · cases hs

lemma goes_finish (hp : s.procs.get? pid = some p) (hs : s.stepFinish sha256 pid ok p = some s') :
    ∃ p', Goes sha256 released s a pid p p' s' := by
  rw [Sys.stepFinish] at hs
  split at hs
  · rename_i tmp hashed hpc
    split_ifs at hs with hok
    · obtain rfl := Option.some.inj hs
      refine ⟨_, .stay hp (by rintro ⟨⟩) ?_ (by rw [hpc]; rintro ⟨⟩)⟩
      intro hstands
      rw [Stands, hpc] at hstands
      obtain ⟨hknown, rfl⟩ := hstands
      exact ⟨hknown, hok.2⟩
    · obtain rfl := Option.some.inj hs
      exact ⟨_, .raised hp (by rw [hpc]; exact id)⟩
  · cases hs

lemma goes_unlink (hp : s.procs.get? pid = some p) (hs : s.stepUnlink pid ok p = some s') :
    ∃ p', Goes sha256 released s a pid p p' s' := by
  rw [Sys.stepUnlink] at hs
  split at hs
  · rename_i tmp hpc
    split_ifs at hs with hok
    · obtain rfl := Option.some.inj hs
      refine ⟨_, .goTo hp (.forget rfl hok.2 ?_)⟩
      intro _ hstands
      rwa [Stands, hpc] at hstands
    · obtain rfl := Option.some.inj hs
      exact ⟨_, .raised hp (by rw [hpc]; exact id)⟩
  · cases hs

lemma goes_rename (hp : s.procs.get? pid = some p) (hs : s.stepRename pid ok p = some s') :
    ∃ p', Goes sha256 released s a pid p p' s' := by
  rw [Sys.stepRename] at hs
  split at hs
  · rename_i tmp hpc
    split_ifs at hs with hok
    · obtain rfl := Option.some.inj hs
      obtain ⟨f, hexe⟩ := Option.isSome_iff_exists.mp hok.2.1
      rw [hexe]
      exact ⟨_, .goTo hp (.rename hpc hexe (Option.isNone_iff_eq_none.mp hok.2.2))⟩
    · obtain rfl := Option.some.inj hs
      exact ⟨_, .raised hp (by rw [hpc]; exact id)⟩
  · cases hs

lemma goes_replace (hp : s.procs.get? pid = some p) (hs : s.stepReplace pid ok p = some s') :
    ∃ p', Goes sha256 released s a pid p p' s' := by
  rw [Sys.stepReplace] at hs
  split at hs
  · rename_i tmp hpc
    split_ifs at hs with hok
    · obtain rfl := Option.some.inj hs
      exact ⟨_, .goTo hp (.replace hpc)⟩
    · obtain rfl := Option.some.inj hs
      refine ⟨_, .stay hp (fun _ => by rw [hpc]; trivial) ?_ fun _ => trivial⟩
      intro hstands
      rw [Stands, hpc] at hstands
      exact hstands.2.2
  · cases hs

lemma goes_prepare (hp : s.procs.get? pid = some p) (hs : s.stepPrepare pid ok p = some s') :
    ∃ p', Goes sha256 released s a pid p p' s' := by
  rw [Sys.stepPrepare] at hs
  split at hs
  · rename_i hpc
    obtain rfl := Option.some.inj hs
    refine ⟨_, .stay hp (fun _ => by rw [hpc]; trivial) ?_ (by rw [hpc]; rintro ⟨⟩)⟩
    intro hstands
    rw [Stands, hpc] at hstands
    cases ok with
    | true => exact hstands
    | false => exact hstands.2
  · cases hs

/-- The launch itself is the start of another process. -/
lemma goes_launch (hp : s.procs.get? pid = some p) (hs : s.stepLaunch pid child ok p = some s') :
    ∃ p' mid, Goes sha256 released s a pid p p' mid ∧ (mid = s' ∨ mid.started child = some s') := by
  rw [Sys.stepLaunch] at hs
  split at hs
  · rename_i hpc
    split_ifs at hs with hok
    · have hg : Goes sha256 released s a pid p _ (s.goTo pid p s.disk .exiting) :=
        .stay hp (by rintro ⟨⟩) (fun _ => trivial) (by rw [hpc]; rintro ⟨⟩)
      exact ⟨_, _, hg, Or.inr hs⟩
    · refine ⟨_, _, .stay hp (fun _ => by rw [hpc]; trivial) ?_ (by rw [hpc]; rintro ⟨⟩),
        Or.inl (Option.some.inj hs)⟩
      intro hstands
      rw [Stands, hpc] at hstands
      exact hstands.2
  · cases hs

lemma goes_restore (hp : s.procs.get? pid = some p) (hs : s.stepRestore pid ok p = some s')
    (hok : Careful s a → ok = true) : ∃ p', Goes sha256 released s a pid p p' s' := by
  rw [Sys.stepRestore] at hs
  split at hs
  · rename_i tmp? hpc
    split_ifs at hs with hdone
    · obtain rfl := Option.some.inj hs
      obtain ⟨f, hbackup⟩ := Option.isSome_iff_exists.mp hdone.2.1
      rw [hbackup]
      exact ⟨_, .goTo hp (.restore hpc hbackup hdone.2.2)⟩
    · obtain rfl := Option.some.inj hs
      refine ⟨_, .goTo hp (.stuck hpc ?_)⟩
      intro hcareful
      cases hexe : s.disk.exe with
      | some f => exact Or.inr ⟨f, rfl⟩
      | none =>
          refine Or.inl (Option.not_isSome_iff_eq_none.mp fun hbackup => hdone ?_)
          exact ⟨hok hcareful, hbackup, by rw [hexe]; rfl⟩
  · cases hs

lemma goes_discard (hp : s.procs.get? pid = some p) (hs : s.stepDiscard pid ok p = some s')
    (hok : Careful s a → ok = true) : ∃ p', Goes sha256 released s a pid p p' s' := by
  rw [Sys.stepDiscard] at hs
  split at hs
  · rename_i tmp? hpc
    obtain rfl := Option.some.inj hs
    have hg : Goes sha256 released s a pid p _ (s.goTo pid p s.disk .idle) :=
      .stay hp (by rintro ⟨⟩) (fun _ => trivial) (by rw [hpc]; rintro ⟨⟩)
    exact ⟨_, hg.was, hg.turn, hg.self, hg.others, fun h => if_pos (hok h)⟩
  · cases hs

/-- **What a step does**: a process starts, processes end, or one goes on, and maybe launches
another. -/
lemma step_cases (hs : Sys.step sha256 a s = some s') (hknown : Known released s a) :
    (∃ pid, s.started pid = some s') ∨
    (s'.disk = s.disk ∧ (∀ q r, s'.procs.get? q = some r → s.procs.get? q = some r) ∧
      (Careful s a → s'.litter = s.litter ∧
        ∀ q r, s.procs.get? q = some r → ¬ r.pc.AtRest → s'.procs.get? q = some r)) ∨
    ∃ pid p p' mid child, Goes sha256 released s a pid p p' mid ∧
      (mid = s' ∨ mid.started child = some s') := by
  have hact : ∀ {pid : ℕ} {f : Proc → Option Sys}, s.act pid f = some s' →
      ∃ p, s.procs.get? pid = some p ∧ f p = some s' := by
    intro pid f h
    rw [Sys.act] at h
    split at h
    · exact ⟨_, ‹_›, h⟩
    · cases h
  have hgoes : ∀ {pid : ℕ} {p : Proc}, (∃ p', Goes sha256 released s a pid p p' s') →
      ∃ pid p p' mid child, Goes sha256 released s a pid p p' mid ∧
        (mid = s' ∨ mid.started child = some s') := by
    rintro pid p ⟨p', hg⟩
    exact ⟨pid, p, p', s', 0, hg, Or.inl rfl⟩
  cases a with
  | start pid => exact Or.inl ⟨pid, hs⟩
  | exit pid =>
      obtain ⟨p, hp, hs⟩ := hact hs
      obtain rfl := Option.some.inj hs
      refine Or.inr (Or.inl ⟨rfl, ?_, fun hcareful => ⟨?_, ?_⟩⟩)
      · intro q r hr
        by_cases hq : q = pid
        · subst hq
          rw [Dict.get?_erase_self] at hr
          cases hr
        · rwa [Dict.get?_erase_of_ne hq] at hr
      · have hrest := hcareful p hp
        show s.litter ++ p.pc.temp?.toList = s.litter
        cases hpc : p.pc <;> rw [hpc] at hrest <;>
          first | exact hrest.elim | exact List.append_nil _
      · intro q r hr hrest
        have hq : q ≠ pid := by
          rintro rfl
          exact hrest (hcareful r hr)
        exact (Dict.get?_erase_of_ne hq).trans hr
  | shutdown =>
      obtain rfl := Option.some.inj hs
      refine Or.inr (Or.inl ⟨rfl, ?_, fun hcareful => ⟨?_, ?_⟩⟩)
      · intro q r hr
        cases hr
      · refine List.append_right_eq_self.mpr (List.flatMap_eq_nil_iff.mpr ?_)
        intro p hp
        obtain ⟨pid, hp⟩ := Dict.mem_values.mp hp
        have hrest := hcareful pid p hp
        cases hpc : p.pc <;> rw [hpc] at hrest <;> first | exact hrest.elim | rfl
      · intro q r hr hrest
        exact absurd (hcareful q r hr) hrest
  | cleanup pid ok =>
      obtain ⟨p, hp, hs⟩ := hact hs
      exact Or.inr (Or.inr (hgoes ⟨p, goes_cleanup hp hs⟩))
  | apply pid digest ok =>
      obtain ⟨p, hp, hs⟩ := hact hs
      exact Or.inr (Or.inr (hgoes (goes_apply hp hknown hs)))
  | chunk pid data ok =>
      obtain ⟨p, hp, hs⟩ := hact hs
      exact Or.inr (Or.inr (hgoes (goes_chunk hp hs)))
  | finish pid ok =>
      obtain ⟨p, hp, hs⟩ := hact hs
      exact Or.inr (Or.inr (hgoes (goes_finish hp hs)))
  | unlink pid ok =>
      obtain ⟨p, hp, hs⟩ := hact hs
      exact Or.inr (Or.inr (hgoes (goes_unlink hp hs)))
  | rename pid ok =>
      obtain ⟨p, hp, hs⟩ := hact hs
      exact Or.inr (Or.inr (hgoes (goes_rename hp hs)))
  | replace pid ok =>
      obtain ⟨p, hp, hs⟩ := hact hs
      exact Or.inr (Or.inr (hgoes (goes_replace hp hs)))
  | prepare pid ok =>
      obtain ⟨p, hp, hs⟩ := hact hs
      exact Or.inr (Or.inr (hgoes (goes_prepare hp hs)))
  | launch pid child ok =>
      obtain ⟨p, hp, hs⟩ := hact hs
      obtain ⟨p', mid, hg, hend⟩ := goes_launch hp hs
      exact Or.inr (Or.inr ⟨pid, p, p', mid, child, hg, hend⟩)
  | restore pid ok =>
      obtain ⟨p, hp, hs⟩ := hact hs
      exact Or.inr (Or.inr (hgoes (goes_restore hp hs id)))
  | discard pid ok =>
      obtain ⟨p, hp, hs⟩ := hact hs
      exact Or.inr (Or.inr (hgoes (goes_discard hp hs id)))

end TgWsProxy.Update
