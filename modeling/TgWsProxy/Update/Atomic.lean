import TgWsProxy.Update.Apply

/-!
# An update is all or nothing

What holds in every run of `apply_update`, by any number of processes.

* `Sound.goes` — a step of one process keeps the invariant.
* `Sound.follows` — it is at most one move from version to version.
* **`update_atomic`** — whatever fails and whenever it stops, a whole executable is there, every
  one that is there was installed or has a released checksum, and the versions follow each other
  by such moves.
* **`update_undone`** — where no call is cut off, the executable is out of its place only while a
  call is about to put one there, and no download is left behind.
-/

namespace TgWsProxy.Update

open Wire

variable {sha256 : Bytes → Digest} {released : List Char → Prop} {installed : File}
  {s s' : Sys} {a : Action} {pid : ℕ} {p p' : Proc}

/-! ## The invariant holds -/

/-- Nobody was loaded from a file that is free. -/
lemma image_ne {f : File} (hfree : s.busy (some f) = false) (hp : s.procs.get? pid = some p) :
    f.id ≠ p.image := by
  intro heq
  have hall : s.procs.values.any (fun p => decide (p.image = f.id)) = false := hfree
  exact List.any_eq_false.mp hall p (Dict.mem_values.mpr ⟨pid, hp⟩) (decide_eq_true heq.symm)

lemma Disk.Keeps.congr {d : Disk} (h : d.Keeps p) (himage : p'.image = p.image) : d.Keeps p' := by
  obtain ⟨f, hf, hid⟩ := h
  exact ⟨f, hf, hid.trans himage.symm⟩

lemma Disk.Holds.congr {d : Disk} (h : d.Holds p) (himage : p'.image = p.image) : d.Holds p' := by
  rcases h with ⟨f, hf, hid⟩ | h
  · exact Or.inl ⟨f, hf, hid.trans himage.symm⟩
  · exact Or.inr (h.congr himage)

/-- Whoever has moved the executable away has it in the backup. -/
lemma Stands.keeps {d : Disk} (h : Stands sha256 released d p) (hmoved : p.pc.Moved) :
    d.Keeps p := by
  rw [Stands] at h
  cases hpc : p.pc <;> rw [hpc] at h hmoved <;>
    first | exact hmoved.elim | exact h | exact h.2 | exact h.2.2

namespace Sound

/-- If the backup is free then nobody has moved the executable away. -/
lemma not_moved (h : Sound sha256 released installed s) (hfree : s.busy s.disk.backup = false)
    (hp : s.procs.get? pid = some p) : ¬ p.pc.Moved := by
  intro hmoved
  obtain ⟨f, hf, hid⟩ := (h.stands pid p hp).keeps hmoved
  rw [hf] at hfree
  exact image_ne hfree hp hid

/-- While a process lives, a free backup is not all there is. -/
lemma exe_of_free (h : Sound sha256 released installed s) (hfree : s.busy s.disk.backup = false)
    (hp : s.procs.get? pid = some p) : ∃ f, s.disk.exe = some f ∧ f.id = p.image := by
  rcases h.holds pid p hp with hexe | ⟨f, hf, hid⟩
  · exact hexe
  · rw [hf] at hfree
    exact absurd hid (image_ne hfree hp)

/-- A process starts. -/
lemma started (h : Sound sha256 released installed s) (hs : s.started pid = some s') :
    Sound sha256 released installed s' := by
  rw [Sys.started] at hs
  split at hs
  · rename_i f hexe
    split_ifs at hs with hpid
    obtain rfl := Option.some.inj hs
    have hprocs : ∀ q r, (s.procs.set pid ⟨f.id, [], .idle⟩).get? q = some r →
        r = ⟨f.id, [], .idle⟩ ∨ q ≠ pid ∧ s.procs.get? q = some r := by
      intro q r hr
      by_cases hq : q = pid
      · subst hq
        rw [Dict.get?_set_self] at hr
        exact Or.inl (Option.some.inj hr).symm
      · rw [Dict.get?_set_of_ne _ hq] at hr
        exact Or.inr ⟨hq, hr⟩
    refine ⟨h.exe, h.backup, h.there, ?_, ?_, ?_⟩
    · intro q r hr
      rcases hprocs q r hr with rfl | ⟨-, hr⟩
      · exact Or.inl ⟨f, hexe, rfl⟩
      · exact h.holds q r hr
    · intro q r hr
      rcases hprocs q r hr with rfl | ⟨-, hr⟩
      · exact trivial
      · exact h.stands q r hr
    · intro q₁ q₂ r₁ r₂ hr₁ hr₂ hm₁ hm₂
      rcases hprocs q₁ r₁ hr₁ with rfl | ⟨-, hr₁⟩
      · exact hm₁.elim
      · rcases hprocs q₂ r₂ hr₂ with rfl | ⟨-, hr₂⟩
        · exact hm₂.elim
        · exact h.alone q₁ q₂ r₁ r₂ hr₁ hr₂ hm₁ hm₂
  · cases hs

/-- Processes end. -/
lemma ended (h : Sound sha256 released installed s) (hdisk : s'.disk = s.disk)
    (hprocs : ∀ q r, s'.procs.get? q = some r → s.procs.get? q = some r) :
    Sound sha256 released installed s' where
  exe := by rw [hdisk]; exact h.exe
  backup := by rw [hdisk]; exact h.backup
  there := by rw [hdisk]; exact h.there
  holds q r hr := by rw [hdisk]; exact h.holds q r (hprocs q r hr)
  stands q r hr := by rw [hdisk]; exact h.stands q r (hprocs q r hr)
  alone q₁ q₂ r₁ r₂ hr₁ hr₂ := h.alone q₁ q₂ r₁ r₂ (hprocs q₁ r₁ hr₁) (hprocs q₂ r₂ hr₂)

/-- A process goes on, and either the disk stays as it is or nobody else has moved anything. -/
lemma of_goes (h : Sound sha256 released installed s) (hg : Goes sha256 released s a pid p p' s')
    (hexe : ∀ f, s'.disk.exe = some f → f = installed ∨ Trusted sha256 released f)
    (hbackup : ∀ f, s'.disk.backup = some f → f = installed ∨ Trusted sha256 released f)
    (hthere : s'.disk.exe = none → ∃ f, s'.disk.backup = some f)
    (himage : p'.image = p.image)
    (hholds : ∀ q r, s.procs.get? q = some r → s'.disk.Holds r)
    (hstands : Stands sha256 released s'.disk p')
    (hrest : s'.disk = s.disk ∧ (p'.pc.Moved → p.pc.Moved) ∨
      ∀ q r, q ≠ pid → s.procs.get? q = some r → ¬ r.pc.Moved) :
    Sound sha256 released installed s' := by
  have hprocs : ∀ q r, s'.procs.get? q = some r →
      q = pid ∧ r = p' ∨ q ≠ pid ∧ s.procs.get? q = some r := by
    intro q r hr
    by_cases hq : q = pid
    · subst hq
      exact Or.inl ⟨rfl, Option.some.inj (hr.symm.trans hg.self)⟩
    · exact Or.inr ⟨hq, (hg.others q hq).symm.trans hr⟩
  have hsole : ∀ q r, q ≠ pid → s.procs.get? q = some r → p'.pc.Moved → ¬ r.pc.Moved := by
    intro q r hq hr hp' hmoved
    rcases hrest with ⟨-, hback⟩ | hrest
    · exact hq (h.alone q pid r p hr hg.was hmoved (hback hp'))
    · exact hrest q r hq hr hmoved
  refine ⟨hexe, hbackup, hthere, ?_, ?_, ?_⟩
  · intro q r hr
    rcases hprocs q r hr with ⟨rfl, rfl⟩ | ⟨-, hr⟩
    · exact (hholds q p hg.was).congr himage
    · exact hholds q r hr
  · intro q r hr
    rcases hprocs q r hr with ⟨rfl, rfl⟩ | ⟨hq, hr⟩
    · exact hstands
    · rcases hrest with ⟨hdisk, -⟩ | hrest
      · rw [hdisk]
        exact h.stands q r hr
      · exact (h.stands q r hr).of_not_moved (hrest q r hq hr)
  · intro q₁ q₂ r₁ r₂ hr₁ hr₂ hm₁ hm₂
    rcases hprocs q₁ r₁ hr₁ with ⟨rfl, rfl⟩ | ⟨hq₁, hr₁⟩
    · rcases hprocs q₂ r₂ hr₂ with ⟨rfl, -⟩ | ⟨hq₂, hr₂⟩
      · rfl
      · exact absurd hm₂ (hsole q₂ r₂ hq₂ hr₂ hm₁)
    · rcases hprocs q₂ r₂ hr₂ with ⟨rfl, rfl⟩ | ⟨-, hr₂⟩
      · exact absurd hm₁ (hsole q₁ r₁ hq₁ hr₁ hm₂)
      · exact h.alone q₁ q₂ r₁ r₂ hr₁ hr₂ hm₁ hm₂

/-- Whoever has moved the executable away is alone with that. -/
lemma others_not_moved (h : Sound sha256 released installed s) (hp : s.procs.get? pid = some p)
    (hmoved : p.pc.Moved) : ∀ q r, q ≠ pid → s.procs.get? q = some r → ¬ r.pc.Moved :=
  fun q r hq hr hm => hq (h.alone q pid r p hr hp hm hmoved)

/-- One process goes on. -/
lemma goes (h : Sound sha256 released installed s) (hg : Goes sha256 released s a pid p p' s') :
    Sound sha256 released installed s' := by
  have hp := hg.was
  have hstands := h.stands pid p hp
  have hturn := hg.turn
  generalize hdisk : s'.disk = d at hturn
  cases hturn with
  | stay himage hmoved hst hmiddle =>
      refine h.of_goes hg ?_ ?_ ?_ himage ?_ ?_ (Or.inl ⟨hdisk, hmoved⟩) <;> rw [hdisk]
      · exact h.exe
      · exact h.backup
      · exact h.there
      · exact h.holds
      · exact hst hstands
  | forget himage hfree hst =>
      refine h.of_goes hg ?_ ?_ ?_ himage ?_ ?_ (Or.inr fun q r _ hr => h.not_moved hfree hr) <;>
        rw [hdisk]
      · exact h.exe
      · rintro f ⟨⟩
      · intro hnone
        obtain ⟨f, hf, -⟩ := h.exe_of_free hfree hp
        exact absurd (hf.symm.trans hnone) (Option.some_ne_none f)
      · exact fun q r hr => Or.inl (h.exe_of_free hfree hr)
      · exact hst (h.not_moved hfree hp) hstands
  | rename hpc hexe hbackup =>
      rename_i f tmp
      have hfree : s.busy s.disk.backup = false := by rw [hbackup]; rfl
      have himage : ∀ q r, s.procs.get? q = some r → f.id = r.image := by
        intro q r hr
        obtain ⟨g, hg, hid⟩ := h.exe_of_free hfree hr
        rwa [Option.some.inj (hexe.symm.trans hg)]
      refine h.of_goes hg ?_ ?_ ?_ rfl ?_ ?_ (Or.inr fun q r _ hr => h.not_moved hfree hr) <;>
        rw [hdisk]
      · rintro g ⟨⟩
      · rintro g ⟨⟩
        exact h.exe f hexe
      · exact fun _ => ⟨f, rfl⟩
      · exact fun q r hr => Or.inr ⟨f, rfl, himage q r hr⟩
      · rw [Stands, hpc] at hstands
        exact ⟨hstands, rfl, f, rfl, himage pid p hp⟩
  | replace hpc =>
      rename_i tmp
      rw [Stands, hpc] at hstands
      obtain ⟨hchecked, hnone, hkeeps⟩ := hstands
      refine h.of_goes hg ?_ ?_ ?_ rfl ?_ ?_ (Or.inr (h.others_not_moved hp (by rw [hpc]; trivial)))
        <;> rw [hdisk]
      · rintro f ⟨⟩
        exact Or.inr ⟨p.digest, hchecked⟩
      · exact h.backup
      · rintro ⟨⟩
      · intro q r hr
        rcases h.holds q r hr with ⟨f, hf, -⟩ | hkept
        · exact absurd (hf.symm.trans hnone) (Option.some_ne_none f)
        · exact Or.inr hkept
      · exact ⟨⟨tmp, rfl, hchecked⟩, hkeeps⟩
  | restore hpc hbackup hfree =>
      rename_i f tmp?
      refine h.of_goes hg ?_ ?_ ?_ rfl ?_ ?_ (Or.inr (h.others_not_moved hp (by rw [hpc]; trivial)))
        <;> rw [hdisk]
      · rintro g ⟨⟩
        exact h.backup f hbackup
      · rintro g ⟨⟩
      · rintro ⟨⟩
      · intro q r hr
        rcases h.holds q r hr with ⟨g, hg, hid⟩ | ⟨g, hg, hid⟩
        · rw [hg] at hfree
          exact absurd hid (image_ne hfree hr)
        · rw [hbackup] at hg
          obtain rfl := Option.some.inj hg
          exact Or.inl ⟨f, rfl, hid⟩
      · exact trivial
  | stuck hpc hfail =>
      refine h.of_goes hg ?_ ?_ ?_ rfl ?_ trivial (Or.inl ⟨hdisk, by rintro ⟨⟩⟩) <;> rw [hdisk]
      · exact h.exe
      · exact h.backup
      · exact h.there
      · exact h.holds

/-- **One step.** -/
lemma step (h : Sound sha256 released installed s) (hknown : Known released s a)
    (hs : Sys.step sha256 a s = some s') : Sound sha256 released installed s' := by
  rcases step_cases hs hknown with
    ⟨pid, hs⟩ | ⟨hdisk, hprocs, -⟩ | ⟨pid, p, p', mid, child, hg, hend⟩
  · exact h.started hs
  · exact h.ended hdisk hprocs
  · rcases hend with rfl | hend
    · exact h.goes hg
    · exact (h.goes hg).started hend

end Sound

/-! ## The versions -/

lemma version_of_exe {d : Disk} {f : File} (h : d.exe = some f) :
    d.version = some ⟨f, d.backup⟩ := by
  rw [Disk.version, h]

lemma version_of_backup {d : Disk} {f : File} (hexe : d.exe = none) (h : d.backup = some f) :
    d.version = some ⟨f, none⟩ := by
  rw [Disk.version, hexe, h]

/-- The versions as a step finds and leaves them. -/
def Follows (sha256 : Bytes → Digest) (released : List Char → Prop) (d d' : Disk) : Prop :=
  d'.version = d.version ∨
    ∃ v v', d.version = some v ∧ d'.version = some v' ∧ Move sha256 released v v'

/-- A step of one process is at most one move. -/
lemma Sound.follows (h : Sound sha256 released installed s)
    (hg : Goes sha256 released s a pid p p' s') : Follows sha256 released s.disk s'.disk := by
  have hp := hg.was
  have hstands := h.stands pid p hp
  have hturn := hg.turn
  generalize s'.disk = d at hturn
  cases hturn with
  | stay himage hmoved hst hmiddle => exact Or.inl rfl
  | forget himage hfree hst =>
      obtain ⟨f, hexe, -⟩ := h.exe_of_free hfree hp
      have hafter : Disk.version { s.disk with backup := none } = some ⟨f, none⟩ :=
        version_of_exe hexe
      have hbefore := version_of_exe hexe
      cases hbackup : s.disk.backup with
      | none => exact Or.inl (hafter.trans (by rw [hbefore, hbackup]))
      | some old =>
          rw [hbackup] at hbefore
          exact Or.inr ⟨_, _, hbefore, hafter, .settle⟩
  | rename hpc hexe hbackup =>
      rename_i f tmp
      have hbefore := version_of_exe hexe
      rw [hbackup] at hbefore
      exact Or.inl hbefore.symm
  | replace hpc =>
      rename_i tmp
      rw [Stands, hpc] at hstands
      obtain ⟨hchecked, hnone, old, hbackup, -⟩ := hstands
      refine Or.inr ⟨_, ⟨tmp, some old⟩, version_of_backup hnone hbackup, ?_, .install ?_⟩
      · exact (version_of_exe rfl).trans (by rw [← hbackup])
      · exact ⟨p.digest, hchecked⟩
  | restore hpc hbackup hfree =>
      rename_i f tmp?
      have hafter : Disk.version ⟨some f, none⟩ = some ⟨f, none⟩ := rfl
      cases hexe : s.disk.exe with
      | none => exact Or.inl (hafter.trans (version_of_backup hexe hbackup).symm)
      | some new =>
          have hbefore := version_of_exe hexe
          rw [hbackup] at hbefore
          exact Or.inr ⟨_, _, hbefore, hafter, .revert⟩
  | stuck hpc hfail => exact Or.inl rfl

lemma started_disk (hs : s.started pid = some s') : s'.disk = s.disk ∧ s'.litter = s.litter := by
  rw [Sys.started] at hs
  split at hs
  · split_ifs at hs
    obtain rfl := Option.some.inj hs
    exact ⟨rfl, rfl⟩
  · cases hs

/-- A process that starts takes nobody's place. -/
lemma started_keeps (hs : s.started pid = some s') {q : ℕ} {r : Proc}
    (hr : s.procs.get? q = some r) : s'.procs.get? q = some r := by
  rw [Sys.started] at hs
  split at hs
  · split_ifs at hs with hpid
    obtain rfl := Option.some.inj hs
    refine (Dict.get?_set_of_ne _ ?_).trans hr
    rintro rfl
    exact hpid (Dict.mem_keys_of_mem (Dict.get?_eq_some.mp hr))
  · cases hs

/-- The versions since the installation. -/
def Descends (sha256 : Bytes → Digest) (released : List Char → Prop) (installed : File)
    (d : Disk) : Prop :=
  ∃ v, d.version = some v ∧ Relation.ReflTransGen (Move sha256 released) ⟨installed, none⟩ v

lemma Descends.follow {d d' : Disk} (h : Descends sha256 released installed d)
    (hstep : Follows sha256 released d d') : Descends sha256 released installed d' := by
  obtain ⟨v, hv, hrun⟩ := h
  rcases hstep with hsame | ⟨w, w', hw, hw', hmove⟩
  · exact ⟨v, hsame.trans hv, hrun⟩
  · obtain rfl := Option.some.inj (hv.symm.trans hw)
    exact ⟨w', hw', hrun.tail hmove⟩

lemma Sound.start : Sound sha256 released installed
    ⟨⟨some installed, none⟩, [], .empty, installed.id + 1⟩ where
  exe := by
    rintro f ⟨⟩
    exact Or.inl rfl
  backup := by rintro f ⟨⟩
  there := by rintro ⟨⟩
  holds _ p hp := by cases hp
  stands _ p hp := by cases hp
  alone _ _ p _ hp := by cases hp

lemma sound_of_run (hrun : Run sha256 released installed s) :
    Sound sha256 released installed s ∧ Descends sha256 released installed s.disk := by
  refine Reachable.invariant (P := fun s => Sound sha256 released installed s ∧
    Descends sha256 released installed s.disk) ?_ ?_ hrun
  · rintro s rfl
    exact ⟨.start, ⟨installed, none⟩, rfl, .refl⟩
  · intro s a s' _ h hknown hs
    refine ⟨h.1.step hknown hs, h.2.follow ?_⟩
    rcases step_cases hs hknown with ⟨pid, hs⟩ | ⟨hdisk, -⟩ | ⟨pid, p, p', mid, child, hg, hend⟩
    · exact Or.inl (congrArg Disk.version (started_disk hs).1)
    · exact Or.inl (congrArg Disk.version hdisk)
    · rcases hend with rfl | hend
      · exact h.1.follows hg
      · rw [(started_disk hend).1]
        exact h.1.follows hg

/-- **An update is all or nothing.**  In every run, whatever fails and wherever processes end, one
or all at once, what their calls have done being kept: the versions since the installation follow
each other by installing a file with a released checksum, going back to the one before, or settling;
what lies in the place of the executable or of its backup was installed or has a released checksum;
while nothing lies in the place of the executable, the backup is the file that every living process
was loaded from; and what is launched has the checksum its update was asked for with. -/
theorem update_atomic (hrun : Run sha256 released installed s) :
    (∃ v, s.disk.version = some v ∧
      Relation.ReflTransGen (Move sha256 released) ⟨installed, none⟩ v) ∧
    (∀ f, s.disk.exe = some f ∨ s.disk.backup = some f →
      f = installed ∨ Trusted sha256 released f) ∧
    (s.disk.exe = none → ∃ f, s.disk.backup = some f ∧
      ∀ pid p, s.procs.get? pid = some p → p.image = f.id) ∧
    ∀ pid p, s.procs.get? pid = some p → p.pc = .launching →
      ∃ f, s.disk.exe = some f ∧ Verified sha256 p.digest f.content := by
  obtain ⟨h, hversions⟩ := sound_of_run hrun
  refine ⟨hversions, ?_, ?_, ?_⟩
  · rintro f (hf | hf)
    · exact h.exe f hf
    · exact h.backup f hf
  · intro hnone
    obtain ⟨f, hf⟩ := h.there hnone
    refine ⟨f, hf, ?_⟩
    intro pid p hp
    rcases h.holds pid p hp with ⟨g, hg, -⟩ | ⟨g, hg, hid⟩
    · exact absurd (hg.symm.trans hnone) (Option.some_ne_none g)
    · rw [← hid, Option.some.inj (hf.symm.trans hg)]
  · intro pid p hp hpc
    have hstands := h.stands pid p hp
    rw [Stands, hpc] at hstands
    obtain ⟨⟨f, hexe, -, hverified⟩, -⟩ := hstands
    exact ⟨f, hexe, hverified⟩

/-- `hashlib.sha256` as far as `b"new"` goes. -/
def sampleSha256 (_ : Bytes) : Digest :=
  ⟨[0x11, 0x50, 0x7a, 0x0e, 0x2f, 0x5e, 0x69, 0xd5, 0xdf, 0xa4, 0x0a, 0x62, 0xa1, 0xbd,
    0x7b, 0x6e, 0xe5, 0x7e, 0x6b, 0xcd, 0x85, 0xc6, 0x7c, 0x9b, 0x84, 0x31, 0xb3, 0x6f,
    0xff, 0x21, 0xc4, 0x37], rfl⟩

/-- The digest of a release whose file is `b"new"`. -/
def sampleDigest : List Char :=
  ['s', 'h', 'a', '2', '5', '6', ':'] ++ hexdigest (sampleSha256 [0x6e, 0x65, 0x77])

/-- The installed executable is `b"old"`. -/
def sampleStart : Sys := ⟨⟨some ⟨0, [0x6f, 0x6c, 0x64]⟩, none⟩, [], .empty, 1⟩

/-- The executable is renamed, and its place is empty. -/
def sampleRun : List Action :=
  [.start 0, .apply 0 sampleDigest true, .chunk 0 [0x6e, 0x65, 0x77] true, .finish 0 true,
    .unlink 0 true, .rename 0 true]

/-- The system is shut down there. -/
theorem update_atomic_sample : ∃ s,
    exec (Sys.step sampleSha256) (sampleRun ++ [.shutdown]) sampleStart = some s ∧
    s.disk.exe = none ∧ ∃ f, s.disk.backup = some f ∧
      (f = ⟨0, [0x6f, 0x6c, 0x64]⟩ ∨ Trusted sampleSha256 (· = sampleDigest) f) := by
  have hexe : (exec (Sys.step sampleSha256) (sampleRun ++ [.shutdown]) sampleStart).map
      (·.disk.exe) = some none := by decide +kernel
  obtain ⟨s, hs, hnone⟩ := Option.map_eq_some_iff.mp hexe
  have hrun : Run sampleSha256 (· = sampleDigest) ⟨0, [0x6f, 0x6c, 0x64]⟩ s := by
    refine reachable_of_exec_of_allowed ?_ (.start rfl) hs
    simp [sampleRun, Known]
  obtain ⟨-, hfiles, hbackup, -⟩ := update_atomic hrun
  obtain ⟨f, hf, -⟩ := hbackup hnone
  exact ⟨s, hs, hnone, f, hf, hfiles f (Or.inr hf)⟩

/-! ## Updates that are not cut off -/

/-- The executable is in its place, or somebody is about to put one there. -/
def InHand (s : Sys) : Prop :=
  s.disk.exe = none → ∃ pid p, s.procs.get? pid = some p ∧ p.pc.Middle

/-- One process goes on. -/
lemma InHand.goes (h : InHand s) (hsound : Sound sha256 released installed s)
    (hcareful : Careful s a) (hg : Goes sha256 released s a pid p p' s') : InHand s' := by
  have hp := hg.was
  have hturn := hg.turn
  have hself := hg.self
  have hothers := hg.others
  intro hnone
  generalize s'.disk = d at hturn hnone
  cases hturn with
  | stay himage hmoved hst hmiddle =>
      obtain ⟨q, r, hr, hm⟩ := h hnone
      by_cases hq : q = pid
      · subst hq
        obtain rfl := Option.some.inj (hr.symm.trans hp)
        exact ⟨q, p', hself, hmiddle hm⟩
      · exact ⟨q, r, (hothers q hq).trans hr, hm⟩
  | forget himage hfree hst =>
      obtain ⟨f, hf, -⟩ := hsound.exe_of_free hfree hp
      exact absurd (hf.symm.trans hnone) (Option.some_ne_none f)
  | rename hpc hexe hbackup => exact ⟨pid, _, hself, trivial⟩
  | replace hpc => cases hnone
  | restore hpc hbackup hfree => cases hnone
  | stuck hpc hfail =>
      have hstands := hsound.stands pid p hp
      rw [Stands, hpc] at hstands
      obtain ⟨f, hf, -⟩ := hstands
      rcases hfail hcareful with hgone | ⟨g, hg⟩
      · exact absurd (hf.symm.trans hgone) (Option.some_ne_none f)
      · exact absurd (hg.symm.trans hnone) (Option.some_ne_none g)

lemma InHand.started (h : InHand s) (hs : s.started pid = some s') : InHand s' := by
  intro hnone
  rw [(started_disk hs).1] at hnone
  obtain ⟨q, r, hr, hm⟩ := h hnone
  exact ⟨q, r, started_keeps hs hr, hm⟩

lemma Pc.Middle.not_atRest {pc : Pc} (h : pc.Middle) : ¬ pc.AtRest := by
  cases pc <;> first | exact h.elim | exact id

lemma inHand_of_run (hrun : CarefulRun sha256 released installed s) :
    Sound sha256 released installed s ∧ InHand s ∧ s.litter = [] := by
  refine Reachable.invariant (P := fun s => Sound sha256 released installed s ∧ InHand s ∧
    s.litter = []) ?_ ?_ hrun
  · rintro s rfl
    exact ⟨.start, by rintro ⟨⟩, rfl⟩
  · rintro s a s' - ⟨hsound, h, hlitter⟩ ⟨hknown, hcareful⟩ hs
    refine ⟨hsound.step hknown hs, ?_⟩
    rcases step_cases hs hknown with
      ⟨pid, hs⟩ | ⟨hdisk, -, hkeep⟩ | ⟨pid, p, p', mid, child, hg, hend⟩
    · exact ⟨h.started hs, (started_disk hs).2.trans hlitter⟩
    · refine ⟨?_, (hkeep hcareful).1.trans hlitter⟩
      intro hnone
      rw [hdisk] at hnone
      obtain ⟨q, r, hr, hm⟩ := h hnone
      exact ⟨q, r, (hkeep hcareful).2 q r hr hm.not_atRest, hm⟩
    · have hmid := h.goes hsound hcareful hg
      have hclean := (hg.litter hcareful).trans hlitter
      rcases hend with rfl | hend
      · exact ⟨hmid, hclean⟩
      · exact ⟨hmid.started hend, (started_disk hend).2.trans hclean⟩

/-- **An update that fails is undone.**  In every run in which no call is cut off and none fails to
undo what it has done: while nothing lies in the place of the executable, some process is about to
put one there; what a process puts back is the file it was loaded from; and no download is left
behind by a process that is through. -/
theorem update_undone (hrun : CarefulRun sha256 released installed s) :
    (s.disk.exe = none → ∃ pid p, s.procs.get? pid = some p ∧
      ((∃ tmp, p.pc = .replacing tmp) ∨ ∃ tmp?, p.pc = .restoring tmp?)) ∧
    (∀ pid p tmp?, s.procs.get? pid = some p → p.pc = .restoring tmp? →
      ∃ f, s.disk.backup = some f ∧ f.id = p.image) ∧
    s.litter = [] := by
  obtain ⟨hsound, h, hlitter⟩ := inHand_of_run hrun
  refine ⟨?_, ?_, hlitter⟩
  · intro hnone
    obtain ⟨pid, p, hp, hm⟩ := h hnone
    refine ⟨pid, p, hp, ?_⟩
    cases hpc : p.pc <;> rw [hpc] at hm <;>
      first | exact hm.elim | exact Or.inl ⟨_, rfl⟩ | exact Or.inr ⟨_, rfl⟩
  · intro pid p tmp? hp hpc
    have hstands := hsound.stands pid p hp
    rwa [Stands, hpc] at hstands

/-- The download cannot be moved there, and the executable is to be put back. -/
theorem update_undone_sample : ∃ s,
    exec (Sys.step sampleSha256) (sampleRun ++ [.replace 0 false]) sampleStart = some s ∧
    s.disk.exe = none ∧ s.litter = [] ∧ ∃ pid p, s.procs.get? pid = some p ∧
      ((∃ tmp, p.pc = .replacing tmp) ∨ ∃ tmp?, p.pc = .restoring tmp?) := by
  have hexe : (exec (Sys.step sampleSha256) (sampleRun ++ [.replace 0 false]) sampleStart).map
      (·.disk.exe) = some none := by decide +kernel
  obtain ⟨s, hs, hnone⟩ := Option.map_eq_some_iff.mp hexe
  have hrun : CarefulRun sampleSha256 (· = sampleDigest) ⟨0, [0x6f, 0x6c, 0x64]⟩ s := by
    refine reachable_of_exec_of_allowed ?_ (.start rfl) hs
    simp [sampleRun, Known, Careful]
  obtain ⟨hmiddle, -, hlitter⟩ := update_undone hrun
  exact ⟨s, hs, hnone, hlitter, hmiddle hnone⟩

end TgWsProxy.Update
