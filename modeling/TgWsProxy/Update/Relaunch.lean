import TgWsProxy.Core.Dict

/-!
# The environment of the new process

`relaunch_env` of `utils/update_check.py`: the new process shall neither find nor load what the old
one has unpacked.

* `restoreVar`, `relaunchEnv` — one turn of the loop over the variables that hold paths, and the
  whole.
* `relaunched` — what becomes of such a variable, as a function of the old environment alone.
* `foldl_restoreVar` — the turns do not touch each other.
* **`relaunchEnv_clean`** — which variables the new process has, and which paths are left in those
  that were not set aside.
-/

namespace TgWsProxy.Update

open Wire

/-! ## The code -/

/-- An environment. -/
abbrev Env := Dict (List Char) (List Char)

/-- The variables of the loop. -/
def bundleVars : List (List Char) :=
  ["PATH".toList, "LD_LIBRARY_PATH".toList, "GI_TYPELIB_PATH".toList, "GTK_PATH".toList,
    "GST_PLUGIN_PATH".toList, "GIO_MODULE_DIR".toList]

/-- `var + "_ORIG"`. -/
def orig (var : List Char) : List Char := var ++ "_ORIG".toList

/-- `k.startswith(("_PYI_", "_MEIPASS"))`. -/
def isBundleKey (k : List Char) : Bool :=
  "_PYI_".toList.isPrefixOf k || "_MEIPASS".toList.isPrefixOf k

def resetKey : List Char := "PYINSTALLER_RESET_ENVIRONMENT".toList

-- `os.path.normcase(os.path.abspath(path))`, `os.sep` and `os.pathsep`; `mei` is `sys._MEIPASS`,
-- empty where there is none
variable (norm : List Char → List Char) (sep pathsep : Char) (mei : List Char)

/-- The path lies in the bundle. -/
def inBundle (path : List Char) : Bool := (norm mei ++ [sep]).isPrefixOf (norm path ++ [sep])

/-- The paths of a variable that do not lie in the bundle. -/
def keptPaths (value : List Char) : List (List Char) :=
  (value.splitOn pathsep).filter fun path => !inBundle norm sep mei path

/-- One turn of the loop. -/
def restoreVar (env : Env) (var : List Char) : Env :=
  match env.get? (orig var) with
  | some original => (env.erase (orig var)).set var original
  | none =>
      match env.get? var with
      | some value =>
          if mei ≠ [] ∧ value ≠ [] then
            if keptPaths norm sep pathsep mei value = [] then env.erase var
            else env.set var ([pathsep].intercalate (keptPaths norm sep pathsep mei value))
          else env
      | none => env

/-- `env` before the loop. -/
def resetEnv (environ : Env) : Env :=
  let env := environ.restrict fun k => !isBundleKey k
  if mei ≠ [] then env.set resetKey ['1'] else env

/-- `relaunch_env()`. -/
def relaunchEnv (environ : Env) : Env :=
  bundleVars.foldl (restoreVar norm sep pathsep mei) (resetEnv mei environ)

/-! ## One turn -/

/-- What becomes of a variable. -/
def relaunched (env : Env) (var : List Char) : Option (List Char) :=
  match env.get? (orig var) with
  | some original => some original
  | none =>
      match env.get? var with
      | some value =>
          if mei ≠ [] ∧ value ≠ [] then
            if keptPaths norm sep pathsep mei value = [] then none
            else some ([pathsep].intercalate (keptPaths norm sep pathsep mei value))
          else some value
      | none => none

variable {norm sep pathsep mei} {env environ : Env} {var k : List Char}

lemma orig_ne (var : List Char) : orig var ≠ var := by
  intro h
  have hlength := congrArg List.length h
  rw [orig, List.length_append] at hlength
  exact absurd hlength (by simp)

lemma orig_inj {v w : List Char} (h : orig v = orig w) : v = w := List.append_cancel_right h

/-- The others stay. -/
lemma restoreVar_other (hk : k ≠ var) (horig : k ≠ orig var) :
    (restoreVar norm sep pathsep mei env var).get? k = env.get? k := by
  rw [restoreVar]
  split
  · rw [Dict.get?_set_of_ne _ hk, Dict.get?_erase_of_ne horig]
  · split
    · split_ifs
      · exact Dict.get?_erase_of_ne hk
      · exact Dict.get?_set_of_ne _ hk
      · rfl
    · rfl

lemma restoreVar_self : (restoreVar norm sep pathsep mei env var).get? var =
    relaunched norm sep pathsep mei env var := by
  rw [restoreVar, relaunched]
  split
  · exact Dict.get?_set_self _ _ _
  · split
    · rename_i value hvalue
      split_ifs
      · exact Dict.get?_erase_self _ _
      · exact Dict.get?_set_self _ _ _
      · exact hvalue
    · assumption

lemma restoreVar_orig : (restoreVar norm sep pathsep mei env var).get? (orig var) = none := by
  rw [restoreVar]
  split
  · rw [Dict.get?_set_of_ne _ (orig_ne var), Dict.get?_erase_self]
  · rename_i hnone
    split
    · split_ifs
      · rw [Dict.get?_erase_of_ne (orig_ne var), hnone]
      · rw [Dict.get?_set_of_ne _ (orig_ne var), hnone]
      · exact hnone
    · exact hnone

/-- What becomes of a variable depends on two entries. -/
lemma relaunched_congr {env' : Env} (hvar : env'.get? var = env.get? var)
    (horig : env'.get? (orig var) = env.get? (orig var)) :
    relaunched norm sep pathsep mei env' var = relaunched norm sep pathsep mei env var := by
  rw [relaunched, relaunched, hvar, horig]

/-! ## The loop -/

variable (norm sep pathsep mei) in
/-- **The turns do not touch each other.** -/
lemma foldl_restoreVar {vars : List (List Char)} (hnodup : vars.Nodup)
    (horig : ∀ v ∈ vars, ∀ w ∈ vars, v ≠ orig w) (env : Env) :
    (∀ k, k ∉ vars → k ∉ vars.map orig →
      (vars.foldl (restoreVar norm sep pathsep mei) env).get? k = env.get? k) ∧
    ∀ var ∈ vars,
      (vars.foldl (restoreVar norm sep pathsep mei) env).get? var =
        relaunched norm sep pathsep mei env var ∧
      (vars.foldl (restoreVar norm sep pathsep mei) env).get? (orig var) = none := by
  induction vars generalizing env with
  | nil => exact ⟨fun _ _ _ => rfl, fun _ h => absurd h List.not_mem_nil⟩
  | cons w vars ih =>
      obtain ⟨hw, hnodup⟩ := List.nodup_cons.mp hnodup
      obtain ⟨hothers, hvars⟩ := ih hnodup
        (fun v hv u hu => horig v (List.mem_cons_of_mem w hv) u (List.mem_cons_of_mem w hu))
        (restoreVar norm sep pathsep mei env w)
      have hcross : ∀ v ∈ vars, v ≠ w ∧ v ≠ orig w ∧ orig v ≠ w ∧ orig v ≠ orig w := by
        intro v hv
        have hne : v ≠ w := fun h => hw (h ▸ hv)
        exact ⟨hne, horig v (List.mem_cons_of_mem w hv) w List.mem_cons_self,
          (horig w List.mem_cons_self v (List.mem_cons_of_mem w hv)).symm,
          fun h => hne (orig_inj h)⟩
      have hw' : w ∉ vars.map orig := by
        intro h
        obtain ⟨v, hv, heq⟩ := List.mem_map.mp h
        exact (hcross v hv).2.2.1 heq
      have horigw : orig w ∉ vars := fun h => (hcross _ h).2.1 rfl
      have horigw' : orig w ∉ vars.map orig := by
        intro h
        obtain ⟨v, hv, heq⟩ := List.mem_map.mp h
        exact (hcross v hv).2.2.2 heq
      refine ⟨?_, ?_⟩
      · intro k hk hko
        rw [List.map_cons, List.mem_cons, not_or] at hko
        rw [List.mem_cons, not_or] at hk
        exact (hothers k hk.2 hko.2).trans (restoreVar_other hk.1 hko.1)
      · intro var hvar
        rcases List.mem_cons.mp hvar with rfl | hvar
        · exact ⟨(hothers var hw hw').trans restoreVar_self,
            (hothers _ horigw horigw').trans restoreVar_orig⟩
        · obtain ⟨h₁, h₂, h₃, h₄⟩ := hcross var hvar
          refine ⟨(hvars var hvar).1.trans ?_, (hvars var hvar).2⟩
          exact relaunched_congr (restoreVar_other h₁ h₂) (restoreVar_other h₃ h₄)

/-! ## The paths -/

/-- No separator is in a part. -/
lemma not_mem_of_mem_splitOn {c : Char} {s part : List Char} (h : part ∈ s.splitOn c) :
    c ∉ part := by
  induction s generalizing part with
  | nil =>
      rw [List.splitOn_nil, List.mem_singleton] at h
      rw [h]
      exact List.not_mem_nil
  | cons d s ih =>
      rw [List.splitOn_cons_eq_if_modifyHead] at h
      split_ifs at h with hd
      · rcases List.mem_cons.mp h with rfl | h
        · exact List.not_mem_nil
        · exact ih h
      · cases hs : s.splitOn c with
        | nil => exact absurd hs (List.splitOn_ne_nil c s)
        | cons first rest =>
            rw [hs, List.modifyHead_cons] at h
            rcases List.mem_cons.mp h with rfl | h
            · intro hc
              rcases List.mem_cons.mp hc with rfl | hc
              · exact hd (beq_self_eq_true c)
              · exact ih (by rw [hs]; exact List.mem_cons_self) hc
            · exact ih (by rw [hs]; exact List.mem_cons_of_mem _ h)

/-- The kept paths are read again as they were. -/
lemma splitOn_keptPaths {value : List Char} (h : keptPaths norm sep pathsep mei value ≠ []) :
    ([pathsep].intercalate (keptPaths norm sep pathsep mei value)).splitOn pathsep =
      keptPaths norm sep pathsep mei value := by
  refine List.splitOn_intercalate pathsep ?_ h
  intro path hpath
  exact not_mem_of_mem_splitOn (List.mem_filter.mp hpath).1

lemma keptPaths_eq_nil {value : List Char} : keptPaths norm sep pathsep mei value = [] ↔
    ∀ path ∈ value.splitOn pathsep, inBundle norm sep mei path = true := by
  simp only [keptPaths, List.filter_eq_nil_iff, Bool.not_eq_true', Bool.not_eq_false]

/-- What is not there, or empty, stays so. -/
lemma relaunched_of_empty (horig : env.get? (orig var) = none)
    (h : env.get? var = none ∨ env.get? var = some []) :
    relaunched norm sep pathsep mei env var = env.get? var := by
  rw [relaunched, horig]
  rcases h with h | h
  · rw [h]
  · rw [h]
    exact if_neg fun hne => hne.2 rfl

/-- A variable of nothing but paths in the bundle is gone. -/
lemma relaunched_eq_none_iff {old : List Char} (hmei : mei ≠ [])
    (horig : env.get? (orig var) = none) (hvar : env.get? var = some old) (hold : old ≠ []) :
    relaunched norm sep pathsep mei env var = none ↔
      ∀ path ∈ old.splitOn pathsep, inBundle norm sep mei path = true := by
  rw [relaunched, horig, hvar, ← keptPaths_eq_nil]
  dsimp only
  rw [if_pos ⟨hmei, hold⟩]
  split_ifs with hkept <;> simp [hkept]

/-- Of any other the paths outside the bundle are left. -/
lemma relaunched_of_kept {old : List Char} (hmei : mei ≠ [])
    (horig : env.get? (orig var) = none) (hvar : env.get? var = some old) (hold : old ≠ [])
    (hkept : keptPaths norm sep pathsep mei old ≠ []) :
    ∃ value, relaunched norm sep pathsep mei env var = some value ∧
      value.splitOn pathsep = keptPaths norm sep pathsep mei old := by
  refine ⟨_, ?_, splitOn_keptPaths hkept⟩
  rw [relaunched, horig, hvar]
  dsimp only
  rw [if_pos ⟨hmei, hold⟩, if_neg hkept]

/-- Without a bundle it stays. -/
lemma relaunched_of_no_bundle (horig : env.get? (orig var) = none) :
    relaunched norm sep pathsep [] env var = env.get? var := by
  rw [relaunched, horig]
  dsimp only
  split
  · rename_i value hvalue
    rw [if_neg fun h => h.1 rfl, hvalue]
  · exact (‹env.get? var = none›).symm

/-! ## The whole -/

lemma resetEnv_other (h : mei ≠ [] → k ≠ resetKey) :
    (resetEnv mei environ).get? k = if isBundleKey k then none else environ.get? k := by
  have hrestrict : (environ.restrict fun k => !isBundleKey k).get? k =
      if isBundleKey k then none else environ.get? k := by
    rw [Dict.get?_restrict]
    cases isBundleKey k <;> rfl
  rw [resetEnv]
  by_cases hmei : mei ≠ []
  · rw [if_pos hmei, Dict.get?_set_of_ne _ (h hmei), hrestrict]
  · rw [if_neg hmei, hrestrict]

lemma bundleVars_nodup : bundleVars.Nodup := by decide +kernel

lemma bundleVars_orig : ∀ v ∈ bundleVars, ∀ w ∈ bundleVars, v ≠ orig w := by decide +kernel

/-- The variables of the loop are none of the bundle's own. -/
lemma bundleVars_other : ∀ v ∈ bundleVars ++ bundleVars.map orig,
    v ≠ resetKey ∧ isBundleKey v = false := by decide +kernel

lemma isBundleKey_resetKey : isBundleKey resetKey = false := by decide +kernel

/-- A variable of the loop is as it was before. -/
lemma resetEnv_var (h : k ∈ bundleVars ++ bundleVars.map orig) :
    (resetEnv mei environ).get? k = environ.get? k := by
  obtain ⟨hreset, hkey⟩ := bundleVars_other k h
  rw [resetEnv_other fun _ => hreset, hkey]
  rfl

lemma not_mem_bundleVars (h : isBundleKey k = true ∨ k = resetKey) :
    k ∉ bundleVars ∧ k ∉ bundleVars.map orig := by
  rw [← not_or, ← List.mem_append]
  intro hmem
  obtain ⟨hreset, hkey⟩ := bundleVars_other k hmem
  rcases h with h | h
  · exact absurd (hkey.symm.trans h) Bool.false_ne_true
  · exact hreset h

/-- **The new process starts on its own.**  For every environment: a variable of paths that was
set aside under `_ORIG` gets that value back, and no such name is left; any other such variable is
gone if all of its paths lie in the bundle, is else exactly those that do not, in their order, and
stays if it was empty or not there or if there is no bundle; the variables of the bundle itself are
gone; and everything else is as it was. -/
theorem relaunchEnv_clean (norm : List Char → List Char) (sep pathsep : Char) (mei : List Char)
    (environ : Env) :
    (∀ var ∈ bundleVars,
      (relaunchEnv norm sep pathsep mei environ).get? (orig var) = none ∧
      (∀ original, environ.get? (orig var) = some original →
        (relaunchEnv norm sep pathsep mei environ).get? var = some original) ∧
      (environ.get? (orig var) = none → environ.get? var = none ∨ environ.get? var = some [] →
        (relaunchEnv norm sep pathsep mei environ).get? var = environ.get? var) ∧
      (environ.get? (orig var) = none → mei ≠ [] → ∀ old, environ.get? var = some old → old ≠ [] →
        ((relaunchEnv norm sep pathsep mei environ).get? var = none ↔
          ∀ path ∈ old.splitOn pathsep, inBundle norm sep mei path = true) ∧
        ((∃ path ∈ old.splitOn pathsep, inBundle norm sep mei path = false) → ∃ value,
          (relaunchEnv norm sep pathsep mei environ).get? var = some value ∧
            value.splitOn pathsep =
              (old.splitOn pathsep).filter fun path => !inBundle norm sep mei path)) ∧
      (environ.get? (orig var) = none → mei = [] →
        (relaunchEnv norm sep pathsep mei environ).get? var = environ.get? var)) ∧
    (∀ k, isBundleKey k = true → (relaunchEnv norm sep pathsep mei environ).get? k = none) ∧
    (mei ≠ [] → (relaunchEnv norm sep pathsep mei environ).get? resetKey = some ['1']) ∧
    ∀ k, isBundleKey k = false → k ∉ bundleVars → k ∉ bundleVars.map orig →
      (mei ≠ [] → k ≠ resetKey) →
      (relaunchEnv norm sep pathsep mei environ).get? k = environ.get? k := by
  obtain ⟨hothers, hvars⟩ :=
    foldl_restoreVar norm sep pathsep mei bundleVars_nodup bundleVars_orig (resetEnv mei environ)
  refine ⟨?_, ?_, ?_, ?_⟩
  · intro var hvar
    obtain ⟨hvalue, horig⟩ := hvars var hvar
    have hvar₀ : (resetEnv mei environ).get? var = environ.get? var :=
      resetEnv_var (List.mem_append_left _ hvar)
    have horig₀ : (resetEnv mei environ).get? (orig var) = environ.get? (orig var) :=
      resetEnv_var (List.mem_append_right _ (List.mem_map_of_mem hvar))
    rw [relaunched_congr hvar₀ horig₀] at hvalue
    refine ⟨horig, ?_, ?_, ?_, ?_⟩
    · intro original h
      refine hvalue.trans ?_
      rw [relaunched, h]
    · intro hnone hempty
      exact hvalue.trans (relaunched_of_empty hnone hempty)
    · intro hnone hmei old hold hne
      refine ⟨hvalue ▸ relaunched_eq_none_iff hmei hnone hold hne, ?_⟩
      rintro ⟨path, hpath, hout⟩
      have hkept : keptPaths norm sep pathsep mei old ≠ [] := by
        intro hnil
        rw [keptPaths_eq_nil.mp hnil path hpath] at hout
        cases hout
      obtain ⟨value, hsome, hsplit⟩ := relaunched_of_kept hmei hnone hold hne hkept
      exact ⟨value, hvalue.trans hsome, hsplit⟩
    · rintro hnone rfl
      exact hvalue.trans (relaunched_of_no_bundle hnone)
  · intro k hk
    obtain ⟨h₁, h₂⟩ := not_mem_bundleVars (Or.inl hk)
    refine (hothers k h₁ h₂).trans ?_
    rw [resetEnv_other, if_pos hk]
    rintro - rfl
    exact absurd (isBundleKey_resetKey.symm.trans hk) Bool.false_ne_true
  · intro hmei
    obtain ⟨h₁, h₂⟩ := not_mem_bundleVars (Or.inr rfl)
    refine (hothers resetKey h₁ h₂).trans ?_
    rw [resetEnv, if_pos hmei]
    exact Dict.get?_set_self _ _ _
  · intro k hk h₁ h₂ hreset
    refine (hothers k h₁ h₂).trans ?_
    rw [resetEnv_other hreset, hk]
    rfl

end TgWsProxy.Update
