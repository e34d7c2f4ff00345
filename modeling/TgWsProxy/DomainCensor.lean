import Mathlib
import TgWsProxy.Core.Regex

/-!
# Domains in the log

`_is_valid_domain` of `proxy/config.py` admits fronts into the pool; `DomainCensorFilter` of
`proxy/utils.py` finds domains in log messages with a regular expression of its own.

* `isValidDomain`, `domainPattern`, `censorMatch`, `censorFilter` — the code.
* `IsLabel`, `mem_label`, `mem_labelDot`, `mem_tld` — what the parts of the pattern consume.
* `firstAt_domain` — on a domain whose last label is all letters the match is the whole domain.
* `sub_keeps` — the label before a last label that is not all letters is never rewritten.
* **`accepted_domain_censored_iff`** — hence an accepted domain is censored exactly when its last
  label consists of letters.
-/

namespace TgWsProxy

open Wire Regex

/-! ## The code -/

/-- `str.isalnum` and `str.isalpha`.  On ASCII they are what one expects; beyond it the character
database decides. -/
structure CharacterDb where
  isalnum : Char → Bool
  isalpha : Char → Bool
  isalnum_ascii : ∀ c : Char, c.val < 128 → isalnum c = c.isAlphanum
  isalpha_ascii : ∀ c : Char, c.val < 128 → isalpha c = c.isAlpha

variable (db : CharacterDb)

/-- The checks of `_is_valid_domain` on one label. -/
def isValidLabel (label : List Char) : Bool :=
  !(label = [] || decide (63 < label.length))
    && !(label.head? = some '-' || label.getLast? = some '-')
    && label.all fun ch => db.isalnum ch || ch = '-'

/-- `_is_valid_domain(domain)`. -/
def isValidDomain (domain : List Char) : Bool :=
  if domain = [] ∨ 253 < domain.length then false
  else if domain.head? = some '.' ∨ domain.getLast? = some '.' then false
  else
    let labels := domain.splitOn '.'
    if labels.length < 2 then false
    else if ¬ labels.all (isValidLabel db) then false
    else
      -- the top-level label should contain letters and be at least 2 characters
      let tld := labels.getLastD []
      !(decide (tld.length < 2) || !tld.any db.isalpha)

/-- `[\w-]`. -/
def wordOrHyphen (c : Char) : Bool := db.isalnum c || c = '_' || c = '-'

/-- `[a-zA-Z0-9-]`. -/
def alnumOrHyphen (c : Char) : Bool := c.isAlphanum || c = '-'

/-- `[a-zA-Z0-9](?:[a-zA-Z0-9-]{0,61}[a-zA-Z0-9])?`. -/
def labelPattern : Regex Char :=
  seq (chars Char.isAlphanum)
    (opt (seq (upTo 61 (chars alnumOrHyphen)) (chars Char.isAlphanum)))

/-- A label and the dot behind it. -/
def labelDotPattern : Regex Char := seq labelPattern (chars (· = '.'))

/-- `[a-zA-Z]{2,}`. -/
def tldPattern : Regex Char :=
  seq (chars Char.isAlpha) (seq (chars Char.isAlpha) (star (chars Char.isAlpha)))

/-- `DomainCensorFilter.domain_pattern`. -/
def domainPattern : Regex Char :=
  seq (notBehind (wordOrHyphen db))
    (seq (plus labelDotPattern) (seq tldPattern (notAhead (wordOrHyphen db))))

/-- `part[:len(part) // 2] + '*' * (len(part) - len(part) // 2)`. -/
def censorPart (part : List Char) : List Char :=
  part.take (part.length / 2) ++ List.replicate (part.length - part.length / 2) '*'

/-- `'telegram.org'`. -/
def telegramOrg : List Char := ['t', 'e', 'l', 'e', 'g', 'r', 'a', 'm', '.', 'o', 'r', 'g']

/-- `normalized == 'telegram.org' or normalized.endswith('.telegram.org') or
normalized.endswith('.log')`. -/
def isExempt (normalized : List Char) : Bool :=
  decide (normalized = telegramOrg) || ('.' :: telegramOrg).isSuffixOf normalized
    || ['.', 'l', 'o', 'g'].isSuffixOf normalized

/-- `DomainCensorFilter._censor_match(match)`.  What the pattern matches is ASCII, where `casefold`
is the change to lower case. -/
def censorMatch (domain : List Char) : List Char :=
  let normalized := (domain.map Char.toLower).rdropWhile (· = '.')
  if isExempt normalized then domain
  else
    let parts := domain.splitOn '.'
    if parts.length < 2 then domain
    else
      List.intercalate ['.'] (parts.mapIdx fun i part =>
        if i = parts.length - 1 then part else censorPart part)

/-- `DomainCensorFilter.filter(record)`: the message it leaves in the record. -/
def censorFilter (message : List Char) : List Char :=
  sub (domainPattern db) censorMatch ⟨[], message⟩

/-! ## What the pattern consumes -/

/-- A label as the pattern has it. -/
def IsLabel (t : List Char) : Prop :=
  ∃ a, a.isAlphanum = true ∧ (t = [a] ∨ ∃ m z, t = a :: (m ++ [z]) ∧ m.length ≤ 61 ∧
    (∀ x ∈ m, alnumOrHyphen x = true) ∧ z.isAlphanum = true)

lemma alnumOrHyphen_of_isAlphanum {c : Char} (h : c.isAlphanum = true) :
    alnumOrHyphen c = true := by
  simp [alnumOrHyphen, h]

lemma IsLabel.alnumOrHyphen {t : List Char} (h : IsLabel t) : ∀ x ∈ t, alnumOrHyphen x = true := by
  obtain ⟨a, ha, rfl | ⟨m, z, rfl, -, hm, hz⟩⟩ := h
  · intro x hx
    rw [List.mem_singleton.mp hx]
    exact alnumOrHyphen_of_isAlphanum ha
  · intro x hx
    rcases List.mem_cons.mp hx with rfl | hx
    · exact alnumOrHyphen_of_isAlphanum ha
    · rcases List.mem_append.mp hx with hx | hx
      · exact hm x hx
      · rw [List.mem_singleton.mp hx]
        exact alnumOrHyphen_of_isAlphanum hz

/-- A label ends with a letter or a digit. -/
lemma IsLabel.eq_append {t : List Char} (h : IsLabel t) :
    ∃ s z, t = s ++ [z] ∧ z.isAlphanum = true := by
  obtain ⟨a, ha, rfl | ⟨m, z, rfl, -, -, hz⟩⟩ := h
  · exact ⟨[], a, rfl, ha⟩
  · exact ⟨a :: m, z, rfl, hz⟩

lemma not_alnumOrHyphen_dot : alnumOrHyphen '.' = false := by decide

lemma IsLabel.dot_not_mem {t : List Char} (h : IsLabel t) : '.' ∉ t := by
  intro hmem
  have hdot := h.alnumOrHyphen '.' hmem
  rw [not_alnumOrHyphen_dot] at hdot
  cases hdot

section Members

variable {c d : Cursor Char}

lemma mem_labelPattern : d ∈ matchesAt labelPattern c ↔
    ∃ t rest, c.ahead = t ++ rest ∧ IsLabel t ∧ d = c.skip t rest := by
  rw [labelPattern, mem_seq]
  constructor
  · rintro ⟨e, he, hd⟩
    obtain ⟨a, rest, hahead, ha, rfl⟩ := mem_chars.mp he
    rcases mem_opt.mp hd with hd | rfl
    · obtain ⟨f, hf, hd⟩ := mem_seq.mp hd
      obtain ⟨m, rest', hm, hlen, hall, rfl⟩ := mem_upTo_chars.mp hf
      obtain ⟨z, rest'', hz, hzp, rfl⟩ := mem_chars.mp hd
      rw [Cursor.skip_ahead] at hm hz
      refine ⟨a :: (m ++ [z]), rest'', ?_, ⟨a, ha, Or.inr ⟨m, z, rfl, hlen, hall, hzp⟩⟩, ?_⟩
      · rw [hahead, hm, hz]
        simp
      · rw [Cursor.skip_skip, Cursor.skip_skip]
        simp
    · exact ⟨[a], rest, by simpa using hahead, ⟨a, ha, Or.inl rfl⟩, rfl⟩
  · rintro ⟨t, rest, hahead, ⟨a, ha, rfl | ⟨m, z, rfl, hlen, hall, hz⟩⟩, rfl⟩
    · exact ⟨_, mem_chars.mpr ⟨a, rest, hahead, ha, rfl⟩, mem_opt.mpr (Or.inr rfl)⟩
    · refine ⟨c.skip [a] (m ++ z :: rest), mem_chars.mpr ⟨a, _, by rw [hahead]; simp, ha, rfl⟩,
        mem_opt.mpr (Or.inl (mem_seq.mpr ⟨c.skip (a :: m) (z :: rest), ?_, ?_⟩))⟩
      · refine mem_upTo_chars.mpr ⟨m, z :: rest, rfl, hlen, hall, ?_⟩
        rw [Cursor.skip_skip]
        rfl
      · refine mem_chars.mpr ⟨z, rest, rfl, hz, ?_⟩
        rw [Cursor.skip_skip]
        rfl

lemma mem_labelDotPattern : d ∈ matchesAt labelDotPattern c ↔
    ∃ t rest, c.ahead = t ++ '.' :: rest ∧ IsLabel t ∧ d = c.skip (t ++ ['.']) rest := by
  rw [labelDotPattern, mem_seq]
  constructor
  · rintro ⟨e, he, hd⟩
    obtain ⟨t, rest, hahead, ht, rfl⟩ := mem_labelPattern.mp he
    obtain ⟨a, rest', hrest, ha, rfl⟩ := mem_chars.mp hd
    obtain rfl : a = '.' := by simpa using ha
    rw [Cursor.skip_ahead] at hrest
    exact ⟨t, rest', by rw [hahead, hrest], ht, by rw [Cursor.skip_skip]⟩
  · rintro ⟨t, rest, hahead, ht, rfl⟩
    refine ⟨c.skip t ('.' :: rest), mem_labelPattern.mpr ⟨t, _, hahead, ht, rfl⟩,
      mem_chars.mpr ⟨'.', rest, rfl, by simp, ?_⟩⟩
    rw [Cursor.skip_skip]

lemma mem_tldPattern : d ∈ matchesAt tldPattern c ↔ ∃ t rest, c.ahead = t ++ rest ∧
    2 ≤ t.length ∧ (∀ x ∈ t, x.isAlpha = true) ∧ d = c.skip t rest := by
  rw [tldPattern, mem_seq]
  constructor
  · rintro ⟨e, he, hd⟩
    obtain ⟨a, rest, hahead, ha, rfl⟩ := mem_chars.mp he
    obtain ⟨f, hf, hd⟩ := mem_seq.mp hd
    obtain ⟨b, rest', hrest, hb, rfl⟩ := mem_chars.mp hf
    obtain ⟨t, rest'', ht, hall, rfl⟩ := mem_star_chars.mp hd
    rw [Cursor.skip_ahead] at hrest ht
    refine ⟨a :: b :: t, rest'', by rw [hahead, hrest, ht]; rfl, by simp, ?_, ?_⟩
    · intro x hx
      rcases List.mem_cons.mp hx with rfl | hx
      · exact ha
      · rcases List.mem_cons.mp hx with rfl | hx
        · exact hb
        · exact hall x hx
    · rw [Cursor.skip_skip, Cursor.skip_skip]
      rfl
  · rintro ⟨t, rest, hahead, hlen, hall, rfl⟩
    match t, hlen with
    | a :: b :: t, _ =>
        refine ⟨c.skip [a] (b :: t ++ rest), mem_chars.mpr ⟨a, _, hahead,
          hall a (by simp), rfl⟩, mem_seq.mpr ⟨c.skip [a, b] (t ++ rest), ?_, ?_⟩⟩
        · refine mem_chars.mpr ⟨b, _, rfl, hall b (by simp), ?_⟩
          rw [Cursor.skip_skip]
          rfl
        · refine mem_star_chars.mpr ⟨t, rest, rfl, fun x hx => hall x (by simp [hx]), ?_⟩
          rw [Cursor.skip_skip]
          rfl

end Members

/-- `[a-zA-Z0-9.-]`: the characters of a match. -/
def InDomain (c : Char) : Prop := alnumOrHyphen c = true ∨ c = '.'

/-- From `c` to `d` characters of a domain are read, the last of them a dot. -/
def ReadsToDot (c d : Cursor Char) : Prop :=
  ∃ u, c.ahead = u ++ '.' :: d.ahead ∧ (∀ x ∈ u, InDomain x) ∧ d = c.skip (u ++ ['.']) d.ahead

lemma ReadsToDot.trans {c d e : Cursor Char} (h : ReadsToDot c d) (h' : ReadsToDot d e) :
    ReadsToDot c e := by
  obtain ⟨u, hu, hall, hd⟩ := h
  obtain ⟨v, hv, hall', he⟩ := h'
  refine ⟨u ++ '.' :: v, by rw [hu, hv]; simp, ?_, ?_⟩
  · intro x hx
    rcases List.mem_append.mp hx with hx | hx
    · exact hall x hx
    · rcases List.mem_cons.mp hx with rfl | hx
      · exact Or.inr rfl
      · exact hall' x hx
  · rw [he, Cursor.skip_ahead, hd, Cursor.skip_skip]
    simp

lemma readsToDot_of_mem {c d : Cursor Char} (h : d ∈ matchesAt labelDotPattern c) :
    ReadsToDot c d := by
  obtain ⟨t, rest, hahead, ht, rfl⟩ := mem_labelDotPattern.mp h
  exact ⟨t, hahead, fun x hx => Or.inl (ht.alnumOrHyphen x hx), rfl⟩

/-- One round of labels and dots, and any number more. -/
lemma readsToDot_of_mem_plus {c d : Cursor Char} (h : d ∈ matchesAt (plus labelDotPattern) c) :
    ReadsToDot c d := by
  obtain ⟨e, he, hd⟩ := mem_seq.mp h
  have hrest : d = e ∨ ReadsToDot e d := by
    refine upToFrom_induction (P := fun c d => d = c ∨ ReadsToDot c d) (fun c => Or.inl rfl) ?_ hd
    rintro c e d hround (rfl | hmore)
    · exact Or.inr (readsToDot_of_mem hround)
    · exact Or.inr ((readsToDot_of_mem hround).trans hmore)
  rcases hrest with rfl | hmore
  · exact readsToDot_of_mem he
  · exact (readsToDot_of_mem he).trans hmore

variable {db}

/-- **Every match is shaped like a domain.**  It ends in at least two letters behind a dot, and no
letter, digit, underscore or hyphen follows it. -/
lemma shape_of_mem {c d : Cursor Char} (h : d ∈ matchesAt (domainPattern db) c) :
    ∃ u tld, c.ahead = (u ++ '.' :: tld) ++ d.ahead ∧ (∀ x ∈ u, InDomain x) ∧ 2 ≤ tld.length ∧
      (∀ x ∈ tld, x.isAlpha = true) ∧ d.ahead.head?.any (wordOrHyphen db) = false ∧
      d = c.skip (u ++ '.' :: tld) d.ahead := by
  obtain ⟨e, he, hplus⟩ := mem_seq.mp h
  obtain ⟨-, rfl⟩ := mem_notBehind.mp he
  obtain ⟨f, hf, htldEnd⟩ := mem_seq.mp hplus
  obtain ⟨g, hg, hend⟩ := mem_seq.mp htldEnd
  obtain ⟨hstop, rfl⟩ := mem_notAhead.mp hend
  obtain ⟨u, hu, hall, hf'⟩ := readsToDot_of_mem_plus hf
  obtain ⟨tld, rest, htld, hlen, hletters, rfl⟩ := mem_tldPattern.mp hg
  refine ⟨u, tld, by rw [hu, htld]; simp, hall, hlen, hletters, hstop, ?_⟩
  rw [Cursor.skip_ahead, hf', Cursor.skip_skip]
  simp

/-! ## Censored text -/

/-- The first occurrence of a separator divides a text in one way only. -/
lemma append_cons_inj {α : Type*} {a : α} : ∀ {u u' v v' : List α}, a ∉ u → a ∉ u' →
    u ++ a :: v = u' ++ a :: v' → u = u' ∧ v = v'
  | [], [], _, _, _, _, h => ⟨rfl, (List.cons.inj h).2⟩
  | [], b :: u', _, _, _, hu', h => absurd (List.cons.inj h).1 fun hab =>
      hu' (hab ▸ List.mem_cons_self)
  | b :: u, [], _, _, hu, _, h => absurd (List.cons.inj h).1 fun hab =>
      hu (hab ▸ List.mem_cons_self)
  | b :: u, b' :: u', _, _, hu, hu', h => by
      obtain ⟨rfl, hrest⟩ := List.cons.inj h
      obtain ⟨rfl, rfl⟩ := append_cons_inj (fun hm => hu (List.mem_cons_of_mem _ hm))
        (fun hm => hu' (List.mem_cons_of_mem _ hm)) hrest
      exact ⟨rfl, rfl⟩

/-- And so does the last. -/
lemma append_cons_inj_last {α : Type*} {a : α} {u u' v v' : List α} (hv : a ∉ v) (hv' : a ∉ v')
    (h : u ++ a :: v = u' ++ a :: v') : u = u' ∧ v = v' := by
  have hrev := congrArg List.reverse h
  simp only [List.reverse_append, List.reverse_cons, List.append_assoc, List.singleton_append]
    at hrev
  obtain ⟨h₁, h₂⟩ := append_cons_inj (by simpa using hv) (by simpa using hv') hrev
  exact ⟨List.reverse_injective h₂, List.reverse_injective h₁⟩

/-- The labels with a dot behind each. -/
def dotted (labels : List (List Char)) : List Char := labels.flatMap (· ++ ['.'])

@[simp] lemma dotted_nil : dotted [] = [] := rfl

lemma dotted_cons (l : List Char) (labels : List (List Char)) :
    dotted (l :: labels) = l ++ '.' :: dotted labels := by
  simp [dotted]

lemma dotted_append (as bs : List (List Char)) : dotted (as ++ bs) = dotted as ++ dotted bs :=
  List.flatMap_append

@[simp] lemma length_censorPart (part : List Char) : (censorPart part).length = part.length := by
  simp only [censorPart, List.length_append, List.length_take, List.length_replicate]
  omega

lemma length_dotted_censorPart (labels : List (List Char)) :
    (dotted (labels.map censorPart)).length = (dotted labels).length := by
  induction labels with
  | nil => rfl
  | cons l labels ih => simp [dotted_cons, ih]

lemma intercalate_append_singleton (labels : List (List Char)) (tld : List Char) :
    List.intercalate ['.'] (labels ++ [tld]) = dotted labels ++ tld := by
  induction labels with
  | nil => simp
  | cons l labels ih =>
      cases labels with
      | nil => simp [dotted]
      | cons l' labels =>
          have hstep : List.intercalate ['.'] (l :: (l' :: labels ++ [tld]))
              = l ++ '.' :: List.intercalate ['.'] (l' :: labels ++ [tld]) := by simp
          rw [List.cons_append, hstep, ih, dotted_cons l, List.append_assoc, List.cons_append]

/-- What `enumerate` tells apart is the last part. -/
lemma mapIdx_append_singleton (labels : List (List Char)) (tld : List Char) :
    (labels ++ [tld]).mapIdx (fun i part =>
      if i = (labels ++ [tld]).length - 1 then part else censorPart part)
      = labels.map censorPart ++ [tld] := by
  rw [List.mapIdx_append, List.length_append, List.length_singleton, Nat.add_sub_cancel]
  congr 1
  · refine List.ext_getElem (by simp) fun i hi hi' => ?_
    have hlt : i < labels.length := by simpa using hi'
    simp [hlt.ne]
  · simp

/-- A text that is censored: the labels are, the last part is not. -/
lemma censorMatch_of_split {domain tld : List Char} {labels : List (List Char)}
    (hne : labels ≠ []) (hsplit : domain.splitOn '.' = labels ++ [tld]) :
    censorMatch domain =
      if isExempt ((domain.map Char.toLower).rdropWhile (· = '.')) then domain
      else dotted (labels.map censorPart) ++ tld := by
  have hlen : ¬ (labels ++ [tld]).length < 2 := by
    have hpos := List.length_pos_iff.mpr hne
    rw [List.length_append, List.length_singleton]
    omega
  rw [censorMatch]
  dsimp only
  rw [hsplit, if_neg hlen, mapIdx_append_singleton, intercalate_append_singleton]

lemma eq_dotted_of_split {domain tld : List Char} {labels : List (List Char)}
    (hsplit : domain.splitOn '.' = labels ++ [tld]) : domain = dotted labels ++ tld := by
  calc domain = ['.'].intercalate (domain.splitOn '.') := (List.intercalate_splitOn '.').symm
    _ = dotted labels ++ tld := by rw [hsplit, intercalate_append_singleton]

/-- Whatever becomes of a match, its last part stays where it is. -/
lemma censorMatch_keeps_last (u : List Char) {tld : List Char} (htld : '.' ∉ tld) :
    ∃ v, v.length = u.length + 1 ∧ censorMatch (u ++ '.' :: tld) = v ++ tld := by
  have hsplit : (u ++ '.' :: tld).splitOn '.' = u.splitOn '.' ++ [tld] := by
    rw [List.splitOn_append_cons_self, List.splitOn_eq_singleton htld]
  have hu : (dotted (u.splitOn '.')).length = u.length + 1 := by
    have heq := eq_dotted_of_split hsplit
    have hlen := congrArg List.length heq
    simp only [List.length_append, List.length_cons] at hlen
    omega
  rw [censorMatch_of_split (List.splitOn_ne_nil _ _) hsplit]
  split_ifs
  · exact ⟨u ++ ['.'], by simp, by simp⟩
  · exact ⟨_, by rw [length_dotted_censorPart, hu], rfl⟩

/-! ## Scanning a message -/

lemma inDomain_of_isAlpha {x : Char} (h : x.isAlpha = true) : InDomain x :=
  Or.inl (alnumOrHyphen_of_isAlphanum (by simp [Char.isAlphanum, h]))

lemma dot_not_mem_of_isAlpha {tld : List Char} (h : ∀ x ∈ tld, x.isAlpha = true) : '.' ∉ tld := by
  intro hmem
  have hdot := h '.' hmem
  revert hdot
  decide

section Scan

/-- A match that the substitution takes, with its shape. -/
lemma sub_match {c d : Cursor Char} (h : firstAt (domainPattern db) c = some d) :
    ∃ u tld, c.ahead = (u ++ '.' :: tld) ++ d.ahead ∧ (∀ x ∈ u ++ '.' :: tld, InDomain x) ∧
      2 ≤ tld.length ∧ (∀ x ∈ tld, x.isAlpha = true) ∧
      d.ahead.head?.any (wordOrHyphen db) = false ∧ d = c.skip (u ++ '.' :: tld) d.ahead ∧
      sub (domainPattern db) censorMatch c
        = censorMatch (u ++ '.' :: tld) ++ sub (domainPattern db) censorMatch d := by
  obtain ⟨u, tld, hahead, hall, hlen, hletters, hstop, hd⟩ := shape_of_mem (mem_of_firstAt h)
  have hbetween : between c d = u ++ '.' :: tld := by
    rw [hd]
    exact between_skip hahead
  refine ⟨u, tld, hahead, ?_, hlen, hletters, hstop, hd, by rw [sub_of_some h, hbetween]⟩
  intro x hx
  rcases List.mem_append.mp hx with hx | hx
  · exact hall x hx
  · rcases List.mem_cons.mp hx with rfl | hx
    · exact Or.inr rfl
    · exact inDomain_of_isAlpha (hletters x hx)

variable (db) in
/-- **No match reaches past a character that no domain has.**  What stands up to there is rewritten
on its own, at its own length. -/
lemma sub_append {s rest : List Char} (hs : ∀ y ∈ s.getLast?, ¬ InDomain y) (c : Cursor Char)
    (hahead : c.ahead = s ++ rest) :
    ∃ out, out.length = s.length ∧ sub (domainPattern db) censorMatch c
      = out ++ sub (domainPattern db) censorMatch (c.skip s rest) := by
  induction hn : s.length using Nat.strongRecOn generalizing s c with
  | _ n ih =>
      cases s with
      | nil =>
          have hrest : c.ahead = rest := hahead
          exact ⟨[], hn, by rw [List.nil_append, Cursor.skip_nil hrest]⟩
      | cons a as =>
          cases hfirst : firstAt (domainPattern db) c with
          | some d =>
              obtain ⟨u, tld, hmatch, hin, hlen, hletters, -, hd, hsub⟩ := sub_match hfirst
              obtain ⟨v, hv, hcensor⟩ := censorMatch_keeps_last u (dot_not_mem_of_isAlpha hletters)
              rw [hmatch] at hahead
              -- the character at the end of `s` is not in the match
              obtain ⟨y, hy⟩ : ∃ y, (a :: as).getLast? = some y :=
                ⟨_, List.getLast?_eq_some_getLast (by simp)⟩
              have hmem : y ∈ a :: as := List.mem_of_getLast? hy
              have hout : y ∉ u ++ '.' :: tld := fun hmem => hs y hy (hin y hmem)
              rcases List.append_eq_append_iff.mp hahead with ⟨bs, hs', hrest⟩ | ⟨bs, hmatch', -⟩
              · have hne : bs ≠ [] := by
                  rintro rfl
                  rw [hs', List.append_nil] at hmem
                  exact hout hmem
                have hlast : bs.getLast? = (a :: as).getLast? := by
                  rw [hs', List.getLast?_append_of_ne_nil _ hne]
                have hlens := congrArg List.length hs'
                simp only [List.length_append, List.length_cons] at hlens hn
                obtain ⟨out, hlenOut, heq⟩ := ih bs.length (by omega)
                  (fun z hz => hs z (hlast ▸ hz)) d hrest rfl
                refine ⟨v ++ tld ++ out, ?_, ?_⟩
                · simp only [List.length_append]
                  omega
                · rw [hsub, hcensor, heq, hs', hd, Cursor.skip_skip]
                  simp
              · exact absurd (by rw [hmatch']; exact List.mem_append_left _ hmem) hout
          | none =>
              obtain ⟨behind, ahead⟩ := c
              obtain rfl : ahead = a :: (as ++ rest) := hahead
              have hlast : ∀ y ∈ as.getLast?, y ∈ (a :: as).getLast? := by
                cases as <;> simp
              obtain ⟨out, hlenOut, heq⟩ := ih as.length (by simp at hn; omega)
                (fun y hy => hs y (hlast y hy)) ⟨a :: behind, as ++ rest⟩ rfl rfl
              refine ⟨a :: out, by simpa [hlenOut] using hn, ?_⟩
              rw [sub_of_none hfirst, heq]
              simp [Cursor.skip]

/-- **The label before a last label that is not all letters is not rewritten.**  Any match that
reaches past the dot behind it would end inside that last label, where a letter, a digit or a
hyphen follows. -/
lemma sub_keeps {x : Char} {tld post : List Char} (hdot : '.' ∉ tld)
    (hword : ∀ y ∈ tld, wordOrHyphen db y = true) (hnot : ¬ ∀ y ∈ tld, y.isAlpha = true)
    (hpost : ∀ y ∈ post.head?, ¬ InDomain y) (s : List Char) (c : Cursor Char)
    (hahead : c.ahead = s ++ x :: '.' :: (tld ++ post)) :
    ∃ out behind, out.length = s.length ∧
      sub (domainPattern db) censorMatch c = out ++ x :: behind := by
  induction hn : s.length using Nat.strongRecOn generalizing s c with
  | _ n ih =>
      cases hfirst : firstAt (domainPattern db) c with
      | some d =>
          obtain ⟨u, tld', hmatch, hin, hlen, hletters, hstop, -, hsub⟩ := sub_match hfirst
          have hdot' := dot_not_mem_of_isAlpha hletters
          obtain ⟨v, hv, hcensor⟩ := censorMatch_keeps_last u hdot'
          rw [hmatch] at hahead
          rcases List.append_eq_append_iff.mp hahead with ⟨as, hs, hrest⟩ | ⟨bs, hmatch', hrest⟩
          · -- the match ends before `x`
            have hlens := congrArg List.length hs
            simp only [List.length_append, List.length_cons] at hlens
            obtain ⟨out, behind, hout, heq⟩ := ih as.length (by omega) as d hrest rfl
            refine ⟨v ++ tld' ++ out, behind, ?_, ?_⟩
            · simp only [List.length_append]
              omega
            · rw [hsub, hcensor, heq]
              simp
          · match bs, hmatch', hrest with
            | [], hmatch', hrest =>
                have hlens := congrArg List.length hmatch'
                simp only [List.length_append, List.length_cons, List.length_nil] at hlens
                obtain ⟨out, behind, hout, heq⟩ := ih 0 (by omega) [] d hrest.symm rfl
                obtain rfl := List.length_eq_zero_iff.mp hout
                refine ⟨v ++ tld', behind, ?_, by rw [hsub, hcensor, heq]; rfl⟩
                simp only [List.length_append]
                omega
            | [y], hmatch', hrest =>
                -- the match ends with `x`, in the part that stays
                obtain ⟨rfl, -⟩ := List.cons.inj hrest
                obtain ⟨w, z, rfl⟩ : ∃ w z, tld' = w ++ [z] :=
                  ⟨_, _, (List.dropLast_append_getLast (List.length_pos_iff.mp (by omega))).symm⟩
                have hsplit : s ++ [x] = (u ++ '.' :: w) ++ [z] := by rw [← hmatch']; simp
                obtain ⟨rfl, hz⟩ := List.append_inj' hsplit rfl
                obtain rfl : x = z := by simpa using hz
                refine ⟨v ++ w, sub (domainPattern db) censorMatch d, ?_, ?_⟩
                · simp only [List.length_append, List.length_cons] at hn ⊢
                  omega
                · rw [hsub, hcensor]
                  simp
            | y :: z :: bs, hmatch', hrest =>
                exfalso
                obtain ⟨rfl, hrest'⟩ := List.cons.inj hrest
                obtain ⟨rfl, hpastDot⟩ := List.cons.inj hrest'
                -- what the match has behind the dot is all of the last label
                have hwhole : bs = tld := by
                  rcases List.append_eq_append_iff.mp hpastDot with
                    ⟨es, rfl, hpost'⟩ | ⟨es, htld, hd⟩
                  · cases es with
                    | nil => exact List.append_nil _
                    | cons e es =>
                        refine absurd (hin e ?_) (hpost e (by rw [hpost']; simp))
                        rw [hmatch']
                        simp
                  · cases es with
                    | nil => rw [htld, List.append_nil]
                    | cons e es =>
                        rw [hd] at hstop
                        have he := hword e (by rw [htld]; simp)
                        simp [he] at hstop
                subst hwhole
                have hlabels : u ++ '.' :: tld' = (s ++ [x]) ++ '.' :: bs := by rw [hmatch']; simp
                obtain ⟨-, rfl⟩ := append_cons_inj_last hdot' hdot hlabels
                exact hnot hletters
      | none =>
          obtain ⟨behind, ahead⟩ := c
          cases s with
          | nil =>
              obtain rfl : ahead = x :: '.' :: (tld ++ post) := hahead
              exact ⟨[], _, hn, sub_of_none hfirst⟩
          | cons a as =>
              obtain rfl : ahead = a :: (as ++ x :: '.' :: (tld ++ post)) := hahead
              obtain ⟨out, behind', hout, heq⟩ := ih as.length (by simp at hn; omega) as
                ⟨a :: behind, _⟩ rfl rfl
              refine ⟨a :: out, behind', by simpa [hout] using hn, ?_⟩
              rw [sub_of_none hfirst, heq]
              rfl

end Scan

/-! ## A domain in the pattern -/

lemma isAscii_of_isAlpha {c : Char} (h : c.isAlpha = true) : c.val < 128 := by
  simp only [Char.isAlpha, Char.isUpper, Char.isLower, Bool.or_eq_true, Bool.and_eq_true,
    decide_eq_true_eq] at h
  rw [UInt32.lt_iff_toNat_lt]
  rcases h with ⟨-, h⟩ | ⟨-, h⟩ <;> rw [UInt32.le_iff_toNat_le] at h <;>
    exact lt_of_le_of_lt h (by decide)

lemma wordOrHyphen_of_isAlpha {c : Char} (h : c.isAlpha = true) : wordOrHyphen db c = true := by
  simp [wordOrHyphen, db.isalnum_ascii c (isAscii_of_isAlpha h), Char.isAlphanum, h]

section Domain

variable {labels : List (List Char)} {tld post : List Char}

/-- A label with the dot behind it is consumed in one way only. -/
lemma matchesAt_labelDot {c : Cursor Char} {l rest : List Char} (hl : IsLabel l)
    (hahead : c.ahead = l ++ '.' :: rest) :
    ∃ tail, matchesAt labelDotPattern c = c.skip (l ++ ['.']) rest :: tail := by
  refine eq_cons_of_forall_eq (mem_labelDotPattern.mpr ⟨l, rest, hahead, hl, rfl⟩) fun e he => ?_
  obtain ⟨t, rest', hahead', ht, rfl⟩ := mem_labelDotPattern.mp he
  rw [hahead] at hahead'
  obtain ⟨rfl, rfl⟩ := append_cons_inj hl.dot_not_mem ht.dot_not_mem hahead'
  rfl

/-- At the last label no round of labels and dots goes through. -/
lemma matchesAt_labelDot_tld {c : Cursor Char} (hdot : '.' ∉ tld)
    (hpost : ∀ y ∈ post.head?, ¬ InDomain y) (hahead : c.ahead = tld ++ post) :
    matchesAt labelDotPattern c = [] := by
  rw [List.eq_nil_iff_forall_not_mem]
  intro e he
  obtain ⟨t, rest, hahead', ht, -⟩ := mem_labelDotPattern.mp he
  rw [hahead] at hahead'
  rcases List.append_eq_append_iff.mp hahead' with ⟨as, rfl, hpost'⟩ | ⟨bs, htld, hrest⟩
  · cases as with
    | nil => exact hpost '.' (by rw [hpost']; rfl) (Or.inr rfl)
    | cons a as =>
        exact hpost a (by rw [hpost']; rfl) (Or.inl (ht.alnumOrHyphen a (by simp)))
  · cases bs with
    | nil =>
        have hdotPost : '.' :: rest = post := hrest
        exact hpost '.' (by rw [← hdotPost]; rfl) (Or.inr rfl)
    | cons b bs =>
        obtain ⟨rfl, -⟩ := List.cons.inj hrest
        exact hdot (by rw [htld]; simp)

variable (db) in
/-- The last label is consumed whole or not at all. -/
lemma matchesAt_tld {c : Cursor Char} (hlen : 2 ≤ tld.length)
    (hletters : ∀ x ∈ tld, x.isAlpha = true) (hpost : ∀ y ∈ post.head?, ¬ InDomain y)
    (hstop : post.head?.any (wordOrHyphen db) = false) (hahead : c.ahead = tld ++ post) :
    ∃ tail,
      matchesAt (seq tldPattern (notAhead (wordOrHyphen db))) c = c.skip tld post :: tail := by
  have hmem : c.skip tld post ∈ matchesAt (seq tldPattern (notAhead (wordOrHyphen db))) c :=
    mem_seq.mpr ⟨_, mem_tldPattern.mpr ⟨tld, post, hahead, hlen, hletters, rfl⟩,
      mem_notAhead.mpr ⟨hstop, rfl⟩⟩
  refine eq_cons_of_forall_eq hmem fun e he => ?_
  obtain ⟨f, hf, he⟩ := mem_seq.mp he
  obtain ⟨t, rest, hahead', -, ht, rfl⟩ := mem_tldPattern.mp hf
  obtain ⟨hstop', rfl⟩ := mem_notAhead.mp he
  rw [hahead] at hahead'
  rcases List.append_eq_append_iff.mp hahead' with ⟨as, rfl, rfl⟩ | ⟨bs, htld, hrest⟩
  · cases as with
    | nil => simp
    | cons a as =>
        exact absurd (inDomain_of_isAlpha (ht a (by simp))) (hpost a rfl)
  · cases bs with
    | nil =>
        obtain rfl : tld = t := by simpa using htld
        obtain rfl : rest = post := hrest
        rfl
    | cons b bs =>
        have hb : wordOrHyphen db b = true :=
          wordOrHyphen_of_isAlpha (hletters b (by rw [htld]; simp))
        rw [Cursor.skip_ahead, hrest] at hstop'
        simp [hb] at hstop'

/-- Greedy rounds reach the last label before anything else is tried. -/
lemma flatMap_labels {g : Cursor Char → List (Cursor Char)} (hlabels : ∀ l ∈ labels, IsLabel l)
    (hdot : '.' ∉ tld) (hpost : ∀ y ∈ post.head?, ¬ InDomain y) :
    ∀ {n : ℕ} {c d : Cursor Char}, labels.length ≤ n → c.ahead = dotted labels ++ (tld ++ post) →
      (∃ tail, g (c.skip (dotted labels) (tld ++ post)) = d :: tail) →
      ∃ tail, (upToFrom (matchesAt labelDotPattern) n c).flatMap g = d :: tail := by
  induction labels with
  | nil =>
      rintro n c d - hahead ⟨tail, hg⟩
      rw [dotted_nil, List.nil_append] at hahead
      rw [dotted_nil, Cursor.skip_nil hahead] at hg
      cases n with
      | zero => exact ⟨tail, by rw [upToFrom, List.flatMap_singleton, hg]⟩
      | succ n =>
          refine ⟨tail, ?_⟩
          rw [upToFrom, matchesAt_labelDot_tld hdot hpost hahead, List.flatMap_nil,
            List.nil_append, List.flatMap_singleton, hg]
  | cons l labels ih =>
      rintro n c d hn hahead hg
      cases n with
      | zero => simp at hn
      | succ n =>
          rw [dotted_cons, List.append_assoc, List.cons_append] at hahead
          obtain ⟨tail, hround⟩ := matchesAt_labelDot (hlabels l (by simp)) hahead
          have hg' : ∃ tail, g ((c.skip (l ++ ['.']) (dotted labels ++ (tld ++ post))).skip
              (dotted labels) (tld ++ post)) = d :: tail := by
            rw [Cursor.skip_skip, List.append_assoc, List.singleton_append, ← dotted_cons]
            exact hg
          obtain ⟨tail', hrest⟩ := ih (fun l hl => hlabels l (by simp [hl])) (by simpa using hn)
            (Cursor.skip_ahead _ _ _) hg'
          rw [upToFrom, hround, List.flatMap_cons, List.append_assoc, List.flatMap_append, hrest]
          exact ⟨_, rfl⟩

/-- **A domain whose last label is all letters is matched as a whole.** -/
lemma firstAt_domain {c : Cursor Char} (hne : labels ≠ []) (hlabels : ∀ l ∈ labels, IsLabel l)
    (hlen : 2 ≤ tld.length) (hletters : ∀ x ∈ tld, x.isAlpha = true)
    (hpost : ∀ y ∈ post.head?, ¬ InDomain y)
    (hstop : post.head?.any (wordOrHyphen db) = false)
    (hstart : c.behind.head?.any (wordOrHyphen db) = false)
    (hahead : c.ahead = dotted labels ++ (tld ++ post)) :
    firstAt (domainPattern db) c = some (c.skip (dotted labels ++ tld) post) := by
  obtain ⟨l, labels, rfl⟩ := List.exists_cons_of_ne_nil hne
  have hdot := dot_not_mem_of_isAlpha hletters
  have hfull := hahead
  rw [dotted_cons, List.append_assoc, List.cons_append] at hahead
  obtain ⟨tail, hround⟩ := matchesAt_labelDot (hlabels l (by simp)) hahead
  obtain ⟨tail', htld⟩ := matchesAt_tld db (c := (c.skip (l ++ ['.'])
    (dotted labels ++ (tld ++ post))).skip (dotted labels) (tld ++ post)) hlen hletters hpost hstop
    (Cursor.skip_ahead _ _ _)
  have hlong : labels.length ≤ (dotted labels ++ (tld ++ post)).length := by
    have h : ∀ labels : List (List Char), labels.length ≤ (dotted labels).length := by
      intro labels
      induction labels with
      | nil => simp
      | cons l labels ih =>
          simp only [dotted_cons, List.length_append, List.length_cons]
          omega
    rw [List.length_append]
    exact (h labels).trans (Nat.le_add_right _ _)
  obtain ⟨tail'', hstar⟩ := flatMap_labels (fun l hl => hlabels l (by simp [hl])) hdot hpost hlong
    (Cursor.skip_ahead _ _ _) ⟨tail', htld⟩
  have hend : ((c.skip (l ++ ['.']) (dotted labels ++ (tld ++ post))).skip (dotted labels)
      (tld ++ post)).skip tld post = c.skip (dotted (l :: labels) ++ tld) post := by
    rw [Cursor.skip_skip, Cursor.skip_skip, dotted_cons]
    simp
  have hbehind : matchesAt (notBehind (wordOrHyphen db)) c = [c] := by
    rw [matchesAt]
    simp only [hstart, Bool.false_eq_true, if_false]
  have hrounds : (matchesAt (star labelDotPattern) (c.skip (l ++ ['.'])
      (dotted labels ++ (tld ++ post)))).flatMap
        (matchesAt (seq tldPattern (notAhead (wordOrHyphen db)))) = _ := hstar
  have hfirst : (matchesAt (domainPattern db) c).head?
      = some (c.skip (dotted (l :: labels) ++ tld) post) := by
    change ((matchesAt (notBehind (wordOrHyphen db)) c).flatMap fun c =>
      ((matchesAt labelDotPattern c).flatMap (matchesAt (star labelDotPattern))).flatMap
        (matchesAt (seq tldPattern (notAhead (wordOrHyphen db))))).head? = _
    rw [hbehind, List.flatMap_singleton, hround, List.flatMap_cons, List.flatMap_append, hrounds,
      hend]
    rfl
  rw [firstAt, hfirst, Option.filter_some, if_pos]
  rw [Cursor.skip_ahead, hfull, decide_eq_true_eq]
  simp only [List.length_append]
  omega

end Domain

/-! ## Accepted domains -/

section Accepted

variable {domain : List Char}

variable (db) in
lemma inDomain_iff_of_isAscii {c : Char} (hc : c.val < 128) :
    (db.isalnum c = true ∨ c = '-') ↔ alnumOrHyphen c = true := by
  simp [alnumOrHyphen, db.isalnum_ascii c hc]

/-- What the validator accepts as a label the pattern accepts too. -/
lemma isLabel_of_isValidLabel {l : List Char} (hascii : ∀ c ∈ l, c.val < 128)
    (h : isValidLabel db l = true) : IsLabel l := by
  simp only [isValidLabel, Bool.and_eq_true, Bool.not_eq_true', Bool.or_eq_false_iff,
    decide_eq_false_iff_not, List.all_eq_true, Bool.or_eq_true, decide_eq_true_eq, not_lt] at h
  obtain ⟨⟨⟨hne, hlen⟩, hhead, hlast⟩, hall⟩ := h
  have halnum : ∀ c ∈ l, alnumOrHyphen c = true := fun c hc =>
    (inDomain_iff_of_isAscii db (hascii c hc)).mp (hall c hc)
  have hedge : ∀ c ∈ l, c ≠ '-' → c.isAlphanum = true := by
    intro c hc hne
    have h := halnum c hc
    simpa [alnumOrHyphen, hne] using h
  obtain ⟨a, m, rfl⟩ := List.exists_cons_of_ne_nil hne
  have ha := hedge a (by simp) fun h => hhead (by rw [h]; rfl)
  rcases List.eq_nil_or_concat m with rfl | ⟨m, z, rfl⟩
  · exact ⟨a, ha, Or.inl rfl⟩
  · rw [List.concat_eq_append] at *
    refine ⟨a, ha, Or.inr ⟨m, z, rfl, ?_, fun x hx => halnum x (by simp [hx]), ?_⟩⟩
    · simp only [List.length_cons, List.length_append, List.length_nil] at hlen
      omega
    · refine hedge z (by simp) fun h => hlast ?_
      rw [h, ← List.cons_append, List.getLast?_concat]

/-- An accepted domain is labels and a last label behind them. -/
lemma labels_of_isValidDomain (hascii : ∀ c ∈ domain, c.val < 128)
    (h : isValidDomain db domain = true) :
    ∃ labels tld, labels ≠ [] ∧ domain.splitOn '.' = labels ++ [tld] ∧
      (∀ l ∈ labels, IsLabel l) ∧ IsLabel tld ∧ 2 ≤ tld.length := by
  rw [isValidDomain] at h
  dsimp only at h
  split_ifs at h with hlen hdots hfew hlabels
  rw [List.all_eq_true] at hlabels
  rcases List.eq_nil_or_concat (domain.splitOn '.') with hnil | ⟨labels, tld, hsplit⟩
  · exact absurd hnil (List.splitOn_ne_nil _ _)
  · rw [List.concat_eq_append] at hsplit
    have hmem : ∀ l ∈ labels ++ [tld], ∀ c ∈ l, c ∈ domain := by
      intro l hl c hc
      rw [eq_dotted_of_split hsplit]
      rcases List.mem_append.mp hl with hl | hl
      · refine List.mem_append_left _ (List.mem_flatMap.mpr ⟨l, hl, ?_⟩)
        exact List.mem_append_left _ hc
      · exact List.mem_append_right _ (List.mem_singleton.mp hl ▸ hc)
    rw [hsplit] at hlabels hfew h
    have hlabel : ∀ l ∈ labels ++ [tld], IsLabel l := fun l hl =>
      isLabel_of_isValidLabel (fun c hc => hascii c (hmem l hl c hc)) (hlabels l hl)
    refine ⟨labels, tld, ?_, hsplit, fun l hl => hlabel l (by simp [hl]), hlabel tld (by simp), ?_⟩
    · rintro rfl
      simp at hfew
    · have hlast : (labels ++ [tld]).getLastD [] = tld := by simp
      rw [hlast] at h
      simp only [Bool.not_eq_true', Bool.or_eq_false_iff, decide_eq_false_iff_not, not_lt] at h
      exact h.1

/-- A character that delimits a domain in a message. -/
def IsDelimiter (db : CharacterDb) (c : Char) : Prop :=
  db.isalnum c = false ∧ c ≠ '_' ∧ c ≠ '-' ∧ c ≠ '.'

lemma isAscii_of_isAlphanum {c : Char} (h : c.isAlphanum = true) : c.val < 128 := by
  rw [Char.isAlphanum, Bool.or_eq_true] at h
  rcases h with h | h
  · exact isAscii_of_isAlpha h
  · simp only [Char.isDigit, Bool.and_eq_true, decide_eq_true_eq, UInt32.le_iff_toNat_le] at h
    rw [UInt32.lt_iff_toNat_lt]
    exact lt_of_le_of_lt h.2 (by decide)

lemma IsDelimiter.not_inDomain {c : Char} (h : IsDelimiter db c) : ¬ InDomain c := by
  obtain ⟨halnum, -, hhyphen, hdot⟩ := h
  rintro (hc | hc)
  · simp only [alnumOrHyphen, hhyphen, decide_false, Bool.or_false] at hc
    rw [db.isalnum_ascii c (isAscii_of_isAlphanum hc), hc] at halnum
    cases halnum
  · exact hdot hc

lemma any_wordOrHyphen_of_isDelimiter {o : Option Char} (h : ∀ c ∈ o, IsDelimiter db c) :
    o.any (wordOrHyphen db) = false := by
  cases o with
  | none => rfl
  | some c =>
      obtain ⟨halnum, hscore, hhyphen, -⟩ := h c rfl
      simp [wordOrHyphen, halnum, hscore, hhyphen]

/-- In `out` every label but the last of the domain that stands at `start` has its last
`ceil(length / 2)` characters replaced by stars. -/
def Starred (start : ℕ) (domain out : List Char) : Prop :=
  ∀ before label behind, domain.splitOn '.' = before ++ label :: behind → behind ≠ [] →
    (out.drop (start + (dotted before).length + label.length / 2)).take
        (label.length - label.length / 2)
      = List.replicate (label.length - label.length / 2) '*'

/-- A lower-case letter is not a dot. -/
lemma toLower_ne_dot {c : Char} (h : c.isAlpha = true) : c.toLower ≠ '.' := by
  have hlt : c.toNat < 128 := by
    have h := isAscii_of_isAlpha h
    rwa [UInt32.lt_iff_toNat_lt] at h
  have hall : ∀ n < 128, (Char.ofNat n).isAlpha = true → (Char.ofNat n).toLower ≠ '.' := by decide
  have hc := hall c.toNat hlt
  rw [Char.ofNat_toNat] at hc
  exact hc h

variable (db) (pre domain post : List Char)

/-- **Where the last label is all letters, the domain is censored.** -/
lemma starred_of_letters (hpre : ∀ c ∈ pre.getLast?, IsDelimiter db c)
    (hpost : ∀ c ∈ post.head?, IsDelimiter db c) (hascii : ∀ c ∈ domain, c.val < 128)
    (hvalid : isValidDomain db domain = true)
    (hexempt : isExempt (domain.map Char.toLower) = false)
    (hletters : ∀ c ∈ (domain.splitOn '.').getLastD [], c.isAlpha = true) :
    Starred pre.length domain (censorFilter db (pre ++ domain ++ post)) := by
  obtain ⟨labels, tld, hne, hsplit, hlabels, -, hlen⟩ := labels_of_isValidDomain hascii hvalid
  have hdomain := eq_dotted_of_split hsplit
  rw [hsplit, List.getLastD_concat] at hletters
  -- the scan arrives at the domain
  obtain ⟨out, hout, hscan⟩ := sub_append db
    (fun y hy => (hpre y hy).not_inDomain) ⟨[], pre ++ (domain ++ post)⟩ rfl
  -- and takes it as a whole
  have hstart : (Cursor.skip ⟨[], pre ++ (domain ++ post)⟩ pre (domain ++ post)).behind.head?.any
      (wordOrHyphen db) = false := by
    refine any_wordOrHyphen_of_isDelimiter fun c hc => hpre c ?_
    simpa [Cursor.skip] using hc
  have hfirst := firstAt_domain
    (c := Cursor.skip ⟨[], pre ++ (domain ++ post)⟩ pre (domain ++ post)) hne hlabels hlen
    hletters (fun y hy => (hpost y hy).not_inDomain)
    (any_wordOrHyphen_of_isDelimiter hpost) hstart (by rw [Cursor.skip_ahead, hdomain]; simp)
  rw [← hdomain] at hfirst
  -- no dot stands at the end, so the check for exempt domains sees the domain itself
  have hnormal : (domain.map Char.toLower).rdropWhile (· = '.') = domain.map Char.toLower := by
    obtain ⟨t, z, rfl⟩ : ∃ t z, tld = t ++ [z] :=
      ⟨_, _, (List.dropLast_append_getLast (List.length_pos_iff.mp (by omega))).symm⟩
    have hz := toLower_ne_dot (hletters z (by simp))
    rw [hdomain, ← List.append_assoc, List.map_append, List.map_singleton]
    exact List.rdropWhile_concat_neg _ _ _ (by simpa using hz)
  have hcensor : censorMatch domain = dotted (labels.map censorPart) ++ tld := by
    rw [censorMatch_of_split hne hsplit, hnormal, hexempt]
    simp
  intro before label behind hparts hbehind
  obtain ⟨behind, tld', rfl⟩ : ∃ t z, behind = t ++ [z] :=
    ⟨_, _, (List.dropLast_append_getLast hbehind).symm⟩
  have hlabelsEq : labels = before ++ label :: behind := by
    have hcat : labels ++ [tld] = (before ++ label :: behind) ++ [tld'] := by
      rw [← hsplit, hparts]
      simp
    exact (List.append_inj' hcat rfl).1
  have hresult : censorFilter db (pre ++ domain ++ post)
      = (out ++ dotted (before.map censorPart) ++ label.take (label.length / 2)) ++
        (List.replicate (label.length - label.length / 2) '*' ++
          ('.' :: dotted (behind.map censorPart) ++ tld ++
            sub (domainPattern db) censorMatch ((Cursor.skip ⟨[], pre ++ (domain ++ post)⟩ pre
              (domain ++ post)).skip domain post))) := by
    rw [censorFilter, List.append_assoc pre, hscan, sub_of_some hfirst,
      between_skip (Cursor.skip_ahead _ _ _), hcensor, hlabelsEq, List.map_append, List.map_cons,
      dotted_append, dotted_cons, censorPart]
    simp
  have hoffset : (out ++ dotted (before.map censorPart) ++ label.take (label.length / 2)).length
      = pre.length + (dotted before).length + label.length / 2 := by
    simp only [List.length_append, hout, length_dotted_censorPart, List.length_take]
    omega
  rw [hresult, List.drop_left' hoffset, List.take_left' List.length_replicate]

/-- **Where the last label is not all letters, the domain is not censored.** -/
lemma not_starred_of_not_letters (hpost : ∀ c ∈ post.head?, IsDelimiter db c)
    (hascii : ∀ c ∈ domain, c.val < 128) (hvalid : isValidDomain db domain = true)
    (hnot : ¬ ∀ c ∈ (domain.splitOn '.').getLastD [], c.isAlpha = true) :
    ¬ Starred pre.length domain (censorFilter db (pre ++ domain ++ post)) := by
  intro hstarred
  obtain ⟨labels, tld, hne, hsplit, hlabels, htld, -⟩ := labels_of_isValidDomain hascii hvalid
  have hdomain := eq_dotted_of_split hsplit
  rw [hsplit, List.getLastD_concat] at hnot
  -- the label before the last one, down to its last character
  obtain ⟨before, label, rfl⟩ : ∃ t z, labels = t ++ [z] :=
    ⟨_, _, (List.dropLast_append_getLast hne).symm⟩
  obtain ⟨s, z, rfl, hz⟩ := (hlabels label (by simp)).eq_append
  have hword : ∀ y ∈ tld, wordOrHyphen db y = true := by
    intro y hy
    have hyAscii : y.val < 128 := hascii y (by rw [hdomain]; exact List.mem_append_right _ hy)
    rcases (inDomain_iff_of_isAscii db hyAscii).mpr (htld.alnumOrHyphen y hy) with h | h
    · simp [wordOrHyphen, h]
    · simp [wordOrHyphen, h]
  obtain ⟨out, behind, hout, hkept⟩ := sub_keeps (x := z) htld.dot_not_mem hword hnot
    (fun y hy => (hpost y hy).not_inDomain) (pre ++ dotted before ++ s)
    ⟨[], pre ++ domain ++ post⟩ (by rw [hdomain, dotted_append]; simp [dotted])
  have hstars := hstarred before (s ++ [z]) [tld] (by rw [hsplit]; simp) (by simp)
  rw [censorFilter, hkept] at hstars
  -- its place in the output is that of the last star
  have hlast := congrArg (fun l => l[s.length - (s.length + 1) / 2]?) hstars
  simp only [List.length_append, List.length_cons, List.length_nil] at hlast hout
  rw [List.getElem?_take_of_lt (by omega), List.getElem?_drop,
    List.getElem?_replicate_of_lt (by omega)] at hlast
  have hplace : pre.length + (dotted before).length + (s.length + (0 + 1)) / 2
      + (s.length - (s.length + 1) / 2) = out.length := by omega
  rw [hplace, List.getElem?_append_right (le_refl _), Nat.sub_self,
    List.getElem?_cons_zero] at hlast
  obtain rfl : z = '*' := Option.some.inj hlast
  revert hz
  decide

/-- **An accepted domain is censored exactly when its last label consists of letters.**  In every
message, at every occurrence of an ASCII domain that the validator accepts and that is not exempt,
between delimiters. -/
theorem accepted_domain_censored_iff (hpre : ∀ c ∈ pre.getLast?, IsDelimiter db c)
    (hpost : ∀ c ∈ post.head?, IsDelimiter db c) (hascii : ∀ c ∈ domain, c.val < 128)
    (hvalid : isValidDomain db domain = true)
    (hexempt : isExempt (domain.map Char.toLower) = false) :
    Starred pre.length domain (censorFilter db (pre ++ domain ++ post)) ↔
      ∀ c ∈ (domain.splitOn '.').getLastD [], c.isAlpha = true := by
  constructor
  · intro hstarred
    by_contra hnot
    exact not_starred_of_not_letters db pre domain post hpost hascii hvalid hnot hstarred
  · exact starred_of_letters db pre domain post hpre hpost hascii hvalid hexempt

/-- A character database that knows the letters and digits of ASCII only. -/
def asciiDb : CharacterDb := ⟨Char.isAlphanum, Char.isAlpha, fun _ _ => rfl, fun _ _ => rfl⟩

lemma isDelimiter_space : IsDelimiter asciiDb ' ' := ⟨by decide, by decide, by decide, by decide⟩

lemma isDelimiter_colon : IsDelimiter asciiDb ':' := ⟨by decide, by decide, by decide, by decide⟩

lemma isAscii_of_all {s : List Char} (h : s.all (·.val < 128) = true) : ∀ c ∈ s, c.val < 128 := by
  intro c hc
  exact of_decide_eq_true (List.all_eq_true.mp h c hc)

/-- `via k1.ab.co: ok`. -/
theorem accepted_domain_censored_iff_sample :
    Starred 4 ['k', '1', '.', 'a', 'b', '.', 'c', 'o'] (censorFilter asciiDb
      (['v', 'i', 'a', ' '] ++ ['k', '1', '.', 'a', 'b', '.', 'c', 'o'] ++ [':', ' ', 'o', 'k'])) :=
  (accepted_domain_censored_iff asciiDb ['v', 'i', 'a', ' '] _ [':', ' ', 'o', 'k']
    (by rintro c ⟨rfl⟩; exact isDelimiter_space) (by rintro c ⟨rfl⟩; exact isDelimiter_colon)
    (isAscii_of_all (by decide)) (by decide) (by decide)).mpr
    (List.all_eq_true.mp (by decide))

/-- **A label printed in full.**  `k1.ab.xn--p1ai` is accepted, and the log has `k*.ab.xn--p1ai`:
the label `ab` stays. -/
theorem punycode_domain_uncensored :
    isValidDomain asciiDb ['k', '1', '.', 'a', 'b', '.', 'x', 'n', '-', '-', 'p', '1', 'a', 'i'] ∧
    isExempt (['k', '1', '.', 'a', 'b', '.', 'x', 'n', '-', '-', 'p', '1', 'a', 'i'].map
      Char.toLower) = false ∧
    ¬ Starred 4 ['k', '1', '.', 'a', 'b', '.', 'x', 'n', '-', '-', 'p', '1', 'a', 'i']
      (censorFilter asciiDb (['v', 'i', 'a', ' '] ++
        ['k', '1', '.', 'a', 'b', '.', 'x', 'n', '-', '-', 'p', '1', 'a', 'i'] ++ [':'])) := by
  refine ⟨by decide, by decide, not_starred_of_not_letters asciiDb ['v', 'i', 'a', ' '] _ [':']
    ?_ (isAscii_of_all (by decide)) (by decide) ?_⟩
  · rintro c ⟨rfl⟩
    exact isDelimiter_colon
  · intro hletters
    exact absurd (List.all_eq_true.mpr hletters) (by decide)

end Accepted

end TgWsProxy
