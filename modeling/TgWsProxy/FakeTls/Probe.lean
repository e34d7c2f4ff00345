import TgWsProxy.FakeTls.ServerHello

/-!
# The site probe

The reading loop of `probe_appdata_len` of `proxy/fake_tls.py`, which walks the records of a
server's first flight anew on every chunk that comes in.

* `FlightTurn`, `readFlight`, `probeAppdataLen` — the code, against what the clock and the reader
  give.
* `Opening` — the records a flight opens with, and the profile they make.
* `Arrives` — a flight in chunks, with time enough for each.
* **`walkFlight_stable`** — what the walk found stays found, wherever the flight was cut.
* **`probe_independent_of_chunks`** — every way a flight arrives gives the profile of the flight.
-/

namespace TgWsProxy

open Wire

/-! ## The code -/

/-- What `wait_for(reader.read(16384), timeout=remaining)` comes to. -/
inductive FlightRead where
  /-- octets, none at the end of the stream -/
  | chunk (octets : Bytes)
  /-- the time is over, or the connection breaks -/
  | raised
  deriving DecidableEq, Repr

/-- One turn of the loop: the clock when it starts, and the read. -/
structure FlightTurn where
  now : ℤ
  read : FlightRead
  deriving DecidableEq, Repr

/-- `length or None`. -/
def lengthOrNone (length : ℕ) : Option ℕ := if length = 0 then none else some length

/-- The loop of `probe_appdata_len` with `flight` read so far and what it returns; `none` while it
still reads. -/
def readFlight (deadline : ℤ) : Bytes → List FlightTurn → Option (Option ℕ)
  | _, [] => none
  | flight, turn :: turns =>
      -- every exception ends in `except Exception`, which returns no profile
      if deadline - turn.now ≤ 0 then some none
      else
        match turn.read with
        | .raised => some none
        | .chunk [] => some none
        | .chunk (b :: chunk) =>
            let flight := flight ++ b :: chunk
            match firstAppdataRecordLen flight with
            | some length => some (lengthOrNone length)
            | none => readFlight deadline flight turns

/-- `probe_appdata_len(domain, port, timeout)`, where `connected` says whether everything before
the loop went without an exception. -/
def probeAppdataLen (hasTls13 connected : Bool) (deadline : ℤ) (turns : List FlightTurn) :
    Option (Option ℕ) :=
  if ¬ hasTls13 then some none
  else if ¬ connected then some none
  else readFlight deadline [] turns

/-! ## What a flight opens with -/

/-- A record that the walk steps over. -/
def QuietType (type : UInt8) : Prop := type = tlsRecordHandshake ∨ type = tlsRecordCcs

instance (type : UInt8) : Decidable (QuietType type) :=
  inferInstanceAs (Decidable (type = tlsRecordHandshake ∨ type = tlsRecordCcs))

/-- The header of a record, whatever version it names. -/
def recordHeader (type v₁ v₂ : UInt8) (length : ℕ) : Bytes := type :: v₁ :: v₂ :: beBytes 2 length

/-- `Opening flight profile`: complete handshake and CCS records, and then the one that settles
the profile, or the end of the flight. -/
inductive Opening : Bytes → Option ℕ → Prop
  /-- an ApplicationData record, of which only the header has to be there -/
  | appdata (v₁ v₂ : UInt8) {length : ℕ} (rest : Bytes) : 0 < length → length < 256 ^ 2 →
      Opening (recordHeader tlsRecordAppdata v₁ v₂ length ++ rest) (some length)
  /-- an empty ApplicationData record -/
  | empty (v₁ v₂ : UInt8) (rest : Bytes) :
      Opening (recordHeader tlsRecordAppdata v₁ v₂ 0 ++ rest) none
  /-- a record of another type -/
  | foreign {type : UInt8} (v₁ v₂ : UInt8) {length : ℕ} (rest : Bytes) :
      type ≠ tlsRecordAppdata → ¬ QuietType type → length < 256 ^ 2 →
      Opening (recordHeader type v₁ v₂ length ++ rest) none
  /-- the flight ends before a header does -/
  | short {flight : Bytes} : flight.length < 5 → Opening flight none
  /-- the flight ends before a record does -/
  | cut {type : UInt8} (v₁ v₂ : UInt8) {length : ℕ} {body : Bytes} : QuietType type →
      length < 256 ^ 2 → body.length < length →
      Opening (recordHeader type v₁ v₂ length ++ body) none
  | quiet {type : UInt8} (v₁ v₂ : UInt8) {payload rest : Bytes} {profile : Option ℕ} :
      QuietType type → payload.length < 256 ^ 2 → Opening rest profile →
      Opening (recordHeader type v₁ v₂ payload.length ++ payload ++ rest) profile

/-! ## The walk -/

/-- The walk at a header, whatever follows it. -/
lemma walkFlight_header (type v₁ v₂ : UInt8) {length : ℕ} (rest : Bytes) (h : length < 256 ^ 2) :
    walkFlight (recordHeader type v₁ v₂ length ++ rest) =
      if type = tlsRecordAppdata then some length
      else if QuietType type then walkFlight (rest.drop length)
      else some 0 := by
  have hheader : (recordHeader type v₁ v₂ length).length = 5 := by
    simp only [recordHeader, List.length_cons, length_beBytes]
  have hroom : 5 ≤ (recordHeader type v₁ v₂ length ++ rest).length := by
    rw [List.length_append, hheader]
    omega
  have hlen : beNat (slice (recordHeader type v₁ v₂ length ++ rest) 3 5) = length := by
    have hright := slice_append_right [type, v₁, v₂] (beBytes 2 length) 0 2
    rw [slice_append_left _ hheader.ge]
    refine (congrArg beNat (hright.trans ?_)).trans (beNat_beBytes_of_lt h)
    rw [slice, List.drop_zero, List.take_of_length_le (length_beBytes 2 length).le]
  have hdrop : (recordHeader type v₁ v₂ length ++ rest).drop (5 + length) = rest.drop length := by
    rw [← hheader, List.drop_length_add_append]
  rw [walkFlight, if_pos hroom]
  dsimp only
  rw [hlen, hdrop, ite_not]
  rfl

lemma walkFlight_of_short {flight : Bytes} (h : flight.length < 5) : walkFlight flight = none := by
  rw [walkFlight, if_neg (by omega)]

/-- Five octets are a header. -/
lemma exists_header {flight : Bytes} (h : 5 ≤ flight.length) :
    ∃ type v₁ v₂ length rest, length < 256 ^ 2 ∧
      flight = recordHeader type v₁ v₂ length ++ rest := by
  match flight, h with
  | type :: v₁ :: v₂ :: a :: b :: rest, _ =>
      refine ⟨type, v₁, v₂, beNat [a, b], rest, beNat_lt [a, b], ?_⟩
      have hoctets : beBytes 2 (beNat [a, b]) = [a, b] := beBytes_beNat [a, b]
      rw [recordHeader, hoctets]
      rfl

/-- **What the walk found stays found.**  The walk on the longer flight makes the same jumps; one
that points past the shorter flight would have found nothing there. -/
theorem walkFlight_stable (flight more : Bytes) {length : ℕ} (h : walkFlight flight = some length) :
    walkFlight (flight ++ more) = some length := by
  induction hn : flight.length using Nat.strongRecOn generalizing flight with
  | _ n ih =>
      by_cases hroom : flight.length < 5
      · rw [walkFlight_of_short hroom] at h
        cases h
      · obtain ⟨type, v₁, v₂, recLen, rest, hlt, rfl⟩ := exists_header (not_lt.mp hroom)
        rw [walkFlight_header _ _ _ _ hlt] at h
        rw [List.append_assoc, walkFlight_header _ _ _ _ hlt]
        split_ifs at h ⊢ with happ hquiet
        · exact h
        · have hinside : recLen ≤ rest.length := by
            by_contra hpast
            rw [List.drop_eq_nil_of_le (not_le.mp hpast).le, walkFlight_of_short (by decide)] at h
            cases h
          rw [List.drop_append_of_le_length hinside]
          refine ih _ ?_ _ h rfl
          rw [List.length_drop, ← hn, List.length_append, recordHeader]
          simp only [List.length_cons, length_beBytes]
          omega
        · exact h

/-- The profile that a walk makes. -/
def profileOf (found : Option ℕ) : Option ℕ := found.bind lengthOrNone

lemma profileOf_some (length : ℕ) : profileOf (some length) = lengthOrNone length := rfl

/-- An opening is what the walk finds. -/
lemma Opening.eq_profileOf {flight : Bytes} {profile : Option ℕ} (h : Opening flight profile) :
    profile = profileOf (walkFlight flight) := by
  induction h with
  | appdata v₁ v₂ rest hpos hlt =>
      rw [walkFlight_header _ _ _ _ hlt, if_pos rfl, profileOf_some, lengthOrNone, if_neg hpos.ne']
  | empty v₁ v₂ rest =>
      rw [walkFlight_header _ _ _ _ (by decide), if_pos rfl]
      rfl
  | foreign v₁ v₂ rest happ hquiet hlt =>
      rw [walkFlight_header _ _ _ _ hlt, if_neg happ, if_neg hquiet]
      rfl
  | short hshort =>
      rw [walkFlight_of_short hshort]
      rfl
  | cut v₁ v₂ hquiet hlt hbody =>
      rw [walkFlight_header _ _ _ _ hlt, if_neg, if_pos hquiet,
        List.drop_eq_nil_of_le hbody.le, walkFlight_of_short (by decide)]
      · rfl
      · rintro rfl
        exact absurd hquiet (by decide)
  | quiet v₁ v₂ hquiet hlt _ ih =>
      rw [List.append_assoc, walkFlight_header _ _ _ _ hlt, if_neg, if_pos hquiet,
        List.drop_left, ih]
      rintro rfl
      exact absurd hquiet (by decide)

/-- Every flight opens with something: by the length of what the walk has still before it. -/
lemma opening_profileOf (flight : Bytes) : Opening flight (profileOf (walkFlight flight)) := by
  induction hn : flight.length using Nat.strongRecOn generalizing flight with
  | _ n ih =>
      by_cases hroom : flight.length < 5
      · rw [walkFlight_of_short hroom]
        exact .short hroom
      · obtain ⟨type, v₁, v₂, recLen, rest, hlt, rfl⟩ := exists_header (not_lt.mp hroom)
        rw [walkFlight_header _ _ _ _ hlt]
        split_ifs with happ hquiet
        · subst happ
          rw [profileOf_some, lengthOrNone]
          split_ifs with hzero
          · subst hzero
            exact .empty v₁ v₂ rest
          · exact .appdata v₁ v₂ rest (Nat.pos_of_ne_zero hzero) hlt
        · by_cases hbody : rest.length < recLen
          · rw [List.drop_eq_nil_of_le hbody.le, walkFlight_of_short (by decide)]
            exact .cut v₁ v₂ hquiet hlt hbody
          · have hpayload : (rest.take recLen).length = recLen :=
              List.length_take_of_le (not_lt.mp hbody)
            have hrest := ih (rest.drop recLen).length (by
              rw [List.length_drop, ← hn, List.length_append, recordHeader]
              simp only [List.length_cons, length_beBytes]
              omega) (rest.drop recLen) rfl
            have hstep := Opening.quiet v₁ v₂ hquiet (hpayload.trans_lt hlt) hrest
            rwa [hpayload, List.append_assoc, List.take_append_drop] at hstep
        · exact .foreign v₁ v₂ rest happ hquiet hlt

/-! ## The loop -/

/-- `Arrives deadline flight turns`: the reader gives the flight in chunks, each turn of the loop
starts before the deadline, and after the last chunk comes the end of the stream, an exception or
the deadline. -/
inductive Arrives (deadline : ℤ) : Bytes → List FlightTurn → Prop
  | ended {last : FlightTurn} (turns : List FlightTurn) :
      deadline ≤ last.now ∨ last.read = .raised ∨ last.read = .chunk [] →
      Arrives deadline [] (last :: turns)
  | chunk {now : ℤ} {octets flight : Bytes} {turns : List FlightTurn} :
      now < deadline → octets ≠ [] →
      Arrives deadline flight turns →
      Arrives deadline (octets ++ flight) (⟨now, .chunk octets⟩ :: turns)

/-- **The loop gives the profile of the whole.**  What has been read so far settles nothing yet;
once it does, the rest of the flight could not settle it otherwise. -/
lemma readFlight_of_arrives {deadline : ℤ} {flight : Bytes} {turns : List FlightTurn}
    (h : Arrives deadline flight turns) (seen : Bytes) (hseen : walkFlight seen = none) :
    readFlight deadline seen turns = some (profileOf (walkFlight (seen ++ flight))) := by
  induction h generalizing seen with
  | @ended last turns hend =>
      rw [List.append_nil, hseen, readFlight]
      split_ifs with hlate
      · rfl
      · rcases hend with hdeadline | hraised | heof
        · exact absurd (by omega) hlate
        · rw [hraised]
          rfl
        · rw [heof]
          rfl
  | @chunk now octets flight turns hnow hne _ ih =>
      have hearly : ¬ deadline - now ≤ 0 := by omega
      obtain ⟨b, octets, rfl⟩ := List.exists_cons_of_ne_nil hne
      rw [readFlight, if_neg hearly, ← List.append_assoc]
      dsimp only
      rw [firstAppdataRecordLen_eq]
      cases hwalk : walkFlight (seen ++ b :: octets) with
      | none => exact ih _ hwalk
      | some length =>
          rw [walkFlight_stable _ flight hwalk]
          rfl

/-- **The site probe does not depend on how the flight is cut.**  What
`first_appdata_record_len` returns for a prefix it returns for the whole; so every flight has one
profile, by the records that it opens with, and every way it arrives gives that one. -/
theorem probe_independent_of_chunks :
    (∀ (d e : Bytes) (length : ℕ), firstAppdataRecordLen d = some length →
      firstAppdataRecordLen (d ++ e) = some length) ∧
    ∀ flight : Bytes, ∃ profile : Option ℕ,
      (∀ profile', Opening flight profile' ↔ profile' = profile) ∧
      ∀ (deadline : ℤ) (turns : List FlightTurn), Arrives deadline flight turns →
        probeAppdataLen true true deadline turns = some profile := by
  refine ⟨?_, fun flight => ⟨profileOf (walkFlight flight), ?_, ?_⟩⟩
  · intro d e length h
    rw [firstAppdataRecordLen_eq] at h ⊢
    exact walkFlight_stable d e h
  · intro profile
    constructor
    · intro h
      exact h.eq_profileOf
    · rintro rfl
      exact opening_profileOf flight
  · intro deadline turns h
    have hloop := readFlight_of_arrives h [] (walkFlight_of_short (by decide))
    rwa [List.nil_append] at hloop

/-- A handshake record and the header of an ApplicationData record of 64 octets, cut inside both
headers. -/
theorem probe_independent_of_chunks_sample :
    firstAppdataRecordLen ([0x17, 0x03, 0x03, 0x00, 0x40] ++ [0x2a]) = some 64 ∧
    probeAppdataLen true true 10
      [⟨0, .chunk [0x16, 0x03]⟩, ⟨1, .chunk [0x03, 0x00, 0x01, 0x02, 0x17]⟩,
        ⟨2, .chunk [0x03, 0x03, 0x00, 0x40]⟩, ⟨3, .raised⟩] = some (some 64) := by
  refine ⟨probe_independent_of_chunks.1 _ _ 64 ?_, ?_⟩
  · rw [firstAppdataRecordLen_eq]
    exact walkFlight_header 0x17 0x03 0x03 [] (show 64 < 256 ^ 2 by decide)
  · obtain ⟨profile, hopening, hprobe⟩ := probe_independent_of_chunks.2
      ([0x16, 0x03] ++ ([0x03, 0x00, 0x01, 0x02, 0x17] ++ ([0x03, 0x03, 0x00, 0x40] ++ [])))
    have hprofile : some 64 = profile := (hopening (some 64)).mp <|
      .quiet 0x03 0x03 (.inl rfl) (show [(0x02 : UInt8)].length < 256 ^ 2 by decide)
        (.appdata 0x03 0x03 [] (by decide) (show 64 < 256 ^ 2 by decide))
    rw [hprofile]
    exact hprobe 10 _ (.chunk (by decide) (by decide) (.chunk (by decide) (by decide)
      (.chunk (by decide) (by decide) (.ended [] (.inr (.inl rfl))))))

end TgWsProxy
