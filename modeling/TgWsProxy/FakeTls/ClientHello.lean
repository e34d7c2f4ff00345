import TgWsProxy.Core.Fields
import TgWsProxy.Core.Dict

/-!
# Reading a ClientHello

`parse_client_hello` of `proxy/fake_tls.py` walks six variable-length fields with one running
position, and two nested loops by lengths the client declares.

* `sharesLoop`, `extensionsLoop`, `parseClientHello` — the code.
* `walkShares`, `walkExtensions`, `walkHello` — the same walks with what is left in hand instead of
  a position; `parseClientHello_eq` says the code computes them, and so never raises.
* `ClientHello` — the hellos of the protocol, by construction within their length fields.
* **`parseClientHello_octets`** — of any of them the code finds the suites and the shares.
* `Malformed` — a declared length runs past what contains it; **`malformed_yields_empty_iff`** says
  when the code returns the empty info then.
-/

namespace TgWsProxy

open Wire

/-! ## The code -/

/-- `CLIENT_RANDOM_LEN`. -/
def clientRandomLen : ℕ := 32

/-- `EXT_KEY_SHARE`. -/
def extKeyShare : ℕ := 0x0033

/-- `ClientHelloInfo`. -/
structure ClientHelloInfo where
  cipherSuites : Finset ℕ
  /-- named group -> key_exchange length -/
  keyShares : Dict ℕ ℕ

/-- `_EMPTY_HELLO_INFO`. -/
def emptyHelloInfo : ClientHelloInfo := ⟨∅, Dict.empty⟩

/-- What indexing and unpacking raise. -/
inductive UnpackError where
  | indexError
  | structError
  deriving DecidableEq, Repr

/-- `data[pos]`. -/
def byteAt (data : Bytes) (pos : ℕ) : Except UnpackError ℕ :=
  match data[pos]? with
  | some b => .ok b.toNat
  | none => .error .indexError

/-- `struct.unpack_from('>H', data, pos)[0]`. -/
def unpackH (data : Bytes) (pos : ℕ) : Except UnpackError ℕ :=
  if pos + 2 ≤ data.length then .ok (beNat (slice data pos (pos + 2))) else .error .structError

/-- `struct.unpack_from('>HH', data, pos)`. -/
def unpackHH (data : Bytes) (pos : ℕ) : Except UnpackError (ℕ × ℕ) :=
  if pos + 4 ≤ data.length then
    .ok (beNat (slice data pos (pos + 2)), beNat (slice data (pos + 2) (pos + 4)))
  else .error .structError

/-- `range(start, stop, step)`. -/
def pyRange (start stop step : ℕ) : List ℕ :=
  (List.range ((stop - start + (step - 1)) / step)).map fun i => start + step * i

/-- The inner loop of `parse_client_hello`, over the shares of one key_share extension. -/
def sharesLoop (data : Bytes) (sharesEnd off : ℕ) (keyShares : Dict ℕ ℕ) :
    Except UnpackError (Dict ℕ ℕ) :=
  if off + 4 ≤ sharesEnd then do
    let (group, keyLen) ← unpackHH data off
    sharesLoop data sharesEnd (off + (4 + keyLen))
      (if off + (4 + keyLen) ≤ sharesEnd then keyShares.setdefault group keyLen else keyShares)
  else .ok keyShares
termination_by sharesEnd - off

/-- The outer loop of `parse_client_hello`, over the extensions. -/
def extensionsLoop (data : Bytes) (extEnd pos : ℕ) (keyShares : Dict ℕ ℕ) :
    Except UnpackError (Dict ℕ ℕ) :=
  if pos + 4 ≤ extEnd then do
    let (extType, extLen) ← unpackHH data pos
    let keyShares ←
      if extType = extKeyShare ∧ pos + 4 + 2 ≤ extEnd then do
        let listLen ← unpackH data (pos + 4)
        sharesLoop data (min (pos + 4 + 2 + listLen) extEnd) (pos + 4 + 2) keyShares
      else pure keyShares
    extensionsLoop data extEnd (pos + 4 + extLen) keyShares
  else .ok keyShares
termination_by extEnd - pos

/-- The body of the `try` in `parse_client_hello`. -/
def parseClientHelloBody (data : Bytes) : Except UnpackError ClientHelloInfo := do
  let pos := 5 + 4 + 2 + clientRandomLen
  let pos := pos + (1 + (← byteAt data pos))
  let suitesLen ← unpackH data pos
  let pos := pos + 2
  let suitesEnd := pos + suitesLen
  if data.length < suitesEnd then
    return emptyHelloInfo
  else
    let suites ← (pyRange pos (suitesEnd - 1) 2).mapM (unpackH data)
    let pos := suitesEnd
    let pos := pos + (1 + (← byteAt data pos))
    let extTotal ← unpackH data pos
    let pos := pos + 2
    let extEnd := min (pos + extTotal) data.length
    let keyShares ← extensionsLoop data extEnd pos Dict.empty
    return ⟨suites.toFinset, keyShares⟩

/-- `parse_client_hello(data)`. -/
def parseClientHello (data : Bytes) : Except UnpackError ClientHelloInfo :=
  match parseClientHelloBody data with
  | .error .indexError => .ok emptyHelloInfo
  | .error .structError => .ok emptyHelloInfo
  | .ok info => .ok info

/-! ## The walk without positions -/

/-- The shares in `bs`: every one that is whole, up to the first that is not. -/
def walkShares (bs : Bytes) (keyShares : Dict ℕ ℕ) : Dict ℕ ℕ :=
  match _h : readVec 2 (bs.drop 2) with
  | some (key, rest) => walkShares rest (keyShares.setdefault (beNat (bs.take 2)) key.length)
  | none => keyShares
termination_by bs.length
decreasing_by
  have hlen := length_of_readVec _h
  rw [List.length_drop] at hlen
  omega

/-- The key shares of the extensions in `bs`.  The list of a key_share extension is taken from all
that follows the header, not from the extension alone. -/
def walkExtensions (bs : Bytes) (keyShares : Dict ℕ ℕ) : Dict ℕ ℕ :=
  if 4 ≤ bs.length then
    let rest := bs.drop 4
    walkExtensions (rest.drop (beNat ((bs.drop 2).take 2)))
      (if beNat (bs.take 2) = extKeyShare ∧ 2 ≤ rest.length then
        walkShares ((rest.drop 2).take (beNat (rest.take 2))) keyShares
      else keyShares)
  else keyShares
termination_by bs.length
decreasing_by simp; omega

/-- The suites and the block of extensions of a hello, from the session id on; `none` where the
code gives up.  The block is cut off where the data ends. -/
def walkHello (bs : Bytes) : Option (List ℕ × Bytes) := do
  let (_, bs) ← readVec 1 bs
  let (suites, bs) ← readVec 2 bs
  let (_, bs) ← readVec 1 bs
  if 2 ≤ bs.length then some (u16s suites, (bs.drop 2).take (beNat (bs.take 2))) else none

/-- The info for the suites and the block of a hello. -/
def walkedInfo : Option (List ℕ × Bytes) → ClientHelloInfo
  | none => emptyHelloInfo
  | some (suites, block) => ⟨suites.toFinset, walkExtensions block Dict.empty⟩

/-! ### The loops -/

section Loops

variable {data : Bytes}

lemma walkShares_of_some {bs key rest : Bytes} (keyShares : Dict ℕ ℕ)
    (h : readVec 2 (bs.drop 2) = some (key, rest)) :
    walkShares bs keyShares
      = walkShares rest (keyShares.setdefault (beNat (bs.take 2)) key.length) := by
  rw [walkShares]
  split
  · rename_i key' rest' h'
    rw [h] at h'
    obtain ⟨rfl, rfl⟩ := Prod.mk.inj (Option.some.inj h')
    rfl
  · rename_i h'
    rw [h] at h'
    cases h'

lemma walkShares_of_none {bs : Bytes} (keyShares : Dict ℕ ℕ) (h : readVec 2 (bs.drop 2) = none) :
    walkShares bs keyShares = keyShares := by
  rw [walkShares]
  split
  · rename_i h'
    rw [h] at h'
    cases h'
  · rfl

/-- The two numbers at a position are those at the front of what follows it. -/
lemma unpackHH_slice {pos stop : ℕ} (hpos : pos + 4 ≤ stop) (hstop : stop ≤ data.length) :
    unpackHH data pos = .ok (beNat ((slice data pos stop).take 2),
      beNat (((slice data pos stop).drop 2).take 2)) := by
  rw [unpackHH, if_pos (by omega), take_slice, drop_slice, take_slice, Nat.min_eq_left (by omega),
    Nat.min_eq_left (by omega)]

lemma unpackH_slice {pos stop : ℕ} (hpos : pos + 2 ≤ stop) (hstop : stop ≤ data.length) :
    unpackH data pos = .ok (beNat ((slice data pos stop).take 2)) := by
  rw [unpackH, if_pos (by omega), take_slice, Nat.min_eq_left (by omega)]

/-- **The inner loop is the walk over the shares.** -/
lemma sharesLoop_eq {sharesEnd : ℕ} (hend : sharesEnd ≤ data.length) (off : ℕ)
    (keyShares : Dict ℕ ℕ) :
    sharesLoop data sharesEnd off keyShares
      = .ok (walkShares (slice data off sharesEnd) keyShares) := by
  induction hn : sharesEnd - off using Nat.strongRecOn generalizing off keyShares with
  | _ n ih =>
      rw [sharesLoop]
      have hlen : (slice data off sharesEnd).length = sharesEnd - off := by
        rw [length_slice, Nat.min_eq_left hend]
      split_ifs with hoff
      · rw [unpackHH_slice hoff hend]
        generalize hkey : beNat (((slice data off sharesEnd).drop 2).take 2) = keyLen
        simp only [bind, Except.bind]
        rw [ih _ (by omega) _ _ rfl]
        split_ifs with hfit
        · have hroom : 2 + beNat (((slice data off sharesEnd).drop 2).take 2)
              ≤ ((slice data off sharesEnd).drop 2).length := by
            rw [hkey, List.length_drop, hlen]
            omega
          have hread := readVec_of_le hroom
          have hnext : off + 2 + 2 + keyLen = off + (4 + keyLen) := by omega
          have hkeyLen : ((slice data (off + 2 + 2) sharesEnd).take keyLen).length = keyLen := by
            rw [List.length_take, length_slice]
            omega
          rw [walkShares_of_some _ hread, hkey, drop_slice, drop_slice, drop_slice, hkeyLen, hnext]
        · -- the share runs past the list, and so does what is left to read
          have hnone : readVec 2 ((slice data off sharesEnd).drop 2) = none := by
            rw [readVec_eq_none]
            right
            refine ⟨by rw [List.length_drop, hlen]; omega, ?_⟩
            rw [hkey, List.length_drop, hlen]
            omega
          have hover : readVec 2 ((slice data (off + (4 + keyLen)) sharesEnd).drop 2) = none := by
            rw [readVec_eq_none]
            left
            rw [List.length_drop, length_slice]
            omega
          rw [walkShares_of_none _ hnone, walkShares_of_none _ hover]
      · rw [walkShares_of_none]
        rw [readVec_eq_none]
        left
        rw [List.length_drop, hlen]
        omega

/-- **The outer loop is the walk over the extensions.** -/
lemma extensionsLoop_eq {extEnd : ℕ} (hend : extEnd ≤ data.length) (pos : ℕ)
    (keyShares : Dict ℕ ℕ) :
    extensionsLoop data extEnd pos keyShares
      = .ok (walkExtensions (slice data pos extEnd) keyShares) := by
  induction hn : extEnd - pos using Nat.strongRecOn generalizing pos keyShares with
  | _ n ih =>
      have hlen : (slice data pos extEnd).length = extEnd - pos := by
        rw [length_slice, Nat.min_eq_left hend]
      rw [extensionsLoop, walkExtensions]
      by_cases hpos : pos + 4 ≤ extEnd
      · rw [if_pos hpos, if_pos (by omega), unpackHH_slice hpos hend]
        simp only [bind, Except.bind, drop_slice]
        have hroom : 2 ≤ (slice data (pos + 4) extEnd).length ↔ pos + 4 + 2 ≤ extEnd := by
          rw [length_slice]
          omega
        by_cases hshare : beNat ((slice data pos extEnd).take 2) = extKeyShare ∧
            pos + 4 + 2 ≤ extEnd
        · rw [if_pos hshare, if_pos (hshare.imp_right hroom.mpr), unpackH_slice hshare.2 hend]
          dsimp only
          rw [sharesLoop_eq ((Nat.min_le_right _ _).trans hend)]
          dsimp only
          rw [ih _ (by omega) _ _ rfl, take_slice data (pos + 4 + 2)]
        · rw [if_neg hshare, if_neg fun h => hshare (h.imp_right hroom.mp)]
          dsimp only [pure, Except.pure]
          rw [ih _ (by omega) _ _ rfl]
      · rw [if_neg hpos, if_neg (by omega)]

end Loops

/-! ### The fields before the extensions -/

section Head

variable {data : Bytes}

lemma byteAt_eq (pos : ℕ) : byteAt data pos =
    if pos < data.length then .ok (beNat ((data.drop pos).take 1)) else .error .indexError := by
  rw [byteAt]
  split_ifs with h
  · rw [List.getElem?_eq_getElem h, List.drop_eq_getElem_cons h, List.take_succ_cons,
      List.take_zero]
    simp [beNat]
  · rw [List.getElem?_eq_none (not_lt.mp h)]

lemma unpackH_eq (pos : ℕ) : unpackH data pos =
    if pos + 2 ≤ data.length then .ok (beNat ((data.drop pos).take 2))
    else .error .structError := by
  rw [unpackH, slice_eq_take_drop]

/-- A field that stands at a position. -/
lemma readVec_drop {k : ℕ} (hk : 0 < k) (pos : ℕ) {n : ℕ}
    (hn : beNat ((data.drop pos).take k) = n) :
    readVec k (data.drop pos) = if pos + (k + n) ≤ data.length then
      some (slice data (pos + k) (pos + k + n), data.drop (pos + (k + n))) else none := by
  have hiff : k + n ≤ data.length - pos ↔ pos + (k + n) ≤ data.length := by omega
  rw [slice_eq_take_drop]
  simp only [readVec, hn, List.length_drop, hiff, List.drop_drop, Nat.add_assoc]

lemma mapM_ok {ε α β : Type} {f : α → Except ε β} {g : α → β} :
    ∀ {l : List α}, (∀ a ∈ l, f a = .ok (g a)) → l.mapM f = .ok (l.map g)
  | [], _ => rfl
  | a :: l, h => by
      rw [List.mapM_cons, h a List.mem_cons_self, mapM_ok fun b hb =>
          h b (List.mem_cons_of_mem _ hb)]
      rfl

/-- Clipping a slice at the end of the data takes nothing from it. -/
lemma slice_clipped (a k : ℕ) :
    slice data a (min (a + k) data.length) = (data.drop a).take k := by
  rw [slice, ← List.take_eq_take_min, ← slice_eq_take_drop, slice]

/-- The suites, read one by one. -/
lemma mapM_unpackH {pos n : ℕ} (h : pos + n ≤ data.length) :
    (pyRange pos (pos + n - 1) 2).mapM (unpackH data)
      = .ok (u16s (slice data pos (pos + n))) := by
  have hcount : (pos + n - 1 - pos + (2 - 1)) / 2 = n / 2 := by omega
  have hlen : (slice data pos (pos + n)).length = n := by
    rw [length_slice]
    omega
  rw [pyRange, hcount, mapM_ok (g := fun off => beNat (slice data off (off + 2))), List.map_map,
    u16s, hlen]
  · congr 1
    refine List.map_congr_left fun i hi => ?_
    have hi' := List.mem_range.mp hi
    rw [Function.comp_apply, slice_slice (by omega), Nat.add_assoc]
  · intro off hoff
    obtain ⟨i, hi, rfl⟩ := List.mem_map.mp hoff
    have hi' := List.mem_range.mp hi
    exact if_pos (by omega)

/-- **What the code computes.**  On every byte string nothing is raised, and the info is that of
the walk. -/
theorem parseClientHello_eq (data : Bytes) :
    parseClientHello data = .ok (walkedInfo (walkHello (data.drop 43))) := by
  have hstart : 5 + 4 + 2 + clientRandomLen = 43 := rfl
  rw [parseClientHello, parseClientHelloBody, walkHello, hstart]
  -- the session id
  generalize hn₀ : beNat ((data.drop 43).take 1) = n₀
  rw [byteAt_eq, readVec_drop Nat.one_pos 43 hn₀, hn₀]
  by_cases h₀ : 43 < data.length
  swap
  · rw [if_neg h₀, if_neg (by omega)]
    rfl
  rw [if_pos h₀]
  dsimp only [bind, Except.bind, Option.bind]
  -- the cipher suites
  generalize hn₁ : beNat ((data.drop (43 + (1 + n₀))).take 2) = n₁
  rw [unpackH_eq, hn₁]
  by_cases h₁ : 43 + (1 + n₀) + 2 ≤ data.length
  swap
  · rw [if_neg h₁]
    split_ifs with hfit
    · dsimp only [Option.bind]
      rw [readVec_drop Nat.two_pos _ hn₁, if_neg (by omega)]
      rfl
    · rfl
  rw [if_pos h₁, if_pos (by omega)]
  dsimp only [Option.bind]
  rw [readVec_drop Nat.two_pos _ hn₁]
  by_cases h₂ : data.length < 43 + (1 + n₀) + 2 + n₁
  · rw [if_pos h₂, if_neg (by omega)]
    rfl
  rw [if_neg h₂, if_pos (by omega), mapM_unpackH (by omega)]
  dsimp only [Option.bind]
  -- the compression list
  rw [show 43 + (1 + n₀) + (2 + n₁) = 43 + (1 + n₀) + 2 + n₁ by omega]
  generalize 43 + (1 + n₀) + 2 = pos at *
  generalize hn₃ : beNat ((data.drop (pos + n₁)).take 1) = n₃
  rw [byteAt_eq, hn₃, readVec_drop Nat.one_pos _ hn₃]
  by_cases h₃ : pos + n₁ < data.length
  swap
  · rw [if_neg h₃, if_neg (by omega)]
    rfl
  rw [if_pos h₃]
  dsimp only
  -- the extensions
  rw [unpackH_eq]
  by_cases h₄ : pos + n₁ + (1 + n₃) + 2 ≤ data.length
  swap
  · rw [if_neg h₄]
    split_ifs with hfit
    · dsimp only [Option.bind]
      rw [if_neg (by rw [List.length_drop]; omega)]
      rfl
    · rfl
  rw [if_pos h₄, if_pos (by omega)]
  dsimp only [Option.bind]
  rw [if_pos (by rw [List.length_drop]; omega), extensionsLoop_eq (Nat.min_le_right _ _)]
  dsimp only [walkedInfo, pure, Except.pure]
  rw [slice_clipped, List.drop_drop]

end Head

/-! ## Well-formed hellos -/

/-- A share: a group and a key for it. -/
structure KeyShareEntry where
  group : ℕ
  key : Bytes
  group_lt : group < 256 ^ 2
  key_lt : key.length < 256 ^ 2

/-- A share on the wire. -/
def KeyShareEntry.octets (s : KeyShareEntry) : Bytes := beBytes 2 s.group ++ vec 2 s.key

/-- An extension: a list of shares, or anything of another type. -/
inductive Extension where
  | keyShare (shares : List KeyShareEntry)
      (fits : (vec 2 (shares.flatMap KeyShareEntry.octets)).length < 256 ^ 2)
  | other (type : ℕ) (body : Bytes) (type_lt : type < 256 ^ 2) (type_ne : type ≠ extKeyShare)
      (fits : body.length < 256 ^ 2)

namespace Extension

def type : Extension → ℕ
  | keyShare _ _ => extKeyShare
  | other type _ _ _ _ => type

def body : Extension → Bytes
  | keyShare shares _ => vec 2 (shares.flatMap KeyShareEntry.octets)
  | other _ body _ _ _ => body

/-- The shares an extension offers. -/
def shares : Extension → List KeyShareEntry
  | keyShare shares _ => shares
  | other _ _ _ _ _ => []

/-- An extension on the wire. -/
def octets (e : Extension) : Bytes := beBytes 2 e.type ++ vec 2 e.body

lemma type_lt (e : Extension) : e.type < 256 ^ 2 := by
  cases e with
  | keyShare shares fits => exact show extKeyShare < 256 ^ 2 by decide
  | other type body type_lt type_ne fits => exact type_lt

lemma body_lt (e : Extension) : e.body.length < 256 ^ 2 := by
  cases e with
  | keyShare shares fits => exact fits
  | other type body type_lt type_ne fits => exact fits

end Extension

/-- A ClientHello record.  Every length fits its field by construction. -/
structure ClientHello where
  /-- record header, handshake header, version and random -/
  preamble : Bytes
  sessionId : Bytes
  suites : List ℕ
  compression : Bytes
  extensions : List Extension
  preamble_length : preamble.length = 43
  sessionId_lt : sessionId.length < 256 ^ 1
  suite_lt : ∀ suite ∈ suites, suite < 256 ^ 2
  suites_lt : (suites.flatMap (beBytes 2)).length < 256 ^ 2
  compression_lt : compression.length < 256 ^ 1
  extensions_lt : (extensions.flatMap Extension.octets).length < 256 ^ 2

namespace ClientHello

/-- A hello on the wire. -/
def octets (h : ClientHello) : Bytes :=
  h.preamble ++ (vec 1 h.sessionId ++ (vec 2 (h.suites.flatMap (beBytes 2)) ++
    (vec 1 h.compression ++ vec 2 (h.extensions.flatMap Extension.octets))))

/-- A hello with two suites and one share. -/
example : ClientHello where
  preamble := List.replicate 43 0
  sessionId := List.replicate 32 7
  suites := [0x1301, 0x1302]
  compression := [0]
  extensions := [.other 0x0000 [1, 2] (by decide) (by decide) (by decide),
    .keyShare [⟨29, List.replicate 32 9, by decide, by decide⟩] (by decide)]
  preamble_length := rfl
  sessionId_lt := by decide
  suite_lt := by decide
  suites_lt := by decide
  compression_lt := by decide
  extensions_lt := by decide

/-- The shares a hello offers, in order. -/
def shares (h : ClientHello) : List KeyShareEntry := h.extensions.flatMap Extension.shares

end ClientHello

/-! ### The walk over a well-formed hello -/

/-- The dictionary after some shares. -/
def addShares (keyShares : Dict ℕ ℕ) (shares : List KeyShareEntry) : Dict ℕ ℕ :=
  shares.foldl (fun d s => d.setdefault s.group s.key.length) keyShares

/-- A group keeps the first length it was given. -/
lemma get?_addShares (keyShares : Dict ℕ ℕ) (shares : List KeyShareEntry) (g : ℕ) :
    (addShares keyShares shares).get? g =
      (keyShares.get? g).or ((shares.find? (·.group = g)).map (·.key.length)) := by
  induction shares generalizing keyShares with
  | nil => simp [addShares]
  | cons s shares ih =>
      rw [addShares, List.foldl_cons, ← addShares, ih, Dict.get?_setdefault, Option.or_assoc]
      by_cases hg : s.group = g
      · rw [if_pos hg, List.find?_cons_of_pos (by simpa using hg), Option.some_or, Option.map_some]
      · rw [if_neg hg, List.find?_cons_of_neg (by simpa using hg), Option.none_or]

lemma walkShares_octets (shares : List KeyShareEntry) (keyShares : Dict ℕ ℕ) :
    walkShares (shares.flatMap KeyShareEntry.octets) keyShares = addShares keyShares shares := by
  induction shares generalizing keyShares with
  | nil => exact walkShares_of_none _ rfl
  | cons s shares ih =>
      have hgroup : beNat (((s :: shares).flatMap KeyShareEntry.octets).take 2) = s.group := by
        rw [List.flatMap_cons, KeyShareEntry.octets, List.append_assoc,
          List.take_left' (length_beBytes _ _), beNat_beBytes_of_lt s.group_lt]
      have hread : readVec 2 (((s :: shares).flatMap KeyShareEntry.octets).drop 2)
          = some (s.key, shares.flatMap KeyShareEntry.octets) := by
        rw [List.flatMap_cons, KeyShareEntry.octets, List.append_assoc,
          List.drop_left' (length_beBytes _ _), readVec_vec _ s.key_lt]
      rw [walkShares_of_some _ hread, hgroup, ih]
      rfl

/-- One extension, whatever follows it. -/
lemma walkExtensions_octets_append (e : Extension) (rest : Bytes) (keyShares : Dict ℕ ℕ) :
    walkExtensions (e.octets ++ rest) keyShares
      = walkExtensions rest (addShares keyShares e.shares) := by
  have hread : readVec 2 ((e.octets ++ rest).drop 2) = some (e.body, rest) := by
    rw [Extension.octets, List.append_assoc, List.drop_left' (length_beBytes _ _),
      readVec_vec _ e.body_lt]
  have htype : beNat ((e.octets ++ rest).take 2) = e.type := by
    rw [Extension.octets, List.append_assoc, List.take_left' (length_beBytes _ _),
      beNat_beBytes_of_lt e.type_lt]
  have hdrop : (e.octets ++ rest).drop 4 = e.body ++ rest := by
    rw [show 4 = 2 + 2 from rfl, ← List.drop_drop, drop_of_readVec hread]
  have hlen : 4 ≤ (e.octets ++ rest).length := by
    simp only [Extension.octets, List.length_append, length_beBytes, length_vec]
    omega
  rw [walkExtensions, if_pos hlen]
  dsimp only
  rw [hdrop, htype, beNat_take_of_readVec hread, List.drop_left]
  congr 1
  cases e with
  | keyShare shares fits =>
      have hlist : (shares.flatMap KeyShareEntry.octets).length < 256 ^ 2 := by
        rw [length_vec] at fits
        omega
      simp only [Extension.body, Extension.type, Extension.shares, true_and]
      rw [if_pos (by simp only [List.length_append, length_vec]; omega),
        take_vec_append _ hlist, drop_vec_append, List.take_left, walkShares_octets]
  | other type body type_lt type_ne fits =>
      rw [if_neg fun h => type_ne h.1]
      rfl

lemma walkExtensions_octets (extensions : List Extension) (keyShares : Dict ℕ ℕ) :
    walkExtensions (extensions.flatMap Extension.octets) keyShares
      = addShares keyShares (extensions.flatMap Extension.shares) := by
  induction extensions generalizing keyShares with
  | nil =>
      rw [List.flatMap_nil, walkExtensions]
      rfl
  | cons e extensions ih =>
      rw [List.flatMap_cons, walkExtensions_octets_append, ih, List.flatMap_cons, addShares,
        addShares, addShares, List.foldl_append]

/-- A hello is walked to its suites and the whole of its extensions. -/
lemma walkHello_octets (h : ClientHello) :
    walkHello (h.octets.drop 43) = some (h.suites, h.extensions.flatMap Extension.octets) := by
  have hext := readVec_vec [] h.extensions_lt
  rw [List.append_nil] at hext
  rw [ClientHello.octets, List.drop_left' h.preamble_length, walkHello,
    readVec_vec _ h.sessionId_lt]
  dsimp only [bind, Option.bind]
  rw [readVec_vec _ h.suites_lt]
  dsimp only [Option.bind]
  rw [readVec_vec _ h.compression_lt]
  dsimp only [Option.bind]
  rw [if_pos (by simp only [length_vec]; omega), u16s_flatMap h.suite_lt,
    beNat_take_of_readVec hext, drop_of_readVec hext, List.append_nil, List.take_length]

/-- **Well-formed hellos are read exactly, and everything else is survived.**  Whatever the session
id, the suites, the compression list and the extensions, the info has the offered suites and maps
each offered group to the length of its first share; on no byte string is anything raised. -/
theorem parseClientHello_octets :
    (∀ h : ClientHello, ∃ info, parseClientHello h.octets = .ok info ∧
      (∀ suite, suite ∈ info.cipherSuites ↔ suite ∈ h.suites) ∧
      ∀ g, info.keyShares.get? g = (h.shares.find? (·.group = g)).map (·.key.length)) ∧
    ∀ data, ∃ info, parseClientHello data = .ok info := by
  constructor
  · intro h
    refine ⟨_, parseClientHello_eq h.octets, ?_, ?_⟩
    · intro suite
      rw [walkHello_octets]
      exact List.mem_toFinset
    · intro g
      rw [walkHello_octets]
      change (walkExtensions _ _).get? g = _
      rw [walkExtensions_octets, get?_addShares, Dict.get?_empty, Option.none_or]
      rfl
  · intro data
    exact ⟨_, parseClientHello_eq data⟩

/-! ## Damaged hellos -/

/-- One of the lengths before the extensions runs past the end of the data. -/
inductive HeadOverruns (bs : Bytes) : Prop where
  | sessionId : Overrun 1 bs → HeadOverruns bs
  | cipherSuites {sessionId bs₁ : Bytes} : readVec 1 bs = some (sessionId, bs₁) → Overrun 2 bs₁ →
      HeadOverruns bs
  | compression {sessionId bs₁ suites bs₂ : Bytes} : readVec 1 bs = some (sessionId, bs₁) →
      readVec 2 bs₁ = some (suites, bs₂) → Overrun 1 bs₂ → HeadOverruns bs

/-- A share of the list runs past its end. -/
inductive SharesOverrun : Bytes → Prop where
  | here {bs : Bytes} : Overrun 2 (bs.drop 2) → SharesOverrun bs
  | later {bs key rest : Bytes} : readVec 2 (bs.drop 2) = some (key, rest) → SharesOverrun rest →
      SharesOverrun bs

/-- Within the block an extension, a list of shares or a share runs past the end of what contains
it. -/
inductive ExtensionsOverrun : Bytes → Prop where
  | extension {bs : Bytes} : Overrun 2 (bs.drop 2) → ExtensionsOverrun bs
  /-- the length of the list is inside the extension, the list is not -/
  | list {bs body rest : Bytes} : readVec 2 (bs.drop 2) = some (body, rest) →
      beNat (bs.take 2) = extKeyShare → Overrun 2 body → ExtensionsOverrun bs
  /-- not even the length of the list is inside the extension -/
  | listLength {bs body rest : Bytes} : readVec 2 (bs.drop 2) = some (body, rest) →
      beNat (bs.take 2) = extKeyShare → body.length < 2 → 2 ≤ (body ++ rest).length →
      ExtensionsOverrun bs
  | share {bs body rest list extra : Bytes} : readVec 2 (bs.drop 2) = some (body, rest) →
      beNat (bs.take 2) = extKeyShare → readVec 2 body = some (list, extra) →
      SharesOverrun list → ExtensionsOverrun bs
  | later {bs body rest : Bytes} : readVec 2 (bs.drop 2) = some (body, rest) →
      ExtensionsOverrun rest → ExtensionsOverrun bs

/-- The cipher suites of a hello and what stands behind the compression list, where the three
lengths before it are in order. -/
def HeadReads (bs suites behind : Bytes) : Prop :=
  ∃ sessionId bs₁ bs₂ compression, readVec 1 bs = some (sessionId, bs₁) ∧
    readVec 2 bs₁ = some (suites, bs₂) ∧ readVec 1 bs₂ = some (compression, behind)

/-- **Some declared length of the hello runs past the end of the structure that contains it.** -/
inductive Malformed (data : Bytes) : Prop where
  | head : HeadOverruns (data.drop 43) → Malformed data
  | block {suites behind : Bytes} : HeadReads (data.drop 43) suites behind → Overrun 2 behind →
      Malformed data
  | inBlock {suites behind block extra : Bytes} : HeadReads (data.drop 43) suites behind →
      readVec 2 behind = some (block, extra) → ExtensionsOverrun block → Malformed data

/-- A key_share extension comes up whose list, cut off at the end of the block only, begins with a
whole share. -/
inductive OffersShare : Bytes → Prop where
  | here {bs : Bytes} : beNat (bs.take 2) = extKeyShare → 2 ≤ (bs.drop 4).length →
      readVec 2 ((((bs.drop 4).drop 2).take (beNat ((bs.drop 4).take 2))).drop 2) ≠ none →
      OffersShare bs
  | later {bs : Bytes} : 4 ≤ bs.length →
      OffersShare ((bs.drop 4).drop (beNat ((bs.drop 2).take 2))) → OffersShare bs

/-- The hello gets as far as its extensions and lists no whole suite and no share. -/
def OffersNothing (bs : Bytes) : Prop :=
  ∃ suites behind, HeadReads bs suites behind ∧ suites.length < 2 ∧ 2 ≤ behind.length ∧
    ¬ OffersShare ((behind.drop 2).take (beNat (behind.take 2)))

/-! ### What a damaged hello yields -/

lemma walkShares_ne_empty {bs : Bytes} {keyShares : Dict ℕ ℕ} (h : keyShares ≠ Dict.empty) :
    walkShares bs keyShares ≠ Dict.empty := by
  induction hn : bs.length using Nat.strongRecOn generalizing bs keyShares with
  | _ n ih =>
      cases hread : readVec 2 (bs.drop 2) with
      | none => rwa [walkShares_of_none _ hread]
      | some read =>
          obtain ⟨key, rest⟩ := read
          have hlen := length_of_readVec hread
          rw [List.length_drop] at hlen
          rw [walkShares_of_some _ hread]
          exact ih _ (by omega) (Dict.setdefault_ne_empty _ _ _) rfl

/-- Shares come out exactly where the first one is whole. -/
lemma walkShares_empty_iff (bs : Bytes) :
    walkShares bs Dict.empty = Dict.empty ↔ readVec 2 (bs.drop 2) = none := by
  cases hread : readVec 2 (bs.drop 2) with
  | none => simp [walkShares_of_none _ hread]
  | some read =>
      rw [walkShares_of_some _ hread]
      simpa using walkShares_ne_empty (Dict.setdefault_ne_empty _ _ _)

lemma walkExtensions_ne_empty {bs : Bytes} {keyShares : Dict ℕ ℕ} (h : keyShares ≠ Dict.empty) :
    walkExtensions bs keyShares ≠ Dict.empty := by
  induction hn : bs.length using Nat.strongRecOn generalizing bs keyShares with
  | _ n ih =>
      rw [walkExtensions]
      dsimp only
      split_ifs with hlen hshare
      · exact ih _ (by simp; omega) (walkShares_ne_empty h) rfl
      · exact ih _ (by simp; omega) h rfl
      · exact h

/-- The walk over the extensions comes back with nothing exactly where no share is offered. -/
lemma walkExtensions_empty_iff (bs : Bytes) :
    walkExtensions bs Dict.empty = Dict.empty ↔ ¬ OffersShare bs := by
  induction hn : bs.length using Nat.strongRecOn generalizing bs with
  | _ n ih =>
      rw [walkExtensions]
      by_cases hlen : 4 ≤ bs.length
      · rw [if_pos hlen]
        dsimp only
        have hnext := ih _ (by simp; omega) ((bs.drop 4).drop (beNat ((bs.drop 2).take 2))) rfl
        split_ifs with hshare
        · by_cases hfirst : readVec 2 ((((bs.drop 4).drop 2).take
              (beNat ((bs.drop 4).take 2))).drop 2) = none
          · rw [(walkShares_empty_iff _).mpr hfirst, hnext, not_iff_not]
            constructor
            · exact OffersShare.later hlen
            · rintro (⟨-, -, hsome⟩ | ⟨-, hlater⟩)
              · exact absurd hfirst hsome
              · exact hlater
          · have hne := mt (walkShares_empty_iff _).mp hfirst
            simp only [walkExtensions_ne_empty hne, false_iff, not_not]
            exact OffersShare.here hshare.1 hshare.2 hfirst
        · rw [hnext, not_iff_not]
          constructor
          · exact OffersShare.later hlen
          · rintro (⟨htype, hroom, -⟩ | ⟨-, hlater⟩)
            · exact absurd ⟨htype, hroom⟩ hshare
            · exact hlater
      · rw [if_neg hlen]
        simp only [true_iff]
        rintro (⟨-, hroom, -⟩ | ⟨hlen', -⟩)
        · rw [List.length_drop] at hroom
          omega
        · exact hlen hlen'

lemma walkHello_of_headReads {bs suites behind : Bytes} (h : HeadReads bs suites behind) :
    walkHello bs = if 2 ≤ behind.length then
      some (u16s suites, (behind.drop 2).take (beNat (behind.take 2))) else none := by
  obtain ⟨sessionId, bs₁, bs₂, compression, h₁, h₂, h₃⟩ := h
  simp [walkHello, h₁, h₂, h₃]

lemma HeadReads.unique {bs suites behind suites' behind' : Bytes} (h : HeadReads bs suites behind)
    (h' : HeadReads bs suites' behind') : suites = suites' ∧ behind = behind' := by
  obtain ⟨sessionId, bs₁, bs₂, compression, h₁, h₂, h₃⟩ := h
  obtain ⟨sessionId', bs₁', bs₂', compression', h₁', h₂', h₃'⟩ := h'
  obtain ⟨-, rfl⟩ := Prod.mk.inj (Option.some.inj (h₁.symm.trans h₁'))
  obtain ⟨rfl, rfl⟩ := Prod.mk.inj (Option.some.inj (h₂.symm.trans h₂'))
  obtain ⟨-, rfl⟩ := Prod.mk.inj (Option.some.inj (h₃.symm.trans h₃'))
  exact ⟨rfl, rfl⟩

lemma HeadOverruns.not_headReads {bs suites behind : Bytes} (h : HeadOverruns bs) :
    ¬ HeadReads bs suites behind := by
  rintro ⟨sessionId, bs₁, bs₂, compression, h₁, h₂, h₃⟩
  cases h with
  | sessionId hover => exact not_overrun_of_readVec h₁ hover
  | cipherSuites h₁' hover =>
      obtain ⟨-, rfl⟩ := Prod.mk.inj (Option.some.inj (h₁.symm.trans h₁'))
      exact not_overrun_of_readVec h₂ hover
  | compression h₁' h₂' hover =>
      obtain ⟨-, rfl⟩ := Prod.mk.inj (Option.some.inj (h₁.symm.trans h₁'))
      obtain ⟨-, rfl⟩ := Prod.mk.inj (Option.some.inj (h₂.symm.trans h₂'))
      exact not_overrun_of_readVec h₃ hover

/-- An overrun before the extensions ends the walk. -/
lemma HeadOverruns.walkHello_eq {bs : Bytes} (h : HeadOverruns bs) : walkHello bs = none := by
  cases h with
  | sessionId hover => simp [walkHello, readVec_eq_none.mpr (Or.inr hover)]
  | cipherSuites h₁ hover => simp [walkHello, h₁, readVec_eq_none.mpr (Or.inr hover)]
  | compression h₁ h₂ hover => simp [walkHello, h₁, h₂, readVec_eq_none.mpr (Or.inr hover)]

lemma walkedInfo_some_eq_empty {suites : List ℕ} {block : Bytes} :
    walkedInfo (some (suites, block)) = emptyHelloInfo ↔ suites = [] ∧ ¬ OffersShare block := by
  simp [walkedInfo, emptyHelloInfo, walkExtensions_empty_iff]

/-- **When a damaged hello yields the empty info.**  Of a hello with a length that runs past what
contains it, the code returns the empty info exactly when the length is that of the session id, the
cipher suites or the compression list, or when the hello offers nothing it could have taken:
lengths from the extensions on are clipped or skipped, never refused. -/
theorem malformed_yields_empty_iff (data : Bytes) (h : Malformed data) :
    parseClientHello data = .ok emptyHelloInfo ↔
      HeadOverruns (data.drop 43) ∨ OffersNothing (data.drop 43) := by
  rw [parseClientHello_eq, Except.ok.injEq]
  have hreads : ∀ {suites behind : Bytes}, HeadReads (data.drop 43) suites behind →
      2 ≤ behind.length → (walkedInfo (walkHello (data.drop 43)) = emptyHelloInfo ↔
        HeadOverruns (data.drop 43) ∨ OffersNothing (data.drop 43)) := by
    intro suites behind hread hlen
    rw [walkHello_of_headReads hread, if_pos hlen, walkedInfo_some_eq_empty, u16s_eq_nil]
    constructor
    · rintro ⟨hsuites, hshare⟩
      exact Or.inr ⟨suites, behind, hread, hsuites, hlen, hshare⟩
    · rintro (hhead | ⟨suites', behind', hread', hsuites, -, hshare⟩)
      · exact absurd hread hhead.not_headReads
      · obtain ⟨rfl, rfl⟩ := hread.unique hread'
        exact ⟨hsuites, hshare⟩
  cases h with
  | head hhead =>
      rw [hhead.walkHello_eq]
      exact iff_of_true rfl (Or.inl hhead)
  | block hread hover => exact hreads hread hover.1
  | inBlock hread hblock hover =>
      exact hreads hread (by rw [length_of_readVec hblock]; omega)

/-- A hello cut off inside its session id. -/
theorem malformed_yields_empty_iff_sample :
    parseClientHello (List.replicate 43 0 ++ [32, 7, 7]) = .ok emptyHelloInfo := by
  have hhead : HeadOverruns ((List.replicate 43 0 ++ [32, 7, 7] : Bytes).drop 43) :=
    HeadOverruns.sessionId (by decide)
  exact (malformed_yields_empty_iff _ (Malformed.head hhead)).mpr (Or.inl hhead)

/-- The hello of one suite whose block of extensions claims a hundred octets and has none. -/
def cutOffHello : Bytes := List.replicate 43 0 ++ [0, 0, 2, 0x13, 0x03, 1, 0, 0, 100]

/-- **A damaged hello whose suite is taken.**  The block of extensions runs past the data, and the
info is that of the suite before it. -/
theorem cutOffHello_not_empty :
    Malformed cutOffHello ∧ parseClientHello cutOffHello ≠ .ok emptyHelloInfo := by
  have hread : HeadReads (cutOffHello.drop 43) [0x13, 0x03] [0, 100] :=
    ⟨[], [0, 2, 0x13, 0x03, 1, 0, 0, 100], [1, 0, 0, 100], [0], by decide, by decide, by decide⟩
  refine ⟨Malformed.block hread (by decide), ?_⟩
  rw [parseClientHello_eq, walkHello_of_headReads hread, if_pos (by decide), ne_eq,
    Except.ok.injEq, walkedInfo_some_eq_empty, u16s_eq_nil]
  exact fun h => absurd h.1 (by decide)

end TgWsProxy
