import TgWsProxy.FakeTls.ClientHello
import TgWsProxy.FakeTls.Stream
import TgWsProxy.Obfuscation.Aes

/-!
# The fake ServerHello flight

`build_server_hello` of `proxy/fake_tls.py` and what it is made of: the choice of a cipher suite
and of a key share, the profiled size of the last record, six nested lengths and a MAC over the
whole.

* `buildServerHello`, `setProfiledAppdataLen`, `firstAppdataRecordLen` — the code.
* `splitRecords`, `readHandshake`, `readServerHello`, `readExtensions` — a strict reader of the
  protocol: every length has to be that of the octets present, and none may be left over.
* `flight` — the shape of what is built, with the random field open.
* **`buildServerHello_wellFormed`** — the strict reader takes the flight apart, the answers in it
  are those the hello asked for, and the MAC verifies.
-/

namespace TgWsProxy

open Wire

variable (hmac : Bytes → Bytes → Digest)

/-! ## The code -/

/-- `TLS_RECORD_HANDSHAKE`. -/
def tlsRecordHandshake : UInt8 := 0x16

/-- `TLS_VERSION_12`. -/
def tlsVersion12 : Bytes := [0x03, 0x03]

def extSupportedVersions : ℕ := 0x002b

def groupX25519 : ℕ := 0x001d
def groupX25519mlkem768 : ℕ := 0x11ec

def x25519KeyLen : ℕ := 32
def x25519mlkem768ClientShareLen : ℕ := 1216
def mlkem768CiphertextLen : ℕ := 1088

/-- `CIPHER_PREFERENCE`. -/
def cipherPreference : List ℕ := [0x1301, 0x1303, 0x1302]

def appdataMin : ℕ := 64

/-- `FALLBACK_APPDATA_RANGE`. -/
def fallbackAppdataRange : ℕ × ℕ := (64, 160)

/-- `_CCS_FRAME`. -/
def ccsFrame : Bytes := [0x14, 0x03, 0x03, 0x00, 0x01, 0x01]

/-- `_SH_RANDOM_OFF`. -/
def shRandomOff : ℕ := 11

/-- Octets of a given number. -/
abbrev Octets (n : ℕ) := { bs : Bytes // bs.length = n }

/-- What `build_server_hello` draws. -/
structure Draws where
  /-- `os.urandom(MLKEM768_CIPHERTEXT_LEN)` -/
  ciphertext : Octets mlkem768CiphertextLen
  /-- a generated public key, where the library is installed -/
  generated : Option (Octets x25519KeyLen)
  /-- `os.urandom(X25519_KEY_LEN)` -/
  keyOctets : Octets x25519KeyLen
  /-- `random.randint(*FALLBACK_APPDATA_RANGE)` -/
  fallbackLen : { n : ℕ // fallbackAppdataRange.1 ≤ n ∧ n ≤ fallbackAppdataRange.2 }
  /-- `os.urandom(appdata_len)` -/
  appdata : (n : ℕ) → Octets n

/-- What packing raises. -/
inductive PackError where
  | structError
  | valueError
  deriving DecidableEq, Repr

/-- `struct.pack('>H', n)`. -/
def packH (n : ℕ) : Except PackError Bytes :=
  if n < 256 ^ 2 then .ok (beBytes 2 n) else .error .structError

/-- `struct.pack('>I', n)`. -/
def packI (n : ℕ) : Except PackError Bytes :=
  if n < 256 ^ 4 then .ok (beBytes 4 n) else .error .structError

/-- `bytes([n])`. -/
def packByte (n : ℕ) : Except PackError Bytes :=
  if n < 256 then .ok [UInt8.ofNat n] else .error .valueError

/-- `_select_cipher_suite(info)`. -/
def selectCipherSuite (info : ClientHelloInfo) : ℕ :=
  (cipherPreference.find? (· ∈ info.cipherSuites)).getD 0x1301

/-- `_x25519_public_key()`. -/
def x25519PublicKey (d : Draws) : Bytes :=
  match d.generated with
  | some key => key.1
  | none => d.keyOctets.1.set (x25519KeyLen - 1) (d.keyOctets.1.getD (x25519KeyLen - 1) 0 &&& 0x7f)

/-- `_server_key_share(info)`. -/
def serverKeyShare (info : ClientHelloInfo) (d : Draws) : ℕ × Bytes :=
  if info.keyShares.get? groupX25519mlkem768 = some x25519mlkem768ClientShareLen then
    (groupX25519mlkem768, d.ciphertext.1 ++ x25519PublicKey d)
  else (groupX25519, x25519PublicKey d)

/-- `set_profiled_appdata_len(length)`, the new `_profiled_appdata_len`. -/
def setProfiledAppdataLen (length : Option ℤ) : Option ℕ :=
  length.map fun length => (max (appdataMin : ℤ) (min length tlsAppdataMax)).toNat

/-- `_appdata_len()`. -/
def appdataLen (profiled : Option ℕ) (d : Draws) : ℕ :=
  match profiled with
  | some n => n
  | none => d.fallbackLen.1

/-- `build_server_hello(secret, client_random, session_id, info)`. -/
def buildServerHello (profiled : Option ℕ) (d : Draws) (secret clientRandom sessionId : Bytes)
    (info : ClientHelloInfo) : Except PackError Bytes := do
  let (group, keyExchange) := serverKeyShare info d
  let extensions :=
    ((← packH extSupportedVersions) ++ (← packH 2) ++ (← packH 0x0304))
    ++ ((← packH extKeyShare) ++ (← packH (4 + keyExchange.length)) ++ (← packH group)
      ++ (← packH keyExchange.length))
    ++ keyExchange
  let body :=
    tlsVersion12 ++ List.replicate 32 0
    ++ (← packByte sessionId.length) ++ sessionId
    ++ (← packH (selectCipherSuite info))
    ++ [0x00]
    ++ (← packH extensions.length) ++ extensions
  let message := [0x02] ++ (← packI body.length).drop 1 ++ body
  let serverHello := [tlsRecordHandshake] ++ tlsVersion12 ++ (← packH message.length) ++ message
  let appdataLen := appdataLen profiled d
  let appRecord := [tlsRecordAppdata] ++ tlsVersion12 ++ (← packH appdataLen)
    ++ (d.appdata appdataLen).1
  let response := serverHello ++ ccsFrame ++ appRecord
  let hmacInput := clientRandom ++ response
  let serverRandom := (hmac secret hmacInput).1
  return response.take shRandomOff ++ serverRandom ++ response.drop (shRandomOff + 32)

/-- The loop of `first_appdata_record_len` from `pos` on. -/
def firstAppdataRecordLenFrom (data : Bytes) (pos : ℕ) : Option ℕ :=
  if pos + 5 ≤ data.length then
    let rtype := data.getD pos 0
    let recLen := beNat (slice data (pos + 3) (pos + 5))
    if rtype = tlsRecordAppdata then some recLen
    else if ¬ (rtype = tlsRecordHandshake ∨ rtype = tlsRecordCcs) then some 0
    else firstAppdataRecordLenFrom data (pos + (5 + recLen))
  else none
termination_by data.length - pos

/-- `first_appdata_record_len(data)`. -/
def firstAppdataRecordLen (data : Bytes) : Option ℕ := firstAppdataRecordLenFrom data 0

/-- The walk of `first_appdata_record_len`, with what is left in hand instead of a position. -/
def walkFlight (bs : Bytes) : Option ℕ :=
  if 5 ≤ bs.length then
    let rtype := bs.getD 0 0
    let recLen := beNat (slice bs 3 5)
    if rtype = tlsRecordAppdata then some recLen
    else if ¬ (rtype = tlsRecordHandshake ∨ rtype = tlsRecordCcs) then some 0
    else walkFlight (bs.drop (5 + recLen))
  else none
termination_by bs.length
decreasing_by simp; omega

lemma firstAppdataRecordLenFrom_eq (data : Bytes) (pos : ℕ) :
    firstAppdataRecordLenFrom data pos = walkFlight (data.drop pos) := by
  induction hn : data.length - pos using Nat.strongRecOn generalizing pos with
  | _ n ih =>
      have hroom : pos + 5 ≤ data.length ↔ 5 ≤ (data.drop pos).length := by
        rw [List.length_drop]
        omega
      have htype : data.getD pos 0 = (data.drop pos).getD 0 0 := by
        rw [List.getD_eq_getElem?_getD, List.getD_eq_getElem?_getD, List.getElem?_drop,
          Nat.add_zero]
      have hlen : slice data (pos + 3) (pos + 5) = slice (data.drop pos) 3 5 := by
        rw [← drop_slice, slice_eq_take_drop, slice]
      rw [firstAppdataRecordLenFrom, walkFlight, hlen, htype]
      by_cases h : pos + 5 ≤ data.length
      · rw [if_pos h, if_pos (hroom.mp h)]
        dsimp only
        rw [ih _ (by omega) _ rfl, List.drop_drop]
      · rw [if_neg h, if_neg (mt hroom.mpr h)]

lemma firstAppdataRecordLen_eq (data : Bytes) : firstAppdataRecordLen data = walkFlight data :=
  firstAppdataRecordLenFrom_eq data 0

/-! ## A strict reader -/

/-- A record as it stands on the wire. -/
structure TlsRecord where
  type : UInt8
  version : Bytes
  payload : Bytes
  deriving DecidableEq, Repr

/-- A record off the front, and what follows it. -/
def takeRecord : Bytes → Option (TlsRecord × Bytes)
  | type :: v₁ :: v₂ :: bs =>
      (readVec 2 bs).map fun (payload, rest) => (⟨type, [v₁, v₂], payload⟩, rest)
  | _ => none

lemma length_of_takeRecord {bs rest : Bytes} {r : TlsRecord} (h : takeRecord bs = some (r, rest)) :
    rest.length < bs.length := by
  match bs, h with
  | type :: v₁ :: v₂ :: bs, h =>
      obtain ⟨⟨payload, rest'⟩, hread, heq⟩ := Option.map_eq_some_iff.mp h
      obtain ⟨-, rfl⟩ := Prod.mk.inj heq
      have hlen := length_of_readVec hread
      simp only [List.length_cons]
      omega

/-- The records that a byte string is made of, by their headers; `none` when an octet is left
over. -/
def splitRecords (bs : Bytes) : Option (List TlsRecord) :=
  if bs = [] then some []
  else
    match _h : takeRecord bs with
    | none => none
    | some (r, rest) => (splitRecords rest).map (r :: ·)
termination_by bs.length
decreasing_by exact length_of_takeRecord _h

/-- A handshake message: its type and its body, which ends where the message ends. -/
def readHandshake : Bytes → Option (UInt8 × Bytes)
  | type :: bs =>
      match readVec 3 bs with
      | some (body, []) => some (type, body)
      | _ => none
  | [] => none

/-- Type and body of each extension in a block; `none` when an octet is left over. -/
def readExtensions (bs : Bytes) : Option (List (ℕ × Bytes)) :=
  if bs = [] then some []
  else
    match _h : readVec 2 (bs.drop 2) with
    | none => none
    | some (body, rest) => (readExtensions rest).map ((beNat (bs.take 2), body) :: ·)
termination_by bs.length
decreasing_by
  have hlen := length_of_readVec _h
  rw [List.length_drop] at hlen
  omega

/-- The fields of a ServerHello. -/
structure ServerHello where
  version : Bytes
  random : Bytes
  sessionId : Bytes
  cipherSuite : ℕ
  compression : Bytes
  extensions : List (ℕ × Bytes)
  deriving DecidableEq, Repr

/-- The fields of the body of a ServerHello, which end where the body ends. -/
def readServerHello (bs : Bytes) : Option ServerHello := do
  let (sessionId, rest) ← readVec 1 (bs.drop 34)
  let (block, behind) ← readVec 2 (rest.drop 3)
  let extensions ← readExtensions block
  if behind = [] then
    some
      { version := bs.take 2
        random := slice bs 2 34
        sessionId := sessionId
        cipherSuite := beNat (rest.take 2)
        compression := slice rest 2 3
        extensions := extensions }
  else none

/-- Group and key of a server's key share, which ends where the extension ends. -/
def readKeyShare (bs : Bytes) : Option (ℕ × Bytes) :=
  match readVec 2 (bs.drop 2) with
  | some (key, []) => some (beNat (bs.take 2), key)
  | _ => none

/-! ### Reading back what was written -/

lemma takeRecord_append (type v₁ v₂ : UInt8) {payload : Bytes} (rest : Bytes)
    (h : payload.length < 256 ^ 2) :
    takeRecord ([type] ++ [v₁, v₂] ++ vec 2 payload ++ rest)
      = some (⟨type, [v₁, v₂], payload⟩, rest) := by
  simp only [List.cons_append, List.nil_append, takeRecord, readVec_vec rest h, Option.map_some]

/-- The first record of a flight, whatever follows it. -/
lemma splitRecords_append (type v₁ v₂ : UInt8) {payload : Bytes} (rest : Bytes)
    (h : payload.length < 256 ^ 2) :
    splitRecords ([type] ++ [v₁, v₂] ++ vec 2 payload ++ rest)
      = (splitRecords rest).map (⟨type, [v₁, v₂], payload⟩ :: ·) := by
  have htake := takeRecord_append type v₁ v₂ rest h
  rw [splitRecords, if_neg (by simp)]
  split
  · rename_i hnone
    rw [htake] at hnone
    cases hnone
  · rename_i r rest' hsome
    rw [htake] at hsome
    obtain ⟨rfl, rfl⟩ := Prod.mk.inj (Option.some.inj hsome)
    rfl

lemma splitRecords_nil : splitRecords [] = some [] := by
  rw [splitRecords, if_pos rfl]

lemma readExtensions_nil : readExtensions [] = some [] := by
  rw [readExtensions, if_pos rfl]

/-- The first extension of a block, whatever follows it. -/
lemma readExtensions_append {type : ℕ} {body : Bytes} (rest : Bytes) (htype : type < 256 ^ 2)
    (h : body.length < 256 ^ 2) :
    readExtensions (beBytes 2 type ++ vec 2 body ++ rest)
      = (readExtensions rest).map ((type, body) :: ·) := by
  have hdrop : (beBytes 2 type ++ vec 2 body ++ rest).drop 2 = vec 2 body ++ rest := by
    rw [List.append_assoc, List.drop_left' (length_beBytes _ _)]
  have htake : beNat ((beBytes 2 type ++ vec 2 body ++ rest).take 2) = type := by
    rw [List.append_assoc, List.take_left' (length_beBytes _ _), beNat_beBytes_of_lt htype]
  have hne : beBytes 2 type ++ vec 2 body ++ rest ≠ [] := by
    rw [← List.length_pos_iff]
    simp only [List.length_append, length_beBytes]
    omega
  rw [readExtensions, if_neg hne]
  split
  · rename_i hnone
    rw [hdrop, readVec_vec rest h] at hnone
    cases hnone
  · rename_i body' rest' hsome
    rw [hdrop, readVec_vec rest h] at hsome
    obtain ⟨rfl, rfl⟩ := Prod.mk.inj (Option.some.inj hsome)
    rw [htake]

lemma readHandshake_vec (type : UInt8) {body : Bytes} (h : body.length < 256 ^ 3) :
    readHandshake (type :: vec 3 body) = some (type, body) := by
  have hread := readVec_vec [] h
  rw [List.append_nil] at hread
  rw [readHandshake, hread]

lemma readKeyShare_octets {group : ℕ} {key : Bytes} (hgroup : group < 256 ^ 2)
    (h : key.length < 256 ^ 2) :
    readKeyShare (beBytes 2 group ++ vec 2 key) = some (group, key) := by
  have hread := readVec_vec [] h
  rw [List.append_nil] at hread
  rw [readKeyShare, List.drop_left' (length_beBytes _ _), hread,
    List.take_left' (length_beBytes _ _), beNat_beBytes_of_lt hgroup]

/-- The fields of a body written field by field. -/
lemma readServerHello_octets {version random sessionId compression block : Bytes} {suite : ℕ}
    {extensions : List (ℕ × Bytes)} (hversion : version.length = 2) (hrandom : random.length = 32)
    (hsession : sessionId.length < 256 ^ 1) (hsuite : suite < 256 ^ 2)
    (hcompression : compression.length = 1) (hblock : block.length < 256 ^ 2)
    (hextensions : readExtensions block = some extensions) :
    readServerHello (version ++ random ++ (vec 1 sessionId ++
        (beBytes 2 suite ++ compression ++ vec 2 block)))
      = some ⟨version, random, sessionId, suite, compression, extensions⟩ := by
  have hread := readVec_vec [] hblock
  rw [List.append_nil] at hread
  have hhead : (version ++ random).length = 34 := by simp [hversion, hrandom]
  have hmid : (beBytes 2 suite ++ compression).length = 3 := by simp [hcompression]
  have hrandom' : slice (version ++ random) 2 34 = random := by
    have h := slice_append_right version random 0 32
    rw [hversion] at h
    rw [h, slice, List.drop_zero, List.take_of_length_le hrandom.le]
  have hcompression' : slice (beBytes 2 suite ++ compression) 2 3 = compression := by
    have h := slice_append_right (beBytes 2 suite) compression 0 1
    rw [length_beBytes] at h
    rw [h, slice, List.drop_zero, List.take_of_length_le hcompression.le]
  rw [readServerHello, List.drop_left' hhead, readVec_vec _ hsession]
  dsimp only [bind, Option.bind]
  rw [List.drop_left' hmid, hread]
  dsimp only
  rw [hextensions]
  dsimp only
  rw [if_pos rfl, slice_append_left _ hhead.ge, slice_append_left _ hmid.ge,
    List.append_assoc version, List.take_left' hversion, List.append_assoc (beBytes 2 suite),
    List.take_left' (length_beBytes _ _), beNat_beBytes_of_lt hsuite, hrandom', hcompression']

/-! ## The shape of the flight -/

/-- The two extensions of the answer. -/
def serverExtensions (group : ℕ) (key : Bytes) : Bytes :=
  beBytes 2 extSupportedVersions ++ vec 2 (beBytes 2 0x0304) ++
    (beBytes 2 extKeyShare ++ vec 2 (beBytes 2 group ++ vec 2 key) ++ [])

/-- The body of the ServerHello, with its random field open. -/
def serverBody (random sessionId : Bytes) (suite group : ℕ) (key : Bytes) : Bytes :=
  tlsVersion12 ++ random ++ (vec 1 sessionId ++
    (beBytes 2 suite ++ [0x00] ++ vec 2 (serverExtensions group key)))

/-- The three records, with the random field open. -/
def flight (random sessionId : Bytes) (suite group : ℕ) (key app : Bytes) : Bytes :=
  [tlsRecordHandshake] ++ tlsVersion12 ++
      vec 2 (0x02 :: vec 3 (serverBody random sessionId suite group key)) ++
    ([tlsRecordCcs] ++ tlsVersion12 ++ vec 2 [0x01] ++
      ([tlsRecordAppdata] ++ tlsVersion12 ++ vec 2 app ++ []))

lemma packH_of_lt {n : ℕ} (h : n < 256 ^ 2) : packH n = .ok (beBytes 2 n) := if_pos h

lemma packI_of_lt {n : ℕ} (h : n < 256 ^ 4) : packI n = .ok (beBytes 4 n) := if_pos h

lemma packByte_of_lt {n : ℕ} (h : n < 256) : packByte n = .ok (beBytes 1 n) := if_pos h

section Flight

variable {random sessionId key app : Bytes} {suite group : ℕ}

@[simp] lemma length_serverExtensions : (serverExtensions group key).length = 14 + key.length := by
  simp only [serverExtensions, List.length_append, length_beBytes, length_vec, List.length_nil]
  omega

lemma length_serverBody (sessionId key : Bytes) (suite group : ℕ) (hrandom : random.length = 32) :
    (serverBody random sessionId suite group key).length
      = 54 + sessionId.length + key.length := by
  simp only [serverBody, tlsVersion12, List.length_append, length_beBytes, length_vec, hrandom,
    length_serverExtensions, List.length_cons, List.length_nil]
  omega

/-- The random field stands at its fixed offset: what precedes it has a fixed length. -/
lemma flight_eq (sessionId key app : Bytes) (suite group : ℕ) :
    ∃ head behind : Bytes, head.length = shRandomOff ∧
      ∀ random : Bytes, random.length = 32 →
        flight random sessionId suite group key app = head ++ random ++ behind := by
  refine ⟨[tlsRecordHandshake] ++ tlsVersion12 ++
      beBytes 2 (4 + (54 + sessionId.length + key.length)) ++
      ([0x02] ++ beBytes 3 (54 + sessionId.length + key.length) ++ tlsVersion12),
    vec 1 sessionId ++ (beBytes 2 suite ++ [0x00] ++ vec 2 (serverExtensions group key)) ++
      ([tlsRecordCcs] ++ tlsVersion12 ++ vec 2 [0x01] ++
        ([tlsRecordAppdata] ++ tlsVersion12 ++ vec 2 app ++ [])), rfl, ?_⟩
  intro random hrandom
  have hbody := length_serverBody sessionId key suite group hrandom
  have hmessage : (0x02 :: vec 3 (serverBody random sessionId suite group key)).length
      = 4 + (54 + sessionId.length + key.length) := by
    rw [List.length_cons, length_vec, hbody]
    omega
  rw [flight, vec, hmessage, vec, hbody, serverBody]
  simp only [List.append_assoc, List.cons_append, List.nil_append]

lemma readExtensions_server (hkey : key.length ≤ 1120) :
    readExtensions (serverExtensions group key) = some
      [(extSupportedVersions, beBytes 2 0x0304), (extKeyShare, beBytes 2 group ++ vec 2 key)] := by
  have hshare : (beBytes 2 group ++ vec 2 key).length < 256 ^ 2 := by
    simp only [List.length_append, length_beBytes, length_vec]
    omega
  rw [serverExtensions, readExtensions_append _ (by decide) (by decide),
    readExtensions_append _ (by decide) hshare, readExtensions_nil]
  rfl

/-- The fields of the body are what the strict reader finds. -/
lemma readServerHello_body (hrandom : random.length = 32) (hsession : sessionId.length < 256)
    (hsuite : suite < 256 ^ 2) (hkey : key.length ≤ 1120) :
    readServerHello (serverBody random sessionId suite group key) = some
      ⟨tlsVersion12, random, sessionId, suite, [0x00], [(extSupportedVersions, beBytes 2 0x0304),
        (extKeyShare, beBytes 2 group ++ vec 2 key)]⟩ :=
  readServerHello_octets rfl hrandom (by omega) hsuite rfl
    (by rw [length_serverExtensions]; omega) (readExtensions_server hkey)

/-- **The three records are what the strict reader finds.** -/
lemma splitRecords_flight (hrandom : random.length = 32) (hsession : sessionId.length < 256)
    (hkey : key.length ≤ 1120) (happ : app.length < 256 ^ 2) :
    splitRecords (flight random sessionId suite group key app) = some
      [⟨tlsRecordHandshake, tlsVersion12,
          0x02 :: vec 3 (serverBody random sessionId suite group key)⟩,
        ⟨tlsRecordCcs, tlsVersion12, [0x01]⟩, ⟨tlsRecordAppdata, tlsVersion12, app⟩] := by
  have hmessage :
      (0x02 :: vec 3 (serverBody random sessionId suite group key)).length < 256 ^ 2 := by
    rw [List.length_cons, length_vec, length_serverBody _ _ _ _ hrandom]
    omega
  rw [flight, tlsVersion12, splitRecords_append _ _ _ _ hmessage,
    splitRecords_append _ _ _ _ (by decide), splitRecords_append _ _ _ _ happ, splitRecords_nil]
  rfl

/-- The walk over a record, whatever follows it. -/
lemma walkFlight_append (type : UInt8) {payload : Bytes} (rest : Bytes)
    (h : payload.length < 256 ^ 2) :
    walkFlight ([type] ++ tlsVersion12 ++ vec 2 payload ++ rest) =
      if type = tlsRecordAppdata then some payload.length
      else if ¬ (type = tlsRecordHandshake ∨ type = tlsRecordCcs) then some 0
      else walkFlight rest := by
  have hroom : 5 ≤ ([type] ++ tlsVersion12 ++ vec 2 payload ++ rest).length := by
    simp only [tlsVersion12, List.length_append, List.length_cons, List.length_nil, length_vec]
    omega
  have hlen : beNat (slice ([type] ++ tlsVersion12 ++ vec 2 payload ++ rest) 3 5)
      = payload.length := by
    have hright := slice_append_right ([type] ++ tlsVersion12) (vec 2 payload ++ rest) 0 2
    rw [List.append_assoc ([type] ++ tlsVersion12)]
    exact (congrArg beNat hright).trans (take_vec_append rest h)
  have hdrop : ([type] ++ tlsVersion12 ++ vec 2 payload ++ rest).drop (5 + payload.length)
      = rest := by
    refine List.drop_left' ?_
    simp only [tlsVersion12, List.length_append, List.length_cons, List.length_nil, length_vec]
    omega
  rw [walkFlight, if_pos hroom]
  dsimp only
  rw [hlen, hdrop]
  rfl

/-- The last record is the one `first_appdata_record_len` finds. -/
lemma firstAppdataRecordLen_flight (hrandom : random.length = 32)
    (hsession : sessionId.length < 256) (hkey : key.length ≤ 1120) (happ : app.length < 256 ^ 2) :
    firstAppdataRecordLen (flight random sessionId suite group key app) = some app.length := by
  have hmessage :
      (0x02 :: vec 3 (serverBody random sessionId suite group key)).length < 256 ^ 2 := by
    rw [List.length_cons, length_vec, length_serverBody _ _ _ _ hrandom]
    omega
  rw [firstAppdataRecordLen_eq, flight, walkFlight_append _ _ hmessage,
    walkFlight_append _ _ (by decide), walkFlight_append _ _ happ]
  rfl

end Flight

/-! ## What is built -/

section Build

variable (profiled : Option ℕ) (d : Draws) (info : ClientHelloInfo)

lemma length_x25519PublicKey : (x25519PublicKey d).length = x25519KeyLen := by
  rw [x25519PublicKey]
  split
  · rename_i key hkey
    exact key.2
  · rw [List.length_set]
    exact d.keyOctets.2

/-- The answered group goes with the length of the key. -/
lemma serverKeyShare_spec :
    (serverKeyShare info d).1 < 256 ^ 2 ∧ (serverKeyShare info d).2.length ≤ 1120 := by
  have hkey := length_x25519PublicKey d
  have hciphertext := d.ciphertext.2
  rw [serverKeyShare]
  split_ifs
  · refine ⟨show groupX25519mlkem768 < 256 ^ 2 by decide, ?_⟩
    rw [List.length_append, hkey, hciphertext]
    decide
  · refine ⟨show groupX25519 < 256 ^ 2 by decide, ?_⟩
    rw [hkey]
    decide

lemma selectCipherSuite_lt : selectCipherSuite info < 256 ^ 2 := by
  rw [selectCipherSuite]
  cases h : cipherPreference.find? (· ∈ info.cipherSuites) with
  | none => decide
  | some suite =>
      have hmem := List.mem_of_find?_eq_some h
      have hall : ∀ suite ∈ cipherPreference, suite < 256 ^ 2 := by decide
      exact hall suite hmem

/-- The size of the last record, whatever was set. -/
lemma appdataLen_range (length : Option ℤ) :
    appdataMin ≤ appdataLen (setProfiledAppdataLen length) d ∧
      appdataLen (setProfiledAppdataLen length) d ≤ tlsAppdataMax := by
  cases length with
  | none =>
      obtain ⟨hlo, hhi⟩ := d.fallbackLen.2
      have hmax : fallbackAppdataRange.2 ≤ tlsAppdataMax := by decide
      exact ⟨hlo, hhi.trans hmax⟩
  | some length =>
      simp only [appdataLen, setProfiledAppdataLen, Option.map_some, appdataMin, tlsAppdataMax]
      omega

/-- **What the code computes.**  No packing fails; the MAC is taken over the flight with zeros for
its random field and put there. -/
lemma buildServerHello_eq (secret clientRandom : Bytes) {sessionId : Bytes}
    (hsession : sessionId.length < 256) (happ : appdataLen profiled d < 256 ^ 2) :
    buildServerHello hmac profiled d secret clientRandom sessionId info = .ok
      (let blank := flight (List.replicate 32 0) sessionId (selectCipherSuite info)
          (serverKeyShare info d).1 (serverKeyShare info d).2 (d.appdata (appdataLen profiled d)).1
      blank.take shRandomOff ++ (hmac secret (clientRandom ++ blank)).1
        ++ blank.drop (shRandomOff + 32)) := by
  obtain ⟨hgroup, hkeyLen⟩ := serverKeyShare_spec d info
  have hsuite := selectCipherSuite_lt info
  rw [buildServerHello]
  generalize serverKeyShare info d = share at *
  obtain ⟨group, key⟩ := share
  dsimp only at hgroup hkeyLen ⊢
  -- the extensions
  have hshare : (beBytes 2 group ++ vec 2 key).length = 4 + key.length := by
    simp only [List.length_append, length_beBytes, length_vec]
    omega
  have hextensions : (beBytes 2 extSupportedVersions ++ beBytes 2 2 ++ beBytes 2 0x0304 ++
      (beBytes 2 extKeyShare ++ beBytes 2 (4 + key.length) ++ beBytes 2 group
        ++ beBytes 2 key.length) ++ key) = serverExtensions group key := by
    have hvec : vec 2 (beBytes 2 group ++ vec 2 key)
        = beBytes 2 (4 + key.length) ++ (beBytes 2 group ++ vec 2 key) := by rw [vec, hshare]
    rw [serverExtensions, hvec]
    simp only [vec, length_beBytes, List.append_assoc, List.append_nil]
  rw [packH_of_lt (by decide), packH_of_lt (by decide), packH_of_lt (by decide),
    packH_of_lt (by decide), packH_of_lt (by omega), packH_of_lt hgroup, packH_of_lt (by omega),
    packByte_of_lt hsession, packH_of_lt hsuite]
  dsimp only [bind, Except.bind]
  rw [hextensions, packH_of_lt (by rw [length_serverExtensions]; omega)]
  dsimp only
  -- the body and the message around it
  have hbody : (tlsVersion12 ++ List.replicate 32 0 ++ beBytes 1 sessionId.length ++ sessionId
      ++ beBytes 2 (selectCipherSuite info) ++ [0x00]
      ++ beBytes 2 (serverExtensions group key).length ++ serverExtensions group key)
      = serverBody (List.replicate 32 0) sessionId (selectCipherSuite info) group key := by
    simp only [serverBody, vec, List.append_assoc]
  have hbodyLen := length_serverBody sessionId key (selectCipherSuite info) group
    (List.length_replicate : (List.replicate 32 (0 : UInt8)).length = 32)
  rw [hbody, packI_of_lt (by omega)]
  dsimp only
  rw [drop_one_beBytes]
  have hmessage : [0x02] ++ beBytes 3
      (serverBody (List.replicate 32 0) sessionId (selectCipherSuite info) group key).length
      ++ serverBody (List.replicate 32 0) sessionId (selectCipherSuite info) group key
      = 0x02 :: vec 3
        (serverBody (List.replicate 32 0) sessionId (selectCipherSuite info) group key) := rfl
  rw [hmessage, packH_of_lt (by rw [List.length_cons, length_vec]; omega)]
  dsimp only
  rw [packH_of_lt happ]
  dsimp only [pure, Except.pure]
  -- the records
  have happLen := (d.appdata (appdataLen profiled d)).2
  have hflight : [tlsRecordHandshake] ++ tlsVersion12 ++ beBytes 2
      (0x02 :: vec 3 (serverBody (List.replicate 32 0) sessionId (selectCipherSuite info) group
        key)).length
      ++ (0x02 :: vec 3 (serverBody (List.replicate 32 0) sessionId (selectCipherSuite info) group
        key)) ++ ccsFrame
      ++ ([tlsRecordAppdata] ++ tlsVersion12 ++ beBytes 2 (appdataLen profiled d)
        ++ (d.appdata (appdataLen profiled d)).1)
      = flight (List.replicate 32 0) sessionId (selectCipherSuite info) group key
        (d.appdata (appdataLen profiled d)).1 := by
    simp only [flight, vec, happLen, List.append_assoc, List.append_nil]
    rfl
  rw [hflight]

end Build

/-- A flight as Telegram clients take it: three records, every length that of the octets present,
the answers those the hello asked for, and the MAC over all of it. -/
structure WellFormedFlight (secret clientRandom sessionId : Bytes) (info : ClientHelloInfo)
    (out : Bytes) : Prop where
  records : ∃ message body app share key : Bytes, ∃ random : Bytes, ∃ suite group : ℕ,
    splitRecords out = some [⟨0x16, tlsVersion12, message⟩, ⟨0x14, tlsVersion12, [0x01]⟩,
      ⟨0x17, tlsVersion12, app⟩] ∧
    readHandshake message = some (0x02, body) ∧
    readServerHello body = some ⟨tlsVersion12, random, sessionId, suite, [0x00],
      [(extSupportedVersions, [0x03, 0x04]), (extKeyShare, share)]⟩ ∧
    readKeyShare share = some (group, key) ∧
    -- the first preferred suite that was offered
    (∀ preferred, cipherPreference.find? (· ∈ info.cipherSuites) = some preferred →
      suite = preferred) ∧
    -- the hybrid group for a share of its length, and nothing else for anything else
    (group = groupX25519mlkem768 ↔
      info.keyShares.get? groupX25519mlkem768 = some x25519mlkem768ClientShareLen) ∧
    (group ≠ groupX25519mlkem768 → group = groupX25519) ∧
    slice out 11 43 = random ∧
    firstAppdataRecordLen out = some app.length ∧
    appdataMin ≤ app.length ∧ app.length ≤ tlsAppdataMax
  mac : slice out 11 43
    = (hmac secret (clientRandom ++ (out.take 11 ++ List.replicate 32 0 ++ out.drop 43))).1

/-- **The fake ServerHello flight is well formed and authenticated.**  For every secret, client
random and session id, whatever the hello offered, whatever was given to
`set_profiled_appdata_len` and whatever is drawn. -/
theorem buildServerHello_wellFormed (secret : Bytes) (clientRandom sessionId : Octets 32)
    (info : ClientHelloInfo) (length : Option ℤ) (d : Draws) :
    ∃ out, buildServerHello hmac (setProfiledAppdataLen length) d secret clientRandom.1
        sessionId.1 info = .ok out ∧
      WellFormedFlight hmac secret clientRandom.1 sessionId.1 info out := by
  have hsession : sessionId.1.length < 256 := by
    rw [sessionId.2]
    decide
  obtain ⟨hmin, hmax⟩ := appdataLen_range d length
  have hwidth : tlsAppdataMax < 256 ^ 2 := by decide
  have happ := (d.appdata (appdataLen (setProfiledAppdataLen length) d)).2
  refine ⟨_, buildServerHello_eq hmac _ d info secret clientRandom.1 hsession
    (hmax.trans_lt hwidth), ?_⟩
  obtain ⟨hgroup, hkey⟩ := serverKeyShare_spec d info
  have hsuite := selectCipherSuite_lt info
  generalize happData : (d.appdata (appdataLen (setProfiledAppdataLen length) d)).1 = app at happ ⊢
  generalize hmacEq : hmac secret (clientRandom.1 ++ flight (List.replicate 32 0) sessionId.1
    (selectCipherSuite info) (serverKeyShare info d).1 (serverKeyShare info d).2 app) = mac
  obtain ⟨head, behind, hhead, hflight⟩ := flight_eq sessionId.1 (serverKeyShare info d).2 app
    (selectCipherSuite info) (serverKeyShare info d).1
  -- the MAC replaces the zeros, and nothing else
  have hblank := hflight (List.replicate 32 0) List.length_replicate
  have hpatched := hflight mac.1 mac.2
  have hout : (head ++ List.replicate 32 0 ++ behind).take shRandomOff ++ mac.1
      ++ (head ++ List.replicate 32 0 ++ behind).drop (shRandomOff + 32) = head ++
          mac.1 ++ behind := by
    rw [List.append_assoc head, List.take_left' hhead, ← List.append_assoc head,
      List.drop_left' (by rw [List.length_append, hhead, List.length_replicate])]
  rw [hblank] at hmacEq ⊢
  dsimp only
  rw [hmacEq, hout]
  have hhead' : head.length = 11 := hhead
  have hfront : (head ++ mac.1).length = 43 := by rw [List.length_append, hhead', mac.2]
  have hmid : slice (head ++ mac.1 ++ behind) 11 43 = mac.1 := by
    rw [slice, List.take_left' hfront, List.drop_left' hhead']
  generalize hbodyEq : serverBody mac.1 sessionId.1 (selectCipherSuite info)
    (serverKeyShare info d).1 (serverKeyShare info d).2 = body
  refine ⟨⟨0x02 :: vec 3 body, body, app,
    beBytes 2 (serverKeyShare info d).1 ++ vec 2 (serverKeyShare info d).2,
    (serverKeyShare info d).2, mac.1, selectCipherSuite info, (serverKeyShare info d).1, ?_⟩, ?_⟩
  · have hbody := length_serverBody sessionId.1 (serverKeyShare info d).2 (selectCipherSuite info)
      (serverKeyShare info d).1 mac.2
    rw [← hpatched, splitRecords_flight mac.2 hsession hkey (by omega),
      firstAppdataRecordLen_flight mac.2 hsession hkey (by omega), ← hbodyEq]
    refine ⟨rfl, readHandshake_vec _ (by omega), readServerHello_body mac.2 hsession hsuite hkey,
      readKeyShare_octets hgroup (by omega), ?_, ?_, ?_, ?_, rfl, by omega, by omega⟩
    · intro preferred hfirst
      rw [selectCipherSuite, hfirst]
      rfl
    · rw [serverKeyShare]
      split_ifs with hshare
      · exact iff_of_true rfl hshare
      · exact iff_of_false (show groupX25519 ≠ groupX25519mlkem768 by decide) hshare
    · rw [serverKeyShare]
      split_ifs
      · exact fun h => absurd rfl h
      · exact fun _ => rfl
    · rw [hpatched, hmid]
  · rw [hmid, List.drop_left' hfront, List.append_assoc head, List.take_left' hhead', hmacEq]

end TgWsProxy
