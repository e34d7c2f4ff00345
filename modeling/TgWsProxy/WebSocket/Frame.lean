import TgWsProxy.Core.Keystream
import TgWsProxy.StreamReader

/-!
# WebSocket frames

`_xor_mask`, `_build_frame` and `_read_frame` of `proxy/raw_websocket.py`.

* `xorMask` — the masking routine, with one implementation for short and one for long payloads;
  `xorMask_bytewise` says that both are the octet-wise XOR.
* `buildFrame`, `readFrame` — the code.
* `LengthField`, `OnWire` — the three encodings of a length, and the frames of the protocol with
  any of them, masked or not.
* `readFrame_onWire` — any such frame is read, whatever follows it.
* **`readFrames_buildFrames`** — what was built is read back, in the shortest encoding, and an
  oversized frame is refused at its header.
-/

namespace TgWsProxy

open Wire

/-! ## Masking -/

/-- `_XOR_TABLES[key]`. -/
def xorTable (key : UInt8) : Bytes := (List.range 256).map fun value => UInt8.ofNat value ^^^ key

/-- `bs.translate(table)`. -/
def translate (table bs : Bytes) : Bytes := bs.map fun b => table.getD b.toNat 0

/-- The loop of `_xor_mask` over the four offsets. -/
def xorMaskLong (data mask : Bytes) : Bytes :=
  (List.range 4).foldl (fun masked offset =>
    setStride 4 offset masked (translate (xorTable (mask.getD offset 0)) (stride 4 offset masked)))
    data

/-- The integer XOR of `_xor_mask`. -/
def xorMaskShort (data mask : Bytes) : Bytes :=
  let n := data.length
  let maskRep := (List.replicate (n / 4 + 1) mask).flatten.take n
  beBytes n (beNat data ^^^ beNat maskRep)

/-- `_xor_mask(data, mask)`. -/
def xorMask (data mask : Bytes) : Bytes :=
  if data = [] then data
  else if 512 ≤ data.length then xorMaskLong data mask
  else xorMaskShort data mask

lemma translate_xorTable (key : UInt8) (bs : Bytes) :
    translate (xorTable key) bs = bs.map (· ^^^ key) := by
  rw [translate]
  refine List.map_congr_left fun b _ => ?_
  have hb := b.toNat_lt
  simp [xorTable, List.getD, hb]

/-- The octet of the key for position `i`. -/
def maskOctet (mask : Bytes) (i : ℕ) : UInt8 := mask.getD (i % 4) 0

lemma xorMaskLong_eq (data mask : Bytes) :
    xorMaskLong data mask = xorFrom (maskOctet mask) 0 data := by
  apply List.ext_getElem?
  intro i
  have hturn : ∀ (offset : ℕ) (masked : Bytes),
      (setStride 4 offset masked
        (translate (xorTable (mask.getD offset 0)) (stride 4 offset masked)))[i]? =
        if offset ≤ i ∧ 4 ∣ i - offset then masked[i]?.map (· ^^^ mask.getD offset 0)
        else masked[i]? := by
    intro offset masked
    rw [translate_xorTable]
    exact getElem?_setStride_map 3 _ offset masked i
  rw [getElem?_xorFrom, Nat.zero_add, xorMaskLong]
  simp only [List.range, List.range.loop, List.foldl_cons, List.foldl_nil, hturn, maskOctet]
  have h4 : i % 4 = 0 ∨ i % 4 = 1 ∨ i % 4 = 2 ∨ i % 4 = 3 := by omega
  rcases h4 with h | h | h | h
  all_goals
    rw [h]
    split_ifs <;> first | rfl | omega

lemma getElem?_flatten_replicate {mask : Bytes} (hmask : mask.length = 4) :
    ∀ (k i : ℕ), i < 4 * k → (List.replicate k mask).flatten[i]? = some (maskOctet mask i)
  | 0, i, h => absurd h (by omega)
  | k + 1, i, h => by
      rw [List.replicate_succ, List.flatten_cons]
      rcases Nat.lt_or_ge i 4 with hi | hi
      · rw [List.getElem?_append_left (by omega), maskOctet, Nat.mod_eq_of_lt hi,
          List.getD_eq_getElem?_getD, List.getElem?_eq_getElem (by omega)]
        rfl
      · rw [List.getElem?_append_right (by omega), hmask,
          getElem?_flatten_replicate hmask k (i - 4) (by omega), maskOctet, maskOctet,
          ← Nat.mod_eq_sub_mod hi]

lemma xorMaskShort_eq (data : Bytes) {mask : Bytes} (hmask : mask.length = 4) :
    xorMaskShort data mask = xorFrom (maskOctet mask) 0 data := by
  have hrep : ∀ i < data.length,
      ((List.replicate (data.length / 4 + 1) mask).flatten.take data.length)[i]? =
        some (maskOctet mask i) := by
    intro i hi
    rw [List.getElem?_take_of_lt hi, getElem?_flatten_replicate hmask _ _ (by omega)]
  have hlen : data.length =
      ((List.replicate (data.length / 4 + 1) mask).flatten.take data.length).length := by
    simp [hmask]
    omega
  rw [xorMaskShort, beBytes_beNat_xor hlen]
  apply List.ext_getElem?
  intro i
  rw [getElem?_xorFrom, Nat.zero_add, List.getElem?_zipWith]
  rcases Nat.lt_or_ge i data.length with hi | hi
  · rw [hrep i hi, List.getElem?_eq_getElem hi]
    rfl
  · rw [List.getElem?_eq_none hi]
    rfl

/-- **Both implementations of the mask XOR octet `i` with octet `i % 4` of the key.** -/
theorem xorMask_eq (data : Bytes) {mask : Bytes} (hmask : mask.length = 4) :
    xorMask data mask = xorFrom (maskOctet mask) 0 data := by
  unfold xorMask
  split_ifs with hnil
  · rw [hnil, xorFrom_nil]
  · exact xorMaskLong_eq data mask
  · exact xorMaskShort_eq data hmask

lemma xorMask_xorMask (data : Bytes) {mask : Bytes} (hmask : mask.length = 4) :
    xorMask (xorMask data mask) mask = data := by
  rw [xorMask_eq _ hmask, xorMask_eq _ hmask, xorFrom_xorFrom]

lemma length_xorMask (data : Bytes) {mask : Bytes} (hmask : mask.length = 4) :
    (xorMask data mask).length = data.length := by
  rw [xorMask_eq _ hmask, length_xorFrom]

/-- **The fast mask equals the plain one.**  On every payload and every four-octet key the result
is the octet-wise XOR with the key repeated, the strided path and the integer path agree whatever
the length, and masking twice restores the payload. -/
theorem xorMask_bytewise (data : Bytes) {mask : Bytes} (hmask : mask.length = 4) :
    (xorMask data mask).length = data.length ∧
    (∀ (i : ℕ) (hi : i < data.length) (hm : i % 4 < mask.length),
      (xorMask data mask)[i]? = some (data[i] ^^^ mask[i % 4])) ∧
    xorMaskLong data mask = xorMaskShort data mask ∧
    xorMask (xorMask data mask) mask = data := by
  refine ⟨length_xorMask data hmask, ?_, ?_, xorMask_xorMask data hmask⟩
  · intro i hi hm
    have hoctet : maskOctet mask i = mask[i % 4] := by
      rw [maskOctet, List.getD_eq_getElem?_getD, List.getElem?_eq_getElem hm]
      rfl
    rw [xorMask_eq data hmask, getElem?_xorFrom, Nat.zero_add, List.getElem?_eq_getElem hi, hoctet]
    rfl
  · rw [xorMaskLong_eq, xorMaskShort_eq data hmask]

/-- A payload on the strided path, and one that leaves no slice of the key whole. -/
theorem xorMask_bytewise_sample :
    (xorMask (List.replicate 515 7) [1, 0x7f, 0x80, 0xff]).length = 515 ∧
    xorMaskLong [9, 8, 7] [1, 0x7f, 0x80, 0xff] = xorMaskShort [9, 8, 7] [1, 0x7f, 0x80, 0xff] := by
  have hmask : ([1, 0x7f, 0x80, 0xff] : Bytes).length = 4 := rfl
  have hlong := xorMask_bytewise (List.replicate 515 7) hmask
  have hshort := xorMask_bytewise [9, 8, 7] hmask
  exact ⟨hlong.1.trans List.length_replicate, hshort.2.2.1⟩

/-! ## The code -/

/-- The four octets of `os.urandom(4)`. -/
structure MaskKey where
  octets : Bytes
  length_eq : octets.length = 4
  deriving DecidableEq

/-- What one call of `_read_frame` returns. -/
structure Frame where
  opcode : ℕ
  payload : Bytes
  fin : Bool
  deriving DecidableEq, Repr

/-- The exceptions of the reading side: `IncompleteReadError`, and `ConnectionError` with its
text. -/
inductive WsError
  | incomplete (e : IncompleteRead)
  | connection (text : String)
  deriving DecidableEq, Repr

/-- `MAX_MESSAGE_LEN`. -/
def maxMessageLen : ℕ := 16 * 1024 * 1024

/-- An unsigned field of `k` octets in a `struct.pack`; `none` is `struct.error`. -/
def packUint (k n : ℕ) : Option Bytes := if n < 256 ^ k then some (beBytes k n) else none

/-- `_build_frame(opcode, data, mask)`, with what `os.urandom` returned when it masks. -/
def buildFrame (opcode : ℕ) (data : Bytes) (mask : Option MaskKey) : Option Bytes := do
  let length := data.length
  let fb ← packUint 1 (0x80 ||| opcode)
  match mask with
  | none =>
      if length < 126 then
        return fb ++ (← packUint 1 length) ++ data
      if length < 65536 then
        return fb ++ (← packUint 1 126) ++ (← packUint 2 length) ++ data
      return fb ++ (← packUint 1 127) ++ (← packUint 8 length) ++ data
  | some maskKey =>
      let masked := xorMask data maskKey.octets
      if length < 126 then
        return fb ++ (← packUint 1 (0x80 ||| length)) ++ maskKey.octets ++ masked
      if length < 65536 then
        return fb ++ (← packUint 1 (0x80 ||| 126)) ++ (← packUint 2 length) ++ maskKey.octets
          ++ masked
      return fb ++ (← packUint 1 (0x80 ||| 127)) ++ (← packUint 8 length) ++ maskKey.octets
        ++ masked

/-- `readexactly(n)` inside `_read_frame`. -/
def recvExactly (n : ℕ) (r : StreamReader) : Except WsError Bytes × StreamReader :=
  match r.readexactly n with
  | (.error e, r') => (.error (.incomplete e), r')
  | (.ok a, r') => (.ok a, r')

/-- The length field of `_read_frame`, from the second octet of the header on. -/
def readLength (hdr1 : UInt8) (r : StreamReader) : Except WsError ℕ × StreamReader :=
  let length := (hdr1 &&& 0x7F).toNat
  if length = 126 then
    match recvExactly 2 r with
    | (.error e, r') => (.error e, r')
    | (.ok a, r') => (.ok (beNat a), r')
  else if length = 127 then
    match recvExactly 8 r with
    | (.error e, r') => (.error e, r')
    | (.ok a, r') => (.ok (beNat a), r')
  else (.ok length, r)

/-- What `_read_frame` reads behind the length. -/
def readPayload (hdr1 : UInt8) (length : ℕ) (r : StreamReader) :
    Except WsError Bytes × StreamReader :=
  if hdr1 &&& 0x80 ≠ 0 then
    match recvExactly 4 r with
    | (.error e, r') => (.error e, r')
    | (.ok maskKey, r') =>
        match recvExactly length r' with
        | (.error e, r'') => (.error e, r'')
        | (.ok payload, r'') => (.ok (xorMask payload maskKey), r'')
  else recvExactly length r

/-- `_read_frame()`. -/
def readFrame (r : StreamReader) : Except WsError Frame × StreamReader :=
  match recvExactly 2 r with
  | (.error e, r) => (.error e, r)
  | (.ok hdr, r) =>
      let hdr0 := hdr.getD 0 0
      let hdr1 := hdr.getD 1 0
      let fin := decide (hdr0 &&& 0x80 ≠ 0)
      let opcode := (hdr0 &&& 0x0F).toNat
      match readLength hdr1 r with
      | (.error e, r) => (.error e, r)
      | (.ok length, r) =>
          if maxMessageLen < length then
            (.error (.connection s!"WS frame too large: {length} bytes"), r)
          else
            match readPayload hdr1 length r with
            | (.error e, r) => (.error e, r)
            | (.ok payload, r) => (.ok ⟨opcode, payload, fin⟩, r)

/-! ## Frames on the wire -/

/-- The encodings of a payload length: the low seven bits of the second octet, and the extension
behind it. -/
inductive LengthField : ℕ → ℕ → Bytes → Prop
  | short (n : ℕ) (h : n < 126) : LengthField n n []
  | medium (n : ℕ) (h : n < 2 ^ 16) : LengthField n 126 (beBytes 2 n)
  | long (n : ℕ) (h : n < 2 ^ 64) : LengthField n 127 (beBytes 8 n)

/-- A frame of the protocol as octets: any header octets that say what the frame is, any encoding
of its length, masked or not. -/
inductive OnWire : Frame → Bytes → Prop
  | plain (b0 b1 : UInt8) {ext payload : Bytes}
      (hext : LengthField payload.length (b1 &&& 0x7F).toNat ext) (hbit : b1 &&& 0x80 = 0) :
      OnWire ⟨(b0 &&& 0x0F).toNat, payload, decide (b0 &&& 0x80 ≠ 0)⟩ (b0 :: b1 :: (ext ++ payload))
  | masked (b0 b1 : UInt8) {ext payload : Bytes} (key : MaskKey)
      (hext : LengthField payload.length (b1 &&& 0x7F).toNat ext) (hbit : b1 &&& 0x80 ≠ 0) :
      OnWire ⟨(b0 &&& 0x0F).toNat, payload, decide (b0 &&& 0x80 ≠ 0)⟩
        (b0 :: b1 :: (ext ++ (key.octets ++ xorMask payload key.octets)))

lemma recvExactly_eq_ok {n : ℕ} {r r' : StreamReader} {a : Bytes}
    (h : recvExactly n r = (.ok a, r')) : r.wire = a ++ r'.wire ∧ a.length = n := by
  rw [recvExactly] at h
  split at h
  · cases h
  · next b r₁ hb =>
      cases h
      exact StreamReader.readexactly_eq_ok hb

lemma readLength_le {b1 : UInt8} {n : ℕ} {r r' : StreamReader}
    (h : readLength b1 r = (.ok n, r')) : r'.wire.length ≤ r.wire.length := by
  have hext : ∀ k, (match recvExactly k r with
      | (.error e, r') => (.error e, r')
      | (.ok a, r') => (.ok (beNat a), r')) = ((.ok n, r') : Except WsError ℕ × StreamReader) →
      r'.wire.length ≤ r.wire.length := by
    intro k hk
    split at hk
    · cases hk
    · next a r₁ ha =>
        cases hk
        rw [(recvExactly_eq_ok ha).1, List.length_append]
        omega
  simp only [readLength] at h
  split_ifs at h
  · exact hext 2 h
  · exact hext 8 h
  · cases h
    exact le_rfl

lemma readPayload_le {b1 : UInt8} {n : ℕ} {a : Bytes} {r r' : StreamReader}
    (h : readPayload b1 n r = (.ok a, r')) : r'.wire.length ≤ r.wire.length := by
  have hread : ∀ {k : ℕ} {a : Bytes} {r r' : StreamReader}, recvExactly k r = (.ok a, r') →
      r'.wire.length ≤ r.wire.length := by
    intro k a r r' hk
    rw [(recvExactly_eq_ok hk).1, List.length_append]
    omega
  rw [readPayload] at h
  split_ifs at h
  · split at h
    · cases h
    · next key r₁ hkey =>
        split at h
        · cases h
        · next payload r₂ hpayload =>
            cases h
            exact (hread hpayload).trans (hread hkey)
  · exact hread h

/-- A frame that was read has consumed its header. -/
lemma readFrame_lt {f : Frame} {r r' : StreamReader} (h : readFrame r = (.ok f, r')) :
    r'.wire.length < r.wire.length := by
  simp only [readFrame] at h
  split at h
  · cases h
  · next hdr r₁ hhdr =>
      obtain ⟨hw, hlen⟩ := recvExactly_eq_ok hhdr
      have hpos : r₁.wire.length < r.wire.length := by
        rw [hw, List.length_append]
        omega
      split at h
      · cases h
      · next n r₂ hn =>
          split_ifs at h
          · cases h
          · split at h
            · cases h
            · next payload r₃ hpayload =>
                cases h
                exact (readPayload_le hpayload).trans_lt ((readLength_le hn).trans_lt hpos)

lemma recvExactly_append {n : ℕ} {a : Bytes} (h : a.length = n) (rest : Bytes) (ready : ℕ → ℕ) :
    recvExactly n ⟨a ++ rest, ready⟩ = (.ok a, ⟨rest, ready⟩) := by
  rw [recvExactly, StreamReader.readexactly_append_of_length h]

/-- Any encoding of a length is understood. -/
lemma readLength_append {n : ℕ} {b1 : UInt8} {ext : Bytes}
    (h : LengthField n (b1 &&& 0x7F).toNat ext) (rest : Bytes) (ready : ℕ → ℕ) :
    readLength b1 ⟨ext ++ rest, ready⟩ = (.ok n, ⟨rest, ready⟩) := by
  unfold readLength
  generalize (b1 &&& 0x7F).toNat = seven at h
  cases h with
  | short h =>
      simp only [List.nil_append]
      rw [if_neg (by omega), if_neg (by omega)]
  | medium h =>
      have hn : beNat (beBytes 2 n) = n := beNat_beBytes_of_lt (h.trans_eq (by norm_num))
      simp only [if_true, recvExactly_append (length_beBytes 2 n), hn]
  | long h =>
      have hn : beNat (beBytes 8 n) = n := beNat_beBytes_of_lt (h.trans_eq (by norm_num))
      simp [recvExactly_append (length_beBytes 8 n), hn]

/-- **A frame on the wire is read,** whatever follows it, and the reader stands behind it. -/
theorem readFrame_onWire {f : Frame} {bs : Bytes} (h : OnWire f bs)
    (hlen : f.payload.length ≤ maxMessageLen) (rest : Bytes) (ready : ℕ → ℕ) :
    readFrame ⟨bs ++ rest, ready⟩ = (.ok f, ⟨rest, ready⟩) := by
  cases h with
  | @plain b0 b1 ext payload hext hbit =>
      have hhdr := recvExactly_append (n := 2) (a := [b0, b1]) rfl (ext ++ (payload ++ rest)) ready
      have hlength := readLength_append hext (payload ++ rest) ready
      have hpay := recvExactly_append (n := payload.length) rfl rest ready
      simp only [List.cons_append, List.nil_append, List.append_assoc] at hhdr ⊢
      simp only [readFrame, hhdr, List.getD_cons_zero, List.getD_cons_succ, hlength,
        if_neg hlen.not_gt, readPayload, hbit, ne_eq, not_true, if_false, hpay]
  | @masked b0 b1 ext payload key hext hbit =>
      have hhdr := recvExactly_append (n := 2) (a := [b0, b1]) rfl
        (ext ++ (key.octets ++ (xorMask payload key.octets ++ rest))) ready
      have hlength := readLength_append hext
        (key.octets ++ (xorMask payload key.octets ++ rest)) ready
      have hkey := recvExactly_append key.length_eq (xorMask payload key.octets ++ rest) ready
      have hpay := recvExactly_append (length_xorMask payload key.length_eq) rest ready
      simp only [List.cons_append, List.nil_append, List.append_assoc] at hhdr ⊢
      simp only [readFrame, hhdr, List.getD_cons_zero, List.getD_cons_succ, hlength,
        if_neg hlen.not_gt, readPayload, hbit, ne_eq, not_false_eq_true, if_true, hkey, hpay,
        xorMask_xorMask payload key.length_eq]

/-- **A header that announces too much** is refused with nothing read behind the length field. -/
theorem readFrame_oversized (b0 b1 : UInt8) {n : ℕ} {ext : Bytes}
    (hext : LengthField n (b1 &&& 0x7F).toNat ext) (hlen : maxMessageLen < n) (rest : Bytes)
    (ready : ℕ → ℕ) :
    readFrame ⟨b0 :: b1 :: (ext ++ rest), ready⟩ =
      (.error (.connection s!"WS frame too large: {n} bytes"), ⟨rest, ready⟩) := by
  have hhdr := recvExactly_append (n := 2) (a := [b0, b1]) rfl (ext ++ rest) ready
  have hlength := readLength_append hext rest ready
  simp only [List.cons_append, List.nil_append] at hhdr
  simp only [readFrame, hhdr, List.getD_cons_zero, List.getD_cons_succ, hlength, if_pos hlen]

/-! ## Frames that were built -/

/-- The seven bits and the extension that `_build_frame` chooses. -/
def shortestField (n : ℕ) : ℕ × Bytes :=
  if n < 126 then (n, []) else if n < 65536 then (126, beBytes 2 n) else (127, beBytes 8 n)

lemma lengthField_shortestField {n : ℕ} (hn : n < 2 ^ 64) :
    LengthField n (shortestField n).1 (shortestField n).2 := by
  unfold shortestField
  split_ifs with h1 h2
  · exact .short n h1
  · exact .medium n h2
  · exact .long n hn

/-- No encoding of a length is shorter. -/
lemma shortestField_le {n seven : ℕ} {ext : Bytes} (h : LengthField n seven ext) :
    (shortestField n).2.length ≤ ext.length := by
  unfold shortestField
  cases h with
  | short h => rw [if_pos h]
  | medium h =>
      split_ifs
      · exact Nat.zero_le _
      · simp
      · omega
  | long h => split_ifs <;> simp

/-- The octets behind the length field. -/
def maskedBody (data : Bytes) : Option MaskKey → Bytes
  | none => data
  | some key => key.octets ++ xorMask data key.octets

/-- The second octet of the header. -/
def lengthOctet (n : ℕ) (mask : Option MaskKey) : UInt8 :=
  UInt8.ofNat ((if mask.isSome then 0x80 else 0) ||| (shortestField n).1)

lemma packUint_one {n : ℕ} (h : n < 256) : packUint 1 n = some [UInt8.ofNat n] := by
  rw [packUint, if_pos (by simpa using h)]
  rfl

lemma shortestField_fst_lt (n : ℕ) : (shortestField n).1 < 128 := by
  unfold shortestField
  split_ifs <;> (simp; try omega)

lemma or_lt {n : ℕ} (h : n < 128) : 0x80 ||| n < 256 :=
  Nat.or_lt_two_pow (n := 8) (by decide) (by omega)

/-- **What `_build_frame` returns,** where `struct` packs it. -/
lemma buildFrame_eq {opcode : ℕ} {data : Bytes} (mask : Option MaskKey)
    (hop : 0x80 ||| opcode < 256) (hlen : data.length < 2 ^ 64) :
    buildFrame opcode data mask = some (UInt8.ofNat (0x80 ||| opcode) ::
      lengthOctet data.length mask :: ((shortestField data.length).2 ++ maskedBody data mask)) := by
  have hfb := packUint_one hop
  have hone : ∀ n < 256, packUint 1 n = some [UInt8.ofNat n] := fun n hn => packUint_one hn
  have hmasked : ∀ n < 128, packUint 1 (0x80 ||| n) = some [UInt8.ofNat (0x80 ||| n)] :=
    fun n hn => packUint_one (or_lt hn)
  rcases Nat.lt_or_ge data.length 126 with h1 | h1
  · have hfield : shortestField data.length = (data.length, []) := by rw [shortestField, if_pos h1]
    have h128 : data.length < 128 := by omega
    cases mask with
    | none => simp [buildFrame, lengthOctet, maskedBody, hfield, hfb,
        hone _ (h128.trans (by decide)), h1]
    | some key => simp [buildFrame, lengthOctet, maskedBody, hfield, hfb, hmasked _ h128, h1]
  rcases Nat.lt_or_ge data.length 65536 with h2 | h2
  · have hfield : shortestField data.length = (126, beBytes 2 data.length) := by
      rw [shortestField, if_neg h1.not_gt, if_pos h2]
    have hext : packUint 2 data.length = some (beBytes 2 data.length) :=
      if_pos (h2.trans_eq (by norm_num))
    cases mask with
    | none =>
        simp [buildFrame, lengthOctet, maskedBody, hfield, hfb, hone 126, hext, h1.not_gt, h2]
    | some key =>
        simp [buildFrame, lengthOctet, maskedBody, hfield, hfb, hone 254, hext, h1.not_gt, h2]
  · have hfield : shortestField data.length = (127, beBytes 8 data.length) := by
      rw [shortestField, if_neg h1.not_gt, if_neg h2.not_gt]
    have hext : packUint 8 data.length = some (beBytes 8 data.length) :=
      if_pos (hlen.trans_eq (by norm_num))
    cases mask with
    | none =>
        simp [buildFrame, lengthOctet, maskedBody, hfield, hfb, hone 127, hext, h1.not_gt,
          h2.not_gt]
    | some key =>
        simp [buildFrame, lengthOctet, maskedBody, hfield, hfb, hone 255, hext, h1.not_gt,
          h2.not_gt]

/-- `struct.error` is raised for an opcode that does not fit its octet, or a length that does not
fit eight. -/
lemma buildFrame_eq_some {opcode : ℕ} {data bs : Bytes} {mask : Option MaskKey}
    (h : buildFrame opcode data mask = some bs) : 0x80 ||| opcode < 256 ∧ data.length < 2 ^ 64 := by
  constructor
  · by_contra hop
    have hfb : packUint 1 (0x80 ||| opcode) = none := if_neg (by simpa using hop)
    rw [buildFrame, hfb] at h
    cases h
  · by_contra hlen
    have hext : packUint 8 data.length = none := if_neg (by simpa using hlen)
    have h1 : ¬ data.length < 126 := by omega
    have h2 : ¬ data.length < 65536 := by omega
    cases mask <;> simp [buildFrame, hext, h1, h2] at h

lemma and_lengthOctet (n : ℕ) (mask : Option MaskKey) :
    (lengthOctet n mask &&& 0x7F).toNat = (shortestField n).1 ∧
      (lengthOctet n mask &&& 0x80 ≠ 0 ↔ mask.isSome) := by
  have hbits : ∀ k : Fin 128, (UInt8.ofNat (0 ||| k.val) &&& 0x7F).toNat = k.val ∧
      UInt8.ofNat (0 ||| k.val) &&& 0x80 = 0 ∧
      (UInt8.ofNat (0x80 ||| k.val) &&& 0x7F).toNat = k.val ∧
      UInt8.ofNat (0x80 ||| k.val) &&& 0x80 ≠ 0 := by decide
  obtain ⟨h1, h2, h3, h4⟩ := hbits ⟨_, shortestField_fst_lt n⟩
  cases mask with
  | none => exact ⟨h1, by simpa [lengthOctet] using h2⟩
  | some key => exact ⟨h3, by simpa [lengthOctet] using h4⟩

/-- **What `_build_frame` returns is its frame on the wire,** in the shortest encoding. -/
theorem onWire_buildFrame {opcode : ℕ} {data bs : Bytes} {mask : Option MaskKey}
    (hop : opcode < 16) (h : buildFrame opcode data mask = some bs) :
    OnWire ⟨opcode, data, true⟩ bs := by
  obtain ⟨hfb, hlen⟩ := buildFrame_eq_some h
  rw [buildFrame_eq mask hfb hlen] at h
  obtain rfl := Option.some.inj h
  have hbits : ∀ k : Fin 16, (UInt8.ofNat (0x80 ||| k.val) &&& 0x0F).toNat = k.val ∧
      UInt8.ofNat (0x80 ||| k.val) &&& 0x80 ≠ 0 := by decide
  obtain ⟨hopcode, hfin⟩ := hbits ⟨opcode, hop⟩
  obtain ⟨hseven, hmask⟩ := and_lengthOctet data.length mask
  have hext := lengthField_shortestField hlen
  rw [← hseven] at hext
  have hframe : (⟨opcode, data, true⟩ : Frame) = ⟨(UInt8.ofNat (0x80 ||| opcode) &&& 0x0F).toNat,
      data, decide (UInt8.ofNat (0x80 ||| opcode) &&& 0x80 ≠ 0)⟩ := by
    rw [hopcode, decide_eq_true hfin]
  rw [hframe]
  cases mask with
  | none => exact .plain _ _ hext (by simpa using hmask)
  | some key => exact .masked _ _ key hext (hmask.mpr rfl)

/-- A frame that may be built: a four-bit opcode and a payload that the other side accepts. -/
structure OutFrame where
  opcode : ℕ
  payload : Bytes
  mask : Option MaskKey
  opcode_lt : opcode < 16
  length_le : payload.length ≤ maxMessageLen

namespace OutFrame

/-- Its octets. -/
def build (f : OutFrame) : Option Bytes := buildFrame f.opcode f.payload f.mask

/-- What it is read as. -/
def received (f : OutFrame) : Frame := ⟨f.opcode, f.payload, true⟩

lemma exists_build (f : OutFrame) : ∃ bs, f.build = some bs := by
  have hlen := f.length_le
  have hop := f.opcode_lt
  exact ⟨_, buildFrame_eq f.mask (or_lt (by omega)) (by unfold maxMessageLen at hlen; omega)⟩

end OutFrame

/-- Successive calls of `_read_frame`. -/
def readFrames : ℕ → StreamReader → Except WsError (List Frame) × StreamReader
  | 0, r => (.ok [], r)
  | k + 1, r =>
      match readFrame r with
      | (.error e, r) => (.error e, r)
      | (.ok f, r) =>
          match readFrames k r with
          | (.error e, r) => (.error e, r)
          | (.ok fs, r) => (.ok (f :: fs), r)

lemma readFrames_build (fs : List OutFrame) :
    ∃ wires : List Bytes, fs.mapM OutFrame.build = some wires ∧
      ∀ (rest : Bytes) (ready : ℕ → ℕ), readFrames fs.length ⟨wires.flatten ++ rest, ready⟩ =
        (.ok (fs.map OutFrame.received), ⟨rest, ready⟩) := by
  induction fs with
  | nil => exact ⟨[], rfl, fun _ _ => rfl⟩
  | cons f fs ih =>
      obtain ⟨wires, hbuild, hread⟩ := ih
      obtain ⟨bs, hbs⟩ := f.exists_build
      refine ⟨bs :: wires, by simp [List.mapM_cons, hbs, hbuild], ?_⟩
      intro rest ready
      have hframe := readFrame_onWire (onWire_buildFrame f.opcode_lt hbs) f.length_le
        (wires.flatten ++ rest) ready
      rw [List.flatten_cons, List.append_assoc, List.length_cons, readFrames, hframe]
      simp only [hread, List.map_cons, OutFrame.received]

/-- **Decoding undoes encoding.**  Any frames that were built, with anything behind them, are read
back; their lengths are in the shortest encoding; and a header that announces too much is refused
before anything behind the length is read. -/
theorem readFrames_buildFrames :
    (∀ fs : List OutFrame, ∃ wires : List Bytes, fs.mapM OutFrame.build = some wires ∧
      ∀ (rest : Bytes) (ready : ℕ → ℕ), readFrames fs.length ⟨wires.flatten ++ rest, ready⟩ =
        (.ok (fs.map OutFrame.received), ⟨rest, ready⟩)) ∧
    (∀ (opcode : ℕ) (data bs : Bytes) (mask : Option MaskKey),
      buildFrame opcode data mask = some bs →
      ∃ b0 b1 ext, bs = b0 :: b1 :: (ext ++ maskedBody data mask) ∧
        LengthField data.length (b1 &&& 0x7F).toNat ext ∧
        ∀ seven ext', LengthField data.length seven ext' → ext.length ≤ ext'.length) ∧
    (∀ (b0 b1 : UInt8) (n : ℕ) (ext : Bytes), LengthField n (b1 &&& 0x7F).toNat ext →
      maxMessageLen < n → ∀ (rest : Bytes) (ready : ℕ → ℕ),
        readFrame ⟨b0 :: b1 :: (ext ++ rest), ready⟩ =
          (.error (.connection s!"WS frame too large: {n} bytes"), ⟨rest, ready⟩)) := by
  refine ⟨readFrames_build, ?_, fun b0 b1 n ext => readFrame_oversized b0 b1⟩
  intro opcode data bs mask h
  obtain ⟨hfb, hlen⟩ := buildFrame_eq_some h
  rw [buildFrame_eq mask hfb hlen] at h
  refine ⟨_, _, _, (Option.some.inj h).symm, ?_, fun seven ext' => shortestField_le⟩
  rw [(and_lengthOctet data.length mask).1]
  exact lengthField_shortestField hlen

/-- A masked text frame of two octets, and a header that announces 2 ^ 40 octets. -/
theorem readFrames_buildFrames_sample :
    (∃ b0 b1 ext, ([0x81, 0x82, 1, 2, 3, 4, 8, 8] : Bytes) =
        b0 :: b1 :: (ext ++ maskedBody [9, 10] (some ⟨[1, 2, 3, 4], rfl⟩)) ∧
        LengthField 2 (b1 &&& 0x7F).toNat ext ∧
        ∀ seven ext', LengthField 2 seven ext' → ext.length ≤ ext'.length) ∧
      ∀ (rest : Bytes) (ready : ℕ → ℕ), readFrame ⟨0x82 :: 127 ::
          (beBytes 8 (2 ^ 40) ++ rest), ready⟩ =
          (.error (.connection "WS frame too large: 1099511627776 bytes"), ⟨rest, ready⟩) :=
  ⟨readFrames_buildFrames.2.1 1 [9, 10] _ (some ⟨[1, 2, 3, 4], rfl⟩) (by decide),
    readFrames_buildFrames.2.2 0x82 127 _ _ (.long (2 ^ 40) (by decide)) (by decide)⟩

end TgWsProxy
