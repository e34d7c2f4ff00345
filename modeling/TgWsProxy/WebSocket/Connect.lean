import TgWsProxy.Core.Utf8
import TgWsProxy.Settings
import TgWsProxy.WebSocket.Traffic

/-!
# Opening a WebSocket

`RawWebSocket.connect` of `proxy/raw_websocket.py`, and `_WsPool._connect_one` of `proxy/pool.py`,
which dials until a connection is there.

* `upgradeRequest`, `readHead`, `connect` — the code of one dial.
* `Attempt`, `connectOne` — one dial after another.
* `Head` — how a stream begins with the head of an answer.
* `readHead_iff` — what is read of a stream is its head, and nothing behind it.
* **`connect_hands_over`** — a connection is handed over exactly when the head says 101, with the
  frames behind it still to be read; else it is closed.
* **`connectOne_hands_over`** — of all connections that were opened the one that is returned is
  open, and it is returned as soon as one dial succeeds.
-/

namespace TgWsProxy

open Wire

/-! ## One dial -/

/-- What is raised from outside: an exception, or the cancellation of the task. -/
inductive Raised
  | exception
  | cancelled
  deriving DecidableEq, Repr

/-- What `open_connection` is asked for: `tls` says whether the name of the certificate is checked,
and which name is asked for. -/
structure Target where
  host : List Char
  port : ℕ
  tls : Option (Bool × List Char)
  deriving DecidableEq

/-- The arguments of `RawWebSocket.connect` but for the time it may take. -/
structure DialArgs where
  host : List Char
  domain : List Char
  path : String
  sni : Option (List Char)
  secure : Bool

/-- `asyncio.open_connection(...)`. -/
def DialArgs.target (args : DialArgs) : Target :=
  if args.secure then
    ⟨args.host, 443, some (args.sni.getD [] = [], args.sni.getD args.domain)⟩
  else ⟨args.host, 80, none⟩

/-- What becomes of a dial: `opened` of `open_connection`, `sock` the socket of its transport,
`drained` of `drain()`, `waits k` of the wait for line `k`. -/
structure Dial where
  opened : Except Raised StreamReader
  sock : Option Settings.Socket
  drained : Option Raised
  waits : ℕ → Option Raised

/-- A connection that was opened: what was written on it and whether `writer.close()` was called. -/
structure Conn where
  written : Bytes
  closed : Bool
  deriving DecidableEq, Repr

/-- `WsHandshakeError`. -/
structure WsHandshakeError where
  statusCode : ℤ
  statusLine : List Char
  headers : Dict (List Char) (List Char)
  location : Option (List Char)

/-- How `connect` ends. -/
inductive Connected
  | ws (ws : RawWebSocket)
  | refused (e : WsHandshakeError)
  | raised (e : Raised)

/-- A digit of `base64`. -/
def base64Digit (n : ℕ) : UInt8 :=
  UInt8.ofNat (if n < 26 then 65 + n else if n < 52 then 71 + n else if n < 62 then n - 4
    else if n = 62 then 43 else 47)

/-- `base64.b64encode(bs)`. -/
def base64 : Bytes → Bytes
  | [] => []
  | [a] => [base64Digit (a.toNat / 4), base64Digit (a.toNat % 4 * 16), 61, 61]
  | [a, b] =>
      [base64Digit (a.toNat / 4), base64Digit (a.toNat % 4 * 16 + b.toNat / 16),
        base64Digit (b.toNat % 16 * 4), 61]
  | a :: b :: c :: rest =>
      base64Digit (a.toNat / 4) :: base64Digit (a.toNat % 4 * 16 + b.toNat / 16) ::
        base64Digit (b.toNat % 16 * 4 + c.toNat / 64) :: base64Digit (c.toNat % 64) :: base64 rest

/-- `req.encode()`. -/
def upgradeRequest (path : String) (domain : List Char) (wsKey : Bytes) : Bytes :=
  ("GET " ++ path ++ " HTTP/1.1\r\n" ++ "Host: " ++ String.ofList domain ++ "\r\n" ++
    "Upgrade: websocket\r\n" ++ "Connection: Upgrade\r\n" ++ "Sec-WebSocket-Key: ").toUTF8.toList
  ++ wsKey ++ ("\r\n" ++ "Sec-WebSocket-Version: 13\r\n" ++
    "Sec-WebSocket-Protocol: binary\r\n" ++ "\r\n").toUTF8.toList

/-- A line that ends the head. -/
def IsBlank (line : Bytes) : Prop := line = [13, 10] ∨ line = [10] ∨ line = []

instance (line : Bytes) : Decidable (IsBlank line) := inferInstanceAs (Decidable (_ ∨ _ ∨ _))

/-- The lines up to a blank one, from line `k` on. -/
def readHead (waits : ℕ → Option Raised) (k : ℕ) (r : StreamReader) :
    Except Raised (List Bytes × StreamReader) :=
  match waits k with
  | some e => .error e
  | none =>
      match _h : r.readline with
      | none => .error .exception
      | some (line, r') =>
          if _hblank : IsBlank line then .ok ([], r')
          else
            match readHead waits (k + 1) r' with
            | .error e => .error e
            | .ok (lines, r'') => .ok (line :: lines, r'')
termination_by r.wire.length
decreasing_by exact StreamReader.readline_lt _h fun h => _hblank (Or.inr (Or.inr h))

section Code

variable (decimal : Char → Option (Fin 10)) (lower : List Char → List Char)

/-- `line.decode('utf-8', errors='replace').strip()`. -/
def headLine (line : Bytes) : List Char := strip (decodeUtf8 line)

/-- `status_code`: the second of the parts between blanks. -/
def statusCode (firstLine : List Char) : ℤ :=
  match firstLine.dropWhile (· ≠ ' ') with
  | [] => 0
  | _ :: rest => (integer decimal (rest.takeWhile (· ≠ ' '))).getD 0

/-- `headers`. -/
def headersOf (lines : List (List Char)) : Dict (List Char) (List Char) :=
  lines.foldl (fun headers hl =>
    if ':' ∈ hl then
      headers.set (lower (strip (hl.takeWhile (· ≠ ':'))))
        (strip ((hl.dropWhile (· ≠ ':')).drop 1))
    else headers) .empty

/-- What `connect` makes of the head. -/
def judge (lines : List Bytes) (r : StreamReader) : Connected :=
  match lines.map headLine with
  | [] => .refused ⟨0, "empty response".toList, .empty, none⟩
  | firstLine :: rest =>
      if statusCode decimal firstLine = 101 then .ws (.new r)
      else
        let headers := headersOf lower rest
        .refused ⟨statusCode decimal firstLine, firstLine, headers,
          headers.get? "location".toList⟩

/-- The body of the `try` of `connect`, and what it writes. -/
def shakeHands (bufferSize : ℤ) (request : Bytes) (d : Dial) (r : StreamReader) :
    Connected × Bytes :=
  match Settings.setSockOpts d.sock bufferSize with
  | .error _ => (.raised .exception, [])
  | .ok () =>
      match d.drained with
      | some e => (.raised e, request)
      | none =>
          match readHead d.waits 0 r with
          | .error e => (.raised e, request)
          | .ok (lines, r) => (judge decimal lower lines r, request)

/-- `RawWebSocket.connect`, and the connection, where one was opened. -/
def connect (bufferSize : ℤ) (urandom : Bytes) (net : Target → Dial) (args : DialArgs) :
    Connected × Option Conn :=
  match (net args.target).opened with
  | .error e => (.raised e, none)
  | .ok r =>
      let request := upgradeRequest args.path args.domain (base64 urandom)
      match shakeHands decimal lower bufferSize request (net args.target) r with
      | (.ws ws, written) => (.ws ws, some ⟨written, false⟩)
      -- except BaseException: writer.close(); raise
      | (failed, written) => (failed, some ⟨written, true⟩)

/-! ## One dial after another -/

/-- A turn of the loops of `_connect_one`. -/
structure Attempt where
  domain : List Char
  fronted : Bool
  deriving DecidableEq, Repr

/-- The turns, in order.  `try_fronting_first` is read for each domain; other tasks may have set it
meanwhile. -/
def attemptsFrom (frontingFirst : ℕ → Bool) (i : ℕ) : List (List Char) → List Attempt
  | [] => []
  | domain :: domains =>
      (if frontingFirst i then [⟨domain, true⟩, ⟨domain, false⟩]
        else [⟨domain, false⟩, ⟨domain, true⟩]) ++ attemptsFrom frontingFirst (i + 1) domains

/-- The arguments of a turn. -/
def Attempt.args (a : Attempt) (targetIp : List Char) (path : String) : DialArgs :=
  ⟨targetIp, a.domain, path, if a.fronted then some "sprinthost.ru".toList else none, true⟩

/-- How `_connect_one` ends: what it returns, unless it is cancelled; the connections of its dials,
in order; and what it sets `try_fronting_first` to. -/
structure Dialled where
  result : Option (Option RawWebSocket)
  conns : List (Option Conn)
  frontingFirst : Option Bool

/-- The turns `as`, from dial `n` on. -/
def connectTurns (dial : ℕ → Attempt → Connected × Option Conn) (n : ℕ) : List Attempt → Dialled
  | [] => ⟨some none, [], none⟩
  | a :: as =>
      match dial n a with
      | (.ws ws, conn) => ⟨some (some ws), [conn], some a.fronted⟩
      | (.raised .cancelled, conn) => ⟨none, [conn], none⟩
      -- except Exception: continue
      | (_, conn) =>
          let later := connectTurns dial (n + 1) as
          { later with conns := conn :: later.conns }

/-- Dial `n` of `_connect_one`. -/
def dialTurn (bufferSize : ℤ) (urandom : ℕ → Bytes) (net : ℕ → Target → Dial)
    (targetIp : List Char) (path : String) (n : ℕ) (a : Attempt) : Connected × Option Conn :=
  connect decimal lower bufferSize (urandom n) (net n) (a.args targetIp path)

/-- `_WsPool._connect_one(target_ip, domains, path)`. -/
def connectOne (bufferSize : ℤ) (urandom : ℕ → Bytes) (net : ℕ → Target → Dial)
    (frontingFirst : ℕ → Bool) (targetIp : List Char) (domains : List (List Char))
    (path : String) : Dialled :=
  connectTurns (dialTurn decimal lower bufferSize urandom net targetIp path) 0
    (attemptsFrom frontingFirst 0 domains)

end Code

/-! ## The head of an answer -/

/-- `wire` begins with the head `lines`, which a blank line ends, and `rest` is behind that; or it
is over before the blank line. -/
inductive Head : Bytes → List Bytes → Bytes → Prop
  | crlf (rest : Bytes) : Head (13 :: 10 :: rest) [] rest
  | lf (rest : Bytes) : Head (10 :: rest) [] rest
  | ended : Head [] [] []
  | line {text wire rest : Bytes} {lines : List Bytes} (hne : text ≠ []) (hcr : text ≠ [13])
      (hlf : 10 ∉ text) (hlen : text.length ≤ readerLimit) (h : Head wire lines rest) :
      Head (text ++ 10 :: wire) ((text ++ [10]) :: lines) rest
  | cut {text : Bytes} (hne : text ≠ []) (hlf : 10 ∉ text) (hlen : text.length ≤ readerLimit) :
      Head text [text] []

lemma Head.eq_nil {wire rest : Bytes} {lines : List Bytes} (h : Head wire lines rest)
    (hwire : wire = []) : lines = [] ∧ rest = [] := by
  cases h with
  | crlf | lf => cases hwire
  | ended => exact ⟨rfl, rfl⟩
  | line => simp at hwire
  | cut hne => exact absurd hwire hne

lemma isBlank_append {text : Bytes} : IsBlank (text ++ [10]) ↔ text = [13] ∨ text = [] := by
  constructor
  · rintro (h | h | h)
    · exact Or.inl (List.append_cancel_right (show text ++ [10] = [13] ++ [10] from h))
    · exact Or.inr (List.append_cancel_right (show text ++ [10] = [] ++ [10] from h))
    · exact absurd h (by simp)
  · rintro (rfl | rfl)
    · exact Or.inl rfl
    · exact Or.inr (Or.inl rfl)

lemma isBlank_of_not_mem {text : Bytes} (hlf : 10 ∉ text) : IsBlank text ↔ text = [] := by
  constructor
  · rintro (rfl | rfl | h)
    · exact absurd hlf (by decide)
    · exact absurd hlf (by decide)
    · exact h
  · exact fun h => Or.inr (Or.inr h)

/-- The head is over with a blank line, or the stream. -/
lemma head_nil_iff {r r' : StreamReader} : Head r.wire [] r'.wire ∧ r'.ready = r.ready ↔
    ∃ line, r.readline = some (line, r') ∧ IsBlank line := by
  obtain ⟨wire, ready⟩ := r
  obtain ⟨rest, ready'⟩ := r'
  constructor
  · rintro ⟨h, hready⟩
    cases hready
    cases h with
    | crlf =>
        have hline := StreamReader.readline_append (show (10 : UInt8) ∉ [13] by decide) rest ready
        exact ⟨[13, 10], hline.trans (if_neg (by decide)), Or.inl rfl⟩
    | lf =>
        have hline := StreamReader.readline_append (show (10 : UInt8) ∉ [] by decide) rest ready
        exact ⟨[10], hline.trans (if_neg (by decide)), Or.inr (Or.inl rfl)⟩
    | ended =>
        have hline := StreamReader.readline_of_not_mem (show (10 : UInt8) ∉ [] by decide) ready
        exact ⟨[], hline.trans (if_neg (by decide)), Or.inr (Or.inr rfl)⟩
  · rintro ⟨line, h, hblank⟩
    obtain ⟨hready, ⟨text, rfl, -, -, hwire⟩ | ⟨hlf, -, hwire, hend⟩⟩ :=
      StreamReader.readline_eq_some h
    · cases hready
      cases hwire
      rcases isBlank_append.mp hblank with rfl | rfl
      · exact ⟨.crlf rest, rfl⟩
      · exact ⟨.lf rest, rfl⟩
    · cases hready
      cases hwire
      cases hend
      obtain rfl := (isBlank_of_not_mem hlf).mp hblank
      exact ⟨.ended, rfl⟩

/-- Any other line comes before the rest of the head. -/
lemma head_cons_iff {r : StreamReader} {line rest : Bytes} {lines : List Bytes} :
    Head r.wire (line :: lines) rest ↔
      ∃ r', r.readline = some (line, r') ∧ ¬ IsBlank line ∧ r'.ready = r.ready ∧
        Head r'.wire lines rest := by
  obtain ⟨wire, ready⟩ := r
  constructor
  · intro h
    cases h with
    | @line text wire _ _ hne hcr hlf hlen h =>
        refine ⟨⟨wire, ready⟩, ?_, fun hblank => ?_, rfl, h⟩
        · exact (StreamReader.readline_append hlf wire ready).trans (if_neg (not_lt.mpr hlen))
        · exact (isBlank_append.mp hblank).elim hcr hne
    | cut hne hlf hlen =>
        refine ⟨⟨[], ready⟩, ?_, fun hblank => hne ((isBlank_of_not_mem hlf).mp hblank), rfl,
          .ended⟩
        exact (StreamReader.readline_of_not_mem hlf ready).trans (if_neg (not_lt.mpr hlen))
  · rintro ⟨r', h, hblank, -, hrest⟩
    obtain ⟨-, ⟨text, rfl, hlf, hlen, hwire⟩ | ⟨hlf, hlen, hwire, hend⟩⟩ :=
      StreamReader.readline_eq_some h
    · rw [hwire]
      exact .line (fun h => hblank (isBlank_append.mpr (Or.inr h)))
        (fun h => hblank (isBlank_append.mpr (Or.inl h))) hlf hlen hrest
    · obtain ⟨rfl, rfl⟩ := hrest.eq_nil hend
      rw [hwire]
      exact .cut (fun h => hblank ((isBlank_of_not_mem hlf).mpr h)) hlf hlen

lemma readHead_of_blank {waits : ℕ → Option Raised} {k : ℕ} {r r' : StreamReader} {line : Bytes}
    (hwait : waits k = none) (hline : r.readline = some (line, r')) (hblank : IsBlank line) :
    readHead waits k r = .ok ([], r') := by
  rw [readHead, hwait]
  dsimp only
  split
  · next hnone => cases hline.symm.trans hnone
  · next heq =>
      cases hline.symm.trans heq
      exact dif_pos hblank

lemma readHead_of_line {waits : ℕ → Option Raised} {k : ℕ} {r r' : StreamReader} {line : Bytes}
    (hwait : waits k = none) (hline : r.readline = some (line, r')) (hblank : ¬ IsBlank line) :
    readHead waits k r = (readHead waits (k + 1) r').map fun p => (line :: p.1, p.2) := by
  rw [readHead, hwait]
  dsimp only
  split
  · next hnone => cases hline.symm.trans hnone
  · next heq =>
      cases hline.symm.trans heq
      rw [dif_neg hblank]
      rcases readHead waits (k + 1) r' with e | ⟨lines, r''⟩ <;> rfl

/-- The loop reads one line more, or is done. -/
lemma readHead_cases {waits : ℕ → Option Raised} {k : ℕ} {r r' : StreamReader}
    {lines : List Bytes} (h : readHead waits k r = .ok (lines, r')) :
    waits k = none ∧ ∃ line r₁, r.readline = some (line, r₁) ∧
      (IsBlank line ∧ lines = [] ∧ r₁ = r' ∨
        ¬ IsBlank line ∧ ∃ later, lines = line :: later ∧
          readHead waits (k + 1) r₁ = .ok (later, r')) := by
  rcases hwait : waits k with - | e
  · refine ⟨rfl, ?_⟩
    rcases hline : r.readline with - | ⟨line, r₁⟩
    · rw [readHead, hwait] at h
      dsimp only at h
      split at h
      · cases h
      · next heq => cases hline.symm.trans heq
    · refine ⟨line, r₁, rfl, ?_⟩
      by_cases hblank : IsBlank line
      · rw [readHead_of_blank hwait hline hblank] at h
        cases h
        exact Or.inl ⟨hblank, rfl, rfl⟩
      · rw [readHead_of_line hwait hline hblank] at h
        rcases hlater : readHead waits (k + 1) r₁ with e | ⟨later, r₂⟩
        · rw [hlater] at h
          cases h
        · rw [hlater] at h
          cases h
          exact Or.inr ⟨hblank, later, rfl, rfl⟩
  · rw [readHead, hwait] at h
    cases h

/-- What the loop reads of a stream is its head. -/
theorem readHead_iff {waits : ℕ → Option Raised} : ∀ {lines : List Bytes} {k : ℕ}
    {r r' : StreamReader}, readHead waits k r = .ok (lines, r') ↔
      Head r.wire lines r'.wire ∧ r'.ready = r.ready ∧ ∀ i ≤ lines.length, waits (k + i) = none
  | [], k, r, r' => by
      rw [← and_assoc, head_nil_iff]
      constructor
      · intro h
        obtain ⟨hwait, line, r₁, hline, ⟨hblank, -, rfl⟩ | ⟨-, later, hlines, -⟩⟩ :=
          readHead_cases h
        · refine ⟨⟨line, hline, hblank⟩, fun i hi => ?_⟩
          obtain rfl := Nat.le_zero.mp hi
          exact hwait
        · cases hlines
      · rintro ⟨⟨line, hline, hblank⟩, hwaits⟩
        exact readHead_of_blank (hwaits 0 le_rfl) hline hblank
  | line :: lines, k, r, r' => by
      rw [head_cons_iff]
      constructor
      · intro h
        obtain ⟨hwait, line', r₁, hline, ⟨-, hlines, -⟩ | ⟨hblank, later, hlines, hlater⟩⟩ :=
          readHead_cases h
        · cases hlines
        · cases hlines
          obtain ⟨hhead, hready, hwaits⟩ := readHead_iff.mp hlater
          have hready₁ := (StreamReader.readline_eq_some hline).1
          refine ⟨⟨r₁, hline, hblank, hready₁, hhead⟩, hready.trans hready₁, fun i hi => ?_⟩
          cases i with
          | zero => exact hwait
          | succ i =>
              rw [Nat.add_comm i 1, ← Nat.add_assoc]
              exact hwaits i (Nat.le_of_succ_le_succ hi)
      · rintro ⟨⟨r₁, hline, hblank, hready₁, hhead⟩, hready, hwaits⟩
        have hwait : waits k = none := hwaits 0 (Nat.zero_le _)
        rw [readHead_of_line hwait hline hblank,
          readHead_iff.mpr ⟨hhead, hready.trans hready₁.symm, fun i hi => ?_⟩]
        · rfl
        · have hnext := hwaits (i + 1) (Nat.succ_le_succ hi)
          rwa [Nat.add_comm i 1, ← Nat.add_assoc] at hnext

/-! ## The status -/

section Status

variable (decimal : Char → Option (Fin 10)) {proto reason : Bytes} {n : ℕ}

/-- An octet of a protocol's name. -/
def IsVisible (b : UInt8) : Prop := 0x20 < b.toNat ∧ b.toNat < 0x7f

instance (b : UInt8) : Decidable (IsVisible b) := inferInstanceAs (Decidable (_ ∧ _))

/-- `HTTP/1.1 101 Switching Protocols`. -/
def statusLine (proto : Bytes) (n : ℕ) (reason : Bytes) : Bytes :=
  (proto ++ 32 :: (decimalText n).map (fun c => UInt8.ofNat c.toNat) ++ [32]) ++ reason

lemma toNat_ofNat_of_lt {n : ℕ} (h : n < 0x80) : (Char.ofNat n).toNat = n := by
  have hvalid : n.isValidChar := Or.inl (by omega)
  rw [Char.ofNat, dif_pos hvalid]
  rfl

lemma IsVisible.not_isSpace {b : UInt8} (h : IsVisible b) :
    isSpace (Char.ofNat b.toNat) = false := by
  obtain ⟨hlow, hhigh⟩ := h
  have hnat := toNat_ofNat_of_lt (show b.toNat < 0x80 by omega)
  simp only [isSpace, hnat]
  simp
  omega

lemma not_isSpace_of_isDigit {c : Char} (h : c.isDigit = true) : isSpace c = false := by
  obtain ⟨hlow, hhigh⟩ := toNat_of_isDigit h
  simp only [isSpace]
  simp
  omega

lemma isDigit_of_mem_decimalText {c : Char} (h : c ∈ decimalText n) : c.isDigit = true := by
  obtain ⟨d, hd, rfl⟩ := List.mem_map.mp h
  exact isDigit_digitChar (lt_ten_of_mem_decimalDigits hd)

lemma decode_statusLine (hproto : ∀ b ∈ proto, IsVisible b) :
    decodeUtf8 (statusLine proto n reason) = proto.map (fun b => Char.ofNat b.toNat) ++
      ' ' :: decimalText n ++ ' ' :: decodeUtf8 reason := by
  have hdigits : ((decimalText n).map fun c => UInt8.ofNat c.toNat).map
      (fun b => Char.ofNat b.toNat) = decimalText n := by
    rw [List.map_map]
    refine (List.map_congr_left fun c hc => ?_).trans (List.map_id _)
    have hle := (toNat_of_isDigit (isDigit_of_mem_decimalText hc)).2
    simp only [Function.comp_apply, UInt8.toNat_ofNat', id]
    rw [Nat.mod_eq_of_lt (by omega), Char.ofNat_toNat]
  rw [statusLine, decodeUtf8_append_of_ascii]
  · simp [hdigits]
  · intro b hb
    simp only [List.mem_append, List.mem_cons, List.mem_map, List.not_mem_nil, or_false] at hb
    rcases hb with (hb | rfl | ⟨c, hc, rfl⟩) | rfl
    · exact (hproto b hb).2.trans (by decide)
    · decide
    · have hle := (toNat_of_isDigit (isDigit_of_mem_decimalText hc)).2
      rw [UInt8.toNat_ofNat']
      omega
    · decide

/-- Only what stands behind the last other character is white space at the end. -/
lemma rdropWhile_append {p : Char → Bool} {x : Char} (hx : p x = false) (xs ys : List Char) :
    (xs ++ [x] ++ ys).rdropWhile p = xs ++ [x] ++ ys.rdropWhile p := by
  induction ys using List.reverseRecOn with
  | nil => simp [hx]
  | append_singleton ys y ih =>
      rw [← List.append_assoc, List.rdropWhile_concat, List.rdropWhile_concat]
      split_ifs
      · exact ih
      · rw [List.append_assoc]

variable (reason n) in
/-- The text of a line with a status. -/
lemma headLine_statusLine (hne : proto ≠ []) (hproto : ∀ b ∈ proto, IsVisible b) :
    ∃ later, headLine (statusLine proto n reason) =
        proto.map (fun b => Char.ofNat b.toNat) ++ ' ' :: (decimalText n ++ later) ∧
      later.takeWhile (· ≠ ' ') = [] := by
  obtain ⟨b, bs, rfl⟩ := List.exists_cons_of_ne_nil hne
  obtain ⟨ds, d, hdigits⟩ : ∃ ds d, decimalText n = ds ++ [d] :=
    (List.eq_nil_or_concat' (decimalText n)).resolve_left
      (mt List.map_eq_nil_iff.mp (decimalDigits_ne_nil n))
  have hfirst := (hproto b List.mem_cons_self).not_isSpace
  have hlast : isSpace d = false :=
    not_isSpace_of_isDigit (isDigit_of_mem_decimalText (n := n) (by simp [hdigits]))
  refine ⟨(' ' :: decodeUtf8 reason).rdropWhile isSpace, ?_, ?_⟩
  · have hcut := rdropWhile_append hlast
      ((b :: bs).map (fun b => Char.ofNat b.toNat) ++ ' ' :: ds) (' ' :: decodeUtf8 reason)
    rw [headLine, strip, decode_statusLine hproto, hdigits]
    simp only [List.map_cons, List.cons_append, List.append_assoc, List.nil_append,
      List.dropWhile_cons, hfirst] at hcut ⊢
    exact hcut
  · have hpre := List.rdropWhile_prefix isSpace (l := ' ' :: decodeUtf8 reason)
    generalize (' ' :: decodeUtf8 reason).rdropWhile isSpace = later at hpre ⊢
    cases later with
    | nil => rfl
    | cons c later =>
        obtain rfl := (List.cons_prefix_cons.mp hpre).1
        rfl

/-- The status that a line gives is the one that is read. -/
lemma statusCode_statusLine (hne : proto ≠ []) (hproto : ∀ b ∈ proto, IsVisible b)
    (hn : n < 10 ^ maxStrDigits) :
    statusCode decimal (headLine (statusLine proto n reason)) = n := by
  obtain ⟨later, hline, hlater⟩ := headLine_statusLine reason n hne hproto
  have hnot : ∀ c ∈ proto.map (fun b => Char.ofNat b.toNat), decide (c ≠ ' ') = true := by
    intro c hc
    obtain ⟨b, hb, rfl⟩ := List.mem_map.mp hc
    refine decide_eq_true fun h => ?_
    have hspace := (hproto b hb).not_isSpace
    rw [h] at hspace
    exact absurd hspace (by decide)
  have hdigits : ∀ c ∈ decimalText n, decide (c ≠ ' ') = true := by
    intro c hc
    refine decide_eq_true fun h => ?_
    have hdigit := isDigit_of_mem_decimalText hc
    rw [h] at hdigit
    exact absurd hdigit (by decide)
  have hdrop : (headLine (statusLine proto n reason)).dropWhile (· ≠ ' ') =
      ' ' :: (decimalText n ++ later) := by
    rw [hline, List.dropWhile_append_of_pos hnot]
    rfl
  have htake : (decimalText n ++ later).takeWhile (· ≠ ' ') = decimalText n := by
    rw [List.takeWhile_append_of_pos hdigits, hlater, List.append_nil]
  rw [statusCode, hdrop]
  dsimp only
  rw [htake, integer_decimalText decimal hn, Option.getD_some]

end Status

/-! ## What is handed over -/

section Handed

variable (decimal : Char → Option (Fin 10)) (lower : List Char → List Char) (bufferSize : ℤ)

/-- Nothing fails on the way to the end of the head `lines`; `r` is the stream of the connection,
and `rest` what is behind the head. -/
structure HeadArrives (d : Dial) (r : StreamReader) (lines : List Bytes) (rest : Bytes) :
    Prop where
  opened : d.opened = .ok r
  opts : Settings.setSockOpts d.sock bufferSize = .ok ()
  drained : d.drained = none
  head : Head r.wire lines rest
  waits : ∀ i ≤ lines.length, d.waits i = none

/-- The status of a head. -/
def headStatus (lines : List Bytes) : ℤ :=
  (lines.head?.map fun line => statusCode decimal (headLine line)).getD 0

variable {decimal lower bufferSize} {urandom : Bytes} {net : Target → Dial} {args : DialArgs}

lemma judge_of_101 {lines : List Bytes} (r : StreamReader) (h : headStatus decimal lines = 101) :
    judge decimal lower lines r = .ws (.new r) := by
  cases lines with
  | nil => cases h
  | cons line lines => exact if_pos h

lemma judge_of_ne_101 {lines : List Bytes} (r : StreamReader)
    (h : headStatus decimal lines ≠ 101) :
    ∃ e, judge decimal lower lines r = .refused e ∧
      e.statusCode = headStatus decimal lines := by
  cases lines with
  | nil => exact ⟨_, rfl, rfl⟩
  | cons line lines => exact ⟨_, if_neg h, rfl⟩

/-- What becomes of a head that arrives. -/
lemma shakeHands_of_head {request : Bytes} {d : Dial} {r : StreamReader} {lines : List Bytes}
    {rest : Bytes} (h : HeadArrives bufferSize d r lines rest) :
    (shakeHands decimal lower bufferSize request d r).1 =
      judge decimal lower lines ⟨rest, r.ready⟩ := by
  have hread : readHead d.waits 0 r = .ok (lines, ⟨rest, r.ready⟩) := by
    refine readHead_iff.mpr ⟨h.head, rfl, fun i hi => ?_⟩
    rw [Nat.zero_add]
    exact h.waits i hi
  simp only [shakeHands, h.opts, h.drained, hread]

/-- Where nothing is raised, a head has arrived. -/
lemma head_of_shakeHands {request : Bytes} {d : Dial} {r : StreamReader}
    (hopened : d.opened = .ok r)
    (h : ∀ e, (shakeHands decimal lower bufferSize request d r).1 ≠ .raised e) :
    ∃ lines rest, HeadArrives bufferSize d r lines rest := by
  rcases hopts : Settings.setSockOpts d.sock bufferSize with e | ⟨⟩
  · exact absurd (by simp only [shakeHands, hopts]) (h .exception)
  rcases hdrained : d.drained with - | e
  · rcases hread : readHead d.waits 0 r with e | ⟨lines, r'⟩
    · exact absurd (by simp only [shakeHands, hopts, hdrained, hread]) (h e)
    · obtain ⟨hhead, hready, hwaits⟩ := readHead_iff.mp hread
      refine ⟨lines, r'.wire, hopened, hopts, hdrained, hhead, fun i hi => ?_⟩
      rw [← Nat.zero_add i]
      exact hwaits i hi
  · exact absurd (by simp only [shakeHands, hopts, hdrained]) (h e)

/-- The connection is closed unless it is handed over. -/
lemma connect_of_opened {r : StreamReader} (hopened : (net args.target).opened = .ok r) :
    (connect decimal lower bufferSize urandom net args).1 =
        (shakeHands decimal lower bufferSize
          (upgradeRequest args.path args.domain (base64 urandom)) (net args.target) r).1 ∧
      ∃ conn, (connect decimal lower bufferSize urandom net args).2 = some conn ∧
        (conn.closed = false ↔
          ∃ ws, (connect decimal lower bufferSize urandom net args).1 = .ws ws) := by
  simp only [connect, hopened]
  rcases shakeHands decimal lower bufferSize
    (upgradeRequest args.path args.domain (base64 urandom)) (net args.target) r with
    ⟨ws | e | e, written⟩
  · exact ⟨rfl, _, rfl, fun _ => ⟨ws, rfl⟩, fun _ => rfl⟩
  · exact ⟨rfl, _, rfl, by simp, by simp⟩
  · exact ⟨rfl, _, rfl, by simp, by simp⟩

/-- A head that arrives decides. -/
lemma connect_of_head {r : StreamReader} {lines : List Bytes} {rest : Bytes}
    (h : HeadArrives bufferSize (net args.target) r lines rest) :
    (connect decimal lower bufferSize urandom net args).1 =
      judge decimal lower lines ⟨rest, r.ready⟩ :=
  (connect_of_opened h.opened).1.trans (shakeHands_of_head h)

/-- Whatever is not raised comes of a head that has arrived. -/
lemma head_of_connect
    (h : ∀ e, (connect decimal lower bufferSize urandom net args).1 ≠ .raised e) :
    ∃ r lines rest, HeadArrives bufferSize (net args.target) r lines rest := by
  rcases hopened : (net args.target).opened with e | r
  · exact absurd (by simp only [connect, hopened]) (h e)
  · rw [(connect_of_opened hopened).1] at h
    obtain ⟨lines, rest, harrives⟩ := head_of_shakeHands hopened h
    exact ⟨r, lines, rest, harrives⟩

/-- A connection is handed over where a head says 101. -/
lemma connect_eq_ws {ws : RawWebSocket} :
    (connect decimal lower bufferSize urandom net args).1 = .ws ws ↔
      ∃ r lines rest, HeadArrives bufferSize (net args.target) r lines rest ∧
        headStatus decimal lines = 101 ∧ ws = .new ⟨rest, r.ready⟩ := by
  constructor
  · intro h
    obtain ⟨r, lines, rest, harrives⟩ :=
      head_of_connect (h := fun e he => by rw [h] at he; cases he)
    refine ⟨r, lines, rest, harrives, ?_⟩
    rw [connect_of_head harrives] at h
    by_cases hstatus : headStatus decimal lines = 101
    · rw [judge_of_101 _ hstatus] at h
      cases h
      exact ⟨hstatus, rfl⟩
    · obtain ⟨e, he, -⟩ := judge_of_ne_101 ⟨rest, r.ready⟩ hstatus
      rw [he] at h
      cases h
  · rintro ⟨r, lines, rest, harrives, hstatus, rfl⟩
    rw [connect_of_head harrives, judge_of_101 _ hstatus]

/-- A stream has one head. -/
lemma Head.unique {wire rest rest' : Bytes} {lines lines' : List Bytes}
    (h : Head wire lines rest) (h' : Head wire lines' rest') : lines = lines' ∧ rest = rest' := by
  have hread : readHead (fun _ => none) 0 ⟨wire, fun _ => 0⟩ = .ok (lines, ⟨rest, fun _ => 0⟩) :=
    readHead_iff.mpr ⟨h, rfl, fun _ _ => rfl⟩
  have hread' : readHead (fun _ => none) 0 ⟨wire, fun _ => 0⟩ =
      .ok (lines', ⟨rest', fun _ => 0⟩) := readHead_iff.mpr ⟨h', rfl, fun _ _ => rfl⟩
  have heq := hread.symm.trans hread'
  cases heq
  exact ⟨rfl, rfl⟩

end Handed

/-- **A dial.**  A connection is handed over exactly when the head of the answer arrives and says
101, with what is behind the head still to be read; any other connection that was opened is closed,
and a refusal does not say 101.  The messages that the server sends right behind the head are the
first that `recv` returns.  Of a status line, the number that it gives decides. -/
theorem connect_hands_over (decimal : Char → Option (Fin 10)) (lower : List Char → List Char)
    (bufferSize : ℤ) (urandom : Bytes) (net : Target → Dial) (args : DialArgs) :
    let dialled := connect decimal lower bufferSize urandom net args
    (∀ ws, dialled.1 = .ws ws ↔
      ∃ r lines rest, HeadArrives bufferSize (net args.target) r lines rest ∧
        headStatus decimal lines = 101 ∧ ws = .new ⟨rest, r.ready⟩) ∧
    (∀ conn, dialled.2 = some conn → (conn.closed = false ↔ ∃ ws, dialled.1 = .ws ws)) ∧
    (∀ e, dialled.1 = .refused e → e.statusCode ≠ 101) ∧
    (∀ draws ws r lines msgs fs bs tail, dialled.1 = .ws ws → (net args.target).opened = .ok r →
      Head r.wire lines (bs ++ tail) → Interleaved msgs fs → Sent fs bs →
      ∃ ws', ws.recvs draws msgs.length = (msgs.map fun m => .ok (some m.payload), ws')) ∧
    ∀ r proto n reason lines rest,
      HeadArrives bufferSize (net args.target) r (statusLine proto n reason :: lines) rest →
      proto ≠ [] → (∀ b ∈ proto, IsVisible b) → n < 10 ^ maxStrDigits →
      if n = 101 then dialled.1 = .ws (.new ⟨rest, r.ready⟩)
      else ∃ e, dialled.1 = .refused e ∧ e.statusCode = n := by
  intro dialled
  refine ⟨fun ws => connect_eq_ws, ?_, ?_, ?_, ?_⟩
  · intro conn hconn
    rcases hopened : (net args.target).opened with e | r
    · simp only [dialled, connect, hopened] at hconn
      cases hconn
    · obtain ⟨-, conn', hconn', hclosed⟩ := connect_of_opened hopened
      obtain rfl := Option.some.inj (hconn.symm.trans hconn')
      exact hclosed
  · intro e he
    obtain ⟨r, lines, rest, harrives⟩ :=
      head_of_connect (h := fun e' he' => by rw [he'] at he; cases he)
    have hjudge := (connect_of_head harrives).symm.trans he
    by_cases hstatus : headStatus decimal lines = 101
    · rw [judge_of_101 _ hstatus] at hjudge
      cases hjudge
    · obtain ⟨e', he', hcode⟩ := judge_of_ne_101 ⟨rest, r.ready⟩ hstatus
      obtain rfl := Connected.refused.inj (hjudge.symm.trans he')
      rwa [hcode]
  · intro draws ws r lines msgs fs bs tail hws hopened hhead hall hsent
    obtain ⟨r', lines', rest, harrives, -, rfl⟩ := connect_eq_ws.mp hws
    obtain rfl := Except.ok.inj (hopened.symm.trans harrives.opened)
    obtain ⟨rfl, rfl⟩ := hhead.unique harrives.head
    obtain ⟨-, -, -, ws', -, -, -, hrecvs, -⟩ :=
      recvs_messages draws msgs fs bs (.new ⟨bs ++ tail, r.ready⟩) hall hsent rfl rfl rfl
    exact ⟨ws', hrecvs⟩
  · intro r proto n reason lines rest harrives hne hproto hn
    have hstatus : headStatus decimal (statusLine proto n reason :: lines) = n :=
      statusCode_statusLine decimal hne hproto hn
    have hjudge : dialled.1 = judge decimal lower _ ⟨rest, r.ready⟩ := connect_of_head harrives
    rw [hjudge]
    split_ifs with h101
    · exact judge_of_101 _ (hstatus.trans (by rw [h101]; rfl))
    · obtain ⟨e, he, hcode⟩ := judge_of_ne_101 ⟨rest, r.ready⟩
        (hstatus.trans_ne (by exact_mod_cast h101))
      exact ⟨e, he, hcode.trans hstatus⟩

/-- A server that takes the upgrade and sends a message right behind its answer. -/
theorem connect_hands_over_sample :
    let head : Bytes := statusLine [72, 84, 84, 80, 47, 49, 46, 49] 101 [79, 75, 13, 10]
    let net : Target → Dial := fun _ =>
      ⟨.ok ⟨head ++ [13, 10, 0x82, 1, 7], fun _ => 0⟩, none, none, fun _ => none⟩
    let dialled := connect (fun _ => none) id 65536 [] net ⟨[], [], "/apiws", none, true⟩
    let draws : ℕ → MaskKey := fun _ => ⟨[1, 2, 3, 4], rfl⟩
    ∃ ws ws', dialled.1 = .ws ws ∧ ws.recvs draws 1 = ([.ok (some [7])], ws') := by
  intro head net dialled draws
  let args : DialArgs := ⟨[], [], "/apiws", none, true⟩
  let m : Message := ⟨2, [[7]], Or.inr rfl, by decide, by decide⟩
  have hdigits : decimalText 101 = ['1', '0', '1'] := by decide
  have hhead : Head (head ++ [13, 10, 0x82, 1, 7]) [head] [0x82, 1, 7] := by
    have htext : head =
        [72, 84, 84, 80, 47, 49, 46, 49, 32, 49, 48, 49, 32, 79, 75, 13] ++ [10] := by
      simp only [head, statusLine, hdigits]
      rfl
    rw [htext]
    exact @Head.line [72, 84, 84, 80, 47, 49, 46, 49, 32, 49, 48, 49, 32, 79, 75, 13]
      [13, 10, 0x82, 1, 7] _ _ (by decide) (by decide) (by decide) (by decide) (.crlf _)
  have harrives : HeadArrives 65536 (net args.target) ⟨head ++ [13, 10, 0x82, 1, 7], fun _ => 0⟩
      [head] [0x82, 1, 7] := ⟨rfl, rfl, rfl, hhead, fun _ _ => rfl⟩
  obtain ⟨-, -, -, hmessages, hstatus⟩ :=
    connect_hands_over (fun _ => none) id 65536 [] net args
  have hvisible : ∀ b ∈ ([72, 84, 84, 80, 47, 49, 46, 49] : Bytes), IsVisible b := by decide +kernel
  have hsmall : 101 < 10 ^ maxStrDigits :=
    lt_of_lt_of_le (show 101 < 10 ^ 3 by decide) (Nat.pow_le_pow_right (by decide) (by decide))
  have hws := hstatus _ _ 101 _ [] _ harrives (by decide) hvisible hsmall
  rw [if_pos rfl] at hws
  have hsent : Sent m.frames [0x82, 1, 7] :=
    .cons (@OnWire.plain 0x82 1 [] [7] (.short 1 (by decide)) (by decide)) .nil
  obtain ⟨ws', hrecvs⟩ := hmessages draws _ _ _ [m] m.frames [0x82, 1, 7] [] hws rfl hhead
    ⟨by decide, by decide⟩ hsent
  exact ⟨_, ws', hws, hrecvs⟩

/-! ## One dial after another -/

/-- Both modes of every domain are tried, if need be. -/
lemma mem_attemptsFrom {frontingFirst : ℕ → Bool} {a : Attempt} : ∀ {i : ℕ}
    {domains : List (List Char)}, a ∈ attemptsFrom frontingFirst i domains ↔ a.domain ∈ domains
  | _, [] => by simp [attemptsFrom]
  | i, domain :: domains => by
      have hboth : a ∈ (if frontingFirst i then [⟨domain, true⟩, ⟨domain, false⟩]
          else [⟨domain, false⟩, ⟨domain, true⟩] : List Attempt) ↔ a.domain = domain := by
        obtain ⟨d, fronted⟩ := a
        split_ifs <;> cases fronted <;> simp
      rw [attemptsFrom, List.mem_append, hboth, mem_attemptsFrom, List.mem_cons]

lemma length_attemptsFrom (frontingFirst : ℕ → Bool) : ∀ (i : ℕ) (domains : List (List Char)),
    (attemptsFrom frontingFirst i domains).length = 2 * domains.length
  | _, [] => rfl
  | i, domain :: domains => by
      rw [attemptsFrom, List.length_append, length_attemptsFrom frontingFirst (i + 1) domains]
      split_ifs <;> simp <;> omega

/-- The dial raises an exception. -/
def Connected.Fails : Connected → Prop
  | .ws _ => False
  | .refused _ => True
  | .raised e => e = .exception

section Turns

variable (dial : ℕ → Attempt → Connected × Option Conn)

/-- All the dials from `n` on fail. -/
def AllFail : ℕ → List Attempt → Prop
  | _, [] => True
  | n, a :: as => (dial n a).1.Fails ∧ AllFail (n + 1) as

/-- The connections of the dials from `n` on. -/
def connsOf : ℕ → List Attempt → List (Option Conn)
  | _, [] => []
  | n, a :: as => (dial n a).2 :: connsOf (n + 1) as

lemma connectTurns_of_fails {n : ℕ} {a : Attempt} (h : (dial n a).1.Fails) (as : List Attempt) :
    connectTurns dial n (a :: as) =
      { connectTurns dial (n + 1) as with
        conns := (dial n a).2 :: (connectTurns dial (n + 1) as).conns } := by
  rw [connectTurns]
  rcases hdial : dial n a with ⟨ws | e | (e | e), conn⟩
  · rw [hdial] at h
    exact h.elim
  · rfl
  · rfl
  · rw [hdial] at h
    cases h

/-- The turns go on until one of them does not fail. -/
lemma connectTurns_cases : ∀ (n : ℕ) (as : List Attempt),
    AllFail dial n as ∧ connectTurns dial n as = ⟨some none, connsOf dial n as, none⟩ ∨
      ∃ tried a later, as = tried ++ a :: later ∧ AllFail dial n tried ∧
        ((∃ ws, (dial (n + tried.length) a).1 = .ws ws ∧ connectTurns dial n as =
            ⟨some (some ws), connsOf dial n (tried ++ [a]), some a.fronted⟩) ∨
          (dial (n + tried.length) a).1 = .raised .cancelled ∧
            connectTurns dial n as = ⟨none, connsOf dial n (tried ++ [a]), none⟩)
  | _, [] => Or.inl ⟨trivial, rfl⟩
  | n, a :: as => by
      by_cases hfails : (dial n a).1.Fails
      · rw [connectTurns_of_fails dial hfails]
        obtain ⟨hall, heq⟩ | ⟨tried, b, later, rfl, hall, hend⟩ := connectTurns_cases (n + 1) as
        · exact Or.inl ⟨⟨hfails, hall⟩, by rw [heq]; rfl⟩
        · refine Or.inr ⟨a :: tried, b, later, rfl, ⟨hfails, hall⟩, ?_⟩
          have hindex : n + (a :: tried).length = n + 1 + tried.length := by
            rw [List.length_cons]
            omega
          rw [hindex]
          obtain ⟨ws, hws, heq⟩ | ⟨hcancelled, heq⟩ := hend
          · exact Or.inl ⟨ws, hws, by rw [heq]; rfl⟩
          · exact Or.inr ⟨hcancelled, by rw [heq]; rfl⟩
      · refine Or.inr ⟨[], a, as, rfl, trivial, ?_⟩
        rcases hdial : dial n a with ⟨ws | e | (e | e), conn⟩
        · exact Or.inl ⟨ws, by simp, by simp [connectTurns, connsOf, hdial]⟩
        · exact absurd (by rw [hdial]; trivial) hfails
        · exact absurd (by rw [hdial]; rfl) hfails
        · exact Or.inr ⟨by simp, by simp [connectTurns, connsOf, hdial]⟩

/-- A connection was opened, and its writer is not closed. -/
def isOpen (conn : Option Conn) : Bool := conn.any fun conn => !conn.closed

/-- Who does not hand over a connection closes it. -/
def Tidy (dial : ℕ → Attempt → Connected × Option Conn) : Prop :=
  ∀ n a, isOpen (dial n a).2 = true ↔ ∃ ws, (dial n a).1 = .ws ws

variable {dial}

lemma connsOf_append : ∀ (n : ℕ) (as bs : List Attempt),
    connsOf dial n (as ++ bs) = connsOf dial n as ++ connsOf dial (n + as.length) bs
  | _, [], _ => rfl
  | n, a :: as, bs => by
      rw [List.cons_append, connsOf, connsOf_append (n + 1) as bs, connsOf, List.cons_append,
        List.length_cons, Nat.add_assoc, Nat.add_comm 1]

/-- Dials that fail leave nothing open. -/
lemma countP_connsOf (htidy : Tidy dial) : ∀ {n : ℕ} {as : List Attempt}, AllFail dial n as →
    (connsOf dial n as).countP isOpen = 0
  | _, [], _ => rfl
  | n, a :: as, h => by
      have hclosed : isOpen (dial n a).2 = false := by
        rw [Bool.eq_false_iff]
        intro hopen
        obtain ⟨ws, hws⟩ := (htidy n a).mp hopen
        have hfails := h.1
        rw [hws] at hfails
        exact hfails
      rw [connsOf, List.countP_cons_of_neg (by simp [hclosed]), countP_connsOf htidy h.2]

/-- The connection that is returned is the only one that is open. -/
lemma countP_connectTurns (htidy : Tidy dial) (n : ℕ) (as : List Attempt) :
    (connectTurns dial n as).conns.countP isOpen =
      if (connectTurns dial n as).result.join.isSome then 1 else 0 := by
  obtain ⟨hall, heq⟩ | ⟨tried, a, later, -, hall, hend⟩ := connectTurns_cases dial n as
  · rw [heq]
    exact countP_connsOf htidy hall
  · obtain ⟨ws, hws, heq⟩ | ⟨hcancelled, heq⟩ := hend
    · have hopen : isOpen (dial (n + tried.length) a).2 = true := (htidy _ _).mpr ⟨ws, hws⟩
      rw [heq, connsOf_append, List.countP_append, countP_connsOf htidy hall]
      simp [connsOf, hopen]
    · have hclosed : isOpen (dial (n + tried.length) a).2 = false := by
        rw [Bool.eq_false_iff]
        intro hopen
        obtain ⟨ws, hws⟩ := (htidy _ _).mp hopen
        rw [hcancelled] at hws
        cases hws
      rw [heq, connsOf_append, List.countP_append, countP_connsOf htidy hall]
      simp [connsOf, hclosed]

end Turns

/-- The dials of `_connect_one` are tidy. -/
lemma tidy_dialTurn (decimal : Char → Option (Fin 10)) (lower : List Char → List Char)
    (bufferSize : ℤ) (urandom : ℕ → Bytes) (net : ℕ → Target → Dial) (targetIp : List Char)
    (path : String) : Tidy (dialTurn decimal lower bufferSize urandom net targetIp path) := by
  intro n a
  rcases hopened : (net n (a.args targetIp path).target).opened with e | r
  · simp [dialTurn, connect, hopened, isOpen]
  · obtain ⟨-, conn, hconn, hclosed⟩ := connect_of_opened hopened
    rw [dialTurn, hconn, ← hclosed]
    simp [isOpen]

/-- **Dialling.**  Every domain is tried in both modes, until a dial succeeds or the task is
cancelled; a success is returned at once, its mode is tried first from then on, and of all the
connections that were opened it is the only one that is open. -/
theorem connectOne_hands_over (decimal : Char → Option (Fin 10)) (lower : List Char → List Char)
    (bufferSize : ℤ) (urandom : ℕ → Bytes) (net : ℕ → Target → Dial)
    (frontingFirst : ℕ → Bool) (targetIp : List Char) (domains : List (List Char))
    (path : String) :
    let dial := dialTurn decimal lower bufferSize urandom net targetIp path
    let as := attemptsFrom frontingFirst 0 domains
    let out := connectOne decimal lower bufferSize urandom net frontingFirst targetIp domains path
    (∀ a, a ∈ as ↔ a.domain ∈ domains) ∧ as.length = 2 * domains.length ∧
    (AllFail dial 0 as ∧ out = ⟨some none, connsOf dial 0 as, none⟩ ∨
      ∃ tried a later, as = tried ++ a :: later ∧ AllFail dial 0 tried ∧
        ((∃ ws, (dial tried.length a).1 = .ws ws ∧
            out = ⟨some (some ws), connsOf dial 0 (tried ++ [a]), some a.fronted⟩) ∨
          (dial tried.length a).1 = .raised .cancelled ∧
            out = ⟨none, connsOf dial 0 (tried ++ [a]), none⟩)) ∧
    out.conns.countP isOpen = if out.result.join.isSome then 1 else 0 := by
  intro dial as out
  refine ⟨fun a => mem_attemptsFrom, length_attemptsFrom frontingFirst 0 domains, ?_, ?_⟩
  · have hcases := connectTurns_cases dial 0 as
    simp only [Nat.zero_add] at hcases
    exact hcases
  · have htidy := tidy_dialTurn decimal lower bufferSize urandom net targetIp path
    exact countP_connectTurns htidy 0 as

end TgWsProxy
