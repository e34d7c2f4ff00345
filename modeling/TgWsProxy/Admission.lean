import TgWsProxy.FakeTls.Verify
import TgWsProxy.FakeTls.Masking
import TgWsProxy.Bridge.Session

/-!
# The door

`_read_client_init` of `proxy/tg_ws_proxy.py`: what becomes of a connection before anything is
relayed for it.

* `readClientInit` — the code.
* `Stamped` — a stream begins with a hello stamped with the secret.
* **`stranger_masked`** — with a masking domain, a client whose stream does not begin so is never
  let in, is told nothing but the redirect or what the site says, and cannot tell secrets apart; the
  site hears its stream from the first octet.
* **`stamped_session_intact`** — a client whose stream begins so is let in with the init inside its
  records, and its session is the one a plain client would have.
-/

namespace TgWsProxy

open Wire

/-! ## The code -/

/-- What is to come behind `readline()`, which raises `ValueError` where the line is too long. -/
def StreamReader.skipLine (r : StreamReader) : Option StreamReader :=
  let n := r.wire.findIdx (· = 10)
  if readerLimit < n then none else some { r with wire := r.wire.drop (n + 1) }

/-- The stream that is read for a hello. -/
def StreamReader.behindProxyLine (proxyProtocol : Bool) (r : StreamReader) : Option StreamReader :=
  if proxyProtocol then r.skipLine else some r

/-- The waits of `_read_client_init`, each with a time of its own. -/
inductive InitWait
  | proxyLine
  | firstByte
  | header
  | body
  | handshake
  deriving DecidableEq, Repr

/-- How the waits end: in time or not, and whether the `drain()` behind an answer raises. -/
structure InitWaits where
  timely : InitWait → Bool
  sent : Bool

/-- What `_read_client_init` comes to: `None` or an exception, behind the octets that were written;
the masking site; an init, through records behind a ServerHello or as it is. -/
inductive ClientInit
  | none (answer : Bytes)
  | raised (answer : Bytes)
  | masked (clientHello : Bytes) (reader : StreamReader)
  | tls (serverHello handshake : Bytes) (stream : FakeTlsStream)
  | plain (handshake : Bytes) (reader : StreamReader)

/-- `redirect`. -/
def redirect (masking : String) : Bytes :=
  ("HTTP/1.1 301 Moved Permanently\r\n" ++ "Location: https://" ++ masking ++ "/\r\n" ++
    "Content-Length: 0\r\n" ++ "Connection: close\r\n\r\n").toUTF8.toList

section Code

variable (hmac : Bytes → Bytes → Digest) (profiled : Option ℕ) (d : Draws) (w : InitWaits) (now : ℤ)
  (masking : String) (secret : Bytes)

/-- Behind a hello that was accepted. -/
def answerHello (clientRandom sessionId clientHello : Bytes) (r : StreamReader) : ClientInit :=
  match parseClientHello clientHello with
  | .error _ => .raised []
  | .ok info =>
      match buildServerHello hmac profiled d secret clientRandom sessionId info with
      | .error _ => .raised []
      | .ok serverHello =>
          if w.sent = false then .raised serverHello
          else if w.timely .handshake = false then .raised serverHello
          else
            match (FakeTlsStream.new r).readexactly handshakeLen with
            | (.error _, _) => .none serverHello
            | (.ok handshake, stream) => .tls serverHello handshake stream

/-- Behind the first octet of a TLS record. -/
def readHello (firstByte : Bytes) (r : StreamReader) : ClientInit :=
  if w.timely .header = false then .raised []
  else
    match r.readexactly 4 with
    | (.error _, _) => .none []
    | (.ok hdrRest, r) =>
        let tlsHeader := firstByte ++ hdrRest
        let recordLen := beNat (slice tlsHeader 3 5)
        if w.timely .body = false then .raised []
        else
          match r.readexactly recordLen with
          | (.error _, _) => .none []
          | (.ok recordBody, r) =>
              let clientHello := tlsHeader ++ recordBody
              match verifyClientHello hmac now clientHello secret with
              | none => .masked clientHello r
              | some (clientRandom, sessionId, _) =>
                  answerHello hmac profiled d w secret clientRandom sessionId clientHello r

/-- Behind the PROXY line. -/
def readFirst (r : StreamReader) : ClientInit :=
  if w.timely .firstByte = false then .raised []
  else
    match r.readexactly 1 with
    | (.error _, _) => .none []
    | (.ok firstByte, r) =>
        if firstByte.headD 0 = tlsRecordHandshake ∧ masking ≠ "" then
          readHello hmac profiled d w now secret firstByte r
        else if masking ≠ "" then
          if w.sent then .none (redirect masking) else .raised (redirect masking)
        else if w.timely .handshake = false then .raised []
        else
          match r.readexactly (handshakeLen - 1) with
          | (.error _, _) => .none []
          | (.ok rest, r) => .plain (firstByte ++ rest) r

/-- `_read_client_init(reader, writer, secret, label, masking)`.  Whatever the line says, it is
skipped. -/
def readClientInit (proxyProtocol : Bool) (r : StreamReader) : ClientInit :=
  if proxyProtocol = true ∧ w.timely .proxyLine = false then .raised []
  else
    match r.behindProxyLine proxyProtocol with
    | none => .raised []
    | some r => readFirst hmac profiled d w now masking secret r

end Code

namespace ClientInit

/-- What was written to the client. -/
def answer : ClientInit → Bytes
  | .none answer => answer
  | .raised answer => answer
  | .masked _ _ => []
  | .tls serverHello _ _ => serverHello
  | .plain _ _ => []

/-- An init came. -/
def isAdmitted : ClientInit → Bool
  | .tls _ _ _ => true
  | .plain _ _ => true
  | _ => false

end ClientInit

/-- The stream `x` begins with a record that is a hello stamped with the secret, for a time near
`now`. -/
def Stamped (hmac : Bytes → Bytes → Digest) (now : ℤ) (secret x : Bytes) : Prop :=
  ∃ (data : Bytes) (t : ℕ) (rest : Bytes), HelloShape data ∧
    beNat (slice data 3 5) + 5 = data.length ∧ t < 2 ^ 32 ∧ |now - t| ≤ timestampTolerance ∧
    x = stampHello hmac secret data t ++ rest

/-! ## One record -/

section Record

variable (hmac : Bytes → Bytes → Digest) (profiled : Option ℕ) (d : Draws) (w : InitWaits) (now : ℤ)
  (secret : Bytes)

/-- A record that comes whole and in time is the hello. -/
lemma readHello_record {hello : Bytes} (rest : Bytes) (ready : ℕ → ℕ)
    (hheader : w.timely .header = true) (hbody : w.timely .body = true)
    (hlen : beNat (slice hello 3 5) + 5 = hello.length) :
    readHello hmac profiled d w now secret (hello.take 1) ⟨hello.drop 1 ++ rest, ready⟩ =
      match verifyClientHello hmac now hello secret with
      | none => .masked hello ⟨rest, ready⟩
      | some (clientRandom, sessionId, _) =>
          answerHello hmac profiled d w secret clientRandom sessionId hello ⟨rest, ready⟩ := by
  have hfour : (slice hello 1 5).length = 4 := by
    rw [length_slice]
    omega
  have hdrop : hello.drop 1 = slice hello 1 5 ++ hello.drop 5 := by
    have h := slice_append_drop hello 1 4
    rw [show 1 + 4 = 5 from rfl, hfour] at h
    exact h.symm
  have hhead : hello.take 1 ++ slice hello 1 5 = hello.take 5 := by
    have h := List.take_append_drop 1 (hello.take 5)
    rwa [List.take_take] at h
  have hrest : (hello.drop 5).length = beNat (slice (hello.take 5) 3 5) := by
    rw [List.length_drop, slice, List.take_take, Nat.min_self, ← slice]
    omega
  rw [readHello, if_neg (by rw [hheader]; decide), hdrop, List.append_assoc,
    StreamReader.readexactly_append_of_length hfour]
  dsimp only
  rw [hhead, if_neg (by rw [hbody]; decide), StreamReader.readexactly_append_of_length hrest]
  dsimp only
  rw [List.take_append_drop]

/-- So is it from the first octet on. -/
lemma readClientInit_record {masking : String} (hmasking : masking ≠ "") {proxyProtocol : Bool}
    {r : StreamReader} {hello rest : Bytes} {ready : ℕ → ℕ}
    (hr : r.behindProxyLine proxyProtocol = some ⟨hello ++ rest, ready⟩)
    (htimely : ∀ k, w.timely k = true) (htls : hello.headD 0 = tlsRecordHandshake)
    (hlen : beNat (slice hello 3 5) + 5 = hello.length) :
    readClientInit hmac profiled d w now masking secret proxyProtocol r =
      match verifyClientHello hmac now hello secret with
      | none => .masked hello ⟨rest, ready⟩
      | some (clientRandom, sessionId, _) =>
          answerHello hmac profiled d w secret clientRandom sessionId hello ⟨rest, ready⟩ := by
  have hone : (hello.take 1).length = 1 := by
    rw [List.length_take]
    omega
  have hdrop : hello ++ rest = hello.take 1 ++ (hello.drop 1 ++ rest) := by
    rw [← List.append_assoc, List.take_append_drop]
  have hhead : (hello.take 1).headD 0 = tlsRecordHandshake := by
    cases hello with
    | nil => exact htls
    | cons b bs => exact htls
  rw [readClientInit, if_neg (by rw [htimely]; simp), hr]
  dsimp only
  rw [readFirst, if_neg (by rw [htimely]; decide), hdrop,
    StreamReader.readexactly_append_of_length hone]
  dsimp only
  rw [if_pos ⟨hhead, hmasking⟩,
    readHello_record hmac profiled d w now secret rest ready (htimely _) (htimely _) hlen]

/-- What is read for a hello: nothing, before the secret has been looked at, or a record. -/
lemma readHello_cases {firstByte : Bytes} (hfirst : firstByte.length = 1) (r : StreamReader) :
    (∃ out, (out = .none [] ∨ out = .raised []) ∧
      ∀ hmac profiled d now secret, readHello hmac profiled d w now secret firstByte r = out) ∨
    ∃ hello rest, firstByte ++ r.wire = hello ++ rest ∧ firstByte = hello.take 1 ∧
      beNat (slice hello 3 5) + 5 = hello.length ∧ r = ⟨hello.drop 1 ++ rest, r.ready⟩ ∧
      w.timely .header = true ∧ w.timely .body = true := by
  by_cases hheader : w.timely .header = true
  · cases hhdr : r.readexactly 4 with
    | mk out r₁ =>
      cases out with
      | error e =>
          refine Or.inl ⟨_, Or.inl rfl, fun hmac profiled d now secret => ?_⟩
          rw [readHello, if_neg (by rw [hheader]; decide), hhdr]
      | ok hdrRest =>
          by_cases hbody : w.timely .body = true
          · cases hrec : r₁.readexactly (beNat (slice (firstByte ++ hdrRest) 3 5)) with
            | mk out r₂ =>
              cases out with
              | error e =>
                  refine Or.inl ⟨_, Or.inl rfl, fun hmac profiled d now secret => ?_⟩
                  rw [readHello, if_neg (by rw [hheader]; decide), hhdr]
                  dsimp only
                  rw [if_neg (by rw [hbody]; decide), hrec]
              | ok recordBody =>
                  obtain ⟨hwire, hfour⟩ := StreamReader.readexactly_eq_ok hhdr
                  obtain ⟨hwire', hlen⟩ := StreamReader.readexactly_eq_ok hrec
                  have hdrop : (firstByte ++ hdrRest ++ recordBody).drop 1
                      = hdrRest ++ recordBody := by
                    rw [List.append_assoc, List.drop_left' hfirst]
                  refine Or.inr ⟨firstByte ++ hdrRest ++ recordBody, r₂.wire, ?_, ?_, ?_, ?_,
                    hheader, hbody⟩
                  · rw [hwire, hwire']
                    simp only [List.append_assoc]
                  · rw [List.append_assoc, List.take_left' hfirst]
                  · rw [slice_append_left _ (by simp [hfirst, hfour]), ← hlen]
                    simp only [List.length_append, hfirst, hfour]
                    omega
                  · rw [hdrop, List.append_assoc, ← hwire', ← hwire]
          · refine Or.inl ⟨_, Or.inr rfl, fun hmac profiled d now secret => ?_⟩
            rw [readHello, if_neg (by rw [hheader]; decide), hhdr]
            dsimp only
            rw [if_pos (Bool.not_eq_true _ ▸ hbody)]
  · refine Or.inl ⟨_, Or.inr rfl, fun hmac profiled d now secret => ?_⟩
    rw [readHello, if_pos (Bool.not_eq_true _ ▸ hheader)]

/-- A record that is accepted is stamped. -/
lemma stamped_of_verify {hello rest : Bytes} {accepted : Bytes × Bytes × ℕ}
    (hlen : beNat (slice hello 3 5) + 5 = hello.length)
    (h : verifyClientHello hmac now hello secret = some accepted) :
    Stamped hmac now secret (hello ++ rest) := by
  obtain ⟨random, sessionId, t⟩ := accepted
  obtain ⟨hshape, hstamp, ht, hnow, -⟩ := (verifyClientHello_iff hmac now hello secret _ _ t).mp h
  exact ⟨hello, t, rest, hshape, hlen, ht, hnow, by rw [← hstamp]⟩

end Record

/-! ## A stranger -/

section Stranger

variable (w : InitWaits) {masking : String}

/-- How a stranger whose stream is `x` is dealt with. -/
def TurnedAway (masking : String) (x : Bytes) (out : ClientInit) : Prop :=
  out = .none [] ∨ out = .raised [] ∨
    ((out = .none (redirect masking) ∨ out = .raised (redirect masking)) ∧
      x.headD 0 ≠ tlsRecordHandshake) ∨
    ∃ hello reader, out = .masked hello reader ∧ hello ++ reader.wire = x

/-- Whatever the secret, the clock and the MAC are, a stranger to them is dealt with alike. -/
lemma readFirst_stranger (hmasking : masking ≠ "") (r : StreamReader) :
    ∃ out, TurnedAway masking r.wire out ∧ ∀ hmac profiled d now secret,
      ¬ Stamped hmac now secret r.wire →
        readFirst hmac profiled d w now masking secret r = out := by
  by_cases htimely : w.timely .firstByte = true
  · cases hread : r.readexactly 1 with
    | mk first r₁ =>
      cases first with
      | error e =>
          refine ⟨_, Or.inl rfl, fun hmac profiled d now secret _ => ?_⟩
          rw [readFirst, if_neg (by rw [htimely]; decide), hread]
      | ok firstByte =>
          obtain ⟨hwire, hone⟩ := StreamReader.readexactly_eq_ok hread
          have hcode : ∀ hmac profiled d now secret,
              readFirst hmac profiled d w now masking secret r =
                if firstByte.headD 0 = tlsRecordHandshake then
                  readHello hmac profiled d w now secret firstByte r₁
                else if w.sent then .none (redirect masking) else .raised (redirect masking) := by
            intro hmac profiled d now secret
            rw [readFirst, if_neg (by rw [htimely]; decide), hread]
            dsimp only
            by_cases htls : firstByte.headD 0 = tlsRecordHandshake
            · rw [if_pos ⟨htls, hmasking⟩, if_pos htls]
            · rw [if_neg (not_and_of_not_left _ htls), if_neg htls, if_pos hmasking]
          by_cases htls : firstByte.headD 0 = tlsRecordHandshake
          · rcases readHello_cases w hone r₁ with
              ⟨out, hout, hall⟩ | ⟨hello, rest, hsplit, hhead, hlen, hr, hheader, hbody⟩
            · refine ⟨out, hout.imp_right Or.inl, fun hmac profiled d now secret _ => ?_⟩
              rw [hcode, if_pos htls, hall]
            · refine ⟨.masked hello ⟨rest, r₁.ready⟩, ?_, fun hmac profiled d now secret hno => ?_⟩
              · exact Or.inr (Or.inr (Or.inr ⟨hello, _, rfl, by rw [hwire, hsplit]⟩))
              · rw [hcode, if_pos htls, hr, hhead,
                  readHello_record hmac profiled d w now secret rest r₁.ready hheader hbody hlen]
                cases hverify : verifyClientHello hmac now hello secret with
                | none => rfl
                | some accepted =>
                    rw [hwire, hsplit] at hno
                    exact absurd (stamped_of_verify hmac now secret hlen hverify) hno
          · have hhead : r.wire.headD 0 ≠ tlsRecordHandshake := by
              rw [hwire]
              cases firstByte with
              | nil => cases hone
              | cons b bs => exact htls
            cases hsent : w.sent with
            | true =>
                refine ⟨_, Or.inr (Or.inr (Or.inl ⟨Or.inl rfl, hhead⟩)),
                  fun hmac profiled d now secret _ => ?_⟩
                rw [hcode, if_neg htls, hsent]
                rfl
            | false =>
                refine ⟨_, Or.inr (Or.inr (Or.inl ⟨Or.inr rfl, hhead⟩)),
                  fun hmac profiled d now secret _ => ?_⟩
                rw [hcode, if_neg htls, hsent]
                rfl
  · refine ⟨_, Or.inr (Or.inl rfl), fun hmac profiled d now secret _ => ?_⟩
    rw [readFirst, if_pos (Bool.not_eq_true _ ▸ htimely)]

/-- So it is behind the PROXY line. -/
lemma readClientInit_stranger (hmasking : masking ≠ "") (proxyProtocol : Bool) (r : StreamReader) :
    ∃ out, (out = .raised [] ∨
        ∃ r' ∈ r.behindProxyLine proxyProtocol, TurnedAway masking r'.wire out) ∧
      ∀ hmac profiled d now secret,
        (∀ r' ∈ r.behindProxyLine proxyProtocol, ¬ Stamped hmac now secret r'.wire) →
          readClientInit hmac profiled d w now masking secret proxyProtocol r = out := by
  by_cases hline : proxyProtocol = true ∧ w.timely .proxyLine = false
  · refine ⟨_, Or.inl rfl, fun hmac profiled d now secret _ => ?_⟩
    rw [readClientInit, if_pos hline]
  · cases hbehind : r.behindProxyLine proxyProtocol with
    | none =>
        refine ⟨_, Or.inl rfl, fun hmac profiled d now secret _ => ?_⟩
        rw [readClientInit, if_neg hline, hbehind]
    | some r' =>
        obtain ⟨out, hturned, hall⟩ := readFirst_stranger w hmasking r'
        refine ⟨out, Or.inr ⟨r', rfl, hturned⟩, fun hmac profiled d now secret hno => ?_⟩
        rw [readClientInit, if_neg hline, hbehind]
        exact hall hmac profiled d now secret (hno r' rfl)

lemma TurnedAway.answer {x : Bytes} {out : ClientInit} (h : TurnedAway masking x out) :
    out.isAdmitted = false ∧ (out.answer = [] ∨ out.answer = redirect masking) := by
  rcases h with rfl | rfl | ⟨rfl | rfl, -⟩ | ⟨hello, reader, rfl, -⟩
  · exact ⟨rfl, Or.inl rfl⟩
  · exact ⟨rfl, Or.inl rfl⟩
  · exact ⟨rfl, Or.inr rfl⟩
  · exact ⟨rfl, Or.inr rfl⟩
  · exact ⟨rfl, Or.inl rfl⟩

lemma TurnedAway.masked {x hello : Bytes} {reader : StreamReader}
    (h : TurnedAway masking x (.masked hello reader)) : hello ++ reader.wire = x := by
  rcases h with h | h | ⟨h | h, -⟩ | ⟨hello', reader', h, hx⟩
  · cases h
  · cases h
  · cases h
  · cases h
  · cases h
    exact hx

/-- **Strangers.**  With a masking domain, let a client's stream not begin, behind the PROXY line if
one is asked for, with a hello stamped with the secret.  However its waits end,

* it is not let in, and what it is told before the masking site answers is nothing or the redirect;
* it would be dealt with in the same way under every other secret, clock and MAC that it is a
  stranger to: what it sees does not depend on the secret;
* if its first record is a handshake and comes whole and in time, it is connected to the masking
  site;
* if it is, then in every state of every run the site has a beginning of its stream, from the first
  octet, and the client has a beginning of what the site says; all of it where the relay has come to
  the end. -/
theorem stranger_masked (hmac : Bytes → Bytes → Digest) (profiled : Option ℕ) (d : Draws) (now : ℤ)
    (secret : Bytes) (hmasking : masking ≠ "") (proxyProtocol : Bool) (r : StreamReader)
    (hstranger : ∀ r' ∈ r.behindProxyLine proxyProtocol, ¬ Stamped hmac now secret r'.wire) :
    ∃ out, readClientInit hmac profiled d w now masking secret proxyProtocol r = out ∧
      out.isAdmitted = false ∧ (out.answer = [] ∨ out.answer = redirect masking) ∧
      (∀ hmac' profiled' d' now' secret',
        (∀ r' ∈ r.behindProxyLine proxyProtocol, ¬ Stamped hmac' now' secret' r'.wire) →
          readClientInit hmac' profiled' d' w now' masking secret' proxyProtocol r = out) ∧
      (∀ r' ∈ r.behindProxyLine proxyProtocol, ∀ hello rest, r'.wire = hello ++ rest →
        hello.headD 0 = tlsRecordHandshake → beNat (slice hello 3 5) + 5 = hello.length →
        (∀ k, w.timely k = true) → out = .masked hello ⟨rest, r'.ready⟩) ∧
      ∀ hello reader site s, out = .masked hello reader → Masking.Reaches hello reader site s →
        ∃ r' ∈ r.behindProxyLine proxyProtocol,
          (s.up.written.flatten <+: r'.wire ∧
            (s.up.at' = .ended true → s.up.written.flatten = r'.wire)) ∧
          (s.down.written.flatten <+: site.wire ∧
            (s.down.at' = .ended true → s.down.written.flatten = site.wire)) := by
  obtain ⟨out, hturned, hall⟩ := readClientInit_stranger w hmasking proxyProtocol r
  have hout := hall hmac profiled d now secret hstranger
  refine ⟨out, hout, ?_, ?_, hall, ?_, ?_⟩
  · rcases hturned with rfl | ⟨r', -, h⟩
    · rfl
    · exact h.answer.1
  · rcases hturned with rfl | ⟨r', -, h⟩
    · exact Or.inl rfl
    · exact h.answer.2
  · intro r' hr' hello rest hwire htls hlen htimely
    obtain ⟨wire, ready⟩ := r'
    obtain rfl : wire = hello ++ rest := hwire
    rw [← hout, readClientInit_record hmac profiled d w now secret hmasking hr' htimely htls hlen]
    cases hverify : verifyClientHello hmac now hello secret with
    | none => rfl
    | some accepted =>
        exact absurd (stamped_of_verify hmac now secret hlen hverify) (hstranger _ hr')
  · rintro hello reader site s rfl hs
    rcases hturned with h | ⟨r', hr', h⟩
    · cases h
    · have hkept := Masking.kept_of_reaches hs
      have hsite := hkept.toSite
      rw [h.masked] at hsite
      exact ⟨r', hr', hsite, hkept.toClient⟩

end Stranger

/-- A hello as long as one has to be, with zeros where the digest should stand: it goes to the site.
-/
theorem stranger_masked_sample :
    let hmac : Bytes → Bytes → Digest := fun _ _ => ⟨List.replicate 32 7, rfl⟩
    let d : Draws := ⟨⟨List.replicate 1088 0, List.length_replicate⟩, none,
      ⟨List.replicate 32 0, List.length_replicate⟩, ⟨64, by decide⟩,
      fun n => ⟨List.replicate n 0, List.length_replicate⟩⟩
    let hello : Bytes := [0x16, 3, 1, 0, 38, 1] ++ List.replicate 37 0
    readClientInit hmac none d ⟨fun _ => true, true⟩ 0 "example.com" [5] false
        ⟨hello ++ [8], fun _ => 0⟩ =
      .masked hello ⟨[8], fun _ => 0⟩ := by
  intro hmac d hello
  have hstranger : ∀ r' ∈ StreamReader.behindProxyLine false ⟨hello ++ [8], fun _ => 0⟩,
      ¬ Stamped hmac 0 [5] r'.wire := by
    rintro r' hr' ⟨data, t, rest, hshape, -, -, -, hwire⟩
    obtain rfl := Option.some.inj hr'
    have hrandom : slice (hello ++ [8]) 11 43 = stamp hmac [5] data t := by
      rw [← random_stampHello hmac hshape.length_le, ← slice_append_left rest
        (shape_stampHello hmac [5] t hshape).length_le]
      exact congrArg (slice · 11 43) hwire
    have hfirst : (0 : UInt8) = 7 := congrArg (List.headD · 0) hrandom
    cases hfirst
  obtain ⟨out, hout, -, -, -, hmasked, -⟩ := stranger_masked ⟨fun _ => true, true⟩ hmac none d 0 [5]
    (show "example.com" ≠ "" by decide) false _ hstranger
  rw [hout]
  exact hmasked _ rfl hello [8] rfl rfl rfl fun _ => rfl

/-! ## A client that knows the secret -/

/-- Before the end, what is read of a stream is a beginning of what it holds. -/
lemma Before.within {s : FakeTlsStream} {rest rest' x : Bytes} (h : Before s rest x)
    (hstop : Stops rest rest') : FakeTlsStream.source.Within s x := by
  intro got s' hgets
  induction hgets generalizing x with
  | refl s => exact List.nil_prefix
  | read hn hread hne _ ih =>
      by_cases hx : x = []
      · subst hx
        obtain ⟨out, s₁, hout, hend, -⟩ := read_stops h hstop _
        obtain ⟨rfl, -⟩ := Prod.mk.inj (hout.symm.trans hread)
        exact absurd hend hne
      · obtain ⟨k, s₁, -, -, -, htakes, hs₁⟩ := read_takes h hx hn
        obtain ⟨hdata, rfl⟩ := Prod.mk.inj (htakes.symm.trans hread)
        obtain rfl := Except.ok.inj hdata
        have hpre := (List.prefix_append_right_inj (x.take k)).mpr (ih hs₁)
        rwa [List.take_append_drop] at hpre

section Stamped

variable (hmac : Bytes → Bytes → Digest) (d : Draws) (w : InitWaits) (now : ℤ) {masking : String}
  (secret : Bytes) {data : Bytes} {t : ℕ}

lemma parseClientHello_ok (data : Bytes) : ∃ info, parseClientHello data = .ok info := by
  unfold parseClientHello
  split
  · exact ⟨_, rfl⟩
  · exact ⟨_, rfl⟩
  · exact ⟨_, rfl⟩

lemma length_helloSessionId (data : Bytes) : (helloSessionId data).length = 32 := by
  unfold helloSessionId
  split_ifs with h
  · rw [length_slice, Nat.min_eq_left h.1]
    rfl
  · exact List.length_replicate

/-- The ServerHello is written, and the first payload behind it is the init. -/
lemma readClientInit_stamped (hshape : HelloShape data)
    (hlen : beNat (slice data 3 5) + 5 = data.length) (ht : t < 2 ^ 32)
    (hnow : |now - t| ≤ timestampTolerance) (hmasking : masking ≠ "")
    (htimely : ∀ k, w.timely k = true) (hsent : w.sent = true) (length : Option ℤ)
    {proxyProtocol : Bool} {r : StreamReader} {recs : List Record} {rest payload : Bytes}
    {ready : ℕ → ℕ} (hr : r.behindProxyLine proxyProtocol =
      some ⟨stampHello hmac secret data t ++ (encodeAll recs ++ rest), ready⟩)
    (hrecs : NoEmptyAppdata recs) (hpayload : payloads recs = payload)
    (hlong : handshakeLen ≤ payload.length) :
    ∃ info serverHello stream,
      buildServerHello hmac (setProfiledAppdataLen length) d secret (stamp hmac secret data t)
        (helloSessionId (stampHello hmac secret data t)) info = .ok serverHello ∧
      readClientInit hmac (setProfiledAppdataLen length) d w now masking secret proxyProtocol r =
        .tls serverHello (payload.take handshakeLen) stream ∧
      Before stream rest (payload.drop handshakeLen) := by
  have hshape' := shape_stampHello hmac secret t hshape
  have hlen' : beNat (slice (stampHello hmac secret data t) 3 5) + 5 =
      (stampHello hmac secret data t).length := by
    rw [slice_stampHello hmac hshape.length_le (by decide),
      length_stampHello hmac hshape.length_le, hlen]
  have htls : (stampHello hmac secret data t).headD 0 = tlsRecordHandshake := by
    rw [← hshape'.record]
    cases stampHello hmac secret data t <;> rfl
  obtain ⟨info, hinfo⟩ := parseClientHello_ok (stampHello hmac secret data t)
  have hsession := length_helloSessionId (stampHello hmac secret data t)
  have happ := (appdataLen_range d length).2.trans_lt (show tlsAppdataMax < 256 ^ 2 by decide)
  have hbuild := buildServerHello_eq hmac (setProfiledAppdataLen length) d info secret
    (stamp hmac secret data t) (hsession.trans_lt (by decide)) happ
  have hnew : Before (FakeTlsStream.new ⟨encodeAll recs ++ rest, ready⟩) rest payload :=
    ⟨[], recs, hrecs, rfl, rfl, hpayload.symm⟩
  obtain ⟨stream, hread, hstream⟩ := readexactly_takes hnew hlong
  refine ⟨info, _, stream, hbuild, ?_, hstream⟩
  rw [readClientInit_record hmac _ d w now secret hmasking hr htimely htls hlen',
    verifyClientHello_stampHello hmac hshape ht now hnow]
  dsimp only
  rw [answerHello, hinfo]
  dsimp only
  rw [hbuild]
  dsimp only
  rw [if_neg (by rw [hsent]; decide), if_neg (by rw [htimely]; decide), hread]

/-- **A client that knows the secret.**  Its hello is a record stamped for a time near the clock,
and its obfuscated stream, init and all, comes in records behind it, ChangeCipherSpec among them.
It is let in with the init that a plain client would have sent.  In every state of the session that
follows, over all interleavings, failures and cancellations, the session is intact as a plain
client's is; and what it is written, behind the ServerHello, are records of legal size that carry
what a plain client would be written. -/
theorem stamped_session_intact (sha256 : Bytes → Digest) (E : AesKeystream) (init x y : Bytes)
    (hshape : HelloShape data) (hlen : beNat (slice data 3 5) + 5 = data.length) (ht : t < 2 ^ 32)
    (hnow : |now - t| ≤ timestampTolerance) (hmasking : masking ≠ "")
    (htimely : ∀ k, w.timely k = true) (hsent : w.sent = true) (length : Option ℤ)
    {proxyProtocol : Bool} {r : StreamReader} {recs : List Record} {rest : Bytes} {ready : ℕ → ℕ}
    (hr : r.behindProxyLine proxyProtocol =
      some ⟨stampHello hmac secret data t ++ (encodeAll recs ++ rest), ready⟩)
    (hrecs : NoEmptyAppdata recs) (hends : Ends rest)
    (hpayload : payloads recs =
      clientInit sha256 E secret init ++ clientSend sha256 E secret init x)
    (hinit : init.length = 64) (htag : IsProtoTag (slice init 56 60))
    {protoTag pad relayInit : Bytes} {dcIdx : ℤ} {draws : List Bytes}
    (hdraws : ∀ rnd ∈ draws, rnd.length = handshakeLen)
    (hrelay : generateRelayInit E protoTag dcIdx pad draws = .ok (some relayInit))
    {reader : StreamReader} (hserver : ServerSays (serverSend E relayInit y) reader.wire)
    (urandom : ℕ → MaskKey) (proto : Option ℕ) {ws : RawWebSocket}
    (hws : (RawWebSocket.new reader).send urandom none relayInit = (.ok (), ws)) :
    ∃ info serverHello stream dc isMedia prekeyIv ctx,
      buildServerHello hmac (setProfiledAppdataLen length) d secret (stamp hmac secret data t)
        (helloSessionId (stampHello hmac secret data t)) info = .ok serverHello ∧
      readClientInit hmac (setProfiledAppdataLen length) d w now masking secret proxyProtocol r =
        .tls serverHello (clientInit sha256 E secret init) stream ∧
      tryHandshake sha256 E (clientInit sha256 E secret init) secret
        = .ok (some (dc, isMedia, slice init 56 60, prekeyIv)) ∧
      buildCryptoCtx sha256 E prekeyIv secret relayInit = .ok ctx ∧
      ∀ s, (WsSession.nursery FakeTlsStream.source E urandom).Reaches
          (WsSession.start stream ctx (proto.map MsgSplitter.new) ws) s →
        Intact sha256 E FakeTlsStream.source stream secret init relayInit x y s.world ∧
        ∃ out, (s.world.toClient.map wrapTlsRecord).flatten = encodeAll out ∧
          (∀ rec ∈ out, rec.kind = .applicationData ∧ 1 ≤ rec.body.length ∧
            rec.body.length ≤ tlsAppdataMax) ∧
          payloads out = s.world.toClient.flatten := by
  have hinitLen : (clientInit sha256 E secret init).length = handshakeLen :=
    length_clientInit sha256 E secret hinit
  obtain ⟨info, serverHello, stream, hbuild, hread, hstream⟩ :=
    readClientInit_stamped hmac d w now secret hshape hlen ht hnow hmasking htimely hsent length hr
      hrecs hpayload (by rw [List.length_append, hinitLen]; omega)
  rw [List.take_left' hinitLen] at hread
  rw [List.drop_left' hinitLen] at hstream
  obtain ⟨dc, isMedia, prekeyIv, ctx, haccept, hctx, hcltDec, htgEnc, htgDec, hcltEnc⟩ :=
    sessionCiphers sha256 E secret init hinit htag hdraws hrelay
  refine ⟨info, serverHello, stream, dc, isMedia, prekeyIv, ctx, hbuild, hread, haccept, hctx,
    fun s hs => ⟨?_, flatten_wrapTlsRecord s.world.toClient⟩⟩
  exact intact_of_reaches sha256 E hcltDec htgEnc htgDec hcltEnc (hstream.within hends.stops)
    hserver proto hws hs

end Stamped

/-- A client that stamps 43 octets and sends three behind its init, and a server that answers two.
-/
theorem stamped_session_intact_sample :
    let hmac : Bytes → Bytes → Digest := fun _ _ => ⟨List.replicate 32 7, rfl⟩
    let sha256 : Bytes → Digest := fun _ => ⟨List.replicate 32 7, rfl⟩
    let E : AesKeystream := fun key _ n => key.headD 0 + UInt8.ofNat n
    let d : Draws := ⟨⟨List.replicate 1088 0, List.length_replicate⟩, none,
      ⟨List.replicate 32 0, List.length_replicate⟩, ⟨64, by decide⟩,
      fun n => ⟨List.replicate n 0, List.length_replicate⟩⟩
    let init : Bytes := List.replicate 56 1 ++ protoTagSecure ++ [2, 0, 9, 9]
    let relayInit : Bytes := List.replicate 56 3 ++ [230, 225, 224, 227, 61, 64, 65, 66]
    let urandom : ℕ → MaskKey := fun _ => ⟨[1, 2, 3, 4], rfl⟩
    let data : Bytes := [0x16, 3, 1, 0, 38, 1] ++ List.replicate 37 0
    let sent : Bytes := clientInit sha256 E [5] init ++ clientSend sha256 E [5] init [1, 2, 3]
    let wire : Bytes := stampHello hmac [5] data 100 ++ ([0x17, 3, 3, 0, 67] ++ sent)
    ∃ serverHello stream ctx reader ws,
      (RawWebSocket.new reader).send urandom none relayInit = (.ok (), ws) ∧
      readClientInit hmac none d ⟨fun _ => true, true⟩ 0 "example.com" [5] false
        ⟨wire, fun _ => 0⟩ = .tls serverHello (clientInit sha256 E [5] init) stream ∧
      ∀ s, (WsSession.nursery FakeTlsStream.source E urandom).Reaches
          (WsSession.start stream ctx none ws) s →
        s.world.down = .ended true →
          clientRecv sha256 E [5] init s.world.toClient.flatten = [7, 8] := by
  intro hmac sha256 E d init relayInit urandom data sent wire
  let draws : List Bytes := [List.replicate 64 0xEF, List.replicate 64 3]
  let answer : Bytes := serverSend E relayInit [7, 8]
  have hrelay : generateRelayInit E protoTagSecure 2 [0, 0] draws = .ok (some relayInit) := by
    decide +revert
  have hdraws : ∀ rnd ∈ draws, rnd.length = handshakeLen := by decide
  have hsent : sent.length = 67 := by decide
  let rec₁ : Record := ⟨.applicationData, (3, 3), sent, by rw [hsent]; decide⟩
  have hrecs : NoEmptyAppdata [rec₁] := by
    intro rec hrec _ hnil
    obtain rfl := List.mem_singleton.mp hrec
    have hzero := congrArg List.length hnil
    rw [hsent] at hzero
    cases hzero
  have hwire : wire = stampHello hmac [5] data 100 ++ (encodeAll [rec₁] ++ []) := by
    simp [wire, rec₁, Record.encode, Record.header, RecordKind.type, hsent, tlsRecordAppdata]
    rfl
  let reader : StreamReader := ⟨(0x82 :: 2 :: answer) ++ [0x88, 0], fun _ => 0⟩
  have hsays : ServerSays answer reader.wire :=
    serverSays_message (by decide) (by decide) (by decide) (by decide)
  obtain ⟨ws, hws⟩ := send_ok urandom reader (show relayInit.length < 2 ^ 64 by simp [relayInit])
  have hr : StreamReader.behindProxyLine false ⟨wire, fun _ => 0⟩ =
      some ⟨stampHello hmac [5] data 100 ++ (encodeAll [rec₁] ++ []), fun _ => 0⟩ := by
    rw [← hwire]
    rfl
  have hshape : HelloShape data := ⟨by decide, rfl, rfl⟩
  obtain ⟨-, serverHello, stream, -, -, -, ctx, -, hread, -, -, h⟩ :=
    stamped_session_intact hmac d ⟨fun _ => true, true⟩ 0 [5] sha256 E init [1, 2, 3] [7, 8] hshape
      (by decide) (by decide) (by decide) (show "example.com" ≠ "" by decide) (fun _ => rfl) rfl
      none hr hrecs (Or.inl (by decide)) (by simp [rec₁, Record.payload, sent]) rfl (by decide)
      hdraws hrelay hsays urandom none hws
  exact ⟨serverHello, stream, ctx, reader, ws, hws, hread, fun s hs => (h s hs).1.ended⟩

end TgWsProxy
