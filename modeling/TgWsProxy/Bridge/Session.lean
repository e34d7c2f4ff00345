import TgWsProxy.Bridge.WsSessionKept
import TgWsProxy.FakeTls.EndOfStream
import TgWsProxy.Obfuscation.Announcement

/-!
# From the client to Telegram and back

The session that `_handle_client` sets up and `bridge_ws_reencrypt` carries: a client that knows the
secret at one end, a server that knows the relay init at the other.

* `sessionCiphers` — the ciphers of the session are those of its two peers.
* `ServerSays` — what a server may send: messages in any fragments, control frames among them, a
  CLOSE behind them, and the connection may break off anywhere.
* **`session_intact`** — in every state of every session, each peer has of the other's stream a
  beginning of what was sent, and all of it when the stream has come to its end.
* **`session_torn_down`** — a session that is over has left nothing open, and the end of either
  direction is enough to bring it there.
-/

namespace TgWsProxy

open Wire

variable (sha256 : Bytes → Digest) (E : AesKeystream)

/-! ## The two peers -/

/-- **Four ciphers, two peers.**  What `_try_handshake` and `_build_crypto_ctx` make of a client's
init and a relay init: the client's sending stream behind its init, its receiving stream, and the
server's two. -/
lemma sessionCiphers (secret init : Bytes) (hinit : init.length = 64)
    (htag : IsProtoTag (slice init 56 60)) {protoTag pad relayInit : Bytes} {dcIdx : ℤ}
    {draws : List Bytes} (hdraws : ∀ rnd ∈ draws, rnd.length = handshakeLen)
    (hrelay : generateRelayInit E protoTag dcIdx pad draws = .ok (some relayInit)) :
    ∃ dc isMedia prekeyIv ctx,
      tryHandshake sha256 E (clientInit sha256 E secret init) secret
        = .ok (some (dc, isMedia, slice init 56 60, prekeyIv)) ∧
      buildCryptoCtx sha256 E prekeyIv secret relayInit = .ok ctx ∧
      (∀ x, ctx.cltDec.peek E (clientSend sha256 E secret init x) = x) ∧
      (∀ z, serverRecv E relayInit (ctx.tgEnc.peek E z) = z) ∧
      (∀ y, ctx.tgDec.peek E (serverSend E relayInit y) = y) ∧
      ∀ z, clientRecv sha256 E secret init (ctx.cltEnc.peek E z) = z := by
  obtain ⟨rnd, hmem, -, sealed, rfl⟩ := generateRelayInit_draw E hrelay
  have hrnd : rnd.length = 64 := hdraws rnd hmem
  have hprekey : (slice init 8 56).length = 48 := by simp [hinit]
  have hlen : 56 ≤ (rnd.take protoTagPos ++ sealed).length := by simp [hrnd, protoTagPos]
  have hkey : (slice init 8 56).take 32 = slice init 8 40 := by
    simp [slice, List.take_drop, List.take_take]
  have hiv : (slice init 8 56).drop 32 = slice init 40 56 := by simp [slice, List.drop_drop]
  refine ⟨_, _, _, _, tryHandshake_clientInit sha256 E secret hinit htag,
    buildCryptoCtx_ok sha256 E secret hprekey hlen, fun x => ?_, fun z => ?_, fun y => ?_,
    fun z => ?_⟩
  · rw [hkey, hiv]
    exact Cipher.peek_peek E _ x
  · exact Cipher.peek_peek E _ z
  · exact Cipher.peek_peek E _ y
  · exact Cipher.peek_peek E (clientDec sha256 secret init) z

/-- The server sends the octets `z` in messages, and then a CLOSE; `wire` is what arrives. -/
def ServerSays (z wire : Bytes) : Prop :=
  ∃ msgs fs bs close b rest, Interleaved msgs fs ∧ Sent fs bs ∧ close.opcode = opClose ∧
    close.payload.length ≤ maxMessageLen ∧ OnWire close b ∧ wire <+: bs ++ (b ++ rest) ∧
    (msgs.map Message.payload).flatten = z

/-- One short message, and a CLOSE. -/
lemma serverSays_message {z : Bytes} {n : UInt8} (hn : (n &&& 0x7F).toNat = z.length)
    (hbit : n &&& 0x80 = 0) (hshort : z.length < 126) (hle : z.length ≤ maxMessageLen) :
    ServerSays z ((0x82 :: n :: z) ++ [0x88, 0]) := by
  let m : Message := ⟨2, [z], Or.inr rfl, List.cons_ne_nil _ _, by simpa using hle⟩
  have hfield : LengthField z.length (n &&& 0x7F).toNat [] := hn ▸ .short _ (hn ▸ hshort)
  have hsent : Sent [⟨2, z, true⟩] ((0x82 :: n :: ([] ++ z)) ++ []) :=
    .cons (@OnWire.plain 0x82 n [] z hfield hbit) .nil
  refine ⟨[m], [⟨2, z, true⟩], _, ⟨8, [], true⟩, [0x88, 0], [], ⟨rfl, ?_⟩, hsent, rfl,
    Nat.zero_le _, @OnWire.plain 0x88 0 [] [] (.short 0 (by decide)) (by decide), ?_, ?_⟩
  · simp [Frame.IsControl, opPing, opPong]
  · simp
  · simp [Message.payload, m]

lemma Sent.snoc {fs : List Frame} {bs b : Bytes} {f : Frame} (h : Sent fs bs) (hf : OnWire f b) :
    Sent (fs ++ [f]) (bs ++ b) := by
  induction h with
  | nil =>
      have hone := Sent.cons hf .nil
      rwa [List.append_nil] at hone
  | cons hg _ ih =>
      rw [List.append_assoc]
      exact .cons hg ih

/-! ## In every state -/

section Session

variable {ρ : Type*} {R : Source ρ IncompleteRead} {E} {urandom : ℕ → MaskKey}
  {s₀ s : WsSession ρ} {inn : List Frame} {d y z : Bytes}

namespace WsSession

/-- What the client was handed is a beginning of what the server has sent, and all of it behind a
CLOSE. -/
lemma Downstream.of_serverSays (h : Downstream E s₀ inn d s)
    (hserver : ServerSays z s₀.socket.ws.reader.wire) :
    d <+: z ∧ (s.down = .ended true → d = z) := by
  obtain ⟨msgs, fs, bs, close, b, rest, hall, hsent, hop, hlen, hb, hwire, rfl⟩ := hserver
  obtain ⟨r, hr, -⟩ := h.server
  have hnotData : ¬ DataOpcode close.opcode := by
    rw [hop]
    decide
  have hoctets : dataOctets (fs ++ [close]) = (msgs.map Message.payload).flatten := by
    rw [dataOctets_append, hall.dataOctets_eq, dataOctets_of_not hnotData, List.append_nil]
  have hle : ∀ g ∈ fs ++ [close], g.payload.length ≤ maxMessageLen := by
    intro g hg
    rcases List.mem_append.mp hg with hg | hg
    · exact hall.payload_le g hg
    · rw [List.mem_singleton.mp hg]
      exact hlen
  rw [← List.append_assoc] at hwire
  -- Nothing is read behind a CLOSE, so it is the beginning that was read.
  have hpre : inn <+: fs ++ [close] := by
    refine (FramesRead.prefix_of_sent (hsent.snoc hb) hle hwire hr).elim (fun hover => ?_) id
    obtain ⟨more, rfl⟩ := hover
    cases more with
    | nil => rw [List.append_nil]
    | cons f more =>
        exfalso
        have hmem : close ∈ (fs ++ [close] ++ f :: more).dropLast := by
          rw [List.dropLast_append_of_ne_nil (List.cons_ne_nil f more)]
          simp
        have hended := h.ended
        split_ifs at hended
        · obtain ⟨pre, g, hpre, -, hfree⟩ := hended
          rw [hpre, List.dropLast_concat] at hmem
          exact hfree close hmem hop
        · exact hended close hmem hop
  constructor
  · obtain ⟨more, hmore⟩ := hpre
    rw [← hoctets, ← hmore, dataOctets_append, ← h.octets, List.append_assoc]
    exact List.prefix_append _ _
  · intro hend
    have hended := h.ended
    rw [if_pos (Or.inr hend)] at hended
    obtain ⟨pre, f, rfl, hf, hfree⟩ := hended
    have hwhole : pre ++ [f] = fs ++ [close] := by
      obtain ⟨more, hmore⟩ := hpre
      cases more using List.reverseRecOn with
      | nil => rwa [List.append_nil] at hmore
      | append_singleton more g _ =>
          exfalso
          rw [← List.append_assoc] at hmore
          obtain ⟨hfs, -⟩ := List.append_inj' hmore rfl
          refine hall.not_close f ?_ hf
          rw [← hfs]
          simp
    have hfrag : s.socket.ws.frag = [] := by
      refine h.whole (by rw [hend]; rintro ⟨⟩) ?_
      rw [hwhole, List.filter_append, List.filter_singleton, decide_eq_false hnotData]
      simpa using hall.last_fin
    have hd := h.octets
    rwa [hfrag, List.append_nil, hwhole, hoctets] at hd

/-- What the server was sent is a beginning of what the client sends, and all of it at the end of
its stream. -/
lemma Upstream.of_within {got sent x : Bytes} (h : Upstream R E s₀ got sent s)
    (hheld : heldBack s₀.splitter = []) (hclient : R.Within s₀.client x) :
    sent <+: s₀.ctx.tgEnc.peek E (s₀.ctx.cltDec.peek E x) ∧
      (s.up = .ended true → R.ReadsAs s₀.client x →
        sent = s₀.ctx.tgEnc.peek E (s₀.ctx.cltDec.peek E x)) := by
  obtain ⟨c, hgets, -, hend⟩ := h.client
  have hforwarded : forwarded E s₀ got = s₀.ctx.tgEnc.peek E (s₀.ctx.cltDec.peek E got) := by
    rw [forwarded, hheld, List.nil_append]
  constructor
  · have hpre := h.prefixed
    rw [hforwarded] at hpre
    exact hpre.trans (Cipher.peek_prefix E _ (Cipher.peek_prefix E _ (hclient got c hgets)))
  · intro hup hreads
    obtain ⟨c', hnil⟩ := hend (Or.inr hup)
    obtain rfl := (hreads.of_gets hgets (show 1 ≤ 65536 by decide)).2 c' hnil
    have hall := h.complete (by rw [hup]; rintro ⟨⟩)
    rwa [h.flushed (Or.inr hup), List.append_nil, hforwarded] at hall

/-! ## Behind the two tasks -/

/-- Nothing is closed before both tasks are at their ends, and then everything is. -/
structure Closing (s : WsSession ρ) : Prop where
  done : s.closing ≠ .notBegun → ∀ k, s.done k = true
  closed : s.closing ≠ .notBegun → s.socket.ws.closed = true
  client : s.clientClosed = true ↔ s.closing = .clientWait ∨ s.closing = .finished

lemma Closing.of_eq {s' : WsSession ρ} (h : Closing s) (hclosing : s'.closing = s.closing)
    (hclient : s'.clientClosed = s.clientClosed) (hnot : ∃ k, s.done k = false) : Closing s' := by
  obtain ⟨k, hk⟩ := hnot
  have hbegun : s.closing = .notBegun := by
    by_contra hne
    rw [h.done hne k] at hk
    cases hk
  refine ⟨fun hne => ?_, fun hne => ?_, ?_⟩
  · exact absurd (hclosing.trans hbegun) hne
  · exact absurd (hclosing.trans hbegun) hne
  · rw [hclosing, hclient]
    exact h.client

lemma run_closing {k : Side} {m : Resume} {s' : WsSession ρ}
    (h : run R E urandom k m s = some s') :
    s'.closing = s.closing ∧ s'.clientClosed = s.clientClosed := by
  cases k with
  | up =>
      have h : s.goUp R E urandom m = some s' := h
      unfold goUp at h
      split at h
      · split at h
        · obtain rfl := Option.some.inj h
          exact ⟨rfl, rfl⟩
        · split_ifs at h
          · obtain rfl := Option.some.inj h
            rw [onEnd]
            split_ifs <;> exact ⟨rfl, rfl⟩
          · obtain rfl := Option.some.inj h
            rw [onChunk]
            dsimp only
            split_ifs <;> exact ⟨rfl, rfl⟩
      · obtain rfl := Option.some.inj h
        exact ⟨rfl, rfl⟩
      · cases h
  | down =>
      have h : s.goDown E urandom m = some s' := h
      unfold goDown at h
      split at h
      · split_ifs at h
        · obtain rfl := Option.some.inj h
          exact ⟨rfl, rfl⟩
        · split at h <;>
            · obtain rfl := Option.some.inj h
              exact ⟨rfl, rfl⟩
      · obtain rfl := Option.some.inj h
        exact ⟨rfl, rfl⟩
      · obtain rfl := Option.some.inj h
        exact ⟨rfl, rfl⟩
      · cases h

/-- A step of the `finally`. -/
lemma Closing.wrapUp {a : Awaited} {s' : WsSession ρ} (h : Closing s)
    (hdone : ∀ k, s.done k = true) (hstep : s.wrapUp urandom a = some s') : Closing s' := by
  have hdone' : ∀ k, s'.done k = true := fun k => done_of_wrapUp (hdone k) hstep
  unfold WsSession.wrapUp at hstep
  split at hstep
  · next hat =>
      have hnot : s.clientClosed ≠ true := by
        rw [ne_eq, h.client, hat]
        simp
      split_ifs at hstep with hclosed
      · obtain rfl := Option.some.inj hstep
        exact ⟨fun _ => hdone', fun _ => hclosed, by simp [closeClient]⟩
      · obtain rfl := Option.some.inj hstep
        exact ⟨fun _ => hdone', fun _ => RawWebSocket.answer_closed .., by simp [hnot]⟩
  · next hat =>
      have hclosed := h.closed (by rw [hat]; rintro ⟨⟩)
      have hnot : s.clientClosed ≠ true := by
        rw [ne_eq, h.client, hat]
        simp
      split_ifs at hstep
      · obtain rfl := Option.some.inj hstep
        exact ⟨fun _ => hdone', fun _ => hclosed, by simp [closeClient]⟩
      · obtain rfl := Option.some.inj hstep
        exact ⟨fun _ => hdone', fun _ => hclosed, by simp [hnot]⟩
  · next hat =>
      obtain rfl := Option.some.inj hstep
      exact ⟨fun _ => hdone', fun _ => h.closed (by rw [hat]; rintro ⟨⟩), by simp [closeClient]⟩
  · next hat =>
      obtain rfl := Option.some.inj hstep
      have hclient := h.client.mpr (Or.inl hat)
      exact ⟨fun _ => hdone', fun _ => h.closed (by rw [hat]; rintro ⟨⟩), by simp [hclient]⟩
  · cases hstep

lemma closing_of_reaches {t : Nursery.State Side (WsSession ρ)} (hstart : Closing s₀)
    (h : (nursery R E urandom).Reaches s₀ t) : Closing t.world := by
  refine Nursery.invariant hstart ?_ ?_ ?_ h
  · intro k m w w' hw hk hrun
    obtain ⟨hclosing, hclient⟩ := run_closing hrun
    exact hw.of_eq hclosing hclient ⟨k, hk⟩
  · intro k w hw hk
    refine hw.of_eq ?_ ?_ ⟨k, hk⟩
    · show (w.cancel k).closing = w.closing
      unfold cancel
      split_ifs
      · rfl
      · cases k <;> rfl
    · show (w.cancel k).clientClosed = w.clientClosed
      unfold cancel
      split_ifs
      · rfl
      · cases k <;> rfl
  · intro a w w' hw hdone _ htidy
    exact hw.wrapUp hdone htidy

/-- How many steps of the `finally` are left at most. -/
def stepsLeft (s : WsSession ρ) : ℕ :=
  match s.closing with
  | .notBegun => 4
  | .wsDrain => 3
  | .wsWait => 2
  | .clientWait => 1
  | .finished => 0

lemma exists_wrapUp (urandom : ℕ → MaskKey) (s : WsSession ρ) (h : s.closing ≠ .finished) :
    ∃ s', s.wrapUp urandom .returned = some s' ∧ s'.stepsLeft < s.stepsLeft := by
  unfold wrapUp stepsLeft
  cases hat : s.closing with
  | notBegun =>
      by_cases hclosed : s.socket.ws.closed = true
      · exact ⟨_, if_pos hclosed, by simp [closeClient]⟩
      · exact ⟨_, if_neg hclosed, by simp⟩
  | wsDrain => exact ⟨_, rfl, by simp⟩
  | wsWait => exact ⟨_, rfl, by simp [closeClient]⟩
  | clientWait => exact ⟨_, rfl, by simp⟩
  | finished => exact absurd hat h

end WsSession

end Session

/-- A new splitter, if there is one, holds nothing back. -/
lemma heldBack_new (proto : Option ℕ) : heldBack (proto.map MsgSplitter.new) = [] := by
  cases proto <;> rfl

lemma sound_new (proto : Option ℕ) : ∀ sp ∈ proto.map MsgSplitter.new, sp.Sound := by
  intro sp hsp
  have hheld := heldBack_new proto
  rw [hsp] at hheld
  exact fun _ => hheld

/-- The WebSocket behind `ws.send(relay_init)`. -/
lemma send_relayInit {urandom : ℕ → MaskKey} {reader : StreamReader} {relayInit : Bytes}
    {ws : RawWebSocket}
    (hws : (RawWebSocket.new reader).send urandom none relayInit = (.ok (), ws)) :
    Wrote [binaryFrame relayInit] (.new reader) ws ∧ ws.closed = false ∧ ws.reader = reader ∧
      ws.frag = [] := by
  obtain ⟨sent, hwrote, -, hsent, hreader, hfrag⟩ :=
    RawWebSocket.writeParts_wrote urandom none 0 [relayInit] (RawWebSocket.new reader)
  have hopen := RawWebSocket.send_closed urandom none relayInit (RawWebSocket.new reader)
  have hparts : (RawWebSocket.new reader).writeParts urandom none 0 [relayInit] = (.ok (), ws) :=
    hws
  rw [hws] at hopen
  rw [hparts] at hwrote hsent hreader hfrag
  obtain rfl := hsent rfl
  exact ⟨hwrote, hopen, hreader, hfrag⟩

/-- It is sent when nothing fails. -/
lemma send_ok (urandom : ℕ → MaskKey) (reader : StreamReader) {data : Bytes}
    (hlen : data.length < 2 ^ 64) :
    ∃ ws, (RawWebSocket.new reader).send urandom none data = (.ok (), ws) := by
  have hbuild := buildFrame_eq (some (urandom 0)) (show 0x80 ||| opBinary < 256 by decide) hlen
  simp [RawWebSocket.send, RawWebSocket.new, RawWebSocket.writeParts, hbuild]

/-! ## The session -/

open WsSession

section Intact

variable {ρ : Type*} (R : Source ρ IncompleteRead) (client : ρ) (secret init relayInit x y : Bytes)

/-- The server has received the relay init and a beginning of the octets `x` that the client sends,
and the client a beginning of the octets `y` that the server sends; all of it when `tcp_to_ws` has
come to the end of the stream, and when `ws_to_tcp` has come to the server's CLOSE.  Behind the
session's own CLOSE nothing is written. -/
structure Intact (s : WsSession ρ) : Prop where
  up : ∃ out, List.Forall₂ OnWire (binaryFrame relayInit :: out) s.socket.ws.written ∧
    Sealed s.socket.ws.closed out ∧ serverRecv E relayInit (dataOctets out) <+: x ∧
    (s.up = .ended true → R.ReadsAs client (clientSend sha256 E secret init x) →
      serverRecv E relayInit (dataOctets out) = x)
  down : clientRecv sha256 E secret init s.toClient.flatten <+: y
  ended : s.down = .ended true → clientRecv sha256 E secret init s.toClient.flatten = y

variable {R client secret init relayInit x y}

/-- Ciphers that are those of the two peers keep the session intact. -/
lemma intact_of_reaches {ctx : CryptoCtx}
    (hcltDec : ∀ x, ctx.cltDec.peek E (clientSend sha256 E secret init x) = x)
    (htgEnc : ∀ z, serverRecv E relayInit (ctx.tgEnc.peek E z) = z)
    (htgDec : ∀ y, ctx.tgDec.peek E (serverSend E relayInit y) = y)
    (hcltEnc : ∀ z, clientRecv sha256 E secret init (ctx.cltEnc.peek E z) = z)
    (hclient : R.Within client (clientSend sha256 E secret init x)) {reader : StreamReader}
    (hserver : ServerSays (serverSend E relayInit y) reader.wire) {urandom : ℕ → MaskKey}
    (proto : Option ℕ) {ws : RawWebSocket}
    (hws : (RawWebSocket.new reader).send urandom none relayInit = (.ok (), ws))
    {t : Nursery.State Side (WsSession ρ)}
    (ht : (nursery R E urandom).Reaches (start client ctx (proto.map MsgSplitter.new) ws) t) :
    Intact sha256 E R client secret init relayInit x y t.world := by
  obtain ⟨hfirst, hopen, hreader, hfrag⟩ := send_relayInit hws
  have hheld := heldBack_new proto
  have hsays : ServerSays (serverSend E relayInit y) ws.reader.wire := by
    rw [hreader]
    exact hserver
  obtain ⟨out, got, inn, d, hwrote, hsealed, hup, hdown⟩ :=
    kept_of_reaches (Kept.start client ctx (sound_new proto) hopen hfrag) ht
  refine ⟨⟨out, ?_, hsealed, ?_, ?_⟩, ?_, ?_⟩
  · obtain ⟨new, hnew, hall⟩ := hfirst.trans hwrote
    rw [hnew]
    exact hall
  · have hpre := (hup.of_within hheld hclient).1
    have hserver := Cipher.peek_prefix E ⟨slice relayInit 8 40, slice relayInit 40 56, 64⟩ hpre
    rw [← serverRecv, ← serverRecv] at hserver
    refine hserver.trans ?_
    show serverRecv E relayInit (ctx.tgEnc.peek E (ctx.cltDec.peek E _)) <+: x
    rw [hcltDec, htgEnc]
  · intro hend hreads
    rw [(hup.of_within hheld hclient).2 hend hreads]
    show serverRecv E relayInit (ctx.tgEnc.peek E (ctx.cltDec.peek E _)) = x
    rw [hcltDec, htgEnc]
  · rw [hdown.delivered]
    show clientRecv sha256 E secret init (ctx.cltEnc.peek E (ctx.tgDec.peek E d)) <+: y
    rw [hcltEnc]
    have hpre := (hdown.of_serverSays hsays).1
    have hplain := Cipher.peek_prefix E ctx.tgDec hpre
    rwa [htgDec] at hplain
  · intro hend
    rw [hdown.delivered]
    show clientRecv sha256 E secret init (ctx.cltEnc.peek E (ctx.tgDec.peek E d)) = y
    rw [hcltEnc, (hdown.of_serverSays hsays).2 hend, htgDec]

end Intact

/-- **End to end.**  For every secret, every init a client builds for it, every relay init and every
pair of streams, over every interleaving of the two tasks, of failing writes and of cancellations:
the session is intact in every state. -/
theorem session_intact (secret init x y : Bytes) (hinit : init.length = 64)
    (htag : IsProtoTag (slice init 56 60)) {protoTag pad relayInit : Bytes} {dcIdx : ℤ}
    {draws : List Bytes} (hdraws : ∀ rnd ∈ draws, rnd.length = handshakeLen)
    (hrelay : generateRelayInit E protoTag dcIdx pad draws = .ok (some relayInit))
    {ρ : Type*} (R : Source ρ IncompleteRead) (client : ρ)
    (hclient : R.Within client (clientSend sha256 E secret init x)) (reader : StreamReader)
    (hserver : ServerSays (serverSend E relayInit y) reader.wire) (urandom : ℕ → MaskKey)
    (proto : Option ℕ) {ws : RawWebSocket}
    (hws : (RawWebSocket.new reader).send urandom none relayInit = (.ok (), ws)) :
    ∃ dc isMedia prekeyIv ctx,
      tryHandshake sha256 E (clientInit sha256 E secret init) secret
        = .ok (some (dc, isMedia, slice init 56 60, prekeyIv)) ∧
      buildCryptoCtx sha256 E prekeyIv secret relayInit = .ok ctx ∧
      ∀ t, (nursery R E urandom).Reaches (start client ctx (proto.map MsgSplitter.new) ws) t →
        Intact sha256 E R client secret init relayInit x y t.world := by
  obtain ⟨dc, isMedia, prekeyIv, ctx, haccept, hctx, hcltDec, htgEnc, htgDec, hcltEnc⟩ :=
    sessionCiphers sha256 E secret init hinit htag hdraws hrelay
  exact ⟨dc, isMedia, prekeyIv, ctx, haccept, hctx, fun t ht =>
    intact_of_reaches sha256 E hcltDec htgEnc htgDec hcltEnc hclient hserver proto hws ht⟩

/-- A plain client that sends three octets, and a server that answers two and closes: the session
comes to where `ws_to_tcp` has read the CLOSE. -/
theorem session_intact_sample :
    let sha256 : Bytes → Digest := fun _ => ⟨List.replicate 32 7, rfl⟩
    let E : AesKeystream := fun key _ n => key.headD 0 + UInt8.ofNat n
    let init : Bytes := List.replicate 56 1 ++ protoTagSecure ++ [2, 0, 9, 9]
    let relayInit : Bytes := List.replicate 56 3 ++ [230, 225, 224, 227, 61, 64, 65, 66]
    let urandom : ℕ → MaskKey := fun _ => ⟨[1, 2, 3, 4], rfl⟩
    ∃ ctx reader ws t, (RawWebSocket.new reader).send urandom none relayInit = (.ok (), ws) ∧
      (nursery StreamReader.source E urandom).Reaches
        (start ⟨clientSend sha256 E [5] init [1, 2, 3], fun _ => 0⟩ ctx none ws) t ∧
      t.world.down = .ended true ∧
      clientRecv sha256 E [5] init t.world.toClient.flatten = [7, 8] := by
  intro sha256 E init relayInit urandom
  let draws : List Bytes := [List.replicate 64 0xEF, List.replicate 64 3]
  let answer : Bytes := serverSend E relayInit [7, 8]
  have hrelay : generateRelayInit E protoTagSecure 2 [0, 0] draws = .ok (some relayInit) := by
    decide +revert
  have hdraws : ∀ rnd ∈ draws, rnd.length = handshakeLen := by decide
  let reader : StreamReader := ⟨(0x82 :: 2 :: answer) ++ [0x88, 0], fun _ => 0⟩
  have hsays : ServerSays answer reader.wire :=
    serverSays_message (by decide) (by decide) (by decide) (by decide)
  let ws := ((RawWebSocket.new reader).send urandom none relayInit).2
  have hws : (RawWebSocket.new reader).send urandom none relayInit = (.ok (), ws) := by
    obtain ⟨ws', hws'⟩ := send_ok urandom reader
      (show relayInit.length < 2 ^ 64 by simp [relayInit])
    exact hws'.trans (congrArg (Prod.mk _) (congrArg Prod.snd hws').symm)
  let client : StreamReader := ⟨clientSend sha256 E [5] init [1, 2, 3], fun _ => 0⟩
  obtain ⟨dc, isMedia, prekeyIv, ctx, haccept, hctx, h⟩ := session_intact sha256 E [5] init
    [1, 2, 3] [7, 8] rfl (by decide) hdraws hrelay StreamReader.source client
    (StreamReader.readsAs _ _).within reader hsays urandom none hws
  have hview : ((tryHandshake sha256 E (clientInit sha256 E [5] init) [5]).toOption.join.bind
      fun r => (buildCryptoCtx sha256 E r.2.2.2 [5] relayInit).toOption.bind fun ctx =>
        (exec (nursery StreamReader.source E urandom).step [.run .down (.go none),
          .run .down (.drained true), .run .down (.go none), .run .down (.drained true)]
            (.started Side (start client ctx none ws))).map fun t => t.world.down) =
      some (.ended true) := by
    decide +kernel
  rw [haccept] at hview
  obtain ⟨accepted, haccepted, hview⟩ := Option.bind_eq_some_iff.mp hview
  obtain rfl := Option.some.inj haccepted
  obtain ⟨ctx', hctx', hview⟩ := Option.bind_eq_some_iff.mp hview
  rw [hctx] at hctx'
  obtain rfl : ctx = ctx' := Option.some.inj hctx'
  obtain ⟨t, ht, hdown⟩ := Option.map_eq_some_iff.mp hview
  have hreach : (nursery StreamReader.source E urandom).Reaches (start client ctx none ws) t :=
    reachable_of_exec (.start rfl) ht
  exact ⟨ctx, reader, ws, t, hws, hreach, hdown, (h t hreach).ended hdown⟩

/-- **The end of a session.**  Nothing is closed while a task is not at its end.  When the session
is over both tasks are, and both the WebSocket, behind a CLOSE as its last frame, and the client's
connection were closed.  From every state in which either task is at its end, or the session was
cancelled, it can come there without either task going on. -/
theorem session_torn_down {ρ : Type*} (R : Source ρ IncompleteRead) (urandom : ℕ → MaskKey)
    (client : ρ) (ctx : CryptoCtx) (proto : Option ℕ) (reader : StreamReader) {relayInit : Bytes}
    {ws : RawWebSocket}
    (hws : (RawWebSocket.new reader).send urandom none relayInit = (.ok (), ws))
    {t : Nursery.State Side (WsSession ρ)}
    (ht : (nursery R E urandom).Reaches (start client ctx (proto.map MsgSplitter.new) ws) t) :
    ((∃ k, t.world.done k = false) →
      t.world.closing = .notBegun ∧ t.world.clientClosed = false) ∧
    (t.world.closing = .finished →
      (∀ k, t.world.done k = true) ∧ t.world.clientClosed = true ∧
      ∃ out close, List.Forall₂ OnWire (out ++ [close]) t.world.socket.ws.written ∧
        close.opcode = opClose ∧ ∀ f ∈ out, f.opcode ≠ opClose) ∧
    (t.parent ≠ .waiting ∨ (∃ k, t.world.done k = true) →
      ∃ es t', exec (nursery R E urandom).step es t = some t' ∧ (∀ e ∈ es, e.isRun = false) ∧
        t'.world.closing = .finished) := by
  obtain ⟨hfirst, hopen, -, hfrag⟩ := send_relayInit hws
  have hrank : ∀ s : WsSession ρ, (nursery R E urandom).tidied s = false →
      ∃ a s', (nursery R E urandom).tidy a s = some s' ∧ s'.stepsLeft < s.stepsLeft := by
    intro s hs
    obtain ⟨s', hs', hlt⟩ := exists_wrapUp urandom s (of_decide_eq_false hs)
    exact ⟨.returned, s', hs', hlt⟩
  have hstart : Closing (start client ctx (proto.map MsgSplitter.new) ws) :=
    ⟨fun hne => absurd rfl hne, fun hne => absurd rfl hne, by simp [start]⟩
  have hclosing := closing_of_reaches hstart ht
  refine ⟨?_, fun hend => ?_, fun hend => ?_⟩
  · rintro ⟨k, hk⟩
    have hbegun : t.world.closing = .notBegun := by
      by_contra hne
      rw [hclosing.done hne k] at hk
      cases hk
    refine ⟨hbegun, ?_⟩
    rw [← Bool.not_eq_true, hclosing.client, hbegun]
    simp
  · have hne : t.world.closing ≠ .notBegun := by rw [hend]; rintro ⟨⟩
    obtain ⟨out, -, -, -, hwrote, hsealed, -⟩ :=
      kept_of_reaches (Kept.start client ctx (sound_new proto) hopen hfrag) ht
    rw [hclosing.closed hne] at hsealed
    obtain ⟨pre, f, rfl, hf, hpre⟩ := hsealed
    obtain ⟨new, hnew, hall⟩ := hfirst.trans hwrote
    rw [← List.append_assoc] at hall
    rw [show t.world.socket.ws.written = new from hnew]
    refine ⟨hclosing.done hne, hclosing.client.mpr (Or.inr hend), _, f, hall, hf, ?_⟩
    intro g hg
    rcases List.mem_cons.mp hg with rfl | hg
    · exact show opBinary ≠ opClose by decide
    · exact hpre g hg
  · obtain ⟨es, t', hexec, hno, -, hover⟩ := Nursery.exists_tidied stepsLeft hrank ht hend
    exact ⟨es, t', hexec, hno, of_decide_eq_true hover⟩

/-- A message has come down when the client's side ends. -/
theorem session_torn_down_sample :
    let E : AesKeystream := fun _ _ _ => 0
    let urandom : ℕ → MaskKey := fun _ => ⟨[1, 2, 3, 4], rfl⟩
    let c : Cipher := ⟨[], [], 0⟩
    let reader : StreamReader := ⟨[0x82, 2, 7, 8], fun _ => 0⟩
    let ws := ((RawWebSocket.new reader).send urandom none [5]).2
    let s : WsSession StreamReader := start ⟨[], fun _ => 0⟩ ⟨c, c, c, c⟩ none ws
    ∃ t, exec (nursery StreamReader.source E urandom).step [.run .down (.go none),
        .run .down (.drained true), .run .up (.go none)] (.started Side s) = some t ∧
      t.world.toClient = [[7, 8]] ∧ t.world.up = .ended true ∧
      ∃ es t', exec (nursery StreamReader.source E urandom).step es t = some t' ∧
        (∀ e ∈ es, e.isRun = false) ∧ t'.world.closing = .finished := by
  intro E urandom c reader ws s
  have hws : (RawWebSocket.new reader).send urandom none [5] = (.ok (), ws) := rfl
  have hview : (exec (nursery StreamReader.source E urandom).step [.run .down (.go none),
      .run .down (.drained true), .run .up (.go none)] (.started Side s)).map
        (fun t => (t.world.toClient, t.world.up)) = some ([[7, 8]], .ended true) := by
    decide +kernel
  obtain ⟨t, ht, hview⟩ := Option.map_eq_some_iff.mp hview
  obtain ⟨hdown, hup⟩ := Prod.mk.inj hview
  have hreach : (nursery StreamReader.source E urandom).Reaches s t :=
    reachable_of_exec (.start rfl) ht
  refine ⟨t, ht, hdown, hup, (session_torn_down E StreamReader.source urandom _ _ none _ hws
    hreach).2.2 (Or.inr ⟨.up, done_up.mpr ⟨true, hup⟩⟩)⟩

end TgWsProxy
