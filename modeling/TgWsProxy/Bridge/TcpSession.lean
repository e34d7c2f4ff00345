import TgWsProxy.Core.Pump
import TgWsProxy.Bridge.Session

/-!
# A session over plain TCP

`_bridge_tcp_reencrypt` of `proxy/bridge.py`: two `forward` tasks, each a pump through two ciphers,
and the parent that ends the session with the first of them.

* `reencrypt` — the transducer of a `forward`: one cipher deciphers, the other enciphers.
* `TcpSession`, `TcpSession.nursery` — the code.
* **`tcpSession_intact`** — what each peer has of the other's stream in every state, and what is
  closed when.
-/

namespace TgWsProxy

open Wire

/-! ## The code -/

/-- `update` of one cipher and then of the other. -/
def reencrypt (E : AesKeystream) : Transducer (Cipher × Cipher) where
  feed k data :=
    let (plain, dec) := k.1.update E data
    let (out, enc) := k.2.update E plain
    (out, dec, enc)
  feed_nil k := by simp [Cipher.update]
  feed_append k a b := by
    simp [Cipher.update, xorFrom_append, Nat.add_assoc]

/-- Where the `finally` stands behind the two tasks: before it closes a writer, in the
`wait_closed()` of the client's and of the remote one, at its end. -/
inductive TcpClosingAt
  | notBegun
  | clientWait
  | remoteWait
  | finished
  deriving DecidableEq, Repr

/-- `forward(reader, remote_writer, True)` and `forward(remote_reader, writer, False)`.  The first
uses `clt_dec` and `tg_enc` of the context, the second `tg_dec` and `clt_enc`. -/
structure TcpSession (ρ : Type*) where
  up : Pump ρ (Cipher × Cipher)
  down : Pump StreamReader (Cipher × Cipher)
  closing : TcpClosingAt
  clientClosed : Bool
  remoteClosed : Bool

namespace TcpSession

variable {ρ : Type*}

/-- The two tasks as they are created. -/
def start (client : ρ) (remote : StreamReader) (ctx : CryptoCtx) : TcpSession ρ :=
  { up := .start client (ctx.cltDec, ctx.tgEnc)
    down := .start remote (ctx.tgDec, ctx.cltEnc)
    closing := .notBegun
    clientClosed := false
    remoteClosed := false }

/-- A `forward` goes on. -/
def run (R : Source ρ IncompleteRead) (E : AesKeystream) :
    Side → PumpMove → TcpSession ρ → Option (TcpSession ρ)
  | .up, m, s => (s.up.step R (reencrypt E) 65536 m).map fun up => { s with up }
  | .down, m, s =>
      (s.down.step StreamReader.source (reencrypt E) 65536 m).map fun down => { s with down }

/-- `CancelledError` inside a `forward`, which is caught there. -/
def cancel : Side → TcpSession ρ → TcpSession ρ
  | .up, s => { s with up := s.up.cancel }
  | .down, s => { s with down := s.down.cancel }

/-- A `forward` is at its end. -/
def done : Side → TcpSession ρ → Bool
  | .up, s => s.up.done
  | .down, s => s.down.done

/-- The `finally` behind the two tasks.  However a `wait_closed()` ends, the next writer is closed.
-/
def wrapUp (s : TcpSession ρ) : Option (TcpSession ρ) :=
  match s.closing with
  | .notBegun => some { s with clientClosed := true, closing := .clientWait }
  | .clientWait => some { s with remoteClosed := true, closing := .remoteWait }
  | .remoteWait => some { s with closing := .finished }
  | .finished => none

variable {R : Source ρ IncompleteRead} {E : AesKeystream} {s s' : TcpSession ρ}

lemma done_cancel (k : Side) (s : TcpSession ρ) : done k (cancel k s) = true := by
  cases k with
  | up => exact s.up.done_cancel
  | down => exact s.down.done_cancel

lemma done_of_cancel {k : Side} (j : Side) {s : TcpSession ρ} (h : done k s = true) :
    done k (cancel j s) = true := by
  by_cases hjk : j = k
  · rw [hjk]
    exact done_cancel k s
  · cases j <;> cases k <;> first | exact absurd rfl hjk | exact h

lemma done_of_run {k j : Side} {m : PumpMove} (hk : done k s = true) (hj : done j s = false)
    (h : run R E j m s = some s') : done k s' = true := by
  cases j with
  | up =>
      obtain ⟨up, -, rfl⟩ := Option.map_eq_some_iff.mp h
      cases k with
      | up =>
          rw [hk] at hj
          cases hj
      | down => exact hk
  | down =>
      obtain ⟨down, -, rfl⟩ := Option.map_eq_some_iff.mp h
      cases k with
      | up => exact hk
      | down =>
          rw [hk] at hj
          cases hj

/-- The `finally` closes the writers one after the other and touches nothing else. -/
lemma wrapUp_eq (h : s.wrapUp = some s') : s'.up = s.up ∧ s'.down = s.down := by
  unfold wrapUp at h
  split at h
  · obtain rfl := Option.some.inj h
    exact ⟨rfl, rfl⟩
  · obtain rfl := Option.some.inj h
    exact ⟨rfl, rfl⟩
  · obtain rfl := Option.some.inj h
    exact ⟨rfl, rfl⟩
  · cases h

lemma done_of_wrapUp {k : Side} (hk : done k s = true) (h : s.wrapUp = some s') :
    done k s' = true := by
  obtain ⟨hup, hdown⟩ := wrapUp_eq h
  cases k with
  | up =>
      show s'.up.done = true
      rw [hup]
      exact hk
  | down =>
      show s'.down.done = true
      rw [hdown]
      exact hk

/-- The session: `asyncio.wait(tasks, return_when=FIRST_COMPLETED)` and its `finally`. -/
def nursery (R : Source ρ IncompleteRead) (E : AesKeystream) :
    Nursery Side (TcpSession ρ) PumpMove Unit where
  run := run R E
  cancel := cancel
  done := done
  tidy _ s := s.wrapUp
  tidied s := decide (s.closing = .finished)
  done_cancel := done_cancel
  done_of_cancel := done_of_cancel
  done_of_run := done_of_run
  done_of_tidy := done_of_wrapUp

/-! ## What is kept -/

/-- Both pumps have written what they have read, and the writers are closed behind them, the
client's first. -/
structure Kept (R : Source ρ IncompleteRead) (E : AesKeystream) (s₀ s : TcpSession ρ) : Prop where
  up : Pump.Fed R (reencrypt E) 65536 s₀.up s.up
  down : Pump.Fed StreamReader.source (reencrypt E) 65536 s₀.down s.down
  done : s.closing ≠ .notBegun → ∀ k, s.done k = true
  client : s.clientClosed = true ↔ s.closing ≠ .notBegun
  remote : s.remoteClosed = true ↔ s.closing = .remoteWait ∨ s.closing = .finished

namespace Kept

variable {s₀ : TcpSession ρ}

lemma start (client : ρ) (remote : StreamReader) (ctx : CryptoCtx) :
    Kept R E (start client remote ctx) (start client remote ctx) :=
  ⟨.start client _, .start remote _, fun hne => absurd rfl hne, by simp [TcpSession.start],
    by simp [TcpSession.start]⟩

/-- A pump moves, or is cancelled, while it is not at its end. -/
lemma of_pumps (h : Kept R E s₀ s) {k : Side} (hk : s.done k = false)
    (hup : Pump.Fed R (reencrypt E) 65536 s₀.up s'.up)
    (hdown : Pump.Fed StreamReader.source (reencrypt E) 65536 s₀.down s'.down)
    (hclosing : s'.closing = s.closing) (hclient : s'.clientClosed = s.clientClosed)
    (hremote : s'.remoteClosed = s.remoteClosed) : Kept R E s₀ s' := by
  have hbegun : s.closing = .notBegun := by
    by_contra hne
    rw [h.done hne k] at hk
    cases hk
  refine ⟨hup, hdown, fun hne => absurd (hclosing.trans hbegun) hne, ?_, ?_⟩
  · rw [hclient, hclosing]
    exact h.client
  · rw [hremote, hclosing]
    exact h.remote

lemma run {k : Side} {m : PumpMove} (h : Kept R E s₀ s) (hk : s.done k = false)
    (hrun : TcpSession.run R E k m s = some s') : Kept R E s₀ s' := by
  cases k with
  | up =>
      obtain ⟨up, hup, rfl⟩ := Option.map_eq_some_iff.mp hrun
      exact h.of_pumps hk (h.up.step (by decide) hup) h.down rfl rfl rfl
  | down =>
      obtain ⟨down, hdown, rfl⟩ := Option.map_eq_some_iff.mp hrun
      exact h.of_pumps hk h.up (h.down.step (by decide) hdown) rfl rfl rfl

lemma cancel (h : Kept R E s₀ s) {k : Side} (hk : s.done k = false) :
    Kept R E s₀ (s.cancel k) := by
  cases k with
  | up => exact h.of_pumps hk h.up.cancel h.down rfl rfl rfl
  | down => exact h.of_pumps hk h.up h.down.cancel rfl rfl rfl

lemma wrapUp (h : Kept R E s₀ s) (hdone : ∀ k, s.done k = true) (hstep : s.wrapUp = some s') :
    Kept R E s₀ s' := by
  have hdone' : ∀ k, s'.done k = true := fun k => done_of_wrapUp (hdone k) hstep
  have hclient := h.client
  have hremote := h.remote
  obtain ⟨hup, hdown⟩ := wrapUp_eq hstep
  have hpumps : Pump.Fed R (reencrypt E) 65536 s₀.up s'.up ∧
      Pump.Fed StreamReader.source (reencrypt E) 65536 s₀.down s'.down := by
    rw [hup, hdown]
    exact ⟨h.up, h.down⟩
  refine ⟨hpumps.1, hpumps.2, fun _ => hdone', ?_, ?_⟩
  · unfold TcpSession.wrapUp at hstep
    split at hstep <;> cases hstep <;> simp_all
  · unfold TcpSession.wrapUp at hstep
    split at hstep <;> cases hstep <;> simp_all

end Kept

theorem kept_of_reaches {s₀ : TcpSession ρ} {t : Nursery.State Side (TcpSession ρ)}
    (hstart : Kept R E s₀ s₀) (h : (nursery R E).Reaches s₀ t) : Kept R E s₀ t.world :=
  Nursery.invariant hstart (fun _ _ _ _ hw hk hrun => hw.run hk hrun)
    (fun _ _ hw hk => hw.cancel hk) (fun _ _ _ hw hdone _ htidy => hw.wrapUp hdone htidy) h

/-- How many steps of the `finally` are left. -/
def stepsLeft (s : TcpSession ρ) : ℕ :=
  match s.closing with
  | .notBegun => 3
  | .clientWait => 2
  | .remoteWait => 1
  | .finished => 0

lemma exists_wrapUp (s : TcpSession ρ) (h : s.closing ≠ .finished) :
    ∃ s', s.wrapUp = some s' ∧ s'.stepsLeft < s.stepsLeft := by
  unfold wrapUp stepsLeft
  cases hat : s.closing with
  | notBegun => exact ⟨_, rfl, by simp⟩
  | clientWait => exact ⟨_, rfl, by simp⟩
  | remoteWait => exact ⟨_, rfl, by simp⟩
  | finished => exact absurd hat h

end TcpSession

/-! ## The session -/

open TcpSession

/-- **End to end over TCP.**  Over every interleaving of the two directions, of failing writes and
of cancellations, each peer has of the other's stream a beginning of what was sent, and all of it
when its direction has come to the end of the stream.  Neither connection is closed while a
direction is not at its end; both are closed when the session is over; and the end of either
direction, or a cancellation, is enough to bring it there. -/
theorem tcpSession_intact (sha256 : Bytes → Digest) (E : AesKeystream) (secret init x y : Bytes)
    (hinit : init.length = 64) (htag : IsProtoTag (slice init 56 60))
    {protoTag pad relayInit : Bytes} {dcIdx : ℤ} {draws : List Bytes}
    (hdraws : ∀ rnd ∈ draws, rnd.length = handshakeLen)
    (hrelay : generateRelayInit E protoTag dcIdx pad draws = .ok (some relayInit))
    {ρ : Type*} (R : Source ρ IncompleteRead) (client : ρ)
    (hclient : R.Within client (clientSend sha256 E secret init x)) (remote : StreamReader)
    (hremote : remote.wire <+: serverSend E relayInit y) :
    ∃ dc isMedia prekeyIv ctx,
      tryHandshake sha256 E (clientInit sha256 E secret init) secret
        = .ok (some (dc, isMedia, slice init 56 60, prekeyIv)) ∧
      buildCryptoCtx sha256 E prekeyIv secret relayInit = .ok ctx ∧
      ∀ t, (nursery R E).Reaches (start client remote ctx) t →
        (serverRecv E relayInit t.world.up.written.flatten <+: x ∧
          (t.world.up.at' = .ended true → R.ReadsAs client (clientSend sha256 E secret init x) →
            serverRecv E relayInit t.world.up.written.flatten = x)) ∧
        (clientRecv sha256 E secret init t.world.down.written.flatten <+: y ∧
          (t.world.down.at' = .ended true → remote.wire = serverSend E relayInit y →
            clientRecv sha256 E secret init t.world.down.written.flatten = y)) ∧
        ((∃ k, t.world.done k = false) →
          t.world.clientClosed = false ∧ t.world.remoteClosed = false) ∧
        (t.world.closing = .finished →
          t.world.clientClosed = true ∧ t.world.remoteClosed = true) ∧
        (t.parent ≠ .waiting ∨ (∃ k, t.world.done k = true) →
          ∃ es t', exec (nursery R E).step es t = some t' ∧ (∀ e ∈ es, e.isRun = false) ∧
            t'.world.closing = .finished) := by
  obtain ⟨dc, isMedia, prekeyIv, ctx, haccept, hctx, hcltDec, htgEnc, htgDec, hcltEnc⟩ :=
    sessionCiphers sha256 E secret init hinit htag hdraws hrelay
  refine ⟨dc, isMedia, prekeyIv, ctx, haccept, hctx, fun t ht => ?_⟩
  have hkept := kept_of_reaches (Kept.start client remote ctx) ht
  have hread : StreamReader.source.ReadsAs remote remote.wire := StreamReader.readsAs _ _
  have hup := hkept.up.of_within (by decide) rfl hclient
  have hdown := hkept.down.of_within (by decide) rfl hread.within
  have hsent : ∀ z, ((reencrypt E).feed (ctx.cltDec, ctx.tgEnc) z).1 =
      ctx.tgEnc.peek E (ctx.cltDec.peek E z) := fun _ => rfl
  have hback : ∀ z, ((reencrypt E).feed (ctx.tgDec, ctx.cltEnc) z).1 =
      ctx.cltEnc.peek E (ctx.tgDec.peek E z) := fun _ => rfl
  have hrank : ∀ s : TcpSession ρ, (nursery R E).tidied s = false →
      ∃ a s', (nursery R E).tidy a s = some s' ∧ s'.stepsLeft < s.stepsLeft := by
    intro s hs
    obtain ⟨s', hs', hlt⟩ := exists_wrapUp s (of_decide_eq_false hs)
    exact ⟨(), s', hs', hlt⟩
  refine ⟨⟨?_, fun hend hreads => ?_⟩, ⟨?_, fun hend hwire => ?_⟩, ?_, fun hend => ?_,
    fun hend => ?_⟩
  · have hpre := Cipher.peek_prefix E ⟨slice relayInit 8 40, slice relayInit 40 56, 64⟩
      (hsent _ ▸ hup.1)
    rw [← serverRecv, ← serverRecv, htgEnc, hcltDec] at hpre
    exact hpre
  · rw [hup.2 hend hreads,
      show (start client remote ctx).up.state = (ctx.cltDec, ctx.tgEnc) from rfl, hsent, htgEnc,
      hcltDec]
  · have hpre := Cipher.peek_prefix E (clientDec sha256 secret init) (hback _ ▸ hdown.1)
    rw [← clientRecv, ← clientRecv, hcltEnc] at hpre
    have hplain := Cipher.peek_prefix E ctx.tgDec hremote
    rw [htgDec] at hplain
    exact hpre.trans hplain
  · rw [hdown.2 hend hread, show (start client remote ctx).down.state = (ctx.tgDec, ctx.cltEnc) from
      rfl, hback, hcltEnc, hwire, htgDec]
  · rintro ⟨k, hk⟩
    have hbegun : t.world.closing = .notBegun := by
      by_contra hne
      rw [hkept.done hne k] at hk
      cases hk
    rw [← Bool.not_eq_true, ← Bool.not_eq_true, hkept.client, hkept.remote, hbegun]
    simp
  · rw [hkept.client, hkept.remote, hend]
    simp
  · obtain ⟨es, t', hexec, hno, -, hover⟩ := Nursery.exists_tidied stepsLeft hrank ht hend
    exact ⟨es, t', hexec, hno, of_decide_eq_true hover⟩

/-- A plain client that sends three octets, and a server that answers two. -/
theorem tcpSession_intact_sample :
    let sha256 : Bytes → Digest := fun _ => ⟨List.replicate 32 7, rfl⟩
    let E : AesKeystream := fun key _ n => key.headD 0 + UInt8.ofNat n
    let init : Bytes := List.replicate 56 1 ++ protoTagSecure ++ [2, 0, 9, 9]
    let relayInit : Bytes := List.replicate 56 3 ++ [230, 225, 224, 227, 61, 64, 65, 66]
    ∃ ctx, ∀ t, (nursery StreamReader.source E).Reaches
        (start ⟨clientSend sha256 E [5] init [1, 2, 3], fun _ => 0⟩
          ⟨serverSend E relayInit [7, 8], fun _ => 0⟩ ctx) t →
      (t.world.up.at' = .ended true →
        serverRecv E relayInit t.world.up.written.flatten = [1, 2, 3]) ∧
      (t.world.down.at' = .ended true →
        clientRecv sha256 E [5] init t.world.down.written.flatten = [7, 8]) := by
  intro sha256 E init relayInit
  let draws : List Bytes := [List.replicate 64 0xEF, List.replicate 64 3]
  have hrelay : generateRelayInit E protoTagSecure 2 [0, 0] draws = .ok (some relayInit) := by
    decide +revert
  have hdraws : ∀ rnd ∈ draws, rnd.length = handshakeLen := by decide
  have hclient := StreamReader.readsAs (clientSend sha256 E [5] init [1, 2, 3]) fun _ => 0
  obtain ⟨-, -, -, ctx, -, -, h⟩ := tcpSession_intact sha256 E [5] init [1, 2, 3] [7, 8] rfl
    (by decide) hdraws hrelay StreamReader.source _ hclient.within
    ⟨serverSend E relayInit [7, 8], fun _ => 0⟩ List.prefix_rfl
  exact ⟨ctx, fun t ht => ⟨fun hend => (h t ht).1.2 hend hclient,
    fun hend => (h t ht).2.1.2 hend rfl⟩⟩

end TgWsProxy
