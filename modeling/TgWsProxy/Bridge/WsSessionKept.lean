import Mathlib
import TgWsProxy.Bridge.WsSession
import TgWsProxy.WebSocket.Traffic

/-!
# What a session keeps

The invariant of `bridge_ws_reencrypt`, over every interleaving of its two tasks.

* `Upstream` — what was read from the client, and what has become of it.
* `Downstream` — which frames were read from the server, and what of them the client was given.
* `Kept` — both, and the frames that were written: nothing behind a CLOSE.
* `Kept.goUp`, `Kept.goDown`, `Kept.cancel`, `Kept.wrapUp` — one lemma for each kind of step; the
  side that does not move is left as it is.
* **`kept_of_reaches`** — every state of a session is kept.
-/

namespace TgWsProxy

open Wire

namespace WsSession

variable {ρ : Type*}

/-! ## What is kept -/

variable {R : Source ρ IncompleteRead} {E : AesKeystream} {urandom : ℕ → MaskKey}
  {s₀ s s' : WsSession ρ} {got sent d : Bytes} {inn : List Frame}

/-- `tcp_to_ws` has not come to an end of the stream, nor raised. -/
def Reading (at' : UpAt) : Prop := at' = .reading ∨ at' = .draining false

/-- `tcp_to_ws` has read `b''`. -/
def AtEnd (at' : UpAt) : Prop := at' = .draining true ∨ at' = .ended true

lemma not_reading_ended (b : Bool) : ¬ Reading (.ended b) := by
  rintro (h | h) <;> cases h

lemma Reading.not_atEnd {at' : UpAt} (h : Reading at') : ¬ AtEnd at' := by
  rcases h with rfl | rfl <;> rintro (h | h) <;> cases h

lemma not_atEnd_failed : ¬ AtEnd (.ended false) := by
  rintro (h | h) <;> cases h

/-- What the server is sent for `got`: the re-encryption, behind what the splitter held. -/
def forwarded (E : AesKeystream) (s₀ : WsSession ρ) (got : Bytes) : Bytes :=
  heldBack s₀.splitter ++ s₀.ctx.tgEnc.peek E (s₀.ctx.cltDec.peek E got)

/-- `got` was read from the client and `sent` went to the server: all of it, but for what the
splitter holds and what an exception cut off. -/
structure Upstream (R : Source ρ IncompleteRead) (E : AesKeystream) (s₀ : WsSession ρ)
    (got sent : Bytes) (s : WsSession ρ) : Prop where
  cltDec : s.ctx.cltDec = (s₀.ctx.cltDec.update E got).2
  tgEnc : s.ctx.tgEnc = (s₀.ctx.tgEnc.update E (s₀.ctx.cltDec.peek E got)).2
  sound : ∀ sp ∈ s.splitter, sp.Sound
  prefixed : sent <+: forwarded E s₀ got
  complete : s.up ≠ .ended false → sent ++ heldBack s.splitter = forwarded E s₀ got
  flushed : AtEnd s.up → heldBack s.splitter = []
  client : ∃ c, R.Gets s₀.client got c ∧ (Reading s.up → s.client = c) ∧
    (AtEnd s.up → ∃ c', R.read 65536 c = (.ok [], c'))

/-- `ws_to_tcp` has not come to its end, nor read a CLOSE. -/
def Receiving (at' : DownAt) : Prop := at' = .receiving ∨ at' = .delivering

/-- The octets `d` of the frames `inn` were handed to the client; the rest is an incomplete
message. -/
structure Downstream (E : AesKeystream) (s₀ : WsSession ρ) (inn : List Frame) (d : Bytes)
    (s : WsSession ρ) : Prop where
  tgDec : s.ctx.tgDec = (s₀.ctx.tgDec.update E d).2
  cltEnc : s.ctx.cltEnc = (s₀.ctx.cltEnc.update E (s₀.ctx.tgDec.peek E d)).2
  delivered : s.toClient.flatten = s₀.ctx.cltEnc.peek E (s₀.ctx.tgDec.peek E d)
  octets : d ++ s.socket.ws.frag = dataOctets inn
  whole : s.down ≠ .ended false →
    (∀ f ∈ (inn.filter fun f => decide (DataOpcode f.opcode)).getLast?, f.fin = true) →
    s.socket.ws.frag = []
  server : ∃ r, FramesRead s₀.socket.ws.reader inn r ∧
    (Receiving s.down → s.socket.ws.reader = r ∧ s.socket.ws.closed = false)
  ended : if s.down = .closing ∨ s.down = .ended true then
      ∃ pre f, inn = pre ++ [f] ∧ f.opcode = opClose ∧ ∀ g ∈ pre, g.opcode ≠ opClose
    else ∀ g ∈ inn.dropLast, g.opcode ≠ opClose
  receiving : Receiving s.down → ∀ g ∈ inn, g.opcode ≠ opClose

/-- A session that began as `s₀`. -/
def Kept (R : Source ρ IncompleteRead) (E : AesKeystream) (s₀ s : WsSession ρ) : Prop :=
  ∃ out got inn d, Wrote out s₀.socket.ws s.socket.ws ∧ Sealed s.socket.ws.closed out ∧
    Upstream R E s₀ got (dataOctets out) s ∧ Downstream E s₀ inn d s

lemma Upstream.congr (h : Upstream R E s₀ got sent s) (hdec : s'.ctx.cltDec = s.ctx.cltDec)
    (henc : s'.ctx.tgEnc = s.ctx.tgEnc) (hsplit : s'.splitter = s.splitter) (hup : s'.up = s.up)
    (hclient : s'.client = s.client) : Upstream R E s₀ got sent s' := by
  refine ⟨hdec.trans h.cltDec, henc.trans h.tgEnc, ?_, h.prefixed, ?_, ?_, ?_⟩
  · rw [hsplit]
    exact h.sound
  · rw [hup, hsplit]
    exact h.complete
  · rw [hup, hsplit]
    exact h.flushed
  · rw [hup, hclient]
    exact h.client

/-- The task ends otherwise than at the end of the stream. -/
lemma Upstream.fail (h : Upstream R E s₀ got sent s) (hdec : s'.ctx.cltDec = s.ctx.cltDec)
    (henc : s'.ctx.tgEnc = s.ctx.tgEnc) (hsplit : s'.splitter = s.splitter)
    (hup : s'.up = .ended false) : Upstream R E s₀ got sent s' := by
  obtain ⟨c, hgets, -⟩ := h.client
  refine ⟨hdec.trans h.cltDec, henc.trans h.tgEnc, ?_, h.prefixed, fun hne => absurd hup hne, ?_,
    c, hgets, ?_, ?_⟩
  · rw [hsplit]
    exact h.sound
  · rw [hup]
    exact fun hend => absurd hend not_atEnd_failed
  · rw [hup]
    exact fun hr => absurd hr (not_reading_ended false)
  · rw [hup]
    exact fun hend => absurd hend not_atEnd_failed

lemma Downstream.congr (h : Downstream E s₀ inn d s) (hdec : s'.ctx.tgDec = s.ctx.tgDec)
    (henc : s'.ctx.cltEnc = s.ctx.cltEnc) (hto : s'.toClient = s.toClient)
    (hfrag : s'.socket.ws.frag = s.socket.ws.frag) (hdown : s'.down = s.down)
    (hserver : Receiving s.down → s'.socket.ws.reader = s.socket.ws.reader ∧
      s'.socket.ws.closed = s.socket.ws.closed) : Downstream E s₀ inn d s' := by
  obtain ⟨r, hr, hrecv⟩ := h.server
  refine ⟨hdec.trans h.tgDec, henc.trans h.cltEnc, ?_, ?_, ?_, ⟨r, hr, fun hd => ?_⟩, ?_, ?_⟩
  · rw [hto]
    exact h.delivered
  · rw [hfrag]
    exact h.octets
  · rw [hdown, hfrag]
    exact h.whole
  · rw [hdown] at hd
    obtain ⟨hreader, hclosed⟩ := hserver hd
    rw [hreader, hclosed]
    exact hrecv hd
  · rw [hdown]
    exact h.ended
  · rw [hdown]
    exact h.receiving

/-- The tasks as they are created. -/
lemma Kept.start (client : ρ) (ctx : CryptoCtx) {splitter : Option MsgSplitter} {ws : RawWebSocket}
    (hsound : ∀ sp ∈ splitter, sp.Sound) (hopen : ws.closed = false) (hfrag : ws.frag = []) :
    Kept R E (start client ctx splitter ws) (start client ctx splitter ws) := by
  refine ⟨[], [], [], [], .of_eq rfl, ?_, ?_, ?_⟩
  · show Sealed ws.closed []
    rw [hopen]
    exact fun g hg => absurd hg List.not_mem_nil
  · refine ⟨rfl, rfl, hsound, List.nil_prefix, fun _ => ?_, ?_, client, .refl client, fun _ => rfl,
      ?_⟩
    · simp [forwarded, WsSession.start]
    · rintro (h | h) <;> cases h
    · rintro (h | h) <;> cases h
  · refine ⟨rfl, rfl, rfl, hfrag, fun _ _ => hfrag, ⟨ws.reader, .nil _, fun _ => ⟨rfl, hopen⟩⟩, ?_,
      fun _ g hg => absurd hg List.not_mem_nil⟩
    rw [if_neg (by simp [WsSession.start])]
    exact fun g hg => absurd hg List.not_mem_nil

/-! ## Upstream -/

/-- A `send` writes all of its parts and waits for `drain()`, or raises behind some of them; behind
a CLOSE it writes nothing. -/
lemma send_spec (urandom : ℕ → MaskKey) (fails : Option ℕ) (last : Bool) {parts : List Bytes}
    (hne : parts ≠ []) (s : WsSession ρ) : ∃ fs ws at', s.send urandom fails last parts =
        { s with socket := { s.socket with ws }, up := at' } ∧
      (at' = .draining last ∧ dataOctets fs = parts.flatten ∨
        at' = .ended false ∧ dataOctets fs <+: parts.flatten) ∧
      Wrote fs s.socket.ws ws ∧ (s.socket.ws.closed = true → fs = []) ∧
      (∀ g ∈ fs, g.opcode ≠ opClose) ∧ ws.closed = s.socket.ws.closed ∧
      ws.reader = s.socket.ws.reader ∧ ws.frag = s.socket.ws.frag := by
  have hparts : (if 1 < parts.length then s.socket.ws.sendBatch urandom fails parts
      else s.socket.ws.send urandom fails (parts.headD [])) =
      if s.socket.ws.closed then
        (.error (.ws (.connection "WebSocket closed")), s.socket.ws)
      else s.socket.ws.writeParts urandom fails 0 parts := by
    split_ifs with hlen hclosed hclosed
    · rw [RawWebSocket.sendBatch, if_pos hclosed]
    · rw [RawWebSocket.sendBatch, if_neg hclosed]
    · rw [RawWebSocket.send, if_pos hclosed]
    · have hone : parts = [parts.headD []] := by
        cases parts with
        | nil => exact absurd rfl hne
        | cons part rest =>
            cases rest with
            | nil => rfl
            | cons part' rest => exact absurd (by simp) hlen
      rw [RawWebSocket.send, if_neg hclosed, ← hone]
  simp only [send, hparts]
  by_cases hclosed : s.socket.ws.closed = true
  · rw [if_pos hclosed]
    exact ⟨[], s.socket.ws, .ended false, rfl, Or.inr ⟨rfl, List.nil_prefix⟩, .of_eq rfl,
      fun _ => rfl, fun g hg => absurd hg List.not_mem_nil, rfl, rfl, rfl⟩
  · rw [if_neg hclosed]
    obtain ⟨written, hwrote, hpre, hok, hreader, hfrag⟩ :=
      RawWebSocket.writeParts_wrote urandom fails 0 parts s.socket.ws
    have hflat : dataOctets (written.map binaryFrame) <+: parts.flatten := by
      obtain ⟨rest, rfl⟩ := hpre
      rw [dataOctets_binaryFrame, List.flatten_append]
      exact List.prefix_append _ _
    refine ⟨written.map binaryFrame, _, _, rfl, ?_, hwrote, fun h => absurd h hclosed, ?_,
      RawWebSocket.writeParts_closed .., hreader, hfrag⟩
    · split
      · next hres => exact Or.inl ⟨rfl, by rw [hok hres, dataOctets_binaryFrame]⟩
      · exact Or.inr ⟨rfl, hflat⟩
    · intro g hg
      obtain ⟨part, -, rfl⟩ := List.mem_map.mp hg
      exact show opBinary ≠ opClose by decide

/-- What a step of `tcp_to_ws` does to what is shared: it writes data frames, none behind a CLOSE.
-/
structure Forwards (fs : List Frame) (s s' : WsSession ρ) : Prop where
  wrote : Wrote fs s.socket.ws s'.socket.ws
  closed : s'.socket.ws.closed = s.socket.ws.closed
  sealed : s.socket.ws.closed = true → fs = []
  opcode : ∀ g ∈ fs, g.opcode ≠ opClose
  reader : s'.socket.ws.reader = s.socket.ws.reader
  frag : s'.socket.ws.frag = s.socket.ws.frag
  tgDec : s'.ctx.tgDec = s.ctx.tgDec
  cltEnc : s'.ctx.cltEnc = s.ctx.cltEnc
  toClient : s'.toClient = s.toClient
  down : s'.down = s.down

lemma Forwards.of_eq (hsocket : s'.socket = s.socket) (hdec : s'.ctx.tgDec = s.ctx.tgDec)
    (henc : s'.ctx.cltEnc = s.ctx.cltEnc) (hto : s'.toClient = s.toClient)
    (hdown : s'.down = s.down) : Forwards [] s s' :=
  ⟨.of_eq (by rw [hsocket]), by rw [hsocket], fun _ => rfl, fun _ hg => absurd hg List.not_mem_nil,
    by rw [hsocket], by rw [hsocket], hdec, henc, hto, hdown⟩

/-- The rest of the session goes on from there. -/
lemma Forwards.kept {fs out : List Frame} (h : Forwards fs s s')
    (hwrote : Wrote out s₀.socket.ws s.socket.ws) (hsealed : Sealed s.socket.ws.closed out)
    (hup : Upstream R E s₀ got (dataOctets (out ++ fs)) s') (hdown : Downstream E s₀ inn d s) :
    Kept R E s₀ s' := by
  refine ⟨out ++ fs, got, inn, d, hwrote.trans h.wrote, ?_, hup, ?_⟩
  · rw [h.closed]
    cases hclosed : s.socket.ws.closed with
    | true =>
        rw [h.sealed hclosed, List.append_nil, ← hclosed]
        exact hsealed
    | false =>
        rw [hclosed] at hsealed
        exact hsealed.append h.opcode
  · exact hdown.congr h.tgDec h.cltEnc h.toClient h.frag h.down fun _ => ⟨h.reader, h.closed⟩

/-- Nothing is written. -/
lemma Forwards.kept_nil {out : List Frame} (h : Forwards [] s s')
    (hwrote : Wrote out s₀.socket.ws s.socket.ws) (hsealed : Sealed s.socket.ws.closed out)
    (hup : Upstream R E s₀ got (dataOctets out) s') (hdown : Downstream E s₀ inn d s) :
    Kept R E s₀ s' :=
  h.kept hwrote hsealed (by rwa [List.append_nil]) hdown

/-- A chunk. -/
lemma forwarded_append (got data : Bytes) : forwarded E s₀ (got ++ data) = forwarded E s₀ got ++
    (s₀.ctx.tgEnc.update E (s₀.ctx.cltDec.peek E got)).2.peek E
      ((s₀.ctx.cltDec.update E got).2.peek E data) := by
  rw [forwarded, forwarded, Cipher.peek_append, Cipher.peek_append, List.append_assoc]

lemma Upstream.onChunk (urandom : ℕ → MaskKey) (h : Upstream R E s₀ got sent s)
    (hup : s.up = .reading) {client : ρ} {data : Bytes}
    (hread : R.read 65536 s.client = (.ok data, client)) (hne : data ≠ []) (fails : Option ℕ) :
    ∃ fs, Forwards fs s ({ s with client }.onChunk E urandom fails data) ∧
      Upstream R E s₀ (got ++ data) (sent ++ dataOctets fs)
        ({ s with client }.onChunk E urandom fails data) := by
  obtain ⟨c, hgets, hc, -⟩ := h.client
  obtain rfl := hc (Or.inl hup)
  have hgets' : R.Gets s₀.client (got ++ data) client := hgets.snoc (by decide) hread hne
  have hall := h.complete (by rw [hup]; rintro ⟨⟩)
  obtain ⟨hparts, hsound⟩ :=
    splitParts_sound h.sound (s.ctx.up E data).1 (s.ctx.cltDec.update E data).1
  -- All of the chunk is in the parts or with the splitter.
  have htarget : sent ++ ((splitParts s.splitter (s.ctx.up E data).1
        (s.ctx.cltDec.update E data).1).1.flatten ++
      heldBack (splitParts s.splitter (s.ctx.up E data).1 (s.ctx.cltDec.update E data).1).2) =
      forwarded E s₀ (got ++ data) := by
    rw [hparts, ← List.append_assoc, hall, forwarded_append, ← h.cltDec, ← h.tgEnc]
    rfl
  have hdec : (s.ctx.cltDec.update E data).2 = (s₀.ctx.cltDec.update E (got ++ data)).2 := by
    rw [h.cltDec]
    simp [Cipher.update, Nat.add_assoc]
  have henc : (s.ctx.tgEnc.update E (s.ctx.cltDec.peek E data)).2 =
      (s₀.ctx.tgEnc.update E (s₀.ctx.cltDec.peek E (got ++ data))).2 := by
    rw [h.tgEnc]
    simp [Cipher.update, Nat.add_assoc]
  simp only [WsSession.onChunk]
  by_cases hnil : (splitParts s.splitter (s.ctx.up E data).1 (s.ctx.cltDec.update E data).1).1 = []
  · rw [if_pos hnil]
    rw [hnil, List.flatten_nil, List.nil_append] at htarget
    refine ⟨[], .of_eq rfl rfl rfl rfl rfl, ?_⟩
    rw [dataOctets_nil, List.append_nil]
    have hnot := Reading.not_atEnd (Or.inl hup)
    exact ⟨hdec, henc, hsound, ⟨_, htarget⟩, fun _ => htarget, fun hend => absurd hend hnot,
      client, hgets', fun _ => rfl, fun hend => absurd hend hnot⟩
  · rw [if_neg hnil]
    obtain ⟨fs, ws, at', hsend, hat, hwrote, hsealed, hop, hclosed, hreader, hfrag⟩ :=
      send_spec urandom fails false hnil
        { s with client, ctx := (s.ctx.up E data).2,
                 splitter := (splitParts s.splitter (s.ctx.up E data).1
                   (s.ctx.cltDec.update E data).1).2 }
    rw [hsend]
    refine ⟨fs, ⟨hwrote, hclosed, hsealed, hop, hreader, hfrag, rfl, rfl, rfl, rfl⟩, ?_⟩
    rw [← List.append_assoc] at htarget
    rcases hat with ⟨rfl, hfs⟩ | ⟨rfl, hfs⟩
    · rw [hfs]
      have hnot := Reading.not_atEnd (Or.inr (rfl : UpAt.draining false = .draining false))
      exact ⟨hdec, henc, hsound, ⟨_, htarget⟩, fun _ => htarget, fun hend => absurd hend hnot,
        client, hgets', fun _ => rfl, fun hend => absurd hend hnot⟩
    · refine ⟨hdec, henc, hsound, ?_, fun hne => absurd rfl hne,
        fun hend => absurd hend not_atEnd_failed, client, hgets',
        fun hr => absurd hr (not_reading_ended false), fun hend => absurd hend not_atEnd_failed⟩
      rw [← htarget]
      exact ((List.prefix_append_right_inj sent).mpr hfs).trans (List.prefix_append _ _)

lemma heldBack_flush (splitter : Option MsgSplitter) :
    heldBack (splitter.map fun sp => sp.flush.2) = [] := by
  cases splitter with
  | none => rfl
  | some sp =>
      show sp.flush.2.cipherBuf = []
      rw [MsgSplitter.flush]
      split_ifs with h
      · exact h
      · rfl

lemma Upstream.onEnd (urandom : ℕ → MaskKey) (h : Upstream R E s₀ got sent s)
    (hup : s.up = .reading) {client : ρ} (hread : R.read 65536 s.client = (.ok [], client))
    (fails : Option ℕ) :
    ∃ fs, Forwards fs s ({ s with client }.onEnd urandom fails) ∧
      Upstream R E s₀ got (sent ++ dataOctets fs) ({ s with client }.onEnd urandom fails) := by
  obtain ⟨c, hgets, hc, -⟩ := h.client
  obtain rfl := hc (Or.inl hup)
  have hall := h.complete (by rw [hup]; rintro ⟨⟩)
  have hheld := heldBack_flush s.splitter
  have hsound : ∀ sp ∈ s.splitter.map fun (sp : MsgSplitter) => sp.flush.2, sp.Sound := by
    intro sp hsp
    rw [hsp] at hheld
    exact fun _ => hheld
  simp only [WsSession.onEnd]
  by_cases hnil : flushTail s.splitter = []
  · rw [if_pos hnil]
    have hnone : heldBack s.splitter = [] := by rw [← flatten_flushTail, hnil, List.flatten_nil]
    refine ⟨[], .of_eq rfl rfl rfl rfl rfl, ?_⟩
    rw [dataOctets_nil, List.append_nil]
    rw [hnone] at hall
    refine ⟨h.cltDec, h.tgEnc, hsound, h.prefixed, fun _ => ?_, fun _ => hheld, s.client, hgets,
      fun hr => absurd hr (not_reading_ended true), fun _ => ⟨client, hread⟩⟩
    rw [hheld]
    exact hall
  · rw [if_neg hnil]
    obtain ⟨fs, ws, at', hsend, hat, hwrote, hsealed, hop, hclosed, hreader, hfrag⟩ :=
      send_spec urandom fails true hnil
        { s with client, splitter := s.splitter.map fun (sp : MsgSplitter) => sp.flush.2 }
    rw [hsend]
    refine ⟨fs, ⟨hwrote, hclosed, hsealed, hop, hreader, hfrag, rfl, rfl, rfl, rfl⟩, ?_⟩
    rw [flatten_flushTail] at hat
    rcases hat with ⟨rfl, hfs⟩ | ⟨rfl, hfs⟩
    · rw [hfs]
      have hat : AtEnd (.draining true) := Or.inl rfl
      refine ⟨h.cltDec, h.tgEnc, hsound, by rw [hall], fun _ => ?_, fun _ => hheld, s.client, hgets,
        fun hr => absurd hat hr.not_atEnd, fun _ => ⟨client, hread⟩⟩
      rw [hheld, List.append_nil]
      exact hall
    · refine ⟨h.cltDec, h.tgEnc, hsound, ?_, fun hne => absurd rfl hne,
        fun hend => absurd hend not_atEnd_failed, s.client, hgets,
        fun hr => absurd hr (not_reading_ended false), fun hend => absurd hend not_atEnd_failed⟩
      rw [← hall]
      exact (List.prefix_append_right_inj sent).mpr hfs

/-- **Upstream.**  `tcp_to_ws` keeps the session. -/
lemma Kept.goUp {m : Resume} (h : Kept R E s₀ s) (hstep : s.goUp R E urandom m = some s') :
    Kept R E s₀ s' := by
  obtain ⟨out, got, inn, d, hwrote, hsealed, hup, hdown⟩ := h
  unfold WsSession.goUp at hstep
  split at hstep
  · next fails hat =>
      split at hstep
      · next e client hread =>
          obtain rfl := Option.some.inj hstep
          exact Forwards.kept_nil (s := s) (.of_eq rfl rfl rfl rfl rfl) hwrote hsealed
            (hup.fail rfl rfl rfl rfl) hdown
      · next data client hread =>
          split_ifs at hstep with hnil
          · obtain rfl := Option.some.inj hstep
            subst hnil
            obtain ⟨fs, hfs, hup'⟩ := hup.onEnd urandom hat hread fails
            exact hfs.kept hwrote hsealed (by rwa [dataOctets_append]) hdown
          · obtain rfl := Option.some.inj hstep
            obtain ⟨fs, hfs, hup'⟩ := hup.onChunk urandom hat hread hnil fails
            exact hfs.kept hwrote hsealed (by rwa [dataOctets_append]) hdown
  · next ok last hat =>
      obtain rfl := Option.some.inj hstep
      obtain ⟨c, hgets, hc, hend⟩ := hup.client
      have hall := hup.complete (by rw [hat]; rintro ⟨⟩)
      have hup' : Upstream R E s₀ got (dataOctets out)
          { s with
            up := if ok then (if last then .ended true else .reading) else .ended false } := by
        cases ok with
        | false => exact hup.fail rfl rfl rfl rfl
        | true =>
            cases last with
            | false =>
                have hnot := Reading.not_atEnd (Or.inl (rfl : UpAt.reading = .reading))
                exact ⟨hup.cltDec, hup.tgEnc, hup.sound, hup.prefixed, fun _ => hall,
                  fun h => absurd h hnot, c, hgets, fun _ => hc (Or.inr hat),
                  fun h => absurd h hnot⟩
            | true =>
                exact ⟨hup.cltDec, hup.tgEnc, hup.sound, hup.prefixed, fun _ => hall,
                  fun _ => hup.flushed (Or.inl hat), c, hgets,
                  fun h => absurd h (not_reading_ended true), fun _ => hend (Or.inl hat)⟩
      exact Forwards.kept_nil (s := s) (.of_eq rfl rfl rfl rfl rfl) hwrote hsealed hup' hdown
  · cases hstep

/-! ## Downstream -/

/-- Behind the frame `f`, a CLOSE leaves `ws_to_tcp` in the `drain()` of its answer, and an
exception ends it. -/
def Behind (f : Frame) (o : RawWebSocket.Outcome) (at' : DownAt) : Prop :=
  if f.opcode = opClose then at' = .closing
  else at' = .ended false ∨ Receiving at' ∧ ∀ e, o ≠ .raises e

lemma Receiving.ne {at' : DownAt} (h : Receiving at') :
    at' ≠ .closing ∧ ∀ b, at' ≠ .ended b := by
  rcases h with rfl | rfl <;> exact ⟨by rintro ⟨⟩, by rintro b ⟨⟩⟩

/-- **Downstream.**  A frame that was read, and what it completes, handed to the client. -/
lemma Downstream.turned (h : Downstream E s₀ inn d s) (hrecv : Receiving s.down) {f : Frame}
    {o : RawWebSocket.Outcome} {ws : RawWebSocket}
    (hread : readFrame s.socket.ws.reader = (.ok f, ws.reader))
    (hturned : Turned urandom s.socket.ws f o ws) (hws : s'.socket.ws = ws)
    (hdec : s'.ctx.tgDec = (s.ctx.tgDec.update E o.octets).2)
    (henc : s'.ctx.cltEnc = (s.ctx.cltEnc.update E (s.ctx.tgDec.peek E o.octets)).2)
    (hto : s'.toClient.flatten =
      s.toClient.flatten ++ s.ctx.cltEnc.peek E (s.ctx.tgDec.peek E o.octets))
    (hat : Behind f o s'.down) : Downstream E s₀ (inn ++ [f]) (d ++ o.octets) s' := by
  obtain ⟨r, hr, hserver⟩ := h.server
  obtain ⟨rfl, hopen⟩ := hserver hrecv
  have hfree := h.receiving hrecv
  have hclose : s'.down = .closing ∨ s'.down = .ended true → f.opcode = opClose := by
    intro hdown
    by_contra hne
    rw [Behind, if_neg hne] at hat
    rcases hat with hat | ⟨hat, -⟩
    · rw [hat] at hdown
      rcases hdown with hdown | hdown <;> cases hdown
    · rcases hdown with hdown | hdown
      · exact hat.ne.1 hdown
      · exact hat.ne.2 true hdown
  have hopcode : Receiving s'.down → f.opcode ≠ opClose := by
    intro hrecv' heq
    rw [Behind, if_pos heq] at hat
    exact hrecv'.ne.1 hat
  refine ⟨?_, ?_, ?_, ?_, ?_, ⟨ws.reader, hr.snoc hread, fun hrecv' => ?_⟩, ?_, ?_⟩
  · rw [hdec, h.tgDec, Cipher.update_append]
  · rw [henc, h.cltEnc, h.tgDec, Cipher.peek_append, Cipher.update_append]
  · rw [hto, h.delivered, h.cltEnc, h.tgDec, Cipher.peek_append, Cipher.peek_append]
  · rw [hws, List.append_assoc, hturned.octets, ← List.append_assoc, h.octets, dataOctets_append]
  · intro hne hlast
    rw [hws]
    by_cases hdata : DataOpcode f.opcode
    · refine hturned.whole hdata (hlast f (by simp [hdata])) fun e he => ?_
      rw [Behind] at hat
      split_ifs at hat with hc
      · rw [hturned.ended.mpr hc] at he
        cases he
      · rcases hat with hat | ⟨-, hat⟩
        · exact hne hat
        · exact hat e he
    · rw [hturned.kept hdata]
      refine h.whole (hrecv.ne.2 false) fun g hg => hlast g ?_
      simpa [hdata] using hg
  · rw [hws, hturned.closed, decide_eq_false (hopcode hrecv')]
    exact ⟨rfl, rfl⟩
  · split_ifs with hdown
    · exact ⟨inn, f, rfl, hclose hdown, hfree⟩
    · rw [List.dropLast_concat]
      exact hfree
  · intro hrecv' g hg
    rcases List.mem_append.mp hg with hg | hg
    · exact hfree g hg
    · rw [List.mem_singleton.mp hg]
      exact hopcode hrecv'

/-- `ws_to_tcp` ends otherwise than behind a `None`. -/
lemma Downstream.fail (h : Downstream E s₀ inn d s) (hctx : s'.ctx = s.ctx)
    (hto : s'.toClient = s.toClient) (hfrag : s'.socket.ws.frag = s.socket.ws.frag)
    (hdown : s'.down = .ended false) : Downstream E s₀ inn d s' := by
  obtain ⟨r, hr, -⟩ := h.server
  have hnot : ¬ Receiving s'.down := fun hrecv => hrecv.ne.2 false hdown
  refine ⟨by rw [hctx, h.tgDec], by rw [hctx, h.cltEnc], by rw [hto, h.delivered],
    by rw [hfrag, h.octets], fun hne => absurd hdown hne, ⟨r, hr, fun hrecv => absurd hrecv hnot⟩,
    ?_, fun hrecv => absurd hrecv hnot⟩
  rw [if_neg (by simp [hdown])]
  have hended := h.ended
  split_ifs at hended
  · obtain ⟨pre, f, rfl, -, hpre⟩ := hended
    rwa [List.dropLast_concat]
  · exact hended

/-- `ws_to_tcp` moves on from a `drain()`. -/
lemma Downstream.drained (h : Downstream E s₀ inn d s) {at' : DownAt}
    (hat : s.down = .closing ∧ at' = .ended true ∨ s.down = .delivering ∧ at' = .receiving) :
    Downstream E s₀ inn d { s with down := at' } := by
  obtain ⟨r, hr, hserver⟩ := h.server
  have hended := h.ended
  rcases hat with ⟨hdown, rfl⟩ | ⟨hdown, rfl⟩
  · have hnot : ¬ Receiving (.ended true) := fun hrecv => hrecv.ne.2 true rfl
    rw [if_pos (Or.inl hdown)] at hended
    exact ⟨h.tgDec, h.cltEnc, h.delivered, h.octets, fun _ => h.whole (by rw [hdown]; rintro ⟨⟩),
      ⟨r, hr, fun hrecv => absurd hrecv hnot⟩, hended, fun hrecv => absurd hrecv hnot⟩
  · have hrecv : Receiving s.down := Or.inr hdown
    rw [if_neg (by simp [hdown])] at hended
    exact ⟨h.tgDec, h.cltEnc, h.delivered, h.octets, fun _ => h.whole (hrecv.ne.2 false),
      ⟨r, hr, fun _ => hserver hrecv⟩, hended, fun _ => h.receiving hrecv⟩

/-- `ws_to_tcp` keeps the session. -/
lemma Kept.goDown {m : Resume} (h : Kept R E s₀ s) (hstep : s.goDown E urandom m = some s') :
    Kept R E s₀ s' := by
  obtain ⟨out, got, inn, d, hwrote, hsealed, hup, hdown⟩ := h
  obtain ⟨r, -, hserver⟩ := hdown.server
  unfold WsSession.goDown at hstep
  split at hstep
  · next fails hat =>
      have hrecv : Receiving s.down := Or.inl hat
      have hopen := (hserver hrecv).2
      rw [if_neg (by simp [hopen])] at hstep
      cases hturn : s.socket.ws.turn urandom with
      | mk o ws =>
        rw [hturn] at hstep
        rcases turn_of_open hopen hturn with ⟨f, hread, hturned⟩ | ⟨⟨e, rfl⟩, hws⟩
        · obtain ⟨out', hwrote', hsealed', hout⟩ := hturned.wrote_sealed hopen hwrote hsealed
          rw [← hout] at hup
          have hbehind : ∀ {at' : DownAt}, o ≠ .returns none →
              (at' = .ended false ∨ Receiving at' ∧ ∀ e, o ≠ .raises e) → Behind f o at' := by
            intro at' hne hat'
            rwa [Behind, if_neg (mt hturned.ended.mpr hne)]
          -- One case for each of what a turn comes to; only a message changes the ciphers.
          cases o with
          | continues =>
              obtain rfl := Option.some.inj hstep
              refine ⟨out', got, inn ++ [f], d ++ [], hwrote', hsealed',
                hup.congr rfl rfl rfl rfl rfl, hdown.turned hrecv hread hturned rfl rfl rfl
                  (List.append_nil _).symm (hbehind (by rintro ⟨⟩) (Or.inr ⟨hrecv, ?_⟩))⟩
              rintro e ⟨⟩
          | raises e =>
              obtain rfl := Option.some.inj hstep
              exact ⟨out', got, inn ++ [f], d ++ [], hwrote', hsealed',
                hup.congr rfl rfl rfl rfl rfl, hdown.turned hrecv hread hturned rfl rfl rfl
                  (List.append_nil _).symm (hbehind (by rintro ⟨⟩) (Or.inl rfl))⟩
          | returns message =>
              cases message with
              | none =>
                  obtain rfl := Option.some.inj hstep
                  refine ⟨out', got, inn ++ [f], d ++ [], hwrote', hsealed',
                    hup.congr rfl rfl rfl rfl rfl, hdown.turned hrecv hread hturned rfl rfl rfl
                      (List.append_nil _).symm ?_⟩
                  rw [Behind, if_pos (hturned.ended.mp rfl)]
              | some data =>
                  obtain rfl := Option.some.inj hstep
                  refine ⟨out', got, inn ++ [f], d ++ data, hwrote', hsealed',
                    hup.congr rfl rfl rfl rfl rfl, hdown.turned hrecv hread hturned rfl rfl rfl ?_
                      (hbehind (by rintro ⟨⟩) ?_)⟩
                  · show (s.toClient ++ [_]).flatten = _
                    rw [List.flatten_concat]
                    rfl
                  · by_cases hfails : fails = some 0
                    · exact Or.inl (if_pos hfails)
                    · exact Or.inr ⟨Or.inr (if_neg hfails), by rintro e ⟨⟩⟩
        · obtain rfl := Option.some.inj hstep
          refine ⟨out, got, inn, d, hwrote.of_written ?_, ?_, hup.congr rfl rfl rfl rfl rfl,
            hdown.fail rfl rfl ?_ rfl⟩
          · show ws.written = _
            rw [hws]
          · show Sealed ws.closed out
            rw [hws]
            exact hsealed
          · show ws.frag = _
            rw [hws]
  · next hat =>
      obtain rfl := Option.some.inj hstep
      exact ⟨out, got, inn, d, hwrote, hsealed, hup.congr rfl rfl rfl rfl rfl,
        hdown.drained (Or.inl ⟨hat, rfl⟩)⟩
  · next ok hat =>
      obtain rfl := Option.some.inj hstep
      cases ok with
      | true =>
          exact ⟨out, got, inn, d, hwrote, hsealed, hup.congr rfl rfl rfl rfl rfl,
            hdown.drained (Or.inr ⟨hat, rfl⟩)⟩
      | false =>
          exact ⟨out, got, inn, d, hwrote, hsealed, hup.congr rfl rfl rfl rfl rfl,
            hdown.fail rfl rfl rfl rfl⟩
  · cases hstep

/-- A cancellation keeps the session. -/
lemma Kept.cancel (h : Kept R E s₀ s) (k : Side) : Kept R E s₀ (s.cancel k) := by
  obtain ⟨out, got, inn, d, hwrote, hsealed, hup, hdown⟩ := h
  unfold WsSession.cancel
  split_ifs
  · exact ⟨out, got, inn, d, hwrote, hsealed, hup, hdown⟩
  · cases k with
    | up =>
        exact ⟨out, got, inn, d, hwrote, hsealed, hup.fail rfl rfl rfl rfl,
          hdown.congr rfl rfl rfl rfl rfl fun _ => ⟨rfl, rfl⟩⟩
    | down =>
        exact ⟨out, got, inn, d, hwrote, hsealed, hup.congr rfl rfl rfl rfl rfl,
          hdown.fail rfl rfl rfl rfl⟩

/-- The `finally` keeps it: both tasks are at their ends, and an open WebSocket gets its CLOSE. -/
lemma Kept.wrapUp {a : Awaited} (h : Kept R E s₀ s) (hdone : ∀ k, s.done k = true)
    (hstep : s.wrapUp urandom a = some s') : Kept R E s₀ s' := by
  obtain ⟨out, got, inn, d, hwrote, hsealed, hup, hdown⟩ := h
  obtain ⟨b, hb⟩ := done_down.mp (hdone .down)
  have hnot : ¬ Receiving s.down := fun hrecv => hrecv.ne.2 b hb
  have hsame : ∀ {t : WsSession ρ}, t.ctx = s.ctx → t.splitter = s.splitter → t.up = s.up →
      t.client = s.client → t.socket.ws = s.socket.ws → t.toClient = s.toClient →
      t.down = s.down → Kept R E s₀ t := by
    intro t hctx hsplit hup' hclient hws hto hdown'
    refine ⟨out, got, inn, d, hwrote.of_written (by rw [hws]), by rwa [hws],
      hup.congr (by rw [hctx]) (by rw [hctx]) hsplit hup' hclient,
      hdown.congr (by rw [hctx]) (by rw [hctx]) hto (by rw [hws]) hdown' fun hrecv => ?_⟩
    exact absurd hrecv hnot
  unfold WsSession.wrapUp at hstep
  split at hstep
  · split_ifs at hstep with hclosed
    · obtain rfl := Option.some.inj hstep
      exact hsame rfl rfl rfl rfl rfl rfl rfl
    · obtain rfl := Option.some.inj hstep
      obtain ⟨fs, hfs, hone⟩ := RawWebSocket.answer_wrote urandom
        (show opClose < 16 by decide) [] { s.socket.ws with closed := true }
      have hfs' : fs = [⟨opClose, [], true⟩] := hone.resolve_right fun hlen =>
        absurd hlen.2 (by decide)
      rw [Bool.eq_false_iff.mpr hclosed] at hsealed
      refine ⟨out ++ fs, got, inn, d, hwrote.trans hfs, ?_, ?_, ?_⟩
      · show Sealed (RawWebSocket.answer urandom opClose [] _).closed (out ++ fs)
        rw [RawWebSocket.answer_closed, hfs']
        exact hsealed.close []
      · have hnone : dataOctets fs = [] := by
          rw [hfs']
          exact dataOctets_of_not (show ¬ DataOpcode opClose by decide)
        rw [dataOctets_append, hnone, List.append_nil]
        exact hup.congr rfl rfl rfl rfl rfl
      · exact hdown.congr rfl rfl rfl (RawWebSocket.answer_frag ..) rfl
          fun hrecv => absurd hrecv hnot
  · split_ifs at hstep <;>
      · obtain rfl := Option.some.inj hstep
        exact hsame rfl rfl rfl rfl rfl rfl rfl
  · obtain rfl := Option.some.inj hstep
    exact hsame rfl rfl rfl rfl rfl rfl rfl
  · obtain rfl := Option.some.inj hstep
    exact hsame rfl rfl rfl rfl rfl rfl rfl
  · cases hstep

/-- **Whole sessions.**  Every state of a session is kept. -/
theorem kept_of_reaches {t : Nursery.State Side (WsSession ρ)} (hstart : Kept R E s₀ s₀)
    (h : (nursery R E urandom).Reaches s₀ t) : Kept R E s₀ t.world := by
  refine Nursery.invariant hstart ?_ ?_ ?_ h
  · intro k m w w' hw _ hrun
    cases k with
    | up => exact hw.goUp hrun
    | down => exact hw.goDown hrun
  · intro k w hw _
    exact hw.cancel k
  · intro a w w' hw hdone _ htidy
    exact hw.wrapUp hdone htidy

end WsSession

end TgWsProxy
