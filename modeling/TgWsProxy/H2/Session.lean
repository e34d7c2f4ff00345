import TgWsProxy.Bridge.Session
import TgWsProxy.H2.Lane.Downstream
import TgWsProxy.H2.Lane.Upstream

/-!
# A session over HTTP/2

`bridge_h2` between a client and its requests, from the client's packets to the bodies that are
posted, and from the replies to what the client reads.

* `NativeFrame` — what a client makes of a packet.
* `took_frames` — of a row of frames `_read_packet` takes one packet after the other.
* `H2Intact` — what is true of a session in every state.
* **`h2Session_intact`** — from a handshake on, over every interleaving.
-/

namespace TgWsProxy

open Wire

variable (sha256 : Bytes → Digest) (E : AesKeystream)

/-! ## The client's packets -/

/-- A client frames the packet `m` as `f`. -/
def NativeFrame (tag m f : Bytes) : Prop :=
  ∃ header pad quick, NativeHeader tag (m.length + List.length pad) quick header ∧
    IsPadding tag m pad ∧ IsMtprotoPacket m ∧ f = header ++ (m ++ pad)

/-- There is no packet in nothing. -/
lemma readPacket_nil {E : AesKeystream} {tag body : Bytes} {quick : Bool} {r r' : Reader}
    (hr : r.plain E = []) : readPacket E tag r ≠ (.ok (body, quick), r') := by
  intro hread
  obtain ⟨hd, n, payload, -, -, hplain, hprefix, -, hmin, -⟩ := readPacket_eq_ok hread
  rw [hr] at hplain
  have hpayload : payload = [] :=
    (List.append_eq_nil_iff.mp (List.append_eq_nil_iff.mp hplain.symm).1).2
  have hle := hprefix.length_le
  rw [hpayload, List.length_nil] at hle
  omega

/-- **A row of frames.**  What was taken is the first packets, and what is left the other frames. -/
theorem took_frames {E : AesKeystream} {tag : Bytes} {r₀ r : Reader} {bodies ms fs : List Bytes}
    (h : Took E tag r₀ bodies r) (hframes : List.Forall₂ (NativeFrame tag) ms fs)
    (hr₀ : r₀.plain E = fs.flatten) :
    bodies = ms.take bodies.length ∧ bodies.length ≤ ms.length ∧
      r.plain E = (fs.drop bodies.length).flatten := by
  induction h with
  | nothing => exact ⟨rfl, Nat.zero_le _, hr₀⟩
  | @packet bodies r r' body quick h hread ih =>
      obtain ⟨htaken, hle, hrest⟩ := ih
      rcases Nat.lt_or_ge bodies.length ms.length with hlt | hge
      · have hlt' : bodies.length < fs.length := hframes.length_eq ▸ hlt
        obtain ⟨header, pad, quick', hheader, hpad, hm, hf⟩ :=
          List.Forall₂.get hframes hlt hlt'
        rw [List.drop_eq_getElem_cons hlt', List.flatten_cons] at hrest
        obtain ⟨r₁, hread₁, hrest₁⟩ :=
          readPacket_append (E := E) hm hpad hheader (r := r) (hrest.trans (by rw [← hf]; rfl))
        obtain ⟨hok, rfl⟩ := Prod.mk.inj (hread.symm.trans hread₁)
        obtain ⟨rfl, -⟩ := Prod.mk.inj (Except.ok.inj hok)
        rw [List.length_append, List.length_singleton]
        refine ⟨?_, hlt, hrest₁⟩
        rw [List.take_succ_eq_append_getElem hlt, ← htaken]
        rfl
      · rw [List.drop_eq_nil_of_le (hframes.length_eq ▸ hge)] at hrest
        exact absurd hread (readPacket_nil hrest)

/-! ## What the client reads -/

/-- The client reads what was framed. -/
lemma clientParse_framed {tag : Bytes} {ps : List (Bytes × Bytes)}
    (h : ∀ p ∈ ps, ∃ padding, encodeReply p.1 tag padding = .ok p.2) :
    ∃ read, clientParse tag (ps.map Prod.snd).flatten = some read ∧
      read.map Prod.fst = ps.map Prod.fst := by
  have hrows : ∃ rs : List (Bytes × Padding), rs.map Prod.fst = ps.map Prod.fst ∧
      rs.map (fun r => encodeReply r.1 tag r.2) = (ps.map Prod.snd).map .ok := by
    induction ps with
    | nil => exact ⟨[], rfl, rfl⟩
    | cons p ps ih =>
        obtain ⟨padding, hp⟩ := h p List.mem_cons_self
        obtain ⟨rs, hbodies, hframes⟩ := ih fun q hq => h q (List.mem_cons_of_mem _ hq)
        refine ⟨(p.1, padding) :: rs, ?_, ?_⟩
        · rw [List.map_cons, List.map_cons, hbodies]
        · rw [List.map_cons, List.map_cons, List.map_cons, hframes, hp]
  obtain ⟨rs, hbodies, hframes⟩ := hrows
  refine ⟨_, clientParse_encodeReply hframes, ?_⟩
  rw [← hbodies, List.map_map]
  rfl

variable (secret init : Bytes)

/-- A session over HTTP/2 is intact: what was posted for the channel is a beginning of the client's
packets, all of them when `upload` waits and there is nothing left to be read; every request carries
one of them; and the client reads whole frames, of a beginning of the replies and of the transport
error that the channel has failed with, if it was reported. -/
structure H2Intact (ms : List Bytes) (c : ℕ) (s : Clients) : Prop where
  up : posted (s.sys.log c) <+: ms
  carried : ∀ u info pc, s.sys.req u = some (c, info, pc) → info.body ∈ ms
  complete : (s.reader c).wire = [] → ∀ t, s.sys.coro t = .upload c →
    posted (s.sys.log c) = ms
  down : ∀ n, s.sys.native c = some n →
    ∃ read answers report, clientParse n.tag (clientRecv sha256 E secret init n.wire) = some read ∧
      read.map Prod.fst = answers ++ report ∧
      answers <+: (s.sys.log c).filterMap Mark.asReply ∧
      (report = [] ∨ ∃ code packed, report = [packed] ∧ leIntBytes 4 code = some packed ∧
        ((s.sys.log c).filterMap Mark.asFailure).head? = some (.transport code))

section Sides

variable {sha256 E secret init}

/-- Towards the requests. -/
lemma h2_up {reader : ℕ → Reader} {s : Clients} {c : ℕ} {n : Native} {ms fs : List Bytes}
    (h : Clients.Reaches E reader s) (hn : s.sys.native c = some n)
    (hframes : List.Forall₂ (NativeFrame n.tag) ms fs)
    (hreader : (reader c).plain E = fs.flatten) :
    posted (s.sys.log c) <+: ms ∧
      (∀ u info pc, s.sys.req u = some (c, info, pc) → info.body ∈ ms) ∧
      ((s.reader c).wire = [] → ∀ t, s.sys.coro t = .upload c → posted (s.sys.log c) = ms) := by
  obtain ⟨hclimb, hcarried⟩ := h.upstream c
  obtain ⟨htaken, hle, hrest⟩ := took_frames (hclimb.took n hn) hframes hreader
  have hposted : posted (s.sys.log c) <+: ms := by
    refine hclimb.ahead.1.trans ?_
    rw [htaken]
    exact List.take_prefix _ _
  refine ⟨hposted, fun u info pc hu => hposted.subset (hcarried u info pc hu),
    fun hwire t hat => ?_⟩
  -- nothing is left, not even one frame
  have hall : ms.length ≤ (s.taken c).length := by
    by_contra hnot
    have hlt := not_le.mp hnot
    have hlt' : (s.taken c).length < fs.length := hframes.length_eq ▸ hlt
    obtain ⟨header, pad, quick, -, -, hm, hf⟩ := List.Forall₂.get hframes hlt hlt'
    rw [List.drop_eq_getElem_cons hlt', List.flatten_cons] at hrest
    have hlen := congrArg List.length hrest
    have hframe : 24 ≤ fs[(s.taken c).length].length := by
      rw [show fs[(s.taken c).length] = _ from hf]
      simp only [List.length_append]
      have hmin : 24 ≤ (ms[(s.taken c).length]).length := hm.1
      simp only [List.get_eq_getElem]
      omega
    rw [Reader.length_plain, hwire, List.length_append, List.length_nil] at hlen
    omega
  rw [hclimb.idle t hat, htaken, List.take_of_length_le hall]

/-- Towards the client. -/
lemma h2_down {s : Sys} {c : ℕ} {n : Native} (h : Reaches E s) (hn : s.native c = some n)
    (hcltEnc : ∀ z, clientRecv sha256 E secret init (n.given.peek E z) = z) :
    ∃ read answers report, clientParse n.tag (clientRecv sha256 E secret init n.wire) = some read ∧
      read.map Prod.fst = answers ++ report ∧ answers <+: (s.log c).filterMap Mark.asReply ∧
      (report = [] ∨ ∃ code packed, report = [packed] ∧ leIntBytes 4 code = some packed ∧
        ((s.log c).filterMap Mark.asFailure).head? = some (.transport code)) := by
  have hd := h.delivered.2 c
  obtain ⟨report, herrors, hframes⟩ := asFrame_of_ordered hd.ordered
  obtain ⟨hreplies, hreport⟩ := hd.framed n hn
  rw [(hd.wire n hn).1, hcltEnc, hframes]
  cases report with
  | none =>
      rw [Option.toList_none, List.map_nil, List.append_nil]
      obtain ⟨read, hread, hbodies⟩ := clientParse_framed hreplies
      exact ⟨read, _, [], hread, by rw [hbodies, List.append_nil], hd.taken, Or.inl rfl⟩
  | some p =>
      obtain ⟨code, frame⟩ := p
      have hmem : (code, frame) ∈ (s.log c).filterMap Mark.asError := by
        rw [herrors]
        exact List.mem_singleton_self _
      obtain ⟨packed, padding, hpacked, hframe⟩ := hreport _ hmem
      have hall : ∀ p ∈ (s.log c).filterMap Mark.asWrote ++ [(packed, frame)],
          ∃ padding, encodeReply p.1 n.tag padding = .ok p.2 := by
        intro p hp
        rcases List.mem_append.mp hp with hp | hp
        · exact hreplies p hp
        · obtain rfl := List.mem_singleton.mp hp
          exact ⟨padding, hframe⟩
      obtain ⟨read, hread, hbodies⟩ := clientParse_framed hall
      rw [List.map_append] at hread hbodies
      refine ⟨read, _, [packed], hread, hbodies, hd.taken, Or.inr ⟨code, packed, rfl, hpacked, ?_⟩⟩
      obtain ⟨hclosed, hcode⟩ := hd.errors _ hmem
      obtain ⟨failure, hfirst, hfailure⟩ := hd.failed hclosed
      rw [hfirst]
      cases failure with
      | transport code' =>
          obtain rfl := Option.some.inj (hcode.symm.trans hfailure)
          rfl
      | _ => cases hcode.symm.trans hfailure

end Sides

/-- **End to end over HTTP/2.**  For every secret, every init that a client builds for it and every
row of packets that it frames: in every state of every lane that the session is bridged to, whatever
the other sessions of the lane do and in every order of responses, replays, failures, timeouts and
cancellations, the session is intact. -/
theorem h2Session_intact (hinit : init.length = 64) (htag : IsProtoTag (slice init 56 60))
    {protoTag pad relayInit : Bytes} {dcIdx : ℤ} {draws : List Bytes}
    (hdraws : ∀ rnd ∈ draws, rnd.length = handshakeLen)
    (hrelay : generateRelayInit E protoTag dcIdx pad draws = .ok (some relayInit))
    {ms fs : List Bytes} (hframes : List.Forall₂ (NativeFrame (slice init 56 60)) ms fs) :
    ∃ dc isMedia prekeyIv ctx,
      tryHandshake sha256 E (clientInit sha256 E secret init) secret
        = .ok (some (dc, isMedia, slice init 56 60, prekeyIv)) ∧
      buildCryptoCtx sha256 E prekeyIv secret relayInit = .ok ctx ∧
      ∀ (reader : ℕ → Reader) (c : ℕ) (s : Clients) (n : Native),
        reader c = ⟨clientSend sha256 E secret init fs.flatten, ctx.cltDec⟩ →
        Clients.Reaches E reader s → s.sys.native c = some n → n.tag = slice init 56 60 →
        n.given = ctx.cltEnc → H2Intact sha256 E secret init ms c s := by
  obtain ⟨dc, isMedia, prekeyIv, ctx, haccept, hctx, hcltDec, -, -, hcltEnc⟩ :=
    sessionCiphers sha256 E secret init hinit htag hdraws hrelay
  refine ⟨dc, isMedia, prekeyIv, ctx, haccept, hctx,
    fun reader c s n hreader hs hn hntag hgiven => ?_⟩
  have hplain : (reader c).plain E = fs.flatten := by
    rw [hreader]
    exact hcltDec _
  obtain ⟨hposted, hcarried, hcomplete⟩ := h2_up hs hn (hntag ▸ hframes) hplain
  refine ⟨hposted, hcarried, hcomplete, fun n' hn' => ?_⟩
  obtain rfl := Option.some.inj (hn.symm.trans hn')
  exact h2_down hs.sys hn (by rw [hgiven]; exact hcltEnc)

/-- A lane on which the packet `m` of a client is posted and answered. -/
def answeredSession (tag : Bytes) (cltEnc : Cipher) (m : Bytes) : List Event :=
  [Event.openChannel, .bridge 0 tag cltEnc, .run 0 (.packet m)] ++
    List.replicate 7 (Event.run 0 .resume) ++
    [Event.run 4 .resume, .run 4 (.opened {}), .run 4 (.chunk [1, 2, 3, 4, 5, 6, 7, 8]),
      .run 4 .bodyEnd, .run 1 (.frame ⟨[7], by decide⟩)]

/-- A client that sends one packet in the clear, padded by two octets. -/
theorem h2Session_intact_sample :
    let sha256 : Bytes → Digest := fun _ => ⟨List.replicate 32 7, rfl⟩
    let E : AesKeystream := fun _ _ _ => 0
    let init : Bytes := List.replicate 56 1 ++ protoTagSecure ++ [2, 0, 9, 9]
    let m : Bytes := List.replicate 16 0 ++ [4, 0, 0, 0, 1, 2, 3, 4]
    ∃ s : Clients, posted (s.sys.log 0) = [m] ∧
      (s.sys.native 0).map Native.wire = some [9, 0, 0, 0, 1, 2, 3, 4, 5, 6, 7, 8, 7] ∧
      H2Intact sha256 E [5] init [m] 0 s := by
  intro sha256 E init m
  let relayInit : Bytes := List.replicate 56 3 ++ protoTagSecure ++ [2, 0, 0, 0]
  let f : Bytes := leBytes 4 26 ++ (m ++ [7, 7])
  have hrelay : generateRelayInit E protoTagSecure 2 [0, 0] [List.replicate 64 3]
      = .ok (some relayInit) := by
    decide +revert
  have hframe : NativeFrame protoTagSecure m f :=
    ⟨leBytes 4 26, [7, 7], false, .word protoTagSecure 26 false (by decide) (by decide),
      by decide, by decide, rfl⟩
  obtain ⟨dc, isMedia, prekeyIv, ctx, haccept, hctx, h⟩ := h2Session_intact sha256 E [5] init rfl
    (by decide) (by decide) hrelay (.cons hframe .nil)
  have hkeys : prekeyIv = List.replicate 48 1 := by
    have hnow : tryHandshake sha256 E (clientInit sha256 E [5] init) [5]
        = .ok (some (2, false, protoTagSecure, List.replicate 48 1)) := by
      decide +kernel
    rw [hnow] at haccept
    cases haccept
    rfl
  let key : Bytes := List.replicate 32 7
  let iv : Bytes := List.replicate 16 1
  let cltDec : Cipher := ⟨key, iv, 64⟩
  let cltEnc : Cipher := ⟨key, iv, 0⟩
  have hciphers : ctx.cltDec = cltDec ∧ ctx.cltEnc = cltEnc := by
    have hnow : (buildCryptoCtx sha256 E (List.replicate 48 1) [5] relayInit).map
        (fun ctx => (ctx.cltDec, ctx.cltEnc)) = .ok (cltDec, cltEnc) := by
      decide +kernel
    rw [← hkeys, hctx] at hnow
    exact Prod.mk.inj (Except.ok.inj hnow)
  let reader : ℕ → Reader := fun _ => ⟨clientSend sha256 E [5] init f, cltDec⟩
  have hrun : (exec (Clients.step E) (answeredSession protoTagSecure cltEnc m)
      (Clients.start 1 false reader)).map (fun s => (posted (s.sys.log 0),
        (s.sys.native 0).map fun n => (n.tag, n.given, n.wire))) =
      some ([m], some (protoTagSecure, cltEnc, [9, 0, 0, 0, 1, 2, 3, 4, 5, 6, 7, 8, 7])) := by
    decide +kernel
  obtain ⟨s, hs, heq⟩ := Option.map_eq_some_iff.mp hrun
  obtain ⟨hposted, hnative⟩ := Prod.mk.inj heq
  obtain ⟨n, hn, hwire⟩ := Option.map_eq_some_iff.mp hnative
  obtain ⟨htag, hwire⟩ := Prod.mk.inj hwire
  obtain ⟨hgiven, hwire⟩ := Prod.mk.inj hwire
  refine ⟨s, hposted, by rw [hn, Option.map_some, hwire], ?_⟩
  refine h reader 0 s n ?_ (reachable_of_exec (.start ⟨1, false, one_pos, rfl⟩) hs) hn htag ?_
  · rw [hciphers.1, List.flatten_cons, List.flatten_nil, List.append_nil]
  · rw [hciphers.2, hgiven]

end TgWsProxy
