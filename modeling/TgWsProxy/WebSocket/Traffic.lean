import TgWsProxy.WebSocket.Close

/-!
# What passes through a WebSocket

The frames that the owner of a WebSocket writes and those it reads, whatever it does in between.

* `Wrote` — the frames that were written from one state to another; `writeParts_wrote`,
  `answer_wrote`.
* `Sealed` — nothing behind a CLOSE, and a CLOSE exactly when the flag is set.
* `turn_of_open` — what a turn of `recv` reads, returns, keeps and writes.
* `FramesRead` — the frames that were read; `FramesRead.prefix_of_sent` compares them with what the
  peer meant to send, wherever the connection breaks off.
-/

namespace TgWsProxy

open Wire

/-! ## Writing -/

instance (opcode : ℕ) : Decidable (DataOpcode opcode) := inferInstanceAs (Decidable (_ ∨ _))

/-- The octets that frames carry, control frames left out. -/
def dataOctets (fs : List Frame) : Bytes :=
  (fs.filter fun f => decide (DataOpcode f.opcode)).flatMap Frame.payload

@[simp] lemma dataOctets_nil : dataOctets [] = [] := rfl

@[simp] lemma dataOctets_append (fs gs : List Frame) :
    dataOctets (fs ++ gs) = dataOctets fs ++ dataOctets gs := by
  simp [dataOctets]

lemma dataOctets_of_not {f : Frame} (h : ¬ DataOpcode f.opcode) : dataOctets [f] = [] := by
  simp [dataOctets, h]

lemma dataOctets_of_data {f : Frame} (h : DataOpcode f.opcode) : dataOctets [f] = f.payload := by
  simp [dataOctets, h]

/-- A message in one frame. -/
def binaryFrame (payload : Bytes) : Frame := ⟨opBinary, payload, true⟩

lemma dataOctets_binaryFrame : ∀ parts : List Bytes,
    dataOctets (parts.map binaryFrame) = parts.flatten
  | [] => rfl
  | part :: parts => by
      have hone : dataOctets [binaryFrame part] = part :=
        dataOctets_of_data (Or.inr (Or.inr rfl))
      rw [List.map_cons, ← List.singleton_append, dataOctets_append, hone,
        dataOctets_binaryFrame parts, List.flatten_cons]

/-- From `ws` to `ws'` the frames `fs` were written. -/
def Wrote (fs : List Frame) (ws ws' : RawWebSocket) : Prop :=
  ∃ new, ws'.written = ws.written ++ new ∧ List.Forall₂ OnWire fs new

lemma Wrote.of_eq {ws ws' : RawWebSocket} (h : ws'.written = ws.written) : Wrote [] ws ws' :=
  ⟨[], by rw [h, List.append_nil], .nil⟩

lemma Wrote.trans {fs gs : List Frame} {ws ws' ws'' : RawWebSocket} (h : Wrote fs ws ws')
    (h' : Wrote gs ws' ws'') : Wrote (fs ++ gs) ws ws'' := by
  obtain ⟨new, hnew, hfs⟩ := h
  obtain ⟨new', hnew', hgs⟩ := h'
  refine ⟨new ++ new', ?_, List.rel_append hfs hgs⟩
  rw [hnew', hnew, List.append_assoc]

lemma Wrote.of_written {fs : List Frame} {ws ws' ws'' : RawWebSocket} (h : Wrote fs ws ws')
    (heq : ws''.written = ws'.written) : Wrote fs ws ws'' := by
  obtain ⟨new, hnew, hfs⟩ := h
  exact ⟨new, heq.trans hnew, hfs⟩

namespace RawWebSocket

variable {urandom : ℕ → MaskKey} {ws ws' : RawWebSocket}

/-- An answer is one frame, or nothing where `struct` refuses it. -/
lemma answer_wrote (urandom : ℕ → MaskKey) {opcode : ℕ} (hop : opcode < 16) (payload : Bytes)
    (ws : RawWebSocket) : ∃ fs, Wrote fs ws (ws.answer urandom opcode payload) ∧
      (fs = [⟨opcode, payload, true⟩] ∨ fs = [] ∧ 2 ^ 64 ≤ payload.length) := by
  rw [answer]
  split
  · next frame hbuild =>
      exact ⟨_, ⟨[frame], rfl, .cons (onWire_buildFrame hop hbuild) .nil⟩, Or.inl rfl⟩
  · next hbuild =>
      refine ⟨[], .of_eq rfl, Or.inr ⟨rfl, ?_⟩⟩
      by_contra hlen
      rw [buildFrame_eq _ (or_lt (by omega)) (by omega)] at hbuild
      cases hbuild

/-- What a `send` or a `send_batch` writes: all its parts, or those up to an exception. -/
lemma writeParts_wrote (urandom : ℕ → MaskKey) (fails : Option ℕ) :
    ∀ (call : ℕ) (parts : List Bytes) (ws : RawWebSocket),
      ∃ sent, Wrote (sent.map binaryFrame) ws (ws.writeParts urandom fails call parts).2 ∧
        sent <+: parts ∧
        ((ws.writeParts urandom fails call parts).1 = .ok () → sent = parts) ∧
        (ws.writeParts urandom fails call parts).2.reader = ws.reader ∧
        (ws.writeParts urandom fails call parts).2.frag = ws.frag
  | call, [], ws => ⟨[], .of_eq rfl, List.nil_prefix, fun _ => rfl, rfl, rfl⟩
  | call, part :: parts, ws => by
      rw [writeParts]
      split
      · exact ⟨[], .of_eq rfl, List.nil_prefix, by simp, rfl, rfl⟩
      · next frame hbuild =>
          have hframe := onWire_buildFrame (by decide) hbuild
          split_ifs with hfails
          · exact ⟨[part], ⟨[frame], rfl, .cons hframe .nil⟩, by simp, by simp, rfl, rfl⟩
          · obtain ⟨sent, hwrote, hpre, hok, hreader, hfrag⟩ := writeParts_wrote urandom fails
              (call + 1) parts { ws with written := ws.written ++ [frame], drawn := ws.drawn + 1 }
            have hone : Wrote [binaryFrame part] ws
                { ws with written := ws.written ++ [frame], drawn := ws.drawn + 1 } :=
              ⟨[frame], rfl, .cons hframe .nil⟩
            exact ⟨part :: sent, hone.trans hwrote, (List.cons_prefix_cons).mpr ⟨rfl, hpre⟩,
              fun h => by rw [hok h], hreader, hfrag⟩

end RawWebSocket

/-- The frames `fs` were written on a WebSocket whose flag is `closed`: a CLOSE sets it and is the
last. -/
def Sealed (closed : Bool) (fs : List Frame) : Prop :=
  if closed then ∃ pre f, fs = pre ++ [f] ∧ f.opcode = opClose ∧ ∀ g ∈ pre, g.opcode ≠ opClose
  else ∀ g ∈ fs, g.opcode ≠ opClose

lemma Sealed.append {fs gs : List Frame} (h : Sealed false fs)
    (hgs : ∀ g ∈ gs, g.opcode ≠ opClose) : Sealed false (fs ++ gs) := by
  intro g hg
  rcases List.mem_append.mp hg with hg | hg
  · exact h g hg
  · exact hgs g hg

lemma Sealed.close {fs : List Frame} (h : Sealed false fs) (payload : Bytes) :
    Sealed true (fs ++ [⟨opClose, payload, true⟩]) :=
  ⟨fs, _, rfl, rfl, h⟩

/-! ## Reading -/

/-- The octets that a turn returns. -/
def RawWebSocket.Outcome.octets : RawWebSocket.Outcome → Bytes
  | .returns (some message) => message
  | _ => []

/-- A data frame returns what it completes and keeps the rest. -/
lemma onData_octets (f : Frame) (ws : RawWebSocket) :
    (ws.onData f).1.octets ++ (ws.onData f).2.frag = ws.frag ++ f.payload ∧
      (ws.onData f).1 ≠ .returns none ∧
      (f.fin = true → (∀ e, (ws.onData f).1 ≠ .raises e) → (ws.onData f).2.frag = []) := by
  simp only [RawWebSocket.onData]
  split_ifs with hwhole hlong hfin
  · simp [RawWebSocket.Outcome.octets, hwhole.2]
  · exact ⟨rfl, by simp, fun _ h => absurd rfl (h _)⟩
  · simp [RawWebSocket.Outcome.octets]
  · exact ⟨rfl, by simp, fun h => absurd h hfin⟩

/-- The octets of a turn's frame come out of it or are kept; a CLOSE sets the flag and is answered
by one; nothing else is written but answers to PING. -/
structure Turned (urandom : ℕ → MaskKey) (ws : RawWebSocket) (f : Frame)
    (o : RawWebSocket.Outcome) (ws' : RawWebSocket) : Prop where
  octets : o.octets ++ ws'.frag = ws.frag ++ dataOctets [f]
  whole : DataOpcode f.opcode → f.fin = true → (∀ e, o ≠ .raises e) → ws'.frag = []
  kept : ¬ DataOpcode f.opcode → ws'.frag = ws.frag
  closed : ws'.closed = decide (f.opcode = opClose)
  ended : o = .returns none ↔ f.opcode = opClose
  wrote : ∃ fs, Wrote fs ws ws' ∧ dataOctets fs = [] ∧
    if f.opcode = opClose then fs = [⟨opClose, f.payload.take 2, true⟩]
    else ∀ g ∈ fs, g.opcode = opPong

lemma Turned.onFrame (urandom : ℕ → MaskKey) (f : Frame) {ws : RawWebSocket}
    (hopen : ws.closed = false) :
    Turned urandom ws f (ws.onFrame urandom f).1 (ws.onFrame urandom f).2 := by
  have hclosed : ∀ {opcode : ℕ}, DataOpcode opcode → opcode ≠ opClose := by
    rintro opcode (rfl | rfl | rfl) <;> decide
  rw [RawWebSocket.onFrame]
  split_ifs with hc hping hpong hdata
  · have hnot : ¬ DataOpcode f.opcode := fun h => hclosed h hc
    obtain ⟨fs, hwrote, hfs⟩ := RawWebSocket.answer_wrote urandom (show opClose < 16 by decide)
      (f.payload.take 2) { ws with closed := true }
    have hfs' : fs = [⟨opClose, f.payload.take 2, true⟩] := by
      refine hfs.resolve_right fun h => ?_
      have hle := List.length_take_le 2 f.payload
      omega
    refine ⟨?_, fun h => absurd h hnot, fun _ => by simp, by simp [hc], by simp [hc],
      fs, hwrote, ?_, ?_⟩
    · simp [RawWebSocket.Outcome.octets, dataOctets_of_not hnot]
    · rw [hfs']
      exact dataOctets_of_not (show ¬ DataOpcode opClose by decide)
    · rw [if_pos hc]
      exact hfs'
  · have hnot : ¬ DataOpcode f.opcode := by
      rw [hping]
      decide
    obtain ⟨fs, hwrote, hfs⟩ := RawWebSocket.answer_wrote urandom (show opPong < 16 by decide)
      f.payload ws
    have hall : ∀ g ∈ fs, g.opcode = opPong := by
      rcases hfs with rfl | ⟨rfl, -⟩
      · simp
      · simp
    refine ⟨?_, fun h => absurd h hnot, fun _ => by simp, by simp [hc, hopen], by simp [hc],
      fs, hwrote, ?_, ?_⟩
    · simp [RawWebSocket.Outcome.octets, dataOctets_of_not hnot]
    · rcases hfs with rfl | ⟨rfl, -⟩
      · exact dataOctets_of_not (show ¬ DataOpcode opPong by decide)
      · rfl
    · rwa [if_neg hc]
  · have hnot : ¬ DataOpcode f.opcode := by
      rw [hpong]
      decide
    refine ⟨?_, fun h => absurd h hnot, fun _ => rfl, by simp [hc, hopen], by simp [hc],
      [], .of_eq rfl, rfl, ?_⟩
    · simp [RawWebSocket.Outcome.octets, dataOctets_of_not hnot]
    · simp [if_neg hc]
  · obtain ⟨hoctets, hne, hwhole⟩ := onData_octets f ws
    refine ⟨by rw [dataOctets_of_data hdata]; exact hoctets, fun _ => hwhole,
      fun h => absurd hdata h, ?_, iff_of_false hne hc, [], .of_eq ?_, rfl, by simp [if_neg hc]⟩
    · rw [RawWebSocket.onData_closed, hopen, decide_eq_false hc]
    · rw [RawWebSocket.onData_eq]
  · refine ⟨?_, fun h => absurd h hdata, fun _ => rfl, by simp [hc, hopen], by simp [hc],
      [], .of_eq rfl, rfl, by simp [if_neg hc]⟩
    simp [RawWebSocket.Outcome.octets, dataOctets_of_not hdata]

/-- The frames that were written, and the flag, behind a turn. -/
lemma Turned.wrote_sealed {urandom : ℕ → MaskKey} {ws₀ ws ws' : RawWebSocket} {out : List Frame}
    {o : RawWebSocket.Outcome} {f : Frame} (h : Turned urandom ws f o ws')
    (hopen : ws.closed = false) (hwrote : Wrote out ws₀ ws) (hsealed : Sealed ws.closed out) :
    ∃ out', Wrote out' ws₀ ws' ∧ Sealed ws'.closed out' ∧ dataOctets out' = dataOctets out := by
  obtain ⟨fs, hfs, hnone, hclose⟩ := h.wrote
  refine ⟨out ++ fs, hwrote.trans hfs, ?_, by rw [dataOctets_append, hnone, List.append_nil]⟩
  rw [hopen] at hsealed
  rw [h.closed]
  split_ifs at hclose with hc
  · rw [hclose, decide_eq_true hc]
    exact hsealed.close _
  · rw [decide_eq_false hc]
    refine hsealed.append fun g hg => ?_
    rw [hclose g hg]
    decide

/-- **A turn.**  It reads a frame and deals with it, or raises and changes nothing but the
reader. -/
theorem turn_of_open {urandom : ℕ → MaskKey} {ws ws' : RawWebSocket} {o : RawWebSocket.Outcome}
    (hopen : ws.closed = false) (h : ws.turn urandom = (o, ws')) :
    (∃ f, readFrame ws.reader = (.ok f, ws'.reader) ∧ Turned urandom ws f o ws') ∨
      (∃ e, o = .raises e) ∧ ws' = { ws with reader := ws'.reader } := by
  rw [RawWebSocket.turn, if_neg (by simp [hopen])] at h
  split at h
  · obtain ⟨rfl, rfl⟩ := Prod.mk.inj h
    exact Or.inr ⟨⟨_, rfl⟩, rfl⟩
  · next f reader hread =>
      have hturned := Turned.onFrame urandom f (show { ws with reader }.closed = false from hopen)
      have hreader := RawWebSocket.onFrame_reader urandom f { ws with reader }
      rw [h] at hturned hreader
      refine Or.inl ⟨f, by rw [hread, hreader], ?_⟩
      exact ⟨hturned.octets, hturned.whole, hturned.kept, hturned.closed, hturned.ended,
        hturned.wrote⟩

/-! ## What a server sends -/

lemma fragmentFrames_data : ∀ {opcode : ℕ} {ps : List Bytes}, DataOpcode opcode →
    ∀ f ∈ fragmentFrames opcode ps, DataOpcode f.opcode ∧ f.payload ∈ ps
  | _, [], _, f, hf => absurd hf List.not_mem_nil
  | _, [p], hop, f, hf => by
      obtain rfl := List.mem_singleton.mp hf
      exact ⟨hop, List.mem_singleton_self p⟩
  | _, p :: q :: ps, hop, f, hf => by
      rcases List.mem_cons.mp hf with rfl | hf
      · exact ⟨hop, List.mem_cons_self⟩
      · obtain ⟨hdata, hmem⟩ := fragmentFrames_data (Or.inl rfl) f hf
        exact ⟨hdata, List.mem_cons_of_mem p hmem⟩

lemma fragmentFrames_payload : ∀ (opcode : ℕ) (ps : List Bytes),
    (fragmentFrames opcode ps).flatMap Frame.payload = ps.flatten
  | _, [] => rfl
  | _, [p] => by simp [fragmentFrames]
  | _, p :: q :: ps => by
      rw [fragmentFrames, List.flatMap_cons, fragmentFrames_payload opCont (q :: ps)]
      rfl

lemma fragmentFrames_last : ∀ (opcode : ℕ) (ps : List Bytes),
    ∀ f ∈ (fragmentFrames opcode ps).getLast?, f.fin = true
  | _, [], f, hf => by cases hf
  | _, [p], f, hf => by
      obtain rfl := Option.some.inj hf
      rfl
  | _, p :: q :: ps, f, hf => by
      have hrest := fragmentFrames_last opCont (q :: ps) f
      have hne : fragmentFrames opCont (q :: ps) ≠ [] := by cases ps <;> simp [fragmentFrames]
      rw [fragmentFrames, List.getLast?_cons_of_ne_nil hne] at hf
      exact hrest hf

namespace Message

lemma frames_data (m : Message) : ∀ f ∈ m.frames,
    DataOpcode f.opcode ∧ f.payload.length ≤ maxMessageLen := by
  intro f hf
  obtain ⟨hdata, hmem⟩ := fragmentFrames_data (Or.inr m.opcode_data) f hf
  refine ⟨hdata, le_trans ?_ m.total_le⟩
  rw [List.length_flatten]
  exact List.le_sum_of_mem (List.mem_map_of_mem hmem)

end Message

namespace Interleaved

variable {msgs : List Message} {fs : List Frame}

/-- The data frames of a server that does not close. -/
lemma filter_data (h : Interleaved msgs fs) :
    fs.filter (fun f => decide (DataOpcode f.opcode)) = msgs.flatMap Message.frames := by
  rw [← h.data, dataFrames]
  refine List.filter_congr fun f hf => ?_
  by_cases hc : f.IsControl
  · have hnot : ¬ DataOpcode f.opcode := by
      rcases hc with hc | hc <;> rw [hc] <;> decide
    simp [hc, hnot]
  · have hmem : f ∈ msgs.flatMap Message.frames := by
      rw [← h.data]
      exact List.mem_filter.mpr ⟨hf, by simp [hc]⟩
    obtain ⟨m, -, hm⟩ := List.mem_flatMap.mp hmem
    simp [hc, (m.frames_data f hm).1]

lemma dataOctets_eq (h : Interleaved msgs fs) :
    dataOctets fs = (msgs.map Message.payload).flatten := by
  rw [dataOctets, h.filter_data, List.flatMap_assoc, List.flatMap_def]
  congr 1
  exact List.map_congr_left fun m _ => fragmentFrames_payload m.opcode m.fragments

lemma last_fin (h : Interleaved msgs fs) :
    ∀ f ∈ (fs.filter fun f => decide (DataOpcode f.opcode)).getLast?, f.fin = true := by
  rw [h.filter_data]
  intro f hf
  induction msgs using List.reverseRecOn generalizing fs with
  | nil => cases hf
  | append_singleton msgs m _ =>
      have hne : m.frames ≠ [] := by
        obtain ⟨p, ps, hps⟩ := List.exists_cons_of_ne_nil m.fragments_ne_nil
        rw [Message.frames, hps]
        cases ps <;> simp [fragmentFrames]
      rw [List.flatMap_append, List.flatMap_singleton,
        List.getLast?_append_of_ne_nil _ hne] at hf
      exact fragmentFrames_last m.opcode m.fragments f hf

lemma payload_le (h : Interleaved msgs fs) : ∀ f ∈ fs, f.payload.length ≤ maxMessageLen := by
  intro f hf
  by_cases hc : f.IsControl
  · exact h.control_le f hf hc
  · have hmem : f ∈ msgs.flatMap Message.frames := by
      rw [← h.data]
      exact List.mem_filter.mpr ⟨hf, by simp [hc]⟩
    obtain ⟨m, -, hm⟩ := List.mem_flatMap.mp hmem
    exact (m.frames_data f hm).2

lemma not_close (h : Interleaved msgs fs) : ∀ f ∈ fs, f.opcode ≠ opClose := by
  intro f hf hclose
  have hnot : ¬ f.IsControl := by
    rintro (hc | hc) <;> rw [hclose] at hc <;> cases hc
  have hmem : f ∈ msgs.flatMap Message.frames := by
    rw [← h.data]
    exact List.mem_filter.mpr ⟨hf, by simp [hnot]⟩
  obtain ⟨m, -, hm⟩ := List.mem_flatMap.mp hmem
  have hdata := (m.frames_data f hm).1
  rw [hclose] at hdata
  revert hdata
  decide

end Interleaved

/-! ## The frames that were read -/

/-- Successive calls of `_read_frame` that return `fs`. -/
inductive FramesRead : StreamReader → List Frame → StreamReader → Prop
  | nil (r : StreamReader) : FramesRead r [] r
  | snoc {r r₁ r₂ : StreamReader} {fs : List Frame} {f : Frame} (h : FramesRead r fs r₁)
      (hf : readFrame r₁ = (.ok f, r₂)) : FramesRead r (fs ++ [f]) r₂

namespace StreamReader

/-- The stream with more behind it. -/
def extend (more : Bytes) (r : StreamReader) : StreamReader := { r with wire := r.wire ++ more }

lemma recvExactly_extend {n : ℕ} {a : Bytes} {r r' : StreamReader}
    (h : recvExactly n r = (.ok a, r')) (more : Bytes) :
    recvExactly n (r.extend more) = (.ok a, r'.extend more) := by
  obtain ⟨hwire, hlen⟩ := recvExactly_eq_ok h
  have hready : r'.ready = r.ready := by
    rw [recvExactly, readexactly] at h
    split_ifs at h <;> cases h
    rfl
  have hcut := recvExactly_append hlen (r'.wire ++ more) r.ready
  rw [← List.append_assoc, ← hwire] at hcut
  rw [extend, hcut, extend, hready]

lemma readLength_extend {b1 : UInt8} {n : ℕ} {r r' : StreamReader}
    (h : readLength b1 r = (.ok n, r')) (more : Bytes) :
    readLength b1 (r.extend more) = (.ok n, r'.extend more) := by
  simp only [readLength] at h ⊢
  split_ifs at h ⊢
  · split at h
    · cases h
    · next a r₁ ha =>
        cases h
        rw [recvExactly_extend ha]
  · split at h
    · cases h
    · next a r₁ ha =>
        cases h
        rw [recvExactly_extend ha]
  · cases h
    rfl

lemma readPayload_extend {b1 : UInt8} {n : ℕ} {a : Bytes} {r r' : StreamReader}
    (h : readPayload b1 n r = (.ok a, r')) (more : Bytes) :
    readPayload b1 n (r.extend more) = (.ok a, r'.extend more) := by
  simp only [readPayload] at h ⊢
  split_ifs at h ⊢
  · split at h
    · cases h
    · next key r₁ hkey =>
        split at h
        · cases h
        · next payload r₂ hpayload =>
            cases h
            rw [recvExactly_extend hkey]
            dsimp only
            rw [recvExactly_extend hpayload]
  · exact recvExactly_extend h more

/-- What comes later does not change a frame that was read. -/
lemma readFrame_extend {f : Frame} {r r' : StreamReader} (h : readFrame r = (.ok f, r'))
    (more : Bytes) : readFrame (r.extend more) = (.ok f, r'.extend more) := by
  simp only [readFrame] at h ⊢
  split at h
  · cases h
  · next hdr r₁ hhdr =>
      split at h
      · cases h
      · next n r₂ hn =>
          split_ifs at h with hlong
          · cases h
          · split at h
            · cases h
            · next payload r₃ hpayload =>
                cases h
                rw [recvExactly_extend hhdr]
                dsimp only
                rw [readLength_extend hn]
                dsimp only
                rw [if_neg hlong, readPayload_extend hpayload]

end StreamReader

namespace FramesRead

variable {r r' : StreamReader} {fs gs : List Frame}

lemma extend (h : FramesRead r fs r') (more : Bytes) :
    FramesRead (r.extend more) fs (r'.extend more) := by
  induction h with
  | nil => exact .nil _
  | snoc _ hf ih => exact .snoc ih (StreamReader.readFrame_extend hf more)

/-- Of a peer that sends the frames `gs`, the frames that are read are the first of them, as long as
they are no more. -/
lemma exists_of_sent {bs rest : Bytes} {ready : ℕ → ℕ} (hsent : Sent gs bs)
    (hlen : ∀ g ∈ gs, g.payload.length ≤ maxMessageLen)
    (h : FramesRead r fs r') (hr : r = ⟨bs ++ rest, ready⟩) :
    gs <+: fs ∨ ∃ hs cs, gs = fs ++ hs ∧ Sent hs cs ∧ r' = ⟨cs ++ rest, ready⟩ := by
  induction h with
  | nil => exact Or.inr ⟨gs, bs, rfl, hsent, hr⟩
  | @snoc r₁ r₂ fs f _ hf ih =>
      rcases ih with hpre | ⟨hs, cs, rfl, hrest, rfl⟩
      · exact Or.inl (hpre.trans (List.prefix_append fs [f]))
      · cases hrest with
        | nil => exact Or.inl (by rw [List.append_nil]; exact List.prefix_append fs [f])
        | @cons g b hs cs hb hrest =>
            have hg : g.payload.length ≤ maxMessageLen :=
              hlen g (List.mem_append_right _ List.mem_cons_self)
            have hread := readFrame_onWire hb hg (cs ++ rest) ready
            rw [← List.append_assoc, hf] at hread
            obtain ⟨hfg, rfl⟩ := Prod.mk.inj hread
            obtain rfl := Except.ok.inj hfg
            exact Or.inr ⟨hs, cs, by simp, hrest, rfl⟩

/-- **The peer's frames.**  Wherever the connection breaks off, the frames that were read are the
first of those that the peer meant to send. -/
theorem prefix_of_sent {wire bs rest : Bytes} {ready : ℕ → ℕ} (hsent : Sent gs bs)
    (hlen : ∀ g ∈ gs, g.payload.length ≤ maxMessageLen) (hwire : wire <+: bs ++ rest)
    (h : FramesRead ⟨wire, ready⟩ fs r') : gs <+: fs ∨ fs <+: gs := by
  obtain ⟨more, hmore⟩ := hwire
  have hstart : StreamReader.extend more ⟨wire, ready⟩ = ⟨bs ++ rest, ready⟩ := by
    rw [StreamReader.extend, hmore]
  rcases exists_of_sent hsent hlen (h.extend more) hstart with hpre | ⟨hs, cs, rfl, -⟩
  · exact Or.inl hpre
  · exact Or.inr (List.prefix_append fs hs)

end FramesRead

end TgWsProxy
