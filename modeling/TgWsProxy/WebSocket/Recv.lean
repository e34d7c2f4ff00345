import TgWsProxy.Core.Transition
import TgWsProxy.WebSocket.Frame

/-!
# Reassembly of WebSocket messages

`RawWebSocket.recv` of `proxy/raw_websocket.py`.  Whether a message is in progress is not stored
anywhere: it is taken from the reassembly buffer being non-empty.

* `RawWebSocket`, `onFrame`, `recv` — the code; `onFrame` is one turn of its loop.
* `Message` — what a server sends in one or more frames.
* `recv_message` — one call returns the next message, however it is interleaved with control
  frames.
* `onFrame_frag_le` — what the buffer holds after a turn.
* **`recv_reassembles`** — the messages, the answers to PING, the end at CLOSE, and the bound on
  the buffer.
* `frag_over_limit_kept` — behind a call that raised there is no such bound.
-/

namespace TgWsProxy

open Wire

/-! ## The code -/

/-- `OP_CONT`. -/
def opCont : ℕ := 0x0

/-- `OP_BINARY`. -/
def opBinary : ℕ := 0x2

/-- `OP_CLOSE`. -/
def opClose : ℕ := 0x8

/-- `OP_PING`. -/
def opPing : ℕ := 0x9

/-- `OP_PONG`. -/
def opPong : ℕ := 0xA

/-- The connection: `written` are the arguments of `writer.write`, and `drawn` counts the calls of
`os.urandom`. -/
structure RawWebSocket where
  reader : StreamReader
  written : List Bytes
  closed : Bool
  frag : Bytes
  drawn : ℕ

namespace RawWebSocket

/-- `RawWebSocket(reader, writer)`. -/
def new (reader : StreamReader) : RawWebSocket := ⟨reader, [], false, [], 0⟩

/-- `writer.write(_build_frame(opcode, payload, mask=True))` inside its `try`, in which every
exception is dropped. -/
def answer (urandom : ℕ → MaskKey) (opcode : ℕ) (payload : Bytes) (ws : RawWebSocket) :
    RawWebSocket :=
  match buildFrame opcode payload (some (urandom ws.drawn)) with
  | some frame => { ws with written := ws.written ++ [frame], drawn := ws.drawn + 1 }
  | none => { ws with drawn := ws.drawn + 1 }

/-- What a turn of the loop of `recv` comes to. -/
inductive Outcome
  | returns (message : Option Bytes)
  | raises (e : WsError)
  | continues
  deriving DecidableEq, Repr

/-- A data frame in the loop of `recv`. -/
def onData (f : Frame) (ws : RawWebSocket) : Outcome × RawWebSocket :=
  if f.fin ∧ ws.frag = [] then (.returns (some f.payload), ws)
  else
    let frag := ws.frag ++ f.payload
    let size := frag.length
    if maxMessageLen < size then
      (.raises (.connection s!"WS message too large: {size} bytes"), { ws with frag })
    else if f.fin then (.returns (some frag), { ws with frag := [] })
    else (.continues, { ws with frag })

/-- A turn of the loop of `recv`, from the frame on. -/
def onFrame (urandom : ℕ → MaskKey) (f : Frame) (ws : RawWebSocket) : Outcome × RawWebSocket :=
  if f.opcode = opClose then
    (.returns none, { ws with closed := true }.answer urandom opClose (f.payload.take 2))
  else if f.opcode = opPing then (.continues, ws.answer urandom opPong f.payload)
  else if f.opcode = opPong then (.continues, ws)
  else if f.opcode = opCont ∨ f.opcode = 0x1 ∨ f.opcode = opBinary then ws.onData f
  else (.continues, ws)

/-- A turn of the loop of `recv`. -/
def turn (urandom : ℕ → MaskKey) (ws : RawWebSocket) : Outcome × RawWebSocket :=
  if ws.closed then (.returns none, ws)
  else
    match readFrame ws.reader with
    | (.error e, reader) => (.raises e, { ws with reader })
    | (.ok f, reader) => { ws with reader }.onFrame urandom f

@[simp] lemma answer_reader (urandom : ℕ → MaskKey) (opcode : ℕ) (payload : Bytes)
    (ws : RawWebSocket) : (ws.answer urandom opcode payload).reader = ws.reader := by
  unfold answer
  split <;> rfl

@[simp] lemma answer_frag (urandom : ℕ → MaskKey) (opcode : ℕ) (payload : Bytes)
    (ws : RawWebSocket) : (ws.answer urandom opcode payload).frag = ws.frag := by
  unfold answer
  split <;> rfl

@[simp] lemma answer_closed (urandom : ℕ → MaskKey) (opcode : ℕ) (payload : Bytes)
    (ws : RawWebSocket) : (ws.answer urandom opcode payload).closed = ws.closed := by
  unfold answer
  split <;> rfl

/-- A data frame touches nothing but the buffer. -/
lemma onData_eq (f : Frame) (ws : RawWebSocket) :
    (ws.onData f).2 = { ws with frag := (ws.onData f).2.frag } := by
  simp only [onData]
  split_ifs <;> rfl

lemma onFrame_reader (urandom : ℕ → MaskKey) (f : Frame) (ws : RawWebSocket) :
    (ws.onFrame urandom f).2.reader = ws.reader := by
  unfold onFrame
  split_ifs
  · rw [answer_reader]
  · rw [answer_reader]
  · rfl
  · rw [onData_eq]
  · rfl

/-- A turn that goes on has taken a frame off the stream. -/
lemma turn_lt {urandom : ℕ → MaskKey} {ws ws' : RawWebSocket}
    (h : ws.turn urandom = (.continues, ws')) :
    ws'.reader.wire.length < ws.reader.wire.length := by
  rw [turn] at h
  split_ifs at h
  · cases h
  split at h
  · cases h
  · next f reader hf =>
      have hreader := onFrame_reader urandom f { ws with reader }
      rw [h] at hreader
      rw [hreader]
      exact readFrame_lt hf

/-- `recv()`. -/
def recv (urandom : ℕ → MaskKey) (ws : RawWebSocket) :
    Except WsError (Option Bytes) × RawWebSocket :=
  match _h : ws.turn urandom with
  | (.returns message, ws') => (.ok message, ws')
  | (.raises e, ws') => (.error e, ws')
  | (.continues, ws') => ws'.recv urandom
termination_by ws.reader.wire.length
decreasing_by exact turn_lt _h

/-- Successive calls of `recv`. -/
def recvs (urandom : ℕ → MaskKey) : ℕ → RawWebSocket →
    List (Except WsError (Option Bytes)) × RawWebSocket
  | 0, ws => ([], ws)
  | k + 1, ws =>
      let (result, ws₁) := ws.recv urandom
      let (results, ws₂) := ws₁.recvs urandom k
      (result :: results, ws₂)

lemma recv_of_returns {urandom : ℕ → MaskKey} {ws ws' : RawWebSocket} {message : Option Bytes}
    (h : ws.turn urandom = (.returns message, ws')) : ws.recv urandom = (.ok message, ws') := by
  rw [recv]
  split <;> simp_all

lemma recv_of_continues {urandom : ℕ → MaskKey} {ws ws' : RawWebSocket}
    (h : ws.turn urandom = (.continues, ws')) : ws.recv urandom = ws'.recv urandom := by
  rw [recv]
  split <;> simp_all

lemma recv_of_raises {urandom : ℕ → MaskKey} {ws ws' : RawWebSocket} {e : WsError}
    (h : ws.turn urandom = (.raises e, ws')) : ws.recv urandom = (.error e, ws') := by
  rw [recv]
  split <;> simp_all

lemma turn_of_read (urandom : ℕ → MaskKey) {ws : RawWebSocket} {f : Frame} {b rest : Bytes}
    {ready : ℕ → ℕ} (hopen : ws.closed = false) (hreader : ws.reader = ⟨b ++ rest, ready⟩)
    (hf : OnWire f b) (hlen : f.payload.length ≤ maxMessageLen) :
    ws.turn urandom = { ws with reader := ⟨rest, ready⟩ }.onFrame urandom f := by
  rw [turn, hopen, hreader, readFrame_onWire hf hlen]
  rfl

end RawWebSocket

/-! ## What a server sends -/

/-- The frames of a message: the opcode on the first, FIN on the last. -/
def fragmentFrames : ℕ → List Bytes → List Frame
  | _, [] => []
  | opcode, [p] => [⟨opcode, p, true⟩]
  | opcode, p :: q :: ps => ⟨opcode, p, false⟩ :: fragmentFrames opCont (q :: ps)

/-- A text or binary message in one or more fragments. -/
structure Message where
  opcode : ℕ
  fragments : List Bytes
  opcode_data : opcode = 0x1 ∨ opcode = opBinary
  fragments_ne_nil : fragments ≠ []
  total_le : fragments.flatten.length ≤ maxMessageLen

/-- The payload of the whole message. -/
def Message.payload (m : Message) : Bytes := m.fragments.flatten

/-- Its frames. -/
def Message.frames (m : Message) : List Frame := fragmentFrames m.opcode m.fragments

/-- PING or PONG. -/
def Frame.IsControl (f : Frame) : Prop := f.opcode = opPing ∨ f.opcode = opPong

instance (f : Frame) : Decidable f.IsControl := inferInstanceAs (Decidable (_ ∨ _))

/-- The frames that are neither PING nor PONG. -/
def dataFrames (fs : List Frame) : List Frame := fs.filter fun f => ¬ f.IsControl

/-- The payloads of the PING frames. -/
def pings (fs : List Frame) : List Bytes :=
  (fs.filter fun f => f.opcode = opPing).map Frame.payload

/-- The messages `msgs`, with control frames anywhere between their frames. -/
structure Interleaved (msgs : List Message) (fs : List Frame) : Prop where
  data : dataFrames fs = msgs.flatMap Message.frames
  control_le : ∀ f ∈ fs, f.IsControl → f.payload.length ≤ maxMessageLen

/-- Frames as octets, one after another. -/
inductive Sent : List Frame → Bytes → Prop
  | nil : Sent [] []
  | cons {f : Frame} {b : Bytes} {fs : List Frame} {bs : Bytes} (h : OnWire f b)
      (hrest : Sent fs bs) : Sent (f :: fs) (b ++ bs)

@[simp] lemma dataFrames_nil : dataFrames [] = [] := rfl

lemma dataFrames_cons_of_control {f : Frame} (h : f.IsControl) (fs : List Frame) :
    dataFrames (f :: fs) = dataFrames fs := by
  simp [dataFrames, h]

lemma dataFrames_cons_of_data {f : Frame} (h : ¬ f.IsControl) (fs : List Frame) :
    dataFrames (f :: fs) = f :: dataFrames fs := by
  simp [dataFrames, h]

lemma pings_append (fs gs : List Frame) : pings (fs ++ gs) = pings fs ++ pings gs := by
  simp [pings]

/-- From `ws` to `ws'` a PONG was written for each of `ps`, in this order, and nothing else. -/
structure Answered (ps : List Bytes) (ws ws' : RawWebSocket) : Prop where
  written : ∃ new, ws'.written = ws.written ++ new ∧
    List.Forall₂ (fun p w => ∃ key, buildFrame opPong p (some key) = some w) ps new
  closed : ws'.closed = ws.closed

lemma Answered.of_eq {ws ws' : RawWebSocket} (hw : ws'.written = ws.written)
    (hc : ws'.closed = ws.closed) : Answered [] ws ws' :=
  ⟨⟨[], by rw [hw, List.append_nil], .nil⟩, hc⟩

lemma Answered.trans {ps qs : List Bytes} {ws ws' ws'' : RawWebSocket} (h : Answered ps ws ws')
    (h' : Answered qs ws' ws'') : Answered (ps ++ qs) ws ws'' := by
  obtain ⟨new, hnew, hps⟩ := h.written
  obtain ⟨new', hnew', hqs⟩ := h'.written
  refine ⟨⟨new ++ new', ?_, List.rel_append hps hqs⟩, h'.closed.trans h.closed⟩
  rw [hnew', hnew, List.append_assoc]

/-- The answer to a PING. -/
lemma Answered.ping {urandom : ℕ → MaskKey} {payload : Bytes} (ws : RawWebSocket)
    (hlen : payload.length ≤ maxMessageLen) :
    Answered [payload] ws (ws.answer urandom opPong payload) := by
  obtain ⟨frame, hbuild⟩ : ∃ frame,
      buildFrame opPong payload (some (urandom ws.drawn)) = some frame :=
    ⟨_, buildFrame_eq _ (by decide) (by unfold maxMessageLen at hlen; omega)⟩
  refine ⟨?_, RawWebSocket.answer_closed ..⟩
  unfold RawWebSocket.answer
  rw [hbuild]
  exact ⟨_, rfl, .cons ⟨_, hbuild⟩ .nil⟩

/-! ## One call -/

/-- A control frame is answered, or not, and the loop goes on. -/
lemma onFrame_control (urandom : ℕ → MaskKey) {f : Frame} (ws : RawWebSocket) (h : f.IsControl)
    (hlen : f.payload.length ≤ maxMessageLen) :
    ∃ ws', ws.onFrame urandom f = (.continues, ws') ∧ Answered (pings [f]) ws ws' ∧
      ws'.reader = ws.reader ∧ ws'.frag = ws.frag := by
  rcases h with h | h
  · have hne : f.opcode ≠ opClose := by rw [h]; decide
    refine ⟨ws.answer urandom opPong f.payload, ?_, ?_, by simp, by simp⟩
    · rw [RawWebSocket.onFrame, if_neg hne, if_pos h]
    · have hp : pings [f] = [f.payload] := by simp [pings, h]
      rw [hp]
      exact .ping ws hlen
  · have hclose : f.opcode ≠ opClose := by rw [h]; decide
    have hping : f.opcode ≠ opPing := by rw [h]; decide
    refine ⟨ws, ?_, ?_, rfl, rfl⟩
    · rw [RawWebSocket.onFrame, if_neg hclose, if_neg hping, if_pos h]
    · have hp : pings [f] = [] := by simp [pings, hping]
      rw [hp]
      exact .of_eq rfl rfl

/-- The opcodes of a data frame. -/
def DataOpcode (opcode : ℕ) : Prop := opcode = opCont ∨ opcode = 0x1 ∨ opcode = opBinary

lemma onFrame_data (urandom : ℕ → MaskKey) {f : Frame} (ws : RawWebSocket)
    (h : DataOpcode f.opcode) : ws.onFrame urandom f = ws.onData f := by
  have hne : f.opcode ≠ opClose ∧ f.opcode ≠ opPing ∧ f.opcode ≠ opPong := by
    rcases h with h | h | h <;> rw [h] <;> decide
  rw [RawWebSocket.onFrame, if_neg hne.1, if_neg hne.2.1, if_neg hne.2.2]
  exact if_pos h

lemma pings_data {opcode : ℕ} (h : DataOpcode opcode) (p : Bytes) (fin : Bool) :
    pings [⟨opcode, p, fin⟩] = [] := by
  have hne : opcode ≠ opPing := by rcases h with h | h | h <;> rw [h] <;> decide
  simp [pings, hne]

/-- A last fragment completes the message, whether anything was kept before it or not. -/
lemma onData_last (opcode : ℕ) {p : Bytes} (ws : RawWebSocket)
    (hlen : (ws.frag ++ p).length ≤ maxMessageLen) :
    ws.onData ⟨opcode, p, true⟩ = (.returns (some (ws.frag ++ p)), { ws with frag := [] }) := by
  cases hfrag : ws.frag with
  | nil =>
      have hws : ws = { ws with frag := [] } := by rw [← hfrag]
      rw [RawWebSocket.onData, if_pos ⟨rfl, hfrag⟩, ← hws]
      rfl
  | cons b bs =>
      rw [hfrag] at hlen
      rw [RawWebSocket.onData, if_neg (by rw [hfrag]; simp)]
      simp only [hfrag, if_neg hlen.not_gt, if_true]

/-- Any other fragment is kept. -/
lemma onData_more (opcode : ℕ) {p : Bytes} (ws : RawWebSocket)
    (hlen : (ws.frag ++ p).length ≤ maxMessageLen) :
    ws.onData ⟨opcode, p, false⟩ = (.continues, { ws with frag := ws.frag ++ p }) := by
  simp only [RawWebSocket.onData, Bool.false_eq_true, false_and, if_false, if_neg hlen.not_gt]

/-- A fragment that takes the buffer over the limit is kept, and the call raises. -/
lemma onData_over (opcode : ℕ) {p : Bytes} (ws : RawWebSocket) (fin : Bool) (hfrag : ws.frag ≠ [])
    (hlen : maxMessageLen < (ws.frag ++ p).length) :
    ∃ e, ws.onData ⟨opcode, p, fin⟩ = (.raises e, { ws with frag := ws.frag ++ p }) := by
  have hnot : ¬ (fin = true ∧ ws.frag = []) := fun h => hfrag h.2
  simp only [RawWebSocket.onData, if_neg hnot, if_pos hlen]
  exact ⟨_, rfl⟩

/-- **One call returns one message.**  With the fragments `ps` of a message still to come, among
control frames, `recv` returns what was kept followed by them, and has read up to the last of
them. -/
lemma recv_message {urandom : ℕ → MaskKey} {ready : ℕ → ℕ} {tail : Bytes} {more : List Frame}
    {fs : List Frame} {bs : Bytes} (hsent : Sent fs bs)
    (hcontrol : ∀ f ∈ fs, f.IsControl → f.payload.length ≤ maxMessageLen) :
    ∀ (opcode : ℕ) (p : Bytes) (ps : List Bytes) (ws : RawWebSocket), DataOpcode opcode →
      dataFrames fs = fragmentFrames opcode (p :: ps) ++ more → ws.closed = false →
      ws.reader = ⟨bs ++ tail, ready⟩ → (ws.frag ++ (p :: ps).flatten).length ≤ maxMessageLen →
      ∃ pre post bs' ws', fs = pre ++ post ∧ Sent post bs' ∧ dataFrames post = more ∧
        ws.recv urandom = (.ok (some (ws.frag ++ (p :: ps).flatten)), ws') ∧
        ws'.reader = ⟨bs' ++ tail, ready⟩ ∧ ws'.frag = [] ∧ Answered (pings pre) ws ws' := by
  induction hsent with
  | nil =>
      intro opcode p ps ws _ hdata
      cases ps <;> simp [fragmentFrames] at hdata
  | @cons f b fs bs hf hrest ih =>
      intro opcode p ps ws hop hdata hopen hreader hlen
      have ih := @ih fun g hg => hcontrol g (List.mem_cons_of_mem _ hg)
      rw [List.append_assoc] at hreader
      by_cases hc : f.IsControl
      · -- A control frame: the message in progress is not touched.
        have hflen := hcontrol f List.mem_cons_self hc
        rw [dataFrames_cons_of_control hc] at hdata
        obtain ⟨ws₁, hturn, hans, hr, hfrag⟩ :=
          onFrame_control urandom { ws with reader := ⟨bs ++ tail, ready⟩ } hc hflen
        rw [← RawWebSocket.turn_of_read urandom hopen hreader hf hflen] at hturn
        obtain ⟨pre, post, bs', ws', hfs, hpost, hmore, hrecv, hread, hfrag', hans'⟩ :=
          ih opcode p ps ws₁ hop hdata (hans.closed.trans hopen) hr (by rw [hfrag]; exact hlen)
        refine ⟨f :: pre, post, bs', ws', by rw [hfs]; rfl, hpost, hmore, ?_, hread, hfrag', ?_⟩
        · rw [RawWebSocket.recv_of_continues hturn, hrecv, hfrag]
        · have hans := hans.trans hans'
          rw [← pings_append] at hans
          exact ⟨hans.written, hans.closed⟩
      · rw [dataFrames_cons_of_data hc] at hdata
        cases ps with
        | nil =>
            -- The last fragment.
            obtain ⟨rfl, hmsg⟩ := List.cons.inj hdata
            have hlast : (ws.frag ++ p).length ≤ maxMessageLen := by simpa using hlen
            have hplen : p.length ≤ maxMessageLen := by
              rw [List.length_append] at hlast
              omega
            have hturn := RawWebSocket.turn_of_read urandom hopen hreader hf hplen
            rw [onFrame_data urandom _ hop, onData_last opcode
                { ws with reader := ⟨bs ++ tail, ready⟩ } hlast] at hturn
            refine ⟨[_], fs, bs, { ws with reader := ⟨bs ++ tail, ready⟩, frag := [] }, rfl, hrest,
              hmsg, ?_, rfl, rfl, ?_⟩
            · rw [RawWebSocket.recv_of_returns hturn, List.flatten_cons, List.flatten_nil,
                List.append_nil]
            · rw [pings_data hop]
              exact .of_eq rfl rfl
        | cons q ps =>
            obtain ⟨rfl, hmsg⟩ := List.cons.inj hdata
            have hmore : (ws.frag ++ p).length ≤ maxMessageLen := by
              simp only [List.flatten_cons, List.length_append] at hlen ⊢
              omega
            have hplen : p.length ≤ maxMessageLen := by
              rw [List.length_append] at hmore
              omega
            have hturn := RawWebSocket.turn_of_read urandom hopen hreader hf hplen
            rw [onFrame_data urandom _ hop, onData_more opcode
                { ws with reader := ⟨bs ++ tail, ready⟩ } hmore] at hturn
            obtain ⟨pre, post, bs', ws', hfs, hpost, hmore, hrecv, hread, hfrag', hans'⟩ :=
              ih opCont q ps { ws with reader := ⟨bs ++ tail, ready⟩, frag := ws.frag ++ p }
                (Or.inl rfl) hmsg hopen rfl (by simpa using hlen)
            refine ⟨⟨opcode, p, false⟩ :: pre, post, bs', ws', by rw [hfs]; rfl, hpost, hmore, ?_,
              hread, hfrag', ?_⟩
            · rw [RawWebSocket.recv_of_continues hturn, hrecv]
              simp
            · rw [← List.singleton_append, pings_append, pings_data hop, List.nil_append]
              exact ⟨hans'.written, hans'.closed⟩

/-- Control frames alone are answered and change nothing else of what the call does. -/
lemma recv_controls (urandom : ℕ → MaskKey) {ready : ℕ → ℕ} {tail : Bytes} {fs : List Frame}
    {bs : Bytes} (hsent : Sent fs bs) (hdata : dataFrames fs = [])
    (hcontrol : ∀ f ∈ fs, f.IsControl → f.payload.length ≤ maxMessageLen) :
    ∀ ws : RawWebSocket, ws.closed = false → ws.reader = ⟨bs ++ tail, ready⟩ →
      ∃ ws', ws.recv urandom = ws'.recv urandom ∧ ws'.reader = ⟨tail, ready⟩ ∧
        Answered (pings fs) ws ws' := by
  induction hsent with
  | nil =>
      intro ws _ hreader
      exact ⟨ws, rfl, hreader, .of_eq rfl rfl⟩
  | @cons f b fs bs hf hrest ih =>
      intro ws hopen hreader
      rw [List.append_assoc] at hreader
      by_cases hc : f.IsControl
      · have hflen := hcontrol f List.mem_cons_self hc
        rw [dataFrames_cons_of_control hc] at hdata
        obtain ⟨ws₁, hturn, hans, hr, -⟩ :=
          onFrame_control urandom { ws with reader := ⟨bs ++ tail, ready⟩ } hc hflen
        rw [← RawWebSocket.turn_of_read urandom hopen hreader hf hflen] at hturn
        obtain ⟨ws', hrecv, hread, hans'⟩ :=
          ih hdata (fun g hg => hcontrol g (List.mem_cons_of_mem _ hg)) ws₁
            (hans.closed.trans hopen) hr
        have hans := hans.trans hans'
        rw [← pings_append] at hans
        exact ⟨ws', (RawWebSocket.recv_of_continues hturn).trans hrecv, hread,
          hans.written, hans.closed⟩
      · rw [dataFrames_cons_of_data hc] at hdata
        cases hdata

/-- A CLOSE ends the call. -/
lemma recv_close (urandom : ℕ → MaskKey) {f : Frame} {b rest : Bytes} {ready : ℕ → ℕ}
    {ws : RawWebSocket} (hf : OnWire f b) (hop : f.opcode = opClose)
    (hlen : f.payload.length ≤ maxMessageLen) (hopen : ws.closed = false)
    (hreader : ws.reader = ⟨b ++ rest, ready⟩) :
    ∃ ws', ws.recv urandom = (.ok none, ws') ∧ ws'.closed = true ∧ ws'.reader = ⟨rest, ready⟩ ∧
      ws'.frag = ws.frag := by
  have hturn := RawWebSocket.turn_of_read urandom hopen hreader hf hlen
  rw [RawWebSocket.onFrame, if_pos hop] at hturn
  exact ⟨_, RawWebSocket.recv_of_returns hturn, by simp, by simp, by simp⟩

/-! ## Successive calls -/

/-- Once closed, every call returns `None` and reads nothing. -/
lemma recvs_closed (urandom : ℕ → MaskKey) {ws : RawWebSocket} (h : ws.closed = true) :
    ∀ k, ws.recvs urandom k = (List.replicate k (.ok none), ws)
  | 0 => rfl
  | k + 1 => by
      have hturn : ws.turn urandom = (.returns none, ws) := by rw [RawWebSocket.turn, if_pos h]
      rw [RawWebSocket.recvs, RawWebSocket.recv_of_returns hturn]
      simp only [recvs_closed urandom h k, List.replicate_succ]

/-- **As many calls as there are messages return the messages.** -/
lemma recvs_messages (urandom : ℕ → MaskKey) {ready : ℕ → ℕ} {tail : Bytes}
    (msgs : List Message) :
    ∀ (fs : List Frame) (bs : Bytes) (ws : RawWebSocket), Interleaved msgs fs → Sent fs bs →
      ws.closed = false → ws.frag = [] → ws.reader = ⟨bs ++ tail, ready⟩ →
      ∃ pre post bs' ws', fs = pre ++ post ∧ Sent post bs' ∧ dataFrames post = [] ∧
        ws.recvs urandom msgs.length = (msgs.map fun m => .ok (some m.payload), ws') ∧
        ws'.reader = ⟨bs' ++ tail, ready⟩ ∧ Answered (pings pre) ws ws' := by
  induction msgs with
  | nil =>
      intro fs bs ws hall hsent _ _ hreader
      exact ⟨[], fs, bs, ws, rfl, hsent, hall.data, rfl, hreader, .of_eq rfl rfl⟩
  | cons m msgs ih =>
      intro fs bs ws hall hsent hopen hfrag hreader
      obtain ⟨p, ps, hm⟩ := List.exists_cons_of_ne_nil m.fragments_ne_nil
      have hdata := hall.data
      rw [List.flatMap_cons, Message.frames, hm] at hdata
      have htotal : (ws.frag ++ (p :: ps).flatten).length ≤ maxMessageLen := by
        rw [hfrag, ← hm]
        exact m.total_le
      obtain ⟨pre, post, bs₁, ws₁, rfl, hpost, hmore, hrecv, hread, hfrag₁, hans⟩ :=
        recv_message hsent hall.control_le m.opcode p ps ws (Or.inr m.opcode_data) hdata hopen
          hreader htotal
      have hrest : Interleaved msgs post :=
        ⟨hmore, fun f hf => hall.control_le f (List.mem_append_right pre hf)⟩
      obtain ⟨pre', post', bs', ws', rfl, hpost', hnone, hrecvs, hread', hans'⟩ :=
        ih post bs₁ ws₁ hrest hpost (hans.closed.trans hopen) hfrag₁ hread
      refine ⟨pre ++ pre', post', bs', ws', (List.append_assoc ..).symm, hpost', hnone, ?_, hread',
        ?_⟩
      · rw [List.length_cons, RawWebSocket.recvs, hrecv]
        simp only [hrecvs, hfrag, List.nil_append, List.map_cons, Message.payload, hm]
      · rw [pings_append]
        exact hans.trans hans'

/-! ## What is kept between fragments -/

/-- **The buffer after a fragment,** whatever was in it before. -/
lemma onData_frag_le {f : Frame} {ws ws' : RawWebSocket} {outcome : RawWebSocket.Outcome}
    (h : ws.onData f = (outcome, ws')) (hok : ∀ e, outcome ≠ .raises e) :
    ws'.frag.length ≤ maxMessageLen := by
  simp only [RawWebSocket.onData] at h
  split_ifs at h with hwhole hlong hfin
  · cases h
    rw [hwhole.2]
    exact Nat.zero_le _
  · cases h
    exact absurd rfl (hok _)
  · cases h
    exact Nat.zero_le _
  · cases h
    exact Nat.le_of_not_gt hlong

/-- A turn that does not raise keeps the bound. -/
lemma turn_frag_le {urandom : ℕ → MaskKey} {ws ws' : RawWebSocket}
    {outcome : RawWebSocket.Outcome} (hle : ws.frag.length ≤ maxMessageLen)
    (h : ws.turn urandom = (outcome, ws')) (hok : ∀ e, outcome ≠ .raises e) :
    ws'.frag.length ≤ maxMessageLen := by
  rw [RawWebSocket.turn] at h
  split_ifs at h
  · cases h
    exact hle
  split at h
  · cases h
    exact absurd rfl (hok _)
  · next f reader _ =>
      rw [RawWebSocket.onFrame] at h
      split_ifs at h
      · cases h
        rw [RawWebSocket.answer_frag]
        exact hle
      · cases h
        rw [RawWebSocket.answer_frag]
        exact hle
      · cases h
        exact hle
      · exact onData_frag_le h hok
      · cases h
        exact hle

/-- A turn of a call in a run of calls; a run ends where a call raises. -/
def recvStep (urandom : ℕ → MaskKey) (_ : Unit) (ws : RawWebSocket) : Option RawWebSocket :=
  match ws.turn urandom with
  | (.raises _, _) => none
  | (.returns _, ws') => some ws'
  | (.continues, ws') => some ws'

/-- A fresh connection. -/
def RawWebSocket.Fresh (ws : RawWebSocket) : Prop := ∃ reader, ws = RawWebSocket.new reader

/-- **Reassembly.**  Successive calls return exactly the messages, in order, and answer every PING
in order; what is behind the last message is left to the next call; a CLOSE makes that call and
all later ones return `None`, with nothing read behind it.  Whatever frames arrive, the buffer is
within the limit after every turn of a run in which no call raises, and after every fragment that
does not make the call raise. -/
theorem recv_reassembles (urandom : ℕ → MaskKey) :
    (∀ (msgs : List Message) (fs : List Frame) (bs tail : Bytes) (ready : ℕ → ℕ)
      (ws : RawWebSocket), Interleaved msgs fs → Sent fs bs → ws.closed = false → ws.frag = [] →
      ws.reader = ⟨bs ++ tail, ready⟩ →
      ∃ pre post ws₁ ws₂, fs = pre ++ post ∧
        ws.recvs urandom msgs.length = (msgs.map fun m => .ok (some m.payload), ws₁) ∧
        Answered (pings pre) ws ws₁ ∧
        ws₁.recv urandom = ws₂.recv urandom ∧ ws₂.reader = ⟨tail, ready⟩ ∧
        Answered (pings fs) ws ws₂ ∧
        ∀ (f : Frame) (b rest : Bytes), f.opcode = opClose → f.payload.length ≤ maxMessageLen →
          OnWire f b → tail = b ++ rest → ∃ ws₃, ws₃.reader = ⟨rest, ready⟩ ∧
            ∀ k, ws₁.recvs urandom (k + 1) = (List.replicate (k + 1) (.ok none), ws₃)) ∧
    (∀ ws, Reachable RawWebSocket.Fresh (recvStep urandom) Always ws →
      ws.frag.length ≤ maxMessageLen) ∧
    (∀ (f : Frame) (ws ws' : RawWebSocket) (outcome : RawWebSocket.Outcome),
      DataOpcode f.opcode → ws.onFrame urandom f = (outcome, ws') →
      (∀ e, outcome ≠ .raises e) → ws'.frag.length ≤ maxMessageLen) := by
  refine ⟨?_, ?_, ?_⟩
  · intro msgs fs bs tail ready ws hall hsent hopen hfrag hreader
    obtain ⟨pre, post, bs', ws₁, rfl, hpost, hnone, hrecvs, hread, hans⟩ :=
      recvs_messages urandom msgs fs bs ws hall hsent hopen hfrag hreader
    have hopen₁ : ws₁.closed = false := hans.closed.trans hopen
    obtain ⟨ws₂, hrecv, hread₂, hans₂⟩ := recv_controls urandom hpost hnone
      (fun f hf => hall.control_le f (List.mem_append_right pre hf)) ws₁ hopen₁ hread
    refine ⟨pre, post, ws₁, ws₂, rfl, hrecvs, hans, hrecv, hread₂, ?_, ?_⟩
    · rw [pings_append]
      exact hans.trans hans₂
    · intro f b rest hop hlen hf htail
      obtain ⟨ws₃, hclose, hclosed, hread₃, -⟩ := recv_close urandom hf hop hlen
        (hans₂.closed.trans hopen₁) (htail ▸ hread₂)
      refine ⟨ws₃, hread₃, fun k => ?_⟩
      rw [RawWebSocket.recvs, hrecv, hclose]
      simp only [recvs_closed urandom hclosed k, List.replicate_succ]
  · intro ws hreach
    refine Reachable.invariant (P := fun ws => ws.frag.length ≤ maxMessageLen) ?_ ?_ hreach
    · rintro ws ⟨reader, rfl⟩
      exact Nat.zero_le _
    · intro ws e ws' _ hle _ hstep
      rw [recvStep] at hstep
      split at hstep
      · cases hstep
      · next hturn =>
          cases hstep
          exact turn_frag_le hle hturn (by simp)
      · next hturn =>
          cases hstep
          exact turn_frag_le hle hturn (by simp)
  · intro f ws ws' outcome hop h hok
    rw [onFrame_data urandom ws hop] at h
    exact onData_frag_le h hok

/-- A binary message in two fragments, the first of them empty, with a PING between them and a
CLOSE behind them. -/
theorem recv_reassembles_sample :
    let urandom : ℕ → MaskKey := fun _ => ⟨[1, 2, 3, 4], rfl⟩
    let wire : Bytes := [0x02, 0, 0x89, 1, 7, 0x80, 2, 5, 6, 0x88, 0, 99]
    let ws := RawWebSocket.new ⟨wire, fun _ => 0⟩
    (∃ ws₁ ws₃, ws.recvs urandom 1 = ([.ok (some [5, 6])], ws₁) ∧
        ws₁.recvs urandom 2 = ([.ok none, .ok none], ws₃) ∧ ws₃.reader.wire = [99]) ∧
      ws.frag.length ≤ maxMessageLen ∧
      (ws.onFrame urandom ⟨0, [8], false⟩).2.frag.length ≤ maxMessageLen := by
  intro urandom wire ws
  let m : Message := ⟨2, [[], [5, 6]], Or.inr rfl, by decide, by decide⟩
  let fs : List Frame := [⟨2, [], false⟩, ⟨9, [7], true⟩, ⟨0, [5, 6], true⟩]
  have hall : Interleaved [m] fs := ⟨by decide, by decide⟩
  have hsent : Sent fs [0x02, 0, 0x89, 1, 7, 0x80, 2, 5, 6] :=
    .cons (@OnWire.plain 0x02 0 [] [] (.short 0 (by decide)) (by decide))
      (.cons (@OnWire.plain 0x89 1 [] [7] (.short 1 (by decide)) (by decide))
        (.cons (@OnWire.plain 0x80 2 [] [5, 6] (.short 2 (by decide)) (by decide)) .nil))
  obtain ⟨_, _, ws₁, ws₂, _, hrecvs, _, _, _, _, hclose⟩ := (recv_reassembles urandom).1 [m] fs _
    [0x88, 0, 99] (fun _ => 0) ws hall hsent rfl rfl rfl
  obtain ⟨ws₃, hread, hnone⟩ := hclose ⟨8, [], true⟩ [0x88, 0] [99] rfl (by decide)
    (@OnWire.plain 0x88 0 [] [] (.short 0 (by decide)) (by decide)) rfl
  refine ⟨⟨ws₁, ws₃, hrecvs, hnone 1, by rw [hread]⟩, ?_, ?_⟩
  · exact (recv_reassembles urandom).2.1 ws (.start ⟨_, rfl⟩)
  · exact (recv_reassembles urandom).2.2 ⟨0, [8], false⟩ ws _ _ (Or.inl rfl) rfl (by simp)

/-- The frames of a message over the limit with a CLOSE behind them, from its first fragment `p` on:
the first call raises, and the second one returns `None` with the buffer still over the limit. -/
lemma recvs_over_limit (urandom : ℕ → MaskKey) {p : Bytes} (hp : p.length = maxMessageLen)
    (ready : ℕ → ℕ) :
    ∃ wire e ws', (RawWebSocket.new ⟨wire, ready⟩).recvs urandom 2 = ([.error e, .ok none], ws') ∧
      maxMessageLen < ws'.frag.length := by
  have hfirst : OnWire ⟨2, p, false⟩ (0x02 :: 127 :: (beBytes 8 p.length ++ p)) :=
    .plain 0x02 127 (.long p.length (by rw [hp]; decide)) (by decide)
  have hsecond : OnWire ⟨0, [0], false⟩ [0x00, 1, 0] :=
    @OnWire.plain 0x00 1 [] [0] (.short 1 (by decide)) (by decide)
  have hlast : OnWire ⟨8, [], true⟩ [0x88, 0] :=
    @OnWire.plain 0x88 0 [] [] (.short 0 (by decide)) (by decide)
  let wire := (0x02 :: 127 :: (beBytes 8 p.length ++ p)) ++ ([0x00, 1, 0] ++ ([0x88, 0] ++ []))
  let ws : RawWebSocket := .new ⟨wire, ready⟩
  let ws₁ : RawWebSocket :=
    { ws with reader := ⟨[0x00, 1, 0] ++ ([0x88, 0] ++ []), ready⟩, frag := p }
  let ws₂ : RawWebSocket := { ws₁ with reader := ⟨[0x88, 0] ++ [], ready⟩, frag := p ++ [0] }
  -- The first fragment fits.
  have hturn : ws.turn urandom = (.continues, ws₁) := by
    rw [RawWebSocket.turn_of_read urandom rfl rfl hfirst hp.le,
      onFrame_data urandom _ (by right; right; rfl)]
    exact onData_more 2 { ws with reader := ws₁.reader } hp.le
  -- The second one does not.
  have hlen : maxMessageLen < (p ++ [0]).length := by rw [List.length_append, hp]; decide
  have hne : p ≠ [] := by
    rintro rfl
    exact absurd hp (by decide)
  obtain ⟨e, hover⟩ := onData_over 0 { ws₁ with reader := ws₂.reader } false hne hlen
  have hturn₁ : ws₁.turn urandom = (.raises e, ws₂) := by
    rw [RawWebSocket.turn_of_read urandom rfl rfl hsecond (by decide),
      onFrame_data urandom _ (Or.inl rfl)]
    exact hover
  obtain ⟨ws', hclose, -, -, hfrag⟩ :
      ∃ ws', ws₂.recv urandom = (.ok none, ws') ∧ ws'.closed = true ∧ ws'.reader = ⟨[], ready⟩ ∧
        ws'.frag = ws₂.frag := recv_close urandom hlast rfl (by decide) rfl rfl
  refine ⟨wire, e, ws', ?_, by rw [hfrag]; exact hlen⟩
  change ws.recvs urandom 2 = _
  rw [RawWebSocket.recvs, RawWebSocket.recv_of_continues hturn, RawWebSocket.recv_of_raises hturn₁]
  simp only [RawWebSocket.recvs, hclose]

/-- A binary message over the limit, and a CLOSE behind its second frame: the call that returns
`None` there leaves more than the limit in the buffer. -/
theorem frag_over_limit_kept :
    ∃ wire e ws', (RawWebSocket.new ⟨wire, fun _ => 0⟩).recvs (fun _ => ⟨[1, 2, 3, 4], rfl⟩) 2 =
        ([.error e, .ok none], ws') ∧ maxMessageLen < ws'.frag.length :=
  recvs_over_limit _ (List.length_replicate (n := maxMessageLen) (a := (0 : UInt8))) _

end TgWsProxy
