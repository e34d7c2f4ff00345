import TgWsProxy.Core.Dict
import TgWsProxy.Core.Transition
import TgWsProxy.H2.Transport.Library

/-!
# The HTTP/2 connection

`_Connection` and `_ResponseStream` of `proxy/h2_transport.py`, over any HTTP/2 library.  What runs
between two suspensions of a task is one step, and timeouts expire whenever they like.

* `ResponseStream`, `Request`, `Connection` — a response, the task that wants it, the connection.
* `Wait` — `asyncio.wait_for(self.changed.wait(), t)`: the inner `wait()` is a task of its own,
  whose first step comes later; without a timeout it is awaited directly.
* `Connection.receive` — a batch of received bytes.
* `Connection.step` — the steps of the reader, the requests and the consumers of responses.
-/

namespace TgWsProxy.H2Transport

open Wire

/-- `IO_BATCH_SIZE`. -/
def ioBatchSize : ℕ := 64 * 1024

/-- What a connection, a stream or a request fails with. -/
inductive Failure
  | readTimeout
  | readError
  | writeTimeout
  | writeError
  | remoteProtocolError
  deriving DecidableEq, Repr

/-- `_ResponseStream`.  `handed` is the credit of the chunk that its consumer has in hand;
`received` counts the flow-controlled bytes of its events. -/
structure ResponseStream where
  streamId : ℕ
  chunks : List (List UInt8 × ℕ)
  consumedCredit : ℕ
  headers : Option (List (List UInt8 × List UInt8))
  error : Option Failure
  ended : Bool
  closed : Bool
  handed : Option ℕ
  received : ℕ
  deriving DecidableEq

/-- `_ResponseStream(connection, stream_id, read_timeout)`. -/
def ResponseStream.new (streamId : ℕ) : ResponseStream :=
  ⟨streamId, [], 0, none, none, false, false, none, 0⟩

/-- A wait for `changed`: the task of the inner `wait()` has not taken its first step, waits for the
event, or has been woken. -/
inductive Wait
  | unstarted
  | waiting
  | woken
  deriving DecidableEq, Repr

/-- A wait that starts, with a timeout or without. -/
def Wait.begin (timeout : Bool) : Wait := if timeout then .unstarted else .waiting

/-- What `changed.set()` makes of a wait. -/
def Wait.wake : Wait → Wait
  | .waiting => .woken
  | w => w

/-- Where a request is suspended: before `reserve`, in its wait, in the iterator of the body, in the
wait of `send_body` or in `drain` with `left` bytes of a chunk to be sent, in the last `drain`, in
the wait for the headers; then its response is iterated, iterated to the end, or it has failed. -/
inductive Phase
  | starting
  | reserving (w : Wait)
  | fetching
  | blocked (left : ℕ) (w : Wait)
  | draining (left : ℕ)
  | finishing
  | awaiting
  | responded
  | finished
  | failed
  deriving DecidableEq, Repr

/-- The wait of a phase for `changed`. -/
def Phase.wait : Phase → Option Wait
  | .reserving w => some w
  | .blocked _ w => some w
  | _ => none

/-- What `changed.set()` makes of a phase. -/
def Phase.wake : Phase → Phase
  | .reserving w => .reserving w.wake
  | .blocked left w => .blocked left w.wake
  | p => p

/-- A task of `request`, and behind it the consumer of its response. -/
structure Request where
  poolTimeout : Bool
  phase : Phase
  stream : Option ResponseStream
  deriving DecidableEq

/-- Where the reader is suspended. -/
inductive Reader
  | reading
  | draining
  | stopped
  deriving DecidableEq, Repr

/-- What a connection is made with: `max_streams`, and whether `write_timeout` is a number. -/
structure Config where
  maxStreams : ℕ
  writeTimeout : Bool

/-- `_Connection`.  `streams` maps a stream identifier to the request whose stream it is. -/
structure Connection (η : Type*) where
  h2 : η
  streams : Dict ℕ ℕ
  changed : Bool
  settingsReceived : Bool
  error : Option Failure
  reader : Reader
  requests : List Request

/-- How a `drain` ends. -/
inductive Drained
  | ok
  | timeout
  | osError
  deriving DecidableEq, Repr

/-- What can happen next. -/
inductive Event
  | request (poolTimeout : Bool)
  | start (c : ℕ)
  | turn (c : ℕ)
  | timeout (c : ℕ)
  | fetched (c : ℕ) (data : Option ℕ)
  | drained (c : ℕ) (outcome : Drained)
  | respond (c : ℕ)
  | cancel (c : ℕ)
  | read (c : ℕ)
  | readTimeout (c : ℕ)
  | closeResponse (c : ℕ)
  | receive (data : List UInt8)
  | readerDrained (outcome : Drained)
  | aclose
  deriving DecidableEq

variable {η : Type*}

namespace Connection

/-! ## The pieces -/

/-- `changed.set()`. -/
def set (s : Connection η) : Connection η :=
  if s.changed then s
  else { s with
    changed := true
    requests := s.requests.map fun r => { r with phase := r.phase.wake } }

/-- `changed.clear()`. -/
def clear (s : Connection η) : Connection η := { s with changed := false }

/-- Request `c` goes to `phase`. -/
def goto (c : ℕ) (phase : Phase) (s : Connection η) : Connection η :=
  { s with requests := s.requests.modify c fun r => { r with phase } }

/-- The stream of request `c` becomes `st`. -/
def putStream (c : ℕ) (st : ResponseStream) (s : Connection η) : Connection η :=
  { s with requests := s.requests.modify c fun r => { r with stream := some st } }

/-- The stream of request `c`. -/
def streamOf (c : ℕ) (s : Connection η) : Option ResponseStream :=
  (s.requests[c]?).bind Request.stream

/-- `fail(error)`. -/
def fail (error : Failure) (s : Connection η) : Connection η :=
  if s.error ≠ none then s
  else
    { s with
      error := some error
      requests := s.requests.mapIdx fun c r =>
        { r with stream := r.stream.map fun st =>
            if c ∈ s.streams.values ∧ st.ended = false then { st with error := some error }
            else st } : Connection η }.set

section Library

variable (lib : H2Library η)

/-- `flush()`: whether there was anything to write. -/
def flush (s : Connection η) : Bool × Connection η :=
  let (data, h2) := lib.dataToSend s.h2
  (data ≠ [], { s with h2 })

/-- `release(stream)`. -/
def release (streamId : ℕ) (s : Connection η) : Connection η :=
  let s := { s with streams := s.streams.erase streamId }
  if s.error = none then
    match lib.resetStream streamId s.h2 with
    | (none, h2) => ({ s with h2 }.flush lib).2.set
    | (some .streamClosed, h2) => { s with h2 }.set
    | (some .other, h2) => { s with h2 }
  else s.set

/-- `aclose()` of the stream of request `c`. -/
def acloseStream (c : ℕ) (s : Connection η) : Connection η :=
  match s.streamOf c with
  | none => s
  | some st =>
      if st.closed then s
      else (s.putStream c { st with closed := true, chunks := [] }).release lib st.streamId

/-- Request `c` ends with an exception, which closes its stream. -/
def abandon (c : ℕ) (s : Connection η) : Connection η := (s.acloseStream lib c).goto c .failed

/-- `consumed(stream, credit)`, and the exception that it lets through. -/
def consumed (c credit : ℕ) (s : Connection η) : Option Refused × Connection η :=
  match s.streamOf c with
  | none => (none, s)
  | some st =>
      if credit ≠ 0 ∧ st.ended = false ∧ st.closed = false ∧ s.error = none then
        let n := st.consumedCredit + credit
        if st.chunks ≠ [] ∧ n < ioBatchSize then
          (none, s.putStream c { st with consumedCredit := n })
        else
          match lib.incrementFlowControlWindow n (some st.streamId) s.h2 with
          | (none, h2) =>
              (none, (({ s with h2 }.putStream c
                { st with consumedCredit := 0 }).flush lib).2)
          | (some .streamClosed, h2) =>
              (none, { s with h2 }.putStream c { st with consumedCredit := n })
          | (some .other, h2) =>
              (some .other, { s with h2 }.putStream c { st with consumedCredit := n })
      else (none, s)

/-! ## The reader -/

/-- A step of the reader: it goes on, or raises. -/
inductive Outcome (η : Type*)
  | go (credit : ℕ) (s : Connection η)
  | raised (s : Connection η)

/-- One event of a batch. -/
def handle (terminated : Bool) (credit : ℕ) (s : Connection η) : H2Event → Outcome η
  | .remoteSettingsChanged => .go credit { s with settingsReceived := true }.set
  | .windowUpdated _ => .go credit s.set
  | .connectionTerminated => .raised s
  | .dataReceived streamId data n =>
      let credit := if n ≠ 0 ∧ terminated = false then credit + n else credit
      match (s.streams.get? streamId).bind fun c => (s.streamOf c).map (c, ·) with
      | none => .go credit s
      | some (c, st) =>
          let st := { st with received := st.received + n }
          if data ≠ [] then
            .go credit (s.putStream c { st with chunks := st.chunks ++ [(data, n)] })
          else if terminated = false then
            match (s.putStream c st).consumed lib c n with
            | (none, s) => .go credit s
            | (some _, s) => .raised s
          else .go credit (s.putStream c st)
  | .responseReceived streamId headers =>
      match (s.streams.get? streamId).bind fun c => (s.streamOf c).map (c, ·) with
      | none => .go credit s
      | some (c, st) => .go credit (s.putStream c { st with headers := some headers })
  | .streamEnded streamId =>
      match (s.streams.get? streamId).bind fun c => (s.streamOf c).map (c, ·) with
      | none => .go credit s
      | some (c, st) => .go credit (s.putStream c { st with ended := true })
  | .streamReset streamId _ =>
      match (s.streams.get? streamId).bind fun c => (s.streamOf c).map (c, ·) with
      | none => .go credit s
      | some (c, st) =>
          .go credit (s.putStream c { st with error := some .remoteProtocolError }).set
  | .other _ => .go credit s

/-- The loop over the events of a batch. -/
def handleAll (terminated : Bool) : List H2Event → ℕ → Connection η → Outcome η
  | [], credit, s => .go credit s
  | e :: es, credit, s =>
      match s.handle lib terminated credit e with
      | .go credit s => handleAll terminated es credit s
      | .raised s => .raised s

/-- The reader ends with an exception. -/
def stop (error : Failure) (s : Connection η) : Connection η :=
  { s with reader := .stopped }.fail error

/-- The reader is behind a batch, or its `drain`. -/
def next (s : Connection η) : Connection η :=
  { s with reader := if s.error = none then .reading else .stopped }

/-- The reader behind the loop over a batch: the bytes of the batch are returned to the peer. -/
def settle (credit : ℕ) (s : Connection η) : Connection η :=
  let finish (s : Connection η) : Connection η :=
    match s.flush lib with
    | (true, s) => { s with reader := .draining }
    | (false, s) => s.next
  if credit = 0 then finish s
  else
    match lib.incrementFlowControlWindow credit none s.h2 with
    | (none, h2) => finish { s with h2 }
    | (some _, h2) => { s with h2 }.stop .remoteProtocolError

/-- `read_loop`, from the bytes that it has read to its next suspension. -/
def receive (data : List UInt8) (s : Connection η) : Connection η :=
  if data = [] then s.stop .readError
  else
    match lib.receiveData data s.h2 with
    | (none, h2) => { s with h2 }.stop .remoteProtocolError
    | (some events, h2) =>
        match handleAll lib (decide (.connectionTerminated ∈ events)) events 0 { s with h2 } with
        | .go credit s => s.settle lib credit
        | .raised s => s.stop .remoteProtocolError

/-! ## The requests -/

/-- The rest of `drain` when it does not end well: the connection fails. -/
def drainFailed : Drained → Option Failure
  | .ok => none
  | .timeout => some .writeTimeout
  | .osError => some .writeError

/-- The frames of a batch of `count` bytes. -/
def sendFrames (streamId size : ℕ) : ℕ → ℕ → η → Option Refused × η
  | 0, _, h => (none, h)
  | fuel + 1, count, h =>
      if count = 0 then (none, h)
      else
        match lib.sendData streamId (min size count) h with
        | (none, h) => sendFrames streamId size fuel (count - min size count) h
        | (some e, h) => (some e, h)

variable (cfg : Config)

/-- One turn of the loop of `reserve`, and behind it the headers of the request. -/
def reserveTurn (c : ℕ) (r : Request) (s : Connection η) : Connection η :=
  let s := s.clear
  if s.error ≠ none then s.goto c .failed
  else if s.settingsReceived = true ∧
      s.streams.size < min cfg.maxStreams (lib.maxConcurrentStreams s.h2) then
    match lib.getNextAvailableStreamId s.h2 with
    | none => s.goto c .failed
    | some streamId =>
        let s := { s with streams := s.streams.set streamId c }.putStream c (.new streamId)
        match lib.sendHeaders streamId s.h2 with
        | (none, h2) => ({ s with h2 }.flush lib).2.goto c .fetching
        | (some _, h2) => { s with h2 }.abandon lib c
  else s.goto c (.reserving (.begin r.poolTimeout))

/-- One turn of the loop of `send_body` over a chunk of which `left` bytes are to be sent. -/
def sendTurn (c left : ℕ) (st : ResponseStream) (s : Connection η) : Connection η :=
  if left = 0 then s.goto c .fetching
  else
    let s := s.clear
    if s.error ≠ none ∨ st.error ≠ none then s.abandon lib c
    else
      match lib.localFlowControlWindow st.streamId s.h2 with
      | .error _ => s.abandon lib c
      | .ok window =>
          if window ≤ 0 then s.goto c (.blocked left (.begin cfg.writeTimeout))
          else
            let count := min (min left ioBatchSize) window.toNat
            match sendFrames lib st.streamId (lib.maxOutboundFrameSize s.h2) count count s.h2 with
            | (none, h2) => ({ s with h2 }.flush lib).2.goto c (.draining (left - count))
            | (some _, h2) => { s with h2 }.abandon lib c

/-- `end_stream`, behind the last chunk of the body. -/
def endBody (c : ℕ) (st : ResponseStream) (s : Connection η) : Connection η :=
  match lib.endStream st.streamId s.h2 with
  | (none, h2) => ({ s with h2 }.flush lib).2.goto c .finishing
  | (some _, h2) => { s with h2 }.abandon lib c

/-- The wait of `request` for the headers. -/
def respond (c : ℕ) (st : ResponseStream) (s : Connection η) : Connection η :=
  if st.error ≠ none then s.abandon lib c
  else if st.headers = none then s
  else s.goto c .responded

/-- The loop of `__aiter__`, behind a `yield` or a wait. -/
def iterate (c : ℕ) (s : Connection η) : Connection η :=
  match s.streamOf c with
  | none => s
  | some st =>
      if st.closed ∨ st.error ≠ none then s.goto c .finished
      else
        match st.chunks with
        | (_, credit) :: chunks => s.putStream c { st with chunks, handed := some credit }
        | [] => if st.ended then s.goto c .finished else s

/-- The consumer of the response of request `c` wants the next chunk. -/
def readNext (c : ℕ) (st : ResponseStream) (s : Connection η) : Connection η :=
  match st.handed with
  | none => s.iterate c
  | some credit =>
      match (s.putStream c { st with handed := none }).consumed lib c credit with
      | (none, s) => s.iterate c
      | (some _, s) => s.goto c .finished

/-- `wait()` of a stream has timed out: the connection fails when no other request is active. -/
def readTimedOut (c : ℕ) (s : Connection η) : Connection η :=
  if ∃ d ∈ s.streams.values, d ≠ c ∧ ∃ st ∈ s.streamOf d, st.ended = false then s
  else s.fail .readTimeout

/-! ## Steps -/

/-- One step. -/
def step : Event → Connection η → Option (Connection η)
  | .request poolTimeout, s =>
      some { s with requests := s.requests ++ [⟨poolTimeout, .starting, none⟩] }
  | .start c, s => (s.requests[c]?).bind fun r =>
      match r.phase with
      | .reserving .unstarted =>
          some (s.goto c (.reserving (if s.changed then .woken else .waiting)))
      | .blocked left .unstarted =>
          some (s.goto c (.blocked left (if s.changed then .woken else .waiting)))
      | _ => none
  | .turn c, s => (s.requests[c]?).bind fun r =>
      match r.phase, r.stream with
      | .starting, none => some (s.reserveTurn lib cfg c r)
      | .reserving .woken, none => some (s.reserveTurn lib cfg c r)
      | .blocked left .woken, some st => some (s.sendTurn lib cfg c left st)
      | _, _ => none
  | .timeout c, s => (s.requests[c]?).bind fun r =>
      match r.phase with
      | .reserving _ => if r.poolTimeout then some (s.goto c .failed) else none
      | .blocked _ _ => if cfg.writeTimeout then some (s.abandon lib c) else none
      | _ => none
  | .fetched c data, s => (s.requests[c]?).bind fun r =>
      match r.phase, r.stream, data with
      | .fetching, some st, some n => some (s.sendTurn lib cfg c n st)
      | .fetching, some st, none => some (s.endBody lib c st)
      | _, _, _ => none
  | .drained c outcome, s => (s.requests[c]?).bind fun r =>
      match r.phase, r.stream, drainFailed outcome with
      | .draining left, some st, none => some (s.sendTurn lib cfg c left st)
      | .finishing, _, none => some (s.goto c .awaiting)
      | .draining _, _, some e => some ((s.fail e).abandon lib c)
      | .finishing, _, some e => some ((s.fail e).abandon lib c)
      | _, _, _ => none
  | .respond c, s => (s.requests[c]?).bind fun r =>
      match r.phase, r.stream with
      | .awaiting, some st => some (s.respond lib c st)
      | _, _ => none
  | .cancel c, s => (s.requests[c]?).bind fun r =>
      match r.phase with
      | .responded => none
      | .finished => none
      | .failed => none
      | _ => some (s.abandon lib c)
  | .read c, s => (s.requests[c]?).bind fun r =>
      match r.phase, r.stream with
      | .responded, some st => some (s.readNext lib c st)
      | _, _ => none
  | .readTimeout c, s => (s.requests[c]?).bind fun r =>
      match r.phase, r.stream with
      | .awaiting, some _ => some ((s.readTimedOut c).abandon lib c)
      | .responded, some st =>
          if st.handed = none then some ((s.readTimedOut c).goto c .finished) else none
      | _, _ => none
  | .closeResponse c, s => (s.requests[c]?).bind fun r =>
      match r.phase with
      | .responded => some (s.acloseStream lib c)
      | .finished => some (s.acloseStream lib c)
      | _ => none
  | .receive data, s => if s.reader = .reading then some (s.receive lib data) else none
  | .readerDrained outcome, s =>
      if s.reader = .draining then
        match drainFailed outcome with
        | none => some s.next
        | some e => some (s.stop e)
      else none
  | .aclose, s => some (s.stop .readError)

end Library

end Connection

/-- A connection that has just been made. -/
def Starting (m : H2Library.Meaning η) (s : Connection η) : Prop :=
  m.alive s.h2 ∧ s.streams = .empty ∧ s.changed = false ∧ s.settingsReceived = false ∧
    s.error = none ∧ s.reader = .reading ∧ s.requests = []

end TgWsProxy.H2Transport
