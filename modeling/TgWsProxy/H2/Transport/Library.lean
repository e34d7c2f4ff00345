import Mathlib

/-!
# What the transport uses of the HTTP/2 library

`proxy/h2_transport.py` runs on an HTTP/2 library that is not part of the program.  It is a
parameter here: its operations, over any type of connection states, and what its documentation
promises of them.

* `H2Event` — the events of a batch of received bytes.
* `H2Library` — the operations.
* `Calm` — what an operation of this side leaves alone.
* `Lawful` — the promises.
-/

namespace TgWsProxy.H2Transport

/-- The events that `receive_data` reports. -/
inductive H2Event
  | remoteSettingsChanged
  | windowUpdated (streamId : ℕ)
  | connectionTerminated
  | dataReceived (streamId : ℕ) (data : List UInt8) (flowControlledLength : ℕ)
  | responseReceived (streamId : ℕ) (headers : List (List UInt8 × List UInt8))
  | streamEnded (streamId : ℕ)
  | streamReset (streamId errorCode : ℕ)
  | other (streamId : Option ℕ)
  deriving DecidableEq, Repr

/-- The flow-controlled bytes of an event: on the connection, or on one stream. -/
def H2Event.flow (i : Option ℕ) : H2Event → ℕ
  | .dataReceived j _ n => if i = none ∨ i = some j then n else 0
  | _ => 0

/-- The event closes the receiving side of stream `j`. -/
def H2Event.Closes (j : ℕ) (e : H2Event) : Prop :=
  e = .streamEnded j ∨ ∃ code, e = .streamReset j code

/-- After the event stream `j` is not open, or the connection is not. -/
def H2Event.Dooms (j : ℕ) (e : H2Event) : Prop := e.Closes j ∨ e = .connectionTerminated

/-- The flow-controlled bytes of a batch. -/
def flow (i : Option ℕ) (events : List H2Event) : ℕ := (events.map (H2Event.flow i)).sum

/-- How an operation refuses: `StreamClosedError`, or another exception. -/
inductive Refused
  | streamClosed
  | other
  deriving DecidableEq, Repr

/-- The operations of the library on a connection state; those that can raise say whether they did,
and leave a state either way. -/
structure H2Library (η : Type*) where
  receiveData : List UInt8 → η → Option (List H2Event) × η
  dataToSend : η → List UInt8 × η
  incrementFlowControlWindow : ℕ → Option ℕ → η → Option Refused × η
  maxConcurrentStreams : η → ℕ
  getNextAvailableStreamId : η → Option ℕ
  sendHeaders : ℕ → η → Option Refused × η
  localFlowControlWindow : ℕ → η → Except Refused ℤ
  maxOutboundFrameSize : η → ℕ
  sendData : ℕ → ℕ → η → Option Refused × η
  endStream : ℕ → η → Option Refused × η
  resetStream : ℕ → η → Option Refused × η

variable {η : Type*}

namespace H2Library

/-- Data may be sent on stream `j`. -/
def Positive (lib : H2Library η) (h : η) (j : ℕ) : Prop :=
  ∃ w, lib.localFlowControlWindow j h = .ok w ∧ 0 < w

/-- What a state of the library means: the connection has not been terminated; a stream has been
opened by this side; the peer may still send on it; how many flow-controlled bytes have come in, on
the connection or on a stream, that have not been returned to the peer; and how many have been. -/
structure Meaning (η : Type*) where
  alive : η → Prop
  opened : η → ℕ → Prop
  receiving : η → ℕ → Prop
  owed : η → Option ℕ → ℕ
  returned : η → Option ℕ → ℕ

/-- No stream. -/
def noStream (_ : ℕ) : Prop := False

/-- Neither on the connection nor on a stream. -/
def nowhere (_ : Option ℕ) : Prop := False

lemma not_noStream (j : ℕ) : ¬ noStream j := id

lemma not_nowhere (i : Option ℕ) : ¬ nowhere i := id

/-- An operation of this side: it gives nobody room to send, and closes at most the receiving side
of the stream `closes`, and returns bytes at most on `returns`. -/
structure Calm (lib : H2Library η) (m : Meaning η) (closes : ℕ → Prop) (returns : Option ℕ → Prop)
    (h h' : η) : Prop where
  alive : m.alive h → m.alive h'
  opened : ∀ j, m.opened h j → m.opened h' j
  receiving : ∀ j, ¬ closes j → m.receiving h j → m.receiving h' j
  owed : ∀ i, ¬ returns i → m.owed h i ≤ m.owed h' i
  returned : ∀ i, ¬ returns i → m.returned h' i = m.returned h i
  window : ∀ j, m.opened h j → lib.Positive h' j → lib.Positive h j
  slots : lib.maxConcurrentStreams h' ≤ lib.maxConcurrentStreams h

/-- The promises of the library. -/
structure Lawful (lib : H2Library η) (m : Meaning η) : Prop where
  data_to_send : ∀ h, lib.Calm m noStream nowhere h (lib.dataToSend h).2
  send_headers : ∀ j h, lib.Calm m noStream nowhere h (lib.sendHeaders j h).2
  send_data : ∀ j n h, lib.Calm m noStream nowhere h (lib.sendData j n h).2
  end_stream : ∀ j h, lib.Calm m noStream nowhere h (lib.endStream j h).2
  reset_stream : ∀ j h, lib.Calm m (· = j) nowhere h (lib.resetStream j h).2
  /-- A stream identifier is not handed out again once the stream is open. -/
  fresh : ∀ h j, lib.getNextAvailableStreamId h = some j → ¬ m.opened h j
  opens : ∀ h j, lib.getNextAvailableStreamId h = some j → (lib.sendHeaders j h).1 = none →
    m.opened (lib.sendHeaders j h).2 j ∧ m.receiving (lib.sendHeaders j h).2 j
  /-- Nothing is returned on a stream before it is open. -/
  fresh_returned : ∀ h j, ¬ m.opened h j → m.returned h (some j) = 0
  reset_opened : ∀ h j, m.alive h → m.opened h j → (lib.resetStream j h).1 ≠ some .other
  /-- Bytes that have come in can be returned, unless the stream is closed. -/
  increment : ∀ n i h, lib.Calm m noStream (· = i) h (lib.incrementFlowControlWindow n i h).2
  increment_owed : ∀ n i h, m.owed h i ≤ m.owed (lib.incrementFlowControlWindow n i h).2 i +
    if (lib.incrementFlowControlWindow n i h).1 = none then n else 0
  increment_returned : ∀ n i h, m.returned (lib.incrementFlowControlWindow n i h).2 i =
    m.returned h i + if (lib.incrementFlowControlWindow n i h).1 = none then n else 0
  increment_connection : ∀ h n, m.alive h → 0 < n → n ≤ m.owed h none →
    (lib.incrementFlowControlWindow n none h).1 = none
  increment_receiving : ∀ h n j, m.alive h → 0 < n → n ≤ m.owed h (some j) → m.receiving h j →
    (lib.incrementFlowControlWindow n (some j) h).1 = none
  /-- A stream is closed to the peer by an event that says so. -/
  receive_alive : ∀ d h es h', lib.receiveData d h = (some es, h') → m.alive h →
    .connectionTerminated ∉ es → m.alive h'
  receive_receiving : ∀ d h es h', lib.receiveData d h = (some es, h') → m.alive h →
    .connectionTerminated ∉ es → ∀ j, m.receiving h j → (∀ e ∈ es, ¬ e.Closes j) →
      m.receiving h' j
  receive_opened : ∀ d h j, m.opened h j → m.opened (lib.receiveData d h).2 j
  /-- The payload of a frame is flow-controlled, and so is its padding. -/
  receive_data : ∀ d h es h', lib.receiveData d h = (some es, h') → ∀ j data n,
    .dataReceived j data n ∈ es → data.length ≤ n
  receive_owed : ∀ d h es h', lib.receiveData d h = (some es, h') → ∀ i,
    m.owed h i + flow i es ≤ m.owed h' i
  receive_returned : ∀ d h i, m.returned (lib.receiveData d h).2 i = m.returned h i
  /-- Room to send comes with an event that says so. -/
  receive_window : ∀ d h es h', lib.receiveData d h = (some es, h') →
    .remoteSettingsChanged ∉ es → (∀ j, .windowUpdated j ∉ es) →
      ∀ j, m.opened h j → lib.Positive h' j → lib.Positive h j
  receive_slots : ∀ d h es h', lib.receiveData d h = (some es, h') →
    .remoteSettingsChanged ∉ es → lib.maxConcurrentStreams h' ≤ lib.maxConcurrentStreams h

end H2Library

end TgWsProxy.H2Transport
