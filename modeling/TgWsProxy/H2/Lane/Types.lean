import TgWsProxy.Core.Dict
import TgWsProxy.H2.EncodeReply
import Mathlib.Data.Finset.Basic

/-!
# Lanes and channels

The records of `proxy/cf_h2.py`: a lane is one HTTP/2 connection that several channels share, a
channel carries the packets of one native client.

* `ReplayPacket`, `Channel`, `Lane` — the fields the code decides by; counters and texts that only
  reach a log line are left out.
* `Failure` — what a request can fail with.
* `Mark` — the events of a channel's history, recorded beside the fields.

A time is an integer, in nanoseconds of the monotonic clock.  A task or a channel is a natural
number, in the order of creation. -/

namespace TgWsProxy

open Wire

/-! ## Constants -/

def maxChannelRequests : ℕ := 8
def maxChannelBytes : ℕ := 8 * 1024 * 1024
def maxLaneRequests : ℕ := 64
def maxLaneBytes : ℕ := 32 * 1024 * 1024
def maxLaneReplyBytes : ℕ := 32 * 1024 * 1024
def replayIdleSeconds : ℤ := 1000000000
def replayRequestSeconds : ℤ := 3000000000
def replayMaxAge : ℤ := 30000000000
def replayHistoryBytes : ℕ := 64 * 1024
def replayHistoryPackets : ℕ := 16
def maxChannelReplays : ℕ := 2
def replaySlotSeconds : ℤ := 30000000000
def replayRetrySeconds : ℤ := 2000000000
def replayMaxAttempts : ℕ := 3

/-- The bound of a channel's reply queue. -/
def queueSize : ℕ := 16

/-! ## Failures -/

/-- The exceptions of a request. -/
inductive Failure
  | transport (code : ℤ)
  | replyBufferFull (text : String)
  | buffer (text : String)
  | value (text : String)
  | connection (text : String)
  | http
  | unexpected
  deriving DecidableEq, Repr

/-- An item of the reply queue. -/
inductive QueueItem
  | reply (body : Bytes)
  | error (failure : Failure)
  deriving DecidableEq, Repr

/-- The octets of the reply in an item. -/
def QueueItem.size : QueueItem → ℕ
  | .reply body => body.length
  | .error _ => 0

/-! ## Records -/

/-- `_ReplayPacket`.  The number of the request that first carried it tells packets apart. -/
structure ReplayPacket where
  sentAt : ℤ
  body : Bytes
  sequence : ℕ
  attempts : ℕ := 0
  lastAttemptAt : ℤ := 0
  pending : Option ℕ := none
  originals : Finset ℕ := ∅
  retired : Bool := false
  replyId : Option Bytes := none
  deriving DecidableEq

/-- `replayed`. -/
def ReplayPacket.Replayed (entry : ReplayPacket) : Prop :=
  0 < entry.lastAttemptAt ∨ 0 < entry.attempts

instance (entry : ReplayPacket) : Decidable entry.Replayed :=
  inferInstanceAs (Decidable (_ ∨ _))

/-- What the native upload waits for. -/
inductive UploadWaitPhase
  | idle
  | sendLock
  | channelCapacity
  | laneCapacity
  deriving DecidableEq, Repr

/-- `_HttpChannel`.  A lock is its holder. -/
structure Channel where
  closed : Bool := false
  transportError : Option ℤ := none
  pending : Dict ℕ ℕ := .empty
  pendingSince : Dict ℕ ℤ := .empty
  sentSince : Dict ℕ ℤ := .empty
  pendingBytes : ℤ := 0
  replyBytes : ℤ := 0
  queue : List QueueItem := []
  capacity : Option ℕ := none
  recoveryWakeup : Bool := false
  requests : ℕ := 0
  receivingTasks : Finset ℕ := ∅
  deliveringSince : Option ℤ := none
  replayPending : Finset ℕ := ∅
  replayHistory : List ReplayPacket := []
  replayKey : Option Bytes := none
  lastProgress : ℤ := 0
  closeLock : Option ℕ := none
  sendLock : Option ℕ := none
  closeDone : Bool := false
  requestTraces : Finset ℕ := ∅
  uploadWaitSince : Option ℤ := none
  uploadWaitPhase : UploadWaitPhase := .idle
  uploadWaitBytes : ℕ := 0

/-- `_HttpLane`. -/
structure Lane where
  closed : Bool := false
  channels : Finset ℕ := ∅
  inflight : ℤ := 0
  queuedBytes : ℤ := 0
  replyBufferBytes : ℤ := 0
  capacity : Option ℕ := none

/-- `_has_capacity(length)` of a lane. -/
def Lane.HasCapacity (lane : Lane) (length : ℕ) : Prop :=
  lane.inflight < maxLaneRequests ∧ lane.queuedBytes + length ≤ maxLaneBytes

instance (lane : Lane) (length : ℕ) : Decidable (lane.HasCapacity length) :=
  inferInstanceAs (Decidable (_ ∧ _))

/-- The native side of a channel: the transport tag, the cipher towards the client as it was handed
over and as it is now, the octets handed to the writer, and the first of the tasks of `bridge_h2`.
-/
structure Native where
  tag : Bytes
  given : Cipher
  cltEnc : Cipher
  wire : Bytes := []
  first : ℕ

/-! ## Histories -/

/-- What happens on a channel, for the record. -/
inductive Mark
  /-- A native request was created. -/
  | native (time : ℤ) (body : Bytes) (task : ℕ)
  /-- A replay of the packet `sequence` was created. -/
  | replay (time : ℤ) (sequence : ℕ) (body : Bytes) (task : ℕ)
  /-- A request completed with a reply that is not empty. -/
  | reply (packet : Option ℕ) (body : Bytes)
  /-- `_fail` was called. -/
  | failed (failure : Failure)
  /-- A reply was taken off the queue and its frame handed to the writer. -/
  | wrote (body frame : Bytes)
  /-- The frame of a transport error was handed to the writer. -/
  | wroteError (code : ℤ) (frame : Bytes)
  deriving DecidableEq, Repr

end TgWsProxy
