import RemoteFs.Cas.Error
import RemoteFs.Library.Transition

/-!
# Streaming a file to ByteStream.Write

A large file is uploaded by two parties. The producer task reads the file and
queues one `WriteRequest` for each chunk and a last one that finishes the write,
through a channel with room for two requests. The RPC consumes the queue; the
server may answer or fail at any time, and the transport then drops the
receiving end of the channel, after which queueing a request fails.

The caller waits for the response and then for the producer, and reports the
error of the producer first. `FileWrite.step` has one action for each thing
either party or the transport does, so a run is an interleaving of them.
-/

namespace RemoteFs

namespace Cas

structure WriteRequest where
  resourceName : String
  writeOffset : ℕ
  finishWrite : Bool
  data : Bytes
  deriving DecidableEq

/-- How the server terminates the RPC: with a committed size, or a status. -/
abbrev WriteOutcome := Except Status Int64

def bytestreamWriteStatus (resourceName : String) (status : Status) : Status where
  code := status.code
  message :=
    s!"send ByteStream write request for resource {resourceName}: {status.message}"

def bytestreamCommittedSizeError (committedSize : Int64) (digest : Digest) : Option Status :=
  if committedSize ≠ Int64.ofNat digest.sizeBytes then
    some (.dataLoss s!"committed {committedSize} bytes for {digest.display}")
  else none

/-- What the caller makes of the outcome of the RPC. -/
def writeResult (resourceName : String) (digest : Digest) (outcome : WriteOutcome) :
    Except Status Int64 := do
  let committedSize ← outcome.mapError (bytestreamWriteStatus resourceName)
  match bytestreamCommittedSizeError committedSize digest with
  | some status => .error status
  | none => .ok committedSize

/-- The write of bytes in memory. Its only request is queued before the RPC
starts, so it has no failure of its own. -/
def sendBytestreamBytesWrite (resourceName : String) (digest : Digest)
    (outcome : WriteOutcome) : Except Status Int64 :=
  writeResult resourceName digest outcome

inductive Producer where
  | opening
  | reading (reads : List (Except IoError Bytes)) (offset : ℕ)
  | sending (request : WriteRequest) (reads : List (Except IoError Bytes)) (offset : ℕ)
  | done (result : Except Status Unit)

structure FileSource where
  resourceName : String
  path : PathBuf
  reads : Reads

/-- The two parties and the channel between them. What was sent is what was ever queued, also
when the transport drops it. -/
structure FileWrite where
  producer : Producer
  queue : List WriteRequest
  consumed : List WriteRequest
  sent : List WriteRequest
  response : Option WriteOutcome
  receiverDropped : Bool

namespace FileWrite

def channelCapacity : ℕ := 2

def start : FileWrite where
  producer := .opening
  queue := []
  consumed := []
  sent := []
  response := none
  receiverDropped := false

inductive Action where
  | openFile
  | read
  | send
  | consume
  | terminate (outcome : WriteOutcome)
  | dropReceiver

/-- The request for a chunk; an empty chunk finishes the write. -/
def request (source : FileSource) (chunk : Bytes) (offset : ℕ) : WriteRequest where
  resourceName := source.resourceName
  writeOffset := offset
  finishWrite := chunk.length = 0
  data := chunk

def opened (source : FileSource) : Producer :=
  match source.reads with
  | .error error => .done (.error (.internal s!"open {source.path.display}: {error}"))
  | .ok reads => .reading reads 0

def afterRead (source : FileSource) (reads : List (Except IoError Bytes)) (offset : ℕ) :
    Producer :=
  match reads with
  | [] => .sending (request source [] offset) [] offset
  | .ok chunk :: reads => .sending (request source chunk offset) reads offset
  | .error error :: _ =>
      .done (.error (.internal s!"read {source.path.display}: {error}"))

def afterSend (request : WriteRequest) (reads : List (Except IoError Bytes)) (offset : ℕ) :
    Producer :=
  if request.finishWrite then .done (.ok ()) else .reading reads (offset + request.data.length)

def queueFailure : Status :=
  .internal "failed to queue ByteStream file write request"

/-- One step of the producer, the RPC or the transport. Queueing waits while
the channel is full, and fails once the receiver is gone. -/
def step (source : FileSource) (s : FileWrite) : Action → Option FileWrite
  | .openFile =>
      match s.producer with
      | .opening => some { s with producer := opened source }
      | _ => none
  | .read =>
      match s.producer with
      | .reading reads offset => some { s with producer := afterRead source reads offset }
      | _ => none
  | .send =>
      match s.producer with
      | .sending request reads offset =>
          if s.receiverDropped then some { s with producer := .done (.error queueFailure) }
          else if s.queue.length < channelCapacity then
            some
              { s with
                producer := afterSend request reads offset
                queue := s.queue ++ [request]
                sent := s.sent ++ [request] }
          else none
      | _ => none
  | .consume =>
      match s.response, s.queue with
      | none, request :: queue =>
          some { s with queue := queue, consumed := s.consumed ++ [request] }
      | _, _ => none
  | .terminate outcome =>
      match s.response with
      | none => some { s with response := some outcome }
      | some _ => none
  | .dropReceiver =>
      if s.response.isSome ∧ s.receiverDropped = false then
        some { s with receiverDropped := true, queue := [] }
      else none

inductive Steps (source : FileSource) (s : FileWrite) : Action → FileWrite → Prop
  | openFile (hproducer : s.producer = .opening) :
      Steps source s .openFile { s with producer := opened source }
  | read {reads : List (Except IoError Bytes)} {offset : ℕ}
      (hproducer : s.producer = .reading reads offset) :
      Steps source s .read { s with producer := afterRead source reads offset }
  | sendFailed {request : WriteRequest} {reads : List (Except IoError Bytes)} {offset : ℕ}
      (hproducer : s.producer = .sending request reads offset)
      (hdropped : s.receiverDropped = true) :
      Steps source s .send { s with producer := .done (.error queueFailure) }
  | send {request : WriteRequest} {reads : List (Except IoError Bytes)} {offset : ℕ}
      (hproducer : s.producer = .sending request reads offset)
      (hreceiver : s.receiverDropped = false) (hroom : s.queue.length < channelCapacity) :
      Steps source s .send
        { s with
          producer := afterSend request reads offset
          queue := s.queue ++ [request]
          sent := s.sent ++ [request] }
  | consume {request : WriteRequest} {queue : List WriteRequest}
      (hresponse : s.response = none) (hqueue : s.queue = request :: queue) :
      Steps source s .consume
        { s with queue := queue, consumed := s.consumed ++ [request] }
  | terminate (outcome : WriteOutcome) (hresponse : s.response = none) :
      Steps source s (.terminate outcome) { s with response := some outcome }
  | dropReceiver (hended : s.response.isSome = true) (hreceiver : s.receiverDropped = false) :
      Steps source s .dropReceiver { s with receiverDropped := true, queue := [] }

theorem steps_of_step {source : FileSource} {s s' : FileWrite} {action : Action}
    (h : step source s action = some s') : Steps source s action s' := by
  cases action with
  | openFile =>
      rw [step] at h
      split at h
      · next hproducer =>
          cases h
          exact .openFile hproducer
      · cases h
  | read =>
      rw [step] at h
      split at h
      · next hproducer =>
          cases h
          exact .read hproducer
      · cases h
  | send =>
      rw [step] at h
      split at h
      · next hproducer =>
          split at h
          · next hdropped =>
              cases h
              exact .sendFailed hproducer hdropped
          · next hreceiver =>
              split at h
              · next hroom =>
                  cases h
                  exact .send hproducer (Bool.eq_false_iff.mpr hreceiver) hroom
              · cases h
      · cases h
  | consume =>
      rw [step] at h
      split at h
      · next hresponse hqueue =>
          cases h
          exact .consume hresponse hqueue
      · cases h
  | terminate outcome =>
      rw [step] at h
      split at h
      · next hresponse =>
          cases h
          exact .terminate outcome hresponse
      · cases h
  | dropReceiver =>
      rw [step] at h
      split at h
      · next hended =>
          cases h
          exact .dropReceiver hended.1 hended.2
      · cases h

/-- What `send_bytestream_file_write` returns, once the RPC has ended and the
producer is done. -/
def returned (source : FileSource) (digest : Digest) (s : FileWrite) :
    Option (Except Status Int64) :=
  match s.response, s.producer with
  | some outcome, .done result =>
      some (do
        result
        writeResult source.resourceName digest outcome)
  | _, _ => none

end FileWrite

end Cas

end RemoteFs
