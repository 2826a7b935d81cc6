import RemoteFs.Cas.FileWrite
import Mathlib.Data.List.Basic

/-!
# The request stream of a write

`FileSource.stream` is what `send_bytestream_file_requests` amounts to while its
receiver keeps consuming: the requests it queues, in order, and what it returns.
In every interleaving of the producer with such a receiver, what was queued so far
followed by what the producer will still queue is this stream, and each action brings
the end nearer; an interleaving that cannot go on has delivered the whole stream.

For a file that is read without errors the stream is well formed, however the
operating system splits its content.
-/

namespace RemoteFs

namespace Cas

def bytestreamUploadChunkBytes : ℕ := 1024 * 1024

/-- What a receiver expects of the requests that write a content to a resource. -/
structure WellFormedStream (resourceName : String) (content : Bytes)
    (requests : List WriteRequest) : Prop where
  resourceName_eq : ∀ request ∈ requests, request.resourceName = resourceName
  writeOffset_eq : ∀ (before : List WriteRequest) (request : WriteRequest)
      (after : List WriteRequest), requests = before ++ request :: after →
    request.writeOffset = (before.map fun earlier => earlier.data.length).sum
  data_eq : requests.flatMap WriteRequest.data = content
  data_length_le : ∀ request ∈ requests, request.data.length ≤ bytestreamUploadChunkBytes
  finish_last : ∃ (before : List WriteRequest) (last : WriteRequest),
    requests = before ++ [last] ∧ last.finishWrite = true ∧
    last.writeOffset = content.length ∧ ∀ request ∈ before, request.finishWrite = false

namespace FileWrite

/-- The requests queued from an offset on, and what the producer then returns. -/
def fileStream (source : FileSource) :
    ℕ → List (Except IoError Bytes) → List WriteRequest × Except Status Unit
  | offset, [] => ([request source [] offset], .ok ())
  | offset, .ok chunk :: reads =>
      if chunk.length = 0 then ([request source chunk offset], .ok ())
      else
        let (requests, result) := fileStream source (offset + chunk.length) reads
        (request source chunk offset :: requests, result)
  | _, .error error :: _ => ([], .error (.internal s!"read {source.path.display}: {error}"))

/-- The requests queued for a file, and what the producer returns. -/
def stream (source : FileSource) : List WriteRequest × Except Status Unit :=
  match source.reads with
  | .error error => ([], .error (.internal s!"open {source.path.display}: {error}"))
  | .ok reads => fileStream source 0 reads

def remaining (source : FileSource) : Producer → List WriteRequest × Except Status Unit
  | .opening => stream source
  | .reading reads offset => fileStream source offset reads
  | .sending request reads offset =>
      if request.finishWrite then ([request], .ok ())
      else
        let (requests, result) := fileStream source (offset + request.data.length) reads
        (request :: requests, result)
  | .done result => ([], result)

/-- How many actions the producer and the receiver have left at most. -/
def work (source : FileSource) (s : FileWrite) : ℕ :=
  s.queue.length +
    match s.producer with
    | .opening =>
        match source.reads with
        | .error _ => 1
        | .ok reads => 3 * (reads.length + 1) + 1
    | .reading reads _ => 3 * (reads.length + 1)
    | .sending request reads _ =>
        if request.finishWrite then 2 else 3 * (reads.length + 1) + 2
    | .done _ => 0

/-- The actions of the producer and of a receiver that keeps consuming. -/
inductive Action.Exchange : Action → Prop
  | openFile : Exchange .openFile
  | read : Exchange .read
  | send : Exchange .send
  | consume : Exchange .consume

section Exchange

variable (source : FileSource)

theorem remaining_opened : remaining source (opened source) = stream source := by
  unfold opened stream
  cases source.reads with
  | error error => rfl
  | ok reads => rfl

theorem remaining_afterRead (reads : List (Except IoError Bytes)) (offset : ℕ) :
    remaining source (afterRead source reads offset) = fileStream source offset reads := by
  cases reads with
  | nil => rfl
  | cons first reads =>
      cases first with
      | error error => rfl
      | ok chunk =>
          by_cases hempty : chunk.length = 0
          · simp [remaining, afterRead, fileStream, request, hempty]
          · simp [remaining, afterRead, fileStream, request, hempty]

theorem remaining_sending (request : WriteRequest) (reads : List (Except IoError Bytes))
    (offset : ℕ) :
    remaining source (.sending request reads offset) =
      (request :: (remaining source (afterSend request reads offset)).1,
        (remaining source (afterSend request reads offset)).2) := by
  by_cases hfinish : request.finishWrite = true
  · simp [remaining, afterSend, hfinish]
  · simp [remaining, afterSend, hfinish]

/-- Nothing was lost: what was sent, followed by what remains, is the stream of the file. -/
structure Delivering (s : FileWrite) : Prop where
  requests : s.sent ++ (remaining source s.producer).1 = (stream source).1
  result : (remaining source s.producer).2 = (stream source).2

/-- What every run keeps. While the receiver stays, what was sent is what it has consumed or
finds in the queue. -/
structure Sending (s : FileWrite) : Prop where
  kept : s.receiverDropped = false → s.consumed ++ s.queue = s.sent
  delivering : Delivering source s ∨
    (s.receiverDropped = true ∧ s.producer = .done (.error queueFailure) ∧
      s.sent <+: (stream source).1)

theorem sending_start : Sending source start where
  kept := fun _ => rfl
  delivering := .inl ⟨rfl, rfl⟩

/-- An action loses nothing, unless the producer finds the receiver gone. -/
theorem delivering_step {s s' : FileWrite} {action : Action} (h : Delivering source s)
    (hsteps : Steps source s action s') :
    Delivering source s' ∨ (s'.receiverDropped = true ∧
      s'.producer = .done (.error queueFailure) ∧ s'.sent <+: (stream source).1) := by
  obtain ⟨hrequests, hresult⟩ := h
  cases hsteps with
  | openFile hproducer =>
      rw [hproducer] at hrequests hresult
      refine .inl ⟨?_, ?_⟩
      · rw [remaining_opened]
        exact hrequests
      · rw [remaining_opened]
  | read hproducer =>
      rw [hproducer] at hrequests hresult
      refine .inl ⟨?_, ?_⟩
      · rw [remaining_afterRead]
        exact hrequests
      · rw [remaining_afterRead]
        exact hresult
  | sendFailed hproducer hdropped => exact .inr ⟨hdropped, rfl, _, hrequests⟩
  | send hproducer hkept hroom =>
      rw [hproducer, remaining_sending] at hrequests hresult
      refine .inl ⟨?_, hresult⟩
      dsimp only
      rw [List.append_assoc, List.singleton_append]
      exact hrequests
  | consume hresponse hqueue => exact .inl ⟨hrequests, hresult⟩
  | terminate outcome hresponse => exact .inl ⟨hrequests, hresult⟩
  | dropReceiver hended hkept => exact .inl ⟨hrequests, hresult⟩

theorem kept_step {s s' : FileWrite} {action : Action}
    (h : s.receiverDropped = false → s.consumed ++ s.queue = s.sent)
    (hsteps : Steps source s action s') (hreceiver : s'.receiverDropped = false) :
    s'.consumed ++ s'.queue = s'.sent := by
  cases hsteps with
  | send hproducer hkept hroom =>
      dsimp only
      rw [← List.append_assoc, h hkept]
  | consume hresponse hqueue =>
      have hsent := h hreceiver
      rw [hqueue] at hsent
      dsimp only
      rw [← hsent, List.append_assoc, List.singleton_append]
  | dropReceiver hended hkept => cases hreceiver
  | openFile | read | sendFailed | terminate => exact h hreceiver

theorem sending_step (s : FileWrite) (action : Action) (s' : FileWrite) (h : Sending source s)
    (hstep : step source s action = some s') : Sending source s' := by
  have hsteps := steps_of_step hstep
  refine ⟨kept_step source h.kept hsteps, ?_⟩
  obtain hdelivering | ⟨hdropped, hdone, hsent⟩ := h.delivering
  · exact delivering_step source hdelivering hsteps
  · -- a producer that has failed acts no more
    refine .inr ?_
    cases hsteps with
    | openFile hproducer | read hproducer | sendFailed hproducer | send hproducer =>
        rw [hdone] at hproducer
        cases hproducer
    | consume hresponse hqueue => exact ⟨hdropped, hdone, hsent⟩
    | terminate outcome hresponse => exact ⟨hdropped, hdone, hsent⟩
    | dropReceiver hended hkept => exact ⟨rfl, hdone, hsent⟩

theorem sending_of_run {actions : List Action} {s : FileWrite}
    (hrun : Transition.run (step source) start actions = some s) : Sending source s :=
  Transition.run_invariant (sending_step source) actions start s (sending_start source) hrun

variable {source} in
theorem Sending.sent_isPrefix {s : FileWrite} (h : Sending source s) :
    s.sent <+: (stream source).1 := by
  obtain hdelivering | ⟨-, -, hsent⟩ := h.delivering
  · exact ⟨_, hdelivering.requests⟩
  · exact hsent

variable {source} in
theorem Sending.sent_of_done {s : FileWrite} (h : Sending source s)
    (hdone : s.producer = .done (.ok ())) :
    s.sent = (stream source).1 := by
  obtain ⟨hrequests, -⟩ | ⟨-, hfailed, -⟩ := h.delivering
  · rw [hdone, remaining, List.append_nil] at hrequests
    exact hrequests
  · rw [hdone] at hfailed
    cases hfailed

variable {source} in
theorem Sending.delivering_of_kept {s : FileWrite} (h : Sending source s)
    (hreceiver : s.receiverDropped = false) : Delivering source s := by
  obtain hdelivering | ⟨hdropped, -, -⟩ := h.delivering
  · exact hdelivering
  · rw [hreceiver] at hdropped
    cases hdropped

theorem work_step (s s' : FileWrite) (action : Action) (haction : action.Exchange)
    (hreceiver : s.receiverDropped = false) (hstep : step source s action = some s') :
    work source s' + 1 ≤ work source s ∧ s'.response = s.response ∧
      s'.receiverDropped = false := by
  cases steps_of_step hstep with
  | openFile hproducer =>
      refine ⟨?_, rfl, hreceiver⟩
      unfold work opened
      rw [hproducer]
      cases source.reads with
      | error error => simp
      | ok reads =>
          dsimp only
          omega
  | read hproducer =>
      refine ⟨?_, rfl, hreceiver⟩
      unfold work
      rw [hproducer]
      next reads offset =>
        cases reads with
        | nil => simp [afterRead, request]
        | cons first reads =>
            cases first with
            | error error =>
                simp [afterRead]
                omega
            | ok chunk =>
                simp only [afterRead, List.length_cons]
                split <;> omega
  | sendFailed hproducer hdropped =>
      rw [hdropped] at hreceiver
      cases hreceiver
  | send hproducer hkept hroom =>
      next request reads offset =>
        refine ⟨?_, rfl, hreceiver⟩
        unfold work afterSend
        rw [hproducer]
        by_cases hfinish : request.finishWrite = true
        · simp [hfinish]
        · simp [hfinish]
          omega
  | consume hresponse hqueue =>
      refine ⟨?_, rfl, hreceiver⟩
      unfold work
      rw [hqueue, List.length_cons]
      dsimp only
      omega
  | terminate outcome hresponse => cases haction
  | dropReceiver hended hkept => cases haction

/-- A run of the exchange is no longer than the work at its start, and ends nothing. -/
theorem work_run (actions : List Action) (s s' : FileWrite)
    (hall : ∀ action ∈ actions, action.Exchange) (hreceiver : s.receiverDropped = false)
    (hrun : Transition.run (step source) s actions = some s') :
    actions.length + work source s' ≤ work source s ∧
      s'.response = s.response ∧ s'.receiverDropped = false := by
  induction actions generalizing s with
  | nil =>
      rw [Transition.run_nil, Option.some.injEq] at hrun
      subst hrun
      exact ⟨Nat.le_of_eq (Nat.zero_add _), rfl, hreceiver⟩
  | cons action actions ih =>
      obtain ⟨haction, hrest⟩ := List.forall_mem_cons.mp hall
      obtain ⟨t, hstep, hrun⟩ := (Transition.run_cons_eq_some_iff _ _ _ _ _).mp hrun
      obtain ⟨hwork, hresponse, hkept⟩ := work_step source s t action haction hreceiver hstep
      obtain ⟨hlength, hresponse', hkept'⟩ := ih t hrest hkept hrun
      rw [List.length_cons]
      exact ⟨by omega, hresponse'.trans hresponse, hkept'⟩

/-- The exchange only stops when the producer is done and its requests are consumed. -/
theorem finished_of_stuck (s : FileWrite) (hresponse : s.response = none)
    (hreceiver : s.receiverDropped = false)
    (hstuck : ∀ action : Action, action.Exchange → step source s action = none) :
    (∃ result, s.producer = .done result) ∧ s.queue = [] := by
  have hqueue : s.queue = [] := by
    have hconsume := hstuck .consume .consume
    rw [step, hresponse] at hconsume
    cases hqueue : s.queue with
    | nil => rfl
    | cons request queue => simp [hqueue] at hconsume
  refine ⟨?_, hqueue⟩
  cases hproducer : s.producer with
  | opening =>
      have hopen := hstuck .openFile .openFile
      simp [step, hproducer] at hopen
  | reading reads offset =>
      have hread := hstuck .read .read
      simp [step, hproducer] at hread
  | sending request reads offset =>
      have hsend := hstuck .send .send
      simp [step, hproducer, hreceiver, hqueue, channelCapacity] at hsend
  | done result => exact ⟨result, rfl⟩

/-- An exchange that cannot go on has delivered the stream, when the file can be read. -/
theorem delivered_of_stuck (actions : List Action) (s : FileWrite)
    (hresult : (stream source).2 = .ok ()) (hall : ∀ action ∈ actions, action.Exchange)
    (hrun : Transition.run (step source) start actions = some s)
    (hstuck : ∀ action : Action, action.Exchange → step source s action = none) :
    s.producer = .done (.ok ()) ∧ s.consumed = (stream source).1 ∧
      s.sent = (stream source).1 := by
  obtain ⟨-, hresponse, hreceiver⟩ := work_run source actions start s hall rfl hrun
  obtain ⟨⟨result, hproducer⟩, hqueue⟩ := finished_of_stuck source s hresponse hreceiver hstuck
  have hsending := sending_of_run source hrun
  have hdone := (hsending.delivering_of_kept hreceiver).result
  rw [hproducer, remaining, hresult] at hdone
  have hproducer' : s.producer = .done (.ok ()) := hproducer.trans (congrArg Producer.done hdone)
  have hkept := hsending.kept hreceiver
  have hsent := hsending.sent_of_done hproducer'
  rw [hqueue, List.append_nil] at hkept
  exact ⟨hproducer', hkept.trans hsent, hsent⟩

end Exchange

section WellFormed

variable (source : FileSource)

theorem fileStream_cons (offset : ℕ) (chunk : Bytes) (hchunk : 0 < chunk.length)
    (reads : List (Except IoError Bytes)) :
    fileStream source offset (.ok chunk :: reads) =
      (request source chunk offset :: (fileStream source (offset + chunk.length) reads).1,
        (fileStream source (offset + chunk.length) reads).2) := by
  rw [fileStream, if_neg (by omega)]

/-- The parts of `WellFormedStream`, for the requests from an offset on. -/
structure StreamFrom (offset : ℕ) (content : Bytes) (requests : List WriteRequest) : Prop where
  resourceName_eq : ∀ request ∈ requests, request.resourceName = source.resourceName
  writeOffset_eq : ∀ (before : List WriteRequest) (request : WriteRequest)
      (after : List WriteRequest), requests = before ++ request :: after →
    request.writeOffset = offset + (before.map fun earlier => earlier.data.length).sum
  data_eq : requests.flatMap WriteRequest.data = content
  data_length_le : ∀ request ∈ requests, request.data.length ≤ bytestreamUploadChunkBytes
  finish_last : ∃ (before : List WriteRequest) (last : WriteRequest),
    requests = before ++ [last] ∧ last.finishWrite = true ∧
    last.writeOffset = offset + content.length ∧ ∀ request ∈ before, request.finishWrite = false

theorem streamFrom_end (offset : ℕ) :
    StreamFrom source offset [] [request source [] offset] where
  resourceName_eq := by simp [request]
  writeOffset_eq := by
    intro before earlier after h
    cases before with
    | nil =>
        cases h
        rfl
    | cons first before => simp at h
  data_eq := rfl
  data_length_le := by simp [request]
  finish_last := ⟨[], request source [] offset, rfl, rfl, rfl, by simp⟩

theorem streamFrom_cons (offset : ℕ) (chunk content : Bytes) (requests : List WriteRequest)
    (hpos : 1 ≤ chunk.length) (hle : chunk.length ≤ bytestreamUploadChunkBytes)
    (h : StreamFrom source (offset + chunk.length) content requests) :
    StreamFrom source offset (chunk ++ content) (request source chunk offset :: requests) where
  resourceName_eq := List.forall_mem_cons.mpr ⟨rfl, h.resourceName_eq⟩
  writeOffset_eq := by
    intro before later after heq
    cases before with
    | nil =>
        rw [List.nil_append, List.cons.injEq] at heq
        rw [← heq.1]
        rfl
    | cons first before =>
        rw [List.cons_append, List.cons.injEq] at heq
        rw [h.writeOffset_eq before later after heq.2, ← heq.1]
        simp only [request, List.map_cons, List.sum_cons, Nat.add_assoc]
  data_eq := by
    rw [List.flatMap_cons, h.data_eq]
    rfl
  data_length_le := List.forall_mem_cons.mpr ⟨hle, h.data_length_le⟩
  finish_last := by
    obtain ⟨before, last, rfl, hfinish, hoffset, hbefore⟩ := h.finish_last
    have hmore : (request source chunk offset).finishWrite = false := by
      simp only [request, decide_eq_false_iff_not]
      omega
    refine ⟨request source chunk offset :: before, last, rfl, hfinish, ?_,
      List.forall_mem_cons.mpr ⟨hmore, hbefore⟩⟩
    rw [hoffset, List.length_append, Nat.add_assoc]

/-- Every way of reading a content in chunks gives a well-formed stream. -/
theorem streamFrom_fileStream (chunks : List Bytes)
    (hchunks : ∀ chunk ∈ chunks,
      1 ≤ chunk.length ∧ chunk.length ≤ bytestreamUploadChunkBytes) (offset : ℕ) :
    StreamFrom source offset chunks.flatten
        (fileStream source offset (chunks.map .ok)).1 ∧
      (fileStream source offset (chunks.map .ok)).2 = .ok () := by
  induction chunks generalizing offset with
  | nil => exact ⟨streamFrom_end source offset, rfl⟩
  | cons chunk chunks ih =>
      obtain ⟨⟨hpos, hle⟩, hrest⟩ := List.forall_mem_cons.mp hchunks
      obtain ⟨hstream, hresult⟩ := ih hrest (offset + chunk.length)
      rw [List.map_cons, fileStream_cons source offset chunk hpos, List.flatten_cons]
      exact ⟨streamFrom_cons source offset chunk _ _ hpos hle hstream, hresult⟩

theorem wellFormed_stream (chunks : List Bytes)
    (hreads : source.reads = .ok (chunks.map .ok))
    (hchunks : ∀ chunk ∈ chunks,
      1 ≤ chunk.length ∧ chunk.length ≤ bytestreamUploadChunkBytes) :
    WellFormedStream source.resourceName chunks.flatten (stream source).1 ∧
      (stream source).2 = .ok () := by
  obtain ⟨hstream, hresult⟩ := streamFrom_fileStream source chunks hchunks 0
  have heq : stream source = fileStream source 0 (chunks.map .ok) := by
    rw [stream, hreads]
  rw [heq]
  refine ⟨⟨hstream.resourceName_eq, ?_, hstream.data_eq, hstream.data_length_le, ?_⟩, hresult⟩
  · intro before later after hsplit
    rw [hstream.writeOffset_eq before later after hsplit, Nat.zero_add]
  · obtain ⟨before, last, hlast, hfinish, hoffset, hbefore⟩ := hstream.finish_last
    exact ⟨before, last, hlast, hfinish, hoffset.trans (Nat.zero_add _), hbefore⟩

end WellFormed

/-- For every content and every way the operating system splits it into reads, there is
one well-formed stream of requests such that in every interleaving with a receiver that
keeps consuming, what was queued is the beginning of that stream, the number of actions is
bounded, and once no action is left the producer has succeeded and the receiver has
consumed exactly that stream. -/
theorem file_stream_delivered (source : FileSource) (content : Bytes) (chunks : List Bytes)
    (hreads : source.reads = .ok (chunks.map .ok)) (hcontent : chunks.flatten = content)
    (hchunks : ∀ chunk ∈ chunks,
      1 ≤ chunk.length ∧ chunk.length ≤ bytestreamUploadChunkBytes) :
    ∃ requests, WellFormedStream source.resourceName content requests ∧
      ∀ actions s, (∀ action ∈ actions, action.Exchange) →
        Transition.run (step source) start actions = some s →
          s.consumed ++ s.queue <+: requests ∧
          actions.length ≤ 3 * (chunks.length + 1) + 1 ∧
          ((∀ action : Action, action.Exchange → step source s action = none) →
            s.producer = .done (.ok ()) ∧ s.consumed = requests) := by
  obtain ⟨hstream, hresult⟩ := wellFormed_stream source chunks hreads hchunks
  refine ⟨(stream source).1, hcontent ▸ hstream, ?_⟩
  intro actions s hall hrun
  obtain ⟨hlength, -, hreceiver⟩ := work_run source actions start s hall rfl hrun
  have hsending := sending_of_run source hrun
  refine ⟨hsending.kept hreceiver ▸ hsending.sent_isPrefix, ?_, fun hstuck => ?_⟩
  · have hwork : work source start = 3 * (chunks.length + 1) + 1 := by
      simp [work, start, hreads]
    omega
  · obtain ⟨hproducer, hconsumed, -⟩ :=
      delivered_of_stuck source actions s hresult hall hrun hstuck
    exact ⟨hproducer, hconsumed⟩

namespace Sample

/-- A file of two bytes that is read one byte at a time. -/
def shortReads : FileSource where
  resourceName := "main/uploads/22222222-2222-4222-8222-222222222222/blobs/" ++
    "8f434346648f6b96df89dda901c5176b10a6d83961dd3c1ac88b59b2dc327aa4/2"
  path := [.utf8 "", .utf8 "greeting"]
  reads := .ok [.ok [104], .ok [105]]

def requests : List WriteRequest :=
  [⟨shortReads.resourceName, 0, false, [104]⟩, ⟨shortReads.resourceName, 1, false, [105]⟩,
    ⟨shortReads.resourceName, 2, true, []⟩]

/-- A receiver that consumes each request when it is queued. -/
def turns : List Action :=
  [.openFile, .read, .send, .consume, .read, .send, .consume, .read, .send, .consume]

theorem turns_exchange : ∀ action ∈ turns, action.Exchange := by
  simp [turns, Action.Exchange.openFile, Action.Exchange.read, Action.Exchange.send,
    Action.Exchange.consume]

end Sample

/-- The theorem on a file that is read one byte at a time. -/
theorem file_stream_delivered_shortReads :
    ∃ s, Transition.run (step Sample.shortReads) start Sample.turns = some s ∧
      WellFormedStream Sample.shortReads.resourceName [104, 105] s.consumed ∧
      s.consumed.map WriteRequest.writeOffset = [0, 1, 2] := by
  obtain ⟨requests, hstream, hruns⟩ := file_stream_delivered Sample.shortReads [104, 105]
    [[104], [105]] rfl rfl (by decide)
  have hrun : Transition.run (step Sample.shortReads) start Sample.turns =
      some ⟨.done (.ok ()), [], Sample.requests, Sample.requests, none, false⟩ := rfl
  obtain ⟨-, -, hend⟩ := hruns Sample.turns _ Sample.turns_exchange hrun
  have hconsumed := (hend fun action haction => by cases haction <;> rfl).2
  exact ⟨_, hrun, hconsumed ▸ hstream, rfl⟩

end FileWrite

end Cas

end RemoteFs
