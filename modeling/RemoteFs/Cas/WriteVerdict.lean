import RemoteFs.Cas.FileWrite

/-!
# When a streamed write reports the verdict of the server

The caller looks at the producer before it looks at the response. When the
server terminates the RPC before it has consumed every request, the producer may
find the channel closed, and its own failure then hides the verdict.

`reportsVerdict_iff` says exactly when this cannot happen: the server consumed
the whole stream, or it failed in the same way the producer does, with a status
that is internal and not retried.
-/

namespace RemoteFs

namespace Cas

/-- What the retry loop sees of a result: success, or a code and whether the
attempt is repeated. -/
def classify : Except Status Int64 → Except (Code × Bool) Unit
  | .ok _ => .ok ()
  | .error status => .error (status.code, isRetryableStatus status)

theorem classify_sendBytestreamBytesWrite (resourceName : String) (digest : Digest)
    (outcome : WriteOutcome) :
    classify (sendBytestreamBytesWrite resourceName digest outcome) =
      match outcome with
      | .ok committedSize =>
          if committedSize = Int64.ofNat digest.sizeBytes then .ok ()
          else .error (.dataLoss, false)
      | .error status =>
          .error (status.code,
            isRetryableStatus (bytestreamWriteStatus resourceName status)) := by
  cases outcome with
  | error status => rfl
  | ok committedSize =>
      by_cases hsize : committedSize = Int64.ofNat digest.sizeBytes
      · simp [sendBytestreamBytesWrite, writeResult, bytestreamCommittedSizeError, hsize,
          Except.mapError, classify]
      · simp [sendBytestreamBytesWrite, writeResult, bytestreamCommittedSizeError, hsize,
          Except.mapError, classify, Status.dataLoss, isRetryableStatus]

namespace FileWrite

/-- In every interleaving in which the server terminates with `outcome` after it
consumed `k` requests, the write can still return, and what it returns is
classified as the write of bytes in memory is. -/
def ReportsVerdict (source : FileSource) (digest : Digest) (k : ℕ) (outcome : WriteOutcome) :
    Prop :=
  ∀ actions s, Transition.run (step source) start actions = some s →
    s.response = some outcome → s.consumed.length = k →
      (∃ more s', Transition.run (step source) s more = some s' ∧
        (returned source digest s').isSome) ∧
      ∀ result, returned source digest s = some result →
        classify result =
          classify (sendBytestreamBytesWrite source.resourceName digest outcome)

/-- How far a producer is that has queued `sent` requests for the chunks. -/
def Sent (chunks : List Bytes) (sent : ℕ) : Producer → Prop
  | .opening => sent = 0
  | .reading reads _ => sent ≤ chunks.length ∧ reads = (chunks.drop sent).map .ok
  | .sending request reads _ =>
      (∃ chunk rest, chunks.drop sent = chunk :: rest ∧ reads = rest.map .ok ∧
        request.finishWrite = false) ∨
      (sent = chunks.length ∧ request.finishWrite = true)
  | .done (.ok ()) => sent = chunks.length + 1
  | .done (.error status) => sent ≤ chunks.length ∧ status = queueFailure

/-- What every reachable state keeps: no request is consumed that was not
queued. -/
def Inv (chunks : List Bytes) (s : FileWrite) : Prop :=
  ∃ sent, Sent chunks sent s.producer ∧ s.consumed.length + s.queue.length ≤ sent

section Runs

variable (source : FileSource) (chunks : List Bytes)

theorem sent_afterRead (hchunks : ∀ chunk ∈ chunks, 0 < chunk.length) (sent offset : ℕ)
    (h : sent ≤ chunks.length) :
    Sent chunks sent (afterRead source ((chunks.drop sent).map .ok) offset) := by
  cases hdrop : chunks.drop sent with
  | nil =>
      have hlength := List.drop_eq_nil_iff.mp hdrop
      exact .inr ⟨by omega, rfl⟩
  | cons chunk rest =>
      have hmem : chunk ∈ chunks := List.mem_of_mem_drop (hdrop ▸ List.mem_cons_self)
      have hpos := hchunks chunk hmem
      refine .inl ⟨chunk, rest, hdrop, rfl, ?_⟩
      simp only [request, decide_eq_false_iff_not]
      omega

theorem sent_afterSend (sent : ℕ) (request : WriteRequest)
    (reads : List (Except IoError Bytes)) (offset : ℕ)
    (h : Sent chunks sent (.sending request reads offset)) :
    Sent chunks (sent + 1) (afterSend request reads offset) := by
  rcases h with ⟨chunk, rest, hdrop, hreads, hfinish⟩ | ⟨hlast, hfinish⟩
  · have hrest : chunks.drop (sent + 1) = rest := by
      rw [← List.tail_drop, hdrop, List.tail_cons]
    have hlength : sent < chunks.length := by
      by_contra hle
      rw [List.drop_eq_nil_of_le (by omega)] at hdrop
      cases hdrop
    rw [afterSend, hfinish, if_neg Bool.false_ne_true]
    exact ⟨hlength, by rw [hrest, hreads]⟩
  · rw [afterSend, hfinish, if_pos rfl]
    exact congrArg (· + 1) hlast

theorem step_inv (hreads : source.reads = .ok (chunks.map .ok))
    (hchunks : ∀ chunk ∈ chunks, 0 < chunk.length) (s : FileWrite) (action : Action)
    (s' : FileWrite) (h : Inv chunks s) (hstep : step source s action = some s') :
    Inv chunks s' := by
  obtain ⟨sent, hsent, hcount⟩ := h
  cases steps_of_step hstep with
  | openFile hproducer =>
      rw [hproducer] at hsent
      refine ⟨sent, ?_, hcount⟩
      rw [opened, hreads, show sent = 0 from hsent]
      exact ⟨Nat.zero_le _, rfl⟩
  | read hproducer =>
      rw [hproducer] at hsent
      obtain ⟨hle, rfl⟩ := hsent
      exact ⟨sent, sent_afterRead source chunks hchunks sent _ hle, hcount⟩
  | sendFailed hproducer hdropped =>
      rw [hproducer] at hsent
      refine ⟨sent, ⟨?_, rfl⟩, hcount⟩
      rcases hsent with ⟨chunk, rest, hdrop, -, -⟩ | ⟨hlast, -⟩
      · by_contra hle
        rw [List.drop_eq_nil_of_le (by omega)] at hdrop
        cases hdrop
      · omega
  | send hproducer hreceiver hroom =>
      rw [hproducer] at hsent
      refine ⟨sent + 1, sent_afterSend chunks sent _ _ _ hsent, ?_⟩
      simp only [List.length_append, List.length_singleton]
      omega
  | consume hresponse hqueue =>
      refine ⟨sent, hsent, ?_⟩
      rw [hqueue, List.length_cons] at hcount
      simp only [List.length_append, List.length_singleton]
      omega
  | terminate outcome hresponse => exact ⟨sent, hsent, hcount⟩
  | dropReceiver hended hreceiver =>
      refine ⟨sent, hsent, ?_⟩
      simp only [List.length_nil]
      omega

theorem run_inv (hreads : source.reads = .ok (chunks.map .ok))
    (hchunks : ∀ chunk ∈ chunks, 0 < chunk.length) (actions : List Action) (s : FileWrite)
    (hrun : Transition.run (step source) start actions = some s) : Inv chunks s :=
  Transition.run_invariant (step_inv source chunks hreads hchunks) actions start s
    ⟨0, rfl, Nat.le_refl 0⟩ hrun

/-- The turns in which a chunk is read, queued and consumed. -/
def exchanges (taken : List Bytes) : List Action :=
  taken.flatMap fun _ => [.read, .send, .consume]

/-- A producer and a server that alternate get through any part of the file. -/
theorem run_exchanges (taken : List Bytes) (htaken : ∀ chunk ∈ taken, 0 < chunk.length)
    (reads : List (Except IoError Bytes)) (offset : ℕ) (consumed : List WriteRequest) :
    ∃ offset' consumed', consumed'.length = consumed.length + taken.length ∧
      Transition.run (step source)
        ⟨.reading (taken.map .ok ++ reads) offset, [], consumed, consumed, none, false⟩
        (exchanges taken) =
      some ⟨.reading reads offset', [], consumed', consumed', none, false⟩ := by
  induction taken generalizing offset consumed with
  | nil => exact ⟨offset, consumed, rfl, rfl⟩
  | cons chunk taken ih =>
      obtain ⟨hchunk, hrest⟩ := List.forall_mem_cons.mp htaken
      have hnonempty : chunk ≠ [] := List.ne_nil_of_length_pos hchunk
      obtain ⟨offset', consumed', hlength, hrun⟩ := ih hrest
        (offset + chunk.length) (consumed ++ [request source chunk offset])
      refine ⟨offset', consumed', ?_, ?_⟩
      · rw [hlength, List.length_append, List.length_singleton, List.length_cons]
        omega
      · have hturn : Transition.run (step source)
            ⟨.reading ((chunk :: taken).map .ok ++ reads) offset, [], consumed, consumed, none,
              false⟩
            [.read, .send, .consume] =
            some ⟨.reading (taken.map .ok ++ reads) (offset + chunk.length), [],
              consumed ++ [request source chunk offset],
              consumed ++ [request source chunk offset], none, false⟩ := by
          simp [Transition.run, step, afterRead, afterSend, request, channelCapacity,
            hnonempty]
        rw [exchanges, List.flatMap_cons, Transition.run_append _ _ _ _ _ hturn]
        exact hrun

/-- A server that stops before the end of the stream can make the producer
fail. -/
theorem exists_queueFailure (hreads : source.reads = .ok (chunks.map .ok))
    (hchunks : ∀ chunk ∈ chunks, 0 < chunk.length) (k : ℕ) (hk : k < chunks.length + 1)
    (outcome : WriteOutcome) :
    ∃ actions s, Transition.run (step source) start actions = some s ∧
      s.response = some outcome ∧ s.consumed.length = k ∧
        s.producer = .done (.error queueFailure) := by
  obtain ⟨offset, consumed, hlength, hexchanges⟩ := run_exchanges source (chunks.take k)
    (fun chunk hchunk => hchunks chunk (List.mem_of_mem_take hchunk))
    ((chunks.drop k).map .ok) 0 []
  rw [← List.map_append, List.take_append_drop] at hexchanges
  have hopen : Transition.run (step source) start [.openFile] =
      some ⟨.reading (chunks.map .ok) 0, [], [], [], none, false⟩ := by
    simp [Transition.run, step, start, opened, hreads]
  have hfail : Transition.run (step source)
      ⟨.reading ((chunks.drop k).map .ok) offset, [], consumed, consumed, none, false⟩
      [.terminate outcome, .dropReceiver, .read, .send] =
      some ⟨.done (.error queueFailure), [], consumed, consumed, some outcome, true⟩ := by
    cases hdrop : chunks.drop k with
    | nil => simp [Transition.run, step, afterRead]
    | cons chunk rest => simp [Transition.run, step, afterRead]
  refine ⟨[Action.openFile] ++ (exchanges (chunks.take k) ++
    [Action.terminate outcome, .dropReceiver, .read, .send]),
    ⟨.done (.error queueFailure), [], consumed, consumed, some outcome, true⟩, ?_, rfl, ?_, rfl⟩
  · rw [Transition.run_append _ _ _ _ _ hopen, Transition.run_append _ _ _ _ _ hexchanges]
    exact hfail
  · dsimp only
    rw [hlength, List.length_take, List.length_nil]
    omega

theorem exists_done_of_dropped (s : FileWrite) (hdropped : s.receiverDropped = true) :
    ∃ more s' result, Transition.run (step source) s more = some s' ∧
      s'.response = s.response ∧ s'.producer = .done result := by
  have hsending : ∀ t : FileWrite, t.receiverDropped = true → ∀ request reads offset,
      t.producer = .sending request reads offset → ∃ more s' result,
        Transition.run (step source) t more = some s' ∧ s'.response = t.response ∧
          s'.producer = .done result := by
    intro t ht request reads offset hproducer
    exact ⟨[.send], { t with producer := .done (.error queueFailure) }, .error queueFailure,
      by simp [Transition.run, step, hproducer, ht], rfl, rfl⟩
  have hreading : ∀ t : FileWrite, t.receiverDropped = true → ∀ reads offset,
      t.producer = .reading reads offset → ∃ more s' result,
        Transition.run (step source) t more = some s' ∧ s'.response = t.response ∧
          s'.producer = .done result := by
    intro t ht reads offset hproducer
    have hread : step source t .read =
        some { t with producer := afterRead source reads offset } := by
      simp [step, hproducer]
    cases hafter : afterRead source reads offset with
    | opening => cases reads <;> [cases hafter; (rename_i r _; cases r <;> cases hafter)]
    | reading r o => cases reads <;> [cases hafter; (rename_i r _; cases r <;> cases hafter)]
    | sending request rest o =>
        rw [hafter] at hread
        obtain ⟨more, s', result, hrun, hresponse, hdone⟩ :=
          hsending { t with producer := .sending request rest o } ht request rest o rfl
        refine ⟨.read :: more, s', result, ?_, hresponse, hdone⟩
        rw [Transition.run_cons, hread]
        exact hrun
    | done result =>
        rw [hafter] at hread
        refine ⟨[.read], { t with producer := .done result }, result, ?_, rfl, rfl⟩
        rw [Transition.run_cons, hread]
        rfl
  cases hproducer : s.producer with
  | opening =>
      have hopen : step source s .openFile = some { s with producer := opened source } := by
        simp [step, hproducer]
      cases hreads : source.reads with
      | error error =>
          refine ⟨[.openFile], { s with producer := opened source },
            .error (.internal s!"open {source.path.display}: {error}"), ?_, rfl, ?_⟩
          · rw [Transition.run_cons, hopen]
            rfl
          · rw [opened, hreads]
      | ok reads =>
          have hopened : opened source = .reading reads 0 := by rw [opened, hreads]
          rw [hopened] at hopen
          obtain ⟨more, s', result, hrun, hresponse, hdone⟩ :=
            hreading { s with producer := .reading reads 0 } hdropped reads 0 rfl
          refine ⟨.openFile :: more, s', result, ?_, hresponse, hdone⟩
          rw [Transition.run_cons, hopen]
          exact hrun
  | reading reads offset => exact hreading s hdropped reads offset hproducer
  | sending request reads offset => exact hsending s hdropped request reads offset hproducer
  | done result => exact ⟨[], s, result, rfl, rfl, hproducer⟩

theorem exists_returned (digest : Digest) (s : FileWrite) (outcome : WriteOutcome)
    (hresponse : s.response = some outcome) :
    ∃ more s', Transition.run (step source) s more = some s' ∧
      (returned source digest s').isSome := by
  have hdone : ∀ t : FileWrite, t.response = some outcome → t.receiverDropped = true →
      ∃ more s', Transition.run (step source) t more = some s' ∧
        (returned source digest s').isSome := by
    intro t ht hdropped
    obtain ⟨more, s', result, hrun, hkept, hproducer⟩ :=
      exists_done_of_dropped source t hdropped
    refine ⟨more, s', hrun, ?_⟩
    rw [returned, hkept, ht, hproducer]
    rfl
  by_cases hdropped : s.receiverDropped = true
  · exact hdone s hresponse hdropped
  · rw [Bool.not_eq_true] at hdropped
    have hdrop : step source s .dropReceiver =
        some { s with receiverDropped := true, queue := [] } := by
      simp [step, hresponse, hdropped]
    obtain ⟨more, s', hrun, hreturned⟩ :=
      hdone { s with receiverDropped := true, queue := [] } hresponse rfl
    refine ⟨.dropReceiver :: more, s', ?_, hreturned⟩
    rw [Transition.run_cons, hdrop]
    exact hrun

end Runs

theorem classify_queueFailure :
    classify (.error queueFailure) = .error (.internal, false) := by
  decide

/-- For every file whose reads succeed, every number of consumed requests and
every outcome: the verdict of the server is reported in all interleavings exactly
when the whole stream was consumed, or the server failed with an internal status
that is not retried. -/
theorem reportsVerdict_iff (source : FileSource) (chunks : List Bytes)
    (hreads : source.reads = .ok (chunks.map .ok))
    (hchunks : ∀ chunk ∈ chunks, 0 < chunk.length) (digest : Digest) (k : ℕ)
    (outcome : WriteOutcome) :
    ReportsVerdict source digest k outcome ↔
      chunks.length + 1 ≤ k ∨
        ∃ status, outcome = .error status ∧ status.code = .internal ∧
          isRetryableStatus (bytestreamWriteStatus source.resourceName status) = false := by
  constructor
  · intro hreports
    by_cases hk : chunks.length + 1 ≤ k
    · exact .inl hk
    · obtain ⟨actions, s, hrun, hresponse, hconsumed, hproducer⟩ :=
        exists_queueFailure source chunks hreads hchunks k (by omega) outcome
      have hreturned : returned source digest s = some (.error queueFailure) := by
        rw [returned, hresponse, hproducer]
        rfl
      have hclass := (hreports actions s hrun hresponse hconsumed).2 _ hreturned
      rw [classify_queueFailure, classify_sendBytestreamBytesWrite] at hclass
      cases outcome with
      | ok committedSize =>
          dsimp only at hclass
          split at hclass
          · cases hclass
          · cases hclass
      | error status =>
          have hpair := Except.error.inj hclass
          exact .inr ⟨status, rfl, (congrArg Prod.fst hpair).symm,
            (congrArg Prod.snd hpair).symm⟩
  · intro hcondition actions s hrun hresponse hconsumed
    refine ⟨exists_returned source digest s outcome hresponse, fun result hreturned => ?_⟩
    obtain ⟨sent, hsent, hcount⟩ := run_inv source chunks hreads hchunks actions s hrun
    unfold returned at hreturned
    split at hreturned
    · next outcome' producerResult hresponse' hproducer =>
        rw [hresponse', Option.some.injEq] at hresponse
        subst hresponse
        rw [Option.some.injEq] at hreturned
        rw [hproducer] at hsent
        cases producerResult with
        | ok done => rw [← hreturned]; rfl
        | error status =>
            obtain ⟨hle, rfl⟩ := hsent
            rcases hcondition with hk | ⟨status, rfl, hcode, hretry⟩
            · omega
            · rw [← hreturned, classify_sendBytestreamBytesWrite]
              dsimp only
              rw [hcode, hretry]
              exact classify_queueFailure
    · cases hreturned

namespace Sample

def source : FileSource where
  resourceName := "main/uploads/11111111-1111-4111-8111-111111111111/blobs/" ++
    "bb9f8df61474d25e71fa00722318cd387396ca1736605e1248821cc0de3d3af8/4194304"
  path := [.utf8 "", .utf8 "zeros"]
  reads := .ok ((List.replicate 4 (List.replicate 1048576 0)).map .ok)

def digest : Digest where
  hash := "bb9f8df61474d25e71fa00722318cd387396ca1736605e1248821cc0de3d3af8"
  sizeBytes := 4194304
  hash_valid := ⟨by decide, by decide⟩
  size_le := by decide

theorem chunks_pos :
    ∀ chunk ∈ List.replicate 4 (List.replicate 1048576 (0 : UInt8)), 0 < chunk.length := by
  intro chunk hchunk
  rw [(List.mem_replicate.mp hchunk).2, List.length_replicate]
  decide

end Sample

/-- The theorem where the server reads the whole stream and then answers. -/
theorem reportsVerdict_iff_sample :
    ReportsVerdict Sample.source Sample.digest 5 (.ok 4194304) :=
  (reportsVerdict_iff Sample.source (List.replicate 4 (List.replicate 1048576 0)) rfl
    Sample.chunks_pos Sample.digest 5 (.ok 4194304)).mpr
      (.inl (by rw [List.length_replicate]))

/-- A server that already has the blob answers before it reads anything: the
write fails with an internal status, where the write of bytes in memory
succeeds. -/
theorem early_answer_not_reported :
    ∃ actions s status,
      Transition.run (step Sample.source) start actions = some s ∧
      s.response = some (.ok 4194304) ∧ s.consumed.length = 0 ∧
      returned Sample.source Sample.digest s = some (.error status) ∧
      status.code = .internal ∧
      sendBytestreamBytesWrite Sample.source.resourceName Sample.digest (.ok 4194304) =
        .ok 4194304 := by
  obtain ⟨actions, s, hrun, hresponse, hconsumed, hproducer⟩ := exists_queueFailure
    Sample.source (List.replicate 4 (List.replicate 1048576 0)) rfl Sample.chunks_pos 0
    (Nat.zero_lt_succ _) (.ok 4194304)
  refine ⟨actions, s, queueFailure, hrun, hresponse, hconsumed, ?_, rfl, by decide⟩
  rw [returned, hresponse, hproducer]
  rfl

end FileWrite

end Cas

end RemoteFs
