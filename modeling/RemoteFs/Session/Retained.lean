import RemoteFs.Session.Closed
import RemoteFs.Session.IoCounters

/-!
# What a session leaves in its database

The metadata row of a session is written when its database is seeded and changed once, by the
call that closes the session. `Stored` says so of every state of the system: the row says what
the session was opened with, and it says that the session is closed exactly when a call of
`close` has returned success.
-/

namespace RemoteFs

namespace Session

section Seeded

variable [Uuid]

omit [Uuid] in
theorem insertRemoteInode_metadata {sqlite : Sqlite} {path : PathBuf} {db db' : Database}
    {index : ℕ} {parent : Option InodeId} {inode : NewRemoteInode} {id : InodeId}
    (h : insertRemoteInode sqlite path db index parent inode = .ok (id, db')) :
    db'.metadata = db.metadata := by
  obtain ⟨-, h⟩ := (Result.check_bind_eq_ok_iff _ _ _).mp h
  obtain ⟨⟨row, inserted⟩, hinsert, h⟩ := (Result.bind_eq_ok_iff _ _ _).mp h
  obtain ⟨identity, -, h⟩ := (Result.bind_eq_ok_iff _ _ _).mp h
  cases h
  rw [Result.mapError_eq_ok_iff, Database.insertInode] at hinsert
  split at hinsert
  · cases hinsert
  · split at hinsert
    · cases hinsert
    · split at hinsert
      · cases hinsert
      · cases hinsert
        rfl

theorem initializeDatabase_metadata {store store' : SessionStore} {sqlite : Sqlite}
    {sessionId : String} {daemonPid : UInt32} {rootDigest : Digest} {mountpoint : PathBuf}
    {clock : ℤ}
    (h : store.initializeDatabase sqlite sessionId daemonPid rootDigest mountpoint clock =
      (.ok (), store')) :
    ∃ row text, store'.database.metadata = some row ∧ mountpoint.toStr = some text ∧
      validateSession row = .ok
        { daemonPid := daemonPid
          state := .active
          rootDigest := rootDigest
          mountpoint := PathBuf.ofText text } := by
  rw [SessionStore.initializeDatabase] at h
  split at h
  · cases h
  · next text htext =>
      split at h
      · cases h
      · next hidentity =>
          rw [not_or, not_not] at hidentity
          split at h
          · cases h
          · next now hnow =>
              obtain ⟨⟨hclock, -⟩, hseconds⟩ :=
                (nowSeconds_eq_ok_iff clock now).mp ((withContext_eq_ok_iff _ _ _).mp hnow)
              obtain ⟨value, db, hbody, hcommit⟩ | ⟨e, -, hcommit⟩ | ⟨e, hcommit, -⟩ :=
                store.withTransaction_cases sqlite "initialize database" _
              all_goals rw [hcommit] at h
              all_goals cases h
              obtain ⟨seeded, hseeded, htail⟩ := (Result.bind_eq_ok_iff _ _ _).mp hbody
              obtain ⟨rooted, hrooted, hlast⟩ := (Result.bind_eq_ok_iff _ _ _).mp htail
              rw [withContext_eq_ok_iff] at hrooted
              obtain ⟨⟨id, inserted⟩, hinsert, hrooted⟩ :=
                (Result.bind_eq_ok_iff _ _ _).mp hrooted
              have hmetadata := insertRemoteInode_metadata hinsert
              dsimp only at hrooted
              split at hrooted
              · cases hrooted
              · cases hrooted
                cases hlast
                obtain ⟨-, hseeded⟩ := (Result.check_bind_eq_ok_iff _ _ _).mp hseeded
                cases hseeded
                exact ⟨_, text, hmetadata, htext, validateSession_new sessionId daemonPid
                  rootDigest text now hidentity.1 hidentity.2 (by omega)⟩

theorem closed_seconds_of_valid {row : SessionMetadataRow} {seconds : ℤ}
    {metadata : SessionMetadata}
    (h : validateSession (SessionStore.closedRow row seconds) = .ok metadata) : 0 ≤ seconds := by
  obtain ⟨hparse, hclose⟩ := lifecycle_of_validateSession h
  have hstate : metadata.state = .closed := by
    rw [show (SessionStore.closedRow row seconds).lifecycle = "closed" from rfl] at hparse
    have hclosed : parseLifecycle "closed" = .ok .closed := rfl
    rw [hclosed, Except.ok.injEq] at hparse
    exact hparse.symm
  rw [hstate, validateCloseTime, if_pos rfl] at hclose
  split at hclose
  · next hany => simpa [SessionStore.closedRow] using hany
  · cases hclose

end Seeded

namespace System

def Task.closed (task : Task) : Bool :=
  match task.phase with
  | .returned (.ok .closed) => true
  | _ => false

section Stored

variable [Uuid]

/-- The stored row says what the session was opened with, and whether it was closed. -/
inductive Stored (facts : SessionMetadata) (s : State) : Prop
  | active (row : SessionMetadataRow) (hrow : s.session.store.database.metadata = some row)
      (hvalid : validateSession row = .ok facts) (hnone : s.tasks.countP Task.closed = 0)
  | closed (row : SessionMetadataRow) (hrow : s.session.store.database.metadata = some row)
      (hvalid : validateSession row = .ok { facts with state := .closed })
      (hone : s.tasks.countP Task.closed = 1)

omit [Uuid] in
theorem closed_eq_false_of_map {α : Type} (request : Request) (result : Except SessionError α)
    (f : α → Answer) (hf : ∀ a, f a ≠ .closed) :
    Task.closed ⟨request, .returned (result.map f)⟩ = false := by
  cases result with
  | error e => rfl
  | ok a =>
      change Task.closed ⟨request, .returned (.ok (f a))⟩ = false
      cases hanswer : f a with
      | closed => exact absurd hanswer (hf a)
      | inode entry => rfl
      | entries entries => rfl
      | bytes bytes => rfl

variable [Sha256] [Prost] {env : Surroundings} {clock : ℤ} {session : Session}
  {cache : Cache.State} {outcome : Outcome}

theorem closed_eq_false_of_load {request : Request} {inode : InodeId} {phase : Phase}
    (h : load env session cache inode phase = some outcome) :
    Task.closed ⟨request, outcome.phase⟩ = false := by
  cases phase with
  | locked =>
      rw [load] at h
      split at h
      all_goals
        cases h
        rfl
  | fetching digest call =>
      rw [load] at h
      split at h
      · cases h
        rfl
      · split at h
        all_goals
          cases h
          rfl
      · cases h
        rfl
      · cases h
  | fetched children downloaded =>
      rw [load] at h
      split at h
      all_goals
        cases h
        rfl
  | created downloaded =>
      cases h
      rfl
  | _ => cases h

omit [Sha256] [Prost] in
theorem closed_eq_false_of_read {request : Request} {inode : InodeId} {offset size : ℕ}
    {phase : Phase} (h : read env session cache inode offset size phase = some outcome) :
    Task.closed ⟨request, outcome.phase⟩ = false := by
  cases phase with
  | locked =>
      rw [read] at h
      split at h
      · cases h
        rfl
      · cases h
        exact closed_eq_false_of_map _ _ _ fun _ heq => by cases heq
      · cases h
        rfl
  | reading call =>
      rw [read] at h
      split at h
      · cases h
        rfl
      · cases h
        rfl
      · cases h
        rfl
      · cases h
  | served bytes downloaded =>
      cases h
      rfl
  | _ => cases h

theorem advance_eq_load {request : Request} {inode : InodeId} {phase : Phase}
    (hinode : request.directory = some inode) (hphase : phase ≠ .loaded) :
    advance env clock session cache request phase = load env session cache inode phase := by
  cases request with
  | lookupChild parent name =>
      cases hinode
      cases phase with
      | loaded => exact absurd rfl hphase
      | _ => rfl
  | listDirectory directory =>
      cases hinode
      cases phase with
      | loaded => exact absurd rfl hphase
      | _ => rfl
  | _ => cases hinode

theorem closed_eq_false_of_advance {request : Request} {phase : Phase} (hne : request ≠ .close)
    (h : advance env clock session cache request phase = some outcome) :
    Task.closed ⟨request, outcome.phase⟩ = false := by
  cases request with
  | getInode inode =>
      cases phase with
      | called =>
          cases h
          exact closed_eq_false_of_map _ _ _ fun _ heq => by cases heq
      | _ => cases h
  | lookupChild parent name =>
      by_cases hphase : phase = .loaded
      · subst hphase
        cases h
        exact closed_eq_false_of_map _ _ _ fun _ heq => by cases heq
      · rw [advance_eq_load rfl hphase] at h
        exact closed_eq_false_of_load h
  | listDirectory inode =>
      by_cases hphase : phase = .loaded
      · subst hphase
        cases h
        exact closed_eq_false_of_map _ _ _ fun _ heq => by cases heq
      · rw [advance_eq_load rfl hphase] at h
        exact closed_eq_false_of_load h
  | readRange inode offset size => exact closed_eq_false_of_read h
  | close => exact absurd rfl hne

theorem advance_close : advance env clock session cache .close .called =
    some (.unpoisoned { session with store := (session.store.close env.loadSqlite clock).2 } cache
      (.returned ((session.store.close env.loadSqlite clock).1.map fun _ => .closed))) := rfl

theorem not_closed_of_advance {request : Request} {phase : Phase}
    (h : advance env clock session cache request phase = some outcome) :
    Task.closed ⟨request, phase⟩ = false := by
  cases phase with
  | returned result =>
      cases request with
      | _ => cases h
  | _ => rfl

/-- A step of a call keeps the row, or is the close that succeeds. -/
theorem advance_metadata {request : Request} {phase : Phase} {ns : Namespace}
    (hholds : session.store.database.Holds ns)
    (h : advance env clock session cache request phase = some outcome) :
    (outcome.session.store.database.metadata = session.store.database.metadata ∧
        Task.closed ⟨request, outcome.phase⟩ = false) ∨
      (session.store.database.Active ∧ Task.closed ⟨request, outcome.phase⟩ = true ∧
        outcome.session.store.database.Holds ns ∧
        outcome.session.store.database.metadata =
          session.store.database.metadata.map fun row => SessionStore.closedRow row clock) := by
  by_cases hclose : request = .close
  · subst hclose
    cases phase with
    | called =>
        rw [advance_close, Option.some.injEq] at h
        subst h
        obtain ⟨e, hcall, -⟩ | ⟨db, hcall, hclosed, -, hactive, hmetadata⟩ :=
          close_cases hholds env.loadSqlite clock
        · rw [hcall]
          exact .inl ⟨rfl, rfl⟩
        · rw [hcall]
          exact .inr ⟨hactive, rfl, hclosed, hmetadata⟩
    | _ => cases h
  · refine .inl ⟨?_, closed_eq_false_of_advance hclose h⟩
    cases advances_of_advance h with
    | rejected _ inode hinode children downloaded e store hcall =>
        obtain ⟨e', hsame, -⟩ | ⟨-, -, hsame⟩ | ⟨_, db, -, hsame, -⟩ :=
          getOrCreateRemoteDirChildren_cases hholds env.loadSqlite inode children
        all_goals rw [hsame] at hcall
        all_goals cases hcall
        rfl
    | created _ inode hinode children downloaded stored store hcall =>
        obtain ⟨e', hsame, -⟩ | ⟨-, -, hsame⟩ | ⟨_, db, -, hsame, -, hmetadata⟩ :=
          getOrCreateRemoteDirChildren_cases hholds env.loadSqlite inode children
        all_goals rw [hsame] at hcall
        all_goals cases hcall
        · rfl
        · exact hmetadata
    | closed => exact absurd rfl hclose
    | _ => rfl

/-- The row and the closes that succeeded go together through every step. -/
theorem Stored.step {facts : SessionMetadata} {root : PathBuf} {s s' : State} {move : Move}
    {ns : Namespace} (h : Stored facts s)
    (hholds : s.session.store.database.Holds ns) (hstep : step root s move = some s') :
    Stored facts s' := by
  -- A step that keeps the row and adds no close that succeeded.
  have hkept : ∀ {s' : State},
      s'.session.store.database.metadata = s.session.store.database.metadata →
      s'.tasks.countP Task.closed = s.tasks.countP Task.closed → Stored facts s' := by
    intro s' hmetadata hcount
    cases h with
    | active row hrow hvalid hnone =>
        exact .active row (hmetadata.trans hrow) hvalid (hcount.trans hnone)
    | closed row hrow hvalid hone =>
        exact .closed row (hmetadata.trans hrow) hvalid (hcount.trans hone)
  cases move with
  | call request =>
      cases hstep
      refine hkept rfl ?_
      rw [List.countP_append, List.countP_singleton]
      rfl
  | lock i =>
      obtain ⟨request, inode, hi, -, -, rfl⟩ := lock_cases hstep
      refine hkept rfl (Pool.countP_set_eq hi ?_)
      split <;> rfl
  | proceed i env clock =>
      obtain ⟨request, phase, outcome, hi, hadvance, rfl⟩ := proceed_cases hstep
      have hold := not_closed_of_advance hadvance
      obtain ⟨hmetadata, hopen⟩ | ⟨hactive', hclosed, hholds', hmetadata⟩ :=
        advance_metadata hholds hadvance
      · exact hkept hmetadata (Pool.countP_set_eq hi (hopen.trans hold.symm))
      · have hcount := Pool.countP_set Task.closed hi ⟨request, outcome.phase⟩
        rw [hold, hclosed, if_neg Bool.false_ne_true, if_pos rfl] at hcount
        cases h with
        | active row hrow hvalid hnone =>
            rw [hrow, Option.map_some] at hmetadata
            obtain ⟨stored, _, hstored, hstoredValid, -⟩ := hholds'.session
            rw [hmetadata, Option.some.injEq] at hstored
            rw [← hstored] at hstoredValid
            have hclock := closed_seconds_of_valid hstoredValid
            refine .closed _ hmetadata (validateSession_closedRow hvalid hclock) ?_
            dsimp only
            omega
        | closed row hrow hvalid hone =>
            obtain ⟨row', metadata, hrow', hvalid', hstate⟩ := hactive'
            rw [hrow, Option.some.injEq] at hrow'
            rw [← hrow', hvalid] at hvalid'
            cases hvalid'
            cases hstate
  | cache call action =>
      obtain ⟨cache, -, rfl⟩ := cache_cases hstep
      exact hkept rfl rfl

theorem Reached.step {rootDigest : Digest} {root : PathBuf} {s s' : State} {move : Move}
    (h : Reached rootDigest root s) (hstep : System.step root s move = some s') :
    Reached rootDigest root s' := by
  obtain ⟨sqlite, path, id, pid, mountpoint, clock, store, files, moves, hcreate, hrun⟩ := h
  refine ⟨sqlite, path, id, pid, mountpoint, clock, store, files, moves ++ [move], hcreate, ?_⟩
  rw [Transition.run_append _ _ _ _ _ hrun, Transition.run_cons, hstep]
  rfl

end Stored

end System

end Session

end RemoteFs
