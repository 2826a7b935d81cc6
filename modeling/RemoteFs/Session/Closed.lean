import RemoteFs.Session.System

/-!
# Reads of a closed session

Every store call checks the lifecycle inside its own transaction or read, so a call of a
session that is not active fails, and with a failed precondition unless SQLite fails.
-/

namespace RemoteFs

namespace Session

def Database.Open (db : Database) : Prop :=
  ∃ row, db.metadata = some row ∧ row.lifecycle = "active" ∧ row.closedAtSeconds = none

def Database.ClosedAt (db : Database) (seconds : ℤ) : Prop :=
  ∃ row, db.metadata = some row ∧ row.lifecycle = "closed" ∧
    row.closedAtSeconds = some seconds

section Lifecycle

variable [Uuid]

theorem lifecycle_of_validateSession {row : SessionMetadataRow}
    {metadata : SessionMetadata} (h : validateSession row = .ok metadata) :
    parseLifecycle row.lifecycle = .ok metadata.state ∧
      validateCloseTime metadata.state row.closedAtSeconds = .ok () := by
  rw [validateSession] at h
  split at h
  · cases h
  · obtain ⟨state, hstate, h⟩ := (Result.bind_eq_ok_iff _ _ _).mp h
    obtain ⟨hclose, h⟩ := (Result.check_bind_eq_ok_iff _ _ _).mp h
    obtain ⟨pid, -, h⟩ := (Result.bind_eq_ok_iff _ _ _).mp h
    obtain ⟨digest, -, h⟩ := (Result.bind_eq_ok_iff _ _ _).mp h
    cases h
    exact ⟨hstate, hclose⟩

theorem Database.Active.isOpen {db : Database} (h : db.Active) : db.Open := by
  obtain ⟨row, metadata, hrow, hvalid, hactive⟩ := h
  obtain ⟨hparse, hclose⟩ := lifecycle_of_validateSession hvalid
  rw [hactive] at hparse hclose
  refine ⟨row, hrow, ?_, ?_⟩
  · rw [parseLifecycle] at hparse
    repeat' split at hparse
    all_goals first | assumption | cases hparse
  · rw [validateCloseTime, if_neg (by decide)] at hclose
    split at hclose
    · next hnone => exact Option.isNone_iff_eq_none.mp hnone
    · cases hclose

theorem Database.ClosedAt.not_active {db : Database} {seconds : ℤ} (h : db.ClosedAt seconds) :
    ¬ db.Active := by
  obtain ⟨row, hrow, hlifecycle, -⟩ := h
  rintro ⟨row', metadata, hrow', hvalid, hactive⟩
  rw [hrow, Option.some.injEq] at hrow'
  obtain ⟨hparse, -⟩ := lifecycle_of_validateSession hvalid
  rw [← hrow', hlifecycle, hactive] at hparse
  exact absurd hparse (by decide)

theorem Database.closedAt_of_validateSession {db : Database} {row : SessionMetadataRow}
    {metadata : SessionMetadata} (hrow : db.metadata = some row)
    (hvalid : validateSession row = .ok metadata) (hclosed : metadata.state = .closed) :
    ∃ seconds, db.ClosedAt seconds := by
  obtain ⟨hparse, hclose⟩ := lifecycle_of_validateSession hvalid
  rw [hclosed] at hparse hclose
  rw [validateCloseTime, if_pos rfl] at hclose
  cases hseconds : row.closedAtSeconds with
  | none =>
      rw [hseconds] at hclose
      cases hclose
  | some seconds =>
      refine ⟨seconds, row, hrow, ?_, hseconds⟩
      rw [parseLifecycle] at hparse
      repeat' split at hparse
      all_goals first | assumption | cases hparse

/-! ### Reads of a store that is not active -/

variable {store : SessionStore} {ns : Namespace} (h : store.database.Holds ns)
  (hinactive : ¬ store.database.Active)

include h hinactive

theorem ensureActive_of_inactive (sqlite : Sqlite) :
    ∃ e, ensureActive sqlite store.databasePath store.database = .error e ∧
      (sqlite.Quiet → ∃ reason, e.root = failedPrecondition reason) := by
  obtain ⟨-, hactive⟩ | ⟨e, herror, -, hloud⟩ | ⟨reason, herror, -⟩ :=
    ensureActive_cases h.session sqlite store.databasePath
  · exact absurd hactive hinactive
  · exact ⟨e, herror, fun hquiet => absurd hquiet hloud⟩
  · exact ⟨_, herror, fun _ => ⟨reason, rfl⟩⟩

theorem inode_of_inactive (sqlite : Sqlite) (inode : InodeId) :
    ∃ e, store.inode sqlite inode = .error e ∧
      (sqlite.Quiet → ∃ reason, e.root = failedPrecondition reason) := by
  obtain ⟨e, herror, hcause⟩ := ensureActive_of_inactive h hinactive sqlite
  rw [SessionStore.inode, herror]
  exact ⟨_, rfl, hcause⟩

theorem getOrCreateRemoteDirChildren_of_inactive (sqlite : Sqlite) (parent : InodeId)
    (children : List NewRemoteInode) :
    ∃ e, store.getOrCreateRemoteDirChildren sqlite parent children = (.error e, store) := by
  obtain ⟨e, hcall, -⟩ | ⟨hactive, -⟩ | ⟨-, -, hactive, -⟩ :=
    getOrCreateRemoteDirChildren_cases h sqlite parent children
  · exact ⟨e, hcall⟩
  · exact absurd hactive hinactive
  · exact absurd hactive hinactive

theorem close_of_inactive (sqlite : Sqlite) (clock : ℤ) :
    ∃ e, store.close sqlite clock = (.error e, store) ∧
      (sqlite.Quiet → 0 ≤ clock ∧ clock ≤ i64Max →
        ∃ reason, e.root = failedPrecondition reason) := by
  obtain hfailed | ⟨-, -, -, -, hactive, -⟩ := close_cases h sqlite clock
  · exact hfailed
  · exact absurd hactive hinactive

end Lifecycle

/-! ### Calls of a session that is not active -/

section Inactive

variable [Uuid] {session : Session} {ns : Namespace} (hholds : session.store.database.Holds ns)
  (hinactive : ¬ session.store.database.Active)

include hholds hinactive

theorem getVisibleInode_of_inactive (env : Surroundings) (inode : InodeId) :
    ∃ e, getVisibleInode env session inode = .error e ∧
      (env.inodeSqlite.Quiet → ∃ reason, e.root = failedPrecondition reason) := by
  obtain ⟨e, herror, hcause⟩ := inode_of_inactive hholds hinactive env.inodeSqlite inode
  rw [getVisibleInode, herror]
  exact ⟨e, rfl, hcause⟩

theorem digestToLoad_of_inactive (env : Surroundings) (inode : InodeId) :
    ∃ e, digestToLoad env session inode = .error e ∧
      (env.inodeSqlite.Quiet → ∃ reason, e.root = failedPrecondition reason) := by
  obtain ⟨e, herror, hcause⟩ := getVisibleInode_of_inactive hholds hinactive env inode
  rw [digestToLoad, herror]
  exact ⟨e, rfl, hcause⟩

theorem backing_of_inactive (env : Surroundings) (inode : InodeId) :
    ∃ e, backing env session inode = .error e ∧
      (env.inodeSqlite.Quiet → ∃ reason, e.root = failedPrecondition reason) := by
  obtain ⟨e, herror, hcause⟩ := getVisibleInode_of_inactive hholds hinactive env inode
  rw [backing, herror]
  exact ⟨e, rfl, hcause⟩

theorem childrenToLoad_of_inactive [Sha256] [Prost] (env : Surroundings) (inode : InodeId) :
    ∃ e, childrenToLoad env session inode = .error e ∧
      (env.inodeSqlite.Quiet → ∃ reason, e.root = failedPrecondition reason) := by
  obtain ⟨e, herror, hcause⟩ := getVisibleInode_of_inactive hholds hinactive env inode
  rw [childrenToLoad, herror]
  exact ⟨e, rfl, hcause⟩

end Inactive

/-- Surroundings in which SQLite does not fail and nothing is fetched. -/
def calm : Surroundings where
  inodeSqlite := fun _ => none
  loadSqlite := fun _ => none
  readSqlite := fun _ => none
  readBlob := fun _ => .error (internalError "")
  readRange := fun _ _ _ => .error (internalError "")
  readOverlay := fun _ _ _ => .error (internalError "")

end Session

end RemoteFs
