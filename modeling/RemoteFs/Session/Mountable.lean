import RemoteFs.Session.Mount
import RemoteFs.Tree.Language

/-!
# Which decoded directories can be mounted

A directory is validated three times: by the tree layer when it is decoded, by the
session when its nodes are translated, and by the store when they are inserted. The
later layers check two things the first does not: the times of directory nodes and
the modes of all nodes. A decoded directory can be mounted exactly when it passes
these.
-/

namespace RemoteFs

namespace Session

open RemoteFs.Tree (decodeDirectory WellFormedDirectory PropertiesSupported DigestPresent
  SupportedTimestamp directoryNames)

/-! ### Translated nodes -/

def TimeOf (timestamp : Reapi.Timestamp) (time : NodeTime) : Prop :=
  time.seconds = timestamp.seconds.toInt ∧ (time.nanos : ℤ) = timestamp.nanos.toInt

theorem supportedTimestamp_iff (timestamp : Reapi.Timestamp) :
    SupportedTimestamp timestamp ↔ 0 ≤ timestamp.nanos.toInt ∧
      SupportedTime timestamp.seconds.toInt timestamp.nanos.toInt.toNat := by
  have hmin : Tree.minTimestampSeconds.toInt = minTimestampSeconds := rfl
  have hmax : Tree.maxTimestampSeconds.toInt = maxTimestampSeconds := rfl
  have hlast : (999999999 : Int32).toInt = 999999999 := rfl
  have hzero : (0 : Int32).toInt = 0 := rfl
  simp only [SupportedTimestamp, SupportedTime, Int32.le_iff_toInt_le, Int64.lt_iff_toInt_lt,
    gt_iff_lt, hmin, hmax, hlast, hzero]
  omega

theorem nodeTime_eq_ok_iff (timestamp : Reapi.Timestamp) (time : NodeTime) :
    nodeTime timestamp = .ok time ↔
      SupportedTimestamp timestamp ∧ TimeOf timestamp time := by
  have hzero : (0 : Int32).toInt = 0 := rfl
  rw [supportedTimestamp_iff, nodeTime, TimeOf]
  by_cases hneg : timestamp.nanos < 0
  · rw [if_pos hneg]
    rw [Int32.lt_iff_toInt_lt, hzero] at hneg
    constructor
    · intro h
      cases h
    · rintro ⟨⟨hle, -⟩, -⟩
      omega
  · rw [if_neg hneg, NodeTime.new]
    rw [Int32.lt_iff_toInt_lt, hzero] at hneg
    by_cases htime : SupportedTime timestamp.seconds.toInt timestamp.nanos.toInt.toNat
    · rw [dif_pos htime]
      constructor
      · intro h
        cases h
        exact ⟨⟨by omega, htime⟩, rfl, by dsimp only; omega⟩
      · rintro ⟨-, hseconds, hnanos⟩
        obtain ⟨seconds, nanos, hsupported⟩ := time
        dsimp only at hseconds hnanos
        subst hseconds
        have hnat : timestamp.nanos.toInt.toNat = nanos := by omega
        subst hnat
        rfl
    · rw [dif_neg htime]
      constructor
      · intro h
        cases h
      · rintro ⟨⟨-, hsupported⟩, -⟩
        exact absurd hsupported htime

/-- The mode and the time a node carries, translated. -/
structure MetadataOf (properties : Option Reapi.NodeProperties) (mode : Option UInt32)
    (mtime : Option NodeTime) : Prop where
  mode : mode = properties.bind fun properties => properties.unixMode
  mtime : Option.Rel TimeOf (properties.bind fun properties => properties.mtime) mtime

theorem nodeMetadata_eq_ok_iff (properties : Option Reapi.NodeProperties)
    (mode : Option UInt32) (mtime : Option NodeTime) :
    nodeMetadata properties = .ok (mode, mtime) ↔
      PropertiesSupported properties ∧ MetadataOf properties mode mtime := by
  cases properties with
  | none =>
      simp only [nodeMetadata, Except.ok.injEq, Prod.mk.injEq]
      constructor
      · rintro ⟨rfl, rfl⟩
        refine ⟨?_, rfl, .none⟩
        intro timestamp htimestamp
        cases htimestamp
      · rintro ⟨-, hmode, hmtime⟩
        cases hmtime
        exact ⟨hmode.symm, rfl⟩
  | some properties =>
      rw [nodeMetadata, Result.bind_eq_ok_iff]
      cases hmtime : properties.mtime with
      | none =>
          constructor
          · rintro ⟨time, htime, h⟩
            cases htime
            cases h
            refine ⟨?_, rfl, ?_⟩
            · intro timestamp htimestamp
              rw [Option.bind_some, hmtime] at htimestamp
              cases htimestamp
            · rw [Option.bind_some, hmtime]
              exact .none
          · rintro ⟨-, hmode, hrel⟩
            rw [Option.bind_some, hmtime] at hrel
            cases hrel
            exact ⟨none, rfl, by rw [hmode]; rfl⟩
      | some timestamp =>
          have hsupported : PropertiesSupported (some properties) ↔
              SupportedTimestamp timestamp := by
            simp only [PropertiesSupported, Option.bind_some, hmtime, Option.mem_def,
              Option.some.injEq, forall_eq']
          rw [hsupported]
          constructor
          · rintro ⟨time, htime, h⟩
            cases h
            obtain ⟨value, hvalue, rfl⟩ := (Result.map_eq_ok_iff _ _ _).mp htime
            obtain ⟨hok, htimeOf⟩ := (nodeTime_eq_ok_iff _ _).mp hvalue
            refine ⟨hok, rfl, ?_⟩
            rw [Option.bind_some, hmtime]
            exact .some htimeOf
          · rintro ⟨hok, hmode, hrel⟩
            rw [Option.bind_some, hmtime] at hrel
            cases hrel with
            | some htimeOf =>
                refine ⟨_, ?_, by rw [hmode]; rfl⟩
                rw [transposed, (nodeTime_eq_ok_iff _ _).mpr ⟨hok, htimeOf⟩]
                rfl

/-- A translated node: its name, its metadata and what it refers to. -/
structure NodeOf (name : String) (properties : Option Reapi.NodeProperties)
    (content : RemoteContent) (child : NewRemoteInode) : Prop where
  name : child.name = name
  metadata : MetadataOf properties child.mode child.mtime
  content : child.content = content

theorem remoteDigest_eq_ok_iff (kind name : String) (digest : Option Reapi.Digest)
    (d : Digest) :
    remoteDigest kind name digest = .ok d ↔
      ∃ wire, digest = some wire ∧ Digest.fromReapi wire = .ok d := by
  cases digest with
  | none => simp [remoteDigest]
  | some wire => simp [remoteDigest]

theorem remoteChild_eq_ok_iff (kind name : String) (digest : Option Reapi.Digest)
    (properties : Option Reapi.NodeProperties) (content : Digest → RemoteContent)
    (child : NewRemoteInode) :
    remoteChild kind name digest properties content = .ok child ↔
      PropertiesSupported properties ∧
        ∃ wire d, digest = some wire ∧ Digest.fromReapi wire = .ok d ∧
          NodeOf name properties (content d) child := by
  rw [remoteChild, Result.bind_eq_ok_iff]
  constructor
  · rintro ⟨⟨mode, mtime⟩, hmetadata, h⟩
    obtain ⟨hsupported, hof⟩ := (nodeMetadata_eq_ok_iff _ _ _).mp hmetadata
    obtain ⟨d, hdigest, h⟩ := (Result.bind_eq_ok_iff _ _ _).mp h
    obtain ⟨wire, hwire, hd⟩ := (remoteDigest_eq_ok_iff _ _ _ _).mp hdigest
    cases h
    exact ⟨hsupported, wire, d, hwire, hd, rfl, hof, rfl⟩
  · rintro ⟨hsupported, wire, d, hwire, hd, hname, hof, hcontent⟩
    refine ⟨_, (nodeMetadata_eq_ok_iff _ _ _).mpr ⟨hsupported, hof⟩, ?_⟩
    dsimp only
    rw [(remoteDigest_eq_ok_iff _ _ _ d).mpr ⟨wire, hwire, hd⟩, Result.ok_bind, ← hname,
      ← hcontent]

theorem fileChild_eq_ok_iff (node : Reapi.FileNode) (child : NewRemoteInode) :
    fileChild node = .ok child ↔ PropertiesSupported node.nodeProperties ∧
      ∃ wire d, node.digest = some wire ∧ Digest.fromReapi wire = .ok d ∧
        NodeOf node.name node.nodeProperties (.file d) child := by
  rw [fileChild_eq, remoteChild_eq_ok_iff]

theorem directoryChild_eq_ok_iff (node : Reapi.DirectoryNode) (child : NewRemoteInode) :
    directoryChild node = .ok child ↔ PropertiesSupported node.nodeProperties ∧
      ∃ wire d, node.digest = some wire ∧ Digest.fromReapi wire = .ok d ∧
        NodeOf node.name node.nodeProperties (.directory d) child := by
  rw [directoryChild_eq, remoteChild_eq_ok_iff]

theorem symlinkChild_eq_ok_iff (node : Reapi.SymlinkNode) (child : NewRemoteInode) :
    symlinkChild node = .ok child ↔ PropertiesSupported node.nodeProperties ∧
      NodeOf node.name node.nodeProperties (.symlink node.target) child := by
  rw [symlinkChild, Result.bind_eq_ok_iff]
  constructor
  · rintro ⟨⟨mode, mtime⟩, hmetadata, h⟩
    obtain ⟨hsupported, hof⟩ := (nodeMetadata_eq_ok_iff _ _ _).mp hmetadata
    cases h
    exact ⟨hsupported, rfl, hof, rfl⟩
  · rintro ⟨hsupported, hname, hof, hcontent⟩
    refine ⟨_, (nodeMetadata_eq_ok_iff _ _ _).mpr ⟨hsupported, hof⟩, ?_⟩
    dsimp only
    rw [← hname, ← hcontent]

theorem exists_metadataOf {properties : Option Reapi.NodeProperties}
    (h : PropertiesSupported properties) : ∃ mode mtime, MetadataOf properties mode mtime := by
  cases hmtime : properties.bind fun properties => properties.mtime with
  | none => exact ⟨_, none, rfl, by rw [hmtime]; exact .none⟩
  | some timestamp =>
      obtain ⟨hnanos, htime⟩ := (supportedTimestamp_iff timestamp).mp (h timestamp hmtime)
      refine ⟨_, some ⟨_, _, htime⟩, rfl, ?_⟩
      rw [hmtime]
      exact .some ⟨rfl, Int.toNat_of_nonneg hnanos⟩

theorem decodedDirectoryChildren_eq_ok_iff (directory : Reapi.Directory)
    (children : List NewRemoteInode) :
    decodedDirectoryChildren directory = .ok children ↔ ∃ files directories symlinks,
      directory.files.mapM fileChild = .ok files ∧
      directory.directories.mapM directoryChild = .ok directories ∧
      directory.symlinks.mapM symlinkChild = .ok symlinks ∧
      children = files ++ directories ++ symlinks := by
  simp only [decodedDirectoryChildren, Result.bind_eq_ok_iff, Except.ok.injEq]
  constructor
  · rintro ⟨files, hfiles, directories, hdirectories, symlinks, hsymlinks, h⟩
    exact ⟨files, directories, symlinks, hfiles, hdirectories, hsymlinks, h.symm⟩
  · rintro ⟨files, directories, symlinks, hfiles, hdirectories, hsymlinks, h⟩
    exact ⟨files, hfiles, directories, hdirectories, symlinks, hsymlinks, h.symm⟩

/-! ### Metadata the later layers check -/

/-- The mode of a node has at most the permission and special bits. -/
def ModeAdmitted (properties : Option Reapi.NodeProperties) : Prop :=
  ∀ mode ∈ properties.bind fun properties => properties.unixMode, mode ≤ 0o7777

/-- What the session and the store check of a decoded directory. -/
structure AdmittedMetadata (directory : Reapi.Directory) : Prop where
  directory_time : ∀ node ∈ directory.directories, PropertiesSupported node.nodeProperties
  file_mode : ∀ node ∈ directory.files, ModeAdmitted node.nodeProperties
  directory_mode : ∀ node ∈ directory.directories, ModeAdmitted node.nodeProperties
  symlink_mode : ∀ node ∈ directory.symlinks, ModeAdmitted node.nodeProperties

theorem translated_nodes {α : Type} {translate : α → Except SessionError NewRemoteInode}
    {name : α → String} {properties : α → Option Reapi.NodeProperties}
    (h : ∀ node child, translate node = .ok child → child.name = name node ∧
      child.mode = (properties node).bind fun properties => properties.unixMode)
    {nodes : List α} {children : List NewRemoteInode}
    (hmap : nodes.mapM translate = .ok children) :
    children.map NewRemoteInode.name = nodes.map name ∧
      ((∀ child ∈ children, ∀ mode, child.mode = some mode → ¬ mode > 0o7777) ↔
        ∀ node ∈ nodes, ModeAdmitted (properties node)) := by
  have hrel := (Result.mapM_eq_ok_iff _ _ _).mp hmap
  clear hmap
  induction hrel with
  | nil => simp
  | cons hnode _ ih =>
      obtain ⟨hname, hmode⟩ := h _ _ hnode
      refine ⟨?_, ?_⟩
      · rw [List.map_cons, List.map_cons, hname, ih.1]
      · rw [List.forall_mem_cons, List.forall_mem_cons, ih.2, hmode]
        simp only [ModeAdmitted, Option.mem_def, gt_iff_lt, UInt32.not_lt]

/-! ### Mountable directories -/

/-- The later layers accept the directory. -/
def Mountable (directory : Reapi.Directory) : Prop :=
  ∃ children, decodedDirectoryChildren directory = .ok children ∧
    validateRemoteChildren children = .ok ()

theorem map_name_children {directory : Reapi.Directory} {children : List NewRemoteInode}
    (h : decodedDirectoryChildren directory = .ok children) :
    children.map NewRemoteInode.name = directoryNames directory ∧
      ((∀ child ∈ children, ∀ mode, child.mode = some mode → ¬ mode > 0o7777) ↔
        (∀ node ∈ directory.files, ModeAdmitted node.nodeProperties) ∧
        (∀ node ∈ directory.directories, ModeAdmitted node.nodeProperties) ∧
        ∀ node ∈ directory.symlinks, ModeAdmitted node.nodeProperties) := by
  obtain ⟨files, directories, symlinks, hfiles, hdirectories, hsymlinks, rfl⟩ :=
    (decodedDirectoryChildren_eq_ok_iff _ _).mp h
  obtain ⟨hfileNames, hfileModes⟩ := translated_nodes
    (fun node child hchild => by
      obtain ⟨-, _, _, -, -, hof⟩ := (fileChild_eq_ok_iff node child).mp hchild
      exact ⟨hof.name, hof.metadata.mode⟩) hfiles
  obtain ⟨hdirectoryNames, hdirectoryModes⟩ := translated_nodes
    (fun node child hchild => by
      obtain ⟨-, _, _, -, -, hof⟩ := (directoryChild_eq_ok_iff node child).mp hchild
      exact ⟨hof.name, hof.metadata.mode⟩) hdirectories
  obtain ⟨hsymlinkNames, hsymlinkModes⟩ := translated_nodes
    (fun node child hchild => by
      obtain ⟨-, hof⟩ := (symlinkChild_eq_ok_iff node child).mp hchild
      exact ⟨hof.name, hof.metadata.mode⟩) hsymlinks
  refine ⟨?_, ?_⟩
  · rw [List.map_append, List.map_append, hfileNames, hdirectoryNames, hsymlinkNames]
    rfl
  · rw [List.forall_mem_append, List.forall_mem_append, hfileModes, hdirectoryModes,
      hsymlinkModes, and_assoc]

/-- A well-formed directory is mountable exactly when the metadata the tree layer
does not look at is admitted. -/
theorem mountable_iff {directory : Reapi.Directory} (hwell : WellFormedDirectory directory) :
    Mountable directory ↔ AdmittedMetadata directory := by
  constructor
  · rintro ⟨children, hchildren, hvalid⟩
    obtain ⟨-, hmodes⟩ := map_name_children hchildren
    obtain ⟨hfiles, hdirectories, hsymlinks⟩ := hmodes.mp
      ((validateRemoteChildren_eq_ok_iff children).mp hvalid).mode_le
    refine ⟨?_, hfiles, hdirectories, hsymlinks⟩
    intro node hnode
    obtain ⟨-, directories, -, -, hmap, -⟩ :=
      (decodedDirectoryChildren_eq_ok_iff _ _).mp hchildren
    obtain ⟨child, -, hchild⟩ := Result.exists_of_forall₂_of_mem
      ((Result.mapM_eq_ok_iff _ _ _).mp hmap) hnode
    exact ((directoryChild_eq_ok_iff node child).mp hchild).1
  · intro h
    have hfiles : ∃ files, directory.files.mapM fileChild = .ok files := by
      refine Result.exists_ok_of_mapM _ _ fun node hnode => ?_
      obtain ⟨wire, hwire, d, hd⟩ := hwell.file_digest node hnode
      obtain ⟨mode, mtime, hof⟩ := exists_metadataOf (hwell.file_time node hnode)
      exact ⟨⟨node.name, mode, mtime, .file d⟩, (fileChild_eq_ok_iff _ _).mpr
        ⟨hwell.file_time node hnode, wire, d, hwire, hd, rfl, hof, rfl⟩⟩
    have hdirectories : ∃ directories,
        directory.directories.mapM directoryChild = .ok directories := by
      refine Result.exists_ok_of_mapM _ _ fun node hnode => ?_
      obtain ⟨wire, hwire, d, hd⟩ := hwell.directory_digest node hnode
      obtain ⟨mode, mtime, hof⟩ := exists_metadataOf (h.directory_time node hnode)
      exact ⟨⟨node.name, mode, mtime, .directory d⟩, (directoryChild_eq_ok_iff _ _).mpr
        ⟨h.directory_time node hnode, wire, d, hwire, hd, rfl, hof, rfl⟩⟩
    have hsymlinks : ∃ symlinks, directory.symlinks.mapM symlinkChild = .ok symlinks := by
      refine Result.exists_ok_of_mapM _ _ fun node hnode => ?_
      obtain ⟨mode, mtime, hof⟩ := exists_metadataOf (hwell.symlink_time node hnode)
      exact ⟨⟨node.name, mode, mtime, .symlink node.target⟩, (symlinkChild_eq_ok_iff _ _).mpr
        ⟨hwell.symlink_time node hnode, rfl, hof, rfl⟩⟩
    obtain ⟨files, hfiles⟩ := hfiles
    obtain ⟨directories, hdirectories⟩ := hdirectories
    obtain ⟨symlinks, hsymlinks⟩ := hsymlinks
    have hchildren := (decodedDirectoryChildren_eq_ok_iff directory _).mpr
      ⟨files, directories, symlinks, hfiles, hdirectories, hsymlinks, rfl⟩
    obtain ⟨hnames, hmodes⟩ := map_name_children hchildren
    refine ⟨_, hchildren, (validateRemoteChildren_eq_ok_iff _).mpr ⟨?_, ?_, ?_⟩⟩
    · intro child hchild
      refine hwell.names_valid child.name ?_
      rw [← hnames]
      exact List.mem_map_of_mem hchild
    · rw [hnames]
      exact hwell.names_nodup
    · exact hmodes.mpr ⟨h.file_mode, h.directory_mode, h.symlink_mode⟩

section Loading

variable [Uuid] [Sha256] [Prost]

/-- Every unloaded directory of a session whose blob these bytes are can be loaded,
unless SQLite fails. -/
def Loads (digest : Digest) (bytes : Bytes) : Prop :=
  ∀ content rootDigest s env sqlite inode stored downloaded, Reached content rootDigest s →
    Honest content env → s.store.inode sqlite inode = .ok (some stored) →
    stored.directoryRemoteDigest = some digest → stored.directoryLoaded = some false →
    env.readBlob digest = .ok (bytes, downloaded) →
      (ensureDirectoryLoaded env s inode).1 = .ok () ∨
        ∃ e, (ensureDirectoryLoaded env s inode).1 = .error e ∧ e.FromSqlite

omit [Uuid] [Sha256] [Prost] in
theorem content_of_directoryRemoteDigest {n : Node} {digest : Digest}
    (h : n.inode.directoryRemoteDigest = some digest) :
    n.remote.content = .directory digest := by
  simp only [Node.inode] at h
  cases hcontent : n.remote.content with
  | directory d =>
      rw [hcontent] at h
      cases h
      rfl
  | file d =>
      rw [hcontent] at h
      cases h
  | symlink target =>
      rw [hcontent] at h
      cases h

omit [Sha256] [Prost] in
theorem exists_node_of_stored {store : SessionStore} {ns : Namespace}
    (h : store.database.Holds ns) (hactive : store.database.Active) {sqlite : Sqlite}
    {inode : InodeId} {stored : StoreInode} {digest : Digest}
    (hstored : store.inode sqlite inode = .ok (some stored))
    (hdigest : stored.directoryRemoteDigest = some digest) :
    ∃ n, ns.find inode = some n ∧ n.remote.content = .directory digest := by
  obtain hok | ⟨e, herror, -⟩ := inode_of_active h hactive sqlite inode
  · rw [hstored, Except.ok.injEq] at hok
    obtain ⟨n, hn, rfl⟩ := Option.map_eq_some_iff.mp hok.symm
    exact ⟨n, hn, content_of_directoryRemoteDigest hdigest⟩
  · rw [hstored] at herror
    cases herror

theorem loads_of_mountable {digest : Digest} {bytes : Bytes} {directory : Reapi.Directory}
    (hdecode : decodeDirectory digest bytes = .ok directory) (h : Mountable directory) :
    Loads digest bytes := by
  intro content rootDigest s env sqlite inode stored downloaded hreached honest hstored hdigest
    _ hread
  obtain ⟨ns, hmounted⟩ := hreached.mounted
  obtain ⟨n, hfind, hcontent⟩ :=
    exists_node_of_stored hmounted.holds hmounted.active hstored hdigest
  obtain ⟨children, hchildren, hvalid⟩ := h
  have hsnapshot : snapshotChildren content digest = some children := by
    have hbytes := honest.blob_ok digest bytes downloaded hread
    simp only [snapshotChildren, hbytes, Option.bind_some, hdecode, hchildren]
    rfl
  obtain ⟨s', ns', hload, -⟩ | ⟨e, herror, hcause⟩ := ensureDirectoryLoaded_cases
    hmounted.holds hmounted.active honest hmounted.refines inode
  · exact .inl (by rw [hload])
  · refine .inr ⟨e, by rw [herror], ?_⟩
    cases hcause with
    | sqlite hsqlite => exact hsqlite
    | missing hmissing =>
        rw [hfind] at hmissing
        cases hmissing
    | kind m hm hkind =>
        rw [hfind, Option.some.injEq] at hm
        rw [← hm, hcontent] at hkind
        exact absurd rfl hkind
    | fetch m d hm hd hfailed =>
        rw [hfind, Option.some.injEq] at hm
        rw [← hm, hcontent, RemoteContent.directory.injEq] at hd
        rw [← hd, hread] at hfailed
        cases hfailed
    | decode m d _ hm hd _ hinvalid =>
        rw [hfind, Option.some.injEq] at hm
        rw [← hm, hcontent, RemoteContent.directory.injEq] at hd
        exact absurd ((validateRemoteChildren_eq_ok_iff children).mp hvalid)
          (hinvalid children (hd ▸ hsnapshot))

/-- A decoded directory is accepted by the later layers, and every session can load
it, exactly when the times of its directory nodes are supported and no mode exceeds
the permission and special bits. -/
theorem decoded_directory_mountable_iff (digest : Digest) (bytes : Bytes)
    (directory : Reapi.Directory) (hdecode : decodeDirectory digest bytes = .ok directory) :
    (Mountable directory ∧ Loads digest bytes) ↔ AdmittedMetadata directory := by
  obtain ⟨-, -, hwell⟩ := (Tree.decodeDirectory_eq_ok_iff _ _ _).mp hdecode
  rw [← mountable_iff hwell]
  exact ⟨fun h => h.1, fun h => ⟨h, loads_of_mountable hdecode h⟩⟩

end Loading

namespace Sample

theorem nested_admitted : AdmittedMetadata Tree.Sample.nested where
  directory_time := by
    intro node hnode timestamp htimestamp
    rw [List.mem_singleton.mp hnode] at htimestamp
    cases htimestamp
    decide
  file_mode := by
    intro node hnode mode hmode
    obtain hfirst | hsecond := List.mem_pair.mp hnode
    · rw [hfirst] at hmode
      cases hmode
      decide
    · rw [hsecond] at hmode
      cases hmode
      decide
  directory_mode := by
    intro node hnode mode hmode
    rw [List.mem_singleton.mp hnode] at hmode
    cases hmode
    decide
  symlink_mode := by
    intro node hnode mode hmode
    rw [List.mem_singleton.mp hnode] at hmode
    cases hmode
    decide

theorem late_not_admitted : ¬ AdmittedMetadata Tree.Sample.late := by
  intro h
  exact absurd (h.directory_time _ (List.mem_singleton_self _) ⟨0, 1000000000⟩ rfl) (by decide)

end Sample

/-- The theorem at a directory with nodes of the three kinds, which is mountable, and at one that
has a directory with a late time, which is not. -/
theorem decoded_directory_mountable_iff_sample :
    letI : Uuid := Sample.uuid
    (letI : Sha256 := Tree.Sample.sha256 Tree.Sample.nestedBlobs
     letI : Prost := Tree.Sample.prost Tree.Sample.nested Tree.Sample.nestedBytes
     decodeDirectory Tree.Sample.nestedDigest Tree.Sample.nestedBytes =
         .ok Tree.Sample.nested ∧
       Mountable Tree.Sample.nested ∧
       Loads Tree.Sample.nestedDigest Tree.Sample.nestedBytes) ∧
    (letI : Sha256 := Tree.Sample.sha256 Tree.Sample.lateBlobs
     letI : Prost := Tree.Sample.prost Tree.Sample.late Tree.Sample.lateBytes
     decodeDirectory Tree.Sample.lateDigest Tree.Sample.lateBytes = .ok Tree.Sample.late ∧
       ¬ (Mountable Tree.Sample.late ∧
         Loads Tree.Sample.lateDigest Tree.Sample.lateBytes)) := by
  let _ : Uuid := Sample.uuid
  constructor
  · let _ : Sha256 := Tree.Sample.sha256 Tree.Sample.nestedBlobs
    let _ : Prost := Tree.Sample.prost Tree.Sample.nested Tree.Sample.nestedBytes
    have hdecode : decodeDirectory Tree.Sample.nestedDigest Tree.Sample.nestedBytes =
        .ok Tree.Sample.nested := by
      decide +kernel
    exact ⟨hdecode, (decoded_directory_mountable_iff _ _ _ hdecode).mpr Sample.nested_admitted⟩
  · let _ : Sha256 := Tree.Sample.sha256 Tree.Sample.lateBlobs
    let _ : Prost := Tree.Sample.prost Tree.Sample.late Tree.Sample.lateBytes
    have hdecode : decodeDirectory Tree.Sample.lateDigest Tree.Sample.lateBytes =
        .ok Tree.Sample.late := by
      decide +kernel
    exact ⟨hdecode, mt (decoded_directory_mountable_iff _ _ _ hdecode).mp
      Sample.late_not_admitted⟩

/-- A directory the tree layer accepts and the session refuses. -/
theorem decoded_late_not_mountable :
    letI : Sha256 := Tree.Sample.sha256 Tree.Sample.lateBlobs
    letI : Prost := Tree.Sample.prost Tree.Sample.late Tree.Sample.lateBytes
    decodeDirectory Tree.Sample.lateDigest Tree.Sample.lateBytes = .ok Tree.Sample.late ∧
      ∃ e, decodedDirectoryChildren Tree.Sample.late = .error e := by
  refine ⟨by decide +kernel, ?_⟩
  cases hchildren : decodedDirectoryChildren Tree.Sample.late with
  | error e => exact ⟨e, rfl⟩
  | ok children =>
      obtain ⟨-, directories, -, -, hmap, -⟩ :=
        (decodedDirectoryChildren_eq_ok_iff _ _).mp hchildren
      obtain ⟨child, -, hchild⟩ := Result.exists_of_forall₂_of_mem
        ((Result.mapM_eq_ok_iff _ _ _).mp hmap) (List.mem_singleton_self _)
      have htime := ((directoryChild_eq_ok_iff _ child).mp hchild).1 ⟨0, 1000000000⟩ rfl
      exact absurd htime (by decide)

end Session

end RemoteFs
