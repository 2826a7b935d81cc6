import RemoteFs.Session.Uploaded
import RemoteFs.Upload.Missing

/-!
# The metadata of mounted directories

The metadata of a directory is encoded twice, in its own message and in the entry its
parent has for it, and a session reads it from the entry. The two agree for every
directory of an uploaded tree. The root has no entry: its inode is created before its
message is read and shows the defaults, whatever the message says.
-/

namespace RemoteFs

namespace Session

open RemoteFs.Tree (decodeDirectory NodeMetadata)
open RemoteFs.Upload (LocalNode LocalTree Metadata UploadOptions Uploadable Unchanged
  HashWorkers FileDigest EncodedDirectoryTree validateOptions scanLocalDirectoryWithOptions
  hashFiles encodeLocalTree encodeLocalTree_rootDigest_eq_merkle insertionOf merkle
  encodedDirectory merkle_directory metadataFor)

namespace Namespace

variable (ns : Namespace)

theorem eq_rootNode {n : Node} (hn : n ∈ ns.nodes) (hid : n.id = .root) :
    n.parent = none ∧ n.remote = SessionStore.newRoot ns.rootDigest := by
  obtain ⟨loaded, rest, hnodes⟩ := ns.root
  have hroot : rootNode ns.rootDigest loaded ∈ ns.nodes := by
    rw [hnodes]
    exact List.mem_cons_self ..
  rw [ns.eq_of_id_eq hn hroot hid]
  exact ⟨rfl, rfl⟩

/-- Induction from the root to every node. -/
theorem node_induction {P : Node → Prop} (hroot : ∀ n ∈ ns.nodes, n.id = .root → P n)
    (hchild : ∀ p ∈ ns.nodes, ∀ n ∈ ns.nodes, n.id ≠ .root → n.parent = some p.id → P p →
      P n) : ∀ n ∈ ns.nodes, P n := by
  have hall : ∀ (k : ℕ) (n : Node), n ∈ ns.nodes → n.id.value.toNat = k → P n := by
    intro k
    induction k using Nat.strong_induction_on with
    | _ k ih =>
        intro n hn hk
        obtain ⟨hid, -⟩ | ⟨hid, hsome, -⟩ := (ns.valid n hn).placed
        · exact hroot n hn hid
        · obtain ⟨parent, hparent⟩ := Option.isSome_iff_exists.mp hsome
          obtain ⟨p, hp, rfl, -, hlt⟩ := ns.parents n hn parent hparent
          have hpos := p.id.pos
          exact hchild p hp n hn hid hparent (ih p.id.value.toNat (by omega) p hp rfl)
  exact fun n hn => hall _ n hn rfl

end Namespace

section Traces

variable [Sha256] [Prost]

/-- A node of the session is the root, or a node of the local tree. -/
def Traces (tree : LocalNode) (n : Node) : Prop :=
  (n.id = .root ∧ n.remote = SessionStore.newRoot (merkle tree)) ∨
    (n.id ≠ .root ∧
      ∃ path name node, (path, node) ∈ LocalNode.walk [] tree ∧ Depicts name node n.remote)

variable {content : Digest → Option Bytes} {options : UploadOptions} {tree : LocalNode}

theorem Traces.directory (hdirectory : ∃ metadata listing entries,
      tree = .directory metadata listing entries) {n : Node} (h : Traces tree n)
    {digest : Digest} (hdigest : n.remote.content = .directory digest) :
    ∃ path metadata listing entries,
      (path, .directory metadata listing entries) ∈ LocalNode.walk [] tree ∧
      digest = merkle (.directory metadata listing entries) ∧
      (n.id = .root → tree = .directory metadata listing entries) ∧
      (n.id ≠ .root → MetadataOf (metadataFor .directory metadata).properties n.remote.mode
        n.remote.mtime) := by
  obtain ⟨hid, hremote⟩ | ⟨hid, path, name, node, hwalk, insertion, hinsertion, hmounts⟩ := h
  · obtain ⟨metadata, listing, entries, rfl⟩ := hdirectory
    rw [hremote] at hdigest
    cases hdigest
    exact ⟨[], metadata, listing, entries, LocalNode.self_mem_walk [] _, rfl, fun _ => rfl,
      fun hne => absurd hid hne⟩
  · rw [hmounts.content] at hdigest
    cases node with
    | directory metadata listing entries =>
        cases hinsertion
        cases hdigest
        refine ⟨path, metadata, listing, entries, hwalk, rfl, fun hroot => absurd hroot hid,
          fun _ => ⟨?_, ?_⟩⟩
        · rw [hmounts.mode, NodeMetadata.properties_unixMode]
          rfl
        · rw [NodeMetadata.properties_mtime]
          exact hmounts.mtime
    | file metadata bytes =>
        cases hinsertion
        cases hdigest
    | symlink metadata target =>
        cases hinsertion
        cases hdigest
    | special metadata kind => cases hinsertion
    | unreadable source => cases hinsertion

/-- Every node of a session that mounts an uploaded tree is a node of the tree. -/
theorem traces_of_refines (hprost : Prost.DecodeInvertsEncode)
    (htree : Uploadable options tree)
    (hdirectory : ∃ metadata listing entries, tree = .directory metadata listing entries)
    (hcontent : HoldsDirectories content tree) {ns : Namespace}
    (hroot : ns.rootDigest = merkle tree) (href : ns.Refines content) :
    ∀ n ∈ ns.nodes, Traces tree n := by
  refine ns.node_induction ?_ ?_
  · intro n hn hid
    refine .inl ⟨hid, ?_⟩
    rw [← hroot]
    exact (ns.eq_rootNode hn hid).2
  · intro p hp n hn hid hparent hp'
    have hloaded := ns.isLoaded_of_parent hn hp hparent
    obtain ⟨digest, hdigest⟩ := content_of_kind hloaded.1
    obtain ⟨path, metadata, listing, entries, hwalk, rfl, -⟩ :=
      hp'.directory hdirectory hdigest
    obtain ⟨children, hchildren, -, -, hentries, -⟩ :=
      snapshotChildren_merkle hprost htree hcontent hwalk
    obtain ⟨children', hchildren', -, hbelow⟩ := href p hp _ hdigest hloaded.2
    rw [hchildren, Option.some.injEq] at hchildren'
    have hmem : n.remote ∈ children := by
      rw [hchildren', ← hbelow]
      refine List.mem_map_of_mem ?_
      rw [Namespace.below, List.mem_filter]
      exact ⟨hn, by simpa using hparent⟩
    obtain ⟨entry, hentry, hdepicts⟩ := hentries n.remote hmem
    exact .inr ⟨hid, path.join entry.1, entry.1, entry.2,
      tree.child_mem_walk [] _ hwalk _ _ _ rfl entry hentry, hdepicts⟩

end Traces

/-! ### What a session reports -/

/-- An inode shows the metadata of a message, with the defaults of directories for
absent values. -/
def Reports (properties : Option Reapi.NodeProperties) (entry : Inode) : Prop :=
  ∃ mode mtime, MetadataOf properties mode mtime ∧
    entry.mode = mode.getD (defaultMode .directory) ∧ entry.mtime = mtime.getD .unixEpoch

/-- The metadata of a local directory that the defaults show. -/
def HasDefaults (metadata : Metadata) : Prop :=
  metadata.mode &&& 0o1777 = 0o555 ∧ metadata.mtime = 0 ∧ metadata.mtimeNsec = 0

instance (metadata : Metadata) : Decidable (HasDefaults metadata) :=
  inferInstanceAs (Decidable (_ ∧ _))

theorem reports_of_metadataOf {properties : Option Reapi.NodeProperties} {n : Node}
    (hkind : n.remote.content.kind = .directory)
    (h : MetadataOf properties n.remote.mode n.remote.mtime) :
    Reports properties (projectInode n.inode) := by
  refine ⟨n.remote.mode, n.remote.mtime, h, ?_, rfl⟩
  simp only [projectInode, Node.inode, hkind]

theorem masked_mode (mode : UInt32) :
    mode &&& 0o7777 &&& Tree.NodeKind.modeMask .directory = mode &&& 0o1777 := by
  rw [UInt32.and_assoc]
  rfl

theorem reports_root_iff {rootDigest : Digest} {n : Node} {metadata : Metadata}
    (hsupported : metadata.TimeSupported)
    (hremote : n.remote = SessionStore.newRoot rootDigest) :
    Reports (metadataFor .directory metadata).properties (projectInode n.inode) ↔
      HasDefaults metadata := by
  obtain ⟨-, hcast⟩ := hsupported.toInt_nsec
  have hmode : (projectInode n.inode).mode = 0o555 := by
    simp [projectInode, Node.inode, hremote, SessionStore.newRoot, RemoteContent.kind,
      defaultMode]
  have hmtime : (projectInode n.inode).mtime = .unixEpoch := by
    simp [projectInode, Node.inode, hremote, SessionStore.newRoot]
  have hepoch : TimeOf ⟨metadata.mtime, metadata.mtimeNsec.toInt32⟩ .unixEpoch ↔
      metadata.mtime = 0 ∧ metadata.mtimeNsec = 0 := by
    have hseconds : (0 : Int64).toInt = 0 := by decide
    simp only [TimeOf, NodeTime.unixEpoch, hcast, ← Int64.toInt_inj, hseconds, Nat.cast_zero,
      eq_comm]
  constructor
  · rintro ⟨mode, mtime, hof, hmode', hmtime'⟩
    have hmodeOf := hof.mode
    have hmtimeOf := hof.mtime
    rw [NodeMetadata.properties_unixMode] at hmodeOf
    rw [NodeMetadata.properties_mtime] at hmtimeOf
    rw [hmode, hmodeOf] at hmode'
    cases hmtimeOf with
    | some htime =>
        rw [hmtime] at hmtime'
        obtain rfl : NodeTime.unixEpoch = _ := hmtime'
        refine ⟨?_, hepoch.mp htime⟩
        rw [← masked_mode]
        exact hmode'.symm
  · rintro ⟨hmode', htime⟩
    refine ⟨some 0o555, some .unixEpoch, ⟨?_, ?_⟩, hmode, hmtime⟩
    · rw [NodeMetadata.properties_unixMode, ← hmode', ← masked_mode]
      rfl
    · rw [NodeMetadata.properties_mtime]
      exact .some (hepoch.mpr htime)

section Session

variable [Uuid]

theorem getInode_eq_ok {s : Session} {ns : Namespace} (h : s.store.database.Holds ns)
    (hactive : s.store.database.Active) {n : Node} (hn : n ∈ ns.nodes) {env : Surroundings}
    {entry : Inode} (hentry : getInode env s n.id = .ok entry) :
    entry = projectInode n.inode := by
  have hfind : ns.find n.id = some n := (ns.find_eq_some_iff n.id n).mpr ⟨hn, rfl⟩
  obtain hok | ⟨e, herror, -⟩ := inode_of_active h hactive env.inodeSqlite n.id
  · rw [getInode, getVisibleInode, hok, hfind] at hentry
    exact (Except.ok.inj hentry).symm
  · rw [getInode, getVisibleInode, herror] at hentry
    cases hentry

variable [Sha256] [Prost]

theorem Mounted.reports_iff {content : Digest → Option Bytes} {options : UploadOptions}
    {tree : LocalNode} {metadata : Metadata} {listing : Option IoError}
    {entries : List (OsStr × LocalNode)} {s : Session} {ns : Namespace} {n : Node}
    {digest : Digest} (hprost : Prost.DecodeInvertsEncode)
    (hroot : tree = .directory metadata listing entries) (htree : Uploadable options tree)
    (hheld : HoldsDirectories content tree) (h : Mounted content (merkle tree) s ns)
    (hn : n ∈ ns.nodes) (hdigest : n.remote.content = .directory digest) :
    ∃ bytes directory, content digest = some bytes ∧
      decodeDirectory digest bytes = .ok directory ∧
      ∀ env entry, getInode env s n.id = .ok entry →
        (Reports directory.nodeProperties entry ↔ n.id ≠ .root ∨ HasDefaults metadata) := by
  have hdirectory : ∃ metadata listing entries, tree = .directory metadata listing entries :=
    ⟨metadata, listing, entries, hroot⟩
  obtain ⟨path, metadata', listing', entries', hwalk, rfl, hsame, hcarried⟩ :=
    (traces_of_refines hprost htree hdirectory hheld h.root h.refines n hn).directory
      hdirectory hdigest
  have hup := LocalNode.uploadable_of_mem_walk options tree htree [] _ hwalk
  have hbytes := hheld (path, metadata', entries')
    ((tree.mem_directories_iff _).mpr ⟨listing', hwalk⟩)
  have hdecode := decodeDirectory_encodedDirectory hprost hup
  rw [merkle_directory]
  refine ⟨_, _, hbytes, hdecode, ?_⟩
  intro env entry hentry
  rw [getInode_eq_ok h.holds h.active hn hentry]
  change Reports (metadataFor .directory metadata').properties _ ↔ _
  by_cases hid : n.id = .root
  · have hlocal := hsame hid
    rw [hroot] at hlocal
    cases hlocal
    rw [reports_root_iff ((Upload.uploadable_directory_iff options _ _ _).mp hup).1
      (ns.eq_rootNode hn hid).2]
    exact ⟨.inr, fun h => h.resolve_left (not_not.mpr hid)⟩
  · have hkind : n.remote.content.kind = .directory := by
      rw [hdigest]
      rfl
    exact ⟨fun _ => .inl hid, fun _ => reports_of_metadataOf hkind (hcarried hid)⟩

end Session

/-- For every uploaded tree, every state of a session that mounts it and every inode with
a directory: the directory is in the store, and the inode shows the metadata of its
message exactly when it is not the root or the metadata of the root are the defaults. -/
theorem directory_metadata_reported_iff [Uuid] [Sha256] [Prost]
    (hprost : Prost.DecodeInvertsEncode) (options : UploadOptions)
    (hoptions : validateOptions options = .ok ()) (root : PathBuf) (tree : LocalNode)
    (metadata : Metadata) (listing : Option IoError) (entries : List (OsStr × LocalNode))
    (hroot : tree = .directory metadata listing entries) (htree : Uploadable options tree)
    (disk : Disk) (hdisk : Unchanged disk root tree) (scanned : LocalTree)
    (hscan : scanLocalDirectoryWithOptions root tree options = .ok scanned)
    (workers : HashWorkers)
    (hworkers : workers.completion.Perm (List.range scanned.files.length))
    (fileDigests : List FileDigest)
    (hhash : hashFiles disk workers scanned.files options = .ok fileDigests)
    (encoded : EncodedDirectoryTree)
    (hencode : encodeLocalTree scanned fileDigests = .ok encoded)
    (content : Digest → Option Bytes)
    (hcontent : ∀ directory ∈ encoded.directories,
      content directory.digest = some directory.bytes)
    (s : Session) (hreached : Reached content encoded.rootDigest s) (sqlite : Sqlite)
    (inode : InodeId) (stored : StoreInode) (digest : Digest)
    (hstored : s.store.inode sqlite inode = .ok (some stored))
    (hdigest : stored.directoryRemoteDigest = some digest) :
    ∃ bytes directory, content digest = some bytes ∧
      decodeDirectory digest bytes = .ok directory ∧
      ∀ env entry, getInode env s inode = .ok entry →
        (Reports directory.nodeProperties entry ↔ inode ≠ .root ∨ HasDefaults metadata) := by
  obtain ⟨scanned', hscan', hencoded⟩ := encodeLocalTree_rootDigest_eq_merkle options hoptions
    root tree tree metadata listing entries hroot htree rfl disk hdisk
  rw [hscan, Except.ok.injEq] at hscan'
  subst hscan'
  obtain ⟨fileDigests', encoded', hhash', hencode', hmerkle, hdirectories⟩ :=
    hencoded workers hworkers
  rw [hhash, Except.ok.injEq] at hhash'
  subst hhash'
  rw [hencode, Except.ok.injEq] at hencode'
  subst hencode'
  have hheld : HoldsDirectories content tree := by
    intro directory hdirectory
    exact hcontent _ (hdirectories.mem_iff.mpr (List.mem_map_of_mem hdirectory))
  rw [hmerkle] at hreached
  obtain ⟨ns, hmounted⟩ := hreached.mounted
  obtain ⟨n, hfind, hkind⟩ :=
    exists_node_of_stored hmounted.holds hmounted.active hstored hdigest
  obtain ⟨hn, rfl⟩ := (ns.find_eq_some_iff inode n).mp hfind
  exact hmounted.reports_iff hprost hroot htree hheld hn hkind

theorem stored_root_of_create [Uuid] {sqlite : Sqlite} {databasePath : PathBuf}
    {sessionId : String} {daemonPid : UInt32} {rootDigest : Digest} {mountpoint : PathBuf}
    {clock : ℤ} {store : SessionStore}
    (h : SessionStore.create sqlite databasePath sessionId daemonPid rootDigest mountpoint
      clock = .ok store) (reading : Sqlite) (hquiet : reading.Quiet) :
    ∃ stored, store.inode reading .root = .ok (some stored) ∧
      stored.directoryRemoteDigest = some rootDigest := by
  obtain ⟨hholds, hactive⟩ := create_holds h
  obtain hstored | ⟨e, -, -, hloud⟩ := inode_of_active hholds hactive reading .root
  · exact ⟨_, hstored, rfl⟩
  · exact absurd hquiet hloud

/-- The theorem at the root of the sample tree. -/
theorem directory_metadata_reported_iff_sample :
    letI : Uuid := Sample.uuid
    letI : Sha256 := Tree.Sample.sha256 Tree.Sample.blobs
    letI : Prost := Prost.prescribed Tree.Sample.messages
    ∃ s bytes directory, Reached Sample.content Upload.Sample.encoded.rootDigest s ∧
      Sample.content Upload.Sample.rootDigest = some bytes ∧
      decodeDirectory Upload.Sample.rootDigest bytes = .ok directory ∧
      ∀ env entry, getInode env s .root = .ok entry →
        (Reports directory.nodeProperties entry ↔
          InodeId.root ≠ .root ∨ HasDefaults Upload.Sample.rootMetadata) := by
  let _ : Uuid := Sample.uuid
  let _ : Sha256 := Tree.Sample.sha256 Tree.Sample.blobs
  let _ : Prost := Prost.prescribed Tree.Sample.messages
  have hnew : ∃ store, SessionStore.create Sample.quiet [.utf8 "session.db"]
      "67e55044-10b1-426f-9247-bb680e5fe0c8" 7 Upload.Sample.rootDigest
      [.utf8 "", .utf8 "mnt"] 3 = .ok store := ⟨_, rfl⟩
  obtain ⟨store, hcreate⟩ := hnew
  obtain ⟨stored, hstored, hdigest⟩ := stored_root_of_create hcreate Sample.quiet fun _ => rfl
  have hreached : Reached Sample.content Upload.Sample.encoded.rootDigest
      (opened Upload.Sample.rootDigest store) :=
    ⟨_, _, _, _, _, _, store, hcreate, [], fun op hop => absurd hop List.not_mem_nil, rfl⟩
  have hcontent : ∀ directory ∈ Upload.Sample.encoded.directories,
      Sample.content directory.digest = some directory.bytes := by
    intro directory hdirectory
    rw [List.mem_singleton.mp hdirectory]
    decide
  obtain ⟨bytes, directory, hheld, hdecode, hreports⟩ := directory_metadata_reported_iff
    Tree.Sample.prescribes_messages.decodeInvertsEncode
    Upload.Sample.options rfl Upload.Sample.root Upload.Sample.tree _ _ _ rfl
    Upload.Sample.tree_uploadable Upload.Sample.disk Upload.Sample.disk_unchanged
    Upload.Sample.scanned rfl Upload.Sample.workers (List.Perm.refl _)
    Upload.Sample.fileDigests Upload.Sample.hashFiles_eq Upload.Sample.encoded
    Upload.Sample.encodeLocalTree_eq Sample.content hcontent _ hreached Sample.quiet .root
    stored Upload.Sample.rootDigest hstored hdigest
  exact ⟨_, bytes, directory, hreached, hheld, hdecode, hreports⟩

/-- The root of the sample tree has mode 0755 and a time seven seconds after the epoch;
mounted and loaded, it shows mode 0555 and the epoch. -/
theorem root_metadata_not_reported :
    letI : Uuid := Sample.uuid
    letI : Sha256 := Sample.sha256
    letI : Prost := Sample.prost
    ∃ s entry,
      scanLocalDirectoryWithOptions Upload.Sample.root Upload.Sample.tree
        Upload.Sample.options = .ok Upload.Sample.scanned ∧
      hashFiles Upload.Sample.disk Upload.Sample.workers Upload.Sample.scanned.files
        Upload.Sample.options = .ok Upload.Sample.fileDigests ∧
      encodeLocalTree Upload.Sample.scanned Upload.Sample.fileDigests =
        .ok Upload.Sample.encoded ∧
      Reached Sample.content Upload.Sample.encoded.rootDigest s ∧
      (s.store.inode Sample.quiet .root).map (fun found =>
          found.map fun stored => (stored.directoryRemoteDigest, stored.directoryLoaded)) =
        .ok (some (some Upload.Sample.rootDigest, some true)) ∧
      Sample.content Upload.Sample.rootDigest = some Tree.Sample.bytes ∧
      decodeDirectory Upload.Sample.rootDigest Tree.Sample.bytes =
        .ok Tree.Sample.directory ∧
      getInode (Sample.surroundings Sample.content) s .root = .ok entry ∧
      ¬ Reports Tree.Sample.directory.nodeProperties entry := by
  let _ : Uuid := Sample.uuid
  let _ : Sha256 := Sample.sha256
  let _ : Prost := Sample.prost
  have hrun : ∃ store s, SessionStore.create Sample.quiet [.utf8 "session.db"]
      "67e55044-10b1-426f-9247-bb680e5fe0c8" 7 Upload.Sample.rootDigest
      [.utf8 "", .utf8 "mnt"] 3 = .ok store ∧
      Transition.run (fun s op => some (Session.after s op))
        (opened Upload.Sample.rootDigest store) (Sample.listings []) = some s ∧
      (s.store.inode Sample.quiet .root).map (fun found =>
          found.map fun stored => (stored.directoryRemoteDigest, stored.directoryLoaded)) =
        .ok (some (some Upload.Sample.rootDigest, some true)) ∧
      (getInode (Sample.surroundings Sample.content) s .root).map Inode.mode = .ok 0o555 :=
    ⟨_, _, rfl, Transition.run_total Session.after _ _, by decide +kernel⟩
  obtain ⟨store, s, hcreate, hrun, hloaded, hmode⟩ := hrun
  obtain ⟨entry, hentry, hmode⟩ := (Result.map_eq_ok_iff _ _ _).mp hmode
  refine ⟨s, entry, ?_, rfl, rfl, ?_, hloaded, by decide +kernel, by decide +kernel, hentry,
    ?_⟩
  · rfl
  · exact ⟨_, _, _, _, _, _, store, hcreate, Sample.listings [], Sample.listings_honest [],
      hrun⟩
  · rintro ⟨mode, mtime, hof, hshown, -⟩
    rw [hof.mode, hmode] at hshown
    exact absurd hshown (by decide)

end Session

end RemoteFs
