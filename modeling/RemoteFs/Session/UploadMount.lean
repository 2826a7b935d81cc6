import RemoteFs.Fuse.Attributes
import RemoteFs.Session.Uploaded
import RemoteFs.Upload.Pipeline

/-!
# Upload, then mount

A path is resolved in a session by one lookup for each of its names, each with its own
surroundings. In a session on the root digest of an uploaded tree this finds exactly the
paths of the tree, and the inode it finds shows the node of the tree: its kind, its
content, its metadata as FUSE reports them and, for a directory, the names of its entries.

`Locates` is what the induction along a path carries: the parent inode of the next lookup
stands for a node of the tree.
-/

namespace RemoteFs

open SortBy

/-! ### Paths of a local tree -/

namespace Upload

namespace LocalNode

/-- The nodes an upload keeps: directories, regular files and symlinks. -/
def isKept : LocalNode → Bool
  | .file _ _ => true
  | .directory _ _ _ => true
  | .symlink _ _ => true
  | .special _ _ => false
  | .unreadable _ => false

def child (name : String) : LocalNode → Option LocalNode
  | .directory _ _ entries =>
      (entries.find? fun entry => entry.1 = .utf8 name ∧ entry.2.isKept).map Prod.snd
  | .file _ _ => none
  | .symlink _ _ => none
  | .special _ _ => none
  | .unreadable _ => none

def resolve : LocalNode → List String → Option LocalNode
  | node, [] => some node
  | node, name :: path => (node.child name).bind fun child => child.resolve path

/-- The names of the entries of a directory, in bytewise order. -/
def entryNames (entries : List (OsStr × LocalNode)) : List String :=
  sortBy nameKey ((entries.filter fun entry => entry.2.isKept).map fun entry =>
    entry.1.display)

theorem child_eq_some_iff {options : UploadOptions} {metadata : Metadata}
    {listing : Option IoError} {entries : List (OsStr × LocalNode)}
    (h : Uploadable options (.directory metadata listing entries)) (name : String)
    (node : LocalNode) :
    child name (.directory metadata listing entries) = some node ↔
      (.utf8 name, node) ∈ entries ∧ node.isKept := by
  obtain ⟨-, -, hnodup, -⟩ := (uploadable_directory_iff options _ _ _).mp h
  rw [child, Option.map_eq_some_iff]
  constructor
  · rintro ⟨entry, hfind, rfl⟩
    have hentry := List.mem_of_find?_eq_some hfind
    have hfound := List.find?_some hfind
    obtain ⟨hname, hkept⟩ := of_decide_eq_true hfound
    rw [← hname]
    exact ⟨hentry, hkept⟩
  · rintro ⟨hmem, hkept⟩
    have hsome : (entries.find? fun entry => entry.1 = .utf8 name ∧ entry.2.isKept).isSome := by
      rw [List.find?_isSome]
      exact ⟨(.utf8 name, node), hmem, by simp [hkept]⟩
    obtain ⟨entry, hfind⟩ := Option.isSome_iff_exists.mp hsome
    refine ⟨entry, hfind, ?_⟩
    have hentry := List.mem_of_find?_eq_some hfind
    have hfound := List.find?_some hfind
    obtain ⟨hname, -⟩ := of_decide_eq_true hfound
    exact congrArg Prod.snd (List.inj_on_of_nodup_map hnodup hentry hmem hname)

end LocalNode

theorem insertionOf_isSome (name : OsStr) (node : LocalNode) (digest : Digest) :
    (insertionOf name node digest).isSome = node.isKept := by
  cases node <;> rfl

theorem merkleEntries_names [Sha256] [Prost] (entries : List (OsStr × LocalNode)) :
    (merkleEntries entries).map Tree.Insertion.name =
      (entries.filter fun entry => entry.2.isKept).map fun entry => entry.1.display := by
  induction entries with
  | nil => simp [merkleEntries]
  | cons entry rest ih =>
      have hsome := insertionOf_isSome entry.1 entry.2 (merkle entry.2)
      rw [merkleEntries, List.map_append, ih, List.filter_cons]
      cases hinsertion : insertionOf entry.1 entry.2 (merkle entry.2) with
      | none =>
          rw [hinsertion] at hsome
          rw [if_neg (by rw [← hsome]; decide)]
          rfl
      | some insertion =>
          rw [hinsertion] at hsome
          rw [if_pos (by rw [← hsome]; rfl), List.map_cons,
            ← insertionOf_name _ _ _ _ hinsertion]
          rfl

end Upload

/-! ### Resolving a path in a session -/

namespace Session

open RemoteFs.Tree (NodeKind ValidName)
open RemoteFs.Upload (LocalNode Metadata UploadOptions UploadSummary Uploadable Unchanged
  HashWorkers CollisionFree TreeBlob Sources insertionOf insertionOf_name insertionOf_isSome
  encodedDirectory merkle merkleEntries merkleEntries_names metadataFor targetText
  uploadable_directory_iff scanLocalDirectoryWithOptions uploadLocalDirectory
  uploadLocalDirectory_holds)

section Resolve

variable [Uuid] [Sha256] [Prost]

/-- Resolve a path by successive lookups, each with what surrounds it. -/
def resolve (s : Session) (parent : InodeId) (step : Surroundings × String) :
    List (Surroundings × String) → Except SessionError Inode × Session
  | [] => lookupChild step.1 s parent step.2
  | next :: rest =>
      match lookupChild step.1 s parent step.2 with
      | (.error e, s) => (.error e, s)
      | (.ok entry, s) => resolve s entry.inode next rest

end Resolve

section Located

variable [Sha256] [Prost]

def localContent : LocalNode → Option RemoteContent
  | .file metadata bytes => some (.file (merkle (.file metadata bytes)))
  | .directory metadata listing entries =>
      some (.directory (merkle (.directory metadata listing entries)))
  | .symlink _ target => some (.symlink (targetText target))
  | .special _ _ => none
  | .unreadable _ => none

theorem Depicts.localContent {name : OsStr} {node : LocalNode} {remote : NewRemoteInode}
    (h : Depicts name node remote) : localContent node = some remote.content := by
  obtain ⟨insertion, hinsertion, hmounts⟩ := h
  rw [hmounts.content]
  cases node <;> cases hinsertion <;> rfl

theorem eq_directory_of_localContent {node : LocalNode} {digest : Digest}
    (h : localContent node = some (.directory digest)) :
    ∃ metadata listing entries, node = .directory metadata listing entries ∧
      digest = merkle node := by
  cases node with
  | directory metadata listing entries =>
      cases h
      exact ⟨metadata, listing, entries, rfl, rfl⟩
  | file metadata bytes => cases h
  | symlink metadata target => cases h
  | special metadata kind => cases h
  | unreadable source => cases h

variable [Uuid]

/-- The inode of a mounted session stands for a node of the tree. -/
structure Locates (content : Digest → Option Bytes) (tree : LocalNode) (s : Session)
    (ns : Namespace) (inode : InodeId) (n : Node) (node : LocalNode) : Prop where
  mounted : Mounted content (merkle tree) s ns
  find_eq : ns.find inode = some n
  walked : ∃ path, (path, node) ∈ LocalNode.walk [] tree
  content_eq : localContent node = some n.remote.content

variable {content : Digest → Option Bytes} {options : UploadOptions} {tree : LocalNode}
  (hprost : Prost.DecodeInvertsEncode) (htree : Uploadable options tree)
  (hcontent : HoldsDirectories content tree) {s : Session} {ns : Namespace}
  {inode : InodeId} {n : Node} {node : LocalNode} {env : Surroundings}

include hprost htree hcontent

/-- The children a located directory loads, and the entry each of them depicts. -/
theorem Locates.loadAnswer {metadata : Metadata} {listing : Option IoError}
    {entries : List (OsStr × LocalNode)}
    (h : Locates content tree s ns inode n (.directory metadata listing entries)) :
    ∃ children, loadAnswer content n.remote = .ok children ∧
      (children.map NewRemoteInode.name).Perm
        ((merkleEntries entries).map Tree.Insertion.name) ∧
      (∀ child ∈ children, ∃ entry ∈ entries, Depicts entry.1 entry.2 child) ∧
      ∀ entry ∈ entries, ∀ insertion,
        insertionOf entry.1 entry.2 (merkle entry.2) = some insertion →
        ∃ child ∈ children, Mounts insertion child := by
  obtain ⟨path, hwalk⟩ := h.walked
  obtain ⟨children, hchildren, hvalid, hnames, hdepicts, hmounts⟩ :=
    snapshotChildren_merkle hprost htree hcontent hwalk
  have hdigest := Option.some.inj h.content_eq
  exact ⟨children, loadAnswer_eq_ok hdigest.symm hchildren hvalid, hnames, hdepicts, hmounts⟩

theorem Locates.lookup_ok (h : Locates content tree s ns inode n node)
    (honest : Honest content env) {name : String} {entry : Inode} {s' : Session}
    (hlookup : lookupChild env s inode name = (.ok entry, s')) :
    ∃ child ns' c, node.child name = some child ∧
      Locates content tree s' ns' entry.inode c child ∧ entry = projectInode c.inode ∧
      Depicts (.utf8 name) child c.remote := by
  obtain ⟨ns', m, c, h', hgrows, hm, hmid, hloaded, hchild, rfl⟩ :=
    h.mounted.lookupChild_eq_ok honest hlookup
  obtain ⟨hn, hid⟩ := (ns.find_eq_some_iff inode n).mp h.find_eq
  have hremote := hgrows.remote_eq hn hm (hmid.trans hid.symm)
  obtain ⟨digest, hdigest⟩ := content_of_kind hloaded.1
  have hlocal := h.content_eq
  rw [← hremote, hdigest] at hlocal
  obtain ⟨metadata, listing, entries, rfl, -⟩ := eq_directory_of_localContent hlocal
  obtain ⟨path, hwalk⟩ := h.walked
  have hup := LocalNode.uploadable_of_mem_walk options tree htree [] _ hwalk
  obtain ⟨-, -, -, hentries⟩ := (uploadable_directory_iff options _ _ _).mp hup
  -- the child row is one of the children of the message
  obtain ⟨children, hanswer, -, hdepicts, -⟩ := h.loadAnswer hprost htree hcontent
  obtain ⟨hc, hparent, rfl⟩ := ns'.of_child_eq_some hchild
  have hmem : c.remote ∈ children := by
    obtain ⟨children', hanswer', -, -, hbelow⟩ := map_remote_children h'.refines hm hloaded
    rw [hremote, hanswer, Except.ok.injEq] at hanswer'
    rw [hanswer', ← hbelow, hmid]
    refine List.mem_map_of_mem (List.mem_filter.mpr ⟨hc, ?_⟩)
    simpa using hparent
  obtain ⟨item, hitem, insertion, hinsertion, hmounts⟩ := hdepicts c.remote hmem
  have hitemDepicts : Depicts item.1 item.2 c.remote := ⟨insertion, hinsertion, hmounts⟩
  obtain ⟨text, htext, -⟩ := (hentries item hitem).1
  have hname : item.1 = .utf8 c.remote.name := by
    rw [hmounts.name, insertionOf_name _ _ _ _ hinsertion, htext]
    rfl
  have hkept : item.2.isKept = true := by
    rw [← insertionOf_isSome item.1 item.2 (merkle item.2), hinsertion]
    rfl
  rw [← hname]
  refine ⟨item.2, ns', c, ?_, ⟨h', (ns'.find_eq_some_iff _ _).mpr ⟨hc, rfl⟩, ?_, ?_⟩, rfl,
    hitemDepicts⟩
  · exact (LocalNode.child_eq_some_iff hup _ _).mpr ⟨hname ▸ hitem, hkept⟩
  · exact ⟨_, tree.child_mem_walk [] _ hwalk _ _ _ rfl item hitem⟩
  · exact hitemDepicts.localContent

theorem Locates.lookup_error (h : Locates content tree s ns inode n node)
    (honest : Honest content env) (hcomplete : Complete content env) {name : String}
    {e : SessionError} (hlookup : (lookupChild env s inode name).1 = .error e) :
    e.FromSqlite ∨ node.child name = none := by
  have hagrees := lookupChild_agrees h.mounted.holds h.mounted.active honest h.mounted.refines
    h.find_eq name
  rw [hlookup] at hagrees
  cases hchild : node.child name with
  | none => exact .inr rfl
  | some child =>
      left
      cases node with
      | directory metadata listing entries =>
          obtain ⟨path, hwalk⟩ := h.walked
          have hup := LocalNode.uploadable_of_mem_walk options tree htree [] _ hwalk
          obtain ⟨hitem, hkept⟩ := (LocalNode.child_eq_some_iff hup name child).mp hchild
          obtain ⟨-, -, -, hentries⟩ := (uploadable_directory_iff options _ _ _).mp hup
          obtain ⟨text, htext, hvalid⟩ := (hentries _ hitem).1
          cases htext
          rw [← insertionOf_isSome (.utf8 name) child (merkle child)] at hkept
          obtain ⟨insertion, hinsertion⟩ := Option.isSome_iff_exists.mp hkept
          obtain ⟨children, hanswer, -, -, hmounts⟩ := h.loadAnswer hprost htree hcontent
          obtain ⟨c, hc, hmount⟩ := hmounts _ hitem insertion hinsertion
          have hname : c.name = name :=
            hmount.name.trans (insertionOf_name _ _ _ _ hinsertion)
          have hsome : (children.find? fun child => child.name = name).isSome := by
            rw [List.find?_isSome]
            exact ⟨c, hc, by simp [hname]⟩
          obtain ⟨found, hfound⟩ := Option.isSome_iff_exists.mp hsome
          have hlookupAnswer : lookupAnswer content n.remote name = .ok found.view := by
            rw [lookupAnswer, hanswer, Result.ok_bind, if_pos hvalid, hfound]
          rw [hlookupAnswer] at hagrees
          cases hagrees with
          | error _ herror => cases herror
          | sqlite _ hsqlite => exact hsqlite
          | fetch _ hincomplete => exact absurd hcomplete hincomplete
      | file metadata bytes => cases hchild
      | symlink metadata target => cases hchild
      | special metadata kind => cases hchild
      | unreadable source => cases hchild

theorem Locates.resolve_ok (rest : List (Surroundings × String)) :
    ∀ {s : Session} {ns : Namespace} {inode : InodeId} {n : Node} {node : LocalNode}
      {step : Surroundings × String} {entry : Inode} {s' : Session},
      Locates content tree s ns inode n node →
      (∀ step' ∈ step :: rest, Honest content step'.1) →
      resolve s inode step rest = (.ok entry, s') →
      ∃ child ns' c name, node.resolve ((step :: rest).map Prod.snd) = some child ∧
        Locates content tree s' ns' entry.inode c child ∧ entry = projectInode c.inode ∧
        Depicts name child c.remote := by
  induction rest with
  | nil =>
      intro s ns inode n node step entry s' h honest hresolve
      obtain ⟨child, ns', c, hchild, hlocates, hentry, hdepicts⟩ :=
        h.lookup_ok hprost htree hcontent (honest step List.mem_cons_self) hresolve
      refine ⟨child, ns', c, _, ?_, hlocates, hentry, hdepicts⟩
      rw [List.map_singleton, LocalNode.resolve, hchild]
      rfl
  | cons next rest ih =>
      intro s ns inode n node step entry s' h honest hresolve
      rw [resolve] at hresolve
      split at hresolve
      · cases hresolve
      · next found t hlookup =>
          obtain ⟨child, ns', c, hchild, hlocates, -, -⟩ :=
            h.lookup_ok hprost htree hcontent (honest step List.mem_cons_self) hlookup
          obtain ⟨last, ns'', d, name, hlast, hrest⟩ := ih hlocates
            (fun step' hstep' => honest step' (List.mem_cons_of_mem _ hstep')) hresolve
          refine ⟨last, ns'', d, name, ?_, hrest⟩
          rw [List.map_cons, LocalNode.resolve, hchild]
          exact hlast

theorem Locates.resolve_error (rest : List (Surroundings × String)) :
    ∀ {s : Session} {ns : Namespace} {inode : InodeId} {n : Node} {node : LocalNode}
      {step : Surroundings × String} {e : SessionError},
      Locates content tree s ns inode n node →
      (∀ step' ∈ step :: rest, Honest content step'.1 ∧ Complete content step'.1) →
      (resolve s inode step rest).1 = .error e →
      e.FromSqlite ∨ node.resolve ((step :: rest).map Prod.snd) = none := by
  induction rest with
  | nil =>
      intro s ns inode n node step e h hreliable hresolve
      obtain ⟨honest, hcomplete⟩ := hreliable step List.mem_cons_self
      refine (h.lookup_error hprost htree hcontent honest hcomplete hresolve).imp_right ?_
      intro hnone
      rw [List.map_singleton, LocalNode.resolve, hnone]
      rfl
  | cons next rest ih =>
      intro s ns inode n node step e h hreliable hresolve
      obtain ⟨honest, hcomplete⟩ := hreliable step List.mem_cons_self
      rw [List.map_cons, LocalNode.resolve]
      rw [resolve] at hresolve
      split at hresolve
      · next found t hlookup =>
          have hfailed : (lookupChild step.1 s inode step.2).1 = .error e := by
            rw [hlookup]
            exact hresolve
          refine (h.lookup_error hprost htree hcontent honest hcomplete hfailed).imp_right ?_
          intro hnone
          rw [hnone]
          rfl
      · next found t hlookup =>
          obtain ⟨child, ns', c, hchild, hlocates, -, -⟩ :=
            h.lookup_ok hprost htree hcontent honest hlookup
          rw [hchild]
          exact ih hlocates
            (fun step' hstep' => hreliable step' (List.mem_cons_of_mem _ hstep')) hresolve

end Located

/-! ### What a client sees -/

section Shows

/-- The metadata of a local node, as FUSE reports them. -/
structure ShowsMetadata (kind : NodeKind) (metadata : Metadata) (entry : Inode) : Prop where
  kind_eq : entry.kind = kind
  attr_kind : ∀ uid gid, (Fuse.fileAttr uid gid entry).kind = Fuse.fileType kind
  attr_perm : ∀ uid gid, (Fuse.fileAttr uid gid entry).perm =
    (metadata.mode &&& kind.modeMask).toUInt16
  attr_mtime : ∀ uid gid, (Fuse.fileAttr uid gid entry).mtime =
    ⟨metadata.mtime.toInt * 1000000000 + metadata.mtimeNsec.toInt⟩

/-- The masks of the uploader, the session and FUSE, in a row. -/
theorem masked_permissions (mode : UInt32) (kind : NodeKind) :
    mode &&& 0o7777 &&& kind.modeMask &&& 0o7777 = mode &&& kind.modeMask := by
  rw [UInt32.and_assoc, UInt32.and_assoc]
  cases kind <;> rfl

theorem showsMetadata_of_remote {kind : NodeKind} {metadata : Metadata} {n : Node}
    (htime : metadata.TimeSupported) (hkind : n.remote.content.kind = kind)
    (hmode : n.remote.mode = some (metadata.mode &&& 0o7777 &&& kind.modeMask))
    (hmtime : Option.Rel TimeOf (metadataFor kind metadata).mtime n.remote.mtime) :
    ShowsMetadata kind metadata (projectInode n.inode) := by
  obtain ⟨-, hcast⟩ := htime.toInt_nsec
  have hshown : (projectInode n.inode).mode = metadata.mode &&& 0o7777 &&& kind.modeMask := by
    simp only [projectInode, Node.inode, hmode, Option.getD_some]
  obtain ⟨time, htimeEq, hseconds, hnanos⟩ : ∃ time, n.remote.mtime = some time ∧
      time.seconds = metadata.mtime.toInt ∧ (time.nanos : ℤ) = metadata.mtimeNsec.toInt := by
    cases hremote : n.remote.mtime with
    | none =>
        rw [hremote] at hmtime
        cases hmtime
    | some time =>
        rw [hremote] at hmtime
        cases hmtime with
        | some hof => exact ⟨time, rfl, hof.1, hof.2.trans hcast⟩
  refine ⟨hkind, fun uid gid => ?_, fun uid gid => ?_, fun uid gid => ?_⟩
  · exact congrArg Fuse.fileType hkind
  · change Fuse.permissionBits _ = _
    rw [Fuse.permissionBits_eq, hshown, masked_permissions]
  · change Fuse.timestampToSystemTime (n.remote.mtime.getD .unixEpoch) = _
    rw [htimeEq, Option.getD_some, Fuse.timestampToSystemTime_eq, hseconds, hnanos]

def Yields {α : Type} (result : Except SessionError α) (P : α → Prop) : Prop :=
  match result with
  | .ok a => P a
  | .error e => e.FromSqlite

theorem Agrees.yields {α β : Type} {complete : Prop} {answer : β} {view : α → β}
    {result : Except SessionError α} (h : Agrees complete (.ok answer) view result)
    (hcomplete : complete) : Yields result fun a => view a = answer := by
  cases h with
  | ok a h => exact (Except.ok.inj h).symm
  | error e h => cases h
  | sqlite e h => exact h
  | fetch e h => exact absurd hcomplete h

structure Reliable (content : Digest → Option Bytes) (env : Surroundings) : Prop where
  honest : Honest content env
  complete : Complete content env

variable [Uuid] [Sha256] [Prost]

/-- The listing of an inode has the names of the entries, in bytewise order. -/
def ListsEntries (content : Digest → Option Bytes) (s : Session) (inode : InodeId)
    (entries : List (OsStr × LocalNode)) : Prop :=
  ∀ env, Reliable content env → Yields (listDirectory env s inode).1 fun listed =>
    listed.map Inode.name = LocalNode.entryNames entries

def Shows (content : Digest → Option Bytes) (s : Session) (entry : Inode) : LocalNode → Prop
  | .file metadata bytes =>
      ShowsMetadata .file metadata entry ∧ entry.size = bytes.length ∧
        ∀ env, Reliable content env →
          Yields (readRange env s entry.inode 0 entry.size).1 fun read => read = bytes
  | .directory metadata _ entries =>
      ShowsMetadata .directory metadata entry ∧ ListsEntries content s entry.inode entries
  | .symlink metadata target =>
      ShowsMetadata .symlink metadata entry ∧
        ∃ text, target = .ok (.utf8 text) ∧ entry.symlinkTarget = some text
  | .special _ _ => False
  | .unreadable _ => False

/-- A session shows a local tree: unless SQLite fails, a path is resolved exactly when it
is in the tree, and the inode found shows the node there. -/
structure Reproduces (content : Digest → Option Bytes) (tree : LocalNode) (s : Session) :
    Prop where
  resolves_iff : ∀ first rest, (∀ step ∈ first :: rest, Reliable content step.1) →
    (∀ e, (resolve s .root first rest).1 = .error e → ¬ e.FromSqlite) →
    ((∃ entry, (resolve s .root first rest).1 = .ok entry) ↔
      ∃ node, tree.resolve ((first :: rest).map Prod.snd) = some node)
  shows_node : ∀ first rest, (∀ step ∈ first :: rest, Reliable content step.1) →
    ∀ entry s', resolve s .root first rest = (.ok entry, s') →
      ∀ node, tree.resolve ((first :: rest).map Prod.snd) = some node →
        Shows content s' entry node
  lists_root : ∀ metadata listing entries, tree = .directory metadata listing entries →
    ListsEntries content s .root entries

end Shows

section Mounted

variable [Uuid] [Sha256] [Prost] {content : Digest → Option Bytes} {options : UploadOptions}
  {tree : LocalNode} {s : Session} {ns : Namespace} {inode : InodeId} {n : Node}
  {node : LocalNode}

theorem Locates.reads {metadata : Metadata} {bytes : Bytes}
    (hfiles : ∀ file ∈ tree.files, content (Digest.forBytes file.2.2) = some file.2.2)
    (h : Locates content tree s ns inode n (.file metadata bytes)) {env : Surroundings}
    (henv : Reliable content env) :
    Yields (readRange env s inode 0 bytes.length).1 fun read => read = bytes := by
  obtain ⟨path, hwalk⟩ := h.walked
  have hheld := hfiles (path, metadata, bytes) ((tree.mem_files_iff _).mpr hwalk)
  have hremote : RemoteContent.file (merkle (.file metadata bytes)) = n.remote.content :=
    Option.some.inj h.content_eq
  have hagrees := readRange_agrees h.mounted.holds h.mounted.active henv.honest h.find_eq 0
    bytes.length
  have hanswer : readAnswer content n.remote 0 bytes.length = .ok bytes := by
    rw [merkle] at hremote
    rw [readAnswer, ← hremote]
    dsimp only
    rw [hheld]
    dsimp only
    rw [List.drop_zero, List.take_length]
  rw [hanswer] at hagrees
  exact hagrees.yields henv.complete

variable (hprost : Prost.DecodeInvertsEncode) (htree : Uploadable options tree)
  (hcontent : HoldsDirectories content tree)

include hprost htree hcontent

theorem Locates.lists {metadata : Metadata} {listing : Option IoError}
    {entries : List (OsStr × LocalNode)}
    (h : Locates content tree s ns inode n (.directory metadata listing entries)) :
    ListsEntries content s inode entries := by
  intro env henv
  obtain ⟨children, hanswer, hnames, -⟩ := h.loadAnswer hprost htree hcontent
  have hagrees := listDirectory_agrees h.mounted.holds h.mounted.active henv.honest
    h.mounted.refines h.find_eq
  rw [listAnswer, hanswer] at hagrees
  have hyields := hagrees.yields henv.complete
  have hsorted : (sortedViews children).map View.name = LocalNode.entryNames entries := by
    rw [sortedViews, List.map_map, LocalNode.entryNames, ← merkleEntries_names,
      ← sortBy_eq_of_injective nameKey nameKey_injective hnames]
    exact map_sortBy _ nameKey NewRemoteInode.name children fun child => rfl
  cases hlisted : (listDirectory env s inode).1 with
  | error e =>
      rw [hlisted] at hyields
      exact hyields
  | ok listed =>
      rw [hlisted] at hyields
      have hviews : listed.map Inode.view = sortedViews children := hyields
      change listed.map Inode.name = _
      rw [← hsorted, ← hviews, List.map_map]
      rfl

theorem Locates.shows
    (hfiles : ∀ file ∈ tree.files, content (Digest.forBytes file.2.2) = some file.2.2)
    (h : Locates content tree s ns n.id n node) {name : OsStr}
    (hdepicts : Depicts name node n.remote) :
    Shows content s (projectInode n.inode) node := by
  obtain ⟨path, hwalk⟩ := h.walked
  have hup := LocalNode.uploadable_of_mem_walk options tree htree [] _ hwalk
  have hcontentEq := h.content_eq
  obtain ⟨insertion, hinsertion, hmounts⟩ := hdepicts
  cases node with
  | file metadata bytes =>
      cases hinsertion
      rw [Uploadable] at hup
      obtain ⟨htime, -, hlength⟩ := hup
      have hsize : (projectInode n.inode).size = bytes.length := by
        have hremote : n.remote.content = .file (merkle (.file metadata bytes)) :=
          (Option.some.inj hcontentEq).symm
        rw [merkle] at hremote
        simp only [projectInode, Node.inode, hremote, RemoteContent.kind, Option.map_some,
          Option.getD_some]
        exact Digest.forBytes_sizeBytes bytes hlength
      refine ⟨showsMetadata_of_remote htime (by rw [hmounts.content]; rfl) hmounts.mode
        hmounts.mtime, hsize, fun env henv => ?_⟩
      rw [hsize]
      exact h.reads hfiles henv
  | directory metadata listing entries =>
      cases hinsertion
      obtain ⟨htime, -⟩ := (uploadable_directory_iff options _ _ _).mp hup
      exact ⟨showsMetadata_of_remote htime (by rw [hmounts.content]; rfl) hmounts.mode
        hmounts.mtime, h.lists hprost htree hcontent⟩
  | symlink metadata target =>
      cases hinsertion
      rw [Uploadable] at hup
      obtain ⟨htime, text, rfl⟩ := hup
      refine ⟨showsMetadata_of_remote htime (by rw [hmounts.content]; rfl) hmounts.mode
        hmounts.mtime, text, rfl, ?_⟩
      have hremote : n.remote.content = .symlink text := (Option.some.inj hcontentEq).symm
      simp only [projectInode, Node.inode, hremote]
  | special metadata kind => cases hinsertion
  | unreadable source => cases hinsertion

omit hprost htree hcontent in
theorem Mounted.locates_root {metadata : Metadata} {listing : Option IoError}
    {entries : List (OsStr × LocalNode)} (hroot : tree = .directory metadata listing entries)
    (h : Mounted content (merkle tree) s ns) :
    ∃ n, Locates content tree s ns .root n tree := by
  obtain ⟨loaded, rest, hnodes⟩ := ns.root
  have hmem : rootNode ns.rootDigest loaded ∈ ns.nodes := by
    rw [hnodes]
    exact List.mem_cons_self
  refine ⟨_, h, (ns.find_eq_some_iff _ _).mpr ⟨hmem, rfl⟩, ⟨[], tree.self_mem_walk []⟩, ?_⟩
  have hremote : (rootNode ns.rootDigest loaded).remote.content =
      .directory (merkle tree) := by
    rw [← h.root]
    rfl
  rw [hremote, hroot]
  rfl

/-- A session that mounts an uploaded tree shows the tree. -/
theorem Mounted.reproduces {metadata : Metadata} {listing : Option IoError}
    {entries : List (OsStr × LocalNode)} (hroot : tree = .directory metadata listing entries)
    (hfiles : ∀ file ∈ tree.files, content (Digest.forBytes file.2.2) = some file.2.2)
    (h : Mounted content (merkle tree) s ns) : Reproduces content tree s := by
  obtain ⟨n, hn⟩ := h.locates_root hroot
  constructor
  · intro first rest hreliable hsqlite
    constructor
    · rintro ⟨entry, hentry⟩
      obtain ⟨child, -, -, -, hchild, -⟩ := Locates.resolve_ok hprost htree hcontent rest hn
        (fun step hstep => (hreliable step hstep).honest) (Prod.ext hentry rfl)
      exact ⟨child, hchild⟩
    · rintro ⟨node, hnode⟩
      cases hresult : (resolve s .root first rest).1 with
      | ok entry => exact ⟨entry, rfl⟩
      | error e =>
          have hcause := Locates.resolve_error hprost htree hcontent rest hn
            (fun step hstep => ⟨(hreliable step hstep).honest, (hreliable step hstep).complete⟩)
            hresult
          rcases hcause with hfailed | hnone
          · exact absurd hfailed (hsqlite e hresult)
          · rw [hnode] at hnone
            cases hnone
  · intro first rest hreliable entry s' hresolve node hnode
    obtain ⟨child, ns', c, name, hchild, hlocates, rfl, hdepicts⟩ :=
      Locates.resolve_ok hprost htree hcontent rest hn
        (fun step hstep => (hreliable step hstep).honest) hresolve
    rw [hnode, Option.some.injEq] at hchild
    subst hchild
    exact hlocates.shows hprost htree hcontent hfiles hdepicts
  · intro metadata' listing' entries' htree'
    subst htree'
    exact hn.lists hprost htree hcontent

end Mounted

/-- Upload, then mount: after an upload that succeeded, every state of every session on
the root digest shows the local tree. -/
theorem upload_then_mount [Uuid] [Sha256] [Prost] (hprost : Prost.DecodeInvertsEncode)
    {σ : Type} (keys : Sources → List Digest)
    (hkeys : ∀ sources, (keys sources).Perm (sources.map Prod.fst)) (store : Cas.BlobStore σ)
    (content : σ → Digest → Option Bytes) (files : PathBuf → Option Bytes)
    (hstore : store.Honest content files) (options : UploadOptions) (root : PathBuf)
    (tree : LocalNode) (metadata : Metadata) (listing : Option IoError)
    (entries : List (OsStr × LocalNode)) (hroot : tree = .directory metadata listing entries)
    (htree : Uploadable options tree) (disk : Disk) (hdisk : Unchanged disk root tree)
    (hfiles : ∀ file ∈ tree.files, files (root ++ file.1) = some file.2.2)
    (workers : HashWorkers)
    (hworkers : ∀ scanned, scanLocalDirectoryWithOptions root tree options = .ok scanned →
      workers.completion.Perm (List.range scanned.files.length))
    (cas cas' : σ) (hcas : Cas.Verified content cas) (summary : UploadSummary)
    (hupload : uploadLocalDirectory keys store disk workers root tree options cas =
      (.ok summary, cas'))
    (hcollision : CollisionFree fun bytes =>
      TreeBlob tree bytes ∨ ∃ digest, content cas' digest = some bytes)
    (s : Session) (hreached : Reached (content cas') summary.rootDigest s) :
    Reproduces (content cas') tree s := by
  obtain ⟨hdigest, hdirectories, hheld⟩ := uploadLocalDirectory_holds hkeys hstore hroot htree
    hdisk hfiles hworkers hcas hupload hcollision
  rw [hdigest] at hreached
  obtain ⟨ns, hmounted⟩ := hreached.mounted
  exact hmounted.reproduces hprost htree hdirectories hroot hheld

namespace Sample

/-- What an empty store holds after the upload of the nested directory. -/
def held : Cas.Held :=
  [(Tree.Sample.nestedDigest, Tree.Sample.nestedBytes),
    (Tree.Sample.innerDigest, Tree.Sample.innerBytes),
    (Tree.Sample.otherDigest, Tree.Sample.otherContent),
    (Tree.Sample.contentDigest, Tree.Sample.content)]

def summary : UploadSummary where
  rootDigest := Tree.Sample.nestedDigest
  files := 3
  directories := 2
  symlinks := 1
  uploadedBlobs := 4
  reusedBlobs := 0
  bytesUploaded := 0
  warnings := {}

set_option maxRecDepth 4000 in
theorem uploadLocalDirectory_eq :
    @uploadLocalDirectory (Tree.Sample.sha256 Tree.Sample.nestedBlobs)
      (Prost.prescribed Tree.Sample.nestedMessages) _ (fun sources => sources.map Prod.fst)
      (Cas.memoryStore Upload.Sample.nestedFiles) Upload.Sample.nestedDisk
      Upload.Sample.nestedWorkers Upload.Sample.root Upload.Sample.nestedListed
      Upload.Sample.options [] = (.ok summary, held) := by
  rfl

theorem blobs_collisionFree (a b : Bytes) (ha : a ∈ held.map Prod.snd)
    (hb : b ∈ held.map Prod.snd)
    (h : @Digest.forBytes (Tree.Sample.sha256 Tree.Sample.nestedBlobs) a =
      @Digest.forBytes (Tree.Sample.sha256 Tree.Sample.nestedBlobs) b) : a = b := by
  have hall : ∀ a ∈ held.map Prod.snd, ∀ b ∈ held.map Prod.snd,
      @Digest.forBytes (Tree.Sample.sha256 Tree.Sample.nestedBlobs) a =
        @Digest.forBytes (Tree.Sample.sha256 Tree.Sample.nestedBlobs) b → a = b := by
    decide +kernel
  exact hall a ha b hb h

theorem treeBlob_mem_held (bytes : Bytes)
    (h : letI : Sha256 := Tree.Sample.sha256 Tree.Sample.nestedBlobs
      letI : Prost := Prost.prescribed Tree.Sample.nestedMessages
      TreeBlob Upload.Sample.nestedListed bytes) : bytes ∈ held.map Prod.snd := by
  let _ : Sha256 := Tree.Sample.sha256 Tree.Sample.nestedBlobs
  let _ : Prost := Prost.prescribed Tree.Sample.nestedMessages
  obtain ⟨scanned, hscan, -, hstages⟩ := Upload.encodeStages_spec Upload.Sample.options rfl
    Upload.Sample.root Upload.Sample.nestedListed _ _ _ rfl
    Upload.Sample.nestedListed_uploadable Upload.Sample.nestedDisk
    Upload.Sample.nestedDisk_unchanged
  rw [Upload.Sample.nestedScanned_eq, Except.ok.injEq] at hscan
  subst hscan
  obtain ⟨digests, encoded, hhash, hencode, -, hdirectories, -⟩ :=
    hstages Upload.Sample.nestedWorkers (by decide)
  rw [Upload.Sample.nestedDigests_eq, Except.ok.injEq] at hhash
  subst hhash
  rw [Upload.Sample.nestedEncoded_eq, Except.ok.injEq] at hencode
  subst hencode
  obtain ⟨directory, hdirectory, rfl⟩ | ⟨file, hfile, rfl⟩ := h
  · have hmem := hdirectories.mem_iff.mpr (List.mem_map_of_mem hdirectory)
    obtain hinner | hroot := List.mem_pair.mp hmem
    · rw [hinner]
      exact List.mem_cons_of_mem _ List.mem_cons_self
    · rw [hroot]
      exact List.mem_cons_self
  · have hcontents : ∀ file ∈ Upload.Sample.nestedListed.files,
        file.2.2 ∈ held.map Prod.snd := by
      rw [Upload.Sample.nestedListed_files]
      decide
    exact hcontents file hfile

theorem held_collisionFree :
    letI : Sha256 := Tree.Sample.sha256 Tree.Sample.nestedBlobs
    letI : Prost := Prost.prescribed Tree.Sample.nestedMessages
    CollisionFree fun bytes =>
      TreeBlob Upload.Sample.nestedListed bytes ∨ ∃ digest, held.lookup digest = some bytes := by
  let _ : Sha256 := Tree.Sample.sha256 Tree.Sample.nestedBlobs
  let _ : Prost := Prost.prescribed Tree.Sample.nestedMessages
  have hblob : ∀ bytes, (TreeBlob Upload.Sample.nestedListed bytes ∨
      ∃ digest, held.lookup digest = some bytes) → bytes ∈ held.map Prod.snd := by
    rintro bytes (htree | ⟨digest, hlookup⟩)
    · exact treeBlob_mem_held bytes htree
    · exact List.mem_map_of_mem (Keyed.mem_of_lookup_eq_some hlookup)
  intro a b ha hb hsame
  exact blobs_collisionFree a b (hblob a ha) (hblob b hb) hsame

end Sample

/-- The theorem at the nested directory, an empty store and a fresh session. -/
theorem upload_then_mount_sample :
    letI : Uuid := Sample.uuid
    letI : Sha256 := Tree.Sample.sha256 Tree.Sample.nestedBlobs
    letI : Prost := Prost.prescribed Tree.Sample.nestedMessages
    ∃ store,
      uploadLocalDirectory (fun sources => sources.map Prod.fst)
        (Cas.memoryStore Upload.Sample.nestedFiles) Upload.Sample.nestedDisk
        Upload.Sample.nestedWorkers Upload.Sample.root Upload.Sample.nestedListed
        Upload.Sample.options [] = (.ok Sample.summary, Sample.held) ∧
      SessionStore.create Sample.quiet [.utf8 "session.db"]
        "67e55044-10b1-426f-9247-bb680e5fe0c8" 7 Sample.summary.rootDigest
        [.utf8 "", .utf8 "mnt"] 3 = .ok store ∧
      Reproduces (fun digest => Sample.held.lookup digest) Upload.Sample.nestedListed
        (opened Sample.summary.rootDigest store) := by
  let _ : Uuid := Sample.uuid
  let _ : Sha256 := Tree.Sample.sha256 Tree.Sample.nestedBlobs
  let _ : Prost := Prost.prescribed Tree.Sample.nestedMessages
  have hcreate : ∃ store, SessionStore.create Sample.quiet [.utf8 "session.db"]
      "67e55044-10b1-426f-9247-bb680e5fe0c8" 7 Sample.summary.rootDigest
      [.utf8 "", .utf8 "mnt"] 3 = .ok store := ⟨_, rfl⟩
  obtain ⟨store, hcreate⟩ := hcreate
  refine ⟨store, Sample.uploadLocalDirectory_eq, hcreate, ?_⟩
  refine upload_then_mount Tree.Sample.prescribes_nestedMessages.decodeInvertsEncode
    _ (fun sources => List.Perm.refl _) _ (fun held digest => held.lookup digest) _
    (Cas.memoryStore_honest Upload.Sample.nestedFiles) Upload.Sample.options
    Upload.Sample.root Upload.Sample.nestedListed _ _ _ rfl
    Upload.Sample.nestedListed_uploadable Upload.Sample.nestedDisk
    Upload.Sample.nestedDisk_unchanged ?_ Upload.Sample.nestedWorkers ?_ [] Sample.held ?_
    Sample.summary Sample.uploadLocalDirectory_eq Sample.held_collisionFree _ ?_
  · intro file hfile
    rw [Upload.Sample.nestedListed_files] at hfile
    simp only [List.mem_cons, List.not_mem_nil, or_false] at hfile
    rcases hfile with rfl | rfl | rfl
    all_goals rfl
  · intro scanned hscan
    rw [Upload.Sample.nestedScanned_eq] at hscan
    cases hscan
    decide
  · intro digest bytes h
    cases h
  · exact ⟨_, _, _, _, _, _, store, hcreate, [], fun op hop => absurd hop List.not_mem_nil, rfl⟩

end Session

end RemoteFs
