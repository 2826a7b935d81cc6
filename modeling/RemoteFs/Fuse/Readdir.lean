import RemoteFs.Fuse.Filesystem
import RemoteFs.Library.Paging
import RemoteFs.Session.Serving

/-!
# Listing a directory page by page

A page of a listing is the entries from an offset on, as many as the reply of the kernel
holds, and the kernel resumes at the offset of the last entry it took. Between two pages
the session serves other requests, and the first page may be what loads the directory.

`Listing` is a client that reads a directory to its end. A run of it computes a reading of
one fixed list, the one of its first page, because a loaded directory stays as it is.
-/

namespace RemoteFs

namespace Fuse

open RemoteFs.Session (InodeId Inode Surroundings Operation Namespace Serving getInode
  listDirectory)
open RemoteFs.Tree (StrictlySorted)

/-- An entry of a directory: `(inode, next_offset, kind, name)`. -/
structure DirEntry where
  inode : ℕ
  nextOffset : Int64
  kind : FileType
  name : String
  deriving DecidableEq

/-- `i64::try_from` of the index after an entry, or `i64::MAX`. -/
def nextOffset (index : ℕ) : Int64 :=
  if index + 1 ≤ i64Max then Int64.ofNat (index + 1) else Int64.maxValue

/-- The entries of a directory without their offsets: itself, its parent, its children. -/
def dirEntries (inode : ℕ) (node : Inode) (children : List Inode) :
    List (ℕ × FileType × String) :=
  [(inode, .directory, "."), (node.parent.get, .directory, "..")] ++
    children.map fun child => (child.inode.get, fileType child.kind, child.name)

def dirEntry : (ℕ × FileType × String) × ℕ → DirEntry
  | ((inode, kind, name), index) =>
      { inode := inode, nextOffset := nextOffset index, kind := kind, name := name }

structure ReplyDirectory where
  capacity : ℕ
  entries : List DirEntry

/-- Add an entry; the flag says that the reply was full and the entry was not taken. -/
def ReplyDirectory.add (reply : ReplyDirectory) (entry : DirEntry) : Bool × ReplyDirectory :=
  if reply.entries.length < reply.capacity then
    (false, { reply with entries := reply.entries ++ [entry] })
  else (true, reply)

def ReplyDirectory.addAll (reply : ReplyDirectory) : List DirEntry → ReplyDirectory
  | [] => reply
  | entry :: entries =>
      match reply.add entry with
      | (true, reply) => reply
      | (false, reply) => reply.addAll entries

section Adapter

variable [Uuid] [Sha256] [Prost] (attr list : Surroundings) (session : Session)
  (inode : UInt64) (offset : Int64)

/-- Every entry of a directory from an offset on. The read of the attributes and the
listing have surroundings of their own. -/
def directoryEntries : Except Errno (List DirEntry) × Session :=
  if offset < 0 then (.error .einval, session)
  else
    match node attr session inode with
    | .error errno => (.error errno, session)
    | .ok node =>
        if node.kind ≠ .directory then (.error .enotdir, session)
        else
          match FilesystemService.readdir list session node.inode with
          | (.error e, session) => (.error (errnoForError e), session)
          | (.ok children, session) =>
              let entries := dirEntries inode.toNat node children
              -- a `usize` holds every offset that is not negative
              let start := offset.toNatClampNeg
              (.ok ((entries.zipIdx.drop start).map dirEntry), session)

/-- Reply to a request for the entries from an offset on. -/
def readdir (reply : ReplyDirectory) : Except Errno ReplyDirectory × Session :=
  match directoryEntries attr list session inode offset with
  | (.error errno, session) => (.error errno, session)
  | (.ok entries, session) => (.ok (reply.addAll entries), session)

end Adapter

/-! ### A client that reads a directory -/

/-- A page that is asked for: the requests served since the page before, what surrounds the
two reads of the page, and how many entries its reply holds. -/
structure Page where
  served : List Operation
  attr : Surroundings
  list : Surroundings
  capacity : ℕ

structure Listing where
  session : Session
  offset : Int64
  accepted : List DirEntry
  ended : Bool

def Listing.start (session : Session) : Listing where
  session := session
  offset := 0
  accepted := []
  ended := false

/-- The offset to resume at: behind the last entry accepted. -/
def resumeOffset (offset : Int64) (entries : List DirEntry) : Int64 :=
  (entries.getLast?.map DirEntry.nextOffset).getD offset

/-- Ask for one page, at the offset of the last entry accepted, until one is empty. -/
def Listing.turn [Uuid] [Sha256] [Prost] (inode : UInt64) (l : Listing) (page : Page) :
    Option Listing :=
  if l.ended then some l
  else
    match readdir page.attr page.list (page.served.foldl Session.after l.session) inode
      l.offset { capacity := page.capacity, entries := [] } with
    | (.error _, _) => none
    | (.ok reply, session) =>
        some
          { session := session
            offset := resumeOffset l.offset reply.entries
            accepted := l.accepted ++ reply.entries
            ended := reply.entries.isEmpty }

/-! ### One page -/

/-- The whole listing of a directory, with the offset behind each entry. -/
def listing (inode : InodeId) (node : Inode) (children : List Inode) : List DirEntry :=
  (dirEntries inode.get node children).zipIdx.map dirEntry

theorem length_listing (inode : InodeId) (node : Inode) (children : List Inode) :
    (listing inode node children).length = children.length + 2 := by
  simp [listing, dirEntries]

theorem map_nextOffset_listing (inode : InodeId) (node : Inode) (children : List Inode) :
    (listing inode node children).map DirEntry.nextOffset =
      (List.range (listing inode node children).length).map nextOffset := by
  have hsnd : DirEntry.nextOffset ∘ dirEntry = nextOffset ∘ Prod.snd := by
    funext entry
    rfl
  rw [listing, List.map_map, hsnd, ← List.map_map, List.zipIdx_map_snd, List.length_map,
    List.length_zipIdx, List.range_eq_range']

theorem nextOffset_of_le {index : ℕ} (h : index + 1 ≤ i64Max) :
    ¬ nextOffset index < 0 ∧ (nextOffset index).toNatClampNeg = index + 1 := by
  obtain ⟨hint, hnat⟩ := Digest.toNatClampNeg_ofNat (index + 1) h
  rw [nextOffset, if_pos h]
  refine ⟨?_, hnat⟩
  rw [Int64.lt_iff_toInt_lt, hint, Int64.toInt_zero]
  omega

theorem resumeOffset_page (inode : InodeId) (node : Inode) {children : List Inode}
    (hchildren : children.length + 2 ≤ i64Max) {offset : Int64} (hoffset : ¬ offset < 0)
    {page : List DirEntry} {capacity : ℕ}
    (hpage : page = Paging.page (listing inode node children) offset.toNatClampNeg capacity) :
    ¬ resumeOffset offset page < 0 ∧
      (resumeOffset offset page).toNatClampNeg = offset.toNatClampNeg + page.length := by
  have hlength : page.length = min capacity (children.length + 2 - offset.toNatClampNeg) := by
    rw [hpage, Paging.length_page, length_listing]
  have hlast : page.getLast?.map DirEntry.nextOffset = if page.length = 0 then none
      else some (nextOffset (offset.toNatClampNeg + (page.length - 1))) := by
    rw [List.getLast?_eq_getElem?, ← List.getElem?_map]
    split
    · next hempty =>
        rw [List.getElem?_eq_none]
        simp [hempty]
    · next hne =>
        have hmap : page.map DirEntry.nextOffset =
            (((List.range (children.length + 2)).map nextOffset).drop
              offset.toNatClampNeg).take capacity := by
          rw [hpage, Paging.page, List.map_take, List.map_drop, map_nextOffset_listing,
            length_listing]
        rw [hmap, List.getElem?_take, if_pos (by omega), List.getElem?_drop,
          List.getElem?_map, List.getElem?_range (by omega)]
        rfl
  rw [resumeOffset, hlast]
  split
  · next hempty =>
      rw [hempty]
      exact ⟨hoffset, rfl⟩
  · next hne =>
      have hend : offset.toNatClampNeg + (page.length - 1) + 1 =
          offset.toNatClampNeg + page.length := by omega
      have hbound : offset.toNatClampNeg + (page.length - 1) + 1 ≤ i64Max := by omega
      obtain ⟨hpos, hnat⟩ := nextOffset_of_le hbound
      exact ⟨hpos, hnat.trans hend⟩

theorem ReplyDirectory.entries_addAll (entries : List DirEntry) :
    ∀ reply : ReplyDirectory, (reply.addAll entries).entries =
      reply.entries ++ entries.take (reply.capacity - reply.entries.length) := by
  induction entries with
  | nil =>
      intro reply
      simp [ReplyDirectory.addAll]
  | cons entry entries ih =>
      intro reply
      rw [ReplyDirectory.addAll, ReplyDirectory.add]
      by_cases hroom : reply.entries.length < reply.capacity
      · have hleft : reply.capacity - reply.entries.length =
            reply.capacity - (reply.entries.length + 1) + 1 := by omega
        rw [if_pos hroom]
        simp only [ih, List.length_append, List.length_singleton]
        rw [hleft, List.take_succ_cons, List.append_assoc]
        rfl
      · have hleft : reply.capacity - reply.entries.length = 0 := by omega
        rw [if_neg hroom, hleft]
        simp

theorem get_of_new {inode : UInt64} {id : InodeId} (h : InodeId.new inode = .ok id) :
    id.get = inode.toNat := by
  rw [InodeId.new] at h
  split at h
  · cases h
  · split at h
    · cases h
      simp [InodeId.get]
    · cases h

section Pages

variable [Uuid] [Sha256] [Prost] {attr list : Surroundings} {s s' : Session}
  {inode : UInt64} {id : InodeId} {found : Inode} {offset : Int64} {children : List Inode}

theorem directoryEntries_eq_ok_iff (hid : InodeId.new inode = .ok id)
    (entries : List DirEntry) :
    directoryEntries attr list s inode offset = (.ok entries, s') ↔
      ¬ offset < 0 ∧ ∃ found children, getInode attr s id = .ok found ∧
        found.kind = .directory ∧
        listDirectory list s found.inode = (.ok children, s') ∧
        entries = (listing id found children).drop offset.toNatClampNeg := by
  have hdrop : ∀ node children, ((dirEntries inode.toNat node children).zipIdx.drop
      offset.toNatClampNeg).map dirEntry =
        (listing id node children).drop offset.toNatClampNeg := by
    intro node children
    rw [listing, get_of_new hid, List.map_drop]
  rw [directoryEntries]
  by_cases hneg : offset < 0
  · simp [hneg]
  · rw [if_neg hneg]
    constructor
    · intro h
      refine ⟨hneg, ?_⟩
      split at h
      · cases h
      · next found hnode =>
          obtain ⟨id', hid', hget⟩ := (node_eq_ok_iff attr s inode found).mp hnode
          rw [hid, Except.ok.injEq] at hid'
          split at h
          · cases h
          · next hkind =>
              split at h
              · cases h
              · next children t hlist =>
                  cases h
                  exact ⟨found, children, hid' ▸ hget, not_not.mp hkind,
                    (FilesystemService.readdir_eq_ok_iff list s found.inode _ _).mp hlist,
                    hdrop found children⟩
    · rintro ⟨-, found, children, hget, hkind, hlist, rfl⟩
      have hnode : node attr s inode = .ok found :=
        (node_eq_ok_iff attr s inode found).mpr ⟨id, hid, hget⟩
      have hread := (FilesystemService.readdir_eq_ok_iff list s found.inode _ _).mpr hlist
      rw [hnode]
      simp only [hkind, ne_eq, not_true_eq_false, if_false, hread, hdrop]

theorem readdir_eq_ok (hid : InodeId.new inode = .ok id) {capacity : ℕ} {reply : ReplyDirectory}
    (h : readdir attr list s inode offset { capacity := capacity, entries := [] } =
      (.ok reply, s')) :
    ¬ offset < 0 ∧ ∃ found children, getInode attr s id = .ok found ∧ found.kind = .directory ∧
      listDirectory list s found.inode = (.ok children, s') ∧
      reply.entries =
        Paging.page (listing id found children) offset.toNatClampNeg capacity := by
  rw [readdir] at h
  split at h
  · cases h
  · next entries t hentries =>
      cases h
      obtain ⟨hneg, found, children, hget, hkind, hlist, rfl⟩ :=
        (directoryEntries_eq_ok_iff hid entries).mp hentries
      refine ⟨hneg, found, children, hget, hkind, hlist, ?_⟩
      rw [ReplyDirectory.entries_addAll]
      rfl

/-! ### Whole listings -/

def Shows (s : Session) (id : InodeId) (found : Inode) (ns : Namespace) : Prop :=
  Serving s ns ∧ ∃ n, ns.find id = some n ∧ Session.projectInode n.inode = found

omit [Sha256] [Prost] in
theorem Shows.of_extends {ns ns' : Namespace} (h : Shows s id found ns)
    (hserving : Serving s' ns') (hextends : ns.Extends ns') : Shows s' id found ns' := by
  obtain ⟨-, n, hfind, hn⟩ := h
  obtain ⟨m, hm, hsame⟩ := hextends.find hfind
  exact ⟨hserving, m, hm, hsame.trans hn⟩

/-- One page of a listing that has not ended: it lists the directory, which is loaded from
then on, and takes a page of the listing. -/
theorem turn_eq_some (hid : InodeId.new inode = .ok id) {l l' : Listing} {page : Page}
    {ns : Namespace} (hshows : Shows l.session id found ns) (hended : l.ended = false)
    (hturn : l.turn inode page = some l') :
    ∃ children ns', listDirectory page.list (page.served.foldl Session.after l.session) id =
        (.ok children, l'.session) ∧
      ns.Extends ns' ∧ Shows l'.session id found ns' ∧ ns'.IsLoadedAt id ∧
      children = ns'.entries id ∧ ∃ entries,
        entries = Paging.page (listing id found children) l.offset.toNatClampNeg page.capacity ∧
        l'.offset = resumeOffset l.offset entries ∧ l'.accepted = l.accepted ++ entries ∧
        l'.ended = entries.isEmpty := by
  rw [Listing.turn, hended] at hturn
  simp only [Bool.false_eq_true, if_false] at hturn
  split at hturn
  · cases hturn
  · next reply t hreply =>
      cases hturn
      obtain ⟨ms, hms, hextends⟩ := hshows.1.foldl_after page.served
      obtain ⟨hserving, m, hm, hfound⟩ := hshows.of_extends hms hextends
      obtain ⟨-, node, children, hget, -, hlist, hentries⟩ := readdir_eq_ok hid hreply
      obtain ⟨n, hn, rfl⟩ := hserving.getInode_eq_ok hget
      rw [hm, Option.some.injEq] at hn
      rw [← hn, hfound] at hentries
      have hnode : (Session.projectInode n.inode).inode = id := by
        rw [← hn]
        exact ((ms.find_eq_some_iff id m).mp hm).2
      rw [hnode] at hlist
      obtain ⟨ns', hns', hextends', hloaded, hchildren⟩ := hserving.listDirectory_eq_ok hlist
      exact ⟨children, ns', hlist, hextends.trans hextends',
        (hshows.of_extends hms hextends).of_extends hns' hextends', hloaded, hchildren,
        reply.entries, hentries, rfl, rfl, rfl⟩

/-- A listing in the middle of a directory that was loaded. -/
def Reading (id : InodeId) (found : Inode) (children : List Inode) (l : Listing) : Prop :=
  ∃ ns, Shows l.session id found ns ∧ ns.IsLoadedAt id ∧ ns.entries id = children

def Listing.reader (l : Listing) : Paging.Reader DirEntry where
  position := l.offset.toNatClampNeg
  received := l.accepted
  ended := l.ended

omit [Uuid] [Sha256] [Prost] in
theorem reader_start (s : Session) : (Listing.start s).reader = Paging.start := by
  have hzero : (0 : Int64).toNatClampNeg = 0 := by
    rw [← Int64.toNat_toInt, Int64.toInt_zero, Int.toNat_zero]
  simp only [Listing.reader, Listing.start, Paging.start, hzero]

omit [Uuid] [Sha256] [Prost] in
theorem reader_of_page (hbound : children.length + 2 ≤ i64Max) {l l' : Listing}
    {capacity : ℕ} {entries : List DirEntry} (hoffset : ¬ l.offset < 0)
    (hended : l.ended = false)
    (hpage : entries = Paging.page (listing id found children) l.offset.toNatClampNeg capacity)
    (hoffset' : l'.offset = resumeOffset l.offset entries)
    (haccepted : l'.accepted = l.accepted ++ entries) (hended' : l'.ended = entries.isEmpty) :
    ¬ l'.offset < 0 ∧
      l'.reader = Paging.turn (listing id found children) l.reader capacity := by
  obtain ⟨hpos, hnat⟩ := resumeOffset_page id found hbound hoffset hpage
  refine ⟨hoffset' ▸ hpos, ?_⟩
  rw [Paging.turn, if_neg]
  · rw [Listing.reader, hoffset', haccepted, hended', hnat, hpage]
    rfl
  · simp [Listing.reader, hended]

theorem Reading.turn (hid : InodeId.new inode = .ok id) {l l' : Listing} {page : Page}
    (h : Reading id found children l) (hturn : l.turn inode page = some l') :
    Reading id found children l' ∧ (children.length + 2 ≤ i64Max → ¬ l.offset < 0 →
      ¬ l'.offset < 0 ∧
        l'.reader = Paging.turn (listing id found children) l.reader page.capacity) := by
  cases hended : l.ended with
  | true =>
      rw [Listing.turn, if_pos hended, Option.some.injEq] at hturn
      rw [← hturn]
      refine ⟨h, fun _ hoffset => ⟨hoffset, ?_⟩⟩
      rw [Paging.turn, if_pos]
      exact hended
  | false =>
      obtain ⟨ns, hshows, hloaded, hentries⟩ := h
      obtain ⟨children', ns', -, hextends, hshows', hloaded', rfl, entries, hpage, hoffset',
        haccepted, hended'⟩ := turn_eq_some hid hshows hended hturn
      rw [hextends.entries hloaded, hentries] at hpage
      refine ⟨⟨ns', hshows', hloaded', (hextends.entries hloaded).trans hentries⟩, ?_⟩
      intro hbound hoffset
      exact reader_of_page hbound hoffset hended hpage hoffset' haccepted hended'

/-- The pages of a listing whose directory is loaded read one list. -/
theorem Reading.run (hid : InodeId.new inode = .ok id) (hbound : children.length + 2 ≤ i64Max)
    {l l' : Listing} {pages : List Page} (h : Reading id found children l)
    (hoffset : ¬ l.offset < 0)
    (hrun : Transition.run (Listing.turn inode) l pages = some l') :
    l'.reader = (pages.map Page.capacity).foldl (Paging.turn (listing id found children))
      l.reader := by
  rw [List.foldl_map]
  have hstep : ∀ l page l', (Reading id found children l ∧ ¬ l.offset < 0) →
      l.turn inode page = some l' → (Reading id found children l' ∧ ¬ l'.offset < 0) ∧
        l'.reader = Paging.turn (listing id found children) l.reader page.capacity := by
    intro l page l' hl hturn
    obtain ⟨hreading, hreader⟩ := hl.1.turn hid hturn
    obtain ⟨hpos, hview⟩ := hreader hbound hl.2
    exact ⟨⟨hreading, hpos⟩, hview⟩
  exact (Transition.run_simulation hstep pages l l' ⟨h, hoffset⟩ hrun).2

theorem directoryEntries_of_listDirectory (hid : InodeId.new inode = .ok id)
    {ns : Namespace} (hshows : Shows s id found ns) (hkind : found.kind = .directory)
    (hattr : attr.inodeSqlite.Quiet) (hoffset : ¬ offset < 0)
    (hlist : listDirectory list s id = (.ok children, s')) :
    directoryEntries attr list s inode offset =
      (.ok ((listing id found children).drop offset.toNatClampNeg), s') := by
  obtain ⟨hserving, n, hfind, hn⟩ := hshows
  have hget : getInode attr s id = .ok found := by
    rw [hserving.getInode_of_find hattr hfind, hn]
  have hnode : found.inode = id := by
    rw [← hn]
    exact ((ns.find_eq_some_iff id n).mp hfind).2
  exact (directoryEntries_eq_ok_iff hid _).mpr
    ⟨hoffset, found, children, hget, hkind, hnode ▸ hlist, rfl⟩

theorem turn_of_listDirectory (hid : InodeId.new inode = .ok id)
    (hkind : found.kind = .directory) {l : Listing} {page : Page} {ns : Namespace}
    {t : Session} (hshows : Shows l.session id found ns) (hoffset : ¬ l.offset < 0)
    (hattr : page.attr.inodeSqlite.Quiet)
    (hlist : listDirectory page.list (page.served.foldl Session.after l.session) id =
      (.ok children, t)) : ∃ l', l.turn inode page = some l' := by
  obtain ⟨ms, hms, hextends⟩ := hshows.1.foldl_after page.served
  have hentries := directoryEntries_of_listDirectory hid (hshows.of_extends hms hextends) hkind
    hattr hoffset hlist
  rw [Listing.turn]
  split
  · exact ⟨l, rfl⟩
  · rw [readdir, hentries]
    exact ⟨_, rfl⟩

/-- No statement of the reads of a page fails in SQLite. -/
def Page.Quiet (page : Page) : Prop :=
  page.attr.inodeSqlite.Quiet ∧ page.list.inodeSqlite.Quiet ∧ page.list.readSqlite.Quiet

theorem Reading.exists_run (hid : InodeId.new inode = .ok id)
    (hkind : found.kind = .directory) (hbound : children.length + 2 ≤ i64Max) {l : Listing}
    {pages : List Page} (h : Reading id found children l) (hoffset : ¬ l.offset < 0)
    (hquiet : ∀ page ∈ pages, page.Quiet) :
    ∃ l', Transition.run (Listing.turn inode) l pages = some l' := by
  have hstep : ∀ (l : Listing) (page : Page), page.Quiet →
      (Reading id found children l ∧ ¬ l.offset < 0) → ∃ l', l.turn inode page = some l' ∧
        Reading id found children l' ∧ ¬ l'.offset < 0 := by
    intro l page hquiet hl
    obtain ⟨ns, hshows, hloaded, -⟩ := hl.1
    obtain ⟨ms, hms, hextends⟩ := hshows.1.foldl_after page.served
    have hlist := hms.listDirectory_of_isLoadedAt hquiet.2.1 hquiet.2.2
      (hextends.isLoadedAt hloaded)
    obtain ⟨l', hturn⟩ := turn_of_listDirectory hid hkind hshows hl.2 hquiet.1 hlist
    obtain ⟨hreading, hreader⟩ := hl.1.turn hid hturn
    exact ⟨l', hturn, hreading, (hreader hbound hl.2).1⟩
  exact Transition.run_enabled hstep pages l hquiet ⟨h, hoffset⟩

/-- How many inodes a vector holds: a vector has at most `isize::MAX` bytes, and an inode
takes more than sixteen. -/
def maxInodes : ℕ := i64Max / 16

/-- What a number of pages has delivered of a list: a beginning of it, all of it once a page
was empty, and a page is empty once there were more pages than entries. -/
structure Delivers (entries : List DirEntry) (pages : ℕ) (l : Listing) : Prop where
  accepted_take : ∃ count, l.accepted = entries.take count
  accepted_all : l.ended = true → l.accepted = entries
  ended : entries.length < pages → l.ended = true

variable (s inode id found) in
/-- The listing of a directory, whatever the pages are and whatever is served between
them. -/
structure PagesListing : Prop where
  root_parent : id = .root → found.parent = id
  parent_row : id ≠ .root → ∃ row ∈ s.store.database.inodes,
    row.id = id.sqlite ∧ row.parentId = some found.parent.sqlite
  listed : ∀ list children s', listDirectory list s id = (.ok children, s') →
    StrictlySorted (children.map Inode.name) ∧ ∀ child ∈ children, child.parent = id
  entries_from : ∀ attr list offset children s', attr.inodeSqlite.Quiet → 0 ≤ offset →
    listDirectory list s id = (.ok children, s') →
    directoryEntries attr list s inode offset =
      (.ok ((listing id found children).drop offset.toNatClampNeg), s')
  entries_only : ∀ attr list offset entries s',
    directoryEntries attr list s inode offset = (.ok entries, s') →
    ∃ children, listDirectory list s id = (.ok children, s') ∧
      entries = (listing id found children).drop offset.toNatClampNeg
  pages : ∀ page rest l, (∀ q ∈ page :: rest, 1 ≤ q.capacity) →
    Transition.run (Listing.turn inode) (.start s) (page :: rest) = some l →
    ∃ children t,
      listDirectory page.list (page.served.foldl Session.after s) id = (.ok children, t) ∧
      StrictlySorted (children.map Inode.name) ∧
      (∀ list children' t', listDirectory list l.session id = (.ok children', t') →
        children' = children) ∧
      (children.length ≤ maxInodes →
        Delivers (listing id found children) (page :: rest).length l)
  answered : ∀ page rest children t, page.attr.inodeSqlite.Quiet →
    (∀ q ∈ rest, q.Quiet) →
    listDirectory page.list (page.served.foldl Session.after s) id = (.ok children, t) →
    children.length ≤ maxInodes →
    ∃ l, Transition.run (Listing.turn inode) (.start s) (page :: rest) = some l

omit [Uuid] [Sha256] [Prost] in
theorem length_le_of_maxInodes (h : children.length ≤ maxInodes) :
    children.length + 2 ≤ i64Max := by
  have hmax : maxInodes + 2 ≤ i64Max := by decide
  omega

theorem reading_first (hid : InodeId.new inode = .ok id) {ns : Namespace}
    (hshows : Shows s id found ns) {page : Page} {l : Listing}
    (hturn : (Listing.start s).turn inode page = some l) :
    ∃ children, listDirectory page.list (page.served.foldl Session.after s) id =
        (.ok children, l.session) ∧
      Reading id found children l ∧ (children.length + 2 ≤ i64Max → ¬ l.offset < 0 ∧
        l.reader = Paging.turn (listing id found children) Paging.start page.capacity) := by
  obtain ⟨children, ns', hlist, -, hshows', hloaded, hchildren, entries, hpage, hoffset,
    haccepted, hended⟩ := turn_eq_some hid hshows rfl hturn
  refine ⟨children, hlist, ⟨ns', hshows', hloaded, hchildren.symm⟩, fun hbound => ?_⟩
  have hstart : ¬ (0 : Int64) < 0 := by decide
  rw [← reader_start s]
  exact reader_of_page hbound hstart rfl hpage hoffset haccepted hended

omit [Sha256] [Prost] in
theorem Shows.parent {ns : Namespace} (h : Shows s id found ns) :
    (id = .root → found.parent = id) ∧
      (id ≠ .root → ∃ row ∈ s.store.database.inodes,
        row.id = id.sqlite ∧ row.parentId = some found.parent.sqlite) := by
  obtain ⟨hserving, n, hfind, rfl⟩ := h
  obtain ⟨hn, rfl⟩ := (ns.find_eq_some_iff id n).mp hfind
  obtain ⟨hroot, hparent, -⟩ | ⟨hne, hparent, -⟩ := (ns.valid n hn).placed
  · refine ⟨fun _ => ?_, fun hne => absurd hroot hne⟩
    simp [Session.projectInode, Session.Node.inode, hparent]
  · refine ⟨fun hroot => absurd hroot hne, fun _ => ?_⟩
    obtain ⟨parent, hparent⟩ := Option.isSome_iff_exists.mp hparent
    refine ⟨n.row, Session.row_mem hserving.holds.nodes hn, rfl, ?_⟩
    simp [Session.projectInode, Session.Node.inode, Session.Node.row, Session.newRow, hparent]

theorem Shows.pages (hid : InodeId.new inode = .ok id) {ns : Namespace}
    (h : Shows s id found ns) {page : Page} {rest : List Page} {l : Listing}
    (hcapacity : ∀ q ∈ page :: rest, 1 ≤ q.capacity)
    (hrun : Transition.run (Listing.turn inode) (.start s) (page :: rest) = some l) :
    ∃ children t,
      listDirectory page.list (page.served.foldl Session.after s) id = (.ok children, t) ∧
      StrictlySorted (children.map Inode.name) ∧
      (∀ list children' t', listDirectory list l.session id = (.ok children', t') →
        children' = children) ∧
      (children.length ≤ maxInodes →
        Delivers (listing id found children) (page :: rest).length l) := by
  obtain ⟨l₁, hturn, hrest⟩ := (Transition.run_cons_eq_some_iff _ _ _ _ _).mp hrun
  obtain ⟨children, hlist, hreading, hreader⟩ := reading_first hid h hturn
  refine ⟨children, l₁.session, hlist, ?_, ?_, fun hmax => ?_⟩
  · obtain ⟨ns₁, -, -, rfl⟩ := hreading
    exact ns₁.entries_sorted id
  · intro list children' t' hlist'
    obtain ⟨ns', hshows, hloaded, rfl⟩ := Transition.run_invariant
      (fun l page l' hl hturn => (hl.turn hid hturn).1) rest l₁ l hreading hrest
    obtain ⟨ms, -, hextends, -, rfl⟩ := hshows.1.listDirectory_eq_ok hlist'
    exact hextends.entries hloaded
  · have hbound := length_le_of_maxInodes hmax
    obtain ⟨hpos, hfirst⟩ := hreader hbound
    have hread : l.reader = ((page :: rest).map Page.capacity).foldl
        (Paging.turn (listing id found children)) Paging.start := by
      rw [hreading.run hid hbound hpos hrest, hfirst]
      rfl
    have hall : ∀ capacity ∈ (page :: rest).map Page.capacity, 1 ≤ capacity := by
      intro capacity hmem
      obtain ⟨q, hq, rfl⟩ := List.mem_map.mp hmem
      exact hcapacity q hq
    obtain ⟨⟨count, htake⟩, hfull⟩ :=
      Paging.received_foldl_start (listing id found children) hall
    rw [← hread] at htake hfull
    refine ⟨⟨count, htake⟩, hfull, fun hlength => ?_⟩
    rw [← List.length_map Page.capacity] at hlength
    have hended := Paging.ended_foldl hall (Paging.reads_start _) hlength
    rw [← hread] at hended
    exact hended

end Pages

/-- Paging delivers every entry of a directory once: the entries accepted until an empty
page are the directory, its parent and its children in name order, for any capacities of the
pages and any requests served between them. -/
theorem readdir_pages_listing [Uuid] [Sha256] [Prost] (rootDigest : Digest) (s : Session)
    (hreached : s.store.Reached rootDigest) (hactive : s.store.database.Active)
    (inode : UInt64) (id : InodeId) (hid : InodeId.new inode = .ok id) (env : Surroundings)
    (found : Inode) (hfound : getInode env s id = .ok found)
    (hkind : found.kind = .directory) : PagesListing s inode id found := by
  obtain ⟨ns, -, hholds⟩ := hreached.holdsRoot
  have hserving : Serving s ns := ⟨hholds, hactive⟩
  obtain ⟨n, hfind, rfl⟩ := hserving.getInode_eq_ok hfound
  have hshows : Shows s id (Session.projectInode n.inode) ns := ⟨hserving, n, hfind, rfl⟩
  refine ⟨hshows.parent.1, hshows.parent.2, ?_, ?_, ?_, ?_, ?_⟩
  · intro list children s' hlist
    obtain ⟨ns', -, -, -, rfl⟩ := hserving.listDirectory_eq_ok hlist
    exact ⟨ns'.entries_sorted id, ns'.entries_parent id⟩
  · intro attr list offset children s' hattr hoffset hlist
    exact directoryEntries_of_listDirectory hid hshows hkind hattr (Int64.not_lt.mpr hoffset)
      hlist
  · intro attr list offset entries s' hentries
    obtain ⟨-, found, children, hget, -, hlist, rfl⟩ :=
      (directoryEntries_eq_ok_iff hid entries).mp hentries
    obtain ⟨m, hm, rfl⟩ := hserving.getInode_eq_ok hget
    rw [hfind, Option.some.injEq] at hm
    obtain ⟨-, hnid⟩ := (ns.find_eq_some_iff id n).mp hfind
    rw [← hm] at hlist ⊢
    exact ⟨children, hnid ▸ hlist, rfl⟩
  · intro page rest l hcapacity hrun
    exact hshows.pages hid hcapacity hrun
  · intro page rest children t hattr hquiet hlist hmax
    have hstart : ¬ (0 : Int64) < 0 := by decide
    obtain ⟨l₁, hturn⟩ := turn_of_listDirectory hid hkind (l := .start s) hshows hstart hattr
      hlist
    obtain ⟨children', hlist', hreading, hreader⟩ := reading_first hid hshows hturn
    rw [hlist] at hlist'
    cases hlist'
    have hbound := length_le_of_maxInodes hmax
    obtain ⟨l, hl⟩ := hreading.exists_run hid hkind hbound (hreader hbound).1 hquiet
    exact ⟨l, (Transition.run_cons_eq_some_iff _ _ _ _ _).mpr ⟨l₁, hturn, hl⟩⟩

theorem readdir_pages_listing_sample :
    letI : Uuid := Session.Sample.uuid
    letI : Sha256 := Session.Sample.sha256
    letI : Prost := Session.Sample.prost
    ∃ store found,
      Session.SessionStore.create Session.Sample.quiet [.utf8 "session.db"]
        "67e55044-10b1-426f-9247-bb680e5fe0c8" 7 Session.Sample.rootDigest
        [.utf8 "", .utf8 "mnt"] 3 = .ok store ∧
      getInode (Session.Sample.surroundings Session.Sample.content)
        (Session.opened Session.Sample.rootDigest store) .root = .ok found ∧
      found.kind = .directory ∧
      PagesListing (Session.opened Session.Sample.rootDigest store) 1 .root found := by
  let _ : Uuid := Session.Sample.uuid
  let _ : Sha256 := Session.Sample.sha256
  let _ : Prost := Session.Sample.prost
  have hcreate : ∃ store, Session.SessionStore.create Session.Sample.quiet
      [.utf8 "session.db"] "67e55044-10b1-426f-9247-bb680e5fe0c8" 7 Session.Sample.rootDigest
      [.utf8 "", .utf8 "mnt"] 3 = .ok store := ⟨_, rfl⟩
  obtain ⟨store, hcreate⟩ := hcreate
  obtain ⟨hholds, hactive⟩ := Session.create_holds hcreate
  have hserving : Serving (Session.opened Session.Sample.rootDigest store) _ :=
    ⟨hholds, hactive⟩
  have hfound : getInode (Session.Sample.surroundings Session.Sample.content)
      (Session.opened Session.Sample.rootDigest store) .root =
        .ok (Session.projectInode (Session.rootNode Session.Sample.rootDigest false).inode) :=
    hserving.getInode_of_find (fun _ => rfl) rfl
  exact ⟨store, _, hcreate, hfound, rfl,
    readdir_pages_listing Session.Sample.rootDigest
      (Session.opened Session.Sample.rootDigest store)
      ⟨_, _, _, _, _, _, store, [], hcreate, rfl⟩ hactive 1 .root rfl
      (Session.Sample.surroundings Session.Sample.content) _ hfound rfl⟩

end Fuse

end RemoteFs
