import RemoteFs.Session.Inode

/-!
# FUSE attributes of an inode

The attributes the kernel is given are computed from the visible inode alone. A system
time is the number of nanoseconds since the Unix epoch; the times of nodes stay far from
the limits of the type, where Rust would panic.
-/

namespace RemoteFs

namespace Fuse

open RemoteFs.Tree (NodeKind)
open RemoteFs.Session (Inode NodeTime)

structure Duration where
  nanos : ℕ
  deriving DecidableEq

def Duration.new (secs nanos : ℕ) : Duration where
  nanos := secs * 1000000000 + nanos

def Duration.fromSecs (secs : ℕ) : Duration :=
  .new secs 0

/-- A point in time, in nanoseconds since the Unix epoch. -/
structure SystemTime where
  nanos : ℤ
  deriving DecidableEq

namespace SystemTime

def unixEpoch : SystemTime where
  nanos := 0

def add (time : SystemTime) (duration : Duration) : SystemTime where
  nanos := time.nanos + duration.nanos

def sub (time : SystemTime) (duration : Duration) : SystemTime where
  nanos := time.nanos - duration.nanos

end SystemTime

inductive FileType where
  | regularFile
  | directory
  | symlink
  deriving DecidableEq, Repr

structure FileAttr where
  ino : ℕ
  size : ℕ
  blocks : ℕ
  atime : SystemTime
  mtime : SystemTime
  ctime : SystemTime
  crtime : SystemTime
  kind : FileType
  perm : UInt16
  nlink : ℕ
  uid : UInt32
  gid : UInt32
  rdev : ℕ
  blksize : ℕ
  flags : ℕ
  deriving DecidableEq

def permissionBits (node : Inode) : UInt16 :=
  if (node.mode &&& 0o7777).toNat < 2 ^ 16 then (node.mode &&& 0o7777).toUInt16 else 0

def fileType : NodeKind → FileType
  | .file => .regularFile
  | .directory => .directory
  | .symlink => .symlink

def timestampToSystemTime (timestamp : NodeTime) : SystemTime :=
  if 0 ≤ timestamp.seconds then
    SystemTime.unixEpoch.add (.new timestamp.seconds.toNat timestamp.nanos)
  else if timestamp.nanos = 0 then
    SystemTime.unixEpoch.sub (.fromSecs timestamp.seconds.natAbs)
  else
    SystemTime.unixEpoch.sub
      (.new (timestamp.seconds.natAbs - 1) (1000000000 - timestamp.nanos))

/-- The attributes of an inode; the mount belongs to the user of the daemon. -/
def fileAttr (uid gid : UInt32) (node : Inode) : FileAttr where
  ino := node.inode.get
  size := node.size
  blocks := (node.size + 511) / 512
  atime := timestampToSystemTime node.mtime
  mtime := timestampToSystemTime node.mtime
  ctime := timestampToSystemTime node.mtime
  crtime := timestampToSystemTime node.mtime
  kind := fileType node.kind
  perm := permissionBits node
  nlink := if node.kind = .directory then 2 else 1
  uid := uid
  gid := gid
  rdev := 0
  blksize := 4096
  flags := 0

/-- The system time of a timestamp, before or after the epoch. -/
theorem timestampToSystemTime_eq (timestamp : NodeTime) :
    timestampToSystemTime timestamp =
      ⟨timestamp.seconds * 1000000000 + timestamp.nanos⟩ := by
  have hnanos := timestamp.supported.2
  rw [timestampToSystemTime]
  split
  · next hseconds =>
      simp only [SystemTime.add, SystemTime.unixEpoch, Duration.new, SystemTime.mk.injEq]
      omega
  · next hseconds =>
      split
      · next hzero =>
          simp only [SystemTime.sub, SystemTime.unixEpoch, Duration.fromSecs, Duration.new,
            SystemTime.mk.injEq, hzero]
          omega
      · next hzero =>
          simp only [SystemTime.sub, SystemTime.unixEpoch, Duration.new, SystemTime.mk.injEq]
          omega

theorem permissionBits_eq (node : Inode) :
    permissionBits node = (node.mode &&& 0o7777).toUInt16 := by
  have hle : node.mode &&& 0o7777 ≤ 0o7777 := UInt32.and_le_right
  have hlt : (node.mode &&& 0o7777).toNat < 2 ^ 16 :=
    Nat.lt_of_le_of_lt (UInt32.le_iff_toNat_le.mp hle) (by decide)
  rw [permissionBits, if_pos hlt]

end Fuse

end RemoteFs
