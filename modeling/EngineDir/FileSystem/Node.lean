import EngineDir.FileSystem.Errno
import EngineDir.FileSystem.Path
import EngineDir.Table

/-!
# Nodes

A file system is a table of nodes. A directory binds names to nodes, and an open
file refers to a node, so a file lives on when its name is bound to another node
or removed.

A node is known by the directory that it was made in and its number among the
nodes made there (`NodeId`). What is made in one directory therefore never
depends on what was made in another.

* `NodeId.child_inj`: a node tells the directory that it was made in and its place there.
* `FileSystem.lookup`: the node that a name is bound to.
* `FileSystem.make`, `FileSystem.bind`, `FileSystem.unbind`: the changes of a directory.
* `FileSystem.tryLock`, `FileSystem.unlock`: the exclusive lock on a node.
* `SystemRefusals`: what the system refuses although no entry stands against it.
* `FileSystem.initial`: a root with the devices `/dev/null` and `/dev/full`.

Several names may be bound to one file. No operation here gives a file a second
name, but a file system may begin with such names.

`SystemRefusals` stands for everything by which a real system refuses to make, to move
or to remove the name of a file or to let a file grow: permissions, mounts that
are read-only, a full disk, no free inode or descriptor, paths that are too long.
It is a parameter that no operation changes. What is left out:

* A file that exists is never refused when it is opened, a directory never when it is made, and
  opening, reading, locking and writing back never fail for want of anything.
* A path longer than `pathLimit` is refused, where it is, only for the three changes of names.
* All files are on one device, and nobody moves a name from one device to another.
-/

namespace EngineDir

/-- A node, by one number that holds the directory it was made in and its place among the nodes
made there; the root has 0. -/
structure NodeId where
  code : Nat
  deriving DecidableEq, Repr

namespace NodeId

/-- The node that was made in the directory `i` after `n` others. Every positive number is a power
of two times an odd number in one way only, so its code tells `i` and `n`. -/
def child (i : NodeId) (n : Nat) : NodeId := { code := Nat.pow 2 n * (2 * i.code + 1) }

/-- A power of two times an odd number tells the two. -/
theorem two_pow_mul_odd_inj {m n a b : Nat}
    (h : Nat.pow 2 m * (2 * a + 1) = Nat.pow 2 n * (2 * b + 1)) : m = n ∧ a = b := by
  have one : ∀ c, Nat.pow 2 0 * (2 * c + 1) = 2 * c + 1 := fun c => Nat.one_mul _
  have double : ∀ k c, Nat.pow 2 (k + 1) * (2 * c + 1) = 2 * (Nat.pow 2 k * (2 * c + 1)) :=
    fun k c => by
      have hk : Nat.pow 2 (k + 1) = 2 * Nat.pow 2 k := Nat.mul_comm _ _
      rw [hk, Nat.mul_assoc]
  induction m generalizing n with
  | zero =>
    cases n with
    | zero => rw [one, one] at h; omega
    | succ n => rw [one, double] at h; omega
  | succ m ih =>
    cases n with
    | zero => rw [double, one] at h; omega
    | succ n =>
      rw [double, double] at h
      have hmn := ih (Nat.eq_of_mul_eq_mul_left (by decide) h)
      exact ⟨congrArg Nat.succ hmn.1, hmn.2⟩

theorem child_inj {i j : NodeId} {m n : Nat} : i.child m = j.child n ↔ i = j ∧ m = n := by
  constructor
  · intro h
    have hc := two_pow_mul_odd_inj (congrArg code h)
    exact ⟨congrArg NodeId.mk hc.2, hc.1⟩
  · rintro ⟨rfl, rfl⟩
    rfl

end NodeId

/-- A device that swallows what is written, or one that has no room for it. -/
inductive Device where
  | null
  | full
  deriving DecidableEq, Repr

/-- A directory: its entries, and how many nodes were ever made in it. -/
structure Directory where
  entries : Table Bytes NodeId
  made : Nat

/-- What a name can lead to. -/
inductive Node where
  | file (bytes : Bytes)
  | directory (d : Directory)
  | link (target : Bytes)
  | device (d : Device)

/-- What the system refuses although nothing in the file system stands against it: for want of
permission or of space, say. A path is known by its text. -/
structure SystemRefusals where
  /-- To make a file by the path. -/
  make : Bytes → Option Errno
  /-- To move the first name to the second. -/
  rename : Bytes → Bytes → Option Errno
  /-- To remove the name. -/
  remove : Bytes → Option Errno
  /-- To write to the file beyond the position. -/
  room : NodeId → Option Nat

namespace SystemRefusals

/-- Nothing is refused. -/
def never : SystemRefusals where
  make _ := none
  rename _ _ := none
  remove _ := none
  room _ := none

/-- The greatest length of a path, with the zero byte at its end. -/
def pathLimit : Nat := 4096

/-- Why a path is refused, if it is too long. -/
def tooLong (path : Bytes) : Option Errno :=
  if pathLimit ≤ path.length then some .nameTooLong else none

/-- Paths that are too long are refused. -/
def longPaths : SystemRefusals where
  make := tooLong
  rename source target := (tooLong source).or (tooLong target)
  remove := tooLong
  room _ := none

end SystemRefusals

/-- The nodes, those among them on which someone holds the exclusive lock, and what the system
refuses. -/
structure FileSystem where
  nodes : Table NodeId Node
  locked : List NodeId
  refusals : SystemRefusals

namespace FileSystem

/-- The root directory. -/
def root : NodeId := { code := 0 }

theorem child_ne_root (i : NodeId) (n : Nat) : i.child n ≠ root := by
  intro h
  have hp : 0 < Nat.pow 2 n * (2 * i.code + 1) := Nat.mul_pos (Nat.two_pow_pos n) (Nat.succ_pos _)
  exact absurd (congrArg NodeId.code h) (Nat.ne_of_gt hp)

/-- The node `i`, if there is one. -/
def node? (fs : FileSystem) (i : NodeId) : Option Node := fs.nodes.get? i

/-- The directory `i`, if it is one. -/
def directory? (fs : FileSystem) (i : NodeId) : Option Directory :=
  match fs.node? i with
  | some (.directory d) => some d
  | _ => none

/-- The node that `name` is bound to in the directory `i`. -/
def lookup (fs : FileSystem) (i : NodeId) (name : Bytes) : Option NodeId :=
  (fs.directory? i).bind fun d => d.entries.get? name

/-- Gives the node `i` the value `n`. -/
def setNode (fs : FileSystem) (i : NodeId) (n : Node) : FileSystem :=
  { fs with nodes := fs.nodes.insert i n }

/-- Changes the directory `i`. -/
def mapDirectory (fs : FileSystem) (i : NodeId) (f : Directory → Directory) : FileSystem :=
  match fs.directory? i with
  | some d => fs.setNode i (.directory (f d))
  | none => fs

/-- Binds `name` to the node `j` in the directory `i`. -/
def bind (fs : FileSystem) (i : NodeId) (name : Bytes) (j : NodeId) : FileSystem :=
  fs.mapDirectory i fun d => { d with entries := d.entries.insert name j }

/-- Removes `name` from the directory `i`. -/
def unbind (fs : FileSystem) (i : NodeId) (name : Bytes) : FileSystem :=
  fs.mapDirectory i fun d => { d with entries := d.entries.erase name }

/-- The number of nodes that were made in the directory `i`. -/
def madeIn (fs : FileSystem) (i : NodeId) : Nat :=
  match fs.directory? i with
  | some d => d.made
  | none => 0

/-- The id of the node that is made next in the directory `i`. -/
def nextId (fs : FileSystem) (i : NodeId) : NodeId := i.child (fs.madeIn i)

/-- Makes a node in the directory `i` and binds `name` to it. -/
def make (fs : FileSystem) (i : NodeId) (name : Bytes) (n : Node) : FileSystem :=
  (fs.setNode (fs.nextId i) n).mapDirectory i fun d =>
    { entries := d.entries.insert name (fs.nextId i), made := d.made + 1 }

/-- A directory without entries. -/
def emptyDirectory : Node := .directory { entries := Table.empty, made := 0 }

/-- Whether the node `i` is a directory. -/
def isDirectory (fs : FileSystem) (i : NodeId) : Bool := (fs.directory? i).isSome

/-- The lock on the node `i`, unless someone holds it. -/
def tryLock (fs : FileSystem) (i : NodeId) : Option FileSystem :=
  if i ∈ fs.locked then none else some { fs with locked := i :: fs.locked }

/-- Gives up the lock on the node `i`. -/
def unlock (fs : FileSystem) (i : NodeId) : FileSystem :=
  { fs with locked := fs.locked.filter fun j => decide (j ≠ i) }

/-- A root without entries. -/
def bare (r : SystemRefusals) : FileSystem where
  nodes := Table.empty.insert root emptyDirectory
  locked := []
  refusals := r

/-- A root that holds the two devices, where no path may be too long. -/
def initial : FileSystem :=
  let fs := (bare .longPaths).make root (Utf8.encode ['d', 'e', 'v']) emptyDirectory
  let fs := fs.make (root.child 0) (Utf8.encode ['n', 'u', 'l', 'l']) (.device .null)
  fs.make (root.child 0) (Utf8.encode ['f', 'u', 'l', 'l']) (.device .full)

end FileSystem

end EngineDir
