import EngineDir.FileSystem.Entry

/-!
# Open files

An `OpenFile` is a node and a cursor. Positions lie below `2 ^ 63`; a transfer
that would reach that far is refused.

* `FileSystem.readAt`, `FileSystem.writeAt`: a transfer at a position.
* `FileSystem.accepted`: the part of some bytes that a single write takes.
* `FileSystem.isEndless`: a read to the end never comes there.
* `fill`: reads until so many bytes are there, by as many single reads
  as it takes.
* `FileSystem.seek`: where a movement of the cursor ends.
* `FileSystem.sync`: writes back what is pending; devices refuse it.
-/

namespace EngineDir

/-- A node that is open, and the position of the next transfer. -/
structure OpenFile where
  node : NodeId
  pos : Nat
  deriving DecidableEq

/-- A movement of the cursor. -/
inductive Movement where
  | toStart (off : Nat)
  | byCurrent (off : Int)
  | byEnd (off : Int)
  deriving DecidableEq

namespace FileSystem

/-- No position is as great as this. -/
def positionLimit : Nat := Nat.pow 2 63

/-- The size that is reported for a directory. -/
def directorySize : Nat := 4096

/-- The size of the node `i`. -/
def size (fs : FileSystem) (i : NodeId) : Nat :=
  match fs.node? i with
  | some (.file b) => b.length
  | some (.directory _) => directorySize
  | some (.link t) => t.length
  | _ => 0

/-- Up to `count` bytes of the node `i` from `pos` on; fewer at the end of a file. -/
def readAt (fs : FileSystem) (i : NodeId) (pos count : Nat) : Except Errno Bytes :=
  if positionLimit ≤ pos + count then .error .invalid
  else
    match fs.node? i with
    | some (.file b) => .ok ((b.drop pos).take count)
    | some (.device .null) => .ok []
    | some (.device .full) => .ok (List.replicate count 0)
    | some (.directory _) => .error .isDirectory
    | _ => .error .invalid

/-- The bytes of `b` with `new` laid over them at `pos`, zeros filling a gap. -/
def overlay (b : Bytes) (pos : Nat) (new : Bytes) : Bytes :=
  b.take pos ++ List.replicate (pos - b.length) 0 ++ new ++ b.drop (pos + new.length)

theorem length_overlay (b : Bytes) (pos : Nat) (new : Bytes) :
    (overlay b pos new).length = max b.length (pos + new.length) := by
  simp only [overlay, List.length_append, List.length_take, List.length_replicate,
    List.length_drop]
  omega

/-- Whether the system lets the file `i` reach up to `goal`. -/
def hasRoom (fs : FileSystem) (i : NodeId) (goal : Nat) : Bool :=
  match fs.refusals.room i with
  | some limit => decide (goal ≤ limit)
  | none => true

/-- The part of `new` that a single write at `pos` takes to the node `i`: what there is room for in
a file. All of it is tried when there is room for nothing, and refused. -/
def accepted (fs : FileSystem) (i : NodeId) (pos : Nat) (new : Bytes) : Bytes :=
  match fs.node? i, fs.refusals.room i with
  | some (.file _), some limit => if limit ≤ pos then new else new.take (limit - pos)
  | _, _ => new

/-- Where the system sets no limit there is room for everything. -/
theorem accepted_of_room {fs : FileSystem} {i : NodeId} (h : fs.refusals.room i = none) (pos : Nat)
    (new : Bytes) : fs.accepted i pos new = new := by
  unfold accepted
  rw [h]
  split
  · rename_i h'; cases h'
  · rfl

theorem hasRoom_of_room {fs : FileSystem} {i : NodeId} (h : fs.refusals.room i = none)
    (goal : Nat) : fs.hasRoom i goal = true := by
  unfold hasRoom
  rw [h]

/-- Writes bytes to the node `i` at `pos`, all of them or none. Writing nothing changes no file, but
a full device refuses even that. -/
def writeAt (fs : FileSystem) (i : NodeId) (pos : Nat) (new : Bytes) : Except Errno FileSystem :=
  if positionLimit ≤ pos + new.length then .error .invalid
  else
    match fs.node? i with
    | some (.file b) =>
      if new = [] then .ok fs
      else if fs.hasRoom i (pos + new.length) then .ok (fs.setNode i (.file (overlay b pos new)))
      else .error .noSpace
    | some (.device .null) => .ok fs
    | some (.device .full) => .error .noSpace
    | some (.directory _) => .error .isDirectory
    | _ => .error .invalid

/-- Whether bytes can be read from the node `i` without end. A read to the end then has no memory
left at some point. -/
def isEndless (fs : FileSystem) (i : NodeId) : Bool :=
  match fs.node? i with
  | some (.device .full) => true
  | _ => false

/-- The position that a movement by the end of the node `i` starts from: the last one there is, for
a directory. -/
def endOf (fs : FileSystem) (i : NodeId) : Nat :=
  if fs.isDirectory i then positionLimit - 1 else fs.size i

/-- Where the cursor of an open file goes. A device has no positions but its start. -/
def seek (fs : FileSystem) (f : OpenFile) (m : Movement) : Except Errno Nat :=
  match fs.node? f.node with
  | some (.device _) => .ok 0
  | _ =>
    let goal : Int :=
      match m with
      | .toStart off => off
      | .byCurrent off => f.pos + off
      | .byEnd off => fs.endOf f.node + off
    if 0 ≤ goal ∧ goal < positionLimit then .ok goal.toNat else .error .invalid

/-- Writes back what is pending. -/
def sync (fs : FileSystem) (i : NodeId) : Except Errno Unit :=
  match fs.node? i with
  | some (.device _) => .error .invalid
  | _ => .ok ()

/-- The cursor after a transfer of `count` bytes; that of a device stays where it is. -/
def advance (fs : FileSystem) (f : OpenFile) (count : Nat) : OpenFile :=
  match fs.node? f.node with
  | some (.device _) => f
  | _ => { f with pos := f.pos + count }

end FileSystem

/-- What a read says at the end of a file when more was asked for. -/
def IoError.endOfFile : IoError := .stated .unexpectedEof "failed to fill whole buffer"

/-- Reads with `read`, which takes a position and a count, until `want` bytes from `pos` on are
there. A read of no bytes is the end of the file. -/
def fill (read : Nat → Nat → Except IoError Bytes) (pos want : Nat) : Except IoError Bytes :=
  if want = 0 then .ok []
  else
    match read pos want with
    | .error e => .error e
    | .ok [] => .error .endOfFile
    | .ok (b :: bs) =>
      match fill read (pos + (b :: bs).length) (want - (b :: bs).length) with
      | .error e => .error e
      | .ok rest => .ok (b :: bs ++ rest)
termination_by want
decreasing_by simp only [List.length_cons]; omega

end EngineDir
