import EngineDir.FileSystem.Node

/-!
# Walking a path

A walk starts at the root and takes one part of the path after the other. Its
`Trail` holds the directories on the way down, so `..` drops the last of them,
and a link goes on from the directory that holds it. At most `linkLimit` links
are followed.

* `Ending`: what becomes of the last name of a path.
* `FileSystem.walk`: where a path leads (`Spot`), or why the walk stops.
* `FileSystem.enter`: one step of a walk, into a directory.
* `FileSystem.find`: the node at the end of a path, which has to exist.
* `FileSystem.canonical`: the one path of a node that has no links, `.` or `..`.
-/

namespace EngineDir

/-- The directories from below the root down to where a walk stands, the last one first, each with
the name it was entered by. -/
abbrev Trail := List (Bytes × NodeId)

/-- The directory where a walk stands. -/
def Trail.here (t : Trail) : NodeId :=
  match t with
  | [] => FileSystem.root
  | e :: _ => e.2

/-- Where a path leads. -/
inductive Spot where
  /-- A directory that the last part does not name, as in `/` or `a/..`. -/
  | inside (trail : Trail)
  /-- A name in the last directory of the trail, and the node it is bound to, if any and if the walk
  looked; `trailing` when a slash stands behind it. -/
  | entry (trail : Trail) (name : Bytes) (node : Option NodeId) (trailing : Bool)

/-- What becomes of the last name of a path. -/
inductive Ending where
  /-- A link there is followed. -/
  | follow
  /-- A link there is the end. -/
  | keep
  /-- A link there is followed. With a slash behind it the name is refused unseen: it stands for a
  directory, and what is to be made is none. -/
  | create
  /-- It is not looked at; the walk is only for the directory that it stands in. -/
  | ignore
  deriving DecidableEq, Repr

namespace FileSystem

/-- How many links one walk follows. -/
def linkLimit : Nat := 40

/-- The greatest length of a name. -/
def nameLimit : Nat := 255

/-- A walk up to its end or to the next link. -/
inductive Stride where
  | refused (e : Errno)
  | done (trail : Trail)
  | last (trail : Trail) (name : Bytes) (node : Option NodeId)
  | link (trail : Trail) (target : Bytes) (rest : List Part)

/-- Takes parts up to the end or to the first link; `trailing` when a slash stands behind the last
one. The last part may be missing, and `ending` says what becomes of a link in its place. -/
def stride (fs : FileSystem) (ending : Ending) (trailing : Bool) : Trail → List Part → Stride
  | t, [] => .done t
  | t, .here :: rest => fs.stride ending trailing t rest
  | t, .up :: rest => fs.stride ending trailing t.tail rest
  | t, .name n :: rest =>
    if rest = [] ∧ ending = .create ∧ trailing then .refused .isDirectory
    else if rest = [] ∧ ending = .ignore then .last t n none
    else if nameLimit < n.length then .refused .nameTooLong
    else
      match fs.lookup t.here n with
      | none => if rest = [] then .last t n none else .refused .noEntry
      | some i =>
        match fs.node? i with
        | some (.link target) =>
          if rest = [] ∧ ending = .keep then .last t n (some i) else .link t target rest
        | some (.directory _) =>
          if rest = [] then .last t n (some i) else fs.stride ending trailing ((n, i) :: t) rest
        | _ => if rest = [] then .last t n (some i) else .refused .notDirectory

/-- Walks on from a trail, following at most `budget` links. The second result is how many more may
be followed. -/
def walkFrom (fs : FileSystem) (ending : Ending) (budget : Nat) (t : Trail) (parts : List Part)
    (trailing : Bool) : Except Errno (Spot × Nat) :=
  match fs.stride ending trailing t parts with
  | .refused e => .error e
  | .done t' => .ok (.inside t', budget)
  | .last t' n i => .ok (.entry t' n i trailing, budget)
  | .link t' target rest =>
    match budget with
    | 0 => .error .loop
    | more + 1 =>
      let p := Path.ofText target
      fs.walkFrom ending more (if p.absolute then [] else t') (p.parts ++ rest)
        (if rest = [] then trailing || p.trailing else trailing)

/-- Where a path leads. -/
def walk (fs : FileSystem) (ending : Ending) (p : Path) : Except Errno Spot :=
  if p.holdsZero then .error .zeroByte
  else if p.isEmpty then .error .noEntry
  else (fs.walkFrom ending linkLimit [] p.parts p.trailing).map Prod.fst

/-- The trail down to a directory and the name of the node in it, for a path that leads to a node:
`none` in place of the name when the path ends in the directory itself. -/
def reach (fs : FileSystem) (p : Path) : Except Errno (Trail × Option Bytes × NodeId) :=
  match fs.walk .follow p with
  | .error e => .error e
  | .ok (.inside t) => .ok (t, none, t.here)
  | .ok (.entry _ _ none _) => .error .noEntry
  | .ok (.entry t n (some i) trailing) =>
    if trailing ∧ ¬fs.isDirectory i then .error .notDirectory else .ok (t, some n, i)

/-- The node that a path leads to. -/
def find (fs : FileSystem) (p : Path) : Except Errno NodeId :=
  match fs.reach p with
  | .error e => .error e
  | .ok (_, _, i) => .ok i

/-- Whether a path leads to a directory. -/
def leadsToDirectory (fs : FileSystem) (p : Path) : Bool :=
  match fs.find p with
  | .error _ => false
  | .ok i => fs.isDirectory i

/-- Goes on from a trail into the directory that a name leads to, following at most `budget` links.
The second result is how many more may be followed. -/
def enter (fs : FileSystem) (budget : Nat) (t : Trail) (name : Bytes) : Option (Trail × Nat) :=
  match fs.walkFrom .follow budget t [.name name] false with
  | .ok (.inside t', more) => some (t', more)
  | .ok (.entry t' n (some i) _, more) =>
    if fs.isDirectory i then some ((n, i) :: t', more) else none
  | _ => none

/-- The text of the path that takes the given names from the root. -/
def absoluteText (names : List Bytes) : Bytes :=
  if names = [] then [slash] else names.flatMap fun n => slash :: n

/-- The path from the root, through names of directories alone, to what a path leads to. -/
def canonical (fs : FileSystem) (p : Path) : Except Errno Bytes :=
  match fs.reach p with
  | .error e => .error e
  | .ok (t, n, _) => .ok (absoluteText ((t.map Prod.fst).reverse ++ n.toList))

end FileSystem

end EngineDir
