import EngineDir.FileSystem.Walk

/-!
# Operations on names

What can be done to an entry of a directory, by its path. Every operation either
gives the new file system or a refusal that changed nothing, except that
`FileSystem.makeDirectories` may have made some directories before it fails, and
`FileSystem.removeTree` may have emptied one.

* `FileSystem.openForReading`, `FileSystem.openForWriting`
* `FileSystem.makeDirectory`, `FileSystem.makeDirectories`, `FileSystem.makeLink`
* `FileSystem.remove`, `FileSystem.removeTree`, `FileSystem.rename`
* `FileSystem.listing`: the names in a directory.
-/

namespace EngineDir.FileSystem

/-- The node to read from. It may be a directory, from which no byte can be read. -/
def openForReading (fs : FileSystem) (path : Bytes) : Except Errno NodeId :=
  fs.find (Path.ofText path)

/-- The node to write to. A missing file is made, also at the end of a link, unless the system
refuses that; an existing one is emptied if `truncate`. A name with a slash behind it is refused
whatever it leads to. -/
def openForWriting (fs : FileSystem) (truncate : Bool) (path : Bytes) :
    Except Errno (FileSystem × NodeId) :=
  match fs.walk .create (Path.ofText path) with
  | .error e => .error e
  | .ok (.inside _) => .error .isDirectory
  | .ok (.entry t n none _) =>
    match fs.refusals.make path with
    | some e => .error e
    | none => .ok (fs.make t.here n (.file []), fs.nextId t.here)
  | .ok (.entry _ _ (some i) _) =>
    match fs.node? i with
    | some (.file _) => .ok (if truncate then fs.setNode i (.file []) else fs, i)
    | some (.device _) => .ok (fs, i)
    | some (.directory _) => .error .isDirectory
    | some (.link _) => .error .loop
    | none => .error .noEntry

/-- Makes a directory; the name has to be free. -/
def makeDirectory (fs : FileSystem) (p : Path) : Except Errno FileSystem :=
  match fs.walk .keep p with
  | .error e => .error e
  | .ok (.inside _) => .error .exists
  | .ok (.entry _ _ (some _) _) => .error .exists
  | .ok (.entry t n none _) => .ok (fs.make t.here n emptyDirectory)

/-- The node that a name is bound to in the directory `i`. A name that is too long is refused. -/
def probe (fs : FileSystem) (i : NodeId) (name : Bytes) : Except Errno (Option NodeId) :=
  if nameLimit < name.length then .error .nameTooLong else .ok (fs.lookup i name)

/-- A failure to make the directory `p` is forgiven if `p` leads to one. -/
def forgiveDirectory (fs : FileSystem) (p : Path) (e : Errno) : Except Errno Unit × FileSystem :=
  if fs.leadsToDirectory p then (.ok (), fs) else (.error e, fs)

/-- Makes the directories that are missing along the parts of a path, from a trail on. A name that
is there has to lead to a directory, and at most `budget` links are followed in all. -/
def makeMissing (fs : FileSystem) (budget : Nat) (t : Trail) :
    List Part → Except Errno Unit × FileSystem
  | [] => (.ok (), fs)
  | .here :: rest => fs.makeMissing budget t rest
  | .up :: rest => fs.makeMissing budget t.tail rest
  | .name n :: rest =>
    match fs.probe t.here n with
    | .error e => (.error e, fs)
    | .ok none =>
      (fs.make t.here n emptyDirectory).makeMissing budget ((n, fs.nextId t.here) :: t) rest
    | .ok (some _) =>
      match fs.enter budget t n with
      | none => (.error .exists, fs)
      | some (t', more) => fs.makeMissing more t' rest

/-- Makes a directory. When something on the way to it is missing, the directories above it are made
first, so that `a/../b` makes `a` too. -/
def makeDirectories (fs : FileSystem) (path : Bytes) : Except Errno Unit × FileSystem :=
  let p := Path.ofText path
  match fs.makeDirectory p with
  | .ok fs' => (.ok (), fs')
  | .error .noEntry =>
    match fs.makeMissing linkLimit [] p.above with
    | (.error e, fs') => (.error e, fs')
    | (.ok (), fs') =>
      match fs'.makeDirectory p with
      | .ok fs'' => (.ok (), fs'')
      | .error e => fs'.forgiveDirectory p e
  | .error e => fs.forgiveDirectory p e

/-- Makes a link with the text `target`; the name has to be free. -/
def makeLink (fs : FileSystem) (target path : Bytes) : Except Errno FileSystem :=
  let p := Path.ofText path
  if target.contains 0 ∨ p.holdsZero then .error .zeroByte
  else if target = [] then .error .noEntry
  else
    match fs.walk .keep p with
    | .error e => .error e
    | .ok (.inside _) => .error .exists
    | .ok (.entry _ _ (some _) _) => .error .exists
    | .ok (.entry t n none trailing) =>
      if trailing then .error .noEntry else .ok (fs.make t.here n (.link target))

/-- Removes the name of a file, a link or a device. -/
def removeName (fs : FileSystem) (p : Path) : Except Errno FileSystem :=
  match fs.walk .keep p with
  | .error e => .error e
  | .ok (.inside _) => .error .isDirectory
  | .ok (.entry _ _ none _) => .error .noEntry
  | .ok (.entry t n (some i) trailing) =>
    if fs.isDirectory i then .error .isDirectory
    else if trailing then .error .notDirectory
    else .ok (fs.unbind t.here n)

/-- Removes the name of a file, a link or a device, unless the system refuses that. -/
def remove (fs : FileSystem) (path : Bytes) : Except Errno FileSystem :=
  match fs.refusals.remove path with
  | some e => .error e
  | none => fs.removeName (Path.ofText path)

/-- Whether the node `i` is a directory with entries. -/
def isOccupied (fs : FileSystem) (i : NodeId) : Bool :=
  match fs.directory? i with
  | some d => !d.entries.entries.isEmpty
  | none => false

/-- Why a path that ends in no name cannot be the path of a directory to remove. -/
def namelessRefusal (p : Path) : Errno :=
  match p.parts.getLast? with
  | none => .busy
  | some .up => .notEmpty
  | some _ => .invalid

/-- Removes the name of an empty directory. -/
def removeDirectory (fs : FileSystem) (p : Path) : Except Errno FileSystem :=
  match fs.walk .keep p with
  | .error e => .error e
  | .ok (.inside _) => .error (namelessRefusal p)
  | .ok (.entry _ _ none _) => .error .noEntry
  | .ok (.entry t n (some i) _) =>
    if ¬fs.isDirectory i then .error .notDirectory
    else if fs.isOccupied i then .error .notEmpty
    else .ok (fs.unbind t.here n)

/-- Removes all entries of the directory `i`, which `p` leads to, and then the directory. It is no
failure if `p` led there through one of those entries and leads nowhere now. -/
def clear (fs : FileSystem) (p : Path) (i : NodeId) : Except Errno Unit × FileSystem :=
  let fs' := fs.mapDirectory i fun d => { d with entries := Table.empty }
  match fs'.removeDirectory p with
  | .ok fs'' => (.ok (), fs'')
  | .error .noEntry => (.ok (), fs')
  | .error e => (.error e, fs')

/-- Removes a directory with all that it holds, or a link. A link with a slash behind it stands for
the directory that it leads to; that is emptied, but only its own name could remove it. -/
def removeTree (fs : FileSystem) (path : Bytes) : Except Errno Unit × FileSystem :=
  let p := Path.ofText path
  match fs.walk (if p.trailing then .follow else .keep) p with
  | .error e => (.error e, fs)
  | .ok (.inside t) => fs.clear p t.here
  | .ok (.entry _ _ none _) => (.error .noEntry, fs)
  | .ok (.entry t n (some i) _) =>
    match fs.node? i with
    | some (.directory _) => fs.clear p i
    | some (.link _) => (.ok (), fs.unbind t.here n)
    | _ => (.error .notDirectory, fs)

/-- Whether the node `i` may take the place of the node `j`. -/
def mayReplace (fs : FileSystem) (i j : NodeId) : Except Errno Unit :=
  if fs.isDirectory i then
    if ¬fs.isDirectory j then .error .notDirectory
    else if fs.isOccupied j then .error .notEmpty
    else .ok ()
  else if fs.isDirectory j then .error .isDirectory
  else .ok ()

/-- Moves a name, and the node that it is bound to, to another name. What that name was bound to is
replaced, and nothing happens if both are names of one node; a directory cannot go below itself.
Both directories have to be there before either name is looked up, and the old name comes first. -/
def renameName (fs : FileSystem) (p q : Path) : Except Errno FileSystem :=
  if q.holdsZero then .error .zeroByte
  else
    match fs.walk .ignore p, fs.walk .ignore q with
    | .error e, _ => .error e
    | .ok _, .error e => .error e
    | .ok (.entry t n _ trailing), .ok (.entry t' n' _ trailing') =>
      match fs.probe t.here n, fs.probe t'.here n' with
      | .error e, _ => .error e
      | .ok none, _ => .error .noEntry
      | .ok (some _), .error e => .error e
      | .ok (some i), .ok j =>
        if ¬fs.isDirectory i ∧ (trailing ∨ trailing') then .error .notDirectory
        else if i ∈ t'.map Prod.snd then .error .invalid
        else
          match j with
          | none => .ok ((fs.unbind t.here n).bind t'.here n' i)
          | some j =>
            if j ∈ t.map Prod.snd then .error .notEmpty
            else if i = j then .ok fs
            else
              match fs.mayReplace i j with
              | .error e => .error e
              | .ok () => .ok ((fs.unbind t.here n).bind t'.here n' i)
    | .ok _, .ok _ => .error .busy

/-- Moves a name, unless the system refuses that. -/
def rename (fs : FileSystem) (source target : Bytes) : Except Errno FileSystem :=
  match fs.refusals.rename source target with
  | some e => .error e
  | none => fs.renameName (Path.ofText source) (Path.ofText target)

/-- The names in a directory. -/
def listing (fs : FileSystem) (path : Bytes) : Except Errno (List Bytes) :=
  match fs.find (Path.ofText path) with
  | .error e => .error e
  | .ok i =>
    match fs.directory? i with
    | some d => .ok d.entries.keys
    | none => .error .notDirectory

end EngineDir.FileSystem
