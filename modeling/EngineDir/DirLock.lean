import EngineDir.StoreError

/-!
# The lock of a directory

Whoever uses an engine directory holds the exclusive lock on its file `LOCK`. The
lock is on the node, so it does not matter by which path the directory is named.

* `DirLock.acquire`: takes the lock, or fails at once when someone holds it.
* `DirLock.release`: gives it up.
-/

namespace EngineDir

/-- A lock that is held: the path of the lock file as it was named, and its node. -/
structure DirLock where
  path : Bytes
  node : NodeId
  deriving DecidableEq

namespace DirLock

/-- The name of the lock file. -/
def fileName : List Char := ['L', 'O', 'C', 'K']

/-- The path of the lock file in a directory. -/
def pathIn (dir : Bytes) : Bytes := join dir (Utf8.encode fileName)

/-- Takes the lock of a directory. A missing lock file is made, and stays even if the lock is
refused. -/
def acquire (fs : FileSystem) (dir : Bytes) : Except StoreError DirLock × FileSystem :=
  let path := pathIn dir
  match fs.openForWriting false path with
  | .error e => (.error (.io "open lock" path (.os e)), fs)
  | .ok (fs', i) =>
    match fs'.tryLock i with
    | none => (.error (.alreadyLocked path), fs')
    | some fs'' => (.ok { path := path, node := i }, fs'')

/-- Gives up the lock. -/
def release (fs : FileSystem) (l : DirLock) : FileSystem := fs.unlock l.node

end DirLock

end EngineDir
