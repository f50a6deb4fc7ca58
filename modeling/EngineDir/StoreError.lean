import EngineDir.FileId
import EngineDir.FileSystem.OpenFile

/-!
# Failures of a store

* `StoreError`: the causes for which an operation on an engine directory fails.
* `StoreError.message`: a failure in words.
* `Note`: what an operation tells an observer, next to its result.
-/

namespace EngineDir

/-- Why an operation failed. -/
inductive StoreError where
  /-- The system refused `action` on `path`. -/
  | io (action : String) (path : Bytes) (cause : IoError)
  /-- The store, or the handle, is closed. -/
  | closed
  /-- The store cannot be closed: so many files are open. -/
  | filesStillOpen (count : Nat)
  /-- Someone else holds the lock file `path`. -/
  | alreadyLocked (path : Bytes)
  /-- The turn on the store is taken. -/
  | locked
  /-- The file is open and cannot be opened again. -/
  | alreadyOpen (id : FileId)
  /-- The file is open and cannot be removed. -/
  | stillOpen (id : FileId)
  /-- The operation is not for files of this kind. -/
  | invalidKind (kind : FileKind)
  /-- The pointer file does not name a manifest. -/
  | corrupt (reason : String)
  /-- There is no pointer file. -/
  | notFound
  /-- The options make no sense. -/
  | config (reason : String)
  deriving DecidableEq, Repr

namespace StoreError

/-- The failure in words. -/
def message : StoreError → String
  | .io action path cause =>
    "IO error during " ++ action ++ " on " ++ shownPath path ++ ": " ++ cause.message
  | .closed => "storage closed"
  | .filesStillOpen n =>
    "cannot close, " ++ String.ofList (Decimal.digits n) ++ " files still open"
  | .alreadyLocked path => "storage directory " ++ shownPath path ++ " is already locked"
  | .locked => "storage lock already held"
  | .alreadyOpen id => "file " ++ id.shown ++ " already open"
  | .stillOpen id => "file " ++ id.shown ++ " still open"
  | .invalidKind k => "invalid file kind " ++ k.noun ++ " for this operation"
  | .corrupt reason => "invalid CURRENT file: " ++ reason
  | .notFound => "CURRENT file not found"
  | .config reason => "Configuration error: " ++ reason

/-- The failure of the system below, if there is one. -/
def cause? : StoreError → Option IoError
  | .io _ _ cause => some cause
  | _ => none

end StoreError

/-- How much a note matters. -/
inductive Level where
  | debug
  | info
  | warn
  deriving DecidableEq, Repr

/-- What an operation tells an observer. -/
structure Note where
  level : Level
  text : String
  deriving DecidableEq, Repr

end EngineDir
