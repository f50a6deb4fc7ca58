import EngineDir.DirLock
import EngineDir.Options
import EngineDir.Publication

/-!
# Stores

A `Store` is an engine directory in use. It holds the lock of the directory, keeps
the log of the session and knows which files are open, so that none is opened
twice. All of it is shared by the store's owner, its handles and its turns.

* `Store.open?`: opens a directory.
* `Store.close`: ends the session, unless files are open.
* `Store.abandon`: what happens when the owner lets go of the store.
* `Store.takeTurn`, `Store.endTurn`: the turn, which one at a time can have.
-/

namespace EngineDir

/-- An engine directory in use. -/
structure Store where
  /-- The canonical path of the directory. -/
  dir : Bytes
  /-- Whether a manifest is written back when it is published. -/
  sync : Bool
  /-- Whether the owner still has the store. -/
  owned : Bool
  /-- Whether the session is over. -/
  closed : Bool
  /-- The files that are open. -/
  openIds : List FileId
  /-- The turn that is taken. -/
  turn : Option Nat
  /-- The number of turns taken so far, which is the token of the next one. -/
  nextToken : Nat
  /-- The number of handles that were dropped without being closed. -/
  leaked : Nat
  log : Option SessionLog
  lock : Option DirLock

/-- What an operation on a store leads to. -/
structure Outcome (α : Type) where
  result : Except StoreError α
  fs : FileSystem
  store : Store
  notes : List Note

namespace Outcome

/-- A refusal that changes nothing. -/
def refuse {α : Type} (fs : FileSystem) (s : Store) (e : StoreError) : Outcome α where
  result := .error e
  fs := fs
  store := s
  notes := []

end Outcome

namespace Store

/-- The number of open files. -/
def openCount (s : Store) : Nat := s.openIds.length

/-- The path of a file with the given name. -/
def pathOf (s : Store) (name : List Char) : Bytes := join s.dir (Utf8.encode name)

/-- The store when the file `id` is not open any more. -/
def freed (s : Store) (id : FileId) : Store :=
  { s with openIds := s.openIds.filter fun i => decide (i ≠ id) }

/-- A structured description. -/
def describe (s : Store) : String := "Storage \x7b path: " ++ Quoted.path s.dir ++ ", .. \x7d"

/-- Writes a line to the log, if it is still there. -/
def record (s : Store) (fs : FileSystem) (now : Clock.Reading) (text : String) :
    Store × FileSystem :=
  let (log, fs') := SessionLog.record s.log fs now text
  ({ s with log := log }, fs')

/-- A count of files, as it stands in a message. -/
def countText (n : Nat) : String := String.ofList (Decimal.digits n)

/-- Ends an operation with a warning, which also goes to the log. -/
def warn {α : Type} (fs : FileSystem) (s : Store) (now : Clock.Reading) (text : String)
    (r : Except StoreError α) : Outcome α :=
  let (s', fs') := s.record fs now text
  { result := r, fs := fs', store := s', notes := [⟨.warn, text⟩] }

/-- A store of a directory whose lock is held, at the beginning of its session. -/
def fresh (dir : Bytes) (sync : Bool) (log : SessionLog) (lock : DirLock) : Store where
  dir := dir
  sync := sync
  owned := true
  closed := false
  openIds := []
  turn := none
  nextToken := 0
  leaked := 0
  log := some log
  lock := some lock

/-- The failure of an open whose directory is not there. -/
def missingDirectory : IoError := .stated .notFound "storage directory does not exist"

/-- Makes the directory, or sees that it is there. -/
def prepare (fs : FileSystem) (o : Options) : Except StoreError Unit × FileSystem :=
  if o.createIfMissing then
    match fs.makeDirectories o.dir with
    | (.error e, fs') => (.error (.io "create dir" o.dir (.os e)), fs')
    | (.ok (), fs') => (.ok (), fs')
  else if fs.leadsToDirectory (Path.ofText o.dir) then (.ok (), fs)
  else (.error (.io "open dir" o.dir missingDirectory), fs)

/-- Takes the lock of a directory and begins its log. The lock is given up again if there can be
no log. -/
def enter (fs : FileSystem) (o : Options) (dir : Bytes) : Except StoreError Store × FileSystem :=
  match DirLock.acquire fs dir with
  | (.error e, fs') => (.error e, fs')
  | (.ok lock, fs') =>
    match SessionLog.start fs' dir o.rotateLog with
    | (.error e, fs'') => (.error e, lock.release fs'')
    | (.ok log, fs'') => (.ok (fresh dir o.syncManifest log lock), fs'')

/-- Opens a directory. -/
def open? (fs : FileSystem) (o : Options) : Except StoreError Store × FileSystem :=
  match o.check with
  | .error e => (.error e, fs)
  | .ok () =>
    match prepare fs o with
    | (.error e, fs') => (.error e, fs')
    | (.ok (), fs') =>
      match fs'.canonical (Path.ofText o.dir) with
      | .error e => (.error (.io "canonicalize" o.dir (.os e)), fs')
      | .ok dir => enter fs' o dir

/-- What an observer is told of a successful open. -/
def openedNote (s : Store) : Note := ⟨.info, "Opened storage at " ++ shownPath s.dir⟩

/-- What an observer is told of a close. -/
def closedNote (s : Store) : Note := ⟨.info, "Closed storage at " ++ shownPath s.dir⟩

/-- The sync of the log at the end of a session. -/
def closeLog (s : Store) (fs : FileSystem) : Except StoreError Unit :=
  match s.log with
  | none => .ok ()
  | some l => l.close fs

/-- Gives up the lock, if it is held. -/
def releaseLock (s : Store) (fs : FileSystem) : FileSystem :=
  match s.lock with
  | none => fs
  | some l => l.release fs

/-- A store without log and lock. -/
def vacated (s : Store) : Store := { s with log := none, lock := none }

/-- Ends the session. Nothing but open files can prevent it: the log and the lock are gone
afterwards even if the log cannot be written back. -/
def close (fs : FileSystem) (s : Store) (now : Clock.Reading) : Outcome Unit :=
  if s.closed then .refuse fs s .closed
  else if s.openCount ≠ 0 then
    s.warn fs now ("refuse to close, " ++ countText s.openCount ++ " files still open")
      (.error (.filesStillOpen s.openCount))
  else
    { result := s.closeLog fs
      fs := s.releaseLock fs
      store := { s.vacated with closed := true }
      notes := [s.closedNote] }

/-- The owner lets go of the store. A session that is not over ends here. Its log and its lock go at
once if no file is open; otherwise they stay until nobody has a part in the store any more. -/
def abandon (fs : FileSystem) (s : Store) (now : Clock.Reading) : Outcome Unit :=
  if s.closed then { result := .ok (), fs := fs, store := { s with owned := false }, notes := [] }
  else
    let o : Outcome Unit := s.warn fs now
      ("storage dropped without close, " ++ countText s.openCount ++ " files still open") (.ok ())
    let ended := { o.store with owned := false, closed := true }
    if s.openCount ≠ 0 then { o with store := ended }
    else
      { result := .ok ()
        fs := ended.releaseLock o.fs
        store := ended.vacated
        notes := o.notes ++
          match ended.closeLog o.fs with
          | .ok () => []
          | .error e => [⟨.warn, "close log on drop: " ++ e.message⟩] }

/-- Nobody has a part in the store any more: the log and the lock go. -/
def vacate (fs : FileSystem) (s : Store) : Store × FileSystem := (s.vacated, s.releaseLock fs)

/-- Writes a message to the log; a store whose session is over ignores it. -/
def logMessage (fs : FileSystem) (s : Store) (now : Clock.Reading) (text : String) :
    Store × FileSystem :=
  if s.closed then (s, fs) else s.record fs now text

/-- Takes the turn, unless it is taken. The result is its token. -/
def takeTurn (fs : FileSystem) (s : Store) : Outcome Nat :=
  if s.closed then .refuse fs s .closed
  else if s.turn.isSome then .refuse fs s .locked
  else
    { result := .ok s.nextToken
      fs := fs
      store := { s with turn := some s.nextToken, nextToken := s.nextToken + 1 }
      notes := [] }

/-- Ends the turn with the given token, if it is that one that is taken. -/
def endTurn (s : Store) (token : Nat) : Store :=
  if s.turn = some token then { s with turn := none } else s

end Store

end EngineDir
