import EngineDir.Store.Basic

/-!
# Handles

A handle is a file of a store, open for reading or for writing. It counts among
the store's open files until it is closed; after that it fails every operation.

* `Handle.close`: closes a handle; a writer writes back what is pending.
* `Handle.abandon`: drops a handle. One that was not closed is a leak.
* `Handle.read`, `Handle.readExact`, `Handle.readAll`: reads at the cursor.
* `Handle.readAt`, `Handle.readExactAt`: reads at a position, past the cursor.
* `Handle.write`, `Handle.flush`, `Handle.syncFile`, `Handle.seek`.
-/

namespace EngineDir

/-- What a handle is open for. -/
inductive Mode where
  | reader
  | writer
  deriving DecidableEq, Repr

/-- A handle: the file, its path, and what is open; nothing is, once the handle is closed. -/
structure Handle where
  id : FileId
  path : Bytes
  mode : Mode
  file : Option OpenFile
  deriving DecidableEq

namespace Mode

/-- The mode in a structured description. -/
def label : Mode → String
  | .reader => "FileReader"
  | .writer => "FileWriter"

end Mode

namespace Handle

/-- Whether the handle is closed. -/
def isClosed (h : Handle) : Bool := h.file.isNone

/-- A structured description. -/
def describe (h : Handle) : String :=
  h.mode.label ++ " \x7b fd: " ++ h.id.describe ++ ", closed: " ++
    (if h.isClosed then "true" else "false") ++ " \x7d"

/-- The failure of every transfer on a closed handle. -/
def closedError (h : Handle) : IoError :=
  .stated .other (h.id.shown ++ " handle already closed")

/-- The handle without its file. -/
def shut (h : Handle) : Handle := { h with file := none }

/-- What a close has to write back. -/
def pending (fs : FileSystem) (h : Handle) (f : OpenFile) : Except Errno Unit :=
  match h.mode with
  | .reader => .ok ()
  | .writer => fs.sync f.node

/-- Closes a handle. It is closed, and its file free, even if writing back fails. -/
def close (fs : FileSystem) (s : Store) (now : Clock.Reading) (h : Handle) :
    Outcome Unit × Handle :=
  match h.file with
  | none => (.refuse fs s .closed, h)
  | some f =>
    let s' := s.freed h.id
    match pending fs h f with
    | .error e =>
      (s'.warn fs now ("close " ++ h.id.shown ++ ": " ++ (IoError.os e).message)
        (.error (.io "close" h.path (.os e))), h.shut)
    | .ok () =>
      ({ result := .ok ()
         fs := fs
         store := s'
         notes := [⟨.debug, "close " ++ h.id.shown ++ " (" ++ Store.countText s'.openCount ++
           " open)"⟩] }, h.shut)

/-- Drops a handle. One that is not closed counts as leaked. -/
def abandon (fs : FileSystem) (s : Store) (now : Clock.Reading) (h : Handle) : Outcome Unit :=
  match h.file with
  | none => { result := .ok (), fs := fs, store := s, notes := [] }
  | some _ =>
    let s' := s.freed h.id
    { s' with leaked := s'.leaked + 1 }.warn fs now
      ("leaked " ++ h.id.shown ++ " handle: dropped without close") (.ok ())

/-- The open file of a handle. -/
def file? (h : Handle) : Except IoError OpenFile :=
  match h.file with
  | none => .error h.closedError
  | some f => .ok f

/-- A read of the file system, with the failures of input and output. -/
def readNode (fs : FileSystem) (i : NodeId) (pos count : Nat) : Except IoError Bytes :=
  match fs.readAt i pos count with
  | .error e => .error (.os e)
  | .ok b => .ok b

/-- Moves the cursor past what was transferred. -/
def advanced (fs : FileSystem) (h : Handle) (f : OpenFile) (count : Nat) : Handle :=
  { h with file := some (fs.advance f count) }

/-- Up to `count` bytes from `pos` on. -/
def readAt (fs : FileSystem) (h : Handle) (pos count : Nat) : Except IoError Bytes :=
  match h.file? with
  | .error e => .error e
  | .ok f => readNode fs f.node pos count

/-- Exactly `count` bytes from `pos` on. -/
def readExactAt (fs : FileSystem) (h : Handle) (pos count : Nat) : Except IoError Bytes :=
  fill (h.readAt fs) pos count

/-- Up to `count` bytes at the cursor. -/
def read (fs : FileSystem) (h : Handle) (count : Nat) : Except IoError Bytes × Handle :=
  match h.file? with
  | .error e => (.error e, h)
  | .ok f =>
    match readNode fs f.node f.pos count with
    | .error e => (.error e, h)
    | .ok b => (.ok b, h.advanced fs f b.length)

/-- Exactly `count` bytes at the cursor. When the file ends before, what there was is lost. -/
def readExact (fs : FileSystem) (h : Handle) (count : Nat) : Except IoError Bytes × Handle :=
  if count = 0 then (.ok [], h)
  else
    match h.read fs count with
    | (.error e, h') => (.error e, h')
    | (.ok b, h') => if b.length < count then (.error .endOfFile, h') else (.ok b, h')

/-- The least number of bytes that a read to the end asks for at a time. -/
def probe : Nat := 32

/-- All bytes from the cursor on. -/
def readAll (fs : FileSystem) (h : Handle) : Except IoError Bytes × Handle :=
  match h.file? with
  | .error e => (.error e, h)
  | .ok f =>
    match readNode fs f.node f.pos probe with
    | .error e => (.error e, h)
    | .ok _ =>
      if fs.isEndless f.node then (.error (.os .noMemory), h)
      else h.read fs (fs.size f.node - f.pos)

/-- The failure of an operation that is reported with the file's path. -/
def ioError (h : Handle) (action : String) (e : IoError) : StoreError := .io action h.path e

/-- The size of the file. -/
def length (fs : FileSystem) (h : Handle) : Except StoreError Nat :=
  match h.file? with
  | .error e => .error (h.ioError "stat" e)
  | .ok f => .ok (fs.size f.node)

/-- Whether the file has no bytes. -/
def isEmpty (fs : FileSystem) (h : Handle) : Except StoreError Bool :=
  match h.length fs with
  | .error e => .error e
  | .ok n => .ok (decide (n = 0))

/-- Moves the cursor. -/
def seek (fs : FileSystem) (h : Handle) (m : Movement) : Except IoError Nat × Handle :=
  match h.file? with
  | .error e => (.error e, h)
  | .ok f =>
    match fs.seek f m with
    | .error e => (.error (.os e), h)
    | .ok pos => (.ok pos, { h with file := some { f with pos := pos } })

/-- Writes bytes at the cursor, as many as there is room for. The result is their number. -/
def write (fs : FileSystem) (h : Handle) (bytes : Bytes) :
    Except IoError Nat × Handle × FileSystem :=
  match h.file? with
  | .error e => (.error e, h, fs)
  | .ok f =>
    let part := fs.accepted f.node f.pos bytes
    match fs.writeAt f.node f.pos part with
    | .error e => (.error (.os e), h, fs)
    | .ok fs' => (.ok part.length, h.advanced fs f part.length, fs')

/-- Passes on what is buffered; nothing ever is. -/
def flush (h : Handle) : Except IoError Unit :=
  match h.file? with
  | .error e => .error e
  | .ok _ => .ok ()

/-- Writes back what is pending. -/
def syncFile (fs : FileSystem) (h : Handle) : Except StoreError Unit :=
  match h.file? with
  | .error e => .error (h.ioError "sync" e)
  | .ok f =>
    match fs.sync f.node with
    | .error e => .error (h.ioError "sync" (.os e))
    | .ok () => .ok ()

end Handle

end EngineDir
