import EngineDir.Store.Files

/-!
# The world

A `World` is a file system together with everything that is in use on it: stores,
their handles and turns, and locks and logs that are used without a store. Each
of these has a number; a number that is in use stands for nothing else, and the
number of a store stays in use when its owner lets go of it.

* `Event`: what can happen; `Event.outside` is what others do to the file system.
* `World.step`: what an event leads to, at the time that a clock shows.
* `World.run`: what several events lead to.
* `World.settle`: the log and the lock of a store go when nobody has a share in it:
  neither an owner, nor a handle, open or closed, nor a turn.
-/

namespace EngineDir

/-- Something that belongs to the store with the number `store`. -/
structure Share (α : Type) where
  store : Nat
  value : α

/-- A file system and everything that is in use on it. -/
structure World where
  fs : FileSystem
  stores : Table Nat Store
  handles : Table Nat (Share Handle)
  /-- The turns that are taken, by their tokens. -/
  turns : Table Nat (Share Nat)
  locks : Table Nat DirLock
  logs : Table Nat SessionLog

/-- What others do to the file system. -/
inductive Outside where
  | write (path bytes : Bytes)
  | makeDirectories (path : Bytes)
  | makeLink (target path : Bytes)
  | remove (path : Bytes)
  | removeTree (path : Bytes)
  | rename (source target : Bytes)

/-- What is asked of a store. -/
inductive StoreRequest where
  | close
  | abandon
  | log (text : String)
  | list (kinds : KindSet)
  | manifest
  | setManifest (id : FileId)
  | removeFile (id : FileId)
  | openFile (handle : Nat) (id : FileId)
  | createFile (handle : Nat) (id : FileId)
  | takeTurn (turn : Nat)

/-- What is asked of a handle. -/
inductive HandleRequest where
  | close
  | abandon
  | seek (m : Movement)
  | read (count : Nat)
  | readExact (count : Nat)
  | readAll
  | readAt (pos count : Nat)
  | readExactAt (pos count : Nat)
  | length
  | isEmpty
  | write (bytes : Bytes)
  | flush
  | sync

/-- Whether a handle of the given mode can be asked for this: readers do not write, and writers do
not read. -/
def HandleRequest.suits : HandleRequest → Mode → Bool
  | .read _, m => decide (m = .reader)
  | .readExact _, m => decide (m = .reader)
  | .readAll, m => decide (m = .reader)
  | .readAt _ _, m => decide (m = .reader)
  | .readExactAt _ _, m => decide (m = .reader)
  | .length, m => decide (m = .reader)
  | .isEmpty, m => decide (m = .reader)
  | .write _, m => decide (m = .writer)
  | .flush, m => decide (m = .writer)
  | .sync, m => decide (m = .writer)
  | _, _ => true

/-- What can happen. -/
inductive Event where
  | outside (o : Outside)
  | openStore (store : Nat) (options : Options)
  | store (store : Nat) (request : StoreRequest)
  | handle (handle : Nat) (request : HandleRequest)
  | endTurn (turn : Nat)
  | acquire (lock : Nat) (dir : Bytes)
  | release (lock : Nat)
  | openLog (log : Nat) (dir : Bytes) (rotate : Bool)
  | writeLog (log : Nat) (text : String)
  | closeLog (log : Nat)
  | abandonLog (log : Nat)
  | readManifest (dir : Bytes)

/-- Why an event did not lead to a value. -/
inductive Failure where
  | store (e : StoreError)
  | io (e : IoError)
  /-- The event names a thing that is not in use, one that is and should not be, or a handle of the
  wrong mode. -/
  | misnamed
  deriving DecidableEq

/-- What an event can answer. -/
inductive Value where
  | done
  | id (id : FileId)
  | ids (ids : List FileId)
  | bytes (b : Bytes)
  | count (n : Nat)
  | flag (b : Bool)
  deriving DecidableEq

/-- What an event leads to. -/
structure Reaction where
  world : World
  answer : Except Failure Value
  notes : List Note

namespace World

/-- A world in which nothing is in use. -/
def ofFileSystem (fs : FileSystem) : World where
  fs := fs
  stores := Table.empty
  handles := Table.empty
  turns := Table.empty
  locks := Table.empty
  logs := Table.empty

/-- An answer that leaves the world as it is. -/
def answering (w : World) (a : Except Failure Value) : Reaction where
  world := w
  answer := a
  notes := []

/-- A result of a store as an answer. -/
def storeAnswer {α : Type} (f : α → Value) : Except StoreError α → Except Failure Value
  | .error e => .error (.store e)
  | .ok a => .ok (f a)

/-- A result of a transfer as an answer. -/
def ioAnswer {α : Type} (f : α → Value) : Except IoError α → Except Failure Value
  | .error e => .error (.io e)
  | .ok a => .ok (f a)

/-- Whether anything in a table belongs to the store `s`. -/
def anyShare {α : Type} (t : Table Nat (Share α)) (s : Nat) : Bool :=
  t.entries.any fun e => decide (e.2.store = s)

/-- Whether someone has a share in the store `s`. -/
def isShared (w : World) (s : Nat) (st : Store) : Bool :=
  st.owned || anyShare w.handles s || anyShare w.turns s

/-- Lets the log and the lock of the store `s` go if nobody has a share in it. -/
def settle (w : World) (s : Nat) : World :=
  match w.stores.get? s with
  | none => w
  | some st =>
    if w.isShared s st then w
    else
      let (st', fs) := st.vacate w.fs
      { w with fs := fs, stores := w.stores.insert s st' }

/-- The world with the store `s` and the file system that an operation led to. -/
def withOutcome {α : Type} (w : World) (s : Nat) (o : Outcome α) : World :=
  { w with fs := o.fs, stores := w.stores.insert s o.store }

/-- The reaction to an operation on the store `s`. -/
def reacting {α : Type} (w : World) (s : Nat) (f : α → Value) (o : Outcome α) : Reaction where
  world := w.withOutcome s o
  answer := storeAnswer f o.result
  notes := o.notes

/-- The reaction to a request for a handle of the store `s`, which gets the number `h`. -/
def receiving (w : World) (s h : Nat) (o : Outcome Handle) : Reaction :=
  match o.result with
  | .error _ => w.reacting s (fun _ => .done) o
  | .ok x =>
    let w' := w.withOutcome s o
    { world := { w' with handles := w'.handles.insert h ⟨s, x⟩ }
      answer := .ok .done
      notes := o.notes }

/-- The reaction to a request for the turn on the store `s`, which gets the number `l`. -/
def receivingTurn (w : World) (s l : Nat) (o : Outcome Nat) : Reaction :=
  match o.result with
  | .error _ => w.reacting s (fun _ => .done) o
  | .ok token =>
    let w' := w.withOutcome s o
    { world := { w' with turns := w'.turns.insert l ⟨s, token⟩ }
      answer := .ok .done
      notes := o.notes }

/-- The reaction to what is asked of the store `s`. -/
def stepStore (w : World) (now : Clock.Reading) (s : Nat) (st : Store) : StoreRequest → Reaction
  | .close => w.reacting s (fun _ => .done) (st.close w.fs now)
  | .abandon =>
    let r := w.reacting s (fun _ => .done) (st.abandon w.fs now)
    { r with world := r.world.settle s }
  | .log text =>
    let (st', fs) := st.logMessage w.fs now text
    { world := { w with fs := fs, stores := w.stores.insert s st' }, answer := .ok .done,
      notes := [] }
  | .list kinds => w.answering (storeAnswer .ids (st.list w.fs kinds))
  | .manifest => w.answering (storeAnswer .id (st.manifest w.fs))
  | .setManifest id => w.reacting s (fun _ => .done) (st.setManifest w.fs now id)
  | .removeFile id => w.reacting s (fun _ => .done) (st.removeFile w.fs now id)
  | .openFile h id =>
    if w.handles.contains h then w.answering (.error .misnamed)
    else w.receiving s h (st.openFile w.fs id)
  | .createFile h id =>
    if w.handles.contains h then w.answering (.error .misnamed)
    else w.receiving s h (st.createFile w.fs id)
  | .takeTurn l =>
    if w.turns.contains l then w.answering (.error .misnamed)
    else w.receivingTurn s l (st.takeTurn w.fs)

/-- The world in which the handle `h` of the store `s` has changed. -/
def withHandle (w : World) (s h : Nat) (x : Handle) : World :=
  { w with handles := w.handles.insert h ⟨s, x⟩ }

/-- The reaction to a transfer that changes nothing but the cursor of the handle `h`. -/
def transferring {α : Type} (w : World) (s h : Nat) (f : α → Value)
    (r : Except IoError α × Handle) : Reaction where
  world := w.withHandle s h r.2
  answer := ioAnswer f r.1
  notes := []

/-- The reaction to what is asked of the handle `h`, which belongs to the store `s`. -/
def stepHandle (w : World) (now : Clock.Reading) (h s : Nat) (st : Store) (x : Handle) :
    HandleRequest → Reaction
  | .close =>
    let (o, x') := x.close w.fs st now
    (w.withHandle s h x').reacting s (fun _ => .done) o
  | .abandon =>
    let r := { w with handles := w.handles.erase h }.reacting s (fun _ => .done)
      (x.abandon w.fs st now)
    { r with world := r.world.settle s }
  | .seek m => w.transferring s h .count (x.seek w.fs m)
  | .read n => w.transferring s h .bytes (x.read w.fs n)
  | .readExact n => w.transferring s h .bytes (x.readExact w.fs n)
  | .readAll => w.transferring s h .bytes (x.readAll w.fs)
  | .readAt pos n => w.answering (ioAnswer .bytes (x.readAt w.fs pos n))
  | .readExactAt pos n => w.answering (ioAnswer .bytes (x.readExactAt w.fs pos n))
  | .length => w.answering (storeAnswer .count (x.length w.fs))
  | .isEmpty => w.answering (storeAnswer .flag (x.isEmpty w.fs))
  | .write bytes =>
    let (r, x', fs) := x.write w.fs bytes
    { w with fs := fs }.transferring s h .count (r, x')
  | .flush => w.answering (ioAnswer (fun _ => .done) x.flush)
  | .sync => w.answering (storeAnswer (fun _ => .done) (x.syncFile w.fs))

/-- Writes a file, which is made or emptied first; without bytes nothing is written. It fails when
there is room for a part of the bytes only, and leaves that part. -/
def writeFile (fs : FileSystem) (path bytes : Bytes) : Except Errno Unit × FileSystem :=
  match fs.openForWriting true path with
  | .error e => (.error e, fs)
  | .ok (fs', i) =>
    if bytes = [] then (.ok (), fs')
    else
      let part := fs'.accepted i 0 bytes
      match fs'.writeAt i 0 part with
      | .error e => (.error e, fs')
      | .ok fs'' => (if part.length < bytes.length then .error .noSpace else .ok (), fs'')

/-- A change of the file system that fails without effect. -/
def whole (fs : FileSystem) : Except Errno FileSystem → Except Errno Unit × FileSystem
  | .error e => (.error e, fs)
  | .ok fs' => (.ok (), fs')

/-- What others do to a file system. -/
def actOutside (fs : FileSystem) : Outside → Except Errno Unit × FileSystem
  | .write path bytes => writeFile fs path bytes
  | .makeDirectories path => fs.makeDirectories path
  | .makeLink target path => whole fs (fs.makeLink target path)
  | .remove path => whole fs (fs.remove path)
  | .removeTree path => fs.removeTree path
  | .rename source target => whole fs (fs.rename source target)

/-- A refusal of the system as an answer. -/
def osAnswer : Except Errno Unit → Except Failure Value
  | .error e => .error (.io (.os e))
  | .ok () => .ok .done

/-- The reaction to the opening of a store. -/
def stepOpen (w : World) (s : Nat) (o : Options) : Reaction :=
  match Store.open? w.fs o with
  | (.error e, fs) => { w with fs := fs }.answering (.error (.store e))
  | (.ok st, fs) =>
    { world := { w with fs := fs, stores := w.stores.insert s st }
      answer := .ok .done
      notes := [st.openedNote] }

/-- The reaction to the end of the turn `l`. -/
def stepEndTurn (w : World) (l : Nat) (t : Share Nat) : World :=
  let w' := { w with turns := w.turns.erase l }
  match w'.stores.get? t.store with
  | none => w'
  | some st => { w' with stores := w'.stores.insert t.store (st.endTurn t.value) }.settle t.store

/-- What an event leads to. -/
def step (now : Clock.Reading) (w : World) : Event → Reaction
  | .outside o =>
    let (r, fs) := actOutside w.fs o
    { w with fs := fs }.answering (osAnswer r)
  | .openStore s o =>
    if w.stores.contains s then w.answering (.error .misnamed) else w.stepOpen s o
  | .store s r =>
    match w.stores.get? s with
    | none => w.answering (.error .misnamed)
    | some st => if st.owned then w.stepStore now s st r else w.answering (.error .misnamed)
  | .handle h r =>
    match w.handles.get? h with
    | none => w.answering (.error .misnamed)
    | some x =>
      match w.stores.get? x.store with
      | none => w.answering (.error .misnamed)
      | some st =>
        if r.suits x.value.mode then w.stepHandle now h x.store st x.value r
        else w.answering (.error .misnamed)
  | .endTurn l =>
    match w.turns.get? l with
    | none => w.answering (.error .misnamed)
    | some t => (w.stepEndTurn l t).answering (.ok .done)
  | .acquire l dir =>
    if w.locks.contains l then w.answering (.error .misnamed)
    else
      match DirLock.acquire w.fs dir with
      | (.error e, fs) => { w with fs := fs }.answering (.error (.store e))
      | (.ok lock, fs) => { w with fs := fs, locks := w.locks.insert l lock }.answering (.ok .done)
  | .release l =>
    match w.locks.get? l with
    | none => w.answering (.error .misnamed)
    | some lock =>
      { w with fs := lock.release w.fs, locks := w.locks.erase l }.answering (.ok .done)
  | .openLog l dir rotate =>
    if w.logs.contains l then w.answering (.error .misnamed)
    else
      match SessionLog.start w.fs dir rotate with
      | (.error e, fs) => { w with fs := fs }.answering (.error (.store e))
      | (.ok log, fs) => { w with fs := fs, logs := w.logs.insert l log }.answering (.ok .done)
  | .writeLog l text =>
    match w.logs.get? l with
    | none => w.answering (.error .misnamed)
    | some log =>
      let (log', fs) := log.write w.fs now text
      { w with fs := fs, logs := w.logs.insert l log' }.answering (.ok .done)
  | .closeLog l =>
    match w.logs.get? l with
    | none => w.answering (.error .misnamed)
    | some log =>
      { w with logs := w.logs.erase l }.answering (storeAnswer (fun _ => .done) (log.close w.fs))
  | .abandonLog l =>
    match w.logs.get? l with
    | none => w.answering (.error .misnamed)
    | some _ => { w with logs := w.logs.erase l }.answering (.ok .done)
  | .readManifest dir => w.answering (storeAnswer .id (Current.read w.fs dir))

/-- What several events lead to, each at the time that the clock shows then. -/
def run (w : World) : List (Clock.Reading × Event) → World
  | [] => w
  | (now, e) :: rest => (step now w e).world.run rest

end World

end EngineDir
