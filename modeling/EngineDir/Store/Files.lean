import EngineDir.Store.Handle

/-!
# The files of a store

* `Store.list`: the files of the selected kinds, one for each entry of the directory that has the
  name of one.
* `Store.openFile`, `Store.createFile`: open a file, unless it is open.
* `Store.removeFile`: removes a file, unless it is open.
* `Store.manifest`, `Store.setManifest`: the manifest in use.
-/

namespace EngineDir.Store

/-- The file whose name an entry of the directory has, if its kind is selected. -/
def listed? (kinds : KindSet) (entry : Bytes) : Option FileId :=
  match Utf8.decode? entry with
  | none => none
  | some name =>
    match FileId.ofName? name with
    | none => none
    | some id => if kinds.contains id.kind then some id else none

/-- The files of the selected kinds, in the order of the directory. -/
def list (fs : FileSystem) (s : Store) (kinds : KindSet) : Except StoreError (List FileId) :=
  if s.closed then .error .closed
  else
    match fs.listing s.dir with
    | .error e => .error (.io "read dir" s.dir (.os e))
    | .ok names => .ok (names.filterMap (listed? kinds))

/-- The name of a file that is to be opened or removed, or why that cannot be. A closed store is
found out first, then a kind without names, then a file that is open. -/
def access (s : Store) (id : FileId) (busy : FileId → StoreError) : Except StoreError (List Char) :=
  if s.closed then .error .closed
  else
    match id.name? with
    | none => .error (.invalidKind id.kind)
    | some name => if id ∈ s.openIds then .error (busy id) else .ok name

/-- The outcome of opening `id`, which is at `path`: a handle, and one more open file. -/
def granted (fs : FileSystem) (s : Store) (action : String) (mode : Mode) (id : FileId)
    (path : Bytes) (i : NodeId) : Outcome Handle :=
  let s' := { s with openIds := id :: s.openIds }
  { result := .ok { id := id, path := path, mode := mode, file := some { node := i, pos := 0 } }
    fs := fs
    store := s'
    notes := [⟨.debug, action ++ " " ++ id.shown ++ " (" ++ countText s'.openCount ++ " open)"⟩] }

/-- Opens an existing file for reading. -/
def openFile (fs : FileSystem) (s : Store) (id : FileId) : Outcome Handle :=
  match s.access id .alreadyOpen with
  | .error e => .refuse fs s e
  | .ok name =>
    let path := s.pathOf name
    match fs.openForReading path with
    | .error e => .refuse fs s (.io "open" path (.os e))
    | .ok i => s.granted fs "open" .reader id path i

/-- Opens a file for writing; it is made if it is missing, and emptied if it is not. -/
def createFile (fs : FileSystem) (s : Store) (id : FileId) : Outcome Handle :=
  match s.access id .alreadyOpen with
  | .error e => .refuse fs s e
  | .ok name =>
    let path := s.pathOf name
    match fs.openForWriting true path with
    | .error e => .refuse fs s (.io "create" path (.os e))
    | .ok (fs', i) => s.granted fs' "create" .writer id path i

/-- Removes a file. -/
def removeFile (fs : FileSystem) (s : Store) (now : Clock.Reading) (id : FileId) : Outcome Unit :=
  match s.access id .stillOpen with
  | .error e => .refuse fs s e
  | .ok name =>
    let path := s.pathOf name
    match fs.remove path with
    | .error e =>
      s.warn fs now ("remove " ++ id.shown ++ ": " ++ (IoError.os e).message)
        (.error (.io "remove" path (.os e)))
    | .ok fs' =>
      { result := .ok (), fs := fs', store := s, notes := [⟨.debug, "Removed " ++ id.shown⟩] }

/-- The manifest that is in use. -/
def manifest (fs : FileSystem) (s : Store) : Except StoreError FileId :=
  if s.closed then .error .closed else Current.read fs s.dir

/-- How the store publishes a manifest. -/
def proposal (s : Store) (now : Clock.Reading) (id : FileId) : Proposal where
  dir := s.dir
  sync := s.sync
  id := id
  now := now

/-- What an observer is told of a published manifest. -/
def publishedNote (id : FileId) : Note :=
  ⟨.debug, "Published " ++ id.shown ++ " as current manifest"⟩

/-- Publishes a manifest. -/
def setManifest (fs : FileSystem) (s : Store) (now : Clock.Reading) (id : FileId) : Outcome Unit :=
  if s.closed then .refuse fs s .closed
  else if id.kind ≠ .manifest then .refuse fs s (.invalidKind id.kind)
  else
    let u := Publication.run (s.proposal now id) fs s.log
    match u.error? with
    | some e =>
      { result := .error e, fs := u.fs, store := { s with log := u.log }, notes := u.notes }
    | none =>
      { result := .ok ()
        fs := u.fs
        store := { s with log := u.log }
        notes := u.notes ++ [publishedNote id] }

end EngineDir.Store
