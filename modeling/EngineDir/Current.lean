import EngineDir.StoreError

/-!
# The pointer to the current manifest

The file `CURRENT` names the manifest in use, in exactly one line: the name and a
line feed.

* `Current.line`: the line for a manifest.
* `Current.parse`: what the contents of the file say, or what is wrong with them.
* `Current.read`: the manifest that a directory's pointer names.
-/

namespace EngineDir.Current

/-- The name of the pointer file. -/
def fileName : List Char := ['C', 'U', 'R', 'R', 'E', 'N', 'T']

/-- The path of the pointer file in a directory. -/
def pathIn (dir : Bytes) : Bytes := join dir (Utf8.encode fileName)

/-- The name under which the pointer to the manifest `seq` is staged. -/
def stagingName (seq : UInt64) : List Char :=
  fileName ++ '.' :: Decimal.digits seq.toNat

/-- The path of the staged pointer in a directory. -/
def stagingPathIn (dir : Bytes) (seq : UInt64) : Bytes :=
  join dir (Utf8.encode (stagingName seq))

/-- The line that names `id`. -/
def line (id : FileId) : Bytes := Utf8.encode (id.text ++ ['\n'])

/-- What is wrong with a pointer file. -/
inductive Fault where
  | unterminated
  | notText
  | notManifest (name : List Char) (kind : FileKind)
  | unrecognized (name : List Char)
  deriving DecidableEq, Repr

/-- The fault in words. -/
def Fault.message : Fault → String
  | .unterminated => "missing trailing newline"
  | .notText => "name is not valid UTF-8"
  | .notManifest name kind => String.ofList name ++ " is a " ++ kind.noun ++ ", not a manifest"
  | .unrecognized name => "unrecognized file name " ++ Quoted.text name

/-- The bytes before the line feed at the end of `b`, if there is one. -/
def body? (b : Bytes) : Option Bytes :=
  if b.getLast? = some 10 then some b.dropLast else none

/-- The manifest that the contents of a pointer file name. -/
def parse (b : Bytes) : Except Fault FileId :=
  match body? b with
  | none => .error .unterminated
  | some body =>
    match Utf8.decode? body with
    | none => .error .notText
    | some name =>
      match FileId.ofName? name with
      | none => .error (.unrecognized name)
      | some id =>
        if id.kind = .manifest then .ok id else .error (.notManifest name id.kind)

/-- All the bytes of the node `i`. -/
def contents (fs : FileSystem) (i : NodeId) : Except Errno Bytes :=
  if fs.isEndless i then .error .noMemory else fs.readAt i 0 (fs.size i)

/-- The manifest that the pointer of a directory names. -/
def read (fs : FileSystem) (dir : Bytes) : Except StoreError FileId :=
  let path := pathIn dir
  match fs.openForReading path with
  | .error .noEntry => .error .notFound
  | .error e => .error (.io "read" path (.os e))
  | .ok i =>
    match contents fs i with
    | .error e => .error (.io "read" path (.os e))
    | .ok b =>
      match parse b with
      | .error f => .error (.corrupt f.message)
      | .ok id => .ok id

end EngineDir.Current
