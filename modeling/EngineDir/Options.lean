import EngineDir.StoreError

/-!
# Options

How an engine directory is opened.

* `Options`: the directory and three switches, all on by default.
* `Options.apply`: changes one of them.
* `Options.check`: refuses an empty directory.
-/

namespace EngineDir

/-- How an engine directory is opened. -/
structure Options where
  /-- The path of the directory. -/
  dir : Bytes := Utf8.ofText "./atlas_data"
  /-- Make the directory, and those above it, if they are missing. -/
  createIfMissing : Bool := true
  /-- Write back the staged pointer before it is published, and the directory afterwards. -/
  syncManifest : Bool := true
  /-- Keep the log of the session before. -/
  rotateLog : Bool := true
  deriving DecidableEq

namespace Options

/-- A change of one option. -/
inductive Setting where
  | dir (path : Bytes)
  | createIfMissing (b : Bool)
  | syncManifest (b : Bool)
  | rotateLog (b : Bool)

/-- Changes one option. -/
def apply (o : Options) : Setting → Options
  | .dir path => { o with dir := path }
  | .createIfMissing b => { o with createIfMissing := b }
  | .syncManifest b => { o with syncManifest := b }
  | .rotateLog b => { o with rotateLog := b }

/-- The default options with changes made in their order; a later change wins. -/
def ofSettings (l : List Setting) : Options := l.foldl apply {}

/-- The default options for a directory. -/
def forDirectory (path : Bytes) : Options := ofSettings [.dir path]

/-- Refuses an empty directory. -/
def check (o : Options) : Except StoreError Unit :=
  if o.dir = [] then .error (.config "data_dir must not be empty") else .ok ()

end Options

end EngineDir
