import EngineDir.Current
import EngineDir.SessionLog

/-!
# Publishing a manifest

The pointer to a new manifest is staged in `CURRENT.<seq>` and then renamed over
`CURRENT`, so that a reader finds the old line or the new one. If the pointer
cannot be staged or renamed, the failure is logged and the staged file removed.
What fails after the renaming is only logged.

A publication is a machine that makes **one call to the file system in each
step** (`Publication.step`); a line is written one byte after the other. The state
after `k` steps (`Publication.after`) is therefore what is left if the publication
is cut off there, and every interruption of it is one of these states.

* `Publication.begin`, `Publication.step`, `Publication.after`
* `Publication.run`: the publication at its end (`after_add`: more steps change nothing there).
-/

namespace EngineDir

/-- What is to be published, and how. -/
structure Proposal where
  /-- The path of the directory. -/
  dir : Bytes
  /-- Write back the staged file before it is renamed, and the directory afterwards. -/
  sync : Bool
  /-- The manifest. -/
  id : FileId
  /-- The time at which failures are logged. -/
  now : Clock.Reading

namespace Publication

/-- What a publication does next. -/
inductive Stage where
  /-- Open the staged file, emptied. -/
  | create
  /-- Write the next byte of the line. -/
  | write (file : OpenFile) (b : UInt8) (rest : Bytes)
  /-- Write back the staged file. -/
  | sync (file : OpenFile)
  /-- Rename the staged file over the pointer. -/
  | rename
  /-- Write back the directory. -/
  | syncDirectory
  /-- Log why the pointer was not published. -/
  | report (e : StoreError)
  /-- Remove the staged file. -/
  | discard
  /-- Log a failure that changes nothing any more. -/
  | remark (text : String)
  /-- Nothing is left to do. -/
  | finished

end Publication

/-- A publication under way: the file system, the log, what was told so far, what comes next, and
why the pointer was not published, if so. -/
structure Publication where
  fs : FileSystem
  log : Option SessionLog
  notes : List Note
  stage : Publication.Stage
  error? : Option StoreError

namespace Proposal

/-- The path of the staged file. -/
def staged (p : Proposal) : Bytes := Current.stagingPathIn p.dir p.id.seq

/-- What follows when the whole line is written to `file`. -/
def afterLine (p : Proposal) (file : OpenFile) : Publication.Stage :=
  if p.sync then .sync file else .rename

/-- What follows when `rest` of the line is still to be written to `file`. -/
def beforeBytes (p : Proposal) (file : OpenFile) : Bytes → Publication.Stage
  | [] => p.afterLine file
  | b :: rest => .write file b rest

/-- What follows when the pointer is renamed. -/
def afterRename (p : Proposal) : Publication.Stage :=
  if p.sync then .syncDirectory else .finished

/-- A failed action on the staged file. -/
def failure (p : Proposal) (action : String) (e : Errno) : StoreError := .io action p.staged (.os e)

/-- A failure to write back the directory, as it is logged. -/
def unsyncedText (p : Proposal) (e : Errno) : String :=
  "CURRENT published, " ++ (StoreError.io "sync dir" p.dir (.os e)).message

/-- A failure to remove the staged file, as it is logged. -/
def leftoverText (p : Proposal) (e : Errno) : String :=
  "remove " ++ String.ofList (Current.stagingName p.id.seq) ++ ": " ++
    (p.failure "remove" e).message

end Proposal

/-- Writes a line to a log, if there is one. -/
def SessionLog.record (log : Option SessionLog) (fs : FileSystem) (now : Clock.Reading)
    (text : String) : Option SessionLog × FileSystem :=
  match log with
  | none => (none, fs)
  | some l =>
    let (l', fs') := l.write fs now text
    (some l', fs')

namespace Publication

/-- A publication that has done nothing yet. -/
def begin (fs : FileSystem) (log : Option SessionLog) : Publication where
  fs := fs
  log := log
  notes := []
  stage := .create
  error? := none

/-- Goes on after a refusal: the failure is the result, and is logged next. -/
def refused (u : Publication) (e : StoreError) : Publication :=
  { u with stage := .report e, error? := some e }

/-- Goes on to a stage with a new file system. -/
def goOn (u : Publication) (fs : FileSystem) (s : Stage) : Publication :=
  { u with fs := fs, stage := s }

/-- Warns, in a note and in the log, and goes on to a stage. -/
def warned (u : Publication) (now : Clock.Reading) (text : String) (s : Stage) : Publication :=
  let (log, fs) := SessionLog.record u.log u.fs now text
  { u with fs := fs, log := log, notes := u.notes ++ [⟨.warn, text⟩], stage := s }

/-- The sync of a directory, which is opened for it. -/
def syncPath (fs : FileSystem) (path : Bytes) : Except Errno Unit :=
  match fs.openForReading path with
  | .error e => .error e
  | .ok i => fs.sync i

/-- Does one call to the file system. -/
def step (p : Proposal) (u : Publication) : Publication :=
  match u.stage with
  | .create =>
    match u.fs.openForWriting true p.staged with
    | .error e => u.refused (p.failure "create" e)
    | .ok (fs, i) => u.goOn fs (p.beforeBytes { node := i, pos := 0 } (Current.line p.id))
  | .write file b rest =>
    match u.fs.writeAt file.node file.pos [b] with
    | .error e => u.refused (p.failure "write" e)
    | .ok fs => u.goOn fs (p.beforeBytes (u.fs.advance file 1) rest)
  | .sync file =>
    match u.fs.sync file.node with
    | .error e => u.refused (p.failure "sync" e)
    | .ok () => u.goOn u.fs .rename
  | .rename =>
    match u.fs.rename p.staged (Current.pathIn p.dir) with
    | .error e => u.refused (p.failure "rename" e)
    | .ok fs => u.goOn fs p.afterRename
  | .syncDirectory =>
    match syncPath u.fs p.dir with
    | .error e => u.goOn u.fs (.remark (p.unsyncedText e))
    | .ok () => u.goOn u.fs .finished
  | .report e => u.warned p.now ("CURRENT: " ++ e.message) .discard
  | .discard =>
    match u.fs.remove p.staged with
    | .error .noEntry => u.goOn u.fs .finished
    | .error e => u.goOn u.fs (.remark (p.leftoverText e))
    | .ok fs => u.goOn fs .finished
  | .remark text => u.warned p.now text .finished
  | .finished => u

/-- The publication after `k` steps. -/
def after (p : Proposal) : Nat → Publication → Publication
  | 0, u => u
  | k + 1, u => after p k (step p u)

/-- A number of steps after which every publication of `id` has come to its end: to create the
file, write the bytes, sync, rename, report, discard and remark. -/
def stepsFor (id : FileId) : Nat := (Current.line id).length + 6

/-- The publication at its end. -/
def run (p : Proposal) (fs : FileSystem) (log : Option SessionLog) : Publication :=
  after p (stepsFor p.id) (begin fs log)

/-- More steps go on from where fewer have come. -/
theorem after_add (p : Proposal) (j k : Nat) (u : Publication) :
    after p (j + k) u = after p k (after p j u) := by
  induction j generalizing u with
  | zero => simp [after]
  | succ j ih => simpa [Nat.succ_add, after] using ih (step p u)

/-- A finished publication stays as it is. -/
theorem after_of_finished (p : Proposal) {u : Publication} (h : u.stage = .finished) (k : Nat) :
    after p k u = u := by
  induction k with
  | zero => rfl
  | succ k ih =>
    have : step p u = u := by simp [step, h]
    simpa [after, this] using ih

/-- An upper bound for the steps that a publication still takes. -/
def Stage.left (id : FileId) : Stage → Nat
  | .create => stepsFor id
  | .write _ _ rest => rest.length + 6
  | .sync _ => 5
  | .rename => 4
  | .syncDirectory => 2
  | .report _ => 3
  | .discard => 2
  | .remark _ => 1
  | .finished => 0

theorem left_beforeBytes_le (p : Proposal) (file : OpenFile) (bytes : Bytes) :
    (p.beforeBytes file bytes).left p.id ≤ bytes.length + 5 := by
  cases bytes with
  | nil => by_cases h : p.sync <;> simp [Proposal.beforeBytes, Proposal.afterLine, h, Stage.left]
  | cons b rest => simp only [Proposal.beforeBytes, Stage.left, List.length_cons]; omega

/-- Each step leaves fewer steps to take. -/
theorem left_step_lt (p : Proposal) {u : Publication} (h : u.stage ≠ .finished) :
    (step p u).stage.left p.id < u.stage.left p.id := by
  cases hs : u.stage with
  | create =>
    simp only [step, hs]
    cases u.fs.openForWriting true p.staged with
    | error e => simp only [refused, Stage.left, stepsFor]; omega
    | ok r =>
      exact Nat.lt_of_le_of_lt (left_beforeBytes_le p { node := r.2, pos := 0 } (Current.line p.id))
        (by simp only [Stage.left, stepsFor]; omega)
  | write file b rest =>
    simp only [step, hs]
    cases u.fs.writeAt file.node file.pos [b] with
    | error e => simp only [refused, Stage.left]; omega
    | ok fs =>
      exact Nat.lt_of_le_of_lt (left_beforeBytes_le p (u.fs.advance file 1) rest)
        (by simp only [Stage.left]; omega)
  | sync file =>
    simp only [step, hs]
    cases u.fs.sync file.node <;> simp [refused, goOn, Stage.left]
  | rename =>
    simp only [step, hs]
    cases u.fs.rename p.staged (Current.pathIn p.dir) with
    | error e => simp [refused, Stage.left]
    | ok fs => by_cases hp : p.sync <;> simp [goOn, Proposal.afterRename, hp, Stage.left]
  | syncDirectory =>
    simp only [step, hs]
    cases syncPath u.fs p.dir <;> simp [goOn, Stage.left]
  | report e => simp [step, hs, warned, Stage.left]
  | discard =>
    simp only [step, hs]
    split <;> simp [goOn, Stage.left]
  | remark text => simp [step, hs, warned, Stage.left]
  | finished => exact absurd hs h

/-- As many steps as are left bring a publication to its end. -/
theorem finished_after (p : Proposal) (k : Nat) (u : Publication) (h : u.stage.left p.id ≤ k) :
    (after p k u).stage = .finished := by
  induction k generalizing u with
  | zero =>
    by_cases hf : u.stage = .finished
    · exact hf
    · have := left_step_lt p hf; omega
  | succ k ih =>
    by_cases hf : u.stage = .finished
    · rw [after_of_finished p hf]; exact hf
    · have := left_step_lt p hf
      exact ih (step p u) (by omega)

/-- **A publication comes to its end.** -/
theorem finished_run (p : Proposal) (fs : FileSystem) (log : Option SessionLog) :
    (run p fs log).stage = .finished :=
  finished_after p _ _ (Nat.le_refl _)

end Publication

end EngineDir
