/-!
# What the system answers when it refuses

* `Errno`: the refusals of the file system, with their texts and the numbers of those that have one.
* `FailureKind`: the coarser kinds by which a program tells failures apart.
* `IoError`: a refusal of the system, or a failure that is put into words here.
-/

namespace EngineDir

/-- The kinds of input and output failures. -/
inductive FailureKind where
  | notFound
  | permissionDenied
  | alreadyExists
  | notADirectory
  | isADirectory
  | directoryNotEmpty
  | filesystemLoop
  | invalidInput
  | invalidData
  | invalidFilename
  | storageFull
  | fileTooLarge
  | resourceBusy
  | inputOutput
  | unexpectedEof
  | wouldBlock
  | interrupted
  | timedOut
  | writeZero
  | brokenPipe
  | unsupported
  | outOfMemory
  | other
  deriving DecidableEq, Repr

/-- The refusals of the file system. -/
inductive Errno where
  | noEntry
  | inputOutput
  | noMemory
  | access
  | busy
  | exists
  | notDirectory
  | isDirectory
  | invalid
  | noSpace
  | nameTooLong
  | notEmpty
  | loop
  /-- The path holds a zero byte, so the system cannot even be asked. -/
  | zeroByte
  deriving DecidableEq, Repr

namespace Errno

/-- The number by which the system reports the refusal. What is refused before the system is asked
has none. -/
def number? : Errno → Option Nat
  | .noEntry => some 2
  | .inputOutput => some 5
  | .noMemory => some 12
  | .access => some 13
  | .busy => some 16
  | .exists => some 17
  | .notDirectory => some 20
  | .isDirectory => some 21
  | .invalid => some 22
  | .noSpace => some 28
  | .nameTooLong => some 36
  | .notEmpty => some 39
  | .loop => some 40
  | .zeroByte => none

/-- The refusal in words. -/
def text : Errno → String
  | .noEntry => "No such file or directory"
  | .inputOutput => "Input/output error"
  | .noMemory => "Cannot allocate memory"
  | .access => "Permission denied"
  | .busy => "Device or resource busy"
  | .exists => "File exists"
  | .notDirectory => "Not a directory"
  | .isDirectory => "Is a directory"
  | .invalid => "Invalid argument"
  | .noSpace => "No space left on device"
  | .nameTooLong => "File name too long"
  | .notEmpty => "Directory not empty"
  | .loop => "Too many levels of symbolic links"
  | .zeroByte => "file name contained an unexpected NUL byte"

/-- The kind of failure. -/
def kind : Errno → FailureKind
  | .noEntry => .notFound
  | .inputOutput => .inputOutput
  | .noMemory => .outOfMemory
  | .access => .permissionDenied
  | .busy => .resourceBusy
  | .exists => .alreadyExists
  | .notDirectory => .notADirectory
  | .isDirectory => .isADirectory
  | .invalid => .invalidInput
  | .noSpace => .storageFull
  | .nameTooLong => .invalidFilename
  | .notEmpty => .directoryNotEmpty
  | .loop => .filesystemLoop
  | .zeroByte => .invalidInput

/-- Every refusal. -/
def all : List Errno :=
  [.noEntry, .inputOutput, .noMemory, .access, .busy, .exists, .notDirectory, .isDirectory,
    .invalid, .noSpace, .nameTooLong, .notEmpty, .loop, .zeroByte]

/-- The refusal with a number. -/
def ofNumber? (n : Nat) : Option Errno := all.find? fun e => decide (e.number? = some n)

theorem mem_all (e : Errno) : e ∈ all := by cases e <;> decide

/-- A number belongs to one refusal. -/
theorem ofNumber?_eq_some_iff {n : Nat} {e : Errno} :
    ofNumber? n = some e ↔ e.number? = some n := by
  constructor
  · intro h
    simpa using List.find?_some h
  · intro h
    cases e <;> simp only [number?, Option.some.injEq, reduceCtorEq] at h
    all_goals subst h; rfl

end Errno

/-- Why an input or output operation failed. -/
inductive IoError where
  | os (e : Errno)
  | stated (kind : FailureKind) (text : String)
  deriving DecidableEq, Repr

namespace IoError

/-- The kind of failure. -/
def kind : IoError → FailureKind
  | .os e => e.kind
  | .stated k _ => k

/-- The failure in words; a refusal of the system carries its number. -/
def message : IoError → String
  | .os e =>
    match e.number? with
    | some n => e.text ++ " (os error " ++ toString n ++ ")"
    | none => e.text
  | .stated _ text => text

end IoError

end EngineDir
