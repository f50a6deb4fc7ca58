import EngineDir.Text.Quoted

/-!
# Paths

The text of a path is bytes; messages show it as it was given. For a walk it is
read as a `Path`: the parts between the slashes, of which `.` and `..` are special.

* `Path.ofText`: reads a path.
* `join`: puts a name behind a directory's path.
* `Path.above`: the parts of the path of the directory above.
-/

namespace EngineDir

/-- The byte that separates the parts of a path. -/
def slash : UInt8 := 47

/-- A part of a path. -/
inductive Part where
  | here
  | up
  | name (n : Bytes)
  deriving DecidableEq, Repr

/-- A path as it is walked: whether it begins at the root, its parts, and whether a slash stands
behind the last one. The empty path is relative and has no parts. -/
structure Path where
  absolute : Bool
  parts : List Part
  trailing : Bool
  deriving DecidableEq, Repr

/-- The bytes between the slashes of a text. -/
def stretches : Bytes → List Bytes
  | [] => [[]]
  | b :: rest =>
    if b = slash then [] :: stretches rest
    else
      match stretches rest with
      | [] => [[b]]
      | s :: ss => (b :: s) :: ss

namespace Part

/-- The part that a stretch of a path's text is; an empty stretch is none. -/
def ofStretch? (s : Bytes) : Option Part :=
  if s = [] then none
  else if s = [46] then some .here
  else if s = [46, 46] then some .up
  else some (.name s)

end Part

namespace Path

/-- Reads a path. -/
def ofText (t : Bytes) : Path where
  absolute := decide (t.head? = some slash)
  parts := (stretches t).filterMap Part.ofStretch?
  trailing := decide (t.getLast? = some slash)

/-- Whether there is nothing to walk: not even the root. -/
def isEmpty (p : Path) : Bool := !p.absolute && p.parts.isEmpty

/-- Whether a name holds a zero byte. No file has such a name, since that byte would end the
text. -/
def holdsZero (p : Path) : Bool :=
  p.parts.any fun
    | .name n => n.contains 0
    | _ => false

/-- The parts before the last one, without `.`: those of the path of the directory above. -/
def above (p : Path) : List Part := (p.parts.filter fun q => decide (q ≠ .here)).dropLast

end Path

/-- The path of `name` in `dir`. Nothing comes between them when `dir` is empty or ends in a
slash. -/
def join (dir name : Bytes) : Bytes :=
  if dir = [] ∨ dir.getLast? = some slash then dir ++ name else dir ++ slash :: name

/-- A path in a message. -/
def shownPath (p : Bytes) : String := Utf8.lossy p

theorem stretches_ne_nil (t : Bytes) : stretches t ≠ [] := by
  cases t with
  | nil => simp [stretches]
  | cons b rest =>
    unfold stretches
    split
    · simp
    · split <;> simp

/-- The stretches of two texts with a slash between them. -/
theorem stretches_append_slash (s t : Bytes) :
    stretches (s ++ slash :: t) = stretches s ++ stretches t := by
  induction s with
  | nil => simp [stretches]
  | cons b rest ih =>
    by_cases hb : b = slash
    · simp [stretches, hb, ih]
    · have hne := stretches_ne_nil rest
      simp only [List.cons_append, stretches, hb, if_false, ih]
      cases h : stretches rest with
      | nil => exact absurd h hne
      | cons u us => simp

/-- A text without slashes is one stretch. -/
theorem stretches_of_not_mem {s : Bytes} (h : slash ∉ s) : stretches s = [s] := by
  induction s with
  | nil => rfl
  | cons b rest ih =>
    rw [List.mem_cons, not_or] at h
    have hb : ¬b = slash := fun e => h.1 e.symm
    simp [stretches, hb, ih h.2]

end EngineDir
