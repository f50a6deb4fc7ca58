import EngineDir.Text.Decimal

/-!
# Kinds of files

The files of an engine directory are manifests, journals and tables; every other
file is foreign (`FileKind.other`).

A `KindSet` selects kinds. The sets are written with `KindSet.union` from the
single kinds and the constants `none` and `all`; `all` selects the three kinds
with a name of their own, so it leaves `other` out.

* `KindSet.contains_union`: a union selects what one of its parts selects.
* `KindSet.code`: a set as a number, one bit for each kind.
-/

namespace EngineDir

/-- What a file of the directory is for. -/
inductive FileKind where
  | manifest
  | journal
  | table
  | other
  deriving DecidableEq, Repr

namespace FileKind

/-- The kind in a message. -/
def noun : FileKind → String
  | .manifest => "manifest"
  | .journal => "journal"
  | .table => "table"
  | .other => "other"

/-- The kind in a structured description. -/
def label : FileKind → String
  | .manifest => "Manifest"
  | .journal => "Journal"
  | .table => "Table"
  | .other => "Other"

/-- The place of the kind in a listing that is ordered by kind. -/
def rank : FileKind → Nat
  | .manifest => 0
  | .journal => 1
  | .table => 2
  | .other => 3

end FileKind

/-- A set of kinds. -/
structure KindSet where
  manifest : Bool := false
  journal : Bool := false
  table : Bool := false
  other : Bool := false
  deriving DecidableEq, Repr

namespace KindSet

/-- Selects nothing. -/
def none : KindSet := {}

/-- Selects the kinds that have file names. -/
def all : KindSet := { manifest := true, journal := true, table := true }

/-- Selects one kind. -/
def ofKind : FileKind → KindSet
  | .manifest => { manifest := true }
  | .journal => { journal := true }
  | .table => { table := true }
  | .other => { other := true }

/-- Whether `k` is selected. -/
def contains (s : KindSet) : FileKind → Bool
  | .manifest => s.manifest
  | .journal => s.journal
  | .table => s.table
  | .other => s.other

/-- Selects what `s` or `t` selects. -/
def union (s t : KindSet) : KindSet :=
  { manifest := s.manifest || t.manifest
    journal := s.journal || t.journal
    table := s.table || t.table
    other := s.other || t.other }

/-- The union of several sets. -/
def ofTerms (ts : List KindSet) : KindSet := ts.foldl union none

/-- The set as a number: the kind of rank `r` has bit `r`. -/
def code (s : KindSet) : Nat :=
  s.manifest.toNat + 2 * s.journal.toNat + 4 * s.table.toNat + 8 * s.other.toNat

/-- A structured description. -/
def describe (s : KindSet) : String :=
  "FileKindMask(" ++ String.ofList (Decimal.digits s.code) ++ ")"

/-- Whether the set is `all`. -/
def isAll (s : KindSet) : Bool := decide (s = all)

/-- Whether the set is `none`. -/
def isNone (s : KindSet) : Bool := decide (s = none)

@[simp] theorem contains_none (k : FileKind) : none.contains k = false := by cases k <;> rfl

@[simp] theorem contains_all (k : FileKind) : all.contains k = decide (k ≠ .other) := by
  cases k <;> rfl

@[simp] theorem contains_ofKind (j k : FileKind) : (ofKind j).contains k = decide (j = k) := by
  cases j <;> cases k <;> rfl

@[simp] theorem contains_union (s t : KindSet) (k : FileKind) :
    (s.union t).contains k = (s.contains k || t.contains k) := by cases k <;> rfl

end KindSet

end EngineDir
