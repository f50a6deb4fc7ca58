import EngineDir.KindSet

/-!
# File ids and file names

A file of the directory is known by its kind and its sequence number. Its name is

* `MANIFEST-000007` for manifest 7,
* `000012.log` for journal 12,
* `000013.sst` for table 13,

with at least six digits. A name with fewer or more zeros in front is read too,
as a second name of the same file; only `FileId.name?` is the name it goes by.

* `FileId.text`: an id as text; the name, or `other#7` for a foreign file.
* `FileId.name?`: the name, for a kind that has one.
* `FileId.ofName?`: the id that a name stands for.
* `FileId.ofName?_name?`: **a name reads back as the id it was made from.**
-/

namespace EngineDir

/-- A file of the directory: its kind and its sequence number. -/
structure FileId where
  kind : FileKind
  seq : UInt64
  deriving DecidableEq, Repr

namespace FileId

/-- What the name of a manifest begins with. -/
def manifestMark : List Char := ['M', 'A', 'N', 'I', 'F', 'E', 'S', 'T', '-']

/-- The extension of a journal. -/
def journalExt : List Char := ['l', 'o', 'g']

/-- The extension of a table. -/
def tableExt : List Char := ['s', 's', 't']

/-- The sequence number as it stands in a name. -/
def number (id : FileId) : List Char := Decimal.padded 6 id.seq.toNat

/-- The id as text. -/
def text (id : FileId) : List Char :=
  match id.kind with
  | .manifest => manifestMark ++ id.number
  | .journal => id.number ++ '.' :: journalExt
  | .table => id.number ++ '.' :: tableExt
  | .other => ['o', 't', 'h', 'e', 'r', '#'] ++ Decimal.digits id.seq.toNat

/-- The file name; a foreign file has none. -/
def name? (id : FileId) : Option (List Char) :=
  match id.kind with
  | .other => none
  | _ => some id.text

/-- What `cs` has after `mark`, if it begins with it. -/
def after? (mark cs : List Char) : Option (List Char) :=
  if mark <+: cs then some (cs.drop mark.length) else none

/-- The text before the first dot and the text behind it, if there is a dot. -/
def splitDot? : List Char → Option (List Char × List Char)
  | [] => none
  | c :: cs =>
    if c = '.' then some ([], cs)
    else (splitDot? cs).map fun p => (c :: p.1, p.2)

/-- The kind with the extension `ext`. -/
def kindOfExt? (ext : List Char) : Option FileKind :=
  if ext = journalExt then some .journal
  else if ext = tableExt then some .table
  else none

/-- The id that a name stands for. A name that begins like a manifest's is no other name. -/
def ofName? (cs : List Char) : Option FileId :=
  match after? manifestMark cs with
  | some ds => (Decimal.word? ds).map (FileId.mk .manifest)
  | none =>
    match splitDot? cs with
    | none => none
    | some (ds, ext) =>
      match kindOfExt? ext with
      | none => none
      | some k => (Decimal.word? ds).map (FileId.mk k)

/-- The id as a string. -/
def shown (id : FileId) : String := String.ofList id.text

/-- A structured description. -/
def describe (id : FileId) : String :=
  "FileDescriptor \x7b kind: " ++ id.kind.label ++ ", seq: " ++
    String.ofList (Decimal.digits id.seq.toNat) ++ " \x7d"

/-- Why an id has no file name. -/
def namelessMessage (id : FileId) : String := "invalid file kind: cannot encode " ++ id.describe

theorem number_ne_nil (id : FileId) : id.number ≠ [] := Decimal.padded_ne_nil _ _

theorem isDigit_of_mem_number {id : FileId} {c : Char} (h : c ∈ id.number) : c.isDigit :=
  Decimal.isDigit_of_mem_padded h

theorem after?_append (mark cs : List Char) : after? mark (mark ++ cs) = some cs := by
  simp [after?]

/-- A text of digits up to its first dot splits there. -/
theorem splitDot?_append {ds : List Char} (h : '.' ∉ ds) (ext : List Char) :
    splitDot? (ds ++ '.' :: ext) = some (ds, ext) := by
  induction ds with
  | nil => simp [splitDot?]
  | cons c cs ih =>
    rw [List.mem_cons, not_or] at h
    have hc : ¬c = '.' := fun e => h.1 e.symm
    simp [splitDot?, hc, ih h.2]

theorem dot_not_mem_number (id : FileId) : '.' ∉ id.number := fun h =>
  absurd (isDigit_of_mem_number h) (by decide)

/-- A name that begins with a digit is no manifest's. -/
theorem after?_number (id : FileId) (cs : List Char) :
    after? manifestMark (id.number ++ cs) = none := by
  obtain ⟨d, ds, hd⟩ := List.exists_cons_of_ne_nil id.number_ne_nil
  have h : d.isDigit := isDigit_of_mem_number (hd ▸ List.mem_cons_self)
  have hM : ¬ 'M' = d := fun e => absurd (e ▸ h) (by decide)
  simp [after?, manifestMark, hd, List.cons_prefix_cons, hM]

/-- **A name reads back as the id it was made from.** -/
theorem ofName?_name? {id : FileId} {cs : List Char} (h : id.name? = some cs) :
    ofName? cs = some id := by
  obtain ⟨kind, seq⟩ := id
  have hw : Decimal.word? (FileId.mk kind seq).number = some seq := Decimal.word?_padded 6 seq
  cases kind <;> simp only [name?, text, Option.some.injEq, reduceCtorEq] at h <;> subst h
  · simp [ofName?, after?_append, hw]
  · simp [ofName?, after?_number, splitDot?_append (dot_not_mem_number _), kindOfExt?, hw]
  · simp [ofName?, after?_number, splitDot?_append (dot_not_mem_number _), kindOfExt?, hw,
      journalExt, tableExt]

end FileId

end EngineDir
