import EngineDir.Proofs.FileSystem.Trails
import EngineDir.Proofs.Names

/-!
# Reading the pointer

What the pointer of a directory says depends on the name `CURRENT` in the directory
and on the contents of the file that it is bound to, and on nothing else.

* `Current.parse_line`: **the line for a manifest names it.**
* `Current.read_congr`: what a reader sees of a file system.
* `Current.read_of_file`: a reader of the line for a manifest gets that manifest.
-/

namespace EngineDir

namespace FileSystem

variable {fs fs' : FileSystem} {i : NodeId}

/-- What a node is determines it, but for the entries of a directory. -/
theorem node?_of_face? (hf : fs'.face? i = fs.face? i) :
    fs'.node? i = fs.node? i ∨
      ∃ d d', fs.node? i = some (.directory d) ∧ fs'.node? i = some (.directory d') := by
  cases hn : fs.face? i with
  | none =>
    rw [hn] at hf
    left
    rw [face?_none.1 hf, face?_none.1 hn]
  | some f =>
    rw [hn] at hf
    cases f with
    | file b => left; rw [face?_file.1 hf, face?_file.1 hn]
    | link g => left; rw [face?_link.1 hf, face?_link.1 hn]
    | device d => left; rw [face?_device.1 hf, face?_device.1 hn]
    | directory =>
      obtain ⟨d, hd⟩ := face?_directory.1 hn
      obtain ⟨d', hd'⟩ := face?_directory.1 hf
      exact Or.inr ⟨d, d', hd, hd'⟩

theorem size_congr (hf : fs'.face? i = fs.face? i) : fs'.size i = fs.size i := by
  unfold size
  rcases node?_of_face? hf with h | ⟨d, d', h, h'⟩
  · rw [h]
  · rw [h, h']

theorem readAt_congr (hf : fs'.face? i = fs.face? i) (pos count : Nat) :
    fs'.readAt i pos count = fs.readAt i pos count := by
  unfold readAt
  rcases node?_of_face? hf with h | ⟨d, d', h, h'⟩
  · rw [h]
  · rw [h, h']

end FileSystem

namespace Current

open FileSystem

variable {fs fs' : FileSystem} {dir : Bytes} {t : Trail} {m m' : Nat}

/-- The entry of the pointer in a directory. -/
abbrev entry : Bytes := Utf8.encode fileName

/-- The names of the lock and the logs begin with another letter than that of the pointer. -/
theorem encode_ne_current {cs : List Char} (h : cs.head? = some 'L') : Utf8.encode cs ≠ entry := by
  intro he
  rw [Utf8.encode_injective he] at h
  revert h
  decide

theorem body?_append (b : Bytes) : body? (b ++ [10]) = some b := by simp [body?]

theorem line_eq (id : FileId) : line id = Utf8.encode id.text ++ [10] := Utf8.encode_append _ _

theorem line_ne_nil (id : FileId) : line id ≠ [] := by simp [line_eq]

/-- **The line for a manifest names it.** -/
theorem parse_line {id : FileId} (h : id.kind = .manifest) : parse (line id) = .ok id := by
  have hname : id.name? = some id.text := by simp [FileId.name?, h]
  rw [parse, line_eq, body?_append]
  simp only [Utf8.decode?_encode, FileId.ofName?_name? hname, h, if_true]

/-- The line is short. -/
theorem length_line_lt (id : FileId) (h : id.kind = .manifest) :
    (line id).length < positionLimit := by
  have hname : id.name? = some id.text := by simp [FileId.name?, h]
  have hlen := (nameable_of_name? hname).length_le
  have hlim : nameLimit = 255 := rfl
  have hpos : positionLimit = 9223372036854775808 := rfl
  rw [line_eq, List.length_append, List.length_singleton]
  omega

theorem contents_congr {i : NodeId} (hf : fs'.face? i = fs.face? i) :
    contents fs' i = contents fs i := by
  rw [contents, contents, isEndless_congr hf, size_congr hf, readAt_congr hf]

theorem contents_of_file {i : NodeId} {b : Bytes} (hf : fs.face? i = some (.file b))
    (hb : b.length < positionLimit) : contents fs i = .ok b := by
  have hnode := face?_file.1 hf
  have hlim : ¬positionLimit ≤ 0 + b.length := by omega
  simp only [contents, isEndless_of_file hf, Bool.false_eq_true, size, readAt, hnode, hlim, if_false,
    List.drop_zero, List.take_length]

/-- A reader sees the entry of the pointer and the file behind it. -/
theorem read_congr (h : fs.Arrives dir t m) (h' : fs'.Arrives dir t m')
    (hl : fs'.lookup t.here entry = fs.lookup t.here entry)
    (hf : ∀ j, fs.lookup t.here entry = some j → fs'.face? j = fs.face? j)
    (hn : ∀ j g, fs.lookup t.here entry = some j → fs.face? j ≠ some (.link g)) :
    read fs' dir = read fs dir := by
  have hn' : ∀ j g, fs'.lookup t.here entry = some j → fs'.face? j ≠ some (.link g) := by
    intro j g hj
    rw [hl] at hj
    rw [hf j hj]
    exact hn j g hj
  unfold read openForReading pathIn
  simp only
  rw [h.find_join nameable_current.proper nameable_current.length_le hn,
    h'.find_join nameable_current.proper nameable_current.length_le hn', hl]
  cases hj : fs.lookup t.here entry with
  | none => rfl
  | some j =>
    simp only
    rw [contents_congr (hf j hj)]

/-- A reader of the line for a manifest gets that manifest. -/
theorem read_of_file {j : NodeId} {id : FileId} (h : fs.Arrives dir t m)
    (hk : id.kind = .manifest) (hl : fs.lookup t.here entry = some j)
    (hf : fs.face? j = some (.file (line id))) : read fs dir = .ok id := by
  have hn : ∀ j' g, fs.lookup t.here entry = some j' → fs.face? j' ≠ some (.link g) := by
    intro j' g hj'
    obtain rfl : j = j' := Option.some.inj (hl.symm.trans hj')
    rw [hf]
    simp
  unfold read openForReading pathIn
  simp only
  rw [h.find_join nameable_current.proper nameable_current.length_le hn, hl]
  simp only
  rw [contents_of_file hf (length_line_lt id hk)]
  simp only
  rw [parse_line hk]

end Current

end EngineDir
