import EngineDir.Proofs.FileSystem.Sound
import EngineDir.DirLock
import EngineDir.SessionLog
import EngineDir.Current

/-!
# The names in an engine directory

The control files and the files with a sequence number have names that entries can
have, and that differ from each other.

* `Nameable`: a text that can be the name of an entry.
* `nameable_staging`, `nameable_of_name?`: the names made from sequence numbers.
* `Utf8.encode_injective`: different texts are different names.
* `Control`, `FileId.Named`: the two sorts of names; `FileId.Named.not_control`: **no name is of
  both sorts.**
-/

namespace EngineDir

/-- A text that can be the name of an entry. -/
structure Nameable (cs : List Char) : Prop where
  proper : Proper (Utf8.encode cs)
  length_le : (Utf8.encode cs).length ≤ FileSystem.nameLimit

namespace Utf8

theorem encode_injective {cs ds : List Char} (h : encode cs = encode ds) : cs = ds := by
  have hd := congrArg decode? h
  rw [decode?_encode, decode?_encode] at hd
  exact Option.some.inj hd

theorem encode_cons (c : Char) (cs : List Char) :
    encode (c :: cs) = String.utf8EncodeChar c ++ encode cs := rfl

/-- A character below 128 is one byte. -/
theorem encodeChar_ascii {c : Char} (h : c.toNat < 128) :
    String.utf8EncodeChar c = [c.val.toUInt8] := by
  have hv : c.val.toNat < 128 := h
  apply String.utf8EncodeChar_eq_singleton
  rw [Char.utf8Size, if_pos (by rw [UInt32.le_iff_toNat_le]; exact Nat.le_of_lt_succ hv)]

theorem length_encode {cs : List Char} (h : ∀ c ∈ cs, c.toNat < 128) :
    (encode cs).length = cs.length := by
  induction cs with
  | nil => rfl
  | cons c cs ih =>
    rw [encode_cons, encodeChar_ascii (h c List.mem_cons_self), List.singleton_append,
      List.length_cons, List.length_cons, ih fun x hx => h x (List.mem_cons_of_mem _ hx)]

/-- The bytes of a text of such characters are the characters. -/
theorem mem_encode {cs : List Char} (h : ∀ c ∈ cs, c.toNat < 128) {b : UInt8}
    (hb : b ∈ encode cs) : ∃ c ∈ cs, c.toNat = b.toNat := by
  induction cs with
  | nil => cases hb
  | cons c cs ih =>
    have hc := h c List.mem_cons_self
    rw [encode_cons, encodeChar_ascii hc, List.singleton_append, List.mem_cons] at hb
    rcases hb with rfl | hb
    · refine ⟨c, List.mem_cons_self, ?_⟩
      have hv : c.val.toNat < 128 := hc
      rw [UInt32.toNat_toUInt8, Nat.mod_eq_of_lt (by omega)]
      rfl
    · obtain ⟨d, hd, he⟩ := ih (fun x hx => h x (List.mem_cons_of_mem _ hx)) hb
      exact ⟨d, List.mem_cons_of_mem _ hd, he⟩

end Utf8

/-- What a character of a name is: one byte, and neither the end of a text nor a slash. -/
def PlainChar (c : Char) : Prop := c.toNat < 128 ∧ c.toNat ≠ 0 ∧ c.toNat ≠ 47

instance (c : Char) : Decidable (PlainChar c) := by unfold PlainChar; infer_instance

/-- A text is tested character by character, not through all the characters that there are. -/
theorem plain_of_all {cs : List Char} (h : (cs.all fun c => decide (PlainChar c)) = true) :
    ∀ x ∈ cs, PlainChar x := fun x hx => of_decide_eq_true (List.all_eq_true.1 h x hx)

theorem plainChar_of_isDigit {c : Char} (h : c.isDigit = true) : PlainChar c := by
  simp only [Char.isDigit, Bool.and_eq_true, decide_eq_true_eq] at h
  have h1 : (48 : UInt32).toNat ≤ c.val.toNat := UInt32.le_iff_toNat_le.1 h.1
  have h2 : c.val.toNat ≤ (57 : UInt32).toNat := UInt32.le_iff_toNat_le.1 h.2
  have h3 : (48 : UInt32).toNat = 48 := rfl
  have h4 : (57 : UInt32).toNat = 57 := rfl
  unfold PlainChar Char.toNat
  omega

/-- A text of plain characters is a name, if it is not too long and begins with no dot. -/
theorem nameable_of_plain {c : Char} {cs : List Char} (hc : c ≠ '.')
    (h : ∀ x ∈ c :: cs, PlainChar x) (hlen : cs.length ≤ 254) : Nameable (c :: cs) := by
  have hascii : ∀ x ∈ c :: cs, x.toNat < 128 := fun x hx => (h x hx).1
  refine ⟨⟨?_, ?_, ?_, ?_, ?_⟩, ?_⟩
  · rw [Utf8.encode_cons, Utf8.encodeChar_ascii (hascii c List.mem_cons_self)]; simp
  · intro he
    have hd : Utf8.encode (c :: cs) = Utf8.encode ['.'] := he
    exact hc (List.cons.inj (Utf8.encode_injective hd)).1
  · intro he
    have hd : Utf8.encode (c :: cs) = Utf8.encode ['.', '.'] := he
    exact hc (List.cons.inj (Utf8.encode_injective hd)).1
  · intro hb
    obtain ⟨x, hx, he⟩ := Utf8.mem_encode hascii hb
    exact (h x hx).2.2 he
  · intro hb
    obtain ⟨x, hx, he⟩ := Utf8.mem_encode hascii hb
    exact (h x hx).2.1 he
  · rw [Utf8.length_encode hascii, List.length_cons]
    unfold FileSystem.nameLimit
    omega

theorem nameable_lock : Nameable DirLock.fileName :=
  nameable_of_plain (by decide) (plain_of_all (by decide)) (by decide)

theorem nameable_log : Nameable SessionLog.fileName :=
  nameable_of_plain (by decide) (plain_of_all (by decide)) (by decide)

theorem nameable_oldLog : Nameable SessionLog.oldFileName :=
  nameable_of_plain (by decide) (plain_of_all (by decide)) (by decide)

theorem nameable_current : Nameable Current.fileName :=
  nameable_of_plain (by decide) (plain_of_all (by decide)) (by decide)

theorem length_digits_word (w : UInt64) : (Decimal.digits w.toNat).length ≤ 20 := by
  rw [Decimal.digits, Nat.length_toDigits_le_iff (by decide) (by decide)]
  exact Nat.lt_of_lt_of_le w.toNat_lt (by decide)

/-- The pointer to every manifest can be staged. -/
theorem nameable_staging (seq : UInt64) : Nameable (Current.stagingName seq) := by
  refine nameable_of_plain (by decide) ?_ ?_
  · intro x hx
    have hx' : x ∈ Current.fileName ++ '.' :: Decimal.digits seq.toNat := hx
    rw [List.mem_append, List.mem_cons] at hx'
    rcases hx' with hx | rfl | hx
    · exact (plain_of_all (by decide) : ∀ x ∈ Current.fileName, PlainChar x) x hx
    · decide
    · exact plainChar_of_isDigit (Decimal.isDigit_of_mem_digits hx)
  · have := length_digits_word seq
    simp only [List.append_eq, List.length_append, List.length_cons, List.length_nil]
    omega

theorem length_number (id : FileId) : id.number.length ≤ 20 := by
  have := length_digits_word id.seq
  simp only [FileId.number, Decimal.padded, List.leftpad, List.length_append, List.length_replicate]
  omega

/-- A name made from a sequence number begins with the mark of a manifest or with a digit. -/
theorem FileId.name?_cons {id : FileId} {cs : List Char} (h : id.name? = some cs) :
    ∃ c ds, cs = c :: ds ∧ (c = 'M' ∨ c.isDigit = true) ∧ ds.length ≤ 254 ∧
      ∀ x ∈ cs, PlainChar x := by
  have hlen := length_number id
  have hdig : ∀ x ∈ id.number, PlainChar x := fun x hx =>
    plainChar_of_isDigit (isDigit_of_mem_number hx)
  have hext : ∀ ext : List Char, (∀ x ∈ ext, PlainChar x) → ext.length ≤ 3 →
      cs = id.number ++ '.' :: ext → ∃ c ds, cs = c :: ds ∧ (c = 'M' ∨ c.isDigit = true) ∧
        ds.length ≤ 254 ∧ ∀ x ∈ cs, PlainChar x := by
    intro ext he hl hcs
    obtain ⟨d, ds, hd⟩ := List.exists_cons_of_ne_nil id.number_ne_nil
    have hds : ds.length ≤ 19 := by rw [hd, List.length_cons] at hlen; omega
    refine ⟨d, ds ++ '.' :: ext, by rw [hcs, hd]; rfl,
      Or.inr (isDigit_of_mem_number (hd ▸ List.mem_cons_self : d ∈ id.number)), ?_, ?_⟩
    · simp only [List.length_append, List.length_cons]; omega
    · intro x hx
      rw [hcs, List.mem_append, List.mem_cons] at hx
      rcases hx with hx | rfl | hx
      · exact hdig x hx
      · decide
      · exact he x hx
  unfold name? text at h
  cases hk : id.kind with
  | manifest =>
    rw [hk] at h
    obtain rfl := Option.some.inj h
    refine ⟨'M', _, rfl, Or.inl rfl, ?_, ?_⟩
    · simp only [List.append_eq, List.length_append, List.length_cons, List.length_nil]; omega
    · intro x hx
      rcases List.mem_append.1 hx with hx | hx
      · exact (plain_of_all (by decide) : ∀ x ∈ manifestMark, PlainChar x) x hx
      · exact hdig x hx
  | journal =>
    rw [hk] at h
    exact hext journalExt (plain_of_all (by decide)) (by decide) (Option.some.inj h).symm
  | table =>
    rw [hk] at h
    exact hext tableExt (plain_of_all (by decide)) (by decide) (Option.some.inj h).symm
  | other => rw [hk] at h; cases h

/-- The name of every file can be that of an entry. -/
theorem nameable_of_name? {id : FileId} {cs : List Char} (h : id.name? = some cs) :
    Nameable cs := by
  obtain ⟨c, ds, rfl, hc, hlen, hp⟩ := FileId.name?_cons h
  refine nameable_of_plain ?_ hp hlen
  rintro rfl
  rcases hc with hc | hc
  · exact absurd hc (by decide)
  · exact absurd hc (by decide)

/-! ## Names that differ -/

/-- No file is named like a control file. -/
theorem FileId.name?_ne_upper {id : FileId} {c : Char} {cs : List Char} (hM : c ≠ 'M')
    (hd : c.isDigit = false) : id.name? ≠ some (c :: cs) := by
  intro h
  obtain ⟨c', ds, he, hc, -⟩ := FileId.name?_cons h
  obtain ⟨rfl, -⟩ := List.cons.inj he
  rcases hc with hc | hc
  · exact hM hc
  · rw [hd] at hc; cases hc

theorem stagingName_ne_current (seq : UInt64) : Current.stagingName seq ≠ Current.fileName := by
  intro h
  have hl := congrArg List.length h
  simp only [Current.stagingName, List.length_append, List.length_cons] at hl
  omega

/-- The text of a control file's name. -/
inductive ControlText : List Char → Prop
  | lock : ControlText DirLock.fileName
  | log : ControlText SessionLog.fileName
  | oldLog : ControlText SessionLog.oldFileName
  | current : ControlText Current.fileName
  | staging (seq : UInt64) : ControlText (Current.stagingName seq)

/-- The name of a control file. -/
def Control (n : Bytes) : Prop := ∃ cs, ControlText cs ∧ n = Utf8.encode cs

/-- The name of the file `id`. -/
def FileId.Named (id : FileId) (n : Bytes) : Prop := ∃ cs, id.name? = some cs ∧ n = Utf8.encode cs

/-- A control file's name begins with a letter that no file's name begins with. -/
theorem ControlText.cons {cs : List Char} (h : ControlText cs) :
    ∃ c ds, cs = c :: ds ∧ c ≠ 'M' ∧ c.isDigit = false := by
  cases h with
  | lock => exact ⟨_, _, rfl, by decide, by decide⟩
  | log => exact ⟨_, _, rfl, by decide, by decide⟩
  | oldLog => exact ⟨_, _, rfl, by decide, by decide⟩
  | current => exact ⟨_, _, rfl, by decide, by decide⟩
  | staging seq => exact ⟨_, _, rfl, by decide, by decide⟩

namespace FileId.Named

variable {id id' : FileId} {n : Bytes}

theorem nameable (h : id.Named n) : Proper n ∧ n.length ≤ FileSystem.nameLimit := by
  obtain ⟨cs, hcs, rfl⟩ := h
  exact ⟨(nameable_of_name? hcs).proper, (nameable_of_name? hcs).length_le⟩

/-- **No file is named like a control file.** -/
theorem not_control (h : id.Named n) : ¬Control n := by
  rintro ⟨ds, hds, hn⟩
  obtain ⟨cs, hcs, rfl⟩ := h
  obtain ⟨c, ds, rfl, hM, hd⟩ := hds.cons
  rw [Utf8.encode_injective hn] at hcs
  exact FileId.name?_ne_upper hM hd hcs

/-- A name is that of one file. -/
theorem unique (h : id.Named n) (h' : id'.Named n) : id = id' := by
  obtain ⟨cs, hcs, rfl⟩ := h
  obtain ⟨cs', hcs', hn⟩ := h'
  obtain rfl := Utf8.encode_injective hn
  have hread := FileId.ofName?_name? hcs
  rw [FileId.ofName?_name? hcs'] at hread
  exact (Option.some.inj hread).symm

end FileId.Named

/-- **The name of a control file is read as no file's name.** -/
theorem ControlText.ofName?_eq_none {cs : List Char} (h : ControlText cs) :
    FileId.ofName? cs = none := by
  cases h with
  | lock => decide
  | log => decide
  | oldLog => decide
  | current => decide
  | staging seq =>
    have hmark : FileId.after? FileId.manifestMark (Current.stagingName seq) = none := rfl
    have hsplit : FileId.splitDot? (Current.stagingName seq) =
        some (Current.fileName, Decimal.digits seq.toNat) :=
      FileId.splitDot?_append (by decide) _
    -- what stands behind the dot are digits, and no kind has such an extension
    have hext : ∀ ext : List Char, ext.head?.any Char.isDigit = false →
        Decimal.digits seq.toNat ≠ ext := by
      rintro ext hext rfl
      have hne : Decimal.digits seq.toNat ≠ [] := Nat.toDigits_ne_nil
      obtain ⟨d, ds, hd⟩ := List.exists_cons_of_ne_nil hne
      have hdig : d.isDigit = true := Decimal.isDigit_of_mem_digits (hd ▸ List.mem_cons_self)
      rw [hd] at hext
      simp [hdig] at hext
    have hkind : FileId.kindOfExt? (Decimal.digits seq.toNat) = none := by
      rw [FileId.kindOfExt?, if_neg (hext _ (by decide)), if_neg (hext _ (by decide))]
    simp only [FileId.ofName?, hmark, hsplit, hkind]

theorem control_lock : Control (Utf8.encode DirLock.fileName) := ⟨_, .lock, rfl⟩

theorem control_log : Control (Utf8.encode SessionLog.fileName) := ⟨_, .log, rfl⟩

theorem control_oldLog : Control (Utf8.encode SessionLog.oldFileName) := ⟨_, .oldLog, rfl⟩

theorem control_current : Control (Utf8.encode Current.fileName) := ⟨_, .current, rfl⟩

theorem control_staging (seq : UInt64) : Control (Utf8.encode (Current.stagingName seq)) :=
  ⟨_, .staging seq, rfl⟩

/-- The name of a staged pointer begins with another letter than those of the lock and the log. -/
theorem stagingName_ne {cs : List Char} (seq : UInt64) (h : cs.head? ≠ some 'C') :
    Current.stagingName seq ≠ cs := by
  rintro rfl
  exact h rfl

end EngineDir
