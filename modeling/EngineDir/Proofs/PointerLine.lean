import EngineDir.Proofs.FileNames
import EngineDir.Proofs.Pointer
import EngineDir.Proofs.Reserved

/-!
# What a pointer file can say

The contents of a pointer file are one line, which names a manifest, or they have a fault,
and the first of four that applies is told: there is no line feed at the end, what stands
before it is no text, the text is another file's name, or it is no name at all.

* `Current.parse_ok_iff`: **which contents name a manifest.**
* `Current.contents_cases`, `Current.parse_name_cases`: all contents that there are.
* `Current.Fault.eq_of_message`: a fault is known by its message.
* `Current.read_ok_iff`, `Current.read_corrupt_iff`: what a reader of a directory gets for the
  contents of the pointer.
* `Current.read_language`: the one language, and the fault of everything else.
-/

namespace EngineDir

namespace Current

open FileSystem

variable {fs : FileSystem} {dir b l : Bytes} {i : NodeId} {id : FileId} {name : List Char}
  {f g : Fault} {k : FileKind}

/-! ## Contents -/

theorem parse_unterminated (h : b.getLast? ≠ some 10) : parse b = .error .unterminated := by
  simp only [parse, body?, h, if_false]

theorem parse_notText (h : ∀ cs, Utf8.encode cs ≠ l) : parse (l ++ [10]) = .error .notText := by
  have hnone : Utf8.decode? l = none :=
    Option.eq_none_iff_forall_ne_some.2 fun cs hcs => h cs (Utf8.encode_of_decode? hcs)
  simp only [parse, body?_append, hnone]

/-- A line is taken for what its name is read as. -/
theorem parse_name_some (h : FileId.ofName? name = some id) :
    parse (Utf8.encode name ++ [10]) =
      if id.kind = .manifest then .ok id else .error (.notManifest name id.kind) := by
  simp only [parse, body?_append, Utf8.decode?_encode, h]

theorem parse_name_none (h : FileId.ofName? name = none) :
    parse (Utf8.encode name ++ [10]) = .error (.unrecognized name) := by
  simp only [parse, body?_append, Utf8.decode?_encode, h]

/-- What becomes of a line. -/
theorem parse_name_cases (name : List Char) :
    (∃ id, FileId.ofName? name = some id ∧ id.kind = .manifest ∧
        parse (Utf8.encode name ++ [10]) = .ok id) ∨
      (∃ id, FileId.ofName? name = some id ∧ id.kind ≠ .manifest ∧
        parse (Utf8.encode name ++ [10]) = .error (.notManifest name id.kind)) ∨
      FileId.ofName? name = none ∧
        parse (Utf8.encode name ++ [10]) = .error (.unrecognized name) := by
  cases hread : FileId.ofName? name with
  | none => exact Or.inr (Or.inr ⟨rfl, parse_name_none hread⟩)
  | some id =>
    by_cases hk : id.kind = .manifest
    · exact Or.inl ⟨id, rfl, hk, (parse_name_some hread).trans (if_pos hk)⟩
    · exact Or.inr (Or.inl ⟨id, rfl, hk, (parse_name_some hread).trans (if_neg hk)⟩)

/-- There are no other contents. -/
theorem contents_cases (b : Bytes) : b.getLast? ≠ some 10 ∨
    (∃ l, b = l ++ [10] ∧ ∀ cs, Utf8.encode cs ≠ l) ∨ ∃ name, b = Utf8.encode name ++ [10] := by
  by_cases hlast : b.getLast? = some 10
  · obtain ⟨l, rfl⟩ := List.getLast?_eq_some_iff.1 hlast
    by_cases htext : ∃ cs, Utf8.encode cs = l
    · obtain ⟨cs, rfl⟩ := htext
      exact Or.inr (Or.inr ⟨cs, rfl⟩)
    · exact Or.inr (Or.inl ⟨l, rfl, fun cs hcs => htext ⟨cs, hcs⟩⟩)
  · exact Or.inl hlast

/-- **Which contents name a manifest**: the line with the mark and a numeral of its number. -/
theorem parse_ok_iff : parse b = .ok id ↔ id.kind = .manifest ∧
    ∃ ds, Numeral ds id.seq.toNat ∧ b = Utf8.encode ("MANIFEST-".toList ++ ds) ++ [10] := by
  constructor
  · intro h
    rcases contents_cases b with hlast | ⟨l, rfl, htext⟩ | ⟨name, rfl⟩
    · rw [parse_unterminated hlast] at h
      cases h
    · rw [parse_notText htext] at h
      cases h
    · rcases parse_name_cases name with ⟨id', hread, hkind, hp⟩ | ⟨id', -, -, hp⟩ | ⟨-, hp⟩
      · obtain rfl := Except.ok.inj (hp.symm.trans h)
        obtain ⟨ds, hform, hn⟩ := FileId.ofName?_eq_some_iff.1 hread
        rw [hkind] at hform
        cases hform with
        | manifest => exact ⟨hkind, ds, hn, rfl⟩
      · rw [hp] at h
        cases h
      · rw [hp] at h
        cases h
  · rintro ⟨hkind, ds, hn, rfl⟩
    have hform : FileId.Form id.kind ds ("MANIFEST-".toList ++ ds) := hkind ▸ .manifest ds
    rw [parse_name_some (FileId.ofName?_eq_some_iff.2 ⟨ds, hform, hn⟩), if_pos hkind]

/-! ## Faults -/

namespace Fault

/-- The name that a fault is about. -/
def name? : Fault → Option (List Char)
  | .notManifest name _ => some name
  | .unrecognized name => some name
  | _ => none

/-- The last character of the message. -/
def mark : Fault → Char
  | .unterminated => 'e'
  | .notText => '8'
  | .notManifest _ _ => 't'
  | .unrecognized _ => '"'

theorem message_notManifest (name : List Char) (k : FileKind) : (notManifest name k).message =
    String.ofList name ++ " is a " ++ k.noun ++ ", not a manifest" := rfl

theorem message_unrecognized (name : List Char) : (unrecognized name).message =
    "unrecognized file name " ++ Quoted.text name := rfl

theorem getLast?_message (f : Fault) : f.message.toList.getLast? = some f.mark := by
  cases f with
  | unterminated => decide
  | notText => decide
  | notManifest name k =>
    have htail : ", not a manifest".toList.getLast? = some 't' := by simp
    rw [message_notManifest, String.toList_append, List.getLast?_append, htail, Option.some_or,
      mark]
  | unrecognized name =>
    have hquote : (Quoted.text name).toList.getLast? = some '"' := by
      rw [Quoted.text, Quoted.enclose, String.toList_ofList, List.getLast?_concat]
    rw [message_unrecognized, String.toList_append, List.getLast?_append, hquote, Option.some_or,
      mark]

theorem noun_injective {k k' : FileKind} (h : k.noun = k'.noun) : k = k' := by
  cases k <;> cases k' <;> first | rfl | exact absurd h (by simp [FileKind.noun])

/-- **A fault is known by its message**, and by the name that it is about. -/
theorem eq_of_message (hname : ∀ n n', f.name? = some n → g.name? = some n' → n = n')
    (h : f.message = g.message) : f = g := by
  have hmark : f.mark = g.mark := by
    have hlast := f.getLast?_message
    rw [h, g.getLast?_message] at hlast
    exact (Option.some.inj hlast).symm
  cases f <;> cases g <;> simp only [mark, Char.reduceEq] at hmark
  case unterminated.unterminated => rfl
  case notText.notText => rfl
  case notManifest.notManifest name k name' k' =>
    obtain rfl := hname name name' rfl rfl
    rw [message_notManifest, message_notManifest] at h
    have htext := congrArg String.toList h
    simp only [String.toList_append] at htext
    have hnoun := List.append_cancel_left (List.append_cancel_right htext)
    rw [noun_injective (String.toList_inj.1 hnoun)]
  case unrecognized.unrecognized name name' =>
    obtain rfl := hname name name' rfl rfl
    rfl

end Fault

/-- A fault is about the name in the line. -/
theorem parse_error_name (h : parse b = .error f) (hf : f.name? = some name) :
    b = Utf8.encode name ++ [10] := by
  rcases contents_cases b with hlast | ⟨l, rfl, htext⟩ | ⟨name', rfl⟩
  · rw [parse_unterminated hlast] at h
    cases h
    cases hf
  · rw [parse_notText htext] at h
    cases h
    cases hf
  · rcases parse_name_cases name' with ⟨id, -, -, hp⟩ | ⟨id, -, -, hp⟩ | ⟨-, hp⟩
    · rw [hp] at h
      cases h
    · obtain rfl := Except.error.inj (hp.symm.trans h)
      cases hf
      rfl
    · obtain rfl := Except.error.inj (hp.symm.trans h)
      cases hf
      rfl

/-- A line is no fault of the sort that tells the end or the text of the contents. -/
theorem parse_name_ne (hg : g.name? = none) : parse (Utf8.encode name ++ [10]) ≠ .error g := by
  intro h
  have hne : ∀ n, g.name? ≠ some n := fun n hn => Option.some_ne_none n (hn.symm.trans hg)
  rcases parse_name_cases name with ⟨id, -, -, hp⟩ | ⟨id, -, -, hp⟩ | ⟨-, hp⟩
  · rw [hp] at h
    cases h
  · obtain rfl := Except.error.inj (hp.symm.trans h)
    exact hne name rfl
  · obtain rfl := Except.error.inj (hp.symm.trans h)
    exact hne name rfl

theorem parse_unterminated_iff : parse b = .error .unterminated ↔ b.getLast? ≠ some 10 := by
  refine ⟨fun h => ?_, parse_unterminated⟩
  rcases contents_cases b with hlast | ⟨l, rfl, htext⟩ | ⟨name, rfl⟩
  · exact hlast
  · rw [parse_notText htext] at h
    cases h
  · exact absurd h (parse_name_ne rfl)

theorem parse_notText_iff :
    parse (l ++ [10]) = .error .notText ↔ ∀ cs, Utf8.encode cs ≠ l := by
  refine ⟨?_, parse_notText⟩
  rintro h cs rfl
  exact parse_name_ne rfl h

theorem parse_notManifest_iff : parse (Utf8.encode name ++ [10]) = .error (.notManifest name k) ↔
    (k = .journal ∨ k = .table) ∧ ∃ w, FileId.ofName? name = some ⟨k, w⟩ := by
  constructor
  · intro h
    rcases parse_name_cases name with ⟨id, -, -, hp⟩ | ⟨⟨kind, seq⟩, hread, hkind, hp⟩ | ⟨-, hp⟩
    · rw [hp] at h
      cases h
    · obtain ⟨-, rfl⟩ := Fault.notManifest.inj (Except.error.inj (hp.symm.trans h))
      obtain ⟨ds, hform, -⟩ := FileId.ofName?_eq_some_iff.1 hread
      refine ⟨?_, seq, hread⟩
      cases kind with
      | manifest => exact absurd rfl hkind
      | journal => exact Or.inl rfl
      | table => exact Or.inr rfl
      | other => exact absurd rfl hform.kind_ne
    · rw [hp] at h
      cases h
  · rintro ⟨hk, w, hread⟩
    have hkind : (⟨k, w⟩ : FileId).kind ≠ .manifest := by
      rcases hk with rfl | rfl <;> simp
    rw [parse_name_some hread, if_neg hkind]

theorem parse_unrecognized_iff :
    parse (Utf8.encode name ++ [10]) = .error (.unrecognized name) ↔
      FileId.ofName? name = none := by
  refine ⟨fun h => ?_, parse_name_none⟩
  rcases parse_name_cases name with ⟨id, -, -, hp⟩ | ⟨id, -, -, hp⟩ | ⟨hread, -⟩
  · rw [hp] at h
    cases h
  · rw [hp] at h
    cases h
  · exact hread

/-! ## Reading -/

section

variable (ho : fs.openForReading (pathIn dir) = .ok i) (hf : fs.face? i = some (.file b))
  (hb : b.length < positionLimit)

include ho hf hb

theorem read_of_parse_ok (hp : parse b = .ok id) : read fs dir = .ok id := by
  simp only [read, ho, contents_of_file hf hb, hp]

theorem read_of_parse_error (hp : parse b = .error f) :
    read fs dir = .error (.corrupt f.message) := by
  simp only [read, ho, contents_of_file hf hb, hp]

theorem read_ok_iff : read fs dir = .ok id ↔ parse b = .ok id := by
  refine ⟨fun h => ?_, read_of_parse_ok ho hf hb⟩
  cases hp : parse b with
  | ok id' =>
    rw [read_of_parse_ok ho hf hb hp] at h
    rw [Except.ok.inj h]
  | error f =>
    rw [read_of_parse_error ho hf hb hp] at h
    cases h

/-- A reader is told the fault, and can tell it from every other. -/
theorem read_corrupt_iff (hg : ∀ n, g.name? = some n → b = Utf8.encode n ++ [10]) :
    read fs dir = .error (.corrupt g.message) ↔ parse b = .error g := by
  refine ⟨fun h => ?_, read_of_parse_error ho hf hb⟩
  cases hp : parse b with
  | ok id =>
    rw [read_of_parse_ok ho hf hb hp] at h
    cases h
  | error f =>
    rw [read_of_parse_error ho hf hb hp] at h
    have hmessage : f.message = g.message := StoreError.corrupt.inj (Except.error.inj h)
    have hsame : f = g := by
      refine Fault.eq_of_message (fun n n' hn hn' => ?_) hmessage
      have hlines := (parse_error_name hp hn).symm.trans (hg n' hn')
      exact Utf8.encode_injective (List.append_cancel_right hlines)
    rw [hsame]

end

/-! ## The one language -/

/-- No byte of a manifest's line comes before the hyphen in the order of codes, as blanks and the
ends of lines do. -/
theorem hyphen_le_of_parse_ok (h : parse (l ++ [10]) = .ok id) {x : UInt8} (hx : x ∈ l) :
    45 ≤ x.toNat := by
  obtain ⟨-, ds, hn, hl⟩ := parse_ok_iff.1 h
  rw [List.append_cancel_right hl] at hx
  have hchars : ∀ c ∈ "MANIFEST-".toList ++ ds, 45 ≤ c.toNat ∧ c.toNat < 128 := by
    have hmark :
        ("MANIFEST-".toList.all fun c => decide (45 ≤ c.toNat ∧ c.toNat < 128)) = true := by decide
    intro c hc
    rcases List.mem_append.1 hc with hc | hc
    · exact of_decide_eq_true (List.all_eq_true.1 hmark c hc)
    · have hb := isDigit_bounds (hn.isDigit c hc)
      omega
  obtain ⟨c, hc, he⟩ := Utf8.mem_encode (fun c hc => (hchars c hc).2) hx
  rw [← he]
  exact (hchars c hc).1

/-- A line that is cut off before its end does not end with a line feed. -/
theorem parse_cut (h : parse (l ++ [10]) = .ok id) (hp : b <+: l ++ [10]) (hne : b ≠ l ++ [10]) :
    parse b = .error .unterminated := by
  refine parse_unterminated fun hlast => ?_
  have hb : b <+: l := (List.prefix_concat_iff.1 hp).resolve_left hne
  have hle := hyphen_le_of_parse_ok h (hb.subset (List.mem_of_getLast? hlast))
  revert hle
  decide

/-- **The one language of a pointer file, and the fault of everything else.** A reader gets a
manifest for its mark, a numeral of its number and one line feed, and for nothing else. Otherwise
the pointer is called corrupt, for the first of these that applies: no line feed stands at the end;
the bytes before it are no text; the text is the name of a journal or a table; it is no name.

So the line for a manifest reads back, no part of it that is cut off before its end is read, and no
blank and no further end of a line is accepted. The length is that of a file: none reaches the limit
of positions. -/
theorem read_language (ho : fs.openForReading (pathIn dir) = .ok i)
    (hf : fs.face? i = some (.file b)) (hb : b.length < positionLimit) :
    (∀ id, read fs dir = .ok id ↔ id.kind = .manifest ∧ ∃ ds v, Numeral ds v ∧ v < 2 ^ 64 ∧
      id.seq.toNat = v ∧ b = Utf8.encode ("MANIFEST-".toList ++ ds) ++ [10]) ∧
    ((∀ id, read fs dir ≠ .ok id) → ∃ reason, read fs dir = .error (.corrupt reason)) ∧
    (read fs dir = .error (.corrupt "missing trailing newline") ↔ b.getLast? ≠ some 10) ∧
    (∀ l, b = l ++ [10] →
      (read fs dir = .error (.corrupt "name is not valid UTF-8") ↔
        ∀ cs, Utf8.encode cs ≠ l)) ∧
    (∀ name, b = Utf8.encode name ++ [10] →
      (∀ k : FileKind, read fs dir = .error (.corrupt
          (String.ofList name ++ " is a " ++ k.noun ++ ", not a manifest")) ↔
        (k = .journal ∨ k = .table) ∧ ∃ w, FileId.ofName? name = some ⟨k, w⟩) ∧
      (read fs dir = .error (.corrupt ("unrecognized file name " ++ Quoted.text name)) ↔
        FileId.ofName? name = none)) ∧
    (∀ id name, id.kind = .manifest → id.name? = some name →
      (b = Utf8.encode name ++ [10] → read fs dir = .ok id) ∧
      (b <+: Utf8.encode name ++ [10] → b ≠ Utf8.encode name ++ [10] →
        ∀ id', read fs dir ≠ .ok id')) ∧
    (∀ l x, b = l ++ [10] → x ∈ l → x ∈ [9, 10, 13, 32] → ∀ id, read fs dir ≠ .ok id) := by
  have hok : ∀ {id}, read fs dir = .ok id ↔ parse b = .ok id := read_ok_iff ho hf hb
  have hbad : ∀ g : Fault, (∀ n, g.name? = some n → b = Utf8.encode n ++ [10]) →
      (read fs dir = .error (.corrupt g.message) ↔ parse b = .error g) :=
    fun g => read_corrupt_iff ho hf hb
  refine ⟨fun id => ?_, fun hnot => ?_, ?_, ?_, ?_, ?_, ?_⟩
  · rw [hok, parse_ok_iff]
    constructor
    · rintro ⟨hk, ds, hn, hb⟩
      exact ⟨hk, ds, id.seq.toNat, hn, id.seq.toNat_lt, rfl, hb⟩
    · rintro ⟨hk, ds, v, hn, -, rfl, hb⟩
      exact ⟨hk, ds, hn, hb⟩
  · cases hp : parse b with
    | ok id => exact absurd (hok.2 hp) (hnot id)
    | error f => exact ⟨f.message, read_of_parse_error ho hf hb hp⟩
  · exact (hbad .unterminated nofun).trans parse_unterminated_iff
  · rintro l rfl
    exact (hbad .notText nofun).trans parse_notText_iff
  · rintro name rfl
    constructor
    · intro k
      refine (hbad (.notManifest name k) ?_).trans parse_notManifest_iff
      rintro n ⟨⟩
      rfl
    · refine (hbad (.unrecognized name) ?_).trans parse_unrecognized_iff
      rintro n ⟨⟩
      rfl
  · intro id name hk hname
    have hline : parse (Utf8.encode name ++ [10]) = .ok id := by
      rw [parse_name_some (FileId.ofName?_name? hname), if_pos hk]
    refine ⟨?_, fun hp hne id' hr => ?_⟩
    · rintro rfl
      exact hok.2 hline
    · have hcut := hok.1 hr
      rw [parse_cut hline hp hne] at hcut
      cases hcut
  · rintro l x rfl hx hblank id hr
    have hle := hyphen_le_of_parse_ok (hok.1 hr) hx
    have hlow : (([9, 10, 13, 32] : Bytes).all fun y => decide (y.toNat < 45)) = true := by decide
    have hlt : x.toNat < 45 := of_decide_eq_true (List.all_eq_true.1 hlow x hblank)
    omega

/-- The directory `/db` with contents for the pointer. -/
def pointed (b : Bytes) : FileSystem := furnished.make Trail.toDb.here entry (.file b)

theorem openForReading_pointed (b : Bytes) :
    (pointed b).openForReading (pathIn Trail.toDb.path) = .ok (Trail.toDb.here.child 0) := rfl

theorem face?_pointed (b : Bytes) :
    (pointed b).face? (Trail.toDb.here.child 0) = some (.file b) := rfl

theorem read_language_torn :
    read (pointed (Utf8.ofText "MANIFEST-000007\n")) Trail.toDb.path = .ok ⟨.manifest, 7⟩ ∧
    read (pointed (Utf8.ofText "MANIFEST-00000")) Trail.toDb.path =
      .error (.corrupt "missing trailing newline") ∧
    read (pointed (Utf8.ofText "000007.log\n")) Trail.toDb.path =
      .error (.corrupt "000007.log is a journal, not a manifest") := by
  have hnum : Numeral "000007".toList 7 := Numeral.padded 6 7
  refine ⟨?_, ?_, ?_⟩
  · have hline := read_language (openForReading_pointed (Utf8.ofText "MANIFEST-000007\n"))
      (face?_pointed _) (by decide)
    exact (hline.1 ⟨.manifest, 7⟩).2 ⟨rfl, _, 7, hnum, by decide, by decide, by decide⟩
  · have htorn := read_language (openForReading_pointed (Utf8.ofText "MANIFEST-00000"))
      (face?_pointed _) (by decide)
    exact htorn.2.2.1.2 (by decide)
  · have hother := read_language (openForReading_pointed (Utf8.ofText "000007.log\n"))
      (face?_pointed _) (by decide)
    exact ((hother.2.2.2.2.1 "000007.log".toList (by decide)).1 .journal).2
      ⟨Or.inl rfl, 7, by decide⟩

end Current

end EngineDir
