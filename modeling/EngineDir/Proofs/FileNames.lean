import EngineDir.Proofs.Names
import EngineDir.Proofs.Numerals

/-!
# Which names are read, and as what

A name has one of three forms: the mark of a manifest with digits behind it, or digits with
one of two extensions. It is read if the digits are a numeral whose value fits into a word,
and what it is read as is the kind of the form and the value.

* `FileId.Form`: the three forms, with the part that should be digits.
* `FileId.ofName?_eq_some_iff`: **what is read is a form with a numeral.**
* `FileId.Form.unique`: such a name has no second form and no second numeral.
* `FileId.Form.name?_eq_iff`: which of the names of a file is the one it goes by.
* `FileId.ofName?_grammar`: the names that are read, and the near misses that are not.
* `FileId.name?_ofName?_inverse`: writing and reading undo each other, up to zeros in front.
-/

namespace EngineDir

namespace FileId

/-- A name in the form that the kind asks for, and the part of it that should be digits. -/
inductive Form : FileKind → List Char → List Char → Prop
  | manifest (ds : List Char) : Form .manifest ds ("MANIFEST-".toList ++ ds)
  | journal (ds : List Char) : Form .journal ds (ds ++ ".log".toList)
  | table (ds : List Char) : Form .table ds (ds ++ ".sst".toList)

variable {id id' : FileId} {k k' : FileKind} {cs cs' ds ds' : List Char} {v v' : Nat}

/-! ## The parts of a name -/

theorem after?_eq_some_iff {mark : List Char} : after? mark cs = some ds ↔ cs = mark ++ ds := by
  constructor
  · intro h
    unfold after? at h
    split at h
    · rename_i hpre
      obtain ⟨rest, rfl⟩ := hpre
      rw [List.drop_left, Option.some.injEq] at h
      rw [h]
    · cases h
  · rintro rfl
    exact after?_append mark ds

theorem splitDot?_eq_some_iff {ext : List Char} :
    splitDot? cs = some (ds, ext) ↔ '.' ∉ ds ∧ cs = ds ++ '.' :: ext := by
  constructor
  · intro h
    induction cs generalizing ds with
    | nil => cases h
    | cons c cs ih =>
      rw [splitDot?] at h
      split at h
      · rename_i hc
        simp only [Option.some.injEq, Prod.mk.injEq] at h
        obtain ⟨rfl, rfl⟩ := h
        exact ⟨List.not_mem_nil, by rw [hc, List.nil_append]⟩
      · rename_i hc
        obtain ⟨⟨ds₁, ext₁⟩, hsplit, he⟩ := Option.map_eq_some_iff.1 h
        simp only [Prod.mk.injEq] at he
        obtain ⟨rfl, rfl⟩ := he
        obtain ⟨hdot, rfl⟩ := ih hsplit
        refine ⟨?_, rfl⟩
        rw [List.mem_cons, not_or]
        exact ⟨fun he => hc he.symm, hdot⟩
  · rintro ⟨hdot, rfl⟩
    exact splitDot?_append hdot ext

theorem kindOfExt?_eq_some_iff {ext : List Char} :
    kindOfExt? ext = some k ↔
      k = .journal ∧ ext = journalExt ∨ k = .table ∧ ext = tableExt := by
  constructor
  · intro h
    unfold kindOfExt? at h
    split at h
    · exact Or.inl ⟨(Option.some.inj h).symm, ‹_›⟩
    · split at h
      · exact Or.inr ⟨(Option.some.inj h).symm, ‹_›⟩
      · cases h
  · rintro (⟨rfl, rfl⟩ | ⟨rfl, rfl⟩) <;> decide

/-! ## What is read -/

/-- A numeral does not begin like a manifest's name. -/
theorem after?_numeral (h : Numeral ds v) (rest : List Char) :
    after? manifestMark (ds ++ rest) = none := by
  obtain ⟨d, ds, rfl⟩ := List.exists_cons_of_ne_nil h.ne_nil
  cases hafter : after? manifestMark (d :: ds ++ rest) with
  | none => rfl
  | some tail =>
    have hd : d = 'M' := (List.cons.inj (after?_eq_some_iff.1 hafter)).1
    have hdig := h.isDigit d List.mem_cons_self
    rw [hd] at hdig
    exact absurd hdig (by decide)

theorem dot_not_mem_numeral (h : Numeral ds v) : '.' ∉ ds := fun hdot =>
  absurd (h.isDigit _ hdot) (by decide)

/-- A numeral with an extension is read by its extension. -/
theorem ofName?_ext (h : Numeral ds v) (ext : List Char) :
    ofName? (ds ++ '.' :: ext) =
      (kindOfExt? ext).bind fun k => (Decimal.word? ds).map (FileId.mk k) := by
  simp only [ofName?, after?_numeral h, splitDot?_append (dot_not_mem_numeral h)]
  cases kindOfExt? ext <;> rfl

/-- **What is read is a form with a numeral**, and it is read as the kind and the value. -/
theorem ofName?_eq_some_iff :
    ofName? cs = some id ↔ ∃ ds, Form id.kind ds cs ∧ Numeral ds id.seq.toNat := by
  constructor
  · intro h
    unfold ofName? at h
    split at h
    · rename_i ds hafter
      obtain ⟨w, hw, rfl⟩ := Option.map_eq_some_iff.1 h
      obtain rfl := after?_eq_some_iff.1 hafter
      exact ⟨ds, .manifest ds, Decimal.word?_eq_some_iff.1 hw⟩
    · split at h
      · cases h
      · rename_i ds ext hsplit
        split at h
        · cases h
        · rename_i k hk
          obtain ⟨w, hw, rfl⟩ := Option.map_eq_some_iff.1 h
          obtain ⟨-, rfl⟩ := splitDot?_eq_some_iff.1 hsplit
          have hnum := Decimal.word?_eq_some_iff.1 hw
          rcases kindOfExt?_eq_some_iff.1 hk with ⟨rfl, rfl⟩ | ⟨rfl, rfl⟩
          · exact ⟨ds, .journal ds, hnum⟩
          · exact ⟨ds, .table ds, hnum⟩
  · rintro ⟨ds, hform, hnum⟩
    obtain ⟨kind, seq⟩ := id
    have hw : Decimal.word? ds = some seq := Decimal.word?_eq_some_iff.2 hnum
    cases hform with
    | manifest =>
      have hafter : after? manifestMark ("MANIFEST-".toList ++ ds) = some ds := after?_append _ _
      simp only [ofName?, hafter, hw, Option.map_some]
    | journal =>
      have hread := ofName?_ext hnum journalExt
      rwa [kindOfExt?_eq_some_iff.2 (Or.inl ⟨rfl, rfl⟩), hw] at hread
    | table =>
      have hread := ofName?_ext hnum tableExt
      rwa [kindOfExt?_eq_some_iff.2 (Or.inr ⟨rfl, rfl⟩), hw] at hread

namespace Form

theorem kind_ne (h : Form k ds cs) : k ≠ .other := by
  cases h <;> decide

/-- A map of characters that keeps the digits apart from the letters by which the forms differ. -/
structure Telling (f : Char → Char) : Prop where
  first : ∀ d : Char, d.isDigit = true → f d ≠ f 'M'
  journal : ∀ d : Char, d.isDigit = true → f d ≠ f 'g'
  table : ∀ d : Char, d.isDigit = true → f d ≠ f 't'
  last : f 'g' ≠ f 't'

variable {f : Char → Char}

/-- A numeral with an extension does not begin as a manifest's name does. -/
theorem map_mark_ne (hf : ∀ d : Char, d.isDigit = true → f d ≠ f 'M') (h : Numeral ds v)
    (rest ext : List Char) : ('M' :: rest).map f ≠ (ds ++ ext).map f := by
  obtain ⟨d, ds, rfl⟩ := List.exists_cons_of_ne_nil h.ne_nil
  intro he
  have hd : f 'M' = f d := (List.cons.inj he).1
  exact hf d (h.isDigit d List.mem_cons_self) hd.symm

/-- A name that ends with a numeral does not end with a letter. -/
theorem map_last_ne {c : Char} (hf : ∀ d : Char, d.isDigit = true → f d ≠ f c) (h : Numeral ds v)
    (rest mark : List Char) : (rest ++ [c]).map f ≠ (mark ++ ds).map f := by
  intro he
  have hlast := congrArg List.getLast? he
  cases h with
  | @digit d hd =>
    simp only [List.map_append, List.map_cons, List.map_nil, List.getLast?_concat,
      Option.some.injEq] at hlast
    exact hf d hd hlast.symm
  | @more ds n d _ hd =>
    simp only [List.map_append, List.map_cons, List.map_nil, ← List.append_assoc,
      List.getLast?_concat, Option.some.injEq] at hlast
    exact hf d hd hlast.symm

/-- The extensions differ in their last letter. -/
theorem map_ext_ne (hf : f 'g' ≠ f 't') (ds ds' : List Char) :
    (ds ++ ".log".toList).map f ≠ (ds' ++ ".sst".toList).map f := by
  intro he
  have hlast := congrArg List.getLast? he
  simp only [List.map_append, List.getLast?_append] at hlast
  exact hf (Option.some.inj hlast)

/-- **Two names that such a map makes alike have one form**, if one of them has a numeral, and
then they differ at most in what should be digits. -/
theorem unique_map (hf : Telling f) (h : Form k ds cs) (h' : Form k' ds' cs') (hn : Numeral ds' v)
    (he : cs.map f = cs'.map f) : k = k' ∧ ds.map f = ds'.map f := by
  cases h with
  | manifest ds =>
    cases h' with
    | manifest ds' =>
      rw [List.map_append, List.map_append] at he
      exact ⟨rfl, List.append_cancel_left he⟩
    | journal ds' => exact absurd he (map_mark_ne hf.first hn _ _)
    | table ds' => exact absurd he (map_mark_ne hf.first hn _ _)
  | journal ds =>
    cases h' with
    | manifest ds' =>
      have hsplit : ds ++ ".log".toList = (ds ++ ".lo".toList) ++ ['g'] := by simp
      rw [hsplit] at he
      exact absurd he (map_last_ne hf.journal hn _ _)
    | journal ds' =>
      rw [List.map_append, List.map_append] at he
      exact ⟨rfl, List.append_cancel_right he⟩
    | table ds' => exact absurd he (map_ext_ne hf.last _ _)
  | table ds =>
    cases h' with
    | manifest ds' =>
      have hsplit : ds ++ ".sst".toList = (ds ++ ".ss".toList) ++ ['t'] := by simp
      rw [hsplit] at he
      exact absurd he (map_last_ne hf.table hn _ _)
    | journal ds' => exact absurd he.symm (map_ext_ne hf.last _ _)
    | table ds' =>
      rw [List.map_append, List.map_append] at he
      exact ⟨rfl, List.append_cancel_right he⟩

theorem digit_ne {d c : Char} (hd : d.isDigit = true) (hc : c.isDigit = false) : d ≠ c := by
  rintro rfl
  rw [hd] at hc
  cases hc

/-- **A name with a numeral has no second form**, and nothing else can stand for its digits. -/
theorem unique (h : Form k ds cs) (h' : Form k' ds' cs) (hn : Numeral ds' v) :
    k = k' ∧ ds = ds' := by
  have hf : Telling fun c => c :=
    ⟨fun d hd => digit_ne hd rfl, fun d hd => digit_ne hd rfl, fun d hd => digit_ne hd rfl,
      by decide⟩
  have := h.unique_map hf h' hn rfl
  rwa [List.map_id', List.map_id'] at this

/-- What is read from a name in some form is of its kind, and what should be digits is. -/
theorem of_ofName? (h : Form k ds cs) (hr : ofName? cs = some id) :
    k = id.kind ∧ Numeral ds id.seq.toNat := by
  obtain ⟨ds', hform, hn⟩ := ofName?_eq_some_iff.1 hr
  obtain ⟨hk, rfl⟩ := h.unique hform hn
  exact ⟨hk, hn⟩

theorem toLower_digit {d : Char} (h : d.isDigit = true) : d.toLower = d := by
  have hb := isDigit_bounds h
  have hup : ¬(d.val ≥ 65 ∧ d.val ≤ 90) := by
    rintro ⟨h65, -⟩
    have h65' : 65 ≤ d.toNat := UInt32.le_iff_toNat_le.1 h65
    omega
  unfold Char.toLower
  exact dif_neg hup

theorem map_toLower (h : Numeral ds v) : ds.map Char.toLower = ds :=
  (List.map_congr_left fun d hd => toLower_digit (h.isDigit d hd)).trans (List.map_id' ds)

/-- Names that are read do not differ in the case of letters alone. -/
theorem eq_of_toLower (h : Form k ds cs) (hn : Numeral ds v) (h' : Form k' ds' cs')
    (hn' : Numeral ds' v') (he : cs.map Char.toLower = cs'.map Char.toLower) : cs = cs' := by
  have hne : ∀ c : Char, c.toLower.isDigit = false → ∀ d : Char, d.isDigit = true →
      d.toLower ≠ c.toLower := by
    intro c hc d hd
    rw [toLower_digit hd]
    exact digit_ne hd hc
  have hf : Telling Char.toLower :=
    ⟨hne 'M' (by decide), hne 'g' (by decide), hne 't' (by decide), by decide⟩
  obtain ⟨rfl, hds⟩ := h.unique_map hf h' hn' he
  rw [map_toLower hn, map_toLower hn'] at hds
  subst hds
  cases h <;> cases h' <;> rfl

end Form

/-! ## What is not read -/

theorem ofName?_eq_none_of (h : ∀ id, ofName? cs ≠ some id) : ofName? cs = none :=
  Option.eq_none_iff_forall_ne_some.2 h

/-- A name is not read if some character in the place of a digit is none. -/
theorem Form.ofName?_not_digit {c : Char} (h : Form k ds cs) (hc : c ∈ ds)
    (hd : c.isDigit = false) : ofName? cs = none := by
  apply ofName?_eq_none_of
  intro id hr
  have hdig := (h.of_ofName? hr).2.isDigit c hc
  rw [hd] at hdig
  cases hdig

/-- A name is not read if its number does not fit into a word. -/
theorem Form.ofName?_too_large (h : Form k ds cs) (hn : Numeral ds v) (hv : 2 ^ 64 ≤ v) :
    ofName? cs = none := by
  apply ofName?_eq_none_of
  intro id hr
  have hseq : v = id.seq.toNat := hn.unique (h.of_ofName? hr).2
  have hlt := id.seq.toNat_lt
  omega

theorem kindOfExt?_dot {ext : List Char} (h : '.' ∈ ext) : kindOfExt? ext = none := by
  have hj : ext ≠ journalExt := by
    rintro rfl
    exact absurd h (by decide)
  have ht : ext ≠ tableExt := by
    rintro rfl
    exact absurd h (by decide)
  rw [kindOfExt?, if_neg hj, if_neg ht]

/-- A name that is read is not read with one more extension. -/
theorem Form.ofName?_second_ext (h : Form k ds cs) (hn : Numeral ds v) (ext : List Char) :
    ofName? (cs ++ '.' :: ext) = none := by
  have hdot : ∀ e : List Char, ofName? (ds ++ '.' :: (e ++ '.' :: ext)) = none := by
    intro e
    rw [ofName?_ext hn, kindOfExt?_dot (by simp), Option.bind_none]
  cases h with
  | manifest =>
    rw [List.append_assoc]
    exact (Form.manifest (ds ++ '.' :: ext)).ofName?_not_digit (c := '.') (by simp) (by decide)
  | journal =>
    rw [List.append_assoc]
    exact hdot journalExt
  | table =>
    rw [List.append_assoc]
    exact hdot tableExt

/-- A name is not read if it has a character that no name has. -/
theorem ofName?_odd_char {c : Char} (hc : c ∈ cs) (hd : c.isDigit = false)
    (hm : c ∉ "MANIFEST-.logst".toList) : ofName? cs = none := by
  apply ofName?_eq_none_of
  intro id hr
  obtain ⟨ds, hform, hn⟩ := ofName?_eq_some_iff.1 hr
  have hds : c ∉ ds := fun h => by
    have hdig := hn.isDigit c h
    rw [hd] at hdig
    cases hdig
  generalize id.kind = k at hform
  simp only [String.reduceToList, List.mem_cons, not_or] at hm
  cases hform <;> simp_all

theorem Form.ofName?_eq (h : Form k ds cs) (hn : Numeral ds v) (hv : v < 2 ^ 64) :
    ofName? cs = some ⟨k, UInt64.ofNat v⟩ := by
  refine ofName?_eq_some_iff.2 ⟨ds, h, ?_⟩
  exact (UInt64.toNat_ofNat_of_lt hv).symm ▸ hn

theorem ofName?_eq_none_iff :
    ofName? cs = none ↔ ∀ k ds v, Form k ds cs → Numeral ds v → 2 ^ 64 ≤ v := by
  constructor
  · intro hnone k ds v hform hn
    refine Nat.not_lt.1 fun hv => ?_
    rw [hform.ofName?_eq hn hv] at hnone
    cases hnone
  · intro hall
    apply ofName?_eq_none_of
    intro id hr
    obtain ⟨ds, hform, hn⟩ := ofName?_eq_some_iff.1 hr
    have hle := hall _ ds _ hform hn
    have hlt := id.seq.toNat_lt
    omega

/-- **Which names are read, and as what.** A name is read as the file of a kind and a number if it
has the form of the kind and its digits are a numeral of that value, whatever zeros stand in front.
It is not read if it has no form with a numeral, or one whose value does not fit into a word.

So the forms exclude each other, and nothing is read from a name with another character in the
place of a digit, be it a sign, a blank or a digit of another script, or with such a character
anywhere; with a number that is too large; with a second extension; or with a letter in another
case. No name is that of a foreign file. -/
theorem ofName?_grammar (cs : List Char) :
    (∀ k w, ofName? cs = some ⟨k, w⟩ ↔
      ∃ ds v, Form k ds cs ∧ Numeral ds v ∧ v < 2 ^ 64 ∧ w.toNat = v) ∧
    (ofName? cs = none ↔ ∀ k ds v, Form k ds cs → Numeral ds v → 2 ^ 64 ≤ v) ∧
    (∀ k ds v k' ds' v', Form k ds cs → Numeral ds v → Form k' ds' cs → Numeral ds' v' →
      k = k' ∧ ds = ds' ∧ v = v') ∧
    (∀ k ds c, Form k ds cs → c ∈ ds → c.isDigit = false → ofName? cs = none) ∧
    (∀ c, c ∈ cs → c.isDigit = false → c ∉ "MANIFEST-.logst".toList → ofName? cs = none) ∧
    (∀ k ds v, Form k ds cs → Numeral ds v → 2 ^ 64 ≤ v → ofName? cs = none) ∧
    (∀ id ext, ofName? cs = some id → ofName? (cs ++ '.' :: ext) = none) ∧
    (∀ id cs', ofName? cs = some id → cs' ≠ cs →
      cs'.map Char.toLower = cs.map Char.toLower → ofName? cs' = none) ∧
    (∀ id, ofName? cs = some id → id.kind ≠ .other) := by
  refine ⟨fun k w => ?_, ofName?_eq_none_iff, fun k ds v k' ds' v' h hn h' hn' => ?_,
    fun k ds c h => h.ofName?_not_digit, fun c => ofName?_odd_char,
    fun k ds v h => h.ofName?_too_large, fun id ext hr => ?_, fun id cs' hr hne hlower => ?_,
    fun id hr => ?_⟩
  · rw [ofName?_eq_some_iff]
    constructor
    · rintro ⟨ds, hform, hn⟩
      exact ⟨ds, w.toNat, hform, hn, w.toNat_lt, rfl⟩
    · rintro ⟨ds, v, hform, hn, -, rfl⟩
      exact ⟨ds, hform, hn⟩
  · obtain ⟨rfl, rfl⟩ := h.unique h' hn'
    exact ⟨rfl, rfl, hn.unique hn'⟩
  · obtain ⟨ds, hform, hn⟩ := ofName?_eq_some_iff.1 hr
    exact hform.ofName?_second_ext hn ext
  · obtain ⟨ds, hform, hn⟩ := ofName?_eq_some_iff.1 hr
    apply ofName?_eq_none_of
    intro id' hr'
    obtain ⟨ds', hform', hn'⟩ := ofName?_eq_some_iff.1 hr'
    exact hne (hform'.eq_of_toLower hn' hform hn hlower)
  · obtain ⟨ds, hform, -⟩ := ofName?_eq_some_iff.1 hr
    exact hform.kind_ne

theorem ofName?_grammar_samples :
    ofName? "00000000000000000000007.log".toList = some ⟨.journal, 7⟩ ∧
    ofName? "18446744073709551616.sst".toList = none ∧
    ofName? "MANIFEST-+7".toList = none ∧
    ofName? "000007.log.sst".toList = none ∧
    ofName? "Manifest-000007".toList = none := by
  have hn : ∀ ds : List Char, ds ≠ [] → ds.all Char.isDigit = true →
      Numeral ds (Decimal.value ds) := fun ds hne hall =>
    numeral_iff.2 ⟨hne, List.all_eq_true.1 hall, rfl⟩
  refine ⟨?_, ?_, ?_, ?_, ?_⟩
  · exact ((ofName?_grammar _).1 .journal 7).2 ⟨"00000000000000000000007".toList, 7,
      .journal _, hn _ (by decide) (by decide), by decide, by decide⟩
  · exact (ofName?_grammar _).2.2.2.2.2.1 .table "18446744073709551616".toList _ (.table _)
      (hn _ (by decide) (by decide)) (by decide)
  · exact (ofName?_grammar _).2.2.2.1 .manifest "+7".toList '+' (.manifest _) (by decide) (by decide)
  · exact (ofName?_grammar "000007.log".toList).2.2.2.2.2.2.1 ⟨.journal, 7⟩ "sst".toList (by decide)
  · exact (ofName?_grammar "MANIFEST-000007".toList).2.2.2.2.2.2.2.1 ⟨.manifest, 7⟩ _ (by decide)
      (by decide) (by decide)

/-! ## The name a file goes by -/

theorem name?_eq_text (h : id.kind ≠ .other) : id.name? = some id.text := by
  unfold name?
  split
  · exact absurd ‹_› h
  · rfl

/-- The text of a file's id is a name in the form of its kind. -/
theorem form_text (h : id.kind ≠ .other) : Form id.kind id.number id.text := by
  obtain ⟨kind, seq⟩ := id
  cases kind with
  | manifest => exact .manifest _
  | journal => exact .journal _
  | table => exact .table _
  | other => exact absurd rfl h

theorem Form.eq (h : Form k ds cs) (h' : Form k ds cs') : cs = cs' := by
  cases h <;> cases h' <;> rfl

/-- A name that is read is the one its file goes by if its digits are the file's number as it is
written. -/
theorem Form.name?_eq_iff_number (h : Form k ds cs) (hr : ofName? cs = some id) :
    id.name? = some cs ↔ id.number = ds := by
  obtain ⟨rfl, hn⟩ := h.of_ofName? hr
  rw [name?_eq_text h.kind_ne, Option.some.injEq]
  have htext := form_text h.kind_ne
  constructor
  · rintro rfl
    exact (htext.unique h hn).2
  · intro hnum
    exact (hnum ▸ htext).eq h

/-- **The name a file goes by** has six digits, or more and no zero in front. -/
theorem Form.name?_eq_iff (h : Form k ds cs) (hr : ofName? cs = some id) :
    id.name? = some cs ↔ ds.length = 6 ∨ 6 < ds.length ∧ ds.head? ≠ some '0' := by
  rw [h.name?_eq_iff_number hr]
  exact (h.of_ofName? hr).2.padded_eq_iff (by decide)

/-- **The names of one file** have one form, and differ by zeros in front of the number. -/
theorem Form.same_iff (h : Form k ds cs) (hr : ofName? cs = some id) (h' : Form k' ds' cs')
    (hr' : ofName? cs' = some id') :
    id = id' ↔ k = k' ∧
      ∃ n, ds = List.replicate n '0' ++ ds' ∨ ds' = List.replicate n '0' ++ ds := by
  obtain ⟨rfl, hn⟩ := h.of_ofName? hr
  obtain ⟨rfl, hn'⟩ := h'.of_ofName? hr'
  rw [← hn.value_eq_iff hn', UInt64.toNat_inj]
  obtain ⟨kind, seq⟩ := id
  obtain ⟨kind', seq'⟩ := id'
  rw [FileId.mk.injEq]

/-- A foreign file's text is no name, since no name has a `#`. -/
theorem ofName?_text_other (h : id.kind = .other) : ofName? id.text = none := by
  refine ofName?_odd_char (c := '#') ?_ (by decide) (by decide)
  rw [text, h]
  simp

theorem ofName?_text_iff : ofName? id.text = some id ↔ id.kind ≠ .other := by
  constructor
  · intro hr hk
    rw [ofName?_text_other hk] at hr
    cases hr
  · intro hk
    exact ofName?_name? (name?_eq_text hk)

theorem digits_injective {m n : Nat} (h : Decimal.digits m = Decimal.digits n) : m = n := by
  have hn := Numeral.digits m
  rw [h] at hn
  exact hn.unique (Numeral.digits n)

/-- **Ids with one text are the same**, foreign files among them. -/
theorem text_injective (h : id.text = id'.text) : id = id' := by
  by_cases hk : id.kind = .other
  · by_cases hk' : id'.kind = .other
    · obtain ⟨kind, seq⟩ := id
      obtain ⟨kind', seq'⟩ := id'
      obtain rfl : kind = .other := hk
      obtain rfl : kind' = .other := hk'
      have hdigits : seq.toNat = seq'.toNat := digits_injective (List.append_cancel_left h)
      rw [UInt64.toNat_inj.1 hdigits]
    · have hr := ofName?_text_iff.2 hk'
      rw [← h, ofName?_text_other hk] at hr
      cases hr
  · have hr := ofName?_text_iff.2 hk
    rw [h] at hr
    by_cases hk' : id'.kind = .other
    · rw [ofName?_text_other hk'] at hr
      cases hr
    · rw [ofName?_text_iff.2 hk'] at hr
      exact (Option.some.inj hr).symm

theorem name?_injective (h : id.name? = some cs) (h' : id'.name? = some cs) : id = id' := by
  have hr := ofName?_name? h
  rw [ofName?_name? h'] at hr
  exact (Option.some.inj hr).symm

/-- **Writing and reading undo each other, up to zeros in front.** A manifest, a journal or a table
has a name for every number, and the name is read as it. A name that is read is the one its file
goes by if it has six digits, or more and no zero in front; two names that are read are those of
one file if they have one form and their digits differ by zeros in front.

So no two files go by one name, and no two ids are shown alike; what is shown is read as the id,
but for a foreign file's. -/
theorem name?_ofName?_inverse :
    (∀ id : FileId, id.kind ≠ .other → ∃ cs, id.name? = some cs ∧ ofName? cs = some id) ∧
    (∀ (id : FileId) k cs ds, ofName? cs = some id → Form k ds cs →
      (id.name? = some cs ↔ ds.length = 6 ∨ 6 < ds.length ∧ ds.head? ≠ some '0')) ∧
    (∀ id id' k k' cs cs' ds ds', ofName? cs = some id → Form k ds cs →
      ofName? cs' = some id' → Form k' ds' cs' →
      (id = id' ↔ k = k' ∧
        ∃ n, ds = List.replicate n '0' ++ ds' ∨ ds' = List.replicate n '0' ++ ds)) ∧
    (∀ (id id' : FileId) cs, id.name? = some cs → id'.name? = some cs → id = id') ∧
    (∀ id id' : FileId, id.shown = id'.shown → id = id') ∧
    (∀ id : FileId, ofName? id.shown.toList = some id ↔ id.kind ≠ .other) := by
  have htext : ∀ id : FileId, id.shown.toList = id.text := fun id => String.toList_ofList
  refine ⟨fun id hk => ?_, fun id k cs ds hr h => h.name?_eq_iff hr,
    fun id id' k k' cs cs' ds ds' hr h hr' h' => h.same_iff hr h' hr',
    fun id id' cs => name?_injective, fun id id' hshown => ?_, fun id => ?_⟩
  · have hname := name?_eq_text hk
    exact ⟨id.text, hname, ofName?_name? hname⟩
  · have hsame := congrArg String.toList hshown
    rw [htext, htext] at hsame
    exact text_injective hsame
  · rw [htext]
    exact ofName?_text_iff

theorem name?_ofName?_inverse_samples :
    (FileId.mk .journal 7).name? ≠ some "7.log".toList ∧
    (FileId.mk .table 1234567).name? = some "1234567.sst".toList ∧
    (FileId.mk .manifest 7) ≠ (FileId.mk .manifest 70) ∧
    ofName? (FileId.mk .other 7).shown.toList ≠ some (FileId.mk .other 7) := by
  obtain ⟨-, hcanonical, hsame, -, -, hshown⟩ := name?_ofName?_inverse
  refine ⟨?_, ?_, ?_, ?_⟩
  · intro hname
    have := (hcanonical ⟨.journal, 7⟩ .journal "7.log".toList "7".toList (by decide)
      (.journal _)).1 hname
    revert this
    decide
  · exact (hcanonical ⟨.table, 1234567⟩ .table "1234567.sst".toList "1234567".toList (by decide)
      (.table _)).2 (Or.inr (by decide))
  · intro he
    obtain ⟨-, n, hn⟩ := (hsame ⟨.manifest, 7⟩ ⟨.manifest, 70⟩ _ _ _ _ "7".toList "70".toList
      (by decide) (.manifest _) (by decide) (.manifest _)).1 he
    rcases hn with hn | hn
    · have := congrArg List.length hn
      simp at this
    · have := congrArg List.getLast? hn
      simp [List.getLast?_append] at this
  · intro hr
    exact (hshown ⟨.other, 7⟩).1 hr rfl

end FileId

end EngineDir
