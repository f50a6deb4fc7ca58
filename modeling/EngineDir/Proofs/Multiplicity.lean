import Mathlib.Data.Set.Card
import EngineDir.Proofs.Access
import EngineDir.Proofs.FileNames
import EngineDir.Proofs.Reserved

/-!
# How often a file is listed

A file can have several names in a directory, with more or fewer zeros in front of its number, and
a listing has the file once for each of them. Which kinds are listed is said by constants and kinds
with `|` between them.

* `KindTerm`, `selection`: how a set of kinds is written. `contains_selection`: **it selects what
  one of its terms includes.** `code_selection`: as a number it is the disjunction of its terms.
* `FileSystem.spellings`: the names that a directory has for a file.
* `Store.list_tallies`: **each file of a selected kind is listed once for each of its names.**
* `FileSystem.ncard_spellings_unbind`, `FileSystem.ncard_spellings_bound`: a name less or more.
* `Store.listsExactly`: **how often a file is listed, and what removing and creating it change.**
-/

namespace EngineDir

open FileSystem

/-! ## Selections -/

/-- A term of a selection: a constant or a kind. -/
inductive KindTerm where
  | none
  | manifest
  | journal
  | table
  | all
  | kind (k : FileKind)

namespace KindTerm

/-- The set that the term stands for. -/
def set : KindTerm → KindSet
  | none => .none
  | manifest => .ofKind .manifest
  | journal => .ofKind .journal
  | table => .ofKind .table
  | all => .all
  | kind k => .ofKind k

/-- The term as a number. -/
def bits : KindTerm → Nat
  | none => 0
  | manifest => 1
  | journal => 2
  | table => 4
  | all => 7
  | kind k => 2 ^ k.rank

/-- The kinds that a term includes. The constant for all kinds leaves the foreign one out. -/
inductive Includes : KindTerm → FileKind → Prop
  | manifest : Includes .manifest .manifest
  | journal : Includes .journal .journal
  | table : Includes .table .table
  | all {k : FileKind} (h : k = .manifest ∨ k = .journal ∨ k = .table) : Includes .all k
  | kind (k : FileKind) : Includes (.kind k) k

theorem contains_set {τ : KindTerm} {k : FileKind} : τ.set.contains k = true ↔ τ.Includes k := by
  constructor
  · intro h
    cases τ with
    | none => simp [set] at h
    | manifest =>
      obtain rfl : .manifest = k := by simpa [set] using h
      exact .manifest
    | journal =>
      obtain rfl : .journal = k := by simpa [set] using h
      exact .journal
    | table =>
      obtain rfl : .table = k := by simpa [set] using h
      exact .table
    | all =>
      refine .all ?_
      have hk : k ≠ .other := by simpa [set] using h
      cases k <;> simp_all
    | kind j =>
      obtain rfl : j = k := by simpa [set] using h
      exact .kind j
  · intro h
    cases h with
    | all h => rcases h with rfl | rfl | rfl <;> rfl
    | kind => simp [set]
    | _ => rfl

theorem code_set (τ : KindTerm) : τ.set.code = τ.bits := by
  cases τ with
  | kind k => cases k <;> rfl
  | _ => rfl

end KindTerm

/-- The set that is written as the terms with `|` between them. -/
def selection (ts : List KindTerm) : KindSet := .ofTerms (ts.map KindTerm.set)

variable {ts : List KindTerm} {k : FileKind}

theorem contains_foldl_union (a : KindSet) (ks : List KindSet) :
    (ks.foldl KindSet.union a).contains k = (a.contains k || ks.any fun s => s.contains k) := by
  induction ks generalizing a with
  | nil => simp
  | cons s ks ih => rw [List.foldl_cons, ih, KindSet.contains_union, List.any_cons, Bool.or_assoc]

/-- **A selection selects what one of its terms includes.** -/
theorem contains_selection :
    (selection ts).contains k = true ↔ ∃ τ ∈ ts, τ.Includes k := by
  rw [selection, KindSet.ofTerms, contains_foldl_union, KindSet.contains_none, Bool.false_or,
    List.any_map, List.any_eq_true]
  simp only [Function.comp_apply, KindTerm.contains_set]

theorem code_union (s s' : KindSet) : (s.union s').code = s.code ||| s'.code := by
  obtain ⟨a, b, c, d⟩ := s
  obtain ⟨a', b', c', d'⟩ := s'
  revert a b c d a' b' c' d'
  decide

theorem code_selection (ts : List KindTerm) :
    (selection ts).code = (ts.map KindTerm.bits).foldl (· ||| ·) 0 := by
  have hfold : ∀ (a : KindSet) (ts : List KindTerm),
      ((ts.map KindTerm.set).foldl KindSet.union a).code =
        (ts.map KindTerm.bits).foldl (· ||| ·) a.code := by
    intro a ts
    induction ts generalizing a with
    | nil => rfl
    | cons τ ts ih =>
      rw [List.map_cons, List.foldl_cons, ih, code_union, KindTerm.code_set, List.map_cons,
        List.foldl_cons]
  exact hfold .none ts

/-! ## The names of a file -/

/-- The name is read as the file `id`. -/
def FileId.Spelled (id : FileId) (n : Bytes) : Prop :=
  ∃ cs, n = Utf8.encode cs ∧ FileId.ofName? cs = some id

variable {fs fs' : FileSystem} {t : Trail} {D i : NodeId} {s : Store} {id id' : FileId}
  {n : Bytes} {kinds : KindSet} {now : Clock.Reading}

theorem FileId.Named.spelled (h : id.Named n) : id.Spelled n := by
  obtain ⟨cs, hcs, rfl⟩ := h
  exact ⟨cs, rfl, FileId.ofName?_name? hcs⟩

namespace FileId.Spelled

/-- A name is read as one file. -/
theorem unique (h : id.Spelled n) (h' : id'.Spelled n) : id = id' := by
  obtain ⟨cs, rfl, hcs⟩ := h
  obtain ⟨cs', hn, hcs'⟩ := h'
  rw [← Utf8.encode_injective hn, hcs] at hcs'
  exact Option.some.inj hcs'

/-- What is read as a file has the form of its kind around a numeral. -/
theorem iff_form : id.Spelled n ↔ ∃ cs ds, n = Utf8.encode cs ∧ FileId.Form id.kind ds cs ∧
    Numeral ds id.seq.toNat := by
  constructor
  · rintro ⟨cs, hn, hcs⟩
    obtain ⟨ds, hform, hnum⟩ := FileId.ofName?_eq_some_iff.1 hcs
    exact ⟨cs, ds, hn, hform, hnum⟩
  · rintro ⟨cs, ds, hn, hform, hnum⟩
    exact ⟨cs, hn, FileId.ofName?_eq_some_iff.2 ⟨ds, hform, hnum⟩⟩

theorem kind_ne (h : id.Spelled n) : id.kind ≠ .other := by
  obtain ⟨cs, ds, -, hform, -⟩ := iff_form.1 h
  exact hform.kind_ne

end FileId.Spelled

namespace FileSystem

/-- The names in the directory `D` that are read as the file `id`. -/
def spellings (fs : FileSystem) (D : NodeId) (id : FileId) : Set Bytes :=
  {n | (∃ i, fs.lookup D n = some i) ∧ id.Spelled n}

theorem mem_spellings :
    n ∈ fs.spellings D id ↔ (∃ i, fs.lookup D n = some i) ∧ id.Spelled n := Iff.rfl

theorem spellings_finite (fs : FileSystem) (D : NodeId) (id : FileId) :
    (fs.spellings D id).Finite := by
  cases hd : fs.directory? D with
  | none =>
    refine Set.Finite.subset Set.finite_empty ?_
    rintro n ⟨⟨i, hi⟩, -⟩
    rw [lookup, hd] at hi
    cases hi
  | some d =>
    refine d.entries.keys.toFinset.finite_toSet.subset ?_
    rintro n ⟨hn, -⟩
    simpa using (mem_keys_iff hd).2 hn

/-- A foreign file has no names. -/
theorem spellings_other (h : id.kind = .other) : fs.spellings D id = ∅ :=
  Set.eq_empty_of_forall_notMem fun _ hn => hn.2.kind_ne h

/-- Without its own name a file has one name less, and every other file as many as before. -/
theorem spellings_unbind (id : FileId) :
    (fs.unbind D n).spellings D id = fs.spellings D id \ {n} := by
  ext m
  simp only [mem_spellings, Set.mem_sdiff, Set.mem_singleton_iff, lookup_unbind,
    true_and]
  by_cases hm : m = n
  · simp [hm]
  · simp [hm]

theorem ncard_spellings_unbind (hl : fs.lookup D n = some i) (hn : id.Spelled n) :
    ((fs.unbind D n).spellings D id).ncard + 1 = (fs.spellings D id).ncard ∧
      ∀ id', id' ≠ id →
        ((fs.unbind D n).spellings D id').ncard = (fs.spellings D id').ncard := by
  constructor
  · rw [spellings_unbind]
    exact Set.ncard_sdiff_singleton_add_one ⟨⟨i, hl⟩, hn⟩ (spellings_finite fs D id)
  · intro id' hne
    have hnot : n ∉ fs.spellings D id' := fun h => hne (h.2.unique hn)
    rw [spellings_unbind, Set.sdiff_singleton_eq_self hnot]

/-- With a name bound, the file that it is read as has it among its names. -/
theorem ncard_spellings_bound (hn : id.Spelled n) (hl : fs'.lookup D n = some i)
    (hrest : ∀ m, m ≠ n → fs'.lookup D m = fs.lookup D m) :
    (fs'.spellings D id).ncard =
        (fs.spellings D id).ncard + (if fs.lookup D n = none then 1 else 0) ∧
      ∀ id', id' ≠ id → (fs'.spellings D id').ncard = (fs.spellings D id').ncard := by
  have hbound : fs'.spellings D id = insert n (fs.spellings D id) := by
    ext m
    simp only [mem_spellings, Set.mem_insert_iff]
    by_cases hm : m = n
    · subst hm
      simp [hl, hn]
    · simp [hrest m hm, hm]
  constructor
  · rw [hbound]
    split
    · rename_i hfree
      refine Set.ncard_insert_of_notMem ?_ (spellings_finite fs D id)
      rintro ⟨⟨j, hj⟩, -⟩
      rw [hfree] at hj
      cases hj
    · rename_i hused
      obtain ⟨j, hj⟩ := Option.ne_none_iff_exists'.1 hused
      exact Set.ncard_insert_of_mem ⟨⟨j, hj⟩, hn⟩
  · intro id' hne
    congr 1
    ext m
    simp only [mem_spellings]
    by_cases hm : m = n
    · subst hm
      have hnot : ¬id'.Spelled m := fun h => hne (h.unique hn)
      simp [hnot]
    · rw [hrest m hm]

end FileSystem

/-! ## Listings -/

/-- The elements of a list without repetitions are counted as a set is. -/
theorem countP_eq_ncard {α : Type} {l : List α} (hl : l.Nodup) (p : α → Bool) :
    l.countP p = {a | a ∈ l ∧ p a = true}.ncard := by
  classical
  have hset : {a | a ∈ l ∧ p a = true} = ((l.filter p).toFinset : Set α) := by
    ext a
    simp
  rw [hset, Set.ncard_coe_finset, List.toFinset_card_of_nodup (hl.filter p),
    List.countP_eq_length_filter]

namespace Store

/-- `ids` is what the store lists for the terms `ts`: each file as often as the directory has names
for it if a term includes its kind, and not at all otherwise. -/
structure Tallies (fs : FileSystem) (t : Trail) (s : Store) (ts : List KindTerm)
    (ids : List FileId) : Prop where
  listed : s.list fs (selection ts) = .ok ids
  included : ∀ id, (∃ τ ∈ ts, τ.Includes id.kind) →
    ids.count id = (fs.spellings t.here id).ncard
  excluded : ∀ id, (∀ τ ∈ ts, ¬τ.Includes id.kind) → ids.count id = 0

theorem count_listed {d : Directory} (hd : fs.directory? D = some d) (kinds : KindSet)
    (id : FileId) : (d.entries.keys.filterMap (listed? kinds)).count id =
      if kinds.contains id.kind = true then (fs.spellings D id).ncard else 0 := by
  rw [List.count_filterMap]
  split
  · rename_i hk
    have hnodup : d.entries.keys.Nodup := d.entries.nodup
    rw [countP_eq_ncard hnodup]
    congr 1
    ext n
    have hread : (listed? kinds n == some id) = true ↔ id.Spelled n := by
      rw [beq_iff_eq, listed?_eq_some_iff]
      exact and_iff_left hk
    exact and_congr (mem_keys_iff hd) hread
  · rename_i hk
    refine List.countP_eq_zero.2 fun n _ hn => hk ?_
    exact (listed?_eq_some_iff.1 (by simpa using hn)).2

/-- **Each file of a selected kind is listed once for each of its names.** -/
theorem list_tallies (hs : fs.Sound) (ht : t.Stands fs) (hd : s.dir = t.path)
    (hc : s.closed = false) (ts : List KindTerm) : ∃ ids, s.Tallies fs t ts ids := by
  obtain ⟨d, hdir, hlist⟩ := list_eq (selection ts) hs ht hd hc
  refine ⟨_, hlist, fun id hin => ?_, fun id hout => ?_⟩
  · rw [count_listed hdir, if_pos (contains_selection.2 hin)]
  · rw [count_listed hdir, if_neg]
    intro hk
    obtain ⟨τ, hτ, hin⟩ := contains_selection.1 hk
    exact hout τ hτ hin

/-- The numbers of names of all files but `id` are the same. -/
theorem Tallies.count_eq {s' : Store} {ids ids' : List FileId} (h : s.Tallies fs t ts ids)
    (h' : s'.Tallies fs' t ts ids')
    (hn : (fs'.spellings t.here id).ncard = (fs.spellings t.here id).ncard) :
    ids'.count id = ids.count id := by
  by_cases hin : ∃ τ ∈ ts, τ.Includes id.kind
  · rw [h'.included id hin, h.included id hin, hn]
  · have hout : ∀ τ ∈ ts, ¬τ.Includes id.kind := fun τ hτ hi => hin ⟨τ, hτ, hi⟩
    rw [h'.excluded id hout, h.excluded id hout]

/-- What a store lists in the directory of the trail `t`, before and after a file is removed or
created. -/
structure ListsExactly (fs : FileSystem) (t : Trail) (s : Store) : Prop where
  tallies : ∀ ts, ∃ ids, s.Tallies fs t ts ids
  /-- The terms are joined bit by bit. -/
  code : ∀ ts, (selection ts).code = (ts.map KindTerm.bits).foldl (· ||| ·) 0
  /-- A name of a file is its form around its number, with any number of zeros in front. -/
  spelled : ∀ id n, n ∈ fs.spellings t.here id ↔ (∃ i, fs.lookup t.here n = some i) ∧
    ∃ cs ds, n = Utf8.encode cs ∧ FileId.Form id.kind ds cs ∧ Numeral ds id.seq.toNat
  foreign : ∀ ts ids id, s.list fs (selection ts) = .ok ids → id.kind = .other → id ∉ ids
  /-- A file that is removed is listed once less, and keeps its other names. -/
  removed : ∀ now id, (s.removeFile fs now id).result = .ok () →
    (∀ n, n ∈ (s.removeFile fs now id).fs.spellings t.here id ↔
      n ∈ fs.spellings t.here id ∧ ¬id.Named n) ∧
    ∀ ts, ∃ ids ids', s.Tallies fs t ts ids ∧
      (s.removeFile fs now id).store.Tallies (s.removeFile fs now id).fs t ts ids' ∧
      (∀ id', id' ≠ id → ids'.count id' = ids.count id') ∧
      ((∃ τ ∈ ts, τ.Includes id.kind) → ids'.count id + 1 = ids.count id)
  /-- A file that is created is listed once more if its name was free, and otherwise as before. -/
  created : ∀ id x n, (s.createFile fs id).result = .ok x → id.Named n → NoLink fs t.here n →
    ∀ ts, ∃ ids ids', s.Tallies fs t ts ids ∧
      (s.createFile fs id).store.Tallies (s.createFile fs id).fs t ts ids' ∧
      (∀ id', id' ≠ id → ids'.count id' = ids.count id') ∧
      ((∃ τ ∈ ts, τ.Includes id.kind) →
        ids'.count id = ids.count id + if fs.lookup t.here n = none then 1 else 0)

/-- **How often a file is listed, and what removing and creating it change.** -/
theorem listsExactly (hs : fs.Sound) (ht : t.Stands fs) (hd : s.dir = t.path)
    (hc : s.closed = false) : s.ListsExactly fs t where
  tallies := list_tallies hs ht hd hc
  code := code_selection
  spelled id n := and_congr_right' FileId.Spelled.iff_form
  foreign ts ids id hl hk hid := by
    obtain ⟨ids', hl', hin, hout⟩ := list_tallies hs ht hd hc ts
    obtain rfl : ids = ids' := Except.ok.inj (hl.symm.trans hl')
    have hzero : ids.count id = 0 := by
      by_cases h : ∃ τ ∈ ts, τ.Includes id.kind
      · rw [hin id h, spellings_other hk, Set.ncard_empty]
      · exact hout id fun τ hτ hi => h ⟨τ, hτ, hi⟩
    exact List.count_eq_zero.1 hzero hid
  removed now id hr := by
    obtain ⟨n, i, hn, hl, hfs, hstore⟩ := removeFile_unbinds hs ht hd hr
    obtain ⟨hs', ht'⟩ := unbind_stands hs ht hl
    obtain ⟨hself, hrest⟩ := ncard_spellings_unbind hl hn.spelled
    rw [hfs, hstore]
    refine ⟨fun m => ?_, fun ts => ?_⟩
    · rw [spellings_unbind, Set.mem_sdiff, Set.mem_singleton_iff]
      refine and_congr_right fun _ => not_congr ⟨fun h => h ▸ hn, fun hm => ?_⟩
      obtain ⟨cs, hcs, rfl⟩ := hn
      obtain ⟨cs', hcs', rfl⟩ := hm
      rw [Option.some.inj (hcs.symm.trans hcs')]
    · obtain ⟨ids, h⟩ := list_tallies hs ht hd hc ts
      obtain ⟨ids', h'⟩ := list_tallies hs' ht' hd hc ts
      refine ⟨ids, ids', h, h', fun id' hne => h.count_eq h' (hrest id' hne), fun hin => ?_⟩
      rw [h.included id hin, h'.included id hin, hself]
  created id x n hx hn hlink ts := by
    obtain ⟨i, hmade⟩ := createFile_binds hs ht hd hx hn hlink
    obtain ⟨hself, hrest⟩ := ncard_spellings_bound hn.spelled hmade.lookup fun m hm =>
      hmade.others m hm
    obtain ⟨ids, h⟩ := list_tallies hs ht hd hc ts
    obtain ⟨ids', h'⟩ := list_tallies hmade.sound hmade.stands (s := (s.createFile fs id).store)
      (by rw [hmade.store]; exact hd) (by rw [hmade.store]; exact hc) ts
    refine ⟨ids, ids', h, h', fun id' hne => h.count_eq h' (hrest id' hne), fun hin => ?_⟩
    rw [h.included id hin, h'.included id hin, hself]

end Store

/-- A file system whose directory `/db` has two names for one table, a directory and a link that are
named like journals, and a name that is no text. -/
def FileSystem.littered : FileSystem :=
  let D := root.child 1
  let fs := FileSystem.furnished.make D (Utf8.encode "1.sst".toList) (.file [1])
  let fs := fs.make D (Utf8.encode "000001.sst".toList) (.file [2])
  let fs := fs.make D (Utf8.encode "2.log".toList) emptyDirectory
  let fs := fs.make D (Utf8.encode "000003.log".toList) (.link [46])
  fs.make D [255] (.file [])

theorem littered_sound : FileSystem.littered.Sound := by
  have made : ∀ {fs : FileSystem} (n : Bytes) (nd : Node), fs.Sound → nd.Blank →
      (fs.isDirectory (root.child 1) = true ∧ n ≠ [] ∧ n ≠ [46] ∧ n ≠ [46, 46] ∧ slash ∉ n ∧
        0 ∉ n ∧ n.length ≤ nameLimit ∧ fs.lookup (root.child 1) n = none) →
      (fs.make (root.child 1) n nd).Sound := by
    rintro fs n nd hs hb ⟨hdir, h₁, h₂, h₃, h₄, h₅, hlen, hfree⟩
    exact Change.sound (c := .make (root.child 1) n nd)
      ⟨hdir, ⟨h₁, h₂, h₃, h₄, h₅⟩, hlen, hfree, hb⟩ hs
  have hone := made (Utf8.encode "1.sst".toList) (.file [1]) furnished_sound trivial (by decide)
  have htwo := made (Utf8.encode "000001.sst".toList) (.file [2]) hone trivial (by decide)
  have hdir := made (Utf8.encode "2.log".toList) emptyDirectory htwo rfl (by decide)
  have hblank : (Node.link [46]).Blank := by
    show (0 : UInt8) ∉ [46]
    decide
  have hlink := made (Utf8.encode "000003.log".toList) (.link [46]) hdir hblank (by decide)
  exact made [255] (.file []) hlink trivial (by decide)

/-- A store of `/db`. -/
def Store.atDb : Store where
  dir := Trail.toDb.path
  sync := false
  owned := true
  closed := false
  openIds := []
  turn := none
  nextToken := 0
  leaked := 0
  log := none
  lock := none

/-- The table is listed twice, and once when it is removed; the journal is listed for the directory,
and once more when it is created. -/
theorem Store.listsExactly_littered : Store.atDb.ListsExactly .littered .toDb ∧
    (Store.atDb.list .littered (selection [.table, .kind .other])).toOption =
      some [⟨.table, 1⟩, ⟨.table, 1⟩] ∧
    (Store.atDb.removeFile .littered ⟨⟨0, 0⟩, 0⟩ ⟨.table, 1⟩).result = .ok () ∧
    (Store.atDb.list (Store.atDb.removeFile .littered ⟨⟨0, 0⟩, 0⟩ ⟨.table, 1⟩).fs
      (selection [.none, .all])).toOption = some [⟨.table, 1⟩, ⟨.journal, 2⟩, ⟨.journal, 3⟩] ∧
    (Store.atDb.list (Store.atDb.createFile .littered ⟨.journal, 2⟩).fs
      (selection [.journal])).toOption = some [⟨.journal, 2⟩, ⟨.journal, 3⟩, ⟨.journal, 2⟩] :=
  ⟨listsExactly littered_sound ⟨by decide, by decide, trivial⟩ rfl rfl, by decide +kernel, rfl,
    by decide +kernel, by decide +kernel⟩

end EngineDir
