import Mathlib.Data.List.Nodup
import EngineDir.Proofs.Access
import EngineDir.Proofs.FileNames
import EngineDir.Proofs.Refusals
import EngineDir.Proofs.Reserved

/-!
# The places in an engine directory

An entry of an engine directory is a file, the pointer to the manifest in use, a pointer that is
staged for a manifest, the lock, the log, or the log of the session before. Each of them has a place
of its own: whatever the path of the directory is, and with a slash behind it or none, no two places
have one path. What is done for a file is therefore done at its own place.

* `Place`, `Place.pathIn`: what an entry is for, and its path in a directory.
* `Place.ofName?_text`: only the name of a file is read as that of a file.
* `Place.pathIn_injective`: **no two places have one path.**
* `Store.Aims`: the paths that a store names for a file. `Store.Spares`: what becomes of every other
  place.
* `placesApart`: **the places of a directory are apart, and so is what is done there.**
-/

namespace EngineDir

open FileSystem

/-- What an entry of an engine directory is for. -/
inductive Place where
  /-- A file, of a kind that has names. -/
  | file (id : FileId) (named : id.kind ≠ .other)
  /-- The pointer that is staged for a manifest. -/
  | staged (seq : UInt64)
  /-- The pointer to the manifest in use. -/
  | pointer
  | lock
  | log
  | oldLog

/-- A name that is put behind the path of a directory can be told from the path. -/
theorem join_injective {dir n n' : Bytes} (h : join dir n = join dir n') : n = n' := by
  unfold join at h
  split at h
  · exact List.append_cancel_left h
  · exact (List.cons.inj (List.append_cancel_left h)).2

variable {fs fs' : FileSystem} {t : Trail} {s : Store} {now : Clock.Reading} {id : FileId}
  {i : NodeId} {kinds : KindSet} {n n' : Bytes}

namespace Place

variable {p q : Place}

/-- The name of the entry. -/
def text : Place → List Char
  | file id _ => id.text
  | staged seq => Current.stagingName seq
  | pointer => Current.fileName
  | lock => DirLock.fileName
  | log => SessionLog.fileName
  | oldLog => SessionLog.oldFileName

/-- The name, as it stands in the directory. -/
def name (p : Place) : Bytes := Utf8.encode p.text

/-- The path of the entry in a directory. -/
def pathIn (dir : Bytes) : Place → Bytes
  | file id _ => join dir (Utf8.encode id.text)
  | staged seq => Current.stagingPathIn dir seq
  | pointer => Current.pathIn dir
  | lock => DirLock.pathIn dir
  | log => SessionLog.pathIn dir
  | oldLog => SessionLog.oldPathIn dir

/-- The file whose place it is. -/
def file? : Place → Option FileId
  | file id _ => some id
  | _ => none

theorem pathIn_eq (dir : Bytes) (p : Place) : p.pathIn dir = join dir p.name := by
  cases p <;> rfl

/-- Where no file is, a control file is. -/
theorem controlText (h : p.file? = none) : ControlText p.text := by
  cases p with
  | file id hk => cases h
  | staged seq => exact .staging seq
  | pointer => exact .current
  | lock => exact .lock
  | log => exact .log
  | oldLog => exact .oldLog

theorem control (h : p.file? = none) : Control p.name := ⟨p.text, controlText h, rfl⟩

/-- **Only the name of a file is read as that of a file.** -/
theorem ofName?_text (p : Place) : FileId.ofName? p.text = p.file? := by
  cases hp : p.file? with
  | none => exact (controlText hp).ofName?_eq_none
  | some id =>
    cases p with
    | file id' hk =>
      cases hp
      exact FileId.ofName?_text_iff.2 hk
    | _ => cases hp

/-- The places with a name that does not depend on a sequence number. -/
def fixed : List Place := [pointer, lock, log, oldLog]

theorem nodup_fixed : (fixed.map text).Nodup := by decide

theorem mem_fixed_or_staged (h : p.file? = none) : p ∈ fixed ∨ ∃ seq, p = staged seq := by
  cases p with
  | file id hk => cases h
  | staged seq => exact Or.inr ⟨seq, rfl⟩
  | _ => exact Or.inl (by simp [fixed])

/-- The name of a staged pointer is that of the pointer with more behind it, and the other names
begin with another letter. -/
theorem text_staged_ne (seq : UInt64) (h : p ∈ fixed) : (staged seq).text ≠ p.text := by
  simp only [fixed, List.mem_cons, List.not_mem_nil, or_false] at h
  rcases h with rfl | rfl | rfl | rfl
  · exact stagingName_ne_current seq
  · exact stagingName_ne seq (by decide)
  · exact stagingName_ne seq (by decide)
  · exact stagingName_ne seq (by decide)

theorem text_staged_injective {seq seq' : UInt64} (h : (staged seq).text = (staged seq').text) :
    seq = seq' := by
  have hdigits : '.' :: Decimal.digits seq.toNat = '.' :: Decimal.digits seq'.toNat :=
    List.append_cancel_left h
  exact UInt64.toNat_inj.1 (FileId.digits_injective (List.cons.inj hdigits).2)

/-- The names of control files differ. -/
theorem control_injective (hp : p.file? = none) (hq : q.file? = none) (h : p.text = q.text) :
    p = q := by
  rcases mem_fixed_or_staged hp with hp | ⟨seq, rfl⟩
  · rcases mem_fixed_or_staged hq with hq | ⟨seq, rfl⟩
    · exact List.inj_on_of_nodup_map nodup_fixed hp hq h
    · exact absurd h.symm (text_staged_ne seq hp)
  · rcases mem_fixed_or_staged hq with hq | ⟨seq', rfl⟩
    · exact absurd h (text_staged_ne seq hq)
    · rw [text_staged_injective h]

theorem eq_of_file? {id : FileId} (hp : p.file? = some id) (hq : q.file? = some id) : p = q := by
  cases p with
  | file id₁ h₁ =>
    cases q with
    | file id₂ h₂ =>
      cases hp
      cases hq
      rfl
    | _ => cases hq
  | _ => cases hp

/-- What a name is read as tells the place of a file, and the control files are told by their
names. -/
theorem text_injective (h : p.text = q.text) : p = q := by
  have hread : p.file? = q.file? := by rw [← ofName?_text, h, ofName?_text]
  cases hq : q.file? with
  | none => exact control_injective (hread.trans hq) hq h
  | some id => exact eq_of_file? (hread.trans hq) hq

theorem name_injective (h : p.name = q.name) : p = q := text_injective (Utf8.encode_injective h)

/-- **No two places have one path.** -/
theorem pathIn_injective (dir : Bytes) (h : p.pathIn dir = q.pathIn dir) : p = q := by
  rw [pathIn_eq, pathIn_eq] at h
  exact name_injective (join_injective h)

/-- Every place has a name that an entry can have. -/
theorem nameable (p : Place) : Nameable p.text := by
  cases p with
  | file id hk => exact nameable_of_name? (FileId.name?_eq_text hk)
  | staged seq => exact nameable_staging seq
  | pointer => exact nameable_current
  | lock => exact nameable_lock
  | log => exact nameable_log
  | oldLog => exact nameable_oldLog

/-- The name of a file is that of a place. -/
theorem exists_of_name? {cs : List Char} (h : id.name? = some cs) :
    ∃ p : Place, p.file? = some id ∧ p.text = cs := by
  have hk : id.kind ≠ .other := by
    intro hk
    simp [FileId.name?, hk] at h
  rw [FileId.name?_eq_text hk] at h
  exact ⟨.file id hk, rfl, Option.some.inj h⟩

/-- The place of another file, or of none, has another name. -/
theorem not_named (h : p.file? ≠ some id) : ¬id.Named p.name := by
  rintro ⟨cs, hcs, he⟩
  obtain ⟨q, hq, rfl⟩ := exists_of_name? hcs
  rw [name_injective (p := p) (q := q) he] at h
  exact h hq

theorem exists_of_access {cs : List Char} {busy : FileId → StoreError}
    (h : s.access id busy = .ok cs) :
    ∃ p : Place, p.file? = some id ∧ s.pathOf cs = p.pathIn s.dir := by
  obtain ⟨p, hp, rfl⟩ := exists_of_name? (Store.access_ok h).2.1
  exact ⟨p, hp, (pathIn_eq s.dir p).symm⟩

/-- The node that the name of a file is bound to is at the place of that file and at no other, where
nothing has two names. -/
theorem lookup_iff {D : NodeId} {cs : List Char} (hone : fs.OneName D) (hcs : id.name? = some cs)
    (hl : fs.lookup D (Utf8.encode cs) = some i) (p : Place) :
    fs.lookup D p.name = some i ↔ p.file? = some id := by
  obtain ⟨q, hq, rfl⟩ := exists_of_name? hcs
  constructor
  · intro hp
    have hname : p.name = q.name := hone _ _ _ hp hl
    rw [name_injective hname, hq]
  · intro hp
    rw [eq_of_file? hp hq]
    exact hl

end Place

/-! ## The paths that a store names -/

/-- The path that a failure of the system below tells. -/
def StoreError.path? : StoreError → Option Bytes
  | .io _ path _ => some path
  | _ => none

theorem StoreError.cause?_of_path? {e : StoreError} {path : Bytes} (h : e.path? = some path) :
    e.cause? ≠ none := by
  cases e with
  | io action path cause => simp [cause?]
  | _ => cases h

namespace Store

variable {x : Handle} {e : StoreError} {path : Bytes}

/-- A store that does something for the file `id` does it at the path of the file's place, and its
failures tell no other path. To publish a manifest it goes to the staged pointer. -/
structure Aims (s : Store) (id : FileId) : Prop where
  opened : ∀ fs x, (s.openFile fs id).result = .ok x → ∃ p : Place, p.file? = some id ∧ ∃ i,
    fs.openForReading (p.pathIn s.dir) = .ok i ∧
      x = { id := id, path := p.pathIn s.dir, mode := .reader, file := some ⟨i, 0⟩ }
  created : ∀ fs x, (s.createFile fs id).result = .ok x → ∃ p : Place, p.file? = some id ∧ ∃ i,
    fs.openForWriting true (p.pathIn s.dir) = .ok ((s.createFile fs id).fs, i) ∧
      x = { id := id, path := p.pathIn s.dir, mode := .writer, file := some ⟨i, 0⟩ }
  removed : ∀ fs now, (s.removeFile fs now id).result = .ok () → ∃ p : Place, p.file? = some id ∧
    fs.remove (p.pathIn s.dir) = .ok (s.removeFile fs now id).fs
  failed : ∀ fs now e path, e.path? = some path →
    (s.openFile fs id).result = .error e ∨ (s.createFile fs id).result = .error e ∨
      (s.removeFile fs now id).result = .error e →
    ∃ p : Place, p.file? = some id ∧ path = p.pathIn s.dir
  unpublished : ∀ fs now e path, e.path? = some path →
    (s.setManifest fs now id).result = .error e → path = (Place.staged id.seq).pathIn s.dir

/-- A failure that tells a path comes from the system below, which was asked for the place of the
file. -/
theorem place_of_failure (busy : FileId → StoreError) (action : String)
    (hb : (busy id).cause? = none) (hp : e.path? = some path)
    (h : s.access id busy = .error e ∨
      ∃ cs err, s.access id busy = .ok cs ∧ e = .io action (s.pathOf cs) err) :
    ∃ p : Place, p.file? = some id ∧ path = p.pathIn s.dir := by
  rcases h with ha | ⟨cs, err, ha, rfl⟩
  · exact absurd (access_cause hb ha) (StoreError.cause?_of_path? hp)
  · cases hp
    exact Place.exists_of_access ha

theorem openFile_path (hr : (s.openFile fs id).result = .error e) (hp : e.path? = some path) :
    ∃ p : Place, p.file? = some id ∧ path = p.pathIn s.dir := by
  refine place_of_failure .alreadyOpen "open" rfl hp ?_
  cases ha : s.access id .alreadyOpen with
  | error err =>
    rw [openFile_refuse ha] at hr
    cases hr
    exact Or.inl rfl
  | ok cs =>
    simp only [openFile, ha] at hr
    split at hr
    · cases hr
      exact Or.inr ⟨cs, _, rfl, rfl⟩
    · cases hr

theorem createFile_path (hr : (s.createFile fs id).result = .error e) (hp : e.path? = some path) :
    ∃ p : Place, p.file? = some id ∧ path = p.pathIn s.dir := by
  refine place_of_failure .alreadyOpen "create" rfl hp ?_
  cases ha : s.access id .alreadyOpen with
  | error err =>
    rw [createFile_refuse ha] at hr
    cases hr
    exact Or.inl rfl
  | ok cs =>
    simp only [createFile, ha] at hr
    split at hr
    · cases hr
      exact Or.inr ⟨cs, _, rfl, rfl⟩
    · cases hr

theorem removeFile_path (hr : (s.removeFile fs now id).result = .error e)
    (hp : e.path? = some path) : ∃ p : Place, p.file? = some id ∧ path = p.pathIn s.dir := by
  refine place_of_failure .stillOpen "remove" rfl hp ?_
  cases ha : s.access id .stillOpen with
  | error err =>
    rw [removeFile_refuse ha] at hr
    cases hr
    exact Or.inl rfl
  | ok cs =>
    obtain ⟨err, rfl, -⟩ := removeFile_error ha hr
    exact Or.inr ⟨cs, _, rfl, rfl⟩

theorem setManifest_path (hr : (s.setManifest fs now id).result = .error e)
    (hp : e.path? = some path) : path = (Place.staged id.seq).pathIn s.dir := by
  by_cases h : s.closed = true ∨ id.kind ≠ .manifest
  · obtain ⟨err, herr, hcause⟩ := setManifest_refuse fs now h
    rw [herr] at hr
    cases hr
    exact absurd hcause (StoreError.cause?_of_path? hp)
  · obtain ⟨hc, hk⟩ := not_or.1 h
    have hc : s.closed = false := by simpa using hc
    obtain ⟨-, -, hres⟩ := s.setManifest_run fs now hc (Decidable.of_not_not hk)
    obtain ⟨action, err, rfl⟩ := Publication.run_error ((hres e).1 hr)
    exact (Option.some.inj hp).symm

theorem aims (s : Store) (id : FileId) : s.Aims id where
  opened fs x hx := by
    cases ha : s.access id .alreadyOpen with
    | error err =>
      rw [openFile_refuse ha] at hx
      cases hx
    | ok cs =>
      obtain ⟨p, hp, hpath⟩ := Place.exists_of_access ha
      simp only [openFile, ha, hpath] at hx
      split at hx
      · cases hx
      · rename_i i ho
        cases hx
        exact ⟨p, hp, i, ho, rfl⟩
  created fs x hx := by
    obtain ⟨cs, i, ha, ho, -, rfl⟩ := createFile_ok hx
    obtain ⟨p, hp, hpath⟩ := Place.exists_of_access ha
    rw [hpath] at ho ⊢
    exact ⟨p, hp, i, ho, rfl⟩
  removed fs now hr := by
    cases ha : s.access id .stillOpen with
    | error err =>
      rw [removeFile_refuse ha] at hr
      cases hr
    | ok cs =>
      obtain ⟨p, hp, hpath⟩ := Place.exists_of_access ha
      refine ⟨p, hp, ?_⟩
      simp only [removeFile, ha, hpath] at hr ⊢
      split at hr
      · rw [warn_eq] at hr
        cases hr
      · rename_i fs' ho
        simp only [ho]
  failed fs now e path hp hr := by
    rcases hr with hr | hr | hr
    · exact openFile_path hr hp
    · exact createFile_path hr hp
    · exact removeFile_path hr hp
  unpublished fs now e path hp hr := setManifest_path hr hp

/-! ## What becomes of the other places -/

/-- What the store does in its directory, whose trail is `t`, spares every place that it is not for.
A removal that fails is told in the log, and so is a publication. -/
structure Spares (fs : FileSystem) (t : Trail) (s : Store) : Prop where
  /-- Of all places, only that of the file is bound to what was opened. -/
  opened : ∀ id x f, (s.openFile fs id).result = .ok x → x.file = some f →
    (s.openFile fs id).fs = fs ∧
      ∀ p : Place, fs.lookup t.here p.name = some f.node ↔ p.file? = some id
  created : ∀ id x f, (s.createFile fs id).result = .ok x → x.file = some f → ∀ p : Place,
    (s.createFile fs id).fs.lookup t.here p.name = some f.node ↔ p.file? = some id
  unmade : ∀ id (p : Place), p.file? ≠ some id →
    Stays t.here p.name fs (s.createFile fs id).fs
  unbound : ∀ now id (p : Place), p.file? ≠ some id →
    (s.removeFile fs now id).fs.lookup t.here p.name = fs.lookup t.here p.name
  unremoved : ∀ now id (p : Place), p.file? ≠ some id → p ≠ .log →
    Stays t.here p.name fs (s.removeFile fs now id).fs
  unstaged : ∀ now id (p : Place), p ≠ .staged id.seq → p ≠ .pointer → p ≠ .log →
    Stays t.here p.name fs (s.setManifest fs now id).fs
  /-- A listing is the same without a control file. -/
  unlisted : ∀ kinds (p : Place) i, p.file? = none → fs.lookup t.here p.name = some i →
    s.list (fs.unbind t.here p.name) kinds = s.list fs kinds

theorem log_not_named (id : FileId) : ¬id.Named SessionLog.entry :=
  Place.not_named (p := .log) (by simp [Place.file?])

theorem createFile_stays (hs : fs.Sound) (ht : t.Stands fs) (hone : fs.OneName t.here)
    (hd : s.dir = t.path) (htidy : Tidy t fs) (hn : ¬id.Named n) :
    Stays t.here n fs (s.createFile fs id).fs := by
  cases hr : (s.createFile fs id).result with
  | error e =>
    rw [(createFile_refused hr).1]
    exact .refl _ _ _
  | ok x =>
    obtain ⟨cs, i, hcs, -⟩ := createFile_ok hr
    have hnamed : id.Named (Utf8.encode cs) := ⟨cs, (access_ok hcs).2.1, rfl⟩
    obtain ⟨i, hmade⟩ := createFile_binds hs ht hd hr hnamed (htidy.file id _ hnamed)
    refine hmade.rest hone n ?_
    rintro rfl
    exact hn hnamed

/-- A name that is not listed can be taken away. -/
theorem list_unbind (hs : fs.Sound) (ht : t.Stands fs) (hd : s.dir = t.path)
    (hl : fs.lookup t.here n = some i) (hn : listed? kinds n = none) :
    s.list (fs.unbind t.here n) kinds = s.list fs kinds := by
  by_cases hc : s.closed = true
  · rw [list, list, if_pos hc, if_pos hc]
  have hc : s.closed = false := by simpa using hc
  obtain ⟨hs', ht'⟩ := unbind_stands hs ht hl
  obtain ⟨d, hdir, hlist⟩ := list_eq kinds hs ht hd hc
  obtain ⟨d', hdir', hlist'⟩ := list_eq kinds hs' ht' hd hc
  have hkeys : d'.entries.keys = d.entries.keys.filter fun k => decide (k ≠ n) := by
    rw [unbind, directory?_mapDirectory, if_pos rfl, hdir] at hdir'
    cases hdir'
    simp only [Table.keys, Table.erase, Table.drop, List.filter_map]
    rfl
  rw [hlist, hlist', hkeys, List.filterMap_filter]
  congr 1
  refine List.filterMap_congr fun k _ => ?_
  by_cases hk : k = n
  · simp [hk, hn]
  · simp [hk]

theorem removeFile_works (now : Clock.Reading) (id : FileId) (hs : fs.Sound) (ht : t.Stands fs)
    (hd : s.dir = t.path) : ∃ log', Works t.here (fun _ => False)
      (fun n => id.Named n ∧ (s.removeFile fs now id).result = .ok ()) now fs s.log
      (s.warns fs now (.removeFile id)) (s.removeFile fs now id).fs log' := by
  obtain ⟨log', hw, -⟩ := removeFile_does hs ht hd
  exact ⟨log', hw⟩

theorem setManifest_works (now : Clock.Reading) (id : FileId) (hs : fs.Sound) (ht : t.Stands fs)
    (hd : s.dir = t.path) (htidy : Tidy t fs) :
    ∃ log', Works t.here (fun n => n = (s.proposal now id).entry)
      (Publication.Moved (s.proposal now id) ((s.setManifest fs now id).result = .ok ())) now fs
      s.log (s.warns fs now (.setManifest id)) (s.setManifest fs now id).fs log' := by
  obtain ⟨log', hw, -⟩ := setManifest_does hs ht hd htidy
  exact ⟨log', hw⟩

theorem spares (hs : fs.Sound) (ht : t.Stands fs) (hone : fs.OneName t.here) (hd : s.dir = t.path)
    (htidy : Tidy t fs) (hlog : LogAt t.here fs s.log) : s.Spares fs t where
  opened id x f hx hf := by
    obtain ⟨cs, i, -, -, hcs, hl, rfl⟩ := (openFile_iff hs ht hd (htidy.file id)).1 hx
    cases hf
    exact ⟨openFile_fs, Place.lookup_iff hone hcs hl⟩
  created id x f hx hf := by
    obtain ⟨cs, i, hcs, -⟩ := createFile_ok hx
    have hnamed : id.Named (Utf8.encode cs) := ⟨cs, (access_ok hcs).2.1, rfl⟩
    obtain ⟨i, hmade⟩ := createFile_binds hs ht hd hx hnamed (htidy.file id _ hnamed)
    obtain ⟨log', hw, -⟩ := createFile_does ⟨⟨0, 0⟩, 0⟩ hs ht hd htidy hx
    obtain ⟨path, hres⟩ := hmade.result
    rw [hx] at hres
    cases hres
    cases hf
    exact Place.lookup_iff (hw.oneName hs hone) (access_ok hcs).2.1 hmade.lookup
  unmade id p hp := createFile_stays hs ht hone hd htidy (Place.not_named hp)
  unbound now id p hp := by
    obtain ⟨log', hw⟩ := removeFile_works now id hs ht hd
    exact hw.lookup hs (Or.inr fun h => Place.not_named hp h.1)
  unremoved now id p hp hne := by
    obtain ⟨log', hw⟩ := removeFile_works now id hs ht hd
    refine hw.stays hs hone hlog (Or.inr fun h => log_not_named id h.1) (Or.inr ?_) not_false
      fun h => Place.not_named hp h.1
    exact fun h => hne (Place.name_injective (q := .log) h)
  unstaged now id p hstaged hpointer hne := by
    obtain ⟨log', hw⟩ := setManifest_works now id hs ht hd htidy
    have hmoved : ∀ q : Place, q ≠ .staged id.seq → q ≠ .pointer → ∀ r,
        ¬Publication.Moved (s.proposal now id) r q.name := by
      rintro q hq hq' r (h | ⟨h, -⟩)
      · exact hq (Place.name_injective (q := .staged id.seq) h)
      · exact hq' (Place.name_injective (q := .pointer) h)
    refine hw.stays hs hone hlog (Or.inr (hmoved .log (by simp) (by simp) _)) (Or.inr ?_) ?_
      (hmoved p hstaged hpointer _)
    · exact fun h => hne (Place.name_injective (q := .log) h)
    · exact fun h => hstaged (Place.name_injective (q := .staged id.seq) h)
  unlisted kinds p i hp hl := list_unbind hs ht hd hl (listed?_control (Place.control hp))

end Store

/-! ## Places apart -/

/-- In a directory with the path `dir` the places are apart. -/
structure PlacesApart (dir : Bytes) : Prop where
  paths : ∀ p q : Place, p.pathIn dir = q.pathIn dir → p = q
  /-- So are they as the paths are walked: a path goes to the directory and then to the name. -/
  walked : ∀ p : Place, Path.ofText (p.pathIn dir) =
    { absolute := (Path.ofText dir).absolute
      parts := (Path.ofText dir).parts ++ [.name p.name]
      trailing := false }
  /-- Every name of a file reads back as the file, and a control file's name as none. -/
  read : ∀ p : Place, FileId.ofName? p.text = p.file?
  aims : ∀ (s : Store) id, s.dir = dir → s.Aims id
  /-- What is published is staged, and renamed, where no file is. -/
  published : ∀ (p : Proposal) (q : Place), p.dir = dir → q.file? ≠ none →
    p.staged ≠ q.pathIn dir ∧ Current.pathIn p.dir ≠ q.pathIn dir
  /-- What is listed is read from a name that is no control file's. -/
  listed : ∀ (s : Store) fs kinds ids, s.dir = dir → s.list fs kinds = .ok ids →
    ∃ names, fs.listing dir = .ok names ∧ ∀ id ∈ ids, ∃ cs, FileId.ofName? cs = some id ∧
      Utf8.encode cs ∈ names ∧ ∀ p : Place, p.file? = none → cs ≠ p.text
  /-- Where nothing has two names, what is done at one place leaves the others. -/
  spares : ∀ (s : Store) fs t, s.dir = dir → fs.Sound → t.Stands fs → t.path = dir →
    fs.OneName t.here → Tidy t fs → LogAt t.here fs s.log → s.Spares fs t

theorem placesApart (dir : Bytes) : PlacesApart dir where
  paths p q h := Place.pathIn_injective dir h
  walked p := by
    rw [Place.pathIn_eq]
    exact Path.ofText_join dir p.nameable.proper
  read := Place.ofName?_text
  aims s id _ := s.aims id
  published p q hd hq := by
    subst hd
    constructor
    · intro h
      obtain rfl := Place.pathIn_injective (p := .staged p.id.seq) p.dir h
      exact hq rfl
    · intro h
      obtain rfl := Place.pathIn_injective (p := .pointer) p.dir h
      exact hq rfl
  listed s fs kinds ids hd hl := by
    subst hd
    unfold Store.list at hl
    split at hl
    · cases hl
    split at hl
    · cases hl
    rename_i names hnames
    cases hl
    refine ⟨names, hnames, fun id hid => ?_⟩
    obtain ⟨n, hn, hread⟩ := List.mem_filterMap.1 hid
    obtain ⟨⟨cs, rfl, hcs⟩, -⟩ := Store.listed?_eq_some_iff.1 hread
    refine ⟨cs, hcs, hn, ?_⟩
    rintro p hp rfl
    rw [Place.ofName?_text, hp] at hcs
    cases hcs
  spares s fs t hd hs ht hpath hone htidy hlog :=
    Store.spares hs ht hone (hd.trans hpath.symm) htidy hlog

/-- While a table of `/db` is written, the store of `/db` spares the places of all other files. -/
theorem placesApart_session : PlacesApart Trail.toDb.path ∧
    ∃ st, ((World.ofFileSystem .furnished).run World.session).stores.get? 0 = some st ∧
      st.openIds = [⟨.table, 1⟩] ∧
      st.Spares ((World.ofFileSystem .furnished).run World.session).fs .toDb := by
  have hapart := placesApart Trail.toDb.path
  have hh := World.housed_session
  have hst : (((World.ofFileSystem .furnished).run World.session).stores.get? 0).map
      (fun st => (st.dir, st.openIds)) = some (Trail.toDb.path, [⟨.table, 1⟩]) := by decide +kernel
  obtain ⟨st, hget, hfields⟩ := Option.map_eq_some_iff.1 hst
  obtain ⟨hd, hopen⟩ := Prod.mk.inj hfields
  exact ⟨hapart, st, hget, hopen, hapart.spares st _ .toDb hd hh.sound hh.stands rfl hh.oneName
    hh.tidy fun l hl => hh.log 0 st l hget hd hl⟩

end EngineDir
