import EngineDir.Proofs.Lineage

/-!
# What a store answers about its files

In its directory a store finds a file by its name. Whether it opens, creates or removes
the file depends on what the name is bound to, and on whether the file is open.

* `Store.openFile_iff`, `Store.createFile_granted`, `Store.removeFile_iff`: **when a file is
  opened, created and removed.**
* `NamesFiles`: every name in the directory is that of a control file or of a file.
* `Store.list_eq`: a listing goes through the names in the directory.
* `Store.list_iff`: **the files that are listed, each once.**
* `World.step_open`: what is open after an event.
-/

namespace EngineDir

open FileSystem

variable {fs fs' : FileSystem} {t : Trail} {D i : NodeId} {now : Clock.Reading} {id : FileId}
  {n : Bytes} {cs : List Char}

namespace Store

variable {s : Store} {x : Handle}

theorem access_iff {busy : FileId → StoreError} :
    s.access id busy = .ok cs ↔ s.closed = false ∧ id.name? = some cs ∧ id ∉ s.openIds := by
  refine ⟨access_ok, ?_⟩
  rintro ⟨hc, hn, hid⟩
  simp [access, hc, hn, hid]

theorem openForReading_pathOf (hs : fs.Sound) (ht : t.Stands fs) (hd : s.dir = t.path)
    (hn : ∀ n, id.Named n → NoLink fs t.here n) (hcs : id.name? = some cs) :
    fs.openForReading (s.pathOf cs) =
      match fs.lookup t.here (Utf8.encode cs) with
      | none => .error .noEntry
      | some i => .ok i := by
  have hnamed : id.Named (Utf8.encode cs) := ⟨cs, hcs, rfl⟩
  rw [pathOf, hd]
  exact (ht.arrives hs).find_join hnamed.nameable.1 hnamed.nameable.2 (hn _ hnamed)

/-- **When a file is opened**: it is not open, and its name is bound. -/
theorem openFile_iff (hs : fs.Sound) (ht : t.Stands fs) (hd : s.dir = t.path)
    (hn : ∀ n, id.Named n → NoLink fs t.here n) :
    (s.openFile fs id).result = .ok x ↔ ∃ cs i, s.closed = false ∧ id ∉ s.openIds ∧
      id.name? = some cs ∧ fs.lookup t.here (Utf8.encode cs) = some i ∧
      x = { id := id, path := s.pathOf cs, mode := .reader,
            file := some { node := i, pos := 0 } } := by
  unfold openFile
  simp only
  constructor
  · split
    · intro hx
      cases hx
    · rename_i cs hcs
      obtain ⟨hc, hname, hid⟩ := access_ok hcs
      rw [openForReading_pathOf hs ht hd hn hname]
      cases hl : fs.lookup t.here (Utf8.encode cs) with
      | none =>
        intro hx
        cases hx
      | some i => exact fun hx => ⟨cs, i, hc, hid, hname, hl, (Except.ok.inj hx).symm⟩
  · rintro ⟨cs, i, hc, hid, hname, hl, rfl⟩
    rw [access_iff.2 ⟨hc, hname, hid⟩]
    simp only [openForReading_pathOf hs ht hd hn hname, hl]
    rfl

/-- **When a file is created**: it is not open, its name is not that of a directory, and if it is free
the system does not refuse to make the file. -/
theorem createFile_granted (hs : fs.Sound) (ht : t.Stands fs) (hd : s.dir = t.path)
    (hn : ∀ n, id.Named n → NoLink fs t.here n) (hc : s.closed = false) (hid : id ∉ s.openIds)
    (hcs : id.name? = some cs)
    (hdir : ∀ i, fs.lookup t.here (Utf8.encode cs) = some i → fs.isDirectory i = false)
    (hmake : fs.lookup t.here (Utf8.encode cs) = none → fs.refusals.make (s.pathOf cs) = none) :
    ∃ x, (s.createFile fs id).result = .ok x := by
  rw [pathOf, hd] at hmake
  have hnamed : id.Named (Utf8.encode cs) := ⟨cs, hcs, rfl⟩
  have hopen := (ht.arrives hs).openForWriting hnamed.nameable.1 hnamed.nameable.2 (hn _ hnamed) true
  obtain ⟨fs', i, ho⟩ : ∃ fs' i, fs.openForWriting true (s.pathOf cs) = .ok (fs', i) := by
    rw [pathOf, hd, hopen]
    cases hl : fs.lookup t.here (Utf8.encode cs) with
    | none =>
      simp only [hmake hl]
      exact ⟨_, _, rfl⟩
    | some i =>
      obtain ⟨f, hf⟩ := hs.bound hl
      cases f with
      | file b => simp only [face?_file.1 hf]; exact ⟨_, _, rfl⟩
      | device d => simp only [face?_device.1 hf]; exact ⟨_, _, rfl⟩
      | directory => exact absurd hf (isDirectory_eq_false.1 (hdir i hl))
      | link g => exact absurd hf (hn _ hnamed i g hl)
  unfold createFile
  simp only [access_iff.2 ⟨hc, hcs, hid⟩, ho]
  exact ⟨_, rfl⟩

theorem remove_pathOf (hs : fs.Sound) (ht : t.Stands fs) (hd : s.dir = t.path)
    (hcs : id.name? = some cs) :
    fs.remove (s.pathOf cs) =
      match fs.refusals.remove (s.pathOf cs) with
      | some e => .error e
      | none =>
        match fs.lookup t.here (Utf8.encode cs) with
        | none => .error .noEntry
        | some i =>
          if fs.isDirectory i then .error .isDirectory
          else .ok (fs.unbind t.here (Utf8.encode cs)) := by
  have hnamed : id.Named (Utf8.encode cs) := ⟨cs, hcs, rfl⟩
  rw [pathOf, hd]
  exact (ht.arrives hs).remove hnamed.nameable.1 hnamed.nameable.2

/-- **When a file is removed**, and what is left then: it is not open, its name is bound, and not to a
directory, and the system does not refuse to remove it. -/
theorem removeFile_iff (now : Clock.Reading) (id : FileId) (hs : fs.Sound) (ht : t.Stands fs)
    (hd : s.dir = t.path) :
    ((s.removeFile fs now id).result = .ok () ↔ ∃ cs i, s.closed = false ∧ id ∉ s.openIds ∧
        id.name? = some cs ∧ fs.lookup t.here (Utf8.encode cs) = some i ∧
        fs.isDirectory i = false ∧ fs.refusals.remove (s.pathOf cs) = none) ∧
      ((s.removeFile fs now id).result = .ok () → ∀ cs, id.name? = some cs →
        (s.removeFile fs now id).fs = fs.unbind t.here (Utf8.encode cs)) := by
  unfold removeFile
  split
  · rename_i e he
    refine ⟨⟨fun hr => (by cases hr), ?_⟩, fun hr => (by cases hr)⟩
    rintro ⟨cs, i, hc, hid, hcs, -⟩
    rw [access_iff.2 ⟨hc, hcs, hid⟩] at he
    cases he
  · rename_i cs hacc
    obtain ⟨hc, hcs, hid⟩ := access_ok hacc
    simp only
    cases hr : fs.remove (s.pathOf cs) with
    | error e =>
      simp only [warn_eq]
      refine ⟨⟨fun hr => (by cases hr), ?_⟩, fun hr => (by cases hr)⟩
      rintro ⟨cs', i, -, -, hcs', hl, hdir, hgrant⟩
      obtain rfl : cs = cs' := Option.some.inj (hcs.symm.trans hcs')
      rw [remove_pathOf hs ht hd hcs, hgrant, hl] at hr
      simp [hdir] at hr
    | ok fs' =>
      rw [remove_pathOf hs ht hd hcs] at hr
      split at hr
      · cases hr
      rename_i hgrant
      cases hl : fs.lookup t.here (Utf8.encode cs) with
      | none =>
        rw [hl] at hr
        cases hr
      | some i =>
        simp only [hl] at hr
        split at hr
        · cases hr
        · rename_i hdir
          cases hr
          refine ⟨⟨fun _ => ⟨cs, i, hc, hid, hcs, hl, by simpa using hdir, hgrant⟩, fun _ => rfl⟩,
            ?_⟩
          intro _ cs' hcs'
          rw [Option.some.inj (hcs.symm.trans hcs')]

/-- What is removed is the name that the file goes by. -/
theorem removeFile_unbinds (hs : fs.Sound) (ht : t.Stands fs) (hd : s.dir = t.path)
    (hr : (s.removeFile fs now id).result = .ok ()) : ∃ n i, id.Named n ∧
      fs.lookup t.here n = some i ∧ (s.removeFile fs now id).fs = fs.unbind t.here n ∧
      (s.removeFile fs now id).store = s := by
  obtain ⟨hiff, hfs⟩ := removeFile_iff now id hs ht hd
  obtain ⟨cs, i, -, -, hcs, hl, -, -⟩ := hiff.1 hr
  refine ⟨Utf8.encode cs, i, ⟨cs, hcs, rfl⟩, hl, hfs hr cs hcs, ?_⟩
  unfold removeFile at hr ⊢
  split
  · rfl
  · rename_i name hname
    simp only [hname] at hr ⊢
    split
    · rename_i hrem
      simp only [hrem, warn_eq] at hr
      cases hr
    · rfl

/-- What it comes to that the file `id` is created under its name `n`: the name is bound to the node
`i`, and every other name stays bound as it is. Its file stays too, where nothing has two names. -/
structure Creates (fs : FileSystem) (t : Trail) (s : Store) (id : FileId) (n : Bytes)
    (i : NodeId) : Prop where
  sound : (s.createFile fs id).fs.Sound
  stands : t.Stands (s.createFile fs id).fs
  store : (s.createFile fs id).store = { s with openIds := id :: s.openIds }
  result : ∃ path, (s.createFile fs id).result =
    .ok { id := id, path := path, mode := .writer, file := some ⟨i, 0⟩ }
  lookup : (s.createFile fs id).fs.lookup t.here n = some i
  others : ∀ m, m ≠ n → (s.createFile fs id).fs.lookup t.here m = fs.lookup t.here m
  rest : fs.OneName t.here → ∀ m, m ≠ n → Stays t.here m fs (s.createFile fs id).fs

theorem createFile_binds (hs : fs.Sound) (ht : t.Stands fs) (hd : s.dir = t.path)
    (hx : (s.createFile fs id).result = .ok x) (hn : id.Named n) (hlink : NoLink fs t.here n) :
    ∃ i, s.Creates fs t id n i := by
  obtain ⟨cs, i, hacc, ho, hstore, rfl⟩ := createFile_ok hx
  obtain ⟨cs', hcs', rfl⟩ := hn
  obtain rfl : cs = cs' := Option.some.inj ((access_ok hacc).2.1.symm.trans hcs')
  have hname := nameable_of_name? hcs'
  rw [pathOf, hd] at ho
  have hop := openedForWriting ⟨⟨0, 0⟩, 0⟩ hs ht hname.proper hname.length_le hlink ho
  -- no log has a part in it
  have hw := hop.works none
  exact ⟨i, hw.sound hs, hw.stands hs ht, hstore, ⟨_, hx⟩, hop.lookup,
    fun m hm => hw.lookup hs (Or.inr hm), fun hone m hm =>
      hw.stays hs hone (.none _ _) (Or.inl rfl) (Or.inl rfl) (fun h => hm h.1) hm⟩

end Store

/-! ## Listings -/

/-- The names in a directory are those that are bound. -/
theorem mem_keys_iff {d : Directory} (hd : fs.directory? D = some d) :
    n ∈ d.entries.keys ↔ ∃ i, fs.lookup D n = some i := by
  have hlook : ∀ i, (n, i) ∈ d.entries.entries ↔ fs.lookup D n = some i := by
    intro i
    rw [Table.mem_entries_iff, lookup, hd]
    rfl
  simp only [Table.keys, List.mem_map, Prod.exists, hlook, exists_eq_right, exists_and_right]

/-- A name in a directory is taken away, and the directory stays. -/
theorem unbind_stands (hs : fs.Sound) (ht : t.Stands fs) (hl : fs.lookup t.here n = some i) :
    (fs.unbind t.here n).Sound ∧ t.Stands (fs.unbind t.here n) := by
  refine ⟨Change.sound (c := .unbind t.here n) ⟨i, hl⟩ hs, ht.of_lookup hs ?_ ?_⟩
  · intro j m hj
    rw [lookup_unbind, if_neg fun h => hj h.1]
  · intro j hj
    rwa [isDirectory_unbind]

/-- Every name in the directory is that of a control file or of a file. -/
def NamesFiles (fs : FileSystem) (D : NodeId) : Prop :=
  ∀ n i, fs.lookup D n = some i → Control n ∨ ∃ id, FileId.Named id n

namespace Store

variable {s : Store} {kinds : KindSet}

/-- What is listed for a name is what the name is read as, if its kind is selected. -/
theorem listed?_eq_some_iff : listed? kinds n = some id ↔
    (∃ cs, n = Utf8.encode cs ∧ FileId.ofName? cs = some id) ∧ kinds.contains id.kind = true := by
  constructor
  · intro h
    unfold listed? at h
    split at h
    · cases h
    · rename_i cs hcs
      split at h
      · cases h
      · rename_i id' hid
        split at h
        · cases h
          exact ⟨⟨cs, (Utf8.encode_of_decode? hcs).symm, hid⟩, ‹_›⟩
        · cases h
  · rintro ⟨⟨cs, rfl, hid⟩, hk⟩
    simp [listed?, hid, hk]

/-- A control file is not listed. -/
theorem listed?_control (h : Control n) : listed? kinds n = none := by
  obtain ⟨cs, hcs, rfl⟩ := h
  simp [listed?, hcs.ofName?_eq_none]

/-- A file is listed under its name. -/
theorem listed?_named (h : id.Named n) :
    listed? kinds n = if kinds.contains id.kind then some id else none := by
  obtain ⟨cs, hcs, rfl⟩ := h
  simp [listed?, FileId.ofName?_name? hcs]

/-- What is listed for a name in such a directory. -/
theorem listed?_iff (hn : NamesFiles fs D) (hl : fs.lookup D n = some i) :
    listed? kinds n = some id ↔ kinds.contains id.kind = true ∧ id.Named n := by
  rcases hn n i hl with hc | ⟨id', hid'⟩
  · rw [listed?_control hc]
    exact ⟨fun h => (by cases h), fun h => absurd hc h.2.not_control⟩
  · rw [listed?_named hid']
    constructor
    · intro h
      split at h
      · rename_i hk
        cases h
        exact ⟨hk, hid'⟩
      · cases h
    · rintro ⟨hk, hid⟩
      obtain rfl := hid.unique hid'
      rw [if_pos hk]

/-- A listing goes through the names in the directory, in their order. -/
theorem list_eq (kinds : KindSet) (hs : fs.Sound) (ht : t.Stands fs) (hd : s.dir = t.path)
    (hc : s.closed = false) :
    ∃ d, fs.directory? t.here = some d ∧
      s.list fs kinds = .ok (d.entries.keys.filterMap (listed? kinds)) := by
  obtain ⟨d, hdir⟩ := Option.isSome_iff_exists.1 (ht.isDirectory hs)
  have hlisting : fs.listing s.dir = .ok d.entries.keys := by
    rw [listing, hd, ht.find hs]
    simp only [hdir]
  refine ⟨d, hdir, ?_⟩
  rw [list, if_neg (by simp [hc]), hlisting]

/-- **The files that are listed, each once**: those of the selected kinds whose names are bound. -/
theorem list_iff (kinds : KindSet) (hs : fs.Sound) (ht : t.Stands fs) (hd : s.dir = t.path)
    (hc : s.closed = false) (hn : NamesFiles fs t.here) :
    ∃ ids, s.list fs kinds = .ok ids ∧ ids.Nodup ∧ ∀ id, id ∈ ids ↔
      kinds.contains id.kind = true ∧ ∃ n i, id.Named n ∧ fs.lookup t.here n = some i := by
  obtain ⟨d, hdir, hlist⟩ := list_eq kinds hs ht hd hc
  have hkey : ∀ n, n ∈ d.entries.keys ↔ ∃ i, fs.lookup t.here n = some i :=
    fun n => mem_keys_iff hdir
  refine ⟨_, hlist, ?_, fun id => ?_⟩
  · -- two names of one file are one name
    rw [List.Nodup, List.pairwise_filterMap]
    refine List.Pairwise.imp_of_mem ?_ d.entries.nodup
    intro n n' hm hm' hne id hid id' hid' he
    obtain ⟨i, hi⟩ := (hkey n).1 hm
    obtain ⟨i', hi'⟩ := (hkey n').1 hm'
    obtain ⟨-, cs, hcs, rfl⟩ := (listed?_iff hn hi).1 hid
    obtain ⟨-, cs', hcs', rfl⟩ := (listed?_iff hn hi').1 hid'
    subst he
    rw [Option.some.inj (hcs.symm.trans hcs')] at hne
    exact hne rfl
  · rw [List.mem_filterMap]
    constructor
    · rintro ⟨n, hm, hid⟩
      obtain ⟨i, hi⟩ := (hkey n).1 hm
      obtain ⟨hk, hnamed⟩ := (listed?_iff hn hi).1 hid
      exact ⟨hk, n, i, hnamed, hi⟩
    · rintro ⟨hk, n, i, hnamed, hi⟩
      exact ⟨n, (hkey n).2 ⟨i, hi⟩, (listed?_iff hn hi).2 ⟨hk, hnamed⟩⟩

end Store

/-! ## Handles -/

/-- The handle `k`, which is `x` after the event `e`, is a new one of the store `st`: its file was
opened or created, and its name is bound to what is open. -/
structure Store.Begins (t : Trail) (st : Store) (s k : Nat) (e : Event) (x : Handle) (f : OpenFile)
    (fs' : FileSystem) : Prop where
  event : e = .store s (.openFile k x.id) ∨ e = .store s (.createFile k x.id)
  owned : st.owned = true
  unclosed : st.closed = false
  free : x.id ∉ st.openIds
  lookup : ∃ n, x.id.Named n ∧ fs'.lookup t.here n = some f.node

namespace World

variable {w : World} {e : Event} {s k : Nat} {st : Store} {x' : Handle} {f' : OpenFile}

/-- **What is open after an event was open before, or is new.** -/
theorem step_open (hs : w.fs.Sound) (ht : t.Stands w.fs) (htidy : Tidy t w.fs)
    (hst : w.stores.get? s = some st) (hd : st.dir = t.path)
    (hk : (step now w e).world.handles.get? k = some ⟨s, x'⟩) (hf : x'.file = some f') :
    (∃ x f, w.handles.get? k = some ⟨s, x⟩ ∧ x.file = some f ∧ f.node = f'.node ∧ x'.id = x.id ∧
        x'.mode = x.mode) ∨
      (w.handles.get? k = none ∧ st.Begins t s k e x' f' (step now w e).world.fs) := by
  cases step_fate now w e k with
  | kept hh => exact Or.inl ⟨x', f', by rw [← hh, hk], hf, rfl, rfl, rfl⟩
  | @moved r s' x y he hh hx hh' =>
    rw [hk] at hh'
    cases hh'
    have hnode := hx.node
    rw [hf] at hnode
    obtain ⟨f, hxf, hff⟩ := Option.map_eq_some_iff.1 hnode.symm
    exact Or.inl ⟨x, f, hh, hxf, hff, hx.id, hx.mode⟩
  | closed he hh hh' =>
    rw [hk] at hh'
    cases hh'
    cases hf
  | dropped he hh' =>
    rw [hk] at hh'
    cases hh'
  | opened he hs' ho hfree hx hfs hh' =>
    rw [hk] at hh'
    cases hh'
    obtain rfl := Option.some.inj (hs'.symm.trans hst)
    obtain ⟨cs, i, hc, hid, hcs, hl, rfl⟩ := (Store.openFile_iff hs ht hd (htidy.file _)).1 hx
    cases hf
    refine Or.inr ⟨hfree, Or.inl he, ho, hc, hid, _, ⟨cs, hcs, rfl⟩, ?_⟩
    rw [hfs, Store.openFile_fs]
    exact hl
  | created he hs' ho hfree hx hfs hh' =>
    rw [hk] at hh'
    cases hh'
    obtain rfl := Option.some.inj (hs'.symm.trans hst)
    obtain ⟨cs, i, hcs, hopen, -, rfl⟩ := Store.createFile_ok hx
    obtain ⟨hc, hname, hid⟩ := Store.access_ok hcs
    cases hf
    have hnamed : FileId.Named _ (Utf8.encode cs) := ⟨cs, hname, rfl⟩
    rw [Store.pathOf, hd] at hopen
    have hop := openedForWriting now hs ht hnamed.nameable.1 hnamed.nameable.2
      (htidy.file _ _ hnamed) hopen
    refine Or.inr ⟨hfree, Or.inr he, ho, hc, hid, _, hnamed, ?_⟩
    rw [hfs]
    exact hop.lookup

/-! ## Answers -/

variable {h : Nat} {a : Except Failure Value} {v : Value}

/-- What is asked of a store is asked by its owner. -/
theorem step_store_owned (hst : w.stores.get? s = some st) (r : StoreRequest) :
    step now w (.store s r) =
      if st.owned then w.stepStore now s st r else w.answering (.error .misnamed) := by
  simp [step, hst]

/-- Nothing is asked of a handle of the wrong mode. -/
theorem step_unsuited {r : HandleRequest} {x : Handle} (hx : w.handles.get? h = some ⟨s, x⟩)
    (hr : r.suits x.mode = false) :
    step now w (.handle h r) = w.answering (.error .misnamed) := by
  simp only [step, hx]
  cases w.stores.get? s with
  | none => rfl
  | some st => simp [hr]

theorem created_of_answer (hst : w.stores.get? s = some st)
    (ha : (step now w (.store s (.createFile h id))).answer = .ok v) :
    w.handles.get? h = none ∧ ∃ x, (st.createFile w.fs id).result = .ok x := by
  rw [step_store_owned hst] at ha
  split at ha
  · simp only [stepStore] at ha
    split at ha
    · cases ha
    · rename_i hh
      refine ⟨not_contains hh, ?_⟩
      cases hr : (st.createFile w.fs id).result with
      | ok x => exact ⟨x, rfl⟩
      | error err =>
        simp only [receiving, hr, reacting, storeAnswer] at ha
        cases ha
  · cases ha

theorem removed_of_answer (hst : w.stores.get? s = some st)
    (ha : (step now w (.store s (.removeFile id))).answer = .ok v) :
    (st.removeFile w.fs now id).result = .ok () ∧
      (step now w (.store s (.removeFile id))).world.fs = (st.removeFile w.fs now id).fs := by
  rw [step_store_owned hst] at ha ⊢
  split at ha
  · rename_i ho
    rw [if_pos ho]
    simp only [stepStore, reacting] at ha
    refine ⟨?_, rfl⟩
    cases hr : (st.removeFile w.fs now id).result with
    | ok u => rfl
    | error err => rw [hr] at ha; cases ha
  · cases ha

theorem published_of_answer (hst : w.stores.get? s = some st)
    (ha : (step now w (.store s (.setManifest id))).answer = .ok v) :
    (st.setManifest w.fs now id).result = .ok () ∧
      (step now w (.store s (.setManifest id))).world.fs = (st.setManifest w.fs now id).fs := by
  rw [step_store_owned hst] at ha ⊢
  split at ha
  · rename_i ho
    rw [if_pos ho]
    simp only [stepStore, reacting] at ha
    refine ⟨?_, rfl⟩
    cases hr : (st.setManifest w.fs now id).result with
    | ok u => rfl
    | error err => rw [hr] at ha; cases ha
  · cases ha

end World

end EngineDir
