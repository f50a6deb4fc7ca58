import EngineDir.Proofs.Shelf

/-!
# A directory is a shelf

In a directory that was empty at first and is changed through its own stores alone the
files are what the map says that events have made of them. What a store answers about its
files can be read off the map.

* `AllFiles`, `NamesFiles`: what entries such a directory has.
* `World.step_shelf`: **every event does to the directory what its answer does to the map.**
* `Store.Serves`: what a store answers, in terms of the map.
* `run_refines`: **the stores of the directory serve the map, after every run.**
-/

namespace EngineDir

open FileSystem

variable {fs fs' : FileSystem} {t : Trail} {D : NodeId} {id : FileId} {n : Bytes}

/-- What is made in the directory is a file. -/
theorem Works.allFiles {F N : Bytes → Prop} {now : Clock.Reading} {log log' : Option SessionLog}
    {said : List String} (h : Works D F N now fs log said fs' log') (hs : fs.Sound)
    (ha : AllFiles fs D) : AllFiles fs' D := by
  intro n i hl
  obtain ⟨g, hg⟩ := (h.sound hs).bound hl
  -- what is no file was there before
  have hold : (∀ b, g ≠ .file b) → False := by
    intro hne
    obtain ⟨n', hl', hg'⟩ := h.bound_back hs hl hg hne
    obtain ⟨b, hb⟩ := ha n' i hl'
    rw [hg'] at hb
    exact hne b (Option.some.inj hb)
  cases g with
  | file b => exact ⟨b, hg⟩
  | directory => exact (hold fun b hb => by cases hb).elim
  | link target => exact (hold fun b hb => by cases hb).elim
  | device d => exact (hold fun b hb => by cases hb).elim

/-- The bytes can be read from the first to the last. -/
def Short (o : Option Bytes) : Prop := ∀ b, o = some b → b.length < positionLimit

/-- What an event binds is the name of a control file or of a file. -/
theorem Event.Binds.name {e : Event} {a : Except Failure Value} (h : e.Binds a n) :
    Control n ∨ ∃ id, FileId.Named id n := by
  unfold Event.Binds at h
  split at h
  · exact Or.inr ⟨_, h⟩
  · exact Or.inr ⟨_, h⟩
  · rcases h with rfl | rfl
    · exact Or.inl (control_staging _)
    · exact Or.inl control_current
  · rw [h]
    exact Or.inl (control_staging _)
  · rcases h with rfl | rfl | rfl
    · exact Or.inl control_lock
    · exact Or.inl control_log
    · exact Or.inl control_oldLog
  · exact h.elim

namespace World

variable {w : World} {now : Clock.Reading} {e : Event} {s h : Nat} {st : Store} {x : Handle}
  {f : OpenFile} {v : Value} {es : List (Clock.Reading × Event)}

/-- The entries of a directory that was empty at first: files, with names of files or of control
files, none of which is too long to be read. -/
structure Filed (t : Trail) (w : World) : Prop where
  names : NamesFiles w.fs t.here
  files : AllFiles w.fs t.here
  room : ∀ id, Short (w.fs.stored? t.here id)

theorem step_namesFiles (hh : Housed t w) (hi : Inside w t e ∨ Leaves t w (step now w e).world)
    (hn : NamesFiles w.fs t.here) : NamesFiles (step now w e).world.fs t.here := by
  intro n i hl
  rcases hi with hi | hleaves
  · obtain ⟨_, _, _, hw, -⟩ := hh.works now hi
    by_cases hb : e.Binds (step now w e).answer n
    · exact hb.name
    · rw [hw.lookup hh.sound (Or.inr hb)] at hl
      exact hn n i hl
  · rw [(hleaves.entry n).lookup] at hl
    exact hn n i hl

theorem step_allFiles (hh : Housed t w) (hi : Inside w t e ∨ Leaves t w (step now w e).world)
    (ha : AllFiles w.fs t.here) : AllFiles (step now w e).world.fs t.here := by
  rcases hi with hi | hleaves
  · obtain ⟨_, _, _, hw, -⟩ := hh.works now hi
    exact hw.allFiles hh.sound ha
  · intro n i hl
    rw [(hleaves.entry n).lookup] at hl
    obtain ⟨b, hb⟩ := ha n i hl
    exact ⟨b, ((hleaves.entry n).face i hl).trans hb⟩

/-! ## Files that an event is not for -/

/-- A file stays unless it is created, removed or written. -/
theorem step_file_stays (hh : Housed t w) (hi : Inside w t e ∨ Leaves t w (step now w e).world)
    (hn : id.Named n)
    (hcreate : ∀ s h v, e = .store s (.createFile h id) → w.isAt t.path s = true →
      (step now w e).answer ≠ .ok v)
    (hremove : ∀ s v, e = .store s (.removeFile id) → w.isAt t.path s = true →
      (step now w e).answer ≠ .ok v)
    (hwrite : ∀ h new s x f, e = .handle h (.write new) → w.handles.get? h = some ⟨s, x⟩ →
      x.file = some f → w.isAt t.path s = true → x.id ≠ id) :
    Stays t.here n w.fs (step now w e).world.fs := by
  rcases step_stays hh hi n with hstay | htouches
  · exact hstay
  · cases htouches with
    | control hcs _ hn' => exact absurd ⟨_, hcs, hn'⟩ hn.not_control
    | staged _ hn' => exact absurd (hn' ▸ control_staging _) hn.not_control
    | published _ _ _ hn' => exact absurd (hn' ▸ control_current) hn.not_control
    | created he hat ha hn' =>
      obtain rfl := hn.unique hn'
      exact absurd ha (hcreate _ _ _ he hat)
    | removed he hat ha hn' =>
      obtain rfl := hn.unique hn'
      exact absurd ha (hremove _ _ he hat)
    | written he hx hf hat hn' => exact absurd (hn'.unique hn) (hwrite _ _ _ _ _ he hx hf hat)

/-! ## The file that an event is for -/

/-- A file that was created is empty. -/
theorem step_created (hh : Housed t w) (hfiles : AllFiles (step now w e).world.fs t.here)
    (he : e = .store s (.createFile h id)) (hat : w.isAt t.path s = true)
    (ha : (step now w e).answer = .ok v) :
    (step now w e).world.fs.stored? t.here id = some [] := by
  subst he
  cases step_create s h id with
  | refused ha' => rw [ha'] at ha; cases ha
  | granted hst ha' hfree hx hfs hx' =>
    obtain ⟨st', hst', hd⟩ := isAt_iff.1 hat
    obtain rfl := Option.some.inj (hst'.symm.trans hst)
    obtain ⟨cs, i, hcs, ho, -, -⟩ := Store.createFile_ok hx
    have hnamed : id.Named (Utf8.encode cs) := ⟨cs, (Store.access_ok hcs).2.1, rfl⟩
    rw [← hfs, Store.pathOf, hd] at ho
    have hop := openedForWriting now hh.sound hh.stands hnamed.nameable.1 hnamed.nameable.2
      (hh.noLink _) ho
    rcases hop.face with ⟨b, hb, hempty⟩ | ⟨d, hd⟩
    · rw [hempty rfl] at hb
      exact stored?_eq_some.2 ⟨_, i, hnamed, hop.lookup, hb⟩
    · -- there are no devices
      obtain ⟨b, hb⟩ := hfiles _ i hop.lookup
      rw [hd] at hb
      cases hb

/-- A file that was removed is gone. -/
theorem step_removed (hh : Housed t w) (he : e = .store s (.removeFile id))
    (hat : w.isAt t.path s = true) (ha : (step now w e).answer = .ok v) :
    (step now w e).world.fs.stored? t.here id = none := by
  subst he
  obtain ⟨st, hst, hd⟩ := isAt_iff.1 hat
  obtain ⟨hok, hfs⟩ := removed_of_answer hst ha
  obtain ⟨hiff, hgone⟩ := Store.removeFile_iff now id hh.sound hh.stands hd
  obtain ⟨cs, i, -, -, hcs, -⟩ := hiff.1 hok
  refine stored?_of_unbound ⟨cs, hcs, rfl⟩ ?_
  rw [hfs, hgone hok cs hcs, lookup_unbind, if_pos ⟨rfl, rfl⟩]

/-- What a writer makes of its file. -/
theorem step_written {new : Bytes} (hh : Housed t w) (hfiled : Filed t w)
    (hx : w.handles.get? h = some ⟨s, x⟩) (hf : x.file = some f) (hat : w.isAt t.path s = true) :
    (step now w (.handle h (.write new))).world.fs.stored? t.here x.id =
        ((w.shelf t).note (w.isAt t.path) (.handle h (.write new))
          (step now w (.handle h (.write new))).answer).bytes x.id ∧
      Short ((step now w (.handle h (.write new))).world.fs.stored? t.here x.id) := by
  obtain ⟨st, hst, hd⟩ := isAt_iff.1 hat
  obtain ⟨_, hn, hl⟩ := hh.handle h s x f st hx hf hst hd
  obtain ⟨b, hb⟩ := hfiled.files _ f.node hl
  have hstored : w.fs.stored? t.here x.id = some b := stored?_eq_some.2 ⟨_, f.node, hn, hl, hb⟩
  have hroom := hfiled.room x.id
  cases hm : x.mode with
  | reader =>
    rw [step_unsuited hx (by simp [HandleRequest.suits, hm])]
    exact ⟨rfl, hroom⟩
  | writer =>
    cases step_write hx hst hm hf hb new with
    | refused ha hfs =>
      rw [ha, hfs]
      exact ⟨rfl, hroom⟩
    | @granted n hn' hlt ha hfs =>
      have hlen : (new.take n).length = n := by rw [List.length_take, Nat.min_eq_left hn']
      have hcursor : (w.shelf t).cursor h = some (x.id, f.pos) :=
        writer?_eq_some.2 ⟨s, x, f, hx, hf, hm, hat, rfl, rfl⟩
      rw [ha, hfs]
      simp only [Shelf.note, Shelf.written, hcursor]
      by_cases hnew : new.take n = []
      · rw [if_pos hnew, if_pos hnew]
        exact ⟨rfl, hroom⟩
      · rw [if_neg hnew, if_neg hnew]
        have hfilled : ((Change.fill f.node (overlay b f.pos (new.take n))).apply w.fs).stored? t.here
            x.id = some (overlay b f.pos (new.take n)) := by
          refine stored?_eq_some.2 ⟨_, f.node, hn, ?_, ?_⟩
          · exact (lookup_fill hb).trans hl
          · simp [Change.apply, face?_setNode, Node.face]
        rw [hfilled]
        refine ⟨?_, fun b' hb' => ?_⟩
        · rw [Shelf.point_bytes, Shelf.put_bytes, if_pos rfl,
            show (w.shelf t).bytes x.id = some b from hstored, Option.getD_some]
        · cases hb'
          have hold := hroom b hstored
          rw [length_overlay, hlen]
          omega

/-- **Every event does to each file what its answer does to the map.** -/
theorem step_stored (hh : Housed t w) (hi : Inside w t e ∨ Leaves t w (step now w e).world)
    (hfiled : Filed t w) (id : FileId) :
    (step now w e).world.fs.stored? t.here id =
        ((w.shelf t).note (w.isAt t.path) e (step now w e).answer).bytes id ∧
      Short ((step now w e).world.fs.stored? t.here id) := by
  have hfiles := step_allFiles hh hi hfiled.files
  by_cases hcreate : ∃ s h v, e = .store s (.createFile h id) ∧ w.isAt t.path s = true ∧
      (step now w e).answer = .ok v
  · obtain ⟨s, h, v, he, hat, ha⟩ := hcreate
    rw [step_created hh hfiles he hat ha, ha, he]
    refine ⟨?_, fun b hb => ?_⟩
    · simp [Shelf.note, hat]
    · cases hb
      exact Nat.two_pow_pos 63
  by_cases hremove : ∃ s v, e = .store s (.removeFile id) ∧ w.isAt t.path s = true ∧
      (step now w e).answer = .ok v
  · obtain ⟨s, v, he, hat, ha⟩ := hremove
    rw [step_removed hh he hat ha, ha, he]
    refine ⟨?_, fun b hb => by cases hb⟩
    simp [Shelf.note, hat]
  by_cases hwrite : ∃ h new s x f, e = .handle h (.write new) ∧ w.handles.get? h = some ⟨s, x⟩ ∧
      x.file = some f ∧ w.isAt t.path s = true ∧ x.id = id
  · obtain ⟨h, new, s, x, f, rfl, hx, hf, hat, rfl⟩ := hwrite
    exact step_written hh hfiled hx hf hat
  · have hcreate' : ∀ s h v, e = .store s (.createFile h id) → w.isAt t.path s = true →
        (step now w e).answer ≠ .ok v := fun s h v he hat ha => hcreate ⟨s, h, v, he, hat, ha⟩
    have hremove' : ∀ s v, e = .store s (.removeFile id) → w.isAt t.path s = true →
        (step now w e).answer ≠ .ok v := fun s v he hat ha => hremove ⟨s, v, he, hat, ha⟩
    have hstays : (step now w e).world.fs.stored? t.here id = w.fs.stored? t.here id :=
      stored?_of_stays fun n hn => step_file_stays hh hi hn hcreate' hremove'
        fun h new s x f he hx hf hat hid => hwrite ⟨h, new, s, x, f, he, hx, hf, hat, hid⟩
    have hcursor : ∀ h new pos v, e = .handle h (.write new) → (step now w e).answer = .ok v →
        new ≠ [] → (w.shelf t).cursor h ≠ some (id, pos) := by
      intro h new pos v he _ _ hc
      obtain ⟨s, x, f, hx, hf, -, hat, hid, -⟩ := writer?_eq_some.1 hc
      exact hwrite ⟨h, new, s, x, f, he, hx, hf, hat, hid⟩
    have hnote := Shelf.note_bytes_other hcreate' hremove' hcursor
    exact ⟨hstays.trans hnote.symm, by rw [hstays]; exact hfiled.room id⟩

theorem step_filed (hh : Housed t w) (hi : Inside w t e ∨ Leaves t w (step now w e).world)
    (hfiled : Filed t w) : Filed t (step now w e).world :=
  ⟨step_namesFiles hh hi hfiled.names, step_allFiles hh hi hfiled.files,
    fun id => (step_stored hh hi hfiled id).2⟩

/-- **Every event does to the directory what its answer does to the map.** -/
theorem step_shelf (hh : Housed t w) (hk : Kept w) (hk' : Kept (step now w e).world)
    (hi : Inside w t e ∨ Leaves t w (step now w e).world) (hfiled : Filed t w) :
    (step now w e).world.shelf t =
      (w.shelf t).note (w.isAt t.path) e (step now w e).answer := by
  have hbytes := funext fun id => (step_stored hh hi hfiled id).1
  have hcursor := funext (step_cursor hh hk hk' hfiled.files)
  rw [shelf, hbytes, hcursor]

/-! ## Runs -/

/-- The map after a run, which is told by the answers of the run. -/
def mapAfter (w : World) (dir : Bytes) (es : List (Clock.Reading × Event)) : Shelf :=
  (w.history es).foldl (fun m r => m.note (r.1.isAt dir) r.2.1 r.2.2) .empty

theorem mapAfter_concat (w : World) (dir : Bytes) (es : List (Clock.Reading × Event))
    (now : Clock.Reading) (e : Event) :
    w.mapAfter dir (es ++ [(now, e)]) =
      (w.mapAfter dir es).note ((w.run es).isAt dir) e (step now (w.run es) e).answer := by
  simp only [mapAfter, history_concat, List.foldl_append, List.foldl_cons, List.foldl_nil]

/-- Nothing is in a directory without entries. -/
theorem shelf_ofFileSystem {fs : FileSystem} (hempty : ∀ n, fs.lookup t.here n = none) :
    (ofFileSystem fs).shelf t = .empty := by
  have hstored : fs.stored? t.here = fun _ => none := by
    funext id
    unfold stored?
    split
    · rfl
    · rw [hempty]
  have hwriter : (ofFileSystem fs).writer? t.path = fun _ => none := rfl
  rw [shelf, hwriter, show (ofFileSystem fs).fs = fs from rfl, hstored]
  rfl

theorem filed_ofFileSystem {fs : FileSystem} (hempty : ∀ n, fs.lookup t.here n = none) :
    Filed t (ofFileSystem fs) := by
  have hnone : ∀ {n i}, (ofFileSystem fs).fs.lookup t.here n ≠ some i := fun h => by
    cases (hempty _).symm.trans h
  refine ⟨fun n i hl => absurd hl hnone, fun n i hl => absurd hl hnone, fun id b hb => ?_⟩
  obtain ⟨n, i, -, hl, -⟩ := stored?_eq_some.1 hb
  exact absurd hl hnone

/-- **After every run the directory is what the map says.** -/
theorem run_shelf {fs : FileSystem} (hs : fs.Sound) (hl : fs.locked = []) (ht : t.Stands fs)
    (hempty : ∀ n, fs.lookup t.here n = none) (hr : Reserved (ofFileSystem fs) t es) :
    Filed t ((ofFileSystem fs).run es) ∧
      ((ofFileSystem fs).run es).shelf t = (ofFileSystem fs).mapAfter t.path es := by
  have hlink : ∀ n, NoLink fs t.here n := fun n j g hj => by cases (hempty n).symm.trans hj
  refine run_along (P := fun pre w =>
    Filed t w ∧ w.shelf t = (ofFileSystem fs).mapAfter t.path pre) es
    ⟨filed_ofFileSystem hempty, shelf_ofFileSystem hempty⟩ ?_
  rintro pre now e hpre ⟨hfiled, hshelf⟩
  have hh : Housed t ((ofFileSystem fs).run pre) :=
    run_housed hs hl ht hlink (oneName_of_empty hempty)
      (hr.before ((List.prefix_append _ _).trans hpre))
  have hi := hr pre now e hpre
  have hk' := run_kept hs hl (pre ++ [(now, e)])
  rw [run_concat] at hk'
  refine ⟨step_filed hh hi hfiled, ?_⟩
  rw [step_shelf hh (run_kept hs hl pre) hk' hi hfiled, hshelf, mapAfter_concat]

end World

/-! ## What a store answers -/

/-- What reads through the handle `x` answer: they find the bytes `b`. -/
structure Handle.Shows (fs : FileSystem) (x : Handle) (b : Bytes) : Prop where
  readAt : ∀ pos count, pos + count < positionLimit →
    x.readAt fs pos count = .ok ((b.drop pos).take count)
  readAll : ∀ f, x.file = some f → f.pos + Handle.probe < positionLimit →
    (x.readAll fs).1 = .ok (b.drop f.pos)
  length : x.length fs = .ok b.length

/-- A handle shows the bytes of the file that it is open on. -/
theorem Handle.shows {x : Handle} {f : OpenFile} {b : Bytes} (hf : x.file = some f)
    (hface : fs.face? f.node = some (.file b)) (hlt : b.length < positionLimit) : x.Shows fs b := by
  have hnode : fs.node? f.node = some (.file b) := face?_file.1 hface
  have hfile : x.file? = .ok f := by simp [file?, hf]
  have hread : ∀ pos count, pos + count < positionLimit →
      readNode fs f.node pos count = .ok ((b.drop pos).take count) := by
    intro pos count h
    simp only [readNode, FileSystem.readAt, hnode, if_neg (Nat.not_le_of_lt h)]
  refine ⟨fun pos count h => ?_, fun f' hf' h => ?_, ?_⟩
  · simp only [Handle.readAt, hfile, hread pos count h]
  · obtain rfl := Option.some.inj (hf.symm.trans hf')
    have hsize : fs.size f.node = b.length := by simp [FileSystem.size, hnode]
    have hrest : f.pos + (b.length - f.pos) < positionLimit := by omega
    have hends : fs.isEndless f.node = false := by simp [FileSystem.isEndless, hnode]
    simp only [Handle.readAll, hfile, hread _ _ h, Handle.read, hsize, hread _ _ hrest, hends]
    rw [List.take_of_length_le (by simp)]
    rfl
  · simp only [Handle.length, hfile, FileSystem.size, hnode]

/-- The store `st` serves the map `m`: its files are those of the map. -/
structure Store.Serves (fs : FileSystem) (st : Store) (m : Shelf) : Prop where
  /-- The listed files are those of the map whose kinds are selected, each once. -/
  list : ∀ kinds, ∃ ids, st.list fs kinds = .ok ids ∧ ids.Nodup ∧
    ∀ id, id ∈ ids ↔ kinds.contains id.kind = true ∧ (m.bytes id).isSome
  /-- A file that has a name and is not open is opened if it is in the map. -/
  opens : ∀ id, id.name?.isSome → id ∉ st.openIds →
    ((∃ x, (st.openFile fs id).result = .ok x) ↔ (m.bytes id).isSome)
  /-- What is opened shows what the map holds. -/
  shows : ∀ id x, (st.openFile fs id).result = .ok x → ∃ b, m.bytes id = some b ∧ x.Shows fs b
  /-- Every such file can be created, unless the system lets none be made there. -/
  creates : ∀ id cs, id.name? = some cs → id ∉ st.openIds →
    (m.bytes id = none → fs.refusals.make (st.pathOf cs) = none) →
    ∃ x, (st.createFile fs id).result = .ok x
  /-- It is removed if it is in the map and the system lets it be. -/
  removes : ∀ now id cs, id.name? = some cs → id ∉ st.openIds →
    ((st.removeFile fs now id).result = .ok () ↔
      (m.bytes id).isSome ∧ fs.refusals.remove (st.pathOf cs) = none)

namespace World

variable {w : World} {s : Nat} {st : Store}

/-- An entry of such a directory holds what the map says. -/
theorem Filed.stored (hf : Filed t w) (hn : id.Named n) {i : NodeId}
    (hl : w.fs.lookup t.here n = some i) :
    ∃ b, w.fs.face? i = some (.file b) ∧ w.fs.stored? t.here id = some b ∧
      b.length < positionLimit := by
  obtain ⟨b, hb⟩ := hf.files n i hl
  have hstored : w.fs.stored? t.here id = some b := stored?_eq_some.2 ⟨n, i, hn, hl, hb⟩
  exact ⟨b, hb, hstored, hf.room id b hstored⟩

/-- A file is in the map if its name is bound. -/
theorem Filed.isSome_iff (hf : Filed t w) :
    (w.fs.stored? t.here id).isSome ↔ ∃ n i, id.Named n ∧ w.fs.lookup t.here n = some i := by
  constructor
  · intro h
    obtain ⟨b, hb⟩ := Option.isSome_iff_exists.1 h
    obtain ⟨n, i, hn, hl, -⟩ := stored?_eq_some.1 hb
    exact ⟨n, i, hn, hl⟩
  · rintro ⟨n, i, hn, hl⟩
    obtain ⟨b, -, hstored, -⟩ := hf.stored hn hl
    rw [hstored]
    rfl

/-- **An open store serves the map of its directory.** -/
theorem Filed.serves (hf : Filed t w) (hh : Housed t w) (hd : st.dir = t.path)
    (hc : st.closed = false) : st.Serves w.fs (w.shelf t) := by
  have hlink : ∀ id : FileId, ∀ n, id.Named n → NoLink w.fs t.here n := fun _ n _ => hh.noLink n
  refine ⟨fun kinds => ?_, fun id hname hid => ?_, fun id x hx => ?_,
    fun id cs hcs hid hmake => ?_, fun now id cs hcs hid => ?_⟩
  · obtain ⟨ids, hok, hnodup, hmem⟩ :=
      Store.list_iff kinds hh.sound hh.stands hd hc hf.names
    refine ⟨ids, hok, hnodup, fun id => (hmem id).trans (and_congr_right fun _ => ?_)⟩
    exact hf.isSome_iff.symm
  · refine Iff.trans ?_ hf.isSome_iff.symm
    constructor
    · rintro ⟨x, hx⟩
      obtain ⟨cs, i, -, -, hcs, hl, -⟩ :=
        (Store.openFile_iff hh.sound hh.stands hd (hlink id)).1 hx
      exact ⟨_, i, ⟨cs, hcs, rfl⟩, hl⟩
    · rintro ⟨_, i, ⟨cs, hcs, rfl⟩, hl⟩
      exact ⟨_, (Store.openFile_iff hh.sound hh.stands hd (hlink id)).2
        ⟨cs, i, hc, hid, hcs, hl, rfl⟩⟩
  · obtain ⟨cs, i, -, -, hcs, hl, rfl⟩ :=
      (Store.openFile_iff hh.sound hh.stands hd (hlink id)).1 hx
    obtain ⟨b, hb, hstored, hlt⟩ := hf.stored ⟨cs, hcs, rfl⟩ hl
    exact ⟨b, hstored, Handle.shows rfl hb hlt⟩
  · refine Store.createFile_granted hh.sound hh.stands hd (hlink id) hc hid hcs (fun i hl => ?_)
      fun hfree => ?_
    · obtain ⟨b, hb, -⟩ := hf.stored ⟨cs, hcs, rfl⟩ hl
      exact isDirectory_of_file hb
    · exact hmake (stored?_of_unbound ⟨cs, hcs, rfl⟩ hfree)
  · obtain ⟨hiff, -⟩ := Store.removeFile_iff now id hh.sound hh.stands hd
    refine hiff.trans (Iff.trans ?_ (and_congr_left' hf.isSome_iff.symm))
    constructor
    · rintro ⟨cs', i, -, -, hcs', hl, -, hremove⟩
      obtain rfl := Option.some.inj (hcs.symm.trans hcs')
      exact ⟨⟨_, i, ⟨cs, hcs, rfl⟩, hl⟩, hremove⟩
    · rintro ⟨⟨_, i, ⟨cs', hcs', rfl⟩, hl⟩, hremove⟩
      obtain rfl := Option.some.inj (hcs.symm.trans hcs')
      obtain ⟨b, hb, -⟩ := hf.stored ⟨cs, hcs, rfl⟩ hl
      exact ⟨cs, i, hc, hid, hcs, hl, isDirectory_of_file hb, hremove⟩

end World

open World

/-- The directory of the trail `t` in the world `w` refines the map `m`. -/
structure Refines (t : Trail) (m : Shelf) (w : World) : Prop where
  /-- Every open store of the directory serves the map. -/
  serves : ∀ s st, w.stores.get? s = some st → st.dir = t.path → st.closed = false →
    st.Serves w.fs m
  /-- Every open handle shows what the map holds for its file. -/
  shows : ∀ h s x f st, w.handles.get? h = some ⟨s, x⟩ → x.file = some f →
    w.stores.get? s = some st → st.dir = t.path → ∃ b, m.bytes x.id = some b ∧ x.Shows w.fs b

/-- **The stores of a directory serve the map that their answers tell of, after every run.** -/
theorem run_refines {es : List (Clock.Reading × Event)} (hs : fs.Sound) (hl : fs.locked = [])
    (ht : t.Stands fs) (hempty : ∀ n, fs.lookup t.here n = none)
    (hr : Reserved (ofFileSystem fs) t es) :
    Refines t ((ofFileSystem fs).mapAfter t.path es) ((ofFileSystem fs).run es) := by
  have hlink : ∀ n, NoLink fs t.here n := fun n j g hj => by cases (hempty n).symm.trans hj
  have hh : Housed t ((ofFileSystem fs).run es) :=
    run_housed hs hl ht hlink (oneName_of_empty hempty) hr
  obtain ⟨hfiled, hshelf⟩ := run_shelf hs hl ht hempty hr
  rw [← hshelf]
  refine ⟨fun s st _ hd hc => hfiled.serves hh hd hc, fun h s x f st hx hf hst hd => ?_⟩
  obtain ⟨n, hn, hlook⟩ := hh.handle h s x f st hx hf hst hd
  obtain ⟨b, hb, hstored, hlt⟩ := hfiled.stored hn hlook
  exact ⟨b, hstored, Handle.shows hf hb hlt⟩

/-- A table of `/db` is written, another one created and removed, and `/db` opened again. -/
def rewriting : List (Clock.Reading × Event) :=
  [(⟨⟨0, 0⟩, 0⟩, .openStore 0 { dir := Utf8.encode ['/', 'd', 'b'] }),
    (⟨⟨0, 0⟩, 0⟩, .store 0 (.createFile 0 ⟨.table, 1⟩)),
    (⟨⟨0, 0⟩, 0⟩, .handle 0 (.write [1, 2, 3])),
    (⟨⟨0, 0⟩, 0⟩, .handle 0 (.seek (.byEnd (-2)))),
    (⟨⟨0, 0⟩, 0⟩, .handle 0 (.write [9])),
    (⟨⟨0, 0⟩, 0⟩, .store 0 (.createFile 1 ⟨.table, 2⟩)),
    (⟨⟨0, 0⟩, 0⟩, .handle 1 .close),
    (⟨⟨0, 0⟩, 0⟩, .store 0 (.removeFile ⟨.table, 2⟩)),
    (⟨⟨0, 0⟩, 0⟩, .handle 0 .close),
    (⟨⟨0, 0⟩, 0⟩, .store 0 .close),
    (⟨⟨0, 0⟩, 0⟩, .openStore 1 { dir := Utf8.encode ['/', 'd', 'b'] })]

theorem reserved_rewriting : Reserved (ofFileSystem .furnished) .toDb rewriting := by
  refine .cons (Or.inl (.opening (by decide) rfl)) ?_
  refine .cons (Or.inl (.of_dir rfl (by decide +kernel))) ?_
  refine .cons (Or.inl (.of_dir (s := 0) (by decide +kernel) (by decide +kernel))) ?_
  refine .cons (Or.inl (.of_dir (s := 0) (by decide +kernel) (by decide +kernel))) ?_
  refine .cons (Or.inl (.of_dir (s := 0) (by decide +kernel) (by decide +kernel))) ?_
  refine .cons (Or.inl (.of_dir rfl (by decide +kernel))) ?_
  refine .cons (Or.inl (.of_dir (s := 0) (by decide +kernel) (by decide +kernel))) ?_
  refine .cons (Or.inl (.of_dir rfl (by decide +kernel))) ?_
  refine .cons (Or.inl (.of_dir (s := 0) (by decide +kernel) (by decide +kernel))) ?_
  refine .cons (Or.inl (.of_dir rfl (by decide +kernel))) ?_
  exact .cons (Or.inl (.opening (by decide) rfl)) .nil

/-- The second store serves the one table that is left, with what was written last. -/
theorem run_refines_rewriting :
    Refines .toDb ((ofFileSystem .furnished).mapAfter Trail.toDb.path rewriting)
        ((ofFileSystem .furnished).run rewriting) ∧
      ((ofFileSystem .furnished).mapAfter Trail.toDb.path rewriting).bytes ⟨.table, 1⟩ =
        some [1, 9, 3] ∧
      ((ofFileSystem .furnished).mapAfter Trail.toDb.path rewriting).bytes ⟨.table, 2⟩ = none :=
  ⟨run_refines furnished_sound rfl furnished_stands (fun _ => rfl) reserved_rewriting,
    by decide +kernel, by decide +kernel⟩

end EngineDir
