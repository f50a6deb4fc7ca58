import EngineDir.Proofs.Publishing
import EngineDir.Proofs.Runs

/-!
# A manifest is published at once

A publication makes many calls, and may be cut off before any of them. Whoever reads
the pointer then reads what was there before, until the staged file is renamed, and
the new manifest from then on.

* `Clear`: the names of the pointer are not those of links or of the log, nothing has both of them,
  and no device swallows what is staged.
* `Publication.after_reads`: what a reader gets after any number of calls, and what the
  publication tells in the end.
* `Store.publishing`: the publication of a manifest by a store, after some calls.
* `run_atomicPublish`: **a publication by an open store is atomic, after every run**, if the way is
  clear. `publish_torn`: where a device, a second name of the pointer or the log is in the way, it is
  not.
-/

namespace EngineDir

open FileSystem

/-- In the directory `D` the way is clear for a publication. -/
structure Clear (p : Proposal) (fs : FileSystem) (log : Option SessionLog) (D : NodeId) : Prop where
  current : NoLink fs D Current.entry
  staged : NoLink fs D p.entry
  /-- A device that someone moved there would swallow the line and become the pointer, if it were not
  written back. -/
  device : ∀ i, fs.lookup D p.entry = some i → fs.face? i = some (.device .null) → p.sync = true
  /-- The staged file would be the pointer before it is complete. -/
  apart : StagedApart p fs D
  /-- The lines of the log would be staged, or be the pointer. -/
  log : ∀ l n, log = some l → fs.lookup D n = some l.file.node → ¬p.Names n

variable {p : Proposal} {fs fs₀ : FileSystem} {log : Option SessionLog} {t : Trail} {m : Nat}
  {D : NodeId} {u : Publication}

/-- The ground of a publication that has the way clear. -/
theorem Clear.ground (h : Clear p fs log t.here) (hs : fs.Sound) (ha : fs.Arrives p.dir t m)
    (hlog : ∀ l, log = some l → ∃ f, fs.face? l.file.node = some f) : Ground p t m log fs :=
  ⟨hs, ha, h.current, h.apart, ⟨hlog, h.log⟩⟩

/-- What the first call may find: it opens a file, or is refused, or opens a device which does not
become the pointer. -/
theorem Clear.create_ok (h : Clear p fs log D) (hs : fs.Sound) :
    Publication.StageOK p D fs none .create := by
  refine ⟨rfl, ?_⟩
  intro i hi
  obtain ⟨f, hf⟩ := hs.bound hi
  cases f with
  | file b => exact Or.inr (Or.inl ⟨b, hf⟩)
  | directory => exact Or.inl (isDirectory_iff.2 hf)
  | link g => exact absurd hf (h.staged i g hi)
  | device d =>
    refine Or.inr (Or.inr ⟨d, hf, ?_⟩)
    rintro rfl
    exact h.device i hi hf

namespace Publication

theorem pending_begin (h : Clear p fs log t.here) (hg : Ground p t m log fs) :
    Pending p t m fs (begin fs log) :=
  ⟨hg, .refl _ _, h.staged, h.create_ok hg.sound⟩

/-- Before the renaming a reader gets what was there. -/
theorem Pending.read (h : Pending p t m fs₀ u) (hg : Ground p t m log fs₀) :
    Current.read u.fs p.dir = Current.read fs₀ p.dir :=
  hg.read_untouched h.ground h.untouched

/-- After it, a reader gets the new manifest. -/
theorem Published.read (h : Published p t m u) (hk : p.id.kind = .manifest) :
    Current.read u.fs p.dir = .ok p.id := by
  obtain ⟨i, hl, hf⟩ := h.current
  exact Current.read_of_file h.ground.arrives hk hl hf

/-- Who has not renamed the staged file tells a failure in the end. -/
theorem Pending.failed (h : Pending p t m fs₀ u) (hst : u.stage = .finished) : u.error?.isSome := by
  have hstage := h.stage
  rw [hst] at hstage
  exact hstage

theorem Lost.failed (h : Lost fs₀ u) (hst : u.stage = .finished) : u.error?.isSome := by
  rcases h.stage with ⟨hc, -⟩ | ⟨he, -⟩
  · rw [hst] at hc
    cases hc
  · exact he

/-- **What a reader gets after `k` calls**, and what the publication tells in the end. -/
theorem after_reads (hs : fs.Sound) (hk : p.id.kind = .manifest)
    (hlog : ∀ l, log = some l → ∃ f, fs.face? l.file.node = some f)
    (hq : ∀ D, fs.homeOf p.dir Current.entry = some D → Clear p fs log D) (k : Nat) :
    (Renamed p (begin fs log) k ∧
      Current.read (after p k (begin fs log)).fs p.dir = .ok p.id ∧
      (after p k (begin fs log)).error? = none) ∨
    (¬Renamed p (begin fs log) k ∧
      Current.read (after p k (begin fs log)).fs p.dir = Current.read fs p.dir ∧
      ((after p k (begin fs log)).stage = .finished →
        (after p k (begin fs log)).error?.isSome)) := by
  by_cases hhome : ∃ t m, fs.Arrives p.dir t m
  · obtain ⟨t, m, ha⟩ := hhome
    have hclear := hq _ ((homeOf_eq_some nameable_current.proper).2 ⟨t, m, ha, rfl⟩)
    have hg := hclear.ground hs ha hlog
    rcases after_pending (pending_begin hclear hg) k with ⟨hr, hpub⟩ | ⟨hno, hpend⟩
    · exact Or.inl ⟨hr, hpub.read hk, hpub.error⟩
    · exact Or.inr ⟨hno, hpend.read hg, hpend.failed⟩
  · -- the directory is gone, and the first call is refused
    have hlost : ∀ t m, ¬fs.Arrives p.dir t m := fun t m ha => hhome ⟨t, m, ha⟩
    have hbegin : Lost fs (begin fs log) := ⟨.refl fs, Or.inl ⟨rfl, rfl⟩⟩
    obtain ⟨hno, hl⟩ := after_lost hlost hbegin k
    exact Or.inr ⟨hno, read_of_lost hlost hl.ways, hl.failed⟩

/-- A reader gets the same, whatever the staged file holds. -/
theorem read_leftover {i : NodeId} {b : Bytes} (hg : Ground p t m log fs)
    (hl : fs.lookup t.here p.entry = some i) (hf : fs.face? i = some (.file b)) (b' : Bytes) :
    Current.read (fs.setNode i (.file b')) p.dir = Current.read fs p.dir := by
  have hc : (Change.fill i b').Fits fs := ⟨b, hf⟩
  have hg' : Ground p t m log (fs.setNode i (.file b')) := hg.gentle hc trivial trivial
  have hne : fs.lookup t.here Current.entry ≠ some i := fun hc => hg.apart i hc hl
  exact hg.read_untouched hg' (Untouched.fill hc hne)

end Publication

/-! ## Stores -/

namespace Store

open Publication

/-- The publication of a manifest by a store, after `k` calls. -/
def publishing (fs : FileSystem) (st : Store) (now : Clock.Reading) (id : FileId) (k : Nat) :
    Publication :=
  after (st.proposal now id) k (begin fs st.log)

/-- The staged file was renamed by one of the first `k` calls. -/
def HasRenamed (fs : FileSystem) (st : Store) (now : Clock.Reading) (id : FileId) (k : Nat) : Prop :=
  Renamed (st.proposal now id) (begin fs st.log) k

variable {st : Store} {now : Clock.Reading} {id : FileId}

/-- What an open store tells of a publication is what the publication told in the end. -/
theorem setManifest_eq (hc : st.closed = false) (hk : id.kind = .manifest) :
    (st.setManifest fs now id).fs = (publishing fs st now id (stepsFor id)).fs ∧
      ((st.setManifest fs now id).result = .ok () ↔
        (publishing fs st now id (stepsFor id)).error? = none) := by
  have hrun : run (st.proposal now id) fs st.log = publishing fs st now id (stepsFor id) := rfl
  simp only [setManifest, hc, hk, hrun]
  cases he : (publishing fs st now id (stepsFor id)).error? <;> simp

/-- A publication that goes the same way from its first call on has the same outcome. -/
theorem setManifest_congr {fs' : FileSystem} (hc : st.closed = false) (hk : id.kind = .manifest)
    (h : ∀ k, publishing fs' st now id (k + 1) = publishing fs st now id (k + 1)) :
    st.setManifest fs' now id = st.setManifest fs now id := by
  have hrun : run (st.proposal now id) fs' st.log = run (st.proposal now id) fs st.log :=
    h ((Current.line id).length + 5)
  simp only [setManifest, hc, hk, hrun]
  rfl

end Store

/-- The publication of `id` by the store `st`, seen from the outside. -/
structure AtomicPublish (fs : FileSystem) (st : Store) (now : Clock.Reading) (id : FileId) :
    Prop where
  /-- Until the staged file is renamed, a reader gets what was there before. -/
  before : ∀ k, ¬st.HasRenamed fs now id k →
    Current.read (st.publishing fs now id k).fs st.dir = Current.read fs st.dir
  /-- From then on a reader gets the new manifest. -/
  published : ∀ k, st.HasRenamed fs now id k →
    Current.read (st.publishing fs now id k).fs st.dir = .ok id
  /-- The caller is told that the manifest is published if it is. -/
  told : (st.setManifest fs now id).fs = (st.publishing fs now id (Publication.stepsFor id)).fs ∧
    ((st.setManifest fs now id).result = .ok () ↔
      st.HasRenamed fs now id (Publication.stepsFor id))
  /-- What is left in the staged file from earlier is not read, nor does it change the publication. -/
  leftover : ∀ D i b b', fs.homeOf st.dir Current.entry = some D →
    fs.lookup D (Utf8.encode (Current.stagingName id.seq)) = some i →
    fs.face? i = some (.file b) →
    Current.read (fs.setNode i (.file b')) st.dir = Current.read fs st.dir ∧
    (∀ k, st.publishing (fs.setNode i (.file b')) now id (k + 1) =
      st.publishing fs now id (k + 1)) ∧
    st.setManifest (fs.setNode i (.file b')) now id = st.setManifest fs now id

open World

/-- **A publication by an open store is atomic, after every run.** -/
theorem run_atomicPublish {es : List (Clock.Reading × Event)} {s : Nat} {st : Store}
    {now : Clock.Reading} {id : FileId} (hs : fs.Sound)
    (hst : ((ofFileSystem fs).run es).stores.get? s = some st) (hc : st.closed = false)
    (hk : id.kind = .manifest)
    (hq : ∀ D, ((ofFileSystem fs).run es).fs.homeOf st.dir Current.entry = some D →
      Clear (st.proposal now id) ((ofFileSystem fs).run es).fs st.log D) :
    AtomicPublish ((ofFileSystem fs).run es).fs st now id := by
  have hsound : ((ofFileSystem fs).run es).fs.Sound := run_sound hs es
  have hlog : ∀ l, st.log = some l → ∃ f, ((ofFileSystem fs).run es).fs.face? l.file.node = some f :=
    fun l hl => run_logsThere hs es s st l hst hl
  -- from here on only the file system at the end of the run matters
  generalize ((ofFileSystem fs).run es).fs = fs₁ at hsound hlog hq
  have hreads := @Publication.after_reads (st.proposal now id) fs₁ st.log hsound hk hlog hq
  refine ⟨?_, ?_, ?_, ?_⟩
  · intro k hno
    rcases hreads k with ⟨hr, -⟩ | ⟨-, hread, -⟩
    · exact absurd hr hno
    · exact hread
  · intro k hr
    rcases hreads k with ⟨-, hread, -⟩ | ⟨hno, -⟩
    · exact hread
    · exact absurd hr hno
  · obtain ⟨hfs, hres⟩ := @Store.setManifest_eq fs₁ st now id hc hk
    refine ⟨hfs, hres.trans ?_⟩
    -- in the end it has renamed the staged file, or it has failed
    rcases hreads (Publication.stepsFor id) with ⟨hr, -, herr⟩ | ⟨hno, -, hfail⟩
    · exact iff_of_true herr hr
    · refine iff_of_false ?_ hno
      intro herr
      have hsome := hfail (Publication.finished_run (st.proposal now id) fs₁ st.log)
      rw [show (Publication.after (st.proposal now id) (Publication.stepsFor id)
        (Publication.begin fs₁ st.log)).error? = none from herr] at hsome
      cases hsome
  · intro D i b b' hD hl hf
    obtain ⟨t, m, ha, rfl⟩ := (homeOf_eq_some nameable_current.proper).1 hD
    have hclear := hq _ hD
    have hg : Ground (st.proposal now id) t m st.log fs₁ := hclear.ground hsound ha hlog
    have hsame : ∀ k, st.publishing (fs₁.setNode i (.file b')) now id (k + 1) =
        st.publishing fs₁ now id (k + 1) :=
      Publication.after_leftover hg hclear.staged hl hf b'
    exact ⟨Publication.read_leftover hg hl hf b', hsame, Store.setManifest_congr hc hk hsame⟩

theorem clear_session {st : Store} :
    Clear (st.proposal ⟨⟨0, 0⟩, 0⟩ ⟨.manifest, 1⟩) ((ofFileSystem .initial).run session).fs st.log
      (root.child 1) := by
  have hcur : ((ofFileSystem .initial).run session).fs.lookup (root.child 1) Current.entry =
      none := by decide
  have hstaged : ((ofFileSystem .initial).run session).fs.lookup (root.child 1)
      (Utf8.encode (Current.stagingName 1)) = none := by decide
  refine ⟨?_, ?_, ?_, ?_, ?_⟩
  · intro j g hj
    exact absurd (hcur.symm.trans hj) (by simp)
  · intro j g hj
    exact absurd (hstaged.symm.trans hj) (by simp)
  · intro i hi
    exact absurd (hstaged.symm.trans hi) (by simp)
  · intro j hj
    exact absurd (hcur.symm.trans hj) (by simp)
  · -- neither of the two names is bound
    rintro l n hl hn (rfl | rfl)
    · exact absurd (hcur.symm.trans hn) (by simp)
    · exact absurd (hstaged.symm.trans hn) (by simp)

/-- The first manifest of `/db` is published. -/
theorem run_atomicPublish_session : ∃ st,
    ((ofFileSystem .initial).run session).stores.get? 0 = some st ∧
    AtomicPublish ((ofFileSystem .initial).run session).fs st ⟨⟨0, 0⟩, 0⟩ ⟨.manifest, 1⟩ ∧
    st.HasRenamed ((ofFileSystem .initial).run session).fs ⟨⟨0, 0⟩, 0⟩ ⟨.manifest, 1⟩
      (Publication.stepsFor ⟨.manifest, 1⟩) := by
  have hopen : (((ofFileSystem .initial).run session).stores.get? 0).isSome = true := by decide
  obtain ⟨st, hst⟩ := Option.isSome_iff_exists.1 hopen
  have hdir : (((ofFileSystem .initial).run session).stores.get? 0).map Store.dir =
      some (Utf8.encode ['/', 'd', 'b']) := by decide
  have hclosed : (((ofFileSystem .initial).run session).stores.get? 0).map Store.closed =
      some false := by decide
  have hhome : ((ofFileSystem .initial).run session).fs.homeOf (Utf8.encode ['/', 'd', 'b'])
      Current.entry = some (root.child 1) := by decide
  have hresult : (((ofFileSystem .initial).run session).stores.get? 0).map (fun st =>
      (st.setManifest ((ofFileSystem .initial).run session).fs ⟨⟨0, 0⟩, 0⟩
        ⟨.manifest, 1⟩).result.isOk) = some true := by decide
  rw [hst, Option.map_some, Option.some.injEq] at hdir hclosed hresult
  have hclear : ∀ D, ((ofFileSystem .initial).run session).fs.homeOf st.dir Current.entry = some D →
      Clear (st.proposal ⟨⟨0, 0⟩, 0⟩ ⟨.manifest, 1⟩) ((ofFileSystem .initial).run session).fs
        st.log D := by
    intro D hD
    rw [hdir, hhome] at hD
    rw [← Option.some.inj hD]
    exact clear_session
  have h := run_atomicPublish initial_sound hst hclosed rfl hclear
  refine ⟨st, hst, h, h.told.2.1 ?_⟩
  revert hresult
  cases (st.setManifest ((ofFileSystem .initial).run session).fs ⟨⟨0, 0⟩, 0⟩
    ⟨.manifest, 1⟩).result with
  | ok a => intro _; rfl
  | error e => intro h; cases h

/-- A publication is not atomic if at some point a reader gets nothing, and got something before. -/
theorem not_atomicPublish {st : Store} {now : Clock.Reading} {id a : FileId} {k : Nat}
    (hbefore : (Current.read fs st.dir).toOption = some a)
    (hcut : (Current.read (st.publishing fs now id k).fs st.dir).toOption = none) :
    ¬AtomicPublish fs st now id := by
  intro h
  by_cases hr : st.HasRenamed fs now id k
  · rw [h.published k hr] at hcut
    cases hcut
  · rw [h.before k hr, hbefore] at hcut
    cases hcut

namespace World

/-- The store `0` is open on `/db`, where no entry is a link, and `LOG` is its log, or is gone; yet it
does not publish the first manifest at once. -/
structure Tears (w : World) : Prop where
  sound : w.fs.Sound
  noLink : ∀ n, NoLink w.fs Trail.toDb.here n
  torn : ∃ st, w.stores.get? 0 = some st ∧ st.closed = false ∧ st.dir = Trail.toDb.path ∧
    (∀ i ∈ w.fs.lookup Trail.toDb.here (Utf8.encode SessionLog.fileName),
      st.log.map (fun l => l.file.node) = some i) ∧
    ¬AtomicPublish w.fs st ⟨⟨0, 0⟩, 0⟩ ⟨.manifest, 1⟩

/-- It is enough to look at one point of the publication. -/
theorem Tears.of_cut {w : World} (k : Nat) (hs : w.fs.Sound)
    (hlink : ∀ n, NoLink w.fs Trail.toDb.here n)
    (hst : (w.stores.get? 0).map (fun st => (st.closed, st.dir)) = some (false, Trail.toDb.path))
    (hlog : ∀ i ∈ w.fs.lookup Trail.toDb.here (Utf8.encode SessionLog.fileName),
      (w.stores.get? 0).bind (fun st => st.log.map fun l => l.file.node) = some i)
    (hread : (w.stores.get? 0).map (fun st => ((Current.read w.fs st.dir).toOption,
      (Current.read (st.publishing w.fs ⟨⟨0, 0⟩, 0⟩ ⟨.manifest, 1⟩ k).fs st.dir).toOption)) =
      some (some ⟨.manifest, 2⟩, none)) : w.Tears := by
  obtain ⟨st, hget, hpair⟩ := Option.map_eq_some_iff.1 hst
  obtain ⟨hclosed, hdir⟩ := Prod.mk.inj hpair
  rw [hget] at hlog hread
  obtain ⟨hbefore, hcut⟩ := Prod.mk.inj (Option.some.inj hread)
  exact ⟨hs, hlink, st, hget, hclosed, hdir, hlog, not_atomicPublish hbefore hcut⟩

/-- `/dev/null` was moved to where the pointer is to be staged, and the store writes nothing back. -/
def swallowing : World :=
  (ofFileSystem .furnished).run
    [(⟨⟨0, 0⟩, 0⟩, .openStore 0 { dir := Trail.toDb.path, syncManifest := false }),
      (⟨⟨0, 0⟩, 0⟩, .store 0 (.setManifest ⟨.manifest, 2⟩)),
      (⟨⟨0, 0⟩, 0⟩, .outside (.rename (Utf8.ofText "/dev/null") (Utf8.ofText "/db/CURRENT.1")))]

/-- The pointer is a file that has the name of the staged pointer as well. -/
def doubled : World :=
  (ofFileSystem (twinned Current.entry (Utf8.encode (Current.stagingName 1))
    (Current.line ⟨.manifest, 2⟩))).run
    [(⟨⟨0, 0⟩, 0⟩, .openStore 0 { dir := Trail.toDb.path })]

/-- Nothing can be staged, and the failure is logged: -/
def obstructing : List (Clock.Reading × Event) :=
  [(⟨⟨0, 0⟩, 0⟩, .outside (.makeDirectories (Utf8.ofText "/db/CURRENT.1"))),
    (⟨⟨0, 0⟩, 0⟩, .outside (.write (Utf8.ofText "/db/CURRENT") (Current.line ⟨.manifest, 2⟩)))]

/-- the log is the file of the pointer, since this has both names, -/
def entangled : World :=
  (ofFileSystem (twinned Current.entry (Utf8.encode SessionLog.fileName) [])).run
    ((⟨⟨0, 0⟩, 0⟩, .openStore 0 { dir := Trail.toDb.path, rotateLog := false }) :: obstructing)

/-- or since the log was opened by a link, which is gone. -/
def unlinked : World :=
  (ofFileSystem .furnished).run
    ((⟨⟨0, 0⟩, 0⟩, .outside (.makeLink (Utf8.ofText "CURRENT") (Utf8.ofText "/db/LOG"))) ::
      (⟨⟨0, 0⟩, 0⟩, .openStore 0 { dir := Trail.toDb.path, rotateLog := false }) ::
      (⟨⟨0, 0⟩, 0⟩, .outside (.remove (Utf8.ofText "/db/LOG"))) :: obstructing)

end World

/-- **Not every publication is atomic**: a device may swallow the line, and the file that is emptied,
or that the log writes to, may be the pointer itself. -/
theorem publish_torn : World.swallowing.Tears ∧ World.doubled.Tears ∧ World.entangled.Tears ∧
    World.unlinked.Tears := by
  have hstaged := nameable_staging 1
  refine ⟨?_, ?_, ?_, ?_⟩
  · exact .of_cut (Publication.stepsFor ⟨.manifest, 1⟩) (run_sound furnished_sound _)
      (noLink_of_entries (by decide +kernel)) (by decide +kernel) (by decide +kernel)
      (by decide +kernel)
  · -- the staged file was just emptied
    exact .of_cut 1 (run_sound (twinned_sound _ nameable_current.proper nameable_current.length_le
      hstaged.proper hstaged.length_le) _) (noLink_of_entries (by decide +kernel)) (by decide +kernel)
      (by decide +kernel) (by decide +kernel)
  · -- the failure was just logged
    exact .of_cut 2 (run_sound (twinned_sound _ nameable_current.proper nameable_current.length_le
      nameable_log.proper nameable_log.length_le) _) (noLink_of_entries (by decide +kernel))
      (by decide +kernel) (by decide +kernel) (by decide +kernel)
  · exact .of_cut 2 (run_sound furnished_sound _)
      (noLink_of_entries (by decide +kernel)) (by decide +kernel) (by decide +kernel)
      (by decide +kernel)

end EngineDir
