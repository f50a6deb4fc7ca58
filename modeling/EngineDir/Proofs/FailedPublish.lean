import EngineDir.Proofs.Access
import EngineDir.Proofs.AtomicPublish
import EngineDir.Proofs.Closing
import EngineDir.Proofs.InUse
import EngineDir.Proofs.Opening

/-!
# A publication that fails

A publication that is refused a call leaves the directory as it was, but for the staged
file, which it removes, and the log, which says what was refused.

* `Publication.renames_synced`: the staged file is renamed only after it was written back.
* `Store.Restored`: what a failed publication leaves. `Store.setManifest_restored`: **it leaves
  all that was published.**
* `Plain`, `World.Undisturbed`: what others do not do to the directory of a store.
* `World.LogsHere`: the log of an open store is `LOG`, and what the store writes goes behind what that
  holds. `World.run_logsHere`: **every run keeps that.**
* `run_failedPublish`: **a publication that fails changes nothing that is published, after every
  run.** `failedPublish_leaves`: what it can leave if the directory is not plain, or if the system
  refuses more than the publication.
-/

namespace EngineDir

open FileSystem

variable {fs : FileSystem} {t : Trail} {log : Option SessionLog}

namespace Publication

variable {p : Proposal} {u : Publication} {err : StoreError}

theorem beforeBytes_ne_rename (hsync : p.sync = true) (f : OpenFile) (bytes : Bytes) :
    p.beforeBytes f bytes ≠ .rename := by
  cases bytes with
  | nil => simp [Proposal.beforeBytes, Proposal.afterLine, hsync]
  | cons b rest => simp [Proposal.beforeBytes]

/-- With `sync` only a write back that was granted leads to the renaming. -/
theorem step_to_rename (hsync : p.sync = true) (hr : (step p u).stage = .rename) :
    u.stage = .rename ∨ ∃ f, u.stage = .sync f ∧ u.fs.sync f.node = .ok () := by
  revert hr
  cases hst : u.stage with
  | create =>
    simp only [step, hst]
    split
    · intro hr
      cases hr
    · exact fun hr => absurd hr (beforeBytes_ne_rename hsync _ _)
  | write f b rest =>
    simp only [step, hst]
    split
    · intro hr
      cases hr
    · exact fun hr => absurd hr (beforeBytes_ne_rename hsync _ _)
  | sync f =>
    simp only [step, hst]
    split
    · intro hr
      cases hr
    · rename_i hok
      exact fun _ => Or.inr ⟨f, rfl, hok⟩
  | rename => exact fun _ => Or.inl rfl
  | syncDirectory =>
    simp only [step, hst]
    split <;> intro hr <;> cases hr
  | report e =>
    simp only [step, hst, warned]
    intro hr
    cases hr
  | discard =>
    simp only [step, hst]
    split <;> intro hr <;> cases hr
  | remark text =>
    simp only [step, hst, warned]
    intro hr
    cases hr
  | finished =>
    rw [step_finished hst, hst]
    intro hr
    cases hr

/-- With `sync` the staged file is renamed only after it was written back. -/
theorem renames_synced (hsync : p.sync = true) {k : Nat}
    (hr : (after p k (begin fs log)).stage = .rename) :
    ∃ j < k, ∃ f, (after p j (begin fs log)).stage = .sync f ∧
      (after p j (begin fs log)).fs.sync f.node = .ok () := by
  induction k with
  | zero => cases hr
  | succ k ih =>
    rw [after_succ] at hr
    rcases step_to_rename hsync hr with hren | ⟨f, hst, hok⟩
    · obtain ⟨j, hj, hsynced⟩ := ih hren
      exact ⟨j, Nat.lt_succ_of_lt hj, hsynced⟩
    · exact ⟨k, Nat.lt_succ_self k, f, hst, hok⟩

end Publication

namespace Store

open Publication

variable {st : Store} {now : Clock.Reading} {id : FileId} {e : StoreError}

/-- What the log gains when a publication failed with `e`: the failure, and one more line if the
staged file, as it was in `fs`, could not be removed. -/
def failureLines (fs : FileSystem) (st : Store) (now : Clock.Reading) (id : FileId)
    (e : StoreError) : Bytes :=
  (("CURRENT: " ++ e.message) :: leftover (st.proposal now id) fs).flatMap (SessionLog.line now)

/-- What the publication of `id` by the store `st` leaves of the directory of the trail `t` when it
failed with `e`. -/
structure Restored (t : Trail) (fs : FileSystem) (st : Store) (now : Clock.Reading) (id : FileId)
    (e : StoreError) : Prop where
  /-- Every entry but the staged file and the log is what it was. -/
  others : ∀ n, n ≠ Utf8.encode (Current.stagingName id.seq) → n ≠ SessionLog.entry →
    Stays t.here n fs (st.setManifest fs now id).fs
  /-- The manifest in use is the same. -/
  manifest : (st.setManifest fs now id).store.manifest (st.setManifest fs now id).fs =
    st.manifest fs
  /-- The staged file is gone, unless there was a directory in its place or the system refuses to
  remove it. -/
  staged : (st.setManifest fs now id).fs.lookup t.here
      (Utf8.encode (Current.stagingName id.seq)) = none ∨
    (∃ i, fs.lookup t.here (Utf8.encode (Current.stagingName id.seq)) = some i ∧
      fs.isDirectory i = true) ∨
    ∃ e, fs.refusals.remove (Current.stagingPathIn st.dir id.seq) = some e
  /-- The store is what it was, but for the cursor of its log. -/
  store : (st.setManifest fs now id).store =
    { st with log := (st.setManifest fs now id).store.log }
  /-- What is told is why a call was refused before the staged file was renamed. -/
  error : ∃ k action err, Refuses (st.proposal now id) (st.publishing fs now id k) action err ∧
    e = .io action (Current.stagingPathIn st.dir id.seq) (.os err)
  /-- The log stays where it is. -/
  log : ∃ i, fs.lookup t.here SessionLog.entry = some i ∧
    (st.setManifest fs now id).fs.lookup t.here SessionLog.entry = some i
  /-- If it is a file for which the system sets no limit, it gains the failure, and one more line if
  the staged file could not be removed, as long as a file can hold them. -/
  lines : ∀ i b, fs.lookup t.here SessionLog.entry = some i → fs.face? i = some (.file b) →
    fs.refusals.room i = none → ∃ k, (st.publishing fs now id k).stage = .discard ∧
      (b.length + (failureLines (st.publishing fs now id k).fs st now id e).length < positionLimit →
        (st.setManifest fs now id).fs.face? i =
          some (.file (b ++ failureLines (st.publishing fs now id k).fs st now id e)))

/-- **A failed publication leaves all that was published.** -/
theorem setManifest_restored (hs : fs.Sound) (ht : t.Stands fs) (hone : fs.OneName t.here)
    (hd : st.dir = t.path) (hcur : NoLink fs t.here Current.entry)
    (hst : Stageable (st.proposal now id) t.here fs) (hlog : LogsTo t.here fs st.log)
    (hsome : st.log.isSome) (hc : st.closed = false) (hk : id.kind = .manifest)
    (he : (st.setManifest fs now id).result = .error e) : Restored t fs st now id e := by
  obtain ⟨hfs, hstore, hres⟩ := st.setManifest_run fs now hc hk
  obtain ⟨j, action, err, hf, herr, hnotes, hren, hj, hclosed⟩ :=
    run_refused hs ht hd hst ((hres e).1 he)
  have hsits : (begin fs st.log).stage.Sits (st.proposal now id) t.here (begin fs st.log).fs := hst
  obtain ⟨⟨said, hsaid, hw⟩, -⟩ := after_works (u := begin fs st.log) hs ht hd hsits (stepsFor id)
  -- the staged file was never renamed, so only its name was touched
  have hw : Works t.here (fun n => n = (st.proposal now id).entry)
      (fun n => n = (st.proposal now id).entry) now fs st.log said
      (st.setManifest fs now id).fs (st.setManifest fs now id).store.log := by
    rw [hfs, hstore]
    exact hw.mono (fun n hn => hn) fun n hn => hn.resolve_right fun hr => hren hr.2
  have hnl : ¬SessionLog.entry = (st.proposal now id).entry := fun h =>
    stagingName_ne id.seq (by decide) (Utf8.encode_injective h).symm
  have hcl : Current.entry ≠ SessionLog.entry := (Current.encode_ne_current rfl).symm
  have hothers : ∀ n, n ≠ (st.proposal now id).entry → n ≠ SessionLog.entry →
      Stays t.here n fs (st.setManifest fs now id).fs :=
    fun n hn hl => hw.stays hs hone hlog.logAt (Or.inr hnl) (Or.inr hl) hn hn
  have hlook := hw.lookup hs (i := t.here) (Or.inr hnl)
  obtain ⟨l, hl⟩ := Option.isSome_iff_exists.1 hsome
  refine ⟨hothers, ?_, ?_, by rw [hstore], ⟨j, action, err, hf, herr⟩,
    ⟨l.file.node, (hlog l hl).1, hlook.trans (hlog l hl).1⟩, ?_⟩
  · have hstay := hothers Current.entry (staging_ne_current _).symm hcl
    have hread : Current.read (st.setManifest fs now id).fs t.path = Current.read fs t.path :=
      Current.read_congr (ht.arrives hs) ((hw.stands hs ht).arrives (hw.sound hs)) hstay.lookup
        hstay.face hcur
    rw [hstore, manifest, manifest, if_neg (by simp [hc]), if_neg (by simp [hc]), hd]
    exact hread
  · rcases hclosed.staged with hfree | ⟨i, hi, hdir⟩ | ⟨e', he'⟩
    · exact Or.inl (by rw [hfs]; exact hfree)
    · have hnot : ¬Renamed (st.proposal now id) (begin fs st.log) j := by
        rintro ⟨k, hk, hr⟩
        exact hren ⟨k, Nat.lt_trans hk hj, hr⟩
      exact Or.inr (Or.inl
        ⟨i, directory_before (p := st.proposal now id) hs ht hd hst hnot hi hdir⟩)
    · rw [(after_leads (u := begin fs st.log) hs j).refusals] at he'
      exact Or.inr (Or.inr ⟨e', he'⟩)
  · intro i b hi hb hroom
    obtain rfl : l.file.node = i := Option.some.inj ((hlog l hl).1.symm.trans hi)
    obtain ⟨b₀, hlogged⟩ := (hlog l hl).2 ⟨⟨b, hb⟩, hroom⟩
    have hlines : said = ("CURRENT: " ++ e.message) ::
        leftover (st.proposal now id) (st.publishing fs now id (j + (1 + 1))).fs := by
      have hend := hclosed.said
      rw [hnotes, herr, ← after_refused hf] at hend
      rw [herr]
      exact hsaid.symm.trans hend
    have hbytes : (said.map (Prod.mk now)).flatMap (fun l => SessionLog.line l.1 l.2) =
        failureLines (st.publishing fs now id (j + (1 + 1))).fs st now id e := by
      rw [List.flatMap_map, hlines]
      rfl
    obtain rfl : b₀ = b := by
      obtain ⟨l₀, hl₀, -, hf₀, -⟩ := hlogged
      obtain rfl := Option.some.inj (hl₀.symm.trans hl)
      exact Face.file.inj (Option.some.inj (hf₀.symm.trans hb))
    obtain ⟨l', -, hlook', hface', -⟩ := hw.logged hs hone hlogged hnl hnl
    rw [hlook, hi] at hlook'
    refine ⟨j + (1 + 1), ?_, fun hlt => ?_⟩
    · rw [publishing, after_refused hf]
      rfl
    · rw [Option.some.inj hlook', hface', SessionLog.filled_room (by rwa [hbytes]), hbytes]

/-- A write back of the staged file that is refused is the end of the publication. -/
theorem setManifest_unsynced {k : Nat} {f : OpenFile} {err : Errno} (hs : fs.Sound)
    (ht : t.Stands fs) (hd : st.dir = t.path) (hst : Stageable (st.proposal now id) t.here fs)
    (hc : st.closed = false) (hk : id.kind = .manifest)
    (hsync : (st.publishing fs now id k).stage = .sync f)
    (herr : (st.publishing fs now id k).fs.sync f.node = .error err) :
    (∀ j, ¬st.HasRenamed fs now id j) ∧ (st.setManifest fs now id).result =
      .error (.io "sync" (Current.stagingPathIn st.dir id.seq) (.os err)) := by
  refine ⟨phase_unsynced (phase_begin _ fs st.log) hsync herr, ?_⟩
  have hsits : (begin fs st.log).stage.Sits (st.proposal now id) t.here (begin fs st.log).fs := hst
  obtain ⟨⟨_, -, hw⟩, -⟩ := after_works (u := begin fs st.log) hs ht hd hsits k
  have hclosed := after_closed (p := st.proposal now id)
    (u := after (st.proposal now id) k (begin fs st.log)) (hw.sound hs) (hw.stands hs ht) hd
    ((st.proposal now id).failure "sync" err)
  rw [← after_refused (.sync hsync herr)] at hclosed
  have hrun : run (st.proposal now id) fs st.log = _ :=
    after_eq_of_finished (finished_run (st.proposal now id) fs st.log) hclosed.stage
  have herror := hclosed.error
  rw [← hrun] at herror
  exact ((st.setManifest_run fs now hc hk).2.2 _).2 herror

end Store

/-- The publication of `id` by the store `st`, when a call is refused. -/
structure FailedPublish (t : Trail) (fs : FileSystem) (st : Store) (now : Clock.Reading)
    (id : FileId) : Prop where
  restored : ∀ e, (st.setManifest fs now id).result = .error e → st.Restored t fs now id e
  /-- A write back of the staged file that is refused is the end: the file is never renamed. -/
  unsynced : ∀ k f err, (st.publishing fs now id k).stage = .sync f →
    (st.publishing fs now id k).fs.sync f.node = .error err →
    (∀ j, ¬st.HasRenamed fs now id j) ∧ (st.setManifest fs now id).result =
      .error (.io "sync" (Current.stagingPathIn st.dir id.seq) (.os err))
  /-- With `sync` the staged file is renamed only after a write back that was granted. -/
  synced : st.sync = true → ∀ k, st.HasRenamed fs now id k →
    ∃ j < k, ∃ f, (st.publishing fs now id j).stage = .sync f ∧
      (st.publishing fs now id j).fs.sync f.node = .ok ()

/-! ## The log of an open store -/

/-- The directory of the trail `t` is in its place. It holds no link, except that a staged pointer may
be a link to a device, and nothing has two names in it. -/
structure Plain (t : Trail) (fs : FileSystem) : Prop where
  stands : t.Stands fs
  link : ∀ n, NoLink fs t.here n ∨ ∃ seq k d, n = Utf8.encode (Current.stagingName seq) ∧
    fs.find (Path.ofText (Current.stagingPathIn t.path seq)) = .ok k ∧
    fs.face? k = some (.device d)
  oneName : fs.OneName t.here

namespace Plain

/-- A name that is not that of a staged pointer is no link. -/
theorem noLink (h : Plain t fs) {n : Bytes} (hn : ∀ seq, n ≠ Utf8.encode (Current.stagingName seq)) :
    NoLink fs t.here n := by
  rcases h.link n with hl | ⟨seq, _, _, he, -⟩
  · exact hl
  · exact absurd he (hn seq)

theorem tidy (h : Plain t fs) : Tidy t fs := by
  refine ⟨fun id n hid => h.noLink fun seq he => ?_, fun p hd => ?_⟩
  · rw [he] at hid
    exact hid.not_control (control_staging seq)
  · rcases h.link p.entry with hl | ⟨seq, k, d, he, hfind, hface⟩
    · exact Or.inl hl
    · refine Or.inr ⟨k, d, ?_, hface⟩
      rw [Proposal.staged, Current.stagingPathIn, hd]
      rw [Current.stagingPathIn, ← he] at hfind
      exact hfind

theorem noLink_control (h : Plain t fs) (cs : List Char) (hcs : ∀ seq, Current.stagingName seq ≠ cs) :
    NoLink fs t.here (Utf8.encode cs) :=
  h.noLink fun seq he => hcs seq (Utf8.encode_injective he).symm

end Plain

namespace World

variable {w w₀ : World} {now : Clock.Reading} {e : Event} {s : Nat} {st : Store}
  {es : List (Clock.Reading × Event)}

/-- Throughout the run `es` the directory of the trail `t` stays as plain as it is, and nobody touches
its log, except for what is asked of the store `s`. -/
structure Undisturbed (w : World) (t : Trail) (s : Nat) (es : List (Clock.Reading × Event)) :
    Prop where
  plain : ∀ pre, pre <+: es → Plain t (w.run pre).fs
  log : ∀ pre now e, pre ++ [(now, e)] <+: es → (w.run pre).addressee? e ≠ some s →
    Stays t.here SessionLog.entry (w.run pre).fs (step now (w.run pre) e).world.fs

/-- The log of the store `s`, which is `st`, is the file `LOG` of the directory of the trail `t`, and
none of its handles is open on that file. -/
structure LogsHere (w : World) (t : Trail) (s : Nat) (st : Store) : Prop where
  store : w.stores.get? s = some st
  dir : st.dir = t.path
  log : LogsTo t.here w.fs st.log
  handle : ∀ h x f, w.handles.get? h = some ⟨s, x⟩ → x.file = some f →
    w.fs.lookup t.here SessionLog.entry ≠ some f.node

/-- What others do leaves the log of a store. -/
theorem LogsHere.elsewhere (h : LogsHere w t s st) (hs : w.fs.Sound) (he : w.addressee? e ≠ some s)
    (hstay : Stays t.here SessionLog.entry w.fs (step now w e).world.fs) :
    LogsHere (step now w e).world t s st := by
  refine ⟨step_elsewhere he h.store, h.dir, ?_, ?_⟩
  · exact h.log.stays hstay (step_leads hs now e).refusals
  · intro k x f hk hf
    rw [hstay.lookup]
    exact h.handle k x f (handle_elsewhere he hk) hf

/-- What is asked of a store writes to its log and to no other entry `LOG`. -/
theorem LogsHere.asked (h : LogsHere w t s st) (hs : w.fs.Sound) (hp : Plain t w.fs)
    (he : w.addressee? e = some s) : ∃ st', LogsHere (step now w e).world t s st' := by
  obtain ⟨st', hst', log', hw, hlog'⟩ :=
    step_does now hs hp.stands hp.tidy he h.store h.dir
  have hfills := not_fills (a := (step now w e).answer) he .log rfl h.handle
  have hbinds := not_binds (a := (step now w e).answer) he .log rfl
  have hlook := hw.lookup hs (i := t.here) (Or.inr hbinds)
  have hbec : st.Becomes st' := by
    obtain ⟨st₀, hst₀, hbec⟩ := asked_stores he hst'
    obtain rfl := Option.some.inj (hst₀.symm.trans h.store)
    exact hbec
  refine ⟨st', hst', hbec.dir.trans h.dir, ?_, ?_⟩
  · rcases hlog' with hlog' | ⟨hnone, -⟩
    · rw [hlog']
      exact h.log.works hw hs hp.oneName hfills hbinds
    · rw [hnone]
      exact .none _ _
  · intro k x' f' hk hf hbound
    rcases step_open hs hp.stands hp.tidy h.store h.dir hk hf with
      ⟨x, f, hx, hxf, hnode, -⟩ | ⟨-, hnew⟩
    · exact h.handle k x f hx hxf (by rw [hnode, ← hlook, hbound])
    · obtain ⟨n, hn, hln⟩ := hnew.lookup
      rw [← hw.oneName hs hp.oneName _ _ _ hbound hln] at hn
      exact hn.not_control control_log

/-- **Every step keeps the log of a store in place.** -/
theorem run_logsHere (hs : w₀.fs.Sound) (hu : Undisturbed w₀ t s es) (h : LogsHere w₀ t s st) :
    ∃ st', LogsHere (w₀.run es) t s st' := by
  refine run_along (P := fun _ w => ∃ st', LogsHere w t s st') es ⟨st, h⟩ ?_
  rintro pre now e hpre ⟨st₁, h₁⟩
  by_cases he : (w₀.run pre).addressee? e = some s
  · exact h₁.asked (run_sound hs pre) (hu.plain pre ((List.prefix_append _ _).trans hpre)) he
  · exact ⟨st₁, h₁.elsewhere (run_sound hs pre) he (hu.log pre now e hpre he)⟩

/-- A store that was just opened has an empty log. -/
theorem logsHere_open {o : Options} (hs : w.fs.Sound) (hu : InUse w)
    (hopen : (step now w (.openStore s o)).answer = .ok .done)
    (hfind : (Store.prepare w.fs o).2.find (Path.ofText o.dir) = .ok t.here)
    (hp : Plain t (Store.prepare w.fs o).2) :
    ∃ st, LogsHere (step now w (.openStore s o)).world t s st := by
  have hs₁ := (Store.prepare_leads (o := o) hs).sound hs
  have hnew : w.stores.get? s = none := by
    by_cases hc : w.stores.contains s = true
    · simp only [step, if_pos hc] at hopen
      cases hopen
    · exact not_contains hc
  have hstep : step now w (.openStore s o) = w.stepOpen s o := by
    simp [step, Table.contains, hnew]
  rw [hstep, stepOpen] at hopen
  rw [hstep, stepOpen]
  rcases Store.open?_enter hs hp.stands hfind with ⟨e, he⟩ | he
  · rw [he] at hopen
    cases hopen
  · rw [he] at hopen ⊢
    cases hr : Store.enter (Store.prepare w.fs o).2 o t.path with
    | mk r fs' =>
      rw [hr] at hopen
      cases r with
      | error err => cases hopen
      | ok st =>
        have hlock := hp.noLink_control DirLock.fileName fun seq =>
          stagingName_ne seq (by decide)
        have hlog := hp.noLink_control SessionLog.fileName fun seq =>
          stagingName_ne seq (by decide)
        obtain ⟨-, hent, -⟩ := Store.enter_works now hs₁ hp.stands hlock hlog hr
        obtain ⟨⟨sync, log, l, rfl⟩, -, l', hl', hlook, hpos, hface⟩ := hent st rfl
        refine ⟨_, Table.get?_insert_self _ _ _, rfl, ?_, ?_⟩
        · exact .opened hl' hlook hpos hface
        · intro k x f hk hf
          obtain ⟨st₀, hst₀⟩ := hu.store hk hf
          rw [hnew] at hst₀
          cases hst₀

end World

open World

/-- **A publication that fails changes nothing that is published, after every run.** -/
theorem run_failedPublish {es es' : List (Clock.Reading × Event)} {s : Nat} {o : Options}
    {now₀ now : Clock.Reading} {st : Store} {id : FileId} (hs : fs.Sound)
    (hopen : (step now₀ ((ofFileSystem fs).run es) (.openStore s o)).answer = .ok .done)
    (hfind : (Store.prepare ((ofFileSystem fs).run es).fs o).2.find (Path.ofText o.dir) =
      .ok t.here)
    (hplain : Plain t (Store.prepare ((ofFileSystem fs).run es).fs o).2)
    (hu : Undisturbed (step now₀ ((ofFileSystem fs).run es) (.openStore s o)).world t s es')
    (hst : ((ofFileSystem fs).run (es ++ (now₀, .openStore s o) :: es')).stores.get? s = some st)
    (hc : st.closed = false) (hk : id.kind = .manifest) :
    FailedPublish t ((ofFileSystem fs).run (es ++ (now₀, .openStore s o) :: es')).fs st now id := by
  have hrun : (ofFileSystem fs).run (es ++ (now₀, .openStore s o) :: es') =
      (step now₀ ((ofFileSystem fs).run es) (.openStore s o)).world.run es' := by
    rw [run_append]
    rfl
  have huse := run_inUse fs (es ++ (now₀, .openStore s o) :: es')
  have hpaired := run_paired fs _ s st hst
  rw [hrun] at hst huse ⊢
  have hsound : ((ofFileSystem fs).run es).fs.Sound := run_sound hs es
  have hsound₁ := step_sound hsound now₀ (.openStore s o)
  obtain ⟨st₁, h₁⟩ := logsHere_open hsound (run_inUse fs es) hopen hfind hplain
  obtain ⟨st', h⟩ := run_logsHere hsound₁ hu h₁
  obtain rfl : st' = st := Option.some.inj (h.store.symm.trans hst)
  have hp := hu.plain es' (List.prefix_refl _)
  have hs' := run_sound hsound₁ es'
  -- an open store has a log
  obtain ⟨-, l, hl⟩ := huse.unclosed s st' hst hc
  have hsome : st'.log.isSome := by
    rw [hpaired, hl]
    rfl
  have hstage := hp.tidy.staged (st'.proposal now id) h.dir
  refine ⟨fun e he => ?_, fun k f err hsync herr => ?_, ?_⟩
  · exact Store.setManifest_restored hs' hp.stands hp.oneName h.dir
      (hp.noLink_control Current.fileName stagingName_ne_current) hstage h.log hsome hc hk he
  · exact Store.setManifest_unsynced hs' hp.stands h.dir hstage hc hk hsync herr
  · rintro hsync k ⟨j, hj, hren⟩
    obtain ⟨i, hi, hsynced⟩ := Publication.renames_synced hsync hren.1
    exact ⟨i, Nat.lt_trans hi hj, hsynced⟩

/-- There is a directory where the pointer of `/db` should be. -/
def blocked : List (Clock.Reading × Event) :=
  [(⟨⟨0, 0⟩, 0⟩, .outside (.makeDirectories (Current.pathIn (Utf8.encode ['/', 'd', 'b']))))]

/-- `/db` is opened. -/
def opening : Clock.Reading × Event :=
  (⟨⟨0, 0⟩, 0⟩, .openStore 0 { dir := Utf8.encode ['/', 'd', 'b'] })

/-- The renaming is refused, and all is as before. -/
theorem run_failedPublish_blocked : ∃ st e,
    ((ofFileSystem .initial).run (blocked ++ [opening])).stores.get? 0 = some st ∧
    (st.setManifest ((ofFileSystem .initial).run (blocked ++ [opening])).fs ⟨⟨0, 0⟩, 0⟩
      ⟨.manifest, 1⟩).result = .error e ∧
    FailedPublish [(Utf8.encode ['d', 'b'], root.child 1)]
      ((ofFileSystem .initial).run (blocked ++ [opening])).fs st ⟨⟨0, 0⟩, 0⟩ ⟨.manifest, 1⟩ := by
  have hopen :
      (((ofFileSystem .initial).run (blocked ++ [opening])).stores.get? 0).isSome = true := by decide
  obtain ⟨st, hst⟩ := Option.isSome_iff_exists.1 hopen
  have hclosed : (((ofFileSystem .initial).run (blocked ++ [opening])).stores.get? 0).map
      Store.closed = some false := by decide
  have hresult : (((ofFileSystem .initial).run (blocked ++ [opening])).stores.get? 0).map (fun st =>
      (st.setManifest ((ofFileSystem .initial).run (blocked ++ [opening])).fs ⟨⟨0, 0⟩, 0⟩
        ⟨.manifest, 1⟩).result.isOk) = some false := by decide +kernel
  rw [hst, Option.map_some, Option.some.injEq] at hclosed hresult
  have hbefore : Plain [(Utf8.encode ['d', 'b'], root.child 1)]
      (Store.prepare ((ofFileSystem .initial).run blocked).fs
        { dir := Utf8.encode ['/', 'd', 'b'] }).2 :=
    ⟨⟨by decide, by decide, trivial⟩, fun n => Or.inl (noLink_of_all (by decide) _ n),
      oneName_of_entries (by decide)⟩
  have hafter : Plain [(Utf8.encode ['d', 'b'], root.child 1)]
      ((ofFileSystem .initial).run (blocked ++ [opening])).fs :=
    ⟨⟨by decide, by decide, trivial⟩, fun n => Or.inl (noLink_of_all (by decide) _ n),
      oneName_of_entries (by decide)⟩
  have hu : Undisturbed ((ofFileSystem .initial).run (blocked ++ [opening]))
      [(Utf8.encode ['d', 'b'], root.child 1)] 0 [] := by
    refine ⟨fun pre hpre => ?_, fun pre now e hpre => ?_⟩
    · rw [List.prefix_nil.1 hpre]
      exact hafter
    · exact absurd (List.prefix_nil.1 hpre) (by simp)
  have h : FailedPublish [(Utf8.encode ['d', 'b'], root.child 1)]
      ((ofFileSystem .initial).run (blocked ++ [opening])).fs st ⟨⟨0, 0⟩, 0⟩ ⟨.manifest, 1⟩ :=
    run_failedPublish initial_sound rfl rfl hbefore hu hst hclosed rfl
  cases hr : (st.setManifest ((ofFileSystem .initial).run (blocked ++ [opening])).fs ⟨⟨0, 0⟩, 0⟩
    ⟨.manifest, 1⟩).result with
  | ok v => rw [hr] at hresult; cases hresult
  | error e => exact ⟨st, e, hst, hr, h⟩

/-- Asks the store `0` to publish the fifth manifest. -/
def World.publishingFifth (w : World) : Reaction :=
  step ⟨⟨0, 0⟩, 0⟩ w (.store 0 (.setManifest ⟨.manifest, 5⟩))

/-- The store `0` is open on `/db`, which holds no link and where `LOG` is its log, but is refused the
action `action` in publishing the fifth manifest. -/
structure World.Fails (w : World) (action : String) (err : Errno) : Prop where
  sound : w.fs.Sound
  noLink : ∀ n, NoLink w.fs Trail.toDb.here n
  opened : ∃ st l, w.stores.get? 0 = some st ∧ st.closed = false ∧ st.dir = Trail.toDb.path ∧
    st.log = some l ∧ w.fs.lookup Trail.toDb.here SessionLog.entry = some l.file.node
  refused : w.publishingFifth.answer =
    .error (.store (.io action (Current.stagingPathIn Trail.toDb.path 5) (.os err)))

/-- What makes a store open, in a form that is evaluated. -/
theorem World.opened_of_map {w : World} {i : NodeId}
    (h : (w.stores.get? 0).map (fun st => (st.closed, st.dir, st.log.map fun l => l.file.node)) =
      some (false, Trail.toDb.path, some i))
    (hl : w.fs.lookup Trail.toDb.here SessionLog.entry = some i) :
    ∃ st l, w.stores.get? 0 = some st ∧ st.closed = false ∧ st.dir = Trail.toDb.path ∧
      st.log = some l ∧ w.fs.lookup Trail.toDb.here SessionLog.entry = some l.file.node := by
  obtain ⟨st, hst, h⟩ := Option.map_eq_some_iff.1 h
  obtain ⟨hc, h⟩ := Prod.mk.inj h
  obtain ⟨hd, h⟩ := Prod.mk.inj h
  obtain ⟨l, hlog, rfl⟩ := Option.map_eq_some_iff.1 h
  exact ⟨st, l, hst, hc, hd, hlog, hl⟩

/-- The directory was moved, with a staged pointer that was left in it. -/
def World.movedAway : World :=
  (ofFileSystem .furnished).run
    [opening, (⟨⟨0, 0⟩, 0⟩, .outside (.write (Utf8.ofText "/db/CURRENT.5") [1])),
      (⟨⟨0, 0⟩, 0⟩, .outside (.rename (Utf8.ofText "/db") (Utf8.ofText "/moved")))]

/-- The pointer cannot be replaced. What is staged is written to a table as well, -/
def World.overwritten : World :=
  (ofFileSystem (twinned (Utf8.encode (Current.stagingName 5)) (Utf8.ofText "000001.sst") [1, 2])).run
    (blocked ++ [opening])

/-- or cannot be removed. -/
def World.stuck : World :=
  (ofFileSystem { FileSystem.furnished with refusals := { SystemRefusals.never with
    remove := fun path =>
      if path = Current.stagingPathIn Trail.toDb.path 5 then some .access else none } }).run
    (blocked ++ [opening])

/-- Nothing can be staged. -/
def World.unstaged : List (Clock.Reading × Event) :=
  [(⟨⟨0, 0⟩, 0⟩, .outside (.makeDirectories (Utf8.ofText "/db/CURRENT.5"))),
    (⟨⟨0, 0⟩, 0⟩, .openStore 0 { dir := Trail.toDb.path, rotateLog := false })]

/-- The log is a device, -/
def World.unlogged : World :=
  (ofFileSystem .furnished).run
    ((⟨⟨0, 0⟩, 0⟩, .outside (.rename (Utf8.ofText "/dev/full") (Utf8.ofText "/db/LOG"))) :: unstaged)

/-- or one for which there is no room. -/
def World.crowded : World :=
  (ofFileSystem { FileSystem.furnished with
    refusals := { SystemRefusals.never with room := fun _ => some 0 } }).run unstaged

theorem World.movedAway_fails : movedAway.Fails "create" .noEntry where
  sound := run_sound furnished_sound _
  noLink := noLink_of_entries (by decide +kernel)
  opened := opened_of_map (i := Trail.toDb.here.child 1) (by decide +kernel) (by decide +kernel)
  refused := by decide +kernel

theorem World.overwritten_fails : overwritten.Fails "rename" .isDirectory where
  sound := by
    have htable : Nameable "000001.sst".toList :=
      nameable_of_name? (rfl : FileId.name? ⟨.table, 1⟩ = some "000001.sst".toList)
    have hstaged := nameable_staging 5
    exact run_sound (twinned_sound _ hstaged.proper hstaged.length_le htable.proper
      htable.length_le) _
  noLink := noLink_of_entries (by decide +kernel)
  opened := opened_of_map (i := Trail.toDb.here.child 3) (by decide +kernel) (by decide +kernel)
  refused := by decide +kernel

theorem World.stuck_fails : stuck.Fails "rename" .isDirectory where
  sound := run_sound (furnished_sound.refusing _) _
  noLink := noLink_of_entries (by decide +kernel)
  opened := opened_of_map (i := Trail.toDb.here.child 2) (by decide +kernel) (by decide +kernel)
  refused := by decide +kernel

theorem World.unlogged_fails : unlogged.Fails "create" .isDirectory where
  sound := run_sound furnished_sound _
  noLink := noLink_of_entries (by decide +kernel)
  opened := opened_of_map (i := (root.child 0).child 1) (by decide +kernel) (by decide +kernel)
  refused := by decide +kernel

theorem World.crowded_fails : crowded.Fails "create" .isDirectory where
  sound := run_sound (furnished_sound.refusing _) _
  noLink := noLink_of_entries (by decide +kernel)
  opened := opened_of_map (i := Trail.toDb.here.child 2) (by decide +kernel) (by decide +kernel)
  refused := by decide +kernel

/-- **A publication that fails can leave something.** In a directory that was moved what was staged
stays. A file with two names is written. What the system does not remove stays, and a device, or a
file without room, gains no line. -/
theorem failedPublish_leaves :
    (movedAway.Fails "create" .noEntry ∧ movedAway.fs.OneName Trail.toDb.here ∧
      movedAway.publishingFifth.world.fs.Holds Trail.toDb.here
        (Utf8.encode (Current.stagingName 5)) [1]) ∧
    (overwritten.Fails "rename" .isDirectory ∧ Trail.toDb.Stands overwritten.fs ∧
      overwritten.fs.Holds Trail.toDb.here (Utf8.ofText "000001.sst") [1, 2] ∧
      overwritten.publishingFifth.world.fs.Holds Trail.toDb.here (Utf8.ofText "000001.sst")
        (Current.line ⟨.manifest, 5⟩)) ∧
    (stuck.Fails "rename" .isDirectory ∧ Plain .toDb stuck.fs ∧
      stuck.fs.lookup Trail.toDb.here (Utf8.encode (Current.stagingName 5)) = none ∧
      stuck.publishingFifth.world.fs.Holds Trail.toDb.here (Utf8.encode (Current.stagingName 5))
        (Current.line ⟨.manifest, 5⟩)) ∧
    (unlogged.Fails "create" .isDirectory ∧ Plain .toDb unlogged.fs ∧
      ∀ b, ¬unlogged.publishingFifth.world.fs.Holds Trail.toDb.here SessionLog.entry b) ∧
    (crowded.Fails "create" .isDirectory ∧ Plain .toDb crowded.fs ∧
      crowded.publishingFifth.world.fs.Holds Trail.toDb.here SessionLog.entry []) := by
  have hplain : ∀ {w : World} {action err}, w.Fails action err → Trail.toDb.Stands w.fs →
      w.fs.OneName Trail.toDb.here → Plain .toDb w.fs := fun h ht hone =>
    ⟨ht, fun n => Or.inl (h.noLink n), hone⟩
  refine ⟨⟨movedAway_fails, oneName_of_entries (by decide +kernel), holds_iff.2 (by decide +kernel)⟩,
    ⟨overwritten_fails, ⟨by decide +kernel, by decide +kernel, trivial⟩,
      holds_iff.2 (by decide +kernel), holds_iff.2 (by decide +kernel)⟩,
    ⟨stuck_fails, ?_, by decide +kernel, holds_iff.2 (by decide +kernel)⟩,
    ⟨unlogged_fails, ?_, fun b h => ?_⟩, crowded_fails, ?_, holds_iff.2 (by decide +kernel)⟩
  · exact hplain stuck_fails ⟨by decide +kernel, by decide +kernel, trivial⟩
      (oneName_of_entries (by decide +kernel))
  · exact hplain unlogged_fails ⟨by decide +kernel, by decide +kernel, trivial⟩
      (oneName_of_entries (by decide +kernel))
  · have hdev : (unlogged.publishingFifth.world.fs.lookup Trail.toDb.here SessionLog.entry).bind
        unlogged.publishingFifth.world.fs.face? = some (.device .full) := by decide +kernel
    rw [holds_iff, hdev] at h
    cases h
  · exact hplain crowded_fails ⟨by decide +kernel, by decide +kernel, trivial⟩
      (oneName_of_entries (by decide +kernel))

end EngineDir
