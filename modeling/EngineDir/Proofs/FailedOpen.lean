import EngineDir.Proofs.Opening

/-!
# Opens that fail

An open that fails takes no lock and breaks no file. It may have made directories on the
way to its own, and a lock file that was missing. Where the lock is held by another, the log is not
touched. A log that was already moved out of the way stays there when the system does
not let a new one be made in its place; then `LOG` is missing.

* `FileSystem.OnlyLock`: what may be left, a lock file. `DirLock.acquire_error`,
  `DirLock.acquire_ok`: **a lock that is refused leaves nothing.**
* `FileSystem.LogAway`: the log was moved, and none came in its place.
* `SessionLog.start_error`: **a log that cannot be begun leaves the log before, or it was moved.**
* `Store.open?_error`: what is left of an open that fails, one stage after the other.
* `step_failedOpen`: **an open that fails takes no lock and leaves every file as it was.**
* `failedOpen_leaves`: **it does not leave every name where it was.**
-/

namespace EngineDir

open FileSystem

variable {fs fs' : FileSystem} {t : Trail} {i j : NodeId} {n dir : Bytes} {o : Options}

/-! ## What is made stands beside what was there -/

/-- What directories that are made add is themselves. -/
theorem Leads.lookup_new (h : Leads Change.AddsDirectory fs fs') (hs : fs.Sound)
    (hl : fs'.lookup i n = some j) : fs.lookup i n = some j ∨
      fs.face? j = none ∧ fs'.face? j = some .directory := by
  induction h generalizing i n j with
  | refl => exact Or.inl hl
  | @step fs₁ c hleads hc hq ih =>
    have hs₁ := hleads.sound hs
    rcases Change.lookup_of_apply hc hs₁ hl with hold | ⟨nd, rfl, rfl⟩ | ⟨i₀, n₀, rfl⟩
    · rcases ih hold with h₀ | ⟨hnew, hd⟩
      · exact Or.inl h₀
      · refine Or.inr ⟨hnew, ?_⟩
        have hstep : Leads Change.AddsDirectory fs₁ (c.apply fs₁) := .one hc hq
        rcases hstep.face? hs₁ hd with hsame | ⟨b, -, hb, -⟩
        · exact hsame
        · cases hb
    · obtain rfl := hq
      refine Or.inr ⟨?_, by simp [Change.apply, face?_make, emptyDirectory, Node.face]⟩
      -- what was there at first would still be there
      cases hf : fs.face? (fs₁.nextId i) with
      | none => rfl
      | some f =>
        obtain ⟨f', hf'⟩ := hleads.exists_face? hs ⟨f, hf⟩
        rw [hs₁.fresh] at hf'
        cases hf'
    · exact absurd hq id

/-- To make nodes changes none that was there. -/
theorem Leads.face?_adds (h : Leads Change.Adds fs fs') (hs : fs.Sound) {f : Face}
    (hf : fs.face? j = some f) : fs'.face? j = some f := by
  induction h with
  | refl => exact hf
  | @step fs₁ c hl hc hq ih =>
    cases c with
    | make i n nd =>
      have hne : j ≠ fs₁.nextId i := by
        rintro rfl
        rw [(hl.sound hs).fresh i] at ih
        cases ih
      rw [Change.apply, face?_make, if_neg hne]
      exact ih
    | _ => exact absurd hq id

theorem Leads.lookup_adds (h : Leads Change.Adds fs fs') (hs : fs.Sound)
    (hl : fs.lookup i n = some j) : fs'.lookup i n = some j :=
  h.lookup hs (fun _ hc => hc.gentle.spares n) hl

/-- **At most a lock file was made**: the one of the directory `dir`, or what a link in its place
leads to, where nothing was. -/
inductive FileSystem.LockMade (fs : FileSystem) (dir : Bytes) : FileSystem → Prop
  | same : LockMade fs dir fs
  | made {t : Trail} {n : Bytes} {trailing : Bool} :
      fs.walk .create (Path.ofText (DirLock.pathIn dir)) = .ok (.entry t n none trailing) →
      LockMade fs dir (fs.make t.here n (.file []))

namespace FileSystem.LockMade

theorem fits (hs : fs.Sound) {trailing : Bool}
    (hw : fs.walk .create (Path.ofText (DirLock.pathIn dir)) = .ok (.entry t n none trailing)) :
    (Change.make t.here n (.file [])).Fits fs :=
  make_fits hs (by decide) (walk_sound hs hw) trivial

theorem leads (h : LockMade fs dir fs') (hs : fs.Sound) : Leads Change.Adds fs fs' := by
  cases h with
  | same => exact .refl
  | made hw => exact .one (fits hs hw) trivial

/-- A name that is new is the place of the lock file, which is empty. -/
theorem new (h : LockMade fs dir fs') (hs : fs.Sound) (hl : fs'.lookup i n = some j) :
    fs.lookup i n = some j ∨ fs'.face? j = some (.file []) ∧ ∃ t trailing, t.here = i ∧
      fs.walk .create (Path.ofText (DirLock.pathIn dir)) = .ok (.entry t n none trailing) := by
  cases h with
  | same => exact Or.inl hl
  | @made t m trailing hw =>
    have hf := fits hs hw
    rw [lookup_make hf.1 (hs.fresh _) hf.2.2.2.2.entries] at hl
    split at hl
    · rename_i he
      obtain ⟨rfl, rfl⟩ := he
      cases hl
      exact Or.inr ⟨by simp [face?_make, Node.face], t, trailing, rfl, hw⟩
    · exact Or.inl hl

/-- Where the lock file is no link, it was missing from the directory itself. -/
theorem of_noLink (h : LockMade fs t.path fs') (hs : fs.Sound) (ht : t.Stands fs)
    (hn : NoLink fs t.here DirLock.entry) :
    fs' = fs ∨ fs.lookup t.here DirLock.entry = none ∧
      fs' = fs.make t.here DirLock.entry (.file []) := by
  cases h with
  | same => exact Or.inl rfl
  | @made t' m trailing hw =>
    have hwalk := (ht.arrives hs).walk_last (e := .create) nameable_lock.proper
      nameable_lock.length_le (by decide) hn
    rw [DirLock.pathIn, hwalk] at hw
    simp only [Except.ok.injEq, Spot.entry.injEq] at hw
    obtain ⟨rfl, rfl, hnone, -⟩ := hw
    exact Or.inr ⟨hnone, rfl⟩

end FileSystem.LockMade

/-- At most the lock file of the directory at the end of the trail `t` is new in `fs'`. -/
structure FileSystem.OnlyLock (fs : FileSystem) (t : Trail) (fs' : FileSystem) : Prop where
  made : LockMade fs t.path fs'
  /-- No other name is new: neither in the directory nor anywhere else. -/
  new : ∀ i n j, fs'.lookup i n = some j → fs.lookup i n = some j ∨
    fs'.face? j = some (.file []) ∧ ∃ t' trailing, t'.here = i ∧
      fs.walk .create (Path.ofText (DirLock.pathIn t.path)) = .ok (.entry t' n none trailing)
  /-- Unless `LOCK` is a link, it is the name that was missing. -/
  plain : NoLink fs t.here DirLock.entry → fs' = fs ∨
    fs.lookup t.here DirLock.entry = none ∧ fs' = fs.make t.here DirLock.entry (.file [])

theorem FileSystem.LockMade.onlyLock (h : LockMade fs t.path fs') (hs : fs.Sound)
    (ht : t.Stands fs) : OnlyLock fs t fs' :=
  ⟨h, fun _ _ _ hl => h.new hs hl, h.of_noLink hs ht⟩

theorem FileSystem.OnlyLock.refl (fs : FileSystem) (t : Trail) : OnlyLock fs t fs :=
  ⟨.same, fun _ _ _ hl => Or.inl hl, fun _ => Or.inl rfl⟩

/-- The log of the directory at the end of the trail `t` was moved to the old log, as was asked for,
and the system does not let another one be made: that is the failure `e`. -/
structure FileSystem.LogAway (fs : FileSystem) (o : Options) (t : Trail) (e : StoreError)
    (fs' : FileSystem) : Prop where
  asked : o.rotateLog = true
  refused : ∃ err, fs.refusals.make (SessionLog.pathIn t.path) = some err ∧
    e = .io "open log" (SessionLog.pathIn t.path) (.os err)
  /-- But for the lock file, the move is all that happened. -/
  moved : ∃ fs₁ k, OnlyLock fs t fs₁ ∧ fs₁.lookup t.here SessionLog.entry = some k ∧
    fs' = (SessionLog.move t.here k).apply fs₁

/-! ## The stages of an open -/

/-- What is opened for writing and not emptied is there already, or is made. -/
theorem FileSystem.openForWriting_keep {path : Bytes}
    (h : fs.openForWriting false path = .ok (fs', i)) :
    fs' = fs ∨ ∃ t n trailing, fs.walk .create (Path.ofText path) = .ok (.entry t n none trailing) ∧
      fs' = fs.make t.here n (.file []) ∧ i = fs.nextId t.here := by
  unfold openForWriting at h
  split at h
  · cases h
  · cases h
  · rename_i t n trailing hw
    split at h
    · cases h
    cases h
    exact Or.inr ⟨t, n, trailing, hw, rfl, rfl⟩
  · split at h <;> cases h
    · exact Or.inl rfl
    · exact Or.inl rfl

/-- A lock that is refused leaves nothing: what is made for it cannot be locked yet. -/
theorem DirLock.acquire_error (hs : fs.Sound) {e : StoreError}
    (h : DirLock.acquire fs dir = (.error e, fs')) : fs' = fs := by
  unfold DirLock.acquire at h
  simp only at h
  split at h
  · cases h
    rfl
  · rename_i fs₁ i ho
    split at h
    · rename_i hlock
      cases h
      rcases openForWriting_keep ho with hsame | ⟨t, m, trailing, -, rfl, rfl⟩
      · exact hsame
      · have hfresh : fs.nextId t.here ∉ fs.locked := by
          intro hmem
          obtain ⟨f, hf⟩ := hs.locked hmem
          rw [hs.fresh] at hf
          cases hf
        simp [tryLock, hfresh] at hlock
    · cases h

/-- A lock that is granted was free, and at most its file was made. -/
theorem DirLock.acquire_ok {l : DirLock} (h : DirLock.acquire fs dir = (.ok l, fs')) :
    ∃ fs₁, LockMade fs dir fs₁ ∧ l.node ∉ fs₁.locked ∧
      fs' = { fs₁ with locked := l.node :: fs₁.locked } := by
  unfold DirLock.acquire at h
  simp only at h
  split at h
  · cases h
  · rename_i fs₁ i ho
    split at h
    · cases h
    · rename_i hlock
      cases h
      obtain ⟨hfree, rfl⟩ := tryLock_eq_some.1 hlock
      refine ⟨fs₁, ?_, hfree, rfl⟩
      rcases openForWriting_keep ho with rfl | ⟨t, m, trailing, hw, rfl, -⟩
      · exact .same
      · exact .made hw

/-- A lock that is given up leaves no trace. -/
theorem FileSystem.unlock_locked (hi : i ∉ fs.locked) :
    ({ fs with locked := i :: fs.locked } : FileSystem).unlock i = fs := by
  have hfilter : (i :: fs.locked).filter (fun j => decide (j ≠ i)) = fs.locked := by
    rw [List.filter_cons_of_neg (by simp), List.filter_eq_self]
    intro j hj
    have hne : j ≠ i := by
      rintro rfl
      exact hi hj
    simpa using hne
  rw [unlock, hfilter]

/-- **A log that cannot be begun leaves the log before, or it was moved** and the system does not let
a new one be made. -/
theorem SessionLog.start_error {rotate : Bool} {e : StoreError} (hs : fs.Sound) (ht : t.Stands fs)
    (h : SessionLog.start fs t.path rotate = (.error e, fs')) :
    ∃ err, e = .io "open log" (SessionLog.pathIn t.path) (.os err) ∧
      (fs' = fs ∨ rotate = true ∧ fs.refusals.make (SessionLog.pathIn t.path) = some err ∧
        ∃ k, (SessionLog.move t.here k).Fits fs ∧ fs' = (SessionLog.move t.here k).apply fs) := by
  unfold SessionLog.start at h
  simp only at h
  split at h
  · rename_i err ho
    cases h
    refine ⟨err, rfl, ?_⟩
    cases rotate with
    | false => exact Or.inl rfl
    | true =>
      rw [if_pos rfl] at ho ⊢
      rcases SessionLog.rotated_cases hs ht with hsame | ⟨k, hfits, hmoved⟩
      · exact Or.inl hsame
      · -- nothing stands in the place of the old log any more
        have hfree := SessionLog.move_free (k := k) (ht.isDirectory hs)
        have hw := SessionLog.move_works (F := fun _ => False) ⟨⟨0, 0⟩, 0⟩ hfits
        rw [hmoved] at ho ⊢
        rw [pathIn, ((hw.stands hs ht).arrives (hw.sound hs)).openForWriting nameable_log.proper
          nameable_log.length_le (fun j g hj => by rw [hfree] at hj; cases hj) true, hfree,
          hw.refusals] at ho
        refine Or.inr ⟨rfl, ?_, k, hfits, rfl⟩
        simp only at ho
        split at ho
        · rename_i hmake
          cases ho
          exact hmake
        · cases ho
  · cases h

namespace Store

/-- An open that fails in its directory leaves at most the lock file, unless the log was moved, and
nothing if the lock was refused. -/
theorem enter_error {e : StoreError} (hs : fs.Sound) (ht : t.Stands fs)
    (h : enter fs o t.path = (.error e, fs')) :
    (OnlyLock fs t fs' ∨ LogAway fs o t e fs') ∧ ∀ p, e = .alreadyLocked p → fs' = fs := by
  unfold enter at h
  cases ha : DirLock.acquire fs t.path with
  | mk r fs₁ =>
    rw [ha] at h
    cases r with
    | error e' =>
      cases h
      obtain rfl := DirLock.acquire_error hs ha
      exact ⟨Or.inl (.refl _ _), fun _ _ => rfl⟩
    | ok l =>
      obtain ⟨fs₂, hmade, hfree, rfl⟩ := DirLock.acquire_ok ha
      have hleads := hmade.leads hs
      have hs₂ := hleads.sound hs
      have ht₂ : t.Stands fs₂ := stands_leads (hleads.mono fun _ hc => hc.gentle) hs ht
      -- to hold a lock makes no difference to where the names lead
      have hs₁ : ({ fs₂ with locked := l.node :: fs₂.locked } : FileSystem).Sound := by
        have hacq := DirLock.acquire_cases hs ha
        rcases hacq with ⟨e', he', -⟩ | ⟨l', fs₃, -, hl, -, -, hfit, heq⟩
        · cases he'
        · rw [heq]
          exact Change.sound hfit (hl.sound hs)
      have ht₁ : t.Stands ({ fs₂ with locked := l.node :: fs₂.locked } : FileSystem) :=
        ht₂.of_lookup hs₂ (fun _ _ _ => rfl) fun _ hd => hd
      have hback : DirLock.release { fs₂ with locked := l.node :: fs₂.locked } l = fs₂ :=
        unlock_locked hfree
      have honly := hmade.onlyLock hs ht
      cases hst : SessionLog.start { fs₂ with locked := l.node :: fs₂.locked } t.path o.rotateLog with
      | mk r fs₃ =>
        simp only [hst] at h
        cases r with
        | ok log => cases h
        | error e' =>
          cases h
          obtain ⟨err, rfl, rfl | ⟨hrot, hmake, k, hfits, rfl⟩⟩ := SessionLog.start_error hs₁ ht₁ hst
          · rw [hback]
            exact ⟨Or.inl honly, fun p hp => by cases hp⟩
          · rw [DirLock.release] at hback
            have hgone : DirLock.release ((SessionLog.move t.here k).apply
                { fs₂ with locked := l.node :: fs₂.locked }) l =
                (SessionLog.move t.here k).apply fs₂ := by
              simp only [DirLock.release, Change.apply, FileSystem.bind, unbind, unlock_mapDirectory,
                hback]
            refine ⟨Or.inr ⟨hrot, ⟨err, hleads.refusals.symm ▸ hmake, rfl⟩, fs₂, k, honly, hfits.1,
              hgone⟩, fun p hp => by cases hp⟩

/-- To prepare a directory that is there makes nothing. -/
theorem prepare_there (h : fs.leadsToDirectory (Path.ofText o.dir) = true) :
    prepare fs o = (.ok (), fs) := by
  unfold prepare
  rw [makeDirectories_there h]
  simp only [h, if_true]
  split <;> rfl

/-- What was prepared is where the path leads. -/
theorem prepare_leadsToDirectory (hs : fs.Sound) (h : prepare fs o = (.ok (), fs')) :
    fs'.leadsToDirectory (Path.ofText o.dir) = true := by
  unfold prepare at h
  split at h
  · split at h
    · cases h
    · rename_i hm
      cases h
      exact makeDirectories_leadsToDirectory hs hm
  · split at h
    · rename_i hd
      cases h
      exact hd
    · cases h

/-- A path that leads to a directory leads there by a trail. -/
theorem trail_of_leadsToDirectory (hs : fs.Sound) (h : fs.leadsToDirectory (Path.ofText dir) = true) :
    ∃ t : Trail, t.Stands fs ∧ fs.find (Path.ofText dir) = .ok t.here := by
  unfold leadsToDirectory at h
  split at h
  · cases h
  · rename_i D hf
    obtain ⟨-, t, m, ha, rfl⟩ := arrives_of_find hf h
    exact ⟨t, ha.stands hs, hf⟩

/-- **What is left of an open that fails**: directories that were missing on the way, and, in the
directory itself, at most the lock file, unless the log was moved. -/
theorem open?_error {e : StoreError} (hs : fs.Sound) (h : open? fs o = (.error e, fs')) :
    ∃ fs₁, Leads Change.AddsDirectory fs fs₁ ∧
      (fs.leadsToDirectory (Path.ofText o.dir) = true → fs₁ = fs) ∧
      (fs' = fs₁ ∨ ∃ t : Trail, t.Stands fs₁ ∧ fs₁.find (Path.ofText o.dir) = .ok t.here ∧
        (OnlyLock fs₁ t fs' ∨ LogAway fs₁ o t e fs') ∧ ∀ p, e = .alreadyLocked p → fs' = fs₁) := by
  unfold open? at h
  split at h
  · cases h
    exact ⟨fs, .refl, fun _ => rfl, Or.inl rfl⟩
  have hthere : fs.leadsToDirectory (Path.ofText o.dir) = true → (prepare fs o).2 = fs := by
    intro hd
    rw [prepare_there hd]
  have hadds : Leads Change.AddsDirectory fs (prepare fs o).2 := prepare_leads hs
  cases hp : prepare fs o with
  | mk r fs₁ =>
    rw [hp] at h hthere hadds
    refine ⟨fs₁, hadds, hthere, ?_⟩
    cases r with
    | error e' =>
      cases h
      exact Or.inl rfl
    | ok u =>
      have hs₁ := hadds.sound hs
      obtain ⟨t, ht, hf⟩ := trail_of_leadsToDirectory hs₁ (prepare_leadsToDirectory hs hp)
      obtain ⟨hne, t', m, ha, he⟩ := arrives_of_find hf (ht.isDirectory hs₁)
      obtain rfl := (ha.stands hs₁).unique hs₁ ht he
      simp only [ha.canonical hne] at h
      exact Or.inr ⟨t', ht, hf, enter_error hs₁ ht h⟩

end Store

/-! ## Opens that fail -/

namespace World

/-- What comes of an open that fails with `f`. -/
structure FailedOpen (w : World) (o : Options) (f : Failure) (r : Reaction) : Prop where
  /-- No store comes into use, nor anything else, and nobody is told of one. -/
  unused : r = { w with fs := r.world.fs }.answering (.error f)
  /-- The same locks are held. -/
  locked : r.world.fs.locked = w.fs.locked
  /-- Every file has the bytes that it had, and everything else is what it was. -/
  faces : ∀ j g, w.fs.face? j = some g → r.world.fs.face? j = some g
  /-- In a directory that was there, only the lock file can be new, unless the log was moved and none
  could be made in its place. -/
  there : w.fs.leadsToDirectory (Path.ofText o.dir) = true → ∃ t : Trail, t.Stands w.fs ∧
    w.fs.find (Path.ofText o.dir) = .ok t.here ∧
    (OnlyLock w.fs t r.world.fs ∨ ∃ e, f = .store e ∧ LogAway w.fs o t e r.world.fs)
  /-- Every name leads where it led, but for those of the two logs where the log was moved. -/
  entries : ∀ i n j, w.fs.lookup i n = some j → r.world.fs.lookup i n = some j ∨
    (n = SessionLog.entry ∨ n = SessionLog.oldEntry) ∧ ∃ fs₁ t e, t.here = i ∧ f = .store e ∧
      Leads Change.AddsDirectory w.fs fs₁ ∧ LogAway fs₁ o t e r.world.fs
  /-- If another holds the lock, at most directories were made on the way, and in a directory that
  was there nothing happens at all. -/
  held : ∀ p, f = .store (.alreadyLocked p) →
    (∀ i n j, w.fs.lookup i n = some j → r.world.fs.lookup i n = some j) ∧
    (∀ i n j, r.world.fs.lookup i n = some j → w.fs.lookup i n = some j ∨
      w.fs.face? j = none ∧ r.world.fs.face? j = some .directory) ∧
    (w.fs.leadsToDirectory (Path.ofText o.dir) = true → r.world = w)

/-- An open that fails and leaves the file system as it was. -/
theorem failedOpen_refl {w : World} (hs : w.fs.Sound) (o : Options) (f : Failure) :
    FailedOpen w o f (w.answering (.error f)) where
  unused := rfl
  locked := rfl
  faces _ _ hf := hf
  there hd := by
    obtain ⟨t, ht, hf⟩ := Store.trail_of_leadsToDirectory hs hd
    exact ⟨t, ht, hf, Or.inl (.refl _ _)⟩
  entries _ _ _ hl := Or.inl hl
  held _ _ := ⟨fun _ _ _ hl => hl, fun _ _ _ hl => Or.inl hl, fun _ => rfl⟩

/-- What a failure in the directory leaves of what was there before it. -/
theorem left_faces {e : StoreError} (hs : fs.Sound) (h : OnlyLock fs t fs' ∨ LogAway fs o t e fs')
    {f : Face} (hf : fs.face? j = some f) : fs'.face? j = some f := by
  rcases h with honly | hmoved
  · exact (honly.made.leads hs).face?_adds hs hf
  · obtain ⟨fs₁, k, honly, -, rfl⟩ := hmoved.moved
    have hkept : fs₁.face? j = some f := (honly.made.leads hs).face?_adds hs hf
    simpa [Change.apply] using hkept

theorem left_lookup {e : StoreError} (hs : fs.Sound) (ht : t.Stands fs)
    (h : OnlyLock fs t fs' ∨ LogAway fs o t e fs') (hl : fs.lookup i n = some j) :
    fs'.lookup i n = some j ∨
      (n = SessionLog.entry ∨ n = SessionLog.oldEntry) ∧ t.here = i ∧ LogAway fs o t e fs' := by
  rcases h with honly | haway
  · exact Or.inl ((honly.made.leads hs).lookup_adds hs hl)
  · have hmoved := haway
    obtain ⟨fs₁, k, honly, -, rfl⟩ := hmoved.moved
    have hadds := honly.made.leads hs
    have hdir : (fs₁.unbind t.here SessionLog.entry).isDirectory t.here = true := by
      rw [isDirectory_unbind]
      exact hadds.isDirectory hs (ht.isDirectory hs)
    by_cases hi : i = t.here ∧ (n = SessionLog.entry ∨ n = SessionLog.oldEntry)
    · exact Or.inr ⟨hi.2, hi.1.symm, haway⟩
    · rw [not_and, not_or] at hi
      refine Or.inl ?_
      rw [Change.apply, lookup_bind hdir, if_neg fun he => (hi he.1).2 he.2, lookup_unbind,
        if_neg fun he => (hi he.1).1 he.2]
      exact hadds.lookup_adds hs hl

/-- **An open that fails takes no lock and leaves every file as it was.** -/
theorem step_failedOpen {w : World} {now : Clock.Reading} {s : Nat} {o : Options} {f : Failure}
    (hs : w.fs.Sound) (h : (step now w (.openStore s o)).answer = .error f) :
    FailedOpen w o f (step now w (.openStore s o)) := by
  by_cases hc : w.stores.contains s = true
  · have hstep : step now w (.openStore s o) = w.answering (.error .misnamed) := if_pos hc
    rw [hstep] at h ⊢
    cases h
    exact failedOpen_refl hs o _
  have hstep : step now w (.openStore s o) = w.stepOpen s o := if_neg hc
  rw [hstep] at h ⊢
  unfold stepOpen at h ⊢
  cases ho : Store.open? w.fs o with
  | mk r fs' =>
    rw [ho] at h
    cases r with
    | ok st => cases h
    | error e =>
      cases h
      have hlocked : fs'.locked = w.fs.locked := by
        rcases (Store.open?_cases hs ho).2 with ⟨-, -, hk⟩ | ⟨_, _, _, _, he, -⟩
        · exact hk
        · cases he
      obtain ⟨fs₁, hdirs, hsame, hleft⟩ := Store.open?_error hs ho
      have hs₁ := hdirs.sound hs
      have hadds : Leads Change.Adds w.fs fs₁ := hdirs.mono fun _ hc => hc.adds
      refine ⟨rfl, hlocked, ?_, ?_, ?_, ?_⟩
      · intro j g hj
        have hj₁ := hadds.face?_adds hs hj
        rcases hleft with rfl | ⟨t, -, -, hleft, -⟩
        · exact hj₁
        · exact left_faces hs₁ hleft hj₁
      · intro hd
        obtain rfl := hsame hd
        rcases hleft with rfl | ⟨t, ht, hf, hleft, -⟩
        · exact (failedOpen_refl hs o (.store e)).there hd
        · exact ⟨t, ht, hf, hleft.imp_right fun haway => ⟨e, rfl, haway⟩⟩
      · intro i n j hl
        have hl₁ := hadds.lookup_adds hs hl
        rcases hleft with rfl | ⟨t, ht, -, hleft, -⟩
        · exact Or.inl hl₁
        · refine (left_lookup hs₁ ht hleft hl₁).imp_right ?_
          rintro ⟨hn, hi, haway⟩
          exact ⟨hn, fs₁, t, e, hi, rfl, hdirs, haway⟩
      · intro p hp
        obtain rfl : e = .alreadyLocked p := by
          cases hp
          rfl
        obtain rfl : fs' = fs₁ := by
          rcases hleft with rfl | ⟨t, -, -, -, hheld⟩
          · rfl
          · exact hheld p rfl
        refine ⟨fun _ _ _ hl => hadds.lookup_adds hs hl, fun _ _ _ hl => hdirs.lookup_new hs hl,
          fun hd => ?_⟩
        rw [hsame hd]
        rfl

/-- An open of a directory that is in use, and one whose log is a directory, which fails with the
lock in its hands. -/
theorem step_failedOpen_session :
    FailedOpen ((ofFileSystem .initial).run session) { dir := Utf8.encode ['/', 'd', 'b'] }
      (.store (.alreadyLocked (Utf8.encode ['/', 'd', 'b', '/', 'L', 'O', 'C', 'K'])))
      (step ⟨⟨0, 0⟩, 0⟩ ((ofFileSystem .initial).run session)
        (.openStore 1 { dir := Utf8.encode ['/', 'd', 'b'] })) ∧
    FailedOpen ((ofFileSystem .initial).run [(⟨⟨0, 0⟩, 0⟩,
        .outside (.makeDirectories (Utf8.encode ['/', 'd', 'b', '/', 'L', 'O', 'G'])))])
      { dir := Utf8.encode ['/', 'd', 'b'], rotateLog := false }
      (.store (.io "open log" (Utf8.encode ['/', 'd', 'b', '/', 'L', 'O', 'G']) (.os .isDirectory)))
      (step ⟨⟨0, 0⟩, 0⟩ ((ofFileSystem .initial).run [(⟨⟨0, 0⟩, 0⟩,
        .outside (.makeDirectories (Utf8.encode ['/', 'd', 'b', '/', 'L', 'O', 'G'])))])
        (.openStore 0 { dir := Utf8.encode ['/', 'd', 'b'], rotateLog := false })) :=
  ⟨step_failedOpen (run_sound FileSystem.initial_sound _) rfl,
    step_failedOpen (run_sound FileSystem.initial_sound _) rfl⟩

/-- A log in `/db`, where the system lets no file be made by the path of the log. -/
def unreplaceable : World :=
  (ofFileSystem { FileSystem.furnished with refusals := { SystemRefusals.never with
    make := fun path =>
      if path = SessionLog.pathIn Trail.toDb.path then some .noSpace else none } }).run
    [(⟨⟨0, 0⟩, 0⟩, .outside (.write (Utf8.encode ['/', 'd', 'b', '/', 'x']) [97])),
      (⟨⟨0, 0⟩, 0⟩, .outside (.rename (Utf8.encode ['/', 'd', 'b', '/', 'x'])
        (SessionLog.pathIn Trail.toDb.path)))]

/-- **An open that fails does not leave every name where it was.** The log is gone when no other can
be made; and `x/../db` makes `x` before the lock is refused. -/
theorem failedOpen_leaves :
    (unreplaceable.fs.Sound ∧
      unreplaceable.fs.leadsToDirectory (Path.ofText Trail.toDb.path) = true ∧
      (step ⟨⟨0, 0⟩, 0⟩ unreplaceable (.openStore 0 { dir := Trail.toDb.path })).answer =
        .error (.store (.io "open log" (SessionLog.pathIn Trail.toDb.path) (.os .noSpace))) ∧
      (unreplaceable.fs.lookup Trail.toDb.here SessionLog.entry).isSome = true ∧
      (step ⟨⟨0, 0⟩, 0⟩ unreplaceable (.openStore 0 { dir := Trail.toDb.path })).world.fs.lookup
        Trail.toDb.here SessionLog.entry = none) ∧
    (step ⟨⟨0, 0⟩, 0⟩ ((ofFileSystem .initial).run session)
        (.openStore 1 { dir := Utf8.encode ['x', '/', '.', '.', '/', 'd', 'b'] })).answer =
      .error (.store (.alreadyLocked (Utf8.encode ['/', 'd', 'b', '/', 'L', 'O', 'C', 'K']))) ∧
    ((ofFileSystem .initial).run session).fs.lookup root (Utf8.encode ['x']) = none ∧
    ((step ⟨⟨0, 0⟩, 0⟩ ((ofFileSystem .initial).run session)
        (.openStore 1 { dir := Utf8.encode ['x', '/', '.', '.', '/', 'd', 'b'] })).world.fs.lookup
      root (Utf8.encode ['x'])).isSome = true :=
  ⟨⟨run_sound (furnished_sound.refusing _) _, by decide +kernel, rfl, by decide +kernel,
    by decide +kernel⟩, rfl, by decide +kernel, by decide +kernel⟩

end World

end EngineDir
