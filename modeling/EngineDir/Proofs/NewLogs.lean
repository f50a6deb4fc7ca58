import EngineDir.Proofs.Rotation

/-!
# New logs

A log that is begun with rotation gets a file that nothing else has a name for, and what it moves out
of the way is not touched, whoever still writes to it.

* `SessionLog.Begun`: what a new log has made of its directory. `SessionLog.start_rotating`: **a log
  that is begun with rotation gets a new file**, by whatever path its directory is reached.
* `SessionLog.write_elsewhere`: a line changes one file.
-/

namespace EngineDir

open FileSystem

namespace SessionLog

/-! ## New logs -/

variable {fs fs' : FileSystem} {t : Trail} {m : Nat} {D i j k : NodeId} {dir : Bytes}

/-- What a log that was begun with rotation has made of the directory `D`: its file, which is the
node `i`, is a new one, and the one before it has become the old log. -/
structure Begun (D : NodeId) (fs fs' : FileSystem) (i : NodeId) : Prop where
  fresh : fs.face? i = none
  lookup : fs'.lookup D entry = some i
  face : ∀ j, fs'.face? j = if j = i then some (.file []) else fs.face? j
  moved : ∀ j, fs.lookup D entry = some j → fs'.lookup D oldEntry = some j
  kept : fs.lookup D entry = none → fs'.lookup D oldEntry = fs.lookup D oldEntry

/-- When no log is in the way, a file is made for the new one. -/
theorem openForWriting_free (hs : fs.Sound) (ha : fs.Arrives dir t m)
    (hfree : fs.lookup t.here entry = none) (hmake : fs.refusals.make (pathIn dir) = none) :
    fs.openForWriting true (pathIn dir) = .ok (fs.make t.here entry (.file []), fs.nextId t.here) ∧
      (Change.make t.here entry (.file [])).Fits fs := by
  have hlink : NoLink fs t.here entry := by
    intro j g hj
    rw [hfree] at hj
    cases hj
  have hopen := ha.openForWriting nameable_log.proper nameable_log.length_le hlink true
  rw [hfree, show fs.refusals.make (join dir entry) = none from hmake] at hopen
  exact ⟨hopen, (ha.stands hs).isDirectory hs, nameable_log.proper, nameable_log.length_le, hfree,
    trivial⟩

/-- What is left when the log was moved out of the way: the way to the directory, and no log. -/
theorem rotated_clear (hs : fs.Sound) (ha : fs.Arrives dir t m) (hlog : fs.Regular t.here entry)
    (hold : fs.Regular t.here oldEntry) (hapart : fs.Separate t.here entry oldEntry)
    (hgrant : fs.refusals.rename (pathIn dir) (oldPathIn dir) = none) :
    (rotated fs dir).Sound ∧ (rotated fs dir).Arrives dir t m ∧
      (rotated fs dir).refusals = fs.refusals ∧
      (rotated fs dir).lookup t.here entry = none ∧
      (∀ j, (rotated fs dir).face? j = fs.face? j) ∧
      (∀ j, fs.lookup t.here entry = some j → (rotated fs dir).lookup t.here oldEntry = some j) ∧
      (fs.lookup t.here entry = none →
        (rotated fs dir).lookup t.here oldEntry = fs.lookup t.here oldEntry) := by
  have hD := (ha.stands hs).isDirectory hs
  cases hl : fs.lookup t.here entry with
  | none =>
    rw [rotated_missing hs ha hl]
    exact ⟨hs, ha, rfl, hl, fun _ => rfl, fun j hj => (by cases hj), fun _ => rfl⟩
  | some i =>
    obtain ⟨b, hb⟩ := hlog.face hl
    obtain ⟨hfits, hmoved⟩ := rotated_file hs ha hl hb hold hapart hgrant
    have hdir : (fs.unbind t.here entry).isDirectory t.here = true := by
      rw [isDirectory_unbind]
      exact hD
    -- the two names are those of files, or free, so the move blocks no road
    have hroads : Roads fs ((move t.here i).apply fs) := by
      refine roads_apply hfits hs fun k n j hj hface => ?_
      have hnofile : ∀ c, fs.face? j ≠ some (.file c) := by
        intro c hc
        rw [hc] at hface
        rcases hface with h | ⟨g, h⟩ <;> cases h
      have hnew : ¬(k = t.here ∧ n = oldEntry) := by
        rintro ⟨rfl, rfl⟩
        obtain ⟨c, hc⟩ := hold.face hj
        exact hnofile c hc
      have hgone : ¬(k = t.here ∧ n = entry) := by
        rintro ⟨rfl, rfl⟩
        obtain ⟨c, hc⟩ := hlog.face hj
        exact hnofile c hc
      simp only [Change.apply]
      rw [lookup_bind hdir, if_neg hnew, lookup_unbind, if_neg hgone, hj]
    have hnow : ((move t.here i).apply fs).lookup t.here oldEntry = some i :=
      (lookup_bind hdir).trans (if_pos ⟨rfl, rfl⟩)
    rw [hmoved]
    refine ⟨Change.sound hfits hs, ha.roads hroads, Change.refusals_apply, move_free hD,
      fun j => ?_, ?_, ?_⟩
    · simp [Change.apply]
    · intro j hj
      rw [← Option.some.inj hj]
      exact hnow
    · intro h
      cases h

/-- **A log that is begun with rotation gets a new file**, and the file of the one before it becomes
the old log, unless the system refuses that. The directory is where it was. -/
theorem start_rotating (hs : fs.Sound) (ha : fs.Arrives dir t m) (hlog : fs.Regular t.here entry)
    (hold : fs.Regular t.here oldEntry) (hapart : fs.Separate t.here entry oldEntry)
    (hgrant : fs.refusals.rename (pathIn dir) (oldPathIn dir) = none)
    (hmake : fs.refusals.make (pathIn dir) = none) :
    ∃ i fs', start fs dir true = (.ok ⟨pathIn dir, ⟨i, 0⟩, .unused⟩, fs') ∧ fs'.Sound ∧
      t.Stands fs' ∧ fs'.refusals = fs.refusals ∧ Begun t.here fs fs' i := by
  obtain ⟨hs₁, ha₁, href, hfree, hface, hmoved, hkept⟩ := rotated_clear hs ha hlog hold hapart hgrant
  obtain ⟨hopen, hfits⟩ := openForWriting_free hs₁ ha₁ hfree (by rw [href]; exact hmake)
  have hlook : ∀ {k n}, ((rotated fs dir).make t.here entry (.file [])).lookup k n =
      if k = t.here ∧ n = entry then some ((rotated fs dir).nextId t.here)
      else (rotated fs dir).lookup k n := lookup_make hfits.1 (hs₁.fresh _) hfits.2.2.2.2.entries
  have hold' : ((rotated fs dir).make t.here entry (.file [])).lookup t.here oldEntry =
      (rotated fs dir).lookup t.here oldEntry := by
    rw [hlook, if_neg fun h => entry_ne_oldEntry h.2.symm]
  have hleads : Leads Change.Gentle (rotated fs dir)
      ((rotated fs dir).make t.here entry (.file [])) := .one hfits trivial
  refine ⟨(rotated fs dir).nextId t.here, _, ?_, hleads.sound hs₁,
    stands_leads hleads hs₁ (ha₁.stands hs₁), hleads.refusals.trans href, ?_⟩
  · unfold start
    simp only [if_true, hopen]
  · refine ⟨(hface _).symm.trans (hs₁.fresh _), hlook.trans (if_pos ⟨rfl, rfl⟩), fun j => ?_,
      fun j hj => hold'.trans (hmoved j hj), fun h => hold'.trans (hkept h)⟩
    rw [face?_make, hface]
    rfl

/-- What has a face is not the new file. -/
theorem Begun.face_old (h : Begun D fs fs' i) {f : Face} (hf : fs.face? j = some f) :
    j ≠ i ∧ fs'.face? j = some f := by
  have hne : j ≠ i := by
    rintro rfl
    rw [h.fresh] at hf
    cases hf
  exact ⟨hne, by rw [h.face, if_neg hne, hf]⟩

/-- The two logs are not one file. -/
theorem Begun.separate (h : Begun D fs fs' i) (hs : fs.Sound) : fs'.Separate D entry oldEntry := by
  intro j hj hj'
  obtain rfl := Option.some.inj (h.lookup.symm.trans hj)
  -- what the old log is now was there before
  obtain ⟨f, hf⟩ : ∃ f, fs.face? i = some f := by
    cases hl : fs.lookup D entry with
    | none => exact hs.bound ((h.kept hl).symm.trans hj')
    | some k =>
      obtain rfl := Option.some.inj ((h.moved k hl).symm.trans hj')
      exact hs.bound hl
  rw [h.fresh] at hf
  cases hf

/-- The log that was there has become the old log, or the old log is what it was. -/
theorem Begun.rotated (h : Begun D fs fs' i) (hs : fs.Sound) (hlog : fs.Regular D entry)
    (hold : fs.Regular D oldEntry) : Rotated D True fs fs' := by
  have hmoved : ∀ b, fs.Holds D entry b → fs'.Holds D oldEntry b := by
    rintro b ⟨j, hj, hb⟩
    exact ⟨j, h.moved j hj, (h.face_old hb).2⟩
  have hkept : fs.lookup D entry = none → Stays D oldEntry fs fs' := by
    refine fun hfree => ⟨h.kept hfree, fun j hj => ?_⟩
    obtain ⟨f, hf⟩ := hs.bound hj
    rw [hf, (h.face_old hf).2]
  refine ⟨?_, fun _ => hmoved, fun hr => hkept (hr.resolve_left (not_not_intro trivial))⟩
  rcases hlog with hfree | ⟨b, hb⟩
  · exact hold.stays (hkept hfree)
  · exact Or.inr ⟨b, hmoved b hb⟩

/-- A line changes the contents of one file, and nothing else. -/
theorem write_elsewhere (l : SessionLog) (fs : FileSystem) (now : Clock.Reading) (text : String) :
    (∀ i n, (l.write fs now text).2.lookup i n = fs.lookup i n) ∧
      ∀ j, j ≠ l.file.node → (l.write fs now text).2.face? j = fs.face? j := by
  rcases (l.write_cases fs now text).2 with he | ⟨b, b', hb, he⟩
  · rw [he]
    exact ⟨fun _ _ => rfl, fun _ _ => rfl⟩
  · rw [he]
    exact ⟨fun _ _ => lookup_fill hb, fun j hj => (face?_setNode _).trans (if_neg hj)⟩

end SessionLog

/-- A name that is free or that of a file is so after changes that leave what it is bound to. -/
theorem FileSystem.Regular.leads {Q : Change → Prop} {fs fs' : FileSystem} {D : NodeId} {n : Bytes}
    (h : fs.Regular D n) (hs : fs.Sound) (hl : Leads Q fs fs')
    (hlook : fs'.lookup D n = fs.lookup D n) : fs'.Regular D n := by
  rcases h with hfree | ⟨b, i, hi, hb⟩
  · exact Or.inl (hlook.trans hfree)
  · rcases hl.face? hs hb with hsame | ⟨-, b', -, hb'⟩
    · exact Or.inr ⟨b, i, hlook.trans hi, hsame⟩
    · exact Or.inr ⟨b', i, hlook.trans hi, hb'⟩

end EngineDir
