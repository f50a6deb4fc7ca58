import EngineDir.Proofs.Effects

/-!
# What operations do to a store

What each operation leaves of the store's fields, whatever the file system answers.

* `Store.openFile_cases`, `Store.createFile_cases`: one more open file, or none.
* `Store.close_cases`, `Store.abandon_cases`: what becomes of the lock.
* `Handle.close_cases`, `Handle.abandon_cases`: **a handle frees its file once, by its close or
  by its drop.**
* `Handle.Same`: transfers neither open nor close a handle.
-/

namespace EngineDir

variable {fs : FileSystem} {now : Clock.Reading} {text : String}

namespace Store

variable {s : Store} {id : FileId}

/-- A store that was opened is at the beginning of its session. -/
theorem fresh_of_open? {fs' : FileSystem} {o : Options} (h : open? fs o = (.ok s, fs')) :
    ∃ dir log l, s = fresh dir o.syncManifest log l := by
  unfold open? at h
  split at h
  · cases h
  · split at h
    · cases h
    · split at h
      · cases h
      · unfold enter at h
        split at h
        · cases h
        · split at h
          · cases h
          · cases h
            exact ⟨_, _, _, rfl⟩

/-- What comes of opening the file `id`: nothing, or a new handle and one more open file. -/
structure Opens (s : Store) (id : FileId) (o : Outcome Handle) (x : Handle) : Prop where
  result : o.result = .ok x
  unclosed : s.closed = false
  free : id ∉ s.openIds
  id_eq : x.id = id
  live : x.isClosed = false
  store : o.store = { s with openIds := id :: s.openIds }

theorem openFile_cases (s : Store) (fs : FileSystem) (id : FileId) :
    ((∃ e, (s.openFile fs id).result = .error e) ∧ (s.openFile fs id).store = s) ∨
      ∃ x, s.Opens id (s.openFile fs id) x := by
  unfold openFile
  split
  · exact Or.inl ⟨⟨_, rfl⟩, rfl⟩
  · rename_i name ha
    obtain ⟨hc, -, hid⟩ := access_ok ha
    simp only
    split
    · exact Or.inl ⟨⟨_, rfl⟩, rfl⟩
    · exact Or.inr ⟨_, rfl, hc, hid, rfl, rfl, rfl⟩

theorem createFile_cases (s : Store) (fs : FileSystem) (id : FileId) :
    ((∃ e, (s.createFile fs id).result = .error e) ∧ (s.createFile fs id).store = s) ∨
      ∃ x, s.Opens id (s.createFile fs id) x := by
  unfold createFile
  split
  · exact Or.inl ⟨⟨_, rfl⟩, rfl⟩
  · rename_i name ha
    obtain ⟨hc, -, hid⟩ := access_ok ha
    simp only
    split
    · exact Or.inl ⟨⟨_, rfl⟩, rfl⟩
    · exact Or.inr ⟨_, rfl, hc, hid, rfl, rfl, rfl⟩

/-- A store whose log is at most further on. -/
def Relogged (s s' : Store) : Prop := ∃ log, SessionLog.Later s.log log ∧ s' = { s with log := log }

theorem Relogged.refl (s : Store) : s.Relogged s := ⟨s.log, .refl _, rfl⟩

/-- A line in the log. -/
theorem relogged_record :
    s.Relogged { s with log := (SessionLog.record s.log fs now text).1 } :=
  ⟨_, SessionLog.record_later s.log, rfl⟩

theorem removeFile_store : s.Relogged (s.removeFile fs now id).store := by
  unfold removeFile
  split
  · exact .refl s
  · simp only [warn_eq]
    split
    · exact relogged_record
    · exact .refl s

theorem setManifest_store : s.Relogged (s.setManifest fs now id).store := by
  unfold setManifest
  split
  · exact .refl s
  · split
    · exact .refl s
    · have hlater := Publication.after_later (s.proposal now id) (Publication.stepsFor id)
        (Publication.begin fs s.log)
      simp only
      split <;> exact ⟨_, hlater, rfl⟩

/-- What an open store tells of a publication is what the publication told in the end. -/
theorem setManifest_run (s : Store) (fs : FileSystem) (now : Clock.Reading)
    (hc : s.closed = false) (hk : id.kind = .manifest) :
    let u := Publication.run (s.proposal now id) fs s.log
    (s.setManifest fs now id).fs = u.fs ∧
      (s.setManifest fs now id).store = { s with log := u.log } ∧
      (∀ e, (s.setManifest fs now id).result = .error e ↔ u.error? = some e) := by
  have hck : ¬(s.closed = true) := by simp [hc]
  have hkk : ¬(id.kind ≠ .manifest) := not_not_intro hk
  unfold setManifest
  rw [if_neg hck, if_neg hkk]
  simp only
  cases he : (Publication.run (s.proposal now id) fs s.log).error? with
  | none => exact ⟨rfl, rfl, by simp⟩
  | some e => exact ⟨rfl, rfl, by simp⟩

/-- A closed store, and a store that is asked to publish another file, do nothing. -/
theorem setManifest_refuse (fs : FileSystem) (now : Clock.Reading)
    (h : s.closed = true ∨ id.kind ≠ .manifest) :
    ∃ e, s.setManifest fs now id = .refuse fs s e ∧ e.cause? = none := by
  unfold setManifest
  by_cases hc : s.closed = true
  · exact ⟨.closed, if_pos hc, rfl⟩
  · rw [if_neg hc]
    have hk : id.kind ≠ .manifest := h.resolve_left hc
    exact ⟨.invalidKind id.kind, if_pos hk, rfl⟩

theorem logMessage_store : s.Relogged (s.logMessage fs now text).1 := by
  unfold logMessage
  split
  · exact .refl s
  · rw [record_eq]
    exact relogged_record

/-- What comes of a close: nothing if the store is closed or files are open; otherwise it is closed
and its lock is gone, also when the log cannot be written back. -/
theorem close_cases (s : Store) (fs : FileSystem) (now : Clock.Reading) :
    (s.Relogged (s.close fs now).store ∧
        (s.closed = true ∨ s.openIds ≠ []) ∧ Leads Change.Mild fs (s.close fs now).fs) ∨
      (s.closed = false ∧ s.openIds = [] ∧ (s.close fs now).fs = s.releaseLock fs ∧
        (s.close fs now).store = { s.vacated with closed := true }) := by
  unfold close
  split
  · rename_i hc
    exact Or.inl ⟨.refl s, Or.inl hc, .refl⟩
  · rename_i hc
    split
    · rename_i hn
      simp only [warn_eq]
      refine Or.inl ⟨relogged_record, Or.inr ?_, SessionLog.record_leads s.log⟩
      simpa [openCount] using hn
    · rename_i hn
      refine Or.inr ⟨by simpa using hc, ?_, rfl, rfl⟩
      simpa [openCount] using hn

/-- What comes of letting go: the lock stays if the store is closed or files are open. -/
theorem abandon_cases (s : Store) (fs : FileSystem) (now : Clock.Reading) :
    ∃ fs₁, Leads Change.Mild fs fs₁ ∧
      ((∃ log, SessionLog.Later s.log log ∧ (s.closed = true ∨ s.openIds ≠ []) ∧
          (s.abandon fs now).fs = fs₁ ∧
          (s.abandon fs now).store = { s with owned := false, closed := true, log := log }) ∨
        (s.closed = false ∧ s.openIds = [] ∧ (s.abandon fs now).fs = s.releaseLock fs₁ ∧
          (s.abandon fs now).store = { s.vacated with owned := false, closed := true })) := by
  unfold abandon
  split
  · rename_i hc
    refine ⟨fs, .refl, Or.inl ⟨s.log, .refl _, Or.inl hc, rfl, ?_⟩⟩
    simp only [← hc]
  · rename_i hc
    simp only [warn_eq]
    generalize "storage dropped without close, " ++ countText s.openCount ++
      " files still open" = text
    refine ⟨(SessionLog.record s.log fs now text).2, SessionLog.record_leads s.log, ?_⟩
    split
    · rename_i hn
      refine Or.inl ⟨_, SessionLog.record_later s.log, Or.inr ?_, rfl, rfl⟩
      simpa [openCount] using hn
    · rename_i hn
      refine Or.inr ⟨by simpa using hc, ?_, rfl, rfl⟩
      simpa [openCount] using hn

/-- What comes of taking the turn. -/
theorem takeTurn_cases (s : Store) (fs : FileSystem) :
    ((∃ e, (s.takeTurn fs).result = .error e) ∧ (s.takeTurn fs).store = s) ∨
      ((s.takeTurn fs).result = .ok s.nextToken ∧ s.closed = false ∧
        (s.takeTurn fs).store =
          { s with turn := some s.nextToken, nextToken := s.nextToken + 1 }) := by
  unfold takeTurn
  split
  · exact Or.inl ⟨⟨_, rfl⟩, rfl⟩
  · rename_i hc
    split
    · exact Or.inl ⟨⟨_, rfl⟩, rfl⟩
    · exact Or.inr ⟨rfl, by simpa using hc, rfl⟩

/-- The end of a turn changes the turn and nothing else of a store. -/
theorem endTurn_eq (s : Store) (token : Nat) : ∃ turn, s.endTurn token = { s with turn := turn } := by
  unfold endTurn
  split
  · exact ⟨_, rfl⟩
  · exact ⟨s.turn, rfl⟩

end Store

namespace Handle

variable {s : Store} {h x : Handle}

/-- Two states of one handle, both open or both closed. -/
structure Same (h x : Handle) : Prop where
  id : x.id = h.id
  isClosed : x.isClosed = h.isClosed

theorem Same.refl (h : Handle) : Same h h := ⟨rfl, rfl⟩

theorem isClosed_of_file {f : OpenFile} (hf : h.file = some f) : h.isClosed = false := by
  simp [isClosed, hf]

theorem isClosed_of_file? {f : OpenFile} (hf : h.file? = .ok f) : h.isClosed = false := by
  unfold file? at hf
  split at hf
  · cases hf
  · rename_i f' hfile
    simp [isClosed, hfile]

theorem same_advanced {f : OpenFile} (hf : h.file? = .ok f) (count : Nat) :
    Same h (h.advanced fs f count) :=
  ⟨rfl, (isClosed_of_file? hf).symm⟩

theorem same_read (count : Nat) : Same h (h.read fs count).2 := by
  unfold read
  split
  · exact Same.refl h
  · rename_i f hf
    split
    · exact Same.refl h
    · exact same_advanced hf _

theorem same_readExact (count : Nat) : Same h (h.readExact fs count).2 := by
  have hr : Same h (h.read fs count).2 := same_read count
  unfold readExact
  split
  · exact Same.refl h
  · split
    · rename_i e x' he
      rw [he] at hr
      exact hr
    · rename_i b x' he
      rw [he] at hr
      split <;> exact hr

theorem same_readAll : Same h (h.readAll fs).2 := by
  unfold readAll
  split
  · exact Same.refl h
  · split
    · exact Same.refl h
    · split
      · exact Same.refl h
      · exact same_read _

theorem same_seek (m : Movement) : Same h (h.seek fs m).2 := by
  unfold seek
  split
  · exact Same.refl h
  · rename_i f hf
    split
    · exact Same.refl h
    · exact ⟨rfl, (isClosed_of_file? hf).symm⟩

theorem same_write (bytes : Bytes) : Same h (h.write fs bytes).2.1 := by
  unfold write
  split
  · exact Same.refl h
  · rename_i f hf
    simp only
    split
    · exact Same.refl h
    · exact same_advanced hf _

theorem isClosed_shut : h.shut.isClosed = true := rfl

/-- What comes of a close: the file is free and the handle shut, whatever is answered; a handle that
is shut refuses it. -/
theorem close_cases (h : Handle) (s : Store) (fs : FileSystem) (now : Clock.Reading) :
    (h.isClosed = true ∧ h.close fs s now = (.refuse fs s .closed, h)) ∨
      (h.isClosed = false ∧ (h.close fs s now).2 = h.shut ∧
        (h.close fs s now).1.result ≠ .error .closed ∧
        ∃ log, SessionLog.Later s.log log ∧
          (h.close fs s now).1.store = { s.freed h.id with log := log }) := by
  unfold close
  split
  · rename_i hf
    exact Or.inl ⟨by simp [isClosed, hf], rfl⟩
  · rename_i f hf
    refine Or.inr ⟨by simp [isClosed, hf], ?_⟩
    simp only [Store.warn_eq]
    split
    · exact ⟨rfl, by simp, _, SessionLog.record_later s.log, rfl⟩
    · exact ⟨rfl, by simp, s.log, .refl _, rfl⟩

/-- What comes of a drop: a handle that is not shut frees its file and counts as leaked. -/
theorem abandon_cases (h : Handle) (s : Store) (fs : FileSystem) (now : Clock.Reading) :
    (h.isClosed = true ∧ (h.abandon fs s now).fs = fs ∧ (h.abandon fs s now).store = s) ∨
      (h.isClosed = false ∧ ∃ log, SessionLog.Later s.log log ∧ (h.abandon fs s now).store =
        { s.freed h.id with leaked := s.leaked + 1, log := log }) := by
  unfold abandon
  split
  · rename_i hf
    exact Or.inl ⟨by simp [isClosed, hf], rfl, rfl⟩
  · rename_i f hf
    refine Or.inr ⟨by simp [isClosed, hf], ?_⟩
    simp only [Store.warn_eq]
    exact ⟨_, SessionLog.record_later s.log, rfl⟩

end Handle

end EngineDir
