import EngineDir.Proofs.Duties
import EngineDir.Proofs.FileSystem.Preparing
import EngineDir.Proofs.OneOwner

/-!
# Opening a directory

To open a directory that is there touches its control files `LOCK`, `LOG` and `LOG.old`,
and nothing else; if the lock is held by another it touches nothing at all.

* `Store.prepare_same`: a path without `..` to a directory that was there makes nothing.
* `DirLock.acquire_works`, `SessionLog.start_works`: what is touched for the lock and the log.
* `Store.Entered`: a store that was just opened. `Store.enter_works`: **what is touched by an
  open, and what it leaves.**
* `Store.open?_enter`: an open is refused at once, or enters the directory.
-/

namespace EngineDir

open FileSystem

variable {fs fs' : FileSystem} {t : Trail} {D i : NodeId} {o : Options}
  {rotate : Bool}

/-- The entry of the log of the session before. -/
abbrev SessionLog.oldEntry : Bytes := Utf8.encode SessionLog.oldFileName

theorem SessionLog.entry_ne_oldEntry : SessionLog.entry ≠ SessionLog.oldEntry := by
  intro h
  have hnames := Utf8.encode_injective h
  revert hnames
  decide

/-- To prepare a directory that was there makes nothing, if its path has no `..`. -/
theorem Store.prepare_same (hs : fs.Sound) (hup : Part.up ∉ (Path.ofText o.dir).parts)
    (hi : fs.isDirectory i = true)
    (h : (Store.prepare fs o).2.find (Path.ofText o.dir) = .ok i) : (Store.prepare fs o).2 = fs := by
  have hmade : ∀ r, fs.makeDirectories o.dir = (r, (Store.prepare fs o).2) →
      (Store.prepare fs o).2 = fs := by
    intro r hr
    have hsame : (fs.makeDirectories o.dir).2 = fs :=
      makeDirectories_same hs hup hi (by rw [hr]; exact h)
    rwa [hr] at hsame
  revert hmade h
  unfold Store.prepare
  split
  · cases hr : fs.makeDirectories o.dir with
    | mk r fs₁ =>
      cases r with
      | error e => exact fun _ hmade => hmade _ rfl
      | ok u => exact fun _ hmade => hmade _ rfl
  · split
    · exact fun _ _ => rfl
    · exact fun _ _ => rfl

/-! ## The lock -/

/-- What is touched for the lock of a directory, and what is locked then. If it is locked already,
nothing is touched. -/
theorem DirLock.acquire_works (now : Clock.Reading) (hs : fs.Sound) (ht : t.Stands fs)
    (hn : NoLink fs t.here DirLock.entry) {F : Bytes → Prop} {r : Except StoreError DirLock}
    (h : DirLock.acquire fs t.path = (r, fs')) :
    Works t.here F (fun n => n = DirLock.entry) now fs none [] fs' none ∧
      (∀ l, r = .ok l → fs'.lookup t.here DirLock.entry = some l.node ∧ l.node ∉ fs.locked) ∧
      ∀ i, fs.lookup t.here DirLock.entry = some i → i ∈ fs.locked →
        (∃ e, r = .error e) ∧ fs' = fs := by
  unfold DirLock.acquire at h
  simp only at h
  split at h
  · cases h
    exact ⟨.refl, fun l hl => (by cases hl), fun i _ _ => ⟨⟨_, rfl⟩, rfl⟩⟩
  · rename_i fs₁ i ho
    have hop := openedForWriting now hs ht nameable_lock.proper nameable_lock.length_le hn ho
    have hw : Works t.here F (fun n => n = DirLock.entry) now fs none [] fs₁ none :=
      (hop.works none).mono (fun n hn => by cases hn.2) fun n hn => hn
    split at h
    · cases h
      exact ⟨hw, fun l hl => (by cases hl), fun j hj _ => ⟨⟨_, rfl⟩, (hop.kept j hj).2 rfl⟩⟩
    · rename_i fs₂ hlock
      cases h
      obtain ⟨hfree, rfl⟩ := tryLock_eq_some.1 hlock
      have hface : ∃ f, fs₁.face? i = some f := by
        rcases hop.face with ⟨b, hb, -⟩ | ⟨d, hd⟩
        · exact ⟨_, hb⟩
        · exact ⟨_, hd⟩
      refine ⟨hw.step (c := .lock i) ⟨hfree, hface⟩ trivial, ?_, ?_⟩
      · intro l hl
        cases hl
        rw [hop.locked] at hfree
        exact ⟨hop.lookup, hfree⟩
      · intro j hj hheld
        rw [hop.locked, (hop.kept j hj).1] at hfree
        exact absurd hheld hfree

/-! ## The log -/

/-- What moves the log out of the way in the directory `D`: its name goes, and the one of the old log
is bound to `k`. -/
abbrev SessionLog.move (D k : NodeId) : Change :=
  .move D SessionLog.entry D SessionLog.oldEntry k

/-- The log is moved out of the way, or nothing happens. -/
theorem SessionLog.rotated_cases (hs : fs.Sound) (ht : t.Stands fs) :
    SessionLog.rotated fs t.path = fs ∨ ∃ k, (SessionLog.move t.here k).Fits fs ∧
      SessionLog.rotated fs t.path = (SessionLog.move t.here k).apply fs := by
  unfold SessionLog.rotated
  split
  · rename_i fs₁ hr
    exact ((ht.arrives hs).rename hs nameable_log.proper nameable_oldLog.proper hr).imp_left
      And.left
  · exact Or.inl rfl

/-- A log that is moved leaves its name free. -/
theorem SessionLog.move_free {k : NodeId} (hD : fs.isDirectory D = true) :
    ((SessionLog.move D k).apply fs).lookup D SessionLog.entry = none := by
  simp [Change.apply, lookup_bind, lookup_unbind, SessionLog.entry_ne_oldEntry, hD]

theorem SessionLog.move_works (now : Clock.Reading) {F : Bytes → Prop} {k : NodeId}
    (h : (SessionLog.move D k).Fits fs) :
    Works D F (fun n => n = SessionLog.entry ∨ n = SessionLog.oldEntry) now fs none []
      ((SessionLog.move D k).apply fs) none :=
  .one h ⟨rfl, rfl, Or.inl rfl, Or.inr rfl⟩

/-- What is touched when the log is moved out of the way. -/
theorem SessionLog.rotated_works (now : Clock.Reading) {F : Bytes → Prop} (hs : fs.Sound)
    (ht : t.Stands fs) (hn : NoLink fs t.here SessionLog.entry) :
    Works t.here F (fun n => n = SessionLog.entry ∨ n = SessionLog.oldEntry) now fs none []
        (SessionLog.rotated fs t.path) none ∧
      NoLink (SessionLog.rotated fs t.path) t.here SessionLog.entry := by
  rcases SessionLog.rotated_cases hs ht with hsame | ⟨k, hf, hmoved⟩
  · rw [hsame]
    exact ⟨.refl, hn⟩
  · have hfree := SessionLog.move_free (k := k) (ht.isDirectory hs)
    rw [hmoved]
    refine ⟨SessionLog.move_works now hf, ?_⟩
    intro j g hj
    rw [hfree] at hj
    cases hj

/-- What is touched for a new log, and what the log is then. -/
theorem SessionLog.start_works (now : Clock.Reading) (hs : fs.Sound) (ht : t.Stands fs)
    (hn : NoLink fs t.here SessionLog.entry) {r : Except StoreError SessionLog}
    (h : SessionLog.start fs t.path rotate = (r, fs')) :
    Works t.here (fun n => n = SessionLog.entry)
        (fun n => n = SessionLog.entry ∨ n = SessionLog.oldEntry) now fs none [] fs' none ∧
      ∀ l, r = .ok l → fs'.lookup t.here SessionLog.entry = some l.file.node ∧ l.file.pos = 0 ∧
        (fs'.face? l.file.node = some (.file []) ∨
          ∃ d, fs'.face? l.file.node = some (.device d)) := by
  unfold SessionLog.start at h
  simp only at h
  -- the old log goes out of the way, if it can be moved
  obtain ⟨hw, hn₁⟩ : Works t.here (fun n => n = SessionLog.entry)
        (fun n => n = SessionLog.entry ∨ n = SessionLog.oldEntry) now fs none []
        (if rotate = true then SessionLog.rotated fs t.path else fs) none ∧
      NoLink (if rotate = true then SessionLog.rotated fs t.path else fs) t.here SessionLog.entry := by
    split
    · exact SessionLog.rotated_works now hs ht hn
    · exact ⟨.refl, hn⟩
  generalize (if rotate = true then SessionLog.rotated fs t.path else fs) = fs₁ at h hw hn₁
  split at h
  · cases h
    exact ⟨hw, fun l hl => (by cases hl)⟩
  · rename_i fs₂ i ho
    cases h
    have hop := openedForWriting now (hw.sound hs) (hw.stands hs ht) nameable_log.proper
      nameable_log.length_le hn₁ ho
    refine ⟨hw.trans ((hop.works none).mono (fun n hk => hk.1) fun n hk => Or.inl hk), ?_⟩
    intro l hl
    cases hl
    refine ⟨hop.lookup, rfl, hop.face.imp_left ?_⟩
    rintro ⟨b, hb, hempty⟩
    rw [hb, hempty rfl]

/-! ## Directories -/

namespace Store

/-- The names of the control files that an open may bind or unbind. -/
def OpenBinds (n : Bytes) : Prop :=
  n = DirLock.entry ∨ n = SessionLog.entry ∨ n = SessionLog.oldEntry

/-- The store `st`, which was just opened in the directory of the trail `t`: it has the lock of the
directory, which was free, and an empty log. -/
structure Entered (t : Trail) (fs fs' : FileSystem) (st : Store) : Prop where
  fresh : ∃ sync log l, st = .fresh t.path sync log l
  lock : ∃ l, st.lock = some l ∧ fs'.lookup t.here DirLock.entry = some l.node ∧
    l.node ∉ fs.locked
  log : ∃ l, st.log = some l ∧ fs'.lookup t.here SessionLog.entry = some l.file.node ∧
    l.file.pos = 0 ∧
    (fs'.face? l.file.node = some (.file []) ∨ ∃ d, fs'.face? l.file.node = some (.device d))

/-- **What is touched by an open, and what it leaves.** If the lock is held, nothing is touched. -/
theorem enter_works (now : Clock.Reading) (hs : fs.Sound) (ht : t.Stands fs)
    (hlock : NoLink fs t.here DirLock.entry) (hlog : NoLink fs t.here SessionLog.entry)
    {r : Except StoreError Store} (h : enter fs o t.path = (r, fs')) :
    Works t.here (fun n => n = SessionLog.entry) OpenBinds now fs none [] fs' none ∧
      (∀ st, r = .ok st → Entered t fs fs' st) ∧
      ∀ i, fs.lookup t.here DirLock.entry = some i → i ∈ fs.locked →
        (∃ e, r = .error e) ∧ fs' = fs := by
  have hlog_ne : ¬SessionLog.entry = DirLock.entry := lockName_ne (by decide)
  have hold_ne : ¬SessionLog.oldEntry = DirLock.entry := lockName_ne (by decide)
  unfold enter at h
  cases ha : DirLock.acquire fs t.path with
  | mk ra fs₁ =>
    obtain ⟨hwa, hgot, hheld⟩ :=
      DirLock.acquire_works now (F := fun _ => False) hs ht hlock ha
    have hwa' : Works t.here (fun n => n = SessionLog.entry) OpenBinds now fs none [] fs₁ none :=
      hwa.mono (fun n hn => hn.elim) fun n hn => Or.inl hn
    rw [ha] at h
    cases ra with
    | error e =>
      cases h
      exact ⟨hwa', fun st hst => (by cases hst), fun i hi hl => ⟨⟨e, rfl⟩, (hheld i hi hl).2⟩⟩
    | ok l =>
      -- the lock was free
      have hfree : ∀ i, fs.lookup t.here DirLock.entry = some i → i ∈ fs.locked → False := by
        intro i hi hl
        obtain ⟨⟨e, he⟩, -⟩ := hheld i hi hl
        cases he
      have hlog₁ : NoLink fs₁ t.here SessionLog.entry :=
        hwa.noLink_name hs hlog_ne hlog
      cases hst : SessionLog.start fs₁ t.path o.rotateLog with
      | mk rs fs₂ =>
        obtain ⟨hws, hstart⟩ := SessionLog.start_works now (hwa.sound hs)
          (hwa.stands hs ht) hlog₁ hst
        have hw := hwa'.trans (hws.mono (fun n hn => hn) fun n hn => Or.inr hn)
        simp only [hst] at h
        cases rs with
        | error e =>
          cases h
          exact ⟨hw.step (c := .unlock l.node) trivial trivial, fun st hst => (by cases hst),
            fun i hi hl => absurd hl (hfree i hi)⟩
        | ok log =>
          cases h
          refine ⟨hw, ?_, fun i hi hl => absurd hl (hfree i hi)⟩
          intro st hst
          cases hst
          obtain ⟨hlook, hnode⟩ := hgot l rfl
          refine ⟨⟨_, log, l, rfl⟩, ⟨l, rfl, ?_, hnode⟩, log, rfl, hstart log rfl⟩
          rw [hws.lookup (hwa.sound hs) (Or.inr ?_)]
          · exact hlook
          · rintro (h | h)
            · exact hlog_ne h.symm
            · exact hold_ne h.symm

/-- An open is refused at once, or enters the directory that the path leads to. -/
theorem open?_enter (hs : fs.Sound) (ht : t.Stands (prepare fs o).2)
    (h : (prepare fs o).2.find (Path.ofText o.dir) = .ok t.here) :
    (∃ e, open? fs o = (.error e, (prepare fs o).2)) ∨
      open? fs o = enter (prepare fs o).2 o t.path := by
  have hs₁ := (prepare_leads (o := o) hs).sound hs
  obtain ⟨hne, t', m, ha, he⟩ := arrives_of_find h (ht.isDirectory hs₁)
  obtain rfl := (ha.stands hs₁).unique hs₁ ht he
  have hcan := ha.canonical hne
  have hcheck : o.check = .ok () := by
    refine if_neg ?_
    intro hdir
    rw [hdir] at hne
    cases hne
  unfold open?
  rw [hcheck]
  cases hp : prepare fs o with
  | mk r fs₁ =>
    rw [hp] at hcan
    cases r with
    | error e => exact Or.inl ⟨e, rfl⟩
    | ok u =>
      simp only [hcan]
      exact Or.inr rfl

end Store

end EngineDir
