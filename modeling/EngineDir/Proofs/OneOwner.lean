import EngineDir.Proofs.Holders

/-!
# One owner for each directory

A directory belongs to the one who holds the lock on its file `LOCK`. Nobody else can
open it then, by whatever path, as long as others leave `LOCK` alone.

* `LockFile`: the lock file of a directory is a file.
* `DirLock.acquire_held`, `DirLock.acquire_free`: what comes of taking a lock.
* `World.Owns`: who holds the lock of a directory. `World.Holds`: who took it.
* `World.step_takes`, `World.step_refused`: **a success makes an owner, and an owner
  refuses everybody.**
* `run_oneOwner`: **a directory has one owner at most, after every run.**
-/

namespace EngineDir

open FileSystem

variable {fs fs' : FileSystem} {dir : Bytes} {t : Trail} {m : Nat} {D i : NodeId}

/-! ## The lock file -/

/-- The entry of the lock. -/
abbrev DirLock.entry : Bytes := Utf8.encode DirLock.fileName

/-- What the lock file's name is bound to in the directory `D` is a file, if it is bound. -/
def LockFile (fs : FileSystem) (D : NodeId) : Prop :=
  ∀ i, fs.lookup D DirLock.entry = some i → ∃ b, fs.face? i = some (.file b)

theorem lockFile_of_face {b : Bytes} (hl : fs.lookup D DirLock.entry = some i)
    (hf : fs.face? i = some (.file b)) : LockFile fs D := by
  intro j hj
  rw [hl] at hj
  cases hj
  exact ⟨b, hf⟩

/-- It was a file before if it is one after changes that leave it bound. -/
theorem LockFile.of_leads (h : LockFile fs' D) (hs : fs.Sound) (hl : Leads Change.Tame fs fs') :
    LockFile fs D := by
  intro i hi
  obtain ⟨b, hb⟩ := h i (hl.lookup hs (fun _ hc => hc) hi)
  obtain ⟨f, hf⟩ := hs.bound hi
  rcases hl.face? hs hf with hf' | ⟨b₁, b₂, rfl, -⟩
  · rw [hb] at hf'
    exact ⟨b, by rw [hf, hf']⟩
  · exact ⟨b₁, hf⟩

/-- Why the lock file of the directory `D` cannot be made by the path `dir`, if it is missing and the
system refuses to make it. -/
def DirLock.unmade? (fs : FileSystem) (D : NodeId) (dir : Bytes) : Option Errno :=
  match fs.lookup D DirLock.entry with
  | some _ => none
  | none => fs.refusals.make (DirLock.pathIn dir)

/-- A lock file that is there need not be made. -/
theorem DirLock.unmade?_of_lookup (h : fs.lookup D DirLock.entry = some i) :
    DirLock.unmade? fs D dir = none := by
  rw [unmade?, h]

/-- Opening the lock file of a directory: it is there, or it is made unless the system refuses that. -/
theorem FileSystem.Arrives.open_lock (h : fs.Arrives dir t m) (hs : fs.Sound)
    (hf : LockFile fs t.here) :
    (∃ i, fs.lookup t.here DirLock.entry = some i ∧
        fs.openForWriting false (DirLock.pathIn dir) = .ok (fs, i)) ∨
      (fs.lookup t.here DirLock.entry = none ∧
        (Change.make t.here DirLock.entry (.file [])).Fits fs ∧
        fs.openForWriting false (DirLock.pathIn dir) =
          match DirLock.unmade? fs t.here dir with
          | some e => .error e
          | none =>
            .ok ((Change.make t.here DirLock.entry (.file [])).apply fs, fs.nextId t.here)) := by
  have hwalk : fs.walk .create (Path.ofText (DirLock.pathIn dir)) =
      .ok (.entry t DirLock.entry (fs.lookup t.here DirLock.entry) false) := by
    refine h.walk_last nameable_lock.proper nameable_lock.length_le (by decide) ?_
    intro j g hj hg
    obtain ⟨b, hb⟩ := hf j hj
    rw [hb] at hg
    cases hg
  have hdir := (h.stands hs).isDirectory hs
  simp only [FileSystem.openForWriting, hwalk]
  cases hl : fs.lookup t.here DirLock.entry with
  | none =>
    refine Or.inr ⟨rfl, ⟨hdir, nameable_lock.proper, nameable_lock.length_le, hl, trivial⟩, ?_⟩
    simp only [DirLock.unmade?, hl]
    rfl
  | some i =>
    obtain ⟨b, hb⟩ := hf i hl
    exact Or.inl ⟨i, rfl, by simp [face?_file.1 hb]⟩

/-- The lock file that was opened is bound to its name. -/
theorem FileSystem.Arrives.lookup_lock (h : fs.Arrives dir t m) (hs : fs.Sound)
    (hf : LockFile fs t.here) (ho : fs.openForWriting false (DirLock.pathIn dir) = .ok (fs', i)) :
    fs'.lookup t.here DirLock.entry = some i := by
  rcases h.open_lock hs hf with ⟨j, hj, ho'⟩ | ⟨-, hfit, ho'⟩
  · rw [ho] at ho'
    cases ho'
    exact hj
  · rw [ho] at ho'
    split at ho'
    · cases ho'
    cases ho'
    simp only [Change.apply]
    rw [lookup_make hfit.1 (hs.fresh _) hfit.2.2.2.2.entries, if_pos ⟨rfl, rfl⟩]

/-- A lock that is held is refused, and nothing changes. -/
theorem DirLock.acquire_held (h : fs.Arrives dir t m) (hs : fs.Sound) (hf : LockFile fs t.here)
    (hl : fs.lookup t.here DirLock.entry = some i) (hi : i ∈ fs.locked) :
    DirLock.acquire fs dir = (.error (.alreadyLocked (DirLock.pathIn dir)), fs) := by
  rcases h.open_lock hs hf with ⟨j, hj, ho⟩ | ⟨hnone, -⟩
  · rw [hl] at hj
    cases hj
    simp only [DirLock.acquire, ho, tryLock, if_pos hi]
  · rw [hl] at hnone
    cases hnone

/-- A lock that is free is granted, unless its file is missing and cannot be made. -/
theorem DirLock.acquire_free (h : fs.Arrives dir t m) (hs : fs.Sound) (hf : LockFile fs t.here)
    (hfree : ∀ i, fs.lookup t.here DirLock.entry = some i → i ∉ fs.locked) :
    match DirLock.unmade? fs t.here dir with
    | some e => DirLock.acquire fs dir =
        (.error (.io "open lock" (DirLock.pathIn dir) (.os e)), fs)
    | none => ∃ l fs', DirLock.acquire fs dir = (.ok l, fs') := by
  have hgrant : ∀ i fs₁, fs.openForWriting false (DirLock.pathIn dir) = .ok (fs₁, i) →
      i ∉ fs₁.locked → ∃ l fs', DirLock.acquire fs dir = (.ok l, fs') := by
    intro i fs₁ ho hi
    refine ⟨{ path := DirLock.pathIn dir, node := i }, { fs₁ with locked := i :: fs₁.locked }, ?_⟩
    simp only [DirLock.acquire, ho, tryLock, if_neg hi]
  rcases h.open_lock hs hf with ⟨i, hi, ho⟩ | ⟨-, hfit, ho⟩
  · rw [unmade?_of_lookup hi]
    exact hgrant i fs ho (hfree i hi)
  · cases hun : DirLock.unmade? fs t.here dir with
    | some e =>
      rw [hun] at ho
      simp only [DirLock.acquire, ho]
    | none =>
      rw [hun] at ho
      refine hgrant _ _ ho fun hmem => ?_
      -- a new node was never locked
      have hu : (Change.make t.here DirLock.entry (.file [])).Unlocking := trivial
      rw [Change.locked_apply hu] at hmem
      obtain ⟨f, hface⟩ := hs.locked hmem
      rw [hs.fresh] at hface
      cases hface

/-- A directory whose lock is held is not opened. All that is done is to prepare it. -/
theorem Store.open?_held {o : Options} (hs : fs.Sound) (hf : LockFile fs D)
    (hl : fs.lookup D DirLock.entry = some i) (hi : i ∈ fs.locked)
    (hcan : (Store.prepare fs o).2.canonical (Path.ofText o.dir) = .ok dir)
    (hd : (Store.prepare fs o).2.homeOf dir DirLock.entry = some D) :
    ∃ e fs', Store.open? fs o = (.error e, fs') ∧ Leads Change.Adds fs fs' := by
  obtain ⟨t, m, harr, rfl⟩ := (homeOf_eq_some nameable_lock.proper).1 hd
  have hp : Leads Change.Adds fs (Store.prepare fs o).2 :=
    (Store.prepare_leads hs).mono fun _ hc => hc.adds
  -- directories that are made on the way leave the lock file and its lock
  have hl' : (Store.prepare fs o).2.lookup t.here DirLock.entry = some i :=
    hp.lookup hs (fun _ hc => hc.gentle.spares _) hl
  have hi' : i ∈ (Store.prepare fs o).2.locked := by
    rw [hp.locked fun _ hc => hc.gentle.unlocking]
    exact hi
  have hf' : LockFile (Store.prepare fs o).2 t.here := by
    obtain ⟨b, hb⟩ := hf i hl
    rcases hp.face? hs hb with h' | ⟨_, b', -, h'⟩
    · exact lockFile_of_face hl' h'
    · exact lockFile_of_face hl' h'
  have hacq := DirLock.acquire_held harr (hp.sound hs) hf' hl' hi'
  unfold Store.open?
  cases o.check with
  | error err => exact ⟨_, fs, rfl, .refl⟩
  | ok u =>
    simp only
    cases hprep : Store.prepare fs o with
    | mk r fs₁ =>
      rw [hprep] at hp hcan hacq
      cases r with
      | error err => exact ⟨_, fs₁, rfl, hp⟩
      | ok u =>
        simp only [hcan, Store.enter, hacq]
        exact ⟨_, fs₁, rfl, hp⟩

/-! ## Events -/

/-- Who has the lock of a directory when an event succeeds that takes it. -/
def Event.taker? : Event → Option Holder
  | .acquire l _ => some (.lock l)
  | .openStore s _ => some (.store s)
  | _ => none

namespace World

variable {w w₀ : World} {now : Clock.Reading} {e : Event} {x y : Holder}
  {es es' : List (Clock.Reading × Event)}

/-- The directory whose lock an event tries to take. -/
def home? (w : World) : Event → Option NodeId
  | .acquire _ dir => w.fs.homeOf dir DirLock.entry
  | .openStore _ o =>
    match (Store.prepare w.fs o).2.canonical (Path.ofText o.dir) with
    | .error _ => none
    | .ok dir => (Store.prepare w.fs o).2.homeOf dir DirLock.entry
  | _ => none

/-- The holder `x` has the lock on the lock file of the directory `D`. -/
def Owns (w : World) (D : NodeId) (x : Holder) : Prop :=
  ∃ l, w.lockOf x = some l ∧ w.fs.lookup D DirLock.entry = some l.node

/-- In the run `es` the lock of the directory `D` was taken by `x`, which has had a lock since. -/
inductive Holds (w₀ : World) (D : NodeId) (x : Holder) : List (Clock.Reading × Event) → Prop
  | taken {es : List (Clock.Reading × Event)} {now : Clock.Reading} {e : Event} {v : Value}
      (hx : e.taker? = some x) (hd : (w₀.run es).home? e = some D)
      (ha : (step now (w₀.run es) e).answer = .ok v) : Holds w₀ D x (es ++ [(now, e)])
  | kept {es : List (Clock.Reading × Event)} {now : Clock.Reading} {e : Event} {l : DirLock}
      (h : Holds w₀ D x es) (hl : (step now (w₀.run es) e).world.lockOf x = some l) :
      Holds w₀ D x (es ++ [(now, e)])

/-- Throughout the run `es` the lock file of the directory `D` is a file, once it is there, and
others do not remove or replace it. -/
structure LockKept (w₀ : World) (D : NodeId) (es : List (Clock.Reading × Event)) : Prop where
  file : ∀ pre, pre <+: es → LockFile (w₀.run pre).fs D
  kept : ∀ pre now o i, pre ++ [(now, .outside o)] <+: es →
    (w₀.run pre).fs.lookup D DirLock.entry = some i →
    (w₀.run (pre ++ [(now, .outside o)])).fs.lookup D DirLock.entry = some i

theorem LockKept.before (h : LockKept w₀ D (es ++ es')) : LockKept w₀ D es :=
  ⟨fun pre hp => h.file pre (hp.trans (List.prefix_append _ _)),
    fun pre now o i hp => h.kept pre now o i (hp.trans (List.prefix_append _ _))⟩

/-- A step leaves the lock file where it is. -/
theorem lookup_lock_step (hs : (w₀.run es).fs.Sound) (hk : LockKept w₀ D (es ++ [(now, e)]))
    (hl : (w₀.run es).fs.lookup D DirLock.entry = some i) :
    (step now (w₀.run es) e).world.fs.lookup D DirLock.entry = some i := by
  have hstep := step_leads hs now e
  -- others could take it away, but they leave it
  cases e with
  | outside o =>
    rw [← run_concat]
    exact hk.kept es now o i (List.prefix_refl _) hl
  | _ => exact hstep.lookup hs (fun _ hc => hc) hl

/-- An owner that still has its lock is still the owner. -/
theorem owns_step (hs : (w₀.run es).fs.Sound) (hk : LockKept w₀ D (es ++ [(now, e)]))
    (h : (w₀.run es).Owns D x) {l : DirLock}
    (hl : (step now (w₀.run es) e).world.lockOf x = some l) :
    (step now (w₀.run es) e).world.Owns D x := by
  obtain ⟨l₀, hl₀, hlook⟩ := h
  refine ⟨l₀, ?_, lookup_lock_step hs hk hlook⟩
  rcases (move_grip hs (step_move now (w₀.run es) e)).lockOf_eq hl₀ with h' | h'
  · exact h'
  · rw [hl] at h'
    cases h'

/-- **Whoever takes the lock of a directory owns it.** -/
theorem step_takes (hs : w.fs.Sound) (hx : e.taker? = some x) (hd : w.home? e = some D) {v : Value}
    (ha : (step now w e).answer = .ok v) (hf : LockFile (step now w e).world.fs D) :
    (step now w e).world.Owns D x := by
  cases e with
  | acquire l dir =>
    cases hx
    obtain ⟨t, m, harr, rfl⟩ := (homeOf_eq_some nameable_lock.proper).1 hd
    simp only [step] at ha hf ⊢
    split at ha
    · cases ha
    rename_i hc
    simp only [hc, Bool.false_eq_true, if_false] at hf ⊢
    cases hacq : DirLock.acquire w.fs dir with
    | mk r fs' =>
      rw [hacq] at ha hf
      rcases DirLock.acquire_cases hs hacq with ⟨_, rfl, -⟩ | ⟨lock, fs₁, rfl, hl, ho, -, hfit, rfl⟩
      · cases ha
      · have hf₁ : LockFile fs₁ t.here := hf
        have hlook := harr.lookup_lock hs (hf₁.of_leads hs hl.tame) ho
        exact ⟨lock, Table.get?_insert_self _ _ _, hlook⟩
  | openStore s o =>
    cases hx
    simp only [step] at ha hf ⊢
    split at ha
    · cases ha
    rename_i hc
    simp only [hc, Bool.false_eq_true, if_false, stepOpen] at ha hf ⊢
    cases hopen : Store.open? w.fs o with
    | mk r fs' =>
      rw [hopen] at ha hf
      rcases (Store.open?_cases hs hopen).2 with
        ⟨_, rfl, -⟩ | ⟨dir, log, l, fs₁, rfl, -, hcan, ho, hlate, -⟩
      · cases ha
      · simp only [home?, hcan] at hd
        obtain ⟨t, m, harr, rfl⟩ := (homeOf_eq_some nameable_lock.proper).1 hd
        -- the lock file is a file in the end, so it was one all along
        have hsp := (Store.prepare_leads (o := o) hs).sound hs
        have hl₁ := openForWriting_leads hsp ho
        have hf₁ : LockFile fs₁ t.here := LockFile.of_leads hf (hl₁.sound hsp) hlate
        have hfp := hf₁.of_leads hsp (hl₁.mono fun _ hg => hg.mild.1)
        have hlook := harr.lookup_lock hsp hfp ho
        refine ⟨l, ?_, hlate.lookup (hl₁.sound hsp) (fun _ hg => hg) hlook⟩
        simp [lockOf, Store.fresh]
  | _ => cases hx

/-- **While a directory has an owner, everybody else is refused**, and nothing changes but that
directories may be made on the way. -/
theorem step_refused (hs : w.fs.Sound) (hok : LocksOK w) (hf : LockFile w.fs D) (ho : w.Owns D x)
    (hd : w.home? e = some D) :
    (∃ f, (step now w e).answer = .error f) ∧
      ∃ fs', Leads Change.Adds w.fs fs' ∧ (step now w e).world = { w with fs := fs' } := by
  obtain ⟨lock, hlock, hlook⟩ := ho
  have hheld : lock.node ∈ w.fs.locked := hok.locked.2 ⟨x, lock, hlock, rfl⟩
  cases e with
  | acquire l dir =>
    obtain ⟨t, m, harr, rfl⟩ := (homeOf_eq_some nameable_lock.proper).1 hd
    simp only [step]
    split
    · exact ⟨⟨_, rfl⟩, w.fs, .refl, rfl⟩
    · rw [DirLock.acquire_held harr hs hf hlook hheld]
      exact ⟨⟨_, rfl⟩, w.fs, .refl, rfl⟩
  | openStore s o =>
    simp only [step]
    split
    · exact ⟨⟨_, rfl⟩, w.fs, .refl, rfl⟩
    simp only [home?] at hd
    split at hd
    · cases hd
    rename_i dir hcan
    obtain ⟨err, fs', hopen, hadds⟩ := Store.open?_held hs hf hlook hheld hcan hd
    rw [stepOpen, hopen]
    exact ⟨⟨_, rfl⟩, fs', hadds, rfl⟩
  | _ => cases hd

/-- While a directory has no owner, its lock is granted to whoever takes it, unless its file is missing
and cannot be made. -/
theorem step_granted (hs : w.fs.Sound) (hok : LocksOK w) (hf : LockFile w.fs D)
    (hno : ∀ x, ¬w.Owns D x) {l : Nat} (hd : w.home? (.acquire l dir) = some D) :
    (step now w (.acquire l dir)).answer =
      if w.locks.contains l then .error .misnamed
      else
        match DirLock.unmade? w.fs D dir with
        | some e => .error (.store (.io "open lock" (DirLock.pathIn dir) (.os e)))
        | none => .ok .done := by
  obtain ⟨t, m, harr, rfl⟩ := (homeOf_eq_some nameable_lock.proper).1 hd
  have hfree : ∀ i, w.fs.lookup t.here DirLock.entry = some i → i ∉ w.fs.locked := by
    intro i hi hmem
    obtain ⟨x, lock, hx, rfl⟩ := hok.locked.1 hmem
    exact hno x ⟨lock, hx, hi⟩
  have hacq := DirLock.acquire_free harr hs hf hfree
  simp only [step]
  split
  · rfl
  · cases hun : DirLock.unmade? w.fs t.here dir with
    | some e =>
      rw [hun] at hacq
      rw [hacq]
      rfl
    | none =>
      rw [hun] at hacq
      obtain ⟨lock, fs', hacq⟩ := hacq
      rw [hacq]
      rfl

/-- Where the lock file is there, it is granted. -/
theorem step_granted_there (hs : w.fs.Sound) (hok : LocksOK w) (hf : LockFile w.fs D)
    (hno : ∀ x, ¬w.Owns D x) {l : Nat} (hd : w.home? (.acquire l dir) = some D)
    (hl : w.fs.lookup D DirLock.entry = some i) :
    (step now w (.acquire l dir)).answer =
      if w.locks.contains l then .error .misnamed else .ok .done := by
  rw [step_granted hs hok hf hno hd, DirLock.unmade?_of_lookup hl]

/-- Whatever spelling leads to a directory, its lock is what an acquire or an open is for. -/
theorem home?_of_find (hs : w.fs.Sound) (h : w.fs.find (Path.ofText dir) = .ok D)
    (hd : w.fs.isDirectory D = true) :
    (∀ l, w.home? (.acquire l dir) = some D) ∧
      ∀ s o, o.dir = dir → w.home? (.openStore s o) = some D := by
  refine ⟨fun l => homeOf_of_find nameable_lock.proper h hd, ?_⟩
  rintro s o rfl
  obtain ⟨he, t, m, harr, rfl⟩ := arrives_of_find h hd
  have hp : Leads Change.Adds w.fs (Store.prepare w.fs o).2 :=
    (Store.prepare_leads hs).mono fun _ hc => hc.adds
  have hsp := hp.sound hs
  have harr' := harr.roads (roads_leads (hp.mono fun _ hc => hc.gentle) hs)
  simp only [home?, harr'.canonical he]
  have hway := arrives_absoluteText hsp (harr'.stands hsp)
  exact (homeOf_eq_some nameable_lock.proper).2 ⟨t, linkLimit, hway, rfl⟩

/-- Who took the lock of a directory and still has it owns the directory. -/
theorem owns_of_holds (hs : w₀.fs.Sound) (h : Holds w₀ D x es) (hk : LockKept w₀ D es) :
    (w₀.run es).Owns D x := by
  induction h with
  | taken hx hd ha =>
    rename_i es now e v
    have hf := hk.file _ (List.prefix_refl _)
    rw [run_concat] at hf ⊢
    exact step_takes (run_sound hs es) hx hd ha hf
  | kept h hl ih =>
    rw [run_concat]
    exact owns_step (run_sound hs _) hk (ih hk.before) hl

end World

/-! ## One owner -/

open World

/-- The directory `D` after the run `es`. -/
structure OneOwner (w₀ : World) (D : NodeId) (es : List (Clock.Reading × Event)) : Prop where
  /-- A store or a lock that took the lock of the directory and still has it is its owner. -/
  owner : ∀ x, Holds w₀ D x es → (w₀.run es).Owns D x
  one : ∀ x y, (w₀.run es).Owns D x → (w₀.run es).Owns D y → x = y
  /-- Every spelling of the directory's path is one for its lock. -/
  spelled : ∀ dir, (w₀.run es).fs.find (Path.ofText dir) = .ok D →
    (w₀.run es).fs.isDirectory D = true → (∀ l, (w₀.run es).home? (.acquire l dir) = some D) ∧
      ∀ s o, o.dir = dir → (w₀.run es).home? (.openStore s o) = some D
  /-- The owner keeps everybody out, and keeps the lock; nothing in use changes. -/
  refused : ∀ x now e, (w₀.run es).Owns D x → (w₀.run es).home? e = some D →
    (∃ f, (step now (w₀.run es) e).answer = .error f) ∧ (step now (w₀.run es) e).world.Owns D x ∧
      ∃ fs, Leads Change.Adds (w₀.run es).fs fs ∧
        (step now (w₀.run es) e).world = { w₀.run es with fs := fs }
  /-- Without an owner the lock is granted to whoever takes it, unless its file is missing and the
  system refuses to make it. Nobody is told then that it is held. -/
  granted : (∀ x, ¬(w₀.run es).Owns D x) → ∀ now l dir,
    (w₀.run es).home? (.acquire l dir) = some D → (step now (w₀.run es) (.acquire l dir)).answer =
      if (w₀.run es).locks.contains l then .error .misnamed
      else
        match DirLock.unmade? (w₀.run es).fs D dir with
        | some e => .error (.store (.io "open lock" (DirLock.pathIn dir) (.os e)))
        | none => .ok .done

/-- **A directory has one owner at most, after every run.** -/
theorem run_oneOwner {fs : FileSystem} {es : List (Clock.Reading × Event)} {D : NodeId}
    (hs : fs.Sound) (hl : fs.locked = []) (hk : LockKept (ofFileSystem fs) D es) :
    OneOwner (ofFileSystem fs) D es := by
  have hsound : ((ofFileSystem fs).run es).fs.Sound := run_sound hs es
  have hok : LocksOK ((ofFileSystem fs).run es) := run_locksOK hs (locksOK_ofFileSystem hl) es
  have hf := hk.file es (List.prefix_refl _)
  refine ⟨fun x h => owns_of_holds hs h hk, ?_, fun dir h hd => home?_of_find hsound h hd, ?_, ?_⟩
  · rintro x y ⟨l, hx, hlook⟩ ⟨l', hy, hlook'⟩
    rw [hlook] at hlook'
    exact hok.distinct hx hy (Option.some.inj hlook')
  · intro x now e ho hd
    obtain ⟨hans, fs', hadds, hw⟩ := step_refused hsound hok hf ho hd
    refine ⟨hans, ?_, fs', hadds, hw⟩
    obtain ⟨lock, hx, hlook⟩ := ho
    rw [hw]
    exact ⟨lock, by cases x <;> exact hx, hadds.lookup hsound (fun _ hc => hc.gentle.spares _) hlook⟩
  · intro hno now l dir hd
    exact step_granted hsound hok hf hno hd

theorem lockKept_session : LockKept (ofFileSystem .initial) (root.child 1) session := by
  refine ⟨?_, ?_⟩
  · intro pre hp
    rcases List.prefix_cons_iff.1 hp with rfl | ⟨pre₁, rfl, hp₁⟩
    · intro i hi
      have hnone : ((ofFileSystem .initial).run []).fs.lookup (root.child 1) DirLock.entry =
          none := by decide
      rw [hnone] at hi
      cases hi
    rcases List.prefix_cons_iff.1 hp₁ with rfl | ⟨pre₂, rfl, hp₂⟩
    · exact @lockFile_of_face _ _ ((root.child 1).child 0) [] (by decide) (by decide)
    · obtain rfl := List.prefix_nil.1 hp₂
      exact @lockFile_of_face _ _ ((root.child 1).child 0) [] (by decide) (by decide)
  · intro pre now o i hp
    have hm : (now, Event.outside o) ∈ session := hp.subset (by simp)
    simp [session] at hm

/-- The owner of `/db` is the store that was opened there. -/
theorem run_oneOwner_session :
    ((ofFileSystem .initial).run session).Owns (root.child 1) (.store 0) ∧
      OneOwner (ofFileSystem .initial) (root.child 1) session := by
  have h := run_oneOwner initial_sound rfl lockKept_session
  have hholds : Holds (ofFileSystem .initial) (root.child 1) (.store 0) session := by
    refine @Holds.kept _ _ _ [_] _ _
      ⟨DirLock.pathIn (Utf8.encode ['/', 'd', 'b']), (root.child 1).child 0⟩
      (@Holds.taken _ _ _ [] _ _ .done rfl ?_ ?_) ?_
    · decide
    · rfl
    · decide
  exact ⟨h.owner _ hholds, h⟩

end EngineDir
