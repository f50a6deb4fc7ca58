import EngineDir.Proofs.Effects
import EngineDir.Proofs.FileSystem.Entries
import EngineDir.Proofs.Pointer

/-!
# Publications, step by step

Until the staged file is renamed, a publication touches the staged file and the log
alone, so the pointer reads as before; from then on it reads as the new manifest.

* `Ground`: what a publication relies on in its directory. `Untouched`: the pointer is
  as it was.
* `Publication.Pending`, `Publication.Published`: a publication before the renaming and
  after it.
* `Publication.step_pending`, `Publication.step_published`: **what one call does.**
* `Publication.after_pending`: where a publication is after any number of calls.
* `Publication.Lost`: a publication in a directory that is gone.
* `Publication.after_leftover`: **what the staged file held before makes no difference.**
-/

namespace EngineDir

open FileSystem

/-- The entry of the staged pointer. -/
abbrev Proposal.entry (p : Proposal) : Bytes := Utf8.encode (Current.stagingName p.id.seq)

/-- The two names that a publication is about: that of the pointer, and that under which the new one
is staged. -/
def Proposal.Names (p : Proposal) (n : Bytes) : Prop := n = Current.entry ∨ n = p.entry

/-- The file of the log is there, and in the directory `i` it has neither of the two names. -/
structure LogApart (p : Proposal) (fs : FileSystem) (i : NodeId) (log : Option SessionLog) :
    Prop where
  face : ∀ l, log = some l → ∃ f, fs.face? l.file.node = some f
  name : ∀ l n, log = some l → fs.lookup i n = some l.file.node → ¬p.Names n

/-- The two names are not those of one file. -/
def StagedApart (p : Proposal) (fs : FileSystem) (i : NodeId) : Prop :=
  ∀ j, fs.lookup i Current.entry = some j → fs.lookup i p.entry ≠ some j

/-- What a publication relies on: the path of its directory leads down the trail `t`, the pointer is no
link, and neither the log nor the staged file is the pointer's. -/
structure Ground (p : Proposal) (t : Trail) (m : Nat) (log : Option SessionLog)
    (fs : FileSystem) : Prop where
  sound : fs.Sound
  arrives : fs.Arrives p.dir t m
  current : NoLink fs t.here Current.entry
  apart : StagedApart p fs t.here
  log : LogApart p fs t.here log

/-- The pointer of the directory `i` is in `fs'` what it is in `fs`. -/
structure Untouched (i : NodeId) (fs fs' : FileSystem) : Prop where
  lookup : fs'.lookup i Current.entry = fs.lookup i Current.entry
  face : ∀ j, fs.lookup i Current.entry = some j → fs'.face? j = fs.face? j

variable {p : Proposal} {fs fs' fs₀ : FileSystem} {dir : Bytes} {t : Trail} {m : Nat}
  {log log' : Option SessionLog} {i j : NodeId} {n : Bytes} {c : Change}

theorem Untouched.refl (i : NodeId) (fs : FileSystem) : Untouched i fs fs := ⟨rfl, fun _ _ => rfl⟩

theorem Untouched.trans (h : Untouched i fs₀ fs) (h' : Untouched i fs fs') :
    Untouched i fs₀ fs' where
  lookup := h'.lookup.trans h.lookup
  face j hj := (h'.face j (h.lookup.trans hj)).trans (h.face j hj)

/-- A pointer that was not touched reads as before. -/
theorem Ground.read_untouched (h : Ground p t m log fs) (h' : Ground p t m log' fs')
    (hu : Untouched t.here fs fs') : Current.read fs' p.dir = Current.read fs p.dir :=
  Current.read_congr h.arrives h'.arrives hu.lookup hu.face h.current

theorem staging_ne_current (p : Proposal) : p.entry ≠ Current.entry := fun h =>
  stagingName_ne_current _ (Utf8.encode_injective h)

/-! ## Single changes -/

/-- A change that gives a name to nothing but new files. -/
def Change.Plain : Change → Prop
  | .fill _ _ => True
  | .make _ _ (.file _) => True
  | .unbind _ _ => True
  | _ => False

/-- No link comes about where there was none. -/
theorem NoLink.apply (h : NoLink fs i n) (hs : fs.Sound) (hc : c.Fits fs) (hp : c.Plain) :
    NoLink (c.apply fs) i n := by
  intro j g hl
  rcases Change.lookup_of_apply hc hs hl with hl | ⟨nd, rfl, rfl⟩ | ⟨k, n', rfl⟩
  · obtain ⟨f, hf⟩ := hs.bound hl
    rcases Change.face?_apply hc hf hs with h' | ⟨b, b', -, h'⟩
    · rw [h', ← hf]; exact h j g hl
    · rw [h']; simp
  · cases nd with
    | file b => simp [Change.apply, face?_make, Node.face]
    | directory d => exact absurd hp id
    | link g' => exact absurd hp id
    | device d => exact absurd hp id
  · exact absurd hp id

/-- The log gets no name of a pointer where it had none. -/
theorem LogApart.apply (h : LogApart p fs i log) (hs : fs.Sound) (hc : c.Fits fs) (hp : c.Plain) :
    LogApart p (c.apply fs) i log where
  face l hl := by
    obtain ⟨f, hf⟩ := h.face l hl
    exact Change.exists_face?_apply hc hs hf
  name := by
    intro l n hl hlook
    rcases Change.lookup_of_apply hc hs hlook with hlook | ⟨nd, rfl, hn⟩ | ⟨k, n', rfl⟩
    · exact h.name l n hl hlook
    · -- the new node is not the log, which is there
      obtain ⟨f, hf⟩ := h.face l hl
      rw [hn, hs.fresh] at hf
      cases hf
    · exact absurd hp id

/-- What has one of two names after a change had it before, or is new. -/
theorem StagedApart.apply (h : StagedApart p fs i) (hs : fs.Sound) (hc : c.Fits fs)
    (hp : c.Plain) : StagedApart p (c.apply fs) i := by
  intro j hcur hst
  rcases Change.lookup_of_apply hc hs hcur with h₁ | ⟨nd, he, rfl⟩ | ⟨k, n', rfl⟩
  · rcases Change.lookup_of_apply hc hs hst with h₂ | ⟨nd, rfl, rfl⟩ | ⟨k, n', rfl⟩
    · exact h j h₁ h₂
    · exact absurd rfl (hs.ne_nextId h₁)
    · exact absurd hp id
  · rcases Change.lookup_of_apply hc hs hst with h₂ | ⟨nd', he', -⟩ | ⟨k, n', he'⟩
    · exact absurd rfl (hs.ne_nextId h₂)
    · -- one node is made under one name
      rw [he] at he'
      exact staging_ne_current p (Change.make.inj he').2.1.symm
    · rw [he] at he'
      cases he'
  · exact absurd hp id

/-- A change that binds and fills other names and files leaves the pointer. -/
theorem Untouched.fill {k : NodeId} {b : Bytes} (hc : (Change.fill k b).Fits fs)
    (hk : fs.lookup i Current.entry ≠ some k) :
    Untouched i fs ((Change.fill k b).apply fs) := by
  obtain ⟨b₀, hb⟩ := hc
  refine ⟨lookup_fill hb, ?_⟩
  intro j hj
  simp only [Change.apply, face?_setNode]
  rw [if_neg]
  rintro rfl
  exact hk hj

theorem Untouched.make (hs : fs.Sound) {b : Bytes} (hn : n ≠ Current.entry)
    (hc : (Change.make i n (.file b)).Fits fs) :
    Untouched i fs ((Change.make i n (.file b)).apply fs) := by
  refine ⟨?_, ?_⟩
  · simp only [Change.apply]
    rw [lookup_make hc.1 (hs.fresh i) hc.2.2.2.2.entries, if_neg fun he => hn he.2.symm]
  · intro j hj
    simp only [Change.apply, face?_make]
    rw [if_neg (hs.ne_nextId hj)]

theorem Untouched.unbind (hn : n ≠ Current.entry) :
    Untouched i fs ((Change.unbind i n).apply fs) := by
  refine ⟨?_, fun j _ => by simp [Change.apply]⟩
  simp only [Change.apply, lookup_unbind]
  rw [if_neg fun he => hn he.2.symm]

namespace Ground

/-- The ground stays firm when directories and links stay where they are. -/
theorem apply (h : Ground p t m log fs) (hc : c.Fits fs) (hp : c.Plain)
    (hk : ∀ k n j, fs.lookup k n = some j →
      (fs.face? j = some .directory ∨ ∃ g, fs.face? j = some (.link g)) →
      (c.apply fs).lookup k n = some j) : Ground p t m log (c.apply fs) where
  sound := Change.sound hc h.sound
  arrives := h.arrives.roads (roads_apply hc h.sound hk)
  current := h.current.apply h.sound hc hp
  apart := h.apart.apply h.sound hc hp
  log := h.log.apply h.sound hc hp

/-- New files and new contents. -/
theorem gentle (h : Ground p t m log fs) (hc : c.Fits fs) (hp : c.Plain) (hg : c.Gentle) :
    Ground p t m log (c.apply fs) :=
  h.apply hc hp fun _ _ _ hl _ => Change.lookup_apply hc h.sound (hg.spares _) hl

/-- The name of a file goes. -/
theorem unbind (h : Ground p t m log fs) (hl : fs.lookup t.here n = some i)
    (hd : fs.isDirectory i = false) (hi : NoLink fs t.here n) :
    Ground p t m log ((Change.unbind t.here n).apply fs) := by
  refine h.apply ⟨i, hl⟩ trivial ?_
  intro k n' j hl' hf
  simp only [Change.apply, lookup_unbind]
  rw [if_neg]
  · exact hl'
  · rintro ⟨rfl, rfl⟩
    obtain rfl : i = j := Option.some.inj (hl.symm.trans hl')
    rcases hf with hf | ⟨g, hf⟩
    · exact isDirectory_eq_false.1 hd hf
    · exact hi i g hl hf

/-- The staged file gets the name of the pointer, which was no directory. -/
theorem move (h : Ground p t m log fs) (hl : fs.lookup t.here p.entry = some i)
    {b : Bytes} (hi : fs.face? i = some (.file b))
    (hcur : ∀ j, fs.lookup t.here Current.entry = some j → fs.isDirectory j = false) :
    Ground p t m log ((Change.move t.here p.entry t.here Current.entry i).apply fs) ∧
      ((Change.move t.here p.entry t.here Current.entry i).apply fs).lookup t.here Current.entry =
        some i ∧
      ((Change.move t.here p.entry t.here Current.entry i).apply fs).face? i = some (.file b) := by
  have hdir := (h.arrives.stands h.sound).isDirectory h.sound
  have hc : (Change.move t.here p.entry t.here Current.entry i).Fits fs :=
    ⟨hl, hdir, nameable_current.proper, nameable_current.length_le⟩
  have hlook : ∀ k n', ((Change.move t.here p.entry t.here Current.entry i).apply fs).lookup k n' =
      if k = t.here ∧ n' = Current.entry then some i
      else if k = t.here ∧ n' = p.entry then none else fs.lookup k n' := by
    intro k n'
    simp only [Change.apply]
    rw [lookup_bind (by simpa using hdir), lookup_unbind]
  have hnew : ((Change.move t.here p.entry t.here Current.entry i).apply fs).lookup t.here
      Current.entry = some i := by rw [hlook, if_pos ⟨rfl, rfl⟩]
  have hface : ((Change.move t.here p.entry t.here Current.entry i).apply fs).face? i =
      some (.file b) := by
    simp only [Change.apply, face?_bind, face?_unbind]
    exact hi
  refine ⟨⟨Change.sound hc h.sound, h.arrives.roads (roads_apply hc h.sound ?_), ?_, ?_, ?_⟩, hnew,
    hface⟩
  · -- neither of the two names was that of a directory or a link
    intro k n' j hl' hf
    rw [hlook]
    by_cases hcu : k = t.here ∧ n' = Current.entry
    · obtain ⟨rfl, rfl⟩ := hcu
      rcases hf with hf | ⟨g, hf⟩
      · exact absurd hf (isDirectory_eq_false.1 (hcur j hl'))
      · exact absurd hf (h.current j g hl')
    rw [if_neg hcu]
    by_cases hst : k = t.here ∧ n' = p.entry
    · obtain ⟨rfl, rfl⟩ := hst
      obtain rfl : i = j := Option.some.inj (hl.symm.trans hl')
      rw [hi] at hf
      rcases hf with hf | ⟨g, hf⟩ <;> cases hf
    · rw [if_neg hst]; exact hl'
  · intro j g hl'
    rw [hnew] at hl'
    obtain rfl : i = j := Option.some.inj hl'
    rw [hface]
    simp
  · -- nothing is staged any more
    intro j _
    rw [hlook, if_neg fun e => staging_ne_current p e.2, if_pos ⟨rfl, rfl⟩]
    simp
  · refine ⟨fun l hl' => Change.exists_face?_apply hc h.sound (h.log.face l hl').choose_spec, ?_⟩
    intro l n' hl' hlook'
    rw [hlook] at hlook'
    split at hlook'
    · -- the file that was staged is not the log
      cases hlook'
      exact absurd (Or.inr rfl) (h.log.name l p.entry hl' hl)
    · split at hlook'
      · cases hlook'
      · exact h.log.name l n' hl' hlook'

/-- A line in the log. -/
theorem record (h : Ground p t m log fs) (now : Clock.Reading) (text : String) :
    Ground p t m (SessionLog.record log fs now text).1 (SessionLog.record log fs now text).2 := by
  cases log with
  | none => exact h
  | some l =>
    simp only [SessionLog.record_some]
    obtain ⟨hnode, hfs⟩ := l.write_cases fs now text
    have hnew : Ground p t m (some l) (l.write fs now text).2 := by
      rcases hfs with hfs | ⟨b, b', hb, hfs⟩
      · rw [hfs]; exact h
      · rw [hfs]; exact h.gentle ⟨b, hb⟩ trivial trivial
    refine ⟨hnew.sound, hnew.arrives, hnew.current, hnew.apart, ?_, ?_⟩
    · intro l' hl'
      rw [← Option.some.inj hl', hnode]
      exact hnew.log.face l rfl
    · intro l' n' hl' hlook
      rw [← Option.some.inj hl', hnode] at hlook
      exact hnew.log.name l n' rfl hlook

/-- It leaves the pointer and makes no link. -/
theorem record_untouched (h : Ground p t m log fs) (now : Clock.Reading) (text : String) :
    Untouched t.here fs (SessionLog.record log fs now text).2 ∧
      ∀ i n, NoLink fs i n → NoLink (SessionLog.record log fs now text).2 i n := by
  cases log with
  | none => exact ⟨Untouched.refl _ _, fun _ _ hn => hn⟩
  | some l =>
    simp only [SessionLog.record_some]
    rcases (l.write_cases fs now text).2 with hfs | ⟨b, b', hb, hfs⟩
    · rw [hfs]
      exact ⟨Untouched.refl _ _, fun _ _ hn => hn⟩
    · rw [hfs]
      have hc : (Change.fill l.file.node b').Fits fs := ⟨b, hb⟩
      refine ⟨Untouched.fill hc ?_, fun i n hn => hn.apply h.sound hc trivial⟩
      intro hl
      exact h.log.name l _ rfl hl (Or.inl rfl)

end Ground

/-! ## Before the renaming -/

namespace Publication

variable {p : Proposal} {u : Publication}

/-- The staged file, as far as the line is written. -/
structure Staged (p : Proposal) (i : NodeId) (fs : FileSystem) (done : Bytes) (k : NodeId) :
    Prop where
  lookup : fs.lookup i p.entry = some k
  face : fs.face? k = some (.file done)

/-- A device has the name of the staged file. It refuses the line when it is written, or at the
latest when it is written back. -/
def Hollow (p : Proposal) (fs : FileSystem) (k : NodeId) : Prop :=
  ∃ d, fs.face? k = some (.device d) ∧ (d = .null → p.sync = true)

/-- What a stage before the renaming finds in the directory `i`, and whether the publication has
failed by then. -/
def StageOK (p : Proposal) (i : NodeId) (fs : FileSystem) (error? : Option StoreError) :
    Stage → Prop
  | .create => error? = none ∧ ∀ j, fs.lookup i p.entry = some j →
      fs.isDirectory j = true ∨ (∃ b, fs.face? j = some (.file b)) ∨ Hollow p fs j
  | .write f b rest => error? = none ∧ ((∃ done, Staged p i fs done f.node ∧
      f.pos = done.length ∧ done ++ b :: rest = Current.line p.id) ∨ Hollow p fs f.node)
  | .sync f => error? = none ∧ (Staged p i fs (Current.line p.id) f.node ∨ Hollow p fs f.node)
  | .rename => error? = none ∧ ∃ k, Staged p i fs (Current.line p.id) k
  | .syncDirectory => False
  | .report _ => error?.isSome
  | .discard => error?.isSome
  | .remark _ => error?.isSome
  | .finished => error?.isSome

/-- A publication that has not renamed the staged file: the pointer is as it was in `fs₀`. -/
structure Pending (p : Proposal) (t : Trail) (m : Nat) (fs₀ : FileSystem) (u : Publication) :
    Prop where
  ground : Ground p t m u.log u.fs
  untouched : Untouched t.here fs₀ u.fs
  staged : NoLink u.fs t.here p.entry
  stage : StageOK p t.here u.fs u.error? u.stage

/-- A publication that has renamed the staged file. -/
structure Published (p : Proposal) (t : Trail) (m : Nat) (u : Publication) : Prop where
  ground : Ground p t m u.log u.fs
  current : ∃ i, u.fs.lookup t.here Current.entry = some i ∧
    u.fs.face? i = some (.file (Current.line p.id))
  error : u.error? = none
  stage : u.stage = .syncDirectory ∨ (∃ text, u.stage = .remark text) ∨ u.stage = .finished

/-- The next call is the renaming of the staged file, and it is not refused. -/
def Renames (p : Proposal) (u : Publication) : Prop :=
  u.stage = .rename ∧ ∃ fs, u.fs.rename p.staged (Current.pathIn p.dir) = .ok fs

theorem not_renames (h : u.stage ≠ .rename) : ¬Renames p u := fun hr => h hr.1

/-- The stage that comes next is right when the bytes so far are in the staged file. -/
theorem beforeBytes_ok {f : OpenFile} {done rest : Bytes} (hst : Staged p i fs done f.node)
    (hpos : f.pos = done.length) (hline : done ++ rest = Current.line p.id) :
    StageOK p i fs none (p.beforeBytes f rest) := by
  cases rest with
  | nil =>
    rw [List.append_nil] at hline
    rw [hline] at hst
    rw [Proposal.beforeBytes, Proposal.afterLine]
    by_cases hsync : p.sync
    · rw [if_pos hsync]; exact ⟨rfl, Or.inl hst⟩
    · rw [if_neg hsync]; exact ⟨rfl, f.node, hst⟩
  | cons b rest => exact ⟨rfl, Or.inl ⟨done, hst, hpos, hline⟩⟩

/-- A device is not renamed: a byte is left to write, or the device is to be written back. -/
theorem beforeBytes_hollow {f : OpenFile} {rest : Bytes} (h : Hollow p fs f.node)
    (hrest : rest = [] → p.sync = true) : StageOK p i fs none (p.beforeBytes f rest) := by
  cases rest with
  | nil =>
    rw [Proposal.beforeBytes, Proposal.afterLine, if_pos (hrest rfl)]
    exact ⟨rfl, Or.inr h⟩
  | cons b rest => exact ⟨rfl, Or.inr h⟩

/-- A refusal leaves everything but the stage. -/
theorem Pending.refused (h : Pending p t m fs₀ u) (e : StoreError) :
    Pending p t m fs₀ (u.refused e) :=
  ⟨h.ground, h.untouched, h.staged, rfl⟩

/-- A plain and gentle change of the staged file. -/
theorem Pending.goOn (h : Pending p t m fs₀ u) {s : Stage} (hc : c.Fits u.fs) (hp : c.Plain)
    (hg : c.Gentle) (hu : Untouched t.here u.fs (c.apply u.fs))
    (hs : StageOK p t.here (c.apply u.fs) u.error? s) : Pending p t m fs₀ (u.goOn (c.apply u.fs) s) :=
  ⟨h.ground.gentle hc hp hg, h.untouched.trans hu, h.staged.apply h.ground.sound hc hp, hs⟩

/-- The staged file is filled. -/
theorem Staged.fill {k : NodeId} {done : Bytes} (h : Staged p i fs done k) (b : Bytes) :
    Staged p i ((Change.fill k b).apply fs) b k where
  lookup := by
    simp only [Change.apply]
    rw [lookup_fill h.face]
    exact h.lookup
  face := by simp [Change.apply, face?_setNode, Node.face]

theorem Pending.fill (h : Pending p t m fs₀ u) {k : NodeId} {done b : Bytes} {s : Stage}
    (hst : Staged p t.here u.fs done k)
    (hs : StageOK p t.here ((Change.fill k b).apply u.fs) u.error? s) :
    Pending p t m fs₀ (u.goOn ((Change.fill k b).apply u.fs) s) := by
  have hc : (Change.fill k b).Fits u.fs := ⟨done, hst.face⟩
  have hne : u.fs.lookup t.here Current.entry ≠ some k :=
    fun hcur => h.ground.apart k hcur hst.lookup
  exact h.goOn hc trivial trivial (Untouched.fill hc hne) hs

theorem step_create (h : Pending p t m fs₀ u) (hst : u.stage = .create) :
    Pending p t m fs₀ (step p u) := by
  have hname := nameable_staging p.id.seq
  have hstage := h.stage
  rw [hst] at hstage
  obtain ⟨herr, hentry⟩ := hstage
  have hwalk : u.fs.walk .create (Path.ofText p.staged) =
      .ok (.entry t p.entry (u.fs.lookup t.here p.entry) false) :=
    h.ground.arrives.walk_last hname.proper hname.length_le (by decide) h.staged
  have hdir := (h.ground.arrives.stands h.ground.sound).isDirectory h.ground.sound
  simp only [step, hst, openForWriting, hwalk]
  cases hl : u.fs.lookup t.here p.entry with
  | none =>
    simp only
    split
    · exact h.refused _
    rename_i fs₁ k ho
    split at ho
    · cases ho
    cases ho
    have hc : (Change.make t.here p.entry (.file [])).Fits u.fs :=
      ⟨hdir, hname.proper, hname.length_le, hl, trivial⟩
    refine h.goOn hc trivial trivial (Untouched.make h.ground.sound (staging_ne_current p) hc) ?_
    rw [herr]
    refine beforeBytes_ok (⟨?_, ?_⟩ : Staged p _ _ [] _) rfl (List.nil_append _)
    · simp only [Change.apply]
      rw [lookup_make hdir (h.ground.sound.fresh _) hc.2.2.2.2.entries, if_pos ⟨rfl, rfl⟩]
    · simp [Change.apply, face?_make, Node.face]
  | some i =>
    simp only
    rcases hentry i hl with hd | ⟨b, hb⟩ | ⟨d, hd, hnull⟩
    · obtain ⟨d, hd⟩ := face?_directory.1 (isDirectory_iff.1 hd)
      simp only [hd]
      exact h.refused _
    · simp only [face?_file.1 hb, if_true]
      have hstaged : Staged p t.here u.fs b i := ⟨hl, hb⟩
      refine h.fill hstaged ?_
      rw [herr]
      exact beforeBytes_ok (hstaged.fill []) rfl (List.nil_append _)
    · simp only [face?_device.1 hd]
      refine ⟨h.ground, h.untouched, h.staged, ?_⟩
      simp only [goOn, herr]
      exact beforeBytes_hollow ⟨d, hd, hnull⟩ fun hnil => absurd hnil (Current.line_ne_nil p.id)

/-- A device takes the byte, or refuses it. -/
theorem step_write_hollow (h : Pending p t m fs₀ u) {f : OpenFile} {b : UInt8} {rest : Bytes}
    (hst : u.stage = .write f b rest) (herr : u.error? = none) (hf : Hollow p u.fs f.node) :
    Pending p t m fs₀ (step p u) := by
  obtain ⟨d, hd, hnull⟩ := hf
  simp only [step, hst]
  split
  · exact h.refused _
  · rename_i fs₁ hw
    simp only [writeAt, face?_device.1 hd] at hw
    split at hw
    · cases hw
    cases d with
    | full => cases hw
    | null =>
      cases hw
      refine ⟨h.ground, h.untouched, h.staged, ?_⟩
      simp only [goOn, herr, advance, face?_device.1 hd]
      exact beforeBytes_hollow ⟨_, hd, hnull⟩ fun _ => hnull rfl

theorem step_write (h : Pending p t m fs₀ u) {f : OpenFile} {b : UInt8} {rest : Bytes}
    (hst : u.stage = .write f b rest) : Pending p t m fs₀ (step p u) := by
  have hstage := h.stage
  rw [hst] at hstage
  obtain ⟨herr, ⟨done, hstaged, hpos, hline⟩ | hhollow⟩ := hstage
  · have hnode := face?_file.1 hstaged.face
    simp only [step, hst]
    split
    · exact h.refused _
    · rename_i fs₁ hw
      rcases writeAt_ok (List.cons_ne_nil b []) hw with ⟨b₀, hb, rfl⟩ | ⟨d, hd, -⟩
      · -- the byte goes behind those that were written
        obtain rfl : done = b₀ := by simpa [hstaged.face] using hb
        rw [hpos, overlay_length]
        refine h.fill hstaged ?_
        rw [herr]
        simp only [advance, hnode]
        refine beforeBytes_ok (hstaged.fill (done ++ [b])) ?_ ?_
        · simp [hpos]
        · simpa using hline
      · rw [hstaged.face] at hd
        cases hd
  · exact step_write_hollow h hst herr hhollow

/-- A warning before the renaming. -/
theorem Pending.warned (h : Pending p t m fs₀ u) (now : Clock.Reading) (text : String) {s : Stage}
    (hs : ∀ fs, StageOK p t.here fs u.error? s) : Pending p t m fs₀ (u.warned now text s) := by
  obtain ⟨hu, hn⟩ := h.ground.record_untouched now text
  exact ⟨h.ground.record now text, h.untouched.trans hu, hn _ _ h.staged, hs _⟩

theorem step_discard (h : Pending p t m fs₀ u) (hst : u.stage = .discard) :
    Pending p t m fs₀ (step p u) := by
  have hname := nameable_staging p.id.seq
  have hstage := h.stage
  rw [hst] at hstage
  have hstay : ∀ s, StageOK p t.here u.fs u.error? s → Pending p t m fs₀ (u.goOn u.fs s) :=
    fun s hs => ⟨h.ground, h.untouched, h.staged, hs⟩
  simp only [step, hst]
  split
  · exact hstay _ hstage
  · exact hstay _ hstage
  · rename_i fs₁ hr
    -- the name is removed, whatever it is bound to
    replace hr := removeName_of_remove hr
    unfold removeName at hr
    rw [Proposal.staged, Current.stagingPathIn,
      h.ground.arrives.walk_keep hname.proper hname.length_le] at hr
    cases hl : u.fs.lookup t.here p.entry with
    | none => simp [hl] at hr
    | some i =>
      simp only [hl] at hr
      split at hr
      · cases hr
      rename_i hd
      rw [Bool.not_eq_true] at hd
      simp only [Bool.false_eq_true, if_false] at hr
      cases hr
      have hc : (Change.unbind t.here p.entry).Fits u.fs := ⟨i, hl⟩
      exact ⟨h.ground.unbind hl hd h.staged,
        h.untouched.trans (Untouched.unbind (staging_ne_current p)),
        h.staged.apply h.ground.sound hc trivial, hstage⟩

/-- The renaming makes the staged file the pointer. -/
theorem step_rename (h : Pending p t m fs₀ u) (hr : Renames p u) :
    Published p t m (step p u) := by
  obtain ⟨hst, fs₁, hr⟩ := hr
  have hname := nameable_staging p.id.seq
  have hstage := h.stage
  rw [hst] at hstage
  obtain ⟨herr, k, hl, hf⟩ := hstage
  have hnd := isDirectory_of_file hf
  simp only [step, hst, hr]
  obtain ⟨rfl, hcur⟩ := h.ground.arrives.rename_file hname.proper nameable_current.proper
    (fun hk => h.ground.apart k hk hl) hl hnd hr
  obtain ⟨hground, hnew, hface⟩ := h.ground.move hl hf hcur
  refine ⟨hground, ⟨k, hnew, hface⟩, herr, ?_⟩
  simp only [goOn, Proposal.afterRename]
  split
  · exact Or.inl rfl
  · exact Or.inr (Or.inr rfl)

/-- **What one call does before the renaming**: it renames the staged file, or leaves the pointer. -/
theorem step_pending (h : Pending p t m fs₀ u) :
    (Renames p u ∧ Published p t m (step p u)) ∨ (¬Renames p u ∧ Pending p t m fs₀ (step p u)) := by
  by_cases hr : Renames p u
  · exact Or.inl ⟨hr, step_rename h hr⟩
  refine Or.inr ⟨hr, ?_⟩
  have hstage := h.stage
  cases hst : u.stage with
  | create => exact step_create h hst
  | write f b rest => exact step_write h hst
  | sync f =>
    rw [hst] at hstage
    obtain ⟨herr, hstaged | ⟨d, hd, -⟩⟩ := hstage
    · simp only [step, hst]
      split
      · exact h.refused _
      · exact ⟨h.ground, h.untouched, h.staged, herr, f.node, hstaged⟩
    · simp only [step, hst, FileSystem.sync, face?_device.1 hd]
      exact h.refused _
  | rename =>
    simp only [step, hst]
    split
    · exact h.refused _
    · rename_i fs₁ hok
      exact absurd ⟨hst, fs₁, hok⟩ hr
  | syncDirectory => rw [hst] at hstage; exact absurd hstage id
  | report e =>
    rw [hst] at hstage
    simp only [step, hst]
    exact h.warned _ _ fun _ => hstage
  | discard => exact step_discard h hst
  | remark text =>
    rw [hst] at hstage
    simp only [step, hst]
    exact h.warned _ _ fun _ => hstage
  | finished => simp only [step, hst]; exact h

/-! ## After the renaming -/

/-- A line in the log leaves the new pointer. -/
theorem Published.warned (h : Published p t m u) (now : Clock.Reading) (text : String) :
    Published p t m (u.warned now text .finished) := by
  obtain ⟨i, hl, hf⟩ := h.current
  obtain ⟨hu, -⟩ := h.ground.record_untouched now text
  refine ⟨h.ground.record now text, ⟨i, ?_, ?_⟩, h.error, Or.inr (Or.inr rfl)⟩
  · exact hu.lookup.trans hl
  · exact (hu.face i hl).trans hf

/-- **What one call does after the renaming**: it leaves the new pointer. -/
theorem step_published (h : Published p t m u) : ¬Renames p u ∧ Published p t m (step p u) := by
  have hstay : ∀ s, (s = .syncDirectory ∨ (∃ text, s = .remark text) ∨ s = .finished) →
      Published p t m (u.goOn u.fs s) := fun s hs => ⟨h.ground, h.current, h.error, hs⟩
  rcases h.stage with hst | ⟨text, hst⟩ | hst
  · refine ⟨not_renames (by simp [hst]), ?_⟩
    simp only [step, hst]
    split
    · exact hstay _ (Or.inr (Or.inl ⟨_, rfl⟩))
    · exact hstay _ (Or.inr (Or.inr rfl))
  · refine ⟨not_renames (by simp [hst]), ?_⟩
    simp only [step, hst]
    exact h.warned _ _
  · refine ⟨not_renames (by simp [hst]), ?_⟩
    simp only [step, hst]
    exact h

/-! ## Any number of calls -/

/-- The staged file was renamed by one of the first `k` calls. -/
def Renamed (p : Proposal) (u : Publication) (k : Nat) : Prop := ∃ j < k, Renames p (after p j u)

theorem after_succ (p : Proposal) (k : Nat) (u : Publication) :
    after p (k + 1) u = step p (after p k u) := after_add p k 1 u

theorem not_renamed_zero (p : Proposal) (u : Publication) : ¬Renamed p u 0 :=
  fun ⟨j, hj, _⟩ => absurd hj (Nat.not_lt_zero j)

theorem not_renamed_succ {k : Nat} (h : ¬Renamed p u k) (hk : ¬Renames p (after p k u)) :
    ¬Renamed p u (k + 1) := by
  rintro ⟨j, hj, hr⟩
  rcases Nat.lt_or_eq_of_le (Nat.le_of_lt_succ hj) with hj | rfl
  · exact h ⟨j, hj, hr⟩
  · exact hk hr

/-- Where a publication is after `k` calls. -/
theorem after_pending (h : Pending p t m fs₀ u) (k : Nat) :
    (Renamed p u k ∧ Published p t m (after p k u)) ∨
      (¬Renamed p u k ∧ Pending p t m fs₀ (after p k u)) := by
  -- published once, it stays published
  induction k with
  | zero => exact Or.inr ⟨not_renamed_zero p u, h⟩
  | succ k ih =>
    rw [after_succ]
    rcases ih with ⟨⟨j, hj, hr⟩, hpub⟩ | ⟨hno, hpend⟩
    · exact Or.inl ⟨⟨j, Nat.lt_succ_of_lt hj, hr⟩, (step_published hpub).2⟩
    · rcases step_pending hpend with ⟨hr, hpub⟩ | ⟨hnr, hpend'⟩
      · exact Or.inl ⟨⟨k, Nat.lt_succ_self k, hr⟩, hpub⟩
      · exact Or.inr ⟨not_renamed_succ hno hnr, hpend'⟩

/-! ## Directories that are gone -/

/-- A publication in a directory to which its path does not lead, any more than in `fs₀`: it fails at
once, and all that it does is to log that. -/
structure Lost (fs₀ : FileSystem) (u : Publication) : Prop where
  ways : SameWays fs₀ u.fs
  stage : (u.stage = .create ∧ u.error? = none) ∨ (u.error?.isSome ∧
    ((∃ e, u.stage = .report e) ∨ u.stage = .discard ∨ (∃ text, u.stage = .remark text) ∨
      u.stage = .finished))

theorem record_sameWays (log : Option SessionLog) (fs : FileSystem) (now : Clock.Reading)
    (text : String) : SameWays fs (SessionLog.record log fs now text).2 := by
  cases log with
  | none => exact .refl fs
  | some l =>
    simp only [SessionLog.record_some]
    rcases (l.write_cases fs now text).2 with hfs | ⟨b, b', hb, hfs⟩
    · rw [hfs]; exact .refl fs
    · rw [hfs]; exact sameWays_fill ⟨b, hb⟩

/-- No name is found where the path of the directory does not lead. -/
theorem walk_of_lost {e : Ending} (hn : Proper n) (hlost : ∀ t m, ¬fs₀.Arrives dir t m)
    (hw : SameWays fs₀ fs) : ∃ err, fs.walk e (Path.ofText (join dir n)) = .error err ∧
      fs₀.walk e (Path.ofText (join dir n)) = .error err := by
  rw [walk_congr hw]
  cases hwalk : fs₀.walk e (Path.ofText (join dir n)) with
  | error err => exact ⟨err, rfl, rfl⟩
  | ok s =>
    obtain ⟨t, m, ha⟩ := arrives_of_walk hn hwalk
    exact absurd ha (hlost t m)

/-- What a reader is told there does not change. -/
theorem read_of_lost (hlost : ∀ t m, ¬fs₀.Arrives dir t m) (hw : SameWays fs₀ fs) :
    Current.read fs dir = Current.read fs₀ dir := by
  obtain ⟨err, h, h₀⟩ := @walk_of_lost fs fs₀ dir _ .follow nameable_current.proper hlost hw
  simp only [Current.read, openForReading, find, reach, Current.pathIn, h, h₀]
  cases err <;> rfl

theorem Lost.warned (h : Lost fs₀ u) (now : Clock.Reading) (text : String) {s : Stage}
    (he : u.error?.isSome) (hs : s = .discard ∨ s = .finished) : Lost fs₀ (u.warned now text s) := by
  have hways : SameWays u.fs (u.warned now text s).fs := by
    rw [warned_fs]
    exact record_sameWays _ _ _ _
  refine ⟨h.ways.trans hways, Or.inr ⟨he, ?_⟩⟩
  rcases hs with rfl | rfl
  · exact Or.inr (Or.inl rfl)
  · exact Or.inr (Or.inr (Or.inr rfl))

/-- **What one call does in a directory that is gone**: nothing but a line in the log. -/
theorem step_lost (hlost : ∀ t m, ¬fs₀.Arrives p.dir t m) (h : Lost fs₀ u) :
    ¬Renames p u ∧ Lost fs₀ (step p u) := by
  have hname := (nameable_staging p.id.seq).proper
  rcases h.stage with ⟨hst, -⟩ | ⟨he, ⟨e, hst⟩ | hst | ⟨text, hst⟩ | hst⟩
  · obtain ⟨err, hwalk, -⟩ := @walk_of_lost u.fs fs₀ p.dir _ .create hname hlost h.ways
    refine ⟨not_renames (by simp [hst]), ?_⟩
    simp only [step, hst, openForWriting, Proposal.staged, Current.stagingPathIn, hwalk]
    exact ⟨h.ways, Or.inr ⟨rfl, Or.inl ⟨_, rfl⟩⟩⟩
  · refine ⟨not_renames (by simp [hst]), ?_⟩
    simp only [step, hst]
    exact h.warned _ _ he (Or.inl rfl)
  · obtain ⟨err, hwalk, -⟩ := @walk_of_lost u.fs fs₀ p.dir _ .keep hname hlost h.ways
    refine ⟨not_renames (by simp [hst]), ?_⟩
    simp only [step, hst]
    split
    · exact ⟨h.ways, Or.inr ⟨he, Or.inr (Or.inr (Or.inr rfl))⟩⟩
    · exact ⟨h.ways, Or.inr ⟨he, Or.inr (Or.inr (Or.inl ⟨_, rfl⟩))⟩⟩
    · rename_i hok
      replace hok := removeName_of_remove hok
      rw [removeName, Proposal.staged, Current.stagingPathIn, hwalk] at hok
      cases hok
  · refine ⟨not_renames (by simp [hst]), ?_⟩
    simp only [step, hst]
    exact h.warned _ _ he (Or.inr rfl)
  · refine ⟨not_renames (by simp [hst]), ?_⟩
    simp only [step, hst]
    exact h

theorem after_lost (hlost : ∀ t m, ¬fs₀.Arrives p.dir t m) (h : Lost fs₀ u) (k : Nat) :
    ¬Renamed p u k ∧ Lost fs₀ (after p k u) := by
  induction k with
  | zero => exact ⟨not_renamed_zero p u, h⟩
  | succ k ih =>
    obtain ⟨hno, hk⟩ := ih
    obtain ⟨hnr, hnext⟩ := step_lost hlost hk
    rw [after_succ]
    exact ⟨not_renamed_succ hno hnr, hnext⟩

/-! ## What was left of an earlier publication -/

/-- **What the staged file held before makes no difference**: it is emptied by the first call. -/
theorem after_leftover {b : Bytes} (hg : Ground p t m log fs) (hn : NoLink fs t.here p.entry)
    (hl : fs.lookup t.here p.entry = some i) (hf : fs.face? i = some (.file b)) (b' : Bytes)
    (k : Nat) :
    after p (k + 1) (begin (fs.setNode i (.file b')) log) = after p (k + 1) (begin fs log) := by
  have hname := nameable_staging p.id.seq
  have hc : (Change.fill i b').Fits fs := ⟨b, hf⟩
  have hg' : Ground p t m log (fs.setNode i (.file b')) := hg.gentle hc trivial trivial
  have hn' : NoLink (fs.setNode i (.file b')) t.here p.entry := hn.apply hg.sound hc trivial
  have hl' : (fs.setNode i (.file b')).lookup t.here p.entry = some i := by
    rw [lookup_fill hf]
    exact hl
  have hf' : (fs.setNode i (.file b')).face? i = some (.file b') := by simp [face?_setNode, Node.face]
  have hwalk : fs.walk .create (Path.ofText p.staged) = .ok (.entry t p.entry (some i) false) := by
    rw [← hl]
    exact hg.arrives.walk_last hname.proper hname.length_le (by decide) hn
  have hwalk' : (fs.setNode i (.file b')).walk .create (Path.ofText p.staged) =
      .ok (.entry t p.entry (some i) false) := by
    rw [← hl']
    exact hg'.arrives.walk_last hname.proper hname.length_le (by decide) hn'
  have hopen : fs.openForWriting true p.staged = .ok (fs.setNode i (.file []), i) := by
    simp only [openForWriting, hwalk, face?_file.1 hf, if_true]
  have hopen' : (fs.setNode i (.file b')).openForWriting true p.staged =
      .ok (fs.setNode i (.file []), i) := by
    simp only [openForWriting, hwalk', face?_file.1 hf', if_true]
    simp only [setNode, Table.insert_insert]
  -- emptied by the first call, the file is the same in both
  have hstep : step p (begin (fs.setNode i (.file b')) log) = step p (begin fs log) := by
    simp only [step, begin, hopen, hopen', goOn]
  rw [after, after, hstep]

end Publication

end EngineDir
