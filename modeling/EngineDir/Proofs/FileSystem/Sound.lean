import EngineDir.Proofs.FileSystem.Faces

/-!
# Sound file systems

Every operation is a sequence of a few kinds of changes (`Change`), each of which
fits the file system that it is made on. Such changes keep a file system sound.

* `FileSystem.Sound`: the root is a directory, names are proper and bound to
  nodes that are there, no directory has two names, and no number is given twice.
  A file may have several names.
* `FileSystem.OneName`: no file has two names in a directory. This is no part of being sound.
* `Change.sound`: **a change that fits keeps a sound file system sound.**
* `FileSystem.Sound.link`: a sound file system stays so when a file gets a second name.
* `Leads`: one file system comes from another by changes of a given kind.
* `Leads.lookup`, `Leads.face?`: what such changes leave as it was.
-/

namespace EngineDir

/-- A name as it can stand between the slashes of a path. -/
structure Proper (n : Bytes) : Prop where
  ne_nil : n ≠ []
  ne_here : n ≠ [46]
  ne_up : n ≠ [46, 46]
  slash_notMem : slash ∉ n
  zero_notMem : (0 : UInt8) ∉ n

/-- A node as it is made: a directory is empty, and a link's text holds no zero byte. -/
def Node.Blank : Node → Prop
  | .directory d => d = { entries := Table.empty, made := 0 }
  | .link t => (0 : UInt8) ∉ t
  | _ => True

theorem Node.Blank.entries {n : Node} (h : n.Blank) (d : Directory) (hd : n = .directory d) :
    d.entries = Table.empty := by
  subst hd
  exact congrArg Directory.entries h

theorem Node.Blank.made {n : Node} (h : n.Blank) (d : Directory) (hd : n = .directory d) :
    d.made = 0 := by
  subst hd
  exact congrArg Directory.made h

/-- A change of a file system. -/
inductive Change where
  /-- A file gets new contents. -/
  | fill (i : NodeId) (bytes : Bytes)
  | make (i : NodeId) (name : Bytes) (n : Node)
  | unbind (i : NodeId) (name : Bytes)
  /-- A name goes, and the node that it was bound to gets another one. -/
  | move (i : NodeId) (name : Bytes) (i' : NodeId) (name' : Bytes) (j : NodeId)
  /-- All names of a directory go. -/
  | clear (i : NodeId)
  | lock (i : NodeId)
  | unlock (i : NodeId)

namespace Change

/-- Makes the change. -/
def apply (fs : FileSystem) : Change → FileSystem
  | .fill i b => fs.setNode i (.file b)
  | .make i name n => fs.make i name n
  | .unbind i name => fs.unbind i name
  | .move i name i' name' j => (fs.unbind i name).bind i' name' j
  | .clear i => fs.mapDirectory i fun d => { d with entries := Table.empty }
  | .lock i => { fs with locked := i :: fs.locked }
  | .unlock i => fs.unlock i

/-- What has to hold for the change to be made. -/
def Fits (fs : FileSystem) : Change → Prop
  | .fill i _ => ∃ b, fs.face? i = some (.file b)
  | .make i name n => fs.isDirectory i = true ∧ Proper name ∧ name.length ≤ FileSystem.nameLimit ∧
      fs.lookup i name = none ∧ n.Blank
  | .unbind i name => ∃ j, fs.lookup i name = some j
  | .move i name i' name' j => fs.lookup i name = some j ∧ fs.isDirectory i' = true ∧ Proper name' ∧
      name'.length ≤ FileSystem.nameLimit
  | .clear i => fs.isDirectory i = true
  | .lock i => i ∉ fs.locked ∧ ∃ f, fs.face? i = some f
  | .unlock _ => True

/-- Whether a name stays bound to what it is bound to, in every directory. -/
def Spares (name : Bytes) : Change → Prop
  | .unbind _ m => m ≠ name
  | .move _ m _ m' _ => m ≠ name ∧ m' ≠ name
  | .clear _ => False
  | _ => True

end Change

/-- What an operation may do, apart from locks. -/
def Change.Unlocking : Change → Prop
  | .lock _ => False
  | .unlock _ => False
  | _ => True

namespace FileSystem

/-- What every change keeps. It is asked of directories alone that they have one name: a file may
have several, in one directory or in more. -/
structure Sound (fs : FileSystem) : Prop where
  root : fs.face? root = some .directory
  proper : ∀ {i name j}, fs.lookup i name = some j → Proper name ∧ name.length ≤ nameLimit
  bound : ∀ {i name j}, fs.lookup i name = some j → ∃ f, fs.face? j = some f
  /-- No directory has two names. -/
  unique : ∀ {i name i' name' j}, fs.isDirectory j = true → fs.lookup i name = some j →
    fs.lookup i' name' = some j → i = i' ∧ name = name'
  root_free : ∀ {i name}, fs.lookup i name ≠ some FileSystem.root
  /-- A node that was made in a directory is one of those that the directory counts. -/
  counted : ∀ {i n f}, fs.face? (i.child n) = some f →
    fs.face? i = some .directory ∧ n < fs.madeIn i
  target : ∀ {i t}, fs.face? i = some (.link t) → (0 : UInt8) ∉ t
  locked : ∀ {i}, i ∈ fs.locked → ∃ f, fs.face? i = some f

/-- Nothing has two names in the directory `D`. Its files may have other names elsewhere. -/
def OneName (D : NodeId) (fs : FileSystem) : Prop :=
  ∀ n n' j, fs.lookup D n = some j → fs.lookup D n' = some j → n = n'

variable {fs fs' : FileSystem} {i j : NodeId} {name : Bytes}

theorem oneName_of_empty {D : NodeId} (h : ∀ n, fs.lookup D n = none) : fs.OneName D := by
  intro n n' j hl
  rw [h n] at hl
  cases hl

/-- The next node is a new one. -/
theorem Sound.fresh (hs : fs.Sound) (i : NodeId) : fs.face? (fs.nextId i) = none := by
  cases h : fs.face? (fs.nextId i) with
  | none => rfl
  | some f => exact absurd (hs.counted h).2 (Nat.lt_irrefl _)

theorem Sound.isDirectory_root (hs : fs.Sound) : fs.isDirectory FileSystem.root = true :=
  isDirectory_iff.2 hs.root

/-- What a name is bound to is not the next node. -/
theorem Sound.ne_nextId (hs : fs.Sound) {k : NodeId} (h : fs.lookup i name = some j) :
    j ≠ fs.nextId k := by
  rintro rfl
  obtain ⟨f, hf⟩ := hs.bound h
  rw [hs.fresh k] at hf
  cases hf

end FileSystem

namespace Change

open FileSystem

variable {fs fs' : FileSystem} {c : Change} {i j : NodeId} {name : Bytes}

/-- What a node is after a change: a file may have other contents, and one node may be new. -/
theorem face?_apply (hc : c.Fits fs) {f : Face} (h : fs.face? i = some f) (hs : fs.Sound) :
    (c.apply fs).face? i = some f ∨ ∃ b b', f = .file b ∧ (c.apply fs).face? i = some (.file b') := by
  cases c with
  | fill k b =>
    simp only [apply, face?_setNode]
    by_cases hi : i = k
    · obtain ⟨b₀, hb⟩ := hc
      rw [hi, hb] at h
      rw [if_pos hi]
      exact Or.inr ⟨b₀, b, (Option.some.inj h).symm, rfl⟩
    · rw [if_neg hi]; exact Or.inl h
  | make k m n =>
    simp only [apply, face?_make]
    -- the new node was not there before
    have hi : i ≠ fs.nextId k := by
      rintro rfl
      rw [hs.fresh k] at h
      cases h
    rw [if_neg hi]; exact Or.inl h
  | unbind k m => exact Or.inl (by simpa [apply] using h)
  | move k m k' m' l => exact Or.inl (by simpa [apply] using h)
  | clear k => exact Or.inl (by simpa [apply] using h)
  | lock k => exact Or.inl h
  | unlock k => exact Or.inl h

/-- What is there before a change is there after it. -/
theorem exists_face?_apply (hc : c.Fits fs) (hs : fs.Sound) {f : Face} (h : fs.face? i = some f) :
    ∃ f', (c.apply fs).face? i = some f' := by
  rcases face?_apply hc h hs with h' | ⟨b, b', -, h'⟩
  · exact ⟨f, h'⟩
  · exact ⟨_, h'⟩

/-- A directory stays one. -/
theorem directory_apply (hc : c.Fits fs) (hs : fs.Sound) (h : fs.face? i = some .directory) :
    (c.apply fs).face? i = some .directory := by
  rcases face?_apply hc h hs with h' | ⟨b, b', hb, -⟩
  · exact h'
  · cases hb

/-- What a name is bound to after a change it was bound to before, unless the change gave it the
name. -/
theorem lookup_of_apply (hc : c.Fits fs) (hs : fs.Sound) (h : (c.apply fs).lookup i name = some j) :
    fs.lookup i name = some j ∨ (∃ n, c = .make i name n ∧ j = fs.nextId i) ∨
      ∃ k m, c = .move k m i name j := by
  cases c with
  | fill k b =>
    obtain ⟨b₀, hb⟩ := hc
    simp only [apply] at h
    rw [lookup_fill hb] at h
    exact Or.inl h
  | make k m n =>
    obtain ⟨hd, -, -, -, hn⟩ := hc
    simp only [apply, lookup_make hd (hs.fresh k) hn.entries] at h
    split at h
    · rename_i he
      obtain ⟨rfl, rfl⟩ := he
      exact Or.inr (Or.inl ⟨n, rfl, (Option.some.inj h).symm⟩)
    · exact Or.inl h
  | unbind k m =>
    simp only [apply, lookup_unbind] at h
    split at h
    · cases h
    · exact Or.inl h
  | move k m k' m' l =>
    obtain ⟨-, hd, -, -⟩ := hc
    simp only [apply] at h
    -- the old name goes first, then the new one is bound
    rw [lookup_bind (by simpa using hd)] at h
    split at h
    · rename_i he
      obtain ⟨rfl, rfl⟩ := he
      exact Or.inr (Or.inr ⟨k, m, by rw [Option.some.inj h]⟩)
    · rw [lookup_unbind] at h
      split at h
      · cases h
      · exact Or.inl h
  | clear k =>
    simp only [apply, lookup_mapDirectory] at h
    split at h
    · cases hd : fs.directory? k <;> simp [hd] at h
    · exact Or.inl h
  | lock k => exact Or.inl h
  | unlock k => exact Or.inl h

/-- What is a directory after a change was one before, or is new. -/
theorem isDirectory_of_apply (hc : c.Fits fs) (h : (c.apply fs).isDirectory i = true) :
    fs.isDirectory i = true ∨ ∃ k m n, c = .make k m n ∧ i = fs.nextId k := by
  rw [isDirectory_iff] at h ⊢
  cases c with
  | fill k b =>
    simp only [apply, face?_setNode] at h
    split at h
    · cases h
    · exact Or.inl h
  | make k m n =>
    simp only [apply, face?_make] at h
    split at h
    · rename_i hi; exact Or.inr ⟨k, m, n, rfl, hi⟩
    · exact Or.inl h
  | unbind k m => exact Or.inl (by simpa [apply] using h)
  | move k m k' m' l => exact Or.inl (by simpa [apply] using h)
  | clear k => exact Or.inl (by simpa [apply] using h)
  | lock k => exact Or.inl h
  | unlock k => exact Or.inl h

/-- A directory that is moved loses its old name. -/
theorem lookup_move_ne {k k' l : NodeId} {m m' : Bytes} (hs : fs.Sound)
    (hc : (Change.move k m k' m' l).Fits fs) (hdir : fs.isDirectory l = true)
    (h : ((Change.move k m k' m' l).apply fs).lookup i name = some l) : i = k' ∧ name = m' := by
  obtain ⟨hl, hd, -, -⟩ := hc
  simp only [apply] at h
  rw [lookup_bind (by simpa using hd)] at h
  split at h
  · assumption
  · rename_i hne
    rw [lookup_unbind] at h
    split at h
    · cases h
    · rename_i hne'
      -- it had no other name than the one that went
      exact absurd (hs.unique hdir h hl) hne'

/-- No two names of a file system are bound to one directory after a change. -/
theorem unique_apply (hc : c.Fits fs) (hs : fs.Sound) {i' : NodeId} {name' : Bytes}
    (hdir : (c.apply fs).isDirectory j = true) (h : (c.apply fs).lookup i name = some j)
    (h' : (c.apply fs).lookup i' name' = some j) : i = i' ∧ name = name' := by
  -- what had a name before is no new node
  have hold : ∀ {k m}, fs.lookup k m = some j → fs.isDirectory j = true := by
    intro k m hk
    rcases isDirectory_of_apply hc hdir with hd | ⟨k', m', n', -, he⟩
    · exact hd
    · exact absurd he (hs.ne_nextId hk)
  -- each of the two names is an old one, or that of a new node, or that of a moved one
  rcases lookup_of_apply hc hs h with h₁ | ⟨n, rfl, rfl⟩ | ⟨k, m, rfl⟩
  · rcases lookup_of_apply hc hs h' with h₂ | ⟨n, rfl, rfl⟩ | ⟨k, m, rfl⟩
    · exact hs.unique (hold h₁) h₁ h₂
    · exact absurd rfl (hs.ne_nextId h₁)
    · exact lookup_move_ne hs hc (hold h₁) h
  · rcases lookup_of_apply hc hs h' with h₂ | ⟨n', he, -⟩ | ⟨k, m, he⟩
    · exact absurd rfl (hs.ne_nextId h₂)
    · cases he; exact ⟨rfl, rfl⟩
    · cases he
  · have := lookup_move_ne hs hc (hold hc.1) h'
    exact ⟨this.1.symm, this.2.symm⟩

/-- A directory counts no fewer nodes after a change. -/
theorem madeIn_le_apply (hc : c.Fits fs) (hs : fs.Sound) (i : NodeId) :
    fs.madeIn i ≤ (c.apply fs).madeIn i := by
  cases c with
  | fill k b =>
    obtain ⟨b₀, hb⟩ := hc
    have hk := isDirectory_of_file hb
    simp only [apply, madeIn_setNode hk (by simp : ∀ d, Node.file b = .directory d → d.made = 0),
      Nat.le_refl]
  | make k m n =>
    obtain ⟨hd, -, -, -, hn⟩ := hc
    simp only [apply, madeIn_make hd (hs.fresh k) hn.made]
    split
    · rename_i hi; rw [hi]; omega
    · exact Nat.le_refl _
  | unbind k m => simp [apply, madeIn_unbind]
  | move k m k' m' l => simp [apply, madeIn_bind, madeIn_unbind]
  | clear k =>
    refine Nat.le_of_eq (Eq.symm ?_)
    exact madeIn_mapDirectory (f := fun d => { d with entries := Table.empty }) fun _ => rfl
  | lock k => exact Nat.le_refl _
  | unlock k => exact Nat.le_refl _

/-- The nodes after a change are those before it, and the one that it made. -/
theorem face?_of_apply (hc : c.Fits fs) {f : Face} (h : (c.apply fs).face? i = some f) :
    fs.face? i = some f ∨ (∃ k, c = .fill i k) ∨
      ∃ k m n, c = .make k m n ∧ i = fs.nextId k ∧ f = n.face := by
  cases c with
  | fill k b =>
    simp only [apply, face?_setNode] at h
    split at h
    · rename_i hi; subst hi; exact Or.inr (Or.inl ⟨b, rfl⟩)
    · exact Or.inl h
  | make k m n =>
    simp only [apply, face?_make] at h
    split at h
    · rename_i hi; exact Or.inr (Or.inr ⟨k, m, n, rfl, hi, (Option.some.inj h).symm⟩)
    · exact Or.inl h
  | unbind k m => exact Or.inl (by simpa [apply] using h)
  | move k m k' m' l => exact Or.inl (by simpa [apply] using h)
  | clear k => exact Or.inl (by simpa [apply] using h)
  | lock k => exact Or.inl h
  | unlock k => exact Or.inl h

/-- The count of nodes stays right. -/
theorem counted_apply (hc : c.Fits fs) (hs : fs.Sound) {n : Nat} {f : Face}
    (h : (c.apply fs).face? (i.child n) = some f) :
    (c.apply fs).face? i = some .directory ∧ n < (c.apply fs).madeIn i := by
  rcases face?_of_apply hc h with h₁ | ⟨b, rfl⟩ | ⟨k, m, nd, rfl, hi, -⟩
  · obtain ⟨hd, hn⟩ := hs.counted h₁
    exact ⟨directory_apply hc hs hd, Nat.lt_of_lt_of_le hn (madeIn_le_apply hc hs i)⟩
  · obtain ⟨hd, hn⟩ := hs.counted hc.choose_spec
    exact ⟨directory_apply hc hs hd, Nat.lt_of_lt_of_le hn (madeIn_le_apply hc hs i)⟩
  · -- the new node is the next one of its directory, whose count goes up
    obtain ⟨rfl, rfl⟩ := NodeId.child_inj.1 hi
    refine ⟨directory_apply hc hs (isDirectory_iff.1 hc.1), ?_⟩
    simp only [apply, madeIn_make hc.1 (hs.fresh i) hc.2.2.2.2.made, if_true]
    omega

/-- **A change that fits keeps a sound file system sound.** -/
theorem sound (hc : c.Fits fs) (hs : fs.Sound) : (c.apply fs).Sound where
  root := directory_apply hc hs hs.root
  proper := by
    intro i name j h
    rcases lookup_of_apply hc hs h with h₁ | ⟨n, rfl, -⟩ | ⟨k, m, rfl⟩
    · exact hs.proper h₁
    · exact ⟨hc.2.1, hc.2.2.1⟩
    · exact ⟨hc.2.2.1, hc.2.2.2⟩
  bound := by
    intro i name j h
    rcases lookup_of_apply hc hs h with h₁ | ⟨n, rfl, rfl⟩ | ⟨k, m, rfl⟩
    · obtain ⟨f, hf⟩ := hs.bound h₁
      exact exists_face?_apply hc hs hf
    · exact ⟨n.face, by simp [apply, face?_make]⟩
    · obtain ⟨f, hf⟩ := hs.bound hc.1
      exact exists_face?_apply hc hs hf
  unique := unique_apply hc hs
  root_free := by
    intro i name h
    rcases lookup_of_apply hc hs h with h₁ | ⟨n, rfl, hr⟩ | ⟨k, m, rfl⟩
    · exact hs.root_free h₁
    · exact child_ne_root _ _ hr.symm
    · exact hs.root_free hc.1
  counted := counted_apply hc hs
  target := by
    intro i t h
    rcases face?_of_apply hc h with h₁ | ⟨b, rfl⟩ | ⟨k, m, n, rfl, -, hn⟩
    · exact hs.target h₁
    · simp [apply, face?_setNode, Node.face] at h
    · cases n with
      | link t' =>
        obtain rfl : t = t' := by simpa [Node.face] using hn
        exact hc.2.2.2.2
      | file b => cases hn
      | directory d => cases hn
      | device d => cases hn
  locked := by
    intro i h
    -- a lock is taken on what is there; no other change locks anything
    have hold : i ∈ fs.locked ∨ c = .lock i := by
      cases c with
      | lock k =>
        rcases List.mem_cons.1 h with rfl | h
        · exact Or.inr rfl
        · exact Or.inl h
      | unlock k => exact Or.inl (mem_locked_unlock.1 h).1
      | fill k b => exact Or.inl h
      | make k m n => exact Or.inl (by simpa [apply] using h)
      | unbind k m => exact Or.inl (by simpa [apply] using h)
      | move k m k' m' l => exact Or.inl (by simpa [apply] using h)
      | clear k => exact Or.inl (by simpa [apply] using h)
    rcases hold with h₁ | rfl
    · obtain ⟨f, hf⟩ := hs.locked h₁
      exact exists_face?_apply hc hs hf
    · exact hc.2

/-- A name that a change spares stays bound to its node. -/
theorem lookup_apply (hc : c.Fits fs) (hs : fs.Sound) (hq : c.Spares name)
    (h : fs.lookup i name = some j) : (c.apply fs).lookup i name = some j := by
  cases c with
  | fill k b =>
    obtain ⟨b₀, hb⟩ := hc
    simp only [apply]
    rw [lookup_fill hb]
    exact h
  | make k m n =>
    obtain ⟨hd, -, -, hfree, hn⟩ := hc
    simp only [apply, lookup_make hd (hs.fresh k) hn.entries]
    have hne : ¬(i = k ∧ name = m) := by
      rintro ⟨rfl, rfl⟩
      rw [hfree] at h
      cases h
    rw [if_neg hne]
    exact h
  | unbind k m =>
    simp only [apply, lookup_unbind]
    rw [if_neg fun e => hq e.2.symm]
    exact h
  | move k m k' m' l =>
    simp only [apply]
    rw [lookup_bind (by simpa using hc.2.1), if_neg fun e => hq.2 e.2.symm, lookup_unbind,
      if_neg fun e => hq.1 e.2.symm]
    exact h
  | clear k => exact absurd hq id
  | lock k => exact h
  | unlock k => exact h

/-- What a change that takes and frees no lock leaves of the locks. -/
theorem locked_apply (hq : c.Unlocking) : (c.apply fs).locked = fs.locked := by
  cases c with
  | lock k => exact absurd hq id
  | unlock k => exact absurd hq id
  | fill k b => rfl
  | make k m n => simp [apply]
  | unbind k m => simp [apply]
  | move k m k' m' l => simp [apply]
  | clear k => simp [apply]

/-- What the system refuses, it refuses after a change. -/
@[simp] theorem refusals_apply : (c.apply fs).refusals = fs.refusals := by
  cases c <;> simp [apply]

end Change

/-- One file system comes from another by changes in `Q`, each of which fits. -/
inductive Leads (Q : Change → Prop) (fs : FileSystem) : FileSystem → Prop where
  | refl : Leads Q fs fs
  | step {fs' : FileSystem} {c : Change} :
      Leads Q fs fs' → c.Fits fs' → Q c → Leads Q fs (c.apply fs')

namespace Leads

open FileSystem

variable {Q R : Change → Prop} {fs fs' fs'' : FileSystem} {i j : NodeId} {name : Bytes}

theorem one {c : Change} (hc : c.Fits fs) (hq : Q c) : Leads Q fs (c.apply fs) :=
  Leads.refl.step hc hq

theorem trans (h : Leads Q fs fs') (h' : Leads Q fs' fs'') : Leads Q fs fs'' := by
  induction h' with
  | refl => exact h
  | step _ hc hq ih => exact ih.step hc hq

theorem mono (hQ : ∀ c, Q c → R c) (h : Leads Q fs fs') : Leads R fs fs' := by
  induction h with
  | refl => exact .refl
  | step _ hc hq ih => exact ih.step hc (hQ _ hq)

/-- Changes that fit keep a sound file system sound. -/
theorem sound (h : Leads Q fs fs') (hs : fs.Sound) : fs'.Sound := by
  induction h with
  | refl => exact hs
  | step _ hc _ ih => exact Change.sound hc ih

/-- What a node is stays, but for the contents of a file. -/
theorem face? (h : Leads Q fs fs') (hs : fs.Sound) {f : Face} (hf : fs.face? i = some f) :
    fs'.face? i = some f ∨ ∃ b b', f = .file b ∧ fs'.face? i = some (.file b') := by
  induction h with
  | refl => exact Or.inl hf
  | step hl hc _ ih =>
    rcases ih with h₁ | ⟨b, b', rfl, h₁⟩
    · exact Change.face?_apply hc h₁ (hl.sound hs)
    · rcases Change.face?_apply hc h₁ (hl.sound hs) with h₂ | ⟨_, b'', -, h₂⟩
      · exact Or.inr ⟨b, b', rfl, h₂⟩
      · exact Or.inr ⟨b, b'', rfl, h₂⟩

/-- What is there stays there. -/
theorem exists_face? (h : Leads Q fs fs') (hs : fs.Sound) (hf : ∃ f, fs.face? i = some f) :
    ∃ f, fs'.face? i = some f := by
  obtain ⟨f, hf⟩ := hf
  rcases h.face? hs hf with h' | ⟨_, b', -, h'⟩
  · exact ⟨f, h'⟩
  · exact ⟨_, h'⟩

theorem directory (h : Leads Q fs fs') (hs : fs.Sound) (hd : fs.face? i = some .directory) :
    fs'.face? i = some .directory := by
  rcases h.face? hs hd with h' | ⟨b, b', hb, -⟩
  · exact h'
  · cases hb

theorem isDirectory (h : Leads Q fs fs') (hs : fs.Sound) (hd : fs.isDirectory i = true) :
    fs'.isDirectory i = true :=
  isDirectory_iff.2 (h.directory hs (isDirectory_iff.1 hd))

/-- A name that every change spares stays bound to its node. -/
theorem lookup (h : Leads Q fs fs') (hs : fs.Sound) (hQ : ∀ c, Q c → c.Spares name)
    (hl : fs.lookup i name = some j) : fs'.lookup i name = some j := by
  induction h with
  | refl => exact hl
  | step h' hc hq ih => exact Change.lookup_apply hc (h'.sound hs) (hQ _ hq) ih

/-- Changes without locks leave the locks. -/
theorem locked (h : Leads Q fs fs') (hQ : ∀ c, Q c → c.Unlocking) : fs'.locked = fs.locked := by
  induction h with
  | refl => rfl
  | step _ _ hq ih => rw [Change.locked_apply (hQ _ hq), ih]

/-- No change touches what the system refuses. -/
theorem refusals (h : Leads Q fs fs') : fs'.refusals = fs.refusals := by
  induction h with
  | refl => rfl
  | step _ _ _ ih => rw [Change.refusals_apply, ih]

end Leads

namespace FileSystem

variable {fs : FileSystem} {j : NodeId} {name : Bytes} {r : SystemRefusals}

/-- What the system refuses has no part in what is sound. -/
theorem Sound.refusing (hs : fs.Sound) (r : SystemRefusals) : ({ fs with refusals := r }).Sound :=
  ⟨hs.root, hs.proper, hs.bound, hs.unique, hs.root_free, hs.counted, hs.target, hs.locked⟩

/-- **A second name for a file leaves a sound file system sound.** No change gives one, so two names
of one file are there from the beginning or not at all. -/
theorem Sound.link (hs : fs.Sound) {D : NodeId} (hD : fs.isDirectory D = true) (hn : Proper name)
    (hlen : name.length ≤ nameLimit) {b : Bytes} (hj : fs.face? j = some (.file b)) :
    (fs.bind D name j).Sound where
  root := by simpa using hs.root
  proper := by
    intro i m k h
    rw [lookup_bind hD] at h
    split at h
    · rename_i he; rw [he.2]; exact ⟨hn, hlen⟩
    · exact hs.proper h
  bound := by
    intro i m k h
    rw [lookup_bind hD] at h
    simp only [face?_bind]
    split at h
    · rw [← Option.some.inj h]; exact ⟨_, hj⟩
    · exact hs.bound h
  unique := by
    intro i m i' m' k hk h h'
    rw [bind, isDirectory_mapDirectory] at hk
    -- the file that got the name is no directory
    have hne : ∀ {i m}, (fs.bind D name j).lookup i m = some k → fs.lookup i m = some k := by
      intro i m hl
      rw [lookup_bind hD] at hl
      split at hl
      · rw [← Option.some.inj hl, isDirectory_of_file hj] at hk; cases hk
      · exact hl
    exact hs.unique hk (hne h) (hne h')
  root_free := by
    intro i m h
    rw [lookup_bind hD] at h
    split at h
    · rw [Option.some.inj h, hs.root] at hj; cases hj
    · exact hs.root_free h
  counted := by
    intro i n f h
    simp only [face?_bind, madeIn_bind] at h ⊢
    exact hs.counted h
  target := by
    intro i t h
    simp only [face?_bind] at h
    exact hs.target h
  locked := by
    intro i h
    simp only [locked_bind, face?_bind] at h ⊢
    exact hs.locked h

theorem face?_bare (i : NodeId) : (bare r).face? i = if i = root then some .directory else none := by
  simp only [face?, node?, bare, Table.get?_insert, Table.get?_empty]
  split <;> rfl

theorem lookup_bare (i : NodeId) (name : Bytes) : (bare r).lookup i name = none := by
  by_cases hi : i = root
  · subst hi; rfl
  · simp [lookup, directory?, node?, bare, Table.get?_insert, hi]

theorem bare_sound : (bare r).Sound where
  root := by rw [face?_bare, if_pos rfl]
  proper := by intro i name j h; rw [lookup_bare] at h; cases h
  bound := by intro i name j h; rw [lookup_bare] at h; cases h
  unique := by intro i name i' name' j _ h; rw [lookup_bare] at h; cases h
  root_free := by intro i name h; rw [lookup_bare] at h; cases h
  counted := by
    intro i n f h
    rw [face?_bare, if_neg (child_ne_root i n)] at h
    cases h
  target := by
    intro i t h
    rw [face?_bare] at h
    split at h <;> cases h
  locked := by intro i h; cases h

/-- A name of a few letters. -/
theorem proper_of_all {cs : List Char} (h : (Utf8.encode cs).all (fun b => decide (97 ≤ b)) = true)
    (hne : Utf8.encode cs ≠ []) : Proper (Utf8.encode cs) := by
  rw [List.all_eq_true] at h
  have hlow : ∀ b : UInt8, b ∈ Utf8.encode cs → 97 ≤ b := fun b hb => by simpa using h b hb
  refine ⟨hne, ?_, ?_, ?_, ?_⟩
  · intro he; exact absurd (hlow 46 (by simp [he])) (by decide)
  · intro he; exact absurd (hlow 46 (by simp [he])) (by decide)
  · intro hb; exact absurd (hlow _ hb) (by decide)
  · intro hb; exact absurd (hlow _ hb) (by decide)

/-- **The first file system is sound.** -/
theorem initial_sound : initial.Sound := by
  have hdev : (Change.make root (Utf8.encode ['d', 'e', 'v']) emptyDirectory).Fits (bare .longPaths) :=
    ⟨by decide, proper_of_all (by decide) (by decide), by decide, lookup_bare _ _, rfl⟩
  have h₁ := Change.sound hdev bare_sound
  have h₂ := Change.sound
    (c := .make (root.child 0) (Utf8.encode ['n', 'u', 'l', 'l']) (.device .null))
    ⟨by decide, proper_of_all (by decide) (by decide), by decide, by decide, trivial⟩ h₁
  exact Change.sound
    (c := .make (root.child 0) (Utf8.encode ['f', 'u', 'l', 'l']) (.device .full))
    ⟨by decide, proper_of_all (by decide) (by decide), by decide, by decide, trivial⟩ h₂

end FileSystem

end EngineDir
