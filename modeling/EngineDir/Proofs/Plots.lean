import EngineDir.Proofs.Works

/-!
# Plots

The plot of a directory is what is its own: what it holds, and what will be made in it. An operation
on names of the directory stays in the plot, and what it sees of the file system is the plot.

* `Below`: what a directory holds. `Below.comparable`: of two directories that hold the same, one
  holds the other.
* `Plot`: the nodes `S` are a plot of the directory. `Confined`: nothing changed but in `S`.
* `Twins`: two file systems that agree on a plot. `Alike`: what comes of both when the same is done
  to them.
* `Twins.apply`: **a change in the plot does the same to both, and nothing outside.**
* `Twins.openForWriting`, `Twins.remove`, `Twins.rename`, …: so does every operation.
* `Twins.below_iff`: **twins hold the same in the directory.**
* `Trail.plot`, `Trail.Stands.plots_apart`: the plot of a directory that is there; two of these,
  neither inside the other, have nothing in common.
* `Plot.untouched`: a plot in which nothing changes. `Plot.confined`: **what is confined to another
  plot leaves the plot.**
-/

namespace EngineDir

open FileSystem

variable {fs fs' g g' k k' : FileSystem} {S T : NodeId → Prop} {t : Trail} {c : Change}
  {D E i j : NodeId} {n n' : Bytes}

/-! ## What a directory holds -/

/-- The node is the directory `D`, or below it. -/
inductive Below (fs : FileSystem) (D : NodeId) : NodeId → Prop
  | here : Below fs D D
  | entry {i j : NodeId} {n : Bytes} (h : Below fs D i) (hl : fs.lookup i n = some j) : Below fs D j

theorem Below.trans (h : Below fs D E) (h' : Below fs E i) : Below fs D i := by
  induction h' with
  | here => exact h
  | entry _ hl ih => exact ih.entry hl

/-- What is below something that is there is there. -/
theorem Below.exists_face? (h : Below fs D i) (hs : fs.Sound) (hD : ∃ f, fs.face? D = some f) :
    ∃ f, fs.face? i = some f := by
  cases h with
  | here => exact hD
  | entry _ hl => exact hs.bound hl

/-- **Of two directories that hold the same directory, one holds the other.** A file may have a name in
each of them. -/
theorem Below.comparable (hs : fs.Sound) (hi : fs.isDirectory i = true) (h : Below fs D i)
    (h' : Below fs E i) : Below fs D E ∨ Below fs E D := by
  induction h with
  | here => exact Or.inr h'
  | entry h hl ih =>
    cases h' with
    | here => exact Or.inl (h.entry hl)
    | entry h₂ hl₂ =>
      obtain ⟨rfl, -⟩ := hs.unique hi hl hl₂
      exact ih (isDirectory_of_lookup hl) h₂

/-- A directory is below those that its trail leads through. -/
theorem Trail.Stands.below (ht : t.Stands fs) (hi : i = root ∨ i ∈ t.map Prod.snd) :
    Below fs i t.here := by
  induction t with
  | nil =>
    obtain rfl := hi.resolve_right (by simp)
    exact .here
  | cons e t ih =>
    obtain ⟨hl, -, ht⟩ := ht
    rcases hi with hi | hi
    · exact (ih ht (Or.inl hi)).entry hl
    · rcases List.mem_cons.1 hi with rfl | hi
      · exact .here
      · exact (ih ht (Or.inr hi)).entry hl

/-! ## Views -/

/-- Nothing changed but nodes in `S` and locks on them. -/
structure Confined (S : NodeId → Prop) (fs g : FileSystem) : Prop where
  node : ∀ i, ¬S i → g.node? i = fs.node? i
  lock : ∀ i, ¬S i → (i ∈ g.locked ↔ i ∈ fs.locked)
  refusals : g.refusals = fs.refusals

/-- In `fs'` the nodes in `S`, and the locks on them, are what they are in `fs`, and the system refuses
the same. -/
structure Agree (S : NodeId → Prop) (fs fs' : FileSystem) : Prop where
  node : ∀ i, S i → fs'.node? i = fs.node? i
  lock : ∀ i, S i → (i ∈ fs'.locked ↔ i ∈ fs.locked)
  refusals : fs'.refusals = fs.refusals

theorem Confined.refl (S : NodeId → Prop) (fs : FileSystem) : Confined S fs fs :=
  ⟨fun _ _ => rfl, fun _ _ => Iff.rfl, rfl⟩

theorem Confined.trans (h : Confined S fs g) (h' : Confined S g k) : Confined S fs k :=
  ⟨fun i hi => (h'.node i hi).trans (h.node i hi), fun i hi => (h'.lock i hi).trans (h.lock i hi),
    h'.refusals.trans h.refusals⟩

theorem Agree.refl (S : NodeId → Prop) (fs : FileSystem) : Agree S fs fs :=
  ⟨fun _ _ => rfl, fun _ _ => Iff.rfl, rfl⟩

theorem Agree.symm (h : Agree S fs fs') : Agree S fs' fs :=
  ⟨fun i hi => (h.node i hi).symm, fun i hi => (h.lock i hi).symm, h.refusals.symm⟩

/-- What is confined to other nodes makes no difference. -/
theorem Agree.confined (h : Agree S fs fs') (hc : Confined T fs g) (hST : ∀ i, S i → ¬T i) :
    Agree S g fs' :=
  ⟨fun i hi => (h.node i hi).trans (hc.node i (hST i hi)).symm,
    fun i hi => (h.lock i hi).trans (hc.lock i (hST i hi)).symm,
    h.refusals.trans hc.refusals.symm⟩

namespace FileSystem

variable {f : Directory → Directory}

theorem face?_of_node? (h : fs'.node? i = fs.node? i) : fs'.face? i = fs.face? i :=
  congrArg (Option.map Node.face) h

theorem directory?_of_node? (h : fs'.node? i = fs.node? i) :
    fs'.directory? i = fs.directory? i := by
  rw [directory?, directory?, h]

theorem isDirectory_of_node? (h : fs'.node? i = fs.node? i) :
    fs'.isDirectory i = fs.isDirectory i := by
  rw [isDirectory, isDirectory, directory?_of_node? h]

theorem lookup_of_node? (h : fs'.node? i = fs.node? i) (n : Bytes) :
    fs'.lookup i n = fs.lookup i n := by
  rw [lookup, lookup, directory?_of_node? h]

theorem nextId_of_node? (h : fs'.node? i = fs.node? i) : fs'.nextId i = fs.nextId i := by
  rw [nextId, nextId, madeIn, madeIn, directory?_of_node? h]

theorem node?_setNode_congr (h : fs'.node? j = fs.node? j) (nd : Node) :
    (fs'.setNode i nd).node? j = (fs.setNode i nd).node? j := by
  rw [node?_setNode, node?_setNode, h]

theorem node?_mapDirectory_of_ne (hj : j ≠ i) : (fs.mapDirectory i f).node? j = fs.node? j := by
  unfold mapDirectory
  split
  · rw [node?_setNode, if_neg hj]
  · rfl

theorem node?_mapDirectory_congr (hi : fs'.node? i = fs.node? i) (hj : fs'.node? j = fs.node? j) :
    (fs'.mapDirectory i f).node? j = (fs.mapDirectory i f).node? j := by
  unfold mapDirectory
  rw [directory?_of_node? hi]
  split
  · exact node?_setNode_congr hj _
  · exact hj

end FileSystem

/-! ## Changes in a plot -/

/-- A change of a directory `D` whose plot is `S`: of the contents and the locks of nodes in `S`,
and of the entries of `D`. What it makes is an empty file. -/
def Change.Tills (S : NodeId → Prop) (D : NodeId) : Change → Prop
  | .fill i _ => S i
  | .make i _ nd => i = D ∧ nd = .file []
  | .unbind i _ => i = D
  | .move i _ i' _ _ => i = D ∧ i' = D
  | .clear _ => False
  | .lock i => S i
  | .unlock i => S i

/-- The nodes `S` are a plot of the directory of the trail `t`. -/
structure Plot (S : NodeId → Prop) (t : Trail) (fs : FileSystem) : Prop where
  sound : fs.Sound
  stands : t.Stands fs
  here : S t.here
  entry : ∀ {i n j}, S i → fs.lookup i n = some j → S j
  /-- What will be made in the directory is in the plot too. -/
  next : ∀ {m}, fs.madeIn t.here ≤ m → S (t.here.child m)
  noLink : ∀ n, NoLink fs t.here n

/-- Two file systems that agree on a plot. -/
structure Twins (S : NodeId → Prop) (t : Trail) (fs fs' : FileSystem) : Prop where
  left : Plot S t fs
  right : Plot S t fs'
  agree : Agree S fs fs'

/-- What comes of two file systems when the same is done to both in a plot: twins, and nothing
outside the plot is changed. -/
structure Alike (S : NodeId → Prop) (t : Trail) (fs fs' g g' : FileSystem) : Prop where
  twins : Twins S t g g'
  left : Confined S fs g
  right : Confined S fs' g'

theorem Alike.refl (h : Twins S t fs fs') : Alike S t fs fs' fs fs' :=
  ⟨h, .refl _ _, .refl _ _⟩

theorem Alike.trans (h : Alike S t fs fs' g g') (h' : Alike S t g g' k k') :
    Alike S t fs fs' k k' :=
  ⟨h'.twins, h.left.trans h'.left, h.right.trans h'.right⟩

theorem Change.unlocking_cases (c : Change) :
    c.Unlocking ∨ (∃ i, c = .lock i) ∨ ∃ i, c = .unlock i := by
  cases c with
  | lock i => exact Or.inr (Or.inl ⟨i, rfl⟩)
  | unlock i => exact Or.inr (Or.inr ⟨i, rfl⟩)
  | _ => exact Or.inl trivial

theorem Change.Tills.within (h : c.Tills S D) :
    c.Within D (fun _ => True) (fun _ => True) fs := by
  cases c with
  | fill i b => exact fun n hn => ⟨n, hn, trivial⟩
  | make i n nd => exact ⟨h.1, trivial, h.2⟩
  | unbind i n => exact ⟨h, trivial⟩
  | move i n i' n' j => exact ⟨h.1, h.2, trivial, trivial⟩
  | clear i => exact h
  | lock i => exact trivial
  | unlock i => exact trivial

/-- A change in a plot leaves it a plot. -/
theorem Plot.apply (h : Plot S t fs) (hc : c.Fits fs) (ht : c.Tills S t.here) :
    Plot S t (c.apply fs) := by
  -- soundness, the way and the links are those of any work in the directory
  have hw : Works t.here (fun _ => True) (fun _ => True) ⟨⟨0, 0⟩, 0⟩ fs none [] (c.apply fs) none :=
    .one hc ht.within
  refine ⟨hw.sound h.sound, hw.stands h.sound h.stands, h.here, ?_, ?_, hw.noLink h.sound h.noLink⟩
  · intro i n j hi hl
    rcases Change.lookup_of_apply hc h.sound hl with hold | ⟨nd, rfl, rfl⟩ | ⟨i₀, n₀, rfl⟩
    · exact h.entry hi hold
    · obtain ⟨rfl, -⟩ := ht
      exact h.next (Nat.le_refl _)
    · obtain ⟨rfl, -⟩ := ht
      exact h.entry h.here hc.1
  · intro m hm
    exact h.next (Nat.le_trans (Change.madeIn_le_apply hc h.sound t.here) hm)

/-- A change in a plot is confined to it. -/
theorem Plot.confined_apply (h : Plot S t fs) (ht : c.Tills S t.here) :
    Confined S fs (c.apply fs) := by
  have hne : ∀ {i j}, S i → ¬S j → j ≠ i := by
    rintro i j hi hj rfl
    exact hj hi
  have hnode : ∀ j, ¬S j → (c.apply fs).node? j = fs.node? j := by
    intro j hj
    cases c with
    | fill i b => exact (node?_setNode _).trans (if_neg (hne ht hj))
    | make i m nd =>
      obtain ⟨rfl, -⟩ := ht
      have hnext : j ≠ fs.nextId t.here := hne (h.next (Nat.le_refl _)) hj
      simp only [Change.apply, make]
      rw [node?_mapDirectory_of_ne (hne h.here hj), node?_setNode, if_neg hnext]
    | unbind i m =>
      obtain rfl : i = t.here := ht
      exact node?_mapDirectory_of_ne (hne h.here hj)
    | move i m i' m' l =>
      obtain ⟨rfl, rfl⟩ := ht
      exact (node?_mapDirectory_of_ne (hne h.here hj)).trans
        (node?_mapDirectory_of_ne (hne h.here hj))
    | clear i => exact absurd ht id
    | lock i => rfl
    | unlock i => rfl
  refine ⟨hnode, fun j hj => ?_, by simp⟩
  rcases c.unlocking_cases with hu | ⟨i, rfl⟩ | ⟨i, rfl⟩
  · rw [Change.locked_apply hu]
  · exact List.mem_cons.trans (or_iff_right (hne ht hj))
  · exact mem_locked_unlock.trans (and_iff_left (hne ht hj))

/-- A change in a plot does the same to two file systems that agree on it. -/
theorem Agree.apply (h : Agree S fs fs') (hD : S D) (ht : c.Tills S D) :
    Agree S (c.apply fs) (c.apply fs') := by
  have hnode : ∀ j, S j → (c.apply fs').node? j = (c.apply fs).node? j := by
    intro j hj
    cases c with
    | fill i b => exact node?_setNode_congr (h.node j hj) _
    | make i m nd =>
      obtain ⟨rfl, -⟩ := ht
      have hnext := nextId_of_node? (h.node i hD)
      simp only [Change.apply, make, hnext]
      exact node?_mapDirectory_congr (node?_setNode_congr (h.node i hD) _)
        (node?_setNode_congr (h.node j hj) _)
    | unbind i m =>
      obtain rfl : i = D := ht
      exact node?_mapDirectory_congr (h.node i hD) (h.node j hj)
    | move i m i' m' l =>
      obtain ⟨rfl, rfl⟩ := ht
      exact node?_mapDirectory_congr (node?_mapDirectory_congr (h.node _ hD) (h.node _ hD))
        (node?_mapDirectory_congr (h.node _ hD) (h.node j hj))
    | clear i => exact absurd ht id
    | lock i => exact h.node j hj
    | unlock i => exact h.node j hj
  refine ⟨hnode, fun j hj => ?_, by simpa using h.refusals⟩
  rcases c.unlocking_cases with hu | ⟨i, rfl⟩ | ⟨i, rfl⟩
  · rw [Change.locked_apply hu, Change.locked_apply hu]
    exact h.lock j hj
  · exact List.mem_cons.trans ((or_congr Iff.rfl (h.lock j hj)).trans List.mem_cons.symm)
  · exact mem_locked_unlock.trans ((and_congr (h.lock j hj) Iff.rfl).trans mem_locked_unlock.symm)

namespace Twins

theorem refl (h : Plot S t fs) : Twins S t fs fs := ⟨h, h, .refl _ _⟩

theorem symm (h : Twins S t fs fs') : Twins S t fs' fs := ⟨h.right, h.left, h.agree.symm⟩

theorem lookup (h : Twins S t fs fs') (n : Bytes) : fs'.lookup t.here n = fs.lookup t.here n :=
  lookup_of_node? (h.agree.node _ h.left.here) n

/-- A change that can be made in the one can be made in the other. -/
theorem fits (h : Twins S t fs fs') (hc : c.Fits fs) (ht : c.Tills S t.here) : c.Fits fs' := by
  have hdir := isDirectory_of_node? (h.agree.node _ h.left.here)
  cases c with
  | fill i b =>
    obtain ⟨b₀, hb⟩ := hc
    exact ⟨b₀, (face?_of_node? (h.agree.node i ht)).trans hb⟩
  | make i n nd =>
    obtain ⟨rfl, -⟩ := ht
    obtain ⟨hd, hn, hlen, hl, hb⟩ := hc
    exact ⟨hdir.trans hd, hn, hlen, (h.lookup n).trans hl, hb⟩
  | unbind i n =>
    obtain rfl : i = t.here := ht
    obtain ⟨j, hl⟩ := hc
    exact ⟨j, (h.lookup n).trans hl⟩
  | move i n i' n' j =>
    obtain ⟨rfl, rfl⟩ := ht
    obtain ⟨hl, hd, hn, hlen⟩ := hc
    exact ⟨(h.lookup n).trans hl, hdir.trans hd, hn, hlen⟩
  | clear i => exact absurd ht id
  | lock i =>
    obtain ⟨hfree, f, hf⟩ := hc
    exact ⟨fun hi => hfree ((h.agree.lock i ht).1 hi), f,
      (face?_of_node? (h.agree.node i ht)).trans hf⟩
  | unlock i => trivial

/-- **A change in the plot does the same to both**, and nothing outside. -/
theorem apply (h : Twins S t fs fs') (hc : c.Fits fs) (ht : c.Tills S t.here) :
    Alike S t fs fs' (c.apply fs) (c.apply fs') where
  twins := ⟨h.left.apply hc ht, h.right.apply (h.fits hc ht) ht, h.agree.apply h.left.here ht⟩
  left := h.left.confined_apply ht
  right := h.right.confined_apply ht

theorem node? (h : Twins S t fs fs') (hi : S i) : fs'.node? i = fs.node? i := h.agree.node i hi

/-- The node of a name of the directory is in the plot. -/
theorem mine (h : Twins S t fs fs') (hl : fs.lookup t.here n = some i) : S i :=
  h.left.entry h.left.here hl

/-! ### Operations on names -/

theorem openForWriting (h : Twins S t fs fs') (hn : Proper n) (hlen : n.length ≤ nameLimit)
    (trunc : Bool) :
    (∃ e, fs.openForWriting trunc (join t.path n) = .error e ∧
        fs'.openForWriting trunc (join t.path n) = .error e) ∨
      ∃ g g' i, fs.openForWriting trunc (join t.path n) = .ok (g, i) ∧
        fs'.openForWriting trunc (join t.path n) = .ok (g', i) ∧ S i ∧ Alike S t fs fs' g g' := by
  rw [(h.left.stands.arrives h.left.sound).openForWriting hn hlen (h.left.noLink n),
    (h.right.stands.arrives h.right.sound).openForWriting hn hlen (h.right.noLink n), h.lookup]
  cases hl : fs.lookup t.here n with
  | none =>
    have hf : (Change.make t.here n (.file [])).Fits fs :=
      ⟨h.left.stands.isDirectory h.left.sound, hn, hlen, hl, trivial⟩
    have hnext : fs'.nextId t.here = fs.nextId t.here := nextId_of_node? (h.node? h.left.here)
    simp only [h.agree.refusals, hnext]
    cases fs.refusals.make (join t.path n) with
    | some e => exact Or.inl ⟨e, rfl, rfl⟩
    | none =>
      exact Or.inr ⟨_, _, _, rfl, rfl, h.left.next (Nat.le_refl _), h.apply hf ⟨rfl, rfl⟩⟩
  | some i =>
    have hi : S i := h.mine hl
    simp only [h.node? hi]
    cases hnd : fs.node? i with
    | none => exact Or.inl ⟨_, rfl, rfl⟩
    | some nd =>
      cases nd with
      | file b =>
        refine Or.inr ⟨_, _, _, rfl, rfl, hi, ?_⟩
        cases trunc with
        | false => exact .refl h
        | true => exact h.apply (c := .fill i []) ⟨b, face?_file.2 hnd⟩ hi
      | device d => exact Or.inr ⟨_, _, _, rfl, rfl, hi, .refl h⟩
      | directory d => exact Or.inl ⟨_, rfl, rfl⟩
      | link g => exact Or.inl ⟨_, rfl, rfl⟩

theorem openForReading (h : Twins S t fs fs') (hn : Proper n) (hlen : n.length ≤ nameLimit) :
    fs'.openForReading (join t.path n) = fs.openForReading (join t.path n) ∧
      ∀ i, fs.openForReading (join t.path n) = .ok i → S i := by
  have hfind := (h.left.stands.arrives h.left.sound).find_join hn hlen (h.left.noLink n)
  have hfind' := (h.right.stands.arrives h.right.sound).find_join hn hlen (h.right.noLink n)
  rw [h.lookup] at hfind'
  refine ⟨hfind'.trans hfind.symm, ?_⟩
  intro i hi
  rw [FileSystem.openForReading, hfind] at hi
  cases hl : fs.lookup t.here n with
  | none =>
    rw [hl] at hi
    cases hi
  | some j =>
    rw [hl] at hi
    cases hi
    exact h.mine hl

theorem remove (h : Twins S t fs fs') (hn : Proper n) (hlen : n.length ≤ nameLimit) :
    (∃ e, fs.remove (join t.path n) = .error e ∧ fs'.remove (join t.path n) = .error e) ∨
      ∃ g g', fs.remove (join t.path n) = .ok g ∧ fs'.remove (join t.path n) = .ok g' ∧
        Alike S t fs fs' g g' := by
  rw [(h.left.stands.arrives h.left.sound).remove hn hlen,
    (h.right.stands.arrives h.right.sound).remove hn hlen, h.lookup, h.agree.refusals]
  cases fs.refusals.remove (join t.path n) with
  | some e => exact Or.inl ⟨e, rfl, rfl⟩
  | none =>
  cases hl : fs.lookup t.here n with
  | none => exact Or.inl ⟨_, rfl, rfl⟩
  | some i =>
    simp only [isDirectory_of_node? (h.node? (h.mine hl))]
    split
    · exact Or.inl ⟨_, rfl, rfl⟩
    · exact Or.inr ⟨_, _, rfl, rfl, h.apply (c := .unbind t.here n) ⟨i, hl⟩ rfl⟩

theorem mayReplace (h : Twins S t fs fs') (hi : S i) (hj : S j) :
    fs'.mayReplace i j = fs.mayReplace i j := by
  have hocc : fs'.isOccupied j = fs.isOccupied j := by
    rw [isOccupied, isOccupied, directory?_of_node? (h.node? hj)]
  rw [FileSystem.mayReplace, FileSystem.mayReplace, isDirectory_of_node? (h.node? hi),
    isDirectory_of_node? (h.node? hj), hocc]

theorem rename (h : Twins S t fs fs') (hn : Proper n) (hn' : Proper n') :
    (∃ e, fs.rename (join t.path n) (join t.path n') = .error e ∧
        fs'.rename (join t.path n) (join t.path n') = .error e) ∨
      ∃ g g', fs.rename (join t.path n) (join t.path n') = .ok g ∧
        fs'.rename (join t.path n) (join t.path n') = .ok g' ∧ Alike S t fs fs' g g' := by
  have ha := h.left.stands.arrives h.left.sound
  have ha' := h.right.stands.arrives h.right.sound
  unfold FileSystem.rename FileSystem.renameName
  rw [h.agree.refusals]
  cases fs.refusals.rename (join t.path n) (join t.path n') with
  | some e => exact Or.inl ⟨e, rfl, rfl⟩
  | none =>
  simp only [ha.walk_ignore hn, ha.walk_ignore hn', ha'.walk_ignore hn, ha'.walk_ignore hn', probe,
    h.lookup]
  by_cases hz : (Path.ofText (join t.path n')).holdsZero
  · simp only [hz, if_true]
    exact Or.inl ⟨_, rfl, rfl⟩
  by_cases hlen : nameLimit < n.length
  · simp only [hz, hlen, if_true]
    exact Or.inl ⟨_, rfl, rfl⟩
  simp only [hz, hlen, if_false]
  cases hl : fs.lookup t.here n with
  | none => exact Or.inl ⟨_, rfl, rfl⟩
  | some i =>
    by_cases hlen' : nameLimit < n'.length
    · simp only [hlen', if_true]
      exact Or.inl ⟨_, rfl, rfl⟩
    have hmove : Alike S t fs fs' ((fs.unbind t.here n).bind t.here n' i)
        ((fs'.unbind t.here n).bind t.here n' i) :=
      h.apply (c := .move t.here n t.here n' i)
        ⟨hl, h.left.stands.isDirectory h.left.sound, hn', Nat.not_lt.1 hlen'⟩ ⟨rfl, rfl⟩
    simp only [hlen', if_false, Bool.false_eq_true, or_self, and_false]
    -- the trail is the same in both, and so is what stands on it
    by_cases hloop : i ∈ t.map Prod.snd
    · simp only [hloop, if_true]
      exact Or.inl ⟨_, rfl, rfl⟩
    simp only [hloop, if_false]
    cases hl' : fs.lookup t.here n' with
    | none => exact Or.inr ⟨_, _, rfl, rfl, hmove⟩
    | some j =>
      simp only [h.mayReplace (h.mine hl) (h.mine hl')]
      by_cases hup : j ∈ t.map Prod.snd
      · simp only [hup, if_true]
        exact Or.inl ⟨_, rfl, rfl⟩
      by_cases hij : i = j
      · simp only [hup, hij, if_false, if_true]
        exact Or.inr ⟨_, _, rfl, rfl, .refl h⟩
      simp only [hup, hij, if_false]
      cases fs.mayReplace i j with
      | error e => exact Or.inl ⟨_, rfl, rfl⟩
      | ok u => exact Or.inr ⟨_, _, rfl, rfl, hmove⟩

/-! ### The directory itself -/

theorem find (h : Twins S t fs fs') :
    fs'.find (Path.ofText t.path) = fs.find (Path.ofText t.path) := by
  rw [h.left.stands.find h.left.sound, h.right.stands.find h.right.sound]

theorem listing (h : Twins S t fs fs') : fs'.listing t.path = fs.listing t.path := by
  rw [FileSystem.listing, FileSystem.listing, h.find, h.left.stands.find h.left.sound]
  simp only [directory?_of_node? (h.node? h.left.here)]

/-! ### Files of the plot -/

theorem readAt (h : Twins S t fs fs') (hi : S i) : fs'.readAt i = fs.readAt i := by
  funext pos count
  exact readAt_congr (face?_of_node? (h.node? hi)) pos count

theorem size (h : Twins S t fs fs') (hi : S i) : fs'.size i = fs.size i :=
  size_congr (face?_of_node? (h.node? hi))

theorem sync (h : Twins S t fs fs') (hi : S i) : fs'.sync i = fs.sync i := by
  rw [FileSystem.sync, FileSystem.sync, h.node? hi]

theorem advance (h : Twins S t fs fs') {f : OpenFile} (hf : S f.node) (count : Nat) :
    fs'.advance f count = fs.advance f count := by
  rw [FileSystem.advance, FileSystem.advance, h.node? hf]

theorem seek (h : Twins S t fs fs') {f : OpenFile} (hf : S f.node) (m : Movement) :
    fs'.seek f m = fs.seek f m := by
  have hend : fs'.endOf f.node = fs.endOf f.node := by
    rw [endOf, endOf, isDirectory_of_node? (h.node? hf), h.size hf]
  unfold FileSystem.seek
  rw [h.node? hf, hend]

theorem hasRoom (h : Twins S t fs fs') (i : NodeId) (goal : Nat) :
    fs'.hasRoom i goal = fs.hasRoom i goal := by
  rw [FileSystem.hasRoom, FileSystem.hasRoom, h.agree.refusals]

theorem accepted (h : Twins S t fs fs') (hi : S i) (pos : Nat) (new : Bytes) :
    fs'.accepted i pos new = fs.accepted i pos new := by
  rw [FileSystem.accepted, FileSystem.accepted, h.node? hi, h.agree.refusals]

theorem isEndless (h : Twins S t fs fs') (hi : S i) : fs'.isEndless i = fs.isEndless i :=
  isEndless_congr (face?_of_node? (h.node? hi))

theorem writeAt (h : Twins S t fs fs') (hi : S i) (pos : Nat) (new : Bytes) :
    (∃ e, fs.writeAt i pos new = .error e ∧ fs'.writeAt i pos new = .error e) ∨
      ∃ g g', fs.writeAt i pos new = .ok g ∧ fs'.writeAt i pos new = .ok g' ∧
        Alike S t fs fs' g g' := by
  unfold FileSystem.writeAt
  rw [h.node? hi]
  split
  · exact Or.inl ⟨_, rfl, rfl⟩
  cases hnd : fs.node? i with
  | none => exact Or.inl ⟨_, rfl, rfl⟩
  | some nd =>
    cases nd with
    | file b =>
      simp only [h.hasRoom]
      split
      · exact Or.inr ⟨_, _, rfl, rfl, .refl h⟩
      split
      · exact Or.inr ⟨_, _, rfl, rfl, h.apply (c := .fill i _) ⟨b, face?_file.2 hnd⟩ hi⟩
      · exact Or.inl ⟨_, rfl, rfl⟩
    | device d =>
      cases d with
      | null => exact Or.inr ⟨_, _, rfl, rfl, .refl h⟩
      | full => exact Or.inl ⟨_, rfl, rfl⟩
    | directory d => exact Or.inl ⟨_, rfl, rfl⟩
    | link g => exact Or.inl ⟨_, rfl, rfl⟩

/-! ### Locks on the plot -/

theorem tryLock (h : Twins S t fs fs') (hi : S i) (hface : ∃ f, fs.face? i = some f) :
    (fs.tryLock i = none ∧ fs'.tryLock i = none) ∨
      ∃ g g', fs.tryLock i = some g ∧ fs'.tryLock i = some g' ∧ Alike S t fs fs' g g' := by
  unfold FileSystem.tryLock
  by_cases hfree : i ∈ fs.locked
  · exact Or.inl ⟨if_pos hfree, if_pos ((h.agree.lock i hi).2 hfree)⟩
  · have hfree' : i ∉ fs'.locked := fun hl => hfree ((h.agree.lock i hi).1 hl)
    exact Or.inr ⟨_, _, if_neg hfree, if_neg hfree', h.apply (c := .lock i) ⟨hfree, hface⟩ hi⟩

theorem unlock (h : Twins S t fs fs') (hi : S i) :
    Alike S t fs fs' (fs.unlock i) (fs'.unlock i) := h.apply (c := .unlock i) trivial hi

end Twins

/-! ## What the directory holds -/

/-- What the directory holds is in its plot. -/
theorem Plot.below (h : Plot S t fs) (hi : Below fs t.here i) : S i := by
  induction hi with
  | here => exact h.here
  | entry _ hl ih => exact h.entry ih hl

theorem Twins.below (h : Twins S t fs fs') (hi : Below fs t.here i) : Below fs' t.here i := by
  induction hi with
  | here => exact .here
  | entry hi hl ih =>
    -- what is below so far is in the plot, where the names are bound alike
    have hsame := lookup_of_node? (h.node? (h.left.below hi))
    exact ih.entry ((hsame _).trans hl)

/-- **Twins hold the same in the directory**: the same nodes with the same contents, locked
alike. -/
theorem Twins.below_iff (h : Twins S t fs fs') (i : NodeId) :
    (Below fs' t.here i ↔ Below fs t.here i) ∧
      (Below fs t.here i → fs'.node? i = fs.node? i ∧ (i ∈ fs'.locked ↔ i ∈ fs.locked)) :=
  ⟨⟨h.symm.below, h.below⟩, fun hi =>
    ⟨h.node? (h.left.below hi), h.agree.lock i (h.left.below hi)⟩⟩

/-! ## Two plots -/

theorem Trail.here_cases (t : Trail) : t.here = root ∨ t.here ∈ t.map Prod.snd := by
  cases t with
  | nil => exact Or.inl rfl
  | cons e t => exact Or.inr List.mem_cons_self

/-- A trail stands as long as nothing on it changes. -/
theorem Trail.Stands.of_node? (h : t.Stands fs)
    (hway : ∀ i, i = root ∨ i ∈ t.map Prod.snd → g.node? i = fs.node? i) : t.Stands g := by
  induction t with
  | nil => trivial
  | cons e t ih =>
    obtain ⟨hl, hd, ht⟩ := h
    have hway' : ∀ i, i = root ∨ i ∈ t.map Prod.snd → g.node? i = fs.node? i := fun i hi =>
      hway i (hi.imp_right (List.mem_cons_of_mem _))
    refine ⟨?_, ?_, ih ht hway'⟩
    · rw [lookup_of_node? (hway' _ (Trail.here_cases t))]
      exact hl
    · rw [isDirectory_of_node? (hway _ (Or.inr List.mem_cons_self))]
      exact hd

/-- **A plot in which nothing changes stays one**, as long as the way to its directory stands. -/
theorem Plot.untouched (h : Plot S t fs) (hn : ∀ i, S i → g.node? i = fs.node? i) (hs : g.Sound)
    (ht : t.Stands g) : Plot S t g := by
  have hlook : ∀ i, S i → ∀ n, g.lookup i n = fs.lookup i n := fun i hi =>
    lookup_of_node? (hn i hi)
  refine ⟨hs, ht, h.here, ?_, ?_, ?_⟩
  · intro i n j hi hl
    rw [hlook i hi] at hl
    exact h.entry hi hl
  · intro m hm
    have hmade : g.madeIn t.here = fs.madeIn t.here := by
      rw [madeIn, madeIn, directory?_of_node? (hn _ h.here)]
    exact h.next (hmade ▸ hm)
  · intro n j b hl
    rw [hlook _ h.here] at hl
    rw [face?_of_node? (hn j (h.entry h.here hl))]
    exact h.noLink n j b hl

/-- **What is confined to another plot leaves the plot**, and the way to its directory. -/
theorem Plot.confined (h : Plot S t fs) (hc : Confined T fs g) (hs : g.Sound)
    (hST : ∀ i, S i → ¬T i) (hway : ∀ i, i = root ∨ i ∈ t.map Prod.snd → ¬T i) : Plot S t g :=
  h.untouched (fun i hi => hc.node i (hST i hi)) hs
    (h.stands.of_node? fun i hi => hc.node i (hway i hi))

/-- The plot of a directory: what it holds, and what will be made in it. -/
def Trail.plot (t : Trail) (fs : FileSystem) (i : NodeId) : Prop :=
  Below fs t.here i ∨ ∃ m, fs.madeIn t.here ≤ m ∧ i = t.here.child m

/-- What is there is not among what will be made. -/
theorem FileSystem.Sound.not_next (hs : fs.Sound) {f : Face} (hf : fs.face? i = some f) :
    ¬∃ m, fs.madeIn D ≤ m ∧ i = D.child m := by
  rintro ⟨m, hm, rfl⟩
  have hlt := (hs.counted hf).2
  omega

variable {u : Trail}

theorem Trail.Stands.plot (hs : fs.Sound) (ht : t.Stands fs) (hl : ∀ n, NoLink fs t.here n) :
    Plot (t.plot fs) t fs where
  sound := hs
  stands := ht
  here := Or.inl .here
  entry := by
    rintro i n j (hi | hi) hl
    · exact Or.inl (hi.entry hl)
    · -- nothing is made yet, so it has no entries
      have hd : fs.isDirectory i = true := isDirectory_of_lookup hl
      exact absurd hi (hs.not_next (isDirectory_iff.1 hd))
  next := fun hm => Or.inr ⟨_, hm, rfl⟩
  noLink := hl

/-- The plots of two directories, neither inside the other, have nothing in common if no file has a
name in both. -/
theorem Trail.Stands.plots_apart (hs : fs.Sound) (ht : t.Stands fs) (hu : u.Stands fs)
    (htu : ¬Below fs t.here u.here) (hut : ¬Below fs u.here t.here)
    (hshare : ∀ i, Below fs t.here i → Below fs u.here i → fs.isDirectory i = true)
    (hi : t.plot fs i) : ¬u.plot fs i := by
  have hthere : ∀ {v : Trail} {j}, v.Stands fs → Below fs v.here j → ∃ f, fs.face? j = some f :=
    fun hv hj => hj.exists_face? hs ⟨_, isDirectory_iff.1 (hv.isDirectory hs)⟩
  intro hi'
  rcases hi with hi | ⟨m, hm, rfl⟩
  · obtain ⟨f, hf⟩ := hthere ht hi
    have hbelow : Below fs u.here i := hi'.resolve_right (hs.not_next hf)
    exact (hi.comparable hs (hshare i hi hbelow) hbelow).elim htu hut
  · rcases hi' with hi' | ⟨m', -, he⟩
    · obtain ⟨f, hf⟩ := hthere hu hi'
      exact hs.not_next hf ⟨m, hm, rfl⟩
    · obtain ⟨he, -⟩ := NodeId.child_inj.1 he
      exact htu (he ▸ .here)

/-- The way to a directory leads through no plot of a directory that it is not in. -/
theorem Trail.Stands.way_apart (hs : fs.Sound) (ht : t.Stands fs) (hut : ¬Below fs u.here t.here)
    (hi : i = root ∨ i ∈ t.map Prod.snd) : ¬u.plot fs i := by
  have hd : fs.face? i = some .directory := by
    rcases hi with rfl | hi
    · exact hs.root
    · exact isDirectory_iff.1 (ht.directories i hi)
  rintro (hi' | hi')
  · exact hut (hi'.trans (ht.below hi))
  · exact hs.not_next hd hi'

end EngineDir
