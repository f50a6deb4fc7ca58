import EngineDir.Proofs.Plots
import EngineDir.World

/-!
# Fences

Nobody gets at what a directory holds but through the directory. What others do to names of other
directories, such as to remove a link there, to make another one in its place or to move something
over it, leaves the plot of the directory, and the way to it, as they are.

* `Fenced`: nothing outside a plot is bound to what is in it. `Fenced.below`: the directories of the
  plot that a path leads to are those below.
* `Change.Aside`: a change outside. `Spared`: what comes of it. `Change.Aside.spared`: **a change
  outside spares the plot.**
* `Outside.Elsewhere`: what others do to names of other directories.
* `Outside.Elsewhere.spared`: **it spares the plot.**
-/

namespace EngineDir

open FileSystem

variable {fs g k : FileSystem} {S : NodeId → Prop} {t u : Trail} {c : Change} {D i j : NodeId}
  {n path : Bytes} {e : Ending} {r : Option NodeId} {trailing : Bool}

/-! ## Plots and what is outside -/

/-- The root is below itself alone. -/
theorem Below.eq_root (hs : fs.Sound) (h : Below fs D i) (hi : i = root) : D = root := by
  cases h with
  | here => exact hi
  | entry _ hl => exact absurd (hi ▸ hl) hs.root_free

/-- No name outside `S` is that of a directory in `S`, but of the directory `D`; a file in `S` may
have names outside. What is in `S` is there, or it will be made in `D`. -/
structure Fenced (S : NodeId → Prop) (D : NodeId) (fs : FileSystem) : Prop where
  root : S root → D = root
  parent : ∀ {i n j}, fs.isDirectory j = true → fs.lookup i n = some j → S j → j = D ∨ S i
  known : ∀ {i}, S i → (∃ f, fs.face? i = some f) ∨ ∃ m, i = D.child m

/-- The plot of a directory is fenced. -/
theorem Trail.Stands.fenced (hs : fs.Sound) (ht : t.Stands fs) : Fenced (t.plot fs) t.here fs where
  root := by
    rintro (hb | ⟨m, -, he⟩)
    · exact hb.eq_root hs rfl
    · exact absurd he.symm (child_ne_root _ _)
  parent := by
    rintro i n j hd hl (hb | hnext)
    · cases hb with
      | here => exact Or.inl rfl
      | entry hb hl' =>
        obtain ⟨rfl, -⟩ := hs.unique hd hl hl'
        exact Or.inr (Or.inl hb)
    · obtain ⟨f, hf⟩ := hs.bound hl
      exact absurd hnext (hs.not_next hf)
  known := by
    rintro i (hb | ⟨m, -, he⟩)
    · exact Or.inl (hb.exists_face? hs ⟨_, isDirectory_iff.1 (ht.isDirectory hs)⟩)
    · exact Or.inr ⟨m, he⟩

/-- A directory of the plot that a trail leads to is below. -/
theorem Fenced.below (h : Fenced S D fs) (hu : u.Stands fs) (hS : S u.here) :
    Below fs D u.here := by
  induction u with
  | nil =>
    obtain rfl := h.root hS
    exact .here
  | cons e u ih =>
    obtain ⟨hl, hd, hu⟩ := hu
    rcases h.parent hd hl hS with hD | hS'
    · rw [show Trail.here (e :: u) = D from hD]
      exact .here
    · exact (ih hu hS').entry hl

/-- What will be made outside is outside. -/
theorem Fenced.next (h : Fenced S D fs) (hs : fs.Sound) (hD : S D) (hi : ¬S i) :
    ¬S (fs.nextId i) := by
  intro hn
  rcases h.known hn with ⟨f, hf⟩ | ⟨m, hm⟩
  · rw [hs.fresh] at hf
    cases hf
  · obtain ⟨rfl, -⟩ := NodeId.child_inj.1 hm
    exact hi hD

/-- What happens in the plot leaves the fence. -/
theorem Fenced.confined (h : Fenced S D fs) (hc : Confined S fs g) {Q : Change → Prop}
    (hl : Leads Q fs g) (hs : fs.Sound) : Fenced S D g where
  root := h.root
  parent := by
    intro i n j hd hij hj
    by_cases hi : S i
    · exact Or.inr hi
    · rw [lookup_of_node? (hc.node i hi)] at hij
      exact h.parent (hl.isDirectory_back hs (hs.bound hij) hd) hij hj
  known := fun hi => (h.known hi).imp_left (hl.exists_face? hs)

/-! ## Changes outside -/

/-- Nothing in `S` was changed, and the way `t` stands. -/
structure Spared (S : NodeId → Prop) (t : Trail) (fs g : FileSystem) : Prop where
  plot : Plot S t g
  fenced : Fenced S t.here g
  confined : Confined (fun i => ¬S i) fs g

theorem Spared.refl (hp : Plot S t fs) (hf : Fenced S t.here fs) : Spared S t fs fs :=
  ⟨hp, hf, .refl _ _⟩

theorem Spared.trans (h : Spared S t fs g) (h' : Spared S t g k) : Spared S t fs k :=
  ⟨h'.plot, h'.fenced, h.confined.trans h'.confined⟩

theorem Spared.node? (h : Spared S t fs g) (hi : S i) : g.node? i = fs.node? i :=
  h.confined.node i (not_not_intro hi)

/-- The entry `n` of the directory `i` is none of the directories on the way `t`. -/
def OffWay (t : Trail) (fs : FileSystem) (i : NodeId) (n : Bytes) : Prop :=
  ∀ j, fs.lookup i n = some j → j ∉ t.map Prod.snd

/-- A change of nodes and of entries outside `S`, which takes nothing off the way `t`. -/
def Change.Aside (S : NodeId → Prop) (t : Trail) (fs : FileSystem) : Change → Prop
  | .fill i _ => ¬S i
  | .make i _ _ => ¬S i
  | .unbind i n => ¬S i ∧ OffWay t fs i n
  | .move i n i' n' _ => (¬S i ∧ OffWay t fs i n) ∧ ¬S i' ∧ OffWay t fs i' n'
  | _ => False

/-- A trail stands as long as the names on it are bound to the directories on it. -/
theorem Trail.Stands.of_way (h : t.Stands fs) {Q : Change → Prop} (hl : Leads Q fs g)
    (hs : fs.Sound)
    (hway : ∀ i n j, j ∈ t.map Prod.snd → fs.lookup i n = some j → g.lookup i n = some j) :
    t.Stands g := by
  induction t with
  | nil => trivial
  | cons e t ih =>
    obtain ⟨hlook, hd, ht⟩ := h
    exact ⟨hway _ _ _ List.mem_cons_self hlook, hl.isDirectory hs hd,
      ih ht fun i n j hj => hway i n j (List.mem_cons_of_mem _ hj)⟩

namespace Change.Aside

theorem unlocking (h : c.Aside S t fs) : c.Unlocking := by
  cases c with
  | lock i => exact h
  | unlock i => exact h
  | _ => trivial

/-- The names on the way stay bound to what they are bound to. -/
theorem way (h : c.Aside S t fs) (hc : c.Fits fs) (hs : fs.Sound) (hj : j ∈ t.map Prod.snd)
    (hl : fs.lookup i n = some j) : (c.apply fs).lookup i n = some j := by
  have hne : ∀ {k m}, OffWay t fs k m → ¬(i = k ∧ n = m) := by
    rintro k m hoff ⟨rfl, rfl⟩
    exact hoff j hl hj
  cases c with
  | unbind k m => rw [Change.apply, lookup_unbind, if_neg (hne h.2), hl]
  | move k m k' m' l =>
    rw [Change.apply, lookup_bind (by simpa using hc.2.1), if_neg (hne h.2.2), lookup_unbind,
      if_neg (hne h.1.2), hl]
  | fill k b => exact Change.lookup_apply hc hs trivial hl
  | make k m nd => exact Change.lookup_apply hc hs trivial hl
  | _ => exact absurd h id

/-- What is in `S` stays as it is. -/
theorem node? (h : c.Aside S t fs) (hs : fs.Sound) (hf : Fenced S D fs) (hD : S D) (hj : S j) :
    (c.apply fs).node? j = fs.node? j := by
  have hne : ∀ {i}, ¬S i → j ≠ i := by
    rintro i hi rfl
    exact hi hj
  cases c with
  | fill i b => exact (node?_setNode _).trans (if_neg (hne h))
  | make i m nd =>
    simp only [Change.apply, FileSystem.make]
    rw [node?_mapDirectory_of_ne (hne h), node?_setNode, if_neg (hne (hf.next hs hD h))]
  | unbind i m => exact node?_mapDirectory_of_ne (hne h.1)
  | move i m i' m' l =>
    exact (node?_mapDirectory_of_ne (hne h.2.1)).trans (node?_mapDirectory_of_ne (hne h.1.1))
  | _ => exact absurd h id

/-- What is moved or made outside is outside. -/
theorem parent (h : c.Aside S t fs) (hc : c.Fits fs) (hs : fs.Sound) (hf : Fenced S D fs) (hD : S D)
    (hd : (c.apply fs).isDirectory j = true) (hl : (c.apply fs).lookup i n = some j) (hj : S j) :
    j = D ∨ S i := by
  -- what had a name before is the directory that it was
  have hback : ∀ {k m}, fs.lookup k m = some j → fs.isDirectory j = true := fun hk =>
    (Leads.one (Q := fun _ => True) hc trivial).isDirectory_back hs (hs.bound hk) hd
  rcases Change.lookup_of_apply hc hs hl with hold | ⟨nd, rfl, rfl⟩ | ⟨i₀, n₀, rfl⟩
  · exact hf.parent (hback hold) hold hj
  · exact absurd hj (hf.next hs hD h)
  · exact (hf.parent (hback hc.1) hc.1 hj).imp_right fun hi₀ => absurd hi₀ h.1.1

/-- **A change outside spares the plot.** -/
theorem spared (h : c.Aside S t fs) (hc : c.Fits fs) (hp : Plot S t fs) (hf : Fenced S t.here fs) :
    Spared S t fs (c.apply fs) := by
  have hs := hp.sound
  have hl : Leads (fun _ => True) fs (c.apply fs) := .one hc trivial
  have hnode : ∀ j, S j → (c.apply fs).node? j = fs.node? j := fun j =>
    h.node? hs hf hp.here
  refine ⟨hp.untouched hnode (hl.sound hs) ?_, ⟨hf.root, ?_, ?_⟩, ⟨?_, ?_, hl.refusals⟩⟩
  · exact hp.stands.of_way hl hs fun i n j hj => h.way hc hs hj
  · exact fun hd hij hj => h.parent hc hs hf hp.here hd hij hj
  · exact fun hi => (hf.known hi).imp_left (hl.exists_face? hs)
  · exact fun i hi => hnode i (Classical.not_not.1 hi)
  · intro i _
    rw [Change.locked_apply h.unlocking]

end Change.Aside

/-! ## What others do elsewhere -/

/-- If the path names an entry, it is one of a directory that is not below that of the trail `t`. -/
def FileSystem.NamesOutside (fs : FileSystem) (t : Trail) (e : Ending) (path : Bytes) : Prop :=
  ∀ u n r trailing, fs.walk e (Path.ofText path) = .ok (.entry u n r trailing) →
    ¬Below fs t.here u.here

/-- If the path names something that is there, this is not in `S`. A file may have a name in a
directory and another one elsewhere. -/
def FileSystem.NamesBeyond (fs : FileSystem) (S : NodeId → Prop) (e : Ending) (path : Bytes) : Prop :=
  ∀ u n i trailing, fs.walk e (Path.ofText path) = .ok (.entry u n (some i) trailing) → ¬S i

/-- If the path names an entry, this is none of the directories on the way `t`. -/
def FileSystem.NamesOffWay (fs : FileSystem) (t : Trail) (e : Ending) (path : Bytes) : Prop :=
  ∀ u n r trailing, fs.walk e (Path.ofText path) = .ok (.entry u n r trailing) →
    OffWay t fs u.here n

/-- What others do is about names of directories that are not below that of the trail `t`: there a
link, or anything else but a directory, may be removed, anything may be made, and anything may be
moved that is not on the way. Nothing in `S` is written to. -/
def Outside.Elsewhere (S : NodeId → Prop) (t : Trail) (fs : FileSystem) : Outside → Prop
  | .write path _ => fs.NamesOutside t .create path ∧ fs.NamesBeyond S .create path
  | .makeDirectories path =>
    (∃ s, fs.walk .keep (Path.ofText path) = .ok s) ∧ fs.NamesOutside t .keep path
  | .makeLink _ path => fs.NamesOutside t .keep path
  | .remove path => fs.NamesOutside t .keep path
  | .removeTree path =>
    fs.NamesOutside t .keep path ∧ (Path.ofText path).trailing = false ∧
      ∃ u n i trailing target,
        fs.walk .keep (Path.ofText path) = .ok (.entry u n (some i) trailing) ∧
          fs.node? i = some (.link target)
  | .rename source target =>
    (fs.NamesOutside t .ignore source ∧ fs.NamesOffWay t .ignore source) ∧
      fs.NamesOutside t .ignore target ∧ fs.NamesOffWay t .ignore target

/-- The path of a name in a directory outside names nothing else. -/
theorem Trail.Stands.namesOutside (hs : fs.Sound) (hu : u.Stands fs) (hn : Proper n)
    (hlen : n.length ≤ nameLimit) (hout : ¬Below fs t.here u.here)
    (he : e = .keep ∨ e = .ignore) : fs.NamesOutside t e (join u.path n) := by
  intro u' n' r trailing hw
  have hends : ∃ r, fs.walk e (Path.ofText (join u.path n)) = .ok (.entry u n r false) := by
    rcases he with rfl | rfl
    · exact ⟨_, (hu.arrives hs).walk_keep hn hlen⟩
    · exact ⟨_, (hu.arrives hs).walk_ignore hn⟩
  obtain ⟨r₀, hw₀⟩ := hends
  rw [hw₀] at hw
  cases hw
  exact hout

/-- Nor anything on the way, if the entry is none of the directories there. -/
theorem Trail.Stands.namesOffWay (hs : fs.Sound) (hu : u.Stands fs) (hn : Proper n)
    (hoff : OffWay t fs u.here n) : fs.NamesOffWay t .ignore (join u.path n) := by
  intro u' n' r trailing hw
  rw [(hu.arrives hs).walk_ignore hn] at hw
  cases hw
  exact hoff

namespace Outside.Elsewhere

variable {bytes source target : Bytes}

/-- The directory of a name outside is outside. -/
theorem outside (hp : Plot S t fs) (hf : Fenced S t.here fs) (ho : fs.NamesOutside t e path)
    (hw : fs.walk e (Path.ofText path) = .ok (.entry u n r trailing)) : ¬S u.here :=
  fun hS => ho u n r trailing hw (hf.below (walk_sound hp.sound hw).1 hS)

/-- What was opened for writing outside is outside, and to open it spares the plot. -/
theorem openForWriting (hp : Plot S t fs) (hf : Fenced S t.here fs)
    (ho : fs.NamesOutside t .create path) (hb : fs.NamesBeyond S .create path) {trunc : Bool}
    (h : fs.openForWriting trunc path = .ok (g, i)) : ¬S i ∧ Spared S t fs g := by
  have hs := hp.sound
  unfold FileSystem.openForWriting at h
  split at h
  · cases h
  · cases h
  · rename_i u n trailing hw
    split at h
    · cases h
    cases h
    have hu := outside hp hf ho hw
    have hfit : (Change.make u.here n (.file [])).Fits fs :=
      make_fits hs (by decide) (walk_sound hs hw) trivial
    exact ⟨hf.next hs hp.here hu,
      Change.Aside.spared (c := .make u.here n (.file [])) hu hfit hp hf⟩
  · rename_i u n j trailing hw
    have hj : ¬S j := hb u n j trailing hw
    split at h
    · rename_i b hb
      cases h
      refine ⟨hj, ?_⟩
      split
      · exact Change.Aside.spared (c := .fill i []) hj ⟨b, face?_file.2 hb⟩ hp hf
      · exact .refl hp hf
    · cases h
      exact ⟨hj, .refl hp hf⟩
    · cases h
    · cases h
    · cases h

theorem write (hp : Plot S t fs) (hf : Fenced S t.here fs) (ho : fs.NamesOutside t .create path)
    (hb : fs.NamesBeyond S .create path) : Spared S t fs (World.writeFile fs path bytes).2 := by
  unfold World.writeFile
  split
  · exact .refl hp hf
  · rename_i fs₁ i hopen
    obtain ⟨hi, hsp⟩ := openForWriting hp hf ho hb hopen
    split
    · exact hsp
    simp only
    split
    · exact hsp
    · rename_i fs₂ hwrite
      rcases writeAt_cases hwrite with rfl | ⟨b, hb, rfl⟩
      · exact hsp
      · exact hsp.trans (Change.Aside.spared (c := .fill i _) hi ⟨b, hb⟩ hsp.plot hsp.fenced)

/-- What is made at a free name outside. -/
theorem make (hp : Plot S t fs) (hf : Fenced S t.here fs) (ho : fs.NamesOutside t .keep path)
    (hw : fs.walk .keep (Path.ofText path) = .ok (.entry u n none trailing)) {nd : Node}
    (hb : nd.Blank) : Spared S t fs (fs.make u.here n nd) :=
  Change.Aside.spared (c := .make u.here n nd) (outside hp hf ho hw)
    (make_fits hp.sound (by decide) (walk_sound hp.sound hw) hb) hp hf

/-- A name outside, of what is no directory, is taken away. -/
theorem unbind (hp : Plot S t fs) (hf : Fenced S t.here fs) (ho : fs.NamesOutside t .keep path)
    (hw : fs.walk .keep (Path.ofText path) = .ok (.entry u n (some i) trailing))
    (hd : fs.isDirectory i = false) : Spared S t fs (fs.unbind u.here n) := by
  have hl : fs.lookup u.here n = some i := ((walk_sound hp.sound hw).2.2 (by decide)).2.symm
  refine Change.Aside.spared (c := .unbind u.here n) ⟨outside hp hf ho hw, ?_⟩ ⟨i, hl⟩ hp hf
  intro j hj hway
  rw [hl] at hj
  cases hj
  rw [hp.stands.directories i hway] at hd
  cases hd

theorem makeDirectories (hp : Plot S t fs) (hf : Fenced S t.here fs)
    (hw : ∃ s, fs.walk .keep (Path.ofText path) = .ok s) (ho : fs.NamesOutside t .keep path) :
    Spared S t fs (fs.makeDirectories path).2 := by
  obtain ⟨s, hw⟩ := hw
  unfold FileSystem.makeDirectories makeDirectory
  simp only [hw]
  cases s with
  | inside u =>
    simp only [forgiveDirectory_snd]
    exact .refl hp hf
  | entry u n r trailing =>
    cases r with
    | some i =>
      simp only [forgiveDirectory_snd]
      exact .refl hp hf
    | none => exact make hp hf ho hw rfl

theorem makeLink (hp : Plot S t fs) (hf : Fenced S t.here fs) (ho : fs.NamesOutside t .keep path)
    (h : fs.makeLink target path = .ok g) : Spared S t fs g := by
  unfold FileSystem.makeLink at h
  simp only at h
  split at h
  · cases h
  rename_i hz
  rw [not_or] at hz
  split at h
  · cases h
  split at h
  · cases h
  · cases h
  · cases h
  · rename_i u n trailing hw
    split at h
    · cases h
    · cases h
      exact make hp hf ho hw (by simpa [Node.Blank] using hz.1)

theorem remove (hp : Plot S t fs) (hf : Fenced S t.here fs) (ho : fs.NamesOutside t .keep path)
    (h : fs.remove path = .ok g) : Spared S t fs g := by
  replace h := removeName_of_remove h
  unfold removeName at h
  split at h
  · cases h
  · cases h
  · cases h
  · rename_i u n i trailing hw
    split at h
    · cases h
    rename_i hd
    split at h
    · cases h
    · cases h
      exact unbind hp hf ho hw (by simpa using hd)

theorem removeTree (hp : Plot S t fs) (hf : Fenced S t.here fs) (ho : fs.NamesOutside t .keep path)
    (hbare : (Path.ofText path).trailing = false)
    (hw : fs.walk .keep (Path.ofText path) = .ok (.entry u n (some i) trailing))
    (hi : fs.node? i = some (.link target)) : Spared S t fs (fs.removeTree path).2 := by
  have hd : fs.isDirectory i = false := by
    rw [isDirectory_eq_false, face?_link.2 hi]
    simp
  unfold FileSystem.removeTree
  simp only [hbare, Bool.false_eq_true, if_false, hw, hi]
  exact unbind hp hf ho hw hd

theorem rename (hp : Plot S t fs) (hf : Fenced S t.here fs)
    (hsource : fs.NamesOutside t .ignore source ∧ fs.NamesOffWay t .ignore source)
    (htarget : fs.NamesOutside t .ignore target ∧ fs.NamesOffWay t .ignore target)
    (h : fs.rename source target = .ok g) : Spared S t fs g := by
  obtain ⟨u, n, r, _, u', n', r', _, hw, hw', rfl | ⟨j, hfit, rfl⟩⟩ := rename_cases hp.sound h
  · exact .refl hp hf
  · refine Change.Aside.spared (c := .move u.here n u'.here n' j) ?_ hfit hp hf
    exact ⟨⟨outside hp hf hsource.1 hw, hsource.2 _ _ _ _ hw⟩, outside hp hf htarget.1 hw',
      htarget.2 _ _ _ _ hw'⟩

theorem whole (hp : Plot S t fs) (hf : Fenced S t.here fs) {q : Except Errno FileSystem}
    (h : ∀ g, q = .ok g → Spared S t fs g) : Spared S t fs (World.whole fs q).2 := by
  cases q with
  | error err => exact .refl hp hf
  | ok g => exact h g rfl

/-- **What others do elsewhere spares the plot.** -/
theorem spared {o : Outside} (h : o.Elsewhere S t fs) (hp : Plot S t fs) (hf : Fenced S t.here fs) :
    Spared S t fs (World.actOutside fs o).2 := by
  cases o with
  | write path bytes => exact write hp hf h.1 h.2
  | makeDirectories path => exact makeDirectories hp hf h.1 h.2
  | makeLink target path => exact whole hp hf fun g => makeLink hp hf h
  | remove path => exact whole hp hf fun g => remove hp hf h
  | removeTree path =>
    obtain ⟨ho, hbare, u, n, i, trailing, target, hw, hi⟩ := h
    exact removeTree hp hf ho hbare hw hi
  | rename source target => exact whole hp hf fun g => rename hp hf h.1 h.2

end Outside.Elsewhere

end EngineDir
