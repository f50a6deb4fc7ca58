import EngineDir.FileSystem.Entry
import EngineDir.Proofs.FileSystem.Trails

/-!
# What operations change

Each operation on a sound file system is a sequence of changes that fit.

* `Change.AddsDirectory`: changes that make an empty directory. `Change.Adds`: these, and others that
  only make nodes. `Change.Gentle`: these, and new contents of files.
* `openForWriting_leads`, `makeDirectories_leads`: gentle operations.
* `remove_join`, `rename_join`: an operation on a name in a directory changes what that
  name is bound to, and no other name.
* `removeTree_leads`, `rename_leads`, `remove_leads`: what others may do.
-/

namespace EngineDir

/-- A change that makes an empty directory. -/
def Change.AddsDirectory : Change → Prop
  | .make _ _ nd => nd = FileSystem.emptyDirectory
  | _ => False

/-- A change that makes a node. -/
def Change.Adds : Change → Prop
  | .make _ _ _ => True
  | _ => False

/-- A change that takes nothing from its place. -/
def Change.Gentle : Change → Prop
  | .make _ _ _ => True
  | .fill _ _ => True
  | _ => False

/-- A change that gives files new contents, and nothing else. -/
def Change.Fills : Change → Prop
  | .fill _ _ => True
  | _ => False

namespace Change

theorem AddsDirectory.adds {c : Change} (h : c.AddsDirectory) : c.Adds := by
  cases c <;> first | exact True.intro | exact absurd h id

theorem Adds.gentle {c : Change} (h : c.Adds) : c.Gentle := by
  cases c <;> first | exact h | exact True.intro

theorem Fills.gentle {c : Change} (h : c.Fills) : c.Gentle := by
  cases c <;> first | exact h | exact True.intro

theorem Gentle.spares {c : Change} (h : c.Gentle) (name : Bytes) : c.Spares name := by
  cases c <;> first | exact True.intro | exact absurd h id

theorem Gentle.unlocking {c : Change} (h : c.Gentle) : c.Unlocking := by
  cases c <;> first | exact True.intro | exact absurd h id

end Change

namespace FileSystem

variable {fs fs' : FileSystem} {e : Ending} {tr : Bool} {t t' : Trail} {b m : Nat}
  {ps : List Part} {n n' dir path : Bytes} {i j : NodeId}

/-! ## Making nodes -/

/-- A new node that a walk found a free name for. -/
theorem make_fits (hs : fs.Sound) (he : e ≠ .ignore) (h : fs.SpotOK e (.entry t n none tr))
    {nd : Node} (hb : nd.Blank) : (Change.make t.here n nd).Fits fs := by
  obtain ⟨ht, hn, hl⟩ := h
  obtain ⟨hlen, hl⟩ := hl he
  exact ⟨ht.isDirectory hs, hn, hlen, hl.symm, hb⟩

/-- What opening a file for writing leads to: a file or a device that was there, the file emptied
if asked, or a new file. -/
theorem openForWriting_cases (hs : fs.Sound) {trunc : Bool}
    (h : fs.openForWriting trunc path = .ok (fs', i)) :
    (fs' = fs ∧ ((∃ d, fs.face? i = some (.device d)) ∨
        trunc = false ∧ ∃ b, fs.face? i = some (.file b))) ∨
      (trunc = true ∧ (Change.fill i []).Fits fs ∧ fs' = (Change.fill i []).apply fs) ∨
      ∃ k name, (Change.make k name (.file [])).Fits fs ∧
        fs' = (Change.make k name (.file [])).apply fs ∧ i = fs.nextId k := by
  unfold openForWriting at h
  split at h
  · cases h
  · cases h
  · -- a name that is free, also at the end of links
    rename_i t n tr hw
    split at h
    · cases h
    cases h
    have hf : (Change.make t.here n (.file [])).Fits fs :=
      make_fits hs (by decide) (walk_sound hs hw) trivial
    exact Or.inr (Or.inr ⟨_, _, hf, rfl, rfl⟩)
  · rename_i t n i tr hw
    split at h
    · rename_i b hb
      have hb := face?_file.2 hb
      cases trunc with
      | true => cases h; exact Or.inr (Or.inl ⟨rfl, ⟨b, hb⟩, rfl⟩)
      | false => cases h; exact Or.inl ⟨rfl, Or.inr ⟨rfl, b, hb⟩⟩
    · rename_i d hd
      cases h
      exact Or.inl ⟨rfl, Or.inl ⟨d, face?_device.2 hd⟩⟩
    · cases h
    · cases h
    · cases h

theorem openForWriting_leads (hs : fs.Sound) {trunc : Bool}
    (h : fs.openForWriting trunc path = .ok (fs', i)) : Leads Change.Gentle fs fs' := by
  rcases openForWriting_cases hs h with ⟨rfl, -⟩ | ⟨-, hf, rfl⟩ | ⟨k, name, hf, rfl, -⟩
  · exact .refl
  · exact .one hf trivial
  · exact .one hf trivial

/-- What is open for writing is a file or a device. -/
theorem openForWriting_face? (hs : fs.Sound) {trunc : Bool}
    (h : fs.openForWriting trunc path = .ok (fs', i)) :
    (∃ b, fs'.face? i = some (.file b)) ∨ ∃ d, fs'.face? i = some (.device d) := by
  rcases openForWriting_cases hs h with ⟨rfl, h | ⟨-, h⟩⟩ | ⟨-, hf, rfl⟩ | ⟨k, name, hf, rfl, rfl⟩
  · exact Or.inr h
  · exact Or.inl h
  · exact Or.inl ⟨[], by simp [Change.apply, face?_setNode, Node.face]⟩
  · exact Or.inl ⟨[], by simp [Change.apply, face?_make, Node.face]⟩

theorem makeDirectory_leads (hs : fs.Sound) (h : fs.makeDirectory (Path.ofText path) = .ok fs') :
    Leads Change.AddsDirectory fs fs' := by
  unfold makeDirectory at h
  split at h
  · cases h
  · cases h
  · cases h
  · rename_i t n tr hw
    cases h
    have hb : emptyDirectory.Blank := rfl
    exact .one (make_fits hs (by decide) (walk_sound hs hw) hb) rfl

/-- Trails stand through gentle changes. -/
theorem stands_leads (h : Leads Change.Gentle fs fs') (hs : fs.Sound) (ht : t.Stands fs) :
    t.Stands fs' := by
  induction t with
  | nil => trivial
  | cons e t ih =>
    obtain ⟨hl, hd, ht⟩ := ht
    exact ⟨h.lookup hs (fun c hc => hc.spares _) hl, h.isDirectory hs hd, ih ht⟩

/-- So do the ways. -/
theorem roads_leads (h : Leads Change.Gentle fs fs') (hs : fs.Sound) : Roads fs fs' := by
  induction h with
  | refl => exact Roads.refl fs
  | step h hc hq ih =>
    refine ih.trans (roads_apply hc (h.sound hs) ?_)
    intro k n j hl _
    exact Change.lookup_apply hc (h.sound hs) (hq.spares n) hl

theorem enter_stands (hs : fs.Sound) (ht : t.Stands fs) (hn : Proper n)
    (h : fs.enter b t n = some (t', m)) : t'.Stands fs := by
  unfold enter at h
  split at h
  · rename_i t₁ m₁ hw
    cases h
    exact walkFrom_sound hs ht (by simpa [Part.Proper] using hn) hw
  · rename_i t₁ n₁ i₁ tr₁ m₁ hw
    have hok := walkFrom_sound hs ht (by simpa [Part.Proper] using hn) hw
    split at h
    · rename_i hd
      cases h
      exact ⟨(hok.2.2 (by decide)).2.symm, hd, hok.1⟩
    · cases h
  · cases h

theorem makeMissing_leads (hs : fs.Sound) (ht : t.Stands fs) (hp : ∀ q ∈ ps, q.Proper) :
    Leads Change.AddsDirectory fs (fs.makeMissing b t ps).2 := by
  induction ps generalizing fs b t with
  | nil => exact .refl
  | cons p ps ih =>
    have hps : ∀ q ∈ ps, q.Proper := fun q hq => hp q (List.mem_cons_of_mem _ hq)
    cases p with
    | here => exact ih hs ht hps
    | up => exact ih hs ht.tail hps
    | name n =>
      have hn : Proper n := hp _ List.mem_cons_self
      rw [makeMissing]
      unfold probe
      by_cases hlen : nameLimit < n.length
      · simp only [hlen, if_true]; exact .refl
      · simp only [hlen, if_false]
        cases hl : fs.lookup t.here n with
        | none =>
          have hf : (Change.make t.here n emptyDirectory).Fits fs :=
            ⟨ht.isDirectory hs, hn, Nat.not_lt.1 hlen, hl, rfl⟩
          -- the missing directory is made, and the way goes on through it
          have hone : Leads Change.AddsDirectory fs (fs.make t.here n emptyDirectory) :=
            .one hf rfl
          have hs' := hone.sound hs
          refine hone.trans (ih hs' ⟨?_, ?_, ?_⟩ hps)
          · rw [lookup_make hf.1 (hs.fresh _) hf.2.2.2.2.entries, if_pos ⟨rfl, rfl⟩]
          · rw [isDirectory_iff, face?_make, if_pos rfl]; rfl
          · exact stands_leads (hone.mono fun c hc => hc.adds.gentle) hs ht
        | some i =>
          simp only
          split
          · exact .refl
          · rename_i t' more he
            exact ih hs (enter_stands hs ht hn he) hps

theorem above_proper {p : Path} (h : ∀ q ∈ p.parts, q.Proper) : ∀ q ∈ p.above, q.Proper := by
  intro q hq
  exact h q (List.mem_filter.1 (List.dropLast_subset _ hq)).1

theorem forgiveDirectory_snd (p : Path) (err : Errno) : (fs.forgiveDirectory p err).2 = fs := by
  unfold forgiveDirectory
  split <;> rfl

/-- The directories above a missing one are made only if no part of the path holds a zero byte. -/
theorem makeMissing_above_leads (hs : fs.Sound)
    (h : fs.makeDirectory (Path.ofText path) = .error .noEntry) :
    Leads Change.AddsDirectory fs (fs.makeMissing linkLimit [] (Path.ofText path).above).2 := by
  have hz : (Path.ofText path).holdsZero = false := by
    cases hz : (Path.ofText path).holdsZero with
    | false => rfl
    | true => simp [makeDirectory, walk, hz] at h
  exact makeMissing_leads hs (Trail.Stands.nil fs) (above_proper (Path.ofText_proper hz))

/-- Making a directory, and those above it, makes directories and nothing else. -/
theorem makeDirectories_leads (hs : fs.Sound) :
    Leads Change.AddsDirectory fs (fs.makeDirectories path).2 := by
  unfold makeDirectories
  simp only
  split
  · exact makeDirectory_leads hs ‹_›
  · have hmiss := makeMissing_above_leads hs ‹_›
    split
    · rename_i err fs₁ hm
      rw [hm] at hmiss
      exact hmiss
    · rename_i fs₁ hm
      rw [hm] at hmiss
      split
      · exact hmiss.trans (makeDirectory_leads (hmiss.sound hs) ‹_›)
      · rw [forgiveDirectory_snd]
        exact hmiss
  · rw [forgiveDirectory_snd]
    exact .refl

theorem makeLink_leads (hs : fs.Sound) {target : Bytes} (h : fs.makeLink target path = .ok fs') :
    Leads Change.Adds fs fs' := by
  unfold makeLink at h
  simp only at h
  split at h
  · cases h
  rename_i hz
  rw [not_or] at hz
  split at h
  · cases h
  split at h
  · cases h
  · cases h
  · cases h
  · rename_i t n tr hw
    split at h
    · cases h
    · cases h
      refine .one (make_fits hs (by decide) (walk_sound hs hw) ?_) trivial
      simpa [Node.Blank] using hz.1

/-! ## Removing and moving names -/

theorem unbind_leads {Q : Change → Prop} (hl : fs.lookup i n = some j) (hq : Q (.unbind i n)) :
    Leads Q fs (fs.unbind i n) := .one (c := .unbind i n) ⟨j, hl⟩ hq

/-- What is removed is not refused. -/
theorem removeName_of_remove (h : fs.remove path = .ok fs') :
    fs.removeName (Path.ofText path) = .ok fs' := by
  unfold remove at h
  split at h
  · cases h
  · exact h

/-- What is moved is not refused. -/
theorem renameName_of_rename {source target : Bytes} (h : fs.rename source target = .ok fs') :
    fs.renameName (Path.ofText source) (Path.ofText target) = .ok fs' := by
  unfold rename at h
  split at h
  · cases h
  · exact h

theorem remove_leads (hs : fs.Sound) (h : fs.remove path = .ok fs') :
    Leads Change.Unlocking fs fs' := by
  replace h := removeName_of_remove h
  unfold removeName at h
  split at h
  · cases h
  · cases h
  · cases h
  · rename_i t n i tr hw
    split at h
    · cases h
    split at h
    · cases h
    · cases h
      exact unbind_leads ((walk_sound hs hw).2.2 (by decide)).2.symm trivial

theorem removeDirectory_leads (hs : fs.Sound) (h : fs.removeDirectory (Path.ofText path) = .ok fs') :
    Leads Change.Unlocking fs fs' := by
  unfold removeDirectory at h
  split at h
  · cases h
  · cases h
  · cases h
  · rename_i t n i tr hw
    split at h
    · cases h
    split at h
    · cases h
    · cases h
      exact unbind_leads ((walk_sound hs hw).2.2 (by decide)).2.symm trivial

theorem clear_leads (hs : fs.Sound) (hd : fs.isDirectory i = true) :
    Leads Change.Unlocking fs (fs.clear (Path.ofText path) i).2 := by
  have hone : Leads Change.Unlocking fs ((Change.clear i).apply fs) := .one hd trivial
  unfold clear
  simp only
  split
  · rename_i fs₁ hr
    exact hone.trans (removeDirectory_leads (hone.sound hs) hr)
  · exact hone
  · exact hone

theorem removeTree_leads (hs : fs.Sound) : Leads Change.Unlocking fs (fs.removeTree path).2 := by
  unfold removeTree
  simp only
  split
  · exact .refl
  · rename_i t hw
    exact clear_leads hs (Trail.Stands.isDirectory hs (walk_sound hs hw))
  · exact .refl
  · rename_i t n i tr hw
    split
    · rename_i d hd
      exact clear_leads hs (isDirectory_iff.2 (face?_directory.2 ⟨d, hd⟩))
    · have hok := (walk_sound hs hw).2.2 (by split <;> decide)
      exact unbind_leads hok.2.symm trivial
    · exact .refl

/-- What a renaming leads to: nothing new, or one name moved. -/
theorem rename_cases (hs : fs.Sound) {source target : Bytes}
    (h : fs.rename source target = .ok fs') :
    ∃ t n i tr t' n' j tr', fs.walk .ignore (Path.ofText source) = .ok (.entry t n i tr) ∧
      fs.walk .ignore (Path.ofText target) = .ok (.entry t' n' j tr') ∧
      (fs' = fs ∨ ∃ k, (Change.move t.here n t'.here n' k).Fits fs ∧
        fs' = (Change.move t.here n t'.here n' k).apply fs) := by
  replace h := renameName_of_rename h
  unfold renameName at h
  split at h
  · cases h
  split at h
  · cases h
  · cases h
  · rename_i t n i tr t' n' j tr' hw hw'
    refine ⟨t, n, i, tr, t', n', j, tr', hw, hw', ?_⟩
    have hok := walk_sound hs hw
    have hok' := walk_sound hs hw'
    -- a name is moved only after both ends were looked up
    have hmove : ∀ k r, fs.probe t.here n = .ok (some k) → fs.probe t'.here n' = .ok r →
        (Change.move t.here n t'.here n' k).Fits fs := by
      intro k r hk hr
      unfold probe at hk hr
      split at hk
      · cases hk
      split at hr
      · cases hr
      · rename_i hlen
        exact ⟨Except.ok.inj hk, hok'.1.isDirectory hs, hok'.2.1, Nat.not_lt.1 hlen⟩
    split at h
    · cases h
    · cases h
    · cases h
    · rename_i k r hk hr
      have hfit := hmove k r hk hr
      split at h
      · cases h
      split at h
      · cases h
      split at h
      · cases h; exact Or.inr ⟨k, hfit, rfl⟩
      split at h
      · cases h
      split at h
      · cases h; exact Or.inl rfl
      split at h
      · cases h
      · cases h; exact Or.inr ⟨k, hfit, rfl⟩
  · cases h

theorem rename_leads (hs : fs.Sound) {source target : Bytes}
    (h : fs.rename source target = .ok fs') : Leads Change.Unlocking fs fs' := by
  obtain ⟨t, n, i, tr, t', n', j, tr', -, -, rfl | ⟨k, hf, rfl⟩⟩ := rename_cases hs h
  · exact .refl
  · exact .one hf trivial

/-! ## Names in a directory -/

/-- A walk to a name that is not followed ends at that name. -/
theorem walk_join (hn : Proper n) (he : e = .keep ∨ e = .ignore) {s : Spot}
    (h : fs.walk e (Path.ofText (join dir n)) = .ok s) :
    ∃ t i, s = .entry t n i false := by
  obtain ⟨t, m, ha⟩ := arrives_of_walk hn h
  rw [ha.walk hn] at h
  rcases he with rfl | rfl
  · by_cases hlen : nameLimit < n.length
    · simp [walkFrom, stride, hlen, Except.map] at h
    · rw [walkFrom_keep (Nat.not_lt.1 hlen)] at h
      exact ⟨t, _, (Except.ok.inj h).symm⟩
  · rw [walkFrom_ignore] at h
    exact ⟨t, _, (Except.ok.inj h).symm⟩

/-- Removing a name in a directory unbinds that name. -/
theorem remove_join (hs : fs.Sound) (hn : Proper n) (h : fs.remove (join dir n) = .ok fs') :
    Leads (fun c => ∃ i, c = .unbind i n) fs fs' := by
  replace h := removeName_of_remove h
  unfold removeName at h
  split at h
  · cases h
  · cases h
  · cases h
  · rename_i t n₁ i tr hw
    split at h
    · cases h
    split at h
    · cases h
    · cases h
      obtain ⟨t₁, i₁, he⟩ := walk_join hn (Or.inl rfl) hw
      cases he
      exact unbind_leads ((walk_sound hs hw).2.2 (by decide)).2.symm ⟨_, rfl⟩

/-- Renaming a name in a directory moves that name. -/
theorem rename_join (hs : fs.Sound) (hn : Proper n) (hn' : Proper n') {dir' : Bytes}
    (h : fs.rename (join dir n) (join dir' n') = .ok fs') :
    Leads (fun c => ∃ i i' k, c = .move i n i' n' k) fs fs' := by
  obtain ⟨t, n₁, i, tr, t', n₁', j, tr', hw, hw', rfl | ⟨k, hf, rfl⟩⟩ := rename_cases hs h
  · exact .refl
  · obtain ⟨_, _, he⟩ := walk_join hn (Or.inr rfl) hw
    obtain ⟨_, _, he'⟩ := walk_join hn' (Or.inr rfl) hw'
    cases he
    cases he'
    exact .one hf ⟨_, _, _, rfl⟩

/-- A file that is renamed in its directory takes the place of nothing or of another file, unless
both are names of it. -/
theorem Arrives.rename_file (h : fs.Arrives dir t m) (hn : Proper n) (hn' : Proper n')
    (hne : fs.lookup t.here n' ≠ some i) (hl : fs.lookup t.here n = some i)
    (hd : fs.isDirectory i = false) (hr : fs.rename (join dir n) (join dir n') = .ok fs') :
    fs' = (Change.move t.here n t.here n' i).apply fs ∧
      ∀ j, fs.lookup t.here n' = some j → fs.isDirectory j = false := by
  replace hr := renameName_of_rename hr
  unfold renameName at hr
  split at hr
  · cases hr
  rw [h.walk_ignore hn, h.walk_ignore hn'] at hr
  simp only [probe, hl] at hr
  split at hr
  · cases hr
  · cases hr
  · cases hr
  · rename_i k r hk hr'
    split at hk
    · cases hk
    split at hr'
    · cases hr'
    cases hk
    cases hr'
    simp only [hd, Bool.false_eq_true, not_false_eq_true, or_self, and_false, if_false] at hr
    split at hr
    · cases hr
    cases hj : fs.lookup t.here n' with
    | none =>
      rw [hj] at hr
      cases hr
      exact ⟨rfl, by simp⟩
    | some j =>
      rw [hj] at hr
      simp only at hr
      split at hr
      · cases hr
      split at hr
      · -- the other name is one of another node
        rename_i hij
        subst hij
        exact absurd hj hne
      · cases hjd : fs.isDirectory j with
        | true => simp [mayReplace, hd, hjd] at hr
        | false =>
          simp only [mayReplace, hd, hjd, Bool.false_eq_true, if_false] at hr
          cases hr
          refine ⟨rfl, ?_⟩
          intro j' hj'
          rw [← Option.some.inj hj']
          exact hjd

/-- A file takes the place of another file of its directory, or of nothing, unless the system
refuses that. -/
theorem Arrives.rename_granted (h : fs.Arrives dir t m) (hs : fs.Sound) (hn : Proper n)
    (hlen : n.length ≤ nameLimit) (hn' : Proper n') (hlen' : n'.length ≤ nameLimit)
    (hne : fs.lookup t.here n' ≠ some i) (hl : fs.lookup t.here n = some i)
    (hd : fs.isDirectory i = false)
    (hgrant : fs.refusals.rename (join dir n) (join dir n') = none)
    (hd' : ∀ j, fs.lookup t.here n' = some j → fs.isDirectory j = false) :
    fs.rename (join dir n) (join dir n') = .ok ((Change.move t.here n t.here n' i).apply fs) := by
  have hz : (Path.ofText (join dir n')).holdsZero = false := by rw [holdsZero_join hn', h.zero]
  have hin : ∀ k, fs.isDirectory k = false → k ∉ t.map Prod.snd := by
    intro k hk hmem
    rw [Trail.Stands.directories (h.stands hs) k hmem] at hk
    cases hk
  unfold rename renameName
  simp only [hgrant, hz, Bool.false_eq_true, if_false, h.walk_ignore hn, h.walk_ignore hn', probe,
    if_neg (Nat.not_lt.2 hlen), if_neg (Nat.not_lt.2 hlen'), hl, hd, or_self, and_false,
    if_neg (hin i hd)]
  cases hj : fs.lookup t.here n' with
  | none => rfl
  | some j =>
    have hjd := hd' j hj
    have hij : i ≠ j := by
      rintro rfl
      exact hne hj
    simp only [if_neg (hin j hjd), if_neg hij, mayReplace, hd, hjd, Bool.false_eq_true, if_false]
    rfl

/-! ## Transfers -/

/-- Writing behind the last byte adds to the file. -/
theorem overlay_length (done new : Bytes) : overlay done done.length new = done ++ new := by
  simp [overlay]

/-- A write gives one file new contents, or changes nothing. -/
theorem writeAt_cases {pos : Nat} {new : Bytes} (h : fs.writeAt i pos new = .ok fs') :
    fs' = fs ∨ ∃ b, fs.face? i = some (.file b) ∧
      fs' = (Change.fill i (overlay b pos new)).apply fs := by
  unfold writeAt at h
  split at h
  · cases h
  split at h
  · rename_i b hb
    split at h
    · cases h; exact Or.inl rfl
    split at h
    · cases h; exact Or.inr ⟨b, face?_file.2 hb, rfl⟩
    · cases h
  · cases h; exact Or.inl rfl
  · cases h
  · cases h
  · cases h

/-- Bytes that are written go to a file, or vanish in a device. -/
theorem writeAt_ok {pos : Nat} {new : Bytes} (hn : new ≠ []) (h : fs.writeAt i pos new = .ok fs') :
    (∃ b, fs.face? i = some (.file b) ∧ fs' = (Change.fill i (overlay b pos new)).apply fs) ∨
      ∃ d, fs.face? i = some (.device d) ∧ fs' = fs := by
  simp only [writeAt, if_neg hn] at h
  split at h
  · cases h
  split at h
  · rename_i b hb
    split at h
    · cases h; exact Or.inl ⟨b, face?_file.2 hb, rfl⟩
    · cases h
  · rename_i hd
    cases h
    exact Or.inr ⟨_, face?_device.2 hd, rfl⟩
  · cases h
  · cases h
  · cases h

/-- Something of what is not empty is tried. -/
theorem accepted_ne_nil {pos : Nat} {new : Bytes} (hn : new ≠ []) : fs.accepted i pos new ≠ [] := by
  unfold accepted
  split
  · split
    · exact hn
    · rename_i h
      rw [Ne, List.take_eq_nil_iff]
      rintro (h' | h')
      · omega
      · exact hn h'
  · exact hn

theorem writeAt_leads {pos : Nat} {new : Bytes} (h : fs.writeAt i pos new = .ok fs') :
    Leads Change.Fills fs fs' := by
  rcases writeAt_cases h with rfl | ⟨b, hb, rfl⟩
  · exact .refl
  · exact .one ⟨b, hb⟩ trivial

end FileSystem

end EngineDir
