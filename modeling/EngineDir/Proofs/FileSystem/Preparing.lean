import EngineDir.Proofs.FileSystem.Entries

/-!
# Paths that were there

To make the directories of a path makes nothing if the path has no `..` and leads to a
directory that was there before: the first directory that is missing is a new one, and
the rest of the path stays below it.

* `FileSystem.arrive_cons`: a way, one part after the other.
* `FileSystem.makeMissing_cases`: **nothing is made, or the way ends in a new directory.**
* `FileSystem.makeDirectories_there`: **a path to a directory makes nothing.**
* `FileSystem.makeDirectories_same`: **nor does a path to what was there, if it has no `..`.**
* `FileSystem.makeDirectories_leadsToDirectory`: what is made is what the path leads to.
-/

namespace EngineDir

namespace FileSystem

variable {fs fs' fs₀ : FileSystem} {b m : Nat} {t t' : Trail} {ps : List Part} {q : Part} {n : Bytes}
  {i : NodeId} {path : Bytes}

/-! ## Ways, part by part -/

/-- A way, one part after the other. -/
theorem arrive_cons (fs : FileSystem) (b : Nat) (t : Trail) (q : Part) (ps : List Part) :
    fs.arrive b t (q :: ps) =
      match fs.arrive b t [q] with
      | .error e => .error e
      | .ok (t', m) => fs.arrive m t' ps := by
  have hcons : q :: ps = [q] ++ ps := rfl
  cases ha : fs.arrive b t [q] with
  | ok r =>
    rw [hcons]
    exact arrive_append ha
  | error e =>
    by_cases hps : ps = []
    · rw [hps, ha]
    · rw [hcons, arrive, walkFrom_of_arrive_error ha hps]

theorem arrive_here (fs : FileSystem) (b : Nat) (t : Trail) (ps : List Part) :
    fs.arrive b t (.here :: ps) = fs.arrive b t ps := by
  have h : fs.arrive b t [.here] = .ok (t, b) := by
    simp [arrive, walkFrom, stride, arrival, Except.map]
  rw [arrive_cons, h]

/-- A `.` in a way makes no difference. -/
theorem arrive_filter (fs : FileSystem) (b : Nat) (t : Trail) (ps : List Part) :
    fs.arrive b t (ps.filter fun q => decide (q ≠ .here)) = fs.arrive b t ps := by
  induction ps generalizing b t with
  | nil => rfl
  | cons q ps ih =>
    by_cases hq : q = .here
    · rw [hq, arrive_here, List.filter_cons_of_neg (by simp)]
      exact ih b t
    · rw [List.filter_cons_of_pos (by simpa using hq), arrive_cons, arrive_cons fs b t q ps]
      cases fs.arrive b t [q] with
      | error e => rfl
      | ok r => exact ih r.2 r.1

/-- A name that is bound to nothing leads nowhere. -/
theorem arrive_free (hl : fs.lookup t.here n = none) : ∃ e, fs.arrive b t [.name n] = .error e := by
  by_cases hn : n.length ≤ nameLimit
  · refine ⟨.noEntry, ?_⟩
    rw [arrive, walkFrom_last hn (by decide) (by simp [hl]), hl]
    rfl
  · exact ⟨.nameTooLong, by simp [arrive, walkFrom, stride, Nat.not_le.1 hn]⟩

theorem arrive_long (hn : nameLimit < n.length) : ∃ e, fs.arrive b t [.name n] = .error e :=
  ⟨.nameTooLong, by simp [arrive, walkFrom, stride, hn]⟩

/-- To enter a name is a way of one part. -/
theorem enter_eq : fs.enter b t n = (fs.arrive b t [.name n]).toOption := by
  unfold enter arrive
  cases fs.walkFrom .follow b t [.name n] false with
  | error e => rfl
  | ok r =>
    obtain ⟨s, m⟩ := r
    cases s with
    | inside t' => rfl
    | entry t' n' r tr =>
      cases r with
      | none => rfl
      | some i =>
        simp only [arrival]
        cases fs.isDirectory i <;> rfl

/-! ## Directories that are made -/

/-- What is not there binds no name. -/
theorem lookup_of_face?_none (h : fs.face? i = none) : fs.lookup i n = none := by
  simp [lookup, directory?, face?_none.1 h]

/-- A directory that is made under a free name: what comes of it. -/
structure Made (fs : FileSystem) (t : Trail) (n : Bytes) (fs₁ : FileSystem) : Prop where
  leads : Leads Change.AddsDirectory fs fs₁
  stands : Trail.Stands fs₁ ((n, fs.nextId t.here) :: t)
  empty : ∀ k, fs₁.lookup (fs.nextId t.here) k = none

theorem made_make (hs : fs.Sound) (ht : t.Stands fs) (hn : Proper n) (hlen : n.length ≤ nameLimit)
    (hl : fs.lookup t.here n = none) : Made fs t n (fs.make t.here n emptyDirectory) := by
  have hf : (Change.make t.here n emptyDirectory).Fits fs := ⟨ht.isDirectory hs, hn, hlen, hl, rfl⟩
  have hone : Leads Change.AddsDirectory fs (fs.make t.here n emptyDirectory) := .one hf rfl
  have hlook : ∀ i k, (fs.make t.here n emptyDirectory).lookup i k =
      if i = t.here ∧ k = n then some (fs.nextId t.here) else fs.lookup i k :=
    fun i k => lookup_make hf.1 (hs.fresh _) hf.2.2.2.2.entries
  refine ⟨hone, ⟨?_, ?_, stands_leads (hone.mono fun _ hc => hc.adds.gentle) hs ht⟩, ?_⟩
  · exact (hlook _ _).trans (if_pos ⟨rfl, rfl⟩)
  · rw [isDirectory_iff, face?_make, if_pos rfl]
    rfl
  · intro k
    rw [hlook, if_neg fun he => fs.nextId_ne t.here he.1]
    exact lookup_of_face?_none (hs.fresh _)

/-- When the way goes on below it, it begins with the name just made. -/
theorem Made.way {fs₁ : FileSystem} (hm : Made fs t n fs₁) (hs : fs.Sound)
    (hlen : n.length ≤ nameLimit) (hps : ∀ q ∈ ps, q.Proper) {r : Except Errno Unit}
    (h : fs₁.makeMissing b ((n, fs.nextId t.here) :: t) ps = (r, fs')) :
    fs'.arrive b t [.name n] = .ok ((n, fs.nextId t.here) :: t, b) := by
  have hs₁ := hm.leads.sound hs
  have hlater : Leads Change.AddsDirectory fs₁ (fs₁.makeMissing b ((n, fs.nextId t.here) :: t) ps).2 :=
    makeMissing_leads hs₁ hm.stands hps
  rw [h] at hlater
  exact arrive_name hlen (hlater.lookup hs₁ (fun c hc => hc.adds.gentle.spares n) hm.stands.1)
    (hlater.isDirectory hs₁ hm.stands.2.1)

/-- The way along `ps` ends in a directory that was not there in `fs₀` and has no entries. -/
def Beyond (fs₀ fs' : FileSystem) (b : Nat) (t : Trail) (ps : List Part) : Prop :=
  ∃ t' m, fs'.arrive b t ps = .ok (t', m) ∧ fs₀.face? t'.here = none ∧
    ∀ n, fs'.lookup t'.here n = none

/-- In a new directory all that is missing on the way is made, unless a name is too long. -/
theorem makeMissing_fresh (hs₀ : fs₀.Sound) (hl : Leads Change.AddsDirectory fs₀ fs) (ht : t.Stands fs)
    (hnew : fs₀.face? t.here = none) (hempty : ∀ n, fs.lookup t.here n = none)
    (hps : ∀ q ∈ ps, q.Proper ∧ q ≠ .up) {r : Except Errno Unit}
    (h : fs.makeMissing b t ps = (r, fs')) :
    (r = .ok () ∧ Beyond fs₀ fs' b t ps) ∨ ∃ e, fs'.arrive b t ps = .error e := by
  have hs := hl.sound hs₀
  induction ps generalizing fs t with
  | nil =>
    cases h
    exact Or.inl ⟨rfl, t, b, arrive_nil, hnew, hempty⟩
  | cons q ps ih =>
    have hps' : ∀ q ∈ ps, q.Proper ∧ q ≠ .up := fun q hq => hps q (List.mem_cons_of_mem _ hq)
    obtain ⟨hq, hup⟩ := hps q List.mem_cons_self
    cases q with
    | up => exact absurd rfl hup
    | here =>
      simp only [Beyond, arrive_here]
      exact ih hl ht hnew hempty hps' h hs
    | name n =>
      rw [makeMissing] at h
      by_cases hlen : nameLimit < n.length
      · obtain ⟨e, he⟩ : ∃ e, fs'.arrive b t [.name n] = .error e := arrive_long hlen
        exact Or.inr ⟨e, by rw [arrive_cons, he]⟩
      · simp only [probe, if_neg hlen, hempty n] at h
        have hm := made_make hs ht hq (Nat.not_lt.1 hlen) (hempty n)
        have hs₁ := hm.leads.sound hs
        have hnew₁ : fs₀.face? (fs.nextId t.here) = none := by
          cases hface : fs₀.face? (fs.nextId t.here) with
          | none => rfl
          | some f =>
            obtain ⟨f', hf'⟩ := hl.exists_face? hs₀ ⟨f, hface⟩
            rw [hs.fresh] at hf'
            cases hf'
        have hway := hm.way hs (Nat.not_lt.1 hlen) (fun q hq => (hps' q hq).1) h
        simp only [Beyond, arrive_cons fs' b t (.name n) ps, hway]
        exact ih (hl.trans hm.leads) hm.stands hnew₁ hm.empty hps' h hs₁

/-- **Nothing is made, or the way ends in a new directory**, or it leads nowhere. -/
theorem makeMissing_cases (hs : fs.Sound) (ht : t.Stands fs) (hps : ∀ q ∈ ps, q.Proper ∧ q ≠ .up)
    {r : Except Errno Unit} (h : fs.makeMissing b t ps = (r, fs')) :
    (r = .ok () ∧ fs' = fs) ∨ (r = .ok () ∧ Beyond fs fs' b t ps) ∨
      ∃ e, fs'.arrive b t ps = .error e := by
  induction ps generalizing b t with
  | nil =>
    cases h
    exact Or.inl ⟨rfl, rfl⟩
  | cons q ps ih =>
    have hps' : ∀ q ∈ ps, q.Proper ∧ q ≠ .up := fun q hq => hps q (List.mem_cons_of_mem _ hq)
    obtain ⟨hq, hup⟩ := hps q List.mem_cons_self
    cases q with
    | up => exact absurd rfl hup
    | here =>
      simp only [Beyond, arrive_here]
      exact ih ht hps' h
    | name n =>
      have hlater : Leads Change.AddsDirectory fs (fs.makeMissing b t (.name n :: ps)).2 :=
        makeMissing_leads hs ht fun q hq => (hps q hq).1
      rw [h] at hlater
      rw [makeMissing] at h
      by_cases hlen : nameLimit < n.length
      · obtain ⟨e, he⟩ : ∃ e, fs'.arrive b t [.name n] = .error e := arrive_long hlen
        exact Or.inr (Or.inr ⟨e, by rw [arrive_cons, he]⟩)
      cases hlk : fs.lookup t.here n with
      | none =>
        -- the first name that is missing: below it everything is new
        simp only [probe, if_neg hlen, hlk] at h
        have hm := made_make hs ht hq (Nat.not_lt.1 hlen) hlk
        have hway := hm.way hs (Nat.not_lt.1 hlen) (fun q hq => (hps' q hq).1) h
        simp only [Beyond, arrive_cons fs' b t (.name n) ps, hway]
        exact Or.inr (makeMissing_fresh hs hm.leads hm.stands (hs.fresh _) hm.empty hps' h)
      | some i =>
        simp only [probe, if_neg hlen, hlk] at h
        -- what is there is entered, as a walk enters it
        rw [enter_eq] at h
        cases ha : fs.arrive b t [.name n] with
        | error e =>
          rw [ha] at h
          cases h
          exact Or.inr (Or.inr ⟨e, by rw [arrive_cons, ha]⟩)
        | ok r₁ =>
          obtain ⟨t₁, m₁⟩ := r₁
          rw [ha] at h
          have ht₁ := arrive_stands hs ht (by simpa [Part.Proper] using hq) ha
          have hway : fs'.arrive b t [.name n] = .ok (t₁, m₁) :=
            arrive_roads (roads_leads (hlater.mono fun _ hc => hc.adds.gentle) hs) ha
          simp only [Beyond, arrive_cons fs' b t (.name n) ps, hway]
          exact ih ht₁ hps' h

/-- The parts of a path above its last one come first on its way. -/
theorem arrive_above (fs : FileSystem) (p : Path) :
    (p.above = [] ∧ fs.arrive b t p.parts = .ok (t, b)) ∨
      ∃ q ∈ p.parts, q ≠ .here ∧ fs.arrive b t p.parts =
        match fs.arrive b t p.above with
        | .error e => .error e
        | .ok (t', m) => fs.arrive m t' [q] := by
  rw [← arrive_filter, Path.above]
  generalize hf : (p.parts.filter fun q => decide (q ≠ .here)) = l
  rcases List.eq_nil_or_concat l with rfl | ⟨ps, q, rfl⟩
  · exact Or.inl ⟨rfl, arrive_nil⟩
  · rw [List.concat_eq_append] at hf ⊢
    have hq : q ∈ p.parts.filter fun q => decide (q ≠ .here) := by
      rw [hf]
      exact List.mem_append_right _ List.mem_cons_self
    refine Or.inr ⟨q, (List.mem_filter.1 hq).1, by simpa using (List.mem_filter.1 hq).2, ?_⟩
    rw [List.dropLast_concat]
    cases ha : fs.arrive b t ps with
    | error e => rw [arrive, walkFrom_of_arrive_error ha (by simp)]
    | ok r => exact arrive_append ha

/-- When a path leads somewhere after the directories above its end were made, and that is nowhere
new, nothing was made. -/
theorem makeMissing_same (hs : fs.Sound) {p : Path} (hup : Part.up ∉ p.parts)
    (hp : ∀ q ∈ p.parts, q.Proper) {r : Except Errno Unit}
    (h : fs.makeMissing b [] p.above = (r, fs')) (hway : fs'.arrive b [] p.parts = .ok (t, m)) :
    r = .ok () ∧ fs' = fs := by
  have hps : ∀ q ∈ p.above, q.Proper ∧ q ≠ .up := by
    intro q hq
    refine ⟨above_proper hp q hq, ?_⟩
    rintro rfl
    exact hup (List.mem_filter.1 (List.dropLast_subset _ hq)).1
  obtain hsame | ⟨-, t₁, m₁, ha, hnew, hempty⟩ | ⟨e, he⟩ :=
    makeMissing_cases hs (Trail.Stands.nil fs) hps h
  · exact hsame
  · obtain ⟨hnil, -⟩ | ⟨q, hq, hhere, hlast⟩ := fs'.arrive_above (b := b) (t := []) p
    · rw [hnil, arrive_nil] at ha
      cases ha
      have hroot : fs.face? root = none := hnew
      rw [hs.root] at hroot
      cases hroot
    · -- the last name is looked for in a directory that binds none
      cases q with
      | here => exact absurd rfl hhere
      | up => exact absurd hq hup
      | name n =>
        obtain ⟨e, he⟩ := arrive_free (b := m₁) (hempty n)
        simp only [ha, he, hway] at hlast
        cases hlast
  · obtain ⟨hnil, -⟩ | ⟨q, -, -, hlast⟩ := fs'.arrive_above (b := b) (t := []) p
    · rw [hnil, arrive_nil] at he
      cases he
    · rw [he, hway] at hlast
      cases hlast

/-- A directory that is made is a new one, where its path leads then. -/
theorem makeDirectory_fresh (hs : fs.Sound) (h : fs.makeDirectory (Path.ofText path) = .ok fs') :
    ∃ t m, fs'.Arrives path t m ∧ (Path.ofText path).isEmpty = false ∧ fs.face? t.here = none := by
  unfold makeDirectory at h
  split at h
  · cases h
  · cases h
  · cases h
  rename_i t n tr hw
  cases h
  obtain ⟨hst, hn, hlk⟩ := walk_sound hs hw
  obtain ⟨hlen, hl⟩ := hlk (by decide)
  have hm := made_make hs hst hn hlen hl.symm
  unfold walk at hw
  split at hw
  · cases hw
  rename_i hz
  split at hw
  · cases hw
  rename_i hne
  rw [Bool.not_eq_true] at hz hne
  rcases List.eq_nil_or_concat (Path.ofText path).parts with hnil | ⟨ps, q, hconcat⟩
  · rw [hnil] at hw
    cases hw
  rw [List.concat_eq_append] at hconcat
  rw [hconcat] at hw
  cases ha : fs.arrive linkLimit [] ps with
  | error e =>
    rw [walkFrom_of_arrive_error ha (by simp)] at hw
    cases hw
  | ok r =>
    obtain ⟨t₁, m₁⟩ := r
    rw [walkFrom_of_arrive ha (by simp)] at hw
    -- the last part is the name that was free
    have hlast : q = .name n ∧ t₁ = t := by
      cases q with
      | up => simp [walkFrom, stride, Except.map] at hw
      | here => simp [walkFrom, stride, Except.map] at hw
      | name n' =>
        by_cases hlen' : n'.length ≤ nameLimit
        · rw [walkFrom_keep hlen'] at hw
          simp only [Except.map, Except.ok.injEq, Spot.entry.injEq] at hw
          exact ⟨by rw [hw.2.1], hw.1⟩
        · simp [walkFrom, stride, Nat.not_le.1 hlen', Except.map] at hw
    obtain ⟨rfl, rfl⟩ := hlast
    have hroads := roads_leads (hm.leads.mono fun _ hc => hc.adds.gentle) hs
    refine ⟨(n, fs.nextId t₁.here) :: t₁, m₁, ⟨hz, ?_⟩, hne, hs.fresh _⟩
    rw [hconcat, arrive_append (arrive_roads hroads ha)]
    exact arrive_name hlen hm.stands.1 hm.stands.2.1

/-- A path to a directory cannot be made another one. -/
theorem Arrives.makeDirectory (h : fs.Arrives path t m) (hne : (Path.ofText path).isEmpty = false) :
    fs.makeDirectory (Path.ofText path) = .error .exists := by
  obtain ⟨hz, hway⟩ := h
  unfold FileSystem.makeDirectory FileSystem.walk
  simp only [hz, hne, if_false, Bool.false_eq_true]
  rcases List.eq_nil_or_concat (Path.ofText path).parts with hnil | ⟨ps, q, hconcat⟩
  · rw [hnil, walkFrom_nil]
    rfl
  rw [List.concat_eq_append] at hconcat
  rw [hconcat] at hway ⊢
  cases ha : fs.arrive linkLimit [] ps with
  | error e =>
    rw [arrive, walkFrom_of_arrive_error ha (by simp)] at hway
    cases hway
  | ok r =>
    obtain ⟨t₁, m₁⟩ := r
    rw [arrive_append ha] at hway
    rw [walkFrom_of_arrive ha (by simp)]
    -- the last part names no entry, or one that is bound
    cases q with
    | here => simp [walkFrom, stride, Except.map]
    | up => simp [walkFrom, stride, Except.map]
    | name n =>
      by_cases hlen : n.length ≤ nameLimit
      · cases hl : fs.lookup t₁.here n with
        | none =>
          obtain ⟨e, he⟩ := arrive_free (b := m₁) hl
          rw [he] at hway
          cases hway
        | some i => rw [walkFrom_keep hlen, hl]; rfl
      · obtain ⟨e, he⟩ : ∃ e, fs.arrive m₁ t₁ [.name n] = .error e := arrive_long (Nat.not_le.1 hlen)
        rw [he] at hway
        cases hway

/-- **A path that leads to a directory makes nothing.** -/
theorem makeDirectories_there (h : fs.leadsToDirectory (Path.ofText path) = true) :
    fs.makeDirectories path = (.ok (), fs) := by
  have hmk : fs.makeDirectory (Path.ofText path) = .error .exists := by
    unfold leadsToDirectory at h
    split at h
    · cases h
    · rename_i i hf
      obtain ⟨hne, t, m, ha, -⟩ := arrives_of_find hf h
      exact ha.makeDirectory hne
  simp only [makeDirectories, hmk, forgiveDirectory, h, if_true]

/-- The path of directories that were made leads to one. -/
theorem makeDirectories_leadsToDirectory (hs : fs.Sound)
    (h : fs.makeDirectories path = (.ok (), fs')) : fs'.leadsToDirectory (Path.ofText path) = true := by
  have hmade : ∀ {fs₀ : FileSystem}, fs₀.Sound → fs₀.makeDirectory (Path.ofText path) = .ok fs' →
      fs'.leadsToDirectory (Path.ofText path) = true := by
    intro fs₀ hs₀ hmk
    obtain ⟨t, m, ha, hne, -⟩ := makeDirectory_fresh hs₀ hmk
    have hs' : fs'.Sound := (makeDirectory_leads hs₀ hmk).sound hs₀
    rw [leadsToDirectory, ha.find hne]
    exact (ha.stands hs').isDirectory hs'
  have hforgiven : ∀ {fs₀ : FileSystem} {e}, fs₀.forgiveDirectory (Path.ofText path) e = (.ok (), fs') →
      fs'.leadsToDirectory (Path.ofText path) = true := by
    intro fs₀ e hf
    unfold forgiveDirectory at hf
    split at hf
    · rename_i hd
      cases hf
      exact hd
    · cases hf
  unfold makeDirectories at h
  simp only at h
  split at h
  · rename_i hmk
    cases h
    exact hmade hs hmk
  · split at h
    · cases h
    · rename_i hmk _ fs₁ hmiss
      split at h
      · rename_i hmk'
        cases h
        have hlead := makeMissing_above_leads hs hmk
        rw [hmiss] at hlead
        exact hmade (hlead.sound hs) hmk'
      · exact hforgiven h
  · exact hforgiven h

/-- **A path without `..` that leads to what was there makes nothing.** -/
theorem makeDirectories_same (hs : fs.Sound) (hup : Part.up ∉ (Path.ofText path).parts)
    (hi : fs.isDirectory i = true)
    (h : (fs.makeDirectories path).2.find (Path.ofText path) = .ok i) :
    (fs.makeDirectories path).2 = fs := by
  obtain ⟨f, hf⟩ : ∃ f, fs.face? i = some f := ⟨_, isDirectory_iff.1 hi⟩
  have hadds : Leads Change.AddsDirectory fs (fs.makeDirectories path).2 := makeDirectories_leads hs
  have hi' := hadds.isDirectory hs hi
  obtain ⟨-, t, m, ha, rfl⟩ := arrives_of_find h hi'
  have hway := ha.way
  have hz : (Path.ofText path).holdsZero = false := ha.zero
  -- the way cannot end in what was not there
  have hold : ∀ {fs₀ : FileSystem} {t' : Trail} {m' : Nat}, Leads Change.AddsDirectory fs fs₀ →
      (fs.makeDirectories path).2.arrive linkLimit [] (Path.ofText path).parts = .ok (t', m') →
      fs₀.face? t'.here = none → False := by
    intro fs₀ t' m' hlead hway' hnew
    rw [hway] at hway'
    cases hway'
    obtain ⟨f', hf'⟩ := hlead.exists_face? hs ⟨f, hf⟩
    rw [hf'] at hnew
    cases hnew
  revert hway hold
  unfold makeDirectories
  simp only
  split
  · rename_i fs₁ hmk
    intro _ hold
    obtain ⟨t', m', harr, -, hnew⟩ := makeDirectory_fresh hs hmk
    exact absurd hnew fun hnew => hold .refl harr.way hnew
  · have hp := Path.ofText_proper hz
    have hlead := makeMissing_leads (b := linkLimit) hs (Trail.Stands.nil fs) (above_proper hp)
    split
    · rename_i err fs₁ hm
      intro hway _
      exact (makeMissing_same hs hup hp hm hway).2
    · rename_i fs₁ hm
      rw [hm] at hlead
      split
      · rename_i fs₂ hmk
        intro _ hold
        obtain ⟨t', m', harr, -, hnew⟩ := makeDirectory_fresh (hlead.sound hs) hmk
        exact absurd hnew fun hnew => hold hlead harr.way hnew
      · rw [forgiveDirectory_snd]
        intro hway _
        exact (makeMissing_same hs hup hp hm hway).2
  · intro _ _
    exact forgiveDirectory_snd _ _

end FileSystem

end EngineDir
