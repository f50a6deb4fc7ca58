import Mathlib.Data.List.Induction
import EngineDir.Proofs.Apart
import EngineDir.Proofs.FailedOpen
import EngineDir.Proofs.Fences

/-!
# Spellings

A directory has many spellings: paths with `.` and `..` in them, and through links. A store is bound
to the directory that its spelling led to when it was opened, under the one path that has none of
these. What becomes of the links on the way is of no matter to it afterwards.

* `FileSystem.SpelledOut`: the path of a directory through names of directories alone.
* `Store.open?_granted`: **an open that is granted enters the directory that its spelling leads
  to.**
* `World.estateOf`: what belongs to a store. `InStep.asked`: what happens to it is asked of the
  store.
* `World.AtHome`: the lock, the log and the open files are entries of the directory.
  `World.AtHome.asked`: **what is asked of the store keeps them there.**
* `World.Minding`: a run in which others do something elsewhere. `InStep.minding`: **without them
  the store would have answered the same.**
* `World.run_boundTo`: **a store is bound to its directory, not to a spelling.**
-/

namespace EngineDir

open FileSystem

variable {fs fs' g : FileSystem} {t : Trail} {o : Options} {st : Store} {i : NodeId} {n dir : Bytes}
  {S : NodeId → Prop}

/-! ## The path of a directory -/

/-- The text is the path of the directory of the trail `t` that goes down the trail. Its parts are
names, neither `.` nor `..`, and each is bound to a directory, none to a link. -/
structure FileSystem.SpelledOut (fs : FileSystem) (dir : Bytes) (t : Trail) : Prop where
  absolute : (Path.ofText dir).absolute = true
  parts : (Path.ofText dir).parts = (t.map Prod.fst).reverse.map .name
  stands : t.Stands fs
  leads : fs.find (Path.ofText dir) = .ok t.here

theorem Trail.Stands.spelledOut (hs : fs.Sound) (ht : t.Stands fs) : fs.SpelledOut t.path t := by
  have hproper : ∀ n ∈ (t.map Prod.fst).reverse, Proper n := fun n hn =>
    ht.proper hs n (List.mem_reverse.1 hn)
  obtain ⟨habs, hparts⟩ := ofText_absoluteText hproper
  exact ⟨habs, hparts, ht, ht.find hs⟩

/-! ## Opening by any spelling -/

/-- An entry that is no link was none, if it was not moved. -/
theorem NoLink.back {Q : Change → Prop} (hn : NoLink fs' i n) (h : Leads Q fs fs') (hs : fs.Sound)
    (hQ : ∀ c, Q c → c.Spares n) : NoLink fs i n := by
  intro j b hj hb
  rcases h.face? hs hb with hb' | ⟨_, _, he, -⟩
  · exact hn j b (h.lookup hs hQ hj) hb'
  · cases he

namespace Store

/-- What becomes of the names when a directory is entered: the lock takes none away, then the log
may be moved, and the new log takes none away. -/
theorem enter_stages (hs : fs.Sound) (ht : t.Stands fs) (h : enter fs o t.path = (.ok st, fs')) :
    ∃ fs₁ fs₂, Leads (fun c => ∀ n, c.Spares n) fs fs₁ ∧ t.Stands fs₁ ∧
      (fs₂ = fs₁ ∨ ∃ k, (SessionLog.move t.here k).Fits fs₁ ∧
        fs₂ = (SessionLog.move t.here k).apply fs₁) ∧ Leads Change.Gentle fs₂ fs' := by
  unfold enter at h
  split at h
  · cases h
  rename_i l fs₁ ha
  split at h
  · cases h
  rename_i log fs₃ hst
  cases h
  rcases DirLock.acquire_cases hs ha with ⟨e, he, -⟩ | ⟨l', fs₀, -, -, hopen, -, hfit, hfs⟩
  · cases he
  have hlock : Leads (fun c => ∀ n, c.Spares n) fs fs₁ := by
    rw [hfs]
    exact ((openForWriting_leads hs hopen).mono fun c hc => hc.spares).step hfit fun _ => trivial
  have hs₁ := hlock.sound hs
  have ht₁ : t.Stands fs₁ := ht.of_way hlock hs fun i n j _ hl =>
    hlock.lookup hs (fun _ hc => hc n) hl
  -- the log is moved if that is wanted, and if it can be
  have hrot : ∃ fs₂, (fs₂ = fs₁ ∨ ∃ k, (SessionLog.move t.here k).Fits fs₁ ∧
      fs₂ = (SessionLog.move t.here k).apply fs₁) ∧
      fs₂ = if o.rotateLog then SessionLog.rotated fs₁ t.path else fs₁ := by
    split
    · exact ⟨_, SessionLog.rotated_cases hs₁ ht₁, rfl⟩
    · exact ⟨fs₁, Or.inl rfl, rfl⟩
  obtain ⟨fs₂, hmoved, hfs₂⟩ := hrot
  refine ⟨fs₁, fs₂, hlock, ht₁, hmoved, ?_⟩
  have hs₂ : fs₂.Sound := by
    rcases hmoved with rfl | ⟨k, hk, rfl⟩
    · exact hs₁
    · exact Change.sound hk hs₁
  unfold SessionLog.start at hst
  simp only [← hfs₂] at hst
  split at hst
  · cases hst
  rename_i ho
  cases hst
  exact openForWriting_leads hs₂ ho

/-- The directory is where it was. -/
theorem enter_stands (hs : fs.Sound) (ht : t.Stands fs) (h : enter fs o t.path = (.ok st, fs')) :
    t.Stands fs' := by
  obtain ⟨fs₁, fs₂, hlock, ht₁, hmoved, hgentle⟩ := enter_stages hs ht h
  have hs₁ := hlock.sound hs
  rcases hmoved with rfl | ⟨k, hk, rfl⟩
  · exact stands_leads hgentle hs₁ ht₁
  · have hw : Works t.here (fun _ => True) _ ⟨⟨0, 0⟩, 0⟩ fs₁ none [] _ none :=
      SessionLog.move_works _ hk
    exact stands_leads hgentle (hw.sound hs₁) (hw.stands hs₁ ht₁)

/-- The lock and the log of a store are no links, if there is no link in the directory then: a log
that is moved out of the way would leave one behind. -/
theorem enter_noLink (hs : fs.Sound) (ht : t.Stands fs) (h : enter fs o t.path = (.ok st, fs'))
    (hn : ∀ n, NoLink fs' t.here n) :
    NoLink fs t.here DirLock.entry ∧ NoLink fs t.here SessionLog.entry := by
  refine ⟨(hn _).back (enter_cases hs h).1 hs fun _ hc => hc, ?_⟩
  obtain ⟨fs₁, fs₂, hlock, ht₁, hmoved, hgentle⟩ := enter_stages hs ht h
  have hs₁ := hlock.sound hs
  suffices hlog : NoLink fs₁ t.here SessionLog.entry from hlog.back hlock hs fun _ hc => hc _
  rcases hmoved with rfl | ⟨k, hk, rfl⟩
  · exact (hn _).back hgentle hs₁ fun _ hc => hc.spares _
  · intro j b hj hb
    rw [hk.1] at hj
    cases hj
    have hold : NoLink ((SessionLog.move t.here k).apply fs₁) t.here SessionLog.oldEntry :=
      (hn _).back hgentle (Change.sound hk hs₁) fun _ hc => hc.spares _
    refine hold k b ?_ ?_
    · simp [Change.apply, lookup_bind, ht₁.isDirectory hs₁]
    · simpa [Change.apply] using hb

/-- **An open that is granted enters the directory that its spelling leads to.** -/
theorem open?_granted (hs : fs.Sound) (h : open? fs o = (.ok st, fs')) :
    ∃ t : Trail, t.Stands (prepare fs o).2 ∧
      (prepare fs o).2.find (Path.ofText o.dir) = .ok t.here ∧
      enter (prepare fs o).2 o t.path = (.ok st, fs') := by
  have hok : (prepare fs o).1 = .ok () := by
    unfold open? at h
    split at h
    · cases h
    cases hp : prepare fs o with
    | mk r fs₁ =>
      rw [hp] at h
      cases r with
      | error e => cases h
      | ok u => rfl
  have hs₁ := (prepare_leads (o := o) hs).sound hs
  obtain ⟨t, ht, hf⟩ := trail_of_leadsToDirectory hs₁
    (prepare_leadsToDirectory hs (Prod.ext hok rfl : prepare fs o = (.ok (), (prepare fs o).2)))
  refine ⟨t, ht, hf, ?_⟩
  rcases open?_enter hs ht hf with ⟨e, he⟩ | he
  · rw [he] at h
    cases h
  · exact he.symm.trans h

/-- A spelling that led to a directory before leads there still. -/
theorem prepare_find (hf : fs.find (Path.ofText o.dir) = .ok i) (hd : fs.isDirectory i = true)
    (h : (prepare fs o).2.find (Path.ofText o.dir) = .ok t.here) : i = t.here := by
  have hthere : fs.leadsToDirectory (Path.ofText o.dir) = true := by
    rw [leadsToDirectory, hf]
    exact hd
  rw [prepare_there hthere, hf] at h
  exact Except.ok.inj h

end Store

/-! ## What belongs to a store -/

section Estates

variable {α : Type} {own : Nat → Prop} {Mine Other : α → Prop} {T : Table Nat α} {E : Estate}
  {w w' w₀ : World} {s : Nat} {now : Clock.Reading} {e : Event}

/-- A table beside itself. -/
theorem TablesAlike.alone (hmine : ∀ k a, own k → T.get? k = some a → Mine a)
    (hother : ∀ k a, ¬own k → T.get? k = some a → Other a) : TablesAlike own Mine Other T T T T :=
  ⟨fun _ _ => rfl, hmine, hother, hother, fun _ _ => rfl, fun _ _ => rfl⟩

/-- What belongs to the store `s` of the directory of the trail `t`, besides the directory: every
number that is not that of a handle or a turn of another store. -/
def World.estateOf (w : World) (s : Nat) (t : Trail) : Estate where
  trail := t
  stores k := k = s
  handles k := ∀ x, w.handles.get? k = some x → x.store = s
  turns k := ∀ x, w.turns.get? k = some x → x.store = s
  locks _ := False
  logs _ := False

/-- A store in a plot, none of whose handles are open. -/
theorem InStep.alone (hp : Plot S t w.fs) (hst : w.stores.get? s = some st) (hon : st.On S t)
    (hx : ∀ k x f, w.handles.get? k = some ⟨s, x⟩ → x.file ≠ some f) :
    InStep (w.estateOf s t) S w w where
  files := .refl (.refl hp)
  stores := by
    refine .alone ?_ fun _ _ _ _ => trivial
    rintro k st' rfl hst'
    rw [Option.some.inj (hst'.symm.trans hst)]
    exact hon
  handles := by
    refine .alone (fun k x hk hget => ⟨hk x hget, fun f hf => ?_⟩) ?_
    · obtain rfl : x.store = s := hk x hget
      exact absurd hf (hx k x.value f hget)
    · intro k x hk hget hs
      exact hk fun y hy => Option.some.inj (hget.symm.trans hy) ▸ hs
  turns := by
    refine .alone (fun k x hk hget => hk x hget) ?_
    intro k x hk hget hs
    exact hk fun y hy => Option.some.inj (hget.symm.trans hy) ▸ hs
  locks := .alone (fun _ _ hk => absurd hk id) fun _ _ _ _ => trivial
  logs := .alone (fun _ _ hk => absurd hk id) fun _ _ _ _ => trivial

/-- **What happens to a store is asked of it**, or nothing happens. -/
theorem InStep.asked (h : InStep (w₀.estateOf s t) S w w') (hst : w.stores.get? s = some st)
    (he : e.Of (w₀.estateOf s t)) : w.addressee? e = some s ∨ (World.step now w e).world = w := by
  cases e with
  | outside o => exact absurd he id
  | openStore k o =>
    obtain rfl : k = s := he.1
    have hc : w.stores.contains k = true := by simp [Table.contains, hst]
    simp only [World.step, hc, if_true]
    exact Or.inr rfl
  | store k r =>
    obtain rfl : k = s := he.1
    exact Or.inl rfl
  | handle k r =>
    cases hk : w.handles.get? k with
    | none =>
      simp only [World.step, hk]
      exact Or.inr rfl
    | some x =>
      have hs : x.store = s := (h.handles.mine k x he hk).1
      exact Or.inl (by simpa [World.addressee?, hk] using hs)
  | endTurn k =>
    cases hk : w.turns.get? k with
    | none =>
      simp only [World.step, hk]
      exact Or.inr rfl
    | some x =>
      have hs : x.store = s := h.turns.mine k x he hk
      exact Or.inl (by simpa [World.addressee?, hk] using hs)
  | acquire k d => exact absurd he.1 id
  | release k => exact absurd he id
  | openLog k d rotate => exact absurd he.1 id
  | writeLog k text => exact absurd he id
  | closeLog k => exact absurd he id
  | abandonLog k => exact absurd he id
  | readManifest d => exact Or.inr rfl

end Estates

/-! ## Entries of the directory -/

namespace World

variable {w : World} {s k : Nat} {now : Clock.Reading} {e : Event} {x : Handle} {f : OpenFile}

/-- The store `s` is one of the directory of the trail `t`, and what it has there are entries of the
directory: its lock, its log and its open files. -/
structure AtHome (t : Trail) (s : Nat) (w : World) : Prop where
  dir : ∃ st, w.stores.get? s = some st ∧ st.dir = t.path
  lock : ∀ st l, w.stores.get? s = some st → st.lock = some l →
    w.fs.lookup t.here DirLock.entry = some l.node
  log : ∀ st l, w.stores.get? s = some st → st.log = some l →
    w.fs.lookup t.here SessionLog.entry = some l.file.node
  handle : ∀ k x f, w.handles.get? k = some ⟨s, x⟩ → x.file = some f →
    ∃ n, x.id.Named n ∧ w.fs.lookup t.here n = some f.node

/-- A store does not touch the name of a file that is open. -/
theorem AtHome.untouched (h : AtHome t s w) (hs : w.fs.Sound) (ht : t.Stands w.fs) (hu : InUse w)
    (he : w.addressee? e = some s) (hx : w.handles.get? k = some ⟨s, x⟩) (hf : x.file = some f)
    (hn : x.id.Named n) : ¬e.Binds (step now w e).answer n := by
  obtain ⟨st, hst, hd⟩ := h.dir
  obtain ⟨-, -, hopen⟩ := hu.lock hx hf hst
  intro hN
  rcases binds_cases he hN with ⟨_, id, v, rfl, ha, hid⟩ | ⟨id, v, rfl, ha, hid⟩ |
    ⟨id, -, hstaged | ⟨hpointer, -⟩⟩
  · obtain ⟨-, y, hy⟩ := created_of_answer hst ha
    obtain ⟨cs, i, hacc, -⟩ := Store.createFile_ok hy
    rw [hid.unique hn] at hacc
    exact (Store.access_ok hacc).2.2 hopen
  · obtain ⟨hiff, -⟩ := Store.removeFile_iff now id hs ht hd
    obtain ⟨cs, i, -, hfree, -⟩ := hiff.1 (removed_of_answer hst ha).1
    rw [hid.unique hn] at hfree
    exact hfree hopen
  · exact hn.not_control (hstaged ▸ control_staging _)
  · exact hn.not_control (hpointer ▸ control_current)

/-- **What is asked of the store keeps everything in the directory**, and touches no name of
another. -/
theorem AtHome.asked (h : AtHome t s w) (hp : Plot S t w.fs) (hu : InUse w)
    (he : w.addressee? e = some s) : AtHome t s (step now w e).world ∧
      ∀ i n, i ≠ t.here → (step now w e).world.fs.lookup i n = w.fs.lookup i n := by
  have hs := hp.sound
  have htidy := tidy_of_noLink hp.noLink
  obtain ⟨st, hst, hd⟩ := h.dir
  obtain ⟨st', hst', log', hw, -⟩ := step_does now hs hp.stands htidy he hst hd
  have hlook : ∀ {m}, ¬e.Binds (step now w e).answer m →
      (step now w e).world.fs.lookup t.here m = w.fs.lookup t.here m := fun hm =>
    hw.lookup hs (Or.inr hm)
  refine ⟨⟨⟨st', hst', (step_dir hst hst').trans hd⟩, ?_, ?_, ?_⟩, fun i n hi =>
    hw.lookup hs (Or.inl hi)⟩
  · intro st₁ l hst₁ hl
    obtain ⟨st₀, hst₀, hb⟩ := asked_stores he hst₁
    rw [hlook (not_binds he .lock rfl)]
    exact h.lock st₀ l hst₀ (hb.lock_eq hl)
  · intro st₁ l hst₁ hl
    obtain ⟨st₀, hst₀, hb⟩ := asked_stores he hst₁
    obtain ⟨l₀, hl₀, hnode⟩ := hb.log_later l hl
    rw [hlook (not_binds he .log rfl), hnode]
    exact h.log st₀ l₀ hst₀ hl₀
  · intro k x' f' hx' hf'
    rcases step_open hs hp.stands htidy hst hd hx' hf' with
      ⟨x, f, hx, hf, hnode, hid, -⟩ | ⟨-, hnew⟩
    · obtain ⟨n, hn, hl⟩ := h.handle k x f hx hf
      refine ⟨n, by rw [hid]; exact hn, ?_⟩
      rw [hlook (h.untouched hs hp.stands hu he hx hf hn), hl, hnode]
    · exact hnew.lookup

/-- What is done elsewhere leaves everything in the directory. -/
theorem AtHome.spared (h : AtHome t s w) (hg : Spared S t w.fs g) (hS : S t.here) :
    AtHome t s { w with fs := g } := by
  have hlook : ∀ n, g.lookup t.here n = w.fs.lookup t.here n := lookup_of_node? (hg.node? hS)
  refine ⟨h.dir, ?_, ?_, ?_⟩
  · intro st l hst hl
    exact (hlook _).trans (h.lock st l hst hl)
  · intro st l hst hl
    exact (hlook _).trans (h.log st l hst hl)
  · intro k x f hx hf
    obtain ⟨n, hn, hl⟩ := h.handle k x f hx hf
    exact ⟨n, hn, (hlook n).trans hl⟩

/-! ## Runs -/

variable {E : Estate} {w₀ w' : World} {acts : List Act} {a : Act}

theorem acted_concat (w : World) (pre : List Act) (a : Act) :
    w.acted (pre ++ [a]) = (step a.now (w.acted pre) a.event).world := by
  rw [acted, List.map_append, List.map_cons, List.map_nil, run_concat]
  rfl

/-- In the run `acts` from `w` on, whoever owns the estate works with it, and others do something
elsewhere, where they write to nothing in `S`. -/
def Minding (S : NodeId → Prop) (E : Estate) (w : World) (acts : List Act) : Prop :=
  ∀ pre a, pre ++ [a] <+: acts →
    if a.ours then a.event.Of E
    else ∃ o, a.event = .outside o ∧ o.Elsewhere S E.trail (w.acted pre).fs

theorem Minding.before {pre : List Act} (h : Minding S E w acts) (hpre : pre <+: acts) :
    Minding S E w pre := fun pre' a ha => h pre' a (ha.trans hpre)

theorem Minding.tail (h : Minding S E w (a :: acts)) :
    Minding S E (step a.now w a.event).world acts := fun pre b hb =>
  h (a :: pre) b ((List.prefix_cons_inj a).2 hb)

/-- What is done first. -/
theorem Minding.head (h : Minding S E w (a :: acts)) : if a.ours then a.event.Of E
    else ∃ o, a.event = .outside o ∧ o.Elsewhere S E.trail w.fs :=
  h [] a (List.prefix_append [a] acts)

/-- What is done last. -/
theorem Minding.last (h : Minding S E w (acts ++ [a])) : if a.ours then a.event.Of E
    else ∃ o, a.event = .outside o ∧ o.Elsewhere S E.trail (w.acted acts).fs :=
  h acts a (List.prefix_refl _)

end World

namespace InStep

open World

variable {E : Estate} {w w' w₀ : World} {s : Nat} {now : Clock.Reading} {e : Event}
  {acts : List Act}

/-- **What others do elsewhere makes no difference.** -/
theorem spared (h : InStep E S w w') (hg : Spared S E.trail w.fs g) :
    InStep E S { w with fs := g } w' := by
  have htw := h.files.twins
  have hagree : Agree S g w'.fs := htw.agree.confined hg.confined fun _ => not_not_intro
  exact { h with files := .refl ⟨hg.plot, htw.right, hagree⟩ }

/-- **Without the others all would be the same.** -/
theorem minding (h : InStep E S w w') (hf : Fenced S E.trail.here w.fs) (hm : Minding S E w acts) :
    w'.heard (acts.filter Act.ours) = w.heard acts ∧
      InStep E S (w.acted acts) (w'.acted (acts.filter Act.ours)) ∧
      Fenced S E.trail.here (w.acted acts).fs := by
  induction acts generalizing w w' with
  | nil => exact ⟨rfl, h, hf⟩
  | cons a acts ih =>
    have hp := h.files.twins.left
    have hev := hm.head
    cases hours : a.ours with
    | true =>
      rw [hours, if_pos rfl] at hev
      have hr : ReactionsAlike E S w w' (World.step a.now w a.event)
          (World.step a.now w' a.event) := h.step hev
      have hf' := hf.confined hr.worlds.files.left (step_leads hp.sound a.now a.event) hp.sound
      obtain ⟨hheard, hrest⟩ := ih hr.worlds.refl hf' hm.tail
      rw [List.filter_cons_of_pos hours]
      refine ⟨?_, hrest⟩
      simp only [heard, hours, if_true, hr.answer, hr.notes, hheard]
    | false =>
      rw [hours, if_neg Bool.false_ne_true] at hev
      obtain ⟨o, ho, helse⟩ := hev
      have hsp := helse.spared hp hf
      have hw : (World.step a.now w a.event).world = { w with fs := (actOutside w.fs o).2 } := by
        rw [ho]
        rfl
      obtain ⟨hheard, hrest⟩ := ih (by rw [hw]; exact h.spared hsp) (by rw [hw]; exact hsp.fenced)
        hm.tail
      rw [List.filter_cons_of_neg (by simp [hours])]
      refine ⟨?_, hrest⟩
      simp only [heard, hours, Bool.false_eq_true, if_false, hheard]

/-- What is done with the store keeps everything in the directory. -/
theorem step_atHome (h : InStep (w₀.estateOf s t) S w w') (ha : AtHome t s w) (hu : InUse w)
    (he : e.Of (w₀.estateOf s t)) : AtHome t s (World.step now w e).world ∧
      ∀ i n, i ≠ t.here → (World.step now w e).world.fs.lookup i n = w.fs.lookup i n := by
  obtain ⟨st, hst, -⟩ := ha.dir
  rcases h.asked hst he with hasked | hsame
  · exact ha.asked h.files.twins.left hu hasked
  · rw [hsame]
    exact ⟨ha, fun _ _ _ => rfl⟩

/-- **Everything stays in the directory**, whatever others do elsewhere. -/
theorem atHome (h : InStep (w₀.estateOf s t) S w w) (hf : Fenced S t.here w.fs) (ha : AtHome t s w)
    (hm : Minding S (w₀.estateOf s t) w acts) (hu : ∀ pre, pre <+: acts → InUse (w.acted pre)) :
    AtHome t s (w.acted acts) := by
  -- from the end, since what others may do depends on what was done before
  induction acts using List.reverseRecOn with
  | nil => exact ha
  | append_singleton acts a ih =>
    have hpre : acts <+: acts ++ [a] := List.prefix_append _ _
    have hhome := ih (hm.before hpre) fun pre hp => hu pre (hp.trans hpre)
    obtain ⟨-, hpair, hf'⟩ := h.minding hf (hm.before hpre)
    have hev := hm.last
    rw [acted_concat]
    cases hours : a.ours with
    | true =>
      rw [hours, if_pos rfl] at hev
      exact (hpair.step_atHome hhome (hu _ hpre) hev).1
    | false =>
      rw [hours, if_neg Bool.false_ne_true] at hev
      obtain ⟨o, ho, helse⟩ := hev
      have hp : Plot S t (w.acted acts).fs := hpair.files.twins.left
      rw [ho]
      exact hhome.spared (helse.spared hp hf') hp.here

end InStep

/-! ## A store and its spelling -/

namespace World

variable {w : World} {s : Nat} {now : Clock.Reading} {es : List (Clock.Reading × Event)}

/-- What the world is after the store `s` was opened. -/
structure Opened (w w' : World) (s : Nat) (o : Options) (st : Store) : Prop where
  free : w.stores.get? s = none
  granted : Store.open? w.fs o = (.ok st, w'.fs)
  store : w'.stores.get? s = some st
  handles : w'.handles = w.handles

theorem step_opened (ha : (step now w (.openStore s o)).answer = .ok .done) :
    ∃ st, Opened w (step now w (.openStore s o)).world s o st := by
  simp only [step] at ha ⊢
  split at ha
  · cases ha
  rename_i hc
  rw [if_neg hc]
  unfold stepOpen at ha ⊢
  cases ho : Store.open? w.fs o with
  | mk r fs₁ =>
    rw [ho] at ha
    cases r with
    | error e => cases ha
    | ok st => exact ⟨st, not_contains hc, ho, Table.get?_insert_self _ _ _, rfl⟩

/-- What comes of a run `acts` in which somebody works with the store `s` of the directory of the
trail `t`, and others do something elsewhere. -/
structure Steadfast (t : Trail) (s : Nat) (w : World) (acts : List Act) : Prop where
  /-- Whoever works with the store, its handles and its turns is answered and told what they would
  be without the others. -/
  heard : w.heard acts = w.heard (acts.filter Act.ours)
  /-- The directory is where it would be, and holds what it would. -/
  same : SameAt (w.estateOf s t) (w.acted acts) (w.acted (acts.filter Act.ours))
  /-- What is done with the store changes nothing but what the directory held or what is made in it.
  -/
  confined : ∀ pre a, pre ++ [a] <+: acts → a.ours = true →
    Confined (t.plot w.fs) (w.acted pre).fs (w.acted (pre ++ [a])).fs
  /-- Every name that is bound or unbound is one of the directory. -/
  named : ∀ pre a, pre ++ [a] <+: acts → a.ours = true → ∀ i n, i ≠ t.here →
    (w.acted (pre ++ [a])).fs.lookup i n = (w.acted pre).fs.lookup i n
  home : ∀ pre, pre <+: acts → AtHome t s (w.acted pre)

/-- A store at home in a plot stays there, and its work does not depend on what others do
elsewhere. -/
theorem AtHome.steadfast {acts : List Act} (ha : AtHome t s w) (hs : w.fs.Sound)
    (ht : t.Stands w.fs) (h : InStep (w.estateOf s t) (t.plot w.fs) w w)
    (hu : ∀ pre, pre <+: acts → InUse (w.acted pre))
    (hm : Minding (t.plot w.fs) (w.estateOf s t) w acts) : Steadfast t s w acts := by
  have hf : Fenced (t.plot w.fs) t.here w.fs := ht.fenced hs
  have hpair : ∀ pre, pre <+: acts → InStep (w.estateOf s t) (t.plot w.fs) (w.acted pre)
      (w.acted (pre.filter Act.ours)) := fun pre hpre => (h.minding hf (hm.before hpre)).2.1
  have hhome : ∀ pre, pre <+: acts → AtHome t s (w.acted pre) := fun pre hpre =>
    h.atHome hf ha (hm.before hpre) fun p hp => hu p (hp.trans hpre)
  have hown : ∀ pre a, pre ++ [a] <+: acts → a.ours = true → a.event.Of (w.estateOf s t) := by
    intro pre a hpre hours
    have hev := hm pre a hpre
    rwa [if_pos hours] at hev
  refine ⟨(h.minding hf hm).1.symm, (hpair acts (List.prefix_refl _)).sameAt, ?_, ?_, hhome⟩
  · intro pre a hpre hours
    have hp := hpair pre ((List.prefix_append _ _).trans hpre)
    rw [acted_concat]
    have hr : ReactionsAlike _ _ _ _ (step a.now (w.acted pre) a.event) _ :=
      hp.step (hown pre a hpre hours)
    exact hr.worlds.files.left
  · intro pre a hpre hours
    have hpre' := (List.prefix_append _ _).trans hpre
    rw [acted_concat]
    exact ((hpair pre hpre').step_atHome (hhome pre hpre') (hu pre hpre')
      (hown pre a hpre hours)).2

/-- A store that was just opened has no open files. -/
theorem Opened.unopened {w' : World} (h : Opened w w' s o st) (hu : InUse w) {k : Nat} {x : Handle}
    {f : OpenFile} (hx : w'.handles.get? k = some ⟨s, x⟩) : x.file ≠ some f := by
  intro hf
  rw [h.handles] at hx
  obtain ⟨st', hst'⟩ := hu.store hx hf
  rw [h.free] at hst'
  cases hst'

/-- A store that was just opened is at home. -/
theorem Opened.atHome {w' : World} (h : Opened w w' s o st) (hu : InUse w) {fs₁ : FileSystem}
    (he : Store.Entered t fs₁ w'.fs st) : AtHome t s w' := by
  obtain ⟨sync, log, l, rfl⟩ := he.fresh
  have hst : ∀ {st'}, w'.stores.get? s = some st' → st' = .fresh t.path sync log l := fun hst' =>
    Option.some.inj (hst'.symm.trans h.store)
  refine ⟨⟨_, h.store, rfl⟩, ?_, ?_, fun k x f hx hf => absurd hf (h.unopened hu hx)⟩
  · intro st' l' hst' hl'
    rw [hst hst'] at hl'
    obtain ⟨l₀, hl₀, hlook, -⟩ := he.lock
    rw [← Option.some.inj (hl₀.symm.trans hl')]
    exact hlook
  · intro st' l' hst' hl'
    rw [hst hst'] at hl'
    obtain ⟨l₀, hl₀, hlook, -⟩ := he.log
    rw [← Option.some.inj (hl₀.symm.trans hl')]
    exact hlook

/-- What a store has that is at home is in the plot of the directory. -/
theorem AtHome.on (h : AtHome t s w) (hst : w.stores.get? s = some st) : st.On (t.plot w.fs) t := by
  obtain ⟨st', hst', hd⟩ := h.dir
  rw [Option.some.inj (hst'.symm.trans hst)] at hd
  exact ⟨hd, fun l hl => Or.inl (Below.here.entry (h.log st l hst hl)), fun l hl =>
    Or.inl (Below.here.entry (h.lock st l hst hl))⟩

/-- The store `s` that is opened with the options `o` in the world `w` is bound to the directory of
the trail `t`. -/
structure BoundTo (t : Trail) (w : World) (now : Clock.Reading) (s : Nat) (o : Options) : Prop where
  /-- That is where the spelling led when it was looked up, after missing directories were made, -/
  found : (Store.prepare w.fs o).2.find (Path.ofText o.dir) = .ok t.here
  /-- and where it had led before, if it led to a directory. -/
  before : ∀ i, w.fs.find (Path.ofText o.dir) = .ok i → w.fs.isDirectory i = true → i = t.here
  /-- The path of the store leads there, then and afterwards, through no link. -/
  path : ∃ st, (step now w (.openStore s o)).world.stores.get? s = some st ∧
    (Store.prepare w.fs o).2.SpelledOut st.dir t ∧
    (step now w (.openStore s o)).world.fs.SpelledOut st.dir t
  /-- If the directory holds no link, every link is an entry of a directory outside. -/
  outside : (∀ i b, Below (step now w (.openStore s o)).world.fs t.here i →
      (step now w (.openStore s o)).world.fs.face? i ≠ some (.link b)) →
    ∀ i n j b, (step now w (.openStore s o)).world.fs.lookup i n = some j →
      (step now w (.openStore s o)).world.fs.face? j = some (.link b) →
      ¬Below (step now w (.openStore s o)).world.fs t.here i
  /-- If no entry of the directory is a link, it is of no matter what others do elsewhere, whatever
  becomes of the spelling. -/
  steadfast : (∀ n, NoLink (step now w (.openStore s o)).world.fs t.here n) →
    ∀ acts, Minding (t.plot (step now w (.openStore s o)).world.fs)
        ((step now w (.openStore s o)).world.estateOf s t) (step now w (.openStore s o)).world acts →
      Steadfast t s (step now w (.openStore s o)).world acts

/-- **A store is bound to its directory, not to the spelling** that it was opened with, whatever
happened before. -/
theorem run_boundTo {fs : FileSystem} (hs : fs.Sound)
    (ha : (step now ((ofFileSystem fs).run es) (.openStore s o)).answer = .ok .done) :
    ∃ t, BoundTo t ((ofFileSystem fs).run es) now s o := by
  have hsound : ((ofFileSystem fs).run es).fs.Sound := run_sound hs es
  have hu : ∀ es', InUse (((ofFileSystem fs).run es).run es') := by
    intro es'
    rw [← run_append]
    exact run_inUse fs _
  obtain ⟨st, hop⟩ := step_opened ha
  obtain ⟨t, ht, hfind, henter⟩ := Store.open?_granted hsound hop.granted
  have hs₁ := (Store.prepare_leads (o := o) hsound).sound hsound
  have hs' := step_sound hsound now (.openStore s o)
  have ht' := Store.enter_stands hs₁ ht henter
  have hdir : st.dir = t.path := by
    obtain ⟨-, ⟨e, he, -⟩ | ⟨log, l, fs₁, he, -⟩⟩ := Store.enter_cases hs₁ henter
    · cases he
    · cases he
      rfl
  refine ⟨t, hfind, fun i hi hd => Store.prepare_find hi hd hfind, ⟨st, hop.store, ?_, ?_⟩,
    fun hno i n j b hl hb hbelow => hno j b (hbelow.entry hl) hb, ?_⟩
  · rw [hdir]
    exact ht.spelledOut hs₁
  · rw [hdir]
    exact ht'.spelledOut hs'
  · intro hn acts hm
    obtain ⟨hlock, hlog⟩ := Store.enter_noLink hs₁ ht henter hn
    have hent := (Store.enter_works now hs₁ ht hlock hlog henter).2.1 st rfl
    have hhome := hop.atHome (hu []) hent
    have hstep := InStep.alone (ht'.plot hs' hn) hop.store (hhome.on hop.store) fun k x f hx =>
      hop.unopened (hu []) hx
    exact hhome.steadfast hs' ht' hstep (fun pre _ => hu ((now, .openStore s o) :: _)) hm

/-! ## Links that come and go -/

/-- It is enough to look at one act after the other. -/
theorem Minding.of_take {E : Estate} {acts : List Act}
    (h : ∀ k (hk : k < acts.length), if acts[k].ours then acts[k].event.Of E
      else ∃ o, acts[k].event = .outside o ∧ o.Elsewhere S E.trail (w.acted (acts.take k)).fs) :
    Minding S E w acts := by
  rintro pre a ⟨rest, rfl⟩
  have hk := h pre.length (by simp)
  simpa using hk

/-- The link `/m` leads to `/db` by way of the link `/l`. -/
def linking : List (Clock.Reading × Event) :=
  [(⟨⟨0, 0⟩, 0⟩, .outside (.makeLink (Utf8.ofText "db") (Utf8.ofText "/l"))),
    (⟨⟨0, 0⟩, 0⟩, .outside (.makeLink (Utf8.ofText "eb/../l/") (Utf8.ofText "/m")))]

/-- The store of `/db`, opened by a roundabout way. -/
def roundabout : Options := { dir := Utf8.ofText "/eb/../m/." }

/-- The world in which it is open. -/
def entered : World :=
  (step ⟨⟨1, 0⟩, 0⟩ ((ofFileSystem .duplex).run linking) (.openStore 0 roundabout)).world

/-- While the store is at work, `/m` goes, comes back as a link to `/eb` and takes the place of
`/l`. -/
def relinking : List Act :=
  [⟨true, ⟨⟨2, 0⟩, 0⟩, .store 0 (.createFile 0 ⟨.table, 1⟩)⟩,
    ⟨false, ⟨⟨3, 0⟩, 0⟩, .outside (.remove (Utf8.ofText "/m"))⟩,
    ⟨true, ⟨⟨4, 0⟩, 0⟩, .handle 0 (.write [1, 2, 3])⟩,
    ⟨false, ⟨⟨5, 0⟩, 0⟩, .outside (.makeLink (Utf8.ofText "eb") (Utf8.ofText "/m"))⟩,
    ⟨true, ⟨⟨6, 0⟩, 0⟩, .store 0 (.setManifest ⟨.manifest, 7⟩)⟩,
    ⟨false, ⟨⟨7, 0⟩, 0⟩, .outside (.rename (Utf8.ofText "/m") (Utf8.ofText "/l"))⟩,
    ⟨true, ⟨⟨8, 0⟩, 0⟩, .store 0 .manifest⟩,
    ⟨true, ⟨⟨9, 0⟩, 0⟩, .store 0 (.list KindSet.all)⟩]

theorem entered_sound : entered.fs.Sound := step_sound (run_sound duplex_sound _) _ _

theorem minding_relinking :
    Minding (Trail.toDb.plot entered.fs) (entered.estateOf 0 .toDb) entered relinking := by
  have hsound : ∀ pre, (entered.acted pre).fs.Sound := fun pre => run_sound entered_sound _
  -- the links are entries of the root, and `/db` is another one
  have hproper : ∀ {cs : List Char}, cs = ['l'] ∨ cs = ['m'] → Proper (Utf8.encode cs) := by
    rintro cs (rfl | rfl) <;> exact proper_of_all (by decide) (by decide)
  have hroot : ∀ {fs : FileSystem}, fs.Sound → ¬Below fs Trail.toDb.here root := fun hs hb =>
    absurd (hb.eq_root hs rfl) (by decide)
  have hout : ∀ {fs : FileSystem} {e : Ending} {cs : List Char}, fs.Sound →
      cs = ['l'] ∨ cs = ['m'] → e = .keep ∨ e = .ignore →
      fs.NamesOutside .toDb e (join (Trail.path []) (Utf8.encode cs)) := by
    intro fs e cs hs hcs he
    refine (Trail.Stands.nil fs).namesOutside hs (hproper hcs) ?_ (hroot hs) he
    rcases hcs with rfl | rfl <;> decide
  have hoff : ∀ {fs : FileSystem} {cs : List Char}, fs.Sound → cs = ['l'] ∨ cs = ['m'] →
      fs.lookup root (Utf8.encode cs) ≠ some (root.child 1) →
      fs.NamesOffWay .toDb .ignore (join (Trail.path []) (Utf8.encode cs)) := by
    rintro fs cs hs hcs hne
    refine (Trail.Stands.nil fs).namesOffWay hs (hproper hcs) fun j hj hway => ?_
    obtain rfl := List.mem_singleton.1 hway
    exact hne hj
  have hfree : ∀ {x : Share Handle}, entered.handles.get? 0 = some x → x.store = 0 := by
    intro x hx
    cases hx
  refine .of_take fun k hk => ?_
  match k, hk with
  | 0, _ => exact ⟨rfl, fun _ => hfree⟩
  | 1, _ => exact ⟨_, rfl, hout (hsound _) (Or.inr rfl) (Or.inl rfl)⟩
  | 2, _ => exact fun _ => hfree
  | 3, _ => exact ⟨_, rfl, hout (hsound _) (Or.inr rfl) (Or.inl rfl)⟩
  | 4, _ => exact ⟨rfl, trivial⟩
  | 5, _ =>
    refine ⟨_, rfl, ⟨hout (hsound _) (Or.inr rfl) (Or.inr rfl), ?_⟩,
      hout (hsound _) (Or.inl rfl) (Or.inr rfl), ?_⟩
    · exact hoff (hsound _) (Or.inr rfl) (by decide +kernel)
    · exact hoff (hsound _) (Or.inl rfl) (by decide +kernel)
  | 6, _ => exact ⟨rfl, trivial⟩
  | 7, _ => exact ⟨rfl, trivial⟩

/-- The store goes on in `/db`, while the path that it was opened with leads nowhere any more, and
the link that was on the way leads to `/eb`. -/
theorem run_boundTo_relinked :
    (step ⟨⟨1, 0⟩, 0⟩ ((ofFileSystem .duplex).run linking) (.openStore 0 roundabout)).answer =
      .ok .done ∧
    BoundTo .toDb ((ofFileSystem .duplex).run linking) ⟨⟨1, 0⟩, 0⟩ 0 roundabout ∧
    Steadfast .toDb 0 entered relinking ∧
    (entered.heard relinking).map (fun r => r.1.toOption) =
      [some .done, some (.count 3), some .done, some (.id ⟨.manifest, 7⟩),
        some (.ids [⟨.table, 1⟩])] ∧
    ((entered.acted relinking).fs.find (Path.ofText roundabout.dir)).toOption = none ∧
    ((entered.acted relinking).fs.find (Path.ofText (Utf8.ofText "/l"))).toOption =
      some Trail.toEb.here := by
  have hanswer : (step ⟨⟨1, 0⟩, 0⟩ ((ofFileSystem .duplex).run linking)
      (.openStore 0 roundabout)).answer = .ok .done := by decide +kernel
  obtain ⟨t, hbound⟩ := run_boundTo duplex_sound hanswer
  have hdb : Trail.toDb.Stands entered.fs := ⟨by decide +kernel, by decide +kernel, trivial⟩
  have hfound : ((Store.prepare ((ofFileSystem .duplex).run linking).fs roundabout).2.find
      (Path.ofText roundabout.dir)).toOption = some Trail.toDb.here := by decide +kernel
  obtain rfl : t = .toDb := by
    obtain ⟨st, -, -, hpath⟩ := hbound.path
    rw [hbound.found] at hfound
    exact hpath.stands.unique entered_sound hdb (Option.some.inj hfound)
  have hn : ∀ n, NoLink entered.fs Trail.toDb.here n := noLink_of_entries (by decide +kernel)
  exact ⟨hanswer, hbound, hbound.steadfast hn relinking minding_relinking, by decide +kernel,
    by decide +kernel, by decide +kernel⟩

end World

end EngineDir
