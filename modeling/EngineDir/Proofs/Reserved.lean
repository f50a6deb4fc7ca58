import EngineDir.Proofs.Access
import EngineDir.Proofs.InUse
import EngineDir.Proofs.Opening

/-!
# A directory of its own

A directory that is changed through its stores alone. At most one store has its lock, and
while a handle of that store is open the name of its file stays bound to what is open.

* `World.Inside`, `World.Leaves`, `Reserved`: **only stores of the directory change it.**
* `World.Housed`: what holds of such a directory. `World.step_housed`: **every step keeps it.**
* `World.Housed.tenant`: one store has the lock.
* `World.Touches`, `World.step_stays`: **an event leaves every entry with which it has nothing to
  do.**
* `World.Touches.own`: **the file of an open handle is written through the handle alone.**
-/

namespace EngineDir

open FileSystem

namespace World

variable {w w₀ w' : World} {t : Trail} {now : Clock.Reading} {e : Event} {s s' h k : Nat}
  {st st' : Store} {x : Handle} {f : OpenFile} {n : Bytes} {a : Except Failure Value}
  {es es' : List (Clock.Reading × Event)}

/-- The store `s` was opened in the directory with the path `dir`. -/
def isAt (w : World) (dir : Bytes) (s : Nat) : Bool :=
  (w.stores.get? s).any fun st => decide (st.dir = dir)

theorem isAt_iff {dir : Bytes} :
    w.isAt dir s = true ↔ ∃ st, w.stores.get? s = some st ∧ st.dir = dir := by
  simp [isAt, Option.any_eq_true]

/-- A store that stays is where it was. -/
theorem step_isAt (dir : Bytes) (hs : w.stores.get? s = some st)
    (hs' : (step now w e).world.stores.get? s = some st') :
    (step now w e).world.isAt dir s = w.isAt dir s := by
  simp [isAt, hs, hs', step_dir hs hs']

/-- The event opens the directory of the trail `t`, by a path without `..`, or it is asked of a store
that was opened there. -/
inductive Inside (w : World) (t : Trail) : Event → Prop
  | opening {s : Nat} {o : Options} (hup : Part.up ∉ (Path.ofText o.dir).parts)
      (hfind : (Store.prepare w.fs o).2.find (Path.ofText o.dir) = .ok t.here) :
      Inside w t (.openStore s o)
  | asked {e : Event} {s : Nat} {st : Store} (he : w.addressee? e = some s)
      (hs : w.stores.get? s = some st) (hd : st.dir = t.path) : Inside w t e

/-- The directory of the trail `t` is in `w'` what it is in `w`, and no store was opened there. -/
structure Leaves (t : Trail) (w w' : World) : Prop where
  stands : t.Stands w'.fs
  entry : ∀ n, Stays t.here n w.fs w'.fs
  store : ∀ s st, w'.stores.get? s = some st → st.dir = t.path → (w.stores.get? s).isSome

/-- In the run `es` the directory of the trail `t` is changed through its own stores alone. -/
def Reserved (w₀ : World) (t : Trail) (es : List (Clock.Reading × Event)) : Prop :=
  ∀ pre now e, pre ++ [(now, e)] <+: es →
    Inside (w₀.run pre) t e ∨ Leaves t (w₀.run pre) (step now (w₀.run pre) e).world

/-- What holds of a directory that is changed through its own stores alone. -/
structure Housed (t : Trail) (w : World) : Prop where
  sound : w.fs.Sound
  stands : t.Stands w.fs
  noLink : ∀ n, NoLink w.fs t.here n
  oneName : w.fs.OneName t.here
  /-- The lock of a store is that of the directory. -/
  lock : ∀ s st l, w.stores.get? s = some st → st.dir = t.path → st.lock = some l →
    w.fs.lookup t.here DirLock.entry = some l.node
  /-- So is its log. -/
  log : ∀ s st l, w.stores.get? s = some st → st.dir = t.path → st.log = some l →
    w.fs.lookup t.here SessionLog.entry = some l.file.node
  /-- An open handle has the file that its name is bound to. -/
  handle : ∀ h s x f st, w.handles.get? h = some ⟨s, x⟩ → x.file = some f →
    w.stores.get? s = some st → st.dir = t.path →
    ∃ n, x.id.Named n ∧ w.fs.lookup t.here n = some f.node

/-- What every world has: its locks are in order, and so is what is in use. -/
structure Kept (w : World) : Prop where
  use : InUse w
  locks : LocksOK w

theorem run_kept {fs : FileSystem} (hs : fs.Sound) (hl : fs.locked = [])
    (es : List (Clock.Reading × Event)) : Kept ((ofFileSystem fs).run es) :=
  ⟨run_inUse fs es, run_locksOK hs (locksOK_ofFileSystem hl) es⟩

/-- **One store has the lock.** -/
theorem Housed.tenant (hh : Housed t w) (hk : Kept w) (hs : w.stores.get? s = some st)
    (hd : st.dir = t.path) (hl : ∃ l, st.lock = some l) (hs' : w.stores.get? s' = some st')
    (hd' : st'.dir = t.path) (hl' : ∃ l, st'.lock = some l) : s = s' := by
  obtain ⟨l, hl⟩ := hl
  obtain ⟨l', hl'⟩ := hl'
  have hnode := (hh.lock s st l hs hd hl).symm.trans (hh.lock s' st' l' hs' hd' hl')
  have hx : w.lockOf (.store s) = some l := (lockOf_store hs).trans hl
  have hx' : w.lockOf (.store s') = some l' := (lockOf_store hs').trans hl'
  exact Holder.store.inj (hk.locks.distinct hx hx' (Option.some.inj hnode))

/-- Where the file of an open handle is bound, its name is. -/
theorem Housed.named (hh : Housed t w) (hx : w.handles.get? h = some ⟨s, x⟩) (hf : x.file = some f)
    (hs : w.stores.get? s = some st) (hd : st.dir = t.path)
    (hl : w.fs.lookup t.here n = some f.node) : x.id.Named n := by
  obtain ⟨m, hm, hlm⟩ := hh.handle h s x f st hx hf hs hd
  rw [hh.oneName _ _ _ hl hlm]
  exact hm

/-! ## Opening the directory -/

/-- What comes of opening the directory of the trail `t` as the store `s`. -/
structure OpensHere (t : Trail) (now : Clock.Reading) (s : Nat) (w w' : World) : Prop where
  works : Works t.here (fun n => n = SessionLog.entry) Store.OpenBinds now w.fs none [] w'.fs none
  /-- Nothing happens while the lock is held. -/
  held : ∀ i, w.fs.lookup t.here DirLock.entry = some i → i ∈ w.fs.locked → w' = w
  store : ∀ k st', w'.stores.get? k = some st' → w.stores.get? k = some st' ∨
    (k = s ∧ w.stores.get? s = none ∧ Store.Entered t w.fs w'.fs st')
  handles : w'.handles = w.handles

theorem step_opening {o : Options} (hh : Housed t w) (hup : Part.up ∉ (Path.ofText o.dir).parts)
    (hfind : (Store.prepare w.fs o).2.find (Path.ofText o.dir) = .ok t.here) :
    OpensHere t now s w (step now w (.openStore s o)).world := by
  have hrefl : OpensHere t now s w w := ⟨.refl, fun _ _ _ => rfl, fun _ _ h => Or.inl h, rfl⟩
  have hsame := Store.prepare_same hh.sound hup (hh.stands.isDirectory hh.sound) hfind
  have hopen := Store.open?_enter hh.sound (by rw [hsame]; exact hh.stands) hfind
  rw [hsame] at hopen
  simp only [step]
  by_cases hc : w.stores.contains s = true
  · rw [if_pos hc]
    exact hrefl
  rw [if_neg hc, stepOpen]
  rcases hopen with ⟨e, he⟩ | he
  · rw [he]
    exact hrefl
  · rw [he]
    cases hr : Store.enter w.fs o t.path with
    | mk r fs' =>
      obtain ⟨hw, hent, hheld⟩ :=
        Store.enter_works now hh.sound hh.stands (hh.noLink _) (hh.noLink _) hr
      cases r with
      | error err =>
        refine ⟨hw, fun i hi hl => ?_, fun _ _ h => Or.inl h, rfl⟩
        simp only [(hheld i hi hl).2]
        rfl
      | ok st =>
        refine ⟨hw, fun i hi hl => ?_, fun k st' hst' => ?_, rfl⟩
        · obtain ⟨⟨err, he⟩, -⟩ := hheld i hi hl
          cases he
        · simp only [Table.get?_insert] at hst'
          split at hst'
          · rename_i hks
            cases hst'
            exact Or.inr ⟨hks, not_contains hc, hent st rfl⟩
          · exact Or.inl hst'

/-! ## Steps -/

theorem Housed.tidy (hh : Housed t w) : Tidy t w.fs := tidy_of_noLink hh.noLink

/-- What an event does inside the directory. -/
theorem Housed.works (now : Clock.Reading) (hh : Housed t w) (hi : Inside w t e) :
    ∃ said log log', Works t.here (w.Fills t.here e (step now w e).answer)
        (e.Binds (step now w e).answer) now w.fs log said (step now w e).world.fs log' ∧
      LogAt t.here w.fs log ∧ (log = none ∨ ¬e.Binds (step now w e).answer SessionLog.entry) := by
  cases hi with
  | opening hup hfind =>
    exact ⟨[], none, none, (step_opening hh hup hfind).works, .none _ _, Or.inl rfl⟩
  | @asked _ s st he hs hd =>
    obtain ⟨st', -, log', hw, -⟩ := step_does now hh.sound hh.stands hh.tidy he hs hd
    exact ⟨w.said now e, st.log, log', hw, fun l hl => hh.log s st l hs hd hl,
      Or.inr (not_binds he .log rfl)⟩

/-- What an event with the answer `a` has to do with the entry `n` of the directory of the trail
`t`. -/
inductive Touches (w : World) (t : Trail) (e : Event) (a : Except Failure Value) (n : Bytes) : Prop
  /-- The lock and the logs belong to every event. -/
  | control {cs : List Char} (hcs : ControlText cs) (hL : cs.head? = some 'L')
      (hn : n = Utf8.encode cs)
  | created {s h : Nat} {id : FileId} {v : Value} (he : e = .store s (.createFile h id))
      (hat : w.isAt t.path s = true) (ha : a = .ok v) (hn : id.Named n)
  | removed {s : Nat} {id : FileId} {v : Value} (he : e = .store s (.removeFile id))
      (hat : w.isAt t.path s = true) (ha : a = .ok v) (hn : id.Named n)
  | staged {s : Nat} {id : FileId} (he : e = .store s (.setManifest id))
      (hn : n = Utf8.encode (Current.stagingName id.seq))
  | published {s : Nat} {id : FileId} {v : Value} (he : e = .store s (.setManifest id))
      (hat : w.isAt t.path s = true) (ha : a = .ok v) (hn : n = Current.entry)
  | written {h s : Nat} {x : Handle} {f : OpenFile} {new : Bytes} (he : e = .handle h (.write new))
      (hx : w.handles.get? h = some ⟨s, x⟩) (hf : x.file = some f)
      (hat : w.isAt t.path s = true) (hn : x.id.Named n)

theorem Housed.touches_fills (hh : Housed t w) (hi : Inside w t e) (hF : w.Fills t.here e a n) :
    Touches w t e a n := by
  cases hi with
  | opening => exact .control .log rfl hF
  | @asked _ s st he hs hd =>
    have hat : w.isAt t.path s = true := isAt_iff.2 ⟨st, hs, hd⟩
    rcases fills_cases he hF with ⟨h, id, v, rfl, ha, hid⟩ | ⟨id, rfl, hn⟩ |
      ⟨h, new, x, f, rfl, hx, hf, hl⟩
    · exact .created rfl hat ha hid
    · exact .staged rfl hn
    · exact .written rfl hx hf hat (hh.named hx hf hs hd hl)

theorem touches_binds (hi : Inside w t e) (hN : e.Binds a n) : Touches w t e a n := by
  cases hi with
  | opening =>
    rcases hN with hn | hn | hn
    · exact .control .lock rfl hn
    · exact .control .log rfl hn
    · exact .control .oldLog rfl hn
  | @asked _ s st he hs hd =>
    have hat : w.isAt t.path s = true := isAt_iff.2 ⟨st, hs, hd⟩
    rcases binds_cases he hN with ⟨h, id, v, rfl, ha, hid⟩ | ⟨id, v, rfl, ha, hid⟩ |
      ⟨id, rfl, hn | ⟨hn, v, ha⟩⟩
    · exact .created rfl hat ha hid
    · exact .removed rfl hat ha hid
    · exact .staged rfl hn
    · exact .published rfl hat ha hn

/-- **An event leaves every entry with which it has nothing to do.** -/
theorem step_stays (hh : Housed t w) (hi : Inside w t e ∨ Leaves t w (step now w e).world)
    (n : Bytes) : Stays t.here n w.fs (step now w e).world.fs ∨
      Touches w t e (step now w e).answer n := by
  rcases hi with hi | hleaves
  · by_cases hl : n = SessionLog.entry
    · exact Or.inr (.control .log rfl hl)
    by_cases hF : w.Fills t.here e (step now w e).answer n
    · exact Or.inr (hh.touches_fills hi hF)
    by_cases hN : e.Binds (step now w e).answer n
    · exact Or.inr (touches_binds hi hN)
    · obtain ⟨said, log, log', hw, hlog, hnone⟩ := hh.works now hi
      exact Or.inl (hw.stays hh.sound hh.oneName hlog hnone (Or.inr hl) hF hN)
  · exact Or.inl (hleaves.entry n)

/-- **The file of an open handle is written through the handle**, and nothing else touches it: whoever
could do it has the lock, and so lists the file as open. -/
theorem Touches.own (ht : Touches w t e (step now w e).answer n) (hh : Housed t w) (hk : Kept w)
    (hx : w.handles.get? k = some ⟨s, x⟩) (hf : x.file = some f) (hs : w.stores.get? s = some st)
    (hd : st.dir = t.path) (hn : x.id.Named n) : ∃ new, e = .handle k (.write new) := by
  obtain ⟨l, hlock, hmem⟩ := hk.use.lock hx hf hs
  have hlisted : ∀ {s' st'}, w.stores.get? s' = some st' → st'.dir = t.path → st'.closed = false →
      x.id ∈ st'.openIds := by
    intro s' st' hs' hd' hc
    obtain rfl := hh.tenant hk hs hd ⟨l, hlock⟩ hs' hd' (hk.use.unclosed s' st' hs' hc).2
    rw [← Option.some.inj (hs.symm.trans hs')]
    exact hmem
  cases ht with
  | control hcs _ hn' => exact absurd ⟨_, hcs, hn'⟩ hn.not_control
  | staged _ hn' => exact absurd (hn' ▸ control_staging _) hn.not_control
  | published _ _ _ hn' => exact absurd (hn' ▸ control_current) hn.not_control
  | created he hat ha hn' =>
    subst he
    obtain ⟨st', hs', hd'⟩ := isAt_iff.1 hat
    obtain ⟨-, y, hy⟩ := created_of_answer hs' ha
    obtain ⟨cs, i, hacc, -⟩ := Store.createFile_ok hy
    obtain ⟨hc, -, hfree⟩ := Store.access_ok hacc
    rw [hn'.unique hn] at hfree
    exact absurd (hlisted hs' hd' hc) hfree
  | removed he hat ha hn' =>
    subst he
    obtain ⟨st', hs', hd'⟩ := isAt_iff.1 hat
    obtain ⟨hiff, -⟩ := Store.removeFile_iff now _ hh.sound hh.stands hd'
    obtain ⟨cs, i, hc, hfree, -⟩ := hiff.1 (removed_of_answer hs' ha).1
    rw [hn'.unique hn] at hfree
    exact absurd (hlisted hs' hd' hc) hfree
  | written he hy hyf hat hn' =>
    obtain ⟨st', hs', hd'⟩ := isAt_iff.1 hat
    obtain ⟨l', hlock', -⟩ := hk.use.lock hy hyf hs'
    obtain rfl := hh.tenant hk hs hd ⟨l, hlock⟩ hs' hd' ⟨l', hlock'⟩
    obtain rfl := hk.use.inj _ _ _ _ _ hy (Handle.isClosed_of_file hyf) hx
      (Handle.isClosed_of_file hf) (hn'.unique hn)
    exact ⟨_, he⟩

/-- The name of an open file stays bound to what is open. -/
theorem step_name (hh : Housed t w) (hk : Kept w)
    (hi : Inside w t e ∨ Leaves t w (step now w e).world) (hx : w.handles.get? h = some ⟨s, x⟩)
    (hf : x.file = some f) (hs : w.stores.get? s = some st) (hd : st.dir = t.path)
    (hn : x.id.Named n) : (step now w e).world.fs.lookup t.here n = w.fs.lookup t.here n := by
  rcases step_stays hh hi n with hst | ht
  · exact hst.lookup
  · -- a write binds no name
    obtain ⟨new, rfl⟩ := ht.own hh hk hx hf hs hd hn
    rcases hi with hi | hleaves
    · obtain ⟨_, _, _, hw, -⟩ := hh.works now hi
      exact hw.lookup hh.sound (Or.inr fun hN => hN)
    · exact (hleaves.entry n).lookup

/-- Nothing is open in a directory whose lock nobody has. -/
theorem Housed.unused (hk : Kept w)
    (hno : ∀ s st, w.stores.get? s = some st → st.dir = t.path → ∀ l, st.lock ≠ some l) :
    (∀ s st l, w.stores.get? s = some st → st.dir = t.path → st.log ≠ some l) ∧
      ∀ h s x f st, w.handles.get? h = some ⟨s, x⟩ → x.file = some f →
        w.stores.get? s = some st → st.dir ≠ t.path := by
  refine ⟨fun s st l hs hd hl => ?_, fun h s x f st hx hf hs hd => ?_⟩
  · obtain ⟨k, hlock⟩ := hk.use.log s st l hs hl
    exact hno s st hs hd k hlock
  · obtain ⟨l, hlock, -⟩ := hk.use.lock hx hf hs
    exact hno s st hs hd l hlock

/-- Nothing comes of it while a store has the lock. -/
theorem OpensHere.eq_self (ho : OpensHere t now s w w') (hh : Housed t w) (hk : Kept w)
    (hs' : w.stores.get? s' = some st') (hd' : st'.dir = t.path) {l : DirLock}
    (hl : st'.lock = some l) : w' = w :=
  ho.held l.node (hh.lock s' st' l hs' hd' hl)
    (hk.locks.locked.2 ⟨_, l, (lockOf_store hs').trans hl, rfl⟩)

/-- To open the directory keeps it in order. -/
theorem OpensHere.housed (ho : OpensHere t now s w w') (hh : Housed t w) (hk : Kept w) :
    Housed t w' := by
  by_cases hex : ∃ s st l, w.stores.get? s = some st ∧ st.dir = t.path ∧ st.lock = some l
  · obtain ⟨s₁, st₁, l₁, hs₁, hd₁, hl₁⟩ := hex
    rw [ho.eq_self hh hk hs₁ hd₁ hl₁]
    exact hh
  · have hno : ∀ s st, w.stores.get? s = some st → st.dir = t.path → ∀ l, st.lock ≠ some l :=
      fun s st hs hd l hl => hex ⟨s, st, l, hs, hd, hl⟩
    obtain ⟨hnolog, hnohandle⟩ := Housed.unused hk hno
    refine ⟨ho.works.sound hh.sound, ho.works.stands hh.sound hh.stands,
      ho.works.noLink hh.sound hh.noLink, ho.works.oneName hh.sound hh.oneName, ?_, ?_, ?_⟩
    · intro k st l hst hd hl
      rcases ho.store k st hst with hold | ⟨-, -, hent⟩
      · exact absurd hl (hno k st hold hd l)
      · obtain ⟨l', hl', hlook, -⟩ := hent.lock
        rw [hl] at hl'
        cases hl'
        exact hlook
    · intro k st l hst hd hl
      rcases ho.store k st hst with hold | ⟨-, -, hent⟩
      · exact absurd hl (hnolog k st l hold hd)
      · obtain ⟨l', hl', hlook, -⟩ := hent.log
        rw [hl] at hl'
        cases hl'
        exact hlook
    · intro h k x f st hx hf hst hd
      rw [ho.handles] at hx
      rcases ho.store k st hst with hold | ⟨rfl, hnew, -⟩
      · exact absurd hd (hnohandle h k x f st hx hf hold)
      · obtain ⟨st₀, hst₀⟩ := hk.use.store hx hf
        rw [hnew] at hst₀
        cases hst₀

/-- What is asked of a store of the directory keeps it in order. -/
theorem Housed.asked (hh : Housed t w) (hk : Kept w) (he : w.addressee? e = some s)
    (hs : w.stores.get? s = some st) (hd : st.dir = t.path) :
    Housed t (step now w e).world := by
  obtain ⟨st₁, -, log', hw, -⟩ := step_does now hh.sound hh.stands hh.tidy he hs hd
  have hlock := hw.lookup hh.sound (i := t.here) (Or.inr (not_binds he .lock rfl))
  have hlog := hw.lookup hh.sound (i := t.here) (Or.inr (not_binds he .log rfl))
  refine ⟨hw.sound hh.sound, hw.stands hh.sound hh.stands, hw.noLink hh.sound hh.noLink,
    hw.oneName hh.sound hh.oneName, ?_, ?_, ?_⟩
  · intro k st' l hst' hd' hl
    obtain ⟨st₀, hst₀, hb⟩ := asked_stores he hst'
    rw [DirLock.entry, hlock]
    exact hh.lock k st₀ l hst₀ (hb.dir.symm.trans hd') (hb.lock_eq hl)
  · intro k st' l hst' hd' hl
    obtain ⟨st₀, hst₀, hb⟩ := asked_stores he hst'
    obtain ⟨l₀, hl₀, hnode⟩ := hb.log_later l hl
    rw [SessionLog.entry, hlog, hnode]
    exact hh.log k st₀ l₀ hst₀ (hb.dir.symm.trans hd') hl₀
  · intro h k x' f' st' hx' hf' hst' hd'
    obtain ⟨st₀, hst₀, hb⟩ := asked_stores he hst'
    have hd₀ : st₀.dir = t.path := hb.dir.symm.trans hd'
    rcases step_open hh.sound hh.stands hh.tidy hst₀ hd₀ hx' hf' with
      ⟨x, f, hx, hf, hnode, hid, -⟩ | ⟨-, hnew⟩
    · obtain ⟨n, hn, hl⟩ := hh.handle h k x f st₀ hx hf hst₀ hd₀
      have hname : (step now w e).world.fs.lookup t.here n = w.fs.lookup t.here n :=
        step_name hh hk (Or.inl (.asked he hs hd)) hx hf hst₀ hd₀ hn
      exact ⟨n, by rw [hid]; exact hn, by rw [hname, hl, hnode]⟩
    · exact hnew.lookup

/-- The stores of a directory that was left were there, and nothing was asked of them. -/
theorem Leaves.stores (hl : Leaves t w (step now w e).world) (hi : ¬Inside w t e) (k : Nat)
    (st' : Store) (hst' : (step now w e).world.stores.get? k = some st') (hd' : st'.dir = t.path) :
    w.stores.get? k = some st' ∧ w.addressee? e ≠ some k := by
  obtain ⟨st, hst⟩ := Option.isSome_iff_exists.1 (hl.store k st' hst' hd')
  have hd : st.dir = t.path := (step_dir hst hst').symm.trans hd'
  have he : w.addressee? e ≠ some k := fun he => hi (.asked he hst hd)
  rw [step_elsewhere he hst] at hst'
  cases hst'
  exact ⟨hst, he⟩

/-- What leaves the directory keeps it in order. -/
theorem Leaves.housed (hl : Leaves t w (step now w e).world) (hh : Housed t w) (hi : ¬Inside w t e) :
    Housed t (step now w e).world := by
  have hstore := hl.stores hi
  refine ⟨step_sound hh.sound now e, hl.stands, fun n => (hl.entry n).noLink (hh.noLink n), ?_, ?_,
    ?_, ?_⟩
  · intro n n' j hn hn'
    rw [(hl.entry _).lookup] at hn hn'
    exact hh.oneName n n' j hn hn'
  · intro k st' l hst' hd' hlock
    rw [(hl.entry _).lookup]
    exact hh.lock k st' l (hstore k st' hst' hd').1 hd' hlock
  · intro k st' l hst' hd' hlog
    rw [(hl.entry _).lookup]
    exact hh.log k st' l (hstore k st' hst' hd').1 hd' hlog
  · intro h k x f st' hx hf hst' hd'
    obtain ⟨hst, he⟩ := hstore k st' hst' hd'
    obtain ⟨n, hn, hlook⟩ := hh.handle h k x f st' (handle_elsewhere he hx) hf hst hd'
    exact ⟨n, hn, (hl.entry n).lookup.trans hlook⟩

/-- **Every step keeps the directory in order.** -/
theorem step_housed (hh : Housed t w) (hk : Kept w)
    (h : Inside w t e ∨ Leaves t w (step now w e).world) : Housed t (step now w e).world := by
  by_cases hi : Inside w t e
  · cases hi with
    | opening hup hfind => exact (step_opening hh hup hfind).housed hh hk
    | asked he hs hd => exact hh.asked hk he hs hd
  · exact (h.resolve_left hi).housed hh hi

/-! ## Runs -/

theorem Reserved.before (h : Reserved w₀ t es') (hp : es <+: es') : Reserved w₀ t es :=
  fun pre now e hpre => h pre now e (hpre.trans hp)

/-- Nothing is in use at first. -/
theorem housed_ofFileSystem {fs : FileSystem} (hs : fs.Sound) (ht : t.Stands fs)
    (hn : ∀ n, NoLink fs t.here n) (hone : fs.OneName t.here) : Housed t (ofFileSystem fs) :=
  ⟨hs, ht, hn, hone, fun _ _ _ h => (by cases h), fun _ _ _ h => (by cases h),
    fun _ _ _ _ _ h => (by cases h)⟩

/-- **After every run the directory is in order.** -/
theorem run_housed {fs : FileSystem} (hs : fs.Sound) (hl : fs.locked = []) (ht : t.Stands fs)
    (hn : ∀ n, NoLink fs t.here n) (hone : fs.OneName t.here) (hr : Reserved (ofFileSystem fs) t es) :
    Housed t ((ofFileSystem fs).run es) := by
  refine run_along (P := fun _ w => Housed t w) es (housed_ofFileSystem hs ht hn hone) ?_
  intro pre now e hpre ih
  exact step_housed ih (run_kept hs hl pre) (hr pre now e hpre)

/-! ## A directory to begin with -/

theorem Inside.of_dir (he : w.addressee? e = some s)
    (hd : (w.stores.get? s).map Store.dir = some t.path) : Inside w t e := by
  obtain ⟨st, hs, hdir⟩ := Option.map_eq_some_iff.1 hd
  exact .asked he hs hdir

theorem Reserved.nil : Reserved w₀ t [] :=
  fun _ _ _ hpre => absurd (List.prefix_nil.1 hpre) (by simp)

/-- What holds of the first event, and of all that follow, holds throughout a run. -/
theorem throughout_cons {P : World → Clock.Reading → Event → Prop} (h : P w₀ now e)
    (hr : ∀ pre now' e', pre ++ [(now', e')] <+: es → P ((step now w₀ e).world.run pre) now' e') :
    ∀ pre now' e', pre ++ [(now', e')] <+: (now, e) :: es → P (w₀.run pre) now' e' := by
  intro pre now' e' hpre
  cases pre with
  | nil =>
    obtain ⟨rest, hrest⟩ := hpre
    cases hrest
    exact h
  | cons r pre =>
    obtain ⟨rest, hrest⟩ := hpre
    cases hrest
    exact hr pre now' e' ⟨rest, rfl⟩

/-- A run is reserved if its first event is, and what follows. -/
theorem Reserved.cons (hi : Inside w₀ t e ∨ Leaves t w₀ (step now w₀ e).world)
    (hr : Reserved (step now w₀ e).world t es) : Reserved w₀ t ((now, e) :: es) :=
  throughout_cons (P := fun w now e => Inside w t e ∨ Leaves t w (step now w e).world) hi hr

/-- In the run `es` the entries of the directory of the trail `t` are changed through its own stores
alone, but the directory itself may be moved. -/
def EntriesReserved (w₀ : World) (t : Trail) (es : List (Clock.Reading × Event)) : Prop :=
  ∀ pre now e, pre ++ [(now, e)] <+: es → Inside (w₀.run pre) t e ∨
    ∀ n, Stays t.here n (w₀.run pre).fs (step now (w₀.run pre) e).world.fs

theorem Reserved.entries (h : Reserved w₀ t es) : EntriesReserved w₀ t es :=
  fun pre now e hpre => (h pre now e hpre).imp_right Leaves.entry

theorem EntriesReserved.nil : EntriesReserved w₀ t [] := Reserved.nil.entries

theorem EntriesReserved.cons
    (hi : Inside w₀ t e ∨ ∀ n, Stays t.here n w₀.fs (step now w₀ e).world.fs)
    (hr : EntriesReserved (step now w₀ e).world t es) : EntriesReserved w₀ t ((now, e) :: es) :=
  throughout_cons (P := fun w now e => Inside w t e ∨
    ∀ n, Stays t.here n w.fs (step now w e).world.fs) hi hr

end World

theorem World.reserved_session : Reserved (ofFileSystem .furnished) .toDb session :=
  .cons (Or.inl (.opening (by decide) rfl)) (.cons (Or.inl (.of_dir rfl (by decide +kernel))) .nil)

/-- A directory that a store is at work in. -/
theorem World.housed_session : Housed .toDb ((ofFileSystem .furnished).run session) :=
  run_housed furnished_sound rfl furnished_stands furnished_noLink furnished_oneName
    reserved_session

end EngineDir
