import EngineDir.Proofs.AtomicPublish
import EngineDir.Proofs.Reserved

/-!
# The pointer remembers

In a directory that is changed through its own stores alone, and in which nothing has
two names, the pointer names the manifest that was published last, whichever store
published it and whatever else happened since.

* `NoNull`: no staged pointer swallows what is written to it.
* `Store.Names`: the pointer holds the line for a manifest, and nothing is staged for it.
  `Store.setManifest_names`: **a publication that was granted leaves it so.**
* `World.register`: what was published last in a run.
* `World.step_read`: **what each event does to the pointer.**
* `World.WritesBack`: every store of the directory writes back what it stages.
* `run_register`: **the pointer names what was published last, after every run.**
  `register_forgets`: without these conditions it may not.
-/

namespace EngineDir

open FileSystem

variable {fs fs' : FileSystem} {t : Trail} {D : NodeId}

/-- No staged pointer of the directory `D` is the device that swallows what is written to it. What
publications leave behind are files. -/
def NoNull (fs : FileSystem) (D : NodeId) : Prop :=
  ∀ seq i, fs.lookup D (Utf8.encode (Current.stagingName seq)) = some i →
    fs.face? i ≠ some (.device .null)

/-- No staged pointer swallows anything where no entry does. -/
theorem noNull_of_entries
    (h : (fs.directory? D).all (fun d => d.entries.entries.all fun e =>
      decide (fs.face? e.2 ≠ some (.device .null))) = true) : NoNull fs D := fun _ _ hi =>
  of_decide_eq_true
    (of_all_entries (p := fun k => decide (fs.face? k ≠ some (.device .null))) h hi)

namespace Store

variable {st : Store} {now : Clock.Reading} {id : FileId}

/-- The pointer of the directory `D` holds the line for `id`, and no pointer to `id` is staged. -/
structure Names (D : NodeId) (fs : FileSystem) (id : FileId) : Prop where
  staged : fs.lookup D (Utf8.encode (Current.stagingName id.seq)) = none
  current : ∃ i, fs.lookup D Current.entry = some i ∧ fs.face? i = some (.file (Current.line id))

/-- A reader of the line gets the manifest. -/
theorem Names.read (h : Names t.here fs id) (hs : fs.Sound) (ht : t.Stands fs)
    (hk : id.kind = .manifest) : Current.read fs t.path = .ok id := by
  obtain ⟨i, hl, hf⟩ := h.current
  exact Current.read_of_file (ht.arrives hs) hk hl hf

/-- In such a directory without links the way is clear for every publication. -/
theorem clear_of_noLink (hlink : ∀ n, NoLink fs t.here n) (hone : fs.OneName t.here)
    (hnull : NoNull fs t.here ∨ st.sync = true) (hlog : LogAt t.here fs st.log) :
    Clear (st.proposal now id) fs st.log t.here := by
  refine ⟨hlink _, hlink _, fun i hi hf => hnull.resolve_left fun hn => hn _ i hi hf,
    fun i hi hi' => ?_, ?_⟩
  · exact staging_ne_current _ (hone _ _ _ hi' hi)
  · -- a file has one name here, and that of the log is `LOG`
    rintro l n hl hn (rfl | rfl)
    · exact Current.encode_ne_current rfl (hone _ _ _ (hlog l hl) hn)
    · exact stagingName_ne id.seq (by decide) (Utf8.encode_injective (hone _ _ _ hn (hlog l hl)))

/-- **A publication that was granted leaves the line for the manifest**, and nothing staged. -/
theorem setManifest_names (hs : fs.Sound) (ht : t.Stands fs) (hd : st.dir = t.path)
    (hlink : ∀ n, NoLink fs t.here n) (hone : fs.OneName t.here)
    (hnull : NoNull fs t.here ∨ st.sync = true) (hlog : LogAt t.here fs st.log)
    (hok : (st.setManifest fs now id).result = .ok ()) :
    id.kind = .manifest ∧ Names t.here (st.setManifest fs now id).fs id := by
  have hgranted : ¬(st.closed = true ∨ id.kind ≠ .manifest) := by
    intro h
    obtain ⟨e, he, -⟩ := setManifest_refuse fs now h
    rw [he] at hok
    cases hok
  obtain ⟨hc, hk⟩ := not_or.1 hgranted
  have hk : id.kind = .manifest := Decidable.of_not_not hk
  have hc : st.closed = false := by simpa using hc
  have hclear : Clear (st.proposal now id) fs st.log t.here :=
    clear_of_noLink hlink hone hnull hlog
  have ha : fs.Arrives (st.proposal now id).dir t linkLimit := by
    rw [show (st.proposal now id).dir = t.path from hd]
    exact ht.arrives hs
  have hg := hclear.ground hs ha fun l hl => hs.bound (hlog l hl)
  obtain ⟨hfs, hres⟩ : (st.setManifest fs now id).fs = _ ∧ (_ ↔ _) := setManifest_eq hc hk
  have herr := hres.1 hok
  rcases Publication.after_pending (Publication.pending_begin hclear hg)
    (Publication.stepsFor id) with ⟨hr, hpub⟩ | ⟨-, hpend⟩
  · refine ⟨hk, ?_, ?_⟩
    · rw [hfs]
      exact Publication.lookup_renamed (u := Publication.begin fs st.log) hs hone ht hd
        (Or.inl (hlink _)) hr
    · rw [hfs]
      exact hpub.current
  · have hfailed := hpend.failed (Publication.finished_run (st.proposal now id) fs st.log)
    rw [show (Publication.after (st.proposal now id) (Publication.stepsFor id)
      (Publication.begin fs st.log)).error? = none from herr] at hfailed
    cases hfailed

end Store

namespace World

variable {w w₀ : World} {now : Clock.Reading} {e : Event} {a : Except Failure Value} {s : Nat}
  {st : Store} {id : FileId} {es : List (Clock.Reading × Event)}

/-- What an event published in the directory with the path `dir`. -/
def published? (dir : Bytes) (w : World) : Event → Except Failure Value → Option FileId
  | .store s (.setManifest id), .ok _ =>
    if w.isAt dir s = true then some id else none
  | _, _ => none

/-- What a run published in the directory with the path `dir`, one after the other. -/
def publications (w : World) (dir : Bytes) (es : List (Clock.Reading × Event)) : List FileId :=
  (w.history es).filterMap fun r => published? dir r.1 r.2.1 r.2.2

/-- What the pointer of a directory names after a run: what was published last there, or else what it
named before. -/
def register (w : World) (dir : Bytes) (es : List (Clock.Reading × Event)) :
    Except StoreError FileId :=
  match (w.publications dir es).getLast? with
  | some id => .ok id
  | none => Current.read w.fs dir

theorem register_concat (w : World) (dir : Bytes) (es : List (Clock.Reading × Event))
    (now : Clock.Reading) (e : Event) :
    w.register dir (es ++ [(now, e)]) =
      match published? dir (w.run es) e (step now (w.run es) e).answer with
      | some id => .ok id
      | none => w.register dir es := by
  simp only [register, publications, history_concat, List.filterMap_append, List.filterMap_cons,
    List.filterMap_nil]
  cases published? dir (w.run es) e (step now (w.run es) e).answer with
  | none => simp
  | some id => simp

theorem published?_eq_some {dir : Bytes} :
    published? dir w e a = some id ↔
      ∃ s st v, e = .store s (.setManifest id) ∧ a = .ok v ∧ w.stores.get? s = some st ∧
        st.dir = dir := by
  constructor
  · intro h
    unfold published? at h
    split at h
    · rename_i s id' v
      split at h
      · rename_i hat
        obtain ⟨st, hst, hdir⟩ := isAt_iff.1 hat
        cases h
        exact ⟨s, st, v, rfl, rfl, hst, hdir⟩
      · cases h
    · cases h
  · rintro ⟨s, st, v, rfl, rfl, hst, hdir⟩
    exact if_pos (isAt_iff.2 ⟨st, hst, hdir⟩)

/-- An event that publishes nothing leaves the pointer. -/
theorem step_current (hh : Housed t w) (hi : Inside w t e ∨ Leaves t w (step now w e).world)
    (hp : published? t.path w e (step now w e).answer = none) :
    Stays t.here Current.entry w.fs (step now w e).world.fs := by
  rcases step_stays hh hi Current.entry with hstay | htouches
  · exact hstay
  · cases htouches with
    | control hcs hL hn => exact absurd hn.symm (Current.encode_ne_current hL)
    | created _ _ _ hn => exact absurd control_current hn.not_control
    | removed _ _ _ hn => exact absurd control_current hn.not_control
    | staged _ hn => exact absurd (Utf8.encode_injective hn).symm (stagingName_ne_current _)
    | published he hat ha =>
      obtain ⟨st, hst, hd⟩ := isAt_iff.1 hat
      rw [published?_eq_some.2 ⟨_, st, _, he, ha, hst, hd⟩] at hp
      cases hp
    | written _ _ _ _ hn => exact absurd control_current hn.not_control

/-- A publication brings no device to the name that it stages. -/
theorem publish_noNull {i : NodeId} (hh : Housed t w)
    (hi : Inside w t (.store s (.setManifest id))) (hn : NoNull w.fs t.here)
    (hl : (step now w (.store s (.setManifest id))).world.fs.lookup t.here
      (Utf8.encode (Current.stagingName id.seq)) = some i) :
    (step now w (.store s (.setManifest id))).world.fs.face? i ≠ some (.device .null) := by
  intro hf
  obtain ⟨said, log, log', hw, -⟩ := hh.works now hi
  obtain ⟨n, hname, hold, hf'⟩ := hw.bound_back_name hh.sound hl
    (fun n' hl' => hw.oneName hh.sound hh.oneName n' _ i hl' hl) hf (by simp)
  cases ha : (step now w (.store s (.setManifest id))).answer with
  | error err =>
    rw [ha] at hname
    obtain rfl : n = Utf8.encode (Current.stagingName id.seq) := or_self_iff.1 hname
    exact hn _ i hold hf'
  | ok v =>
    -- what is published is no longer staged
    cases hi with
    | asked he hst hd =>
      obtain rfl := Option.some.inj he
      obtain ⟨hok, hfs⟩ := published_of_answer hst ha
      obtain ⟨-, hnames⟩ := Store.setManifest_names hh.sound hh.stands hd hh.noLink hh.oneName
        (Or.inl hn) (fun l hl => hh.log _ _ l hst hd hl) hok
      rw [hfs, hnames.staged] at hl
      cases hl

/-- No device gets the name of a staged pointer. -/
theorem step_noNull (hh : Housed t w) (hi : Inside w t e ∨ Leaves t w (step now w e).world)
    (hn : NoNull w.fs t.here) : NoNull (step now w e).world.fs t.here := by
  intro seq i hl hf
  have hbefore : ¬Stays t.here (Utf8.encode (Current.stagingName seq)) w.fs
      (step now w e).world.fs := by
    intro hstay
    rw [hstay.lookup] at hl
    rw [hstay.face i hl] at hf
    exact hn seq i hl hf
  have htouches := (step_stays hh hi _).resolve_left hbefore
  cases htouches with
  | control _ hL hn' =>
    exact stagingName_ne seq (by rw [hL]; decide) (Utf8.encode_injective hn')
  | created _ _ _ hn' => exact hn'.not_control (control_staging seq)
  | removed _ _ _ hn' => exact hn'.not_control (control_staging seq)
  | published _ _ _ hn' => exact stagingName_ne_current seq (Utf8.encode_injective hn')
  | written _ _ _ _ hn' => exact hn'.not_control (control_staging seq)
  | staged he hseq =>
    subst he
    have hi := hi.resolve_right fun hleaves => hbefore (hleaves.entry _)
    rw [hseq] at hl
    exact publish_noNull hh hi hn hl hf

/-- **What each event does to the pointer**: it names what the event published, or what it named
before. -/
theorem step_read (hh : Housed t w)
    (hn : NoNull w.fs t.here ∨ ∀ s st, w.stores.get? s = some st → st.dir = t.path → st.sync = true)
    (hi : Inside w t e ∨ Leaves t w (step now w e).world)
    (hh' : Housed t (step now w e).world) :
    Current.read (step now w e).world.fs t.path =
      match published? t.path w e (step now w e).answer with
      | some id => .ok id
      | none => Current.read w.fs t.path := by
  cases hp : published? t.path w e (step now w e).answer with
  | none =>
    have hstay := step_current hh hi hp
    exact Current.read_congr (hh.stands.arrives hh.sound) (hh'.stands.arrives hh'.sound)
      hstay.lookup hstay.face (hh.noLink _)
  | some id =>
    obtain ⟨s, st, v, rfl, ha, hst, hd⟩ := published?_eq_some.1 hp
    obtain ⟨hok, hfs⟩ := published_of_answer hst ha
    obtain ⟨hk, hnames⟩ := Store.setManifest_names hh.sound hh.stands hd hh.noLink hh.oneName
      (hn.imp_right fun hsync => hsync s st hst hd) (fun l hl => hh.log s st l hst hd hl) hok
    rw [← hfs] at hnames
    exact hnames.read hh'.sound hh'.stands hk

/-- Every store of the directory of the trail `t` in the run `es` writes back what it stages. -/
def WritesBack (w₀ : World) (t : Trail) (es : List (Clock.Reading × Event)) : Prop :=
  ∀ pre s st, pre <+: es → (w₀.run pre).stores.get? s = some st → st.dir = t.path → st.sync = true

/-- **After every run the pointer names what was published last.** -/
theorem run_read {fs : FileSystem} (hs : fs.Sound) (hl : fs.locked = []) (ht : t.Stands fs)
    (hlink : ∀ n, NoLink fs t.here n) (hone : fs.OneName t.here)
    (hn : NoNull fs t.here ∨ WritesBack (ofFileSystem fs) t es)
    (hr : Reserved (ofFileSystem fs) t es) :
    (NoNull fs t.here → NoNull ((ofFileSystem fs).run es).fs t.here) ∧
      Current.read ((ofFileSystem fs).run es).fs t.path = (ofFileSystem fs).register t.path es := by
  refine run_along (P := fun pre w => (NoNull fs t.here → NoNull w.fs t.here) ∧
    Current.read w.fs t.path = (ofFileSystem fs).register t.path pre) es ⟨id, rfl⟩ ?_
  rintro pre now e hpre ⟨hnull, hread⟩
  have hbefore : pre <+: es := (List.prefix_append _ _).trans hpre
  have hh : Housed t ((ofFileSystem fs).run pre) :=
    run_housed hs hl ht hlink hone (hr.before hbefore)
  have hi := hr pre now e hpre
  refine ⟨fun hfs => step_noNull hh hi (hnull hfs), ?_⟩
  rw [step_read hh (hn.imp hnull fun hsync s st => hsync pre s st hbefore) hi
    (step_housed hh (run_kept hs hl pre) hi), register_concat, hread]

end World

open World

/-- The pointer of the directory of the trail `t` after the run `es`. -/
structure Register (fs : FileSystem) (t : Trail) (es : List (Clock.Reading × Event)) : Prop where
  /-- An open store tells what was published last. -/
  manifest : ∀ s st, ((ofFileSystem fs).run es).stores.get? s = some st → st.dir = t.path →
    st.closed = false →
    st.manifest ((ofFileSystem fs).run es).fs = (ofFileSystem fs).register t.path es
  /-- A publication that is granted then leaves the line for its manifest, and nothing staged. -/
  names : ∀ now s st id v, ((ofFileSystem fs).run es).stores.get? s = some st → st.dir = t.path →
    (step now ((ofFileSystem fs).run es) (.store s (.setManifest id))).answer = .ok v →
    Store.Names t.here (step now ((ofFileSystem fs).run es) (.store s (.setManifest id))).world.fs id

/-- **The pointer names what was published last, after every run.** -/
theorem run_register {es : List (Clock.Reading × Event)} (hs : fs.Sound) (hl : fs.locked = [])
    (ht : t.Stands fs) (hlink : ∀ n, NoLink fs t.here n) (hone : fs.OneName t.here)
    (hn : NoNull fs t.here ∨ WritesBack (ofFileSystem fs) t es)
    (hr : Reserved (ofFileSystem fs) t es) : Register fs t es := by
  obtain ⟨hnull, hread⟩ := run_read hs hl ht hlink hone hn hr
  have hh : Housed t ((ofFileSystem fs).run es) := run_housed hs hl ht hlink hone hr
  refine ⟨fun s st hst hd hc => ?_, fun now s st id v hst hd ha => ?_⟩
  · rw [Store.manifest, if_neg (by simp [hc]), hd]
    exact hread
  · obtain ⟨hok, hfs⟩ := published_of_answer hst ha
    rw [hfs]
    have hquiet := hn.imp hnull fun hsync => hsync es s st (List.prefix_refl _) hst hd
    exact (Store.setManifest_names hh.sound hh.stands hd hh.noLink hh.oneName hquiet
      (fun l hl => hh.log s st l hst hd hl) hok).2

/-- A manifest of `/db` is published, and `/db` closed and opened again. -/
def succession : List (Clock.Reading × Event) :=
  [(⟨⟨0, 0⟩, 0⟩, .openStore 0 { dir := Utf8.encode ['/', 'd', 'b'] }),
    (⟨⟨0, 0⟩, 0⟩, .store 0 (.setManifest ⟨.manifest, 7⟩)),
    (⟨⟨0, 0⟩, 0⟩, .store 0 .close),
    (⟨⟨0, 0⟩, 0⟩, .openStore 1 { dir := Utf8.encode ['/', 'd', 'b'] })]

theorem reserved_succession : Reserved (ofFileSystem .furnished) .toDb succession := by
  refine .cons (Or.inl (.opening (by decide) rfl)) ?_
  refine .cons (Or.inl (.of_dir rfl (by decide))) ?_
  refine .cons (Or.inl (.of_dir rfl (by decide +kernel))) ?_
  exact .cons (Or.inl (.opening (by decide) rfl)) .nil

/-- The second store tells what the first one published. -/
theorem run_register_succession : ∃ st,
    ((ofFileSystem .furnished).run succession).stores.get? 1 = some st ∧
    st.manifest ((ofFileSystem .furnished).run succession).fs = .ok ⟨.manifest, 7⟩ := by
  have hopen : (((ofFileSystem .furnished).run succession).stores.get? 1).map
      (fun st => (st.dir, st.closed)) = some (Trail.toDb.path, false) := by decide +kernel
  obtain ⟨st, hst, hdir⟩ := Option.map_eq_some_iff.1 hopen
  have hlast : (ofFileSystem .furnished).publications Trail.toDb.path succession =
      [⟨.manifest, 7⟩] := by decide +kernel
  have hregister : (ofFileSystem .furnished).register Trail.toDb.path succession =
      .ok ⟨.manifest, 7⟩ := by rw [register, hlast]; rfl
  have hnull : NoNull .furnished Trail.toDb.here := noNull_of_entries (by decide +kernel)
  refine ⟨st, hst, ?_⟩
  rw [← hregister]
  exact (run_register furnished_sound rfl furnished_stands furnished_noLink furnished_oneName
    (Or.inl hnull) reserved_succession).manifest 1 st hst (congrArg Prod.fst hdir)
      (congrArg Prod.snd hdir)

/-- The open store `0` of `/db` does not tell what was published last, though `/db` holds no link and
its entries are changed through its stores alone. -/
structure World.Forgets (fs : FileSystem) (es : List (Clock.Reading × Event)) : Prop where
  sound : fs.Sound
  unlocked : fs.locked = []
  stands : Trail.toDb.Stands fs
  noLink : ∀ n, NoLink fs Trail.toDb.here n
  entries : EntriesReserved (ofFileSystem fs) .toDb es
  forgotten : ¬Register fs .toDb es

/-- A store that tells no manifest has forgotten the one that was published. -/
theorem not_register {es : List (Clock.Reading × Event)} (id : FileId)
    (hst : (((ofFileSystem fs).run es).stores.get? 0).map (fun st =>
      (st.dir, st.closed, (st.manifest ((ofFileSystem fs).run es).fs).toOption)) =
      some (t.path, false, none))
    (hreg : ((ofFileSystem fs).register t.path es).toOption = some id) : ¬Register fs t es := by
  intro h
  obtain ⟨st, hget, htold⟩ := Option.map_eq_some_iff.1 hst
  obtain ⟨hdir, hrest⟩ := Prod.mk.inj htold
  obtain ⟨hclosed, hnone⟩ := Prod.mk.inj hrest
  rw [h.manifest 0 st hget hdir hclosed, hreg] at hnone
  cases hnone

/-- The pointer has the name of a table as well, -/
def FileSystem.mistaken : FileSystem :=
  twinned Current.entry (Utf8.ofText "000001.sst") (Current.line ⟨.manifest, 7⟩)

/-- which is written. -/
def World.overwriting : List (Clock.Reading × Event) :=
  [(⟨⟨0, 0⟩, 0⟩, .openStore 0 { dir := Trail.toDb.path }),
    (⟨⟨0, 0⟩, 0⟩, .store 0 (.createFile 0 ⟨.table, 1⟩))]

/-- `/dev/null` was moved to where a pointer is to be staged, -/
def FileSystem.swallowed : FileSystem :=
  ((ofFileSystem .furnished).run
    [(⟨⟨0, 0⟩, 0⟩, .outside (.rename (Utf8.ofText "/dev/null") (Utf8.ofText "/db/CURRENT.7")))]).fs

/-- and nothing is written back. -/
def World.swallowingLine : List (Clock.Reading × Event) :=
  [(⟨⟨0, 0⟩, 0⟩, .openStore 0 { dir := Trail.toDb.path, syncManifest := false }),
    (⟨⟨0, 0⟩, 0⟩, .store 0 (.setManifest ⟨.manifest, 7⟩))]

/-- The directory is moved while a store is at work. -/
def World.moving : List (Clock.Reading × Event) :=
  [(⟨⟨0, 0⟩, 0⟩, .openStore 0 { dir := Trail.toDb.path }),
    (⟨⟨0, 0⟩, 0⟩, .store 0 (.setManifest ⟨.manifest, 7⟩)),
    (⟨⟨0, 0⟩, 0⟩, .outside (.rename (Utf8.ofText "/db") (Utf8.ofText "/moved")))]

theorem World.reserved_overwriting : Reserved (ofFileSystem .mistaken) .toDb overwriting :=
  .cons (Or.inl (.opening (by decide) rfl)) (.cons (Or.inl (.of_dir rfl (by decide +kernel))) .nil)

theorem World.reserved_swallowingLine : Reserved (ofFileSystem .swallowed) .toDb swallowingLine :=
  .cons (Or.inl (.opening (by decide) rfl)) (.cons (Or.inl (.of_dir rfl (by decide +kernel))) .nil)

theorem World.entriesReserved_moving : EntriesReserved (ofFileSystem .furnished) .toDb moving := by
  refine .cons (Or.inl (.opening (by decide) rfl)) ?_
  refine .cons (Or.inl (.of_dir rfl (by decide +kernel))) ?_
  exact .cons (Or.inr (stays_of_entries (by decide +kernel) (by decide +kernel))) .nil

/-- **In other directories the pointer may forget**: where it is a file with a second name, where a
device takes in the line, and where the directory is moved away. -/
theorem register_forgets :
    (NoNull .mistaken Trail.toDb.here ∧ Reserved (ofFileSystem .mistaken) .toDb overwriting ∧
      Forgets .mistaken overwriting) ∧
    (FileSystem.swallowed.OneName Trail.toDb.here ∧
      Reserved (ofFileSystem .swallowed) .toDb swallowingLine ∧ Forgets .swallowed swallowingLine) ∧
    (FileSystem.furnished.OneName Trail.toDb.here ∧ NoNull .furnished Trail.toDb.here ∧
      Forgets .furnished moving) := by
  have htable : Nameable "000001.sst".toList := nameable_of_name? (rfl : FileId.name? ⟨.table, 1⟩ = _)
  refine ⟨⟨noNull_of_entries (by decide +kernel), reserved_overwriting, ?_⟩,
    ⟨oneName_of_entries (by decide +kernel), reserved_swallowingLine, ?_⟩,
    furnished_oneName, noNull_of_entries (by decide +kernel), ?_⟩
  · exact {
      sound := twinned_sound _ nameable_current.proper nameable_current.length_le htable.proper
        htable.length_le
      unlocked := rfl
      stands := ⟨by decide +kernel, by decide +kernel, trivial⟩
      noLink := noLink_of_entries (by decide +kernel)
      entries := reserved_overwriting.entries
      forgotten := not_register ⟨.manifest, 7⟩ (by decide +kernel) (by decide +kernel) }
  · exact {
      sound := run_sound furnished_sound _
      unlocked := rfl
      stands := ⟨by decide +kernel, by decide +kernel, trivial⟩
      noLink := noLink_of_entries (by decide +kernel)
      entries := reserved_swallowingLine.entries
      forgotten := not_register ⟨.manifest, 7⟩ (by decide +kernel) (by decide +kernel) }
  · exact {
      sound := furnished_sound
      unlocked := rfl
      stands := furnished_stands
      noLink := furnished_noLink
      entries := entriesReserved_moving
      forgotten := not_register ⟨.manifest, 7⟩ (by decide +kernel) (by decide +kernel) }

end EngineDir
