import EngineDir.Proofs.Pointer
import EngineDir.Proofs.Reserved

/-!
# A handle pins its file

In a directory that is changed through its own stores alone, and in which nothing has two
names, a handle keeps its file from the moment it is opened until it is closed or dropped:
nobody else writes the file, and nobody unbinds its name or binds it to another one.

* `Handle.Moved.readAt`: a read at a position depends on the bytes of the file alone.
* `World.Pins`: what a handle keeps. `World.step_pins`: **every event leaves that, except
  that the handle is closed or dropped.**
* `run_pinned`: **a handle pins its file in every run.** `pinned_loses`: not so if the file has a
  second name, or if the directory is replaced by another one.
-/

namespace EngineDir

open FileSystem

namespace Handle

variable {fs fs' : FileSystem} {x x' : Handle} {f : OpenFile}

theorem exists_file (h : x.isClosed = false) : ∃ f, x.file = some f := by
  cases hf : x.file with
  | none =>
    rw [isClosed, hf] at h
    cases h
  | some f => exact ⟨f, rfl⟩

/-- What is read at a position depends on the bytes of the file, and on no cursor. -/
theorem Moved.readAt (h : x.Moved x') (hf : x.file = some f)
    (hface : fs'.face? f.node = fs.face? f.node) (pos count : Nat) :
    x'.readAt fs' pos count = x.readAt fs pos count := by
  obtain ⟨p, rfl⟩ := h
  simp only [Handle.readAt, file?, hf, Option.map_some, readNode, readAt_congr hface]

theorem Moved.readExactAt (h : x.Moved x') (hf : x.file = some f)
    (hface : fs'.face? f.node = fs.face? f.node) (pos count : Nat) :
    x'.readExactAt fs' pos count = x.readExactAt fs pos count := by
  have hread : x'.readAt fs' = x.readAt fs :=
    funext fun p => funext fun c => h.readAt hf hface p c
  rw [Handle.readExactAt, Handle.readExactAt, hread]

end Handle

/-- The event writes through the handle `h`. -/
def Event.WritesBy (h : Nat) (e : Event) : Prop := ∃ bytes, e = .handle h (.write bytes)

/-- The event closes or drops the handle `h`. -/
def Event.Ends (h : Nat) (e : Event) : Prop := e = .handle h .close ∨ e = .handle h .abandon

namespace World

variable {w w₁ w₂ : World} {t : Trail} {now : Clock.Reading} {e : Event} {h s : Nat} {st : Store}
  {x : Handle} {f : OpenFile} {own own' : Prop} {es es' : List (Clock.Reading × Event)}

/-- From `w` to `w'` the handle `h` of the store `s`, which is `x` and open on `f` in `w`, keeps its
file. Whether the file was written through the handle itself is `own`. -/
structure Pins (t : Trail) (h s : Nat) (x : Handle) (f : OpenFile) (own : Prop) (w w' : World) :
    Prop where
  /-- It is open on the same node. -/
  handle : ∃ x', w'.handles.get? h = some ⟨s, x'⟩ ∧ x.Moved x'
  /-- The name of the file is bound to that node. -/
  name : ∃ n, x.id.Named n ∧ w.fs.lookup t.here n = some f.node ∧
    w'.fs.lookup t.here n = some f.node
  /-- The bytes are the same. -/
  bytes : x.mode = .reader ∨ ¬own → w'.fs.face? f.node = w.fs.face? f.node

/-- A handle that keeps its file twice keeps it altogether. -/
theorem Pins.trans (h₁ : Pins t h s x f own w w₁) (hf : x.file = some f)
    (h₂ : ∀ x' f', w₁.handles.get? h = some ⟨s, x'⟩ → x'.file = some f' →
      Pins t h s x' f' own' w₁ w₂) : Pins t h s x f (own ∨ own') w w₂ := by
  obtain ⟨x₁, hx₁, hm₁⟩ := h₁.handle
  obtain ⟨f₁, hf₁, hnode⟩ := hm₁.file hf
  have h₂ := h₂ x₁ f₁ hx₁ hf₁
  obtain ⟨x₂, hx₂, hm₂⟩ := h₂.handle
  obtain ⟨n, hn, hl, -⟩ := h₁.name
  obtain ⟨n', hn', -, hl'⟩ := h₂.name
  refine ⟨⟨x₂, hx₂, hm₁.trans hm₂⟩, ⟨n, hn, hl, ?_⟩, fun hm => ?_⟩
  · -- a file has one name
    rw [hm₁.id] at hn'
    obtain ⟨cs, hcs, rfl⟩ := hn
    obtain ⟨cs', hcs', rfl⟩ := hn'
    rw [hcs, Option.some.injEq] at hcs'
    rw [hcs', hl', hnode]
  · rw [← hnode, h₂.bytes (hm.imp (hm₁.mode.trans ·) fun ho h => ho (Or.inr h)), hnode]
    exact h₁.bytes (hm.imp_right fun ho h => ho (Or.inl h))

/-- A handle stays open unless it is closed or dropped. -/
theorem step_handle (hx : w.handles.get? h = some ⟨s, x⟩) (he : ¬e.Ends h) :
    ∃ x', (step now w e).world.handles.get? h = some ⟨s, x'⟩ ∧ x.Moved x' := by
  cases step_fate now w e h with
  | kept hh => exact ⟨x, hh.trans hx, .refl x⟩
  | moved _ hh hm hh' =>
    rw [hx] at hh
    cases hh
    exact ⟨_, hh', hm⟩
  | closed hc => exact absurd (Or.inl hc) he
  | dropped hd => exact absurd (Or.inr hd) he
  | opened _ _ _ hfree => rw [hx] at hfree; cases hfree
  | created _ _ _ hfree => rw [hx] at hfree; cases hfree

/-- The bytes of an open file stay the same, unless they are written through the handle. -/
theorem step_bytes (hh : Housed t w) (hk : Kept w)
    (hi : Inside w t e ∨ Leaves t w (step now w e).world) (hx : w.handles.get? h = some ⟨s, x⟩)
    (hf : x.file = some f) (hst : w.stores.get? s = some st) (hd : st.dir = t.path)
    (hm : x.mode = .reader ∨ ¬e.WritesBy h) :
    (step now w e).world.fs.face? f.node = w.fs.face? f.node := by
  obtain ⟨n, hn, hl⟩ := hh.handle h s x f st hx hf hst hd
  rcases step_stays hh hi n with hstay | htouches
  · exact hstay.face f.node hl
  · -- who writes through a reader is refused
    have hown : e.WritesBy h := htouches.own hh hk hx hf hst hd hn
    have hreader := hm.resolve_right (not_not_intro hown)
    obtain ⟨bytes, rfl⟩ := hown
    rw [step_unsuited hx (by simp [HandleRequest.suits, hreader])]
    rfl

/-- **Every event leaves a handle its file**, except that the handle is closed or dropped. -/
theorem step_pins (hh : Housed t w) (hk : Kept w)
    (hi : Inside w t e ∨ Leaves t w (step now w e).world) (hx : w.handles.get? h = some ⟨s, x⟩)
    (hf : x.file = some f) (hst : w.stores.get? s = some st) (hd : st.dir = t.path)
    (he : ¬e.Ends h) : Pins t h s x f (e.WritesBy h) w (step now w e).world := by
  obtain ⟨n, hn, hl⟩ := hh.handle h s x f st hx hf hst hd
  refine ⟨step_handle hx he, ⟨n, hn, hl, ?_⟩, step_bytes hh hk hi hx hf hst hd⟩
  rw [step_name hh hk hi hx hf hst hd hn, hl]

/-- **A run leaves a handle its file** in which the handle is not closed or dropped. -/
theorem run_pins {fs : FileSystem} (hs : fs.Sound) (hl : fs.locked = []) (ht : t.Stands fs)
    (hlink : ∀ n, NoLink fs t.here n) (hone : fs.OneName t.here)
    (hr : Reserved (ofFileSystem fs) t (es ++ es'))
    (hx : ((ofFileSystem fs).run es).handles.get? h = some ⟨s, x⟩) (hf : x.file = some f)
    (hst : ((ofFileSystem fs).run es).stores.get? s = some st) (hd : st.dir = t.path)
    (hends : ∀ r ∈ es', ¬r.2.Ends h) :
    Pins t h s x f (∃ r ∈ es', r.2.WritesBy h) ((ofFileSystem fs).run es)
        ((ofFileSystem fs).run (es ++ es')) ∧
      ∃ st', ((ofFileSystem fs).run (es ++ es')).stores.get? s = some st' ∧ st'.dir = t.path := by
  have hkept := fun es => run_kept hs hl es
  have hhoused : ∀ pre, pre <+: es ++ es' → Housed t ((ofFileSystem fs).run pre) :=
    fun pre hpre => run_housed hs hl ht hlink hone (hr.before hpre)
  rw [run_append]
  refine run_along (P := fun pre w =>
    Pins t h s x f (∃ r ∈ pre, r.2.WritesBy h) ((ofFileSystem fs).run es) w ∧
      ∃ st', w.stores.get? s = some st' ∧ st'.dir = t.path) es' ?_ ?_
  · obtain ⟨n, hn, hlook⟩ := (hhoused es (List.prefix_append _ _)).handle h s x f st hx hf hst hd
    exact ⟨⟨⟨x, hx, .refl x⟩, ⟨n, hn, hlook, hlook⟩, fun _ => rfl⟩, st, hst, hd⟩
  · rintro pre now e hpre ⟨hpins, st₁, hst₁, hd₁⟩
    have hpre' : es ++ (pre ++ [(now, e)]) <+: es ++ es' := (List.prefix_append_right_inj es).2 hpre
    rw [← List.append_assoc] at hpre'
    rw [← run_append] at hpins hst₁ ⊢
    have hk := hkept (es ++ pre)
    have hh := hhoused (es ++ pre) ((List.prefix_append _ _).trans hpre')
    have he : ¬e.Ends h :=
      hends (now, e) (hpre.subset (List.mem_append_right _ (List.mem_singleton_self _)))
    have hi := hr (es ++ pre) now e hpre'
    have hlast := hpins.trans hf fun x' f' hx' hf' => step_pins hh hk hi hx' hf' hst₁ hd₁ he
    refine ⟨⟨hlast.handle, hlast.name, fun hm => hlast.bytes (hm.imp_right fun ho => ?_)⟩, ?_⟩
    · rintro (⟨r, hr, hw⟩ | hw)
      · exact ho ⟨r, List.mem_append_left _ hr, hw⟩
      · exact ho ⟨(now, e), List.mem_append_right _ (List.mem_singleton_self _), hw⟩
    · -- the store is still there, because the handle is
      obtain ⟨x', hx', hm⟩ := hlast.handle
      obtain ⟨f', hf', -⟩ := hm.file hf
      have hk' := hkept (es ++ pre ++ [(now, e)])
      rw [run_concat] at hk'
      obtain ⟨st', hst'⟩ := hk'.use.store hx' hf'
      exact ⟨st', hst', (step_dir hst₁ hst').trans hd₁⟩

end World

open World

/-- What a handle keeps from the world `w` to the world `w'`, in which it is still open, and what
reads through it answer. -/
structure Pinned (t : Trail) (h s : Nat) (x : Handle) (f : OpenFile) (own : Prop) (w w' : World) :
    Prop where
  pins : Pins t h s x f own w w'
  /-- What a reader reads at a position is what it read there before. -/
  reads : x.mode = .reader → ∀ now now' pos count,
    (step now' w' (.handle h (.readAt pos count))).answer =
      (step now w (.handle h (.readAt pos count))).answer ∧
    (step now' w' (.handle h (.readExactAt pos count))).answer =
      (step now w (.handle h (.readExactAt pos count))).answer

/-- **A handle pins its file in every run.** -/
theorem run_pinned {fs : FileSystem} {t : Trail} {es es' : List (Clock.Reading × Event)} {h s : Nat}
    {x : Handle} {f : OpenFile} {st : Store} (hs : fs.Sound) (hl : fs.locked = [])
    (ht : t.Stands fs) (hlink : ∀ n, NoLink fs t.here n) (hone : fs.OneName t.here)
    (hr : Reserved (ofFileSystem fs) t (es ++ es'))
    (hx : ((ofFileSystem fs).run es).handles.get? h = some ⟨s, x⟩) (hf : x.file = some f)
    (hst : ((ofFileSystem fs).run es).stores.get? s = some st) (hd : st.dir = t.path)
    (hends : ∀ r ∈ es', ¬r.2.Ends h) :
    Pinned t h s x f (∃ r ∈ es', r.2.WritesBy h) ((ofFileSystem fs).run es)
      ((ofFileSystem fs).run (es ++ es')) := by
  obtain ⟨hpins, st', hst', -⟩ := run_pins hs hl ht hlink hone hr hx hf hst hd hends
  refine ⟨hpins, fun hm now now' pos count => ?_⟩
  obtain ⟨x', hx', hmoved⟩ := hpins.handle
  have hface := hpins.bytes (Or.inl hm)
  have hm' : x'.mode = .reader := hmoved.mode.trans hm
  simp [step, hx, hx', hst, hst', stepHandle, HandleRequest.suits, hm, hm', answering,
    hmoved.readAt hf hface, hmoved.readExactAt hf hface]

/-- A table of `/db` is written, and opened for reading. -/
def reading : List (Clock.Reading × Event) :=
  [(⟨⟨0, 0⟩, 0⟩, .openStore 0 { dir := Utf8.encode ['/', 'd', 'b'] }),
    (⟨⟨0, 0⟩, 0⟩, .store 0 (.createFile 0 ⟨.table, 1⟩)),
    (⟨⟨0, 0⟩, 0⟩, .handle 0 (.write [1, 2])),
    (⟨⟨0, 0⟩, 0⟩, .handle 0 .close),
    (⟨⟨0, 0⟩, 0⟩, .store 0 (.openFile 1 ⟨.table, 1⟩))]

/-- Someone tries to remove the table, the store is dropped, and someone tries to open another. -/
def meanwhile : List (Clock.Reading × Event) :=
  [(⟨⟨0, 0⟩, 0⟩, .store 0 (.removeFile ⟨.table, 1⟩)),
    (⟨⟨0, 0⟩, 0⟩, .store 0 .abandon),
    (⟨⟨0, 0⟩, 0⟩, .openStore 1 { dir := Utf8.encode ['/', 'd', 'b'] })]

set_option maxRecDepth 2000 in
theorem reserved_reading : Reserved (ofFileSystem .furnished) .toDb (reading ++ meanwhile) := by
  refine .cons (Or.inl (.opening (by decide) rfl)) ?_
  refine .cons (Or.inl (.of_dir rfl (by decide))) ?_
  refine .cons (Or.inl (.of_dir (s := 0) (by decide +kernel) (by decide +kernel))) ?_
  refine .cons (Or.inl (.of_dir (s := 0) (by decide +kernel) (by decide +kernel))) ?_
  refine .cons (Or.inl (.of_dir rfl (by decide +kernel))) ?_
  refine .cons (Or.inl (.of_dir rfl (by decide +kernel))) ?_
  refine .cons (Or.inl (.of_dir rfl (by decide +kernel))) ?_
  exact .cons (Or.inl (.opening (by decide) rfl)) .nil

/-- The reader keeps the table, and so the lock. -/
theorem run_pinned_reading : ∃ x f,
    ((ofFileSystem .furnished).run reading).handles.get? 1 = some ⟨0, x⟩ ∧ x.file = some f ∧
    Pinned .toDb 1 0 x f (∃ r ∈ meanwhile, r.2.WritesBy 1) ((ofFileSystem .furnished).run reading)
      ((ofFileSystem .furnished).run (reading ++ meanwhile)) := by
  have hreader : (((ofFileSystem .furnished).run reading).handles.get? 1).map
      (fun x => (x.store, x.value.isClosed)) = some (0, false) := by decide +kernel
  obtain ⟨⟨s, x⟩, hx, hsx⟩ := Option.map_eq_some_iff.1 hreader
  obtain rfl : s = 0 := congrArg Prod.fst hsx
  have hopen : x.isClosed = false := congrArg Prod.snd hsx
  have hdir : (((ofFileSystem .furnished).run reading).stores.get? 0).map Store.dir =
      some Trail.toDb.path := by decide +kernel
  obtain ⟨st, hst, hd⟩ := Option.map_eq_some_iff.1 hdir
  obtain ⟨f, hf⟩ := Handle.exists_file hopen
  have hends : ∀ r ∈ meanwhile, ¬r.2.Ends 1 := by
    intro r hr
    simp only [meanwhile, List.mem_cons, List.not_mem_nil, or_false] at hr
    rcases hr with rfl | rfl | rfl <;> simp [Event.Ends]
  exact ⟨x, f, hx, hf, run_pinned furnished_sound rfl furnished_stands furnished_noLink
    furnished_oneName reserved_reading hx hf hst hd hends⟩

/-- In the run `es` the store `0`, opened by the path of the trail `t`, opens the reader `1`, which
nobody closes or drops in `es'`. It does not keep its file, though the directory of the trail holds no
link and its entries are changed through its stores alone. -/
structure World.Unpins (t : Trail) (fs : FileSystem) (es es' : List (Clock.Reading × Event)) :
    Prop where
  sound : fs.Sound
  unlocked : fs.locked = []
  noLink : ∀ n, NoLink fs t.here n
  entries : EntriesReserved (ofFileSystem fs) t (es ++ es')
  stands : t.Stands ((ofFileSystem fs).run es).fs
  kept : ∀ r ∈ es', ¬r.2.Ends 1
  changed : ∃ x f, ((ofFileSystem fs).run es).handles.get? 1 = some ⟨0, x⟩ ∧ x.file = some f ∧
    ¬Pinned t 1 0 x f (∃ r ∈ es', r.2.WritesBy 1) ((ofFileSystem fs).run es)
      ((ofFileSystem fs).run (es ++ es'))

/-- A reader that reads something else later has not kept its file. -/
theorem changed_of_reads {t : Trail} {w w' : World} {own : Prop} {b : Bytes}
    (hx : (w.handles.get? 1).map (fun x => (x.store, x.value.mode, x.value.isClosed)) =
      some (0, .reader, false))
    (hread : (step ⟨⟨0, 0⟩, 0⟩ w (.handle 1 (.readAt 0 b.length))).answer.toOption =
      some (.bytes b))
    (hread' : (step ⟨⟨0, 0⟩, 0⟩ w' (.handle 1 (.readAt 0 b.length))).answer.toOption ≠
      some (.bytes b)) :
    ∃ x f, w.handles.get? 1 = some ⟨0, x⟩ ∧ x.file = some f ∧ ¬Pinned t 1 0 x f own w w' := by
  obtain ⟨⟨s, x⟩, hget, hx⟩ := Option.map_eq_some_iff.1 hx
  obtain ⟨rfl, hrest⟩ := Prod.mk.inj hx
  obtain ⟨hmode, hopen⟩ := Prod.mk.inj hrest
  obtain ⟨f, hf⟩ := Handle.exists_file hopen
  refine ⟨x, f, hget, hf, fun h => hread' ?_⟩
  rw [(h.reads hmode ⟨⟨0, 0⟩, 0⟩ ⟨⟨0, 0⟩, 0⟩ 0 b.length).1]
  exact hread

/-- Two tables of `/db` are one file. -/
def FileSystem.paired : FileSystem :=
  twinned (Utf8.ofText "000001.sst") (Utf8.ofText "000002.sst") [1, 2]

/-- The first one is opened for reading, -/
def World.pairReading : List (Clock.Reading × Event) :=
  [(⟨⟨0, 0⟩, 0⟩, .openStore 0 { dir := Trail.toDb.path }),
    (⟨⟨0, 0⟩, 0⟩, .store 0 (.openFile 1 ⟨.table, 1⟩))]

/-- and the second one is made anew. -/
def World.pairRemaking : List (Clock.Reading × Event) :=
  [(⟨⟨0, 0⟩, 0⟩, .store 0 (.createFile 2 ⟨.table, 2⟩))]

/-- The way to `/eb`, when this has taken the place of `/db`. -/
def Trail.replaced : Trail := [(Utf8.encode ['d', 'b'], root.child 2)]

/-- While a store of `/db` is at work, `/eb` takes the place of `/db`. A table is written there, and
opened for reading through the first store, -/
def World.swapReading : List (Clock.Reading × Event) :=
  [(⟨⟨0, 0⟩, 0⟩, .openStore 0 { dir := Trail.toDb.path }),
    (⟨⟨0, 0⟩, 0⟩, .outside (.rename (Utf8.ofText "/db") (Utf8.ofText "/moved"))),
    (⟨⟨0, 0⟩, 0⟩, .outside (.rename (Utf8.ofText "/eb") (Utf8.ofText "/db"))),
    (⟨⟨0, 0⟩, 0⟩, .openStore 3 { dir := Trail.toDb.path }),
    (⟨⟨0, 0⟩, 0⟩, .store 3 (.createFile 0 ⟨.table, 1⟩)),
    (⟨⟨0, 0⟩, 0⟩, .handle 0 (.write [1, 2])),
    (⟨⟨0, 0⟩, 0⟩, .handle 0 .close),
    (⟨⟨0, 0⟩, 0⟩, .store 0 (.openFile 1 ⟨.table, 1⟩))]

/-- and made anew through the second one. -/
def World.swapRemaking : List (Clock.Reading × Event) :=
  [(⟨⟨0, 0⟩, 0⟩, .store 3 (.createFile 2 ⟨.table, 1⟩))]

theorem World.reserved_pair : Reserved (ofFileSystem .paired) .toDb (pairReading ++ pairRemaking) := by
  refine .cons (Or.inl (.opening (by decide) rfl)) ?_
  refine .cons (Or.inl (.of_dir rfl (by decide +kernel))) ?_
  exact .cons (Or.inl (.of_dir rfl (by decide +kernel))) .nil

theorem World.entriesReserved_swap :
    EntriesReserved (ofFileSystem .duplex) .replaced (swapReading ++ swapRemaking) := by
  -- the first store is one of another directory
  refine .cons (Or.inr (stays_of_entries (by decide +kernel) (by decide +kernel))) ?_
  refine .cons (Or.inr (stays_of_entries (by decide +kernel) (by decide +kernel))) ?_
  refine .cons (Or.inr (stays_of_entries (by decide +kernel) (by decide +kernel))) ?_
  refine .cons (Or.inl (.opening (by decide) rfl)) ?_
  refine .cons (Or.inl (.of_dir rfl (by decide +kernel))) ?_
  refine .cons (Or.inl (.of_dir (s := 3) (by decide +kernel) (by decide +kernel))) ?_
  refine .cons (Or.inl (.of_dir (s := 3) (by decide +kernel) (by decide +kernel))) ?_
  refine .cons (Or.inr (stays_of_entries (by decide +kernel) (by decide +kernel))) ?_
  exact .cons (Or.inl (.of_dir rfl (by decide +kernel))) .nil

/-- **A handle does not pin every file**: not one with a second name, and not one in a directory that
has taken the place of that of the store. -/
theorem pinned_loses :
    (Reserved (ofFileSystem .paired) .toDb (pairReading ++ pairRemaking) ∧
      Unpins .toDb .paired pairReading pairRemaking) ∧
    (FileSystem.duplex.OneName Trail.replaced.here ∧
      Unpins .replaced .duplex swapReading swapRemaking) := by
  have h1 : Nameable "000001.sst".toList :=
    nameable_of_name? (rfl : FileId.name? ⟨.table, 1⟩ = some "000001.sst".toList)
  have h2 : Nameable "000002.sst".toList :=
    nameable_of_name? (rfl : FileId.name? ⟨.table, 2⟩ = some "000002.sst".toList)
  have hends : ∀ s k id, ¬(Event.store s (.createFile k id)).Ends 1 := by simp [Event.Ends]
  refine ⟨⟨reserved_pair, ?_⟩, oneName_of_entries (by decide +kernel), ?_⟩
  · exact {
      sound := twinned_sound _ h1.proper h1.length_le h2.proper h2.length_le
      unlocked := rfl
      noLink := noLink_of_entries (by decide +kernel)
      entries := reserved_pair.entries
      stands := ⟨by decide +kernel, by decide +kernel, trivial⟩
      kept := by simp [pairRemaking, hends]
      changed := changed_of_reads (b := [1, 2]) (by decide +kernel) (by decide +kernel)
        (by decide +kernel) }
  · exact {
      sound := duplex_sound
      unlocked := rfl
      noLink := noLink_of_entries (by decide +kernel)
      entries := entriesReserved_swap
      stands := ⟨by decide +kernel, by decide +kernel, trivial⟩
      kept := by simp [swapRemaking, hends]
      changed := changed_of_reads (b := [1, 2]) (by decide +kernel) (by decide +kernel)
        (by decide +kernel) }

end EngineDir
