import EngineDir.Proofs.Reserved

/-!
# The shelf

The files of a directory as a map from files to bytes, with the cursors of those who
write. The map changes by what events answer, and by nothing else: it knows neither names
nor nodes, neither stores nor locks.

* `Shelf`, `Shelf.note`: the map, and what an answer does to it.
* `World.shelf`: the map of a directory in a world.
* `World.step_write`, `World.step_seek`: what a writer does.
* `World.step_cursor`: **the cursors of a directory are those of the map.**
-/

namespace EngineDir

open FileSystem

/-- What files hold, and the handles that write, each with its file and its cursor. -/
structure Shelf where
  bytes : FileId → Option Bytes
  cursor : Nat → Option (FileId × Nat)

namespace Shelf

/-- Nothing is there. -/
def empty : Shelf := ⟨fun _ => none, fun _ => none⟩

/-- The file `id` holds `b`, or is gone. -/
def put (m : Shelf) (id : FileId) (b : Option Bytes) : Shelf :=
  { m with bytes := fun i => if i = id then b else m.bytes i }

/-- The handle `h` is at `c`, or writes no more. -/
def point (m : Shelf) (h : Nat) (c : Option (FileId × Nat)) : Shelf :=
  { m with cursor := fun k => if k = h then c else m.cursor k }

/-- Bytes are written at the cursor of the handle `h`, zeros filling a gap. Nothing comes of no
bytes. -/
def written (m : Shelf) (h : Nat) (new : Bytes) : Shelf :=
  match m.cursor h with
  | none => m
  | some (id, pos) =>
    if new = [] then m
    else
      (m.put id (some (overlay ((m.bytes id).getD []) pos new))).point h
        (some (id, pos + new.length))

/-- Where a movement from `pos` ends in a file of `size` bytes. -/
def goal (size pos : Nat) : Movement → Int
  | .toStart off => off
  | .byCurrent off => pos + off
  | .byEnd off => size + off

/-- The cursor of the handle `h` moves. -/
def sought (m : Shelf) (h : Nat) (mv : Movement) : Shelf :=
  match m.cursor h with
  | none => m
  | some (id, pos) =>
    m.point h (some (id, (goal ((m.bytes id).getD []).length pos mv).toNat))

/-- What an event with the answer `a` does to the map. The stores of the directory are those of which
`here` is true. Of what a writer is given as many bytes count as it says. -/
def note (m : Shelf) (here : Nat → Bool) : Event → Except Failure Value → Shelf
  | .store s (.createFile h id), .ok _ =>
    if here s = true then (m.put id (some [])).point h (some (id, 0)) else m
  | .store s (.removeFile id), .ok _ => if here s = true then m.put id none else m
  | .handle h (.write new), .ok (.count n) => m.written h (new.take n)
  | .handle h (.seek mv), .ok _ => m.sought h mv
  | .handle h .close, _ => m.point h none
  | .handle h .abandon, _ => m.point h none
  | _, _ => m

variable {m : Shelf} {here : Nat → Bool} {e : Event} {a : Except Failure Value} {h k : Nat}
  {id : FileId} {r : HandleRequest}

@[simp] theorem put_bytes {i : FileId} {b : Option Bytes} :
    (m.put id b).bytes i = if i = id then b else m.bytes i := rfl

@[simp] theorem put_cursor {b : Option Bytes} : (m.put id b).cursor = m.cursor := rfl

@[simp] theorem point_bytes {c : Option (FileId × Nat)} : (m.point h c).bytes = m.bytes := rfl

@[simp] theorem point_cursor {c : Option (FileId × Nat)} :
    (m.point h c).cursor k = if k = h then c else m.cursor k := rfl

theorem written_cursor_of_ne (hk : k ≠ h) (new : Bytes) :
    (m.written h new).cursor k = m.cursor k := by
  unfold written
  split
  · rfl
  · split
    · rfl
    · exact if_neg hk

theorem sought_cursor_of_ne (hk : k ≠ h) (mv : Movement) :
    (m.sought h mv).cursor k = m.cursor k := by
  unfold sought
  split
  · rfl
  · exact if_neg hk

/-- A cursor is moved through its own handle, and set when a file is created. -/
theorem note_cursor_other (hcreate : ∀ s id, e ≠ .store s (.createFile k id))
    (hhandle : ∀ r, e ≠ .handle k r) : (m.note here e a).cursor k = m.cursor k := by
  have hne : ∀ {h r}, e = .handle h r → k ≠ h := fun he hk => hhandle _ (hk ▸ he)
  unfold note
  split
  · rename_i s h id v
    split
    · have hk : k ≠ h := fun hk => hcreate s id (by rw [hk])
      rw [point_cursor, if_neg hk, put_cursor]
    · rfl
  · split <;> rfl
  · exact written_cursor_of_ne (hne rfl) _
  · exact sought_cursor_of_ne (hne rfl) _
  · rw [point_cursor, if_neg (hne rfl)]
  · rw [point_cursor, if_neg (hne rfl)]
  · rfl

/-- Who does not write gets no cursor. -/
theorem note_cursor_none (hk : m.cursor k = none) :
    (m.note here (.handle k r) a).cursor k = none := by
  unfold note
  split
  · rename_i he
    cases he
  · rename_i he
    cases he
  · rename_i he
    cases he
    simp [written, hk]
  · rename_i he
    cases he
    simp [sought, hk]
  · exact if_pos (by rename_i he; cases he; rfl)
  · exact if_pos (by rename_i he; cases he; rfl)
  · exact hk

/-- A file changes when it is created, removed or written. -/
theorem note_bytes_other
    (hcreate : ∀ s h v, e = .store s (.createFile h id) → here s = true → a ≠ .ok v)
    (hremove : ∀ s v, e = .store s (.removeFile id) → here s = true → a ≠ .ok v)
    (hwrite : ∀ h new pos v, e = .handle h (.write new) → a = .ok v → new ≠ [] →
      m.cursor h ≠ some (id, pos)) : (m.note here e a).bytes id = m.bytes id := by
  unfold note
  split
  · rename_i s h id' v
    split
    · rename_i hs
      have hid : id ≠ id' := fun hid => hcreate s h v (by rw [hid]) hs rfl
      rw [point_bytes, put_bytes, if_neg hid]
    · rfl
  · rename_i s id' v
    split
    · rename_i hs
      have hid : id ≠ id' := fun hid => hremove s v (by rw [hid]) hs rfl
      rw [put_bytes, if_neg hid]
    · rfl
  · rename_i h new n
    unfold written
    split
    · rfl
    · rename_i id' pos hc
      split
      · rfl
      · rename_i hnew
        have hsome : new ≠ [] := by
          rintro rfl
          exact hnew List.take_nil
        have hid : id ≠ id' := fun hid => hwrite h new pos _ rfl rfl hsome (by rw [hc, hid])
        rw [point_bytes, put_bytes, if_neg hid]
  · unfold sought
    split <;> rfl
  · rfl
  · rfl
  · rfl

end Shelf

/-! ## What the files hold -/

/-- A single write takes bytes from the first one on. -/
theorem FileSystem.accepted_eq_take (fs : FileSystem) (i : NodeId) (pos : Nat) (new : Bytes) :
    ∃ n, n ≤ new.length ∧ fs.accepted i pos new = new.take n := by
  have hall : ∃ n, n ≤ new.length ∧ new = new.take n :=
    ⟨new.length, Nat.le_refl _, List.take_length.symm⟩
  unfold accepted
  split
  · rename_i limit _ _
    split
    · exact hall
    · exact ⟨min (limit - pos) new.length, Nat.min_le_right _ _, List.take_eq_take_min⟩
  · exact hall

/-- What the file `id` of the directory `D` holds. -/
def FileSystem.stored? (fs : FileSystem) (D : NodeId) (id : FileId) : Option Bytes :=
  match id.name? with
  | none => none
  | some cs =>
    match fs.lookup D (Utf8.encode cs) with
    | none => none
    | some i =>
      match fs.face? i with
      | some (.file b) => some b
      | _ => none

/-- Every entry of the directory `D` is a file. -/
def AllFiles (fs : FileSystem) (D : NodeId) : Prop :=
  ∀ n i, fs.lookup D n = some i → ∃ b, fs.face? i = some (.file b)

namespace FileSystem

variable {fs fs' : FileSystem} {D : NodeId} {id : FileId} {n : Bytes} {b : Bytes}

theorem stored?_eq_some : fs.stored? D id = some b ↔
    ∃ n i, id.Named n ∧ fs.lookup D n = some i ∧ fs.face? i = some (.file b) := by
  unfold stored?
  constructor
  · intro h
    split at h
    · cases h
    · rename_i cs hcs
      split at h
      · cases h
      · rename_i i hi
        split at h
        · rename_i b' hf
          cases h
          exact ⟨_, i, ⟨cs, hcs, rfl⟩, hi, hf⟩
        · cases h
  · rintro ⟨n, i, ⟨cs, hcs, rfl⟩, hl, hf⟩
    simp [hcs, hl, hf]

theorem stored?_of_unbound (hn : id.Named n) (hl : fs.lookup D n = none) :
    fs.stored? D id = none := by
  obtain ⟨cs, hcs, rfl⟩ := hn
  simp [stored?, hcs, hl]

/-- An entry that stays holds what it held. -/
theorem stored?_of_stays (h : ∀ n, id.Named n → Stays D n fs fs') :
    fs'.stored? D id = fs.stored? D id := by
  unfold stored?
  cases hcs : id.name? with
  | none => rfl
  | some cs =>
    have hst := h _ ⟨cs, hcs, rfl⟩
    simp only [hst.lookup]
    cases hl : fs.lookup D (Utf8.encode cs) with
    | none => rfl
    | some i => simp only [hst.face i hl]

end FileSystem

/-- What is opened is opened for reading. -/
theorem Store.openFile_reader {fs : FileSystem} {st : Store} {id : FileId} {x : Handle}
    (hx : (st.openFile fs id).result = .ok x) : x.mode = .reader := by
  revert hx
  unfold openFile
  split
  · intro hx
    cases hx
  · simp only
    split
    · intro hx
      cases hx
    · intro hx
      cases hx
      rfl

namespace World

variable {w : World} {t : Trail} {now : Clock.Reading} {e : Event} {s h k : Nat} {st : Store}
  {x : Handle} {f : OpenFile} {b new : Bytes} {dir : Bytes} {id : FileId}

/-- The file and the cursor of the handle `h`, if it is open for writing in the directory with the
path `dir`. -/
def writer? (w : World) (dir : Bytes) (h : Nat) : Option (FileId × Nat) :=
  match w.handles.get? h with
  | none => none
  | some ⟨s, x⟩ =>
    match x.file with
    | none => none
    | some f => if x.mode = .writer ∧ w.isAt dir s = true then some (x.id, f.pos) else none

/-- The map of the directory of the trail `t`. -/
def shelf (w : World) (t : Trail) : Shelf := ⟨w.fs.stored? t.here, w.writer? t.path⟩

theorem writer?_of_free (hh : w.handles.get? h = none) : w.writer? dir h = none := by
  simp [writer?, hh]

theorem writer?_of_closed (hh : w.handles.get? h = some ⟨s, x⟩) (hf : x.file = none) :
    w.writer? dir h = none := by
  simp [writer?, hh, hf]

theorem writer?_of_open (hh : w.handles.get? h = some ⟨s, x⟩) (hf : x.file = some f) :
    w.writer? dir h =
      if x.mode = .writer ∧ w.isAt dir s = true then some (x.id, f.pos) else none := by
  simp [writer?, hh, hf]

theorem writer?_eq_some {pos : Nat} : w.writer? dir h = some (id, pos) ↔
    ∃ s x f, w.handles.get? h = some ⟨s, x⟩ ∧ x.file = some f ∧ x.mode = .writer ∧
      w.isAt dir s = true ∧ x.id = id ∧ f.pos = pos := by
  constructor
  · intro h'
    unfold writer? at h'
    split at h'
    · cases h'
    · rename_i s x hx
      split at h'
      · cases h'
      · rename_i f hf
        split at h'
        · rename_i hm
          cases h'
          exact ⟨s, x, f, hx, hf, hm.1, hm.2, rfl, rfl⟩
        · cases h'
  · rintro ⟨s, x, f, hx, hf, hm, hat, rfl, rfl⟩
    rw [writer?_of_open hx hf, if_pos ⟨hm, hat⟩]

/-! ## What a writer does -/

/-- What comes of a write of `new` through the handle `h` of the store `s`, which is `x` and open on
the file `f` with the bytes `b`: the first `n` bytes are written. -/
inductive Writes (w : World) (h s : Nat) (x : Handle) (f : OpenFile) (b new : Bytes) (r : Reaction) :
    Prop
  | refused {err : Failure} (ha : r.answer = .error err) (hfs : r.world.fs = w.fs)
      (hh : r.world.handles.get? h = some ⟨s, x⟩)
  | granted {n : Nat} (hn : n ≤ new.length) (hlt : f.pos + n < positionLimit)
      (ha : r.answer = .ok (.count n))
      (hfs : r.world.fs = if new.take n = [] then w.fs
        else (Change.fill f.node (overlay b f.pos (new.take n))).apply w.fs)
      (hh : r.world.handles.get? h =
        some ⟨s, { x with file := some { f with pos := f.pos + n } }⟩)

theorem step_write (hx : w.handles.get? h = some ⟨s, x⟩) (hst : w.stores.get? s = some st)
    (hm : x.mode = .writer) (hf : x.file = some f) (hface : w.fs.face? f.node = some (.file b))
    (new : Bytes) : Writes w h s x f b new (step now w (.handle h (.write new))) := by
  have hnode : w.fs.node? f.node = some (.file b) := face?_file.1 hface
  have hstep : step now w (.handle h (.write new)) = w.stepHandle now h s st x (.write new) := by
    simp [step, hx, hst, HandleRequest.suits, hm]
  have hfile : x.file? = .ok f := by simp [Handle.file?, hf]
  obtain ⟨n, hn, hpart⟩ := accepted_eq_take w.fs f.node f.pos new
  have hlen : (new.take n).length = n := by rw [List.length_take, Nat.min_eq_left hn]
  have hmoved : x.advanced w.fs f n = { x with file := some { f with pos := f.pos + n } } := by
    simp only [Handle.advanced, FileSystem.advance, hnode]
  rw [hstep, stepHandle, Handle.write, hfile]
  simp only [hpart, FileSystem.writeAt, hnode, hlen, hmoved]
  by_cases hlt : positionLimit ≤ f.pos + n
  · rw [if_pos hlt]
    exact .refused rfl rfl (Table.get?_insert_self _ _ _)
  rw [if_neg hlt]
  by_cases hnew : new.take n = []
  · rw [if_pos hnew]
    exact .granted hn (Nat.lt_of_not_le hlt) rfl (if_pos hnew).symm
      (Table.get?_insert_self _ _ _)
  · rw [if_neg hnew]
    by_cases hroom : w.fs.hasRoom f.node (f.pos + n) = true
    · rw [if_pos hroom]
      exact .granted hn (Nat.lt_of_not_le hlt) rfl (if_neg hnew).symm
        (Table.get?_insert_self _ _ _)
    · rw [if_neg hroom]
      exact .refused rfl rfl (Table.get?_insert_self _ _ _)

/-- What comes of a movement of the cursor of the handle `h`. -/
inductive Seeks (w : World) (h s : Nat) (x : Handle) (f : OpenFile) (b : Bytes) (mv : Movement)
    (r : Reaction) : Prop
  | refused {err : Failure} (ha : r.answer = .error err) (hh : r.world.handles.get? h = some ⟨s, x⟩)
  | granted {pos : Nat} (ha : r.answer = .ok (.count pos))
      (hpos : pos = (Shelf.goal b.length f.pos mv).toNat)
      (hh : r.world.handles.get? h = some ⟨s, { x with file := some { f with pos := pos } }⟩)

theorem step_seek (hx : w.handles.get? h = some ⟨s, x⟩) (hst : w.stores.get? s = some st)
    (hf : x.file = some f) (hface : w.fs.face? f.node = some (.file b)) (mv : Movement) :
    Seeks w h s x f b mv (step now w (.handle h (.seek mv))) := by
  have hnode : w.fs.node? f.node = some (.file b) := face?_file.1 hface
  have hstep : step now w (.handle h (.seek mv)) = w.stepHandle now h s st x (.seek mv) := by
    simp [step, hx, hst, HandleRequest.suits]
  have hfile : x.file? = .ok f := by simp [Handle.file?, hf]
  have hend : w.fs.endOf f.node = b.length := by
    have hdir : w.fs.isDirectory f.node = false := isDirectory_of_file hface
    simp [FileSystem.endOf, hdir, FileSystem.size, hnode]
  have hgoal : w.fs.seek f mv =
      if 0 ≤ Shelf.goal b.length f.pos mv ∧ Shelf.goal b.length f.pos mv < positionLimit then
        .ok (Shelf.goal b.length f.pos mv).toNat else .error .invalid := by
    simp only [FileSystem.seek, hnode, hend]
    cases mv <;> rfl
  rw [hstep, stepHandle, Handle.seek, hfile]
  simp only [hgoal]
  by_cases hin : 0 ≤ Shelf.goal b.length f.pos mv ∧ Shelf.goal b.length f.pos mv < positionLimit
  · rw [if_pos hin]
    exact .granted rfl rfl (Table.get?_insert_self _ _ _)
  · rw [if_neg hin]
    exact .refused rfl (Table.get?_insert_self _ _ _)

/-- What comes of creating the file `id` with the handle `h` of the store `s`. -/
inductive Creates (w : World) (s h : Nat) (id : FileId) (r : Reaction) : Prop
  | refused {err : Failure} (ha : r.answer = .error err)
      (hh : r.world.handles.get? h = w.handles.get? h)
  | granted {st : Store} {x : Handle} (hst : w.stores.get? s = some st) (ha : r.answer = .ok .done)
      (hfree : w.handles.get? h = none) (hx : (st.createFile w.fs id).result = .ok x)
      (hfs : r.world.fs = (st.createFile w.fs id).fs)
      (hh : r.world.handles.get? h = some ⟨s, x⟩)

theorem step_create (s h : Nat) (id : FileId) :
    Creates w s h id (step now w (.store s (.createFile h id))) := by
  cases hst : w.stores.get? s with
  | none =>
    simp only [step, hst]
    exact .refused rfl rfl
  | some st =>
    rw [step_store_owned hst]
    by_cases ho : st.owned = true
    · rw [if_pos ho]
      simp only [stepStore]
      by_cases hc : w.handles.contains h = true
      · rw [if_pos hc]
        exact .refused rfl rfl
      · rw [if_neg hc]
        cases hr : (st.createFile w.fs id).result with
        | error err =>
          simp only [receiving, hr]
          have ha : (w.reacting s (fun _ => .done) (st.createFile w.fs id)).answer =
              .error (.store err) := by rw [reacting, hr]; rfl
          exact .refused ha rfl
        | ok x =>
          simp only [receiving, hr]
          exact .granted hst rfl (not_contains hc) hr rfl (Table.get?_insert_self _ _ _)
    · rw [if_neg ho]
      exact .refused rfl rfl

/-! ## Cursors -/

/-- A handle that stays as it is keeps its cursor. -/
theorem writer?_kept (hk : Kept w) (hk' : Kept (step now w e).world)
    (hh : (step now w e).world.handles.get? h = w.handles.get? h) :
    (step now w e).world.writer? dir h = w.writer? dir h := by
  cases hx : w.handles.get? h with
  | none => rw [writer?_of_free hx, writer?_of_free (hh.trans hx)]
  | some share =>
    obtain ⟨s, x⟩ := share
    cases hf : x.file with
    | none => rw [writer?_of_closed hx hf, writer?_of_closed (hh.trans hx) hf]
    | some f =>
      obtain ⟨st, hst⟩ := hk.use.store hx hf
      obtain ⟨st', hst'⟩ := hk'.use.store (hh.trans hx) hf
      rw [writer?_of_open hx hf, writer?_of_open (hh.trans hx) hf, step_isAt dir hst hst']

/-- A handle that is open for writing stays in its directory. -/
theorem writer?_moved {x' : Handle} {f' : OpenFile} (hk : Kept w)
    (hk' : Kept (step now w e).world) (hx : w.handles.get? h = some ⟨s, x⟩) (hf : x.file = some f)
    (hx' : (step now w e).world.handles.get? h = some ⟨s, x'⟩) (hf' : x'.file = some f')
    (hm : x'.mode = x.mode) :
    (step now w e).world.writer? dir h =
      if x.mode = .writer ∧ w.isAt dir s = true then some (x'.id, f'.pos) else none := by
  obtain ⟨st, hst⟩ := hk.use.store hx hf
  obtain ⟨st', hst'⟩ := hk'.use.store hx' hf'
  rw [writer?_of_open hx' hf', hm, step_isAt dir hst hst']

/-- Who does not write does not begin to. -/
theorem writer?_none (hk : Kept w) (hk' : Kept (step now w e).world)
    (hcreate : ∀ s id, e ≠ .store s (.createFile h id)) (hh : w.writer? dir h = none) :
    (step now w e).world.writer? dir h = none := by
  cases step_fate now w e h with
  | kept hkept => rw [writer?_kept hk hk' hkept, hh]
  | moved _ hx hm hx' =>
    rename_i r s x x' he
    cases hf : x.file with
    | none =>
      have hnode := hm.node
      rw [hf, Option.map_none, Option.map_eq_none_iff] at hnode
      exact writer?_of_closed hx' hnode
    | some f =>
      obtain ⟨f', hf', -⟩ := hm.file hf
      rw [writer?_of_open hx hf] at hh
      rw [writer?_moved hk hk' hx hf hx' hf' hm.mode]
      split at hh
      · cases hh
      · rename_i hno
        exact if_neg hno
  | closed _ _ hx' => exact writer?_of_closed hx' rfl
  | dropped _ hx' => exact writer?_of_free hx'
  | opened he hs ho hfree hx hfs hx' =>
    rename_i s st id x
    obtain ⟨f, hf⟩ | hf : (∃ f, x.file = some f) ∨ x.file = none := by
      cases x.file <;> simp
    · rw [writer?_of_open hx' hf]
      refine if_neg fun hm => ?_
      rw [Store.openFile_reader hx] at hm
      cases hm.1
    · exact writer?_of_closed hx' hf
  | created he => exact absurd he (hcreate _ _)

/-- A writer that is closed or dropped writes no more. -/
theorem step_ended (hx : w.handles.get? h = some ⟨s, x⟩) (hst : w.stores.get? s = some st)
    (hf : x.file = some f) :
    (step now w (.handle h .close)).world.writer? dir h = none ∧
      (step now w (.handle h .abandon)).world.writer? dir h = none := by
  constructor
  · refine writer?_of_closed (s := s) (x := x.shut) ?_ rfl
    simp only [step, hx, hst, HandleRequest.suits, if_true, stepHandle]
    rcases x.close_cases st w.fs now with ⟨hc, -⟩ | ⟨-, hshut, -⟩
    · rw [Handle.isClosed_of_file hf] at hc
      cases hc
    · rw [hshut]
      exact Table.get?_insert_self _ _ _
  · refine writer?_of_free ?_
    simp only [step, hx, hst, HandleRequest.suits, if_true, stepHandle, handles_settle]
    exact Table.get?_erase_self _ _

/-- What a writer does to its cursor. -/
theorem step_cursor_writer (hh : Housed t w) (hk : Kept w) {r : HandleRequest}
    (hk' : Kept (step now w (.handle h r)).world) (hfiles : AllFiles w.fs t.here)
    (hx : w.handles.get? h = some ⟨s, x⟩) (hf : x.file = some f) (hm : x.mode = .writer)
    (hat : w.isAt t.path s = true) :
    (step now w (.handle h r)).world.writer? t.path h =
      ((w.shelf t).note (w.isAt t.path) (.handle h r) (step now w (.handle h r)).answer).cursor
        h := by
  have hcursor : (w.shelf t).cursor h = some (x.id, f.pos) :=
    writer?_eq_some.2 ⟨s, x, f, hx, hf, hm, hat, rfl, rfl⟩
  obtain ⟨st, hst, hd⟩ := isAt_iff.1 hat
  obtain ⟨n, hn, hl⟩ := hh.handle h s x f st hx hf hst hd
  obtain ⟨b, hb⟩ := hfiles n f.node hl
  have hbytes : (w.shelf t).bytes x.id = some b := stored?_eq_some.2 ⟨n, f.node, hn, hl, hb⟩
  have hkept : (step now w (.handle h r)).world.handles.get? h = some ⟨s, x⟩ →
      (step now w (.handle h r)).world.writer? t.path h = some (x.id, f.pos) :=
    fun he => (writer?_kept hk hk' (he.trans hx.symm)).trans hcursor
  have hmoved : ∀ pos, (step now w (.handle h r)).world.handles.get? h =
      some ⟨s, { x with file := some { f with pos := pos } }⟩ →
      (step now w (.handle h r)).world.writer? t.path h = some (x.id, pos) :=
    fun pos he => (writer?_moved hk hk' hx hf he rfl rfl).trans (if_pos ⟨hm, hat⟩)
  cases r with
  | close => rw [(step_ended hx hst hf).1]; exact (if_pos rfl).symm
  | abandon => rw [(step_ended hx hst hf).2]; exact (if_pos rfl).symm
  | write new =>
    cases step_write hx hst hm hf hb new with
    | refused ha hfs he => rw [ha, hkept he]; exact hcursor.symm
    | @granted n hn hlt ha hfs he =>
      have hlen : (new.take n).length = n := by rw [List.length_take, Nat.min_eq_left hn]
      rw [ha, hmoved _ he]
      simp only [Shelf.note, Shelf.written, hcursor]
      by_cases hnew : new.take n = []
      · rw [hnew] at hlen
        rw [if_pos hnew, hcursor, ← hlen]
        rfl
      · rw [if_neg hnew, Shelf.point_cursor, if_pos rfl, hlen]
  | seek mv =>
    cases step_seek hx hst hf hb mv with
    | refused ha he => rw [ha, hkept he]; exact hcursor.symm
    | granted ha hpos he =>
      rw [ha, hmoved _ he, hpos]
      simp only [Shelf.note, Shelf.sought, hcursor, hbytes, Shelf.point_cursor, if_true]
      rfl
  | _ =>
    -- whatever else is asked of a writer leaves the world
    refine (hkept ?_).trans hcursor.symm
    simp [step, hx, hst, HandleRequest.suits, hm, stepHandle, answering]

/-- **The cursors of a directory are those of the map.** -/
theorem step_cursor (hh : Housed t w) (hk : Kept w) (hk' : Kept (step now w e).world)
    (hfiles : AllFiles w.fs t.here) (k : Nat) :
    (step now w e).world.writer? t.path k =
      ((w.shelf t).note (w.isAt t.path) e (step now w e).answer).cursor k := by
  by_cases hcreate : ∃ s id, e = .store s (.createFile k id)
  · obtain ⟨s, id, rfl⟩ := hcreate
    cases step_create s k id with
    | refused ha hkept =>
      rw [ha]
      exact writer?_kept hk hk' hkept
    | granted hst ha hfree hx hfs hx' =>
      obtain ⟨cs, i, -, -, -, rfl⟩ := Store.createFile_ok hx
      obtain ⟨st', hst'⟩ := hk'.use.store hx' rfl
      rw [ha, writer?_of_open hx' rfl, step_isAt t.path hst hst']
      by_cases hat : w.isAt t.path s = true
      · rw [if_pos ⟨rfl, hat⟩]
        simp [Shelf.note, hat]
      · rw [if_neg fun h => hat h.2]
        simp only [Shelf.note, if_neg hat]
        exact (writer?_of_free hfree).symm
  have hcreate' : ∀ s id, e ≠ .store s (.createFile k id) := fun s id he => hcreate ⟨s, id, he⟩
  by_cases hhandle : ∃ r, e = .handle k r
  · obtain ⟨r, rfl⟩ := hhandle
    cases hw : w.writer? t.path k with
    | none => rw [writer?_none hk hk' hcreate' hw, Shelf.note_cursor_none hw]
    | some c =>
      obtain ⟨s, x, f, hx, hf, hm, hat, -⟩ := writer?_eq_some.1 hw
      exact step_cursor_writer hh hk hk' hfiles hx hf hm hat
  · have hhandle' : ∀ r, e ≠ .handle k r := fun r he => hhandle ⟨r, he⟩
    rw [Shelf.note_cursor_other hcreate' hhandle']
    cases step_fate now w e k with
    | kept hkept => exact writer?_kept hk hk' hkept
    | moved he => exact absurd he (hhandle' _)
    | closed he => exact absurd he (hhandle' _)
    | dropped he => exact absurd he (hhandle' _)
    | opened _ _ _ hfree =>
      have hnone : w.writer? t.path k = none := writer?_of_free hfree
      exact (writer?_none hk hk' hcreate' hnone).trans hnone.symm
    | created he => exact absurd he (hcreate' _ _)

end World

end EngineDir
