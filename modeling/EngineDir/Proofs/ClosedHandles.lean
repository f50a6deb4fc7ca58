import EngineDir.Proofs.Access
import EngineDir.Proofs.OpenTable

/-!
# Closed handles

A handle that was closed stays as it is until it is dropped, whatever happens to its file and
its store in the meantime. Whatever needs the file is refused, and nothing comes of it; the
handle shares its file's name with whoever opens the file next, but neither its slot in the
table of open files nor its cursor.

* `HandleRequest.needsFile`: what a closed handle refuses. `Handle.shutAnswer`: what it answers.
* `World.step_shut`: **what is asked of it changes nothing at all.**
* `World.step_shut_dropped`: **neither does a drop**, but for the handle itself.
* `World.step_keeps_shut`, `World.run_keeps_shut`: nothing else changes the handle.
* `run_inert`: **a handle that was closed once is inert from then on.**
-/

namespace EngineDir

/-- Whether a handle needs its file for what is asked. It needs none to be dropped, and none to read
exactly no bytes. -/
def HandleRequest.needsFile : HandleRequest → Bool
  | .abandon => false
  | .readExact n => decide (n ≠ 0)
  | .readExactAt _ n => decide (n ≠ 0)
  | _ => true

namespace Handle

variable {fs : FileSystem} {x : Handle}

/-- What a closed handle answers. -/
def shutAnswer (x : Handle) : HandleRequest → Except Failure Value
  | .close => .error (.store .closed)
  | .abandon => .ok .done
  | .readExact n => if n = 0 then .ok (.bytes []) else .error (.io x.closedError)
  | .readExactAt _ n => if n = 0 then .ok (.bytes []) else .error (.io x.closedError)
  | .length => .error (.store (x.ioError "stat" x.closedError))
  | .isEmpty => .error (.store (x.ioError "stat" x.closedError))
  | .sync => .error (.store (x.ioError "sync" x.closedError))
  | _ => .error (.io x.closedError)

/-- It refuses whatever needs the file, and says why. -/
theorem shutAnswer_needsFile {r : HandleRequest} (hr : r.needsFile = true) :
    ∃ f, f ≠ .misnamed ∧ x.shutAnswer r = .error f := by
  cases r with
  | abandon => cases hr
  | readExact n =>
    have hn : n ≠ 0 := of_decide_eq_true hr
    exact ⟨.io x.closedError, by simp, if_neg hn⟩
  | readExactAt pos n =>
    have hn : n ≠ 0 := of_decide_eq_true hr
    exact ⟨.io x.closedError, by simp, if_neg hn⟩
  | _ => exact ⟨_, by simp, rfl⟩

theorem file?_of_none (hx : x.file = none) : x.file? = .error x.closedError := by
  rw [file?, hx]

theorem read_of_none (hx : x.file = none) (n : Nat) : x.read fs n = (.error x.closedError, x) := by
  rw [read, file?_of_none hx]

theorem readExact_of_none (hx : x.file = none) (n : Nat) :
    x.readExact fs n = (if n = 0 then .ok [] else .error x.closedError, x) := by
  rw [readExact, read_of_none hx]
  split <;> rfl

theorem readAt_of_none (hx : x.file = none) (pos n : Nat) :
    x.readAt fs pos n = .error x.closedError := by
  rw [readAt, file?_of_none hx]

theorem readExactAt_of_none (hx : x.file = none) (pos n : Nat) :
    x.readExactAt fs pos n = if n = 0 then .ok [] else .error x.closedError := by
  rw [readExactAt, fill, readAt_of_none hx]

theorem length_of_none (hx : x.file = none) :
    x.length fs = .error (x.ioError "stat" x.closedError) := by
  rw [length, file?_of_none hx]

/-- A closed handle has no cursor that could move. -/
theorem Moved.of_none {x' : Handle} (h : x.Moved x') (hx : x.file = none) : x' = x := by
  obtain ⟨pos, rfl⟩ := h
  obtain ⟨id, path, mode, file⟩ := x
  obtain rfl : file = none := hx
  rfl

theorem shut_of_none (hx : x.file = none) : x.shut = x := by
  obtain ⟨id, path, mode, file⟩ := x
  obtain rfl : file = none := hx
  rfl

end Handle

namespace World

variable {w : World} {now : Clock.Reading} {e : Event} {h s : Nat} {x : Handle} {st : Store}
  {r : HandleRequest} {es : List (Clock.Reading × Event)}

/-! ## What is asked of it -/

/-- A transfer that leaves the handle changes nothing. -/
theorem transferring_same {α : Type} (hh : w.handles.get? h = some ⟨s, x⟩) (f : α → Value)
    (a : Except IoError α) : w.transferring s h f (a, x) = w.answering (ioAnswer f a) := by
  simp only [transferring, withHandle_self hh, answering]

theorem stepHandle_shut (hh : w.handles.get? h = some ⟨s, x⟩) (hs : w.stores.get? s = some st)
    (hx : x.file = none) (hr : r ≠ .abandon) :
    w.stepHandle now h s st x r = w.answering (x.shutAnswer r) := by
  have hfile := Handle.file?_of_none hx
  cases r with
  | abandon => exact absurd rfl hr
  | close =>
    have hclose : x.close w.fs st now = (.refuse w.fs st .closed, x) := by rw [Handle.close, hx]
    simp only [stepHandle, hclose, withHandle_self hh, reacting_refuse _ _ hs, Handle.shutAnswer]
  | seek m =>
    simp only [stepHandle, Handle.seek, hfile, transferring_same hh]
    rfl
  | read n =>
    simp only [stepHandle, Handle.read_of_none hx, transferring_same hh]
    rfl
  | readExact n =>
    simp only [stepHandle, Handle.readExact_of_none hx, transferring_same hh, Handle.shutAnswer]
    split <;> rfl
  | readAll =>
    simp only [stepHandle, Handle.readAll, hfile, transferring_same hh]
    rfl
  | readAt pos n =>
    simp only [stepHandle, Handle.readAt_of_none hx]
    rfl
  | readExactAt pos n =>
    simp only [stepHandle, Handle.readExactAt_of_none hx, Handle.shutAnswer]
    split <;> rfl
  | length =>
    simp only [stepHandle, Handle.length_of_none hx]
    rfl
  | isEmpty =>
    simp only [stepHandle, Handle.isEmpty, Handle.length_of_none hx]
    rfl
  | write bytes =>
    simp only [stepHandle, Handle.write, hfile]
    exact transferring_same hh _ _
  | flush =>
    simp only [stepHandle, Handle.flush, hfile]
    rfl
  | sync =>
    simp only [stepHandle, Handle.syncFile, hfile]
    rfl

/-- **What is asked of a closed handle changes nothing at all**, and the answer does not depend on
what has become of the file. -/
theorem step_shut (hh : w.handles.get? h = some ⟨s, x⟩) (hs : w.stores.get? s = some st)
    (hx : x.file = none) (hr : r ≠ .abandon) (hsuits : r.suits x.mode = true) :
    step now w (.handle h r) = w.answering (x.shutAnswer r) := by
  simp only [step, hh, hs, hsuits, if_true]
  exact stepHandle_shut hh hs hx hr

/-- From `w` to `w'` nothing changed but the handle `h`: no file, the logs among them, no other
handle or its cursor, no table of open files and no count of leaks. -/
structure Unharmed (h : Nat) (w w' : World) : Prop where
  nodes : w'.fs.nodes = w.fs.nodes
  handles : ∀ k, k ≠ h → w'.handles.get? k = w.handles.get? k
  openIds : ∀ k, w'.openIds k = w.openIds k
  leaked : ∀ k, w'.leaked k = w.leaked k

theorem Unharmed.refl (h : Nat) (w : World) : Unharmed h w w :=
  ⟨rfl, fun _ _ => rfl, fun _ => rfl, fun _ => rfl⟩

/-- What goes with the last share in a store holds no contents. -/
theorem nodes_settle (w : World) (s : Nat) : (w.settle s).fs.nodes = w.fs.nodes := by
  rcases w.settle_cases s with he | ⟨st, -, -, he⟩
  · rw [he]
  · rw [he]
    simp only [Store.releaseLock]
    split <;> rfl

theorem step_shut_dropped (hh : w.handles.get? h = some ⟨s, x⟩) (hs : w.stores.get? s = some st)
    (hx : x.file = none) :
    step now w (.handle h .abandon) =
      ({ w with handles := w.handles.erase h }.settle s).answering (.ok .done) := by
  have hdrop : x.abandon w.fs st now =
      { result := .ok (), fs := w.fs, store := st, notes := [] } := by
    rw [Handle.abandon, hx]
  simp only [step, hh, hs, HandleRequest.suits, if_true, stepHandle, hdrop, reacting, withOutcome,
    Table.insert_of_get? hs]
  rfl

/-- **A drop of a closed handle changes nothing else** either. -/
theorem unharmed_dropped (w : World) (h s : Nat) :
    Unharmed h w ({ w with handles := w.handles.erase h }.settle s) where
  nodes := nodes_settle _ s
  handles k hk := by
    rw [handles_settle]
    exact Table.get?_erase_of_ne _ hk
  openIds k := openIds_settle _ s k
  leaked k := leaked_settle _ s k

/-! ## What becomes of it -/

/-- A closed handle stays as it is, unless it is dropped. -/
theorem step_keeps_shut (hh : w.handles.get? h = some ⟨s, x⟩) (hx : x.file = none)
    (he : e ≠ .handle h .abandon) : (step now w e).world.handles.get? h = some ⟨s, x⟩ := by
  have hone : ∀ {s' : Nat} {y : Handle}, w.handles.get? h = some ⟨s', y⟩ → s' = s ∧ y = x := by
    intro s' y hy
    rw [hh] at hy
    cases hy
    exact ⟨rfl, rfl⟩
  cases step_fate now w e h with
  | kept hk => exact hk.trans hh
  | moved _ hy hm hk =>
    obtain ⟨rfl, rfl⟩ := hone hy
    rw [hk, hm.of_none hx]
  | closed _ hy hk =>
    obtain ⟨rfl, rfl⟩ := hone hy
    rw [hk, Handle.shut_of_none hx]
  | dropped hd => exact absurd hd he
  | opened _ _ _ hfree => rw [hh] at hfree; cases hfree
  | created _ _ _ hfree => rw [hh] at hfree; cases hfree

/-- It does so in every run, and its store is known all the while. -/
theorem run_keeps_shut (hh : w.handles.get? h = some ⟨s, x⟩) (hx : x.file = none)
    (hs : ∃ st, w.stores.get? s = some st) (hes : ∀ p ∈ es, p.2 ≠ .handle h .abandon) :
    (w.run es).handles.get? h = some ⟨s, x⟩ ∧ ∃ st, (w.run es).stores.get? s = some st := by
  induction es generalizing w with
  | nil => exact ⟨hh, hs⟩
  | cons p es ih =>
    obtain ⟨now, e⟩ := p
    exact ih (step_keeps_shut hh hx (hes _ List.mem_cons_self)) (move_keeps (step_move now w e) hs)
      fun q hq => hes q (List.mem_cons_of_mem _ hq)

/-- The answer to a close: it was granted, or writing back failed. -/
def Ends (a : Except Failure Value) : Prop :=
  a = .ok .done ∨ ∃ action path cause, a = .error (.store (.io action path cause))

/-- Only a handle that is not closed can be closed; then it is. -/
theorem step_closed (ha : Ends (step now w (.handle h .close)).answer) :
    ∃ s x, w.handles.get? h = some ⟨s, x⟩ ∧ x.isClosed = false ∧
      (step now w (.handle h .close)).world.handles.get? h = some ⟨s, x.shut⟩ ∧
      ∃ st, (step now w (.handle h .close)).world.stores.get? s = some st := by
  have hne : ∀ {f}, (step now w (.handle h .close)).answer = .error f →
      f ≠ .misnamed ∧ f ≠ .store .closed := by
    intro f hf
    rcases ha with hdone | ⟨action, path, cause, herr⟩
    · rw [hdone] at hf
      cases hf
    · rw [herr] at hf
      cases hf
      exact ⟨by simp, by simp⟩
  cases hh : w.handles.get? h with
  | none => exact absurd rfl (hne (f := .misnamed) (by simp only [step, hh]; rfl)).1
  | some y =>
    obtain ⟨s, x⟩ := y
    cases hs : w.stores.get? s with
    | none => exact absurd rfl (hne (f := .misnamed) (by simp only [step, hh, hs]; rfl)).1
    | some st =>
      have hx : x.isClosed = false := by
        cases hf : x.file with
        | some f => exact Handle.isClosed_of_file hf
        | none =>
          have hstep : step now w (.handle h .close) = w.answering (x.shutAnswer .close) :=
            step_shut hh hs hf (by simp) rfl
          exact absurd rfl (hne (f := .store .closed) (by rw [hstep]; rfl)).2
      exact ⟨s, x, rfl, hx, (step_close hh hs hx now).2.1, move_keeps (step_move now w _) ⟨st, hs⟩⟩

end World

/-! ## Closed handles are inert -/

open World

/-- The handle `h`, which is `x`, is inert in the world `w`. -/
structure Inert (w : World) (h : Nat) (x : Handle) : Prop where
  /-- It cannot be closed again. -/
  close : ∀ now, (step now w (.handle h .close)).answer = .error (.store .closed)
  /-- Whatever needs the file fails. -/
  refused : ∀ now r, r.suits x.mode = true → r.needsFile = true →
    ∃ f, f ≠ .misnamed ∧ (step now w (.handle h r)).answer = .error f
  /-- Whatever is asked, nothing comes of it. -/
  nothing : ∀ now r, r ≠ .abandon → (step now w (.handle h r)).world = w
  /-- A drop is granted. -/
  dropped : ∀ now, (step now w (.handle h .abandon)).answer = .ok .done ∧
    (step now w (.handle h .abandon)).world.handles.get? h = none
  /-- Neither that nor anything else does harm to others. -/
  unharmed : ∀ now r, Unharmed h w (step now w (.handle h r)).world
  /-- Nobody is told or warned of anything. -/
  silent : ∀ now r, (step now w (.handle h r)).notes = []

/-- A closed handle is inert. -/
theorem inert_of_none {w : World} {h s : Nat} {x : Handle} {st : Store}
    (hh : w.handles.get? h = some ⟨s, x⟩) (hs : w.stores.get? s = some st) (hx : x.file = none) :
    Inert w h x := by
  -- what the handle cannot be asked, for its mode, changes nothing either
  have hasked : ∀ now r, r ≠ .abandon → ∃ a, step now w (.handle h r) = w.answering a := by
    intro now r hr
    cases hsuits : r.suits x.mode with
    | true => exact ⟨_, step_shut hh hs hx hr hsuits⟩
    | false => exact ⟨_, step_unsuited hh hsuits⟩
  refine ⟨?_, ?_, ?_, ?_, ?_, ?_⟩
  · intro now
    rw [step_shut hh hs hx (by simp) rfl]
    rfl
  · intro now r hsuits hr
    have hne : r ≠ .abandon := by
      rintro rfl
      cases hr
    obtain ⟨f, hf, ha⟩ := Handle.shutAnswer_needsFile (x := x) hr
    exact ⟨f, hf, by rw [step_shut hh hs hx hne hsuits]; exact ha⟩
  · intro now r hr
    obtain ⟨a, ha⟩ := hasked now r hr
    rw [ha]
    rfl
  · intro now
    rw [step_shut_dropped hh hs hx]
    refine ⟨rfl, ?_⟩
    simp only [answering, handles_settle, Table.get?_erase_self]
  · intro now r
    by_cases hr : r = .abandon
    · rw [hr, step_shut_dropped hh hs hx]
      exact unharmed_dropped w h s
    · obtain ⟨a, ha⟩ := hasked now r hr
      rw [ha]
      exact .refl h w
  · intro now r
    by_cases hr : r = .abandon
    · rw [hr, step_shut_dropped hh hs hx]
      rfl
    · obtain ⟨a, ha⟩ := hasked now r hr
      rw [ha]
      rfl

/-- **A handle that was closed once is inert from then on**, whether or not its last bytes could be
written back, and whatever has become of its file, of its store or of other handles. -/
theorem run_inert {w : World} {now : Clock.Reading} {h : Nat} {es : List (Clock.Reading × Event)}
    (hclose : Ends (step now w (.handle h .close)).answer)
    (hes : ∀ p ∈ es, p.2 ≠ .handle h .abandon) :
    ∃ s x, w.handles.get? h = some ⟨s, x⟩ ∧
      ((step now w (.handle h .close)).world.run es).handles.get? h = some ⟨s, x.shut⟩ ∧
      Inert ((step now w (.handle h .close)).world.run es) h x.shut := by
  obtain ⟨s, x, hh, -, hshut, hs⟩ := step_closed hclose
  obtain ⟨hstill, st, hst⟩ := run_keeps_shut hshut rfl hs hes
  exact ⟨s, x, hh, hstill, inert_of_none hstill hst rfl⟩

/-- A table is created whose name is a link to a device, which cannot write back. -/
def unsynced : List (Clock.Reading × Event) :=
  [(⟨⟨0, 0⟩, 0⟩, .openStore 0 { dir := Utf8.encode ['/', 'd', 'b'] }),
    (⟨⟨0, 0⟩, 0⟩, .outside (.makeLink (Utf8.ofText "/dev/null") (Utf8.ofText "/db/000001.sst"))),
    (⟨⟨0, 0⟩, 0⟩, .store 0 (.createFile 0 ⟨.table, 1⟩))]

/-- The table is replaced by another one, which is being written when the store is dropped. -/
def replaced : List (Clock.Reading × Event) :=
  [(⟨⟨1, 0⟩, 0⟩, .store 0 (.removeFile ⟨.table, 1⟩)),
    (⟨⟨1, 0⟩, 0⟩, .store 0 (.createFile 1 ⟨.table, 1⟩)),
    (⟨⟨1, 0⟩, 0⟩, .handle 1 (.write [1, 2])),
    (⟨⟨1, 0⟩, 0⟩, .store 0 .abandon)]

set_option maxRecDepth 2000 in
/-- The first handle, whose close failed, is inert, though the table that it has the name of is open
in the second one, which alone is listed. -/
theorem run_inert_replaced : ∃ w s x,
    w = (step ⟨⟨0, 0⟩, 0⟩ ((ofFileSystem .initial).run unsynced) (.handle 0 .close)).world ∧
    (step ⟨⟨0, 0⟩, 0⟩ ((ofFileSystem .initial).run unsynced) (.handle 0 .close)).answer =
      .error (.store (.io "close" (Utf8.ofText "/db/000001.sst") (.os .invalid))) ∧
    (w.run replaced).handles.get? 0 = some ⟨s, x⟩ ∧ Inert (w.run replaced) 0 x ∧
    (w.run replaced).openIds 0 = [⟨.table, 1⟩] ∧
    ((w.run replaced).handles.get? 1).map (fun y => (y.value.id, y.value.isClosed)) =
      some (⟨.table, 1⟩, false) := by
  have hanswer : (step ⟨⟨0, 0⟩, 0⟩ ((ofFileSystem .initial).run unsynced)
      (.handle 0 .close)).answer =
      .error (.store (.io "close" (Utf8.ofText "/db/000001.sst") (.os .invalid))) := by
    rfl
  have hkeeps : ∀ p ∈ replaced, p.2 ≠ .handle 0 .abandon := by
    intro p hp
    simp only [replaced, List.mem_cons, List.not_mem_nil, or_false] at hp
    rcases hp with rfl | rfl | rfl | rfl <;> simp
  obtain ⟨s, x, -, hstill, hinert⟩ := run_inert (Or.inr ⟨_, _, _, hanswer⟩) hkeeps
  exact ⟨_, s, x.shut, rfl, hanswer, hstill, hinert, by decide +kernel, by decide +kernel⟩

end EngineDir
