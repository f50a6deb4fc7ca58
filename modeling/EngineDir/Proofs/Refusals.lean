import EngineDir.Proofs.Access
import EngineDir.Proofs.InUse

/-!
# Refusals

A store looks at itself before it looks at the file system: whether it is closed, whether
the file is of a kind that it handles, and whether the file or the turn is taken. What it
refuses then leaves everything as it is.

* `Store.refusal?`: why a request is refused, by the first reason that applies.
* `World.stepStore_refused`, `World.stepStore_error`: **a request is refused for this reason,
  without any effect, and for no other.**
* `SessionLog.Gains`: one line in a log. `World.step_unremoved`: what a failed removal costs.
* `World.run_titled`: every handle is for a file that has a name.
* `run_refusals`: **refusals and failures change nothing, in every world that comes about.**
-/

namespace EngineDir

open FileSystem

/-- Whether this is a reason that a store finds in itself. -/
def StoreError.isRefusal : StoreError → Bool
  | .closed => true
  | .locked => true
  | .alreadyOpen _ => true
  | .stillOpen _ => true
  | .invalidKind _ => true
  | _ => false

/-- The file that a request is for, whose name is needed to carry it out. -/
def StoreRequest.file? : StoreRequest → Option FileId
  | .setManifest id => some id
  | .removeFile id => some id
  | .openFile _ id => some id
  | .createFile _ id => some id
  | _ => none

theorem FileId.name?_eq_some_iff {id : FileId} : (∃ cs, id.name? = some cs) ↔ id.kind ≠ .other := by
  obtain ⟨kind, seq⟩ := id
  cases kind <;> simp [name?]

theorem FileId.name?_eq_none_iff {id : FileId} : id.name? = none ↔ id.kind = .other := by
  obtain ⟨kind, seq⟩ := id
  cases kind <;> simp [name?]

namespace Store

/-- Why a store does not handle a file: it is of a kind without names, or else it is open. -/
def unfit? (s : Store) (id : FileId) (busy : FileId → StoreError) : Option StoreError :=
  if id.kind = .other then some (.invalidKind id.kind)
  else if id ∈ s.openIds then some (busy id)
  else none

/-- Why a store that is not closed does not take a request up. -/
def obstacle? (s : Store) : StoreRequest → Option StoreError
  | .setManifest id => if id.kind = .manifest then none else some (.invalidKind id.kind)
  | .removeFile id => s.unfit? id .stillOpen
  | .openFile _ id => s.unfit? id .alreadyOpen
  | .createFile _ id => s.unfit? id .alreadyOpen
  | .takeTurn _ => if s.turn.isSome then some .locked else none
  | _ => none

/-- Why a store does not take a request up: it is closed, or else there is an obstacle. Its owner can
always let go of it, and a line for the log is never refused. -/
def refusal? (s : Store) (r : StoreRequest) : Option StoreError :=
  match r with
  | .abandon => none
  | .log _ => none
  | r => if s.closed then some .closed else s.obstacle? r

variable {fs : FileSystem} {s : Store} {id : FileId} {now : Clock.Reading} {e : StoreError}
  {busy : FileId → StoreError} {r : StoreRequest} {l : Nat}

/-- A file is looked for unless the store is closed or does not handle it. -/
theorem access_eq_error :
    s.access id busy = .error e ↔
      (if s.closed then some .closed else s.unfit? id busy) = some e := by
  unfold access unfit?
  cases hc : s.closed with
  | true => simp
  | false =>
    cases hn : id.name? with
    | none => simp [FileId.name?_eq_none_iff.1 hn]
    | some cs =>
      have hk : id.kind ≠ .other := FileId.name?_eq_some_iff.1 ⟨cs, hn⟩
      by_cases hid : id ∈ s.openIds <;> simp [hk, hid]

theorem access_of_fit (h : (if s.closed then some .closed else s.unfit? id busy) = none) :
    ∃ name, s.access id busy = .ok name := by
  cases ha : s.access id busy with
  | ok name => exact ⟨name, rfl⟩
  | error e =>
    rw [access_eq_error.1 ha] at h
    cases h

/-- A store that refuses is closed, or is not and finds an obstacle. -/
theorem refusal?_cases (h : s.refusal? r = some e) :
    s.closed = true ∧ e = .closed ∨ ¬s.closed = true ∧ s.obstacle? r = some e := by
  have hr : (if s.closed then some .closed else s.obstacle? r) = some e := by
    cases r with
    | abandon => cases h
    | log text => cases h
    | _ => exact h
  split at hr
  · rename_i hc
    exact Or.inl ⟨hc, (Option.some.inj hr).symm⟩
  · rename_i hc
    exact Or.inr ⟨hc, hr⟩

theorem closed_of_refusal? (h : s.refusal? r = some e) (hr : s.obstacle? r = none) :
    s.closed = true ∧ e = .closed := by
  rcases refusal?_cases h with hc | ⟨-, ho⟩
  · exact hc
  · rw [hr] at ho
    cases ho

/-- What a store takes up it takes up while it is not closed. -/
theorem unclosed_of_refusal? (h : s.refusal? r = none) (ha : r ≠ .abandon)
    (hl : ∀ text, r ≠ .log text) : s.closed = false ∧ s.obstacle? r = none := by
  have hr : (if s.closed then some .closed else s.obstacle? r) = none := by
    cases r with
    | abandon => exact absurd rfl ha
    | log text => exact absurd rfl (hl text)
    | _ => exact h
  split at hr
  · cases hr
  · rename_i hc
    exact ⟨by simpa using hc, hr⟩

theorem kind_of_obstacle? (h : s.obstacle? (.setManifest id) = none) : id.kind = .manifest := by
  simp only [obstacle?] at h
  split at h
  · assumption
  · cases h

/-- **A request that is not refused is for a file with a name.** -/
theorem named_of_refusal? (h : s.refusal? r = none) (hf : r.file? = some id) :
    ∃ cs, id.name? = some cs := by
  have hfit : ∀ {busy}, (if s.closed then some .closed else s.unfit? id busy) = none →
      ∃ cs, id.name? = some cs := by
    intro busy hnone
    obtain ⟨name, ha⟩ := access_of_fit hnone
    exact ⟨name, (access_ok ha).2.1⟩
  cases r with
  | setManifest id' =>
    cases hf
    have hk := kind_of_obstacle? (unclosed_of_refusal? h (by simp) (by simp)).2
    exact FileId.name?_eq_some_iff.2 (by simp [hk])
  | removeFile id' => cases hf; exact hfit h
  | openFile _ id' => cases hf; exact hfit h
  | createFile _ id' => cases hf; exact hfit h
  | _ => cases hf

/-! ## Single operations -/

theorem openFile_refuse (h : s.access id .alreadyOpen = .error e) :
    s.openFile fs id = .refuse fs s e := by
  simp only [openFile, h]

theorem createFile_refuse (h : s.access id .alreadyOpen = .error e) :
    s.createFile fs id = .refuse fs s e := by
  simp only [createFile, h]

theorem removeFile_refuse (h : s.access id .stillOpen = .error e) :
    s.removeFile fs now id = .refuse fs s e := by
  simp only [removeFile, h]

theorem setManifest_refusal (h : s.refusal? (.setManifest id) = some e) :
    s.setManifest fs now id = .refuse fs s e := by
  rcases refusal?_cases h with ⟨hc, rfl⟩ | ⟨hc, ho⟩
  · exact if_pos hc
  · simp only [obstacle?] at ho
    split at ho
    · cases ho
    · rename_i hk
      cases ho
      exact (if_neg hc).trans (if_pos hk)

theorem takeTurn_refusal (h : s.refusal? (.takeTurn l) = some e) :
    s.takeTurn fs = .refuse fs s e := by
  rcases refusal?_cases h with ⟨hc, rfl⟩ | ⟨hc, ho⟩
  · exact if_pos hc
  · simp only [obstacle?] at ho
    split at ho
    · rename_i ht
      cases ho
      exact (if_neg hc).trans (if_pos ht)
    · cases ho

/-- A file that is not opened leaves everything as it is. -/
theorem openFile_failed (hr : (s.openFile fs id).result = .error e) :
    s.openFile fs id = .refuse fs s e := by
  cases ha : s.access id .alreadyOpen with
  | error err =>
    rw [openFile_refuse ha] at hr ⊢
    cases hr
    rfl
  | ok name =>
    simp only [openFile, ha] at hr ⊢
    split at hr
    · cases hr
      rfl
    · cases hr

theorem createFile_failed (hr : (s.createFile fs id).result = .error e) :
    s.createFile fs id = .refuse fs s e := by
  cases ha : s.access id .alreadyOpen with
  | error err =>
    rw [createFile_refuse ha] at hr ⊢
    cases hr
    rfl
  | ok name =>
    simp only [createFile, ha] at hr ⊢
    split at hr
    · cases hr
      rfl
    · cases hr

/-- What fails behind the store's own checks fails in the file system. -/
theorem openFile_error {name : List Char} (h : s.access id .alreadyOpen = .ok name)
    (hr : (s.openFile fs id).result = .error e) : e.isRefusal = false := by
  simp only [openFile, h] at hr
  split at hr
  · cases hr
    rfl
  · cases hr

theorem createFile_error {name : List Char} (h : s.access id .alreadyOpen = .ok name)
    (hr : (s.createFile fs id).result = .error e) : e.isRefusal = false := by
  simp only [createFile, h] at hr
  split at hr
  · cases hr
    rfl
  · cases hr

/-- A removal that fails is logged. -/
theorem removeFile_error {name : List Char} (h : s.access id .stillOpen = .ok name)
    (hr : (s.removeFile fs now id).result = .error e) :
    ∃ err, e = .io "remove" (s.pathOf name) (.os err) ∧ s.removeFile fs now id =
      s.warn fs now ("remove " ++ id.shown ++ ": " ++ (IoError.os err).message) (.error e) := by
  simp only [removeFile, h] at hr ⊢
  split at hr
  · rename_i err _
    rw [warn_eq] at hr
    cases hr
    exact ⟨err, rfl, rfl⟩
  · cases hr

theorem closeLog_error (h : s.closeLog fs = .error e) : e.isRefusal = false := by
  unfold closeLog SessionLog.close at h
  split at h
  · cases h
  · split at h
    · cases h; rfl
    · cases h

theorem close_error (hc : s.closed = false) (h : (s.close fs now).result = .error e) :
    e.isRefusal = false := by
  unfold close at h
  rw [if_neg (by simp [hc])] at h
  split at h
  · rw [warn_eq] at h
    cases h
    rfl
  · exact closeLog_error h

theorem abandon_result : (s.abandon fs now).result = .ok () := by
  unfold abandon
  split
  · rfl
  · simp only [warn_eq]
    split <;> rfl

theorem list_error {kinds : KindSet} (hc : s.closed = false) (h : s.list fs kinds = .error e) :
    e.isRefusal = false := by
  rw [list, if_neg (by simp [hc])] at h
  split at h
  · cases h; rfl
  · cases h

theorem takeTurn_granted (hc : s.closed = false) (h : s.obstacle? (.takeTurn l) = none) :
    (s.takeTurn fs).result = .ok s.nextToken := by
  simp only [obstacle?] at h
  split at h
  · cases h
  · rename_i ht
    rw [takeTurn, if_neg (by simp [hc]), if_neg ht]

theorem read_error {dir : Bytes} (h : Current.read fs dir = .error e) : e.isRefusal = false := by
  simp only [Current.read] at h
  split at h
  · cases h; rfl
  · cases h; rfl
  · split at h
    · cases h; rfl
    · split at h
      · cases h; rfl
      · cases h

end Store

/-- A publication fails only when a call to the file system does. -/
theorem Publication.step_error (p : Proposal) (u : Publication) :
    (step p u).error? = u.error? ∨ ∃ action e, (step p u).error? = some (p.failure action e) := by
  unfold step
  split
  · split
    · exact Or.inr ⟨_, _, rfl⟩
    · exact Or.inl rfl
  · split
    · exact Or.inr ⟨_, _, rfl⟩
    · exact Or.inl rfl
  · split
    · exact Or.inr ⟨_, _, rfl⟩
    · exact Or.inl rfl
  · split
    · exact Or.inr ⟨_, _, rfl⟩
    · exact Or.inl rfl
  · split <;> exact Or.inl rfl
  · exact Or.inl rfl
  · split <;> exact Or.inl rfl
  · exact Or.inl rfl
  · exact Or.inl rfl

theorem Publication.run_error {p : Proposal} {fs : FileSystem} {log : Option SessionLog}
    {e : StoreError} (h : (run p fs log).error? = some e) : ∃ action err, e = p.failure action err := by
  have key : ∀ k, (after p k (begin fs log)).error? = none ∨
      ∃ action err, (after p k (begin fs log)).error? = some (p.failure action err) := by
    intro k
    induction k with
    | zero => exact Or.inl rfl
    | succ k ih =>
      rw [after_succ]
      rcases step_error p (after p k (begin fs log)) with he | he
      · rw [he]; exact ih
      · exact Or.inr he
  rcases key (stepsFor p.id) with hnone | ⟨action, err, hsome⟩
  · rw [run, hnone] at h
    cases h
  · rw [run, hsome] at h
    cases h
    exact ⟨action, err, rfl⟩

theorem Store.setManifest_error {fs : FileSystem} {s : Store} {now : Clock.Reading} {id : FileId}
    {e : StoreError} (hc : s.closed = false) (hk : id.kind = .manifest)
    (h : (s.setManifest fs now id).result = .error e) : e.isRefusal = false := by
  obtain ⟨-, -, hres⟩ := s.setManifest_run fs now hc hk
  obtain ⟨action, err, rfl⟩ := Publication.run_error ((hres e).1 h)
  rfl

/-! ## Lines -/

/-- A log gains one line, as far as there is room for it, which is laid over its file at the cursor; or
it loses the line. Only the buffer changes then. -/
inductive SessionLog.Gains (now : Clock.Reading) (text : String) (fs : FileSystem) :
    Option SessionLog → FileSystem → Option SessionLog → Prop
  | none : Gains now text fs none fs none
  | lost (l : SessionLog) :
      Gains now text fs (some l) fs (some { l with buffer := l.buffer.write now text })
  | written (l : SessionLog) {b part : Bytes} (hf : fs.face? l.file.node = some (.file b))
      (hp : part = fs.accepted l.file.node l.file.pos (line now text)) :
      Gains now text fs (some l)
        ((Change.fill l.file.node (overlay b l.file.pos part)).apply fs)
        (some { l with
          file := ⟨l.file.node, l.file.pos + part.length⟩, buffer := l.buffer.write now text })

theorem SessionLog.write_gains (l : SessionLog) (fs : FileSystem) (now : Clock.Reading)
    (text : String) :
    Gains now text fs (some l) (l.write fs now text).2 (some (l.write fs now text).1) := by
  rw [write_eq]
  split
  · exact .lost l
  · rename_i fs' hw
    rcases writeAt_ok (accepted_ne_nil (line_ne_nil now text)) hw with ⟨b, hb, rfl⟩ | ⟨d, hd, rfl⟩
    · simp only [advance, face?_file.1 hb]
      exact .written l hb rfl
    · simp only [advance, face?_device.1 hd]
      exact .lost l

/-- **A line that is recorded changes the file of the log, and nothing else.** -/
theorem SessionLog.record_gains (log : Option SessionLog) (fs : FileSystem) (now : Clock.Reading)
    (text : String) :
    Gains now text fs log (record log fs now text).2 (record log fs now text).1 := by
  cases log with
  | none => exact .none
  | some l =>
    rw [record_some]
    exact l.write_gains fs now text

namespace World

variable {w : World} {now : Clock.Reading} {s h : Nat} {st : Store} {r : StoreRequest} {id : FileId}
  {e : StoreError} {x : Handle}

/-- Whether the number that a request brings for its handle or its turn is free. -/
def admits (w : World) : StoreRequest → Bool
  | .openFile h _ => !w.handles.contains h
  | .createFile h _ => !w.handles.contains h
  | .takeTurn l => !w.turns.contains l
  | _ => true

theorem receiving_refuse (h : Nat) (e : StoreError) (hst : w.stores.get? s = some st) :
    w.receiving s h (.refuse w.fs st e) = w.answering (.error (.store e)) := by
  rw [← reacting_refuse (fun _ : Handle => .done) e hst]
  rfl

theorem receivingTurn_refuse (l : Nat) (e : StoreError) (hst : w.stores.get? s = some st) :
    w.receivingTurn s l (.refuse w.fs st e) = w.answering (.error (.store e)) := by
  rw [← reacting_refuse (fun _ : Nat => .done) e hst]
  rfl

/-- **What a store refuses has no effect.** -/
theorem stepStore_refused (hst : w.stores.get? s = some st) (ha : w.admits r = true)
    (h : st.refusal? r = some e) :
    w.stepStore now s st r = w.answering (.error (.store e)) := by
  cases r with
  | close =>
    obtain ⟨hc, rfl⟩ := Store.closed_of_refusal? h rfl
    have hclose : st.close w.fs now = .refuse w.fs st .closed := if_pos hc
    simp only [stepStore, hclose]
    exact reacting_refuse _ _ hst
  | abandon => cases h
  | log text => cases h
  | list kinds =>
    obtain ⟨hc, rfl⟩ := Store.closed_of_refusal? h rfl
    simp only [stepStore, Store.list, if_pos hc]
    rfl
  | manifest =>
    obtain ⟨hc, rfl⟩ := Store.closed_of_refusal? h rfl
    simp only [stepStore, Store.manifest, if_pos hc]
    rfl
  | setManifest id =>
    simp only [stepStore, Store.setManifest_refusal h]
    exact reacting_refuse _ _ hst
  | removeFile id =>
    simp only [stepStore, Store.removeFile_refuse (Store.access_eq_error.2 h)]
    exact reacting_refuse _ _ hst
  | openFile k id =>
    have hk : ¬w.handles.contains k = true := by simpa [admits] using ha
    simp only [stepStore, if_neg hk, Store.openFile_refuse (Store.access_eq_error.2 h)]
    exact receiving_refuse k e hst
  | createFile k id =>
    have hk : ¬w.handles.contains k = true := by simpa [admits] using ha
    simp only [stepStore, if_neg hk, Store.createFile_refuse (Store.access_eq_error.2 h)]
    exact receiving_refuse k e hst
  | takeTurn l =>
    have hl : ¬w.turns.contains l = true := by simpa [admits] using ha
    simp only [stepStore, if_neg hl, Store.takeTurn_refusal h]
    exact receivingTurn_refuse l e hst

theorem storeAnswer_eq_error {α : Type} {f : α → Value} {q : Except StoreError α} :
    storeAnswer f q = .error (.store e) ↔ q = .error e := by
  cases q <;> simp [storeAnswer]

/-- A handle that is not given out is a failure of the store. -/
theorem receiving_eq_error {o : Outcome Handle}
    (ha : (w.receiving s h o).answer = .error (.store e)) : o.result = .error e := by
  unfold receiving at ha
  split at ha
  · exact storeAnswer_eq_error.1 ha
  · cases ha

/-- **What fails although it was not refused fails for another reason.** -/
theorem stepStore_error (h : st.refusal? r = none)
    (ha : (w.stepStore now s st r).answer = .error (.store e)) : e.isRefusal = false := by
  cases r with
  | close =>
    have hc := (Store.unclosed_of_refusal? h (by simp) (by simp)).1
    exact Store.close_error hc (storeAnswer_eq_error.1 ha)
  | abandon =>
    have hr : (st.abandon w.fs now).result = .error e := storeAnswer_eq_error.1 ha
    rw [Store.abandon_result] at hr
    cases hr
  | log text => cases ha
  | list kinds =>
    have hc := (Store.unclosed_of_refusal? h (by simp) (by simp)).1
    exact Store.list_error hc (storeAnswer_eq_error.1 ha)
  | manifest =>
    have hc := (Store.unclosed_of_refusal? h (by simp) (by simp)).1
    have hr : st.manifest w.fs = .error e := storeAnswer_eq_error.1 ha
    rw [Store.manifest, if_neg (by simp [hc])] at hr
    exact Store.read_error hr
  | setManifest id =>
    obtain ⟨hc, hk⟩ := Store.unclosed_of_refusal? h (by simp) (by simp)
    exact Store.setManifest_error hc (Store.kind_of_obstacle? hk) (storeAnswer_eq_error.1 ha)
  | removeFile id =>
    obtain ⟨name, hacc⟩ := Store.access_of_fit h
    obtain ⟨err, rfl, -⟩ := Store.removeFile_error hacc (storeAnswer_eq_error.1 ha)
    rfl
  | openFile k id =>
    obtain ⟨name, hacc⟩ := Store.access_of_fit h
    simp only [stepStore] at ha
    split at ha
    · cases ha
    · exact Store.openFile_error hacc (receiving_eq_error ha)
  | createFile k id =>
    obtain ⟨name, hacc⟩ := Store.access_of_fit h
    simp only [stepStore] at ha
    split at ha
    · cases ha
    · exact Store.createFile_error hacc (receiving_eq_error ha)
  | takeTurn l =>
    obtain ⟨hc, ht⟩ := Store.unclosed_of_refusal? h (by simp) (by simp)
    simp only [stepStore, receivingTurn, Store.takeTurn_granted hc ht] at ha
    split at ha <;> cases ha

/-- A store that is named by a refusal is there, and its owner has it. -/
theorem owned_of_answer (ha : (step now w (.store s r)).answer = .error (.store e)) :
    ∃ st, w.stores.get? s = some st ∧ st.owned = true ∧
      step now w (.store s r) = w.stepStore now s st r := by
  cases hst : w.stores.get? s with
  | none =>
    simp only [step, hst] at ha
    cases ha
  | some st =>
    rw [step_store_owned hst] at ha ⊢
    split at ha
    · rename_i ho
      exact ⟨st, rfl, ho, if_pos ho⟩
    · cases ha

/-- What is asked under a number that is in use is not asked of the store at all. -/
theorem stepStore_misnamed (ha : w.admits r = false) :
    w.stepStore now s st r = w.answering (.error .misnamed) := by
  cases r with
  | openFile k id => simp only [stepStore, if_pos (by simpa [admits] using ha)]
  | createFile k id => simp only [stepStore, if_pos (by simpa [admits] using ha)]
  | takeTurn l => simp only [stepStore, if_pos (by simpa [admits] using ha)]
  | _ => cases ha

/-- **A request is refused for the first reason that applies, and for no other.** -/
theorem step_refusal_iff (hst : w.stores.get? s = some st) (ho : st.owned = true)
    (ha : w.admits r = true) (he : e.isRefusal = true) :
    (step now w (.store s r)).answer = .error (.store e) ↔ st.refusal? r = some e := by
  rw [step_store_owned hst, if_pos ho]
  constructor
  · intro hans
    cases hr : st.refusal? r with
    | none =>
      rw [stepStore_error hr hans] at he
      cases he
    | some e' =>
      rw [stepStore_refused hst ha hr] at hans
      cases hans
      rfl
  · intro hr
    rw [stepStore_refused hst ha hr]
    rfl

/-- **A refusal has no effect.** -/
theorem step_refused_eq (ha : (step now w (.store s r)).answer = .error (.store e))
    (he : e.isRefusal = true) : step now w (.store s r) = w.answering (.error (.store e)) := by
  obtain ⟨st, hst, ho, heq⟩ := owned_of_answer ha
  cases hadm : w.admits r with
  | false =>
    rw [heq, stepStore_misnamed hadm] at ha
    cases ha
  | true =>
    rw [heq]
    exact stepStore_refused hst hadm ((step_refusal_iff hst ho hadm he).1 ha)

/-- **A file that cannot be opened or created leaves everything as it is.** -/
theorem step_unopened (hr : r = .openFile h id ∨ r = .createFile h id)
    (ha : (step now w (.store s r)).answer = .error (.store e)) :
    step now w (.store s r) = w.answering (.error (.store e)) := by
  obtain ⟨st, hst, ho, heq⟩ := owned_of_answer ha
  rw [heq] at ha ⊢
  rcases hr with rfl | rfl
  · simp only [stepStore] at ha ⊢
    split at ha
    · cases ha
    · rename_i hh
      rw [if_neg hh, Store.openFile_failed (receiving_eq_error ha)]
      exact receiving_refuse h e hst
  · simp only [stepStore] at ha ⊢
    split at ha
    · cases ha
    · rename_i hh
      rw [if_neg hh, Store.createFile_failed (receiving_eq_error ha)]
      exact receiving_refuse h e hst

/-- **A file with an open handle is not created anew.** -/
theorem step_create_live (hu : InUse w) (hx : w.handles.get? h = some ⟨s, x⟩)
    (hc : x.isClosed = false) (k : Nat) :
    (step now w (.store s (.createFile k x.id))).world = w := by
  obtain ⟨st, -, hst, -, hid⟩ := hu.handle h s x hx hc
  rw [step_store_owned hst]
  split
  · cases hr : (st.createFile w.fs x.id).result with
    | error e =>
      simp only [stepStore]
      split
      · rfl
      · rw [Store.createFile_failed hr, receiving_refuse k e hst]
        rfl
    | ok y =>
      obtain ⟨cs, i, hacc, -⟩ := Store.createFile_ok hr
      exact absurd hid (Store.access_ok hacc).2.2
  · rfl

/-- **A file that cannot be removed costs one line in the log.** -/
theorem step_unremoved {action : String} {path : Bytes} {cause : IoError}
    (hst : w.stores.get? s = some st)
    (ha : (step now w (.store s (.removeFile id))).answer = .error (.store (.io action path cause))) :
    ∃ fs log, SessionLog.Gains now (unremovedText id cause) w.fs st.log fs log ∧
      step now w (.store s (.removeFile id)) =
        { world := { w with fs := fs, stores := w.stores.insert s { st with log := log } }
          answer := .error (.store (.io action path cause))
          notes := [⟨.warn, unremovedText id cause⟩] } := by
  obtain ⟨st', hst', ho, heq⟩ := owned_of_answer ha
  obtain rfl := Option.some.inj (hst.symm.trans hst')
  rw [heq] at ha ⊢
  have hr := storeAnswer_eq_error.1 ha
  cases hacc : st.access id .stillOpen with
  | error err =>
    -- the store finds no such reason in itself
    rw [Store.removeFile_refuse hacc] at hr
    cases hr
    have hno := Store.access_eq_error.1 hacc
    unfold Store.unfit? at hno
    split at hno
    · cases hno
    · split at hno
      · cases hno
      · split at hno <;> cases hno
  | ok name =>
    obtain ⟨err, he, hwarn⟩ := Store.removeFile_error hacc hr
    cases he
    refine ⟨_, _, SessionLog.record_gains st.log w.fs now (unremovedText id (.os err)), ?_⟩
    simp only [stepStore, hwarn, Store.warn_eq]
    rfl

/-! ## Names -/

/-- Every handle is for a file of its store, which has a name. -/
def Titled (w : World) : Prop :=
  ∀ h s x, w.handles.get? h = some ⟨s, x⟩ →
    ∃ st cs, w.stores.get? s = some st ∧ x.id.name? = some cs ∧ x.path = st.pathOf cs

/-- A handle that is opened is for a file with a name. -/
theorem openFile_titled (hx : (st.openFile w.fs id).result = .ok x) :
    ∃ cs, x.id.name? = some cs ∧ x.path = st.pathOf cs := by
  cases hacc : st.access id .alreadyOpen with
  | error e =>
    rw [Store.openFile_refuse hacc] at hx
    cases hx
  | ok cs =>
    simp only [Store.openFile, hacc] at hx
    split at hx
    · cases hx
    · cases hx
      exact ⟨cs, (Store.access_ok hacc).2.1, rfl⟩

theorem createFile_titled (hx : (st.createFile w.fs id).result = .ok x) :
    ∃ cs, x.id.name? = some cs ∧ x.path = st.pathOf cs := by
  obtain ⟨cs, i, hacc, -, -, rfl⟩ := Store.createFile_ok hx
  exact ⟨cs, (Store.access_ok hacc).2.1, rfl⟩

theorem step_titled (h : Titled w) (now : Clock.Reading) (e : Event) :
    Titled (step now w e).world := by
  -- the store of a handle stays, and its directory with it
  have hkept : ∀ {s st} {x : Handle}, w.stores.get? s = some st →
      (∃ cs, x.id.name? = some cs ∧ x.path = st.pathOf cs) →
      ∃ st' cs, (step now w e).world.stores.get? s = some st' ∧ x.id.name? = some cs ∧
        x.path = st'.pathOf cs := by
    rintro s st x hst ⟨cs, hcs, hpath⟩
    obtain ⟨st', hst', hb⟩ := step_becomes now e hst
    refine ⟨st', cs, hst', hcs, ?_⟩
    rw [hpath, Store.pathOf, Store.pathOf, hb.dir]
  intro k s x' hx'
  cases step_fate now w e k with
  | kept hh =>
    obtain ⟨st, cs, hst, hname⟩ := h k s x' (hh ▸ hx')
    exact hkept hst ⟨cs, hname⟩
  | moved he hh hm hh' =>
    rw [hx'] at hh'
    cases hh'
    obtain ⟨st, cs, hst, hname⟩ := h k s _ hh
    obtain ⟨pos, rfl⟩ := hm
    exact hkept hst ⟨cs, hname⟩
  | closed he hh hh' =>
    rw [hx'] at hh'
    cases hh'
    obtain ⟨st, cs, hst, hname⟩ := h k s _ hh
    exact hkept (x := Handle.shut _) hst ⟨cs, hname⟩
  | dropped he hh' =>
    rw [hx'] at hh'
    cases hh'
  | opened he hst ho hfree hx hfs hh' =>
    rw [hx'] at hh'
    cases hh'
    exact hkept hst (openFile_titled hx)
  | created he hst ho hfree hx hfs hh' =>
    rw [hx'] at hh'
    cases hh'
    exact hkept hst (createFile_titled hx)

/-- **Every handle is for a file that has a name**, after every run. -/
theorem run_titled (fs : FileSystem) (es : List (Clock.Reading × Event)) :
    Titled ((ofFileSystem fs).run es) := by
  refine run_induction (P := fun _ w => Titled w) ?_ (fun es now e h => step_titled h now e) es
  intro h s x hx
  cases hx

end World

/-! ## Refusals -/

open World

/-- Refusals and failures in the world `w`. -/
structure Refusals (w : World) : Prop where
  /-- A store refuses for the first reason that applies: it is closed, or else the file is of the wrong
  kind, or else the file or the turn is taken. -/
  first : ∀ now s st r e, w.stores.get? s = some st → st.owned = true → w.admits r = true →
    e.isRefusal = true →
    ((step now w (.store s r)).answer = .error (.store e) ↔ st.refusal? r = some e)
  /-- A refusal changes nothing, and nobody is told of it. -/
  nothing : ∀ now s r e, (step now w (.store s r)).answer = .error (.store e) →
    e.isRefusal = true → (step now w (.store s r)).world = w ∧ (step now w (.store s r)).notes = []
  /-- So a file that is open cannot be emptied by creating it again. -/
  live : ∀ now h k s x, w.handles.get? h = some ⟨s, x⟩ → x.isClosed = false →
    (step now w (.store s (.createFile k x.id))).world = w
  /-- A file that cannot be opened or created changes nothing either. -/
  unopened : ∀ now s h id r e, r = .openFile h id ∨ r = .createFile h id →
    (step now w (.store s r)).answer = .error (.store e) →
    (step now w (.store s r)).world = w ∧ (step now w (.store s r)).notes = []
  /-- A file that cannot be removed costs one line in the log, at most. -/
  unremoved : ∀ now s st id action path cause, w.stores.get? s = some st →
    (step now w (.store s (.removeFile id))).answer = .error (.store (.io action path cause)) →
    ∃ fs log, SessionLog.Gains now (unremovedText id cause) w.fs st.log fs log ∧
      (step now w (.store s (.removeFile id))).world =
        { w with fs := fs, stores := w.stores.insert s { st with log := log } }
  /-- No file without a name is asked for by its name. -/
  named : ∀ s st r id, w.stores.get? s = some st → st.refusal? r = none → r.file? = some id →
    ∃ cs, id.name? = some cs
  /-- Nor is one open. -/
  handle : ∀ h s x, w.handles.get? h = some ⟨s, x⟩ →
    ∃ st cs, w.stores.get? s = some st ∧ x.id.name? = some cs ∧ x.path = st.pathOf cs

/-- **Refusals and failures change nothing, in every world that comes about.** -/
theorem run_refusals (fs : FileSystem) (es : List (Clock.Reading × Event)) :
    Refusals ((ofFileSystem fs).run es) where
  first now s st r e hst ho ha he := step_refusal_iff hst ho ha he
  nothing now s r e ha he := by
    rw [step_refused_eq ha he]
    exact ⟨rfl, rfl⟩
  live now h k s x hx hc := step_create_live (run_inUse fs es) hx hc k
  unopened now s h id r e hr ha := by
    rw [step_unopened hr ha]
    exact ⟨rfl, rfl⟩
  unremoved now s st id action path cause hst ha := by
    obtain ⟨fs', log, hgains, heq⟩ := step_unremoved hst ha
    exact ⟨fs', log, hgains, by rw [heq]⟩
  named s st r id _ hr hf := Store.named_of_refusal? hr hf
  handle := run_titled fs es

/-- A table that is open is refused to whoever would create it again. -/
theorem run_refusals_session :
    (step ⟨⟨0, 0⟩, 0⟩ ((ofFileSystem .initial).run session)
        (.store 0 (.createFile 1 ⟨.table, 1⟩))).answer =
      .error (.store (.alreadyOpen ⟨.table, 1⟩)) ∧
    (step ⟨⟨0, 0⟩, 0⟩ ((ofFileSystem .initial).run session)
        (.store 0 (.createFile 1 ⟨.table, 1⟩))).world = (ofFileSystem .initial).run session := by
  have h := run_refusals .initial session
  have hans : (step ⟨⟨0, 0⟩, 0⟩ ((ofFileSystem .initial).run session)
      (.store 0 (.createFile 1 ⟨.table, 1⟩))).answer =
      .error (.store (.alreadyOpen ⟨.table, 1⟩)) := rfl
  exact ⟨hans, (h.nothing _ _ _ _ hans rfl).1⟩

end EngineDir
