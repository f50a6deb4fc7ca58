import EngineDir.Proofs.Runs
import EngineDir.Proofs.Staging

/-!
# Warnings

When a store warns, and in which words. Every warning is told as a note, once, and goes to
the log; what else is told is no warning.

* `Store.warns`, `Handle.warns`, `World.warned`: **the warnings of each event.**
* `Store.tells`, `World.said`: these, and the messages that a store is asked to log.
* `World.step_warnings`: **the warnings that are told are these.**
-/

namespace EngineDir

open FileSystem

/-- The texts of the warnings among what is told. -/
def warnings (notes : List Note) : List String :=
  (notes.filter fun n => decide (n.level = .warn)).map Note.text

namespace World

/-- How a close is refused in the log while `n` files are open. -/
def busyText (n : Nat) : String := "refuse to close, " ++ Store.countText n ++ " files still open"

/-- How a failed removal is put in the log. -/
def unremovedText (id : FileId) (cause : IoError) : String :=
  "remove " ++ id.shown ++ ": " ++ cause.message

end World

/-- How it is put in the log that the owner let go of a store with `n` open files. -/
def Store.droppedText (n : Nat) : String :=
  "storage dropped without close, " ++ countText n ++ " files still open"

/-- How a failed write back of a file that was closed is put in the log. -/
def Handle.unsyncedText (id : FileId) (cause : IoError) : String :=
  "close " ++ id.shown ++ ": " ++ cause.message

/-- How a leak is put in the log. -/
def Handle.leakedText (id : FileId) : String :=
  "leaked " ++ id.shown ++ " handle: dropped without close"

/-- What a store warns of when it is asked for something: a close that is refused, a drop of a store
whose session is not over, a file that cannot be removed and a manifest that cannot be published. -/
def Store.warns (s : Store) (fs : FileSystem) (now : Clock.Reading) : StoreRequest → List String
  | .close =>
    if s.closed = true ∨ s.openCount = 0 then [] else [World.busyText s.openCount]
  | .abandon => if s.closed = true then [] else [droppedText s.openCount]
  | .removeFile id =>
    match (s.removeFile fs now id).result with
    | .error (.io _ _ cause) => [World.unremovedText id cause]
    | _ => []
  | .setManifest id =>
    match (s.setManifest fs now id).result with
    | .error (.io action path cause) =>
      ("CURRENT: " ++ (StoreError.io action path cause).message) ::
        Publication.leftover (s.proposal now id) fs
    | _ => []
  | _ => []

/-- What a store has written in the log when it is asked for something: its warnings, or the message
that is to be logged, unless the session is over. -/
def Store.tells (s : Store) (fs : FileSystem) (now : Clock.Reading) : StoreRequest → List String
  | .log text => if s.closed = true then [] else [text]
  | r => s.warns fs now r

/-- What a handle warns of: a file that cannot be written back when it is closed, and a drop of a
handle that is not closed. -/
def Handle.warns (h : Handle) (fs : FileSystem) : HandleRequest → List String
  | .close =>
    match h.file with
    | none => []
    | some f =>
      match pending fs h f with
      | .error e => [unsyncedText h.id (.os e)]
      | .ok () => []
  | .abandon => if h.isClosed = true then [] else [leakedText h.id]
  | _ => []

namespace World

/-- The store that an event is asked of, directly or through a handle or a turn. -/
def addressee? (w : World) : Event → Option Nat
  | .store s _ => some s
  | .handle h _ => (w.handles.get? h).map Share.store
  | .endTurn l => (w.turns.get? l).map Share.store
  | _ => none

/-- The warnings of an event. -/
def warned (w : World) (now : Clock.Reading) : Event → List String
  | .store s r =>
    match w.stores.get? s with
    | some st => if st.owned = true then st.warns w.fs now r else []
    | none => []
  | .handle h r =>
    match w.handles.get? h with
    | some x => x.value.warns w.fs r
    | none => []
  | _ => []

/-- What an event has written in the log. -/
def said (w : World) (now : Clock.Reading) : Event → List String
  | .store s r =>
    match w.stores.get? s with
    | some st => if st.owned = true then st.tells w.fs now r else []
    | none => []
  | e => w.warned now e

end World

/-! ## What is told -/

variable {fs : FileSystem} {t : Trail} {now : Clock.Reading} {id : FileId}

theorem warnings_append (l l' : List Note) : warnings (l ++ l') = warnings l ++ warnings l' := by
  simp [warnings]

/-- Where nothing but warnings is told, they are what is told. -/
theorem warnings_of_all {notes : List Note} (h : ∀ n ∈ notes, n.level = .warn) :
    warnings notes = notes.map Note.text := by
  have hall : notes.filter (fun n => decide (n.level = .warn)) = notes :=
    List.filter_eq_self.2 fun n hn => by simpa using h n hn
  rw [warnings, hall]

namespace Publication

/-- A publication tells nothing but warnings. -/
theorem after_warns (p : Proposal) (fs : FileSystem) (log : Option SessionLog) (k : Nat) :
    ∀ n ∈ (after p k (begin fs log)).notes, n.level = .warn := by
  have hwarned : ∀ (u : Publication) text s, (∀ n ∈ u.notes, n.level = .warn) →
      ∀ n ∈ (u.warned p.now text s).notes, n.level = .warn := by
    intro u text s hu n hn
    rcases List.mem_append.1 hn with hn | hn
    · exact hu n hn
    · rw [List.mem_singleton.1 hn]
  induction k with
  | zero =>
    intro n hn
    cases hn
  | succ k ih =>
    rw [after_succ]
    unfold step
    split
    · split <;> exact ih
    · split <;> exact ih
    · split <;> exact ih
    · split <;> exact ih
    · split <;> exact ih
    · exact hwarned _ _ _ ih
    · split <;> exact ih
    · exact hwarned _ _ _ ih
    · exact ih

theorem run_warnings (p : Proposal) (fs : FileSystem) (log : Option SessionLog) :
    warnings (run p fs log).notes = (run p fs log).notes.map Note.text :=
  warnings_of_all (after_warns p fs log _)

end Publication

namespace Store

variable {s : Store}

theorem close_warnings : warnings (s.close fs now).notes = s.warns fs now .close := by
  unfold warns close
  by_cases hc : s.closed = true
  · rw [if_pos hc, if_pos (Or.inl hc)]
    rfl
  · by_cases hn : s.openCount = 0
    · rw [if_neg hc, if_neg (not_not_intro hn), if_pos (Or.inr hn)]
      rfl
    · rw [if_neg hc, if_pos hn, if_neg (not_or.2 ⟨hc, hn⟩)]
      rfl

/-- A log that is a file can be written back. -/
theorem closeLog_file (hfile : ∀ l, s.log = some l → ∃ b, fs.face? l.file.node = some (.file b)) :
    s.closeLog fs = .ok () := by
  unfold closeLog
  split
  · rfl
  · rename_i l hl
    obtain ⟨b, hb⟩ := hfile l hl
    simp only [SessionLog.close, FileSystem.sync, face?_file.1 hb]

theorem abandon_warnings
    (hfile : ∀ l, s.log = some l → ∃ b, fs.face? l.file.node = some (.file b)) :
    warnings (s.abandon fs now).notes = s.warns fs now .abandon := by
  have hlog : ∀ l, (SessionLog.record s.log fs now (droppedText s.openCount)).1 = some l →
      ∃ b, (SessionLog.record s.log fs now (droppedText s.openCount)).2.face? l.file.node =
        some (.file b) := by
    intro l hl
    cases hlog : s.log with
    | none =>
      rw [hlog] at hl
      cases hl
    | some l₀ =>
      obtain ⟨b, hb⟩ := hfile l₀ hlog
      rw [hlog, SessionLog.record_some] at hl
      rw [SessionLog.record_some]
      obtain ⟨hnode, hfs | ⟨c, c', hc, hfs⟩⟩ := l₀.write_cases fs now (droppedText s.openCount)
      · rw [← Option.some.inj hl, hnode, hfs]
        exact ⟨b, hb⟩
      · rw [← Option.some.inj hl, hnode, hfs]
        exact ⟨c', by simp [Change.apply, face?_setNode, Node.face]⟩
  by_cases hc : s.closed = true
  · have hgone : s.abandon fs now =
        { result := .ok (), fs := fs, store := { s with owned := false }, notes := [] } := if_pos hc
    rw [hgone, warns, if_pos hc]
    rfl
  · rw [warns, if_neg hc]
    unfold abandon
    rw [if_neg hc]
    simp only [warn_eq]
    by_cases hn : s.openCount = 0
    · rw [if_neg (not_not_intro hn), closeLog_file hlog]
      rfl
    · rw [if_pos hn]
      rfl

/-- What a store refuses by itself is no failure of the system. -/
theorem access_cause {busy : FileId → StoreError} {e : StoreError} (hbusy : (busy id).cause? = none)
    (h : s.access id busy = .error e) : e.cause? = none := by
  unfold access at h
  split at h
  · cases h
    rfl
  · split at h
    · cases h
      rfl
    · split at h
      · cases h
        exact hbusy
      · cases h

theorem removeFile_warnings :
    warnings (s.removeFile fs now id).notes = s.warns fs now (.removeFile id) := by
  cases hacc : s.access id .stillOpen with
  | error e =>
    have heq : s.removeFile fs now id = .refuse fs s e := by rw [removeFile, hacc]
    have hcause := access_cause rfl hacc
    rw [warns, heq]
    cases e with
    | io action path cause => cases hcause
    | _ => rfl
  | ok name =>
    unfold warns removeFile
    simp only [hacc]
    cases fs.remove (s.pathOf name) with
    | error e => rfl
    | ok fs' => rfl

/-- What an open store warns of when it is asked to publish is what the publication warns of. -/
theorem setManifest_warned (hc : ¬s.closed = true) (hk : ¬id.kind ≠ .manifest) :
    warnings (s.setManifest fs now id).notes =
      warnings (Publication.run (s.proposal now id) fs s.log).notes := by
  unfold setManifest
  rw [if_neg hc, if_neg hk]
  simp only
  cases (Publication.run (s.proposal now id) fs s.log).error? with
  | some e => rfl
  | none =>
    rw [warnings_append]
    exact List.append_nil _

/-- A store that is asked to publish warns of why it did not. -/
theorem setManifest_warnings (hs : fs.Sound) (ht : t.Stands fs)
    (hd : s.dir = t.path) (hst : Publication.Stageable (s.proposal now id) t.here fs) :
    warnings (s.setManifest fs now id).notes = s.warns fs now (.setManifest id) := by
  by_cases h : s.closed = true ∨ id.kind ≠ .manifest
  · obtain ⟨e, he, hcause⟩ := setManifest_refuse fs now h
    simp only [warns, he, Outcome.refuse]
    cases e with
    | io action path cause => cases hcause
    | _ => rfl
  · obtain ⟨hc, hk⟩ := not_or.1 h
    have hrun : s.setManifest fs now id = _ := (if_neg hc).trans (if_neg hk)
    rw [setManifest_warned hc hk, Publication.run_warnings, Publication.run_told hs ht hd hst,
      warns, hrun]
    cases herr : (Publication.run (s.proposal now id) fs s.log).error? with
    | none => simp only [herr]
    | some e =>
      obtain ⟨_, action, err, -, rfl, -⟩ := Publication.run_refused hs ht hd hst herr
      simp only [herr]
      rfl

/-- What else a store is asked for leads to no warning. -/
theorem openFile_warnings : warnings (s.openFile fs id).notes = [] := by
  unfold openFile
  split
  · rfl
  · simp only
    split <;> rfl

theorem createFile_warnings : warnings (s.createFile fs id).notes = [] := by
  unfold createFile
  split
  · rfl
  · simp only
    split <;> rfl

theorem takeTurn_warnings : warnings (s.takeTurn fs).notes = [] := by
  unfold takeTurn
  split
  · rfl
  · split <;> rfl

end Store

namespace Handle

variable {s : Store} {x : Handle}

theorem close_warnings : warnings (x.close fs s now).1.notes = x.warns fs .close := by
  unfold warns close
  cases x.file with
  | none => rfl
  | some f =>
    simp only
    cases pending fs x f with
    | error e => rfl
    | ok u => rfl

theorem abandon_warnings : warnings (x.abandon fs s now).notes = x.warns fs .abandon := by
  unfold warns abandon isClosed
  cases x.file with
  | none => rfl
  | some f => rfl

end Handle

namespace World

variable {w : World} {s h : Nat} {st : Store} {x : Handle} {e : Event}

theorem receiving_notes (w : World) (s h : Nat) (o : Outcome Handle) :
    (w.receiving s h o).notes = o.notes := by
  unfold receiving
  split <;> rfl

theorem receivingTurn_notes (w : World) (s l : Nat) (o : Outcome Nat) :
    (w.receivingTurn s l o).notes = o.notes := by
  unfold receivingTurn
  split <;> rfl

theorem stepStore_warnings (hs : w.fs.Sound) (ht : t.Stands w.fs)
    (hst : ∀ p : Proposal, p.dir = t.path → Publication.Stageable p t.here w.fs) (hd : st.dir = t.path)
    (hfile : ∀ l, st.log = some l → ∃ b, w.fs.face? l.file.node = some (.file b))
    (r : StoreRequest) : warnings (w.stepStore now s st r).notes = st.warns w.fs now r := by
  cases r with
  | close => exact Store.close_warnings
  | abandon => exact Store.abandon_warnings hfile
  | log text => rfl
  | list kinds => rfl
  | manifest => rfl
  | setManifest id => exact Store.setManifest_warnings hs ht hd (hst (st.proposal now id) hd)
  | removeFile id => exact Store.removeFile_warnings
  | openFile h id =>
    simp only [stepStore]
    split
    · rfl
    · rw [receiving_notes, Store.openFile_warnings]
      rfl
  | createFile h id =>
    simp only [stepStore]
    split
    · rfl
    · rw [receiving_notes, Store.createFile_warnings]
      rfl
  | takeTurn l =>
    simp only [stepStore]
    split
    · rfl
    · rw [receivingTurn_notes, Store.takeTurn_warnings]
      rfl

theorem stepHandle_warnings (r : HandleRequest) :
    warnings (w.stepHandle now h s st x r).notes = x.warns w.fs r := by
  cases r with
  | close => exact Handle.close_warnings
  | abandon => exact Handle.abandon_warnings
  | _ => rfl

/-- A request for which a handle has the wrong mode is none to warn of. -/
theorem warns_of_unsuited {r : HandleRequest} (hr : ¬r.suits x.mode = true) : x.warns fs r = [] := by
  cases r with
  | close => exact absurd rfl hr
  | abandon => exact absurd rfl hr
  | _ => rfl

/-- To open a store leads to no warning. -/
theorem openStore_warnings {o : Options} : warnings (step now w (.openStore s o)).notes = [] := by
  simp only [step]
  split
  · rfl
  · unfold stepOpen
    split <;> rfl

/-- **The warnings that are told are those of the event**, where the log of the store is a file. -/
theorem step_warnings (now : Clock.Reading) (hs : w.fs.Sound)
    (ht : t.Stands w.fs)
    (hst : ∀ p : Proposal, p.dir = t.path → Publication.Stageable p t.here w.fs)
    (he : w.addressee? e = some s) (hstore : w.stores.get? s = some st) (hd : st.dir = t.path)
    (hfile : ∀ l, st.log = some l → ∃ b, w.fs.face? l.file.node = some (.file b)) :
    warnings (step now w e).notes = w.warned now e := by
  cases e with
  | store k r =>
    obtain rfl : k = s := Option.some.inj he
    simp only [step, warned, hstore]
    split
    · exact stepStore_warnings hs ht hst hd hfile r
    · rfl
  | handle h r =>
    simp only [addressee?, Option.map_eq_some_iff] at he
    obtain ⟨⟨k, x⟩, hh, rfl⟩ := he
    simp only [step, warned, hh, hstore]
    split
    · exact stepHandle_warnings r
    · rename_i hr
      exact (warns_of_unsuited hr).symm
  | endTurn l =>
    simp only [addressee?, Option.map_eq_some_iff] at he
    obtain ⟨⟨k, token⟩, hl, rfl⟩ := he
    simp only [step, hl]
    rfl
  | _ => cases he

end World

end EngineDir
