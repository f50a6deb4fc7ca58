import EngineDir.Proofs.Staging
import EngineDir.Proofs.Runs
import EngineDir.Proofs.Warnings

/-!
# What stores do in their directories

Each operation of a store or of one of its handles is a work in the store's directory:
it touches the entry of the file or of the pointer that it is for, and the log.

* `Tidy`: no file's name is that of a link, and every pointer can be staged.
* `Store.Does`: what an operation did. `Store.setManifest_does`, `Handle.write_does`, …: **what
  each operation does.**
* `World.Fills`, `Event.Binds`: the names that an event touches.
* `World.step_does`: **what is asked of a store touches these names, and the log.**
-/

namespace EngineDir

open FileSystem

/-- In the directory of the trail `t` the files of a store can be opened, and pointers staged,
without touching another entry. -/
structure Tidy (t : Trail) (fs : FileSystem) : Prop where
  file : ∀ id n, FileId.Named id n → NoLink fs t.here n
  staged : ∀ p : Proposal, p.dir = t.path → Publication.Stageable p t.here fs

theorem tidy_of_noLink {t : Trail} {fs : FileSystem} (h : ∀ n, NoLink fs t.here n) : Tidy t fs :=
  ⟨fun _ n _ => h n, fun _ _ => Or.inl (h _)⟩

variable {fs fs' : FileSystem} {t : Trail} {D : NodeId} {F N F' N' : Bytes → Prop}
  {now : Clock.Reading} {text : String} {id : FileId} {n : Bytes} {log' : Option SessionLog}

/-- What an operation of the store `s`, which is `s'` afterwards, did: works in the directory `D`, with
the lines `said` in the log. If the store still has its log or its lock, the log is the one that the
works leave. -/
def Store.Does (D : NodeId) (F N : Bytes → Prop) (now : Clock.Reading) (fs : FileSystem) (s : Store)
    (said : List String) (fs' : FileSystem) (s' : Store) : Prop :=
  ∃ log', Works D F N now fs s.log said fs' log' ∧
    (s'.log = log' ∨ (s'.log = none ∧ s'.lock = none))

namespace Store

variable {s s' : Store} {said : List String}

theorem Does.refl (hlog : s'.log = s.log) : Does D F N now fs s [] fs s' :=
  ⟨s.log, .refl, Or.inl hlog⟩

theorem Does.one {c : Change} (hc : c.Fits fs) (hw : c.Within D F N fs) (hlog : s'.log = s.log) :
    Does D F N now fs s [] (c.apply fs) s' := ⟨s.log, .one hc hw, Or.inl hlog⟩

theorem Does.mono (h : Does D F N now fs s said fs' s') (hF : ∀ n, F n → F' n)
    (hN : ∀ n, N n → N' n) : Does D F' N' now fs s said fs' s' := by
  obtain ⟨log', hw, hlog⟩ := h
  exact ⟨log', hw.mono hF hN, hlog⟩

/-- To give a lock up is no work in any directory. -/
theorem works_release {log : Option SessionLog} (h : Works D F N now fs log said fs' log') (s : Store) :
    Works D F N now fs log said (s.releaseLock fs') log' := by
  unfold releaseLock
  split
  · exact h
  · rename_i l _
    exact h.step (c := .unlock l.node) trivial trivial

theorem does_warn {α : Type} (hlog : s'.log = s.log) (r : Except StoreError α) :
    Does D F N now fs s [text] (s'.warn fs now text r).fs (s'.warn fs now text r).store := by
  rw [warn_eq, hlog]
  exact ⟨_, Works.tell fs s.log text, Or.inl rfl⟩

theorem logMessage_does : Does D F N now fs s (s.tells fs now (.log text))
    (s.logMessage fs now text).2 (s.logMessage fs now text).1 := by
  by_cases hc : s.closed = true
  · have htells : s.tells fs now (.log text) = [] := if_pos hc
    have hlog : s.logMessage fs now text = (s, fs) := if_pos hc
    rw [htells, hlog]
    exact .refl rfl
  · have htells : s.tells fs now (.log text) = [text] := if_neg hc
    have hlog : s.logMessage fs now text = s.record fs now text := if_neg hc
    rw [htells, hlog, record_eq]
    exact ⟨_, Works.tell fs s.log text, Or.inl rfl⟩

theorem close_does : Does D F N now fs s (s.warns fs now .close) (s.close fs now).fs
    (s.close fs now).store := by
  by_cases hc : s.closed = true
  · have hwarns : s.warns fs now .close = [] := if_pos (Or.inl hc)
    have hclose : s.close fs now = .refuse fs s .closed := if_pos hc
    rw [hwarns, hclose]
    exact .refl rfl
  · by_cases hn : s.openCount = 0
    · have hwarns : s.warns fs now .close = [] := if_pos (Or.inr hn)
      have hclose : s.close fs now = _ := (if_neg hc).trans (if_neg (not_not_intro hn))
      rw [hwarns, hclose]
      exact ⟨s.log, works_release .refl s, Or.inr ⟨rfl, rfl⟩⟩
    · have hwarns : s.warns fs now .close = [World.busyText s.openCount] :=
        if_neg (not_or.2 ⟨hc, hn⟩)
      have hclose : s.close fs now = _ := (if_neg hc).trans (if_pos hn)
      rw [hwarns, hclose]
      exact does_warn rfl _

theorem abandon_does : Does D F N now fs s (s.warns fs now .abandon) (s.abandon fs now).fs
    (s.abandon fs now).store := by
  by_cases hc : s.closed = true
  · have hwarns : s.warns fs now .abandon = [] := if_pos hc
    rw [hwarns, abandon, if_pos hc]
    exact .refl rfl
  · have hwarns : s.warns fs now .abandon = [droppedText s.openCount] := if_neg hc
    rw [hwarns, abandon, if_neg hc]
    simp only [warn_eq]
    split
    · exact ⟨_, Works.tell fs s.log _, Or.inl rfl⟩
    · exact ⟨_, works_release (Works.tell fs s.log _) _, Or.inr ⟨rfl, rfl⟩⟩

theorem endTurn_log (token : Nat) : (s.endTurn token).log = s.log := by
  obtain ⟨turn, h⟩ := s.endTurn_eq token
  rw [h]

theorem openFile_does :
    Does D F N now fs s [] (s.openFile fs id).fs (s.openFile fs id).store := by
  rw [openFile_fs]
  rcases s.openFile_cases fs id with ⟨-, hst⟩ | ⟨x, ho⟩
  · exact .refl (by rw [hst])
  · exact .refl (by rw [ho.store])

/-- What is created when a file is: the name is opened for writing, and the handle begins there. -/
theorem createFile_ok {x : Handle} (hx : (s.createFile fs id).result = .ok x) :
    ∃ cs i, s.access id .alreadyOpen = .ok cs ∧
      fs.openForWriting true (s.pathOf cs) = .ok ((s.createFile fs id).fs, i) ∧
      (s.createFile fs id).store = { s with openIds := id :: s.openIds } ∧
      x = { id := id, path := s.pathOf cs, mode := .writer,
            file := some { node := i, pos := 0 } } := by
  revert hx
  unfold createFile
  split
  · intro hx
    cases hx
  · rename_i cs hcs
    simp only
    split
    · intro hx
      cases hx
    · rename_i fs₁ i ho
      intro hx
      exact ⟨cs, i, hcs, ho, rfl, (Except.ok.inj hx).symm⟩

theorem createFile_refused {e : StoreError} (he : (s.createFile fs id).result = .error e) :
    (s.createFile fs id).fs = fs ∧ (s.createFile fs id).store = s := by
  revert he
  unfold createFile
  split
  · exact fun _ => ⟨rfl, rfl⟩
  · simp only
    split
    · exact fun _ => ⟨rfl, rfl⟩
    · intro he
      cases he

/-- What comes of creating a file: its name is bound to an empty file, unless it was bound to a
device. -/
theorem createFile_does (now : Clock.Reading) (hs : fs.Sound) (ht : t.Stands fs)
    (hd : s.dir = t.path) (htidy : Tidy t fs) {x : Handle}
    (hx : (s.createFile fs id).result = .ok x) :
    Does t.here id.Named id.Named now fs s [] (s.createFile fs id).fs (s.createFile fs id).store := by
  obtain ⟨cs, i, hcs, ho, hstore, -⟩ := createFile_ok hx
  obtain ⟨-, hname, -⟩ := access_ok hcs
  have hnamed : id.Named (Utf8.encode cs) := ⟨cs, hname, rfl⟩
  rw [pathOf, hd] at ho
  have hop := openedForWriting now hs ht hnamed.nameable.1 hnamed.nameable.2
    (htidy.file id _ hnamed) ho
  refine ⟨s.log, (hop.works s.log).mono ?_ ?_, Or.inl (by rw [hstore])⟩
  · rintro n ⟨rfl, -⟩
    exact hnamed
  · rintro n rfl
    exact hnamed

theorem removeFile_does (hs : fs.Sound) (ht : t.Stands fs) (hd : s.dir = t.path) :
    Does t.here F (fun n => id.Named n ∧ (s.removeFile fs now id).result = .ok ()) now fs s
      (s.warns fs now (.removeFile id)) (s.removeFile fs now id).fs
      (s.removeFile fs now id).store := by
  have ha := ht.arrives hs
  rw [← hd] at ha
  rw [← removeFile_warnings]
  unfold removeFile
  split
  · exact .refl rfl
  · rename_i name hname
    obtain ⟨-, hn, -⟩ := access_ok hname
    have hnamed : id.Named (Utf8.encode name) := ⟨name, hn, rfl⟩
    simp only
    split
    · exact does_warn rfl _
    · rename_i fs₁ hr
      obtain ⟨i, hl, -, rfl⟩ := ha.remove_ok hnamed.nameable.1 hnamed.nameable.2 hr
      exact .one (c := .unbind t.here (Utf8.encode name)) ⟨i, hl⟩ ⟨rfl, hnamed, rfl⟩ rfl

/-! ## Publications -/

theorem setManifest_does (hs : fs.Sound) (ht : t.Stands fs) (hd : s.dir = t.path)
    (htidy : Tidy t fs) :
    Does t.here (fun n => n = (s.proposal now id).entry)
      (Publication.Moved (s.proposal now id) ((s.setManifest fs now id).result = .ok ())) now fs s
      (s.warns fs now (.setManifest id)) (s.setManifest fs now id).fs
      (s.setManifest fs now id).store := by
  have hstageable := htidy.staged (s.proposal now id) hd
  rw [← setManifest_warnings hs ht hd hstageable]
  by_cases h : s.closed = true ∨ id.kind ≠ .manifest
  · obtain ⟨e, he, -⟩ := setManifest_refuse fs now h
    rw [he]
    exact .refl rfl
  · obtain ⟨hc, hk⟩ := not_or.1 h
    rw [setManifest_warned hc hk]
    have hc : s.closed = false := by simpa using hc
    obtain ⟨hfs, hstore, hres⟩ := s.setManifest_run fs now hc (Decidable.of_not_not hk)
    rw [hfs, hstore]
    have hsits : (Publication.begin fs s.log).stage.Sits (s.proposal now id) t.here
        (Publication.begin fs s.log).fs := hstageable
    obtain ⟨⟨said, hnotes, hw⟩, -⟩ := Publication.after_works (u := Publication.begin fs s.log) hs ht hd
      hsits (Publication.stepsFor id)
    have hsaid : warnings (Publication.run (s.proposal now id) fs s.log).notes = said :=
      (Publication.run_warnings (s.proposal now id) fs s.log).trans hnotes
    rw [hsaid]
    refine ⟨_, hw.mono (fun _ hn => hn) ?_, Or.inl rfl⟩
    rintro n (hn | ⟨hn, hr⟩)
    · exact Or.inl hn
    · refine Or.inr ⟨hn, ?_⟩
      -- whoever has renamed the staged file tells no failure
      cases Publication.phase_begin (s.proposal now id) fs s.log (Publication.stepsFor id) with
      | trying _ _ _ hr' => exact absurd hr hr'
      | failed _ _ _ hr' => exact absurd hr hr'
      | renamed _ _ he =>
        cases hok : (s.setManifest fs now id).result with
        | ok v => rfl
        | error e =>
          have := (hres e).1 hok
          rw [show (Publication.run (s.proposal now id) fs s.log).error? = none from he] at this
          cases this

end Store

/-! ## Handles -/

namespace Handle

variable {s : Store} {x : Handle}

theorem close_does : s.Does D F N now fs (x.warns fs .close) (x.close fs s now).1.fs
    (x.close fs s now).1.store := by
  unfold warns close
  cases x.file with
  | none => exact .refl rfl
  | some f =>
    simp only [Store.warn_eq]
    cases pending fs x f with
    | error e => exact ⟨_, Works.tell fs s.log _, Or.inl rfl⟩
    | ok u => exact .refl rfl

theorem abandon_does : s.Does D F N now fs (x.warns fs .abandon) (x.abandon fs s now).fs
    (x.abandon fs s now).store := by
  unfold warns abandon isClosed
  cases x.file with
  | none => exact .refl rfl
  | some f =>
    simp only [Store.warn_eq]
    exact ⟨_, Works.tell fs s.log _, Or.inl rfl⟩

/-- A write fills the file that is open. -/
theorem write_does (bytes : Bytes) :
    s.Does D (fun n => ∃ f, x.file = some f ∧ fs.lookup D n = some f.node) N now fs []
      (x.write fs bytes).2.2 s := by
  unfold write file?
  cases hf : x.file with
  | none => exact .refl rfl
  | some f =>
    simp only
    split
    · exact .refl rfl
    · rename_i fs₁ hw
      rcases writeAt_cases hw with rfl | ⟨b, hb, rfl⟩
      · exact .refl rfl
      · exact .one (c := .fill f.node _) ⟨b, hb⟩ (fun n hn => ⟨n, hn, f, rfl, hn⟩) rfl

end Handle

/-! ## Events -/

/-- The names whose files an event with the answer `a` may fill, in the directory `D`. -/
def World.Fills (w : World) (D : NodeId) : Event → Except Failure Value → Bytes → Prop
  | .store _ (.createFile _ id), .ok _, n => id.Named n
  | .store _ (.setManifest id), _, n => n = Utf8.encode (Current.stagingName id.seq)
  | .handle h (.write _), _, n =>
    ∃ x f, w.handles.get? h = some x ∧ x.value.file = some f ∧ w.fs.lookup D n = some f.node
  | .openStore _ _, _, n => n = SessionLog.entry
  | _, _, _ => False

/-- The names that an event with the answer `a` may bind or unbind. -/
def Event.Binds : Event → Except Failure Value → Bytes → Prop
  | .store _ (.createFile _ id), .ok _, n => id.Named n
  | .store _ (.removeFile id), .ok _, n => id.Named n
  | .store _ (.setManifest id), .ok _, n =>
    n = Utf8.encode (Current.stagingName id.seq) ∨ n = Current.entry
  | .store _ (.setManifest id), .error _, n => n = Utf8.encode (Current.stagingName id.seq)
  | .openStore _ _, _, n =>
    n = Utf8.encode DirLock.fileName ∨ n = SessionLog.entry ∨
      n = Utf8.encode SessionLog.oldFileName
  | _, _, _ => False

namespace World

variable {w w' : World} {s h k : Nat} {st : Store} {x : Handle} {e : Event}
  {a : Except Failure Value} {said : List String}

/-- What is asked of a store fills the file that is created or written, or a staged pointer. -/
theorem fills_cases (he : w.addressee? e = some s) (h : w.Fills D e a n) :
    (∃ h id v, e = .store s (.createFile h id) ∧ a = .ok v ∧ id.Named n) ∨
      (∃ id, e = .store s (.setManifest id) ∧ n = Utf8.encode (Current.stagingName id.seq)) ∨
      ∃ h bytes x f, e = .handle h (.write bytes) ∧ w.handles.get? h = some ⟨s, x⟩ ∧
        x.file = some f ∧ w.fs.lookup D n = some f.node := by
  cases e with
  | store k r =>
    obtain rfl : k = s := Option.some.inj he
    cases r with
    | createFile h' id =>
      cases a with
      | ok v => exact Or.inl ⟨h', id, v, rfl, rfl, h⟩
      | error err => exact h.elim
    | setManifest id => exact Or.inr (Or.inl ⟨id, rfl, h⟩)
    | _ => exact h.elim
  | handle h' r =>
    cases r with
    | write bytes =>
      obtain ⟨⟨s', x⟩, f, hx, hf, hl⟩ := h
      simp only [addressee?, hx, Option.map_some, Option.some.injEq] at he
      subst he
      exact Or.inr (Or.inr ⟨h', bytes, x, f, rfl, hx, hf, hl⟩)
    | _ => exact h.elim
  | endTurn l => exact h.elim
  | _ => cases he

/-- What is asked of a store binds or unbinds the name of a file that is created or removed, or the
names of the pointer. -/
theorem binds_cases (he : w.addressee? e = some s) (h : e.Binds a n) :
    (∃ h id v, e = .store s (.createFile h id) ∧ a = .ok v ∧ id.Named n) ∨
      (∃ id v, e = .store s (.removeFile id) ∧ a = .ok v ∧ id.Named n) ∨
      ∃ id, e = .store s (.setManifest id) ∧
        (n = Utf8.encode (Current.stagingName id.seq) ∨ n = Current.entry ∧ ∃ v, a = .ok v) := by
  cases e with
  | store k r =>
    obtain rfl : k = s := Option.some.inj he
    cases r with
    | createFile h' id =>
      cases a with
      | ok v => exact Or.inl ⟨h', id, v, rfl, rfl, h⟩
      | error err => exact h.elim
    | removeFile id =>
      cases a with
      | ok v => exact Or.inr (Or.inl ⟨id, v, rfl, rfl, h⟩)
      | error err => exact h.elim
    | setManifest id =>
      cases a with
      | ok v => exact Or.inr (Or.inr ⟨id, rfl, h.imp_right fun hn => ⟨hn, v, rfl⟩⟩)
      | error err => exact Or.inr (Or.inr ⟨id, rfl, Or.inl h⟩)
    | _ => exact h.elim
  | handle h' r => exact h.elim
  | endTurn l => exact h.elim
  | _ => cases he

/-- The names of the lock and the logs begin with another letter than those of the pointer, and are
no file's names. -/
theorem not_binds (he : w.addressee? e = some s) {cs : List Char} (hc : ControlText cs)
    (hL : cs.head? = some 'L') : ¬e.Binds a (Utf8.encode cs) := by
  have hctl : Control (Utf8.encode cs) := ⟨cs, hc, rfl⟩
  have hstaged : ∀ seq, Utf8.encode cs ≠ Utf8.encode (Current.stagingName seq) := fun seq h =>
    stagingName_ne seq (by rw [hL]; decide) (Utf8.encode_injective h).symm
  intro h
  rcases binds_cases he h with ⟨_, id, _, -, -, hid⟩ | ⟨id, _, -, -, hid⟩ | ⟨id, -, hn | ⟨hn, -⟩⟩
  · exact hid.not_control hctl
  · exact hid.not_control hctl
  · exact hstaged id.seq hn
  · exact Current.encode_ne_current hL hn

/-- Such a file is filled only by the handle that is open on it. -/
theorem not_fills (he : w.addressee? e = some s) {cs : List Char} (hc : ControlText cs)
    (hL : cs.head? = some 'L')
    (hw : ∀ h x f, w.handles.get? h = some ⟨s, x⟩ → x.file = some f →
      w.fs.lookup D (Utf8.encode cs) ≠ some f.node) : ¬w.Fills D e a (Utf8.encode cs) := by
  intro h
  rcases fills_cases he h with ⟨_, id, _, -, -, hid⟩ | ⟨id, -, hn⟩ | ⟨k, _, x, f, -, hx, hf, hl⟩
  · exact hid.not_control ⟨cs, hc, rfl⟩
  · exact stagingName_ne id.seq (by rw [hL]; decide) (Utf8.encode_injective hn).symm
  · exact hw k x f hx hf hl

/-- What an event did that was asked of the store `s`, which was `st` before. -/
def Does (w : World) (D : NodeId) (F N : Bytes → Prop) (now : Clock.Reading) (s : Nat) (st : Store)
    (said : List String) (w' : World) : Prop :=
  ∃ st', w'.stores.get? s = some st' ∧ st.Does D F N now w.fs said w'.fs st'

theorem Does.refl (hs : w.stores.get? s = some st) : w.Does D F N now s st [] w :=
  ⟨st, hs, .refl rfl⟩

/-- A store in which nobody has a share any more gives its lock up. -/
theorem Does.settle (h : w.Does D F N now s st said w') (k : Nat) :
    w.Does D F N now s st said (w'.settle k) := by
  obtain ⟨st', hs', hd⟩ := h
  rcases w'.settle_cases k with he | ⟨st₁, hk, -, he⟩
  · rw [he]
    exact ⟨st', hs', hd⟩
  · rw [he]
    obtain ⟨log', hw, hlog⟩ := hd
    by_cases hsk : s = k
    · subst hsk
      exact ⟨st₁.vacated, Table.get?_insert_self _ _ _, log', Store.works_release hw st₁,
        Or.inr ⟨rfl, rfl⟩⟩
    · exact ⟨st', (Table.get?_insert_of_ne _ _ hsk).trans hs', log', Store.works_release hw st₁,
        hlog⟩

/-- What an operation did is what the event did that asked for it. -/
theorem does_reacting {α : Type} (w' : World) {f : α → Value} {o : Outcome α}
    (h : st.Does D F N now w.fs said o.fs o.store) :
    w.Does D F N now s st said (w'.reacting s f o).world :=
  ⟨o.store, Table.get?_insert_self _ _ _, h⟩

theorem does_receiving {o : Outcome Handle} (h₀ : st.Does D F N now w.fs said o.fs o.store) :
    w.Does D F N now s st said (w.receiving s h o).world := by
  unfold receiving
  split
  · exact does_reacting w h₀
  · exact ⟨o.store, Table.get?_insert_self _ _ _, h₀⟩

/-- What was asked of a store. -/
theorem stepStore_does (hs : w.fs.Sound) (ht : t.Stands w.fs) (htidy : Tidy t w.fs)
    (hst : w.stores.get? s = some st) (hd : st.dir = t.path) (r : StoreRequest) :
    w.Does t.here (w.Fills t.here (.store s r) (w.stepStore now s st r).answer)
      ((Event.store s r).Binds (w.stepStore now s st r).answer) now s st (st.tells w.fs now r)
      (w.stepStore now s st r).world := by
  cases r with
  | close => exact does_reacting w Store.close_does
  | abandon => exact (does_reacting w Store.abandon_does).settle s
  | log text => exact ⟨_, Table.get?_insert_self _ _ _, Store.logMessage_does⟩
  | list kinds => exact .refl hst
  | manifest => exact .refl hst
  | setManifest id =>
    refine does_reacting w ((Store.setManifest_does hs ht hd htidy).mono (fun n hn => hn) ?_)
    simp only [stepStore, reacting]
    cases (st.setManifest w.fs now id).result with
    | ok v =>
      rintro n (hn | ⟨hn, -⟩)
      · exact Or.inl hn
      · exact Or.inr hn
    | error err =>
      rintro n (hn | ⟨-, hok⟩)
      · exact hn
      · cases hok
  | removeFile id =>
    refine does_reacting w ((Store.removeFile_does hs ht hd).mono (fun n hn => hn) ?_)
    rintro n ⟨hn, hok⟩
    simp only [stepStore, reacting, hok]
    exact hn
  | openFile h id =>
    simp only [stepStore]
    split
    · exact .refl hst
    · exact does_receiving Store.openFile_does
  | createFile h id =>
    by_cases hc : w.handles.contains h = true
    · simp only [stepStore, if_pos hc]
      exact .refl hst
    · simp only [stepStore, if_neg hc]
      cases hr : (st.createFile w.fs id).result with
      | error e =>
        obtain ⟨hfs, hstore⟩ := Store.createFile_refused hr
        refine does_receiving ?_
        rw [hfs]
        exact .refl (by rw [hstore])
      | ok x =>
        refine does_receiving ((Store.createFile_does now hs ht hd htidy hr).mono ?_ ?_)
        · intro n hn
          simp only [receiving, hr]
          exact hn
        · intro n hn
          simp only [receiving, hr]
          exact hn
  | takeTurn l =>
    simp only [stepStore]
    split
    · exact .refl hst
    · unfold receivingTurn
      rcases st.takeTurn_cases w.fs with ⟨⟨err, he⟩, hstore⟩ | ⟨hr, -, hstore⟩
      · rw [he]
        refine does_reacting w ?_
        rw [Store.takeTurn_fs]
        exact .refl (by rw [hstore])
      · simp only [hr]
        refine ⟨_, Table.get?_insert_self _ _ _, ?_⟩
        rw [hstore]
        simp only [withOutcome, Store.takeTurn_fs]
        exact .refl rfl

/-- What was asked of a handle. -/
theorem stepHandle_does (hh : w.handles.get? h = some ⟨s, x⟩) (hst : w.stores.get? s = some st)
    (r : HandleRequest) :
    w.Does D (w.Fills D (.handle h r) (w.stepHandle now h s st x r).answer) N now s st
      (x.warns w.fs r) (w.stepHandle now h s st x r).world := by
  cases r with
  | close => exact does_reacting (w.withHandle s h _) Handle.close_does
  | abandon =>
    exact (does_reacting { w with handles := w.handles.erase h } Handle.abandon_does).settle s
  | write bytes =>
    refine ⟨st, hst, (Handle.write_does bytes).mono ?_ fun n hn => hn⟩
    rintro n ⟨f, hf, hl⟩
    exact ⟨⟨s, x⟩, f, hh, hf, hl⟩
  | seek m => exact ⟨st, hst, .refl rfl⟩
  | read n => exact ⟨st, hst, .refl rfl⟩
  | readExact n => exact ⟨st, hst, .refl rfl⟩
  | readAll => exact ⟨st, hst, .refl rfl⟩
  | readAt pos n => exact .refl hst
  | readExactAt pos n => exact .refl hst
  | length => exact .refl hst
  | isEmpty => exact .refl hst
  | flush => exact .refl hst
  | sync => exact .refl hst

/-- **What is asked of a store touches the names of the event, and the log.** -/
theorem step_does (now : Clock.Reading) (hs : w.fs.Sound) (ht : t.Stands w.fs)
    (htidy : Tidy t w.fs) (he : w.addressee? e = some s) (hst : w.stores.get? s = some st)
    (hd : st.dir = t.path) :
    w.Does t.here (w.Fills t.here e (step now w e).answer) (e.Binds (step now w e).answer) now s st
      (w.said now e) (step now w e).world := by
  cases e with
  | store s' r =>
    obtain rfl : s' = s := Option.some.inj he
    simp only [step, said, hst]
    cases ho : st.owned with
    | true => exact stepStore_does hs ht htidy hst hd r
    | false => exact .refl hst
  | handle h r =>
    simp only [addressee?, Option.map_eq_some_iff] at he
    obtain ⟨⟨s', x⟩, hh, rfl⟩ := he
    have hsaid : w.said now (.handle h r) = x.warns w.fs r := by simp only [said, warned, hh]
    simp only [step, hh, hst]
    rw [hsaid]
    by_cases hr : r.suits x.mode = true
    · simp only [if_pos hr]
      exact stepHandle_does hh hst r
    · simp only [if_neg hr]
      rw [warns_of_unsuited hr]
      exact .refl hst
  | endTurn l =>
    simp only [addressee?, Option.map_eq_some_iff] at he
    obtain ⟨⟨s', token⟩, hl, rfl⟩ := he
    simp only [step, hl, stepEndTurn, hst]
    have hended : w.Does t.here (w.Fills t.here (.endTurn l) (.ok .done))
        ((Event.endTurn l).Binds (.ok .done)) now s' st []
        { w with turns := w.turns.erase l, stores := w.stores.insert s' (st.endTurn token) } :=
      ⟨_, Table.get?_insert_self _ _ _, .refl (Store.endTurn_log token)⟩
    exact hended.settle s'
  | outside o => cases he
  | openStore s' o => cases he
  | acquire l dir => cases he
  | release l => cases he
  | openLog l dir rotate => cases he
  | writeLog l text => cases he
  | closeLog l => cases he
  | abandonLog l => cases he
  | readManifest dir => cases he

end World

end EngineDir
