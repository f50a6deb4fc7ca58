import EngineDir.Proofs.Works

/-!
# What a publication touches

A publication tries its calls in turn until one is refused or the staged file is
renamed. Whatever happens, it touches the staged file, the pointer if the staged file is
renamed, and the log.

* `Publication.Refuses`: the next call is refused.
* `Publication.Phase`, `Publication.phase_after`: **how far a publication has come.**
* `Stageable`: the staged file can be opened without touching another entry.
* `Publication.after_works`: **the names that a publication touches and the lines that it
  writes.**
* `Publication.after_closed`: **what is done after a refusal, and what is left then.**
* `Publication.run_refused`: why a publication failed, and what it did then.
* `Publication.after_quiet`, `Publication.run_told`: **what a publication tells.**
-/

namespace EngineDir

open FileSystem

namespace Publication

variable {p : Proposal} {u : Publication} {action : String} {e : Errno} {fs : FileSystem} {t : Trail}
  {D : NodeId}

/-! ## The order of the calls -/

/-- The next call is refused with `e`; `action` says which one it is. -/
inductive Refuses (p : Proposal) (u : Publication) : String → Errno → Prop
  | create {e : Errno} (hst : u.stage = .create)
      (h : u.fs.openForWriting true p.staged = .error e) : Refuses p u "create" e
  | write {f : OpenFile} {b : UInt8} {rest : Bytes} {e : Errno} (hst : u.stage = .write f b rest)
      (h : u.fs.writeAt f.node f.pos [b] = .error e) : Refuses p u "write" e
  | sync {f : OpenFile} {e : Errno} (hst : u.stage = .sync f) (h : u.fs.sync f.node = .error e) :
      Refuses p u "sync" e
  | rename {e : Errno} (hst : u.stage = .rename)
      (h : u.fs.rename p.staged (Current.pathIn p.dir) = .error e) : Refuses p u "rename" e

/-- The pointer is not published yet, and no call was refused. -/
def Stage.Tries : Stage → Prop
  | .create => True
  | .write _ _ _ => True
  | .sync _ => True
  | .rename => True
  | _ => False

/-- A call was refused. -/
def Stage.Fails : Stage → Prop
  | .report _ => True
  | .discard => True
  | .remark _ => True
  | .finished => True
  | _ => False

/-- The pointer is published. -/
def Stage.Ends : Stage → Prop
  | .syncDirectory => True
  | .remark _ => True
  | .finished => True
  | _ => False

theorem step_refuses (h : Refuses p u action e) : step p u = u.refused (p.failure action e) := by
  cases h with
  | create hst h => simp only [step, hst, h]
  | write hst h => simp only [step, hst, h]
  | sync hst h => simp only [step, hst, h]
  | rename hst h => simp only [step, hst, h]

theorem Refuses.not_renames (h : Refuses p u action e) : ¬Renames p u := by
  rintro ⟨hr, fs', hok⟩
  cases h with
  | create hst h => rw [hst] at hr; cases hr
  | write hst h => rw [hst] at hr; cases hr
  | sync hst h => rw [hst] at hr; cases hr
  | rename hst h => rw [h] at hok; cases hok

theorem tries_beforeBytes (p : Proposal) (f : OpenFile) (bytes : Bytes) :
    (p.beforeBytes f bytes).Tries := by
  cases bytes with
  | nil => by_cases h : p.sync <;> simp [Proposal.beforeBytes, Proposal.afterLine, h, Stage.Tries]
  | cons b rest => trivial

/-- A step that goes on to a stage, without a refusal and without a line in the log. -/
structure GoesOn (u u' : Publication) (S : Stage → Prop) : Prop where
  stage : S u'.stage
  error : u'.error? = u.error?
  notes : u'.notes = u.notes
  log : u'.log = u.log

/-- What the next call comes to while the publication tries: it is refused, or it renames the staged
file, or the publication goes on. -/
theorem step_tries (h : u.stage.Tries) :
    (∃ action e, Refuses p u action e) ∨ (Renames p u ∧ GoesOn u (step p u) Stage.Ends) ∨
      (¬Renames p u ∧ GoesOn u (step p u) Stage.Tries) := by
  cases hst : u.stage with
  | create =>
    cases ho : u.fs.openForWriting true p.staged with
    | error e => exact Or.inl ⟨_, e, .create hst ho⟩
    | ok q =>
      refine Or.inr (Or.inr ⟨not_renames (by simp [hst]), ?_⟩)
      simp only [step, hst, ho]
      exact ⟨tries_beforeBytes p _ _, rfl, rfl, rfl⟩
  | write f b rest =>
    cases hw : u.fs.writeAt f.node f.pos [b] with
    | error e => exact Or.inl ⟨_, e, .write hst hw⟩
    | ok fs' =>
      refine Or.inr (Or.inr ⟨not_renames (by simp [hst]), ?_⟩)
      simp only [step, hst, hw]
      exact ⟨tries_beforeBytes p _ _, rfl, rfl, rfl⟩
  | sync f =>
    cases hs : u.fs.sync f.node with
    | error e => exact Or.inl ⟨_, e, .sync hst hs⟩
    | ok v =>
      refine Or.inr (Or.inr ⟨not_renames (by simp [hst]), ?_⟩)
      simp only [step, hst, hs]
      exact ⟨trivial, rfl, rfl, rfl⟩
  | rename =>
    cases hr : u.fs.rename p.staged (Current.pathIn p.dir) with
    | error e => exact Or.inl ⟨_, e, .rename hst hr⟩
    | ok fs' =>
      refine Or.inr (Or.inl ⟨⟨hst, fs', hr⟩, ?_⟩)
      simp only [step, hst, hr]
      refine ⟨?_, rfl, rfl, rfl⟩
      simp only [goOn, Proposal.afterRename]
      split <;> trivial
  | syncDirectory => rw [hst] at h; exact absurd h id
  | report e => rw [hst] at h; exact absurd h id
  | discard => rw [hst] at h; exact absurd h id
  | remark text => rw [hst] at h; exact absurd h id
  | finished => rw [hst] at h; exact absurd h id

/-- After a refusal nothing is renamed any more. -/
theorem step_fails (h : u.stage.Fails) : ¬Renames p u ∧ (step p u).stage.Fails := by
  cases hst : u.stage with
  | report e => exact ⟨not_renames (by simp [hst]), by simp [step, hst, warned, Stage.Fails]⟩
  | discard =>
    refine ⟨not_renames (by simp [hst]), ?_⟩
    simp only [step, hst]
    split <;> trivial
  | remark text => exact ⟨not_renames (by simp [hst]), by simp [step, hst, warned, Stage.Fails]⟩
  | finished => exact ⟨not_renames (by simp [hst]), by simp [step, hst, Stage.Fails]⟩
  | create => rw [hst] at h; exact absurd h id
  | write f b rest => rw [hst] at h; exact absurd h id
  | sync f => rw [hst] at h; exact absurd h id
  | rename => rw [hst] at h; exact absurd h id
  | syncDirectory => rw [hst] at h; exact absurd h id

theorem after_fails (h : u.stage.Fails) (k : Nat) :
    ¬Renamed p u k ∧ (after p k u).stage.Fails := by
  induction k with
  | zero => exact ⟨not_renamed_zero p u, h⟩
  | succ k ih =>
    rw [after_succ]
    exact ⟨not_renamed_succ ih.1 (step_fails ih.2).1, (step_fails ih.2).2⟩

theorem step_finished (hst : u.stage = .finished) : step p u = u := by simp [step, hst]

/-- After the renaming there is no failure any more, and only the log is touched. -/
theorem step_ends (h : u.stage.Ends) : (step p u).stage.Ends ∧ (step p u).error? = u.error? ∧
    ∀ i n, (step p u).fs.lookup i n = u.fs.lookup i n := by
  cases hst : u.stage with
  | syncDirectory =>
    simp only [step, hst]
    split
    · exact ⟨trivial, rfl, fun _ _ => rfl⟩
    · exact ⟨trivial, rfl, fun _ _ => rfl⟩
  | remark text =>
    simp only [step, hst, warned_fs]
    exact ⟨trivial, rfl, (record_sameWays _ _ _ _).lookup⟩
  | finished =>
    rw [step_finished hst]
    exact ⟨by rw [hst]; trivial, rfl, fun _ _ => rfl⟩
  | create => rw [hst] at h; exact absurd h id
  | write f b rest => rw [hst] at h; exact absurd h id
  | sync f => rw [hst] at h; exact absurd h id
  | rename => rw [hst] at h; exact absurd h id
  | report e => rw [hst] at h; exact absurd h id
  | discard => rw [hst] at h; exact absurd h id

/-- How far a publication has come that began as `u`, after `k` calls. -/
inductive Phase (p : Proposal) (u : Publication) (k : Nat) : Prop
  /-- All calls so far were granted. -/
  | trying (hst : (after p k u).stage.Tries) (he : (after p k u).error? = none)
      (hn : (after p k u).notes = []) (hr : ¬Renamed p u k)
  /-- The call after `j` others was refused. -/
  | failed {j i : Nat} {action : String} {e : Errno} (hk : k = j + (1 + i))
      (hf : Refuses p (after p j u) action e) (hn : (after p j u).notes = []) (hr : ¬Renamed p u k)
  /-- The staged file was renamed. -/
  | renamed (hr : Renamed p u k) (hst : (after p k u).stage.Ends) (he : (after p k u).error? = none)

/-- After a refusal the publication has failed. -/
theorem fails_refused (u : Publication) (e : StoreError) : (u.refused e).stage.Fails := trivial

theorem after_refused {j i : Nat} (h : Refuses p (after p j u) action e) :
    after p (j + (1 + i)) u = after p i ((after p j u).refused (p.failure action e)) := by
  rw [after_add, after_add, ← step_refuses h]
  rfl

/-- **How far a publication has come.** -/
theorem phase_after (hst : u.stage.Tries) (he : u.error? = none) (hn : u.notes = []) (k : Nat) :
    Phase p u k := by
  induction k with
  | zero => exact .trying hst he hn (not_renamed_zero p u)
  | succ k ih =>
    cases ih with
    | trying hst he hn hr =>
      rcases step_tries (p := p) hst with ⟨action, e, hf⟩ | ⟨hren, hon⟩ | ⟨hren, hon⟩
      · exact .failed (i := 0) rfl hf hn (not_renamed_succ hr hf.not_renames)
      · refine .renamed ⟨k, Nat.lt_succ_self k, hren⟩ ?_ ?_
        · rw [after_succ]; exact hon.stage
        · rw [after_succ, hon.error, he]
      · refine .trying ?_ ?_ ?_ (not_renamed_succ hr hren)
        · rw [after_succ]; exact hon.stage
        · rw [after_succ, hon.error, he]
        · rw [after_succ, hon.notes, hn]
    | @failed j i _ _ hk hf hn hr =>
      refine .failed (j := j) (i := i + 1) (by omega) hf hn (not_renamed_succ hr ?_)
      rw [hk, after_refused hf]
      exact (step_fails (after_fails (fails_refused _ _) i).2).1
    | renamed hr hst he =>
      obtain ⟨j, hj, hren⟩ := hr
      refine .renamed ⟨j, by omega, hren⟩ ?_ ?_
      · rw [after_succ]; exact (step_ends hst).1
      · rw [after_succ, (step_ends hst).2.1, he]

theorem phase_begin (p : Proposal) (fs : FileSystem) (log : Option SessionLog) (k : Nat) :
    Phase p (begin fs log) k := by
  have htries : (begin fs log).stage.Tries := trivial
  exact phase_after htries rfl rfl k

/-- A refused write back is the end of a publication: the staged file is never renamed. -/
theorem phase_unsynced {k : Nat} {f : OpenFile} (hu : ∀ k, Phase p u k)
    (hst : (after p k u).stage = .sync f) (h : (after p k u).fs.sync f.node = .error e) (j : Nat) :
    ¬Renamed p u j := by
  have hk : ¬Renamed p u k := by
    cases hu k with
    | trying _ _ _ hr => exact hr
    | failed _ _ _ hr => exact hr
    | renamed _ hends _ => rw [hst] at hends; exact absurd hends id
  rintro ⟨i, -, hren⟩
  rcases Nat.lt_trichotomy i k with hlt | rfl | hlt
  · exact hk ⟨i, hlt, hren⟩
  · exact absurd hren.1 (by simp [hst])
  · -- the calls after the refusal rename nothing
    obtain ⟨d, rfl⟩ : ∃ d, i = k + (1 + d) := ⟨i - k - 1, by omega⟩
    rw [after_refused (.sync hst h)] at hren
    exact (step_fails (after_fails (fails_refused _ _) d).2).1 hren

/-! ## The names that are touched -/

/-- What is open is the staged file, or a device. -/
def Opened (p : Proposal) (D : NodeId) (fs : FileSystem) (f : OpenFile) : Prop :=
  fs.lookup D p.entry = some f.node ∨ ∃ d, fs.face? f.node = some (.device d)

/-- The staged file can be opened without touching another entry: its name is no link, or it leads
to a device. -/
def Stageable (p : Proposal) (D : NodeId) (fs : FileSystem) : Prop :=
  NoLink fs D p.entry ∨ ∃ k d, fs.find (Path.ofText p.staged) = .ok k ∧ fs.face? k = some (.device d)

/-- What a stage relies on. -/
def Stage.Sits (p : Proposal) (D : NodeId) (fs : FileSystem) : Stage → Prop
  | .create => Stageable p D fs
  | .write f _ _ => Opened p D fs f
  | .sync f => Opened p D fs f
  | _ => True

theorem sits_beforeBytes {f : OpenFile} (h : Opened p D fs f) (bytes : Bytes) :
    (p.beforeBytes f bytes).Sits p D fs := by
  cases bytes with
  | nil =>
    rcases hp : p.sync with _ | _
    · have hstage : p.beforeBytes f [] = .rename := by
        simp [Proposal.beforeBytes, Proposal.afterLine, hp]
      rw [hstage]
      trivial
    · have hstage : p.beforeBytes f [] = .sync f := by
        simp [Proposal.beforeBytes, Proposal.afterLine, hp]
      rw [hstage]
      exact h
  | cons b rest => exact h

theorem advance_node (fs : FileSystem) (f : OpenFile) (count : Nat) :
    (fs.advance f count).node = f.node := by
  unfold advance
  split <;> rfl

/-- The names that a publication binds or unbinds: that of the staged file, and that of the pointer
once it is renamed. -/
def Moved (p : Proposal) (renamed : Prop) (n : Bytes) : Prop :=
  n = p.entry ∨ (n = Current.entry ∧ renamed)

/-- The changes of one call, and the lines that it writes. -/
def Touches (p : Proposal) (D : NodeId) (renamed : Prop) (u u' : Publication) : Prop :=
  ∃ said, u'.notes.map Note.text = u.notes.map Note.text ++ said ∧
    Works D (fun n => n = p.entry) (Moved p renamed) p.now u.fs u.log said u'.fs u'.log

theorem Touches.goOn {renamed : Prop} {u' : Publication} (hn : u'.notes = u.notes)
    (hw : Works D (fun n => n = p.entry) (Moved p renamed) p.now u.fs u.log [] u'.fs u'.log) :
    Touches p D renamed u u' := ⟨[], by simp [hn], hw⟩

theorem touches_warned {renamed : Prop} (text : String) (s : Stage) :
    Touches p D renamed u (u.warned p.now text s) := by
  refine ⟨[text], by simp [warned], ?_⟩
  rw [warned_fs, warned_log]
  exact Works.tell u.fs u.log text

/-- The opening of the staged file. -/
theorem touches_create (hs : u.fs.Sound) (ht : t.Stands u.fs)
    (hd : p.dir = t.path) (hst : u.stage = .create) (h : Stageable p t.here u.fs) :
    Touches p t.here (Renames p u) u (step p u) ∧
      (step p u).stage.Sits p t.here (step p u).fs := by
  have hname := nameable_staging p.id.seq
  cases ho : u.fs.openForWriting true p.staged with
  | error e =>
    rw [step_refuses (.create hst ho)]
    exact ⟨.goOn rfl .refl, trivial⟩
  | ok q =>
    obtain ⟨fs', i⟩ := q
    simp only [step, hst, ho]
    have hdone : Works t.here (fun n => n = p.entry) (Moved p (Renames p u)) p.now u.fs u.log []
        fs' u.log ∧ Opened p t.here fs' ⟨i, 0⟩ := by
      rcases h with hlink | ⟨k, d, hk, hdev⟩
      · have ha := ht.arrives hs
        rw [← hd] at ha
        rcases ha.openForWriting_ok hs hname.proper hname.length_le hlink ho with
          ⟨-, hf, rfl, rfl⟩ | ⟨hl, ⟨b, hb, rfl⟩ | ⟨d, hd', rfl⟩⟩
        · refine ⟨.one (c := .make t.here p.entry (.file [])) hf ⟨rfl, Or.inl rfl, rfl⟩, Or.inl ?_⟩
          exact (lookup_make hf.1 (hs.fresh _) hf.2.2.2.2.entries).trans (if_pos ⟨rfl, rfl⟩)
        · refine ⟨.one (c := .fill i []) ⟨b, hb⟩ fun _ _ => ⟨p.entry, hl, rfl⟩, Or.inl ?_⟩
          exact (lookup_fill hb).trans hl
        · exact ⟨.refl, Or.inl hl⟩
      · rw [openForWriting_device hs hk hdev true] at ho
        cases ho
        exact ⟨.refl, Or.inr ⟨d, hdev⟩⟩
    exact ⟨.goOn rfl hdone.1, sits_beforeBytes hdone.2 _⟩

/-- The writing of a byte. -/
theorem touches_write {f : OpenFile} {b : UInt8} {rest : Bytes}
    (hst : u.stage = .write f b rest) (h : Opened p D u.fs f) :
    Touches p D (Renames p u) u (step p u) ∧ (step p u).stage.Sits p D (step p u).fs := by
  cases hw : u.fs.writeAt f.node f.pos [b] with
  | error e =>
    rw [step_refuses (.write hst hw)]
    exact ⟨.goOn rfl .refl, trivial⟩
  | ok fs' =>
    simp only [step, hst, hw]
    have hnode := advance_node u.fs f 1
    rcases writeAt_cases hw with rfl | ⟨b₀, hb, rfl⟩
    · refine ⟨.goOn rfl .refl, sits_beforeBytes ?_ _⟩
      rw [Opened, hnode]
      exact h
    · -- a file takes the byte, and it is the staged one
      have hl : u.fs.lookup D p.entry = some f.node := by
        rcases h with hl | ⟨d, hd⟩
        · exact hl
        · rw [hb] at hd; cases hd
      have hfill : Works D (fun n => n = p.entry) (Moved p (Renames p u)) p.now u.fs u.log []
          ((Change.fill f.node (overlay b₀ f.pos [b])).apply u.fs) u.log :=
        .one ⟨b₀, hb⟩ fun _ _ => ⟨p.entry, hl, rfl⟩
      refine ⟨.goOn rfl hfill, sits_beforeBytes ?_ _⟩
      rw [Opened, hnode]
      exact Or.inl ((lookup_fill hb).trans hl)

/-- The renaming of the staged file. -/
theorem touches_rename (hs : u.fs.Sound) (ht : t.Stands u.fs) (hd : p.dir = t.path)
    (hst : u.stage = .rename) : Touches p t.here (Renames p u) u (step p u) := by
  have hname := nameable_staging p.id.seq
  cases hr : u.fs.rename p.staged (Current.pathIn p.dir) with
  | error e =>
    rw [step_refuses (.rename hst hr)]
    exact .goOn rfl .refl
  | ok fs' =>
    have hren : Renames p u := ⟨hst, fs', hr⟩
    simp only [step, hst, hr]
    have ha := ht.arrives hs
    rw [← hd] at ha
    refine .goOn rfl ?_
    rcases ha.rename hs hname.proper nameable_current.proper hr with ⟨rfl, -⟩ | ⟨k, hf, rfl⟩
    · exact .refl
    · exact .one hf ⟨rfl, rfl, Or.inl rfl, Or.inr ⟨rfl, hren⟩⟩

/-- The removal of the staged file. -/
theorem touches_discard (hs : u.fs.Sound) (ht : t.Stands u.fs) (hd : p.dir = t.path)
    (hst : u.stage = .discard) : Touches p t.here (Renames p u) u (step p u) := by
  have hname := nameable_staging p.id.seq
  have ha := ht.arrives hs
  rw [← hd] at ha
  simp only [step, hst]
  split
  · exact .goOn rfl .refl
  · exact .goOn rfl .refl
  · rename_i fs' hrem
    obtain ⟨i, hl, -, rfl⟩ := ha.remove_ok hname.proper hname.length_le hrem
    exact .goOn rfl (.one (c := .unbind t.here p.entry) ⟨i, hl⟩ ⟨rfl, Or.inl rfl⟩)

/-- **What one call touches.** -/
theorem step_touches (hs : u.fs.Sound) (ht : t.Stands u.fs)
    (hd : p.dir = t.path) (h : u.stage.Sits p t.here u.fs) :
    Touches p t.here (Renames p u) u (step p u) ∧
      (step p u).stage.Sits p t.here (step p u).fs := by
  cases hst : u.stage with
  | create => rw [hst] at h; exact touches_create hs ht hd hst h
  | write f b rest => rw [hst] at h; exact touches_write hst h
  | sync f =>
    simp only [step, hst]
    split
    · exact ⟨.goOn rfl .refl, trivial⟩
    · exact ⟨.goOn rfl .refl, trivial⟩
  | rename =>
    refine ⟨touches_rename hs ht hd hst, ?_⟩
    simp only [step, hst]
    split
    · trivial
    · simp only [goOn, Proposal.afterRename]
      split <;> trivial
  | syncDirectory =>
    simp only [step, hst]
    split
    · exact ⟨.goOn rfl .refl, trivial⟩
    · exact ⟨.goOn rfl .refl, trivial⟩
  | report e =>
    simp only [step, hst]
    exact ⟨touches_warned _ _, trivial⟩
  | discard =>
    refine ⟨touches_discard hs ht hd hst, ?_⟩
    simp only [step, hst]
    split <;> trivial
  | remark text =>
    simp only [step, hst]
    exact ⟨touches_warned _ _, trivial⟩
  | finished =>
    rw [step_finished hst, hst]
    exact ⟨.goOn rfl .refl, trivial⟩

/-- **The names that a publication touches and the lines that it writes.** -/
theorem after_works (hs : u.fs.Sound) (ht : t.Stands u.fs)
    (hd : p.dir = t.path) (h : u.stage.Sits p t.here u.fs) (k : Nat) :
    Touches p t.here (Renamed p u k) u (after p k u) ∧
      (after p k u).stage.Sits p t.here (after p k u).fs := by
  induction k with
  | zero => exact ⟨.goOn rfl .refl, h⟩
  | succ k ih =>
    obtain ⟨⟨said, hnotes, hw⟩, hsits⟩ := ih
    obtain ⟨⟨said', hnotes', hw'⟩, hsits'⟩ :=
      step_touches (hw.sound hs) (hw.stands hs ht) hd hsits
    rw [after_succ]
    refine ⟨⟨said ++ said', ?_, ?_⟩, hsits'⟩
    · rw [hnotes', hnotes, List.append_assoc]
    · refine (hw.mono (fun _ hn => hn) ?_).trans (hw'.mono (fun _ hn => hn) ?_)
      · rintro n (hn | ⟨hn, j, hj, hren⟩)
        · exact Or.inl hn
        · exact Or.inr ⟨hn, j, by omega, hren⟩
      · rintro n (hn | ⟨hn, hren⟩)
        · exact Or.inl hn
        · exact Or.inr ⟨hn, k, Nat.lt_succ_self k, hren⟩

/-- The name of the staged file is free once the file is renamed. -/
theorem lookup_renamed (hs : u.fs.Sound) (hone : u.fs.OneName t.here) (ht : t.Stands u.fs)
    (hd : p.dir = t.path) (h : u.stage.Sits p t.here u.fs) {k : Nat} (hr : Renamed p u k) :
    (after p k u).fs.lookup t.here p.entry = none := by
  have hname := nameable_staging p.id.seq
  obtain ⟨j, hj, hst, fs', hok⟩ := hr
  obtain ⟨d, rfl⟩ : ∃ d, k = j + (1 + d) := ⟨k - j - 1, by omega⟩
  obtain ⟨⟨_, -, hw⟩, -⟩ := after_works hs ht hd h j
  have hs' := hw.sound hs
  have ha := (hw.stands hs ht).arrives hs'
  rw [← hd] at ha
  obtain ⟨i, hf, rfl⟩ : ∃ i, (Change.move t.here p.entry t.here Current.entry i).Fits
      (after p j u).fs ∧ fs' = (Change.move t.here p.entry t.here Current.entry i).apply
        (after p j u).fs := by
    rcases ha.rename hs' hname.proper nameable_current.proper hok with ⟨-, i, hl, hl'⟩ | hmove
    · exact absurd (hw.oneName hs hone _ _ _ hl hl') (staging_ne_current p)
    · exact hmove
  -- after the renaming no name is bound any more
  have hlater : ∀ d, (after p d (step p (after p j u))).stage.Ends ∧
      (after p d (step p (after p j u))).fs.lookup t.here p.entry =
        (step p (after p j u)).fs.lookup t.here p.entry := by
    intro d
    induction d with
    | zero =>
      refine ⟨?_, rfl⟩
      simp only [after, step, hst, hok, goOn, Proposal.afterRename]
      split <;> trivial
    | succ d ih =>
      rw [after_succ]
      exact ⟨(step_ends ih.1).1, ((step_ends ih.1).2.2 _ _).trans ih.2⟩
  rw [after_add, after_add]
  refine (hlater d).2.trans ?_
  simp only [step, hst, hok, goOn, Change.apply]
  rw [lookup_bind (by simpa using hf.2.1), if_neg (fun he => staging_ne_current p he.2),
    lookup_unbind, if_pos ⟨rfl, rfl⟩]

/-! ## After a refusal -/

/-- What is still said of the staged file when the failure is logged: why it could not be removed. -/
def leftover (p : Proposal) (fs : FileSystem) : List String :=
  match fs.remove p.staged with
  | .ok _ => []
  | .error .noEntry => []
  | .error e => [p.leftoverText e]

/-- Whether there is a directory in place of the staged file. -/
def Blocked (p : Proposal) (D : NodeId) (fs : FileSystem) : Prop :=
  ∃ i, fs.lookup D p.entry = some i ∧ fs.isDirectory i = true

/-- Whether the staged file cannot be removed: there is a directory in its place, or the system
refuses to remove it. -/
def Barred (p : Proposal) (D : NodeId) (fs : FileSystem) : Prop :=
  Blocked p D fs ∨ ∃ e, fs.refusals.remove p.staged = some e

/-- The removal of the staged file, which fails if it is a directory or the system refuses it. -/
theorem step_discards (hs : u.fs.Sound) (ht : t.Stands u.fs) (hd : p.dir = t.path)
    (hst : u.stage = .discard) :
    (leftover p u.fs = [] ∧ ∃ fs', step p u = u.goOn fs' .finished ∧
        (fs'.lookup t.here p.entry = none ∨ Barred p t.here u.fs)) ∨
      ∃ text, leftover p u.fs = [text] ∧ step p u = u.goOn u.fs (.remark text) ∧
        Barred p t.here u.fs := by
  have hname := nameable_staging p.id.seq
  have ha := ht.arrives hs
  rw [← hd] at ha
  cases hrem : u.fs.remove p.staged with
  | ok fs' =>
    obtain ⟨i, hl, -, rfl⟩ := ha.remove_ok hname.proper hname.length_le hrem
    refine Or.inl ⟨by simp only [leftover, hrem], _, by simp only [step, hst, hrem]; rfl, Or.inl ?_⟩
    exact lookup_unbind.trans (if_pos ⟨rfl, rfl⟩)
  | error e =>
    have hwhy : (e = .noEntry ∧ u.fs.lookup t.here p.entry = none) ∨ Barred p t.here u.fs := by
      rcases ha.remove_error hname.proper hname.length_le hrem with h | h | ⟨i, hl, hdir, -⟩
      · exact Or.inr (Or.inr ⟨e, h⟩)
      · exact Or.inl h
      · exact Or.inr (Or.inl ⟨i, hl, hdir⟩)
    by_cases he : e = .noEntry
    · subst he
      refine Or.inl ⟨by simp only [leftover, hrem], u.fs, by simp only [step, hst, hrem], ?_⟩
      exact hwhy.imp And.right id
    · refine Or.inr ⟨p.leftoverText e, ?_, ?_, hwhy.resolve_left fun h => he h.1⟩
      · simp only [leftover, hrem]
      · simp only [step, hst, hrem]

/-- A publication that has been refused a call, and has done all that is to be done then: the failure
is logged, and the staged file is removed unless that cannot be. -/
structure Closed (p : Proposal) (D : NodeId) (err : StoreError) (u u' : Publication) : Prop where
  stage : u'.stage = .finished
  error : u'.error? = some err
  said : u'.notes.map Note.text = u.notes.map Note.text ++
    ("CURRENT: " ++ err.message) :: leftover p (after p 1 (u.refused err)).fs
  staged : u'.fs.lookup D p.entry = none ∨ Barred p D u.fs

/-- **What is done after a refusal, and what is left then.** -/
theorem after_closed (hs : u.fs.Sound) (ht : t.Stands u.fs) (hd : p.dir = t.path)
    (err : StoreError) : Closed p t.here err u (after p 3 (u.refused err)) := by
  have hone : after p 1 (u.refused err) =
      (u.refused err).warned p.now ("CURRENT: " ++ err.message) .discard := by
    simp only [after, step, refused]
  have hthree : after p 3 (u.refused err) = step p (step p (after p 1 (u.refused err))) := by
    rw [show 3 = 1 + 2 from rfl, after_add]
    simp only [after]
  have hways : SameWays u.fs (after p 1 (u.refused err)).fs := by
    rw [hone, warned_fs]
    exact record_sameWays (u.refused err).log u.fs p.now ("CURRENT: " ++ err.message)
  have hs₁ : (after p 1 (u.refused err)).fs.Sound := by
    rw [hone, warned_fs]
    exact (SessionLog.record_leads (u.refused err).log).sound hs
  have ht₁ : t.Stands (after p 1 (u.refused err)).fs :=
    ht.of_lookup hs (fun i n _ => hways.lookup i n) fun i hi => (hways.directory i).trans hi
  have hnotes : (after p 1 (u.refused err)).notes.map Note.text =
      u.notes.map Note.text ++ ["CURRENT: " ++ err.message] := by
    rw [hone]
    simp [warned, refused]
  have hst₁ : (after p 1 (u.refused err)).stage = .discard := by rw [hone]; rfl
  have herr₁ : (after p 1 (u.refused err)).error? = some err := by rw [hone]; rfl
  have hbarred : Barred p t.here (after p 1 (u.refused err)).fs → Barred p t.here u.fs := by
    rintro (⟨i, hl, hdir⟩ | ⟨e, he⟩)
    · exact Or.inl ⟨i, (hways.lookup _ _).symm.trans hl, (hways.directory i).symm.trans hdir⟩
    · rw [hone, warned_fs, (SessionLog.record_leads (u.refused err).log).refusals] at he
      exact Or.inr ⟨e, he⟩
  rcases step_discards hs₁ ht₁ hd hst₁ with ⟨hleft, fs', hstep, hl⟩ | ⟨text, hleft, hstep, hb⟩
  · rw [hthree, hstep, step_finished rfl]
    refine ⟨rfl, herr₁, ?_, hl.imp id hbarred⟩
    rw [hleft]
    exact hnotes
  · rw [hthree, hstep]
    have hlast : ∀ u : Publication, step p (u.goOn u.fs (.remark text)) =
        (u.goOn u.fs (.remark text)).warned p.now text .finished := fun _ => rfl
    rw [hlast]
    refine ⟨rfl, herr₁, ?_, Or.inr (hbarred hb)⟩
    rw [hleft]
    simp [goOn, warned, hnotes]

/-! ## The end of a publication -/

variable {log : Option SessionLog} {err : StoreError}

/-- Nothing changes after the end. -/
theorem after_eq_of_finished {i j : Nat} (hi : (after p i u).stage = .finished)
    (hj : (after p j u).stage = .finished) : after p i u = after p j u := by
  rcases Nat.le_total i j with hle | hle
  · obtain ⟨d, rfl⟩ := Nat.le.dest hle
    rw [after_add, after_of_finished p hi]
  · obtain ⟨d, rfl⟩ := Nat.le.dest hle
    rw [after_add, after_of_finished p hj]

/-- Why a publication failed, and what it did then: a call was refused before the staged file was
renamed, and that is what is told. -/
theorem run_refused (hs : fs.Sound) (ht : t.Stands fs)
    (hd : p.dir = t.path) (hst : Stageable p t.here fs) (he : (run p fs log).error? = some err) :
    ∃ j action e, Refuses p (after p j (begin fs log)) action e ∧ err = p.failure action e ∧
      (after p j (begin fs log)).notes = [] ∧ ¬Renamed p (begin fs log) (stepsFor p.id) ∧
      j < stepsFor p.id ∧ Closed p t.here err (after p j (begin fs log)) (run p fs log) := by
  have hfin : (after p (stepsFor p.id) (begin fs log)).stage = .finished := finished_run p fs log
  cases phase_begin p fs log (stepsFor p.id) with
  | trying htries _ _ _ => rw [hfin] at htries; exact absurd htries id
  | renamed _ _ hnone =>
    rw [show (run p fs log).error? = none from hnone] at he
    cases he
  | @failed j i action e hk hf hn hr =>
    have hsits : (begin fs log).stage.Sits p t.here (begin fs log).fs := hst
    obtain ⟨⟨_, -, hw⟩, -⟩ := after_works (u := begin fs log) hs ht hd hsits j
    have hclosed := after_closed (u := after p j (begin fs log)) (hw.sound hs) (hw.stands hs ht) hd
      (p.failure action e)
    have hrun : run p fs log =
        after p 3 ((after p j (begin fs log)).refused (p.failure action e)) := by
      rw [run, hk, after_refused hf]
      rw [hk, after_refused hf] at hfin
      exact after_eq_of_finished hfin hclosed.stage
    have herr : err = p.failure action e := by
      rw [hrun, hclosed.error] at he
      exact (Option.some.inj he).symm
    refine ⟨j, action, e, hf, herr, hn, hr, by omega, ?_⟩
    rw [hrun, herr]
    exact hclosed

/-- A directory in place of the staged file was there from the beginning. -/
theorem directory_before {i : NodeId} {j : Nat} (hs : fs.Sound) (ht : t.Stands fs)
    (hd : p.dir = t.path) (hst : Stageable p t.here fs) (hren : ¬Renamed p (begin fs log) j)
    (hl : (after p j (begin fs log)).fs.lookup t.here p.entry = some i)
    (hdir : (after p j (begin fs log)).fs.isDirectory i = true) :
    fs.lookup t.here p.entry = some i ∧ fs.isDirectory i = true := by
  have hsits : (begin fs log).stage.Sits p t.here (begin fs log).fs := hst
  obtain ⟨⟨_, -, hw⟩, -⟩ := after_works (u := begin fs log) hs ht hd hsits j
  obtain ⟨n, hname, hn, hface⟩ := hw.bound_back_name hs hl
    (fun _ h => ((hw.sound hs).unique hdir h hl).2) (isDirectory_iff.1 hdir) (by simp)
  have hentry : n = p.entry := hname.elim id fun h => h.resolve_right fun h => hren h.2
  rw [hentry] at hn
  exact ⟨hn, isDirectory_iff.2 hface⟩

/-- Where the system does not refuse it, only a directory in place of the staged file cannot be
removed. -/
theorem leftover_of_blocked (hs : fs.Sound) (ht : t.Stands fs) (hd : p.dir = t.path)
    (hr : fs.refusals.remove p.staged = none) :
    (Blocked p t.here fs → leftover p fs = [p.leftoverText .isDirectory]) ∧
      (¬Blocked p t.here fs → leftover p fs = []) := by
  have hname := nameable_staging p.id.seq
  have ha := ht.arrives hs
  rw [← hd] at ha
  have hrem : fs.remove p.staged = _ := ha.remove hname.proper hname.length_le
  rw [show fs.refusals.remove (join p.dir (Utf8.encode (Current.stagingName p.id.seq))) = none from
    hr] at hrem
  rw [leftover, hrem]
  constructor
  · rintro ⟨i, hl, hdir⟩
    simp only [hl, hdir, if_true]
  · intro hno
    cases hl : fs.lookup t.here p.entry with
    | none => rfl
    | some i =>
      have hdir : ¬fs.isDirectory i = true := fun hdir => hno ⟨i, hl, hdir⟩
      simp only [if_neg hdir]

/-- What the system refuses to remove is told alike in every state. -/
theorem leftover_of_refused {fs' : FileSystem} (h : fs'.refusals = fs.refusals)
    (he : fs.refusals.remove p.staged = some e) : leftover p fs' = leftover p fs := by
  have hrem : ∀ fs : FileSystem, fs.refusals.remove p.staged = some e →
      fs.remove p.staged = .error e := by
    intro fs he
    rw [FileSystem.remove, he]
  rw [leftover, leftover, hrem fs he, hrem fs' (by rw [h]; exact he)]

/-- A directory in place of the staged file is the first thing that is refused. -/
theorem refuses_blocked (hs : fs.Sound) (ht : t.Stands fs) (hd : p.dir = t.path)
    (h : Blocked p t.here fs) : Refuses p (begin fs log) "create" .isDirectory := by
  obtain ⟨i, hl, hdir⟩ := h
  have hname := nameable_staging p.id.seq
  have ha := ht.arrives hs
  rw [← hd] at ha
  have hlink : NoLink fs t.here p.entry := by
    intro j g hj
    rw [hl] at hj
    rw [← Option.some.inj hj, isDirectory_iff.1 hdir]
    simp
  have ho : fs.openForWriting true p.staged = _ :=
    ha.openForWriting hname.proper hname.length_le hlink true
  obtain ⟨d, hnode⟩ := face?_directory.1 (isDirectory_iff.1 hdir)
  refine .create rfl ?_
  rw [begin, ho, hl]
  simp only [hnode]

/-- After a refusal no call is tried any more. -/
theorem fails_after {j i : Nat} (h : Refuses p (after p j u) action e) :
    (after p (j + (1 + i)) u).stage.Fails := by
  rw [after_refused h]
  exact (after_fails (fails_refused _ _) i).2

/-- One call is refused, and no other. -/
theorem refuses_first {j k : Nat} {action' : String} {e' : Errno} (h : Refuses p (after p j u) action e)
    (h' : Refuses p (after p k u) action' e') : j = k := by
  have hle : ∀ {j k : Nat} {action action' : String} {e e' : Errno},
      Refuses p (after p j u) action e → Refuses p (after p k u) action' e' → k ≤ j := by
    intro j k action action' e e' h h'
    refine Nat.le_of_not_lt fun hlt => ?_
    obtain ⟨i, rfl⟩ : ∃ i, k = j + (1 + i) := ⟨k - j - 1, by omega⟩
    have hfails := fails_after (i := i) h
    cases h' with
    | create hst _ => rw [hst] at hfails; exact hfails
    | write hst _ => rw [hst] at hfails; exact hfails
    | sync hst _ => rw [hst] at hfails; exact hfails
    | rename hst _ => rw [hst] at hfails; exact hfails
  exact Nat.le_antisymm (hle h' h) (hle h h')

/-- What is said of the staged file in the end could have been said in the beginning. -/
theorem leftover_before {j : Nat} (hs : fs.Sound) (ht : t.Stands fs)
    (hd : p.dir = t.path) (hst : Stageable p t.here fs)
    (hf : Refuses p (after p j (begin fs log)) action e) (hren : ¬Renamed p (begin fs log) j) :
    leftover p (after p 1 ((after p j (begin fs log)).refused err)).fs = leftover p fs := by
  have hsits : (begin fs log).stage.Sits p t.here (begin fs log).fs := hst
  obtain ⟨⟨_, -, hw⟩, -⟩ := after_works (u := begin fs log) hs ht hd hsits j
  have hs₁ := hw.sound hs
  have ht₁ := hw.stands hs ht
  -- the failure is logged, which makes no difference to the names
  have hone₁ : (after p 1 ((after p j (begin fs log)).refused err)).fs =
      (SessionLog.record (after p j (begin fs log)).log (after p j (begin fs log)).fs p.now
        ("CURRENT: " ++ err.message)).2 := by
    simp only [after, step, refused, warned_fs]
  have hways := record_sameWays (after p j (begin fs log)).log (after p j (begin fs log)).fs p.now
    ("CURRENT: " ++ err.message)
  rw [← hone₁] at hways
  have hs₂ : (after p 1 ((after p j (begin fs log)).refused err)).fs.Sound := by
    rw [hone₁]
    exact (SessionLog.record_leads _).sound hs₁
  have ht₂ : t.Stands (after p 1 ((after p j (begin fs log)).refused err)).fs :=
    ht₁.of_lookup hs₁ (fun i n _ => hways.lookup i n) fun i hi => (hways.directory i).trans hi
  have href : (after p 1 ((after p j (begin fs log)).refused err)).fs.refusals = fs.refusals := by
    rw [hone₁, (SessionLog.record_leads _).refusals, hw.refusals]
    rfl
  cases hrem : fs.refusals.remove p.staged with
  | some e₁ => exact leftover_of_refused href hrem
  | none =>
    have hrem₂ : (after p 1 ((after p j (begin fs log)).refused err)).fs.refusals.remove p.staged =
        none := by rw [href]; exact hrem
    have hblocked : Blocked p t.here (after p 1 ((after p j (begin fs log)).refused err)).fs ↔
        Blocked p t.here fs := by
      constructor
      · rintro ⟨i, hl, hdir⟩
        rw [hways.lookup] at hl
        rw [hways.directory] at hdir
        exact ⟨i, directory_before hs ht hd hst hren hl hdir⟩
      · intro hb
        obtain rfl : j = 0 := refuses_first hf (refuses_blocked hs ht hd hb)
        obtain ⟨i, hl, hdir⟩ := hb
        exact ⟨i, (hways.lookup _ _).trans hl, (hways.directory i).trans hdir⟩
    by_cases hb : Blocked p t.here fs
    · rw [(leftover_of_blocked hs ht hd hrem).1 hb,
        (leftover_of_blocked hs₂ ht₂ hd hrem₂).1 (hblocked.2 hb)]
    · rw [(leftover_of_blocked hs ht hd hrem).2 hb,
        (leftover_of_blocked hs₂ ht₂ hd hrem₂).2 fun hb' => hb (hblocked.1 hb')]

/-- What is left to do when the pointer is published: nothing that is told. -/
def Stage.Quiet : Stage → Prop
  | .syncDirectory => True
  | .finished => True
  | _ => False

/-- **When the pointer is published nothing is told of it**: its directory is there to be written
back. -/
theorem after_quiet (hs : fs.Sound) (ht : t.Stands fs)
    (hd : p.dir = t.path) (hst : Stageable p t.here fs) {k : Nat} (hr : Renamed p (begin fs log) k) :
    (after p k (begin fs log)).stage.Quiet ∧ (after p k (begin fs log)).notes = [] := by
  induction k with
  | zero => exact absurd hr (not_renamed_zero p _)
  | succ k ih =>
    rw [after_succ]
    by_cases hk : Renamed p (begin fs log) k
    · obtain ⟨hquiet, hnotes⟩ := ih hk
      cases hstage : (after p k (begin fs log)).stage with
      | syncDirectory =>
        have hsits : (begin fs log).stage.Sits p t.here (begin fs log).fs := hst
        obtain ⟨⟨_, -, hw⟩, -⟩ := after_works (u := begin fs log) hs ht hd hsits k
        have ht' := hw.stands hs ht
        have hs' := hw.sound hs
        obtain ⟨d, hnode⟩ := face?_directory.1 (isDirectory_iff.1 (ht'.isDirectory hs'))
        have hsync : syncPath (after p k (begin fs log)).fs p.dir = .ok () := by
          simp only [syncPath, openForReading, hd, ht'.find hs', FileSystem.sync, hnode]
        simp only [step, hstage, hsync]
        exact ⟨trivial, hnotes⟩
      | finished =>
        rw [step_finished hstage, hstage]
        exact ⟨trivial, hnotes⟩
      | _ => rw [hstage] at hquiet; exact absurd hquiet id
    · have hnow : Renames p (after p k (begin fs log)) :=
        Classical.byContradiction fun hno => not_renamed_succ hk hno hr
      obtain ⟨hstage, fs', hok⟩ := hnow
      have hnotes : (after p k (begin fs log)).notes = [] := by
        cases phase_begin p fs log k with
        | trying _ _ hn _ => exact hn
        | renamed hr' _ _ => exact absurd hr' hk
        | @failed j i _ _ hki hf _ _ =>
          have hfails := fails_after (i := i) hf
          rw [← hki, hstage] at hfails
          exact absurd hfails id
      simp only [step, hstage, hok]
      refine ⟨?_, hnotes⟩
      simp only [goOn, Proposal.afterRename]
      split <;> trivial

/-- **What a publication tells**: nothing, or why it failed, and that a directory was in the way of the
staged file. -/
theorem run_told (hs : fs.Sound) (ht : t.Stands fs)
    (hd : p.dir = t.path) (hst : Stageable p t.here fs) :
    (run p fs log).notes.map Note.text =
      match (run p fs log).error? with
      | some err => ("CURRENT: " ++ err.message) :: leftover p fs
      | none => [] := by
  cases herr : (run p fs log).error? with
  | some err =>
    obtain ⟨j, action, e, hf, -, hnotes, hren, hj, hclosed⟩ := run_refused hs ht hd hst herr
    have hbefore : ¬Renamed p (begin fs log) j := by
      rintro ⟨k, hk, hr⟩
      exact hren ⟨k, Nat.lt_trans hk hj, hr⟩
    rw [hclosed.said, hnotes, leftover_before hs ht hd hst hf hbefore]
    rfl
  | none =>
    have hfin : (after p (stepsFor p.id) (begin fs log)).stage = .finished := finished_run p fs log
    cases phase_begin p fs log (stepsFor p.id) with
    | trying htries _ _ _ => rw [hfin] at htries; exact absurd htries id
    | renamed hr _ _ =>
      rw [run, (after_quiet hs ht hd hst hr).2]
      rfl
    | @failed j i action e hk hf hn hr =>
      have hsits : (begin fs log).stage.Sits p t.here (begin fs log).fs := hst
      obtain ⟨⟨_, -, hw⟩, -⟩ := after_works (u := begin fs log) hs ht hd hsits j
      have hclosed := after_closed (u := after p j (begin fs log)) (hw.sound hs) (hw.stands hs ht) hd
        (p.failure action e)
      rw [run, hk, after_refused hf] at herr
      rw [hk, after_refused hf] at hfin
      rw [after_eq_of_finished hfin hclosed.stage, hclosed.error] at herr
      cases herr

end Publication

end EngineDir
