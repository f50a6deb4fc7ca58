import Mathlib.Data.List.Nodup
import EngineDir.Proofs.NewLogs
import EngineDir.Proofs.Reserved

/-!
# Logs that are open at the same time

Of the logs that are opened in a directory, each with rotation, several can be open at the same
time. Each of them writes to a file of its own, as far as the system has room for it. That of the
last one is `LOG`, that of the one before it is `LOG.old`, whatever is still written to the older
ones, if the system lets each `LOG` be moved and the next one be made.

* `Session`, `World.sessions`: the logs that were opened in a directory, the last one first, with
  the lines of each.
* `World.LogsReserved`: the logs are changed through these sessions alone.
* `World.LogsFiled`: the sessions have their files. `World.step_logsFiled`: **every step keeps
  that.**
* `run_unmixed`: **rotation loses no line and mixes none.** `unmixed_loses`: what it loses where both
  logs are one file or the system refuses something.
-/

namespace EngineDir

open FileSystem

/-! ## The logs of a directory -/

/-- The log without a store that an event is about. -/
def Event.log? : Event → Option Nat
  | .openLog l _ _ => some l
  | .writeLog l _ => some l
  | .closeLog l => some l
  | .abandonLog l => some l
  | _ => none

/-- A log that was opened in a directory: its number and its file, whether it is still open, and the
lines that it was told. -/
structure Session where
  log : Nat
  node : NodeId
  isOpen : Bool
  lines : List (Clock.Reading × String)
  deriving DecidableEq

namespace Session

variable {s : Session} {l : Nat}

/-- What a file holds with these lines alone. -/
def contents (s : Session) : Bytes := SessionLog.filled [] s.lines

/-- Whether the log with the number `l` is that of the session. -/
def has (s : Session) (l : Nat) : Bool := s.isOpen && decide (s.log = l)

/-- The session after the log with the number `l` was told a line. -/
def told (l : Nat) (line : Clock.Reading × String) (s : Session) : Session :=
  if s.has l then { s with lines := s.lines ++ [line] } else s

/-- The session after the log with the number `l` was let go. -/
def ended (l : Nat) (s : Session) : Session := if s.has l then { s with isOpen := false } else s

theorem has_iff : s.has l = true ↔ s.isOpen = true ∧ s.log = l := by simp [has]

@[simp] theorem told_node (l : Nat) (line : Clock.Reading × String) (s : Session) :
    (s.told l line).node = s.node := by
  unfold told
  split <;> rfl

@[simp] theorem told_log (l : Nat) (line : Clock.Reading × String) (s : Session) :
    (s.told l line).log = s.log := by
  unfold told
  split <;> rfl

@[simp] theorem told_isOpen (l : Nat) (line : Clock.Reading × String) (s : Session) :
    (s.told l line).isOpen = s.isOpen := by
  unfold told
  split <;> rfl

@[simp] theorem ended_node (l : Nat) (s : Session) : (s.ended l).node = s.node := by
  unfold ended
  split <;> rfl

@[simp] theorem ended_log (l : Nat) (s : Session) : (s.ended l).log = s.log := by
  unfold ended
  split <;> rfl

@[simp] theorem ended_lines (l : Nat) (s : Session) : (s.ended l).lines = s.lines := by
  unfold ended
  split <;> rfl

/-- A session that is open after the log `l` was let go was open before, and has another log. -/
theorem ended_isOpen (h : (s.ended l).isOpen = true) : s.isOpen = true ∧ s.log ≠ l := by
  unfold ended at h
  split at h
  · cases h
  · rename_i hhas
    exact ⟨h, fun hl => hhas (has_iff.2 ⟨h, hl⟩)⟩

theorem told_contents (h : s.has l = true) (line : Clock.Reading × String) :
    (s.told l line).contents = SessionLog.added s.contents line := by
  unfold told contents
  rw [if_pos h, SessionLog.filled_append, SessionLog.filled_cons, SessionLog.filled_nil]

/-- What is done to each session is done to the one that stands at a place. -/
theorem getElem?_map {f : Session → Session} {ss : List Session} {i : Nat} {y : Session}
    (h : (ss.map f)[i]? = some y) : ∃ x, ss[i]? = some x ∧ y = f x := by
  rw [List.getElem?_map, Option.map_eq_some_iff] at h
  obtain ⟨x, hx, rfl⟩ := h
  exact ⟨x, hx, rfl⟩

theorem nodes_map {f : Session → Session} (hf : ∀ s, (f s).node = s.node) (ss : List Session) :
    (ss.map f).map node = ss.map node := by
  rw [List.map_map]
  exact List.map_congr_left fun s _ => hf s

theorem told_of_not_has (h : s.has l ≠ true) (line : Clock.Reading × String) :
    s.told l line = s := if_neg h

end Session

namespace World

variable {w w₀ : World} {now : Clock.Reading} {e : Event} {t : Trail} {D : NodeId} {l k : Nat}
  {n : Bytes} {s x : Session} {ss : List Session} {es : List (Clock.Reading × Event)}

/-- The sessions of the directory `D`, the last one first, after an event. -/
def sessionsAfter (w : World) (D : NodeId) (now : Clock.Reading) (e : Event) (ss : List Session) :
    List Session :=
  match e with
  | .openLog l dir true =>
    if w.logs.contains l = false ∧ w.fs.homeOf dir SessionLog.entry = some D then
      match (step now w e).world.logs.get? l with
      | some log => { log := l, node := log.file.node, isOpen := true, lines := [] } :: ss
      | none => ss
    else ss
  | .writeLog l text => ss.map (Session.told l (now, text))
  | .closeLog l => ss.map (Session.ended l)
  | .abandonLog l => ss.map (Session.ended l)
  | _ => ss

/-- The sessions of the directory `D` after a run that begins with these. -/
def sessionsIn (w : World) (D : NodeId) (ss : List Session) :
    List (Clock.Reading × Event) → List Session
  | [] => ss
  | (now, e) :: es => (step now w e).world.sessionsIn D (w.sessionsAfter D now e ss) es

/-- The sessions that begin in the directory `D` in a run, the last one first. -/
def sessions (w : World) (D : NodeId) (es : List (Clock.Reading × Event)) : List Session :=
  w.sessionsIn D [] es

/-- An event of the logs of the directory `D`: one is opened, with rotation, by whatever path leads
there, or one of these sessions goes on or ends. -/
inductive Tells (w : World) (D : NodeId) (ss : List Session) : Event → Prop
  | opening {l : Nat} {dir : Bytes} (h : w.fs.homeOf dir SessionLog.entry = some D) :
      Tells w D ss (.openLog l dir true)
  | writing {s : Session} {text : String} (h : s ∈ ss) (ho : s.isOpen = true) :
      Tells w D ss (.writeLog s.log text)
  | closing {s : Session} (h : s ∈ ss) (ho : s.isOpen = true) : Tells w D ss (.closeLog s.log)
  | dropping {s : Session} (h : s ∈ ss) (ho : s.isOpen = true) : Tells w D ss (.abandonLog s.log)

theorem tells_writing {text : String} (h : ss.any (fun s => s.has l) = true) :
    Tells w D ss (.writeLog l text) := by
  obtain ⟨s, hs, hhas⟩ := List.any_eq_true.1 h
  obtain ⟨ho, rfl⟩ := Session.has_iff.1 hhas
  exact .writing hs ho

/-- A change that leaves the directory of the trail `t` where it is, and both logs in it as they
are. -/
structure Passes (t : Trail) (fs fs' : FileSystem) : Prop where
  stands : t.Stands fs'
  log : Stays t.here SessionLog.entry fs fs'
  old : Stays t.here SessionLog.oldEntry fs fs'

/-- In a run that begins with the sessions `ss`, both logs of the directory of the trail `t` are
changed through the sessions alone that begin there. -/
def LogsReservedIn (w : World) (t : Trail) (ss : List Session) :
    List (Clock.Reading × Event) → Prop
  | [] => True
  | (now, e) :: es =>
    (Tells w t.here ss e ∨ Passes t w.fs (step now w e).world.fs) ∧
      (step now w e).world.LogsReservedIn t (w.sessionsAfter t.here now e ss) es

/-- In the run `es` both logs of the directory of the trail `t` are changed through the sessions
alone that begin there. -/
def LogsReserved (w : World) (t : Trail) (es : List (Clock.Reading × Event)) : Prop :=
  w.LogsReservedIn t [] es

/-- The system lets the log of the directory with the path `dir` be moved out of the way, and another
one be made. -/
structure Grants (w : World) (dir : Bytes) : Prop where
  move : w.fs.refusals.rename (SessionLog.pathIn dir) (SessionLog.oldPathIn dir) = none
  make : w.fs.refusals.make (SessionLog.pathIn dir) = none

/-- An event opens a log in the directory `D`, with rotation, only if the system lets it. -/
def GrantedOpen (w : World) (D : NodeId) (e : Event) : Prop :=
  ∀ l dir, e = .openLog l dir true → w.fs.homeOf dir SessionLog.entry = some D → w.Grants dir

/-- So do the events of the run `es`. -/
def LogsGranted (w : World) (D : NodeId) (es : List (Clock.Reading × Event)) : Prop :=
  ∀ pre now e, pre ++ [(now, e)] <+: es → (w.run pre).GrantedOpen D e

theorem LogsGranted.cons {p : Clock.Reading × Event} (h : w.LogsGranted D (p :: es)) :
    w.GrantedOpen D p.2 ∧ (step p.1 w p.2).world.LogsGranted D es := by
  refine ⟨h [] p.1 p.2 (by simp), fun pre now e hpre => ?_⟩
  exact h (p :: pre) now e (by simpa using hpre)

theorem LogsGranted.of_all (hs : w.fs.Sound)
    (h : ∀ now l dir, (now, Event.openLog l dir true) ∈ es → w.Grants dir) :
    w.LogsGranted D es := by
  rintro pre now _ hpre l dir rfl -
  obtain ⟨hmove, hmake⟩ := h now l dir (hpre.subset (by simp))
  -- no event changes what the system refuses
  have hr := refusals_run hs pre
  exact ⟨by rw [hr]; exact hmove, by rw [hr]; exact hmake⟩

theorem LogsGranted.before {pre : List (Clock.Reading × Event)} (h : w.LogsGranted D es)
    (hpre : pre <+: es) : w.LogsGranted D pre := fun pre' now e hpre' =>
  h pre' now e (hpre'.trans hpre)

/-- The name `n` of the directory `D` is that of the file of a session, with its lines, and the next
one goes behind them, unless the system sets a limit for the file. -/
structure Written (w : World) (D : NodeId) (n : Bytes) (s : Session) : Prop where
  lookup : w.fs.lookup D n = some s.node
  file : ∃ b, w.fs.face? s.node = some (.file b)
  face : w.fs.refusals.room s.node = none → w.fs.face? s.node = some (.file s.contents)
  pos : w.fs.refusals.room s.node = none → s.isOpen = true →
    ∀ l, w.logs.get? s.log = some l → l.file.pos = s.contents.length

theorem Written.keeps (h : Written w D n s) : w.fs.Keeps D n s.contents :=
  ⟨s.node, h.lookup, h.file, h.face⟩

/-- The sessions that have begun in the directory of the trail `t` since `fs₀` have their files. -/
structure LogsFiled (fs₀ : FileSystem) (t : Trail) (w : World) (ss : List Session) : Prop where
  sound : w.fs.Sound
  stands : t.Stands w.fs
  regular : w.fs.Regular t.here SessionLog.entry
  oldRegular : w.fs.Regular t.here SessionLog.oldEntry
  apart : w.fs.Separate t.here SessionLog.entry SessionLog.oldEntry
  /-- No two sessions write to one file. -/
  nodes : (ss.map Session.node).Nodup
  there : ∀ s ∈ ss, ∃ f, w.fs.face? s.node = some f
  /-- What is open writes there. -/
  logs : ∀ s ∈ ss, s.isOpen = true → ∃ l, w.logs.get? s.log = some l ∧ l.file.node = s.node
  current : ∀ s, ss[0]? = some s → Written w t.here SessionLog.entry s
  previous : ∀ s, ss[1]? = some s → Written w t.here SessionLog.oldEntry s
  /-- As long as no session has begun, both logs are what they were. -/
  unopened : ss = [] → Stays t.here SessionLog.entry fs₀ w.fs ∧
    Stays t.here SessionLog.oldEntry fs₀ w.fs
  /-- The first one has moved the log that was there, and no other. -/
  first : ss.length = 1 → SessionLog.Rotated t.here True fs₀ w.fs

/-! ## What other events leave -/

theorem logs_settle (w : World) (s : Nat) : (w.settle s).logs = w.logs := by
  rcases w.settle_cases s with he | ⟨st, -, -, he⟩ <;> rw [he]

theorem receiving_logs {s h : Nat} (o : Outcome Handle) :
    (w.receiving s h o).world.logs = w.logs := by
  unfold receiving
  split <;> rfl

theorem receivingTurn_logs {s h : Nat} (o : Outcome Nat) :
    (w.receivingTurn s h o).world.logs = w.logs := by
  unfold receivingTurn
  split <;> rfl

theorem stepStore_logs {s : Nat} {st : Store} (r : StoreRequest) :
    (w.stepStore now s st r).world.logs = w.logs := by
  cases r with
  | abandon => exact logs_settle _ s
  | openFile h id =>
    simp only [stepStore]
    split
    · rfl
    · exact receiving_logs _
  | createFile h id =>
    simp only [stepStore]
    split
    · rfl
    · exact receiving_logs _
  | takeTurn h =>
    simp only [stepStore]
    split
    · rfl
    · exact receivingTurn_logs _
  | _ => rfl

theorem stepHandle_logs {h s : Nat} {st : Store} {x : Handle} (r : HandleRequest) :
    (w.stepHandle now h s st x r).world.logs = w.logs := by
  cases r with
  | abandon => exact logs_settle _ s
  | _ => rfl

/-- An event leaves the logs that it is not about. -/
theorem step_logs (now : Clock.Reading) (he : e.log? ≠ some l) :
    (step now w e).world.logs.get? l = w.logs.get? l := by
  have hne : ∀ {k}, e.log? = some k → l ≠ k := by
    rintro k hk rfl
    exact he hk
  cases e with
  | outside o => rfl
  | readManifest dir => rfl
  | openStore s o =>
    simp only [step, stepOpen]
    split
    · rfl
    · split <;> rfl
  | store s r =>
    simp only [step]
    split
    · rfl
    · split
      · rw [stepStore_logs]
      · rfl
  | handle h r =>
    simp only [step]
    split
    · rfl
    · split
      · rfl
      · split
        · rw [stepHandle_logs]
        · rfl
  | endTurn k =>
    simp only [step]
    split
    · rfl
    · simp only [answering, stepEndTurn]
      split
      · rfl
      · rw [logs_settle]
  | acquire k dir =>
    simp only [step]
    split
    · rfl
    · split <;> rfl
  | release k =>
    simp only [step]
    split <;> rfl
  | openLog k dir r =>
    simp only [step]
    split
    · rfl
    · split
      · rfl
      · exact Table.get?_insert_of_ne _ _ (hne rfl)
  | writeLog k text =>
    simp only [step]
    split
    · rfl
    · exact Table.get?_insert_of_ne _ _ (hne rfl)
  | closeLog k =>
    simp only [step]
    split
    · rfl
    · exact Table.get?_erase_of_ne _ (hne rfl)
  | abandonLog k =>
    simp only [step]
    split
    · rfl
    · exact Table.get?_erase_of_ne _ (hne rfl)

/-- A number that is in use opens no log. -/
theorem step_openLog_used {dir : Bytes} {r : Bool} (h : w.logs.contains l = true) :
    step now w (.openLog l dir r) = w.answering (.error .misnamed) := by
  simp only [step, h, if_true]

/-- An event that is not one of the sessions leaves what is open of them. -/
theorem step_logs_untold {log : SessionLog} (now : Clock.Reading) (he : ¬Tells w D ss e)
    (hs : s ∈ ss) (ho : s.isOpen = true) (hlog : w.logs.get? s.log = some log) :
    (step now w e).world.logs.get? s.log = w.logs.get? s.log := by
  by_cases hk : e.log? = some s.log
  · cases e with
    | openLog k dir r =>
      obtain rfl : k = s.log := Option.some.inj hk
      have hused : w.logs.contains s.log = true := by rw [Table.contains, hlog]; rfl
      rw [step_openLog_used hused]
      rfl
    | writeLog k text =>
      obtain rfl : k = s.log := Option.some.inj hk
      exact absurd (.writing hs ho) he
    | closeLog k =>
      obtain rfl : k = s.log := Option.some.inj hk
      exact absurd (.closing hs ho) he
    | abandonLog k =>
      obtain rfl : k = s.log := Option.some.inj hk
      exact absurd (.dropping hs ho) he
    | _ => cases hk
  · exact step_logs now hk

/-- Such an event is none of their lines, no beginning and no end. -/
theorem sessionsAfter_untold (now : Clock.Reading) (he : ¬Tells w D ss e) :
    w.sessionsAfter D now e ss = ss := by
  have hsame : ∀ {f : Session → Session}, (∀ s ∈ ss, f s = s) → ss.map f = ss := fun hf =>
    (List.map_congr_left hf).trans (List.map_id _)
  cases e with
  | openLog k dir r =>
    cases r with
    | false => rfl
    | true =>
      have hhome : w.fs.homeOf dir SessionLog.entry ≠ some D := fun h => he (.opening h)
      simp only [sessionsAfter, hhome, and_false, if_false]
  | writeLog k text =>
    refine hsame fun s hs => Session.told_of_not_has (fun h => ?_) _
    obtain ⟨ho, rfl⟩ := Session.has_iff.1 h
    exact he (.writing hs ho)
  | closeLog k =>
    refine hsame fun s hs => if_neg fun h => ?_
    obtain ⟨ho, rfl⟩ := Session.has_iff.1 h
    exact he (.closing hs ho)
  | abandonLog k =>
    refine hsame fun s hs => if_neg fun h => ?_
    obtain ⟨ho, rfl⟩ := Session.has_iff.1 h
    exact he (.dropping hs ho)
  | _ => rfl

/-! ## What becomes of the sessions -/

theorem Written.stays {w' : World} (h : Written w D n s) (hst : Stays D n w.fs w'.fs)
    (hr : w'.fs.refusals = w.fs.refusals)
    (hl : s.isOpen = true → w'.logs.get? s.log = w.logs.get? s.log) : Written w' D n s where
  lookup := hst.lookup.trans h.lookup
  file := by
    rw [hst.face _ h.lookup]
    exact h.file
  face hroom := by
    rw [hr] at hroom
    rw [hst.face _ h.lookup]
    exact h.face hroom
  pos hroom ho l hlog := by
    rw [hr] at hroom
    exact h.pos hroom ho l ((hl ho).symm.trans hlog)

/-- What leaves both names, and what is open, leaves the sessions. -/
theorem LogsFiled.keep {fs₀ : FileSystem} {w' : World} (h : LogsFiled fs₀ t w ss) (hs : w'.fs.Sound)
    (hr : w'.fs.refusals = w.fs.refusals)
    (hthere : ∀ s ∈ ss, ∃ f, w'.fs.face? s.node = some f) (hp : Passes t w.fs w'.fs)
    (hl : ∀ s ∈ ss, s.isOpen = true → w'.logs.get? s.log = w.logs.get? s.log) :
    LogsFiled fs₀ t w' ss where
  sound := hs
  stands := hp.stands
  regular := h.regular.stays hp.log
  oldRegular := h.oldRegular.stays hp.old
  apart := h.apart.stays hp.log hp.old
  nodes := h.nodes
  there := hthere
  logs s hs ho := by
    rw [hl s hs ho]
    exact h.logs s hs ho
  current s hs := (h.current s hs).stays hp.log hr (hl s (List.mem_of_getElem? hs))
  previous s hs := (h.previous s hs).stays hp.old hr (hl s (List.mem_of_getElem? hs))
  unopened h0 := ⟨(h.unopened h0).1.trans hp.log, (h.unopened h0).2.trans hp.old⟩
  first h1 := (h.first h1).between (.refl _ _ _) (.refl _ _ _) hp.old

/-- What is done to each session and leaves its file to it keeps the sessions in their files. -/
theorem LogsFiled.map {fs₀ : FileSystem} {w' : World} {f : Session → Session}
    (h : LogsFiled fs₀ t w ss) (hnode : ∀ s, (f s).node = s.node) (hs : w'.fs.Sound)
    (ht : t.Stands w'.fs) (hlog : w'.fs.Regular t.here SessionLog.entry)
    (hold : w'.fs.Regular t.here SessionLog.oldEntry)
    (hapart : w'.fs.Separate t.here SessionLog.entry SessionLog.oldEntry)
    (hthere : ∀ s ∈ ss, ∃ b, w'.fs.face? s.node = some b)
    (hlogs : ∀ s ∈ ss, (f s).isOpen = true →
      ∃ l, w'.logs.get? (f s).log = some l ∧ l.file.node = s.node)
    (hwritten : ∀ n, ∀ s ∈ ss, Written w t.here n s → Written w' t.here n (f s))
    (hnone : ss = [] → Passes t w.fs w'.fs)
    (hone : ∀ s, ss = [s] → Stays t.here SessionLog.oldEntry w.fs w'.fs) :
    LogsFiled fs₀ t w' (ss.map f) := by
  refine ⟨hs, ht, hlog, hold, hapart, ?_, ?_, ?_, ?_, ?_, ?_, ?_⟩
  · rw [Session.nodes_map hnode]
    exact h.nodes
  · intro y hy
    obtain ⟨x, hx, rfl⟩ := List.mem_map.1 hy
    rw [hnode]
    exact hthere x hx
  · intro y hy ho
    obtain ⟨x, hx, rfl⟩ := List.mem_map.1 hy
    rw [hnode]
    exact hlogs x hx ho
  · intro y hy
    obtain ⟨x, hx, rfl⟩ := Session.getElem?_map hy
    exact hwritten _ x (List.mem_of_getElem? hx) (h.current x hx)
  · intro y hy
    obtain ⟨x, hx, rfl⟩ := Session.getElem?_map hy
    exact hwritten _ x (List.mem_of_getElem? hx) (h.previous x hx)
  · intro h0
    have h0 := List.map_eq_nil_iff.1 h0
    obtain ⟨-, hl, ho⟩ := hnone h0
    exact ⟨(h.unopened h0).1.trans hl, (h.unopened h0).2.trans ho⟩
  · intro h1
    rw [List.length_map] at h1
    obtain ⟨x, hx⟩ := List.length_eq_one_iff.1 h1
    exact (h.first h1).between (.refl _ _ _) (.refl _ _ _) (hone x hx)

/-- A session that has ended is still in its file. -/
theorem Written.ended (h : Written w D n s) (l : Nat) :
    Written { w with logs := w.logs.erase l } D n (s.ended l) := by
  refine ⟨by rw [Session.ended_node]; exact h.lookup, by rw [Session.ended_node]; exact h.file, ?_,
    fun hroom ho log hlog => ?_⟩
  · simp only [Session.contents, Session.ended_node, Session.ended_lines]
    exact h.face
  · obtain ⟨ho', hne⟩ := Session.ended_isOpen ho
    rw [Session.ended_node] at hroom
    simp only [Session.contents, Session.ended_lines]
    rw [Session.ended_log, Table.get?_erase_of_ne _ hne] at hlog
    exact h.pos hroom ho' log hlog

/-- The end of a session changes no file. -/
theorem LogsFiled.closed {fs₀ : FileSystem} (h : LogsFiled fs₀ t w ss) (l : Nat) :
    LogsFiled fs₀ t { w with logs := w.logs.erase l } (ss.map (Session.ended l)) := by
  refine h.map (Session.ended_node l) h.sound h.stands h.regular h.oldRegular h.apart h.there ?_
    (fun n s _ hw => hw.ended l) (fun _ => ⟨h.stands, .refl _ _ _, .refl _ _ _⟩)
    fun _ _ => .refl _ _ _
  intro s hs ho
  obtain ⟨ho', hne⟩ := Session.ended_isOpen ho
  rw [Session.ended_log, Table.get?_erase_of_ne _ hne]
  exact h.logs s hs ho'

/-- Two sessions that are open have different logs. -/
theorem LogsFiled.unique {fs₀ : FileSystem} (h : LogsFiled fs₀ t w ss) (hs : s ∈ ss) (hx : x ∈ ss)
    (ho : s.isOpen = true) (hox : x.isOpen = true) (hlog : x.log = s.log) : x = s := by
  obtain ⟨l, hl, hn⟩ := h.logs s hs ho
  obtain ⟨l', hl', hn'⟩ := h.logs x hx hox
  rw [hlog, hl] at hl'
  cases hl'
  exact List.inj_on_of_nodup_map h.nodes hx hs (hn'.symm.trans hn)

/-- A session that has just begun has a new file, and the one before it the old log. -/
theorem LogsFiled.opened {fs₀ fs' : FileSystem} {i : NodeId} {dir : Bytes}
    (h : LogsFiled fs₀ t w ss) (hfree : w.logs.contains l = false) (hs : fs'.Sound)
    (ht : t.Stands fs') (hr : fs'.refusals = w.fs.refusals)
    (hb : SessionLog.Begun t.here w.fs fs' i) :
    LogsFiled fs₀ t
      { w with fs := fs', logs := w.logs.insert l ⟨SessionLog.pathIn dir, ⟨i, 0⟩, .unused⟩ }
      ({ log := l, node := i, isOpen := true, lines := [] } :: ss) := by
  have hface : fs'.face? i = some (.file []) := by rw [hb.face, if_pos rfl]
  have hrotated := hb.rotated h.sound h.regular h.oldRegular
  -- the number is that of no other session that is open
  have hlogs : ∀ x ∈ ss, x.isOpen = true →
      (w.logs.insert l ⟨SessionLog.pathIn dir, ⟨i, 0⟩, .unused⟩).get? x.log = w.logs.get? x.log := by
    intro x hx ho
    obtain ⟨log, hlog, -⟩ := h.logs x hx ho
    refine Table.get?_insert_of_ne _ _ ?_
    rintro rfl
    rw [Table.contains, hlog] at hfree
    cases hfree
  refine ⟨hs, ht, Or.inr ⟨[], i, hb.lookup, hface⟩, hrotated.regular, hb.separate h.sound, ?_, ?_, ?_,
    ?_, ?_, ?_, ?_⟩
  · rw [List.map_cons, List.nodup_cons]
    refine ⟨fun hmem => ?_, h.nodes⟩
    obtain ⟨x, hx, hxi⟩ := List.mem_map.1 hmem
    obtain ⟨f, hf⟩ := h.there x hx
    exact (hb.face_old hf).1 hxi
  · intro x hx
    rcases List.mem_cons.1 hx with rfl | hx
    · exact ⟨_, hface⟩
    · obtain ⟨f, hf⟩ := h.there x hx
      exact ⟨f, (hb.face_old hf).2⟩
  · intro x hx ho
    rcases List.mem_cons.1 hx with rfl | hx
    · exact ⟨_, Table.get?_insert_self _ _ _, rfl⟩
    · obtain ⟨log, hlog, hn⟩ := h.logs x hx ho
      exact ⟨log, (hlogs x hx ho).trans hlog, hn⟩
  · intro x hx
    cases hx
    refine ⟨hb.lookup, ⟨[], hface⟩, fun _ => hface, fun _ _ log hlog => ?_⟩
    rw [Table.get?_insert_self] at hlog
    cases hlog
    rfl
  · intro x hx
    have hx : ss[0]? = some x := hx
    obtain ⟨hlook, ⟨b, hf⟩, hface, hpos⟩ := h.current x hx
    have hmem := List.mem_of_getElem? hx
    refine ⟨hb.moved _ hlook, ⟨b, (hb.face_old hf).2⟩, fun hroom => ?_, fun hroom ho log hlog => ?_⟩
    · rw [hr] at hroom
      exact (hb.face_old (hface hroom)).2
    · rw [hr] at hroom
      exact hpos hroom ho log ((hlogs x hmem ho).symm.trans hlog)
  · intro h0
    cases h0
  · intro h1
    obtain rfl : ss = [] := List.length_eq_zero_iff.1 (Nat.succ.inj h1)
    obtain ⟨hlog, hold⟩ := h.unopened rfl
    exact hrotated.between hlog hold (.refl _ _ _)

/-- A session that is told a line has it behind those before. -/
theorem Written.told {log log' : SessionLog} {fs' : FileSystem} {text : String}
    (hs : w.fs.Sound) (h : Written w D n s) (ho : s.isOpen = true) (hlog : w.logs.get? s.log = some log)
    (hnode : log.file.node = s.node) (hw : log.write w.fs now text = (log', fs')) :
    Written { w with fs := fs', logs := w.logs.insert s.log log' } D n
      (s.told s.log (now, text)) := by
  have hhas : s.has s.log = true := Session.has_iff.2 ⟨ho, rfl⟩
  have hlook := (log.write_elsewhere w.fs now text).1
  have hleads := log.write_leads w.fs now text
  -- without a limit the line goes behind the others
  have hadded : fs'.refusals.room s.node = none →
      fs'.face? s.node = some (.file (SessionLog.added s.contents (now, text))) ∧
        log'.file.pos = (SessionLog.added s.contents (now, text)).length := by
    intro hroom
    have hfree : w.fs.refusals.room s.node = none := by
      rw [hw] at hleads
      rwa [← hleads.refusals]
    have hadded := SessionLog.write_added now text (by rw [hnode]; exact h.face hfree)
      (h.pos hfree ho log hlog) (by rw [hnode]; exact hfree)
    rwa [hw, hnode] at hadded
  rw [hw] at hlook hleads
  refine ⟨?_, ?_, fun hroom => ?_, fun hroom _ l' hl' => ?_⟩
  · rw [Session.told_node]
    exact (hlook _ n).trans h.lookup
  · rw [Session.told_node]
    obtain ⟨b, hb⟩ := h.file
    rcases hleads.face? hs hb with hf | ⟨-, b', -, hf⟩
    · exact ⟨b, hf⟩
    · exact ⟨b', hf⟩
  · rw [Session.told_node] at hroom
    rw [Session.told_node, Session.told_contents hhas]
    exact (hadded hroom).1
  · rw [Session.told_node] at hroom
    rw [Session.told_log, Table.get?_insert_self] at hl'
    cases hl'
    rw [Session.told_contents hhas]
    exact (hadded hroom).2

/-- A line goes to the file of its session, behind the lines that are there, and to no other. -/
theorem LogsFiled.written {fs₀ fs' : FileSystem} {log log' : SessionLog} {text : String}
    (h : LogsFiled fs₀ t w ss) (hs : s ∈ ss) (ho : s.isOpen = true)
    (hlog : w.logs.get? s.log = some log) (hw : log.write w.fs now text = (log', fs')) :
    LogsFiled fs₀ t { w with fs := fs', logs := w.logs.insert s.log log' }
      (ss.map (Session.told s.log (now, text))) := by
  have hnode : log.file.node = s.node := by
    obtain ⟨log₀, hlog₀, hnode⟩ := h.logs s hs ho
    rw [hlog] at hlog₀
    cases hlog₀
    exact hnode
  have hsame := (log.write_cases w.fs now text).1
  have hleads := log.write_leads w.fs now text
  obtain ⟨hlook, hface⟩ := log.write_elsewhere w.fs now text
  rw [hw] at hsame hleads hlook hface
  rw [hnode] at hsame hface
  have hstays : ∀ n, w.fs.lookup t.here n ≠ some s.node →
      Stays t.here n w.fs fs' := by
    refine fun n hn => ⟨hlook _ n, fun j hj => hface j ?_⟩
    rintro rfl
    exact hn hj
  have hother : ∀ x ∈ ss, x ≠ s → x.isOpen = true → x.log ≠ s.log := fun x hx hne hox he =>
    hne (h.unique hs hx ho hox he)
  have hwritten : ∀ n x, x ∈ ss → Written w t.here n x →
      Written { w with fs := fs', logs := w.logs.insert s.log log' } t.here n
        (x.told s.log (now, text)) := by
    intro n x hx hx'
    by_cases hxs : x = s
    · rw [hxs] at hx' ⊢
      exact hx'.told h.sound ho hlog hnode hw
    · have hnot : ¬x.has s.log = true := fun hhas =>
        hother x hx hxs (Session.has_iff.1 hhas).1 (Session.has_iff.1 hhas).2
      rw [Session.told_of_not_has hnot]
      refine hx'.stays (hstays n fun hn => ?_) hleads.refusals fun hox =>
        Table.get?_insert_of_ne _ _ (hother x hx hxs hox)
      rw [hx'.lookup] at hn
      exact hxs (List.inj_on_of_nodup_map h.nodes hx hs (Option.some.inj hn))
  have hstands : t.Stands fs' :=
    h.stands.of_lookup h.sound (fun i n _ => hlook i n) fun i hi => hleads.isDirectory h.sound hi
  refine h.map (Session.told_node s.log (now, text)) (hleads.sound h.sound) hstands
    (h.regular.leads h.sound hleads (hlook _ _)) (h.oldRegular.leads h.sound hleads (hlook _ _))
    (fun i hi hi' => h.apart i ((hlook _ _).symm.trans hi) ((hlook _ _).symm.trans hi'))
    (fun x hx => hleads.exists_face? h.sound (h.there x hx)) ?_ hwritten ?_ ?_
  · intro x hx hox
    rw [Session.told_isOpen] at hox
    rw [Session.told_log]
    by_cases hxs : x = s
    · rw [hxs]
      exact ⟨_, Table.get?_insert_self _ _ _, hsame⟩
    · obtain ⟨l', hl', hn'⟩ := h.logs x hx hox
      exact ⟨l', (Table.get?_insert_of_ne _ _ (hother x hx hxs hox)).trans hl', hn'⟩
  · intro h0
    rw [h0] at hs
    cases hs
  · rintro x rfl
    obtain rfl := List.mem_singleton.1 hs
    -- the only session is in the log, which is not the old log
    exact hstays _ (h.apart _ (h.current s rfl).lookup)

/-! ## Runs -/

/-- Nothing has begun yet. -/
theorem logsFiled_nil (hs : w.fs.Sound) (ht : t.Stands w.fs)
    (hlog : w.fs.Regular t.here SessionLog.entry) (hold : w.fs.Regular t.here SessionLog.oldEntry)
    (hapart : w.fs.Separate t.here SessionLog.entry SessionLog.oldEntry) :
    LogsFiled w.fs t w [] where
  sound := hs
  stands := ht
  regular := hlog
  oldRegular := hold
  apart := hapart
  nodes := List.nodup_nil
  there s hs := by cases hs
  logs s hs := by cases hs
  current s hs := by cases hs
  previous s hs := by cases hs
  unopened _ := ⟨.refl _ _ _, .refl _ _ _⟩
  first h1 := by cases h1

/-- An open of the directory with rotation is granted, by whatever path leads there. -/
theorem LogsFiled.step_openLog {fs₀ : FileSystem} {dir : Bytes} (h : LogsFiled fs₀ t w ss)
    (hfree : w.logs.contains l = false)
    (hhome : w.fs.homeOf dir SessionLog.entry = some t.here) (hgrant : w.Grants dir)
    (now : Clock.Reading) :
    (step now w (.openLog l dir true)).answer = .ok .done ∧
      LogsFiled fs₀ t (step now w (.openLog l dir true)).world
        (w.sessionsAfter t.here now (.openLog l dir true) ss) := by
  obtain ⟨t', m, ha, ht'⟩ := (homeOf_eq_some nameable_log.proper).1 hhome
  obtain rfl : t' = t := (ha.stands h.sound).unique h.sound h.stands ht'
  obtain ⟨i, fs', hstart, hs', hstands, hr, hb⟩ :=
    SessionLog.start_rotating h.sound ha h.regular h.oldRegular h.apart hgrant.move hgrant.make
  have hstep : step now w (.openLog l dir true) =
      { w with
          fs := fs'
          logs := w.logs.insert l ⟨SessionLog.pathIn dir, ⟨i, 0⟩, .unused⟩ }.answering
        (.ok .done) := by
    simp only [step, hfree, hstart, Bool.false_eq_true, if_false]
  have hafter : w.sessionsAfter t'.here now (.openLog l dir true) ss =
      { log := l, node := i, isOpen := true, lines := [] } :: ss := by
    simp only [sessionsAfter, hfree, hhome, and_self, if_true, hstep, answering,
      Table.get?_insert_self]
  rw [hafter, hstep]
  exact ⟨rfl, h.opened hfree hs' hstands hr hb⟩

/-- **Every step keeps the sessions in their files.** -/
theorem step_logsFiled {fs₀ : FileSystem} (h : LogsFiled fs₀ t w ss) (hg : w.GrantedOpen t.here e)
    (he : Tells w t.here ss e ∨ Passes t w.fs (step now w e).world.fs) :
    LogsFiled fs₀ t (step now w e).world (w.sessionsAfter t.here now e ss) := by
  by_cases htells : Tells w t.here ss e
  · cases htells with
    | @opening l dir hhome =>
      cases hfree : w.logs.contains l with
      | false => exact (h.step_openLog hfree hhome (hg l dir rfl hhome) now).2
      | true =>
        have hafter : w.sessionsAfter t.here now (.openLog l dir true) ss = ss := by
          simp only [sessionsAfter, hfree, Bool.true_eq_false, false_and, if_false]
        rw [step_openLog_used hfree, hafter]
        exact h
    | @writing s text hs ho =>
      obtain ⟨log, hlog, -⟩ := h.logs s hs ho
      cases hw : log.write w.fs now text with
      | mk log' fs' =>
        have hstep : step now w (.writeLog s.log text) =
            { w with fs := fs', logs := w.logs.insert s.log log' }.answering (.ok .done) := by
          simp only [step, hlog, hw]
        rw [hstep]
        exact h.written hs ho hlog hw
    | @closing s hs ho =>
      obtain ⟨log, hlog, -⟩ := h.logs s hs ho
      simp only [step, hlog]
      exact h.closed s.log
    | @dropping s hs ho =>
      obtain ⟨log, hlog, -⟩ := h.logs s hs ho
      simp only [step, hlog]
      exact h.closed s.log
  · rw [sessionsAfter_untold now htells]
    refine h.keep (step_sound h.sound now e) (step_leads h.sound now e).refusals (fun s hs => ?_)
      (he.resolve_left htells) ?_
    · exact (step_leads h.sound now e).exists_face? h.sound (h.there s hs)
    · intro s hs ho
      obtain ⟨log, hlog, -⟩ := h.logs s hs ho
      exact step_logs_untold now htells hs ho hlog

/-- What nobody disturbs was not disturbed before. -/
theorem LogsReservedIn.before {pre : List (Clock.Reading × Event)} (h : w.LogsReservedIn t ss es)
    (hpre : pre <+: es) : w.LogsReservedIn t ss pre := by
  induction pre generalizing w ss es with
  | nil => trivial
  | cons p pre ih =>
    obtain ⟨rest, rfl⟩ := hpre
    exact ⟨h.1, ih h.2 (List.prefix_append _ _)⟩

/-- After every run the sessions are in their files. -/
theorem run_logsFiled {fs₀ : FileSystem} (h : LogsFiled fs₀ t w ss)
    (hg : w.LogsGranted t.here es) (hu : w.LogsReservedIn t ss es) :
    LogsFiled fs₀ t (w.run es) (w.sessionsIn t.here ss es) := by
  induction es generalizing w ss with
  | nil => exact h
  | cons p es ih => exact ih (step_logsFiled h hg.cons.1 hu.1) hg.cons.2 hu.2

end World

/-! ## Rotation -/

open World

/-- At every point of the run `es`, which begins in the world `w`, no line of a session in the
directory of the trail `t` is lost, and none is in the log of another one. -/
structure Unmixed (w : World) (t : Trail) (es : List (Clock.Reading × Event)) : Prop where
  /-- Any number of logs can be opened, by whatever path leads there, if the system lets them. -/
  granted : ∀ pre now l dir, pre ++ [(now, .openLog l dir true)] <+: es →
    (w.run pre).logs.contains l = false →
    (w.run pre).fs.homeOf dir SessionLog.entry = some t.here → (w.run pre).Grants dir →
    (step now (w.run pre) (.openLog l dir true)).answer = .ok .done
  /-- The log is a file with the lines of the last session, unless the system sets a limit for it. -/
  log : ∀ pre s, pre <+: es → (w.sessions t.here pre)[0]? = some s →
    (w.run pre).fs.Keeps t.here SessionLog.entry s.contents
  /-- The old log is one with those of the session before it, which may still go on. -/
  old : ∀ pre s, pre <+: es → (w.sessions t.here pre)[1]? = some s →
    (w.run pre).fs.Keeps t.here SessionLog.oldEntry s.contents
  /-- These are all its lines, one behind the other, as long as a file can hold them. Each is its
  stamp, a space, the message as it is and a line feed. -/
  lines : ∀ pre s, pre <+: es → s ∈ w.sessions t.here pre →
    (s.lines.flatMap fun l => SessionLog.line l.1 l.2).length < positionLimit →
    s.contents = s.lines.flatMap fun l =>
      Utf8.encode (Clock.Stamp.text l.1.civil) ++ 32 :: Utf8.ofText l.2 ++ [10]
  /-- A line is made in a buffer, in which nothing counts that was there before. -/
  made : ∀ (b : LineBuffer) now message, (b.write now message).shown = SessionLog.line now message
  /-- The first session makes the log that was there the old log; if there was none, the old log is
  what it was. -/
  first : ∀ pre, pre <+: es → (w.sessions t.here pre).length = 1 →
    (∀ b, w.fs.Holds t.here SessionLog.entry b →
      (w.run pre).fs.Holds t.here SessionLog.oldEntry b) ∧
    (w.fs.lookup t.here SessionLog.entry = none →
      Stays t.here SessionLog.oldEntry w.fs (w.run pre).fs)
  /-- Before that both logs are what they were. -/
  unopened : ∀ pre, pre <+: es → w.sessions t.here pre = [] →
    Stays t.here SessionLog.entry w.fs (w.run pre).fs ∧
      Stays t.here SessionLog.oldEntry w.fs (w.run pre).fs

/-- **Rotation loses no line and mixes none**, however many logs are open at the same time. -/
theorem run_unmixed {w : World} {t : Trail} {es : List (Clock.Reading × Event)} (hs : w.fs.Sound)
    (ht : t.Stands w.fs) (hlog : w.fs.Regular t.here SessionLog.entry)
    (hold : w.fs.Regular t.here SessionLog.oldEntry)
    (hapart : w.fs.Separate t.here SessionLog.entry SessionLog.oldEntry)
    (hg : w.LogsGranted t.here es) (hu : LogsReserved w t es) : Unmixed w t es := by
  have hfiled : ∀ pre, pre <+: es → LogsFiled w.fs t (w.run pre) (w.sessions t.here pre) :=
    fun pre hpre => run_logsFiled (logsFiled_nil hs ht hlog hold hapart) (hg.before hpre)
      (hu.before hpre)
  refine ⟨?_, ?_, ?_, ?_, SessionLog.line_from_buffer, ?_, ?_⟩
  · intro pre now l dir hpre hfree hhome hgrant
    have h := hfiled pre ((List.prefix_append _ _).trans hpre)
    exact (h.step_openLog hfree hhome hgrant now).1
  · exact fun pre s hpre hs => ((hfiled pre hpre).current s hs).keeps
  · exact fun pre s hpre hs => ((hfiled pre hpre).previous s hs).keeps
  · intro pre s _ _ hroom
    rw [Session.contents, SessionLog.filled_room (by simpa using hroom), List.nil_append]
    simp only [SessionLog.line_eq]
  · intro pre hpre h1
    have hrot := (hfiled pre hpre).first h1
    exact ⟨hrot.moved trivial, fun hfree => hrot.kept (Or.inr hfree)⟩
  · intro pre hpre h0
    exact (hfiled pre hpre).unopened h0

/-- The directory `/db` with both logs, of sessions long ago. -/
def FileSystem.logged : FileSystem :=
  ((ofFileSystem .furnished).run
    [(⟨⟨0, 0⟩, 0⟩, .outside (.write (Utf8.ofText "/db/LOG") [1])),
      (⟨⟨0, 0⟩, 0⟩, .outside (.write (Utf8.ofText "/db/LOG.old") [2]))]).fs

theorem logged_sound : FileSystem.logged.Sound :=
  run_sound (w := ofFileSystem .furnished) furnished_sound _

/-- A second log is opened while the first one is, and the first one goes on. -/
def overlapping : List (Clock.Reading × Event) :=
  [(⟨⟨0, 0⟩, 0⟩, .openLog 0 (Utf8.ofText "/db") true),
    (⟨⟨1, 0⟩, 0⟩, .writeLog 0 "a long line"),
    (⟨⟨2, 0⟩, 0⟩, .openLog 1 (Utf8.ofText "/dev/../db/") true),
    (⟨⟨3, 0⟩, 0⟩, .writeLog 1 "short"),
    (⟨⟨4, 0⟩, 0⟩, .writeLog 0 "late")]

theorem logsReserved_overlapping : LogsReserved (ofFileSystem .logged) .toDb overlapping := by
  refine ⟨Or.inl (.opening (by decide +kernel)), Or.inl (tells_writing (by decide +kernel)), ?_⟩
  exact ⟨Or.inl (.opening (by decide +kernel)), Or.inl (tells_writing (by decide +kernel)),
    Or.inl (tells_writing (by decide +kernel)), trivial⟩

theorem logsGranted_overlapping :
    (ofFileSystem .logged).LogsGranted Trail.toDb.here overlapping := by
  refine LogsGranted.of_all logged_sound fun now l dir hmem => ?_
  simp only [overlapping, List.mem_cons, Prod.mk.injEq, reduceCtorEq, and_false, false_or,
    List.not_mem_nil, or_false, Event.openLog.injEq] at hmem
  rcases hmem with ⟨-, -, rfl, -⟩ | ⟨-, -, rfl, -⟩
  · exact ⟨by decide +kernel, by decide +kernel⟩
  · exact ⟨by decide +kernel, by decide +kernel⟩

/-- What the first log says last goes to the old log, and what was in the log at first is lost with
the second rotation alone. -/
theorem run_unmixed_overlapping : Unmixed (ofFileSystem .logged) .toDb overlapping ∧
    ((ofFileSystem .logged).run (overlapping.take 1)).fs.Holds Trail.toDb.here
      SessionLog.oldEntry [1] ∧
    ((ofFileSystem .logged).run overlapping).fs.Holds Trail.toDb.here SessionLog.entry
      (SessionLog.line ⟨⟨3, 0⟩, 0⟩ "short") ∧
    ((ofFileSystem .logged).run overlapping).fs.Holds Trail.toDb.here SessionLog.oldEntry
      (SessionLog.line ⟨⟨1, 0⟩, 0⟩ "a long line" ++ SessionLog.line ⟨⟨4, 0⟩, 0⟩ "late") := by
  have hlog : FileSystem.logged.Holds Trail.toDb.here SessionLog.entry [1] :=
    ⟨Trail.toDb.here.child 0, by decide +kernel, by decide +kernel⟩
  have hold : FileSystem.logged.Holds Trail.toDb.here SessionLog.oldEntry [2] :=
    ⟨Trail.toDb.here.child 1, by decide +kernel, by decide +kernel⟩
  have hunmixed : Unmixed (ofFileSystem .logged) .toDb overlapping :=
    run_unmixed (w := ofFileSystem .logged) logged_sound ⟨by decide +kernel, by decide +kernel, trivial⟩
      (Or.inr ⟨_, hlog⟩) (Or.inr ⟨_, hold⟩)
      ((oneName_of_entries (by decide +kernel)).separate SessionLog.entry_ne_oldEntry)
      logsGranted_overlapping logsReserved_overlapping
  have hroom : ∀ i, ((ofFileSystem .logged).run overlapping).fs.refusals.room i = none := by
    intro i
    have hfirst := refusals_run (w := ofFileSystem .furnished) furnished_sound
    rw [refusals_run (w := ofFileSystem .logged) logged_sound]
    exact congrFun (congrArg SystemRefusals.room (hfirst _)) i
  have hsessions : (ofFileSystem .logged).sessions Trail.toDb.here overlapping =
      [⟨1, Trail.toDb.here.child 3, true, [(⟨⟨3, 0⟩, 0⟩, "short")]⟩,
        ⟨0, Trail.toDb.here.child 2, true,
          [(⟨⟨1, 0⟩, 0⟩, "a long line"), (⟨⟨4, 0⟩, 0⟩, "late")]⟩] := by decide +kernel
  have hfirst := hunmixed.first (overlapping.take 1) (List.take_prefix _ _) (by decide +kernel)
  have hnew := hunmixed.log overlapping _ (List.prefix_refl _) (by rw [hsessions]; rfl)
  have hprev := hunmixed.old overlapping _ (List.prefix_refl _) (by rw [hsessions]; rfl)
  exact ⟨hunmixed, hfirst.1 _ hlog, hnew.holds hroom, hprev.holds hroom⟩

/-- Both logs of `/db` are missing or files at first, and are changed through the sessions alone that
begin there. -/
structure World.LogsAlone (fs : FileSystem) (es : List (Clock.Reading × Event)) : Prop where
  sound : fs.Sound
  stands : Trail.toDb.Stands fs
  log : fs.Regular Trail.toDb.here SessionLog.entry
  old : fs.Regular Trail.toDb.here SessionLog.oldEntry
  reserved : LogsReserved (ofFileSystem fs) .toDb es

/-- A log is opened, -/
def World.oneSession : List (Clock.Reading × Event) :=
  [(⟨⟨0, 0⟩, 0⟩, .openLog 0 Trail.toDb.path true)]

/-- and a line written, -/
def World.oneLine : List (Clock.Reading × Event) :=
  oneSession ++ [(⟨⟨0, 0⟩, 0⟩, .writeLog 0 "a")]

/-- and another log opened, by another path. -/
def World.twoSessions : List (Clock.Reading × Event) :=
  oneLine ++ [(⟨⟨0, 0⟩, 0⟩, .openLog 1 (Utf8.ofText "/dev/../db") true)]

/-- No file can be made by that path. -/
def FileSystem.unmakable : FileSystem :=
  { FileSystem.furnished with refusals := { SystemRefusals.never with
    make := fun path => if path = Utf8.ofText "/dev/../db/LOG" then some .nameTooLong else none } }

/-- In an empty directory no log is missed. -/
theorem logsAlone_of_empty {fs : FileSystem} {es : List (Clock.Reading × Event)} (hs : fs.Sound)
    (ht : Trail.toDb.Stands fs) (hempty : ∀ n, fs.lookup Trail.toDb.here n = none)
    (hr : LogsReserved (ofFileSystem fs) .toDb es) : LogsAlone fs es :=
  ⟨hs, ht, Or.inl (hempty _), Or.inl (hempty _), hr⟩

/-- **Rotation can lose lines**: where both logs are one file, where the log cannot be moved, where
none can be made in its place, and where there is no room for a line. -/
theorem unmixed_loses :
    (LogsAlone .oneLog oneSession ∧
      FileSystem.oneLog.Holds Trail.toDb.here SessionLog.entry [1] ∧
      ((ofFileSystem .oneLog).sessions Trail.toDb.here oneSession).map Session.lines = [[]] ∧
      ((ofFileSystem .oneLog).run oneSession).fs.Holds Trail.toDb.here SessionLog.oldEntry []) ∧
    (LogsAlone .unmovable twoSessions ∧ FileSystem.unmovable.OneName Trail.toDb.here ∧
      ((ofFileSystem .unmovable).sessions Trail.toDb.here twoSessions).map Session.lines =
        [[], [(⟨⟨0, 0⟩, 0⟩, "a")]] ∧
      ((ofFileSystem .unmovable).run twoSessions).fs.lookup Trail.toDb.here SessionLog.oldEntry =
        none) ∧
    (LogsAlone .unmakable twoSessions ∧ FileSystem.unmakable.OneName Trail.toDb.here ∧
      ((ofFileSystem .unmakable).sessions Trail.toDb.here twoSessions).map Session.lines =
        [[(⟨⟨0, 0⟩, 0⟩, "a")]] ∧
      ((ofFileSystem .unmakable).run twoSessions).fs.lookup Trail.toDb.here SessionLog.entry =
        none) ∧
    (LogsAlone .roomless oneLine ∧ FileSystem.roomless.OneName Trail.toDb.here ∧
      ((ofFileSystem .roomless).sessions Trail.toDb.here oneLine).map Session.lines =
        [[(⟨⟨0, 0⟩, 0⟩, "a")]] ∧
      ((ofFileSystem .roomless).run oneLine).fs.Holds Trail.toDb.here SessionLog.entry []) := by
  have hrefusing : ∀ r : SystemRefusals, { FileSystem.furnished with refusals := r }.Sound :=
    furnished_sound.refusing
  refine ⟨⟨?_, holds_iff.2 (by decide +kernel), by decide +kernel, holds_iff.2 (by decide +kernel)⟩,
    ⟨logsAlone_of_empty (hrefusing _) ?_ (fun _ => rfl) ?_, oneName_of_entries (by decide +kernel),
      by decide +kernel, by decide +kernel⟩,
    ⟨logsAlone_of_empty (hrefusing _) ?_ (fun _ => rfl) ?_, oneName_of_entries (by decide +kernel),
      by decide +kernel, by decide +kernel⟩,
    logsAlone_of_empty (hrefusing _) ?_ (fun _ => rfl) ?_, oneName_of_entries (by decide +kernel),
    by decide +kernel, holds_iff.2 (by decide +kernel)⟩
  · exact ⟨oneLog_sound, ⟨by decide +kernel, by decide +kernel, trivial⟩,
      Or.inr ⟨[1], holds_iff.2 (by decide +kernel)⟩, Or.inr ⟨[1], holds_iff.2 (by decide +kernel)⟩,
      Or.inl (.opening (by decide +kernel)), trivial⟩
  · exact ⟨by decide +kernel, by decide +kernel, trivial⟩
  · exact ⟨Or.inl (.opening (by decide +kernel)), Or.inl (tells_writing (by decide +kernel)),
      Or.inl (.opening (by decide +kernel)), trivial⟩
  · exact ⟨by decide +kernel, by decide +kernel, trivial⟩
  · exact ⟨Or.inl (.opening (by decide +kernel)), Or.inl (tells_writing (by decide +kernel)),
      Or.inl (.opening (by decide +kernel)), trivial⟩
  · exact ⟨by decide +kernel, by decide +kernel, trivial⟩
  · exact ⟨Or.inl (.opening (by decide +kernel)), Or.inl (tells_writing (by decide +kernel)),
      trivial⟩

end EngineDir
