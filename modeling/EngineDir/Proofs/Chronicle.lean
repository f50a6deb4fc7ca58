import EngineDir.Proofs.Closing
import EngineDir.Proofs.Reserved
import EngineDir.Proofs.Rotation

/-!
# What the log holds

The log of a directory that is changed through its own stores alone tells all of the last
session, and nothing else: what was to be logged and every warning, in the order in which
they came. Whoever can warn has the log, also when the store itself was dropped. All that
is as far as the system lets the log be moved, made and written.

* `World.opens`, `World.chronicle`: the sessions of a directory, and the lines of the last one.
* `World.said_nil`: **without a log nobody warns.**
* `World.step_begins`: what comes of opening the directory.
* `World.Chronicled`: the log holds the lines. `World.step_chronicled`: **every step keeps that.**
* `run_logsTell`: **the log tells the session, in every world that comes about.**
  `logsTell_misses`: what it misses where both logs are one file or the system refuses something.
-/

namespace EngineDir

open FileSystem

/-! ## Nothing is said without a log -/

/-- A store whose session is over tells nothing. -/
theorem Store.tells_closed {s : Store} {fs : FileSystem} {now : Clock.Reading}
    (hc : s.closed = true) (r : StoreRequest) : s.tells fs now r = [] := by
  cases r with
  | close => exact if_pos (Or.inl hc)
  | abandon => exact if_pos hc
  | log text => exact if_pos hc
  | removeFile id =>
    have hacc : s.access id .stillOpen = .error .closed := if_pos hc
    simp only [tells, warns, removeFile, hacc, Outcome.refuse]
  | setManifest id =>
    have hset : s.setManifest fs now id = .refuse fs s .closed := if_pos hc
    simp only [tells, warns, hset, Outcome.refuse]
  | _ => rfl

/-- A handle that is closed warns of nothing. -/
theorem Handle.warns_closed {x : Handle} {fs : FileSystem} (hx : x.file = none)
    (r : HandleRequest) : x.warns fs r = [] := by
  cases r with
  | close => simp only [warns, hx]
  | abandon => simp only [warns, isClosed, hx]; rfl
  | _ => rfl

namespace World

variable {w w₀ w' : World} {t : Trail} {now : Clock.Reading} {e : Event} {s k : Nat} {o : Options}
  {st st' : Store} {dir : Bytes} {lines : Option (List (Clock.Reading × String))}
  {es : List (Clock.Reading × Event)}

/-- **Without a log nobody warns**: what is not over has its log, and so has every store with an open
handle. -/
theorem said_nil (hu : InUse w) (hp : AllPaired w) (he : w.addressee? e = some s)
    (hs : w.stores.get? s = some st) (hl : st.log = none) : w.said now e = [] := by
  have hnolock : ∀ l, st.lock ≠ some l := by
    intro l hlock
    have hpair : st.log.isSome = st.lock.isSome := hp s st hs
    rw [hl, hlock] at hpair
    cases hpair
  cases e with
  | store k r =>
    obtain rfl : k = s := Option.some.inj he
    have hclosed : st.closed = true := by
      cases hc : st.closed with
      | true => rfl
      | false =>
        obtain ⟨-, l, hlock⟩ := hu.unclosed k st hs hc
        exact absurd hlock (hnolock l)
    simp only [said, hs, Store.tells_closed hclosed, ite_self]
  | handle h r =>
    simp only [addressee?, Option.map_eq_some_iff] at he
    obtain ⟨⟨k, x⟩, hh, rfl⟩ := he
    have hshut : x.file = none := by
      cases hf : x.file with
      | none => rfl
      | some f =>
        obtain ⟨l, hlock, -⟩ := hu.lock hh hf hs
        exact absurd hlock (hnolock l)
    simp only [said, warned, hh, Handle.warns_closed hshut]
  | _ => rfl

/-! ## The lines of a session -/

/-- Whether an event opens the directory with the path `dir`. -/
def opens (w : World) (dir : Bytes) (now : Clock.Reading) : Event → Bool
  | .openStore s o =>
    match (step now w (.openStore s o)).answer with
    | .ok _ => (step now w (.openStore s o)).world.isAt dir s
    | .error _ => false
  | _ => false

/-- The lines of the last session in the directory with the path `dir` after an event: none yet if
the session begins, and otherwise what the event has written behind those before. -/
def noted (w : World) (dir : Bytes) (now : Clock.Reading) (e : Event)
    (lines : Option (List (Clock.Reading × String))) : Option (List (Clock.Reading × String)) :=
  if w.opens dir now e = true then some []
  else if (w.addressee? e).any (w.isAt dir) = true then
    lines.map fun ls => ls ++ (w.said now e).map (Prod.mk now)
  else lines

/-- The lines of the last session after a run that begins with these. -/
def notedIn (w : World) (dir : Bytes) (lines : Option (List (Clock.Reading × String))) :
    List (Clock.Reading × Event) → Option (List (Clock.Reading × String))
  | [] => lines
  | (now, e) :: es => (step now w e).world.notedIn dir (w.noted dir now e lines) es

/-- The lines of the last session in the directory with the path `dir`, each with its time, if there
was one in the run. -/
def chronicle (w : World) (dir : Bytes) (es : List (Clock.Reading × Event)) :
    Option (List (Clock.Reading × String)) := w.notedIn dir none es

theorem notedIn_concat (w : World) (dir : Bytes) (lines : Option (List (Clock.Reading × String)))
    (es : List (Clock.Reading × Event)) (now : Clock.Reading) (e : Event) :
    w.notedIn dir lines (es ++ [(now, e)]) =
      (w.run es).noted dir now e (w.notedIn dir lines es) := by
  induction es generalizing w lines with
  | nil => rfl
  | cons p es ih =>
    obtain ⟨now', e'⟩ := p
    exact ih (step now' w e').world (w.noted dir now' e' lines)

theorem chronicle_concat (w : World) (dir : Bytes) (es : List (Clock.Reading × Event))
    (now : Clock.Reading) (e : Event) :
    w.chronicle dir (es ++ [(now, e)]) = (w.run es).noted dir now e (w.chronicle dir es) :=
  notedIn_concat w dir none es now e

/-! ## Opening the directory -/

/-- What comes of opening the directory of the trail `t` as the store `s`: nothing that the logs
show, or a session whose log is empty. -/
inductive Begins (t : Trail) (now : Clock.Reading) (w : World) (s : Nat) (o : Options) : Prop
  | failed (hopens : w.opens t.path now (.openStore s o) = false)
      (hstores : (step now w (.openStore s o)).world.stores = w.stores)
      (hlog : Stays t.here SessionLog.entry w.fs (step now w (.openStore s o)).world.fs)
      (hold : Stays t.here SessionLog.oldEntry w.fs (step now w (.openStore s o)).world.fs)
  | opened {st : Store} (hopens : w.opens t.path now (.openStore s o) = true)
      (hfree : w.stores.get? s = none)
      (hstores : (step now w (.openStore s o)).world.stores = w.stores.insert s st)
      (hdir : st.dir = t.path)
      (hlogged : LogKeeps t.here (step now w (.openStore s o)).world.fs st.log [])
      (hrotated : SessionLog.Rotated t.here (SessionLog.Moves w.fs t.path o.rotateLog) w.fs
        (step now w (.openStore s o)).world.fs)

theorem opens_error {f : Failure} (ha : (step now w (.openStore s o)).answer = .error f) :
    w.opens dir now (.openStore s o) = false := by
  simp only [opens, ha]

theorem step_begins (hh : Housed t w) (hup : Part.up ∉ (Path.ofText o.dir).parts)
    (hfind : (Store.prepare w.fs o).2.find (Path.ofText o.dir) = .ok t.here)
    (hlog : w.fs.Regular t.here SessionLog.entry) (hold : w.fs.Regular t.here SessionLog.oldEntry)
    (hmake : w.fs.refusals.make (SessionLog.pathIn t.path) = none) : Begins t now w s o := by
  by_cases hc : w.stores.contains s = true
  · have hstep : step now w (.openStore s o) = w.answering (.error .misnamed) := if_pos hc
    exact .failed (opens_error (by rw [hstep]; rfl)) (by rw [hstep]; rfl)
      (by rw [hstep]; exact .refl _ _ _) (by rw [hstep]; exact .refl _ _ _)
  have hstep : step now w (.openStore s o) = w.stepOpen s o := if_neg hc
  have hsame := Store.prepare_same hh.sound hup (hh.stands.isDirectory hh.sound) hfind
  have hopen := Store.open?_enter hh.sound (by rw [hsame]; exact hh.stands) hfind
  rw [hsame] at hopen
  -- an open that fails leaves all names but that of the lock
  have hfailed : ∀ err fs', Store.open? w.fs o = (.error err, fs') →
      (∀ n, n ≠ DirLock.entry → Stays t.here n w.fs fs') → Begins t now w s o := by
    intro err fs' he hstay
    have hfail : step now w (.openStore s o) =
        { w with fs := fs' }.answering (.error (.store err)) := by
      rw [hstep, stepOpen, he]
    exact .failed (opens_error (by rw [hfail]; rfl)) (by rw [hfail]; rfl)
      (by rw [hfail]; exact hstay _ (lockName_ne (by decide)))
      (by rw [hfail]; exact hstay _ (lockName_ne (by decide)))
  rcases hopen with ⟨err, he⟩ | he
  · exact hfailed err w.fs he fun n _ => .refl _ _ _
  · rcases Store.enter_regular (o := o) hh.sound hh.stands hh.oneName (hh.noLink _) hlog hold hmake with
      ⟨err, fs', hent, hstay⟩ | ⟨st, fs', hent, hdir, hlogged, hrot⟩
    · exact hfailed err fs' (he.trans hent) hstay
    · have hok : step now w (.openStore s o) =
          { world := { w with fs := fs', stores := w.stores.insert s st }
            answer := .ok .done
            notes := [st.openedNote] } := by
        rw [hstep, stepOpen, he, hent]
      have hat : (step now w (.openStore s o)).world.isAt t.path s = true := by
        rw [hok]
        exact isAt_iff.2 ⟨st, Table.get?_insert_self _ _ _, hdir⟩
      have hans : (step now w (.openStore s o)).answer = .ok .done := by rw [hok]
      refine .opened ?_ (not_contains hc) (by rw [hok]) hdir (by rw [hok]; exact hlogged)
        (by rw [hok]; exact hrot)
      simp only [opens, hans, hat]

/-! ## The log of a directory -/

/-- The log of the directory of the trail `t` holds the lines of the last session, and whoever has it
writes behind them, unless the system sets a limit for it. -/
structure Chronicled (t : Trail) (w : World) (lines : Option (List (Clock.Reading × String))) :
    Prop where
  log : w.fs.Regular t.here SessionLog.entry
  old : w.fs.Regular t.here SessionLog.oldEntry
  /-- A log can be made. -/
  make : w.fs.refusals.make (SessionLog.pathIn t.path) = none
  keeps : ∀ ls, lines = some ls → w.fs.Keeps t.here SessionLog.entry (SessionLog.filled [] ls)
  logged : ∀ s st l, w.stores.get? s = some st → st.dir = t.path → st.log = some l →
    ∃ ls, lines = some ls ∧ LogKeeps t.here w.fs st.log (SessionLog.filled [] ls)

/-- An event that leaves both logs, and gives no store a log, leaves the lines. -/
theorem Chronicled.keep (h : Chronicled t w lines)
    (hlog : Stays t.here SessionLog.entry w.fs w'.fs)
    (hold : Stays t.here SessionLog.oldEntry w.fs w'.fs) (hr : w'.fs.refusals = w.fs.refusals)
    (hstore : ∀ s st l, w'.stores.get? s = some st → st.dir = t.path → st.log = some l →
      w.stores.get? s = some st) : Chronicled t w' lines := by
  refine ⟨h.log.stays hlog, h.old.stays hold, by rw [hr]; exact h.make,
    fun ls hls => (h.keeps ls hls).stays hlog hr, ?_⟩
  intro s st l hst hd hl
  obtain ⟨ls, hls, hlogged⟩ := h.logged s st l (hstore s st l hst hd hl) hd hl
  exact ⟨ls, hls, hlogged.stays hlog hr⟩

/-- To open the directory begins a new log, or leaves both. -/
theorem Chronicled.opening (h : Chronicled t w lines) (hh : Housed t w) (hk : Kept w)
    (hup : Part.up ∉ (Path.ofText o.dir).parts)
    (hfind : (Store.prepare w.fs o).2.find (Path.ofText o.dir) = .ok t.here) :
    Chronicled t (step now w (.openStore s o)).world (w.noted t.path now (.openStore s o) lines) := by
  have hbegins : Begins t now w s o := step_begins hh hup hfind h.log h.old h.make
  have hr := (step_leads hh.sound now (.openStore s o)).refusals
  cases hbegins with
  | failed hopens hstores hlog hold =>
    have hnoted : w.noted t.path now (.openStore s o) lines = lines := by
      simp [noted, hopens, addressee?]
    rw [hnoted]
    refine h.keep hlog hold hr fun k st l hst _ _ => ?_
    rwa [hstores] at hst
  | @opened st hopens hfree hstores hdir hlogged hrot =>
    have hnoted : w.noted t.path now (.openStore s o) lines = some [] := if_pos hopens
    rw [hnoted]
    refine ⟨hlogged.keeps.regular, hrot.regular, by rw [hr]; exact h.make, ?_, ?_⟩
    · intro ls hls
      rw [← Option.some.inj hls]
      exact hlogged.keeps
    · intro k st' l hst' hd' hl
      refine ⟨[], rfl, ?_⟩
      rw [hstores, Table.get?_insert] at hst'
      split at hst'
      · cases hst'
        exact hlogged
      · -- another store with a log would have the lock, and this one had not been opened
        obtain ⟨lock, hlock⟩ := hk.use.log k st' l hst' hl
        have hopened : OpensHere t now s w (step now w (.openStore s o)).world :=
          step_opening hh hup hfind
        have hsame := hopened.eq_self hh hk hst' hd' hlock
        have hnew : (step now w (.openStore s o)).world.stores.get? s = some st := by
          rw [hstores]
          exact Table.get?_insert_self _ _ _
        rw [hsame, hfree] at hnew
        cases hnew

/-- No handle of the directory is open on a log. -/
theorem not_fills_control {a : Except Failure Value} {cs : List Char} (hh : Housed t w)
    (he : w.addressee? e = some s) (hs : w.stores.get? s = some st) (hd : st.dir = t.path)
    (hcs : ControlText cs) (hL : cs.head? = some 'L') :
    ¬w.Fills t.here e a (Utf8.encode cs) :=
  not_fills he hcs hL fun _ _ _ hx hf hl => (hh.named hx hf hs hd hl).not_control ⟨cs, hcs, rfl⟩

/-- What is asked of a store of the directory leaves the old log. -/
theorem step_oldLog (now : Clock.Reading) (hh : Housed t w) (he : w.addressee? e = some s)
    (hs : w.stores.get? s = some st) (hd : st.dir = t.path) :
    Stays t.here SessionLog.oldEntry w.fs (step now w e).world.fs := by
  obtain ⟨st', -, log', hw, -⟩ := step_does now hh.sound hh.stands hh.tidy he hs hd
  have hlogAt : LogAt t.here w.fs st.log := fun l hl => hh.log s st l hs hd hl
  exact hw.stays hh.sound hh.oneName hlogAt (Or.inr (not_binds he .log rfl))
    (Or.inr SessionLog.entry_ne_oldEntry.symm) (not_fills_control hh he hs hd .oldLog rfl)
    (not_binds he .oldLog rfl)

/-- A store with a log after something is asked of the store `s` had one before, and is the same if
it is another one. -/
theorem asked_log {l : SessionLog} (he : w.addressee? e = some s)
    (hst' : (step now w e).world.stores.get? k = some st') (hl : st'.log = some l) :
    ∃ st₀ l₀, w.stores.get? k = some st₀ ∧ st₀.dir = st'.dir ∧ st₀.log = some l₀ ∧
      (k ≠ s → st' = st₀) := by
  obtain ⟨st₀, hst₀, hb⟩ := asked_stores he hst'
  obtain ⟨l₀, hl₀, -⟩ := hb.log_later l hl
  refine ⟨st₀, l₀, hst₀, hb.dir.symm, hl₀, fun hne => ?_⟩
  have hsame : (step now w e).world.stores.get? k = some st₀ :=
    step_elsewhere (fun hk => hne (Option.some.inj (hk.symm.trans he))) hst₀
  exact Option.some.inj (hst'.symm.trans hsame)

/-- What is asked of a store that has no log leaves both logs. -/
theorem Chronicled.asked_without (h : Chronicled t w lines) (hh : Housed t w)
    (he : w.addressee? e = some s) (hs : w.stores.get? s = some st) (hd : st.dir = t.path)
    (hl : st.log = none) : Chronicled t (step now w e).world lines := by
  obtain ⟨st', -, log', hw, -⟩ := step_does now hh.sound hh.stands hh.tidy he hs hd
  rw [hl] at hw
  have hlog := hw.stays hh.sound hh.oneName (.none _ _) (Or.inl rfl) (Or.inl rfl)
    (not_fills_control hh he hs hd .log rfl) (not_binds he .log rfl)
  refine h.keep hlog (step_oldLog now hh he hs hd) hw.refusals fun k st₁ l₁ hst₁ _ hl₁ => ?_
  obtain ⟨st₀, l₀, hst₀, -, hl₀, hsame⟩ := asked_log he hst₁ hl₁
  have hks : k ≠ s := by
    rintro rfl
    rw [← Option.some.inj (hs.symm.trans hst₀), hl] at hl₀
    cases hl₀
  rw [hsame hks]
  exact hst₀

/-- **What is asked of a store that has the log adds what it has to say**, and nothing else. -/
theorem Chronicled.asked_with {l : SessionLog} {ls : List (Clock.Reading × String)}
    (h : Chronicled t w (some ls)) (hh : Housed t w) (hk : Kept w) (he : w.addressee? e = some s)
    (hs : w.stores.get? s = some st) (hd : st.dir = t.path) (hl : st.log = some l) :
    Chronicled t (step now w e).world (some (ls ++ (w.said now e).map (Prod.mk now))) := by
  obtain ⟨st', hst', log', hw, hlog'⟩ := step_does now hh.sound hh.stands hh.tidy he hs hd
  have hnew : LogKeeps t.here (step now w e).world.fs log'
      (SessionLog.filled [] (ls ++ (w.said now e).map (Prod.mk now))) := by
    obtain ⟨ls', hls', hlogged⟩ := h.logged s st l hs hd hl
    rw [Option.some.inj hls', SessionLog.filled_append]
    exact hlogged.works hw hh.sound hh.oneName (not_fills_control hh he hs hd .log rfl)
      (not_binds he .log rfl)
  refine ⟨hnew.keeps.regular, h.old.stays (step_oldLog now hh he hs hd),
    by rw [hw.refusals]; exact h.make, ?_, ?_⟩
  · intro ls' hls'
    rw [← Option.some.inj hls']
    exact hnew.keeps
  · intro k st₁ l₁ hst₁ hd₁ hl₁
    obtain ⟨st₀, l₀, hst₀, hd₀, hl₀, -⟩ := asked_log he hst₁ hl₁
    -- whoever has a log has the lock
    obtain rfl : k = s := hh.tenant hk hst₀ (hd₀.trans hd₁) (hk.use.log k st₀ l₀ hst₀ hl₀) hs hd
      (hk.use.log s st l hs hl)
    obtain rfl := Option.some.inj (hst'.symm.trans hst₁)
    refine ⟨_, rfl, ?_⟩
    rcases hlog' with hlog' | ⟨hnone, -⟩
    · rw [hlog']
      exact hnew
    · rw [hnone] at hl₁
      cases hl₁

/-- **What is asked of a store of the directory adds what it has to say.** -/
theorem Chronicled.asked (h : Chronicled t w lines) (hh : Housed t w) (hk : Kept w)
    (hp : AllPaired w) (he : w.addressee? e = some s) (hs : w.stores.get? s = some st)
    (hd : st.dir = t.path) :
    Chronicled t (step now w e).world
      (lines.map fun ls => ls ++ (w.said now e).map (Prod.mk now)) := by
  cases hl : st.log with
  | none =>
    have hsaid : w.said now e = [] := said_nil hk.use hp he hs hl
    have hnothing : (lines.map fun ls => ls ++ (w.said now e).map (Prod.mk now)) = lines := by
      rw [hsaid]
      cases lines <;> simp
    rw [hnothing]
    exact h.asked_without hh he hs hd hl
  | some l =>
    obtain ⟨ls, rfl, -⟩ := h.logged s st l hs hd hl
    exact h.asked_with hh hk he hs hd hl

/-- An event that leaves the directory opens no session there. -/
theorem Leaves.opens (hl : Leaves t w (step now w e).world) (hi : ¬Inside w t e) :
    w.opens t.path now e = false := by
  cases e with
  | openStore s o =>
    simp only [World.opens]
    cases ha : (step now w (.openStore s o)).answer with
    | error err => rfl
    | ok v =>
      cases hat : (step now w (.openStore s o)).world.isAt t.path s with
      | false => rfl
      | true =>
        -- the store was there before, so it cannot have been opened
        obtain ⟨st', hst', hd'⟩ := isAt_iff.1 hat
        obtain ⟨hst, -⟩ := hl.stores hi s st' hst' hd'
        have hc : w.stores.contains s = true := by simp [Table.contains, hst]
        have hstep : step now w (.openStore s o) = w.answering (.error .misnamed) := if_pos hc
        rw [hstep] at ha
        cases ha
  | _ => rfl

/-- It has nothing to say there. -/
theorem Leaves.noted (hl : Leaves t w (step now w e).world) (hi : ¬Inside w t e) :
    w.noted t.path now e lines = lines := by
  have hasked : (w.addressee? e).any (w.isAt t.path) = false := by
    cases he : w.addressee? e with
    | none => rfl
    | some s =>
      cases hat : w.isAt t.path s with
      | false => exact hat
      | true =>
        obtain ⟨st, hst, hd⟩ := isAt_iff.1 hat
        exact absurd (.asked he hst hd) hi
  simp [World.noted, hl.opens hi, hasked]

/-- **Every step keeps that the log holds the lines.** -/
theorem step_chronicled (h : Chronicled t w lines) (hh : Housed t w) (hk : Kept w)
    (hp : AllPaired w) (hi : Inside w t e ∨ Leaves t w (step now w e).world) :
    Chronicled t (step now w e).world (w.noted t.path now e lines) := by
  by_cases hin : Inside w t e
  · cases hin with
    | opening hup hfind => exact h.opening hh hk hup hfind
    | @asked _ s st he hs hd =>
      have hnoted : w.noted t.path now e lines =
          lines.map fun ls => ls ++ (w.said now e).map (Prod.mk now) := by
        have hat : w.isAt t.path s = true := isAt_iff.2 ⟨st, hs, hd⟩
        have hopens : w.opens t.path now e = false := by
          cases e with
          | openStore s' o => cases he
          | _ => rfl
        simp [noted, hopens, he, hat]
      rw [hnoted]
      exact h.asked hh hk hp he hs hd
  · have hl := hi.resolve_left hin
    rw [hl.noted hin]
    refine h.keep (hl.entry _) (hl.entry _) (step_leads hh.sound now e).refusals
      fun k st' _ hst' hd' _ => ?_
    exact (hl.stores hin k st' hst' hd').1

/-- **What each event does to the old log**: an open that is granted replaces it if that is asked for,
and nothing else touches it. -/
theorem step_rotated (h : Chronicled t w lines) (hh : Housed t w)
    (hi : Inside w t e ∨ Leaves t w (step now w e).world) :
    (w.opens t.path now e = false → Stays t.here SessionLog.oldEntry w.fs (step now w e).world.fs) ∧
      ∀ s o, e = .openStore s o → w.opens t.path now e = true →
        SessionLog.Rotated t.here (SessionLog.Moves w.fs t.path o.rotateLog) w.fs
          (step now w e).world.fs := by
  by_cases hin : Inside w t e
  · cases hin with
    | @opening s o hup hfind =>
      have hbegins : Begins t now w s o := step_begins hh hup hfind h.log h.old h.make
      cases hbegins with
      | failed hopens _ _ hold =>
        refine ⟨fun _ => hold, fun s' o' _ htrue => ?_⟩
        rw [hopens] at htrue
        cases htrue
      | opened hopens _ _ _ _ hrot =>
        refine ⟨fun hfalse => ?_, fun s' o' heq _ => ?_⟩
        · rw [hopens] at hfalse
          cases hfalse
        · cases heq
          exact hrot
    | @asked _ s st he hs hd =>
      refine ⟨fun _ => step_oldLog now hh he hs hd, fun s' o' heq _ => ?_⟩
      subst heq
      cases he
  · have hl := hi.resolve_left hin
    refine ⟨fun _ => hl.entry _, fun s' o' _ htrue => ?_⟩
    rw [hl.opens hin] at htrue
    cases htrue

/-- **Every warning of a store of the directory is told, once.** -/
theorem step_inside_warnings (now : Clock.Reading) (h : Chronicled t w lines) (hh : Housed t w)
    (hi : Inside w t e) : warnings (step now w e).notes = w.warned now e := by
  cases hi with
  | opening => exact openStore_warnings
  | @asked _ s st he hs hd =>
    refine step_warnings now hh.sound hh.stands hh.tidy.staged he hs hd fun l hl => ?_
    exact h.log.face (hh.log s st l hs hd hl)

/-! ## Runs -/

/-- Nothing is noted at first. -/
theorem chronicled_ofFileSystem {fs : FileSystem} (hlog : fs.Regular t.here SessionLog.entry)
    (hold : fs.Regular t.here SessionLog.oldEntry)
    (hmake : fs.refusals.make (SessionLog.pathIn t.path) = none) :
    Chronicled t (ofFileSystem fs) none :=
  ⟨hlog, hold, hmake, fun _ hls => (by cases hls), fun _ _ _ hst => (by cases hst)⟩

/-- **After every run the log holds the lines of the last session.** -/
theorem run_chronicled {fs : FileSystem} (hs : fs.Sound) (hl : fs.locked = []) (ht : t.Stands fs)
    (hlink : ∀ n, NoLink fs t.here n) (hone : fs.OneName t.here)
    (hlog : fs.Regular t.here SessionLog.entry) (hold : fs.Regular t.here SessionLog.oldEntry)
    (hmake : fs.refusals.make (SessionLog.pathIn t.path) = none)
    (hr : Reserved (ofFileSystem fs) t es) :
    Chronicled t ((ofFileSystem fs).run es) ((ofFileSystem fs).chronicle t.path es) := by
  refine run_along (P := fun pre w => Chronicled t w ((ofFileSystem fs).chronicle t.path pre)) es
    (chronicled_ofFileSystem hlog hold hmake) ?_
  intro pre now e hpre ih
  have hh : Housed t ((ofFileSystem fs).run pre) :=
    run_housed hs hl ht hlink hone (hr.before ((List.prefix_append _ _).trans hpre))
  rw [chronicle_concat]
  exact step_chronicled ih hh (run_kept hs hl pre) (run_paired fs pre) (hr pre now e hpre)

end World

/-! ## What the logs tell -/

open World

/-- What the logs of the directory of the trail `t` tell in the run `es`, which begins with `fs`. -/
structure LogsTell (fs : FileSystem) (t : Trail) (es : List (Clock.Reading × Event)) : Prop where
  /-- Since the first open that was granted, the log is a file with the lines of the last session,
  except for those that a file cannot hold any more, unless the system sets a limit for it. -/
  log : ∀ pre ls, pre <+: es → (ofFileSystem fs).chronicle t.path pre = some ls →
    ((ofFileSystem fs).run pre).fs.Keeps t.here SessionLog.entry (SessionLog.filled [] ls)
  /-- As long as a file can hold them, these are all the lines, one behind the other. -/
  lines : ∀ pre ls, pre <+: es → (ofFileSystem fs).chronicle t.path pre = some ls →
    (ls.flatMap fun l => SessionLog.line l.1 l.2).length < positionLimit →
    ((ofFileSystem fs).run pre).fs.Keeps t.here SessionLog.entry
      (ls.flatMap fun l => SessionLog.line l.1 l.2)
  /-- The warnings among what is told are those of the event, each of them once. -/
  told : ∀ pre now e, pre ++ [(now, e)] <+: es → Inside ((ofFileSystem fs).run pre) t e →
    warnings (step now ((ofFileSystem fs).run pre) e).notes =
      ((ofFileSystem fs).run pre).warned now e
  /-- Whoever has something to say has the log. -/
  present : ∀ pre now e s st, pre ++ [(now, e)] <+: es →
    ((ofFileSystem fs).run pre).addressee? e = some s →
    ((ofFileSystem fs).run pre).stores.get? s = some st → st.dir = t.path →
    ((ofFileSystem fs).run pre).said now e ≠ [] → ∃ l, st.log = some l
  /-- An open that is granted makes the log the old log if that is asked for and not refused. -/
  rotated : ∀ pre now s o, pre ++ [(now, .openStore s o)] <+: es →
    ((ofFileSystem fs).run pre).opens t.path now (.openStore s o) = true →
    SessionLog.Rotated t.here (SessionLog.Moves fs t.path o.rotateLog) ((ofFileSystem fs).run pre).fs
      (step now ((ofFileSystem fs).run pre) (.openStore s o)).world.fs
  /-- Nothing else touches the old log. -/
  kept : ∀ pre now e, pre ++ [(now, e)] <+: es →
    ((ofFileSystem fs).run pre).opens t.path now e = false →
    Stays t.here SessionLog.oldEntry ((ofFileSystem fs).run pre).fs
      (step now ((ofFileSystem fs).run pre) e).world.fs

/-- **The log tells the session, in every world that comes about.** -/
theorem run_logsTell {fs : FileSystem} {t : Trail} {es : List (Clock.Reading × Event)}
    (hs : fs.Sound) (hl : fs.locked = []) (ht : t.Stands fs) (hlink : ∀ n, NoLink fs t.here n)
    (hone : fs.OneName t.here) (hlog : fs.Regular t.here SessionLog.entry)
    (hold : fs.Regular t.here SessionLog.oldEntry)
    (hmake : fs.refusals.make (SessionLog.pathIn t.path) = none)
    (hr : Reserved (ofFileSystem fs) t es) : LogsTell fs t es := by
  have hhoused : ∀ pre, pre <+: es → Housed t ((ofFileSystem fs).run pre) := fun pre hpre =>
    run_housed hs hl ht hlink hone (hr.before hpre)
  have hnoted : ∀ pre, pre <+: es →
      Chronicled t ((ofFileSystem fs).run pre) ((ofFileSystem fs).chronicle t.path pre) :=
    fun pre hpre => run_chronicled hs hl ht hlink hone hlog hold hmake (hr.before hpre)
  have hbefore : ∀ {pre now e}, pre ++ [(now, e)] <+: es → pre <+: es := fun h =>
    (List.prefix_append _ _).trans h
  refine ⟨fun pre ls hpre hls => (hnoted pre hpre).keeps ls hls, ?_, ?_, ?_, ?_, ?_⟩
  · intro pre ls hpre hls hroom
    have hkeeps := (hnoted pre hpre).keeps ls hls
    rwa [SessionLog.filled_room (by simpa using hroom), List.nil_append] at hkeeps
  · intro pre now e hpre hi
    exact step_inside_warnings now (hnoted pre (hbefore hpre)) (hhoused pre (hbefore hpre)) hi
  · intro pre now e s st hpre he hst hd hsaid
    cases hlog : st.log with
    | some l => exact ⟨l, rfl⟩
    | none => exact absurd (said_nil (run_inUse fs pre) (run_paired fs pre) he hst hlog) hsaid
  · intro pre now s o hpre hopens
    have hrot := (step_rotated (hnoted pre (hbefore hpre)) (hhoused pre (hbefore hpre))
      (hr pre now _ hpre)).2 s o rfl hopens
    rwa [SessionLog.Moves, refusals_run (w := ofFileSystem fs) hs] at hrot
  · intro pre now e hpre hopens
    exact (step_rotated (hnoted pre (hbefore hpre)) (hhoused pre (hbefore hpre))
      (hr pre now e hpre)).1 hopens

/-- A store of `/db` logs a message and is dropped while a file is open, whose handle is dropped as
well; then `/db` is opened again. -/
def dropped : List (Clock.Reading × Event) :=
  [(⟨⟨0, 0⟩, 0⟩, .openStore 0 { dir := Utf8.encode ['/', 'd', 'b'] }),
    (⟨⟨0, 0⟩, 0⟩, .store 0 (.log "one\ntwo")),
    (⟨⟨0, 0⟩, 0⟩, .store 0 (.createFile 0 ⟨.table, 1⟩)),
    (⟨⟨0, 0⟩, 0⟩, .store 0 .abandon),
    (⟨⟨1, 0⟩, 0⟩, .handle 0 .abandon),
    (⟨⟨2, 0⟩, 0⟩, .openStore 1 { dir := Utf8.encode ['/', 'd', 'b'] })]

set_option maxRecDepth 2000 in
theorem reserved_dropped : Reserved (ofFileSystem .furnished) .toDb dropped := by
  refine .cons (Or.inl (.opening (by decide) rfl)) ?_
  refine .cons (Or.inl (.of_dir rfl (by decide +kernel))) ?_
  refine .cons (Or.inl (.of_dir rfl (by decide +kernel))) ?_
  refine .cons (Or.inl (.of_dir rfl (by decide +kernel))) ?_
  refine .cons (Or.inl (.of_dir (s := 0) (by decide +kernel) (by decide +kernel))) ?_
  exact .cons (Or.inl (.opening (by decide) rfl)) .nil

/-- The lines of the first session, the leak that came after the store among them, are what the old
log tells in the second. -/
theorem run_logsTell_dropped : LogsTell .furnished .toDb dropped ∧ ∃ ls,
    ls = [(⟨⟨0, 0⟩, 0⟩, "one\ntwo"), (⟨⟨0, 0⟩, 0⟩, Store.droppedText 1),
      (⟨⟨1, 0⟩, 0⟩, Handle.leakedText ⟨.table, 1⟩)] ∧
    (ofFileSystem .furnished).chronicle Trail.toDb.path (dropped.take 5) = some ls ∧
    (ofFileSystem .furnished).chronicle Trail.toDb.path dropped = some [] ∧
    ((ofFileSystem .furnished).run dropped).fs.Holds Trail.toDb.here SessionLog.oldEntry
      (ls.flatMap fun l => SessionLog.line l.1 l.2) := by
  have hfree : ∀ n, FileSystem.furnished.Regular Trail.toDb.here n := fun n => Or.inl rfl
  have htell : LogsTell .furnished .toDb dropped :=
    run_logsTell furnished_sound rfl furnished_stands furnished_noLink furnished_oneName (hfree _)
      (hfree _) (by decide +kernel) reserved_dropped
  have hlines : (ofFileSystem .furnished).chronicle Trail.toDb.path (dropped.take 5) =
      some [(⟨⟨0, 0⟩, 0⟩, "one\ntwo"), (⟨⟨0, 0⟩, 0⟩, Store.droppedText 1),
        (⟨⟨1, 0⟩, 0⟩, Handle.leakedText ⟨.table, 1⟩)] := by decide +kernel
  refine ⟨htell, _, rfl, hlines, by decide +kernel, ?_⟩
  have hlog := htell.lines (dropped.take 5) _ (List.take_prefix _ _) hlines (by decide +kernel)
  have hrun : (ofFileSystem .furnished).run dropped = (step ⟨⟨2, 0⟩, 0⟩
      ((ofFileSystem .furnished).run (dropped.take 5))
      (.openStore 1 { dir := Utf8.encode ['/', 'd', 'b'] })).world :=
    run_concat (ofFileSystem .furnished) (dropped.take 5) _ _
  rw [hrun]
  refine (htell.rotated (dropped.take 5) _ 1 _ (List.prefix_refl _) (by decide +kernel)).moved
    ⟨rfl, rfl⟩ _ (hlog.holds fun i => ?_)
  rw [refusals_run (w := ofFileSystem .furnished) furnished_sound]
  rfl

/-- The directory `/db` holds no link, both logs are missing or files there at first, and it is changed
through its stores alone. -/
structure World.Booked (fs : FileSystem) (es : List (Clock.Reading × Event)) : Prop where
  sound : fs.Sound
  unlocked : fs.locked = []
  stands : Trail.toDb.Stands fs
  noLink : ∀ n, NoLink fs Trail.toDb.here n
  log : fs.Regular Trail.toDb.here SessionLog.entry
  old : fs.Regular Trail.toDb.here SessionLog.oldEntry
  reserved : Reserved (ofFileSystem fs) .toDb es

/-- The directory is opened. -/
def World.begun : List (Clock.Reading × Event) :=
  [(⟨⟨0, 0⟩, 0⟩, .openStore 0 { dir := Trail.toDb.path })]

/-- A session follows another one. -/
def World.followed : List (Clock.Reading × Event) :=
  [(⟨⟨0, 0⟩, 0⟩, .openStore 0 { dir := Trail.toDb.path }),
    (⟨⟨0, 0⟩, 0⟩, .store 0 (.log "a")),
    (⟨⟨0, 0⟩, 0⟩, .store 0 .close),
    (⟨⟨0, 0⟩, 0⟩, .openStore 1 { dir := Trail.toDb.path })]

/-- A session goes on with the file of the log, and the next one cannot make another. -/
def World.unfollowed : List (Clock.Reading × Event) :=
  [(⟨⟨0, 0⟩, 0⟩, .openStore 0 { dir := Trail.toDb.path, rotateLog := false }),
    (⟨⟨0, 0⟩, 0⟩, .store 0 .close),
    (⟨⟨0, 0⟩, 0⟩, .openStore 1 { dir := Trail.toDb.path })]

/-- A line is logged. -/
def World.noting : List (Clock.Reading × Event) :=
  [(⟨⟨0, 0⟩, 0⟩, .openStore 0 { dir := Trail.toDb.path }), (⟨⟨0, 0⟩, 0⟩, .store 0 (.log "a"))]

theorem booked_oneLog : Booked .oneLog begun where
  sound := oneLog_sound
  unlocked := rfl
  stands := ⟨by decide +kernel, by decide +kernel, trivial⟩
  noLink := noLink_of_entries (by decide +kernel)
  log := Or.inr ⟨[1], holds_iff.2 (by decide +kernel)⟩
  old := Or.inr ⟨[1], holds_iff.2 (by decide +kernel)⟩
  reserved := .cons (Or.inl (.opening (by decide) rfl)) .nil

theorem booked_unmovable : Booked .unmovable followed where
  sound := furnished_sound.refusing _
  unlocked := rfl
  stands := ⟨by decide +kernel, by decide +kernel, trivial⟩
  noLink := noLink_of_entries (by decide +kernel)
  log := Or.inl rfl
  old := Or.inl rfl
  reserved := by
    refine .cons (Or.inl (.opening (by decide) rfl)) ?_
    refine .cons (Or.inl (.of_dir rfl (by decide +kernel))) ?_
    refine .cons (Or.inl (.of_dir rfl (by decide +kernel))) ?_
    exact .cons (Or.inl (.opening (by decide) rfl)) .nil

theorem booked_unreplaceable : Booked unreplaceable.fs unfollowed where
  sound := run_sound (furnished_sound.refusing _) _
  unlocked := rfl
  stands := ⟨by decide +kernel, by decide +kernel, trivial⟩
  noLink := noLink_of_entries (by decide +kernel)
  log := Or.inr ⟨[97], holds_iff.2 (by decide +kernel)⟩
  old := Or.inl (by decide +kernel)
  reserved := by
    refine .cons (Or.inl (.opening (by decide) rfl)) ?_
    refine .cons (Or.inl (.of_dir rfl (by decide +kernel))) ?_
    exact .cons (Or.inl (.opening (by decide) rfl)) .nil

theorem booked_roomless : Booked .roomless noting where
  sound := furnished_sound.refusing _
  unlocked := rfl
  stands := ⟨by decide +kernel, by decide +kernel, trivial⟩
  noLink := noLink_of_entries (by decide +kernel)
  log := Or.inl rfl
  old := Or.inl rfl
  reserved := by
    refine .cons (Or.inl (.opening (by decide) rfl)) ?_
    exact .cons (Or.inl (.of_dir rfl (by decide +kernel))) .nil

/-- **The logs do not tell every session.** A log that is the file of the old log, or that cannot be
moved, is not kept as the old log. There is none if it was moved and no other can be made. A line for
which there is no room is missing. -/
theorem logsTell_misses :
    (Booked .oneLog begun ∧
      (ofFileSystem .oneLog).opens Trail.toDb.path ⟨⟨0, 0⟩, 0⟩
        (.openStore 0 { dir := Trail.toDb.path }) = true ∧
      FileSystem.oneLog.Holds Trail.toDb.here SessionLog.entry [1] ∧
      ((ofFileSystem .oneLog).run begun).fs.Holds Trail.toDb.here SessionLog.oldEntry []) ∧
    (Booked .unmovable followed ∧ FileSystem.unmovable.OneName Trail.toDb.here ∧
      (ofFileSystem .unmovable).chronicle Trail.toDb.path (followed.take 3) =
        some [(⟨⟨0, 0⟩, 0⟩, "a")] ∧
      (ofFileSystem .unmovable).chronicle Trail.toDb.path followed = some [] ∧
      ((ofFileSystem .unmovable).run followed).fs.lookup Trail.toDb.here SessionLog.oldEntry =
        none) ∧
    (Booked unreplaceable.fs unfollowed ∧ unreplaceable.fs.OneName Trail.toDb.here ∧
      (ofFileSystem unreplaceable.fs).chronicle Trail.toDb.path unfollowed = some [] ∧
      ((ofFileSystem unreplaceable.fs).run unfollowed).fs.lookup Trail.toDb.here SessionLog.entry =
        none) ∧
    (Booked .roomless noting ∧ FileSystem.roomless.OneName Trail.toDb.here ∧
      (ofFileSystem .roomless).chronicle Trail.toDb.path noting = some [(⟨⟨0, 0⟩, 0⟩, "a")] ∧
      ((ofFileSystem .roomless).run noting).fs.Holds Trail.toDb.here SessionLog.entry []) :=
  ⟨⟨booked_oneLog, by decide +kernel, holds_iff.2 (by decide +kernel),
      holds_iff.2 (by decide +kernel)⟩,
    ⟨booked_unmovable, oneName_of_entries (by decide +kernel), by decide +kernel, by decide +kernel,
      by decide +kernel⟩,
    ⟨booked_unreplaceable, oneName_of_entries (by decide +kernel), by decide +kernel,
      by decide +kernel⟩,
    booked_roomless, oneName_of_entries (by decide +kernel), by decide +kernel,
    holds_iff.2 (by decide +kernel)⟩

end EngineDir
