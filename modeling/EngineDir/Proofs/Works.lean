import EngineDir.Proofs.Publishing

/-!
# Works

What an operation of a store does to the file system is a sequence of changes within
the store's directory and of lines in the store's log. From the names that the changes
touch follows what becomes of each entry.

* `LogAt`: the log is the file `LOG` of the directory.
* `Works`: the sequence, with the names that it touches and the lines that it writes.
* `Works.stays`, `Works.stands`: **every other entry stays, and so does the directory.**
* `Works.noLink`, `Works.bound`: no link comes about, and no other node gets a name.
* `Works.oneName`: where nothing has two names in the directory, nothing comes to have two.
* `openedForWriting`: what comes of opening a name of the directory for writing.
* `SessionLog.filled`: what a file holds after some lines. `SessionLog.filled_room`: these, one
  behind the other.
* `Works.logged`: **the log gains the lines, in their order, and nothing else.**
-/

namespace EngineDir

open FileSystem

/-- The entry of the log. -/
abbrev SessionLog.entry : Bytes := Utf8.encode SessionLog.fileName

/-- The log, if there is one, is the file `LOG` of the directory `D`. -/
def LogAt (D : NodeId) (fs : FileSystem) (log : Option SessionLog) : Prop :=
  ∀ l, log = some l → fs.lookup D SessionLog.entry = some l.file.node

/-- From `fs` and `log` come others by changes within the directory `D`, which fill files of names in
`F` and bind and unbind names in `N`, and by lines in the log, written at the time `now`. -/
inductive Works (D : NodeId) (F N : Bytes → Prop) (now : Clock.Reading) (fs : FileSystem)
    (log : Option SessionLog) : List String → FileSystem → Option SessionLog → Prop
  | refl : Works D F N now fs log [] fs log
  | step {said : List String} {fs' : FileSystem} {log' : Option SessionLog} {c : Change} :
      Works D F N now fs log said fs' log' → c.Fits fs' → c.Within D F N fs' →
      Works D F N now fs log said (c.apply fs') log'
  | told {said : List String} {fs' : FileSystem} {log' : Option SessionLog} (text : String) :
      Works D F N now fs log said fs' log' →
      Works D F N now fs log (said ++ [text]) (SessionLog.record log' fs' now text).2
        (SessionLog.record log' fs' now text).1

variable {fs fs' fs'' : FileSystem} {log log' log'' : Option SessionLog} {D i j : NodeId}
  {F N F' N' : Bytes → Prop} {now : Clock.Reading} {said said' : List String} {n : Bytes} {t : Trail}
  {c : Change} {b : Bytes}

theorem LogAt.none (D : NodeId) (fs : FileSystem) : LogAt D fs none := fun _ hl => by cases hl

theorem LogAt.of_lookup (h : LogAt D fs log)
    (hl : fs'.lookup D SessionLog.entry = fs.lookup D SessionLog.entry)
    (hlog : SessionLog.Later log log') : LogAt D fs' log' := by
  intro l' hl'
  obtain ⟨l, h₀, hnode⟩ := hlog l' hl'
  rw [hl, hnode]
  exact h l h₀

/-- A line in the log is a change of the file `LOG`, or none. -/
theorem LogAt.record_cases (h : LogAt D fs log) (now : Clock.Reading) (text : String) :
    (SessionLog.record log fs now text).2 = fs ∨ ∃ c : Change, c.Fits fs ∧
      c.Within D (fun n => n = SessionLog.entry ∧ log.isSome) (fun _ => False) fs ∧
      (SessionLog.record log fs now text).2 = c.apply fs := by
  cases log with
  | none => exact Or.inl rfl
  | some l =>
    simp only [SessionLog.record_some]
    rcases (l.write_cases fs now text).2 with hfs | ⟨b, b', hb, hfs⟩
    · exact Or.inl hfs
    · refine Or.inr ⟨.fill l.file.node b', ⟨b, hb⟩, ?_, hfs⟩
      exact fun _ _ => ⟨SessionLog.entry, h l rfl, rfl, rfl⟩

namespace Works

theorem one (hc : c.Fits fs) (hw : c.Within D F N fs) :
    Works D F N now fs log [] (c.apply fs) log := Works.refl.step hc hw

theorem tell (fs : FileSystem) (log : Option SessionLog) (text : String) :
    Works D F N now fs log [text] (SessionLog.record log fs now text).2
      (SessionLog.record log fs now text).1 := Works.refl.told text

theorem trans (h : Works D F N now fs log said fs' log')
    (h' : Works D F N now fs' log' said' fs'' log'') :
    Works D F N now fs log (said ++ said') fs'' log'' := by
  induction h' with
  | refl => rwa [List.append_nil]
  | step _ hc hw ih => exact ih.step hc hw
  | told text _ ih => rw [← List.append_assoc]; exact ih.told text

theorem mono (h : Works D F N now fs log said fs' log') (hF : ∀ n, F n → F' n)
    (hN : ∀ n, N n → N' n) : Works D F' N' now fs log said fs' log' := by
  induction h with
  | refl => exact .refl
  | step _ hc hw ih => exact ih.step hc (hw.mono hF hN)
  | told text _ ih => exact ih.told text

theorem leads (h : Works D F N now fs log said fs' log') : Leads (fun _ => True) fs fs' := by
  induction h with
  | refl => exact .refl
  | step _ hc _ ih => exact ih.step hc trivial
  | told text _ ih => exact ih.trans ((SessionLog.record_leads _).mono fun _ _ => trivial)

theorem sound (h : Works D F N now fs log said fs' log') (hs : fs.Sound) : fs'.Sound :=
  h.leads.sound hs

theorem refusals (h : Works D F N now fs log said fs' log') : fs'.refusals = fs.refusals :=
  h.leads.refusals

/-- No two names of the directory come to be bound to one node. -/
theorem oneName (h : Works D F N now fs log said fs' log') (hs : fs.Sound) (hone : fs.OneName D) :
    fs'.OneName D := by
  induction h with
  | refl => exact hone
  | step h hc hw ih => exact hw.oneName hc (h.sound hs) ih
  | told text _ ih =>
    intro n n' j hl hl'
    rw [(Publication.record_sameWays _ _ _ _).lookup] at hl hl'
    exact ih n n' j hl hl'

theorem later (h : Works D F N now fs log said fs' log') : SessionLog.Later log log' := by
  induction h with
  | refl => exact .refl _
  | step _ _ _ ih => exact ih
  | told text _ ih => exact ih.trans (SessionLog.record_later _)

/-- A log is not given up, nor is its file. -/
theorem same_log {l : SessionLog} (h : Works D F N now fs (some l) said fs' log') :
    ∃ l', log' = some l' ∧ l'.file.node = l.file.node := by
  have hsome : log'.isSome = true := by
    generalize hlog : some l = log at h
    induction h with
    | refl => rw [← hlog]; rfl
    | step _ _ _ ih => exact ih
    | @told _ fs₁ log₁ text _ ih =>
      obtain ⟨l₁, rfl⟩ := Option.isSome_iff_exists.1 ih
      rw [SessionLog.record_some]
      rfl
  obtain ⟨l', rfl⟩ := Option.isSome_iff_exists.1 hsome
  obtain ⟨l₀, h₀, hnode⟩ := h.later l' rfl
  cases h₀
  exact ⟨l', rfl, hnode⟩

/-- Only the names in `N`, and only those of the directory, are bound or unbound. -/
theorem lookup (h : Works D F N now fs log said fs' log') (hs : fs.Sound) (hn : i ≠ D ∨ ¬N n) :
    fs'.lookup i n = fs.lookup i n := by
  induction h with
  | refl => rfl
  | step h hc hw ih => exact (hw.lookup hc (h.sound hs) hn).trans ih
  | told text _ ih => exact ((Publication.record_sameWays _ _ _ _).lookup i n).trans ih

theorem logAt (h : Works D F N now fs log said fs' log') (hs : fs.Sound) (hl : LogAt D fs log)
    (hN : log = none ∨ ¬N SessionLog.entry) : LogAt D fs' log' := by
  rcases hN with rfl | hN
  · intro l' hl'
    obtain ⟨l, h₀, -⟩ := h.later l' hl'
    cases h₀
  · exact hl.of_lookup (h.lookup hs (Or.inr hN)) h.later

/-- **The directory stays where it is.** -/
theorem stands (h : Works t.here F N now fs log said fs' log') (hs : fs.Sound) (ht : t.Stands fs) :
    t.Stands fs' :=
  ht.of_lookup hs (fun _ _ hi => h.lookup hs (Or.inl hi)) fun _ hd => h.leads.isDirectory hs hd

/-- **Every other entry stays**, where nothing has two names. -/
theorem stays (h : Works D F N now fs log said fs' log') (hs : fs.Sound) (hone : fs.OneName D)
    (hl : LogAt D fs log) (hLN : log = none ∨ ¬N SessionLog.entry)
    (hn : log = none ∨ n ≠ SessionLog.entry) (hF : ¬F n) (hN : ¬N n) : Stays D n fs fs' := by
  induction h with
  | refl => exact .refl _ _ _
  | step h hc hw ih => exact ih.trans (hw.stays hc (h.sound hs) (h.oneName hs hone) hF hN)
  | @told _ fs₁ log₁ text h ih =>
    refine ih.trans ?_
    rcases (h.logAt hs hl hLN).record_cases now text with hr | ⟨c, hc, hw, hr⟩
    · rw [hr]; exact .refl _ _ _
    · rw [hr]
      refine hw.stays hc (h.sound hs) (h.oneName hs hone) ?_ not_false
      -- the file of the log is another one, if there is a log at all
      rintro ⟨hne, hsome⟩
      rcases hn with rfl | hn
      · obtain ⟨l₁, hl₁⟩ := Option.isSome_iff_exists.1 hsome
        obtain ⟨l, h₀, -⟩ := h.later l₁ hl₁
        cases h₀
      · exact hn hne

/-- What has a name in the directory afterwards had one before, or is a file. -/
theorem bound (h : Works D F N now fs log said fs' log') (hs : fs.Sound) :
    ∀ {n j}, fs'.lookup D n = some j →
      (∃ n', fs.lookup D n' = some j) ∨ ∃ b, fs'.face? j = some (.file b) := by
  induction h with
  | refl => exact fun hl => Or.inl ⟨_, hl⟩
  | @step _ fs₁ _ c h hc hw ih =>
    intro n j hl
    rcases hw.bound hc (h.sound hs) hl with ⟨n', hl'⟩ | hf
    · rcases ih hl' with ho | ⟨b, hb⟩
      · exact Or.inl ho
      · -- a file stays a file
        rcases Change.face?_apply hc hb (h.sound hs) with hb' | ⟨_, b', -, hb'⟩
        · exact Or.inr ⟨b, hb'⟩
        · exact Or.inr ⟨b', hb'⟩
    · exact Or.inr ⟨_, hf⟩
  | @told _ fs₁ log₁ text h ih =>
    intro n j hl
    rw [(Publication.record_sameWays _ _ _ _).lookup] at hl
    rcases ih hl with ho | ⟨b, hb⟩
    · exact Or.inl ho
    · rcases (SessionLog.record_leads log₁).face? (h.sound hs) hb with hb' | ⟨_, b', -, hb'⟩
      · exact Or.inr ⟨b, hb'⟩
      · exact Or.inr ⟨b', hb'⟩

/-- What is no file and has a name in the directory had a name there before, and was the same. -/
theorem bound_back (h : Works D F N now fs log said fs' log') (hs : fs.Sound)
    (hl : fs'.lookup D n = some j) {f : Face} (hf : fs'.face? j = some f)
    (hne : ∀ b, f ≠ .file b) : ∃ n', fs.lookup D n' = some j ∧ fs.face? j = some f := by
  rcases h.bound hs hl with ⟨n', hl'⟩ | ⟨b, hb⟩
  · exact ⟨n', hl', h.leads.face?_back hs (hs.bound hl') hf hne⟩
  · rw [hf] at hb
    exact absurd (Option.some.inj hb) (hne b)

/-- If it has no other name then, the name that it had is the same, or one that was given up. -/
theorem bound_back_name (h : Works D F N now fs log said fs' log') (hs : fs.Sound)
    (hl : fs'.lookup D n = some j) (hu : ∀ n', fs'.lookup D n' = some j → n' = n) {f : Face}
    (hf : fs'.face? j = some f) (hne : ∀ b, f ≠ .file b) :
    ∃ n', (n' = n ∨ N n') ∧ fs.lookup D n' = some j ∧ fs.face? j = some f := by
  obtain ⟨n', hold, hface⟩ := h.bound_back hs hl hf hne
  refine ⟨n', ?_, hold, hface⟩
  by_cases hN : N n'
  · exact Or.inr hN
  · exact Or.inl (hu n' ((h.lookup hs (Or.inr hN)).trans hold))

/-- A name that is kept does not become that of a link. -/
theorem noLink_name (h : Works D F N now fs log said fs' log') (hs : fs.Sound) (hN : ¬N n)
    (hn : NoLink fs D n) : NoLink fs' D n := by
  intro j g hl hf
  rw [h.lookup hs (Or.inr hN)] at hl
  exact hn j g hl (h.leads.face?_back hs (hs.bound hl) hf (by simp))

/-- No link comes about. -/
theorem noLink (h : Works D F N now fs log said fs' log') (hs : fs.Sound)
    (hn : ∀ n, NoLink fs D n) (n : Bytes) : NoLink fs' D n := by
  intro j g hl hf
  obtain ⟨n', hl', hf'⟩ := h.bound_back hs hl hf (by simp)
  exact hn n' j g hl' hf'

end Works

/-! ## Names that are opened for writing -/

/-- What is touched when a name of a directory is opened for writing, and what it is bound to then. -/
structure OpenedForWriting (t : Trail) (n : Bytes) (trunc : Bool) (now : Clock.Reading)
    (fs fs' : FileSystem) (i : NodeId) : Prop where
  works : ∀ log, Works t.here (fun k => k = n ∧ trunc = true) (fun k => k = n) now fs log [] fs' log
  lookup : fs'.lookup t.here n = some i
  locked : fs'.locked = fs.locked
  face : (∃ b, fs'.face? i = some (.file b) ∧ (trunc = true → b = [])) ∨
    ∃ d, fs'.face? i = some (.device d)
  /-- A name that is bound already stays bound to its node. -/
  kept : ∀ j, fs.lookup t.here n = some j → i = j ∧ (trunc = false → fs' = fs)

theorem openedForWriting (now : Clock.Reading) {n : Bytes} {trunc : Bool} (hs : fs.Sound)
    (ht : t.Stands fs) (hn : Proper n) (hlen : n.length ≤ nameLimit) (hl : NoLink fs t.here n)
    (ho : fs.openForWriting trunc (join t.path n) = .ok (fs', i)) :
    OpenedForWriting t n trunc now fs fs' i := by
  rcases (ht.arrives hs).openForWriting_ok hs hn hlen hl ho with
    ⟨hfree, hf, rfl, rfl⟩ | ⟨hlook, ⟨b, hb, rfl⟩ | ⟨d, hd, rfl⟩⟩
  · refine ⟨fun log => .one hf ⟨rfl, rfl, rfl⟩, ?_, locked_make _, Or.inl ⟨[], ?_, fun _ => rfl⟩, ?_⟩
    · exact (lookup_make hf.1 (hs.fresh _) hf.2.2.2.2.entries).trans (if_pos ⟨rfl, rfl⟩)
    · exact (face?_make _).trans (if_pos rfl)
    · intro j hj
      rw [hfree] at hj
      cases hj
  · have hkept : ∀ j, fs.lookup t.here n = some j → i = j := by
      intro j hj
      rw [hlook] at hj
      exact Option.some.inj hj
    cases trunc with
    | false =>
      exact ⟨fun log => .refl, hlook, rfl, Or.inl ⟨b, hb, fun h => by cases h⟩,
        fun j hj => ⟨hkept j hj, fun _ => rfl⟩⟩
    | true =>
      refine ⟨fun log => .one (c := .fill i []) ⟨b, hb⟩ fun _ _ => ⟨n, hlook, rfl, rfl⟩,
        (lookup_fill hb).trans hlook, locked_setNode _, Or.inl ⟨[], ?_, fun _ => rfl⟩,
        fun j hj => ⟨hkept j hj, fun h => by cases h⟩⟩
      exact (face?_setNode _).trans (if_pos rfl)
  · refine ⟨fun log => .refl, hlook, rfl, Or.inr ⟨d, hd⟩, fun j hj => ⟨?_, fun _ => rfl⟩⟩
    rw [hlook] at hj
    exact Option.some.inj hj

/-! ## What the log holds -/

/-- The log is the file `LOG` of the directory `D`, for which the system sets no limit. It holds the
bytes `b`, and the next line goes behind them. -/
def Logged (D : NodeId) (fs : FileSystem) (log : Option SessionLog) (b : Bytes) : Prop :=
  ∃ l, log = some l ∧ fs.lookup D SessionLog.entry = some l.file.node ∧
    fs.face? l.file.node = some (.file b) ∧ l.file.pos = b.length ∧
    fs.refusals.room l.file.node = none

theorem Logged.logAt (h : Logged D fs log b) : LogAt D fs log := by
  obtain ⟨l, rfl, hl, -⟩ := h
  intro l' hl'
  cases hl'
  exact hl

/-- What leaves the entry `LOG` leaves the log. -/
theorem Logged.stays (h : Logged D fs log b) (hst : Stays D SessionLog.entry fs fs')
    (hr : fs'.refusals = fs.refusals) : Logged D fs' log b := by
  obtain ⟨l, hlog, hl, hf, hpos, hroom⟩ := h
  exact ⟨l, hlog, (hst.face_eq hl hf).1, (hst.face_eq hl hf).2, hpos, by rw [hr]; exact hroom⟩

theorem SessionLog.line_ne_nil (now : Clock.Reading) (text : String) :
    SessionLog.line now text ≠ [] := by
  rw [SessionLog.line, Utf8.encode_append]
  exact List.append_ne_nil_of_right_ne_nil _ (by decide)

/-- What a file holds when a line goes behind the bytes `b`. A line that it cannot hold any more is
lost. -/
def SessionLog.added (b : Bytes) (l : Clock.Reading × String) : Bytes :=
  if positionLimit ≤ b.length + (line l.1 l.2).length then b else b ++ line l.1 l.2

/-- What a file holds when lines go behind the bytes `b`, each with the time at which it is
written. -/
def SessionLog.filled (b : Bytes) (lines : List (Clock.Reading × String)) : Bytes :=
  lines.foldl added b

@[simp] theorem SessionLog.filled_nil (b : Bytes) : filled b [] = b := rfl

@[simp] theorem SessionLog.filled_cons (b : Bytes) (l : Clock.Reading × String)
    (lines : List (Clock.Reading × String)) :
    filled b (l :: lines) = filled (added b l) lines := by
  simp only [filled, List.foldl_cons]

theorem SessionLog.filled_append (b : Bytes) (lines lines' : List (Clock.Reading × String)) :
    filled b (lines ++ lines') = filled (filled b lines) lines' := by
  simp only [filled, List.foldl_append]

/-- As long as a file can hold them, the lines stand one behind the other. -/
theorem SessionLog.filled_room {lines : List (Clock.Reading × String)}
    (h : b.length + (lines.flatMap fun l => line l.1 l.2).length < positionLimit) :
    filled b lines = b ++ lines.flatMap fun l => line l.1 l.2 := by
  induction lines generalizing b with
  | nil => exact (List.append_nil b).symm
  | cons l lines ih =>
    rw [List.flatMap_cons, List.length_append] at h
    have hroom : added b l = b ++ line l.1 l.2 := by rw [added, if_neg (by omega)]
    have hlt : (b ++ line l.1 l.2).length + (lines.flatMap fun l => line l.1 l.2).length <
        positionLimit := by
      rw [List.length_append]
      omega
    rw [filled_cons, hroom, ih hlt, List.append_assoc, List.flatMap_cons]

/-- A line that a file cannot hold any more is lost. -/
theorem SessionLog.write_full {l : SessionLog} (text : String)
    (hroom : fs.refusals.room l.file.node = none)
    (h : positionLimit ≤ l.file.pos + (SessionLog.line now text).length) :
    l.write fs now text = ({ l with buffer := l.buffer.write now text }, fs) := by
  have hw : fs.writeAt l.file.node l.file.pos (SessionLog.line now text) = .error .invalid := by
    rw [writeAt, if_pos h]
  rw [SessionLog.write_eq, accepted_of_room hroom]
  simp only [hw]

/-- A line goes behind the bytes that are there. -/
theorem SessionLog.write_room {l : SessionLog} (text : String)
    (hf : fs.face? l.file.node = some (.file b)) (hpos : l.file.pos = b.length)
    (hroom : fs.refusals.room l.file.node = none)
    (h : ¬positionLimit ≤ b.length + (SessionLog.line now text).length) :
    l.write fs now text =
      ({ l with
          file := ⟨l.file.node, (b ++ SessionLog.line now text).length⟩
          buffer := l.buffer.write now text },
        (Change.fill l.file.node (b ++ SessionLog.line now text)).apply fs) := by
  have hnode := face?_file.1 hf
  have hw : fs.writeAt l.file.node b.length (SessionLog.line now text) =
      .ok ((Change.fill l.file.node (b ++ SessionLog.line now text)).apply fs) := by
    rw [writeAt, if_neg h, hnode]
    simp only [if_neg (SessionLog.line_ne_nil now text), hasRoom_of_room hroom, if_true,
      overlay_length, Change.apply]
  rw [SessionLog.write_eq, accepted_of_room hroom]
  simp only [hpos, hw, advance, hnode, List.length_append]

/-- A file gains a line, or stays as it is if it cannot hold more, and the next one goes behind it. -/
theorem SessionLog.write_added {l : SessionLog} (now : Clock.Reading) (text : String)
    (hf : fs.face? l.file.node = some (.file b)) (hpos : l.file.pos = b.length)
    (hroom : fs.refusals.room l.file.node = none) :
    (l.write fs now text).2.face? l.file.node = some (.file (SessionLog.added b (now, text))) ∧
      (l.write fs now text).1.file.pos = (SessionLog.added b (now, text)).length := by
  rw [SessionLog.added]
  by_cases hlimit : positionLimit ≤ b.length + (SessionLog.line now text).length
  · rw [if_pos hlimit, SessionLog.write_full text hroom (by rwa [hpos])]
    exact ⟨hf, hpos⟩
  · rw [if_neg hlimit, SessionLog.write_room text hf hpos hroom hlimit]
    exact ⟨by simp [Change.apply, face?_setNode, Node.face], rfl⟩

/-- The log gains a line, or stays as it is if a file cannot hold more. -/
theorem Logged.record (h : Logged D fs log b) (now : Clock.Reading) (text : String) :
    Logged D (SessionLog.record log fs now text).2 (SessionLog.record log fs now text).1
      (SessionLog.added b (now, text)) := by
  obtain ⟨l, rfl, hl, hf, hpos, hroom⟩ := h
  obtain ⟨hface, hpos'⟩ := SessionLog.write_added now text hf hpos hroom
  obtain ⟨hnode, -⟩ := l.write_cases fs now text
  have hlook : (SessionLog.record (some l) fs now text).2.lookup D SessionLog.entry =
      fs.lookup D SessionLog.entry := (Publication.record_sameWays _ _ _ _).lookup _ _
  have href : (l.write fs now text).2.refusals = fs.refusals := (l.write_leads fs now text).refusals
  rw [SessionLog.record_some] at hlook ⊢
  exact ⟨_, rfl, hlook.trans (hl.trans (congrArg some hnode.symm)), by rw [hnode]; exact hface, hpos',
    by rw [href, hnode]; exact hroom⟩

/-- **The log gains the lines, in their order, and nothing else.** -/
theorem Works.logged (h : Works D F N now fs log said fs' log') (hs : fs.Sound)
    (hone : fs.OneName D) (hl : Logged D fs log b) (hF : ¬F SessionLog.entry)
    (hN : ¬N SessionLog.entry) :
    Logged D fs' log' (SessionLog.filled b (said.map (Prod.mk now))) := by
  induction h with
  | refl => exact hl
  | step h hc hw ih =>
    exact ih.stays (hw.stays hc (h.sound hs) (h.oneName hs hone) hF hN) Change.refusals_apply
  | told text h ih =>
    simp only [List.map_append, SessionLog.filled_append, List.map_cons, List.map_nil,
      SessionLog.filled_cons, SessionLog.filled_nil]
    exact ih.record now text

/-! ## Logs of any kind -/

/-- The node `i` is a file for which the system sets no limit. -/
def FileSystem.Unlimited (fs : FileSystem) (i : NodeId) : Prop :=
  (∃ b, fs.face? i = some (.file b)) ∧ fs.refusals.room i = none

/-- The log, if there is one, is the file `LOG` of the directory `D`, and if the system sets no limit
for it, the next line goes behind what it holds. -/
def LogsTo (D : NodeId) (fs : FileSystem) (log : Option SessionLog) : Prop :=
  ∀ l, log = some l → fs.lookup D SessionLog.entry = some l.file.node ∧
    (fs.Unlimited l.file.node → ∃ b, Logged D fs log b)

theorem LogsTo.none (D : NodeId) (fs : FileSystem) : LogsTo D fs none := fun _ hl => by cases hl

theorem LogsTo.logAt (h : LogsTo D fs log) : LogAt D fs log := fun l hl => (h l hl).1

/-- A log that was just opened is empty, or a device. -/
theorem LogsTo.opened {l : SessionLog} (hl : log = some l)
    (hlook : fs.lookup D SessionLog.entry = some l.file.node) (hpos : l.file.pos = 0)
    (hf : fs.face? l.file.node = some (.file []) ∨ ∃ d, fs.face? l.file.node = some (.device d)) :
    LogsTo D fs log := by
  intro l' hl'
  obtain rfl := Option.some.inj (hl.symm.trans hl')
  refine ⟨hlook, ?_⟩
  rintro ⟨⟨b, hb⟩, hroom⟩
  refine ⟨[], l, hl, hlook, hf.resolve_right ?_, hpos, hroom⟩
  rintro ⟨d, hd⟩
  rw [hb] at hd
  cases hd

/-- What leaves the entry `LOG` leaves the log. -/
theorem LogsTo.stays (h : LogsTo D fs log) (hst : Stays D SessionLog.entry fs fs')
    (hr : fs'.refusals = fs.refusals) : LogsTo D fs' log := by
  intro l hl
  obtain ⟨hlook, htell⟩ := h l hl
  refine ⟨hst.lookup.trans hlook, ?_⟩
  rintro ⟨⟨b, hb⟩, hroom⟩
  rw [hst.face _ hlook] at hb
  rw [hr] at hroom
  obtain ⟨b', hb'⟩ := htell ⟨⟨b, hb⟩, hroom⟩
  exact ⟨b', hb'.stays hst hr⟩

/-- Works that touch `LOG` by lines alone keep it the log. -/
theorem LogsTo.works (h : LogsTo D fs log) (hw : Works D F N now fs log said fs' log')
    (hs : fs.Sound) (hone : fs.OneName D) (hF : ¬F SessionLog.entry) (hN : ¬N SessionLog.entry) :
    LogsTo D fs' log' := by
  intro l' hl'
  obtain ⟨l, hl, hnode⟩ := hw.later l' hl'
  obtain ⟨hlook, htell⟩ := h l hl
  rw [hnode]
  refine ⟨(hw.lookup hs (Or.inr hN)).trans hlook, ?_⟩
  rintro ⟨⟨b, hb⟩, hroom⟩
  rw [hw.refusals] at hroom
  -- what is a file now was one before
  obtain ⟨b₀, hb₀⟩ : ∃ b₀, fs.face? l.file.node = some (.file b₀) := by
    obtain ⟨f, hf⟩ := hs.bound hlook
    rcases hw.leads.face? hs hf with hf' | ⟨b₀, -, rfl, -⟩
    · exact ⟨b, hf.trans (hf'.symm.trans hb)⟩
    · exact ⟨b₀, hf⟩
  obtain ⟨b', hb'⟩ := htell ⟨⟨b₀, hb₀⟩, hroom⟩
  exact ⟨_, hw.logged hs hone hb' hF hN⟩

end EngineDir
