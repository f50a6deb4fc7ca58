import EngineDir.Proofs.FileSystem.Preparing
import EngineDir.Proofs.Lineage
import EngineDir.Proofs.Plots

/-!
# Locality

A store whose directory, log and lock are on a plot works on that plot alone. On two file systems
that agree on the plot, each of its operations has the same result and leaves the store in the same
state, and the file systems agree again.

* `Store.On`, `Handle.On`, `SessionLog.On`: what works on a plot.
* `ResultsAlike`, `OutcomesAlike`: the same was done to twins, with the same result.
* `Twins.run`: **a publication**, from `Twins.step`: one step of it.
* `Twins.open?`: **the opening of the directory.**
* `Twins.close`, `Twins.setManifest`, `Twins.createFile`, …: **what is asked of a store.**
* `Twins.closeHandle`, `Twins.write`, `Twins.read`, …: **what is asked of a handle.**
-/

namespace EngineDir

open FileSystem

variable {fs fs' g g' k k' : FileSystem} {S : NodeId → Prop} {t : Trail} {ε α : Type}

/-! ## Results on twins -/

/-- What is granted has the property `P`. -/
def Granted (P : α → Prop) : Except ε α → Prop
  | .error _ => True
  | .ok a => P a

/-- Twins and a result of what was done to them, which is the same for both and has the
property `P`. -/
inductive ResultsAlike (S : NodeId → Prop) (t : Trail) (P : α → Prop) (fs fs' : FileSystem) :
    α × FileSystem → α × FileSystem → Prop
  | mk (a : α) {g g' : FileSystem} (hP : P a) (h : Alike S t fs fs' g g') :
      ResultsAlike S t P fs fs' (a, g) (a, g')

/-- The log writes to the plot. -/
def SessionLog.On (S : NodeId → Prop) (l : SessionLog) : Prop := S l.file.node

/-- The log, if there is one, writes to the plot. -/
def LogOn (S : NodeId → Prop) (log : Option SessionLog) : Prop := ∀ l, log = some l → l.On S

namespace Twins

/-! ## Locks and logs -/

theorem acquire (h : Twins S t fs fs') :
    ResultsAlike S t (Granted fun l => S l.node) fs fs' (DirLock.acquire fs t.path)
      (DirLock.acquire fs' t.path) := by
  have hn := nameable_lock
  unfold DirLock.acquire DirLock.pathIn
  rcases h.openForWriting hn.proper hn.length_le false with
    ⟨e, ho, ho'⟩ | ⟨g, g', i, ho, ho', hi, ha⟩
  · simp only [ho, ho']
    exact .mk _ trivial (.refl h)
  · have hface : ∃ f, g.face? i = some f := by
      rcases openForWriting_face? h.left.sound ho with ⟨b, hb⟩ | ⟨d, hd⟩
      · exact ⟨_, hb⟩
      · exact ⟨_, hd⟩
    simp only [ho, ho']
    rcases ha.twins.tryLock hi hface with ⟨hk, hk'⟩ | ⟨k, k', hk, hk', hb⟩
    · simp only [hk, hk']
      exact .mk _ trivial ha
    · simp only [hk, hk']
      exact .mk _ hi (ha.trans hb)

theorem rotated (h : Twins S t fs fs') :
    Alike S t fs fs' (SessionLog.rotated fs t.path) (SessionLog.rotated fs' t.path) := by
  unfold SessionLog.rotated SessionLog.pathIn SessionLog.oldPathIn
  rcases h.rename nameable_log.proper nameable_oldLog.proper with
    ⟨e, hr, hr'⟩ | ⟨g, g', hr, hr', ha⟩
  · simp only [hr, hr']
    exact .refl h
  · simp only [hr, hr']
    exact ha

theorem start (h : Twins S t fs fs') (rotate : Bool) :
    ResultsAlike S t (Granted (SessionLog.On S)) fs fs' (SessionLog.start fs t.path rotate)
      (SessionLog.start fs' t.path rotate) := by
  have hrot : Alike S t fs fs' (if rotate then SessionLog.rotated fs t.path else fs)
      (if rotate then SessionLog.rotated fs' t.path else fs') := by
    cases rotate with
    | false => exact .refl h
    | true => exact h.rotated
  unfold SessionLog.start SessionLog.pathIn
  have hn := nameable_log
  rcases hrot.twins.openForWriting hn.proper hn.length_le true with
    ⟨e, ho, ho'⟩ | ⟨g, g', i, ho, ho', hi, ha⟩
  · simp only [ho, ho']
    exact .mk _ trivial hrot
  · simp only [ho, ho']
    exact .mk _ hi (hrot.trans ha)

theorem writeLog (h : Twins S t fs fs') {l : SessionLog} (hl : l.On S) (now : Clock.Reading)
    (text : String) :
    ResultsAlike S t (SessionLog.On S) fs fs' (l.write fs now text) (l.write fs' now text) := by
  rw [SessionLog.write_eq, SessionLog.write_eq]
  simp only [h.advance hl, h.accepted hl]
  rcases h.writeAt hl l.file.pos (fs.accepted l.file.node l.file.pos (SessionLog.line now text)) with
    ⟨e, hw, hw'⟩ | ⟨g, g', hw, hw', ha⟩
  · simp only [hw, hw']
    exact .mk _ hl (.refl h)
  · simp only [hw, hw']
    refine .mk _ ?_ ha
    show S (fs.advance l.file _).node
    rw [Publication.advance_node]
    exact hl

theorem closeLog (h : Twins S t fs fs') {l : SessionLog} (hl : l.On S) :
    l.close fs' = l.close fs := by
  rw [SessionLog.close, SessionLog.close, h.sync hl]

theorem record (h : Twins S t fs fs') {log : Option SessionLog} (hl : LogOn S log)
    (now : Clock.Reading) (text : String) :
    ResultsAlike S t (LogOn S) fs fs' (SessionLog.record log fs now text)
      (SessionLog.record log fs' now text) := by
  cases log with
  | none => exact .mk none hl (.refl h)
  | some l =>
    have hw := h.writeLog (hl l rfl) now text
    unfold SessionLog.record
    simp only
    generalize l.write fs now text = r at hw ⊢
    generalize l.write fs' now text = r' at hw ⊢
    cases hw with
    | mk l' hl' ha =>
      refine .mk (some l') ?_ ha
      intro l'' he
      cases he
      exact hl'

/-! ## The pointer -/

theorem readManifest (h : Twins S t fs fs') : Current.read fs' t.path = Current.read fs t.path :=
  Current.read_congr (h.left.stands.arrives h.left.sound) (h.right.stands.arrives h.right.sound)
    (h.lookup _) (fun _ hj => face?_of_node? (h.node? (h.mine hj))) (h.left.noLink _)

end Twins

/-! ## Publications -/

/-- What a publication has open is on the plot. -/
def Publication.Stage.On (S : NodeId → Prop) : Publication.Stage → Prop
  | .write file _ _ => S file.node
  | .sync file => S file.node
  | _ => True

/-- The same publication, as far on the one file system as on the other. -/
inductive PublicationsAlike (S : NodeId → Prop) (t : Trail) (fs fs' : FileSystem) :
    Publication → Publication → Prop
  | mk {g g' : FileSystem} {log : Option SessionLog} (notes : List Note)
      {stage : Publication.Stage} (error? : Option StoreError) (hl : LogOn S log)
      (hs : stage.On S) (h : Alike S t fs fs' g g') :
      PublicationsAlike S t fs fs' ⟨g, log, notes, stage, error?⟩ ⟨g', log, notes, stage, error?⟩

namespace PublicationsAlike

variable {u u' : Publication} {p : Proposal} {stage : Publication.Stage}

theorem refused (h : PublicationsAlike S t fs fs' u u') (e : StoreError) :
    PublicationsAlike S t fs fs' (u.refused e) (u'.refused e) := by
  cases h with
  | mk notes error? hl hs ha => exact .mk notes (some e) hl trivial ha

theorem goOn (h : PublicationsAlike S t fs fs' u u') (hs : stage.On S)
    (ha : Alike S t u.fs u'.fs g g') :
    PublicationsAlike S t fs fs' (u.goOn g stage) (u'.goOn g' stage) := by
  cases h with
  | mk notes error? hl _ hb => exact .mk notes error? hl hs (hb.trans ha)

theorem warned (h : PublicationsAlike S t fs fs' u u') (now : Clock.Reading) (text : String)
    (hs : stage.On S) :
    PublicationsAlike S t fs fs' (u.warned now text stage) (u'.warned now text stage) := by
  cases h with
  | mk notes error? hl _ ha =>
    have hr := ha.twins.record hl now text
    unfold Publication.warned
    simp only
    generalize SessionLog.record _ _ now text = r at hr ⊢
    generalize SessionLog.record _ _ now text = r' at hr ⊢
    cases hr with
    | mk log' hl' hb => exact .mk _ error? hl' hs (ha.trans hb)

theorem on_beforeBytes {file : OpenFile} (hf : S file.node) (bytes : Bytes) :
    (p.beforeBytes file bytes).On S := by
  cases bytes with
  | nil =>
    show (p.afterLine file).On S
    unfold Proposal.afterLine
    split
    · exact hf
    · trivial
  | cons b rest => exact hf

theorem on_afterRename : p.afterRename.On S := by
  unfold Proposal.afterRename
  split <;> trivial

/-- One step of a publication. -/
theorem step (h : PublicationsAlike S t fs fs' u u') (hp : p.dir = t.path) :
    PublicationsAlike S t fs fs' (Publication.step p u) (Publication.step p u') := by
  have hstaged : p.staged = join t.path p.entry := by
    rw [Proposal.staged, Current.stagingPathIn, hp]
  have hpointer : Current.pathIn p.dir = join t.path Current.entry := by rw [Current.pathIn, hp]
  have hn := nameable_staging p.id.seq
  cases h with
  | @mk g g' log notes stage error? hl hs ha =>
    have hu : PublicationsAlike S t fs fs' ⟨g, log, notes, stage, error?⟩
        ⟨g', log, notes, stage, error?⟩ := .mk notes error? hl hs ha
    have htw := ha.twins
    unfold Publication.step
    cases stage with
    | create =>
      simp only [hstaged]
      rcases htw.openForWriting hn.proper hn.length_le true with
        ⟨e, ho, ho'⟩ | ⟨k, k', i, ho, ho', hi, hb⟩
      · simp only [ho, ho']
        exact hu.refused _
      · simp only [ho, ho']
        exact hu.goOn (on_beforeBytes hi _) hb
    | write file b rest =>
      simp only [htw.advance hs]
      rcases htw.writeAt hs file.pos [b] with ⟨e, hw, hw'⟩ | ⟨k, k', hw, hw', hb⟩
      · simp only [hw, hw']
        exact hu.refused _
      · simp only [hw, hw']
        refine hu.goOn (on_beforeBytes ?_ rest) hb
        rw [Publication.advance_node]
        exact hs
    | sync file =>
      simp only [htw.sync hs]
      cases g.sync file.node with
      | error e => exact hu.refused _
      | ok v => exact hu.goOn trivial (.refl htw)
    | rename =>
      simp only [hstaged, hpointer]
      rcases htw.rename hn.proper nameable_current.proper with ⟨e, hr, hr'⟩ | ⟨k, k', hr, hr', hb⟩
      · simp only [hr, hr']
        exact hu.refused _
      · simp only [hr, hr']
        exact hu.goOn on_afterRename hb
    | syncDirectory =>
      have hsync : Publication.syncPath g' p.dir = Publication.syncPath g p.dir := by
        rw [Publication.syncPath, Publication.syncPath, openForReading, openForReading, hp,
          htw.find, htw.left.stands.find htw.left.sound]
        exact htw.sync htw.left.here
      simp only [hsync]
      cases Publication.syncPath g p.dir with
      | error e => exact hu.goOn trivial (.refl htw)
      | ok v => exact hu.goOn trivial (.refl htw)
    | report e => exact hu.warned _ _ trivial
    | discard =>
      simp only [hstaged]
      rcases htw.remove hn.proper hn.length_le with ⟨e, hr, hr'⟩ | ⟨k, k', hr, hr', hb⟩
      · simp only [hr, hr']
        split
        · exact hu.goOn trivial (.refl htw)
        · exact hu.goOn trivial (.refl htw)
        · contradiction
      · simp only [hr, hr']
        exact hu.goOn trivial hb
    | remark text => exact hu.warned _ _ trivial
    | finished => exact hu

theorem after (h : PublicationsAlike S t fs fs' u u') (hp : p.dir = t.path) (k : Nat) :
    PublicationsAlike S t fs fs' (Publication.after p k u) (Publication.after p k u') := by
  induction k generalizing u u' with
  | zero => exact h
  | succ k ih => exact ih (h.step hp)

end PublicationsAlike

/-- **A publication does the same on twins.** -/
theorem Twins.run (h : Twins S t fs fs') {p : Proposal} (hp : p.dir = t.path)
    {log : Option SessionLog} (hl : LogOn S log) :
    PublicationsAlike S t fs fs' (Publication.run p fs log) (Publication.run p fs' log) :=
  have hbegin : PublicationsAlike S t fs fs' (.begin fs log) (.begin fs' log) :=
    .mk [] none hl trivial (.refl h)
  hbegin.after hp _

/-! ## Stores -/

/-- The store is that of the directory, and its log and its lock are on the plot. -/
structure Store.On (S : NodeId → Prop) (t : Trail) (s : Store) : Prop where
  dir : s.dir = t.path
  log : LogOn S s.log
  lock : ∀ l, s.lock = some l → S l.node

/-- What is open in the handle is on the plot. -/
def Handle.On (S : NodeId → Prop) (x : Handle) : Prop := ∀ f, x.file = some f → S f.node

/-- The same outcome of an operation of the store on twins. -/
inductive OutcomesAlike (S : NodeId → Prop) (t : Trail) (P : α → Prop) (fs fs' : FileSystem) :
    Outcome α → Outcome α → Prop
  | mk {g g' : FileSystem} (r : Except StoreError α) {s : Store} (notes : List Note)
      (hr : Granted P r) (hs : s.On S t) (h : Alike S t fs fs' g g') :
      OutcomesAlike S t P fs fs' ⟨r, g, s, notes⟩ ⟨r, g', s, notes⟩

variable {s : Store} {P : α → Prop} {x y : Handle} {f : OpenFile}

theorem Store.On.vacated (hs : s.On S t) : s.vacated.On S t where
  dir := hs.dir
  log _ hl := by cases hl
  lock _ hl := by cases hl

theorem Store.On.pathOf (hs : s.On S t) (name : List Char) :
    s.pathOf name = join t.path (Utf8.encode name) := by rw [Store.pathOf, hs.dir]

theorem Handle.On.of_file? (hx : x.On S) (hf : x.file? = .ok f) : S f.node :=
  hx f (Handle.file_of_file? hf)

/-- A handle stays on the plot while its cursor moves. -/
theorem Handle.On.moved (hx : x.On S) (hm : x.Moved y) : y.On S := by
  intro f hf
  have hnode := hm.node
  rw [hf, Option.map_some, eq_comm, Option.map_eq_some_iff] at hnode
  obtain ⟨f₀, hf₀, he⟩ := hnode
  exact he ▸ hx f₀ hf₀

/-- The path of the trail is the canonical one. -/
theorem Trail.Stands.canonical (hs : fs.Sound) (ht : t.Stands fs) :
    fs.canonical (Path.ofText t.path) = .ok t.path := by
  obtain ⟨hne, -⟩ := arrives_of_find (ht.find hs) (ht.isDirectory hs)
  exact (ht.arrives hs).canonical hne

/-- A directory that is there is made by nobody. -/
theorem Plot.prepare (h : Plot S t fs) {o : Options} (ho : o.dir = t.path) :
    Store.prepare fs o = (.ok (), fs) := by
  have hthere : fs.leadsToDirectory (Path.ofText t.path) = true := by
    rw [leadsToDirectory, h.stands.find h.sound]
    exact h.stands.isDirectory h.sound
  unfold Store.prepare
  rw [ho, makeDirectories_there hthere, hthere]
  split <;> rfl

namespace Twins

theorem recordIn (h : Twins S t fs fs') (hs : s.On S t) (now : Clock.Reading) (text : String) :
    ResultsAlike S t (Store.On S t) fs fs' (s.record fs now text) (s.record fs' now text) := by
  have hr := h.record hs.log now text
  unfold Store.record
  generalize SessionLog.record s.log fs now text = r at hr ⊢
  generalize SessionLog.record s.log fs' now text = r' at hr ⊢
  cases hr with
  | mk log hl ha =>
    have hon : ({ s with log := log } : Store).On S t := ⟨hs.dir, hl, hs.lock⟩
    exact .mk _ hon ha

theorem refuse (h : Twins S t fs fs') (hs : s.On S t) (e : StoreError) :
    OutcomesAlike S t P fs fs' (.refuse fs s e) (.refuse fs' s e) :=
  .mk _ [] trivial hs (.refl h)

theorem warn (h : Twins S t fs fs') (hs : s.On S t) (now : Clock.Reading) (text : String)
    {r : Except StoreError α} (hr : Granted P r) :
    OutcomesAlike S t P fs fs' (s.warn fs now text r) (s.warn fs' now text r) := by
  have hrec := h.recordIn hs now text
  unfold Store.warn
  generalize s.record fs now text = q at hrec ⊢
  generalize s.record fs' now text = q' at hrec ⊢
  cases hrec with
  | mk s' hs' ha => exact .mk r _ hr hs' ha

/-! ### The session -/

theorem enter (h : Twins S t fs fs') (o : Options) :
    ResultsAlike S t (Granted (Store.On S t)) fs fs' (Store.enter fs o t.path)
      (Store.enter fs' o t.path) := by
  have hlock := h.acquire
  unfold Store.enter
  generalize DirLock.acquire fs t.path = r at hlock ⊢
  generalize DirLock.acquire fs' t.path = r' at hlock ⊢
  cases hlock with
  | @mk a g g' hl ha =>
    cases a with
    | error e => exact .mk _ trivial ha
    | ok l =>
      have hlog := ha.twins.start o.rotateLog
      simp only
      generalize SessionLog.start g t.path o.rotateLog = q at hlog ⊢
      generalize SessionLog.start g' t.path o.rotateLog = q' at hlog ⊢
      cases hlog with
      | @mk b k k' hb hk =>
        cases b with
        | error e => exact .mk _ trivial ((ha.trans hk).trans (hk.twins.unlock hl))
        | ok log =>
          have hon : (Store.fresh t.path o.syncManifest log l).On S t := by
            refine ⟨rfl, ?_, ?_⟩
            · intro l' he
              cases he
              exact hb
            · intro l' he
              cases he
              exact hl
          exact .mk _ hon (ha.trans hk)

/-- **The directory is opened alike.** -/
theorem open? (h : Twins S t fs fs') {o : Options} (ho : o.dir = t.path) :
    ResultsAlike S t (Granted (Store.On S t)) fs fs' (Store.open? fs o) (Store.open? fs' o) := by
  unfold Store.open?
  cases o.check with
  | error e => exact .mk _ trivial (.refl h)
  | ok u =>
    -- the directory is there, so nothing above it is looked at or made
    simp only [h.left.prepare ho, h.right.prepare ho, ho, h.left.stands.canonical h.left.sound,
      h.right.stands.canonical h.right.sound]
    exact h.enter o

theorem closeLogOf (h : Twins S t fs fs') (hs : s.On S t) : s.closeLog fs' = s.closeLog fs := by
  unfold Store.closeLog
  cases hl : s.log with
  | none => rfl
  | some l => exact h.closeLog (hs.log l hl)

theorem releaseLock (h : Twins S t fs fs') (hs : s.On S t) :
    Alike S t fs fs' (s.releaseLock fs) (s.releaseLock fs') := by
  unfold Store.releaseLock
  cases hl : s.lock with
  | none => exact .refl h
  | some l => exact h.unlock (hs.lock l hl)

theorem close (h : Twins S t fs fs') (hs : s.On S t) (now : Clock.Reading) :
    OutcomesAlike S t (fun _ => True) fs fs' (s.close fs now) (s.close fs' now) := by
  unfold Store.close
  rw [h.closeLogOf hs]
  split
  · exact h.refuse hs _
  split
  · exact h.warn hs _ _ trivial
  · have hr : Granted (fun _ => True) (s.closeLog fs) := by cases s.closeLog fs <;> trivial
    exact .mk _ _ hr ⟨hs.dir, hs.vacated.log, hs.vacated.lock⟩ (h.releaseLock hs)

theorem abandon (h : Twins S t fs fs') (hs : s.On S t) (now : Clock.Reading) :
    OutcomesAlike S t (fun _ => True) fs fs' (s.abandon fs now) (s.abandon fs' now) := by
  unfold Store.abandon
  split
  · exact .mk _ [] trivial ⟨hs.dir, hs.log, hs.lock⟩ (.refl h)
  have hok : Granted (fun _ : Unit => True) (Except.ok () : Except StoreError Unit) := trivial
  have hw := h.warn hs now
    ("storage dropped without close, " ++ Store.countText s.openCount ++ " files still open") hok
  simp only
  generalize s.warn fs now _ (Except.ok ()) = o at hw ⊢
  generalize s.warn fs' now _ (Except.ok ()) = o' at hw ⊢
  cases hw with
  | @mk g g' r s' notes hr hs' ha =>
    have hended : ({ s' with owned := false, closed := true } : Store).On S t :=
      ⟨hs'.dir, hs'.log, hs'.lock⟩
    -- with files open the log and the lock stay, without they go at once
    split
    · exact .mk r notes hr hended ha
    · rw [ha.twins.closeLogOf hended]
      exact .mk _ _ trivial hended.vacated (ha.trans (ha.twins.releaseLock hended))

theorem logMessage (h : Twins S t fs fs') (hs : s.On S t) (now : Clock.Reading) (text : String) :
    ResultsAlike S t (Store.On S t) fs fs' (s.logMessage fs now text)
      (s.logMessage fs' now text) := by
  unfold Store.logMessage
  split
  · exact .mk s hs (.refl h)
  · exact h.recordIn hs now text

theorem takeTurn (h : Twins S t fs fs') (hs : s.On S t) :
    OutcomesAlike S t (fun _ => True) fs fs' (s.takeTurn fs) (s.takeTurn fs') := by
  unfold Store.takeTurn
  split
  · exact h.refuse hs _
  split
  · exact h.refuse hs _
  · exact .mk _ [] trivial ⟨hs.dir, hs.log, hs.lock⟩ (.refl h)

/-! ### The files -/

theorem list (h : Twins S t fs fs') (hs : s.On S t) (kinds : KindSet) :
    s.list fs' kinds = s.list fs kinds := by
  rw [Store.list, Store.list, hs.dir, h.listing]

theorem manifest (h : Twins S t fs fs') (hs : s.On S t) : s.manifest fs' = s.manifest fs := by
  rw [Store.manifest, Store.manifest, hs.dir, h.readManifest]

theorem setManifest (h : Twins S t fs fs') (hs : s.On S t) (now : Clock.Reading) (id : FileId) :
    OutcomesAlike S t (fun _ => True) fs fs' (s.setManifest fs now id)
      (s.setManifest fs' now id) := by
  unfold Store.setManifest
  split
  · exact h.refuse hs _
  split
  · exact h.refuse hs _
  have hp : (s.proposal now id).dir = t.path := hs.dir
  have hu := h.run hp hs.log
  simp only
  generalize Publication.run (s.proposal now id) fs s.log = u at hu ⊢
  generalize Publication.run (s.proposal now id) fs' s.log = u' at hu ⊢
  cases hu with
  | mk notes error? hl hst ha =>
    cases error? with
    | none => exact .mk _ _ trivial ⟨hs.dir, hl, hs.lock⟩ ha
    | some e => exact .mk _ _ trivial ⟨hs.dir, hl, hs.lock⟩ ha

theorem removeFile (h : Twins S t fs fs') (hs : s.On S t) (now : Clock.Reading) (id : FileId) :
    OutcomesAlike S t (fun _ => True) fs fs' (s.removeFile fs now id)
      (s.removeFile fs' now id) := by
  unfold Store.removeFile
  cases hacc : s.access id .stillOpen with
  | error e => exact h.refuse hs e
  | ok name =>
    have hn := nameable_of_name? (Store.access_ok hacc).2.1
    simp only [hs.pathOf]
    rcases h.remove hn.proper hn.length_le with ⟨e, hr, hr'⟩ | ⟨g, g', hr, hr', ha⟩
    · simp only [hr, hr']
      exact h.warn hs _ _ trivial
    · simp only [hr, hr']
      exact .mk _ _ trivial hs ha

/-- What a store grants is open on the plot. -/
theorem granted (hs : s.On S t) {i : NodeId} (hi : S i) (ha : Alike S t fs fs' g g')
    (action : String) (mode : Mode) (id : FileId) (path : Bytes) :
    OutcomesAlike S t (Handle.On S) fs fs' (s.granted g action mode id path i)
      (s.granted g' action mode id path i) := by
  refine .mk _ _ ?_ ⟨hs.dir, hs.log, hs.lock⟩ ha
  intro f hf
  cases hf
  exact hi

theorem openFile (h : Twins S t fs fs') (hs : s.On S t) (id : FileId) :
    OutcomesAlike S t (Handle.On S) fs fs' (s.openFile fs id) (s.openFile fs' id) := by
  unfold Store.openFile
  cases hacc : s.access id .alreadyOpen with
  | error e => exact h.refuse hs e
  | ok name =>
    have hn := nameable_of_name? (Store.access_ok hacc).2.1
    obtain ⟨hsame, hon⟩ := h.openForReading hn.proper hn.length_le
    simp only [hs.pathOf, hsame]
    cases ho : fs.openForReading (join t.path (Utf8.encode name)) with
    | error e => exact h.refuse hs _
    | ok i => exact granted hs (hon i ho) (.refl h) _ _ _ _

theorem createFile (h : Twins S t fs fs') (hs : s.On S t) (id : FileId) :
    OutcomesAlike S t (Handle.On S) fs fs' (s.createFile fs id) (s.createFile fs' id) := by
  unfold Store.createFile
  cases hacc : s.access id .alreadyOpen with
  | error e => exact h.refuse hs e
  | ok name =>
    have hn := nameable_of_name? (Store.access_ok hacc).2.1
    simp only [hs.pathOf]
    rcases h.openForWriting hn.proper hn.length_le true with
      ⟨e, ho, ho'⟩ | ⟨g, g', i, ho, ho', hi, ha⟩
    · simp only [ho, ho']
      exact h.refuse hs _
    · simp only [ho, ho']
      exact granted hs hi ha _ _ _ _

/-! ### Handles -/

theorem closeHandle (h : Twins S t fs fs') (hs : s.On S t) (hx : x.On S) (now : Clock.Reading) :
    OutcomesAlike S t (fun _ => True) fs fs' (x.close fs s now).1 (x.close fs' s now).1 ∧
      (x.close fs' s now).2 = (x.close fs s now).2 ∧ (x.close fs s now).2.On S := by
  unfold Handle.close
  cases hf : x.file with
  | none => exact ⟨h.refuse hs _, rfl, hx⟩
  | some f =>
    have hpend : Handle.pending fs' x f = Handle.pending fs x f := by
      unfold Handle.pending
      rw [h.sync (hx f hf)]
    have hfreed : (s.freed x.id).On S t := ⟨hs.dir, hs.log, hs.lock⟩
    have hshut : x.shut.On S := fun f' hf' => by cases hf'
    simp only [hpend]
    cases Handle.pending fs x f with
    | error e => exact ⟨h.warn hfreed _ _ trivial, rfl, hshut⟩
    | ok u => exact ⟨.mk _ _ trivial hfreed (.refl h), rfl, hshut⟩

theorem abandonHandle (h : Twins S t fs fs') (hs : s.On S t) (x : Handle) (now : Clock.Reading) :
    OutcomesAlike S t (fun _ => True) fs fs' (x.abandon fs s now) (x.abandon fs' s now) := by
  unfold Handle.abandon
  cases x.file with
  | none => exact .mk _ [] trivial hs (.refl h)
  | some f =>
    have hleaked : ({ s.freed x.id with leaked := (s.freed x.id).leaked + 1 } : Store).On S t :=
      ⟨hs.dir, hs.log, hs.lock⟩
    exact h.warn hleaked _ _ trivial

theorem readNode (h : Twins S t fs fs') (hf : S f.node) :
    Handle.readNode fs' f.node = Handle.readNode fs f.node := by
  funext pos count
  rw [Handle.readNode, Handle.readNode, h.readAt hf]

theorem readAtOf (h : Twins S t fs fs') (hx : x.On S) : x.readAt fs' = x.readAt fs := by
  funext pos count
  unfold Handle.readAt
  cases hf : x.file? with
  | error e => rfl
  | ok f => exact congrFun (congrFun (h.readNode (hx.of_file? hf)) pos) count

theorem readExactAt (h : Twins S t fs fs') (hx : x.On S) (pos count : Nat) :
    x.readExactAt fs' pos count = x.readExactAt fs pos count := by
  rw [Handle.readExactAt, Handle.readExactAt, h.readAtOf hx]

theorem read (h : Twins S t fs fs') (hx : x.On S) (count : Nat) :
    x.read fs' count = x.read fs count := by
  unfold Handle.read
  cases hf : x.file? with
  | error e => rfl
  | ok f =>
    have hon : S f.node := hx.of_file? hf
    simp only [h.readNode hon, Handle.advanced, h.advance hon]

theorem readExact (h : Twins S t fs fs') (hx : x.On S) (count : Nat) :
    x.readExact fs' count = x.readExact fs count := by
  rw [Handle.readExact, Handle.readExact, h.read hx]

theorem readAll (h : Twins S t fs fs') (hx : x.On S) : x.readAll fs' = x.readAll fs := by
  unfold Handle.readAll
  cases hf : x.file? with
  | error e => rfl
  | ok f =>
    have hon : S f.node := hx.of_file? hf
    simp only [h.readNode hon, h.isEndless hon, h.size hon, h.read hx]

theorem length (h : Twins S t fs fs') (hx : x.On S) : x.length fs' = x.length fs := by
  unfold Handle.length
  cases hf : x.file? with
  | error e => rfl
  | ok f => simp only [h.size (hx.of_file? hf)]

theorem isEmpty (h : Twins S t fs fs') (hx : x.On S) : x.isEmpty fs' = x.isEmpty fs := by
  rw [Handle.isEmpty, Handle.isEmpty, h.length hx]

theorem seekTo (h : Twins S t fs fs') (hx : x.On S) (m : Movement) :
    x.seek fs' m = x.seek fs m := by
  unfold Handle.seek
  cases hf : x.file? with
  | error e => rfl
  | ok f => simp only [h.seek (hx.of_file? hf)]

theorem syncFile (h : Twins S t fs fs') (hx : x.On S) : x.syncFile fs' = x.syncFile fs := by
  unfold Handle.syncFile
  cases hf : x.file? with
  | error e => rfl
  | ok f => simp only [h.sync (hx.of_file? hf)]

theorem write (h : Twins S t fs fs') (hx : x.On S) (bytes : Bytes) :
    (x.write fs' bytes).1 = (x.write fs bytes).1 ∧
      (x.write fs' bytes).2.1 = (x.write fs bytes).2.1 ∧
      Alike S t fs fs' (x.write fs bytes).2.2 (x.write fs' bytes).2.2 := by
  unfold Handle.write
  cases hf : x.file? with
  | error e => exact ⟨rfl, rfl, .refl h⟩
  | ok f =>
    have hon : S f.node := hx.of_file? hf
    simp only [Handle.advanced, h.advance hon, h.accepted hon]
    rcases h.writeAt hon f.pos (fs.accepted f.node f.pos bytes) with
      ⟨e, hw, hw'⟩ | ⟨g, g', hw, hw', ha⟩
    · rw [hw, hw']
      exact ⟨rfl, rfl, .refl h⟩
    · rw [hw, hw']
      exact ⟨rfl, rfl, ha⟩

end Twins

end EngineDir
