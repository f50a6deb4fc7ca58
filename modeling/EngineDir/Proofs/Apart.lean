import EngineDir.Proofs.Locality
import EngineDir.Proofs.Reserved

/-!
# Directories apart

Stores of two directories, neither inside the other and with no file in both, know nothing of each
other. Whoever works on the one directory is answered and told the same, and finds and leaves the
same there, whatever happens to the other one in between.

* `Estate`: a directory and the numbers of what is in use there. `Event.Of`: what happens to it.
* `TablesAlike`, `WorldsAlike`: two worlds that are the same in what belongs to an estate, after the
  same happened to it in both.
* `InStep.step`: **an event of the estate has the same outcome in both worlds**, and changes nothing
  else. `InStep.beside`: **what happens to another estate makes no difference.**
* `InStep.acted`: a run of two estates, and the acts of the first one alone.
* `World.heard_apart`: **all that those who own the estate are answered and told, and all that they
  find there, is what it would be without the other estate.** `apart_interferes`: not so if they share
  a file, or change places.
-/

namespace EngineDir

open FileSystem

/-! ## Estates and events -/

/-- A directory, by its trail, and the numbers of the stores, the handles, the turns, the locks and
the logs that belong to it. -/
structure Estate where
  trail : Trail
  stores : Nat → Prop
  handles : Nat → Prop
  turns : Nat → Prop
  locks : Nat → Prop
  logs : Nat → Prop

/-- What a store of the estate is asked to give gets a number of the estate. -/
def StoreRequest.Of (E : Estate) : StoreRequest → Prop
  | .openFile h _ => E.handles h
  | .createFile h _ => E.handles h
  | .takeTurn l => E.turns l
  | _ => True

/-- The event is one of the estate. Its directory is named by the canonical path. -/
def Event.Of (E : Estate) : Event → Prop
  | .outside _ => False
  | .openStore s o => E.stores s ∧ o.dir = E.trail.path
  | .store s r => E.stores s ∧ r.Of E
  | .handle h _ => E.handles h
  | .endTurn l => E.turns l
  | .acquire l dir => E.locks l ∧ dir = E.trail.path
  | .release l => E.locks l
  | .openLog l dir _ => E.logs l ∧ dir = E.trail.path
  | .writeLog l _ => E.logs l
  | .closeLog l => E.logs l
  | .abandonLog l => E.logs l
  | .readManifest dir => dir = E.trail.path

/-! ## Tables -/

section Tables

variable {α : Type} {own own₁ : Nat → Prop} {Mine Other Mine₁ Other₁ : α → Prop}
  {T T' G G' K K' : Table Nat α} {k : Nat} {a : α}

/-- The tables `T` and `T'` become `G` and `G'` by the same changes of own numbers, and in the end
bind these alike. -/
structure TablesAlike (own : Nat → Prop) (Mine Other : α → Prop) (T T' G G' : Table Nat α) :
    Prop where
  same : ∀ k, own k → G'.get? k = G.get? k
  mine : ∀ k a, own k → G.get? k = some a → Mine a
  other : ∀ k a, ¬own k → G.get? k = some a → Other a
  other' : ∀ k a, ¬own k → G'.get? k = some a → Other a
  left : ∀ k, ¬own k → G.get? k = T.get? k
  right : ∀ k, ¬own k → G'.get? k = T'.get? k

namespace TablesAlike

theorem refl (h : TablesAlike own Mine Other T T' G G') : TablesAlike own Mine Other G G' G G' :=
  ⟨h.same, h.mine, h.other, h.other', fun _ _ => rfl, fun _ _ => rfl⟩

theorem symm (h : TablesAlike own Mine Other T T' G G') : TablesAlike own Mine Other T' T G' G where
  same k hk := (h.same k hk).symm
  mine k a hk ha := h.mine k a hk ((h.same k hk).symm.trans ha)
  other := h.other'
  other' := h.other
  left := h.right
  right := h.left

theorem diag (h : TablesAlike own Mine Other T T' G G') : TablesAlike own Mine Other G G G G :=
  ⟨fun _ _ => rfl, h.mine, h.other, h.other, fun _ _ => rfl, fun _ _ => rfl⟩

theorem empty (own : Nat → Prop) (Mine Other : α → Prop) :
    TablesAlike own Mine Other .empty .empty .empty .empty where
  same _ _ := rfl
  mine _ _ _ h := by cases h
  other _ _ _ h := by cases h
  other' _ _ _ h := by cases h
  left _ _ := rfl
  right _ _ := rfl

theorem contains (h : TablesAlike own Mine Other T T' G G') (hk : own k) :
    G'.contains k = G.contains k := by
  rw [Table.contains, Table.contains, h.same k hk]

/-- What an own number is bound to may change, in both tables alike. -/
theorem update {G₁ G₁' : Table Nat α} (h : TablesAlike own Mine Other T T' G G') (hk : own k)
    (hl : ∀ j, j ≠ k → G₁.get? j = G.get? j) (hr : ∀ j, j ≠ k → G₁'.get? j = G'.get? j)
    (hsame : G₁'.get? k = G₁.get? k) (hmine : ∀ a, G₁.get? k = some a → Mine a) :
    TablesAlike own Mine Other T T' G₁ G₁' := by
  have hne : ∀ {j}, ¬own j → j ≠ k := by
    rintro j hj rfl
    exact hj hk
  refine ⟨?_, ?_, ?_, ?_, ?_, ?_⟩
  · intro j hj
    by_cases hjk : j = k
    · rw [hjk, hsame]
    · rw [hl j hjk, hr j hjk, h.same j hj]
  · intro j b hj hb
    by_cases hjk : j = k
    · exact hmine b (hjk ▸ hb)
    · exact h.mine j b hj ((hl j hjk).symm.trans hb)
  · intro j b hj hb
    exact h.other j b hj ((hl j (hne hj)).symm.trans hb)
  · intro j b hj hb
    exact h.other' j b hj ((hr j (hne hj)).symm.trans hb)
  · intro j hj
    exact (hl j (hne hj)).trans (h.left j hj)
  · intro j hj
    exact (hr j (hne hj)).trans (h.right j hj)

theorem insert (h : TablesAlike own Mine Other T T' G G') (hk : own k) (ha : Mine a) :
    TablesAlike own Mine Other T T' (G.insert k a) (G'.insert k a) := by
  have hself : ∀ K : Table Nat α, (K.insert k a).get? k = some a := fun K => K.get?_insert_self k a
  refine h.update hk (fun j => G.get?_insert_of_ne a) (fun j => G'.get?_insert_of_ne a) ?_ ?_
  · rw [hself, hself]
  · intro b hb
    rw [hself] at hb
    cases hb
    exact ha

theorem erase (h : TablesAlike own Mine Other T T' G G') (hk : own k) :
    TablesAlike own Mine Other T T' (G.erase k) (G'.erase k) := by
  have hself : ∀ K : Table Nat α, (K.erase k).get? k = none := fun K => K.get?_erase_self k
  refine h.update hk (fun j => G.get?_erase_of_ne) (fun j => G'.get?_erase_of_ne) ?_ ?_
  · rw [hself, hself]
  · intro b hb
    rw [hself] at hb
    cases hb

/-- Changes of other numbers make no difference. -/
theorem beside (h : TablesAlike own Mine Other T T' T T')
    (h₁ : TablesAlike own₁ Mine₁ Other₁ T T G G) (hown : ∀ k, own k → ¬own₁ k)
    (hmine : ∀ a, Mine₁ a → Other a) : TablesAlike own Mine Other G T' G T' where
  same k hk := (h.same k hk).trans (h₁.left k (hown k hk)).symm
  mine k a hk ha := h.mine k a hk ((h₁.left k (hown k hk)).symm.trans ha)
  other k a hk ha := by
    by_cases hk₁ : own₁ k
    · exact hmine a (h₁.mine k a hk₁ ha)
    · exact h.other k a hk ((h₁.left k hk₁).symm.trans ha)
  other' := h.other'
  left _ _ := rfl
  right _ _ := rfl

end TablesAlike

section Shares

variable {E : Estate} {Mine : Share α → Prop} {T T' G G' : Table Nat (Share α)} {s : Nat}

theorem TablesAlike.sharing
    (h : TablesAlike own Mine (fun x => ¬E.stores x.store) T T' G G') (hs : E.stores s)
    (hG : Sharing G s) : Sharing G' s := by
  obtain ⟨k, v, hv⟩ := hG
  have hk : own k := by
    by_cases hk : own k
    · exact hk
    · exact absurd hs (h.other k _ hk hv)
  exact ⟨k, v, (h.same k hk).trans hv⟩

/-- Whether anything belongs to a store of the estate is seen in what belongs to the estate. -/
theorem TablesAlike.anyShare
    (h : TablesAlike own Mine (fun x => ¬E.stores x.store) T T' G G') (hs : E.stores s) :
    World.anyShare G' s = World.anyShare G s := by
  rw [Bool.eq_iff_iff, anyShare_iff, anyShare_iff]
  exact ⟨h.symm.sharing hs, h.sharing hs⟩

end Shares

end Tables

/-! ## Worlds -/

variable {E E₁ : Estate} {S S₁ : NodeId → Prop} {w w' v v' : World}
  {s k : Nat} {st : Store} {now : Clock.Reading} {e : Event}

/-- The worlds `w` and `w'` become `v` and `v'` by the same changes of what belongs to the estate
`E` with the plot `S`, and in the end are the same there. A handle or a turn belongs to the estate
if and only if its store does. -/
structure WorldsAlike (E : Estate) (S : NodeId → Prop) (w w' v v' : World) : Prop where
  files : Alike S E.trail w.fs w'.fs v.fs v'.fs
  stores : TablesAlike E.stores (Store.On S E.trail) (fun _ => True) w.stores w'.stores v.stores
    v'.stores
  handles : TablesAlike E.handles (fun x => E.stores x.store ∧ x.value.On S)
    (fun x => ¬E.stores x.store) w.handles w'.handles v.handles v'.handles
  turns : TablesAlike E.turns (fun x => E.stores x.store) (fun x => ¬E.stores x.store) w.turns
    w'.turns v.turns v'.turns
  locks : TablesAlike E.locks (fun l => S l.node) (fun _ => True) w.locks w'.locks v.locks v'.locks
  logs : TablesAlike E.logs (SessionLog.On S) (fun _ => True) w.logs w'.logs v.logs v'.logs

/-- The worlds are the same in what belongs to the estate. -/
abbrev InStep (E : Estate) (S : NodeId → Prop) (w w' : World) : Prop :=
  WorldsAlike E S w w' w w'

/-- The same reaction in both worlds. -/
structure ReactionsAlike (E : Estate) (S : NodeId → Prop) (w w' : World)
    (r r' : Reaction) : Prop where
  worlds : WorldsAlike E S w w' r.world r'.world
  answer : r'.answer = r.answer
  notes : r'.notes = r.notes

namespace WorldsAlike

theorem refl (h : WorldsAlike E S w w' v v') : InStep E S v v' where
  files := .refl h.files.twins
  stores := h.stores.refl
  handles := h.handles.refl
  turns := h.turns.refl
  locks := h.locks.refl
  logs := h.logs.refl

theorem withFiles (h : WorldsAlike E S w w' v v') {g g' : FileSystem}
    (ha : Alike S E.trail v.fs v'.fs g g') :
    WorldsAlike E S w w' { v with fs := g } { v' with fs := g' } :=
  { h with files := h.files.trans ha }

theorem withStore (h : WorldsAlike E S w w' v v') (hs : E.stores s) (hst : st.On S E.trail)
    {g g' : FileSystem} (ha : Alike S E.trail v.fs v'.fs g g') :
    WorldsAlike E S w w' { v with fs := g, stores := v.stores.insert s st }
      { v' with fs := g', stores := v'.stores.insert s st } :=
  { h with files := h.files.trans ha, stores := h.stores.insert hs hst }

theorem withHandle (h : WorldsAlike E S w w' v v') (hs : E.stores s) (hk : E.handles k)
    {y : Handle} (hy : y.On S) :
    WorldsAlike E S w w' (v.withHandle s k y) (v'.withHandle s k y) :=
  { h with handles := h.handles.insert hk ⟨hs, hy⟩ }

theorem isShared (h : WorldsAlike E S w w' v v') (hs : E.stores s) (st : Store) :
    v'.isShared s st = v.isShared s st := by
  rw [World.isShared, World.isShared, h.handles.anyShare hs, h.turns.anyShare hs]

/-- A store settles alike. -/
theorem settle (h : WorldsAlike E S w w' v v') (hs : E.stores s) :
    WorldsAlike E S w w' (v.settle s) (v'.settle s) := by
  unfold World.settle
  rw [h.stores.same s hs]
  cases hst : v.stores.get? s with
  | none => exact h
  | some st =>
    have hon : st.On S E.trail := h.stores.mine s st hs hst
    -- whoever has a share in the store belongs to the estate
    simp only [h.isShared hs]
    split
    · exact h
    · exact h.withStore hs hon.vacated (h.files.twins.releaseLock hon)

end WorldsAlike

/-! ## Reactions -/

section Reactions

variable {α : Type} {P : α → Prop}

theorem WorldsAlike.answering (h : WorldsAlike E S w w' v v') (a : Except Failure Value) :
    ReactionsAlike E S w w' (v.answering a) (v'.answering a) := ⟨h, rfl, rfl⟩

theorem WorldsAlike.reacting (h : WorldsAlike E S w w' v v') (hs : E.stores s) (f : α → Value)
    {o o' : Outcome α} (ho : OutcomesAlike S E.trail P v.fs v'.fs o o') :
    ReactionsAlike E S w w' (v.reacting s f o) (v'.reacting s f o') := by
  cases ho with
  | mk r notes hr hon ha => exact ⟨h.withStore hs hon ha, rfl, rfl⟩

theorem WorldsAlike.receiving (h : WorldsAlike E S w w' v v') (hs : E.stores s)
    (hk : E.handles k) {o o' : Outcome Handle}
    (ho : OutcomesAlike S E.trail (Handle.On S) v.fs v'.fs o o') :
    ReactionsAlike E S w w' (v.receiving s k o) (v'.receiving s k o') := by
  cases ho with
  | mk r notes hr hon ha =>
    cases r with
    | error e => exact ⟨h.withStore hs hon ha, rfl, rfl⟩
    | ok y => exact ⟨(h.withStore hs hon ha).withHandle hs hk hr, rfl, rfl⟩

theorem WorldsAlike.receivingTurn (h : WorldsAlike E S w w' v v') (hs : E.stores s)
    (hk : E.turns k) {o o' : Outcome Nat}
    (ho : OutcomesAlike S E.trail (fun _ => True) v.fs v'.fs o o') :
    ReactionsAlike E S w w' (v.receivingTurn s k o) (v'.receivingTurn s k o') := by
  cases ho with
  | mk r notes hr hon ha =>
    have hw := h.withStore hs hon ha
    cases r with
    | error e => exact ⟨hw, rfl, rfl⟩
    | ok token => exact ⟨{ hw with turns := hw.turns.insert hk hs }, rfl, rfl⟩

theorem WorldsAlike.transferring (h : WorldsAlike E S w w' v v') (hs : E.stores s)
    (hk : E.handles k) (f : α → Value) {r : Except IoError α × Handle} (hr : r.2.On S) :
    ReactionsAlike E S w w' (v.transferring s k f r) (v'.transferring s k f r) :=
  ⟨h.withHandle hs hk hr, rfl, rfl⟩

end Reactions

/-! ## Steps -/

namespace InStep

/-- What is asked of a store of the estate. -/
theorem stepStore (h : InStep E S w w') (hs : E.stores s) (hon : st.On S E.trail) {r : StoreRequest}
    (hr : r.Of E) :
    ReactionsAlike E S w w' (w.stepStore now s st r) (w'.stepStore now s st r) := by
  have htw := h.files.twins
  cases r with
  | close => exact h.reacting hs _ (htw.close hon now)
  | abandon =>
    have hre := h.reacting hs (fun _ => .done) (htw.abandon hon now)
    exact ⟨hre.worlds.settle hs, hre.answer, hre.notes⟩
  | log text =>
    have hlog := htw.logMessage hon now text
    simp only [World.stepStore]
    generalize st.logMessage w.fs now text = q at hlog ⊢
    generalize st.logMessage w'.fs now text = q' at hlog ⊢
    cases hlog with
    | mk st' hst' ha => exact ⟨h.withStore hs hst' ha, rfl, rfl⟩
  | list kinds =>
    simp only [World.stepStore, htw.list hon]
    exact h.answering _
  | manifest =>
    simp only [World.stepStore, htw.manifest hon]
    exact h.answering _
  | setManifest id => exact h.reacting hs _ (htw.setManifest hon now id)
  | removeFile id => exact h.reacting hs _ (htw.removeFile hon now id)
  | openFile k id =>
    simp only [World.stepStore, h.handles.contains hr]
    split
    · exact h.answering _
    · exact h.receiving hs hr (htw.openFile hon id)
  | createFile k id =>
    simp only [World.stepStore, h.handles.contains hr]
    split
    · exact h.answering _
    · exact h.receiving hs hr (htw.createFile hon id)
  | takeTurn l =>
    simp only [World.stepStore, h.turns.contains hr]
    split
    · exact h.answering _
    · exact h.receivingTurn hs hr (htw.takeTurn hon)

/-- What is asked of a handle of the estate. -/
theorem stepHandle (h : InStep E S w w') (hs : E.stores s) (hk : E.handles k)
    (hon : st.On S E.trail) {y : Handle} (hy : y.On S) (r : HandleRequest) :
    ReactionsAlike E S w w' (w.stepHandle now k s st y r) (w'.stepHandle now k s st y r) := by
  have htw := h.files.twins
  cases r with
  | close =>
    obtain ⟨ho, hsame, hon'⟩ := htw.closeHandle hon hy now
    simp only [World.stepHandle, hsame]
    exact (h.withHandle hs hk hon').reacting hs _ ho
  | abandon =>
    have hgone : WorldsAlike E S w w' { w with handles := w.handles.erase k }
        { w' with handles := w'.handles.erase k } := { h with handles := h.handles.erase hk }
    have hre := hgone.reacting hs (fun _ => .done) (htw.abandonHandle hon y now)
    exact ⟨hre.worlds.settle hs, hre.answer, hre.notes⟩
  | seek m =>
    simp only [World.stepHandle, htw.seekTo hy]
    exact h.transferring hs hk _ (hy.moved (Handle.moved_seek m))
  | read n =>
    simp only [World.stepHandle, htw.read hy]
    exact h.transferring hs hk _ (hy.moved (Handle.moved_read n))
  | readExact n =>
    simp only [World.stepHandle, htw.readExact hy]
    exact h.transferring hs hk _ (hy.moved (Handle.moved_readExact n))
  | readAll =>
    simp only [World.stepHandle, htw.readAll hy]
    exact h.transferring hs hk _ (hy.moved Handle.moved_readAll)
  | readAt pos n =>
    simp only [World.stepHandle, htw.readAtOf hy]
    exact h.answering _
  | readExactAt pos n =>
    simp only [World.stepHandle, htw.readExactAt hy]
    exact h.answering _
  | length =>
    simp only [World.stepHandle, htw.length hy]
    exact h.answering _
  | isEmpty =>
    simp only [World.stepHandle, htw.isEmpty hy]
    exact h.answering _
  | write bytes =>
    obtain ⟨hres, hsame, ha⟩ := htw.write hy bytes
    simp only [World.stepHandle, hres, hsame]
    exact (h.withFiles ha).transferring hs hk _ (hy.moved (Handle.moved_write bytes))
  | flush => exact h.answering _
  | sync =>
    simp only [World.stepHandle, htw.syncFile hy]
    exact h.answering _

/-- The opening of a store of the estate. -/
theorem stepOpen (h : InStep E S w w') (hs : E.stores s) {o : Options} (ho : o.dir = E.trail.path) :
    ReactionsAlike E S w w' (w.stepOpen s o) (w'.stepOpen s o) := by
  have hopen := h.files.twins.open? ho
  unfold World.stepOpen
  generalize Store.open? w.fs o = q at hopen ⊢
  generalize Store.open? w'.fs o = q' at hopen ⊢
  cases hopen with
  | mk r hr ha =>
    cases r with
    | error e => exact (h.withFiles ha).answering _
    | ok st => exact ⟨h.withStore hs hr ha, rfl, rfl⟩

/-- The end of a turn of the estate. -/
theorem stepEndTurn (h : InStep E S w w') (hk : E.turns k) {l : Share Nat}
    (hl : E.stores l.store) : WorldsAlike E S w w' (w.stepEndTurn k l) (w'.stepEndTurn k l) := by
  have hgone : WorldsAlike E S w w' { w with turns := w.turns.erase k }
      { w' with turns := w'.turns.erase k } := { h with turns := h.turns.erase hk }
  unfold World.stepEndTurn
  simp only [hgone.stores.same _ hl]
  cases hst : w.stores.get? l.store with
  | none => exact hgone
  | some st =>
    have hon : st.On S E.trail := h.stores.mine _ _ hl hst
    have hended : (st.endTurn l.value).On S E.trail := by
      unfold Store.endTurn
      split
      · exact ⟨hon.dir, hon.log, hon.lock⟩
      · exact hon
    exact (hgone.withStore hl hended (.refl hgone.files.twins)).settle hl

/-- **An event of the estate has the same outcome in both worlds**, and changes nothing but what
belongs to the estate. -/
theorem step (h : InStep E S w w') (he : e.Of E) :
    ReactionsAlike E S w w' (World.step now w e) (World.step now w' e) := by
  have htw := h.files.twins
  cases e with
  | outside o => exact absurd he id
  | openStore s o =>
    simp only [World.step, h.stores.contains he.1]
    split
    · exact h.answering _
    · exact h.stepOpen he.1 he.2
  | store s r =>
    simp only [World.step, h.stores.same s he.1]
    cases hst : w.stores.get? s with
    | none => exact h.answering _
    | some st =>
      simp only
      split
      · exact h.stepStore he.1 (h.stores.mine s st he.1 hst) he.2
      · exact h.answering _
  | handle k r =>
    simp only [World.step, h.handles.same k he]
    cases hx : w.handles.get? k with
    | none => exact h.answering _
    | some x =>
      obtain ⟨hs, hy⟩ := h.handles.mine k x he hx
      simp only [h.stores.same _ hs]
      cases hst : w.stores.get? x.store with
      | none => exact h.answering _
      | some st =>
        simp only
        split
        · exact h.stepHandle hs he (h.stores.mine _ st hs hst) hy r
        · exact h.answering _
  | endTurn l =>
    simp only [World.step, h.turns.same l he]
    cases hl : w.turns.get? l with
    | none => exact h.answering _
    | some t' => exact (h.stepEndTurn he (h.turns.mine l t' he hl)).answering _
  | acquire l d =>
    obtain ⟨hl, rfl⟩ := he
    have hacq := htw.acquire
    simp only [World.step, h.locks.contains hl]
    split
    · exact h.answering _
    generalize DirLock.acquire w.fs E.trail.path = q at hacq ⊢
    generalize DirLock.acquire w'.fs E.trail.path = q' at hacq ⊢
    cases hacq with
    | mk r hr ha =>
      cases r with
      | error err => exact (h.withFiles ha).answering _
      | ok lock =>
        have hw := h.withFiles ha
        exact ⟨{ hw with locks := hw.locks.insert hl hr }, rfl, rfl⟩
  | release l =>
    simp only [World.step, h.locks.same l he]
    cases hl : w.locks.get? l with
    | none => exact h.answering _
    | some lock =>
      have hw := h.withFiles (htw.unlock (h.locks.mine l lock he hl))
      exact ⟨{ hw with locks := hw.locks.erase he }, rfl, rfl⟩
  | openLog l d rotate =>
    obtain ⟨hl, rfl⟩ := he
    have hstart := htw.start rotate
    simp only [World.step, h.logs.contains hl]
    split
    · exact h.answering _
    generalize SessionLog.start w.fs E.trail.path rotate = q at hstart ⊢
    generalize SessionLog.start w'.fs E.trail.path rotate = q' at hstart ⊢
    cases hstart with
    | mk r hr ha =>
      cases r with
      | error err => exact (h.withFiles ha).answering _
      | ok log =>
        have hw := h.withFiles ha
        exact ⟨{ hw with logs := hw.logs.insert hl hr }, rfl, rfl⟩
  | writeLog l text =>
    simp only [World.step, h.logs.same l he]
    cases hl : w.logs.get? l with
    | none => exact h.answering _
    | some log =>
      have hwrite := htw.writeLog (h.logs.mine l log he hl) now text
      simp only
      generalize log.write w.fs now text = q at hwrite ⊢
      generalize log.write w'.fs now text = q' at hwrite ⊢
      cases hwrite with
      | mk log' hlog' ha =>
        have hw := h.withFiles ha
        exact ⟨{ hw with logs := hw.logs.insert he hlog' }, rfl, rfl⟩
  | closeLog l =>
    simp only [World.step, h.logs.same l he]
    cases hl : w.logs.get? l with
    | none => exact h.answering _
    | some log =>
      simp only [htw.closeLog (h.logs.mine l log he hl)]
      exact ⟨{ h with logs := h.logs.erase he }, rfl, rfl⟩
  | abandonLog l =>
    simp only [World.step, h.logs.same l he]
    cases w.logs.get? l with
    | none => exact h.answering _
    | some log => exact ⟨{ h with logs := h.logs.erase he }, rfl, rfl⟩
  | readManifest d =>
    obtain rfl : d = E.trail.path := he
    simp only [World.step, htw.readManifest]
    exact h.answering _

/-! ## Another estate -/

theorem symm (h : InStep E S w w') : InStep E S w' w where
  files := .refl h.files.twins.symm
  stores := h.stores.symm
  handles := h.handles.symm
  turns := h.turns.symm
  locks := h.locks.symm
  logs := h.logs.symm

theorem diag (h : InStep E S w w') : InStep E S w w where
  files := .refl (.refl h.files.twins.left)
  stores := h.stores.diag
  handles := h.handles.diag
  turns := h.turns.diag
  locks := h.locks.diag
  logs := h.logs.diag

end InStep

/-- No number belongs to both estates. -/
structure Estate.Disjoint (E E₁ : Estate) : Prop where
  stores : ∀ k, E.stores k → ¬E₁.stores k
  handles : ∀ k, E.handles k → ¬E₁.handles k
  turns : ∀ k, E.turns k → ¬E₁.turns k
  locks : ∀ k, E.locks k → ¬E₁.locks k
  logs : ∀ k, E.logs k → ¬E₁.logs k

theorem Estate.Disjoint.symm (h : E.Disjoint E₁) : E₁.Disjoint E where
  stores k h₁ h₀ := h.stores k h₀ h₁
  handles k h₁ h₀ := h.handles k h₀ h₁
  turns k h₁ h₀ := h.turns k h₀ h₁
  locks k h₁ h₀ := h.locks k h₀ h₁
  logs k h₁ h₀ := h.logs k h₀ h₁

/-- Nothing of the estate `E`, with the plot `S`, belongs to the estate `E₁`, with the plot `S₁`,
nor does the way to it lead through there. -/
structure Estate.Apart (E : Estate) (S : NodeId → Prop) (E₁ : Estate) (S₁ : NodeId → Prop) :
    Prop where
  numbers : E.Disjoint E₁
  plots : ∀ i, S i → ¬S₁ i
  way : ∀ i, i = root ∨ i ∈ E.trail.map Prod.snd → ¬S₁ i

/-- **What happens to another estate makes no difference.** -/
theorem InStep.beside (h : InStep E S w w') (h₁ : WorldsAlike E₁ S₁ w w v v)
    (ha : E.Apart S E₁ S₁) : InStep E S v w' := by
  have htw := h.files.twins
  have hconf : Confined S₁ w.fs v.fs := h₁.files.left
  refine ⟨.refl ⟨?_, htw.right, htw.agree.confined hconf ha.plots⟩, ?_, ?_, ?_, ?_, ?_⟩
  · exact htw.left.confined hconf h₁.files.twins.left.sound ha.plots ha.way
  · exact h.stores.beside h₁.stores ha.numbers.stores fun _ _ => trivial
  · exact h.handles.beside h₁.handles ha.numbers.handles fun y hy hs =>
      ha.numbers.stores _ hs hy.1
  · exact h.turns.beside h₁.turns ha.numbers.turns fun y hy hs => ha.numbers.stores _ hs hy
  · exact h.locks.beside h₁.locks ha.numbers.locks fun _ _ => trivial
  · exact h.logs.beside h₁.logs ha.numbers.logs fun _ _ => trivial

/-! ## Runs of two estates -/

/-- An event and the time that the clock shows then; `ours` when it is one of the estate that is
looked at. -/
structure Act where
  ours : Bool
  now : Clock.Reading
  event : Event

namespace World

/-- The world after some acts. -/
def acted (w : World) (acts : List Act) : World := w.run (acts.map fun a => (a.now, a.event))

/-- What those who own the estate are answered and told, act by act. -/
def heard (w : World) : List Act → List (Except Failure Value × List Note)
  | [] => []
  | a :: rest =>
    let r := step a.now w a.event
    if a.ours then (r.answer, r.notes) :: r.world.heard rest else r.world.heard rest

/-- What belongs to the estate is the same in both worlds: the stores, the handles, the turns, the
locks and the logs, and all that the directory holds, which is where it was. -/
structure SameAt (E : Estate) (w w' : World) : Prop where
  stores : ∀ k, E.stores k → w'.stores.get? k = w.stores.get? k
  handles : ∀ k, E.handles k → w'.handles.get? k = w.handles.get? k
  turns : ∀ k, E.turns k → w'.turns.get? k = w.turns.get? k
  locks : ∀ k, E.locks k → w'.locks.get? k = w.locks.get? k
  logs : ∀ k, E.logs k → w'.logs.get? k = w.logs.get? k
  stands : E.trail.Stands w.fs ∧ E.trail.Stands w'.fs
  below : ∀ i, Below w'.fs E.trail.here i ↔ Below w.fs E.trail.here i
  node : ∀ i, Below w.fs E.trail.here i →
    w'.fs.node? i = w.fs.node? i ∧ (i ∈ w'.fs.locked ↔ i ∈ w.fs.locked)

end World

theorem InStep.sameAt (h : InStep E S w w') : World.SameAt E w w' where
  stores := h.stores.same
  handles := h.handles.same
  turns := h.turns.same
  locks := h.locks.same
  logs := h.logs.same
  stands := ⟨h.files.twins.left.stands, h.files.twins.right.stands⟩
  below i := (h.files.twins.below_iff i).1
  node i := (h.files.twins.below_iff i).2

/-- A run of two estates, and the acts of the first one alone. -/
theorem InStep.acted {acts : List Act} (h : InStep E S w w') (h₁ : InStep E₁ S₁ w w)
    (ha : E.Apart S E₁ S₁) (ha₁ : E₁.Apart S₁ E S)
    (hacts : ∀ a ∈ acts, a.event.Of (if a.ours then E else E₁)) :
    w'.heard (acts.filter Act.ours) = w.heard acts ∧
      InStep E S (w.acted acts) (w'.acted (acts.filter Act.ours)) := by
  induction acts generalizing w w' with
  | nil => exact ⟨rfl, h⟩
  | cons a acts ih =>
    have hrest : ∀ b ∈ acts, b.event.Of (if b.ours then E else E₁) := fun b hb =>
      hacts b (List.mem_cons_of_mem a hb)
    have hev := hacts a List.mem_cons_self
    cases hours : a.ours with
    | true =>
      rw [hours, if_pos rfl] at hev
      have hr : ReactionsAlike E S w w' (World.step a.now w a.event)
          (World.step a.now w' a.event) := h.step hev
      have hd : ReactionsAlike E S w w (World.step a.now w a.event)
          (World.step a.now w a.event) := h.diag.step hev
      -- to the other estate this happens outside
      have hout := (h₁.beside hd.worlds ha₁).symm.beside hd.worlds ha₁
      obtain ⟨hheard, hpair⟩ := ih hr.worlds.refl hout hrest
      rw [List.filter_cons_of_pos hours]
      refine ⟨?_, hpair⟩
      simp only [World.heard, hours, if_true, hr.answer, hr.notes, hheard]
    | false =>
      rw [hours, if_neg Bool.false_ne_true] at hev
      have hr : ReactionsAlike E₁ S₁ w w (World.step a.now w a.event)
          (World.step a.now w a.event) := h₁.step hev
      obtain ⟨hheard, hpair⟩ := ih (h.beside hr.worlds ha) hr.worlds.refl hrest
      rw [List.filter_cons_of_neg (by simp [hours])]
      refine ⟨?_, hpair⟩
      simp only [World.heard, hours, Bool.false_eq_true, if_false, hheard]

theorem InStep.ofFileSystem {fs : FileSystem} (hp : Plot S E.trail fs) :
    InStep E S (.ofFileSystem fs) (.ofFileSystem fs) where
  files := .refl (.refl hp)
  stores := .empty _ _ _
  handles := .empty _ _ _
  turns := .empty _ _ _
  locks := .empty _ _ _
  logs := .empty _ _ _

/-- **Directories, neither inside the other, do not interfere.** Let the acts on the one directory
and those on the other follow each other in any order. Then whoever works on the first one is
answered and told the same as if there were only the acts on that one, and finds the same there in
the end. As the acts keep their times, not even the stamps in the log differ. -/
theorem World.heard_apart {fs : FileSystem} {acts : List Act} (hs : fs.Sound)
    (ht : E.trail.Stands fs) (ht₁ : E₁.trail.Stands fs)
    (hout : ¬Below fs E.trail.here E₁.trail.here) (hout₁ : ¬Below fs E₁.trail.here E.trail.here)
    (hshare : ∀ i, Below fs E.trail.here i → Below fs E₁.trail.here i → fs.isDirectory i = true)
    (hl : ∀ n, NoLink fs E.trail.here n) (hl₁ : ∀ n, NoLink fs E₁.trail.here n)
    (hE : E.Disjoint E₁) (hacts : ∀ a ∈ acts, a.event.Of (if a.ours then E else E₁)) :
    (ofFileSystem fs).heard acts = (ofFileSystem fs).heard (acts.filter Act.ours) ∧
      SameAt E ((ofFileSystem fs).acted acts)
        ((ofFileSystem fs).acted (acts.filter Act.ours)) := by
  have ha : E.Apart (E.trail.plot fs) E₁ (E₁.trail.plot fs) :=
    ⟨hE, fun i => ht.plots_apart hs ht₁ hout hout₁ hshare, fun i => ht.way_apart hs hout₁⟩
  have ha₁ : E₁.Apart (E₁.trail.plot fs) E (E.trail.plot fs) :=
    ⟨hE.symm, fun i => ht₁.plots_apart hs ht hout₁ hout fun i h₁ h => hshare i h h₁,
      fun i => ht₁.way_apart hs hout⟩
  have hp : InStep E (E.trail.plot fs) (ofFileSystem fs) (ofFileSystem fs) :=
    .ofFileSystem (ht.plot hs hl)
  have hp₁ : InStep E₁ (E₁.trail.plot fs) (ofFileSystem fs) (ofFileSystem fs) :=
    .ofFileSystem (ht₁.plot hs hl₁)
  obtain ⟨hheard, hpair⟩ := hp.acted hp₁ ha ha₁ hacts
  exact ⟨hheard.symm, hpair.sameAt⟩

/-! ## Two stores side by side -/

/-- What is below a directory is in every list of nodes that holds it and the entries of each. -/
theorem Below.mem_of_entries {fs : FileSystem} {D i : NodeId} {S : List NodeId} (h : Below fs D i)
    (hD : D ∈ S) (he : ∀ j ∈ S, (fs.directory? j).all (fun d => d.entries.entries.all fun e =>
      decide (e.2 ∈ S)) = true) : i ∈ S := by
  induction h with
  | here => exact hD
  | entry _ hl ih =>
    exact of_decide_eq_true (of_all_entries (p := fun k => decide (k ∈ S)) (he _ ih) hl)

/-- Nothing is below `/db` but itself, nor is there below `/eb`. -/
theorem below_duplex {t : Trail} (ht : t = .toDb ∨ t = .toEb) {i : NodeId}
    (h : Below .duplex t.here i) : i = t.here := by
  rcases ht with rfl | rfl <;>
    exact List.mem_singleton.1 (h.mem_of_entries (List.mem_singleton_self _) (by decide +kernel))

/-- All things of a directory have the same number. -/
def Estate.numbered (t : Trail) (k : Nat) : Estate :=
  ⟨t, (· = k), (· = k), (· = k), (· = k), (· = k)⟩

theorem Estate.numbered_disjoint (t t₁ : Trail) {k k₁ : Nat} (hk : k ≠ k₁) :
    (numbered t k).Disjoint (numbered t₁ k₁) := by
  have hne : ∀ j, j = k → ¬j = k₁ := by
    rintro j rfl
    exact hk
  exact ⟨hne, hne, hne, hne, hne⟩

/-- A manifest of `/db` is published while a file of `/eb` is written, whose owners then let go of
everything. -/
def neighbours : List Act :=
  [⟨true, ⟨⟨0, 0⟩, 0⟩, .openStore 0 { dir := Utf8.encode ['/', 'd', 'b'] }⟩,
    ⟨false, ⟨⟨1, 0⟩, 0⟩, .openStore 1 { dir := Utf8.encode ['/', 'e', 'b'] }⟩,
    ⟨false, ⟨⟨2, 0⟩, 0⟩, .store 1 (.createFile 1 ⟨.table, 1⟩)⟩,
    ⟨true, ⟨⟨3, 0⟩, 0⟩, .store 0 (.setManifest ⟨.manifest, 7⟩)⟩,
    ⟨false, ⟨⟨4, 0⟩, 0⟩, .handle 1 (.write [1, 2, 3])⟩,
    ⟨false, ⟨⟨5, 0⟩, 0⟩, .store 1 .abandon⟩,
    ⟨true, ⟨⟨6, 0⟩, 0⟩, .store 0 .manifest⟩,
    ⟨false, ⟨⟨7, 0⟩, 0⟩, .handle 1 .abandon⟩,
    ⟨true, ⟨⟨8, 0⟩, 0⟩, .store 0 (.list KindSet.all)⟩]

theorem neighbours_of : ∀ a ∈ neighbours,
    a.event.Of (if a.ours then .numbered .toDb 0 else .numbered .toEb 1) := by
  simp only [neighbours, List.forall_mem_cons]
  exact ⟨⟨rfl, by decide⟩, ⟨rfl, by decide⟩, ⟨rfl, rfl⟩, ⟨rfl, trivial⟩, rfl, ⟨rfl, trivial⟩,
    ⟨rfl, trivial⟩, rfl, ⟨rfl, trivial⟩, fun _ h => by cases h⟩

/-- The owner of `/db` reads the manifest that it published and finds no file but its own, and the
store of `/eb` has come and gone. -/
theorem heard_apart_neighbours :
    ((World.ofFileSystem .duplex).heard neighbours =
        (World.ofFileSystem .duplex).heard (neighbours.filter Act.ours) ∧
      World.SameAt (.numbered .toDb 0) ((World.ofFileSystem .duplex).acted neighbours)
        ((World.ofFileSystem .duplex).acted (neighbours.filter Act.ours))) ∧
      ((World.ofFileSystem .duplex).heard neighbours).map (fun r => r.1.toOption) =
        [some .done, some .done, some (.id ⟨.manifest, 7⟩), some (.ids [])] ∧
      (((World.ofFileSystem .duplex).acted neighbours).stores.get? 1).map Store.leaked =
        some 1 := by
  have hlink : ∀ i n, NoLink .duplex i n := noLink_of_all (by decide)
  have hdb : Trail.toDb.Stands .duplex := ⟨by decide, by decide, trivial⟩
  have heb : Trail.toEb.Stands .duplex := ⟨by decide, by decide, trivial⟩
  have hnumbers := Estate.numbered_disjoint .toDb .toEb Nat.zero_ne_one
  refine ⟨World.heard_apart duplex_sound hdb heb ?_ ?_ ?_ (hlink _) (hlink _) hnumbers
    neighbours_of, by decide +kernel, by decide +kernel⟩
  · intro hb
    exact absurd (below_duplex (Or.inl rfl) hb) (by decide)
  · intro hb
    exact absurd (below_duplex (Or.inr rfl) hb) (by decide)
  · intro i hb _
    rw [below_duplex (Or.inl rfl) hb]
    decide

/-- What others do with `/db` makes a difference to who works in `/eb`, though neither directory is
inside the other and neither holds a link. Who works in `/eb` may see that directories are moved, but
no entry of theirs is touched by that. -/
structure World.Interferes (fs : FileSystem) (acts : List Act) : Prop where
  sound : fs.Sound
  stands : Trail.toDb.Stands fs ∧ Trail.toEb.Stands fs
  outside : ¬Below fs Trail.toDb.here Trail.toEb.here ∧ ¬Below fs Trail.toEb.here Trail.toDb.here
  noLink : ∀ i n, NoLink fs i n
  events : ∀ k (hk : k < acts.length),
    acts[k].event.Of (if acts[k].ours then .numbered .toEb 1 else .numbered .toDb 0) ∨
      acts[k].ours = true ∧
        (∀ n, Stays Trail.toDb.here n ((ofFileSystem fs).acted (acts.take k)).fs
          ((ofFileSystem fs).acted (acts.take (k + 1))).fs) ∧
        ∀ n, Stays Trail.toEb.here n ((ofFileSystem fs).acted (acts.take k)).fs
          ((ofFileSystem fs).acted (acts.take (k + 1))).fs
  heard : (ofFileSystem fs).heard acts ≠ (ofFileSystem fs).heard (acts.filter Act.ours)

/-- Answers that differ are heard. -/
theorem World.heard_ne {w : World} {acts acts' : List Act}
    (h : (w.heard acts).map (fun r => r.1.toOption) ≠ (w.heard acts').map fun r => r.1.toOption) :
    w.heard acts ≠ w.heard acts' := fun he => h (congrArg _ he)

/-- A table of `/db` is a table of `/eb` as well. -/
def FileSystem.sharing : FileSystem :=
  (duplex.make Trail.toDb.here (Utf8.ofText "000001.sst") (.file [1, 2])).bind Trail.toEb.here
    (Utf8.ofText "000001.sst") (Trail.toDb.here.child 0)

theorem sharing_sound : FileSystem.sharing.Sound := by
  have htable : Nameable "000001.sst".toList :=
    nameable_of_name? (rfl : FileId.name? ⟨.table, 1⟩ = some "000001.sst".toList)
  have hmade : (duplex.make Trail.toDb.here (Utf8.ofText "000001.sst") (.file [1, 2])).Sound :=
    Change.sound (c := .make Trail.toDb.here (Utf8.ofText "000001.sst") (.file [1, 2]))
      ⟨by decide, htable.proper, htable.length_le, rfl, trivial⟩ duplex_sound
  exact hmade.link (by decide +kernel) htable.proper htable.length_le (b := [1, 2])
    (by decide +kernel)

/-- The table is open for reading when the other store makes it anew. -/
def remaking : List Act :=
  [⟨true, ⟨⟨0, 0⟩, 0⟩, .openStore 1 { dir := Trail.toEb.path }⟩,
    ⟨true, ⟨⟨0, 0⟩, 0⟩, .store 1 (.openFile 1 ⟨.table, 1⟩)⟩,
    ⟨false, ⟨⟨0, 0⟩, 0⟩, .openStore 0 { dir := Trail.toDb.path }⟩,
    ⟨false, ⟨⟨0, 0⟩, 0⟩, .store 0 (.createFile 0 ⟨.table, 1⟩)⟩,
    ⟨true, ⟨⟨0, 0⟩, 0⟩, .handle 1 (.readAt 0 2)⟩]

theorem remaking_of : ∀ a ∈ remaking,
    a.event.Of (if a.ours then .numbered .toEb 1 else .numbered .toDb 0) := by
  simp only [remaking, List.forall_mem_cons]
  exact ⟨⟨rfl, rfl⟩, ⟨rfl, rfl⟩, ⟨rfl, rfl⟩, ⟨rfl, rfl⟩, rfl, fun _ h => by cases h⟩

/-- `/eb` is at `/db` for a while, and the other store makes a table then. -/
def swapping : List Act :=
  [⟨true, ⟨⟨0, 0⟩, 0⟩, .openStore 1 { dir := Trail.toEb.path }⟩,
    ⟨false, ⟨⟨0, 0⟩, 0⟩, .openStore 0 { dir := Trail.toDb.path }⟩,
    ⟨true, ⟨⟨0, 0⟩, 0⟩, .outside (.rename (Utf8.ofText "/db") (Utf8.ofText "/moved"))⟩,
    ⟨true, ⟨⟨0, 0⟩, 0⟩, .outside (.rename (Utf8.ofText "/eb") (Utf8.ofText "/db"))⟩,
    ⟨false, ⟨⟨0, 0⟩, 0⟩, .store 0 (.createFile 0 ⟨.table, 1⟩)⟩,
    ⟨true, ⟨⟨0, 0⟩, 0⟩, .outside (.rename (Utf8.ofText "/db") (Utf8.ofText "/eb"))⟩,
    ⟨true, ⟨⟨0, 0⟩, 0⟩, .store 1 (.list KindSet.all)⟩]

/-- **Directories can interfere** that share a file, or that are moved. -/
theorem apart_interferes :
    ((∀ a ∈ remaking, a.event.Of (if a.ours then .numbered .toEb 1 else .numbered .toDb 0)) ∧
      World.Interferes .sharing remaking) ∧
    ((∀ i, Below .duplex Trail.toDb.here i → Below .duplex Trail.toEb.here i →
        FileSystem.duplex.isDirectory i = true) ∧
      World.Interferes .duplex swapping) := by
  have hdb : ∀ i, Below .sharing Trail.toDb.here i →
      i ∈ [Trail.toDb.here, Trail.toDb.here.child 0] := fun i hi =>
    hi.mem_of_entries (by decide) (by decide +kernel)
  have heb : ∀ i, Below .sharing Trail.toEb.here i →
      i ∈ [Trail.toEb.here, Trail.toDb.here.child 0] := fun i hi =>
    hi.mem_of_entries (by decide) (by decide +kernel)
  refine ⟨⟨remaking_of, ?_⟩, fun i hi _ => ?_, ?_⟩
  · exact {
      sound := sharing_sound
      stands := ⟨⟨by decide +kernel, by decide +kernel, trivial⟩,
        ⟨by decide +kernel, by decide +kernel, trivial⟩⟩
      outside := ⟨fun hb => absurd (hdb _ hb) (by decide), fun hb => absurd (heb _ hb) (by decide)⟩
      noLink := noLink_of_all (by decide +kernel)
      events := fun k hk => Or.inl (remaking_of _ (List.getElem_mem hk))
      heard := World.heard_ne (by decide +kernel) }
  · rw [below_duplex (Or.inl rfl) hi]
    decide
  · exact {
      sound := duplex_sound
      stands := ⟨⟨by decide, by decide, trivial⟩, ⟨by decide, by decide, trivial⟩⟩
      outside := ⟨fun hb => absurd (below_duplex (Or.inl rfl) hb) (by decide),
        fun hb => absurd (below_duplex (Or.inr rfl) hb) (by decide)⟩
      noLink := noLink_of_all (by decide +kernel)
      events := by
        intro k hk
        match k, hk with
        | 0, _ => exact Or.inl ⟨rfl, rfl⟩
        | 1, _ => exact Or.inl ⟨rfl, rfl⟩
        | 2, _ =>
          exact Or.inr ⟨rfl, stays_of_entries (by decide +kernel) (by decide +kernel),
            stays_of_entries (by decide +kernel) (by decide +kernel)⟩
        | 3, _ =>
          exact Or.inr ⟨rfl, stays_of_entries (by decide +kernel) (by decide +kernel),
            stays_of_entries (by decide +kernel) (by decide +kernel)⟩
        | 4, _ => exact Or.inl ⟨rfl, rfl⟩
        | 5, _ =>
          exact Or.inr ⟨rfl, stays_of_entries (by decide +kernel) (by decide +kernel),
            stays_of_entries (by decide +kernel) (by decide +kernel)⟩
        | 6, _ => exact Or.inl ⟨rfl, trivial⟩
      heard := World.heard_ne (by decide +kernel) }

end EngineDir
