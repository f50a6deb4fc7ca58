import EngineDir.Proofs.OneOwner
import EngineDir.Proofs.OpenTable

/-!
# How long a store has its lock

A store has its lock while its owner has it open. If the owner lets go of it while
files are open, the lock stays until the last handle and the last turn are gone.

* `World.Life`: how far a store has come. `World.Shared`: whether a handle or a turn of it
  is left. `World.LeftOpen`: whether its owner let go of it while files were open.
* `World.Course`: all that a move can do to a store's life.
* `World.LifeOK`: what holds of a store's life; `World.step_lifeOK`: **every step keeps it.**
* `run_lockLifetime`: **who has a store's lock, and for how long, in every run.**
-/

namespace EngineDir

/-- Whether anything in the table belongs to the store `k`. -/
def Sharing {α : Type} (t : Table Nat (Share α)) (k : Nat) : Prop := ∃ i v, t.get? i = some ⟨k, v⟩

section Sharing

variable {α : Type} {t : Table Nat (Share α)} {i s k : Nat} {v v' : α}

theorem anyShare_iff : World.anyShare t k = true ↔ Sharing t k := by
  unfold World.anyShare Sharing
  rw [List.any_eq_true]
  constructor
  · rintro ⟨⟨i, s, v⟩, hm, hs⟩
    obtain rfl : s = k := by simpa using hs
    exact ⟨i, v, (Table.mem_entries_iff _ _ _).1 hm⟩
  · rintro ⟨i, v, hv⟩
    exact ⟨(i, ⟨k, v⟩), (Table.mem_entries_iff _ _ _).2 hv, by simp⟩

/-- A change of what is there. -/
theorem sharing_insert (h : t.get? i = some ⟨s, v⟩) :
    Sharing (t.insert i ⟨s, v'⟩) k ↔ Sharing t k := by
  constructor
  · rintro ⟨j, u, hu⟩
    rw [Table.get?_insert] at hu
    split at hu
    · cases hu
      exact ⟨i, v, h⟩
    · exact ⟨j, u, hu⟩
  · rintro ⟨j, u, hu⟩
    by_cases hj : j = i
    · subst hj
      rw [h] at hu
      cases hu
      exact ⟨j, v', Table.get?_insert_self _ _ _⟩
    · exact ⟨j, u, by rw [Table.get?_insert_of_ne _ _ hj, hu]⟩

/-- Something new of another store. -/
theorem sharing_insert_of_ne (h : t.get? i = none) (hk : k ≠ s) :
    Sharing (t.insert i ⟨s, v⟩) k ↔ Sharing t k := by
  constructor
  · rintro ⟨j, u, hu⟩
    rw [Table.get?_insert] at hu
    split at hu
    · cases hu
      exact absurd rfl hk
    · exact ⟨j, u, hu⟩
  · rintro ⟨j, u, hu⟩
    have hj : j ≠ i := by
      rintro rfl
      rw [h] at hu
      cases hu
    exact ⟨j, u, by rw [Table.get?_insert_of_ne _ _ hj, hu]⟩

/-- Something goes. -/
theorem Sharing.of_erase (h : Sharing (t.erase i) k) : Sharing t k := by
  obtain ⟨j, u, hu⟩ := h
  rw [Table.get?_erase] at hu
  split at hu
  · cases hu
  · exact ⟨j, u, hu⟩

/-- Something of another store goes. -/
theorem sharing_erase_of_ne (h : t.get? i = some ⟨s, v⟩) (hk : k ≠ s) :
    Sharing (t.erase i) k ↔ Sharing t k := by
  refine ⟨Sharing.of_erase, ?_⟩
  rintro ⟨j, u, hu⟩
  have hj : j ≠ i := by
    rintro rfl
    rw [h] at hu
    cases hu
    exact hk rfl
  exact ⟨j, u, by rw [Table.get?_erase_of_ne _ hj, hu]⟩

end Sharing

namespace World

variable {w w' : World} {e : Event} {a : Except Failure Value} {s k : Nat} {st st' : Store}

/-! ## Lives -/

/-- How far a store has come: whether its owner still has it, whether its session is over, and
whether it has its lock. -/
structure Life where
  owned : Bool
  closed : Bool
  locked : Bool
  deriving DecidableEq

def lifeOf (st : Store) : Life := ⟨st.owned, st.closed, st.lock.isSome⟩

/-- The life of the store `s`, if there is one. -/
def life (w : World) (s : Nat) : Option Life := (w.stores.get? s).map lifeOf

/-- Whether a handle, open or closed, or a turn of the store `s` is left. -/
def Shared (w : World) (s : Nat) : Prop := Sharing w.handles s ∨ Sharing w.turns s

/-- The owner of the store `s` lets go of it before the session is over, while a handle is open. -/
def LeavesOpen (w : World) (s : Nat) (e : Event) : Prop :=
  e = .store s .abandon ∧ (∃ st, w.stores.get? s = some st ∧ st.owned = true ∧ st.closed = false) ∧
    ∃ h x, w.handles.get? h = some ⟨s, x⟩ ∧ x.isClosed = false

/-- This happened in the run `es`. -/
def LeftOpen (w₀ : World) (s : Nat) (es : List (Clock.Reading × Event)) : Prop :=
  ∃ pre now e suf, es = pre ++ (now, e) :: suf ∧ (w₀.run pre).LeavesOpen s e

/-- What a move does to the life of the store `k`. -/
inductive Course (k : Nat) (w : World) (e : Event) (w' : World) : Prop
  | kept (hl : w'.life k = w.life k) (hs : w'.Shared k ↔ w.Shared k)
      (hn : w'.openIds k ≠ [] → w.openIds k ≠ []) (he : ¬w.LeavesOpen k e)
  | absent (h : w.life k = none) (h' : w'.life k = none) (he : ¬w.LeavesOpen k e)
  | born (h : w.life k = none) (h' : w'.life k = some ⟨true, false, true⟩) (he : ¬w.LeavesOpen k e)
  /-- There is one more handle or turn. -/
  | granted {b : Bool} (h : w.life k = some ⟨true, false, b⟩)
      (h' : w'.life k = some ⟨true, false, b⟩) (he : ¬w.LeavesOpen k e)
  | closed {b : Bool} (h : w.life k = some ⟨true, false, b⟩)
      (h' : w'.life k = some ⟨true, true, false⟩) (hn : w'.openIds k = []) (he : ¬w.LeavesOpen k e)
  /-- The owner lets go of the store after its session. -/
  | left {b b' : Bool} (h : w.life k = some ⟨true, true, b⟩)
      (h' : w'.life k = some ⟨false, true, b'⟩) (hb : b' = true → b = true)
      (hn : w'.openIds k ≠ [] → w.openIds k ≠ []) (he : ¬w.LeavesOpen k e)
  /-- The owner lets go of the store while files are open. -/
  | lingers {b : Bool} (h : w.life k = some ⟨true, false, b⟩)
      (h' : w'.life k = some ⟨false, true, b⟩) (hs : w'.Shared k) (he : w.LeavesOpen k e)
  /-- The owner lets go of the store while no file is open. -/
  | ended {b : Bool} (h : w.life k = some ⟨true, false, b⟩)
      (h' : w'.life k = some ⟨false, true, false⟩) (hn : w'.openIds k = []) (he : ¬w.LeavesOpen k e)
  /-- A handle or a turn goes. -/
  | settled {o c b b' : Bool} (h : w.life k = some ⟨o, c, b⟩) (h' : w'.life k = some ⟨o, c, b'⟩)
      (hb : b' = true ↔ b = true ∧ (o = true ∨ w'.Shared k)) (hs : w'.Shared k → w.Shared k)
      (hn : w'.openIds k ≠ [] → w.openIds k ≠ []) (he : ¬w.LeavesOpen k e)

theorem life_of_get? (hs : w.stores.get? s = some st) : w.life s = some (lifeOf st) := by
  simp [life, hs]

theorem life_insert_of_ne (hw : w'.stores = w.stores.insert s st) (hk : k ≠ s) :
    w'.life k = w.life k := by
  simp only [life, hw, Table.get?_insert_of_ne _ _ hk]

theorem life_insert_self (hw : w'.stores = w.stores.insert s st) :
    w'.life s = some (lifeOf st) := by
  simp [life, hw]

/-- The life of a store that its owner has. -/
theorem life_of_owned {c : Bool} (hs : w.stores.get? s = some st) (ho : st.owned = true)
    (hc : st.closed = c) : w.life s = some ⟨true, c, st.lock.isSome⟩ := by
  rw [life_of_get? hs, lifeOf, ho, hc]

theorem life_insert (hs : w.stores.get? s = some st) (hw : w'.stores = w.stores.insert s st')
    (hst : lifeOf st' = lifeOf st) (k : Nat) : w'.life k = w.life k := by
  by_cases hk : k = s
  · subst hk
    rw [life_insert_self hw, life_of_get? hs, hst]
  · exact life_insert_of_ne hw hk

/-- No files are opened when those of one store get fewer. -/
theorem openIds_insert_ne_nil (hs : w.stores.get? s = some st)
    (hw : w'.stores = w.stores.insert s st') (hids : st'.openIds ≠ [] → st.openIds ≠ []) (k : Nat)
    (hn : w'.openIds k ≠ []) : w.openIds k ≠ [] := by
  rw [openIds_insert hw] at hn
  split at hn
  · rename_i hk
    rw [hk, openIds_of_get? hs]
    exact hids hn
  · exact hn

theorem shared_congr (hh : w'.handles = w.handles) (ht : w'.turns = w.turns) :
    w'.Shared k ↔ w.Shared k := by
  rw [Shared, Shared, hh, ht]

theorem isShared_iff : w.isShared s st = true ↔ st.owned = true ∨ w.Shared s := by
  simp only [isShared, Bool.or_eq_true, anyShare_iff, Shared, or_assoc]

@[simp] theorem shared_settle : (w.settle s).Shared k ↔ w.Shared k :=
  shared_congr handles_settle turns_settle

theorem life_settle_of_ne (hk : k ≠ s) : (w.settle s).life k = w.life k := by
  rcases w.settle_cases s with h | ⟨st, hs, -, h⟩
  · rw [h]
  · rw [h]
    exact life_insert_of_ne rfl hk

/-- A store in which nobody has a share loses its lock. -/
theorem life_settle {o c b : Bool} (h : w.life s = some ⟨o, c, b⟩) :
    ∃ b', (w.settle s).life s = some ⟨o, c, b'⟩ ∧
      (b' = true ↔ b = true ∧ (o = true ∨ w.Shared s)) := by
  obtain ⟨st, hs, hst⟩ := Option.map_eq_some_iff.1 h
  obtain ⟨rfl, rfl, rfl⟩ : st.owned = o ∧ st.closed = c ∧ st.lock.isSome = b := by
    simpa [lifeOf] using hst
  unfold settle
  simp only [hs]
  split
  · rename_i hsh
    exact ⟨st.lock.isSome, h, by rw [← isShared_iff]; simp [hsh]⟩
  · rename_i hsh
    refine ⟨false, ?_, by rw [← isShared_iff]; simp [hsh]⟩
    exact @life_insert_self _ _ _ st.vacated rfl

/-! ## Single moves -/

theorem not_leavesOpen (h : e ≠ .store k .abandon) : ¬w.LeavesOpen k e := fun hl => h hl.1

theorem idle_leavesOpen (hi : Idle w e a) : ¬w.LeavesOpen k e := by
  rintro ⟨rfl, ⟨st, hs, ho, -⟩, -⟩
  have hno : st.owned = false := hi st hs
  rw [ho] at hno
  cases hno

/-- A store lists an open file when one of its handles is open. -/
theorem openIds_ne_nil (hp : (w.openIds k).Perm (unclosedIds w.handles k)) :
    w.openIds k ≠ [] ↔ ∃ h x, w.handles.get? h = some ⟨k, x⟩ ∧ x.isClosed = false := by
  constructor
  · intro hne
    obtain ⟨id, hid⟩ := List.exists_mem_of_ne_nil _ hne
    obtain ⟨h, x, hh, hx, -⟩ := mem_unclosedIds.1 (hp.mem_iff.1 hid)
    exact ⟨h, x, hh, hx⟩
  · rintro ⟨h, x, hh, hx⟩
    exact List.ne_nil_of_mem (hp.mem_iff.2 (mem_unclosedIds.2 ⟨h, x, hh, hx, rfl⟩))

/-- A move that changes another store. -/
theorem course_other (hw : w'.stores = w.stores.insert s st) (hk : k ≠ s)
    (hsh : w'.Shared k ↔ w.Shared k) (he : ¬w.LeavesOpen k e) : Course k w e w' := by
  refine .kept (life_insert_of_ne hw hk) hsh (fun hn => ?_) he
  rw [openIds_insert hw, if_neg hk] at hn
  exact hn

/-- A move that leaves the life of every store. -/
theorem course_kept (hs : w.stores.get? s = some st) (hw : w'.stores = w.stores.insert s st')
    (hst : lifeOf st' = lifeOf st) (hids : st'.openIds ≠ [] → st.openIds ≠ [])
    (hsh : w'.Shared k ↔ w.Shared k) (he : ¬w.LeavesOpen k e) : Course k w e w' :=
  .kept (life_insert hs hw hst k) hsh (openIds_insert_ne_nil hs hw hids k) he

/-- The store `s`, which is in use, gives a handle or a turn. -/
theorem course_granted (hs : w.stores.get? s = some st) (ho : st.owned = true)
    (hc : st.closed = false) (hw : w'.stores = w.stores.insert s st') (hst : lifeOf st' = lifeOf st)
    (hsh : k ≠ s → (w'.Shared k ↔ w.Shared k)) (he : ¬w.LeavesOpen k e) : Course k w e w' := by
  by_cases hk : k = s
  · subst hk
    have hlife := life_of_owned hs ho hc
    exact .granted hlife ((life_insert hs hw hst k).trans hlife) he
  · exact course_other hw hk (hsh hk) he

/-- A share of the store `s` goes, and the store is settled. -/
theorem course_settle {w₁ : World} (hl : w₁.life k = w.life k) (hsh : w₁.Shared k → w.Shared k)
    (hne : k ≠ s → (w₁.Shared k ↔ w.Shared k)) (hn : w₁.openIds k ≠ [] → w.openIds k ≠ [])
    (he : ¬w.LeavesOpen k e) : Course k w e (w₁.settle s) := by
  -- only the store that is settled can lose its lock by it
  by_cases hk : k = s
  · subst hk
    cases hlife : w.life k with
    | none =>
      have hnone : w₁.stores.get? k = none := by
        rw [hlife] at hl
        exact Option.map_eq_none_iff.1 hl
      have hst : w₁.settle k = w₁ := by
        unfold settle
        rw [hnone]
      rw [hst]
      exact .absent hlife (hl.trans hlife) he
    | some life =>
      obtain ⟨o, c, b⟩ := life
      obtain ⟨b', h', hb⟩ := life_settle (hl.trans hlife)
      refine .settled hlife h' ?_ (fun h => hsh (shared_settle.1 h)) ?_ he
      · rw [shared_settle]; exact hb
      · rw [openIds_settle]; exact hn
  · refine .kept ?_ (shared_settle.trans (hne hk)) ?_ he
    · rw [life_settle_of_ne hk, hl]
    · rw [openIds_settle]; exact hn

/-- A handle or a turn of the store `s` goes, which is then settled. -/
theorem course_gone {w₁ : World} (hs : w.stores.get? s = some st)
    (hw : w₁.stores = w.stores.insert s st') (hst : lifeOf st' = lifeOf st)
    (hids : st'.openIds ≠ [] → st.openIds ≠ []) (hsh : w₁.Shared k → w.Shared k)
    (hne : k ≠ s → (w₁.Shared k ↔ w.Shared k)) (he : ¬w.LeavesOpen k e) :
    Course k w e (w₁.settle s) :=
  course_settle (life_insert hs hw hst k) hsh hne (openIds_insert_ne_nil hs hw hids k) he

/-- The owner lets go of another store. -/
theorem course_abandon_other {w₁ : World} (hw : w₁.stores = w.stores.insert s st) (hk : k ≠ s)
    (hsh : w₁.Shared k ↔ w.Shared k) : Course k w (.store s .abandon) (w₁.settle s) := by
  have he : ¬w.LeavesOpen k (.store s .abandon) :=
    not_leavesOpen (by simpa using fun h => hk h.symm)
  refine course_settle (life_insert_of_ne hw hk) hsh.1 (fun _ => hsh) ?_ he
  rw [openIds_insert hw, if_neg hk]
  exact id

/-- The owner lets go of a store, which is settled. -/
theorem course_leaves {w₁ : World} {c b : Bool} (h : w.life k = some ⟨true, c, b⟩)
    (h₁ : w₁.life k = some ⟨false, true, b⟩) (hids : w₁.openIds k = w.openIds k)
    (hsh : w₁.Shared k ↔ w.Shared k) (hc : c = true ∨ w.openIds k ≠ [])
    (hp : (w.openIds k).Perm (unclosedIds w.handles k)) :
    Course k w (.store k .abandon) (w₁.settle k) := by
  obtain ⟨st, hs, hst⟩ := Option.map_eq_some_iff.1 h
  obtain ⟨ho, hcl, -⟩ : st.owned = true ∧ st.closed = c ∧ st.lock.isSome = b := by
    simpa [lifeOf] using hst
  obtain ⟨b', h', hb⟩ := life_settle h₁
  -- a closed store has left nothing open; otherwise an open handle keeps its share
  cases c with
  | true =>
    refine .left h h' (fun hb' => (hb.1 hb').1) ?_ ?_
    · rw [openIds_settle, hids]; exact id
    · rintro ⟨-, ⟨st', hs', -, hc'⟩, -⟩
      rw [hs] at hs'
      cases hs'
      rw [hcl] at hc'
      cases hc'
  | false =>
    have hne : w.openIds k ≠ [] := hc.resolve_left Bool.false_ne_true
    obtain ⟨i, x, hi, hx⟩ := (openIds_ne_nil hp).1 hne
    have hshared : w₁.Shared k := hsh.2 (Or.inl ⟨i, x, hi⟩)
    have hbb : b' = b := by
      rw [Bool.eq_iff_iff, hb]
      simp [hshared]
    rw [hbb] at h'
    exact .lingers h h' (shared_settle.2 hshared) ⟨rfl, ⟨st, hs, ho, hcl⟩, i, x, hi, hx⟩

/-- The owner lets go of a store that has no open files, and that is the end of it. -/
theorem course_ends {w₁ : World} {b : Bool} (h : w.life k = some ⟨true, false, b⟩)
    (h₁ : w₁.life k = some ⟨false, true, false⟩) (hids : w.openIds k = []) (hids₁ : w₁.openIds k = [])
    (hp : (w.openIds k).Perm (unclosedIds w.handles k)) :
    Course k w (.store k .abandon) (w₁.settle k) := by
  obtain ⟨b', h', hb⟩ := life_settle h₁
  have hb' : b' = false := by
    rw [← Bool.not_eq_true, hb]
    simp
  rw [hb'] at h'
  refine .ended h h' (by rw [openIds_settle, hids₁]) ?_
  rintro ⟨-, -, hx⟩
  exact (openIds_ne_nil hp).2 hx hids

/-- **What a move does to the life of a store.** -/
theorem move_course (hm : Move w e a w') (hp : (w.openIds k).Perm (unclosedIds w.handles k)) :
    Course k w e w' := by
  cases hm with
  | still hi hl => exact .kept rfl (shared_congr rfl rfl) id (idle_leavesOpen hi)
  | relogged hi hs hlog hl =>
    exact course_kept hs rfl rfl id (shared_congr rfl rfl) (idle_leavesOpen hi)
  | moved hi hh hx hl =>
    refine .kept rfl ?_ id (idle_leavesOpen hi)
    exact or_congr (sharing_insert hh) Iff.rfl
  | opened hs hlog hl =>
    rename_i fs s o dir log l
    have he : ¬w.LeavesOpen k (.openStore s o) := not_leavesOpen (by simp)
    by_cases hk : k = s
    · subst hk
      refine .born (by simp [life, hs]) ?_ he
      exact @life_insert_self _ _ _ (Store.fresh dir o.syncManifest log l) rfl
    · exact course_other rfl hk (shared_congr rfl rfl) he
  | granted hreq hs ho hc hid hx hh hl =>
    have he : ¬w.LeavesOpen k e := by
      obtain ⟨id, rfl | rfl⟩ := hreq <;> exact not_leavesOpen (by simp)
    refine course_granted hs ho hc rfl rfl ?_ he
    exact fun hk => or_congr (sharing_insert_of_ne hh hk) Iff.rfl
  | turnTaken hs ho hc ht =>
    refine course_granted hs ho hc rfl rfl ?_ (not_leavesOpen (by simp))
    exact fun hk => or_congr Iff.rfl (sharing_insert_of_ne ht hk)
  | closed hs ho hc hn =>
    rename_i s st
    have he : ¬w.LeavesOpen k (.store s .close) := not_leavesOpen (by simp)
    by_cases hk : k = s
    · subst hk
      refine .closed (life_of_owned hs ho hc) ?_ ?_ he
      · rw [life_insert_self rfl, lifeOf]
        simp [Store.vacated, ho]
      · rw [openIds_insert rfl, if_pos rfl]
        exact hn
    · exact course_other rfl hk (shared_congr rfl rfl) he
  | left hs ho hc hlog hl =>
    rename_i fs s st log
    by_cases hk : k = s
    · subst hk
      refine course_leaves (life_of_owned hs ho rfl) ?_ ?_ (shared_congr rfl rfl) ?_ hp
      · rw [life_insert_self rfl]
        rfl
      · rw [openIds_insert rfl, if_pos rfl, openIds_of_get? hs]
      · rw [openIds_of_get? hs]; exact hc
    · exact course_abandon_other rfl hk (shared_congr rfl rfl)
  | ended hs ho hc hn hl =>
    rename_i fs s st
    by_cases hk : k = s
    · subst hk
      refine course_ends (life_of_owned hs ho hc) ?_ ?_ ?_ hp
      · rw [life_insert_self rfl]
        rfl
      · rw [openIds_of_get? hs, hn]
      · rw [openIds_insert rfl, if_pos rfl]
        exact hn
    · exact course_abandon_other rfl hk (shared_congr rfl rfl)
  | shut hh hs hx ha hlog hl =>
    refine course_kept hs rfl rfl ?_ ?_ (not_leavesOpen (by simp))
    · intro hne hnil
      exact hne (by simp [Store.freed, hnil])
    · exact or_congr (sharing_insert hh) Iff.rfl
  | leaked hh hs hx hlog hl =>
    refine course_gone hs rfl rfl ?_ ?_ ?_ (not_leavesOpen (by simp))
    · intro hne hnil
      exact hne (by simp [Store.freed, hnil])
    · exact Or.imp Sharing.of_erase id
    · exact fun hk => or_congr (sharing_erase_of_ne hh hk) Iff.rfl
  | dropped hh hx =>
    refine course_settle rfl ?_ ?_ id (not_leavesOpen (by simp))
    · exact Or.imp Sharing.of_erase id
    · exact fun hk => or_congr (sharing_erase_of_ne hh hk) Iff.rfl
  | turnEnded ht hs =>
    refine course_gone hs rfl rfl id ?_ ?_ (not_leavesOpen (by simp))
    · exact Or.imp id Sharing.of_erase
    · exact fun hk => or_congr Iff.rfl (sharing_erase_of_ne ht hk)
  | turnLost ht hs =>
    rename_i l s token
    have he : ¬w.LeavesOpen k (.endTurn l) := not_leavesOpen (by simp)
    by_cases hk : k = s
    · -- a turn without a store belongs to nobody's life
      subst hk
      exact .absent (by simp [life, hs]) (by simp [life, hs]) he
    · exact .kept rfl (or_congr Iff.rfl (sharing_erase_of_ne ht hk)) id he
  | acquired hk hl => exact .kept rfl (shared_congr rfl rfl) id (not_leavesOpen (by simp))
  | released hk => exact .kept rfl (shared_congr rfl rfl) id (not_leavesOpen (by simp))

/-! ## Runs -/

variable {w₀ : World} {now : Clock.Reading} {es : List (Clock.Reading × Event)} {D : NodeId}
  {h : Nat} {x : Handle}

theorem leftOpen_concat :
    LeftOpen w₀ s (es ++ [(now, e)]) ↔ LeftOpen w₀ s es ∨ (w₀.run es).LeavesOpen s e := by
  constructor
  · rintro ⟨pre, now', e', suf, he, hl⟩
    rcases List.eq_nil_or_concat suf with rfl | ⟨suf, p, rfl⟩
    · obtain ⟨rfl, hp⟩ := List.append_inj' he rfl
      cases hp
      exact Or.inr hl
    · rw [List.concat_eq_append, ← List.cons_append, ← List.append_assoc] at he
      obtain ⟨rfl, -⟩ := List.append_inj' he rfl
      exact Or.inl ⟨pre, now', e', suf, rfl, hl⟩
  · rintro (⟨pre, now', e', suf, rfl, hl⟩ | hl)
    · exact ⟨pre, now', e', suf ++ [(now, e)], by simp, hl⟩
    · exact ⟨es, now, e, [], rfl, hl⟩

/-- What holds of a store's life, if `left` says that its owner left it open, `shared` that a handle
or a turn of it is left, and `busy` that it lists open files. -/
def Orderly (left shared busy : Prop) : Option Life → Prop
  | none => ¬left
  | some ⟨true, closed, locked⟩ => locked = !closed ∧ ¬left ∧ (busy → closed = false)
  | some ⟨false, closed, locked⟩ => closed = true ∧ (locked = true ↔ left ∧ shared) ∧ (busy → left)

/-- The life of the store `s` after the run `es`. -/
def LifeOK (w₀ : World) (s : Nat) (es : List (Clock.Reading × Event)) (w : World) : Prop :=
  Orderly (LeftOpen w₀ s es) (w.Shared s) (w.openIds s ≠ []) (w.life s)

/-- **Every step keeps the life of a store in order.** -/
theorem step_lifeOK (h : LifeOK w₀ s es (w₀.run es))
    (hp : ((w₀.run es).openIds s).Perm (unclosedIds (w₀.run es).handles s)) (now : Clock.Reading)
    (e : Event) : LifeOK w₀ s (es ++ [(now, e)]) (step now (w₀.run es) e).world := by
  have hcourse := move_course (step_move now (w₀.run es) e) hp
  have hsame : ¬(w₀.run es).LeavesOpen s e →
      (LeftOpen w₀ s (es ++ [(now, e)]) ↔ LeftOpen w₀ s es) := fun he =>
    leftOpen_concat.trans (or_iff_left he)
  unfold LifeOK at h ⊢
  -- `LeftOpen` changes in one case only, and the lock follows it there
  cases hcourse with
  | kept hl hs hn he =>
    rw [hsame he, hs, hl]
    cases hlife : (w₀.run es).life s with
    | none => rw [hlife] at h; exact h
    | some life =>
      obtain ⟨o, c, b⟩ := life
      rw [hlife] at h
      cases o with
      | true => exact ⟨h.1, h.2.1, fun hb => h.2.2 (hn hb)⟩
      | false => exact ⟨h.1, h.2.1, fun hb => h.2.2 (hn hb)⟩
  | absent h₀ h₁ he =>
    rw [h₀] at h
    rw [hsame he, h₁]
    exact h
  | born h₀ h₁ he =>
    rw [h₀] at h
    rw [hsame he, h₁]
    exact ⟨rfl, h, fun _ => rfl⟩
  | granted h₀ h₁ he =>
    rw [h₀] at h
    rw [hsame he, h₁]
    exact ⟨h.1, h.2.1, fun _ => rfl⟩
  | closed h₀ h₁ hn he =>
    rw [h₀] at h
    rw [hsame he, h₁]
    exact ⟨rfl, h.2.1, fun hb => absurd hn hb⟩
  | left h₀ h₁ hb hn he =>
    rw [h₀] at h
    rw [hsame he, h₁]
    obtain ⟨hbf, hno, hbusy⟩ := h
    refine ⟨rfl, ⟨fun hb' => ?_, fun hd => absurd hd.1 hno⟩, fun hb' => ?_⟩
    · have hb₀ := hb hb'
      rw [hbf] at hb₀
      cases hb₀
    · cases hbusy (hn hb')
  | lingers h₀ h₁ hs he =>
    rw [h₀] at h
    have hleft : LeftOpen w₀ s (es ++ [(now, e)]) := leftOpen_concat.2 (Or.inr he)
    rw [h₁]
    exact ⟨rfl, ⟨fun _ => ⟨hleft, hs⟩, fun _ => h.1⟩, fun _ => hleft⟩
  | ended h₀ h₁ hn he =>
    rw [h₀] at h
    rw [hsame he, h₁]
    exact ⟨rfl, ⟨fun hb => Bool.noConfusion hb, fun hd => absurd hd.1 h.2.1⟩, fun hb => absurd hn hb⟩
  | settled h₀ h₁ hb hs hn he =>
    rename_i o c b b'
    rw [h₀] at h
    rw [hsame he, h₁]
    cases o with
    | true =>
      have hbb : b' = b := by
        rw [Bool.eq_iff_iff, hb]
        simp
      rw [hbb]
      exact ⟨h.1, h.2.1, fun hb => h.2.2 (hn hb)⟩
    | false =>
      obtain ⟨hc, hlock, hbusy⟩ := h
      refine ⟨hc, ?_, fun hb => hbusy (hn hb)⟩
      rw [hb, hlock]
      constructor
      · rintro ⟨⟨hd, -⟩, hf | hs'⟩
        · cases hf
        · exact ⟨hd, hs'⟩
      · rintro ⟨hd, hs'⟩
        exact ⟨⟨hd, hs hs'⟩, Or.inr hs'⟩

/-- **Every run keeps the life of a store in order.** -/
theorem run_lifeOK (fs : FileSystem) (s : Nat) (es : List (Clock.Reading × Event)) :
    LifeOK (ofFileSystem fs) s es ((ofFileSystem fs).run es) := by
  refine run_induction (P := LifeOK (ofFileSystem fs) s) ?_
    (fun es now e h => step_lifeOK h (run_balanced fs s es).perm now e) es
  rintro ⟨pre, now, e, suf, he, -⟩
  simp at he

/-! ## The directory of a store -/

/-- Whether the store `s` has its lock, and the lock is held. -/
def Held (w : World) (s : Nat) : Prop :=
  ∃ l, w.lockOf (.store s) = some l ∧ l.node ∈ w.fs.locked

/-- In the run `es` the store `s` was opened in the directory `D`. -/
def OpenedIn (w₀ : World) (D : NodeId) (s : Nat) (es : List (Clock.Reading × Event)) : Prop :=
  ∃ pre now o suf v, es = pre ++ (now, .openStore s o) :: suf ∧
    (w₀.run pre).home? (.openStore s o) = some D ∧
    (step now (w₀.run pre) (.openStore s o)).answer = .ok v

theorem lockOf_of_life {life : Life} (h : w.life s = some life) :
    (∃ l, w.lockOf (.store s) = some l) ↔ life.locked = true := by
  obtain ⟨st, hs, rfl⟩ := Option.map_eq_some_iff.1 h
  rw [lockOf_store hs, ← Option.isSome_iff_exists]
  rfl

/-- A store that has no lock gets none any more. -/
theorem Course.locked {life : Life} (h : Course k w e w') (hl : w.life k = some life) :
    ∃ life', w'.life k = some life' ∧ (life'.locked = true → life.locked = true) := by
  have hlife : ∀ {life₁ : Life}, w.life k = some life₁ → life = life₁ := by
    intro life₁ h₁
    rw [hl] at h₁
    exact Option.some.inj h₁
  cases h with
  | kept hl' hs hn he => exact ⟨life, hl'.trans hl, id⟩
  | absent h₀ h₁ he => rw [h₀] at hl; cases hl
  | born h₀ h₁ he => rw [h₀] at hl; cases hl
  | granted h₀ h₁ he => rw [hlife h₀]; exact ⟨_, h₁, id⟩
  | closed h₀ h₁ hn he => exact ⟨_, h₁, fun hb => Bool.noConfusion hb⟩
  | left h₀ h₁ hb hn he => rw [hlife h₀]; exact ⟨_, h₁, hb⟩
  | lingers h₀ h₁ hs he => rw [hlife h₀]; exact ⟨_, h₁, id⟩
  | ended h₀ h₁ hn he => exact ⟨_, h₁, fun hb => Bool.noConfusion hb⟩
  | settled h₀ h₁ hb hs hn he => rw [hlife h₀]; exact ⟨_, h₁, fun hb' => (hb.1 hb').1⟩

/-- A store that has its lock has had it since it was opened. -/
theorem holds_of_openedIn {fs : FileSystem} {l : DirLock} (h : OpenedIn (ofFileSystem fs) D s es)
    (hl : ((ofFileSystem fs).run es).lockOf (.store s) = some l) :
    Holds (ofFileSystem fs) D (.store s) es := by
  obtain ⟨pre, now, o, suf, v, rfl, hd, ha⟩ := h
  -- after every further step the store has had its lock since, or has none
  have key : ∀ suf es, (∃ life, ((ofFileSystem fs).run es).life s = some life ∧
        (life.locked = true → Holds (ofFileSystem fs) D (.store s) es)) →
      ∃ life, ((ofFileSystem fs).run (es ++ suf)).life s = some life ∧
        (life.locked = true → Holds (ofFileSystem fs) D (.store s) (es ++ suf)) := by
    intro suf
    induction suf with
    | nil => intro es h; rw [List.append_nil]; exact h
    | cons p suf ih =>
      obtain ⟨now, e⟩ := p
      rintro es ⟨life, hlife, hholds⟩
      rw [List.append_cons]
      refine ih _ ?_
      rw [run_concat]
      have hcourse := move_course (step_move now ((ofFileSystem fs).run es) e)
        (run_balanced fs s es).perm
      obtain ⟨life', hlife', hmono⟩ := hcourse.locked hlife
      refine ⟨life', hlife', fun hb => ?_⟩
      obtain ⟨lock, hlock⟩ := (lockOf_of_life hlife').2 hb
      exact .kept (hholds (hmono hb)) hlock
  rw [List.append_cons] at hl ⊢
  have hopen : Holds (ofFileSystem fs) D (.store s) (pre ++ [(now, .openStore s o)]) :=
    .taken rfl hd ha
  obtain ⟨life, hlife⟩ : ∃ life,
      ((ofFileSystem fs).run (pre ++ [(now, .openStore s o)])).life s = some life := by
    rw [run_concat]
    simp only [step] at ha ⊢
    split at ha
    · cases ha
    rename_i hc
    simp only [hc, Bool.false_eq_true, if_false, stepOpen] at ha ⊢
    split at ha
    · cases ha
    · exact ⟨_, life_insert_self rfl⟩
  obtain ⟨life', hlife', hholds⟩ := key suf _ ⟨life, hlife, fun _ => hopen⟩
  exact hholds ((lockOf_of_life hlife').1 ⟨l, hl⟩)

/-- **Who ends the hold on a directory leaves it to anybody.** -/
theorem unowned_of_freed (hs : (w₀.run es).fs.Sound) (hok : LocksOK (w₀.run es))
    (hk : LockKept w₀ D (es ++ [(now, e)])) (ho : (w₀.run es).Owns D (.store s))
    (hgone : ¬(step now (w₀.run es) e).world.Held s) (y : Holder) :
    ¬(step now (w₀.run es) e).world.Owns D y := by
  obtain ⟨lock, hlock, hlook⟩ := ho
  have hok' := step_locksOK hs hok now e
  have hnone : (step now (w₀.run es) e).world.lockOf (.store s) = none := by
    cases hl : (step now (w₀.run es) e).world.lockOf (.store s) with
    | none => rfl
    | some l => exact absurd ⟨l, hl, hok'.locked.2 ⟨_, l, hl, rfl⟩⟩ hgone
  -- nobody had the node besides the store, and the step that frees it gives it to nobody
  rintro ⟨l, hl, hlook'⟩
  rw [lookup_lock_step hs hk hlook] at hlook'
  have hnode : lock.node = l.node := Option.some.inj hlook'
  have hy : y ≠ .store s := by
    rintro rfl
    rw [hnone] at hl
    cases hl
  cases move_grip hs (step_move now (w₀.run es) e) with
  | same hx hl' =>
    rw [hx, hlock] at hnone
    cases hnone
  | taken h₀ h₁ hne hfree hl' =>
    rename_i z l'
    have hz : Holder.store s ≠ z := by
      rintro rfl
      rw [hlock] at h₀
      cases h₀
    rw [hne _ hz, hlock] at hnone
    cases hnone
  | dropped h₀ h₁ hne hl' =>
    rename_i z l'
    by_cases hz : Holder.store s = z
    · subst hz
      rw [hne y hy] at hl
      exact hy (hok.distinct hl hlock hnode.symm)
    · rw [hne _ hz, hlock] at hnone
      cases hnone

end World

/-! ## The lifetime of a lock -/

open World

/-- The lock of the store `s`, which is `st` after the run `es`. -/
structure LockLifetime (w₀ : World) (es : List (Clock.Reading × Event)) (s : Nat) (st : Store) :
    Prop where
  held_iff : (w₀.run es).Held s ↔
    (st.owned = true ∧ st.closed = false) ∨ (LeftOpen w₀ s es ∧ (w₀.run es).Shared s)
  /-- While a handle is open the lock is held. -/
  unclosed : ∀ h x, (w₀.run es).handles.get? h = some ⟨s, x⟩ → x.isClosed = false →
    (w₀.run es).Held s
  /-- Nobody else can open the directory then. -/
  refused : ∀ h x D now e, (w₀.run es).handles.get? h = some ⟨s, x⟩ → x.isClosed = false →
    OpenedIn w₀ D s es → LockKept w₀ D es → (w₀.run es).home? e = some D →
    ∃ f, (step now (w₀.run es) e).answer = .error f
  /-- When the hold ends, the lock is granted to whoever takes it. -/
  freed : ∀ D now e, OpenedIn w₀ D s es → LockKept w₀ D (es ++ [(now, e)]) →
    (w₀.run es).Held s → ¬(step now (w₀.run es) e).world.Held s →
    ∀ now' l dir, (step now (w₀.run es) e).world.home? (.acquire l dir) = some D →
      (step now' (step now (w₀.run es) e).world (.acquire l dir)).answer =
        if (step now (w₀.run es) e).world.locks.contains l then .error .misnamed else .ok .done

/-- **Who has a store's lock, and for how long, in every run.** -/
theorem run_lockLifetime {fs : FileSystem} {es : List (Clock.Reading × Event)} {s : Nat} {st : Store}
    (hs : fs.Sound) (hl : fs.locked = []) (hst : ((ofFileSystem fs).run es).stores.get? s = some st) :
    LockLifetime (ofFileSystem fs) es s st := by
  have hsound : ((ofFileSystem fs).run es).fs.Sound := run_sound hs es
  have hok : LocksOK ((ofFileSystem fs).run es) := run_locksOK hs (locksOK_ofFileSystem hl) es
  have hp := (run_balanced fs s es).perm
  have hlife := run_lifeOK fs s es
  rw [LifeOK, life_of_get? hst, lifeOf] at hlife
  -- the store has its lock exactly when the node is locked
  have hheld : ((ofFileSystem fs).run es).Held s ↔ st.lock.isSome = true := by
    refine Iff.trans ?_ (lockOf_of_life (life_of_get? hst))
    constructor
    · rintro ⟨l, hl, -⟩
      exact ⟨l, hl⟩
    · rintro ⟨l, hl⟩
      exact ⟨l, hl, hok.locked.2 ⟨_, l, hl, rfl⟩⟩
  have hiff : ((ofFileSystem fs).run es).Held s ↔ (st.owned = true ∧ st.closed = false) ∨
      (LeftOpen (ofFileSystem fs) s es ∧ ((ofFileSystem fs).run es).Shared s) := by
    rw [hheld]
    cases ho : st.owned with
    | true =>
      rw [ho] at hlife
      obtain ⟨hlock, hno, -⟩ := hlife
      rw [hlock]
      simp [hno]
    | false =>
      rw [ho] at hlife
      obtain ⟨-, hlock, -⟩ := hlife
      rw [hlock]
      simp
  have hunclosed : ∀ h x, ((ofFileSystem fs).run es).handles.get? h = some ⟨s, x⟩ →
      x.isClosed = false → ((ofFileSystem fs).run es).Held s := by
    intro h x hh hx
    have hbusy := (openIds_ne_nil hp).2 ⟨h, x, hh, hx⟩
    rw [hiff]
    cases ho : st.owned with
    | true =>
      rw [ho] at hlife
      exact Or.inl ⟨rfl, hlife.2.2 hbusy⟩
    | false =>
      rw [ho] at hlife
      exact Or.inr ⟨hlife.2.2 hbusy, Or.inl ⟨h, x, hh⟩⟩
  refine ⟨hiff, hunclosed, ?_, ?_⟩
  · intro h x D now e hh hx hin hk hd
    obtain ⟨l, hl, -⟩ := hunclosed h x hh hx
    have ho := owns_of_holds hs (holds_of_openedIn hin hl) hk
    exact (step_refused hsound hok (hk.file es (List.prefix_refl _)) ho hd).1
  · rintro D now e hin hk ⟨l, hl, -⟩ hgone now' k dir hd
    have ho := owns_of_holds hs (holds_of_openedIn hin hl) hk.before
    have hf := hk.file _ (List.prefix_refl _)
    rw [run_concat] at hf
    obtain ⟨lock, hlock, hlook⟩ := ho
    exact step_granted_there (step_sound hsound now e) (step_locksOK hsound hok now e) hf
      (unowned_of_freed hsound hok hk ⟨lock, hlock, hlook⟩ hgone) hd (lookup_lock_step hsound hk hlook)

/-- The lock of a store with an open handle. -/
theorem run_lockLifetime_session : ∃ st,
    ((ofFileSystem .initial).run session).stores.get? 0 = some st ∧
    LockLifetime (ofFileSystem .initial) session 0 st := by
  have hopen : (((ofFileSystem .initial).run session).stores.get? 0).isSome = true := by decide
  obtain ⟨st, hs⟩ := Option.isSome_iff_exists.1 hopen
  exact ⟨st, hs, run_lockLifetime FileSystem.initial_sound rfl hs⟩

end EngineDir
