import EngineDir.Proofs.Runs

/-!
# The table of open files

A store's table of open files lists exactly the files of its handles that were
neither closed nor dropped, each once, through every run.

* `unclosed`: those handles. `World.openIds`, `World.leaked`: what the store says.
* `World.Posting`: all that a move can do to the account of a store.
* `World.step_balanced`: **every step keeps the account balanced.**
* `run_exactTable`: **the table is exact after every run.**
-/

namespace EngineDir

/-- The handles of the store `s` that were neither closed nor dropped. -/
def unclosed (t : Table Nat (Share Handle)) (s : Nat) : List (Nat × Share Handle) :=
  t.entries.filter fun e => decide (e.2.store = s) && !e.2.value.isClosed

/-- The files that they are open on. -/
def unclosedIds (t : Table Nat (Share Handle)) (s : Nat) : List FileId :=
  (unclosed t s).map fun e => e.2.value.id

variable {t : Table Nat (Share Handle)} {h s k : Nat} {x x' : Handle}

theorem mem_unclosed : (h, (⟨s, x⟩ : Share Handle)) ∈ unclosed t s ↔
    t.get? h = some ⟨s, x⟩ ∧ x.isClosed = false := by
  rw [unclosed, List.mem_filter, Table.mem_entries_iff]
  simp

theorem mem_unclosedIds {id : FileId} : id ∈ unclosedIds t s ↔
    ∃ h x, t.get? h = some ⟨s, x⟩ ∧ x.isClosed = false ∧ x.id = id := by
  rw [unclosedIds, List.mem_map]
  constructor
  · rintro ⟨⟨h, s', x⟩, he, rfl⟩
    have hstore : s' = s := by
      have := (List.mem_filter.1 he).2
      simp only [Bool.and_eq_true, decide_eq_true_eq] at this
      exact this.1
    subst hstore
    obtain ⟨hget, hx⟩ := mem_unclosed.1 he
    exact ⟨h, x, hget, hx, rfl⟩
  · rintro ⟨h, x, hget, hx, rfl⟩
    exact ⟨(h, ⟨s, x⟩), mem_unclosed.2 ⟨hget, hx⟩, rfl⟩

/-! ## Changes of handles -/

theorem unclosedIds_new (hx : x.isClosed = false) (hh : t.get? h = none) :
    unclosedIds (t.insert h ⟨s, x⟩) k = unclosedIds t k ++ if s = k then [x.id] else [] := by
  unfold unclosedIds unclosed
  rw [Table.entries_insert_of_none _ hh, List.filter_append, List.map_append]
  by_cases hk : s = k <;> simp [hx, hk]

/-- A handle that stays open or stays closed. -/
theorem unclosedIds_same (hh : t.get? h = some ⟨s, x⟩) (hx : Handle.Same x x') :
    unclosedIds (t.insert h ⟨s, x'⟩) k = unclosedIds t k := by
  obtain ⟨l₁, l₂, hl, hp, -⟩ := Table.entries_split hh
  unfold unclosedIds unclosed
  rw [hp, hl, List.filter_append, List.filter_append, List.map_append, List.map_append,
    List.filter_cons, List.filter_cons]
  simp only [hx.isClosed]
  split
  · simp only [List.map_cons, hx.id]
  · rfl

/-- A closed handle is dropped. -/
theorem unclosedIds_erase (hh : t.get? h = some ⟨s, x⟩) (hx : x.isClosed = true) :
    unclosedIds (t.erase h) k = unclosedIds t k := by
  obtain ⟨l₁, l₂, hl, -, he⟩ := Table.entries_split hh
  unfold unclosedIds unclosed
  rw [he, hl, List.filter_append, List.filter_append, List.filter_cons]
  simp [hx]

/-- A handle that is not closed goes from the list when it is closed or dropped. -/
theorem unclosedIds_gone {t' : Table Nat (Share Handle)} (hh : t.get? h = some ⟨s, x⟩)
    (hx : x.isClosed = false) (ht : t' = t.insert h ⟨s, x.shut⟩ ∨ t' = t.erase h) :
    (unclosedIds t k).Perm ((if s = k then [x.id] else []) ++ unclosedIds t' k) := by
  obtain ⟨l₁, l₂, hl, hp, he⟩ := Table.entries_split hh
  -- either way the list is that of the other handles
  have hgone : unclosed t' k = (l₁ ++ l₂).filter
      fun e => decide (e.2.store = k) && !e.2.value.isClosed := by
    unfold unclosed
    rcases ht with rfl | rfl
    · rw [hp, List.filter_append, List.filter_append, List.filter_cons]
      simp [Handle.isClosed_shut]
    · rw [he]
  unfold unclosedIds
  rw [hgone]
  unfold unclosed
  rw [hl, List.filter_append, List.filter_append, List.filter_cons]
  by_cases hk : s = k
  · simp only [hk, hx, decide_true, Bool.not_false, Bool.and_self, if_true, List.map_append,
      List.map_cons, List.singleton_append]
    exact List.perm_middle
  · simp [hk]

namespace World

variable {w w' : World} {e : Event} {a : Except Failure Value} {st : Store}

/-! ## The account of a store -/

/-- The files that the store `s` lists as open. -/
def openIds (w : World) (s : Nat) : List FileId :=
  match w.stores.get? s with
  | none => []
  | some st => st.openIds

/-- The handles of the store `s` that it counted as leaked. -/
def leaked (w : World) (s : Nat) : Nat :=
  match w.stores.get? s with
  | none => 0
  | some st => st.leaked

/-- Whether a file of the store `s` was opened or created. -/
def grants (s : Nat) : Event → Except Failure Value → Bool
  | .store s' (.openFile _ _), .ok .done => decide (s' = s)
  | .store s' (.createFile _ _), .ok .done => decide (s' = s)
  | _, _ => false

/-- Whether the answer to a close is that there is no such handle, or that it is closed. -/
def refusesClose : Except Failure Value → Bool
  | .error .misnamed => true
  | .error (.store .closed) => true
  | _ => false

/-- Whether a handle of the store `s` was asked to close and did not answer that it is closed. -/
def closes (w : World) (s : Nat) : Event → Except Failure Value → Bool
  | .handle h .close, a =>
    match w.handles.get? h with
    | none => false
    | some x => decide (x.store = s) && !refusesClose a
  | _, _ => false

/-- What a move does to the account of the store `k`. -/
inductive Posting (k : Nat) (w : World) (e : Event) (a : Except Failure Value) (w' : World) : Prop
  | none (hi : w'.openIds k = w.openIds k)
      (hu : (unclosedIds w.handles k).Perm (unclosedIds w'.handles k))
      (hl : w'.leaked k = w.leaked k) (hg : grants k e a = false) (hc : closes w k e a = false)
  | opened {id : FileId} (hn : id ∉ w.openIds k) (hi : w'.openIds k = id :: w.openIds k)
      (hu : unclosedIds w'.handles k = unclosedIds w.handles k ++ [id])
      (hl : w'.leaked k = w.leaked k) (hg : grants k e a = true) (hc : closes w k e a = false)
  | closed {id : FileId} (hi : w'.openIds k = (w.openIds k).filter fun i => decide (i ≠ id))
      (hu : (unclosedIds w.handles k).Perm (id :: unclosedIds w'.handles k))
      (hl : w'.leaked k = w.leaked k) (hg : grants k e a = false) (hc : closes w k e a = true)
  | leaked {id : FileId} (hi : w'.openIds k = (w.openIds k).filter fun i => decide (i ≠ id))
      (hu : (unclosedIds w.handles k).Perm (id :: unclosedIds w'.handles k))
      (hl : w'.leaked k = w.leaked k + 1) (hg : grants k e a = false) (hc : closes w k e a = false)

theorem idle_grants (hi : Idle w e a) : grants k e a = false := by
  unfold grants
  split
  · exact absurd rfl hi
  · exact absurd rfl hi
  · rfl

theorem idle_closes (hi : Idle w e a) : closes w k e a = false := by
  unfold closes
  split
  · split
    · rfl
    · rcases hi with rfl | rfl <;> simp [refusesClose]
  · rfl

theorem openIds_of_get? (hs : w.stores.get? s = some st) : w.openIds s = st.openIds := by
  simp [openIds, hs]

theorem leaked_of_get? (hs : w.stores.get? s = some st) : w.leaked s = st.leaked := by
  simp [leaked, hs]

/-- A world in which one store has changed. -/
theorem openIds_insert (hw : w'.stores = w.stores.insert s st) (k : Nat) :
    w'.openIds k = if k = s then st.openIds else w.openIds k := by
  unfold openIds
  rw [hw, Table.get?_insert]
  by_cases hk : k = s <;> simp [hk]

theorem leaked_insert (hw : w'.stores = w.stores.insert s st) (k : Nat) :
    w'.leaked k = if k = s then st.leaked else w.leaked k := by
  unfold leaked
  rw [hw, Table.get?_insert]
  by_cases hk : k = s <;> simp [hk]

@[simp] theorem openIds_settle (w : World) (s k : Nat) : (w.settle s).openIds k = w.openIds k := by
  rcases w.settle_cases s with h | ⟨st, hs, -, h⟩
  · rw [h]
  · rw [h, openIds_insert rfl k]
    split
    · rename_i hk
      rw [hk, openIds_of_get? hs]
      rfl
    · rfl

@[simp] theorem leaked_settle (w : World) (s k : Nat) : (w.settle s).leaked k = w.leaked k := by
  rcases w.settle_cases s with h | ⟨st, hs, -, h⟩
  · rw [h]
  · rw [h, leaked_insert rfl k]
    split
    · rename_i hk
      rw [hk, leaked_of_get? hs]
      rfl
    · rfl

/-- A change of a store that leaves its account. -/
theorem account_kept {st' : Store} (hs : w.stores.get? s = some st)
    (hw : w'.stores = w.stores.insert s st') (hi : st'.openIds = st.openIds)
    (hl : st'.leaked = st.leaked) (k : Nat) :
    w'.openIds k = w.openIds k ∧ w'.leaked k = w.leaked k := by
  rw [openIds_insert hw, leaked_insert hw]
  by_cases hk : k = s
  · rw [if_pos hk, if_pos hk, hk, hi, hl, openIds_of_get? hs, leaked_of_get? hs]
    exact ⟨rfl, rfl⟩
  · rw [if_neg hk, if_neg hk]
    exact ⟨rfl, rfl⟩

/-- It posts nothing if the handles stay. -/
theorem posting_kept {st' : Store} (hs : w.stores.get? s = some st)
    (hw : w'.stores = w.stores.insert s st') (hi : st'.openIds = st.openIds)
    (hl : st'.leaked = st.leaked) (hh : (unclosedIds w.handles k).Perm (unclosedIds w'.handles k))
    (hg : grants k e a = false) (hc : closes w k e a = false) : Posting k w e a w' := by
  obtain ⟨hids, hleak⟩ := account_kept hs hw hi hl k
  exact .none hids hh hleak hg hc

/-- To let go of a share posts nothing of its own. -/
theorem Posting.settle {w₁ : World} (h : Posting k w e a w₁) (s : Nat) :
    Posting k w e a (w₁.settle s) := by
  cases h with
  | none hi hu hl hg hc =>
    exact .none (by simpa using hi) (by simpa using hu) (by simpa using hl) hg hc
  | opened hn hi hu hl hg hc =>
    exact .opened hn (by simpa using hi) (by simpa using hu) (by simpa using hl) hg hc
  | closed hi hu hl hg hc =>
    exact .closed (by simpa using hi) (by simpa using hu) (by simpa using hl) hg hc
  | leaked hi hu hl hg hc =>
    exact .leaked (by simpa using hi) (by simpa using hu) (by simpa using hl) hg hc

/-- What a close or a drop of a handle that is not closed posts. -/
theorem posting_freed {st' : Store} (hh : w.handles.get? h = some ⟨s, x⟩)
    (hs : w.stores.get? s = some st) (hx : x.isClosed = false)
    (hw : w'.stores = w.stores.insert s st') (hi : st'.openIds = (st.freed x.id).openIds)
    (ht : w'.handles = w.handles.insert h ⟨s, x.shut⟩ ∨ w'.handles = w.handles.erase h)
    (hg : ∀ k, grants k e a = false)
    (hl : (st'.leaked = st.leaked ∧ ∀ k, closes w k e a = decide (k = s)) ∨
      (st'.leaked = st.leaked + 1 ∧ ∀ k, closes w k e a = false)) (k : Nat) :
    Posting k w e a w' := by
  have hgone := unclosedIds_gone (k := k) hh hx ht
  have hleak : w'.leaked k = if k = s then st'.leaked else w.leaked k := leaked_insert hw k
  by_cases hk : k = s
  · subst hk
    rw [if_pos rfl] at hgone hleak
    have hids : w'.openIds k = (w.openIds k).filter fun i => decide (i ≠ x.id) := by
      rw [openIds_insert hw, if_pos rfl, hi, openIds_of_get? hs]
      rfl
    rcases hl with ⟨hl, hc⟩ | ⟨hl, hc⟩
    · refine .closed hids hgone ?_ (hg k) (by rw [hc k, decide_eq_true rfl])
      rw [hleak, hl, leaked_of_get? hs]
    · refine .leaked hids hgone ?_ (hg k) (hc k)
      rw [hleak, hl, leaked_of_get? hs]
  · rw [if_neg fun he => hk he.symm, List.nil_append] at hgone
    rw [if_neg hk] at hleak
    refine .none ?_ hgone hleak (hg k) ?_
    · rw [openIds_insert hw, if_neg hk]
    · rcases hl with ⟨-, hc⟩ | ⟨-, hc⟩
      · rw [hc k, decide_eq_false hk]
      · exact hc k

/-- A close that is not refused. -/
theorem closes_shut (hh : w.handles.get? h = some ⟨s, x⟩)
    (ha : a ≠ .error .misnamed ∧ a ≠ .error (.store .closed)) (k : Nat) :
    closes w k (.handle h .close) a = decide (k = s) := by
  have hr : refusesClose a = false := by
    unfold refusesClose
    split
    · exact absurd rfl ha.1
    · exact absurd rfl ha.2
    · rfl
  simp [closes, hh, hr, eq_comm]

/-- **What a move posts.** -/
theorem move_posting (hm : Move w e a w') (k : Nat) : Posting k w e a w' := by
  cases hm with
  | still hi hl => exact .none rfl (.refl _) rfl (idle_grants hi) (idle_closes hi)
  | relogged hi hs hlog hl =>
    exact posting_kept hs rfl rfl rfl (.refl _) (idle_grants hi) (idle_closes hi)
  | moved hi hh hx hl =>
    refine .none rfl ?_ rfl (idle_grants hi) (idle_closes hi)
    rw [unclosedIds_same hh hx]
  | opened hs hlog hl =>
    refine .none ?_ (.refl _) ?_ (by simp [grants]) (by simp [closes])
    · rw [openIds_insert rfl]
      split
      · rename_i hk; simp [hk, openIds, hs, Store.fresh]
      · rfl
    · rw [leaked_insert rfl]
      split
      · rename_i hk; simp [hk, World.leaked, hs, Store.fresh]
      · rfl
  | granted he hs ho hc hid hx hh hl =>
    rename_i fs s h st x
    by_cases hk : s = k
    · subst hk
      refine @Posting.opened _ _ _ _ _ x.id ?_ ?_ ?_ ?_ ?_ ?_
      · rw [openIds_of_get? hs]; exact hid
      · rw [openIds_insert rfl, if_pos rfl, openIds_of_get? hs]
      · rw [unclosedIds_new hx hh, if_pos rfl]
      · rw [leaked_insert rfl, if_pos rfl, leaked_of_get? hs]
      · obtain ⟨id, rfl | rfl⟩ := he <;> simp [grants]
      · obtain ⟨id, rfl | rfl⟩ := he <;> rfl
    · have hk' : ¬k = s := fun he => hk he.symm
      refine .none ?_ ?_ ?_ ?_ ?_
      · rw [openIds_insert rfl, if_neg hk']
      · rw [unclosedIds_new hx hh, if_neg hk, List.append_nil]
      · rw [leaked_insert rfl, if_neg hk']
      · obtain ⟨id, rfl | rfl⟩ := he <;> simp [grants, hk]
      · obtain ⟨id, rfl | rfl⟩ := he <;> rfl
  | turnTaken hs ho hc ht =>
    exact posting_kept hs rfl rfl rfl (.refl _) (by simp [grants]) (by simp [closes])
  | closed hs ho hc hn =>
    exact posting_kept hs rfl rfl rfl (.refl _) (by simp [grants]) (by simp [closes])
  | left hs ho hk hlog hl =>
    refine Posting.settle ?_ _
    exact posting_kept hs rfl rfl rfl (.refl _) (by simp [grants]) (by simp [closes])
  | ended hs ho hc hn hl =>
    refine Posting.settle ?_ _
    exact posting_kept hs rfl rfl rfl (.refl _) (by simp [grants]) (by simp [closes])
  | shut hh hs hx ha hlog hl =>
    exact posting_freed hh hs hx rfl (by rfl) (Or.inl rfl) (by simp [grants])
      (Or.inl ⟨by rfl, closes_shut hh ha⟩) k
  | leaked hh hs hx hlog hl =>
    refine Posting.settle ?_ _
    exact posting_freed hh hs hx rfl (by rfl) (Or.inr rfl) (by simp [grants])
      (Or.inr ⟨by rfl, by simp [closes]⟩) k
  | dropped hh hx =>
    refine Posting.settle ?_ _
    refine .none rfl ?_ rfl (by simp [grants]) (by simp [closes])
    rw [unclosedIds_erase hh hx]
  | turnEnded ht hs =>
    refine Posting.settle ?_ _
    exact posting_kept hs rfl rfl rfl (.refl _) (by simp [grants]) (by simp [closes])
  | turnLost ht hs => exact .none rfl (.refl _) rfl (by simp [grants]) (by simp [closes])
  | acquired hk hl => exact .none rfl (.refl _) rfl (by simp [grants]) (by simp [closes])
  | released hk => exact .none rfl (.refl _) rfl (by simp [grants]) (by simp [closes])

/-! ## The account over a run -/

/-- The steps of a run: the world before each, the event and the answer to it. -/
def history (w : World) : List (Clock.Reading × Event) →
    List (World × Event × Except Failure Value)
  | [] => []
  | (now, e) :: rest => (w, e, (step now w e).answer) :: (step now w e).world.history rest

/-- How often a file of the store `s` was opened or created in a run. -/
def granted (w : World) (es : List (Clock.Reading × Event)) (s : Nat) : Nat :=
  (w.history es).countP fun r => grants s r.2.1 r.2.2

/-- How often a handle of the store `s` was closed in a run. -/
def closed (w : World) (es : List (Clock.Reading × Event)) (s : Nat) : Nat :=
  (w.history es).countP fun r => r.1.closes s r.2.1 r.2.2

variable {w₀ : World} {now : Clock.Reading} {es : List (Clock.Reading × Event)}

theorem history_append (w : World) (es es' : List (Clock.Reading × Event)) :
    w.history (es ++ es') = w.history es ++ (w.run es).history es' := by
  induction es generalizing w with
  | nil => rfl
  | cons p es ih =>
    obtain ⟨now, e⟩ := p
    simp only [List.cons_append, history, ih]
    rfl

theorem history_concat (w : World) (es : List (Clock.Reading × Event)) (now : Clock.Reading)
    (e : Event) :
    w.history (es ++ [(now, e)]) =
      w.history es ++ [(w.run es, e, (step now (w.run es) e).answer)] :=
  history_append w es [(now, e)]

/-- What holds of the account of the store `s` after a run. -/
structure Balanced (w₀ : World) (s : Nat) (es : List (Clock.Reading × Event)) (w : World) :
    Prop where
  nodup : (w.openIds s).Nodup
  perm : (w.openIds s).Perm (unclosedIds w.handles s)
  total : w₀.granted es s = (w.openIds s).length + w₀.closed es s + w.leaked s

/-- No two open handles of a store have the same file. -/
theorem Balanced.inj (hb : Balanced w₀ s es w) {h h' : Nat} {x x' : Handle}
    (hh : w.handles.get? h = some ⟨s, x⟩) (hx : x.isClosed = false)
    (hh' : w.handles.get? h' = some ⟨s, x'⟩) (hx' : x'.isClosed = false) (hid : x.id = x'.id) :
    h = h' := by
  by_cases hne : h = h'
  · exact hne
  -- without the first handle, the second one would still hold the file
  have hgone := unclosedIds_gone (k := s) hh hx (Or.inr rfl)
  rw [if_pos rfl, List.singleton_append] at hgone
  have hnd := hgone.nodup_iff.1 (hb.perm.nodup_iff.1 hb.nodup)
  refine absurd ?_ (List.nodup_cons.1 hnd).1
  rw [mem_unclosedIds]
  refine ⟨h', x', ?_, hx', hid.symm⟩
  rw [Table.get?_erase_of_ne _ fun he => hne he.symm, hh']

/-- A file that is freed was listed once. -/
theorem freed_perm {ids rest ids' : List FileId} {id : FileId} (hn : ids.Nodup)
    (hp : ids.Perm (id :: rest)) (hi : ids' = ids.filter fun i => decide (i ≠ id)) :
    ids'.Nodup ∧ ids'.Perm rest ∧ ids.length = ids'.length + 1 := by
  have hnr : (id :: rest).Nodup := hp.nodup_iff.1 hn
  have hid : id ∉ rest := (List.nodup_cons.1 hnr).1
  -- the file is listed once, so one entry goes
  have hfilter : (id :: rest).filter (fun i => decide (i ≠ id)) = rest := by
    rw [List.filter_cons_of_neg (by simp), List.filter_eq_self]
    intro j hj
    have hne : j ≠ id := fun he => hid (he ▸ hj)
    simpa using hne
  have hp' : ids'.Perm rest := by
    rw [hi, ← hfilter]
    exact hp.filter _
  refine ⟨?_, hp', ?_⟩
  · rw [hi]; exact hn.sublist List.filter_sublist
  · rw [hp.length_eq, hp'.length_eq, List.length_cons]

/-- **Every step keeps the account balanced.** -/
theorem step_balanced (h : Balanced w₀ s es (w₀.run es)) (now : Clock.Reading) (e : Event) :
    Balanced w₀ s (es ++ [(now, e)]) (step now (w₀.run es) e).world := by
  have hpost := move_posting (step_move now (w₀.run es) e) s
  -- both counts go up by what this step adds
  have hg : w₀.granted (es ++ [(now, e)]) s = w₀.granted es s +
      if grants s e (step now (w₀.run es) e).answer then 1 else 0 := by
    simp [granted, history_concat, List.countP_append, List.countP_cons]
  have hc : w₀.closed (es ++ [(now, e)]) s = w₀.closed es s +
      if (w₀.run es).closes s e (step now (w₀.run es) e).answer then 1 else 0 := by
    simp [closed, history_concat, List.countP_append, List.countP_cons]
  cases hpost with
  | none hi hu hl hgr hcl =>
    refine ⟨hi ▸ h.nodup, ?_, ?_⟩
    · rw [hi]; exact h.perm.trans hu
    · rw [hg, hc, hgr, hcl, hi, hl, h.total]
      simp
  | opened hn hi hu hl hgr hcl =>
    rename_i id
    refine ⟨?_, ?_, ?_⟩
    · rw [hi]; exact List.nodup_cons.2 ⟨hn, h.nodup⟩
    · rw [hi, hu]
      exact (h.perm.cons id).trans (List.perm_append_singleton id _).symm
    · rw [hg, hc, hgr, hcl, hi, hl, h.total, List.length_cons]
      simp only [if_true, Bool.false_eq_true, if_false]
      omega
  | closed hi hu hl hgr hcl =>
    obtain ⟨hnd, hp, hlen⟩ := freed_perm h.nodup (h.perm.trans hu) hi
    refine ⟨hnd, hp, ?_⟩
    rw [hg, hc, hgr, hcl, hl, h.total, hlen]
    simp only [if_true, Bool.false_eq_true, if_false]
    omega
  | leaked hi hu hl hgr hcl =>
    obtain ⟨hnd, hp, hlen⟩ := freed_perm h.nodup (h.perm.trans hu) hi
    refine ⟨hnd, hp, ?_⟩
    rw [hg, hc, hgr, hcl, hl, h.total, hlen]
    simp only [Bool.false_eq_true, if_false]
    omega

theorem run_balanced (fs : FileSystem) (s : Nat) (es : List (Clock.Reading × Event)) :
    Balanced (ofFileSystem fs) s es ((ofFileSystem fs).run es) := by
  have h0 : Balanced (ofFileSystem fs) s [] (ofFileSystem fs) := ⟨List.nodup_nil, .refl _, rfl⟩
  exact run_induction (P := Balanced (ofFileSystem fs) s) h0
    (fun _ now e h => step_balanced h now e) es

/-! ## Handles that are closed -/

/-- **What is asked of a closed handle changes no account**, whatever is open on its file by then. -/
theorem move_stale {r : HandleRequest} (hm : Move w (.handle h r) a w')
    (hh : w.handles.get? h = some ⟨s, x⟩) (hx : x.isClosed = true) (k : Nat) :
    w'.openIds k = w.openIds k ∧ w'.leaked k = w.leaked k := by
  -- the handle is not one that is still open
  have hopen : ∀ {s' : Nat} {y : Handle}, w.handles.get? h = some ⟨s', y⟩ → y.isClosed ≠ false := by
    intro s' y hy
    rw [hh] at hy
    cases hy
    simp [hx]
  cases hm with
  | still hi hl => exact ⟨rfl, rfl⟩
  | relogged hi hs hlog hl => exact account_kept hs rfl (by rfl) (by rfl) k
  | moved hi hy hsame hl => exact ⟨rfl, rfl⟩
  | granted he hs ho hc hid hy hfree hl => obtain ⟨id, he | he⟩ := he <;> cases he
  | shut hy hs hyc ha hlog hl => exact absurd hyc (hopen hy)
  | leaked hy hs hyc hlog hl => exact absurd hyc (hopen hy)
  | dropped hy hyc => exact ⟨openIds_settle _ _ _, leaked_settle _ _ _⟩

/-- A closed handle stays closed until it is dropped. -/
theorem move_shut (hm : Move w e a w') (he : e ≠ .handle h .abandon)
    (hh : w.handles.get? h = some ⟨s, x⟩) (hx : x.isClosed = true) :
    ∃ x', w'.handles.get? h = some ⟨s, x'⟩ ∧ x'.isClosed = true := by
  have hone : ∀ {s' : Nat} {y : Handle}, w.handles.get? h = some ⟨s', y⟩ →
      s' = s ∧ y.isClosed = true := by
    intro s' y hy
    rw [hh] at hy
    cases hy
    exact ⟨rfl, hx⟩
  cases hm with
  | still hi hl => exact ⟨x, hh, hx⟩
  | relogged hi hs hlog hl => exact ⟨x, hh, hx⟩
  | moved hi hy hsame hl =>
    rename_i fs h' s' y y'
    by_cases hk : h = h'
    · subst hk
      obtain ⟨rfl, hyc⟩ := hone hy
      exact ⟨y', Table.get?_insert_self _ _ _, hsame.isClosed.trans hyc⟩
    · exact ⟨x, by simp only [Table.get?_insert_of_ne _ _ hk, hh], hx⟩
  | opened hs hlog hl => exact ⟨x, hh, hx⟩
  | granted hreq hs ho hc hid hy hfree hl =>
    rename_i fs s' h' st y
    have hk : h ≠ h' := by
      rintro rfl
      rw [hh] at hfree
      cases hfree
    exact ⟨x, by simp only [Table.get?_insert_of_ne _ _ hk, hh], hx⟩
  | turnTaken hs ho hc ht => exact ⟨x, hh, hx⟩
  | closed hs ho hc hn => exact ⟨x, hh, hx⟩
  | left hs ho hk hlog hl => exact ⟨x, by simpa using hh, hx⟩
  | ended hs ho hc hn hl => exact ⟨x, by simpa using hh, hx⟩
  | shut hy hs hyc ha hlog hl =>
    rename_i fs h' s' st y log
    by_cases hk : h = h'
    · subst hk
      rw [(hone hy).2] at hyc
      cases hyc
    · exact ⟨x, by simp only [Table.get?_insert_of_ne _ _ hk, hh], hx⟩
  | leaked hy hs hyc hlog hl =>
    rename_i fs h' s' st y log
    have hk : h ≠ h' := fun hk => he (by rw [hk])
    refine ⟨x, ?_, hx⟩
    simp only [handles_settle, Table.get?_erase_of_ne _ hk, hh]
  | dropped hy hyc =>
    rename_i h' s' y
    have hk : h ≠ h' := fun hk => he (by rw [hk])
    refine ⟨x, ?_, hx⟩
    simp only [handles_settle, Table.get?_erase_of_ne _ hk, hh]
  | turnEnded ht hs => exact ⟨x, by simpa using hh, hx⟩
  | turnLost ht hs => exact ⟨x, hh, hx⟩
  | acquired hk hl => exact ⟨x, hh, hx⟩
  | released hk => exact ⟨x, hh, hx⟩

theorem run_shut (hes : ∀ p ∈ es, p.2 ≠ .handle h .abandon)
    (hh : w.handles.get? h = some ⟨s, x⟩) (hx : x.isClosed = true) :
    ∃ x', (w.run es).handles.get? h = some ⟨s, x'⟩ ∧ x'.isClosed = true := by
  induction es generalizing w x with
  | nil => exact ⟨x, hh, hx⟩
  | cons p es ih =>
    obtain ⟨now, e⟩ := p
    obtain ⟨x', hh', hx'⟩ := move_shut (step_move now w e) (hes _ List.mem_cons_self) hh hx
    exact ih (fun q hq => hes q (List.mem_cons_of_mem _ hq)) hh' hx'

/-- **A close frees the file and shuts the handle, whatever it answers.** -/
theorem step_close (hh : w.handles.get? h = some ⟨s, x⟩) (hs : w.stores.get? s = some st)
    (hx : x.isClosed = false) (now : Clock.Reading) :
    refusesClose (step now w (.handle h .close)).answer = false ∧
      (step now w (.handle h .close)).world.handles.get? h = some ⟨s, x.shut⟩ ∧
      (step now w (.handle h .close)).world.openIds s =
        st.openIds.filter (fun i => decide (i ≠ x.id)) ∧
      (step now w (.handle h .close)).world.leaked s = st.leaked := by
  simp only [step, hh, hs, HandleRequest.suits, if_true, stepHandle]
  have hc := x.close_cases st w.fs now
  generalize x.close w.fs st now = q at hc
  obtain ⟨o, x'⟩ := q
  rcases hc with ⟨hx', -⟩ | ⟨-, hshut, hr, log, -, hst⟩
  · rw [hx] at hx'
    cases hx'
  · simp only at hshut hr hst
    subst hshut
    refine ⟨?_, Table.get?_insert_self _ _ _, ?_, ?_⟩
    · simp only [reacting]
      cases ho : o.result with
      | ok u => rfl
      | error e => cases e <;> first | rfl | exact absurd ho hr
    · rw [openIds_insert (show _ = w.stores.insert s o.store from rfl), if_pos rfl, hst]
      rfl
    · rw [leaked_insert (show _ = w.stores.insert s o.store from rfl), if_pos rfl, hst]
      rfl

end World

/-! ## The table is exact -/

open World

/-- The table of open files of the store `s`, which is `st` after the run `es`. -/
structure ExactTable (w₀ : World) (es : List (Clock.Reading × Event)) (s : Nat) (st : Store) :
    Prop where
  /-- It lists the files of the handles that are neither closed nor dropped. -/
  mem_iff : ∀ id, id ∈ st.openIds ↔
    ∃ h x, (w₀.run es).handles.get? h = some ⟨s, x⟩ ∧ x.isClosed = false ∧ x.id = id
  /-- No two of these handles have the same file. -/
  inj : ∀ h h' x x', (w₀.run es).handles.get? h = some ⟨s, x⟩ → x.isClosed = false →
    (w₀.run es).handles.get? h' = some ⟨s, x'⟩ → x'.isClosed = false → x.id = x'.id → h = h'
  count : st.openCount = (unclosed (w₀.run es).handles s).length
  balance : w₀.granted es s = st.openCount + w₀.closed es s + st.leaked
  /-- A close frees the file and counts, whatever it answers, and a later drop is no leak. -/
  close : ∀ h x now, (w₀.run es).handles.get? h = some ⟨s, x⟩ → x.isClosed = false →
    (w₀.run es).closes s (.handle h .close) (step now (w₀.run es) (.handle h .close)).answer ∧
    (step now (w₀.run es) (.handle h .close)).world.openIds s =
      st.openIds.filter (fun i => decide (i ≠ x.id)) ∧
    ∀ es' now', (∀ p ∈ es', p.2 ≠ .handle h .abandon) →
      (step now' ((step now (w₀.run es) (.handle h .close)).world.run es')
        (.handle h .abandon)).world.leaked s =
      ((step now (w₀.run es) (.handle h .close)).world.run es').leaked s
  /-- A closed handle frees no file any more, of this store or another. -/
  stale : ∀ h s' x now r k, (w₀.run es).handles.get? h = some ⟨s', x⟩ → x.isClosed = true →
    (step now (w₀.run es) (.handle h r)).world.openIds k = (w₀.run es).openIds k ∧
      (step now (w₀.run es) (.handle h r)).world.leaked k = (w₀.run es).leaked k

/-- **The table of open files is exact after every run.** -/
theorem run_exactTable (fs : FileSystem) (es : List (Clock.Reading × Event)) (s : Nat) (st : Store)
    (hs : ((ofFileSystem fs).run es).stores.get? s = some st) :
    ExactTable (ofFileSystem fs) es s st := by
  have hb := run_balanced fs s es
  have hids : ((ofFileSystem fs).run es).openIds s = st.openIds := openIds_of_get? hs
  refine ⟨?_, ?_, ?_, ?_, ?_, ?_⟩
  · intro id
    rw [← hids, hb.perm.mem_iff]
    exact mem_unclosedIds
  · exact fun h h' x x' hh hx hh' hx' hid => hb.inj hh hx hh' hx' hid
  · rw [Store.openCount, ← hids, hb.perm.length_eq, unclosedIds, List.length_map]
  · have ht := hb.total
    rw [hids, leaked_of_get? hs] at ht
    exact ht
  · intro h x now hh hx
    obtain ⟨hr, hshut, hfree, -⟩ := step_close hh hs hx now
    refine ⟨by simp [closes, hh, hr], hfree, ?_⟩
    intro es' now' hes
    obtain ⟨x', hh', hx'⟩ := run_shut hes hshut Handle.isClosed_shut
    exact (move_stale (step_move now' _ _) hh' hx' s).2
  · intro h s' x now r k hh hx
    exact move_stale (step_move now _ _) hh hx k

/-- A store with one open file. -/
theorem run_exactTable_session : ∃ st,
    ((ofFileSystem .initial).run session).stores.get? 0 = some st ∧
    ExactTable (ofFileSystem .initial) session 0 st := by
  have hopen : (((ofFileSystem .initial).run session).stores.get? 0).isSome = true := by decide
  obtain ⟨st, hs⟩ := Option.isSome_iff_exists.1 hopen
  exact ⟨st, hs, run_exactTable .initial session 0 st hs⟩

end EngineDir
