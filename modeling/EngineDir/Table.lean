/-!
# Finite maps

A `Table` keeps its bindings in the order in which the keys were first bound;
a key is bound at most once (`Table.nodup`).

* `Table.get?_insert`, `Table.get?_erase`: what a lookup gives after an update.
* `Table.insert_of_get?`: an update that changes no binding changes nothing.
* `Table.insert_insert`: an update hides an earlier one of the same key.
* `Table.mem_entries_iff`: the listed bindings are those that a lookup finds.
* `Table.entries_split`: where an update changes the list.
-/

namespace EngineDir

/-- A finite map, as the list of its bindings. -/
structure Table (κ α : Type) where
  entries : List (κ × α)
  nodup : (entries.map Prod.fst).Nodup

namespace Table

variable {κ α : Type} [DecidableEq κ]

/-- The map that binds nothing. -/
def empty : Table κ α := ⟨[], List.nodup_nil⟩

/-- The keys, in the order of their first binding. -/
def keys (t : Table κ α) : List κ := t.entries.map Prod.fst

/-- The first binding of `k` in a list of bindings. -/
def find? (k : κ) : List (κ × α) → Option α
  | [] => none
  | e :: rest => if e.1 = k then some e.2 else find? k rest

/-- What `k` is bound to. -/
def get? (t : Table κ α) (k : κ) : Option α := find? k t.entries

/-- Gives `k` the value `v` in place, or at the end when it is not bound. -/
def put (k : κ) (v : α) : List (κ × α) → List (κ × α)
  | [] => [(k, v)]
  | e :: rest => if e.1 = k then (k, v) :: rest else e :: put k v rest

/-- Every binding but the one of `k`. -/
def drop (k : κ) (l : List (κ × α)) : List (κ × α) := l.filter fun e => decide (e.1 ≠ k)

theorem mem_keys_put {k x : κ} {v : α} {l : List (κ × α)} :
    x ∈ (put k v l).map Prod.fst ↔ x = k ∨ x ∈ l.map Prod.fst := by
  induction l with
  | nil => simp [put]
  | cons e rest ih =>
    by_cases h : e.1 = k
    · simp [put, h]
    · simp only [put, h, if_false, List.map_cons, List.mem_cons, ih]
      constructor <;> rintro (h | h | h) <;> simp [h]

theorem nodup_put {k : κ} {v : α} {l : List (κ × α)} (h : (l.map Prod.fst).Nodup) :
    ((put k v l).map Prod.fst).Nodup := by
  induction l with
  | nil => simp [put]
  | cons e rest ih =>
    rw [List.map_cons, List.nodup_cons] at h
    by_cases he : e.1 = k
    · simp only [put, he, if_true, List.map_cons, List.nodup_cons]
      exact ⟨he ▸ h.1, h.2⟩
    · simp only [put, he, if_false, List.map_cons, List.nodup_cons]
      exact ⟨fun hm => (mem_keys_put.1 hm).elim he h.1, ih h.2⟩

theorem nodup_drop {k : κ} {l : List (κ × α)} (h : (l.map Prod.fst).Nodup) :
    ((drop k l).map Prod.fst).Nodup :=
  h.sublist (List.Sublist.map _ List.filter_sublist)

/-- Binds `k` to `v`. -/
def insert (t : Table κ α) (k : κ) (v : α) : Table κ α := ⟨put k v t.entries, nodup_put t.nodup⟩

/-- Unbinds `k`. -/
def erase (t : Table κ α) (k : κ) : Table κ α := ⟨drop k t.entries, nodup_drop t.nodup⟩

/-- Whether `k` is bound. -/
def contains (t : Table κ α) (k : κ) : Bool := (t.get? k).isSome

@[simp] theorem get?_empty (k : κ) : (empty : Table κ α).get? k = none := rfl

theorem find?_put (k x : κ) (v : α) (l : List (κ × α)) :
    find? x (put k v l) = if x = k then some v else find? x l := by
  induction l with
  | nil =>
    by_cases h : x = k
    · simp [put, find?, h]
    · have h' : ¬k = x := fun hk => h hk.symm
      simp [put, find?, h, h']
  | cons e rest ih =>
    by_cases he : e.1 = k
    · by_cases h : x = k
      · simp [put, find?, he, h]
      · have h' : ¬k = x := fun hk => h hk.symm
        simp [put, find?, he, h, h']
    · by_cases h : e.1 = x
      · have : ¬x = k := fun hk => he (h.trans hk)
        simp [put, find?, h, this]
      · simp only [put, find?, he, h, if_false]
        exact ih

theorem find?_drop (k x : κ) (l : List (κ × α)) :
    find? x (drop k l) = if x = k then none else find? x l := by
  induction l with
  | nil => simp [drop, find?]
  | cons e rest ih =>
    by_cases he : e.1 = k
    · have hd : drop k (e :: rest) = drop k rest := by simp [drop, he]
      by_cases h : x = k
      · simpa [hd, h] using ih
      · have h' : ¬e.1 = x := fun hx => h (hx.symm.trans he)
        rw [hd, ih]
        simp [find?, h']
    · have hd : drop k (e :: rest) = e :: drop k rest := by simp [drop, he]
      by_cases h : e.1 = x
      · have : ¬x = k := fun hk => he (h.trans hk)
        simp [hd, find?, h, this]
      · simp only [hd, find?, h, if_false]
        exact ih

theorem get?_insert (t : Table κ α) (k x : κ) (v : α) :
    (t.insert k v).get? x = if x = k then some v else t.get? x := find?_put k x v t.entries

@[simp] theorem get?_insert_self (t : Table κ α) (k : κ) (v : α) :
    (t.insert k v).get? k = some v := by simp [get?_insert]

theorem get?_insert_of_ne (t : Table κ α) {k x : κ} (v : α) (h : x ≠ k) :
    (t.insert k v).get? x = t.get? x := by simp [get?_insert, h]

theorem get?_erase (t : Table κ α) (k x : κ) :
    (t.erase k).get? x = if x = k then none else t.get? x := find?_drop k x t.entries

@[simp] theorem get?_erase_self (t : Table κ α) (k : κ) : (t.erase k).get? k = none := by
  simp [get?_erase]

theorem get?_erase_of_ne (t : Table κ α) {k x : κ} (h : x ≠ k) :
    (t.erase k).get? x = t.get? x := by simp [get?_erase, h]

theorem put_of_find? {k : κ} {v : α} {l : List (κ × α)} (h : find? k l = some v) :
    put k v l = l := by
  induction l with
  | nil => simp [find?] at h
  | cons e rest ih =>
    obtain ⟨a, b⟩ := e
    by_cases he : a = k
    · simp only [find?, he, if_true, Option.some.injEq] at h
      simp [put, he, h]
    · simp only [find?, he, if_false] at h
      simp [put, he, ih h]

/-- To bind a key to what it is bound to changes nothing. -/
theorem insert_of_get? {t : Table κ α} {k : κ} {v : α} (h : t.get? k = some v) :
    t.insert k v = t := by
  obtain ⟨l, hl⟩ := t
  have hp : put k v l = l := put_of_find? h
  simp [insert, hp]

theorem put_put (k : κ) (v v' : α) (l : List (κ × α)) : put k v' (put k v l) = put k v' l := by
  induction l with
  | nil => simp [put]
  | cons e rest ih =>
    by_cases he : e.1 = k
    · simp [put, he]
    · simp [put, he, ih]

/-- The last of two updates of a key counts. -/
theorem insert_insert (t : Table κ α) (k : κ) (v v' : α) :
    (t.insert k v).insert k v' = t.insert k v' := by
  simp [insert, put_put]

theorem mem_entries_iff (t : Table κ α) (k : κ) (v : α) :
    (k, v) ∈ t.entries ↔ t.get? k = some v := by
  obtain ⟨l, hl⟩ := t
  unfold get?
  dsimp only
  induction l with
  | nil => simp [find?]
  | cons e rest ih =>
    rw [List.map_cons, List.nodup_cons] at hl
    obtain ⟨a, b⟩ := e
    by_cases he : a = k
    · subst he
      have : (a, v) ∉ rest := fun hm => hl.1 (List.mem_map.2 ⟨_, hm, rfl⟩)
      simp only [List.mem_cons, Prod.mk.injEq, true_and, this, or_false, find?, if_true,
        Option.some.injEq]
      exact eq_comm
    · have he' : ¬k = a := fun h => he h.symm
      simp only [List.mem_cons, Prod.mk.injEq, he', false_and, false_or, find?, he, if_false]
      exact ih hl.2

theorem find?_split {k : κ} {v : α} {l : List (κ × α)} (hl : (l.map Prod.fst).Nodup)
    (h : find? k l = some v) :
    ∃ l₁ l₂, l = l₁ ++ (k, v) :: l₂ ∧ (∀ v', put k v' l = l₁ ++ (k, v') :: l₂) ∧
      drop k l = l₁ ++ l₂ := by
  induction l with
  | nil => simp [find?] at h
  | cons e rest ih =>
    obtain ⟨a, b⟩ := e
    rw [List.map_cons, List.nodup_cons] at hl
    by_cases he : a = k
    · subst he
      obtain rfl : b = v := by simpa [find?] using h
      refine ⟨[], rest, rfl, by simp [put], ?_⟩
      have hrest : ∀ e ∈ rest, e.1 ≠ a := by
        rintro e hm rfl
        exact hl.1 (List.mem_map.2 ⟨e, hm, rfl⟩)
      have hd : drop a ((a, b) :: rest) = drop a rest := by simp [drop]
      rw [hd]
      exact List.filter_eq_self.2 fun e hm => decide_eq_true (hrest e hm)
    · obtain ⟨l₁, l₂, hr, hp, hd⟩ := ih hl.2 (by simpa [find?, he] using h)
      refine ⟨(a, b) :: l₁, l₂, by rw [hr]; rfl, ?_, ?_⟩
      · intro v'
        simp [put, he, hp v']
      · have hd' : drop k ((a, b) :: rest) = (a, b) :: drop k rest := by simp [drop, he]
        rw [hd', hd]
        rfl

/-- Where a key stands among the bindings, and what its updates change there. -/
theorem entries_split {t : Table κ α} {k : κ} {v : α} (h : t.get? k = some v) :
    ∃ l₁ l₂, t.entries = l₁ ++ (k, v) :: l₂ ∧
      (∀ v', (t.insert k v').entries = l₁ ++ (k, v') :: l₂) ∧ (t.erase k).entries = l₁ ++ l₂ :=
  find?_split t.nodup h

/-- A new key comes last. -/
theorem entries_insert_of_none {t : Table κ α} {k : κ} (v : α) (h : t.get? k = none) :
    (t.insert k v).entries = t.entries ++ [(k, v)] := by
  obtain ⟨l, hl⟩ := t
  have hf : find? k l = none := h
  show put k v l = l ++ [(k, v)]
  clear h hl
  induction l with
  | nil => rfl
  | cons e rest ih =>
    by_cases he : e.1 = k
    · simp [find?, he] at hf
    · simp only [find?, he, if_false] at hf
      simp [put, he, ih hf]

end Table

end EngineDir
