import EngineDir.FileSystem.OpenFile

/-!
# The two views of a file system

Walks and transfers see a file system through two views: the node that a name is
bound to (`FileSystem.lookup`) and what a node is, the entries of a directory
apart (`FileSystem.face?`). Here is what each change of nodes does to the two.

* `lookup_bind`, `lookup_unbind`, `lookup_make`: one name changes.
* `face?_bind`, `face?_unbind`, `face?_make`: no node becomes another kind of node.
-/

namespace EngineDir

/-- What a node is, apart from the entries of a directory. -/
inductive Face where
  | file (bytes : Bytes)
  | directory
  | link (target : Bytes)
  | device (d : Device)
  deriving DecidableEq

/-- What a node is. -/
def Node.face : Node → Face
  | .file b => .file b
  | .directory _ => .directory
  | .link t => .link t
  | .device d => .device d

namespace NodeId

/-- A node is not the directory that it was made in. -/
theorem child_ne_self (i : NodeId) (n : Nat) : i.child n ≠ i := by
  intro h
  have hc : 2 ^ n * (2 * i.code + 1) = i.code := congrArg code h
  have hp : 1 ≤ 2 ^ n := Nat.one_le_two_pow
  have hm : 1 * (2 * i.code + 1) ≤ 2 ^ n * (2 * i.code + 1) := Nat.mul_le_mul_right _ hp
  omega

end NodeId

namespace FileSystem

variable {fs : FileSystem} {i j k : NodeId} {name m : Bytes}

/-- What the node `i` is, if there is one. -/
def face? (fs : FileSystem) (i : NodeId) : Option Face := (fs.node? i).map Node.face

theorem face?_file {b : Bytes} : fs.face? i = some (.file b) ↔ fs.node? i = some (.file b) := by
  unfold face?
  cases fs.node? i with
  | none => simp
  | some n => cases n <;> simp [Node.face]

theorem face?_link {t : Bytes} : fs.face? i = some (.link t) ↔ fs.node? i = some (.link t) := by
  unfold face?
  cases fs.node? i with
  | none => simp
  | some n => cases n <;> simp [Node.face]

theorem face?_device {d : Device} :
    fs.face? i = some (.device d) ↔ fs.node? i = some (.device d) := by
  unfold face?
  cases fs.node? i with
  | none => simp
  | some n => cases n <;> simp [Node.face]

theorem face?_directory : fs.face? i = some .directory ↔ ∃ d, fs.node? i = some (.directory d) := by
  unfold face?
  cases fs.node? i with
  | none => simp
  | some n => cases n <;> simp [Node.face]

theorem face?_none : fs.face? i = none ↔ fs.node? i = none := by simp [face?]

theorem directory?_eq_some {d : Directory} :
    fs.directory? i = some d ↔ fs.node? i = some (.directory d) := by
  unfold directory?
  cases fs.node? i with
  | none => simp
  | some n => cases n <;> simp

/-- The directories are the nodes with that face. -/
theorem isDirectory_iff : fs.isDirectory i = true ↔ fs.face? i = some .directory := by
  rw [isDirectory, Option.isSome_iff_exists, face?_directory]
  simp only [directory?_eq_some]

theorem isDirectory_eq_false : fs.isDirectory i = false ↔ fs.face? i ≠ some .directory := by
  rw [← Bool.not_eq_true, isDirectory_iff]

theorem isDirectory_of_file {b : Bytes} (h : fs.face? i = some (.file b)) :
    fs.isDirectory i = false := by
  rw [isDirectory_eq_false, h]
  simp

/-- Only a directory binds names. -/
theorem isDirectory_of_lookup (h : fs.lookup i name = some j) : fs.isDirectory i = true := by
  obtain ⟨d, hd, -⟩ := Option.bind_eq_some_iff.1 h
  rw [isDirectory, hd]
  rfl

/-- The node that can be read without end is the full device. -/
theorem isEndless_iff : fs.isEndless i = true ↔ fs.face? i = some (.device .full) := by
  rw [face?_device]
  unfold isEndless
  split
  · rename_i h; simp [h]
  · rename_i h; simpa using h

theorem isEndless_congr {fs' : FileSystem} (h : fs'.face? i = fs.face? i) :
    fs'.isEndless i = fs.isEndless i := by
  rw [Bool.eq_iff_iff, isEndless_iff, isEndless_iff, h]

/-- A file ends. -/
theorem isEndless_of_file {b : Bytes} (h : fs.face? i = some (.file b)) :
    fs.isEndless i = false := by
  rw [← Bool.not_eq_true, isEndless_iff, h]
  simp

/-! ## One node -/

theorem node?_setNode (n : Node) :
    (fs.setNode i n).node? j = if j = i then some n else fs.node? j := by
  unfold node? setNode
  exact Table.get?_insert _ _ _ _

theorem face?_setNode (n : Node) :
    (fs.setNode i n).face? j = if j = i then some n.face else fs.face? j := by
  unfold face?
  rw [node?_setNode]
  split <;> rfl

theorem directory?_setNode_of_ne (n : Node) (h : j ≠ i) :
    (fs.setNode i n).directory? j = fs.directory? j := by
  unfold directory?
  rw [node?_setNode, if_neg h]

@[simp] theorem locked_setNode (n : Node) : (fs.setNode i n).locked = fs.locked := rfl

@[simp] theorem refusals_setNode (n : Node) : (fs.setNode i n).refusals = fs.refusals := rfl

/-- A node that binds nothing takes the place of one that binds nothing: every name stays. -/
theorem lookup_setNode {n : Node} (hi : fs.isDirectory i = false)
    (hn : ∀ d, n = .directory d → d.entries = Table.empty) :
    (fs.setNode i n).lookup j name = fs.lookup j name := by
  unfold lookup
  by_cases hj : j = i
  · subst hj
    have h0 : fs.directory? j = none := by simpa [isDirectory] using hi
    rw [h0]
    cases n with
    | directory d =>
      have hd : (fs.setNode j (.directory d)).directory? j = some d := by
        rw [directory?_eq_some, node?_setNode, if_pos rfl]
      rw [hd, Option.bind_some, hn d rfl]
      rfl
    | file b => simp [directory?, node?_setNode]
    | link t => simp [directory?, node?_setNode]
    | device d => simp [directory?, node?_setNode]
  · rw [directory?_setNode_of_ne n hj]

/-- Other contents of a file: every name stays. -/
theorem lookup_fill {b b' : Bytes} (h : fs.face? i = some (.file b)) :
    (fs.setNode i (.file b')).lookup j name = fs.lookup j name :=
  lookup_setNode (isDirectory_of_file h) (by simp)

/-! ## One directory -/

variable {f : Directory → Directory}

theorem directory?_mapDirectory :
    (fs.mapDirectory i f).directory? j =
      if j = i then (fs.directory? i).map f else fs.directory? j := by
  unfold mapDirectory
  cases hd : fs.directory? i with
  | none =>
    by_cases hj : j = i
    · simp [hj, hd]
    · simp [hj]
  | some d =>
    by_cases hj : j = i
    · subst hj
      simp only [if_true, Option.map_some]
      rw [directory?_eq_some, node?_setNode, if_pos rfl]
    · simp only [hj, if_false]
      exact directory?_setNode_of_ne _ hj

/-- A change of entries changes no face. -/
@[simp] theorem face?_mapDirectory : (fs.mapDirectory i f).face? j = fs.face? j := by
  unfold mapDirectory
  cases hd : fs.directory? i with
  | none => rfl
  | some d =>
    simp only
    rw [face?_setNode]
    by_cases hj : j = i
    · subst hj
      rw [if_pos rfl]
      exact (face?_directory.2 ⟨d, directory?_eq_some.1 hd⟩).symm
    · rw [if_neg hj]

@[simp] theorem locked_mapDirectory : (fs.mapDirectory i f).locked = fs.locked := by
  unfold mapDirectory
  cases fs.directory? i <;> rfl

@[simp] theorem refusals_mapDirectory : (fs.mapDirectory i f).refusals = fs.refusals := by
  unfold mapDirectory
  cases fs.directory? i <;> rfl

@[simp] theorem isDirectory_mapDirectory :
    (fs.mapDirectory i f).isDirectory j = fs.isDirectory j := by
  rw [Bool.eq_iff_iff, isDirectory_iff, isDirectory_iff, face?_mapDirectory]

theorem lookup_mapDirectory :
    (fs.mapDirectory i f).lookup j name =
      if j = i then (fs.directory? i).bind fun d => (f d).entries.get? name
      else fs.lookup j name := by
  unfold lookup
  rw [directory?_mapDirectory]
  by_cases hj : j = i
  · rw [if_pos hj, if_pos hj, Option.bind_map]
    rfl
  · rw [if_neg hj, if_neg hj]

/-- How many nodes were made in a directory does not depend on its entries. -/
theorem madeIn_mapDirectory (hf : ∀ d, (f d).made = d.made) :
    (fs.mapDirectory i f).madeIn j = fs.madeIn j := by
  unfold madeIn
  rw [directory?_mapDirectory]
  by_cases hj : j = i
  · subst hj
    rw [if_pos rfl]
    cases fs.directory? j with
    | none => rfl
    | some d => exact hf d
  · rw [if_neg hj]

theorem madeIn_setNode {n : Node} (hi : fs.isDirectory i = false)
    (hn : ∀ d, n = .directory d → d.made = 0) : (fs.setNode i n).madeIn j = fs.madeIn j := by
  unfold madeIn
  by_cases hj : j = i
  · subst hj
    have h0 : fs.directory? j = none := by simpa [isDirectory] using hi
    rw [h0]
    cases n with
    | directory d =>
      have hd : (fs.setNode j (.directory d)).directory? j = some d := by
        rw [directory?_eq_some, node?_setNode, if_pos rfl]
      rw [hd]
      exact hn d rfl
    | file b => simp [directory?, node?_setNode]
    | link t => simp [directory?, node?_setNode]
    | device d => simp [directory?, node?_setNode]
  · rw [directory?_setNode_of_ne n hj]

/-! ## One name -/

@[simp] theorem face?_bind : (fs.bind i name k).face? j = fs.face? j := face?_mapDirectory

@[simp] theorem locked_bind : (fs.bind i name k).locked = fs.locked := locked_mapDirectory

@[simp] theorem refusals_bind : (fs.bind i name k).refusals = fs.refusals := refusals_mapDirectory

@[simp] theorem refusals_unbind : (fs.unbind i name).refusals = fs.refusals := refusals_mapDirectory

theorem madeIn_bind : (fs.bind i name k).madeIn j = fs.madeIn j :=
  madeIn_mapDirectory (f := fun d => { d with entries := d.entries.insert name k }) fun _ => rfl

theorem madeIn_unbind : (fs.unbind i name).madeIn j = fs.madeIn j :=
  madeIn_mapDirectory (f := fun d => { d with entries := d.entries.erase name }) fun _ => rfl

/-- A directory binds a name. -/
theorem lookup_bind (hi : fs.isDirectory i = true) :
    (fs.bind i name k).lookup j m = if j = i ∧ m = name then some k else fs.lookup j m := by
  unfold bind
  rw [lookup_mapDirectory]
  obtain ⟨d, hd⟩ := Option.isSome_iff_exists.1 hi
  by_cases hj : j = i
  · subst hj
    simp only [hd, if_true, Option.bind_some, Table.get?_insert, true_and]
    split
    · rfl
    · simp [lookup, hd]
  · simp [hj]

@[simp] theorem face?_unbind : (fs.unbind i name).face? j = fs.face? j := face?_mapDirectory

@[simp] theorem locked_unbind : (fs.unbind i name).locked = fs.locked := locked_mapDirectory

@[simp] theorem isDirectory_unbind : (fs.unbind i name).isDirectory j = fs.isDirectory j :=
  isDirectory_mapDirectory

/-- A directory drops a name. -/
theorem lookup_unbind :
    (fs.unbind i name).lookup j m = if j = i ∧ m = name then none else fs.lookup j m := by
  unfold unbind
  rw [lookup_mapDirectory]
  by_cases hj : j = i
  · subst hj
    simp only [if_true, true_and, Table.get?_erase, lookup]
    cases fs.directory? j with
    | none => simp
    | some d => rfl
  · simp [hj]

/-! ## A new node -/

theorem face?_make (n : Node) :
    (fs.make i name n).face? j = if j = fs.nextId i then some n.face else fs.face? j := by
  unfold make
  rw [face?_mapDirectory, face?_setNode]

@[simp] theorem locked_make (n : Node) : (fs.make i name n).locked = fs.locked := by
  simp [make]

@[simp] theorem refusals_make (n : Node) : (fs.make i name n).refusals = fs.refusals := by
  simp [make]

theorem nextId_ne (fs : FileSystem) (i : NodeId) : fs.nextId i ≠ i := NodeId.child_ne_self _ _

theorem directory?_make_self {d : Directory} (n : Node) (hd : fs.directory? i = some d) :
    (fs.make i name n).directory? i =
      some { entries := d.entries.insert name (fs.nextId i), made := d.made + 1 } := by
  unfold make
  rw [directory?_mapDirectory, if_pos rfl, directory?_setNode_of_ne n (fs.nextId_ne i).symm, hd]
  rfl

/-- A new node without entries changes what its own name is bound to, and nothing else. -/
theorem lookup_make {n : Node} (hi : fs.isDirectory i = true)
    (hf : fs.face? (fs.nextId i) = none) (hn : ∀ d, n = .directory d → d.entries = Table.empty) :
    (fs.make i name n).lookup j m =
      if j = i ∧ m = name then some (fs.nextId i) else fs.lookup j m := by
  have hnew : fs.isDirectory (fs.nextId i) = false := by rw [isDirectory_eq_false, hf]; simp
  obtain ⟨d, hd⟩ := Option.isSome_iff_exists.1 hi
  by_cases hj : j = i
  · subst hj
    simp only [lookup, directory?_make_self n hd, Option.bind_some, Table.get?_insert, true_and, hd]
  · simp only [hj, false_and, if_false]
    unfold make
    rw [lookup_mapDirectory, if_neg hj, lookup_setNode hnew hn]

theorem madeIn_make {n : Node} (hi : fs.isDirectory i = true)
    (hf : fs.face? (fs.nextId i) = none) (hn : ∀ d, n = .directory d → d.made = 0) :
    (fs.make i name n).madeIn j = if j = i then fs.madeIn i + 1 else fs.madeIn j := by
  have hnew : fs.isDirectory (fs.nextId i) = false := by rw [isDirectory_eq_false, hf]; simp
  obtain ⟨d, hd⟩ := Option.isSome_iff_exists.1 hi
  by_cases hj : j = i
  · subst hj
    simp only [madeIn, directory?_make_self n hd, hd, if_true]
  · rw [if_neg hj, ← madeIn_setNode hnew hn]
    unfold make madeIn
    rw [directory?_mapDirectory, if_neg hj]

/-! ## Locks -/

@[simp] theorem refusals_unlock : (fs.unlock i).refusals = fs.refusals := rfl

/-- To give up a lock before a change of a directory or after it is the same. -/
theorem unlock_mapDirectory {k : NodeId} :
    (fs.mapDirectory i f).unlock k = (fs.unlock k).mapDirectory i f := by
  have hsame : (fs.unlock k).directory? i = fs.directory? i := rfl
  unfold mapDirectory
  rw [hsame]
  cases fs.directory? i <;> rfl

theorem tryLock_eq_some {fs' : FileSystem} :
    fs.tryLock i = some fs' ↔ i ∉ fs.locked ∧ fs' = { fs with locked := i :: fs.locked } := by
  unfold tryLock
  split
  · simp [*]
  · simp [*, eq_comm]

theorem mem_locked_unlock : j ∈ (fs.unlock i).locked ↔ j ∈ fs.locked ∧ j ≠ i := by simp [unlock]

end FileSystem

end EngineDir
