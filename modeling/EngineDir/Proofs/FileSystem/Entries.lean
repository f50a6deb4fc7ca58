import Mathlib.Data.List.Nodup
import EngineDir.Proofs.FileSystem.Operations

/-!
# The entries of one directory

What changes within a directory leave of its entries, and what an operation on the
path of a name in it comes to.

* `Stays`: an entry is what it was, and so is what it leads to.
* `Change.Within`: a change that fills the files of some names, and binds or unbinds some
  names, of one directory. `Change.Within.stays`: **every other entry stays.**
* `FileSystem.Arrives.openForWriting`, `FileSystem.Arrives.remove`: a name in a directory, opened
  and removed by its path.
* `FileSystem.furnished`: an empty directory to begin with. `FileSystem.twinned`: one whose only file
  has two names.
-/

namespace EngineDir

open FileSystem

/-- The name `n` of the directory `i` is not that of a link. -/
def NoLink (fs : FileSystem) (i : NodeId) (n : Bytes) : Prop :=
  ∀ j g, fs.lookup i n = some j → fs.face? j ≠ some (.link g)

/-- The name `n` of the directory `D` is that of a file with the bytes `b`. -/
def FileSystem.Holds (fs : FileSystem) (D : NodeId) (n b : Bytes) : Prop :=
  ∃ i, fs.lookup D n = some i ∧ fs.face? i = some (.file b)

/-- The entry `n` of the directory `i`, and what it leads to, is in `fs'` what it is in `fs`. -/
structure Stays (i : NodeId) (n : Bytes) (fs fs' : FileSystem) : Prop where
  lookup : fs'.lookup i n = fs.lookup i n
  face : ∀ j, fs.lookup i n = some j → fs'.face? j = fs.face? j

variable {fs fs' fs'' : FileSystem} {dir : Bytes} {t t' : Trail} {m : Nat} {D i j : NodeId}
  {n : Bytes} {c : Change} {F N F' N' : Bytes → Prop}

theorem holds_iff {b : Bytes} :
    fs.Holds D n b ↔ (fs.lookup D n).bind fs.face? = some (.file b) := Option.bind_eq_some_iff.symm

theorem Stays.refl (i : NodeId) (n : Bytes) (fs : FileSystem) : Stays i n fs fs :=
  ⟨rfl, fun _ _ => rfl⟩

theorem Stays.trans (h : Stays i n fs fs') (h' : Stays i n fs' fs'') : Stays i n fs fs'' where
  lookup := h'.lookup.trans h.lookup
  face j hj := (h'.face j (h.lookup.trans hj)).trans (h.face j hj)

/-- What an entry that stays leads to. -/
theorem Stays.face_eq (h : Stays i n fs fs') {f : Face} (hl : fs.lookup i n = some j)
    (hf : fs.face? j = some f) : fs'.lookup i n = some j ∧ fs'.face? j = some f :=
  ⟨h.lookup.trans hl, (h.face j hl).trans hf⟩

/-- An entry that is no link stays none. -/
theorem Stays.noLink (h : Stays i n fs fs') (hn : NoLink fs i n) : NoLink fs' i n := by
  intro j g hj
  rw [h.lookup] at hj
  rw [h.face j hj]
  exact hn j g hj

/-- Whether the node is a link. -/
def Node.isLink : Node → Bool
  | .link _ => true
  | _ => false

/-- In a file system without links no name is that of one. -/
theorem noLink_of_all (h : fs.nodes.entries.all (fun e => !e.2.isLink) = true) (i : NodeId)
    (n : Bytes) : NoLink fs i n := by
  intro j g _ hface
  have hm := (Table.mem_entries_iff fs.nodes j (.link g)).2 (face?_link.1 hface)
  have := List.all_eq_true.1 h _ hm
  cases this

/-- What holds of all entries of a directory holds of what a name is bound to. -/
theorem of_all_entries {D : NodeId} {p : NodeId → Bool}
    (h : (fs.directory? D).all (fun d => d.entries.entries.all fun e => p e.2) = true)
    (hl : fs.lookup D n = some j) : p j = true := by
  obtain ⟨d, hd, hget⟩ := Option.bind_eq_some_iff.1 hl
  rw [hd, Option.all_some] at h
  exact List.all_eq_true.1 h _ ((Table.mem_entries_iff d.entries n j).2 hget)

/-- In a directory none of whose entries is a link, no name is that of one. -/
theorem noLink_of_entries {D : NodeId}
    (h : (fs.directory? D).all (fun d => d.entries.entries.all fun e =>
      (fs.node? e.2).all fun nd => !nd.isLink) = true) (n : Bytes) : NoLink fs D n := by
  intro j b hj hb
  have hnot := of_all_entries (p := fun k => (fs.node? k).all fun nd => !nd.isLink) h hj
  simp [face?_link.1 hb, Node.isLink] at hnot

/-- A directory with the same entries, each of which is what it was, stays as it is. -/
theorem stays_of_entries {D : NodeId}
    (h : (fs'.directory? D).map (fun d => d.entries.entries) =
      (fs.directory? D).map (fun d => d.entries.entries))
    (hface : (fs.directory? D).all (fun d => d.entries.entries.all fun e =>
      decide (fs'.face? e.2 = fs.face? e.2)) = true) (n : Bytes) : Stays D n fs fs' := by
  refine ⟨?_, fun j hj => ?_⟩
  · have hget : ∀ g : FileSystem, g.lookup D n =
        ((g.directory? D).map fun d => d.entries.entries).bind (Table.find? n) := by
      intro g
      rw [Option.bind_map]
      rfl
    rw [hget, hget, h]
  · exact of_decide_eq_true
      (of_all_entries (p := fun k => decide (fs'.face? k = fs.face? k)) hface hj)

/-- Nothing has two names in a directory if no two of its entries are one node. -/
theorem oneName_of_entries {D : NodeId}
    (h : (fs.directory? D).all (fun d => decide (d.entries.entries.map Prod.snd).Nodup) = true) :
    fs.OneName D := by
  intro n n' j hl hl'
  obtain ⟨d, hd, hget⟩ := Option.bind_eq_some_iff.1 hl
  obtain ⟨d', hd', hget'⟩ := Option.bind_eq_some_iff.1 hl'
  obtain rfl : d = d' := Option.some.inj (hd.symm.trans hd')
  rw [hd, Option.all_some, decide_eq_true_iff] at h
  have hm := (Table.mem_entries_iff d.entries n j).2 hget
  have hm' := (Table.mem_entries_iff d.entries n' j).2 hget'
  exact congrArg Prod.fst (List.inj_on_of_nodup_map h hm hm' rfl)

/-! ## Changes within a directory -/

/-- A change of the entries of the directory `D`: what it fills there has a name in `F`, and it binds
and unbinds names in `N` alone. What it makes is an empty file. -/
def Change.Within (D : NodeId) (F N : Bytes → Prop) (fs : FileSystem) : Change → Prop
  | .fill i _ => ∀ n, fs.lookup D n = some i → ∃ n', fs.lookup D n' = some i ∧ F n'
  | .make i n nd => i = D ∧ N n ∧ nd = .file []
  | .unbind i n => i = D ∧ N n
  | .move i n i' n' _ => i = D ∧ i' = D ∧ N n ∧ N n'
  | .clear _ => False
  | .lock _ => True
  | .unlock _ => True

namespace Change.Within

theorem mono (h : c.Within D F N fs) (hF : ∀ n, F n → F' n) (hN : ∀ n, N n → N' n) :
    c.Within D F' N' fs := by
  cases c with
  | fill i b =>
    intro n hn
    obtain ⟨n', hl, hn'⟩ := h n hn
    exact ⟨n', hl, hF n' hn'⟩
  | make i n nd => exact ⟨h.1, hN n h.2.1, h.2.2⟩
  | unbind i n => exact ⟨h.1, hN n h.2⟩
  | move i n i' n' j => exact ⟨h.1, h.2.1, hN n h.2.2.1, hN n' h.2.2.2⟩
  | clear i => exact h
  | lock i => exact h
  | unlock i => exact h

/-- Only the names in `N`, and only those of the directory, are bound or unbound. -/
theorem lookup (h : c.Within D F N fs) (hc : c.Fits fs) (hs : fs.Sound) (hn : i ≠ D ∨ ¬N n) :
    (c.apply fs).lookup i n = fs.lookup i n := by
  have hother : ∀ k m, k = D → N m → ¬(i = k ∧ n = m) := by
    rintro k m hk hm ⟨rfl, rfl⟩
    exact hn.elim (fun h => h hk) (fun h => h hm)
  cases c with
  | fill k b =>
    obtain ⟨b₀, hb⟩ := hc
    exact lookup_fill hb
  | make k m nd =>
    obtain ⟨hd, -, -, -, hblank⟩ := hc
    simp only [Change.apply, lookup_make hd (hs.fresh k) hblank.entries]
    rw [if_neg (hother k m h.1 h.2.1)]
  | unbind k m =>
    simp only [Change.apply, lookup_unbind]
    rw [if_neg (hother k m h.1 h.2)]
  | move k m k' m' l =>
    obtain ⟨hk, hk', hm, hm'⟩ := h
    simp only [Change.apply]
    rw [lookup_bind (by simpa using hc.2.1), if_neg (hother k' m' hk' hm'), lookup_unbind,
      if_neg (hother k m hk hm)]
  | clear k => exact absurd h id
  | lock k => rfl
  | unlock k => rfl

/-- **Every other entry stays**, where nothing has two names. -/
theorem stays (h : c.Within D F N fs) (hc : c.Fits fs) (hs : fs.Sound) (hone : fs.OneName D)
    (hF : ¬F n) (hN : ¬N n) : Stays D n fs (c.apply fs) := by
  refine ⟨h.lookup hc hs (Or.inr hN), ?_⟩
  intro j hj
  cases c with
  | fill k b =>
    have hjk : j ≠ k := by
      rintro rfl
      obtain ⟨n', hl, hn'⟩ := h n hj
      exact hF (hone _ _ _ hl hj ▸ hn')
    simp only [Change.apply, face?_setNode, if_neg hjk]
  | make k m nd => simp only [Change.apply, face?_make, if_neg (hs.ne_nextId hj)]
  | unbind k m => simp [Change.apply]
  | move k m k' m' l => simp [Change.apply]
  | clear k => exact absurd h id
  | lock k => rfl
  | unlock k => rfl

/-- What has a name after the change had one before, or is a new file. -/
theorem bound (h : c.Within D F N fs) (hc : c.Fits fs) (hs : fs.Sound)
    (hl : (c.apply fs).lookup D n = some j) :
    (∃ n', fs.lookup D n' = some j) ∨ (c.apply fs).face? j = some (.file []) := by
  rcases Change.lookup_of_apply hc hs hl with h₁ | ⟨nd, rfl, rfl⟩ | ⟨k, n', rfl⟩
  · exact Or.inl ⟨n, h₁⟩
  · obtain ⟨-, -, rfl⟩ := h
    exact Or.inr (by simp [Change.apply, face?_make, Node.face])
  · obtain ⟨rfl, -, -, -⟩ := h
    exact Or.inl ⟨n', hc.1⟩

/-- What is moved within the directory has its new name alone there. -/
theorem move_eq {k k' : NodeId} {m m' : Bytes} (h : (Change.move k m k' m' j).Within D F N fs)
    (hc : (Change.move k m k' m' j).Fits fs) (hone : fs.OneName D)
    (hl : ((Change.move k m k' m' j).apply fs).lookup D n = some j) : n = m' := by
  obtain ⟨rfl, rfl, -, -⟩ := h
  obtain ⟨hj, hd, -, -⟩ := hc
  simp only [Change.apply] at hl
  rw [lookup_bind (by simpa using hd)] at hl
  split at hl
  · rename_i he; exact he.2
  · rw [lookup_unbind] at hl
    split at hl
    · cases hl
    · rename_i hne
      exact absurd ⟨rfl, hone _ _ _ hl hj⟩ hne

/-- No two names of the directory come to be bound to one node. -/
theorem oneName (h : c.Within D F N fs) (hc : c.Fits fs) (hs : fs.Sound) (hone : fs.OneName D) :
    (c.apply fs).OneName D := by
  intro n n' j hl hl'
  -- each of the two names is an old one, or that of a new node, or that of a moved one
  rcases Change.lookup_of_apply hc hs hl with h₁ | ⟨nd, rfl, rfl⟩ | ⟨k, m, rfl⟩
  · rcases Change.lookup_of_apply hc hs hl' with h₂ | ⟨nd, rfl, rfl⟩ | ⟨k, m, rfl⟩
    · exact hone _ _ _ h₁ h₂
    · exact absurd rfl (hs.ne_nextId h₁)
    · exact move_eq h hc hone hl
  · rcases Change.lookup_of_apply hc hs hl' with h₂ | ⟨nd', he, -⟩ | ⟨k, m, he⟩
    · exact absurd rfl (hs.ne_nextId h₂)
    · cases he; rfl
    · cases he
  · exact (move_eq h hc hone hl').symm

end Change.Within

/-- The trail of a directory stands as long as the names in other directories stay. -/
theorem Trail.Stands.of_lookup (hs : fs.Sound) (ht : t.Stands fs)
    (hl : ∀ i n, i ≠ t.here → fs'.lookup i n = fs.lookup i n)
    (hd : ∀ i, fs.isDirectory i = true → fs'.isDirectory i = true) : t.Stands fs' := by
  -- a shorter trail ends in another directory, since a directory has one trail
  have hall : ∀ t' : Trail, t'.Stands fs → t'.length ≤ t.length → t'.Stands fs' := by
    intro t' ht' hle
    induction t' with
    | nil => trivial
    | cons e r ih =>
      obtain ⟨hl', hd', hr⟩ := ht'
      have hlt : r.length < t.length := hle
      have hne : Trail.here r ≠ t.here := by
        intro he
        rw [hr.unique hs ht he] at hlt
        exact absurd hlt (Nat.lt_irrefl _)
      exact ⟨(hl _ _ hne).trans hl', hd _ hd', ih hr (Nat.le_of_lt hlt)⟩
  exact hall t ht (Nat.le_refl _)

/-! ## Faces that stay -/

/-- What was there and is no file now was the same before. -/
theorem Leads.face?_back {Q : Change → Prop} (h : Leads Q fs fs') (hs : fs.Sound)
    (hj : ∃ f, fs.face? j = some f) {f : Face} (hf : fs'.face? j = some f)
    (hne : ∀ b, f ≠ .file b) : fs.face? j = some f := by
  obtain ⟨f₀, hf₀⟩ := hj
  rcases h.face? hs hf₀ with h' | ⟨b, b', -, h'⟩
  · rw [hf₀, ← h', hf]
  · rw [hf] at h'
    exact absurd (Option.some.inj h') (hne b')

/-- What was there and is a directory now was one before. -/
theorem Leads.isDirectory_back {Q : Change → Prop} (h : Leads Q fs fs') (hs : fs.Sound)
    (hj : ∃ f, fs.face? j = some f) (hd : fs'.isDirectory j = true) : fs.isDirectory j = true :=
  isDirectory_iff.2 (h.face?_back hs hj (isDirectory_iff.1 hd) (by simp))

namespace FileSystem

/-! ## Names in a directory -/

/-- A name that is no link, opened for writing by its path: nothing on the way is looked at again. -/
theorem Arrives.openForWriting (h : fs.Arrives dir t m) (hn : Proper n) (hlen : n.length ≤ nameLimit)
    (hl : NoLink fs t.here n) (trunc : Bool) :
    fs.openForWriting trunc (join dir n) =
      match fs.lookup t.here n with
      | none =>
        match fs.refusals.make (join dir n) with
        | some err => .error err
        | none => .ok (fs.make t.here n (.file []), fs.nextId t.here)
      | some i =>
        match fs.node? i with
        | some (.file _) => .ok (if trunc then fs.setNode i (.file []) else fs, i)
        | some (.device _) => .ok (fs, i)
        | some (.directory _) => .error .isDirectory
        | some (.link _) => .error .loop
        | none => .error .noEntry := by
  unfold FileSystem.openForWriting
  rw [h.walk_last hn hlen (by decide) hl]
  cases fs.lookup t.here n <;> rfl

/-- What such a name is bound to then, and what was changed for it. -/
theorem Arrives.openForWriting_ok (h : fs.Arrives dir t m) (hs : fs.Sound) (hn : Proper n)
    (hlen : n.length ≤ nameLimit) (hl : NoLink fs t.here n) {trunc : Bool}
    (ho : fs.openForWriting trunc (join dir n) = .ok (fs', i)) :
    (fs.lookup t.here n = none ∧ (Change.make t.here n (.file [])).Fits fs ∧
        fs' = (Change.make t.here n (.file [])).apply fs ∧ i = fs.nextId t.here) ∨
      (fs.lookup t.here n = some i ∧
        ((∃ b, fs.face? i = some (.file b) ∧
            fs' = if trunc then (Change.fill i []).apply fs else fs) ∨
          ∃ d, fs.face? i = some (.device d) ∧ fs' = fs)) := by
  rw [h.openForWriting hn hlen hl] at ho
  cases hlk : fs.lookup t.here n with
  | none =>
    rw [hlk] at ho
    simp only at ho
    split at ho
    · cases ho
    cases ho
    have hf : (Change.make t.here n (.file [])).Fits fs :=
      ⟨(h.stands hs).isDirectory hs, hn, hlen, hlk, trivial⟩
    exact Or.inl ⟨rfl, hf, rfl, rfl⟩
  | some k =>
    rw [hlk] at ho
    simp only at ho
    split at ho
    · rename_i b hb
      cases ho
      exact Or.inr ⟨rfl, Or.inl ⟨b, face?_file.2 hb, rfl⟩⟩
    · rename_i d hd
      cases ho
      exact Or.inr ⟨rfl, Or.inr ⟨d, face?_device.2 hd, rfl⟩⟩
    · cases ho
    · cases ho
    · cases ho

/-- A name, removed by its path. -/
theorem Arrives.remove (h : fs.Arrives dir t m) (hn : Proper n) (hlen : n.length ≤ nameLimit) :
    fs.remove (join dir n) =
      match fs.refusals.remove (join dir n) with
      | some err => .error err
      | none =>
        match fs.lookup t.here n with
        | none => .error .noEntry
        | some i => if fs.isDirectory i then .error .isDirectory else .ok (fs.unbind t.here n) := by
  unfold FileSystem.remove removeName
  rw [h.walk_keep hn hlen]
  cases fs.refusals.remove (join dir n) with
  | some err => rfl
  | none =>
    cases fs.lookup t.here n with
    | none => rfl
    | some i => simp

/-- What is removed is a name that is bound, and not to a directory. -/
theorem Arrives.remove_ok (h : fs.Arrives dir t m) (hn : Proper n) (hlen : n.length ≤ nameLimit)
    (hr : fs.remove (join dir n) = .ok fs') :
    ∃ i, fs.lookup t.here n = some i ∧ fs.isDirectory i = false ∧
      fs' = (Change.unbind t.here n).apply fs := by
  rw [h.remove hn hlen] at hr
  split at hr
  · cases hr
  cases hl : fs.lookup t.here n with
  | none => rw [hl] at hr; cases hr
  | some i =>
    simp only [hl] at hr
    split at hr
    · cases hr
    · rename_i hd
      cases hr
      exact ⟨i, rfl, by simpa using hd, rfl⟩

/-- What is not removed is refused by the system, is missing, or is a directory. -/
theorem Arrives.remove_error (h : fs.Arrives dir t m) (hn : Proper n) (hlen : n.length ≤ nameLimit)
    {err : Errno} (hr : fs.remove (join dir n) = .error err) :
    fs.refusals.remove (join dir n) = some err ∨
      (err = .noEntry ∧ fs.lookup t.here n = none) ∨
      ∃ i, fs.lookup t.here n = some i ∧ fs.isDirectory i = true ∧ err = .isDirectory := by
  rw [h.remove hn hlen] at hr
  split at hr
  · rename_i e he
    cases hr
    exact Or.inl he
  cases hl : fs.lookup t.here n with
  | none =>
    rw [hl] at hr
    cases hr
    exact Or.inr (Or.inl ⟨rfl, rfl⟩)
  | some i =>
    simp only [hl] at hr
    split at hr
    · rename_i hd
      cases hr
      exact Or.inr (Or.inr ⟨i, rfl, hd, rfl⟩)
    · cases hr

/-- A name that is moved within a directory. Nothing happens when both are names of one node. -/
theorem Arrives.rename (h : fs.Arrives dir t m) (hs : fs.Sound) (hn : Proper n) {n' : Bytes}
    (hn' : Proper n') (hr : fs.rename (join dir n) (join dir n') = .ok fs') :
    (fs' = fs ∧ ∃ k, fs.lookup t.here n = some k ∧ fs.lookup t.here n' = some k) ∨
      ∃ k, (Change.move t.here n t.here n' k).Fits fs ∧
        fs' = (Change.move t.here n t.here n' k).apply fs := by
  replace hr := renameName_of_rename hr
  unfold FileSystem.renameName at hr
  split at hr
  · cases hr
  rw [h.walk_ignore hn, h.walk_ignore hn'] at hr
  simp only at hr
  split at hr
  · cases hr
  · cases hr
  · cases hr
  · rename_i k r hk hk'
    have hfit : (Change.move t.here n t.here n' k).Fits fs ∧ r = fs.lookup t.here n' := by
      unfold probe at hk hk'
      split at hk
      · cases hk
      split at hk'
      · cases hk'
      · rename_i hlen
        cases hk'
        exact ⟨⟨Except.ok.inj hk, (h.stands hs).isDirectory hs, hn', Nat.not_lt.1 hlen⟩, rfl⟩
    obtain ⟨hfit, hr'⟩ := hfit
    split at hr
    · cases hr
    split at hr
    · cases hr
    split at hr
    · cases hr; exact Or.inr ⟨k, hfit, rfl⟩
    · rename_i j
      split at hr
      · cases hr
      split at hr
      · rename_i hkj
        cases hr
        exact Or.inl ⟨rfl, k, hfit.1, by rw [hkj]; exact hr'.symm⟩
      split at hr
      · cases hr
      · cases hr; exact Or.inr ⟨k, hfit, rfl⟩

/-! ## Devices behind links -/

variable {e : Ending} {tr tr' : Bool} {b m' : Nat} {ps : List Part} {s : Spot} {d : Device}

/-- A slash behind a path is still behind it where the walk ends. -/
theorem walkFrom_trailing_true {r : Option NodeId}
    (h : fs.walkFrom .follow b t ps true = .ok (.entry t' n r tr', m)) : tr' = true := by
  induction b generalizing t ps with
  | zero =>
    unfold walkFrom at h
    split at h <;> cases h
    rfl
  | succ b ih =>
    unfold walkFrom at h
    split at h
    · cases h
    · cases h
    · cases h; rfl
    · simp only [Bool.true_or, ite_self] at h
      exact ih h

theorem stride_create : fs.stride .create false t ps = fs.stride .follow false t ps := by
  induction ps generalizing t with
  | nil => rfl
  | cons q ps ih =>
    cases q with
    | here => exact ih
    | up => exact ih
    | name n => simp [stride, ih]

/-- Where a walk that follows links ends without a slash, one that is to make a file ends too. -/
theorem walkFrom_create {r : Option NodeId}
    (h : fs.walkFrom .follow b t ps tr = .ok (.entry t' n r false, m)) :
    fs.walkFrom .create b t ps tr = .ok (.entry t' n r false, m) := by
  induction b generalizing t ps tr with
  | zero =>
    obtain rfl : tr = false := by
      cases tr with
      | false => rfl
      | true => exact (walkFrom_trailing_true h).symm
    unfold walkFrom at h ⊢
    rw [stride_create]
    exact h
  | succ b ih =>
    obtain rfl : tr = false := by
      cases tr with
      | false => rfl
      | true => exact (walkFrom_trailing_true h).symm
    unfold walkFrom at h ⊢
    rw [stride_create]
    split at h
    · exact h
    · exact h
    · exact h
    · exact ih h

/-- A path that leads to a device opens it for writing, and nothing changes. -/
theorem openForWriting_device (hs : fs.Sound) {path : Bytes}
    (h : fs.find (Path.ofText path) = .ok i) (hd : fs.face? i = some (.device d)) (trunc : Bool) :
    fs.openForWriting trunc path = .ok (fs, i) := by
  have hnd : fs.isDirectory i = false := by rw [isDirectory_eq_false, hd]; simp
  unfold find reach at h
  cases hw : fs.walk .follow (Path.ofText path) with
  | error err => rw [hw] at h; cases h
  | ok s =>
    rw [hw] at h
    cases s with
    | inside t =>
      obtain rfl : t.here = i := by simpa using h
      have htd := Trail.Stands.isDirectory hs (walk_sound hs hw)
      rw [hnd] at htd
      cases htd
    | entry t n r tr =>
      cases r with
      | none => cases h
      | some j =>
        simp only at h
        split at h
        · rename_i hc
          split at hc <;> cases hc
          cases h
        · rename_i hc
          split at hc
          · cases hc
          rename_i htr
          cases hc
          cases h
          have htr : tr = false := by simpa [hnd] using htr
          subst htr
          -- the same walk finds the device when the file is to be made
          have hw' : fs.walk .create (Path.ofText path) = .ok (.entry t n (some i) false) := by
            unfold walk at hw ⊢
            split at hw
            · cases hw
            rename_i hz
            split at hw
            · cases hw
            rename_i he
            rw [if_neg hz, if_neg he]
            cases hr : fs.walkFrom .follow linkLimit [] (Path.ofText path).parts
                (Path.ofText path).trailing with
            | error err => rw [hr] at hw; cases hw
            | ok q =>
              obtain ⟨s, m⟩ := q
              rw [hr] at hw
              obtain rfl : s = _ := by simpa [Except.map] using hw
              rw [walkFrom_create hr]
              rfl
          simp only [openForWriting, hw', face?_device.1 hd]

end FileSystem

/-! ## The path of a directory -/

/-- The path from the root, through the names of the trail. -/
def Trail.path (t : Trail) : Bytes := absoluteText (t.map Prod.fst).reverse

/-- The path of a trail that stands leads down it. -/
theorem Trail.Stands.arrives (hs : fs.Sound) (h : t.Stands fs) : fs.Arrives t.path t linkLimit :=
  arrives_absoluteText hs h

/-- The path of a trail that stands leads to its directory. -/
theorem Trail.Stands.find (hs : fs.Sound) (h : t.Stands fs) :
    fs.find (Path.ofText t.path) = .ok t.here := by
  refine (h.arrives hs).find ?_
  have habs : (Path.ofText t.path).absolute = true :=
    (ofText_absoluteText (by simpa using h.proper hs)).1
  simp [Path.isEmpty, habs]

/-! ## Directories, and a file with two names -/

/-- A file system with an empty directory `/db`. -/
def FileSystem.furnished : FileSystem :=
  FileSystem.initial.make root (Utf8.encode ['d', 'b']) emptyDirectory

/-- The way to `/db`. -/
def Trail.toDb : Trail := [(Utf8.encode ['d', 'b'], root.child 1)]

theorem furnished_sound : FileSystem.furnished.Sound :=
  Change.sound (c := .make root (Utf8.encode ['d', 'b']) emptyDirectory)
    ⟨by decide, proper_of_all (by decide) (by decide), by decide, by decide, rfl⟩ initial_sound

theorem furnished_stands : Trail.toDb.Stands FileSystem.furnished :=
  ⟨by decide, by decide, trivial⟩

theorem furnished_noLink (n : Bytes) : NoLink FileSystem.furnished Trail.toDb.here n :=
  noLink_of_all (by decide) _ n

theorem furnished_oneName : FileSystem.furnished.OneName Trail.toDb.here :=
  oneName_of_entries (by decide)

/-- A file system with the empty directories `/db` and `/eb`. -/
def FileSystem.duplex : FileSystem :=
  FileSystem.furnished.make root (Utf8.encode ['e', 'b']) emptyDirectory

/-- The way to `/eb`. -/
def Trail.toEb : Trail := [(Utf8.encode ['e', 'b'], root.child 2)]

theorem duplex_sound : FileSystem.duplex.Sound :=
  Change.sound (c := .make root (Utf8.encode ['e', 'b']) emptyDirectory)
    ⟨by decide, proper_of_all (by decide) (by decide), by decide, by decide, rfl⟩ furnished_sound

/-- The directory `/db` with one file, which holds `b` and has the two names `n` and `n'`. -/
def FileSystem.twinned (n n' b : Bytes) : FileSystem :=
  (furnished.make Trail.toDb.here n (.file b)).bind Trail.toDb.here n' (Trail.toDb.here.child 0)

theorem twinned_sound {n n' : Bytes} (b : Bytes) (hn : Proper n) (hlen : n.length ≤ nameLimit)
    (hn' : Proper n') (hlen' : n'.length ≤ nameLimit) : (twinned n n' b).Sound := by
  have hmade : (furnished.make Trail.toDb.here n (.file b)).Sound :=
    Change.sound (c := .make Trail.toDb.here n (.file b)) ⟨by decide, hn, hlen, rfl, trivial⟩
      furnished_sound
  have hnew : furnished.nextId Trail.toDb.here = Trail.toDb.here.child 0 := by decide
  refine hmade.link ?_ hn' hlen' (b := b) ?_
  · rw [isDirectory_iff, face?_make, if_neg (by decide)]
    exact isDirectory_iff.1 (by decide)
  · rw [face?_make, if_pos hnew.symm]
    rfl

end EngineDir
