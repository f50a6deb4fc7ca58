import EngineDir.Proofs.FileSystem.Walks

/-!
# Trails

In a sound file system a walk goes down a trail of directories, each bound to its
name in the one before, and a directory has one such trail. The canonical path of a
directory is the text of its trail and leads back to it.

* `Path.ofText_proper`, `Path.ofText_join`: the parts of a text.
* `FileSystem.walkFrom_sound`: a walk stays on trails that stand.
* `Trail.Stands.unique`: **a directory has one trail.**
* `FileSystem.Arrives`: the path of a directory. `FileSystem.homeOf`: where a name in it is
  looked for.
* `FileSystem.Arrives.canonical`, `FileSystem.arrives_absoluteText`: **the canonical path
  leads to the same directory.**
-/

namespace EngineDir

/-! ## Parts of a text -/

/-- A name in a path is one that an entry can have. -/
def Part.Proper : Part → Prop
  | .name n => EngineDir.Proper n
  | _ => True

theorem mem_of_mem_stretches {s t : Bytes} (h : s ∈ stretches t) : slash ∉ s ∧ ∀ b ∈ s, b ∈ t := by
  induction t generalizing s with
  | nil => simp [stretches] at h; simp [h]
  | cons c rest ih =>
    by_cases hc : c = slash
    · simp only [stretches, hc, if_true, List.mem_cons] at h
      rcases h with rfl | h
      · simp
      · exact ⟨(ih h).1, fun b hb => List.mem_cons_of_mem _ ((ih h).2 b hb)⟩
    · simp only [stretches, hc, if_false] at h
      cases hs : stretches rest with
      | nil => exact absurd hs (stretches_ne_nil rest)
      | cons s₁ ss =>
        have h₁ := ih (s := s₁) (by simp [hs])
        rw [hs] at h
        rcases List.mem_cons.1 h with rfl | h
        · refine ⟨by simpa [eq_comm, hc] using h₁.1, fun b hb => ?_⟩
          rcases List.mem_cons.1 hb with rfl | hb
          · exact List.mem_cons_self
          · exact List.mem_cons_of_mem _ (h₁.2 b hb)
        · have h₂ := ih (s := s) (by simp [hs, h])
          exact ⟨h₂.1, fun b hb => List.mem_cons_of_mem _ (h₂.2 b hb)⟩

theorem Part.ofStretch?_name {s n : Bytes} (h : Part.ofStretch? s = some (.name n)) :
    n = s ∧ s ≠ [] ∧ s ≠ [46] ∧ s ≠ [46, 46] := by
  unfold Part.ofStretch? at h
  split at h
  · cases h
  split at h
  · cases h
  split at h
  · cases h
  · cases h; exact ⟨rfl, ‹_›, ‹_›, ‹_›⟩

theorem Part.ofStretch?_of_proper {n : Bytes} (h : EngineDir.Proper n) :
    Part.ofStretch? n = some (.name n) := by
  simp [Part.ofStretch?, h.ne_nil, h.ne_here, h.ne_up]

namespace Path

/-- A name in the path of a text, without zero bytes, is proper. -/
theorem proper_of_mem {t : Bytes} {q : Part} (hq : q ∈ (ofText t).parts)
    (hz : ∀ n, q = .name n → (0 : UInt8) ∉ n) : q.Proper := by
  cases q with
  | here => trivial
  | up => trivial
  | name n =>
    obtain ⟨s, hs, he⟩ := List.mem_filterMap.1 hq
    obtain ⟨rfl, h₁, h₂, h₃⟩ := Part.ofStretch?_name he
    exact ⟨h₁, h₂, h₃, (mem_of_mem_stretches hs).1, hz _ rfl⟩

theorem ofText_proper {t : Bytes} (h : (ofText t).holdsZero = false) :
    ∀ q ∈ (ofText t).parts, q.Proper := by
  intro q hq
  refine proper_of_mem hq fun n hn => ?_
  subst hn
  simp only [holdsZero, List.any_eq_false] at h
  simpa using h _ hq

theorem ofText_proper_of_notMem {t : Bytes} (h : (0 : UInt8) ∉ t) :
    ∀ q ∈ (ofText t).parts, q.Proper := by
  intro q hq
  refine proper_of_mem hq fun n hn h0 => ?_
  subst hn
  obtain ⟨s, hs, he⟩ := List.mem_filterMap.1 hq
  obtain ⟨rfl, -⟩ := Part.ofStretch?_name he
  exact h ((mem_of_mem_stretches hs).2 0 h0)

theorem holdsZero_eq_false {p : Path} (h : ∀ q ∈ p.parts, q.Proper) : p.holdsZero = false := by
  rw [holdsZero, List.any_eq_false]
  intro q hq
  have hp := h q hq
  cases q with
  | here => simp
  | up => simp
  | name n => simpa using hp.zero_notMem

theorem head?_ne_slash {n : Bytes} (h : Proper n) : n.head? ≠ some slash := by
  intro he
  exact h.slash_notMem (List.mem_of_mem_head? he)

theorem getLast?_ne_slash {n : Bytes} (h : Proper n) : n.getLast? ≠ some slash := by
  intro he
  exact h.slash_notMem (List.mem_of_mem_getLast? he)

theorem getLast?_behind_slash (d : Bytes) {n : Bytes} (h : Proper n) :
    (d ++ slash :: n).getLast? ≠ some slash := by
  have hcons : (slash :: n).getLast? = n.getLast? := by
    cases n with
    | nil => exact absurd rfl h.ne_nil
    | cons a as => simp
  obtain ⟨c, hc⟩ := Option.isSome_iff_exists.1 (List.getLast?_isSome.2 h.ne_nil)
  have hne := getLast?_ne_slash h
  rw [List.getLast?_append, hcons, hc]
  rw [hc] at hne
  exact hne

/-- The path of a name in a directory: its parts are those of the directory's path, and the name. -/
theorem ofText_join (dir : Bytes) {n : Bytes} (h : Proper n) :
    ofText (join dir n) =
      { absolute := (ofText dir).absolute
        parts := (ofText dir).parts ++ [.name n]
        trailing := false } := by
  have hn : stretches n = [n] := stretches_of_not_mem h.slash_notMem
  have hp : [n].filterMap Part.ofStretch? = [.name n] := by simp [Part.ofStretch?_of_proper h]
  have hnil : [([] : Bytes)].filterMap Part.ofStretch? = [] := rfl
  -- the text may end in a slash already, and may be empty
  by_cases h0 : dir = []
  · subst h0
    simp [join, ofText, hn, hp, hnil, stretches, head?_ne_slash h, getLast?_ne_slash h]
  · by_cases hl : dir.getLast? = some slash
    · obtain ⟨d, rfl⟩ := List.getLast?_eq_some_iff.1 hl
      have hj : join (d ++ [slash]) n = d ++ slash :: n := by simp [join]
      have hh : (d ++ slash :: n).head? = (d ++ [slash]).head? := by cases d <;> rfl
      simp only [hj, ofText, stretches_append_slash, hn, List.filterMap_append, hh, hp,
        getLast?_behind_slash d h, decide_false, stretches, hnil, List.append_nil]
    · have hj : join dir n = dir ++ slash :: n := by simp [join, h0, hl]
      have hh : (dir ++ slash :: n).head? = dir.head? := by
        cases dir with
        | nil => exact absurd rfl h0
        | cons a as => rfl
      simp only [hj, ofText, stretches_append_slash, hn, List.filterMap_append, hh, hp,
        getLast?_behind_slash dir h, decide_false]

end Path

/-! ## Trails that stand -/

/-- The trail leads down through directories, each bound to its name in the one before. -/
def Trail.Stands (fs : FileSystem) : Trail → Prop
  | [] => True
  | (n, i) :: t => fs.lookup (Trail.here t) n = some i ∧ fs.isDirectory i = true ∧ Trail.Stands fs t

namespace Trail

open FileSystem

variable {fs : FileSystem} {t t' : Trail}

theorem Stands.nil (fs : FileSystem) : Stands fs [] := True.intro

theorem Stands.tail (h : Stands fs t) : Stands fs t.tail := by
  cases t with
  | nil => trivial
  | cons e t => exact h.2.2

/-- A trail that stands ends in a directory. -/
theorem Stands.isDirectory (hs : fs.Sound) (h : Stands fs t) : fs.isDirectory t.here = true := by
  cases t with
  | nil => exact hs.isDirectory_root
  | cons e t => exact h.2.1

/-- There are directories all along a trail that stands. -/
theorem Stands.directories (h : Stands fs t) : ∀ i ∈ t.map Prod.snd, fs.isDirectory i = true := by
  induction t with
  | nil =>
    intro i hi
    cases hi
  | cons e t ih =>
    intro i hi
    rcases List.mem_cons.1 hi with rfl | hi
    · exact h.2.1
    · exact ih h.2.2 i hi

/-- **A directory has one trail.** -/
theorem Stands.unique (hs : fs.Sound) (h : Stands fs t) (h' : Stands fs t')
    (he : here t = here t') : t = t' := by
  -- from the end: a directory has one name, so the directories above are the same
  induction t generalizing t' with
  | nil =>
    cases t' with
    | nil => rfl
    | cons e' t' => exact absurd (h'.1.trans (congrArg some he.symm)) hs.root_free
  | cons e t ih =>
    cases t' with
    | nil => exact absurd (h.1.trans (congrArg some he)) hs.root_free
    | cons e' t' =>
      obtain ⟨n, i⟩ := e
      obtain ⟨n', i'⟩ := e'
      obtain rfl : i = i' := he
      obtain ⟨ht, rfl⟩ := hs.unique h.2.1 h.1 h'.1
      rw [ih h.2.2 h'.2.2 ht]

/-- The names of a trail can stand in a path. -/
theorem Stands.proper (hs : fs.Sound) (h : Stands fs t) : ∀ n ∈ t.map Prod.fst, Proper n := by
  induction t with
  | nil => simp
  | cons e t ih =>
    intro n hn
    rcases List.mem_cons.1 hn with rfl | hn
    · exact (hs.proper h.1).1
    · exact ih h.2.2 n hn

end Trail

namespace FileSystem

variable {fs : FileSystem} {e : Ending} {tr : Bool} {t t' : Trail} {b m : Nat}
  {ps : List Part} {n dir : Bytes} {i : NodeId}

/-- What is known of the end of a walk. -/
def SpotOK (fs : FileSystem) (e : Ending) : Spot → Prop
  | .inside t => t.Stands fs
  | .entry t n i _ => t.Stands fs ∧ Proper n ∧
      (e ≠ .ignore → n.length ≤ nameLimit ∧ i = fs.lookup t.here n)

/-- What is known of the end of a stride. -/
def StrideOK (fs : FileSystem) (e : Ending) : Stride → Prop
  | .refused _ => True
  | .done t => t.Stands fs
  | .last t n i => fs.SpotOK e (.entry t n i false)
  | .link t g ps => t.Stands fs ∧ (0 : UInt8) ∉ g ∧ ∀ q ∈ ps, q.Proper

theorem stride_ok (hs : fs.Sound) (ht : t.Stands fs) (hp : ∀ q ∈ ps, q.Proper) :
    fs.StrideOK e (fs.stride e tr t ps) := by
  induction ps generalizing t with
  | nil => exact ht
  | cons p ps ih =>
    have hps : ∀ q ∈ ps, q.Proper := fun q hq => hp q (List.mem_cons_of_mem _ hq)
    cases p with
    | here => exact ih ht hps
    | up => exact ih ht.tail hps
    | name n =>
      have hn : Proper n := hp _ List.mem_cons_self
      rw [stride]
      split
      · trivial
      split
      · rename_i hi
        exact ⟨ht, hn, fun hne => absurd hi.2 hne⟩
      split
      · trivial
      rename_i hlen
      have hlen : n.length ≤ nameLimit := Nat.not_lt.1 hlen
      cases hl : fs.lookup t.here n with
      | none =>
        simp only
        split
        · exact ⟨ht, hn, fun _ => ⟨hlen, hl.symm⟩⟩
        · trivial
      | some i =>
        have hlast : fs.StrideOK e (.last t n (some i)) := ⟨ht, hn, fun _ => ⟨hlen, hl.symm⟩⟩
        simp only
        split
        · split
          · exact hlast
          · exact ⟨ht, hs.target (face?_link.2 ‹_›), hps⟩
        · rename_i d hnd
          split
          · exact hlast
          · exact ih ⟨hl, isDirectory_iff.2 (face?_directory.2 ⟨d, hnd⟩), ht⟩ hps
        · split
          · exact hlast
          · trivial

/-- **A walk stays on trails that stand.** -/
theorem walkFrom_sound (hs : fs.Sound) (ht : t.Stands fs) (hp : ∀ q ∈ ps, q.Proper) {s : Spot}
    (h : fs.walkFrom e b t ps tr = .ok (s, m)) : fs.SpotOK e s := by
  -- on the links left, for a trail and parts that change with every link
  induction b using Nat.strongRecOn generalizing t ps tr with
  | ind b ih =>
    rw [walkFrom] at h
    have hok : fs.StrideOK e (fs.stride e tr t ps) := stride_ok hs ht hp
    cases hst : fs.stride e tr t ps with
    | refused err => rw [hst] at h; cases h
    | done t₁ => rw [hst] at h hok; cases h; exact hok
    | last t₁ n i => rw [hst] at h hok; cases h; exact hok
    | link t₁ g qs =>
      rw [hst] at h hok
      obtain ⟨h₁, h₂, h₃⟩ := hok
      cases b with
      | zero => cases h
      | succ b =>
        refine ih b (Nat.lt_succ_self b) ?_ ?_ h
        · split
          · trivial
          · exact h₁
        · intro q hq
          rcases List.mem_append.1 hq with hq | hq
          · exact Path.ofText_proper_of_notMem h₂ q hq
          · exact h₃ q hq

/-- The walk of a text. -/
theorem walk_sound (hs : fs.Sound) {path : Bytes} {s : Spot}
    (h : fs.walk e (Path.ofText path) = .ok s) : fs.SpotOK e s := by
  unfold walk at h
  split at h
  · cases h
  · rename_i hz
    split at h
    · cases h
    · cases hw : fs.walkFrom e linkLimit [] (Path.ofText path).parts (Path.ofText path).trailing with
      | error err => rw [hw] at h; cases h
      | ok r =>
        rw [hw] at h
        obtain rfl : r.1 = s := Except.ok.inj h
        exact walkFrom_sound hs (Trail.Stands.nil fs) (Path.ofText_proper (by simpa using hz)) hw

theorem arrive_stands (hs : fs.Sound) (ht : t.Stands fs) (hp : ∀ q ∈ ps, q.Proper)
    (h : fs.arrive b t ps = .ok (t', m)) : t'.Stands fs := by
  unfold arrive at h
  cases hw : fs.walkFrom .follow b t ps false with
  | error err => rw [hw] at h; cases h
  | ok r =>
    rw [hw] at h
    obtain ⟨s, k⟩ := r
    have hok := walkFrom_sound hs ht hp hw
    cases s with
    | inside t₁ => cases h; exact hok
    | entry t₁ n i tr =>
      cases i with
      | none => simp [arrival, Except.map] at h
      | some i =>
        by_cases hd : fs.isDirectory i
        · simp only [arrival, hd, if_true, Except.map, Except.ok.injEq, Prod.mk.injEq] at h
          rw [← h.1]
          exact ⟨(hok.2.2 (by decide)).2.symm, hd, hok.1⟩
        · simp [arrival, hd, Except.map] at h

/-! ## Paths of directories -/

/-- The text `dir`, with a name behind it, leads into a directory, by the trail `t`, with `m` more
links to follow. The empty text leads into the root. -/
structure Arrives (fs : FileSystem) (dir : Bytes) (t : Trail) (m : Nat) : Prop where
  zero : (Path.ofText dir).holdsZero = false
  way : fs.arrive linkLimit [] (Path.ofText dir).parts = .ok (t, m)

theorem Arrives.stands (hs : fs.Sound) (h : fs.Arrives dir t m) : t.Stands fs :=
  arrive_stands hs (Trail.Stands.nil fs) (Path.ofText_proper h.zero) h.way

theorem Arrives.roads {fs' : FileSystem} (hr : Roads fs fs') (h : fs.Arrives dir t m) :
    fs'.Arrives dir t m :=
  ⟨h.zero, arrive_roads hr h.way⟩

/-- The spot without the slash behind it. -/
def Spot.bare : Spot → Spot
  | .inside t => .inside t
  | .entry t n i _ => .entry t n i false

theorem arrival_bare (s : Spot) : fs.arrival (Spot.bare s) = fs.arrival s := by
  cases s with
  | inside t => rfl
  | entry t n i tr => cases i <;> rfl

theorem stride_trailing (tr tr' : Bool) :
    fs.stride .follow tr t ps = fs.stride .follow tr' t ps := by
  induction ps generalizing t with
  | nil => rfl
  | cons p ps ih =>
    cases p with
    | here => exact ih
    | up => exact ih
    | name n => simp only [stride, reduceCtorEq, false_and, and_false, if_false, ih]

/-- A slash behind a path makes no difference to where it leads. -/
theorem walkFrom_trailing (tr tr' : Bool) :
    (fs.walkFrom .follow b t ps tr).map (Prod.map Spot.bare id) =
      (fs.walkFrom .follow b t ps tr').map (Prod.map Spot.bare id) := by
  induction b using Nat.strongRecOn generalizing t ps tr tr' with
  | ind b ih =>
    rw [walkFrom, walkFrom.eq_def fs .follow b t ps tr', stride_trailing tr tr']
    cases fs.stride .follow tr' t ps with
    | refused err => rfl
    | done t₁ => rfl
    | last t₁ n i => rfl
    | link t₁ g qs =>
      cases b with
      | zero => rfl
      | succ b => exact ih b (Nat.lt_succ_self b) _ _

theorem arrive_eq (tr : Bool) {s : Spot} (h : fs.walkFrom .follow b t ps tr = .ok (s, m)) :
    fs.arrive b t ps = (fs.arrival s).map fun t' => (t', m) := by
  have hw := @walkFrom_trailing fs t b ps tr false
  rw [h] at hw
  unfold arrive
  cases hw' : fs.walkFrom .follow b t ps false with
  | error err => rw [hw'] at hw; cases hw
  | ok r =>
    rw [hw'] at hw
    simp only [Except.map, Except.ok.injEq, Prod.map, Prod.mk.injEq, id] at hw
    simp only [← arrival_bare r.1, ← arrival_bare s, hw.1, hw.2]

/-- A path that leads to a directory arrives there. -/
theorem arrives_of_find {D : NodeId} (h : fs.find (Path.ofText dir) = .ok D)
    (hd : fs.isDirectory D = true) :
    (Path.ofText dir).isEmpty = false ∧ ∃ t m, fs.Arrives dir t m ∧ t.here = D := by
  unfold find reach walk at h
  by_cases hz : (Path.ofText dir).holdsZero
  · simp [hz] at h
  by_cases he : (Path.ofText dir).isEmpty
  · simp [hz, he] at h
  simp only [hz, he, if_false, Bool.false_eq_true] at h
  rw [Bool.not_eq_true] at hz he
  cases hw : fs.walkFrom .follow linkLimit [] (Path.ofText dir).parts (Path.ofText dir).trailing with
  | error err => simp [hw, Except.map] at h
  | ok r =>
    obtain ⟨s, m⟩ := r
    have ha := arrive_eq _ hw
    cases s with
    | inside t =>
      simp only [hw, Except.map, Except.ok.injEq] at h
      exact ⟨he, t, m, ⟨hz, ha⟩, h⟩
    | entry t n i tr =>
      cases i with
      | none => simp [hw, Except.map] at h
      | some i =>
        simp only [hw, Except.map] at h
        split at h
        · cases h
        · rename_i r t₁ n₁ i₁ hr
          split at hr
          · cases hr
          · simp only [Except.ok.injEq, Prod.mk.injEq] at hr h
            obtain ⟨rfl, rfl, rfl⟩ := hr
            subst h
            exact ⟨he, (n, i) :: t, m, ⟨hz, by rw [ha]; simp [arrival, hd, Except.map]⟩, rfl⟩

/-- A path that arrives in a directory leads to it, by the names of the trail. -/
theorem Arrives.reach (h : fs.Arrives dir t m) (he : (Path.ofText dir).isEmpty = false) :
    ∃ t₀ n, fs.reach (Path.ofText dir) = .ok (t₀, n, t.here) ∧
      (t₀.map Prod.fst).reverse ++ n.toList = (t.map Prod.fst).reverse := by
  obtain ⟨hz, hway⟩ := h
  unfold FileSystem.reach walk
  simp only [hz, he, if_false, Bool.false_eq_true]
  cases hw : fs.walkFrom .follow linkLimit [] (Path.ofText dir).parts (Path.ofText dir).trailing with
  | error err =>
    have hw' := @walkFrom_trailing fs [] linkLimit (Path.ofText dir).parts
      (Path.ofText dir).trailing false
    unfold arrive at hway
    rw [hw] at hw'
    cases hw'' : fs.walkFrom .follow linkLimit [] (Path.ofText dir).parts false with
    | error err' => rw [hw''] at hway; cases hway
    | ok r => rw [hw''] at hw'; cases hw'
  | ok r =>
    obtain ⟨s, m'⟩ := r
    rw [arrive_eq _ hw] at hway
    cases s with
    | inside t₁ =>
      simp only [arrival, Except.map, Except.ok.injEq, Prod.mk.injEq] at hway ⊢
      obtain ⟨rfl, -⟩ := hway
      exact ⟨t₁, none, ⟨rfl, rfl, rfl⟩, by simp⟩
    | entry t₁ n i tr =>
      cases i with
      | none => simp [arrival, Except.map] at hway
      | some i =>
        by_cases hd : fs.isDirectory i
        · simp only [arrival, hd, if_true, Except.map, Except.ok.injEq, Prod.mk.injEq] at hway ⊢
          obtain ⟨rfl, -⟩ := hway
          exact ⟨t₁, some n, by simp [Trail.here], by simp⟩
        · simp [arrival, hd, Except.map] at hway

theorem Arrives.find (h : fs.Arrives dir t m) (he : (Path.ofText dir).isEmpty = false) :
    fs.find (Path.ofText dir) = .ok t.here := by
  obtain ⟨t₀, n, hr, -⟩ := h.reach he
  rw [FileSystem.find, hr]

/-- The canonical path is the text of the trail. -/
theorem Arrives.canonical (h : fs.Arrives dir t m) (he : (Path.ofText dir).isEmpty = false) :
    fs.canonical (Path.ofText dir) = .ok (absoluteText (t.map Prod.fst).reverse) := by
  obtain ⟨t₀, n, hr, hn⟩ := h.reach he
  rw [FileSystem.canonical, hr]
  exact congrArg _ (congrArg _ hn)

theorem stretches_flatMap {ns : List Bytes} (h : ∀ n ∈ ns, Proper n) :
    stretches (ns.flatMap fun n => slash :: n) = [] :: ns := by
  induction ns with
  | nil => rfl
  | cons n ns ih =>
    have hn := (h n List.mem_cons_self).slash_notMem
    have ih := ih fun x hx => h x (List.mem_cons_of_mem _ hx)
    rw [List.flatMap_cons, List.cons_append, stretches, if_pos rfl]
    cases ns with
    | nil => simp [stretches_of_not_mem hn]
    | cons x xs =>
      rw [List.flatMap_cons, List.cons_append] at ih ⊢
      rw [stretches, if_pos rfl] at ih
      rw [stretches_append_slash, stretches_of_not_mem hn, (List.cons.inj ih).2]
      rfl

/-- The parts of the text of a trail are its names. -/
theorem ofText_absoluteText {ns : List Bytes} (h : ∀ n ∈ ns, Proper n) :
    (Path.ofText (absoluteText ns)).absolute = true ∧
      (Path.ofText (absoluteText ns)).parts = ns.map .name := by
  by_cases h0 : ns = []
  · subst h0; exact ⟨rfl, rfl⟩
  · have ht : absoluteText ns = ns.flatMap fun n => slash :: n := by rw [absoluteText, if_neg h0]
    rw [ht]
    constructor
    · cases ns with
      | nil => exact absurd rfl h0
      | cons n ns => rfl
    · simp only [Path.ofText, stretches_flatMap h]
      rw [List.filterMap_cons_none (by rfl)]
      clear h0 ht
      induction ns with
      | nil => rfl
      | cons n ns ih =>
        rw [List.filterMap_cons_some (Part.ofStretch?_of_proper (h n List.mem_cons_self)),
          ih fun x hx => h x (List.mem_cons_of_mem _ hx)]
        rfl

/-- The names of a trail lead down it. -/
theorem arrive_names (hs : fs.Sound) (h : t.Stands fs) :
    fs.arrive b [] ((t.map Prod.fst).reverse.map .name) = .ok (t, b) := by
  induction t with
  | nil => exact arrive_nil
  | cons e t ih =>
    obtain ⟨n, i⟩ := e
    obtain ⟨hl, hd, ht⟩ := h
    simp only [List.map_cons, List.reverse_cons, List.map_append, List.map_nil]
    rw [arrive_append (ih ht)]
    exact arrive_name (hs.proper hl).2 hl hd

/-- **The canonical path of a directory leads to it**, and through no link. -/
theorem arrives_absoluteText (hs : fs.Sound) (h : t.Stands fs) :
    fs.Arrives (absoluteText (t.map Prod.fst).reverse) t linkLimit := by
  have hp : ∀ n ∈ (t.map Prod.fst).reverse, Proper n := fun n hn =>
    h.proper hs n (List.mem_reverse.1 hn)
  obtain ⟨ha, hparts⟩ := ofText_absoluteText hp
  refine ⟨Path.holdsZero_eq_false ?_, ?_⟩
  · intro q hq
    rw [hparts] at hq
    obtain ⟨n, hn, rfl⟩ := List.mem_map.1 hq
    exact hp n hn
  · rw [hparts]; exact arrive_names hs h

/-! ## Names in a directory -/

theorem holdsZero_join (hn : Proper n) :
    (Path.ofText (join dir n)).holdsZero = (Path.ofText dir).holdsZero := by
  rw [Path.ofText_join dir hn]
  have h0 : (0 : UInt8) ∉ n := hn.zero_notMem
  simp [Path.holdsZero, h0]

/-- The path of a name leads to that name, in the directory. -/
theorem Arrives.walk (h : fs.Arrives dir t m) (hn : Proper n) :
    fs.walk e (Path.ofText (join dir n)) = (fs.walkFrom e m t [.name n] false).map Prod.fst := by
  have hz : (Path.ofText (join dir n)).holdsZero = false := by rw [holdsZero_join hn, h.zero]
  have he : (Path.ofText (join dir n)).isEmpty = false := by
    rw [Path.ofText_join dir hn]; simp [Path.isEmpty]
  unfold FileSystem.walk
  simp only [hz, he, if_false, Bool.false_eq_true]
  rw [Path.ofText_join dir hn, walkFrom_of_arrive h.way (by simp)]

theorem Arrives.walk_ignore (h : fs.Arrives dir t m) (hn : Proper n) :
    fs.walk .ignore (Path.ofText (join dir n)) = .ok (.entry t n none false) := by
  rw [h.walk hn, walkFrom_ignore]; rfl

/-- A walk to a name in a directory comes through the directory. -/
theorem arrives_of_walk {s : Spot} (hn : Proper n)
    (h : fs.walk e (Path.ofText (join dir n)) = .ok s) : ∃ t m, fs.Arrives dir t m := by
  unfold FileSystem.walk at h
  split at h
  · cases h
  rename_i hz
  split at h
  · cases h
  rw [Path.ofText_join dir hn] at h
  cases ha : fs.arrive linkLimit [] (Path.ofText dir).parts with
  | error err => rw [walkFrom_of_arrive_error ha (by simp)] at h; cases h
  | ok r =>
    rw [holdsZero_join hn, Bool.not_eq_true] at hz
    exact ⟨r.1, r.2, hz, ha⟩

/-- The directory in which the name `n` is looked for, by its path in `dir`. -/
def homeOf (fs : FileSystem) (dir n : Bytes) : Option NodeId :=
  match fs.walk .ignore (Path.ofText (join dir n)) with
  | .ok (.entry t _ _ _) => some t.here
  | _ => none

theorem homeOf_eq_some {D : NodeId} (hn : Proper n) :
    fs.homeOf dir n = some D ↔ ∃ t m, fs.Arrives dir t m ∧ t.here = D := by
  unfold homeOf
  constructor
  · intro h
    split at h
    · rename_i t n' i tr hw
      obtain ⟨t', m, ha⟩ := arrives_of_walk hn hw
      rw [ha.walk_ignore hn] at hw
      cases hw
      exact ⟨_, m, ha, Option.some.inj h⟩
    · cases h
  · rintro ⟨t, m, ha, rfl⟩
    rw [ha.walk_ignore hn]

/-- Whatever spelling leads to a directory, the names behind it are looked for there. -/
theorem homeOf_of_find {D : NodeId} (hn : Proper n) (h : fs.find (Path.ofText dir) = .ok D)
    (hd : fs.isDirectory D = true) : fs.homeOf dir n = some D := by
  obtain ⟨-, t, m, ha, ht⟩ := arrives_of_find h hd
  exact (homeOf_eq_some hn).2 ⟨t, m, ha, ht⟩

/-- It is looked at, not followed. -/
theorem Arrives.walk_keep (h : fs.Arrives dir t m) (hn : Proper n) (hlen : n.length ≤ nameLimit) :
    fs.walk .keep (Path.ofText (join dir n)) = .ok (.entry t n (fs.lookup t.here n) false) := by
  rw [h.walk hn, walkFrom_keep hlen]; rfl

/-- It is followed, and is no link. -/
theorem Arrives.walk_last (h : fs.Arrives dir t m) (hn : Proper n) (hlen : n.length ≤ nameLimit)
    (he : e ≠ .ignore) (hl : ∀ j g, fs.lookup t.here n = some j → fs.face? j ≠ some (.link g)) :
    fs.walk e (Path.ofText (join dir n)) = .ok (.entry t n (fs.lookup t.here n) false) := by
  rw [h.walk hn, walkFrom_last hlen he hl]; rfl

/-- The path of a name that is no link leads to what the name is bound to. -/
theorem Arrives.find_join (h : fs.Arrives dir t m) (hn : Proper n) (hlen : n.length ≤ nameLimit)
    (hl : ∀ j g, fs.lookup t.here n = some j → fs.face? j ≠ some (.link g)) :
    fs.find (Path.ofText (join dir n)) =
      match fs.lookup t.here n with
      | none => .error .noEntry
      | some i => .ok i := by
  rw [FileSystem.find, FileSystem.reach, h.walk_last hn hlen (by decide) hl]
  cases fs.lookup t.here n with
  | none => rfl
  | some i => simp

end FileSystem

end EngineDir
