import EngineDir.FileSystem.Walk
import EngineDir.Proofs.FileSystem.Sound

/-!
# Where walks lead

A walk along several parts is a walk along the first of them, into a directory, and
then along the others. So a path with a name behind it leads to that name in the
directory that the path itself leads to.

* `FileSystem.arrive`: a walk all parts of which are directories to enter.
* `FileSystem.walkFrom_append`: **a walk in two parts.**
* `FileSystem.walk_congr`: what a walk depends on.
* `FileSystem.arrive_roads`: **a way that is there stays where directories and links
  stay.**
-/

namespace EngineDir

namespace FileSystem

variable {fs fs' : FileSystem} {e : Ending} {tr tr' : Bool} {t t' : Trail} {b m : Nat}
  {ps qs rest : List Part} {n : Bytes} {i : NodeId}

/-! ## Steps of a walk -/

theorem walkFrom_nil : fs.walkFrom e b t [] tr = .ok (.inside t, b) := by
  rw [walkFrom, stride]

/-- A last name that is not looked at. -/
theorem walkFrom_ignore : fs.walkFrom .ignore b t [.name n] tr = .ok (.entry t n none tr, b) := by
  simp [walkFrom, stride]

/-- A last name that is looked up and is no link to follow. -/
theorem stride_last (hn : n.length ≤ nameLimit) (hi : e ≠ .ignore) (hc : ¬(e = .create ∧ tr = true))
    (hl : e = .keep ∨ ∀ j g, fs.lookup t.here n = some j → fs.face? j ≠ some (.link g)) :
    fs.stride e tr t [.name n] = .last t n (fs.lookup t.here n) := by
  have hlen : ¬nameLimit < n.length := Nat.not_lt.2 hn
  rw [stride]
  simp only [hlen, hi, hc, and_false, if_false, if_true, true_and]
  cases hlk : fs.lookup t.here n with
  | none => rfl
  | some i =>
    cases hnd : fs.node? i with
    | none => simp [hnd]
    | some nd =>
      cases nd with
      | link g =>
        have hk : e = .keep := hl.resolve_right fun h => h i g hlk (face?_link.2 hnd)
        simp [hnd, hk]
      | file c => simp [hnd]
      | directory d => simp [hnd]
      | device d => simp [hnd]

/-- A name that leads to neither a link nor a directory: a walk ends there or is refused. -/
theorem stride_plain (he : e = .follow ∨ ps ≠ []) (hn : n.length ≤ nameLimit)
    (hl : fs.lookup t.here n = some i) (hf : ∀ g, fs.face? i ≠ some (.link g))
    (hd : fs.isDirectory i = false) :
    fs.stride e tr t (.name n :: ps) =
      if ps = [] then .last t n (some i) else .refused .notDirectory := by
  have hlen : ¬nameLimit < n.length := Nat.not_lt.2 hn
  have hc : ¬(ps = [] ∧ e = .create ∧ tr = true) := by rcases he with rfl | h <;> simp_all
  have hi : ¬(ps = [] ∧ e = .ignore) := by rcases he with rfl | h <;> simp_all
  rw [isDirectory_eq_false] at hd
  simp only [stride, hlen, hc, hi, if_false, hl]
  cases hnd : fs.node? i with
  | none => rfl
  | some nd =>
    cases nd with
    | link g => exact absurd (face?_link.2 hnd) (hf g)
    | directory d => exact absurd (face?_directory.2 ⟨d, hnd⟩) hd
    | file c => rfl
    | device d => rfl

/-- A last name that is looked at and not followed. -/
theorem walkFrom_keep (hn : n.length ≤ nameLimit) :
    fs.walkFrom .keep b t [.name n] tr = .ok (.entry t n (fs.lookup t.here n) tr, b) := by
  rw [walkFrom, stride_last hn (by decide) (by simp) (Or.inl rfl)]

/-- A last name that is followed and leads to no link. -/
theorem walkFrom_last (hn : n.length ≤ nameLimit) (he : e ≠ .ignore)
    (hl : ∀ j g, fs.lookup t.here n = some j → fs.face? j ≠ some (.link g)) :
    fs.walkFrom e b t [.name n] false = .ok (.entry t n (fs.lookup t.here n) false, b) := by
  rw [walkFrom, stride_last hn he (by simp) (Or.inr hl)]

/-! ## Walks in two parts -/

/-- The trail into the directory at the end of a walk. -/
def arrival (fs : FileSystem) : Spot → Except Errno Trail
  | .inside t => .ok t
  | .entry _ _ none _ => .error .noEntry
  | .entry t n (some i) _ =>
    if fs.isDirectory i then .ok ((n, i) :: t) else .error .notDirectory

/-- Walks all parts, each into a directory, following at most `budget` links. The second result is
how many more may be followed. -/
def arrive (fs : FileSystem) (budget : Nat) (t : Trail) (ps : List Part) :
    Except Errno (Trail × Nat) :=
  match fs.walkFrom .follow budget t ps false with
  | .error e => .error e
  | .ok (s, m) => (fs.arrival s).map fun t' => (t', m)

/-- How a stride along `ps` goes on along `rest`. -/
def strideOn (fs : FileSystem) (e : Ending) (tr : Bool) (rest : List Part) : Stride → Stride
  | .refused err => .refused err
  | .done t => fs.stride e tr t rest
  | .last _ _ none => .refused .noEntry
  | .last t n (some i) =>
    if fs.isDirectory i then fs.stride e tr ((n, i) :: t) rest else .refused .notDirectory
  | .link t g ps => .link t g (ps ++ rest)

theorem stride_append (tr' : Bool) (hr : rest ≠ []) :
    fs.stride e tr t (ps ++ rest) = fs.strideOn e tr rest (fs.stride .follow tr' t ps) := by
  induction ps generalizing t with
  | nil => simp [stride, strideOn]
  | cons p ps ih =>
    cases p with
    | here => simpa [stride] using ih
    | up => simpa [stride] using ih
    | name n =>
      have hne : ps ++ rest ≠ [] := by simp [hr]
      by_cases hlen : nameLimit < n.length
      · simp [stride, hlen, hne, strideOn]
      · cases hl : fs.lookup t.here n with
        | none => by_cases hps : ps = [] <;> simp [stride, hlen, hl, hps, hr, strideOn]
        | some i =>
          -- a directory is entered, a link is followed, and nothing else leads on
          by_cases hd : fs.isDirectory i
          · obtain ⟨d, hnd⟩ := face?_directory.1 (isDirectory_iff.1 hd)
            by_cases hps : ps = []
            · simp [stride, hlen, hl, hnd, hps, hr, strideOn, hd]
            · simpa [stride, hlen, hl, hnd, hps, hne] using ih
          · rw [Bool.not_eq_true] at hd
            by_cases hf : ∃ g, fs.face? i = some (.link g)
            · obtain ⟨g, hg⟩ := hf
              simp [stride, hlen, hl, face?_link.1 hg, hne, strideOn]
            · rw [not_exists] at hf
              rw [List.cons_append, stride_plain (Or.inr hne) (Nat.not_lt.1 hlen) hl hf hd,
                stride_plain (Or.inl rfl) (Nat.not_lt.1 hlen) hl hf hd, if_neg hne]
              by_cases hps : ps = [] <;> simp [hps, strideOn, hd]

/-- How a walk goes on from where it came. -/
def walkOn (fs : FileSystem) (e : Ending) (tr : Bool) (rest : List Part) :
    Except Errno (Spot × Nat) → Except Errno (Spot × Nat)
  | .error err => .error err
  | .ok (s, m) =>
    match fs.arrival s with
    | .error err => .error err
    | .ok t => fs.walkFrom e m t rest tr

/-- **A walk in two parts**: along the first ones into a directory, then along the others. -/
theorem walkFrom_append (tr' : Bool) (hr : rest ≠ []) :
    fs.walkFrom e b t (ps ++ rest) tr = fs.walkOn e tr rest (fs.walkFrom .follow b t ps tr') := by
  -- on the links left: behind a link, the rest comes after the parts of its target
  induction b using Nat.strongRecOn generalizing t ps tr' with
  | ind b ih =>
    rw [walkFrom, stride_append tr' hr, walkFrom.eq_def fs .follow]
    cases hs : fs.stride .follow tr' t ps with
    | refused err => rfl
    | done t' => simp only [strideOn, walkOn, arrival]; rw [walkFrom]
    | last t' n i =>
      cases i with
      | none => rfl
      | some i =>
        by_cases hd : fs.isDirectory i
        · simp only [strideOn, walkOn, arrival, hd, if_true]; rw [walkFrom]
        · simp [strideOn, walkOn, arrival, hd]
    | link t' g ps' =>
      have hne : ps' ++ rest ≠ [] := by simp [hr]
      cases b with
      | zero => rfl
      | succ m =>
        simp only [strideOn, hne, if_false, ← List.append_assoc]
        exact ih m (Nat.lt_succ_self m) _

theorem walkFrom_of_arrive (h : fs.arrive b t ps = .ok (t', m)) (hr : rest ≠ []) :
    fs.walkFrom e b t (ps ++ rest) tr = fs.walkFrom e m t' rest tr := by
  rw [walkFrom_append false hr]
  unfold arrive at h
  cases hw : fs.walkFrom .follow b t ps false with
  | error err => rw [hw] at h; cases h
  | ok r =>
    rw [hw] at h
    cases ha : fs.arrival r.1 with
    | error err => simp [ha, Except.map] at h
    | ok t₁ =>
      simp only [ha, Except.map, Except.ok.injEq, Prod.mk.injEq] at h
      obtain ⟨rfl, rfl⟩ := h
      simp only [walkOn, ha]

theorem walkFrom_of_arrive_error {err : Errno} (h : fs.arrive b t ps = .error err)
    (hr : rest ≠ []) : fs.walkFrom e b t (ps ++ rest) tr = .error err := by
  rw [walkFrom_append false hr]
  unfold arrive at h
  cases hw : fs.walkFrom .follow b t ps false with
  | error err' => rw [hw] at h; cases h; rfl
  | ok r =>
    rw [hw] at h
    cases ha : fs.arrival r.1 with
    | error err' => simpa [walkOn, ha, Except.map] using h
    | ok t₁ => simp [ha, Except.map] at h

theorem arrive_nil : fs.arrive b t [] = .ok (t, b) := by
  simp [arrive, walkFrom_nil, arrival, Except.map]

theorem arrive_append (h : fs.arrive b t ps = .ok (t', m)) :
    fs.arrive b t (ps ++ qs) = fs.arrive m t' qs := by
  by_cases hq : qs = []
  · rw [hq, List.append_nil, h, arrive_nil]
  · rw [arrive, arrive, walkFrom_of_arrive h hq]

/-- A name of a directory is entered. -/
theorem arrive_name (hn : n.length ≤ nameLimit) (hl : fs.lookup t.here n = some i)
    (hd : fs.isDirectory i = true) : fs.arrive b t [.name n] = .ok ((n, i) :: t, b) := by
  have hnl : ∀ j g, fs.lookup t.here n = some j → fs.face? j ≠ some (.link g) := by
    intro j g hj
    rw [hl, Option.some.injEq] at hj
    rw [← hj, isDirectory_iff.1 hd]
    simp
  rw [arrive, walkFrom_last hn (by decide) hnl, hl]
  simp [arrival, hd, Except.map]

/-! ## Walks that are the same -/

/-- Every name is bound to the same node, and the same nodes are directories and links. -/
structure SameWays (fs fs' : FileSystem) : Prop where
  lookup : ∀ i n, fs'.lookup i n = fs.lookup i n
  directory : ∀ i, fs'.isDirectory i = fs.isDirectory i
  link : ∀ i g, fs'.face? i = some (.link g) ↔ fs.face? i = some (.link g)

theorem SameWays.refl (fs : FileSystem) : SameWays fs fs :=
  ⟨fun _ _ => rfl, fun _ => rfl, fun _ _ => Iff.rfl⟩

theorem SameWays.trans {fs₁ fs₂ fs₃ : FileSystem} (h : SameWays fs₁ fs₂) (h' : SameWays fs₂ fs₃) :
    SameWays fs₁ fs₃ :=
  ⟨fun i n => (h'.lookup i n).trans (h.lookup i n), fun i => (h'.directory i).trans (h.directory i),
    fun i g => (h'.link i g).trans (h.link i g)⟩

/-- New contents of a file make no difference. -/
theorem sameWays_fill {c : Bytes} (hc : (Change.fill i c).Fits fs) :
    SameWays fs ((Change.fill i c).apply fs) := by
  obtain ⟨c₀, hc⟩ := hc
  have hface : ∀ j, ((Change.fill i c).apply fs).face? j =
      if j = i then some (.file c) else fs.face? j := fun j => face?_setNode _
  refine ⟨fun j n => lookup_fill hc, fun j => ?_, fun j g => ?_⟩
  · rw [Bool.eq_iff_iff, isDirectory_iff, isDirectory_iff, hface]
    split
    · rename_i hj
      rw [hj, hc]
      simp
    · rfl
  · rw [hface]
    split
    · rename_i hj
      rw [hj, hc]
      simp
    · rfl

theorem plain_node (hl : ¬∃ g, fs.node? i = some (.link g))
    (hd : ¬∃ d, fs.node? i = some (.directory d)) :
    fs.node? i = none ∨ (∃ c, fs.node? i = some (.file c)) ∨ ∃ v, fs.node? i = some (.device v) := by
  cases hn : fs.node? i with
  | none => exact Or.inl rfl
  | some nd =>
    cases nd with
    | file c => exact Or.inr (Or.inl ⟨c, rfl⟩)
    | device v => exact Or.inr (Or.inr ⟨v, rfl⟩)
    | link g => exact absurd ⟨g, hn⟩ hl
    | directory d => exact absurd ⟨d, hn⟩ hd

theorem stride_congr (h : SameWays fs fs') : fs'.stride e tr t ps = fs.stride e tr t ps := by
  induction ps generalizing t with
  | nil => rfl
  | cons p ps ih =>
    cases p with
    | here => exact ih
    | up => exact ih
    | name n =>
      rw [stride, stride, h.lookup]
      cases fs.lookup t.here n with
      | none => rfl
      | some i =>
        have hlink : ∀ g, fs'.node? i = some (.link g) ↔ fs.node? i = some (.link g) := by
          intro g
          rw [← face?_link, ← face?_link]
          exact h.link i g
        have hdir : (∃ d, fs'.node? i = some (.directory d)) ↔
            ∃ d, fs.node? i = some (.directory d) := by
          rw [← face?_directory, ← face?_directory, ← isDirectory_iff, ← isDirectory_iff, h.directory]
        by_cases hl : ∃ g, fs.node? i = some (.link g)
        · obtain ⟨g, hg⟩ := hl
          simp only [hg, (hlink g).2 hg]
        by_cases hd : ∃ d, fs.node? i = some (.directory d)
        · obtain ⟨d', hd'⟩ := hdir.2 hd
          obtain ⟨d, hd⟩ := hd
          simp only [hd, hd', ih]
        -- a node that is neither a link nor a directory ends the stride, whatever else it is
        have hl' : ¬∃ g, fs'.node? i = some (.link g) := fun ⟨g, hg⟩ => hl ⟨g, (hlink g).1 hg⟩
        have hd' : ¬∃ d, fs'.node? i = some (.directory d) := fun hd' => hd (hdir.1 hd')
        rcases plain_node hl hd with h₁ | ⟨c, h₁⟩ | ⟨v, h₁⟩ <;>
          rcases plain_node hl' hd' with h₂ | ⟨c', h₂⟩ | ⟨v', h₂⟩ <;> simp only [h₁, h₂]

theorem walkFrom_congr (h : SameWays fs fs') :
    fs'.walkFrom e b t ps tr = fs.walkFrom e b t ps tr := by
  induction b using Nat.strongRecOn generalizing t ps tr with
  | ind b ih =>
    rw [walkFrom, walkFrom.eq_def fs, stride_congr h]
    cases fs.stride e tr t ps with
    | refused err => rfl
    | done t₁ => rfl
    | last t₁ n i => rfl
    | link t₁ g qs =>
      cases b with
      | zero => rfl
      | succ b => exact ih b (Nat.lt_succ_self b)

/-- **Walks lead to the same end where the ways are the same.** -/
theorem walk_congr (h : SameWays fs fs') (p : Path) : fs'.walk e p = fs.walk e p := by
  unfold walk
  rw [walkFrom_congr h]

/-! ## What a change leaves of the way -/

/-- The directories and the links of `fs` stand in `fs'` under the same names. -/
structure Roads (fs fs' : FileSystem) : Prop where
  directory : ∀ {i n j}, fs.lookup i n = some j → fs.face? j = some .directory →
    fs'.lookup i n = some j ∧ fs'.face? j = some .directory
  link : ∀ {i n j g}, fs.lookup i n = some j → fs.face? j = some (.link g) →
    fs'.lookup i n = some j ∧ fs'.face? j = some (.link g)

theorem Roads.refl (fs : FileSystem) : Roads fs fs := ⟨fun h h' => ⟨h, h'⟩, fun h h' => ⟨h, h'⟩⟩

theorem Roads.trans {fs₁ fs₂ fs₃ : FileSystem} (h : Roads fs₁ fs₂) (h' : Roads fs₂ fs₃) :
    Roads fs₁ fs₃ :=
  ⟨fun hl hf => h'.directory (h.directory hl hf).1 (h.directory hl hf).2,
    fun hl hf => h'.link (h.link hl hf).1 (h.link hl hf).2⟩

/-- A change that unbinds no directory and no link leaves the roads. -/
theorem roads_apply {c : Change} (hc : c.Fits fs) (hs : fs.Sound)
    (h : ∀ i n j, fs.lookup i n = some j →
      (fs.face? j = some .directory ∨ ∃ g, fs.face? j = some (.link g)) →
      (c.apply fs).lookup i n = some j) : Roads fs (c.apply fs) where
  directory hl hf := ⟨h _ _ _ hl (Or.inl hf), Change.directory_apply hc hs hf⟩
  link := by
    intro i n j g hl hf
    refine ⟨h i n j hl (Or.inr ⟨g, hf⟩), ?_⟩
    rcases Change.face?_apply hc hf hs with h' | ⟨b, b', hb, -⟩
    · exact h'
    · cases hb

/-- A stride that gets on makes the same way where the roads are the same. -/
theorem stride_roads (hr : Roads fs fs') :
    (∀ t', fs.stride .follow tr t ps = .done t' → fs'.stride .follow tr t ps = .done t') ∧
    (∀ t' g qs, fs.stride .follow tr t ps = .link t' g qs →
      fs'.stride .follow tr t ps = .link t' g qs) ∧
    ∀ t' n i, fs.stride .follow tr t ps = .last t' n (some i) → fs.isDirectory i = true →
      fs'.stride .follow tr t ps = .last t' n (some i) ∧ fs'.isDirectory i = true := by
  induction ps generalizing t with
  | nil => simp [stride]
  | cons p ps ih =>
    cases p with
    | here => simpa only [stride] using ih
    | up => simpa only [stride] using ih
    | name n =>
      by_cases hlen : nameLimit < n.length
      · simp [stride, hlen]
      · cases hl : fs.lookup t.here n with
        | none => by_cases hps : ps = [] <;> simp [stride, hlen, hl, hps]
        | some i =>
          by_cases hd : fs.isDirectory i
          · obtain ⟨d, hnd⟩ := face?_directory.1 (isDirectory_iff.1 hd)
            obtain ⟨hl', hf'⟩ := hr.directory hl (isDirectory_iff.1 hd)
            obtain ⟨d', hnd'⟩ := face?_directory.1 hf'
            by_cases hps : ps = []
            · simp only [stride, hlen, hl, hl', hnd, hnd', hps, reduceCtorEq, false_and, and_false,
                if_false, if_true, false_implies, implies_true, true_and, Stride.last.injEq,
                Option.some.injEq]
              rintro t' n' i' ⟨rfl, rfl, rfl⟩ -
              exact ⟨⟨rfl, rfl, rfl⟩, isDirectory_iff.2 hf'⟩
            · simpa [stride, hlen, hl, hl', hnd, hnd', hps] using ih
          · rw [Bool.not_eq_true] at hd
            -- what is neither a directory nor a link ends the stride, or refuses it
            by_cases hf : ∃ g, fs.face? i = some (.link g)
            · obtain ⟨g, hg⟩ := hf
              obtain ⟨hl', hg'⟩ := hr.link hl hg
              simp [stride, hlen, hl, hl', face?_link.1 hg, face?_link.1 hg']
            · rw [not_exists] at hf
              rw [stride_plain (Or.inl rfl) (Nat.not_lt.1 hlen) hl hf hd]
              by_cases hps : ps = []
              · rw [if_pos hps]
                refine ⟨by simp, by simp, ?_⟩
                rintro t' n' i' he hd'
                cases he
                rw [hd] at hd'
                cases hd'
              · simp [hps]

/-- A walk that ends in a directory ends there where the roads are the same. -/
theorem walkFrom_roads (hr : Roads fs fs') {s : Spot × Nat}
    (hw : fs.walkFrom .follow b t ps tr = .ok s)
    (ha : (fs.arrival s.1).map (fun t₁ => (t₁, s.2)) = .ok (t', m)) :
    ∃ s', fs'.walkFrom .follow b t ps tr = .ok s' ∧
      (fs'.arrival s'.1).map (fun t₁ => (t₁, s'.2)) = .ok (t', m) := by
  -- on the links left: behind a link the walk starts anew, with one less
  induction b using Nat.strongRecOn generalizing t ps tr with
  | ind b ih =>
    obtain ⟨hdone, hlink, hlast⟩ := @stride_roads fs fs' tr t ps hr
    rw [walkFrom] at hw ⊢
    cases hs : fs.stride .follow tr t ps with
    | refused err => rw [hs] at hw; cases hw
    | done t₁ =>
      rw [hs] at hw
      rw [hdone t₁ hs]
      obtain rfl : (.inside t₁, b) = s := Except.ok.inj hw
      exact ⟨_, rfl, ha⟩
    | last t₁ n i =>
      rw [hs] at hw
      obtain rfl : (.entry t₁ n i tr, b) = s := Except.ok.inj hw
      cases i with
      | none => simp [arrival, Except.map] at ha
      | some i =>
        by_cases hd : fs.isDirectory i
        · obtain ⟨hs', hd'⟩ := hlast t₁ n i hs hd
          rw [hs']
          refine ⟨_, rfl, ?_⟩
          simpa [arrival, hd, hd'] using ha
        · simp [arrival, hd, Except.map] at ha
    | link t₁ g qs =>
      rw [hs] at hw
      rw [hlink t₁ g qs hs]
      cases b with
      | zero => cases hw
      | succ b => exact ih b (Nat.lt_succ_self b) hw

/-- **A way that is there stays where the roads stay.** -/
theorem arrive_roads (hr : Roads fs fs') (h : fs.arrive b t ps = .ok (t', m)) :
    fs'.arrive b t ps = .ok (t', m) := by
  unfold arrive at h ⊢
  cases hw : fs.walkFrom .follow b t ps false with
  | error err => rw [hw] at h; cases h
  | ok s =>
    rw [hw] at h
    obtain ⟨s', hw', ha'⟩ := walkFrom_roads hr hw h
    rw [hw']
    exact ha'

end FileSystem

end EngineDir
