import Mathlib.Data.Set.Finite.Lattice
import EngineDir.Proofs.Apart
import EngineDir.Proofs.Pinned

/-!
# Exact reads

A read at a position of a regular file gives all the bytes that it is asked for, or fails. The
system may answer each single read with fewer bytes than asked, or interrupt it: the loop around
these reads then asks again. Nothing of this moves the cursor.

* `fileRead`: a single read of a file. `exactly`: the read of as many bytes as asked for.
* `Filling`: where the loop stands, with the branch for interruptions. `Filling.run_full`: **when
  the system always answers in full, it is `fill`.**
* `Filling.OnCourse`: what the loop keeps on a file. `Filling.next_onCourse`: **every answer of the
  system leaves it on course.** `Filling.run_eq_exactly`: **it ends with the same result, whatever
  the system makes of the single reads.**
* `World.heard_filter_positioned`: **reads at a position can be left out of every sequence of
  events.**
* `exactReads`: **reads at a position are exact and leave the cursor alone.**
-/

namespace EngineDir

open FileSystem

/-! ## Files -/

/-- A single read of a file with the bytes `b`. -/
def fileRead (b : Bytes) (pos count : Nat) : Except IoError Bytes :=
  if positionLimit ≤ pos + count then .error (.os .invalid) else .ok ((b.drop pos).take count)

/-- A read of exactly `want` bytes of a file with the bytes `b`. -/
def exactly (b : Bytes) (pos want : Nat) : Except IoError Bytes :=
  if want = 0 then .ok []
  else if positionLimit ≤ pos + want then .error (.os .invalid)
  else if pos + want ≤ b.length then .ok ((b.drop pos).take want)
  else .error .endOfFile

variable {b : Bytes} {pos want j o n : Nat}

theorem Handle.readAt_eq_fileRead {fs : FileSystem} {x : Handle} {f : OpenFile}
    (hf : x.file = some f) (hb : fs.node? f.node = some (.file b)) : x.readAt fs = fileRead b := by
  funext pos count
  simp only [Handle.readAt, Handle.file?, hf, Handle.readNode, FileSystem.readAt, hb, fileRead]
  by_cases hlim : positionLimit ≤ pos + count
  · rw [if_pos hlim, if_pos hlim]
  · rw [if_neg hlim, if_neg hlim]

/-- The first `j` bytes can be read before the others. -/
theorem exactly_advance (hj : 0 < j) (hjw : j ≤ want) (hjb : pos + j ≤ b.length)
    (hlim : pos + want < positionLimit) :
    exactly b pos want = (exactly b (pos + j) (want - j)).map ((b.drop pos).take j ++ ·) := by
  have hwant : want ≠ 0 := by omega
  have hsum : pos + j + (want - j) = pos + want := by omega
  have hsplit : (b.drop pos).take want =
      (b.drop pos).take j ++ (b.drop (pos + j)).take (want - j) := by
    rw [← List.drop_drop, ← List.take_add, Nat.add_sub_cancel' hjw]
  simp only [exactly, if_neg hwant, hsum, if_neg (Nat.not_le_of_lt hlim)]
  by_cases hlast : want - j = 0
  · have hall : pos + want ≤ b.length := by omega
    rw [if_pos hall, if_pos hlast, hsplit, hlast]
    rfl
  · rw [if_neg hlast]
    by_cases hall : pos + want ≤ b.length
    · rw [if_pos hall, if_pos hall, hsplit]
      rfl
    · rw [if_neg hall, if_neg hall]
      rfl

/-! ## The loop -/

/-- What the system makes of a single read. -/
inductive Service where
  | full
  /-- It gives no more than `k + 1` bytes. -/
  | short (k : Nat)
  | interrupted (text : String)

/-- The loop that fills a buffer: it has the bytes `got` and wants some more from `pos` on, or it is
done. -/
inductive Filling where
  | going (pos want : Nat) (got : Bytes)
  | done (r : Except IoError Bytes)

variable {read : Nat → Nat → Except IoError Bytes} {sv : Service} {svs : List Service}
  {f : Filling} {got : Bytes} {r : Except IoError Bytes}

/-- No failure of the read says of itself that it is an interruption. -/
def Steady (read : Nat → Nat → Except IoError Bytes) : Prop :=
  ∀ pos want e, read pos want = .error e → e.kind ≠ .interrupted

theorem fileRead_steady (b : Bytes) : Steady (fileRead b) := by
  intro pos want e he
  unfold fileRead at he
  split at he
  · cases he
    decide
  · cases he

namespace Service

/-- What a read answers then. -/
def serve (read : Nat → Nat → Except IoError Bytes) (pos want : Nat) :
    Service → Except IoError Bytes
  | full => read pos want
  | short k => (read pos want).map (List.take (k + 1))
  | interrupted text => .error (.stated .interrupted text)

def isInterrupted : Service → Bool
  | interrupted _ => true
  | _ => false

/-- A read of a file that is not interrupted gives some first part of what was asked for. -/
theorem serve_fileRead (hsv : sv.isInterrupted = false) (hwant : want ≠ 0)
    (hlim : pos + want < positionLimit) : ∃ j, 0 < j ∧ j ≤ want ∧
      sv.serve (fileRead b) pos want = .ok ((b.drop pos).take j) := by
  have hread : fileRead b pos want = .ok ((b.drop pos).take want) :=
    if_neg (Nat.not_le_of_lt hlim)
  cases sv with
  | full => exact ⟨want, Nat.pos_of_ne_zero hwant, Nat.le_refl want, hread⟩
  | short k =>
    refine ⟨min (k + 1) want, by omega, Nat.min_le_right _ _, ?_⟩
    rw [serve, hread, ← List.take_take]
    rfl
  | interrupted text => cases hsv

/-- A read that is refused, is refused in every way. -/
theorem serve_fileRead_refused (hsv : sv.isInterrupted = false)
    (hlim : positionLimit ≤ pos + want) :
    sv.serve (fileRead b) pos want = .error (.os .invalid) := by
  have hread : fileRead b pos want = .error (.os .invalid) := if_pos hlim
  cases sv with
  | full => exact hread
  | short k =>
    rw [serve, hread]
    rfl
  | interrupted text => cases hsv

theorem serve_interrupted (hsv : sv.isInterrupted = true) :
    ∃ text, sv.serve read pos want = .error (.stated .interrupted text) := by
  cases sv with
  | full => cases hsv
  | short k => cases hsv
  | interrupted text => exact ⟨text, rfl⟩

/-- Only an interruption is reported as one. -/
theorem serve_kind (hread : Steady read) (hsv : sv.isInterrupted = false) {e : IoError}
    (he : sv.serve read pos want = .error e) : e.kind ≠ .interrupted := by
  cases sv with
  | full => exact hread _ _ _ he
  | short k =>
    cases hr : read pos want with
    | error e' =>
      simp only [serve, hr, Except.map, Except.error.injEq] at he
      exact he ▸ hread _ _ _ hr
    | ok bs => simp [serve, hr, Except.map] at he
  | interrupted text => cases hsv

end Service

namespace Filling

/-- A round of the loop, in which a read answers what `reply` says. -/
def next (reply : Nat → Nat → Except IoError Bytes) : Filling → Filling
  | done r => done r
  | going pos want got =>
    if want = 0 then done (.ok got)
    else
      match reply pos want with
      | .error e => if e.kind = .interrupted then going pos want got else done (.error e)
      | .ok [] => done (.error .endOfFile)
      | .ok (b :: bs) =>
        going (pos + (b :: bs).length) (want - (b :: bs).length) (got ++ (b :: bs))

/-- Where the loop stands after some rounds. -/
def run (read : Nat → Nat → Except IoError Bytes) (f : Filling) : List Service → Filling
  | [] => f
  | sv :: svs => (f.next fun pos want => sv.serve read pos want).run read svs

@[simp]
theorem run_done (svs : List Service) : (done r).run read svs = done r := by
  induction svs with
  | nil => rfl
  | cons sv svs ih => exact ih

theorem map_append (got got' : Bytes) (r : Except IoError Bytes) :
    (r.map (got' ++ ·)).map (got ++ ·) = r.map (got ++ got' ++ ·) := by
  cases r with
  | error e => rfl
  | ok bs => simp only [Except.map, List.append_assoc]

/-- What is read first comes first. -/
theorem fill_advance {c : UInt8} {cs : Bytes} (hwant : want ≠ 0)
    (he : read pos want = .ok (c :: cs)) :
    fill read pos want =
      (fill read (pos + (c :: cs).length) (want - (c :: cs).length)).map (c :: cs ++ ·) := by
  rw [fill, if_neg hwant, he]
  dsimp only
  cases fill read (pos + (c :: cs).length) (want - (c :: cs).length) <;> rfl

/-- **When the system always answers in full, the loop is `fill`.** -/
theorem run_full (hread : Steady read) {k : Nat} (hk : want < k) :
    (going pos want got).run read (List.replicate k .full) =
      done ((fill read pos want).map (got ++ ·)) := by
  induction k generalizing pos want got with
  | zero => cases hk
  | succ k ih =>
    rw [List.replicate_succ, run]
    by_cases hwant : want = 0
    · rw [fill, if_pos hwant, next, if_pos hwant, run_done]
      simp only [Except.map, List.append_nil]
    · cases he : read pos want with
      | error e =>
        rw [fill, if_neg hwant, he]
        simp only [next, if_neg hwant, Service.serve, he, if_neg (hread _ _ _ he), run_done,
          Except.map]
      | ok bs =>
        cases bs with
        | nil =>
          rw [fill, if_neg hwant, he]
          simp only [next, if_neg hwant, Service.serve, he, run_done, Except.map]
        | cons c cs =>
          have hless : want - (c :: cs).length < k := by
            rw [List.length_cons]
            omega
          simp only [next, if_neg hwant, Service.serve, he]
          rw [ih hless, fill_advance hwant he, map_append]

/-! ### The end of the loop -/

/-- How many rounds there are at most, apart from those that are interrupted. -/
def left : Filling → Nat
  | going _ want _ => want + 1
  | done _ => 0

theorem eq_done_of_left (h : f.left = 0) : ∃ r, f = done r := by
  cases f with
  | going pos want got => cases h
  | done r => exact ⟨r, rfl⟩

theorem left_next_le (f : Filling) (reply : Nat → Nat → Except IoError Bytes) :
    (f.next reply).left ≤ f.left := by
  cases f with
  | done r => exact Nat.le_refl _
  | going pos want got =>
    rw [next]
    split
    · exact Nat.zero_le _
    · split
      · split
        · exact Nat.le_refl _
        · exact Nat.zero_le _
      · exact Nat.zero_le _
      · exact Nat.succ_le_succ (Nat.sub_le _ _)

/-- A round that is not interrupted brings the loop closer to its end. -/
theorem left_next_lt (hread : Steady read) (hsv : sv.isInterrupted = false) (f : Filling) :
    (f.next fun pos want => sv.serve read pos want).left ≤ f.left - 1 := by
  cases f with
  | done r => exact Nat.le_refl _
  | going pos want got =>
    rw [next]
    split
    · exact Nat.zero_le _
    · split
      · next e he =>
        rw [if_neg (Service.serve_kind hread hsv he)]
        exact Nat.zero_le _
      · exact Nat.zero_le _
      · simp only [left, List.length_cons]
        omega

/-- How many of the reads are not interrupted. -/
def answered (svs : List Service) : Nat := svs.countP fun sv => !sv.isInterrupted

theorem answered_cons (sv : Service) (svs : List Service) :
    answered (sv :: svs) = answered svs + if sv.isInterrupted then 0 else 1 := by
  rw [answered, List.countP_cons]
  cases sv.isInterrupted <;> rfl

theorem answered_append (svs svs' : List Service) :
    answered (svs ++ svs') = answered svs + answered svs' := List.countP_append

/-- Of the first `j` reads all but `N` are answered, if none is interrupted after `N` of them. -/
theorem answered_range {services : Nat → Service} {N : Nat}
    (hN : ∀ k, N ≤ k → (services k).isInterrupted = false) (j : Nat) :
    j ≤ answered ((List.range j).map services) + N := by
  induction j with
  | zero => exact Nat.zero_le _
  | succ j ih =>
    rw [List.range_succ, List.map_append, answered_append, List.map_singleton, answered_cons]
    by_cases hj : N ≤ j
    · rw [hN j hj, if_neg Bool.false_ne_true]
      omega
    · omega

/-- If only finitely many reads are interrupted, then as many are answered as one likes. -/
theorem exists_answered {services : Nat → Service}
    (h : {k | (services k).isInterrupted = true}.Finite) (n : Nat) :
    ∃ k, ∀ j, k ≤ j → n < answered ((List.range j).map services) := by
  obtain ⟨N, hN⟩ := h.bddAbove
  have hlater : ∀ k, N + 1 ≤ k → (services k).isInterrupted = false := by
    intro k hk
    by_contra hne
    have hle : k ≤ N := hN (Bool.of_not_eq_false hne)
    omega
  refine ⟨N + 1 + (n + 1), fun j hj => ?_⟩
  have hmany := answered_range hlater j
  omega

theorem answered_full (k : Nat) : answered (List.replicate k .full) = k := by
  rw [answered, List.countP_replicate]
  rfl

theorem left_run (hread : Steady read) (f : Filling) (svs : List Service) :
    (f.run read svs).left ≤ f.left - answered svs := by
  induction svs generalizing f with
  | nil => exact Nat.le_refl _
  | cons sv svs ih =>
    have hrest := ih (f.next fun pos want => sv.serve read pos want)
    rw [run, answered_cons]
    cases hsv : sv.isInterrupted with
    | true =>
      have hle := left_next_le f fun pos want => sv.serve read pos want
      rw [if_pos rfl]
      omega
    | false =>
      have hlt := left_next_lt hread hsv f
      rw [if_neg Bool.false_ne_true]
      omega

/-! ### Files -/

/-- The loop reads `n` bytes from `o` on of a file with the bytes `b`: what it has got, and what it
still wants, are together what it has to read. Its position is where it began or within the file. -/
def OnCourse (b : Bytes) (o n : Nat) : Filling → Prop
  | going pos want got => pos + want = o + n ∧ (pos = o ∨ pos ≤ b.length) ∧
      exactly b o n = (exactly b pos want).map (got ++ ·)
  | done r => r = exactly b o n

theorem onCourse_start (b : Bytes) (o n : Nat) : (going o n []).OnCourse b o n := by
  refine ⟨rfl, Or.inl rfl, ?_⟩
  cases exactly b o n <;> rfl

/-- A read that gives some of the bytes leaves the loop on course. -/
theorem onCourse_advance (h : (going pos want got).OnCourse b o n) {c : UInt8} {cs : Bytes}
    (hlim : pos + want < positionLimit) (hjw : j ≤ want)
    (hbytes : (b.drop pos).take j = c :: cs) :
    (going (pos + (c :: cs).length) (want - (c :: cs).length) (got ++ (c :: cs))).OnCourse
      b o n := by
  obtain ⟨hsum, hpos, hgoal⟩ := h
  have hlength : (c :: cs).length = min j (b.length - pos) := by
    rw [← hbytes, List.length_take, List.length_drop]
  have hsome : 0 < (c :: cs).length := Nat.succ_pos _
  have hfirst : (b.drop pos).take (c :: cs).length = c :: cs := by
    rw [hlength, ← List.length_drop, ← List.take_eq_take_min, hbytes]
  have hmore : exactly b pos want = _ := exactly_advance hsome (by omega) (by omega) hlim
  rw [hfirst] at hmore
  refine ⟨by omega, Or.inr (by omega), ?_⟩
  rw [hgoal, hmore, map_append]

/-- **Every answer of the system leaves the loop on course.** -/
theorem next_onCourse (h : f.OnCourse b o n) (sv : Service) :
    (f.next fun pos want => sv.serve (fileRead b) pos want).OnCourse b o n := by
  cases f with
  | done r => exact h
  | going pos want got =>
    obtain ⟨hsum, hpos, hgoal⟩ := h
    by_cases hwant : want = 0
    · rw [next, if_pos hwant, OnCourse, hgoal, exactly, if_pos hwant]
      simp only [Except.map, List.append_nil]
    rw [next, if_neg hwant]
    cases hsv : sv.isInterrupted with
    | true =>
      obtain ⟨text, htext⟩ : ∃ text, sv.serve (fileRead b) pos want =
          .error (.stated .interrupted text) := Service.serve_interrupted hsv
      rw [htext]
      dsimp only
      rw [if_pos (show IoError.kind (.stated .interrupted text) = .interrupted from rfl)]
      exact ⟨hsum, hpos, hgoal⟩
    | false =>
      by_cases hlim : positionLimit ≤ pos + want
      · rw [Service.serve_fileRead_refused hsv hlim]
        refine Eq.symm ?_
        rw [hgoal, exactly, if_neg hwant, if_pos hlim]
        rfl
      · obtain ⟨j, hj, hjw, hserve⟩ :=
          Service.serve_fileRead (b := b) hsv hwant (Nat.lt_of_not_le hlim)
        rw [hserve]
        cases hbytes : (b.drop pos).take j with
        | nil =>
          -- nothing is left of the file
          have hend : b.length ≤ pos := by
            have hnone := congrArg List.length hbytes
            rw [List.length_take, List.length_drop, List.length_nil] at hnone
            omega
          refine Eq.symm ?_
          rw [hgoal, exactly, if_neg hwant, if_neg hlim, if_neg (by omega)]
          rfl
        | cons c cs =>
          exact onCourse_advance ⟨hsum, hpos, hgoal⟩ (Nat.lt_of_not_le hlim) hjw hbytes

theorem run_onCourse (b : Bytes) (o n : Nat) (svs : List Service) :
    ((going o n []).run (fileRead b) svs).OnCourse b o n := by
  suffices h : ∀ f : Filling, f.OnCourse b o n → (f.run (fileRead b) svs).OnCourse b o n from
    h _ (onCourse_start b o n)
  induction svs with
  | nil => exact fun f hf => hf
  | cons sv svs ih => exact fun f hf => ih _ (next_onCourse hf sv)

/-- **The loop ends with the same result whatever the system makes of the single reads**, once it
has answered more of them than there are bytes to read. -/
theorem run_eq_exactly {svs : List Service} (h : n < answered svs) :
    (going o n []).run (fileRead b) svs = done (exactly b o n) := by
  have hleft := left_run (fileRead_steady b) (going o n []) svs
  have hcourse := run_onCourse b o n svs
  rw [left] at hleft
  obtain ⟨r, hr⟩ := eq_done_of_left (f := (going o n []).run (fileRead b) svs) (by omega)
  rw [hr] at hcourse ⊢
  rw [show r = exactly b o n from hcourse]

end Filling

/-- An exact read of a file: the loop when it is always answered in full. -/
theorem fill_fileRead (b : Bytes) (o n : Nat) : fill (fileRead b) o n = exactly b o n := by
  have hfull : (Filling.going o n []).run (fileRead b) (List.replicate (n + 1) .full) = _ :=
    Filling.run_full (fileRead_steady b) (Nat.lt_succ_self n)
  have hmany : n < Filling.answered (List.replicate (n + 1) .full) := by
    rw [Filling.answered_full]
    exact Nat.lt_succ_self n
  rw [Filling.run_eq_exactly hmany, Filling.done.injEq] at hfull
  rw [hfull]
  cases fill (fileRead b) o n <;> rfl

theorem Handle.readExactAt_eq_exactly {fs : FileSystem} {x : Handle} {f : OpenFile}
    (hf : x.file = some f) (hb : fs.node? f.node = some (.file b)) (o n : Nat) :
    x.readExactAt fs o n = exactly b o n := by
  rw [Handle.readExactAt, Handle.readAt_eq_fileRead hf hb, fill_fileRead]

/-- An exact read gives the bytes that it wants, if all of them are there. -/
theorem exactly_eq_ok (hb : b.length < positionLimit) (h : n = 0 ∨ o + n ≤ b.length) :
    exactly b o n = .ok ((b.drop o).take n) := by
  unfold exactly
  by_cases hn : n = 0
  · rw [if_pos hn, hn, List.take_zero]
  · have hall : o + n ≤ b.length := h.resolve_left hn
    have hlim : o + n < positionLimit := Nat.lt_of_le_of_lt hall hb
    rw [if_neg hn, if_neg (Nat.not_le_of_lt hlim), if_pos hall]

/-- Otherwise it finds the end of the file, if the positions are in range. -/
theorem exactly_eq_error (hn : n ≠ 0) (hend : b.length < o + n) :
    ∃ e, exactly b o n = .error e ∧ (o + n < positionLimit → e.kind = .unexpectedEof) := by
  rw [exactly, if_neg hn]
  by_cases hlim : positionLimit ≤ o + n
  · rw [if_pos hlim]
    exact ⟨_, rfl, fun h => absurd hlim (Nat.not_le_of_lt h)⟩
  · rw [if_neg hlim, if_neg (Nat.not_le_of_lt hend)]
    exact ⟨_, rfl, fun _ => rfl⟩

/-! ## The cursor -/

/-- A read that does not go by the cursor. -/
def HandleRequest.Positioned : HandleRequest → Prop
  | .readAt _ _ => True
  | .readExactAt _ _ => True
  | .length => True
  | .isEmpty => True
  | _ => False

/-- Some handle is asked for such a read. -/
def Event.Positioned (e : Event) : Prop := ∃ h r, e = .handle h r ∧ r.Positioned

namespace World

variable {w : World} {e : Event}

/-- A read at a position leaves everything as it is. -/
theorem step_positioned (now : Clock.Reading) (he : e.Positioned) : (step now w e).world = w := by
  obtain ⟨h, r, rfl, hr⟩ := he
  simp only [step]
  cases w.handles.get? h with
  | none => rfl
  | some y =>
    dsimp only
    cases w.stores.get? y.store with
    | none => rfl
    | some st =>
      dsimp only
      split
      · cases r with
        | readAt pos n => rfl
        | readExactAt pos n => rfl
        | length => rfl
        | isEmpty => rfl
        | _ => cases hr
      · rfl

/-- **Reads at a position can be left out of every sequence of events.** Nobody is answered or told
anything else, and everything is in the end as it would be, each cursor at its place. -/
theorem heard_filter_positioned (w : World) {acts : List Act}
    (hacts : ∀ a ∈ acts, a.ours = false → a.event.Positioned) :
    w.heard acts = w.heard (acts.filter Act.ours) ∧
      w.acted acts = w.acted (acts.filter Act.ours) := by
  induction acts generalizing w with
  | nil => exact ⟨rfl, rfl⟩
  | cons a acts ih =>
    have hrest : ∀ c ∈ acts, c.ours = false → c.event.Positioned := fun c hc =>
      hacts c (List.mem_cons_of_mem a hc)
    cases hours : a.ours with
    | true =>
      obtain ⟨hheard, hacted⟩ := ih (step a.now w a.event).world hrest
      rw [List.filter_cons_of_pos hours]
      refine ⟨?_, hacted⟩
      simp only [heard, hours, if_true, hheard]
    | false =>
      have hsame : (step a.now w a.event).world = w :=
        step_positioned a.now (hacts a List.mem_cons_self hours)
      obtain ⟨hheard, hacted⟩ := ih w hrest
      rw [List.filter_cons_of_neg (by simp [hours])]
      refine ⟨?_, ?_⟩
      · simp only [heard, hours, Bool.false_eq_true, if_false, hsame, hheard]
      · rw [← hacted]
        simp only [acted, List.map_cons, run, hsame]

/-- What is answered to an exact read through a reader. -/
theorem answer_readExactAt {h s : Nat} {st : Store} {x : Handle} (now : Clock.Reading)
    (hx : w.handles.get? h = some ⟨s, x⟩) (hst : w.stores.get? s = some st)
    (hm : x.mode = .reader) (o n : Nat) :
    (step now w (.handle h (.readExactAt o n))).answer =
      ioAnswer .bytes (x.readExactAt w.fs o n) := by
  simp [step, hx, hst, stepHandle, HandleRequest.suits, hm, answering]

end World

open World

/-- What a reader `x` of a file with the bytes `b` answers in the world `w`, where it has the number
`h`. -/
structure ExactReads (w : World) (h : Nat) (x : Handle) (b : Bytes) : Prop where
  /-- A read succeeds if and only if the file has all the bytes that it wants, -/
  ok_iff : ∀ now o n, (∃ v, (step now w (.handle h (.readExactAt o n))).answer = .ok v) ↔
    n = 0 ∨ o + n ≤ b.length
  /-- and gives exactly these. -/
  bytes : ∀ now o n v, (step now w (.handle h (.readExactAt o n))).answer = .ok v →
    v = .bytes ((b.drop o).take n) ∧ ((b.drop o).take n).length = n
  /-- Otherwise it fails, at the end of the file if the positions are in range. -/
  refused : ∀ now o n, n ≠ 0 → b.length < o + n →
    ∃ e, (step now w (.handle h (.readExactAt o n))).answer = .error (.io e) ∧
      (o + n < positionLimit → e.kind = .unexpectedEof)
  /-- The loop ends with this answer, whatever the system makes of the single reads, once it has
  answered more of them than there are bytes to read. -/
  served : ∀ now o n svs, n < Filling.answered svs →
    ∃ r, (Filling.going o n []).run (x.readAt w.fs) svs = .done r ∧
      (step now w (.handle h (.readExactAt o n))).answer = ioAnswer .bytes r
  /-- So it ends if only finitely many reads are interrupted. -/
  ends : ∀ now o n (services : Nat → Service), {k | (services k).isInterrupted = true}.Finite →
    ∃ k, ∀ j, k ≤ j →
      ∃ r, (Filling.going o n []).run (x.readAt w.fs) ((List.range j).map services) = .done r ∧
        (step now w (.handle h (.readExactAt o n))).answer = ioAnswer .bytes r
  /-- Until then it keeps to what it has to read, and no position leaves the range of a word. -/
  positions : ∀ o n svs pos want got,
    (Filling.going o n []).run (x.readAt w.fs) svs = .going pos want got →
    pos + want = o + n ∧ (o < 2 ^ 64 → pos < 2 ^ 64)
  /-- To read no bytes always succeeds, even through a closed handle. -/
  nothing : ∀ now h' s' x' o, w.handles.get? h' = some ⟨s', x'⟩ → (w.stores.get? s').isSome →
    x'.mode = .reader → (step now w (.handle h' (.readExactAt o 0))).answer = .ok (.bytes [])
  /-- Reads at a position can be left out. -/
  removed : ∀ acts : List Act, (∀ a ∈ acts, a.ours = false → a.event.Positioned) →
    w.heard acts = w.heard (acts.filter Act.ours) ∧
      w.acted acts = w.acted (acts.filter Act.ours)

/-- **Reads at a position are exact and leave the cursor alone.** -/
theorem exactReads {w : World} {h s : Nat} {st : Store} {x : Handle} {f : OpenFile} {b : Bytes}
    (hx : w.handles.get? h = some ⟨s, x⟩) (hst : w.stores.get? s = some st)
    (hm : x.mode = .reader) (hf : x.file = some f) (hb : w.fs.node? f.node = some (.file b))
    (hlt : b.length < positionLimit) : ExactReads w h x b := by
  have hread : x.readAt w.fs = fileRead b := Handle.readAt_eq_fileRead hf hb
  have hanswer : ∀ now o n, (step now w (.handle h (.readExactAt o n))).answer =
      ioAnswer .bytes (exactly b o n) := by
    intro now o n
    rw [answer_readExactAt now hx hst hm, Handle.readExactAt_eq_exactly hf hb]
  have hserved : ∀ o n svs, n < Filling.answered svs →
      (Filling.going o n []).run (x.readAt w.fs) svs = .done (exactly b o n) := by
    intro o n svs hn
    rw [hread]
    exact Filling.run_eq_exactly hn
  have hrefused : ∀ now o n, n ≠ 0 → b.length < o + n →
      ∃ e, (step now w (.handle h (.readExactAt o n))).answer = .error (.io e) ∧
        (o + n < positionLimit → e.kind = .unexpectedEof) := by
    intro now o n hn hend
    obtain ⟨e, he, hkind⟩ := exactly_eq_error hn hend
    refine ⟨e, ?_, hkind⟩
    rw [hanswer, he]
    rfl
  have hiff : ∀ now o n, (∃ v, (step now w (.handle h (.readExactAt o n))).answer = .ok v) ↔
      n = 0 ∨ o + n ≤ b.length := by
    intro now o n
    constructor
    · rintro ⟨v, hv⟩
      by_contra hno
      obtain ⟨hn, hend⟩ := not_or.1 hno
      obtain ⟨e, he, -⟩ := hrefused now o n hn (Nat.lt_of_not_le hend)
      rw [hv] at he
      cases he
    · intro hall
      refine ⟨.bytes ((b.drop o).take n), ?_⟩
      rw [hanswer, exactly_eq_ok hlt hall]
      rfl
  refine ⟨hiff, ?_, hrefused, ?_, ?_, ?_, ?_, fun acts => w.heard_filter_positioned⟩
  · intro now o n v hv
    have hall := (hiff now o n).1 ⟨v, hv⟩
    rw [hanswer, exactly_eq_ok hlt hall] at hv
    refine ⟨(Except.ok.inj hv).symm, ?_⟩
    rw [List.length_take, List.length_drop]
    omega
  · intro now o n svs hn
    exact ⟨_, hserved o n svs hn, hanswer now o n⟩
  · intro now o n services hfinite
    obtain ⟨k, hk⟩ := Filling.exists_answered hfinite n
    exact ⟨k, fun j hj => ⟨_, hserved o n _ (hk j hj), hanswer now o n⟩⟩
  · intro o n svs pos want got hrun
    have hcourse := Filling.run_onCourse b o n svs
    rw [hread] at hrun
    rw [hrun] at hcourse
    obtain ⟨hsum, hpos, -⟩ := hcourse
    refine ⟨hsum, fun ho => ?_⟩
    have hlimit : positionLimit < 2 ^ 64 := by decide
    omega
  · intro now h' s' x' o hx' hst' hm'
    obtain ⟨st', hst'⟩ := Option.isSome_iff_exists.1 hst'
    rw [answer_readExactAt now hx' hst' hm', Handle.readExactAt, fill, if_pos rfl]
    rfl

/-- A reader of a table that holds two bytes. -/
theorem exactReads_reading : ∃ x,
    ((ofFileSystem .furnished).run reading).handles.get? 1 = some ⟨0, x⟩ ∧
      ExactReads ((ofFileSystem .furnished).run reading) 1 x [1, 2] := by
  have hreader : (((ofFileSystem .furnished).run reading).handles.get? 1).map
      (fun y => (y.store, y.value.mode, y.value.file.map fun f =>
        ((ofFileSystem .furnished).run reading).fs.face? f.node)) =
      some (0, .reader, some (some (.file [1, 2]))) := by decide +kernel
  have hstore : (((ofFileSystem .furnished).run reading).stores.get? 0).isSome = true := by
    decide +kernel
  obtain ⟨⟨s, x⟩, hx, hfields⟩ := Option.map_eq_some_iff.1 hreader
  obtain ⟨rfl, hm, hfile⟩ : s = 0 ∧ x.mode = .reader ∧ _ := by
    simpa only [Prod.mk.injEq] using hfields
  obtain ⟨f, hf, hface⟩ := Option.map_eq_some_iff.1 hfile
  obtain ⟨st, hst⟩ := Option.isSome_iff_exists.1 hstore
  exact ⟨x, hx, exactReads hx hst hm hf (face?_file.1 hface) (by decide)⟩

end EngineDir
