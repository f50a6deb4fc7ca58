import EngineDir.Proofs.OpenTable
import EngineDir.Proofs.Refusals

/-!
# Turns

At any time one turn on a store is taken at most, and the store knows its token. Tokens are handed
out in order and never again, so the end of a turn can free nothing but that turn, also when the
store was closed or let go of in between.

* `World.turnOf`, `World.tokens`: what the store says of its turn. `World.taken`: how often the turn
  was taken in a run.
* `World.TurnStep`: all that a step can do to the turns on a store. `World.step_turns`: **every step
  does one of it.**
* `World.TurnsInOrder`: what holds of them. `World.step_turnsInOrder`, `World.run_turnsInOrder`:
  **every step keeps it, and so it holds after every run.**
* `World.step_takeTurn`: what is answered to who asks for the turn.
* `run_oneTurn`: **one turn at a time, and each with a token of its own.**
-/

namespace EngineDir

namespace World

variable {w w' w₀ : World} {now : Clock.Reading} {e : Event} {a : Except Failure Value}
  {s k l token : Nat} {st st' : Store} {es es' : List (Clock.Reading × Event)}

/-- The token of the turn that the store `k` takes for taken. -/
def turnOf (w : World) (k : Nat) : Option Nat := (w.stores.get? k).bind Store.turn

/-- How many tokens the store `k` has handed out. -/
def tokens (w : World) (k : Nat) : Nat :=
  match w.stores.get? k with
  | none => 0
  | some st => st.nextToken

/-- Whether the turn on the store `k` was taken. -/
def takes (k : Nat) : Event → Except Failure Value → Bool
  | .store s (.takeTurn _), .ok .done => decide (s = k)
  | _, _ => false

/-- How often the turn on the store `k` was taken in a run. -/
def taken (w : World) (es : List (Clock.Reading × Event)) (k : Nat) : Nat :=
  (w.history es).countP fun r => takes k r.2.1 r.2.2

/-- Whether the event takes or ends turns. -/
def onTurns : Event → Bool
  | .store _ (.takeTurn _) => true
  | .endTurn _ => true
  | _ => false

/-- What a step does to the turns on the store `k`. -/
inductive TurnStep (k : Nat) (w : World) (e : Event) (a : Except Failure Value) (w' : World) : Prop
  | none (hturn : w'.turnOf k = w.turnOf k) (htok : w'.tokens k = w.tokens k)
      (hlive : ∀ l t, w'.turns.get? l = some ⟨k, t⟩ ↔ w.turns.get? l = some ⟨k, t⟩)
      (ha : takes k e a = false)
  | taken {l : Nat} (he : e = .store k (.takeTurn l)) (hno : w.turnOf k = .none)
      (hfree : w.turns.get? l = .none) (hturn : w'.turnOf k = some (w.tokens k))
      (htok : w'.tokens k = w.tokens k + 1)
      (hlive : w'.turns = w.turns.insert l ⟨k, w.tokens k⟩) (ha : takes k e a = true)
  | ended {l t : Nat} (he : e = .endTurn l) (hl : w.turns.get? l = some ⟨k, t⟩)
      (hturn : w'.turnOf k = if w.turnOf k = some t then .none else w.turnOf k)
      (htok : w'.tokens k = w.tokens k) (hlive : w'.turns = w.turns.erase l)
      (ha : takes k e a = false)

/-! ## Steps -/

theorem turnOf_of_get? (hs : w.stores.get? s = some st) : w.turnOf s = st.turn := by
  simp [turnOf, hs]

theorem tokens_of_get? (hs : w.stores.get? s = some st) : w.tokens s = st.nextToken := by
  simp [tokens, hs]

theorem turnOf_insert (hw : w'.stores = w.stores.insert s st) (k : Nat) :
    w'.turnOf k = if k = s then st.turn else w.turnOf k := by
  unfold turnOf
  rw [hw, Table.get?_insert]
  by_cases hk : k = s <;> simp [hk]

theorem tokens_insert (hw : w'.stores = w.stores.insert s st) (k : Nat) :
    w'.tokens k = if k = s then st.nextToken else w.tokens k := by
  unfold tokens
  rw [hw, Table.get?_insert]
  by_cases hk : k = s <;> simp [hk]

/-- A change of a store that leaves its turn. -/
theorem turn_kept (hs : w.stores.get? s = some st) (hw : w'.stores = w.stores.insert s st')
    (hturn : st'.turn = st.turn) (htok : st'.nextToken = st.nextToken) (k : Nat) :
    w'.turnOf k = w.turnOf k ∧ w'.tokens k = w.tokens k := by
  rw [turnOf_insert hw, tokens_insert hw]
  by_cases hk : k = s
  · rw [if_pos hk, if_pos hk, hk, hturn, htok, turnOf_of_get? hs, tokens_of_get? hs]
    exact ⟨rfl, rfl⟩
  · rw [if_neg hk, if_neg hk]
    exact ⟨rfl, rfl⟩

/-- To let go of a share leaves the turns. -/
theorem turn_settle (w : World) (s k : Nat) :
    (w.settle s).turnOf k = w.turnOf k ∧ (w.settle s).tokens k = w.tokens k := by
  rcases w.settle_cases s with h | ⟨st, hs, -, h⟩
  · rw [h]
    exact ⟨rfl, rfl⟩
  · rw [h]
    exact turn_kept hs (by rfl) (by rfl) (by rfl) k

theorem turn_settled (h : w'.turnOf k = w.turnOf k ∧ w'.tokens k = w.tokens k) (s : Nat) :
    (w'.settle s).turnOf k = w.turnOf k ∧ (w'.settle s).tokens k = w.tokens k := by
  obtain ⟨hturn, htok⟩ := turn_settle w' s k
  exact ⟨hturn.trans h.1, htok.trans h.2⟩

/-- **No other event touches a turn**, neither the close of a store nor its drop. -/
theorem move_turns (hm : Move w e a w') (he : onTurns e = false) (k : Nat) :
    w'.turns = w.turns ∧ w'.turnOf k = w.turnOf k ∧ w'.tokens k = w.tokens k := by
  cases hm with
  | still hi hl => exact ⟨rfl, rfl, rfl⟩
  | relogged hi hs hlog hl => exact ⟨rfl, turn_kept hs rfl (by rfl) (by rfl) k⟩
  | moved hi hh hx hl => exact ⟨rfl, rfl, rfl⟩
  | opened hs hlog hl =>
    -- the number of the store was free, so it had no turn before
    refine ⟨rfl, ?_, ?_⟩
    · rw [turnOf_insert rfl]
      split
      · rename_i hk
        simp [hk, turnOf, hs, Store.fresh]
      · rfl
    · rw [tokens_insert rfl]
      split
      · rename_i hk
        simp [hk, tokens, hs, Store.fresh]
      · rfl
  | granted he' hs ho hc hid hx hh hl => exact ⟨rfl, turn_kept hs rfl (by rfl) (by rfl) k⟩
  | turnTaken hs ho hc ht => cases he
  | closed hs ho hc hn => exact ⟨rfl, turn_kept hs rfl (by rfl) (by rfl) k⟩
  | left hs ho hk hlog hl =>
    exact ⟨turns_settle, turn_settled (turn_kept hs rfl (by rfl) (by rfl) k) _⟩
  | ended hs ho hc hn hl =>
    exact ⟨turns_settle, turn_settled (turn_kept hs rfl (by rfl) (by rfl) k) _⟩
  | shut hh hs hx ha hlog hl => exact ⟨rfl, turn_kept hs rfl (by rfl) (by rfl) k⟩
  | leaked hh hs hx hlog hl =>
    exact ⟨turns_settle, turn_settled (turn_kept hs rfl (by rfl) (by rfl) k) _⟩
  | dropped hh hx => exact ⟨turns_settle, turn_settled ⟨rfl, rfl⟩ _⟩
  | turnEnded ht hs => cases he
  | turnLost ht hs => cases he
  | acquired hk hl => exact ⟨rfl, rfl, rfl⟩
  | released hk => exact ⟨rfl, rfl, rfl⟩

theorem takes_of_not_onTurns (he : onTurns e = false) (a : Except Failure Value) (k : Nat) :
    takes k e a = false := by
  unfold takes
  split
  · cases he
  · rfl

/-- **What is answered to who asks for the turn**, and what comes of it. A closed store is found out
first, then a turn that is taken. -/
theorem step_takeTurn (now : Clock.Reading) (hst : w.stores.get? s = some st)
    (ho : st.owned = true) (hfree : w.turns.get? l = none) :
    step now w (.store s (.takeTurn l)) =
      if st.closed = true then w.answering (.error (.store .closed))
      else if st.turn.isSome = true then w.answering (.error (.store .locked))
      else { world := { w with
               stores := w.stores.insert s
                 { st with turn := some st.nextToken, nextToken := st.nextToken + 1 }
               turns := w.turns.insert l ⟨s, st.nextToken⟩ }
             answer := .ok .done
             notes := [] } := by
  have hcontains : ¬w.turns.contains l = true := by simp [Table.contains, hfree]
  have hstep : step now w (.store s (.takeTurn l)) = w.receivingTurn s l (st.takeTurn w.fs) := by
    rw [step_store_owned hst, if_pos ho, stepStore, if_neg hcontains]
  rw [hstep]
  by_cases hc : st.closed = true
  · have htake : st.takeTurn w.fs = .refuse w.fs st .closed := if_pos hc
    rw [htake, if_pos hc, receivingTurn_refuse l _ hst]
  · rw [if_neg hc]
    by_cases ht : st.turn.isSome = true
    · have htake : st.takeTurn w.fs = .refuse w.fs st .locked := (if_neg hc).trans (if_pos ht)
      rw [htake, if_pos ht, receivingTurn_refuse l _ hst]
    · have htake : st.takeTurn w.fs = _ := (if_neg hc).trans (if_neg ht)
      rw [if_neg ht, htake]
      rfl

/-- Nobody else gets the turn. -/
theorem step_takeTurn_misnamed (now : Clock.Reading)
    (h : (∀ st, w.stores.get? s = some st → st.owned = false) ∨ w.turns.get? l ≠ none) :
    step now w (.store s (.takeTurn l)) = w.answering (.error .misnamed) := by
  cases hst : w.stores.get? s with
  | none => simp only [step, hst]
  | some st =>
    rw [step_store_owned hst]
    by_cases ho : st.owned = true
    · have hused : w.turns.contains l = true := by
        refine Option.isSome_iff_ne_none.2 (h.resolve_left fun hno => ?_)
        rw [hno st hst] at ho
        cases ho
      rw [if_pos ho, stepStore, if_pos hused]
    · rw [if_neg ho]

/-- A turn that ends is gone, whatever has become of its store. -/
theorem turns_endTurn (now : Clock.Reading) {x : Share Nat} (hl : w.turns.get? l = some x) :
    (step now w (.endTurn l)).world.turns = w.turns.erase l := by
  simp only [step, hl, answering, stepEndTurn]
  split
  · rfl
  · exact turns_settle

/-- A store in which a turn was ended gives up that turn and no other. -/
theorem turn_ended (hs : w.stores.get? s = some st)
    (hw : w'.stores = w.stores.insert s (st.endTurn token)) (k : Nat) :
    w'.turnOf k = (if k = s ∧ w.turnOf s = some token then none else w.turnOf k) ∧
      w'.tokens k = w.tokens k := by
  have hslot := turnOf_of_get? hs
  by_cases ht : st.turn = some token
  · have hend : st.endTurn token = { st with turn := none } := if_pos ht
    rw [turnOf_insert hw, tokens_insert hw, hend, hslot]
    by_cases hk : k = s
    · simp [hk, ht, tokens_of_get? hs]
    · simp [hk]
  · have hend : st.endTurn token = st := if_neg ht
    rw [hslot, if_neg fun h => ht h.2]
    exact turn_kept hs hw (by rw [hend]) (by rw [hend]) k

/-- What leaves the world as it is leaves the turns. -/
theorem turnStep_refl (ha : takes k e a = false) : TurnStep k w e a w :=
  .none rfl rfl (fun _ _ => Iff.rfl) ha

/-- What asking for the turn does. -/
theorem turnStep_takeTurn (now : Clock.Reading) (w : World) (s l k : Nat) :
    TurnStep k w (.store s (.takeTurn l)) (step now w (.store s (.takeTurn l))).answer
      (step now w (.store s (.takeTurn l))).world := by
  by_cases hno : (∀ st, w.stores.get? s = some st → st.owned = false) ∨ w.turns.get? l ≠ none
  · rw [step_takeTurn_misnamed now hno]
    exact turnStep_refl rfl
  obtain ⟨hown, hfree⟩ := not_or.1 hno
  have hfree : w.turns.get? l = none := Decidable.of_not_not hfree
  obtain ⟨st, hst, ho⟩ : ∃ st, w.stores.get? s = some st ∧ st.owned = true := by simpa using hown
  rw [step_takeTurn now hst ho hfree]
  split
  · exact turnStep_refl rfl
  split
  · exact turnStep_refl rfl
  rename_i hc ht
  by_cases hk : s = k
  · subst hk
    have htok := tokens_of_get? hst
    refine .taken (l := l) rfl ?_ hfree ?_ ?_ ?_ (by simp [takes])
    · rw [turnOf_of_get? hst]
      simpa using ht
    · rw [turnOf_insert rfl, if_pos rfl, htok]
    · rw [tokens_insert rfl, if_pos rfl, htok]
    · rw [htok]
  · have hk' : ¬k = s := fun h => hk h.symm
    refine .none ?_ ?_ (fun j t => ?_) (by simp [takes, hk])
    · rw [turnOf_insert rfl, if_neg hk']
    · rw [tokens_insert rfl, if_neg hk']
    · -- the new turn is one on the store `s`
      rw [Table.get?_insert]
      split
      · rename_i hj
        rw [hj, hfree]
        simp [hk]
      · exact Iff.rfl

/-- What the end of a turn does. -/
theorem turnStep_endTurn (now : Clock.Reading) (w : World) (l k : Nat) :
    TurnStep k w (.endTurn l) (step now w (.endTurn l)).answer
      (step now w (.endTurn l)).world := by
  cases hl : w.turns.get? l with
  | none =>
    simp only [step, hl]
    exact turnStep_refl rfl
  | some x =>
    obtain ⟨s, t⟩ := x
    have hturns := turns_endTurn now hl
    -- what the store of the turn says of it afterwards
    have hsays : ∀ j, (step now w (.endTurn l)).world.turnOf j =
        (if j = s ∧ w.turnOf s = some t then none else w.turnOf j) ∧
        (step now w (.endTurn l)).world.tokens j = w.tokens j := by
      intro j
      simp only [step, hl, answering, stepEndTurn]
      cases hst : w.stores.get? s with
      | none =>
        refine ⟨?_, rfl⟩
        rw [if_neg (by simp [turnOf, hst])]
        rfl
      | some st =>
        let v : World := { w with
          turns := w.turns.erase l
          stores := w.stores.insert s (st.endTurn t) }
        have hended : v.turnOf j = (if j = s ∧ w.turnOf s = some t then none else w.turnOf j) ∧
          v.tokens j = w.tokens j := turn_ended hst rfl j
        obtain ⟨hturn, htok⟩ := turn_settle v s j
        exact ⟨hturn.trans hended.1, htok.trans hended.2⟩
    obtain ⟨hturn, htok⟩ := hsays k
    by_cases hk : k = s
    · subst hk
      refine .ended rfl hl ?_ htok hturns rfl
      rw [hturn]
      simp
    · rw [if_neg fun h => hk h.1] at hturn
      refine .none hturn htok (fun j u => ?_) rfl
      rw [hturns, Table.get?_erase]
      split
      · rename_i hj
        rw [hj, hl]
        simp [Ne.symm hk]
      · exact Iff.rfl

/-- **What a step does to the turns on a store.** -/
theorem step_turns (now : Clock.Reading) (w : World) (e : Event) (k : Nat) :
    TurnStep k w e (step now w e).answer (step now w e).world := by
  by_cases he : onTurns e = false
  · obtain ⟨hturns, hturn, htok⟩ := move_turns (step_move now w e) he k
    exact .none hturn htok (fun l t => by rw [hturns]) (takes_of_not_onTurns he _ k)
  cases e with
  | store s r =>
    cases r with
    | takeTurn l => exact turnStep_takeTurn now w s l k
    | _ => exact absurd rfl he
  | endTurn l => exact turnStep_endTurn now w l k
  | _ => exact absurd rfl he

/-! ## Runs -/

theorem taken_concat (w : World) (es : List (Clock.Reading × Event)) (now : Clock.Reading)
    (e : Event) (k : Nat) : w.taken (es ++ [(now, e)]) k =
      w.taken es k + if takes k e (step now (w.run es) e).answer then 1 else 0 := by
  simp [taken, history_concat, List.countP_append, List.countP_cons]

/-- In a longer run the turn was taken as often at least. -/
theorem taken_mono (w : World) (h : es <+: es') (k : Nat) : w.taken es k ≤ w.taken es' k := by
  obtain ⟨rest, rfl⟩ := h
  rw [taken, taken, history_append, List.countP_append]
  exact Nat.le_add_right _ _

/-- What holds of the turns on the store `k` after the run `es`. -/
structure TurnsInOrder (w₀ : World) (k : Nat) (es : List (Clock.Reading × Event)) (w : World) :
    Prop where
  /-- The store takes the turn for taken whose token is that of a turn that lives. -/
  held : ∀ t, w.turnOf k = some t ↔ ∃ l, w.turns.get? l = some ⟨k, t⟩
  alone : ∀ l l' t t', w.turns.get? l = some ⟨k, t⟩ → w.turns.get? l' = some ⟨k, t'⟩ → l = l'
  below : ∀ l t, w.turns.get? l = some ⟨k, t⟩ → t < w.tokens k
  counted : w.tokens k = w₀.taken es k

/-- **Every step keeps the turns in order.** -/
theorem step_turnsInOrder (h : TurnsInOrder w₀ k es (w₀.run es)) (now : Clock.Reading) (e : Event) :
    TurnsInOrder w₀ k (es ++ [(now, e)]) (step now (w₀.run es) e).world := by
  have hcount := taken_concat w₀ es now e k
  cases step_turns now (w₀.run es) e k with
  | none hturn htok hlive ha =>
    refine ⟨fun t => ?_, fun l l' t t' hl hl' => ?_, fun l t hl => ?_, ?_⟩
    · rw [hturn, h.held t]
      exact exists_congr fun l => (hlive l t).symm
    · exact h.alone l l' t t' ((hlive l t).1 hl) ((hlive l' t').1 hl')
    · rw [htok]
      exact h.below l t ((hlive l t).1 hl)
    · rw [htok, hcount, ha, h.counted]
      rfl
  | @taken l he hno hfree hturn htok hlive ha =>
    -- nobody had the turn before, so the new one is the only one
    have hnone : ∀ j u, (w₀.run es).turns.get? j ≠ some ⟨k, u⟩ := by
      intro j u hj
      rw [(h.held u).2 ⟨j, hj⟩] at hno
      cases hno
    have hnew : ∀ j u, (step now (w₀.run es) e).world.turns.get? j = some ⟨k, u⟩ →
        j = l ∧ u = (w₀.run es).tokens k := by
      intro j u hj
      rw [hlive, Table.get?_insert] at hj
      split at hj
      · cases hj
        exact ⟨‹_›, rfl⟩
      · exact absurd hj (hnone j u)
    refine ⟨fun t => ?_, fun j j' t t' hj hj' => ?_, fun j t hj => ?_, ?_⟩
    · rw [hturn]
      constructor
      · intro ht
        cases ht
        exact ⟨l, by rw [hlive, Table.get?_insert_self]⟩
      · rintro ⟨j, hj⟩
        rw [(hnew j t hj).2]
    · rw [(hnew j t hj).1, (hnew j' t' hj').1]
    · rw [(hnew j t hj).2, htok]
      exact Nat.lt_succ_self _
    · rw [htok, hcount, ha, h.counted]
      rfl
  | @ended l t he hl hturn htok hlive ha =>
    have hslot : (w₀.run es).turnOf k = some t := (h.held t).2 ⟨l, hl⟩
    have hlast : ∀ j u, (step now (w₀.run es) e).world.turns.get? j ≠ some ⟨k, u⟩ := by
      intro j u hj
      rw [hlive, Table.get?_erase] at hj
      split at hj
      · cases hj
      · rename_i hne
        exact hne (h.alone j l u t hj hl)
    refine ⟨fun u => ?_, fun j j' u u' hj => absurd hj (hlast j u),
      fun j u hj => absurd hj (hlast j u), ?_⟩
    · rw [hturn, if_pos hslot]
      constructor
      · intro hu
        cases hu
      · rintro ⟨j, hj⟩
        exact absurd hj (hlast j u)
    · rw [htok, hcount, ha, h.counted]
      rfl

/-- **After every run the turns are in order.** -/
theorem run_turnsInOrder (fs : FileSystem) (k : Nat) (es : List (Clock.Reading × Event)) :
    TurnsInOrder (ofFileSystem fs) k es ((ofFileSystem fs).run es) := by
  have h0 : TurnsInOrder (ofFileSystem fs) k [] (ofFileSystem fs) := by
    refine ⟨fun t => ⟨fun h => (by cases h), ?_⟩, fun _ _ _ _ h => (by cases h),
      fun _ _ h => (by cases h), rfl⟩
    rintro ⟨l, hl⟩
    cases hl
  exact run_induction (P := TurnsInOrder (ofFileSystem fs) k) h0
    (fun _ now e h => step_turnsInOrder h now e) es

theorem takes_eq_true :
    takes k e a = true ↔ (∃ l, e = .store k (.takeTurn l)) ∧ a = .ok .done := by
  unfold takes
  split
  · simp
  · rename_i hno
    refine ⟨fun h => (by cases h), ?_⟩
    rintro ⟨⟨l, rfl⟩, rfl⟩
    exact absurd rfl (hno k l rfl)

end World

/-! ## One turn at a time -/

open World

/-- The turns on the store `s`, which is `st` after the run `es`. A turn that lives may outlive the
session of the store, and its owner. Tokens are counted without bound; while the turn was taken less
than `2 ^ 64` times they are words. -/
structure OneTurn (w₀ : World) (es : List (Clock.Reading × Event)) (s : Nat) (st : Store) :
    Prop where
  /-- At most one turn lives, -/
  alone : ∀ l l' t t', (w₀.run es).turns.get? l = some ⟨s, t⟩ →
    (w₀.run es).turns.get? l' = some ⟨s, t'⟩ → l = l'
  /-- and the store knows its token. -/
  held : ∀ t, st.turn = some t ↔ ∃ l, (w₀.run es).turns.get? l = some ⟨s, t⟩
  below : ∀ l t, (w₀.run es).turns.get? l = some ⟨s, t⟩ → t < st.nextToken
  /-- A token is used up by a turn that is taken, and by nothing else. -/
  counted : st.nextToken = w₀.taken es s
  /-- The turn that is taken after `n` others has the token `n`. -/
  token : ∀ pre now l, pre ++ [(now, .store s (.takeTurn l))] <+: es →
    (step now (w₀.run pre) (.store s (.takeTurn l))).answer = .ok .done →
    (step now (w₀.run pre) (.store s (.takeTurn l))).world.turns.get? l =
      some ⟨s, w₀.taken pre s⟩
  /-- No later turn has it again. -/
  spent : ∀ pre now l es', pre ++ [(now, .store s (.takeTurn l))] <+: es' → es' <+: es →
    (step now (w₀.run pre) (.store s (.takeTurn l))).answer = .ok .done →
    w₀.taken pre s < w₀.taken es' s ∧ w₀.taken pre s < st.nextToken
  /-- Who asks for the turn is told that the store is closed, or else that the turn is taken. -/
  closed : ∀ now l, st.owned = true → (w₀.run es).turns.get? l = none → st.closed = true →
    step now (w₀.run es) (.store s (.takeTurn l)) =
      (w₀.run es).answering (.error (.store .closed))
  locked : ∀ now l, st.owned = true → (w₀.run es).turns.get? l = none → st.closed = false →
    (∃ l' t, (w₀.run es).turns.get? l' = some ⟨s, t⟩) →
    step now (w₀.run es) (.store s (.takeTurn l)) =
      (w₀.run es).answering (.error (.store .locked))
  /-- Otherwise the turn is taken. -/
  granted : ∀ now l, st.owned = true → (w₀.run es).turns.get? l = none → st.closed = false →
    (∀ l' t, (w₀.run es).turns.get? l' ≠ some ⟨s, t⟩) →
    (step now (w₀.run es) (.store s (.takeTurn l))).answer = .ok .done ∧
      (step now (w₀.run es) (.store s (.takeTurn l))).world.turns.get? l =
        some ⟨s, st.nextToken⟩
  /-- The end of a turn frees the store for the next one. -/
  ended : ∀ now l t, (w₀.run es).turns.get? l = some ⟨s, t⟩ →
    (step now (w₀.run es) (.endTurn l)).world.turnOf s = none ∧
      (step now (w₀.run es) (.endTurn l)).world.tokens s = st.nextToken ∧
      (step now (w₀.run es) (.endTurn l)).world.turns.get? l = none
  /-- A turn that is taken stays taken until it ends itself. -/
  kept : ∀ now e l t, (w₀.run es).turns.get? l = some ⟨s, t⟩ → e ≠ .endTurn l →
    (step now (w₀.run es) e).world.turnOf s = some t ∧
      (step now (w₀.run es) e).world.turns.get? l = some ⟨s, t⟩

/-- **One turn at a time, and each with a token of its own.** -/
theorem run_oneTurn (fs : FileSystem) (es : List (Clock.Reading × Event)) (s : Nat) (st : Store)
    (hst : ((ofFileSystem fs).run es).stores.get? s = some st) :
    OneTurn (ofFileSystem fs) es s st := by
  have h := run_turnsInOrder fs s es
  have hturn := turnOf_of_get? hst
  have htok := tokens_of_get? hst
  have hlocked : ∀ l t, ((ofFileSystem fs).run es).turns.get? l = some ⟨s, t⟩ →
      st.turn = some t := by
    intro l t hl
    rw [← hturn]
    exact (h.held t).2 ⟨l, hl⟩
  have hsuccess : ∀ pre now l,
      (step now ((ofFileSystem fs).run pre) (.store s (.takeTurn l))).answer = .ok .done →
      takes s (.store s (.takeTurn l))
        (step now ((ofFileSystem fs).run pre) (.store s (.takeTurn l))).answer = true :=
    fun pre now l ha => takes_eq_true.2 ⟨⟨l, rfl⟩, ha⟩
  refine ⟨h.alone, ?_, ?_, ?_, ?_, ?_, ?_, ?_, ?_, ?_, ?_⟩
  · intro t
    rw [← hturn]
    exact h.held t
  · rw [← htok]
    exact h.below
  · rw [← htok]
    exact h.counted
  · intro pre now l _ ha
    have hpre := run_turnsInOrder fs s pre
    cases step_turns now ((ofFileSystem fs).run pre) (.store s (.takeTurn l)) s with
    | none _ _ _ hno =>
      rw [hsuccess pre now l ha] at hno
      cases hno
    | taken he _ _ _ _ hlive _ =>
      cases he
      rw [hlive, Table.get?_insert_self, hpre.counted]
    | ended he => cases he
  · intro pre now l es' hpre hes ha
    have hmore : (ofFileSystem fs).taken pre s <
        (ofFileSystem fs).taken (pre ++ [(now, .store s (.takeTurn l))]) s := by
      rw [taken_concat, hsuccess pre now l ha]
      exact Nat.lt_succ_self _
    have hlater := Nat.lt_of_lt_of_le hmore (taken_mono _ hpre s)
    refine ⟨hlater, ?_⟩
    rw [← htok, h.counted]
    exact Nat.lt_of_lt_of_le hlater (taken_mono _ hes s)
  · intro now l ho hfree hc
    rw [step_takeTurn now hst ho hfree, if_pos hc]
  · rintro now l ho hfree hc ⟨l', t, hl'⟩
    have ht : st.turn.isSome = true := by rw [hlocked l' t hl', Option.isSome_some]
    rw [step_takeTurn now hst ho hfree, if_neg (by simp [hc]), if_pos ht]
  · intro now l ho hfree hc hno
    have ht : ¬st.turn.isSome = true := by
      intro hsome
      obtain ⟨t, ht⟩ := Option.isSome_iff_exists.1 hsome
      obtain ⟨l', hl'⟩ := (h.held t).1 (hturn.trans ht)
      exact hno l' t hl'
    rw [step_takeTurn now hst ho hfree, if_neg (by simp [hc]), if_neg ht]
    exact ⟨rfl, Table.get?_insert_self _ _ _⟩
  · intro now l t hl
    have hslot := hturn.trans (hlocked l t hl)
    cases step_turns now ((ofFileSystem fs).run es) (.endTurn l) s with
    | none _ _ hlive _ =>
      have hstays := (hlive l t).2 hl
      rw [turns_endTurn now hl, Table.get?_erase_self] at hstays
      cases hstays
    | taken he => cases he
    | ended he hl' hends htoks hlive _ =>
      cases he
      rw [hl] at hl'
      cases hl'
      rw [hends, if_pos hslot, htoks, htok, hlive]
      exact ⟨rfl, rfl, Table.get?_erase_self _ _⟩
  · intro now e l t hl he
    have hslot := hturn.trans (hlocked l t hl)
    cases step_turns now ((ofFileSystem fs).run es) e s with
    | none hkept _ hlive _ => exact ⟨hkept.trans hslot, (hlive l t).2 hl⟩
    | taken _ hno =>
      rw [hslot] at hno
      cases hno
    | ended he' hl' =>
      rw [h.alone _ _ _ _ hl' hl] at he'
      exact absurd he' he

/-- The turn on a store of `/db` is taken, asked for again, ended and taken once more, and the store
is closed and let go of while the second turn lives. -/
def turned : List (Clock.Reading × Event) :=
  [(⟨⟨0, 0⟩, 0⟩, .openStore 0 { dir := Utf8.encode ['/', 'd', 'b'] }),
    (⟨⟨0, 0⟩, 0⟩, .store 0 (.takeTurn 3)),
    (⟨⟨0, 0⟩, 0⟩, .store 0 (.takeTurn 4)),
    (⟨⟨0, 0⟩, 0⟩, .endTurn 3),
    (⟨⟨0, 0⟩, 0⟩, .store 0 (.takeTurn 4)),
    (⟨⟨0, 0⟩, 0⟩, .store 0 .close),
    (⟨⟨0, 0⟩, 0⟩, .store 0 .abandon)]

/-- The turn that outlives its store has the second token. -/
theorem run_oneTurn_turned : ∃ st,
    ((ofFileSystem .initial).run turned).stores.get? 0 = some st ∧
      OneTurn (ofFileSystem .initial) turned 0 st ∧ st.owned = false ∧ st.closed = true ∧
      st.turn = some 1 ∧ st.nextToken = 2 := by
  have hfields : (((ofFileSystem .initial).run turned).stores.get? 0).map
      (fun st => (st.owned, st.closed, st.turn, st.nextToken)) = some (false, true, some 1, 2) := by
    decide +kernel
  obtain ⟨st, hst, hst'⟩ := Option.map_eq_some_iff.1 hfields
  simp only [Prod.mk.injEq] at hst'
  exact ⟨st, hst, run_oneTurn .initial turned 0 st hst, hst'⟩

end EngineDir
