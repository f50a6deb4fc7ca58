import EngineDir.Clock.Civil

/-!
# The calendar

The date of a day is the one that names it, and later days have later dates. Both follow from where
the months begin: the month that is number `k`, counted from March of year 0, begins `daysBefore k`
days after the first of that March, and a day falls into the last month that has begun.

* `evened_bounds`: **the year of a day of an era**, which `dateOfDays` finds by one division.
* `month_bounds`: **the month of a day of a year**, which it finds by one division as well.
* `daysBefore_succ`: how long a month is.
* `dateOfDays_month`: **the month that a day falls into.**
* `daysOfDate_dateOfDays`: **a date names its day.**
* `dateOfDays_before`: **later days have later dates.**
-/

namespace EngineDir.Clock

/-! ## Years -/

/-- The days from the first of March of year 0 to that of the year `y`. -/
def daysBeforeYear (y : Int) : Int := 365 * y + y / 4 - y / 100 + y / 400

/-- A day of an era without the leap days before it, so that each year has 365. -/
def evened (e : Int) : Int := e - e / 1460 + e / 36524 - e / 146096

theorem evened_succ (e : Int) : evened e ≤ evened (e + 1) := by
  simp only [evened]
  omega

theorem evened_mono {e e' : Int} (h : e ≤ e') : evened e ≤ evened e' := by
  obtain ⟨n, rfl⟩ := Int.le.dest h
  induction n with
  | zero => simp
  | succ n ih =>
    have hcast : e + ((n + 1 : Nat) : Int) = e + n + 1 := by omega
    rw [hcast]
    exact Int.le_trans (ih (by omega)) (evened_succ _)

/-- The first and the last day of each year of an era belong to it. -/
theorem evened_ends : ∀ y : Nat, y < 400 →
    365 * (y : Int) ≤ evened (daysBeforeYear y) ∧
      (y < 399 → evened (daysBeforeYear (y + 1) - 1) < 365 * ((y : Int) + 1)) := by
  decide +kernel

/-- **The year of a day of an era.** What lies between the first and the last day of a year belongs
to it, since evened days go up. -/
theorem evened_bounds {e : Int} (h : 0 ≤ e) (he : e < eraDays) :
    0 ≤ evened e / 365 ∧ evened e / 365 < 400 ∧ daysBeforeYear (evened e / 365) ≤ e ∧
      e < daysBeforeYear (evened e / 365 + 1) := by
  have hy : 0 ≤ evened e / 365 ∧ evened e / 365 < 400 := by
    simp only [evened, eraDays] at *
    omega
  obtain ⟨y, hyy⟩ := Int.eq_ofNat_of_zero_le hy.1
  have hdiv : 365 * (y : Int) ≤ evened e ∧ evened e < 365 * ((y : Int) + 1) := by omega
  refine ⟨hy.1, hy.2, ?_, ?_⟩
  · rw [hyy]
    apply Int.not_lt.1
    intro hlate
    cases y with
    | zero => exact Int.not_lt.2 h hlate
    | succ k =>
      -- the day is not after the last one of the year before
      have hlast := (evened_ends k (by omega)).2 (by omega)
      have hmono : evened e ≤ evened (daysBeforeYear ((k : Int) + 1) - 1) :=
        evened_mono (Int.le_sub_one_of_lt hlate)
      omega
  · rw [hyy]
    apply Int.not_le.1
    intro hearly
    by_cases hk : y + 1 < 400
    · -- the day is not before the first one of the year after
      have hfirst := (evened_ends (y + 1) hk).1
      have hmono : evened (daysBeforeYear ((y : Int) + 1)) ≤ evened e := evened_mono hearly
      have hcast : ((y + 1 : Nat) : Int) = (y : Int) + 1 := by omega
      rw [hcast] at hfirst
      omega
    · have hlast : y = 399 := by omega
      subst hlast
      exact Int.not_lt.2 hearly he

/-! ## Months -/

/-- The days from the first of March of year 0 to the first of the month that is number `k` from
then on. -/
def daysBefore (k : Int) : Int := daysBeforeYear (k / 12) + daysBeforeMonth (k % 12)

/-- A month has up to 31 days, and at least one. -/
theorem daysBefore_succ (k : Int) :
    daysBefore k < daysBefore (k + 1) ∧ daysBefore (k + 1) ≤ daysBefore k + 31 := by
  by_cases hlast : k % 12 = 11
  · -- what is left of a year is its last month
    have hyear : (k + 1) / 12 = k / 12 + 1 ∧ (k + 1) % 12 = 0 := by omega
    rw [daysBefore, daysBefore, hyear.1, hyear.2, hlast]
    simp only [daysBeforeYear, daysBeforeMonth]
    omega
  · have hyear : (k + 1) / 12 = k / 12 ∧ (k + 1) % 12 = k % 12 + 1 := by omega
    rw [daysBefore, daysBefore, hyear.1, hyear.2]
    simp only [daysBeforeMonth]
    omega

theorem daysBefore_mono {k k' : Int} (h : k ≤ k') : daysBefore k ≤ daysBefore k' := by
  obtain ⟨n, rfl⟩ := Int.le.dest h
  induction n with
  | zero => simp
  | succ n ih =>
    have hcast : k + ((n + 1 : Nat) : Int) = k + n + 1 := by omega
    rw [hcast]
    exact Int.le_trans (ih (by omega)) (Int.le_of_lt (daysBefore_succ _).1)

/-- Years of an era begin where those of every other era do. -/
theorem daysBeforeYear_era (a y : Int) :
    daysBeforeYear (400 * a + y) = a * eraDays + daysBeforeYear y := by
  simp only [daysBeforeYear, eraDays]
  omega

/-- **The month of a day of a year**, which is found by one division. -/
theorem month_bounds {n : Int} (h : 0 ≤ n) (hn : n ≤ 365) :
    0 ≤ (5 * n + 2) / 153 ∧ (5 * n + 2) / 153 < 12 ∧
      daysBeforeMonth ((5 * n + 2) / 153) ≤ n ∧ n < daysBeforeMonth ((5 * n + 2) / 153 + 1) := by
  simp only [daysBeforeMonth]
  omega

/-- The date of a day, by the month that it falls into. -/
structure InMonth (d k : Int) : Prop where
  first : daysBefore k ≤ d + epochShift
  last : d + epochShift < daysBefore (k + 1)
  date : dateOfDays d =
    ((k + 2) / 12, ((k + 2) % 12 + 1).toNat, (d + epochShift - daysBefore k + 1).toNat)

/-- **The month that a day falls into.** -/
theorem dateOfDays_month (d : Int) : ∃ k, InMonth d k := by
  have hz : (d + epochShift) / eraDays * eraDays + (d + epochShift) % eraDays = d + epochShift :=
    Int.ediv_mul_add_emod _ _
  obtain ⟨hy, hy', hfirst, hlast⟩ := evened_bounds (e := (d + epochShift) % eraDays)
    (Int.emod_nonneg _ (by decide)) (Int.emod_lt_of_pos _ (by decide))
  -- the era, the day of the era, the year of the era, the day of the year and its month
  generalize hera : (d + epochShift) / eraDays = a at hz
  generalize he : (d + epochShift) % eraDays = e at hz hy hy' hfirst hlast
  generalize hyear : evened e / 365 = y at hy hy' hfirst hlast
  generalize hdoy : e - (365 * y + y / 4 - y / 100) = n
  have hn : 0 ≤ n ∧ n ≤ 365 := by
    simp only [daysBeforeYear] at hfirst hlast
    omega
  have hmonth := month_bounds hn.1 hn.2
  generalize hm : (5 * n + 2) / 153 = m at hmonth
  have hk : (12 * (400 * a + y) + m) / 12 = 400 * a + y ∧ (12 * (400 * a + y) + m) % 12 = m := by
    omega
  have hnoleap : y / 400 = 0 := by omega
  have hbefore :
      daysBefore (12 * (400 * a + y) + m) + (n - daysBeforeMonth m) = d + epochShift := by
    rw [daysBefore, hk.1, hk.2, daysBeforeYear_era, ← hz, ← hdoy]
    simp only [daysBeforeYear, hnoleap]
    omega
  refine ⟨12 * (400 * a + y) + m, by omega, ?_, ?_⟩
  · by_cases h11 : m = 11
    · have hnext : (12 * (400 * a + y) + m + 1) / 12 = 400 * a + (y + 1) ∧
          (12 * (400 * a + y) + m + 1) % 12 = 0 := by omega
      have hzero : daysBeforeMonth 0 = 0 := by decide
      rw [daysBefore, hnext.1, hnext.2, daysBeforeYear_era, ← hz, hzero]
      omega
    · have hnext : (12 * (400 * a + y) + m + 1) / 12 = 400 * a + y ∧
          (12 * (400 * a + y) + m + 1) % 12 = m + 1 := by omega
      rw [daysBefore, hk.1, hk.2] at hbefore
      rw [daysBefore, hnext.1, hnext.2]
      omega
  · have hrest : (d + epochShift) - daysBefore (12 * (400 * a + y) + m) =
        n - daysBeforeMonth m := by
      omega
    have hdate : dateOfDays d = (if (if m < 10 then m + 3 else m - 9) ≤ 2 then a * 400 + y + 1
        else a * 400 + y, (if m < 10 then m + 3 else m - 9).toNat,
        (n - daysBeforeMonth m + 1).toNat) := by
      subst hm hdoy hyear he hera
      rfl
    rw [hdate, hrest]
    by_cases h10 : m < 10
    · have hparts : (12 * (400 * a + y) + m + 2) / 12 = a * 400 + y ∧
          (12 * (400 * a + y) + m + 2) % 12 + 1 = m + 3 := by omega
      rw [if_pos h10, if_neg (by omega), hparts.1, hparts.2]
    · have hparts : (12 * (400 * a + y) + m + 2) / 12 = a * 400 + y + 1 ∧
          (12 * (400 * a + y) + m + 2) % 12 + 1 = m - 9 := by omega
      rw [if_neg h10, if_pos (by omega), hparts.1, hparts.2]

/-! ## Dates -/

variable {d d' k k' : Int}

/-- Each day falls into one month only. -/
theorem InMonth.le (h : InMonth d k) (h' : InMonth d' k') (hle : d ≤ d') : k ≤ k' := by
  apply Int.not_lt.1
  intro hlt
  have hmono : daysBefore (k' + 1) ≤ daysBefore k := daysBefore_mono hlt
  have hfirst := h.first
  have hlast := h'.last
  omega

/-- A month is one of twelve, and a day one of 31 at most. -/
theorem dateOfDays_bounds (d : Int) :
    1 ≤ (dateOfDays d).2.1 ∧ (dateOfDays d).2.1 ≤ 12 ∧ 1 ≤ (dateOfDays d).2.2 ∧
      (dateOfDays d).2.2 ≤ 31 := by
  obtain ⟨k, h⟩ := dateOfDays_month d
  have hfirst := h.first
  have hlast := h.last
  have hlen := (daysBefore_succ k).2
  rw [h.date]
  simp only
  omega

/-- **A date names its day.** -/
theorem daysOfDate_dateOfDays (d : Int) :
    daysOfDate (dateOfDays d).1 (dateOfDays d).2.1 (dateOfDays d).2.2 = d := by
  obtain ⟨k, h⟩ := dateOfDays_month d
  have hfirst := h.first
  rw [h.date]
  simp only [daysOfDate]
  -- the year and the month as they are counted from March
  have hyear :
      (if ((k + 2) % 12 + 1).toNat ≤ 2 then (k + 2) / 12 - 1 else (k + 2) / 12) = k / 12 := by
    split <;> omega
  have hmonth : (if ((k + 2) % 12 + 1).toNat ≤ 2 then ((((k + 2) % 12 + 1).toNat : Nat) : Int) + 9
      else (((k + 2) % 12 + 1).toNat : Int) - 3) = k % 12 := by
    split <;> omega
  rw [hyear, hmonth]
  have hday : (((d + epochShift - daysBefore k + 1).toNat : Nat) : Int) =
      d + epochShift - daysBefore k + 1 := Int.toNat_of_nonneg (by omega)
  rw [hday]
  simp only [daysBefore, daysBeforeYear, eraDays]
  omega

/-- A date lies before another. -/
def DateBefore (a b : Int × Nat × Nat) : Prop :=
  a.1 < b.1 ∨ a.1 = b.1 ∧ (a.2.1 < b.2.1 ∨ a.2.1 = b.2.1 ∧ a.2.2 < b.2.2)

/-- **Later days have later dates**, across the ends of months, years and centuries. -/
theorem dateOfDays_before (hlt : d < d') : DateBefore (dateOfDays d) (dateOfDays d') := by
  obtain ⟨k, h⟩ := dateOfDays_month d
  obtain ⟨k', h'⟩ := dateOfDays_month d'
  have hk := h.le h' (Int.le_of_lt hlt)
  have hfirst := h.first
  have hfirst' := h'.first
  rw [DateBefore, h.date, h'.date]
  simp only
  by_cases hsame : k = k'
  · subst hsame
    exact Or.inr ⟨rfl, Or.inr ⟨rfl, by omega⟩⟩
  · by_cases hyear : (k + 2) / 12 = (k' + 2) / 12
    · exact Or.inr ⟨hyear, Or.inl (by omega)⟩
    · exact Or.inl (by omega)

end EngineDir.Clock
