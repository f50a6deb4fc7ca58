import EngineDir.Proofs.Numerals
import EngineDir.Proofs.NewLogs
import EngineDir.Proofs.Calendar

/-!
# The order of stamps

The lines of a log sort by their times. A stamp shows the civil time from the year down to the
microsecond, each field as a numeral of fixed width, so that stamps compare as their fields do, and
these as the moments.

* `Numeral.lt_iff_of_length`: **numerals of one length are ordered as their values.**
* `Stamp.encode_text_lt_iff`: **stamps are ordered as their fields.**
* `Clock.Reading.fields_lt`: **fields are ordered as the moments**, at one offset.
* `lines_sort`: **lines are ordered as the moments.**
-/

namespace EngineDir

/-! ## Texts of one length -/

/-- Texts with beginnings of one length are compared by these first. -/
theorem append_lt_append_iff {α : Type} [LT α] {a b c d : List α} (h : a.length = b.length) :
    a ++ c < b ++ d ↔ a < b ∨ a = b ∧ c < d := by
  induction a generalizing b with
  | nil =>
    obtain rfl := List.length_eq_zero_iff.1 h.symm
    simp
  | cons x a ih =>
    cases b with
    | nil => cases h
    | cons y b =>
      have hrest : a ++ c < b ++ d ↔ a < b ∨ a = b ∧ c < d := ih (Nat.succ.inj h)
      simp only [List.cons_append, List.cons_lt_cons_iff, hrest, List.cons.injEq]
      constructor
      · rintro (hxy | ⟨rfl, hab | ⟨rfl, hcd⟩⟩)
        · exact Or.inl (Or.inl hxy)
        · exact Or.inl (Or.inr ⟨rfl, hab⟩)
        · exact Or.inr ⟨⟨rfl, rfl⟩, hcd⟩
      · rintro ((hxy | ⟨rfl, hab⟩) | ⟨⟨rfl, rfl⟩, hcd⟩)
        · exact Or.inl hxy
        · exact Or.inr ⟨rfl, Or.inl hab⟩
        · exact Or.inr ⟨rfl, Or.inr ⟨rfl, hcd⟩⟩

/-- **Numerals of one length are ordered as their values.** -/
theorem Numeral.lt_iff_of_length {ds ds' : List Char} {n n' : Nat} (h : Numeral ds n)
    (h' : Numeral ds' n') (hlen : ds.length = ds'.length) : ds < ds' ↔ n < n' := by
  have hdigit : ∀ {d d' : Char}, d.isDigit = true → d'.isDigit = true →
      ([d] < [d'] ↔ d.toNat - 48 < d'.toNat - 48) := by
    intro d d' hd hd'
    have hb := isDigit_bounds hd
    have hb' := isDigit_bounds hd'
    have hlt : d < d' ↔ d.toNat < d'.toNat := UInt32.lt_iff_toNat_lt
    rw [List.cons_lt_cons_iff, hlt]
    simp only [List.not_lt_nil, and_false, or_false]
    omega
  induction h generalizing ds' n' with
  | @digit d hd =>
    cases h' with
    | digit hd' => exact hdigit hd hd'
    | more h₁ _ =>
      have hpos := List.length_pos_iff.2 h₁.ne_nil
      simp only [List.length_append, List.length_singleton] at hlen
      omega
  | @more ds k d h hd ih =>
    cases h' with
    | digit _ =>
      have hpos := List.length_pos_iff.2 h.ne_nil
      simp only [List.length_append, List.length_singleton] at hlen
      omega
    | @more ds₁ k₁ d₁ h₁ hd₁ =>
      simp only [List.length_append, List.length_singleton, Nat.add_right_cancel_iff] at hlen
      have hfirst : ds < ds₁ ↔ k < k₁ := ih h₁ hlen
      have hb := isDigit_bounds hd
      have hb₁ := isDigit_bounds hd₁
      rw [append_lt_append_iff hlen, hfirst, hdigit hd hd₁]
      constructor
      · rintro (hlt | ⟨rfl, hlt⟩)
        · omega
        · have hsame := h.unique h₁
          omega
      · intro hlt
        by_cases hk : k < k₁
        · exact Or.inl hk
        · obtain rfl : k = k₁ := by omega
          exact Or.inr ⟨h.eq_of_length h₁ hlen, by omega⟩

/-- The form of a text of one-byte characters is ordered as the text. -/
theorem Utf8.encode_lt_iff {cs ds : List Char} (hc : ∀ c ∈ cs, c.toNat < 128)
    (hd : ∀ c ∈ ds, c.toNat < 128) : encode cs < encode ds ↔ cs < ds := by
  induction cs generalizing ds with
  | nil =>
    cases ds with
    | nil => exact iff_of_false (List.lt_irrefl _) (List.lt_irrefl _)
    | cons d ds =>
      rw [encode_cons, encodeChar_ascii (hd d List.mem_cons_self)]
      exact iff_of_true (List.nil_lt_cons _ _) (List.nil_lt_cons _ _)
  | cons c cs ih =>
    cases ds with
    | nil => exact iff_of_false (List.not_lt_nil _) (List.not_lt_nil _)
    | cons d ds =>
      have hrest : encode cs < encode ds ↔ cs < ds :=
        ih (fun x hx => hc x (List.mem_cons_of_mem _ hx)) fun x hx =>
          hd x (List.mem_cons_of_mem _ hx)
      have hcv : c.val.toNat < 128 := hc c List.mem_cons_self
      have hdv : d.val.toNat < 128 := hd d List.mem_cons_self
      have hlt : c.val.toUInt8 < d.val.toUInt8 ↔ c < d := by
        rw [UInt8.lt_iff_toNat_lt, Char.lt_def, UInt32.lt_iff_toNat_lt, UInt32.toNat_toUInt8,
          UInt32.toNat_toUInt8]
        omega
      have heq : c.val.toUInt8 = d.val.toUInt8 ↔ c = d := by
        rw [← UInt8.toNat_inj, UInt32.toNat_toUInt8, UInt32.toNat_toUInt8, ← Char.toNat_inj]
        change _ ↔ c.val.toNat = d.val.toNat
        omega
      rw [encode_cons, encode_cons, encodeChar_ascii hcv, encodeChar_ascii hdv,
        List.singleton_append, List.singleton_append, List.cons_lt_cons_iff, List.cons_lt_cons_iff,
        hlt, heq, hrest]

namespace Decimal

/-- A number with at most `w` digits is written with `w`. -/
theorem length_padded {w n : Nat} (hw : 0 < w) (hn : n < 10 ^ w) : (padded w n).length = w := by
  rw [Numeral.length_padded]
  exact Nat.max_eq_left ((Numeral.length_digits_le_iff hw).2 hn)

/-- Texts that begin with numbers of `w` digits are compared by these first. -/
theorem padded_append_lt_iff {w m n : Nat} (hw : 0 < w) (hm : m < 10 ^ w) (hn : n < 10 ^ w)
    (cs ds : List Char) : padded w m ++ cs < padded w n ++ ds ↔ m < n ∨ m = n ∧ cs < ds := by
  have hlen : (padded w m).length = (padded w n).length := by
    rw [length_padded hw hm, length_padded hw hn]
  have heq : padded w m = padded w n ↔ m = n := by
    refine ⟨fun h => ?_, congrArg _⟩
    have hvalue := congrArg value h
    rwa [value_padded, value_padded] at hvalue
  rw [append_lt_append_iff hlen, (Numeral.padded w m).lt_iff_of_length (Numeral.padded w n) hlen,
    heq]

end Decimal

/-! ## Stamps -/

namespace Clock

/-- A civil time that a stamp has room for. -/
structure Civil.Fits (c : Civil) : Prop where
  year : 0 ≤ c.year ∧ c.year ≤ 9999
  month : c.month < 100
  day : c.day < 100
  hour : c.hour < 100
  minute : c.minute < 100
  second : c.second + c.nanos / 1000000000 < 100

namespace Stamp

variable {c d : Civil}

/-- What a stamp shows, the greatest unit first. -/
def fields (c : Civil) : List Nat :=
  [c.year.toNat, c.month, c.day, c.hour, c.minute, c.second + c.nanos / 1000000000,
    c.nanos % 1000000000 / 1000]

theorem text_eq (h : c.Fits) :
    text c = Decimal.padded 4 c.year.toNat ++ '/' :: (Decimal.padded 2 c.month ++
      '/' :: (Decimal.padded 2 c.day ++ ' ' :: (Decimal.padded 2 c.hour ++
      ':' :: (Decimal.padded 2 c.minute ++
      ':' :: (Decimal.padded 2 (c.second + c.nanos / 1000000000) ++
      '.' :: (Decimal.padded 6 (c.nanos % 1000000000 / 1000) ++ [])))))) := by
  simp only [text, date, timeOfDay, year, two, if_pos h.year, List.append_assoc, List.cons_append,
    List.append_nil]

theorem micros_lt (c : Civil) : c.nanos % 1000000000 / 1000 < 10 ^ 6 := by omega

/-- A stamp is made of one-byte characters. -/
theorem text_ascii (h : c.Fits) : ∀ x ∈ text c, x.toNat < 128 := by
  have hdigits : ∀ {w n x}, x ∈ Decimal.padded w n → x.toNat < 128 := by
    intro w n x hx
    have hb := isDigit_bounds (Decimal.isDigit_of_mem_padded hx)
    omega
  intro x hx
  rw [text_eq h] at hx
  simp only [List.mem_append, List.mem_cons, List.not_mem_nil, or_false] at hx
  rcases hx with hx | rfl | hx | rfl | hx | rfl | hx | rfl | hx | rfl | hx | rfl | hx
  all_goals first
    | exact hdigits hx
    | decide

/-- **Stamps are ordered as what they show.** -/
theorem encode_text_lt_iff (h : c.Fits) (h' : d.Fits) :
    Utf8.encode (text c) < Utf8.encode (text d) ↔ fields c < fields d := by
  have hsep : ∀ {x : Char} {cs ds : List Char}, x :: cs < x :: ds ↔ cs < ds := by
    intro x cs ds
    simp
  have hyear : c.year.toNat < 10 ^ 4 := by
    have := h.year
    omega
  have hyear' : d.year.toNat < 10 ^ 4 := by
    have := h'.year
    omega
  rw [Utf8.encode_lt_iff (text_ascii h) (text_ascii h'), text_eq h, text_eq h',
    Decimal.padded_append_lt_iff (by decide) hyear hyear', hsep,
    Decimal.padded_append_lt_iff (by decide) h.month h'.month, hsep,
    Decimal.padded_append_lt_iff (by decide) h.day h'.day, hsep,
    Decimal.padded_append_lt_iff (by decide) h.hour h'.hour, hsep,
    Decimal.padded_append_lt_iff (by decide) h.minute h'.minute, hsep,
    Decimal.padded_append_lt_iff (by decide) h.second h'.second, hsep,
    Decimal.padded_append_lt_iff (by decide) (micros_lt c) (micros_lt d)]
  simp only [fields, List.cons_lt_cons_iff, List.not_lt_nil]

/-- What a stamp shows says all that it is. -/
theorem text_congr (h : c.Fits) (h' : d.Fits) (he : fields c = fields d) : text c = text d := by
  simp only [fields, List.cons.injEq, and_true] at he
  obtain ⟨h1, h2, h3, h4, h5, h6, h7⟩ := he
  rw [text_eq h, text_eq h', h1, h2, h3, h4, h5, h6, h7]

/-! ## Their shape -/

theorem begins_append {cs ds : List Char} {a b : Bytes} (hlen : cs.length = a.length) :
    begins (cs ++ ds) (a ++ b) = (begins cs a && begins ds b) := by
  induction cs generalizing a with
  | nil =>
    obtain rfl := List.length_eq_zero_iff.1 hlen.symm
    rfl
  | cons x cs ih =>
    cases a with
    | nil => cases hlen
    | cons y a =>
      have hrest : begins (cs ++ ds) (a ++ b) = (begins cs a && begins ds b) :=
        ih (Nat.succ.inj hlen)
      simp only [List.cons_append, begins, hrest, Bool.and_assoc]

theorem begins_digits {ds : List Char} (h : ∀ x ∈ ds, x.isDigit = true) :
    begins (List.replicate ds.length 'd') (Utf8.encode ds) = true := by
  induction ds with
  | nil => rfl
  | cons x ds ih =>
    have hb := isDigit_bounds (h x List.mem_cons_self)
    have hv : x.val.toNat = x.toNat := rfl
    have hx : x.val.toUInt8.toNat = x.toNat := by
      rw [UInt32.toNat_toUInt8]
      omega
    have hfits : fits 'd' x.val.toUInt8 = true := by
      refine decide_eq_true ⟨UInt8.le_iff_toNat_le.2 ?_, UInt8.le_iff_toNat_le.2 ?_⟩
      · rw [hx]
        exact hb.1
      · rw [hx]
        exact hb.2
    have hrest := ih fun y hy => h y (List.mem_cons_of_mem _ hy)
    rw [Utf8.encode_cons, Utf8.encodeChar_ascii (by omega)]
    simp only [List.length_cons, List.replicate_succ, List.singleton_append, begins, hfits, hrest,
      Bool.and_self]

/-- A number with at most `w` digits has the shape of `w` digits. -/
theorem begins_padded {w n : Nat} (hw : 0 < w) (hn : n < 10 ^ w) (ds : List Char) (b : Bytes) :
    begins (List.replicate w 'd' ++ ds) (Utf8.encode (Decimal.padded w n) ++ b) = begins ds b := by
  have hdigits : ∀ x ∈ Decimal.padded w n, x.isDigit = true :=
    fun _ => Decimal.isDigit_of_mem_padded
  have hlen : (Decimal.padded w n).length = w := Decimal.length_padded hw hn
  have hsame : (List.replicate w 'd').length = (Utf8.encode (Decimal.padded w n)).length := by
    rw [List.length_replicate, Utf8.length_encode fun x hx => ?_, hlen]
    have hb := isDigit_bounds (hdigits x hx)
    omega
  have hall := begins_digits hdigits
  rw [hlen] at hall
  rw [begins_append hsame, hall, Bool.true_and]

/-- **A stamp with a space behind it has the shape of stamps.** -/
theorem begins_text (h : c.Fits) (b : Bytes) :
    begins shape (Utf8.encode (text c) ++ 32 :: b) = true := by
  have hyear : c.year.toNat < 10 ^ 4 := by
    have := h.year
    omega
  have hshape : shape = List.replicate 4 'd' ++ '/' :: (List.replicate 2 'd' ++
      '/' :: (List.replicate 2 'd' ++ ' ' :: (List.replicate 2 'd' ++
      ':' :: (List.replicate 2 'd' ++ ':' :: (List.replicate 2 'd' ++
      '.' :: (List.replicate 6 'd' ++ [' '])))))) := by decide
  have hsep : ∀ {x : Char} {cs : List Char} {a : Bytes}, x ∈ ['/', ' ', ':', '.'] →
      begins (x :: cs) (String.utf8EncodeChar x ++ a) = begins cs a := by
    intro x cs a hx
    simp only [List.mem_cons, List.not_mem_nil, or_false] at hx
    rcases hx with rfl | rfl | rfl | rfl <;> rfl
  have hlast : begins [' '] (32 :: b) = true := rfl
  rw [hshape, text_eq h]
  simp only [Utf8.encode_append, Utf8.encode_cons, List.append_assoc]
  rw [begins_padded (by decide) hyear, hsep (by decide),
    begins_padded (by decide) h.month, hsep (by decide), begins_padded (by decide) h.day,
    hsep (by decide), begins_padded (by decide) h.hour, hsep (by decide),
    begins_padded (by decide) h.minute, hsep (by decide), begins_padded (by decide) h.second,
    hsep (by decide), begins_padded (by decide) (micros_lt c)]
  exact hlast

theorem length_encode_text (h : c.Fits) : (Utf8.encode (text c)).length = 26 := by
  have hyear : c.year.toNat < 10 ^ 4 := by
    have := h.year
    omega
  rw [Utf8.length_encode (text_ascii h), text_eq h]
  simp only [List.length_append, List.length_cons, List.length_nil,
    Decimal.length_padded (by decide : 0 < 4) hyear,
    Decimal.length_padded (by decide : 0 < 2) h.month,
    Decimal.length_padded (by decide : 0 < 2) h.day,
    Decimal.length_padded (by decide : 0 < 2) h.hour,
    Decimal.length_padded (by decide : 0 < 2) h.minute,
    Decimal.length_padded (by decide : 0 < 2) h.second,
    Decimal.length_padded (by decide : 0 < 6) (micros_lt c)]

end Stamp

/-! ## Moments -/

/-- A moment cut to whole microseconds. -/
def Instant.truncated (t : Instant) : Instant where
  seconds := t.seconds
  nanos := t.nanos / 1000 * 1000

/-- A moment comes before another one. Those of a leap second come after all others of the second
that it follows. -/
def Instant.Before (t u : Instant) : Prop :=
  t.seconds < u.seconds ∨ t.seconds = u.seconds ∧ t.nanos < u.nanos

/-- A reading that shows a year of four digits, and a leap second at most as the second that follows
a minute's last. -/
structure Reading.Regular (r : Reading) : Prop where
  year : 0 ≤ r.civil.year ∧ r.civil.year ≤ 9999
  nanos : r.instant.nanos < 1000000000 ∨
    r.instant.nanos < 2000000000 ∧ r.instant.seconds % 60 = 59 ∧ r.offset % 60 = 0

namespace Reading

variable {r r' : Reading}

/-- The last second of a minute is the only one that may be a leap second. -/
theorem Regular.second (h : r.Regular) : r.civil.second < 60 ∧
    (r.instant.nanos < 1000000000 ∨ r.civil.second = 59 ∧ r.instant.nanos < 2000000000) := by
  have hsecond : r.civil.second = ((r.instant.seconds + r.offset) % 86400).toNat % 60 := rfl
  have hn := h.nanos
  rw [hsecond]
  omega

theorem Regular.fits (h : r.Regular) : r.civil.Fits := by
  have hdate := dateOfDays_bounds ((r.instant.seconds + r.offset) / 86400)
  have hmonth : r.civil.month =
      (dateOfDays ((r.instant.seconds + r.offset) / 86400)).2.1 := rfl
  have hday : r.civil.day = (dateOfDays ((r.instant.seconds + r.offset) / 86400)).2.2 := rfl
  have hhour : r.civil.hour = ((r.instant.seconds + r.offset) % 86400).toNat / 3600 := rfl
  have hminute : r.civil.minute = ((r.instant.seconds + r.offset) % 86400).toNat / 60 % 60 := rfl
  have hnanos : r.civil.nanos = r.instant.nanos := rfl
  have hsecond := h.second
  refine ⟨h.year, ?_, ?_, ?_, ?_, ?_⟩
  all_goals omega

/-- The day that a reading shows, counted from 1970-01-01. -/
def dayCount (r : Reading) : Int := (r.instant.seconds + r.offset) / 86400

/-- The second of the day that a reading shows. -/
def ofDay (r : Reading) : Nat := ((r.instant.seconds + r.offset) % 86400).toNat

/-- A later day is shown as a later date. -/
theorem fields_lt_of_dayCount (h : r.Regular) (h' : r'.Regular) (hd : r.dayCount < r'.dayCount) :
    Stamp.fields r.civil < Stamp.fields r'.civil := by
  have hyear := h.year
  have hyear' := h'.year
  have hdate : r.civil.year < r'.civil.year ∨ r.civil.year = r'.civil.year ∧
      (r.civil.month < r'.civil.month ∨ r.civil.month = r'.civil.month ∧
        r.civil.day < r'.civil.day) := dateOfDays_before hd
  simp only [Stamp.fields, List.cons_lt_cons_iff]
  rcases hdate with hlt | ⟨heq, hlt | ⟨hmonth, hlt⟩⟩
  · exact Or.inl (by omega)
  · exact Or.inr ⟨by rw [heq], Or.inl hlt⟩
  · exact Or.inr ⟨by rw [heq], Or.inr ⟨hmonth, Or.inl hlt⟩⟩

/-- On one day the time of day decides. A leap second shows as second 60, which no other second of
its minute does. -/
theorem fields_lt_of_ofDay (h : r.Regular) (h' : r'.Regular) (hd : r.dayCount = r'.dayCount)
    (hlt : r.ofDay < r'.ofDay ∨ r.ofDay = r'.ofDay ∧
      r.instant.nanos / 1000 < r'.instant.nanos / 1000) :
    Stamp.fields r.civil < Stamp.fields r'.civil := by
  have hyear : r.civil.year = r'.civil.year := congrArg (fun d => (dateOfDays d).1) hd
  have hmonth : r.civil.month = r'.civil.month := congrArg (fun d => (dateOfDays d).2.1) hd
  have hday : r.civil.day = r'.civil.day := congrArg (fun d => (dateOfDays d).2.2) hd
  have hclock : ∀ q : Reading, q.civil.hour = q.ofDay / 3600 ∧
      q.civil.minute = q.ofDay / 60 % 60 ∧ q.civil.second = q.ofDay % 60 ∧
      q.civil.nanos = q.instant.nanos := fun _ => ⟨rfl, rfl, rfl, rfl⟩
  obtain ⟨hhour, hminute, hsecond, hnanos⟩ := hclock r
  obtain ⟨hhour', hminute', hsecond', hnanos'⟩ := hclock r'
  have hleap := h.second
  have hleap' := h'.second
  simp only [Stamp.fields, List.cons_lt_cons_iff, List.not_lt_nil, and_false, or_false]
  refine Or.inr ⟨by rw [hyear], Or.inr ⟨hmonth, Or.inr ⟨hday, ?_⟩⟩⟩
  omega

/-- **What stamps show is ordered as the moments**, across the ends of minutes, days, months and
years, and over leap seconds. -/
theorem fields_lt (h : r.Regular) (h' : r'.Regular) (ho : r.offset = r'.offset)
    (hb : r.instant.truncated.Before r'.instant.truncated) :
    Stamp.fields r.civil < Stamp.fields r'.civil := by
  have hlt : r.instant.seconds < r'.instant.seconds ∨ r.instant.seconds = r'.instant.seconds ∧
      r.instant.nanos / 1000 < r'.instant.nanos / 1000 := by
    rcases hb with hlt | ⟨heq, hlt⟩
    · exact Or.inl hlt
    · simp only [Instant.truncated] at heq hlt
      exact Or.inr ⟨heq, by omega⟩
  by_cases hd : r.dayCount < r'.dayCount
  · exact fields_lt_of_dayCount h h' hd
  · simp only [dayCount] at hd
    refine fields_lt_of_ofDay h h' ?_ ?_
    · simp only [dayCount]
      omega
    · simp only [ofDay]
      omega

/-- What is less than a microsecond is not shown. -/
theorem fields_eq (ho : r.offset = r'.offset)
    (he : r.instant.truncated = r'.instant.truncated) :
    Stamp.fields r.civil = Stamp.fields r'.civil := by
  simp only [Instant.truncated, Instant.mk.injEq] at he
  obtain ⟨hs, hn⟩ := he
  have hday : r.dayCount = r'.dayCount := by rw [dayCount, dayCount, hs, ho]
  have hclock : r.ofDay = r'.ofDay := by rw [ofDay, ofDay, hs, ho]
  have hfields : ∀ q : Reading, Stamp.fields q.civil =
      [(dateOfDays q.dayCount).1.toNat, (dateOfDays q.dayCount).2.1, (dateOfDays q.dayCount).2.2,
        q.ofDay / 3600, q.ofDay / 60 % 60, q.ofDay % 60 + q.instant.nanos / 1000000000,
        q.instant.nanos % 1000000000 / 1000] := fun _ => rfl
  have hsecond : r.instant.nanos / 1000000000 = r'.instant.nanos / 1000000000 := by omega
  have hmicros : r.instant.nanos % 1000000000 / 1000 = r'.instant.nanos % 1000000000 / 1000 := by
    omega
  rw [hfields, hfields, hday, hclock, hsecond, hmicros]

end Reading

/-- Of two moments one comes before the other, or they are the same. -/
theorem Instant.before_trichotomy (t u : Instant) : t.Before u ∨ t = u ∨ u.Before t := by
  obtain ⟨s, n⟩ := t
  obtain ⟨s', n'⟩ := u
  simp only [Before, mk.injEq]
  omega

end Clock

/-! ## Lines -/

open Clock

/-- The number of bytes of a stamp. -/
def SessionLog.stampLength : Nat := 26

/-- What a line begins with. -/
def SessionLog.stampOf (line : Bytes) : Bytes := line.take stampLength

/-- A line is a stamp of one-byte characters, which has the shape of stamps, a space, the message
and a line feed. -/
structure StampedLine (r : Clock.Reading) (message : String) : Prop where
  form : SessionLog.line r message =
    SessionLog.stampOf (SessionLog.line r message) ++ 32 :: Utf8.ofText message ++ [10]
  length : (SessionLog.stampOf (SessionLog.line r message)).length = SessionLog.stampLength
  ascii : ∀ b ∈ SessionLog.stampOf (SessionLog.line r message), b.toNat < 128
  shape : Stamp.begins Stamp.shape (SessionLog.line r message) = true

theorem SessionLog.stampOf_line {r : Clock.Reading} (h : r.Regular) (message : String) :
    stampOf (line r message) = Utf8.encode (Stamp.text r.civil) := by
  rw [line_eq, stampOf, List.append_assoc]
  exact List.take_left' (Stamp.length_encode_text h.fits)

theorem stampedLine {r : Clock.Reading} (h : r.Regular) (message : String) :
    StampedLine r message where
  form := by rw [SessionLog.stampOf_line h, SessionLog.line_eq]
  length := by
    rw [SessionLog.stampOf_line h]
    exact Stamp.length_encode_text h.fits
  ascii b hb := by
    rw [SessionLog.stampOf_line h] at hb
    obtain ⟨c, hc, hcb⟩ := Utf8.mem_encode (Stamp.text_ascii h.fits) hb
    rw [← hcb]
    exact Stamp.text_ascii h.fits c hc
  shape := by
    rw [SessionLog.line_eq, List.append_assoc]
    exact Stamp.begins_text h.fits _

/-- Two lines, and how their stamps compare, byte by byte. -/
structure LinesSort (r r' : Clock.Reading) (message message' : String) : Prop where
  line : StampedLine r message
  line' : StampedLine r' message'
  lt : SessionLog.stampOf (SessionLog.line r message) <
      SessionLog.stampOf (SessionLog.line r' message') ↔
    r.instant.truncated.Before r'.instant.truncated
  eq : SessionLog.stampOf (SessionLog.line r message) =
      SessionLog.stampOf (SessionLog.line r' message') ↔
    r.instant.truncated = r'.instant.truncated

/-- **Lines sort by their times**, as far as stamps show them. -/
theorem lines_sort {r r' : Clock.Reading} (h : r.Regular) (h' : r'.Regular)
    (ho : r.offset = r'.offset) (message message' : String) : LinesSort r r' message message' := by
  have hbefore : ∀ {q q' : Clock.Reading}, q.Regular → q'.Regular → q.offset = q'.offset →
      q.instant.truncated.Before q'.instant.truncated →
      Utf8.encode (Stamp.text q.civil) < Utf8.encode (Stamp.text q'.civil) := fun hq hq' he hb =>
    (Stamp.encode_text_lt_iff hq.fits hq'.fits).2 (Reading.fields_lt hq hq' he hb)
  have hsame : r.instant.truncated = r'.instant.truncated →
      Utf8.encode (Stamp.text r.civil) = Utf8.encode (Stamp.text r'.civil) := fun he =>
    congrArg _ (Stamp.text_congr h.fits h'.fits (Reading.fields_eq ho he))
  refine ⟨stampedLine h message, stampedLine h' message', ?_, ?_⟩
  · rw [SessionLog.stampOf_line h, SessionLog.stampOf_line h']
    refine ⟨fun hlt => ?_, hbefore h h' ho⟩
    rcases Instant.before_trichotomy r.instant.truncated r'.instant.truncated with hb | he | hb
    · exact hb
    · rw [hsame he] at hlt
      exact absurd hlt (List.lt_irrefl _)
    · exact absurd (hbefore h' h ho.symm hb) (List.lt_asymm hlt)
  · rw [SessionLog.stampOf_line h, SessionLog.stampOf_line h']
    refine ⟨fun he => ?_, hsame⟩
    rcases Instant.before_trichotomy r.instant.truncated r'.instant.truncated with hb | he' | hb
    · have hlt := hbefore h h' ho hb
      rw [he] at hlt
      exact absurd hlt (List.lt_irrefl _)
    · exact he'
    · have hlt := hbefore h' h ho.symm hb
      rw [he] at hlt
      exact absurd hlt (List.lt_irrefl _)

/-- A leap second at the end of a year, and the first moment of the next year, read east of UTC. -/
theorem lines_sort_leap :
    LinesSort ⟨⟨1483208999, 1500000999⟩, 19800⟩ ⟨⟨1483209000, 0⟩, 19800⟩ "leap" "new" ∧
      SessionLog.stampOf (SessionLog.line ⟨⟨1483208999, 1500000999⟩, 19800⟩ "leap") =
        Utf8.ofText "2016/12/31 23:59:60.500000" ∧
      SessionLog.stampOf (SessionLog.line ⟨⟨1483209000, 0⟩, 19800⟩ "new") =
        Utf8.ofText "2017/01/01 00:00:00.000000" := by
  have hleap : Reading.Regular ⟨⟨1483208999, 1500000999⟩, 19800⟩ :=
    ⟨by decide, Or.inr (by decide)⟩
  have hnew : Reading.Regular ⟨⟨1483209000, 0⟩, 19800⟩ := ⟨by decide, Or.inl (by decide)⟩
  exact ⟨lines_sort hleap hnew rfl _ _, by decide +kernel, by decide +kernel⟩

end EngineDir
