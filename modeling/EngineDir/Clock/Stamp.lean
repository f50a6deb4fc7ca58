import EngineDir.Clock.Civil
import EngineDir.Text.Decimal

/-!
# Time stamps

A stamp is `2024/03/05 07:08:09.012345`: the date, the time of day and the whole
microseconds. A leap second shows as second 60. A year has at least four digits;
one outside 0 to 9999 has a sign in front.

* `Stamp.text`: the stamp of a civil time.
* `Stamp.mask`: bytes with `<TS> ` for every stamp of a four-digit year and the
  space behind it, so that texts written at different times can be compared.
-/

namespace EngineDir.Clock.Stamp

/-- A field of two digits. -/
def two (n : Nat) : List Char := Decimal.padded 2 n

/-- The year. -/
def year (y : Int) : List Char :=
  if 0 ≤ y ∧ y ≤ 9999 then Decimal.padded 4 y.toNat
  else (if y < 0 then '-' else '+') :: Decimal.padded 4 y.natAbs

/-- The date. -/
def date (c : Civil) : List Char := year c.year ++ '/' :: two c.month ++ '/' :: two c.day

/-- The time of day; what the nanoseconds exceed a second by counts as one more second. -/
def timeOfDay (c : Civil) : List Char :=
  two c.hour ++ ':' :: two c.minute ++ ':' :: two (c.second + c.nanos / 1000000000) ++
    '.' :: Decimal.padded 6 (c.nanos % 1000000000 / 1000)

/-- The stamp of a civil time. -/
def text (c : Civil) : List Char := date c ++ ' ' :: timeOfDay c

/-- The shape of a stamp and the space behind it, with `d` for a digit. -/
def shape : List Char := "dddd/dd/dd dd:dd:dd.dddddd ".toList

/-- What a masked stamp is replaced by. -/
def masked : List Char := ['<', 'T', 'S', '>', ' ']

/-- Whether a byte stands where the shape has `c`. -/
def fits (c : Char) (b : UInt8) : Bool :=
  if c = 'd' then decide (48 ≤ b ∧ b ≤ 57) else decide (b.toNat = c.toNat)

/-- Whether the bytes begin with the given shape. -/
def begins : List Char → Bytes → Bool
  | [], _ => true
  | _ :: _, [] => false
  | c :: cs, b :: rest => fits c b && begins cs rest

/-- Masks the stamps of the bytes behind the next `skip`, which belong to a stamp masked already. -/
def maskFrom (skip : Nat) : Bytes → Bytes
  | [] => []
  | b :: rest =>
    match skip with
    | n + 1 => maskFrom n rest
    | 0 =>
      if begins shape (b :: rest) then Utf8.encode masked ++ maskFrom (shape.length - 1) rest
      else b :: maskFrom 0 rest

/-- The bytes with every stamp masked. -/
def mask (b : Bytes) : Bytes := maskFrom 0 b

end EngineDir.Clock.Stamp
