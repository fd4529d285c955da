import NexoraGateway.Json

/-!
# `Date.prototype.toISOString`

The proleptic Gregorian date of a time and its text: four digits for the years from 0 to 9999, a sign and six for the
others.
-/
namespace NexoraGateway.Text

/-- Year, month and day of a number of days since 1970-01-01. The year begins in March, so that the leap day is its
last day, and 400 years are an era of 146097 days. -/
def civil (days : ℤ) : ℤ × ℤ × ℤ :=
  let shifted := days + 719468
  let era := shifted / 146097
  let dayOfEra := shifted % 146097
  let yearOfEra := (dayOfEra - dayOfEra / 1460 + dayOfEra / 36524 - dayOfEra / 146096) / 365
  let dayOfYear := dayOfEra - (365 * yearOfEra + yearOfEra / 4 - yearOfEra / 100)
  let monthFromMarch := (5 * dayOfYear + 2) / 153
  let day := dayOfYear - (153 * monthFromMarch + 2) / 5 + 1
  let month := if monthFromMarch < 10 then monthFromMarch + 3 else monthFromMarch - 9
  (yearOfEra + era * 400 + (if month ≤ 2 then 1 else 0), month, day)

/-- A number with leading zeros. -/
def padded (width : ℕ) (n : ℕ) : String :=
  let digits := Nat.toDigits 10 n
  String.ofList (List.replicate (width - digits.length) '0' ++ digits)

def toISOString (t : Time) : String :=
  let (year, month, day) := civil (t / 86400000)
  let ms := (t % 86400000).toNat
  let yyyy :=
    if 0 ≤ year ∧ year ≤ 9999 then padded 4 year.toNat
    else (if year < 0 then "-" else "+") ++ padded 6 year.natAbs
  yyyy ++ "-" ++ padded 2 month.toNat ++ "-" ++ padded 2 day.toNat ++ "T" ++ padded 2 (ms / 3600000) ++ ":" ++
    padded 2 (ms / 60000 % 60) ++ ":" ++ padded 2 (ms / 1000 % 60) ++ "." ++ padded 3 (ms % 1000) ++ "Z"

example : toISOString 951782400123 = "2000-02-29T00:00:00.123Z" := by decide +kernel
example : toISOString (-1) = "1969-12-31T23:59:59.999Z" := by decide +kernel

end NexoraGateway.Text
