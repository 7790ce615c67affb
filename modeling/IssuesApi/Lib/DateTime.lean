import IssuesApi.Lib.Text

/-!
# Dates and times

`Civil` is a date and a time of day on the proleptic Gregorian calendar, valid by
construction; `DateTime` adds the UTC offset of an aware `datetime`.  `isoformatUtc` is
`datetime.isoformat()` of an aware UTC value.
-/

namespace IssuesApi

/-- The leap-year rule. -/
def isLeap (year : ℕ) : Bool := year % 4 == 0 && (year % 100 != 0 || year % 400 == 0)

/-- The number of days of a month. -/
def daysInMonth (year month : ℕ) : ℕ :=
  if month = 2 then (if isLeap year then 29 else 28)
  else if month = 4 ∨ month = 6 ∨ month = 9 ∨ month = 11 then 30
  else 31

/-- A calendar date and a time of day, to the microsecond. -/
structure Civil where
  year : ℕ
  month : ℕ
  day : ℕ
  hour : ℕ
  minute : ℕ
  second : ℕ
  microsecond : ℕ
  year_valid : 1 ≤ year ∧ year ≤ 9999
  month_valid : 1 ≤ month ∧ month ≤ 12
  day_valid : 1 ≤ day ∧ day ≤ daysInMonth year month
  hour_valid : hour < 24
  minute_valid : minute < 60
  second_valid : second < 60
  microsecond_valid : microsecond < 1000000
  deriving DecidableEq

/-- A `datetime`; a naive one has no offset.  Offsets are in minutes. -/
structure DateTime where
  civil : Civil
  offset : Option ℤ
  deriving DecidableEq

/-- `n` in at least `width` digits. -/
def padded (width n : ℕ) : Text :=
  List.replicate (width - (decimal n).length) '0' ++ decimal n

/-- `isoformat()` of an aware UTC `datetime`: the fraction is left out when it is zero. -/
def Civil.isoformatUtc (c : Civil) : Text :=
  padded 4 c.year ++ '-' :: padded 2 c.month ++ '-' :: padded 2 c.day ++
    'T' :: padded 2 c.hour ++ ':' :: padded 2 c.minute ++ ':' :: padded 2 c.second ++
    (if c.microsecond = 0 then [] else '.' :: padded 6 c.microsecond) ++ "+00:00".toList

end IssuesApi
