import UnusedDeps.Value.Basic

/-!
# Dates and times

A date is written `YYYY-MM-DD` and must exist in the calendar, a time
`HH:MM:SS` with a fraction of which six digits count, and an offset `Z` or
`±HH:MM`. Dates and times are kept in their standard form, where a fraction has
six digits and is left out when it is zero.
-/

namespace UnusedDeps.Toml

/-- The number of two digits at the front, when it lies in a range. -/
def twoDigits? (lo hi : Nat) : List Char → Option (Nat × List Char)
  | a :: b :: r =>
    if a.isDigit && b.isDigit then
      let n := 10 * (a.toNat - 48) + (b.toNat - 48)
      if lo ≤ n && n ≤ hi then some (n, r) else none
    else none
  | _ => none

/-- What follows a character that must stand at the front. -/
def after? (c : Char) : List Char → Option (List Char)
  | d :: r => if d = c then some r else none
  | [] => none

/-- A number with leading zeros up to a width. -/
def padded (width n : Nat) : String :=
  let ds := Nat.toDigits 10 n
  String.ofList (List.replicate (width - ds.length) '0' ++ ds)

/-! ### Dates -/

def daysIn (year month : Nat) : Nat :=
  if month = 2 then
    if year % 4 = 0 && (year % 100 ≠ 0 || year % 400 = 0) then 29 else 28
  else if month = 4 || month = 6 || month = 9 || month = 11 then 30
  else 31

/-- The year, month and day at the front. -/
def dateParts? (cs : List Char) : Option ((Nat × Nat × Nat) × List Char) := do
  let (century, r) ← twoDigits? 0 99 cs
  let (year, r) ← twoDigits? 0 99 r
  let (month, r) ← twoDigits? 1 12 (← after? '-' r)
  let (day, r) ← twoDigits? 1 31 (← after? '-' r)
  return ((100 * century + year, month, day), r)

def dateText? (date : Nat × Nat × Nat) : Option String :=
  let (year, month, day) := date
  if year = 0 || daysIn year month < day then none
  else some (padded 4 year ++ "-" ++ padded 2 month ++ "-" ++ padded 2 day)

/-! ### Times -/

/-- The fraction of a second in millionths, when digits follow a point. -/
def fraction : List Char → Nat × List Char
  | '.' :: r =>
    let ds := r.takeWhile Char.isDigit
    if ds.isEmpty then (0, '.' :: r)
    else
      let six := ds.take 6 ++ List.replicate (6 - ds.length) '0'
      (six.foldl (fun n c => 10 * n + (c.toNat - 48)) 0, r.dropWhile Char.isDigit)
  | r => (0, r)

/-- The text of the time at the front. -/
def time? (cs : List Char) : Option (String × List Char) := do
  let (hour, r) ← twoDigits? 0 23 cs
  let (minute, r) ← twoDigits? 0 59 (← after? ':' r)
  let (second, r) ← twoDigits? 0 59 (← after? ':' r)
  let (millionths, r) := fraction r
  let body := padded 2 hour ++ ":" ++ padded 2 minute ++ ":" ++ padded 2 second
  return (if millionths = 0 then body else body ++ "." ++ padded 6 millionths, r)

/-- The text of the hours and minutes of an offset. -/
def offsetBody? (sign : String) (cs : List Char) : Option (String × List Char) := do
  let (hour, r) ← twoDigits? 0 23 cs
  let (minute, r) ← twoDigits? 0 59 (← after? ':' r)
  let sign := if hour = 0 && minute = 0 then "+" else sign
  return (sign ++ padded 2 hour ++ ":" ++ padded 2 minute, r)

/-- The text of the offset at the front, empty when there is none. -/
def offset (cs : List Char) : String × List Char :=
  match cs with
  | 'Z' :: r => ("+00:00", r)
  | 'z' :: r => ("+00:00", r)
  | '+' :: r => (offsetBody? "+" r).getD ("", cs)
  | '-' :: r => (offsetBody? "-" r).getD ("", cs)
  | _ => ("", cs)

/-- The time and the offset that follow a date after a separator. -/
def timeOfDay? : List Char → Option (String × List Char)
  | c :: r =>
    if c = 'T' || c = 't' || c = ' ' then do
      let (t, r) ← time? r
      let (o, r) := offset r
      return ("T" ++ t ++ o, r)
    else none
  | [] => none

/-- The date or time at the front. -/
def moment? (cs : List Char) : Option (Value × List Char) :=
  match dateParts? cs with
  | some (date, r) => do
    let d ← dateText? date
    match timeOfDay? r with
    | some (t, r) => return (.moment .dateTime (d ++ t), r)
    | none => return (.moment .date d, r)
  | none => (time? cs).map fun (t, r) => (.moment .time t, r)

end UnusedDeps.Toml
