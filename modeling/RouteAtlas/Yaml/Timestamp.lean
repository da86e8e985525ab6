import RouteAtlas.Text

/-!
# Timestamps

A timestamp is a day, perhaps with a time and a time zone. Its form does not yet make it a day of
the calendar.
-/

namespace RouteAtlas.Yaml

/-- A time of day with the distance to universal time in minutes, if a time zone is given. -/
structure ClockTime where
  hour : Nat
  minute : Nat
  second : Nat
  zone : Option Int

/-- A timestamp; `padded` tells that month and day have two digits each. -/
structure Timestamp where
  year : Nat
  month : Nat
  day : Nat
  padded : Bool
  time : Option ClockTime

namespace Timestamp

/-- From `least` to `most` digits at the front: their value, their number and the rest. -/
def digits? (least most : Nat) (cs : List Char) : Option (Nat × Nat × List Char) :=
  let ds := (cs.take most).takeWhile Char.isDigit
  if least ≤ ds.length then
    some (ds.foldl (fun n d => n * 10 + (d.toNat - 0x30)) 0, ds.length, cs.drop ds.length)
  else none

/-- A character at the front. -/
def char? (c : Char) : List Char → Option (List Char)
  | d :: rest => if c = d then some rest else none
  | [] => none

/-- A space or a tab. -/
def isBlank (c : Char) : Bool := c == ' ' || c == '\t'

/-- What separates the day from the time. -/
def separator? : List Char → Option (List Char)
  | 'T' :: rest => some rest
  | 't' :: rest => some rest
  | c :: rest => if isBlank c then some (rest.dropWhile isBlank) else none
  | [] => none

/-- A part of a second, which may lack digits. -/
def dropFraction : List Char → List Char
  | '.' :: rest => rest.dropWhile Char.isDigit
  | cs => cs

/-- The time zone at the end. -/
def zone? (cs : List Char) : Option (Option Int) :=
  match cs with
  | [] => some none
  | _ =>
    match cs.dropWhile isBlank with
    | ['Z'] => some (some 0)
    | sign :: rest =>
      if sign = '+' ∨ sign = '-' then
        match digits? 1 2 rest with
        | some (hours, _, rest) =>
          let minutes : Option Nat :=
            match rest with
            | [] => some 0
            | ':' :: rest =>
              match digits? 2 2 rest with
              | some (m, _, []) => some m
              | _ => none
            | _ => none
          minutes.map fun m =>
            let total : Int := hours * 60 + m
            some (if sign = '-' then -total else total)
        | none => none
      else none
    | [] => none

/-- The time behind a day. -/
def time? (cs : List Char) : Option ClockTime := do
  let (hour, _, cs) ← digits? 1 2 (← separator? cs)
  let (minute, _, cs) ← digits? 2 2 (← char? ':' cs)
  let (second, _, cs) ← digits? 2 2 (← char? ':' cs)
  return ⟨hour, minute, second, ← zone? (dropFraction cs)⟩

/-- Reads a timestamp. -/
def ofChars? (cs : List Char) : Option Timestamp := do
  let (year, _, cs) ← digits? 4 4 cs
  let (month, monthDigits, cs) ← digits? 1 2 (← char? '-' cs)
  let (day, dayDigits, cs) ← digits? 1 2 (← char? '-' cs)
  let padded := monthDigits == 2 && dayDigits == 2
  if cs.isEmpty then return ⟨year, month, day, padded, none⟩
  else return ⟨year, month, day, padded, some (← time? cs)⟩

/-- The year has a 29th of February. -/
def isLeap (year : Nat) : Bool := (year % 4 == 0 && year % 100 != 0) || year % 400 == 0

/-- The number of days of a month. -/
def daysIn (year month : Nat) : Nat :=
  if month = 2 then if isLeap year then 29 else 28
  else if month = 4 ∨ month = 6 ∨ month = 9 ∨ month = 11 then 30
  else 31

/-- The timestamp is a day of the calendar and a time of the clock, less than a day away from
universal time. -/
def isValid (t : Timestamp) : Bool :=
  1 ≤ t.year && 1 ≤ t.month && t.month ≤ 12 && 1 ≤ t.day && t.day ≤ daysIn t.year t.month
    && (match t.time with
      | none => true
      | some c => c.hour ≤ 23 && c.minute ≤ 59 && c.second ≤ 59
        && (match c.zone with
          | none => true
          | some z => z.natAbs < 1440))

end Timestamp

end RouteAtlas.Yaml
