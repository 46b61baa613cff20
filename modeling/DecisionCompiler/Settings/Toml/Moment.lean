import DecisionCompiler.Number.Layout
import DecisionCompiler.Number.Numeral

/-!
Dates and times of TOML files.

A moment is a day, a time of day, or a day with a time and perhaps the distance of its clock from
universal time. A text that reads as a moment is written again in one form: a `T` before the time,
a fraction of at most nine digits without zeros at its end, and no sign on a distance of zero but a
plus.
-/

namespace DecisionCompiler.Toml

/-- A day of the calendar. -/
structure Date where
  year : Nat
  month : Nat
  day : Nat
deriving DecidableEq

/-- A time of day. -/
structure Time where
  hour : Nat
  minute : Nat
  second : Nat
  nanosecond : Nat
deriving DecidableEq

/-- The distance of a clock from universal time. -/
inductive Offset where
  | none
  | universal
  /-- So many minutes ahead. -/
  | minutes (ahead : Int)
deriving DecidableEq

/-- A day, a time, or both. -/
inductive Moment where
  | date (date : Date)
  | time (time : Time)
  | both (date : Date) (time : Time) (offset : Offset)
deriving DecidableEq

/-! ### Reading -/

/-- The year has a 29th of February. -/
def isLeapYear (year : Nat) : Bool :=
  year % 4 == 0 && (year % 100 != 0 || year % 400 == 0)

/-- How many days a month has. -/
def daysIn (year month : Nat) : Nat :=
  if month = 2 then if isLeapYear year then 29 else 28
  else if month ∈ [4, 6, 9, 11] then 30
  else 31

/-- Reads exactly `count` digits whose value lies within bounds. -/
def readDigits? (count low high : Nat) (text : List Char) : Option (Nat × List Char) :=
  let digits := text.take count
  let value := Number.digitsValue digits
  if digits.length = count ∧ digits.all Char.isDigit ∧ low ≤ value ∧ value ≤ high then
    some (value, text.drop count)
  else none

/-- The text behind a mark. -/
def expect? (mark : Char) : List Char → Option (List Char)
  | c :: rest => if c = mark then some rest else none
  | [] => none

/-- Reads a day. -/
def Date.read? (text : List Char) : Option (Date × List Char) := do
  let (year, rest) ← readDigits? 4 0 9999 text
  let (month, rest) ← readDigits? 2 1 12 (← expect? '-' rest)
  let (day, rest) ← readDigits? 2 1 (daysIn year month) (← expect? '-' rest)
  return (⟨year, month, day⟩, rest)

/-- Reads the fraction of a second in nanoseconds, if there is one; digits behind the ninth are
dropped. -/
def readFraction (text : List Char) : Nat × List Char :=
  match text with
  | '.' :: rest =>
    let (digits, behind) := Number.splitDigits rest
    let nine := digits.take 9
    if digits.isEmpty then (0, text)
    else (Number.digitsValue nine * 10 ^ (9 - nine.length), behind)
  | _ => (0, text)

/-- Reads a time of day. -/
def Time.read? (text : List Char) : Option (Time × List Char) := do
  let (hour, rest) ← readDigits? 2 0 23 text
  let (minute, rest) ← readDigits? 2 0 59 (← expect? ':' rest)
  let (second, rest) ← readDigits? 2 0 60 (← expect? ':' rest)
  let (nanosecond, rest) := readFraction rest
  return (⟨hour, minute, second, nanosecond⟩, rest)

/-- Reads hours and minutes behind a sign. -/
def readMinutes? (text : List Char) : Option (Nat × List Char) := do
  let (hour, rest) ← readDigits? 2 0 23 text
  let (minute, rest) ← readDigits? 2 0 59 (← expect? ':' rest)
  return (60 * hour + minute, rest)

/-- Reads the distance from universal time, if one is given. -/
def Offset.read (text : List Char) : Offset × List Char :=
  match text with
  | 'Z' :: rest => (universal, rest)
  | 'z' :: rest => (universal, rest)
  | '+' :: rest => ((readMinutes? rest).map fun (n, rest) => (minutes n, rest)).getD (none, text)
  | '-' :: rest => ((readMinutes? rest).map fun (n, rest) => (minutes (-n), rest)).getD (none, text)
  | _ => (none, text)

/-- Reads a moment. What stands behind a day belongs to it only if it is a time. -/
def Moment.read? (text : List Char) : Option (Moment × List Char) :=
  match Date.read? text with
  | none => (Time.read? text).map fun (t, rest) => (time t, rest)
  | some (d, rest) =>
    let time? : Option (Time × List Char) :=
      match rest with
      | mark :: behind => if mark ∈ ['T', 't', ' '] then Time.read? behind else none
      | [] => none
    match time? with
    | none => some (date d, rest)
    | some (t, rest) =>
      let (offset, rest) := Offset.read rest
      some (both d t offset, rest)

/-! ### Writing -/

/-- A number with zeros before it up to a width. -/
def padded (width n : Nat) : List Char :=
  let digits := Number.digitsOf n
  List.replicate (width - digits.length) '0' ++ digits

/-- A day in writing. -/
def Date.text (d : Date) : List Char :=
  padded 4 d.year ++ '-' :: padded 2 d.month ++ '-' :: padded 2 d.day

/-- A time of day in writing. -/
def Time.text (t : Time) : List Char :=
  let fraction :=
    if t.nanosecond = 0 then []
    else '.' :: ((padded 9 t.nanosecond).reverse.dropWhile (· == '0')).reverse
  padded 2 t.hour ++ ':' :: padded 2 t.minute ++ ':' :: padded 2 t.second ++ fraction

/-- A distance from universal time in writing. -/
def Offset.text : Offset → List Char
  | none => []
  | universal => ['Z']
  | minutes ahead =>
    (if ahead < 0 then '-' else '+')
      :: (padded 2 (ahead.natAbs / 60) ++ ':' :: padded 2 (ahead.natAbs % 60))

/-- A moment in writing. -/
def Moment.text : Moment → List Char
  | date d => d.text
  | time t => t.text
  | both d t offset => d.text ++ 'T' :: (t.text ++ offset.text)

end DecisionCompiler.Toml
