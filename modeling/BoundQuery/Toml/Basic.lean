import BoundQuery.Options.Basic

/-!
# TOML values

A TOML document as a value. A moment (a date, a time, or both) is a structure of its parts, and
`Moment.render` writes it in one normal form. The entries of a table are kept in the order of their
keys, each key once.
-/

namespace BoundQuery

namespace Toml

/-- A day of the calendar. -/
structure Date where
  year : Nat
  month : Nat
  day : Nat
deriving DecidableEq

/-- A time of day, to the nanosecond. -/
structure Time where
  hour : Nat
  minute : Nat
  second : Nat
  nanosecond : Nat
deriving DecidableEq

/-- The distance of a local time from universal time. -/
inductive Offset
  | zulu
  | minutes (m : Int)
deriving DecidableEq

/-- A date, a time, or both, and perhaps an offset. -/
structure Moment where
  date : Option Date
  time : Option Time
  offset : Option Offset
deriving DecidableEq

/-- The digits of a number, with zeros before them up to a width. -/
def padded (width n : Nat) : List Char :=
  let digits := Nat.toDigits 10 n
  List.replicate (width - digits.length) '0' ++ digits

/-- Year, month and day with hyphens. -/
def Date.render (d : Date) : List Char :=
  padded 4 d.year ++ '-' :: padded 2 d.month ++ '-' :: padded 2 d.day

/-- Hour, minute and second with colons, and the fraction of a second without zeros at its end. -/
def Time.render (t : Time) : List Char :=
  padded 2 t.hour ++ ':' :: padded 2 t.minute ++ ':' :: padded 2 t.second ++
    (if t.nanosecond = 0 then []
      else '.' :: ((padded 9 t.nanosecond).reverse.dropWhile (· = '0')).reverse)

/-- `Z`, or a sign with hours and minutes. -/
def Offset.render : Offset → List Char
  | .zulu => ['Z']
  | .minutes m =>
    (if m < 0 then '-' else '+') :: padded 2 (m.natAbs / 60) ++ ':' :: padded 2 (m.natAbs % 60)

/-- The normal form of a moment: a `T` between date and time, a capital `Z`. -/
def Moment.render (m : Moment) : String :=
  let date := (m.date.map Date.render).getD []
  let time := (m.time.map Time.render).getD []
  let between := if m.date.isSome && m.time.isSome then ['T'] else []
  String.ofList (date ++ between ++ time ++ (m.offset.map Offset.render).getD [])

end Toml

/-- A TOML value. -/
inductive Toml
  | bool (b : Bool)
  | int (n : Int64)
  | float (x : Binary64)
  | text (s : String)
  | moment (m : Toml.Moment)
  | array (items : List Toml)
  | table (entries : List (String × Toml))

end BoundQuery
