import BoundQuery.Toml.Basic

/-!
# Reading moments

The readers of dates, times and offsets. Each takes the text it needs from the start of a list of
characters and gives the rest; a part out of range is refused, and so is a day that its month does
not have. A fraction of a second is cut off after nine digits.
-/

namespace BoundQuery

namespace Toml

/-- A number of exactly `width` digits. -/
def readDigits? (width : Nat) (cs : List Char) : Option (Nat × List Char) :=
  let digits := cs.take width
  if digits.length = width && digits.all isDigit then
    some (digitsValue 10 digits, cs.drop width)
  else none

/-- The text after one given character. -/
def after? (c : Char) : List Char → Option (List Char)
  | [] => none
  | d :: rest => if c = d then some rest else none

/-- The number of days of a month, counting leap years. -/
def daysOf (year month : Nat) : Nat :=
  if month = 2 then
    if year % 4 = 0 && (year % 100 ≠ 0 || year % 400 = 0) then 29 else 28
  else if [4, 6, 9, 11].contains month then 30
  else 31

/-- A date of four, two and two digits. -/
def readDate? (cs : List Char) : Option (Date × List Char) := do
  let (year, cs) ← readDigits? 4 cs
  let cs ← after? '-' cs
  let (month, cs) ← readDigits? 2 cs
  let cs ← after? '-' cs
  let (day, cs) ← readDigits? 2 cs
  if 1 ≤ month && month ≤ 12 && 1 ≤ day && day ≤ daysOf year month then
    some (⟨year, month, day⟩, cs)
  else none

/-- The nanoseconds of the digits after the point of a second. -/
def nanoseconds (digits : List Char) : Nat :=
  let kept := digits.take 9
  digitsValue 10 kept * tenTo (9 - kept.length)

/-- A time of day with seconds and perhaps a fraction. -/
def readTime? (cs : List Char) : Option (Time × List Char) := do
  let (hour, cs) ← readDigits? 2 cs
  let cs ← after? ':' cs
  let (minute, cs) ← readDigits? 2 cs
  let cs ← after? ':' cs
  let (second, cs) ← readDigits? 2 cs
  if 23 < hour || 59 < minute || 60 < second then none
  else
    match cs with
    | '.' :: rest =>
      let digits := rest.takeWhile isDigit
      if digits.isEmpty then none
      else some (⟨hour, minute, second, nanoseconds digits⟩, rest.dropWhile isDigit)
    | rest => some (⟨hour, minute, second, 0⟩, rest)

/-- An offset: `Z` in either case, or a sign with hours and minutes. -/
def readOffset? : List Char → Option (Offset × List Char)
  | 'Z' :: rest => some (.zulu, rest)
  | 'z' :: rest => some (.zulu, rest)
  | sign :: rest =>
    if sign = '+' || sign = '-' then do
      let (hour, cs) ← readDigits? 2 rest
      let cs ← after? ':' cs
      let (minute, cs) ← readDigits? 2 cs
      if 23 < hour || 59 < minute then none
      else
        let m : Int := hour * 60 + minute
        some (.minutes (if sign = '-' then -m else m), cs)
    else none
  | [] => none

/-- Whether a character may stand between date and time. -/
def isTimeMark (c : Char) : Bool :=
  c = 'T' || c = 't' || c = ' '

/-- A moment: a date, a date with a time and perhaps an offset, or a time alone. -/
def readMoment? (cs : List Char) : Option (Moment × List Char) :=
  match readDate? cs with
  | some (date, rest) =>
    let dateAlone : Moment × List Char := (⟨some date, none, none⟩, rest)
    match rest with
    | mark :: afterMark =>
      if isTimeMark mark then
        match readTime? afterMark with
        | some (time, rest) =>
          match readOffset? rest with
          | some (offset, rest) => some (⟨some date, some time, some offset⟩, rest)
          | none => some (⟨some date, some time, none⟩, rest)
        | none => some dateAlone
      else some dateAlone
    | [] => some dateAlone
  | none => (readTime? cs).map fun (time, rest) => (⟨none, some time, none⟩, rest)

end Toml

end BoundQuery
