import BoundQuery.Json.Basic

/-!
# Reading JSON

`Json.parse?` reads a whole text as one JSON value, with blanks around it. It is strict: no comment,
no comma at an end, no leading zero, no control character inside a string, no half of a surrogate
pair. The depth to which arrays and objects may be nested is a parameter.

A number that is no integer of 64 bits is rounded in two steps: as many leading digits as fit an
unsigned integer of 64 bits are taken as a whole, then one multiplication or division by a power of
ten follows. A number beyond the format is refused.
-/

namespace BoundQuery

namespace Json

/-- The greatest unsigned integer of 64 bits. -/
def maxSignificand : Nat := twoTo 64 - 1

/-- The greatest signed integer of 32 bits, which bounds a written exponent. -/
def maxExponentDigits : Nat := twoTo 31 - 1

/-- The greatest power of ten of the 64-bit binary format. -/
def maxPowerOfTen : Nat := 308

/-- Whether a character is a blank of JSON. -/
def isBlank (c : Char) : Bool :=
  c = ' ' || c = '\n' || c = '\t' || c = '\r'

/-- The text without its leading blanks. -/
def skipBlanks (cs : List Char) : List Char :=
  cs.dropWhile isBlank

/-- Divides by `10 ^ 308` as long as more is to be divided, then by the rest. `steps` bounds the
number of divisions; after three the number is zero. -/
def divideByPower (x : Binary64) : Nat → Nat → Binary64
  | 0, _ => x
  | steps + 1, power =>
    if power ≤ maxPowerOfTen then x.div (Binary64.ofRatio false (tenTo power) 1)
    else if x.isZero then x
    else divideByPower (x.div (Binary64.ofRatio false (tenTo maxPowerOfTen) 1)) steps
      (power - maxPowerOfTen)

/-- The number `significand · 10 ^ power`, rounded in two steps; nothing if it is beyond the
format. -/
def scale? (negative : Bool) (significand : Nat) (power : Int) : Option Binary64 :=
  let x := Binary64.ofNat significand
  let magnitude : Option Binary64 :=
    if 0 ≤ power then
      if power.toNat ≤ maxPowerOfTen then
        let y := x.mul (Binary64.ofRatio false (tenTo power.toNat) 1)
        if y.isFinite then some y else none
      else if x.isZero then some x
      else none
    else some (divideByPower x 4 (-power).toNat)
  magnitude.map fun y => if negative then y.neg else y

/-- Takes digits into a significand as long as it fits 64 bits. Gives the significand, how many
digits were taken, and the text from the first digit that was not. -/
def takeDigits (significand taken : Nat) : List Char → Nat × Nat × List Char
  | [] => (significand, taken, [])
  | c :: rest =>
    if isDigit c then
      let next := significand * 10 + (c.toNat - '0'.toNat)
      if next ≤ maxSignificand then takeDigits next (taken + 1) rest
      else (significand, taken, c :: rest)
    else (significand, taken, c :: rest)

/-- The exponent after its letter: the number scaled by it, and the rest of the text. -/
def readExponent? (negative : Bool) (significand : Nat) (power : Int) (cs : List Char) :
    Option (Binary64 × List Char) :=
  let (down, cs) :=
    match cs with
    | '+' :: rest => (false, rest)
    | '-' :: rest => (true, rest)
    | rest => (false, rest)
  let digits := cs.takeWhile isDigit
  let rest := cs.dropWhile isDigit
  if digits.isEmpty then none
  else
    let e := digitsValue 10 digits
    -- such an exponent is refused only where it makes the number too great
    if maxExponentDigits < e then
      if significand ≠ 0 && !down then none
      else some (.finite negative 0 Binary64.minExponent, rest)
    else
      (scale? negative significand (if down then power - e else power + e)).map fun x => (x, rest)

/-- The number ends here, or goes on with an exponent. -/
def finishNumber? (negative : Bool) (significand : Nat) (power : Int) (cs : List Char) :
    Option (Binary64 × List Char) :=
  match cs with
  | 'e' :: rest => readExponent? negative significand power rest
  | 'E' :: rest => readExponent? negative significand power rest
  | rest => (scale? negative significand power).map fun x => (x, rest)

/-- The digits after the point; at least one must fit, or must have been dropped for want of
room. -/
def readFraction? (negative : Bool) (significand : Nat) (power : Int) (cs : List Char) :
    Option (Binary64 × List Char) :=
  let (longer, taken, rest) := takeDigits significand 0 cs
  let dropped := rest.takeWhile isDigit
  if taken = 0 && dropped.isEmpty then none
  else finishNumber? negative longer (power - taken) (rest.dropWhile isDigit)

/-- A number; an integer of 64 bits stays one, but a negative zero does not. -/
def readNumber? (negative : Bool) (cs : List Char) : Option (Json × List Char) :=
  let floating (read : Option (Binary64 × List Char)) : Option (Json × List Char) :=
    read.map fun (x, rest) => (.float x, rest)
  let digits := cs.takeWhile isDigit
  if digits.isEmpty then none
  -- no zero before other digits
  else if digits.head? = some '0' && 1 < digits.length then none
  else
    let (significand, _, rest) := takeDigits 0 0 cs
    let dropped := rest.takeWhile isDigit
    let rest := rest.dropWhile isDigit
    match rest with
    | '.' :: rest => floating (readFraction? negative significand dropped.length rest)
    | 'e' :: _ => floating (finishNumber? negative significand dropped.length rest)
    | 'E' :: _ => floating (finishNumber? negative significand dropped.length rest)
    | rest =>
      -- digits that do not fit 64 bits still count as places
      if !dropped.isEmpty then floating (finishNumber? negative significand dropped.length rest)
      else if !negative then some (.int significand, rest)
      -- minus zero has a sign, which no integer keeps
      else if significand = 0 || twoTo 63 < significand then
        some (.float (Binary64.ofNat significand).neg, rest)
      else some (.int (-(significand : Int)), rest)

def isHexDigit (c : Char) : Bool :=
  isDigit c || ('a' ≤ c && c ≤ 'f') || ('A' ≤ c && c ≤ 'F')

/-- The value of the first four characters, if they are hexadecimal digits. -/
def readHex4? : List Char → Option (Nat × List Char)
  | a :: b :: c :: d :: rest =>
    if isHexDigit a && isHexDigit b && isHexDigit c && isHexDigit d then
      some (digitsValue 16 [a, b, c, d], rest)
    else none
  | _ => none

/-- Whether a unit of 16 bits is the first half of a pair. -/
def isHighHalf (n : Nat) : Bool :=
  0xD800 ≤ n && n ≤ 0xDBFF

/-- Whether a unit of 16 bits is the second half of a pair. -/
def isLowHalf (n : Nat) : Bool :=
  0xDC00 ≤ n && n ≤ 0xDFFF

/-- The character of an escape `\u`, which may need a second escape; nothing for half a pair. -/
def readUnicode? (cs : List Char) : Option (Char × List Char) := do
  let (n, rest) ← readHex4? cs
  if isLowHalf n then none
  else if isHighHalf n then
    match rest with
    | '\\' :: 'u' :: rest =>
      let (low, rest) ← readHex4? rest
      if isLowHalf low then
        some (Char.ofNat (0x10000 + (n - 0xD800) * 0x400 + (low - 0xDC00)), rest)
      else none
    | _ => none
  else some (Char.ofNat n, rest)

/-- The character after a backslash other than `u` inside a string. -/
def unescape? : Char → Option Char
  | '"' => some '"'
  | '\\' => some '\\'
  | '/' => some '/'
  | 'b' => some '\x08'
  | 'f' => some '\x0c'
  | 'n' => some '\n'
  | 'r' => some '\r'
  | 't' => some '\t'
  | _ => none

/-- What follows the opening quote of a string, in reverse before the closing one. `fuel` bounds the
number of characters read. -/
def readString? : Nat → List Char → List Char → Option (String × List Char)
  | 0, _, _ => none
  | fuel + 1, reversed, cs =>
    match cs with
    | [] => none
    | '"' :: rest => some (String.ofList reversed.reverse, rest)
    | '\\' :: 'u' :: rest =>
      match readUnicode? rest with
      | some (c, rest) => readString? fuel (c :: reversed) rest
      | none => none
    | '\\' :: c :: rest =>
      match unescape? c with
      | some c => readString? fuel (c :: reversed) rest
      | none => none
    | c :: rest =>
      -- a control character has to be escaped
      if c.toNat < 0x20 || c = '\\' then none else readString? fuel (c :: reversed) rest

/-- The text after a fixed word, if it starts with it. -/
def afterWord? : List Char → List Char → Option (List Char)
  | [], rest => some rest
  | w :: word, c :: rest => if w = c then afterWord? word rest else none
  | _ :: _, [] => none

mutual

/-- One value at the start of the text. `depth` levels of nesting are left, and `fuel` bounds the
number of steps. -/
def readValue? : Nat → Nat → List Char → Option (Json × List Char)
  | 0, _, _ => none
  | fuel + 1, depth, cs =>
    match skipBlanks cs with
    | 'n' :: rest => (afterWord? ['u', 'l', 'l'] rest).map fun rest => (.null, rest)
    | 't' :: rest => (afterWord? ['r', 'u', 'e'] rest).map fun rest => (.bool true, rest)
    | 'f' :: rest => (afterWord? ['a', 'l', 's', 'e'] rest).map fun rest => (.bool false, rest)
    | '"' :: rest =>
      (readString? (rest.length + 1) [] rest).map fun (s, rest) => (.text s, rest)
    | '-' :: rest => readNumber? true rest
    | '[' :: rest =>
      if depth = 0 then none
      else
        match skipBlanks rest with
        | ']' :: rest => some (.array [], rest)
        | rest =>
          (readItems? fuel (depth - 1) [] rest).map fun (items, rest) => (.array items, rest)
    | '{' :: rest =>
      if depth = 0 then none
      else
        match skipBlanks rest with
        | '}' :: rest => some (ofMembers [], rest)
        | rest =>
          (readMembers? fuel (depth - 1) [] rest).map fun (members, rest) =>
            (ofMembers members, rest)
    | rest => readNumber? false rest

/-- The items of an array up to its end, at least one. -/
def readItems? : Nat → Nat → List Json → List Char → Option (List Json × List Char)
  | 0, _, _, _ => none
  | fuel + 1, depth, reversed, cs =>
    match readValue? fuel depth cs with
    | none => none
    | some (item, rest) =>
      match skipBlanks rest with
      | ',' :: rest => readItems? fuel depth (item :: reversed) rest
      | ']' :: rest => some ((item :: reversed).reverse, rest)
      | _ => none

/-- The members of an object up to its end, at least one. -/
def readMembers? : Nat → Nat → List (String × Json) → List Char →
    Option (List (String × Json) × List Char)
  | 0, _, _, _ => none
  | fuel + 1, depth, reversed, cs =>
    match skipBlanks cs with
    | '"' :: rest =>
      match readString? (rest.length + 1) [] rest with
      | none => none
      | some (name, rest) =>
        match skipBlanks rest with
        | ':' :: rest =>
          match readValue? fuel depth rest with
          | none => none
          | some (value, rest) =>
            match skipBlanks rest with
            | ',' :: rest => readMembers? fuel depth ((name, value) :: reversed) rest
            | '}' :: rest => some (((name, value) :: reversed).reverse, rest)
            | _ => none
        | _ => none
    | _ => none

end

/-- Reads a whole text as one value nested to at most `depth` levels. -/
def parse? (depth : Nat) (text : String) : Option Json :=
  let cs := text.toList
  -- at most two steps for each character: one for a value and one for its list
  match readValue? (2 * cs.length + 2) depth cs with
  | some (value, rest) => if (skipBlanks rest).isEmpty then some value else none
  | none => none

end Json

end BoundQuery
