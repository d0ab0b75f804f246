import Depot.Toml

/-!
# Numbers, dates and times in TOML

Each function takes the characters that are left and yields what it read with those left afterwards,
or `none` if they do not begin with such a thing. Underscores may stand between the digits of a
number, one at a time.
-/

namespace Depot.Toml.Reader

/-- Whether a character is a digit of a base. -/
def isDigitOf (base : Nat) (c : Char) : Bool :=
  if base = 16 then c.isDigit || ('a' ≤ c && c ≤ 'f') || ('A' ≤ c && c ≤ 'F')
  else '0' ≤ c && c.toNat < 48 + base

/-- The number that a digit stands for. -/
def digitValue (c : Char) : Nat :=
  if c.isDigit then c.toNat - 48 else if 'a' ≤ c then c.toNat - 87 else c.toNat - 55

/-- The number that digits stand for. -/
def numberOf (base : Nat) (digits : List Char) : Nat :=
  digits.foldl (fun n c => n * base + digitValue c) 0

/-- The digits that follow a first one, with an underscore before any of them. An underscore that no
digit follows is refused. -/
def moreDigits (base : Nat) : List Char → Option (List Char × List Char)
  | '_' :: c :: cs =>
    if isDigitOf base c then (moreDigits base cs).map fun (ds, rest) => (c :: ds, rest) else none
  | '_' :: [] => none
  | c :: cs =>
    if isDigitOf base c then (moreDigits base cs).map fun (ds, rest) => (c :: ds, rest)
    else some ([], c :: cs)
  | [] => some ([], [])

/-- One digit or more. -/
def someDigits (base : Nat) : List Char → Option (List Char × List Char)
  | c :: cs =>
    if isDigitOf base c then (moreDigits base cs).map fun (ds, rest) => (c :: ds, rest) else none
  | [] => none

/-- A sign, if there is one. -/
def sign : List Char → List Char × List Char
  | '+' :: cs => (['+'], cs)
  | '-' :: cs => (['-'], cs)
  | cs => ([], cs)

/-- Decimal digits without a leading zero, unless zero is all there is. -/
def wholeDigits : List Char → Option (List Char × List Char)
  | '0' :: cs => some (['0'], cs)
  | cs => someDigits 10 cs

/-- The least integer. -/
def leastInteger : Int := -0x8000000000000000

/-- The greatest integer. -/
def greatestInteger : Int := 0x7fffffffffffffff

/-- An integer in the range of 64 bits. -/
def inRange (n : Int) : Option Toml :=
  if leastInteger ≤ n ∧ n ≤ greatestInteger then some (.integer n) else none

/-- **An integer**, decimal with a sign or in another base without one. -/
def integer (cs : List Char) : Option (Toml × List Char) :=
  let based (base : Nat) (cs : List Char) : Option (Toml × List Char) := do
    let (ds, rest) ← someDigits base cs
    return (← inRange (numberOf base ds), rest)
  match cs with
  | '0' :: 'x' :: cs => based 16 cs
  | '0' :: 'o' :: cs => based 8 cs
  | '0' :: 'b' :: cs => based 2 cs
  | cs => do
    let (s, cs) := sign cs
    let (ds, rest) ← wholeDigits cs
    let n : Int := numberOf 10 ds
    return (← inRange (if s = ['-'] then -n else n), rest)

/-- **Whether a decimal number is too large for a float of 64 bits**: whether `m` times ten to the
power `e` is at least half a unit beyond the greatest one. -/
def isTooLarge (m : Nat) (e : Int) : Bool :=
  let limit := Nat.pow 2 1024 - Nat.pow 2 970
  if m = 0 then false
  else
    let places : Int := (Nat.toDigits 10 m).length + e
    if places > 310 then true
    else if places < 300 then false
    else if e ≥ 0 then decide (m * Nat.pow 10 e.toNat ≥ limit)
    else decide (m ≥ limit * Nat.pow 10 (-e).toNat)

/-- The fraction of a float: a point and digits. -/
def fraction : List Char → Option (List Char × List Char)
  | '.' :: cs => someDigits 10 cs
  | _ => none

/-- The exponent of a float, in which leading zeros are allowed. -/
def exponent : List Char → Option (Int × List Char)
  | c :: cs =>
    if c = 'e' ∨ c = 'E' then do
      let (s, cs) := sign cs
      let (ds, rest) ← someDigits 10 cs
      let n : Int := numberOf 10 ds
      return (if s = ['-'] then -n else n, rest)
    else none
  | [] => none

/-- The part of a text that was read when `rest` is left. -/
def readPart (cs rest : List Char) : String := String.ofList (cs.take (cs.length - rest.length))

/-- **A float**: a number with a fraction, an exponent or both, or one of the numbers that are
written as words. A positive one must not be too large. -/
def float (cs : List Char) : Option (Toml × List Char) :=
  let (s, body) := sign cs
  match body with
  | 'i' :: 'n' :: 'f' :: rest => some (.float (readPart cs rest), rest)
  | 'n' :: 'a' :: 'n' :: rest => some (.float (readPart cs rest), rest)
  | body => do
    let (whole, after) ← wholeDigits body
    let (frac, exp, rest) ← match fraction after with
      | some (frac, after) =>
        match exponent after with
        | some (exp, rest) => some (frac, exp, rest)
        | none => some (frac, (0 : Int), after)
      | none => (exponent after).map fun (exp, rest) => ([], exp, rest)
    if s ≠ ['-'] ∧ isTooLarge (numberOf 10 (whole ++ frac)) (exp - frac.length) then none
    else return (.float (readPart cs rest), rest)

/-! ## Dates and times -/

/-- A number of exactly `n` digits between two bounds. -/
def fixed (n least greatest : Nat) (cs : List Char) : Option (Nat × List Char) :=
  let ds := cs.take n
  let v := numberOf 10 ds
  if ds.length = n ∧ ds.all Char.isDigit ∧ least ≤ v ∧ v ≤ greatest then some (v, cs.drop n)
  else none

/-- A character that must come next. -/
def mark (c : Char) : List Char → Option (List Char)
  | x :: cs => if x = c then some cs else none
  | [] => none

/-- How many days a month has. -/
def daysIn (year month : Nat) : Nat :=
  if month = 2 then
    if year % 4 = 0 ∧ (year % 100 ≠ 0 ∨ year % 400 = 0) then 29 else 28
  else if month ∈ [4, 6, 9, 11] then 30
  else 31

/-- A date. -/
def date (cs : List Char) : Option (List Char) := do
  let (year, cs) ← fixed 4 0 9999 cs
  let cs ← mark '-' cs
  let (month, cs) ← fixed 2 1 12 cs
  let cs ← mark '-' cs
  let (_, cs) ← fixed 2 1 (daysIn year month) cs
  return cs

/-- A time of day; the last second of a day may be a leap second. -/
def timeOfDay (cs : List Char) : Option (List Char) := do
  let (_, cs) ← fixed 2 0 23 cs
  let cs ← mark ':' cs
  let (_, cs) ← fixed 2 0 59 cs
  let cs ← mark ':' cs
  let (_, cs) ← fixed 2 0 60 cs
  match cs with
  | '.' :: d :: rest => return if d.isDigit then rest.dropWhile Char.isDigit else cs
  | _ => return cs

/-- An offset from universal time, if there is one. -/
def offset (cs : List Char) : List Char :=
  match cs with
  | [] => []
  | c :: rest =>
    if c = 'Z' ∨ c = 'z' then rest
    else if c = '+' ∨ c = '-' then
      (do
        let (_, cs) ← fixed 2 0 23 rest
        let cs ← mark ':' cs
        let (_, cs) ← fixed 2 0 59 cs
        return cs).getD cs
    else cs

/-- **A date, a time of day, or both**, the latter possibly with an offset. -/
def moment (cs : List Char) : Option (Toml × List Char) := do
  let rest ← match date cs with
    | some rest =>
      match rest with
      | c :: after =>
        if c = 'T' ∨ c = 't' ∨ c = ' ' then
          match timeOfDay after with
          | some rest => some (offset rest)
          | none => some rest
        else some rest
      | [] => some []
    | none => timeOfDay cs
  return (.moment (readPart cs rest), rest)

end Depot.Toml.Reader
