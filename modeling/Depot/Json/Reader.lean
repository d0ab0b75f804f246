import Depot.Json
import Depot.Octets

/-!
# Reading JSON

The grammar is the strict one: no comments, no comma after the last element, no digits after a
leading zero, no control characters inside strings. Neither the depth of a value nor the size of a
number is limited.

Every function takes the octets that are left and yields those left afterwards. Reading a value is
recursive in a bound on the number of octets, each step of which uses at least one up.
-/

namespace Depot.Json

namespace Reader

/-- Whether an octet is blank between tokens. -/
def isBlank (c : Char) : Bool := c == ' ' || c == '\t' || c == '\n' || c == '\r'

/-- The rest after blanks. -/
def skipBlank (cs : List Char) : List Char := cs.dropWhile isBlank

/-- The number that a hexadecimal digit stands for. -/
def hexValue? (c : Char) : Option Nat :=
  if '0' ≤ c ∧ c ≤ '9' then some (c.toNat - 48)
  else if 'a' ≤ c ∧ c ≤ 'f' then some (c.toNat - 87)
  else if 'A' ≤ c ∧ c ≤ 'F' then some (c.toNat - 55)
  else none

/-- The number of four hexadecimal digits. -/
def fourDigits : List Char → Option (Nat × List Char)
  | a :: b :: c :: d :: rest => do
    let a ← hexValue? a
    let b ← hexValue? b
    let c ← hexValue? c
    let d ← hexValue? d
    return (((a * 16 + b) * 16 + c) * 16 + d, rest)
  | _ => none

/-- The character that a one-letter escape stands for. -/
def escaped? : Char → Option Char
  | '"' => some '"'
  | '\\' => some '\\'
  | '/' => some '/'
  | 'b' => some '\x08'
  | 'f' => some '\x0c'
  | 'n' => some '\n'
  | 'r' => some '\r'
  | 't' => some '\t'
  | _ => none

/-- The second half of a surrogate pair, if the octets begin with one that is written out. -/
def secondHalf? : List Char → Option (Nat × List Char)
  | '\\' :: 'u' :: cs =>
    match fourDigits cs with
    | some (n, rest) => if 0xDC00 ≤ n ∧ n ≤ 0xDFFF then some (n - 0xDC00, rest) else none
    | none => none
  | _ => none

/-- One item of a string: the octets it stands for, or `none` if it stands for no character. -/
def item : List Char → Option (Option (List Char) × List Char)
  | '\\' :: 'u' :: cs =>
    match fourDigits cs with
    | none => none
    | some (n, rest) =>
      if 0xD800 ≤ n ∧ n ≤ 0xDBFF then
        match secondHalf? rest with
        | some (m, rest) =>
          let c := Char.ofNat (0x10000 + (n - 0xD800) * 1024 + m)
          some (some (Octets.ofText c.toString), rest)
        | none => some (none, rest)
      else if 0xDC00 ≤ n ∧ n ≤ 0xDFFF then some (none, rest)
      else some (some (Octets.ofText (Char.ofNat n).toString), rest)
  | '\\' :: c :: cs => (escaped? c).map fun c => (some [c], cs)
  | c :: cs => if c.toNat < 0x20 ∨ c = '\\' then none else some (some [c], cs)
  | [] => none

/-- The items of a string up to its closing quote. -/
def items : (bound : Nat) → List Char → Option (List (Option (List Char)) × List Char)
  | 0, _ => none
  | _ + 1, '"' :: rest => some ([], rest)
  | bound + 1, cs => do
    let (i, cs) ← item cs
    let (is, rest) ← items bound cs
    return (i :: is, rest)

/-- A string after its opening quote. -/
def text (cs : List Char) : Option (Option String × List Char) :=
  (items cs.length cs).map fun (is, rest) =>
    ((is.mapM id).bind fun octets => Octets.text? octets.flatten, rest)

/-- One digit or more. -/
def digits (cs : List Char) : Option (List Char × List Char) :=
  match cs.takeWhile Char.isDigit with
  | [] => none
  | ds => some (ds, cs.dropWhile Char.isDigit)

/-- The digits before the point; a leading zero stands alone. -/
def wholePart : List Char → Option (List Char × List Char)
  | '0' :: cs => if (cs.head?.map Char.isDigit).getD false then none else some (['0'], cs)
  | cs => digits cs

/-- The point and the digits after it, if there is a point. -/
def fraction : List Char → Option (List Char × List Char)
  | '.' :: cs => (digits cs).map fun (ds, rest) => ('.' :: ds, rest)
  | cs => some ([], cs)

/-- The exponent, if there is one. -/
def exponent : List Char → Option (List Char × List Char)
  | [] => some ([], [])
  | e :: cs =>
    if e = 'e' ∨ e = 'E' then
      match cs with
      | '+' :: cs => (digits cs).map fun (ds, rest) => (e :: '+' :: ds, rest)
      | '-' :: cs => (digits cs).map fun (ds, rest) => (e :: '-' :: ds, rest)
      | cs => (digits cs).map fun (ds, rest) => (e :: ds, rest)
    else some ([], e :: cs)

/-- A number. -/
def number (cs : List Char) : Option (Json × List Char) := do
  let (sign, cs) := match cs with
    | '-' :: cs => (['-'], cs)
    | cs => ([], cs)
  let (whole, cs) ← wholePart cs
  let (frac, cs) ← fraction cs
  let (exp, cs) ← exponent cs
  return (.number (String.ofList (sign ++ whole ++ frac ++ exp)), cs)

mutual

/-- **A value**, with blanks before it. -/
def value : (bound : Nat) → List Char → Option (Json × List Char)
  | 0, _ => none
  | bound + 1, cs =>
    match skipBlank cs with
    | 'n' :: 'u' :: 'l' :: 'l' :: rest => some (.null, rest)
    | 't' :: 'r' :: 'u' :: 'e' :: rest => some (.bool true, rest)
    | 'f' :: 'a' :: 'l' :: 's' :: 'e' :: rest => some (.bool false, rest)
    | '"' :: cs => (text cs).map fun (s, rest) => (.string s, rest)
    | '[' :: cs =>
      match skipBlank cs with
      | ']' :: rest => some (.array [], rest)
      | cs => (elements bound cs).map fun (es, rest) => (.array es, rest)
    | '\x7b' :: cs =>
      match skipBlank cs with
      | '\x7d' :: rest => some (.object [], rest)
      | cs => (members bound cs).map fun (ms, rest) => (.object ms, rest)
    | cs => number cs

/-- One element or more, and the bracket that closes them. -/
def elements : (bound : Nat) → List Char → Option (List Json × List Char)
  | 0, _ => none
  | bound + 1, cs =>
    match value bound cs with
    | none => none
    | some (e, cs) =>
      match skipBlank cs with
      | ',' :: cs => (elements bound cs).map fun (es, rest) => (e :: es, rest)
      | ']' :: rest => some ([e], rest)
      | _ => none

/-- One member or more, and the brace that closes them. -/
def members : (bound : Nat) → List Char → Option (List (Option String × Json) × List Char)
  | 0, _ => none
  | bound + 1, cs =>
    match skipBlank cs with
    | '"' :: cs =>
      match text cs with
      | none => none
      | some (name, cs) =>
        match skipBlank cs with
        | ':' :: cs =>
          match value bound cs with
          | none => none
          | some (e, cs) =>
            match skipBlank cs with
            | ',' :: cs => (members bound cs).map fun (ms, rest) => ((name, e) :: ms, rest)
            | '\x7d' :: rest => some ([(name, e)], rest)
            | _ => none
        | _ => none
    | _ => none

end

end Reader

/-- **Read a JSON document**: one value with nothing but blanks around it. -/
def read? (octets : List Char) : Option Json :=
  match Reader.value (octets.length + 1) octets with
  | some (j, rest) => if (Reader.skipBlank rest).isEmpty then some j else none
  | none => none

/-! ## Reading records

A record of known fields is written as an object, in which unknown members are passed over, or as an
array of the fields in order, which may end early but not go on. -/

/-- The values of one field among the members of an object. -/
def fieldValues (members : List (Option String × Json)) (name : String) : List Json :=
  (members.filter (·.1 == some name)).map Prod.snd

/-- The value of a field, if it is given; a field given twice is refused. -/
def field? (members : List (Option String × Json)) (name : String) : Option (Option Json) :=
  match fieldValues members name with
  | [] => some none
  | [e] => some (some e)
  | _ => none

/-- **The values of the fields of a record**, in the order of `names`. -/
def fields? (names : List String) : Json → Option (List (Option Json))
  | .object members =>
    if members.all (·.1.isSome) then names.mapM (field? members) else none
  | .array elements =>
    if elements.length ≤ names.length then
      some (elements.map some ++ List.replicate (names.length - elements.length) none)
    else none
  | _ => none

/-- The text of a string. -/
def text? : Json → Option String
  | .string text => text
  | _ => none

/-- The texts of an array of strings. -/
def texts? : Json → Option (List String)
  | .array elements => elements.mapM text?
  | _ => none

/-- The value of a field, or `fallback` if it is not given. -/
def fieldOr {α : Type} (fallback : α) (read : Json → Option α) : Option Json → Option α
  | none => some fallback
  | some j => read j

end Depot.Json
