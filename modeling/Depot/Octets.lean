/-!
# Octets and text

Files and the output of programs are octets, which may or may not be text in UTF-8. Formats whose
punctuation is ASCII are read octet by octet, each octet given as the character of the same number;
what stands between the punctuation is turned into text afterwards, where that is possible.
-/

namespace Depot.Octets

/-- The octets of a block of bytes, each as the character of that number. -/
def ofBytes (bytes : ByteArray) : List Char := bytes.toList.map fun b => Char.ofNat b.toNat

/-- The bytes that octets stand for. -/
def toBytes (octets : List Char) : ByteArray := ⟨(octets.map fun c => c.toNat.toUInt8).toArray⟩

/-- The octets of a text. -/
def ofText (text : String) : List Char := ofBytes text.toUTF8

/-- The text that octets hold, if they are UTF-8. -/
def text? (octets : List Char) : Option String := String.fromUTF8? (toBytes octets)

/-- A character that has been read in part. -/
structure Begun where
  /-- The bits read so far. -/
  bits : Nat
  /-- How many octets are still to come, less one. -/
  more : Nat
  /-- The least octet that may come next. -/
  least : Nat := 0x80
  /-- The greatest octet that may come next. -/
  greatest : Nat := 0xBF

/-- What an octet begins: a character of its own, one of several octets, or nothing. -/
def begin? (octet : Nat) : Option (Char ⊕ Begun) :=
  if octet < 0x80 then some (.inl (Char.ofNat octet))
  else if octet < 0xC2 then none
  else if octet < 0xE0 then some (.inr { bits := octet - 0xC0, more := 0 })
  else if octet = 0xE0 then some (.inr { bits := 0, more := 1, least := 0xA0 })
  else if octet = 0xED then some (.inr { bits := 0xD, more := 1, greatest := 0x9F })
  else if octet < 0xF0 then some (.inr { bits := octet - 0xE0, more := 1 })
  else if octet = 0xF0 then some (.inr { bits := 0, more := 2, least := 0x90 })
  else if octet < 0xF4 then some (.inr { bits := octet - 0xF0, more := 2 })
  else if octet = 0xF4 then some (.inr { bits := 4, more := 2, greatest := 0x8F })
  else none

/-- The character put where octets are no text. -/
def replacement : Char := '\uFFFD'

/-- **Read octets as text whatever they are.** Every longest run of octets that begins a character
but does not complete it, and every octet that begins none, becomes one replacement character. -/
def decode : Option Begun → List Nat → List Char
  | none, [] => []
  | some _, [] => [replacement]
  | none, b :: rest =>
    match begin? b with
    | some (.inl c) => c :: decode none rest
    | some (.inr p) => decode (some p) rest
    | none => replacement :: decode none rest
  | some p, b :: rest =>
    if p.least ≤ b ∧ b ≤ p.greatest then
      let bits := p.bits * 64 + (b - 0x80)
      match p.more with
      | 0 => Char.ofNat bits :: decode none rest
      | more + 1 => decode (some { bits, more }) rest
    else
      match begin? b with
      | some (.inl c) => replacement :: c :: decode none rest
      | some (.inr p) => replacement :: decode (some p) rest
      | none => replacement :: replacement :: decode none rest

/-- The text of a block of bytes, with replacement characters where it is none. -/
def lossyText (bytes : ByteArray) : String :=
  match String.fromUTF8? bytes with
  | some text => text
  | none => String.ofList (decode none (bytes.toList.map UInt8.toNat))

end Depot.Octets
