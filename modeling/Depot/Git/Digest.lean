/-!
# Digests

The name of an object is the 160-bit secure hash (SHA-1) of its content. The message is padded to
whole blocks of 64 bytes; each block is mixed into five words.
-/

namespace Depot.Git.Digest

/-- Turn a word to the left. -/
def rotate (x : UInt32) (n : UInt32) : UInt32 := (x <<< n) ||| (x >>> (32 - n))

/-- A number as `n` bytes, most significant first. -/
def bigEndian : (n : Nat) → Nat → List UInt8
  | 0, _ => []
  | n + 1, v => (v / 256 ^ n % 256).toUInt8 :: bigEndian n v

/-- The message with its padding: a set bit, zeros, and the number of bits in eight bytes. -/
def padded (message : List UInt8) : List UInt8 :=
  let n := message.length
  let zeros := (119 - n % 64) % 64
  message ++ 0x80 :: List.replicate zeros 0 ++ bigEndian 8 (8 * n)

/-- The words of four bytes each. -/
def words : List UInt8 → List UInt32
  | a :: b :: c :: d :: rest =>
    (((a.toUInt32 <<< 24) ||| (b.toUInt32 <<< 16)) ||| ((c.toUInt32 <<< 8) ||| d.toUInt32)) ::
      words rest
  | _ => []

/-- The eighty words that the sixteen of a block are extended to. -/
def extended (block : Array UInt32) : Array UInt32 :=
  (List.range 64).foldl (fun w i =>
    let x := w[i + 13]?.getD 0 ^^^ w[i + 8]?.getD 0 ^^^ w[i + 2]?.getD 0 ^^^ w[i]?.getD 0
    w.push (rotate x 1)) block

/-- The five words that blocks are mixed into. -/
structure State where
  a : UInt32 := 0x67452301
  b : UInt32 := 0xEFCDAB89
  c : UInt32 := 0x98BADCFE
  d : UInt32 := 0x10325476
  e : UInt32 := 0xC3D2E1F0

/-- The function and the constant of a round. -/
def mixed (i : Nat) (b c d : UInt32) : UInt32 × UInt32 :=
  if i < 20 then ((b &&& c) ||| ((~~~b) &&& d), 0x5A827999)
  else if i < 40 then (b ^^^ c ^^^ d, 0x6ED9EBA1)
  else if i < 60 then ((b &&& c) ||| (b &&& d) ||| (c &&& d), 0x8F1BBCDC)
  else (b ^^^ c ^^^ d, 0xCA62C1D6)

/-- One round. -/
def round (s : State) (i : Nat) (w : UInt32) : State :=
  let (f, k) := mixed i s.b s.c s.d
  { a := rotate s.a 5 + f + s.e + k + w
    b := s.a
    c := rotate s.b 30
    d := s.c
    e := s.d }

/-- Mix a block into the words. -/
def absorb (s : State) (block : Array UInt32) : State :=
  let t := (extended block).toList.zipIdx.foldl (fun t (w, i) => round t i w) s
  { a := s.a + t.a, b := s.b + t.b, c := s.c + t.c, d := s.d + t.d, e := s.e + t.e }

/-- Mix `n` blocks into the words. -/
def absorbAll (s : State) : (n : Nat) → List UInt32 → State
  | 0, _ => s
  | n + 1, ws => absorbAll (absorb s (ws.take 16).toArray) n (ws.drop 16)

/-- **The digest of a message**, twenty bytes. -/
def bytes (message : ByteArray) : List UInt8 :=
  let ws := words (padded message.toList)
  let s := absorbAll {} (ws.length / 16) ws
  [s.a, s.b, s.c, s.d, s.e].flatMap fun w => bigEndian 4 w.toNat

/-- A digit of a digest. -/
def hexDigit (n : Nat) : Char := Char.ofNat (if n < 10 then 48 + n else 87 + n)

/-- Bytes as hexadecimal digits. -/
def hex (bs : List UInt8) : String :=
  String.ofList (bs.flatMap fun b => [hexDigit (b.toNat / 16), hexDigit (b.toNat % 16)])

end Depot.Git.Digest
