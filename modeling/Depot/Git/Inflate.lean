/-!
# Inflating

Objects are stored in the compressed format of zlib. A stream is a sequence of blocks, each stored
as it is or coded with canonical Huffman codes, between a header of two bytes and a checksum of
four. Bits are numbered from the least significant one of each byte.
-/

namespace Depot.Git.Inflate

/-- The bits of a byte, least significant first. -/
def byteBits (b : UInt8) : List Bool :=
  (List.range 8).map fun i => b.toNat.testBit i

/-- The number that `n` bits stand for, least significant first, and the bits left. -/
def number (n : Nat) (bits : List Bool) : Option (Nat × List Bool) :=
  let taken := bits.take n
  if taken.length = n then
    some (taken.foldr (fun b v => 2 * v + b.toNat) 0, bits.drop n)
  else none

/-! ## Codes -/

/-- The greatest length of a code word. -/
def lengthLimit : Nat := 15

/-- **A canonical code**: how many words there are of each length, and the symbols in the order of
their words. -/
structure Code where
  /-- The number of words of each length, from one up. -/
  counts : List Nat
  /-- The symbols, by length and then by number. -/
  symbols : Array Nat

/-- How many words are not used up by those that there are, `none` if there are too many. -/
def unused : (left : Nat) → List Nat → Option Nat
  | left, [] => some left
  | left, c :: cs => if c ≤ 2 * left then unused (2 * left - c) cs else none

/-- **The code in which each symbol has a word of a given length**, zero standing for no word. All
words must be used up, unless there is only one. -/
def code? (lengths : List Nat) : Option Code :=
  let counts := (List.range lengthLimit).map fun l => lengths.count (l + 1)
  let symbols := (List.range lengthLimit).flatMap fun l =>
    lengths.zipIdx.filterMap fun (length, symbol) => if length = l + 1 then some symbol else none
  match unused 1 counts with
  | none => none
  | some left =>
    if left = 0 ∨ symbols.isEmpty ∨ (symbols.length = 1 ∧ counts.head? = some 1) then
      some ⟨counts, symbols.toArray⟩
    else none

/-- Find the symbol of the word that the bits begin with. `word` is what has been read, `first` the
first word of its length, and `index` the number of shorter words. -/
def symbolFrom (symbols : Array Nat) (word first index : Nat) :
    (counts : List Nat) → List Bool → Option (Nat × List Bool)
  | count :: counts, b :: bits =>
    let word := 2 * word + b.toNat
    if first ≤ word ∧ word < first + count then
      (symbols[index + (word - first)]?).map fun s => (s, bits)
    else symbolFrom symbols word (2 * (first + count)) (index + count) counts bits
  | _, _ => none

/-- The symbol of the word that the bits begin with, and the bits left. -/
def Code.symbol (c : Code) (bits : List Bool) : Option (Nat × List Bool) :=
  symbolFrom c.symbols 0 0 0 c.counts bits

/-! ## Blocks -/

/-- The base length and the number of further bits of each length symbol. -/
def lengthTable : List (Nat × Nat) :=
  [(3, 0), (4, 0), (5, 0), (6, 0), (7, 0), (8, 0), (9, 0), (10, 0), (11, 1), (13, 1), (15, 1),
    (17, 1), (19, 2), (23, 2), (27, 2), (31, 2), (35, 3), (43, 3), (51, 3), (59, 3), (67, 4),
    (83, 4), (99, 4), (115, 4), (131, 5), (163, 5), (195, 5), (227, 5), (258, 0)]

/-- The base distance and the number of further bits of each distance symbol. -/
def distanceTable : List (Nat × Nat) :=
  [(1, 0), (2, 0), (3, 0), (4, 0), (5, 1), (7, 1), (9, 2), (13, 2), (17, 3), (25, 3), (33, 4),
    (49, 4), (65, 5), (97, 5), (129, 6), (193, 6), (257, 7), (385, 7), (513, 8), (769, 8),
    (1025, 9), (1537, 9), (2049, 10), (3073, 10), (4097, 11), (6145, 11), (8193, 12), (12289, 12),
    (16385, 13), (24577, 13)]

/-- The value of a symbol of a table. -/
def tableValue (table : List (Nat × Nat)) (symbol : Nat) (bits : List Bool) :
    Option (Nat × List Bool) := do
  let (base, more) ← table[symbol]?
  let (n, bits) ← number more bits
  return (base + n, bits)

/-- Repeat what was written `distance` bytes ago, `length` bytes of it. -/
def copy (out : Array UInt8) (distance : Nat) : (length : Nat) → Option (Array UInt8)
  | 0 => some out
  | length + 1 =>
    if distance ≤ out.size then
      match out[out.size - distance]? with
      | some b => copy (out.push b) distance length
      | none => none
    else none

/-- Read coded data up to the symbol that ends a block. -/
def coded (literals distances : Code) : (bound : Nat) → Array UInt8 → List Bool →
    Option (Array UInt8 × List Bool)
  | 0, _, _ => none
  | bound + 1, out, bits =>
    match literals.symbol bits with
    | none => none
    | some (symbol, bits) =>
      if symbol < 256 then coded literals distances bound (out.push symbol.toUInt8) bits
      else if symbol = 256 then some (out, bits)
      else
        match tableValue lengthTable (symbol - 257) bits with
        | none => none
        | some (length, bits) =>
          match (distances.symbol bits).bind fun (d, bits) => tableValue distanceTable d bits with
          | none => none
          | some (distance, bits) =>
            match copy out distance length with
            | some out => coded literals distances bound out bits
            | none => none

/-- The code of literals and lengths that a block may use without giving it. -/
def fixedLiterals : Option Code :=
  code? (List.replicate 144 8 ++ List.replicate 112 9 ++ List.replicate 24 7 ++
    List.replicate 8 8)

/-- The code of distances that a block may use without giving it. -/
def fixedDistances : Code := ⟨[0, 0, 0, 0, 30], (List.range 30).toArray⟩

/-- The order in which the lengths of the words for lengths are given. -/
def lengthOrder : List Nat := [16, 17, 18, 0, 8, 7, 9, 6, 10, 5, 11, 4, 12, 3, 13, 2, 14, 1, 15]

/-- A list of `n` numbers of three bits. -/
def smallNumbers : (n : Nat) → List Bool → Option (List Nat × List Bool)
  | 0, bits => some ([], bits)
  | n + 1, bits => do
    let (v, bits) ← number 3 bits
    let (vs, bits) ← smallNumbers n bits
    return (v :: vs, bits)

/-- The lengths of `wanted` words, of which those read come in reverse order. Repetitions must not
go beyond the last. -/
def wordLengths (lengthCode : Code) (wanted : Nat) : (bound : Nat) → (read : List Nat) →
    List Bool → Option (List Nat × List Bool)
  | 0, _, _ => none
  | bound + 1, read, bits =>
    if read.length = wanted then some (read.reverse, bits)
    else
      match lengthCode.symbol bits with
      | none => none
      | some (symbol, bits) =>
        if symbol < 16 then wordLengths lengthCode wanted bound (symbol :: read) bits
        else
          let repeated (value base more : Nat) : Option (List Nat × List Bool) :=
            match number more bits with
            | none => none
            | some (n, bits) =>
              if read.length + base + n ≤ wanted then
                wordLengths lengthCode wanted bound (List.replicate (base + n) value ++ read) bits
              else none
          if symbol = 16 then
            match read with
            | last :: _ => repeated last 3 2
            | [] => none
          else if symbol = 17 then repeated 0 3 3
          else repeated 0 11 7

/-- The codes that a block gives at its beginning. -/
def givenCodes (bits : List Bool) : Option (Code × Code × List Bool) := do
  let (n, bits) ← number 5 bits
  let (m, bits) ← number 5 bits
  let (k, bits) ← number 4 bits
  let literals := n + 257
  let distances := m + 1
  if literals > 286 ∨ distances > 30 then none
  let (given, bits) ← smallNumbers (k + 4) bits
  let placed := lengthOrder.zip given
  let lengthCode ← code? ((List.range 19).map fun s => (placed.lookup s).getD 0)
  let wanted := literals + distances
  let (lengths, bits) ← wordLengths lengthCode wanted (wanted + 1) [] bits
  if (lengths[256]?).getD 0 = 0 then none
  return (← code? (lengths.take literals), ← code? (lengths.drop literals), bits)

/-- The bytes that bits make up, eight at a time. -/
def bytesOf : (n : Nat) → List Bool → Option (List UInt8 × List Bool)
  | 0, bits => some ([], bits)
  | n + 1, bits => do
    let (v, bits) ← number 8 bits
    let (vs, bits) ← bytesOf n bits
    return (v.toUInt8 :: vs, bits)

/-- **The blocks of a stream of `total` bits**, up to the last one. -/
def blocks (total : Nat) : (bound : Nat) → Array UInt8 → List Bool →
    Option (Array UInt8 × List Bool)
  | 0, _, _ => none
  | bound + 1, out, bits =>
    match (number 1 bits).bind fun (final, bits) =>
        (number 2 bits).map fun (kind, bits) => (final, kind, bits) with
    | none => none
    | some (final, kind, bits) =>
      let block : Option (Array UInt8 × List Bool) :=
        if kind = 0 then do
          let bits := bits.drop (bits.length % 8)
          let (length, bits) ← number 16 bits
          let (inverse, bits) ← number 16 bits
          if length + inverse ≠ 65535 then none
          let (bytes, bits) ← bytesOf length bits
          return (out ++ bytes.toArray, bits)
        else if kind = 1 then do
          coded (← fixedLiterals) fixedDistances (total + 1) out bits
        else if kind = 2 then do
          let (literals, distances, bits) ← givenCodes bits
          coded literals distances (total + 1) out bits
        else none
      match block with
      | none => none
      | some (out, bits) => if final = 1 then some (out, bits) else blocks total bound out bits

/-! ## Streams -/

/-- The checksum of a stream's content. -/
def checksum (bytes : Array UInt8) : Nat :=
  let (a, b) := bytes.foldl (fun (a, b) x =>
    let a := (a + x.toNat) % 65521
    (a, (b + a) % 65521)) (1, 0)
  b * 65536 + a

/-- **The content of a compressed stream**, if its header, its blocks and its checksum are right.
What follows the checksum does not count. -/
def content? (bytes : ByteArray) : Option ByteArray := do
  let method ← bytes[0]?
  let flags ← bytes[1]?
  if method.toNat % 16 ≠ 8 ∨ method.toNat / 16 > 7 then none
  if (method.toNat * 256 + flags.toNat) % 31 ≠ 0 ∨ flags.toNat.testBit 5 then none
  let bits := (bytes.toList.drop 2).flatMap byteBits
  let (out, bits) ← blocks bits.length (bits.length + 1) #[] bits
  let (sum, _) ← bytesOf 4 (bits.drop (bits.length % 8))
  if sum.foldl (fun v b => v * 256 + b.toNat) 0 ≠ checksum out then none
  return ⟨out⟩

end Depot.Git.Inflate
