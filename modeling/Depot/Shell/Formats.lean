import Depot.Octets

/-!
# Escapes and formats

What the programs that write their arguments make of escapes and formats. Everything here is in
octets, since an escape may stand for an octet that is no character.
-/

namespace Depot.Shell

/-- The number that octal digits stand for, at most `n` of them, and the rest. -/
def octal (n : Nat) (cs : List Char) : Nat × List Char :=
  let ds := (cs.take n).takeWhile fun c => '0' ≤ c && c ≤ '7'
  (ds.foldl (fun v c => v * 8 + (c.toNat - 48)) 0 % 256, cs.drop ds.length)

/-- What a letter after a backslash stands for. -/
def escapedOctet? : Char → Option Char
  | 'a' => some '\x07'
  | 'b' => some '\x08'
  | 'f' => some '\x0c'
  | 'n' => some '\n'
  | 'r' => some '\r'
  | 't' => some '\t'
  | 'v' => some '\x0b'
  | '\\' => some '\\'
  | _ => none

/-- An argument with its escapes resolved, and whether it asks for no more output. A number begins
with a zero. -/
def unescape : (bound : Nat) → List Char → List Char × Bool
  | 0, _ => ([], false)
  | bound + 1, cs =>
    match cs with
    | '\\' :: 'c' :: _ => ([], true)
    | '\\' :: '0' :: cs =>
      let (v, cs) := octal 3 cs
      let (rest, stop) := unescape bound cs
      (Char.ofNat v :: rest, stop)
    | '\\' :: c :: cs =>
      let (rest, stop) := unescape bound cs
      match escapedOctet? c with
      | some c => (c :: rest, stop)
      | none => ('\\' :: c :: rest, stop)
    | c :: cs =>
      let (rest, stop) := unescape bound cs
      (c :: rest, stop)
    | [] => ([], false)

/-- The arguments with a blank between each two. -/
def spaced (args : List (List Char)) : List Char := [' '].intercalate args

/-- **What the shell's own `echo` writes**: escapes are resolved, and a first argument `-n` leaves
out the end of the line. -/
def echoed (args : List (List Char)) : List Char :=
  let (args, ending) := match args with
    | ['-', 'n'] :: args => (args, [])
    | args => (args, ['\n'])
  let text := spaced args
  match unescape (text.length + 1) text with
  | (out, true) => out
  | (out, false) => out ++ ending

/-- Whether an argument is an option of the program `echo`. -/
def isEchoOption : List Char → Bool
  | '-' :: c :: cs => (c :: cs).all fun c => c == 'n' || c == 'e' || c == 'E'
  | _ => false

/-- **What the program `echo` writes**: escapes are left alone unless an option asks for them. -/
def echoedPlain (args : List (List Char)) : List Char :=
  let options := (args.takeWhile isEchoOption).flatMap (·.drop 1)
  let text := spaced (args.dropWhile isEchoOption)
  let ending := if options.contains 'n' then [] else ['\n']
  let wanted := (options.filter fun c => c == 'e' || c == 'E').getLast?
  if wanted = some 'e' then
    match unescape (text.length + 1) text with
    | (out, true) => out
    | (out, false) => out ++ ending
  else text ++ ending

/-- A text with blanks or zeros before or after it, up to a width. -/
def padded (flags : List Char) (width : Nat) (text : List Char) : List Char :=
  let fill := width - text.length
  if flags.contains '-' then text ++ List.replicate fill ' '
  else if flags.contains '0' then List.replicate fill '0' ++ text
  else List.replicate fill ' ' ++ text

/-- The number that an argument gives. -/
def numberArgument (arg : List Char) : Int :=
  let digits (cs : List Char) : Int :=
    (cs.takeWhile Char.isDigit).foldl (fun v c => v * 10 + (c.toNat - 48 : Nat)) 0
  match arg with
  | '-' :: cs => -digits cs
  | '+' :: cs => digits cs
  | cs => digits cs

/-- One conversion of a format, applied to an argument. -/
def converted (flags : List Char) (width : Nat) (precision : Option Nat) (arg : List Char) :
    Char → Option (List Char)
  | 's' =>
    let text := match precision with
      | some n => arg.take n
      | none => arg
    some (padded (flags.filter (· != '0')) width text)
  | 'b' => some (padded flags width (unescape (arg.length + 1) arg).1)
  | 'c' => some (padded flags width (arg.take 1))
  | 'd' => some (padded flags width (toString (numberArgument arg)).toList)
  | 'i' => some (padded flags width (toString (numberArgument arg)).toList)
  | 'u' => some (padded flags width (toString (numberArgument arg)).toList)
  | 'o' => some (padded flags width (Nat.toDigits 8 (numberArgument arg).toNat))
  | 'x' => some (padded flags width (Nat.toDigits 16 (numberArgument arg).toNat))
  | 'X' =>
    some (padded flags width ((Nat.toDigits 16 (numberArgument arg).toNat).map Char.toUpper))
  | _ => none

/-- A precision, if there is one. -/
def precisionOf : List Char → Option Nat × List Char
  | '.' :: cs =>
    (some (numberArgument (cs.takeWhile Char.isDigit)).toNat, cs.dropWhile Char.isDigit)
  | cs => (none, cs)

/-- One pass over a format: what it writes and the arguments it leaves over. -/
def formatOnce : (bound : Nat) → List Char → List (List Char) → List Char × List (List Char)
  | 0, _, args => ([], args)
  | bound + 1, cs, args =>
    match cs with
    | [] => ([], args)
    | '%' :: '%' :: cs =>
      let (out, args) := formatOnce bound cs args
      ('%' :: out, args)
    | '%' :: cs =>
      let isFlag := fun c => c == '-' || c == '0' || c == '+' || c == ' ' || c == '#'
      let flags := cs.takeWhile isFlag
      let cs := cs.dropWhile isFlag
      let width := (numberArgument (cs.takeWhile Char.isDigit)).toNat
      let (precision, cs) := precisionOf (cs.dropWhile Char.isDigit)
      match cs with
      | c :: cs =>
        match converted flags width precision (args.head?.getD []) c with
        | some text =>
          let (out, args) := formatOnce bound cs args.tail
          (text ++ out, args)
        | none => ([], [])
      | [] => ([], [])
    | '\\' :: c :: cs =>
      if '0' ≤ c ∧ c ≤ '7' then
        let (v, cs) := octal 3 (c :: cs)
        let (out, args) := formatOnce bound cs args
        (Char.ofNat v :: out, args)
      else
        let (out, args) := formatOnce bound cs args
        match escapedOctet? c with
        | some c => (c :: out, args)
        | none => ('\\' :: c :: out, args)
    | c :: cs =>
      let (out, args) := formatOnce bound cs args
      (c :: out, args)

/-- **What `printf` writes**: the format is used again until no argument is left. -/
def formatted : (bound : Nat) → (format : List Char) → (args : List (List Char)) → List Char
  | 0, _, _ => []
  | bound + 1, format, args =>
    let (out, left) := formatOnce (format.length + 1) format args
    if left.isEmpty ∨ left.length = args.length then out
    else out ++ formatted bound format left

end Depot.Shell
