/-
Backslash escapes in words.

A backslash and the characters behind it stand for one byte or for one character. An escape that is none stands for
itself, and one of them, `\c`, ends all output.
-/
import LineShell.Text.Bytes

namespace LineShell.Userland

/-- the value of a digit in a base up to 16 -/
def digitValue? (base : Nat) (c : Char) : Option Nat :=
  let v? := if c.isDigit then some (c.toNat - '0'.toNat)
    else if 'a' ≤ c ∧ c ≤ 'f' then some (c.toNat - 'a'.toNat + 10)
    else if 'A' ≤ c ∧ c ≤ 'F' then some (c.toNat - 'A'.toNat + 10)
    else none
  v?.filter (· < base)

/-- the number at the front of some characters, of at most `most` digits, and what is behind it -/
def leadingNumber (base : Nat) : (most : Nat) → (value : Nat) → List Char → Nat × List Char
  | 0, value, cs => (value, cs)
  | _ + 1, value, [] => (value, [])
  | most + 1, value, c :: cs =>
    match digitValue? base c with
    | some d => leadingNumber base most (value * base + d) cs
    | none => (value, c :: cs)

/-- how octal escapes are written: behind a zero, or with any octal digit -/
inductive OctalForm where
  | behindZero
  | anyDigit
  deriving DecidableEq, Repr

/-- what an escape stands for -/
inductive Escape where
  | bytes (bs : Bytes)
  /-- no more output -/
  | stop
  deriving DecidableEq, Repr

/-- the escapes of one letter -/
def letterEscape? : Char → Option UInt8
  | 'a' => some 7
  | 'b' => some 8
  | 'e' => some 27
  | 'f' => some 12
  | 'n' => some 10
  | 'r' => some 13
  | 't' => some 9
  | 'v' => some 11
  | '\\' => some 92
  | _ => none

/-- read an escape whose backslash has been read -/
def readEscape (form : OctalForm) (cs : List Char) : Escape × List Char :=
  match cs with
  | [] => (.bytes [92], [])
  | c :: rest =>
    if c = 'c' then (.stop, rest)
    else match letterEscape? c with
      | some b => (.bytes [b], rest)
      | none =>
        if c = '0' ∧ form = .behindZero then
          let (n, rest) := leadingNumber 8 3 0 rest
          (.bytes [UInt8.ofNat n], rest)
        else if form = .anyDigit ∧ (digitValue? 8 c).isSome then
          let (n, rest) := leadingNumber 8 3 0 cs
          (.bytes [UInt8.ofNat n], rest)
        else if c = 'x' ∧ (rest.head?.bind (digitValue? 16)).isSome then
          let (n, rest) := leadingNumber 16 2 0 rest
          (.bytes [UInt8.ofNat n], rest)
        else (.bytes (92 :: Text.bytes c.toString), rest)

/-- the bytes that a text with escapes stands for, behind those already found, and whether it stops the output -/
def unescapeFrom (form : OctalForm) : (fuel : Nat) → (found : Array UInt8) → List Char → Bytes × Bool
  | 0, found, _ => (found.toList, false)
  | _ + 1, found, [] => (found.toList, false)
  | fuel + 1, found, c :: cs =>
    if c = '\\' then
      match readEscape form cs with
      | (.stop, _) => (found.toList, true)
      | (.bytes bs, rest) => unescapeFrom form fuel (found ++ bs) rest
    else unescapeFrom form fuel (found ++ Text.bytes c.toString) cs

/-- the bytes that a text with escapes stands for, and whether it stops the output -/
def unescape (form : OctalForm) (s : String) : Bytes × Bool :=
  unescapeFrom form (s.length + 1) #[] s.toList

end LineShell.Userland
