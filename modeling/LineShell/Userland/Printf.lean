/-
Formatted output: `printf`.

A format is text with escapes and directives. Each directive takes the next word, or nothing at all once the words have
run out; the format is used again as long as there are words and it takes any.
-/
import LineShell.Userland.Escapes
import LineShell.Userland.Report

namespace LineShell.Userland

/-- how a converted word is laid out -/
structure Layout where
  left : Bool := false
  zero : Bool := false
  plus : Bool := false
  space : Bool := false
  alternate : Bool := false
  width : Nat := 0
  precision : Option Nat := none
  deriving DecidableEq, Repr

/-- one part of a format -/
inductive FormatPart where
  | text (bytes : Bytes)
  /-- no more output -/
  | stop
  | directive (layout : Layout) (conversion : Char)
  | invalid (text : String)
  deriving DecidableEq, Repr

/-- read the flags of a directive -/
def readFlags (l : Layout) : List Char → Layout × List Char
  | '-' :: cs => readFlags { l with left := true } cs
  | '0' :: cs => readFlags { l with zero := true } cs
  | '+' :: cs => readFlags { l with plus := true } cs
  | ' ' :: cs => readFlags { l with space := true } cs
  | '#' :: cs => readFlags { l with alternate := true } cs
  | cs => (l, cs)

/-- read the precision of a directive -/
def readPrecision (l : Layout) (cs : List Char) : Layout × List Char :=
  match cs with
  | '.' :: cs => let (n, cs) := leadingNumber 10 9 0 cs; ({ l with precision := some n }, cs)
  | cs => (l, cs)

/-- read a directive whose `%` has been read -/
def readDirective (cs : List Char) : FormatPart × List Char :=
  let (l, rest) := readFlags {} cs
  let (width, rest) := leadingNumber 10 9 0 rest
  let (l, rest) := readPrecision { l with width } rest
  match rest with
  | [] => (.invalid (String.ofList ('%' :: cs)), [])
  | c :: rest =>
    if ['s', 'b', 'c', 'd', 'i', 'u', 'o', 'x', 'X'].contains c then (.directive l c, rest)
    else (.invalid (String.ofList ('%' :: cs.take (cs.length - rest.length))), rest)

/-- read a format -/
def readFormat : (fuel : Nat) → List Char → List FormatPart
  | 0, _ => []
  | _ + 1, [] => []
  | fuel + 1, '%' :: '%' :: cs => .text [37] :: readFormat fuel cs
  | fuel + 1, '%' :: cs => let (part, rest) := readDirective cs; part :: readFormat fuel rest
  | fuel + 1, '\\' :: '"' :: cs => .text [34] :: readFormat fuel cs
  | fuel + 1, '\\' :: cs =>
    match readEscape .anyDigit cs with
    | (.stop, _) => [.stop]
    | (.bytes bs, rest) => .text bs :: readFormat fuel rest
  | fuel + 1, c :: cs => .text (Text.bytes c.toString) :: readFormat fuel cs

/-! ## converting words -/

/-- what is wrong with a word that should be a number -/
inductive NumberFault where
  | expected
  | incomplete
  deriving DecidableEq, Repr

/-- the digits of a number in the base that its front gives -/
def basedNumber (cs : List Char) : Nat × List Char × Bool :=
  match cs with
  | '0' :: 'x' :: rest => let (n, left) := leadingNumber 16 16 0 rest; (n, left, true)
  | '0' :: 'X' :: rest => let (n, left) := leadingNumber 16 16 0 rest; (n, left, true)
  | '0' :: rest => let (n, left) := leadingNumber 8 22 0 rest; (n, left, true)
  | cs => let (n, left) := leadingNumber 10 19 0 cs; (n, left, left.length < cs.length)

/-- the number that a word means; behind a quote it is the code of the next character -/
def wordNumber (s : String) : Int × Option NumberFault :=
  match s.toList with
  | '\'' :: c :: _ => (c.toNat, none)
  | '"' :: c :: _ => (c.toNat, none)
  | cs =>
    let cs := cs.dropWhile fun c => c == ' ' || c == '\t'
    let (negative, cs) := match cs with
      | '-' :: rest => (true, rest)
      | '+' :: rest => (false, rest)
      | cs => (false, cs)
    let (n, left, some?) := basedNumber cs
    let value : Int := if negative then -(n : Int) else n
    if !some? then (0, some .expected)
    else (value, if left.isEmpty then none else some .incomplete)

/-- fill up to a width -/
def padTo (l : Layout) (bs : Bytes) : Bytes :=
  let fill := List.replicate (l.width - bs.length) (32 : UInt8)
  if l.left then bs ++ fill else fill ++ bs

/-- the sign in front of a number -/
def signText (l : Layout) (n : Int) : String :=
  if n < 0 then "-" else if l.plus then "+" else if l.space then " " else ""

/-- lay out the digits of a number behind what stands in front of them -/
def layNumber (l : Layout) (front digits : String) : Bytes :=
  let least := match l.precision with
    | some p => p
    | none => if l.zero && !l.left then l.width - front.length else 0
  padTo l (Text.bytes (front ++ String.ofList (List.replicate (least - digits.length) '0') ++ digits))

/-- an unsigned number: a negative one counts from the end of the 64-bit range -/
def unsigned (n : Int) : Nat := (n % 18446744073709551616).toNat

/-- convert a word that should be a number -/
def convertNumber (l : Layout) (conversion : Char) (n : Int) : Bytes :=
  let inBase (base : Nat) : String := String.ofList (Nat.toDigits base (unsigned n))
  match conversion with
  | 'd' => layNumber l (signText l n) (toString n.natAbs)
  | 'i' => layNumber l (signText l n) (toString n.natAbs)
  | 'u' => layNumber l "" (toString (unsigned n))
  | 'o' => layNumber l (if l.alternate && n != 0 then "0" else "") (inBase 8)
  | 'x' => layNumber l (if l.alternate && n != 0 then "0x" else "") (inBase 16)
  | _ => layNumber l (if l.alternate && n != 0 then "0X" else "") ((inBase 16).map Char.toUpper)

/-- what one pass over a format has come to -/
structure Formatted where
  out : Array UInt8 := #[]
  complaints : String := ""
  status : Nat := 0
  words : List String
  /-- has a directive asked for a word? -/
  asked : Bool := false
  stopped : Bool := false

/-- the complaint about a word that should be a number -/
def NumberFault.message (name word : String) : NumberFault → String
  | expected => s!"{name}: '{word}': expected a numeric value\n"
  | incomplete => s!"{name}: '{word}': value not completely converted\n"

/-- write one part of a format -/
def formatPart (name : String) (s : Formatted) (part : FormatPart) : Formatted :=
  if s.stopped then s
  else match part with
    | .text bs => { s with out := s.out ++ bs }
    | .stop => { s with stopped := true }
    | .invalid text =>
      { s with complaints := s.complaints ++ s!"{name}: {text}: invalid conversion specification\n", status := 1,
               stopped := true }
    | .directive l c =>
      let word := s.words.head?
      let s := { s with words := s.words.tail, asked := true }
      let text := word.getD ""
      let cut (bs : Bytes) : Bytes := match l.precision with
        | some p => bs.take p
        | none => bs
      match c with
      | 's' => { s with out := s.out ++ padTo l (cut (Text.bytes text)) }
      | 'c' => { s with out := s.out ++ padTo l ((Text.bytes text).take 1) }
      | 'b' =>
        let (bs, stopped) := unescape .behindZero text
        { s with out := s.out ++ padTo l (cut bs), stopped }
      | c =>
        let (n, fault) := if word.isSome then wordNumber text else (0, none)
        let s := { s with out := s.out ++ convertNumber l c n }
        match fault with
        | none => s
        | some f => { s with complaints := s.complaints ++ f.message name text, status := 1 }

/-- use a format again and again until no words are left -/
def formatAll (name : String) (parts : List FormatPart) : (passes : Nat) → Formatted → Formatted
  | 0, s => s
  | passes + 1, s =>
    let s := parts.foldl (formatPart name) { s with asked := false }
    if s.stopped || s.words.isEmpty || !s.asked then s else formatAll name parts passes s

/-- what `printf` has to say to its words -/
def printfReport (name : String) (args : List String) : Report :=
  match (match args with
    | "--" :: rest => rest
    | args => args) with
  | [] => .complaint s!"{name}: missing operand\nTry '{name} --help' for more information.\n" 1
  | format :: words =>
    let s := formatAll name (readFormat (format.length + 1) format.toList) (words.length + 1) { words }
    let excess := match s.words with
      | word :: _ =>
        if s.stopped then "" else s!"{name}: warning: ignoring excess arguments, starting with '{word}'\n"
      | [] => ""
    { writes := [(.stderr, .ofBytes (Text.bytes (s.complaints ++ excess))), (.stdout, .ofBytes s.out.toList)],
      status := s.status }

def printf : Utility where
  name := "printf"
  run p w := (printfReport "printf" p.args, w)

end LineShell.Userland
