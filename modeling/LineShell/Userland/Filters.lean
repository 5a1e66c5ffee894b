/-
Programs that read bytes and pass on bytes: `cat`, `head`, `tail`, `sort`, `wc`.
-/
import LineShell.Userland.Report

namespace LineShell.Userland

/-! ## cat -/

/-- bytes with a number in front of every line -/
def numbered (bs : Bytes) : Bytes :=
  let l := Lines.ofBytes bs
  let label (k : Nat) : Array UInt8 :=
    let digits := toString (k + 1)
    (Text.bytes (String.ofList (List.replicate (6 - digits.length) ' ') ++ digits ++ "\t")).toArray
  let out := l.ended.toList.zipIdx.foldl (fun (out : Array UInt8) (line, k) => (out ++ label k ++ line).push newline)
      #[]
  (if l.rest.isEmpty then out else out ++ label l.ended.size ++ l.rest).toList

def cat : Utility where
  name := "cat"
  run := withOptions "cat" { flags := ['n', 'u'] } 1 fun o p w =>
    let (inputs, w) := readOperands p o.operands w
    (.concat (inputs.map fun i => match i.content with
      | .ok f => .ofFlow (if o.has 'n' then .ofBytes (numbered f.bytes) else f)
      | .error e => .complaint s!"cat: {i.name}: {e.text}\n" 1), w)

/-! ## head and tail -/

/-- how much of a text is meant: a number of lines or of bytes, counted from the end or not -/
structure Amount where
  bytes : Bool := false
  count : Nat := 10
  /-- `head`: all but so much at the end; `tail`: all from there on -/
  inverse : Bool := false
  deriving DecidableEq, Repr

/-- the factor of a unit behind a number -/
def unitFactor? : List Char → Option Nat
  | [] => some 1
  | ['b'] => some 512
  | ['k', 'B'] => some 1000
  | ['k'] => some 1024
  | ['K'] => some 1024
  | ['M', 'B'] => some 1000000
  | ['M'] => some 1048576
  | _ => none

/-- a count with a unit -/
def count? (cs : List Char) : Option Nat :=
  let digits := cs.takeWhile Char.isDigit
  if digits.isEmpty then none
  else (unitFactor? (cs.dropWhile Char.isDigit)).map fun k =>
    k * digits.foldl (fun n c => 10 * n + (c.toNat - '0'.toNat)) 0

/-- the amount that an option's value means; `inverting` is the sign that turns it around -/
def amount? (inverting : Char) (bytes : Bool) (value : String) : Option Amount :=
  match value.toList with
  | c :: cs =>
    if c = inverting then (count? cs).map fun count => { bytes, count, inverse := true }
    else if c = '-' ∨ c = '+' then (count? cs).map fun count => { bytes, count }
    else (count? (c :: cs)).map fun count => { bytes, count }
  | [] => none

/-- words in which a leading `-5` is written out -/
def expandCount : List String → List String
  | [] => []
  | arg :: rest =>
    match arg.toList with
    | '-' :: c :: cs => if (c :: cs).all Char.isDigit then "-n" :: String.ofList (c :: cs) :: rest else arg :: rest
    | _ => arg :: rest

/-- the amount that the options mean, or the value that means none -/
def amountOf (inverting : Char) (o : Options) : Except (String × String) Amount :=
  match (o.given.reverse.find? fun (c, _) => c == 'n' || c == 'c') with
  | none => .ok {}
  | some (c, v) =>
    match amount? inverting (c == 'c') v with
    | some a => .ok a
    | none => .error (if c = 'c' then "bytes" else "lines", v)

/-- the number of bytes up to the end of the line number `count`, behind `seen` bytes -/
def afterLine (count seen : Nat) : Bytes → Nat
  | [] => seen
  | b :: bs =>
    if count = 0 then seen
    else if b = newline then afterLine (count - 1) (seen + 1) bs
    else afterLine count (seen + 1) bs

/-- how many bytes at the front of a flow an amount means -/
def headLength (a : Amount) (f : Flow) : Nat :=
  match a.bytes, a.inverse with
  | true, false => a.count
  | true, true => f.bytes.length - a.count
  | false, false => afterLine a.count 0 (f.unroll (f.bytes.length + a.count * f.cycle.length)).bytes
  | false, true =>
    let l := Lines.ofBytes f.bytes
    let total := l.toList.length
    afterLine (total - a.count) 0 f.bytes

/-- the end of a text that an amount means -/
def tailBytes (a : Amount) (bs : Bytes) : Bytes :=
  match a.bytes, a.inverse with
  | true, false => bs.drop (bs.length - a.count)
  | true, true => bs.drop (a.count - 1)
  | false, false =>
    let total := (Lines.ofBytes bs).toList.length
    bs.drop (afterLine (total - a.count) 0 bs)
  | false, true => bs.drop (afterLine (a.count - 1) 0 bs)

/-- the name of an input in a heading or a complaint -/
def inputTitle (name : String) : String := if name = "-" then "standard input" else name

/-- the heading of an input, when there are several -/
def heading (first : Bool) (name : String) : Report :=
  .ofText ((if first then "" else "\n") ++ s!"==> {inputTitle name} <==\n")

/-- the complaint about an input that cannot be opened or read -/
def inputComplaint (program : String) (i : Input) (e : Errno) : Report :=
  .complaint (if i.opened then s!"{program}: error reading '{inputTitle i.name}': {e.text}\n"
    else s!"{program}: cannot open '{i.name}' for reading: {e.text}\n") 1

/-- what a part of every input gives, with headings if there are several -/
def partOfEach (program : String) (part : Flow → Bytes) (inputs : List Input) : Report :=
  let several := inputs.length > 1
  .concat (inputs.zipIdx.map fun (i, k) => match i.content with
    | .ok f => (if several then heading (k == 0) i.name else {}) ++ .ofBytes (part f)
    | .error e =>
      (if several && i.opened then heading (k == 0) i.name else {}) ++ inputComplaint program i e)

/-- the way in which `head` and `tail` complain about their output -/
def outputFailure (name : String) : WriteFailure :=
  { message := fun text => s!"{name}: error writing 'standard output': {text}\n" }

/-- `head` takes no more from its own input than it passes on -/
def head : Utility where
  name := "head"
  run p w :=
    match Options.parse { flags := ['q', 'v'], valued := ['n', 'c'] } (expandCount p.args) with
    | .error f => (.complaint (f.message "head") 1, w)
    | .ok o =>
      match amountOf '-' o with
      | .error (what, v) => (.complaint s!"head: invalid number of {what}: '{v}'\n" 1, w)
      | .ok a =>
        if o.operands.isEmpty then
          match p.contents 0 w with
          | .ok f =>
            let n := headLength a f
            (.ofBytes (f.take n), p.advance 0 n w)
          | .error e => (inputComplaint "head" { name := "-", content := .error e } e, w)
        else
          let (inputs, w) := readOperands p o.operands w
          (partOfEach "head" (fun f => f.take (headLength a f)) inputs, w)
  writeFailure := outputFailure "head"

def tail : Utility where
  name := "tail"
  run p w :=
    match Options.parse { flags := ['q', 'v'], valued := ['n', 'c'] } (expandCount p.args) with
    | .error f => (.complaint (f.message "tail") 1, w)
    | .ok o =>
      match amountOf '+' o with
      | .error (what, v) => (.complaint s!"tail: invalid number of {what}: '{v}'\n" 1, w)
      | .ok a =>
        let (inputs, w) := readOperands p o.operands w
        (partOfEach "tail" (fun f => tailBytes a f.bytes) inputs, w)
  writeFailure := outputFailure "tail"

/-! ## sort -/

/-- the number at the front of a line -/
def lineNumber (line : Bytes) : Int :=
  let value (bs : Bytes) : Int := (bs.takeWhile fun b => 48 ≤ b && b ≤ 57).foldl (fun n b => 10 * n + (b.toNat - 48)) 0
  match line.dropWhile fun b => b == 32 || b == 9 with
  | 45 :: bs => -(value bs)
  | bs => value bs

/-- does the first line come before the second? -/
def linePrecedes (numeric : Bool) (a b : Bytes) : Bool :=
  if numeric && lineNumber a != lineNumber b then lineNumber a < lineNumber b else a < b

/-- lines without those that repeat the one before -/
def withoutRepeats (same : Bytes → Bytes → Bool) : List Bytes → List Bytes
  | [] => []
  | line :: rest => ((rest.foldl (fun (kept : Array Bytes × Bytes) next =>
      if same kept.2 next then kept else (kept.1.push next, next)) (#[line], line)).1).toList

def sortLines (numeric reverse unique : Bool) (lines : List Bytes) : List Bytes :=
  let precedes (a b : Bytes) : Bool := if reverse then linePrecedes numeric b a else linePrecedes numeric a b
  let sorted := lines.mergeSort fun a b => !precedes b a
  if unique then withoutRepeats (fun a b => !precedes a b && !precedes b a) sorted else sorted

def sort : Utility where
  name := "sort"
  run := withOptions "sort" { flags := ['r', 'n', 'u', 's', 'b'] } 2 fun o p w =>
    let (inputs, w) := readOperands p o.operands w
    match inputs.find? (·.content.toOption.isNone) with
    | some i =>
      let what := if i.opened then "read failed" else "cannot read"
      let text := match i.content with
        | .error e => e.text
        | .ok _ => ""
      (.complaint s!"sort: {what}: {i.name}: {text}\n" 2, w)
    | none =>
      let lines := inputs.flatMap fun i => (Lines.ofBytes ((i.content.toOption.getD {}).bytes)).toList
      (.ofBytes (joinLines (sortLines (o.has 'n') (o.has 'r') (o.has 'u') lines)), w)
  writeFailure := { message := fun text => s!"sort: write failed: 'standard output': {text}\n", status := 2 }

/-! ## wc -/

/-- the counts of one text -/
structure Counts where
  lines : Nat := 0
  words : Nat := 0
  chars : Nat := 0
  bytes : Nat := 0
  deriving DecidableEq, Repr

/-- is the byte a blank between words? -/
def isBlankByte (b : UInt8) : Bool := b == 32 || (9 ≤ b && b ≤ 13)

/-- the counts of a text; every byte is a character -/
def countsOf (bs : Bytes) : Counts :=
  let step (c : Counts × Bool) (b : UInt8) : Counts × Bool :=
    let blank := isBlankByte b
    ({ lines := c.1.lines + (if b = newline then 1 else 0)
       words := c.1.words + (if c.2 && !blank then 1 else 0)
       chars := c.1.chars + 1
       bytes := c.1.bytes + 1 }, blank)
  (bs.foldl step ({}, true)).1

/-- the sum of counts -/
def Counts.add (a b : Counts) : Counts := ⟨a.lines + b.lines, a.words + b.words, a.chars + b.chars, a.bytes + b.bytes⟩

/-- the counts that the options ask for -/
def Counts.chosen (c : Counts) (o : Options) : List Nat :=
  let all := !(o.has 'l' || o.has 'w' || o.has 'm' || o.has 'c')
  (if all || o.has 'l' then [c.lines] else []) ++ (if all || o.has 'w' then [c.words] else [])
    ++ (if o.has 'm' then [c.chars] else []) ++ (if all || o.has 'c' then [c.bytes] else [])

/-- a number filled up with blanks in front -/
def padLeft (width n : Nat) : String :=
  let digits := toString n
  String.ofList (List.replicate (width - digits.length) ' ') ++ digits

/-- a line of counts, with a title if it has one -/
def countLine (width : Nat) (ns : List Nat) (title : Option String) : String :=
  " ".intercalate (ns.map (padLeft width) ++ title.toList) ++ "\n"

/-- the width of the numbers: one number for one input stands by itself, inputs of known size need their digits, and all
else gets seven columns -/
def countWidth (inputs : List Input) (columns : Nat) : Nat :=
  if inputs.length = 1 ∧ columns = 1 then 1
  else
    let total := (inputs.filterMap (·.size)).foldl (· + ·) 0
    let digits := (toString total).length
    if inputs.any fun i => i.opened && i.size.isNone then max digits 7 else digits

def wc : Utility where
  name := "wc"
  run := withOptions "wc" { flags := ['l', 'w', 'm', 'c'] } 1 fun o p w =>
    let (inputs, w) := readOperands p o.operands w
    let countsFor (i : Input) : Counts := countsOf ((i.content.toOption.getD {}).bytes)
    let width := countWidth inputs ((({} : Counts).chosen o).length)
    let each := inputs.map fun i =>
      let line : Report := .ofText (countLine width ((countsFor i).chosen o)
        (if o.operands.isEmpty then none else some i.name))
      match i.content with
      | .ok _ => line
      | .error e =>
        let title := if i.name = "-" then "'standard input'" else i.name
        (.complaint s!"wc: {title}: {e.text}\n" 1) ++ (if i.opened then line else {})
    let total := (inputs.map countsFor).foldl Counts.add {}
    let last : Report := if inputs.length > 1 then .ofText (countLine width (total.chosen o) (some "total")) else {}
    (.concat each ++ last, w)

end LineShell.Userland
