/-
Editing line by line: `sed`.

A script is a list of commands, each for all lines or for those that its addresses choose. Every line goes through all
commands in order and is then written, unless it was deleted or writing is left to the commands.
-/
import LineShell.Userland.Pattern

namespace LineShell.Userland

/-- which lines are meant -/
inductive Address where
  | number (n : Nat)
  | last
  | having (p : Pattern)
  deriving DecidableEq, Repr

/-- what is done with a line -/
inductive EditAction where
  | substitute (p : Pattern) (pieces : List Pattern.Piece) (nth : Nat) (all print : Bool)
  | exchange (source target : Bytes)
  | delete
  | print
  | printNumber
  | quit
  deriving DecidableEq, Repr

/-- a command: from one line on, up to another, or the other way round -/
structure EditCommand where
  start : Option Address := none
  stop : Option Address := none
  negated : Bool := false
  action : EditAction
  deriving DecidableEq, Repr

/-! ## reading a script -/

/-- the characters up to a delimiter that no backslash stands in front of, and those behind it; a delimiter behind a
backslash stands for itself -/
def delimited (d : Char) : List Char → Option (List Char × List Char)
  | [] => none
  | '\\' :: c :: rest =>
    (delimited d rest).map fun (inner, rest) => (if c = d then c :: inner else '\\' :: c :: inner, rest)
  | c :: rest => if c = d then some ([], rest) else (delimited d rest).map fun (inner, rest) => (c :: inner, rest)

/-- read a replacement -/
def readReplacement : List Char → List Pattern.Piece
  | [] => []
  | '&' :: rest => .whole :: readReplacement rest
  | '\\' :: 'n' :: rest => .bytes [10] :: readReplacement rest
  | '\\' :: 't' :: rest => .bytes [9] :: readReplacement rest
  | '\\' :: c :: rest => .bytes (Text.bytes c.toString) :: readReplacement rest
  | c :: rest => .bytes (Text.bytes c.toString) :: readReplacement rest

/-- the flags of a substitution: which match, all, print -/
def readSubstitutionFlags (nth : Nat) (all print : Bool) : List Char → Nat × Bool × Bool × List Char
  | 'g' :: rest => readSubstitutionFlags nth true print rest
  | 'p' :: rest => readSubstitutionFlags nth all true rest
  | c :: rest =>
    match digitValue? 10 c with
    | some n => if n = 0 then (nth, all, print, c :: rest) else readSubstitutionFlags n all print rest
    | none => (nth, all, print, c :: rest)
  | [] => (nth, all, print, [])

/-- what is wrong with a script -/
inductive EditFault where
  | unknownCommand (c : Char)
  | missingCommand
  | extraCharacters
  | unterminated (c : Char)
  | unterminatedAddress
  | unexpectedComma
  | lineZero
  | unknownOption
  | unequalLengths
  | badPattern
  deriving DecidableEq, Repr

/-- the wording of a fault -/
def EditFault.message : EditFault → String
  | unknownCommand c => s!"unknown command: `{c}'"
  | missingCommand => "missing command"
  | extraCharacters => "extra characters after command"
  | unterminated c => s!"unterminated `{c}' command"
  | unterminatedAddress => "unterminated address regex"
  | unexpectedComma => "unexpected `,'"
  | lineZero => "invalid usage of line address 0"
  | unknownOption => "unknown option to `s'"
  | unequalLengths => "strings for `y' command are different lengths"
  | badPattern => "Invalid preceding regular expression"

/-- reading a script fails with a fault and the characters that were not looked at -/
abbrev EditReader := Except (EditFault × List Char)

/-- read an address, if there is one -/
def readAddress (extended : Bool) (cs : List Char) : EditReader (Option Address × List Char) :=
  match cs with
  | '$' :: rest => .ok (some .last, rest)
  | '/' :: rest =>
    match delimited '/' rest with
    | none => .error (.unterminatedAddress, [])
    | some (inner, rest) =>
      match Pattern.read? extended inner with
      | none => .error (.badPattern, rest)
      | some p => .ok (some (.having p), rest)
  | cs =>
    let (n, rest) := leadingNumber 10 18 0 cs
    .ok (if rest.length < cs.length then (some (.number n), rest) else (none, cs))

/-- the two parts of a command between delimiters -/
def delimitedPair (command d : Char) (cs : List Char) : EditReader ((List Char × List Char) × List Char) :=
  match delimited d cs with
  | none => .error (.unterminated command, [])
  | some (first, rest) =>
    match delimited d rest with
    | none => .error (.unterminated command, [])
    | some (second, rest) => .ok ((first, second), rest)

/-- may the character stand between commands? -/
def isCommandGap (c : Char) : Bool := c == ' ' || c == '\t' || c == '\n' || c == ';'

/-- does the command end here? -/
def endsCommand (cs : List Char) : Bool := (cs.head?.map fun c => c == '\n' || c == ';').getD true

/-- read what is done with a line -/
def readAction (extended : Bool) (cs : List Char) : EditReader (EditAction × List Char) :=
  match cs with
  | 'd' :: rest => .ok (.delete, rest)
  | 'p' :: rest => .ok (.print, rest)
  | '=' :: rest => .ok (.printNumber, rest)
  | 'q' :: rest => .ok (.quit, rest)
  | 's' :: d :: rest => do
    let ((pattern, replacement), rest) ← delimitedPair 's' d rest
    let (nth, all, print, rest) := readSubstitutionFlags 1 false false rest
    let rest := rest.dropWhile (· == ' ')
    if !endsCommand rest then .error (.unknownOption, rest.tail)
    else match Pattern.read? extended pattern with
      | none => .error (.badPattern, rest)
      | some p => .ok (.substitute p (readReplacement replacement) nth all print, rest)
  | 'y' :: d :: rest => do
    let ((source, target), rest) ← delimitedPair 'y' d rest
    let source := Text.bytes (String.ofList source)
    let target := Text.bytes (String.ofList target)
    if source.length = target.length then .ok (.exchange source target, rest) else .error (.unequalLengths, rest)
  | [c] => if c == 's' || c == 'y' then .error (.unterminated c, []) else .error (.unknownCommand c, [])
  | c :: rest => .error (.unknownCommand c, rest)
  | [] => .error (.missingCommand, [])

/-- read the lines that a command is for: the two addresses and whether the other lines are meant -/
def readSelection (extended : Bool) (cs : List Char) :
    EditReader ((Option Address × Option Address × Bool) × List Char) := do
  let (start, cs) ← readAddress extended cs
  let (stop, cs) ← match start, cs.dropWhile (· == ' ') with
    | some _, ',' :: rest => do
      let rest := rest.dropWhile (· == ' ')
      match ← readAddress extended rest with
      | (none, cs) => .error (.unexpectedComma, cs.tail)
      | (stop, cs) => .ok (stop, cs)
    | none, ',' :: rest => .error (.unexpectedComma, rest)
    | _, cs => .ok (none, cs)
  if start == some (.number 0) then .error (.lineZero, cs.tail)
  let cs := cs.dropWhile (· == ' ')
  match cs with
  | '!' :: rest => .ok ((start, stop, true), rest.dropWhile (· == ' '))
  | cs => .ok ((start, stop, false), cs)

/-- read a script -/
def readScript (extended : Bool) : (fuel : Nat) → List Char → EditReader (List EditCommand)
  | 0, _ => .ok []
  | fuel + 1, cs =>
    match cs.dropWhile isCommandGap with
    | [] => .ok []
    | cs => do
      let ((start, stop, negated), cs) ← readSelection extended cs
      let (action, cs) ← readAction extended cs
      let cs := cs.dropWhile (· == ' ')
      if endsCommand cs then
        let rest ← readScript extended fuel cs
        .ok ({ start, stop, negated, action } :: rest)
      else .error (.extraCharacters, cs.tail)

/-! ## running a script -/

/-- does an address mean the line? -/
def Address.means (a : Address) (number : Nat) (isLast : Bool) (line : Bytes) : Bool :=
  match a with
  | .number n => n == number
  | .last => isLast
  | .having p => p.occurs true line

/-- is the range of a command closed by the line at which it was opened or goes on? -/
def closesAt (stop : Address) (number : Nat) (isLast : Bool) (line : Bytes) : Bool :=
  match stop with
  | .number n => n ≤ number
  | a => a.means number isLast line

/-- does the command mean the line, and is its range open behind it? -/
def EditCommand.selects (c : EditCommand) (inRange : Bool) (number : Nat) (isLast : Bool) (line : Bytes) :
    Bool × Bool :=
  match c.start, c.stop with
  | none, _ => (true, false)
  | some a, none => (a.means number isLast line, false)
  | some a, some b =>
    if inRange then (true, !closesAt b number isLast line)
    else if a.means number isLast line then
      (true, match b with
        | .number n => number < n
        | _ => !isLast)
    else (false, false)

/-- a line on its way through the commands -/
structure Editing where
  line : Bytes
  out : Array UInt8 := #[]
  deleted : Bool := false
  quitting : Bool := false

/-- a line written out -/
def Editing.write (e : Editing) : Editing := { e with out := (e.out ++ e.line).push newline }

/-- do one thing with a line -/
def EditAction.apply (a : EditAction) (number : Nat) (e : Editing) : Editing :=
  match a with
  | delete => { e with deleted := true }
  | print => e.write
  | printNumber => { e with out := (e.out ++ Text.bytes (toString number)).push newline }
  | quit => { e with quitting := true }
  | exchange source target => { e with line := e.line.map (mapByte source target) }
  | substitute p pieces nth all shown =>
    let (line, hit) := p.replace pieces nth all e.line
    let e := { e with line }
    if hit && shown then e.write else e

/-- a line through all commands; the flags say which ranges are open -/
def editLine (number : Nat) (isLast : Bool) : List EditCommand → List Bool → Editing → Editing × List Bool
  | [], _, e => (e, [])
  | c :: cs, flags, e =>
    let inRange := flags.head?.getD false
    if e.deleted || e.quitting then
      let (e, rest) := editLine number isLast cs flags.tail e
      (e, inRange :: rest)
    else
      let (selected, inRange) := c.selects inRange number isLast e.line
      let e := if selected != c.negated then c.action.apply number e else e
      let (e, rest) := editLine number isLast cs flags.tail e
      (e, inRange :: rest)

/-- all lines through all commands, each numbered from `number` on -/
def editLines (quiet : Bool) (cs : List EditCommand) : (number : Nat) → (flags : List Bool) → (out : Array UInt8) →
    List Bytes → Array UInt8
  | _, _, out, [] => out
  | number, flags, out, line :: rest =>
    let (e, flags) := editLine number rest.isEmpty cs flags { line }
    let e := if e.deleted || quiet then e else e.write
    let out := out ++ e.out
    if e.quitting then out else editLines quiet cs (number + 1) flags out rest

/-- the edited text; a last line without an end keeps having none -/
def editText (quiet : Bool) (cs : List EditCommand) (bs : Bytes) : Bytes :=
  let l := Lines.ofBytes bs
  let out := editLines quiet cs 1 [] #[] l.toList
  (if l.rest.isEmpty || out.back? != some newline then out else out.pop).toList

def sed : Utility where
  name := "sed"
  run := withOptions "sed" { flags := ['n', 'E', 'r', 's', 'u'], valued := ['e'] } 1 fun o p w =>
    let quiet := o.has 'n'
    let extended := o.has 'E' || o.has 'r'
    let given := (o.given.filter (·.1 == 'e')).map (·.2)
    let (script?, files) := if given.isEmpty then (o.operands.head?, o.operands.tail)
      else (some ("\n".intercalate given), o.operands)
    match script? with
    | none => (.complaint "Usage: sed [OPTION]... \x7bscript-only-if-no-other-script\x7d [input-file]...\n" 1, w)
    | some script =>
      match readScript extended (script.length + 1) script.toList with
      | .error (fault, unread) =>
        let seen := script.length - unread.length
        (.complaint s!"sed: -e expression #1, char {seen}: {fault.message}\n" 1, w)
      | .ok cs =>
        let (inputs, w) := readOperands p files w
        let bytes := inputs.flatMap fun i => (i.content.toOption.getD {}).bytes
        let complaints := inputs.map fun i => match i.content with
          | .ok _ => ({} : Report)
          | .error e =>
            let title := if i.name = "-" then "stdin" else i.name
            if i.opened then .complaint s!"sed: read error on {title}: {e.text}\n" 2
            else .complaint s!"sed: can't read {i.name}: {e.text}\n" 2
        (.concat complaints ++ .ofBytes (editText quiet cs bytes), w)
  writeFailure := { message := fun text => s!"sed: couldn't flush stdout: {text}\n", status := 4 }

end LineShell.Userland
