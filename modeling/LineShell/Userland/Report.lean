/-
What the programs of the userland have in common.

Such a program reads its operands or its input and says what it writes, in order, and with which status it ends: its
`Report`. `Utility.program` then does the writing. A write that nobody can read ends the program by a signal; a write
that fails otherwise is complained about and ends it with a status of its own.
-/
import LineShell.Child.Process

namespace LineShell.Userland

/-- what a program writes, and the status that it ends with if it can write it -/
structure Report where
  writes : List (Output × Flow) := []
  status : Nat := 0
  deriving DecidableEq, Repr

namespace Report

/-- a report of output alone -/
def ofFlow (f : Flow) : Report := { writes := [(.stdout, f)] }

/-- a report of output alone, given as bytes -/
def ofBytes (bytes : Bytes) : Report := .ofFlow (.ofBytes bytes)

/-- a report of output alone, given as text -/
def ofText (s : String) : Report := .ofBytes (Text.bytes s)

/-- a report of a complaint -/
def complaint (s : String) (status : Nat) : Report := { writes := [(.stderr, .ofBytes (Text.bytes s))], status }

/-- one report behind another; of two statuses the greater counts -/
def append (a b : Report) : Report := ⟨a.writes ++ b.writes, max a.status b.status⟩

instance : Append Report := ⟨append⟩

/-- all reports, one behind the other -/
def concat (rs : List Report) : Report := ⟨rs.flatMap (·.writes), (rs.map (·.status)).foldl max 0⟩

end Report

/-! ## writing -/

/-- what a program that cannot write its output has to say, and the status that it ends with -/
structure WriteFailure where
  message : String → String
  status : Nat := 1

/-- a program of the userland -/
structure Utility where
  name : String
  run : Process → World → Report × World
  writeFailure : WriteFailure := { message := fun text => s!"{name}: write error: {text}\n" }

/-- the signal that a process gets which writes to a pipe that nobody can read -/
def brokenPipeSignal : Nat := 13

/-- the number of an output stream's descriptor -/
def descriptorOf : Output → Nat
  | .stdout => 1
  | .stderr => 2

/-- write what a report says -/
def perform (p : Process) (failure : WriteFailure) (status : Nat) : List (Output × Flow) → World → Exit × World
  | [], w => (.status status, w)
  | (o, f) :: rest, w =>
    match p.send (descriptorOf o) f w with
    | .ok w => perform p failure status rest w
    | .error e =>
      if e = Errno.brokenPipe then (.signal brokenPipeSignal, w)
      else match o with
        | .stderr => perform p failure status rest w
        | .stdout => (.status failure.status, p.complain (failure.message e.text) w)

/-- the program -/
def Utility.program (u : Utility) : Program := fun p w =>
  let (r, w) := u.run p w
  perform p u.writeFailure r.status r.writes w

/-! ## options -/

/-- what is wrong with a program's words -/
inductive UsageFault where
  | invalid (option : Char)
  | lacksValue (option : Char)
  | unrecognized (word : String)
  deriving DecidableEq, Repr

/-- the complaint about a program's words -/
def UsageFault.message (name : String) (f : UsageFault) : String :=
  let what := match f with
    | invalid c => s!"invalid option -- '{c}'"
    | lacksValue c => s!"option requires an argument -- '{c}'"
    | unrecognized w => s!"unrecognized option '{w}'"
  s!"{name}: {what}\nTry '{name} --help' for more information.\n"

/-- a program's options, each with its value, and its operands -/
structure Options where
  given : List (Char × String) := []
  operands : List String := []
  deriving DecidableEq, Repr

namespace Options

/-- is the option given? -/
def has (o : Options) (c : Char) : Bool := o.given.any (·.1 == c)

/-- the last value of an option -/
def value? (o : Options) (c : Char) : Option String := (o.given.reverse.find? (·.1 == c)).map (·.2)

/-- one more option in front -/
def add (o : Options) (c : Char) (value : String) : Options := { o with given := (c, value) :: o.given }

/-- which options a program has, and whether they may stand behind operands -/
structure Form where
  flags : List Char := []
  valued : List Char := []
  permute : Bool := true

/-- the options in one word: flags, and at the end perhaps an option with a value, which is the rest of the word or
still to come -/
def cluster (form : Form) : List Char → Except UsageFault (List (Char × String) × Option Char)
  | [] => .ok ([], none)
  | c :: rest =>
    if form.valued.contains c then
      .ok (if rest.isEmpty then ([], some c) else ([(c, String.ofList rest)], none))
    else if form.flags.contains c then (cluster form rest).map fun (given, open?) => ((c, "") :: given, open?)
    else .error (.invalid c)

/-- sort words into options and operands -/
def parse (form : Form) : List String → Except UsageFault Options
  | [] => .ok {}
  | arg :: rest =>
    match arg.toList with
    | ['-', '-'] => .ok { operands := rest }
    | '-' :: '-' :: _ => .error (.unrecognized arg)
    | '-' :: c :: cs =>
      match cluster form (c :: cs) with
      | .error f => .error f
      | .ok (given, none) => (parse form rest).map fun o => { o with given := given ++ o.given }
      | .ok (given, some v) =>
        match rest with
        | [] => .error (.lacksValue v)
        | value :: rest => (parse form rest).map fun o => { o with given := given ++ (v, value) :: o.given }
    | _ =>
      if form.permute then (parse form rest).map fun o => { o with operands := arg :: o.operands }
      else .ok { operands := arg :: rest }

end Options

/-- a program that reads its options first -/
def withOptions (name : String) (form : Options.Form) (usageStatus : Nat)
    (run : Options → Process → World → Report × World) : Process → World → Report × World :=
  fun p w => match Options.parse form p.args with
    | .error f => (.complaint (f.message name) usageStatus, w)
    | .ok o => run o p w

/-! ## operands -/

/-- what an operand gives -/
structure Input where
  /-- the operand; `-` is the program's input -/
  name : String
  /-- could it be opened? -/
  opened : Bool := true
  content : Except Errno Flow
  /-- its size, if it is a regular file -/
  size : Option Nat := none

/-- read the program's own input to its end -/
def readStdin (p : Process) (w : World) : Input × World :=
  let content := p.contents 0 w
  let size := ((p.table.target? 0).bind (·.regularFile? w)).map (·.length)
  ({ name := "-", content, size },
    match content with
    | .ok f => p.advance 0 f.bytes.length w
    | .error _ => w)

/-- read one operand to its end -/
def readOperand (p : Process) (name : String) (w : World) : Input × World :=
  if name = "-" then readStdin p w
  else match p.openRead name w with
    | .error e => ({ name, opened := false, content := .error e }, w)
    | .ok (s, w) => ({ name, content := s.contents w, size := (s.regularFile? w).map (·.length) }, w)

/-- read all operands, or the program's input if there are none -/
def readOperands (p : Process) (names : List String) (w : World) : List Input × World :=
  let names := if names.isEmpty then ["-"] else names
  let (inputs, w) := names.foldl (fun (inputs, w) name =>
    let (i, w) := readOperand p name w
    (inputs.push i, w)) ((#[] : Array Input), w)
  (inputs.toList, w)

/-! ## lines -/

/-- a text cut at its line ends: the lines that have one, and what stands behind the last -/
structure Lines where
  ended : Array Bytes := #[]
  rest : Array UInt8 := #[]

/-- the byte that ends a line -/
def newline : UInt8 := 10

/-- one more byte -/
def Lines.push (l : Lines) (b : UInt8) : Lines :=
  if b = newline then ⟨l.ended.push l.rest.toList, #[]⟩ else { l with rest := l.rest.push b }

/-- cut a text at its line ends -/
def Lines.ofBytes (bs : Bytes) : Lines := bs.foldl Lines.push {}

/-- the lines, one without an end counted too -/
def Lines.toList (l : Lines) : List Bytes :=
  if l.rest.isEmpty then l.ended.toList else (l.ended.push l.rest.toList).toList

/-- lines, each with an end, one behind the other -/
def joinLines (lines : List Bytes) : Bytes :=
  (lines.foldl (fun (out : Array UInt8) (line : Bytes) => (out ++ line).push newline) #[]).toList

end LineShell.Userland
