/-
The command line of the shell as a program.

A line comes from `-c`, or stands by itself, or every line of standard input is one. Without capturing, children write
to the program's own streams and `exit` ends the program. With capturing, each line is run by itself, what it wrote is
passed on when it is done, and `exit` ends only its line; `--json` keeps everything for one report at the end.

The program's status is that of the last line; a line without one counts as 2.
-/
import LineShell.Backend.Local

namespace LineShell.CommandLine

/-! ## options -/

/-- the options -/
structure Options where
  command : Option String := none
  capture : Bool := false
  json : Bool := false
  stdin : Option String := none
  line : Option String := none
  deriving DecidableEq, Repr

/-- what words ask for -/
inductive Request where
  | run (o : Options)
  | version
  | help
  /-- the words are wrong -/
  | misuse
  deriving DecidableEq, Repr

/-- may a word be the value of an option that stands in front of it? -/
def isValue (word : String) : Bool :=
  match word.toList with
  | '-' :: _ :: _ => false
  | _ => true

/-- options in which the value of one is set, unless it is set already -/
def setCommand (o : Options) (value : String) : Option Options :=
  if o.command.isSome then none else some { o with command := some value }

def setStdin (o : Options) (value : String) : Option Options :=
  if o.stdin.isSome then none else some { o with stdin := some value }

def setLine (o : Options) (value : String) : Option Options :=
  if o.line.isSome then none else some { o with line := some value }

/-- the options once all words are read: a line comes from one place only -/
def complete (o : Options) : Request := if o.command.isSome && o.line.isSome then .misuse else .run o

/-- words that cannot be options -/
def operands (o : Options) : List String → Request
  | [] => complete o
  | word :: rest =>
    match setLine o word with
    | some o => operands o rest
    | none => .misuse

/-- read words, behind the options already read -/
def readFrom (o : Options) : List String → Request
  | [] => complete o
  | word :: rest =>
    match word with
    | "--" => operands o rest
    | "--help" => .help
    | "--version" => .version
    | "--capture" => if o.capture then .misuse else readFrom { o with capture := true } rest
    | "--json" => if o.json then .misuse else readFrom { o with json := true } rest
    | "--stdin" =>
      match rest with
      | [] => .misuse
      | value :: rest =>
        if isValue value then
          match setStdin o value with
          | some o => readFrom o rest
          | none => .misuse
        else .misuse
    | "-c" =>
      match rest with
      | [] => .misuse
      | value :: rest =>
        if isValue value then
          match setCommand o value with
          | some o => readFrom o rest
          | none => .misuse
        else .misuse
    | word =>
      match word.toList with
      | '-' :: 'h' :: _ => .help
      | '-' :: 'V' :: _ => .version
      | '-' :: 'c' :: cs =>
        let value := match cs with
          | '=' :: cs => cs
          | cs => cs
        match setCommand o (String.ofList value) with
        | some o => readFrom o rest
        | none => .misuse
      | '-' :: '-' :: 's' :: 't' :: 'd' :: 'i' :: 'n' :: '=' :: value =>
        match setStdin o (String.ofList value) with
        | some o => readFrom o rest
        | none => .misuse
      | '-' :: _ :: _ => .misuse
      | _ =>
        match setLine o word with
        | some o => readFrom o rest
        | none => .misuse

/-- what the words of a command line ask for -/
def read (args : List String) : Request := readFrom {} args

/-! ## running lines -/

/-- the lines of a text, without the line ends; a carriage return in front of one belongs to it -/
def splitLines (text : String) : List String :=
  let lines := text.splitOn "\n"
  let ended := lines.dropLast.map fun line => if line.endsWith "\r" then (line.dropEnd 1).toString else line
  ended ++ (lines.getLast?.filter (!·.isEmpty)).toList

/-- does running a line leave its output in buffers? -/
def Options.captures (o : Options) : Bool := o.capture || o.json || o.stdin.isSome

/-- the program while it runs -/
structure Progress (σ : Type) where
  host : Host σ
  status : Int := 0
  stdout : String := ""
  stderr : String := ""
  /-- has `exit` ended the program? -/
  ended : Bool := false

section

variable {σ : Type}

/-- write to one of the program's own streams, whatever becomes of it -/
def Progress.write (p : Progress σ) (out : Output) (bytes : Bytes) : Progress σ :=
  { p with host := (p.host.write out bytes).2 }

/-- pass on what a line has written -/
def passOn (o : Options) (io : Streams) (p : Progress σ) : Progress σ :=
  if o.json then
    { p with stdout := p.stdout ++ io.stdout.buffer.text, stderr := p.stderr ++ io.stderr.buffer.text }
  else (p.write .stdout io.stdout.buffer.bytes).write .stderr io.stderr.buffer.bytes

/-- run one line -/
def runLine (backend : Backend σ) (o : Options) (p : Progress σ) (line : String) : Progress σ :=
  if p.ended then p
  else
    let io : Option Streams := if o.captures then some { stdin := o.stdin.map Text.bytes } else none
    let r := ({ backend, settings := { exitTerminates := !o.captures } } : Shell σ).run line io p.host
    let p := { p with status := r.ending.code, host := r.host }
    match r.ending, r.io with
    | .terminated _, _ => { p with ended := true }
    | .returned _, some io => passOn o io p
    | .returned _, none => p

/-- the report of all lines -/
def report (p : Progress σ) : String :=
  let fields := [s!"\"stdout\":{Text.json p.stdout}", s!"\"stderr\":{Text.json p.stderr}", s!"\"exitCode\":{p.status}"]
  "\x7b" ++ ",".intercalate fields ++ "\x7d\n"

/-- run all lines -/
def runLines (backend : Backend σ) (o : Options) (lines : List String) (h : Host σ) : Progress σ :=
  let p := lines.foldl (runLine backend o) { host := h }
  if o.json && !p.ended then p.write .stdout (Text.bytes (report p)) else p

end

/-- the status of a program whose last line had the status or code `n` -/
def exitStatus (n : Int) : Nat := if n < 0 then 2 else (n % 256).toNat

/-! ## the program -/

/-- the answer to a question for the version -/
def versionText : String := "embsh 0.1.0\n"

/-- the answer to a question for help -/
def helpText : String := "Run one-line shell commands through the embsh interpreter

Usage: embsh [OPTIONS] [LINE]

Arguments:
  [LINE]  Command line to execute

Options:
  -c <COMMAND>        Execute the command line given as argument
      --capture       Capture child output and print it after each command
      --json          Output results as JSON (stdout, stderr, exitCode)
      --stdin <TEXT>  Feed TEXT to the first command's standard input (implies --capture)
  -h, --help          Print help
  -V, --version       Print version
"

/-- the complaint about wrong words -/
def usageText : String := "error: the arguments are not valid

Usage: embsh [OPTIONS] [LINE]

For more information, try '--help'.
"

/-- how the program ended -/
structure Result where
  status : Nat
  world : World

/-- end with a text on one of the program's streams -/
def endWith (status : Nat) (o : Output) (text : String) (w : World) : Result :=
  ⟨status, w.writeHost o (Text.bytes text)⟩

/-- run lines on the machine, and then the children that are still to run -/
def runHere (o : Options) (lines : List String) (w : World) : Result :=
  let p := runLines Local.backend o lines { world := w, state := {} }
  ⟨exitStatus p.status, (Local.settle p.host.state p.host.world).2⟩

/-- run the program. Standard input is `none` at a terminal; only without a line of its own does the program read it,
and all of it before the first line runs. -/
def run (args : List String) (stdin : Option Bytes) (w : World) : Result :=
  match read args with
  | .misuse => endWith 2 .stderr usageText w
  | .help => endWith 0 .stdout helpText w
  | .version => endWith 0 .stdout versionText w
  | .run o =>
    match o.command <|> o.line with
    | some line => runHere o [line] { w with hostIn := .ofBytes (stdin.getD []) }
    | none =>
      match stdin with
      | none =>
        endWith 1 .stderr
          "Error: No command provided. Use -c 'command', pass it as an argument, or pipe lines via stdin.\n" w
      | some bytes =>
        match Utf8.decode bytes with
        | .error _ => endWith 1 .stderr s!"Error: Cannot read stdin: {IoFault.notText.message}\n" w
        | .ok text => runHere o (splitLines text) w

end LineShell.CommandLine
