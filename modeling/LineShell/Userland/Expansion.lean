/-
The words that a script's words stand for.

A fragment of a word comes to text that is kept together, to text that is cut at blanks, or to a boundary between two
words. From these the words are put together: text without a boundary or a blank between is one word, and quoted text
makes a word even if it is empty.
-/
import LineShell.Userland.Arithmetic
import LineShell.Userland.Report

namespace LineShell.Userland

/-- a running script, as far as it is not a matter of the world -/
structure ScriptState where
  /-- the name that the shell was called by -/
  name : String
  pid : Pid
  params : List String := []
  bindings : List (String × String) := []
  /-- the variables that are handed on to programs -/
  exported : List String := []
  status : Nat := 0
  /-- the signals that have no effect -/
  ignored : List Nat := []
  /-- what is done at a signal; number 0 is the end of the script -/
  traps : List (Nat × String) := []
  table : Table Stream

namespace ScriptState

/-- give a variable a value -/
def assign (s : ScriptState) (name value : String) : ScriptState :=
  { s with bindings := (name, value) :: s.bindings.filter (·.1 != name) }

/-- the value of a variable or of a special name, if it has one -/
def value? (s : ScriptState) (name : String) : Option String :=
  match name with
  | "?" => some (toString s.status)
  | "$" => some (toString s.pid)
  | "#" => some (toString s.params.length)
  | "0" => some s.name
  | "@" => some (" ".intercalate s.params)
  | "*" => some (" ".intercalate s.params)
  | "-" => some ""
  | "!" => none
  | name =>
    match name.toNat? with
    | some n => s.params[n - 1]?
    | none => s.bindings.lookup name

/-- the variables that programs get -/
def environment (s : ScriptState) : List (String × String) := s.bindings.filter fun (n, _) => s.exported.contains n

/-- the process that a program called by the script is -/
def process (s : ScriptState) (argv : List String) : Process := ⟨s.pid, argv, s.table⟩

/-- tell what has gone wrong -/
def complain (s : ScriptState) (text : String) (w : World) : World :=
  (s.process []).complain s!"{s.name}: 1: {text}\n" w

end ScriptState

/-- part of what a word stands for -/
inductive Part where
  | kept (s : String)
  | cut (s : String)
  | boundary
  deriving DecidableEq, Repr

/-- is the character a blank at which text is cut? -/
def isFieldBlank (c : Char) : Bool := c == ' ' || c == '\t' || c == '\n'

/-- words put together so far, and the word that is being put together -/
structure Fields where
  done : Array String := #[]
  current : Option String := none

namespace Fields

/-- end the word that is being put together -/
def finish (f : Fields) : Fields :=
  match f.current with
  | some s => ⟨f.done.push s, none⟩
  | none => f

/-- add text that is kept together -/
def keep (f : Fields) (s : String) : Fields := { f with current := some (f.current.getD "" ++ s) }

/-- add one part -/
def push (f : Fields) : Part → Fields
  | .kept s => f.keep s
  | .boundary => f.finish
  | .cut s => s.toList.foldl (fun f c => if isFieldBlank c then f.finish else f.keep c.toString) f

/-- the words of a list of parts -/
def ofParts (parts : List Part) : List String := (parts.foldl push {}).finish.done.toList

/-- the text of a list of parts, kept together -/
def join (parts : List Part) : String :=
  parts.foldl (fun text p => match p with
    | .kept s => text ++ s
    | .cut s => text ++ s
    | .boundary => text ++ " ") ""

end Fields

/-- what an expansion has come to -/
structure Expanded where
  parts : List Part
  /-- the status of the last script that ran for it -/
  status : Option Nat := none
  fault : Option String := none
  world : World

/-- what a script inside a word writes, and its status -/
abbrev Substitution := String → ScriptState → World → String × Nat × World

/-- a part that is kept together if it was quoted -/
def Part.ofText (quoted : Bool) (s : String) : Part := if quoted then .kept s else .cut s

/-- the parts that the script's own words come to, a boundary between two of them -/
def paramParts : List String → List Part
  | [] => []
  | [s] => [.kept s]
  | s :: rest => .kept s :: .boundary :: paramParts rest

/-- expand one fragment -/
def expandFragment (substitute : Substitution) (s : ScriptState) (w : World) : Fragment → Expanded
  | .text t _ => { parts := [.kept t], world := w }
  | .variable "@" _ true => { parts := paramParts s.params, world := w }
  | .variable name fallback quoted =>
    let value := match s.value? name, fallback with
      | some v, some f => if v.isEmpty then f else v
      | some v, none => v
      | none, f => f.getD ""
    { parts := [.ofText quoted value], world := w }
  | .output script quoted =>
    let (text, status, w) := substitute script s w
    { parts := [.ofText quoted text], status := some status, world := w }
  | .value expression quoted =>
    let value (name : String) : Int := ((s.value? name).bind String.toInt?).getD 0
    match Arithmetic.eval? value (String.ofList (expression.toList.filter fun c => !"$\x7b\x7d".contains c)) with
    | some n => { parts := [.ofText quoted (toString n)], world := w }
    | none => { parts := [], fault := some s!"arithmetic expression: expecting primary: \"{expression}\"", world := w }

/-- expand a word -/
def expandWord (substitute : Substitution) (s : ScriptState) (word : Word) (w : World) : Expanded :=
  word.foldl (fun e f =>
    let next := expandFragment substitute s e.world f
    { parts := e.parts ++ next.parts, status := next.status <|> e.status, fault := e.fault <|> next.fault,
      world := next.world }) { parts := [], world := w }

/-- expand words, a boundary behind each -/
def expandWords (substitute : Substitution) (s : ScriptState) (words : List Word) (w : World) : Expanded :=
  words.foldl (fun e word =>
    let next := expandWord substitute s word e.world
    { parts := e.parts ++ next.parts ++ [.boundary], status := next.status <|> e.status,
      fault := e.fault <|> next.fault, world := next.world }) { parts := [], world := w }

end LineShell.Userland
