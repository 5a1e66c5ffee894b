/-
All programs by name, and what starts them.

Most programs only read and write. Two start others: `env`, with a changed environment, and the shell. A program that is
started may be a file that another program has to run, and so on; such a chain is followed at most `launchFuel` times,
which is more than any real one needs.
-/
import LineShell.Child.Exec
import LineShell.Userland.Edit
import LineShell.Userland.Filters
import LineShell.Userland.Interpreter
import LineShell.Userland.Printf
import LineShell.Userland.Sources

namespace LineShell.Userland

/-- `test` and `[` as programs of their own -/
def testProgram (name : String) : Utility where
  name
  run p w :=
    let words? := if name = "[" then (if p.args.getLast? = some "]" then some p.args.dropLast else none)
      else some p.args
    match words? with
    | none => (.complaint s!"{name}: missing ']'\n" 2, w)
    | some words =>
      match Condition.eval w words with
      | .ok b => ({ status := if b then 0 else 1 }, w)
      | .error text => (.complaint s!"{name}: {text}\n" 2, w)

/-- the programs that start no others -/
def utilities : List Utility :=
  [cat, echo, always "false" 1, head, printf, printWorkingDirectory, sed, seq, sleep, sort, tail, testProgram "test",
    testProgram "[", tr, always "true" 0, wc, yes]

/-! ## env -/

/-- the environment that `env` makes, and the command behind it -/
structure EnvRequest where
  env : List (String × String)
  command : List String := []

/-- give a variable a value, behind all others unless it is there already -/
def setVariable (env : List (String × String)) (name value : String) : List (String × String) :=
  if env.any (·.1 == name) then env.map fun (n, v) => (n, if n = name then value else v) else env ++ [(name, value)]

/-- the settings in front of the command -/
def envSettings (env : List (String × String)) : List String → EnvRequest
  | [] => { env }
  | arg :: rest =>
    if arg.contains '=' then
      let name := String.ofList (arg.toList.takeWhile (· != '='))
      envSettings (setVariable env name (String.ofList (arg.toList.drop (name.length + 1)))) rest
    else { env, command := arg :: rest }

/-- the environment after the options of `env` -/
def envOptions (o : Options) (env : List (String × String)) : List (String × String) :=
  o.given.foldl (fun env (c, v) => if c = 'i' then [] else if c = 'u' then env.filter (·.1 != v) else env) env

/-- run another program with a changed environment, or show the environment -/
def runEnv (execute : Execute) : Program := fun p w =>
  let failure : WriteFailure := { message := fun text => s!"env: write error: {text}\n", status := 125 }
  let args := p.args.map fun a => if a = "-" then "-i" else a
  match Options.parse { flags := ['i'], valued := ['u'], permute := false } args with
  | .error f => (.status 125, p.complain (f.message "env") w)
  | .ok o =>
    let r := envSettings (envOptions o w.env) o.operands
    match r.command with
    | [] =>
      let text := String.join (r.env.map fun (n, v) => s!"{n}={v}\n")
      perform p failure 0 [(.stdout, .ofBytes (Text.bytes text))] w
    | name :: _ =>
      match execute { p with argv := r.command } { w with env := r.env } with
      | .ok result => result
      | .error e =>
        (.status (if e = Errno.noEntry then 127 else 126), p.complain s!"env: '{name}': {e.text}\n" w)

/-! ## starting programs -/

/-- the program of a name -/
def programOf (execute : Execute) (name : String) : Program :=
  match name with
  | "sh" => runShell execute
  | "env" => runEnv execute
  | name =>
    match utilities.find? (·.name == name) with
    | some u => u.program
    | none => fun _ w => (.status 0, w)

/-- the path of the shell that runs scripts without a mark -/
def defaultShell : String := "/bin/sh"

/-- start the program that a process's words name, and run it to its end -/
def executeWithin : (fuel : Nat) → Execute
  | 0, _, _ => .error .tooManyLinks
  | fuel + 1, p, w =>
    match Exec.find w p.argv with
    | .error e => .error e
    | .ok found =>
      match found.image with
      | .program name => .ok (programOf (executeWithin fuel) name p w)
      | .script words => executeWithin fuel { p with argv := words ++ found.path :: p.args } w
      | .unmarked => executeWithin fuel { p with argv := defaultShell :: found.path :: p.args } w

/-- how long a chain of programs that start one another may get -/
def launchFuel : Nat := 1000

/-- start the program that a process's words name, and run it to its end -/
def execute : Execute := executeWithin launchFuel

end LineShell.Userland
