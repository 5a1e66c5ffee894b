/-
Running shell scripts: `sh`.

A command is run in the state of its script and in the world. It leaves a status in the state, and it may do more than
end: it may leave loops, or end the whole script. A list in parentheses, a stage of a pipeline and a script inside a
word have a shell of their own: what they change of the state, of the working directory and of the descriptors is gone
when they have ended.

The stages of a pipeline run one after the other, which makes no difference to what goes through it, since a pipe takes
everything that is written to it.

`execute` starts programs. It is given, so that the interpreter knows nothing of them.
-/
import LineShell.Userland.Condition
import LineShell.Userland.Expansion
import LineShell.Userland.Printf
import LineShell.Userland.Signals
import LineShell.Userland.Sources

namespace LineShell.Userland

/-- what starts a program and runs it to its end; it may be that there is none -/
abbrev Execute := Process → World → Except Errno (Exit × World)

/-- how a script goes on behind a command -/
inductive Progress where
  | going
  /-- leave so many loops, the last of them to go on with its next turn if `again` -/
  | leaving (levels : Nat) (again : Bool)
  | ended (e : Exit)
  deriving DecidableEq, Repr

/-- what running a command has come to -/
structure Ran where
  progress : Progress := .going
  state : ScriptState
  world : World

/-- what runs the commands inside a command -/
abbrev RunCommand := Command → ScriptState → World → Ran

namespace Ran

/-- a command that has ended with a status -/
def ofStatus (n : Nat) (s : ScriptState) (w : World) : Ran := { state := { s with status := n }, world := w }

/-- a complaint, and a status -/
def ofComplaint (text : String) (n : Nat) (s : ScriptState) (w : World) : Ran := .ofStatus n s (s.complain text w)

/-- a script that has ended -/
def ofExit (e : Exit) (s : ScriptState) (w : World) : Ran := { progress := .ended e, state := s, world := w }

/-- the status that a shell of its own ends with -/
def code (r : Ran) : Nat :=
  match r.progress with
  | .ended e => e.code
  | _ => r.state.status

/-- what a report comes to -/
def ofReport (failure : WriteFailure) (r : Report) (s : ScriptState) (w : World) : Ran :=
  match perform (s.process []) failure r.status r.writes w with
  | (.status n, w) => .ofStatus n s w
  | (.signal n, w) => .ofExit (.signal n) s w

end Ran

namespace ScriptState

/-- the state that a shell of its own starts with -/
def forked (s : ScriptState) : ScriptState := { s with traps := [] }

/-- make a descriptor refer to a stream -/
def redirected (s : ScriptState) (fd : Nat) (target : Stream) : ScriptState :=
  { s with table := s.table.put fd ⟨target, false⟩ }

end ScriptState

/-- the world behind a shell of its own: its working directory is not -/
def leaveShell (before after : World) : World := { after with cwd := before.cwd, env := before.env }

section
variable (run : RunCommand)

/-- run a text as a script -/
def runText (text : String) (s : ScriptState) (w : World) : Ran :=
  match readScriptText text with
  | .ok c => run c s w
  | .error f => .ofExit (.status 2) s (s.complain f.message w)

/-- a text without the line ends behind it -/
def trimLineEnds (s : String) : String := String.ofList (s.toList.reverse.dropWhile (· == '\n')).reverse

/-- run a script and take what it writes -/
def capture : Substitution := fun text s w =>
  let n := w.freshPipe
  let (pipe, w') := w.addPipe n
  let r := runText run text (s.forked.redirected 1 (.descriptor pipe.writer)) w'
  let written := ((r.world.contents (some pipe.reader)).toOption.getD {}).bytes
  (trimLineEnds (Utf8.lossy written), r.code,
    leaveShell w ((r.world.closeAll [pipe.reader, pipe.writer]).advance written.length (some pipe.reader)))

/-! ## redirections -/

/-- what is said of a file that cannot be opened -/
def openComplaint (path : String) (e : Errno) : String :=
  let reason := if e = Errno.noEntry then "No such file" else e.text
  s!"cannot open {path}: {reason}"

/-- what is said of a file that cannot be created -/
def createComplaint (path : String) (e : Errno) : String :=
  let reason := if e = Errno.noEntry then "Directory nonexistent" else e.text
  s!"cannot create {path}: {reason}"

/-- follow one redirection -/
def redirect (r : Redirection) (s : ScriptState) (w : World) : Except (String × World) (ScriptState × World) :=
  let e := expandWord (capture run) s r.target w
  let target := Fields.join e.parts
  let w := e.world
  let p := s.process []
  let opened (complaint : String → Errno → String) : Except Errno (Stream × World) →
      Except (String × World) (ScriptState × World)
    | .ok (stream, w) => .ok (s.redirected r.fd stream, w)
    | .error e => .error (complaint target e, w)
  match r.kind with
  | .input => opened openComplaint (p.openRead target w)
  | .output => opened createComplaint (p.openWrite target ⟨true, 0o666⟩ w)
  | .append => opened createComplaint ((p.openWrite target ⟨false, 0o666⟩ w).map fun (stream, w) =>
    (stream, match stream with
      | .descriptor d => w.seekEnd d
      | _ => w))
  | .duplicate =>
    if target = "-" then .ok ({ s with table := s.table.remove r.fd }, w)
    else match target.toNat?.bind s.table.target? with
      | some stream => .ok (s.redirected r.fd stream, w)
      | none => .error (s!"{target}: Bad file descriptor", w)

/-- follow redirections in order -/
def redirectAll : List Redirection → ScriptState → World → Except (String × World) (ScriptState × World)
  | [], s, w => .ok (s, w)
  | r :: rs, s, w =>
    match redirect run r s w with
    | .error e => .error e
    | .ok (s, w) => redirectAll rs s w

/-! ## builtins -/

/-- a signal that the script sends to itself -/
def signalled (n : Nat) (s : ScriptState) (w : World) : Ran :=
  if n = 0 then .ofStatus 0 s w
  else if Signals.unstoppable.contains n then .ofExit (.signal n) s w
  else if s.ignored.contains n then .ofStatus 0 s w
  else match s.traps.lookup n with
    | some action => runText run action s w
    | none => if Signals.harmless.contains n then .ofStatus 0 s w else .ofExit (.signal n) s w

/-- `kill`: the signal and the processes among the words -/
def killWords : List String → Option Nat × List String
  | "-s" :: name :: rest => (Signals.number? name, rest)
  | arg :: rest =>
    match arg.toList with
    | '-' :: c :: cs => (Signals.number? (String.ofList (c :: cs)), rest)
    | _ => (some Signals.term, arg :: rest)
  | [] => (some Signals.term, [])

def runKill (args : List String) (s : ScriptState) (w : World) : Ran :=
  match killWords args with
  | (none, _) => .ofComplaint ("kill: Illegal option " ++ args.head?.getD "") 2 s w
  | (some n, targets) =>
    if targets.contains (toString s.pid) then signalled run n { s with status := 0 } w
    else .ofComplaint "kill: No such process" 1 s w

/-- `trap`: what is to be done at a signal -/
def setTrap (action : String) (s : ScriptState) (n : Nat) : ScriptState :=
  let s := { s with ignored := s.ignored.filter (· != n), traps := s.traps.filter (·.1 != n) }
  if action = "-" then s
  else if action.isEmpty then { s with ignored := n :: s.ignored }
  else { s with traps := (n, action) :: s.traps }

/-- `cd`: to a directory, or home -/
def runCd (args : List String) (s : ScriptState) (w : World) : Ran :=
  match args.head? <|> s.value? "HOME" with
  | none => .ofStatus 0 s w
  | some dir =>
    match w.changeDirectory dir with
    | .ok w => .ofStatus 0 s w
    | .error _ => .ofComplaint s!"cd: can't cd to {dir}" 2 s w

/-- give the blank-separated parts of a line to variables; the last one gets all that is left -/
def assignFields : List String → List Char → ScriptState → ScriptState
  | [], _, s => s
  | [name], cs, s =>
    s.assign name (String.ofList ((cs.dropWhile isFieldBlank).reverse.dropWhile isFieldBlank).reverse)
  | name :: names, cs, s =>
    let cs := cs.dropWhile isFieldBlank
    let field := cs.takeWhile (!isFieldBlank ·)
    assignFields names (cs.drop field.length) (s.assign name (String.ofList field))

/-- `read`: one line, and not a byte more -/
def runRead (args : List String) (s : ScriptState) (w : World) : Ran :=
  let names := args.filter (!·.startsWith "-")
  let p := s.process []
  match p.contents 0 w with
  | .error _ => .ofStatus 1 (assignFields names [] s) w
  | .ok f =>
    let line := f.bytes.takeWhile (· != newline)
    let ended := line.length < f.bytes.length
    .ofStatus (if ended then 0 else 1) (assignFields names (Utf8.lossy line).toList s)
      (p.advance 0 (line.length + if ended then 1 else 0) w)

/-- `export`: hand variables on, with new values if they are given -/
def exportVariable (s : ScriptState) (arg : String) : ScriptState :=
  let name := String.ofList (arg.toList.takeWhile (· != '='))
  let s := if arg.contains '=' then s.assign name (String.ofList (arg.toList.drop (name.length + 1))) else s
  { s with exported := name :: s.exported }

/-- `test` and `[` -/
def runTest (name : String) (args : List String) (s : ScriptState) (w : World) : Ran :=
  let words? := if name = "[" then (if args.getLast? = some "]" then some args.dropLast else none) else some args
  match words? with
  | none => .ofComplaint "[: missing ]" 2 s w
  | some words =>
    match Condition.eval w words with
    | .ok b => .ofStatus (if b then 0 else 1) s w
    | .error text => .ofComplaint s!"{name}: {text}" 2 s w

/-- `exit`: with the status that a word asks for, or with the last one -/
def runExit (name : String) (args : List String) (s : ScriptState) (w : World) : Ran :=
  match args with
  | [] => .ofExit (.status s.status) s w
  | arg :: _ =>
    match arg.toNat? with
    | some n => .ofExit (.status (n % 256)) s w
    | none => .ofExit (.status 2) s (s.complain s!"{name}: Illegal number: {arg}" w)

/-- run a builtin, if the name is that of one -/
def runBuiltin? (name : String) (args : List String) (s : ScriptState) (w : World) : Option Ran :=
  let failure (name : String) : WriteFailure := { message := fun _ => s!"{s.name}: 1: {name}: {name}: I/O error\n" }
  match name with
  | ":" => some (.ofStatus 0 s w)
  | "true" => some (.ofStatus 0 s w)
  | "false" => some (.ofStatus 1 s w)
  | "echo" =>
    let (newline, words) := match args with
      | "-n" :: rest => (false, rest)
      | args => (true, args)
    some (.ofReport (failure "echo") (.ofBytes (echoBytes { newline, escapes := true } .behindZero words)) s w)
  | "printf" => some (.ofReport (failure "printf") (printfReport s!"{s.name}: 1: printf" args) s w)
  | "pwd" =>
    some (match w.workingDirectory with
      | .ok path => .ofReport (failure "pwd") (.ofText s!"{path}\n") s w
      | .error f => .ofComplaint s!"pwd: {f.message}" 1 s w)
  | "cd" => some (runCd args s w)
  | "exit" => some (runExit name args s w)
  | "return" => some (runExit name args s w)
  | "kill" => some (runKill run args s w)
  | "trap" =>
    some (match args with
      | action :: signals => .ofStatus 0 ((signals.filterMap Signals.number?).foldl (setTrap action) s) w
      | [] => .ofStatus 0 s w)
  | "read" => some (runRead args s w)
  | "export" => some (.ofStatus 0 (args.foldl exportVariable s) w)
  | "unset" =>
    some (.ofStatus 0 { s with bindings := s.bindings.filter fun (n, _) => !args.contains n } w)
  | "umask" => some (if args.isEmpty then .ofReport (failure "umask") (.ofText "0000\n") s w else .ofStatus 0 s w)
  | "shift" => some (.ofStatus 0 { s with params := s.params.drop ((args.head?.bind String.toNat?).getD 1) } w)
  | "set" =>
    some (.ofStatus 0 (match args with
      | "--" :: rest => { s with params := rest }
      | args => if (args.head?.map (·.startsWith "-")).getD true then s else { s with params := args }) w)
  | "wait" => some (.ofStatus 0 s w)
  | "eval" => some (runText run (" ".intercalate args) s w)
  | "test" => some (runTest "test" args s w)
  | "[" => some (runTest "[" args s w)
  | "break" => some { progress := .leaving ((args.head?.bind String.toNat?).getD 1) false, state := s, world := w }
  | "continue" => some { progress := .leaving ((args.head?.bind String.toNat?).getD 1) true, state := s, world := w }
  | _ => none

/-! ## simple commands -/

/-- run a program to its end -/
def runProgram (execute : Execute) (argv : List String) (env : List (String × String)) (s : ScriptState) (w : World) :
    Nat × World :=
  match execute (s.process argv) { w with env } with
  | .ok (e, after) => (e.code, leaveShell w after)
  | .error e =>
    let name := argv.head?.getD ""
    if e = Errno.noEntry then (127, s.complain s!"{name}: not found" w)
    else (126, s.complain s!"{name}: {e.text}" w)

/-- follow assignments in order -/
def assignAll (as : List (String × Word)) (s : ScriptState) (w : World) : ScriptState × World :=
  as.foldl (fun (s, w) (name, word) =>
    let e := expandWord (capture run) s word w
    (s.assign name (Fields.join e.parts), e.world)) (s, w)

/-- a builtin is over: descriptors and assigned variables are what they were before -/
def afterBuiltin (as : List (String × Word)) (before : ScriptState) (r : Ran) : Ran :=
  let kept := r.state.bindings.filter fun (n, _) => !as.any (·.1 == n)
  let restored := before.bindings.filter fun (n, _) => as.any (·.1 == n)
  { r with state := { r.state with
      table := before.table
      bindings := if as.isEmpty then r.state.bindings else restored ++ kept } }

/-- run a command with its words expanded -/
def runWords (execute : Execute) (as : List (String × Word)) (argv : List String) (rs : List Redirection)
    (s : ScriptState) (w : World) : Ran :=
  match redirectAll run rs s w with
  | .error (text, w) => .ofComplaint text 2 s w
  | .ok (inner, w) =>
    match argv with
    | [] => let (after, w) := assignAll run as s w; { state := after, world := w }
    | ["exec"] => .ofStatus 0 inner w
    | "exec" :: argv =>
      let (inner, w) := assignAll run as inner w
      let (n, w) := runProgram execute argv inner.environment inner w
      .ofExit (.status n) inner w
    | name :: args =>
      let (inner, w) := assignAll run as inner w
      match runBuiltin? run name args inner w with
      | some r => afterBuiltin as s r
      | none =>
        let env := inner.bindings.filter fun (n, _) => inner.exported.contains n || as.any (·.1 == n)
        let (n, w) := runProgram execute argv env inner w
        .ofStatus n s w

/-- run a simple command -/
def runSimple (execute : Execute) (as : List (String × Word)) (words : List Word) (rs : List Redirection)
    (s : ScriptState) (w : World) : Ran :=
  let e := expandWords (capture run) s words w
  match e.fault with
  | some text => .ofExit (.status 2) s (s.complain text e.world)
  | none =>
    let s := if words.isEmpty then { s with status := 0 } else s
    let s := match e.status with
      | some n => { s with status := n }
      | none => s
    runWords run execute as (Fields.ofParts e.parts) rs s e.world

/-! ## compound commands -/

/-- run a command in a shell of its own -/
def runForked (c : Command) (s inner : ScriptState) (w : World) : Ran :=
  let r := run c inner.forked w
  .ofStatus r.code s (leaveShell w r.world)

/-- run the stages of a pipeline -/
def runPipe (left right : Command) (s : ScriptState) (w : World) : Ran :=
  let n := w.freshPipe
  let (pipe, w) := w.addPipe n
  let l := runForked run left s (s.redirected 1 (.descriptor pipe.writer)) w
  let r := runForked run right s (s.redirected 0 (.descriptor pipe.reader)) (l.world.close pipe.writer)
  { r with world := r.world.close pipe.reader }

/-- behind a turn of a loop: does the loop go on, and if not, how does the script? -/
def afterTurn (p : Progress) : Option Progress :=
  match p with
  | .going => none
  | .leaving levels again =>
    if levels ≤ 1 then (if again then none else some .going) else some (.leaving (levels - 1) again)
  | .ended e => some (.ended e)

/-- run a command once for every value of a variable -/
def runEach (name : String) (body : Command) : List String → ScriptState → World → Ran
  | [], s, w => { state := s, world := w }
  | value :: rest, s, w =>
    let r := run body (s.assign name value) w
    match afterTurn r.progress with
    | none => runEach name body rest r.state r.world
    | some p => { r with progress := p }

end

/-- run a command, nested and repeated at most `fuel` times -/
def runCommand (execute : Execute) : (fuel : Nat) → RunCommand
  | 0, _, s, w => .ofExit (.status 2) s w
  | fuel + 1, c, s, w =>
    let run := runCommand execute fuel
    match c with
    | .nothing => { state := s, world := w }
    | .simple as words rs => runSimple run execute as words rs s w
    | .sequence left right =>
      let r := run left s w
      match r.progress with
      | .going => runCommand execute fuel right r.state r.world
      | _ => r
    | .both left right =>
      let r := run left s w
      if r.progress = .going ∧ r.state.status = 0 then run right r.state r.world else r
    | .either left right =>
      let r := run left s w
      if r.progress = .going ∧ r.state.status ≠ 0 then run right r.state r.world else r
    | .negation inner =>
      let r := run inner s w
      { r with state := { r.state with status := if r.state.status = 0 then 1 else 0 } }
    | .background inner => .ofStatus 0 s (runForked run inner s s w).world
    | .pipe left right => runPipe run left right s w
    | .grouped forked body rs =>
      match redirectAll run rs s w with
      | .error (text, w) => .ofComplaint text 2 s w
      | .ok (inner, w) =>
        if forked then runForked run body s inner w
        else
          let r := run body inner w
          { r with state := { r.state with table := s.table } }
    | .conditional test yes no =>
      let r := run test s w
      match r.progress with
      | .going =>
        if r.state.status = 0 then run yes r.state r.world else run no { r.state with status := 0 } r.world
      | _ => r
    | .repetition untilHolds test body =>
      let t := run test s w
      match t.progress with
      | .going =>
        if (t.state.status == 0) == untilHolds then { t with state := { t.state with status := 0 } }
        else
          let r := run body t.state t.world
          match afterTurn r.progress with
          | none => runCommand execute fuel (.repetition untilHolds test body) r.state r.world
          | some p => { r with progress := p }
      | _ => t
    | .iteration name words body =>
      let e := expandWords (capture run) s words w
      runEach run name body (Fields.ofParts e.parts) s e.world

/-- the most steps of one script -/
def scriptFuel : Nat := 1000000

/-- run a script to its end, and what it has asked for to be done at its end -/
def runScript (execute : Execute) (text : String) (s : ScriptState) (w : World) : Exit × World :=
  let run := runCommand execute scriptFuel
  let r := runText run text s w
  let e := match r.progress with
    | .ended e => e
    | _ => .status r.state.status
  match e, r.state.traps.lookup 0 with
  | .status n, some action =>
    let last := runText run action { r.state with status := n, traps := [] } r.world
    (match last.progress with
      | .ended e => e
      | _ => .status n, last.world)
  | e, _ => (e, r.world)

/-- what a shell is called with -/
inductive Invocation where
  | command (text name : String) (params : List String)
  | file (path : String) (params : List String)
  | input (params : List String)
  | faulty (complaint : String)

/-- the invocation that words mean; `asCommand` says that the next one is the script itself -/
def Invocation.ofWords (name : String) (asCommand : Bool) : List String → Invocation
  | [] => if asCommand then .faulty "0: -c requires an argument" else .input []
  | arg :: rest =>
    match arg.toList with
    | '-' :: c :: cs =>
      if (c :: cs).contains 's' then .input rest
      else ofWords name (asCommand || (c :: cs).contains 'c') rest
    | _ =>
      if asCommand then .command arg (rest.head?.getD name) rest.tail
      else .file arg rest

/-- the state that a script starts with -/
def startState (p : Process) (w : World) (name : String) (params : List String) : ScriptState :=
  { name, pid := p.pid, params, bindings := w.env, exported := w.env.map (·.1), table := p.table }

/-- the shell -/
def runShell (execute : Execute) : Program := fun p w =>
  match Invocation.ofWords p.program false p.args with
  | .command text name params => runScript execute text (startState p w name params) w
  | .file path params =>
    match p.openRead path w with
    | .error e => (.status 2, p.complain s!"{p.program}: 0: {openComplaint path e}\n" w)
    | .ok (stream, w) =>
      let text := Utf8.lossy ((stream.contents w).toOption.getD {}).bytes
      runScript execute text (startState p w path params) w
  | .input params =>
    match p.contents 0 w with
    | .error _ => (.status 0, w)
    | .ok f =>
      runScript execute (Utf8.lossy f.bytes) (startState p w p.program params) (p.advance 0 f.bytes.length w)
  | .faulty text => (.status 2, p.complain s!"{p.program}: {text}\n" w)

end LineShell.Userland
