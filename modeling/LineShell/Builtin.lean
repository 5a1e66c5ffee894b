/-
The commands that the shell runs itself.

`cd` changes the working directory, which is the host's own; `pwd` tells it; `exit` asks the shell to stop. A builtin
gives back its status, the texts it writes, and the world after it. `dispatch` sends what it writes to a file if the
command's output is one; the rest is for the caller's streams.

- `cd` goes to a directory or leaves everything as it is: it looks first, and only then changes.
- `exit` takes a decimal number modulo 256, and status 2 with a complaint for anything else.
- `pwd` accepts `-P` and `-L` and makes no difference between them, since the working directory is known as a
  directory and not by the path that led to it.
-/
import LineShell.World

namespace LineShell

/-- the builtins -/
inductive Builtin where
  | cd
  | exit
  | pwd
  deriving DecidableEq, Repr

namespace Builtin

/-- the builtin of a name -/
def ofName? : String → Option Builtin
  | "cd" => some cd
  | "exit" => some exit
  | "pwd" => some pwd
  | _ => none

/-- the name of a builtin -/
def name : Builtin → String
  | cd => "cd"
  | exit => "exit"
  | pwd => "pwd"

theorem ofName?_name (b : Builtin) : ofName? b.name = some b := by cases b <;> rfl

/-- what a builtin has done -/
structure Effect where
  status : Int
  out : String := ""
  err : String := ""
  world : World

/-! ## cd -/

/-- the home directory: the configured one, else the first of two variables that is set and not empty -/
def homeDirectory (home : Option String) (w : World) : Option String :=
  match home with
  | some h => some h
  | none => (["HOME", "USERPROFILE"].filterMap w.getEnv?).find? (!·.isEmpty)

/-- where `cd` is to go; `none` if that needs a home directory and there is none -/
def cdTarget (arg : Option String) (home : Option String) (w : World) : Option String :=
  match arg with
  | none => homeDirectory home w
  | some "~" => homeDirectory home w
  | some dir =>
    match dir.toList with
    | '~' :: '/' :: rest => (homeDirectory home w).map fun h => Path.join h (String.ofList rest)
    | _ => some dir

/-- `cd` has failed, with a complaint -/
def cdRefused (w : World) (complaint : String) : Effect :=
  { status := 1, err := s!"embsh: cd: {complaint}\n", world := w }

/-- change to the directory at a path -/
def cdTo (target : String) (w : World) : Effect :=
  match w.resolve target with
  | .error _ => cdRefused w s!"{target}: No such file or directory"
  | .ok i =>
    if w.files.isDir i then
      match w.changeDirectory target with
      | .ok w' => { status := 0, world := w' }
      | .error f => cdRefused w s!"{target}: {f.message}"
    else cdRefused w s!"{target}: Not a directory"

theorem cdTo_out (target : String) (w : World) : (cdTo target w).out = "" := by
  unfold cdTo
  split
  · rfl
  · split
    · split <;> rfl
    · rfl

def runCd (args : List String) (home : Option String) (w : World) : Effect :=
  if args.length > 1 then cdRefused w "too many arguments"
  else match cdTarget args.head? home w with
    | none => cdRefused w "HOME not set"
    | some target => cdTo target w

/-! ## exit -/

/-- the number that a non-empty run of ASCII digits denotes -/
def digits? (cs : List Char) : Option Nat :=
  if cs.isEmpty || !cs.all Char.isDigit then none
  else some (cs.foldl (fun n c => 10 * n + (c.toNat - '0'.toNat)) 0)

/-- the bound of the 64-bit signed numbers, 2 to the power of 63 -/
def statusBound : Int := 9223372036854775808

/-- the 64-bit signed number that a decimal text denotes, a single minus sign allowed in front -/
def statusNumber? (arg : String) : Option Int :=
  let n? : Option Int := match arg.toList with
    | '-' :: cs => (digits? cs).map fun n => -(n : Int)
    | cs => (digits? cs).map fun n => (n : Int)
  n?.filter fun n => -statusBound ≤ n ∧ n < statusBound

def runExit (args : List String) (lastStatus : Int) (w : World) : Effect :=
  match args with
  | [] => { status := lastStatus, world := w }
  | arg :: _ =>
    match statusNumber? arg with
    | some n => { status := n % 256, world := w }
    | none => { status := 2, err := s!"embsh: exit: {arg}: numeric argument required\n", world := w }

/-! ## pwd -/

def runPwd (w : World) : Effect :=
  match w.workingDirectory with
  | .ok path => { status := 0, out := path ++ "\n", world := w }
  | .error f => { status := 1, err := s!"embsh: pwd: {f.message}\n", world := w }

/-! ## all of them -/

/-- run a builtin -/
def run (b : Builtin) (args : List String) (lastStatus : Int) (home : Option String) (w : World) : Effect :=
  match b with
  | cd => runCd args home w
  | exit => runExit args lastStatus w
  | pwd => runPwd w

/-- what came of a builtin whose output has been sent on its way; `chunks` are left for the caller's streams -/
structure Outcome where
  result : Except IoFault Int
  chunks : List (Output × Bytes)
  world : World

/-- run a builtin whose output is the file or pipe `output`, if there is one -/
def dispatch (b : Builtin) (args : List String) (lastStatus : Int) (home : Option String)
    (output : Option Descriptor) (w : World) : Outcome :=
  let e := b.run args lastStatus home w
  match output with
  | none => ⟨.ok e.status, [(.stdout, Text.bytes e.out), (.stderr, Text.bytes e.err)], e.world⟩
  | some d =>
    if e.out.isEmpty then ⟨.ok e.status, [(.stderr, Text.bytes e.err)], e.world⟩
    else match e.world.write d (Text.bytes e.out) with
      | .ok w' => ⟨.ok e.status, [(.stderr, Text.bytes e.err)], w'⟩
      | .error n => ⟨.error (.system n), [], e.world⟩

end Builtin

end LineShell
