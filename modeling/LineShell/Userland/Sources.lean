/-
Programs that read nothing: `echo`, `yes`, `true`, `false`, `seq`, `sleep`, `pwd`.
-/
import LineShell.Userland.Escapes
import LineShell.Userland.Report

namespace LineShell.Userland

/-! ## echo and yes -/

/-- how `echo` writes its words -/
structure EchoMode where
  newline : Bool := true
  escapes : Bool := false
  deriving DecidableEq, Repr

/-- the mode after one option word, if the word is one -/
def echoOption? (m : EchoMode) (arg : String) : Option EchoMode :=
  match arg.toList with
  | '-' :: c :: cs => (c :: cs).foldlM (fun (m : EchoMode) c => match c with
    | 'n' => some { m with newline := false }
    | 'e' => some { m with escapes := true }
    | 'E' => some { m with escapes := false }
    | _ => none) m
  | _ => none

/-- the option words in front, and the words behind them -/
def echoOptions (m : EchoMode) : List String → EchoMode × List String
  | [] => (m, [])
  | arg :: rest =>
    match echoOption? m arg with
    | some m => echoOptions m rest
    | none => (m, arg :: rest)

/-- what `echo` writes in a mode -/
def echoBytes (m : EchoMode) (form : OctalForm) (words : List String) : Bytes :=
  let line := " ".intercalate words
  let (bytes, stopped) := if m.escapes then unescape form line else (Text.bytes line, false)
  if m.newline && !stopped then bytes ++ [newline] else bytes

def echo : Utility where
  name := "echo"
  run p w :=
    let (m, words) := echoOptions {} p.args
    (.ofBytes (echoBytes m .behindZero words), w)

def yes : Utility where
  name := "yes"
  run p w :=
    let words := if p.args.isEmpty then ["y"] else p.args
    (.ofFlow (.repeating (Text.bytes (" ".intercalate words ++ "\n"))), w)
  writeFailure := { message := fun text => s!"yes: standard output: {text}\n" }

/-! ## true, false, sleep, pwd -/

def always (name : String) (status : Nat) : Utility where
  name
  run _ w := ({ status }, w)

/-- is the word a length of time: a decimal number and perhaps a unit? -/
def isInterval (s : String) : Bool :=
  let cs := s.toList
  let cs := if (cs.getLast?.map ['s', 'm', 'h', 'd'].contains).getD false then cs.dropLast else cs
  let whole := cs.takeWhile Char.isDigit
  match cs.dropWhile Char.isDigit with
  | [] => !whole.isEmpty
  | '.' :: fraction => fraction.all Char.isDigit && !(whole.isEmpty && fraction.isEmpty)
  | _ => false

/-- no time passes for the one who waits -/
def sleep : Utility where
  name := "sleep"
  run p w :=
    let hint := "Try 'sleep --help' for more information.\n"
    if p.args.isEmpty then (.complaint s!"sleep: missing operand\n{hint}" 1, w)
    else match p.args.find? (!isInterval ·) with
      | some bad => (.complaint s!"sleep: invalid time interval '{bad}'\n{hint}" 1, w)
      | none => ({}, w)

def printWorkingDirectory : Utility where
  name := "pwd"
  run _ w :=
    match w.workingDirectory with
    | .ok path => (.ofText s!"{path}\n", w)
    | .error _ =>
      (.complaint s!"pwd: couldn't find directory entry in '..' with matching i-node\n" 1, w)

/-! ## seq -/

/-- the numbers from `first` on, `step` apart, `count` of them -/
def progression (first step : Int) (count : Nat) : List Int := (List.range count).map fun (k : Nat) => first + step * k

/-- how many numbers there are from `first` to `last` -/
def progressionLength (first step last : Int) : Nat :=
  if step > 0 then (if last < first then 0 else ((last - first) / step).toNat + 1)
  else if step < 0 then (if last > first then 0 else ((first - last) / (-step)).toNat + 1)
  else 0

/-- a number, with a plus sign allowed -/
def integer? (s : String) : Option Int :=
  match s.toList with
  | '+' :: c :: cs => if c.isDigit then (String.ofList (c :: cs)).toInt? else none
  | _ => if s.contains '_' then none else s.toInt?

/-- numbers as text, one separator between two of them and a line end behind the last -/
def seqBytes (separator : String) (ns : List Int) : Bytes :=
  match ns with
  | [] => []
  | n :: rest =>
    let sep := Text.bytes separator
    ((rest.foldl (fun (out : Array UInt8) m => out ++ sep ++ Text.bytes (toString m))
      (Text.bytes (toString n)).toArray).push newline).toList

/-- the separator and the numbers among the words of `seq` -/
def seqOptions : List String → String × List String
  | "-s" :: separator :: rest => (separator, rest)
  | rest => ("\n", rest)

def seq : Utility where
  name := "seq"
  run p w :=
    let (separator, args) := seqOptions p.args
    let hint := "Try 'seq --help' for more information.\n"
    match args.find? (integer? · |>.isNone) with
    | some bad => (.complaint s!"seq: invalid floating point argument: '{bad}'\n{hint}" 1, w)
    | none =>
      let run (first step last : Int) : Report × World :=
        if step = 0 then (.complaint s!"seq: invalid Zero increment value: '0'\n{hint}" 1, w)
        else (.ofBytes (seqBytes separator (progression first step (progressionLength first step last))), w)
      match args.filterMap integer? with
      | [] => (.complaint s!"seq: missing operand\n{hint}" 1, w)
      | [last] => run 1 1 last
      | [first, last] => run first 1 last
      | [first, step, last] => run first step last
      | _ :: _ :: _ :: extra :: _ => (.complaint s!"seq: extra operand '{extra}'\n{hint}" 1, w)

end LineShell.Userland
