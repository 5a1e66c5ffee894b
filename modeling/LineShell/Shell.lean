/-
Running a line of text.

`Line.command` reads a line: a blank one holds no command, and a line that cannot be read is a failure. `Shell.run`
reads and evaluates it with a new engine, so that nothing but the world passes from one line to the next. A line that
cannot be read is reported and nothing else happens. `exit` either ends the host or ends the line with the status that
was asked for; which of the two is a setting.
-/
import LineShell.Engine

namespace LineShell

namespace Line

/-- the command on a line, if it is not blank -/
def command (line : String) : Except Failure (Option Tree) :=
  if line.utf8ByteSize > maxLineSize then .error (.parse ⟨.tooLarge line.utf8ByteSize, 0⟩)
  else match tokenize line with
    | .error e => .error (.lex e)
    | .ok ts =>
      if ts.all (·.kind == .endOfLine) then .ok none
      else match parse ts with
        | .error e => .error (.parse e)
        | .ok t => .ok (some t)

end Line

/-- how a line ended -/
inductive Ending where
  | returned (result : Except Failure Int)
  /-- the host ended with this status -/
  | terminated (status : Int)

namespace Ending

/-- the number that the line answers with: its status, or the code of its failure -/
def code : Ending → Int
  | returned (.ok status) => status
  | returned (.error f) => f.code
  | terminated status => status

/-- the failure that the line ended in -/
def failure? : Ending → Option Failure
  | returned (.error f) => some f
  | _ => none

end Ending

/-- what a line has left behind -/
structure Run (σ : Type) where
  ending : Ending
  io : Option Streams
  host : Host σ

/-- a shell: how it behaves, and what starts its processes -/
structure Shell (σ : Type) where
  backend : Backend σ
  settings : Settings := {}

namespace Shell

variable {σ : Type} (sh : Shell σ)

/-- the end of a line whose evaluation came to `r` -/
def ending (r : Except Failure Int) : Ending :=
  match r with
  | .error (.exit status) => if sh.settings.exitTerminates then .terminated status else .returned (.ok status)
  | r => .returned r

/-- run one line -/
def run (line : String) (io : Option Streams) (h : Host σ) : Run σ :=
  let e : Engine σ := { host := h, io := io.map (·.reset) }
  match Line.command line with
  | .error f => let e := e.report f; ⟨.returned (.error f), e.io, e.host⟩
  | .ok none => ⟨.returned (.ok 0), e.io, e.host⟩
  | .ok (some t) =>
    let (r, e) := Evaluation.execute ⟨sh.backend, line, sh.settings⟩ t {} e
    ⟨sh.ending r, e.io, e.host⟩

end Shell

end LineShell
