/-
What can go wrong, and how it is told.

`IoFault` is what a system call or a stream reports, `Failure` is what a command line ends with instead of a status.
`exit` is a failure of its own kind: it stops the evaluation, is never reported, and its code is the status that was
asked for. Every other failure has one of six negative codes, so that no status of a program can be taken for one.
-/
import LineShell.Errno
import LineShell.Line.Parser

namespace LineShell

/-- why an operation on a file, a stream or a process failed -/
inductive IoFault where
  | system (errno : Errno)
  /-- a path with a NUL byte in it -/
  | nulInPath
  /-- a program's argument with a NUL byte at `position` -/
  | nulInArgument (position : Nat)
  /-- a command without a command word -/
  | emptyCommand
  /-- a writer that accepts nothing more -/
  | writerFull
  /-- bytes that should be text and are not -/
  | notText
  /-- a reason in the host's own words -/
  | custom (text : String)
  deriving DecidableEq, Repr

/-- the wording of a fault -/
def IoFault.message : IoFault → String
  | system n => n.message
  | nulInPath => "file name contained an unexpected NUL byte"
  | nulInArgument i => s!"nul byte found in provided data at position: {i}"
  | emptyCommand => "empty command"
  | writerFull => "failed to write whole buffer"
  | notText => "stream did not contain valid UTF-8"
  | custom text => text

/-- why a command line has no status -/
inductive Failure where
  | lex (error : LexError)
  | parse (error : ParseError)
  | redirect (path : String) (fault : IoFault)
  | pipe (fault : IoFault)
  | spawn (program : String) (fault : IoFault)
  | read (fault : IoFault)
  | wait (fault : IoFault)
  | io (fault : IoFault)
  /-- the shell was asked to stop with this status -/
  | exit (status : Int)
  deriving DecidableEq, Repr

/-- the codes of failures -/
inductive ErrorCode where
  | generic
  | tokenize
  | parse
  | pipe
  | fork
  | read
  deriving DecidableEq, Repr

/-- the negative number of a code -/
def ErrorCode.toInt : ErrorCode → Int
  | generic => -1
  | tokenize => -2
  | parse => -3
  | pipe => -4
  | fork => -5
  | read => -6

namespace Failure

/-- the diagnostic of a failure -/
def message : Failure → String
  | lex e => s!"syntax error: {e.message}"
  | parse e => s!"syntax error: {e.message}"
  | redirect path f => s!"{path}: {f.message}"
  | pipe f => s!"cannot create pipe: {f.message}"
  | spawn program f => s!"{program}: cannot start process: {f.message}"
  | read f => s!"cannot read child output: {f.message}"
  | wait f => s!"cannot wait for child: {f.message}"
  | io f => f.message
  | exit n => s!"exit {n}"

/-- the error code, which `exit` has none of -/
def errorCode? : Failure → Option ErrorCode
  | lex _ => some .tokenize
  | parse _ => some .parse
  | redirect _ _ => some .generic
  | pipe _ => some .pipe
  | spawn _ _ => some .fork
  | read _ => some .read
  | wait _ => some .generic
  | io _ => some .generic
  | exit _ => none

/-- the number that a call ending in this failure answers with -/
def code : Failure → Int
  | exit n => n
  | f => (f.errorCode?.getD .generic).toInt

/-- was the shell asked to stop? -/
def isExit : Failure → Bool
  | exit _ => true
  | _ => false

/-- the line that reports a failure -/
def report (f : Failure) : String := s!"embsh: {f.message}\n"

end Failure

end LineShell
