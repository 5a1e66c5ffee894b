/-
Carrying the streams of children while they run.

The shell reads the output and the errors of its children and writes the payload to their input, all at once: a poll
tells which of the open ends are ready, and each of those is then read or written once. An end is closed when its stream
has ended, and the input as soon as its last byte is written, so that the reader sees the end of it. Carrying is done
when nothing is open any more.

A schedule says how the polls, reads and writes turn out. `Carrying.poll` is one poll, `Carrying.run` a whole schedule;
of a schedule that stops early `run` says that the shell is still waiting.
-/
import LineShell.Backend

namespace LineShell

/-- the outcome of reading an end that is ready -/
inductive Reading where
  /-- some bytes, at least one -/
  | chunk (bytes : Bytes)
  /-- nothing this time: interrupted, or not ready after all -/
  | again
  | ended
  | failed (fault : IoFault)
  deriving DecidableEq, Repr

/-- the outcome of writing to an end that is ready -/
inductive Writing where
  /-- the first `count` of the pending bytes were taken -/
  | accepted (count : Nat)
  | again
  /-- nobody reads the other end any more -/
  | closed
  | failed (fault : IoFault)
  deriving DecidableEq, Repr

/-- the outcome of one poll, with the outcome of reading or writing each end that it found ready -/
inductive Poll where
  | interrupted
  | failed (fault : IoFault)
  | ready (stdout stderr : Option Reading) (stdin : Option Writing)
  deriving DecidableEq, Repr

/-- which ends are open, and what has been carried -/
structure Carrying where
  stdoutOpen : Bool := true
  stderrOpen : Bool := true
  /-- the payload still to be written, while the input is open -/
  pending : Option Bytes := none
  /-- the chunks read so far, newest first -/
  chunks : List (Output × Bytes) := []
  /-- the bytes written so far -/
  written : Bytes := []
  deriving DecidableEq, Repr

namespace Carrying

/-- the start: the input is open if there are a payload and a writer for it -/
def start (hasWriter : Bool) (payload : Option Bytes) : Carrying :=
  { pending := payload.filter fun bytes => hasWriter && !bytes.isEmpty }

/-- is everything closed? -/
def isDone (c : Carrying) : Bool := !c.stdoutOpen && !c.stderrOpen && c.pending.isNone

/-- is an end for output open? -/
def isOpen (c : Carrying) : Output → Bool
  | .stdout => c.stdoutOpen
  | .stderr => c.stderrOpen

/-- close an end for output -/
def close (c : Carrying) : Output → Carrying
  | .stdout => { c with stdoutOpen := false }
  | .stderr => { c with stderrOpen := false }

/-- read an end once, if it is open and ready -/
def read (c : Carrying) (o : Output) (r : Option Reading) : Carrying × Option Failure :=
  if c.isOpen o then
    match r with
    | none | some .again => (c, none)
    | some (.chunk bytes) => ({ c with chunks := (o, bytes) :: c.chunks }, none)
    | some .ended => (c.close o, none)
    | some (.failed fault) => (c, some (.read fault))
  else (c, none)

/-- write once, if the input is open and ready -/
def write (c : Carrying) (r : Option Writing) : Carrying × Option Failure :=
  match c.pending with
  | none => (c, none)
  | some bytes =>
    match r with
    | none | some .again => (c, none)
    | some (.accepted n) =>
      let rest := bytes.drop n
      ({ c with written := c.written ++ bytes.take n, pending := if rest.isEmpty then none else some rest }, none)
    | some .closed => ({ c with pending := none }, none)
    | some (.failed fault) => (c, some (.io fault))

/-- one poll, and the reads and writes that it allows, up to the first that fails -/
def poll (c : Carrying) : Poll → Carrying × Option Failure
  | .interrupted => (c, none)
  | .failed fault => (c, some (.read fault))
  | .ready out err input =>
    match c.read .stdout out with
    | (c, some f) => (c, some f)
    | (c, none) =>
      match c.read .stderr err with
      | (c, some f) => (c, some f)
      | (c, none) => c.write input

/-- how a schedule ended -/
inductive Ending where
  | finished
  | failed (failure : Failure)
  | waiting
  deriving DecidableEq, Repr

/-- follow a schedule; what was carried before a failure stays carried -/
def run (c : Carrying) (schedule : List Poll) : Carrying × Ending :=
  if c.isDone then (c, .finished)
  else match schedule with
    | [] => (c, .waiting)
    | p :: rest =>
      match c.poll p with
      | (c, none) => run c rest
      | (c, some f) => (c, .failed f)

/-- what has been read, oldest first, and how it ended -/
def drained (r : Carrying × Ending) : Drained where
  chunks := r.1.chunks.reverse
  result := match r.2 with
    | .failed f => .error f
    | _ => .ok ()

end Carrying

end LineShell
