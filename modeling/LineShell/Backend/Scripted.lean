/-
A backend whose programs are scripts.

Instead of starting a process, this backend looks up what the program is going to do: what it copies, what it writes,
with which status it ends, or with which failure it cannot be started or waited for. A started program is queued, and
the queue is run in order whenever the shell waits for something. So a whole evaluation is determined by the scripts,
and any call can be made to fail.

- A program holds the ends of the pipes that it was given until it has run.
- Writes that nobody can read and reads that fail are ignored.
-/
import LineShell.Backend

namespace LineShell.Scripted

/-- what a program does -/
structure Script where
  status : Int := 0
  out : Bytes := []
  err : Bytes := []
  /-- does it first copy its input to its output? -/
  copies : Bool := false
  spawnFault : Option Failure := none
  waitFault : Option Failure := none

/-- the failure of the call number `turn`, counted from 1 -/
structure Refusal where
  turn : Nat
  failure : Failure

/-- a program that was started and has not run yet -/
structure Queued where
  request : SpawnRequest
  script : Script

/-- the backend: the scripts by program, the calls that are to fail, and what has happened so far -/
structure State where
  scripts : List (String × Script) := []
  pipeRefusal : Option Refusal := none
  drainRefusal : Option Refusal := none
  pipes : Nat := 0
  drains : Nat := 0
  /-- how many programs were started -/
  spawns : Nat := 0
  /-- the scripts of the programs that were started -/
  started : List (Pid × Script) := []
  /-- the programs that have not run yet, newest first -/
  queue : List Queued := []

/-- the process number of the first program -/
def firstPid : Pid := 1001

/-- the failure that a call of this turn is to have -/
def refused (r : Option Refusal) (turn : Nat) : Option Failure :=
  (r.filter (·.turn == turn)).map (·.failure)

/-- the script of a program; one that has none does nothing -/
def State.script (s : State) (program : String) : Script := (s.scripts.lookup program).getD {}

/-- the streams that a request sets -/
def held (r : SpawnRequest) : List Descriptor := r.stdin.toList ++ r.stdout.toList ++ r.stderr.toList

/-- write to a stream or to the host's, whatever comes of it -/
def writeTo (o : Output) (d : Option Descriptor) (bytes : Bytes) (w : World) : World :=
  match d with
  | none => w.writeHost o bytes
  | some d => (w.write d bytes).toOption.getD w

/-- everything that a stream gives, taken out of it; one that cannot be read gives nothing -/
def readAll (d : Descriptor) (w : World) : Bytes × World :=
  match w.contents (some d) with
  | .ok flow => (flow.bytes, w.advance flow.bytes.length (some d))
  | .error _ => ([], w)

/-- run one program -/
def runProgram (w : World) (q : Queued) : World :=
  let (copied, w) := match q.request.stdin with
    | some d => if q.script.copies then readAll d w else ([], w)
    | none => ([], w)
  let w := writeTo .stdout q.request.stdout (copied ++ q.script.out) w
  let w := writeTo .stderr q.request.stderr q.script.err w
  w.closeAll (held q.request)

/-- run the queue -/
def runQueue (s : State) (w : World) : State × World :=
  ({ s with queue := [] }, s.queue.reverse.foldl runProgram w)

def pipe (s : State) (w : World) : Except Failure Pipe × State × World :=
  let n := s.pipes + 1
  let s := { s with pipes := n }
  match refused s.pipeRefusal n with
  | some f => (.error f, s, w)
  | none => let (p, w) := w.addPipe n; (.ok p, s, w)

def spawn (r : SpawnRequest) (s : State) (w : World) : Except Failure Pid × State × World :=
  let script := s.script r.program
  match script.spawnFault with
  | some f => (.error f, s, w)
  | none =>
    let pid := firstPid + s.spawns
    (.ok pid,
      { s with spawns := s.spawns + 1, started := (pid, script) :: s.started, queue := ⟨r, script⟩ :: s.queue },
      (held r).foldl World.duplicate w)

/-- everything that comes out of a stream, cut into the chunks in which it is read -/
def collect (o : Output) (d : Descriptor) (w : World) : List (Output × Bytes) × World :=
  let (bytes, w) := readAll d w
  ((chunks bytes).map fun c => (o, c), w)

def drain (ends : ParentEnds) (payload : Option Bytes) (s : State) (w : World) : Drained × State × World :=
  let n := s.drains + 1
  let s := { s with drains := n }
  match refused s.drainRefusal n with
  | some f => (⟨[], .error f⟩, s, w)
  | none =>
    let w := match ends.stdin with
      | some d => writeTo .stdout (some d) (payload.getD []) w
      | none => w
    let (s, w) := runQueue s w
    let (out, w) := collect .stdout ends.stdout w
    let (err, w) := collect .stderr ends.stderr w
    (⟨out ++ err, .ok ()⟩, s, w)

def wait (pid : Pid) (s : State) (w : World) : Except Failure Int × State × World :=
  let (s, w) := runQueue s w
  let script := (s.started.lookup pid).getD {}
  (match script.waitFault with
    | some f => .error f
    | none => .ok script.status, s, w)

def detach (_ : Pid) (s : State) (w : World) : State × World := runQueue s w

/-- the backend -/
def backend : Backend State := { pipe, spawn, drain, wait, detach }

end LineShell.Scripted
