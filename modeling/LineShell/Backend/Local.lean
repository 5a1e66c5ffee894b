/-
The backend that runs children on the machine.

A child starts with the table that the shell arranges for it and with the shell's working directory and environment of
that moment. If its program cannot be run it says so on its own error stream and ends with a status that tells why.

Children run when the shell waits for something: those in the foreground in the order in which they were started, so
that each finds in its pipe what the one before it has written. A child that was let go runs at once, unless it sleeps;
one that sleeps is overtaken by the shell and runs when the shell has nothing more to do. So the order of everything
that children do is determined.
-/
import LineShell.Child.Drain
import LineShell.Child.Reaper
import LineShell.Shell
import LineShell.Userland.Programs

namespace LineShell.Local

/-- a child that was started and has not run yet -/
structure Pending where
  process : Process
  request : SpawnRequest
  cwd : Inode
  env : List (String × String)

/-- the backend's state -/
structure State where
  reaper : Reaper := {}
  nextPid : Pid := 2001
  /-- the children that have not run yet, oldest first -/
  queue : List Pending := []
  /-- the children that were let go and sleep, oldest first -/
  sleepers : List Pending := []

/-! ## starting a child -/

/-- why words cannot be handed to a program: there are none, or one of them has a NUL in it -/
def wordFault? : List String → Option IoFault
  | [] => some .emptyCommand
  | argv => argv.findSome? fun a => ((Text.bytes a).findIdx? (· == 0)).map .nulInArgument

/-- the number from which on the shell keeps a child's streams in its own table -/
def firstKept : Nat := 3

/-- the shell's own table, with the streams that a child is to have from `firstKept` on -/
def shellTable (r : SpawnRequest) : Table Stream :=
  let kept := [r.stdin, r.stdout, r.stderr].zipIdx.filterMap fun (d?, k) =>
    d?.map fun d => (firstKept + k, (⟨.descriptor d, true⟩ : Entry Stream))
  ⟨[(0, ⟨.hostIn, false⟩), (1, ⟨.hostOut, false⟩), (2, ⟨.hostErr, false⟩)] ++ kept⟩

/-- the table that a child's program finds -/
def childTable (r : SpawnRequest) : Table Stream :=
  let streams := [r.stdin, r.stdout, r.stderr].zipIdx.map fun (d?, k) => d?.map fun _ => firstKept + k
  match (shellTable r).arrange streams with
  | some a => a.table.afterExec
  | none => ⟨[]⟩

/-- the streams that a child holds until it ends -/
def held (r : SpawnRequest) : List Descriptor := r.stdin.toList ++ r.stdout.toList ++ r.stderr.toList

def spawn (r : SpawnRequest) (s : State) (w : World) : Except Failure Pid × State × World :=
  match wordFault? r.argv with
  | some f => (.error (.spawn r.program f), s, w)
  | none =>
    let pid := s.nextPid
    let child : Pending := ⟨⟨pid, r.argv, childTable r⟩, r, w.cwd, w.env⟩
    (.ok pid, { s with reaper := s.reaper.spawn pid, nextPid := pid + 1, queue := s.queue ++ [child] },
      (held r).foldl World.duplicate w)

/-! ## running children -/

/-- the status of a child whose program is not there, and of one whose program cannot be run -/
def statusNotFound : Nat := 127

def statusNotExecutable : Nat := 126

/-- what a child does: its program, or the complaint that it cannot be run -/
def runProcess (p : Process) (w : World) : Exit × World :=
  match Userland.execute p w with
  | .ok r => r
  | .error e =>
    if e = Errno.noEntry then (.status statusNotFound, p.complain s!"embsh: {p.program}: command not found\n" w)
    else (.status statusNotExecutable, p.complain s!"embsh: {p.program}: cannot execute\n" w)

/-- run one child to its end -/
def runChild (c : Pending) (s : State) (w : World) : State × World :=
  let (e, after) := runProcess c.process { w with cwd := c.cwd, env := c.env }
  let after := { after with cwd := w.cwd, env := w.env }
  ({ s with reaper := s.reaper.exit c.process.pid e.code }, after.closeAll (held c.request))

/-- run children in order -/
def runAll : List Pending → State → World → State × World
  | [], s, w => (s, w)
  | c :: cs, s, w => let (s, w) := runChild c s w; runAll cs s w

/-- run the children that have not run yet -/
def runQueue (s : State) (w : World) : State × World := runAll s.queue { s with queue := [] } w

/-- does a child begin by waiting some time? -/
def sleeps (c : Pending) : Bool := c.process.argv.any fun a => (a.splitOn "sleep").length > 1

/-! ## the backend -/

def pipe (s : State) (w : World) : Except Failure Pipe × State × World :=
  let (p, w) := w.addPipe w.freshPipe
  (.ok p, s, w)

/-- the reads that empty a stream and find its end -/
def readings (d : Descriptor) (w : World) : List Reading × World :=
  match w.contents (some d) with
  | .ok f => ((chunks f.bytes).map Reading.chunk ++ [.ended], w.advance f.bytes.length (some d))
  | .error e => ([.failed (.system e)], w)

/-- polls that find both output ends ready, as long as there is something to read -/
def polls : List Reading → List Reading → List Poll
  | [], errs => errs.map fun e => .ready none (some e) none
  | o :: outs, [] => .ready (some o) none none :: polls outs []
  | o :: outs, e :: errs => .ready (some o) (some e) none :: polls outs errs

/-- write the payload, all at once -/
def writePayload (c : Carrying) (writer : Option Descriptor) (w : World) : List Poll × World :=
  match c.pending, writer with
  | some bytes, some d =>
    match w.write d bytes with
    | .ok w => ([.ready none none (some (.accepted bytes.length))], w)
    | .error e =>
      if e = Errno.brokenPipe then ([.ready none none (some .closed)], w)
      else ([.ready none none (some (.failed (.system e)))], w)
  | _, _ => ([], w)

/-- the payload is written, the children run, and their output is read -/
def drain (ends : ParentEnds) (payload : Option Bytes) (s : State) (w : World) : Drained × State × World :=
  let start := Carrying.start ends.stdin.isSome payload
  let (writing, w) := writePayload start ends.stdin w
  let (s, w) := runQueue s w
  let (outs, w) := readings ends.stdout w
  let (errs, w) := readings ends.stderr w
  (Carrying.drained (start.run (writing ++ polls outs errs)), s, w)

/-- the error of waiting for a child that is no more -/
def noChild : Failure := .wait (.system 10)

def wait (pid : Pid) (s : State) (w : World) : Except Failure Int × State × World :=
  let (s, w) := runQueue s w
  match s.reaper.wait pid with
  | (.status n, reaper) => (.ok n, { s with reaper }, w)
  | (_, reaper) => (.error noChild, { s with reaper }, w)

def detach (pid : Pid) (s : State) (w : World) : State × World :=
  let s := { s with reaper := s.reaper.detach pid }
  let (slow, quick) := s.queue.partition fun c => c.process.pid == pid && sleeps c
  runAll quick { s with queue := [], sleepers := s.sleepers ++ slow } w

/-- run the children that sleep, when the shell has nothing more to do -/
def settle (s : State) (w : World) : State × World := runAll s.sleepers { s with sleepers := [] } w

/-- the backend -/
def backend : Backend State := { pipe, spawn, drain, wait, detach }

/-- run a line; what it leaves behind is the start of the next one -/
def runLine (settings : Settings) (line : String) (io : Option Streams) (s : State) (w : World) : Run State :=
  ({ backend, settings } : Shell State).run line io { world := w, state := s }

end LineShell.Local
