/-
What starts processes and carries their streams.

A backend makes pipes, starts children, carries the streams of one group of children while they run, and waits for
children or lets them go. It is a record of functions over a state of its own, and every function also sees and gives
back the world. Nothing is assumed of it: each of its calls may fail in any way, and each may change the world.

A capture session is the set of pipes between the shell and one group of children. Draining it first closes the ends
that belong to the children, so that the end of their output can be seen, and the writing end of a payload that is not
to be written; only then does the backend carry the streams. The backend says which chunks came from which stream and
does not see where they go.

`Host` is a backend's state, the world, and the log of everything that was asked of either. The log is what the host
of a shell may look at afterwards. Two things the shell asks of the system by itself and not through the backend: to
duplicate a descriptor, and to write to a stream of the host. Which of these requests are refused is part of the host,
as one list of outcomes for each kind, so that any pattern of refusals is a host. A text that a stream of the host
does not take is not written at all.
-/
import LineShell.Builtin

namespace LineShell

/-- a process, by number -/
abbrev Pid := Nat

/-- a process to be started; a stream that is not given is the host's -/
structure SpawnRequest where
  argv : List String
  stdin : Option Descriptor := none
  stdout : Option Descriptor := none
  stderr : Option Descriptor := none
  background : Bool := false
  deriving DecidableEq, Repr

/-- the program that a request names -/
def SpawnRequest.program (r : SpawnRequest) : String := r.argv.head?.getD ""

/-! ## capture sessions -/

/-- the pipes between the shell and one group of children -/
structure Session where
  stdout : Pipe
  stderr : Pipe
  stdin : Option Pipe
  /-- is the payload still to be written? -/
  feeds : Bool := true
  deriving DecidableEq, Repr

/-- the ends of a session that the shell works with -/
structure ParentEnds where
  stdout : Descriptor
  stderr : Descriptor
  stdin : Option Descriptor
  deriving DecidableEq, Repr

namespace Session

/-- the ends that the shell works with; without a payload to write the writer is not among them -/
def parentEnds (s : Session) : ParentEnds :=
  ⟨s.stdout.reader, s.stderr.reader, if s.feeds then s.stdin.map (·.writer) else none⟩

/-- the ends that belong to the children -/
def childEnds (s : Session) : List Descriptor := [s.stdout.writer, s.stderr.writer] ++ (s.stdin.map (·.reader)).toList

/-- the end that the shell has no use for when there is no payload to write -/
def idleEnds (s : Session) : List Descriptor := if s.feeds then [] else (s.stdin.map (·.writer)).toList

end Session

/-- the parent's ends as a list -/
def ParentEnds.toList (p : ParentEnds) : List Descriptor := [p.stdout, p.stderr] ++ p.stdin.toList

/-- what came out of a session: chunks of output, each with its stream, and how it ended -/
structure Drained where
  chunks : List (Output × Bytes)
  result : Except Failure Unit

/-! ## backends -/

/-- a backend with state `σ` -/
structure Backend (σ : Type) where
  pipe : σ → World → Except Failure Pipe × σ × World
  spawn : SpawnRequest → σ → World → Except Failure Pid × σ × World
  /-- carry a session's streams; the payload goes to its standard input -/
  drain : ParentEnds → (payload : Option Bytes) → σ → World → Drained × σ × World
  wait : Pid → σ → World → Except Failure Int × σ × World
  detach : Pid → σ → World → σ × World

/-! ## the log -/

/-- something that was asked of the backend or of the world -/
inductive Event where
  | piped (result : Except Failure Pipe)
  /-- all pipes of a session were made -/
  | opened (session : Session)
  | spawned (request : SpawnRequest) (result : Except Failure Pid)
  | drained (session : Session) (result : Except Failure Unit)
  | waited (pid : Pid) (result : Except Failure Int)
  | detached (pid : Pid)
  /-- a redirection was to open its target -/
  | redirected (direction : Direction) (path : String) (result : Except IoFault Descriptor)
  /-- a descriptor was to be duplicated -/
  | duplicated (d : Descriptor) (result : Except IoFault Unit)
  | closed (d : Descriptor)
  | ranBuiltin (builtin : Builtin) (args : List String)
  | reported (failure : Failure)

/-- a backend's state, the world, and the log, newest event first -/
structure Host (σ : Type) where
  world : World
  state : σ
  log : List Event := []
  /-- what becomes of the coming duplications, in order; behind the last of them none is refused -/
  duplications : List (Option Errno) := []
  /-- what becomes of the coming writes to streams of the host, in order; behind the last of them none is refused -/
  writes : List (Option Errno) := []

/-- what becomes of the next of several requests -/
def nextOutcome (outcomes : List (Option Errno)) : Except IoFault Unit :=
  match outcomes with
  | some n :: _ => .error (.system n)
  | _ => .ok ()

namespace Host

variable {σ : Type}

/-- note an event -/
def note (h : Host σ) (e : Event) : Host σ := { h with log := e :: h.log }

/-- the events, oldest first -/
def events (h : Host σ) : List Event := h.log.reverse

/-- make a pipe -/
def pipe (b : Backend σ) (h : Host σ) : Except Failure Pipe × Host σ :=
  let (r, s, w) := b.pipe h.state h.world
  (r, { h with world := w, state := s }.note (.piped r))

/-- start a process -/
def spawn (b : Backend σ) (request : SpawnRequest) (h : Host σ) : Except Failure Pid × Host σ :=
  let (r, s, w) := b.spawn request h.state h.world
  (r, { h with world := w, state := s }.note (.spawned request r))

/-- wait for a process -/
def wait (b : Backend σ) (pid : Pid) (h : Host σ) : Except Failure Int × Host σ :=
  let (r, s, w) := b.wait pid h.state h.world
  (r, { h with world := w, state := s }.note (.waited pid r))

/-- let a process go -/
def detach (b : Backend σ) (pid : Pid) (h : Host σ) : Host σ :=
  let (s, w) := b.detach pid h.state h.world
  { h with world := w, state := s }.note (.detached pid)

/-- close a descriptor -/
def close (h : Host σ) (d : Descriptor) : Host σ := { h with world := h.world.close d }.note (.closed d)

/-- close descriptors, in order -/
def closeAll (h : Host σ) (ds : List Descriptor) : Host σ := ds.foldl close h

/-- duplicate a descriptor -/
def duplicate (h : Host σ) (d : Descriptor) : Except IoFault Unit × Host σ :=
  let r := nextOutcome h.duplications
  let world := match r with
    | .ok _ => h.world.duplicate d
    | .error _ => h.world
  (r, { h with world, duplications := h.duplications.tail }.note (.duplicated d r))

/-- write a text to a stream of the host; nothing needs to be done for an empty one -/
def write (h : Host σ) (o : Output) (chunk : Bytes) : Except IoFault Unit × Host σ :=
  if chunk.isEmpty then (.ok (), h)
  else
    let r := nextOutcome h.writes
    let world := match r with
      | .ok _ => h.world.writeHost o chunk
      | .error _ => h.world
    (r, { h with world, writes := h.writes.tail })

/-- open the target of a redirection -/
def openTarget (h : Host σ) (direction : Direction) (path : String) : Except Failure Descriptor × Host σ :=
  let opened := match direction with
    | .input => h.world.openRead path
    | .output => h.world.openWrite path World.redirectMode
  match opened with
  | .ok (d, w) => (.ok d, { h with world := w }.note (.redirected direction path (.ok d)))
  | .error f => (.error (.redirect path f), h.note (.redirected direction path (.error f)))

/-- make the pipes of a session; if one of them cannot be made, those made before it are closed again -/
def makePipes (b : Backend σ) (withStdin feeds : Bool) (h : Host σ) : Except Failure Session × Host σ :=
  match h.pipe b with
  | (.error f, h) => (.error f, h)
  | (.ok out, h) =>
    match h.pipe b with
    | (.error f, h) => (.error f, h.closeAll [out.reader, out.writer])
    | (.ok err, h) =>
      if withStdin then
        match h.pipe b with
        | (.error f, h) => (.error f, h.closeAll [err.reader, err.writer, out.reader, out.writer])
        | (.ok input, h) => (.ok ⟨out, err, some input, feeds⟩, h)
      else (.ok ⟨out, err, none, feeds⟩, h)

/-- open a session; `feeds` says whether there is a payload to write -/
def openSession (b : Backend σ) (withStdin feeds : Bool) (h : Host σ) : Except Failure Session × Host σ :=
  match h.makePipes b withStdin feeds with
  | (.error f, h) => (.error f, h)
  | (.ok session, h) => (.ok session, h.note (.opened session))

/-- close the ends of a session that the shell does not work with, carry its streams, and close the rest -/
def drain (b : Backend σ) (session : Session) (payload : Option Bytes) (h : Host σ) : Drained × Host σ :=
  let h := h.closeAll (session.childEnds ++ session.idleEnds)
  let (r, s, w) := b.drain session.parentEnds payload h.state h.world
  (r, ({ h with world := w, state := s }.note (.drained session r.result)).closeAll session.parentEnds.toList)

/-! ## one program on its own -/

/-- run one program to its end. With streams, their buffers are emptied first and everything goes through a session;
without, the program has the streams of the host. -/
def runProgram (b : Backend σ) (argv : List String) (io : Option Streams) (h : Host σ) :
    Except Failure Int × Option Streams × Host σ :=
  match io with
  | none =>
    match h.spawn b { argv } with
    | (.error f, h) => (.error f, none, h)
    | (.ok pid, h) => let (r, h) := h.wait b pid; (r, none, h)
  | some io =>
    let io := io.reset
    match h.openSession b io.stdin.isSome true with
    | (.error f, h) => (.error f, some io, h)
    | (.ok session, h) =>
      let request : SpawnRequest :=
        { argv, stdin := session.stdin.map (·.reader), stdout := some session.stdout.writer,
          stderr := some session.stderr.writer }
      match h.spawn b request with
      | (.error f, h) => (.error f, some io, h.closeAll (session.childEnds ++ session.parentEnds.toList))
      | (.ok pid, h) =>
        let (drained, h) := h.drain b session io.stdin
        let (status, h) := h.wait b pid
        let result := match drained.result with
          | .error f => .error f
          | .ok _ => status
        (result, some (io.deliverAll drained.chunks), h)

end Host

end LineShell
