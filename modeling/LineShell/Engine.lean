/-
Evaluating a tree.

A tree is a chain of statements, and each statement is a group of stages. Evaluating a group opens a capture session
if output is captured, launches the stages left to right, then drains the session and waits for the children that were
started. A stage that cannot be launched ends the launching, and whatever was started before it is drained and waited
for all the same. A failed group is reported on the error stream and the next statement runs; only a request to stop
ends the evaluation early.

- `Launcher` is what launches a stage or a group of stages: it takes the context and the session, and gives back how it
  went, the children that have to be waited for, and the engine.
- `launch` is by recursion on the tree. The reading end of a pipe is handed to the stage that reads it, which closes it;
  the writing end is closed as soon as the stage that writes it has been launched.
- `execute` evaluates a whole tree. A statement inside a group, which no line spells, is evaluated on its own when its
  turn comes to be launched.
-/
import LineShell.Backend

namespace LineShell

/-- how a shell behaves -/
structure Settings where
  /-- does `exit` end the host, too? -/
  exitTerminates : Bool := true
  /-- the home directory, if it is not to be taken from the environment -/
  home : Option String := none
  deriving DecidableEq, Repr

/-- the streams and the mode of the subtree being evaluated; a stream that is not set is captured or the host's -/
structure Context where
  input : Option Descriptor := none
  output : Option Descriptor := none
  background : Bool := false
  deriving DecidableEq, Repr

/-- a child that was started and let go -/
structure JobRecord where
  id : Nat
  pid : Pid
  program : String
  deriving DecidableEq, Repr

/-- how the launch of a stage went: a builtin has run with a status, or a child was started -/
inductive StageOutcome where
  | finished (status : Int)
  | started
  deriving DecidableEq, Repr

/-- the engine: everything that evaluation reads and changes -/
structure Engine (σ : Type) where
  host : Host σ
  io : Option Streams := none
  lastStatus : Int := 0
  /-- the background children so far, newest first -/
  background : List JobRecord := []
  /-- has a child been given the payload? -/
  stdinDelivered : Bool := false

/-- what evaluation does not change: the backend, the line that the tree's words lie in, and the settings -/
structure Evaluation (σ : Type) where
  backend : Backend σ
  line : String
  settings : Settings

/-- how a launch went -/
structure Launched (σ : Type) where
  outcome : Except Failure StageOutcome
  /-- the children to be waited for, in the order in which they were started -/
  started : List Pid
  engine : Engine σ

/-- what launches a stage or a group of stages -/
abbrev Launcher (σ : Type) := Context → Option Session → Engine σ → Launched σ

namespace Engine

variable {σ : Type}

/-- the background children, oldest first -/
def jobs (e : Engine σ) : List JobRecord := e.background.reverse

/-- send a chunk to one of the shell's own streams: the captured one, which takes everything, else the host's -/
def send (e : Engine σ) (o : Output) (chunk : Bytes) : Except IoFault Unit × Engine σ :=
  match e.io with
  | some io => (.ok (), { e with io := some (io.deliver o chunk) })
  | none => let (r, host) := e.host.write o chunk; (r, { e with host })

/-- send chunks, each with its stream, in order, up to the first that is refused -/
def sendAll : List (Output × Bytes) → Engine σ → Except IoFault Unit × Engine σ
  | [], e => (.ok (), e)
  | c :: rest, e =>
    match e.send c.1 c.2 with
    | (.error f, e) => (.error f, e)
    | (.ok _, e) => sendAll rest e

/-- send a chunk to one of the shell's own streams, whatever becomes of it -/
def emit (e : Engine σ) (o : Output) (chunk : Bytes) : Engine σ := (e.send o chunk).2

/-- send chunks, each with its stream, in order -/
def emitAll (e : Engine σ) (chunks : List (Output × Bytes)) : Engine σ :=
  chunks.foldl (fun e c => e.emit c.1 c.2) e

/-- tell a failure on the error stream -/
def report (e : Engine σ) (f : Failure) : Engine σ :=
  { e with host := e.host.note (.reported f) }.emit .stderr (Text.bytes f.report)

/-- close descriptors, in order -/
def closeAll (e : Engine σ) (ds : List Descriptor) : Engine σ := { e with host := e.host.closeAll ds }

end Engine

namespace Evaluation

variable {σ : Type} (ev : Evaluation σ)

/-! ## one command -/

/-- what a builtin comes to, by its status and by what has become of what it said -/
def answer (builtin : Builtin) (result : Except IoFault Int) (sent : Except IoFault Unit) : Except Failure Int :=
  match result, sent with
  | .error f, _ => .error (.io f)
  | .ok _, .error f => .error (.io f)
  | .ok status, .ok _ => if builtin = .exit then .error (.exit status) else .ok status

/-- a builtin does its work, and what it says is sent on its way -/
def perform (builtin : Builtin) (args : List String) (ctx : Context) (e : Engine σ) :
    Except Failure Int × Engine σ :=
  let d := builtin.dispatch args e.lastStatus ev.settings.home ctx.output e.host.world
  let host := { e.host with world := d.world }.note (.ranBuiltin builtin args)
  let (sent, e) := { e with host }.sendAll d.chunks
  (answer builtin d.result sent, e)

/-- run a builtin. It writes to a descriptor of its own: the one that its output goes to is duplicated first, and the
duplicate is closed behind the builtin, however that went. -/
def runBuiltin (builtin : Builtin) (args : List String) (ctx : Context) (e : Engine σ) :
    Except Failure Int × Engine σ :=
  match ctx.output with
  | none => ev.perform builtin args ctx e
  | some d =>
    match e.host.duplicate d with
    | (.error f, host) => (.error (.io f), { e with host })
    | (.ok _, host) =>
      let (r, e) := ev.perform builtin args ctx { e with host }
      (r, e.closeAll [d])

/-- the process that a command asks for -/
def request (argv : List String) (ctx : Context) (session : Option Session) : SpawnRequest where
  argv
  stdin := ctx.input <|> (session.bind (·.stdin)).map (·.reader)
  stdout := ctx.output <|> session.map (·.stdout.writer)
  stderr := session.map (·.stderr.writer)
  background := ctx.background

/-- does the command read the session's payload? -/
def takesPayload (ctx : Context) (session : Option Session) : Bool :=
  ctx.input.isNone && (session.bind (·.stdin)).isSome

/-- start a child, which is let go at once if it runs in the background -/
def startChild (argv : List String) : Launcher σ := fun ctx session e =>
  let request := request argv ctx session
  match e.host.spawn ev.backend request with
  | (.error f, host) => ⟨.error f, [], { e with host }⟩
  | (.ok pid, host) =>
    let e := { e with host, stdinDelivered := e.stdinDelivered || takesPayload ctx session }
    if ctx.background then
      let record : JobRecord := ⟨e.background.length + 1, pid, request.program⟩
      ⟨.ok .started, [],
        { e with host := e.host.detach ev.backend pid, background := record :: e.background }⟩
    else ⟨.ok .started, [pid], e⟩

/-- launch one command: nothing at all, a builtin, or a child -/
def launchCommand (words : List Span) : Launcher σ := fun ctx session e =>
  match words.map (·.text ev.line) with
  | [] => ⟨.ok (.finished 0), [], e⟩
  | program :: args =>
    match Builtin.ofName? program with
    | some builtin =>
      let (r, e) := ev.runBuiltin builtin args ctx e
      ⟨r.map .finished, [], e⟩
    | none => ev.startChild (program :: args) ctx session e

/-! ## one group -/

/-- wait for children, all of them; the first failure wins, else the last status -/
def waitAll : List Pid → Engine σ → Except Failure (Option Int) × Engine σ
  | [], e => (.ok none, e)
  | pid :: rest, e =>
    let (r, host) := e.host.wait ev.backend pid
    let (later, e) := waitAll rest { e with host }
    (match r with
      | .error f => .error f
      | .ok status => later.map fun last => last <|> some status, e)

/-- open a session for a group whose output is captured; the payload goes to the first child that takes it -/
def openSession (ctx : Context) (e : Engine σ) : Except Failure (Option Session) × Engine σ :=
  match e.io with
  | some io =>
    if ctx.background then (.ok none, e)
    else match e.host.openSession ev.backend io.stdin.isSome (!e.stdinDelivered) with
      | (.error f, host) => (.error f, { e with host })
      | (.ok session, host) => (.ok (some session), { e with host })
  | none => (.ok none, e)

/-- drain the session of a group, if it has one -/
def drain (session : Option Session) (e : Engine σ) : Except Failure Unit × Engine σ :=
  match session, e.io with
  | some session, some io =>
    let (d, host) := e.host.drain ev.backend session io.stdin
    (d.result, { e with host, io := some (io.deliverAll d.chunks) })
  | _, _ => (.ok (), e)

/-- the status of a group from its last stage and its last child -/
def groupStatus : StageOutcome → Option Int → Int
  | .finished status, _ => status
  | .started, last => last.getD 0

/-- a group that has been launched: drain, wait, and decide how it ended. A failed launch counts before a failed drain,
and that before a failed wait. -/
def settle (session : Option Session) (l : Launched σ) : Except Failure Int × Engine σ :=
  let (drained, e) := ev.drain session l.engine
  let (waited, e) := ev.waitAll l.started e
  (match l.outcome, drained, waited with
    | .error f, _, _ => .error f
    | .ok _, .error f, _ => .error f
    | .ok _, .ok _, .error f => .error f
    | .ok outcome, .ok _, .ok last => .ok (groupStatus outcome last), e)

/-- has the host ended in the middle of a launch? -/
def terminated (outcome : Except Failure StageOutcome) : Bool :=
  ev.settings.exitTerminates && match outcome with
    | .error f => f.isExit
    | .ok _ => false

/-- run a group to its end -/
def runGroup (launch : Launcher σ) (ctx : Context) (e : Engine σ) : Except Failure Int × Engine σ :=
  match ev.openSession ctx e with
  | (.error f, e) => (.error f, e)
  | (.ok session, e) =>
    let l := launch ctx session e
    if ev.terminated l.outcome then (l.outcome.map fun _ => 0, l.engine)
    else ev.settle session l

/-- run a group, remember its status, and report its failure -/
def executeGroup (launch : Launcher σ) (ctx : Context) (e : Engine σ) : Except Failure Int × Engine σ :=
  match ev.runGroup launch ctx e with
  | (.ok status, e) => (.ok status, { e with lastStatus := status })
  | (.error (.exit status), e) => (.error (.exit status), e)
  | (.error f, e) => (.error f, { e with lastStatus := 1 }.report f)

/-- run a group as its separator says: a background group counts as status 0 -/
def executeStatement (launch : Launcher σ) (sep : Separator) (ctx : Context) (e : Engine σ) :
    Except Failure Int × Engine σ :=
  match sep with
  | .sequence => ev.executeGroup launch ctx e
  | .background =>
    let (r, e) := ev.executeGroup launch { ctx with background := true } e
    (r.map fun _ => 0, e)

/-! ## the whole tree -/

/-- a launch after which `inlet`, the end of a pipe that it may have read, is closed -/
def closing (inlet : Option Descriptor) (l : Launched σ) : Launched σ :=
  { l with engine := l.engine.closeAll inlet.toList }

/-- the result of evaluating a statement, as a stage -/
def asStage (r : Except Failure Int × Engine σ) : Launched σ := ⟨r.1.map .finished, [], r.2⟩

/-- evaluate a tree, given what launches it: its statements if it is a chain of them, else as one group -/
def executeWith (isStatement : Bool) (launch : Launcher σ) (ctx : Context) (e : Engine σ) :
    Except Failure Int × Engine σ :=
  if isStatement then
    let l := launch ctx none e
    (l.outcome.map fun o => groupStatus o none, l.engine)
  else ev.executeGroup launch ctx e

/-- open the target of a redirection, launch `inner` with it, and close it -/
def launchRedirected (direction : Direction) (target : Span) (inner : Launcher σ) : Launcher σ :=
  fun ctx session e =>
    match e.host.openTarget direction (target.text ev.line) with
    | (.error f, host) => ⟨.error f, [], { e with host }⟩
    | (.ok d, host) =>
      let ctx := match direction with
        | .input => { ctx with input := some d }
        | .output => { ctx with output := some d }
      closing (some d) (inner ctx session { e with host })

/-- launch the stages of a tree, left to right; `inlet` is the pipe that the first of them reads, which is closed
when they have been launched -/
def launchFrom : Tree → (inlet : Option Descriptor) → Launcher σ
  | .pipe left right, inlet => fun ctx session e =>
    match e.host.pipe ev.backend with
    | (.error f, host) => closing inlet ⟨.error f, [], { e with host }⟩
    | (.ok pipe, host) =>
      let l := launchFrom left none { ctx with output := some pipe.writer } session { e with host }
      match l.outcome with
      | .error f =>
        ⟨.error f, l.started, l.engine.closeAll ([pipe.reader, pipe.writer] ++ inlet.toList)⟩
      | .ok _ =>
        let e := l.engine.closeAll (inlet.toList ++ [pipe.writer])
        let r := launchFrom right (some pipe.reader) { ctx with input := some pipe.reader } session e
        { r with started := l.started ++ r.started }
  | .command words, inlet => fun ctx session e => closing inlet (ev.launchCommand words ctx session e)
  | .redirect direction target inner, inlet => fun ctx session e =>
    closing inlet (ev.launchRedirected direction target (launchFrom inner none) ctx session e)
  | .ended left sep, inlet => fun ctx _ e =>
    closing inlet (asStage (ev.executeStatement (launchFrom left none) sep ctx e))
  | .chained left sep right, inlet => fun ctx _ e =>
    closing inlet (asStage (
      match ev.executeStatement (launchFrom left none) sep ctx e with
      | (.error (.exit status), e) => (.error (.exit status), e)
      | (_, e) => ev.executeWith right.isStatement (launchFrom right none) ctx e))

/-- launch the stages of a tree -/
def launch (t : Tree) : Launcher σ := ev.launchFrom t none

/-- evaluate a tree: the result is that of the last statement that ran -/
def execute (t : Tree) (ctx : Context) (e : Engine σ) : Except Failure Int × Engine σ :=
  ev.executeWith t.isStatement (ev.launch t) ctx e

end Evaluation

end LineShell
