/-
Where captured output goes, and where standard input comes from.

Each of the two output streams has a channel. A channel with a callback hands every chunk on as it comes and its buffer
stays empty; a channel without one keeps the chunks in its buffer. Empty chunks go nowhere. The payload for standard
input is kept as it was set.

Whoever has chunks for a stream gets its sink first, which is the callback or the buffer of the stream. A sink is got
by itself, together with that of the other stream, or as a part of everything that a session is drained with; chunks
are then put into it, however it was got. `deliver` is all of this for one chunk.
-/
import LineShell.Capture.Buffer

namespace LineShell

/-- the way of one output stream -/
structure Channel where
  buffer : CaptureBuffer := .empty
  /-- the chunks handed to the callback, oldest first, if there is a callback -/
  handed : Option (Array Bytes) := none
  deriving DecidableEq, Repr

namespace Channel

/-- a channel without a callback -/
def buffered : Channel := {}

/-- a channel whose callback has not been called yet -/
def callback : Channel := { handed := some #[] }

/-- pass a chunk on -/
def deliver (c : Channel) (chunk : Bytes) : Channel :=
  if chunk.isEmpty then c
  else match c.handed with
    | some chunks => { c with handed := some (chunks.push chunk) }
    | none => { c with buffer := c.buffer.extend chunk }

/-- drop what the buffer holds -/
def reset (c : Channel) : Channel := { c with buffer := c.buffer.clear }

/-- put a new buffer in place and give the old one away -/
def take (c : Channel) : CaptureBuffer × Channel := (c.buffer, { c with buffer := .empty })

/-- is the chunk one that the callback is handed? -/
def hands (c : Channel) (chunk : Bytes) : Bool := c.handed.isSome && !chunk.isEmpty

/-- everything that the callback has been handed -/
def handedBytes (c : Channel) : Bytes := (c.handed.getD #[]).toList.flatten

/-- forget what the callback has been handed -/
def forget (c : Channel) : Channel := { c with handed := c.handed.map fun _ => #[] }

end Channel

/-- one of the two output streams -/
inductive Output where
  | stdout
  | stderr
  deriving DecidableEq, Repr

/-- where the chunks of an output stream go in: its callback, or its buffer -/
inductive Sink where
  | callback (o : Output)
  | buffer (o : Output)
  deriving DecidableEq, Repr

/-- the streams of one call: two channels and the payload for standard input -/
structure Streams where
  stdout : Channel := {}
  stderr : Channel := {}
  stdin : Option Bytes := none
  /-- the streams whose callbacks were called, one entry for each call, oldest first -/
  calls : Array Output := #[]
  deriving DecidableEq, Repr

namespace Streams

/-- the channel of an output stream -/
def channel (s : Streams) : Output → Channel
  | .stdout => s.stdout
  | .stderr => s.stderr

/-- put a channel in place of an output stream's -/
def setChannel (s : Streams) (o : Output) (c : Channel) : Streams :=
  match o with
  | .stdout => { s with stdout := c }
  | .stderr => { s with stderr := c }

/-- note a call of a stream's callback -/
def called (s : Streams) (o : Output) : Streams := { s with calls := s.calls.push o }

/-- pass a chunk to one output stream -/
def deliver (s : Streams) (o : Output) (chunk : Bytes) : Streams :=
  let after := s.setChannel o ((s.channel o).deliver chunk)
  if (s.channel o).hands chunk then after.called o else after

/-- pass chunks, each with its stream, in order -/
def deliverAll (s : Streams) (chunks : List (Output × Bytes)) : Streams :=
  chunks.foldl (fun s c => s.deliver c.1 c.2) s

/-- write to one output stream: every byte is accepted -/
def write (s : Streams) (o : Output) (chunk : Bytes) : Nat × Streams := (chunk.length, s.deliver o chunk)

/-- new streams: which of them have callbacks, and the payload -/
def ofCallbacks (callbacks : Output → Bool) (stdin : Option Bytes) : Streams where
  stdout := if callbacks .stdout then .callback else .buffered
  stderr := if callbacks .stderr then .callback else .buffered
  stdin

/-! ## sinks -/

/-- the sink of an output stream: its callback, else its buffer -/
def sink (s : Streams) (o : Output) : Sink := if (s.channel o).handed.isSome then .callback o else .buffer o

/-- put a chunk into a sink -/
def put (s : Streams) (k : Sink) (chunk : Bytes) : Streams :=
  if chunk.isEmpty then s
  else match k with
    | .callback o =>
      (s.setChannel o { s.channel o with handed := (s.channel o).handed.map (·.push chunk) }).called o
    | .buffer o => s.setChannel o { s.channel o with buffer := (s.channel o).buffer.extend chunk }

/-- the sink of the output -/
def stdoutSink (s : Streams) : Sink := s.sink .stdout

/-- the sink of the errors -/
def stderrSink (s : Streams) : Sink := s.sink .stderr

/-- both sinks at once -/
def sinks (s : Streams) : Sink × Sink := (s.sink .stdout, s.sink .stderr)

/-- what a session is drained with: the payload and both sinks -/
structure Parts where
  stdin : Option Bytes
  stdout : Sink
  stderr : Sink

/-- the streams taken apart -/
def parts (s : Streams) : Parts := ⟨s.stdin, s.sink .stdout, s.sink .stderr⟩

/-! ## resetting, taking, setting -/

/-- drop what both buffers hold -/
def reset (s : Streams) : Streams := { s with stdout := s.stdout.reset, stderr := s.stderr.reset }

/-- put a new buffer in place for one output stream and give the old one away -/
def take (s : Streams) (o : Output) : CaptureBuffer × Streams :=
  ((s.channel o).take.1, s.setChannel o (s.channel o).take.2)

/-- set the payload for standard input -/
def setStdin (s : Streams) (payload : Option Bytes) : Streams := { s with stdin := payload }

/-- forget what the callbacks have been handed -/
def forget (s : Streams) : Streams :=
  { s with stdout := s.stdout.forget, stderr := s.stderr.forget, calls := #[] }

/-- the chunks handed to the callbacks, each where its call stands among the calls of both -/
def handedInTurn : (calls : List Output) → (out err : List Bytes) → List Bytes
  | [], _, _ => []
  | .stdout :: calls, chunk :: out, err => chunk :: handedInTurn calls out err
  | .stderr :: calls, out, chunk :: err => chunk :: handedInTurn calls out err
  | _ :: calls, out, err => handedInTurn calls out err

/-- everything that the two callbacks have been handed, in the order of the calls -/
def handedBytes (s : Streams) : Bytes :=
  let chunks (c : Channel) := (c.handed.getD #[]).toList
  (handedInTurn s.calls.toList (chunks s.stdout) (chunks s.stderr)).flatten

/-- the number of bytes of a payload as inspection shows it -/
def inspectLength : Option Bytes → String
  | none => "None"
  | some bs => s!"Some({bs.length})"

/-- the streams as inspection shows them -/
def inspect (s : Streams) : String :=
  let fields := [
    s!"stdout: {s.stdout.buffer.inspect}", s!"stderr: {s.stderr.buffer.inspect}",
    s!"stdout_callback: {s.stdout.handed.isSome}", s!"stderr_callback: {s.stderr.handed.isSome}",
    s!"stdin_len: {inspectLength s.stdin}"]
  "IoConfig \x7b " ++ ", ".intercalate fields ++ " \x7d"

/-- putting a chunk into the sink of a stream is delivering it to the stream -/
theorem put_sink (s : Streams) (o : Output) (chunk : Bytes) : s.put (s.sink o) chunk = s.deliver o chunk := by
  unfold put sink deliver Channel.deliver Channel.hands
  cases hempty : chunk.isEmpty with
  | true => cases o <;> simp [setChannel, channel]
  | false => cases hhanded : (s.channel o).handed <;> simp [hhanded]

end Streams

end LineShell
