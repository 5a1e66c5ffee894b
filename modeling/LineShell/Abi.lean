/-
The shell as foreign code calls it.

The caller owns a block of fields: two output buffers, two callbacks and what they are handed with every chunk, the
payload for standard input. Buffers are memory that the shell allocates and the caller gives back. `Memory` is the table
of allocations: what lives, and what was released and with which size, so that a leak, a second release and a wrong size
can be seen.

A call answers with a number. A negative one comes with a message, which stays until the next call.

- A command that is missing, or that is no text, is refused before anything else; the buffers stay as they are.
- Any other command has the buffers of an earlier call released first and new ones filled when it is done.
- A command ends at its first NUL. A message has blanks for NULs, since it is handed out the same way.
-/
import LineShell.Shell

namespace LineShell.Abi

/-! ## memory -/

/-- a place in memory -/
abbrev Address := Nat

/-- the table of allocations -/
structure Memory where
  live : List (Address × Bytes) := []
  /-- what was released, and the size that was given with it, newest first -/
  released : List (Address × Nat) := []
  next : Address := 1
  deriving DecidableEq, Repr

namespace Memory

/-- put bytes into memory -/
def allocate (m : Memory) (bytes : Bytes) : Address × Memory :=
  (m.next, { m with live := (m.next, bytes) :: m.live, next := m.next + 1 })

/-- give memory back -/
def release (m : Memory) (a : Address) (size : Nat) : Memory :=
  { m with live := m.live.filter (·.1 != a), released := (a, size) :: m.released }

/-- what lies at an address -/
def read? (m : Memory) (a : Address) : Option Bytes := m.live.lookup a

end Memory

/-! ## the caller's block -/

/-- an output buffer: where it lies, unless there is none, and how long its content is -/
structure OutBuffer where
  data : Option Address := none
  length : Nat := 0
  deriving DecidableEq, Repr

/-- the caller's block -/
structure Block where
  stdout : OutBuffer := {}
  stderr : OutBuffer := {}
  stdoutCallback : Bool := false
  stderrCallback : Bool := false
  /-- what both callbacks are handed with every chunk -/
  userData : Option Address := none
  stdin : Option Bytes := none
  deriving DecidableEq, Repr

/-- give a buffer back; the NUL behind the content is part of it -/
def OutBuffer.free (b : OutBuffer) (m : Memory) : OutBuffer × Memory :=
  (({} : OutBuffer), match b.data with
    | some a => m.release a (b.length + 1)
    | none => m)

/-- put a captured content into a new buffer -/
def OutBuffer.ofCapture (c : CaptureBuffer) (m : Memory) : OutBuffer × Memory :=
  let (a, m) := m.allocate c.bytesWithNul
  (⟨some a, c.length⟩, m)

namespace Block

/-- give both buffers back -/
def free (b : Block) (m : Memory) : Block × Memory :=
  let (stdout, m) := b.stdout.free m
  let (stderr, m) := b.stderr.free m
  ({ b with stdout, stderr }, m)

/-- the streams of a call with this block -/
def streams (b : Block) : Streams where
  stdout := if b.stdoutCallback then .callback else .buffered
  stderr := if b.stderrCallback then .callback else .buffered
  stdin := b.stdin

/-- fill both buffers from the streams of a call -/
def fill (b : Block) (io : Streams) (m : Memory) : Block × Memory :=
  let (stdout, m) := OutBuffer.ofCapture io.stdout.buffer m
  let (stderr, m) := OutBuffer.ofCapture io.stderr.buffer m
  ({ b with stdout, stderr }, m)

end Block

/-! ## calls -/

/-- everything behind the calls: the host, memory, the message of the last call, and the block if there is one -/
structure State (σ : Type) where
  host : Host σ
  memory : Memory := {}
  lastError : Option String := none
  block : Option Block := none

/-- the answer of a call -/
structure Answer where
  status : Int
  /-- what the callbacks were handed, in the order of the calls -/
  handed : Bytes := []
  /-- what they were handed with every chunk -/
  userData : Option Address := none
  /-- has the host ended? -/
  terminated : Bool := false
  deriving DecidableEq, Repr

/-- a message as it is handed out -/
def handedOut (message : String) : String := message.map fun c => if c = '\x00' then ' ' else c

variable {σ : Type}

/-- refuse a command -/
def refuse (s : State σ) (message : String) : Answer × State σ :=
  ({ status := ErrorCode.generic.toInt }, { s with lastError := some (handedOut message) })

/-- is that how the host ended? -/
def hasTerminated : Ending → Bool
  | .terminated _ => true
  | .returned _ => false

/-- run a line with the buffers of an earlier call released -/
def runCommand (backend : Backend σ) (line : String) (s : State σ) : Answer × State σ :=
  let (block, memory) := match s.block with
    | some b => let (b, m) := b.free s.memory; (some b, m)
    | none => (none, s.memory)
  let r := ({ backend } : Shell σ).run line (block.map (·.streams)) s.host
  let (block, memory) := match block, r.io with
    | some b, some io => let (b, m) := b.fill io memory; (some b, m)
    | b, _ => (b, memory)
  let lastError := r.ending.failure?.map fun f => handedOut f.message
  ({ status := r.ending.code, handed := (r.io.map (·.handedBytes)).getD [],
      userData := s.block.bind (·.userData), terminated := hasTerminated r.ending },
    { host := r.host, memory, lastError, block })

/-- interpret a command -/
def interpret (backend : Backend σ) (command : Option Bytes) (s : State σ) : Answer × State σ :=
  let s := { s with lastError := none }
  match command with
  | none => refuse s "command is null"
  | some bytes =>
    match Utf8.decode (bytes.takeWhile (· != 0)) with
    | .error f => refuse s s!"invalid UTF-8 in command: {f.message}"
    | .ok line => runCommand backend line s

/-- give the buffers of the block back -/
def free (s : State σ) : State σ :=
  match s.block with
  | some b => let (b, memory) := b.free s.memory; { s with block := some b, memory }
  | none => s

/-- the caller sets the payload for standard input -/
def setStdin (payload : Option Bytes) (s : State σ) : State σ :=
  { s with block := s.block.map fun b => { b with stdin := payload } }

end LineShell.Abi
