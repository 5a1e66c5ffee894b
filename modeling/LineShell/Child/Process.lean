/-
A child while it runs.

A child has a table of descriptors, the words that it was started with, and, while it runs, the world to itself: the
working directory and the environment of the world are its own for that time. What it does is a change of the world and
an end, by a status or by a signal.
-/
import LineShell.Child.Descriptors
import LineShell.Backend

namespace LineShell

/-- what a descriptor of a child refers to -/
inductive Stream where
  | hostIn
  | hostOut
  | hostErr
  | descriptor (d : Descriptor)
  deriving DecidableEq, Repr

namespace Stream

/-- what the stream still has to give -/
def contents (s : Stream) (w : World) : Except Errno Flow :=
  match s with
  | hostIn => w.contents none
  | descriptor d => w.contents (some d)
  | _ => .error .badDescriptor

/-- take `n` bytes out of the stream -/
def advance (s : Stream) (n : Nat) (w : World) : World :=
  match s with
  | hostIn => w.advance n none
  | descriptor d => w.advance n (some d)
  | _ => w

/-- send a flow into the stream. A pipe takes one that never ends; elsewhere its cycle is not written out, but for
the byte that shows whether there is room. -/
def send (s : Stream) (f : Flow) (w : World) : Except Errno World :=
  match s with
  | hostIn => .error .badDescriptor
  | hostOut => .ok (w.writeHost .stdout f.bytes)
  | hostErr => .ok (w.writeHost .stderr f.bytes)
  | descriptor (.pipeWriter n) =>
    match w.write (.pipeWriter n) f.bytes with
    | .error e => .error e
    | .ok w =>
      .ok (w.updatePipe n fun p => { p with pending := p.pending ++ Flow.repeating f.cycle })
  | descriptor d => w.write d (f.take (f.bytes.length + 1))

/-- the regular file that the stream is open on -/
def regularFile? (s : Stream) (w : World) : Option Bytes :=
  match s with
  | descriptor (.file k) =>
    match (w.openFiles[k]?).bind (w.files.node? ·.inode) with
    | some (.file content _) => some content
    | _ => none
  | _ => none

end Stream

/-- how a child ends -/
inductive Exit where
  | status (n : Nat)
  | signal (n : Nat)
  deriving DecidableEq, Repr

/-- the status that waiting for the child gives: a signal counts from 128 -/
def Exit.code : Exit → Nat
  | status n => n
  | signal n => 128 + n

/-- a running child -/
structure Process where
  pid : Pid
  argv : List String
  table : Table Stream

namespace Process

/-- the word that names the program -/
def program (p : Process) : String := p.argv.head?.getD ""

/-- the words behind it -/
def args (p : Process) : List String := p.argv.tail

/-- what the descriptor `n` still has to give -/
def contents (p : Process) (n : Nat) (w : World) : Except Errno Flow :=
  match p.table.target? n with
  | none => .error .badDescriptor
  | some s => s.contents w

/-- take `count` bytes out of the descriptor `n` -/
def advance (p : Process) (n count : Nat) (w : World) : World :=
  match p.table.target? n with
  | none => w
  | some s => s.advance count w

/-- send a flow into the descriptor `n`; an empty one needs no descriptor -/
def send (p : Process) (n : Nat) (f : Flow) (w : World) : Except Errno World :=
  if f.bytes.isEmpty && f.cycle.isEmpty then .ok w
  else match p.table.target? n with
    | none => .error .badDescriptor
    | some s => s.send f w

/-- send a text into the descriptor for errors, whatever comes of it -/
def complain (p : Process) (text : String) (w : World) : World :=
  (p.send 2 (.ofBytes (Text.bytes text)) w).toOption.getD w

/-- the descriptor that a path names: three have names of their own, and all have numbers -/
def named? (path : String) : Option Nat :=
  match path with
  | "/dev/stdin" => some 0
  | "/dev/stdout" => some 1
  | "/dev/stderr" => some 2
  | _ =>
    match Path.names path with
    | ["dev", "fd", n] => if Path.isAbsolute path then n.toNat? else none
    | ["proc", "self", "fd", n] => if Path.isAbsolute path then n.toNat? else none
    | _ => none

/-- open what the descriptor `n` refers to once more: a file from its start, anything else where it stands -/
def reopen (p : Process) (n : Nat) (w : World) : Except Errno (Stream × World) :=
  match p.table.target? n with
  | none => .error .noEntry
  | some (.descriptor (.file k)) =>
    match w.openFiles[k]? with
    | some f => let (d, w) := w.addOpen f.inode; .ok (.descriptor d, w)
    | none => .error .badDescriptor
  | some s => .ok (s, w)

/-- the number of a fault -/
def errnoOf : IoFault → Errno
  | .system e => e
  | _ => .invalidArgument

/-- open a path for reading -/
def openRead (p : Process) (path : String) (w : World) : Except Errno (Stream × World) :=
  match named? path with
  | some n => p.reopen n w
  | none => ((w.openRead path).map fun (d, w) => (Stream.descriptor d, w)).mapError errnoOf

/-- open a path for writing -/
def openWrite (p : Process) (path : String) (m : World.WriteMode) (w : World) : Except Errno (Stream × World) :=
  match named? path with
  | some n => p.reopen n w
  | none => ((w.openWrite path m).map fun (d, w) => (Stream.descriptor d, w)).mapError errnoOf

end Process

/-- a program, as what a process that runs it does -/
abbrev Program := Process → World → Exit × World

end LineShell
