/-
The world that a shell and its children share.

Files, the working directory, the environment, open files, pipes, and the streams of the host. A descriptor names an end
of a pipe or an open file; a stream without a descriptor is the host's own. A pipe counts the holders of its two ends:
a write to a pipe that nobody can read any more fails. Two descriptors of one open file share its position.

Every operation gives back the world after it, also when it fails.
-/
import LineShell.Files.Tree
import LineShell.Flow
import LineShell.Capture.Transfer

namespace LineShell

/-- a stream that is not the host's -/
inductive Descriptor where
  | pipeReader (pipe : Nat)
  | pipeWriter (pipe : Nat)
  | file (index : Nat)
  deriving DecidableEq, Repr

/-- the two ends of a pipe -/
structure Pipe where
  reader : Descriptor
  writer : Descriptor
  deriving DecidableEq, Repr

/-- what a pipe holds, and how many hold its ends -/
structure PipeState where
  pending : Flow := {}
  readers : Nat := 1
  writers : Nat := 1
  deriving DecidableEq, Repr

/-- an open file and the position in it -/
structure OpenFile where
  inode : Inode
  position : Nat := 0
  deriving DecidableEq, Repr

/-- the world -/
structure World where
  files : FileTree := {}
  cwd : Inode := FileTree.root
  env : List (String × String) := []
  openFiles : Array OpenFile := #[]
  /-- the pipes made so far, newest first -/
  pipes : List (Nat × PipeState) := []
  hostIn : Flow := {}
  hostOut : Bytes := []
  hostErr : Bytes := []
  deriving DecidableEq, Repr

namespace World

/-! ## environment and working directory -/

/-- the value of an environment variable -/
def getEnv? (w : World) (name : String) : Option String := w.env.lookup name

/-- set an environment variable, or unset it -/
def setEnv (w : World) (name : String) (value : Option String) : World :=
  let others := w.env.filter (·.1 != name)
  { w with env := match value with
    | some v => (name, v) :: others
    | none => others }

/-- the path of the working directory -/
def workingDirectory (w : World) : Except IoFault String :=
  match w.files.pathOf? w.cwd with
  | some path => .ok path
  | none => .error (.system .noEntry)

/-- a path holds no NUL byte -/
def checkPath (path : String) : Except IoFault Unit :=
  if path.contains '\x00' then .error .nulInPath else .ok ()

/-- the file that a path leads to from the working directory -/
def resolve (w : World) (path : String) : Except IoFault Inode :=
  match checkPath path with
  | .error f => .error f
  | .ok _ => (w.files.resolve w.cwd path).mapError .system

/-- make a directory the working directory -/
def changeDirectory (w : World) (path : String) : Except IoFault World :=
  match w.resolve path with
  | .error f => .error f
  | .ok i => if w.files.isDir i then .ok { w with cwd := i } else .error (.system .notDirectory)

/-! ## opening files -/

/-- how a file is opened for writing -/
structure WriteMode where
  /-- drop what the file holds -/
  truncate : Bool
  /-- the mode of a file that has to be created -/
  mode : Nat
  deriving DecidableEq, Repr

/-- put a file into the table of open files -/
def addOpen (w : World) (i : Inode) : Descriptor × World :=
  (.file w.openFiles.size, { w with openFiles := w.openFiles.push ⟨i, 0⟩ })

/-- open an existing file for reading -/
def openRead (w : World) (path : String) : Except IoFault (Descriptor × World) :=
  (w.resolve path).map w.addOpen

/-- the file that opening for writing arrives at, created or emptied as the mode says -/
def prepareWrite (t : FileTree) (cwd : Inode) (path : String) (m : WriteMode) : Except Errno (Inode × FileTree) :=
  match t.walkSteps cwd path (Path.names path) true with
  | .error e => .error e
  | .ok (.found i) =>
    match t.node? i with
    | some (.dir _ _) => .error .isDirectory
    | some (.file _ mode) =>
      if Path.endsInSlash path then .error .isDirectory
      else .ok (i, if m.truncate then t.setNode i (.file [] mode) else t)
    | _ => if Path.endsInSlash path then .error .isDirectory else .ok (i, t)
  | .ok (.free dir name) =>
    if Path.endsInSlash path then .error .isDirectory
    else t.create dir name (.file [] m.mode)

/-- open a file for writing -/
def openWrite (w : World) (path : String) (m : WriteMode) : Except IoFault (Descriptor × World) :=
  match checkPath path with
  | .error f => .error f
  | .ok _ =>
    match prepareWrite w.files w.cwd path m with
    | .error e => .error (.system e)
    | .ok (i, t) => .ok ({ w with files := t }.addOpen i)

/-- the way in which a redirection opens its target: emptied, and readable by all if it is new -/
def redirectMode : WriteMode := ⟨true, 0o644⟩

/-- write a whole file, which is created if need be -/
def writeFile (w : World) (path : String) (content : Bytes) : Except IoFault World :=
  match checkPath path with
  | .error f => .error f
  | .ok _ =>
    match prepareWrite w.files w.cwd path ⟨true, 0o666⟩ with
    | .error e => .error (.system e)
    | .ok (i, t) =>
      match t.node? i with
      | some (.file _ mode) => .ok { w with files := t.setNode i (.file content mode) }
      | _ => .ok { w with files := t }

/-- move an open file's position to its end -/
def seekEnd (w : World) (d : Descriptor) : World :=
  match d with
  | .file k => { w with openFiles := w.openFiles.modify k fun f => match w.files.node? f.inode with
    | some (.file content _) => { f with position := content.length }
    | _ => f }
  | _ => w

/-! ## pipes -/

/-- the state of a pipe -/
def pipe? (w : World) (n : Nat) : Option PipeState := w.pipes.lookup n

/-- change the state of a pipe -/
def updatePipe (w : World) (n : Nat) (f : PipeState → PipeState) : World :=
  { w with pipes := w.pipes.map fun p => if p.1 = n then (p.1, f p.2) else p }

/-- make the pipe number `n`, in place of an earlier one of that number -/
def addPipe (w : World) (n : Nat) : Pipe × World :=
  (⟨.pipeReader n, .pipeWriter n⟩, { w with pipes := (n, {}) :: w.pipes.filter (·.1 != n) })

/-- a number that no pipe has -/
def freshPipe (w : World) : Nat := (w.pipes.map (·.1)).foldl max 0 + 1

/-- one more holder of a descriptor -/
def duplicate (w : World) : Descriptor → World
  | .pipeReader n => w.updatePipe n fun p => { p with readers := p.readers + 1 }
  | .pipeWriter n => w.updatePipe n fun p => { p with writers := p.writers + 1 }
  | .file _ => w

/-- one holder of a descriptor less; a pipe that nobody can read holds nothing -/
def close (w : World) : Descriptor → World
  | .pipeReader n => w.updatePipe n fun p =>
    { p with readers := p.readers - 1, pending := if p.readers ≤ 1 then {} else p.pending }
  | .pipeWriter n => w.updatePipe n fun p => { p with writers := p.writers - 1 }
  | .file _ => w

/-- close the descriptors that are there -/
def closeAll (w : World) (ds : List Descriptor) : World := ds.foldl close w

/-! ## reading and writing -/

/-- what an open file still has to give -/
def available (w : World) (f : OpenFile) : Except Errno Flow :=
  match w.files.node? f.inode with
  | some (.file content _) => .ok (.ofBytes (content.drop f.position))
  | some (.device .null) => .ok {}
  | some (.device _) => .ok (.repeating [0])
  | some (.dir _ _) => .error .isDirectory
  | _ => .error .badDescriptor

/-- what a stream still has to give; without a descriptor it is the host's standard input -/
def contents (w : World) : Option Descriptor → Except Errno Flow
  | none => .ok w.hostIn
  | some (.pipeReader n) =>
    match w.pipe? n with
    | some p => .ok p.pending
    | none => .error .badDescriptor
  | some (.pipeWriter _) => .error .badDescriptor
  | some (.file k) =>
    match w.openFiles[k]? with
    | some f => w.available f
    | none => .error .badDescriptor

/-- take `n` bytes out of a stream -/
def advance (w : World) (n : Nat) : Option Descriptor → World
  | none => { w with hostIn := w.hostIn.drop n }
  | some (.pipeReader k) => w.updatePipe k fun p => { p with pending := p.pending.drop n }
  | some (.pipeWriter _) => w
  | some (.file k) => { w with openFiles := w.openFiles.modify k fun f => { f with position := f.position + n } }

/-- `content` with `chunk` written at `position`; a gap is filled with zeros -/
def overwrite (content : Bytes) (position : Nat) (chunk : Bytes) : Bytes :=
  content.take position ++ List.replicate (position - content.length) 0 ++ chunk
    ++ content.drop (position + chunk.length)

/-- write a chunk to an open file -/
def writeOpen (w : World) (k : Nat) (chunk : Bytes) : Except Errno World :=
  match w.openFiles[k]? with
  | none => .error .badDescriptor
  | some f =>
    match w.files.node? f.inode with
    | some (.file content mode) =>
      .ok { w with
        files := w.files.setNode f.inode (.file (overwrite content f.position chunk) mode)
        openFiles := w.openFiles.setIfInBounds k { f with position := f.position + chunk.length } }
    | some (.device .full) => if chunk.isEmpty then .ok w else .error .noSpace
    | some (.device _) => .ok w
    | _ => .error .badDescriptor

/-- write a chunk to a descriptor -/
def write (w : World) (d : Descriptor) (chunk : Bytes) : Except Errno World :=
  match d with
  | .pipeReader _ => .error .badDescriptor
  | .pipeWriter n =>
    match w.pipe? n with
    | none => .error .badDescriptor
    | some p =>
      if p.readers = 0 then .error .brokenPipe
      else .ok (w.updatePipe n fun p => { p with pending := p.pending ++ Flow.ofBytes chunk })
  | .file k => w.writeOpen k chunk

/-- write a chunk to a stream of the host -/
def writeHost (w : World) (o : Output) (chunk : Bytes) : World :=
  match o with
  | .stdout => { w with hostOut := w.hostOut ++ chunk }
  | .stderr => { w with hostErr := w.hostErr ++ chunk }

end World

end LineShell
