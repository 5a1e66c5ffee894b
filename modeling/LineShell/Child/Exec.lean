/-
Finding the program that a command names.

A name with a slash in it is a path; any other name is looked for in the directories of the search path, and the first
file there that can be run is the program. A file is run as what it is: a program, a script for the interpreter that its
first line names, or a text without a mark, which is a script for the shell.

Failures have an order. A missing file makes the search go on, and so does one that may not be run, but that one is
remembered; any other failure ends the search.
-/
import LineShell.Machine

namespace LineShell.Exec

/-- what a file is when it is run -/
inductive Image where
  | program (name : String)
  /-- a script, and the words that run it -/
  | script (interpreter : List String)
  | unmarked
  deriving DecidableEq, Repr

/-- the mark in front of an interpreter's name -/
def scriptMark : Bytes := Text.bytes "#!"

/-- the words on the first line behind a script's mark: the interpreter, and all else as one word -/
def interpreterWords (line : String) : List String :=
  let cs := line.toList.dropWhile (· == ' ')
  let name := cs.takeWhile (· != ' ')
  let rest := ((cs.drop name.length).dropWhile (· == ' '))
  String.ofList name :: if rest.isEmpty then [] else [String.ofList rest]

/-- what a content is when it is run -/
def imageOf (content : Bytes) : Image :=
  if Machine.executableMark.isPrefixOf content then
    .program (Utf8.lossy (content.drop Machine.executableMark.length))
  else if scriptMark.isPrefixOf content then
    .script (interpreterWords (Utf8.lossy ((content.drop scriptMark.length).takeWhile (· != 10))))
  else .unmarked

/-- the file at a path, as what it is when it is run -/
def imageAt (w : World) (path : String) : Except Errno Image :=
  match w.files.resolve w.cwd path with
  | .error e => .error e
  | .ok i =>
    match w.files.node? i with
    | some (.file content mode) => if mode &&& 0o111 = 0 then .error .noAccess else .ok (imageOf content)
    | _ => .error .noAccess

/-- a program that was found: where it lies, and what it is -/
structure Found where
  path : String
  image : Image
  deriving DecidableEq, Repr

/-- look in directories for a program; `refused` says that one was found that may not be run -/
def search (w : World) (name : String) (refused : Bool) : List String → Except Errno Found
  | [] => .error (if refused then .noAccess else .noEntry)
  | dir :: dirs =>
    let path := if dir.isEmpty then name else Path.join dir name
    match imageAt w path with
    | .ok image => .ok ⟨path, image⟩
    | .error e =>
      if e = Errno.noEntry ∨ e = Errno.notDirectory then search w name refused dirs
      else if e = Errno.noAccess then search w name true dirs
      else .error e

/-- the directories in which programs are looked for -/
def directories (w : World) : List String :=
  match w.getEnv? "PATH" with
  | some path => path.splitOn ":"
  | none => ["/bin", "/usr/bin"]

/-- the most bytes of one word, the NUL behind it counted -/
def maxWordSize : Nat := 131072

/-- the most bytes of all words together, with what it takes to point at them -/
def maxWordsSize : Nat := 2097152

/-- are the words not too long for a process? -/
def wordsFit (argv : List String) : Bool :=
  argv.all (fun a => a.utf8ByteSize + 1 ≤ maxWordSize) &&
    (argv.map fun a => a.utf8ByteSize + 9).foldl (· + ·) 0 ≤ maxWordsSize

/-- find the program that the first word names -/
def find (w : World) (argv : List String) : Except Errno Found :=
  let name := argv.head?.getD ""
  if name.isEmpty then .error .noEntry
  else if !wordsFit argv then .error .argumentsTooLong
  else if name.contains '/' then (imageAt w name).map (⟨name, ·⟩)
  else if name.utf8ByteSize > Path.maxNameSize then .error .nameTooLong
  else search w name false (directories w)

end LineShell.Exec
