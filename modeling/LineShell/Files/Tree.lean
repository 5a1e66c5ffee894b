/-
A tree of files.

Files are numbered, and a directory lists names with numbers, so that a file may outlive its name: it then keeps its
content for whoever has it open, and a directory keeps the directory that it lay in. Number 0 is the root.

`walk` follows a path. It passes through symbolic links on the way and, if asked, at the end; the number of links that
one walk may pass is bounded, which is also why a walk ends. What it arrives at is a file, or a free name in a directory
where a file could be created.
-/
import LineShell.Errno
import LineShell.Files.Path
import LineShell.Text.Bytes

namespace LineShell

/-- a file, by number -/
abbrev Inode := Nat

/-- the character devices -/
inductive Device where
  | null
  | zero
  | full
  deriving DecidableEq, Repr

/-- what lies under a number -/
inductive Node where
  /-- a directory: the directory it lies in, and its names -/
  | dir (parent : Inode) (entries : List (String × Inode))
  | file (content : Bytes) (mode : Nat)
  | link (target : String)
  | device (device : Device)
  deriving DecidableEq, Repr

/-- the files, by number -/
structure FileTree where
  nodes : Array Node := #[.dir 0 []]
  deriving DecidableEq, Repr

namespace FileTree

/-- the root directory -/
def root : Inode := 0

/-- what lies under a number -/
def node? (t : FileTree) (i : Inode) : Option Node := t.nodes[i]?

/-- put something else under a number -/
def setNode (t : FileTree) (i : Inode) (n : Node) : FileTree := ⟨t.nodes.setIfInBounds i n⟩

/-- put something under a new number -/
def addNode (t : FileTree) (n : Node) : Inode × FileTree := (t.nodes.size, ⟨t.nodes.push n⟩)

/-- is the number a directory? -/
def isDir (t : FileTree) (i : Inode) : Bool :=
  match t.node? i with
  | some (.dir _ _) => true
  | _ => false

/-! ## walking along a path -/

/-- where a walk arrives -/
inductive Place where
  | found (i : Inode)
  /-- nothing has the name `name` in the directory `dir` -/
  | free (dir : Inode) (name : String)
  deriving DecidableEq, Repr

/-- the most links that one walk passes -/
def maxLinks : Nat := 40

/-- walk from `pos` along `steps`; `pass` continues the walk behind a link, from the directory that the link lies in -/
def walkFrom (t : FileTree) (followLast : Bool) (pass : Inode → List String → Except Errno Place) :
    (pos : Inode) → (steps : List String) → Except Errno Place
  | pos, [] => .ok (.found pos)
  | pos, name :: rest =>
    match t.node? pos with
    | some (.dir parent entries) =>
      if name = "." then walkFrom t followLast pass pos rest
      else if name = ".." then walkFrom t followLast pass parent rest
      else if name.utf8ByteSize > Path.maxNameSize then .error .nameTooLong
      else match entries.lookup name with
        | none => if rest.isEmpty then .ok (.free pos name) else .error .noEntry
        | some i =>
          match t.node? i with
          | some (.link target) =>
            if rest.isEmpty && !followLast then .ok (.found i)
            else if target.isEmpty then .error .noEntry
            else pass (if Path.isAbsolute target then root else pos) (Path.steps target ++ rest)
          | _ => walkFrom t followLast pass i rest
    | _ => .error .notDirectory

/-- walk past at most `links` links -/
def walkWithin (t : FileTree) (followLast : Bool) : (links : Nat) → Inode → List String → Except Errno Place
  | 0 => t.walkFrom followLast fun _ _ => .error .tooManyLinks
  | links + 1 => t.walkFrom followLast (t.walkWithin followLast links)

/-- walk from the directory `cwd` along a path; `steps` are the steps that the path asks for -/
def walkSteps (t : FileTree) (cwd : Inode) (path : String) (steps : List String) (followLast : Bool) :
    Except Errno Place :=
  if path.isEmpty then .error .noEntry
  else if path.utf8ByteSize > Path.maxSize then .error .nameTooLong
  else t.walkWithin followLast maxLinks (if Path.isAbsolute path then root else cwd) steps

/-- walk from the directory `cwd` along a path -/
def walk (t : FileTree) (cwd : Inode) (path : String) (followLast : Bool) : Except Errno Place :=
  t.walkSteps cwd path (Path.steps path) followLast

/-- the file that a path leads to, links followed -/
def resolve (t : FileTree) (cwd : Inode) (path : String) : Except Errno Inode :=
  match t.walk cwd path true with
  | .ok (.found i) => .ok i
  | .ok (.free _ _) => .error .noEntry
  | .error e => .error e

/-! ## names -/

/-- does its directory still list the directory `i`? -/
def isLinked (t : FileTree) (i : Inode) : Bool :=
  i == root ||
  match t.node? i with
  | some (.dir parent _) =>
    match t.node? parent with
    | some (.dir _ entries) => entries.any (·.2 == i)
    | _ => false
  | _ => false

/-- the names from the root to the directory `i`, in front of `below`; a climb takes at most `fuel` steps -/
def namesTo (t : FileTree) : (fuel : Nat) → Inode → (below : List String) → Option (List String)
  | 0, _, _ => none
  | fuel + 1, i, below =>
    if i = root then some below
    else match t.node? i with
      | some (.dir parent _) =>
        match t.node? parent with
        | some (.dir _ entries) =>
          match entries.find? (·.2 == i) with
          | some (name, _) => namesTo t fuel parent (name :: below)
          | none => none
        | _ => none
      | _ => none

/-- the path of a directory, unless it or a directory above it has lost its name -/
def pathOf? (t : FileTree) (i : Inode) : Option String :=
  (t.namesTo (t.nodes.size + 1) i []).map fun names => "/" ++ "/".intercalate names

/-- give the node `i` the name `name` in the directory `dir` -/
def link (t : FileTree) (dir : Inode) (name : String) (i : Inode) : FileTree :=
  match t.node? dir with
  | some (.dir parent entries) => t.setNode dir (.dir parent (entries ++ [(name, i)]))
  | _ => t

/-- take the name `name` out of the directory `dir` -/
def unlink (t : FileTree) (dir : Inode) (name : String) : FileTree :=
  match t.node? dir with
  | some (.dir parent entries) => t.setNode dir (.dir parent (entries.filter (·.1 != name)))
  | _ => t

/-- create a node under a free name -/
def create (t : FileTree) (dir : Inode) (name : String) (n : Node) : Except Errno (Inode × FileTree) :=
  if t.isLinked dir then
    let (i, t) := t.addNode n
    .ok (i, t.link dir name i)
  else .error .noEntry

/-- create a node at a path where nothing lies yet -/
def createAt (t : FileTree) (cwd : Inode) (path : String) (n : Inode → Node) : Except Errno FileTree :=
  match t.walkSteps cwd path (Path.names path) false with
  | .ok (.free dir name) => (t.create dir name (n dir)).map (·.2)
  | .ok (.found _) => .error .alreadyExists
  | .error e => .error e

/-- create a directory -/
def makeDir (t : FileTree) (cwd : Inode) (path : String) : Except Errno FileTree :=
  t.createAt cwd path fun dir => .dir dir []

/-- create a symbolic link -/
def makeLink (t : FileTree) (cwd : Inode) (path target : String) : Except Errno FileTree :=
  t.createAt cwd path fun _ => .link target

/-- the directory and the name under which a path's last name is looked up -/
def parentOf (t : FileTree) (cwd : Inode) (path : String) : Except Errno (Inode × String) :=
  match (Path.names path).getLast? with
  | none => .error .invalidArgument
  | some name =>
    match t.walkSteps cwd path ((Path.names path).dropLast) true with
    | .ok (.found dir) => .ok (dir, name)
    | .ok (.free _ _) => .error .noEntry
    | .error e => .error e

/-- remove an empty directory -/
def removeDir (t : FileTree) (cwd : Inode) (path : String) : Except Errno FileTree := do
  let (dir, name) ← t.parentOf cwd path
  match t.node? dir with
  | some (.dir _ entries) =>
    match entries.lookup name with
    | none => .error .noEntry
    | some i =>
      match t.node? i with
      | some (.dir _ []) => .ok (t.unlink dir name)
      | some (.dir _ _) => .error .notEmpty
      | _ => .error .notDirectory
  | _ => .error .notDirectory

/-- remove a file or a link -/
def removeFile (t : FileTree) (cwd : Inode) (path : String) : Except Errno FileTree := do
  let (dir, name) ← t.parentOf cwd path
  match t.node? dir with
  | some (.dir _ entries) =>
    match entries.lookup name with
    | none => .error .noEntry
    | some i => if t.isDir i then .error .isDirectory else .ok (t.unlink dir name)
  | _ => .error .notDirectory

/-! ## listing -/

/-- everything below the directory `i`, each node with its path behind `above`; at most `depth` levels -/
def listBelow (t : FileTree) : (depth : Nat) → Inode → (above : String) → List (String × Node)
  | 0, _, _ => []
  | depth + 1, i, above =>
    match t.node? i with
    | some (.dir _ entries) => entries.flatMap fun (name, j) =>
      match t.node? j with
      | some n => (above ++ name, n) :: t.listBelow depth j (above ++ name ++ "/")
      | none => []
    | _ => []

/-- everything below a directory, by path -/
def list (t : FileTree) (i : Inode) : List (String × Node) :=
  (t.listBelow t.nodes.size i "").mergeSort fun a b => !(b.1 < a.1)

end FileTree

end LineShell
