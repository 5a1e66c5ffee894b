/-
A machine before anything has run on it.

The usual directories, the character devices, and the programs that children can be. A program lies in `/usr/bin`, and
its file holds the mark of an executable and the name of the program: what the program does is said elsewhere.
-/
import LineShell.World

namespace LineShell.Machine

/-- the directories, each behind the one that it lies in -/
def directories : List String :=
  ["/boot", "/dev", "/dev/shm", "/etc", "/home", "/media", "/mnt", "/opt", "/proc", "/root", "/run", "/srv", "/sys",
    "/tmp", "/usr", "/usr/bin", "/usr/include", "/usr/lib", "/usr/lib64", "/usr/local", "/usr/local/bin",
    "/usr/local/lib", "/usr/sbin", "/usr/share", "/usr/src", "/var", "/var/cache", "/var/lib", "/var/log", "/var/tmp"]

/-- the links -/
def links : List (String × String) :=
  [("/bin", "usr/bin"), ("/lib", "usr/lib"), ("/lib64", "usr/lib64"), ("/sbin", "usr/sbin"), ("/var/run", "/run")]

/-- the devices -/
def devices : List (String × Device) := [("/dev/null", .null), ("/dev/zero", .zero), ("/dev/full", .full)]

/-- the directories in which a program is looked for by name -/
def searchPath : List String :=
  ["/usr/local/sbin", "/usr/local/bin", "/usr/sbin", "/usr/bin", "/sbin", "/bin"]

/-- the programs, by name -/
def programs : List String :=
  ["[", "cat", "echo", "env", "false", "head", "printf", "pwd", "sed", "seq", "sh", "sleep", "sort", "tail", "test",
    "tr", "true", "wc", "yes"]

/-- the mark at the front of an executable file -/
def executableMark : Bytes := 0x7F :: Text.bytes "ELF"

/-- a tree with one more node, if there is room for it at the path -/
def place (t : FileTree) (path : String) (n : Inode → Node) : FileTree :=
  (t.createAt FileTree.root path n).toOption.getD t

/-- the files of the machine -/
def files : FileTree :=
  let t := directories.foldl (fun t p => place t p fun dir => .dir dir []) {}
  let t := links.foldl (fun t (p, target) => place t p fun _ => .link target) t
  let t := devices.foldl (fun t (p, d) => place t p fun _ => .device d) t
  programs.foldl (fun t p => place t s!"/usr/bin/{p}" fun _ => .file (executableMark ++ Text.bytes p) 0o755) t

/-- the environment in which a shell is started -/
def environment : List (String × String) := [("PATH", ":".intercalate searchPath), ("LC_ALL", "C")]

/-- the world of a machine on which a shell works in the new directory `dir` -/
def world (dir : String) : World :=
  let t := place files dir fun parent => .dir parent []
  { files := t, cwd := (t.resolve FileTree.root dir).toOption.getD FileTree.root, env := environment }

end LineShell.Machine
