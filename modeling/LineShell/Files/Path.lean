/-
Paths.

A path is a text; its parts are what stands between slashes. Empty parts mean nothing, and a slash at the end asks for
a directory, which is what a last part `.` asks for too.
-/

namespace LineShell.Path

/-- one more character in front of the parts -/
def splitStep (c : Char) : List (List Char) → List (List Char)
  | [] => [[c]]
  | p :: ps => if c = '/' then [] :: p :: ps else (c :: p) :: ps

/-- the parts between slashes, empty ones included -/
def split (cs : List Char) : List (List Char) := cs.foldr splitStep [[]]

/-- does the path start at the root? -/
def isAbsolute (path : String) : Bool := path.toList.head? == some '/'

/-- does the path end in a slash? -/
def endsInSlash (path : String) : Bool := path.toList.getLast? == some '/'

/-- the parts that name something -/
def names (path : String) : List String :=
  ((split path.toList).filter (!·.isEmpty)).map String.ofList

/-- the steps of a walk along the path: its names, and `.` for a slash at the end -/
def steps (path : String) : List String :=
  if endsInSlash path then names path ++ ["."] else names path

/-- `rest` seen from `base`: a `rest` that starts at the root stands for itself -/
def join (base rest : String) : String :=
  if isAbsolute rest then rest
  else if base.isEmpty || endsInSlash base then base ++ rest
  else base ++ "/" ++ rest

/-- the most bytes of a path, and of one of its parts -/
def maxSize : Nat := 4095

def maxNameSize : Nat := 255

end LineShell.Path
