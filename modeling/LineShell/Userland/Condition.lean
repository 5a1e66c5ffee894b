/-
Conditions on words and files: `test` and `[`.
-/
import LineShell.Child.Process

namespace LineShell.Userland.Condition

/-- a condition holds, does not hold, or cannot be told -/
abbrev Verdict := Except String Bool

/-- a number among the words of a condition -/
def number (s : String) : Except String Int :=
  match (if s.contains '_' then none else s.trimAscii.toString.toInt?) with
  | some n => .ok n
  | none => .error s!"Illegal number: {s}"

/-- what lies at a path, links followed unless `plain` -/
def nodeAt? (w : World) (path : String) (plain : Bool) : Option Node :=
  match w.files.walk w.cwd path (!plain) with
  | .ok (.found i) => w.files.node? i
  | _ => none

/-- a condition on one word; nothing is ever a terminal -/
def unary? (op : String) (s : String) (w : World) : Option Bool :=
  let node := nodeAt? w s false
  match op with
  | "-n" => some (!s.isEmpty)
  | "-z" => some s.isEmpty
  | "-t" => some false
  | "-e" => some node.isSome
  | "-r" => some node.isSome
  | "-w" => some node.isSome
  | "-f" => some (match node with
    | some (.file _ _) => true
    | _ => false)
  | "-d" => some (match node with
    | some (.dir _ _) => true
    | _ => false)
  | "-s" => some (match node with
    | some (.file content _) => !content.isEmpty
    | some (.dir _ _) => true
    | _ => false)
  | "-x" => some (match node with
    | some (.file _ mode) => mode &&& 0o111 != 0
    | some (.dir _ _) => true
    | _ => false)
  | "-L" => some (match nodeAt? w s true with
    | some (.link _) => true
    | _ => false)
  | "-h" => some (match nodeAt? w s true with
    | some (.link _) => true
    | _ => false)
  | _ => none

/-- a condition on two words -/
def binary? (op : String) (a b : String) : Option Verdict :=
  let compare (f : Int → Int → Bool) : Option Verdict := some (do return f (← number a) (← number b))
  match op with
  | "=" => some (.ok (a == b))
  | "==" => some (.ok (a == b))
  | "!=" => some (.ok (a != b))
  | "-eq" => compare fun x y => x == y
  | "-ne" => compare fun x y => x != y
  | "-lt" => compare fun x y => x < y
  | "-le" => compare fun x y => x ≤ y
  | "-gt" => compare fun x y => y < x
  | "-ge" => compare fun x y => y ≤ x
  | _ => none

/-- a condition on all its words -/
def eval (w : World) : List String → Verdict
  | [] => .ok false
  | [s] => .ok (!s.isEmpty)
  | ["!", s] => .ok s.isEmpty
  | [op, s] =>
    match unary? op s w with
    | some b => .ok b
    | none => .error s!"{op}: unexpected operator"
  | a :: op :: b :: rest =>
    match binary? op a b with
    | some v =>
      match rest with
      | [] => v
      | "-a" :: more => do return (← v) && (← eval w more)
      | "-o" :: more => do return (← v) || (← eval w more)
      | s :: _ => .error s!"{s}: unexpected operator"
    | none =>
      if a = "!" then do return !(← eval w (op :: b :: rest))
      else
        match unary? a op w with
        | some v =>
          if b = "-a" then do return v && (← eval w rest)
          else if b = "-o" then do return v || (← eval w rest)
          else .error s!"{b}: unexpected operator"
        | none => .error s!"{op}: unexpected operator"

end LineShell.Userland.Condition
