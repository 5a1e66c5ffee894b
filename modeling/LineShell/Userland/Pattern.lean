/-
Basic regular expressions on bytes, without groups.

A pattern is a list of items, each an atom and how often it may occur. Matching takes the longest run that an item can
have and gives back bytes of it as long as the rest does not match; the first match is the leftmost one.
-/
import LineShell.Userland.ByteMap

namespace LineShell.Userland

/-- what matches one byte -/
inductive Atom where
  | byte (b : UInt8)
  | any
  | set (negated : Bool) (bytes : Bytes)
  deriving DecidableEq, Repr

/-- does the atom match the byte? -/
def Atom.accepts (a : Atom) (b : UInt8) : Bool :=
  match a with
  | byte c => b == c
  | any => true
  | set negated bytes => bytes.contains b != negated

/-- an atom, and how often it may occur -/
structure Item where
  atom : Atom
  least : Nat := 1
  most : Option Nat := some 1
  deriving DecidableEq, Repr

/-- a pattern, perhaps tied to the start or the end of a line -/
structure Pattern where
  atStart : Bool := false
  items : List Item := []
  atEnd : Bool := false
  deriving DecidableEq, Repr

namespace Pattern

/-- how many bytes at the front the items match -/
def matchItems (atEnd : Bool) : List Item → Bytes → Option Nat
  | [], bs => if atEnd && !bs.isEmpty then none else some 0
  | i :: rest, bs =>
    let run := (bs.takeWhile i.atom.accepts).length
    let most := match i.most with
      | some m => min m run
      | none => run
    if most < i.least then none
    else ((List.range (most - i.least + 1)).findSome? fun back =>
      let n := most - back
      (matchItems atEnd rest (bs.drop n)).map (n + ·))

/-- how many bytes the pattern matches right here; `front` says that this is the start of the line -/
def matchHere (p : Pattern) (front : Bool) (bs : Bytes) : Option Nat :=
  if p.atStart && !front then none else matchItems p.atEnd p.items bs

/-- does the pattern match anywhere in the line? -/
def occurs (p : Pattern) : (front : Bool) → Bytes → Bool
  | front, [] => (p.matchHere front []).isSome
  | front, b :: bs => (p.matchHere front (b :: bs)).isSome || p.occurs false bs

/-! ## reading a pattern -/

/-- read a bracket expression whose bracket has been read -/
def readSet (cs : List Char) : Option (Atom × List Char) :=
  let (negated, cs) := match cs with
    | '^' :: rest => (true, rest)
    | cs => (false, cs)
  let (first, cs) := match cs with
    | ']' :: rest => ([']'], rest)
    | cs => ([], cs)
  let rec body (depth : Nat) (acc : List Char) : List Char → Option (List Char × List Char)
    | [] => none
    | '[' :: ':' :: rest => body (depth + 1) (':' :: '[' :: acc) rest
    | ']' :: rest => if depth = 0 then some (acc.reverse, rest) else body (depth - 1) (']' :: acc) rest
    | c :: rest => body depth (c :: acc) rest
  (body 0 first cs).map fun (inner, rest) => (.set negated (byteSet (String.ofList inner)), rest)

/-- change how often the item read last may occur -/
def repeated (items : List Item) (least : Nat) (most : Option Nat) : List Item :=
  match items with
  | i :: rest => { i with least, most } :: rest
  | [] => []

/-- read items, behind those already read, newest first; `extended` puts `+` and `?` without a backslash -/
def readItems (extended : Bool) : (fuel : Nat) → (found : List Item) → List Char → Option (List Item × Bool)
  | 0, _, _ => none
  | _ + 1, found, [] => some (found.reverse, false)
  | fuel + 1, found, cs =>
    match cs with
    | ['$'] => some (found.reverse, true)
    | '*' :: rest =>
      if found.isEmpty then readItems extended fuel [⟨.byte 42, 1, some 1⟩] rest
      else readItems extended fuel (repeated found 0 none) rest
    | '\\' :: c :: rest =>
      if !extended && c = '+' then readItems extended fuel (repeated found 1 none) rest
      else if !extended && c = '?' then readItems extended fuel (repeated found 0 (some 1)) rest
      else
        let b := if c = 'n' then 10 else if c = 't' then 9 else UInt8.ofNat c.toNat
        readItems extended fuel (⟨.byte b, 1, some 1⟩ :: found) rest
    | '.' :: rest => readItems extended fuel (⟨.any, 1, some 1⟩ :: found) rest
    | '[' :: rest =>
      match readSet rest with
      | none => none
      | some (a, rest) => readItems extended fuel (⟨a, 1, some 1⟩ :: found) rest
    | c :: rest =>
      if extended && c = '+' then readItems extended fuel (repeated found 1 none) rest
      else if extended && c = '?' then readItems extended fuel (repeated found 0 (some 1)) rest
      else
        readItems extended fuel ((Text.bytes c.toString).reverse.map (fun b => ⟨.byte b, 1, some 1⟩) ++ found) rest
    | [] => some (found.reverse, false)

/-- read a pattern -/
def read? (extended : Bool) (cs : List Char) : Option Pattern :=
  let (atStart, cs) := match cs with
    | '^' :: rest => (true, rest)
    | cs => (false, cs)
  (readItems extended (cs.length + 1) [] cs).map fun (items, atEnd) => { atStart, items, atEnd }

/-! ## replacing -/

/-- what stands for a match: bytes, or the match itself -/
inductive Piece where
  | bytes (bs : Bytes)
  | whole
  deriving DecidableEq, Repr

/-- what a replacement comes to for one match -/
def fillIn (pieces : List Piece) (found : Bytes) : Bytes :=
  pieces.flatMap fun p => match p with
    | .bytes bs => bs
    | .whole => found

/-- replace matches from the number `nth` on, only that one unless `all`; `seen` matches lie in front. Right behind a
match there is no empty one: `behind` says that a match ends here. -/
def replaceFrom (p : Pattern) (pieces : List Piece) (nth : Nat) (all : Bool) :
    (fuel : Nat) → (front behind : Bool) → (seen : Nat) → (out : Array UInt8) → Bytes → Array UInt8 × Bool
  | 0, _, _, _, out, bs => (out ++ bs, false)
  | fuel + 1, front, behind, seen, out, bs =>
    match (p.matchHere front bs).filter fun n => 0 < n || !behind with
    | some n =>
      let found := bs.take n
      let hit := seen + 1 == nth || (all && nth ≤ seen + 1)
      let out := out ++ (if hit then fillIn pieces found else found)
      let rest := bs.drop n
      if hit && !all then (out ++ rest, true)
      else
        let (out, later) := match n, rest with
          | 0, b :: rest => replaceFrom p pieces nth all fuel false false (seen + 1) (out.push b) rest
          | 0, [] => (out, false)
          | _, rest => replaceFrom p pieces nth all fuel false true (seen + 1) out rest
        (out, hit || later)
    | none =>
      match bs with
      | [] => (out, false)
      | b :: rest => replaceFrom p pieces nth all fuel false false seen (out.push b) rest

/-- a line with matches replaced, and whether any was -/
def replace (p : Pattern) (pieces : List Piece) (nth : Nat) (all : Bool) (line : Bytes) : Bytes × Bool :=
  let (out, hit) := replaceFrom p pieces nth all (2 * line.length + 2) true false 0 #[] line
  (out.toList, hit)

end Pattern

end LineShell.Userland
