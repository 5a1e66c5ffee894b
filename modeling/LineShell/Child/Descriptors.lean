/-
The descriptors that a child starts with.

A process finds its streams in a table of descriptors: numbers, what each refers to, and whether it is closed when the
process turns to another program. Between its start and its program a child copies given descriptors into the places
0, 1, 2, … of its table. The copies are made one after the other, and yet no copy may overwrite a descriptor that a
later one still reads. So a source that lies in one of the places is first copied out of them, to the lowest free
number above; then the places are filled; then every source is closed, once, however many places it fills.
-/

namespace LineShell

/-- an open descriptor -/
structure Entry (α : Type) where
  target : α
  /-- is it closed when the process turns to another program? -/
  closesOnExec : Bool
  deriving DecidableEq, Repr

/-- a table of open descriptors -/
structure Table (α : Type) where
  entries : List (Nat × Entry α)
  deriving Repr

namespace Table

variable {α : Type}

/-- the descriptor of a number -/
def get? (t : Table α) (n : Nat) : Option (Entry α) := t.entries.lookup n

/-- what the descriptor of a number refers to -/
def target? (t : Table α) (n : Nat) : Option α := (t.get? n).map (·.target)

/-- close a number, if it is open -/
def remove (t : Table α) (n : Nat) : Table α := ⟨t.entries.filter (·.1 != n)⟩

/-- open a number, or make it refer to something else -/
def put (t : Table α) (n : Nat) (e : Entry α) : Table α := ⟨(n, e) :: (t.remove n).entries⟩

/-- the first number from `n` on that is not open, looked for among `fuel` numbers -/
def firstFree (t : Table α) : (fuel n : Nat) → Nat
  | 0, n => n
  | fuel + 1, n => if (t.get? n).isSome then t.firstFree fuel (n + 1) else n

/-- the lowest number from `low` on that is not open; a table of k entries leaves one of any k + 1 numbers free -/
def lowestFree (t : Table α) (low : Nat) : Nat := t.firstFree t.entries.length low

/-- copy the descriptor `n` to the lowest free number from `low` on -/
def copyAbove (t : Table α) (low n : Nat) : Option (Nat × Table α) :=
  (t.get? n).map fun e =>
    let m := t.lowestFree low
    (m, t.put m ⟨e.target, true⟩)

/-- make `place` a copy of the descriptor `n`; a descriptor copied onto itself stays as it is -/
def copyOnto (t : Table α) (n place : Nat) : Option (Table α) :=
  (t.get? n).map fun e => if n = place then t else t.put place ⟨e.target, false⟩

/-! ## filling the places -/

/-- copy the sources that lie below `places` out of the way -/
def lift (places : Nat) : List (Option Nat) → Table α → Option (List (Option Nat) × Table α)
  | [], t => some ([], t)
  | none :: rest, t => (lift places rest t).map fun (rest, t) => (none :: rest, t)
  | some n :: rest, t =>
    if n < places then
      match t.copyAbove places n with
      | none => none
      | some (m, t) => (lift places rest t).map fun (rest, t) => (some m :: rest, t)
    else (lift places rest t).map fun (rest, t) => (some n :: rest, t)

/-- fill the places from `place` on -/
def fill : (place : Nat) → List (Option Nat) → Table α → Option (Table α)
  | _, [], t => some t
  | place, none :: rest, t => fill (place + 1) rest t
  | place, some n :: rest, t =>
    match t.copyOnto n place with
    | none => none
    | some t => fill (place + 1) rest t

/-- a table, and the numbers that were closed on the way to it, in order -/
structure Arranged (α : Type) where
  table : Table α
  closed : List Nat

/-- make the places 0, 1, 2, … refer to what the given descriptors refer to; a place for which none is given stays
as it is. It fails if one of them is not open. -/
def arrange (t : Table α) (streams : List (Option Nat)) : Option (Arranged α) :=
  match lift streams.length streams t with
  | none => none
  | some (sources, t) =>
    let closed := (sources.filterMap id).eraseDups
    (fill 0 sources t).map fun t => ⟨closed.foldl remove t, closed⟩

/-- the table after the process has turned to another program -/
def afterExec (t : Table α) : Table α := ⟨t.entries.filter (!·.2.closesOnExec)⟩

end Table

end LineShell
