/-
Clearing away children that have ended.

A child that has ended is kept by the system until somebody asks how. The shell asks for each child that it waits for,
and has to see to the others, those that it has let go. Such a child is recorded in a table of `slotCount` slots, which
is gone through whenever any child ends, and, where the table is full, in an overflow list, which is gone through
whenever a child is started. A child that is waited for is in neither, so that nobody else takes its status away.
-/
import LineShell.Backend

namespace LineShell

/-- how far a child has come -/
inductive Life where
  | running
  /-- it has ended with this status, and nobody has asked -/
  | exited (status : Int)
  /-- it has ended, and somebody has asked -/
  | reaped
  deriving DecidableEq, Repr

/-- a child that has ended counts as asked for -/
def Life.ask : Life → Life
  | .exited _ => .reaped
  | l => l

/-- the number of slots -/
def Reaper.slotCount : Nat := 64

/-- the children, and the records of those that were let go -/
structure Reaper where
  children : List (Pid × Life) := []
  slots : List (Option Pid) := List.replicate Reaper.slotCount none
  overflow : List Pid := []
  /-- are the slots gone through when a child ends? -/
  watching : Bool := false
  deriving Repr

namespace Reaper

/-- how far a child has come; one that is not known is no child any more -/
def life (r : Reaper) (pid : Pid) : Life := (r.children.lookup pid).getD .reaped

/-- has a child ended? -/
def isGone (r : Reaper) (pid : Pid) : Bool := r.life pid != .running

/-- ask for those children of a list that have ended -/
def ask (r : Reaper) (pids : List Pid) : Reaper :=
  { r with children := r.children.map fun (p, l) => (p, if pids.contains p then Life.ask l else l) }

/-- go through the overflow list -/
def sweep (r : Reaper) : Reaper :=
  { r.ask r.overflow with overflow := r.overflow.filter (!r.isGone ·) }

/-- go through the slots -/
def reapRegistered (r : Reaper) : Reaper :=
  { r.ask (r.slots.filterMap id) with slots := r.slots.map (·.filter (!r.isGone ·)) }

/-- put a child into the first free slot, if there is one -/
def occupy (pid : Pid) : List (Option Pid) → Option (List (Option Pid))
  | [] => none
  | none :: rest => some (some pid :: rest)
  | some p :: rest => (occupy pid rest).map (some p :: ·)

/-- record a child -/
def register (r : Reaper) (pid : Pid) : Reaper :=
  match occupy pid r.slots with
  | some slots => { r with slots }
  | none => { r with overflow := r.overflow ++ [pid] }

/-! ## what happens to children -/

/-- a child is started -/
def spawn (r : Reaper) (pid : Pid) : Reaper :=
  let r := r.sweep
  { r with children := (pid, .running) :: r.children }

/-- a child ends -/
def exit (r : Reaper) (pid : Pid) (status : Int) : Reaper :=
  let r := { r with children := r.children.map fun (p, l) =>
    (p, if p = pid ∧ l = Life.running then .exited status else l) }
  if r.watching then r.reapRegistered else r

/-- a child is let go -/
def detach (r : Reaper) (pid : Pid) : Reaper :=
  ({ r with watching := true }.register pid).reapRegistered

/-- what waiting for a child comes to -/
inductive Waited where
  | status (n : Int)
  /-- there is no such child any more -/
  | noChild
  | stillRunning
  deriving DecidableEq, Repr

/-- a child is waited for -/
def wait (r : Reaper) (pid : Pid) : Waited × Reaper :=
  match r.life pid with
  | .running => (.stillRunning, r)
  | .exited n => (.status n, r.ask [pid])
  | .reaped => (.noChild, r)

end Reaper

end LineShell
