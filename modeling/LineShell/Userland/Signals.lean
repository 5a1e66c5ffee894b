/-
Signals, by number.
-/

namespace LineShell.Userland.Signals

/-- the names of the signals from number 1 on -/
def names : List String :=
  ["HUP", "INT", "QUIT", "ILL", "TRAP", "ABRT", "BUS", "FPE", "KILL", "USR1", "SEGV", "USR2", "PIPE", "ALRM", "TERM",
    "STKFLT", "CHLD", "CONT", "STOP", "TSTP", "TTIN", "TTOU", "URG", "XCPU", "XFSZ", "VTALRM", "PROF", "WINCH", "IO",
    "PWR", "SYS"]

/-- the signal that ends a process unless it is told otherwise -/
def term : Nat := 15

/-- the signals that have no effect unless a process asks for them -/
def harmless : List Nat := [17, 18, 23, 28]

/-- the signals that no process can ignore -/
def unstoppable : List Nat := [9, 19]

/-- the number of a signal, given by name or by number; `EXIT` is number 0 -/
def number? (s : String) : Option Nat :=
  match s.toNat? with
  | some n => if n ≤ 64 then some n else none
  | none =>
    if s = "EXIT" then some 0
    else (names.findIdx? (· == s)).map (· + 1)

end LineShell.Userland.Signals
