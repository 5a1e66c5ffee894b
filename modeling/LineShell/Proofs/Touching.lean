/-
Programs that make files.

What a program does to files it does when it runs, and that is earlier if its output is captured: draining a session
lets the children run, and without one they run when they are waited for. In between the worlds of the two runs
differ. Over a backend whose programs each make the file that they name, both worlds hold the same files once all
children of a group have been waited for.

- `touch_alike`: where the shell sees the same, a program leaves it seeing the same.
- `indifferent`: the backend is indifferent to capturing.
-/
import LineShell.Proofs.Keeping

namespace LineShell.Touching

/-- the backend: how many pipes it has made, how many programs it has started, and those that have not run yet -/
structure State where
  pipes : Nat := 0
  spawns : Nat := 0
  queue : List (List String) := []

/-- the tree behind a program: the file that its last argument names has been made, or emptied -/
def made (t : FileTree) (cwd : Inode) (argv : List String) : FileTree :=
  match World.prepareWrite t cwd (argv.getLast?.getD "") World.redirectMode with
  | .ok (_, t) => t
  | .error _ => t

/-- run a program -/
def touch (w : World) (argv : List String) : World := { w with files := made w.files w.cwd argv }

/-- run all programs that have not run yet -/
def run (c : State × World) : State × World := ({ c.1 with queue := [] }, c.1.queue.foldl touch c.2)

/-- the backend; every program ends with status 0, and nothing is refused -/
def backend : Backend State where
  pipe s w := let (p, w) := w.addPipe (s.pipes + 1); (.ok p, { s with pipes := s.pipes + 1 }, w)
  spawn r s w := (.ok s.spawns, { s with spawns := s.spawns + 1, queue := s.queue ++ [r.argv] }, w)
  drain _ _ s w := (⟨[], .ok ()⟩, run (s, w))
  wait _ s w := (.ok 0, run (s, w))
  detach _ s w := run (s, w)

theorem made_outline (t : FileTree) (cwd : Inode) (argv : List String) :
    made t.outline cwd argv = (made t cwd argv).outline := by
  unfold made
  rw [World.prepareWrite_outline]
  cases World.prepareWrite t cwd (argv.getLast?.getD "") World.redirectMode <;> rfl

/-- where the shell sees the same, a program leaves it seeing the same -/
theorem touch_alike {w w' : World} (h : w'.seen = w.seen) (argv : List String) :
    (touch w' argv).seen = (touch w argv).seen := by
  simp only [World.seen, touch, ← made_outline, World.outline_eq_of_seen h, World.cwd_eq_of_seen h,
    World.env_eq_of_seen h]

theorem foldl_touch_alike (queue : List (List String)) {w w' : World} (h : w'.seen = w.seen) :
    (queue.foldl touch w').seen = (queue.foldl touch w).seen := by
  induction queue generalizing w w' with
  | nil => exact h
  | cons argv queue ih => exact ih (touch_alike h argv)

/-- a backend that has run all its programs has nothing more to run -/
theorem run_of_idle {c : State × World} (h : c.1.queue = []) : (run c).2 = c.2 := by
  rw [run, h]
  rfl

/-- two runs that have started the same programs, of which the same have run; without a child to wait for all of them
have -/
structure Alike (pids : List Pid) (c c' : State × World) : Prop where
  spawns : c'.1.spawns = c.1.spawns
  queue : c'.1.queue = c.1.queue
  idle : pids = [] → c.1.queue = []
  seen : c'.2.seen = c.2.seen

/-- two runs that have started the same programs, all of which have run in the second: the first sees the same as that
when it has run them, too -/
structure Ahead (pids : List Pid) (c c' : State × World) : Prop where
  spawns : c'.1.spawns = c.1.spawns
  queue : c'.1.queue = []
  idle : pids = [] → c.1.queue = []
  seen : c'.2.seen = (run c).2.seen

variable {pids : List Pid} {c c' : State × World}

/-- all programs run in both runs -/
theorem Alike.run (h : Alike pids c c') (pids' : List Pid) : Alike pids' (Touching.run c) (Touching.run c') := by
  refine ⟨h.spawns, rfl, fun _ => rfl, ?_⟩
  simp only [Touching.run, h.queue]
  exact foldl_touch_alike _ h.seen

/-- all programs run in the second run alone -/
theorem Alike.ahead (h : Alike pids c c') : Ahead pids c (Touching.run c') :=
  ⟨h.spawns, rfl, h.idle, (h.run pids).seen⟩

/-- all programs run in the first run, too; in the second there is nothing more to run -/
theorem Ahead.run {pid : Pid} (h : Ahead (pid :: pids) c c') : Ahead pids (Touching.run c) (Touching.run c') := by
  refine ⟨h.spawns, rfl, fun _ => rfl, ?_⟩
  rw [run_of_idle h.queue, run_of_idle (c := Touching.run c) rfl, h.seen]

theorem keeps : backend.Keeps Alike Ahead where
  seen h := h.seen
  changed h hseen := ⟨h.spawns, h.queue, h.idle, hseen⟩
  piped {_ c c'} h :=
    ⟨_, _, rfl, rfl, (World.takes_addPipe c.2 _).receives (World.takes_addPipe c'.2 _),
      h.spawns, h.queue, h.idle, h.seen⟩
  endPiped {_ c c'} h := ⟨_, rfl, h.spawns, h.queue, h.idle, h.seen⟩
  spawned {pids c c' r r'} h hargv _ := by
    refine ⟨congrArg Except.ok h.spawns, congrArg (· + 1) h.spawns, ?_, fun hpids => ?_, h.seen⟩
    · exact congrArg₂ (fun queue argv => queue ++ [argv]) h.queue hargv
    · exact absurd hpids (List.append_ne_nil_of_right_ne_nil _ (List.cons_ne_nil _ _))
  detached _ h := h.run _
  drained _ _ h := ⟨rfl, h.ahead⟩
  shut h hseen := ⟨h.spawns, h.queue, h.idle, hseen.trans h.seen⟩
  waited _ h := ⟨rfl, h.run⟩
  settled h := by
    refine ⟨h.spawns, h.queue.trans (h.idle rfl).symm, h.idle, ?_⟩
    rw [h.seen, run_of_idle (h.idle rfl)]

/-- two runs over this backend -/
def likeness : Likeness State := .level Alike Ahead

/-- **Programs that make files do not tell whether they are captured.** -/
theorem indifferent : backend.Indifferent likeness := keeps.indifferent

end LineShell.Touching
