/-
Scripts do not tell whether they are captured.

What a script does is the same wherever its output goes: it ends with the status that it says, and only the contents of
files and the pipes can differ. So over the scripted backend a run that captures is answered like one that does not, as
long as no pipe is refused and no session's draining.

- `seen_runProgram`: a script that runs leaves what the shell sees of the world as it is.
- `keeps`: so every call keeps two runs of the same scripts alike.
- `indifferent`: the scripted backend is indifferent to capturing.
-/
import LineShell.Backend.Scripted
import LineShell.Proofs.Keeping

namespace LineShell

/-! ## scripts -/

namespace Scripted

theorem seen_writeTo (o : Output) (d : Option Descriptor) (bytes : Bytes) (w : World) :
    (writeTo o d bytes w).seen = w.seen := by
  cases d with
  | none => exact w.seen_writeHost o bytes
  | some d =>
    cases hwrite : w.write d bytes with
    | error e => simp only [writeTo, hwrite]; rfl
    | ok v =>
      simp only [writeTo, hwrite]
      exact World.seen_write hwrite

theorem seen_readAll (d : Descriptor) (w : World) : (readAll d w).2.seen = w.seen := by
  unfold readAll
  split
  · exact w.seen_advance _ _
  · rfl

theorem seen_closeAll (w : World) (ds : List Descriptor) : (w.closeAll ds).seen = w.seen :=
  World.seen_foldl World.seen_close ds

theorem seen_runProgram (w : World) (q : Queued) : (runProgram w q).seen = w.seen := by
  unfold runProgram
  simp only [seen_closeAll, seen_writeTo]
  split
  · split
    · exact seen_readAll _ w
    · rfl
  · rfl

theorem seen_runQueue (s : State) (w : World) : (runQueue s w).2.seen = w.seen :=
  World.seen_foldl seen_runProgram s.queue.reverse

theorem seen_collect (o : Output) (d : Descriptor) (w : World) : (collect o d w).2.seen = w.seen := seen_readAll d w

theorem pipe_eq {s : State} (hs : s.pipeRefusal = none) (w : World) :
    pipe s w = (.ok (w.addPipe (s.pipes + 1)).1, { s with pipes := s.pipes + 1 }, (w.addPipe (s.pipes + 1)).2) := by
  simp only [pipe, refused, hs, Option.filter_none, Option.map_none]

/-- two runs of the same scripts: the same programs have been started, the shell sees the same, no pipe is refused,
and in the second run no draining -/
structure Alike (c c' : State × World) : Prop where
  scripts : c'.1.scripts = c.1.scripts
  spawns : c'.1.spawns = c.1.spawns
  started : c'.1.started = c.1.started
  pipes : c.1.pipeRefusal = none
  pipes' : c'.1.pipeRefusal = none
  drains : c'.1.drainRefusal = none
  seen : c'.2.seen = c.2.seen

/-- two runs of the same scripts, in which children have the same numbers -/
def likeness : Likeness State := .level (fun _ => Alike) fun _ => Alike

namespace Alike

variable {c c' : State × World}

/-- the worlds are changed to ones in which the same is seen -/
theorem withWorlds (h : Alike c c') {v v' : World} (hseen : v'.seen = v.seen) : Alike (c.1, v) (c'.1, v') :=
  ⟨h.scripts, h.spawns, h.started, h.pipes, h.pipes', h.drains, hseen⟩

theorem pipe (h : Alike c c') : Alike (Scripted.pipe c.1 c.2).2 (Scripted.pipe c'.1 c'.2).2 := by
  rw [pipe_eq h.pipes, pipe_eq h.pipes']
  exact ⟨h.scripts, h.spawns, h.started, h.pipes, h.pipes', h.drains, h.seen⟩

theorem pipe_second (h : Alike c c') : Alike c (Scripted.pipe c'.1 c'.2).2 := by
  rw [pipe_eq h.pipes']
  exact ⟨h.scripts, h.spawns, h.started, h.pipes, h.pipes', h.drains, h.seen⟩

theorem runQueue (h : Alike c c') : Alike (Scripted.runQueue c.1 c.2) (Scripted.runQueue c'.1 c'.2) :=
  ⟨h.scripts, h.spawns, h.started, h.pipes, h.pipes', h.drains, by rw [seen_runQueue, seen_runQueue, h.seen]⟩

theorem drain (h : Alike c c') (ends : ParentEnds) (hends : ends.stdin = none) :
    (Scripted.drain ends none c'.1 c'.2).1.result = .ok () ∧ Alike c (Scripted.drain ends none c'.1 c'.2).2 := by
  have hgoes : refused c'.1.drainRefusal (c'.1.drains + 1) = none := by
    rw [h.drains]
    rfl
  simp only [Scripted.drain, hgoes, hends]
  refine ⟨trivial, h.scripts, h.spawns, h.started, h.pipes, h.pipes', h.drains, ?_⟩
  rw [seen_collect, seen_collect, seen_runQueue, h.seen]

/-- a program is started in both runs with the same number, or refused in both -/
theorem spawn (h : Alike c c') {r r' : SpawnRequest} (hargv : r'.argv = r.argv) :
    Alike (Scripted.spawn r c.1 c.2).2 (Scripted.spawn r' c'.1 c'.2).2 ∧
      (Scripted.spawn r' c'.1 c'.2).1 = (Scripted.spawn r c.1 c.2).1 := by
  have hscript : c'.1.script r'.program = c.1.script r.program := by
    simp only [State.script, SpawnRequest.program, h.scripts, hargv]
  simp only [Scripted.spawn, hscript]
  split
  · exact ⟨h, rfl⟩
  · refine ⟨⟨h.scripts, congrArg (· + 1) h.spawns, ?_, h.pipes, h.pipes', h.drains, ?_⟩, by rw [h.spawns]⟩
    · rw [h.spawns, h.started]
    · simp only [World.seen_foldl World.seen_duplicate, h.seen]

/-- a program that has been waited for answers alike -/
theorem wait (h : Alike c c') (pid : Pid) :
    (Scripted.wait pid c'.1 c'.2).1 = (Scripted.wait pid c.1 c.2).1 ∧
      Alike (Scripted.wait pid c.1 c.2).2 (Scripted.wait pid c'.1 c'.2).2 := by
  have hrun := h.runQueue
  simp only [Scripted.wait, hrun.started]
  exact ⟨trivial, hrun⟩

end Alike

/-- every call keeps two runs of the same scripts alike -/
theorem keeps : backend.Keeps (fun _ => Alike) fun _ => Alike where
  seen h := h.seen
  changed h hseen := h.withWorlds hseen
  piped {_ c c'} h := by
    refine ⟨_, _, congrArg Prod.fst (pipe_eq h.pipes c.2), congrArg Prod.fst (pipe_eq h.pipes' c'.2), ?_, h.pipe⟩
    change World.Receives (pipe c.1 c.2).2.2 (pipe c'.1 c'.2).2.2 _ _
    rw [pipe_eq h.pipes, pipe_eq h.pipes']
    exact (World.takes_addPipe c.2 _).receives (World.takes_addPipe c'.2 _)
  endPiped {_ c c'} h := ⟨_, congrArg Prod.fst (pipe_eq h.pipes' c'.2), h.pipe_second⟩
  spawned h hargv _ := ⟨(h.spawn hargv).2, (h.spawn hargv).1⟩
  detached _ h := h.runQueue
  drained ends hstdin h := h.drain ends hstdin
  shut h hseen := h.withWorlds (hseen.trans h.seen)
  waited pid h := h.wait pid
  settled h := h

/-- **Scripts do not tell whether they are captured.** -/
theorem indifferent : backend.Indifferent likeness := keeps.indifferent

end Scripted

end LineShell
