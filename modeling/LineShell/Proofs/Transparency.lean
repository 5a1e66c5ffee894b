/-
Capturing does not change what a line does.

A line is run twice from one host, without streams and on streams without a payload, over a backend that is
indifferent to capturing and gives children the same numbers in both runs. The second run opens a session for every
group of the foreground, has the children of the group write into it, drains it before it waits, and keeps for itself
what the builtins and the reports of failures say. None of this comes back to the line: it ends alike, and leaves the
same behind. The host's own streams, to which the first run writes instead, take everything.

- `Shell.run_transparent`: the runs come to the same result and ask the same of the backend and of the world, in the
  same order, and the log of the second is that of the first with the sessions put in.
-/
import LineShell.Proofs.CaptureMode
import LineShell.Proofs.Touching

namespace LineShell

/-- the background children of two runs, where the numbers that go together are equal -/
theorem Origin.eq_of_recorded {o : Origin} (hnum : ∀ {pid pid'}, o.numbers pid pid' → pid' = pid)
    {js js' : List JobRecord} (h : List.Forall₂ o.Recorded js js') : js' = js := by
  induction h with
  | nil => rfl
  | @cons j j' js js' hj _ ih =>
    have hjob : j' = j := by
      cases j
      cases j'
      exact (JobRecord.mk.injEq ..).mpr ⟨hj.id, hnum hj.pid, hj.program⟩
    rw [hjob, ih]

namespace Shell

variable {σ : Type} (sh : Shell σ)

/-- a shell in which `exit` only ends its line -/
theorem lasting_eq (hexit : sh.settings.exitTerminates = false) : sh.lasting = sh := by
  obtain ⟨b, ⟨exitTerminates, home⟩⟩ := sh
  obtain rfl : exitTerminates = false := hexit
  rfl

/-- **Capturing does not change execution.** Over a backend that is indifferent to capturing and gives children the
same numbers, run a line without streams and on streams without a payload: it ends alike. The same programs are asked
for, in the same order and with the same answers, and the same builtins run. The same children of the background are
recorded, and the working directory is the same behind it, and the tree of files, whatever the files hold. It does not
matter when a child does its work: it may be done while the session is drained, or not before the child is waited for.

The logs differ by the sessions alone. A request of the second run names the partners of the descriptors that its
counterpart names: the ends of the same pipes between stages, and the targets of the same redirections. Only what a
child of the foreground would write to the host it writes into the session. -/
theorem run_transparent {like : Likeness σ} (hb : sh.backend.Indifferent like)
    (hnum : like.Numbers fun pid pid' => pid' = pid) (hexit : sh.settings.exitTerminates = false) (line : String)
    {h : Host σ} (hwrites : ∀ r ∈ h.writes, r = none) (hstart : like.launching {} h.here h.here) {io : Streams}
    (hstdin : io.stdin = none) :
    (sh.run line (some io) h).ending = (sh.run line none h).ending ∧
    (sh.run line (some io) h).host.deeds = (sh.run line none h).host.deeds ∧
    (sh.evaluated line (some io) h).2.jobs = (sh.evaluated line none h).2.jobs ∧
    (sh.run line (some io) h).host.world.cwd = (sh.run line none h).host.world.cwd ∧
    (sh.run line (some io) h).host.world.files.outline = (sh.run line none h).host.world.files.outline ∧
    (Origin.ofHost h).Mirrors 0 none (sh.run line none h).host.events (sh.run line (some io) h).host.events := by
  have hmeets := sh.evaluated_beside (o := .ofHost h) hb hnum line .start ⟨rfl, hwrites⟩ hstart hstdin
  rw [lasting_eq sh hexit] at hmeets
  have hbeside := hmeets.beside fun hterm => absurd (hexit.symm.trans hterm) Bool.false_ne_true
  have hseen := hb.seen hbeside.alike
  rw [run_eq_evaluated, run_eq_evaluated]
  refine ⟨congrArg sh.ending hmeets.answer, hmeets.deeds, ?_, World.cwd_eq_of_seen hseen,
    World.outline_eq_of_seen hseen, hbeside.mirrored⟩
  exact congrArg List.reverse (Origin.eq_of_recorded (o := .ofHost h) id hbeside.jobs)

/-- a shell whose programs make files, in which `exit` only ends its line -/
def making : Shell Touching.State := { backend := Touching.backend, settings := { exitTerminates := false } }

/-- a host without files -/
def bare : Host Touching.State := { world := {}, state := {} }

/-- A line whose programs make three files, the first two of them while the session is drained: what has been asked
for and recorded is what the line asks for and records without capturing, and behind it the same files are there. -/
theorem run_transparent_making :
    Touching.backend.Indifferent Touching.likeness ∧ (Touching.likeness.Numbers fun pid pid' => pid' = pid) ∧
    making.settings.exitTerminates = false ∧ (∀ r ∈ bare.writes, r = none) ∧
    Touching.likeness.launching {} bare.here bare.here ∧ ({} : Streams).stdin = none ∧
    (making.run "t a|t b;pwd;t c&" (some {}) bare).host.deeds =
      [.asked ["t", "a"] false none, .asked ["t", "b"] false none, .ran .pwd [], .asked ["t", "c"] true none] ∧
    (making.evaluated "t a|t b;pwd;t c&" (some {}) bare).2.jobs = [⟨1, 2, "t"⟩] ∧
    (making.run "t a|t b;pwd;t c&" (some {}) bare).host.world.files.outline =
      (making.run "t a|t b;pwd;t c&" none bare).host.world.files.outline ∧
    (making.run "t a|t b;pwd;t c&" none bare).host.world.files.nodes.size = 4 := by
  have hstart : Touching.likeness.launching {} bare.here bare.here := ⟨⟨rfl, rfl, fun _ => rfl, rfl⟩, nofun, nofun⟩
  have hwrites : ∀ r ∈ bare.writes, r = none := List.forall_mem_nil _
  have hplain : (making.run "t a|t b;pwd;t c&" none bare).host.deeds =
        [.asked ["t", "a"] false none, .asked ["t", "b"] false none, .ran .pwd [], .asked ["t", "c"] true none] ∧
      (making.evaluated "t a|t b;pwd;t c&" none bare).2.jobs = [⟨1, 2, "t"⟩] ∧
      (making.run "t a|t b;pwd;t c&" none bare).host.world.files.nodes.size = 4 := by
    decide +kernel
  obtain ⟨hdone, hrecorded, hmade⟩ := hplain
  obtain ⟨-, hdeeds, hjobs, -, hfiles, -⟩ := run_transparent making Touching.indifferent
    (Likeness.level_numbers _ _) rfl "t a|t b;pwd;t c&" hwrites hstart (Eq.refl ({} : Streams).stdin)
  exact ⟨Touching.indifferent, Likeness.level_numbers _ _, rfl, hwrites, hstart, rfl, hdeeds.trans hdone,
    hjobs.trans hrecorded, hfiles, hmade⟩

end Shell

end LineShell
