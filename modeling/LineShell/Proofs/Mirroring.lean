/-
What two runs have logged, of which only the second captures.

The second run makes pipes for its sessions and drains them, and where a child of the first run has a stream of the
host, its counterpart in the second has one of the session. The rest is asked of the backend and of the world in both,
in the same order. `Origin.Mirrors` says this of the two logs, event by event. Descriptors have other numbers in the
second run, so the relation pairs them: two descriptors are partners from the event that made both of them to the one
that closes both.

- `Deed`: what the shell has run or asked for, as its log shows it.
- `Rerouted`: one request in both runs.
- `Origin.Mirrors`: the second log is the first one with the sessions put in.
- `Mirrors.deeds`: so both logs show the same deeds.
-/
import LineShell.Proofs.Log
import Mathlib.Data.Multiset.AddSub

namespace LineShell

/-! ## what the shell does, as its programs and builtins show it -/

/-- something that the shell has run or asked for -/
inductive Deed where
  /-- a program was asked for; it may have been refused -/
  | asked (argv : List String) (background : Bool) (refusal : Option Failure)
  | ran (builtin : Builtin) (args : List String)
  deriving DecidableEq, Repr

/-- the deed that an event notes -/
def Event.deed? : Event → Option Deed
  | .spawned r (.ok _) => some (.asked r.argv r.background none)
  | .spawned r (.error f) => some (.asked r.argv r.background (some f))
  | .ranBuiltin b args => some (.ran b args)
  | _ => none

namespace Host

variable {σ : Type}

/-- the deeds so far, in order -/
def deeds (h : Host σ) : List Deed := h.events.filterMap Event.deed?

theorem deeds_eq_append {h h' : Host σ} {evs : List Event} (he : h'.events = h.events ++ evs) :
    h'.deeds = h.deeds ++ evs.filterMap Event.deed? := by
  rw [deeds, he, List.filterMap_append]
  rfl

/-- nothing is done between two hosts whose logs differ by no deed -/
theorem deeds_eq {h h' : Host σ} {evs : List Event} (he : h'.events = h.events ++ evs)
    (hnone : evs.filterMap Event.deed? = []) : h'.deeds = h.deeds := by
  rw [deeds_eq_append he, hnone, List.append_nil]

theorem deeds_wait (b : Backend σ) (h : Host σ) (pid : Pid) : (h.wait b pid).2.deeds = h.deeds :=
  deeds_eq (events_wait b h pid) rfl

end Host

/-! ## one request in both runs -/

/-- A stream of a request in both runs: a descriptor and its partner, or, where the first run leaves the stream to the
host, what the second has `instead`. -/
inductive Routed (held : Multiset (Descriptor × Descriptor)) (instead : Option Descriptor) :
    Option Descriptor → Option Descriptor → Prop
  | inherited : Routed held instead none instead
  | partner {d d' : Descriptor} (h : (d, d') ∈ held) : Routed held instead (some d) (some d')

/-- One request in both runs. A child of the foreground is asked for while the second run has a session; what it would
write to the host then goes to the writers of that session. A child of the background still has the host's streams. -/
structure Rerouted (held : Multiset (Descriptor × Descriptor)) (session : Option Session) (r r' : SpawnRequest) :
    Prop where
  argv : r'.argv = r.argv
  background : r'.background = r.background
  foreground : session.isSome = !r.background
  stdin : Routed held none r.stdin r'.stdin
  stdout : Routed held (session.map (·.stdout.writer)) r.stdout r'.stdout
  stderr : Routed held (session.map (·.stderr.writer)) r.stderr r'.stderr

/-! ## both logs -/

/-- where two runs are set side by side: what their logs hold by then, with the same deeds, and how the numbers of a
child in the two runs are related -/
structure Origin where
  log : List Event
  log' : List Event
  numbers : Pid → Pid → Prop
  deeds : log'.filterMap Event.deed? = log.filterMap Event.deed?

namespace Origin

/-- two runs from one host, in which a child is to have one number -/
def ofHost {σ : Type} (h : Host σ) : Origin := ⟨h.events, h.events, fun pid pid' => pid' = pid, rfl⟩

variable (o : Origin)

/-- The second log is the first one with the sessions put in, given the pairs of descriptors that are open and the
session that the second run has open. -/
inductive Mirrors : (held : Multiset (Descriptor × Descriptor)) → (session : Option Session) →
    List Event → List Event → Prop
  | start : Mirrors 0 none o.log o.log'
  | piped {held session evs evs'} (p p' : Pipe) (h : Mirrors held session evs evs') :
      Mirrors ((p.reader, p'.reader) ::ₘ (p.writer, p'.writer) ::ₘ held) session (evs ++ [.piped (.ok p)])
        (evs' ++ [.piped (.ok p')])
  | redirected {held session evs evs'} (direction : Direction) (path : String) (d d' : Descriptor)
      (h : Mirrors held session evs evs') :
      Mirrors ((d, d') ::ₘ held) session (evs ++ [.redirected direction path (.ok d)])
        (evs' ++ [.redirected direction path (.ok d')])
  | unopened {held session evs evs'} (direction : Direction) (path : String) (f : IoFault)
      (h : Mirrors held session evs evs') :
      Mirrors held session (evs ++ [.redirected direction path (.error f)])
        (evs' ++ [.redirected direction path (.error f)])
  | duplicated {held session evs evs'} {d d' : Descriptor} (hd : (d, d') ∈ held) (h : Mirrors held session evs evs') :
      Mirrors ((d, d') ::ₘ held) session (evs ++ [.duplicated d (.ok ())]) (evs' ++ [.duplicated d' (.ok ())])
  | unduplicated {held session evs evs'} {d d' : Descriptor} (hd : (d, d') ∈ held) (f : IoFault)
      (h : Mirrors held session evs evs') :
      Mirrors held session (evs ++ [.duplicated d (.error f)]) (evs' ++ [.duplicated d' (.error f)])
  | closed {held session evs evs'} (d d' : Descriptor) (h : Mirrors ((d, d') ::ₘ held) session evs evs') :
      Mirrors held session (evs ++ [.closed d]) (evs' ++ [.closed d'])
  | ran {held session evs evs'} (builtin : Builtin) (args : List String) (h : Mirrors held session evs evs') :
      Mirrors held session (evs ++ [.ranBuiltin builtin args]) (evs' ++ [.ranBuiltin builtin args])
  | reported {held session evs evs'} (f : Failure) (h : Mirrors held session evs evs') :
      Mirrors held session (evs ++ [.reported f]) (evs' ++ [.reported f])
  | spawned {held session evs evs' r r' pid pid'} (hr : Rerouted held session r r') (hpid : o.numbers pid pid')
      (h : Mirrors held session evs evs') :
      Mirrors held session (evs ++ [.spawned r (.ok pid)]) (evs' ++ [.spawned r' (.ok pid')])
  | refused {held session evs evs' r r'} (hr : Rerouted held session r r') (f : Failure)
      (h : Mirrors held session evs evs') :
      Mirrors held session (evs ++ [.spawned r (.error f)]) (evs' ++ [.spawned r' (.error f)])
  | detached {held session evs evs' pid pid'} (hpid : o.numbers pid pid') (h : Mirrors held session evs evs') :
      Mirrors held session (evs ++ [.detached pid]) (evs' ++ [.detached pid'])
  | waited {held session evs evs' pid pid'} (hpid : o.numbers pid pid') (result : Except Failure Int)
      (h : Mirrors held session evs evs') :
      Mirrors held session (evs ++ [.waited pid result]) (evs' ++ [.waited pid' result])
  /-- the pipes of a session are made, without one for a payload -/
  | opened {held evs evs'} (s : Session) (hstdin : s.stdin = none) (h : Mirrors held none evs evs') :
      Mirrors held (some s) evs (evs' ++ (s.pipes.map .made ++ [.opened s]))
  /-- the session is drained, and all of its pipes are closed -/
  | drained {held s evs evs'} (h : Mirrors held (some s) evs evs') :
      Mirrors held none evs (evs' ++ ((s.childEnds ++ s.idleEnds).map .closed ++
        .drained s (.ok ()) :: s.parentEnds.toList.map .closed))

variable {o} {held : Multiset (Descriptor × Descriptor)} {session : Option Session} {evs evs' : List Event}

/-- the events of a session show no deed -/
theorem deeds_closed (ds : List Descriptor) : (ds.map Event.closed).filterMap Event.deed? = [] := by
  simp [Event.deed?]

theorem deeds_made (ps : List Pipe) : (ps.map Event.made).filterMap Event.deed? = [] := by
  simp [Event.deed?, Event.made]

/-- events behind both logs that show the same deed, or none -/
theorem deeds_append {x x' : Event} (h : evs'.filterMap Event.deed? = evs.filterMap Event.deed?)
    (hx : x'.deed? = x.deed?) : (evs' ++ [x']).filterMap Event.deed? = (evs ++ [x]).filterMap Event.deed? := by
  simp only [List.filterMap_append, List.filterMap_cons, h, hx]

/-- the same programs have been asked for, and the same builtins have run -/
theorem Mirrors.deeds (h : o.Mirrors held session evs evs') :
    evs'.filterMap Event.deed? = evs.filterMap Event.deed? := by
  induction h with
  | start => exact o.deeds
  | spawned hr _ _ ih => exact deeds_append ih (by simp only [Event.deed?, hr.argv, hr.background])
  | refused hr _ _ ih => exact deeds_append ih (by simp only [Event.deed?, hr.argv, hr.background])
  | opened s _ _ ih => simp only [List.filterMap_append, deeds_made, ih, List.filterMap_cons, Event.deed?]; simp
  | drained _ ih =>
    simp only [List.filterMap_append, deeds_closed, ih, List.filterMap_cons, Event.deed?, List.append_nil]
  | _ => exact deeds_append (by assumption) rfl

/-- descriptors are closed together with their partners -/
theorem Mirrors.closedAll (ps : List (Descriptor × Descriptor))
    (h : o.Mirrors ((ps : Multiset (Descriptor × Descriptor)) + held) session evs evs') :
    o.Mirrors held session (evs ++ (ps.map Prod.fst).map .closed) (evs' ++ (ps.map Prod.snd).map .closed) := by
  induction ps generalizing evs evs' with
  | nil => simpa using h
  | cons p ps ih =>
    rw [← Multiset.cons_coe, Multiset.cons_add] at h
    simpa using ih (h.closed p.1 p.2)

end Origin

end LineShell
