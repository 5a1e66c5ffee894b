/-
Running with and without capturing: what it takes for the two to be alike.

Two runs of the same statements, of which only the second captures, differ in what the shell asks for: the second
makes pipes for its sessions, hands them to the children, and drains them before it waits. Whether that makes a
difference is up to the programs. `Backend.Indifferent` says that it makes none: a relation between the two runs is
kept by what the shell does to the world and by each call of the backend, and as long as it holds the shell sees the
same and its calls are answered alike. It speaks only of calls that the shell can make; what it has in hand then is a
`Standing`.

- `Backend.Indifferent`: programs do not tell whether they are captured.
- `Beside`: two engines side by side, with the logs of `Origin.Mirrors`.
- `Beside.sendAll`, `Beside.report`, `Beside.closeAll`: what the shell does besides calling the backend keeps them so.

What the system itself refuses the shell is no matter of the backend: `Host.ServedAlike` says that the same
duplications are refused in both runs, and that the streams of the host take what the first run writes to them.
-/
import LineShell.Proofs.Launching
import LineShell.Proofs.Mirroring
import LineShell.Proofs.Outline

namespace LineShell

namespace Host

variable {σ : Type}

/-- what a backend sees of a host -/
def here (h : Host σ) : σ × World := (h.state, h.world)

/-- a call of the backend, by what it answers -/
theorem exists_pipe {b : Backend σ} {h : Host σ} {r : Except Failure Pipe} (hr : (b.pipe h.state h.world).1 = r) :
    ∃ host, h.pipe b = (r, host) ∧ host.here = (b.pipe h.state h.world).2 ∧ host.outcomes = h.outcomes :=
  ⟨_, Prod.ext hr rfl, rfl, rfl⟩

theorem exists_spawn {b : Backend σ} {h : Host σ} {request : SpawnRequest} {r : Except Failure Pid}
    (hr : (b.spawn request h.state h.world).1 = r) :
    ∃ host, h.spawn b request = (r, host) ∧ host.here = (b.spawn request h.state h.world).2 ∧
      host.outcomes = h.outcomes :=
  ⟨_, Prod.ext hr rfl, rfl, rfl⟩

theorem here_closeAll (h : Host σ) (ds : List Descriptor) : (h.closeAll ds).here = (h.state, h.world.closeAll ds) := by
  induction ds generalizing h with
  | nil => rfl
  | cons d ds ih => exact ih (h.close d)

/-- a request of which nothing in the list of outcomes is a refusal -/
theorem nextOutcome_of_none {outcomes : List (Option Errno)} (h : ∀ r ∈ outcomes, r = none) :
    nextOutcome outcomes = .ok () := by
  cases outcomes with
  | nil => rfl
  | cons r rest =>
    obtain rfl := h r List.mem_cons_self
    rfl

/-- What the system refuses two hosts, the first of which does not capture: the same of the coming duplications, and no
write of the first. -/
structure ServedAlike (h h' : Host σ) : Prop where
  duplications : h'.duplications = h.duplications
  writes : ∀ r ∈ h.writes, r = none

variable {h h' : Host σ}

theorem ServedAlike.of_outcomes {host host' : Host σ} (hserved : h.ServedAlike h') (hhost : host.outcomes = h.outcomes)
    (hhost' : host'.outcomes = h'.outcomes) : host.ServedAlike host' := by
  obtain ⟨hdup, hwrites⟩ := Prod.mk.inj hhost
  refine ⟨?_, hwrites ▸ hserved.writes⟩
  rw [(Prod.mk.inj hhost').1, hdup, hserved.duplications]

/-- a text that a host writes to one of its streams, if it is written -/
theorem write_here (h : Host σ) (o : Output) (chunk : Bytes) :
    (h.write o chunk).2.here = h.here ∨ (h.write o chunk).2.here = (h.state, h.world.writeHost o chunk) := by
  unfold write
  split
  · exact .inl rfl
  · cases nextOutcome h.writes with
    | ok _ => exact .inr rfl
    | error n => exact .inl rfl

/-- what the first of them writes to one of its streams is accepted -/
theorem ServedAlike.write_first (hserved : h.ServedAlike h') (o : Output) (chunk : Bytes) :
    (h.write o chunk).1 = .ok () ∧ (h.write o chunk).2.ServedAlike h' := by
  unfold write
  split
  · exact ⟨rfl, hserved⟩
  · rw [nextOutcome_of_none hserved.writes]
    exact ⟨rfl, hserved.duplications, fun r hr => hserved.writes r (List.mem_of_mem_tail hr)⟩

/-- what the second writes need not be -/
theorem ServedAlike.write_second (hserved : h.ServedAlike h') (o : Output) (chunk : Bytes) :
    h.ServedAlike (h'.write o chunk).2 := by
  obtain ⟨world, writes, hwrite⟩ := h'.write_frame o chunk
  rw [hwrite]
  exact ⟨hserved.duplications, hserved.writes⟩

end Host

/-! ## two runs side by side -/

/-- what the shell has in hand in both runs -/
structure Standing where
  /-- the children that are to be waited for, each by its number in either run -/
  children : List (Pid × Pid) := []
  /-- the descriptors that both runs have open, each with its partner -/
  held : Multiset (Descriptor × Descriptor) := 0
  /-- the ends of the session of the second run -/
  ends : Multiset Descriptor := 0
  /-- the descriptor that the stage being launched writes to, if it is not the host's or the session's -/
  sink : Option (Descriptor × Descriptor) := none

namespace Standing

variable (S : Standing)

/-- the target of a redirection has been opened; the stage writes to it if it takes the place of the output -/
def opened (direction : Direction) (d d' : Descriptor) : Standing :=
  { S with held := (d, d') ::ₘ S.held, sink := if direction = .output then some (d, d') else S.sink }

/-- a pipe has been made, for the next stage to write to -/
def piped (p p' : Pipe) : Standing :=
  { S with held := (p.reader, p'.reader) ::ₘ (p.writer, p'.writer) ::ₘ S.held, sink := some (p.writer, p'.writer) }

/-- a stage has been launched and has started children; nothing more is written to its output -/
def launched (new : List (Pid × Pid)) : Standing := { S with children := S.children ++ new, sink := none }

/-- streams of the two runs that go together: the host's, or a descriptor and its partner -/
inductive Joined : Option Descriptor → Option Descriptor → Prop
  | host : Joined none none
  | held {d d' : Descriptor} (h : (d, d') ∈ S.held) : Joined (some d) (some d')

/-- output streams that go together: the one of the second run may also be the session's -/
inductive Captured : Option Descriptor → Option Descriptor → Prop
  | joined {o o' : Option Descriptor} (h : S.Joined o o') : Captured o o'
  | session {d : Descriptor} (h : d ∈ S.ends) : Captured none (some d)

/-- the same request, made in both runs -/
structure Requests (r r' : SpawnRequest) : Prop where
  argv : r'.argv = r.argv
  background : r'.background = r.background
  stdin : S.Joined r.stdin r'.stdin
  stdout : S.Captured r.stdout r'.stdout
  stderr : S.Captured r.stderr r'.stderr

/-- the same context, in both runs -/
structure Contexts (ctx ctx' : Context) : Prop where
  background : ctx'.background = ctx.background
  input : S.Joined ctx.input ctx'.input
  output : S.Joined ctx.output ctx'.output
  sink : ∀ d d', ctx.output = some d → ctx'.output = some d' → S.sink = some (d, d')

variable {S}

theorem Joined.mono {T : Standing} (hsub : ∀ p ∈ S.held, p ∈ T.held) {o o' : Option Descriptor} (h : S.Joined o o') :
    T.Joined o o' := by
  cases h with
  | host => exact .host
  | held h => exact .held (hsub _ h)

/-- streams that go together, if the second run has something instead of the host's -/
theorem Joined.routed {o o' : Option Descriptor} (h : S.Joined o o') (instead : Option Descriptor) :
    Routed S.held instead o (o' <|> instead) := by
  cases h with
  | host => exact .inherited
  | held h => exact .partner h

theorem Joined.eq_none {o : Option Descriptor} (h : S.Joined none o) : o = none := by
  cases h
  rfl

/-- the target of a redirection takes the place of one stream, and the other one is as it was -/
theorem Contexts.opened {ctx ctx' : Context} (h : S.Contexts ctx ctx') (direction : Direction) (d d' : Descriptor) :
    (S.opened direction d d').Contexts (ctx.redirected direction d) (ctx'.redirected direction d') := by
  have hnew : (S.opened direction d d').Joined (some d) (some d') := .held (Multiset.mem_cons_self _ _)
  have hold : ∀ {o o'}, S.Joined o o' → (S.opened direction d d').Joined o o' :=
    Joined.mono fun p hp => Multiset.mem_cons_of_mem hp
  cases direction with
  | input => exact ⟨h.background, hnew, hold h.output, by simpa [Context.redirected, Standing.opened] using h.sink⟩
  | output => exact ⟨h.background, hold h.input, hnew, by simp [Context.redirected, Standing.opened]⟩

/-- a stage keeps its streams when more is held -/
theorem Contexts.mono {held : Multiset (Descriptor × Descriptor)} (hsub : ∀ p ∈ S.held, p ∈ held) {ctx ctx' : Context}
    (h : S.Contexts ctx ctx') : Contexts { S with held } ctx ctx' :=
  ⟨h.background, h.input.mono hsub, h.output.mono hsub, h.sink⟩

/-- the pipe takes the place of the output of the stage that writes it -/
theorem Contexts.piped {ctx ctx' : Context} (h : S.Contexts ctx ctx') (p p' : Pipe) :
    (S.piped p p').Contexts { ctx with output := some p.writer } { ctx' with output := some p'.writer } := by
  refine ⟨h.background, h.input.mono fun q hq => ?_, .held ?_, by simp [Standing.piped]⟩
  · exact Multiset.mem_cons_of_mem (Multiset.mem_cons_of_mem hq)
  · exact Multiset.mem_cons_of_mem (Multiset.mem_cons_self _ _)

variable (S)

/-- the descriptors in hand when the first stage of a pipe could not be launched, by the order in which they are
closed -/
theorem held_failed (r w : Descriptor × Descriptor) (inlet : Option (Descriptor × Descriptor))
    (held : Multiset (Descriptor × Descriptor)) :
    (([r, w] ++ inlet.toList : List _) : Multiset _) + held = r ::ₘ w ::ₘ (↑inlet.toList + held) := by
  simp only [List.cons_append, List.nil_append, ← Multiset.cons_coe, Multiset.cons_add]

/-- the descriptors in hand when it has been launched: all but the reader are closed then -/
theorem held_wentOn (r w : Descriptor × Descriptor) (inlet : Option (Descriptor × Descriptor))
    (held : Multiset (Descriptor × Descriptor)) :
    ((inlet.toList ++ [w] : List _) : Multiset _) + (((some r).toList : Multiset _) + held) =
      r ::ₘ w ::ₘ (↑inlet.toList + held) := by
  rw [Multiset.coe_eq_coe.2 (List.perm_append_singleton w inlet.toList)]
  simp only [Option.toList_some, ← Multiset.cons_coe, Multiset.coe_nil, Multiset.cons_add, Multiset.zero_add,
    Multiset.add_cons]

/-- A session without a payload, whose writing ends are in hand. A group of the foreground has one. -/
structure Serves (session : Option Session) (background : Bool) : Prop where
  foreground : session.isSome = !background
  stdin : ∀ s, session = some s → s.stdin = none
  ends : ∀ s, session = some s → s.stdout.writer ∈ S.ends ∧ s.stderr.writer ∈ S.ends

variable {S} in
theorem Serves.stdin_eq_none {session : Option Session} {background : Bool} (h : S.Serves session background) :
    session.bind (·.stdin) = none := by
  cases session with
  | none => rfl
  | some s => exact h.stdin s rfl

end Standing

/-- a relation between two runs, each given by the state of its backend and its world: while the shell launches, and
from the draining of the session of the second run until the children of the group have been waited for -/
structure Likeness (σ : Type) where
  launching : Standing → σ × World → σ × World → Prop
  settling : (children : List (Pid × Pid)) → (ends : Multiset Descriptor) → σ × World → σ × World → Prop

/-- Programs do not tell whether their output is captured: the relation `like` is kept by everything that the shell
does in both runs, or in the second alone, and calls made in both are answered alike. Pipes can be made and sessions
drained. -/
structure Backend.Indifferent {σ : Type} (b : Backend σ) (like : Likeness σ) : Prop where
  /-- the shell sees the same -/
  seen {S c c'} : like.launching S c c' → c'.2.seen = c.2.seen
  /-- a stage that has been launched writes nothing more -/
  released {S c c'} : like.launching S c c' → like.launching { S with sink := none } c c'
  opened {S c c' direction path d d' v v'} : like.launching S c c' →
    c.2.openTarget direction path = .ok (d, v) → c'.2.openTarget direction path = .ok (d', v') →
    like.launching (S.opened direction d d') (c.1, v) (c'.1, v')
  entered {S c c' path v v'} : like.launching S c c' →
    c.2.changeDirectory path = .ok v → c'.2.changeDirectory path = .ok v' → like.launching S (c.1, v) (c'.1, v')
  /-- what a builtin writes is accepted in both runs or refused in both -/
  written {S c c' d d'} (chunk : Bytes) : like.launching S c c' → S.sink = some (d, d') →
    (∃ v v', c.2.write d chunk = .ok v ∧ c'.2.write d' chunk = .ok v' ∧
      like.launching { S with sink := none } (c.1, v) (c'.1, v')) ∨
    ∃ n, c.2.write d chunk = .error n ∧ c'.2.write d' chunk = .error n
  told {S c c'} (o : Output) (chunk : Bytes) : like.launching S c c' →
    like.launching S (c.1, c.2.writeHost o chunk) c'
  passedOn {S c c'} (o : Output) (chunk : Bytes) : like.launching S c c' →
    like.launching S c (c'.1, c'.2.writeHost o chunk)
  /-- a builtin has its output for itself -/
  duplicated {S c c' d d'} : (d, d') ∈ S.held → like.launching S c c' →
    like.launching { S with held := (d, d') ::ₘ S.held } (c.1, c.2.duplicate d) (c'.1, c'.2.duplicate d')
  closed {S c c' d d'} : S.sink = none → like.launching { S with held := (d, d') ::ₘ S.held } c c' →
    like.launching S (c.1, c.2.close d) (c'.1, c'.2.close d')
  endClosed {S c c' d} : S.sink = none → like.launching { S with ends := d ::ₘ S.ends } c c' →
    like.launching S c (c'.1, c'.2.close d)
  piped {S c c'} : like.launching S c c' →
    ∃ p p', (b.pipe c.1 c.2).1 = .ok p ∧ (b.pipe c'.1 c'.2).1 = .ok p' ∧
      like.launching (S.piped p p') (b.pipe c.1 c.2).2 (b.pipe c'.1 c'.2).2
  endPiped {S c c'} : S.sink = none → like.launching S c c' →
    ∃ p, (b.pipe c'.1 c'.2).1 = .ok p ∧
      like.launching { S with ends := p.reader ::ₘ p.writer ::ₘ S.ends } c (b.pipe c'.1 c'.2).2
  spawned {S : Standing} {c c' r r'} : like.launching S c c' → S.Requests r r' →
    (∃ pid pid', (b.spawn r c.1 c.2).1 = .ok pid ∧ (b.spawn r' c'.1 c'.2).1 = .ok pid' ∧
      like.launching (S.launched [(pid, pid')]) (b.spawn r c.1 c.2).2 (b.spawn r' c'.1 c'.2).2) ∨
    ∃ f, (b.spawn r c.1 c.2).1 = .error f ∧ (b.spawn r' c'.1 c'.2).1 = .error f ∧
      like.launching (S.launched []) (b.spawn r c.1 c.2).2 (b.spawn r' c'.1 c'.2).2
  detached {S : Standing} {c c' pid pid'} : like.launching (S.launched [(pid, pid')]) c c' →
    like.launching (S.launched []) (b.detach pid c.1 c.2) (b.detach pid' c'.1 c'.2)
  /-- the shell has closed everything but its own ends of the session -/
  drained {children ends c c'} : ends.stdin = none → like.launching { children, ends := ↑ends.toList } c c' →
    (b.drain ends none c'.1 c'.2).1.result = .ok () ∧
      like.settling children ↑ends.toList c (b.drain ends none c'.1 c'.2).2
  endShut {children ends c c' d} : like.settling children (d ::ₘ ends) c c' →
    like.settling children ends c (c'.1, c'.2.close d)
  waited {children pid pid' c c'} : like.settling ((pid, pid') :: children) 0 c c' →
    (b.wait pid' c'.1 c'.2).1 = (b.wait pid c.1 c.2).1 ∧
      like.settling children 0 (b.wait pid c.1 c.2).2 (b.wait pid' c'.1 c'.2).2
  settled {c c'} : like.settling [] 0 c c' → like.launching {} c c'

/-- a child of the background, as both runs record it -/
structure Origin.Recorded (o : Origin) (j j' : JobRecord) : Prop where
  id : j'.id = j.id
  program : j'.program = j.program
  pid : o.numbers j.pid j'.pid

/-- two engines side by side: only the second captures, without a payload, and the second log is the first one with the
sessions put in -/
structure Beside {σ : Type} (o : Origin) (held : Multiset (Descriptor × Descriptor)) (session : Option Session)
    (alike : σ × World → σ × World → Prop) (e e' : Engine σ) : Prop where
  uncaptured : e.io = none
  captured : e'.capture = some none
  status : e'.lastStatus = e.lastStatus
  jobs : List.Forall₂ o.Recorded e.background e'.background
  mirrored : o.Mirrors held session e.host.events e'.host.events
  served : e.host.ServedAlike e'.host
  alike : alike e.host.here e'.host.here

/-- two engines side by side while the shell launches -/
abbrev Likeness.Paired {σ : Type} (like : Likeness σ) (o : Origin) (session : Option Session) (S : Standing) :
    Engine σ → Engine σ → Prop :=
  Beside o S.held session (like.launching S)

/-- the children of the two runs that are partners have numbers that go together -/
def Likeness.Numbers {σ : Type} (like : Likeness σ) (numbers : Pid → Pid → Prop) : Prop :=
  ∀ {S c c'}, like.launching S c c' → ∀ p ∈ S.children, numbers p.1 p.2

/-- launches of both runs that went alike and started the children `new`; the sink is done with -/
structure LaunchesBeside {σ : Type} (like : Likeness σ) (o : Origin) (session : Option Session) (S : Standing)
    (l l' : Launched σ) (new : List (Pid × Pid)) : Prop where
  outcome : l'.outcome = l.outcome
  started : l.started = new.map Prod.fst
  started' : l'.started = new.map Prod.snd
  numbers : ∀ p ∈ new, o.numbers p.1 p.2
  engine : like.Paired o session (S.launched new) l.engine l'.engine

section

variable {σ : Type} {b : Backend σ} {like : Likeness σ}

/-! ## closing many descriptors -/

namespace Backend.Indifferent

variable (hb : b.Indifferent like) {S : Standing} {c c' : σ × World}

include hb

/-- descriptors are closed together with their partners -/
theorem closedAll {held : Multiset (Descriptor × Descriptor)} (hsink : S.sink = none)
    (ps : List (Descriptor × Descriptor))
    (h : like.launching { S with held := (ps : Multiset (Descriptor × Descriptor)) + held } c c') :
    like.launching { S with held } (c.1, c.2.closeAll (ps.map Prod.fst)) (c'.1, c'.2.closeAll (ps.map Prod.snd)) := by
  induction ps generalizing c c' with
  | nil =>
    rw [Multiset.coe_nil, Multiset.zero_add] at h
    exact h
  | cons p ps ih =>
    rw [← Multiset.cons_coe, Multiset.cons_add] at h
    exact ih (hb.closed (S := { S with held := ↑ps + held }) hsink h)

/-- ends of the session are closed -/
theorem endsClosed {ends : Multiset Descriptor} (hsink : S.sink = none) (ds : List Descriptor)
    (h : like.launching { S with ends := (ds : Multiset Descriptor) + ends } c c') :
    like.launching { S with ends } c (c'.1, c'.2.closeAll ds) := by
  induction ds generalizing c' with
  | nil =>
    rw [Multiset.coe_nil, Multiset.zero_add] at h
    exact h
  | cons d ds ih =>
    rw [← Multiset.cons_coe, Multiset.cons_add] at h
    exact ih (hb.endClosed (S := { S with ends := ↑ds + ends }) hsink h)

/-- the ends that the session still has when it has been drained are closed -/
theorem endsShut {children : List (Pid × Pid)} (ds : List Descriptor) (h : like.settling children ↑ds c c') :
    like.settling children 0 c (c'.1, c'.2.closeAll ds) := by
  induction ds generalizing c' with
  | nil => exact h
  | cons d ds ih => exact ih (hb.endShut (by rw [Multiset.cons_coe]; exact h))

end Backend.Indifferent

/-! ## what keeps two engines side by side -/

namespace Beside

variable {o : Origin} {held held' : Multiset (Descriptor × Descriptor)} {session session' : Option Session}
  {alike alike' : σ × World → σ × World → Prop} {e e' : Engine σ}

theorem mono (h : Beside o held session alike e e')
    (himp : alike e.host.here e'.host.here → alike' e.host.here e'.host.here) : Beside o held session alike' e e' :=
  ⟨h.uncaptured, h.captured, h.status, h.jobs, h.mirrored, h.served, himp h.alike⟩

/-- the same has been done in both runs -/
theorem deeds (h : Beside o held session alike e e') : e'.host.deeds = e.host.deeds := h.mirrored.deeds

/-- the streams of the second run have no payload -/
theorem exists_streams (h : Beside o held session alike e e') : ∃ io, e'.io = some io ∧ io.stdin = none :=
  Option.map_eq_some_iff.1 h.captured

/-- something is asked of both hosts -/
theorem withHosts (h : Beside o held session alike e e') {host host' : Host σ}
    (hmirrored : o.Mirrors held' session' host.events host'.events) (hserved : host.ServedAlike host')
    (halike : alike' host.here host'.here) :
    Beside o held' session' alike' { e with host } { e' with host := host' } :=
  ⟨h.uncaptured, h.captured, h.status, h.jobs, hmirrored, hserved, halike⟩

/-- both worlds are changed, and what was asked of them is noted -/
theorem noted (h : Beside o held session alike e e') (x x' : Event)
    (hmirrored : o.Mirrors held' session' (e.host.events ++ [x]) (e'.host.events ++ [x'])) {w w' : World}
    (halike : alike' (e.host.state, w) (e'.host.state, w')) :
    Beside o held' session' alike' { e with host := { e.host with world := w }.note x }
      { e' with host := { e'.host with world := w' }.note x' } := by
  refine h.withHosts ?_ (h.served.of_outcomes rfl rfl) halike
  rw [Host.events_note, Host.events_note]
  exact hmirrored

theorem withStatus (h : Beside o held session alike e e') (lastStatus : Int) :
    Beside o held session alike { e with lastStatus } { e' with lastStatus } :=
  ⟨h.uncaptured, h.captured, rfl, h.jobs, h.mirrored, h.served, h.alike⟩

variable (hb : b.Indifferent like) {S : Standing}

include hb

/-- the first run tells something on the host's own streams, which take it -/
theorem sendAll (h : like.Paired o session S e e') (chunks : List (Output × Bytes)) :
    (Engine.sendAll chunks e).1 = .ok () ∧ like.Paired o session S (Engine.sendAll chunks e).2 e' := by
  induction chunks generalizing e with
  | nil => exact ⟨rfl, h⟩
  | cons c chunks ih =>
    obtain ⟨hresult, hserved⟩ := h.served.write_first c.1 c.2
    have hsend : e.send c.1 c.2 = (.ok (), { e with host := (e.host.write c.1 c.2).2 }) := by
      simp only [Engine.send, h.uncaptured, hresult]
    have hevents : (e.host.write c.1 c.2).2.events = e.host.events := by
      obtain ⟨world, writes, hwrite⟩ := e.host.write_frame c.1 c.2
      rw [hwrite]
      rfl
    rw [Engine.sendAll, hsend]
    refine ih ⟨h.uncaptured, h.captured, h.status, h.jobs, by rw [hevents]; exact h.mirrored, hserved, ?_⟩
    rcases e.host.write_here c.1 c.2 with hhere | hhere
    · rw [hhere]
      exact h.alike
    · rw [hhere]
      exact hb.told c.1 c.2 h.alike

omit hb in
/-- what the second run tells is captured -/
theorem sendAll_second (h : Beside o held session alike e e') (chunks : List (Output × Bytes)) :
    (Engine.sendAll chunks e').1 = .ok () ∧ Beside o held session alike e (Engine.sendAll chunks e').2 := by
  induction chunks generalizing e' with
  | nil => exact ⟨rfl, h⟩
  | cons c chunks ih =>
    obtain ⟨io, hio, hstdin⟩ := h.exists_streams
    have hsend : e'.send c.1 c.2 = (.ok (), { e' with io := some (io.deliver c.1 c.2) }) := by
      simp only [Engine.send, hio]
    have hcapture : (some (io.deliver c.1 c.2)).map Streams.stdin = some none := by
      rw [Option.map_some, Streams.stdin_deliver, hstdin]
    rw [Engine.sendAll, hsend]
    exact ih ⟨h.uncaptured, hcapture, h.status, h.jobs, h.mirrored, h.served, h.alike⟩

theorem report (h : like.Paired o session S e e') (f : Failure) :
    like.Paired o session S (e.report f) (e'.report f) := by
  have hnoted : like.Paired o session S { e with host := e.host.note (.reported f) }
      { e' with host := e'.host.note (.reported f) } :=
    h.noted (.reported f) (.reported f) (h.mirrored.reported f) h.alike
  have hsent := (sendAll hb hnoted [(.stderr, Text.bytes f.report)]).2
  have hsent' := (hsent.sendAll_second [(.stderr, Text.bytes f.report)]).2
  rwa [Engine.sendAll_single, Engine.sendAll_single] at hsent'

/-- a stage has been launched that has started nothing -/
theorem released (h : like.Paired o session S e e') : like.Paired o session (S.launched []) e e' := by
  rw [Standing.launched, List.append_nil]
  exact h.mono hb.released

/-- descriptors are closed together with their partners -/
theorem closeAll (hsink : S.sink = none) (ps : List (Descriptor × Descriptor))
    (h : like.Paired o session { S with held := (ps : Multiset (Descriptor × Descriptor)) + held } e e') :
    like.Paired o session { S with held } (e.closeAll (ps.map Prod.fst)) (e'.closeAll (ps.map Prod.snd)) := by
  refine h.withHosts ?_ (h.served.of_outcomes (Host.outcomes_closeAll _ _) (Host.outcomes_closeAll _ _)) ?_
  · rw [Host.events_closeAll, Host.events_closeAll]
    exact h.mirrored.closedAll ps
  · rw [Host.here_closeAll, Host.here_closeAll]
    exact hb.closedAll hsink ps h.alike

end Beside

end

end LineShell
