/-
One program on its own, and as a line.

`Host.runProgram` and the evaluation of a line are put together separately from the same calls. A program on its own
stops at the first call that fails. A shell evaluates a group: it drains and waits for whatever there is, and tells a
failure at the end. On one program they agree, as long as the backend does not ask a shell to stop, and a session has
nothing to give before a child was started (`Silent`).

- `Counterparts`: the ways in which the two can go, event by event. They differ behind a program that cannot be
  started: on its own it has its session closed, and the shell drains it.
- `runGroup_likewise`: the group of one command goes as the program on its own.
- `Shell.run_alone`: so does the line, and behind it stands the report of the failure, if there is one.
-/
import LineShell.Proofs.Background
import LineShell.Proofs.Codes

namespace LineShell

variable {σ : Type}

/-! ## what is asked of a backend -/

/-- a failure of a backend to depend on does not ask a shell to stop -/
theorem Failure.OfBackend.isExit {f : Failure} (h : f.OfBackend) : f.isExit = false := by
  cases f <;> first | rfl | exact h.elim

/-- a result after which a shell goes on, if it is a failure, too -/
def GoesOn {α : Type} : Except Failure α → Prop := Ends (fun _ => True) (·.isExit = false)

namespace Backend

variable (b : Backend σ)

/-- In a state that is `fine` no call fails by asking the shell to stop, and the states stay fine. -/
structure NeverStops (fine : σ → Prop) : Prop where
  pipe (s : σ) (w : World) : fine s → GoesOn (b.pipe s w).1 ∧ fine (b.pipe s w).2.1
  spawn (r : SpawnRequest) (s : σ) (w : World) : fine s → GoesOn (b.spawn r s w).1 ∧ fine (b.spawn r s w).2.1
  drain (ends : ParentEnds) (payload : Option Bytes) (s : σ) (w : World) : fine s →
    GoesOn (b.drain ends payload s w).1.result ∧ fine (b.drain ends payload s w).2.1
  wait (pid : Pid) (s : σ) (w : World) : fine s → GoesOn (b.wait pid s w).1

/-- draining a session that was opened on the host gives nothing if no child could be started -/
def Silent (h : Host σ) : Prop :=
  ∀ withStdin session h₁ request f h₂ payload, h.openSession b withStdin true = (.ok session, h₁) →
    h₁.spawn b request = (.error f, h₂) → (h₂.drain b session payload).1.chunks = []

theorem Dependable.neverStops {b : Backend σ} {fine : σ → Prop} {range : Int → Prop} (h : b.Dependable fine range) :
    b.NeverStops fine := by
  have hends : ∀ {α : Type} {value : α → Prop} {r : Except Failure α}, Ends value Failure.OfBackend r → GoesOn r := by
    rintro α value (f | a) hr
    · exact Failure.OfBackend.isExit hr
    · trivial
  exact {
    pipe := fun _ w hs => ⟨hends (h.pipe w hs).1, (h.pipe w hs).2⟩
    spawn := fun r _ w hs => ⟨hends (h.spawn r w hs).1, (h.spawn r w hs).2⟩
    drain := fun ends payload _ w hs => ⟨hends (h.drain ends payload w hs).1, (h.drain ends payload w hs).2⟩
    wait := fun pid _ w hs => hends (h.wait pid w hs).1 }

/-- a program on its own does not end by asking a shell to stop -/
theorem NeverStops.runProgram {b : Backend σ} {fine : σ → Prop} (hb : b.NeverStops fine) {h : Host σ}
    (hs : fine h.state) (argv : List String) (io : Option Streams) : GoesOn (h.runProgram b argv io).1 := by
  have hspawn : ∀ {request} {h h' : Host σ} {r}, fine h.state → h.spawn b request = (r, h') →
      GoesOn r ∧ fine h'.state := by
    rintro request h h' r hs ⟨⟩
    exact hb.spawn request h.state h.world hs
  have hdrain : ∀ {h : Host σ} (session payload), fine h.state →
      GoesOn (h.drain b session payload).1.result ∧
        fine (h.drain b session payload).2.state := fun _ _ hs => Host.drain_fine hb.drain hs rfl
  have hwait : ∀ {h : Host σ} (pid), fine h.state → GoesOn (h.wait b pid).1 := fun pid hs => hb.wait pid _ _ hs
  unfold Host.runProgram
  split
  · split
    · rename_i f h' hsp
      exact (hspawn hs hsp).1
    · rename_i pid h' hsp
      exact hwait pid (hspawn hs hsp).2
  · rename_i io
    simp only
    split
    · rename_i f h' ho
      exact (Host.openSession_fine hb.pipe hs ho).1
    · rename_i session h' ho
      have hs' := (Host.openSession_fine hb.pipe hs ho).2
      split
      · rename_i f h'' hsp
        exact (hspawn hs' hsp).1
      · rename_i pid h'' hsp
        obtain ⟨hdrained, hs''⟩ := hdrain session io.reset.stdin (hspawn hs' hsp).2
        split
        · rename_i f hf
          rw [hf] at hdrained
          exact hdrained
        · exact hwait pid hs''

end Backend

/-! ## a group of one command -/

namespace Evaluation

open Engine

/-- the ends of a session that a program which could not be started leaves open -/
def leftOpen (session : Option Session) : List Descriptor :=
  session.toList.flatMap fun s => s.childEnds ++ s.parentEnds.toList

/-- How one program can go, event by event, on its own and as a group. Both make the same pipes and ask for the same
process. -/
inductive Counterparts (capture : Option (Option Bytes)) (argv : List String) :
    Except Failure Int → (alone group : List Event) → Prop
  | unopened {f : Failure} {opening : List Event} : Opening false capture false (.error f) opening →
      Counterparts capture argv (.error f) opening opening
  | unstarted {session : Option Session} {opening : List Event} (f : Failure) (drained : Except Failure Unit) :
      Opening false capture false (.ok session) opening →
        Counterparts capture argv (.error f)
          (opening ++ .spawned (request argv {} session) (.error f) :: (leftOpen session).map .closed)
          (opening ++ .spawned (request argv {} session) (.error f) :: draining drained session)
  | ran {session : Option Session} {opening evs : List Event} (pid : Pid) (drained : Except Failure Unit)
      (waited : Except Failure Int) : Opening false capture false (.ok session) opening →
      evs = opening ++ .spawned (request argv {} session) (.ok pid) ::
        (draining drained session ++ [.waited pid waited]) →
        Counterparts capture argv (drained.bind fun _ => waited) evs evs

/-- a group of one command beside the program on its own -/
structure Likewise (h : Host σ) (capture : Option (Option Bytes)) (argv : List String)
    (alone : Except Failure Int × Option Streams × Host σ) (group : Except Failure Int × Engine σ) : Prop where
  result : group.1 = alone.1
  io : group.2.io = alone.2.1
  host : ∀ status, alone.1 = .ok status → group.2.host = alone.2.2
  log : ∃ evs evs', alone.2.2.events = h.events ++ evs ∧ group.2.events = h.events ++ evs' ∧
    Counterparts capture argv alone.1 evs evs'

variable (ev : Evaluation σ)

/-- launching a command that is no builtin starts a child -/
theorem launch_command {words : List Span} {program : String} {args : List String}
    (hargv : ev.argv words = program :: args) (hb : Builtin.ofName? program = none) :
    ev.launch (.command words) = ev.startChild (program :: args) := by
  funext ctx session e
  have hlaunch : ev.launch (.command words) ctx session e = ev.launchCommand words ctx session e := rfl
  have hargv : words.map (·.text ev.line) = program :: args := hargv
  rw [hlaunch, launchCommand, hargv]
  simp only [hb]

theorem startChild_refused {argv : List String} {ctx : Context} {session : Option Session} {e : Engine σ} {f : Failure}
    {host : Host σ} (hs : e.host.spawn ev.backend (request argv ctx session) = (.error f, host)) :
    ev.startChild argv ctx session e = ⟨.error f, [], { e with host }⟩ := by
  simp only [startChild, hs]

theorem startChild_started {argv : List String} {session : Option Session} {e : Engine σ} {pid : Pid}
    {host : Host σ} (hs : e.host.spawn ev.backend (request argv {} session) = (.ok pid, host)) :
    ∃ started : Engine σ, ev.startChild argv {} session e = ⟨.ok .started, [pid], started⟩ ∧ started.host = host ∧
      started.io = e.io := by
  simp only [startChild, hs, Bool.false_eq_true, if_false]
  exact ⟨_, rfl, rfl, rfl⟩

/-- a group that the host outlives is launched and settled in its session -/
theorem runGroup_settle {launch : Launcher σ} {ctx : Context} {session : Option Session} {e e' : Engine σ}
    {l : Launched σ} (ho : ev.openSession ctx e = (.ok session, e')) (hl : launch ctx session e' = l)
    (hgoes : GoesOn l.outcome) : ev.runGroup launch ctx e = ev.settle session l := by
  have hterm : ev.terminated l.outcome = false := by
    unfold terminated
    cases hout : l.outcome with
    | ok _ => simp
    | error f =>
      rw [hout] at hgoes
      simp [show f.isExit = false from hgoes]
  simp only [runGroup, ho, hl, hterm, Bool.false_eq_true, if_false]

/-! ### the program on its own, in the terms of a group -/

/-- a new engine opens a session if output is captured -/
theorem openSession_new (io : Streams) (h : Host σ) :
    ev.openSession {} { host := h, io := some io } =
      match h.openSession ev.backend io.stdin.isSome true with
      | (.error f, host) => (.error f, { host, io := some io })
      | (.ok s, host) => (.ok (some s), { host, io := some io }) := by
  rfl

section

variable {argv : List String} {io : Option Streams} {h : Host σ} {e' : Engine σ} {session : Option Session}
  {f : Failure} {pid : Pid} {host : Host σ}

theorem runProgram_unopened (ho : ev.openSession {} { host := h, io := io.map (·.reset) } = (.error f, e')) :
    h.runProgram ev.backend argv io = (.error f, e'.io, e'.host) := by
  cases io with
  | none => cases ho
  | some io =>
    rw [Option.map_some, openSession_new] at ho
    split at ho
    · rename_i f' h' hm
      cases ho
      simp only [Host.runProgram, hm]
    · cases ho

theorem runProgram_refused (ho : ev.openSession {} { host := h, io := io.map (·.reset) } = (.ok session, e'))
    (hs : e'.host.spawn ev.backend (request argv {} session) = (.error f, host)) :
    h.runProgram ev.backend argv io = (.error f, e'.io, host.closeAll (leftOpen session)) := by
  cases io with
  | none =>
    cases ho
    have hs : h.spawn ev.backend { argv } = (.error f, host) := hs
    simp only [Host.runProgram, hs]
    rfl
  | some io =>
    rw [Option.map_some, openSession_new] at ho
    split at ho
    · cases ho
    · rename_i s h' hm
      cases ho
      have hs : h'.spawn ev.backend ⟨argv, s.stdin.map (·.reader), some s.stdout.writer, some s.stderr.writer, false⟩ =
        (.error f, host) := hs
      simp only [Host.runProgram, hm, hs, leftOpen, Option.toList_some, List.flatMap_cons, List.flatMap_nil,
        List.append_nil]

theorem runProgram_started (ho : ev.openSession {} { host := h, io := io.map (·.reset) } = (.ok session, e'))
    (hs : e'.host.spawn ev.backend (request argv {} session) = (.ok pid, host)) {started : Engine σ}
    (hhost : started.host = host) (hio : started.io = e'.io) :
    h.runProgram ev.backend argv io =
      let drained := ev.drain session started
      (drained.1.bind fun _ => (drained.2.host.wait ev.backend pid).1, drained.2.io,
        (drained.2.host.wait ev.backend pid).2) := by
  cases io with
  | none =>
    cases ho
    have hs : h.spawn ev.backend { argv } = (.ok pid, host) := hs
    simp only [Host.runProgram, hs, drain, hhost, hio]
    rfl
  | some io =>
    rw [Option.map_some, openSession_new] at ho
    split at ho
    · cases ho
    · rename_i s h' hm
      cases ho
      have hs : h'.spawn ev.backend ⟨argv, s.stdin.map (·.reader), some s.stdout.writer, some s.stderr.writer, false⟩ =
        (.ok pid, host) := hs
      simp only [Host.runProgram, hm, hs, drain, hhost, hio]
      cases (host.drain ev.backend s io.reset.stdin).1.result <;> rfl

/-- a session from which no child was started is drained without a chunk -/
theorem drain_silent (hsilent : ev.backend.Silent h)
    (ho : ev.openSession {} { host := h, io := io.map (·.reset) } = (.ok session, e'))
    (hs : e'.host.spawn ev.backend (request argv {} session) = (.error f, host)) :
    (ev.drain session { e' with host }).2.io = e'.io := by
  cases io with
  | none =>
    cases ho
    rfl
  | some io =>
    rw [Option.map_some, openSession_new] at ho
    split at ho
    · cases ho
    · rename_i s h' hm
      cases ho
      have hchunks : (host.drain ev.backend s io.reset.stdin).1.chunks = [] := hsilent _ _ _ _ _ _ _ hm hs
      simp only [drain, hchunks]
      rfl

end

/-! ### the group -/

/-- what a group comes to that has started one child -/
theorem settle_started (session : Option Session) (pid : Pid) (e : Engine σ) :
    ev.settle session ⟨.ok .started, [pid], e⟩ =
      let drained := ev.drain session e
      (drained.1.bind fun _ => (drained.2.host.wait ev.backend pid).1,
        { drained.2 with host := (drained.2.host.wait ev.backend pid).2 }) := by
  simp only [settle, waitAll]
  cases (ev.drain session e).1 with
  | error f => rfl
  | ok _ => cases ((ev.drain session e).2.host.wait ev.backend pid).1 <;> rfl

theorem settle_started_logged {session : Option Session} {e : Engine σ} (hcap : session.isSome → e.capture.isSome)
    (pid : Pid) :
    Logged e (ev.settle session ⟨.ok .started, [pid], e⟩).2 (draining (ev.drain session e).1 session ++
      [.waited pid ((ev.drain session e).2.host.wait ev.backend pid).1]) := by
  have hwait : Logged (ev.drain session e).2
      { (ev.drain session e).2 with host := ((ev.drain session e).2.host.wait ev.backend pid).2 }
      [.waited pid ((ev.drain session e).2.host.wait ev.backend pid).1] := Host.events_wait ev.backend _ pid
  rw [settle_started]
  exact (drain_trace ev session hcap).1.trans hwait

section

variable {argv : List String} {io : Option Streams} {h : Host σ} {e' : Engine σ} {session : Option Session}
  {opening : List Event} (ho : ev.openSession {} { host := h, io := io.map (·.reset) } = (.ok session, e'))
  (hopened : Logged { host := h, io := io.map (·.reset) } e' opening)
  (hopening : Opening false (io.map (·.stdin)) false (.ok session) opening)

include ho hopened hopening

/-- a child that is refused: the group is drained, and the session of the program on its own is closed -/
theorem likewise_refused (hsilent : ev.backend.Silent h) {f : Failure} {host : Host σ}
    (hs : e'.host.spawn ev.backend (request argv {} session) = (.error f, host)) (hgoes : f.isExit = false) :
    Likewise h (io.map (·.stdin)) argv (h.runProgram ev.backend argv io)
      (ev.runGroup (ev.startChild argv) {} { host := h, io := io.map (·.reset) }) := by
  have hspawned : Logged e' { e' with host } [.spawned (request argv {} session) (.error f)] := Host.spawn_events hs
  have hcap : session.isSome → e'.capture.isSome := (openSession_session ho).2
  obtain ⟨hdrained, -⟩ := drain_trace ev (e := { e' with host }) session hcap
  have halone := (hopened.trans hspawned).closeAll (leftOpen session)
  have hgroup := (hopened.trans hspawned).trans hdrained
  rw [List.append_assoc] at halone hgroup
  rw [runProgram_refused ev ho hs, runGroup_settle ev ho (startChild_refused ev hs) hgoes]
  exact ⟨rfl, drain_silent ev hsilent ho hs, by rintro _ ⟨⟩, _, _, halone, hgroup, .unstarted f _ hopening⟩

/-- a child that was started is drained and waited for in the same way -/
theorem likewise_started {pid : Pid} {host : Host σ}
    (hs : e'.host.spawn ev.backend (request argv {} session) = (.ok pid, host)) :
    Likewise h (io.map (·.stdin)) argv (h.runProgram ev.backend argv io)
      (ev.runGroup (ev.startChild argv) {} { host := h, io := io.map (·.reset) }) := by
  obtain ⟨started, hstarted, hhost, hio⟩ := startChild_started ev hs
  have hspawned : Logged e' started [.spawned (request argv {} session) (.ok pid)] := by
    rw [Logged, events, hhost]
    exact Host.spawn_events hs
  have hcap : session.isSome → started.capture.isSome := by
    rw [capture, hio]
    exact (openSession_session ho).2
  have hlog := (hopened.trans hspawned).trans (settle_started_logged ev hcap pid)
  rw [List.append_assoc] at hlog
  rw [runProgram_started ev ho hs hhost hio, runGroup_settle ev ho hstarted trivial]
  rw [settle_started] at hlog ⊢
  exact ⟨rfl, rfl, fun _ _ => rfl, _, _, hlog, hlog, .ran pid _ _ hopening rfl⟩

end

/-- **A group of one command goes as the program on its own.** The session is opened alike, and then the child is
asked for alike. Only if it is refused do the two go apart, and come to the same failure. -/
theorem runGroup_likewise (argv : List String) (io : Option Streams) (h : Host σ) (hsilent : ev.backend.Silent h)
    (hgoes : GoesOn (h.runProgram ev.backend argv io).1) :
    Likewise h (io.map (·.stdin)) argv (h.runProgram ev.backend argv io)
      (ev.runGroup (ev.startChild argv) {} { host := h, io := io.map (·.reset) }) := by
  have hcapture : ({ host := h, io := io.map (·.reset) } : Engine σ).capture = io.map (·.stdin) := by
    cases io <;> rfl
  cases ho : ev.openSession {} { host := h, io := io.map (·.reset) } with
  | mk r e' =>
    obtain ⟨⟨opening, hopened, hopening⟩, -⟩ := openSession_opening ev ho
    rw [hcapture] at hopening
    cases r with
    | error f =>
      have hgroup : ev.runGroup (ev.startChild argv) {} { host := h, io := io.map (·.reset) } = (.error f, e') := by
        simp only [runGroup, ho]
      rw [hgroup, runProgram_unopened ev ho]
      exact ⟨rfl, rfl, by rintro _ ⟨⟩, opening, opening, hopened, hopened, .unopened hopening⟩
    | ok session =>
      cases hs : e'.host.spawn ev.backend (request argv {} session) with
      | mk r host =>
        cases r with
        | error f =>
          rw [runProgram_refused ev ho hs] at hgoes
          exact likewise_refused ev ho hopened hopening hsilent hs hgoes
        | ok pid => exact likewise_started ev ho hopened hopening hs

end Evaluation

/-! ## the line -/

/-- what is told behind a line: its failure, if it has one -/
def Ending.told (ending : Ending) : List (Output × Bytes) :=
  ending.failure?.toList.map fun f => (.stderr, Text.bytes s!"embsh: {f.message}\n")

/-- a line of one command beside the program on its own -/
structure Run.Likewise (h : Host σ) (capture : Option (Option Bytes)) (argv : List String)
    (alone : Except Failure Int × Option Streams × Host σ) (run : Run σ) : Prop where
  ending : run.ending = .returned alone.1
  io : run.io = alone.2.1.map (·.deliverAll run.ending.told)
  stdout : run.io.map (·.channel .stdout) = alone.2.1.map (·.channel .stdout)
  log : ∃ evs evs', alone.2.2.events = h.events ++ evs ∧
    run.host.events = h.events ++ (evs' ++ run.ending.failure?.toList.map .reported) ∧
    Evaluation.Counterparts capture argv alone.1 evs evs'
  success : ∀ status, alone.1 = .ok status → run.io = alone.2.1 ∧ run.host = alone.2.2

namespace Shell

variable (sh : Shell σ)

/-- the step of a group is as the program on its own, with its failure told behind it -/
theorem likewise_of_step {h : Host σ} {capture : Option (Option Bytes)} {argv : List String}
    {alone : Except Failure Int × Option Streams × Host σ} {st : Step σ}
    (hlike : Evaluation.Likewise h capture argv alone (st.ran, st.ended))
    (hforeground : st.statement.background = false) (hgoes : GoesOn alone.1) :
    Run.Likewise h capture argv alone ⟨sh.ending st.result, st.after.io, st.after.host⟩ := by
  have hran : st.ran = alone.1 := hlike.result
  have hresult : st.result = alone.1 := by
    rw [Step.result, hforeground, hran]
    cases alone.1 <;> rfl
  have hending : sh.ending st.result = .returned alone.1 := by
    rw [hresult]
    cases hr : alone.1 with
    | ok status => rfl
    | error f =>
      rw [hr] at hgoes
      cases f <;> first | rfl | cases hgoes
  have hfailure : st.failure? = (Ending.returned alone.1).failure? := by
    rw [Step.failure?, hran]
    cases hr : alone.1 with
    | ok status => rfl
    | error f =>
      rw [hr] at hgoes
      exact if_neg (ne_true_of_eq_false hgoes)
  have htold : st.told = Ending.told (.returned alone.1) := by
    rw [Step.told, hfailure]
    rfl
  have hsent : Engine.Sent st.ended st.after st.told :=
    (Engine.sent_emitAll st.ended st.told).of_io_eq_right (Evaluation.ended_told st).1
  have hio : st.ended.io = alone.2.1 := hlike.io
  rw [hending]
  refine ⟨rfl, ?_, ?_, ?_, ?_⟩
  · rw [← htold, ← hio]
    exact hsent
  · have hnone : sentTo .stdout st.told = [] := by
      cases hf : st.failure? <;> simp [Step.told, hf, sentTo]
    have hchannel := hsent.channel .stdout
    rw [hnone, hio] at hchannel
    exact hchannel
  · obtain ⟨evs, evs', halone, hgroup, hcounterparts⟩ := hlike.log
    refine ⟨evs, evs', halone, ?_, hcounterparts⟩
    have hreported := Evaluation.ended_logged st
    rw [Engine.Logged, hgroup, hfailure, List.append_assoc] at hreported
    exact hreported
  · intro status hstatus
    have hnone : st.failure? = none := by rw [hfailure, hstatus]; rfl
    obtain ⟨lastStatus, hremembered⟩ := st.remembered_eq
    have hafter : st.after = { st.ended with lastStatus } := by
      rw [Step.after, hnone]
      exact hremembered
    rw [hafter]
    exact ⟨hio, hlike.host status hstatus⟩

/-- **The two ways to run one program agree.** On a line that is one command and nothing else, the shell ends as the
program does on its own: with the same status or the same failure. The output that was captured is the same; a failure
is told behind it on the error stream, in one line. Both make the same pipes and ask for the same process, and a
process that was started is drained and waited for in the same way. Without a failure the shell leaves the very same
behind. -/
theorem run_alone {fine : σ → Prop} (hb : sh.backend.NeverStops fine) {h : Host σ} (hs : fine h.state)
    (hsilent : sh.backend.Silent h) {line : String} {t : Tree} (hline : Line.command line = .ok (some t))
    {words : List Span} (ht : t.statements = [⟨.command words, false⟩]) {program : String} {args : List String}
    (hargv : words.map (·.text line) = program :: args) (hprogram : Builtin.ofName? program = none)
    (io : Option Streams) :
    Run.Likewise h (io.map (·.stdin)) (program :: args) (h.runProgram sh.backend (program :: args) io)
      (sh.run line io h) := by
  have hgoes := hb.runProgram hs (program :: args) io
  obtain ⟨st, hlast, -, hrun⟩ := run_read sh hline io h
  have hst : st = Evaluation.step ⟨sh.backend, line, sh.settings⟩ {} ⟨.command words, false⟩
      { host := h, io := io.map (·.reset) } := by
    simp only [steps, hline, ht, Evaluation.steps, ite_self] at hlast
    exact (Option.some.inj hlast).symm
  have hlike := Evaluation.runGroup_likewise ⟨sh.backend, line, sh.settings⟩ (program :: args) io h hsilent hgoes
  rw [← Evaluation.launch_command ⟨sh.backend, line, sh.settings⟩ hargv hprogram] at hlike
  rw [hrun]
  exact likewise_of_step sh (by rw [hst]; exact hlike) (by rw [hst]; rfl) hgoes

end Shell

/-! ## scripts -/

namespace Scripted

/-- a host whose program `b` cannot be started -/
def refusing : Host State :=
  { world := {}, state := { scripts := [("b", { spawnFault := some (.spawn "b" (.system .noEntry)) })] } }

/-- asking for a program that cannot be started leaves everything as it is -/
theorem spawn_refused {h h' : Host State} {request : SpawnRequest} {f : Failure}
    (hs : h.spawn backend request = (.error f, h')) : h' = h.note (.spawned request (.error f)) := by
  unfold Host.spawn backend spawn at hs
  simp only at hs
  split at hs
  · cases hs
    rfl
  · cases hs

/-- a stream that gives nothing comes to no chunk -/
theorem chunks_nil {o : Output} {bytes : Bytes} (h : bytes = []) : (chunks bytes).map (fun c => (o, c)) = [] := by
  rw [h, chunks]
  rfl

theorem refusing_silent : backend.Silent refusing := by
  intro withStdin session h₁ request f h₂ payload ho hs
  obtain rfl := spawn_refused hs
  cases withStdin with
  | false =>
    cases ho
    exact List.append_eq_nil_iff.2 ⟨chunks_nil rfl, chunks_nil rfl⟩
  | true =>
    cases ho
    exact List.append_eq_nil_iff.2 ⟨chunks_nil rfl, chunks_nil rfl⟩

end Scripted

namespace Shell

/-- The line `b x;`, with a payload, on a host that cannot start `b`. -/
theorem run_alone_refused :
    Scripted.refusing.state.Fine IsStatus ∧ Scripted.backend.Silent Scripted.refusing ∧
    (Scripted.refusing.runProgram Scripted.backend ["b", "x"] (some { stdin := some [1] })).1 =
      .error (.spawn "b" (.system .noEntry)) ∧
    Run.Likewise Scripted.refusing (some (some [1])) ["b", "x"]
      (Scripted.refusing.runProgram Scripted.backend ["b", "x"] (some { stdin := some [1] }))
      (run ⟨Scripted.backend, {}⟩ "b x;" (some { stdin := some [1] }) Scripted.refusing) := by
  have hfine : Scripted.refusing.state.Fine IsStatus := by
    refine Scripted.fine_of_scripts ?_
    simp only [List.forall_mem_cons]
    refine ⟨⟨⟨by decide, by decide⟩, ?_, ?_⟩, List.forall_mem_nil _⟩
    · rintro _ ⟨⟩
      trivial
    · rintro _ ⟨⟩
  have hstops : Scripted.backend.NeverStops (Scripted.State.Fine IsStatus) :=
    (Scripted.dependable ⟨by decide, by decide⟩).neverStops
  have hline : Line.command "b x;" = .ok (some (.ended (.command [⟨0, 1⟩, ⟨2, 3⟩]) .sequence)) := by decide +kernel
  have hargv : ([⟨0, 1⟩, ⟨2, 3⟩] : List Span).map (·.text "b x;") = ["b", "x"] := by decide +kernel
  exact ⟨hfine, Scripted.refusing_silent, rfl,
    run_alone ⟨Scripted.backend, {}⟩ hstops hfine Scripted.refusing_silent hline rfl hargv (by decide)
      (some { stdin := some [1] })⟩

end Shell

end LineShell
