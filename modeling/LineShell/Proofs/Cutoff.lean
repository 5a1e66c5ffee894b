/-
Where a pipeline breaks.

A stage cannot be launched for one of five reasons: there is no pipe for it, the target of its redirection cannot be
opened, its child cannot be started, the descriptor that its builtin writes to cannot be duplicated, or its builtin
has failed or is `exit` (`Breaks`). What has been done by then stays done, and nothing more is done. `Effect` is what
is counted: pipes made, files opened, builtins run and children started. `effects` are those of one stage, in order,
and `carriedOut` is the part of them that comes before its break.

- `launchStages_cut`: the stages in front of the one that breaks have all their effects, that one has those before its
  break, and there are no others.
- `launchStages_behind`: the stages behind do not matter.
- `execute_cut`: so it is with every group of a line. Then 1 is remembered and the next statement is run, unless the
  shell was asked to stop.
-/
import LineShell.Proofs.Targets
import LineShell.Proofs.Verdict

namespace LineShell

/-! ## effects -/

/-- something that a launch does -/
inductive Effect where
  | pipe
  | file (direction : Direction) (path : String)
  | builtin (builtin : Builtin) (args : List String)
  | child (argv : List String)
  deriving DecidableEq, Repr

namespace Event

/-- the effect that an event tells of; what was refused has none -/
def effect? : Event → Option Effect
  | piped (.ok _) => some .pipe
  | redirected direction path (.ok _) => some (.file direction path)
  | ranBuiltin builtin args => some (.builtin builtin args)
  | spawned request (.ok _) => some (.child request.argv)
  | _ => none

/-- was something refused? -/
def isRefusal : Event → Bool
  | piped (.error _) => true
  | redirected _ _ (.error _) => true
  | spawned _ (.error _) => true
  | duplicated _ (.error _) => true
  | _ => false

end Event

/-- events that do nothing and ask for nothing that is refused -/
def Idle (evs : List Event) : Prop := ∀ x ∈ evs, x.effect? = none ∧ x.isRefusal = false

theorem Idle.effects {evs : List Event} (h : Idle evs) : evs.filterMap Event.effect? = [] := by
  rw [List.filterMap_eq_nil_iff]
  intro x hx
  exact (h x hx).1

theorem Idle.refusals {evs : List Event} (h : Idle evs) : evs.filter Event.isRefusal = [] := by
  rw [List.filter_eq_nil_iff]
  intro x hx
  simp [(h x hx).2]

theorem idle_closed (ds : List Descriptor) : Idle (ds.map .closed) := by
  intro x hx
  obtain ⟨d, -, rfl⟩ := List.mem_map.1 hx
  exact ⟨rfl, rfl⟩

/-- why a stage could not be launched -/
inductive Breakdown where
  | pipe (f : Failure)
  | file (direction : Direction) (path : String) (fault : IoFault)
  | child (request : SpawnRequest) (f : Failure)
  | duplicate (output : Descriptor) (fault : IoFault)
  | builtin (builtin : Builtin) (args : List String) (f : Failure)

namespace Breakdown

/-- the failure that comes of it -/
def failure : Breakdown → Failure
  | pipe f => f
  | file _ path fault => .redirect path fault
  | child _ f => f
  | duplicate _ fault => .io fault
  | builtin _ _ f => f

/-- what was refused -/
def refusal : Breakdown → List Event
  | pipe f => [.piped (.error f)]
  | file direction path fault => [.redirected direction path (.error fault)]
  | child request f => [.spawned request (.error f)]
  | duplicate output fault => [.duplicated output (.error fault)]
  | builtin _ _ _ => []

/-- does the stage break when the target of its redirection, if it has one, is open? -/
def isLate : Breakdown → Bool
  | pipe _ => false
  | file _ _ _ => false
  | child _ _ => true
  | duplicate _ _ => true
  | builtin _ _ _ => true

end Breakdown

namespace Evaluation

open Engine

variable {σ : Type} (ev : Evaluation σ)

/-! ### the effects of stages -/

/-- the pipe behind a stage -/
def outlets (last : Bool) : List Effect := if last then [] else [.pipe]

/-- the file of a stage's redirection -/
def targets (s : Stage) : List Effect :=
  (s.redirection.map fun r => Effect.file r.1 (r.2.text ev.line)).toList

variable {ev} in
theorem targets_plain {s : Stage} (h : s.redirection = none) : ev.targets s = [] := by
  simp [targets, h]

variable {ev} in
theorem targets_redirected {s : Stage} {dir : Direction} {target : Span} (h : s.redirection = some (dir, target)) :
    ev.targets s = [.file dir (target.text ev.line)] := by
  simp [targets, h]

/-- the command of a stage -/
def command (s : Stage) : Effect :=
  match ev.builtinOf s.words with
  | some b => .builtin b (ev.argv s.words).tail
  | none => .child (ev.argv s.words)

/-- what launching a stage does, in order -/
def effects (last : Bool) (s : Stage) : List Effect := outlets last ++ ev.targets s ++ [ev.command s]

/-- the part of it that is done when the stage breaks; a builtin that has failed has run, and one that has no
descriptor of its own to write to has not -/
def carriedOut (last : Bool) (s : Stage) : Breakdown → List Effect
  | .pipe _ => []
  | .file _ _ _ => outlets last
  | .child _ _ => outlets last ++ ev.targets s
  | .duplicate _ _ => outlets last ++ ev.targets s
  | .builtin _ _ _ => ev.effects last s

/-- a stage breaks where it is attempted, on this engine -/
inductive Breaks (session : Option Session) (last : Bool) (s : Stage) (ctx : Context) (e : Engine σ) : Breakdown → Prop
  | pipe {f : Failure} {host : Host σ} : last = false → e.host.pipe ev.backend = (.error f, host) →
      Breaks session last s ctx e (.pipe f)
  | file {dir : Direction} {target : Span} {fault : IoFault} {host : Host σ} : s.redirection = some (dir, target) →
      e.host.openTarget dir (target.text ev.line) = (.error (.redirect (target.text ev.line) fault), host) →
        Breaks session last s ctx e (.file dir (target.text ev.line) fault)
  | child {inner : Context} {e' : Engine σ} {f : Failure} {host : Host σ} : ev.Reaches s ctx e inner e' →
      ev.builtinOf s.words = none →
      e'.host.spawn ev.backend (request (ev.argv s.words) inner session) = (.error f, host) →
        Breaks session last s ctx e (.child (request (ev.argv s.words) inner session) f)
  | duplicate {inner : Context} {e' : Engine σ} {b : Builtin} {d : Descriptor} {fault : IoFault} {host : Host σ} :
      ev.Reaches s ctx e inner e' → ev.builtinOf s.words = some b → inner.output = some d →
      e'.host.duplicate d = (.error fault, host) →
        Breaks session last s ctx e (.duplicate d fault)
  | builtin {inner : Context} {e' : Engine σ} {b : Builtin} {f : Failure} : ev.Reaches s ctx e inner e' →
      ev.builtinOf s.words = some b → duplicateOutcome inner e' = .ok () →
      (ev.runBuiltin b (ev.argv s.words).tail inner e').1 = .error f →
      ((∃ fault, f = .io fault) ∨ b = .exit ∧ ∃ n, f = .exit n) →
        Breaks session last s ctx e (.builtin b (ev.argv s.words).tail f)

/-! ## one stage -/

variable {ev} {session : Option Session}

/-- a builtin that has run and failed has met a failure of its output, or is `exit` -/
theorem perform_error {b : Builtin} {args : List String} {ctx : Context} {e : Engine σ} {f : Failure}
    (h : (ev.perform b args ctx e).1 = .error f) : (∃ fault, f = .io fault) ∨ b = .exit ∧ ∃ n, f = .exit n := by
  rcases answer_cases b _ _ with ⟨fault, hio⟩ | ⟨status, -, hstatus⟩
  · exact .inl ⟨fault, Except.error.inj (h.symm.trans hio)⟩
  · have hanswer := h.symm.trans hstatus
    split at hanswer
    · rename_i hexit
      exact .inr ⟨hexit, status, Except.error.inj hanswer⟩
    · cases hanswer

/-- a builtin that fails has no descriptor of its own to write to, or has run -/
theorem runBuiltin_error {b : Builtin} {args : List String} {ctx : Context} {e : Engine σ} {f : Failure}
    (h : (ev.runBuiltin b args ctx e).1 = .error f) :
    (∃ d fault host, ctx.output = some d ∧ e.host.duplicate d = (.error fault, host) ∧ f = .io fault ∧
      Logged e (ev.runBuiltin b args ctx e).2 [.duplicated d (.error fault)]) ∨
    (duplicateOutcome ctx e = .ok () ∧ ((∃ fault, f = .io fault) ∨ b = .exit ∧ ∃ n, f = .exit n) ∧
      Logged e (ev.runBuiltin b args ctx e).2 (Event.performed b args ctx.output)) := by
  rcases ev.runBuiltin_cases b args ctx e with ⟨hout, hrun⟩ | ⟨d, hout, hlog, ⟨fault, hdup, hrun⟩ | ⟨hdup, hrun⟩⟩
  · rw [hrun] at h ⊢
    rw [hout]
    refine .inr ⟨?_, perform_error h, perform_logged ev b args ctx e⟩
    rw [duplicateOutcome, hout]
  · rw [hdup] at hlog
    rw [hrun] at h ⊢
    exact .inl ⟨d, fault, _, hout, Prod.ext hdup rfl, (Except.error.inj h).symm, hlog⟩
  · rw [hdup] at hlog
    rw [hrun] at h ⊢
    rw [hout]
    refine .inr ⟨?_, perform_error h, hlog.trans ((perform_logged ev b args ctx _).closeAll [d])⟩
    rw [duplicateOutcome, hout]
    exact hdup

/-- a builtin that has run has had its effect, whatever it writes to -/
theorem performed_done (b : Builtin) (args : List String) (output : Option Descriptor) :
    (Event.performed b args output).filterMap Event.effect? = [.builtin b args] ∧
      (Event.performed b args output).filter Event.isRefusal = [] := by
  cases output <;> exact ⟨rfl, rfl⟩

theorem launchCommand_of_builtin {words : List Span} {b : Builtin} (hb : ev.builtinOf words = some b) (ctx : Context)
    (e : Engine σ) :
    ev.launchCommand words ctx session e =
      ⟨(ev.runBuiltin b (ev.argv words).tail ctx e).1.map .finished, [],
        (ev.runBuiltin b (ev.argv words).tail ctx e).2⟩ := by
  cases hargv : ev.argv words with
  | nil => simp [builtinOf, hargv] at hb
  | cons program args =>
    rw [builtinOf_cons hargv] at hb
    simp only [argv] at hargv
    simp only [launchCommand, hargv, hb, List.tail_cons]

theorem launchCommand_of_child {words : List Span} (hwords : words ≠ []) (hb : ev.builtinOf words = none)
    (ctx : Context)
    (e : Engine σ) : ev.launchCommand words ctx session e = ev.startChild (ev.argv words) ctx session e := by
  cases hargv : ev.argv words with
  | nil => exact absurd (List.map_eq_nil_iff.1 hargv) hwords
  | cons program args =>
    rw [builtinOf_cons hargv] at hb
    simp only [argv] at hargv
    simp only [launchCommand, hargv, hb]

/-- a command that is launched has its effect -/
theorem launchCommand_done {s : Stage} (hwords : s.words ≠ []) {ctx : Context} {e : Engine σ} {so : StageOutcome}
    (h : (ev.launchCommand s.words ctx session e).outcome = .ok so) :
    ∃ evs, Logged e (ev.launchCommand s.words ctx session e).engine evs ∧ evs.filterMap Event.effect? = [ev.command s] ∧
      evs.filter Event.isRefusal = [] := by
  obtain ⟨took, evs, htrace, hlog, -⟩ := launchCommand_trace ev hwords ctx session e rfl
  refine ⟨evs, hlog, ?_⟩
  rw [h] at htrace
  generalize (ev.launchCommand s.words ctx session e).started = ps at htrace
  generalize ho : (Except.ok so : Except Failure StageOutcome) = o at htrace
  cases htrace with
  | @builtin program args b r hargv hb =>
    have hcommand : ev.command s = .builtin b args := by
      simp only [command, builtinOf_cons hargv, hb, hargv, List.tail_cons]
    rw [hcommand]
    exact performed_done b args ctx.output
  | unduplicated d f _ _ _ => cases ho
  | refused f hargv hb => cases ho
  | started pid hargv hb _ =>
    have hcommand : ev.command s = .child (ev.argv s.words) := by simp only [command, builtinOf_cons hargv, hb]
    exact ⟨by rw [hcommand]; rfl, rfl⟩
  | letGo pid hargv hb _ =>
    have hcommand : ev.command s = .child (ev.argv s.words) := by simp only [command, builtinOf_cons hargv, hb]
    exact ⟨by rw [hcommand]; rfl, rfl⟩

/-- a command that is not launched: its child was refused, or its builtin has failed, which has run unless there was no
descriptor for it to write to -/
theorem launchCommand_broken {s : Stage} (hwords : s.words ≠ []) {ctx inner : Context} {e e' : Engine σ} {f : Failure}
    (hreaches : ev.Reaches s ctx e inner e') (h : (ev.launchCommand s.words inner session e').outcome = .error f)
    (last : Bool) :
    ∃ how evs, ev.Breaks session last s ctx e how ∧ how.failure = f ∧
      Logged e' (ev.launchCommand s.words inner session e').engine evs ∧
      outlets last ++ ev.targets s ++ evs.filterMap Event.effect? = ev.carriedOut last s how ∧
      evs.filter Event.isRefusal = how.refusal := by
  cases hb : ev.builtinOf s.words with
  | some b =>
    rw [launchCommand_of_builtin hb] at h ⊢
    have hf : (ev.runBuiltin b (ev.argv s.words).tail inner e').1 = .error f := by
      cases hr : (ev.runBuiltin b (ev.argv s.words).tail inner e').1 with
      | ok n => simp [hr, Except.map] at h
      | error f' => simpa [hr, Except.map] using h
    rcases runBuiltin_error hf with ⟨d, fault, host, hout, hdup, rfl, hlog⟩ | ⟨hdup, hcause, hlog⟩
    · refine ⟨_, _, .duplicate hreaches hb hout hdup, rfl, hlog, ?_, rfl⟩
      simp [carriedOut, Event.effect?]
    · obtain ⟨hdone, hrefusals⟩ := performed_done b (ev.argv s.words).tail inner.output
      refine ⟨_, _, .builtin hreaches hb hdup hf hcause, rfl, hlog, ?_, hrefusals⟩
      simp only [hdone, carriedOut, effects, command, hb]
  | none =>
    rw [launchCommand_of_child hwords hb] at h ⊢
    unfold startChild at h ⊢
    simp only at h ⊢
    split at h
    · rename_i f' host hs
      obtain rfl := Except.error.inj h
      refine ⟨_, _, .child hreaches hb hs, rfl, Host.spawn_events hs, ?_, rfl⟩
      simp [carriedOut, Event.effect?]
    · split at h
      · cases h
      · cases h

/-- a stage that is launched does its effects, the pipe behind it apart -/
theorem launchStage_done {s : Stage} (hwords : s.words ≠ []) {ctx : Context} {e : Engine σ} {so : StageOutcome}
    (h : (ev.launchStage s ctx session e).outcome = .ok so) :
    ∃ evs, Logged e (ev.launchStage s ctx session e).engine evs ∧
      evs.filterMap Event.effect? = ev.targets s ++ [ev.command s] ∧ evs.filter Event.isRefusal = [] := by
  unfold launchStage at h ⊢
  cases hredirection : s.redirection with
  | none =>
    rw [hredirection] at h
    simp only at h ⊢
    rw [targets_plain hredirection]
    exact launchCommand_done hwords h
  | some redirection =>
    obtain ⟨dir, target⟩ := redirection
    rw [hredirection] at h
    simp only at h ⊢
    rcases ho : e.host.openTarget dir (target.text ev.line) with ⟨r, host⟩
    cases r with
    | error f =>
      rw [launchRedirected_refused ev ho] at h
      cases h
    | ok d =>
      rw [launchRedirected_opened ev ho] at h ⊢
      have hopen : Logged e { e with host } [.redirected dir (target.text ev.line) (.ok d)] := by
        rcases Host.openTarget_events ho with ⟨d', hd, hevents⟩ | ⟨fault, hd, -⟩
        · cases hd
          exact hevents
        · cases hd
      obtain ⟨evs, hlog, heffects, hrefusals⟩ := launchCommand_done hwords h
      refine ⟨_, (hopen.trans hlog).closeAll [d], ?_, ?_⟩
      · simp [List.filterMap_append, heffects, targets_redirected hredirection, Event.effect?]
      · simp [List.filter_append, hrefusals, Event.isRefusal]

/-- a stage that is not launched breaks, unless there was no pipe for it -/
theorem launchStage_broken {s : Stage} (hwords : s.words ≠ []) {ctx : Context} {e : Engine σ} {f : Failure}
    (h : (ev.launchStage s ctx session e).outcome = .error f) (last : Bool) :
    ∃ how evs, ev.Breaks session last s ctx e how ∧ how.failure = f ∧
      Logged e (ev.launchStage s ctx session e).engine evs ∧
      outlets last ++ evs.filterMap Event.effect? = ev.carriedOut last s how ∧
        evs.filter Event.isRefusal = how.refusal := by
  unfold launchStage at h ⊢
  cases hredirection : s.redirection with
  | none =>
    rw [hredirection] at h
    simp only at h ⊢
    obtain ⟨how, evs, hbreaks, hfailure, hlog, heffects, hrefusals⟩ :=
      launchCommand_broken hwords (.plain hredirection) h last
    rw [targets_plain hredirection, List.append_nil] at heffects
    exact ⟨how, evs, hbreaks, hfailure, hlog, heffects, hrefusals⟩
  | some redirection =>
    obtain ⟨dir, target⟩ := redirection
    rw [hredirection] at h
    simp only at h ⊢
    rcases ho : e.host.openTarget dir (target.text ev.line) with ⟨r, host⟩
    rcases Host.openTarget_events ho with ⟨d, rfl, hopen⟩ | ⟨fault, rfl, hopen⟩
    · rw [launchRedirected_opened ev ho] at h ⊢
      have hopened : Logged e { e with host } [.redirected dir (target.text ev.line) (.ok d)] := hopen
      obtain ⟨how, evs, hbreaks, hfailure, hlog, heffects, hrefusals⟩ :=
        launchCommand_broken hwords (.redirected hredirection ho) h last
      refine ⟨how, _, hbreaks, hfailure, (hopened.trans hlog).closeAll [d], ?_, ?_⟩
      · rw [← heffects, targets_redirected hredirection]
        simp [List.filterMap_append, Event.effect?]
      · rw [← hrefusals]
        simp [List.filter_append, Event.isRefusal]
    · rw [launchRedirected_refused ev ho] at h ⊢
      obtain rfl := Except.error.inj h
      refine ⟨_, _, .file hredirection ho, rfl, hopen, ?_, rfl⟩
      simp [carriedOut, Event.effect?]

/-! ## stages in turn -/

variable (ev) in
/-- launch stages, left to right; `inlet` is the pipe that the first of them reads, which is closed when they have been
launched -/
def launchStages : List Stage → (inlet : Option Descriptor) → Launcher σ
  | [], inlet => fun _ _ e => closing inlet ⟨.ok (.finished 0), [], e⟩
  | [s], inlet => fun ctx session e => closing inlet (ev.launchStage s ctx session e)
  | s :: next :: rest, inlet => fun ctx session e =>
    match e.host.pipe ev.backend with
    | (.error f, host) => closing inlet ⟨.error f, [], { e with host }⟩
    | (.ok pipe, host) =>
      let l := ev.launchStage s { ctx with output := some pipe.writer } session { e with host }
      match l.outcome with
      | .error f => ⟨.error f, l.started, l.engine.closeAll ([pipe.reader, pipe.writer] ++ inlet.toList)⟩
      | .ok _ =>
        let r := launchStages (next :: rest) (some pipe.reader) { ctx with input := some pipe.reader } session
          (l.engine.closeAll (inlet.toList ++ [pipe.writer]))
        { r with started := l.started ++ r.started }

variable (ev) in
/-- launching a group is launching its stages -/
theorem launchFrom_eq_launchStages {t : Tree} (ht : t.IsGroup) (inlet : Option Descriptor) :
    ev.launchFrom t inlet = ev.launchStages t.stages inlet := by
  funext ctx session e
  induction ht generalizing inlet ctx e with
  | last hs =>
    obtain ⟨s, hstages, -, hlaunch⟩ := launchFrom_eq_launchStage ev hs
    rw [hstages, launchFrom_stage_eq hs, hlaunch]
    rfl
  | @piped left right hs hg ih =>
    obtain ⟨s, hstages, -, hlaunch⟩ := launchFrom_eq_launchStage ev hs
    obtain ⟨next, rest, hright⟩ := List.exists_cons_of_ne_nil hg.stages_ne_nil
    rw [hright] at ih
    rw [Tree.stages, hstages, hright, List.singleton_append, launchStages]
    rcases hp : e.host.pipe ev.backend with ⟨r, host⟩
    cases r with
    | error f => simp only [launchFrom, hp]
    | ok pipe =>
      have hleft : ev.launchFrom left none { ctx with output := some pipe.writer } session { e with host } =
          ev.launchStage s { ctx with output := some pipe.writer } session { e with host } := by rw [hlaunch]
      rw [launchFrom_pipe hp hleft]
      cases hout : (ev.launchStage s { ctx with output := some pipe.writer } session { e with host }).outcome with
      | error f => simp only [hp, hout]
      | ok so => simp only [hp, hout, ih]

variable (ev) in
/-- the stages in front of the k-th are launched, and the k-th one is not -/
def FailsAt (session : Option Session) (stages : List Stage) (ctx : Context) (inlet : Option Descriptor) (e : Engine σ)
    (k : Nat) (f : Failure) : Prop :=
  ∃ sos : List StageOutcome, sos.length = k ∧
    (ev.attempts session stages ctx inlet e).map (·.launched.outcome) = sos.map .ok ++ [.error f]

variable (ev) in
/-- the first of several stages is launched: the others are launched from here, and the first of them reads the pipe -/
inductive Passes (session : Option Session) (s : Stage) (ctx : Context) (inlet : Option Descriptor) (e : Engine σ) :
    Context → Option Descriptor → Engine σ → Prop
  | on {pipe : Pipe} {host : Host σ} {so : StageOutcome} : e.host.pipe ev.backend = (.ok pipe, host) →
      (ev.launchStage s { ctx with output := some pipe.writer } session { e with host }).outcome = .ok so →
        Passes session s ctx inlet e { ctx with input := some pipe.reader } (some pipe.reader)
          ((ev.launchStage s { ctx with output := some pipe.writer } session { e with host }).engine.closeAll
            (inlet.toList ++ [pipe.writer]))

section

variable {s next : Stage} {rest : List Stage} {ctx ctx' : Context} {inlet inlet' : Option Descriptor} {e e' : Engine σ}

theorem Passes.attempts (h : ev.Passes session s ctx inlet e ctx' inlet' e') (next : Stage) (rest : List Stage) :
    ∃ a, ev.attempts session (s :: next :: rest) ctx inlet e =
      a :: ev.attempts session (next :: rest) ctx' inlet' e' := by
  cases h with
  | @on pipe host so hp hso =>
    refine ⟨⟨s, { ctx with output := some pipe.writer }, { e with host },
      ev.launchStage s { ctx with output := some pipe.writer } session { e with host }⟩, ?_⟩
    simp only [Evaluation.attempts, hp, hso]

theorem Passes.launchStages (h : ev.Passes session s ctx inlet e ctx' inlet' e') :
    ∃ ps, ∀ next rest, ev.launchStages (s :: next :: rest) inlet ctx session e =
      { ev.launchStages (next :: rest) inlet' ctx' session e' with
        started := ps ++ (ev.launchStages (next :: rest) inlet' ctx' session e').started } := by
  cases h with
  | @on pipe host so hp hso =>
    refine ⟨(ev.launchStage s { ctx with output := some pipe.writer } session { e with host }).started, ?_⟩
    intro next rest
    simp only [Evaluation.launchStages, hp, hso]

/-- the effects of a stage that has been launched, the pipe behind it included -/
theorem Passes.logged (h : ev.Passes session s ctx inlet e ctx' inlet' e') (hwords : s.words ≠ []) :
    ∃ evs, Logged e e' evs ∧ evs.filterMap Event.effect? = ev.effects false s ∧ evs.filter Event.isRefusal = [] := by
  cases h with
  | @on pipe host so hp hso =>
    have hmade : Logged e { e with host } [.made pipe] := Host.pipe_events hp
    obtain ⟨evs, hlog, heffects, hrefusals⟩ := launchStage_done hwords hso
    have hidle := idle_closed (inlet.toList ++ [pipe.writer])
    refine ⟨_, (hmade.trans hlog).closeAll (inlet.toList ++ [pipe.writer]), ?_, ?_⟩
    · rw [List.filterMap_append, List.filterMap_append, hidle.effects, heffects]
      simp [effects, outlets, Event.made, Event.effect?]
    · rw [List.filter_append, List.filter_append, hidle.refusals, hrefusals]
      simp [Event.made, Event.isRefusal]

/-- a stage further on is not launched: the first one has been -/
theorem FailsAt.passes {k : Nat} {f : Failure} (h : ev.FailsAt session (s :: next :: rest) ctx inlet e (k + 1) f) :
    ∃ ctx' inlet' e', ev.Passes session s ctx inlet e ctx' inlet' e' ∧
      ev.FailsAt session (next :: rest) ctx' inlet' e' k f := by
  obtain ⟨sos, hlength, houtcomes⟩ := h
  obtain ⟨so, sos, rfl⟩ := List.exists_cons_of_length_eq_add_one hlength
  simp only [attempts] at houtcomes
  split at houtcomes
  · simp at houtcomes
  · rename_i pipe host hp
    simp only [List.map_cons, List.cons_append, List.cons.injEq] at houtcomes
    obtain ⟨hso, hrest⟩ := houtcomes
    rw [hso] at hrest
    exact ⟨_, _, _, .on hp hso, sos, by simpa using hlength, hrest⟩

/-- the first stage is not launched: there is no pipe for it, or it cannot be launched with that -/
theorem FailsAt.first {f : Failure} (h : ev.FailsAt session (s :: rest) ctx inlet e 0 f) :
    rest = [] ∧ (ev.launchStage s ctx session e).outcome = .error f ∨
    rest ≠ [] ∧ ((∃ host, e.host.pipe ev.backend = (.error f, host)) ∨
      ∃ pipe host, e.host.pipe ev.backend = (.ok pipe, host) ∧
        (ev.launchStage s { ctx with output := some pipe.writer } session { e with host }).outcome = .error f) := by
  obtain ⟨sos, hlength, houtcomes⟩ := h
  obtain rfl := List.length_eq_zero_iff.1 hlength
  cases rest with
  | nil => exact .inl ⟨rfl, by simpa [attempts] using houtcomes⟩
  | cons next rest =>
    refine .inr ⟨List.cons_ne_nil _ _, ?_⟩
    simp only [attempts] at houtcomes
    split at houtcomes
    · rename_i f' host hp
      obtain rfl : f' = f := by simpa using houtcomes
      exact .inl ⟨host, hp⟩
    · rename_i pipe host hp
      simp only [List.map_cons, List.map_nil, List.nil_append, List.cons.injEq] at houtcomes
      exact .inr ⟨pipe, host, hp, houtcomes.1⟩

end

/-! ## the cut -/

variable (ev) in
/-- The launch of some stages breaks at `s`, behind those `before` it: these have had all their effects, in order, and
`s` those before its break, and nothing else was even asked for but what was refused. -/
structure Cut (session : Option Session) (before : List Stage) (s : Stage) (last : Bool) (a : Attempt σ)
    (how : Breakdown) (evs : List Event) : Prop where
  stage : a.stage = s
  breaks : ev.Breaks session last s a.context a.before how
  effects : evs.filterMap Event.effect? = before.flatMap (ev.effects false) ++ ev.carriedOut last s how
  refusals : evs.filter Event.isRefusal = how.refusal

/-- what is closed behind a cut does not matter -/
theorem Cut.closed {before : List Stage} {s : Stage} {last : Bool} {a : Attempt σ} {how : Breakdown} {evs : List Event}
    (h : ev.Cut session before s last a how evs) (ds : List Descriptor) :
    ev.Cut session before s last a how (evs ++ ds.map .closed) where
  stage := h.stage
  breaks := h.breaks
  effects := by rw [List.filterMap_append, (idle_closed ds).effects, List.append_nil, h.effects]
  refusals := by rw [List.filter_append, (idle_closed ds).refusals, List.append_nil, h.refusals]

/-- the first of some stages is not launched -/
theorem launchStages_cut_first {s : Stage} {rest : List Stage} (hwords : s.words ≠ []) {ctx : Context}
    {inlet : Option Descriptor} {e : Engine σ} {f : Failure} (h : ev.FailsAt session (s :: rest) ctx inlet e 0 f) :
    ∃ a how evs, (ev.attempts session (s :: rest) ctx inlet e)[0]? = some a ∧ how.failure = f ∧
      (ev.launchStages (s :: rest) inlet ctx session e).outcome = .error f ∧
      Logged e (ev.launchStages (s :: rest) inlet ctx session e).engine evs ∧
      ev.Cut session [] s rest.isEmpty a how evs := by
  rcases h.first with ⟨rfl, hf⟩ | ⟨hne, ⟨host, hp⟩ | ⟨pipe, host, hp, hf⟩⟩
  · obtain ⟨how, evs, hbreaks, hfailure, hlog, heffects, hrefusals⟩ := launchStage_broken hwords hf true
    have hcut : ev.Cut session [] s true ⟨s, ctx, e, ev.launchStage s ctx session e⟩ how evs :=
      ⟨rfl, hbreaks, heffects, hrefusals⟩
    exact ⟨_, how, _, rfl, hfailure, hf, hlog.closeAll inlet.toList, hcut.closed inlet.toList⟩
  · obtain ⟨next, rest, rfl⟩ := List.exists_cons_of_ne_nil hne
    have hlog : Logged e { e with host } [.piped (.error f)] := Host.pipe_events hp
    have hcut : ev.Cut session [] s false ⟨s, ctx, e, ⟨.error f, [], { e with host }⟩⟩ (.pipe f) [.piped (.error f)] :=
      ⟨rfl, .pipe rfl hp, rfl, rfl⟩
    refine ⟨⟨s, ctx, e, ⟨.error f, [], { e with host }⟩⟩, .pipe f, _, ?_, rfl, ?_, ?_, hcut.closed inlet.toList⟩
    · simp only [attempts, hp]
      rfl
    · simp only [launchStages, hp]
      rfl
    · simp only [launchStages, hp]
      exact hlog.closeAll inlet.toList
  · obtain ⟨next, rest, rfl⟩ := List.exists_cons_of_ne_nil hne
    have hmade : Logged e { e with host } [.made pipe] := Host.pipe_events hp
    obtain ⟨how, evs, hbreaks, hfailure, hlog, heffects, hrefusals⟩ := launchStage_broken hwords hf false
    have hcut : ev.Cut session [] s false ⟨s, { ctx with output := some pipe.writer }, { e with host },
        ev.launchStage s { ctx with output := some pipe.writer } session { e with host }⟩
          how ([.made pipe] ++ evs) := by
      refine ⟨rfl, hbreaks, ?_, ?_⟩
      · rw [List.filterMap_append, List.flatMap_nil, List.nil_append, ← heffects]
        rfl
      · rw [List.filter_append, hrefusals]
        rfl
    refine ⟨_, how, _, ?_, hfailure, ?_, ?_, hcut.closed ([pipe.reader, pipe.writer] ++ inlet.toList)⟩
    · simp only [attempts, hp]
      rfl
    · simp only [launchStages, hp, hf]
    · simp only [launchStages, hp, hf]
      exact (hmade.trans hlog).closeAll _

/-- the launch of stages in turn breaks at the first one that is not launched -/
theorem launchStages_cut {before : List Stage} {s : Stage} {rest : List Stage}
    (hwords : ∀ x ∈ before ++ s :: rest, x.words ≠ []) {ctx : Context} {inlet : Option Descriptor} {e : Engine σ}
    {f : Failure} (h : ev.FailsAt session (before ++ s :: rest) ctx inlet e before.length f) :
    ∃ a how evs, (ev.attempts session (before ++ s :: rest) ctx inlet e)[before.length]? = some a ∧ how.failure = f ∧
      (ev.launchStages (before ++ s :: rest) inlet ctx session e).outcome = .error f ∧
      Logged e (ev.launchStages (before ++ s :: rest) inlet ctx session e).engine evs ∧
      ev.Cut session before s rest.isEmpty a how evs := by
  induction before generalizing ctx inlet e with
  | nil => exact launchStages_cut_first (hwords s List.mem_cons_self) h
  | cons x before ih =>
    obtain ⟨next, tail, htail⟩ : ∃ next tail, before ++ s :: rest = next :: tail :=
      List.exists_cons_of_ne_nil (by simp)
    have hx : x.words ≠ [] := hwords x List.mem_cons_self
    have hbehind : ∀ y ∈ before ++ s :: rest, y.words ≠ [] := by
      intro y hy
      exact hwords y (List.mem_cons_of_mem x hy)
    rw [List.cons_append, htail] at h
    obtain ⟨ctx', inlet', e', hpasses, hfails⟩ := h.passes
    rw [← htail] at hfails
    obtain ⟨a, how, evs, hget, hfailure, hout, hlog, hcut⟩ := ih hbehind hfails
    obtain ⟨first, hfirst, heffects, hrefusals⟩ := hpasses.logged hx
    obtain ⟨b, hattempts⟩ := hpasses.attempts next tail
    obtain ⟨ps, hlaunch⟩ := hpasses.launchStages
    rw [List.cons_append, htail, hattempts, hlaunch, ← htail]
    refine ⟨a, how, first ++ evs, hget, hfailure, hout, hfirst.trans hlog, hcut.stage, hcut.breaks, ?_, ?_⟩
    · rw [List.filterMap_append, heffects, hcut.effects, List.flatMap_cons, List.append_assoc]
    · rw [List.filter_append, hrefusals, hcut.refusals, List.nil_append]

/-- what stands behind the stage that breaks does not matter, as long as something stands there or nothing does -/
theorem launchStages_behind {before : List Stage} {s : Stage} {rest rest' : List Stage} (hrest : rest' = [] ↔ rest = [])
    {ctx : Context} {inlet : Option Descriptor} {e : Engine σ} {f : Failure}
    (h : ev.FailsAt session (before ++ s :: rest) ctx inlet e before.length f) :
    ev.launchStages (before ++ s :: rest') inlet ctx session e =
      ev.launchStages (before ++ s :: rest) inlet ctx session e := by
  induction before generalizing ctx inlet e with
  | nil =>
    simp only [List.nil_append] at h ⊢
    rcases h.first with ⟨rfl, -⟩ | ⟨hne, hcase⟩
    · rw [hrest.2 rfl]
    · obtain ⟨next, tail, rfl⟩ := List.exists_cons_of_ne_nil hne
      obtain ⟨next', tail', rfl⟩ := List.exists_cons_of_ne_nil (fun hnil => hne (hrest.1 hnil))
      rcases hcase with ⟨host, hp⟩ | ⟨pipe, host, hp, hf⟩
      · simp only [launchStages, hp]
      · simp only [launchStages, hp, hf]
  | cons x before ih =>
    obtain ⟨next, tail, htail⟩ : ∃ next tail, before ++ s :: rest = next :: tail :=
      List.exists_cons_of_ne_nil (by simp)
    obtain ⟨next', tail', htail'⟩ : ∃ next tail, before ++ s :: rest' = next :: tail :=
      List.exists_cons_of_ne_nil (by simp)
    rw [List.cons_append, htail] at h
    obtain ⟨ctx', inlet', e', hpasses, hfails⟩ := h.passes
    rw [← htail] at hfails
    obtain ⟨ps, hlaunch⟩ := hpasses.launchStages
    rw [List.cons_append, List.cons_append, htail, htail', hlaunch, hlaunch, ← htail, ← htail', ih hfails]

/-! ## targets -/

theorem Reaches.opened {s : Stage} {ctx inner : Context} {e e' : Engine σ} (h : ev.Reaches s ctx e inner e')
    {dir : Direction} {target : Span} (hredirection : s.redirection = some (dir, target)) :
    ∃ d host, e.host.openTarget dir (target.text ev.line) = (.ok d, host) := by
  cases h with
  | plain hnone =>
    rw [hnone] at hredirection
    cases hredirection
  | redirected hsome ho =>
    obtain ⟨rfl, rfl⟩ := Prod.mk.inj (Option.some.inj (hsome.symm.trans hredirection))
    exact ⟨_, _, ho⟩

theorem launchStage_opened {s : Stage} {ctx : Context} {e : Engine σ} {so : StageOutcome}
    (h : (ev.launchStage s ctx session e).outcome = .ok so) {dir : Direction} {target : Span}
    (hredirection : s.redirection = some (dir, target)) :
    ∃ d host, e.host.openTarget dir (target.text ev.line) = (.ok d, host) := by
  rcases ho : e.host.openTarget dir (target.text ev.line) with ⟨r, host⟩
  cases r with
  | ok d => exact ⟨d, host, rfl⟩
  | error f =>
    simp only [launchStage, hredirection, launchRedirected_refused ev ho] at h
    cases h

variable (ev) in
/-- the target of an attempted stage is opened for writing, and is then empty -/
def Empties (a : Attempt σ) (target : Span) : Prop :=
  ∃ d host, a.before.host.openTarget .output (target.text ev.line) = (.ok d, host) ∧
    host.world.Emptied (target.text ev.line) d

theorem Empties.of_opened {a : Attempt σ} {target : Span}
    (h : ∃ d host, a.before.host.openTarget .output (target.text ev.line) = (.ok d, host)) : ev.Empties a target := by
  obtain ⟨d, host, ho⟩ := h
  refine ⟨d, host, ho, ?_⟩
  simp only [Host.openTarget] at ho
  split at ho
  · rename_i w hw
    cases ho
    exact World.openWrite_emptied hw
  · cases ho

/-! ## the status that is remembered -/

variable (ev)

theorem runBuiltin_lastStatus (b : Builtin) (args : List String) (ctx : Context) (e : Engine σ) :
    (ev.runBuiltin b args ctx e).2.lastStatus = e.lastStatus := by
  obtain ⟨io, host, h⟩ := runBuiltin_frame ev b args ctx e
  rw [h]

theorem launchStage_lastStatus (s : Stage) (ctx : Context) (session : Option Session) (e : Engine σ) :
    (ev.launchStage s ctx session e).engine.lastStatus = e.lastStatus := by
  have hcommand : ∀ (words : List Span) (ctx : Context) (e : Engine σ),
      (ev.launchCommand words ctx session e).engine.lastStatus = e.lastStatus := by
    intro words ctx e
    unfold launchCommand
    split
    · rfl
    · split
      · exact runBuiltin_lastStatus ev _ _ ctx e
      · unfold startChild
        simp only
        split
        · rfl
        · split <;> rfl
  unfold launchStage
  cases s.redirection with
  | none => exact hcommand s.words ctx e
  | some redirection =>
    obtain ⟨dir, target⟩ := redirection
    simp only
    rcases ho : e.host.openTarget dir (target.text ev.line) with ⟨r, host⟩
    cases r with
    | error f => rw [launchRedirected_refused ev ho]
    | ok d =>
      rw [launchRedirected_opened ev ho]
      exact hcommand s.words (ctx.redirected dir d) { e with host }

theorem launchStages_lastStatus (stages : List Stage) (inlet : Option Descriptor) (ctx : Context)
    (session : Option Session)
    (e : Engine σ) : (ev.launchStages stages inlet ctx session e).engine.lastStatus = e.lastStatus := by
  induction stages generalizing inlet ctx e with
  | nil => rfl
  | cons s stages ih =>
    cases stages with
    | nil => exact launchStage_lastStatus ev s ctx session e
    | cons next rest =>
      unfold launchStages
      split
      · rfl
      · rename_i pipe host hp
        have hstage := launchStage_lastStatus ev s { ctx with output := some pipe.writer } session { e with host }
        simp only
        split
        · exact hstage
        · exact (ih _ _ _).trans hstage

/-- a group does not remember its status itself -/
theorem runGroup_lastStatus {t : Tree} (ht : t.IsGroup) (ctx : Context) (e : Engine σ) :
    (ev.runGroup (ev.launch t) ctx e).2.lastStatus = e.lastStatus := by
  unfold runGroup
  split
  · rename_i f opened ho
    rw [(openSession_opening ev ho).2]
  · rename_i session opened ho
    have hopened : opened.lastStatus = e.lastStatus := by rw [(openSession_opening ev ho).2]
    have hlaunch : (ev.launch t ctx session opened).engine.lastStatus = e.lastStatus := by
      rw [launch, launchFrom_eq_launchStages ev ht, launchStages_lastStatus, hopened]
    simp only
    split
    · exact hlaunch
    · obtain ⟨io, host, hsettled⟩ := settled_frame ev session (ev.launch t ctx session opened).started
        (ev.launch t ctx session opened).engine
      simp only [settle, hsettled]
      exact hlaunch

/-! ## a group that breaks -/

variable {ev}

theorem idle_draining (drained : Except Failure Unit) (session : Option Session) : Idle (draining drained session) := by
  intro x hx
  rcases of_mem_draining hx with ⟨s, rfl⟩ | ⟨d, rfl⟩
  · exact ⟨rfl, rfl⟩
  · exact ⟨rfl, rfl⟩

theorem idle_waited (ps : List Pid) (rs : List (Except Failure Int)) : Idle (List.zipWith .waited ps rs) := by
  intro x hx
  obtain ⟨p, r, rfl⟩ := of_mem_waited hx
  exact ⟨rfl, rfl⟩

/-- a group whose launch has failed ends with that failure, and nothing is done any more -/
theorem runGroup_broken {t : Tree} {ctx : Context} {session : Option Session} {e opened : Engine σ}
    (hopen : ev.openSession ctx e = (.ok session, opened)) {f : Failure}
    (hout : (ev.launch t ctx session opened).outcome = .error f) :
    (ev.runGroup (ev.launch t) ctx e).1 = .error f ∧
      ∃ evs, Logged (ev.launch t ctx session opened).engine (ev.runGroup (ev.launch t) ctx e).2 evs ∧ Idle evs := by
  have hrun : ev.runGroup (ev.launch t) ctx e =
      if ev.terminated (ev.launch t ctx session opened).outcome then
        ((ev.launch t ctx session opened).outcome.map fun _ => 0, (ev.launch t ctx session opened).engine)
      else ev.settle session (ev.launch t ctx session opened) := by
    simp only [runGroup, hopen]
  obtain ⟨⟨opening, -, hopening⟩, hopened⟩ := openSession_opening ev hopen
  have hcapture : session.isSome → (ev.launch t ctx session opened).engine.capture.isSome := by
    intro hsession
    rw [launch, launchFrom_capture, hopened]
    exact hopening.captured hsession
  rw [hrun]
  generalize ev.launch t ctx session opened = l at hout hcapture
  split
  · rw [hout]
    exact ⟨rfl, [], Logged.refl _, by simp [Idle]⟩
  · obtain ⟨hdrain, -⟩ := drain_trace ev session hcapture
    obtain ⟨rs, -, -, hwait, -⟩ := waitAll_trace ev l.started (ev.drain session l.engine).2
    refine ⟨?_, _, hdrain.trans hwait, ?_⟩
    · simp only [settle, hout]
    · intro x hx
      rcases List.mem_append.1 hx with hx | hx
      · exact idle_draining _ session x hx
      · exact idle_waited _ rs x hx

/-! ## every group of a line -/

/-- the steps of a run follow its statements, up to one that stops the shell -/
theorem steps_getElem? {ctx : Context} {ss : List Statement} {e : Engine σ} {j : Nat} {st : Step σ}
    (h : (ev.steps ctx ss e)[j]? = some st) :
    ∃ s, ss[j]? = some s ∧ st = ev.step ctx s st.before ∧
      (st.stops = true → (ev.steps ctx ss e).length = j + 1) ∧
      (st.stops = false → ∀ next, ss[j + 1]? = some next →
          (ev.steps ctx ss e)[j + 1]? = some (ev.step ctx next st.after)) := by
  induction ss generalizing e j with
  | nil => simp [steps] at h
  | cons s ss ih =>
    simp only [steps] at h ⊢
    cases j with
    | zero =>
      obtain rfl : ev.step ctx s e = st := by simpa using h
      refine ⟨s, rfl, rfl, ?_, ?_⟩
      · intro hstop
        simp [hstop]
      · intro hgoes next hnext
        cases ss with
        | nil => simp at hnext
        | cons s' ss =>
          obtain rfl : s' = next := by simpa using hnext
          simp [hgoes, steps]
    | succ j =>
      rw [List.getElem?_cons_succ] at h
      split at h
      · simp at h
      · rename_i hgoes
        obtain ⟨s', hs', hst, hstops, hnext⟩ := ih h
        simp only [hgoes, Bool.false_eq_true, if_false, List.length_cons, List.getElem?_cons_succ]
        refine ⟨s', hs', hst, ?_, hnext⟩
        intro hstop
        rw [hstops hstop]

variable (ev) in
/-- A group that breaks at its stage `s`: those `before` it are attempted and launched, `s` is attempted and breaks,
and no other is attempted. Opening the session has made its pipes only; launching has had the effects of a `Cut`; and
behind that nothing is done but to settle the group. Each target of a `>` that was opened was empty then. -/
structure Severed (ctx : Context) (session : Option Session) (group : Tree) (before : List Stage) (s : Stage)
    (last : Bool) (how : Breakdown) (start opened after : Engine σ) : Prop where
  attempted : (ev.attempts session group.stages ctx none opened).map (·.stage) = before ++ [s]
  launched : ∀ i b, (ev.attempts session group.stages ctx none opened)[i]? = some b → i < before.length → b.Succeeded
  opening : ∃ evs, Logged start opened evs ∧ ∀ x ∈ evs.filterMap Event.effect?, x = .pipe
  launching : ∃ a evs, (ev.attempts session group.stages ctx none opened)[before.length]? = some a ∧
    Logged opened (ev.launch group ctx session opened).engine evs ∧ ev.Cut session before s last a how evs
  settling : ∃ evs, Logged (ev.launch group ctx session opened).engine after evs ∧ Idle evs
  emptied : ∀ i b target, (ev.attempts session group.stages ctx none opened)[i]? = some b →
    i < before.length ∨ how.isLate = true → b.stage.redirection = some (.output, target) → ev.Empties b target

theorem Opening.effects {background delivered : Bool} {capture : Option (Option Bytes)}
    {r : Except Failure (Option Session)} {evs : List Event} (h : Opening background capture delivered r evs) :
    ∀ x ∈ evs.filterMap Event.effect?, x = .pipe := by
  intro x hx
  obtain ⟨y, hy, hyx⟩ := List.mem_filterMap.1 hx
  rcases h.of_mem hy with ⟨r, rfl⟩ | ⟨d, rfl⟩ | ⟨s, rfl⟩
  · cases r with
    | ok pipe => exact (Option.some.inj hyx).symm
    | error f => cases hyx
  · cases hyx
  · cases hyx

/-- where a stage breaks behind the opening of its target, the target has been opened -/
theorem Breaks.opened {last : Bool} {s : Stage} {ctx : Context} {e : Engine σ} {how : Breakdown}
    (h : ev.Breaks session last s ctx e how) (hlate : how.isLate = true) {dir : Direction} {target : Span}
    (hredirection : s.redirection = some (dir, target)) :
    ∃ d host, e.host.openTarget dir (target.text ev.line) = (.ok d, host) := by
  cases h with
  | pipe _ _ => cases hlate
  | file _ _ => cases hlate
  | child hreaches _ _ => exact hreaches.opened hredirection
  | duplicate hreaches _ _ _ => exact hreaches.opened hredirection
  | builtin hreaches _ _ _ _ => exact hreaches.opened hredirection

/-- a group one of whose stages is not launched breaks there -/
theorem runGroup_severed {t : Tree} (ht : t.IsGroup) {ctx : Context} {session : Option Session} {e opened : Engine σ}
    (hopen : ev.openSession ctx e = (.ok session, opened)) {before : List Stage} {s : Stage} {rest : List Stage}
    (hstages : t.stages = before ++ s :: rest) {f : Failure}
    (hfails : ev.FailsAt session t.stages ctx none opened before.length f) :
    (ev.runGroup (ev.launch t) ctx e).1 = .error f ∧
      ∃ how, how.failure = f ∧
        ev.Severed ctx session t before s rest.isEmpty how e opened (ev.runGroup (ev.launch t) ctx e).2 := by
  have hturn := launchFrom_inTurn ev ht none ctx session opened
  obtain ⟨sos, hlength, houtcomes⟩ := id hfails
  have hwords := ht.words_ne_nil
  rw [hstages] at hfails hwords
  obtain ⟨a, how, launching, hget, hfailure, hout, hlog, hcut⟩ := launchStages_cut hwords hfails
  have hlaunch : ev.launch t ctx session opened = ev.launchStages (before ++ s :: rest) none ctx session opened := by
    rw [launch, launchFrom_eq_launchStages ev ht, hstages]
  rw [← hlaunch] at hout hlog
  rw [← hstages] at hget
  obtain ⟨⟨opening, hopenlog, hopening⟩, -⟩ := openSession_opening ev hopen
  obtain ⟨hran, settling, hsettled, hidle⟩ := runGroup_broken hopen hout
  have hcount : (ev.attempts session t.stages ctx none opened).length = before.length + 1 := by
    have hmapped := congrArg List.length houtcomes
    simpa [hlength] using hmapped
  have hlaunched : ∀ i b, (ev.attempts session t.stages ctx none opened)[i]? = some b →
      i < before.length → b.Succeeded := by
    intro i b hb hi
    have houtcome : ((ev.attempts session t.stages ctx none opened).map (·.launched.outcome))[i]? =
        some b.launched.outcome := by
      rw [List.getElem?_map, hb]
      rfl
    rw [houtcomes, List.getElem?_append_left (by simpa [hlength] using hi), List.getElem?_map] at houtcome
    obtain ⟨so, -, hso⟩ := Option.map_eq_some_iff.1 houtcome
    exact ⟨so, hso.symm⟩
  refine ⟨hran, how, hfailure, ?_, hlaunched, ⟨opening, hopenlog, hopening.effects⟩, ⟨a, launching, hget, hlog, hcut⟩,
    ⟨settling, hsettled, hidle⟩, ?_⟩
  · -- the stages that were attempted are the first of the group, and as many as that
    have htake := List.prefix_iff_eq_take.1 hturn.inOrder
    rw [List.length_map, hcount] at htake
    rw [htake, hstages, List.take_length_add_append]
    rfl
  · intro i b target hb hcase hredirection
    apply Empties.of_opened
    by_cases hi : i < before.length
    · obtain ⟨so, hso⟩ := hlaunched i b hb hi
      have hstage := (hturn.stage b (List.mem_of_getElem? hb)).2 ⟨so, hso⟩
      rw [hstage] at hso
      exact launchStage_opened hso hredirection
    · have hlate : how.isLate = true := by
        rcases hcase with hlt | hlate
        · exact absurd hlt hi
        · exact hlate
      obtain ⟨hlt, -⟩ := List.getElem?_eq_some_iff.1 hb
      obtain rfl : i = before.length := by omega
      obtain rfl : a = b := Option.some.inj (hget.symm.trans hb)
      exact hcut.breaks.opened hlate (by rw [← hcut.stage, hredirection])

variable (ev) in
/-- **A stage that cannot be launched cuts its group there.** Let the stages `before` one of a group be launched, and
this one not. Then the group fails with the failure of the `Breakdown`, and is `Severed` there: what was done is what
the stages in front do, in order, and of this stage what comes before its break; of the stages behind it nothing is
even asked for, and with others in their place all would be the same. If the shell was not asked to stop, 1 is
remembered and the next statement is run; if it was, what was remembered before still is, and no other statement is
run. -/
theorem execute_cut {ts : List Token} {t : Tree} (ht : Line.parse ts = .ok t) (ctx : Context) (e : Engine σ) :
    ev.execute t ctx e = concluded e (ev.steps ctx t.statements e) ∧
    ∀ {j : Nat} {st : Step σ}, (ev.steps ctx t.statements e)[j]? = some st →
    ∀ {session : Option Session} {opened : Engine σ},
      ev.openSession (ctx.forStatement st.statement) st.before = (.ok session, opened) →
    ∀ {before rest : List Stage} {s : Stage} {f : Failure}, st.statement.group.stages = before ++ s :: rest →
      ev.FailsAt session st.statement.group.stages (ctx.forStatement st.statement) none opened before.length f →
      st.ran = .error f ∧
      (∃ how, how.failure = f ∧ ev.Severed (ctx.forStatement st.statement) session st.statement.group
          before s rest.isEmpty how st.before opened st.after) ∧
      (∀ group rest', group.IsGroup → group.stages = before ++ s :: rest' → (rest' = [] ↔ rest = []) →
        ev.runGroup (ev.launch group) (ctx.forStatement st.statement) st.before = (st.ran, st.ended)) ∧
      (f.isExit = false → st.after.lastStatus = 1 ∧ ∀ next, t.statements[j + 1]? = some next →
        (ev.steps ctx t.statements e)[j + 1]? = some (ev.step ctx next st.after)) ∧
      (f.isExit = true → st.after.lastStatus = st.before.lastStatus ∧
          (ev.steps ctx t.statements e).length = j + 1) := by
  have hline : t.IsLine := (Line.parse_eq_ok_iff.1 ht).1.isLine
  refine ⟨execute_eq_concluded ev hline ctx e, ?_⟩
  intro j st hst session opened hopen before rest s f hstages hfails
  obtain ⟨statement, hget, heq, hstops, hnext⟩ := steps_getElem? hst
  have hstatement : st.statement = statement := congrArg Step.statement heq
  have hgroup : st.statement.group.IsGroup := by
    rw [hstatement]
    exact hline.isGroup statement (List.mem_of_getElem? hget)
  have hstep : ev.runGroup (ev.launch st.statement.group) (ctx.forStatement st.statement) st.before =
      (st.ran, st.ended) := by
    rw [hstatement]
    exact (Prod.ext (congrArg Step.ran heq) (congrArg Step.ended heq)).symm
  obtain ⟨hran, how, hfailure, hsevered⟩ := runGroup_severed hgroup hopen hstages hfails
  rw [hstep] at hran hsevered
  have hran : st.ran = .error f := hran
  have hstop : st.stops = f.isExit := by simp only [Step.stops, hran]
  refine ⟨hran, ⟨how, hfailure, ?_⟩, ?_, ?_, ?_⟩
  · obtain ⟨evs, hlog, hidle⟩ := hsevered.settling
    refine { hsevered with settling := ⟨_, hlog.trans (ended_logged st), ?_⟩ }
    intro x hx
    rcases List.mem_append.1 hx with hx | hx
    · exact hidle x hx
    · obtain ⟨f', -, rfl⟩ := List.mem_map.1 hx
      exact ⟨rfl, rfl⟩
  · intro group rest' hgroup' hstages' hrest
    rw [hstages] at hfails
    have hsame : ev.launch group (ctx.forStatement st.statement) session opened =
        ev.launch st.statement.group (ctx.forStatement st.statement) session opened := by
      rw [launch, launch, launchFrom_eq_launchStages ev hgroup', launchFrom_eq_launchStages ev hgroup, hstages,
        hstages']
      exact launchStages_behind hrest hfails
    rw [← hstep]
    simp only [runGroup, hopen, hsame]
  · intro hexit
    rw [hexit] at hstop
    rw [Step.lastStatus_after hstop, hran]
    exact ⟨rfl, hnext hstop⟩
  · intro hexit
    rw [hexit] at hstop
    have hafter : st.after = st.ended := by simp [Step.after, Step.failure?, Step.remembered, hran, hexit]
    refine ⟨?_, hstops hstop⟩
    have hkept := runGroup_lastStatus ev hgroup (ctx.forStatement st.statement) st.before
    rw [hstep] at hkept
    rw [hafter]
    exact hkept

/-- On the line `a|b|c;d` the child of `b` is refused: nobody asks for that of `c`, and the second statement is run. -/
theorem execute_cut_refused :
    ∃ t e st group, Line.parse (Line.tokens "a|b|c;d") = .ok t ∧
      ((scripted "a|b|c;d").steps {} t.statements e)[0]? = some st ∧ st.statement = ⟨group, false⟩ ∧
      (scripted "a|b|c;d").FailsAt none group.stages {} none e 1 (.spawn "b" (.system .noEntry)) ∧
      st.ran = .error (.spawn "b" (.system .noEntry)) ∧ st.after.lastStatus = 1 ∧
      ∃ next, t.statements[1]? = some next ∧
        ((scripted "a|b|c;d").steps {} t.statements e)[1]? = some ((scripted "a|b|c;d").step {} next st.after) := by
  let e : Engine Scripted.State :=
    { host := { world := {}, state := { scripts := [("b", { spawnFault := some (.spawn "b" (.system .noEntry)) })] } } }
  have hparse : Line.parse (Line.tokens "a|b|c;d") =
      .ok (.chained (.pipe (.command [⟨0, 1⟩]) (.pipe (.command [⟨2, 3⟩]) (.command [⟨4, 5⟩]))) .sequence
        (.command [⟨6, 7⟩])) := by decide +kernel
  have hfails : (scripted "a|b|c;d").FailsAt none
      [⟨[⟨0, 1⟩], none⟩, ⟨[⟨2, 3⟩], none⟩, ⟨[⟨4, 5⟩], none⟩] {} none e 1 (.spawn "b" (.system .noEntry)) :=
    ⟨[.started], rfl, by decide +kernel⟩
  obtain ⟨-, hcut⟩ := execute_cut (scripted "a|b|c;d") hparse {} e
  obtain ⟨hran, -, -, hgoes, -⟩ := @hcut 0 _ rfl none _ rfl [⟨[⟨0, 1⟩], none⟩] _ _ _ rfl hfails
  obtain ⟨hlast, hnext⟩ := hgoes rfl
  exact ⟨_, e, _, _, hparse, rfl, rfl, hfails, hran, hlast, _, rfl, hnext _ rfl⟩

/-- all that is done on that line, the refused child apart -/
example :
    ((scripted "a|b|c;d").execute (.chained (.pipe (.command [⟨0, 1⟩]) (.pipe (.command [⟨2, 3⟩]) (.command [⟨4, 5⟩])))
      .sequence (.command [⟨6, 7⟩])) {}
      { host :=
          { world := {}, state := { scripts := [("b", { spawnFault := some (.spawn "b" (.system .noEntry)) })] } } }
      ).2.events.filterMap Event.effect? = [.pipe, .child ["a"], .pipe, .child ["d"]] := by
  decide +kernel

end Evaluation

end LineShell
