/-
Running with and without capturing, side by side.

Over a backend that does not tell whether output is captured, the same statements are run twice, and only the second
run captures. Every stage is launched alike in both, so both do the same and come to the same result. They part when
`exit` ends the host of the first run: in the second, it only ends the line.

- `launchFrom_beside`: launching a group starts the same programs and builtins in both runs, and ends alike.
- `runGroup_beside`: so does a whole group, also if the second run opens a session for it and drains that.
- `execute_beside`: a line that was read comes to the same result after the same deeds.
-/
import LineShell.Proofs.LastStatus
import LineShell.Proofs.Likeness

namespace LineShell

namespace Evaluation

open Engine

variable {σ : Type} (ev : Evaluation σ)

/-- the same, but for `exit`, which does not end the host -/
def lasting : Evaluation σ := { ev with settings := { ev.settings with exitTerminates := false } }

theorem terminated_lasting (o : Except Failure StageOutcome) : ev.lasting.terminated o = false := rfl

variable {ev} {like : Likeness σ} {o : Origin} (hb : ev.backend.Indifferent like) (hnum : like.Numbers o.numbers)
  {session : Option Session} {S : Standing} {e e' : Engine σ}

include hb

/-! ## launching a command -/

/-- a builtin does the same to both worlds, and has written what it writes -/
theorem dispatch_alike {ctx ctx' : Context} (hctx : S.Contexts ctx ctx') (builtin : Builtin) (args : List String)
    {lastStatus lastStatus' : Int} (hstatus : lastStatus' = lastStatus) (home : Option String) {c c' : σ × World}
    (h : like.launching S c c') :
    (builtin.dispatch args lastStatus' home ctx'.output c'.2).result =
        (builtin.dispatch args lastStatus home ctx.output c.2).result ∧
      like.launching { S with sink := none } (c.1, (builtin.dispatch args lastStatus home ctx.output c.2).world)
        (c'.1, (builtin.dispatch args lastStatus' home ctx'.output c'.2).world) := by
  obtain rfl := hstatus.symm
  obtain ⟨hstatus, hout, hworld⟩ := builtin.run_alike (hb.seen h) args lastStatus home
  have hran : like.launching S (c.1, (builtin.run args lastStatus home c.2).world)
      (c'.1, (builtin.run args lastStatus home c'.2).world) := by
    rcases hworld with ⟨hw, hw'⟩ | ⟨path, v, v', hv, hv', hw, hw'⟩
    · rw [hw, hw']
      exact h
    · rw [hw, hw']
      exact hb.entered h hv hv'
  unfold Builtin.dispatch
  simp only [hout, hstatus]
  generalize ho : ctx.output = o
  generalize ho' : ctx'.output = o'
  have hjoined := hctx.output
  rw [ho, ho'] at hjoined
  cases hjoined with
  | host => exact ⟨rfl, hb.released hran⟩
  | @held d d' _ =>
    simp only
    split
    · exact ⟨rfl, hb.released hran⟩
    · rcases hb.written (Text.bytes (builtin.run args lastStatus home c.2).out) hran (hctx.sink d d' ho ho') with
        ⟨v, v', hv, hv', halike⟩ | ⟨n, hn, hn'⟩
      · simp only [hv, hv']
        exact ⟨trivial, halike⟩
      · simp only [hn, hn']
        exact ⟨trivial, hb.released hran⟩

theorem perform_beside {ctx ctx' : Context} (hctx : S.Contexts ctx ctx') (builtin : Builtin) (args : List String)
    (h : like.Paired o session S e e') :
    (ev.lasting.perform builtin args ctx' e').1 = (ev.perform builtin args ctx e).1 ∧
      like.Paired o session { S with sink := none } (ev.perform builtin args ctx e).2
        (ev.lasting.perform builtin args ctx' e').2 := by
  obtain ⟨hresult, halike⟩ := dispatch_alike hb hctx builtin args h.status ev.settings.home h.alike
  change (builtin.dispatch args e'.lastStatus ev.lasting.settings.home ctx'.output e'.host.world).result =
    (builtin.dispatch args e.lastStatus ev.settings.home ctx.output e.host.world).result at hresult
  have hnoted := h.noted (.ranBuiltin builtin args) (.ranBuiltin builtin args) (h.mirrored.ran builtin args) halike
  -- nothing that either run says is refused: the first has the host's streams, and the second captures
  obtain ⟨hsent, hfirst⟩ := Beside.sendAll hb (S := { S with sink := none }) hnoted
    (builtin.dispatch args e.lastStatus ev.settings.home ctx.output e.host.world).chunks
  obtain ⟨hsent', hsecond⟩ := hfirst.sendAll_second
    (builtin.dispatch args e'.lastStatus ev.lasting.settings.home ctx'.output e'.host.world).chunks
  exact ⟨congrArg₂ (answer builtin) hresult (hsent'.trans hsent.symm), hsecond⟩

/-- the descriptor that a builtin writes to is duplicated in both runs, or in neither -/
theorem duplicate_beside {d d' : Descriptor} (hd : (d, d') ∈ S.held) (h : like.Paired o session S e e') :
    (∃ f host host', e.host.duplicate d = (.error f, host) ∧ e'.host.duplicate d' = (.error f, host') ∧
      like.Paired o session S { e with host } { e' with host := host' }) ∨
    ∃ host host', e.host.duplicate d = (.ok (), host) ∧ e'.host.duplicate d' = (.ok (), host') ∧
      like.Paired o session { S with held := (d, d') ::ₘ S.held } { e with host } { e' with host := host' } := by
  have hserved : (e.host.duplicate d).2.ServedAlike (e'.host.duplicate d').2 :=
    ⟨congrArg List.tail h.served.duplications, h.served.writes⟩
  have hevents := Host.events_duplicate e.host d
  have hevents' := Host.events_duplicate e'.host d'
  have hanswer : (e.host.duplicate d).1 = nextOutcome e.host.duplications := rfl
  have hanswer' : (e'.host.duplicate d').1 = nextOutcome e.host.duplications := by rw [← h.served.duplications]; rfl
  cases hnext : nextOutcome e.host.duplications with
  | error f =>
    rw [hnext] at hanswer hanswer'
    refine .inl ⟨f, _, _, Prod.ext hanswer rfl, Prod.ext hanswer' rfl, h.withHosts ?_ hserved ?_⟩
    · rw [hevents, hevents', hanswer, hanswer']
      exact h.mirrored.unduplicated hd f
    · simpa only [Host.here, Host.duplicate, Host.note, hnext, h.served.duplications] using h.alike
  | ok u =>
    rw [hnext] at hanswer hanswer'
    refine .inr ⟨_, _, Prod.ext hanswer rfl, Prod.ext hanswer' rfl, h.withHosts ?_ hserved ?_⟩
    · rw [hevents, hevents', hanswer, hanswer']
      exact h.mirrored.duplicated hd
    · simpa only [Host.here, Host.duplicate, Host.note, hnext, h.served.duplications] using hb.duplicated hd h.alike

theorem runBuiltin_beside {ctx ctx' : Context} (hctx : S.Contexts ctx ctx') (builtin : Builtin) (args : List String)
    (h : like.Paired o session S e e') :
    (ev.lasting.runBuiltin builtin args ctx' e').1 = (ev.runBuiltin builtin args ctx e).1 ∧
      like.Paired o session { S with sink := none } (ev.runBuiltin builtin args ctx e).2
        (ev.lasting.runBuiltin builtin args ctx' e').2 := by
  generalize hout : ctx.output = out
  generalize hout' : ctx'.output = out'
  have hjoined := hctx.output
  rw [hout, hout'] at hjoined
  cases hjoined with
  | host =>
    rw [runBuiltin_plain hout, runBuiltin_plain hout']
    exact perform_beside hb hctx builtin args h
  | @held d d' hd =>
    rcases duplicate_beside hb hd h with ⟨f, host, host', hdup, hdup', hbeside⟩ | ⟨host, host', hdup, hdup', hbeside⟩
    · rw [runBuiltin_unduplicated hout hdup, runBuiltin_unduplicated hout' hdup']
      exact ⟨rfl, hbeside.mono hb.released⟩
    · rw [runBuiltin_duplicated hout hdup, runBuiltin_duplicated hout' hdup']
      obtain ⟨hresult, hran⟩ := perform_beside hb (hctx.mono fun p hp => Multiset.mem_cons_of_mem hp)
        builtin args hbeside
      refine ⟨hresult, Beside.closeAll hb (S := { S with sink := none }) rfl [(d, d')] ?_⟩
      rwa [← Multiset.cons_coe, Multiset.coe_nil, Multiset.cons_add, Multiset.zero_add]

omit hb in
/-- the request of a command, in both runs -/
theorem requests_alike {ctx ctx' : Context} (hctx : S.Contexts ctx ctx') (hsession : S.Serves session ctx.background)
    (argv : List String) : S.Requests (request argv ctx none) (request argv ctx' session) := by
  have hjoined : ∀ {o o'}, S.Joined o o' → S.Captured (o <|> none) (o' <|> session.map (·.stdout.writer)) := by
    intro o o' h
    cases h with
    | held h => exact .joined (.held h)
    | host =>
      cases session with
      | none => exact .joined .host
      | some s => exact .session (hsession.ends s rfl).1
  refine ⟨rfl, hctx.background, ?_, hjoined hctx.output, ?_⟩
  · simpa [request, hsession.stdin_eq_none] using hctx.input
  · cases session with
    | none => exact .joined .host
    | some s => exact .session (hsession.ends s rfl).2

omit hb in
/-- exactly the streams that the request leaves to the host in the first run are the session's in the second -/
theorem requests_rerouted {ctx ctx' : Context} (hctx : S.Contexts ctx ctx') (hsession : S.Serves session ctx.background)
    (argv : List String) : Rerouted S.held session (request argv ctx none) (request argv ctx' session) := by
  refine ⟨rfl, hctx.background, hsession.foreground, ?_, ?_, .inherited⟩
  · simpa [request, hsession.stdin_eq_none] using hctx.input.routed none
  · simpa [request] using hctx.output.routed (session.map (·.stdout.writer))

include hnum in
/-- a child is started in both runs, or refused in both -/
theorem startChild_beside {ctx ctx' : Context} (hctx : S.Contexts ctx ctx') (hsession : S.Serves session ctx.background)
    (argv : List String) (h : like.Paired o session S e e') :
    ∃ new, LaunchesBeside like o session S (ev.startChild argv ctx none e)
      (ev.lasting.startChild argv ctx' session e') new := by
  have hrequests := requests_alike hctx hsession argv
  have hrerouted := requests_rerouted hctx hsession argv
  unfold startChild
  rcases hb.spawned h.alike hrequests with ⟨pid, pid', hp, hp', halike⟩ | ⟨f, hf, hf', halike⟩
  · obtain ⟨host, hs, hhere, hsame⟩ := Host.exists_spawn hp
    obtain ⟨host', hs', hhere', hsame'⟩ := Host.exists_spawn hp'
    change e'.host.spawn ev.lasting.backend _ = _ at hs'
    have hpid : o.numbers pid pid' := hnum halike (pid, pid') (List.mem_append_right _ List.mem_cons_self)
    have hmirrored : o.Mirrors S.held session host.events host'.events := by
      rw [Host.spawn_events hs, Host.spawn_events hs']
      exact h.mirrored.spawned hrerouted hpid
    have hspawned : like.launching (S.launched [(pid, pid')]) host.here host'.here := by
      rw [hhere, hhere']
      exact halike
    simp only [hs, hs', hctx.background]
    split
    · -- both record the child, with numbers that go together, before they let it go
      refine ⟨[], rfl, rfl, rfl, List.forall_mem_nil _, h.uncaptured, h.captured, h.status, ?_, ?_, ?_, ?_⟩
      · exact .cons ⟨congrArg (· + 1) h.jobs.length_eq.symm, rfl, hpid⟩ h.jobs
      · rw [Host.events_detach, Host.events_detach]
        exact hmirrored.detached hpid
      · exact h.served.of_outcomes hsame hsame'
      · exact hb.detached hspawned
    · exact ⟨[(pid, pid')], rfl, rfl, rfl, by simpa using hpid, h.uncaptured, h.captured, h.status, h.jobs, hmirrored,
        h.served.of_outcomes hsame hsame', hspawned⟩
  · obtain ⟨host, hs, hhere, hsame⟩ := Host.exists_spawn hf
    obtain ⟨host', hs', hhere', hsame'⟩ := Host.exists_spawn hf'
    change e'.host.spawn ev.lasting.backend _ = _ at hs'
    simp only [hs, hs']
    refine ⟨[], rfl, rfl, rfl, List.forall_mem_nil _,
      h.withHosts ?_ (h.served.of_outcomes hsame hsame') (by rw [hhere, hhere']; exact halike)⟩
    rw [Host.spawn_events hs, Host.spawn_events hs']
    exact h.mirrored.refused hrerouted f

include hnum in
theorem launchCommand_beside {ctx ctx' : Context} (hctx : S.Contexts ctx ctx')
    (hsession : S.Serves session ctx.background) (words : List Span) (h : like.Paired o session S e e') :
    ∃ new, LaunchesBeside like o session S (ev.launchCommand words ctx none e)
      (ev.lasting.launchCommand words ctx' session e') new := by
  have hwords : words.map (·.text ev.lasting.line) = words.map (·.text ev.line) := rfl
  unfold launchCommand
  rw [hwords]
  cases words.map (·.text ev.line) with
  | nil => exact ⟨[], rfl, rfl, rfl, List.forall_mem_nil _, Beside.released hb h⟩
  | cons program args =>
    simp only
    cases Builtin.ofName? program with
    | some builtin =>
      obtain ⟨hresult, hran⟩ := runBuiltin_beside hb hctx builtin args h
      refine ⟨[], congrArg (Except.map _) hresult, rfl, rfl, List.forall_mem_nil _, ?_⟩
      rw [Standing.launched, List.append_nil]
      exact hran
    | none => exact startChild_beside hb hnum hctx hsession (program :: args) h

/-! ## launching a group -/

/-- what a launch that read the inlet leaves behind when that is closed -/
theorem closing_beside (inlet : Option (Descriptor × Descriptor)) {l l' : Launched σ} {new : List (Pid × Pid)}
    (h : LaunchesBeside like o session { S with held := ↑inlet.toList + S.held } l l' new) :
    LaunchesBeside like o session S (closing (inlet.map Prod.fst) l) (closing (inlet.map Prod.snd) l') new := by
  refine ⟨h.outcome, h.started, h.started', h.numbers, ?_⟩
  have hclosed := Beside.closeAll hb (S := S.launched new) rfl inlet.toList h.engine
  cases inlet <;> exact hclosed

include hnum in
theorem launchRedirected_beside {ctx ctx' : Context} (hctx : S.Contexts ctx ctx')
    (hsession : S.Serves session ctx.background) (direction : Direction) (target : Span) (words : List Span)
    (h : like.Paired o session S e e') :
    ∃ new, LaunchesBeside like o session S
      (ev.launchRedirected direction target (ev.launchFrom (.command words) none) ctx none e)
      (ev.lasting.launchRedirected direction target (ev.lasting.launchFrom (.command words) none)
        ctx' session e') new := by
  rcases World.openTarget_alike (hb.seen h.alike) direction (target.text ev.line) with
    ⟨f, hf, hf'⟩ | ⟨i, t, t', -, ho, ho'⟩
  · rw [launchRedirected_refused ev (Host.openTarget_of_error hf),
      launchRedirected_refused ev.lasting (Host.openTarget_of_error hf')]
    refine ⟨[], rfl, rfl, rfl, List.forall_mem_nil _, Beside.released hb ?_⟩
    exact h.noted (.redirected direction _ (.error f)) (.redirected direction _ (.error f))
      (h.mirrored.unopened direction _ f) h.alike
  · obtain ⟨⟨d, v⟩, ho⟩ : ∃ r, e.host.world.openTarget direction (target.text ev.line) = .ok r := ⟨_, ho⟩
    obtain ⟨⟨d', v'⟩, ho'⟩ : ∃ r, e'.host.world.openTarget direction (target.text ev.line) = .ok r := ⟨_, ho'⟩
    rw [launchRedirected_opened ev (Host.openTarget_of_ok ho),
      launchRedirected_opened ev.lasting (Host.openTarget_of_ok ho')]
    have hopened := h.noted (.redirected direction (target.text ev.line) (.ok d))
      (.redirected direction (target.text ev.line) (.ok d')) (h.mirrored.redirected direction _ d d')
      (hb.opened h.alike ho ho')
    have hserves : (S.opened direction d d').Serves session (ctx.redirected direction d).background := by
      rw [Context.background_redirected]
      exact ⟨hsession.foreground, hsession.stdin, hsession.ends⟩
    obtain ⟨new, hlaunched⟩ := launchCommand_beside hb hnum (hctx.opened direction d d') hserves words hopened
    exact ⟨new, closing_beside hb (some (d, d'))
      ⟨hlaunched.outcome, hlaunched.started, hlaunched.started', hlaunched.numbers, hlaunched.engine⟩⟩

include hnum in
theorem launchFrom_stage_beside {t : Tree} (ht : t.IsStage) {ctx ctx' : Context} (hctx : S.Contexts ctx ctx')
    (hsession : S.Serves session ctx.background) (h : like.Paired o session S e e') :
    ∃ new, LaunchesBeside like o session S (ev.launchFrom t none ctx none e)
      (ev.lasting.launchFrom t none ctx' session e') new := by
  cases ht with
  | plain hc =>
    cases hc with
    | @words ws _ => exact launchCommand_beside hb hnum hctx hsession ws h
  | redirected direction target hc =>
    cases hc with
    | @words ws _ => exact launchRedirected_beside hb hnum hctx hsession direction target ws h

/-- a pipe is made in both runs -/
theorem pipe_beside (h : like.Paired o session S e e') :
    ∃ p p' host host', e.host.pipe ev.backend = (.ok p, host) ∧ e'.host.pipe ev.lasting.backend = (.ok p', host') ∧
      like.Paired o session (S.piped p p') { e with host } { e' with host := host' } := by
  obtain ⟨p, p', hp, hp', halike⟩ := hb.piped h.alike
  obtain ⟨host, hpipe, hhere, hsame⟩ := Host.exists_pipe hp
  obtain ⟨host', hpipe', hhere', hsame'⟩ := Host.exists_pipe hp'
  refine ⟨p, p', host, host', hpipe, hpipe',
    h.withHosts ?_ (h.served.of_outcomes hsame hsame') (by rw [hhere, hhere']; exact halike)⟩
  rw [Host.pipe_events hpipe, Host.pipe_events hpipe']
  exact h.mirrored.piped p p'

/-- the first stage of a pipe could not be launched: the pipe is closed in both runs, and the inlet -/
theorem failed_beside {p p' : Pipe} {inlet : Option (Descriptor × Descriptor)} {l l' : Launched σ}
    {new : List (Pid × Pid)}
    (h : LaunchesBeside like o session (Standing.piped { S with held := ↑inlet.toList + S.held } p p') l l' new) :
    like.Paired o session (S.launched new)
      (l.engine.closeAll ([p.reader, p.writer] ++ (inlet.map Prod.fst).toList))
      (l'.engine.closeAll ([p'.reader, p'.writer] ++ (inlet.map Prod.snd).toList)) := by
  have hclosed := Beside.closeAll hb (S := S.launched new) rfl
    ([(p.reader, p'.reader), (p.writer, p'.writer)] ++ inlet.toList) (by rw [Standing.held_failed]; exact h.engine)
  cases inlet <;> exact hclosed

/-- it has been launched: everything but the reader of the pipe is closed in both runs -/
theorem wentOn_beside {p p' : Pipe} {inlet : Option (Descriptor × Descriptor)} {l l' : Launched σ}
    {new : List (Pid × Pid)}
    (h : LaunchesBeside like o session (Standing.piped { S with held := ↑inlet.toList + S.held } p p') l l' new) :
    like.Paired o session { S.launched new with held := ↑(some (p.reader, p'.reader)).toList + S.held }
      (l.engine.closeAll ((inlet.map Prod.fst).toList ++ [p.writer]))
      (l'.engine.closeAll ((inlet.map Prod.snd).toList ++ [p'.writer])) := by
  have hclosed := Beside.closeAll hb
    (S := { S.launched new with held := ↑(some (p.reader, p'.reader)).toList + S.held }) rfl
    (inlet.toList ++ [(p.writer, p'.writer)]) (by rw [Standing.held_wentOn]; exact h.engine)
  cases inlet <;> exact hclosed

omit hb in
/-- the stages behind a pipe read from it, and the last one still writes where the group writes -/
theorem contexts_behind {held : Multiset (Descriptor × Descriptor)} {ctx ctx' : Context}
    (hctx : Standing.Contexts { S with held } ctx ctx') (hout : ctx.output = none) (p p' : Pipe)
    (new : List (Pid × Pid)) :
    Standing.Contexts { S.launched new with held := ↑(some (p.reader, p'.reader)).toList + S.held }
      { ctx with input := some p.reader } { ctx' with input := some p'.reader } := by
  have hjoined := hctx.output
  rw [hout] at hjoined
  refine ⟨hctx.background, .held (by simp), ?_, fun d d' hd => absurd (hout.symm.trans hd) nofun⟩
  rw [hout, hjoined.eq_none]
  exact .host

omit hb in
/-- the children of the first stage stand in front of those of the others -/
theorem LaunchesBeside.append {l l' r r' : Launched σ} {new new' : List (Pid × Pid)} (hl : l.started = new.map Prod.fst)
    (hl' : l'.started = new.map Prod.snd) (hnew : ∀ p ∈ new, o.numbers p.1 p.2)
    (h : LaunchesBeside like o session (S.launched new) r r' new') :
    LaunchesBeside like o session S { r with started := l.started ++ r.started }
      { r' with started := l'.started ++ r'.started } (new ++ new') := by
  refine ⟨h.outcome, by rw [hl, h.started, List.map_append], by rw [hl', h.started', List.map_append],
    List.forall_mem_append.2 ⟨hnew, h.numbers⟩, ?_⟩
  have hengine := h.engine
  rw [Standing.launched] at hengine ⊢
  rw [← List.append_assoc]
  exact hengine

include hnum in
/-- Launching a group goes alike in both runs: a pipe is made in both, or the sink of a stage is the same in both. The
inlet is what the first stage reads, in either run. -/
theorem launchFrom_beside {t : Tree} (ht : t.IsGroup) (inlet : Option (Descriptor × Descriptor)) {ctx ctx' : Context}
    (hctx : Standing.Contexts { S with held := ↑inlet.toList + S.held } ctx ctx') (hout : ctx.output = none)
    (hsession : S.Serves session ctx.background)
    (h : like.Paired o session { S with held := ↑inlet.toList + S.held } e e') :
    ∃ new, LaunchesBeside like o session S (ev.launchFrom t (inlet.map Prod.fst) ctx none e)
      (ev.lasting.launchFrom t (inlet.map Prod.snd) ctx' session e') new := by
  -- what is in hand changes from stage to stage, but not the ends of the session
  have hserves : ∀ {T : Standing}, T.ends = S.ends → T.Serves session ctx.background := by
    rintro ⟨_, _, _, _⟩ rfl
    exact ⟨hsession.foreground, hsession.stdin, hsession.ends⟩
  induction ht generalizing inlet S ctx ctx' e e' with
  | last hs =>
    obtain ⟨new, hlaunched⟩ := launchFrom_stage_beside hb hnum hs hctx (hserves rfl) h
    rw [launchFrom_stage_eq hs (inlet.map Prod.fst), launchFrom_stage_eq hs (inlet.map Prod.snd)]
    exact ⟨new, closing_beside hb inlet hlaunched⟩
  | @piped left right hs hg ih =>
    obtain ⟨p, p', host, host', hpipe, hpipe', hpiped⟩ := pipe_beside hb h
    obtain ⟨new, hleft⟩ := launchFrom_stage_beside hb hnum hs (hctx.piped p p') (hserves rfl) hpiped
    generalize hl : ev.launchFrom left none _ none _ = l at hleft
    generalize hl' : ev.lasting.launchFrom left none _ session _ = l' at hleft
    rw [launchFrom_pipe hpipe hl, launchFrom_pipe hpipe' hl', hleft.outcome]
    cases l.outcome with
    | error f => exact ⟨new, rfl, hleft.started, hleft.started', hleft.numbers, failed_beside hb hleft⟩
    | ok so =>
      obtain ⟨new', hright⟩ := ih (some (p.reader, p'.reader)) (contexts_behind hctx hout p p' new) hout (hserves rfl)
        (wentOn_beside hb hleft) fun hends => hserves hends
      exact ⟨new ++ new', LaunchesBeside.append hleft.started hleft.started' hleft.numbers hright⟩

/-! ## a whole group -/

/-- what evaluation comes to in both runs: the same result after the same deeds, and the runs are side by side unless
`exit` has ended the host of the first -/
structure Meets (ev : Evaluation σ) (like : Likeness σ) (o : Origin) (x y : Except Failure Int × Engine σ) : Prop where
  answer : y.1 = x.1
  deeds : y.2.host.deeds = x.2.host.deeds
  beside : (ev.settings.exitTerminates = true → ∀ n, x.1 ≠ .error (.exit n)) → like.Paired o none {} x.2 y.2

omit hb in
/-- engines that are still side by side, with one result -/
theorem Meets.of_paired (h : like.Paired o none {} e e') (r : Except Failure Int) : ev.Meets like o (r, e) (r, e') :=
  ⟨rfl, h.deeds, fun _ => h⟩

omit hb in
theorem openSession_uncaptured (hio : e.io = none) (ctx : Context) : ev.openSession ctx e = (.ok none, e) := by
  simp only [openSession, hio]

/-- a pipe is made for the session, in the second run alone -/
theorem endPipe_beside (hsink : S.sink = none) {h h' : Host σ} (halike : like.launching S h.here h'.here) :
    ∃ p host, h'.pipe ev.lasting.backend = (.ok p, host) ∧ host.outcomes = h'.outcomes ∧
      like.launching { S with ends := p.reader ::ₘ p.writer ::ₘ S.ends } h.here host.here := by
  obtain ⟨p, hp, hmade⟩ := hb.endPiped hsink halike
  obtain ⟨host, hpipe, hhere, hsame⟩ := Host.exists_pipe hp
  exact ⟨p, host, hpipe, hsame, by rw [hhere]; exact hmade⟩

/-- the second run opens a session, for which it makes two pipes -/
theorem openSession_beside (ctx : Context) (hfg : ctx.background = false) (h : like.Paired o none {} e e') :
    ∃ s e₁, ev.lasting.openSession ctx e' = (.ok (some s), e₁) ∧ s.stdin = none ∧
      like.Paired o (some s) { ends := ↑[s.stderr.reader, s.stderr.writer, s.stdout.reader, s.stdout.writer] }
        e e₁ := by
  obtain ⟨io, hio, hstdin⟩ := h.exists_streams
  obtain ⟨out, host, hpipe, hsame, hout⟩ := endPipe_beside hb rfl h.alike
  obtain ⟨err, host', hpipe', hsame', herr⟩ := endPipe_beside hb rfl hout
  let s : Session := ⟨out, err, none, !e'.stdinDelivered⟩
  have hopened : e'.host.openSession ev.lasting.backend false (!e'.stdinDelivered) =
      (.ok s, host'.note (.opened s)) := by
    simp only [Host.openSession, Host.makePipes, hpipe, hpipe', Bool.false_eq_true, if_false, s]
  refine ⟨s, { e' with host := host'.note (.opened s) }, ?_, rfl, ?_⟩
  · simp only [openSession, hio, hfg, Bool.false_eq_true, if_false, hstdin, Option.isSome_none]
    rw [hopened]
  · have hserved : e.host.ServedAlike (host'.note (.opened s)) := h.served.of_outcomes rfl (hsame'.trans hsame)
    refine h.withHosts ?_ hserved herr
    rw [Host.events_note, Host.pipe_events hpipe', Host.pipe_events hpipe]
    simpa [s, Session.pipes, Event.made] using h.mirrored.opened s rfl

/-- the second run drains its session: the children's ends are closed before, and the rest behind it -/
theorem drain_beside {s : Session} (hs : s.stdin = none) {children : List (Pid × Pid)}
    (h : like.Paired o (some s)
      { children, ends := ↑[s.stderr.reader, s.stderr.writer, s.stdout.reader, s.stdout.writer] } e e') :
    (ev.lasting.drain (some s) e').1 = .ok () ∧
      Beside o 0 none (like.settling children 0) e (ev.lasting.drain (some s) e').2 := by
  have hends : ((s.childEnds ++ s.idleEnds : List _) : Multiset Descriptor) + ↑s.parentEnds.toList =
      ↑[s.stderr.reader, s.stderr.writer, s.stdout.reader, s.stdout.writer] := by
    rw [Multiset.coe_add, Multiset.coe_eq_coe, List.perm_iff_count]
    intro d
    simp only [Session.childEnds, Session.idleEnds, Session.parentEnds, ParentEnds.toList, hs, Option.map_none,
      ite_self,
      Option.toList_none, List.append_nil, List.cons_append, List.nil_append, List.count_cons, List.count_nil]
    omega
  have hclosed : like.launching { children, ends := ↑s.parentEnds.toList } e.host.here
      (e'.host.closeAll (s.childEnds ++ s.idleEnds)).here := by
    rw [Host.here_closeAll]
    exact hb.endsClosed (S := { children }) rfl _ (by rw [hends]; exact h.alike)
  obtain ⟨hresult, hdrained⟩ := hb.drained (by simp [Session.parentEnds, hs]) hclosed
  obtain ⟨io, hio, hstdin⟩ := h.exists_streams
  have hanswer : (ev.lasting.drain (some s) e').1 = .ok () := by
    simp only [drain, hio, hstdin, Host.drain]
    exact hresult
  have hlog : (ev.lasting.drain (some s) e').2.host.events = _ :=
    drain_logged ev.lasting (s := s) (e := e') (by rw [h.captured]; rfl)
  rw [hanswer] at hlog
  have hsame : (ev.lasting.drain (some s) e').2.host.outcomes = e'.host.outcomes := by
    simp only [drain, hio, Host.drain, Host.outcomes_closeAll]
    exact Host.outcomes_closeAll _ _
  refine ⟨hanswer, h.uncaptured, (drain_capture ev.lasting (some s) e').trans h.captured, ?_, ?_, ?_,
    h.served.of_outcomes rfl hsame, ?_⟩
  · simpa only [drain, hio] using h.status
  · simpa only [drain, hio] using h.jobs
  · rw [hlog]
    exact h.mirrored.drained
  · simp only [drain, hio, hstdin, Host.drain, Host.here_closeAll]
    exact hb.endsShut _ hdrained

/-- waiting for the children of a group is answered alike -/
theorem waitAll_beside (children : List (Pid × Pid)) (hnumbers : ∀ p ∈ children, o.numbers p.1 p.2)
    (h : Beside o 0 none (like.settling children 0) e e') :
    (ev.lasting.waitAll (children.map Prod.snd) e').1 = (ev.waitAll (children.map Prod.fst) e).1 ∧
      Beside o 0 none (like.settling [] 0) (ev.waitAll (children.map Prod.fst) e).2
        (ev.lasting.waitAll (children.map Prod.snd) e').2 := by
  induction children generalizing e e' with
  | nil => exact ⟨rfl, h⟩
  | cons child children ih =>
    obtain ⟨hpid, hnumbers⟩ := List.forall_mem_cons.1 hnumbers
    obtain ⟨hanswer, halike⟩ := hb.waited h.alike
    have hanswer : (e'.host.wait ev.lasting.backend child.2).1 = (e.host.wait ev.backend child.1).1 := hanswer
    have hwaited : Beside o 0 none (like.settling children 0) { e with host := (e.host.wait ev.backend child.1).2 }
        { e' with host := (e'.host.wait ev.lasting.backend child.2).2 } := by
      refine h.withHosts ?_ (h.served.of_outcomes rfl rfl) halike
      rw [Host.events_wait, Host.events_wait, hanswer]
      exact h.mirrored.waited hpid _
    obtain ⟨hlater, hbeside⟩ := ih hnumbers hwaited
    refine ⟨?_, hbeside⟩
    simp only [List.map_cons, waitAll]
    rw [hanswer, hlater]

/-- a group is settled alike in both runs: the first only waits for its children -/
theorem settle_beside {s : Session} (hs : s.stdin = none) {l l' : Launched σ} {new : List (Pid × Pid)}
    (h : LaunchesBeside like o (some s)
      { ends := ↑[s.stderr.reader, s.stderr.writer, s.stdout.reader, s.stdout.writer] } l l' new) :
    (ev.lasting.settle (some s) l').1 = (ev.settle none l).1 ∧
      like.Paired o none {} (ev.settle none l).2 (ev.lasting.settle (some s) l').2 := by
  obtain ⟨hdrained, hsettling⟩ := drain_beside hb hs h.engine
  obtain ⟨hwaited, hdone⟩ := waitAll_beside hb new h.numbers hsettling
  rw [← h.started, ← h.started'] at hwaited hdone
  refine ⟨?_, hdone.mono hb.settled⟩
  simp only [settle, h.outcome, hdrained, hwaited]
  rfl

omit hb in
/-- a group of the background, which has nothing to settle -/
theorem settle_background_beside {l l' : Launched σ} (h : LaunchesBeside like o none {} l l' []) :
    (ev.lasting.settle none l').1 = (ev.settle none l).1 ∧
      like.Paired o none {} (ev.settle none l).2 (ev.lasting.settle none l').2 := by
  simp only [settle, drain, h.started, h.started', h.outcome, List.map_nil, waitAll]
  exact ⟨trivial, h.engine⟩

omit hb in
theorem deeds_waitAll (pids : List Pid) (e : Engine σ) : (ev.waitAll pids e).2.host.deeds = e.host.deeds := by
  induction pids generalizing e with
  | nil => rfl
  | cons pid rest ih => exact (ih _).trans (Host.deeds_wait ev.backend e.host pid)

omit hb in
/-- what has been settled alike meets, also if the host of the first run has ended before -/
theorem Meets.of_settled {l l' : Launched σ}
    (h : (ev.lasting.settle session l').1 = (ev.settle none l).1 ∧
      like.Paired o none {} (ev.settle none l).2 (ev.lasting.settle session l').2) :
    ev.Meets like o (if ev.terminated l.outcome then (l.outcome.map fun _ => 0, l.engine) else ev.settle none l)
      (if ev.lasting.terminated l'.outcome then (l'.outcome.map fun _ => 0, l'.engine)
        else ev.lasting.settle session l') := by
  rw [terminated_lasting, if_neg Bool.false_ne_true]
  split
  · rename_i hterm
    obtain ⟨hexit, n, hn⟩ := (terminated_iff ev).1 hterm
    have hresult : (ev.settle none l).1 = .error (.exit n) := by simp only [settle, hn]
    refine ⟨?_, ?_, fun hgoes => absurd (by rw [hn]; rfl) (hgoes hexit n)⟩
    · rw [h.1, hresult, hn]
      rfl
    · rw [h.2.deeds]
      exact deeds_waitAll l.started l.engine
  · exact ⟨h.1, h.2.deeds, fun _ => h.2⟩

include hnum in
/-- A whole group meets, in the foreground with a session in the second run. -/
theorem runGroup_beside {t : Tree} (ht : t.IsGroup) (background : Bool) (h : like.Paired o none {} e e') :
    ev.Meets like o (ev.runGroup (ev.launch t) { background } e)
      (ev.lasting.runGroup (ev.lasting.launch t) { background } e') := by
  have hcontexts : ∀ S : Standing, S.Contexts { background } { background } := fun S =>
    ⟨rfl, .host, .host, fun d d' hd => absurd hd nofun⟩
  have hlaunch : ∀ {ends : Multiset Descriptor} {session : Option Session} {e₁ : Engine σ},
      Standing.Serves { ends } session background → like.Paired o session { ends } e e₁ →
      ∃ new, LaunchesBeside like o session { ends } (ev.launch t { background } none e)
        (ev.lasting.launch t { background } session e₁) new := by
    intro ends session e₁ hsession h
    refine launchFrom_beside hb hnum ht none (hcontexts _) rfl hsession ?_
    simp only [Option.toList_none, Multiset.coe_nil, Multiset.zero_add]
    exact h
  unfold runGroup
  rw [openSession_uncaptured h.uncaptured]
  cases background with
  | true =>
    rw [openSession_background ev.lasting rfl]
    obtain ⟨new, hlaunched⟩ := hlaunch ⟨rfl, by rintro _ ⟨⟩, by rintro _ ⟨⟩⟩ h
    obtain ⟨took, evs, htrace, -, -⟩ := launchFrom_group ev ht none { background := true } none e rfl
    have hnone : new.map Prod.fst = [] := hlaunched.started.symm.trans (htrace.background rfl).1
    obtain rfl : new = [] := List.map_eq_nil_iff.1 hnone
    exact .of_settled (settle_background_beside hlaunched)
  | false =>
    obtain ⟨s, e₁, hopened, hstdin, hsession⟩ := openSession_beside hb {} rfl h
    rw [hopened]
    have hserves : Standing.Serves
        { ends := ↑[s.stderr.reader, s.stderr.writer, s.stdout.reader, s.stdout.writer] } (some s) false := by
      refine ⟨rfl, ?_, ?_⟩
      · rintro _ ⟨⟩
        exact hstdin
      · rintro _ ⟨⟩
        exact ⟨by simp, by simp⟩
    obtain ⟨new, hlaunched⟩ := hlaunch hserves hsession
    exact .of_settled (settle_beside hb hstdin hlaunched)

/-! ## a line -/

omit hb in
/-- behind the group of a step nothing more is done -/
theorem deeds_after (st : Step σ) : st.after.host.deeds = st.ended.host.deeds :=
  Host.deeds_eq (ended_logged st) (by cases st.failure? <;> rfl)

include hnum in
/-- a step of the first run meets the step of the second -/
theorem step_beside {s : Statement} (hs : s.group.IsGroup) (h : like.Paired o none {} e e') :
    ev.Meets like o ((ev.step {} s e).result, (ev.step {} s e).after)
      ((ev.lasting.step {} s e').result, (ev.lasting.step {} s e').after) := by
  have hgroup := runGroup_beside hb hnum hs s.background h
  change ev.Meets like o ((ev.step {} s e).ran, (ev.step {} s e).ended)
    ((ev.lasting.step {} s e').ran, (ev.lasting.step {} s e').ended) at hgroup
  have hstatement : (ev.step {} s e).statement = s ∧ (ev.lasting.step {} s e').statement = s := ⟨rfl, rfl⟩
  generalize ev.step {} s e = st at *
  generalize ev.lasting.step {} s e' = st' at *
  have hran : st'.ran = st.ran := hgroup.answer
  refine ⟨?_, ?_, fun hgoes => ?_⟩
  · simp only [Step.result, hran, hstatement]
  · simp only [deeds_after]
    exact hgroup.deeds
  · have hended := hgroup.beside fun hexit n hn =>
      hgoes hexit n (by simp only [Step.result, show st.ran = _ from hn]; rfl)
    simp only [Step.after, Step.failure?, Step.remembered, hran]
    cases st.ran with
    | ok status => exact hended.withStatus status
    | error f =>
      cases hf : f.isExit with
      | true => simpa only [hf, if_true] using hended
      | false => simpa only [hf, Bool.false_eq_true, if_false] using Beside.report hb (hended.withStatus 1) f

include hnum in
theorem concluded_beside (ss : List Statement) (hss : ∀ s ∈ ss, s.group.IsGroup) (h : like.Paired o none {} e e') :
    ev.Meets like o (concluded e (ev.steps {} ss e)) (concluded e' (ev.lasting.steps {} ss e')) := by
  induction ss generalizing e e' with
  | nil => exact .of_paired h _
  | cons s ss ih =>
    have hstep := step_beside hb hnum (hss s List.mem_cons_self) h
    have hstops : (ev.lasting.step {} s e').stops = (ev.step {} s e).stops := by
      rw [Bool.eq_iff_iff, stops_iff, stops_iff, show (ev.lasting.step {} s e').result = _ from hstep.answer]
    rw [concluded_steps, concluded_steps, hstops]
    split
    · exact hstep
    · rename_i hgoes
      refine ih (fun s' hs' => hss s' (List.mem_cons_of_mem s hs')) (hstep.beside fun _ n hn => hgoes (.inl ?_))
      exact stops_iff.2 ⟨n, hn⟩

include hnum in
/-- **A line in both runs.** It comes to the same result after the same deeds, whether output is captured or not, and
the two runs stay side by side unless `exit` has ended the host of the first. -/
theorem execute_beside {ts : List Token} {t : Tree} (ht : Line.parse ts = .ok t) (h : like.Paired o none {} e e') :
    ev.Meets like o (ev.execute t {} e) (ev.lasting.execute t {} e') := by
  have hline : t.IsLine := (Line.parse_eq_ok_iff.1 ht).1.isLine
  rw [execute_eq_concluded ev hline, execute_eq_concluded ev.lasting hline]
  exact concluded_beside hb hnum t.statements hline.isGroup h

end Evaluation

end LineShell
