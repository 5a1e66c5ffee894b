/-
Who reads the payload.

A group that is captured opens a session with a pipe for the payload, and its first child reads that pipe if nothing
else was given to it. Such a child is the head of its group. Only the sessions up to the first head of a call write
the payload; a session behind it closes its pipe unwritten, so that the head of its group reads the end of input.

`GroupRecord` is a group as the log shows it: the session that was opened, and the stages that were started.

- `GroupTrace.took_iff_hasHead`: launching a group takes the payload if and only if the group has a head.
- `step_recorded`: one statement, and whether the payload is spent behind it.
- `execute_feeds_once`: a whole line.
-/
import LineShell.Proofs.Lifecycle
import LineShell.Proofs.Wiring

namespace LineShell

/-! ## groups as they are logged -/

/-- an event that starts a child -/
def Event.isChild : Event → Bool
  | spawned _ (.ok _) => true
  | _ => false

theorem Event.exists_spawned {x : Event} (h : x.isChild = true) : ∃ request pid, x = .spawned request (.ok pid) := by
  unfold isChild at h
  split at h
  · exact ⟨_, _, rfl⟩
  · cases h

/-- does the stage read a file of its own? -/
def Stage.readsFile (s : Stage) : Bool := s.redirection.any fun r => r.1 = .input

theorem StageRun.own_input_eq_none {r : StageRun} (h : r.stage.readsFile = false) : r.own .input = none := by
  refine if_neg fun hdir => ?_
  obtain ⟨redirection, hr, hdir⟩ := Option.map_eq_some_iff.1 hdir
  simp [Stage.readsFile, hr, hdir] at h

theorem StageRun.own_input_isSome {r : StageRun} (h : r.stage.readsFile = true)
    (hfile : r.file.isSome = r.stage.redirection.isSome) : (r.own .input).isSome = true := by
  cases hr : r.stage.redirection with
  | none => simp [Stage.readsFile, hr] at h
  | some redirection =>
    have hdir : redirection.1 = .input := by simpa [Stage.readsFile, hr] using h
    simp [StageRun.own, hr, hdir, hfile]

/-- the shell keeps the writing end if there is a payload to write -/
theorem Session.isSome_parentEnds_stdin {s : Session} {pipe : Pipe} (h : s.stdin = some pipe) :
    s.parentEnds.stdin.isSome = s.feeds := by
  cases hfeeds : s.feeds <;> simp [Session.parentEnds, hfeeds, h]

/-- a group that has been run -/
structure GroupRecord where
  context : Context
  session : Option Session
  runs : List StageRun
  events : List Event

/-- stage `i` of the group is a child that is waited for and that was given nothing to read: no file, no pipe of another
stage, and no stream of the whole line -/
structure GroupRecord.Heads (g : GroupRecord) (i : Nat) (r : StageRun) : Prop where
  place : g.runs[i]? = some r
  first : i = 0
  foreground : g.context.background = false
  ungiven : g.context.input = none
  unredirected : r.stage.readsFile = false
  started : r.deed.isChild = true

/-- there is one head at most: it stands first -/
theorem GroupRecord.Heads.unique {g : GroupRecord} {i j : Nat} {r r' : StageRun} (h : g.Heads i r) (h' : g.Heads j r') :
    i = j ∧ r = r' := by
  obtain ⟨hplace, rfl, -, -, -, -⟩ := h
  obtain ⟨hplace', rfl, -, -, -, -⟩ := h'
  exact ⟨rfl, Option.some.inj (hplace.symm.trans hplace')⟩

/-- the group has a head -/
def GroupRecord.HasHead (g : GroupRecord) : Prop := ∃ i r, g.Heads i r

/-- how a group deals with the payload, which may be `spent`: its head reads the pipe of its own session, there is one
head at most, every other child reads what it would read without a session, and a session that is drained writes the
payload if and only if it is not spent -/
structure GroupRecord.Feeds (g : GroupRecord) (spent : Prop) : Prop where
  reads : ∀ i r, g.Heads i r → ∃ s pipe request result,
    g.session = some s ∧ s.stdin = some pipe ∧ r.deed = .spawned request result ∧ request.stdin = some pipe.reader
  unique : ∀ i r j r', g.Heads i r → g.Heads j r' → i = j ∧ r = r'
  others : ∀ i r request pid, g.runs[i]? = some r → r.deed = .spawned request (.ok pid) → ¬ g.Heads i r →
    request.stdin = (r.own .input <|> Evaluation.inletAt g.context none g.runs i)
  writes : ∀ s ∈ g.events.filterMap Event.drained?, s.parentEnds.stdin.isSome = true ↔ ¬ spent

namespace Evaluation

open Engine

variable {σ : Type} (ev : Evaluation σ)

/-- the record of a group with these stages: its session is the one that was opened and perhaps drained, its runs are
what was started, and each of them is a stage that has the streams of its place -/
structure Records (ctx : Context) (stages : List Stage) (g : GroupRecord) : Prop where
  context : g.context = ctx
  opened : g.events.filterMap Event.opened? = g.session.toList
  drained : ∀ s ∈ g.events.filterMap Event.drained?, g.session = some s
  inOrder : g.runs.map (·.stage) <+: stages
  deeds : g.events.filter Event.starts = g.runs.map (·.deed)
  wired : ∀ i r, g.runs[i]? = some r → ev.WiredAt ctx g.session stages.length g.runs i r

variable {ev}

/-! ## what takes the payload -/

variable {session : Option Session} {ctx : Context} {o : Except Failure StageOutcome} {ps : List Pid} {took : Bool}
  {evs : List Event}

theorem find?_performed (b : Builtin) (args : List String) (output : Option Descriptor) :
    (Event.performed b args output).find? Event.starts = some (.ranBuiltin b args) := by
  cases output <;> rfl

theorem CommandTrace.took_eq {words : List Span} (h : ev.CommandTrace session ctx words o ps took evs) :
    took = (takesPayload ctx session && (evs.find? Event.starts).any Event.isChild) := by
  cases h with
  | builtin r _ _ =>
    rw [find?_performed, Option.any_some]
    simp [Event.isChild]
  | unduplicated d f _ _ _ => simp [Event.starts]
  | _ =>
    rw [List.find?_cons_of_pos rfl, Option.any_some]
    simp [Event.isChild]

theorem CommandTrace.find?_isSome {words : List Span} {so : StageOutcome}
    (h : ev.CommandTrace session ctx words (.ok so) ps took evs) : (evs.find? Event.starts).isSome = true := by
  generalize ho : (.ok so : Except Failure StageOutcome) = o at h
  cases h with
  | builtin r _ _ =>
    rw [find?_performed]
    rfl
  | unduplicated d f _ _ _ => cases ho
  | _ => rfl

theorem find?_closed (ds : List Descriptor) : (ds.map Event.closed).find? Event.starts = none := by
  rw [List.find?_eq_none]
  intro x hx
  simp [Event.closed_starts_nothing ds x hx]

theorem StageTrace.took_eq {s : Stage} (h : ev.StageTrace session ctx s o ps took evs) :
    took = (takesPayload ctx session && !s.readsFile && (evs.find? Event.starts).any Event.isChild) := by
  cases h with
  | plain hnone hc => simp [Stage.readsFile, hnone, hc.took_eq]
  | unopened f hsome => simp [Event.starts]
  | @redirected dir target d _ _ _ evs hsome hc =>
    have hfind : (Event.redirected dir (target.text ev.line) (.ok d) :: (evs ++ [.closed d])).find? Event.starts =
        evs.find? Event.starts := by
      rw [List.find?_cons_of_neg (by simp [Event.starts]), List.find?_append]
      simp [Event.starts]
    rw [hfind, hc.took_eq]
    cases dir with
    | input => simp [Stage.readsFile, hsome, takesPayload, Context.redirected]
    | output => simp [Stage.readsFile, hsome, takesPayload, Context.redirected]

theorem StageTrace.find?_isSome {s : Stage} {so : StageOutcome} (h : ev.StageTrace session ctx s (.ok so) ps took evs) :
    (evs.find? Event.starts).isSome = true := by
  cases h with
  | plain _ hc => exact hc.find?_isSome
  | redirected d _ hc =>
    rw [List.find?_cons_of_neg (by simp [Event.starts]), List.find?_append, Option.isSome_or, hc.find?_isSome]
    rfl

/-- behind a pipe nothing takes the payload -/
theorem GroupTrace.took_of_input {inlet : Option Descriptor} {stages : List Stage}
    (h : ev.GroupTrace session ctx inlet stages o ps took evs) (hinput : ctx.input.isSome = true) : took = false := by
  have hstage : ∀ {ctx : Context} {s o ps took evs}, ev.StageTrace session ctx s o ps took evs →
      ctx.input.isSome = true → took = false := by
    intro ctx s o ps took evs hs hinput
    rw [hs.took_eq, takesPayload, ← Option.not_isSome, hinput]
    rfl
  induction h with
  | last hs => exact hstage hs hinput
  | unpiped f _ => rfl
  | failed pipe _ hs => exact hstage hs hinput
  | piped pipe _ hs _ ih =>
    rw [hstage hs hinput, ih rfl]
    rfl

/-- launching a group takes the payload if and only if the first command that it starts is a child to which nothing else
was given -/
theorem GroupTrace.took_eq {inlet : Option Descriptor} {stages : List Stage}
    (h : ev.GroupTrace session ctx inlet stages o ps took evs) :
    ∃ s rest, stages = s :: rest ∧
      took = (takesPayload ctx session && !s.readsFile && (evs.find? Event.starts).any Event.isChild) := by
  cases h with
  | last hs =>
    refine ⟨_, _, rfl, ?_⟩
    rw [List.find?_append, find?_closed, Option.or_none]
    exact hs.took_eq
  | unpiped f _ =>
    refine ⟨_, _, rfl, ?_⟩
    rw [List.find?_cons_of_neg (by simp [Event.starts]), find?_closed]
    simp
  | failed pipe _ hs =>
    refine ⟨_, _, rfl, ?_⟩
    rw [Event.made, List.find?_cons_of_neg (by simp [Event.starts]), List.find?_append, find?_closed, Option.or_none]
    exact hs.took_eq
  | piped pipe _ hs hrest =>
    -- the stages behind the first one read pipes, and the first one has started something
    refine ⟨_, _, rfl, ?_⟩
    rw [hrest.took_of_input rfl, Bool.or_false, Event.made, List.find?_cons_of_neg (by simp [Event.starts]),
      List.append_assoc, List.find?_append, Option.or_of_isSome hs.find?_isSome]
    exact hs.took_eq

/-! ## the record of a group -/

theorem Starts.starts {request : SpawnRequest} {deed : Event} (h : Starts request deed) : deed.starts = true := by
  unfold Starts at h
  split at h
  · rw [h]
    rfl
  · obtain ⟨result, rfl⟩ := h
    rfl

theorem StageRun.filter_starts {r : StageRun} (h : r.deed.starts = true) :
    (r.events ev).filter Event.starts = [r.deed] := by
  have hmade : (r.outlet.toList.map Event.made).filter Event.starts = [] := by
    cases r.outlet <;> rfl
  have hopening : (r.opening ev).filter Event.starts = [] := by
    unfold StageRun.opening
    split <;> rfl
  rw [StageRun.events, List.filter_append, List.filter_append, hmade, hopening, List.filter_cons_of_pos h]
  rfl

theorem Wired.deeds {stages : List Stage} {runs : List StageRun} {stopped : List Event}
    (h : ev.Wired ctx session stages runs stopped evs) : evs.filter Event.starts = runs.map (·.deed) := by
  have hwires : evs.filter Event.starts = (evs.filter Event.wires).filter Event.starts := by
    rw [List.filter_filter]
    refine List.filter_congr fun x _ => ?_
    cases x <;> rfl
  have hruns : ∀ r ∈ runs, (r.events ev).filter Event.starts = [r.deed] := by
    intro r hr
    obtain ⟨i, hi⟩ := List.mem_iff_getElem?.1 hr
    exact StageRun.filter_starts (h.wired i r hi).deed.starts
  have hstopped : stopped.filter Event.starts = [] :=
    List.filter_eq_nil_iff.2 fun x hx => by simp [h.stopped x hx]
  rw [hwires, h.events, List.filter_append, hstopped, List.append_nil, List.filter_flatMap, List.flatMap_congr hruns,
    List.map_eq_flatMap]

/-- an event that starts nothing, opens no session, and drains no other session than `session` -/
structure Settles (session : Option Session) (x : Event) : Prop where
  starts : x.starts = false
  opens : x.opened? = none
  drains : ∀ s, x.drained? = some s → session = some s

theorem Settles.of_none {x : Event} (hstarts : x.starts = false) (hopens : x.opened? = none)
    (hdrains : x.drained? = none) : Settles session x := by
  refine ⟨hstarts, hopens, fun s hs => ?_⟩
  rw [hdrains] at hs
  cases hs

theorem settles_closed (session : Option Session) (ds : List Descriptor) : ∀ x ∈ ds.map .closed, Settles session x := by
  intro x hx
  obtain ⟨d, -, rfl⟩ := List.mem_map.1 hx
  exact .of_none rfl rfl rfl

theorem opened?_of_settles {evs : List Event} (h : ∀ x ∈ evs, Settles session x) : evs.filterMap Event.opened? = [] :=
  List.filterMap_eq_nil_iff.2 fun x hx => (h x hx).opens

theorem filter_starts_of_settles {evs : List Event} (h : ∀ x ∈ evs, Settles session x) : evs.filter Event.starts = [] :=
  List.filter_eq_nil_iff.2 fun x hx => by simp [(h x hx).starts]

theorem Opening.opened? {background delivered : Bool} {capture : Option (Option Bytes)}
    {r : Except Failure (Option Session)} {evs : List Event} (h : Opening background capture delivered r evs) :
    evs.filterMap Event.opened? = (r.toOption.bind id).toList := by
  have hmade : ∀ ps : List Pipe, (ps.map Event.made).filterMap Event.opened? = [] := by
    intro ps
    rw [List.filterMap_map]
    exact List.filterMap_eq_nil_iff.2 fun _ _ => rfl
  cases h with
  | uncaptured _ => rfl
  | opened _ _ _ _ =>
    rw [List.filterMap_append, hmade]
    rfl
  | refused _ _ =>
    rw [Event.unopened, List.filterMap_append, hmade, List.filterMap_cons_none rfl, List.filterMap_map]
    exact List.filterMap_eq_nil_iff.2 fun _ _ => rfl

theorem Opening.drained? {background delivered : Bool} {capture : Option (Option Bytes)}
    {r : Except Failure (Option Session)} {evs : List Event} (h : Opening background capture delivered r evs) :
    evs.filterMap Event.drained? = [] := by
  refine List.filterMap_eq_nil_iff.2 fun x hx => ?_
  rcases h.of_mem hx with ⟨_, rfl⟩ | ⟨_, rfl⟩ | ⟨_, rfl⟩ <;> rfl

theorem session_of_isLaunch {evs : List Event} (h : evs.all Event.isLaunch = true) :
    evs.filterMap Event.opened? = [] ∧ evs.filterMap Event.drained? = [] := by
  have hnone : ∀ x ∈ evs, x.opened? = none ∧ x.drained? = none := by
    intro x hx
    have hlaunch := List.all_eq_true.1 h x hx
    cases x with
    | opened s => simp [Event.isLaunch] at hlaunch
    | drained s r => simp [Event.isLaunch] at hlaunch
    | _ => exact ⟨rfl, rfl⟩
  exact ⟨List.filterMap_eq_nil_iff.2 fun x hx => (hnone x hx).1, List.filterMap_eq_nil_iff.2 fun x hx => (hnone x hx).2⟩

variable {capture : Option (Option Bytes)} {delivered : Bool} {stages : List Stage}

/-- a group whose session was opened or not, whose stages were launched, and that was settled -/
theorem Opening.records {r : Except Failure (Option Session)} {opening launching settling : List Event}
    {runs : List StageRun} {stopped : List Event} (hopen : Opening ctx.background capture delivered r opening)
    (hsession : r.toOption.bind id = session) (hlaunch : launching.all Event.isLaunch = true)
    (hwired : ev.Wired ctx session stages runs stopped launching) (hsettling : ∀ x ∈ settling, Settles session x) :
    ev.Records ctx stages ⟨ctx, session, runs, opening ++ launching ++ settling⟩ where
  context := rfl
  opened := by
    rw [List.filterMap_append, List.filterMap_append, hopen.opened?, hsession, (session_of_isLaunch hlaunch).1,
      opened?_of_settles hsettling, List.append_nil, List.append_nil]
  drained s hs := by
    rw [List.filterMap_append, List.filterMap_append, hopen.drained?, (session_of_isLaunch hlaunch).2,
      List.nil_append, List.nil_append] at hs
    obtain ⟨x, hx, hdrain⟩ := List.mem_filterMap.1 hs
    exact (hsettling x hx).drains s hdrain
  inOrder := hwired.inOrder
  deeds := by
    have hopening : opening.filter Event.starts = [] :=
      List.filter_eq_nil_iff.2 fun x hx => by simp [hopen.starts_nothing x hx]
    rw [List.filter_append, List.filter_append, hopening, hwired.deeds, filter_starts_of_settles hsettling]
    simp
  wired := hwired.wired

/-! ## heads -/

/-- with a payload every group of the foreground has a pipe for it, and no other group has a session -/
theorem Opening.session_eq {payload : Bytes} {opening : List Event}
    (h : Opening ctx.background (some (some payload)) delivered (.ok session) opening) :
    (ctx.background = true ∧ session = none) ∨
      ctx.background = false ∧ ∃ s pipe, session = some s ∧ s.stdin = some pipe ∧ s.feeds = !delivered := by
  cases h with
  | uncaptured h => exact .inl ⟨h.resolve_right (by simp), rfl⟩
  | opened hfg hc hin hfeeds =>
    obtain rfl := Option.some.inj hc
    obtain ⟨pipe, hpipe⟩ := Option.isSome_iff_exists.1 hin
    exact .inr ⟨hfg, _, pipe, rfl, hpipe, hfeeds⟩

theorem Opening.takesPayload_eq {payload : Bytes} {opening : List Event}
    (h : Opening ctx.background (some (some payload)) delivered (.ok session) opening) :
    takesPayload ctx session = (ctx.input.isNone && !ctx.background) := by
  rcases h.session_eq with ⟨hbg, rfl⟩ | ⟨hfg, s, pipe, rfl, hpipe, -⟩
  · simp [takesPayload, hbg]
  · simp [takesPayload, hfg, hpipe]

/-- the payload is taken if and only if the group has a head -/
theorem GroupTrace.took_iff_hasHead {inlet : Option Descriptor} {runs : List StageRun}
    (h : ev.GroupTrace session ctx inlet stages o ps took evs) (hdeeds : evs.filter Event.starts = runs.map (·.deed))
    (hstages : runs.map (·.stage) <+: stages)
    (htakes : takesPayload ctx session = (ctx.input.isNone && !ctx.background))
    (all : List Event) : took = true ↔ GroupRecord.HasHead ⟨ctx, session, runs, all⟩ := by
  obtain ⟨s, rest, rfl, htook⟩ := h.took_eq
  -- the first start in the log is that of the first stage
  have hfirst : ∀ r, runs.head? = some r → r.stage = s := by
    intro r hr
    cases runs with
    | nil => cases hr
    | cons r' runs =>
      obtain rfl := Option.some.inj hr
      exact (List.cons_prefix_cons.1 hstages).1
  rw [htook, htakes, ← List.head?_filter, hdeeds, List.head?_map]
  constructor
  · intro hhead
    obtain ⟨r, hr⟩ : ∃ r, runs.head? = some r := by
      cases hruns : runs.head? with
      | none => simp [hruns] at hhead
      | some r => exact ⟨r, rfl⟩
    rw [hr] at hhead
    simp only [Bool.and_eq_true, Bool.not_eq_true', Option.isNone_iff_eq_none, Option.map_some,
      Option.any_some] at hhead
    obtain ⟨⟨⟨hinput, hfg⟩, hfile⟩, hchild⟩ := hhead
    exact ⟨0, r, by rw [← List.head?_eq_getElem?]; exact hr, rfl, hfg, hinput, hfirst r hr ▸ hfile, hchild⟩
  · rintro ⟨i, r, hplace, rfl, hfg, hinput, hfile, hchild⟩
    have hr : runs.head? = some r := by
      rw [List.head?_eq_getElem?]
      exact hplace
    simp only at hfg hinput
    simp [hr, hfg, hinput, ← hfirst r hr, hfile, hchild]

theorem Starts.request_eq {asked request : SpawnRequest} {result : Except Failure Pid}
    (h : Starts asked (.spawned request result)) : request = asked := by
  unfold Starts at h
  split at h
  · cases h
  · obtain ⟨_, h⟩ := h
    exact (Event.spawned.inj h).1

/-- a child reads what its place says -/
theorem Records.stdin_eq {g : GroupRecord} (h : ev.Records ctx stages g) {i : Nat} {r : StageRun}
    (hplace : g.runs[i]? = some r) {request : SpawnRequest} {result : Except Failure Pid}
    (hdeed : r.deed = .spawned request result) :
    request.stdin = (r.own .input <|> inletAt g.context g.session g.runs i) := by
  have hstarts := (h.wired i r hplace).deed
  rw [hdeed] at hstarts
  rw [hstarts.request_eq, requestAt, h.context]

/-- a head reads the pipe of its own session -/
theorem Records.reads {g : GroupRecord} (h : ev.Records ctx stages g)
    (hsession : g.context.background = false → g.runs ≠ [] → ∃ s pipe, g.session = some s ∧ s.stdin = some pipe) :
    ∀ i r, g.Heads i r → ∃ s pipe request result,
      g.session = some s ∧ s.stdin = some pipe ∧ r.deed = .spawned request result ∧
        request.stdin = some pipe.reader := by
  rintro i r ⟨hplace, rfl, hfg, hinput, hfile, hchild⟩
  obtain ⟨s, pipe, hs, hpipe⟩ := hsession hfg fun hnil => by simp [hnil] at hplace
  obtain ⟨request, pid, hdeed⟩ := Event.exists_spawned hchild
  refine ⟨s, pipe, request, _, hs, hpipe, hdeed, ?_⟩
  rw [h.stdin_eq hplace hdeed, StageRun.own_input_eq_none hfile]
  simp [inletAt, hinput, hs, hpipe]

/-- a child that is no head does not read the pipe of the session -/
theorem Records.others {g : GroupRecord} (h : ev.Records ctx stages g)
    (hsession : g.context.background = true → g.session = none) :
    ∀ i r request pid, g.runs[i]? = some r → r.deed = .spawned request (.ok pid) → ¬ g.Heads i r →
      request.stdin = (r.own .input <|> inletAt g.context none g.runs i) := by
  intro i r request pid hplace hdeed hno
  rw [h.stdin_eq hplace hdeed]
  cases i with
  | succ i => rfl
  | zero =>
    -- the first stage is no head because of its file, its context, or the background
    cases hfile : r.stage.readsFile with
    | true =>
      obtain ⟨d, hd⟩ := Option.isSome_iff_exists.1 (StageRun.own_input_isSome hfile (h.wired 0 r hplace).file)
      rw [hd]
      rfl
    | false =>
      cases hinput : g.context.input with
      | some d => simp [inletAt, hinput]
      | none =>
        cases hbg : g.context.background with
        | true => rw [hsession hbg]
        | false => exact absurd ⟨hplace, rfl, hbg, hinput, hfile, by rw [hdeed]; rfl⟩ hno

/-- a group whose stages were launched deals with the payload, and took it if and only if it has a head -/
theorem GroupTrace.recorded {payload : Bytes} {opening launching settling : List Event}
    (htrace : ev.GroupTrace session ctx none stages o ps took launching)
    (hopen : Opening ctx.background (some (some payload)) delivered (.ok session) opening)
    (hsettling : ∀ x ∈ settling, Settles session x) :
    ∃ g : GroupRecord, g.events = opening ++ launching ++ settling ∧ ev.Records ctx stages g ∧
      g.Feeds (delivered = true) ∧ (took = true ↔ g.HasHead) := by
  obtain ⟨runs, stopped, hwired, -⟩ := htrace.wired
  have hrecords : ev.Records ctx stages ⟨ctx, session, runs, opening ++ launching ++ settling⟩ :=
    hopen.records rfl htrace.isLaunch hwired hsettling
  refine ⟨_, rfl, hrecords, ⟨hrecords.reads fun hfg _ => ?_, fun i r j r' => GroupRecord.Heads.unique,
    hrecords.others fun hbg => ?_, fun s hs => ?_⟩,
    htrace.took_iff_hasHead hwired.deeds hwired.inOrder hopen.takesPayload_eq _⟩
  · rcases hopen.session_eq with ⟨hbg, -⟩ | ⟨-, s, pipe, hs, hpipe, -⟩
    · exact absurd (hfg.symm.trans hbg) Bool.false_ne_true
    · exact ⟨s, pipe, hs, hpipe⟩
  · rcases hopen.session_eq with ⟨-, hnone⟩ | ⟨hfg, -⟩
    · exact hnone
    · exact absurd (hfg.symm.trans hbg) Bool.false_ne_true
  · have hsession : session = some s := hrecords.drained s hs
    rcases hopen.session_eq with ⟨-, hnone⟩ | ⟨-, s', pipe, hs', hpipe, hfeeds⟩
    · simp [hnone] at hsession
    · obtain rfl := Option.some.inj (hs'.symm.trans hsession)
      rw [Session.isSome_parentEnds_stdin hpipe, hfeeds]
      simp

/-- a group whose session could not be opened starts nothing -/
theorem Opening.recorded {f : Failure} {opening settling : List Event}
    (hopen : Opening ctx.background capture delivered (.error f) opening) (hsettling : ∀ x ∈ settling, Settles none x)
    (ev : Evaluation σ) (stages : List Stage) (spent : Prop) :
    ∃ g : GroupRecord, g.events = opening ++ settling ∧ ev.Records ctx stages g ∧ g.Feeds spent ∧ ¬ g.HasHead := by
  have hrecords : ev.Records ctx stages ⟨ctx, none, [], opening ++ [] ++ settling⟩ :=
    hopen.records rfl rfl (.nothing (by simp) stages) hsettling
  rw [List.append_nil] at hrecords
  have hnone : ∀ i r, ¬ GroupRecord.Heads ⟨ctx, none, [], opening ++ settling⟩ i r :=
    fun i r h => by simpa using h.place
  refine ⟨_, rfl, hrecords, ⟨fun i r h => absurd h (hnone i r), fun i r j r' => GroupRecord.Heads.unique,
    hrecords.others fun _ => rfl, fun s hs => ?_⟩, fun ⟨i, r, h⟩ => hnone i r h⟩
  cases hrecords.drained s hs

theorem settles_draining (drained : Except Failure Unit) (session : Option Session) :
    ∀ x ∈ draining drained session, Settles session x := by
  cases session with
  | none => simp [draining]
  | some s =>
    have hdrained : Settles (some s) (.drained s drained) := ⟨rfl, rfl, fun _ h => h⟩
    exact List.forall_mem_append.2 ⟨settles_closed _ _, List.forall_mem_cons.2 ⟨hdrained, settles_closed _ _⟩⟩

theorem settles_waited (session : Option Session) (ps : List Pid) (rs : List (Except Failure Int)) :
    ∀ x ∈ List.zipWith Event.waited ps rs, Settles session x := by
  intro x hx
  obtain ⟨_, _, rfl⟩ := of_mem_waited hx
  exact .of_none rfl rfl rfl

/-- a group that is run deals with the payload, and takes it if and only if it has a head -/
theorem GroupRun.recorded {e : Engine σ} {payload : Bytes} (hcap : e.capture = some (some payload))
    {r : Except Failure Int} {later : List Event} (h : ev.GroupRun ctx e stages r took evs)
    (hlater : ∀ session, ∀ x ∈ later, Settles session x) :
    ∃ g : GroupRecord, g.events = evs ++ later ∧ ev.Records ctx stages g ∧ g.Feeds (e.stdinDelivered = true) ∧
      (took = true ↔ g.HasHead) := by
  cases h with
  | unopened hopen =>
    obtain ⟨g, hevents, hrecords, hfeeds, hno⟩ := hopen.recorded (hlater none) ev stages (e.stdinDelivered = true)
    exact ⟨g, hevents, hrecords, hfeeds, by simp [hno]⟩
  | terminated _ hopen htrace =>
    rw [hcap] at hopen
    exact htrace.recorded hopen (hlater _)
  | @settled session o ps took opening launching drained rs hopen htrace _ =>
    rw [hcap] at hopen
    rw [List.append_assoc, List.append_assoc]
    refine htrace.recorded hopen (List.forall_mem_append.2 ⟨settles_draining drained session, ?_⟩)
    exact List.forall_mem_append.2 ⟨settles_waited session ps rs, hlater session⟩

/-! ## every group of a line -/

theorem after_delivered (st : Step σ) : st.after.stdinDelivered = st.ended.stdinDelivered := by
  have hremembered : st.remembered.stdinDelivered = st.ended.stdinDelivered := by
    obtain ⟨lastStatus, h⟩ := st.remembered_eq
    rw [h]
  unfold Step.after
  split
  · rename_i f _
    obtain ⟨io, host, h⟩ := report_frame st.remembered f
    rw [h]
    exact hremembered
  · exact hremembered

variable (ev)

/-- a statement deals with the payload, which is spent behind it if it was before or if the group has a head -/
theorem step_recorded {s : Statement} (hs : s.group.IsGroup) (ctx : Context) {e : Engine σ} {payload : Bytes}
    (hcap : e.capture = some (some payload)) :
    ∃ g : GroupRecord, Logged e (ev.step ctx s e).after g.events ∧
      ev.Records (ctx.forStatement s) s.group.stages g ∧ g.Feeds (e.stdinDelivered = true) ∧
      ((ev.step ctx s e).after.stdinDelivered = true ↔ e.stdinDelivered = true ∨ g.HasHead) := by
  obtain ⟨took, evs, hrun, hlog, hdelivered⟩ := step_run ev hs ctx e
  have hreported : ∀ session, ∀ x ∈ (ev.step ctx s e).failure?.toList.map Event.reported, Settles session x := by
    intro session x hx
    obtain ⟨f, -, rfl⟩ := List.mem_map.1 hx
    exact .of_none rfl rfl rfl
  obtain ⟨g, hevents, hrecords, hfeeds, htook⟩ := hrun.recorded hcap hreported
  refine ⟨g, ?_, hrecords, hfeeds, ?_⟩
  · rw [hevents]
    exact hlog.trans (ended_logged _)
  · rw [after_delivered, hdelivered, Bool.or_eq_true, htook]

/-- groups deal with the payload one after the other: what is spent at one of them is what was spent at the beginning,
or an earlier group has a head -/
def FeedInTurn (spent : Prop) (groups : List GroupRecord) : Prop :=
  ∀ past g later, groups = past ++ g :: later → g.Feeds (spent ∨ ∃ g' ∈ past, g'.HasHead)

theorem FeedInTurn.nil (spent : Prop) : FeedInTurn spent [] := by
  intro past g later h
  simp at h

theorem FeedInTurn.cons {spent spent' : Prop} {g : GroupRecord} {groups : List GroupRecord} (hg : g.Feeds spent)
    (hspent : spent' ↔ spent ∨ g.HasHead) (h : FeedInTurn spent' groups) : FeedInTurn spent (g :: groups) := by
  intro past g' later hsplit
  cases past with
  | nil =>
    obtain ⟨rfl, -⟩ := List.cons.inj hsplit
    simpa using hg
  | cons g'' past =>
    obtain ⟨rfl, htail⟩ := List.cons.inj hsplit
    simpa [hspent, or_assoc] using h past g' later htail

/-- a run of statements deals with the payload in turn -/
theorem steps_recorded {ctx : Context} {ss : List Statement} (hss : ∀ s ∈ ss, s.group.IsGroup) {e : Engine σ}
    {payload : Bytes} (hcap : e.capture = some (some payload)) :
    ∃ groups : List GroupRecord,
      List.Forall₂ (fun st g => Logged st.before st.after g.events ∧
        ev.Records (ctx.forStatement st.statement) st.statement.group.stages g) (ev.steps ctx ss e) groups ∧
      FeedInTurn (e.stdinDelivered = true) groups ∧
      ((concluded e (ev.steps ctx ss e)).2.stdinDelivered = true ↔
        e.stdinDelivered = true ∨ ∃ g ∈ groups, g.HasHead) := by
  induction ss generalizing e with
  | nil => exact ⟨[], .nil, .nil _, by simp [steps, concluded]⟩
  | cons s rest ih =>
    obtain ⟨hs, hrest⟩ := List.forall_mem_cons.1 hss
    obtain ⟨g, hlog, hrecords, hfeeds, hspent⟩ := step_recorded ev hs ctx hcap
    rw [concluded_steps]
    simp only [steps]
    by_cases hlast : (ev.step ctx s e).stops = true ∨ rest = []
    · rw [if_pos hlast, steps_behind_last ev ctx hlast]
      exact ⟨[g], .cons ⟨hlog, hrecords⟩ .nil, .cons hfeeds hspent (.nil _), by simpa using hspent⟩
    · -- the payload is still the same behind the step, so the rest of the run is one with a payload, too
      have hcap' : (ev.step ctx s e).after.capture = some (some payload) := (step_course ev s ctx e).capture.trans hcap
      obtain ⟨groups, hsteps, hturn, hfinal⟩ := ih hrest hcap'
      rw [if_neg hlast, if_neg fun h => hlast (.inl h)]
      exact ⟨g :: groups, .cons ⟨hlog, hrecords⟩ hsteps, .cons hfeeds hspent hturn, by simp [hfinal, hspent, or_assoc]⟩

/-- **The payload is read once.** On a line that was read, with a payload, the head of a group, which is a child of
the foreground with no file and no stage in front of it to read, reads the pipe of the group's own session. No group
has more than one head, and no other child reads that pipe. A session that is drained writes the payload if and only
if no group before it has had a head, on this line or on the engine before. So the first head spends the payload, and
nothing else does. -/
theorem execute_feeds_once {ts : List Token} {t : Tree} (ht : Line.parse ts = .ok t) (ctx : Context) {e : Engine σ}
    {payload : Bytes} (hcap : e.capture = some (some payload)) :
    ev.execute t ctx e = concluded e (ev.steps ctx t.statements e) ∧
    ∃ groups : List GroupRecord,
      List.Forall₂ (fun st g => Logged st.before st.after g.events ∧
        ev.Records (ctx.forStatement st.statement) st.statement.group.stages g) (ev.steps ctx t.statements e) groups ∧
      FeedInTurn (e.stdinDelivered = true) groups ∧
      ((ev.execute t ctx e).2.stdinDelivered = true ↔ e.stdinDelivered = true ∨ ∃ g ∈ groups, g.HasHead) := by
  have hline : t.IsLine := (Line.parse_eq_ok_iff.1 ht).1.isLine
  rw [execute_eq_concluded ev hline ctx e]
  exact ⟨rfl, steps_recorded ev hline.isGroup hcap⟩

/-- The two heads of the line `a;b`, on an engine whose payload nobody has read. -/
theorem execute_feeds_once_sequence :
    Line.parse (Line.tokens "a;b") = .ok (.chained (.command [⟨0, 1⟩]) .sequence (.command [⟨2, 3⟩])) ∧
    (capturing []).capture = some (some []) ∧
    ∃ groups : List GroupRecord,
      List.Forall₂ (fun st g => Logged st.before st.after g.events ∧
        (scripted "a;b").Records (({} : Context).forStatement st.statement) st.statement.group.stages g)
        ((scripted "a;b").steps {} [⟨.command [⟨0, 1⟩], false⟩, ⟨.command [⟨2, 3⟩], false⟩] (capturing [])) groups ∧
      FeedInTurn False groups := by
  have hparse : Line.parse (Line.tokens "a;b") = .ok (.chained (.command [⟨0, 1⟩]) .sequence (.command [⟨2, 3⟩])) := by
    decide +kernel
  obtain ⟨-, groups, hrecords, hturn, -⟩ := execute_feeds_once (scripted "a;b") hparse {} (e := capturing []) rfl
  exact ⟨hparse, rfl, groups, hrecords, by simpa [capturing] using hturn⟩

/-- on that line only the first of the two sessions writes the payload -/
example :
    (((scripted "a;b").execute (.chained (.command [⟨0, 1⟩]) .sequence (.command [⟨2, 3⟩])) {}
      (capturing [])).2.events.filterMap Event.drained?).map (fun s => s.parentEnds.stdin.isSome) = [true, false] := by
  decide +kernel

end Evaluation

end LineShell
