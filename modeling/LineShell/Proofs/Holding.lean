/-
Which descriptors a group holds on to.

While a group is launched, the shell has the ends of its session in hand, and of pipes and files only what the next
command needs: the reading end of the pipe in front of it, both ends of the one behind it, its own file, and the
duplicate of its output if it is a builtin.

- `GroupTrace.spare`: whenever launching a group starts a command, only what the command needs is in hand, and the
  writing ends of all pipes in front of it have been closed.
- `GroupRun.frugal`: so it is in a whole group, and when its session is drained only the shell's own ends of the session
  are in hand.
- `execute_frugal`: so it is in every group of a line, and nothing is in hand behind the line: whatever was made,
  opened or duplicated has been closed.
-/
import LineShell.Proofs.Hand
import LineShell.Proofs.Payload

namespace LineShell

/-! ## what a command needs -/

namespace Event

/-- the pipe that an event makes -/
def made? : Event → Option Pipe
  | piped (.ok p) => some p
  | _ => none

/-- the file that an event opens for a redirection -/
def file? : Event → Option Descriptor
  | redirected _ _ (.ok d) => some d
  | _ => none

/-- what is duplicated for a command that starts with this event and has that output: a builtin has its output for
itself -/
def duplicates (x : Event) (output : Option Descriptor) : Option Descriptor :=
  match x with
  | ranBuiltin _ _ => output
  | _ => none

end Event

/-- where an event of an appended log stands -/
theorem split_append {α : Type} {xs ys past later : List α} {x : α} (h : xs ++ ys = past ++ x :: later) :
    (∃ rest, xs = past ++ x :: rest) ∨ ∃ between, past = xs ++ between ∧ ys = between ++ x :: later := by
  rcases List.append_eq_append_iff.1 h with ⟨between, hpast, hys⟩ | ⟨rest, hxs, hlater⟩
  · exact .inr ⟨between, hpast, hys⟩
  · cases rest with
    | nil => exact .inr ⟨[], by simpa using hxs.symm, by simpa using hlater.symm⟩
    | cons y rest =>
      obtain ⟨rfl, -⟩ := List.cons.inj hlater
      exact .inl ⟨rest, hxs⟩

theorem mem_of_split {α : Type} {xs past later : List α} {x : α} (h : xs = past ++ x :: later) : x ∈ xs := by
  rw [h]
  exact List.mem_append_cons_self

/-- the pipes of a session, if there is one -/
def Session.pipesOf (session : Option Session) : List Pipe := session.toList.flatMap Session.pipes

/-- how many commands have been started, which is the place of the next one -/
def place (past : List Event) : Nat := past.countP Event.starts

/-- the file that was opened last thing, duplicating apart -/
def lastFile (past : List Event) : Option Descriptor := (past.filter (·.copied?.isNone)).getLast?.bind Event.file?

/-- the descriptor that was duplicated last thing -/
def lastCopy (past : List Event) : Option Descriptor := past.getLast?.bind Event.copied?

/-- what the command of a stage writes to, by the file of the stage and by what the stage is given to write to -/
def Stage.outputOf (s : Stage) (file output : Option Descriptor) : Option Descriptor :=
  if s.redirection.map Prod.fst = some .output then file else output

/-- the end that stage `i` reads: the inlet, or the pipe in front of it -/
def readerAt (inlet : Option Descriptor) (pipes : List Pipe) : Nat → Option Descriptor
  | 0 => inlet
  | i + 1 => pipes[i]?.map (·.reader)

/-- the ends that stage `i` needs: the one that it reads, and both of the pipe behind it -/
def neededAt (inlet : Option Descriptor) (pipes : List Pipe) (i : Nat) : List Descriptor :=
  (readerAt inlet pipes i).toList ++ pipes[i]?.toList.flatMap Pipe.ends

/-- The descriptors in hand when a command of a group is started by the event `x` behind the events `past`, in which
the pipes of the session and then `pipes` were made: those of the session, the ends that the stage needs, its own
file, which has just been opened, and, if it is a builtin, the duplicate of its output. That is the file of the stage,
the pipe behind it, or the `output` of the group. Of all pipes in front of the stage the writing end has been
closed. -/
structure Spare (session : Option Session) (inlet output : Option Descriptor) (stages : List Stage) (pipes : List Pipe)
    (past : List Event) (x : Event) : Prop where
  made : past.filterMap Event.made? = Session.pipesOf session ++ pipes
  count : pipes.length = if place past + 1 < stages.length then place past + 1 else place past
  stage : ∃ s, stages[place past]? = some s ∧ (lastFile past).isSome = s.redirection.isSome ∧
    lastCopy past = x.duplicates (s.outputOf (lastFile past) (pipes[place past]?.map (·.writer) <|> output))
  held : inHand inlet.toList past = some (((Session.pipesOf session).flatMap Pipe.ends ++
    neededAt inlet pipes (place past) ++ (lastFile past).toList ++ (lastCopy past).toList : List Descriptor) :
      Multiset Descriptor)
  closed : ∀ p ∈ pipes.take (place past), .closed p.writer ∈ past

theorem Event.of_duplicates {x : Event} {output : Option Descriptor} {d : Descriptor}
    (h : x.duplicates output = some d) : output = some d := by
  cases x with
  | ranBuiltin b args => exact h
  | _ => cases h

theorem Stage.of_outputOf {s : Stage} {file output : Option Descriptor} {d : Descriptor}
    (h : s.outputOf file output = some d) : file = some d ∨ output = some d := by
  unfold outputOf at h
  split at h
  · exact .inl h
  · exact .inr h

/-- what the last event of a log shows, if those in front show nothing of the kind last thing -/
theorem last_append {α : Type} (f : Event → Option α) {front : List Event} (h : front.getLast?.bind f = none)
    (past : List Event) : (front ++ past).getLast?.bind f = past.getLast?.bind f := by
  rw [List.getLast?_append]
  cases past.getLast? with
  | some x => rfl
  | none => exact h

theorem lastFile_snoc (front : List Event) {x : Event} (h : x.copied? = none) : lastFile (front ++ [x]) = x.file? := by
  unfold lastFile
  rw [List.filter_append, List.filter_cons_of_pos (by simp [h]), List.getLast?_append]
  rfl

theorem lastCopy_snoc (front : List Event) (x : Event) : lastCopy (front ++ [x]) = x.copied? := by
  unfold lastCopy
  rw [List.getLast?_append]
  rfl

theorem lastFile_append {front : List Event} (h : lastFile front = none) (past : List Event) :
    lastFile (front ++ past) = lastFile past := by
  unfold lastFile
  rw [List.filter_append]
  exact last_append Event.file? h _

theorem lastCopy_append {front : List Event} (h : lastCopy front = none) (past : List Event) :
    lastCopy (front ++ past) = lastCopy past :=
  last_append Event.copied? h past

theorem place_append (front past : List Event) : place (front ++ past) = place front + place past :=
  List.countP_append

theorem place_eq_zero {past : List Event} (h : ∀ x ∈ past, x.starts = false) : place past = 0 :=
  List.countP_eq_zero.2 fun x hx => by simp [h x hx]

theorem made?_closed (ds : List Descriptor) : (ds.map Event.closed).filterMap Event.made? = [] := by
  rw [List.filterMap_map]
  exact List.filterMap_eq_nil_iff.2 fun _ _ => rfl

theorem made?_made (ps : List Pipe) : (ps.map Event.made).filterMap Event.made? = ps := by
  rw [List.filterMap_map]
  exact List.filterMap_some

/-- behind a pipe a stage needs what it needs among the stages behind the pipe -/
theorem neededAt_succ (inlet : Option Descriptor) (pipe : Pipe) (pipes : List Pipe) (i : Nat) :
    neededAt inlet (pipe :: pipes) (i + 1) = neededAt (some pipe.reader) pipes i := by
  cases i <;> rfl

/-! ### the pipes in front of a command -/

/-- what events make are the ends of pipes and files -/
theorem makes_perm (evs : List Event) :
    (evs.flatMap Event.makes).Perm ((evs.filterMap Event.made?).flatMap Pipe.ends ++ evs.filterMap Event.file?) := by
  induction evs with
  | nil => rfl
  | cons x evs ih =>
    have hfirst : x.makes = x.made?.toList.flatMap Pipe.ends ++ x.file?.toList := by
      cases x with
      | piped r => cases r <;> simp [Event.makes, Event.made?, Event.file?]
      | redirected dir path r => cases r <;> simp [Event.makes, Event.made?, Event.file?]
      | _ => rfl
    have hmore : ∀ {β : Type} (f : Event → Option β), (x :: evs).filterMap f = (f x).toList ++ evs.filterMap f := by
      intro β f
      cases hx : f x <;> simp [hx]
    rw [List.flatMap_cons, hfirst, hmore, hmore, List.flatMap_append, List.append_assoc, List.append_assoc]
    refine List.Perm.append_left _ ((ih.append_left _).trans ?_)
    exact List.perm_append_comm_assoc _ _ _

/-- the pipes in front of a stage are not those of the session, nor those behind it -/
theorem ends_perm (front behind : List Pipe) : ((front ++ behind).flatMap Pipe.ends).Perm
    (front.map (·.writer) ++ (front.map (·.reader) ++ behind.flatMap Pipe.ends)) := by
  have hends : (front.flatMap Pipe.ends).Perm (front.map (·.reader) ++ front.map (·.writer)) := by
    rw [List.map_eq_flatMap (f := Pipe.writer)]
    exact (List.map_append_flatMap_perm front (·.reader) fun p => [p.writer]).symm
  rw [List.flatMap_append, ← List.append_assoc]
  exact (hends.trans List.perm_append_comm).append_right _

theorem lastFile_mem {past : List Event} {d : Descriptor} (h : d ∈ (lastFile past).toList) :
    d ∈ past.filterMap Event.file? := by
  obtain ⟨x, hlast, hx⟩ := Option.bind_eq_some_iff.1 (Option.mem_toList.1 h)
  exact List.mem_filterMap.2 ⟨x, (List.mem_filter.1 (List.mem_of_getLast? hlast)).1, hx⟩

/-- what may be in hand when stage `i` starts its command: the output of the group, the ends of the session, the
reading ends of the pipes in front of the stage, both ends of those behind it, and files -/
def mayHold (session : Option Session) (output : Option Descriptor) (pipes : List Pipe) (past : List Event) (i : Nat) :
    List Descriptor :=
  output.toList ++ ((Session.pipesOf session).flatMap Pipe.ends ++
    ((pipes.take i).map (·.reader) ++ ((pipes.drop i).flatMap Pipe.ends ++ past.filterMap Event.file?)))

section

variable {session : Option Session} {output : Option Descriptor} {pipes : List Pipe} {past : List Event} {i : Nat}
  {d : Descriptor}

/-- if no descriptor was made twice, no writing end of a pipe in front of the stage is among that -/
theorem writers_disjoint_mayHold (hmade : past.filterMap Event.made? = Session.pipesOf session ++ pipes)
    (honce : (output.toList ++ past.flatMap Event.makes).Nodup) (i : Nat) :
    List.Disjoint ((pipes.take i).map (·.writer)) (mayHold session output pipes past i) := by
  refine List.disjoint_of_nodup_append ((List.Perm.nodup_iff ?_).1 honce)
  have hpipes : (pipes.flatMap Pipe.ends).Perm
      ((pipes.take i).map (·.writer) ++ ((pipes.take i).map (·.reader) ++ (pipes.drop i).flatMap Pipe.ends)) := by
    have hparts := ends_perm (pipes.take i) (pipes.drop i)
    rwa [List.take_append_drop] at hparts
  have hmakes := makes_perm past
  rw [hmade, List.flatMap_append] at hmakes
  rw [← Multiset.coe_eq_coe] at hmakes hpipes ⊢
  simp only [mayHold, ← Multiset.coe_add] at hmakes hpipes ⊢
  rw [hmakes, hpipes]
  ac_rfl

theorem end_mem_mayHold {q : Pipe} (hq : pipes[i]? = some q) (hend : d ∈ q.ends) :
    d ∈ mayHold session output pipes past i := by
  have hbehind : q ∈ pipes.drop i := by
    refine List.mem_of_getElem? (i := 0) ?_
    rw [List.getElem?_drop, Nat.add_zero, hq]
  simp only [mayHold, List.mem_append]
  exact .inr (.inr (.inr (.inl (List.mem_flatMap.2 ⟨q, hbehind, hend⟩))))

theorem file_mem_mayHold (h : lastFile past = some d) : d ∈ mayHold session output pipes past i := by
  simp only [mayHold, List.mem_append]
  exact .inr (.inr (.inr (.inr (lastFile_mem (Option.mem_toList.2 h)))))

theorem needed_mem_mayHold (h : d ∈ neededAt none pipes i) : d ∈ mayHold session output pipes past i := by
  rcases List.mem_append.1 h with hread | hends
  · cases i with
    | zero => cases hread
    | succ i =>
      obtain ⟨q, hq, hreader⟩ := Option.map_eq_some_iff.1 (Option.mem_toList.1 hread)
      have hfront : q ∈ pipes.take (i + 1) := by
        refine List.mem_of_getElem? (i := i) ?_
        rw [List.getElem?_take_of_lt (Nat.lt_succ_self i), hq]
      simp only [mayHold, List.mem_append]
      exact .inr (.inr (.inl (List.mem_map.2 ⟨q, hfront, hreader⟩)))
  · obtain ⟨q, hq, hend⟩ := List.mem_flatMap.1 hends
    exact end_mem_mayHold (Option.mem_toList.1 hq) hend

theorem output_mem_mayHold {s : Stage}
    (h : s.outputOf (lastFile past) (pipes[i]?.map (·.writer) <|> output) = some d) :
    d ∈ mayHold session output pipes past i := by
  rcases Stage.of_outputOf h with hfile | hgiven
  · exact file_mem_mayHold hfile
  · rcases (Option.orElse_eq_some _ _ _).1 hgiven with hwriter | ⟨-, hgroup⟩
    · obtain ⟨q, hq, rfl⟩ := Option.map_eq_some_iff.1 hwriter
      exact end_mem_mayHold hq (List.mem_cons_of_mem _ List.mem_cons_self)
    · exact List.mem_append_left _ (Option.mem_toList.2 hgroup)

/-- of what is in hand when a command is started, nothing is the writing end of a pipe in front of it, if no
descriptor was made twice -/
theorem Spare.writer_not_held {stages : List Stage} {x : Event} (h : Spare session none output stages pipes past x)
    (honce : (output.toList ++ past.flatMap Event.makes).Nodup) {held : Multiset Descriptor}
    (hheld : inHand 0 past = some held) {p : Pipe} (hp : p ∈ pipes.take (place past)) : p.writer ∉ held := by
  obtain ⟨hmade, -, ⟨s, -, -, hcopy⟩, hspare, -⟩ := h
  obtain rfl := Option.some.inj (hheld.symm.trans hspare)
  intro hmem
  refine writers_disjoint_mayHold hmade honce (place past) (List.mem_map_of_mem hp) ?_
  have hthere : p.writer ∈ (Session.pipesOf session).flatMap Pipe.ends ++ neededAt none pipes (place past) ++
      (lastFile past).toList ++ (lastCopy past).toList := hmem
  simp only [List.mem_append, Option.mem_toList] at hthere
  obtain ((hsession | hneeded) | hfile) | hduplicate := hthere
  · exact List.mem_append_right _ (List.mem_append_left _ hsession)
  · exact needed_mem_mayHold hneeded
  · exact file_mem_mayHold hfile
  · exact output_mem_mayHold (Event.of_duplicates (hcopy.symm.trans hduplicate))

end

namespace Evaluation

open Engine

variable {σ : Type} {ev : Evaluation σ} {session : Option Session} {ctx : Context} {o : Except Failure StageOutcome}
  {ps : List Pid} {took : Bool} {evs : List Event}

/-! ### one command -/

theorem copying_starts_nothing (copy : Option Descriptor) : ∀ x ∈ Event.copying copy, x.starts = false := by
  intro x hx
  obtain ⟨d, -, rfl⟩ := List.mem_map.1 hx
  rfl

theorem made?_copying (copy : Option Descriptor) : (Event.copying copy).filterMap Event.made? = [] := by
  cases copy <;> rfl

theorem inHand_copying (held : Multiset Descriptor) (copy : Option Descriptor) :
    inHand held (Event.copying copy) = some (held + copy.toList) := by
  cases copy with
  | none => exact congrArg some (Multiset.add_zero held).symm
  | some d => rfl

theorem lastFile_copying (front : List Event) (copy : Option Descriptor) :
    lastFile (front ++ Event.copying copy) = lastFile front := by
  cases copy with
  | none => rw [Event.copying, Option.toList_none, List.map_nil, List.append_nil]
  | some d =>
    unfold lastFile
    rw [List.filter_append]
    exact congrArg (fun evs => evs.getLast?.bind Event.file?) (List.append_nil _)

theorem lastCopy_copying {front : List Event} (h : lastCopy front = none) (copy : Option Descriptor) :
    lastCopy (front ++ Event.copying copy) = copy := by
  rw [lastCopy_append h]
  cases copy <;> rfl

/-- a command starts behind the duplicating of its output, if it is a builtin, and else with its first event -/
theorem CommandTrace.start {words : List Span} (h : ev.CommandTrace session ctx words o ps took evs)
    {past later : List Event} {x : Event} (hsplit : evs = past ++ x :: later) (hx : x.starts = true) :
    past = Event.copying (x.duplicates ctx.output) := by
  have hfirst : ∀ {y : Event} {ys : List Event}, y :: ys = past ++ x :: later → (∀ z ∈ ys, z.starts = false) →
      past = [] ∧ x = y := by
    intro y ys heq hothers
    cases past with
    | nil => exact ⟨rfl, (List.cons.inj heq).1.symm⟩
    | cons z past =>
      rw [hothers x (mem_of_split (List.cons.inj heq).2)] at hx
      cases hx
  cases h with
  | @builtin program args b r _ _ =>
    rcases split_append hsplit with ⟨rest, hcopying⟩ | ⟨between, hpast, hrun⟩
    · rw [copying_starts_nothing _ x (mem_of_split hcopying)] at hx
      cases hx
    · cases between with
      | nil =>
        obtain ⟨rfl, -⟩ := List.cons.inj hrun
        rw [hpast, List.append_nil]
        rfl
      | cons y between =>
        rw [Event.closed_starts_nothing _ x (mem_of_split (List.cons.inj hrun).2)] at hx
        cases hx
  | unduplicated d f _ _ _ =>
    obtain rfl := List.mem_singleton.1 (mem_of_split hsplit)
    cases hx
  | letGo pid _ _ _ =>
    obtain ⟨rfl, rfl⟩ := hfirst hsplit (List.forall_mem_singleton.2 rfl)
    rfl
  | _ =>
    obtain ⟨rfl, rfl⟩ := hfirst hsplit (List.forall_mem_nil _)
    rfl

/-- running a command leaves nothing in hand, makes no pipe, and starts one command if it goes well -/
theorem CommandTrace.hand {words : List Span} (h : ev.CommandTrace session ctx words o ps took evs) :
    (∀ held, inHand held evs = some held) ∧ evs.filterMap Event.made? = [] ∧ ((∃ so, o = .ok so) → place evs = 1) := by
  cases h with
  | @builtin program args b r _ _ =>
    have hcopies := copying_starts_nothing ctx.output
    refine ⟨fun held => ?_, ?_, fun _ => ?_⟩
    · have hrun : handle (held + (ctx.output.toList : Multiset Descriptor)) (.ranBuiltin b args) =
          some (ctx.output.toList + held) :=
        congrArg some ((Multiset.add_zero _).trans (add_comm _ _))
      rw [Event.performed, inHand_append, inHand_copying, Option.bind_some, inHand_cons, hrun, Option.bind_some]
      exact inHand_closed _ held
    · rw [Event.performed, List.filterMap_append, made?_copying, List.filterMap_cons_none rfl, made?_closed]
      rfl
    · rw [Event.performed, place_append, place_eq_zero hcopies, ← List.singleton_append, place_append,
        place_eq_zero (Event.closed_starts_nothing _)]
      rfl
  | unduplicated d f _ _ _ =>
    refine ⟨inHand_idle (List.forall_mem_singleton.2 ⟨rfl, rfl⟩), rfl, ?_⟩
    rintro ⟨so, hso⟩
    cases hso
  | letGo pid _ _ _ =>
    exact ⟨inHand_idle (List.forall_mem_cons.2 ⟨⟨rfl, rfl⟩, List.forall_mem_singleton.2 ⟨rfl, rfl⟩⟩), rfl, fun _ => rfl⟩
  | _ => exact ⟨inHand_idle (List.forall_mem_singleton.2 ⟨rfl, rfl⟩), rfl, fun _ => rfl⟩

/-! ### one stage -/

/-- launching a stage leaves nothing in hand, makes no pipe, and starts one command if it goes well -/
theorem StageTrace.hand {s : Stage} (h : ev.StageTrace session ctx s o ps took evs) :
    (∀ held, inHand held evs = some held) ∧ evs.filterMap Event.made? = [] ∧ ((∃ so, o = .ok so) → place evs = 1) := by
  cases h with
  | plain _ hc => exact hc.hand
  | unopened f _ =>
    refine ⟨inHand_idle (List.forall_mem_singleton.2 ⟨rfl, rfl⟩), rfl, ?_⟩
    rintro ⟨so, hso⟩
    cases hso
  | @redirected dir target d _ _ _ evs _ hc =>
    obtain ⟨hhand, hmade, hplace⟩ := hc.hand
    refine ⟨fun held => ?_, ?_, fun hok => ?_⟩
    · have hopen : handle held (.redirected dir (target.text ev.line) (.ok d)) =
          some (([d] : List Descriptor) + held) := by
        rw [handle_of_closed?_eq_none rfl, add_comm]
        rfl
      rw [inHand_cons, hopen, Option.bind_some, inHand_append, hhand]
      exact inHand_closed [d] held
    · rw [List.filterMap_cons_none rfl, List.filterMap_append, hmade]
      rfl
    · rw [← List.singleton_append, place_append, place_append, hplace hok]
      rfl

/-- what has happened in a stage when its command is started by the event `x`: only the file of its redirection has been
opened, and its output duplicated for a builtin -/
structure Started (s : Stage) (output : Option Descriptor) (past : List Event) (x : Event) : Prop where
  nothing : ∀ y ∈ past, y.starts = false
  made : past.filterMap Event.made? = []
  file : (lastFile past).isSome = s.redirection.isSome
  copy : lastCopy past = x.duplicates (s.outputOf (lastFile past) output)
  held : inHand 0 past =
    some (((lastFile past).toList ++ (lastCopy past).toList : List Descriptor) : Multiset Descriptor)

/-- behind the opening of its file a stage starts its command once the output of the command has been duplicated -/
theorem started_copying {s : Stage} {front : List Event} {output : Option Descriptor} (x : Event)
    (hnothing : ∀ y ∈ front, y.starts = false) (hmade : front.filterMap Event.made? = [])
    (hfile : (lastFile front).isSome = s.redirection.isSome) (hcopy : lastCopy front = none)
    (hheld : inHand 0 front = some ((lastFile front).toList : Multiset Descriptor)) {own : Option Descriptor}
    (hown : own = s.outputOf (lastFile front) output) :
    Started s output (front ++ Event.copying (x.duplicates own)) x where
  nothing := List.forall_mem_append.2 ⟨hnothing, copying_starts_nothing _⟩
  made := by rw [List.filterMap_append, hmade, made?_copying, List.append_nil]
  file := by rw [lastFile_copying, hfile]
  copy := by rw [lastCopy_copying hcopy, lastFile_copying, hown]
  held := by
    rw [lastCopy_copying hcopy, lastFile_copying, inHand_append, hheld, Option.bind_some, inHand_copying,
      Multiset.coe_add]

theorem StageTrace.start {s : Stage} (h : ev.StageTrace session ctx s o ps took evs) {past later : List Event}
    {x : Event} (hsplit : evs = past ++ x :: later) (hx : x.starts = true) : Started s ctx.output past x := by
  cases h with
  | plain hnone hc =>
    obtain rfl := hc.start hsplit hx
    have hown : ctx.output = s.outputOf (lastFile []) ctx.output := by
      rw [Stage.outputOf, hnone]
      rfl
    exact started_copying x (List.forall_mem_nil _) rfl (by rw [hnone]; rfl) rfl rfl hown
  | @unopened dir target f _ =>
    -- the only event of such a stage starts nothing
    obtain rfl := List.mem_singleton.1 (mem_of_split hsplit)
    cases hx
  | @redirected dir target d _ _ _ evs hsome hc =>
    cases past with
    | nil =>
      obtain ⟨rfl, -⟩ := List.cons.inj hsplit
      cases hx
    | cons y past =>
      obtain ⟨rfl, htail⟩ := List.cons.inj hsplit
      rcases split_append htail with ⟨rest, hevs⟩ | ⟨between, -, hclosed⟩
      · obtain rfl := hc.start hevs hx
        have hown : (ctx.redirected dir d).output =
            s.outputOf (lastFile [.redirected dir (target.text ev.line) (.ok d)]) ctx.output := by
          rw [Stage.outputOf, hsome]
          cases dir <;> rfl
        exact started_copying x (List.forall_mem_singleton.2 rfl) rfl (by rw [hsome]; rfl) rfl rfl hown
      · rw [Event.closed_starts_nothing [d] x (mem_of_split hclosed)] at hx
        cases hx

/-! ### the stages of a group -/

variable {inlet output : Option Descriptor} {stages : List Stage}

/-- what is in hand when the only stage of a group is started -/
theorem StageTrace.spare_last {s : Stage} (h : ev.StageTrace session ctx s o ps took evs) {past later : List Event}
    {x : Event} (hsplit : evs = past ++ x :: later) (hx : x.starts = true) :
    Spare none inlet ctx.output [s] [] past x := by
  obtain ⟨hno, hmade, hfile, hcopy, hheld⟩ := h.start hsplit hx
  have hplace : place past = 0 := place_eq_zero hno
  have hadd := inHand_add hheld (inlet.toList : Multiset Descriptor)
  refine ⟨hmade, by simp [hplace], ⟨s, by simp [hplace], hfile, by simpa using hcopy⟩, ?_, by simp⟩
  have hneeded : neededAt inlet [] 0 = inlet.toList := by simp [neededAt, readerAt]
  rw [Multiset.zero_add] at hadd
  rw [hadd, hplace, hneeded, Multiset.coe_add, List.append_assoc _ (lastFile past).toList]
  exact congrArg some (Multiset.coe_eq_coe.2 List.perm_append_comm)

/-- what is in hand when the first of several stages is started, behind the making of its pipe -/
theorem StageTrace.spare_first {s : Stage} (h : ev.StageTrace session ctx s o ps took evs) {past later : List Event}
    {x : Event} (hsplit : evs = past ++ x :: later) (hx : x.starts = true) {rest : List Stage} (hne : rest ≠ [])
    {pipe : Pipe} (hout : ctx.output = some pipe.writer) :
    Spare none inlet output (s :: rest) [pipe] (.made pipe :: past) x := by
  obtain ⟨hno, hmade, hfile, hcopy, hheld⟩ := h.start hsplit hx
  have hplace : place (.made pipe :: past) = 0 := place_eq_zero (List.forall_mem_cons.2 ⟨rfl, hno⟩)
  have hfront : lastFile [.made pipe] = none ∧ lastCopy [.made pipe] = none := ⟨rfl, rfl⟩
  have hlast : lastFile (.made pipe :: past) = lastFile past := lastFile_append hfront.1 past
  have hlast' : lastCopy (.made pipe :: past) = lastCopy past := lastCopy_append hfront.2 past
  have hcount : 0 < rest.length := List.length_pos_iff.2 hne
  have hadd := inHand_add hheld (inlet.toList + pipe.ends : Multiset Descriptor)
  refine ⟨?_, by simp [hplace, hcount], ⟨s, by simp [hplace], by rw [hlast, hfile], ?_⟩, ?_, by simp [hplace]⟩
  · rw [List.filterMap_cons_some (by rfl), hmade]
    rfl
  · rw [hlast, hlast', hcopy, hplace, hout]
    rfl
  · have hpipe : handle inlet.toList (.made pipe) = some (inlet.toList + pipe.ends : Multiset Descriptor) := rfl
    have hneeded : neededAt inlet [pipe] 0 = inlet.toList ++ pipe.ends := by simp [neededAt, readerAt]
    rw [Multiset.zero_add] at hadd
    rw [inHand_cons, hpipe, Option.bind_some, hadd, hlast, hlast', hplace, hneeded, Multiset.coe_add, Multiset.coe_add,
      List.append_assoc _ (lastFile past).toList]
    exact congrArg some (Multiset.coe_eq_coe.2 List.perm_append_comm)

/-- what is in hand behind the first of several stages, which has been launched: the reading end of its pipe -/
theorem StageTrace.behind {s : Stage} (h : ev.StageTrace session ctx s o ps took evs) (inlet : Option Descriptor)
    (pipe : Pipe) :
    inHand inlet.toList (.made pipe :: (evs ++ (inlet.toList ++ [pipe.writer]).map .closed)) =
      some (([pipe.reader] : List Descriptor) : Multiset Descriptor) := by
  have hpipe : handle inlet.toList (.made pipe) =
      some (((inlet.toList ++ [pipe.writer] : List Descriptor) : Multiset Descriptor) +
        ([pipe.reader] : List Descriptor)) := by
    have hperm : (inlet.toList ++ [pipe.reader, pipe.writer]).Perm
        (inlet.toList ++ [pipe.writer] ++ [pipe.reader]) := by
      rw [List.append_assoc]
      exact (List.Perm.swap _ _ []).append_left _
    exact congrArg some (Multiset.coe_eq_coe.2 hperm)
  rw [inHand_cons, hpipe, Option.bind_some, inHand_append, h.hand.1, Option.bind_some]
  exact inHand_closed _ _

/-- what the events of the first of several stages show, if it has been launched: one command, its pipe, and the closing
of the writing end last -/
theorem StageTrace.shows {s : Stage} (h : ev.StageTrace session ctx s o ps took evs) (hok : ∃ so, o = .ok so)
    (inlet : Option Descriptor) (pipe : Pipe) {front : List Event}
    (hfront : front = .made pipe :: (evs ++ (inlet.toList ++ [pipe.writer]).map .closed)) :
    place front = 1 ∧ front.filterMap Event.made? = [pipe] ∧ lastFile front = none ∧ lastCopy front = none ∧
      .closed pipe.writer ∈ front := by
  obtain ⟨-, hmade, hplace⟩ := h.hand
  have hshut : front = (.made pipe :: (evs ++ inlet.toList.map .closed)) ++ [.closed pipe.writer] := by
    rw [hfront, List.map_append, ← List.append_assoc, List.cons_append]
    rfl
  refine ⟨?_, ?_, ?_, ?_, ?_⟩
  · have hcloses : place ((inlet.toList ++ [pipe.writer]).map .closed) = 0 :=
      place_eq_zero (Event.closed_starts_nothing _)
    rw [hfront, ← List.singleton_append, place_append, place_append, hplace hok, hcloses]
    rfl
  · rw [hfront, List.filterMap_cons_some (by rfl), List.filterMap_append, hmade, made?_closed]
    rfl
  · rw [hshut, lastFile_snoc _ rfl]
    rfl
  · rw [hshut, lastCopy_snoc]
    rfl
  · rw [hshut]
    exact List.mem_append_right _ List.mem_cons_self

/-- behind the first stage, what is in hand is what is in hand among the stages that read its pipe -/
theorem StageTrace.spare_behind {s : Stage} (h : ev.StageTrace session ctx s o ps took evs) (hok : ∃ so, o = .ok so)
    (pipe : Pipe) {rest : List Stage} {pipes : List Pipe} {past : List Event} {x : Event}
    (hrest : Spare none (some pipe.reader) output rest pipes past x) :
    Spare none inlet output (s :: rest) (pipe :: pipes)
      (.made pipe :: (evs ++ (inlet.toList ++ [pipe.writer]).map .closed) ++ past) x := by
  have hbehind := h.behind inlet pipe
  generalize hfront : Event.made pipe :: (evs ++ (inlet.toList ++ [pipe.writer]).map .closed) = front at hbehind ⊢
  obtain ⟨hone, hpipe, hfile, hcopy, hshut⟩ := h.shows hok inlet pipe hfront.symm
  have hplace : place (front ++ past) = place past + 1 := by rw [place_append, hone, Nat.add_comm]
  have hlast : lastFile (front ++ past) = lastFile past := lastFile_append hfile past
  have hlast' : lastCopy (front ++ past) = lastCopy past := lastCopy_append hcopy past
  obtain ⟨hmade, hcount, hstage, hheld, hclosed⟩ := hrest
  refine ⟨?_, ?_, ?_, ?_, ?_⟩
  · rw [List.filterMap_append, hpipe, hmade]
    rfl
  · rw [hplace, List.length_cons, List.length_cons, hcount]
    simp only [Nat.add_lt_add_iff_right]
    split
    · rfl
    · rfl
  · rw [hplace, hlast, hlast']
    exact hstage
  · rw [inHand_append, hbehind, Option.bind_some, hplace, hlast, hlast', neededAt_succ]
    exact hheld
  · rw [hplace, List.take_succ_cons]
    exact List.forall_mem_cons.2
      ⟨List.mem_append_left past hshut, fun p hp => List.mem_append_right front (hclosed p hp)⟩

/-- whenever launching a group starts a command, only what the command needs is in hand -/
theorem GroupTrace.spare (h : ev.GroupTrace session ctx inlet stages o ps took evs) {past later : List Event}
    {x : Event} (hsplit : evs = past ++ x :: later) (hx : x.starts = true) :
    ∃ pipes, Spare none inlet ctx.output stages pipes past x := by
  have hno : ∀ {ds : List Descriptor} {between rest : List Event}, ds.map Event.closed ≠ between ++ x :: rest := by
    intro ds between rest hds
    rw [Event.closed_starts_nothing ds x (mem_of_split hds)] at hx
    cases hx
  induction h generalizing past with
  | @last ctx inlet s o ps took evs hs =>
    rcases split_append hsplit with ⟨rest, hevs⟩ | ⟨between, -, hclosed⟩
    · exact ⟨[], hs.spare_last hevs hx⟩
    · exact absurd hclosed hno
  | @unpiped ctx inlet s rest f hne =>
    cases past with
    | nil =>
      obtain ⟨rfl, -⟩ := List.cons.inj hsplit
      cases hx
    | cons y past =>
      obtain ⟨-, htail⟩ := List.cons.inj hsplit
      exact absurd htail hno
  | @failed ctx inlet s rest pipe f ps took evs hne hs =>
    cases past with
    | nil =>
      obtain ⟨rfl, -⟩ := List.cons.inj hsplit
      cases hx
    | cons y past =>
      obtain ⟨rfl, htail⟩ := List.cons.inj hsplit
      rcases split_append htail with ⟨between, hevs⟩ | ⟨between, -, hclosed⟩
      · exact ⟨[pipe], hs.spare_first hevs hx hne rfl⟩
      · exact absurd hclosed hno
  | @piped ctx inlet s rest pipe so o ps qs took took' evs evs' hne hs _ ih =>
    have hparts : (.made pipe :: (evs ++ (inlet.toList ++ [pipe.writer]).map .closed)) ++ evs' =
        past ++ x :: later := hsplit
    rcases split_append hparts with ⟨between, hfront⟩ | ⟨between, rfl, hevs'⟩
    · cases past with
      | nil =>
        obtain ⟨rfl, -⟩ := List.cons.inj hfront
        cases hx
      | cons y past =>
        obtain ⟨rfl, htail⟩ := List.cons.inj hfront
        rcases split_append htail with ⟨between, hevs⟩ | ⟨between, -, hclosed⟩
        · exact ⟨[pipe], hs.spare_first hevs hx hne rfl⟩
        · exact absurd hclosed hno
    · obtain ⟨pipes, hspare⟩ := ih hevs'
      exact ⟨pipe :: pipes, hs.spare_behind ⟨so, rfl⟩ pipe hspare⟩

/-- launching a group leaves nothing in hand -/
theorem GroupTrace.hand (h : ev.GroupTrace session ctx inlet stages o ps took evs) :
    inHand inlet.toList evs = some 0 := by
  induction h with
  | @last ctx inlet s o ps took evs hs => rw [inHand_append, hs.hand.1, Option.bind_some, inHand_all_closed]
  | unpiped f _ => rw [inHand_cons, handle_unpiped, Option.bind_some, inHand_all_closed]
  | @failed ctx inlet s rest pipe f ps took evs hne hs =>
    have hpipe : handle inlet.toList (.made pipe) =
        some ((pipe.ends ++ inlet.toList : List Descriptor) : Multiset Descriptor) :=
      congrArg some (Multiset.coe_eq_coe.2 List.perm_append_comm)
    rw [inHand_cons, hpipe, Option.bind_some, inHand_append, hs.hand.1, Option.bind_some, inHand_all_closed]
  | @piped ctx inlet s rest pipe so o ps qs took took' evs evs' hne hs _ ih =>
    have hfront := hs.behind inlet pipe
    rw [show Event.made pipe :: (evs ++ (inlet.toList ++ [pipe.writer]).map .closed ++ evs') =
      (.made pipe :: (evs ++ (inlet.toList ++ [pipe.writer]).map .closed)) ++ evs' from rfl, inHand_append, hfront]
    exact ih

/-! ### a whole group -/

/-- opening a session brings its pipes -/
theorem Opening.hand {background delivered : Bool} {capture : Option (Option Bytes)} {opening : List Event}
    (h : Opening background capture delivered (.ok session) opening) :
    inHand 0 opening = some ((Session.pipesOf session).flatMap Pipe.ends : Multiset Descriptor) ∧
      opening.filterMap Event.made? = Session.pipesOf session ∧ lastFile opening = none ∧ lastCopy opening = none := by
  cases h with
  | uncaptured _ => exact ⟨rfl, rfl, rfl, rfl⟩
  | @opened _ s _ _ _ _ =>
    have hpipes : Session.pipesOf (some s) = s.pipes := by simp [Session.pipesOf]
    refine ⟨?_, ?_, ?_, ?_⟩
    · rw [inHand_append, inHand_made, Option.bind_some, hpipes, Multiset.zero_add]
      exact inHand_idle (List.forall_mem_singleton.2 ⟨rfl, rfl⟩) _
    · rw [List.filterMap_append, made?_made, hpipes]
      exact List.append_nil _
    · exact lastFile_snoc _ rfl
    · exact lastCopy_snoc _ _

/-- a session that cannot be opened leaves nothing in hand -/
theorem inHand_unopened (made : List Pipe) (f : Failure) : inHand 0 (Event.unopened made f) = some 0 := by
  have hperm : (made.flatMap Pipe.ends).Perm (made.reverse.flatMap Pipe.ends) :=
    (List.reverse_perm made).symm.flatMap_right _
  rw [Event.unopened, inHand_append, inHand_made, Option.bind_some, inHand_cons, handle_unpiped, Option.bind_some,
    Multiset.zero_add, Multiset.coe_eq_coe.2 hperm, inHand_all_closed]

/-- the ends of a session are those of its children, the one that is not needed, and those that the shell works with -/
theorem coe_ends (s : Session) : ((Session.pipesOf (some s)).flatMap Pipe.ends : Multiset Descriptor) =
    (s.childEnds ++ s.idleEnds : List Descriptor) + (s.parentEnds.toList : Multiset Descriptor) := by
  have hpipes : Session.pipesOf (some s) = s.pipes := by simp [Session.pipesOf]
  rw [hpipes, Multiset.coe_add, Multiset.coe_eq_coe, List.perm_iff_count]
  intro d
  obtain ⟨out, err, stdin, feeds⟩ := s
  cases stdin <;> cases feeds
  all_goals
    simp [Session.pipes, Session.childEnds, Session.idleEnds, Session.parentEnds, ParentEnds.toList, Pipe.ends,
      List.count_cons]
    omega

/-- behind the opening of the session its ends are in hand, too -/
theorem Opening.spare {background delivered : Bool} {capture : Option (Option Bytes)} {opening : List Event}
    (h : Opening background capture delivered (.ok session) opening) {pipes : List Pipe} {past : List Event} {x : Event}
    (hspare : Spare none none output stages pipes past x) :
    Spare session none output stages pipes (opening ++ past) x := by
  obtain ⟨hheld, hmade, hfile, hcopy⟩ := h.hand
  obtain ⟨hmade', hcount, hstage, hheld', hclosed⟩ := hspare
  have hplace : place (opening ++ past) = place past := by
    rw [place_append, place_eq_zero h.starts_nothing, Nat.zero_add]
  have hlast : lastFile (opening ++ past) = lastFile past := lastFile_append hfile past
  have hlast' : lastCopy (opening ++ past) = lastCopy past := lastCopy_append hcopy past
  refine ⟨?_, by rw [hplace, hcount], by rw [hplace, hlast, hlast']; exact hstage, ?_, fun p hp => ?_⟩
  · rw [List.filterMap_append, hmade, hmade']
    rfl
  · have hheld' : inHand 0 past = some ((neededAt none pipes (place past) ++ (lastFile past).toList ++
        (lastCopy past).toList : List Descriptor) : Multiset Descriptor) := hheld'
    have hadd := inHand_add hheld' ((Session.pipesOf session).flatMap Pipe.ends : Multiset Descriptor)
    rw [Multiset.zero_add] at hadd
    rw [Option.toList_none, Multiset.coe_nil, inHand_append, hheld, Option.bind_some, hadd, hplace, hlast, hlast',
      Multiset.coe_add]
    refine congrArg some (Multiset.coe_eq_coe.2 ?_)
    simp only [List.append_assoc ((Session.pipesOf session).flatMap Pipe.ends)]
    exact List.perm_append_comm
  · rw [hplace] at hp
    exact List.mem_append_right opening (hclosed p hp)

/-- behind a launch the ends of the session are in hand, and nothing else -/
theorem Opening.hand_launched {background delivered : Bool} {capture : Option (Option Bytes)}
    {opening launching : List Event} (hopen : Opening background capture delivered (.ok session) opening)
    (htrace : ev.GroupTrace session ctx none stages o ps took launching) :
    inHand 0 (opening ++ launching) = some ((Session.pipesOf session).flatMap Pipe.ends : Multiset Descriptor) := by
  have hlaunch := inHand_add htrace.hand ((Session.pipesOf session).flatMap Pipe.ends : Multiset Descriptor)
  rw [Option.toList_none, Multiset.coe_nil, Multiset.zero_add] at hlaunch
  rw [inHand_append, hopen.hand.1, Option.bind_some, hlaunch]

/-- how a group with that output handles descriptors. Whenever a command is started, only what it needs is in hand, so
that no writing end of a pipe in front of it is, nor a duplicate of one, if no descriptor was made twice. When the
session is drained, its children's ends have been closed, and only the ends that the shell works with are in hand. -/
structure Frugal (session : Option Session) (output : Option Descriptor) (stages : List Stage) (evs : List Event) :
    Prop where
  opened : evs.filterMap Event.opened? = session.toList
  started : ∀ past x later, evs = past ++ x :: later → x.starts = true → ∃ pipes,
    Spare session none output stages pipes past x ∧ ((output.toList ++ past.flatMap Event.makes).Nodup →
      ∀ held, inHand 0 past = some held → ∀ p ∈ pipes.take (place past), p.writer ∉ held)
  drained : ∀ past s r later, evs = past ++ .drained s r :: later → session = some s ∧
    inHand 0 past = some (s.parentEnds.toList : Multiset Descriptor) ∧ ∀ d ∈ s.childEnds, .closed d ∈ past

/-- what the events behind a launch do: they start nothing, and drain the session once the ends that the shell does
not work with are closed -/
structure Drains (session : Option Session) (settling : List Event) : Prop where
  settles : ∀ x ∈ settling, Settles session x
  closed : ∀ past s r later, settling = past ++ .drained s r :: later →
    past = (s.childEnds ++ s.idleEnds).map .closed

theorem Opening.frugal {opening launching settling : List Event}
    {background delivered : Bool} {capture : Option (Option Bytes)}
    (hopen : Opening background capture delivered (.ok session) opening)
    (htrace : ev.GroupTrace session ctx none stages o ps took launching) (hsettling : Drains session settling) :
    Frugal session ctx.output stages (opening ++ launching ++ settling) where
  opened := by
    rw [List.filterMap_append, List.filterMap_append, hopen.opened?, (session_of_isLaunch htrace.isLaunch).1,
      opened?_of_settles hsettling.settles, List.append_nil, List.append_nil]
    rfl
  started past x later hsplit hx := by
    rw [List.append_assoc] at hsplit
    rcases split_append hsplit with ⟨rest, hopening⟩ | ⟨between, rfl, hbehind⟩
    · rw [hopen.starts_nothing x (mem_of_split hopening)] at hx
      cases hx
    · rcases split_append hbehind with ⟨rest, hlaunching⟩ | ⟨between', -, hsettled⟩
      · obtain ⟨pipes, hspare⟩ := htrace.spare hlaunching hx
        have hspare := hopen.spare hspare
        exact ⟨pipes, hspare, fun honce held hheld p hp => hspare.writer_not_held honce hheld hp⟩
      · rw [(hsettling.settles x (mem_of_split hsettled)).starts] at hx
        cases hx
  drained past s r later hsplit := by
    have hno : ∀ {front rest : List Event}, front.filterMap Event.drained? = [] →
        front ≠ past ++ .drained s r :: rest := by
      intro front rest hnone hfront
      exact absurd (List.filterMap_eq_nil_iff.1 hnone _ (mem_of_split hfront)) (by simp [Event.drained?])
    rcases split_append hsplit with ⟨rest, hfront⟩ | ⟨between, rfl, hsettled⟩
    · refine absurd hfront (hno ?_)
      rw [List.filterMap_append, hopen.drained?, (session_of_isLaunch htrace.isLaunch).2]
      rfl
    · obtain rfl := (hsettling.settles _ (mem_of_split hsettled)).drains s rfl
      obtain rfl := hsettling.closed between s r later hsettled
      refine ⟨rfl, ?_, fun d hd => ?_⟩
      · rw [inHand_append, hopen.hand_launched htrace, Option.bind_some, coe_ends]
        exact inHand_closed _ _
      · refine List.mem_append_right _ (List.mem_map.2 ⟨d, ?_, rfl⟩)
        exact List.mem_append_left _ hd

/-- events that drain no session -/
theorem Drains.of_settles {later : List Event} (h : ∀ x ∈ later, Settles none x) : Drains session later where
  settles x hx := by
    obtain ⟨hstarts, hopens, hdrains⟩ := h x hx
    exact ⟨hstarts, hopens, fun s hs => nomatch hdrains s hs⟩
  closed past s r rest hsplit := nomatch (h _ (mem_of_split hsplit)).drains s rfl

/-- settling a group drains its session first -/
theorem drains_draining (drained : Except Failure Unit) (session : Option Session) {later : List Event}
    (hlater : ∀ x ∈ later, Settles none x) : Drains session (draining drained session ++ later) := by
  cases session with
  | none => exact .of_settles hlater
  | some s =>
    refine ⟨fun x hx => ?_, fun past s' r rest hsplit => ?_⟩
    · rcases List.mem_append.1 hx with hx | hx
      · rcases List.mem_append.1 hx with hx | hx
        · exact settles_closed _ _ x hx
        · rcases List.mem_cons.1 hx with rfl | hx
          · exact ⟨rfl, rfl, fun s' hs' => by rw [Option.some.inj hs']⟩
          · exact settles_closed _ _ x hx
      · exact (Drains.of_settles hlater).settles x hx
    · have hno : ∀ {ds : List Descriptor} {past rest : List Event},
          ds.map Event.closed ≠ past ++ .drained s' r :: rest := by
        intro ds past rest heq
        obtain ⟨d, -, hd⟩ := List.mem_map.1 (mem_of_split heq)
        cases hd
      rcases split_append hsplit with ⟨rest', hdraining⟩ | ⟨between, -, heq⟩
      · rcases split_append hdraining with ⟨_, heq⟩ | ⟨between, rfl, heq⟩
        · exact absurd heq hno
        · cases between with
          | nil =>
            obtain ⟨heq, -⟩ := List.cons.inj heq
            obtain ⟨rfl, -⟩ := Event.drained.inj heq
            exact List.append_nil _
          | cons y between => exact absurd (List.cons.inj heq).2 hno
      · cases (hlater _ (mem_of_split heq)).drains s' rfl

/-- draining closes what is in hand of the session -/
theorem inHand_draining (drained : Except Failure Unit) (session : Option Session) :
    inHand ((Session.pipesOf session).flatMap Pipe.ends : Multiset Descriptor) (draining drained session) = some 0 := by
  cases session with
  | none => rfl
  | some s =>
    rw [draining, coe_ends, inHand_append, inHand_closed, Option.bind_some, inHand_cons, handle_of_closed?_eq_none rfl,
      Option.bind_some]
    have hbrings : (Event.drained s drained).brings = [] := rfl
    rw [hbrings, Multiset.coe_nil, Multiset.add_zero, inHand_all_closed]

/-- a group handles descriptors as it should, and leaves nothing in hand unless the host has ended in the middle of
it -/
theorem GroupRun.frugal {e : Engine σ} {r : Except Failure Int} (h : ev.GroupRun ctx e stages r took evs)
    (f : Option Failure) : (∃ session, Frugal session ctx.output stages (evs ++ f.toList.map .reported)) ∧
      ((ev.settings.exitTerminates = true → ∀ n, r ≠ .error (.exit n)) →
        inHand 0 (evs ++ f.toList.map .reported) = some 0) := by
  have hsettles : ∀ x ∈ f.toList.map Event.reported, Settles none x := by
    intro x hx
    obtain ⟨f, -, rfl⟩ := List.mem_map.1 hx
    exact .of_none rfl rfl rfl
  have hidle : ∀ held, inHand held (f.toList.map Event.reported) = some held := by
    intro held
    refine inHand_idle (fun x hx => ?_) held
    obtain ⟨f, -, rfl⟩ := List.mem_map.1 hx
    exact ⟨rfl, rfl⟩
  cases h with
  | unopened hopen =>
    refine ⟨⟨none, ?_, fun past x later hsplit hx => ?_, fun past s r later hsplit => ?_⟩, fun _ => ?_⟩
    · rw [List.filterMap_append, hopen.opened?, opened?_of_settles hsettles]
      rfl
    · rcases List.mem_append.1 (mem_of_split hsplit) with hmem | hmem
      · rw [hopen.starts_nothing x hmem] at hx
        cases hx
      · rw [(hsettles x hmem).starts] at hx
        cases hx
    · rcases List.mem_append.1 (mem_of_split hsplit) with hmem | hmem
      · rcases hopen.of_mem hmem with ⟨_, h⟩ | ⟨_, h⟩ | ⟨_, h⟩ <;> cases h
      · cases (hsettles _ hmem).drains s rfl
    · cases hopen with
      | refused _ _ => rw [inHand_append, inHand_unopened, Option.bind_some, hidle]
  | @terminated session n ps took opening launching hexit hopen htrace =>
    exact ⟨⟨session, hopen.frugal htrace (.of_settles hsettles)⟩, fun hreturns => absurd rfl (hreturns hexit n)⟩
  | @settled session o ps took opening launching drained rs hopen htrace _ =>
    have hwaited : ∀ x ∈ List.zipWith Event.waited ps rs ++ f.toList.map .reported, Settles none x := by
      intro x hx
      rcases List.mem_append.1 hx with hx | hx
      · obtain ⟨_, _, rfl⟩ := of_mem_waited hx
        exact .of_none rfl rfl rfl
      · exact hsettles x hx
    have hevs : opening ++ launching ++ draining drained session ++ List.zipWith Event.waited ps rs ++
        f.toList.map .reported = opening ++ launching ++
          (draining drained session ++ (List.zipWith Event.waited ps rs ++ f.toList.map .reported)) := by
      simp only [List.append_assoc]
    rw [hevs]
    refine ⟨⟨session, hopen.frugal htrace (drains_draining drained session hwaited)⟩, fun _ => ?_⟩
    rw [inHand_append, hopen.hand_launched htrace, Option.bind_some, inHand_append, inHand_draining, Option.bind_some,
      inHand_append, inHand_idle (fun x hx => ?_), Option.bind_some, hidle]
    obtain ⟨_, _, rfl⟩ := of_mem_waited hx
    exact ⟨rfl, rfl⟩

/-! ### every group of a line -/

variable (ev)

/-- one step handles descriptors as it should -/
theorem step_frugal {s : Statement} (hs : s.group.IsGroup) (ctx : Context) (e : Engine σ) :
    ∃ evs, Logged e (ev.step ctx s e).after evs ∧ (∃ session, Frugal session ctx.output s.group.stages evs) ∧
      ((ev.settings.exitTerminates = true → ∀ n, (ev.step ctx s e).ran ≠ .error (.exit n)) →
        inHand 0 evs = some 0) := by
  obtain ⟨took, evs, hrun, hlog, -⟩ := step_run ev hs ctx e
  obtain ⟨hfrugal, hhand⟩ := hrun.frugal (ev.step ctx s e).failure?
  exact ⟨_, hlog.trans (ended_logged _), hfrugal, hhand⟩

/-- a run of statements leaves nothing in hand unless the host has ended in it: only its last step can have asked for
that -/
theorem steps_hand (ctx : Context) {ss : List Statement} (hss : ∀ s ∈ ss, s.group.IsGroup) (e : Engine σ)
    (hreturns : ev.settings.exitTerminates = true → ∀ n, (concluded e (ev.steps ctx ss e)).1 ≠ .error (.exit n)) :
    ∃ evs, Logged e (concluded e (ev.steps ctx ss e)).2 evs ∧ inHand 0 evs = some 0 := by
  induction ss generalizing e with
  | nil => exact ⟨[], Logged.refl e, rfl⟩
  | cons s rest ih =>
    obtain ⟨evs, hlog, -, hhand⟩ := step_frugal ev (hss s List.mem_cons_self) ctx e
    rw [concluded_steps] at hreturns ⊢
    by_cases hlast : (ev.step ctx s e).stops = true ∨ rest = []
    · rw [if_pos hlast] at hreturns ⊢
      refine ⟨evs, hlog, hhand fun hexit n hn => hreturns hexit n ?_⟩
      simp only [Step.result, hn, Except.map]
    · rw [if_neg hlast] at hreturns ⊢
      obtain ⟨evs', hlog', hhand'⟩ := ih (fun s' hs' => hss s' (List.mem_cons_of_mem s hs')) _ hreturns
      refine ⟨evs ++ evs', hlog.trans hlog', ?_⟩
      rw [inHand_append, hhand fun _ n hn => hlast (.inl ?_), Option.bind_some, hhand']
      simp only [Step.stops, hn, Failure.isExit]

/-- **Only what is needed is in hand.** On a line that was read every group handles descriptors as it should, whatever
the backend did, whichever targets could be opened and whichever descriptors could be duplicated: when a command is
started, no writing end of a pipe in front of it is in hand any more, and when a session is drained, no end of a pipe
between stages, no file of a redirection and no end that belongs to the children of the session is. And unless `exit`
has ended the host, every descriptor that evaluating the line has brought, a duplicate included, is closed behind it,
as often as it was brought and only while it was in hand. -/
theorem execute_frugal {ts : List Token} {t : Tree} (ht : Line.parse ts = .ok t) (ctx : Context) (e : Engine σ) :
    ev.execute t ctx e = concluded e (ev.steps ctx t.statements e) ∧
    (∀ st ∈ ev.steps ctx t.statements e, ∃ session evs, Logged st.before st.after evs ∧
      Frugal session ctx.output st.statement.group.stages evs) ∧
    ((ev.settings.exitTerminates = true → ∀ n, (ev.execute t ctx e).1 ≠ .error (.exit n)) →
      ∃ evs, Logged e (ev.execute t ctx e).2 evs ∧ inHand 0 evs = some 0 ∧
        (evs.flatMap Event.brings : Multiset Descriptor) = (evs.filterMap Event.closed? : Multiset Descriptor)) := by
  have hline : t.IsLine := (Line.parse_eq_ok_iff.1 ht).1.isLine
  refine ⟨execute_eq_concluded ev hline ctx e, fun st hst => ?_, fun hreturns => ?_⟩
  · obtain ⟨s, hs, e', -, rfl⟩ := mem_steps ev hst
    obtain ⟨evs, hlog, ⟨session, hfrugal⟩, -⟩ := step_frugal ev (hline.isGroup s hs) ctx e'
    exact ⟨session, evs, hlog, hfrugal⟩
  · rw [execute_eq_concluded ev hline] at hreturns ⊢
    obtain ⟨evs, hlog, hhand⟩ := steps_hand ev ctx hline.isGroup e hreturns
    exact ⟨evs, hlog, hhand, brought_eq_closed hhand⟩

/-- The two commands of the line `pwd|b`, with a payload: whatever was brought, the duplicate that `pwd` writes to
included, has been closed behind them. -/
theorem execute_frugal_pipe :
    ∃ evs, Logged (capturing []) ((scripted "pwd|b").execute (.pipe (.command [⟨0, 3⟩]) (.command [⟨4, 5⟩])) {}
      (capturing [])).2 evs ∧ inHand 0 evs = some 0 ∧
        (evs.flatMap Event.brings : Multiset Descriptor) = (evs.filterMap Event.closed? : Multiset Descriptor) := by
  have hparse : Line.parse (Line.tokens "pwd|b") = .ok (.pipe (.command [⟨0, 3⟩]) (.command [⟨4, 5⟩])) := by
    decide +kernel
  exact (execute_frugal (scripted "pwd|b") hparse {} (capturing [])).2.2 fun hexit => absurd hexit (by decide)

end Evaluation

end LineShell
