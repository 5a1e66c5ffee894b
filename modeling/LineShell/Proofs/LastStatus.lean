/-
The status that a line leaves behind.

The engine remembers the status of each statement, and `exit` without an argument asks for the one that is remembered.
It is set where the group of the statement has ended; that a background statement counts as 0 is decided around that. So
there are two notions of how the last statement went, and `execute_lastStatus` says when they are one.

- `step_lastStatus`: behind a step stands the status of its group, and 1 for a failure.
- `step_answered`: a group of the background comes to a status other than 0 only through a builtin in its last stage.
- `concluded_append`: a chain of statements is run by running its two parts in turn.
- `execute_lastStatus`: a line that has failed leaves 1, and one with a result leaves that result, unless its last
  statement is `Unheard`: of the background, and ended by a builtin that did not succeed. What is left is what `exit`
  behind the line asks for.
- `execute_lastStatus_unheard`: `cd nowhere &` results in 0 and leaves 1.
-/
import LineShell.Proofs.Statements

namespace LineShell

namespace Engine

variable {σ : Type}

theorem lastStatus_report (e : Engine σ) (f : Failure) : (e.report f).lastStatus = e.lastStatus := by
  obtain ⟨io, host, h⟩ := report_frame e f
  rw [h]

end Engine

/-! ## what ends a group -/

namespace Evaluation

open Engine

variable {σ : Type} (ev : Evaluation σ)

/-- the builtin that the words of a command name -/
def builtinOf (words : List Span) : Option Builtin := (ev.argv words).head?.bind Builtin.ofName?

/-- the builtin in the last stage of a group, if there is one -/
def closingBuiltin (group : Tree) : Option Builtin := group.stages.getLast?.bind fun s => ev.builtinOf s.words

variable {ev}

theorem builtinOf_cons {words : List Span} {program : String} {args : List String}
    (h : ev.argv words = program :: args) : ev.builtinOf words = Builtin.ofName? program := by
  simp [builtinOf, h]

/-- nobody waits for the child of a command in the background; one that is launched is a builtin or starts a child -/
theorem CommandTrace.background {session : Option Session} {ctx : Context} {words : List Span}
    {o : Except Failure StageOutcome} {ps : List Pid} {took : Bool} {evs : List Event}
    (h : ev.CommandTrace session ctx words o ps took evs) (hbg : ctx.background = true) :
    ps = [] ∧ ∀ so, o = .ok so → (so = .started ↔ ev.builtinOf words = none) := by
  cases h with
  | builtin r hargv hb =>
    refine ⟨rfl, fun so ho => ?_⟩
    cases r with
    | error f => cases ho
    | ok status =>
      cases ho
      simp [builtinOf_cons hargv, hb]
  | unduplicated d f _ _ _ => exact ⟨rfl, nofun⟩
  | refused f hargv hb => exact ⟨rfl, nofun⟩
  | started pid hargv hb hfg => simp [hbg] at hfg
  | letGo pid hargv hb _ =>
    refine ⟨rfl, fun so ho => ?_⟩
    cases ho
    simp [builtinOf_cons hargv, hb]

theorem StageTrace.background {session : Option Session} {ctx : Context} {s : Stage}
    {o : Except Failure StageOutcome} {ps : List Pid} {took : Bool} {evs : List Event}
    (h : ev.StageTrace session ctx s o ps took evs) (hbg : ctx.background = true) :
    ps = [] ∧ ∀ so, o = .ok so → (so = .started ↔ ev.builtinOf s.words = none) := by
  cases h with
  | plain _ hc => exact hc.background hbg
  | unopened f _ => exact ⟨rfl, nofun⟩
  | @redirected dir target d _ _ _ _ _ hc => exact hc.background (by cases dir <;> exact hbg)

/-- a group of the background leaves no child to wait for, and how its launch ended is told by its last stage -/
theorem GroupTrace.background {session : Option Session} {ctx : Context} {inlet : Option Descriptor}
    {stages : List Stage} {o : Except Failure StageOutcome} {ps : List Pid} {took : Bool} {evs : List Event}
    (h : ev.GroupTrace session ctx inlet stages o ps took evs) (hbg : ctx.background = true) :
    ps = [] ∧ ∀ so, o = .ok so →
      (so = .started ↔ (stages.getLast?.bind fun s => ev.builtinOf s.words) = none) := by
  induction h with
  | last hs => exact hs.background hbg
  | unpiped f _ => exact ⟨rfl, nofun⟩
  | failed pipe _ hs => exact ⟨(hs.background hbg).1, nofun⟩
  | piped pipe hne hs _ ih =>
    obtain ⟨hqs, hlast⟩ := ih hbg
    refine ⟨by rw [(hs.background hbg).1, hqs]; rfl, fun so ho => ?_⟩
    rw [List.getLast?_cons_of_ne_nil hne]
    exact hlast so ho

/-- a group with a status and no child to wait for has been launched, and the status is that of its last stage -/
theorem verdict_ok {o : Except Failure StageOutcome} {drained : Except Failure Unit} {status : Int}
    (h : verdict o drained (.ok none) = .ok status) : ∃ so, o = .ok so ∧ groupStatus so none = status := by
  cases o with
  | error f => cases h
  | ok so =>
    cases drained with
    | error f => cases h
    | ok _ => exact ⟨so, rfl, Except.ok.inj h⟩

/-- a group of the background answers with a status other than 0 only if a builtin in its last stage does -/
theorem GroupRun.answered {ctx : Context} {e : Engine σ} {group : Tree} {r : Except Failure Int} {took : Bool}
    {evs : List Event} (h : ev.GroupRun ctx e group.stages r took evs) (hbg : ctx.background = true) {status : Int}
    (hr : r = .ok status) (hne : status ≠ 0) : ∃ b, ev.closingBuiltin group = some b := by
  cases h with
  | unopened _ => cases hr
  | terminated _ _ _ => cases hr
  | @settled session o ps _ opening launching drained rs _ htrace hrs =>
    obtain ⟨rfl, hlast⟩ := htrace.background hbg
    obtain rfl : rs = [] := List.length_eq_zero_iff.1 hrs
    obtain ⟨so, rfl, hso⟩ := verdict_ok hr
    refine Option.ne_none_iff_exists'.1 fun hnone => hne ?_
    rw [← hso, (hlast so rfl).2 hnone]
    rfl

end Evaluation

/-! ## one step -/

namespace Step

variable {σ : Type}

/-- what is remembered behind a step that does not stop the shell: the status of its group, and 1 for a failure -/
theorem lastStatus_after {st : Step σ} (h : st.stops = false) :
    st.after.lastStatus = match st.ran with | .ok status => status | .error _ => 1 := by
  unfold after failure? remembered
  unfold stops at h
  cases hr : st.ran with
  | ok status => rfl
  | error f =>
    rw [hr] at h
    simp only [h, Bool.false_eq_true, if_false]
    exact Engine.lastStatus_report _ _

/-- a step of the background that a builtin ended which did not succeed -/
structure Unheard (ev : Evaluation σ) (st : Step σ) : Prop where
  background : st.statement.background = true
  builtin : ∃ b, ev.closingBuiltin st.statement.group = some b
  status : ∃ status, st.ran = .ok status ∧ status ≠ 0

end Step

namespace Evaluation

open Engine

variable {σ : Type} (ev : Evaluation σ)

/-- a step with a result: it is the status that is remembered, unless nobody hears of that -/
theorem step_answered {s : Statement} (hs : s.group.IsGroup) (ctx : Context) (e : Engine σ) {n : Int}
    (hn : (ev.step ctx s e).result = .ok n) :
    (ev.step ctx s e).ran = .ok (ev.step ctx s e).after.lastStatus ∧
    ((ev.step ctx s e).after.lastStatus = n ↔ ¬ (ev.step ctx s e).Unheard ev) ∧
    ((ev.step ctx s e).Unheard ev → n = 0) := by
  obtain ⟨took, evs, hgroup, -, -⟩ := step_run ev hs ctx e
  generalize hst : ev.step ctx s e = st at *
  have hstatement : st.statement = s := by rw [← hst]; rfl
  obtain ⟨status, hran⟩ : ∃ status, st.ran = .ok status := by
    cases hr : st.ran with
    | ok status => exact ⟨status, rfl⟩
    | error f => simp [Step.result, hr, Except.map] at hn
  have hlast : st.after.lastStatus = status := by
    rw [Step.lastStatus_after (by simp [Step.stops, hran]), hran]
  have hn : (if s.background then 0 else status) = n := by
    simpa [Step.result, hran, Except.map, hstatement] using hn
  rw [hlast]
  refine ⟨hran, ?_, fun hun => ?_⟩
  · cases hbg : s.background with
    | false =>
      have hheard : ¬ st.Unheard ev := fun hun => by simpa [hstatement, hbg] using hun.background
      simpa [hbg, hheard] using hn
    | true =>
      obtain rfl : 0 = n := by simpa [hbg] using hn
      refine ⟨fun h0 hun => ?_, fun hheard => ?_⟩
      · obtain ⟨m, hm, hne⟩ := hun.status
        rw [hran] at hm
        exact hne ((Except.ok.inj hm).symm.trans h0)
      · by_contra hne
        have hbuiltin : ∃ b, ev.closingBuiltin s.group = some b :=
          hgroup.answered (by simp [Context.forStatement, hbg]) hran hne
        exact hheard ⟨by rw [hstatement, hbg], by rwa [hstatement], status, hran, hne⟩
  · rw [← hn, ← hstatement, hun.background]
    rfl

/-! ## a line and what stands behind it -/

/-- running a chain of statements is running its parts in turn, unless the first of them stops the shell -/
theorem concluded_append (ctx : Context) (ss : List Statement) {rest : List Statement} (hrest : rest ≠ [])
    (e : Engine σ) (h : ∀ n, (concluded e (ev.steps ctx ss e)).1 ≠ .error (.exit n)) :
    concluded e (ev.steps ctx (ss ++ rest) e) =
      concluded (concluded e (ev.steps ctx ss e)).2 (ev.steps ctx rest (concluded e (ev.steps ctx ss e)).2) := by
  induction ss generalizing e with
  | nil => rfl
  | cons s ss ih =>
    have hgoes : (ev.step ctx s e).stops ≠ true := by
      intro hstop
      obtain ⟨n, hn⟩ := stops_iff.1 hstop
      refine h n ?_
      rw [concluded_steps, if_pos (.inl hstop)]
      exact hn
    rw [concluded_steps] at h ⊢
    rw [List.cons_append, concluded_steps, if_neg (by simp [hgoes, hrest])]
    by_cases hss : ss = []
    · subst hss
      simp
    · rw [if_neg (by simp [hgoes, hss])] at h ⊢
      exact ih _ h

/-- `exit` without an argument asks to stop with the status that is remembered, unless the descriptor of its output
cannot be duplicated -/
theorem runBuiltin_exit (ctx : Context) (e : Engine σ) :
    (ev.runBuiltin .exit [] ctx e).1 = match duplicateOutcome ctx e with
      | .ok _ => .error (.exit e.lastStatus)
      | .error f => .error (.io f) := by
  have hperform : ∀ (ctx : Context) (e : Engine σ), (ev.perform .exit [] ctx e).1 = .error (.exit e.lastStatus) := by
    rintro ⟨_, _ | d, _⟩ e
    all_goals
      simp only [perform, Builtin.dispatch, Builtin.run, Builtin.runExit, sendAll, send]
      cases e.io <;> rfl
  rcases ev.runBuiltin_cases .exit [] ctx e with ⟨hout, hrun⟩ | ⟨d, hout, -, hdup⟩
  · rw [hrun, hperform, duplicateOutcome, hout]
  · have hnext : duplicateOutcome ctx e = (e.host.duplicate d).1 := by
      rw [duplicateOutcome, hout]
      rfl
    rcases hdup with ⟨f, hdup, hrun⟩ | ⟨hdup, hrun⟩
    · rw [hrun, hnext, hdup]
    · rw [hrun, hperform, hnext, hdup]

/-- so it does in a group of its own, if its session can be opened -/
theorem runGroup_exit {word : Span} (hword : word.text ev.line = "exit") (ctx : Context) (e : Engine σ) :
    (ev.runGroup (ev.launch (.command [word])) ctx e).1 =
      match (ev.openSession ctx e).1, duplicateOutcome ctx e with
      | .ok _, .ok _ => .error (.exit e.lastStatus)
      | .ok _, .error f => .error (.io f)
      | .error f, _ => .error f := by
  unfold runGroup
  split
  · rename_i f e' ho
    rw [ho]
  · rename_i session e' ho
    have hlast : e'.lastStatus = e.lastStatus := by rw [(openSession_opening ev ho).2]
    have hdup : duplicateOutcome ctx e' = duplicateOutcome ctx e := by
      have houtcomes := congrArg Prod.fst (openSession_outcomes ev ctx e)
      rw [ho] at houtcomes
      rw [duplicateOutcome, duplicateOutcome, show e'.host.duplications = _ from houtcomes]
      rfl
    have hout : (ev.launch (.command [word]) ctx session e').outcome =
        match duplicateOutcome ctx e with
        | .ok _ => .error (.exit e.lastStatus)
        | .error f => .error (.io f) := by
      simp only [launch, launchFrom, closing, launchCommand, List.map_cons, List.map_nil, hword, Builtin.ofName?]
      rw [runBuiltin_exit, hlast, hdup]
      cases duplicateOutcome ctx e <;> rfl
    rw [ho]
    simp only
    split
    · rw [hout]
      cases duplicateOutcome ctx e <;> rfl
    · simp only [settle, hout]
      cases duplicateOutcome ctx e <;> rfl

/-- **The status that is remembered.** A line that was read ends with one of its steps. If it has failed, 1 is
remembered behind it; if it has a result, the status of the last group is, and that is the result if and only if the
last step is not `Unheard`, which a result other than 0 rules out. And `exit` behind a line that does not stop the
shell asks to stop with what is remembered, if its session can be opened and, where its output goes to a descriptor of
the context, that can be duplicated. -/
theorem execute_lastStatus {ts : List Token} {t : Tree} (ht : Line.parse ts = .ok t) (ctx : Context) (e : Engine σ) :
    ∃ st, (ev.steps ctx t.statements e).getLast? = some st ∧
      (∀ f, (ev.execute t ctx e).1 = .error f → f.isExit = false → (ev.execute t ctx e).2.lastStatus = 1) ∧
      (∀ n, (ev.execute t ctx e).1 = .ok n →
        st.ran = .ok (ev.execute t ctx e).2.lastStatus ∧
        ((ev.execute t ctx e).2.lastStatus = n ↔ ¬ st.Unheard ev) ∧ (st.Unheard ev → n = 0)) ∧
      ((∀ n, (ev.execute t ctx e).1 ≠ .error (.exit n)) →
        ∀ {ts' t' word background}, Line.parse ts' = .ok t' →
          t'.statements = t.statements ++ [⟨.command [word], background⟩] → word.text ev.line = "exit" →
          (ev.execute t' ctx e).1 =
            match (ev.openSession (ctx.forStatement ⟨.command [word], background⟩) (ev.execute t ctx e).2).1,
              duplicateOutcome ctx (ev.execute t ctx e).2 with
            | .ok _, .ok _ => .error (.exit (ev.execute t ctx e).2.lastStatus)
            | .ok _, .error f => .error (.io f)
            | .error f, _ => .error f) := by
  have hline : t.IsLine := (Line.parse_eq_ok_iff.1 ht).1.isLine
  have hsteps : ev.steps ctx t.statements e ≠ [] := by
    obtain ⟨s, ss, hss⟩ := List.exists_cons_of_ne_nil hline.statements_ne_nil
    simp [hss, steps]
  obtain ⟨st, hst⟩ : ∃ st, (ev.steps ctx t.statements e).getLast? = some st :=
    ⟨_, List.getLast?_eq_some_getLast hsteps⟩
  have hrun : ev.execute t ctx e = (st.result, st.after) := by
    rw [execute_eq_concluded ev hline, concluded, hst]
  refine ⟨st, hst, fun f hf hexit => ?_, fun n hn => ?_, fun hgoes ts' t' word background ht' hstatements hword => ?_⟩
  · rw [hrun] at hf ⊢
    have hran : st.ran = .error f := by
      cases hr : st.ran with
      | ok status => simp [Step.result, hr, Except.map] at hf
      | error f' => simpa [Step.result, hr, Except.map] using hf
    rw [Step.lastStatus_after (by simp [Step.stops, hran, hexit]), hran]
  · rw [hrun] at hn ⊢
    obtain ⟨s, hs, e', -, rfl⟩ := mem_steps ev (List.mem_of_getLast? hst)
    exact step_answered ev (hline.isGroup s hs) ctx e' hn
  · have hline' : t'.IsLine := (Line.parse_eq_ok_iff.1 ht').1.isLine
    rw [execute_eq_concluded ev hline] at hgoes
    rw [execute_eq_concluded ev hline', hstatements, concluded_append ev ctx _ (by simp) e hgoes, concluded_steps,
      if_pos (.inr rfl), ← execute_eq_concluded ev hline, Step.result]
    have hexit := runGroup_exit ev hword (ctx.forStatement ⟨.command [word], background⟩) (ev.execute t ctx e).2
    rw [show (ev.step ctx ⟨.command [word], background⟩ (ev.execute t ctx e).2).ran = _ from hexit,
      show duplicateOutcome (ctx.forStatement ⟨.command [word], background⟩) _ = duplicateOutcome ctx _ from rfl]
    cases (ev.openSession (ctx.forStatement ⟨.command [word], background⟩) (ev.execute t ctx e).2).1 with
    | error f => rfl
    | ok session => cases duplicateOutcome ctx (ev.execute t ctx e).2 <;> rfl

/-- `cd a b &` results in 0 and leaves 1, which is what `exit` behind it asks to stop with. -/
theorem execute_lastStatus_unheard :
    ∃ t t', Line.parse (Line.tokens "cd a b&") = .ok t ∧ Line.parse (Line.tokens "cd a b&exit") = .ok t' ∧
      ((scripted "cd a b&").execute t {} (capturing [])).1 = .ok 0 ∧
      ((scripted "cd a b&").execute t {} (capturing [])).2.lastStatus = 1 ∧
      ((scripted "cd a b&exit").execute t' {} (capturing [])).1 = .error (.exit 1) := by
  refine ⟨.ended (.command [⟨0, 2⟩, ⟨3, 4⟩, ⟨5, 6⟩]) .background,
    .chained (.command [⟨0, 2⟩, ⟨3, 4⟩, ⟨5, 6⟩]) .background (.command [⟨7, 11⟩]), ?_⟩
  decide +kernel

/-- an engine whose program `a` exits with 3 -/
def failing : Engine Scripted.State := capturing [("a", { status := 3 })]

/-- Behind `a` stands the status of the child, and `exit` stops the shell with it. -/
theorem execute_lastStatus_child :
    ∃ t t', Line.parse (Line.tokens "a") = .ok t ∧ Line.parse (Line.tokens "a;exit") = .ok t' ∧
      ((scripted "a;exit").execute t {} failing).2.lastStatus = 3 ∧
      ((scripted "a;exit").execute t' {} failing).1 = .error (.exit 3) := by
  have hparse : Line.parse (Line.tokens "a") = .ok (.command [⟨0, 1⟩]) := by decide +kernel
  have hparse' : Line.parse (Line.tokens "a;exit") =
      .ok (.chained (.command [⟨0, 1⟩]) .sequence (.command [⟨2, 6⟩])) := by decide +kernel
  have hresult : ((scripted "a;exit").execute (.command [⟨0, 1⟩]) {} failing).1 = .ok 3 := by decide +kernel
  obtain ⟨st, -, -, hanswer, hexit⟩ := execute_lastStatus (scripted "a;exit") hparse {} failing
  obtain ⟨-, hheard, hzero⟩ := hanswer 3 hresult
  have hlast : ((scripted "a;exit").execute (.command [⟨0, 1⟩]) {} failing).2.lastStatus = 3 :=
    hheard.2 fun h => absurd (hzero h) (by decide)
  refine ⟨_, _, hparse, hparse', hlast, ?_⟩
  rw [hexit (by simp [hresult]) hparse' rfl (by decide +kernel), hlast]
  have hsession : ((scripted "a;exit").openSession (Context.forStatement {} ⟨.command [⟨2, 6⟩], false⟩)
      ((scripted "a;exit").execute (.command [⟨0, 1⟩]) {} failing).2).1.isOk := by
    decide +kernel
  revert hsession
  cases ((scripted "a;exit").openSession _ _).1 with
  | ok session => exact fun _ => rfl
  | error f => exact fun h => absurd h (by simp [Except.isOk, Except.toBool])

end Evaluation

end LineShell
