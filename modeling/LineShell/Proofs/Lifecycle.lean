/-
What the shell takes it gives back: children and sessions.

`Ledger` is what the shell holds: the children that it has to wait for, those that it has to let go, and the sessions
that it has to drain. An event enters something into the ledger or strikes it out, and an event that strikes out what is
not there is refused. So a log that goes through and leaves the ledger as it was takes back everything, each thing once
and none before its time.

- `Course.run_ledger`: along any course of evaluation the ledger grows by the children still to be waited for. Every
  evaluation, of any tree, comes out even, whatever the backend does, if `exit` does not end the host.
- `GroupRun.ordered`: a group launches, then drains, then waits.
- `execute_settles`: both together, with the ledger spelt out.
-/
import LineShell.Proofs.Statements
import Mathlib.Algebra.Order.Group.Multiset

namespace LineShell

/-! ## events that take and give back -/

namespace Event

/-- the child that an event starts in the foreground -/
def foreground? : Event → Option Pid
  | spawned request (.ok pid) => if request.background then none else some pid
  | _ => none

/-- the child that an event starts in the background -/
def background? : Event → Option Pid
  | spawned request (.ok pid) => if request.background then some pid else none
  | _ => none

/-- the child that an event waits for -/
def waited? : Event → Option Pid
  | waited pid _ => some pid
  | _ => none

/-- the child that an event lets go -/
def detached? : Event → Option Pid
  | detached pid => some pid
  | _ => none

/-- the session that an event opens -/
def opened? : Event → Option Session
  | opened s => some s
  | _ => none

/-- the session that an event drains -/
def drained? : Event → Option Session
  | drained s _ => some s
  | _ => none

/-- the phase of a group that an event belongs to: starting children, draining, waiting -/
def phase? : Event → Option Nat
  | spawned _ _ => some 0
  | drained _ _ => some 1
  | waited _ _ => some 2
  | _ => none

end Event

/-! ## the ledger -/

/-- what the shell holds -/
structure Ledger where
  foreground : Multiset Pid := 0
  background : Multiset Pid := 0
  sessions : Multiset Session := 0

namespace Ledger

/-- the ledger behind an event; none if the event gives back what the ledger does not hold -/
def enter (l : Ledger) : Event → Option Ledger
  | .spawned request (.ok pid) =>
    some (if request.background then { l with background := pid ::ₘ l.background }
      else { l with foreground := pid ::ₘ l.foreground })
  | .waited pid _ => if pid ∈ l.foreground then some { l with foreground := l.foreground.erase pid } else none
  | .detached pid => if pid ∈ l.background then some { l with background := l.background.erase pid } else none
  | .opened s => some { l with sessions := s ::ₘ l.sessions }
  | .drained s _ => if s ∈ l.sessions then some { l with sessions := l.sessions.erase s } else none
  | _ => some l

/-- the ledger behind a log -/
def run (l : Ledger) (evs : List Event) : Option Ledger := evs.foldlM enter l

/-- a ledger with more children to be waited for -/
def owing (l : Ledger) (ps : List Pid) : Ledger := { l with foreground := l.foreground + ps }

theorem run_append (l : Ledger) (evs evs' : List Event) : l.run (evs ++ evs') = (l.run evs).bind (·.run evs') := by
  simp [run, List.foldlM_append]

theorem run_cons (l : Ledger) (x : Event) (evs : List Event) : l.run (x :: evs) = (l.enter x).bind (·.run evs) := rfl

theorem run_nil (l : Ledger) : l.run [] = some l := rfl

/-- events that neither take nor give back leave the ledger alone -/
theorem run_neutral {evs : List Event} (h : ∀ x ∈ evs, ∀ l : Ledger, l.enter x = some l) (l : Ledger) :
    l.run evs = some l := by
  induction evs with
  | nil => rfl
  | cons x evs ih =>
    rw [run_cons, h x List.mem_cons_self l]
    exact ih fun y hy => h y (List.mem_cons_of_mem x hy)

theorem run_closed (ds : List Descriptor) (l : Ledger) : l.run (ds.map .closed) = some l := by
  refine run_neutral (fun x hx l => ?_) l
  obtain ⟨d, _, rfl⟩ := List.mem_map.1 hx
  rfl

theorem run_made (ps : List Pipe) (l : Ledger) : l.run (ps.map .made) = some l := by
  refine run_neutral (fun x hx l => ?_) l
  obtain ⟨p, _, rfl⟩ := List.mem_map.1 hx
  rfl

/-- a ledger with a session to be drained, if there is one -/
def holding (l : Ledger) (session : Option Session) : Ledger := { l with sessions := l.sessions + session.toList }

theorem owing_nil (l : Ledger) : l.owing [] = l := by simp [owing]

theorem owing_singleton (l : Ledger) (p : Pid) : l.owing [p] = { l with foreground := p ::ₘ l.foreground } := by
  rw [owing, Multiset.coe_singleton, Multiset.add_comm, Multiset.singleton_add]

theorem holding_none (l : Ledger) : l.holding none = l := by simp [holding]

theorem holding_some (l : Ledger) (s : Session) : l.holding (some s) = { l with sessions := s ::ₘ l.sessions } := by
  rw [holding, Option.toList_some, Multiset.coe_singleton, Multiset.add_comm, Multiset.singleton_add]

theorem owing_append (l : Ledger) (ps qs : List Pid) : (l.owing ps).owing qs = l.owing (ps ++ qs) := by
  simp [owing, add_assoc]

/-- waiting for the children that are owed leaves what was there without them -/
theorem run_waited {ps : List Pid} {rs : List (Except Failure Int)} (h : rs.length = ps.length) (l : Ledger) :
    (l.owing ps).run (List.zipWith .waited ps rs) = some l := by
  induction ps generalizing rs with
  | nil => simp [owing_nil, run_nil]
  | cons p ps ih =>
    obtain ⟨r, rs, rfl⟩ : ∃ r rs', rs = r :: rs' := by
      cases rs with
      | nil => simp at h
      | cons r rs => exact ⟨r, rs, rfl⟩
    have henter : (l.owing (p :: ps)).enter (.waited p r) = some (l.owing ps) := by
      simp [enter, owing, ← Multiset.cons_coe, Multiset.add_cons]
    rw [List.zipWith_cons_cons, run_cons, henter]
    exact ih (by simpa using h)

/-! ### what a log that goes through has taken and given back -/

theorem entered {α : Type} (m : Multiset α) (a : α) : m + ([a] : List α) = a ::ₘ m + ([] : List α) := by
  rw [Multiset.coe_singleton, Multiset.coe_nil, Multiset.add_zero, Multiset.add_comm, Multiset.singleton_add]

theorem struckOut {α : Type} [DecidableEq α] {m : Multiset α} {a : α} (h : a ∈ m) :
    m + ([] : List α) = m.erase a + ([a] : List α) := by
  rw [entered, Multiset.cons_erase h]

/-- entering an event keeps the balance of each kind -/
theorem enter_balance {l l' : Ledger} {x : Event} (h : l.enter x = some l') :
    l.foreground + (x.foreground?.toList : Multiset Pid) = l'.foreground + (x.waited?.toList : Multiset Pid) ∧
    l.background + (x.background?.toList : Multiset Pid) = l'.background + (x.detached?.toList : Multiset Pid) ∧
    l.sessions + (x.opened?.toList : Multiset Session) = l'.sessions + (x.drained?.toList : Multiset Session) := by
  unfold enter at h
  split at h
  · rename_i request pid
    cases h
    cases hb : request.background with
    | false =>
      simp only [Event.foreground?, Event.background?, hb, Bool.false_eq_true, if_false]
      exact ⟨entered _ _, rfl, rfl⟩
    | true =>
      simp only [Event.foreground?, Event.background?, hb, if_true]
      exact ⟨rfl, entered _ _, rfl⟩
  · split at h
    · rename_i hmem
      cases h
      exact ⟨struckOut hmem, rfl, rfl⟩
    · cases h
  · split at h
    · rename_i hmem
      cases h
      exact ⟨rfl, struckOut hmem, rfl⟩
    · cases h
  · cases h
    exact ⟨rfl, rfl, entered _ _⟩
  · split at h
    · rename_i hmem
      cases h
      exact ⟨rfl, rfl, struckOut hmem⟩
    · cases h
  · rename_i hspawned hwaited hdetached hopened hdrained
    cases h
    cases x with
    | spawned request r =>
      cases r with
      | error f => exact ⟨rfl, rfl, rfl⟩
      | ok pid => exact absurd rfl (hspawned request pid)
    | waited pid r => exact absurd rfl (hwaited pid r)
    | detached pid => exact absurd rfl (hdetached pid)
    | opened s => exact absurd rfl (hopened s)
    | drained s r => exact absurd rfl (hdrained s r)
    | _ => exact ⟨rfl, rfl, rfl⟩

theorem balance_cons {α : Type} {m m' m'' : Multiset α} {f g : Event → Option α} {x : Event} {evs : List Event}
    (h : m + ((f x).toList : Multiset α) = m' + ((g x).toList : Multiset α))
    (h' : m' + (evs.filterMap f : Multiset α) = m'' + (evs.filterMap g : Multiset α)) :
    m + ((x :: evs).filterMap f : Multiset α) = m'' + ((x :: evs).filterMap g : Multiset α) := by
  have hsplit : ∀ k : Event → Option α, ((x :: evs).filterMap k : Multiset α) =
      ((k x).toList : Multiset α) + (evs.filterMap k : Multiset α) := by
    intro k
    cases hk : k x <;> simp [hk]
  rw [hsplit, hsplit, ← Multiset.add_assoc, h, Multiset.add_assoc, Multiset.add_comm _ (evs.filterMap f : Multiset α),
    ← Multiset.add_assoc, h', Multiset.add_assoc, Multiset.add_comm (evs.filterMap g : Multiset α)]

/-- what a log has taken beyond what was there before, and not given back, is what is there in the end -/
theorem run_balance {l l' : Ledger} {evs : List Event} (h : l.run evs = some l') :
    l.foreground + (evs.filterMap Event.foreground? : Multiset Pid) =
      l'.foreground + (evs.filterMap Event.waited? : Multiset Pid) ∧
    l.background + (evs.filterMap Event.background? : Multiset Pid) =
      l'.background + (evs.filterMap Event.detached? : Multiset Pid) ∧
    l.sessions + (evs.filterMap Event.opened? : Multiset Session) =
      l'.sessions + (evs.filterMap Event.drained? : Multiset Session) := by
  induction evs generalizing l with
  | nil =>
    cases h
    exact ⟨rfl, rfl, rfl⟩
  | cons x evs ih =>
    rw [run_cons] at h
    obtain ⟨m, hm, h⟩ := Option.bind_eq_some_iff.1 h
    obtain ⟨hf, hb, hs⟩ := enter_balance hm
    obtain ⟨hf', hb', hs'⟩ := ih h
    exact ⟨balance_cons hf hf', balance_cons hb hb', balance_cons hs hs'⟩

end Ledger

/-! ## settled logs -/

/-- a log in which everything that was taken was given back, once and after it had been taken -/
structure Settled (evs : List Event) : Prop where
  /-- the children that were waited for are those started in the foreground -/
  waited : (evs.filterMap Event.waited?).Perm (evs.filterMap Event.foreground?)
  /-- the children that were let go are those started in the background -/
  detached : (evs.filterMap Event.detached?).Perm (evs.filterMap Event.background?)
  /-- the sessions that were drained are those that were opened -/
  drained : (evs.filterMap Event.drained?).Perm (evs.filterMap Event.opened?)
  /-- at no time had more been given back than taken -/
  inTime : ∀ {past : List Event}, past <+: evs →
    (past.filterMap Event.waited?).Subperm (past.filterMap Event.foreground?) ∧
    (past.filterMap Event.detached?).Subperm (past.filterMap Event.background?) ∧
    (past.filterMap Event.drained?).Subperm (past.filterMap Event.opened?)

/-- a log that leaves the empty ledger empty is settled -/
theorem Ledger.settled {evs : List Event} (h : ({} : Ledger).run evs = some {}) : Settled evs := by
  have hrun := run_balance h
  simp only [Multiset.zero_add, Multiset.coe_eq_coe] at hrun
  refine ⟨hrun.1.symm, hrun.2.1.symm, hrun.2.2.symm, fun {past} hpast => ?_⟩
  obtain ⟨future, rfl⟩ := hpast
  rw [run_append] at h
  obtain ⟨l, hl, -⟩ := Option.bind_eq_some_iff.1 h
  have hpast := run_balance hl
  simp only [Multiset.zero_add] at hpast
  have hle : ∀ {α : Type} {m : Multiset α} {as bs : List α}, (as : Multiset α) = m + (bs : Multiset α) →
      bs.Subperm as := fun h => Multiset.coe_le.1 (h ▸ Multiset.le_add_left _ _)
  exact ⟨hle hpast.1, hle hpast.2.1, hle hpast.2.2⟩

/-! ## evaluation comes out even -/

namespace Evaluation

open Engine

variable {σ : Type} {ev : Evaluation σ}

theorem Opening.run_ledger {background delivered : Bool} {capture : Option (Option Bytes)} {session : Option Session}
    {evs : List Event} (h : Opening background capture delivered (.ok session) evs) (l : Ledger) :
    l.run evs = some (l.holding session) := by
  cases h with
  | uncaptured _ => rw [Ledger.run_nil, Ledger.holding_none]
  | opened _ _ _ _ =>
    rw [Ledger.run_append, Ledger.run_made, Ledger.holding_some]
    rfl

theorem run_unopened (made : List Pipe) (f : Failure) (l : Ledger) : l.run (Event.unopened made f) = some l := by
  rw [Event.unopened, Ledger.run_append, Ledger.run_made]
  exact Ledger.run_closed _ l

theorem run_draining (drained : Except Failure Unit) (session : Option Session) (l : Ledger) :
    (l.holding session).run (draining drained session) = some l := by
  cases session with
  | none => rw [draining, Ledger.run_nil, Ledger.holding_none]
  | some s =>
    have henter : (l.holding (some s)).enter (.drained s drained) = some l := by
      simp [Ledger.enter, Ledger.holding_some]
    rw [draining, Ledger.run_append, Ledger.run_closed, Option.bind_some, Ledger.run_cons, henter]
    exact Ledger.run_closed _ l

/-- what evaluation does by itself neither takes nor gives back -/
theorem Act.run_ledger {e e' : Engine σ} (h : ev.Act e e') :
    ∃ evs, Logged e e' evs ∧ ∀ l : Ledger, l.run evs = some l := by
  cases h with
  | pipe => exact ⟨[.piped _], Host.pipe_events rfl, fun _ => rfl⟩
  | openTarget _ dir path =>
    rcases Host.openTarget_events (show e.host.openTarget dir path = _ from rfl) with ⟨d, -, he⟩ | ⟨f, -, he⟩
    · exact ⟨_, he, fun _ => rfl⟩
    · exact ⟨_, he, fun _ => rfl⟩
  | close _ ds => exact ⟨_, (Logged.refl e).closeAll ds, Ledger.run_closed ds⟩
  | duplicate _ d => exact ⟨_, Host.events_duplicate e.host d, fun _ => rfl⟩
  | perform b args ctx => exact ⟨_, perform_logged ev b args ctx e, fun _ => rfl⟩
  | unopened ho =>
    obtain ⟨⟨evs, hlog, hopen⟩, -⟩ := openSession_opening ev ho
    refine ⟨evs, hlog, ?_⟩
    cases hopen with
    | refused _ _ => exact run_unopened _ _
  | remember _ status => exact ⟨[], by simp [Logged, events], fun _ => rfl⟩
  | report _ f => exact ⟨_, events_report e f, fun _ => rfl⟩

theorem startChild_ledger (argv : List String) (ctx : Context) (session : Option Session) (e : Engine σ) :
    ∃ evs, Logged e (ev.startChild argv ctx session e).engine evs ∧
      ∀ l : Ledger, l.run evs = some (l.owing (ev.startChild argv ctx session e).started) := by
  unfold startChild
  simp only
  split
  · rename_i f host hs
    exact ⟨_, Host.spawn_events hs, fun l => by rw [Ledger.owing_nil]; rfl⟩
  · rename_i pid host hs
    have hspawn := Host.spawn_events hs
    split
    · rename_i hbg
      refine ⟨[.spawned (request argv ctx session) (.ok pid), .detached pid], ?_, fun l => ?_⟩
      · rw [Logged]
        simp only [events] at hspawn ⊢
        rw [Host.events_detach, hspawn, List.append_assoc]
        rfl
      · have hbg : (request argv ctx session).background = true := hbg
        simp [Ledger.run_cons, Ledger.run_nil, Ledger.enter, hbg, Ledger.owing_nil]
    · rename_i hbg
      refine ⟨_, hspawn, fun l => ?_⟩
      have hbg : (request argv ctx session).background = false := by simpa [request] using hbg
      simp [Ledger.run_cons, Ledger.run_nil, Ledger.enter, hbg, Ledger.owing_singleton]

/-- **A course takes its children and nothing else.** Whatever else was started or opened on the way has been given
back at its end. -/
theorem Course.run_ledger (hexit : ev.settings.exitTerminates = false) {e e' : Engine σ} {ps : List Pid}
    (h : ev.Course e ps e') : ∃ evs, Logged e e' evs ∧ ∀ l : Ledger, l.run evs = some (l.owing ps) := by
  induction h with
  | refl e => exact ⟨[], Logged.refl e, fun l => by rw [Ledger.owing_nil]; rfl⟩
  | trans _ _ ih ih' =>
    obtain ⟨evs, hlog, hrun⟩ := ih
    obtain ⟨evs', hlog', hrun'⟩ := ih'
    refine ⟨evs ++ evs', hlog.trans hlog', fun l => ?_⟩
    rw [Ledger.run_append, hrun, Option.bind_some, hrun', Ledger.owing_append]
  | act ha =>
    obtain ⟨evs, hlog, hrun⟩ := ha.run_ledger
    exact ⟨evs, hlog, fun l => by rw [hrun, Ledger.owing_nil]⟩
  | child argv ctx session e => exact startChild_ledger argv ctx session e
  | @group ctx session e e' e'' ps ho hc ih =>
    obtain ⟨⟨opening, hlog, hopen⟩, he'⟩ := openSession_opening ev ho
    obtain ⟨launching, hlaunch, hrun⟩ := ih
    have hcap : e''.capture = e.capture := by
      rw [hc.capture, he']
      rfl
    obtain ⟨hdrain, -⟩ := drain_trace ev (e := e'') session fun h => by rw [hcap]; exact hopen.captured h
    obtain ⟨rs, hrs, -, hwait, -⟩ := waitAll_trace ev ps (ev.drain session e'').2
    refine ⟨_, ((hlog.trans hlaunch).trans hdrain).trans hwait, fun l => ?_⟩
    have hcomm : (l.holding session).owing ps = (l.owing ps).holding session := rfl
    rw [Ledger.run_append, Ledger.run_append, Ledger.run_append, hopen.run_ledger, Option.bind_some, hrun,
      Option.bind_some, hcomm, run_draining, Option.bind_some, Ledger.run_waited hrs, Ledger.owing_nil]
  | abandoned ht _ _ _ =>
    rw [hexit] at ht
    exact absurd ht Bool.false_ne_true

/-- a course that leaves no child leaves a settled log -/
theorem Course.settled (hexit : ev.settings.exitTerminates = false) {e e' : Engine σ} (h : ev.Course e [] e') :
    ∃ evs, Logged e e' evs ∧ Settled evs := by
  obtain ⟨evs, hlog, hrun⟩ := h.run_ledger hexit
  exact ⟨evs, hlog, Ledger.settled (by rw [hrun, Ledger.owing_nil])⟩

/-! ## a group launches, then drains, then waits -/

end Evaluation

namespace Event

/-- launching only starts children -/
theorem phase?_of_isLaunch {evs : List Event} (h : evs.all isLaunch = true) : ∀ n ∈ evs.filterMap phase?, n = 0 := by
  intro n hn
  obtain ⟨x, hx, hphase⟩ := List.mem_filterMap.1 hn
  have hlaunch := List.all_eq_true.1 h x hx
  cases x with
  | spawned request r => exact (Option.some.inj hphase).symm
  | drained s r => simp [isLaunch] at hlaunch
  | waited pid r => simp [isLaunch] at hlaunch
  | _ => simp [phase?] at hphase

end Event

namespace Evaluation

open Engine

variable {σ : Type} {ev : Evaluation σ}

theorem Opening.phase?_eq_nil {background delivered : Bool} {capture : Option (Option Bytes)}
    {r : Except Failure (Option Session)} {evs : List Event} (h : Opening background capture delivered r evs) :
    evs.filterMap Event.phase? = [] := by
  refine List.filterMap_eq_nil_iff.2 fun x hx => ?_
  rcases h.of_mem hx with ⟨_, rfl⟩ | ⟨_, rfl⟩ | ⟨_, rfl⟩ <;> rfl

theorem phase?_draining (drained : Except Failure Unit) (session : Option Session) :
    ∀ n ∈ (draining drained session).filterMap Event.phase?, n = 1 := by
  intro n hn
  obtain ⟨x, hx, hphase⟩ := List.mem_filterMap.1 hn
  rcases of_mem_draining hx with ⟨_, rfl⟩ | ⟨_, rfl⟩
  · exact (Option.some.inj hphase).symm
  · cases hphase

theorem phase?_waited (ps : List Pid) (rs : List (Except Failure Int)) :
    ∀ n ∈ (List.zipWith Event.waited ps rs).filterMap Event.phase?, n = 2 := by
  intro n hn
  obtain ⟨x, hx, hphase⟩ := List.mem_filterMap.1 hn
  obtain ⟨_, _, rfl⟩ := of_mem_waited hx
  exact (Option.some.inj hphase).symm

theorem GroupRun.ordered {ctx : Context} {e : Engine σ} {stages : List Stage} {r : Except Failure Int} {took : Bool}
    {evs : List Event} (h : ev.GroupRun ctx e stages r took evs) :
    (evs.filterMap Event.phase?).Pairwise (· ≤ ·) := by
  have hconst : ∀ {l : List Nat} {k : Nat}, (∀ n ∈ l, n = k) → l.Pairwise (· ≤ ·) := by
    intro l k hl
    refine List.pairwise_of_forall_mem_list fun a ha b hb => ?_
    rw [hl a ha, hl b hb]
  cases h with
  | unopened hopen =>
    rw [hopen.phase?_eq_nil]
    exact .nil
  | terminated _ hopen htrace =>
    rw [List.filterMap_append, hopen.phase?_eq_nil, List.nil_append]
    exact hconst (Event.phase?_of_isLaunch htrace.isLaunch)
  | @settled session o ps took opening launching drained rs hopen htrace _ =>
    have hl := Event.phase?_of_isLaunch htrace.isLaunch
    have hd := phase?_draining drained session
    have hw := phase?_waited ps rs
    simp only [List.filterMap_append, hopen.phase?_eq_nil, List.nil_append]
    refine List.pairwise_append.2 ⟨List.pairwise_append.2 ⟨hconst hl, hconst hd, ?_⟩, hconst hw, ?_⟩
    · intro a ha b hb
      rw [hl a ha, hd b hb]
      exact Nat.zero_le 1
    · intro a ha b hb
      rw [hw b hb]
      rcases List.mem_append.1 ha with ha | ha
      · rw [hl a ha]
        exact Nat.zero_le 2
      · rw [hd a ha]
        exact Nat.le_succ 1

variable (ev)

/-- **What the shell takes it gives back.** If `exit` does not end the host, the log of evaluating any tree is settled,
whatever the backend did: every child of the foreground was waited for once and no other, every child of the background
was let go once and no other, and every session that was opened was drained once. On a line that was read this is so of
each statement, and there the children are started before the session is drained, and the session is drained before a
child is waited for. -/
theorem execute_settles (hexit : ev.settings.exitTerminates = false) (t : Tree) (ctx : Context) (e : Engine σ) :
    (∃ evs, Logged e (ev.execute t ctx e).2 evs ∧ Settled evs) ∧
    ∀ ts, Line.parse ts = .ok t →
      ev.execute t ctx e = concluded e (ev.steps ctx t.statements e) ∧
      ∀ st ∈ ev.steps ctx t.statements e, ∃ evs, Logged st.before st.after evs ∧ Settled evs ∧
        (evs.filterMap Event.phase?).Pairwise (· ≤ ·) := by
  refine ⟨(execute_course t ctx e).settled hexit, fun ts ht => ?_⟩
  have hline : t.IsLine := (Line.parse_eq_ok_iff.1 ht).1.isLine
  refine ⟨execute_eq_concluded ev hline ctx e, fun st hst => ?_⟩
  obtain ⟨s, hs, e', -, rfl⟩ := mem_steps ev hst
  obtain ⟨evs, hlog, hsettled⟩ := (step_course ev s ctx e').settled hexit
  refine ⟨evs, hlog, hsettled, ?_⟩
  obtain ⟨took, ran, hrun, hran, -⟩ := step_run ev (hline.isGroup s hs) ctx e'
  have hphase : ((ev.step ctx s e').failure?.toList.map Event.reported).filterMap Event.phase? = [] := by
    cases (ev.step ctx s e').failure? <;> rfl
  rw [hlog.unique (hran.trans (ended_logged _)), List.filterMap_append, hphase, List.append_nil]
  exact hrun.ordered

/-- A background statement inside a pipe, as no line spells it, and a program that cannot be waited for. -/
theorem execute_settles_nested :
    ∃ evs, Logged (capturing [("b", { waitFault := some (.wait .writerFull) })])
      ((scripted "a&b").execute (.pipe (.ended (.command [⟨0, 1⟩]) .background) (.command [⟨2, 3⟩])) {}
        (capturing [("b", { waitFault := some (.wait .writerFull) })])).2 evs ∧ Settled evs :=
  (execute_settles (scripted "a&b") rfl _ {} _).1

end Evaluation

end LineShell
