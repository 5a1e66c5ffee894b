/-
The same words in another line.

The words of a tree are ranges of a line, and evaluating a tree depends on them only through the texts that they
cover. `Tree.relocate f` moves every range of a tree. If in another line each of them covers the text that it covered
before, then the moved tree does in that line what the tree did in its own.

- `Span.text_append_left` / `Span.text_append_right`: ranges of a line as ranges of a longer one.
- `launchFrom_relocate`: launching any tree whose texts are the same.
- `execute_relocate`: evaluating it.
-/
import LineShell.Proofs.Grammar
import LineShell.Proofs.Pieces
import LineShell.Engine

namespace LineShell

/-! ## ranges of a longer line -/

theorem width_eq_zero {cs : List Char} : width cs = 0 ↔ cs = [] := by
  cases cs with
  | nil => simp
  | cons c cs =>
    have hc := c.utf8Size_pos
    simp only [width_cons, reduceCtorEq, iff_false]
    omega

namespace Span

/-- the range `n` bytes further on -/
def shift (n : Nat) (s : Span) : Span := ⟨s.start + n, s.stop + n⟩

/-- a range that fits lies between the characters before it and those behind it -/
theorem Fits.exists_append {s : Span} {line : String} (h : s.Fits line) :
    ∃ before mid after, line.toList = before ++ mid ++ after ∧ s = ⟨width before, width before + width mid⟩ := by
  obtain ⟨hle, hstart, hstop⟩ := h
  obtain ⟨before, rest, hline, hbefore⟩ := String.Pos.Raw.isValid_iff_exists_append.1 hstart
  obtain ⟨front, after, hline', hfront⟩ := String.Pos.Raw.isValid_iff_exists_append.1 hstop
  have hstart : s.start = width before.toList := by
    rw [← utf8ByteSize_eq_width]
    exact congrArg String.Pos.Raw.byteIdx hbefore
  have hstop : s.stop = width front.toList := by
    rw [← utf8ByteSize_eq_width]
    exact congrArg String.Pos.Raw.byteIdx hfront
  have hlists : before.toList ++ rest.toList = front.toList ++ after.toList := by
    rw [← String.toList_append, ← String.toList_append, ← hline, ← hline']
  rcases List.append_eq_append_iff.1 hlists with ⟨mid, hmid, -⟩ | ⟨mid, hmid, -⟩
  · refine ⟨before.toList, mid, after.toList, ?_, ?_⟩
    · rw [← hmid, ← String.toList_append, ← hline']
    · obtain ⟨start, stop⟩ := s
      rw [hmid, width_append] at hstop
      simp only at hstart hstop
      rw [hstart, hstop]
  · -- the range ends where it begins
    rw [hmid, width_append] at hstart
    obtain rfl : mid = [] := width_eq_zero.1 (by omega)
    rw [width_nil, Nat.add_zero] at hstart
    refine ⟨front.toList, [], after.toList, ?_, ?_⟩
    · rw [List.append_nil, ← String.toList_append, ← hline']
    · obtain ⟨start, stop⟩ := s
      simp only at hstart hstop
      rw [hstart, hstop, width_nil, Nat.add_zero]

theorem text_append_left {s : Span} {line : String} (h : s.Fits line) (more : String) :
    s.text (line ++ more) = s.text line := by
  obtain ⟨before, mid, after, hline, rfl⟩ := h.exists_append
  have hlonger : (line ++ more).toList = before ++ mid ++ (after ++ more.toList) := by
    rw [String.toList_append, hline, List.append_assoc (before ++ mid)]
  rw [(text_of_append hline).2, (text_of_append hlonger).2]

theorem text_append_right {s : Span} {line : String} (h : s.Fits line) (front : String) :
    (s.shift front.utf8ByteSize).text (front ++ line) = s.text line := by
  obtain ⟨before, mid, after, hline, rfl⟩ := h.exists_append
  have hlonger : (front ++ line).toList = (front.toList ++ before) ++ mid ++ after := by
    rw [String.toList_append, hline]
    simp only [List.append_assoc]
  have hshift : shift front.utf8ByteSize ⟨width before, width before + width mid⟩ =
      ⟨width (front.toList ++ before), width (front.toList ++ before) + width mid⟩ := by
    rw [shift, width_append, utf8ByteSize_eq_width]
    simp only [mk.injEq]
    omega
  rw [hshift, (text_of_append hline).2, (text_of_append hlonger).2]

end Span

/-! ## trees that are moved -/

namespace Tree

/-- the ranges of a tree, left to right -/
def spans : Tree → List Span
  | command words => words
  | redirect _ target inner => inner.spans ++ [target]
  | pipe left right => left.spans ++ right.spans
  | ended left _ => left.spans
  | chained left _ right => left.spans ++ right.spans

/-- the tree with every range moved -/
def relocate (f : Span → Span) : Tree → Tree
  | command words => command (words.map f)
  | redirect direction target inner => redirect direction (f target) (inner.relocate f)
  | pipe left right => pipe (left.relocate f) (right.relocate f)
  | ended left sep => ended (left.relocate f) sep
  | chained left sep right => chained (left.relocate f) sep (right.relocate f)

/-- the ranges of a tree are those of the words among its leaves -/
theorem word_mem_leaves {t : Tree} {s : Span} (h : s ∈ t.spans) : Leaf.word s ∈ t.leaves := by
  induction t with
  | command words => exact List.mem_map_of_mem h
  | redirect direction target inner ih =>
    rcases List.mem_append.1 h with h | h
    · exact List.mem_append_left _ (ih h)
    · rw [List.mem_singleton.1 h]
      simp [leaves]
  | pipe left right ihl ihr =>
    rcases List.mem_append.1 h with h | h
    · exact List.mem_append_left _ (ihl h)
    · exact List.mem_append_right _ (List.mem_cons_of_mem _ (ihr h))
  | ended left sep ih => exact List.mem_append_left _ (ih h)
  | chained left sep right ihl ihr =>
    rcases List.mem_append.1 h with h | h
    · exact List.mem_append_left _ (ihl h)
    · exact List.mem_append_right _ (List.mem_cons_of_mem _ (ihr h))

theorem relocate_id (t : Tree) : t.relocate id = t := by
  induction t <;> simp_all [relocate]

theorem isStatement_relocate (f : Span → Span) (t : Tree) : (t.relocate f).isStatement = t.isStatement := by
  cases t <;> rfl

/-- moving a tree changes none of the numbers of its statements and stages -/
theorem length_stages_relocate (f : Span → Span) (t : Tree) : (t.relocate f).stages.length = t.stages.length := by
  induction t with
  | redirect direction target inner ih => cases inner <;> rfl
  | pipe left right ihl ihr =>
    simp only [relocate, stages, List.length_append]
    rw [ihl, ihr]
  | _ => rfl

theorem statements_relocate (f : Span → Span) (t : Tree) :
    (t.relocate f).statements = t.statements.map fun s => ⟨s.group.relocate f, s.background⟩ := by
  induction t with
  | chained left sep right ihl ihr =>
    simp only [relocate, statements, List.map_cons]
    rw [ihr]
  | _ => rfl

end Tree

/-! ## evaluating a tree that is moved -/

namespace Evaluation

variable {σ : Type} (ev : Evaluation σ) (line : String)

/-- the same evaluation on another line -/
def onLine : Evaluation σ := { ev with line }

theorem waitAll_onLine (pids : List Pid) (e : Engine σ) : (ev.onLine line).waitAll pids e = ev.waitAll pids e := by
  induction pids generalizing e with
  | nil => rfl
  | cons pid rest ih =>
    simp only [waitAll, ih]
    rfl

/-- only commands and targets are read from the line, and both are read by launching -/
theorem executeGroup_onLine (launch : Launcher σ) (ctx : Context) (e : Engine σ) :
    (ev.onLine line).executeGroup launch ctx e = ev.executeGroup launch ctx e := by
  have hsettle : ∀ session (l : Launched σ), (ev.onLine line).settle session l = ev.settle session l := by
    intro session l
    simp only [settle, waitAll_onLine]
    rfl
  simp only [executeGroup, runGroup, hsettle]
  rfl

theorem executeStatement_onLine (launch : Launcher σ) (sep : Separator) (ctx : Context) (e : Engine σ) :
    (ev.onLine line).executeStatement launch sep ctx e = ev.executeStatement launch sep ctx e := by
  cases sep with
  | sequence => exact executeGroup_onLine ev line launch ctx e
  | background => simp only [executeStatement, executeGroup_onLine]

theorem executeWith_onLine (isStatement : Bool) (launch : Launcher σ) (ctx : Context) (e : Engine σ) :
    (ev.onLine line).executeWith isStatement launch ctx e = ev.executeWith isStatement launch ctx e := by
  cases isStatement with
  | true => rfl
  | false => exact executeGroup_onLine ev line launch ctx e

variable {ev line}

/-- launching a tree depends on its ranges through their texts only -/
theorem launchFrom_relocate {f : Span → Span} {t : Tree} (h : ∀ s ∈ t.spans, (f s).text line = s.text ev.line)
    (inlet : Option Descriptor) : (ev.onLine line).launchFrom (t.relocate f) inlet = ev.launchFrom t inlet := by
  induction t generalizing inlet with
  | command words =>
    have htexts : (words.map f).map (·.text (ev.onLine line).line) = words.map (·.text ev.line) := by
      rw [List.map_map]
      exact List.map_congr_left h
    funext ctx session e
    simp only [Tree.relocate, launchFrom, launchCommand, htexts]
    rfl
  | redirect direction target inner ih =>
    have htarget : (f target).text (ev.onLine line).line = target.text ev.line := h target (by simp [Tree.spans])
    have hinner := ih (fun s hs => h s (List.mem_append_left _ hs)) none
    funext ctx session e
    simp only [Tree.relocate, launchFrom, launchRedirected, hinner, htarget]
  | pipe left right ihl ihr =>
    have hleft := ihl (fun s hs => h s (List.mem_append_left _ hs)) none
    have hright := ihr fun s hs => h s (List.mem_append_right _ hs)
    funext ctx session e
    simp only [Tree.relocate, launchFrom, hleft, hright]
    rfl
  | ended left sep ih =>
    have hleft := ih h none
    funext ctx session e
    simp only [Tree.relocate, launchFrom, hleft, executeStatement_onLine]
  | chained left sep right ihl ihr =>
    have hleft := ihl (fun s hs => h s (List.mem_append_left _ hs)) none
    have hright := ihr (fun s hs => h s (List.mem_append_right _ hs)) none
    funext ctx session e
    simp only [Tree.relocate, launchFrom, hleft, hright, executeStatement_onLine, executeWith_onLine,
      Tree.isStatement_relocate]

theorem execute_relocate {f : Span → Span} {t : Tree} (h : ∀ s ∈ t.spans, (f s).text line = s.text ev.line)
    (ctx : Context) (e : Engine σ) : (ev.onLine line).execute (t.relocate f) ctx e = ev.execute t ctx e := by
  have hlaunch : (ev.onLine line).launch (t.relocate f) = ev.launch t := launchFrom_relocate h none
  rw [execute, execute, hlaunch, Tree.isStatement_relocate, executeWith_onLine]

end Evaluation

end LineShell
