/-
The grammar of command lines, apart from any reader, and the shape of the trees that it gives.

    line     ::= group [ ( '&' | ';' ) [ line ] ]
    group    ::= stage [ '|' group ]
    stage    ::= command [ ( '>' | '<' ) word ]
    command  ::= word+

`SpellsLine` and its parts say which tokens spell which tree, one constructor for each form of a rule. `Tree.IsLine` and
its parts are the shapes that come out, and `Tree.leaves` lists the words and operators of a tree again.

- `SpellsLine.leaves`: nothing is lost, the leaves of a tree are the tokens that spell it.
- `SpellsLine.isLine`: a tree that is spelt has the shape of a line.

A statement of a tree is a group and whether it runs in the background; a stage of a group is a command and its
redirection. Both are read off any tree, in order.
-/
import LineShell.Line.Parser

namespace LineShell

/-! ## statements and stages -/

/-- one statement of a line -/
structure Statement where
  group : Tree
  background : Bool
  deriving DecidableEq, Repr

/-- one stage of a group -/
structure Stage where
  words : List Span
  redirection : Option (Direction × Span)
  deriving DecidableEq, Repr

namespace Tree

/-- the statements of a tree, in order -/
def statements : Tree → List Statement
  | ended left sep => [⟨left, sep = .background⟩]
  | chained left sep right => ⟨left, sep = .background⟩ :: right.statements
  | group => [⟨group, false⟩]

/-- the stages of a group, in order -/
def stages : Tree → List Stage
  | command words => [⟨words, none⟩]
  | redirect direction target (command words) => [⟨words, some (direction, target)⟩]
  | pipe left right => left.stages ++ right.stages
  | _ => []

/-- the k-th statement, counted from 1, with p stages has k + p at most `room` -/
def FitsIn (t : Tree) (room : Nat) : Prop :=
  ∀ k s, t.statements[k]? = some s → (k + 1) + s.group.stages.length ≤ room

end Tree

/-! ## the shape of trees -/

namespace Tree

/-- at least one word -/
inductive IsCommand : Tree → Prop
  | words {ws : List Span} (nonempty : ws ≠ []) : IsCommand (.command ws)

/-- a command, perhaps with one redirection around it -/
inductive IsStage : Tree → Prop
  | plain {t : Tree} : IsCommand t → IsStage t
  | redirected {t : Tree} (d : Direction) (target : Span) : IsCommand t → IsStage (.redirect d target t)

/-- a chain of stages that leans to the right -/
inductive IsGroup : Tree → Prop
  | last {t : Tree} : IsStage t → IsGroup t
  | piped {left right : Tree} : IsStage left → IsGroup right → IsGroup (.pipe left right)

/-- a chain of statements that leans to the right, each of them a group -/
inductive IsLine : Tree → Prop
  | last {t : Tree} : IsGroup t → IsLine t
  | ended {left : Tree} (sep : Separator) : IsGroup left → IsLine (.ended left sep)
  | chained {left right : Tree} (sep : Separator) : IsGroup left → IsLine right → IsLine (.chained left sep right)

theorem IsStage.length_stages {t : Tree} (h : t.IsStage) : t.stages.length = 1 := by
  cases h with
  | plain hc => cases hc; rfl
  | redirected d target hc => cases hc; rfl

theorem IsGroup.stages_ne_nil {t : Tree} (h : t.IsGroup) : t.stages ≠ [] := by
  cases h with
  | last hs => exact List.ne_nil_of_length_eq_add_one hs.length_stages
  | piped hs _ => exact List.append_ne_nil_of_left_ne_nil (List.ne_nil_of_length_eq_add_one hs.length_stages) _

theorem IsGroup.isStatement {t : Tree} (h : t.IsGroup) : t.isStatement = false := by
  cases h with
  | last hs =>
    cases hs with
    | plain hc => cases hc; rfl
    | redirected d target hc => rfl
  | piped hl hr => rfl

theorem IsGroup.statements {t : Tree} (h : t.IsGroup) : t.statements = [⟨t, false⟩] := by
  have hs := h.isStatement
  cases t with
  | ended left sep => simp [Tree.isStatement] at hs
  | chained left sep right => simp [Tree.isStatement] at hs
  | _ => rfl

theorem IsLine.statements_ne_nil {t : Tree} (h : t.IsLine) : t.statements ≠ [] := by
  cases h with
  | last hg => simp [hg.statements]
  | ended sep hg => simp [Tree.statements]
  | chained sep hg hr => simp [Tree.statements]

theorem IsLine.isGroup {t : Tree} (h : t.IsLine) : ∀ s ∈ t.statements, s.group.IsGroup := by
  induction h with
  | last hg => simpa [hg.statements] using hg
  | ended sep hg => simpa [Tree.statements] using hg
  | chained sep hg _ ih =>
    intro s hs
    rcases List.mem_cons.1 hs with rfl | hs
    · exact hg
    · exact ih s hs

/-! ### room -/

theorem IsGroup.fitsIn {t : Tree} (h : t.IsGroup) {room : Nat} : t.FitsIn (room + 1) ↔ t.stages.length ≤ room := by
  refine ⟨fun hf => ?_, fun hl k s hs => ?_⟩
  · have := hf 0 ⟨t, false⟩ (by simp [h.statements])
    simp only at this; omega
  · rw [h.statements] at hs
    obtain ⟨hk, rfl⟩ := List.getElem?_eq_some_iff.1 hs
    simp at hk ⊢; omega

theorem fitsIn_ended {left : Tree} {sep : Separator} {room : Nat} :
    (ended left sep).FitsIn (room + 1) ↔ left.stages.length ≤ room := by
  refine ⟨fun hf => ?_, fun hl k s hs => ?_⟩
  · have := hf 0 _ rfl
    simp only at this; omega
  · obtain ⟨hk, rfl⟩ := List.getElem?_eq_some_iff.1 hs
    simp [statements] at hk ⊢; omega

theorem fitsIn_chained {left right : Tree} {sep : Separator} {room : Nat} :
    (chained left sep right).FitsIn (room + 1) ↔ left.stages.length ≤ room ∧ right.FitsIn room := by
  constructor
  · intro hf
    refine ⟨?_, fun k s hs => ?_⟩
    · have := hf 0 _ rfl
      simp only at this; omega
    · have := hf (k + 1) s (by simpa [statements] using hs)
      omega
  · rintro ⟨hl, hr⟩ k s hs
    cases k with
    | zero =>
      obtain rfl : _ = s := Option.some.inj hs
      simp only; omega
    | succ k =>
      have := hr k s (by simpa [statements] using hs)
      omega

theorem FitsIn.mono {t : Tree} {room room' : Nat} (h : t.FitsIn room) (hle : room ≤ room') : t.FitsIn room' :=
  fun k s hs => Nat.le_trans (h k s hs) hle

/-- every line fits if there is enough room -/
theorem IsLine.exists_fitsIn {t : Tree} (h : t.IsLine) : ∃ room, t.FitsIn room := by
  induction h with
  | last hg => exact ⟨_, hg.fitsIn.2 (Nat.le_refl _)⟩
  | ended sep hg => exact ⟨_, fitsIn_ended.2 (Nat.le_refl _)⟩
  | @chained left right sep hg _ ih =>
    obtain ⟨room, hr⟩ := ih
    exact ⟨max left.stages.length room + 1,
      fitsIn_chained.2 ⟨Nat.le_max_left _ _, hr.mono (Nat.le_max_right _ _)⟩⟩

/-- no line fits without room, for it has a first statement -/
theorem IsLine.not_fitsIn_zero {t : Tree} (h : t.IsLine) : ¬ t.FitsIn 0 := by
  intro hf
  obtain ⟨s, rest, hs⟩ := List.exists_cons_of_ne_nil h.statements_ne_nil
  have := hf 0 s (by simp [hs])
  omega

end Tree

/-! ## leaves -/

/-- the operator of a redirection -/
def Direction.operator : Direction → TokenKind
  | input => .less
  | output => .great

/-- the operator that ends a statement -/
def Separator.operator : Separator → TokenKind
  | sequence => .semicolon
  | background => .amp

/-- what is left of a token when a tree is read from it: where a word lies, or which operator it is -/
inductive Leaf where
  | word (span : Span)
  | operator (kind : TokenKind)
  deriving DecidableEq, Repr

/-- the leaf of a token -/
def Token.leaf (t : Token) : Leaf := if t.kind = .word then .word t.span else .operator t.kind

theorem Token.leaf_word {t : Token} (h : t.kind = .word) : t.leaf = .word t.span := by simp [leaf, h]

theorem Token.leaf_operator {t : Token} {k : TokenKind} (h : t.kind = k) (hk : k ≠ .word) : t.leaf = .operator k := by
  simp [leaf, h, hk]

theorem Token.leaves_words {ws : List Token} (h : ∀ w ∈ ws, w.kind = .word) :
    ws.map Token.leaf = (ws.map (·.span)).map .word := by
  rw [List.map_map]
  exact List.map_congr_left fun w hw => leaf_word (h w hw)

/-- the words and operators of a tree, left to right -/
def Tree.leaves : Tree → List Leaf
  | command words => words.map .word
  | redirect direction target inner => inner.leaves ++ [.operator direction.operator, .word target]
  | pipe left right => left.leaves ++ .operator .pipe :: right.leaves
  | ended left sep => left.leaves ++ [.operator sep.operator]
  | chained left sep right => left.leaves ++ .operator sep.operator :: right.leaves

theorem Direction.operator_ne_word (d : Direction) : d.operator ≠ .word := by cases d <;> decide

theorem Separator.operator_ne_word (s : Separator) : s.operator ≠ .word := by cases s <;> decide

theorem Direction.operator_ne_end (d : Direction) : d.operator ≠ .endOfLine := by cases d <;> decide

theorem Separator.operator_ne_end (s : Separator) : s.operator ≠ .endOfLine := by cases s <;> decide

namespace Line

/-! ## the grammar -/

/-- at least one word -/
inductive SpellsCommand : List Token → Tree → Prop
  | words {ws : List Token} (nonempty : ws ≠ []) (isWord : ∀ w ∈ ws, w.kind = .word) :
      SpellsCommand ws (.command (ws.map (·.span)))

/-- a command, and perhaps a redirection behind it -/
inductive SpellsStage : List Token → Tree → Prop
  | plain {ts : List Token} {t : Tree} : SpellsCommand ts t → SpellsStage ts t
  | redirected {ts : List Token} {t : Tree} {op target : Token} {d : Direction} :
      SpellsCommand ts t → op.kind = d.operator → target.kind = .word →
        SpellsStage (ts ++ [op, target]) (.redirect d target.span t)

/-- stages joined by `|` -/
inductive SpellsGroup : List Token → Tree → Prop
  | last {ts : List Token} {t : Tree} : SpellsStage ts t → SpellsGroup ts t
  | piped {ts us : List Token} {op : Token} {left right : Tree} :
      SpellsStage ts left → op.kind = .pipe → SpellsGroup us right → SpellsGroup (ts ++ op :: us) (.pipe left right)

/-- statements, each but perhaps the last one ended by `;` or `&` -/
inductive SpellsLine : List Token → Tree → Prop
  | last {ts : List Token} {t : Tree} : SpellsGroup ts t → SpellsLine ts t
  | ended {ts : List Token} {op : Token} {left : Tree} {sep : Separator} :
      SpellsGroup ts left → op.kind = sep.operator → SpellsLine (ts ++ [op]) (.ended left sep)
  | chained {ts us : List Token} {op : Token} {left right : Tree} {sep : Separator} :
      SpellsGroup ts left → op.kind = sep.operator → SpellsLine us right →
        SpellsLine (ts ++ op :: us) (.chained left sep right)

/-! ### the shape of what is spelt -/

theorem SpellsCommand.isCommand {ts : List Token} {t : Tree} (h : SpellsCommand ts t) : t.IsCommand := by
  cases h with
  | words nonempty isWord => exact .words (by simpa using nonempty)

theorem SpellsStage.isStage {ts : List Token} {t : Tree} (h : SpellsStage ts t) : t.IsStage := by
  cases h with
  | plain hc => exact .plain hc.isCommand
  | redirected hc hop hw => exact .redirected _ _ hc.isCommand

theorem SpellsGroup.isGroup {ts : List Token} {t : Tree} (h : SpellsGroup ts t) : t.IsGroup := by
  induction h with
  | last hs => exact .last hs.isStage
  | piped hs hop _ ih => exact .piped hs.isStage ih

theorem SpellsLine.isLine {ts : List Token} {t : Tree} (h : SpellsLine ts t) : t.IsLine := by
  induction h with
  | last hg => exact .last hg.isGroup
  | ended hg hop => exact .ended _ hg.isGroup
  | chained hg hop _ ih => exact .chained _ hg.isGroup ih

/-! ### nothing is lost -/

theorem SpellsCommand.leaves {ts : List Token} {t : Tree} (h : SpellsCommand ts t) : t.leaves = ts.map Token.leaf := by
  cases h with
  | words nonempty isWord => rw [Token.leaves_words isWord]; rfl

theorem SpellsStage.leaves {ts : List Token} {t : Tree} (h : SpellsStage ts t) : t.leaves = ts.map Token.leaf := by
  cases h with
  | plain hc => exact hc.leaves
  | redirected hc hop hw =>
    simp only [Tree.leaves, List.map_append, List.map_cons, List.map_nil, hc.leaves]
    rw [Token.leaf_operator hop (Direction.operator_ne_word _), Token.leaf_word hw]

theorem SpellsGroup.leaves {ts : List Token} {t : Tree} (h : SpellsGroup ts t) : t.leaves = ts.map Token.leaf := by
  induction h with
  | last hs => exact hs.leaves
  | piped hs hop _ ih =>
    simp only [Tree.leaves, List.map_append, List.map_cons, hs.leaves, ih]
    rw [Token.leaf_operator hop (by decide)]

theorem SpellsLine.leaves {ts : List Token} {t : Tree} (h : SpellsLine ts t) : t.leaves = ts.map Token.leaf := by
  induction h with
  | last hg => exact hg.leaves
  | ended hg hop =>
    simp only [Tree.leaves, List.map_append, List.map_cons, List.map_nil, hg.leaves]
    rw [Token.leaf_operator hop (Separator.operator_ne_word _)]
  | chained hg hop _ ih =>
    simp only [Tree.leaves, List.map_append, List.map_cons, hg.leaves, ih]
    rw [Token.leaf_operator hop (Separator.operator_ne_word _)]

/-! ### no end of line is spelt -/

theorem SpellsCommand.kind_ne_end {ts : List Token} {t : Tree} (h : SpellsCommand ts t) :
    ∀ x ∈ ts, x.kind ≠ .endOfLine := by
  cases h with
  | words nonempty isWord => intro x hx; rw [isWord x hx]; decide

theorem SpellsStage.kind_ne_end {ts : List Token} {t : Tree} (h : SpellsStage ts t) :
    ∀ x ∈ ts, x.kind ≠ .endOfLine := by
  cases h with
  | plain hc => exact hc.kind_ne_end
  | redirected hc hop hw =>
    intro x hx
    simp only [List.mem_append, List.mem_cons, List.not_mem_nil, or_false] at hx
    rcases hx with hx | rfl | rfl
    · exact hc.kind_ne_end x hx
    · rw [hop]; exact Direction.operator_ne_end _
    · rw [hw]; decide

theorem SpellsGroup.kind_ne_end {ts : List Token} {t : Tree} (h : SpellsGroup ts t) :
    ∀ x ∈ ts, x.kind ≠ .endOfLine := by
  induction h with
  | last hs => exact hs.kind_ne_end
  | piped hs hop _ ih =>
    intro x hx
    rcases List.mem_append.1 hx with hx | hx
    · exact hs.kind_ne_end x hx
    · rcases List.mem_cons.1 hx with rfl | hx
      · rw [hop]; decide
      · exact ih x hx

theorem SpellsLine.kind_ne_end {ts : List Token} {t : Tree} (h : SpellsLine ts t) :
    ∀ x ∈ ts, x.kind ≠ .endOfLine := by
  induction h with
  | last hg => exact hg.kind_ne_end
  | ended hg hop =>
    intro x hx
    simp only [List.mem_append, List.mem_cons, List.not_mem_nil, or_false] at hx
    rcases hx with hx | rfl
    · exact hg.kind_ne_end x hx
    · rw [hop]; exact Separator.operator_ne_end _
  | chained hg hop _ ih =>
    intro x hx
    rcases List.mem_append.1 hx with hx | hx
    · exact hg.kind_ne_end x hx
    · rcases List.mem_cons.1 hx with rfl | hx
      · rw [hop]; exact Separator.operator_ne_end _
      · exact ih x hx

end Line

end LineShell
