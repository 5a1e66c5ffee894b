/-
Writing a command line so that it is read back.

    'cat' 'notes' < "john's" | 'sort' '-r' ; 'sleep' '1' &

A wording is a command line given by the texts of its words, in the shape that the grammar allows and in no other.
`LineWording.render` writes it down: every word in quotes, and one space between any two words or operators.
`LineWording.ofTree?` takes the wording from a tree and the line that the tree was read from.

- `LineWording.spelt`: tokens that read as a wording says spell a tree with that wording.
- `read_render`: a wording that is written down is read back as it was.
-/
import LineShell.Proofs.Lexing
import LineShell.Proofs.Parsing

namespace LineShell

/-! ## wordings -/

/-- a command, its arguments and its redirection -/
structure StageWording where
  program : String
  args : List String
  redirection : Option (Direction × String)
  deriving DecidableEq, Repr

/-- stages joined by `|` -/
inductive GroupWording where
  | last (stage : StageWording)
  | piped (stage : StageWording) (rest : GroupWording)
  deriving DecidableEq, Repr

/-- statements, each but perhaps the last one ended by `;` or `&` -/
inductive LineWording where
  | last (group : GroupWording)
  | ended (group : GroupWording) (sep : Separator)
  | chained (group : GroupWording) (sep : Separator) (rest : LineWording)
  deriving DecidableEq, Repr

/-- the command word and its arguments -/
def StageWording.argv (s : StageWording) : List String := s.program :: s.args

/-- every word of a stage, the target of its redirection included -/
def StageWording.texts (s : StageWording) : List String := s.argv ++ (s.redirection.map Prod.snd).toList

/-- the stages of a group, in order -/
def GroupWording.stages : GroupWording → List StageWording
  | last stage => [stage]
  | piped stage rest => stage :: rest.stages

namespace LineWording

/-- the groups of a line, in order -/
def groups : LineWording → List GroupWording
  | last group => [group]
  | ended group _ => [group]
  | chained group _ rest => group :: rest.groups

/-- the stages of a line, in order -/
def stages (w : LineWording) : List StageWording := w.groups.flatMap GroupWording.stages

/-- the k-th statement, counted from 1, with p stages has k + p at most `room` -/
def FitsIn (w : LineWording) (room : Nat) : Prop :=
  ∀ k g, w.groups[k]? = some g → (k + 1) + g.stages.length ≤ room

end LineWording

/-! ## the wording of a tree -/

/-- the wording of a stage read from `line` -/
def StageWording.ofTree? (line : String) : Tree → Option StageWording
  | .command (first :: rest) => some ⟨first.text line, rest.map (·.text line), none⟩
  | .redirect d target (.command (first :: rest)) =>
    some ⟨first.text line, rest.map (·.text line), some (d, target.text line)⟩
  | _ => none

/-- the wording of a group read from `line` -/
def GroupWording.ofTree? (line : String) : Tree → Option GroupWording
  | .pipe left right => do
    let stage ← StageWording.ofTree? line left
    let rest ← ofTree? line right
    return .piped stage rest
  | t => (StageWording.ofTree? line t).map .last

/-- the wording of a tree read from `line` -/
def LineWording.ofTree? (line : String) : Tree → Option LineWording
  | .ended left sep => (GroupWording.ofTree? line left).map (.ended · sep)
  | .chained left sep right => do
    let group ← GroupWording.ofTree? line left
    let rest ← ofTree? line right
    return .chained group sep rest
  | t => (GroupWording.ofTree? line t).map .last

/-- the redirection of a stage read from `line`, with the text of its target -/
def Stage.redirectionIn (line : String) (s : Stage) : Option (Direction × String) :=
  s.redirection.map fun r => (r.1, r.2.text line)

/-- the redirection, if any, of every stage in a tree read from `line`, left to right -/
def Tree.redirections (t : Tree) (line : String) : List (Option (Direction × String)) :=
  (t.statements.flatMap (·.group.stages)).map (Stage.redirectionIn line)

/-! ## writing a wording down -/

/-- a word that some quotes can hold -/
def Quotable (text : String) : Prop := ¬ ('\'' ∈ text.toList ∧ '"' ∈ text.toList)

instance (text : String) : Decidable (Quotable text) := by
  unfold Quotable; infer_instance

/-- the quote that a word is written with: a double one around a single one -/
def quoteFor (text : String) : Char := if '\'' ∈ text.toList then '"' else '\''

namespace Line.Piece

/-- a word, in quotes -/
def ofText (text : String) : Piece := quoted (quoteFor text) text.toList

/-- the operator of a redirection -/
def ofDirection : Direction → Piece
  | .input => operator '<' .less
  | .output => operator '>' .great

/-- the operator that ends a statement -/
def ofSeparator : Separator → Piece
  | .sequence => operator ';' .semicolon
  | .background => operator '&' .amp

end Line.Piece

open Line (Piece Splits)

/-- the words and operators of a stage -/
def StageWording.pieces (s : StageWording) : List Piece :=
  s.argv.map .ofText ++
    match s.redirection with
    | none => []
    | some (d, target) => [.ofDirection d, .ofText target]

/-- the words and operators of a group -/
def GroupWording.pieces : GroupWording → List Piece
  | last stage => stage.pieces
  | piped stage rest => stage.pieces ++ .operator '|' .pipe :: rest.pieces

namespace LineWording

/-- the words and operators of a line -/
def pieces : LineWording → List Piece
  | last group => group.pieces
  | ended group sep => group.pieces ++ [.ofSeparator sep]
  | chained group sep rest => group.pieces ++ .ofSeparator sep :: rest.pieces

/-- the line of a wording, with a space between any two words or operators -/
def render (w : LineWording) : String := " ".intercalate (w.pieces.map fun p => String.ofList p.chars)

end LineWording

/-! ## the line of a wording falls into its pieces -/

theorem isQuote_quoteFor (text : String) : isQuote (quoteFor text) = true := by
  unfold quoteFor
  split <;> rfl

theorem Quotable.quoteFor_notMem {text : String} (h : Quotable text) : quoteFor text ∉ text.toList := by
  unfold quoteFor
  split
  case isTrue hsingle => exact fun hdouble => h ⟨hsingle, hdouble⟩
  case isFalse hsingle => exact hsingle

namespace Line.Piece

/-- the piece is what it says, wherever it stands -/
def Stands (p : Piece) : Prop := p.WellFormed ∧ ∀ cs, p.EndsBefore cs

theorem stands_ofText {text : String} (h : Quotable text) : (ofText text).Stands :=
  ⟨⟨isQuote_quoteFor text, h.quoteFor_notMem⟩, fun _ => trivial⟩

theorem stands_operator {c : Char} {k : TokenKind} (h : TokenKind.ofOperator? c = some k) : (operator c k).Stands :=
  ⟨h, fun _ => trivial⟩

theorem stands_ofDirection (d : Direction) : (ofDirection d).Stands := by cases d <;> exact stands_operator rfl

theorem stands_ofSeparator (sep : Separator) : (ofSeparator sep).Stands := by cases sep <;> exact stands_operator rfl

theorem stands_blank : (blank ' ').Stands := ⟨rfl, fun _ => trivial⟩

end Line.Piece

theorem StageWording.stands {s : StageWording} (h : ∀ text ∈ s.texts, Quotable text) : ∀ p ∈ s.pieces, p.Stands := by
  obtain ⟨program, args, redirection⟩ := s
  have hargv : ∀ p ∈ (program :: args).map Piece.ofText, p.Stands := by
    intro p hp
    obtain ⟨text, htext, rfl⟩ := List.mem_map.1 hp
    exact Piece.stands_ofText (h text (List.mem_append_left _ htext))
  refine List.forall_mem_append.2 ⟨hargv, ?_⟩
  cases redirection with
  | none => simp
  | some r =>
    have htarget : Quotable r.2 := h r.2 (List.mem_append_right _ (by simp))
    simpa using ⟨Piece.stands_ofDirection r.1, Piece.stands_ofText htarget⟩

theorem GroupWording.stands {g : GroupWording} (h : ∀ s ∈ g.stages, ∀ text ∈ s.texts, Quotable text) :
    ∀ p ∈ g.pieces, p.Stands := by
  induction g with
  | last stage => exact StageWording.stands (h stage (List.mem_singleton_self _))
  | piped stage rest ih =>
    obtain ⟨hstage, hrest⟩ := List.forall_mem_cons.1 h
    exact List.forall_mem_append.2
      ⟨StageWording.stands hstage, List.forall_mem_cons.2 ⟨Piece.stands_operator rfl, ih hrest⟩⟩

namespace LineWording

theorem stands {w : LineWording} (h : ∀ s ∈ w.stages, ∀ text ∈ s.texts, Quotable text) : ∀ p ∈ w.pieces, p.Stands := by
  induction w with
  | last group => exact GroupWording.stands (by simpa [stages, groups] using h)
  | ended group sep =>
    have hgroup := GroupWording.stands (g := group) (by simpa [stages, groups] using h)
    exact List.forall_mem_append.2 ⟨hgroup, by simpa using Piece.stands_ofSeparator sep⟩
  | chained group sep rest ih =>
    obtain ⟨hgroup, hrest⟩ := List.forall_mem_append.1 (by simpa only [stages, groups, List.flatMap_cons] using h)
    exact List.forall_mem_append.2
      ⟨GroupWording.stands hgroup, List.forall_mem_cons.2 ⟨Piece.stands_ofSeparator sep, ih hrest⟩⟩

/-- the words and operators of a line, and the spaces between them -/
def spaced (w : LineWording) : List Piece := w.pieces.intersperse (.blank ' ')

end LineWording

theorem intercalate_chars (ps : List Piece) :
    [' '].intercalate (ps.map Piece.chars) = (ps.intersperse (.blank ' ')).flatMap Piece.chars := by
  induction ps with
  | nil => rfl
  | cons p ps ih =>
    cases ps with
    | nil => simp
    | cons p' ps =>
      rw [List.map_cons, List.map_cons, List.intercalate_cons_cons, ← List.map_cons, ih, List.intersperse_cons_cons]
      simp [Piece.chars]

theorem filterMap_intersperse (ps : List Piece) :
    (ps.intersperse (.blank ' ')).filterMap Piece.reading? = ps.filterMap Piece.reading? := by
  induction ps with
  | nil => rfl
  | cons p ps ih =>
    cases ps with
    | nil => rfl
    | cons p' ps =>
      rw [List.intersperse_cons_cons, List.filterMap_cons, List.filterMap_cons_none rfl, ih, ← List.filterMap_cons]

theorem mem_intersperse {ps : List Piece} {sep p : Piece} (h : p ∈ ps.intersperse sep) : p = sep ∨ p ∈ ps := by
  induction ps with
  | nil => simp at h
  | cons q ps ih =>
    cases ps with
    | nil => exact .inr h
    | cons q' ps =>
      rw [List.intersperse_cons_cons] at h
      simp only [List.mem_cons] at h ih ⊢
      rcases h with rfl | rfl | h
      · exact .inr (.inl rfl)
      · exact .inl rfl
      · exact (ih h).imp_right .inr

namespace LineWording

theorem splits {w : LineWording} (h : ∀ s ∈ w.stages, ∀ text ∈ s.texts, Quotable text) :
    Splits [] w.render.toList w.spaced := by
  have hstands : ∀ p ∈ w.spaced, p.Stands := by
    intro p hp
    rcases mem_intersperse hp with rfl | hp
    · exact Piece.stands_blank
    · exact stands h p hp
  have hrender : w.render.toList = w.spaced.flatMap Piece.chars := by
    rw [render, String.toList_intercalate, List.map_map, spaced, ← intercalate_chars]
    congr 1
    exact List.map_congr_left fun p _ => String.toList_ofList
  rw [hrender]
  exact .of_wellFormed hstands

end LineWording

/-! ## tokens that read as a wording spell it -/

/-- what a token is, and its text in the line -/
def Token.reading (line : String) (t : Token) : TokenKind × String := (t.kind, t.text line)

/-- how the pieces of a stage, a group or a line read -/
def readings (ps : List Piece) : List (TokenKind × String) := ps.filterMap Piece.reading?

@[simp] theorem readings_append (ps qs : List Piece) : readings (ps ++ qs) = readings ps ++ readings qs :=
  List.filterMap_append

@[simp] theorem readings_ofText (text : String) (ps : List Piece) :
    readings (.ofText text :: ps) = (.word, text) :: readings ps := by
  simp [readings, Piece.ofText, Piece.reading?]

@[simp] theorem readings_pipe (ps : List Piece) :
    readings (.operator '|' .pipe :: ps) = (.pipe, "|") :: readings ps := rfl

@[simp] theorem readings_ofDirection (d : Direction) (ps : List Piece) :
    readings (.ofDirection d :: ps) = (d.operator, d.operator.name) :: readings ps := by
  cases d <;> rfl

@[simp] theorem readings_ofSeparator (sep : Separator) (ps : List Piece) :
    readings (.ofSeparator sep :: ps) = (sep.operator, sep.operator.name) :: readings ps := by
  cases sep <;> rfl

@[simp] theorem readings_texts (texts : List String) : readings (texts.map .ofText) = texts.map (.word, ·) := by
  induction texts with
  | nil => rfl
  | cons text texts ih => simp [ih]

section

variable {line : String}

theorem words_of_readings {ts : List Token} {texts : List String}
    (h : ts.map (Token.reading line) = texts.map (.word, ·)) :
    (∀ t ∈ ts, t.kind = .word) ∧ ts.map (·.span.text line) = texts := by
  refine ⟨fun t ht => ?_, ?_⟩
  · have hmem : t.reading line ∈ texts.map (TokenKind.word, ·) := h ▸ List.mem_map_of_mem ht
    obtain ⟨text, -, heq⟩ := List.mem_map.1 hmem
    exact (congrArg Prod.fst heq).symm
  · have hsnd := congrArg (List.map Prod.snd) h
    rw [List.map_map, List.map_map] at hsnd
    exact hsnd.trans (List.map_id _)

theorem spelt_command {ts : List Token} {program : String} {args : List String}
    (h : ts.map (Token.reading line) = (program :: args).map (.word, ·)) :
    ∃ first rest, Line.SpellsCommand ts (.command (first :: rest)) ∧ first.text line = program ∧
      rest.map (·.text line) = args := by
  obtain ⟨hwords, htexts⟩ := words_of_readings h
  obtain ⟨first, rest, rfl, hfirst, hrest⟩ := List.map_eq_cons_iff.1 htexts
  exact ⟨_, _, .words (List.cons_ne_nil _ _) hwords, hfirst, by rw [List.map_map]; exact hrest⟩

theorem StageWording.spelt {ts : List Token} {s : StageWording} (h : ts.map (Token.reading line) = readings s.pieces) :
    ∃ t, Line.SpellsStage ts t ∧ ofTree? line t = some s := by
  obtain ⟨program, args, redirection⟩ := s
  cases redirection with
  | none =>
    obtain ⟨first, rest, hspelt, rfl, rfl⟩ := spelt_command (by simpa [pieces, argv] using h)
    exact ⟨_, .plain hspelt, rfl⟩
  | some r =>
    -- the tokens are those of the words, then the operator, then the target
    simp only [pieces, argv, readings_append, readings_texts] at h
    obtain ⟨us, vs, rfl, hus, hvs⟩ := List.map_eq_append_iff.1 h
    obtain ⟨op, vs, rfl, hop, hvs⟩ := List.map_eq_cons_iff.1 (hvs.trans (readings_ofDirection _ _))
    obtain ⟨target, vs, rfl, htarget, hvs⟩ := List.map_eq_cons_iff.1 (hvs.trans (readings_ofText _ _))
    obtain rfl := List.map_eq_nil_iff.1 hvs
    obtain ⟨first, rest, hspelt, rfl, rfl⟩ := spelt_command hus
    obtain ⟨hword, htext⟩ := Prod.mk.inj htarget
    refine ⟨_, .redirected hspelt (congrArg Prod.fst hop) hword, ?_⟩
    simp only [ofTree?]
    rw [show target.span.text line = r.2 from htext]

theorem GroupWording.ofTree?_isStage {t : Tree} (h : t.IsStage) :
    ofTree? line t = (StageWording.ofTree? line t).map .last := by
  cases h with
  | plain hc => cases hc; rfl
  | redirected d target hc => rfl

theorem LineWording.ofTree?_isGroup {t : Tree} (h : t.IsGroup) :
    ofTree? line t = (GroupWording.ofTree? line t).map .last := by
  cases h with
  | last hs =>
    cases hs with
    | plain hc => cases hc; rfl
    | redirected d target hc => rfl
  | piped hl hr => rfl

theorem GroupWording.spelt {ts : List Token} {g : GroupWording} (h : ts.map (Token.reading line) = readings g.pieces) :
    ∃ t, Line.SpellsGroup ts t ∧ ofTree? line t = some g := by
  induction g generalizing ts with
  | last stage =>
    obtain ⟨t, hspelt, hstage⟩ := StageWording.spelt h
    exact ⟨t, .last hspelt, by rw [ofTree?_isStage hspelt.isStage, hstage]; rfl⟩
  | piped stage rest ih =>
    simp only [pieces, readings_append, readings_pipe] at h
    obtain ⟨us, vs, rfl, hus, hvs⟩ := List.map_eq_append_iff.1 h
    obtain ⟨op, vs, rfl, hop, hvs⟩ := List.map_eq_cons_iff.1 hvs
    obtain ⟨left, hleft, hstage⟩ := StageWording.spelt hus
    obtain ⟨right, hright, hrest⟩ := ih hvs
    exact ⟨_, .piped hleft (congrArg Prod.fst hop) hright, by simp [ofTree?, hstage, hrest]⟩

/-- tokens that read as a wording says spell a tree with that wording -/
theorem LineWording.spelt {ts : List Token} {w : LineWording} (h : ts.map (Token.reading line) = readings w.pieces) :
    ∃ t, Line.SpellsLine ts t ∧ ofTree? line t = some w := by
  induction w generalizing ts with
  | last group =>
    obtain ⟨t, hspelt, hgroup⟩ := GroupWording.spelt h
    exact ⟨t, .last hspelt, by rw [ofTree?_isGroup hspelt.isGroup, hgroup]; rfl⟩
  | ended group sep =>
    simp only [pieces, readings_append] at h
    obtain ⟨us, vs, rfl, hus, hvs⟩ := List.map_eq_append_iff.1 h
    obtain ⟨op, vs, rfl, hop, hvs⟩ := List.map_eq_cons_iff.1 (hvs.trans (readings_ofSeparator _ _))
    obtain rfl := List.map_eq_nil_iff.1 hvs
    obtain ⟨left, hleft, hgroup⟩ := GroupWording.spelt hus
    exact ⟨_, .ended hleft (congrArg Prod.fst hop), by simp [ofTree?, hgroup]⟩
  | chained group sep rest ih =>
    simp only [pieces, readings_append, readings_ofSeparator] at h
    obtain ⟨us, vs, rfl, hus, hvs⟩ := List.map_eq_append_iff.1 h
    obtain ⟨op, vs, rfl, hop, hvs⟩ := List.map_eq_cons_iff.1 hvs
    obtain ⟨left, hleft, hgroup⟩ := GroupWording.spelt hus
    obtain ⟨right, hright, hrest⟩ := ih hvs
    exact ⟨_, .chained hleft (congrArg Prod.fst hop) hright, by simp [ofTree?, hgroup, hrest]⟩

/-! ## what a wording says of its tree -/

theorem StageWording.of_tree {t : Tree} {s : StageWording} (h : ofTree? line t = some s) :
    t.argvLists line = [s.argv] ∧ t.stages.map (Stage.redirectionIn line) = [s.redirection] := by
  unfold ofTree? at h
  split at h
  case h_3 => cases h
  all_goals
    obtain rfl := Option.some.inj h
    exact ⟨rfl, rfl⟩

theorem GroupWording.of_tree {t : Tree} {g : GroupWording} (h : ofTree? line t = some g) :
    t.argvLists line = g.stages.map (·.argv) ∧
      t.stages.map (Stage.redirectionIn line) = g.stages.map (·.redirection) := by
  induction t generalizing g with
  | pipe left right _ ih =>
    obtain ⟨stage, hstage, hbind⟩ := Option.bind_eq_some_iff.1 h
    obtain ⟨rest, hrest, heq⟩ := Option.bind_eq_some_iff.1 hbind
    obtain rfl := Option.some.inj heq
    obtain ⟨hargv, hredirection⟩ := StageWording.of_tree hstage
    obtain ⟨hargvs, hredirections⟩ := ih hrest
    simp only [Tree.argvLists, Tree.wordLists, Tree.stages, List.map_append, stages, List.map_cons] at *
    exact ⟨by rw [hargv, hargvs]; rfl, by rw [hredirection, hredirections]; rfl⟩
  | _ =>
    obtain ⟨stage, hstage, rfl⟩ := Option.map_eq_some_iff.1 h
    exact StageWording.of_tree hstage

theorem GroupWording.length_stages {t : Tree} {g : GroupWording} (h : ofTree? line t = some g) :
    t.stages.length = g.stages.length := by
  simpa using congrArg List.length (of_tree h).2

theorem LineWording.of_tree {t : Tree} {w : LineWording} (h : ofTree? line t = some w) :
    t.argvLists line = w.stages.map (·.argv) ∧ t.redirections line = w.stages.map (·.redirection) ∧
      t.statements.map (·.group.stages.length) = w.groups.map (·.stages.length) := by
  induction t generalizing w with
  | ended left sep _ =>
    obtain ⟨group, hgroup, rfl⟩ := Option.map_eq_some_iff.1 h
    obtain ⟨hargv, hredirections⟩ := GroupWording.of_tree hgroup
    have hlength := GroupWording.length_stages hgroup
    simp only [Tree.argvLists, Tree.wordLists, Tree.redirections, Tree.statements, stages, groups] at *
    simp [hargv, hredirections, hlength]
  | chained left sep right _ ih =>
    obtain ⟨group, hgroup, hbind⟩ := Option.bind_eq_some_iff.1 h
    obtain ⟨rest, hrest, heq⟩ := Option.bind_eq_some_iff.1 hbind
    obtain rfl := Option.some.inj heq
    obtain ⟨hargv, hredirections⟩ := GroupWording.of_tree hgroup
    have hlength := GroupWording.length_stages hgroup
    obtain ⟨hargvs, hlater, hlengths⟩ := ih hrest
    simp only [Tree.argvLists, Tree.wordLists, Tree.redirections, Tree.statements, stages, groups, List.flatMap_cons,
      List.map_append, List.map_cons] at *
    exact ⟨by rw [hargv, hargvs], by rw [hredirections, hlater], by rw [hlength, hlengths]⟩
  | _ =>
    obtain ⟨group, hgroup, rfl⟩ := Option.map_eq_some_iff.1 h
    obtain ⟨hargv, hredirections⟩ := GroupWording.of_tree hgroup
    have hlength := GroupWording.length_stages hgroup
    simp only [Tree.argvLists, Tree.wordLists, Tree.redirections, Tree.statements, stages, groups] at *
    simp [hargv, hredirections, hlength]

/-- a tree has the room that its wording has -/
theorem LineWording.FitsIn.of_tree {t : Tree} {w : LineWording} {room : Nat} (h : w.FitsIn room)
    (hwording : ofTree? line t = some w) : t.FitsIn room := by
  intro k s hs
  have hlength : (w.groups.map (·.stages.length))[k]? = some s.group.stages.length := by
    rw [← (LineWording.of_tree hwording).2.2, List.getElem?_map, hs]
    rfl
  rw [List.getElem?_map] at hlength
  obtain ⟨g, hg, hstages⟩ := Option.map_eq_some_iff.1 hlength
  rw [← hstages]
  exact h k g hg

end

/-! ## reading back -/

/-- **A wording that is written down is read back as it was.** Its words may be empty and may hold blanks, operators
and control characters, as long as no word holds both quotes. If the line is not too long and every statement fits, it
is read as a tree of the same shape, with the same argument vectors and the same redirections. -/
theorem LineWording.read_render (w : LineWording) (hquotable : ∀ s ∈ w.stages, ∀ text ∈ s.texts, Quotable text)
    (hsize : w.render.utf8ByteSize ≤ maxLineSize) (hfits : w.FitsIn maxDepth) :
    ∃ t, Line.read w.render = .ok t ∧ ofTree? w.render t = some w ∧
      t.argvLists w.render = w.stages.map (·.argv) ∧ t.redirections w.render = w.stages.map (·.redirection) := by
  have hsplits := splits hquotable
  have hread : (Line.placed 0 w.spaced).map (Token.reading w.render) = readings w.pieces := by
    have hlisted := hsplits.lies.read
    rw [Line.listed, List.map_append, spaced, filterMap_intersperse] at hlisted
    exact List.append_inj_left' hlisted rfl
  obtain ⟨t, hspelt, hwording⟩ := spelt hread
  -- the list ends with the end of the line, which no tree spells
  have hcut : Line.upToEnd (Line.listed w.render w.spaced) = Line.placed 0 w.spaced :=
    Line.upToEnd_append (c := ⟨[.ofEnd w.render.utf8ByteSize], 0⟩) hspelt.kind_ne_end rfl
  have hparse : Line.parse (Line.listed w.render w.spaced) = .ok t := by
    rw [Line.parse_eq_ok_iff, hcut]
    exact ⟨hspelt, hfits.of_tree hwording⟩
  refine ⟨t, ?_, hwording, (of_tree hwording).1, (of_tree hwording).2.1⟩
  rw [Line.read, if_neg (Nat.not_lt.2 hsize), Line.tokenize_of_splits hsplits]
  exact hparse

/-- a wording with a pipe, a redirection, both separators and both quotes -/
def LineWording.mixed : LineWording :=
  .chained (.piped ⟨"cat", [""], some (.input, "john's")⟩ (.last ⟨"a|b", [], none⟩)) .background
    (.ended (.last ⟨"c", [], none⟩) .sequence)

/-- It is written with both quotes, around an empty word and around an operator, and read back. -/
theorem LineWording.read_render_mixed :
    mixed.render = "'cat' '' < \"john's\" | 'a|b' & 'c' ;" ∧
    ∃ t, Line.read mixed.render = .ok t ∧ ofTree? mixed.render t = some mixed ∧
      t.argvLists mixed.render = mixed.stages.map (·.argv) ∧
      t.redirections mixed.render = mixed.stages.map (·.redirection) := by
  have hquotable : ∀ s ∈ mixed.stages, ∀ text ∈ s.texts, Quotable text := by decide +kernel
  have hsize : mixed.render.utf8ByteSize ≤ maxLineSize := by decide +kernel
  have hfits : mixed.FitsIn maxDepth := by
    intro k g hg
    have hk : k < 2 := (List.getElem?_eq_some_iff.1 hg).1
    have hlength : ∀ g ∈ mixed.groups, g.stages.length ≤ 2 := by decide
    have := hlength g (List.mem_of_getElem? hg)
    simp only [maxDepth]
    omega
  exact ⟨by decide +kernel, read_render mixed hquotable hsize hfits⟩

end LineShell
