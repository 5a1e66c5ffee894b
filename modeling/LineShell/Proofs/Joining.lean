/-
Two lines, one behind the other.

If two lines can be read and the first does not end in a separator, then both can be written as one line with a `;`
between them. The characters fall into the pieces of both, so its tokens are those of the first line, the `;`, and
those of the second line, further on. They spell the tree of the first line with that of the second at the end of its
spine (`Tree.followedBy`), and evaluating this tree is evaluating the two trees in turn, unless the first one stops
the shell.

- `Splits.joined`: lines fall apart at every piece that may stand between them.
- `SpellsLine.followedBy`: what two lists of tokens spell with a `;` between them.
- `read_joined`: the tree of the joined line.
- `execute_joined`: what evaluating it comes to.
-/
import LineShell.Proofs.Lexing
import LineShell.Proofs.Relocation
import LineShell.Proofs.Statements

namespace LineShell

/-- the token, `n` bytes further on -/
def Token.shift (n : Nat) (t : Token) : Token := { t with span := t.span.shift n }

namespace Line

/-! ## pieces -/

theorem Bounded.append {cs ds : List Char} (h : Bounded cs) (h' : Bounded ds) : Bounded (cs ++ ds) := by
  cases cs with
  | nil => exact h'
  | cons c cs => exact h

/-- a piece that ends before some characters still does so if something comes behind them -/
theorem Piece.EndsBefore.append {p : Piece} {cs ds : List Char} (h : p.EndsBefore cs) (h' : Bounded ds) :
    p.EndsBefore (cs ++ ds) := by
  cases p with
  | bare word => exact Bounded.append h h'
  | _ => trivial

theorem Splits.extend {cs ds : List Char} {ps : List Piece} (h : Splits [] cs ps) (h' : Bounded ds) :
    Splits ds (cs ++ ds) ps := by
  induction h with
  | nil => exact .nil
  | cons hp hend _ ih =>
    rw [List.append_assoc]
    exact .cons hp (hend.append h') ih

theorem Splits.trans {cs mid rest : List Char} {ps qs : List Piece} (h : Splits mid cs ps) (h' : Splits rest mid qs) :
    Splits rest cs (ps ++ qs) := by
  induction h with
  | nil => exact h'
  | cons hp hend _ ih => exact .cons hp hend ih

/-- two lines with a piece between them that ends the first one -/
theorem Splits.joined {cs ds : List Char} {ps qs : List Piece} {p : Piece} (h : Splits [] cs ps) (hp : p.WellFormed)
    (hbounded : Bounded (p.chars ++ ds)) (hend : p.EndsBefore ds) (h' : Splits [] ds qs) :
    Splits [] (cs ++ (p.chars ++ ds)) (ps ++ p :: qs) :=
  (h.extend hbounded).trans (.cons hp hend h')

theorem placed_append (offset : Nat) (ps qs : List Piece) :
    placed offset (ps ++ qs) = placed offset ps ++ placed (offset + width (ps.flatMap Piece.chars)) qs := by
  induction ps generalizing offset with
  | nil => rfl
  | cons p ps ih =>
    simp only [List.cons_append, placed, ih, List.flatMap_cons, width_append, List.append_assoc, Nat.add_assoc]

/-- pieces further on have their tokens further on -/
theorem placed_shift (n offset : Nat) (ps : List Piece) :
    placed (offset + n) ps = (placed offset ps).map (Token.shift n) := by
  induction ps generalizing offset with
  | nil => rfl
  | cons p ps ih =>
    have htoken : (p.token? (offset + n)).toList = (p.token? offset).toList.map (Token.shift n) := by
      cases p with
      | blank c => rfl
      | operator c kind =>
        simp only [Piece.token?, Option.toList_some, List.map_cons, List.map_nil, Token.shift, Span.shift]
        rw [Nat.add_right_comm]
      | quoted q content =>
        simp only [Piece.token?, Option.toList_some, List.map_cons, List.map_nil, Token.shift, Span.shift, Token.ofWord]
        rw [Nat.add_right_comm offset n, Nat.add_right_comm _ n]
      | bare word =>
        simp only [Piece.token?, Option.toList_some, List.map_cons, List.map_nil, Token.shift, Span.shift, Token.ofWord]
        rw [Nat.add_right_comm offset n]
    rw [placed, placed, List.map_append, htoken, ← ih, Nat.add_right_comm]

theorem upToEnd_listed {line : String} {ps : List Piece} (hps : ∀ p ∈ ps, p.WellFormed) :
    upToEnd (listed line ps) = placed 0 ps := by
  have hplaced : ∀ t ∈ placed 0 ps, (t.kind != .endOfLine) = true := by
    intro t ht
    simpa using kind_ne_end_of_placed hps ht
  rw [upToEnd, listed, List.takeWhile_append_of_pos hplaced]
  exact List.append_nil _

/-- what a line has been read from: pieces, whose tokens spell its tree -/
theorem pieces_of_read {line : String} {t : Tree} (h : read line = .ok t) :
    ∃ ps, Splits [] line.toList ps ∧ SpellsLine (placed 0 ps) t := by
  unfold read at h
  split at h
  · cases h
  · split at h
    · cases h
    · rename_i ts hts
      obtain ⟨ps, hps, rfl⟩ := splits_of_tokenize hts
      refine ⟨ps, hps, ?_⟩
      rw [← upToEnd_listed hps.wellFormed]
      exact (parse_eq_ok_iff.1 h).1

/-- and conversely, if it is within the limits -/
theorem read_of_pieces {line : String} {ps : List Piece} {t : Tree} (hsize : line.utf8ByteSize ≤ maxLineSize)
    (hps : Splits [] line.toList ps) (ht : SpellsLine (placed 0 ps) t) (hfit : t.FitsIn maxDepth) :
    read line = .ok t := by
  unfold read
  rw [if_neg (Nat.not_lt.2 hsize), tokenize_of_splits hps]
  refine parse_eq_ok_iff.2 ⟨?_, hfit⟩
  rw [upToEnd_listed hps.wellFormed]
  exact ht

/-! ## tokens that are shifted -/

theorem SpellsCommand.shift (n : Nat) {ts : List Token} {t : Tree} (h : SpellsCommand ts t) :
    SpellsCommand (ts.map (Token.shift n)) (t.relocate (Span.shift n)) := by
  cases h with
  | words nonempty isWord =>
    have hspans : (ts.map (·.span)).map (Span.shift n) = (ts.map (Token.shift n)).map (·.span) := by
      rw [List.map_map, List.map_map]
      rfl
    rw [Tree.relocate, hspans]
    refine .words (by simpa using nonempty) fun x hx => ?_
    obtain ⟨w, hw, rfl⟩ := List.mem_map.1 hx
    exact isWord w hw

theorem SpellsStage.shift (n : Nat) {ts : List Token} {t : Tree} (h : SpellsStage ts t) :
    SpellsStage (ts.map (Token.shift n)) (t.relocate (Span.shift n)) := by
  cases h with
  | plain hc => exact .plain (hc.shift n)
  | @redirected ts t op target d hc hop htarget =>
    have hstage : SpellsStage (ts.map (Token.shift n) ++ [op.shift n, target.shift n])
        (.redirect d (target.shift n).span (t.relocate (Span.shift n))) := .redirected (hc.shift n) hop htarget
    rw [List.map_append]
    exact hstage

theorem SpellsGroup.shift (n : Nat) {ts : List Token} {t : Tree} (h : SpellsGroup ts t) :
    SpellsGroup (ts.map (Token.shift n)) (t.relocate (Span.shift n)) := by
  induction h with
  | last hs => exact .last (hs.shift n)
  | @piped ts us op left right hs hop _ ih =>
    have hop' : (op.shift n).kind = .pipe := hop
    rw [List.map_append]
    exact .piped (hs.shift n) hop' ih

theorem SpellsLine.shift (n : Nat) {ts : List Token} {t : Tree} (h : SpellsLine ts t) :
    SpellsLine (ts.map (Token.shift n)) (t.relocate (Span.shift n)) := by
  induction h with
  | last hg => exact .last (hg.shift n)
  | @ended ts op left sep hg hop =>
    have hop' : (op.shift n).kind = sep.operator := hop
    rw [List.map_append]
    exact .ended (hg.shift n) hop'
  | @chained ts us op left right sep hg hop _ ih =>
    have hop' : (op.shift n).kind = sep.operator := hop
    rw [List.map_append]
    exact .chained (hg.shift n) hop' ih

end Line

/-! ## one tree at the end of another -/

namespace Tree

/-- is there a separator behind the last statement? -/
def dangles : Tree → Bool
  | ended _ _ => true
  | chained _ _ right => right.dangles
  | _ => false

/-- the statements of a tree and behind a `;` those of another one -/
def followedBy : Tree → Tree → Tree
  | chained left sep right, next => chained left sep (right.followedBy next)
  | t, next => chained t .sequence next

theorem IsGroup.followedBy {t : Tree} (h : t.IsGroup) (next : Tree) : t.followedBy next = chained t .sequence next := by
  have hs := h.isStatement
  cases t with
  | chained left sep right => simp [Tree.isStatement] at hs
  | _ => rfl

theorem statements_followedBy {t : Tree} (h : t.IsLine) (hdangles : t.dangles = false) (next : Tree) :
    (t.followedBy next).statements = t.statements ++ next.statements := by
  induction h with
  | last hg =>
    rw [hg.followedBy, statements, hg.statements]
    rfl
  | ended sep hg => cases hdangles
  | chained sep hg _ ih =>
    rw [Tree.followedBy, statements, statements, ih hdangles]
    rfl

/-- room is a matter of how many statements there are, and how many stages each of them has -/
theorem fitsIn_iff {t : Tree} {room : Nat} :
    t.FitsIn room ↔ ∀ k n, (t.statements.map fun s => s.group.stages.length)[k]? = some n → k + 1 + n ≤ room := by
  simp only [FitsIn, List.getElem?_map, Option.map_eq_some_iff, forall_exists_index, and_imp]
  constructor
  · rintro h k _ s hs rfl
    exact h k s hs
  · intro h k s hs
    exact h k _ s hs rfl

theorem fitsIn_followedBy_relocate {t : Tree} (h : t.IsLine) (hdangles : t.dangles = false) (next : Tree)
    (f : Span → Span) {room : Nat} : (t.followedBy (next.relocate f)).FitsIn room ↔
      (t.followedBy next).FitsIn room := by
  have hlengths : (next.relocate f).statements.map (fun s => s.group.stages.length) =
      next.statements.map fun s => s.group.stages.length := by
    rw [statements_relocate, List.map_map]
    exact List.map_congr_left fun s _ => length_stages_relocate f s.group
  rw [fitsIn_iff, fitsIn_iff, statements_followedBy h hdangles, statements_followedBy h hdangles, List.map_append,
    List.map_append, hlengths]

end Tree

namespace Line

/-- the tokens of two lines with a `;` between them spell the two trees, one behind the other -/
theorem SpellsLine.followedBy {ts us : List Token} {t next : Tree} {op : Token} (h : SpellsLine ts t)
    (hdangles : t.dangles = false) (hop : op.kind = .semicolon) (h' : SpellsLine us next) :
    SpellsLine (ts ++ op :: us) (t.followedBy next) := by
  induction h with
  | last hg =>
    rw [hg.isGroup.followedBy]
    exact .chained hg hop h'
  | ended hg hop' => cases hdangles
  | chained hg hop' _ ih =>
    rw [Tree.followedBy, List.append_assoc, List.cons_append]
    exact .chained hg hop' (ih hdangles)

end Line

namespace Evaluation

variable {σ : Type} (ev : Evaluation σ)

/-- what comes behind an evaluation, unless it has stopped the shell -/
def andThen (x : Except Failure Int × Engine σ) (next : Engine σ → Except Failure Int × Engine σ) :
    Except Failure Int × Engine σ :=
  match x with
  | (.error (.exit status), e) => (.error (.exit status), e)
  | (_, e) => next e

theorem execute_followedBy {t : Tree} (h : t.IsLine) (hdangles : t.dangles = false) (next : Tree) (ctx : Context)
    (e : Engine σ) : ev.execute (t.followedBy next) ctx e = andThen (ev.execute t ctx e) (ev.execute next ctx) := by
  induction h generalizing e with
  | last hg =>
    rw [hg.followedBy, execute_chained, execute_group ev hg]
    rfl
  | ended sep hg => cases hdangles
  | @chained left right sep hg _ ih =>
    rw [Tree.followedBy, execute_chained, execute_chained]
    split
    · rfl
    · exact ih hdangles _

end Evaluation

/-! ## two lines as one -/

namespace Line

/-- the words of a tree lie in the line that it was read from -/
theorem fits_of_spells {line : String} {ps : List Piece} {t : Tree} (hps : Splits [] line.toList ps)
    (ht : SpellsLine (placed 0 ps) t) : ∀ s ∈ t.spans, s.Fits line := by
  intro s hs
  have hleaf := Tree.word_mem_leaves hs
  rw [ht.leaves] at hleaf
  obtain ⟨x, hx, hword⟩ := List.mem_map.1 hleaf
  have hspan : x.span = s := by
    unfold Token.leaf at hword
    split at hword
    · exact Leaf.word.inj hword
    · cases hword
  rw [← hspan]
  exact hps.lies.fits x (List.mem_append_left _ hx)

/-- the tree of two lines with a `;` between them -/
def joinedTree (a : String) (ta tb : Tree) : Tree := ta.followedBy (tb.relocate (Span.shift (a.utf8ByteSize + 1)))

/-- two lines with a `;` between them are read as the two trees, one behind the other -/
theorem read_joined {a b : String} {ta tb : Tree} (ha : read a = .ok ta) (hb : read b = .ok tb)
    (hdangles : ta.dangles = false) (hsize : (a ++ ";" ++ b).utf8ByteSize ≤ maxLineSize)
    (hdepth : (ta.followedBy tb).FitsIn maxDepth) : read (a ++ ";" ++ b) = .ok (joinedTree a ta tb) := by
  obtain ⟨ps, hps, hta⟩ := pieces_of_read ha
  obtain ⟨qs, hqs, htb⟩ := pieces_of_read hb
  have hsplits : Splits [] (a ++ ";" ++ b).toList (ps ++ .operator ';' .semicolon :: qs) := by
    have hjoined := hps.joined (p := .operator ';' .semicolon) rfl
      (fun c hc => by obtain rfl := Option.some.inj hc; rfl) trivial hqs
    rw [String.toList_append, String.toList_append, List.append_assoc]
    exact hjoined
  have hwidth : width (ps.flatMap Piece.chars) = a.utf8ByteSize := by
    rw [utf8ByteSize_eq_width, hps.eq_append, List.append_nil]
  have hplaced : placed 0 (ps ++ .operator ';' .semicolon :: qs) =
      placed 0 ps ++ ⟨.semicolon, ⟨a.utf8ByteSize, a.utf8ByteSize + 1⟩, none⟩ ::
        (placed 0 qs).map (Token.shift (a.utf8ByteSize + 1)) := by
    rw [placed_append, hwidth, Nat.zero_add, ← placed_shift, Nat.zero_add]
    rfl
  refine read_of_pieces hsize hsplits ?_ ((Tree.fitsIn_followedBy_relocate hta.isLine hdangles tb _).2 hdepth)
  rw [hplaced]
  exact hta.followedBy hdangles rfl (htb.shift _)

end Line

namespace Evaluation

section

variable {σ : Type} (backend : Backend σ) (settings : Settings) (ctx : Context) (e : Engine σ)

/-- in front of more text a line is evaluated as it is on its own -/
theorem execute_in_front {a : String} {t : Tree} (ha : Line.read a = .ok t) (rest : String) :
    execute ⟨backend, a ++ rest, settings⟩ t ctx e = execute ⟨backend, a, settings⟩ t ctx e := by
  obtain ⟨ps, hps, ht⟩ := Line.pieces_of_read ha
  have htexts : ∀ s ∈ t.spans, (id s).text (a ++ rest) = s.text a := fun s hs =>
    Span.text_append_left (Line.fits_of_spells hps ht s hs) rest
  have hmoved : (onLine ⟨backend, a, settings⟩ (a ++ rest)).execute (t.relocate id) ctx e =
      execute ⟨backend, a, settings⟩ t ctx e := execute_relocate htexts ctx e
  rw [Tree.relocate_id] at hmoved
  exact hmoved

/-- so it is behind other text, where all its words are shifted -/
theorem execute_behind {b : String} {t : Tree} (hb : Line.read b = .ok t) (front : String) :
    execute ⟨backend, front ++ b, settings⟩ (t.relocate (Span.shift front.utf8ByteSize)) ctx e =
      execute ⟨backend, b, settings⟩ t ctx e := by
  obtain ⟨ps, hps, ht⟩ := Line.pieces_of_read hb
  have htexts : ∀ s ∈ t.spans, (s.shift front.utf8ByteSize).text (front ++ b) = s.text b := fun s hs =>
    Span.text_append_right (Line.fits_of_spells hps ht s hs) front
  have hmoved :
      (onLine ⟨backend, b, settings⟩ (front ++ b)).execute (t.relocate (Span.shift front.utf8ByteSize)) ctx e =
        execute ⟨backend, b, settings⟩ t ctx e := execute_relocate htexts ctx e
  exact hmoved

end

/-- **Lines compose.** Two lines that can be read, the first of which has no separator at its end, make one line with
a `;` between them, unless that is too long or too deep. Evaluating it on any engine, over any backend, is evaluating
the first line and then, unless it has asked the shell to stop, the second one on the engine that the first has left:
the result and everything else behind it are the same. -/
theorem execute_joined {a b : String} {ta tb : Tree} (ha : Line.read a = .ok ta) (hb : Line.read b = .ok tb)
    (hdangles : ta.dangles = false) (hsize : (a ++ ";" ++ b).utf8ByteSize ≤ maxLineSize)
    (hdepth : (ta.followedBy tb).FitsIn maxDepth) :
    ∃ t, Line.read (a ++ ";" ++ b) = .ok t ∧
      ∀ {σ : Type} (backend : Backend σ) (settings : Settings) (ctx : Context) (e : Engine σ),
        execute ⟨backend, a ++ ";" ++ b, settings⟩ t ctx e =
          match execute ⟨backend, a, settings⟩ ta ctx e with
          | (.error (.exit status), e) => (.error (.exit status), e)
          | (_, e) => execute ⟨backend, b, settings⟩ tb ctx e := by
  refine ⟨_, Line.read_joined ha hb hdangles hsize hdepth, fun {σ} backend settings ctx e => ?_⟩
  obtain ⟨ps, -, hta⟩ := Line.pieces_of_read ha
  have hfront : (a ++ ";").utf8ByteSize = a.utf8ByteSize + 1 := by
    rw [String.utf8ByteSize_append]
    rfl
  have hfirst : execute ⟨backend, a ++ ";" ++ b, settings⟩ ta ctx e = execute ⟨backend, a, settings⟩ ta ctx e := by
    rw [String.append_assoc]
    exact execute_in_front backend settings ctx e ha _
  rw [Line.joinedTree, execute_followedBy _ hta.isLine hdangles, hfirst, ← hfront]
  unfold andThen
  split
  · rfl
  · exact execute_behind backend settings ctx _ hb (a ++ ";")

/-- The lines `a|b` and `exit` as one: behind the pipeline the shell is asked to stop, with the status that it has
left. -/
theorem execute_joined_exit :
    ∃ ta tb t, Line.read "a|b" = .ok ta ∧ Line.read "exit" = .ok tb ∧ ta.dangles = false ∧
      ("a|b" ++ ";" ++ "exit").utf8ByteSize ≤ maxLineSize ∧ (ta.followedBy tb).FitsIn maxDepth ∧
      Line.read ("a|b" ++ ";" ++ "exit") = .ok t ∧
      (execute (scripted ("a|b" ++ ";" ++ "exit")) t {} (capturing [("b", { status := 4 })])).1 = .error (.exit 4) := by
  have ha : Line.read "a|b" = .ok (.pipe (.command [⟨0, 1⟩]) (.command [⟨2, 3⟩])) := by decide +kernel
  have hb : Line.read "exit" = .ok (.command [⟨0, 4⟩]) := by decide +kernel
  have hsize : ("a|b" ++ ";" ++ "exit").utf8ByteSize ≤ maxLineSize := by decide
  have hdepth : (Tree.followedBy (.pipe (.command [⟨0, 1⟩]) (.command [⟨2, 3⟩])) (.command [⟨0, 4⟩])).FitsIn maxDepth :=
    Tree.fitsIn_chained.2 ⟨by decide, (Tree.IsGroup.last (.plain (.words (by decide)))).fitsIn.2 (by decide)⟩
  obtain ⟨t, ht, hexecute⟩ := execute_joined ha hb rfl hsize hdepth
  refine ⟨_, _, t, ha, hb, rfl, hsize, hdepth, ht, ?_⟩
  have hjoined := hexecute Scripted.backend { exitTerminates := false } {} (capturing [("b", { status := 4 })])
  refine (congrArg Prod.fst hjoined).trans ?_
  decide +kernel

end Evaluation

end LineShell
