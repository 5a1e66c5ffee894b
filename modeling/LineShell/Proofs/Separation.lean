/-
A line falls apart at every blank and operator.

The reader carries nothing across a character that ends a word: where it stands then, it reads what follows as a line
of its own, only further on. `Scan.behind` is a reader that has read something else before; every step that it takes
is the step of the reader on its own (`step_behind`), and so is the end of the line (`finish_behind`).

- `tokens_separated`: the tokens of two texts with a blank or an operator between them, a stop in the second one
  included.
- `Stops.append`: a line that stops at a character does so whatever is written behind it.
- `tokenize_separated`: both, for the reader of whole lines.
-/
import LineShell.Proofs.Joining

namespace LineShell

/-! ## readers that have read something before -/

namespace Scan

/-- the mode, `n` bytes further on -/
def Mode.shift (n : Nat) : Mode → Mode
  | .between => .between
  | .bare start => .bare (start + n)
  | .quoted quote start => .quoted quote (start + n)
  | .stopped => .stopped

/-- the reader behind `n` bytes from which the tokens `ts` have been read -/
def behind (s : Scan) (ts : List Token) (n : Nat) : Scan :=
  ⟨s.tokens.map (Token.shift n) ++ ts, s.mode.shift n, s.offset + n⟩

variable (s : Scan) (ts : List Token) (n : Nat)

theorem emit_behind (us : List Token) (w : Nat) :
    (s.behind ts n).emit (us.map (Token.shift n)) w = (s.emit us w).behind ts n := by
  simp only [emit, behind, Mode.shift, List.map_append, List.map_reverse, List.append_assoc, mk.injEq, true_and]
  omega

theorem stepBare_behind (c : Char) (pending : Option Nat) :
    (s.behind ts n).stepBare c (pending.map (· + n)) = (s.stepBare c pending).behind ts n := by
  have hended : ((pending.map (· + n)).toList.map fun start => Token.ofWord start (s.behind ts n).offset) =
      (pending.toList.map fun start => Token.ofWord start s.offset).map (Token.shift n) := by
    cases pending <;> rfl
  unfold stepBare
  rw [hended]
  cases isBlank c with
  | true => exact emit_behind s ts n _ _
  | false =>
    cases hk : TokenKind.ofOperator? c with
    | some k =>
      have hoperator : (⟨k, ⟨(s.behind ts n).offset, (s.behind ts n).offset + 1⟩, none⟩ : Token) =
          Token.shift n ⟨k, ⟨s.offset, s.offset + 1⟩, none⟩ := by
        simp only [behind, Token.shift, Span.shift, Nat.add_right_comm]
      simp only [Bool.false_eq_true, if_false, hoperator]
      rw [← List.map_singleton (f := Token.shift n), ← List.map_append]
      exact emit_behind s ts n _ _
    | none =>
      simp only [Bool.false_eq_true, if_false, Option.isNone_map]
      split
      · simp only [behind, Mode.shift, Nat.add_right_comm]
      · split
        · rfl
        · cases pending <;> simp only [behind, Mode.shift, Option.map_some, Option.map_none, Option.getD_some,
            Option.getD_none, Nat.add_right_comm]

/-- one character is read as it would be on its own -/
theorem step_behind (c : Char) : (s.behind ts n).step c = (s.step c).behind ts n := by
  obtain ⟨us, mode, offset⟩ := s
  cases mode with
  | between => exact stepBare_behind _ ts n c none
  | bare start => exact stepBare_behind _ ts n c (some start)
  | quoted q start =>
    by_cases hc : c = q
    · have hword : [Token.ofWord (start + n) (offset + n)] = [Token.ofWord start offset].map (Token.shift n) := rfl
      simp only [step, behind, Mode.shift, hc, if_true, hword]
      exact emit_behind ⟨us, .quoted q start, offset⟩ ts n _ _
    · simp only [step, behind, Mode.shift, hc, if_false, Nat.add_right_comm]
  | stopped => rfl

theorem scan_behind (cs : List Char) : (s.behind ts n).scan cs = (s.scan cs).behind ts n := by
  induction cs generalizing s with
  | nil => rfl
  | cons c cs ih => rw [scan_cons, scan_cons, step_behind, ih]

/-- the line ends as it would on its own -/
theorem finish_behind : (s.behind ts n).finish = ts.reverse ++ s.finish.map (Token.shift n) := by
  obtain ⟨us, mode, offset⟩ := s
  cases mode <;> simp [finish, behind, Mode.shift, Token.shift, Span.shift, Token.ofEnd, Token.ofWord, Token.ofFault]

/-- between tokens, what follows is read as a line of its own -/
theorem finish_between (cs : List Char) :
    ((⟨ts, .between, n⟩ : Scan).scan cs).finish = ts.reverse ++ (({} : Scan).scan cs).finish.map (Token.shift n) := by
  have hbehind : (⟨ts, .between, n⟩ : Scan) = ({} : Scan).behind ts n := by simp [behind, Mode.shift]
  rw [hbehind, scan_behind, finish_behind]

end Scan

/-- the error, `n` bytes further on -/
def LexError.shift (n : Nat) (e : LexError) : LexError := { e with offset := e.offset + n }

namespace Line

theorem stopOf?_shift (n : Nat) (t : Token) : stopOf? (t.shift n) = (stopOf? t).map (LexError.shift n) := by
  rw [stopOf?, stopOf?, Option.map_map]
  rfl

theorem findSome?_stopOf?_shift (n : Nat) (ts : List Token) :
    (ts.map (Token.shift n)).findSome? stopOf? = (ts.findSome? stopOf?).map (LexError.shift n) := by
  induction ts with
  | nil => rfl
  | cons t ts ih =>
    rw [List.map_cons, List.findSome?_cons, List.findSome?_cons, stopOf?_shift, ih]
    cases stopOf? t <;> rfl

/-! ## at a blank or an operator -/

/-- the piece that a character is which ends a word -/
def separatorPiece (c : Char) : Piece :=
  match TokenKind.ofOperator? c with
  | some k => .operator c k
  | none => .blank c

/-- the token of a character that ends a word, when it lies at `offset`: a blank has none -/
def separatorToken? (c : Char) (offset : Nat) : Option Token :=
  (TokenKind.ofOperator? c).map fun k => ⟨k, ⟨offset, offset + 1⟩, none⟩

theorem separatorPiece_chars (c : Char) : (separatorPiece c).chars = [c] := by
  unfold separatorPiece
  split <;> rfl

theorem separatorPiece_token? (c : Char) (offset : Nat) :
    (separatorPiece c).token? offset = separatorToken? c offset := by
  unfold separatorPiece separatorToken?
  cases TokenKind.ofOperator? c <;> rfl

theorem separatorPiece_endsBefore (c : Char) (cs : List Char) : (separatorPiece c).EndsBefore cs := by
  unfold separatorPiece
  split <;> trivial

theorem separatorPiece_wellFormed {c : Char} (h : isBoundary c = true) : (separatorPiece c).WellFormed := by
  unfold separatorPiece
  split
  · assumption
  · rename_i hnone
    have hblank : isBlank c = true := by simpa [isBoundary, hnone] using h
    exact hblank

theorem isBoundary_width {c : Char} (h : isBoundary c = true) : c.utf8Size = 1 := by
  rcases Bool.or_eq_true_iff.1 h with hblank | hoperator
  · exact isBlank_width hblank
  · obtain ⟨k, hk⟩ := Option.isSome_iff_exists.1 hoperator
    exact ofOperator?_width hk

/-- behind the pieces of a line and a character that ends its last one, the next line is read on its own -/
theorem tokens_separated {a : String} {ps : List Piece} (ha : Splits [] a.toList ps) {c : Char}
    (hc : isBoundary c = true) (b : String) :
    tokens (a ++ String.singleton c ++ b) =
      placed 0 ps ++ (separatorToken? c a.utf8ByteSize).toList ++
        (tokens b).map (Token.shift (a.utf8ByteSize + 1)) := by
  have hbounded : Bounded (c :: b.toList) := fun d hd => by
    obtain rfl := Option.some.inj hd
    exact hc
  have hlast : Splits b.toList (c :: b.toList) [separatorPiece c] := by
    have hpiece : Splits b.toList ((separatorPiece c).chars ++ b.toList) [separatorPiece c] :=
      .cons (separatorPiece_wellFormed hc) (separatorPiece_endsBefore c _) .nil
    rwa [separatorPiece_chars] at hpiece
  have hsplits : Splits b.toList (a ++ String.singleton c ++ b).toList (ps ++ [separatorPiece c]) := by
    have htext : (a ++ String.singleton c ++ b).toList = a.toList ++ c :: b.toList := by simp
    rw [htext]
    exact (ha.extend hbounded).trans hlast
  have hwidth : width (ps.flatMap Piece.chars) = a.utf8ByteSize := by
    rw [utf8ByteSize_eq_width, ha.eq_append, List.append_nil]
  have hplaced : placed 0 (ps ++ [separatorPiece c]) = placed 0 ps ++ (separatorToken? c a.utf8ByteSize).toList := by
    rw [placed_append, hwidth, Nat.zero_add, placed, placed, separatorPiece_token?, List.append_nil]
  have hoffset : width ((ps ++ [separatorPiece c]).flatMap Piece.chars) = a.utf8ByteSize + 1 := by
    rw [List.flatMap_append, width_append, hwidth, List.flatMap_singleton, separatorPiece_chars, width_cons, width_nil,
      isBoundary_width hc]
  rw [tokens_eq hsplits, hoffset, Scan.finish_between, List.reverse_reverse, hplaced]
  rfl

/-! ## behind a character that stops the reader -/

/-- more text behind what is left over of a line makes no difference to its pieces, if something is left over -/
theorem Splits.append {rest cs : List Char} {ps : List Piece} (h : Splits rest cs ps) (hrest : rest ≠ [])
    (ds : List Char) : Splits (rest ++ ds) (cs ++ ds) ps := by
  induction h with
  | nil => exact .nil
  | @cons p cs ps hp hend hsplits ih =>
    have hcs : cs ≠ [] := by
      rw [hsplits.eq_append]
      exact List.append_ne_nil_of_right_ne_nil _ hrest
    have hend : p.EndsBefore (cs ++ ds) := by
      obtain ⟨c, cs, rfl⟩ := List.exists_cons_of_ne_nil hcs
      cases p with
      | bare word => exact hend
      | _ => trivial
    rw [List.append_assoc]
    exact .cons hp hend ih

theorem Stops.append {cs : List Char} {offset : Nat} (h : Stops cs ⟨.unrecognizedCharacter, offset⟩) (ds : List Char) :
    Stops (cs ++ ds) ⟨.unrecognizedCharacter, offset⟩ := by
  cases h with
  | @unrecognized ps word rest c hsplits hword hcontrol hblank =>
    have hlonger := hsplits.append (List.append_ne_nil_of_right_ne_nil _ (List.cons_ne_nil c rest)) ds
    rw [List.append_assoc, List.cons_append] at hlonger
    exact .unrecognized hlonger hword hcontrol hblank

/-! ## whole lines -/

/-- **Lines fall apart at every separator.** If a line can be read, then with a blank or an operator and any other text
behind it its tokens are the same up to its end; then comes the operator, if it is one; and then come the tokens of the
other text, or its error, as many bytes further on as stand before it. A line that stops at a character that has no
meaning stops there whatever is written behind it. -/
theorem tokenize_separated (a : String) :
    (∀ ts, tokenize a = .ok ts → ∃ front, ts = front ++ [.ofEnd a.utf8ByteSize] ∧
      ∀ c, isBoundary c = true → ∀ b,
        tokens (a ++ String.singleton c ++ b) = front ++ (separatorToken? c a.utf8ByteSize).toList ++
          (tokens b).map (Token.shift (a.utf8ByteSize + 1)) ∧
        tokenize (a ++ String.singleton c ++ b) =
          match tokenize b with
          | .ok us => .ok (front ++ (separatorToken? c a.utf8ByteSize).toList ++
              us.map (Token.shift (a.utf8ByteSize + 1)))
          | .error e => .error (e.shift (a.utf8ByteSize + 1))) ∧
    ∀ offset, tokenize a = .error ⟨.unrecognizedCharacter, offset⟩ →
      ∀ x, tokenize (a ++ x) = .error ⟨.unrecognizedCharacter, offset⟩ := by
  refine ⟨fun ts hts => ?_, fun offset herror x => ?_⟩
  · obtain ⟨ps, hps, rfl⟩ := splits_of_tokenize hts
    refine ⟨placed 0 ps, rfl, fun c hc b => ⟨tokens_separated hps hc b, ?_⟩⟩
    have hoperator : (separatorToken? c a.utf8ByteSize).toList.findSome? stopOf? = none := by
      unfold separatorToken?
      cases TokenKind.ofOperator? c <;> rfl
    have hstop : (tokens (a ++ String.singleton c ++ b)).findSome? stopOf? =
        ((tokens b).findSome? stopOf?).map (LexError.shift (a.utf8ByteSize + 1)) := by
      rw [tokens_separated hps hc b, List.findSome?_append, List.findSome?_append, stopOf?_placed, hoperator,
        findSome?_stopOf?_shift]
      rfl
    unfold tokenize
    simp only [hstop]
    cases (tokens b).findSome? stopOf? with
    | none => exact congrArg Except.ok (tokens_separated hps hc b)
    | some e => rfl
  · refine tokenize_of_stops ?_
    rw [String.toList_append]
    exact (stops_of_tokenize herror).append x.toList

/-- The quote that is never closed in `é "z` is told at the end of the line, 5 bytes from its start; behind `'x|y'`
and a `|` this is 6 bytes further on. -/
theorem tokenize_separated_unterminated :
    tokenize "'x|y'" = .ok [.ofWord 1 4, .ofEnd 5] ∧ isBoundary '|' = true ∧
      tokenize "é \"z" = .error ⟨.unterminatedQuote, 5⟩ ∧
      tokenize ("'x|y'" ++ String.singleton '|' ++ "é \"z") = .error ⟨.unterminatedQuote, 11⟩ := by
  have ha : tokenize "'x|y'" = .ok [.ofWord 1 4, .ofEnd 5] := by decide +kernel
  have hb : tokenize "é \"z" = .error ⟨.unterminatedQuote, 5⟩ := by decide +kernel
  obtain ⟨front, -, hseparated⟩ := (tokenize_separated "'x|y'").1 _ ha
  have hjoined := (hseparated '|' rfl "é \"z").2
  rw [hb] at hjoined
  exact ⟨ha, rfl, hb, hjoined⟩

end Line

end LineShell
