/-
The two readers of a line.

`read` takes every line for a tree, and whatever is wrong with it is a parse error. `command` asks first whether there
is anything on the line, and keeps apart the lines that are not read into tokens. Where there is something, the two
come to the same (`Alike`): the same tree, or the same complaint at the same byte.

- `read_blank`: on a blank line `read` misses a command where the line ends.
- `isValid_of_read`: an error lies between two characters of its line, or at one of the ends.
- `command_alike_read`: which lines hold nothing, and that on all others the readers agree.
-/
import LineShell.Proofs.Codes
import LineShell.Proofs.FirstFault

namespace LineShell

/-- what is wrong with a line that cannot be read, and at which byte -/
def Failure.complaint? : Failure → Option (String × Nat)
  | lex e => some (e.fault.message, e.offset)
  | parse e => some (e.fault.message, e.offset)
  | _ => none

namespace Line

/-- the line is not too long and holds nothing -/
def Vacant (line : String) : Prop := line.utf8ByteSize ≤ maxLineSize ∧ Blank line

/-! ## one line, two readers -/

/-- the readers come to the same tree, or complain of the same thing at the same byte -/
inductive Alike : Except Failure (Option Tree) → Except ParseError Tree → Prop
  | tree (t : Tree) : Alike (.ok (some t)) (.ok t)
  | lex (e : LexError) : Alike (.error (.lex e)) (.error ⟨.lexical e.fault, e.offset⟩)
  | parse (e : ParseError) : Alike (.error (.parse e)) (.error e)

theorem Alike.complaint {f : Failure} {e : ParseError} (h : Alike (.error f) (.error e)) :
    f.complaint? = some (e.fault.message, e.offset) := by
  cases h <;> rfl

/-- the readers take each step alike; only `command` stops at a line that holds nothing -/
theorem alike_of_not_vacant {line : String} (h : ¬ Vacant line) : Alike (command line) (read line) := by
  unfold command read
  by_cases hlong : line.utf8ByteSize > maxLineSize
  · rw [if_pos hlong, if_pos hlong]
    exact .parse _
  rw [if_neg hlong, if_neg hlong]
  cases htokens : tokenize line with
  | error e => exact .lex e
  | ok ts =>
    have hsome : ¬ ts.all (·.kind == .endOfLine) = true :=
      fun hall => h ⟨Nat.le_of_not_lt hlong, (blank_iff htokens).1 hall⟩
    simp only
    rw [if_neg hsome]
    cases parse ts with
    | error e => exact .parse e
    | ok t => exact .tree t

/-- a line that holds nothing has nothing that could be a command -/
theorem read_blank {line : String} (h : Vacant line) :
    read line = .error ⟨.expectedCommand .endOfLine, line.utf8ByteSize⟩ := by
  obtain ⟨hsize, hblank⟩ := h
  obtain ⟨-, ts, hts, -⟩ := read_cases (command_of_blank hsize hblank)
  obtain ⟨ps, hps, rfl⟩ := splits_of_tokenize hts
  have hline : line.toList = ps.flatMap Piece.chars := by simpa using hps.eq_append
  have hnone : placed 0 ps = [] := (placed_eq_nil hps.wellFormed 0).2 (hline ▸ hblank)
  unfold read
  rw [if_neg (Nat.not_lt.2 hsize), hts, listed, hnone]
  rfl

/-! ## where the errors lie -/

/-- what stands in front of a place in the line ends between two of its characters -/
theorem isValid_width {line : String} (before after : List Char) (h : line.toList = before ++ after) :
    (⟨width before⟩ : String.Pos.Raw).IsValid line := by
  have hsplit : line.toList = before ++ [] ++ after := by rw [List.append_nil, h]
  exact (Span.text_of_append hsplit).1.2.1

theorem isValid_of_stops {line : String} {e : LexError} (h : Stops line.toList e) :
    (⟨e.offset⟩ : String.Pos.Raw).IsValid line := by
  cases h with
  | @unrecognized ps word rest c hsplit _ _ _ =>
    exact isValid_width _ (c :: rest) (by rw [hsplit.eq_append, List.append_assoc])
  | unterminated _ _ _ => exact isValid_width _ [] (List.append_nil _).symm

/-- an error about tokens lies where one of them begins -/
theorem isValid_of_parse {line : String} {ts : List Token} {e : ParseError} (hts : tokenize line = .ok ts)
    (h : parse ts = .error e) : (⟨e.offset⟩ : String.Pos.Raw).IsValid line := by
  obtain ⟨i, x, hget, hoffset, -⟩ := (parse_fault (end_mem_of_tokenize hts)).1 e h
  obtain ⟨ps, hps, rfl⟩ := splits_of_tokenize hts
  rw [hoffset]
  exact (hps.lies.fits x (List.mem_of_getElem? hget)).2.1

theorem isValid_of_read {line : String} {e : ParseError} (h : read line = .error e) :
    (⟨e.offset⟩ : String.Pos.Raw).IsValid line := by
  unfold read at h
  split at h
  · cases h
    exact isValid_width [] line.toList rfl
  · split at h
    · rename_i e' he'
      cases h
      exact isValid_of_stops (stops_of_tokenize he')
    · rename_i ts hts
      exact isValid_of_parse hts h

/-! ## all lines -/

theorem not_vacant_of_error {line : String} {f : Failure} (h : command line = .error f) : ¬ Vacant line := by
  rintro ⟨hsize, hblank⟩
  rw [command_of_blank hsize hblank] at h
  cases h

/-- a line fails in one of two ways, and which one says whether it was read into tokens -/
theorem failure_cases {line : String} {f : Failure} (h : command line = .error f) :
    (∃ e, f = .lex e) ∧ Illegible line ∨ (∃ e, f = .parse e) ∧ ¬ Illegible line := by
  have halike := alike_of_not_vacant (not_vacant_of_error h)
  obtain ⟨-, hcases⟩ := unread_cases h
  rw [h] at halike
  generalize read line = r at halike
  cases halike with
  | lex e =>
    rcases hcases with ⟨-, hillegible⟩ | ⟨hcode, -⟩
    · exact .inl ⟨⟨e, rfl⟩, hillegible⟩
    · cases hcode
  | parse e =>
    rcases hcases with ⟨hcode, -⟩ | ⟨-, hmisspelt⟩
    · cases hcode
    · exact .inr ⟨⟨e, rfl⟩, fun hillegible => hillegible.not_misspelt hmisspelt⟩

/-- **The readers agree.** `command` finds nothing exactly on the lines of blanks that are not too long. It finds a
tree if and only if `read` gives this tree. On a line that holds something both fail or neither does, and with the
same message at the same byte: as a failure to read tokens exactly if the line is not too long and is not read into
tokens, and as one to parse them otherwise. Every error lies in its line, between characters. -/
theorem command_alike_read (line : String) :
    (command line = .ok none ↔ Vacant line) ∧
    (∀ t, command line = .ok (some t) ↔ read line = .ok t) ∧
    (¬ Vacant line → ((∃ f, command line = .error f) ↔ ∃ e, read line = .error e)) ∧
    (∀ f, command line = .error f → ∃ e, read line = .error e ∧ f.complaint? = some (e.fault.message, e.offset) ∧
      ((∃ x, f = .lex x) ↔ Illegible line) ∧ ((∃ x, f = .parse x) ↔ ¬ Illegible line)) ∧
    ∀ e, read line = .error e → e.offset ≤ line.utf8ByteSize ∧ (⟨e.offset⟩ : String.Pos.Raw).IsValid line := by
  refine ⟨?_, ?_, ?_, ?_, ?_⟩
  · constructor
    · intro hnone
      obtain ⟨hsize, ts, -, ⟨hblank, -⟩ | ⟨-, t, htree, -⟩⟩ := read_cases hnone
      · exact ⟨hsize, hblank⟩
      · cases htree
    · exact fun h => command_of_blank h.1 h.2
  · intro t
    by_cases hvacant : Vacant line
    · rw [command_of_blank hvacant.1 hvacant.2, read_blank hvacant]
      constructor <;> nofun
    · have halike := alike_of_not_vacant hvacant
      generalize command line = c at halike ⊢
      generalize read line = r at halike ⊢
      cases halike <;> simp
  · intro hvacant
    have halike := alike_of_not_vacant hvacant
    generalize command line = c at halike ⊢
    generalize read line = r at halike ⊢
    cases halike <;> simp
  · intro f hf
    have halike := alike_of_not_vacant (not_vacant_of_error hf)
    rw [hf] at halike
    obtain ⟨e, he⟩ : ∃ e, read line = .error e := by
      generalize read line = r at halike ⊢
      cases halike <;> exact ⟨_, rfl⟩
    rw [he] at halike
    refine ⟨e, he, halike.complaint, ?_⟩
    rcases failure_cases hf with ⟨⟨x, rfl⟩, hillegible⟩ | ⟨⟨x, rfl⟩, hlegible⟩
    · simp [hillegible]
    · simp [hlegible]
  · intro e he
    have hvalid := isValid_of_read he
    exact ⟨hvalid.le_rawEndPos, hvalid⟩

/-- an open quote is told where the line ends, in bytes: the first character takes two -/
example : command "é 'a" = .error (.lex ⟨.unterminatedQuote, 5⟩) ∧
    read "é 'a" = .error ⟨.lexical .unterminatedQuote, 5⟩ := by
  decide +kernel

end Line

end LineShell
