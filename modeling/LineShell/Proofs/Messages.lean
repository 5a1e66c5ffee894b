/-
What the messages about a text that cannot be read are made of.

Such a message has a wording of its own, the names of tokens, and numbers, but nothing of the text itself. So it is in
one piece (`Unbroken`): it holds no control character, hence no end of a line and no NUL, whatever the text was.

- `Line.unbroken_of_command`: the message about a line that cannot be read is in one piece.
- `Utf8.unbroken_message`: so is the message about bytes that are no text.
-/
import LineShell.Proofs.Lexing
import LineShell.Shell
import LineShell.Text.Utf8

namespace LineShell

/-- a text without control characters -/
def Unbroken (s : String) : Prop := ∀ c ∈ s.toList, isControl c = false

instance (s : String) : Decidable (Unbroken s) := List.decidableBAll (fun c => isControl c = false) s.toList

theorem Unbroken.append {s t : String} (hs : Unbroken s) (ht : Unbroken t) : Unbroken (s ++ t) := by
  intro c hc
  rw [String.toList_append] at hc
  exact (List.mem_append.1 hc).elim (hs c) (ht c)

/-- digits are no control characters -/
theorem isControl_of_isDigit {c : Char} (h : c.isDigit = true) : isControl c = false := by
  simp only [Char.isDigit, Bool.and_eq_true, decide_eq_true_eq, ge_iff_le, UInt32.le_iff_toNat_le] at h
  have hlow : 48 ≤ c.toNat := h.1
  have hhigh : c.toNat ≤ 57 := h.2
  simp only [isControl, Bool.or_eq_false_iff, decide_eq_false_iff_not, beq_eq_false_iff_ne]
  omega

theorem unbroken_toString (n : Nat) : Unbroken (toString n) := by
  intro c hc
  rw [Nat.toString_eq_repr, Nat.repr_eq_ofList_toDigits, String.toList_ofList] at hc
  exact isControl_of_isDigit (Nat.isDigit_of_mem_toDigits (by decide) (Nat.le_refl 10) hc)

theorem Unbroken.not_mem {s : String} (h : Unbroken s) {c : Char} (hc : isControl c = true) : c ∉ s.toList := by
  intro hmem
  rw [h c hmem] at hc
  exact Bool.false_ne_true hc

/-! ## lines -/

theorem TokenKind.unbroken_found (k : TokenKind) : Unbroken k.found := by
  cases k <;> decide

theorem TokenKind.unbroken_name (k : TokenKind) : Unbroken k.name := by
  cases k <;> decide

theorem ParseError.unbroken_message {e : ParseError} (h : Unbroken e.fault.message) : Unbroken e.message :=
  (((show Unbroken "Parse error at offset " by decide).append (unbroken_toString _)).append
    (show Unbroken ": " by decide)).append h

namespace Line

theorem unbroken_of_tokenize {line : String} {e : LexError} (h : tokenize line = .error e) : Unbroken e.message := by
  have hfault : Unbroken e.fault.message := by
    cases stops_of_tokenize h with
    | unrecognized _ _ _ _ => exact (by decide : Unbroken LexicalFault.unrecognizedCharacter.message)
    | unterminated _ _ _ => exact (by decide : Unbroken LexicalFault.unterminatedQuote.message)
  exact (hfault.append (show Unbroken " at offset " by decide)).append (unbroken_toString _)

/-! ### what the rules of the grammar complain about -/

theorem unbroken_expectedCommand (k : TokenKind) : Unbroken (SyntaxFault.expectedCommand k).message :=
  (show Unbroken "expected a command, found " by decide).append k.unbroken_found

theorem unbroken_expectedTarget (k : TokenKind) : Unbroken (SyntaxFault.expectedTarget k).message :=
  (show Unbroken "expected redirection target, found " by decide).append k.unbroken_found

theorem unbroken_tooDeep : Unbroken SyntaxFault.tooDeep.message :=
  ((show Unbroken "command line nests deeper than " by decide).append (unbroken_toString _)).append
    (show Unbroken " levels" by decide)

theorem unbroken_of_stage {c : Cursor} {e : ParseError} (h : stage c = .error e) : Unbroken e.fault.message := by
  unfold stage redirection at h
  split at h
  · cases h
    exact unbroken_expectedCommand _
  · split at h
    · cases h
    · split at h
      · cases h
      · cases h
        exact unbroken_expectedTarget _

theorem unbroken_of_pipeline {room : Nat} {c : Cursor} {e : ParseError} (h : pipeline room c = .error e) :
    Unbroken e.fault.message := by
  induction room generalizing c with
  | zero =>
    cases h
    exact unbroken_tooDeep
  | succ room ih =>
    unfold pipeline at h
    split at h
    · rename_i hs
      cases h
      exact unbroken_of_stage hs
    · split at h
      · split at h
        · rename_i hp
          cases h
          exact ih hp
        · cases h
      · cases h

theorem unbroken_of_statements {room : Nat} {c : Cursor} {e : ParseError} (h : statements room c = .error e) :
    Unbroken e.fault.message := by
  induction room generalizing c with
  | zero =>
    cases h
    exact unbroken_tooDeep
  | succ room ih =>
    unfold statements at h
    split at h
    · rename_i hp
      cases h
      exact unbroken_of_pipeline hp
    · split at h
      · cases h
      · split at h
        · cases h
        · split at h
          · rename_i hs
            cases h
            exact ih hs
          · cases h

theorem unbroken_of_parse {ts : List Token} {e : ParseError} (h : parse ts = .error e) : Unbroken e.message := by
  apply ParseError.unbroken_message
  unfold parse at h
  split at h
  · rename_i hs
    cases h
    exact unbroken_of_statements hs
  · split at h
    · cases h
    · cases h
      exact ((show Unbroken "trailing input near `" by decide).append (TokenKind.unbroken_name _)).append
        (show Unbroken "'" by decide)

/-- the message about a line that cannot be read is in one piece -/
theorem unbroken_of_command {line : String} {f : Failure} (h : command line = .error f) : Unbroken f.message := by
  have hprefix : Unbroken "syntax error: " := by decide
  unfold command at h
  split at h
  · cases h
    refine hprefix.append (ParseError.unbroken_message ?_)
    exact (((show Unbroken "Input too large: " by decide).append (unbroken_toString _)).append
      (show Unbroken " bytes exceeds limit of " by decide)).append (unbroken_toString _)
  · split at h
    · rename_i ht
      cases h
      exact hprefix.append (unbroken_of_tokenize ht)
    · split at h
      · cases h
      · split at h
        · rename_i hp
          cases h
          exact hprefix.append (unbroken_of_parse hp)
        · cases h

end Line

/-! ## bytes -/

/-- the message about bytes that are no text is in one piece -/
theorem Utf8.unbroken_message (f : Utf8.Fault) : Unbroken f.message := by
  obtain ⟨offset, length⟩ := f
  cases length with
  | some n =>
    exact (((show Unbroken "invalid utf-8 sequence of " by decide).append (unbroken_toString _)).append
      (show Unbroken " bytes from index " by decide)).append (unbroken_toString _)
  | none => exact (show Unbroken "incomplete utf-8 byte sequence from index " by decide).append (unbroken_toString _)

end LineShell
