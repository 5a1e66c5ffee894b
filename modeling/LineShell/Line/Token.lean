/-
The tokens of a command line.

A line consists of words, of the five operators `|`, `&`, `>`, `<` and `;`, and of an end. Reading may also stop early,
at a character that has no meaning or at the end of the line inside quotes; such a stop is a token too, so that the
tokens of any line are defined.
-/
import LineShell.Line.Span

namespace LineShell

/-- what a token is -/
inductive TokenKind where
  /-- a word, bare or quoted -/
  | word
  | pipe
  | amp
  | great
  | less
  | semicolon
  /-- the end of the line -/
  | endOfLine
  /-- reading stopped here -/
  | stopped
  deriving DecidableEq, Repr

namespace TokenKind

/-- the name of a kind in diagnostics; an operator is named by itself -/
def name : TokenKind → String
  | word => "ATOM"
  | pipe => "|"
  | amp => "&"
  | great => ">"
  | less => "<"
  | semicolon => ";"
  | endOfLine => "EOL"
  | stopped => "ERROR"

/-- does the kind redirect a command's input or output? -/
def isRedirection : TokenKind → Bool
  | less => true
  | great => true
  | _ => false

/-- does the kind end a statement? -/
def isSeparator : TokenKind → Bool
  | amp => true
  | semicolon => true
  | _ => false

/-- the kind of a one-character operator -/
def ofOperator? : Char → Option TokenKind
  | '|' => some pipe
  | '&' => some amp
  | '>' => some great
  | '<' => some less
  | ';' => some semicolon
  | _ => none

end TokenKind

/-- why reading a line stopped early -/
inductive LexicalFault where
  | unterminatedQuote
  | unrecognizedCharacter
  /-- a reason in the host's own words; reading a line never gives one -/
  | custom (text : String)
  deriving DecidableEq, Repr

/-- the wording of a lexical fault -/
def LexicalFault.message : LexicalFault → String
  | unterminatedQuote => "unterminated quote"
  | unrecognizedCharacter => "unrecognized character"
  | custom text => text

/-- a token: its kind, where it lies, and for a stop the reason -/
structure Token where
  kind : TokenKind
  span : Span
  fault : Option LexicalFault := none
  deriving DecidableEq, Repr

namespace Token

/-- the word that lies at `start` to `stop` -/
def ofWord (start stop : Nat) : Token := ⟨.word, ⟨start, stop⟩, none⟩

/-- the end of the line, at `offset` -/
def ofEnd (offset : Nat) : Token := ⟨.endOfLine, ⟨offset, offset⟩, none⟩

/-- the stop at `offset` -/
def ofFault (fault : LexicalFault) (offset : Nat) : Token := ⟨.stopped, ⟨offset, offset⟩, some fault⟩

/-- the token's text in the line that it was read from -/
def text (t : Token) (line : String) : String := t.span.text line

end Token

/-! ## character classes -/

/-- characters that separate words -/
def isBlank : Char → Bool
  | ' ' => true
  | '\t' => true
  | '\x0b' => true
  | '\r' => true
  | '\n' => true
  | '\x0c' => true
  | _ => false

/-- characters that open a quoted word at its start -/
def isQuote : Char → Bool
  | '\'' => true
  | '"' => true
  | _ => false

/-- the ASCII control characters -/
def isControl (c : Char) : Bool := c.toNat < 0x20 || c.toNat == 0x7F

/-- an operator is no blank, no quote and no control character -/
theorem operator_disjoint {c : Char} {k : TokenKind} (h : TokenKind.ofOperator? c = some k) :
    isBlank c = false ∧ isQuote c = false ∧ isControl c = false := by
  unfold TokenKind.ofOperator? at h
  split at h
  case h_6 => cases h
  all_goals exact ⟨rfl, rfl, rfl⟩

end LineShell
