/-
Reading tokens into a tree.

    line     ::= pipeline [ ( '&' | ';' ) [ line ] ]
    pipeline ::= stage [ '|' pipeline ]
    stage    ::= word+ [ ( '>' | '<' ) word ]

Both recursions take the room that is left, which starts at `maxDepth`: the k-th statement of a line leaves
`maxDepth - k` levels to its stages, so a statement with p stages fits while k + p is at most `maxDepth`. Running out
of room is an error of its own, found before anything wrong further on.

Reading stops at the first end of line; what lies behind it is not looked at. A token list without one ends where its
last token ends.
-/
import LineShell.Line.Lexer
import LineShell.Line.Tree

namespace LineShell

/-- the most statements and stages that may nest -/
def maxDepth : Nat := 1000

/-- the most bytes that a line may have -/
def maxLineSize : Nat := 1000000

/-- why a line does not parse -/
inductive SyntaxFault where
  | expectedCommand (found : TokenKind)
  | expectedTarget (found : TokenKind)
  | trailing (found : TokenKind)
  | tooDeep
  | tooLarge (size : Nat)
  | lexical (fault : LexicalFault)
  /-- a reason in the host's own words; reading a line never gives one -/
  | custom (text : String) (found : Option TokenKind)
  deriving DecidableEq, Repr

/-- how a diagnostic names the token that was found -/
def TokenKind.found : TokenKind → String
  | endOfLine => "end of input"
  | k => s!"`{k.name}'"

namespace SyntaxFault

/-- the wording of a fault -/
def message : SyntaxFault → String
  | expectedCommand k => s!"expected a command, found {k.found}"
  | expectedTarget k => s!"expected redirection target, found {k.found}"
  | trailing k => s!"trailing input near `{k.name}'"
  | tooDeep => s!"command line nests deeper than {maxDepth} levels"
  | tooLarge n => s!"Input too large: {n} bytes exceeds limit of {maxLineSize}"
  | lexical f => f.message
  | custom text _ => text

/-- the kind of the token at fault, where one token is -/
def kind? : SyntaxFault → Option TokenKind
  | expectedCommand k => some k
  | expectedTarget k => some k
  | trailing k => some k
  | tooDeep => none
  | tooLarge _ => none
  | lexical _ => none
  | custom _ k => k

end SyntaxFault

/-- a line that does not parse: why, and at which byte -/
structure ParseError where
  fault : SyntaxFault
  offset : Nat
  deriving DecidableEq, Repr

/-- the diagnostic of a line that does not parse -/
def ParseError.message (e : ParseError) : String := s!"Parse error at offset {e.offset}: {e.fault.message}"

namespace Line

/-! ## the tokens still to be read -/

/-- the tokens still to be read, and where the whole list of tokens ends -/
structure Cursor where
  rest : List Token
  last : Nat
  deriving DecidableEq, Repr

namespace Cursor

/-- the cursor at the front of a list of tokens -/
def start (ts : List Token) : Cursor := ⟨ts, (ts.getLast?.map (·.span.stop)).getD 0⟩

/-- the next token; behind the last one the line has ended -/
def current (c : Cursor) : Token := c.rest.head?.getD (.ofEnd c.last)

/-- past the next token -/
def next (c : Cursor) : Cursor := { c with rest := c.rest.tail }

/-- the words that come next -/
def words (c : Cursor) : List Token := c.rest.takeWhile (·.kind == .word)

/-- past the words that come next -/
def afterWords (c : Cursor) : Cursor := { c with rest := c.rest.dropWhile (·.kind == .word) }

/-- the error that the next token is -/
def error (c : Cursor) (fault : TokenKind → SyntaxFault) : ParseError := ⟨fault c.current.kind, c.current.span.start⟩

/-- the error that there is no room left -/
def tooDeep (c : Cursor) : ParseError := ⟨.tooDeep, c.current.span.start⟩

end Cursor

/-! ## the grammar -/

/-- what one rule of the grammar gives: a tree and the tokens behind it, or an error -/
abbrev Parse := Except ParseError (Tree × Cursor)

/-- the stream that a redirection operator replaces -/
def direction? : TokenKind → Option Direction
  | .less => some .input
  | .great => some .output
  | _ => none

/-- the way in which a separator ends a statement -/
def separator? : TokenKind → Option Separator
  | .semicolon => some .sequence
  | .amp => some .background
  | _ => none

/-- the redirection that may follow a command -/
def redirection (cmd : Tree) (c : Cursor) : Parse :=
  match direction? c.current.kind with
  | none => .ok (cmd, c)
  | some d =>
    if c.next.current.kind = .word then .ok (.redirect d c.next.current.span cmd, c.next.next)
    else .error (c.next.error .expectedTarget)

/-- one stage -/
def stage (c : Cursor) : Parse :=
  if c.words.isEmpty then .error (c.error .expectedCommand)
  else redirection (.command (c.words.map (·.span))) c.afterWords

/-- stages joined by `|`, at most `room` of them -/
def pipeline : (room : Nat) → Cursor → Parse
  | 0, c => .error c.tooDeep
  | room + 1, c =>
    match stage c with
    | .error e => .error e
    | .ok (left, c) =>
      if c.current.kind = .pipe then
        match pipeline room c.next with
        | .error e => .error e
        | .ok (right, c) => .ok (.pipe left right, c)
      else .ok (left, c)

/-- statements, with `room` levels left for them and for the stages inside them -/
def statements : (room : Nat) → Cursor → Parse
  | 0, c => .error c.tooDeep
  | room + 1, c =>
    match pipeline room c with
    | .error e => .error e
    | .ok (left, c) =>
      match separator? c.current.kind with
      | none => .ok (left, c)
      | some sep =>
        if c.next.current.kind = .endOfLine then .ok (.ended left sep, c.next)
        else
          match statements room c.next with
          | .error e => .error e
          | .ok (right, c) => .ok (.chained left sep right, c)

/-- the tree that a list of tokens spells, all tokens up to the end of line included -/
def parse (ts : List Token) : Except ParseError Tree :=
  match statements maxDepth (.start ts) with
  | .error e => .error e
  | .ok (t, c) => if c.current.kind = .endOfLine then .ok t else .error (c.error .trailing)

/-- the tree that a line spells -/
def read (line : String) : Except ParseError Tree :=
  if line.utf8ByteSize > maxLineSize then .error ⟨.tooLarge line.utf8ByteSize, 0⟩
  else
    match tokenize line with
    | .error e => .error ⟨.lexical e.fault, e.offset⟩
    | .ok ts => parse ts

end Line

end LineShell
