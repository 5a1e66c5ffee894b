/-
Reading a line into tokens.

The reader takes the line character by character and is a left fold: `Scan.step` is one character, `Scan.finish` the
end of the line. Between tokens it waits for one to start; inside a bare word it waits for a blank or an operator, and
inside quotes for the same quote again. A quote counts only at the start of a word, and quoted text is taken as it
stands. A control character outside quotes that is no blank stops the reader for good, and so does the end of the line
inside quotes; nothing after a stop is looked at.

Offsets count bytes. Because the reader is a fold, reading a concatenation is reading the parts one after the other
(`scan_append`), and a stopped reader stays as it is (`scan_stopped`).
-/
import LineShell.Line.Token

namespace LineShell

namespace Scan

/-- where the reader stands -/
inductive Mode where
  | between
  /-- inside the bare word that began at `start` -/
  | bare (start : Nat)
  /-- inside quotes whose content began at `start` -/
  | quoted (quote : Char) (start : Nat)
  | stopped
  deriving DecidableEq, Repr

end Scan

/-- the reader: the tokens read so far, newest first, where it stands, and how many bytes it has taken -/
structure Scan where
  tokens : List Token := []
  mode : Scan.Mode := .between
  offset : Nat := 0
  deriving DecidableEq, Repr

namespace Scan

/-- add a token and stand between tokens, `width` bytes on -/
def emit (s : Scan) (ts : List Token) (width : Nat) : Scan :=
  ⟨ts.reverse ++ s.tokens, .between, s.offset + width⟩

/-- stop for good -/
def stop (s : Scan) (fault : LexicalFault) : Scan :=
  ⟨.ofFault fault s.offset :: s.tokens, .stopped, s.offset⟩

/-- one character outside quotes; `pending` is the bare word that it would end -/
def stepBare (s : Scan) (c : Char) (pending : Option Nat) : Scan :=
  let ended := pending.toList.map fun start => Token.ofWord start s.offset
  if isBlank c then s.emit ended c.utf8Size
  else match TokenKind.ofOperator? c with
  | some k => s.emit (ended ++ [⟨k, ⟨s.offset, s.offset + 1⟩, none⟩]) c.utf8Size
  | none =>
    if pending.isNone && isQuote c then
      { s with mode := .quoted c (s.offset + c.utf8Size), offset := s.offset + c.utf8Size }
    else if isControl c then s.stop .unrecognizedCharacter
    else { s with mode := .bare (pending.getD s.offset), offset := s.offset + c.utf8Size }

/-- one character -/
def step (s : Scan) (c : Char) : Scan :=
  match s.mode with
  | .stopped => s
  | .between => s.stepBare c none
  | .bare start => s.stepBare c (some start)
  | .quoted q start =>
    if c = q then s.emit [.ofWord start s.offset] c.utf8Size
    else { s with offset := s.offset + c.utf8Size }

/-- the reader after the characters `cs` -/
def scan (s : Scan) (cs : List Char) : Scan := cs.foldl step s

/-- all tokens, in order, when the line ends here: the last one is the end of the line or a stop -/
def finish (s : Scan) : List Token :=
  match s.mode with
  | .stopped => s.tokens.reverse
  | .between => (.ofEnd s.offset :: s.tokens).reverse
  | .bare start => (.ofEnd s.offset :: .ofWord start s.offset :: s.tokens).reverse
  | .quoted _ _ => (.ofFault .unterminatedQuote s.offset :: s.tokens).reverse

theorem scan_append (s : Scan) (cs ds : List Char) : s.scan (cs ++ ds) = (s.scan cs).scan ds :=
  List.foldl_append

theorem scan_stopped {s : Scan} (h : s.mode = .stopped) (cs : List Char) : s.scan cs = s := by
  induction cs with
  | nil => rfl
  | cons c cs ih => simpa [scan, step, h] using ih

end Scan

/-- a line that cannot be read into tokens: why, and at which byte -/
structure LexError where
  fault : LexicalFault
  offset : Nat
  deriving DecidableEq, Repr

/-- the diagnostic of a line that cannot be read -/
def LexError.message (e : LexError) : String := s!"{e.fault.message} at offset {e.offset}"

namespace Line

/-- every token of the line, a stop included -/
def tokens (line : String) : List Token := (({} : Scan).scan line.toList).finish

/-- the error that a token stands for, if it is a stop -/
def stopOf? (t : Token) : Option LexError := t.fault.map fun f => ⟨f, t.span.start⟩

/-- the tokens of a line that can be read to its end -/
def tokenize (line : String) : Except LexError (List Token) :=
  let ts := tokens line
  match ts.findSome? stopOf? with
  | some e => .error e
  | none => .ok ts

end Line

end LineShell
