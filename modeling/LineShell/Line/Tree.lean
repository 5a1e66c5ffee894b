/-
What a command line says.

A line is a chain of statements, each ended by `;` or by `&`, the last one possibly by neither. A statement is a chain
of stages joined by `|`, and a stage is a command, perhaps with one redirection. `Tree` has a form for each of these
and puts no limit on how they nest: a tree read from a line keeps to the order above, and whoever builds a tree
directly need not.

Words are byte ranges of the line, so a tree is read together with its line.
-/
import LineShell.Line.Span

namespace LineShell

/-- how a statement is ended: its successor waits for it, or does not -/
inductive Separator where
  | sequence
  | background
  deriving DecidableEq, Repr

/-- which stream of a command a redirection replaces -/
inductive Direction where
  | input
  | output
  deriving DecidableEq, Repr

/-- a command line, as a tree -/
inductive Tree where
  /-- the command word and its arguments -/
  | command (words : List Span)
  /-- a command whose input or output is a file -/
  | redirect (direction : Direction) (target : Span) (inner : Tree)
  /-- the output of `left` is the input of `right` -/
  | pipe (left right : Tree)
  /-- a statement with a separator and nothing after it -/
  | ended (left : Tree) (sep : Separator)
  /-- a statement, its separator, and the statements after it -/
  | chained (left : Tree) (sep : Separator) (right : Tree)
  deriving DecidableEq, Repr

namespace Tree

/-- does the tree end a statement, so that it is not a group of stages? -/
def isStatement : Tree → Bool
  | ended _ _ => true
  | chained _ _ _ => true
  | _ => false

/-- the words of every command in the tree, left to right -/
def wordLists : Tree → List (List Span)
  | command words => [words]
  | redirect _ _ inner => inner.wordLists
  | pipe left right => left.wordLists ++ right.wordLists
  | ended left _ => left.wordLists
  | chained left _ right => left.wordLists ++ right.wordLists

/-- the argument vectors of every command in the tree, left to right -/
def argvLists (t : Tree) (line : String) : List (List String) :=
  t.wordLists.map fun words => words.map (·.text line)

end Tree

end LineShell
