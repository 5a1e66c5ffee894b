/-
Reading shell scripts.

A script is cut into lexemes: words, operators and line ends. A word is a list of fragments, of which some stand for a
text that is known only when the script runs. Lexemes are then read into a command: lists of pipelines of simple and
compound commands.
-/
import LineShell.Text.Bytes

namespace LineShell.Userland

/-- part of a word -/
inductive Fragment where
  | text (s : String) (quoted : Bool)
  /-- the value of a variable, or `fallback` if it has none -/
  | variable (name : String) (fallback : Option String) (quoted : Bool)
  /-- what a script writes -/
  | output (script : String) (quoted : Bool)
  /-- the value of an expression -/
  | value (expression : String) (quoted : Bool)
  deriving DecidableEq, Repr

abbrev Word := List Fragment

/-- what a redirection does with a descriptor -/
inductive RedirectionKind where
  | input
  | output
  | append
  /-- copy another descriptor, or close this one -/
  | duplicate
  deriving DecidableEq, Repr

/-- a redirection of the descriptor `fd` -/
structure Redirection where
  fd : Nat
  kind : RedirectionKind
  target : Word
  deriving DecidableEq, Repr

/-- a command of a script -/
inductive Command where
  | nothing
  | simple (assignments : List (String × Word)) (words : List Word) (redirections : List Redirection)
  | pipe (left right : Command)
  | negation (inner : Command)
  | both (left right : Command)
  | either (left right : Command)
  | sequence (left right : Command)
  | background (inner : Command)
  /-- a list in parentheses, which has a shell of its own, or in braces -/
  | grouped (forked : Bool) (body : Command) (redirections : List Redirection)
  | conditional (test yes no : Command)
  | repetition (untilHolds : Bool) (test body : Command)
  | iteration (name : String) (words : List Word) (body : Command)
  deriving Repr

/-- why a script cannot be read -/
inductive ScriptFault where
  | unterminatedQuote
  | unexpected (what : String)
  | unexpectedEnd
  deriving DecidableEq, Repr

/-- the wording of a script's fault -/
def ScriptFault.message : ScriptFault → String
  | unterminatedQuote => "Syntax error: Unterminated quoted string"
  | unexpected what => s!"Syntax error: \"{what}\" unexpected"
  | unexpectedEnd => "Syntax error: end of file unexpected"

/-! ## lexemes -/

inductive Lexeme where
  | word (w : Word)
  | operator (name : String)
  /-- the number in front of a redirection -/
  | descriptor (n : Nat)
  deriving DecidableEq, Repr

/-- may the character begin a variable's name? -/
def isNameStart (c : Char) : Bool := c.isAlpha || c == '_'

/-- may the character stand in a variable's name? -/
def isNameChar (c : Char) : Bool := c.isAlphanum || c == '_'

/-- the characters that are variables' names by themselves -/
def isSpecialName (c : Char) : Bool := "?$#@*!-".contains c || c.isDigit

/-- does the character end a bare word? -/
def endsWord (c : Char) : Bool := " \t\n;&|<>()".contains c

/-- the characters up to the parenthesis that closes `depth` open ones, and those behind it; what is quoted does not
count -/
def untilClosed : (depth : Nat) → (quote : Option Char) → List Char → Option (List Char × List Char)
  | _, _, [] => none
  | depth, some q, c :: cs =>
    (untilClosed depth (if c = q then none else some q) cs).map fun (inner, rest) => (c :: inner, rest)
  | depth, none, c :: cs =>
    if c = ')' && depth ≤ 1 then some ([], cs)
    else
      let depth := if c = '(' then depth + 1 else if c = ')' then depth - 1 else depth
      let quote := if c = '\'' || c = '"' then some c else none
      (untilClosed depth quote cs).map fun (inner, rest) => (c :: inner, rest)

/-- the characters up to a character that no backslash stands in front of, and those behind it -/
def untilChar (stop : Char) : List Char → Option (List Char × List Char)
  | [] => none
  | '\\' :: c :: cs => (untilChar stop cs).map fun (inner, rest) =>
    (if c = stop then c :: inner else '\\' :: c :: inner, rest)
  | c :: cs => if c = stop then some ([], cs) else (untilChar stop cs).map fun (inner, rest) => (c :: inner, rest)

/-- read what stands between the braces of a variable -/
def bracedVariable (quoted : Bool) (inner : List Char) : Fragment :=
  let name := match inner with
    | c :: _ => if isNameStart c then inner.takeWhile isNameChar else inner.take 1
    | [] => []
  let fallback := match inner.drop name.length with
    | ':' :: '-' :: word => some (String.ofList word)
    | '-' :: word => some (String.ofList word)
    | _ => none
  .variable (String.ofList name) fallback quoted

/-- read what stands behind a dollar sign -/
def readDollar (quoted : Bool) (cs : List Char) : Option (Fragment × List Char) :=
  match cs with
  | '(' :: '(' :: rest =>
    match untilClosed 1 none rest with
    | some (inner, ')' :: rest) => some (.value (String.ofList inner) quoted, rest)
    | _ => none
  | '(' :: rest => (untilClosed 1 none rest).map fun (inner, rest) => (.output (String.ofList inner) quoted, rest)
  | '\x7b' :: rest => (untilChar '\x7d' rest).map fun (inner, rest) => (bracedVariable quoted inner, rest)
  | c :: rest =>
    if isNameStart c then
      let name := cs.takeWhile isNameChar
      some (.variable (String.ofList name) none quoted, cs.drop name.length)
    else if isSpecialName c then some (.variable c.toString none quoted, rest)
    else some (.text "$" quoted, cs)
  | [] => some (.text "$" quoted, [])

/-- read what stands between double quotes, behind the fragments already found, newest first -/
def readDoubleQuoted : (fuel : Nat) → (found : Word) → List Char → Option (Word × List Char)
  | 0, _, _ => none
  | _ + 1, _, [] => none
  | _ + 1, found, '"' :: rest => some (found, rest)
  | fuel + 1, found, '\\' :: c :: rest =>
    if c = '\n' then readDoubleQuoted fuel found rest
    else if "$\x60\"\\".contains c then readDoubleQuoted fuel (.text c.toString true :: found) rest
    else readDoubleQuoted fuel (.text (String.ofList ['\\', c]) true :: found) rest
  | fuel + 1, found, '$' :: rest =>
    match readDollar true rest with
    | none => none
    | some (f, rest) => readDoubleQuoted fuel (f :: found) rest
  | fuel + 1, found, '\x60' :: rest =>
    match untilChar '\x60' rest with
    | none => none
    | some (inner, rest) => readDoubleQuoted fuel (.output (String.ofList inner) true :: found) rest
  | fuel + 1, found, c :: rest => readDoubleQuoted fuel (.text c.toString true :: found) rest

/-- read the rest of a word, behind the fragments already found, newest first -/
def readWord : (fuel : Nat) → (found : Word) → List Char → Option (Word × List Char)
  | 0, _, _ => none
  | _ + 1, found, [] => some (found.reverse, [])
  | fuel + 1, found, c :: rest =>
    if c = '\\' then
      match rest with
      | [] => some ((.text "\\" false :: found).reverse, [])
      | '\n' :: rest => readWord fuel found rest
      | d :: rest => readWord fuel (.text d.toString true :: found) rest
    else if c = '\'' then
      let inner := rest.takeWhile (· != '\'')
      match rest.drop inner.length with
      | [] => none
      | _ :: rest => readWord fuel (.text (String.ofList inner) true :: found) rest
    else if c = '"' then
      match readDoubleQuoted fuel (.text "" true :: found) rest with
      | none => none
      | some (found, rest) => readWord fuel found rest
    else if c = '$' then
      match readDollar false rest with
      | none => none
      | some (f, rest) => readWord fuel (f :: found) rest
    else if c = '\x60' then
      match untilChar '\x60' rest with
      | none => none
      | some (inner, rest) => readWord fuel (.output (String.ofList inner) false :: found) rest
    else if endsWord c then some (found.reverse, c :: rest)
    else readWord fuel (.text c.toString false :: found) rest

/-- the operators, longer ones in front -/
def operators : List String := ["&&", "||", ">>", ">&", "<&", ">|", ";", "&", "|", "<", ">", "(", ")", "\n"]

/-- the operator at the front, and what is behind it -/
def readOperator? (cs : List Char) : Option (String × List Char) :=
  (operators.find? fun op => op.toList.isPrefixOf cs).map fun op => (op, cs.drop op.length)

/-- the number that a word without quotes is -/
def wordNumber? (w : Word) : Option Nat :=
  (w.foldl (fun (s : Option String) f => match s, f with
    | some s, .text t false => some (s ++ t)
    | _, _ => none) (some "")).bind String.toNat?

/-- cut a script into lexemes -/
def lexemes : (fuel : Nat) → List Char → Except ScriptFault (List Lexeme)
  | 0, _ => .error .unexpectedEnd
  | _ + 1, [] => .ok []
  | fuel + 1, c :: rest =>
    if c = ' ' || c = '\t' then lexemes fuel rest
    else if c = '#' then lexemes fuel (rest.dropWhile (· != '\n'))
    else if c = '\\' && rest.head? == some '\n' then lexemes fuel rest.tail
    else match readOperator? (c :: rest) with
      | some (op, rest) => (lexemes fuel rest).map (.operator op :: ·)
      | none =>
        match readWord (rest.length + 2) [] (c :: rest) with
        | none => .error .unterminatedQuote
        | some (w, rest) =>
          let redirects := rest.head? == some '<' || rest.head? == some '>'
          let lexeme := match wordNumber? w with
            | some n => if redirects then .descriptor n else .word w
            | none => .word w
          (lexemes fuel rest).map (lexeme :: ·)

/-! ## commands -/

/-- the text of a word that has neither quotes nor variables -/
def plainText? (w : Word) : Option String :=
  w.foldl (fun (s : Option String) f => match s, f with
    | some s, .text t false => some (s ++ t)
    | _, _ => none) (some "")

/-- the words that close a list of commands -/
def closingWords : List String := ["then", "elif", "else", "fi", "do", "done", "\x7d"]

/-- the word at the front, as plain text -/
def frontWord? : List Lexeme → Option String
  | .word w :: _ => plainText? w
  | _ => none

/-- without the line ends in front -/
def skipLines : List Lexeme → List Lexeme
  | .operator "\n" :: rest => skipLines rest
  | ls => ls

/-- the fault that lies in the lexeme at the front -/
def unexpectedFront : List Lexeme → ScriptFault
  | [] => .unexpectedEnd
  | .operator "\n" :: _ => .unexpected "newline"
  | .operator op :: _ => .unexpected op
  | .word w :: _ => .unexpected ((plainText? w).getD "word")
  | .descriptor n :: _ => .unexpected (toString n)

/-- past a certain word -/
def expectWord (word : String) (ls : List Lexeme) : Except ScriptFault (List Lexeme) :=
  if frontWord? ls = some word then .ok ls.tail else .error (unexpectedFront ls)

/-- the kind of redirection that an operator asks for, and the descriptor that it means by itself -/
def redirectionKind? : String → Option (RedirectionKind × Nat)
  | "<" => some (.input, 0)
  | ">" => some (.output, 1)
  | ">|" => some (.output, 1)
  | ">>" => some (.append, 1)
  | "<&" => some (.duplicate, 0)
  | ">&" => some (.duplicate, 1)
  | _ => none

/-- the redirection at the front, if there is one -/
def readRedirection? : List Lexeme → Option (Redirection × List Lexeme)
  | .descriptor n :: .operator op :: .word w :: rest =>
    (redirectionKind? op).map fun (kind, _) => (⟨n, kind, w⟩, rest)
  | .operator op :: .word w :: rest => (redirectionKind? op).map fun (kind, fd) => (⟨fd, kind, w⟩, rest)
  | _ => none

/-- the redirections at the front -/
def readRedirections : (fuel : Nat) → List Lexeme → List Redirection × List Lexeme
  | 0, ls => ([], ls)
  | fuel + 1, ls =>
    match readRedirection? ls with
    | none => ([], ls)
    | some (r, ls) => let (rs, ls) := readRedirections fuel ls; (r :: rs, ls)

/-- the assignment that a word is, if it is one -/
def assignment? (w : Word) : Option (String × Word) :=
  let isText (f : Fragment) : Bool := match f with
    | .text s false => s != "="
    | _ => false
  let name := w.takeWhile isText
  match plainText? name, w.drop name.length with
  | some n, .text "=" false :: value =>
    if (n.toList.head?.map isNameStart).getD false && n.toList.all isNameChar then some (n, value) else none
  | _, _ => none

/-- read a simple command, behind the parts already found -/
def readSimple : (fuel : Nat) → List (String × Word) → List Word → List Redirection → List Lexeme →
    Except ScriptFault (Command × List Lexeme)
  | 0, _, _, _, ls => .error (unexpectedFront ls)
  | fuel + 1, as, ws, rs, ls =>
    match readRedirection? ls with
    | some (r, ls) => readSimple fuel as ws (rs ++ [r]) ls
    | none =>
      match ls with
      | .word w :: rest =>
        match (if ws.isEmpty then assignment? w else none) with
        | some a => readSimple fuel (as ++ [a]) ws rs rest
        | none => readSimple fuel as (ws ++ [w]) rs rest
      | ls =>
        if as.isEmpty && ws.isEmpty && rs.isEmpty then .error (unexpectedFront ls)
        else .ok (.simple as ws rs, ls)

/-- the words up to the end of a line or of a statement -/
def readWords : List Lexeme → List Word × List Lexeme
  | .word w :: rest => let (ws, ls) := readWords rest; (w :: ws, ls)
  | ls => ([], ls)

/-- without the separator in front -/
def skipSeparator : List Lexeme → List Lexeme
  | .operator ";" :: rest => skipLines rest
  | ls => skipLines ls

mutual

/-- read a list of commands, up to a word or an operator that closes it -/
def readList : (fuel : Nat) → List Lexeme → Except ScriptFault (Command × List Lexeme)
  | 0, ls => .error (unexpectedFront ls)
  | fuel + 1, ls =>
    let ls := skipLines ls
    let closed := match ls with
      | [] => true
      | .operator ")" :: _ => true
      | ls => (frontWord? ls).any closingWords.contains
    if closed then .ok (.nothing, ls)
    else do
      let (c, ls) ← readAndOr fuel ls
      match ls with
      | .operator ";" :: rest =>
        let (more, ls) ← readList fuel rest
        .ok (.sequence c more, ls)
      | .operator "\n" :: rest =>
        let (more, ls) ← readList fuel rest
        .ok (.sequence c more, ls)
      | .operator "&" :: rest =>
        let (more, ls) ← readList fuel rest
        .ok (.sequence (.background c) more, ls)
      | ls => .ok (c, ls)

/-- read pipelines joined by `&&` and `||` -/
def readAndOr : (fuel : Nat) → List Lexeme → Except ScriptFault (Command × List Lexeme)
  | 0, ls => .error (unexpectedFront ls)
  | fuel + 1, ls => do
    let (c, ls) ← readPipeline fuel ls
    joinAndOr fuel c ls

/-- join what follows to a command that has been read -/
def joinAndOr : (fuel : Nat) → Command → List Lexeme → Except ScriptFault (Command × List Lexeme)
  | 0, _, ls => .error (unexpectedFront ls)
  | fuel + 1, c, ls =>
    match ls with
    | .operator "&&" :: rest => do
      let (d, ls) ← readPipeline fuel (skipLines rest)
      joinAndOr fuel (.both c d) ls
    | .operator "||" :: rest => do
      let (d, ls) ← readPipeline fuel (skipLines rest)
      joinAndOr fuel (.either c d) ls
    | ls => .ok (c, ls)

/-- read commands joined by `|` -/
def readPipeline : (fuel : Nat) → List Lexeme → Except ScriptFault (Command × List Lexeme)
  | 0, ls => .error (unexpectedFront ls)
  | fuel + 1, ls =>
    if frontWord? ls = some "!" then (readPipeline fuel ls.tail).map fun (c, ls) => (.negation c, ls)
    else do
      let (c, ls) ← readCommand fuel ls
      match ls with
      | .operator "|" :: rest =>
        let (d, ls) ← readPipeline fuel (skipLines rest)
        .ok (.pipe c d, ls)
      | ls => .ok (c, ls)

/-- read one command -/
def readCommand : (fuel : Nat) → List Lexeme → Except ScriptFault (Command × List Lexeme)
  | 0, ls => .error (unexpectedFront ls)
  | fuel + 1, ls =>
    match ls with
    | .operator "(" :: rest => do
      let (body, ls) ← readList fuel rest
      match ls with
      | .operator ")" :: rest =>
        let (rs, ls) := readRedirections fuel rest
        .ok (.grouped true body rs, ls)
      | ls => .error (unexpectedFront ls)
    | ls =>
      match frontWord? ls with
      | some "\x7b" => do
        let (body, ls) ← readList fuel ls.tail
        let (rs, ls) := readRedirections fuel (← expectWord "\x7d" ls)
        .ok (.grouped false body rs, ls)
      | some "if" => readConditional fuel ls.tail
      | some "while" => readRepetition fuel false ls.tail
      | some "until" => readRepetition fuel true ls.tail
      | some "for" =>
        match ls.tail with
        | .word name :: rest => do
          let (words, ls) := match frontWord? (skipLines rest) with
            | some "in" => readWords (skipLines rest).tail
            | _ => ([[.variable "@" none true]], rest)
          let (body, ls) ← readList fuel (← expectWord "do" (skipSeparator ls))
          let ls ← expectWord "done" ls
          .ok (.iteration ((plainText? name).getD "") words body, ls)
        | ls => .error (unexpectedFront ls)
      | some w => if closingWords.contains w then .error (unexpectedFront ls) else readSimple fuel [] [] [] ls
      | none => readSimple fuel [] [] [] ls

/-- read a conditional whose first word has been read -/
def readConditional : (fuel : Nat) → List Lexeme → Except ScriptFault (Command × List Lexeme)
  | 0, ls => .error (unexpectedFront ls)
  | fuel + 1, ls => do
    let (test, ls) ← readList fuel ls
    let (yes, ls) ← readList fuel (← expectWord "then" ls)
    match frontWord? ls with
    | some "elif" =>
      let (no, ls) ← readConditional fuel ls.tail
      .ok (.conditional test yes no, ls)
    | some "else" =>
      let (no, ls) ← readList fuel ls.tail
      let ls ← expectWord "fi" ls
      .ok (.conditional test yes no, ls)
    | _ =>
      let ls ← expectWord "fi" ls
      .ok (.conditional test yes .nothing, ls)

/-- read a repetition whose first word has been read -/
def readRepetition : (fuel : Nat) → (untilHolds : Bool) → List Lexeme → Except ScriptFault (Command × List Lexeme)
  | 0, _, ls => .error (unexpectedFront ls)
  | fuel + 1, untilHolds, ls => do
    let (test, ls) ← readList fuel ls
    let (body, ls) ← readList fuel (← expectWord "do" ls)
    let ls ← expectWord "done" ls
    .ok (.repetition untilHolds test body, ls)

end

/-- read a script -/
def readScriptText (script : String) : Except ScriptFault Command := do
  let ls ← lexemes (script.length + 1) script.toList
  let (c, rest) ← readList (6 * ls.length + 6) ls
  match rest with
  | [] => .ok c
  | ls => .error (unexpectedFront ls)

end LineShell.Userland
