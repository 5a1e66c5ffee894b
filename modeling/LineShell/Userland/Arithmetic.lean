/-
The value of an expression in a script: whole numbers, the four operations and the remainder, comparisons, `&&` and
`||`, parentheses. A truth value is 1 or 0. Variables have been replaced by their values, or are looked up by name.
-/
import LineShell.Userland.Script

namespace LineShell.Userland.Arithmetic

/-- a piece of an expression -/
inductive Symbol where
  | number (n : Int)
  | sign (text : String)
  deriving DecidableEq, Repr

/-- the signs, longer ones in front -/
def signs : List String := ["==", "!=", "<=", ">=", "&&", "||", "+", "-", "*", "/", "%", "<", ">", "(", ")", "!"]

/-- cut an expression into pieces -/
def symbols (value : String → Int) : (fuel : Nat) → List Char → Option (List Symbol)
  | 0, _ => none
  | _ + 1, [] => some []
  | fuel + 1, c :: cs =>
    if c.isWhitespace then symbols value fuel cs
    else if c.isDigit then
      let digits := (c :: cs).takeWhile Char.isDigit
      let n := digits.foldl (fun n d => 10 * n + (d.toNat - '0'.toNat)) 0
      (symbols value fuel ((c :: cs).drop digits.length)).map (.number n :: ·)
    else if isNameStart c then
      let name := (c :: cs).takeWhile isNameChar
      (symbols value fuel ((c :: cs).drop name.length)).map (.number (value (String.ofList name)) :: ·)
    else
      match signs.find? fun s => s.toList.isPrefixOf (c :: cs) with
      | some s => (symbols value fuel ((c :: cs).drop s.length)).map (.sign s :: ·)
      | none => none

/-- how strongly an operator binds -/
def strength? : String → Option Nat
  | "||" => some 1
  | "&&" => some 2
  | "==" => some 3
  | "!=" => some 3
  | "<" => some 4
  | ">" => some 4
  | "<=" => some 4
  | ">=" => some 4
  | "+" => some 5
  | "-" => some 5
  | "*" => some 6
  | "/" => some 6
  | "%" => some 6
  | _ => none

/-- apply an operator; nothing can be divided by zero -/
def combine? (op : String) (a b : Int) : Option Int :=
  let truth (b : Bool) : Option Int := some (if b then 1 else 0)
  match op with
  | "||" => truth (a != 0 || b != 0)
  | "&&" => truth (a != 0 && b != 0)
  | "==" => truth (a == b)
  | "!=" => truth (a != b)
  | "<" => truth (a < b)
  | ">" => truth (b < a)
  | "<=" => truth (a ≤ b)
  | ">=" => truth (b ≤ a)
  | "+" => some (a + b)
  | "-" => some (a - b)
  | "*" => some (a * b)
  | "/" => if b = 0 then none else some (Int.tdiv a b)
  | "%" => if b = 0 then none else some (Int.tmod a b)
  | _ => none

mutual

/-- the value of what stands in front, operators taken as long as they bind at least as strongly as `least` -/
def expression : (fuel least : Nat) → List Symbol → Option (Int × List Symbol)
  | 0, _, _ => none
  | fuel + 1, least, ss =>
    match operand fuel ss with
    | none => none
    | some (a, rest) => operations fuel least a rest

/-- go on with the value `a` in front of operators -/
def operations : (fuel least : Nat) → Int → List Symbol → Option (Int × List Symbol)
  | 0, _, _, _ => none
  | fuel + 1, least, a, ss =>
    match ss with
    | .sign op :: rest =>
      match strength? op with
      | none => some (a, ss)
      | some s =>
        if s < least then some (a, ss)
        else match expression fuel (s + 1) rest with
          | none => none
          | some (b, rest) =>
            match combine? op a b with
            | none => none
            | some c => operations fuel least c rest
    | ss => some (a, ss)

/-- the value of an operand -/
def operand : (fuel : Nat) → List Symbol → Option (Int × List Symbol)
  | 0, _ => none
  | fuel + 1, ss =>
    match ss with
    | .number n :: rest => some (n, rest)
    | .sign "-" :: rest => (operand fuel rest).map fun (n, rest) => (-n, rest)
    | .sign "+" :: rest => operand fuel rest
    | .sign "!" :: rest => (operand fuel rest).map fun (n, rest) => (if n = 0 then 1 else 0, rest)
    | .sign "(" :: rest =>
      match expression fuel 0 rest with
      | some (n, .sign ")" :: rest) => some (n, rest)
      | _ => none
    | _ => none

end

/-- the value of an expression, if it has one -/
def eval? (value : String → Int) (text : String) : Option Int :=
  match symbols value (text.length + 1) text.toList with
  | none => none
  | some [] => some 0
  | some ss =>
    match expression (3 * ss.length + 3) 0 ss with
    | some (n, []) => some n
    | _ => none

end LineShell.Userland.Arithmetic
