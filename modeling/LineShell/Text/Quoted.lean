/-
Text between double quotes.

Two written forms of a text: the form that shows a text for inspection (every character without a visible form is
written by code point), and the form of a JSON string.
-/
import LineShell.Text.Invisible

namespace LineShell.Text

/-- the lower-case hexadecimal digits of a number, without leading zeros -/
def hex (n : Nat) : String := String.ofList (Nat.toDigits 16 n)

/-- one character as an inspected text shows it -/
def inspectChar (c : Char) : String :=
  match c with
  | '\x00' => "\\0"
  | '\t' => "\\t"
  | '\r' => "\\r"
  | '\n' => "\\n"
  | '\\' => "\\\\"
  | '"' => "\\\""
  | c => if isInvisible c then "\\u\x7b" ++ hex c.toNat ++ "\x7d" else c.toString

/-- a text as inspection shows it -/
def inspect (s : String) : String := s.foldl (fun out c => out ++ inspectChar c) "\"" ++ "\""

/-- one character inside a JSON string -/
def jsonChar (c : Char) : String :=
  match c with
  | '"' => "\\\""
  | '\\' => "\\\\"
  | '\x08' => "\\b"
  | '\x0c' => "\\f"
  | '\n' => "\\n"
  | '\r' => "\\r"
  | '\t' => "\\t"
  | c => if c.toNat < 0x20 then "\\u00" ++ (if c.toNat < 0x10 then "0" else "") ++ hex c.toNat else c.toString

/-- a text as a JSON string -/
def json (s : String) : String := s.foldl (fun out c => out ++ jsonChar c) "\"" ++ "\""

end LineShell.Text
