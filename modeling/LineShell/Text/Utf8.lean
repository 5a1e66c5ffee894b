/-
Reading bytes as UTF-8.

Bytes that claim to be text are cut into pieces: a character, or a damaged piece. A damaged piece is the longest run
that still begins some well-formed sequence (at least one byte), so that a reader who gives up on it resumes at the
first byte that could start a character. `pieces` cuts a whole run; `decode` insists on characters only and reports
the first damage; `lossy` puts U+FFFD in place of each damaged piece.
-/
import LineShell.Text.Bytes

namespace LineShell.Utf8

/-- what the first byte of a sequence announces: continuation bytes still owed, the range of the next one, and the
bits that the first byte contributes -/
structure Lead where
  owed : Nat
  low : UInt8
  high : UInt8
  bits : Nat

/-- the announcement of a first byte, if the byte may start a sequence at all -/
def lead? (b : UInt8) : Option Lead :=
  if b < 0x80 then some ⟨0, 0x80, 0xBF, b.toNat⟩
  else if b < 0xC2 then none
  else if b < 0xE0 then some ⟨1, 0x80, 0xBF, b.toNat - 0xC0⟩
  else if b = 0xE0 then some ⟨2, 0xA0, 0xBF, 0⟩
  else if b = 0xED then some ⟨2, 0x80, 0x9F, 0xD⟩
  else if b < 0xF0 then some ⟨2, 0x80, 0xBF, b.toNat - 0xE0⟩
  else if b = 0xF0 then some ⟨3, 0x90, 0xBF, 0⟩
  else if b < 0xF4 then some ⟨3, 0x80, 0xBF, b.toNat - 0xF0⟩
  else if b = 0xF4 then some ⟨3, 0x80, 0x8F, 4⟩
  else none

/-- one piece of a run of bytes: a character, or `length` bytes that are none; `cut` says that the damage is only
that the bytes ended -/
inductive Piece where
  | char (c : Char)
  | damaged (length : Nat) (cut : Bool)
  deriving DecidableEq, Repr

/-- how many bytes a piece covers -/
def Piece.width : Piece → Nat
  | .char c => c.utf8Size
  | .damaged n _ => n

/-- read the continuation bytes that are owed after `seen` bytes worth `value` -/
def continuation : (owed : Nat) → (low high : UInt8) → (seen value : Nat) → Bytes → Piece
  | 0, _, _, _, value, _ => .char (Char.ofNat value)
  | _ + 1, _, _, seen, _, [] => .damaged seen true
  | owed + 1, low, high, seen, value, b :: rest =>
    if low ≤ b ∧ b ≤ high then continuation owed 0x80 0xBF (seen + 1) (value * 64 + b.toNat % 64) rest
    else .damaged seen false

/-- the piece at the front of the run `b :: rest` -/
def piece (b : UInt8) (rest : Bytes) : Piece :=
  match lead? b with
  | none => .damaged 1 false
  | some l => continuation l.owed l.low l.high 1 l.bits rest

/-- cut a run of bytes into its pieces, behind those already found -/
def piecesAfter (found : Array Piece) : Bytes → Array Piece
  | [] => found
  | b :: rest =>
    let p := piece b rest
    piecesAfter (found.push p) (rest.drop (p.width - 1))
termination_by bs => bs.length
decreasing_by simp only [List.length_cons, List.length_drop]; omega

/-- the pieces of a run of bytes, in order -/
def pieces (bs : Bytes) : List Piece := (piecesAfter #[] bs).toList

/-- where reading as text fails: the offset of the first damaged piece, and its length unless the bytes just ended -/
structure Fault where
  offset : Nat
  length : Option Nat
  deriving DecidableEq, Repr

/-- the diagnostic of a fault -/
def Fault.message : Fault → String
  | ⟨offset, some n⟩ => s!"invalid utf-8 sequence of {n} bytes from index {offset}"
  | ⟨offset, none⟩ => s!"incomplete utf-8 byte sequence from index {offset}"

/-- the characters of a list of pieces, or the fault of the first damaged one -/
def assemble (text : String) (offset : Nat) : List Piece → Except Fault String
  | [] => .ok text
  | .char c :: ps => assemble (text.push c) (offset + c.utf8Size) ps
  | .damaged n cut :: _ => .error ⟨offset, if cut then none else some n⟩

/-- the text that the bytes encode -/
def decode (bs : Bytes) : Except Fault String := assemble "" 0 (pieces bs)

/-- the character that stands for a damaged piece -/
def replacement : Char := '\uFFFD'

/-- the text that the bytes encode, with a replacement character for each damaged piece -/
def lossy (bs : Bytes) : String :=
  (pieces bs).foldl (fun text p => match p with
    | .char c => text.push c
    | .damaged _ _ => text.push replacement) ""

end LineShell.Utf8
