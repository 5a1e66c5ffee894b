/-
Byte ranges of a command line.

A token records where its text lies, not the text; `Span.text` cuts it out of the line. A range that runs past the
end, is reversed, or cuts a character in two denotes the empty text.
-/

namespace LineShell

/-- a range of byte offsets into a line, `stop` excluded -/
structure Span where
  start : Nat
  stop : Nat
  deriving DecidableEq, Repr

namespace Span

/-- the range lies inside the line and both its ends fall between characters -/
def Fits (s : Span) (line : String) : Prop :=
  s.start ≤ s.stop ∧ (⟨s.start⟩ : String.Pos.Raw).IsValid line ∧ (⟨s.stop⟩ : String.Pos.Raw).IsValid line

instance (s : Span) (line : String) : Decidable (s.Fits line) := by
  unfold Fits; infer_instance

/-- the text of the line that the range covers -/
def text (s : Span) (line : String) : String :=
  if h : s.Fits line then line.extract ⟨⟨s.start⟩, h.2.1⟩ ⟨⟨s.stop⟩, h.2.2⟩ else ""

/-- the bytes of a range are the bytes of the line between its ends -/
theorem toByteArray_text {s : Span} {line : String} (h : s.Fits line) :
    (s.text line).toByteArray = line.toByteArray.extract s.start s.stop := by
  simp [text, h, String.toByteArray_extract]

end Span

end LineShell
