/-
Sets of bytes and maps between them: `tr`.

A set of bytes is written as a list of characters, ranges, escapes and named classes. Mapping one set to another puts
the byte at the same place of the second set for a byte of the first, and the last byte of the second set stands for all
places behind it.
-/
import LineShell.Userland.Escapes
import LineShell.Userland.Report

namespace LineShell.Userland

/-- the bytes from `first` to `last` -/
def byteRange (first last : UInt8) : Bytes :=
  (List.range (last.toNat + 1 - first.toNat)).map fun k => UInt8.ofNat (first.toNat + k)

/-- every byte -/
def allBytes : Bytes := (List.range 256).map UInt8.ofNat

/-- the bytes of a named class -/
def classBytes? (name : String) : Option Bytes :=
  let upper := byteRange 65 90
  let lower := byteRange 97 122
  let digit := byteRange 48 57
  match name with
  | "upper" => some upper
  | "lower" => some lower
  | "digit" => some digit
  | "alpha" => some (upper ++ lower)
  | "alnum" => some (digit ++ upper ++ lower)
  | "space" => some (byteRange 9 13 ++ [32])
  | "blank" => some [9, 32]
  | "xdigit" => some (digit ++ byteRange 65 70 ++ byteRange 97 102)
  | "cntrl" => some (byteRange 0 31 ++ [127])
  | "print" => some (byteRange 32 126)
  | "graph" => some (byteRange 33 126)
  | "punct" => some (byteRange 33 47 ++ byteRange 58 64 ++ byteRange 91 96 ++ byteRange 123 126)
  | _ => none

/-- one part of a written set: a class, or bytes of one character -/
inductive SetPart where
  | single (bytes : Bytes)
  | named (bytes : Bytes)
  /-- the sign between the ends of a range -/
  | dash
  deriving DecidableEq, Repr

/-- cut a written set into parts -/
def setParts : (fuel : Nat) → List Char → List SetPart
  | 0, _ => []
  | _ + 1, [] => []
  | fuel + 1, '[' :: ':' :: cs =>
    let name := cs.takeWhile Char.isAlpha
    match classBytes? (String.ofList name), cs.drop name.length with
    | some bytes, ':' :: ']' :: rest => .named bytes :: setParts fuel rest
    | _, _ => .single [91] :: setParts fuel (':' :: cs)
  | fuel + 1, '\\' :: cs =>
    match readEscape .anyDigit cs with
    | (.bytes [92, b], rest) => .single [b] :: setParts fuel rest
    | (.bytes bytes, rest) => .single bytes :: setParts fuel rest
    | (.stop, rest) => .single [99] :: setParts fuel rest
  | fuel + 1, '-' :: cs => .dash :: setParts fuel cs
  | fuel + 1, c :: cs => .single (Text.bytes c.toString) :: setParts fuel cs

/-- the bytes of a list of parts; a dash between two single bytes is a range -/
def setBytes : List SetPart → Bytes
  | .single [first] :: .dash :: .single [last] :: rest => byteRange first last ++ setBytes rest
  | .single bytes :: rest => bytes ++ setBytes rest
  | .named bytes :: rest => bytes ++ setBytes rest
  | .dash :: rest => 45 :: setBytes rest
  | [] => []

/-- the bytes of a written set -/
def byteSet (s : String) : Bytes := setBytes (setParts (s.length + 1) s.toList)

/-- the byte that stands for `b` -/
def mapByte (source target : Bytes) (b : UInt8) : UInt8 :=
  match source.reverse.findIdx? (· == b) with
  | none => b
  | some fromEnd => (target[source.length - 1 - fromEnd]?).getD (target.getLast?.getD b)

/-- bytes with a run of one byte of a set shortened to one -/
def squeezed (set bs : Bytes) : Bytes :=
  (bs.foldl (fun (out : Array UInt8) b =>
    if set.contains b && out.back? == some b then out else out.push b) #[]).toList

/-- a map on single bytes, as a table -/
def byteTable (f : UInt8 → UInt8) : Array UInt8 := (allBytes.map f).toArray

/-- what `tr` does to its input -/
def mapFlow (o : Options) (source target : Bytes) (f : Flow) : Flow :=
  let inSource := (allBytes.map fun b => source.contains b).toArray
  let table := byteTable (mapByte source target)
  let mapped (bs : Bytes) : Bytes :=
    if o.has 'd' then bs.filter fun b => !(inSource[b.toNat]?.getD false)
    else if target.isEmpty then bs
    else bs.map fun b => table[b.toNat]?.getD b
  let squeezeSet := if target.isEmpty then source else target
  let squeeze (bs : Bytes) : Bytes := if o.has 's' then squeezed squeezeSet bs else bs
  { bytes := squeeze (mapped f.bytes), cycle := squeeze (mapped f.cycle) }

def tr : Utility where
  name := "tr"
  run := withOptions "tr" { flags := ['c', 'C', 'd', 's', 't'], permute := false } 1 fun o p w =>
    let hint := "Try 'tr --help' for more information.\n"
    let complement := o.has 'c' || o.has 'C'
    let sourceOf (s : String) : Bytes :=
      if complement then allBytes.filter fun b => !(byteSet s).contains b else byteSet s
    let apply (source target : Bytes) : Report × World :=
      match p.contents 0 w with
      | .ok f => (.ofFlow (mapFlow o source target f), p.advance 0 f.bytes.length w)
      | .error e => (.complaint s!"tr: read error: {e.text}\n" 1, w)
    match o.operands with
    | [] => (.complaint s!"tr: missing operand\n{hint}" 1, w)
    | [s] =>
      if o.has 'd' || o.has 's' then apply (sourceOf s) []
      else (.complaint (s!"tr: missing operand after '{s}'\nTwo strings must be given when translating.\n" ++ hint)
          1, w)
    | [s, t] =>
      if (byteSet t).isEmpty && !o.has 'd' then
        (.complaint "tr: when not truncating set1, string2 must be non-empty\n" 1, w)
      else apply (sourceOf s) (byteSet t)
    | _ :: _ :: extra :: _ => (.complaint s!"tr: extra operand '{extra}'\n{hint}" 1, w)

end LineShell.Userland
