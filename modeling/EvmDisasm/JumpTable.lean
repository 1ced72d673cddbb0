import EvmDisasm.Instruction.Cursor

/-!
# Jump destinations

A jump may go to a `JUMPDEST` that starts an instruction; the same byte inside an immediate is no
destination. `JumpTable.analyze` finds the destinations by decoding the code, `rawDestinations` says
which they are on the bytes alone.
-/

namespace EvmDisasm

/-- The valid jump destinations of a piece of code. -/
structure JumpTable where
  /-- For every offset of the code, whether it is a destination. -/
  marks : Array Bool
deriving DecidableEq, Repr

namespace JumpTable

def empty : JumpTable :=
  ⟨#[]⟩

def mark (table : JumpTable) (offset : Nat) : JumpTable :=
  ⟨table.marks.setIfInBounds offset true⟩

/-- The table with the instruction marked if it is a destination. -/
def visit (table : JumpTable) (inst : Instruction) : JumpTable :=
  if inst.opcode = some .jumpDest then table.mark inst.offset else table

def analyze (code : Bytes) : JumpTable :=
  (decode code).foldl visit ⟨Array.replicate code.length false⟩

/-- Whether a jump may go to the offset. -/
def isJumpDest (table : JumpTable) (offset : Nat) : Bool :=
  table.marks[offset]?.getD false

def toList (table : JumpTable) : List Nat :=
  (List.range table.marks.size).filter table.isJumpDest

def size (table : JumpTable) : Nat :=
  table.marks.count true

def isEmpty (table : JumpTable) : Bool :=
  !table.marks.contains true

/-- The records that the analysis of the code makes, those of decoding it first. -/
def trace (code : Bytes) : List Log.Record :=
  Instruction.traceAll (decode code) ++
    [⟨.debug, "jump analysis: " ++ toString (analyze code).size ++ " destinations in " ++
      toString code.length ++ " bytes"⟩]

end JumpTable

/-- The destinations from the offset `i` on, on the bytes of the code alone: a `JUMPDEST` is one, a
push is passed together with its immediate even where that runs past the end, and any other byte is
passed by itself. -/
def rawDestinations (code : Bytes) (i : Nat) : List Nat :=
  if _h : i < code.length then
    let b := code[i].toNat
    if b = 0x5b then i :: rawDestinations code (i + 1)
    else if 0x60 ≤ b ∧ b ≤ 0x7f then rawDestinations code (i + (b - 0x60) + 2)
    else rawDestinations code (i + 1)
  else []
termination_by code.length - i

end EvmDisasm
