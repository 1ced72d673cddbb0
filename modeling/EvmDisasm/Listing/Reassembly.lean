import EvmDisasm.Listing

/-!
# From listings back to code

Both forms of a listing tell the bytes of the code: the mnemonic of an instruction names its first
byte, also where that stands for no opcode, and the operand gives the others. Records are read one
by one. The lines of a printed listing say in addition where their instructions start, and reading
them checks that each starts where the one before it ended.
-/

namespace EvmDisasm

namespace Instruction

/-! ## Mnemonics

A mnemonic is the name of an opcode or shows an unknown byte in parentheses. -/

/-- The byte that the mnemonic of an unknown instruction shows. -/
def unknownCode? (mnemonic : String) : Option UInt8 :=
  let shown := (mnemonic.toList.drop "UNKNOWN(".length).dropLast
  if mnemonic.toList = "UNKNOWN(".toList ++ shown ++ [')'] then
    match Hex.ofMarked? shown with
    | some [code] => some code
    | _ => none
  else none

/-- The first byte of the instructions with the mnemonic. -/
def codeOfMnemonic? (mnemonic : String) : Option UInt8 :=
  match Opcode.ofMnemonic? mnemonic with
  | some op => some op.toByte
  | none => unknownCode? mnemonic

end Instruction

namespace Listing

/-! ## Records

Only the mnemonic and the operand of an entry are looked at. -/

def Entry.code? (entry : Entry) : Option Bytes :=
  (Instruction.codeOfMnemonic? entry.mnemonic).bind fun code =>
    match entry.operands with
    | [] => some [code]
    | [operand] => (Hex.ofMarked? operand.toList).map (code :: ·)
    | _ => none

def reassemble? (entries : List Entry) : Option Bytes :=
  (entries.mapM Entry.code?).map List.flatten

end Listing

namespace Printed

/-! ## Printed lines

The lines are cut into pieces and these are read: the offset, the mnemonic and, if there is a third
one, the immediate. -/

/-- The lines of a text, each ended by a line feed; `current` holds the characters of the line at
hand in reverse. What follows the last line feed is dropped. -/
def linesOnto (current : List Char) : List Char → List (List Char)
  | [] => []
  | c :: rest =>
    if c = '\n' then current.reverse :: linesOnto [] rest else linesOnto (c :: current) rest

/-- The pieces of a line between pairs of blanks; `current` holds the characters of the piece at
hand in reverse. -/
def piecesOnto (current : List Char) : List Char → List (List Char)
  | ' ' :: ' ' :: rest => current.reverse :: piecesOnto [] rest
  | c :: rest => piecesOnto (c :: current) rest
  | [] => [current.reverse]

/-- The offset and the bytes of the instruction on a line. -/
def instruction? (line : List Char) : Option (Nat × Bytes) :=
  match piecesOnto [] line with
  | [offset, mnemonic] => do
    let offset ← Hex.toNumber? offset
    let code ← Instruction.codeOfMnemonic? (String.ofList mnemonic)
    return (offset, [code])
  | [offset, mnemonic, immediate] => do
    let offset ← Hex.toNumber? offset
    let code ← Instruction.codeOfMnemonic? (String.ofList mnemonic)
    let immediate ← Hex.ofMarked? immediate
    return (offset, code :: immediate)
  | _ => none

def isHashLine (line : List Char) : Bool :=
  "code hash: ".toList.isPrefixOf line

/-- The lines without one at the end that shows the digest of the code. -/
def dropHashLine (lines : List (List Char)) : List (List Char) :=
  if lines.getLast?.any isHashLine then lines.dropLast else lines

/-- The bytes of the instructions on the lines, the first of which starts at `offset`. -/
def codeFrom? (offset : Nat) : List (List Char) → Option Bytes
  | [] => some []
  | line :: rest => do
    let (start, bytes) ← instruction? line
    if start = offset then
      let others ← codeFrom? (offset + bytes.length) rest
      return bytes ++ others
    else none

/-- The code whose printed listing the text is. -/
def code? (text : String) : Option Bytes :=
  codeFrom? 0 (dropHashLine (linesOnto [] text.toList))

end Printed

end EvmDisasm
