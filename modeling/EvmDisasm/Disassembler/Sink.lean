import EvmDisasm.Disassembler

/-!
# Printing to where there is little room

A sink takes a limited number of bytes. Of a piece that does not fit it takes as much as does, and
then it refuses. The lines of a listing are put in piece by piece, and printing stops at the first
piece that is refused.
-/

namespace EvmDisasm

/-- A place that takes bytes as long as there is room. -/
structure Sink where
  /-- The number of bytes for which there is room. -/
  room : Nat
  /-- The pieces that were taken, the last one first. -/
  pieces : List Bytes
deriving DecidableEq, Repr

namespace Sink

def ofRoom (room : Nat) : Sink :=
  ⟨room, []⟩

def contents (sink : Sink) : Bytes :=
  sink.pieces.reverse.flatten

/-- Put in a piece, or as much of it as there is room for. -/
def write (sink : Sink) (piece : Bytes) : Except FileError Unit × Sink :=
  let after : Sink := ⟨sink.room - piece.length, piece.take sink.room :: sink.pieces⟩
  (if piece.length ≤ sink.room then .ok () else .error .writeRefused, after)

end Sink

/-- What is at hand while a listing is printed. -/
structure Printer where
  disassembler : Disassembler
  sink : Sink
deriving DecidableEq, Repr

/-- A part of printing, which ends early if the sink refuses a piece. -/
abbrev Printing := ExceptT FileError (StateM Printer)

namespace Printing

/-- Put a piece of text into the sink. -/
def put (piece : String) : Printing Unit :=
  ExceptT.mk fun printer =>
    let (answer, sink) := printer.sink.write (Text.utf8 piece.toList)
    (answer, { printer with sink })

/-- Put in what the line of an instruction says. -/
def putInstruction (inst : Instruction) : Printing Unit := do
  put (Hex.number 4 inst.offset)
  put "  "
  put inst.mnemonic
  match inst.immediate with
  | some bytes =>
    put "  0x"
    put (String.ofList (Hex.encode bytes))
  | none => return ()

def putDigest (digest : Digest) : Printing Unit := do
  put "0x"
  put digest.hex

/-- Put in the listing, line by line. The digest of the code is taken when its line comes. -/
def putListing (showHash : Bool) : Printing Unit := do
  let printer ← get
  printer.disassembler.instructions.forM fun inst => do
    putInstruction inst
    put "\n"
  if showHash then
    let printer ← get
    put "code hash: "
    putDigest printer.disassembler.codeHash
    put "\n"

end Printing

def Disassembler.printInto (d : Disassembler) (showHash : Bool) (sink : Sink) :
    Except FileError Unit × Sink :=
  let (answer, printer) := (Printing.putListing showHash).run.run ⟨d, sink⟩
  (answer, printer.sink)

end EvmDisasm
