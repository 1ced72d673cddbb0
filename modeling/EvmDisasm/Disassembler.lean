import EvmDisasm.Files
import EvmDisasm.Instruction.Cursor
import EvmDisasm.Listing

/-!
# Disassembling a piece of code

A disassembler holds the code and the instructions found in it so far. Disassembling replaces the
instructions; in strict mode it stops at the first byte that stands for no opcode, with the
instructions before that byte. The listing can be printed and written at any time.
-/

namespace EvmDisasm

/-- A piece of code and the instructions that were found in it. -/
structure Disassembler where
  code : Bytes
  /-- Whether a byte that stands for no opcode is refused. -/
  strict : Bool
  instructions : List Instruction
deriving DecidableEq, Repr

/-- The records that the disassembler makes of an instruction that it keeps. -/
def Instruction.warnings (inst : Instruction) : List Log.Record :=
  (if inst.isKnown then []
    else [⟨.warn, "unknown opcode " ++ Hex.number 2 inst.code.toNat ++ " at offset " ++
      Hex.number 1 inst.offset⟩]) ++
  (if inst.isTruncated then
    [⟨.warn, inst.mnemonic ++ " at offset " ++ Hex.number 1 inst.offset ++
      " runs past the end of the code (" ++ toString (inst.encodedLength - 1) ++ " of " ++
      toString inst.nominalLength ++ " bytes)"⟩]
    else [])

namespace Disassembler

/-- The byte that strict mode refuses. -/
structure UnknownOpcode where
  code : UInt8
  offset : Nat
deriving DecidableEq, Repr

def UnknownOpcode.message (e : UnknownOpcode) : String :=
  "unknown opcode " ++ Hex.number 2 e.code.toNat ++ " at offset " ++ Hex.number 1 e.offset

/-- What came of going through the code. -/
structure Sweep where
  /-- The instructions that were kept. -/
  kept : List Instruction
  /-- The records that were made. -/
  records : List Log.Record
  /-- What ended the sweep before the end of the code, if anything did. -/
  refused : Option UnknownOpcode

/-- Go through the code behind the cursor. What was kept and recorded before stands in reverse. -/
def sweepOnto (strict : Bool) (kept : List Instruction) (records : List Log.Record)
    (cursor : Cursor) : Sweep :=
  match _h : cursor.next? with
  | none => ⟨kept.reverse, records.reverse, none⟩
  | some (inst, after) =>
    let traced := inst.trace.reverse ++ records
    if strict && !inst.isKnown then
      ⟨kept.reverse, traced.reverse, some ⟨inst.code, inst.offset⟩⟩
    else sweepOnto strict (inst :: kept) (inst.warnings.reverse ++ traced) after
termination_by cursor.rest.length
decreasing_by exact Cursor.length_rest_lt _h

/-- The disassembler of a piece of code, with no instruction found yet. -/
def ofCode (code : Bytes) (strict : Bool) : Disassembler :=
  ⟨code, strict, []⟩

/-- Find the instructions of the code, in place of those found before. -/
def disassemble (d : Disassembler) :
    Log.Logged (Except UnknownOpcode Unit) × Disassembler :=
  let sweep := sweepOnto d.strict [] [] (Cursor.start d.code)
  let after := { d with instructions := sweep.kept }
  match sweep.refused with
  | some e => (⟨.error e, sweep.records⟩, after)
  | none =>
    let summary : Log.Record :=
      ⟨.info, "decoded " ++ toString sweep.kept.length ++ " instructions from " ++
        toString d.code.length ++ " bytes"⟩
    (⟨.ok (), sweep.records ++ [summary]⟩, after)

def codeHash (d : Disassembler) : Digest :=
  Digest.hash d.code

/-- The lines of the printed listing: one for each instruction, and the digest of the code if it is
to be shown. -/
def lines (d : Disassembler) (showHash : Bool) : List String :=
  d.instructions.map Instruction.text ++
    if showHash then ["code hash: " ++ d.codeHash.text] else []

def print (d : Disassembler) (showHash : Bool) : String :=
  String.join ((d.lines showHash).map (· ++ "\n"))

/-- The record of the instructions found so far. -/
def listing (d : Disassembler) : Listing :=
  Listing.ofInstructions d.code d.instructions

inductive WriteError where
  /-- The directory for the file could not be made. -/
  | directory (cause : FileError)
  /-- The file could not be made. -/
  | create (path : String) (cause : FileError)
deriving DecidableEq, Repr

def WriteError.message : WriteError → String
  | .directory cause => cause.message
  | .create path _ => "creating " ++ path

def WriteError.causes : WriteError → List String
  | .directory _ => []
  | .create _ cause => [cause.message]

/-- Write the record of the instructions found so far to the file at the path. The directory for it
is made first. -/
def write {m : Type → Type} [Monad m] (files : Files m) (d : Disassembler) (path : String) :
    m (Except WriteError Unit) := do
  match ← files.ensureParent path with
  | .error cause => return .error (.directory cause)
  | .ok () =>
    match ← files.write path (Text.utf8 d.listing.yaml.toList) with
    | .error cause => return .error (.create path cause)
    | .ok () => return .ok ()

end Disassembler

end EvmDisasm
