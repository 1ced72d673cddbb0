import EvmDisasm.Digest
import EvmDisasm.Instruction

/-!
# Listings as records

The form in which a disassembly is stored: the digest and the size of the code, and a record for
each instruction. In a file it is the text of these in YAML, where a text that a reader could take
for a number is put in single quotes: the mark of hexadecimal and then digits of a value below
2 ^ 128.
-/

namespace EvmDisasm

structure Listing.Entry where
  /-- The offset of the instruction. -/
  address : Nat
  mnemonic : String
  /-- The immediate, if the instruction is a push. -/
  operands : List String
  /-- Whether the code ends before the immediate does. -/
  truncated : Bool
deriving DecidableEq, Repr

structure Listing where
  /-- The digest of the code. -/
  codeHash : Digest
  /-- The number of bytes of the code. -/
  size : Nat
  entries : List Listing.Entry
deriving DecidableEq

namespace Listing

def Entry.ofInstruction (inst : Instruction) : Entry where
  address := inst.offset
  mnemonic := inst.mnemonic
  operands := inst.immediateText.toList
  truncated := inst.isTruncated

def ofInstructions (code : Bytes) (insts : List Instruction) : Listing where
  codeHash := Digest.hash code
  size := code.length
  entries := insts.map Entry.ofInstruction

/-! ## The text in a file

One line for each field, with those of an instruction under a dash. The field `truncated` is written
only where it says something. -/

/-- Whether a reader of YAML could take the text for a number. -/
def readsAsNumber (text : String) : Bool :=
  (Hex.toNumber? text.toList).any (· < Nat.pow 2 128)

def yamlScalar (text : String) : String :=
  if readsAsNumber text then "'" ++ text ++ "'" else text

/-- A key and the list of items under it, one on each line, or an empty list beside the key. -/
def yamlList (key : String) (items : List String) : String :=
  if items.isEmpty then key ++ ": []\n" else key ++ ":\n" ++ String.join items

def Entry.yaml (entry : Entry) : String :=
  "- address: " ++ toString entry.address ++ "\n" ++
  "  mnemonic: " ++ yamlScalar entry.mnemonic ++ "\n" ++
  yamlList "  operands" (entry.operands.map fun text => "  - " ++ yamlScalar text ++ "\n") ++
  if entry.truncated then "  truncated: true\n" else ""

def yaml (listing : Listing) : String :=
  "code_hash: " ++ yamlScalar listing.codeHash.text ++ "\n" ++
  "size: " ++ toString listing.size ++ "\n" ++
  yamlList "instructions" (listing.entries.map Entry.yaml)

end Listing

end EvmDisasm
