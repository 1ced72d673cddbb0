import EvmDisasm.Basic

/-!
# Opcodes

The instructions that the machine implements, each with its byte, its name and the number of
immediate bytes that follow it. Bytes of instructions that the machine does not implement have no
opcode, exactly like bytes that were never assigned.

The four numbered families (`PUSH1` to `PUSH32`, `DUP1` to `DUP16`, `SWAP1` to `SWAP16` and `LOG0`
to `LOG4`) are one constructor each, indexed from zero; everything else is a constructor of its own.
-/

namespace EvmDisasm

/-- An instruction of the machine, without its immediate bytes. -/
inductive Opcode where
  -- 0x00: stop and arithmetic
  | stop | add | mul | sub | div | sDiv | mod | sMod | addMod | mulMod | exp | signExtend
  -- 0x10: comparison and bitwise logic
  | lt | gt | sLt | sGt | eq | isZero | and | or | xor | not | byte
  -- 0x20: hashing
  | sha3
  -- 0x30: the environment of the call
  | address | balance | origin | caller | callValue | callDataLoad | callDataSize | callDataCopy
  | codeSize | codeCopy | gasPrice | extCodeSize | extCodeCopy
  -- 0x40: the block
  | blockHash | coinbase | timestamp | number | prevRandao | gasLimit
  -- 0x50: stack, memory, storage and flow
  | pop | mLoad | mStore | mStore8 | sLoad | sStore | jump | jumpI | pc | mSize | gas | jumpDest
  /-- The instruction that pushes the `n + 1` bytes that follow it. -/
  | push (n : Fin 32)
  /-- The instruction that copies the item `n` places below the top of the stack. -/
  | dup (n : Fin 16)
  /-- The instruction that swaps the top of the stack with the item `n + 1` places below it. -/
  | swap (n : Fin 16)
  /-- The instruction that logs a record with `n` topics. -/
  | log (n : Fin 5)
  -- 0xf0: system
  | create | call | callCode | ret | delegateCall | revert | selfDestruct
deriving DecidableEq, Repr

namespace Opcode

def toByte : Opcode → UInt8
  | .stop => 0x00
  | .add => 0x01
  | .mul => 0x02
  | .sub => 0x03
  | .div => 0x04
  | .sDiv => 0x05
  | .mod => 0x06
  | .sMod => 0x07
  | .addMod => 0x08
  | .mulMod => 0x09
  | .exp => 0x0a
  | .signExtend => 0x0b
  | .lt => 0x10
  | .gt => 0x11
  | .sLt => 0x12
  | .sGt => 0x13
  | .eq => 0x14
  | .isZero => 0x15
  | .and => 0x16
  | .or => 0x17
  | .xor => 0x18
  | .not => 0x19
  | .byte => 0x1a
  | .sha3 => 0x20
  | .address => 0x30
  | .balance => 0x31
  | .origin => 0x32
  | .caller => 0x33
  | .callValue => 0x34
  | .callDataLoad => 0x35
  | .callDataSize => 0x36
  | .callDataCopy => 0x37
  | .codeSize => 0x38
  | .codeCopy => 0x39
  | .gasPrice => 0x3a
  | .extCodeSize => 0x3b
  | .extCodeCopy => 0x3c
  | .blockHash => 0x40
  | .coinbase => 0x41
  | .timestamp => 0x42
  | .number => 0x43
  | .prevRandao => 0x44
  | .gasLimit => 0x45
  | .pop => 0x50
  | .mLoad => 0x51
  | .mStore => 0x52
  | .mStore8 => 0x53
  | .sLoad => 0x54
  | .sStore => 0x55
  | .jump => 0x56
  | .jumpI => 0x57
  | .pc => 0x58
  | .mSize => 0x59
  | .gas => 0x5a
  | .jumpDest => 0x5b
  | .push n => 0x60 + UInt8.ofNat n
  | .dup n => 0x80 + UInt8.ofNat n
  | .swap n => 0x90 + UInt8.ofNat n
  | .log n => 0xa0 + UInt8.ofNat n
  | .create => 0xf0
  | .call => 0xf1
  | .callCode => 0xf2
  | .ret => 0xf3
  | .delegateCall => 0xf4
  | .revert => 0xfd
  | .selfDestruct => 0xff

/-- The name of the opcode, with a capital at the start of each word of it. -/
def name : Opcode → String
  | .stop => "Stop"
  | .add => "Add"
  | .mul => "Mul"
  | .sub => "Sub"
  | .div => "Div"
  | .sDiv => "SDiv"
  | .mod => "Mod"
  | .sMod => "SMod"
  | .addMod => "AddMod"
  | .mulMod => "MulMod"
  | .exp => "Exp"
  | .signExtend => "SignExtend"
  | .lt => "Lt"
  | .gt => "Gt"
  | .sLt => "SLt"
  | .sGt => "SGt"
  | .eq => "Eq"
  | .isZero => "IsZero"
  | .and => "And"
  | .or => "Or"
  | .xor => "Xor"
  | .not => "Not"
  | .byte => "Byte"
  | .sha3 => "Sha3"
  | .address => "Address"
  | .balance => "Balance"
  | .origin => "Origin"
  | .caller => "Caller"
  | .callValue => "CallValue"
  | .callDataLoad => "CallDataLoad"
  | .callDataSize => "CallDataSize"
  | .callDataCopy => "CallDataCopy"
  | .codeSize => "CodeSize"
  | .codeCopy => "CodeCopy"
  | .gasPrice => "GasPrice"
  | .extCodeSize => "ExtCodeSize"
  | .extCodeCopy => "ExtCodeCopy"
  | .blockHash => "BlockHash"
  | .coinbase => "Coinbase"
  | .timestamp => "Timestamp"
  | .number => "Number"
  | .prevRandao => "PrevRandao"
  | .gasLimit => "GasLimit"
  | .pop => "Pop"
  | .mLoad => "MLoad"
  | .mStore => "MStore"
  | .mStore8 => "MStore8"
  | .sLoad => "SLoad"
  | .sStore => "SStore"
  | .jump => "Jump"
  | .jumpI => "JumpI"
  | .pc => "Pc"
  | .mSize => "MSize"
  | .gas => "Gas"
  | .jumpDest => "JumpDest"
  | .push n => "Push" ++ toString (n.val + 1)
  | .dup n => "Dup" ++ toString (n.val + 1)
  | .swap n => "Swap" ++ toString (n.val + 1)
  | .log n => "Log" ++ toString n.val
  | .create => "Create"
  | .call => "Call"
  | .callCode => "CallCode"
  | .ret => "Return"
  | .delegateCall => "DelegateCall"
  | .revert => "Revert"
  | .selfDestruct => "SelfDestruct"

def ofByte? (b : UInt8) : Option Opcode :=
  if push : 0x60 ≤ b.toNat ∧ b.toNat < 0x80 then
    some (.push ⟨b.toNat - 0x60, by omega⟩)
  else if dup : 0x80 ≤ b.toNat ∧ b.toNat < 0x90 then
    some (.dup ⟨b.toNat - 0x80, by omega⟩)
  else if swap : 0x90 ≤ b.toNat ∧ b.toNat < 0xa0 then
    some (.swap ⟨b.toNat - 0x90, by omega⟩)
  else if log : 0xa0 ≤ b.toNat ∧ b.toNat < 0xa5 then
    some (.log ⟨b.toNat - 0xa0, by omega⟩)
  else
    match b with
    | 0x00 => some .stop
    | 0x01 => some .add
    | 0x02 => some .mul
    | 0x03 => some .sub
    | 0x04 => some .div
    | 0x05 => some .sDiv
    | 0x06 => some .mod
    | 0x07 => some .sMod
    | 0x08 => some .addMod
    | 0x09 => some .mulMod
    | 0x0a => some .exp
    | 0x0b => some .signExtend
    | 0x10 => some .lt
    | 0x11 => some .gt
    | 0x12 => some .sLt
    | 0x13 => some .sGt
    | 0x14 => some .eq
    | 0x15 => some .isZero
    | 0x16 => some .and
    | 0x17 => some .or
    | 0x18 => some .xor
    | 0x19 => some .not
    | 0x1a => some .byte
    | 0x20 => some .sha3
    | 0x30 => some .address
    | 0x31 => some .balance
    | 0x32 => some .origin
    | 0x33 => some .caller
    | 0x34 => some .callValue
    | 0x35 => some .callDataLoad
    | 0x36 => some .callDataSize
    | 0x37 => some .callDataCopy
    | 0x38 => some .codeSize
    | 0x39 => some .codeCopy
    | 0x3a => some .gasPrice
    | 0x3b => some .extCodeSize
    | 0x3c => some .extCodeCopy
    | 0x40 => some .blockHash
    | 0x41 => some .coinbase
    | 0x42 => some .timestamp
    | 0x43 => some .number
    | 0x44 => some .prevRandao
    | 0x45 => some .gasLimit
    | 0x50 => some .pop
    | 0x51 => some .mLoad
    | 0x52 => some .mStore
    | 0x53 => some .mStore8
    | 0x54 => some .sLoad
    | 0x55 => some .sStore
    | 0x56 => some .jump
    | 0x57 => some .jumpI
    | 0x58 => some .pc
    | 0x59 => some .mSize
    | 0x5a => some .gas
    | 0x5b => some .jumpDest
    | 0xf0 => some .create
    | 0xf1 => some .call
    | 0xf2 => some .callCode
    | 0xf3 => some .ret
    | 0xf4 => some .delegateCall
    | 0xfd => some .revert
    | 0xff => some .selfDestruct
    | _ => none

/-- The letters and digits of the name in capitals. -/
def letters (op : Opcode) : List Char :=
  op.name.toList.map Char.toUpper

/-- The name in listings: the name of the opcode in capitals. -/
def mnemonic (op : Opcode) : String :=
  String.ofList op.letters

def isPush : Opcode → Bool
  | .push _ => true
  | _ => false

/-- The number of immediate bytes that follow the opcode: `PUSHn` is followed by `n`, any other
opcode by none. -/
def immediateLength : Opcode → Nat
  | .push n => n.val + 1
  | _ => 0

/-- The opcodes that belong to no numbered family, below the families. -/
def lowSingles : List Opcode :=
  [.stop, .add, .mul, .sub, .div, .sDiv, .mod, .sMod, .addMod, .mulMod, .exp, .signExtend, .lt,
   .gt, .sLt, .sGt, .eq, .isZero, .and, .or, .xor, .not, .byte, .sha3, .address, .balance,
   .origin, .caller, .callValue, .callDataLoad, .callDataSize, .callDataCopy, .codeSize,
   .codeCopy, .gasPrice, .extCodeSize, .extCodeCopy, .blockHash, .coinbase, .timestamp, .number,
   .prevRandao, .gasLimit, .pop, .mLoad, .mStore, .mStore8, .sLoad, .sStore, .jump, .jumpI, .pc,
   .mSize, .gas, .jumpDest]

/-- The opcodes that belong to no numbered family, above the families. -/
def highSingles : List Opcode :=
  [.create, .call, .callCode, .ret, .delegateCall, .revert, .selfDestruct]

def all : List Opcode :=
  lowSingles ++ (List.finRange 32).map .push ++ (List.finRange 16).map .dup ++
    (List.finRange 16).map .swap ++ (List.finRange 5).map .log ++ highSingles

/-- The opcode that a number stands for; only the numbers of a byte can stand for one. -/
def ofInt? (n : Int) : Option Opcode :=
  if 0 ≤ n ∧ n < 256 then ofByte? (UInt8.ofNat n.toNat) else none

/-- The opcode with the given mnemonic. The case of ASCII letters does not matter, and nothing is
trimmed. -/
def ofMnemonic? (text : String) : Option Opcode :=
  let wanted := text.toList.map Char.toUpper
  all.find? fun op => op.letters == wanted

end Opcode

/-- What the catalog says of one opcode. -/
structure Descriptor where
  /-- The byte that stands for the opcode. -/
  code : UInt8
  /-- The name in listings. -/
  mnemonic : String
  /-- The number of immediate bytes that follow it. -/
  immediateLength : Nat
deriving DecidableEq, Repr

def Opcode.descriptor (op : Opcode) : Descriptor :=
  ⟨op.toByte, op.mnemonic, op.immediateLength⟩

namespace Descriptor

/-- The descriptors of all opcodes, in ascending order of their bytes. -/
def catalog : List Descriptor :=
  Opcode.all.map Opcode.descriptor

def lookup (code : UInt8) : Option Descriptor :=
  catalog.find? (·.code == code)

end Descriptor

end EvmDisasm
