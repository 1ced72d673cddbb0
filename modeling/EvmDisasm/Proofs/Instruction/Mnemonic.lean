import EvmDisasm.Listing.Reassembly
import EvmDisasm.Opcode.Lemmas
import EvmDisasm.Proofs.Hex.Texts
import EvmDisasm.Proofs.Instruction.Reading

/-!
# A mnemonic names one byte

The mnemonic of an instruction tells its first byte (`codeOfMnemonic?_mnemonic`), also where the
byte stands for no opcode. There are two kinds of mnemonics, and what keeps them apart is the
parenthesis: the text of an unknown instruction has one and no name of an opcode does, in whichever
case it is written.
-/

namespace EvmDisasm

theorem Opcode.toList_mnemonic (op : Opcode) : op.mnemonic.toList = op.letters := by
  rw [Opcode.mnemonic, String.toList_ofList]

/-- The letters of every opcode at once: capitals and digits. -/
theorem Opcode.isAlphanum_of_mem_letters {op : Opcode} {c : Char} (h : c ∈ op.letters) :
    c.isAlphanum = true := by
  have key : ∀ op ∈ Opcode.all, op.letters.all Char.isAlphanum = true := by decide +kernel
  exact List.all_eq_true.mp (key op (Opcode.mem_all op)) c h

/-- A text with a parenthesis names no opcode. -/
theorem Opcode.ofMnemonic?_eq_none {text : String} (h : '(' ∈ text.toList) :
    Opcode.ofMnemonic? text = none := by
  have hupper : '(' ∈ text.toList.map Char.toUpper := List.mem_map.mpr ⟨'(', h, by decide⟩
  rw [Opcode.ofMnemonic?, List.find?_eq_none]
  intro op _ hsame
  rw [← beq_iff_eq.mp hsame] at hupper
  have hletter := Opcode.isAlphanum_of_mem_letters hupper
  exact absurd hletter (by decide)

namespace Instruction

theorem toList_mnemonic_of_unknown {inst : Instruction} (h : inst.opcode = none) :
    inst.mnemonic.toList =
      "UNKNOWN(".toList ++ (Hex.number 2 inst.code.toNat).toList ++ [')'] := by
  rw [mnemonic, h]
  simp only [String.toList_append]
  rfl

/-- The byte is read back from between the parentheses. -/
theorem unknownCode?_mnemonic {inst : Instruction} (h : inst.opcode = none) :
    unknownCode? inst.mnemonic = some inst.code := by
  have hshown : (inst.mnemonic.toList.drop "UNKNOWN(".length).dropLast =
      (Hex.number 2 inst.code.toNat).toList := by
    rw [toList_mnemonic_of_unknown h, List.append_assoc,
      List.drop_left' String.length_toList, List.dropLast_concat]
  have hread : Hex.ofMarked? (Hex.number 2 inst.code.toNat).toList = some [inst.code] := by
    rw [Hex.number_eq_marked, Hex.ofMarked?_marked]
  rw [unknownCode?]
  simp only [hshown]
  rw [if_pos (toList_mnemonic_of_unknown h), hread]

/-- **The mnemonic of an instruction tells its first byte**, whether that is known or not. -/
theorem codeOfMnemonic?_mnemonic {inst : Instruction} (h : Shaped inst) :
    codeOfMnemonic? inst.mnemonic = some inst.code := by
  rw [codeOfMnemonic?]
  cases hop : inst.opcode with
  | none =>
    have hparenthesis : '(' ∈ inst.mnemonic.toList := by
      rw [toList_mnemonic_of_unknown hop, List.append_assoc]
      exact List.mem_append_left _ (by decide)
    rw [Opcode.ofMnemonic?_eq_none hparenthesis]
    exact unknownCode?_mnemonic hop
  | some op =>
    have hname : inst.mnemonic = op.mnemonic := by rw [mnemonic, hop]
    have hbyte : op.toByte = inst.code := by
      rw [h.opcode_eq] at hop
      exact Opcode.toByte_of_ofByte? hop
    rw [hname, Opcode.ofMnemonic?_mnemonic, ← hbyte]

end Instruction

end EvmDisasm
