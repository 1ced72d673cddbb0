import EvmDisasm.Opcode

/-!
# Bytes, mnemonics and opcodes determine each other

A byte stands for an opcode exactly if it is the opcode's byte (`ofByte?_eq_some_iff`), and the
mnemonic of an opcode names that opcode (`ofMnemonic?_mnemonic`).
-/

namespace EvmDisasm

namespace Opcode

/-- The byte of an opcode stands for it. -/
@[simp] theorem ofByte?_toByte (op : Opcode) : ofByte? op.toByte = some op := by
  cases op with
  | push n => revert n; decide
  | dup n => revert n; decide
  | swap n => revert n; decide
  | log n => revert n; decide
  | _ => rfl

theorem toByte_of_ofByte? {b : UInt8} {op : Opcode} (h : ofByte? b = some op) : op.toByte = b := by
  have key : ∀ n : Fin 256, ∀ op ∈ ofByte? (UInt8.ofNat n), op.toByte = UInt8.ofNat n := by
    decide +kernel
  have hb : UInt8.ofNat b.toNat = b := UInt8.ofNat_toNat
  have := key ⟨b.toNat, b.toNat_lt⟩ op
  simp only [hb] at this
  exact this h

/-- A byte stands for an opcode exactly if it is the opcode's byte. -/
theorem ofByte?_eq_some_iff {b : UInt8} {op : Opcode} : ofByte? b = some op ↔ op.toByte = b :=
  ⟨toByte_of_ofByte?, fun h => h ▸ ofByte?_toByte op⟩

theorem mem_all (op : Opcode) : op ∈ all := by
  cases op with
  | push n => simp [all]
  | dup n => simp [all]
  | swap n => simp [all]
  | log n => simp [all]
  | _ => decide

/-- Going through all opcodes finds the one that a byte stands for. -/
theorem find?_all_toByte (b : UInt8) : all.find? (·.toByte == b) = ofByte? b := by
  cases hfind : all.find? (·.toByte == b) with
  | some op =>
    have hbyte := List.find?_some hfind
    rw [← eq_of_beq hbyte, ofByte?_toByte]
  | none =>
    cases hop : ofByte? b with
    | none => rfl
    | some op =>
      have hbyte : (op.toByte == b) = true := beq_iff_eq.mpr (toByte_of_ofByte? hop)
      exact absurd hbyte (List.find?_eq_none.mp hfind op (mem_all op))

/-- **A mnemonic names its opcode**, in whichever case it is written. -/
theorem ofMnemonic?_mnemonic (op : Opcode) : ofMnemonic? op.mnemonic = some op := by
  have key : ∀ op ∈ all,
      all.find? (fun other => other.letters == op.letters.map Char.toUpper) = some op := by
    decide +kernel
  simpa [ofMnemonic?, mnemonic] using key op (mem_all op)

end Opcode

/-- The catalog knows exactly the bytes that stand for an opcode. -/
theorem Descriptor.lookup_eq (b : UInt8) :
    lookup b = (Opcode.ofByte? b).map Opcode.descriptor := by
  rw [lookup, catalog, List.find?_map, ← Opcode.find?_all_toByte]
  rfl

end EvmDisasm
