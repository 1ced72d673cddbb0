/-!
# Byte strings and answers

Code, digests and the contents of files are byte strings. `bigEndian` reads one as a number. A text
is one in UTF-8: encoding a text and decoding the result gives the text back (`ofUtf8?_utf8`), and
decoding succeeds on nothing else (`eq_utf8_of_ofUtf8?`). Whatever can fail answers with a result or
an error, and one such action after another gives a result just when both of them do
(`bind_eq_ok_iff`).
-/

namespace EvmDisasm

abbrev Bytes := List UInt8

/-- The number of bytes of a machine word, which is also the width of the largest immediate. -/
def wordSize : Nat := 32

/-- The number that the bytes stand for, the first of them weighing most. -/
def bigEndian (bytes : Bytes) : Nat :=
  bytes.foldl (fun n b => 256 * n + b.toNat) 0

/-- Two steps give a result together if the first gives one and the second does on it. -/
theorem bind_eq_ok_iff {ε α β : Type} {x : Except ε α} {f : α → Except ε β} {b : β} :
    x >>= f = .ok b ↔ ∃ a, x = .ok a ∧ f a = .ok b := by
  cases x with
  | error e => exact iff_of_false (fun h => by cases h) (fun ⟨a, h, _⟩ => by cases h)
  | ok a => exact ⟨fun h => ⟨a, rfl, h⟩, fun ⟨a', h, hf⟩ => by cases h; exact hf⟩

namespace Text

/-! ## UTF-8

Texts are lists of characters here, and core's strings are one with those as far as their bytes
go. -/

def utf8 (chars : List Char) : Bytes :=
  chars.flatMap String.utf8EncodeChar

theorem utf8_append (front rest : List Char) : utf8 (front ++ rest) = utf8 front ++ utf8 rest :=
  List.flatMap_append

/-- The text that the bytes encode, if they are valid UTF-8. -/
def ofUtf8? (bytes : Bytes) : Option String :=
  String.fromUTF8? ⟨bytes.toArray⟩

/-- Core's strings hold the same bytes. -/
theorem toByteArray_utf8 (chars : List Char) :
    (⟨(utf8 chars).toArray⟩ : ByteArray) = chars.utf8Encode := by
  apply ByteArray.ext
  simp [List.utf8Encode, utf8]

/-- Decoding gives back the text that was encoded. -/
theorem ofUtf8?_utf8 (text : String) : ofUtf8? (utf8 text.toList) = some text := by
  have valid : (text.toList.utf8Encode).IsValidUTF8 := ⟨text.toList, rfl⟩
  have same : String.fromUTF8 text.toList.utf8Encode valid = text := by
    rw [← String.toByteArray_inj]
    show text.toList.utf8Encode = _
    rw [← String.toByteArray_ofList, String.ofList_toList]
  simp only [ofUtf8?, toByteArray_utf8, String.fromUTF8?, valid, dite_true, same]

/-- Nothing else can be decoded. -/
theorem eq_utf8_of_ofUtf8? {bytes : Bytes} {text : String} (h : ofUtf8? bytes = some text) :
    bytes = utf8 text.toList := by
  have h' := h
  simp only [ofUtf8?, String.fromUTF8?] at h'
  split at h'
  · rename_i valid
    obtain ⟨chars, same⟩ := valid
    have same := congrArg (fun b : ByteArray => b.data.toList) same
    simp only [List.utf8Encode, List.data_toByteArray] at same
    have same : bytes = utf8 chars := same
    have := ofUtf8?_utf8 (String.ofList chars)
    rw [String.toList_ofList, ← same, h] at this
    cases this
    simpa using same
  · simp at h'

end Text

end EvmDisasm
