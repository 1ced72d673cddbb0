import EvmDisasm.Proofs.Code.Source

/-!
# Code given as a text and code given as a file

The same digits can stand on the command line or in a file. The command line takes a text for what
it says. A file is taken for a text only if there is a digit in it, and otherwise for the bytes that
it holds: so the two ways part where a text says that the code is empty.

* **`load_text_file`** — the two ways side by side, for the code and for what a run shows.
* **`load_mark_alone`** — the mark alone, which is empty code as a text and two bytes as a file.
-/

namespace EvmDisasm

namespace Run

open CommandLine (Arguments)

/-- What a run shows depends on its code, not on the way in which the code is given. -/
theorem visible_run_of_load {tree : FileTree} {path text : String} {code : Log.Logged Bytes}
    (hload : ((Code.load FileTree.files path).run tree).1 = .ok code)
    (hparse : Code.parse text = .ok code.value) (environment : Option String)
    (arguments : Arguments) :
    visible ((run FileTree.files environment
      { arguments with input := some path, hex := none }).run tree) =
    visible ((run FileTree.files environment
      { arguments with input := none, hex := some text }).run tree) := by
  rw [visible_run, visible_run, codeOn_of_input rfl, codeOn_of_hex rfl rfl, hload, hparse]
  rfl

/-- **A file with a text of code gives that code**, unless the code is empty: then it gives the
bytes that it holds. So a run on the file shows the same as a run on the text, if there is code or
no text either. -/
theorem load_text_file {text : String} {code : Bytes} (hparse : Code.parse text = .ok code)
    {tree : FileTree} {path : String} (hread : tree.read path = .ok (Text.utf8 text.toList)) :
    (∃ records, (Code.load FileTree.files path).run tree =
      (.ok ⟨if code = [] then Text.utf8 text.toList else code, records⟩, tree)) ∧
    (code ≠ [] ∨ text = "" → ∀ (environment : Option String) (arguments : Arguments),
      visible ((run FileTree.files environment
        { arguments with input := some path, hex := none }).run tree) =
      visible ((run FileTree.files environment
        { arguments with input := none, hex := some text }).run tree)) := by
  -- what is made of the contents of a file does not depend on where the file is
  obtain ⟨records, hcontents⟩ := Code.ofContents_of_parse path hparse
  have hload : (Code.load FileTree.files path).run tree =
      (.ok ⟨if code = [] then Text.utf8 text.toList else code, records⟩, tree) := by
    rw [Code.run_load, hread, ← hcontents]
  refine ⟨⟨records, hload⟩, fun hsame environment arguments => ?_⟩
  -- where the code is empty, the text is too, and so is the file
  have hvalue : (if code = [] then Text.utf8 text.toList else code) = code := by
    split
    · rename_i hempty
      rcases hsame with hcode | rfl
      · exact absurd hempty hcode
      · exact hempty.symm
    · rfl
  rw [hvalue] at hload
  exact visible_run_of_load (congrArg Prod.fst hload) hparse environment arguments

/-- A file with blank characters between the digits, and one with the mark alone. -/
theorem load_text_file_blanks :
    let tree := ((FileTree.empty []).addFile ["code"] (Text.utf8 "0x60 01\n".toList)).addFile
      ["mark"] (Text.utf8 "0x".toList)
    let arguments : Arguments := { noHash := true }
    (Code.parse "0x60 01\n" = .ok [0x60, 0x01] ∧
      tree.read "code" = .ok (Text.utf8 "0x60 01\n".toList) ∧
      (∃ records, (Code.load FileTree.files "code").run tree = (.ok ⟨[0x60, 0x01], records⟩, tree)) ∧
      visible ((run FileTree.files none { arguments with input := some "code" }).run tree) =
        visible ((run FileTree.files none { arguments with hex := some "0x60 01\n" }).run tree)) ∧
    (Code.parse "0x" = .ok [] ∧ tree.read "mark" = .ok (Text.utf8 "0x".toList) ∧
      ∃ records, (Code.load FileTree.files "mark").run tree = (.ok ⟨[0x30, 0x78], records⟩, tree)) := by
  intro tree arguments
  have hcode : Code.parse "0x60 01\n" = .ok [0x60, 0x01] := by with_unfolding_all rfl
  have hmark : Code.parse "0x" = .ok [] := by with_unfolding_all rfl
  have hreadCode : tree.read "code" = .ok (Text.utf8 "0x60 01\n".toList) := by
    with_unfolding_all rfl
  have hreadMark : tree.read "mark" = .ok (Text.utf8 "0x".toList) := by with_unfolding_all rfl
  obtain ⟨hload, hsame⟩ := load_text_file hcode hreadCode
  exact ⟨⟨hcode, hreadCode, hload, hsame (.inl (List.cons_ne_nil _ _)) none arguments⟩,
    hmark, hreadMark, (load_text_file hmark hreadMark).1⟩

/-- The mark of hexadecimal by itself is a text of empty code, but a file of two bytes. -/
theorem load_mark_alone :
    let tree := (FileTree.empty []).addFile ["code"] (Text.utf8 "0x".toList)
    Code.parse "0x" = .ok [] ∧ tree.read "code" = .ok (Text.utf8 "0x".toList) ∧
      (Code.load FileTree.files "code").run tree = (.ok ⟨[0x30, 0x78], []⟩, tree) ∧
      ¬ ∃ records, ((Code.load FileTree.files "code").run tree).1 = .ok ⟨[], records⟩ := by
  intro tree
  have hread : tree.read "code" = .ok (Text.utf8 "0x".toList) := by with_unfolding_all rfl
  have hload : (Code.load FileTree.files "code").run tree = (.ok ⟨[0x30, 0x78], []⟩, tree) := by
    rw [Code.run_load, hread]
    dsimp only [Code.ofContents]
    rw [Text.ofUtf8?_utf8]
    with_unfolding_all rfl
  refine ⟨by with_unfolding_all rfl, hread, hload, fun ⟨records, hempty⟩ => ?_⟩
  rw [hload] at hempty
  cases hempty

end Run

end EvmDisasm
