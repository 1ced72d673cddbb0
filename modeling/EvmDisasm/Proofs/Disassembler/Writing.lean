import EvmDisasm.Disassembler
import EvmDisasm.Proofs.Files.Making

/-!
# Writing the listing touches nothing but its target

Writing takes two steps that can both fail: the directories for the file are made, and the file is.
The first one never touches a file, and the second one does nothing where it fails. So all that is
ever seen of it are the contents of one file, and directories on the way to it.

## The architecture

* **`Writing`** — the three ways that writing can go; **`writing_iff`** says that there are no
  others.
* **`Writing.keeps`**, **`Writing.directory_added`** — what becomes of directories.
* **`Writing.exists_target`**, **`Writing.file_iff_of_error`** — what becomes of files.
* **`Writing.target_ne_ok`** — a failure leaves a tree in which the path has no target, so that
  trying again fails too.
* **`write_after_write`** — when another listing is written to the same path, it is as if there had
  not been a first one.
* **`write_only_target`** — all of it, for any tree and any path.
-/

namespace EvmDisasm.Disassembler

open FileTree

variable {d : Disassembler} {path : String} {tree after : FileTree} {place : List String}
  {answer : Except WriteError Unit}

/-- Writing to the path leads from one tree to another. -/
inductive Writing (d : Disassembler) (path : String) (tree : FileTree) :
    Except WriteError Unit → FileTree → Prop where
  | noDirectory {made : FileTree} {cause : FileError}
      (hparent : tree.ensureParent path = (.error cause, made)) :
      Writing d path tree (.error (.directory cause)) made
  | noFile {made : FileTree} {cause : FileError}
      (hparent : tree.ensureParent path = (.ok (), made)) (htarget : made.target path = .error cause) :
      Writing d path tree (.error (.create path cause)) made
  | written {made : FileTree} {target : List String}
      (hparent : tree.ensureParent path = (.ok (), made)) (htarget : made.target path = .ok target) :
      Writing d path tree (.ok ()) (made.put target (.file (Text.utf8 d.listing.yaml.toList)))

theorem Writing.eq (h : Writing d path tree answer after) :
    (d.write FileTree.files path).run tree = (answer, after) := by
  unfold Disassembler.write
  rw [FileTree.run_bind, FileTree.run_files_ensureParent]
  -- one case for each step at which writing ends
  cases h with
  | noDirectory hparent =>
    rw [hparent]
    rfl
  | noFile hparent htarget =>
    rw [hparent]
    dsimp only
    rw [FileTree.run_bind, FileTree.run_files_write, htarget]
    rfl
  | written hparent htarget =>
    rw [hparent]
    dsimp only
    rw [FileTree.run_bind, FileTree.run_files_write, htarget]
    rfl

theorem exists_writing (d : Disassembler) (path : String) (tree : FileTree) :
    ∃ answer after, Writing d path tree answer after := by
  rcases hparent : tree.ensureParent path with ⟨parent, made⟩
  cases parent with
  | error cause => exact ⟨_, _, .noDirectory hparent⟩
  | ok _ =>
    cases htarget : made.target path with
    | error cause => exact ⟨_, _, .noFile hparent htarget⟩
    | ok target => exact ⟨_, _, .written hparent htarget⟩

/-- **There are just these three ways.** What follows goes through them one by one, and the
definition of writing is not opened again. -/
theorem writing_iff :
    Writing d path tree answer after ↔ (d.write FileTree.files path).run tree = (answer, after) := by
  refine ⟨Writing.eq, fun h => ?_⟩
  obtain ⟨answer', after', hwriting⟩ := exists_writing d path tree
  rw [hwriting.eq] at h
  cases h
  exact hwriting

/-! ## Directories

Making the holders is the step that adds directories. Creating the file adds none and takes none
away, because a path of which the target is a directory is refused. -/

theorem Writing.keeps (h : Writing d path tree answer after) : Keeps tree after := by
  cases h with
  | noDirectory hparent => exact (grown_of_ensureParent hparent).keeps
  | noFile hparent htarget => exact (grown_of_ensureParent hparent).keeps
  | written hparent htarget =>
    exact (grown_of_ensureParent hparent).keeps.trans (keeps_put_target htarget _)

/-- A directory that was not there before is one that is to hold the file. -/
theorem Writing.directory_added (h : Writing d path tree answer after)
    (hplace : after.lookup place = some .directory) :
    tree.lookup place = some .directory ∨
      tree.lookup place = none ∧ ∃ holder ∈ Path.holders path, after.directoryAt holder = .ok place := by
  cases h with
  | noDirectory hparent => exact (grown_of_ensureParent hparent).directory_cases hplace
  | noFile hparent htarget => exact (grown_of_ensureParent hparent).directory_cases hplace
  | @written made target hparent htarget =>
    -- a file stands at the target now, so the directory is one of those made before
    have hne : place ≠ target := by
      rintro rfl
      rw [lookup_put_target htarget] at hplace
      cases hplace
    -- the file changes nothing at the place, so what is there was there before it
    rw [lookup_put_of_ne made _ hne] at hplace
    rcases (grown_of_ensureParent hparent).directory_cases hplace with
      hbefore | ⟨hnone, holder, hmem, hholder⟩
    · exact .inl hbefore
    · exact .inr ⟨hnone, holder, hmem, (keeps_put_target htarget _).directoryAt_eq_ok hholder⟩

/-! ## Files

The holders are made without touching a file, so only the last step counts. -/

/-- **A success leaves the listing at the target** of the path, and every other file as it was. -/
theorem Writing.exists_target (h : Writing d path tree (.ok ()) after) :
    ∃ target, after.target path = .ok target ∧
      after.lookup target = some (.file (Text.utf8 d.listing.yaml.toList)) ∧
      ∀ place, place ≠ target → ∀ contents,
        after.lookup place = some (.file contents) ↔ tree.lookup place = some (.file contents) := by
  cases h with
  | @written made target hparent htarget =>
    refine ⟨target, target_put_target htarget _, lookup_put_target htarget _, ?_⟩
    intro place hne contents
    rw [lookup_put_of_ne made _ hne]
    exact (grown_of_ensureParent hparent).file_iff

/-- Where writing fails, there are no other files than before, whichever of its steps it is. -/
theorem Writing.file_iff_of_error {e : WriteError} (h : Writing d path tree (.error e) after)
    {contents : Bytes} :
    after.lookup place = some (.file contents) ↔ tree.lookup place = some (.file contents) := by
  cases h with
  | noDirectory hparent => exact (grown_of_ensureParent hparent).file_iff
  | noFile hparent htarget => exact (grown_of_ensureParent hparent).file_iff

/-- Where writing fails, the path has no target in the tree that is left. -/
theorem Writing.target_ne_ok {e : WriteError} (h : Writing d path tree (.error e) after)
    (target : List String) : after.target path ≠ .ok target := by
  cases h with
  | noDirectory hparent =>
    -- the path leads through the holder that could not be made
    obtain ⟨holder, hmem, hnone⟩ := not_hasDirectory_of_ensureParent hparent
    exact fun htarget => hnone (hasDirectory_of_target (Path.front_of_mem_holders hmem) htarget)
  | noFile hparent htarget =>
    rw [htarget]
    exact fun h => by cases h

/-! ## A second time

Whatever the first attempt came to, a second one finds what the first left behind: the holders that
could be made and, after a success, a file that it replaces. -/

/-- Where all that can be made of the directories is made and the path has no target, writing
changes nothing. -/
theorem run_write_of_no_target (hparent : (tree.ensureParent path).2 = tree)
    (htarget : ∀ target, tree.target path ≠ .ok target) :
    ((d.write FileTree.files path).run tree).2 = tree := by
  obtain ⟨answer, after, hwriting⟩ := exists_writing d path tree
  rw [hwriting.eq]
  cases hwriting with
  | noDirectory hparent' =>
    rw [hparent'] at hparent
    exact hparent
  | noFile hparent' htarget' =>
    rw [hparent'] at hparent
    exact hparent
  | written hparent' htarget' =>
    rw [hparent'] at hparent
    obtain rfl : _ = tree := hparent
    exact absurd htarget' (htarget _)

/-- Nothing is left of a listing when another one is written to the same path. -/
theorem write_after_write (d other : Disassembler) (path : String) (tree : FileTree) :
    ((other.write FileTree.files path).run ((d.write FileTree.files path).run tree).2).2 =
      ((other.write FileTree.files path).run tree).2 := by
  obtain ⟨answer, after, hwriting⟩ := exists_writing d path tree
  rw [hwriting.eq]
  cases hwriting with
  | noDirectory hparent =>
    have hother : Writing other path tree _ after := .noDirectory hparent
    rw [hother.eq]
    exact run_write_of_no_target (ensureParent_again hparent) hother.target_ne_ok
  | noFile hparent htarget =>
    have hother : Writing other path tree _ after := .noFile hparent htarget
    rw [hother.eq]
    exact run_write_of_no_target (ensureParent_again hparent) hother.target_ne_ok
  | @written made target hparent htarget =>
    -- the holders are there now, and a file in place of another one takes no directory away
    have hkeeps := keeps_put_target htarget (Text.utf8 d.listing.yaml.toList)
    have hparent' := ensureParent_of_hasDirectory fun holder hmem =>
      hkeeps.hasDirectory (hasDirectory_of_target
        (Path.front_of_mem_holders (List.mem_of_mem_head? hmem)) htarget)
    rw [(Writing.written hparent htarget).eq,
      (Writing.written hparent' (target_put_target htarget _)).eq]
    exact put_put made target _ _

/-- **Writing touches nothing but its target**, whatever the tree and the path are. Directories are
only added, and only at the ends of fronts of the path. After a success the target holds the
listing: the digest and the size of the code and one entry for each instruction; all other files are
the same as before. After a failure, all files are. Writing once more changes nothing. -/
theorem write_only_target (d : Disassembler) (tree : FileTree) (path : String) :
    let answer := ((d.write FileTree.files path).run tree).1
    let after := ((d.write FileTree.files path).run tree).2
    let listing : Listing := {
      codeHash := Digest.hash d.code
      size := d.code.length
      entries := d.instructions.map fun inst => {
        address := inst.offset
        mnemonic := inst.mnemonic
        operands := (inst.immediate.map fun bytes => "0x" ++ String.ofList (Hex.encode bytes)).toList
        truncated := inst.isTruncated } }
    let contents := Text.utf8 listing.yaml.toList
    after.workingDirectory = tree.workingDirectory ∧
    (∀ place, tree.lookup place = some .directory → after.lookup place = some .directory) ∧
    (∀ place, after.lookup place = some .directory → tree.lookup place = some .directory ∨
      tree.lookup place = none ∧
        ∃ front, Path.Front front path ∧ after.directoryAt front = .ok place) ∧
    (answer = .ok () → ∃ target, after.target path = .ok target ∧
      after.lookup target = some (.file contents) ∧ after.read path = .ok contents ∧
      ∀ place, place ≠ target → ∀ old,
        after.lookup place = some (.file old) ↔ tree.lookup place = some (.file old)) ∧
    (∀ e, answer = .error e → (∀ target, after.target path ≠ .ok target) ∧ ∀ place old,
      after.lookup place = some (.file old) ↔ tree.lookup place = some (.file old)) ∧
    ((d.write FileTree.files path).run after).2 = after := by
  intro answer after listing contents
  have hwriting : Writing d path tree answer after := writing_iff.mpr rfl
  refine ⟨hwriting.keeps.workingDirectory_eq, hwriting.keeps.directory, fun place hplace => ?_,
    fun hok => ?_, fun e he => ?_, write_after_write d d path tree⟩
  · rcases hwriting.directory_added hplace with hbefore | ⟨hnone, holder, hmem, hholder⟩
    · exact .inl hbefore
    · exact .inr ⟨hnone, holder, Path.front_of_mem_holders hmem, hholder⟩
  · -- the listing field by field is what the record of the instructions comes to
    rw [hok] at hwriting
    obtain ⟨target, htarget, hlookup, hothers⟩ := hwriting.exists_target
    exact ⟨target, htarget, hlookup, read_of_target htarget hlookup, hothers⟩
  · rw [he] at hwriting
    exact ⟨hwriting.target_ne_ok, fun place old => hwriting.file_iff_of_error⟩

/-- The code `5b61aa`, a destination and a push that is cut off. Its listing is written over a
longer file and to where directories have to be made for it; the third path leads through a file,
which stays as it is although a directory is made on the way. -/
theorem write_only_target_in_work :
    let d := (ofCode [0x5b, 0x61, 0xaa] false).disassemble.2
    let tree := ((FileTree.empty ["work"]).addFile ["work", "old.yaml"]
      (List.replicate 999 0x20)).addFile ["work", "blocked"] [0x01]
    let text :=
      "code_hash: 0xf97b83067db4e86138b2e7d804bb9729e2074bc101433d98795ad5f4ec601ffd\n" ++
      "size: 3\ninstructions:\n" ++
      "- address: 0\n  mnemonic: JUMPDEST\n  operands: []\n" ++
      "- address: 1\n  mnemonic: PUSH2\n  operands:\n  - '0xaa'\n  truncated: true\n"
    let after := fun path => ((d.write FileTree.files path).run tree).2
    (after "old.yaml").read "old.yaml" = .ok (Text.utf8 text.toList) ∧
    (after "new/deep/listing.yaml").read "new/deep/listing.yaml" = .ok (Text.utf8 text.toList) ∧
    tree.lookup ["work", "new", "deep"] = none ∧
    (after "new/../blocked/listing.yaml").lookup ["work", "new"] = some .directory ∧
    (after "new/../blocked/listing.yaml").lookup ["work", "blocked"] = some (.file [0x01]) := by
  intro d tree text after
  -- disassembling, hashing and writing the text are computed here, once for both files
  have hyaml : d.listing.yaml = text := by decide +kernel
  obtain ⟨-, -, -, hold, -⟩ := write_only_target d tree "old.yaml"
  obtain ⟨-, -, -, hnew, -⟩ := write_only_target d tree "new/deep/listing.yaml"
  obtain ⟨-, -, -, -, hblocked, -⟩ := write_only_target d tree "new/../blocked/listing.yaml"
  obtain ⟨_, -, -, hreadOld, -⟩ := hold (by with_unfolding_all rfl)
  obtain ⟨_, -, -, hreadNew, -⟩ := hnew (by with_unfolding_all rfl)
  -- the directory is made before it is found that the next name is that of a file
  have herror : ((d.write FileTree.files "new/../blocked/listing.yaml").run tree).1 =
      .error (.directory .alreadyExists) := by with_unfolding_all rfl
  have hfile : tree.lookup ["work", "blocked"] = some (.file [0x01]) := by decide +kernel
  rw [← hyaml]
  refine ⟨hreadOld, hreadNew, by decide +kernel, by with_unfolding_all rfl, ?_⟩
  exact ((hblocked _ herror).2 _ _).mpr hfile

end EvmDisasm.Disassembler
