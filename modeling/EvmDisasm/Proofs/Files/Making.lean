import EvmDisasm.Proofs.Files.Tree

/-!
# Making the directories for a file

The directories that are to hold a file are made from the closest one upwards until one can be made,
and then down again. Whatever stops this on its way, trees only grow by it, and doing it once more
changes nothing.

## The architecture

* **`Making`** — how the making of directories can go, one case for each end that it can take;
  **`making_iff`** says that it goes in no other way.
* **`Grown`** — the tree has what it had before, and what is new are directories that the paths
  name; **`Making.grown`** carries this through all cases.
* **`Making.hasDirectory_iff`**, **`Making.again`** — the directory is there afterwards just when
  making it was a success, and the tree stays as it is when all is tried once more.
* **`grown_of_ensureParent`**, **`ensureParent_again`** — the same for the holders of a file.
-/

namespace EvmDisasm.FileTree

variable {tree after made changed : FileTree} {path front : String} {paths above : List String}
  {place : List String} {answer : Except FileError Unit} {e : FileError}

/-! ## How the making of directories goes

The recursion goes up until a directory can be made and then down again. A derivation has one case
for each way a level of it can end, so that later arguments go along these and do not open the
recursion.
-/

/-- The answer where a directory could not be made: there may be one already. -/
def settle (tree : FileTree) (path : String) (e : FileError) : Except FileError Unit :=
  if (tree.directoryAt path).isOk then .ok () else .error e

/-- A refusal is settled if there is a directory all the same. -/
theorem settle_eq_ok_iff : tree.settle path e = .ok () ↔ tree.HasDirectory path := by
  rw [settle, ← isOk_directoryAt_iff]
  split
  · exact iff_of_true rfl ‹_›
  · exact iff_of_false (fun h => by cases h) ‹_›

/-- Making the directories of the paths, the closest first, leads from one tree to another. -/
inductive Making : List String → FileTree → Except FileError Unit → FileTree → Prop where
  | nil {tree : FileTree} : Making [] tree (.ok ()) tree
  | made {tree made : FileTree} {path : String} {above : List String}
      (hmade : tree.makeDirectory path = .ok made) : Making (path :: above) tree (.ok ()) made
  | refused {tree : FileTree} {path : String} {above : List String} {e : FileError}
      (herror : tree.makeDirectory path = .error e) (he : e ≠ .notFound) :
      Making (path :: above) tree (tree.settle path e) tree
  | stuckAbove {tree changed : FileTree} {path : String} {above : List String} {e : FileError}
      (hmissing : tree.makeDirectory path = .error .notFound)
      (habove : Making above tree (.error e) changed) : Making (path :: above) tree (.error e) changed
  | madeBelow {tree changed made : FileTree} {path : String} {above : List String}
      (hmissing : tree.makeDirectory path = .error .notFound)
      (habove : Making above tree (.ok ()) changed)
      (hmade : changed.makeDirectory path = .ok made) : Making (path :: above) tree (.ok ()) made
  | refusedBelow {tree changed : FileTree} {path : String} {above : List String} {e : FileError}
      (hmissing : tree.makeDirectory path = .error .notFound)
      (habove : Making above tree (.ok ()) changed)
      (herror : changed.makeDirectory path = .error e) :
      Making (path :: above) tree (changed.settle path e) changed

theorem Making.eq (h : Making paths tree answer after) :
    tree.makeDirectories paths = (answer, after) := by
  -- along the derivation, which goes up the paths as the recursion does
  induction h with
  | nil => rfl
  | made hmade =>
    rw [makeDirectories, hmade]
  | refused herror he =>
    rw [makeDirectories, herror]
    split
    · rename_i heq
      cases heq
    · rename_i heq
      cases heq
      exact absurd rfl he
    · rename_i heq
      cases heq
      rfl
  | stuckAbove hmissing habove ih =>
    rw [makeDirectories, hmissing]
    dsimp only
    rw [ih]
  | madeBelow hmissing habove hmade ih =>
    rw [makeDirectories, hmissing]
    dsimp only
    rw [ih]
    dsimp only
    rw [hmade]
  | refusedBelow hmissing habove herror ih =>
    rw [makeDirectories, hmissing]
    dsimp only
    rw [ih]
    dsimp only
    rw [herror]
    rfl

theorem exists_making (paths : List String) (tree : FileTree) :
    ∃ answer after, Making paths tree answer after := by
  induction paths generalizing tree with
  | nil => exact ⟨_, _, .nil⟩
  | cons path above ih =>
    cases hpath : tree.makeDirectory path with
    | ok made => exact ⟨_, _, .made hpath⟩
    | error e =>
      -- only a missing holder sends the recursion further up
      by_cases he : e = .notFound
      · subst he
        obtain ⟨answer, changed, habove⟩ := ih tree
        cases answer with
        | error e => exact ⟨_, _, .stuckAbove hpath habove⟩
        | ok _ =>
          cases hbelow : changed.makeDirectory path with
          | ok made => exact ⟨_, _, .madeBelow hpath habove hbelow⟩
          | error e => exact ⟨_, _, .refusedBelow hpath habove hbelow⟩
      · exact ⟨_, _, .refused hpath he⟩

/-- **The recursion goes in no other way.** -/
theorem making_iff :
    Making paths tree answer after ↔ tree.makeDirectories paths = (answer, after) := by
  refine ⟨Making.eq, fun h => ?_⟩
  obtain ⟨answer', after', hmaking⟩ := exists_making paths tree
  rw [hmaking.eq] at h
  cases h
  exact hmaking

/-! ## Trees that grow

What the making of directories does to the tree, whether it succeeds or not. -/

/-- The second tree has all of the first, and what it has beside that are directories at the ends of
the paths. -/
structure Grown (paths : List String) (tree after : FileTree) : Prop where
  workingDirectory_eq : after.workingDirectory = tree.workingDirectory
  kept : ∀ place node, tree.lookup place = some node → after.lookup place = some node
  added : ∀ place node, after.lookup place = some node → tree.lookup place = none →
    node = .directory ∧ ∃ path ∈ paths, after.directoryAt path = .ok place

theorem Grown.refl (paths : List String) (tree : FileTree) : Grown paths tree tree where
  workingDirectory_eq := rfl
  kept _ _ h := h
  added place node h hnone := by
    rw [hnone] at h
    cases h

theorem Grown.keeps (h : Grown paths tree after) : Keeps tree after :=
  ⟨h.workingDirectory_eq, fun place => h.kept place .directory⟩

/-- The files are the same in a tree that has only grown. -/
theorem Grown.file_iff {contents : Bytes} (h : Grown paths tree after) :
    after.lookup place = some (.file contents) ↔ tree.lookup place = some (.file contents) := by
  refine ⟨fun hafter => ?_, h.kept place _⟩
  cases hbefore : tree.lookup place with
  | none => cases (h.added place _ hafter hbefore).1
  | some node => rw [← h.kept place node hbefore, hafter]

/-- A directory of the new tree was there before, or is one that the paths name. -/
theorem Grown.directory_cases (h : Grown paths tree after)
    (hafter : after.lookup place = some .directory) :
    tree.lookup place = some .directory ∨
      tree.lookup place = none ∧ ∃ path ∈ paths, after.directoryAt path = .ok place := by
  cases hbefore : tree.lookup place with
  | none => exact .inr ⟨rfl, (h.added place _ hafter hbefore).2⟩
  | some node => exact .inl (by rw [← h.kept place node hbefore, hafter])

theorem Grown.trans (h : Grown paths tree changed) (h' : Grown paths changed after) :
    Grown paths tree after where
  workingDirectory_eq := h'.workingDirectory_eq.trans h.workingDirectory_eq
  kept place node hnode := h'.kept place node (h.kept place node hnode)
  added place node hnode hnone := by
    -- what is new was added by the second part, or by the first and kept by the second
    cases hbetween : changed.lookup place with
    | none => exact h'.added place node hnode hbetween
    | some node' =>
      obtain ⟨rfl, path, hmem, hpath⟩ := h.added place node' hbetween hnone
      rw [h'.kept place _ hbetween] at hnode
      cases hnode
      exact ⟨rfl, path, hmem, h'.keeps.directoryAt_eq_ok hpath⟩

theorem Grown.cons (h : Grown above tree after) (path : String) :
    Grown (path :: above) tree after where
  workingDirectory_eq := h.workingDirectory_eq
  kept := h.kept
  added place node hnode hnone := by
    obtain ⟨hdirectory, other, hmem, hother⟩ := h.added place node hnode hnone
    exact ⟨hdirectory, other, List.mem_cons_of_mem _ hmem, hother⟩

/-- Making one directory adds just that one. -/
theorem grown_of_makeDirectory (h : tree.makeDirectory path = .ok made) (hmem : path ∈ paths) :
    Grown paths tree made := by
  obtain ⟨place, hplace, hnone, rfl⟩ := directoryAt_of_makeDirectory h
  refine ⟨rfl, fun other node hnode => ?_, fun other node hnode hother => ?_⟩
  · -- nothing was at the place, so nothing is lost there
    have hne : other ≠ place := by
      rintro rfl
      rw [hnone] at hnode
      cases hnode
    rw [lookup_put_of_ne tree _ hne, hnode]
  · by_cases hsame : other = place
    · subst hsame
      rw [(directoryAt_eq_ok_iff.mp hplace).2.2] at hnode
      cases hnode
      exact ⟨rfl, path, hmem, hplace⟩
    · rw [lookup_put_of_ne tree _ hsame, hother] at hnode
      cases hnode

/-- **Whatever the outcome, the tree only grows**, and by directories that the paths name. -/
theorem Making.grown (h : Making paths tree answer after) : Grown paths tree after := by
  induction h with
  | nil => exact .refl _ _
  | made hmade => exact grown_of_makeDirectory hmade List.mem_cons_self
  | refused => exact .refl _ _
  | stuckAbove hmissing habove ih => exact ih.cons _
  | madeBelow hmissing habove hmade ih =>
    exact (ih.cons _).trans (grown_of_makeDirectory hmade List.mem_cons_self)
  | refusedBelow hmissing habove herror ih => exact ih.cons _

/-! ## Once more

A directory that is there is not made again, and what could not be made for want of a holder cannot
be made now either. So the second attempt leaves the tree alone. -/

theorem hasDirectory_of_makeDirectory (h : tree.makeDirectory path = .ok made) :
    made.HasDirectory path := by
  obtain ⟨place, hplace, -⟩ := directoryAt_of_makeDirectory h
  exact ⟨place, hplace⟩

/-- A directory can only be made where there are directories on the way. -/
theorem hasDirectory_front_of_makeDirectory (hfront : Path.Front front path)
    (h : tree.makeDirectory path = .ok made) : tree.HasDirectory front := by
  obtain ⟨directory, name, hentry, -⟩ := makeDirectory_eq_ok h
  exact hasDirectory_of_entryAt hfront (entryAt_eq_some_iff.mpr hentry)

/-- Where the first of the paths is a directory already, that is the end of it. -/
theorem making_of_hasDirectory (h : tree.HasDirectory path) (above : List String) :
    Making (path :: above) tree (.ok ()) tree := by
  have hmaking : Making (path :: above) tree (tree.settle path .alreadyExists) tree :=
    .refused (makeDirectory_of_hasDirectory h) FileError.noConfusion
  rwa [settle_eq_ok_iff.mpr h] at hmaking

/-- **The answer says whether the directory is there.** The paths above are the fronts of those
below, so without a directory above there is none below. -/
theorem Making.hasDirectory_iff (h : Making paths tree answer after)
    (hfronts : paths.Pairwise fun path front => Path.Front front path) :
    ∀ path ∈ paths.head?, (after.HasDirectory path ↔ answer = .ok ()) := by
  induction h with
  | nil =>
    intro path hmem
    cases hmem
  | made hmade =>
    rintro path ⟨⟩
    exact iff_of_true (hasDirectory_of_makeDirectory hmade) rfl
  | refused =>
    rintro path ⟨⟩
    exact settle_eq_ok_iff.symm
  | @stuckAbove tree changed path above e hmissing habove ih =>
    rintro path ⟨⟩
    obtain ⟨hpath, habove'⟩ := List.pairwise_cons.mp hfronts
    refine iff_of_false (fun hthere => ?_) (fun h => by cases h)
    -- a directory at the path would be one at the first front of it as well
    cases above with
    | nil => cases habove
    | cons front above =>
      have hfront := hthere.of_front (hpath front List.mem_cons_self)
      cases (ih habove' front rfl).mp hfront
  | madeBelow hmissing habove hmade =>
    rintro path ⟨⟩
    exact iff_of_true (hasDirectory_of_makeDirectory hmade) rfl
  | refusedBelow =>
    rintro path ⟨⟩
    exact settle_eq_ok_iff.symm

/-- Who fails to make directories on a path finds none at it afterwards either. -/
theorem Making.not_hasDirectory_of_error (h : Making paths tree (.error e) after)
    (hfronts : paths.Pairwise fun path front => Path.Front front path) :
    ∃ path ∈ paths.head?, ¬ after.HasDirectory path := by
  cases paths with
  | nil => cases h
  | cons path above =>
    refine ⟨path, rfl, fun hthere => ?_⟩
    cases (h.hasDirectory_iff hfronts path rfl).mp hthere

/-- Making the directories once more leaves the tree as it is, with a success just when there was
one before. -/
theorem Making.again (h : Making paths tree answer after)
    (hfronts : paths.Pairwise fun path front => Path.Front front path) :
    ∃ answer', Making paths after answer' after ∧ (answer' = .ok () ↔ answer = .ok ()) := by
  induction h with
  | nil => exact ⟨_, .nil, Iff.rfl⟩
  | made hmade => exact ⟨_, making_of_hasDirectory (hasDirectory_of_makeDirectory hmade) _, Iff.rfl⟩
  | refused herror he => exact ⟨_, .refused herror he, Iff.rfl⟩
  | @stuckAbove tree changed path above e hmissing habove ih =>
    obtain ⟨hpath, habove'⟩ := List.pairwise_cons.mp hfronts
    -- a directory is missing in front of the path still, so none can be made at it now either
    obtain ⟨front, hfront, hnone⟩ := habove.not_hasDirectory_of_error habove'
    have hmem : front ∈ above := List.mem_of_mem_head? hfront
    obtain ⟨answer', hagain, hanswer⟩ := ih habove'
    cases hmake : changed.makeDirectory path with
    | ok made => exact absurd (hasDirectory_front_of_makeDirectory (hpath front hmem) hmake) hnone
    | error e' =>
      by_cases he : e' = .notFound
      · subst he
        cases answer' with
        | error e' => exact ⟨_, .stuckAbove hmake hagain, hanswer⟩
        | ok _ => cases hanswer.mp rfl
      · refine ⟨_, .refused hmake he, iff_of_false (fun hok => ?_) (fun h => by cases h)⟩
        exact hnone ((settle_eq_ok_iff.mp hok).of_front (hpath front hmem))
  | madeBelow hmissing habove hmade =>
    exact ⟨_, making_of_hasDirectory (hasDirectory_of_makeDirectory hmade) _, Iff.rfl⟩
  | @refusedBelow tree changed path above e hmissing habove herror ih =>
    -- those above are there, and what the system refused then it refuses again
    obtain ⟨answer', hagain, hanswer⟩ := ih (List.pairwise_cons.mp hfronts).2
    obtain rfl := hanswer.mpr rfl
    by_cases he : e = .notFound
    · subst he
      exact ⟨_, .refusedBelow herror hagain herror, Iff.rfl⟩
    · exact ⟨_, .refused herror he, Iff.rfl⟩

/-! ## The holders of a file

A file is held by the directories on the way to it. Their fronts are holders as well, which is what
the second attempt needs. -/

/-- Where the closest holder is a directory, there is nothing to make. -/
theorem ensureParent_of_hasDirectory
    (h : ∀ holder ∈ (Path.holders path).head?, tree.HasDirectory holder) :
    tree.ensureParent path = (.ok (), tree) := by
  unfold ensureParent
  split
  · rfl
  · rename_i holder above hholders
    rw [hholders] at h
    obtain ⟨place, hplace⟩ := h holder rfl
    rw [nodeAt_of_directoryAt hplace]
    rfl

/-- The tree is left as it is, or the directories of all holders are made. -/
theorem ensureParent_cases (h : tree.ensureParent path = (answer, after)) :
    answer = .ok () ∧ after = tree ∨ Making (Path.holders path) tree answer after := by
  unfold ensureParent at h
  split at h
  · cases h
    exact .inl ⟨rfl, rfl⟩
  · rename_i holder above hholders
    split at h
    · cases h
      exact .inl ⟨rfl, rfl⟩
    · rw [hholders]
      exact .inr (making_iff.mpr h)

/-- Making the holders only adds directories, and only holders. -/
theorem grown_of_ensureParent (h : tree.ensureParent path = (answer, after)) :
    Grown (Path.holders path) tree after := by
  rcases ensureParent_cases h with ⟨-, rfl⟩ | hmaking
  · exact .refl _ _
  · exact hmaking.grown

theorem not_hasDirectory_of_ensureParent (h : tree.ensureParent path = (.error e, after)) :
    ∃ holder ∈ Path.holders path, ¬ after.HasDirectory holder := by
  rcases ensureParent_cases h with ⟨hok, -⟩ | hmaking
  · cases hok
  · obtain ⟨holder, hmem, hnone⟩ :=
      hmaking.not_hasDirectory_of_error (Path.pairwise_holders path)
    exact ⟨holder, List.mem_of_mem_head? hmem, hnone⟩

/-- **Making the holders once more changes nothing.** -/
theorem ensureParent_again (h : tree.ensureParent path = (answer, after)) :
    (after.ensureParent path).2 = after := by
  rcases ensureParent_cases h with ⟨-, rfl⟩ | hmaking
  · rw [h]
  · obtain ⟨answer', hagain, -⟩ := hmaking.again (Path.pairwise_holders path)
    rcases hthen : after.ensureParent path with ⟨answer'', after'⟩
    rcases ensureParent_cases hthen with ⟨-, rfl⟩ | hmaking'
    · rfl
    · -- both times all holders are gone through, and that has one outcome
      exact (Prod.ext_iff.mp (hmaking'.eq.symm.trans hagain.eq)).2

end EvmDisasm.FileTree
