import EvmDisasm.Files.Tree
import EvmDisasm.Proofs.Files.Path

/-!
# Following paths in a growing tree

What stands in a tree is found by following names from directory to directory, so only directories
decide where a path leads. A tree that has kept its directories is followed to the same places.

* **`Keeps`** — the directories of a tree are kept, and with them **`Keeps.follow_eq_ok`**.
* **`hasDirectory_of_follow`** — who gets beyond a front of a path has gone through a directory
  there.
* **`makeDirectory_eq_ok`**, **`target_eq_ok_iff`** — what has to hold where a directory is made and
  where a file is put.
-/

namespace EvmDisasm.FileTree

variable {tree after made : FileTree} {path front : String} {place found : List String}

/-! ## Following names

One name leads from a directory to another place. The definition goes through the names and looks
the directory up on the way; here the two are taken apart. -/

/-- The place that a name leads to from a directory. -/
def move (place : List String) (name : String) : Except FileError (List String) :=
  if name = "." then .ok place
  else if name = ".." then .ok place.dropLast
  else if Path.isTooLong name then .error .nameTooLong
  else .ok (place ++ [name])

/-- In a directory, following names is moving by the first and following the rest. -/
theorem follow_cons (h : tree.lookup place = some .directory) (name : String) (rest : List String) :
    tree.follow place (name :: rest) = move place name >>= fun next => tree.follow next rest := by
  rw [follow, h]
  dsimp only
  unfold move
  -- the names that have a meaning of their own are asked for in the same order on both sides
  by_cases hdot : name = "."
  · rw [if_pos hdot, if_pos hdot]
    rfl
  · rw [if_neg hdot, if_neg hdot]
    by_cases hup : name = ".."
    · rw [if_pos hup, if_pos hup]
      rfl
    · rw [if_neg hup, if_neg hup]
      by_cases hlong : Path.isTooLong name = true
      · rw [if_pos hlong, if_pos hlong]
        rfl
      · rw [if_neg hlong, if_neg hlong]
        rfl

/-- There is a directory before each name. -/
theorem lookup_of_follow {names : List String} (h : tree.follow place names = .ok found)
    (hne : names ≠ []) : tree.lookup place = some .directory := by
  cases names with
  | nil => exact absurd rfl hne
  | cons name rest =>
    rw [follow] at h
    split at h
    · cases h
    · cases h
    · assumption

/-- **One step of following names**: there is a directory, the name leads on from it, and the rest
leads to the place. -/
theorem follow_cons_eq_ok_iff {name : String} {rest : List String} :
    tree.follow place (name :: rest) = .ok found ↔
      tree.lookup place = some .directory ∧
        ∃ next, move place name = .ok next ∧ tree.follow next rest = .ok found := by
  constructor
  · intro h
    have hdirectory := lookup_of_follow h (List.cons_ne_nil _ _)
    rw [follow_cons hdirectory] at h
    cases hmove : move place name with
    | error e =>
      rw [hmove] at h
      cases h
    | ok next =>
      rw [hmove] at h
      exact ⟨hdirectory, next, rfl, h⟩
  · rintro ⟨hdirectory, next, hmove, hrest⟩
    rw [follow_cons hdirectory, hmove]
    exact hrest

/-- **Names are followed part by part.** -/
theorem follow_append_eq_ok_iff {names rest : List String} :
    tree.follow place (names ++ rest) = .ok found ↔
      ∃ next, tree.follow place names = .ok next ∧ tree.follow next rest = .ok found := by
  -- on the first of the two parts, which is left behind at another place after each name
  induction names generalizing place with
  | nil => exact ⟨fun h => ⟨place, rfl, h⟩, fun ⟨next, hnext, h⟩ => by cases hnext; exact h⟩
  | cons name names ih =>
    rw [List.cons_append, follow_cons_eq_ok_iff]
    constructor
    · rintro ⟨hdirectory, next, hmove, hrest⟩
      obtain ⟨last, hlast, hfound⟩ := ih.mp hrest
      exact ⟨last, follow_cons_eq_ok_iff.mpr ⟨hdirectory, next, hmove, hlast⟩, hfound⟩
    · rintro ⟨last, hlast, hfound⟩
      obtain ⟨hdirectory, next, hmove, hrest⟩ := follow_cons_eq_ok_iff.mp hlast
      exact ⟨hdirectory, next, hmove, ih.mpr ⟨last, hrest, hfound⟩⟩

/-- A dot leads nowhere else, but asks for a directory. -/
theorem follow_dot_eq_ok_iff :
    tree.follow place ["."] = .ok found ↔ found = place ∧ tree.lookup place = some .directory := by
  rw [follow_cons_eq_ok_iff]
  constructor
  · rintro ⟨hdirectory, next, hmove, hrest⟩
    cases hmove
    cases hrest
    exact ⟨rfl, hdirectory⟩
  · rintro ⟨rfl, hdirectory⟩
    exact ⟨hdirectory, found, rfl, rfl⟩

/-! ## Trees that keep their directories

Nothing that a disassembler does takes a directory away. So what was found by following names before
is found in the same place afterwards. -/

/-- The second tree has the directories of the first, and paths start in the same place. -/
structure Keeps (tree after : FileTree) : Prop where
  workingDirectory_eq : after.workingDirectory = tree.workingDirectory
  directory : ∀ place, tree.lookup place = some .directory → after.lookup place = some .directory

theorem Keeps.trans (h : Keeps tree made) (h' : Keeps made after) : Keeps tree after :=
  ⟨h'.workingDirectory_eq.trans h.workingDirectory_eq,
    fun place hplace => h'.directory place (h.directory place hplace)⟩

/-- **Names lead to the same places** in a tree that has kept its directories. -/
theorem Keeps.follow_eq_ok (h : Keeps tree after) {names : List String}
    (hfollow : tree.follow place names = .ok found) : after.follow place names = .ok found := by
  induction names generalizing place with
  | nil => exact hfollow
  | cons name rest ih =>
    obtain ⟨hdirectory, next, hmove, hrest⟩ := follow_cons_eq_ok_iff.mp hfollow
    exact follow_cons_eq_ok_iff.mpr ⟨h.directory place hdirectory, next, hmove, ih hrest⟩

theorem Keeps.origin_eq (h : Keeps tree after) (path : String) :
    after.origin path = tree.origin path := by
  unfold origin
  rw [h.workingDirectory_eq]

/-- Putting something where no directory stands keeps the directories. -/
theorem keeps_put {node : Node} (h : tree.lookup place ≠ some .directory) :
    Keeps tree (tree.put place node) where
  workingDirectory_eq := rfl
  directory other hother := by
    have hne : other ≠ place := by
      rintro rfl
      exact h hother
    rw [lookup_put_of_ne tree node hne, hother]

/-- What is put at a place takes the place of what was put there before. -/
theorem put_put (tree : FileTree) (place : List String) (node node' : Node) :
    (tree.put place node).put place node' = tree.put place node' := by
  have hnodes : ((place, node) :: tree.nodes.filter (·.1 != place)).filter (·.1 != place) =
      tree.nodes.filter (·.1 != place) := by
    rw [List.filter_cons_of_neg (by simp), List.filter_filter]
    simp only [Bool.and_self]
  unfold put
  rw [hnodes]

/-! ## Directories

A path leads to a directory when its names do, and then there is one at each of its fronts too. -/

/-- The path leads to a directory. -/
def HasDirectory (tree : FileTree) (path : String) : Prop :=
  ∃ place, tree.directoryAt path = .ok place

/-- The path can be followed, its names lead to the place, and there is a directory. The dot at the
end of the names asks for the last of these. -/
theorem directoryAt_eq_ok_iff :
    tree.directoryAt path = .ok place ↔
      Path.resolve path = .ok (Path.names path) ∧
        tree.follow (tree.origin path) (Path.names path) = .ok place ∧
        tree.lookup place = some .directory := by
  unfold directoryAt
  cases hresolve : Path.resolve path with
  | error e => exact iff_of_false (fun h => by cases h) (fun h => by cases h.1)
  | ok names =>
    have hnames := Path.resolve_eq_ok hresolve
    rw [hresolve, Except.ok.injEq] at hnames
    show tree.follow (tree.origin path) (names ++ ["."]) = .ok place ↔ _
    rw [follow_append_eq_ok_iff, hnames]
    constructor
    · rintro ⟨next, hfollow, hdot⟩
      obtain ⟨rfl, hdirectory⟩ := follow_dot_eq_ok_iff.mp hdot
      exact ⟨rfl, hfollow, hdirectory⟩
    · rintro ⟨-, hfollow, hdirectory⟩
      exact ⟨place, hfollow, follow_dot_eq_ok_iff.mpr ⟨rfl, hdirectory⟩⟩

theorem isOk_directoryAt_iff : (tree.directoryAt path).isOk = true ↔ tree.HasDirectory path := by
  unfold HasDirectory
  cases tree.directoryAt path with
  | error e => exact iff_of_false Bool.false_ne_true (fun ⟨place, h⟩ => by cases h)
  | ok place => exact iff_of_true rfl ⟨place, rfl⟩

/-- A directory that is kept stays at the end of its path. -/
theorem Keeps.directoryAt_eq_ok (h : Keeps tree after) (hpath : tree.directoryAt path = .ok place) :
    after.directoryAt path = .ok place := by
  obtain ⟨hresolve, hfollow, hdirectory⟩ := directoryAt_eq_ok_iff.mp hpath
  refine directoryAt_eq_ok_iff.mpr ⟨hresolve, ?_, h.directory place hdirectory⟩
  rw [h.origin_eq]
  exact h.follow_eq_ok hfollow

theorem Keeps.hasDirectory (h : Keeps tree after) (hpath : tree.HasDirectory path) :
    after.HasDirectory path := by
  obtain ⟨place, hplace⟩ := hpath
  exact ⟨place, h.directoryAt_eq_ok hplace⟩

/-- Who gets beyond a front of a path has gone through a directory there. -/
theorem hasDirectory_of_follow (h : Path.Front front path)
    (hresolve : Path.resolve path = .ok (Path.names path)) {rest : List String} (hrest : rest ≠ [])
    (hfollow : tree.follow (tree.origin path) (Path.names front ++ rest) = .ok found) :
    tree.HasDirectory front := by
  obtain ⟨place, hfront, hbeyond⟩ := follow_append_eq_ok_iff.mp hfollow
  have horigin : tree.origin front = tree.origin path := by
    unfold origin
    rw [h.isAbsolute_eq]
  rw [← horigin] at hfront
  exact ⟨place, directoryAt_eq_ok_iff.mpr
    ⟨h.resolve_eq hresolve, hfront, lookup_of_follow hbeyond hrest⟩⟩

/-- A path that leads to a directory has one at each front. -/
theorem HasDirectory.of_front (h : Path.Front front path) (hpath : tree.HasDirectory path) :
    tree.HasDirectory front := by
  obtain ⟨place, hplace⟩ := hpath
  obtain ⟨hresolve, hfollow, hdirectory⟩ := directoryAt_eq_ok_iff.mp hplace
  obtain ⟨rest, hrest, hnames⟩ := h.exists_names_eq
  rw [hnames] at hfollow
  exact hasDirectory_of_follow h hresolve hrest hfollow

/-- What a path to a directory leads to is a directory, with a slash at its end or without. -/
theorem nodeAt_of_directoryAt (h : tree.directoryAt path = .ok place) :
    tree.nodeAt path = .ok .directory := by
  obtain ⟨hresolve, hfollow, hdirectory⟩ := directoryAt_eq_ok_iff.mp h
  refine bind_eq_ok_iff.mpr ⟨_, hresolve, bind_eq_ok_iff.mpr ⟨place, ?_, ?_⟩⟩
  · refine follow_append_eq_ok_iff.mpr ⟨place, hfollow, ?_⟩
    split
    · exact follow_dot_eq_ok_iff.mpr ⟨rfl, hdirectory⟩
    · rfl
  · rw [hdirectory]
    rfl

/-! ## Entries

Whoever makes something asks for the directory that is to hold it and the name that it is to have
there. `entryAt` computes the two; `Entry` says what they are. -/

/-- The path ends with a name in a directory. -/
structure Entry (tree : FileTree) (path : String) (directory : List String) (name : String) :
    Prop where
  resolve_eq : Path.resolve path = .ok (Path.names path)
  names_eq : ∃ names, Path.names path = names ++ [name] ∧
    tree.follow (tree.origin path) names = .ok directory
  lookup_eq : tree.lookup directory = some .directory
  ne_dot : name ≠ "."
  ne_up : name ≠ ".."

variable {directory : List String} {name : String}

theorem entryAt_of_names_eq (hresolve : Path.resolve path = .ok (Path.names path))
    {names : List String} (hnames : Path.names path = names ++ [name]) :
    tree.entryAt path = tree.follow (tree.origin path) (names ++ ["."]) >>= fun directory =>
      if name = "." ∨ name = ".." then return none else return some (directory, name) := by
  unfold entryAt
  rw [hresolve, hnames]
  dsimp only [bind, Except.bind]
  rw [List.getLast?_concat, List.dropLast_concat]

theorem entryAt_of_names_eq_nil (hresolve : Path.resolve path = .ok (Path.names path))
    (hnames : Path.names path = []) : tree.entryAt path = .ok none := by
  unfold entryAt
  rw [hresolve, hnames]
  rfl

theorem resolve_of_entryAt {entry : Option (List String × String)}
    (h : tree.entryAt path = .ok entry) : Path.resolve path = .ok (Path.names path) := by
  obtain ⟨names, hresolve, -⟩ := bind_eq_ok_iff.mp h
  exact Path.resolve_eq_ok hresolve

/-- The names in front of the last one lead to the directory, and the last one is the name, unless
it has a meaning of its own. -/
theorem follow_of_entryAt {entry : Option (List String × String)} {names : List String}
    (h : tree.entryAt path = .ok entry) (hnames : Path.names path = names ++ [name]) :
    ∃ directory, tree.follow (tree.origin path) (names ++ ["."]) = .ok directory ∧
      entry = if name = "." ∨ name = ".." then none else some (directory, name) := by
  rw [entryAt_of_names_eq (resolve_of_entryAt h) hnames] at h
  obtain ⟨directory, hfollow, h⟩ := bind_eq_ok_iff.mp h
  refine ⟨directory, hfollow, ?_⟩
  split at h
  · cases h
    rw [if_pos ‹_›]
  · cases h
    rw [if_neg ‹_›]

theorem entryAt_of_follow (hresolve : Path.resolve path = .ok (Path.names path))
    {names : List String} (hnames : Path.names path = names ++ [name])
    (hfollow : tree.follow (tree.origin path) names = .ok directory)
    (hlookup : tree.lookup directory = some .directory) :
    tree.entryAt path =
      .ok (if name = "." ∨ name = ".." then none else some (directory, name)) := by
  have hdot : tree.follow (tree.origin path) (names ++ ["."]) = .ok directory :=
    follow_append_eq_ok_iff.mpr ⟨directory, hfollow, follow_dot_eq_ok_iff.mpr ⟨rfl, hlookup⟩⟩
  rw [entryAt_of_names_eq hresolve hnames, hdot]
  show (if name = "." ∨ name = ".." then _ else _) = _
  split
  · rfl
  · rfl

/-- **The entry of a path is what `Entry` says.** -/
theorem entryAt_eq_some_iff :
    tree.entryAt path = .ok (some (directory, name)) ↔ Entry tree path directory name := by
  constructor
  · -- the names are split at the last one, and the root has none
    intro h
    rcases List.eq_nil_or_concat (Path.names path) with hnames | ⟨names, last, hnames⟩
    · rw [entryAt_of_names_eq_nil (resolve_of_entryAt h) hnames] at h
      cases h
    · rw [List.concat_eq_append] at hnames
      obtain ⟨found, hfollow, hentry⟩ := follow_of_entryAt h hnames
      split at hentry
      · cases hentry
      · rename_i hname
        cases hentry
        obtain ⟨next, hnext, hdot⟩ := follow_append_eq_ok_iff.mp hfollow
        obtain ⟨rfl, hdirectory⟩ := follow_dot_eq_ok_iff.mp hdot
        exact ⟨resolve_of_entryAt h, ⟨names, hnames, hnext⟩, hdirectory,
          fun hdot => hname (.inl hdot), fun hup => hname (.inr hup)⟩
  · rintro ⟨hresolve, ⟨names, hnames, hfollow⟩, hlookup, hdot, hup⟩
    rw [entryAt_of_follow hresolve hnames hfollow hlookup, if_neg (fun h => h.elim hdot hup)]

/-- A tree that has kept its directories has the same entries. -/
theorem Keeps.entry (h : Keeps tree after) (hentry : Entry tree path directory name) :
    Entry after path directory name := by
  obtain ⟨names, hnames, hfollow⟩ := hentry.names_eq
  refine ⟨hentry.resolve_eq, ⟨names, hnames, ?_⟩, h.directory _ hentry.lookup_eq, hentry.ne_dot,
    hentry.ne_up⟩
  rw [h.origin_eq]
  exact h.follow_eq_ok hfollow

/-- Looking for an entry leads through all fronts of the path. -/
theorem hasDirectory_of_entryAt (h : Path.Front front path) {entry : Option (List String × String)}
    (hentry : tree.entryAt path = .ok entry) : tree.HasDirectory front := by
  obtain ⟨rest, hrest, hnames⟩ := h.exists_names_eq
  rcases List.eq_nil_or_concat rest with hnil | ⟨rest, name, rfl⟩
  · exact absurd hnil hrest
  · rw [List.concat_eq_append, ← List.append_assoc] at hnames
    obtain ⟨directory, hfollow, -⟩ := follow_of_entryAt hentry hnames
    -- the last name is left out, but the dot in its place is behind the front as well
    rw [List.append_assoc] at hfollow
    exact hasDirectory_of_follow h (resolve_of_entryAt hentry)
      (List.append_ne_nil_of_right_ne_nil _ (List.cons_ne_nil _ _)) hfollow

/-- A name without a meaning of its own leads to the place of that name, if it is not too long. -/
theorem move_eq_ok_iff (hdot : name ≠ ".") (hup : name ≠ "..") :
    move directory name = .ok place ↔
      Path.isTooLong name = false ∧ place = directory ++ [name] := by
  unfold move
  rw [if_neg hdot, if_neg hup]
  cases Path.isTooLong name with
  | true => exact iff_of_false (fun h => by cases h) (fun h => by cases h.1)
  | false => exact ⟨fun h => by cases h; exact ⟨rfl, rfl⟩, fun ⟨_, h⟩ => by rw [h]; rfl⟩

/-- The names on the path lead to its entry. -/
theorem Entry.follow_eq_ok (h : Entry tree path directory name)
    (hlong : Path.isTooLong name = false) :
    tree.follow (tree.origin path) (Path.names path) = .ok (directory ++ [name]) := by
  obtain ⟨names, hnames, hfollow⟩ := h.names_eq
  rw [hnames]
  have hmove : move directory name = .ok (directory ++ [name]) :=
    (move_eq_ok_iff h.ne_dot h.ne_up).mpr ⟨hlong, rfl⟩
  exact follow_append_eq_ok_iff.mpr
    ⟨directory, hfollow, follow_cons_eq_ok_iff.mpr ⟨h.lookup_eq, _, hmove, rfl⟩⟩

/-! ## Making a directory

A directory is made where there is nothing yet, so making one keeps those that are there. -/

/-- A directory that was made is the entry of the path, and nothing was there before. -/
theorem makeDirectory_eq_ok (h : tree.makeDirectory path = .ok made) :
    ∃ directory name, Entry tree path directory name ∧ Path.isTooLong name = false ∧
      tree.lookup (directory ++ [name]) = none ∧
      made = tree.put (directory ++ [name]) .directory := by
  obtain ⟨entry, hentry, h⟩ := bind_eq_ok_iff.mp h
  cases entry with
  | none => cases h
  | some entry =>
    obtain ⟨directory, name⟩ := entry
    dsimp only at h
    split at h
    · cases h
    · split at h
      · cases h
      · rename_i hlong hthere
        cases h
        exact ⟨directory, name, entryAt_eq_some_iff.mp hentry, Bool.eq_false_iff.mpr hlong,
          Option.not_isSome_iff_eq_none.mp hthere, rfl⟩

/-- Where a directory is already, none is made. -/
theorem makeDirectory_of_hasDirectory (h : tree.HasDirectory path) :
    tree.makeDirectory path = .error .alreadyExists := by
  obtain ⟨place, hplace⟩ := h
  obtain ⟨hresolve, hfollow, hdirectory⟩ := directoryAt_eq_ok_iff.mp hplace
  unfold makeDirectory
  rcases List.eq_nil_or_concat (Path.names path) with hnames | ⟨names, name, hnames⟩
  · rw [entryAt_of_names_eq_nil hresolve hnames]
    rfl
  · rw [List.concat_eq_append] at hnames
    rw [hnames] at hfollow
    obtain ⟨directory, hnext, hname⟩ := follow_append_eq_ok_iff.mp hfollow
    obtain ⟨hlookup, next, hmove, hlast⟩ := follow_cons_eq_ok_iff.mp hname
    cases hlast
    rw [entryAt_of_follow hresolve hnames hnext hlookup]
    -- a last name with a meaning of its own is refused at once, any other is found to be taken
    by_cases hspecial : name = "." ∨ name = ".."
    · rw [if_pos hspecial]
      rfl
    · obtain ⟨hlong, rfl⟩ := (move_eq_ok_iff (fun h => hspecial (.inl h))
        (fun h => hspecial (.inr h))).mp hmove
      rw [if_neg hspecial]
      show (if Path.isTooLong name then _ else if (tree.lookup _).isSome then _ else _) = _
      rw [hlong, hdirectory]
      rfl

theorem keeps_of_makeDirectory (h : tree.makeDirectory path = .ok made) : Keeps tree made := by
  obtain ⟨directory, name, -, -, hnone, rfl⟩ := makeDirectory_eq_ok h
  refine keeps_put ?_
  rw [hnone]
  exact (Option.some_ne_none _).symm

/-- The directory that is made stands where the path leads. -/
theorem directoryAt_of_makeDirectory (h : tree.makeDirectory path = .ok made) :
    ∃ place, made.directoryAt path = .ok place ∧ tree.lookup place = none ∧
      made = tree.put place .directory := by
  have hkeeps := keeps_of_makeDirectory h
  obtain ⟨directory, name, hentry, hlong, hnone, rfl⟩ := makeDirectory_eq_ok h
  refine ⟨directory ++ [name], directoryAt_eq_ok_iff.mpr ⟨hentry.resolve_eq, ?_, ?_⟩, hnone, rfl⟩
  · exact (hkeeps.entry hentry).follow_eq_ok hlong
  · exact lookup_put_self tree _ (List.append_ne_nil_of_right_ne_nil _ (List.cons_ne_nil _ _))

/-! ## The target of a path

Creating a file needs an entry that is not a directory. A file that is there is emptied, so the
target stays the target. -/

/-- **What a target is**: the place of an entry, with a name that fits and without a slash behind
it, at which there is no directory. -/
theorem target_eq_ok_iff :
    tree.target path = .ok place ↔
      ∃ directory name, Entry tree path directory name ∧ Path.endsWithSlash path = false ∧
        Path.isTooLong name = false ∧ place = directory ++ [name] ∧
        tree.lookup place ≠ some .directory := by
  constructor
  · intro h
    obtain ⟨entry, hentry, h⟩ := bind_eq_ok_iff.mp h
    cases entry with
    | none => cases h
    | some entry =>
      obtain ⟨directory, name⟩ := entry
      dsimp only at h
      split at h
      · cases h
      · split at h
        · cases h
        · split at h
          · cases h
          · rename_i hslash hlong hthere
            cases h
            exact ⟨directory, name, entryAt_eq_some_iff.mp hentry, Bool.eq_false_iff.mpr hslash,
              Bool.eq_false_iff.mpr hlong, rfl, fun h => hthere (beq_iff_eq.mpr h)⟩
  · -- none of the three refusals applies
    rintro ⟨directory, name, hentry, hslash, hlong, rfl, hthere⟩
    refine bind_eq_ok_iff.mpr ⟨some (directory, name), entryAt_eq_some_iff.mpr hentry, ?_⟩
    dsimp only
    rw [hslash, hlong, beq_false_of_ne hthere]
    rfl

/-- A target stays one in a tree that has kept its directories, unless a directory has been made
there. -/
theorem Keeps.target_eq_ok (h : Keeps tree after) (hpath : tree.target path = .ok place)
    (hplace : after.lookup place ≠ some .directory) : after.target path = .ok place := by
  obtain ⟨directory, name, hentry, hslash, hlong, rfl, -⟩ := target_eq_ok_iff.mp hpath
  exact target_eq_ok_iff.mpr ⟨directory, name, h.entry hentry, hslash, hlong, rfl, hplace⟩

/-- A path with a target leads through directories. -/
theorem hasDirectory_of_target (h : Path.Front front path) (hpath : tree.target path = .ok place) :
    tree.HasDirectory front := by
  obtain ⟨directory, name, hentry, -⟩ := target_eq_ok_iff.mp hpath
  exact hasDirectory_of_entryAt h (entryAt_eq_some_iff.mpr hentry)

/-- A file at the target of a path keeps the directories. -/
theorem keeps_put_target (hpath : tree.target path = .ok place) (contents : Bytes) :
    Keeps tree (tree.put place (.file contents)) := by
  obtain ⟨_, _, _, _, _, _, hplace⟩ := target_eq_ok_iff.mp hpath
  exact keeps_put hplace

theorem lookup_put_target (hpath : tree.target path = .ok place) (contents : Bytes) :
    (tree.put place (.file contents)).lookup place = some (.file contents) := by
  obtain ⟨directory, name, _, _, _, rfl, _⟩ := target_eq_ok_iff.mp hpath
  exact lookup_put_self tree _ (List.append_ne_nil_of_right_ne_nil _ (List.cons_ne_nil _ _))

/-- The file at the target of a path stays its target. -/
theorem target_put_target (hpath : tree.target path = .ok place) (contents : Bytes) :
    (tree.put place (.file contents)).target path = .ok place := by
  refine (keeps_put_target hpath contents).target_eq_ok hpath ?_
  rw [lookup_put_target hpath contents]
  simp

/-- What is read at a path is the file at its target. -/
theorem read_of_target {contents : Bytes} (hpath : tree.target path = .ok place)
    (hplace : tree.lookup place = some (.file contents)) : tree.read path = .ok contents := by
  obtain ⟨directory, name, hentry, hslash, hlong, rfl, -⟩ := target_eq_ok_iff.mp hpath
  have hnode : tree.nodeAt path = .ok (.file contents) := by
    refine bind_eq_ok_iff.mpr ⟨_, hentry.resolve_eq, ?_⟩
    rw [hslash]
    refine bind_eq_ok_iff.mpr ⟨directory ++ [name], ?_, ?_⟩
    · show tree.follow _ (Path.names path ++ []) = _
      rw [List.append_nil]
      exact hentry.follow_eq_ok hlong
    · rw [hplace]
      rfl
  exact bind_eq_ok_iff.mpr ⟨_, hnode, rfl⟩

/-! ## Actions on a tree

An action on files, run on a tree, is a function of the tree. These three equations are how programs
over files are opened. -/

theorem run_bind {α β : Type} (action : StateM FileTree α) (next : α → StateM FileTree β)
    (tree : FileTree) :
    (action >>= next).run tree = (next (action.run tree).1).run (action.run tree).2 := rfl

theorem run_files_ensureParent (tree : FileTree) (path : String) :
    (files.ensureParent path).run tree = tree.ensureParent path := rfl

theorem run_files_write (tree : FileTree) (path : String) (contents : Bytes) :
    (files.write path contents).run tree =
      match tree.target path with
      | .error e => (.error e, tree)
      | .ok place => (.ok (), tree.put place (.file contents)) := rfl

end EvmDisasm.FileTree
