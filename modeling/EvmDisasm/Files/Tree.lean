import EvmDisasm.Files
import EvmDisasm.Files.Path

/-!
# Trees of files

A tree of directories and files as a value. Everything in it is listed with the names that lead to
it from the root, which itself is always a directory. Paths are followed name by name, as a system
does: every name but the last has to be that of a directory.
-/

namespace EvmDisasm

inductive FileTree.Node where
  | file (contents : Bytes)
  | directory
deriving DecidableEq, Repr

/-- A tree of directories and files, and the directory in it from which relative paths go. -/
structure FileTree where
  /-- What the tree holds beside its root. -/
  nodes : List (List String × FileTree.Node)
  /-- The names that lead to the working directory. -/
  workingDirectory : List String
deriving DecidableEq, Repr

namespace FileTree

def lookup (tree : FileTree) (place : List String) : Option Node :=
  if place.isEmpty then some .directory else tree.nodes.lookup place

def put (tree : FileTree) (place : List String) (node : Node) : FileTree :=
  { tree with nodes := (place, node) :: tree.nodes.filter (·.1 != place) }

/-- What was put at a place is found there. The root is a directory whatever is put there. -/
theorem lookup_put_self (tree : FileTree) {place : List String} (node : Node) (h : place ≠ []) :
    (tree.put place node).lookup place = some node := by
  simp [lookup, put, h]

/-- At other places there is what there was before. -/
theorem lookup_put_of_ne (tree : FileTree) {place other : List String} (node : Node)
    (h : other ≠ place) : (tree.put place node).lookup other = tree.lookup other := by
  have others (nodes : List (List String × Node)) :
      (nodes.filter (·.1 != place)).lookup other = nodes.lookup other := by
    induction nodes with
    | nil => rfl
    | cons entry nodes ih =>
      obtain ⟨here, found⟩ := entry
      by_cases same : here = place
      · have differs : (other == here) = false := by simp [same, h]
        simp only [List.lookup_cons, differs]
        simp [same, ih]
      · simp [same, ih, List.lookup_cons]
  have differs : (other == place) = false := by simp [h]
  simp only [lookup, put, List.lookup_cons, differs, others]

def origin (tree : FileTree) (path : String) : List String :=
  if Path.isAbsolute path then [] else tree.workingDirectory

/-- The place that names lead to from a place. There has to be a directory before each name; what
stands at the end, if anything, does not matter. -/
def follow (tree : FileTree) (place : List String) : List String → Except FileError (List String)
  | [] => .ok place
  | name :: rest =>
    match tree.lookup place with
    | none => .error .notFound
    | some (.file _) => .error .notDirectory
    | some .directory =>
      if name = "." then tree.follow place rest
      else if name = ".." then tree.follow place.dropLast rest
      else if Path.isTooLong name then .error .nameTooLong
      else tree.follow (place ++ [name]) rest

def directoryAt (tree : FileTree) (path : String) : Except FileError (List String) := do
  let names ← Path.resolve path
  tree.follow (tree.origin path) (names ++ ["."])

/-- The directory and the name in it of the entry that a path leads to, or nothing if its last name
is none that an entry can have. -/
def entryAt (tree : FileTree) (path : String) :
    Except FileError (Option (List String × String)) := do
  let names ← Path.resolve path
  match names.getLast? with
  | none => return none
  | some name =>
    let directory ← tree.follow (tree.origin path) (names.dropLast ++ ["."])
    if name = "." ∨ name = ".." then return none else return some (directory, name)

def nodeAt (tree : FileTree) (path : String) : Except FileError Node := do
  let names ← Path.resolve path
  let names := names ++ if Path.endsWithSlash path then ["."] else []
  let place ← tree.follow (tree.origin path) names
  match tree.lookup place with
  | none => throw .notFound
  | some node => return node

def read (tree : FileTree) (path : String) : Except FileError Bytes := do
  match ← tree.nodeAt path with
  | .file contents => return contents
  | .directory => throw .isDirectory

def makeDirectory (tree : FileTree) (path : String) : Except FileError FileTree := do
  match ← tree.entryAt path with
  | none => throw .alreadyExists
  | some (directory, name) =>
    if Path.isTooLong name then throw .nameTooLong
    else if (tree.lookup (directory ++ [name])).isSome then throw .alreadyExists
    else return tree.put (directory ++ [name]) .directory

/-- Make a directory, given the paths of it and of those that hold it, the closest first. Those that
are missing are made before it. -/
def makeDirectories (tree : FileTree) : List String → Except FileError Unit × FileTree
  | [] => (.ok (), tree)
  | path :: above =>
    match tree.makeDirectory path with
    | .ok made => (.ok (), made)
    | .error .notFound =>
      match tree.makeDirectories above with
      | (.error e, changed) => (.error e, changed)
      | (.ok (), changed) =>
        match changed.makeDirectory path with
        | .ok made => (.ok (), made)
        | .error e => (if (changed.directoryAt path).isOk then .ok () else .error e, changed)
    | .error e => (if (tree.directoryAt path).isOk then .ok () else .error e, tree)

/-- Make the directory that is to hold the file at the path, with those above it, unless something
is there. -/
def ensureParent (tree : FileTree) (path : String) : Except FileError Unit × FileTree :=
  match Path.holders path with
  | [] => (.ok (), tree)
  | holder :: above =>
    if (tree.nodeAt holder).isOk then (.ok (), tree) else tree.makeDirectories (holder :: above)

/-- The place of the file that creating a file at the path would make or empty. -/
def target (tree : FileTree) (path : String) : Except FileError (List String) := do
  match ← tree.entryAt path with
  | none => throw .isDirectory
  | some (directory, name) =>
    if Path.endsWithSlash path then throw .isDirectory
    else if Path.isTooLong name then throw .nameTooLong
    else if tree.lookup (directory ++ [name]) == some .directory then throw .isDirectory
    else return directory ++ [name]

/-- Give the file at the path new contents; it is made if it is not there. -/
def write (tree : FileTree) (path : String) (contents : Bytes) :
    Except FileError Unit × FileTree :=
  match tree.target path with
  | .error e => (.error e, tree)
  | .ok place => (.ok (), tree.put place (.file contents))

def files : Files (StateM FileTree) where
  read path := fun tree => (tree.read path, tree)
  ensureParent path := fun tree => tree.ensureParent path
  write path contents := fun tree => tree.write path contents

/-! ## Building and showing trees

Trees are put together from what is on a disk before a run, and what is on the disk afterwards is
read off them. -/

/-- The tree whose working directory has the given names and holds nothing. -/
def empty (workingDirectory : List String) : FileTree :=
  ⟨(List.range workingDirectory.length).map fun n =>
    (workingDirectory.take (n + 1), .directory), workingDirectory⟩

/-- The tree with a directory at the place, and with those above it. -/
def addDirectory (tree : FileTree) (place : List String) : FileTree :=
  (List.range place.length).foldl (fun tree n =>
    let above := place.take (n + 1)
    if (tree.lookup above).isSome then tree else tree.put above .directory) tree

/-- The tree with a file at the place, and with the directories above it. -/
def addFile (tree : FileTree) (place : List String) (contents : Bytes) : FileTree :=
  (tree.addDirectory place.dropLast).put place (.file contents)

/-- The files below the working directory, each with the names that lead to it from there. -/
def filesBelow (tree : FileTree) : List (List String × Bytes) :=
  tree.nodes.filterMap fun (place, node) =>
    match node with
    | .directory => none
    | .file contents =>
      if tree.workingDirectory.isPrefixOf place then
        some (place.drop tree.workingDirectory.length, contents)
      else none

end FileTree

end EvmDisasm
