import EvmDisasm.Files

/-!
# Paths

The names that a path goes through, the directories that hold what stands at its end, and the paths
that a system refuses to follow. Slashes in a row count as one. A path that starts with a slash goes
from the root, any other from the working directory.
-/

namespace EvmDisasm.Path

def isAbsolute (path : String) : Bool :=
  path.toList.head? == some '/'

def endsWithSlash (path : String) : Bool :=
  path.toList.getLast? == some '/'

/-- The names on the path from left to right, those that stand for a directory among them. -/
def names (path : String) : List String :=
  ((path.toList.splitOn '/').filter (!·.isEmpty)).map String.ofList

/-! ## Paths that are followed

A system looks at a path as a whole before it follows it, and at each name when it gets there. -/

/-- The number of bytes from which on a path is too long. -/
def pathLimit : Nat := 4096

/-- The number of bytes that a name has at most. -/
def nameLimit : Nat := 255

/-- Whether a name has more bytes than a directory can list. -/
def isTooLong (name : String) : Bool :=
  nameLimit < name.utf8ByteSize

/-- The names on a path that a system can follow, or why it does not start to follow the path. -/
def resolve (path : String) : Except FileError (List String) :=
  if path.toList.contains '\x00' then .error .zeroCharacter
  else if pathLimit ≤ path.utf8ByteSize then .error .nameTooLong
  else if path.isEmpty then .error .notFound
  else .ok (names path)

/-! ## Directories on a path

Making a directory starts from the paths of those that hold it, which are cut from the text of the
path. The dots and empty pieces at the end of such a path are passed over, but those inside stay. -/

/-- Whether a piece between slashes stays in place. -/
def isIdle (piece : List Char) : Bool :=
  piece.isEmpty || piece == ['.']

/-- Where a path starts, and what follows. The start is the slash of the root, a dot for the working
directory, or nothing, which stands for the working directory too. -/
def start : List Char → List Char × List Char
  | '/' :: rest => (['/'], rest)
  | ['.'] => (['.'], [])
  | '.' :: '/' :: rest => (['.'], '/' :: rest)
  | text => ([], text)

/-- The path from a start through pieces, which are given from the last one on. Those at the end
that stay in place are left out. -/
def through (origin : List Char) (pieces : List (List Char)) : String :=
  String.ofList (origin ++ List.intercalate ['/'] (pieces.dropWhile isIdle).reverse)

/-- The paths of the directories that hold what stands at the end of the path from a start through
pieces, which are given from the last one on. -/
def holdersFrom (origin : List Char) : List (List Char) → List String
  | [] => []
  | piece :: above =>
    if isIdle piece then holdersFrom origin above
    else through origin above :: holdersFrom origin above

/-- The paths of the directories that hold what stands at the end of the path, the closest first.
The working directory has no path if the path does not start with a dot. -/
def holders (path : String) : List String :=
  let (origin, rest) := start path.toList
  (holdersFrom origin (rest.splitOn '/').reverse).filter (!·.isEmpty)

/-! ## Fronts of a path

What it means for one path to be on the way of another, said without cutting anything. -/

/-- A name on the path does not stay in place. -/
def Leads (path : String) : Prop :=
  ∃ name ∈ names path, name ≠ "."

/-- The path goes on from its front: there is a slash between the two or the front is the root, and
what follows does not stay in place. -/
inductive Front : String → String → Prop where
  | root {rest : String} (hrest : Leads rest) : Front "/" ("/" ++ rest)
  | slash {front rest : String} (hfront : front ≠ "") (hrest : Leads rest) :
      Front front (front ++ "/" ++ rest)

end EvmDisasm.Path
