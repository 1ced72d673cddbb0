import EvmDisasm.Disassembler
import EvmDisasm.Files.Tree

/-!
# What can happen to a disassembler

The requests that a disassembler answers, and the states that any row of them leads to from the one
with no instruction found yet. Only disassembling changes the disassembler, and only writing changes
files.
-/

namespace EvmDisasm.Disassembler

/-- A request to a disassembler. -/
inductive Request where
  | disassemble
  | instructions
  | codeHash
  | print (showHash : Bool)
  | write (path : String)
deriving DecidableEq, Repr

/-- The disassembler and the files after a request. -/
def Request.perform (request : Request) (d : Disassembler) (tree : FileTree) :
    Disassembler × FileTree :=
  match request with
  | .disassemble => (d.disassemble.2, tree)
  | .write path => (d, ((d.write FileTree.files path).run tree).2)
  | .instructions | .codeHash | .print _ => (d, tree)

/-- The disassembler and the files after a row of requests. -/
def performAll (requests : List Request) (d : Disassembler) (tree : FileTree) :
    Disassembler × FileTree :=
  requests.foldl (fun (d, tree) request => request.perform d tree) (d, tree)

/-- The states that disassembling, any number of times, leads to. -/
inductive Reached (code : Bytes) (strict : Bool) : Disassembler → Prop where
  | ofCode : Reached code strict (ofCode code strict)
  | disassemble {d : Disassembler} : Reached code strict d → Reached code strict d.disassemble.2

end EvmDisasm.Disassembler
