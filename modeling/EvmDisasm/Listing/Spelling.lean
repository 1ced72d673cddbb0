import EvmDisasm.Hex.Spelling
import EvmDisasm.Listing.Datum
import Mathlib.Data.List.Forall2

/-!
# Spellings of listings

Which data stand for a listing, said without a reader. A record says what its fields say, in
whatever order they come and whatever other fields are among them; a list of their values says the
same. That an instruction is not truncated goes without saying, and a digest may be written in many
ways.
-/

namespace EvmDisasm

/-- In each record of the datum, no two fields have the same name. -/
inductive Datum.Proper : Datum → Prop where
  | null : Proper .null
  | boolean (value : Bool) : Proper (.boolean value)
  | integer (value : Int) : Proper (.integer value)
  | float (value : Float) : Proper (.float value)
  | text (value : String) : Proper (.text value)
  | list {items : List Datum} (hitems : ∀ item ∈ items, Proper item) : Proper (.list items)
  | record {fields : List (String × Datum)} (hnames : (fields.map Prod.fst).Nodup)
      (hfields : ∀ field ∈ fields, Proper field.2) : Proper (.record fields)

/-- The text is a frame around the digits of the digest in either case, or around nothing if the
digest is zero. -/
def Digest.Spelled (digest : Digest) (text : String) : Prop :=
  ∃ written, Hex.Framed written text.toList ∧
    (written = [] ∧ digest = zero ∨ written.map Char.toLower = digest.hex.toList)

namespace Listing

inductive Entry.Spelled (entry : Entry) : Datum → Prop where
  | record {fields : List (String × Datum)}
      (haddress : ("address", .integer entry.address) ∈ fields)
      (hmnemonic : ("mnemonic", .text entry.mnemonic) ∈ fields)
      (hoperands : ("operands", .list (entry.operands.map .text)) ∈ fields)
      (htruncated : ("truncated", .boolean entry.truncated) ∈ fields ∨
        "truncated" ∉ fields.map Prod.fst ∧ entry.truncated = false) :
      Spelled entry (.record fields)
  | list :
      Spelled entry (.list [.integer entry.address, .text entry.mnemonic,
        .list (entry.operands.map .text), .boolean entry.truncated])
  | shortList (hwhole : entry.truncated = false) :
      Spelled entry (.list [.integer entry.address, .text entry.mnemonic,
        .list (entry.operands.map .text)])

inductive Spelled (listing : Listing) : Datum → Prop where
  | record {fields : List (String × Datum)} {text : String} {items : List Datum}
      (htext : listing.codeHash.Spelled text)
      (hitems : List.Forall₂ Entry.Spelled listing.entries items)
      (hcodeHash : ("code_hash", .text text) ∈ fields)
      (hsize : ("size", .integer listing.size) ∈ fields)
      (hentries : ("instructions", .list items) ∈ fields) :
      Spelled listing (.record fields)
  | list {text : String} {items : List Datum}
      (htext : listing.codeHash.Spelled text)
      (hitems : List.Forall₂ Entry.Spelled listing.entries items) :
      Spelled listing (.list [.text text, .integer listing.size, .list items])

/-- What is written of the listing that a datum stands for. -/
def normalize (value : Datum) : Except Datum.ReadError Datum :=
  (ofDatum value).map toDatum

end Listing

end EvmDisasm
