import EvmDisasm.Datum.Reading
import EvmDisasm.Listing

/-!
# Listings as self-describing data

Writing a listing as a record of fields, and reading one. A reader takes the fields in the order of
their names, so the first fault in that order is the one reported; then it asks for the fields that
are missing in the order in which they are declared. A record may also be given as the list of its
fields' values in the declared order.
-/

namespace EvmDisasm.Listing

open Datum (ReadError required)

/-! ## Reading

An entry and a listing are read in the same way: the fields of a record are collected in any order
and then asked for, and the items of a list are taken one after the other. -/

structure Entry.Fields where
  address : Option Nat := none
  mnemonic : Option String := none
  operands : Option (List String) := none
  truncated : Option Bool := none

/-- Read one field of an entry; a field of another name is passed over. -/
def Entry.Fields.read (fields : Entry.Fields) (name : String) (value : Datum) :
    Except ReadError Entry.Fields :=
  match name with
  | "address" => return { fields with address := some (← value.toSize) }
  | "mnemonic" => return { fields with mnemonic := some (← value.toText) }
  | "operands" => return { fields with operands := some (← value.toListOf Datum.toText) }
  | "truncated" => return { fields with truncated := some (← value.toBoolean) }
  | _ => return fields

def Entry.Fields.entry (fields : Entry.Fields) : Except ReadError Entry := do
  let address ← required "address" fields.address
  let mnemonic ← required "mnemonic" fields.mnemonic
  let operands ← required "operands" fields.operands
  return ⟨address, mnemonic, operands, fields.truncated.getD false⟩

/-- The entry whose fields have the values, in the declared order. -/
def Entry.ofItems (items : List Datum) : Except ReadError Entry := do
  let short (length : Nat) : ReadError := .tooShort length "struct Inst with 4 elements"
  match items with
  | [] => .error (short 0)
  | address :: items =>
    let address ← address.toSize
    match items with
    | [] => .error (short 1)
    | mnemonic :: items =>
      let mnemonic ← mnemonic.toText
      match items with
      | [] => .error (short 2)
      | operands :: items =>
        let operands ← operands.toListOf Datum.toText
        match items with
        | [] => .ok ⟨address, mnemonic, operands, false⟩
        | truncated :: items =>
          let truncated ← truncated.toBoolean
          if items.isEmpty then .ok ⟨address, mnemonic, operands, truncated⟩
          else .error (.tooLong (4 + items.length))

def Entry.ofDatum : Datum → Except ReadError Entry
  | .record fields => do
    let read ← fields.foldlM (fun (read : Entry.Fields) (name, value) => read.read name value) {}
    read.entry
  | .list items => Entry.ofItems items
  | other => .error (.wrongKind other.description "struct Inst")

structure Fields where
  codeHash : Option Digest := none
  size : Option Nat := none
  entries : Option (List Entry) := none

/-- Read one field of a listing; a field of another name is passed over. -/
def Fields.read (fields : Fields) (name : String) (value : Datum) : Except ReadError Fields :=
  match name with
  | "code_hash" => return { fields with codeHash := some (← value.toDigest) }
  | "size" => return { fields with size := some (← value.toSize) }
  | "instructions" => return { fields with entries := some (← value.toListOf Entry.ofDatum) }
  | _ => return fields

def Fields.listing (fields : Fields) : Except ReadError Listing := do
  let codeHash ← required "code_hash" fields.codeHash
  let size ← required "size" fields.size
  let entries ← required "instructions" fields.entries
  return ⟨codeHash, size, entries⟩

/-- The listing whose fields have the values, in the declared order. -/
def ofItems (items : List Datum) : Except ReadError Listing := do
  let short (length : Nat) : ReadError := .tooShort length "struct Listing with 3 elements"
  match items with
  | [] => .error (short 0)
  | codeHash :: items =>
    let codeHash ← codeHash.toDigest
    match items with
    | [] => .error (short 1)
    | size :: items =>
      let size ← size.toSize
      match items with
      | [] => .error (short 2)
      | entries :: items =>
        let entries ← entries.toListOf Entry.ofDatum
        if items.isEmpty then .ok ⟨codeHash, size, entries⟩
        else .error (.tooLong (3 + items.length))

def ofDatum : Datum → Except ReadError Listing
  | .record fields => do
    let read ← fields.foldlM (fun (read : Fields) (name, value) => read.read name value) {}
    read.listing
  | .list items => ofItems items
  | other => .error (.wrongKind other.description "struct Listing")

/-! ## Writing

Fields are written in the order of their names. -/

/-- The entry as a record; that it is not truncated goes without saying. -/
def Entry.toDatum (entry : Entry) : Datum :=
  .record <|
    [("address", .integer entry.address), ("mnemonic", .text entry.mnemonic),
      ("operands", .list (entry.operands.map .text))] ++
    if entry.truncated then [("truncated", .boolean true)] else []

def toDatum (listing : Listing) : Datum :=
  .record
    [("code_hash", .ofDigest listing.codeHash),
      ("instructions", .list (listing.entries.map Entry.toDatum)),
      ("size", .integer listing.size)]

end EvmDisasm.Listing
