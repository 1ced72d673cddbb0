import EvmDisasm.Proofs.Datum.Reading

/-!
# Reading brings listings to one form

What is read as a listing is just what stands for one (`Listing.Spelled`), and what is written of a
listing is one of the data that do. So a listing survives being written and read, and a datum, once
read and written, stays as it is.

## The architecture

* **`Entry.Fields.FoundIn.read`** — one step of the reader of entries, whatever the field is named;
  **`Entry.Fields.foundIn_of_foldlM`** — all fields of a record.
* **`Entry.spelled_of_ofDatum`**, **`Entry.ofDatum_of_spelled`** — what is read as an entry stands
  for it, and the other way round. Only the second needs fields of different names: of two fields of
  one name the reader takes the last.
* **`spelled_of_ofDatum`**, **`ofDatum_of_spelled`** — the same for listings, along the same steps;
  their entries are read one by one.
* **`spelled_toDatum`**, **`proper_toDatum`** — the written form stands for what was written, so
  **`reading_normalizes`** needs no look at the reader any more.
-/

namespace EvmDisasm

/-- The text of a digest spells it. -/
theorem Digest.spelled_text (digest : Digest) : digest.Spelled digest.text := by
  rw [Spelled, toList_hex]
  refine ⟨Hex.encode digest.bytes, ⟨[], ['0', 'x'], [], ?_, .lower, ?_, ?_⟩, .inr ?_⟩
  · exact fun c hc => nomatch hc
  · exact fun c hc => nomatch hc
  · rw [List.append_nil]
    exact Hex.toList_marked digest.bytes
  · exact Hex.map_toLower_encode digest.bytes

namespace Listing

open Datum (ReadError Found)

variable {fields : List (String × Datum)} {name : String} {value : Datum}

/-! ## Entries

The reader of a record collects what it finds in fields of four names. `FoundIn` says of each of the
four where its value came from, and that is kept from one field to the next. -/

namespace Entry

variable {entry : Entry}

/-- The fields of an entry as they were read from the fields of a record. -/
structure Fields.FoundIn (fields : List (String × Datum)) (read : Fields) : Prop where
  address : Found "address" Datum.toSize fields read.address
  mnemonic : Found "mnemonic" Datum.toText fields read.mnemonic
  operands : Found "operands" (Datum.toListOf Datum.toText) fields read.operands
  truncated : Found "truncated" Datum.toBoolean fields read.truncated

/-- **One field is read**: its value is found under its name, and the others stay where they
were. -/
theorem Fields.FoundIn.read {before after : Fields} (h : FoundIn fields before)
    (hread : before.read name value = .ok after) : FoundIn (fields ++ [(name, value)]) after := by
  unfold Fields.read at hread
  split at hread
  · -- one case for each name, and the last for all other names
    obtain ⟨address, haddress, hafter⟩ := bind_eq_ok_iff.mp hread
    cases hafter
    exact ⟨.own haddress, h.mnemonic.beside (by decide), h.operands.beside (by decide),
      h.truncated.beside (by decide)⟩
  · obtain ⟨mnemonic, hmnemonic, hafter⟩ := bind_eq_ok_iff.mp hread
    cases hafter
    exact ⟨h.address.beside (by decide), .own hmnemonic, h.operands.beside (by decide),
      h.truncated.beside (by decide)⟩
  · obtain ⟨operands, hoperands, hafter⟩ := bind_eq_ok_iff.mp hread
    cases hafter
    exact ⟨h.address.beside (by decide), h.mnemonic.beside (by decide), .own hoperands,
      h.truncated.beside (by decide)⟩
  · obtain ⟨truncated, htruncated, hafter⟩ := bind_eq_ok_iff.mp hread
    cases hafter
    exact ⟨h.address.beside (by decide), h.mnemonic.beside (by decide),
      h.operands.beside (by decide), .own htruncated⟩
  · next haddress hmnemonic hoperands htruncated =>
    cases hread
    exact ⟨h.address.beside (Ne.symm haddress), h.mnemonic.beside (Ne.symm hmnemonic),
      h.operands.beside (Ne.symm hoperands), h.truncated.beside (Ne.symm htruncated)⟩

/-- **All fields are read**, so every value comes from a field of the record. -/
theorem Fields.foundIn_of_foldlM {read : Fields}
    (hrun : fields.foldlM (fun (read : Fields) (name, value) => read.read name value) {} = .ok read) :
    FoundIn fields read := by
  apply Datum.foldlM_invariant _ _ hrun
  · exact fun h hread => FoundIn.read h hread
  · exact ⟨.nil, .nil, .nil, .nil⟩

/-- A record whose fields say the entry can be read to its end. -/
theorem Fields.exists_foldlM (hnames : (fields.map Prod.fst).Nodup)
    (hspelled : entry.Spelled (.record fields)) :
    ∃ read : Fields,
      fields.foldlM (fun (read : Fields) (name, value) => read.read name value) {} = .ok read := by
  apply Datum.exists_foldlM
  rintro ⟨name, value⟩ hfield read
  obtain ⟨haddress, hmnemonic, hoperands, htruncated⟩ := hspelled
  -- the names differ, so a field of one of the four names has the value that the entry says
  have hsame {other : Datum} (hother : (name, other) ∈ fields) : value = other :=
    Datum.eq_of_mem_fields hnames hfield hother
  show ∃ after, read.read name value = .ok after
  unfold Fields.read
  split
  · rw [hsame haddress]
    exact ⟨_, bind_eq_ok_iff.mpr ⟨_, Datum.toSize_eq_ok_iff.mpr rfl, rfl⟩⟩
  · rw [hsame hmnemonic]
    exact ⟨_, rfl⟩
  · rw [hsame hoperands]
    exact ⟨_, bind_eq_ok_iff.mpr ⟨_, Datum.toListOf_toText_eq_ok_iff.mpr rfl, rfl⟩⟩
  · rcases htruncated with htruncated | ⟨hnone, -⟩
    · rw [hsame htruncated]
      exact ⟨_, rfl⟩
    · exact absurd (List.mem_map_of_mem hfield) hnone
  · exact ⟨read, rfl⟩

/-- An entry comes of the fields when the three that it has to have are there, with `truncated` left
out or not. -/
theorem Fields.entry_eq_ok_iff {read : Fields} :
    read.entry = .ok entry ↔ read.address = some entry.address ∧
      read.mnemonic = some entry.mnemonic ∧ read.operands = some entry.operands ∧
      read.truncated.getD false = entry.truncated := by
  unfold Fields.entry
  simp only [bind_eq_ok_iff, Datum.required_eq_ok_iff]
  constructor
  · rintro ⟨address, haddress, mnemonic, hmnemonic, operands, hoperands, h⟩
    cases h
    exact ⟨haddress, hmnemonic, hoperands, rfl⟩
  · rintro ⟨haddress, hmnemonic, hoperands, htruncated⟩
    refine ⟨_, haddress, _, hmnemonic, _, hoperands, ?_⟩
    rw [htruncated]
    rfl

/-- **A list of values is read as an entry just when it stands for one.** -/
theorem ofItems_eq_ok_iff {items : List Datum} :
    ofItems items = .ok entry ↔ entry.Spelled (.list items) := by
  constructor
  -- the reader takes one value after the other, and each says one more field of the entry
  · intro h
    unfold ofItems at h
    dsimp only at h
    split at h
    · cases h
    next address items =>
    obtain ⟨n, haddress, h⟩ := bind_eq_ok_iff.mp h
    split at h
    · cases h
    next mnemonic items =>
    obtain ⟨text, hmnemonic, h⟩ := bind_eq_ok_iff.mp h
    split at h
    · cases h
    next operands items =>
    obtain ⟨texts, hoperands, h⟩ := bind_eq_ok_iff.mp h
    rw [Datum.toSize_eq_ok_iff.mp haddress, Datum.toText_eq_ok_iff.mp hmnemonic,
      Datum.toListOf_toText_eq_ok_iff.mp hoperands]
    split at h
    · cases h
      exact .shortList rfl
    next truncated items =>
    obtain ⟨b, htruncated, h⟩ := bind_eq_ok_iff.mp h
    rw [Datum.toBoolean_eq_ok_iff.mp htruncated]
    split at h
    · next hempty =>
      cases h
      rw [List.isEmpty_iff.mp hempty]
      exact .list
    · cases h
  · intro h
    have haddress : (Datum.integer entry.address).toSize = .ok entry.address :=
      Datum.toSize_eq_ok_iff.mpr rfl
    have hoperands : (Datum.list (entry.operands.map .text)).toListOf Datum.toText =
        .ok entry.operands := Datum.toListOf_toText_eq_ok_iff.mpr rfl
    unfold ofItems
    cases h with
    | list =>
      refine bind_eq_ok_iff.mpr ⟨_, haddress, ?_⟩
      exact bind_eq_ok_iff.mpr ⟨_, rfl, bind_eq_ok_iff.mpr ⟨_, hoperands, rfl⟩⟩
    | shortList hwhole =>
      refine bind_eq_ok_iff.mpr ⟨_, haddress, ?_⟩
      refine bind_eq_ok_iff.mpr ⟨_, rfl, bind_eq_ok_iff.mpr ⟨_, hoperands, ?_⟩⟩
      rw [← hwhole]

/-- **What is read as an entry stands for it.** -/
theorem spelled_of_ofDatum (h : ofDatum value = .ok entry) : entry.Spelled value := by
  cases value with
  | record fields =>
    obtain ⟨read, hrun, hentry⟩ := bind_eq_ok_iff.mp h
    have hfound := Fields.foundIn_of_foldlM hrun
    obtain ⟨haddress, hmnemonic, hoperands, htruncated⟩ := Fields.entry_eq_ok_iff.mp hentry
    obtain ⟨address, hmemAddress, haddress⟩ := hfound.address.exists_mem haddress
    obtain ⟨mnemonic, hmemMnemonic, hmnemonic⟩ := hfound.mnemonic.exists_mem hmnemonic
    obtain ⟨operands, hmemOperands, hoperands⟩ := hfound.operands.exists_mem hoperands
    rw [Datum.toSize_eq_ok_iff] at haddress
    rw [Datum.toText_eq_ok_iff] at hmnemonic
    rw [Datum.toListOf_toText_eq_ok_iff] at hoperands
    subst haddress hmnemonic hoperands
    apply Spelled.record hmemAddress hmemMnemonic hmemOperands
    -- that nothing was read as `truncated` means that there is no field of that name
    cases hread : read.truncated with
    | some b =>
      obtain ⟨truncated, hmem, hb⟩ := hfound.truncated.exists_mem hread
      rw [hread, Option.getD_some] at htruncated
      rw [Datum.toBoolean_eq_ok_iff] at hb
      subst htruncated hb
      exact .inl hmem
    | none =>
      have hnone := hfound.truncated
      rw [hread] at hnone htruncated
      exact .inr ⟨hnone, htruncated.symm⟩
  | list items => exact ofItems_eq_ok_iff.mp h
  | _ => cases h

/-- **What stands for an entry is read as it**, if no two of its fields have one name. -/
theorem ofDatum_of_spelled (hproper : value.Proper) (h : entry.Spelled value) :
    ofDatum value = .ok entry := by
  cases value with
  | record fields =>
    have hnames := hproper.nodup
    obtain ⟨read, hrun⟩ := Fields.exists_foldlM hnames h
    have hfound := Fields.foundIn_of_foldlM hrun
    obtain ⟨haddress, hmnemonic, hoperands, htruncated⟩ := h
    refine bind_eq_ok_iff.mpr ⟨read, hrun, Fields.entry_eq_ok_iff.mpr ⟨?_, ?_, ?_, ?_⟩⟩
    · exact hfound.address.eq_some hnames haddress (Datum.toSize_eq_ok_iff.mpr rfl)
    · exact hfound.mnemonic.eq_some hnames hmnemonic (Datum.toText_eq_ok_iff.mpr rfl)
    · exact hfound.operands.eq_some hnames hoperands (Datum.toListOf_toText_eq_ok_iff.mpr rfl)
    · rcases htruncated with htruncated | ⟨hnone, hwhole⟩
      · rw [hfound.truncated.eq_some hnames htruncated (Datum.toBoolean_eq_ok_iff.mpr rfl)]
        rfl
      · rw [hfound.truncated.eq_none hnone, hwhole]
        rfl
  | list items => exact ofItems_eq_ok_iff.mpr h
  | _ => cases h

theorem proper_toDatum (entry : Entry) : entry.toDatum.Proper := by
  have hoperands : (Datum.list (entry.operands.map .text)).Proper := by
    apply Datum.Proper.list
    intro item hitem
    obtain ⟨text, -, rfl⟩ := List.mem_map.mp hitem
    exact .text text
  unfold toDatum
  cases entry.truncated with
  | false =>
    apply Datum.Proper.record
    · show ["address", "mnemonic", "operands"].Nodup
      decide
    simp [Datum.Proper.integer, Datum.Proper.text, hoperands]
  | true =>
    apply Datum.Proper.record
    · show ["address", "mnemonic", "operands", "truncated"].Nodup
      decide
    simp [Datum.Proper.integer, Datum.Proper.text, Datum.Proper.boolean, hoperands]

theorem spelled_toDatum (entry : Entry) : entry.Spelled entry.toDatum := by
  unfold toDatum
  cases htruncated : entry.truncated with
  | false => exact .record (by simp) (by simp) (by simp) (by simp [htruncated])
  | true => exact .record (by simp) (by simp) (by simp) (by simp [htruncated])

end Entry

/-! ## Listings

The steps are those for entries, with three fields in place of four. One of the fields is the list
of entries, of which all has been said. -/

variable {listing : Listing} {entries : List Entry} {items : List Datum}

/-- Items that stand for entries are read as these. -/
theorem toListOf_ofDatum_of_spelled (hproper : (Datum.list items).Proper)
    (hitems : List.Forall₂ Entry.Spelled entries items) :
    (Datum.list items).toListOf Entry.ofDatum = .ok entries := by
  have hall : ∀ item ∈ items, item.Proper := fun _ => hproper.item
  rw [Datum.toListOf_eq_ok_iff]
  refine ⟨items, rfl, ?_⟩
  clear hproper
  induction hitems with
  | nil => exact .nil
  | cons hhead _ ih =>
    rw [List.forall_mem_cons] at hall
    exact .cons (Entry.ofDatum_of_spelled hall.1 hhead) (ih hall.2)

/-- Items that are read as entries stand for these. -/
theorem spelled_of_toListOf_ofDatum (h : value.toListOf Entry.ofDatum = .ok entries) :
    ∃ items, value = .list items ∧ List.Forall₂ Entry.Spelled entries items := by
  obtain ⟨items, hvalue, hitems⟩ := Datum.toListOf_eq_ok_iff.mp h
  exact ⟨items, hvalue, hitems.imp fun _ _ => Entry.spelled_of_ofDatum⟩

/-- The fields of a listing as they were read from the fields of a record. -/
structure Fields.FoundIn (fields : List (String × Datum)) (read : Fields) : Prop where
  codeHash : Found "code_hash" Datum.toDigest fields read.codeHash
  size : Found "size" Datum.toSize fields read.size
  entries : Found "instructions" (Datum.toListOf Entry.ofDatum) fields read.entries

/-- **One field of a listing is read**: its value is found under its name. -/
theorem Fields.FoundIn.read {before after : Fields} (h : FoundIn fields before)
    (hread : before.read name value = .ok after) : FoundIn (fields ++ [(name, value)]) after := by
  unfold Fields.read at hread
  split at hread
  · obtain ⟨codeHash, hcodeHash, hafter⟩ := bind_eq_ok_iff.mp hread
    cases hafter
    exact ⟨.own hcodeHash, h.size.beside (by decide), h.entries.beside (by decide)⟩
  · obtain ⟨size, hsize, hafter⟩ := bind_eq_ok_iff.mp hread
    cases hafter
    exact ⟨h.codeHash.beside (by decide), .own hsize, h.entries.beside (by decide)⟩
  · obtain ⟨entries, hentries, hafter⟩ := bind_eq_ok_iff.mp hread
    cases hafter
    exact ⟨h.codeHash.beside (by decide), h.size.beside (by decide), .own hentries⟩
  · next hcodeHash hsize hentries =>
    cases hread
    exact ⟨h.codeHash.beside (Ne.symm hcodeHash), h.size.beside (Ne.symm hsize),
      h.entries.beside (Ne.symm hentries)⟩

/-- **All fields of a listing are read**, so every value comes from a field of the record. -/
theorem Fields.foundIn_of_foldlM {read : Fields}
    (hrun : fields.foldlM (fun (read : Fields) (name, value) => read.read name value) {} = .ok read) :
    FoundIn fields read := by
  apply Datum.foldlM_invariant _ _ hrun
  · exact fun h hread => FoundIn.read h hread
  · exact ⟨.nil, .nil, .nil⟩

/-- A record whose fields say the listing can be read to its end. -/
theorem Fields.exists_foldlM (hproper : (Datum.record fields).Proper)
    (hspelled : listing.Spelled (.record fields)) :
    ∃ read : Fields,
      fields.foldlM (fun (read : Fields) (name, value) => read.read name value) {} = .ok read := by
  have hnames := hproper.nodup
  apply Datum.exists_foldlM
  rintro ⟨name, value⟩ hfield read
  obtain ⟨htext, hitems, hcodeHash, hsize, hentries⟩ := hspelled
  have hsame {other : Datum} (hother : (name, other) ∈ fields) : value = other :=
    Datum.eq_of_mem_fields hnames hfield hother
  show ∃ after, read.read name value = .ok after
  unfold Fields.read
  split
  · rw [hsame hcodeHash]
    exact ⟨_, bind_eq_ok_iff.mpr ⟨_, Datum.toDigest_eq_ok_iff.mpr ⟨_, rfl, htext⟩, rfl⟩⟩
  · rw [hsame hsize]
    exact ⟨_, bind_eq_ok_iff.mpr ⟨_, Datum.toSize_eq_ok_iff.mpr rfl, rfl⟩⟩
  -- the entries can be read because their records are proper as well
  · rw [hsame hentries]
    have hread := toListOf_ofDatum_of_spelled (hproper.field hentries) hitems
    exact ⟨_, bind_eq_ok_iff.mpr ⟨_, hread, rfl⟩⟩
  · exact ⟨read, rfl⟩

/-- A listing comes of the fields when all three are there. -/
theorem Fields.listing_eq_ok_iff {read : Fields} :
    read.listing = .ok listing ↔ read.codeHash = some listing.codeHash ∧
      read.size = some listing.size ∧ read.entries = some listing.entries := by
  unfold Fields.listing
  simp only [bind_eq_ok_iff, Datum.required_eq_ok_iff]
  constructor
  · rintro ⟨codeHash, hcodeHash, size, hsize, entries, hentries, h⟩
    cases h
    exact ⟨hcodeHash, hsize, hentries⟩
  · rintro ⟨hcodeHash, hsize, hentries⟩
    exact ⟨_, hcodeHash, _, hsize, _, hentries, rfl⟩

/-- A list of values that is read as a listing stands for it. -/
theorem spelled_of_ofItems (h : ofItems items = .ok listing) : listing.Spelled (.list items) := by
  unfold ofItems at h
  dsimp only at h
  split at h
  · cases h
  next codeHash items =>
  -- one value after the other, each of which has to be there and to be read
  obtain ⟨digest, hcodeHash, h⟩ := bind_eq_ok_iff.mp h
  split at h
  · cases h
  next size items =>
  obtain ⟨n, hsize, h⟩ := bind_eq_ok_iff.mp h
  split at h
  · cases h
  next entries items =>
  obtain ⟨read, hentries, h⟩ := bind_eq_ok_iff.mp h
  obtain ⟨text, htext, hdigest⟩ := Datum.toDigest_eq_ok_iff.mp hcodeHash
  obtain ⟨written, hwritten, hspelled⟩ := spelled_of_toListOf_ofDatum hentries
  rw [htext, Datum.toSize_eq_ok_iff.mp hsize, hwritten]
  split at h
  · next hempty =>
    cases h
    rw [List.isEmpty_iff.mp hempty]
    exact .list hdigest hspelled
  · cases h

/-- **What is read as a listing stands for it.** -/
theorem spelled_of_ofDatum (h : ofDatum value = .ok listing) : listing.Spelled value := by
  cases value with
  | record fields =>
    obtain ⟨read, hrun, hlisting⟩ := bind_eq_ok_iff.mp h
    have hfound := Fields.foundIn_of_foldlM hrun
    obtain ⟨hcodeHash, hsize, hentries⟩ := Fields.listing_eq_ok_iff.mp hlisting
    obtain ⟨codeHash, hmemCodeHash, hcodeHash⟩ := hfound.codeHash.exists_mem hcodeHash
    obtain ⟨size, hmemSize, hsize⟩ := hfound.size.exists_mem hsize
    obtain ⟨entries, hmemEntries, hentries⟩ := hfound.entries.exists_mem hentries
    obtain ⟨text, rfl, htext⟩ := Datum.toDigest_eq_ok_iff.mp hcodeHash
    obtain ⟨items, rfl, hitems⟩ := spelled_of_toListOf_ofDatum hentries
    rw [Datum.toSize_eq_ok_iff] at hsize
    subst hsize
    exact .record htext hitems hmemCodeHash hmemSize hmemEntries
  | list items => exact spelled_of_ofItems h
  | _ => cases h

/-- **What stands for a listing is read as it**, if no two fields of a record in it have one
name. -/
theorem ofDatum_of_spelled (hproper : value.Proper) (h : listing.Spelled value) :
    ofDatum value = .ok listing := by
  -- a listing is spelled as a record or as a list, and these are read in different ways
  cases h with
  | @record fields text items htext hitems hcodeHash hsize hentries =>
    obtain ⟨read, hrun⟩ :=
      Fields.exists_foldlM hproper (.record htext hitems hcodeHash hsize hentries)
    have hfound := Fields.foundIn_of_foldlM hrun
    have hnames := hproper.nodup
    refine bind_eq_ok_iff.mpr ⟨read, hrun, Fields.listing_eq_ok_iff.mpr ⟨?_, ?_, ?_⟩⟩
    · exact hfound.codeHash.eq_some hnames hcodeHash
        (Datum.toDigest_eq_ok_iff.mpr ⟨text, rfl, htext⟩)
    · exact hfound.size.eq_some hnames hsize (Datum.toSize_eq_ok_iff.mpr rfl)
    · exact hfound.entries.eq_some hnames hentries
        (toListOf_ofDatum_of_spelled (hproper.field hentries) hitems)
  | @list text items htext hitems =>
    have hread := toListOf_ofDatum_of_spelled (hproper.item (by simp)) hitems
    unfold ofDatum ofItems
    refine bind_eq_ok_iff.mpr ⟨_, Datum.toDigest_eq_ok_iff.mpr ⟨text, rfl, htext⟩, ?_⟩
    refine bind_eq_ok_iff.mpr ⟨_, Datum.toSize_eq_ok_iff.mpr rfl, ?_⟩
    exact bind_eq_ok_iff.mpr ⟨_, hread, rfl⟩

/-! ## The written form

One of the data that stand for a listing is the one that is written. So it is read as the listing by
what has been said of all of them. -/

theorem proper_toDatum (listing : Listing) : listing.toDatum.Proper := by
  have hentries : (Datum.list (listing.entries.map Entry.toDatum)).Proper := by
    apply Datum.Proper.list
    intro item hitem
    obtain ⟨entry, -, hentry⟩ := List.mem_map.mp hitem
    rw [← hentry]
    exact entry.proper_toDatum
  apply Datum.Proper.record
  · show ["code_hash", "instructions", "size"].Nodup
    decide
  · simp [Datum.ofDigest, Datum.Proper.integer, Datum.Proper.text, hentries]

/-- The written form of a listing stands for it. -/
theorem spelled_toDatum (listing : Listing) : listing.Spelled listing.toDatum := by
  have hitems : List.Forall₂ Entry.Spelled listing.entries (listing.entries.map Entry.toDatum) := by
    rw [List.forall₂_map_right_iff, List.forall₂_same]
    exact fun entry _ => entry.spelled_toDatum
  exact .record (Digest.spelled_text listing.codeHash) hitems (by simp [Datum.ofDigest]) (by simp)
    (by simp)

/-- **A listing is read back.** -/
theorem ofDatum_toDatum (listing : Listing) : ofDatum listing.toDatum = .ok listing :=
  ofDatum_of_spelled listing.proper_toDatum listing.spelled_toDatum

/-- The field `truncated` is written of entries that are, and of no others. -/
theorem Entry.truncated_mem_toDatum {entry : Entry} (h : entry.toDatum = .record fields) :
    "truncated" ∈ fields.map Prod.fst ↔ entry.truncated = true := by
  cases Datum.record.inj h
  cases entry.truncated <;> simp

theorem normalize_eq_ok_iff {written : Datum} :
    normalize value = .ok written ↔ ∃ listing, ofDatum value = .ok listing ∧
      written = toDatum listing := by
  unfold normalize
  cases ofDatum value with
  | ok listing => simp [Except.map, eq_comm]
  | error e => simp [Except.map]

/-- **Listings survive being stored, and reading brings them to one form.** What is written of a
listing is read as the listing, although the field `truncated` is left out of the entries that
are not cut short. What is read as a listing is just what stands for one: a record with fields in
any order and other fields among them, or a list of the values; the digest spelled in any way;
truncation left out. Data that are put together from fields are of the kind this is said about.
Whatever is read, writing it gives a datum that is read as the same listing and written as
itself. -/
theorem reading_normalizes :
    (∀ listing : Listing, ofDatum listing.toDatum = .ok listing) ∧
    (∀ (entry : Entry) (fields : List (String × Datum)), entry.toDatum = .record fields →
      ("truncated" ∈ fields.map Prod.fst ↔ entry.truncated = true)) ∧
    (∀ (value : Datum) (listing : Listing), value.Proper →
      (ofDatum value = .ok listing ↔ listing.Spelled value)) ∧
    (∀ fields : List (String × Datum), (∀ field ∈ fields, field.2.Proper) →
      (Datum.ofFields fields).Proper) ∧
    (∀ (value : Datum) (listing : Listing), ofDatum value = .ok listing →
      listing.Spelled value ∧ listing.Spelled listing.toDatum ∧
      ofDatum listing.toDatum = .ok listing ∧ normalize value = .ok listing.toDatum) ∧
    (∀ value written : Datum, normalize value = .ok written → normalize written = .ok written) := by
  refine ⟨ofDatum_toDatum, fun entry fields => Entry.truncated_mem_toDatum,
    fun value listing hproper => ⟨spelled_of_ofDatum, ofDatum_of_spelled hproper⟩,
    fun fields => Datum.proper_ofFields, fun value listing h => ?_, fun value written h => ?_⟩
  · exact ⟨spelled_of_ofDatum h, listing.spelled_toDatum, listing.ofDatum_toDatum,
      normalize_eq_ok_iff.mpr ⟨listing, h, rfl⟩⟩
  · -- what was written is the form of some listing, and it does not matter of which
    obtain ⟨listing, -, hwritten⟩ := normalize_eq_ok_iff.mp h
    rw [hwritten]
    exact normalize_eq_ok_iff.mpr ⟨listing, listing.ofDatum_toDatum, rfl⟩

/-- A record with its fields out of order and one field too many, the digest of zeros as a bare
mark, one instruction without the field `truncated` and one as a list. -/
theorem reading_normalizes_mixed :
    let whole : Entry := ⟨0, "JUMPDEST", [], false⟩
    let cut : Entry := ⟨1, "PUSH2", ["0xaa"], true⟩
    let listing : Listing := ⟨Digest.zero, 3, [whole, cut]⟩
    let instruction : List (String × Datum) :=
      [("operands", .list []), ("mnemonic", .text "JUMPDEST"), ("address", .integer 0)]
    let value : Datum := .record [("size", .integer 3), ("note", .null), ("code_hash", .text " 0X"),
      ("instructions", .list [.record instruction,
        .list [.integer 1, .text "PUSH2", .list [.text "0xaa"], .boolean true]])]
    (value.Proper ∧ listing.Spelled value ∧ ofDatum value = .ok listing) ∧
    (ofDatum value = .ok listing ∧ normalize value = .ok listing.toDatum) ∧
    (normalize value = .ok listing.toDatum ∧ normalize listing.toDatum = .ok listing.toDatum) ∧
    (∃ fields, cut.toDatum = .record fields ∧ "truncated" ∈ fields.map Prod.fst) ∧
    (∀ field ∈ instruction, field.2.Proper) ∧ (Datum.ofFields instruction).Proper := by
  intro whole cut listing instruction value
  obtain ⟨-, hcut, hread, hfields, hagain, hnormal⟩ := reading_normalizes
  have hinstruction : ∀ field ∈ instruction, field.2.Proper := by
    simp [instruction, Datum.Proper.integer, Datum.Proper.text, Datum.Proper.list]
  have hproper : value.Proper := by
    apply Datum.Proper.record
    · show ["size", "note", "code_hash", "instructions"].Nodup
      decide
    have hrecord : (Datum.record instruction).Proper := by
      apply Datum.Proper.record _ hinstruction
      show ["operands", "mnemonic", "address"].Nodup
      decide
    have hlist : (Datum.list [.integer 1, .text "PUSH2", .list [.text "0xaa"],
        .boolean true]).Proper := by
      simp [Datum.Proper.integer, Datum.Proper.text, Datum.Proper.boolean, Datum.Proper.list]
    simp [Datum.Proper.integer, Datum.Proper.text, Datum.Proper.null, Datum.Proper.list, hrecord,
      hlist]
  -- a mark alone, with a blank character in front
  have htext : listing.codeHash.Spelled " 0X" := by
    refine ⟨[], ⟨[' '], ['0', 'X'], [], ?_, .upper, ?_, rfl⟩, .inl ⟨rfl, rfl⟩⟩
    · exact List.forall_mem_singleton.mpr rfl
    · exact fun c hc => nomatch hc
  have hwhole : whole.Spelled (.record instruction) := by
    apply Entry.Spelled.record <;> simp [instruction, whole]
  have hspelled : listing.Spelled value := by
    apply Spelled.record htext (.cons hwhole (.cons .list .nil)) <;> simp [listing, cut]
  have hok := (hread value listing hproper).mpr hspelled
  obtain ⟨-, -, -, hwritten⟩ := hagain value listing hok
  exact ⟨⟨hproper, hspelled, hok⟩, ⟨hok, hwritten⟩, ⟨hwritten, hnormal value _ hwritten⟩,
    ⟨_, rfl, (hcut cut _ rfl).mpr rfl⟩, hinstruction, hfields instruction hinstruction⟩

end Listing

end EvmDisasm
