import EvmDisasm.Datum.Reading
import EvmDisasm.Listing.Spelling
import EvmDisasm.Proofs.Digest.Spelling
import Mathlib.Data.List.Nodup
import Mathlib.Data.String.Basic

/-!
# Reading the parts of data

A reader of one kind of datum takes just the datum that says its result. A reader of records takes
the fields one after the other; `Found` says what it knows of one field after some of them, and a
record whose names differ leaves it no choice (`Found.eq_some`, `Found.eq_none`).
-/

namespace EvmDisasm.Datum

variable {α β σ : Type}

/-! ## Single data

A reader of one kind of datum accepts that kind only. A digest is a text, and which texts it accepts
is what `Digest.Spelled` says. -/

theorem toText_eq_ok_iff {value : Datum} {text : String} :
    value.toText = .ok text ↔ value = .text text := by
  cases value <;> simp [toText]

theorem toBoolean_eq_ok_iff {value : Datum} {b : Bool} :
    value.toBoolean = .ok b ↔ value = .boolean b := by
  cases value <;> simp [toBoolean]

/-- Only an integer that is not negative is read as a size. -/
theorem toSize_eq_ok_iff {value : Datum} {n : Nat} :
    value.toSize = .ok n ↔ value = .integer n := by
  cases value with
  | integer i =>
    simp only [toSize]
    split
    · simp only [reduceCtorEq, integer.injEq, false_iff]
      omega
    · simp only [Except.ok.injEq, integer.injEq]
      omega
  | _ => simp [toSize]

/-- A digest is read from any text that spells it. -/
theorem toDigest_eq_ok_iff {value : Datum} {digest : Digest} :
    value.toDigest = .ok digest ↔ ∃ text, value = .text text ∧ digest.Spelled text := by
  have hparse (text : String) : (Datum.text text).toDigest = .ok digest ↔ digest.Spelled text := by
    apply Iff.trans _ Digest.parse_eq_ok_iff_framed
    constructor
    · intro h
      unfold toDigest at h
      dsimp only [toText, bind, Except.bind] at h
      split at h
      · next heq => rw [heq, Except.ok.inj h]
      · cases h
    · exact Digest.toDigest_text_of_parse
  cases value with
  | text text => simp [hparse]
  | _ => simp [toDigest, toText, bind, Except.bind]

/-! ## Lists

A list is read item by item, so what it is read as stands in the relation `Forall₂` to its items. -/

/-- Reading the items one after the other succeeds just when each of them is read. -/
theorem mapM_eq_ok_iff {item : Datum → Except ReadError α} {items : List Datum} {values : List α} :
    items.mapM item = .ok values ↔
      List.Forall₂ (fun value datum => item datum = .ok value) values items := by
  induction items generalizing values with
  | nil => cases values <;> simp [pure, Except.pure]
  | cons datum rest ih =>
    rw [List.mapM_cons, bind_eq_ok_iff, List.forall₂_cons_right_iff]
    constructor
    · rintro ⟨value, hvalue, h⟩
      obtain ⟨others, hothers, h⟩ := bind_eq_ok_iff.mp h
      exact ⟨value, others, hvalue, ih.mp hothers, (Except.ok.inj h).symm⟩
    · rintro ⟨value, others, hvalue, hothers, rfl⟩
      exact ⟨value, hvalue, bind_eq_ok_iff.mpr ⟨others, ih.mpr hothers, rfl⟩⟩

/-- Only a list is read as one, and what its items are read as are the items of the result. -/
theorem toListOf_eq_ok_iff {item : Datum → Except ReadError α} {value : Datum} {values : List α} :
    value.toListOf item = .ok values ↔ ∃ items, value = .list items ∧
      List.Forall₂ (fun value datum => item datum = .ok value) values items := by
  cases value <;> simp [toListOf, mapM_eq_ok_iff]

/-- For texts the reader leaves no choice: the datum is the list of these texts. -/
theorem toListOf_toText_eq_ok_iff {value : Datum} {texts : List String} :
    value.toListOf toText = .ok texts ↔ value = .list (texts.map .text) := by
  have htexts (items : List Datum) :
      List.Forall₂ (fun text datum => toText datum = .ok text) texts items ↔
        items = texts.map .text := by
    simp only [toText_eq_ok_iff]
    constructor
    · intro h
      induction h with
      | nil => rfl
      | cons hhead _ ih => rw [hhead, ih, List.map_cons]
    · intro h
      rw [h, List.forall₂_map_right_iff, List.forall₂_same]
      exact fun _ _ => rfl
  rw [toListOf_eq_ok_iff]
  simp only [htexts, exists_eq_right]

/-! ## Proper data

In a proper datum no record has two fields of one name, at any depth. A field of it is then
determined by its name, and records that `ofFields` puts together are of this kind. -/

/-- The names of a proper record are all different. -/
theorem Proper.nodup {fields : List (String × Datum)} (h : (Datum.record fields).Proper) :
    (fields.map Prod.fst).Nodup := by
  cases h
  assumption

theorem Proper.field {fields : List (String × Datum)} (h : (Datum.record fields).Proper) {name : String}
    {value : Datum} (hmem : (name, value) ∈ fields) : value.Proper := by
  cases h with
  | record _ hfields => exact hfields (name, value) hmem

theorem Proper.item {items : List Datum} (h : (Datum.list items).Proper) {item : Datum}
    (hmem : item ∈ items) : item.Proper := by
  cases h with
  | list hitems => exact hitems item hmem

/-- In a record without equal names the name determines the value. -/
theorem eq_of_mem_fields {fields : List (String × Datum)} (hnames : (fields.map Prod.fst).Nodup)
    {name : String} {value other : Datum} (hvalue : (name, value) ∈ fields)
    (hother : (name, other) ∈ fields) : value = other :=
  congrArg Prod.snd (List.inj_on_of_nodup_map hnames hvalue hother rfl)

/-- Setting a field brings in nothing but that field. -/
theorem of_mem_insertField {name : String} {value : Datum} {field : String × Datum}
    {fields : List (String × Datum)} (h : field ∈ insertField name value fields) :
    field = (name, value) ∨ field ∈ fields := by
  induction fields with
  | nil => exact .inl (List.mem_singleton.mp h)
  | cons first rest ih =>
    unfold insertField at h
    split at h
    · exact List.mem_cons.mp h
    · split at h
      · exact (List.mem_cons.mp h).imp_right (List.mem_cons_of_mem first)
      · rcases List.mem_cons.mp h with hfirst | hrest
        · exact .inr (List.mem_cons.mpr (.inl hfirst))
        · exact (ih hrest).imp_right (List.mem_cons_of_mem first)

/-- Setting a field keeps the names in ascending order, whether it is new or takes the place of one
with its name. -/
theorem pairwise_insertField {name : String} {value : Datum} {fields : List (String × Datum)}
    (h : (fields.map Prod.fst).Pairwise (· < ·)) :
    ((insertField name value fields).map Prod.fst).Pairwise (· < ·) := by
  induction fields with
  | nil => exact List.pairwise_singleton _ name
  | cons first rest ih =>
    obtain ⟨hfirst, hrest⟩ := List.pairwise_cons.mp h
    unfold insertField
    split
    · next hlt =>
      apply List.Pairwise.cons _ h
      intro other hother
      rcases List.mem_cons.mp hother with hsame | hother
      · rwa [hsame]
      · exact lt_trans hlt (hfirst other hother)
    · next hnot =>
      split
      · next hsame =>
        rw [hsame]
        exact h
      · -- the new field belongs further behind, so the names there are those of before and its own
        next hne =>
        apply List.Pairwise.cons _ (ih hrest)
        intro other hother
        obtain ⟨field, hfield, hname⟩ := List.mem_map.mp hother
        rcases of_mem_insertField hfield with hnew | hold
        · rw [← hname, hnew]
          exact lt_of_le_of_ne (not_lt.mp hnot) (Ne.symm hne)
        · exact hfirst other (List.mem_map.mpr ⟨field, hold, hname⟩)

/-- A record that is put together from fields is proper, even if some of them have the same name. -/
theorem proper_ofFields {fields : List (String × Datum)} (h : ∀ field ∈ fields, field.2.Proper) :
    (ofFields fields).Proper := by
  -- the fields so far ascend, and each is one of those given
  suffices hrun : ∀ sorted : List (String × Datum), (sorted.map Prod.fst).Pairwise (· < ·) →
      (∀ field ∈ sorted, field.2.Proper) → (Datum.record
        (fields.foldl (fun sorted field => insertField field.1 field.2 sorted) sorted)).Proper from
    hrun [] .nil fun _ hfield => absurd hfield List.not_mem_nil
  induction fields with
  | nil => exact fun sorted hsorted hproper => .record (hsorted.imp ne_of_lt) hproper
  | cons first rest ih =>
    intro sorted hsorted hproper
    obtain ⟨hfirst, hrest⟩ := List.forall_mem_cons.mp h
    apply ih hrest _ (pairwise_insertField hsorted)
    intro field hfield
    rcases of_mem_insertField hfield with hnew | hold
    · rw [hnew]
      exact hfirst
    · exact hproper field hold

/-! ## Fields one after the other

A reader of records goes through the fields with what it has read so far as its state. Two facts
about such a fold are all that is needed of it: it keeps an invariant, and it gets to its end if no
step fails. -/

/-- What holds before any field and is kept by each step holds after all of them. -/
theorem foldlM_invariant {step : σ → String × Datum → Except ReadError σ}
    {Inv : List (String × Datum) → σ → Prop}
    (hstep : ∀ {before s field s'}, Inv before s → step s field = .ok s' →
      Inv (before ++ [field]) s')
    {fields : List (String × Datum)} {s s' : σ} (h : Inv [] s)
    (hrun : fields.foldlM step s = .ok s') : Inv fields s' := by
  -- the induction is over the fields that are left, and the invariant speaks of those before
  suffices hfrom : ∀ before s, Inv before s → fields.foldlM step s = .ok s' →
      Inv (before ++ fields) s' from hfrom [] s h hrun
  clear h hrun
  induction fields with
  | nil =>
    intro before s h hrun
    cases hrun
    rwa [List.append_nil]
  | cons field rest ih =>
    intro before s h hrun
    rw [List.foldlM_cons] at hrun
    obtain ⟨next, hnext, hrest⟩ := bind_eq_ok_iff.mp hrun
    have hall := ih (before ++ [field]) next (hstep h hnext) hrest
    rwa [List.append_assoc] at hall

/-- If no field is refused in any state, all of them are taken. -/
theorem exists_foldlM {step : σ → String × Datum → Except ReadError σ}
    {fields : List (String × Datum)} (hstep : ∀ field ∈ fields, ∀ s, ∃ s', step s field = .ok s')
    (s : σ) : ∃ s', fields.foldlM step s = .ok s' := by
  induction fields generalizing s with
  | nil => exact ⟨s, rfl⟩
  | cons field rest ih =>
    obtain ⟨next, hnext⟩ := hstep field List.mem_cons_self s
    obtain ⟨s', hs'⟩ := ih (fun other hother => hstep other (List.mem_cons_of_mem field hother)) next
    refine ⟨s', ?_⟩
    rw [List.foldlM_cons, bind_eq_ok_iff]
    exact ⟨next, hnext, hs'⟩

/-- A field that has to be there is taken as it was found. -/
theorem required_eq_ok_iff {field : String} {found : Option α} {a : α} :
    required field found = .ok a ↔ found = some a := by
  cases found <;> simp [required]

/-- What a field of the name was read as, if there is one among the fields. -/
def Found (name : String) (read : Datum → Except ReadError α) (fields : List (String × Datum)) :
    Option α → Prop
  | some a => ∃ value, (name, value) ∈ fields ∧ read value = .ok a
  | none => name ∉ fields.map Prod.fst

namespace Found

variable {name other : String} {read : Datum → Except ReadError α} {value : Datum} {a : α}
  {fields : List (String × Datum)} {found : Option α}

/-- Before any field, none is found. -/
theorem nil : Found name read [] none :=
  List.not_mem_nil

/-- A field of the name is found, and it takes the place of whatever was found before. -/
theorem own (h : read value = .ok a) : Found name read (fields ++ [(name, value)]) (some a) :=
  ⟨value, List.mem_append_right fields (List.mem_singleton_self _), h⟩

/-- A field of another name changes nothing. -/
theorem beside (h : Found name read fields found) (hne : name ≠ other) :
    Found name read (fields ++ [(other, value)]) found := by
  cases found with
  | some a =>
    obtain ⟨held, hmem, hread⟩ := h
    exact ⟨held, List.mem_append_left _ hmem, hread⟩
  | none =>
    intro hmem
    rw [List.map_append, List.mem_append] at hmem
    exact hmem.elim h fun hlast => hne (List.mem_singleton.mp hlast)

/-- What was found was read from a field of the name. -/
theorem exists_mem (h : Found name read fields found) (hfound : found = some a) :
    ∃ value, (name, value) ∈ fields ∧ read value = .ok a := by
  rw [hfound] at h
  exact h

/-- Where the names differ, a field that is there and can be read is what is found. -/
theorem eq_some (h : Found name read fields found) (hnames : (fields.map Prod.fst).Nodup)
    (hmem : (name, value) ∈ fields) (hread : read value = .ok a) : found = some a := by
  cases found with
  | some b =>
    obtain ⟨held, hheld, hb⟩ := h
    rw [eq_of_mem_fields hnames hheld hmem, hread] at hb
    rw [Except.ok.inj hb]
  | none => exact absurd (List.mem_map_of_mem hmem) h

/-- Where no field has the name, nothing is found. -/
theorem eq_none (h : Found name read fields found) (hname : name ∉ fields.map Prod.fst) :
    found = none := by
  cases found with
  | some b =>
    obtain ⟨value, hmem, -⟩ := h
    exact absurd (List.mem_map_of_mem hmem) hname
  | none => rfl

end Found

end EvmDisasm.Datum
