import EvmDisasm.Files.Path

/-!
# Fronts of a path

The directories that hold what stands at the end of a path are named by fronts of it. A path is cut
at its slashes for that, and what is put together again from the first of the pieces is a text that
the path starts with.

* **`names_append_slash`** — cutting at slashes goes by parts, and so do the names on a path.
* **`Front.exists_names_eq`**, **`Front.resolve_eq`** — the names on a front are the first ones on
  the path, and whoever can start to follow the path can start to follow the front.
* **`front_of_mem_holders`**, **`pairwise_holders`** — the paths of the holders are fronts of the
  path and of each other.
-/

namespace EvmDisasm.Path

/-! ## Cutting at slashes and joining with them

`List.splitOn` cuts a text at its slashes and `List.intercalate` joins the pieces again; the two
undo each other as long as no piece has a slash in it. -/

/-- The pieces of a text have no slashes in them. -/
theorem slash_not_mem_of_mem_splitOn {text piece : List Char} (h : piece ∈ text.splitOn '/') :
    '/' ∉ piece := by
  induction text generalizing piece with
  | nil =>
    rw [List.splitOn_nil, List.mem_singleton] at h
    rw [h]
    exact List.not_mem_nil
  | cons c rest ih =>
    rw [List.splitOn_cons_eq_if_modifyHead] at h
    split at h
    · rcases List.mem_cons.mp h with rfl | hmem
      · exact List.not_mem_nil
      · exact ih hmem
    · rename_i hc
      -- the character is put in front of the first piece, and it is no slash
      obtain ⟨first, others, hpieces⟩ := List.exists_cons_of_ne_nil (List.splitOn_ne_nil '/' rest)
      rw [hpieces, List.modifyHead_cons] at h
      rcases List.mem_cons.mp h with rfl | hmem
      · rw [List.mem_cons]
        rintro (heq | hmem)
        · exact hc (beq_iff_eq.mpr heq.symm)
        · exact ih (hpieces ▸ List.mem_cons_self) hmem
      · exact ih (hpieces ▸ List.mem_cons_of_mem _ hmem)

/-- Joining goes by parts, with a slash between the two. -/
theorem intercalate_append {front rest : List (List Char)} (hfront : front ≠ []) (hrest : rest ≠ []) :
    List.intercalate ['/'] (front ++ rest) =
      List.intercalate ['/'] front ++ '/' :: List.intercalate ['/'] rest := by
  induction front with
  | nil => exact absurd rfl hfront
  | cons piece front ih =>
    by_cases hnil : front = []
    · rw [hnil, List.singleton_append, List.intercalate_cons_of_ne_nil hrest,
        List.intercalate_singleton, List.append_assoc]
      rfl
    · have hboth : front ++ rest ≠ [] := List.append_ne_nil_of_left_ne_nil hnil rest
      rw [List.cons_append, List.intercalate_cons_of_ne_nil hboth,
        List.intercalate_cons_of_ne_nil hnil, ih hnil, List.append_assoc _ _ ('/' :: _)]

/-! ## Names

The names on a path are what stands between its slashes, so a slash is a place at which the names
can be cut in two. -/

/-- **The names on a path go by parts**, with a slash between the two. -/
theorem names_append_slash (front rest : String) :
    names (front ++ "/" ++ rest) = names front ++ names rest := by
  have htext : (front ++ "/" ++ rest).toList = front.toList ++ '/' :: rest.toList := by
    rw [String.toList_append, String.toList_append, List.append_assoc]
    rfl
  rw [names, htext, List.splitOn_append_cons_self, List.filter_append, List.map_append]
  rfl

theorem names_root_append (rest : String) : names ("/" ++ rest) = names rest :=
  (congrArg names (by rw [String.empty_append])).trans (names_append_slash "" rest)

/-- A piece that does not stay in place is a name that does not. -/
theorem leads_of_exists {pieces : List (List Char)} (h : ∀ piece ∈ pieces, '/' ∉ piece)
    (hpieces : ∃ piece ∈ pieces, isIdle piece = false) :
    Leads (String.ofList (List.intercalate ['/'] pieces.reverse)) := by
  obtain ⟨piece, hmem, hpiece⟩ := hpieces
  rw [isIdle, Bool.or_eq_false_iff, beq_eq_false_iff_ne] at hpiece
  have hpieces : (List.intercalate ['/'] pieces.reverse).splitOn '/' = pieces.reverse :=
    List.splitOn_intercalate '/' (fun other hother => h other (List.mem_reverse.mp hother))
      (List.reverse_ne_nil_iff.mpr (List.ne_nil_of_mem hmem))
  refine ⟨String.ofList piece, ?_, fun hdot => hpiece.2 ?_⟩
  · rw [names, String.toList_ofList, hpieces]
    refine List.mem_map_of_mem (List.mem_filter.mpr ⟨List.mem_reverse.mpr hmem, ?_⟩)
    rw [hpiece.1]
    rfl
  · rw [← String.toList_ofList (l := piece), hdot]
    rfl

/-! ## Fronts

A front has the first names of the path, starts from the same place and is no longer, which is all
that following it needs. -/

variable {front path : String}

theorem Front.ne_empty (h : Front front path) : front ≠ "" := by
  cases h with
  | root => decide
  | slash hfront => exact hfront

/-- The names on a front are the first on the path, and there are more. -/
theorem Front.exists_names_eq (h : Front front path) :
    ∃ rest, rest ≠ [] ∧ names path = names front ++ rest := by
  cases h with
  | @root rest hrest =>
    obtain ⟨name, hname, -⟩ := hrest
    exact ⟨names rest, List.ne_nil_of_mem hname, names_root_append rest⟩
  | @slash _ rest hfront hrest =>
    obtain ⟨name, hname, -⟩ := hrest
    exact ⟨names rest, List.ne_nil_of_mem hname, names_append_slash front rest⟩

theorem Front.exists_eq_append (h : Front front path) : ∃ rest, path = front ++ rest := by
  cases h with
  | @root rest => exact ⟨rest, rfl⟩
  | @slash _ rest => exact ⟨"/" ++ rest, String.append_assoc⟩

/-- A front goes from the root just when the path does. -/
theorem Front.isAbsolute_eq (h : Front front path) : isAbsolute front = isAbsolute path := by
  obtain ⟨rest, rfl⟩ := h.exists_eq_append
  rw [isAbsolute, isAbsolute, String.toList_append]
  cases hfront : front.toList with
  | nil => exact absurd (String.toList_eq_nil_iff.mp hfront) h.ne_empty
  | cons c text => rfl

/-- A path that is followed is followed by its names. -/
theorem resolve_eq_ok {found : List String} (h : resolve path = .ok found) :
    resolve path = .ok (names path) := by
  unfold resolve at h ⊢
  split at h
  · cases h
  · split at h
    · cases h
    · split at h
      · cases h
      · rename_i hzero hlong hempty
        rw [if_neg hzero, if_neg hlong, if_neg hempty]

/-- Whoever can start to follow the path can start to follow the front: it has no other characters
and is shorter. -/
theorem Front.resolve_eq {found : List String} (h : Front front path)
    (hpath : resolve path = .ok found) : resolve front = .ok (names front) := by
  obtain ⟨rest, rfl⟩ := h.exists_eq_append
  unfold resolve at hpath ⊢
  split at hpath
  · cases hpath
  · split at hpath
    · cases hpath
    · -- the front is in the text of the path, so what the path passes it passes too
      rename_i hzero hlong
      have hzero' : ¬ front.toList.contains '\x00' = true := fun hmem => hzero (by
        rw [String.toList_append, List.contains_append, hmem, Bool.true_or])
      have hlong' : ¬ pathLimit ≤ front.utf8ByteSize := fun hle => hlong (by
        rw [String.utf8ByteSize_append]
        omega)
      have hempty : ¬ front.isEmpty = true := fun hempty =>
        h.ne_empty (String.isEmpty_iff.mp hempty)
      rw [if_neg hzero', if_neg hlong', if_neg hempty]

/-! ## Holders

The holders are put together from the pieces of a path, with idle ones at the end left out. For the
induction the pieces are divided in two: those that are still to be gone through, and those that
have been dropped before. -/

/-- The pieces, which are given from the last one on, with slashes between them behind the
origin. -/
def joined (origin : List Char) (pieces : List (List Char)) : String :=
  String.ofList (origin ++ List.intercalate ['/'] pieces.reverse)

/-- The origin and the pieces, which are given from the last one on, are those of a path. -/
structure Split (origin : List Char) (pieces : List (List Char)) : Prop where
  slash_not_mem : ∀ piece ∈ pieces, '/' ∉ piece
  origin_cases : origin = [] ∨ origin = ['/'] ∨ origin = ['.']
  /-- Behind a dot comes a slash. -/
  getLast?_eq : origin = ['.'] → ∀ piece ∈ pieces.getLast?, piece = []

variable {origin : List Char} {pieces : List (List Char)}

theorem start_append (text : List Char) : (start text).1 ++ (start text).2 = text := by
  unfold start
  split
  · rfl
  · rfl
  · rfl
  · rfl

/-- The pieces of a path, with its start, are those of a path. -/
theorem split_start (path : String) :
    Split (start path.toList).1 ((start path.toList).2.splitOn '/').reverse where
  slash_not_mem piece hmem :=
    slash_not_mem_of_mem_splitOn (List.mem_reverse.mp hmem)
  origin_cases := by
    unfold start
    split
    · exact .inr (.inl rfl)
    · exact .inr (.inr rfl)
    · exact .inr (.inr rfl)
    · exact .inl rfl
  getLast?_eq := by
    unfold start
    split
    · intro h
      cases h
    · intro _ piece hmem
      cases hmem
      rfl
    · intro _ piece hmem
      rw [List.getLast?_reverse] at hmem
      cases hmem
      rfl
    · intro h
      cases h

theorem joined_start (path : String) :
    joined (start path.toList).1 ((start path.toList).2.splitOn '/').reverse = path := by
  rw [joined, List.reverse_reverse, List.intercalate_splitOn, start_append, String.ofList_toList]

/-- Pieces that are dropped from the end leave a path. -/
theorem Split.of_suffix {rest : List (List Char)} (h : Split origin pieces) (hrest : rest <:+ pieces) :
    Split origin rest where
  slash_not_mem piece hmem := h.slash_not_mem piece (hrest.subset hmem)
  origin_cases := h.origin_cases
  getLast?_eq horigin piece hmem := by
    -- the piece next to the origin is the last one of both lists
    obtain ⟨before, rfl⟩ := hrest
    refine h.getLast?_eq horigin piece ?_
    rw [Option.mem_def] at hmem ⊢
    rw [List.getLast?_append, hmem]
    rfl

theorem joined_eq (origin : List Char) (pieces : List (List Char)) :
    joined origin pieces =
      String.ofList origin ++ String.ofList (List.intercalate ['/'] pieces.reverse) :=
  String.ofList_append

/-- The path through some of the pieces is followed by a slash and the path through the others. -/
theorem joined_append {before above : List (List Char)} (hbefore : before ≠ []) (habove : above ≠ []) :
    joined origin (before ++ above) =
      joined origin above ++ "/" ++ String.ofList (List.intercalate ['/'] before.reverse) := by
  have hjoin : List.intercalate ['/'] (before ++ above).reverse =
      List.intercalate ['/'] above.reverse ++ '/' :: List.intercalate ['/'] before.reverse := by
    rw [List.reverse_append]
    exact intercalate_append (List.reverse_ne_nil_iff.mpr habove)
      (List.reverse_ne_nil_iff.mpr hbefore)
  rw [joined, joined, hjoin, ← List.append_assoc, List.append_cons, String.ofList_append,
    String.ofList_append]

/-- The origin is a front of the path, if it is a path itself. -/
theorem Split.front_origin (h : Split origin pieces)
    (hpieces : ∃ piece ∈ pieces, isIdle piece = false) (hne : String.ofList origin ≠ "") :
    Front (String.ofList origin) (joined origin pieces) := by
  rcases h.origin_cases with rfl | rfl | rfl
  · exact absurd rfl hne
  · rw [joined_eq]
    exact .root (leads_of_exists h.slash_not_mem hpieces)
  · obtain ⟨piece, hmem, hpiece⟩ := hpieces
    cases hlast : pieces.getLast? with
    | none =>
      rw [List.getLast?_eq_none_iff.mp hlast] at hmem
      cases hmem
    | some last =>
      -- the piece next to the dot is empty, so the dot is followed by a slash
      have hempty : last = [] := h.getLast?_eq rfl last hlast
      obtain ⟨others, rfl⟩ := List.getLast?_eq_some_iff.mp hlast
      subst hempty
      have hothers : piece ∈ others := by
        rcases List.mem_append.mp hmem with hothers | hlast
        · exact hothers
        · rw [List.mem_singleton.mp hlast] at hpiece
          cases hpiece
      have hjoined : joined ['.'] (others ++ [[]]) =
          "." ++ "/" ++ String.ofList (List.intercalate ['/'] others.reverse) :=
        joined_append (List.ne_nil_of_mem hothers) (List.cons_ne_nil _ _)
      rw [hjoined]
      exact .slash hne (leads_of_exists (fun other hother =>
        h.slash_not_mem other (List.mem_append_left _ hother)) ⟨piece, hothers, hpiece⟩)

/-- The path through some of the pieces is a front of the path through all of them, if one of the
others does not stay in place. -/
theorem Split.front_through {before above : List (List Char)} (h : Split origin (before ++ above))
    (hbefore : ∃ piece ∈ before, isIdle piece = false) (hne : through origin above ≠ "") :
    Front (through origin above) (joined origin (before ++ above)) := by
  induction above generalizing before with
  | nil =>
    have horigin : through origin [] = String.ofList origin :=
      congrArg String.ofList (List.append_nil origin)
    rw [horigin] at hne ⊢
    rw [List.append_nil] at h ⊢
    exact h.front_origin hbefore hne
  | cons piece above ih =>
    obtain ⟨other, hmem, hother⟩ := hbefore
    by_cases hidle : isIdle piece = true
    · -- an idle piece is passed over, so it counts among the others
      have hthrough : through origin (piece :: above) = through origin above := by
        rw [through, through, List.dropWhile_cons_of_pos hidle]
      rw [hthrough] at hne ⊢
      rw [List.append_cons] at h ⊢
      exact ih h ⟨other, List.mem_append_left _ hmem, hother⟩ hne
    · have hthrough : through origin (piece :: above) = joined origin (piece :: above) := by
        rw [through, joined, List.dropWhile_cons_of_neg hidle]
      rw [hthrough] at hne ⊢
      rw [joined_append (List.ne_nil_of_mem hmem) (List.cons_ne_nil _ _)]
      exact .slash hne (leads_of_exists (fun other hother =>
        h.slash_not_mem other (List.mem_append_left _ hother)) ⟨other, hmem, hother⟩)

theorem ne_empty_of_not_isEmpty (h : (!front.isEmpty) = true) : front ≠ "" := by
  rintro rfl
  cases h

/-- **Every holder is a front**, whatever has been dropped so far. -/
theorem Split.front_of_mem_holdersFrom {before above : List (List Char)}
    (h : Split origin (before ++ above)) (hmem : front ∈ holdersFrom origin above)
    (hne : front ≠ "") : Front front (joined origin (before ++ above)) := by
  -- one piece after the other goes over to those that have been dropped
  induction above generalizing before with
  | nil => cases hmem
  | cons piece above ih =>
    rw [List.append_cons] at h ⊢
    rw [holdersFrom] at hmem
    split at hmem
    · exact ih h hmem
    · rename_i hpiece
      rcases List.mem_cons.mp hmem with rfl | hmem
      · have hlast : piece ∈ before ++ [piece] :=
          List.mem_append_right _ (List.mem_singleton_self piece)
        exact h.front_through ⟨piece, hlast, Bool.eq_false_iff.mpr hpiece⟩ hne
      · exact ih h hmem

/-- Idle pieces at the end do not count. -/
theorem holdersFrom_dropWhile (origin : List Char) (pieces : List (List Char)) :
    holdersFrom origin (pieces.dropWhile isIdle) = holdersFrom origin pieces := by
  induction pieces with
  | nil => rfl
  | cons piece above ih =>
    by_cases hidle : isIdle piece = true
    · rw [List.dropWhile_cons_of_pos hidle, ih, holdersFrom, if_pos hidle]
    · rw [List.dropWhile_cons_of_neg hidle]

/-- **Of two holders the one further up is a front of the other.** -/
theorem Split.pairwise_holdersFrom (h : Split origin pieces) :
    ((holdersFrom origin pieces).filter (!·.isEmpty)).Pairwise fun path front => Front front path := by
  induction pieces with
  | nil => exact List.Pairwise.nil
  | cons piece above ih =>
    have habove := h.of_suffix (List.suffix_cons piece above)
    rw [holdersFrom]
    split
    · exact ih habove
    · rw [List.filter_cons]
      split
      · refine List.pairwise_cons.mpr ⟨fun front hmem => ?_, ih habove⟩
        obtain ⟨hmem, hne⟩ := List.mem_filter.mp hmem
        -- the holders of a path do not mind idle pieces at its end
        rw [← holdersFrom_dropWhile] at hmem
        have hkept := habove.of_suffix (List.dropWhile_suffix isIdle)
        have hsplit : Split origin ([] ++ above.dropWhile isIdle) := hkept
        exact hsplit.front_of_mem_holdersFrom hmem (ne_empty_of_not_isEmpty hne)
      · exact ih habove

/-- The paths of the directories that hold what stands at the end of a path are fronts of it. -/
theorem front_of_mem_holders (h : front ∈ holders path) : Front front path := by
  obtain ⟨hmem, hne⟩ := List.mem_filter.mp h
  have hsplit : Split (start path.toList).1 ([] ++ ((start path.toList).2.splitOn '/').reverse) :=
    split_start path
  have hfront := hsplit.front_of_mem_holdersFrom hmem (ne_empty_of_not_isEmpty hne)
  rwa [List.nil_append, joined_start] at hfront

/-- Of two holders of a path, the one further up is a front of the other. So one that is missing
keeps those below it from being there. -/
theorem pairwise_holders (path : String) :
    (holders path).Pairwise fun path front => Front front path :=
  (split_start path).pairwise_holdersFrom

end EvmDisasm.Path
