import EvmDisasm.Text

/-!
# The ends of a text

Trimming cuts a text in three: blank characters, a middle that neither starts nor ends with one, and
blank characters again.

* **`exists_trim`** — the three parts are the text.
* **`trim_append`** — there is only one way to cut a text like that.
-/

namespace EvmDisasm.Text

/-! ## What is cut off

At each end, as many blank characters as there are in a row. -/

theorem exists_trimEnd (text : List Char) :
    ∃ after, (∀ c ∈ after, isBlank c = true) ∧ text = trimEnd text ++ after := by
  refine ⟨(text.reverse.takeWhile isBlank).reverse, fun c hc => ?_, ?_⟩
  · exact List.all_eq_true.mp List.all_takeWhile c (List.mem_reverse.mp hc)
  · rw [trimEnd, ← List.reverse_append, List.takeWhile_append_dropWhile, List.reverse_reverse]

/-- Trimming cuts off blank characters at both ends. -/
theorem exists_trim (text : List Char) :
    ∃ before after, (∀ c ∈ before, isBlank c = true) ∧ (∀ c ∈ after, isBlank c = true) ∧
      text = before ++ trim text ++ after := by
  obtain ⟨after, hafter, htext⟩ := exists_trimEnd (text.dropWhile isBlank)
  refine ⟨text.takeWhile isBlank, after, ?_, hafter, ?_⟩
  · exact fun c hc => List.all_eq_true.mp List.all_takeWhile c hc
  · calc text = text.takeWhile isBlank ++ text.dropWhile isBlank :=
          List.takeWhile_append_dropWhile.symm
      _ = text.takeWhile isBlank ++ trim text ++ after := by
          rw [List.append_assoc, trim, ← htext]

theorem filter_eq_nil_of_isBlank {chars : List Char} (h : ∀ c ∈ chars, isBlank c = true) :
    chars.filter (!isBlank ·) = [] := by
  rw [List.filter_eq_nil_iff]
  intro c hc
  rw [h c hc]
  exact Bool.false_ne_true

/-! ## What is left

A middle that is empty or has no blank character at either end. This determines the cut. -/

/-- The middle of a text: it is empty, or neither its first nor its last character is blank. -/
structure Trimmed (middle : List Char) : Prop where
  head? : ∀ c ∈ middle.head?, isBlank c = false
  getLast? : ∀ c ∈ middle.getLast?, isBlank c = false

theorem isBlank_head?_dropWhile {text : List Char} {c : Char}
    (h : c ∈ (text.dropWhile isBlank).head?) : isBlank c = false := by
  have hnot := List.head?_dropWhile_not isBlank text
  rwa [Option.mem_def.mp h] at hnot

theorem isBlank_getLast?_trimEnd {text : List Char} {c : Char} (h : c ∈ (trimEnd text).getLast?) :
    isBlank c = false := by
  rw [trimEnd, List.getLast?_reverse] at h
  exact isBlank_head?_dropWhile h

/-- What trimming leaves is such a middle. -/
theorem trimmed_trim (text : List Char) : Trimmed (trim text) where
  head? c hc := by
    obtain ⟨after, -, htext⟩ := exists_trimEnd (text.dropWhile isBlank)
    -- cutting off the end leaves the first character in its place, if it leaves any
    have hfirst : c ∈ (text.dropWhile isBlank).head? := by
      rw [trim, Option.mem_def] at hc
      rw [htext, List.head?_append, hc]
      rfl
    exact isBlank_head?_dropWhile hfirst
  getLast? _ hc := isBlank_getLast?_trimEnd hc

/-- Cutting blank characters off the front stops at the first that is not. -/
theorem dropWhile_append_of_head? {before rest : List Char} (hbefore : ∀ c ∈ before, isBlank c = true)
    (hrest : ∀ c ∈ rest.head?, isBlank c = false) : (before ++ rest).dropWhile isBlank = rest := by
  rw [List.dropWhile_append_of_pos hbefore]
  cases rest with
  | nil => rfl
  | cons c rest => rw [List.dropWhile_cons, hrest c rfl]; rfl

theorem trimEnd_append {rest after : List Char} (hafter : ∀ c ∈ after, isBlank c = true)
    (hrest : ∀ c ∈ rest.getLast?, isBlank c = false) : trimEnd (rest ++ after) = rest := by
  have hreverse : ∀ c ∈ after.reverse, isBlank c = true := fun c hc =>
    hafter c (List.mem_reverse.mp hc)
  rw [trimEnd, List.reverse_append, dropWhile_append_of_head? hreverse, List.reverse_reverse]
  rwa [List.head?_reverse]

/-- **There is one way to cut a text like that.** Whoever has the three parts knows what trimming
gives. -/
theorem trim_append {before middle after : List Char} (hbefore : ∀ c ∈ before, isBlank c = true)
    (hmiddle : Trimmed middle) (hafter : ∀ c ∈ after, isBlank c = true) :
    trim (before ++ middle ++ after) = middle := by
  cases middle with
  | nil =>
    -- nothing but blank characters
    have hall : ∀ c ∈ before ++ after, isBlank c = true := fun c hc =>
      (List.mem_append.mp hc).elim (hbefore c) (hafter c)
    rw [List.append_nil, trim, ← List.append_nil (before ++ after),
      dropWhile_append_of_head? hall (fun c hc => by cases hc)]
    rfl
  | cons c rest =>
    have hstart : ∀ d ∈ (c :: rest ++ after).head?, isBlank d = false := fun d hd =>
      hmiddle.head? d hd
    rw [trim, List.append_assoc, dropWhile_append_of_head? hbefore hstart,
      trimEnd_append hafter hmiddle.getLast?]

end EvmDisasm.Text
