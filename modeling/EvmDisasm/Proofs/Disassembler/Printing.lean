import EvmDisasm.Disassembler.Sink

/-!
# Printing stops in the middle without a trace

A sink that runs full may refuse a piece anywhere in the listing: in a line or at its end, before
the digest or in it. What it has then is the listing cut off where the room ends. Nothing is left
out in front of the cut and nothing comes behind it, and how the lines are cut into pieces makes no
difference.

## The architecture

* **`Took`** — what putting in a text does to the printer: the text is cut off at the room, refused
  if it does not fit, and the disassembler is left alone.
* **`Puts`** — an action puts in a text, whatever sink it works on. This is closed under doing one
  thing after the other (`Puts.seq`), a refusal in the first of which hides the second.
* **`puts_put`**, **`puts_forM`**, **`puts_putInstruction`**, **`puts_putListing`** — what each part
  of printing puts in, from a single piece up to the listing.
* **`putListing_cut`** — the listing in a sink with little room.
-/

namespace EvmDisasm

namespace Printing

/-- The bytes that a text takes up in a sink. -/
def bytesOf (text : String) : Bytes :=
  Text.utf8 text.toList

theorem bytesOf_append (front rest : String) :
    bytesOf (front ++ rest) = bytesOf front ++ bytesOf rest := by
  rw [bytesOf, String.toList_append, Text.utf8_append]
  rfl

/-! ## What an action puts in

An action may run on a sink of any fill, because it follows others. So what is said of it speaks of
the room that is left: how much of the text still went in, and what the answer was. -/

/-- The printer after the text was put in as far as there was room, and the answer to that. -/
structure Took (before : Printer) (text : String) (result : Except FileError Unit × Printer) :
    Prop where
  disassembler_eq : result.2.disassembler = before.disassembler
  contents_eq : result.2.sink.contents =
    before.sink.contents ++ (bytesOf text).take before.sink.room
  room_eq : result.2.sink.room = before.sink.room - (bytesOf text).length
  answer_eq : result.1 =
    if (bytesOf text).length ≤ before.sink.room then .ok () else .error .writeRefused

/-- What fitted leaves room for what comes next. -/
theorem Took.trans {before middle : Printer} {front rest : String}
    {result : Except FileError Unit × Printer} (hfront : Took before front (.ok (), middle))
    (hrest : Took middle rest result) : Took before (front ++ rest) result := by
  obtain ⟨hd, hcontents, hroom, hanswer⟩ := hfront
  dsimp only at hd hcontents hroom hanswer
  have hfits : (bytesOf front).length ≤ before.sink.room := by
    apply Decidable.byContradiction
    intro hshort
    rw [if_neg hshort] at hanswer
    cases hanswer
  refine ⟨hrest.disassembler_eq.trans hd, ?_, ?_, ?_⟩
  · rw [hrest.contents_eq, hcontents, hroom, bytesOf_append, List.take_append, List.append_assoc,
      List.take_of_length_le hfits]
  · rw [hrest.room_eq, hroom, bytesOf_append, List.length_append, Nat.sub_sub]
  · have hboth : (bytesOf rest).length ≤ before.sink.room - (bytesOf front).length ↔
        (bytesOf front).length + (bytesOf rest).length ≤ before.sink.room := by omega
    rw [hrest.answer_eq, hroom, bytesOf_append, List.length_append]
    simp only [hboth]

/-- Where a text did not fit, it makes no difference what was to come behind it. -/
theorem Took.stop {before after : Printer} {front : String} {e : FileError}
    (hfront : Took before front (.error e, after)) (rest : String) :
    Took before (front ++ rest) (.error e, after) := by
  obtain ⟨hd, hcontents, hroom, hanswer⟩ := hfront
  dsimp only at hd hcontents hroom hanswer
  have hshort : ¬ (bytesOf front).length ≤ before.sink.room := by
    intro hfits
    rw [if_pos hfits] at hanswer
    cases hanswer
  have hnone : before.sink.room - (bytesOf front).length = 0 := by omega
  refine ⟨hd, ?_, ?_, ?_⟩
  · rw [bytesOf_append, List.take_append, hnone, List.take_zero, List.append_nil]
    exact hcontents
  · rw [bytesOf_append, List.length_append, Nat.sub_add_eq, hnone, Nat.zero_sub]
    exact hroom.trans hnone
  · rw [bytesOf_append, List.length_append, if_neg (by omega)]
    rw [if_neg hshort] at hanswer
    exact hanswer

/-- The action puts in the text when the disassembler is printed, whatever the sink is. -/
def Puts (d : Disassembler) (action : Printing Unit) (text : String) : Prop :=
  ∀ sink, Took ⟨d, sink⟩ text (action.run.run ⟨d, sink⟩)

variable {d : Disassembler} {first second : Printing Unit} {front rest : String}

/-- **A single piece.** What the printer asks of the sink is the very thing that `Took`
describes. -/
theorem puts_put (piece : String) : Puts d (put piece) piece := by
  intro sink
  refine ⟨rfl, ?_, rfl, rfl⟩
  show ((bytesOf piece).take sink.room :: sink.pieces).reverse.flatten = _
  rw [List.reverse_cons, List.flatten_append, List.flatten_singleton]
  rfl

theorem puts_pure : Puts d (pure ()) "" := by
  intro sink
  refine ⟨rfl, ?_, rfl, ?_⟩
  · show sink.contents = sink.contents ++ [].take sink.room
    rw [List.take_nil, List.append_nil]
  · exact (if_pos (Nat.zero_le _)).symm

/-- The second action runs on what the first left behind, unless that was refused. -/
theorem run_seq (first second : Printing Unit) (printer : Printer) :
    (do first; second).run.run printer =
      match first.run.run printer with
      | (.ok (), after) => second.run.run after
      | (.error e, after) => (.error e, after) := by
  rw [ExceptT.run_bind, StateT.run_bind]
  generalize first.run.run printer = result
  obtain ⟨answer, after⟩ := result
  cases answer with
  | ok _ => rfl
  | error e => rfl

/-- **One thing after the other** puts in the two texts, one behind the other. -/
theorem Puts.seq (hfirst : Puts d first front) (hsecond : Puts d second rest) :
    Puts d (do first; second) (front ++ rest) := by
  intro sink
  have htook := hfirst sink
  rw [run_seq]
  generalize first.run.run ⟨d, sink⟩ = result at htook
  obtain ⟨answer, after⟩ := result
  -- whether the first text fitted is the only thing that matters to the second
  cases answer with
  | ok _ =>
    -- the second action works on the same disassembler as the first
    have hd : after.disassembler = d := htook.disassembler_eq
    subst hd
    exact htook.trans (hsecond after.sink)
  | error e => exact htook.stop rest

/-- An action may look at the disassembler that it prints. -/
theorem puts_get {action : Printer → Printing Unit} {text : String}
    (h : ∀ sink, Puts d (action ⟨d, sink⟩) text) : Puts d (do action (← get)) text :=
  fun sink => h sink sink

theorem puts_forM {α : Type} {action : α → Printing Unit} {text : α → String}
    (h : ∀ item, Puts d (action item) (text item)) (items : List α) :
    Puts d (items.forM action) (String.join (items.map text)) := by
  -- the first item, and then the rest on what it left behind
  induction items with
  | nil => exact puts_pure
  | cons item rest ih =>
    rw [List.map_cons, String.join_cons]
    exact (h item).seq ih

/-! ## What the parts of printing put in

The printer writes a line in pieces and the listing is defined line by line. Both come to the same
text, so the cuts between the pieces are forgotten here. -/

/-- An instruction is put in as its line, in three pieces and two more for an immediate. -/
theorem puts_putInstruction (inst : Instruction) : Puts d (putInstruction inst) inst.text := by
  have hmark (digits : String) : "  " ++ ("0x" ++ digits) = "  0x" ++ digits := by
    rw [← String.append_assoc]
    rfl
  rw [Instruction.text, Instruction.immediateText, String.append_assoc, String.append_assoc]
  apply (puts_put _).seq
  apply (puts_put _).seq
  apply (puts_put _).seq
  cases inst.immediate with
  | none => exact puts_pure
  | some bytes =>
    show Puts d _ ("  " ++ ("0x" ++ String.ofList (Hex.encode bytes)))
    rw [hmark]
    exact (puts_put "  0x").seq (puts_put _)

theorem puts_putDigest (digest : Digest) : Puts d (putDigest digest) digest.text :=
  (puts_put "0x").seq (puts_put digest.hex)

/-- The listing with the line feeds where the printer puts them. -/
theorem print_eq (d : Disassembler) (showHash : Bool) :
    d.print showHash = String.join (d.instructions.map fun inst => inst.text ++ "\n") ++
      if showHash then "code hash: " ++ (d.codeHash.text ++ "\n") else "" := by
  rw [Disassembler.print, Disassembler.lines, List.map_append, String.join_append, List.map_map]
  cases showHash with
  | false => rfl
  | true =>
    simp [Function.comp_def, String.append_assoc]

/-- **Printing puts in the listing.** It is closed under everything that printing is made of, so
only the parts have to be put together. -/
theorem puts_putListing (d : Disassembler) (showHash : Bool) :
    Puts d (putListing showHash) (d.print showHash) := by
  have hline (inst : Instruction) :
      Puts d (do putInstruction inst; put "\n") (inst.text ++ "\n") :=
    (puts_putInstruction inst).seq (puts_put "\n")
  rw [print_eq]
  apply puts_get
  intro _
  apply (puts_forM hline d.instructions).seq
  cases showHash with
  | false => exact puts_pure
  | true =>
    apply puts_get
    intro _
    exact (puts_put "code hash: ").seq ((puts_putDigest d.codeHash).seq (puts_put "\n"))

/-! ## A sink with little room

A sink to which nothing has been written has the front of the text, and the rest of the theory is
about that one. -/

/-- What is in a sink that was empty is as much of the text as there was room for. -/
theorem Puts.contents_ofRoom {action : Printing Unit} {text : String} (h : Puts d action text)
    (room : Nat) :
    (action.run.run ⟨d, .ofRoom room⟩).2.sink.contents = (bytesOf text).take room :=
  (h (.ofRoom room)).contents_eq

/-- The answer is a refusal unless all of the text fitted. -/
theorem Puts.answer_ofRoom {action : Printing Unit} {text : String} (h : Puts d action text)
    (room : Nat) :
    (action.run.run ⟨d, .ofRoom room⟩).1 =
      if (bytesOf text).length ≤ room then .ok () else .error .writeRefused :=
  (h (.ofRoom room)).answer_eq

/-- **A sink that runs full has the listing up to there.** Whatever the disassembler holds, printing
it into a sink with room for some bytes leaves as many of the listing in it, from the front. That
goes right exactly if there is room for all of them, and is otherwise the refusal of the sink.
Either way the disassembler is as it was, and prints its listing in full where there is room for it.
However the listing is cut into pieces, the sink ends up with the same bytes and the answer is the
same. -/
theorem putListing_cut (d : Disassembler) (showHash : Bool) (room : Nat) :
    let text := bytesOf (d.print showHash)
    let result := (putListing showHash).run.run ⟨d, .ofRoom room⟩
    d.printInto showHash (.ofRoom room) = (result.1, result.2.sink) ∧
    result.2.sink.contents = text.take (min room text.length) ∧
    (result.1 = .ok () ↔ text.length ≤ room) ∧
    (result.1 = .error .writeRefused ↔ room < text.length) ∧
    result.2.disassembler = d ∧
    (∀ spare,
      let later := result.2.disassembler.printInto showHash (.ofRoom (text.length + spare))
      later.1 = .ok () ∧ later.2.contents = text) ∧
    (∀ pieces : List String, String.join pieces = d.print showHash →
      let other := (pieces.forM put).run.run ⟨d, .ofRoom room⟩
      other.1 = result.1 ∧ other.2.sink.contents = result.2.sink.contents) := by
  intro text result
  have hputs := puts_putListing d showHash
  have hanswer : result.1 = if text.length ≤ room then .ok () else .error .writeRefused :=
    hputs.answer_ofRoom room
  have hcontents : result.2.sink.contents = text.take room := hputs.contents_ofRoom room
  have hd : result.2.disassembler = d := (hputs (.ofRoom room)).disassembler_eq
  refine ⟨rfl, ?_, ?_, ?_, hd, ?_, ?_⟩
  · rw [hcontents, List.take_eq_take_iff]
    omega
  · rw [hanswer]
    by_cases hfits : text.length ≤ room
    · simp [hfits]
    · simp [hfits]
  · rw [hanswer]
    by_cases hfits : text.length ≤ room
    · simp [hfits]
    · simp [hfits]
      omega
  · intro spare
    rw [hd]
    have hroom : text.length ≤ text.length + spare := Nat.le_add_right _ _
    refine ⟨(hputs.answer_ofRoom _).trans (if_pos hroom), ?_⟩
    exact (hputs.contents_ofRoom _).trans (List.take_of_length_le hroom)
  · intro pieces hpieces
    -- other pieces of the same text are put in as that text too
    have hall : Puts d (pieces.forM put) (String.join (pieces.map id)) := puts_forM puts_put pieces
    rw [List.map_id, hpieces] at hall
    exact ⟨(hall.answer_ofRoom room).trans hanswer.symm,
      (hall.contents_ofRoom room).trans hcontents.symm⟩

/-- A `STOP` and room for nine of the thirteen bytes of its line, which is then cut off in the
mnemonic, also where a piece holds parts of two words. -/
theorem putListing_cut_mnemonic :
    let d : Disassembler := ⟨[0x00], false, [⟨0, 0x00, some .stop, none⟩]⟩
    let pieces := ["0x00", "00  S", "TOP\n"]
    let result := (putListing false).run.run ⟨d, .ofRoom 9⟩
    String.join pieces = d.print false ∧ result.1 = .error .writeRefused ∧
      result.2.sink.contents = bytesOf "0x0000  S" ∧
      ((pieces.forM put).run.run ⟨d, .ofRoom 9⟩).2.sink.contents = bytesOf "0x0000  S" := by
  intro d pieces result
  have hpieces : String.join pieces = d.print false := by decide +kernel
  have htext : (bytesOf (d.print false)).take 9 = bytesOf "0x0000  S" := by decide +kernel
  have hlength : (bytesOf (d.print false)).length = 13 := by decide +kernel
  obtain ⟨-, hcontents, -, hrefused, -, -, hother⟩ := putListing_cut d false 9
  rw [hlength] at hcontents hrefused
  have hcut := hcontents.trans htext
  exact ⟨hpieces, hrefused.mpr (by decide), hcut, (hother pieces hpieces).2.trans hcut⟩

end Printing

end EvmDisasm
