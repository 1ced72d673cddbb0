import EvmDisasm.Instruction
import EvmDisasm.Log

/-!
# Reading code from front to back

A cursor stands between two instructions. It reads the instruction after it and moves past it, so
code is decoded one instruction at a time, and `decode` is the list of all of them. Every read moves
the cursor forward, which is why each of the loops here ends.
-/

namespace EvmDisasm

/-- A place in code between two instructions. -/
structure Cursor where
  /-- The offset of the place. -/
  offset : Nat
  /-- The bytes from there on. -/
  rest : Bytes
deriving DecidableEq, Repr

/-- What a move of a cursor leads to. -/
structure Move (α : Type) where
  /-- The answer of the move. -/
  answer : α
  /-- The instructions that the cursor moved past, in order. -/
  passed : List Instruction
  /-- Where the cursor stands afterwards. -/
  cursor : Cursor

namespace Cursor

/-- The cursor before the first byte of the code. -/
def start (code : Bytes) : Cursor :=
  ⟨0, code⟩

/-- The instruction after the cursor and the cursor behind it, unless the code is at its end. -/
def next? (cursor : Cursor) : Option (Instruction × Cursor) :=
  match cursor.rest with
  | [] => none
  | code :: following =>
    let inst := Instruction.read cursor.offset code following
    some (inst, ⟨inst.nextOffset, following.drop inst.presentLength⟩)

/-- Reading an instruction leaves fewer bytes, on which every loop over a cursor ends. -/
theorem length_rest_lt {cursor after : Cursor} {inst : Instruction}
    (h : cursor.next? = some (inst, after)) : after.rest.length < cursor.rest.length := by
  unfold next? at h
  split at h
  · simp at h
  · rename_i code following rest
    simp only [Option.some.injEq, Prod.mk.injEq] at h
    rw [← h.2, rest]
    simp only [List.length_drop, List.length_cons]
    omega

/-- The instructions from the cursor on, after those in `acc`, which stand in reverse. -/
def remainingOnto (acc : List Instruction) (cursor : Cursor) : List Instruction :=
  match _h : cursor.next? with
  | none => acc.reverse
  | some (inst, after) => remainingOnto (inst :: acc) after
termination_by cursor.rest.length
decreasing_by exact length_rest_lt _h

def remaining (cursor : Cursor) : List Instruction :=
  remainingOnto [] cursor

/-- Move past up to `n` instructions, which `acc` holds in reverse with those before them. -/
def takeOnto (acc : List Instruction) : Nat → Cursor → List Instruction × Cursor
  | 0, cursor => (acc.reverse, cursor)
  | n + 1, cursor =>
    match cursor.next? with
    | none => (acc.reverse, cursor)
    | some (inst, after) => takeOnto (inst :: acc) n after

/-- Move past instructions up to the first that `wanted` accepts, which is passed as well. -/
def seekOnto (wanted : Instruction → Bool) (acc : List Instruction) (cursor : Cursor) :
    List Instruction × Cursor :=
  match _h : cursor.next? with
  | none => (acc.reverse, cursor)
  | some (inst, after) =>
    if wanted inst then ((inst :: acc).reverse, after) else seekOnto wanted (inst :: acc) after
termination_by cursor.rest.length
decreasing_by exact length_rest_lt _h

def take (n : Nat) (cursor : Cursor) : Move (List Instruction) :=
  let (passed, after) := takeOnto [] n cursor
  ⟨passed, passed, after⟩

/-- Skip `n` instructions and answer with the one after them. -/
def nth (n : Nat) (cursor : Cursor) : Move (Option Instruction) :=
  let (passed, after) := takeOnto [] (n + 1) cursor
  ⟨passed[n]?, passed, after⟩

def next (cursor : Cursor) : Move (Option Instruction) :=
  cursor.nth 0

/-- Move up to the first instruction that `wanted` accepts and answer with it. -/
def seek (wanted : Instruction → Bool) (cursor : Cursor) : Move (Option Instruction) :=
  let (passed, after) := seekOnto wanted [] cursor
  ⟨passed.getLast?.filter wanted, passed, after⟩

/-- Move to the end and answer with all instructions on the way. -/
def drain (cursor : Cursor) : Move (List Instruction) :=
  let (passed, after) := seekOnto (fun _ => false) [] cursor
  ⟨passed, passed, after⟩

/-- Move to the end and answer with the last instruction on the way. -/
def last (cursor : Cursor) : Move (Option Instruction) :=
  let move := cursor.drain
  { move with answer := move.passed.getLast? }

/-- Move to the end and answer with the number of instructions on the way. -/
def count (cursor : Cursor) : Move Nat :=
  let move := cursor.drain
  { move with answer := move.passed.length }

/-- Bounds on the number of instructions from the cursor on: each takes up at least one byte. -/
def countBounds (cursor : Cursor) : Nat × Nat :=
  (min 1 cursor.rest.length, cursor.rest.length)

/-- The cursors that moves from the start of the code lead to. -/
inductive Reached (code : Bytes) : Cursor → Prop where
  | start : Reached code (start code)
  | next {cursor : Cursor} : Reached code cursor → Reached code cursor.next.cursor
  | nth {cursor : Cursor} (n : Nat) : Reached code cursor → Reached code (cursor.nth n).cursor
  | seek {cursor : Cursor} (wanted : Instruction → Bool) :
      Reached code cursor → Reached code (cursor.seek wanted).cursor
  | take {cursor : Cursor} (n : Nat) : Reached code cursor → Reached code (cursor.take n).cursor

/-- A move of a cursor that may stop before the end of the code. -/
inductive Step where
  | next
  | nth (n : Nat)
  | seek (wanted : Instruction → Bool)
  | take (n : Nat)

/-- The instructions that a step moves past, and the cursor behind them. -/
def Step.perform (step : Step) (cursor : Cursor) : List Instruction × Cursor :=
  match step with
  | .next => (cursor.next.passed, cursor.next.cursor)
  | .nth n => ((cursor.nth n).passed, (cursor.nth n).cursor)
  | .seek wanted => ((cursor.seek wanted).passed, (cursor.seek wanted).cursor)
  | .take n => ((cursor.take n).passed, (cursor.take n).cursor)

/-- The instructions that a row of steps moves past, and the cursor behind them. A copy of a cursor
is the same value, so the steps of a copy go on from those of the cursor that was copied. -/
def walk : List Step → Cursor → List Instruction × Cursor
  | [], cursor => ([], cursor)
  | step :: rest, cursor =>
    let (passed, after) := step.perform cursor
    let (others, final) := walk rest after
    (passed ++ others, final)

/-! ## The list of remaining instructions

The loop carries what it has read in reverse. Said without that, it is a recursion on the cursor,
and this is the form in which the rest of the library knows it. -/

/-- What is carried stands in front, in the order in which it was read. -/
theorem remainingOnto_eq (acc : List Instruction) (cursor : Cursor) :
    remainingOnto acc cursor = acc.reverse ++ cursor.remaining := by
  unfold remaining
  induction hn : cursor.rest.length using Nat.strongRecOn generalizing acc cursor with
  | _ n ih =>
    rw [remainingOnto, remainingOnto.eq_def []]
    split
    · simp
    · rename_i inst after h
      have shorter := length_rest_lt h
      rw [ih _ (hn ▸ shorter) _ after rfl, ih _ (hn ▸ shorter) [inst] after rfl]
      simp

/-- Either nothing remains, or the next instruction does and then what remains behind it. -/
theorem remaining_eq (cursor : Cursor) :
    cursor.remaining =
      match cursor.next? with
      | none => []
      | some (inst, after) => inst :: after.remaining := by
  conv => lhs; unfold remaining; rw [remainingOnto]
  split <;> rename_i h
  · simp [h]
  · simp [h, remainingOnto_eq]

end Cursor

/-- The instructions of the code, from its start to its end. -/
def decode (code : Bytes) : List Instruction :=
  (Cursor.start code).remaining

/-! ## What decoding reports

Decoding an instruction is silent unless its byte stands for no opcode or its immediate is cut
off. -/

namespace Instruction

def trace (inst : Instruction) : List Log.Record :=
  if !inst.isKnown then
    [⟨.trace, "unknown opcode " ++ Hex.number 2 inst.code.toNat ++ " at " ++
      Hex.number 1 inst.offset⟩]
  else if inst.isTruncated then
    [⟨.trace, inst.mnemonic ++ " at " ++ Hex.number 1 inst.offset ++ " truncated: " ++
      toString inst.presentLength ++ " of " ++ toString inst.nominalLength ++
      " immediate bytes"⟩]
  else []

def traceAll (insts : List Instruction) : List Log.Record :=
  insts.flatMap trace

end Instruction

end EvmDisasm
