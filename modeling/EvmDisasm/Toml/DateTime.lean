import EvmDisasm.Toml.Number

/-!
# Dates and times

A date, a time, or a date with a time and perhaps its distance from universal time. A date has to be
one of the calendar, and a second may be the sixtieth.
-/

namespace EvmDisasm.Toml

/-- A number of exactly `count` digits that is at most `most`. -/
def digitGroup? (count most : Nat) (text : List Char) : Option (Nat × List Char) :=
  let group := text.take count
  if group.length = count ∧ group.all isDecimal ∧ digitsValue 10 group ≤ most then
    some (digitsValue 10 group, text.drop count)
  else none

/-- The text after the given character, which has to be its first. -/
def mark? (c : Char) : List Char → Option (List Char)
  | [] => none
  | d :: rest => if c = d then some rest else none

def daysInMonth (year month : Nat) : Nat :=
  if month = 2 then
    if year % 4 = 0 ∧ (year % 100 ≠ 0 ∨ year % 400 = 0) then 29 else 28
  else if month = 4 ∨ month = 6 ∨ month = 9 ∨ month = 11 then 30
  else 31

/-- What follows a date at the start of a text. -/
def date? (text : List Char) : Option (List Char) := do
  let (year, rest) ← digitGroup? 4 9999 text
  let rest ← mark? '-' rest
  let (month, rest) ← digitGroup? 2 12 rest
  let rest ← mark? '-' rest
  let (day, rest) ← digitGroup? 2 31 rest
  if 1 ≤ month ∧ 1 ≤ day ∧ day ≤ daysInMonth year month then some rest else none

/-- What follows the parts of a second, if a text starts with them. -/
def secondFraction? : List Char → Option (List Char)
  | '.' :: rest =>
    match rest with
    | c :: _ => if isDecimal c then some (rest.dropWhile isDecimal) else none
    | [] => none
  | text => some text

/-- What follows a time of day at the start of a text. -/
def time? (text : List Char) : Option (List Char) := do
  let (_, rest) ← digitGroup? 2 23 text
  let rest ← mark? ':' rest
  let (_, rest) ← digitGroup? 2 59 rest
  let rest ← mark? ':' rest
  let (_, rest) ← digitGroup? 2 60 rest
  secondFraction? rest

/-- What follows a distance from universal time, if a text starts with one. -/
def zone? : List Char → Option (List Char)
  | c :: rest =>
    if c = 'Z' ∨ c = 'z' then some rest
    else if c = '+' ∨ c = '-' then do
      let (_, rest) ← digitGroup? 2 23 rest
      let rest ← mark? ':' rest
      let (_, rest) ← digitGroup? 2 59 rest
      some rest
    else some (c :: rest)
  | [] => some []

/-- Whether a text starts with a year and a hyphen, as a date does. -/
def startsDate (text : List Char) : Bool :=
  ((digitGroup? 4 9999 text).bind fun (_, rest) => mark? '-' rest).isSome

/-- Whether a text starts with an hour and a colon, as a time does. -/
def startsTime (text : List Char) : Bool :=
  ((digitGroup? 2 23 text).bind fun (_, rest) => mark? ':' rest).isSome

/-- What follows a date with or without a time at the start of a text. A blank before what is no
time ends the date. -/
def dateTime? (text : List Char) : Option (List Char) := do
  let rest ← date? text
  match rest with
  | c :: after =>
    if (c = 'T' ∨ c = 't' ∨ c = ' ') ∧ startsTime after then
      let rest ← time? after
      zone? rest
    else some rest
  | [] => some []

end EvmDisasm.Toml
