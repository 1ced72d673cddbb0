import EvmDisasm.Hex

/-!
# Code written as hexadecimal text

Code may be given as a text of digits, with blank characters anywhere between them. `parse` reads
such a text; `looksLikeHex` says of a text from elsewhere whether it is meant as one.
-/

namespace EvmDisasm.Code

inductive TextError where
  /-- The digits, of which there are that many, do not pair up. -/
  | oddDigits (count : Nat)
  /-- Something between the digits is none. -/
  | invalid (cause : Hex.Error)
deriving DecidableEq, Repr

def TextError.message : TextError → String
  | .oddDigits count => "hex code has an odd number of digits (" ++ toString count ++ ")"
  | .invalid cause => cause.message

/-- What the text holds beside blank characters around and between the digits and the mark. -/
def digits (text : String) : List Char :=
  (Hex.body text).filter (!Text.isBlank ·)

/-- The code that a text stands for. -/
def parse (text : String) : Except TextError Bytes :=
  let bytes := Text.utf8 (digits text)
  if bytes.length % 2 ≠ 0 then .error (.oddDigits bytes.length)
  else
    match Hex.decode bytes with
    | .ok code => .ok code
    | .error cause => .error (.invalid cause)

/-- Whether the text holds digits and blank characters only, and some of them after the mark. -/
def looksLikeHex (text : String) : Bool :=
  let body := Hex.body text
  !body.isEmpty && body.all fun c => Hex.isDigitChar c || Text.isBlank c

end EvmDisasm.Code
