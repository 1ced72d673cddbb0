import EvmDisasm.CommandLine.Arguments

/-!
# Reading a command line

Words are read from left to right, and the first fault found is the one reported. A value may stand
in the word of its option or be the next word. In the second case the option is *pending* until the
next option comes, and only then is it checked that it has a value, that it was not given before and
that the value can stand.
-/

namespace EvmDisasm.CommandLine

/-- What was read of a command line. -/
structure Progress where
  arguments : Arguments := {}
  /-- The last option that takes a value, if it was a word by itself, with the value after it. -/
  pending : Option (ValueOption × Option String) := none
  /-- Whether two hyphens by themselves have put an end to options. -/
  closed : Bool := false
deriving DecidableEq, Repr

def Arguments.give (arguments : Arguments) (option : ValueOption) (value : String) :
    Except Refusal Arguments :=
  if (arguments.value? option).isSome then .error .argumentConflict
  else if option.isPath && value.isEmpty then .error .invalidValue
  else .ok (arguments.setValue option value)

namespace Progress

/-- Take in the option that is pending, if there is one. -/
def resolve (progress : Progress) : Except Refusal Progress :=
  match progress.pending with
  | none => .ok progress
  | some (_, none) => .error .invalidValue
  | some (option, some value) => do
    let arguments ← progress.arguments.give option value
    return { progress with arguments, pending := none }

/-- Take in an option whose value may follow. -/
def await (progress : Progress) (option : ValueOption) : Except Refusal Progress := do
  let progress ← progress.resolve
  return { progress with pending := some (option, none) }

def give (progress : Progress) (option : ValueOption) (value : String) :
    Except Refusal Progress := do
  let progress ← progress.resolve
  let arguments ← progress.arguments.give option value
  return { progress with arguments }

def set (progress : Progress) (switch : Switch) : Except Refusal Progress := do
  let progress ← progress.resolve
  if progress.arguments.isSet switch then .error .argumentConflict
  else return { progress with arguments := progress.arguments.set switch }

def stop (progress : Progress) (refusal : Refusal) : Except Refusal Progress := do
  let _ ← progress.resolve
  .error refusal

/-- Take in the letters after a single hyphen. What follows the letter of an option with a value is
the value, behind an equals sign or not. -/
def readLetters (progress : Progress) : List Char → Except Refusal Progress
  | [] => .ok progress
  | letter :: rest =>
    match Name.ofShort? letter with
    | none => .error .unknownArgument
    | some .help => progress.stop .displayHelp
    | some .version => progress.stop .displayVersion
    | some (.switch switch) => do
      let progress ← progress.set switch
      progress.readLetters rest
    | some (.value option) =>
      match rest with
      | [] => progress.await option
      | '=' :: value => progress.give option (String.ofList value)
      | value => progress.give option (String.ofList value)

/-- Take in the word after two hyphens: a name, and after an equals sign a value, if any. -/
def readLong (progress : Progress) (word : List Char) : Except Refusal Progress :=
  let name := String.ofList (word.takeWhile (· ≠ '='))
  let value? :=
    match word.dropWhile (· ≠ '=') with
    | [] => none
    | _ :: value => some (String.ofList value)
  match Name.ofLong? name, value? with
  | none, _ => .error .unknownArgument
  | some (.value option), some value => progress.give option value
  | some (.value option), none => progress.await option
  | some _, some _ => .error .tooManyValues
  | some (.switch switch), none => progress.set switch
  | some .help, none => progress.stop .displayHelp
  | some .version, none => progress.stop .displayVersion

/-- Take in a word that is no option: it can only be the value of the pending one. -/
def readPlain (progress : Progress) (word : String) : Except Refusal Progress :=
  match progress.pending with
  | some (option, none) => .ok { progress with pending := some (option, some word) }
  | _ => .error .unknownArgument

def read (progress : Progress) (word : String) : Except Refusal Progress :=
  if progress.closed then .error .unknownArgument
  else
    match word.toList with
    | ['-', '-'] => .ok { progress with closed := true }
    | '-' :: '-' :: rest => progress.readLong rest
    | ['-'] => progress.readPlain word
    | '-' :: letters => progress.readLetters letters
    | _ => progress.readPlain word

end Progress

/-- The arguments that the words of a command line give. -/
def parse (words : List String) : Except Refusal Arguments := do
  let progress ← words.foldlM Progress.read {}
  let progress ← progress.resolve
  let arguments := progress.arguments
  if arguments.input.isSome && arguments.hex.isSome then .error .argumentConflict
  else if arguments.input.isNone && arguments.hex.isNone then .error .missingRequiredArgument
  else .ok arguments

end EvmDisasm.CommandLine
