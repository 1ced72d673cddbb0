/-!
# Arguments

What a command line can ask for, and the reasons to refuse one.
-/

namespace EvmDisasm.CommandLine

inductive ValueOption where
  | input | hex | output | config
deriving DecidableEq, Repr

/-- Whether the value is a path, which must not be empty. -/
def ValueOption.isPath : ValueOption → Bool
  | .hex => false
  | _ => true

inductive Switch where
  | strict | noHash
deriving DecidableEq, Repr

/-- What a name on the command line stands for. -/
inductive Name where
  | value (option : ValueOption)
  | switch (switch : Switch)
  | help
  | version
deriving DecidableEq, Repr

/-- What a name of several letters stands for. -/
def Name.ofLong? : String → Option Name
  | "input" => some (.value .input)
  | "hex" => some (.value .hex)
  | "output" => some (.value .output)
  | "config" => some (.value .config)
  | "strict" => some (.switch .strict)
  | "no-hash" => some (.switch .noHash)
  | "help" => some .help
  | "version" => some .version
  | _ => none

/-- What a name of one letter stands for. -/
def Name.ofShort? : Char → Option Name
  | 'i' => some (.value .input)
  | 'o' => some (.value .output)
  | 'c' => some (.value .config)
  | 's' => some (.switch .strict)
  | 'h' => some .help
  | 'V' => some .version
  | _ => none

/-- What a command line asks for. -/
structure Arguments where
  /-- The file that holds the code. -/
  input : Option String := none
  /-- The code itself, in hexadecimal. -/
  hex : Option String := none
  /-- The file to write the listing to. -/
  output : Option String := none
  /-- The settings file. -/
  config : Option String := none
  strict : Bool := false
  noHash : Bool := false
deriving DecidableEq, Repr

namespace Arguments

def value? (arguments : Arguments) : ValueOption → Option String
  | .input => arguments.input
  | .hex => arguments.hex
  | .output => arguments.output
  | .config => arguments.config

def setValue (arguments : Arguments) (option : ValueOption) (value : String) : Arguments :=
  match option with
  | .input => { arguments with input := some value }
  | .hex => { arguments with hex := some value }
  | .output => { arguments with output := some value }
  | .config => { arguments with config := some value }

def isSet (arguments : Arguments) : Switch → Bool
  | .strict => arguments.strict
  | .noHash => arguments.noHash

def set (arguments : Arguments) : Switch → Arguments
  | .strict => { arguments with strict := true }
  | .noHash => { arguments with noHash := true }

end Arguments

/-- Why a command line does not lead to a run. -/
inductive Refusal where
  /-- Neither a file nor hexadecimal code is given. -/
  | missingRequiredArgument
  /-- An option lacks its value, or the value is an empty path. -/
  | invalidValue
  /-- An option is given twice, or two that exclude each other. -/
  | argumentConflict
  /-- A value is given to a switch. -/
  | tooManyValues
  /-- Something is no option and no value of one. -/
  | unknownArgument
  /-- Help is asked for. -/
  | displayHelp
  /-- The version is asked for. -/
  | displayVersion
deriving DecidableEq, Repr

namespace Refusal

def helpText : String :=
  "Disassemble EVM bytecode\n" ++
  "\n" ++
  "Usage: disassembler [OPTIONS]\n" ++
  "\n" ++
  "Options:\n" ++
  "  -i, --input <INPUT>    file with raw or hex-encoded code\n" ++
  "      --hex <HEX>        hex-encoded code given directly\n" ++
  "  -o, --output <OUTPUT>  write a YAML listing here\n" ++
  "  -s, --strict           fail on unrecognized opcodes\n" ++
  "  -c, --config <CONFIG>  \n" ++
  "      --no-hash          do not print the code hash\n" ++
  "  -h, --help             Print help\n" ++
  "  -V, --version          Print version\n"

def versionText : String :=
  "disassembler 0.1.0\n"

def text? : Refusal → Option String
  | displayHelp => some helpText
  | displayVersion => some versionText
  | _ => none

def exitCode : Refusal → Nat
  | displayHelp | displayVersion => 0
  | _ => 2

def message : Refusal → String
  | missingRequiredArgument => "one of --input and --hex is required"
  | invalidValue => "an option has no value, or an empty path for one"
  | argumentConflict => "an option is given twice, or --input together with --hex"
  | tooManyValues => "an option that takes no value has one"
  | unknownArgument => "an argument is no option and no value of one"
  | displayHelp | displayVersion => ""

end Refusal

end EvmDisasm.CommandLine
