/-!
# Log records

What the program reports while it works, beside its results. A record has a level, and a filter
lets the records of some levels through.
-/

namespace EvmDisasm.Log

/-- How serious a record is. -/
inductive Level where
  | error | warn | info | debug | trace
deriving DecidableEq, Repr

/-- The place of the level among the levels, the most serious first. -/
def Level.rank : Level → Nat
  | .error => 1
  | .warn => 2
  | .info => 3
  | .debug => 4
  | .trace => 5

def Level.name : Level → String
  | .error => "ERROR"
  | .warn => "WARN"
  | .info => "INFO"
  | .debug => "DEBUG"
  | .trace => "TRACE"

structure Record where
  level : Level
  message : String
deriving DecidableEq, Repr

/-- Which records to show: none, or those of a level and of every more serious one. -/
inductive Filter where
  | off
  | upTo (level : Level)
deriving DecidableEq, Repr

namespace Filter

def admits : Filter → Level → Bool
  | off, _ => false
  | upTo most, level => level.rank ≤ most.rank

def select (filter : Filter) (records : List Record) : List Record :=
  records.filter fun r => filter.admits r.level

def name : Filter → String
  | off => "OFF"
  | upTo level => level.name

def all : List Filter :=
  [off, upTo .error, upTo .warn, upTo .info, upTo .debug, upTo .trace]

/-- The filter with the given name. The case of ASCII letters does not matter. -/
def ofName? (text : String) : Option Filter :=
  all.find? fun filter => filter.name.toList == text.toList.map Char.toUpper

end Filter

/-- A result together with the records made on the way to it, in order. -/
structure Logged (α : Type) where
  value : α
  records : List Record

end EvmDisasm.Log
