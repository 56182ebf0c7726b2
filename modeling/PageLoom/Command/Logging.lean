import PageLoom.Text.Basic

/-!
# Logging levels

How much a run reports about itself. The level of the environment counts first, then the one asked
for; levels go by their names in letters of any size, and what is no level is the usual one.
-/

namespace PageLoom.Command

inductive LogLevel where
  | critical
  | error
  | warning
  | info
  | debug
deriving Repr, DecidableEq

namespace LogLevel

def name : LogLevel → Text
  | critical => "CRITICAL".toList
  | error => "ERROR".toList
  | warning => "WARNING".toList
  | info => "INFO".toList
  | debug => "DEBUG".toList

def levels : List LogLevel := [critical, error, warning, info, debug]

/-- The capital of a letter in the names of levels; the i without a dot has the same as i. -/
def capital (c : Char) : Char :=
  if 'a' ≤ c && c ≤ 'z' then Char.ofNat (c.toNat - 32)
  else if c = 'ı' then 'I'
  else c

def ofName (text : Text) : LogLevel :=
  (levels.find? fun level => level.name = text.map capital).getD warning

/-- The level to log at. An empty name asks for nothing. -/
def chosen (environment asked : Option Text) (verbose : Bool) : LogLevel :=
  match environment.or (asked.filter fun name => !name.isEmpty) with
  | some name => ofName name
  | none => if verbose then debug else warning

end LogLevel

end PageLoom.Command
