import DeviceBatch.Text.Blank

/-!
# Logging settings
-/

namespace DeviceBatch

/-- The form of log lines. -/
inductive LogFormat where
  | json
  | pretty
  | compact
  deriving DecidableEq, Repr

namespace LogFormat

def all : List LogFormat := [json, pretty, compact]

def name : LogFormat → String
  | json => "json"
  | pretty => "pretty"
  | compact => "compact"

/-- The format of exactly that name. -/
def ofName? (name : String) : Option LogFormat := all.find? fun f => f.name == name

/-- The format that a user means: blanks around the name and the case of its letters are ignored. -/
def parse? (text : String) : Option LogFormat := ofName? (Text.trim text).toLower

end LogFormat

/-- How the library logs. -/
structure LogSettings where
  format : LogFormat := .json
  /-- The filter directives. -/
  level : String := "info"
  /-- The file that log lines go to; if there is none they go to the standard error stream. -/
  outputPath : Option String := none
  deriving DecidableEq, Repr

end DeviceBatch
