import Ceylon.Analysis.State
import Ceylon.Text.Quoted

/-!
# The log of an analysis

The steps of an analysis as lines of keys and values.  A value is quoted unless it consists of letters,
digits and a few marks only.
-/

namespace Ceylon.Analysis

/-- Whether a character stands in a value without quotes. -/
def isBare (c : Char) : Bool :=
  c.isAlphanum || c = '-' || c = '.' || c = '_' || c = '/' || c = '@' || c = '^' || c = '+'

/-- A value as it stands in the log. -/
def logValue (value : String) : String :=
  if value.toList.all isBare then value else Text.quote value

/-- A line of the log: how serious it is, what happened, and further keys with their values. -/
def logLine (level message : String) (fields : List (String × String)) : String :=
  "level=" ++ level ++ " msg=" ++ logValue message
    ++ String.join (fields.map fun (key, value) => " " ++ key ++ "=" ++ logValue value)

/-- An entry as a line of the log. -/
def LogEntry.text (e : LogEntry) : String :=
  logLine "debug" e.message [("phase", e.phase), ("unit", e.unit)]

end Ceylon.Analysis
