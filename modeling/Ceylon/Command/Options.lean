import Ceylon.Text.Csv
import Ceylon.Text.Quoted

/-!
# Command-line options

Options are long (`--name`, `--name=value`, `--name value`) or short (`-n`, `-nvalue`, `-n=value`,
`-n value`); short switches may stand together.  Options may stand before, between and behind the other
arguments; `--` ends them.  Every command has an option for its help.
-/

namespace Ceylon.Command

/-- What an option takes. -/
inductive OptionKind where
  /-- A truth value, which may be left out. -/
  | switch
  /-- A text. -/
  | word
  /-- Texts between commas; several such options add up. -/
  | words
deriving DecidableEq, Repr, Inhabited

/-- An option of a command. -/
structure OptionSpec where
  name : String
  short : Option Char := none
  kind : OptionKind
deriving DecidableEq, Repr, Inhabited

/-- What an option was given. -/
inductive OptionValue where
  | switch (on : Bool)
  | word (s : String)
  | words (ss : List String)
deriving DecidableEq, Repr, Inhabited

/-- What is wrong with the arguments of a command. -/
inductive UsageError where
  | badSyntax (argument : String)
  | unknownOption (name : String)
  | unknownShort (letter : Char) (group : String)
  | missingValue (argument : String)
  | missingShortValue (letter : Char) (group : String)
  | invalidValue (value option reason : String)
  | tooManyArguments (limit given : Nat)
deriving DecidableEq, Repr

/-- The wording of the error. -/
def UsageError.message : UsageError → String
  | .badSyntax argument => "bad flag syntax: " ++ argument
  | .unknownOption name => "unknown flag: --" ++ name
  | .unknownShort letter group =>
    "unknown shorthand flag: " ++ Text.quoteChar letter ++ " in -" ++ group
  | .missingValue argument => "flag needs an argument: " ++ argument
  | .missingShortValue letter group =>
    "flag needs an argument: " ++ Text.quoteChar letter ++ " in -" ++ group
  | .invalidValue value option reason =>
    "invalid argument " ++ Text.quote value ++ " for " ++ Text.quote option ++ " flag: " ++ reason
  | .tooManyArguments limit given =>
    "accepts at most " ++ toString limit ++ " arg(s), received " ++ toString given

/-! ## Values -/

/-- The truth value that a word stands for. -/
def truth? (s : String) : Option Bool :=
  if ["1", "t", "T", "TRUE", "true", "True"].contains s then some true
  else if ["0", "f", "F", "FALSE", "false", "False"].contains s then some false
  else none

/-- The items of a list between commas; an empty text has none. -/
def splitList (s : String) : Except Text.Csv.Fault (List String) :=
  if s.isEmpty then .ok [] else Text.Csv.record s

/-- The name of an option as messages show it. -/
def OptionSpec.shown (o : OptionSpec) : String :=
  match o.short with
  | none => "--" ++ o.name
  | some c => "-" ++ String.singleton c ++ ", --" ++ o.name

/-- Reads the value of an option. -/
def OptionSpec.read (o : OptionSpec) (value : String) : Except UsageError OptionValue :=
  match o.kind with
  | .word => .ok (.word value)
  | .switch =>
    match truth? value with
    | some on => .ok (.switch on)
    | none =>
      .error (.invalidValue value o.shown
        ("strconv.ParseBool: parsing " ++ Text.quote value ++ ": invalid syntax"))
  | .words =>
    match splitList value with
    | .ok items => .ok (.words items)
    | .error fault => .error (.invalidValue value o.shown fault.message)

/-! ## Arguments -/

/-- Arguments that have been read: options in the order in which they were given, and the rest. -/
structure Arguments where
  options : List (String × OptionValue) := []
  operands : List String := []
deriving DecidableEq, Repr, Inhabited

namespace Arguments

/-- Adds options before the others. -/
def addOptions (a : Arguments) (options : List (String × OptionValue)) : Arguments :=
  { a with options := options ++ a.options }

/-- Whether a switch is on: the last time it is given counts. -/
def switch (a : Arguments) (name : String) : Bool :=
  (a.options.filterMap fun
    | (n, .switch on) => if n = name then some on else none
    | _ => none).getLastD false

/-- The text given to an option: the last one counts. -/
def word (a : Arguments) (name usual : String) : String :=
  (a.options.filterMap fun
    | (n, .word s) => if n = name then some s else none
    | _ => none).getLastD usual

/-- The texts given to an option, all together. -/
def words (a : Arguments) (name : String) : List String :=
  (a.options.filterMap fun
    | (n, .words ss) => if n = name then some ss else none
    | _ => none).flatten

end Arguments

/-- Splits a text at its first equals sign. -/
def splitAssignment (cs : List Char) : String × Option String :=
  (String.ofList (cs.takeWhile (· ≠ '=')),
    match cs.dropWhile (· ≠ '=') with
    | [] => none
    | _ :: value => some (String.ofList value))

/-- The first byte of a character, as a character of its own. -/
def leadByte (c : Char) : Char :=
  Char.ofNat ((String.singleton c).toUTF8.toList.headD 0).toNat

/-- What an argument is, apart from the value that may follow it. -/
structure Piece where
  /-- The options it sets, with their values. -/
  complete : List (OptionSpec × String) := []
  /-- An option whose value is the next argument, and what is wrong if there is none. -/
  incomplete : Option (OptionSpec × UsageError) := none
deriving Repr

/-- Reads an argument that begins with two hyphens; `argument` is all of it. -/
def longPiece (specs : List OptionSpec) (argument : String) (body : List Char) :
    Except UsageError Piece :=
  match body with
  | '-' :: _ => .error (.badSyntax argument)
  | '=' :: _ => .error (.badSyntax argument)
  | _ =>
    let (name, value) := splitAssignment body
    match specs.find? (·.name == name) with
    | none => .error (.unknownOption name)
    | some o =>
      match value, o.kind with
      | some value, _ => .ok { complete := [(o, value)] }
      | none, .switch => .ok { complete := [(o, "true")] }
      | none, _ => .ok { incomplete := some (o, .missingValue argument) }

/-- Reads the letters of an argument that begins with one hyphen. -/
def shortPiece (specs : List OptionSpec) : List Char → Except UsageError Piece
  | [] => .ok {}
  | letter :: rest =>
    let group := String.ofList (letter :: rest)
    match specs.find? (·.short == some letter) with
    | none => .error (.unknownShort (leadByte letter) group)
    | some o =>
      match rest, o.kind with
      | '=' :: c :: cs, _ => .ok { complete := [(o, String.ofList (c :: cs))] }
      | rest, .switch => do
        let p ← shortPiece specs rest
        return { p with complete := (o, "true") :: p.complete }
      | [], _ => .ok { incomplete := some (o, .missingShortValue letter group) }
      | cs, _ => .ok { complete := [(o, String.ofList cs)] }

/-- Letters behind one hyphen that are left to the tools that run tests. -/
def isForTests (letters : List Char) : Bool :=
  "test.".toList.isPrefixOf letters

/-- Reads an argument that is an option; any other is none. -/
def piece? (specs : List OptionSpec) (argument : String) : Except UsageError (Option Piece) :=
  match argument.toList with
  | '-' :: '-' :: body => some <$> longPiece specs argument body
  | '-' :: c :: letters =>
    if isForTests (c :: letters) then .ok (some {}) else some <$> shortPiece specs (c :: letters)
  | _ => .ok none

/-- Reads the values of options. -/
def readValues (pairs : List (OptionSpec × String)) : Except UsageError (List (String × OptionValue)) :=
  pairs.mapM fun (o, value) => do return (o.name, ← o.read value)

/-- The option for help that every command has. -/
def helpOption : OptionSpec :=
  { name := "help", short := some 'h', kind := .switch }

/-- Reads arguments by the options that are known. -/
def readKnown (specs : List OptionSpec) : List String → Except UsageError Arguments
  | [] => .ok {}
  | "--" :: more => .ok { operands := more }
  | argument :: more => do
    match ← piece? specs argument with
    | none =>
      let a ← readKnown specs more
      return { a with operands := argument :: a.operands }
    | some p =>
      let own ← readValues p.complete
      match p.incomplete, more with
      | none, more => return (← readKnown specs more).addOptions own
      | some (_, ifMissing), [] => throw ifMissing
      | some (o, _), value :: more =>
        let last ← readValues [(o, value)]
        return (← readKnown specs more).addOptions (own ++ last)

/-- Reads the arguments of a command. -/
def readArguments (specs : List OptionSpec) (arguments : List String) : Except UsageError Arguments :=
  readKnown (specs ++ [helpOption]) arguments

end Ceylon.Command
