import HeaderSearch.CommandLine.Options
import HeaderSearch.Table

/-!
# Reading the arguments

Arguments are read from left to right. An option takes what is attached to it, or the next argument
if that does not look like an option. What was given is checked when the next option or positional
argument begins, or at the end, so an argument that is not understood is reported before the value in
front of it is checked. After `--` nothing is an option.
-/

namespace HeaderSearch.CommandLine

/-- Why arguments are no command, or that something else than a command was asked for. -/
inductive UsageError where
  /-- Help was asked for. -/
  | helpWanted
  /-- The version was asked for. -/
  | versionWanted
  /-- Nothing at all was given. -/
  | nothingGiven
  /-- Options were given, but no command. -/
  | missingCommand
  /-- A command lacks a positional argument. -/
  | missingArgument
  /-- An argument is not understood. -/
  | unknownArgument (text : String)
  /-- A word is no command. -/
  | unknownCommand (word : String)
  /-- A value is missing, or is an empty path. -/
  | invalidValue (setting : Setting)
  /-- Something that may be given once is given again. -/
  | repeatedOption (setting : Setting)
  /-- A value is attached to an option that takes none. -/
  | unexpectedValue (setting : Setting)
deriving DecidableEq, Repr

/-- What was given on a level so far. -/
structure Reading where
  /-- The values of each setting, in order. -/
  given : Table Setting (List String) := .empty
  /-- What is being given, with its value if that is there already. -/
  pending : Option (Argument × Option String) := none

namespace Reading

/-- Takes the values of an argument in. -/
def take (reading : Reading) (argument : Argument) (values : List String) :
    Except UsageError Reading :=
  let before := reading.given.get? argument.setting
  if before.isSome ∧ argument.form ≠ .repeated then .error (.repeatedOption argument.setting)
  else if argument.isPath ∧ values.contains "" then .error (.invalidValue argument.setting)
  else .ok { reading with given := reading.given.insert argument.setting (before.getD [] ++ values) }

/-- Takes in what is being given. Without a value that is an error. -/
def settle (reading : Reading) : Except UsageError Reading :=
  match reading.pending with
  | none => .ok reading
  | some (argument, none) => .error (.invalidValue argument.setting)
  | some (argument, some value) => { reading with pending := none }.take argument [value]

/-- Whether an option waits for its value. -/
def awaitsValue (reading : Reading) : Bool :=
  match reading.pending with
  | some (_, none) => true
  | _ => false

/-- Gives the option that waits for it its value. -/
def giveValue (reading : Reading) (value : String) : Reading :=
  { reading with pending := reading.pending.map fun (argument, _) => (argument, some value) }

/-- What an option that ends the reading asks for. -/
def endingOf (setting : Setting) : UsageError :=
  if setting = .version then .versionWanted else .helpWanted

/-- Begins an option, with the value that is attached to it if there is one. -/
def begin (reading : Reading) (option : Argument) (attached : Option String) :
    Except UsageError Reading := do
  let reading ← reading.settle
  match option.form, attached with
  | .switch, _ => reading.take option []
  | .ending, _ => throw (endingOf option.setting)
  | _, some value => reading.take option [value]
  | _, none => return { reading with pending := some (option, none) }

/-- Reads an argument that starts with two hyphens, given what follows these. -/
def readLong (level : Level) (reading : Reading) (text : String) : Except UsageError Reading :=
  let (name, attached) := match Text.splitFirst '=' text.toList with
    | some (name, value) => (String.ofList name, some (String.ofList value))
    | none => (text, none)
  match level.byName? name with
  | none => .error (.unknownArgument text)
  | some option =>
    if (option.form = .switch ∨ option.form = .ending) ∧ attached.isSome then
      .error (.unexpectedValue option.setting)
    else reading.begin option attached

/-- The value that the letters after an option's letter are, with one `=` in front taken off. Without
    letters there is no value. -/
def attachedValue? (letters : List Char) : Option String :=
  match letters with
  | [] => none
  | '=' :: rest => some (String.ofList rest)
  | _ => some (String.ofList letters)

/-- Reads the letters after a single hyphen. Switches may share the hyphen, and the last option may
    have its value attached. -/
def readShort (level : Level) (reading : Reading) : List Char → Except UsageError Reading
  | [] => .ok reading
  | letter :: rest =>
    match level.byLetter? letter with
    | none => .error (.unknownArgument (String.ofList ['-', letter]))
    | some option =>
      if option.form = .switch ∨ option.form = .ending then do
        let reading ← reading.begin option none
        readShort level reading rest
      else reading.begin option (attachedValue? rest)

/-- Whether a level still takes a positional argument. -/
def takesMore (reading : Reading) (argument : Argument) : Bool :=
  argument.form = .repeated ||
    !(reading.given.contains argument.setting ||
      reading.pending.any fun item => item.1.setting = argument.setting)

/-- Reads a positional argument. -/
def readPositional (level : Level) (reading : Reading) (text : String) :
    Except UsageError Reading :=
  match level.positional? with
  | some argument =>
    if reading.takesMore argument then do
      let reading ← reading.settle
      return { reading with pending := some (argument, some text) }
    else .error (.unknownArgument text)
  | none => .error (if level = none then .unknownCommand text else .unknownArgument text)

/-- Reads the arguments after `--`. The name of a command is not understood there. -/
def readTrailing (level : Level) (reading : Reading) (texts : List String) :
    Except UsageError Reading :=
  texts.foldlM
    (fun reading text =>
      if level = none ∧ isCommandWord text then .error (.unknownArgument text)
      else reading.readPositional level text)
    reading

/-- What an argument looks like. -/
inductive Shape where
  /-- It ends the options. -/
  | terminator
  /-- It has two hyphens, followed by this text. -/
  | long (text : String)
  /-- It has one hyphen, followed by these letters. -/
  | short (letters : List Char)
  /-- It is no option. -/
  | plain

/-- The shape of an argument. A hyphen alone is no option. -/
def shapeOf (text : String) : Shape :=
  match text.toList with
  | ['-', '-'] => .terminator
  | '-' :: '-' :: rest => .long (String.ofList rest)
  | '-' :: letter :: rest => .short (letter :: rest)
  | _ => .plain

/-- Reads the arguments of a level. On the first level the reading stops at a word that stands in the
    place of a command, and gives the word and what follows it. -/
def readAll (level : Level) (reading : Reading) :
    List String → Except UsageError (Reading × Option (String × List String))
  | [] => .ok (reading, none)
  | text :: rest =>
    if level = none ∧ !reading.awaitsValue ∧ isCommandWord text then
      .ok (reading, some (text, rest))
    else
      match shapeOf text with
      | .terminator => do
        let reading ← readTrailing level reading rest
        return (reading, none)
      | .long name => do
        let reading ← reading.readLong level name
        readAll level reading rest
      | .short letters => do
        let reading ← reading.readShort level letters
        readAll level reading rest
      | .plain =>
        if reading.awaitsValue then readAll level (reading.giveValue text) rest
        else do
          let reading ← reading.readPositional level text
          readAll level reading rest

end Reading

end HeaderSearch.CommandLine
