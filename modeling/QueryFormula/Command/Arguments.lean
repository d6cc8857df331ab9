import QueryFormula.Command.Basic

/-!
# Command lines

A command line names a command and gives its operand and its options.  An option is written by its
full name or by its letter, and its value follows or is attached.  What begins with a minus is an
option, unless it is the minus alone or stands after two minuses.
-/

namespace QueryFormula

/-- The name of a file. -/
structure FileName where
  path : String
deriving Repr, DecidableEq

/-- An option of a command: its name, its letter, and whether it has a value. -/
structure OptionSpec where
  name : String
  letter : Option Char
  hasValue : Bool
deriving Repr, DecidableEq

/-- The arguments of a command: its operands, and its options with their values, empty where the
option has none. -/
structure Arguments where
  operands : List String
  options : List (String × String)
deriving Repr, DecidableEq

namespace Arguments

/-- The arguments with one more option, which may not be there already. -/
def addOption (args : Arguments) (name value : String) : Option Arguments :=
  if args.options.any (·.1 == name) then none
  else some { args with options := args.options ++ [(name, value)] }

/-- The value of an option, if it is given. -/
def value? (args : Arguments) (name : String) : Option String :=
  args.options.lookup name

/-- Whether an option is given. -/
def has (args : Arguments) (name : String) : Bool :=
  (args.value? name).isSome

/-- Whether an argument is written as an option. -/
def looksLikeOption (argument : List Char) : Bool :=
  match argument with
  | '-' :: _ :: _ => true
  | _ => false

/-- The options that are written as letters in one argument.  An option with a value takes the rest
of the argument, or is left waiting for the next one. -/
def readLetters (specs : List OptionSpec) (args : Arguments) :
    List Char → Option (Arguments × Option OptionSpec)
  | [] => some (args, none)
  | c :: rest => do
    let spec ← specs.find? (·.letter == some c)
    if spec.hasValue then
      match rest with
      | [] => return (args, some spec)
      | '=' :: value => return (← args.addOption spec.name (String.ofList value), none)
      | value => return (← args.addOption spec.name (String.ofList value), none)
    else readLetters specs (← args.addOption spec.name "") rest

/-- The option that is written by its name, perhaps with its value after an equals sign; without it
an option with a value is left waiting for the next argument. -/
def readName (specs : List OptionSpec) (args : Arguments) (written : List Char) :
    Option (Arguments × Option OptionSpec) := do
  let name := String.ofList (written.takeWhile (· != '='))
  let spec ← specs.find? (·.name == name)
  match written.dropWhile (· != '='), spec.hasValue with
  | _ :: value, true => return (← args.addOption name (String.ofList value), none)
  | _ :: _, false => none
  | [], true => return (args, some spec)
  | [], false => return (← args.addOption name "", none)

/-- The arguments of a command with the given options, none when they are not as they should be. -/
def read (specs : List OptionSpec) (args : Arguments) : List String → Option Arguments
  | [] => some args
  | argument :: rest =>
    match argument.toList with
    | ['-', '-'] => some { args with operands := args.operands ++ rest }
    | '-' :: c :: written => do
      let (args, waiting) ←
        if c = '-' then readName specs args written else readLetters specs args (c :: written)
      match waiting, rest with
      | none, rest => read specs args rest
      | some _, [] => none
      | some spec, value :: rest =>
        if looksLikeOption value.toList then none
        else do
          let args ← args.addOption spec.name value
          read specs args rest
    | _ => read specs { args with operands := args.operands ++ [argument] } rest

/-- The only operand, none when there is another number of them. -/
def operand? (args : Arguments) : Option String :=
  match args.operands with
  | [operand] => some operand
  | _ => none

end Arguments

namespace Command

/-- The option for the quoting style. -/
def styleOption : OptionSpec := ⟨"style", some 's', true⟩

/-- The option for the document of the dialect. -/
def dialectOption : OptionSpec := ⟨"config", some 'c', true⟩

/-- The options of the commands on a clause. -/
def clauseOptions : List OptionSpec :=
  [⟨"input", some 'i', true⟩, ⟨"metadata", some 'm', true⟩, dialectOption]

/-- The input of a command on a clause. -/
def clauseInput (args : Arguments) : Option (ClauseInput FileName) :=
  if args.operands.isEmpty then
    some ⟨args.value? "input", (args.value? "metadata").map .mk, (args.value? "config").map .mk⟩
  else none

/-- The command of a command line, none when the line is not as it should be. -/
def ofArguments : List String → Option (Command FileName)
  | "quote" :: rest => do
    let args ← Arguments.read [styleOption] ⟨[], []⟩ rest
    return .quote (← args.operand?) ((args.value? "style").getD "\"")
  | "unquote" :: rest => do
    let args ← Arguments.read [] ⟨[], []⟩ rest
    return .unquote (← args.operand?)
  | "identifier" :: rest => do
    let args ← Arguments.read
      [styleOption, ⟨"allow-bare", none, false⟩, dialectOption] ⟨[], []⟩ rest
    return .identifier (← args.operand?) (args.value? "style") (args.has "allow-bare")
      ((args.value? "config").map .mk)
  | "classify" :: rest => do
    let args ← Arguments.read clauseOptions ⟨[], []⟩ rest
    return .classify (← clauseInput args)
  | "format" :: rest => do
    let args ← Arguments.read clauseOptions ⟨[], []⟩ rest
    return .format (← clauseInput args)
  | "tokenize" :: rest => do
    let args ← Arguments.read [⟨"pretty", some 'p', false⟩] ⟨[], []⟩ rest
    return .tokenize (← args.operand?) (args.has "pretty")
  | _ => none

end Command
end QueryFormula
