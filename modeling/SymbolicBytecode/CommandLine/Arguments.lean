/-!
# Arguments of the command line

`parse FILE...` shows class files, `init CLASS` initializes a class. The configuration file and the
directories of the classpath may be given before the command or after it. Where an option is given
in both places, the one after the command counts.
-/

namespace SymbolicBytecode.CommandLine

inductive Command where
  | parse (paths : List String)
  | init (className : String) (assumeInitialized : Bool)
  deriving DecidableEq, Repr

structure Options where
  config : Option String
  classpath : List String
  deriving DecidableEq, Repr

inductive Request where
  | version
  | help
  | run (options : Options) (command : Command)
  deriving DecidableEq, Repr

inductive UsageError where
  | unknownOption (arg : String)
  | unexpectedArgument (arg : String)
  | unknownCommand (name : String)
  | missingCommand
  | missingOperand
  | missingValue (option : String)
  | repeated (option : String)
  deriving DecidableEq, Repr

def UsageError.message : UsageError → String
  | unknownOption arg => "unknown option '" ++ arg ++ "'"
  | unexpectedArgument arg => "unexpected argument '" ++ arg ++ "'"
  | unknownCommand name => "unknown command '" ++ name ++ "'"
  | missingCommand => "no command is given"
  | missingOperand => "the command needs an operand"
  | missingValue option => "option '" ++ option ++ "' needs a value"
  | repeated option => "option '" ++ option ++ "' is given more than once"

/-- An option that takes a value. -/
inductive ValueOption where
  | config
  | classpath
  deriving DecidableEq, Repr

def ValueOption.name : ValueOption → String
  | config => "config"
  | classpath => "classpath"

/-- The form of one argument. -/
inductive Word where
  | operand (text : String)
  /-- Two dashes and a name, with what follows an equals sign. -/
  | long (name : String) (value : Option String)
  /-- One dash and a letter, with what follows them. -/
  | short (letter : Char) (attached : List Char)
  /-- Two dashes alone: only operands follow. -/
  | separator
  deriving DecidableEq, Repr

def Word.ofText (text : String) : Word :=
  match text.toList with
  | ['-', '-'] => .separator
  | '-' :: '-' :: rest =>
    let name := String.ofList (rest.takeWhile (· ≠ '='))
    match rest.dropWhile (· ≠ '=') with
    | [] => .long name none
    | _ :: value => .long name (some (String.ofList value))
  | '-' :: letter :: attached => .short letter attached
  | _ => .operand text

/-- What an argument asks for as an option. -/
inductive Choice where
  | value (option : ValueOption) (given : Option String)
  | version
  | help
  | assumeInitialized
  deriving DecidableEq, Repr

def Choice.ofWord? : Word → Option Choice
  | .long "config" given => some (.value .config given)
  | .long "classpath" given => some (.value .classpath given)
  | .long "version" none | .short 'V' _ => some .version
  | .long "help" none | .short 'h' _ => some .help
  | .long "assume-initialized" none => some .assumeInitialized
  | .short 'c' [] => some (.value .config none)
  | .short 'c' ('=' :: attached) => some (.value .config (some (String.ofList attached)))
  | .short 'c' attached => some (.value .config (some (String.ofList attached)))
  | _ => none

namespace Options

def empty : Options := ⟨none, []⟩

/-- Give a value to an option. The configuration can be given once, the classpath grows. -/
def give (o : Options) (option : ValueOption) (value : String) : Except UsageError Options :=
  if value = "" then .error (.missingValue option.name)
  else
    match option with
    | .classpath => .ok { o with classpath := o.classpath ++ [value] }
    | .config =>
      if o.config.isSome then .error (.repeated option.name)
      else .ok { o with config := some value }

/-- The options before a command together with those after it. -/
def followedBy (before after : Options) : Options where
  config := if after.config.isSome then after.config else before.config
  classpath := if after.classpath = [] then before.classpath else after.classpath

end Options

/-- What has been read of the arguments after a command. -/
structure Operands where
  options : Options
  operands : List String
  assumeInitialized : Bool
  deriving DecidableEq, Repr

inductive CommandName where
  | parse
  | init
  deriving DecidableEq, Repr

def CommandName.ofText? (text : String) : Option CommandName :=
  if text = "parse" then some .parse else if text = "init" then some .init else none

/-- Take one more operand: the name of a file is not empty, and only one class is initialized. -/
def Operands.add (o : Operands) (name : CommandName) (operand : String) :
    Except UsageError Operands :=
  match name with
  | .parse =>
    if operand = "" then .error .missingOperand
    else .ok { o with operands := o.operands ++ [operand] }
  | .init =>
    if o.operands ≠ [] then .error (.unexpectedArgument operand)
    else .ok { o with operands := [operand] }

def Operands.command (o : Operands) (name : CommandName) : Except UsageError Command :=
  match name, o.operands with
  | _, [] => .error .missingOperand
  | .parse, paths => .ok (.parse paths)
  | .init, className :: _ => .ok (.init className o.assumeInitialized)

/-- Read the arguments after a command. `expecting` is an option that still lacks its value. -/
def readOperands (name : CommandName) (before : Options) (o : Operands)
    (expecting : Option ValueOption) (separated : Bool) :
    List String → Except UsageError Request
  | [] =>
    match expecting with
    | some option => .error (.missingValue option.name)
    | none => do return .run (before.followedBy o.options) (← o.command name)
  | arg :: rest =>
    if separated then do
      readOperands name before (← o.add name arg) none true rest
    else
      match Word.ofText arg, expecting with
      | .operand value, some option => do
        readOperands name before { o with options := ← o.options.give option value } none false rest
      | _, some option => .error (.missingValue option.name)
      | .operand operand, none => do
        readOperands name before (← o.add name operand) none false rest
      | .separator, none => readOperands name before o none true rest
      | word, none =>
        match Choice.ofWord? word with
        | some (.value option none) => readOperands name before o (some option) false rest
        | some (.value option (some value)) => do
          readOperands name before { o with options := ← o.options.give option value } none false
            rest
        | some .help => .ok .help
        | some .assumeInitialized =>
          if name ≠ .init then .error (.unknownOption arg)
          else if o.assumeInitialized then .error (.repeated "assume-initialized")
          else readOperands name before { o with assumeInitialized := true } none false rest
        | some .version | none => .error (.unknownOption arg)

/-- Help can be asked for about one command. -/
def helpAbout : List String → Except UsageError Request
  | [] => .ok .help
  | [name] =>
    if name = "help" ∨ (CommandName.ofText? name).isSome then .ok .help
    else .error (.unknownCommand name)
  | _ :: arg :: _ => .error (.unexpectedArgument arg)

/-- Read the arguments up to the command and then those after it. -/
def readCommand (o : Options) (expecting : Option ValueOption) :
    List String → Except UsageError Request
  | [] =>
    match expecting with
    | some option => .error (.missingValue option.name)
    | none => .error .missingCommand
  | arg :: rest =>
    match Word.ofText arg, expecting with
    | .operand value, some option => do readCommand (← o.give option value) none rest
    | _, some option => .error (.missingValue option.name)
    | .operand text, none =>
      if text = "help" then helpAbout rest
      else
        match CommandName.ofText? text with
        | some name => readOperands name o ⟨.empty, [], false⟩ none false rest
        | none => .error (.unknownCommand text)
    | .separator, none => .error .missingCommand
    | word, none =>
      match Choice.ofWord? word with
      | some (.value option none) => readCommand o (some option) rest
      | some (.value option (some value)) => do readCommand (← o.give option value) none rest
      | some .help => .ok .help
      | some .version => .ok .version
      | some .assumeInitialized | none => .error (.unknownOption arg)

def Request.parse (args : List String) : Except UsageError Request := readCommand .empty none args

end SymbolicBytecode.CommandLine
