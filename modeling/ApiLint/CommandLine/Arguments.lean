import ApiLint.CommandLine.Command
import ApiLint.CommandLine.Environment
import ApiLint.CommandLine.Opt
import ApiLint.Text.CharClass
set_option autoImplicit false

/-!
# Reading a command line

Words are read from left to right.  Options of the program stand before the command,
those of the command behind it.  An option is a long name behind two dashes or a
letter behind one; several letters may share a dash.  A value follows its option as
the next word, behind `=`, or right behind its letter.  Two dashes alone end the options.
Asking for help or for the version counts at once, when it is reached.
-/

namespace ApiLint.CommandLine

/-! ## Faults -/

/-- Why a command line cannot be used. -/
inductive UsageFault where
  | unknownOption (text : String)
  /-- a value for an option that takes none -/
  | unexpectedValue (option : Opt)
  | missingValue (option : Opt)
  | invalidValue (option : Opt) (value : String)
  | repeatedOption (option : Opt)
  /-- an operand where there are none -/
  | unexpectedOperand (text : String)
  | unknownCommand (text : String)
  | missingCommand
  deriving DecidableEq, Repr, Inhabited

/-- The message of a fault. -/
def UsageFault.message : UsageFault → String
  | unknownOption text => "unknown option " ++ text
  | unexpectedValue option => "--" ++ option.long ++ " takes no value"
  | missingValue option => "--" ++ option.long ++ " needs a value"
  | invalidValue option value => "--" ++ option.long ++ " cannot be '" ++ value ++ "'"
  | repeatedOption option => "--" ++ option.long ++ " is given twice"
  | unexpectedOperand text => "unexpected argument " ++ text
  | unknownCommand text => "unknown command " ++ text
  | missingCommand => "a command is needed"

/-- Why no command is to be run. -/
inductive Stop where
  | fault (fault : UsageFault)
  /-- help is asked for, at length or in short -/
  | help (topic : Scope) (atLength : Bool)
  | version
  deriving DecidableEq, Repr, Inhabited

/-! ## What a scope is given -/

/-- The options and operands of a scope. -/
structure Given where
  /-- the options without a value -/
  flags : List Opt := []
  /-- the options with their values, in order -/
  values : List (Opt × String) := []
  operands : List String := []
  deriving DecidableEq, Repr, Inhabited

namespace Given

/-- An option without a value is given. -/
def has (given : Given) (option : Opt) : Bool := given.flags.contains option

/-- The values of an option. -/
def valuesOf (given : Given) (option : Opt) : List String :=
  (given.values.filter (·.1 = option)).map Prod.snd

/-- The value of an option, if it is given. -/
def value? (given : Given) (option : Opt) : Option String := (given.valuesOf option).head?

/-- Adds an option without a value. -/
def addFlag (given : Given) (scope : Scope) (option : Opt) (atLength : Bool) :
    Except Stop Given :=
  match option with
  | .help => .error (.help scope atLength)
  | .version => .error .version
  | option =>
    if given.has option then .error (.fault (.repeatedOption option))
    else .ok { given with flags := given.flags ++ [option] }

/-- Adds an option with its value. -/
def addValue (given : Given) (option : Opt) (value : String) : Except Stop Given :=
  if !option.accepts value then .error (.fault (.invalidValue option value))
  else if !option.isRepeatable && (given.value? option).isSome then
    .error (.fault (.repeatedOption option))
  else .ok { given with values := given.values ++ [(option, value)] }

/-- Adds operands. -/
def addOperands (given : Given) (scope : Scope) (words : List String) : Except Stop Given :=
  match words with
  | [] => .ok given
  | word :: _ =>
    if scope.takesOperands then .ok { given with operands := given.operands ++ words }
    else .error (.fault (.unexpectedOperand word))

end Given

/-! ## Words -/

/-- A word that is read as options: it begins with a dash and is more than that. -/
def isOptionWord (word : List Char) : Bool :=
  match word with
  | '-' :: _ :: _ => true
  | _ => false

/-- Reads the letters behind a dash; an option at the end may be waiting for its value. -/
def readLetters (scope : Scope) (given : Given) :
    List Char → Except Stop (Given × Option Opt)
  | [] => .ok (given, none)
  | letter :: rest =>
    match scope.withShort? letter with
    | none => .error (.fault (.unknownOption (String.ofList ['-', letter])))
    | some option =>
      if option.takesValue then
        match rest with
        | [] => .ok (given, some option)
        | '=' :: value => (given.addValue option (String.ofList value)).map fun given => (given, none)
        | value => (given.addValue option (String.ofList value)).map fun given => (given, none)
      else do
        let given ← given.addFlag scope option false
        readLetters scope given rest

/-- Reads what stands behind two dashes; the option may be waiting for its value. -/
def readLong (scope : Scope) (given : Given) (text : List Char) :
    Except Stop (Given × Option Opt) :=
  let name := String.ofList (text.takeWhile (· ≠ '='))
  match scope.withLong? name with
  | none => .error (.fault (.unknownOption ("--" ++ name)))
  | some option =>
    match text.dropWhile (· ≠ '='), option.takesValue with
    | [], true => .ok (given, some option)
    | [], false => (given.addFlag scope option true).map fun given => (given, none)
    | _ :: value, true =>
      (given.addValue option (String.ofList value)).map fun given => (given, none)
    | _ :: _, false => .error (.fault (.unexpectedValue option))

/-- Reads a word of options. -/
def readOptions (scope : Scope) (given : Given) (word : List Char) :
    Except Stop (Given × Option Opt) :=
  match word with
  | '-' :: '-' :: text => readLong scope given text
  | word => readLetters scope given (word.drop 1)

/-- Reads the words of a scope; `waiting` is the option that waits for its value.  In the scope
of the program the first operand is the command, and is left with all behind it. -/
def readWords (scope : Scope) (given : Given) (waiting : Option Opt) :
    List String → Except Stop (Given × List String)
  | [] =>
    match waiting with
    | some option => .error (.fault (.missingValue option))
    | none => .ok (given, [])
  | word :: words =>
    match waiting with
    | some option =>
      if isOptionWord word.toList then .error (.fault (.missingValue option))
      else do
        let given ← given.addValue option word
        readWords scope given none words
    | none =>
      if word = "--" then (given.addOperands scope words).map fun given => (given, [])
      else if isOptionWord word.toList then do
        let (given, waiting) ← readOptions scope given word.toList
        readWords scope given waiting words
      else if scope = .program then .ok (given, word :: words)
      else do
        let given ← given.addOperands scope [word]
        readWords scope given none words

/-! ## Whole command lines -/

/-- The topic that help is asked for by the words behind the command `help`. -/
def helpTopic : List String → Stop
  | [] => .help .program true
  | word :: rest =>
    match Scope.command? word, rest with
    | none, _ => .fault (.unknownCommand word)
    | some topic, [] => .help topic true
    | some _, next :: _ => .fault (.unknownCommand next)

/-- The configuration file that is asked for: behind the command, before it, or by the
environment, whose value is checked as soon as a scope has none of its own. -/
def askedConfig (outer inner : Given) (env : Environment) : Except Stop (Option String) :=
  match outer.value? .config, inner.value? .config, env.get? Environment.configFile with
  | some _, some file, _ => .ok (some file)
  | outerFile, innerFile, some file =>
    if (Opt.config).accepts file then .ok ((innerFile.or outerFile).or (some file))
    else .error (.fault (.invalidValue .config file))
  | outerFile, innerFile, none => .ok (innerFile.or outerFile)

/-- The options of a check. -/
def checkOptions (given : Given) : CheckOptions :=
  { files := given.operands
    form := ((given.value? .format).bind OutputForm.ofName?).getD .text
    rules := given.value? .rules
    preset := given.value? .preset
    excludes := given.valuesOf .exclude
    failOnParseError := given.has .failOnParseError }

/-- The command of a scope. -/
def commandOf (scope : Scope) (given : Given) : Command :=
  match scope with
  | .listRules => .listRules
  | .init => .init (given.has .force)
  | _ => .check (checkOptions given)

/-- Reads a command line. -/
def readArguments (env : Environment) (args : List String) : Except Stop Invocation := do
  let (outer, rest) ← readWords .program {} none args
  match rest with
  | [] => .error (.fault .missingCommand)
  | word :: words =>
    match Scope.command? word with
    | none => .error (.fault (.unknownCommand word))
    | some .help => .error (helpTopic words)
    | some scope =>
      let (inner, _) ← readWords scope {} none words
      let configFile ← askedConfig outer inner env
      .ok { configFile, command := commandOf scope inner }

/-! ## Lemmas -/

/-- What stands behind two dashes alone is never an option. -/
theorem readWords_dashes (given : Given) (words : List String) :
    readWords .check given none ("--" :: words) =
      .ok ({ given with operands := given.operands ++ words }, []) := by
  cases words <;> simp [readWords, Given.addOperands, Scope.takesOperands, Except.map]

end ApiLint.CommandLine
