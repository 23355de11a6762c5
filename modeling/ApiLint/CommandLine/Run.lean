import ApiLint.CommandLine.Arguments
import ApiLint.CommandLine.Catalogue
import ApiLint.CommandLine.Check
import ApiLint.CommandLine.Help
import ApiLint.CommandLine.Starter
set_option autoImplicit false

/-!
# Running the program

A run takes the words of the command line, the environment and the files, and has an
outcome: what is printed, what is written, and how the program ends.
-/

namespace ApiLint.CommandLine

/-- The outcome of a run. -/
structure Outcome where
  /-- the exit status -/
  status : Nat := 0
  /-- what is printed -/
  output : String := ""
  /-- what is wrong with the command line -/
  usage : Option String := none
  /-- the message of the error that ended the run -/
  message : Option String := none
  /-- the code of the document fault that ended the run -/
  diagnostic : Option String := none
  /-- a file to write, with its name in the working directory and its text -/
  written : Option (String × String) := none
  deriving DecidableEq, Repr, Inhabited

/-- The exit status of a command line that cannot be used. -/
def usageStatus : Nat := 2

/-- The directory of the user's configuration: the one that the environment names, or a hidden
one in the home directory. -/
def userDirectory (env : Environment) : Option String :=
  match env.get? Environment.configDirectory, env.get? Environment.home with
  | some directory, home =>
    if directory.isEmpty then home.map fun home => FilePath.join home ".oas-lint"
    else some directory
  | none, home => home.map fun home => FilePath.join home ".oas-lint"

/-- The outcome where no command is run. -/
def stopOutcome (env : Environment) : Stop → Outcome
  | .fault fault => { status := usageStatus, usage := some fault.message }
  | .help topic atLength => { output := helpText env topic atLength }
  | .version => { output := versionText }

/-- The outcome of a check; a report is printed whether or not it fails the run. -/
def checkOutcome (form : OutputForm) (result : Except CheckFault CheckResult) : Outcome :=
  match result with
  | .ok found => { status := found.status, output := form.render found.report }
  | .error fault =>
    { status := fault.status, message := fault.message?, diagnostic := fault.diagnostic? }

/-- The outcome of writing a configuration file. -/
def starterOutcome : Except StarterFault String → Outcome
  | .ok text => { output := starterOutput, written := some (starterName, text) }
  | .error fault => { status := 1, message := some fault.message }

/-- Runs a command. -/
def runCommand (env : Environment) (fs : FileSystem) (invocation : Invocation) : Outcome :=
  match invocation.command with
  | .check options =>
    checkOutcome options.form
      (check (filesOf fs) (.find fs (userDirectory env) invocation.configFile) options)
  | .listRules => { output := catalogue }
  | .init force => starterOutcome (starter fs force)

/-- Runs the program. -/
def run (env : Environment) (fs : FileSystem) (args : List String) : Outcome :=
  match readArguments env args with
  | .ok invocation => runCommand env fs invocation
  | .error stop => stopOutcome env stop

end ApiLint.CommandLine
