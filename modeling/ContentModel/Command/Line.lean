import ContentModel.Command.Compile
import ContentModel.Command.Dump
import ContentModel.Command.Export
import ContentModel.Command.Infer

/-
# The command line

The words after the program's name: a command, its operands in order, and options anywhere between
them.  After `--` every word is an operand.
-/

namespace ContentModel.Command

/-! ## Words -/

/-- The words of a command line, sorted by what they are. -/
structure Words where
  operands : List String
  /-- The options that take a value, each with its value. -/
  options : List (String × String)
  /-- The options that take none. -/
  switches : List String
  deriving DecidableEq, Repr, Inhabited

/-- Why a command line is none. -/
inductive UsageError where
  | unknownOption (word : String)
  | missingValue (option : String)
  | notANumber (option text : String)
  | misplacedOption (command option : String)
  | missingOperand (command : String)
  | surplusOperand (word : String)
  | unknownCommand (word : String)
  | missingCommand
  deriving DecidableEq, Repr, Inhabited

/-- The wording of an error. -/
def UsageError.message : UsageError → String
  | unknownOption word => "Unknown option " ++ word
  | missingValue option => "Option --" ++ option ++ " needs a value"
  | notANumber option text => "Option --" ++ option ++ " needs a number, not " ++ text
  | misplacedOption command option => "Command " ++ command ++ " has no option --" ++ option
  | missingOperand command => "Command " ++ command ++ " needs a dataset"
  | surplusOperand word => "Unexpected operand " ++ word
  | unknownCommand word => "Unknown command " ++ word
  | missingCommand => "Expected one of the commands dump, infer, export and compile"

/-- The words for the options that take a value, with their names. -/
def optionWords : List (String × String) :=
  [("-c", "config"), ("--config", "config"), ("-o", "output"), ("--output", "output"),
   ("-f", "format"), ("--format", "format"), ("--sample-size", "sample-size"),
   ("--schema", "schema"), ("--out-dir", "out-dir")]

/-- The words for the options that take no value, with their names. -/
def switchWords : List (String × String) :=
  [("--submit", "submit"), ("--strict", "strict")]

namespace Words

/-- Sorts the words of a command line. -/
def read : List String → Except UsageError Words
  | [] => .ok ⟨[], [], []⟩
  | word :: rest =>
    if word = "--" then .ok ⟨rest, [], []⟩
    else match Keyed.get? word optionWords, Keyed.get? word switchWords, rest with
      | some option, _, value :: rest =>
        (read rest).map fun w => { w with options := (option, value) :: w.options }
      | some option, _, [] => .error (.missingValue option)
      | none, some switch, rest =>
        (read rest).map fun w => { w with switches := switch :: w.switches }
      | none, none, rest =>
        if word.startsWith "-" then .error (.unknownOption word)
        else (read rest).map fun w => { w with operands := word :: w.operands }

/-- The value of an option; of several the first counts. -/
def option? (name : String) (w : Words) : Option String :=
  Keyed.get? name w.options

/-- Whether a switch is set. -/
def has (name : String) (w : Words) : Bool :=
  w.switches.contains name

/-- The value of an option as a number. -/
def number (name : String) (default : Nat) (w : Words) : Except UsageError Nat :=
  match w.option? name with
  | none => .ok default
  | some text =>
    match text.toNat? with
    | some n => .ok n
    | none => .error (.notANumber name text)

/-- Refuses the options that a command does not have. -/
def allow (command : String) (names : List String) (w : Words) : Except UsageError Unit :=
  match (w.options.map Prod.fst ++ w.switches).find? fun n => !("config" :: names).contains n with
  | some name => .error (.misplacedOption command name)
  | none => .ok ()

end Words

/-! ## Commands -/

/-- A command with its arguments. -/
inductive Invocation where
  | dump (args : DumpArguments)
  | infer (args : InferArguments)
  | exportDefinitions (args : ExportArguments)
  | compileDataset (args : CompileArguments)
  deriving DecidableEq, Repr, Inhabited

namespace Invocation

/-- The operand that a command may have. -/
def operand? : List String → Except UsageError (Option String)
  | [] => .ok none
  | [dataset] => .ok (some dataset)
  | _ :: word :: _ => .error (.surplusOperand word)

/-- The operand that a command must have. -/
def operand (command : String) (operands : List String) : Except UsageError String := do
  match ← operand? operands with
  | some dataset => .ok dataset
  | none => .error (.missingOperand command)

/-- The command that words give. -/
def ofWords (w : Words) : Except UsageError Invocation :=
  match w.operands with
  | "dump" :: routes => do
    w.allow "dump" ["output"]
    .ok (.dump ⟨routes, w.option? "output"⟩)
  | "infer" :: operands => do
    w.allow "infer" ["output", "format", "sample-size"]
    .ok (.infer ⟨← operand "infer" operands, ← w.number "sample-size" 0,
      (w.option? "format").getD "json", w.option? "output"⟩)
  | "export" :: operands => do
    w.allow "export" ["schema", "out-dir"]
    .ok (.exportDefinitions ⟨← operand? operands, w.option? "schema",
      (w.option? "out-dir").getD "."⟩)
  | "compile" :: operands => do
    w.allow "compile" ["schema", "submit", "strict"]
    .ok (.compileDataset ⟨← operand "compile" operands, w.option? "schema", w.has "submit",
      w.has "strict"⟩)
  | word :: _ => .error (.unknownCommand word)
  | [] => .error .missingCommand

/-- The paths that a command looks at. -/
def paths : Invocation → List String
  | dump args => args.output.toList
  | infer args => args.dataset :: args.output.toList
  | exportDefinitions args => args.dataset.toList ++ args.schema.toList
  | compileDataset args => args.dataset :: args.schema.toList

/-- Runs a command. -/
def run (env : Environment) : Invocation → Outcome
  | dump args => Command.dump args env
  | infer args => Command.infer args env
  | exportDefinitions args => Command.exportDefinitions args env
  | compileDataset args => Command.compileDataset args env

end Invocation

/-- The file of the settings unless another is given. -/
def settingsPath : String :=
  "content-model.toml"

/-- A command line: where the settings are, and what to do. -/
structure Line where
  settings : String
  invocation : Invocation
  deriving DecidableEq, Repr, Inhabited

/-- Reads the words after the program's name. -/
def Line.read (words : List String) : Except UsageError Line := do
  let w ← Words.read words
  .ok ⟨(w.option? "config").getD settingsPath, ← Invocation.ofWords w⟩

end ContentModel.Command
