import ContentModel.Command.Basic
import ContentModel.Command.Summary

/-
# Compiling and submitting from the command line

Nothing is submitted unless that is asked for, nor, if the command is strict, unless every record has a
payload.
-/

namespace ContentModel.Command

/-- What to compile. -/
structure CompileArguments where
  dataset : String
  /-- The schema to compile against, if it is not inferred from the dataset. -/
  schema : Option String
  /-- Whether to submit the payloads. -/
  submit : Bool
  /-- Whether a record without a payload is an error. -/
  strict : Bool
  deriving DecidableEq, Repr, Inhabited

/-- Submits payloads to the target system. -/
def submitPayloads (c : CompiledPayloads) (env : Environment) : Outcome :=
  let base := env.settings.migrationEndpoint
  let submitted := Http.submitAll env.network base c
  let isFailure := !(Http.failedOutcomes submitted.result).isEmpty
  { result := if isFailure then .error .notMigrated else .ok ()
    files := env.files
    stdout := ""
    stderr := "Submitting to " ++ base ++ "...\n" ++ Http.submissionSummary submitted.result
    log := Http.submissionLog submitted.result
    exchanges := submitted.exchanges }

/-- What follows the compilation. -/
def afterCompiling (args : CompileArguments) (c : CompiledPayloads) (env : Environment) : Outcome :=
  if args.strict ∧ c.failures ≠ [] then .failed (.recordsFailed c.failures.length) env.files
  else if args.submit then submitPayloads c env
  else ⟨.ok (), env.files, "", "", [], []⟩

/-- Fetching assets, one after the other. -/
def assetExchanges (net : Http.Network) (urls : List String) : List Http.Exchange :=
  urls.flatMap fun url => (Http.fetchAsset net Http.fetchTimeout url).exchanges

/-- Compiles the records of a dataset, and submits them if asked to. -/
def compileDataset (args : CompileArguments) (env : Environment) : Outcome :=
  match loadDataset args.dataset env.files with
  | .error e => .failed e env.files
  | .ok d =>
    match chooseSchema args.schema d env with
    | .error e => .failed e env.files
    | .ok s =>
      let assets := Http.assets env.network Http.fetchTimeout
      let compiled := compile assets env.settings.compiling s d
      let fetches := assetExchanges env.network compiled.fetched
      ((afterCompiling args compiled.result (env.after (fetches.map Http.Exchange.sent))).report
        compiled.result.summary |>.logged compiled.log).exchanging fetches

end ContentModel.Command
