import ContentModel.Command.Basic
import ContentModel.Command.Summary

/-
# Inferring a schema from the command line

The summary of the schema is shown even if the format asked for is unknown.
-/

namespace ContentModel.Command

/-- What to infer. -/
structure InferArguments where
  dataset : String
  /-- How many records of an entity are looked at; zero stands for all. -/
  sampleSize : Nat
  format : String
  /-- Where to write the schema, if not to the terminal. -/
  output : Option String
  deriving DecidableEq, Repr, Inhabited

/-- A schema in a format. -/
def formatSchema (format : String) (s : Schema) : Except Error String :=
  match format with
  | "yaml" => .ok s.yaml
  | "json" => .ok s.json
  | other => .error (.unknownFormat other)

/-- Infers the schema of a dataset and writes it. -/
def infer (args : InferArguments) (env : Environment) : Outcome :=
  match loadDataset args.dataset env.files with
  | .error e => .failed e env.files
  | .ok d =>
    let s := Schema.infer { env.settings.inference with sampleSize := args.sampleSize } d
    Outcome.report s.summary <|
      match formatSchema args.format s with
      | .ok content => writeOutput args.output content env.files
      | .error e => .failed e env.files

end ContentModel.Command
