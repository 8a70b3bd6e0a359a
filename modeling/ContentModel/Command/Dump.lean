import ContentModel.Command.Basic
import ContentModel.Json.Printer

/-
# Dumping from the command line

The dataset is written only when every route was fetched and answered with records.
-/

namespace ContentModel.Command

/-- What to dump. -/
structure DumpArguments where
  /-- The routes to dump; those of the settings if there are none. -/
  routes : List String
  /-- Where to write the dataset, if not to the terminal. -/
  output : Option String
  deriving DecidableEq, Repr, Inhabited

/-- The routes to dump. -/
def dumpedRoutes (args : DumpArguments) (env : Environment) : List String :=
  if args.routes.isEmpty then env.settings.routes else args.routes

/-- Writes the dataset that a dump gave. -/
def afterDumping (args : DumpArguments) (dumped : Except Http.DumpError Dataset) (env : Environment) :
    Outcome :=
  match dumped with
  | .error e => .failed (.dump e) env.files
  | .ok d => writeOutput args.output d.toValue.pretty env.files

/-- Dumps the source system. -/
def dump (args : DumpArguments) (env : Environment) : Outcome :=
  match dumpedRoutes args env with
  | [] => .failed .noRoutes env.files
  | routes =>
    let endpoint := env.settings.endpoint
    let dumped := Http.dump env.network Http.fetchTimeout endpoint routes
    ((afterDumping args dumped.result env).report
      ("Dumping " ++ Nat.repr routes.length ++ " route(s) from " ++ endpoint ++ "...\n")
      |>.logged (Http.dumpLog endpoint routes dumped.result)).exchanging dumped.exchanges

end ContentModel.Command
