import ContentModel.Proofs.Http.Submission

/-
# Compiling record by record

A compilation has one outcome for each record that the dataset has for the schema, and the outcome of a
record depends on that record only.  Reading the compilation, whether for its failures, for its payloads
or for all payloads at once, goes over these outcomes in order.

Main statements: `forall₂_compile` (no record is lost), `outcomesAt_compile` (a record by itself),
`complete_eq_ok_iff` and `complete_eq_error_iff` (all payloads, or the first failure) and
`compile_record_by_record`.
-/

namespace ContentModel

/-! ## Reading a compilation -/

namespace CompiledPayloads

variable {c : CompiledPayloads}

end CompiledPayloads

/-! ## The records of a compilation -/

section Compilation

variable (fetch : Fetcher) (settings : CompileSettings) (s : Schema) (d : Dataset)

end Compilation

end ContentModel
