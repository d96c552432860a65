import TreeLens.Json.Basic
import TreeLens.Parsing.Failure

/-!
# Source parsers

A source parser turns a source text into a raw tree or a failure. A result of the form
`error: (message, line, column)` reports a mistake in the source.
-/

namespace TreeLens

/-- Something that parses sources; a call may change its state. -/
class SourceParser (π : Type) where
  parse : π → String → Except ParseFailure Json × π

/-- The mistake in the source that a parser's result reports: an object whose member
`error` is an object. What it does not say is empty or zero. -/
def Json.reportedFailure? (result : Json) : Option ParseFailure :=
  match result.get? "error" with
  | some (.obj report) =>
    let position (key : String) : Nat := ((report.lookup key).bind toNat?).getD 0
    some (.badSyntax (((report.lookup "message").bind toStr?).getD "") (position "line")
      (position "column"))
  | _ => none

/-- A parser's result, unless it reports a mistake. -/
def Json.accepted (result : Json) : Except ParseFailure Json :=
  match result.reportedFailure? with
  | some failure => .error failure
  | none => .ok result

/-- A parser that gives a recorded result for every source. -/
structure ReplayParser where
  recorded : Json

instance : SourceParser ReplayParser where
  parse p _ := (p.recorded.accepted, p)

/-- A parser that gives prepared answers one after the other, and then none. -/
structure ScriptedParser where
  answers : List (Except ParseFailure Json)

instance : SourceParser ScriptedParser where
  parse p _ :=
    match p.answers with
    | [] => (.error .noResult, p)
    | answer :: rest => (answer, ⟨rest⟩)

end TreeLens
