/-!
# Escaped text

Text shown between double quotes on one line: line feeds, carriage returns, tabs, quotes
and backslashes are written as two characters, all else as it is.
-/

namespace TreeLens

/-- A character as it is shown inside quotes. -/
def escapeChar : Char → List Char
  | '\n' => ['\\', 'n']
  | '\r' => ['\\', 'r']
  | '\t' => ['\\', 't']
  | '"' => ['\\', '"']
  | '\\' => ['\\', '\\']
  | c => [c]

/-- A text as it is shown inside quotes. -/
def escapeText (s : String) : String :=
  String.ofList (s.toList.flatMap escapeChar)

end TreeLens
