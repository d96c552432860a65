import TreeLens.Json.Basic

/-!
# Synthetic programs

Sources of any size with the raw trees a parser would give for them: a number of
declarations, each with an initial value that is a sum nested to some depth.
-/

namespace TreeLens

structure SyntheticProgram where
  source : String
  raw : Json

namespace Synthetic

def spanned (start stop : Nat) (data : Json) : Json :=
  .obj [("start", .ofNat start), ("end", .ofNat stop), ("data", data)]

def wrapped (name : String) (members : List (String × Json)) : Json :=
  .obj [(name, .obj members)]

/-- A sum nested to the given depth. -/
def expression : Nat → Json
  | 0 => .str "1"
  | depth + 1 =>
    wrapped "binary_expression"
      [("operator", .str "+"), ("left", expression depth),
      ("right", wrapped "number_literal" [("value", .str "1"), ("raw", .str "1")])]

/-- The source of such a sum. -/
def expressionText (depth : Nat) : String :=
  " + ".intercalate (List.replicate (depth + 1) "1")

/-- The name of the variable that a declaration introduces. -/
def variableName (i : Nat) : String :=
  "变量_" ++ Nat.repr i

def declarationText (depth i : Nat) : String :=
  "let " ++ variableName i ++ " = " ++ expressionText depth ++ ";\n"

/-- The raw tree of a declaration whose source starts at a byte. -/
def declaration (depth start i : Nat) : Json :=
  let name := variableName i
  let nameStart := start + "let ".utf8ByteSize
  let nameStop := nameStart + name.utf8ByteSize
  let stop := start + (declarationText depth i).utf8ByteSize
  let valueStop := stop - ";\n".utf8ByteSize
  spanned start stop <| wrapped "variable_declaration"
    [("kind", .str "let"),
    ("declarators", .arr [spanned nameStart valueStop <| wrapped "variable_declarator"
      [("id", spanned nameStart nameStop (wrapped "identifier" [("name", .str name)])),
      ("init", expression depth)]])]

/-- The raw trees of `count` declarations from the `i`-th on, the first of which starts
at a byte. -/
def declarations (depth start i : Nat) : (count : Nat) → List Json
  | 0 => []
  | count + 1 =>
    declaration depth start i ::
      declarations depth (start + (declarationText depth i).utf8ByteSize) (i + 1) count

/-- The source of the first `width` declarations. -/
def sourceText (depth width : Nat) : String :=
  String.join ((List.range width).map (declarationText depth))

end Synthetic

/-- The program of `width` declarations whose values are nested to `depth`. -/
def SyntheticProgram.generate (depth width : Nat) : SyntheticProgram :=
  let source := Synthetic.sourceText depth width
  ⟨source, Synthetic.spanned 0 source.utf8ByteSize
    (Synthetic.wrapped "module" [("body", .arr (Synthetic.declarations depth 0 0 width))])⟩

end TreeLens
