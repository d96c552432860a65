import TreeLens.Text.UpperCase

/-!
# Word case

`pascalCase` joins the words of an underscored name, each with its first character in
capital form. Empty words, which repeated or outer underscores leave, vanish with the
underscores.
-/

namespace TreeLens

/-- The characters of a name in pascal case; `fresh` says that a word is about to
start. -/
def pascalChars : (fresh : Bool) → List Char → List Char
  | _, [] => []
  | fresh, c :: rest =>
    if c = '_' then pascalChars true rest
    else (if fresh then upperCase c else [c]) ++ pascalChars false rest

/-- A name like `variable_declarator` as `VariableDeclarator`. -/
def pascalCase (name : String) : String :=
  String.ofList (pascalChars true name.toList)

end TreeLens
