/-!
# Widget styles

How a widget is displayed and what it is for. A style class that stands for something
coloured has a token class, which a theme gives a style.
-/

namespace TreeLens

/-- How a widget takes part in the display. -/
inductive Display where
  | block
  | inline
  | none
deriving DecidableEq, Repr

/-- What a theme colours. -/
inductive TokenClass where
  | string
  | number
  | boolean
  | null
  | key
  | title
  | background
deriving DecidableEq, Repr

/-- What a widget is for. -/
inductive StyleClass where
  | container
  | object
  | objectHeader
  | headerToggle
  | headerName
  | objectContent
  | contentItem
  | itemKey
  | keyButton
  | itemValue
  | trivia
  | array
  | arrayContent
  | arrayItem
  | arrayEmpty
  | string
  | number
  | boolean
  | null
deriving DecidableEq, Repr, Inhabited

/-- What a theme colours in widgets of a class; purely structural classes have no
colour. -/
def StyleClass.token? : StyleClass → Option TokenClass
  | .container => some .background
  | .headerName => some .title
  | .headerToggle => some .key
  | .itemKey => some .key
  | .string => some .string
  | .number => some .number
  | .boolean => some .boolean
  | .null => some .null
  | _ => none

end TreeLens
