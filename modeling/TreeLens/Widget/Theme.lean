import TreeLens.Text.Hex
import TreeLens.Widget.Style

/-!
# Themes

A theme gives every token class a colour, and says whether it is dark; the highlight of
a hovered range depends on that alone.
-/

namespace TreeLens

/-- A colour as `#rrggbb` or `#rrggbbaa`, and whether the text is bold. -/
structure TokenStyle where
  color : String
  bold : Bool
deriving DecidableEq, Repr

/-- How a highlighted range of the editor looks. -/
structure HighlightStyle where
  background : String
deriving DecidableEq, Repr

def HighlightStyle.dark : HighlightStyle :=
  ⟨"rgba(255, 250, 112, 0.2)"⟩

def HighlightStyle.light : HighlightStyle :=
  ⟨"rgba(145, 240, 180, 0.5)"⟩

/-- A named set of styles. -/
structure Theme where
  name : String
  isDark : Bool
  string : TokenStyle
  number : TokenStyle
  boolean : TokenStyle
  null : TokenStyle
  key : TokenStyle
  title : TokenStyle
  background : TokenStyle
deriving DecidableEq, Repr

namespace Theme

def style (t : Theme) : TokenClass → TokenStyle
  | .string => t.string
  | .number => t.number
  | .boolean => t.boolean
  | .null => t.null
  | .key => t.key
  | .title => t.title
  | .background => t.background

/-- The highlight that goes with a theme. -/
def highlight (t : Theme) : HighlightStyle :=
  if t.isDark then .dark else .light

def regular (color : String) : TokenStyle :=
  ⟨color, false⟩

/-- The theme that is used unless another is chosen. -/
def tokyoNight : Theme where
  name := "tokyo-night"
  isDark := true
  string := regular "#9ece6a"
  number := regular "#ff9e64"
  boolean := regular "#c0caf5"
  null := regular "#bb9af7"
  key := regular "#7aa2f7"
  title := regular "#bb9af7"
  background := regular "#1a1b26"

/-- The light sibling of `tokyoNight`. -/
def tokyoNightDay : Theme where
  name := "tokyo-night-day"
  isDark := false
  string := regular "#587539"
  number := regular "#b15c00"
  boolean := regular "#3760bf"
  null := regular "#007197"
  key := regular "#007197"
  title := regular "#3760bf"
  background := regular "#e1e2e7"

/-- A light theme with bold numbers. -/
def espresso : Theme where
  name := "espresso"
  isDark := false
  string := regular "#CF4F5F"
  number := ⟨"#CF4F5F", true⟩
  boolean := regular "#CF4F5F"
  null := regular "#CF4F5F"
  key := regular "#2F6F9F"
  title := regular "#CF4F5F"
  background := regular "#ffffff"

/-- A dark theme with a translucent background. -/
def barf : Theme where
  name := "barf"
  isDark := true
  string := regular "#5C81B3"
  number := regular "#C1E1B8"
  boolean := regular "#53667D"
  null := regular "#697A8E"
  key := regular "#697A8E"
  title := regular "#708E67"
  background := regular "#15191EFA"

/-- A light theme on a warm background. -/
def solarizedLight : Theme where
  name := "solarized-light"
  isDark := false
  string := regular "#2AA198"
  number := regular "#D33682"
  boolean := regular "#B58900"
  null := regular "#B58900"
  key := regular "#93A1A1"
  title := regular "#859900"
  background := regular "#fef7e5"

/-- A light theme in muted colours. -/
def rosePineDawn : Theme where
  name := "rose-pine-dawn"
  isDark := false
  string := regular "#ea9d34"
  number := regular "#d7827e"
  boolean := regular "#286983"
  null := regular "#FFCC66"
  key := regular "#907aa9"
  title := regular "#286983"
  background := regular "#faf4ed"

def builtin : List Theme :=
  [tokyoNight, tokyoNightDay, espresso, barf, solarizedLight, rosePineDawn]

def names : List String :=
  builtin.map name

def byName? (name : String) : Option Theme :=
  builtin.find? (·.name == name)

end Theme

instance : Inhabited Theme := ⟨Theme.tokyoNight⟩

/-! ## Coloured text for terminals -/

namespace TokenStyle

/-- The value of two hexadecimal digits, or of a plus sign and one digit. -/
def channel? (high low : Char) : Option Nat :=
  if high = '+' then hexValue? low
  else (hexValue? high).bind fun h => (hexValue? low).map (16 * h + ·)

/-- The red, green and blue parts of a colour. What follows them, its opacity, does not count
but for its size of none or two bytes. -/
def channels? (color : String) : Option (Nat × Nat × Nat) :=
  match color.toList with
  | '#' :: r₁ :: r₀ :: g₁ :: g₀ :: b₁ :: b₀ :: rest =>
    let opacity := (String.ofList rest).utf8ByteSize
    if opacity = 0 ∨ opacity = 2 then do
      return (← channel? r₁ r₀, ← channel? g₁ g₀, ← channel? b₁ b₀)
    else none
  | _ => none

/-- The start of a terminal control sequence. -/
def control : String := "\x1b["

/-- A text between the control sequences that set its style and end it. -/
def paint (s : TokenStyle) (text : String) : String :=
  match channels? s.color with
  | none => text
  | some (r, g, b) =>
    (if s.bold then control ++ "1m" else "") ++
      control ++ "38;2;" ++ Nat.repr r ++ ";" ++ Nat.repr g ++ ";" ++ Nat.repr b ++ "m" ++
      text ++ control ++ "0m"

end TokenStyle

end TreeLens
