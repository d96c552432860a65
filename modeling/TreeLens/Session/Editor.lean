import TreeLens.Source.Offsets
import TreeLens.Widget.Theme

/-!
# Editors

A session reads the text of an editor and decorates it. `MemoryEditor` is an editor that
only remembers: its text, its highlights, and every decoration that was applied to it.
-/

namespace TreeLens

/-- A decoration: a highlighted range takes the place of all others. -/
inductive EditorEffect where
  | highlight (range : CharRange) (style : HighlightStyle)
  | clear
deriving DecidableEq, Repr

/-- What a session needs of an editor. -/
class EditorSurface (ε : Type) where
  text : ε → String
  apply : ε → EditorEffect → ε

/-- An editor that remembers what happens to it; effects are kept latest first. -/
structure MemoryEditor where
  text : String
  highlights : List (CharRange × HighlightStyle)
  effects : List EditorEffect
deriving DecidableEq, Repr

namespace MemoryEditor

def ofText (text : String) : MemoryEditor :=
  ⟨text, [], []⟩

/-- Replaces the text; highlights stay. -/
def setText (e : MemoryEditor) (text : String) : MemoryEditor :=
  { e with text }

def apply (e : MemoryEditor) (effect : EditorEffect) : MemoryEditor :=
  { e with
    highlights :=
      match effect with
      | .highlight range style => [(range, style)]
      | .clear => []
    effects := effect :: e.effects }

def applied (e : MemoryEditor) : Nat :=
  e.effects.length

/-- The characters of a range of a text. -/
def slice (text : String) (range : CharRange) : String :=
  String.ofList ((text.toList.drop range.start).take (range.stop - range.start))

def highlightedText (e : MemoryEditor) : List String :=
  e.highlights.map fun (range, _) => slice e.text range

end MemoryEditor

instance : EditorSurface MemoryEditor where
  text e := e.text
  apply := MemoryEditor.apply

end TreeLens
