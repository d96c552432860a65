import TreeLens.Session.Editor
import TreeLens.View.Hover

/-!
# Highlights of hovered nodes

Entering the region of a node with a span highlights its characters in the editor,
entering one without a span does nothing, and leaving a region clears the highlight.
-/

namespace TreeLens

/-- The effect of a hover event on a node. -/
def hoverEffect? (convention : SpanConvention) (offsets : OffsetTable) (style : HighlightStyle)
    (event : HoverEvent) (node : Node) : Option EditorEffect :=
  match event with
  | .enter => node.span?.map fun span => .highlight (offsets.rangeOf convention span) style
  | .exit => some .clear

/-- Applies the effect of a hover event on a node, if it has one. -/
def applyHover {ε : Type} [EditorSurface ε] (convention : SpanConvention) (offsets : OffsetTable)
    (style : HighlightStyle) (editor : ε) (hovered : HoverEvent × Node) : ε :=
  match hoverEffect? convention offsets style hovered.1 hovered.2 with
  | some effect => EditorSurface.apply editor effect
  | none => editor

end TreeLens
