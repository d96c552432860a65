import TreeLens.Session.Controller
import TreeLens.View.Text

/-!
# Hosts

`RecordingHost` remembers the text of every view it is given and can be told to fail;
`PrintingHost` collects what a terminal would show.
-/

namespace TreeLens

/-- A host that counts its calls, fails at some of them, and remembers the texts of the
others, latest first. -/
structure RecordingHost where
  themed : Bool
  failing : List Nat
  calls : Nat
  texts : List String

def RecordingHost.fresh (themed : Bool) (failing : List Nat) : RecordingHost :=
  ⟨themed, failing, 0, []⟩

instance : RenderHost RecordingHost where
  present h view theme :=
    if h.failing.contains h.calls then
      (.error (.state (.reported ("present " ++ Nat.repr h.calls))),
        { h with calls := h.calls + 1 })
    else
      let text := if h.themed then view.themedText theme else view.plainText
      (.ok (), { h with calls := h.calls + 1, texts := text :: h.texts })

structure PrintingHost where
  output : String

/-- The line above a printed view. -/
def themeLine (theme : Theme) : String :=
  "# 主题 " ++ theme.name ++ "（背景 " ++ theme.background.color ++ "）\n"

instance : RenderHost PrintingHost where
  present h view theme := (.ok (), ⟨h.output ++ themeLine theme ++ view.themedText theme⟩)

/-- Renders a tree with its outermost node closed, if that can be closed. -/
def renderCollapsed (tree : Node) : TreeView :=
  let view := TreeView.render tree
  (view.toggle? TreeView.rootView).getD view

end TreeLens
