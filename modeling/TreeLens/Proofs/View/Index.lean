import TreeLens.Proofs.Tree.Data
import TreeLens.Proofs.View.Regions

/-!
# Views by number and by path

The views of a shown tree are an index of the tree: their sources are the paths to nodes in
pre-order (`sources_shown`), the view of a path has the path's rank as its number
(`findView?_shown_eq`), and a view shows its node by its kind (`ViewKind.Shows`).
-/

namespace TreeLens

/-- Which nodes the views of a kind show. -/
inductive ViewKind.Shows : ViewKind → Node → Prop
  | namedObject (name : String) (fields : List (String × Node)) (span : Option Span) :
      Shows .namedObject (.object (some name) fields span)
  | record (fields : List (String × Node)) (span : Option Span) :
      Shows .record (.object none fields span)
  | array (first : Node) (rest : List Node) : Shows .array (.array (first :: rest))
  | emptyArray : Shows .emptyArray (.array [])
  | primitive (value : Leaf) : Shows .primitive (.leaf value)

theorem Node.shows_viewKind (n : Node) : n.viewKind.Shows n := by
  unfold viewKind
  split <;> constructor

theorem ViewKind.Shows.isExpandable_eq {kind : ViewKind} {n : Node} (shown : kind.Shows n) :
    kind.isExpandable = n.isExpandable := by
  cases shown <;> rfl

namespace TreeView

/-- The paths of the nodes that the views show, in the order of the views. -/
def sources (t : TreeView) : List Path :=
  t.views.toList.map View.source

theorem sources_shown (tree : Node) (isOpen : Nat → Bool) :
    (shown tree isOpen).sources = (tree.outline []).map (·.1) := by
  refine List.ext_getElem? fun i => ?_
  rw [sources, List.getElem?_map, Array.getElem?_toList, List.getElem?_map]
  cases found : (shown tree isOpen).views[i]? with
  | none =>
      -- There are as many views as entries.
      have outside : (tree.outline [])[i]? = none := by
        rw [getElem?_views_shown, Option.map_eq_none_iff, Array.getElem?_eq_none_iff,
          size_views_render] at found
        rwa [List.getElem?_eq_none_iff, Node.length_outline]
      rw [outside]
      rfl
  | some view =>
      obtain ⟨rendered, original, rfl⟩ := exists_rendered_of_getElem?_shown found
      obtain ⟨entry, here, -, source, -⟩ := exists_entry_of_getElem?_render original
      rw [here, Option.map_some, Option.map_some, source]

/-- Exactly the paths to nodes are sources of views. -/
theorem mem_sources_shown_iff {tree : Node} {isOpen : Nat → Bool} {path : Path} :
    path ∈ (shown tree isOpen).sources ↔ (tree.resolve? path).isSome := by
  rw [sources_shown, List.mem_map, Option.isSome_iff_exists]
  constructor
  · rintro ⟨entry, member, rfl⟩
    exact ⟨entry.2, Node.resolve?_of_mem_outline member⟩
  · rintro ⟨node, resolved⟩
    exact ⟨(path, node), Node.mem_outline_iff.2 resolved, rfl⟩

/-- A view shows the node that its path leads to, and its number is the path's rank. -/
theorem exists_node_of_getElem?_shown {tree : Node} {isOpen : Nat → Bool} {i : Nat} {view : View}
    (found : (shown tree isOpen).views[i]? = some view) :
    ∃ node, tree.resolve? view.source = some node ∧ view.kind.Shows node ∧
      tree.rank view.source = i := by
  obtain ⟨rendered, original, rfl⟩ := exists_rendered_of_getElem?_shown found
  obtain ⟨entry, here, kind, source, -⟩ := exists_entry_of_getElem?_render original
  refine ⟨entry.2, ?_, ?_, ?_⟩
  · rw [source]
    exact Node.resolve?_of_mem_outline (List.mem_of_getElem? here)
  · rw [kind]
    exact entry.2.shows_viewKind
  · rw [source]
    exact Node.rank_of_getElem?_outline here

/-- Exactly the paths to nodes have views, each the one with the path's rank. -/
theorem findView?_shown_eq (tree : Node) (isOpen : Nat → Bool) (path : Path) :
    (shown tree isOpen).findView? path = (tree.resolve? path).map fun _ => tree.rank path := by
  cases resolved : tree.resolve? path with
  | some node => exact findView?_shown (Node.getElem?_outline_rank resolved []) isOpen
  | none =>
      rw [Option.map_none, findView?, Array.findIdx?_eq_none_iff]
      intro view member
      rw [beq_eq_false_iff_ne]
      rintro rfl
      have source : view.source ∈ (shown tree isOpen).sources :=
        List.mem_map_of_mem (Array.mem_toList_iff.2 member)
      rw [mem_sources_shown_iff, resolved] at source
      cases source

theorem jsonPath?_shown {tree : Node} {path : Path} {node : Node}
    (resolved : tree.resolve? path = some node) (isOpen : Nat → Bool) :
    (shown tree isOpen).jsonPath? (tree.rank path) = tree.jsonPath? path := by
  obtain ⟨view, here, source, -⟩ :=
    exists_view_of_getElem?_outline (Node.getElem?_outline_rank resolved []) isOpen
  rw [jsonPath?, here, Option.bind_some, source]
  rfl

/-- **Views are an index of the tree.** After any toggles and clicks on a fresh render there
is one view for every node; the sources of the views, in the order of their numbers, are
exactly the paths to nodes, in pre-order from the root on; every view is of the kind of its
node; and exactly the paths to nodes have views, with the path's node and text. -/
theorem indexes_performAll_render (tree : Node) (gestures : List Gesture) :
    let t := (render tree).performAll gestures
    t.views.size = tree.count ∧
    t.sources.Pairwise Path.Before ∧ t.sources.Nodup ∧ t.sources[rootView]? = some [] ∧
    (∀ path, path ∈ t.sources ↔ (tree.resolve? path).isSome) ∧
    (∀ (i : Nat) (view : View), t.views[i]? = some view →
      ∃ node, tree.resolve? view.source = some node ∧ t.node? i = some node ∧
        view.kind.Shows node) ∧
    ∀ path,
      ((t.findView? path).isSome ↔ (tree.resolve? path).isSome) ∧
      (t.findView? path).bind t.node? = tree.resolve? path ∧
      (t.findView? path).bind t.jsonPath? = tree.jsonPath? path := by
  intro t
  obtain ⟨isOpen, state⟩ : ∃ isOpen, t = shown tree isOpen := ⟨_, performAll_render tree gestures⟩
  rw [state]
  refine ⟨?_, ?_, ?_, ?_, ?_, ?_, ?_⟩
  · rw [← Array.length_toList, ← List.length_map View.source, ← sources, sources_shown,
      List.length_map, Node.length_outline]
  · rw [sources_shown, List.pairwise_map]
    exact Node.pairwise_outline [] tree
  · rw [sources_shown]
    exact Node.nodup_outline [] tree
  · have first : (tree.outline [])[0]? = some ([], tree) :=
      @Node.getElem?_outline_rank tree tree [] rfl []
    rw [sources_shown, List.getElem?_map, rootView, first]
    rfl
  · intro path
    exact mem_sources_shown_iff
  · intro i view found
    obtain ⟨node, resolved, kind, ranked⟩ := exists_node_of_getElem?_shown found
    have own := node?_shown (Node.getElem?_outline_rank resolved []) isOpen
    rw [ranked] at own
    exact ⟨node, resolved, own, kind⟩
  · intro path
    rw [findView?_shown_eq]
    cases resolved : tree.resolve? path with
    | none =>
        have unwritten : tree.jsonPath? path = none := by
          rw [← Option.not_isSome_iff_eq_none, Node.isSome_jsonPath?_iff, resolved]
          simp
        rw [unwritten]
        exact ⟨Iff.rfl, rfl, rfl⟩
    | some node =>
        refine ⟨Iff.rfl, ?_, ?_⟩
        · exact node?_shown (Node.getElem?_outline_rank resolved []) isOpen
        · exact jsonPath?_shown resolved isOpen

/-- An empty array and a named object under the same key, with the outer views closed. -/
theorem indexes_performAll_render_repeated :
    let tree : Node := .object none
      [("a", .array []), ("a", .object (some "N") [("x", .null)] none)] none
    let t := (render tree).performAll [.toggle 0, .toggle 2]
    let view : View :=
      { kind := .namedObject, isOpen := false, container := some 12, content := some 18,
        ellipsis := some 17, glyph := some 14, braces := [16, 23], source := [.field 1] }
    t.views[2]? = some view ∧
      (∃ node, tree.resolve? view.source = some node ∧ t.node? 2 = some node ∧
        view.kind.Shows node) ∧
      t.sources = [[], [.field 0], [.field 1], [.field 1, .field 0]] := by
  intro tree t view
  have found : t.views[2]? = some view := by decide
  obtain ⟨-, -, -, -, -, views, -⟩ := indexes_performAll_render tree [.toggle 0, .toggle 2]
  exact ⟨found, views 2 view found, by decide⟩

end TreeView

end TreeLens
