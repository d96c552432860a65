import Mathlib.Data.List.Infix
import TreeLens.Proofs.View.Index
import TreeLens.Proofs.View.Toggling
import TreeLens.Proofs.Widget.Inside

/-!
# Frames

What is drawn around the element of a node. A child stands in a slot of its parent's content,
and that in its parent's container; these faces are the parent's frame. So the faces around the
element of the node at a path are the frames of the nodes above it, from the longest proper
beginning of the path to the root (`exists_inside_of_resolve?`). The container and the content
of a view are found there (`TreeView.exists_container_shown`, `TreeView.exists_content_shown`).
-/

namespace TreeLens

/-! ## Beginnings of paths -/

/-- The proper beginnings of a path, longest first. -/
def Path.outer : Path → List Path
  | [] => []
  | step :: rest => (Path.outer rest).map (step :: ·) ++ [[]]

theorem Path.reverse_inits (path : Path) : path.inits.reverse = path :: path.outer := by
  induction path with
  | nil => rfl
  | cons step rest ih =>
      rw [List.inits_cons, List.reverse_cons, ← List.map_reverse, ih, outer, List.map_cons,
        List.cons_append]

theorem Path.mem_outer_iff {above path : Path} :
    above ∈ path.outer ↔ above <+: path ∧ above ≠ path := by
  induction path generalizing above with
  | nil => simp [outer]
  | cons step rest ih =>
      rw [outer, List.mem_append, List.mem_map, List.mem_singleton, List.prefix_cons_iff]
      constructor
      · rintro (⟨short, member, rfl⟩ | rfl)
        · obtain ⟨begins, proper⟩ := ih.1 member
          exact ⟨.inr ⟨short, rfl, begins⟩, by simpa using proper⟩
        · exact ⟨.inl rfl, by simp⟩
      · rintro ⟨rfl | ⟨short, rfl, begins⟩, proper⟩
        · exact .inr rfl
        · exact .inl ⟨short, ih.2 ⟨begins, by simpa using proper⟩, rfl⟩

namespace Node

theorem resolve?_append (n : Node) (path rest : Path) :
    n.resolve? (path ++ rest) = (n.resolve? path).bind fun m => m.resolve? rest := by
  induction path generalizing n with
  | nil => rfl
  | cons step others ih =>
      rw [List.cons_append, resolve?, resolve?]
      cases n.child? step with
      | none => rfl
      | some child => exact ih child

/-- Every beginning of a path to a node leads to a node. -/
theorem exists_resolve?_of_prefix {n m : Node} {above path : Path} (begins : above <+: path)
    (resolved : n.resolve? path = some m) : ∃ node, n.resolve? above = some node := by
  obtain ⟨rest, rfl⟩ := begins
  rw [resolve?_append, Option.bind_eq_some_iff] at resolved
  obtain ⟨node, reached, -⟩ := resolved
  exact ⟨node, reached⟩

/-! ## Faces of a node's view -/

/-- The face of the container of a node's view. -/
def containerFace (view : Nat) : Node → Face
  | .leaf value => .single value.shown.1 view value.shown.2
  | .array [] => .single .arrayEmpty view emptyArrayText
  | .array (_ :: _) => .region .array view
  | .object _ _ _ => .region .object view

/-- The face of the content of a node's view. -/
def contentFace (view : Nat) : Node → Face
  | .array _ => .content .arrayContent view
  | _ => .content .objectContent view

/-- The faces of a place for a child in the content of a node's view, innermost first. -/
def slot : Node → List Face
  | .array _ => [.group .arrayItem .block]
  | _ => [.group .itemValue .inline, .group .contentItem .block]

/-- The faces around a child of a node, up to the container of the node's view. -/
def frame (view : Nat) (n : Node) : List Face :=
  n.slot ++ [n.contentFace view, n.containerFace view]

/-- The faces around the element of the node at a path, up to the container of the whole tree's
view, which has number `view`. -/
def framesTo (n : Node) (view : Nat) (path : Path) : List Face :=
  path.outer.flatMap fun above => (n.resolve? above).elim [] (frame (view + n.rank above))

theorem part_containerFace (view : Nat) (n : Node) :
    (n.containerFace view).part = some (view, .container) := by
  unfold containerFace
  split <;> rfl

theorem part_contentFace (view : Nat) (n : Node) :
    (n.contentFace view).part = some (view, .content) := by
  unfold contentFace
  split <;> rfl

theorem isExpandable_of_child? {n child : Node} {step : Step} (found : n.child? step = some child) :
    n.isExpandable = true := by
  match n, step with
  | .leaf _, .field _ => cases found
  | .leaf _, .item _ => cases found
  | .array [], .item _ => cases found
  | .array [], .field _ => cases found
  | .array (_ :: _), _ => rfl
  | .object _ _ _, _ => rfl

theorem framesTo_cons {n child : Node} {step : Step} (found : n.child? step = some child)
    (view : Nat) (rest : Path) :
    n.framesTo view (step :: rest) =
      child.framesTo (view + n.childRank step) rest ++ n.frame view := by
  simp [framesTo, Path.outer, List.flatMap_append, List.flatMap_map, resolve?, rank, found,
    Nat.add_assoc]

/-! ## Elements in frames -/

/-- The elements in the content of a node's view. -/
def contents (view : Nat) : Node → List Element
  | .leaf _ => []
  | .array items => itemElements (view + 1) items
  | .object _ fields _ => fieldElements (view + 1) fields

theorem itemElements_append (view : Nat) (items others : List Node) :
    itemElements view (items ++ others) =
      itemElements view items ++ itemElements (view + countItems items) others := by
  induction items generalizing view with
  | nil => rfl
  | cons item rest ih =>
      rw [List.cons_append, itemElements, itemElements, ih, countItems, List.cons_append,
        Nat.add_assoc]

theorem fieldElements_append (view : Nat) (fields others : List (String × Node)) :
    fieldElements view (fields ++ others) =
      fieldElements view fields ++ fieldElements (view + countFields fields) others := by
  induction fields generalizing view with
  | nil => rfl
  | cons field rest ih =>
      rw [List.cons_append, fieldElements, fieldElements, ih, countFields, List.cons_append,
        Nat.add_assoc]

theorem getElem?_fieldElements (view i : Nat) (fields : List (String × Node)) :
    (fieldElements view fields)[i]? = fields[i]?.map fun field =>
      let own := view + countFields (fields.take i)
      .field own field.1 field.2 (field.2.element own field.2.fieldBraces?.isNone) := by
  induction fields generalizing view i with
  | nil => rfl
  | cons field rest ih =>
      obtain ⟨key, value⟩ := field
      cases i with
      | zero => rfl
      | succ i =>
          rw [fieldElements, List.getElem?_cons_succ, ih, List.getElem?_cons_succ,
            List.take_succ_cons, countFields, Nat.add_assoc]

end Node

namespace Element

open Node (contents)

theorem exists_enclosed_eq (view : Nat) (braces : Option (String × String)) (e : Element)
    (before after : List Element) :
    ∃ front back, enclosed view braces (before ++ e :: after) = front ++ e :: back := by
  cases braces with
  | none => exact ⟨before, after, rfl⟩
  | some texts =>
      refine ⟨leaf (.brace view texts.1) :: before, after ++ [leaf (.brace view texts.2)], ?_⟩
      simp [enclosed]

theorem exists_inside_bracketed (view : Nat) (style contentStyle : StyleClass)
    (braces : Option (String × String)) (content : List Element) :
    ∃ k, Inside (bracketed view style contentStyle braces content) k
      (.mk (.content contentStyle view) content) [.region style view] := by
  obtain ⟨front, back, row⟩ := exists_enclosed_eq view braces
    (.mk (.content contentStyle view) content) [leaf (.ellipsis view)] []
  rw [bracketed, ← List.singleton_append, row]
  exact ⟨_, .child (.region style view) front back (.self _)⟩

/-- The container of a view that can be opened holds its content. -/
theorem exists_inside_content {n : Node} (expandable : n.isExpandable = true) (view : Nat)
    (braces : Bool) :
    ∃ k, Inside (n.element view braces) k (.mk (n.contentFace view) (n.contents view))
      [n.containerFace view] := by
  match n with
  | .leaf _ => cases expandable
  | .array [] => cases expandable
  | .array (first :: rest) => exact exists_inside_bracketed view .array .arrayContent _ _
  | .object none fields _ => exact exists_inside_bracketed view .object .objectContent _ _
  | .object (some name) fields _ =>
      refine ⟨_, .child (.region .object view) [.mk (.group .objectHeader .block)
        [leaf (.glyph view), leaf (.title view name), leaf (.brace view "\x7b")],
        leaf (.ellipsis view)] [leaf (.brace view "\x7d")] (.self _)⟩

/-- The content of a view holds the elements of the node's children. -/
theorem exists_inside_contents {n child : Node} {step : Step} (found : n.child? step = some child)
    (view : Nat) (face : Face) :
    ∃ k braces, Inside (.mk face (n.contents view)) k
      (child.element (view + n.childRank step) braces) (n.slot ++ [face]) := by
  cases n with
  | leaf value => cases step <;> cases found
  | array items =>
      cases step with
      | field i => cases found
      | item i =>
          have split := Node.eq_take_append_of_getElem? (show items[i]? = some child from found)
          have row := congrArg (Node.itemElements (view + 1)) split
          rw [Node.itemElements_append, Node.itemElements, Nat.add_assoc] at row
          rw [contents, row]
          exact ⟨_, true, .child face _ _ (.child (.group .arrayItem .block) [] [] (.self _))⟩
  | object name fields span =>
      cases step with
      | item i => cases found
      | field i =>
          obtain ⟨⟨key, value⟩, placed, rfl⟩ := Option.map_eq_some_iff.1 found
          have split := Node.eq_take_append_of_getElem? placed
          have row := congrArg (Node.fieldElements (view + 1)) split
          rw [Node.fieldElements_append, Node.fieldElements, Nat.add_assoc] at row
          rw [contents, row]
          -- The field draws the value's braces, if any, beside the value's element.
          let own := view + (1 + Node.countFields (fields.take i))
          obtain ⟨front, back, inner⟩ := exists_enclosed_eq own value.fieldBraces?
            (value.element own value.fieldBraces?.isNone) [] []
          rw [field, ← List.nil_append [value.element _ _], inner]
          exact ⟨_, _, .child face _ _ (.child (.group .contentItem .block) [_] []
            (.child (.group .itemValue .inline) front back (.self _)))⟩

/-- The element of a child stands in the frame of its parent. -/
theorem exists_inside_of_child? {n child : Node} {step : Step} (found : n.child? step = some child)
    (view : Nat) (braces : Bool) :
    ∃ k braces', Inside (n.element view braces) k
      (child.element (view + n.childRank step) braces') (n.frame view) := by
  obtain ⟨k, outside⟩ := exists_inside_content (Node.isExpandable_of_child? found) view braces
  obtain ⟨j, braces', inside⟩ := exists_inside_contents found view (n.contentFace view)
  refine ⟨k + j, braces', ?_⟩
  have both := outside.trans inside
  rwa [List.append_assoc] at both

/-- The element of the node at a path stands in the frames of the nodes above it. -/
theorem exists_inside_of_resolve? {n m : Node} {path : Path} (resolved : n.resolve? path = some m)
    (view : Nat) (braces : Bool) :
    ∃ k braces', Inside (n.element view braces) k (m.element (view + n.rank path) braces')
      (n.framesTo view path) := by
  induction path generalizing n view braces with
  | nil =>
      cases resolved
      exact ⟨0, braces, .self _⟩
  | cons step rest ih =>
      obtain ⟨child, found, resolved⟩ := Option.bind_eq_some_iff.1 resolved
      obtain ⟨k, inner, outside⟩ := exists_inside_of_child? found view braces
      obtain ⟨j, braces', inside⟩ := ih resolved (view + n.childRank step) inner
      refine ⟨k + j, braces', ?_⟩
      rw [Node.framesTo_cons found, Node.rank, found, Option.elim_some, ← Nat.add_assoc]
      exact outside.trans inside

theorem exists_inside_rootElement {tree m : Node} {path : Path}
    (resolved : tree.resolve? path = some m) :
    ∃ k braces, Inside tree.rootElement k (m.element (tree.rank path) braces)
      (tree.framesTo 0 path ++ [.root]) := by
  obtain ⟨k, braces, inside⟩ := exists_inside_of_resolve? resolved 0 true
  rw [Nat.zero_add] at inside
  exact ⟨_, braces, .child .root [] [] inside⟩

theorem exists_element_eq (n : Node) (view : Nat) (braces : Bool) :
    ∃ children, n.element view braces = .mk (n.containerFace view) children := by
  match n with
  | .leaf _ => exact ⟨_, rfl⟩
  | .array [] => exact ⟨_, rfl⟩
  | .array (_ :: _) => exact ⟨_, rfl⟩
  | .object none _ _ => exact ⟨_, rfl⟩
  | .object (some _) _ _ => exact ⟨_, rfl⟩

end Element

namespace TreeView

open Element (Inside)

variable {tree : Node} {isOpen : Nat → Bool} {i : Nat} {view : View}

/-- A view notes what is drawn as its part. -/
theorem mem_ids_of_inside (found : (shown tree isOpen).views[i]? = some view) {k : Nat} {own : Face}
    {children : List Element} {faces : List Face}
    (inside : Inside tree.rootElement k (.mk own children) faces) {part : Part}
    (played : own.part = some (i, part)) : k ∈ view.ids part :=
  (mem_ids_shown_iff found).2 ⟨own, inside.getElem?_faces, played⟩

/-- What is drawn as a part is noted by a view. -/
theorem exists_view_of_getElem?_faces {k : Nat} {own : Face} {part : Part}
    (drawn : tree.rootElement.faces[k]? = some own) (played : own.part = some (i, part))
    (isOpen : Nat → Bool) :
    ∃ view, (shown tree isOpen).views[i]? = some view ∧ k ∈ view.ids part := by
  obtain ⟨entry, outlined⟩ := Node.exists_entry_of_mem_parts
    (List.mem_filterMap.2 ⟨own, List.mem_of_getElem? drawn, played⟩)
  obtain ⟨view, found, -⟩ := exists_view_of_getElem?_outline outlined isOpen
  exact ⟨view, found, (mem_ids_shown_iff found).2 ⟨own, drawn, played⟩⟩

/-- The container of a view is the element of its node, in the frames of the nodes above. -/
theorem exists_element_shown (found : (shown tree isOpen).views[i]? = some view) :
    ∃ node k braces, tree.resolve? view.source = some node ∧ view.kind.Shows node ∧
      view.container = some k ∧
      Inside tree.rootElement k (node.element i braces)
        (tree.framesTo 0 view.source ++ [.root]) := by
  obtain ⟨node, resolved, kind, ranked⟩ := exists_node_of_getElem?_shown found
  obtain ⟨k, braces, inside⟩ := Element.exists_inside_rootElement resolved
  rw [ranked] at inside
  refine ⟨node, k, braces, resolved, kind, ?_, inside⟩
  obtain ⟨children, element⟩ := Element.exists_element_eq node i braces
  rw [element] at inside
  exact Option.mem_toList.1 (mem_ids_of_inside found inside (node.part_containerFace i))

theorem exists_container_shown (found : (shown tree isOpen).views[i]? = some view) :
    ∃ node k children, tree.resolve? view.source = some node ∧ view.container = some k ∧
      Inside tree.rootElement k (.mk (node.containerFace i) children)
        (tree.framesTo 0 view.source ++ [.root]) := by
  obtain ⟨node, k, braces, resolved, -, container, inside⟩ := exists_element_shown found
  obtain ⟨children, element⟩ := Element.exists_element_eq node i braces
  rw [element] at inside
  exact ⟨node, k, children, resolved, container, inside⟩

/-- Whatever is drawn as the container of a view has the container's face of a node. -/
theorem exists_eq_containerFace {id : Nat} {face : Face}
    (drawn : tree.rootElement.faces[id]? = some face) (played : face.part = some (i, .container)) :
    ∃ node : Node, face = node.containerFace i := by
  obtain ⟨view, found, noted⟩ := exists_view_of_getElem?_faces drawn played fun _ => true
  obtain ⟨node, k, children, -, container, inside⟩ := exists_container_shown found
  -- A view has one container.
  obtain rfl : k = id := Option.some.inj (container.symm.trans (Option.mem_toList.1 noted))
  exact ⟨node, Option.some.inj (drawn.symm.trans inside.getElem?_faces)⟩

/-- The content of a view stands in its container and holds what belongs to the node's
children. -/
theorem exists_contents_shown (found : (shown tree isOpen).views[i]? = some view)
    (expandable : view.kind.isExpandable = true) :
    ∃ node k, tree.resolve? view.source = some node ∧ view.kind.Shows node ∧
      view.content = some k ∧
      Inside tree.rootElement k (.mk (node.contentFace i) (node.contents i))
        (node.containerFace i :: (tree.framesTo 0 view.source ++ [.root])) := by
  obtain ⟨node, k, braces, resolved, kind, -, outside⟩ := exists_element_shown found
  have openable : node.isExpandable = true := by
    rw [← kind.isExpandable_eq]
    exact expandable
  obtain ⟨j, inner⟩ := Element.exists_inside_content openable i braces
  have inside := outside.trans inner
  have noted : k + j ∈ view.content.toList :=
    mem_ids_of_inside found inside (node.part_contentFace i)
  exact ⟨node, k + j, resolved, kind, Option.mem_toList.1 noted, inside⟩

theorem exists_content_shown (found : (shown tree isOpen).views[i]? = some view)
    (expandable : view.kind.isExpandable = true) :
    ∃ node k children, tree.resolve? view.source = some node ∧ view.content = some k ∧
      Inside tree.rootElement k (.mk (node.contentFace i) children)
        (node.containerFace i :: (tree.framesTo 0 view.source ++ [.root])) := by
  obtain ⟨node, k, resolved, -, content, inside⟩ := exists_contents_shown found expandable
  exact ⟨node, k, _, resolved, content, inside⟩

end TreeView

end TreeLens
