import TreeLens.Proofs.View.Visibility
import TreeLens.Proofs.Widget.Links

/-!
# Click targets

Which widgets can be clicked, told by the links between widgets and the kinds of views alone. A
widget toggles a view if it is the name in the header of a named object's view
(`TreeView.IsTitle`), or the key of a field whose value can be opened (`TreeView.IsOpener`), and
there are no others (`TreeView.click_shown_iff`). Rendering draws titles and keys at such places
only (`Face.Placed`); that everything at such a place is a title or a key follows from the
elements of the views.
-/

namespace TreeLens

/-! ## Places of titles and keys -/

/-- A title or a key with the faces around it, or a face that cannot be clicked. -/
inductive Face.Placed : Face → List Face → Prop
  | title (view : Nat) (name : String) (rest : List Face) :
      Placed (.title view name) (.group .objectHeader .block :: .region .object view :: rest)
  | key (text : String) (button : Option Nat) (view : Nat) (rest : List Face) :
      Placed (.key text button) (.group .contentItem .block :: .content .objectContent view ::
        .region .object view :: rest)
  | plain {face : Face} {around : List Face} (silent : face.click = none)
      (unmarked : (face.style :: face.extra).contains .keyButton = false) : Placed face around

namespace Element

theorem allAround_leaf {P : Face → List Face → Prop} {face : Face} {around : List Face}
    (own : P face around) : (leaf face).AllAround P around :=
  ⟨own, trivial⟩

theorem placed_enclosed (view : Nat) (braces : Option (String × String)) {around : List Face}
    {inner : List Element} (placed : AllAroundAll Face.Placed around inner) :
    AllAroundAll Face.Placed around (enclosed view braces inner) := by
  have brace : ∀ text, (leaf (.brace view text)).AllAround Face.Placed around :=
    fun text => allAround_leaf (.plain rfl rfl)
  cases braces with
  | none => exact placed
  | some texts => exact ⟨brace texts.1, allAroundAll_append.2 ⟨placed, brace texts.2, trivial⟩⟩

theorem placed_bracketed (view : Nat) {style contentStyle : StyleClass}
    (braces : Option (String × String)) {around : List Face} {content : List Element}
    (own : (Face.region style view).Placed around)
    (inner : (Face.content contentStyle view).Placed (.region style view :: around))
    (placed : AllAroundAll Face.Placed
      (.content contentStyle view :: .region style view :: around) content) :
    (bracketed view style contentStyle braces content).AllAround Face.Placed around := by
  refine ⟨own, placed_enclosed view braces ?_⟩
  exact ⟨allAround_leaf (.plain rfl rfl), ⟨inner, placed⟩, trivial⟩

theorem placed_titled (view : Nat) (name : String) {around : List Face} {content : List Element}
    (placed : AllAroundAll Face.Placed
      (.content .objectContent view :: .region .object view :: around) content) :
    (titled view name content).AllAround Face.Placed around := by
  have header : (Element.mk (.group .objectHeader .block)
      [leaf (.glyph view), leaf (.title view name), leaf (.brace view "\x7b")]).AllAround
      Face.Placed (.region .object view :: around) := by
    refine ⟨.plain rfl rfl, ?_, ?_, ?_, trivial⟩
    · exact allAround_leaf (.plain rfl rfl)
    · exact allAround_leaf (.title view name around)
    · exact allAround_leaf (.plain rfl rfl)
  refine ⟨.plain rfl rfl, header, ?_, ?_, ?_, trivial⟩
  · exact allAround_leaf (.plain rfl rfl)
  · exact ⟨.plain rfl rfl, placed⟩
  · exact allAround_leaf (.plain rfl rfl)

theorem placed_field (view owner : Nat) (key : String) (value : Node) {around : List Face}
    {element : Element} (placed : ∀ around, element.AllAround Face.Placed around) :
    (field view key value element).AllAround Face.Placed
      (.content .objectContent owner :: .region .object owner :: around) := by
  refine ⟨.plain rfl rfl, ?_, ?_, trivial⟩
  · exact allAround_leaf (.key key _ owner around)
  · refine ⟨.plain rfl rfl, placed_enclosed view _ ?_⟩
    exact ⟨placed _, trivial⟩

end Element

namespace Node

open Element (AllAround AllAroundAll)

mutual

theorem placed_element (view : Nat) (braces : Bool) (around : List Face) :
    ∀ n : Node, (n.element view braces).AllAround Face.Placed around
  | .leaf value => by
      refine Element.allAround_leaf (.plain rfl ?_)
      cases value <;> rfl
  | .array [] => Element.allAround_leaf (.plain rfl rfl)
  | .array (first :: rest) => by
      refine Element.placed_bracketed view _ (.plain rfl rfl) (.plain rfl rfl) ⟨?_, ?_⟩
      · exact ⟨.plain rfl rfl, placed_element (view + 1) true _ first, trivial⟩
      · exact placed_itemElements (view + 1 + first.count) _ rest
  | .object (some name) fields _ =>
      Element.placed_titled view name (placed_fieldElements (view + 1) view _ fields)
  | .object none fields _ =>
      Element.placed_bracketed view _ (.plain rfl rfl) (.plain rfl rfl)
        (placed_fieldElements (view + 1) view _ fields)

theorem placed_itemElements (view : Nat) (around : List Face) :
    ∀ items : List Node, AllAroundAll Face.Placed around (itemElements view items)
  | [] => trivial
  | first :: rest => by
      refine ⟨?_, placed_itemElements (view + first.count) around rest⟩
      exact ⟨.plain rfl rfl, placed_element view true _ first, trivial⟩

theorem placed_fieldElements (view owner : Nat) (around : List Face) :
    ∀ fields : List (String × Node),
      AllAroundAll Face.Placed (.content .objectContent owner :: .region .object owner :: around)
        (fieldElements view fields)
  | [] => trivial
  | (key, value) :: rest => by
      refine ⟨?_, placed_fieldElements (view + value.count) owner around rest⟩
      exact Element.placed_field view owner key value fun around =>
        placed_element view value.fieldBraces?.isNone around value

end

/-- All faces of a rendered tree are placed. -/
theorem placed_of_inside {tree : Node} {k : Nat} {own : Face} {children : List Element}
    {faces : List Face} (inside : Element.Inside tree.rootElement k (.mk own children) faces) :
    own.Placed faces := by
  have all : tree.rootElement.AllAround Face.Placed [] :=
    ⟨.plain rfl rfl, placed_element 0 true _ tree, trivial⟩
  have placed := all.of_inside inside
  rwa [List.append_nil] at placed

end Node

theorem Face.click_shownAs (isOpen : Nat → Bool) (face : Face) :
    (face.shownAs isOpen).click = face.click := by
  unfold shownAs
  split <;> rfl

theorem Face.hasClass_link_shownAs (isOpen : Nat → Bool) (face : Face) (above : Option Nat)
    (below : List Nat) (style : StyleClass) :
    ((face.shownAs isOpen).link above below).hasClass style =
      (face.style :: face.extra).contains style := by
  unfold shownAs
  split <;> rfl

namespace TreeView

open Element (Inside)

/-! ## Titles and keys by links -/

/-- A widget is the name in the header of the view of a named object. -/
inductive IsTitle (t : TreeView) : Nat → Nat → Prop
  | mk {id v container header : Nat} {view : View} {h w : Widget} (found : t.views[v]? = some view)
      (kind : view.kind = .namedObject) (noted : view.container = some container)
      (above : t.widgets.get? header = some h) (isHeader : h.hasClass .objectHeader = true)
      (within : h.parent = some container) (here : t.widgets.get? id = some w)
      (isName : w.hasClass .headerName = true) (below : w.parent = some header) :
      IsTitle t id v

/-- A widget is the key of a field, by number, of the view of an object. -/
inductive IsKey (t : TreeView) : Nat → View → Nat → Prop
  | mk {id i content item : Nat} {view : View} {c w : Widget} (member : view ∈ t.views)
      (object : view.kind = .namedObject ∨ view.kind = .record)
      (noted : view.content = some content) (row : t.widgets.get? content = some c)
      (place : c.children[i]? = some item) (here : t.widgets.get? id = some w)
      (isKey : w.hasClass .itemKey = true) (below : w.parent = some item) :
      IsKey t id view i

/-- A widget is the key of a field whose value can be opened and has the given view. -/
def IsOpener (t : TreeView) (id v : Nat) : Prop :=
  ∃ view i node, t.IsKey id view i ∧ t.findView? (view.source ++ [.field i]) = some v ∧
    t.node? v = some node ∧ node.isExpandable = true

variable {tree : Node} {isOpen : Nat → Bool} {id i v : Nat} {view : View}

/-- The content of an object's view holds the elements of the fields. -/
theorem exists_fields_shown (found : (shown tree isOpen).views[i]? = some view)
    (object : view.kind = .namedObject ∨ view.kind = .record) :
    ∃ name fields span k faces, tree.resolve? view.source = some (.object name fields span) ∧
      view.content = some k ∧
      Inside tree.rootElement k
        (.mk (.content .objectContent i) (Node.fieldElements (i + 1) fields)) faces := by
  have expandable : view.kind.isExpandable = true := by
    rcases object with named | unnamed
    · rw [named]
      rfl
    · rw [unnamed]
      rfl
  obtain ⟨node, k, resolved, kind, content, inside⟩ := exists_contents_shown found expandable
  rcases object with named | unnamed
  · rw [named] at kind
    cases kind
    exact ⟨_, _, _, k, _, resolved, content, inside⟩
  · rw [unnamed] at kind
    cases kind
    exact ⟨_, _, _, k, _, resolved, content, inside⟩

/-! ## Titles -/

theorem click_of_isTitle (title : (shown tree isOpen).IsTitle id v) :
    ((shown tree isOpen).widgets.get? id).bind (·.click) = some v := by
  obtain ⟨found, kind, noted, above, isHeader, within, here, isName, below⟩ := title
  obtain ⟨node, k, braces, -, shows, noted', element⟩ := exists_element_shown found
  obtain rfl := Option.some.inj (noted'.symm.trans noted)
  rw [kind] at shows
  cases shows with
  | namedObject name fields span =>
  -- Only the header has its class among the children of the container, and only the title among
  -- those of the header.
  obtain ⟨own, inner, member, placed, rfl⟩ := Element.exists_child_of_parent above within element
  rw [Face.hasClass_link_shownAs] at isHeader
  simp only [List.mem_cons, List.not_mem_nil, or_false] at member
  rcases member with same | same | same | same
  all_goals cases same
  · obtain ⟨own, inner, member, -, rfl⟩ := Element.exists_child_of_parent here below placed
    rw [Face.hasClass_link_shownAs] at isName
    simp only [List.mem_cons, List.not_mem_nil, or_false] at member
    rw [here]
    rcases member with same | same | same
    all_goals cases same
    · cases isName
    · rfl
    · cases isName
  · cases isHeader
  · cases isHeader
  · cases isHeader

/-- Between the braces of an unnamed object's or an array's element there are only its parts. -/
theorem part_of_mem_enclosed {view : Nat} {braces : Option (String × String)} {style : StyleClass}
    {content inner : List Element} {own : Face}
    (member : Element.mk own inner ∈ Element.enclosed view braces
      [.leaf (.ellipsis view), .mk (.content style view) content]) : own.part.isSome = true := by
  cases braces with
  | none =>
      simp only [Element.enclosed, List.mem_cons, List.not_mem_nil, or_false] at member
      rcases member with same | same
      all_goals
        cases same
        rfl
  | some texts =>
      simp only [Element.enclosed, List.cons_append, List.nil_append, List.mem_cons,
        List.not_mem_nil, or_false] at member
      rcases member with same | same | same | same
      all_goals
        cases same
        rfl

/-- What is drawn as the region of an object is the element of the view's node, an object. -/
theorem exists_object_of_inside {k : Nat} {children : List Element} {faces : List Face}
    (inside : Inside tree.rootElement k (.mk (.region .object v) children) faces)
    (isOpen : Nat → Bool) :
    ∃ view name fields span braces, (shown tree isOpen).views[v]? = some view ∧
      view.container = some k ∧ view.kind.Shows (.object name fields span) ∧
      Inside tree.rootElement k ((Node.object name fields span).element v braces) faces := by
  obtain ⟨view, found, noted⟩ := exists_view_of_getElem?_faces inside.getElem?_faces rfl isOpen
  obtain ⟨node, k', braces, -, shows, noted', element⟩ := exists_element_shown found
  obtain rfl : k' = k := Option.some.inj (noted'.symm.trans (Option.mem_toList.1 noted))
  obtain ⟨same, rfl⟩ := element.unique inside
  match node with
  | .object name fields span =>
      exact ⟨view, name, fields, span, braces, found, noted', shows, element⟩
  | .array (first :: rest) => cases congrArg Face.style (Element.mk.inj same).1
  | .array [] => cases congrArg Face.hover (Element.mk.inj same).1
  | .leaf value => cases congrArg Face.hover (Element.mk.inj same).1

theorem isTitle_of_inside {name : String} {children : List Element} {rest : List Face}
    (inside : Inside tree.rootElement id (.mk (.title v name) children)
      (.group .objectHeader .block :: .region .object v :: rest)) :
    (shown tree isOpen).IsTitle id v := by
  obtain ⟨header, before, after, above, rfl⟩ := inside.exists_around
  obtain ⟨container, before', after', within, rfl⟩ := above.exists_around
  have linked := Element.get?_toTree_child (g := Face.shownAs isOpen) within
  obtain ⟨view, name, fields, span, braces, found, noted, shows, element⟩ :=
    exists_object_of_inside within isOpen
  have kind : view.kind = .namedObject := by
    generalize view.kind = kind at shows ⊢
    cases shows with
    | namedObject => rfl
    | record =>
        -- The header would be among the parts that such an element holds.
        obtain ⟨own, inner, member, placed, -⟩ :=
          Element.exists_child_of_parent linked rfl element
        cases (placed.unique above).1
        cases part_of_mem_enclosed member
  exact .mk found kind noted linked rfl rfl (Element.get?_toTree_child above) rfl rfl

/-! ## Keys -/

/-- In the content of an object's view, the child with the number of a field is the element of
the field's value. -/
theorem exists_field_of_place (found : (shown tree isOpen).views[v]? = some view)
    (object : view.kind = .namedObject ∨ view.kind = .record) {content item : Nat} {c : Widget}
    (noted : view.content = some content)
    (row : (shown tree isOpen).widgets.get? content = some c)
    (place : c.children[i]? = some item) :
    ∃ text value element faces, tree.resolve? (view.source ++ [.field i]) = some value ∧
      Inside tree.rootElement item
        (.field (tree.rank (view.source ++ [.field i])) text value element) faces := by
  obtain ⟨-, -, -, ranked⟩ := exists_node_of_getElem?_shown found
  obtain ⟨name, fields, span, k, faces, resolved, noted', inside⟩ :=
    exists_fields_shown found object
  obtain rfl := Option.some.inj (noted'.symm.trans noted)
  obtain ⟨above, linked⟩ := Element.exists_get?_toTree (g := Face.shownAs isOpen) inside
  obtain rfl := Option.some.inj (row.symm.trans linked)
  obtain ⟨before, e, after, split, rfl, rfl⟩ := Element.exists_of_getElem?_numbers place
  -- The elements of the fields come in the order of the fields, with the ranks of the values.
  have drawn := Node.getElem?_fieldElements (v + 1) before.length fields
  rw [split, List.getElem?_append_right (Nat.le_refl _), Nat.sub_self] at drawn
  obtain ⟨⟨text, value⟩, field, same⟩ := Option.map_eq_some_iff.1 drawn.symm
  have child : (Node.object name fields span).child? (.field before.length) = some value :=
    Option.map_eq_some_iff.2 ⟨_, field, rfl⟩
  have rank : tree.rank (view.source ++ [.field before.length]) =
      v + 1 + Node.countFields (fields.take before.length) := by
    rw [Node.rank_append resolved, ranked, Node.rank, child, Nat.add_assoc]
    rfl
  have reached : tree.resolve? (view.source ++ [.field before.length]) = some value := by
    rw [Node.resolve?_append, resolved, Option.bind_some, Node.resolve?, child]
    rfl
  rw [split, ← same] at inside
  have placed := inside.into
  rw [← Nat.add_assoc] at placed
  rw [rank]
  exact ⟨text, value, _, _, reached, placed⟩

/-- The key of a field is drawn as the key of the value at the field's path. -/
theorem exists_get?_of_isKey (key : (shown tree isOpen).IsKey id view i) :
    ∃ text value above below, tree.resolve? (view.source ++ [.field i]) = some value ∧
      (shown tree isOpen).widgets.get? id = some ((Face.key text
        (if value.isExpandable then some (tree.rank (view.source ++ [.field i])) else none)).link
          above below) := by
  obtain ⟨member, object, noted, row, place, here, isKey, below⟩ := key
  obtain ⟨v, found⟩ := Array.getElem?_of_mem member
  obtain ⟨text, value, element, faces, resolved, inside⟩ :=
    exists_field_of_place found object noted row place
  obtain ⟨own, inner, held, -, rfl⟩ := Element.exists_child_of_parent here below inside
  rw [Face.hasClass_link_shownAs] at isKey
  simp only [List.mem_cons, List.not_mem_nil, or_false] at held
  rcases held with same | same
  all_goals cases same
  · exact ⟨text, value, _, _, resolved, here⟩
  · cases isKey

/-- A key that is drawn is the key of a field of the view around it. -/
theorem exists_isKey_of_inside {text : String} {button : Option Nat} {children : List Element}
    {rest : List Face} (inside : Inside tree.rootElement id (.mk (.key text button) children)
      (.group .contentItem .block :: .content .objectContent v :: .region .object v :: rest))
    (isOpen : Nat → Bool) : ∃ view i, (shown tree isOpen).IsKey id view i := by
  obtain ⟨item, before, after, above, rfl⟩ := inside.exists_around
  obtain ⟨content, before', after', within, rfl⟩ := above.exists_around
  obtain ⟨container, _, _, outside, -⟩ := within.exists_around
  obtain ⟨view, name, fields, span, braces, found, -, shows, -⟩ :=
    exists_object_of_inside outside isOpen
  have object : view.kind = .namedObject ∨ view.kind = .record := by
    generalize view.kind = kind at shows ⊢
    cases shows with
    | namedObject => exact .inl rfl
    | record => exact .inr rfl
  have noted := mem_ids_of_inside found within rfl
  obtain ⟨above', linked⟩ := Element.exists_get?_toTree (g := Face.shownAs isOpen) within
  have place := Element.getElem?_numbers_length (content + 1) before'
    (.mk (.group .contentItem .block) (before ++ .mk (.key text button) children :: after)) after'
  rw [Nat.add_assoc] at place
  exact ⟨view, before'.length, .mk (Array.mem_of_getElem? found) object (Option.mem_toList.1 noted)
    linked place (Element.get?_toTree_child above) rfl rfl⟩

/-- A key that can be clicked opens the value of its field. -/
theorem isOpener_of_isKey {w : Widget} (key : (shown tree isOpen).IsKey id view i)
    (here : (shown tree isOpen).widgets.get? id = some w) (click : w.click = some v) :
    (shown tree isOpen).IsOpener id v := by
  obtain ⟨text, value, above, below, resolved, here'⟩ := exists_get?_of_isKey key
  obtain rfl := Option.some.inj (here.symm.trans here')
  have button : (if value.isExpandable then some (tree.rank (view.source ++ [.field i]))
      else none) = some v := click
  split at button
  · next expandable =>
      cases button
      refine ⟨view, i, value, key, ?_, ?_, expandable⟩
      · rw [findView?_shown_eq, resolved, Option.map_some]
      · exact node?_shown (Node.getElem?_outline_rank resolved []) isOpen
  · cases button

theorem exists_get?_of_isOpener (opener : (shown tree isOpen).IsOpener id v) :
    ∃ w, (shown tree isOpen).widgets.get? id = some w ∧ w.click = some v ∧
      w.hasClass .keyButton = true := by
  obtain ⟨view, i, node, key, found, own, expandable⟩ := opener
  obtain ⟨text, value, above, below, resolved, here⟩ := exists_get?_of_isKey key
  rw [findView?_shown_eq, resolved, Option.map_some] at found
  obtain rfl := Option.some.inj found
  have same := node?_shown (Node.getElem?_outline_rank resolved []) isOpen
  obtain rfl := Option.some.inj (own.symm.trans same)
  rw [if_pos expandable] at here
  exact ⟨_, here, rfl, rfl⟩

/-! ## Clicks -/

/-- Exactly the titles and the keys of values that can be opened can be clicked. -/
theorem click_shown_iff :
    ((shown tree isOpen).widgets.get? id).bind (·.click) = some v ↔
      (shown tree isOpen).IsTitle id v ∨ (shown tree isOpen).IsOpener id v := by
  constructor
  · intro click
    obtain ⟨w, here, action⟩ := Option.bind_eq_some_iff.1 click
    obtain ⟨own, children, faces, above, inside, rfl⟩ := Element.exists_inside_of_get?_toTree here
    have drawn : own.click = some v := (Face.click_shownAs isOpen own).symm.trans action
    cases Node.placed_of_inside inside with
    | title view name rest =>
        obtain rfl : view = v := Option.some.inj drawn
        exact .inl (isTitle_of_inside inside)
    | key text button view rest =>
        obtain ⟨view, i, key⟩ := exists_isKey_of_inside inside isOpen
        exact .inr (isOpener_of_isKey key here action)
    | plain silent unmarked => cases silent.symm.trans drawn
  · rintro (title | opener)
    · exact click_of_isTitle title
    · obtain ⟨w, here, action, -⟩ := exists_get?_of_isOpener opener
      rw [here, Option.bind_some, action]

/-- Exactly the keys of values that can be opened are marked as buttons. -/
theorem hasClass_keyButton_shown_iff :
    ((shown tree isOpen).widgets.get? id).any (·.hasClass .keyButton) = true ↔
      ∃ v, (shown tree isOpen).IsOpener id v := by
  constructor
  · intro marked
    obtain ⟨w, here, button⟩ := Option.any_eq_true _ _ |>.1 marked
    obtain ⟨own, children, faces, above, inside, rfl⟩ := Element.exists_inside_of_get?_toTree here
    rw [Face.hasClass_link_shownAs] at button
    cases Node.placed_of_inside inside with
    | title view name rest => cases button
    | key text target view rest =>
        obtain ⟨view, i, key⟩ := exists_isKey_of_inside inside isOpen
        cases target with
        | none => cases button
        | some v => exact ⟨v, isOpener_of_isKey key here rfl⟩
    | plain silent unmarked => cases unmarked.symm.trans button
  · rintro ⟨v, opener⟩
    obtain ⟨w, here, -, button⟩ := exists_get?_of_isOpener opener
    rw [here, Option.any_some, button]

/-- What can be clicked toggles a view that can be toggled. -/
theorem exists_view_of_click
    (click : ((shown tree isOpen).widgets.get? id).bind (·.click) = some v) :
    ∃ view, (shown tree isOpen).views[v]? = some view ∧ view.kind.isExpandable = true := by
  rcases click_shown_iff.1 click with title | opener
  · obtain ⟨found, kind, -⟩ := title
    exact ⟨_, found, by rw [kind]; rfl⟩
  · obtain ⟨-, -, node, -, -, own, expandable⟩ := opener
    obtain ⟨view, found, resolved⟩ := Option.bind_eq_some_iff.1 own
    obtain ⟨node', resolved', shows, -⟩ := exists_node_of_getElem?_shown found
    obtain rfl := Option.some.inj (resolved.symm.trans resolved')
    exact ⟨view, found, by rw [shows.isExpandable_eq, expandable]⟩

/-- A click on what can be clicked flips one view. -/
theorem isOpen?_of_click (click : ((shown tree isOpen).widgets.get? id).bind (·.click) = some v) :
    ∃ next state, (shown tree isOpen).click? id = some next ∧
      (shown tree isOpen).isOpen? v = some state ∧
      ∀ j, next.isOpen? j = if j = v then some (!state) else (shown tree isOpen).isOpen? j := by
  obtain ⟨view, found, expandable⟩ := exists_view_of_click click
  obtain ⟨next, toggled⟩ : ∃ next, (shown tree isOpen).toggle? v = some next := by
    rw [toggle?, found, Option.bind_some, if_pos expandable]
    exact ⟨_, rfl⟩
  have state : (shown tree isOpen).isOpen? v = some view.isOpen := by
    rw [isOpen?, found, Option.map_some]
  refine ⟨next, view.isOpen, by rw [click?, click, Option.bind_some, toggled], state, ?_⟩
  intro j
  rw [isOpen?_of_toggle? toggled]
  split
  · next own => rw [own, state, Option.map_some]
  · rfl

/-- **Click targets.** After any toggles and clicks on a fresh render, a widget toggles a view if
and only if it is the title of a named object's view, or the key of a field of an object whose
value can be opened, and then the view is that of the value. Exactly such keys are marked as
buttons. A click succeeds exactly on a widget that toggles a view; it opens or closes this view
and leaves the state of every other one. A click on anything else, be it a widget or not, leaves
everything as it is. -/
theorem clicks_performAll_render (tree : Node) (gestures : List Gesture) (id : Nat) :
    let t := (render tree).performAll gestures
    (∀ v, (t.widgets.get? id).bind (·.click) = some v ↔ t.IsTitle id v ∨ t.IsOpener id v) ∧
    ((t.widgets.get? id).any (·.hasClass .keyButton) = true ↔ ∃ v, t.IsOpener id v) ∧
    ((t.click? id).isSome ↔ ((t.widgets.get? id).bind (·.click)).isSome) ∧
    (∀ v, (t.widgets.get? id).bind (·.click) = some v →
      ∃ state, t.isOpen? v = some state ∧
        ∀ j, (t.perform (.click id)).isOpen? j = if j = v then some (!state) else t.isOpen? j) ∧
    ((t.widgets.get? id).bind (·.click) = none → t.perform (.click id) = t) := by
  intro t
  obtain ⟨isOpen, state⟩ : ∃ isOpen, t = shown tree isOpen := ⟨_, performAll_render tree gestures⟩
  rw [state]
  refine ⟨fun v => click_shown_iff, hasClass_keyButton_shown_iff, ?_, ?_, ?_⟩
  · cases click : ((shown tree isOpen).widgets.get? id).bind (·.click) with
    | none =>
        rw [click?, click, Option.bind_none]
        exact Iff.rfl
    | some v =>
        obtain ⟨next, -, clicked, -⟩ := isOpen?_of_click click
        rw [clicked]
        exact Iff.rfl
  · intro v click
    obtain ⟨next, state, clicked, before, after⟩ := isOpen?_of_click click
    refine ⟨state, before, ?_⟩
    rw [perform, clicked]
    exact after
  · intro silent
    rw [perform, click?, silent]
    rfl

/-- In a closed object, the key of a closed array opens it again; the key of a leaf and a number
without a widget do nothing. -/
theorem clicks_performAll_render_closed :
    let tree : Node := .object (some "N") [("a", .array [.null]), ("b", .null)] none
    let t := (render tree).performAll [.toggle 1, .click 4]
    (t.widgets.get? 9).bind (·.click) = some 1 ∧ (t.IsTitle 9 1 ∨ t.IsOpener 9 1) ∧
      (∃ state, t.isOpen? 1 = some state ∧
        ∀ j, (t.perform (.click 9)).isOpen? j = if j = 1 then some (!state) else t.isOpen? j) ∧
      ((t.widgets.get? 19).bind (·.click) = none ∧ t.perform (.click 19) = t) ∧
      (t.widgets.get? 100).bind (·.click) = none ∧ t.perform (.click 100) = t := by
  intro tree t
  have click : (t.widgets.get? 9).bind (·.click) = some 1 := by decide
  have silent : (t.widgets.get? 19).bind (·.click) = none := by decide
  have missing : (t.widgets.get? 100).bind (·.click) = none := by decide
  have clicks := clicks_performAll_render tree [.toggle 1, .click 4]
  obtain ⟨targets, -, -, flips, -⟩ := clicks 9
  obtain ⟨-, -, -, -, leaf⟩ := clicks 19
  obtain ⟨-, -, -, -, outside⟩ := clicks 100
  exact ⟨click, (targets 1).1 click, flips 1 click, ⟨silent, leaf silent⟩, missing, outside missing⟩

end TreeView

end TreeLens
