import Mathlib.Data.List.Count
import TreeLens.Proofs.Tree.Outline
import TreeLens.Proofs.View.Numbering
import TreeLens.View.Basic

/-!
# Parts of views

Which widgets belong to which view. A view's braces are drawn either inside its own
container or by the field around it, so they are counted for the two together
(`Element.drawn`). `Element.parts_drawn_perm` says that rendering a tree draws exactly
the parts that its views are due, each once; it follows that the widgets noted in a
rendered view for a part are exactly those that were drawn as this part of it
(`TreeView.mem_ids_iff`), and how many there are (`TreeView.length_ids`).
-/

namespace TreeLens

/-- The parts that a view of a kind has. -/
def ViewKind.parts : ViewKind → List Part
  | .namedObject => [.container, .glyph, .brace, .ellipsis, .content, .brace]
  | .record => [.container, .brace, .ellipsis, .content, .brace]
  | .array => [.container, .brace, .ellipsis, .content, .brace]
  | .emptyArray => [.container]
  | .primitive => [.container]

/-- The parts that the views of an outline have, the first view having number `view`. -/
def dueParts (view : Nat) : List (Path × Node) → List (Nat × Part)
  | [] => []
  | entry :: rest => entry.2.viewKind.parts.map (view, ·) ++ dueParts (view + 1) rest

theorem dueParts_append (view : Nat) (entries others : List (Path × Node)) :
    dueParts view (entries ++ others) =
      dueParts view entries ++ dueParts (view + entries.length) others := by
  induction entries generalizing view with
  | nil => rfl
  | cons entry rest ih =>
      simp only [List.cons_append, dueParts, ih, List.length_cons, List.append_assoc,
        Nat.add_assoc, Nat.add_comm 1]

/-- A view that stands in an outline is due the parts of its kind, any other view none. -/
theorem count_dueParts (view owner : Nat) (part : Part) (entries : List (Path × Node)) :
    (dueParts view entries).count (owner, part) =
      if view ≤ owner then
        (entries[owner - view]?).elim 0 fun entry => entry.2.viewKind.parts.count part
      else 0 := by
  induction entries generalizing view with
  | nil => simp [dueParts]
  | cons entry rest ih =>
      rw [dueParts, List.count_append, ih]
      by_cases own : owner = view
      · subst own
        have here : (entry.2.viewKind.parts.map (owner, ·)).count (owner, part) =
            entry.2.viewKind.parts.count part :=
          List.count_map_of_injective _ _ (fun a b same => (Prod.mk.inj same).2) part
        rw [here, if_neg (Nat.not_succ_le_self owner), if_pos (Nat.le_refl owner), Nat.sub_self]
        rfl
      · have none : (entry.2.viewKind.parts.map (view, ·)).count (owner, part) = 0 := by
          rw [List.count_eq_zero]
          intro member
          obtain ⟨_, _, same⟩ := List.mem_map.1 member
          exact own (Prod.mk.inj same).1.symm
        rw [none, Nat.zero_add]
        by_cases later : view < owner
        · have next : owner - view = owner - (view + 1) + 1 := by omega
          rw [if_pos (by omega), if_pos (by omega), next, List.getElem?_cons_succ]
        · rw [if_neg (by omega), if_neg (by omega)]

/-! ## What rendering draws -/

/-- The faces that rendering draws. -/
inductive Face.Drawn : Face → Prop
  | root : Drawn .root
  | region (style : StyleClass) (view : Nat) : Drawn (.region style view)
  | content (style : StyleClass) (view : Nat) : Drawn (.content style view)
  | ellipsis (view : Nat) : Drawn (.ellipsis view)
  | brace (view : Nat) (text : String) : Drawn (.brace view text)
  | glyph (view : Nat) : Drawn (.glyph view)
  | title (view : Nat) (name : String) : Drawn (.title view name)
  | single (style : StyleClass) (view : Nat) (text : String) : Drawn (.single style view text)
  | group (style : StyleClass) (display : Display) : Drawn (.group style display)
  | key (text : String) (button : Option Nat) : Drawn (.key text button)

namespace Element

/-- The parts that the widgets of elements play. -/
def parts (es : List Element) : List (Nat × Part) :=
  (facesAll es).filterMap Face.part

/-- The element of a node with the braces that a field draws around it if the node does
not draw its own. -/
def drawn (view : Nat) (braces : Bool) (n : Node) : List Element :=
  enclosed view (if braces then none else n.fieldBraces?) [n.element view braces]

theorem drawn_true (view : Nat) (n : Node) : drawn view true n = [n.element view true] := rfl

/-- What a field draws around its value. -/
theorem enclosed_fieldBraces? (view : Nat) (n : Node) :
    enclosed view n.fieldBraces? [n.element view n.fieldBraces?.isNone] =
      drawn view n.fieldBraces?.isNone n := by
  cases braces : n.fieldBraces? <;> simp [drawn, braces, enclosed]

theorem parts_append (es ds : List Element) : parts (es ++ ds) = parts es ++ parts ds := by
  rw [parts, facesAll_append, List.filterMap_append]
  rfl

theorem parts_cons (face : Face) (children rest : List Element) :
    parts (.mk face children :: rest) = face.part.toList ++ (parts children ++ parts rest) := by
  cases h : face.part <;>
    simp [parts, facesAll, faces, List.filterMap_append, h]

theorem parts_nil : parts [] = [] := rfl

theorem parts_item (e : Element) (rest : List Element) :
    parts (item e :: rest) = parts [e] ++ parts rest := by
  rw [item, parts_cons]
  rfl

theorem parts_field (view : Nat) (key : String) (value : Node) (rest : List Element) :
    parts (field view key value (value.element view value.fieldBraces?.isNone) :: rest) =
      parts (drawn view value.fieldBraces?.isNone value) ++ parts rest := by
  rw [field, parts_cons, leaf, parts_cons, parts_cons, enclosed_fieldBraces?]
  simp [Face.group, Face.key, parts_nil]

/-- All faces of elements are among those that rendering draws. -/
def AllDrawn (es : List Element) : Prop :=
  ∀ face ∈ facesAll es, face.Drawn

theorem allDrawn_nil : AllDrawn [] := by
  intro face member
  simp [facesAll] at member

theorem allDrawn_cons {face : Face} {children rest : List Element} (own : face.Drawn)
    (below : AllDrawn children) (after : AllDrawn rest) :
    AllDrawn (.mk face children :: rest) := by
  intro other member
  simp only [facesAll, faces, List.cons_append, List.mem_cons, List.mem_append] at member
  rcases member with rfl | member | member
  · exact own
  · exact below other member
  · exact after other member

theorem allDrawn_append {es ds : List Element} (front : AllDrawn es) (back : AllDrawn ds) :
    AllDrawn (es ++ ds) := by
  intro face member
  rw [facesAll_append, List.mem_append] at member
  exact member.elim (front face) (back face)

theorem allDrawn_enclosed (view : Nat) (braces : Option (String × String)) {inner : List Element}
    (drawn : AllDrawn inner) : AllDrawn (enclosed view braces inner) := by
  cases braces with
  | none => exact drawn
  | some texts =>
      exact allDrawn_cons (.brace _ _) allDrawn_nil
        (allDrawn_append drawn (allDrawn_cons (.brace _ _) allDrawn_nil allDrawn_nil))

theorem allDrawn_bracketed (view : Nat) (style contentStyle : StyleClass)
    (braces : Option (String × String)) {content : List Element} (drawn : AllDrawn content) :
    AllDrawn [bracketed view style contentStyle braces content] :=
  allDrawn_cons (.region _ _)
    (allDrawn_enclosed view braces (allDrawn_cons (.ellipsis _) allDrawn_nil
      (allDrawn_cons (.content _ _) drawn allDrawn_nil)))
    allDrawn_nil

theorem allDrawn_titled (view : Nat) (name : String) {content : List Element}
    (drawn : AllDrawn content) : AllDrawn [titled view name content] := by
  have header : AllDrawn [leaf (.glyph view), leaf (.title view name), leaf (.brace view "\x7b")] :=
    allDrawn_cons (.glyph _) allDrawn_nil (allDrawn_cons (.title _ _) allDrawn_nil
      (allDrawn_cons (.brace _ _) allDrawn_nil allDrawn_nil))
  exact allDrawn_cons (.region _ _)
    (allDrawn_cons (.group _ _) header (allDrawn_cons (.ellipsis _) allDrawn_nil
      (allDrawn_cons (.content _ _) drawn
        (allDrawn_cons (.brace _ _) allDrawn_nil allDrawn_nil))))
    allDrawn_nil

mutual

theorem allDrawn_element (view : Nat) (braces : Bool) : ∀ n : Node, AllDrawn [n.element view braces]
  | .leaf _ => allDrawn_cons (.single _ _ _) allDrawn_nil allDrawn_nil
  | .array [] => allDrawn_cons (.single _ _ _) allDrawn_nil allDrawn_nil
  | .array (first :: rest) =>
      allDrawn_bracketed view _ _ _ (allDrawn_itemElements (view + 1) (first :: rest))
  | .object (some name) fields _ =>
      allDrawn_titled view name (allDrawn_fieldElements (view + 1) fields)
  | .object none fields _ =>
      allDrawn_bracketed view _ _ _ (allDrawn_fieldElements (view + 1) fields)

theorem allDrawn_itemElements (view : Nat) :
    ∀ items : List Node, AllDrawn (Node.itemElements view items)
  | [] => allDrawn_nil
  | item :: rest =>
      allDrawn_cons (.group _ _) (allDrawn_element view true item)
        (allDrawn_itemElements (view + item.count) rest)

theorem allDrawn_fieldElements (view : Nat) :
    ∀ fields : List (String × Node), AllDrawn (Node.fieldElements view fields)
  | [] => allDrawn_nil
  | (key, value) :: rest => by
      have inner := allDrawn_enclosed view value.fieldBraces?
        (allDrawn_element view value.fieldBraces?.isNone value)
      exact allDrawn_cons (.group _ _)
        (allDrawn_cons (.key _ _) allDrawn_nil (allDrawn_cons (.group _ _) inner allDrawn_nil))
        (allDrawn_fieldElements (view + value.count) rest)

end

/-! ## Every part is drawn once -/

/-- The parts of an unnamed object or an array, its braces drawn inside or around it. -/
theorem parts_bracketed_perm (view : Nat) (style contentStyle : StyleClass) (own : Bool)
    (braces : String × String) (content : List Element) :
    (parts (enclosed view (if own then none else some braces)
      [bracketed view style contentStyle (if own then some braces else none) content])).Perm
      ([.container, .brace, .ellipsis, .content, .brace].map (view, ·) ++ parts content) := by
  have last : (parts content ++ [(view, Part.brace)]).Perm ((view, .brace) :: parts content) :=
    List.perm_append_singleton _ _
  cases own with
  | true =>
      simp [bracketed, enclosed, leaf, parts_cons, parts_nil, Face.region, Face.content,
        Face.ellipsis, Face.brace]
  | false =>
      -- The field draws both braces outside the container: one comes before it, one last.
      have swapped := (((last.cons (view, Part.content)).cons (view, Part.ellipsis)).cons
        (view, Part.container)).cons (view, Part.brace)
      simpa [bracketed, enclosed, leaf, parts_cons, parts_append, parts_nil, Face.region,
        Face.content, Face.ellipsis, Face.brace] using
        swapped.trans (List.Perm.swap (view, Part.container) (view, Part.brace) _)

theorem parts_titled_perm (view : Nat) (name : String) (content : List Element) :
    (parts [titled view name content]).Perm
      (ViewKind.namedObject.parts.map (view, ·) ++ parts content) := by
  simp [titled, leaf, parts_cons, parts_nil, Face.region, Face.content, Face.ellipsis, Face.brace,
    Face.group, Face.glyph, Face.title, ViewKind.parts]

mutual

/-- Rendering a node draws exactly the parts that the views of its outline are due. -/
theorem parts_drawn_perm (here : Path) (view : Nat) (braces : Bool) :
    ∀ n : Node, (parts (drawn view braces n)).Perm (dueParts view (n.outline here))
  | .leaf value => by
      cases braces <;>
        simp [drawn, enclosed, Node.fieldBraces?, Node.element, leaf, parts_cons, parts_nil,
          Face.single, Node.outline, dueParts, Node.viewKind, ViewKind.parts]
  | .array [] => by
      cases braces <;>
        simp [drawn, enclosed, Node.fieldBraces?, Node.element, leaf, parts_cons, parts_nil,
          Face.single, Node.outline, Node.outlineItems, dueParts, Node.viewKind, ViewKind.parts]
  | .array (first :: rest) => by
      have inner := parts_itemElements_perm here (view + 1) 0 (first :: rest)
      exact (parts_bracketed_perm view .array .arrayContent braces ("[", "]")
        (Node.itemElements (view + 1) (first :: rest))).trans (inner.append_left _)
  | .object (some name) fields span => by
      have inner := parts_fieldElements_perm here (view + 1) 0 fields
      have own := (parts_titled_perm view name (Node.fieldElements (view + 1) fields)).trans
        (inner.append_left _)
      -- A named object draws its braces itself, whatever it is told.
      cases braces <;> exact own
  | .object none fields span => by
      have inner := parts_fieldElements_perm here (view + 1) 0 fields
      exact (parts_bracketed_perm view .object .objectContent braces ("\x7b", "\x7d")
        (Node.fieldElements (view + 1) fields)).trans (inner.append_left _)

theorem parts_itemElements_perm (here : Path) (view i : Nat) :
    ∀ items : List Node,
      (parts (Node.itemElements view items)).Perm (dueParts view (Node.outlineItems here i items))
  | [] => List.Perm.refl _
  | item :: rest => by
      rw [Node.itemElements, parts_item, Node.outlineItems, dueParts_append, Node.length_outline]
      exact (parts_drawn_perm (here ++ [.item i]) view true item).append
        (parts_itemElements_perm here (view + item.count) (i + 1) rest)

theorem parts_fieldElements_perm (here : Path) (view i : Nat) :
    ∀ fields : List (String × Node),
      (parts (Node.fieldElements view fields)).Perm
        (dueParts view (Node.outlineFields here i fields))
  | [] => List.Perm.refl _
  | (key, value) :: rest => by
      rw [Node.fieldElements, parts_field, Node.outlineFields, dueParts_append,
        Node.length_outline]
      exact (parts_drawn_perm (here ++ [.field i]) view _ value).append
        (parts_fieldElements_perm here (view + value.count) (i + 1) rest)

end

end Element

theorem Node.drawn_of_mem_faces {tree : Node} {face : Face}
    (member : face ∈ tree.rootElement.faces) : face.Drawn := by
  refine Element.allDrawn_cons .root (Element.allDrawn_element 0 true tree) Element.allDrawn_nil
    face ?_
  simpa [Element.facesAll, Node.rootElement] using member

/-- Rendering a whole tree draws exactly the parts that its views are due. -/
theorem Node.parts_rootElement_perm (tree : Node) :
    (tree.rootElement.faces.filterMap Face.part).Perm (dueParts 0 (tree.outline [])) := by
  have whole := Element.parts_drawn_perm [] 0 true tree
  simpa [Element.drawn_true, Element.parts, Element.facesAll, Node.rootElement, Element.faces,
    Face.root] using whole

/-- How many widgets play a part for the view of an entry of the outline. -/
theorem Node.count_parts_rootElement {tree : Node} {i : Nat} {entry : Path × Node}
    (found : (tree.outline [])[i]? = some entry) (part : Part) :
    (tree.rootElement.faces.filterMap Face.part).count (i, part) =
      entry.2.viewKind.parts.count part := by
  rw [tree.parts_rootElement_perm.count_eq, count_dueParts]
  simp [found]

/-! ## What views note -/

/-- The widgets that play a part for a view, the first face belonging to widget `id`. -/
def Face.players (owner : Nat) (part : Part) (id : Nat) : List Face → List Nat
  | [] => []
  | face :: rest =>
    (if face.part = some (owner, part) then [id] else []) ++ players owner part (id + 1) rest

theorem Face.length_players (owner : Nat) (part : Part) (id : Nat) (faces : List Face) :
    (players owner part id faces).length = (faces.filterMap Face.part).count (owner, part) := by
  induction faces generalizing id with
  | nil => rfl
  | cons face rest ih =>
      rw [players, List.length_append, ih]
      cases played : face.part with
      | none => simp [played]
      | some other => by_cases same : other = (owner, part) <;> simp [played, same, Nat.add_comm]

theorem Face.mem_players {owner : Nat} {part : Part} {id i : Nat} {faces : List Face} :
    i ∈ players owner part id faces ↔
      id ≤ i ∧ ∃ face, faces[i - id]? = some face ∧ face.part = some (owner, part) := by
  induction faces generalizing id with
  | nil => simp [players]
  | cons face rest ih =>
      rw [players, List.mem_append, ih]
      by_cases own : i = id
      · subst own
        have before : ¬ i + 1 ≤ i := Nat.not_succ_le_self i
        rw [Nat.sub_self]
        simp only [before, false_and, or_false, Nat.le_refl, true_and, List.getElem?_cons_zero]
        simp
      · have other : i ∉ if face.part = some (owner, part) then [id] else [] := by
          split <;> simp [own]
        by_cases later : id < i
        · have next : i - id = i - (id + 1) + 1 := by omega
          simp [other, next, Nat.le_of_lt later, Nat.succ_le_of_lt later]
        · simp [other, show ¬ id + 1 ≤ i by omega, show ¬ id ≤ i by omega]

theorem Face.nodup_players (owner : Nat) (part : Part) (id : Nat) (faces : List Face) :
    (players owner part id faces).Nodup := by
  induction faces generalizing id with
  | nil => exact List.nodup_nil
  | cons face rest ih =>
      rw [players]
      split
      · refine List.nodup_cons.2 ⟨?_, ih (id + 1)⟩
        intro again
        have := (mem_players.1 again).1
        omega
      · exact ih (id + 1)

namespace View

/-- The widgets noted in a view for a part. -/
def ids (view : View) : Part → List Nat
  | .container => view.container.toList
  | .content => view.content.toList
  | .ellipsis => view.ellipsis.toList
  | .glyph => view.glyph.toList
  | .brace => view.braces

theorem ids_fresh (source : Path) (n : Node) (part : Part) : (fresh source n).ids part = [] := by
  cases part <;> rfl

/-- Noting a widget for a part keeps what is noted already, if there is room for it. -/
theorem ids_assign {view : View} {part : Part} (id : Nat) (other : Part)
    (room : part ≠ .brace → view.ids part = []) :
    (view.assign id part).ids other = view.ids other ++ if part = other then [id] else [] := by
  cases part <;> cases other <;> simp_all [ids, assign]

theorem kind_assign (view : View) (id : Nat) (part : Part) :
    (view.assign id part).kind = view.kind := by
  cases part <;> rfl

theorem source_assign (view : View) (id : Nat) (part : Part) :
    (view.assign id part).source = view.source := by
  cases part <;> rfl

theorem isOpen_assign (view : View) (id : Nat) (part : Part) :
    (view.assign id part).isOpen = view.isOpen := by
  cases part <;> rfl

theorem size_assignAll (id : Nat) (views : Array View) (faces : List Face) :
    (assignAll id views faces).size = views.size := by
  induction faces generalizing id views with
  | nil => rfl
  | cons face rest ih =>
      rw [assignAll]
      split
      · exact ih _ _
      · rw [ih, Array.size_modify]

/-- Every view notes the widgets that play its parts, unless two of them play a part of
which there can be only one. -/
theorem exists_of_getElem?_assignAll {owner id : Nat} {views : Array View} {faces : List Face}
    {noted : View} (found : (assignAll id views faces)[owner]? = some noted) :
    ∃ view, views[owner]? = some view ∧ noted.kind = view.kind ∧ noted.source = view.source ∧
      noted.isOpen = view.isOpen ∧
      ((∀ part, part ≠ .brace →
          (view.ids part).length + (Face.players owner part id faces).length ≤ 1) →
        ∀ part, noted.ids part = view.ids part ++ Face.players owner part id faces) := by
  induction faces generalizing id views with
  | nil => exact ⟨noted, found, rfl, rfl, rfl, fun _ part => by simp [Face.players]⟩
  | cons face rest ih =>
      rw [assignAll] at found
      split at found
      next none =>
        obtain ⟨view, old, kind, source, isOpen, ids⟩ := ih found
        refine ⟨view, old, kind, source, isOpen, ?_⟩
        simpa [Face.players, none] using ids
      next player part played =>
        obtain ⟨view, old, kind, source, isOpen, ids⟩ := ih found
        rw [Array.getElem?_modify] at old
        by_cases own : player = owner
        · subst own
          simp only [if_true, Option.map_eq_some_iff] at old
          obtain ⟨before, old, rfl⟩ := old
          refine ⟨before, old, by rw [kind, kind_assign], by rw [source, source_assign],
            by rw [isOpen, isOpen_assign], ?_⟩
          intro single other
          have room : part ≠ .brace → before.ids part = [] := by
            intro notBrace
            have bound := single part notBrace
            rw [Face.players, if_pos played, List.length_append, List.length_singleton] at bound
            exact List.length_eq_zero_iff.1 (by omega)
          have after : ∀ other, (before.assign id part).ids other ++
              Face.players player other (id + 1) rest =
                before.ids other ++ Face.players player other id (face :: rest) := by
            intro other
            rw [ids_assign id other room, Face.players, played, List.append_assoc]
            simp
          rw [ids ?_ other, after]
          intro third notBrace
          have bound := single third notBrace
          rwa [← List.length_append, ← after, List.length_append] at bound
        · rw [if_neg own] at old
          refine ⟨view, old, kind, source, isOpen, ?_⟩
          simpa [Face.players, played, own] using ids

end View

/-- Only braces occur twice among the parts of a view. -/
theorem ViewKind.count_parts_le_one (kind : ViewKind) {part : Part} (single : part ≠ .brace) :
    kind.parts.count part ≤ 1 := by
  cases kind <;> cases part <;> first | exact absurd rfl single | decide

namespace TreeView

theorem size_views_render (tree : Node) : (render tree).views.size = tree.count := by
  simp [render, View.size_assignAll, Node.length_outline]

/-- A rendered view is the open view of its entry in the outline, with the widgets that
were drawn as its parts. -/
theorem exists_entry_of_getElem?_render {tree : Node} {i : Nat} {view : View}
    (found : (render tree).views[i]? = some view) :
    ∃ entry, (tree.outline [])[i]? = some entry ∧ view.kind = entry.2.viewKind ∧
      view.source = entry.1 ∧ view.isOpen = true ∧
      ∀ part, view.ids part = Face.players i part 0 tree.rootElement.faces := by
  obtain ⟨start, fresh, kind, source, isOpen, ids⟩ := View.exists_of_getElem?_assignAll found
  simp only [List.getElem?_toArray, List.getElem?_map, Option.map_eq_some_iff] at fresh
  obtain ⟨entry, found, rfl⟩ := fresh
  refine ⟨entry, found, kind, source, isOpen, ?_⟩
  intro part
  rw [ids, View.ids_fresh, List.nil_append]
  intro part single
  rw [View.ids_fresh, Face.length_players, Node.count_parts_rootElement found]
  simpa using ViewKind.count_parts_le_one _ single

/-- The widgets noted for a part are those that were drawn as this part. -/
theorem mem_ids_iff {tree : Node} {i : Nat} {view : View}
    (found : (render tree).views[i]? = some view) {part : Part} {id : Nat} :
    id ∈ view.ids part ↔
      ∃ face, tree.rootElement.faces[id]? = some face ∧ face.part = some (i, part) := by
  obtain ⟨entry, -, -, -, -, ids⟩ := exists_entry_of_getElem?_render found
  rw [ids, Face.mem_players]
  simp

/-- A view notes as many widgets for a part as its kind has. -/
theorem length_ids {tree : Node} {i : Nat} {view : View}
    (found : (render tree).views[i]? = some view) (part : Part) :
    (view.ids part).length = view.kind.parts.count part := by
  obtain ⟨entry, here, kind, -, -, ids⟩ := exists_entry_of_getElem?_render found
  rw [ids, Face.length_players, Node.count_parts_rootElement here, kind]

end TreeView

end TreeLens
