import Mathlib.Data.List.Count
import TreeLens.Proofs.View.Tokens

/-!
# Forests

Whatever is added to an empty widget tree and changed in it, its links are those of a forest
(`WidgetTree.IsForest`): they mirror each other, and a parent has a smaller number than its
children. One operation keeps this (`IsForest.edit`), so every run of operations does
(`IsForest.editAll`).

The walks along the links are loops that test nothing but the links. `WidgetTree.Climbs` and
`WidgetTree.Descends` say of such a loop that it ends and with what; in a forest the loop up ends
with the ancestors (`IsForest.climbs_iff`) and the loop down with the leaves
(`IsForest.descends_iff`), which are the childless ones among the widgets below, each met once
(`IsForest.mem_visits_iff`, `IsForest.nodup_visits`).
-/

namespace TreeLens

namespace WidgetTree

/-! ## Operations and links -/

/-- An operation on a widget tree. -/
inductive Edit where
  | push (parent : Option Nat) (style : StyleClass) (display : Display) (text : Option String)
  | setDisplay (id : Nat) (display : Display)
  | setText (id : Nat) (text : String)
deriving DecidableEq, Repr

def edit (t : WidgetTree) : Edit → WidgetTree
  | .push parent style display text => t.push parent style display text
  | .setDisplay id display => t.setDisplay id display
  | .setText id text => t.setText id text

/-- The tree after operations, from the first to the last. -/
def editAll (t : WidgetTree) (edits : List Edit) : WidgetTree :=
  edits.foldl edit t

/-- A widget is added below one that was added before. Numbers are given out from zero on, so
the numbers that are in use are those below the size. -/
def Admits (t : WidgetTree) : Edit → Prop
  | .push parent _ _ _ => ∀ p ∈ parent, p < t.size
  | .setDisplay _ _ => True
  | .setText _ _ => True

/-- Every operation is admitted by the tree on which it is done. -/
def AdmitsAll (t : WidgetTree) : List Edit → Prop
  | [] => True
  | e :: rest => t.Admits e ∧ (t.edit e).AdmitsAll rest

instance (t : WidgetTree) : (e : Edit) → Decidable (t.Admits e)
  | .push parent _ _ _ => inferInstanceAs (Decidable (∀ p ∈ parent, p < t.size))
  | .setDisplay _ _ => inferInstanceAs (Decidable True)
  | .setText _ _ => inferInstanceAs (Decidable True)

instance decidableAdmitsAll : (t : WidgetTree) → (edits : List Edit) → Decidable (t.AdmitsAll edits)
  | _, [] => inferInstanceAs (Decidable True)
  | t, e :: rest =>
    have := decidableAdmitsAll (t.edit e) rest
    inferInstanceAs (Decidable (t.Admits e ∧ (t.edit e).AdmitsAll rest))

def parentOf? (t : WidgetTree) (id : Nat) : Option Nat :=
  (t.get? id).bind (·.parent)

def childrenOf (t : WidgetTree) (id : Nat) : List Nat :=
  (t.get? id).elim [] (·.children)

/-- Links mirror each other, a widget stands once among the children of its parent, and its
parent has a smaller number. -/
structure IsForest (t : WidgetTree) : Prop where
  mirrored : ∀ p c, c ∈ t.childrenOf p ↔ t.parentOf? c = some p
  once : ∀ p c, t.parentOf? c = some p → (t.childrenOf p).count c = 1
  smaller : ∀ p c, t.parentOf? c = some p → p < c

theorem parentOf?_of_get? {t : WidgetTree} {id : Nat} {w : Widget} (found : t.get? id = some w) :
    t.parentOf? id = w.parent := by
  rw [parentOf?, found, Option.bind_some]

theorem childrenOf_of_get? {t : WidgetTree} {id : Nat} {w : Widget} (found : t.get? id = some w) :
    t.childrenOf id = w.children := by
  rw [childrenOf, found, Option.elim_some]

theorem get?_modify (t : WidgetTree) (id other : Nat) (f : Widget → Widget) :
    (t.modify id f).get? other = (t.get? other).map fun w => if id = other then f w else w := by
  simp only [get?, modify, Array.getElem?_modify]
  split
  · rfl
  · rw [Option.map_id']

theorem get?_size (t : WidgetTree) : t.get? t.size = none := by
  simp [get?, size]

theorem parentOf?_size (t : WidgetTree) : t.parentOf? t.size = none := by
  rw [parentOf?, get?_size, Option.bind_none]

/-- What changes no links keeps a forest. -/
theorem IsForest.modify {t : WidgetTree} (forest : t.IsForest) (id : Nat) {f : Widget → Widget}
    (parent : ∀ w, (f w).parent = w.parent) (children : ∀ w, (f w).children = w.children) :
    (t.modify id f).IsForest := by
  have unchanged {α : Type} {link : Widget → α} (kept : ∀ w, link (f w) = link w) (other : Nat) :
      (link ∘ fun w => if id = other then f w else w) = link := by
    funext w
    simp only [Function.comp_apply]
    split
    · exact kept w
    · rfl
  have sameParent (other : Nat) : (t.modify id f).parentOf? other = t.parentOf? other := by
    rw [parentOf?, get?_modify, Option.bind_map, unchanged parent, parentOf?]
  have sameChildren (other : Nat) : (t.modify id f).childrenOf other = t.childrenOf other := by
    rw [childrenOf, get?_modify, Option.elim_map, unchanged children, childrenOf]
  constructor
  · intro p c
    rw [sameParent, sameChildren]
    exact forest.mirrored p c
  · intro p c
    rw [sameParent, sameChildren]
    exact forest.once p c
  · intro p c
    rw [sameParent]
    exact forest.smaller p c

section Push

variable {t : WidgetTree} {parent : Option Nat} (style : StyleClass) (display : Display)
  (text : Option String)

/-- Adding a widget gives it the next number and puts this number last among the children of its
parent. -/
theorem get?_push (id : Nat) :
    (t.push parent style display text).get? id =
      (if id = t.size then some (({ style, display, text } : Face).link parent [])
        else t.get? id).map fun w =>
          if parent = some id then { w with children := w.children ++ [t.size] } else w := by
  have added : (WidgetTree.mk (t.widgets.push (({ style, display, text } : Face).link parent
      []))).get? id =
      if id = t.size then some (({ style, display, text } : Face).link parent []) else t.get? id :=
    Array.getElem?_push
  rw [← added]
  cases parent with
  | none => simp [push, Face.link]
  | some p => simp [push, get?_modify, Face.link]

theorem parentOf?_push (id : Nat) :
    (t.push parent style display text).parentOf? id =
      if id = t.size then parent else t.parentOf? id := by
  rw [parentOf?, get?_push]
  by_cases last : id = t.size
  · rw [if_pos last, if_pos last]
    by_cases own : parent = some id <;> simp [own, Face.link]
  · rw [if_neg last, if_neg last, parentOf?]
    cases t.get? id with
    | none => rfl
    | some w => by_cases own : parent = some id <;> simp [own]

theorem childrenOf_push (inside : ∀ p ∈ parent, p < t.size) (id : Nat) :
    (t.push parent style display text).childrenOf id =
      t.childrenOf id ++ if parent = some id then [t.size] else [] := by
  rw [childrenOf, get?_push]
  by_cases last : id = t.size
  · have elsewhere : parent ≠ some id := fun same => absurd (inside id same) (by omega)
    have missing : t.childrenOf id = [] := by rw [childrenOf, last, get?_size, Option.elim_none]
    rw [if_pos last, missing, if_neg elsewhere]
    simp [elsewhere, Face.link]
  · rw [if_neg last, childrenOf]
    cases found : t.get? id with
    | none =>
        have elsewhere : parent ≠ some id := by
          intro same
          have there : id < t.size := inside id same
          simp [get?, size] at found there
          omega
        simp [elsewhere]
    | some w => by_cases own : parent = some id <;> simp [own]

/-- A widget that is added below one that is there, or below none, keeps a forest. -/
theorem IsForest.push (forest : t.IsForest) (inside : ∀ p ∈ parent, p < t.size) :
    (t.push parent style display text).IsForest := by
  -- The new widget has no links yet.
  have new (p : Nat) : t.size ∉ t.childrenOf p := by
    rw [forest.mirrored, parentOf?_size]
    simp
  constructor
  · intro p c
    rw [childrenOf_push style display text inside, parentOf?_push, List.mem_append,
      forest.mirrored]
    by_cases last : c = t.size
    · subst last
      simp [parentOf?_size]
    · simp [last]
  · intro p c
    rw [childrenOf_push style display text inside, parentOf?_push, List.count_append]
    by_cases last : c = t.size
    · subst last
      rw [if_pos rfl, List.count_eq_zero_of_not_mem (new p)]
      intro own
      simp [own]
    · rw [if_neg last]
      intro own
      rw [forest.once p c own]
      split <;> simp [Ne.symm last]
  · intro p c
    rw [parentOf?_push]
    split
    · next last =>
        intro own
        rw [last]
        exact inside p own
    · exact forest.smaller p c

end Push

theorem isForest_empty : IsForest empty := by
  have none (id : Nat) : empty.get? id = none := by simp [empty, get?]
  constructor <;> intro p c <;> simp [childrenOf, parentOf?, none]

theorem IsForest.edit {t : WidgetTree} (forest : t.IsForest) {e : Edit} (admitted : t.Admits e) :
    (t.edit e).IsForest := by
  cases e with
  | push parent style display text => exact forest.push style display text admitted
  | setDisplay id display => exact forest.modify id (fun _ => rfl) (fun _ => rfl)
  | setText id text => exact forest.modify id (fun _ => rfl) (fun _ => rfl)

theorem IsForest.editAll {t : WidgetTree} {edits : List Edit} (forest : t.IsForest)
    (admitted : t.AdmitsAll edits) : (t.editAll edits).IsForest := by
  induction edits generalizing t with
  | nil => exact forest
  | cons e rest ih => exact ih (forest.edit admitted.1) admitted.2

/-! ## Loops along links -/

/-- The loop up from a number: it notes the number, goes on at the parent of its widget and stops
where there is no parent. It ends, having noted the given numbers. -/
inductive Climbs (t : WidgetTree) : Option Nat → List Nat → Prop
  | top : Climbs t none []
  | up {id : Nat} {w : Widget} {above : List Nat} (found : t.get? id = some w)
      (rest : Climbs t w.parent above) : Climbs t (some id) (id :: above)

/-- The loop down from a stack, whose top comes first. The top is taken off; if there is such a
widget, it is noted if it has no children, and its children are put on the stack, the first of
them on top. The loop ends with the empty stack, having noted the given numbers. -/
inductive Descends (t : WidgetTree) : List Nat → List Nat → Prop
  | done : Descends t [] []
  | skip {id : Nat} {stack out : List Nat} (missing : t.get? id = none)
      (rest : Descends t stack out) : Descends t (id :: stack) out
  | visit {id : Nat} {w : Widget} {stack out : List Nat} (found : t.get? id = some w)
      (rest : Descends t (w.children ++ stack) out) :
      Descends t (id :: stack) ((if w.isLeaf then [id] else []) ++ out)

/-- Whether a number is that of a widget without children. -/
def isChildless (t : WidgetTree) (id : Nat) : Bool :=
  (t.get? id).any (·.isLeaf)

/-- No two of the widgets have anything in common below them. -/
def Apart (t : WidgetTree) (ids : List Nat) : Prop :=
  ids.Pairwise fun r s => ∀ a, r ∈ t.ancestors a → s ∉ t.ancestors a

theorem Climbs.unique {t : WidgetTree} {from? : Option Nat} {chain other : List Nat}
    (one : t.Climbs from? chain) (two : t.Climbs from? other) : chain = other := by
  induction one generalizing other with
  | top =>
      cases two
      rfl
  | up found _ ih =>
      cases two with
      | up found' rest =>
          obtain rfl := Option.some.inj (found.symm.trans found')
          rw [ih rest]

theorem Descends.unique {t : WidgetTree} {stack out other : List Nat} (one : t.Descends stack out)
    (two : t.Descends stack other) : out = other := by
  induction one generalizing other with
  | done =>
      cases two
      rfl
  | skip missing _ ih =>
      cases two with
      | skip _ rest => exact ih rest
      | visit found _ => exact absurd (found.symm.trans missing) (by simp)
  | visit found _ ih =>
      cases two with
      | skip missing _ => exact absurd (found.symm.trans missing) (by simp)
      | visit found' rest =>
          obtain rfl := Option.some.inj (found.symm.trans found')
          rw [ih rest]

theorem pairwise_ancestors (t : WidgetTree) (id : Nat) : (t.ancestors id).Pairwise (· > ·) := by
  induction id using Nat.strongRecOn with
  | ind id ih =>
      rcases t.ancestors_cases id with none | own | ⟨p, lower, up⟩
      · simp [none]
      · simp [own]
      · rw [up, List.pairwise_cons]
        refine ⟨?_, ih p lower⟩
        intro a member
        have := le_of_mem_ancestors member
        omega

/-- Nothing that is missing is on a way up. -/
theorem exists_get?_of_mem_ancestors {t : WidgetTree} {id a : Nat} (member : a ∈ t.ancestors id) :
    ∃ w, t.get? a = some w := by
  obtain ⟨front, same, below⟩ := exists_append_of_mem_ancestors member
  cases found : t.get? a with
  | some w => exact ⟨w, rfl⟩
  | none =>
      have nothing : t.ancestors a = [] := by rw [ancestors, found]
      rw [nothing, List.append_nil] at same
      have := below a (same ▸ member)
      omega

/-- Of two widgets on one way up, the lower one has the other one on its own way up. -/
theorem mem_ancestors_of_lt {t : WidgetTree} {r s a : Nat} (lower : r < s) (one : r ∈ t.ancestors a)
    (two : s ∈ t.ancestors a) : r ∈ t.ancestors s := by
  obtain ⟨front, same, below⟩ := exists_append_of_mem_ancestors two
  rw [same, List.mem_append] at one
  rcases one with inside | inside
  · have := below r inside
    omega
  · exact inside

theorem leaves_of_missing {t : WidgetTree} {id : Nat} (missing : t.get? id = none) :
    t.leaves id = [] := by
  rw [leaves]
  split
  · rfl
  · next v there => exact absurd (missing.symm.trans there) (by simp)

theorem isVisible_iff (t : WidgetTree) (id : Nat) :
    t.isVisible id = true ↔ (t.get? id).isSome ∧
      ∀ a ∈ t.ancestors id, ∀ w, t.get? a = some w → w.display ≠ .none := by
  simp [isVisible, Option.all_eq_true]

namespace IsForest

variable {t : WidgetTree} {id : Nat} {w : Widget}

theorem exists_get?_of_parentOf? (forest : t.IsForest) {p c : Nat}
    (parent : t.parentOf? c = some p) : ∃ v, t.get? p = some v ∧ c ∈ v.children := by
  have child := (forest.mirrored p c).2 parent
  cases found : t.get? p with
  | none => simp [childrenOf, found] at child
  | some v => exact ⟨v, rfl, childrenOf_of_get? found ▸ child⟩

theorem lt_of_mem_childrenOf (forest : t.IsForest) {c : Nat} (child : c ∈ t.childrenOf id) :
    id < c ∧ c < t.size := by
  have parent := (forest.mirrored id c).1 child
  refine ⟨forest.smaller id c parent, ?_⟩
  obtain ⟨v, found, -⟩ := Option.bind_eq_some_iff.1 parent
  exact (Array.getElem?_eq_some_iff.1 found).1

/-- What holds of a widget if it holds of its children holds of all. -/
theorem induction_down (forest : t.IsForest) {P : Nat → Prop}
    (step : ∀ id, (∀ c ∈ t.childrenOf id, P c) → P id) (id : Nat) : P id := by
  generalize gap : t.size - id = n
  induction n using Nat.strongRecOn generalizing id with
  | ind n ih =>
      refine step id fun c child => ?_
      have := forest.lt_of_mem_childrenOf child
      exact ih (t.size - c) (by omega) c rfl

/-! ### The way up -/

theorem ancestors_eq (forest : t.IsForest) (found : t.get? id = some w) :
    t.ancestors id = id :: w.parent.elim [] t.ancestors := by
  rw [ancestors_of_get? found]
  cases parent : w.parent with
  | none => rfl
  | some p =>
      have lower : p < id := forest.smaller p id (by rw [parentOf?_of_get? found, parent])
      simp [lower]

theorem climbs_ancestors (forest : t.IsForest) (found : t.get? id = some w) :
    t.Climbs (some id) (t.ancestors id) := by
  induction id using Nat.strongRecOn generalizing w with
  | ind id ih =>
      rw [forest.ancestors_eq found]
      refine .up found ?_
      cases parent : w.parent with
      | none => exact .top
      | some p =>
          have above : t.parentOf? id = some p := by rw [parentOf?_of_get? found, parent]
          obtain ⟨v, there, -⟩ := forest.exists_get?_of_parentOf? above
          exact ih p (forest.smaller p id above) there

/-- The loop up ends with the ancestors, and with nothing else. -/
theorem climbs_iff (forest : t.IsForest) (id : Nat) (chain : List Nat) :
    t.Climbs ((t.get? id).map fun _ => id) chain ↔ chain = t.ancestors id := by
  have ends : t.Climbs ((t.get? id).map fun _ => id) (t.ancestors id) := by
    cases found : t.get? id with
    | none =>
        rw [ancestors, found]
        exact .top
    | some w => exact forest.climbs_ancestors found
  constructor
  · intro climbs
    exact climbs.unique ends
  · rintro rfl
    exact ends

/-- Going up from a widget leads through another one if it starts there or leads through one of
its children. -/
theorem mem_ancestors_iff (forest : t.IsForest) (found : t.get? id = some w) (a : Nat) :
    id ∈ t.ancestors a ↔ a = id ∨ ∃ c ∈ w.children, c ∈ t.ancestors a := by
  constructor
  · intro member
    induction a using Nat.strongRecOn with
    | ind a ih =>
        cases own : t.get? a with
        | none => simp [ancestors, own] at member
        | some v =>
            rw [forest.ancestors_eq own] at member ⊢
            rcases List.mem_cons.1 member with rfl | member
            · exact .inl rfl
            · cases parent : v.parent with
              | none => simp [parent] at member
              | some p =>
                  have above : t.parentOf? a = some p := by rw [parentOf?_of_get? own, parent]
                  rw [parent] at member
                  right
                  rcases ih p (forest.smaller p a above) member with rfl | ⟨c, child, through⟩
                  · have child := (forest.mirrored p a).2 above
                    rw [childrenOf_of_get? found] at child
                    exact ⟨a, child, List.mem_cons_self⟩
                  · exact ⟨c, child, List.mem_cons_of_mem _ through⟩
  · rintro (rfl | ⟨c, child, through⟩)
    · rw [forest.ancestors_eq found]
      exact List.mem_cons_self
    · have above : t.parentOf? c = some id :=
        (forest.mirrored id c).1 (childrenOf_of_get? found ▸ child)
      obtain ⟨v, there, parent⟩ := Option.bind_eq_some_iff.1 above
      obtain ⟨front, same, -⟩ := exists_append_of_mem_ancestors through
      rw [same, forest.ancestors_eq there, parent]
      simp [forest.ancestors_eq found]

/-! ### The way down -/

theorem leaves_eq (forest : t.IsForest) (found : t.get? id = some w) :
    t.leaves id = (if w.isLeaf then [id] else []) ++ w.children.flatMap t.leaves := by
  have below : ∀ c ∈ w.children, id < c := fun c child =>
    (forest.lt_of_mem_childrenOf (childrenOf_of_get? found ▸ child)).1
  rw [leaves]
  split
  · next missing => exact absurd (found.symm.trans missing) (by simp)
  · next v there =>
      obtain rfl := Option.some.inj (found.symm.trans there)
      congr 1
      refine List.flatMap_congr fun c child => ?_
      rw [dif_pos (below c child)]

theorem descends_append {ids : List Nat}
    (each : ∀ id ∈ ids, ∀ {stack out : List Nat}, t.Descends stack out →
      t.Descends (id :: stack) (t.leaves id ++ out))
    {stack out : List Nat} (rest : t.Descends stack out) :
    t.Descends (ids ++ stack) (ids.flatMap t.leaves ++ out) := by
  induction ids with
  | nil => exact rest
  | cons id others ih =>
      rw [List.forall_mem_cons] at each
      rw [List.cons_append, List.flatMap_cons, List.append_assoc]
      exact each.1 (ih each.2)

/-- The loop down notes the leaves below the top of the stack and goes on with the others. -/
theorem descends_cons (forest : t.IsForest) (id : Nat) :
    ∀ {stack out : List Nat}, t.Descends stack out →
      t.Descends (id :: stack) (t.leaves id ++ out) := by
  induction id using forest.induction_down with
  | step id ih =>
      intro stack out rest
      cases found : t.get? id with
      | none =>
          rw [leaves_of_missing found]
          exact .skip found rest
      | some w =>
          rw [childrenOf_of_get? found] at ih
          have below := descends_append ih rest
          rw [forest.leaves_eq found, List.append_assoc]
          exact .visit found below

theorem descends_iff (forest : t.IsForest) (root : Nat) (out : List Nat) :
    t.Descends [root] out ↔ out = t.leaves root := by
  have ends := forest.descends_cons root .done
  rw [List.append_nil] at ends
  constructor
  · intro descends
    exact descends.unique ends
  · rintro rfl
    exact ends

/-! ### Widgets below a widget -/

/-- Going down from children that are there comes to an end. -/
theorem exists_visits (forest : t.IsForest) (id : Nat) :
    ∀ {w : Widget}, t.get? id = some w → ∃ below, t.Visits w.children below := by
  induction id using forest.induction_down with
  | step id ih =>
      intro w found
      have there : ∀ c ∈ w.children, ∃ v, t.get? c = some v ∧
          ∃ below, t.Visits v.children below := by
        intro c child
        rw [← childrenOf_of_get? found] at child
        obtain ⟨v, own, -⟩ := Option.bind_eq_some_iff.1 ((forest.mirrored id c).1 child)
        exact ⟨v, own, ih c child own⟩
      clear ih found
      generalize w.children = ids at there ⊢
      induction ids with
      | nil => exact ⟨[], .nil⟩
      | cons c others more =>
          rw [List.forall_mem_cons] at there
          obtain ⟨⟨v, own, below, inner⟩, rest⟩ := there
          obtain ⟨after, outer⟩ := more rest
          exact ⟨c :: below ++ after, .cons own inner outer⟩

variable {ids order : List Nat}

/-- What is met below widgets in a row is what has one of them on its way up. -/
theorem mem_visits_iff (forest : t.IsForest) (visits : t.Visits ids order) (a : Nat) :
    a ∈ order ↔ ∃ r ∈ ids, r ∈ t.ancestors a := by
  induction visits with
  | nil => simp
  | @cons id w ids below after found children rest inner outer =>
      rw [List.cons_append, List.mem_cons, List.mem_append, inner, outer, ← or_assoc,
        ← forest.mem_ancestors_iff found a]
      simp

theorem nodup_childrenOf (forest : t.IsForest) (id : Nat) : (t.childrenOf id).Nodup := by
  refine List.nodup_iff_count.2 fun c => ?_
  by_cases child : c ∈ t.childrenOf id
  · rw [forest.once id c ((forest.mirrored id c).1 child)]
  · rw [List.count_eq_zero_of_not_mem child]
    omega

theorem apart_childrenOf (forest : t.IsForest) (id : Nat) : t.Apart (t.childrenOf id) := by
  -- A sibling on the way up would be the parent or above it, but its number is greater.
  have never : ∀ r ∈ t.childrenOf id, ∀ s ∈ t.childrenOf id, r < s → ∀ a,
      r ∈ t.ancestors a → s ∉ t.ancestors a := by
    intro r first s second lower a one two
    have through := mem_ancestors_of_lt lower one two
    obtain ⟨v, there, parent⟩ := Option.bind_eq_some_iff.1 ((forest.mirrored id s).1 second)
    rw [forest.ancestors_eq there, parent, List.mem_cons] at through
    rcases through with rfl | above
    · omega
    · have := le_of_mem_ancestors above
      have := forest.lt_of_mem_childrenOf first
      omega
  refine (forest.nodup_childrenOf id).imp_of_mem ?_
  intro r s first second different a one two
  rcases Nat.lt_or_gt_of_ne different with lower | lower
  · exact never r first s second lower a one two
  · exact never s second r first lower a two one

/-- Nothing is met twice below widgets that have nothing in common. -/
theorem nodup_visits (forest : t.IsForest) (visits : t.Visits ids order) (apart : t.Apart ids) :
    order.Nodup := by
  induction visits with
  | nil => exact List.nodup_nil
  | @cons id w ids below after found children rest inner outer =>
      obtain ⟨first, others⟩ := List.pairwise_cons.1 apart
      have siblings := forest.apart_childrenOf id
      rw [childrenOf_of_get? found] at siblings
      have under : ∀ a ∈ id :: below, id ∈ t.ancestors a := by
        intro a member
        rw [forest.mem_ancestors_iff found, ← forest.mem_visits_iff children]
        exact List.mem_cons.1 member
      rw [List.nodup_append]
      refine ⟨List.nodup_cons.2 ⟨?_, inner siblings⟩, outer others, ?_⟩
      · intro again
        obtain ⟨c, child, through⟩ := (forest.mem_visits_iff children id).1 again
        have := le_of_mem_ancestors through
        have := forest.lt_of_mem_childrenOf (childrenOf_of_get? found ▸ child)
        omega
      · rintro a front b back rfl
        obtain ⟨r, member, through⟩ := (forest.mem_visits_iff rest a).1 back
        exact first r member a (under a front) through

theorem filter_isChildless_visits (forest : t.IsForest) (visits : t.Visits ids order) :
    order.filter t.isChildless = ids.flatMap t.leaves := by
  induction visits with
  | nil => rfl
  | @cons id w ids below after found children rest inner outer =>
      have own : t.isChildless id = w.isLeaf := by rw [isChildless, found, Option.any_some]
      rw [List.flatMap_cons, forest.leaves_eq found, List.cons_append, List.filter_cons,
        List.filter_append, inner, outer, own]
      split <;> simp

end IsForest

/-- **Forests.** After any operations on an empty tree, each of which adds a widget below one that
was added before or below none, or changes the display or the text of a widget, the links are
those of a forest. From every number the loop up ends with the ancestors, which descend strictly,
and the loop down ends with the leaves: these are the childless ones among the widgets that have
the root on their way up, and going down from the root, a widget before those below it and a left
one before a right one, meets each of those once and the leaves in this order. A widget is visible
exactly if it exists and nothing on its way up is hidden. -/
theorem isForest_editAll_empty (edits : List Edit) (admitted : empty.AdmitsAll edits) :
    let t := empty.editAll edits
    t.IsForest ∧
    (∀ id chain, t.Climbs ((t.get? id).map fun _ => id) chain ↔ chain = t.ancestors id) ∧
    (∀ id, (t.ancestors id).Pairwise (· > ·)) ∧
    (∀ root out, t.Descends [root] out ↔ out = t.leaves root) ∧
    (∀ root, ∃ order, t.Visits ((t.get? root).map fun _ => root).toList order ∧ order.Nodup ∧
      (∀ id, id ∈ order ↔ root ∈ t.ancestors id) ∧
      t.leaves root = order.filter t.isChildless) ∧
    (∀ id, t.isVisible id = true ↔ (t.get? id).isSome ∧
      ∀ a ∈ t.ancestors id, ∀ w, t.get? a = some w → w.display ≠ .none) := by
  intro t
  have forest : t.IsForest := isForest_empty.editAll admitted
  refine ⟨forest, forest.climbs_iff, t.pairwise_ancestors, forest.descends_iff, ?_, t.isVisible_iff⟩
  intro root
  cases found : t.get? root with
  | none =>
      refine ⟨[], .nil, List.nodup_nil, ?_, leaves_of_missing found⟩
      intro id
      refine iff_of_false List.not_mem_nil fun member => ?_
      obtain ⟨w, there⟩ := exists_get?_of_mem_ancestors member
      exact absurd (found.symm.trans there) (by simp)
  | some w =>
      obtain ⟨below, children⟩ := forest.exists_visits root found
      have visits : t.Visits [root] (root :: below ++ []) := .cons found children .nil
      refine ⟨_, visits, forest.nodup_visits visits (List.pairwise_singleton _ _), ?_, ?_⟩
      · intro id
        rw [forest.mem_visits_iff visits]
        simp
      · rw [forest.filter_isChildless_visits visits]
        simp

/-- Widgets that are not numbered in the order in which they are met, one of them hidden. -/
theorem isForest_editAll_empty_interleaved :
    let edits : List Edit :=
      [.push none .container .block none, .push (some 0) .object .block none,
        .push (some 0) .trivia .inline (some "x"), .push (some 1) .string .inline none,
        .setDisplay 1 .none, .setText 3 "y", .setDisplay 9 .none]
    let t := empty.editAll edits
    empty.AdmitsAll edits ∧ t.Climbs (some 3) [3, 1, 0] ∧ t.Descends [0] [3, 2] := by
  intro edits t
  have admitted : empty.AdmitsAll edits := by decide
  obtain ⟨-, climbs, -, descends, -⟩ := isForest_editAll_empty edits admitted
  refine ⟨admitted, (climbs 3 _).2 ?_, (descends 0 _).2 ?_⟩
  · cbv
  · cbv

end WidgetTree

end TreeLens
