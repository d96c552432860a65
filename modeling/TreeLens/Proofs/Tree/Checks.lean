import TreeLens.Proofs.Json.Places
import TreeLens.Proofs.Tree.Leaves
import TreeLens.Proofs.Tree.Texts

/-!
# The checks of a normal form

The normal form looks at the size of the source in one place only, where it checks a span.
So all its runs on the same raw data make the same checks in the same order, up to the first
one that fails, and differ in nothing else. `ChecksOnly` says this of a computation, and
`Normal.checksOnly_visit` shows it of the normal form, with one theorem for each of its
functions. Each check is of a span wrapper in the raw data, at its true location.

Two things follow. Whether there is a normal form is a matter of one number, the greatest end
that is checked (`exists_bound_of_ordered`). And a failure is the one of a check that fails, so
that its text leads back to the wrapper.
-/

namespace TreeLens

/-- A span that is to be checked, with the location of its wrapper. -/
structure SpanCheck where
  location : Location
  start : Nat
  stop : Nat

namespace SpanCheck

/-- The checked span is no valid one. -/
def Fails (limit : Option Nat) (check : SpanCheck) : Prop :=
  check.stop < check.start ∨ ∃ size ∈ limit, size < check.stop

theorem fails_iff {limit : Option Nat} {check : SpanCheck} :
    check.Fails limit ↔ (check.stop < check.start || limit.any (· < check.stop)) = true := by
  cases limit <;> simp [Fails]

theorem not_fails_none {check : SpanCheck} :
    ¬ check.Fails none ↔ check.start ≤ check.stop := by
  simp [Fails]

theorem not_fails_some {check : SpanCheck} {size : Nat} :
    ¬ check.Fails (some size) ↔ check.start ≤ check.stop ∧ check.stop ≤ size := by
  simp [Fails]

/-- Why a check fails. -/
def error (limit : Option Nat) (check : SpanCheck) : NormalizeError :=
  .invalidSpan (check.location.text Place.escapeQuote) check.start check.stop limit

/-- The check is of a span wrapper that stands in a value, which is itself at a location. -/
def StandsIn (raw : Json) (location : Location) (check : SpanCheck) : Prop :=
  ∃ rest part w, raw.StandsAt rest part ∧ SpanWrapper.of? part = some w ∧
    check = ⟨location ++ rest, w.start, w.stop⟩

theorem standsIn_of_standsAt {raw part : Json} {location front : Location} {check : SpanCheck}
    (stands : raw.StandsAt front part) (inside : check.StandsIn part (location ++ front)) :
    check.StandsIn raw location := by
  obtain ⟨rest, wrapper, w, below, found, rfl⟩ := inside
  exact ⟨front ++ rest, wrapper, w, stands.append below, found, by rw [List.append_assoc]⟩

theorem standsIn_self {raw : Json} {w : SpanWrapper} (found : SpanWrapper.of? raw = some w)
    (location : Location) : StandsIn raw location ⟨location, w.start, w.stop⟩ :=
  ⟨[], raw, w, .here raw, found, by rw [List.append_nil]⟩

end SpanCheck

theorem checkSpan_of_fails {limit : Option Nat} {check : SpanCheck} (fails : check.Fails limit) :
    checkSpan limit check.location check.start check.stop = .error (check.error limit) := by
  rw [checkSpan, if_pos (SpanCheck.fails_iff.1 fails)]
  rfl

theorem checkSpan_of_not_fails {limit : Option Nat} {check : SpanCheck}
    (passes : ¬ check.Fails limit) :
    checkSpan limit check.location check.start check.stop = .ok ⟨check.start, check.stop⟩ := by
  rw [checkSpan, if_neg (mt SpanCheck.fails_iff.2 passes)]

/-- Checks made in turn, up to the first one that fails. -/
def checkAll (limit : Option Nat) : List SpanCheck → Except NormalizeError Unit
  | [] => .ok ()
  | check :: rest =>
    (checkSpan limit check.location check.start check.stop).bind fun _ => checkAll limit rest

theorem checkAll_append (limit : Option Nat) (front back : List SpanCheck) :
    checkAll limit (front ++ back) = (checkAll limit front).bind fun _ => checkAll limit back := by
  induction front with
  | nil => rfl
  | cons check rest ih =>
      rw [List.cons_append, checkAll, checkAll, ih]
      cases checkSpan limit check.location check.start check.stop <;> rfl

theorem checkAll_eq_ok_iff {limit : Option Nat} {checks : List SpanCheck} :
    checkAll limit checks = .ok () ↔ ∀ check ∈ checks, ¬ check.Fails limit := by
  induction checks with
  | nil => simp [checkAll]
  | cons check rest ih =>
      rw [checkAll, List.forall_mem_cons, ← ih]
      by_cases fails : check.Fails limit
      · rw [checkSpan_of_fails fails]
        constructor
        · intro ok
          cases ok
        · intro pass
          exact absurd fails pass.1
      · rw [checkSpan_of_not_fails fails]
        exact ⟨fun ok => ⟨fails, ok⟩, fun pass => pass.2⟩

/-- The error is the one of a check that fails. -/
theorem exists_of_checkAll_eq_error {limit : Option Nat} {checks : List SpanCheck}
    {e : NormalizeError} (failed : checkAll limit checks = .error e) :
    ∃ check ∈ checks, check.Fails limit ∧ e = check.error limit := by
  induction checks with
  | nil => cases failed
  | cons check rest ih =>
      rw [checkAll] at failed
      by_cases fails : check.Fails limit
      · rw [checkSpan_of_fails fails] at failed
        cases failed
        exact ⟨check, List.mem_cons_self, fails, rfl⟩
      · rw [checkSpan_of_not_fails fails] at failed
        obtain ⟨later, member, rest⟩ := ih failed
        exact ⟨later, List.mem_cons_of_mem _ member, rest⟩

/-- A computation that uses the limit for checks only: it makes checks with the property `P`
in turn, and if none of them fails, it has one result whatever the limit is. -/
def ChecksOnly {α : Type} (P : SpanCheck → Prop)
    (compute : Option Nat → Except NormalizeError α) : Prop :=
  ∃ checks result, (∀ check ∈ checks, P check) ∧
    ∀ limit, compute limit = (checkAll limit checks).map fun _ => result

namespace ChecksOnly

variable {α β : Type} {P Q : SpanCheck → Prop} {compute : Option Nat → Except NormalizeError α}

theorem ok (result : α) : ChecksOnly P fun _ => .ok result :=
  ⟨[], result, by simp, fun _ => rfl⟩

theorem check {location : Location} {start stop : Nat} (checked : P ⟨location, start, stop⟩) :
    ChecksOnly P fun limit => checkSpan limit location start stop := by
  refine ⟨[⟨location, start, stop⟩], ⟨start, stop⟩, by simpa using checked, ?_⟩
  intro limit
  by_cases fails : SpanCheck.Fails limit ⟨location, start, stop⟩
  · have failed := checkSpan_of_fails fails
    rw [checkAll, failed]
    exact failed
  · have passed := checkSpan_of_not_fails fails
    rw [checkAll, passed]
    exact passed

theorem mono (only : ChecksOnly P compute) (weaker : ∀ check, P check → Q check) :
    ChecksOnly Q compute := by
  obtain ⟨checks, result, each, same⟩ := only
  exact ⟨checks, result, fun check member => weaker check (each check member), same⟩

theorem bind {next : α → Option Nat → Except NormalizeError β} (only : ChecksOnly P compute)
    (later : ∀ a, ChecksOnly P (next a)) :
    ChecksOnly P fun limit => (compute limit).bind fun a => next a limit := by
  obtain ⟨checks, a, each, same⟩ := only
  -- There is one result to go on with, so what comes later is one computation as well.
  obtain ⟨others, b, eachLater, sameLater⟩ := later a
  refine ⟨checks ++ others, b, ?_, ?_⟩
  · intro check member
    exact (List.mem_append.1 member).elim (each check) (eachLater check)
  · intro limit
    show (compute limit).bind _ = _
    rw [same, checkAll_append]
    cases checkAll limit checks with
    | error e => rfl
    | ok passed => exact sameLater limit

theorem map (only : ChecksOnly P compute) (f : α → β) :
    ChecksOnly P fun limit => (compute limit).map f := by
  obtain ⟨checks, a, each, same⟩ := only
  refine ⟨checks, f a, each, ?_⟩
  intro limit
  show (compute limit).map f = _
  rw [same]
  cases checkAll limit checks <;> rfl

/-- A computation that fails has made a check that fails. -/
theorem exists_of_error (only : ChecksOnly P compute) {limit : Option Nat} {e : NormalizeError}
    (failed : compute limit = .error e) :
    ∃ check, P check ∧ check.Fails limit ∧ e = check.error limit := by
  obtain ⟨checks, result, each, same⟩ := only
  rw [same] at failed
  cases made : checkAll limit checks with
  | ok passed =>
      rw [made] at failed
      cases failed
  | error first =>
      rw [made] at failed
      cases failed
      obtain ⟨check, member, fails, rfl⟩ := exists_of_checkAll_eq_error made
      exact ⟨check, each check member, fails, rfl⟩

/-- A computation succeeds with its one result, and exactly if none of its checks fails. -/
theorem exists_ok_iff (only : ChecksOnly P compute) :
    ∃ (checks : List SpanCheck) (result : α), (∀ check ∈ checks, P check) ∧ ∀ limit a,
      compute limit = .ok a ↔ result = a ∧ ∀ check ∈ checks, ¬ check.Fails limit := by
  obtain ⟨checks, result, each, same⟩ := only
  refine ⟨checks, result, each, ?_⟩
  intro limit a
  rw [same, ← checkAll_eq_ok_iff]
  cases checkAll limit checks <;> simp [Except.map]

end ChecksOnly

/-! ## The normal form -/

theorem SpanWrapper.of?_of_ofKeyed? {key : String} {value : Json} {w : SpanWrapper}
    (keyed : ofKeyed? key value = some w) : of? value = some w := by
  unfold ofKeyed? at keyed
  split at keyed
  · split at keyed
    · exact (Option.filter_eq_some_iff.1 keyed).1
    · cases keyed
  · cases keyed

namespace Normal

open SpanCheck (standsIn_of_standsAt standsIn_self)

mutual

/-- The checks of the normal form of a value are of span wrappers in it. -/
theorem checksOnly_visit (location : Location) :
    ∀ raw : Json,
      ChecksOnly (SpanCheck.StandsIn raw location) fun limit => visit limit location raw
  | .null => .ok _
  | .bool _ => .ok _
  | .num _ => .ok _
  | .str _ => .ok _
  | .arr items => by
      refine ((checksOnly_visitItems location 0 items).map Node.array).mono ?_
      rintro check ⟨j, item, found, inside⟩
      rw [Nat.zero_add] at inside
      exact standsIn_of_standsAt (.item found (.here item)) inside
  | .obj members => by
      simp only [visit]
      cases wrapper : SpanWrapper.ofMembers? members with
      | some w =>
          by_cases absent : w.data.isAbsent
          · simp only [absent, if_true]
            exact .ok _
          · -- The wrapper is checked first, and then what its data holds.
            simp only [absent]
            have found : SpanWrapper.of? (.obj members) = some w := wrapper
            refine .bind (.check (standsIn_self found location)) ?_
            intro span
            refine ((checksOnly_visitMember (location ++ [.key "data"]) "data" members).map
              (Node.withSpan span)).mono ?_
            rintro check ⟨data, found, inside⟩
            exact standsIn_of_standsAt (.member found (.here data)) inside
      | none =>
          have raise : ∀ check : SpanCheck,
              (∃ member ∈ members, check.StandsIn member.2 (location ++ [.key member.1])) →
                check.StandsIn (.obj members) location := by
            rintro check ⟨member, found, inside⟩
            exact standsIn_of_standsAt (.member found (.here member.2)) inside
          refine .bind ((checksOnly_visitSole location members).mono raise) ?_
          intro sole
          cases sole with
          | some named => exact .ok named
          | none => exact ((checksOnly_visitFields location members).map _).mono raise
termination_by structural raw => raw

theorem checksOnly_visitItems (location : Location) (i : Nat) :
    ∀ items : List Json,
      ChecksOnly (fun check => ∃ j item, items[j]? = some item ∧
        check.StandsIn item (location ++ [.index (i + j)]))
        fun limit => visitItems limit location i items
  | [] => .ok _
  | item :: rest => by
      simp only [visitItems]
      refine .bind ((checksOnly_visit (location ++ [.index i]) item).mono ?_) ?_
      · intro check inside
        exact ⟨0, item, rfl, inside⟩
      · intro node
        refine ((checksOnly_visitItems location (i + 1) rest).map (node :: ·)).mono ?_
        rintro check ⟨j, later, found, inside⟩
        refine ⟨j + 1, later, found, ?_⟩
        rw [Nat.add_right_comm] at inside
        exact inside
termination_by structural items => items

theorem checksOnly_visitSole (location : Location) :
    ∀ members : List (String × Json),
      ChecksOnly (fun check => ∃ member ∈ members,
        check.StandsIn member.2 (location ++ [.key member.1]))
        fun limit => visitSole limit location members
  | [] => .ok _
  | [(key, value)] => by
      simp only [visitSole]
      by_cases object : value.isObject
      · simp only [object, if_true]
        refine ((checksOnly_visit (location ++ [.key key]) value).map _).mono ?_
        intro check inside
        exact ⟨(key, value), List.mem_cons_self, inside⟩
      · simp only [object]
        exact .ok _
  | _ :: _ :: _ => .ok _
termination_by structural members => members

theorem checksOnly_visitFields (location : Location) :
    ∀ members : List (String × Json),
      ChecksOnly (fun check => ∃ member ∈ members,
        check.StandsIn member.2 (location ++ [.key member.1]))
        fun limit => visitFields limit location members
  | [] => .ok _
  | (key, value) :: rest => by
      simp only [visitFields]
      have child : ChecksOnly (SpanCheck.StandsIn value (location ++ [.key key])) fun limit =>
          match SpanWrapper.ofKeyed? key value with
          | some w =>
            (checkSpan limit (location ++ [.key key]) w.start w.stop).bind fun span =>
              (visitKeyed limit (location ++ [.key key, .key "data", .key key]) key value).map
                (Node.withSpan span)
          | none => visit limit (location ++ [.key key]) value := by
        cases keyed : SpanWrapper.ofKeyed? key value with
        | some w =>
            refine .bind (.check (standsIn_self (SpanWrapper.of?_of_ofKeyed? keyed) _)) ?_
            intro span
            refine ((checksOnly_visitKeyed _ key value).map (Node.withSpan span)).mono ?_
            -- The repeated member stands two steps below the field.
            rintro check ⟨inner, stands, inside⟩
            refine standsIn_of_standsAt stands ?_
            rw [List.append_assoc]
            exact inside
        | none => exact checksOnly_visit (location ++ [.key key]) value
      refine .bind (child.mono ?_) ?_
      · intro check inside
        exact ⟨(key, value), List.mem_cons_self, inside⟩
      · intro node
        refine ((checksOnly_visitFields location rest).map ((key, node) :: ·)).mono ?_
        rintro check ⟨member, found, inside⟩
        exact ⟨member, List.mem_cons_of_mem _ found, inside⟩
termination_by structural members => members

theorem checksOnly_visitMember (location : Location) (key : String) :
    ∀ members : List (String × Json),
      ChecksOnly (fun check => ∃ value, (key, value) ∈ members ∧ check.StandsIn value location)
        fun limit => visitMember limit location key members
  | [] => .ok _
  | (k, value) :: rest => by
      simp only [visitMember]
      by_cases own : k = key
      · simp only [own, if_true]
        refine (checksOnly_visit location value).mono ?_
        intro check inside
        exact ⟨value, List.mem_cons_self, inside⟩
      · simp only [own, if_false]
        refine (checksOnly_visitMember location key rest).mono ?_
        rintro check ⟨later, found, inside⟩
        exact ⟨later, List.mem_cons_of_mem _ found, inside⟩
termination_by structural members => members

theorem checksOnly_visitKeyed (location : Location) (key : String) :
    ∀ raw : Json,
      ChecksOnly (fun check => ∃ value, raw.StandsAt [.key "data", .key key] value ∧
        check.StandsIn value location)
        fun limit => visitKeyed limit location key raw
  | .obj members => by
      refine (checksOnly_visitData location key members).mono ?_
      rintro check ⟨data, value, found, stands, inside⟩
      exact ⟨value, .member found stands, inside⟩
  | .null => .ok _
  | .bool _ => .ok _
  | .num _ => .ok _
  | .str _ => .ok _
  | .arr _ => .ok _
termination_by structural raw => raw

theorem checksOnly_visitData (location : Location) (key : String) :
    ∀ members : List (String × Json),
      ChecksOnly (fun check => ∃ data value, ("data", data) ∈ members ∧
        data.StandsAt [.key key] value ∧ check.StandsIn value location)
        fun limit => visitData limit location key members
  | [] => .ok _
  | (k, data) :: rest => by
      simp only [visitData]
      by_cases own : k = "data"
      · simp only [own, if_true]
        refine (checksOnly_visitInner location key data).mono ?_
        rintro check ⟨value, stands, inside⟩
        exact ⟨data, value, List.mem_cons_self, stands, inside⟩
      · simp only [own, if_false]
        refine (checksOnly_visitData location key rest).mono ?_
        rintro check ⟨later, value, found, stands, inside⟩
        exact ⟨later, value, List.mem_cons_of_mem _ found, stands, inside⟩
termination_by structural members => members

theorem checksOnly_visitInner (location : Location) (key : String) :
    ∀ raw : Json,
      ChecksOnly (fun check => ∃ value, raw.StandsAt [.key key] value ∧
        check.StandsIn value location)
        fun limit => visitInner limit location key raw
  | .obj members => by
      refine (checksOnly_visitMember location key members).mono ?_
      rintro check ⟨value, found, inside⟩
      exact ⟨value, .member found (.here value), inside⟩
  | .null => .ok _
  | .bool _ => .ok _
  | .num _ => .ok _
  | .str _ => .ok _
  | .arr _ => .ok _
termination_by structural raw => raw

end

end Normal

/-! ## The limit as a threshold -/

/-- A span wrapper occurs in a value. -/
def SpanWrapper.OccursIn (raw : Json) (w : SpanWrapper) : Prop :=
  ∃ part ∈ raw.descendants, SpanWrapper.of? part = some w

theorem SpanCheck.StandsIn.exists_occursIn {raw : Json} {location : Location} {check : SpanCheck}
    (inside : check.StandsIn raw location) :
    ∃ w, SpanWrapper.OccursIn raw w ∧ w.start = check.start ∧ w.stop = check.stop := by
  obtain ⟨rest, part, w, stands, found, rfl⟩ := inside
  exact ⟨w, ⟨part, stands.mem_descendants, found⟩, rfl, rfl⟩

/-- Checks of spans that are in order pass from a certain size on: the greatest end, or zero
if there are no checks. -/
theorem exists_bound_of_ordered {checks : List SpanCheck}
    (ordered : ∀ check ∈ checks, check.start ≤ check.stop) :
    ∃ bound, (bound = 0 ∨ ∃ check ∈ checks, check.stop = bound) ∧
      ∀ size, (∀ check ∈ checks, ¬ check.Fails (some size)) ↔ bound ≤ size := by
  have passes : ∀ size, (∀ check ∈ checks, ¬ check.Fails (some size)) ↔
      ∀ stop ∈ checks.map SpanCheck.stop, stop ≤ size := by
    intro size
    rw [List.forall_mem_map]
    refine forall₂_congr fun check member => ?_
    rw [SpanCheck.not_fails_some]
    exact and_iff_right (ordered check member)
  cases greatest : (checks.map SpanCheck.stop).max? with
  | none =>
      have empty := List.max?_eq_none_iff.1 greatest
      refine ⟨0, .inl rfl, ?_⟩
      intro size
      rw [passes, empty]
      simp
  | some bound =>
      refine ⟨bound, .inr (List.mem_map.1 (List.max?_mem greatest)), ?_⟩
      intro size
      rw [passes, List.max?_le_iff greatest]

/-- **The size of the source acts as a threshold.** Raw data with a span that stops before it
starts may have no normal form for any size. Else there is a number, zero or the end of a
span wrapper, such that there is a normal form exactly for the sizes from this number on, and
it is always the one without a limit. Nothing but a span makes the normal form fail. -/
theorem exists_bound_normalize (raw : Json) :
    ((∀ limit, ∃ e, normalize limit raw = .error e) ∧
        (∃ w, SpanWrapper.OccursIn raw w ∧ w.stop < w.start) ∨
      ∃ bound n, (bound = 0 ∨ ∃ w, SpanWrapper.OccursIn raw w ∧ w.stop = bound) ∧
        normalize none raw = .ok n ∧
        (∀ size, (∃ m, normalize (some size) raw = .ok m) ↔ bound ≤ size) ∧
        ∀ size m, normalize (some size) raw = .ok m → m = n) ∧
    ∀ limit e, normalize limit raw = .error e →
      ∃ path start stop, e = .invalidSpan path start stop limit := by
  have only := Normal.checksOnly_visit [] raw
  obtain ⟨checks, n, each, succeeds⟩ := only.exists_ok_iff
  refine ⟨?_, ?_⟩
  · by_cases reversed : ∃ check ∈ checks, check.stop < check.start
    · obtain ⟨check, member, reversed⟩ := reversed
      obtain ⟨w, occurs, start, stop⟩ := (each check member).exists_occursIn
      refine .inl ⟨?_, w, occurs, by omega⟩
      intro limit
      cases result : normalize limit raw with
      | error e => exact ⟨e, rfl⟩
      | ok m => exact absurd (.inl reversed) (((succeeds limit m).1 result).2 check member)
    · have ordered : ∀ check ∈ checks, check.start ≤ check.stop := by
        intro check member
        exact Nat.le_of_not_lt fun less => reversed ⟨check, member, less⟩
      obtain ⟨bound, origin, passes⟩ := exists_bound_of_ordered ordered
      refine .inr ⟨bound, n, ?_, ?_, ?_, ?_⟩
      · refine origin.imp_right ?_
        rintro ⟨check, member, rfl⟩
        obtain ⟨w, occurs, -, stop⟩ := (each check member).exists_occursIn
        exact ⟨w, occurs, stop⟩
      · refine (succeeds none n).2 ⟨rfl, ?_⟩
        intro check member
        exact SpanCheck.not_fails_none.2 (ordered check member)
      · intro size
        rw [← passes]
        constructor
        · rintro ⟨m, ok⟩
          exact ((succeeds _ m).1 ok).2
        · intro pass
          exact ⟨n, (succeeds _ n).2 ⟨rfl, pass⟩⟩
      · intro size m ok
        exact ((succeeds _ m).1 ok).1.symm
  · intro limit e failed
    obtain ⟨check, -, -, rfl⟩ := only.exists_of_error failed
    exact ⟨_, _, _, rfl⟩

/-! ## Where a failure stands -/

/-- **A failure tells its span and where it stands.** The text of its location is the one of a
single location, at which there is a wrapper with this very span, and the span is not in order
or not inside the source. Two locations never have the same text. -/
theorem located_of_normalize {raw : Json} (distinct : raw.Everywhere Json.DistinctKeys) :
    (∀ {limit reported : Option Nat} {path : String} {start stop : Nat},
      normalize limit raw = .error (.invalidSpan path start stop reported) →
        reported = limit ∧
        (stop < start ∨ ∃ size ∈ limit, size < stop) ∧
        ∃ location,
          (∀ other : Location, (raw.at? other).isSome ∧ other.text Place.escapeQuote = path ↔
            other = location) ∧
          ∃ w, (raw.at? location).bind SpanWrapper.of? = some w ∧
            w.start = start ∧ w.stop = stop) ∧
    Function.Injective (Location.text Place.escapeQuote) := by
  refine ⟨?_, Location.text_escapeQuote_injective⟩
  intro limit reported path start stop failed
  obtain ⟨check, inside, fails, named⟩ := (Normal.checksOnly_visit [] raw).exists_of_error failed
  obtain ⟨location, part, w, stands, found, rfl⟩ := inside
  cases named
  have here := stands.at?_eq distinct
  refine ⟨rfl, fails, location, ?_, w, by rw [here]; exact found, rfl, rfl⟩
  intro other
  constructor
  · rintro ⟨-, same⟩
    exact Location.text_escapeQuote_injective same
  · rintro rfl
    exact ⟨by rw [here]; rfl, rfl⟩

/-- A key that is a backslash, before one that closes and opens brackets. Beside it stands a
key with a quote, whose text starts alike. -/
theorem located_of_normalize_backslash :
    let wrapper : Json := .obj
      [("start", .ofNat 3), ("end", .ofNat 9), ("data", .obj [("a", .null), ("b", .null)])]
    let raw : Json := .obj
      [("'][", .null), ("\\", .obj [("][", .arr [.null, wrapper]), ("c", .null)])]
    let path := "$['\\'][']['][1]"
    raw.Everywhere Json.DistinctKeys ∧
      normalize (some 5) raw = .error (.invalidSpan path 3 9 (some 5)) ∧
      ∀ other : Location, (raw.at? other).isSome ∧ other.text Place.escapeQuote = path ↔
        other = [.key "\\", .key "][", .index 1] := by
  intro wrapper raw path
  have distinct : raw.Everywhere Json.DistinctKeys := by decide +kernel
  have failed : normalize (some 5) raw = .error (.invalidSpan path 3 9 (some 5)) := rfl
  obtain ⟨-, -, location, only, -⟩ := (located_of_normalize distinct).1 failed
  have here : [.key "\\", .key "][", .index 1] = location := (only _).1 ⟨rfl, by decide +kernel⟩
  rw [here]
  exact ⟨distinct, failed, only⟩

end TreeLens
