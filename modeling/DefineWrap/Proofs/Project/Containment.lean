/-
Where a wrapped module is written.

The place that a path leads to is read off its text here: a name goes down, two dots go up, and
links do not matter (`Path.place`). What comes after another path is a route from there. It can be
brought into a shortest form, in which it first goes up some levels and then only down
(`Path.route`).

What a module has after the root directory is put after the output directory as it is, so a module
whose path goes up again takes its file out of the output directory with it. The file stays there
exactly if the names that the route climbs past in the output directory are those that it goes down
again (`ModuleFile.isContained_iff`). A module whose path does not begin with the root directory is
written directly into the output directory.
-/
import Mathlib.Data.List.DropRight
import DefineWrap.Project.FileSystem
import DefineWrap.Project.ModuleFile
import DefineWrap.Proofs.Project.Components

set_option autoImplicit false

namespace DefineWrap

/-! ## Places -/

namespace Location

/-- A place lies below another one: it is in that directory, or in one that is in it. A place does
not lie below itself. -/
def IsBelow (place base : Location) : Prop := base <+: place ∧ place ≠ base

instance (place base : Location) : Decidable (place.IsBelow base) :=
  inferInstanceAs (Decidable (_ ∧ _))

/-- Where a component leads from a place, if there are no links. Above the root is the root. -/
def after (place : Location) : Component → Location
  | .root => []
  | .current => place
  | .parent => place.dropLast
  | .normal name => place ++ [name]

end Location

/-- A route from a directory in its shortest form: some levels up, and then some names down. No name
is gone down and up again, so the two parts tell where it leads from any place. -/
structure Route where
  climb : Nat
  descent : Location
  deriving DecidableEq, Repr

namespace Route

/-- The route that goes on with a component. A route has no root in it, so that case is never met.
Going up takes back the last name, or is one level more if there is none. -/
def after (route : Route) : Component → Route
  | .root => route
  | .current => route
  | .parent =>
    if route.descent = [] then ⟨route.climb + 1, []⟩ else ⟨route.climb, route.descent.dropLast⟩
  | .normal name => ⟨route.climb, route.descent ++ [name]⟩

/-- Where a route leads to from a place. Climbing past the root stays there, as `Location.after`
does. -/
def leadFrom (route : Route) (place : Location) : Location :=
  place.rdrop route.climb ++ route.descent

end Route

namespace Path

/-- The place that a path leads to, if there are no links. It is read off the text, so nothing has
to be stored there. -/
def place (path : Path) : Location := path.components.foldl Location.after []

/-- The shortest form of a relative path. -/
def route (path : Path) : Route := path.components.foldl Route.after ⟨0, []⟩

end Path

/-! ## Ways -/

namespace Route

variable {route : Route} {place base : Location}

/-- A place is where its last names have been climbed past, and these names. -/
theorem rdrop_append_rtake (place : Location) (count : Nat) :
    place.rdrop count ++ place.rtake count = place :=
  List.take_append_drop _ place

theorem dropLast_rdrop (place : Location) (count : Nat) :
    (place.rdrop count).dropLast = place.rdrop (count + 1) := by
  rw [List.rdrop, List.rdrop, List.dropLast_eq_take, List.take_take, List.length_take]
  congr 1
  omega

/-- One more component leads on from where the route has led so far. Going up once more than there
are levels is the case that has to be looked at: both sides are at the root then. -/
theorem leadFrom_after {component : Component} (h : component ≠ .root) (place : Location) :
    (route.after component).leadFrom place = (route.leadFrom place).after component := by
  cases component with
  | root => exact absurd rfl h
  | current => rfl
  | normal name => exact (List.append_assoc _ _ _).symm
  | parent =>
    rw [after, Location.after]
    by_cases hnone : route.descent = []
    · rw [if_pos hnone, leadFrom, leadFrom, hnone, List.append_nil, List.append_nil,
        dropLast_rdrop]
    · rw [if_neg hnone, leadFrom, leadFrom, List.dropLast_append_of_ne_nil hnone]

/-- **The shortest form of a route leads to the same place**, wherever it begins. By induction over
the components, from a route that has been gone so far. -/
theorem foldl_after_leadFrom {components : List Component} (h : .root ∉ components) (route : Route)
    (place : Location) :
    components.foldl Location.after (route.leadFrom place) =
      (components.foldl after route).leadFrom place := by
  induction components generalizing route with
  | nil => rfl
  | cons component rest ih =>
    rw [List.mem_cons, not_or] at h
    rw [List.foldl_cons, List.foldl_cons, ← leadFrom_after (Ne.symm h.1), ih h.2]

/-- A route leads below its beginning if it goes down the names that it has climbed past, and then
further. It may leave the directory and come back, which is why it is not enough to ask whether it
climbs. -/
theorem isBelow_leadFrom_iff :
    (route.leadFrom base).IsBelow base ↔ route.descent.IsBelow (base.rtake route.climb) := by
  have hbegins : base <+: route.leadFrom base ↔ base.rtake route.climb <+: route.descent := by
    conv_lhs => lhs; rw [← rdrop_append_rtake base route.climb]
    exact List.prefix_append_right_inj _
  have heq : route.leadFrom base = base ↔ route.descent = base.rtake route.climb := by
    conv_lhs => rhs; rw [← rdrop_append_rtake base route.climb]
    exact List.append_right_inj _
  rw [Location.IsBelow, Location.IsBelow, hbegins, ne_eq, heq]

/-- A route leads directly into its beginning if one name comes after those that it has climbed
past. -/
theorem dropLast_leadFrom_iff (h : route.descent ≠ []) :
    (route.leadFrom base).dropLast = base ↔ route.descent.dropLast = base.rtake route.climb := by
  rw [leadFrom, List.dropLast_append_of_ne_nil h]
  conv_lhs => rhs; rw [← rdrop_append_rtake base route.climb]
  exact List.append_right_inj _

end Route

namespace Path

variable {path base rest : Path}

theorem root_notMem_components (h : path.beginning = .relative) : .root ∉ path.components := by
  intro hroot
  rw [components, h, Beginning.components, List.nil_append, List.mem_filterMap] at hroot
  obtain ⟨piece, -, hpiece⟩ := hroot
  rw [Piece.component?] at hpiece
  split at hpiece
  · split at hpiece <;> cases hpiece
  · cases hpiece

/-- A path with the components of another one and more leads where these lead from there. Joining
and taking apart are both of this form. -/
theorem place_eq_leadFrom (hrest : rest.beginning = .relative)
    (h : path.components = base.components ++ rest.components) :
    path.place = rest.route.leadFrom base.place := by
  have hbegin : base.place = Route.leadFrom ⟨0, []⟩ base.place := by
    rw [Route.leadFrom, List.rdrop_zero, List.append_nil]
  rw [place, h, List.foldl_append, ← place, hbegin,
    Route.foldl_after_leadFrom (root_notMem_components hrest), ← hbegin, route]

/-- A relative path leads on from the place of the one that it is joined to. -/
theorem place_join (h : path.beginning = .relative) :
    (base.join path).place = path.route.leadFrom base.place :=
  place_eq_leadFrom h (components_join h)

/-- What is left of a path after another one leads from there to where the path leads. -/
theorem place_of_stripPrefix? (h : path.stripPrefix? base = some rest)
    (hbase : base.components ≠ []) : path.place = rest.route.leadFrom base.place :=
  place_eq_leadFrom (beginning_of_stripPrefix? h hbase) (components_of_stripPrefix? h)

theorem components_ne_nil_of_isAbsolute (h : path.isAbsolute = true) : path.components ≠ [] := by
  rw [isAbsolute, decide_eq_true_eq] at h
  rw [components, h]
  exact List.cons_ne_nil _ _

theorem mem_components_of_fileName? {name : String} (h : path.fileName? = some name) :
    .normal name ∈ path.components := by
  rw [fileName?] at h
  split at h
  next last hlast =>
    rw [← Option.some.inj h]
    exact List.mem_of_getLast? hlast
  · cases h

end Path

/-! ## The place of the file of a module -/

namespace ModuleFile

variable {path root out : Path} {name : String}

/-- A module keeps to the output directory: its file lies below it, and directly in it if the module
does not lie below the root directory. Where files are meant to be is said in places, and not in
texts, which can go up and down. -/
structure IsContained (path root out : Path) : Prop where
  below : (outputPath path root out).place.IsBelow out.place
  direct : ¬ path.place.IsBelow root.place → (outputPath path root out).place.dropLast = out.place

/-- A file that does not begin with the root directory is written under its name, directly in the
output directory. -/
theorem place_outputPath_of_elsewhere (hname : path.fileName? = some name)
    (h : path.stripPrefix? root = none) :
    (outputPath path root out).place = out.place ++ [name] := by
  obtain ⟨hisName, hslash⟩ := Path.isName_of_mem_components (Path.mem_components_of_fileName? hname)
  have hroute : (⟨name⟩ : Path).route = ⟨0, [name]⟩ := by
    rw [Path.route, Path.components_of_isName hisName hslash]
    rfl
  rw [outputPath, h, hname, Option.getD_some,
    Path.place_join (Path.beginning_of_isName hisName hslash), hroute, Route.leadFrom,
    List.rdrop_zero]

/-- What comes after the root directory leads from the output directory to the file. It is the same
route in both, which is where the two places come from in `isContained_iff`. -/
theorem place_outputPath_of_below {rest : Path} (hroot : root.isAbsolute = true)
    (h : path.stripPrefix? root = some rest) :
    path.place = rest.route.leadFrom root.place ∧
      (outputPath path root out).place = rest.route.leadFrom out.place := by
  have hroot' := Path.components_ne_nil_of_isAbsolute hroot
  refine ⟨Path.place_of_stripPrefix? h hroot', ?_⟩
  rw [outputPath, h]
  exact Path.place_join (Path.beginning_of_stripPrefix? h hroot')

/-- **Which modules keep to the output directory.** Those whose paths do not begin with the root
directory do. What another one has after the root directory goes up some levels, if any, and then
down; it must go down the names that it has climbed past in the output directory, and further, and
so in the root directory, or end there. -/
theorem isContained_iff (hroot : root.isAbsolute = true) (hname : path.fileName? = some name) :
    IsContained path root out ↔
      ∀ rest, path.stripPrefix? root = some rest →
        rest.route.descent.IsBelow (out.place.rtake rest.route.climb) ∧
          (rest.route.descent.IsBelow (root.place.rtake rest.route.climb) ∨
            rest.route.descent.dropLast = out.place.rtake rest.route.climb) := by
  cases hstrip : path.stripPrefix? root with
  | none =>
    have hplace : (outputPath path root out).place = out.place ++ [name] :=
      place_outputPath_of_elsewhere hname hstrip
    refine iff_of_true ⟨?_, fun _ => ?_⟩ fun rest hrest => by cases hrest
    · rw [hplace]
      exact ⟨List.prefix_append _ _, by simp⟩
    · rw [hplace, List.dropLast_concat]
  | some rest =>
    obtain ⟨hpath, hout⟩ : path.place = rest.route.leadFrom root.place ∧
        (outputPath path root out).place = rest.route.leadFrom out.place :=
      place_outputPath_of_below hroot hstrip
    have hbelow : (rest.route.leadFrom out.place).IsBelow out.place ↔
        rest.route.descent.IsBelow (out.place.rtake rest.route.climb) :=
      Route.isBelow_leadFrom_iff
    have hinside : (rest.route.leadFrom root.place).IsBelow root.place ↔
        rest.route.descent.IsBelow (root.place.rtake rest.route.climb) :=
      Route.isBelow_leadFrom_iff
    -- What goes on after some names is not empty, so its last name can be taken off.
    have hdirect : rest.route.descent.IsBelow (out.place.rtake rest.route.climb) →
        ((rest.route.leadFrom out.place).dropLast = out.place ↔
          rest.route.descent.dropLast = out.place.rtake rest.route.climb) := by
      rintro ⟨hbegins, hne⟩
      refine Route.dropLast_leadFrom_iff fun hnone => hne ?_
      rw [hnone] at hbegins ⊢
      exact (List.prefix_nil.1 hbegins).symm
    constructor
    · rintro ⟨hisBelow, hisDirect⟩ rest' hrest'
      obtain rfl := Option.some.inj hrest'
      rw [hout, hbelow] at hisBelow
      rw [hpath, hout, hinside, hdirect hisBelow] at hisDirect
      exact ⟨hisBelow, Classical.or_iff_not_imp_left.2 hisDirect⟩
    · intro h
      obtain ⟨hisBelow, hisDirect⟩ := h rest rfl
      constructor
      · rwa [hout, hbelow]
      · rw [hpath, hout, hinside, hdirect hisBelow]
        exact Classical.or_iff_not_imp_left.1 hisDirect

/-- A module that goes up inside the root directory only has its file below the output directory, at
the place where it goes up and down there. -/
theorem isContained_iff_upAndDown :
    Path.isAbsolute ⟨"/r"⟩ = true ∧ Path.fileName? ⟨"/r/a/../b/m.json"⟩ = some "m.json" ∧
      IsContained ⟨"/r/a/../b/m.json"⟩ ⟨"/r"⟩ ⟨"/o"⟩ := by
  have hroot : Path.isAbsolute ⟨"/r"⟩ = true := by decide
  have hname : Path.fileName? ⟨"/r/a/../b/m.json"⟩ = some "m.json" := by decide
  refine ⟨hroot, hname, (isContained_iff hroot hname).2 fun rest hrest => ?_⟩
  have hstrip : Path.stripPrefix? ⟨"/r/a/../b/m.json"⟩ ⟨"/r"⟩ = some ⟨"a/../b/m.json"⟩ := by decide
  obtain rfl := Option.some.inj (hstrip.symm.trans hrest)
  decide

/-- **A file that is written elsewhere.** All three paths are absolute, and only that of the module
goes up: out of the root directory, and its file out of the output directory. -/
theorem not_isContained_up :
    (∀ path ∈ [⟨"/r/../x/m.json"⟩, ⟨"/r"⟩, ⟨"/o"⟩], Path.isAbsolute path = true) ∧
      (∀ path ∈ [⟨"/r"⟩, ⟨"/o"⟩], .parent ∉ Path.components path) ∧
      Path.fileName? ⟨"/r/../x/m.json"⟩ = some "m.json" ∧
      outputPath ⟨"/r/../x/m.json"⟩ ⟨"/r"⟩ ⟨"/o"⟩ = ⟨"/o/../x/m.json"⟩ ∧
      ¬ IsContained ⟨"/r/../x/m.json"⟩ ⟨"/r"⟩ ⟨"/o"⟩ := by
  have hout : outputPath ⟨"/r/../x/m.json"⟩ ⟨"/r"⟩ ⟨"/o"⟩ = ⟨"/o/../x/m.json"⟩ := by decide
  refine ⟨by decide, by decide, by decide, hout, fun h => ?_⟩
  have hbelow := h.below
  rw [hout] at hbelow
  revert hbelow
  decide

end ModuleFile

end DefineWrap
