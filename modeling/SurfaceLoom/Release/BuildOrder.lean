import SurfaceLoom.Release.PackageGraph

/-! # The build order of a release

Every accepted list of packages has an order in which each package stands once, after the
release packages its input names; a list that cannot have one is refused for a cycle. -/
namespace SurfaceLoom.Release.PackageGraph
open SurfaceLoom.Lib SurfaceLoom.Lib.Checked
open SurfaceLoom.Lib.OrderedMap (get?_eq_none_iff mem_keys_iff has_eq_true_iff get?_set)

/-! ## What the checks read off an input -/

/-- The name an input package gives itself. -/
def NamedAs (input : Value) (name : String) : Prop :=
  ∃ fields, input = .object fields ∧ field fields "name" = .string name

/-- An input package names a dependency in one of the three fields. -/
def DependsOn (input : Value) (dependency : String) : Prop :=
  ∃ fields, input = .object fields ∧ ∃ which : DependencyField, ∃ entries,
    field fields which.name = .object entries ∧ dependency ∈ entries.map Prod.fst

theorem dependencyEntries_ok {label : String} : ∀ {fields : Fields}
    {entries : List (String × String)}, dependencyEntries label fields = .ok entries →
      entries.map Prod.fst = fields.map Prod.fst
  | [], _, h => by
    cases h
    rfl
  | (name, range) :: rest, entries, h => by
    rw [dependencyEntries] at h
    obtain ⟨name', hname, h⟩ := bind_ok.mp h
    obtain ⟨range', -, h⟩ := bind_ok.mp h
    obtain ⟨rest', hrest, h⟩ := bind_ok.mp h
    cases h
    cases string_ok hname
    rw [List.map_cons, List.map_cons, dependencyEntries_ok hrest]

theorem dependencyMap_ok {value : Value} {label : String} {entries : List (String × String)}
    (h : dependencyMap value label = .ok entries) {fields : Fields} (hvalue : value = .object fields) :
    entries.map Prod.fst = fields.map Prod.fst := by
  subst hvalue
  simp only [dependencyMap] at h
  obtain ⟨input, hinput, h⟩ := bind_ok.mp h
  cases dictionary_ok hinput
  exact dependencyEntries_ok h

theorem dependencyField_ok {allowLocalDependencies : Bool} {item : Fields} {name : String}
    {which : DependencyField} {entries : List (String × String)}
    (h : dependencyField allowLocalDependencies item name which = .ok entries) {fields : Fields}
    (hfield : field item which.name = .object fields) :
    entries.map Prod.fst = fields.map Prod.fst := by
  rw [dependencyField] at h
  obtain ⟨ranges, hranges, h⟩ := bind_ok.mp h
  split at h
  · cases h
  · cases h
    exact dependencyMap_ok hranges hfield

/-- The package that a checked input is remembered as. -/
structure ReadFrom (input : Value) (item : Package) : Prop where
  named : NamedAs input item.name
  depends : ∀ dependency, DependsOn input dependency →
    ∃ which, dependency ∈ (item.field which).map Prod.fst

theorem checkPackage_ok {allowLocalDependencies : Bool} {input : Value} {index : Nat}
    {item : Package} (h : checkPackage allowLocalDependencies input index = .ok item) :
    ReadFrom input item := by
  rw [checkPackage] at h
  obtain ⟨fields, hfields, h⟩ := bind_ok.mp h
  obtain ⟨name, hname, h⟩ := bind_ok.mp h
  obtain ⟨version, -, h⟩ := bind_ok.mp h
  obtain ⟨dependencies, hdependencies, h⟩ := bind_ok.mp h
  obtain ⟨peerDependencies, hpeer, h⟩ := bind_ok.mp h
  obtain ⟨optionalDependencies, hoptional, h⟩ := bind_ok.mp h
  obtain ⟨-, -, h⟩ := bind_ok.mp h
  cases h
  have hinput := record_ok hfields
  refine ⟨⟨fields, hinput, string_ok hname⟩, ?_⟩
  rintro dependency ⟨fields', hinput', which, entries, hentries, hin⟩
  cases hinput.symm.trans hinput'
  refine ⟨which, ?_⟩
  cases which with
  | dependencies => exact dependencyField_ok hdependencies hentries ▸ hin
  | peerDependencies => exact dependencyField_ok hpeer hentries ▸ hin
  | optionalDependencies => exact dependencyField_ok hoptional hentries ▸ hin

/-- Every input is remembered under its name, and nothing remembered before is lost. -/
theorem addPackages_ok {allowLocalDependencies : Bool} : ∀ {inputs : List Value} {index : Nat}
    {byName byName' : Packages}, addPackages allowLocalDependencies inputs index byName = .ok byName' →
      (∀ name item, byName.get? name = some item → byName'.get? name = some item) ∧
      ∀ input ∈ inputs, ∃ item, ReadFrom input item ∧ byName'.get? item.name = some item
  | [], _, byName, byName', h => by
    cases h
    exact ⟨fun _ _ hget => hget, nofun⟩
  | input :: rest, index, byName, byName', h => by
    rw [addPackages] at h
    obtain ⟨item, hitem, h⟩ := bind_ok.mp h
    split at h
    · cases h
    · rename_i hnew
      obtain ⟨hkept, hrest⟩ := addPackages_ok h
      constructor
      · intro name other hget
        refine hkept name other ?_
        rw [get?_set]
        split
        · rename_i hname
          rw [← hname] at hnew
          exact absurd (has_eq_true_iff.mpr ⟨other, hget⟩) hnew
        · exact hget
      · intro input' hin
        rcases List.mem_cons.mp hin with rfl | hin
        · exact ⟨item, checkPackage_ok hitem, hkept item.name item (by rw [get?_set, if_pos rfl])⟩
        · exact hrest input' hin

theorem requirePackages_ok {byName : Packages} : ∀ {names : List String},
    requirePackages byName names = .ok () → ∀ name ∈ names, byName.has name = true
  | [], _ => nofun
  | name :: rest, h => by
    rw [requirePackages] at h
    split at h
    · rename_i hhas
      intro name' hin
      rcases List.mem_cons.mp hin with rfl | hin
      · exact hhas
      · exact requirePackages_ok h name' hin
    · cases h

theorem refuseOthers_ok {packageNames : List String} : ∀ {names : List String},
    refuseOthers packageNames names = .ok () → ∀ name ∈ names, name ∈ packageNames
  | [], _ => nofun
  | name :: rest, h => by
    rw [refuseOthers] at h
    split at h
    · rename_i hcontains
      intro name' hin
      rcases List.mem_cons.mp hin with rfl | hin
      · simpa using hcontains
      · exact refuseOthers_ok h name' hin
    · cases h

/-! ## The graph -/

/-- `a` names `b` in a dependency field, and both are packages of the release. -/
def Depends (byName : Packages) (a b : String) : Prop :=
  ∃ item, byName.get? a = some item ∧ byName.has b = true ∧
    ∃ which, b ∈ (item.field which).map Prod.fst

theorem mem_dependencyFields (which : DependencyField) : which ∈ dependencyFields := by
  cases which <;> simp [dependencyFields]

/-- The edges the search follows. -/
theorem edge_iff {byName : Packages} {a b : String} :
    DepthFirst.Edge (successors byName) a b ↔ Depends byName a b := by
  unfold DepthFirst.Edge successors Depends
  cases hitem : byName.get? a with
  | none => simp
  | some item =>
    simp only [List.mem_flatMap, List.mem_filterMap, Option.some.injEq, exists_eq_left']
    constructor
    · rintro ⟨which, -, dependency, hin, hsome⟩
      split at hsome
      · rename_i hhas
        cases hsome
        exact ⟨hhas, which, CodeUnits.mem_sort.mp hin⟩
      · split at hsome
        · cases hsome
        · cases hsome
    · rintro ⟨hhas, which, hin⟩
      exact ⟨which, mem_dependencyFields which, b, CodeUnits.mem_sort.mpr hin, if_pos hhas⟩

theorem closed (byName : Packages) : DepthFirst.Closed (successors byName) byName.keys := by
  intro a _ b hedge
  obtain ⟨_, _, hhas, _⟩ := edge_iff.mp hedge
  exact mem_keys_iff.mpr (has_eq_true_iff.mp hhas)

/-- A map of packages that meets the other checks: it holds the listed packages and no other,
and no package names an absent one of the release's own. -/
structure Passes (byName : Packages) (packageNames : List String) : Prop where
  listed : ∀ name, name ∈ packageNames ↔ name ∈ byName.keys
  present : ∀ name item, byName.get? name = some item → ∀ which : DependencyField,
    ∀ dependency ∈ (item.field which).map Prod.fst,
      "@surfaceloom/".toList.isPrefixOf dependency.toList = true → byName.has dependency = true

theorem Passes.follow {byName : Packages} {packageNames : List String}
    (h : Passes byName packageNames) {name : String} (hname : name ∈ byName.keys)
    (failure : Failure) : .error failure ∉ successors byName name := by
  obtain ⟨item, hitem⟩ := mem_keys_iff.mp hname
  intro hin
  simp only [successors, hitem, List.mem_flatMap, List.mem_filterMap] at hin
  obtain ⟨which, -, dependency, hdependency, hsome⟩ := hin
  split at hsome
  · cases hsome
  · rename_i hhas
    split at hsome
    · rename_i hown
      exact hhas (h.present name item hitem which dependency (CodeUnits.mem_sort.mp hdependency) hown)
    · cases hsome

theorem transGen_edge_iff {byName : Packages} {a b : String} :
    Relation.TransGen (DepthFirst.Edge (successors byName)) a b ↔
      Relation.TransGen (Depends byName) a b := by
  have hsame : DepthFirst.Edge (successors byName) = Depends byName := by
    funext a b
    exact propext edge_iff
  rw [hsame]

theorem depends_of_cycle {byName : Packages} {a b : String}
    (h : Relation.TransGen (Depends byName) a b) : a ∈ byName.keys := by
  obtain ⟨c, ⟨item, hitem, -⟩, -⟩ := Relation.TransGen.head'_iff.mp h
  exact mem_keys_iff.mpr ⟨item, hitem⟩

/-- Either there is an order or there is a cycle, and the function says which. -/
theorem Passes.topologicalOrder {byName : Packages} {packageNames : List String}
    (h : Passes byName packageNames) :
    ((∃ order, topologicalOrder byName packageNames = .ok order) ∧
      ∀ name, ¬ Relation.TransGen (Depends byName) name name) ∨
    ((∃ message, topologicalOrder byName packageNames =
        .error (.contract .dependencyCycle message)) ∧
      ∃ name, Relation.TransGen (Depends byName) name name) := by
  have hsize : byName.keys.length < byName.size + 1 := by
    simp [OrderedMap.keys, OrderedMap.size]
  rcases DepthFirst.search_all (closed byName) (fun _ hname failure => h.follow hname failure)
    h.listed hsize with ⟨⟨t, ht, -⟩, hacyclic⟩ | ⟨⟨a, ha⟩, name, -, hcycle⟩
  · refine .inl ⟨⟨t.output, ?_⟩, fun name hcycle => ?_⟩
    · rw [PackageGraph.topologicalOrder, ht]
    · exact hacyclic name (depends_of_cycle hcycle) (transGen_edge_iff.mpr hcycle)
  · refine .inr ⟨⟨"Release package dependency cycle includes " ++ a ++ ".", ?_⟩, name, transGen_edge_iff.mp hcycle⟩
    rw [PackageGraph.topologicalOrder, ha]
    rfl

/-- An order that comes out lists every package once, after what it depends on. -/
theorem topologicalOrder_ok {byName : Packages} {packageNames order : List String}
    (hlisted : ∀ name, name ∈ packageNames ↔ name ∈ byName.keys)
    (h : topologicalOrder byName packageNames = .ok order) :
    order.Nodup ∧ (∀ name, name ∈ order ↔ name ∈ packageNames) ∧
      ∀ before name rest, order = before ++ name :: rest → ∀ dependency,
        Depends byName name dependency → dependency ∈ before := by
  have hsize : byName.keys.length < byName.size + 1 := by
    simp [OrderedMap.keys, OrderedMap.size]
  have houtcome := DepthFirst.search_outcome (closed byName)
    (fun name hname => (hlisted name).mp hname) hsize
  rw [topologicalOrder] at h
  cases hsearch : DepthFirst.search (successors byName) (byName.size + 1) packageNames with
  | error failure =>
    rw [hsearch] at h
    cases h
  | ok t =>
    rw [hsearch] at h houtcome
    cases h
    cases houtcome with
    | listed hsound hgrows hin =>
      refine ⟨hsound.ordered.nodup, fun name => ⟨fun hname => ?_, hin name⟩, ?_⟩
      · exact (hlisted name).mpr (hsound.outputInside name hname)
      · intro before name rest hsplit dependency hdepends
        exact hsound.ordered.after before name rest hsplit dependency (edge_iff.mpr hdepends)

/-! ## Accepted lists -/

/-- Every release package stands in the order once, after the release packages its input names. -/
structure Topological (packages : List Value) (packageNames order : List String) : Prop where
  once : order.Nodup
  listed : ∀ name, name ∈ order ↔ name ∈ packageNames
  after : ∀ input ∈ packages, ∀ name, NamedAs input name → ∀ dependency, DependsOn input dependency →
    dependency ∈ packageNames → ∀ before rest, order = before ++ name :: rest → dependency ∈ before

theorem NamedAs.unique {input : Value} {a b : String} (ha : NamedAs input a) (hb : NamedAs input b) :
    a = b := by
  obtain ⟨fields, hinput, hname⟩ := ha
  obtain ⟨fields', hinput', hname'⟩ := hb
  cases hinput.symm.trans hinput'
  cases hname.symm.trans hname'
  rfl

theorem validatePackageSet_ok {value : Value} {allowLocalDependencies : Bool}
    {packageNames : List String} {set : PackageSet}
    (h : validatePackageSet value allowLocalDependencies packageNames = .ok set) :
    value = .array set.packages ∧ Topological set.packages packageNames set.buildOrder := by
  rw [validatePackageSet] at h
  obtain ⟨packages, hpackages, h⟩ := bind_ok.mp h
  split at h
  · cases h
  · obtain ⟨byName, hbyName, h⟩ := bind_ok.mp h
    obtain ⟨hrequire, h⟩ := bind_unit_ok.mp h
    obtain ⟨hrefuse, h⟩ := bind_unit_ok.mp h
    obtain ⟨-, h⟩ := bind_unit_ok.mp h
    obtain ⟨order, horder, h⟩ := bind_ok.mp h
    cases h
    have hlisted : ∀ name, name ∈ packageNames ↔ name ∈ byName.keys := fun name =>
      ⟨fun hname => mem_keys_iff.mpr (has_eq_true_iff.mp (requirePackages_ok hrequire name hname)),
        refuseOthers_ok hrefuse name⟩
    obtain ⟨honce, hmem, hafter⟩ := topologicalOrder_ok hlisted horder
    refine ⟨list_ok hpackages, honce, hmem, ?_⟩
    intro input hinput name hname dependency hdepends hin before rest hsplit
    obtain ⟨item, hread, hitem⟩ := (addPackages_ok hbyName).2 input hinput
    cases hname.unique hread.named
    obtain ⟨which, hwhich⟩ := hread.depends dependency hdepends
    have hhas := has_eq_true_iff.mpr (mem_keys_iff.mp ((hlisted dependency).mp hin))
    exact hafter before item.name rest hsplit dependency ⟨item, hitem, hhas, which, hwhich⟩

/-- The order of an accepted list is topological, and of the maps that meet the other checks
exactly those with a cycle are refused, as such. -/
theorem buildOrder_topological :
    (∀ (value : Value) (allowLocalDependencies : Bool) (packageNames : List String)
        (set : PackageSet), validatePackageSet value allowLocalDependencies packageNames = .ok set →
      value = .array set.packages ∧ Topological set.packages packageNames set.buildOrder) ∧
    ∀ (byName : Packages) (packageNames : List String), Passes byName packageNames →
      ((∃ message, topologicalOrder byName packageNames =
          .error (.contract .dependencyCycle message)) ↔
        ∃ name, Relation.TransGen (Depends byName) name name) ∧
      ((∃ order, topologicalOrder byName packageNames = .ok order) ↔
        ¬ ∃ name, Relation.TransGen (Depends byName) name name) := by
  refine ⟨fun _ _ _ _ => validatePackageSet_ok, fun byName packageNames hpasses => ?_⟩
  rcases hpasses.topologicalOrder with ⟨⟨order, horder⟩, hacyclic⟩ | ⟨⟨message, hmessage⟩, hcycle⟩
  · constructor
    · constructor
      · rintro ⟨message, hmessage⟩
        rw [horder] at hmessage
        cases hmessage
      · rintro ⟨name, hcycle⟩
        exact absurd hcycle (hacyclic name)
    · exact ⟨fun _ ⟨name, hcycle⟩ => hacyclic name hcycle, fun _ => ⟨order, horder⟩⟩
  · constructor
    · exact ⟨fun _ => hcycle, fun _ => ⟨message, hmessage⟩⟩
    · constructor
      · rintro ⟨order, horder⟩
        rw [horder] at hmessage
        cases hmessage
      · exact fun hnone => absurd hcycle hnone

/-- A package with the least it must have. -/
def plain (name : String) (dependencies peerDependencies : Fields) : Value :=
  .object [("name", .string name), ("version", .string "0.1.0"),
    ("dependencies", .object dependencies), ("peerDependencies", .object peerDependencies),
    ("peerDependenciesMeta", .undefined), ("optionalDependencies", .undefined),
    ("exports", .object []), ("bin", .object []), ("assets", .array []),
    ("license", .string "MIT")]

/-- The first package depends on the other two, one of them through a peer. -/
def diamond : Value :=
  .array [plain "c" [("a", .string "0.1.0")] [("b", .string "0.1.0")],
    plain "b" [("a", .string "file:../a")] [], plain "a" [("zod", .string "^3")] []]

/-- A package by itself that depends on itself. -/
def selfish : Package := ⟨"a", "0.1.0", [], [("a", "0.1.0")], []⟩

theorem diamond_topological :
    (∃ set, validatePackageSet diamond true ["c", "b", "a"] = .ok set ∧
      set.buildOrder = ["a", "b", "c"] ∧ Topological set.packages ["c", "b", "a"] set.buildOrder) ∧
    ∃ name, Relation.TransGen (Depends (OrderedMap.empty.set "a" selfish)) name name := by
  obtain ⟨haccepted, hgraph⟩ := buildOrder_topological
  constructor
  · have hrun : ((validatePackageSet diamond true ["c", "b", "a"]).toOption.any fun set =>
        set.buildOrder = ["a", "b", "c"]) = true := by
      decide
    cases hset : validatePackageSet diamond true ["c", "b", "a"] with
    | error failure =>
      rw [hset] at hrun
      cases hrun
    | ok set =>
      rw [hset] at hrun
      exact ⟨set, rfl, of_decide_eq_true hrun, (haccepted _ _ _ set hset).2⟩
  · have hpasses : Passes (OrderedMap.empty.set "a" selfish) ["a"] := by
      refine ⟨fun name => Iff.rfl, ?_⟩
      intro name item hitem which dependency hdependency hown
      have hname : name = "a" := by
        by_contra hne
        rw [get?_set, if_neg hne] at hitem
        cases hitem
      subst hname
      cases hitem
      cases which with
      | dependencies | optionalDependencies => cases hdependency
      | peerDependencies =>
        rw [List.mem_singleton.mp hdependency]
        rfl
    exact ((hgraph _ ["a"] hpasses).1.mp ⟨"Release package dependency cycle includes a.", by decide⟩)

end SurfaceLoom.Release.PackageGraph
