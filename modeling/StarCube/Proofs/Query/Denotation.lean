import StarCube.Proofs.Query.References

/-!
What references denote. A reference names a level, or a dimension and by it the finest level of its
first hierarchy. The queries that are put together from references are told here by what these
denote.
-/

namespace StarCube

/-- The level that a reference denotes in a cube. -/
inductive Cube.Denotes (cube : Cube) (text : String) : LevelRef → Prop
  | level {dimension level : String} {hierarchy : Option String}
      (reads : MemberReference.parse text = .ok ⟨dimension, hierarchy, some level⟩) :
      Denotes cube text ⟨dimension, level, hierarchy⟩
  | finest {name : String} {hierarchy : Option String} {dimension : Dimension} {first : Hierarchy}
      {finest : Level} (reads : MemberReference.parse text = .ok ⟨name, hierarchy, none⟩)
      (found : cube.dimension? name = some dimension)
      (leads : dimension.hierarchies.head? = some first)
      (ends : first.levels.getLast? = some finest) :
      Denotes cube text ⟨name, finest.name, none⟩

theorem Dimension.finestLevel_eq_ok_iff {dimension : Dimension} {level : Level} :
    dimension.finestLevel = .ok level ↔
      ∃ first, dimension.hierarchies.head? = some first ∧ first.levels.getLast? = some level := by
  unfold finestLevel firstHierarchy
  cases dimension.hierarchies.head? with
  | none => simp [bind, Except.bind]
  | some first =>
      cases hlast : first.levels.getLast? <;>
        simp [bind, Except.bind, pure, Except.pure, hlast, throw, throwThe, MonadExceptOf.throw]

namespace Cube

variable {cube : Cube} {text : String} {ref : LevelRef}

/-- A reference is resolved to the level that it denotes, and to none if there is no such. -/
theorem levelRef_eq_ok_iff : cube.levelRef text = .ok ref ↔ cube.Denotes text ref := by
  constructor
  · intro h
    obtain ⟨⟨dimension, hierarchy, level⟩, hreads, h⟩ := Except.bind_eq_ok_iff.1 h
    cases level with
    | some level =>
        obtain rfl := Except.ok.inj h
        exact .level hreads
    | none =>
        obtain ⟨found, hfound, h⟩ := Except.bind_eq_ok_iff.1 h
        obtain ⟨finest, hfinest, h⟩ := Except.bind_eq_ok_iff.1 h
        obtain rfl := Except.ok.inj h
        obtain ⟨first, hleads, hends⟩ := Dimension.finestLevel_eq_ok_iff.1 hfinest
        have hdimension := requireDimension_eq_ok_iff.1 (Except.mapError_eq_ok_iff.1 hfound)
        exact .finest hreads hdimension hleads hends
  · intro h
    cases h with
    | level hreads =>
        exact Except.bind_eq_ok_iff.2 ⟨_, hreads, rfl⟩
    | finest hreads hfound hleads hends =>
        have hdimension := requireDimension_eq_ok_iff.2 hfound
        have hfinest := Dimension.finestLevel_eq_ok_iff.2 ⟨_, hleads, hends⟩
        refine Except.bind_eq_ok_iff.2 ⟨_, hreads, ?_⟩
        refine Except.bind_eq_ok_iff.2 ⟨_, Except.mapError_eq_ok_iff.2 hdimension, ?_⟩
        exact Except.bind_eq_ok_iff.2 ⟨_, hfinest, rfl⟩

end Cube

namespace Query

variable {definition : Cube} {name : String} {dimensions measures : List String}
  {filters : Keyed Value} {query : Query}

/-- A query of measures by the levels that references denote, with a condition for each filter. -/
structure OfSlice (query : Query) (definition : Cube) (name : String)
    (dimensions measures : List String) (filters : Keyed Value) : Prop where
  cube : query.cube = name
  select : ∃ levels, List.Forall₂ definition.Denotes dimensions levels ∧
    query.select = levels.map SelectItem.level ++ measures.map SelectItem.measure
  conditions : List.Forall₂ (fun filter predicate => ∃ ref, definition.Denotes filter.1 ref ∧
    predicate = .among ref (filterValues filter.2)) filters query.conditions

/-- The query of a slice is put together from what its references denote. -/
theorem ofSlice_eq_ok_iff :
    ofSlice definition name dimensions measures filters = .ok query ↔
      query.OfSlice definition name dimensions measures filters := by
  have hcondition : ∀ filter : String × Value, ∀ predicate : Predicate,
      (do return Predicate.among (← definition.levelRef filter.1) (filterValues filter.2)) =
          Except.ok (ε := Failure) predicate ↔
        ∃ ref, definition.Denotes filter.1 ref ∧
          predicate = .among ref (filterValues filter.2) := by
    intro filter predicate
    rw [Except.bind_eq_ok_iff]
    simp only [Except.pure_eq_ok_iff, Cube.levelRef_eq_ok_iff, @eq_comm _ _ predicate]
  constructor
  · intro h
    obtain ⟨levels, hlevels, h⟩ := Except.bind_eq_ok_iff.1 h
    obtain ⟨conditions, hconditions, h⟩ := Except.bind_eq_ok_iff.1 h
    obtain rfl := Except.ok.inj h
    refine ⟨rfl, ⟨levels, ?_, rfl⟩, ?_⟩
    · exact (Except.forall₂_of_mapM hlevels).imp fun _ _ => Cube.levelRef_eq_ok_iff.1
    · exact (Except.forall₂_of_mapM hconditions).imp fun filter predicate =>
        (hcondition filter predicate).1
  · intro h
    obtain ⟨select, cube, conditions⟩ := query
    obtain ⟨rfl, ⟨levels, hlevels, rfl⟩, hconditions⟩ := h
    refine Except.bind_eq_ok_iff.2 ⟨levels, ?_, Except.bind_eq_ok_iff.2 ⟨conditions, ?_, rfl⟩⟩
    · exact Except.mapM_eq_ok_iff.2 (hlevels.imp fun _ _ => Cube.levelRef_eq_ok_iff.2)
    · exact Except.mapM_eq_ok_iff.2 (hconditions.imp fun filter predicate =>
        (hcondition filter predicate).2)

/-- A path of levels that are selected already adds none. -/
theorem pathLevels_eq_nil {selected path : List String}
    (h : ∀ text ∈ path, ∃ ref, definition.Denotes text ref ∧ ref.label ∈ selected) :
    pathLevels definition selected path = .ok [] := by
  induction path with
  | nil => rfl
  | cons text rest ih =>
      rw [List.forall_mem_cons] at h
      obtain ⟨ref, hdenotes, hselected⟩ := h.1
      refine Except.bind_eq_ok_iff.2 ⟨ref, Cube.levelRef_eq_ok_iff.2 hdenotes, ?_⟩
      rw [if_pos (by simpa using hselected)]
      exact ih h.2

/-- Drilling down along levels that a query selects already leaves it as it is. -/
theorem drilled_eq_self {path : List String}
    (h : ∀ text ∈ path, ∃ ref ∈ query.levels, definition.Denotes text ref) :
    query.drilled definition path = .ok query := by
  refine Except.bind_eq_ok_iff.2 ⟨[], pathLevels_eq_nil fun text htext => ?_, rfl⟩
  obtain ⟨ref, hmem, hdenotes⟩ := h text htext
  exact ⟨ref, hdenotes, List.mem_map_of_mem hmem⟩

end Query

end StarCube
