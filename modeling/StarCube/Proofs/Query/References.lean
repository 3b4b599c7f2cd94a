import StarCube.Engine.Exploration
import StarCube.Engine.Members
import StarCube.Proofs.Query.Naming

/-!
Queries that are put together from references, and the statement for the members of a hierarchy.
Where each reference can be read as one, putting them together over a consistent cube fails for
reasons of the engine's own only.
-/

namespace StarCube

/-- A text that refers to a dimension or to a level. -/
def Refers (text : String) : Prop :=
  ∃ reference, MemberReference.parse text = .ok reference

variable {cube : Cube}

namespace Dimension.Consistent

variable {dimension : Dimension}

theorem firstHierarchy_eq_ok (h : dimension.Consistent) :
    ∃ hierarchy ∈ dimension.hierarchies, dimension.firstHierarchy = .ok hierarchy := by
  cases hhierarchies : dimension.hierarchies with
  | nil => exact absurd hhierarchies h.hierarchies_ne_nil
  | cons first rest => exact ⟨first, List.mem_cons_self, by simp [firstHierarchy, hhierarchies]⟩

theorem finestLevel_eq_ok (h : dimension.Consistent) :
    ∃ level, dimension.finestLevel = .ok level := by
  obtain ⟨hierarchy, hmem, hfirst⟩ := h.firstHierarchy_eq_ok
  have hlevels := (h.hierarchies hierarchy hmem).levels_ne_nil
  refine ⟨hierarchy.levels.getLast hlevels, ?_⟩
  simp [finestLevel, hfirst, List.getLast?_eq_some_getLast hlevels, bind, Except.bind, pure,
    Except.pure]

end Dimension.Consistent

/-- The hierarchy whose members are asked for is looked up in the dimension that is found. -/
theorem Cube.memberHierarchy_eq {name dimension : String} {hierarchy : Option String}
    {found : Dimension} (hfound : cube.dimension? dimension = some found) :
    cube.memberHierarchy name dimension hierarchy =
      ((match hierarchy with
        | some hierarchy => (found.requireHierarchy hierarchy).mapError Failure.reference
        | none => found.firstHierarchy) >>= fun chosen => .ok (found, chosen)) := by
  unfold memberHierarchy
  rw [hfound]
  cases hierarchy <;> rfl

theorem Cube.memberHierarchy_of_none {name dimension : String} {hierarchy : Option String}
    (hnone : cube.dimension? dimension = none) :
    cube.memberHierarchy name dimension hierarchy =
      .error (.reference (.unknownDimension dimension (some name))) := by
  unfold memberHierarchy
  rw [hnone]
  rfl

theorem Cube.mem_of_memberHierarchy {name dimension : String} {hierarchy : Option String}
    {found : Dimension} {chosen : Hierarchy}
    (h : cube.memberHierarchy name dimension hierarchy = .ok (found, chosen)) :
    found ∈ cube.dimensions ∧ chosen ∈ found.hierarchies := by
  cases hdimension : cube.dimension? dimension with
  | none =>
      rw [memberHierarchy_of_none hdimension] at h
      cases h
  | some other =>
      rw [memberHierarchy_eq hdimension] at h
      obtain ⟨among, hchosen, h⟩ := Except.bind_eq_ok_iff.1 h
      obtain ⟨rfl, rfl⟩ := Prod.mk.inj (Except.ok.inj h)
      refine ⟨mem_of_dimension? hdimension, ?_⟩
      cases hierarchy with
      | some name =>
          have hfound := Except.mapError_eq_ok_iff.1 hchosen
          unfold Dimension.requireHierarchy at hfound
          split at hfound
          · rename_i chosen hother
            obtain rfl := Except.ok.inj hfound
            exact List.mem_of_find?_eq_some hother
          · cases hfound
      | none =>
          change other.firstHierarchy = _ at hchosen
          unfold Dimension.firstHierarchy at hchosen
          split at hchosen
          · rename_i chosen hother
            obtain rfl := Except.ok.inj hchosen
            exact List.mem_of_head? hother
          · cases hchosen

theorem Hierarchy.checkColumns_eq_ok_iff {hierarchy : Hierarchy} :
    hierarchy.checkColumns = .ok () ↔
      ∀ level ∈ hierarchy.levels, Acceptable level.column ∧ Acceptable level.sortColumn := by
  simp only [checkColumns, Except.forM_eq_ok_iff, Except.seq_eq_ok_iff,
    discard_requireIdentifier_eq_ok_iff]

/-- The statement for members is over names that have been checked. -/
theorem memberStatement_eq_ok_iff {dimension : Dimension} {hierarchy : Hierarchy}
    {flagColumn : String} {statement : MemberStatement} :
    memberStatement dimension hierarchy flagColumn = .ok statement ↔
      (∀ level ∈ hierarchy.levels, Acceptable level.column ∧ Acceptable level.sortColumn) ∧
        Acceptable dimension.table ∧
          ⟨hierarchy.columns, dimension.table, flagColumn, hierarchy.sortColumns⟩ = statement := by
  rw [memberStatement, Except.seq_eq_ok_iff, Hierarchy.checkColumns_eq_ok_iff]
  refine and_congr_right fun _ => Except.bind_eq_ok_iff.trans ?_
  simp [requireIdentifier_eq_ok_iff, pure, Except.pure]

namespace Cube.Consistent

theorem not_foreign_levelRef (h : cube.Consistent) {text : String} (htext : Refers text) :
    ¬ Foreign (cube.levelRef text) := by
  obtain ⟨reference, hreference⟩ := htext
  rw [levelRef, hreference]
  apply not_foreign_bind (not_foreign_ok _)
  intro _ _
  split
  · exact not_foreign_ok _
  · apply not_foreign_bind not_foreign_reference
    intro dimension hdimension
    have hfound := requireDimension_eq_ok_iff.1 (Except.mapError_eq_ok_iff.1 hdimension)
    obtain ⟨level, hlevel⟩ := (h.dimensions dimension (mem_of_dimension? hfound)).finestLevel_eq_ok
    rw [hlevel]
    exact not_foreign_ok _

theorem not_foreign_ofSlice (h : cube.Consistent) {name : String}
    {dimensions measures : List String} {filters : Keyed Value}
    (hdimensions : ∀ text ∈ dimensions, Refers text)
    (hfilters : ∀ filter ∈ filters, Refers filter.1) :
    ¬ Foreign (Query.ofSlice cube name dimensions measures filters) := by
  apply not_foreign_bind
  · exact not_foreign_mapM fun text htext => h.not_foreign_levelRef (hdimensions text htext)
  · intro levels _
    refine not_foreign_bind (not_foreign_mapM fun filter hfilter => ?_) fun _ _ => not_foreign_ok _
    exact not_foreign_bind (h.not_foreign_levelRef (hfilters filter hfilter))
      fun _ _ => not_foreign_ok _

theorem not_foreign_pathLevels (h : cube.Consistent) {path : List String}
    (hpath : ∀ text ∈ path, Refers text) (selected : List String) :
    ¬ Foreign (Query.pathLevels cube selected path) := by
  induction path generalizing selected with
  | nil => exact not_foreign_ok _
  | cons text rest ih =>
      rw [List.forall_mem_cons] at hpath
      apply not_foreign_bind (h.not_foreign_levelRef hpath.1)
      intro level _
      split
      · exact ih hpath.2 selected
      · exact not_foreign_bind (ih hpath.2 _) fun _ _ => not_foreign_ok _

theorem not_foreign_drilled (h : cube.Consistent) {query : Query} {path : List String}
    (hpath : ∀ text ∈ path, Refers text) : ¬ Foreign (query.drilled cube path) :=
  not_foreign_bind (h.not_foreign_pathLevels hpath _) fun _ _ => not_foreign_ok _

theorem not_foreign_ofSeries (h : cube.Consistent) {name dimension measure : String}
    (hdimension : Refers dimension) : ¬ Foreign (Query.ofSeries cube name dimension measure) :=
  not_foreign_bind (h.not_foreign_levelRef hdimension) fun _ _ => not_foreign_ok _

theorem not_foreign_memberHierarchy (h : cube.Consistent) {name dimension : String}
    {hierarchy : Option String} : ¬ Foreign (cube.memberHierarchy name dimension hierarchy) := by
  cases hfound : cube.dimension? dimension with
  | none =>
      rw [memberHierarchy_of_none hfound]
      simp [Failure.isEngine]
  | some found =>
      rw [memberHierarchy_eq hfound]
      refine not_foreign_bind ?_ fun _ _ => not_foreign_ok _
      cases hierarchy with
      | some name => exact not_foreign_reference
      | none =>
          obtain ⟨first, -, hfirst⟩ :=
            (h.dimensions _ (mem_of_dimension? hfound)).firstHierarchy_eq_ok
          show ¬ Foreign found.firstHierarchy
          rw [hfirst]
          exact not_foreign_ok _

/-- The members of every hierarchy can be asked for. -/
theorem memberStatement_eq_ok (h : cube.Consistent) {found : Dimension} {chosen : Hierarchy}
    (hfound : found ∈ cube.dimensions) (hchosen : chosen ∈ found.hierarchies)
    (flagColumn : String) :
    memberStatement found chosen flagColumn =
      .ok ⟨chosen.columns, found.table, flagColumn, chosen.sortColumns⟩ := by
  have hnames := h.dimensions found hfound
  refine memberStatement_eq_ok_iff.2 ⟨fun level hlevel => ?_, hnames.table, rfl⟩
  have hlevels := (hnames.hierarchies chosen hchosen).levels level hlevel
  exact ⟨hlevels.column, hlevels.sortColumn⟩

end Cube.Consistent

end StarCube
