import StarCube.Proofs.Query.Parameters
import StarCube.Proofs.Sql.Identifier

/-!
What a statement of a query is made of. Its items and conditions are those of the query, one by one:
each has the measure or the level of the cube that it names, and every name that is written is an
identifier.
-/

namespace StarCube

/-- What a list resolves to has something for each of its elements. -/
theorem exists_of_forall₂ {α β : Type} {related : α → β → Prop} {list : List α} {values : List β}
    (h : List.Forall₂ related list values) {a : α} (ha : a ∈ list) : ∃ b ∈ values, related a b := by
  induction h with
  | nil => simp at ha
  | @cons first value list values hfirst _ ih =>
      rcases List.mem_cons.1 ha with rfl | ha
      · exact ⟨value, List.mem_cons_self, hfirst⟩
      · obtain ⟨b, hb, hrelated⟩ := ih ha
        exact ⟨b, List.mem_cons_of_mem value hb, hrelated⟩

theorem isIdentifier_of_requireIdentifier {what text checked : String}
    (h : requireIdentifier what text = .ok checked) : IsIdentifier text :=
  isIdentifier_of_checkIdentifier (Except.mapError_eq_ok_iff.1 h)

theorem isIdentifier_of_discard {what text : String} {checked : Unit}
    (h : discard (requireIdentifier what text) = .ok checked) : IsIdentifier text := by
  obtain ⟨_, hfound⟩ := Except.discard_eq_ok_iff.1 h
  exact isIdentifier_of_requireIdentifier hfound

/-- The names by which a dimension is joined are identifiers. -/
structure Dimension.Joinable (dimension : Dimension) : Prop where
  table : IsIdentifier dimension.table
  factKey : IsIdentifier dimension.factKey
  keyColumn : IsIdentifier dimension.keyColumn

/-- The level of a dimension in a named hierarchy, or in whichever has it first. -/
def Dimension.levelIn? (dimension : Dimension) (hierarchy : Option String) (level : String) :
    Option Level :=
  match hierarchy with
  | none => dimension.findLevel? level
  | some name => (dimension.hierarchy? name).bind (·.level? level)

/-- The level of a cube that a reference names, with its dimension. -/
def Cube.level? (cube : Cube) (ref : LevelRef) : Option (Dimension × Level) :=
  (cube.dimension? ref.dimension).bind fun dimension =>
    (dimension.levelIn? ref.hierarchy ref.level).map (dimension, ·)

theorem Cube.name_of_dimension? {cube : Cube} {name : String} {dimension : Dimension}
    (h : cube.dimension? name = some dimension) : dimension.name = name := by
  simpa using List.find?_some h

theorem Cube.mem_of_dimension? {cube : Cube} {name : String} {dimension : Dimension}
    (h : cube.dimension? name = some dimension) : dimension ∈ cube.dimensions :=
  List.mem_of_find?_eq_some h

theorem Cube.level?_eq_some_iff {cube : Cube} {ref : LevelRef} {dimension : Dimension}
    {level : Level} :
    cube.level? ref = some (dimension, level) ↔
      cube.dimension? ref.dimension = some dimension ∧
        dimension.levelIn? ref.hierarchy ref.level = some level := by
  simp only [level?, Option.bind_eq_some_iff, Option.map_eq_some_iff, Prod.mk.injEq]
  constructor
  · rintro ⟨found, hfound, other, hother, rfl, rfl⟩
    exact ⟨hfound, hother⟩
  · rintro ⟨hdimension, hlevel⟩
    exact ⟨dimension, hdimension, level, hlevel, rfl, rfl⟩

theorem Cube.requireDimension_eq_ok_iff {cube : Cube} {name : String} {dimension : Dimension} :
    cube.requireDimension name = .ok dimension ↔ cube.dimension? name = some dimension := by
  unfold requireDimension
  split <;> simp_all

theorem Cube.requireMeasure_eq_ok_iff {cube : Cube} {name : String} {measure : Measure} :
    cube.requireMeasure name = .ok measure ↔ cube.measure? name = some measure := by
  unfold requireMeasure
  split <;> simp_all

theorem Dimension.levelIn?_of_resolveLevel {dimension : Dimension} {name : String}
    {hierarchy : Option String} {level : Level}
    (h : dimension.resolveLevel name hierarchy = .ok level) :
    dimension.levelIn? hierarchy name = some level := by
  cases hierarchy with
  | none =>
      cases hfound : dimension.findLevel? name with
      | none => simp [resolveLevel, hfound, pure, Except.pure, bind, Except.bind] at h
      | some found =>
          simpa [resolveLevel, levelIn?, hfound, pure, Except.pure, bind, Except.bind] using h
  | some hierarchy =>
      cases hamong : dimension.hierarchy? hierarchy with
      | none => simp [resolveLevel, requireHierarchy, hamong, Except.map, bind, Except.bind] at h
      | some among =>
          simp only [resolveLevel, requireHierarchy, hamong, Except.map, bind, Except.bind] at h
          split at h
          · rename_i found hfound
            obtain rfl := Except.ok.inj h
            simpa [levelIn?, hamong] using hfound
          · simp at h

/-- What an item of a select list resolves to in a cube. -/
inductive SelectItem.Resolves (cube : Cube) : SelectItem → ResolvedItem → Prop where
  | measure {name : String} {measure : Measure} (h : cube.measure? name = some measure)
      (column : IsIdentifier measure.column) (label : IsIdentifier measure.name) :
      Resolves cube (.measure name) (.aggregated measure)
  | level {ref : LevelRef} {dimension : Dimension} {level : Level}
      (h : cube.level? ref = some (dimension, level)) (joinable : dimension.Joinable)
      (column : IsIdentifier level.column) (sortColumn : IsIdentifier level.sortColumn)
      (label : IsIdentifier ref.label) :
      Resolves cube (.level ref) (.grouped dimension level ref.label)

/-- The label of an item that resolves is an identifier. -/
theorem SelectItem.Resolves.isIdentifier_label {cube : Cube} {item : SelectItem}
    {resolved : ResolvedItem} (h : item.Resolves cube resolved) : IsIdentifier item.label := by
  cases h with
  | @measure name measure hmeasure column label =>
      have hname : measure.name = name := by simpa using List.find?_some hmeasure
      exact hname ▸ label
  | level hlevel joinable column sortColumn label => exact label

/-- What a predicate resolves to in a cube. -/
structure ResolvedCondition.Of (cube : Cube) (predicate : Predicate)
    (resolved : ResolvedCondition) : Prop where
  level : cube.level? predicate.ref = some (resolved.dimension, resolved.level)
  joinable : resolved.dimension.Joinable
  column : IsIdentifier resolved.level.column
  predicate_eq : resolved.predicate = predicate

section Resolution

variable {cube : Cube}

theorem Dimension.joinable_of_checkJoin {dimension : Dimension} {checked : Unit}
    (h : dimension.checkJoin = .ok checked) : dimension.Joinable := by
  obtain ⟨_, htable, h⟩ := Except.bind_eq_ok_iff.1 h
  obtain ⟨_, hfactKey, hkeyColumn⟩ := Except.bind_eq_ok_iff.1 h
  exact ⟨isIdentifier_of_discard htable, isIdentifier_of_discard hfactKey,
    isIdentifier_of_discard hkeyColumn⟩

theorem Cube.joinable_eq_ok {name : String} {dimension : Dimension}
    (h : cube.joinable name = .ok dimension) :
    cube.dimension? name = some dimension ∧ dimension.Joinable := by
  obtain ⟨found, hfound, h⟩ := Except.bind_eq_ok_iff.1 h
  obtain ⟨_, hjoin, h⟩ := Except.bind_eq_ok_iff.1 h
  obtain rfl : found = dimension := by simpa [pure, Except.pure] using h
  exact ⟨requireDimension_eq_ok_iff.1 (Except.mapError_eq_ok_iff.1 hfound),
    Dimension.joinable_of_checkJoin hjoin⟩

theorem Cube.resolveLevel_eq_ok {ref : LevelRef} {dimension : Dimension} {level : Level}
    (h : cube.resolveLevel ref = .ok (dimension, level)) :
    cube.level? ref = some (dimension, level) ∧ dimension.Joinable ∧ IsIdentifier level.column := by
  obtain ⟨foundDimension, hdimension, h⟩ := Except.bind_eq_ok_iff.1 h
  obtain ⟨foundLevel, hlevel, h⟩ := Except.bind_eq_ok_iff.1 h
  obtain ⟨_, hcolumn, h⟩ := Except.bind_eq_ok_iff.1 h
  obtain ⟨rfl, rfl⟩ : foundDimension = dimension ∧ foundLevel = level := by
    simpa [pure, Except.pure] using h
  obtain ⟨hfound, hjoinable⟩ := joinable_eq_ok hdimension
  have hlevel := Dimension.levelIn?_of_resolveLevel (Except.mapError_eq_ok_iff.1 hlevel)
  exact ⟨level?_eq_some_iff.2 ⟨hfound, hlevel⟩, hjoinable, isIdentifier_of_discard hcolumn⟩

theorem Cube.resolveItem_eq_ok {item : SelectItem} {resolved : ResolvedItem}
    (h : cube.resolveItem item = .ok resolved) : item.Resolves cube resolved := by
  cases item with
  | measure name =>
      obtain ⟨measure, hmeasure, h⟩ := Except.bind_eq_ok_iff.1 h
      obtain ⟨_, hcolumn, h⟩ := Except.bind_eq_ok_iff.1 h
      obtain ⟨_, hname, h⟩ := Except.bind_eq_ok_iff.1 h
      obtain rfl : ResolvedItem.aggregated measure = resolved := by
        simpa [pure, Except.pure] using h
      exact .measure (requireMeasure_eq_ok_iff.1 (Except.mapError_eq_ok_iff.1 hmeasure))
        (isIdentifier_of_discard hcolumn) (isIdentifier_of_discard hname)
  | level ref =>
      obtain ⟨⟨dimension, level⟩, hlevel, h⟩ := Except.bind_eq_ok_iff.1 h
      obtain ⟨_, hsort, h⟩ := Except.bind_eq_ok_iff.1 h
      obtain ⟨label, hlabel, h⟩ := Except.bind_eq_ok_iff.1 h
      obtain rfl : ResolvedItem.grouped dimension level label = resolved := by
        simpa [pure, Except.pure] using h
      obtain rfl : label = ref.label := checkIdentifier_eq_ok (Except.mapError_eq_ok_iff.1 hlabel)
      obtain ⟨hfound, hjoinable, hcolumn⟩ := resolveLevel_eq_ok hlevel
      exact .level hfound hjoinable hcolumn (isIdentifier_of_discard hsort)
        (isIdentifier_of_requireIdentifier hlabel)

theorem Cube.resolveItems_eq_ok {seen : List String} {items : List SelectItem}
    {resolved : List ResolvedItem} (h : cube.resolveItems seen items = .ok resolved) :
    List.Forall₂ (SelectItem.Resolves cube) items resolved := by
  induction items generalizing seen resolved with
  | nil =>
      obtain rfl : [] = resolved := by simpa [resolveItems] using h
      exact .nil
  | cons item rest ih =>
      unfold resolveItems at h
      split at h
      · simp [throw, throwThe, MonadExceptOf.throw, bind, Except.bind] at h
      · obtain ⟨first, hfirst, h⟩ := Except.bind_eq_ok_iff.1 h
        obtain ⟨others, hothers, h⟩ := Except.bind_eq_ok_iff.1 h
        obtain rfl : first :: others = resolved := by simpa [pure, Except.pure] using h
        exact .cons (resolveItem_eq_ok hfirst) (ih hothers)

theorem Cube.resolveConditions_eq_ok {predicates : List Predicate}
    {resolved : List ResolvedCondition} (h : predicates.mapM cube.resolveCondition = .ok resolved) :
    List.Forall₂ (ResolvedCondition.Of cube) predicates resolved := by
  refine (Except.forall₂_of_mapM h).imp fun predicate condition hcondition => ?_
  obtain ⟨dimension, level, hlevel, rfl⟩ := resolveCondition_eq_ok hcondition
  obtain ⟨hfound, hjoinable, hcolumn⟩ := resolveLevel_eq_ok hlevel
  exact ⟨hfound, hjoinable, hcolumn, rfl⟩

end Resolution

/-- Resolved items and conditions are those of a query over a cube. -/
structure Query.Resolves (query : Query) (cube : Cube) (items : List ResolvedItem)
    (conditions : List ResolvedCondition) : Prop where
  items : List.Forall₂ (SelectItem.Resolves cube) query.select items
  conditions : List.Forall₂ (ResolvedCondition.Of cube) query.conditions conditions
  factTable : IsIdentifier cube.factTable

/-- A statement is put together from what the query resolves to. -/
theorem Query.resolves_of_statement {query : Query} {cube : Cube} {statement : Statement}
    (h : query.statement cube = .ok statement) :
    ∃ items conditions, query.Resolves cube items conditions ∧
      statement = .ofResolved items conditions cube.factTable := by
  obtain ⟨items, hitems, h⟩ := Except.bind_eq_ok_iff.1 h
  obtain ⟨conditions, hconditions, h⟩ := Except.bind_eq_ok_iff.1 h
  obtain ⟨factTable, htable, h⟩ := Except.bind_eq_ok_iff.1 h
  obtain rfl : factTable = cube.factTable :=
    checkIdentifier_eq_ok (Except.mapError_eq_ok_iff.1 htable)
  have hresolves : query.Resolves cube items conditions :=
    ⟨Cube.resolveItems_eq_ok hitems, Cube.resolveConditions_eq_ok hconditions,
      isIdentifier_of_requireIdentifier htable⟩
  exact ⟨items, conditions, hresolves, by simpa [pure, Except.pure, eq_comm] using h⟩

end StarCube
