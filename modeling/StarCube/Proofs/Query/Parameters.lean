import StarCube.Proofs.Outcome
import StarCube.Proofs.Sql.Statement
import StarCube.Query.Statement

/-!
The statement of a query: its names have been checked, so they are plain, and the values of the
predicates become its parameters in order. Queries that differ in these values only have the same
text.
-/

namespace StarCube

theorem plain_of_requireIdentifier {what text checked : String}
    (h : requireIdentifier what text = .ok checked) : Plain text :=
  plain_of_checkIdentifier (Except.mapError_eq_ok_iff.1 h)

/-- The names of a dimension that are written are plain. -/
structure Dimension.Named (dimension : Dimension) : Prop where
  table : Plain dimension.table
  tableAlias : Plain dimension.tableAlias
  factKey : Plain dimension.factKey
  keyColumn : Plain dimension.keyColumn

/-- The names that an item writes are plain. -/
def ResolvedItem.Named : ResolvedItem → Prop
  | .aggregated measure => Plain measure.column ∧ Plain measure.name
  | .grouped dimension level label =>
      dimension.Named ∧ Plain level.column ∧ Plain level.sortColumn ∧ Plain label

/-- The names that a condition writes are plain. -/
def ResolvedCondition.Named (resolved : ResolvedCondition) : Prop :=
  resolved.dimension.Named ∧ Plain resolved.level.column

section Resolution

variable {cube : Cube}

theorem Dimension.named_of_checkJoin {dimension : Dimension} {checked : Unit}
    (h : dimension.checkJoin = .ok checked) : dimension.Named := by
  obtain ⟨_, htable, h⟩ := Except.bind_eq_ok_iff.1 h
  obtain ⟨_, hfactKey, hkeyColumn⟩ := Except.bind_eq_ok_iff.1 h
  obtain ⟨_, htable⟩ := Except.discard_eq_ok_iff.1 htable
  obtain ⟨_, hfactKey⟩ := Except.discard_eq_ok_iff.1 hfactKey
  obtain ⟨_, hkeyColumn⟩ := Except.discard_eq_ok_iff.1 hkeyColumn
  have hfactKey := plain_of_requireIdentifier hfactKey
  -- The alias is not checked by itself: it is made of the same name as the key, which is.
  have halias : Plain dimension.tableAlias :=
    plain_append_iff.2 ⟨by decide, (plain_append_iff.1 hfactKey).1⟩
  exact ⟨plain_of_requireIdentifier htable, halias, hfactKey, plain_of_requireIdentifier hkeyColumn⟩

theorem Cube.named_of_joinable {name : String} {dimension : Dimension}
    (h : cube.joinable name = .ok dimension) : dimension.Named := by
  obtain ⟨found, -, h⟩ := Except.bind_eq_ok_iff.1 h
  obtain ⟨_, hjoin, h⟩ := Except.bind_eq_ok_iff.1 h
  obtain rfl : found = dimension := by simpa [pure, Except.pure] using h
  exact Dimension.named_of_checkJoin hjoin

theorem Cube.named_of_resolveLevel {ref : LevelRef} {dimension : Dimension} {level : Level}
    (h : cube.resolveLevel ref = .ok (dimension, level)) :
    dimension.Named ∧ Plain level.column := by
  obtain ⟨foundDimension, hdimension, h⟩ := Except.bind_eq_ok_iff.1 h
  obtain ⟨foundLevel, -, h⟩ := Except.bind_eq_ok_iff.1 h
  obtain ⟨_, hcolumn, h⟩ := Except.bind_eq_ok_iff.1 h
  obtain ⟨_, hcolumn⟩ := Except.discard_eq_ok_iff.1 hcolumn
  obtain ⟨rfl, rfl⟩ : foundDimension = dimension ∧ foundLevel = level := by
    simpa [pure, Except.pure] using h
  exact ⟨Cube.named_of_joinable hdimension, plain_of_requireIdentifier hcolumn⟩

theorem Cube.named_of_resolveMeasure {name : String} {item : ResolvedItem}
    (h : cube.resolveMeasure name = .ok item) : item.Named := by
  obtain ⟨measure, -, h⟩ := Except.bind_eq_ok_iff.1 h
  obtain ⟨_, hcolumn, h⟩ := Except.bind_eq_ok_iff.1 h
  obtain ⟨_, hname, h⟩ := Except.bind_eq_ok_iff.1 h
  obtain ⟨_, hcolumn⟩ := Except.discard_eq_ok_iff.1 hcolumn
  obtain ⟨_, hname⟩ := Except.discard_eq_ok_iff.1 hname
  obtain rfl : ResolvedItem.aggregated measure = item := by simpa [pure, Except.pure] using h
  exact ⟨plain_of_requireIdentifier hcolumn, plain_of_requireIdentifier hname⟩

theorem Cube.named_of_resolveItem {item : SelectItem} {resolved : ResolvedItem}
    (h : cube.resolveItem item = .ok resolved) : resolved.Named := by
  cases item with
  | measure name => exact named_of_resolveMeasure h
  | level ref =>
      obtain ⟨⟨dimension, level⟩, hlevel, h⟩ := Except.bind_eq_ok_iff.1 h
      obtain ⟨_, hsort, h⟩ := Except.bind_eq_ok_iff.1 h
      obtain ⟨label, hlabel, h⟩ := Except.bind_eq_ok_iff.1 h
      obtain ⟨_, hsort⟩ := Except.discard_eq_ok_iff.1 hsort
      obtain rfl : ResolvedItem.grouped dimension level label = resolved := by
        simpa [pure, Except.pure] using h
      have hchecked : label = ref.label :=
        checkIdentifier_eq_ok (Except.mapError_eq_ok_iff.1 hlabel)
      obtain ⟨hdimension, hcolumn⟩ := named_of_resolveLevel hlevel
      refine ⟨hdimension, hcolumn, plain_of_requireIdentifier hsort, ?_⟩
      rw [hchecked]
      exact plain_of_requireIdentifier hlabel

theorem Cube.named_of_resolveItems {seen : List String} {items : List SelectItem}
    {resolved : List ResolvedItem} (h : cube.resolveItems seen items = .ok resolved) :
    ∀ item ∈ resolved, item.Named := by
  induction items generalizing seen resolved with
  | nil =>
      obtain rfl : [] = resolved := by simpa [resolveItems] using h
      simp
  | cons item rest ih =>
      unfold resolveItems at h
      split at h
      · simp [throw, throwThe, MonadExceptOf.throw, bind, Except.bind] at h
      · obtain ⟨first, hfirst, h⟩ := Except.bind_eq_ok_iff.1 h
        obtain ⟨others, hothers, h⟩ := Except.bind_eq_ok_iff.1 h
        obtain rfl : first :: others = resolved := by simpa [pure, Except.pure] using h
        rw [List.forall_mem_cons]
        exact ⟨named_of_resolveItem hfirst, ih hothers⟩

/-- A condition is that of the level that its predicate refers to. -/
theorem Cube.resolveCondition_eq_ok {predicate : Predicate} {resolved : ResolvedCondition}
    (h : cube.resolveCondition predicate = .ok resolved) :
    ∃ dimension level, cube.resolveLevel predicate.ref = .ok (dimension, level) ∧
      resolved = ⟨dimension, level, predicate⟩ := by
  obtain ⟨⟨dimension, level⟩, hlevel, h⟩ := Except.bind_eq_ok_iff.1 h
  refine ⟨dimension, level, hlevel, ?_⟩
  simpa [pure, Except.pure, eq_comm] using h

end Resolution

section Names

theorem ColumnRef.plain_text {ref : ColumnRef} (halias : Plain ref.tableAlias)
    (hcolumn : Plain ref.column) : Plain ref.text :=
  (halias.append (by decide)).append hcolumn

theorem Aggregation.plain_applied (aggregation : Aggregation) {column : String}
    (h : Plain column) : Plain (aggregation.applied column) := by
  cases aggregation <;> exact Plain.append (Plain.append (by decide) h) (by decide)

theorem plain_factAlias : Plain Statement.factAlias := by
  decide

theorem Dimension.Named.plain_ref {dimension : Dimension} (h : dimension.Named) {column : String}
    (hcolumn : Plain column) : Plain (dimension.ref column).text :=
  ColumnRef.plain_text h.tableAlias hcolumn

theorem Dimension.Named.plain_join {dimension : Dimension} (h : dimension.Named) :
    Plain dimension.join.text := by
  have hfact : Plain dimension.join.factKey.text := ColumnRef.plain_text plain_factAlias h.factKey
  have hkey : Plain dimension.join.keyColumn.text := h.plain_ref h.keyColumn
  have htable : Plain ("LEFT JOIN " ++ dimension.table ++ " " ++ dimension.tableAlias) :=
    Plain.append (Plain.append (Plain.append (by decide) h.table) (by decide)) h.tableAlias
  exact (((htable.append (by decide)).append hfact).append (by decide)).append hkey

theorem ResolvedItem.Named.plain_column {item : ResolvedItem} (h : item.Named) :
    Plain item.column.text := by
  cases item with
  | aggregated measure =>
      have href : Plain (ColumnRef.text ⟨Statement.factAlias, measure.column⟩) :=
        ColumnRef.plain_text plain_factAlias h.1
      exact ((measure.aggregation.plain_applied href).append (by decide)).append h.2
  | grouped dimension level label =>
      obtain ⟨hdimension, hcolumn, -, hlabel⟩ := h
      exact ((hdimension.plain_ref hcolumn).append (by decide)).append hlabel

theorem ResolvedItem.Named.plain_groups {item : ResolvedItem} (h : item.Named) :
    ∀ ref ∈ item.groups, Plain ref.text := by
  intro ref href
  cases item with
  | aggregated measure => simp [groups] at href
  | grouped dimension level label =>
      obtain ⟨hdimension, hcolumn, hsort, -⟩ := h
      rcases List.mem_pair.1 href with rfl | rfl
      · exact hdimension.plain_ref hcolumn
      · exact hdimension.plain_ref hsort

theorem ResolvedItem.Named.plain_order {item : ResolvedItem} (h : item.Named) {ref : ColumnRef}
    (href : item.order? = some ref) : Plain ref.text := by
  cases item with
  | aggregated measure => simp [order?] at href
  | grouped dimension level label =>
      obtain rfl : dimension.ref level.sortColumn = ref := by simpa [order?] using href
      exact h.1.plain_ref h.2.2.1

theorem ResolvedItem.Named.dimension {item : ResolvedItem} (h : item.Named) {dimension : Dimension}
    (hdimension : item.dimension? = some dimension) : dimension.Named := by
  cases item with
  | aggregated measure => simp [dimension?] at hdimension
  | grouped found level label =>
      obtain rfl : found = dimension := by simpa [dimension?] using hdimension
      exact h.1

theorem ResolvedCondition.Named.plain_ref {resolved : ResolvedCondition} (h : resolved.Named) :
    Plain resolved.condition.ref.text := by
  obtain ⟨dimension, level, predicate⟩ := resolved
  cases predicate <;> exact h.1.plain_ref h.2

theorem Statement.mem_of_mem_foldl_addColumn {refs seen : List ColumnRef} {ref : ColumnRef}
    (h : ref ∈ refs.foldl addColumn seen) : ref ∈ seen ∨ ref ∈ refs := by
  induction refs generalizing seen with
  | nil => exact .inl h
  | cons first rest ih =>
      rcases ih h with hseen | hrest
      · unfold addColumn at hseen
        split at hseen
        · exact .inl hseen
        · rcases List.mem_append.1 hseen with hseen | hfirst
          · exact .inl hseen
          · exact .inr (List.mem_cons.2 (.inl (List.mem_singleton.1 hfirst)))
      · exact .inr (List.mem_cons_of_mem _ hrest)

theorem Statement.mem_of_mem_distinctColumns {refs : List ColumnRef} {ref : ColumnRef}
    (h : ref ∈ distinctColumns refs) : ref ∈ refs := by
  simpa using mem_of_mem_foldl_addColumn h

theorem Statement.named_ofResolved {items : List ResolvedItem}
    {conditions : List ResolvedCondition} {factTable : String}
    (hitems : ∀ item ∈ items, item.Named) (hconditions : ∀ resolved ∈ conditions, resolved.Named)
    (htable : Plain factTable) : (Statement.ofResolved items conditions factTable).Named where
  columns := by
    intro column hcolumn
    obtain ⟨item, hitem, rfl⟩ := List.mem_map.1 hcolumn
    exact (hitems item hitem).plain_column
  factTable := htable
  joins := by
    intro join hjoin
    obtain ⟨dimension, hdimension, rfl⟩ := List.mem_map.1 hjoin
    rw [mentioned, List.mem_eraseDups] at hdimension
    rcases List.mem_append.1 hdimension with hitem | hcondition
    · obtain ⟨item, hitem, hdimension⟩ := List.mem_filterMap.1 hitem
      exact ((hitems item hitem).dimension hdimension).plain_join
    · obtain ⟨resolved, hresolved, rfl⟩ := List.mem_map.1 hcondition
      exact (hconditions resolved hresolved).1.plain_join
  conditions := by
    intro condition hcondition
    obtain ⟨resolved, hresolved, rfl⟩ := List.mem_map.1 hcondition
    exact (hconditions resolved hresolved).plain_ref
  groups := by
    intro ref href
    obtain ⟨item, hitem, href⟩ := List.mem_flatMap.1 (mem_of_mem_distinctColumns href)
    exact (hitems item hitem).plain_groups ref href
  orders := by
    intro ref href
    obtain ⟨item, hitem, href⟩ := List.mem_filterMap.1 (mem_of_mem_distinctColumns href)
    exact (hitems item hitem).plain_order href

end Names

namespace Query

variable {query : Query} {cube : Cube} {statement : Statement}

/-- What a statement of a query is put together from. -/
theorem statement_eq_ok (h : query.statement cube = .ok statement) :
    ∃ items conditions, cube.resolveItems [] query.select = .ok items ∧
      query.conditions.mapM cube.resolveCondition = .ok conditions ∧
      Plain cube.factTable ∧ statement = .ofResolved items conditions cube.factTable := by
  obtain ⟨items, hitems, h⟩ := Except.bind_eq_ok_iff.1 h
  obtain ⟨conditions, hconditions, h⟩ := Except.bind_eq_ok_iff.1 h
  obtain ⟨factTable, htable, h⟩ := Except.bind_eq_ok_iff.1 h
  have hchecked : factTable = cube.factTable :=
    checkIdentifier_eq_ok (Except.mapError_eq_ok_iff.1 htable)
  refine ⟨items, conditions, hitems, hconditions, plain_of_requireIdentifier htable, ?_⟩
  simpa [pure, Except.pure, hchecked, eq_comm] using h

theorem named_statement (h : query.statement cube = .ok statement) : statement.Named := by
  obtain ⟨items, conditions, hitems, hconditions, htable, rfl⟩ := statement_eq_ok h
  have hnamed : ∀ resolved ∈ conditions, resolved.Named := by
    refine Except.forall_mem_of_mapM hconditions fun predicate resolved hpredicate => ?_
    obtain ⟨dimension, level, hlevel, rfl⟩ := Cube.resolveCondition_eq_ok hpredicate
    exact Cube.named_of_resolveLevel hlevel
  exact Statement.named_ofResolved (Cube.named_of_resolveItems hitems) hnamed htable

end Query

/-- A condition is that of the level which a predicate refers to, with its values. -/
def Predicate.Resolves (predicate : Predicate) (cube : Cube) (condition : Condition) : Prop :=
  ∃ dimension level, cube.resolveLevel predicate.ref = .ok (dimension, level) ∧
    condition = ResolvedCondition.condition ⟨dimension, level, predicate⟩

theorem Predicate.Resolves.values_eq {predicate : Predicate} {cube : Cube} {condition : Condition}
    (h : predicate.Resolves cube condition) : condition.values = predicate.values := by
  obtain ⟨dimension, level, -, rfl⟩ := h
  cases predicate <;> rfl

theorem Predicate.Resolves.flatMap_values_eq {cube : Cube} {predicates : List Predicate}
    {conditions : List Condition}
    (h : List.Forall₂ (fun predicate condition => predicate.Resolves cube condition)
      predicates conditions) :
    conditions.flatMap Condition.values = predicates.flatMap Predicate.values := by
  induction h with
  | nil => rfl
  | cons hfirst _ ih => rw [List.flatMap_cons, List.flatMap_cons, ih, hfirst.values_eq]

/-- Where a statement has the values of a predicate that stands between others: the condition of the
predicate has a place for each of its values, behind as many places as the predicates before it have
values. -/
def Statement.Owns (statement : Statement) (cube : Cube) (front : List Predicate)
    (predicate : Predicate) (rest : List Predicate) : Prop :=
  ∃ condition before after, predicate.Resolves cube condition ∧
    statement.text = before ++ condition.text ++ after ∧
    places before = (front.flatMap Predicate.values).length ∧
    places condition.text = predicate.values.length ∧
    places after = (rest.flatMap Predicate.values).length

namespace Query

variable {query : Query} {cube : Cube} {statement : Statement}

/-- The conditions of a statement are those of the predicates, in order. -/
theorem conditions_statement (h : query.statement cube = .ok statement) :
    List.Forall₂ (fun predicate condition => predicate.Resolves cube condition)
      query.conditions statement.conditions := by
  obtain ⟨items, conditions, -, hconditions, -, rfl⟩ := statement_eq_ok h
  show List.Forall₂ _ _ (conditions.map ResolvedCondition.condition)
  rw [List.forall₂_map_right_iff]
  refine (Except.forall₂_of_mapM hconditions).imp fun predicate resolved hresolved => ?_
  obtain ⟨dimension, level, hlevel, rfl⟩ := Cube.resolveCondition_eq_ok hresolved
  exact ⟨dimension, level, hlevel, rfl⟩

/-- The parameters of a statement are the values of the predicates. -/
theorem params_statement (h : query.statement cube = .ok statement) :
    statement.params = query.conditions.flatMap Predicate.values :=
  Predicate.Resolves.flatMap_values_eq (conditions_statement h)

/-- Each predicate of a query owns the places of its values. -/
theorem owns_statement (h : query.statement cube = .ok statement) {front rest : List Predicate}
    {predicate : Predicate} (hpredicate : query.conditions = front ++ predicate :: rest) :
    statement.Owns cube front predicate rest := by
  have hall := conditions_statement h
  have hnamed := named_statement h
  rw [hpredicate] at hall
  have hfront := List.forall₂_take front.length hall
  have hdrop := List.forall₂_drop front.length hall
  rw [List.take_left] at hfront
  rw [List.drop_left] at hdrop
  obtain ⟨condition, others, hcondition, hrest, hothers⟩ := List.forall₂_cons_left_iff.1 hdrop
  have hconditions : statement.conditions =
      statement.conditions.take front.length ++ condition :: others := by
    rw [← hothers, List.take_append_drop]
  obtain ⟨before, after, htext, hbefore, hafter⟩ := hnamed.text_around hconditions
  refine ⟨condition, before, after, hcondition, htext, ?_, ?_, ?_⟩
  · rw [hbefore, Predicate.Resolves.flatMap_values_eq hfront]
  · have hplain := hnamed.conditions condition (by rw [hconditions]; simp)
    rw [Condition.places_text hplain, hcondition.values_eq]
  · rw [hafter, Predicate.Resolves.flatMap_values_eq hrest]

end Query

namespace Predicate

/-- Predicates that differ at most in their values. -/
inductive SameShape : Predicate → Predicate → Prop
  | equals (ref : LevelRef) (value other : Value) :
      SameShape (.equals ref value) (.equals ref other)
  | among (ref : LevelRef) {values others : List Value}
      (length_eq : values.length = others.length) :
      SameShape (.among ref values) (.among ref others)

theorem SameShape.ref_eq {predicate other : Predicate} (h : predicate.SameShape other) :
    predicate.ref = other.ref := by
  cases h <;> rfl

end Predicate

/-- Queries that differ at most in the values of their predicates. -/
structure Query.SameShape (query other : Query) : Prop where
  select : query.select = other.select
  cube : query.cube = other.cube
  conditions : List.Forall₂ Predicate.SameShape query.conditions other.conditions

/-- Conditions of the same level that differ at most in the values of their predicates. -/
structure ResolvedCondition.SameShape (resolved other : ResolvedCondition) : Prop where
  dimension : resolved.dimension = other.dimension
  level : resolved.level = other.level
  predicate : resolved.predicate.SameShape other.predicate

theorem ResolvedCondition.SameShape.condition {resolved other : ResolvedCondition}
    (h : resolved.SameShape other) : resolved.condition.SameShape other.condition := by
  obtain ⟨dimension, level, predicate⟩ := resolved
  obtain ⟨otherDimension, otherLevel, otherPredicate⟩ := other
  obtain ⟨rfl, rfl, hpredicate⟩ := h
  cases hpredicate with
  | equals => exact .equals _ _ _
  | among ref hlength => exact .among _ hlength

theorem ResolvedCondition.SameShape.map_dimension_eq {conditions others : List ResolvedCondition}
    (h : List.Forall₂ SameShape conditions others) :
    conditions.map ResolvedCondition.dimension = others.map ResolvedCondition.dimension := by
  induction h with
  | nil => rfl
  | cons hfirst _ ih => rw [List.map_cons, List.map_cons, hfirst.dimension, ih]

theorem Statement.sameShape_ofResolved {items : List ResolvedItem}
    {conditions others : List ResolvedCondition} {factTable : String}
    (h : List.Forall₂ ResolvedCondition.SameShape conditions others) :
    (Statement.ofResolved items conditions factTable).SameShape
      (Statement.ofResolved items others factTable) := by
  constructor
  · show List.Forall₂ _ (conditions.map ResolvedCondition.condition)
      (others.map ResolvedCondition.condition)
    rw [List.forall₂_map_left_iff, List.forall₂_map_right_iff]
    exact h.imp fun _ _ hcondition => hcondition.condition
  · simp only [ofResolved, mentioned, ResolvedCondition.SameShape.map_dimension_eq h]

theorem Cube.sameShape_resolveCondition (cube : Cube) {predicate other : Predicate}
    (h : predicate.SameShape other) :
    Except.Alike ResolvedCondition.SameShape (cube.resolveCondition predicate)
      (cube.resolveCondition other) := by
  unfold resolveCondition
  rw [h.ref_eq]
  refine (Except.Alike.refl _).bind ?_
  rintro ⟨dimension, level⟩ _ rfl
  exact .ok ⟨rfl, rfl, h⟩

/-- Queries of the same shape have statements of the same shape, or fail alike. -/
theorem Query.SameShape.statement {query other : Query} (h : query.SameShape other) (cube : Cube) :
    Except.Alike Statement.SameShape (query.statement cube) (other.statement cube) := by
  unfold Query.statement
  rw [h.select]
  refine (Except.Alike.refl _).bind ?_
  rintro items _ rfl
  refine (Except.Alike.mapM h.conditions fun _ _ => cube.sameShape_resolveCondition).bind ?_
  intro conditions others hconditions
  refine (Except.Alike.refl _).bind ?_
  rintro factTable _ rfl
  exact .ok (Statement.sameShape_ofResolved hconditions)

end StarCube
