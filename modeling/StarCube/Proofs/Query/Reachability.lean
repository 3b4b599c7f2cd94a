import StarCube.Proofs.Cube.Consistent
import StarCube.Proofs.Query.Sentences

/-!
Which levels of a consistent cube can be queried. A level is written by names that no check has
seen: the key of its dimension and its label are put together from names that are identifiers, and
need not be identifiers for that. And a hierarchy is found by its name, which another one may have
before it.
-/

namespace StarCube

/-- An identifier goes on after another just where that one has no line end. -/
theorem identifier_append_iff {c : Char} (hc : isIdentifierRest c = true) (front rest : List Char) :
    (identifierPart front = true → (identifierPart (front ++ c :: rest) = true ↔
      '\n' ∉ front ∧ identifierPart rest = true)) ∧
    (identifierStart front = true → (identifierStart (front ++ c :: rest) = true ↔
      '\n' ∉ front ∧ identifierPart rest = true)) := by
  have hline : isIdentifierRest '\n' = false := by decide
  have hpoint : isIdentifierRest '.' = false := by decide
  have hne (other : Char) (hother : isIdentifierRest other = true) :
      '\n' ≠ other ∧ '.' ≠ other := by
    constructor <;> rintro rfl <;> simp_all
  induction front with
  | nil =>
      constructor
      · intro _
        rw [List.nil_append, identifierPart_cons_iff]
        simp [hc, (hne c hc).1.symm, (hne c hc).2.symm]
      · intro h
        simp [identifierStart] at h
  | cons first front ih =>
      constructor
      · intro h
        rw [List.cons_append, identifierPart_cons_iff]
        rcases identifierPart_cons_iff.1 h with ⟨rfl, rfl⟩ | ⟨hfirst, hfront⟩ | ⟨rfl, hfront⟩
        · simp [hline]
        · simp [hfirst, (hne first hfirst).1, (hne first hfirst).2.symm, ih.1 hfront]
        · simp [hpoint, ih.2 hfront]
      · intro h
        obtain ⟨hfirst, hfront⟩ := identifierStart_cons_iff.1 h
        have hother := hne first (Lexeme.isIdentifierRest_of_start hfirst)
        rw [List.cons_append, identifierStart_cons_iff]
        simp [hfirst, hother.1, ih.1 hfront]

theorem toLower_eq_lineEnd_iff {c : Char} (h : c.toNat < 128) : c.toLower = '\n' ↔ c = '\n' := by
  have hall : ∀ n < 128, (Char.ofNat n).toLower = '\n' ↔ Char.ofNat n = '\n' := by decide +kernel
  have hc := hall c.toNat h
  rwa [Char.ofNat_toNat] at hc

namespace Acceptable

variable {text : String}

theorem length_lowerCase (h : Acceptable text) :
    (Text.lowerCase text).length = text.length := by
  rw [← String.length_toList, h.identifier.toList_lowerCase, List.length_map, String.length_toList]

theorem lineEnd_lowerCase_iff (h : Acceptable text) :
    '\n' ∈ (Text.lowerCase text).toList ↔ '\n' ∈ text.toList := by
  rw [h.identifier.toList_lowerCase, List.mem_map]
  constructor
  · rintro ⟨c, hc, hlower⟩
    rwa [(toLower_eq_lineEnd_iff (h.identifier.ascii c hc)).1 hlower] at hc
  · exact fun h => ⟨'\n', h, by decide⟩

/-- A name with a low line and more after it. -/
theorem append_iff {rest : String} (h : IsIdentifier text)
    (hrest : identifierPart rest.toList = true) :
    Acceptable (text ++ "_" ++ rest) ↔
      '\n' ∉ text.toList ∧ text.length + rest.length ≤ 127 := by
  have hlow : isIdentifierRest '_' = true := by decide
  have hidentifier : IsIdentifier (text ++ "_" ++ rest) ↔ '\n' ∉ text.toList := by
    have happend := (identifier_append_iff hlow text.toList rest.toList).2 h
    simp only [hrest, and_true] at happend
    rw [← happend, IsIdentifier]
    simp
  have hlength : (text ++ "_" ++ rest).length = text.length + rest.length + 1 := by
    simp only [String.length_append]
    have hone : "_".length = 1 := rfl
    omega
  constructor
  · intro hboth
    refine ⟨hidentifier.1 hboth.identifier, ?_⟩
    have hle := hboth.length_le
    rw [hlength, identifierLimit] at hle
    omega
  · rintro ⟨hline, hle⟩
    refine ⟨hidentifier.2 hline, ?_⟩
    rw [hlength, identifierLimit]
    omega

end Acceptable

theorem Dimension.acceptable_factKey_iff {dimension : Dimension} (h : Acceptable dimension.name) :
    Acceptable dimension.factKey ↔
      '\n' ∉ dimension.name.toList ∧ dimension.name.length ≤ 124 := by
  have hkey : dimension.factKey = Text.lowerCase dimension.name ++ "_" ++ "key" := by
    rw [factKey, String.append_assoc]
    rfl
  have hthree : "key".length = 3 := rfl
  rw [hkey, Acceptable.append_iff h.identifier.lowerCase (by decide), h.lineEnd_lowerCase_iff,
    h.length_lowerCase, hthree]
  constructor <;> rintro ⟨hline, hlength⟩ <;> exact ⟨hline, by omega⟩

theorem LevelRef.acceptable_label_iff {ref : LevelRef} (hdimension : Acceptable ref.dimension)
    (hlevel : Acceptable ref.level) :
    Acceptable ref.label ↔ '\n' ∉ ref.dimension.toList ∧
      ref.dimension.length + ref.level.length ≤ 127 :=
  Acceptable.append_iff hdimension.identifier (identifierPart_of_start hlevel.identifier)

section Resolution

variable {cube : Cube}

theorem Dimension.checkJoin_eq_ok_iff {dimension : Dimension} {done : Unit} :
    dimension.checkJoin = .ok done ↔ Acceptable dimension.table ∧ Acceptable dimension.factKey ∧
      Acceptable dimension.keyColumn := by
  simp only [checkJoin, Except.seq_eq_ok_iff, discard_requireIdentifier_eq_ok_iff]

theorem Dimension.resolveLevel_eq_ok_iff {dimension : Dimension} {name : String}
    {hierarchy : Option String} {level : Level} :
    dimension.resolveLevel name hierarchy = .ok level ↔
      dimension.levelIn? hierarchy name = some level := by
  refine ⟨levelIn?_of_resolveLevel, fun h => ?_⟩
  cases hierarchy with
  | none =>
      have hfound : dimension.findLevel? name = some level := h
      simp [resolveLevel, hfound, pure, Except.pure, bind, Except.bind]
  | some hierarchy =>
      obtain ⟨among, hamong, hfound⟩ := Option.bind_eq_some_iff.1 h
      simp [resolveLevel, requireHierarchy, hamong, hfound, Except.map, bind, Except.bind]

/-- Of the names by which a level of a consistent cube is written, the key of the dimension is left
to be checked. -/
theorem Cube.Consistent.resolveLevel_eq_ok_iff (h : cube.Consistent) {ref : LevelRef}
    {dimension : Dimension} {level : Level} :
    cube.resolveLevel ref = .ok (dimension, level) ↔
      cube.level? ref = some (dimension, level) ∧ Acceptable dimension.factKey := by
  simp only [resolveLevel, joinable, Except.bind_eq_ok_iff, Except.mapError_eq_ok_iff,
    requireDimension_eq_ok_iff, Dimension.checkJoin_eq_ok_iff, Dimension.resolveLevel_eq_ok_iff,
    discard_requireIdentifier_eq_ok_iff, Except.pure_eq_ok_iff, Prod.mk.injEq, exists_const]
  constructor
  · rintro ⟨found, ⟨_, hdimension, hjoin, rfl⟩, _, hlevel, -, rfl, rfl⟩
    exact ⟨level?_eq_some_iff.2 ⟨hdimension, hlevel⟩, hjoin.2.1⟩
  · rintro ⟨hfound, hkey⟩
    obtain ⟨hdimension, hlevel⟩ := level?_eq_some_iff.1 hfound
    obtain ⟨hmem, -, -, hierarchy, hhierarchy, hmemLevel⟩ := mem_of_level? hfound
    have hnames := h.dimensions dimension hmem
    exact ⟨dimension, ⟨dimension, hdimension, ⟨hnames.table, hkey, hnames.keyColumn⟩, rfl⟩, level,
      hlevel, ((hnames.hierarchies hierarchy hhierarchy).levels level hmemLevel).column, rfl, rfl⟩

/-- And of a level that is selected its label is. -/
theorem Cube.Consistent.resolveItem_level_eq_ok_iff (h : cube.Consistent) {ref : LevelRef}
    {item : ResolvedItem} :
    cube.resolveItem (.level ref) = .ok item ↔ ∃ dimension level,
      cube.level? ref = some (dimension, level) ∧ Acceptable dimension.factKey ∧
        Acceptable ref.label ∧ item = .grouped dimension level ref.label := by
  simp only [resolveItem, Except.bind_eq_ok_iff, Prod.exists, h.resolveLevel_eq_ok_iff,
    discard_requireIdentifier_eq_ok_iff, requireIdentifier_eq_ok_iff, Except.pure_eq_ok_iff,
    exists_const]
  constructor
  · rintro ⟨dimension, level, ⟨hfound, hkey⟩, -, label, ⟨hlabel, rfl⟩, rfl⟩
    exact ⟨dimension, level, hfound, hkey, hlabel, rfl⟩
  · rintro ⟨dimension, level, hfound, hkey, hlabel, rfl⟩
    obtain ⟨hmem, -, -, hierarchy, hhierarchy, hmemLevel⟩ := mem_of_level? hfound
    have hnames := ((h.dimensions dimension hmem).hierarchies hierarchy hhierarchy).levels level
    exact ⟨dimension, level, ⟨hfound, hkey⟩, (hnames hmemLevel).sortColumn, ref.label,
      ⟨hlabel, rfl⟩, rfl⟩

theorem Cube.Consistent.resolveMeasure_eq_ok (h : cube.Consistent) {measure : Measure}
    (hmeasure : measure ∈ cube.measures) :
    cube.resolveMeasure measure.name = .ok (.aggregated measure) := by
  have hnames := h.measures measure hmeasure
  simp only [resolveMeasure, Except.bind_eq_ok_iff, Except.mapError_eq_ok_iff,
    requireMeasure_eq_ok_iff, discard_requireIdentifier_eq_ok_iff]
  exact ⟨measure, h.measure?_eq_some hmeasure, (), hnames.column, (), hnames.name, rfl⟩

end Resolution

/-- A level of a hierarchy of a dimension, by all three names. -/
def Dimension.levelRef (dimension : Dimension) (hierarchy : Hierarchy) (level : Level) : LevelRef :=
  ⟨dimension.name, level.name, some hierarchy.name⟩

namespace Cube

variable {cube : Cube} {dimension : Dimension} {hierarchy : Hierarchy} {level : Level}
  {ref : LevelRef} {before after : List Measure}

/-- The query of a level, with measures before and after it. -/
def levelQuery (cube : Cube) (ref : LevelRef) (before after : List Measure) : Query where
  select := before.map (SelectItem.measure ·.name) ++
    .level ref :: after.map (SelectItem.measure ·.name)
  cube := cube.name
  conditions := []

/-- The statement that selects the column of a level from the table of its dimension, ordered by its
sort column, with measures before and after it. -/
def levelStatement (cube : Cube) (dimension : Dimension) (level : Level) (label : String)
    (before after : List Measure) : Statement where
  columns := before.map (ResolvedItem.aggregated · |>.column) ++
    .plain (dimension.ref level.column) label :: after.map (ResolvedItem.aggregated · |>.column)
  factTable := cube.factTable
  joins := [dimension.join]
  conditions := []
  groups := Statement.distinctColumns [dimension.ref level.column, dimension.ref level.sortColumn]
  orders := [dimension.ref level.sortColumn]

/-- Different measures of a cube, none of which has the name of a label. -/
structure Beside (cube : Cube) (label : String) (measures : List Measure) : Prop where
  mem : ∀ measure ∈ measures, measure ∈ cube.measures
  nodup : (measures.map Measure.name).Nodup
  label_ne : ∀ measure ∈ measures, measure.name ≠ label

theorem resolveItems_cons_eq_ok_iff {seen : List String} {item : SelectItem}
    {rest : List SelectItem} {resolved : List ResolvedItem} :
    cube.resolveItems seen (item :: rest) = .ok resolved ↔ item.label ∉ seen ∧
      ∃ first, cube.resolveItem item = .ok first ∧
        ∃ others, cube.resolveItems (item.label :: seen) rest = .ok others ∧
          first :: others = resolved := by
  rw [resolveItems]
  simp only [Except.refuse_eq_ok_iff, Except.bind_eq_ok_iff, Except.pure_eq_ok_iff,
    List.contains_iff_mem]

/-- Items resolve one by one, if no label is selected twice. -/
theorem resolveItems_eq_ok_iff {seen : List String} {items : List SelectItem}
    {resolved : List ResolvedItem} :
    cube.resolveItems seen items = .ok resolved ↔
      List.Forall₂ (fun item found => cube.resolveItem item = .ok found) items resolved ∧
        (items.map SelectItem.label).Nodup ∧ ∀ item ∈ items, item.label ∉ seen := by
  induction items generalizing seen resolved with
  | nil =>
      rw [resolveItems, List.forall₂_nil_left_iff]
      simp [eq_comm]
  | cons item rest ih =>
      rw [resolveItems_cons_eq_ok_iff, List.forall_mem_cons]
      simp only [ih, List.forall₂_cons_left_iff, List.map_cons, List.nodup_cons, List.mem_cons,
        not_or]
      constructor
      · rintro ⟨hnew, first, hfirst, others, ⟨hothers, hnodup, hseen⟩, rfl⟩
        refine ⟨⟨first, others, hfirst, hothers, rfl⟩, ⟨?_, hnodup⟩, hnew,
          fun other hother => (hseen other hother).2⟩
        intro hmem
        obtain ⟨other, hother, heq⟩ := List.mem_map.1 hmem
        exact (hseen other hother).1 heq
      · rintro ⟨⟨first, others, hfirst, hothers, rfl⟩, ⟨hitem, hnodup⟩, hnew, hseen⟩
        refine ⟨hnew, first, hfirst, others, ⟨hothers, hnodup, fun other hother => ⟨?_, ?_⟩⟩, rfl⟩
        · exact fun heq => hitem (heq ▸ List.mem_map_of_mem hother)
        · exact hseen other hother

theorem Beside.nodup_labels (h : cube.Beside ref.label (before ++ after)) :
    ((cube.levelQuery ref before after).select.map SelectItem.label).Nodup := by
  have hlabels : (cube.levelQuery ref before after).select.map SelectItem.label =
      before.map Measure.name ++ ref.label :: after.map Measure.name := by
    simp [levelQuery, SelectItem.label, Function.comp_def]
  have hnodup := h.nodup
  rw [List.map_append] at hnodup
  rw [hlabels, List.nodup_middle, List.nodup_cons, ← List.map_append]
  refine ⟨fun hmem => ?_, by rwa [List.map_append]⟩
  obtain ⟨measure, hmeasure, heq⟩ := List.mem_map.1 hmem
  exact h.label_ne measure hmeasure heq

/-- What the query of a level resolves to is put together to the statement of the level. -/
theorem ofResolved_levelQuery :
    Statement.ofResolved (before.map ResolvedItem.aggregated ++
      .grouped dimension level ref.label :: after.map ResolvedItem.aggregated) [] cube.factTable =
      cube.levelStatement dimension level ref.label before after := by
  have hdimensions (measures : List Measure) :
      (measures.map ResolvedItem.aggregated).filterMap ResolvedItem.dimension? = [] := by
    simp [List.filterMap_eq_nil_iff, ResolvedItem.dimension?]
  have hgroups (measures : List Measure) :
      (measures.map ResolvedItem.aggregated).flatMap ResolvedItem.groups = [] := by
    simp [List.flatMap_eq_nil_iff, ResolvedItem.groups]
  have horders (measures : List Measure) :
      (measures.map ResolvedItem.aggregated).filterMap ResolvedItem.order? = [] := by
    simp [List.filterMap_eq_nil_iff, ResolvedItem.order?]
  simp only [Statement.ofResolved, Statement.mentioned, levelStatement, List.filterMap_append,
    List.filterMap_cons, List.flatMap_append, List.flatMap_cons, hdimensions, hgroups, horders,
    ResolvedItem.dimension?, ResolvedItem.groups, ResolvedItem.order?, List.map_append,
    List.map_cons, List.map_map, List.map_nil, List.nil_append, List.append_nil]
  rfl

namespace Consistent

theorem forall₂_measures (h : cube.Consistent) {measures : List Measure}
    (hmem : ∀ measure ∈ measures, measure ∈ cube.measures) :
    List.Forall₂ (fun item found => cube.resolveItem item = .ok found)
      (measures.map (SelectItem.measure ·.name)) (measures.map ResolvedItem.aggregated) := by
  rw [List.forall₂_map_left_iff, List.forall₂_map_right_iff, List.forall₂_same]
  exact fun measure hmeasure => h.resolveMeasure_eq_ok (hmem measure hmeasure)

/-- The query of a level has the statement of the level that is found by its names, or none. -/
theorem statement_levelQuery_eq_ok_iff (h : cube.Consistent)
    (hbeside : cube.Beside ref.label (before ++ after)) {statement : Statement} :
    (cube.levelQuery ref before after).statement cube = .ok statement ↔ ∃ dimension level,
      cube.level? ref = some (dimension, level) ∧ Acceptable dimension.factKey ∧
        Acceptable ref.label ∧
          statement = cube.levelStatement dimension level ref.label before after := by
  have hfront := h.forall₂_measures fun measure hmeasure =>
    hbeside.mem measure (List.mem_append_left after hmeasure)
  have hback := h.forall₂_measures fun measure hmeasure =>
    hbeside.mem measure (List.mem_append_right before hmeasure)
  have hitems (items : List ResolvedItem) :
      cube.resolveItems [] (cube.levelQuery ref before after).select = .ok items ↔ ∃ item,
        cube.resolveItem (.level ref) = .ok item ∧
          items = before.map .aggregated ++ item :: after.map .aggregated := by
    rw [resolveItems_eq_ok_iff]
    constructor
    · rintro ⟨hall, -, -⟩
      obtain ⟨item, -, hitem⟩ := exists_of_forall₂ hall
        (List.mem_append_right _ List.mem_cons_self)
      have hunique : Relator.RightUnique fun item found => cube.resolveItem item = .ok found :=
        fun _ _ _ hleft hright => Except.ok.inj (hleft.symm.trans hright)
      exact ⟨item, hitem, hunique.forall₂ hall (List.rel_append hfront (.cons hitem hback))⟩
    · rintro ⟨item, hitem, rfl⟩
      exact ⟨List.rel_append hfront (.cons hitem hback), hbeside.nodup_labels, by simp⟩
  simp only [Query.statement, Except.bind_eq_ok_iff, hitems, h.resolveItem_level_eq_ok_iff,
    requireIdentifier_eq_ok_iff, Except.pure_eq_ok_iff]
  constructor
  · rintro ⟨items, ⟨item, ⟨dimension, level, hfound, hkey, hlabel, rfl⟩, rfl⟩, conditions,
      hconditions, table, ⟨-, rfl⟩, rfl⟩
    obtain rfl : [] = conditions := Except.pure_eq_ok_iff.1 hconditions
    exact ⟨dimension, level, hfound, hkey, hlabel, ofResolved_levelQuery⟩
  · rintro ⟨dimension, level, hfound, hkey, hlabel, rfl⟩
    exact ⟨_, ⟨_, ⟨dimension, level, hfound, hkey, hlabel, rfl⟩, rfl⟩, [], rfl, cube.factTable,
      ⟨h.factTable, rfl⟩, ofResolved_levelQuery⟩

end Consistent

theorem levelStatement_inj {label : String} {other : Level} :
    cube.levelStatement dimension other label before after =
        cube.levelStatement dimension level label before after ↔
      other.column = level.column ∧ other.sortColumn = level.sortColumn := by
  constructor
  · intro h
    have hcolumns := congrArg Statement.columns h
    have horders := congrArg Statement.orders h
    simp only [levelStatement, Dimension.ref, List.append_cancel_left_eq, List.cons.injEq,
      OutputColumn.plain.injEq, ColumnRef.mk.injEq, true_and, and_true] at hcolumns horders
    exact ⟨hcolumns, horders⟩
  · rintro ⟨hcolumn, hsort⟩
    simp only [levelStatement, hcolumn, hsort]

end Cube

/-- What a level needs for being reached by its names: they fit together into identifiers, and the
level that is found by them has its columns. -/
structure Dimension.Offers (dimension : Dimension) (hierarchy : Hierarchy) (level : Level) :
    Prop where
  lineEnd : '\n' ∉ dimension.name.toList
  factKey : dimension.name.length ≤ 124
  label : dimension.name.length + level.name.length ≤ 127
  found : ∃ found, dimension.levelIn? (some hierarchy.name) level.name = some found ∧
    found.column = level.column ∧ found.sortColumn = level.sortColumn

/-- Where hierarchies are told apart by name, a level is found by its own name. -/
theorem Dimension.Consistent.levelIn?_eq_some {dimension : Dimension} (h : dimension.Consistent)
    (hnames : (dimension.hierarchies.map Hierarchy.name).Nodup) {hierarchy : Hierarchy}
    (hhierarchy : hierarchy ∈ dimension.hierarchies) {level : Level}
    (hlevel : level ∈ hierarchy.levels) :
    dimension.levelIn? (some hierarchy.name) level.name = some level := by
  have hfound : dimension.hierarchy? hierarchy.name = some hierarchy :=
    Cube.Consistent.find?_of_nodup hnames hhierarchy
  rw [levelIn?, hfound]
  exact Cube.Consistent.find?_of_nodup (h.hierarchies hierarchy hhierarchy).nodup_levels hlevel

/-- Such a dimension offers its levels as far as the names put together for them may be written. -/
theorem Dimension.Consistent.offers_iff {dimension : Dimension} (h : dimension.Consistent)
    (hnames : (dimension.hierarchies.map Hierarchy.name).Nodup) {hierarchy : Hierarchy}
    (hhierarchy : hierarchy ∈ dimension.hierarchies) {level : Level}
    (hlevel : level ∈ hierarchy.levels) :
    dimension.Offers hierarchy level ↔
      '\n' ∉ dimension.name.toList ∧ dimension.name.length ≤ 124 ∧
        dimension.name.length + level.name.length ≤ 127 :=
  ⟨fun ⟨hline, hkey, hlabel, _⟩ => ⟨hline, hkey, hlabel⟩, fun ⟨hline, hkey, hlabel⟩ =>
    ⟨hline, hkey, hlabel, level, h.levelIn?_eq_some hnames hhierarchy hlevel, rfl, rfl⟩⟩

/-- For every cube that is found consistent and each of its levels: the query of the level, alone or
with measures beside it, has the statement that selects the own column of the level from the table
of its dimension, ordered by its own sort column, just if the dimension offers the level. -/
theorem Cube.statement_levelQuery_iff {cube : Cube} {dimension : Dimension} {hierarchy : Hierarchy}
    {level : Level} {before after : List Measure} (hcube : cube.check = .ok ())
    (hdimension : dimension ∈ cube.dimensions) (hhierarchy : hierarchy ∈ dimension.hierarchies)
    (hlevel : level ∈ hierarchy.levels)
    (hbeside : cube.Beside (dimension.levelRef hierarchy level).label (before ++ after)) :
    (cube.levelQuery (dimension.levelRef hierarchy level) before after).statement cube =
        .ok (cube.levelStatement dimension level (dimension.levelRef hierarchy level).label
          before after) ↔
      dimension.Offers hierarchy level := by
  have hconsistent := check_eq_ok_iff.1 hcube
  have hnames := hconsistent.dimensions dimension hdimension
  have hlevelNames := (hnames.hierarchies hierarchy hhierarchy).levels level hlevel
  have hlookup (other : Dimension) (found : Level) :
      cube.level? (dimension.levelRef hierarchy level) = some (other, found) ↔
        other = dimension ∧ dimension.levelIn? (some hierarchy.name) level.name = some found := by
    have hfind := hconsistent.dimension?_eq_some hdimension
    rw [level?_eq_some_iff]
    simp only [Dimension.levelRef, hfind, Option.some.injEq]
    constructor <;> rintro ⟨rfl, hin⟩ <;> exact ⟨rfl, hin⟩
  have hlabel : Acceptable (dimension.levelRef hierarchy level).label ↔
      '\n' ∉ dimension.name.toList ∧ dimension.name.length + level.name.length ≤ 127 :=
    LevelRef.acceptable_label_iff hnames.name hlevelNames.name
  rw [hconsistent.statement_levelQuery_eq_ok_iff hbeside]
  constructor
  · rintro ⟨_, found, hfound, hkey, hfit, heq⟩
    obtain ⟨rfl, hin⟩ := (hlookup _ _).1 hfound
    obtain ⟨hline, hlength⟩ := (Dimension.acceptable_factKey_iff hnames.name).1 hkey
    exact ⟨hline, hlength, (hlabel.1 hfit).2, found, hin, levelStatement_inj.1 heq.symm⟩
  · rintro ⟨hline, hkey, hfit, found, hin, hcolumns⟩
    exact ⟨dimension, found, (hlookup _ _).2 ⟨rfl, hin⟩,
      (Dimension.acceptable_factKey_iff hnames.name).2 ⟨hline, hkey⟩, hlabel.2 ⟨hline, hfit⟩,
      (levelStatement_inj.2 hcolumns).symm⟩

/-- The hours of the clock can be queried beside the guests. -/
theorem Cube.visits_hours :
    (Cube.visits "Clock").check = .ok () ∧
      ((Cube.visits "Clock").levelQuery ⟨"Clock", "Hour", some "Hours"⟩
          [⟨"Guests", "guests", .sum, .number, none⟩] []).statement (Cube.visits "Clock") =
        .ok ((Cube.visits "Clock").levelStatement
          ⟨"Clock", "hours", "hour_key", "hour", [⟨"Hours", [⟨"Hour", "hour", none⟩]⟩], []⟩
          ⟨"Hour", "hour", none⟩ "Clock_Hour" [⟨"Guests", "guests", .sum, .number, none⟩] []) := by
  have hcheck : (Cube.visits "Clock").check = .ok () := by decide +kernel
  refine ⟨hcheck, (statement_levelQuery_iff hcheck (.tail _ (.head _)) (.head _) (.head _) ?_).2 ?_⟩
  · exact ⟨by simp [visits], by decide, by decide +kernel⟩
  · have hclock := (check_eq_ok_iff.1 hcheck).dimensions _ (.tail _ (.head _))
    exact (hclock.offers_iff (by decide) (.head _) (.head _)).2 (by decide)

/-- Visits by the day, whose two hierarchies have one name. -/
def Cube.twoCalendars : Cube where
  name := "Visits"
  description := ""
  factTable := "visits"
  dimensions :=
    [⟨"Time", "days", "day_key", "day",
      [⟨"Calendar", [⟨"Year", "year", none⟩]⟩, ⟨"Calendar", [⟨"Month", "month", none⟩]⟩], []⟩]
  measures := [⟨"Guests", "guests", .sum, .number, none⟩]
  calculatedMembers := []

/-- The cube is consistent, but the month is looked for in the first of the two, where it is not. -/
theorem Cube.twoCalendars_month :
    twoCalendars.check = .ok () ∧
      (twoCalendars.levelQuery ⟨"Time", "Month", some "Calendar"⟩ [] []).statement twoCalendars =
        .error (.reference (.unknownLevel "Time" "Month" (some "Calendar"))) :=
  ⟨by decide +kernel, rfl⟩

end StarCube
