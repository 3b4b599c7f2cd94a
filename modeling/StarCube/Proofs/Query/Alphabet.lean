import StarCube.Proofs.Query.Sentences

/-!
The characters of statements. Names are written into a statement as they are, so a statement is made
of few characters only because its names are, each of which has been checked or is part of a name
that has been. That holds of cubes that nobody has looked at before as well: the compiler checks
what it writes.
-/

namespace StarCube

/-- The characters that statements are made of. -/
def isStatementChar (c : Char) : Bool :=
  c.isAlphanum || ['_', '.', ',', '(', ')', '=', '*', '?', ' ', '\n'].contains c

/-- A text of characters that statements are made of. -/
def InAlphabet (text : String) : Prop :=
  ∀ c ∈ text.toList, isStatementChar c = true

instance (text : String) : Decidable (InAlphabet text) :=
  decidable_of_iff (text.toList.all isStatementChar = true) List.all_eq_true

theorem inAlphabet_append_iff {left right : String} :
    InAlphabet (left ++ right) ↔ InAlphabet left ∧ InAlphabet right := by
  simp only [InAlphabet, String.toList_append, List.forall_mem_append]

/-- A text between two others, of which the whole is in the alphabet, is in it. -/
theorem InAlphabet.of_occurs {text part : String} (h : InAlphabet text)
    (hpart : part.toList <:+: text.toList) : InAlphabet part :=
  fun c hc => h c (hpart.subset hc)

theorem inAlphabet_intercalate {separator : String} (hseparator : InAlphabet separator)
    {texts : List String} (h : ∀ text ∈ texts, InAlphabet text) :
    InAlphabet (String.intercalate separator texts) := by
  induction texts with
  | nil => simp [InAlphabet]
  | cons text rest ih =>
      rw [List.forall_mem_cons] at h
      cases rest with
      | nil => simpa using h.1
      | cons next rest =>
          rw [String.intercalate_cons_cons, inAlphabet_append_iff, inAlphabet_append_iff]
          exact ⟨⟨h.1, hseparator⟩, ih h.2⟩

theorem IsIdentifier.inAlphabet {text : String} (h : IsIdentifier text) : InAlphabet text := by
  intro c hc
  rcases h.chars c hc with hrest | rfl | rfl
  · rw [isIdentifierRest, Bool.or_eq_true, beq_iff_eq] at hrest
    rcases hrest with halpha | rfl
    · rw [isStatementChar, halpha, Bool.true_or]
    · decide
  · decide
  · decide

theorem ColumnRef.inAlphabet_text {ref : ColumnRef} :
    InAlphabet ref.text ↔ InAlphabet ref.tableAlias ∧ InAlphabet ref.column := by
  have hpoint : InAlphabet "." := by decide
  simp only [text, inAlphabet_append_iff, hpoint, and_true]

theorem Aggregation.inAlphabet_applied {aggregation : Aggregation} {column : String}
    (h : InAlphabet column) : InAlphabet (aggregation.applied column) := by
  have hopened : ∀ opened ∈ ["SUM(", "AVG(", "COUNT(", "MIN(", "MAX(", "COUNT(DISTINCT "],
      InAlphabet (opened ++ column ++ ")") := by
    intro opened hopened
    have hletters : ∀ opened ∈ ["SUM(", "AVG(", "COUNT(", "MIN(", "MAX(", "COUNT(DISTINCT "],
        InAlphabet opened := by decide
    simp only [inAlphabet_append_iff]
    exact ⟨⟨hletters opened hopened, h⟩, by decide⟩
  cases aggregation <;> exact hopened _ (by simp)

theorem OutputColumn.inAlphabet_text {column : OutputColumn} (href : InAlphabet column.ref.text)
    (hlabel : InAlphabet column.label) : InAlphabet column.text := by
  have hword : InAlphabet " AS " := by decide
  cases column with
  | aggregate aggregation ref label =>
      simp only [text, inAlphabet_append_iff]
      exact ⟨⟨Aggregation.inAlphabet_applied href, hword⟩, hlabel⟩
  | plain ref label =>
      simp only [text, inAlphabet_append_iff]
      exact ⟨⟨href, hword⟩, hlabel⟩

theorem Join.inAlphabet_text {join : Join} (htable : InAlphabet join.table)
    (halias : InAlphabet join.tableAlias) (hfactKey : InAlphabet join.factKey.text)
    (hkeyColumn : InAlphabet join.keyColumn.text) : InAlphabet join.text := by
  have hwords : InAlphabet "LEFT JOIN " ∧ InAlphabet " " ∧ InAlphabet " ON " ∧
      InAlphabet " = " := by
    decide
  unfold text
  simp only [inAlphabet_append_iff, hwords, htable, halias, hfactKey, hkeyColumn, and_self]

/-- A condition writes its column, unless it is the one that no row meets. -/
theorem Condition.inAlphabet_text {condition : Condition}
    (h : ∀ ref ∈ condition.refs, InAlphabet ref.text) : InAlphabet condition.text := by
  cases condition with
  | equals ref value =>
      have hplace : InAlphabet " = ?" := by decide
      rw [text, inAlphabet_append_iff]
      exact ⟨h ref (by simp [refs]), hplace⟩
  | among ref values =>
      cases values with
      | nil =>
          rw [text]
          decide
      | cons value rest =>
          have hwords : InAlphabet " IN (" ∧ InAlphabet ")" := by decide
          simp only [text, inAlphabet_append_iff, hwords, and_true]
          refine ⟨h ref (by simp [refs]), inAlphabet_intercalate (by decide) ?_⟩
          intro mark hmark
          obtain ⟨_, -, rfl⟩ := List.mem_map.1 hmark
          decide

namespace Statement

theorem inAlphabet_listed {texts : List String} (h : ∀ text ∈ texts, InAlphabet text) :
    InAlphabet (listed texts) :=
  inAlphabet_intercalate (by decide) h

/-- The names that a statement writes. -/
def names (statement : Statement) : List String :=
  statement.factTable :: statement.joins.map Join.table ++ statement.joins.map Join.tableAlias ++
    statement.columns.map OutputColumn.label ++
    statement.refs.flatMap fun ref => [ref.tableAlias, ref.column]

variable {statement : Statement}

/-- A statement over names in the alphabet is in the alphabet. -/
theorem inAlphabet_text (h : ∀ name ∈ statement.names, InAlphabet name) :
    InAlphabet statement.text := by
  simp only [names, List.cons_append, List.forall_mem_cons, List.forall_mem_append,
    List.forall_mem_map] at h
  obtain ⟨hfacts, ⟨⟨htables, haliases⟩, hlabels⟩, hnames⟩ := h
  have hrefs : ∀ ref ∈ statement.refs, InAlphabet ref.text := by
    intro ref href
    apply ColumnRef.inAlphabet_text.2
    constructor
    · exact hnames _ (List.mem_flatMap.2 ⟨ref, href, by simp⟩)
    · exact hnames _ (List.mem_flatMap.2 ⟨ref, href, by simp⟩)
  simp only [refs, List.forall_mem_append, List.forall_mem_map, List.forall_mem_flatMap] at hrefs
  obtain ⟨⟨⟨⟨hcolumns, hjoins⟩, hconditions⟩, hgroups⟩, horders⟩ := hrefs
  rw [text, lines_eq]
  apply inAlphabet_intercalate (by decide)
  simp only [List.forall_mem_append]
  refine ⟨⟨?_, ?_⟩, ?_⟩
  · rw [opening, List.forall_mem_cons, List.forall_mem_cons, List.forall_mem_map]
    refine ⟨?_, ?_, ?_⟩
    · refine inAlphabet_append_iff.2 ⟨by decide, inAlphabet_listed ?_⟩
      rw [List.forall_mem_map]
      intro column hcolumn
      exact OutputColumn.inAlphabet_text (hcolumns column hcolumn) (hlabels column hcolumn)
    · simp only [inAlphabet_append_iff, hfacts, and_true]
      decide
    · intro join hjoin
      exact Join.inAlphabet_text (htables join hjoin) (haliases join hjoin)
        (hjoins join hjoin _ (by simp)) (hjoins join hjoin _ (by simp))
  · unfold restriction
    split
    · simp
    · rw [List.forall_mem_singleton]
      refine inAlphabet_append_iff.2 ⟨by decide, inAlphabet_intercalate (by decide) ?_⟩
      rw [List.forall_mem_map]
      exact fun condition hcondition => Condition.inAlphabet_text (hconditions condition hcondition)
  · unfold closing
    split
    · simp
    · rw [List.forall_mem_cons, List.forall_mem_singleton]
      constructor
      · exact inAlphabet_append_iff.2 ⟨by decide, inAlphabet_listed (List.forall_mem_map.2 hgroups)⟩
      · exact inAlphabet_append_iff.2 ⟨by decide, inAlphabet_listed (List.forall_mem_map.2 horders)⟩

end Statement

/-- A query needs a name for its statement over a cube. -/
inductive Query.Needs (query : Query) (cube : Cube) : String → Prop where
  | facts : Needs query cube cube.factTable
  | label {item : SelectItem} (mem : item ∈ query.select) : Needs query cube item.label
  | table {name : String} {dimension : Dimension} (mem : name ∈ query.mentions)
      (found : cube.dimension? name = some dimension) : Needs query cube dimension.table
  | tableAlias {name : String} {dimension : Dimension} (mem : name ∈ query.mentions)
      (found : cube.dimension? name = some dimension) : Needs query cube dimension.tableAlias
  | column {ref : ColumnRef} {table : String} (written : query.Writes cube ref table) :
      Needs query cube ref.column

/-- The alias of a dimension is checked with the key, which is made of the same name. -/
theorem Dimension.Joinable.inAlphabet_tableAlias {dimension : Dimension} (h : dimension.Joinable) :
    InAlphabet dimension.tableAlias := by
  have hkey := h.factKey.inAlphabet
  rw [Dimension.factKey, inAlphabet_append_iff] at hkey
  exact inAlphabet_append_iff.2 ⟨by decide, hkey.1⟩

namespace Query.Resolves

variable {query : Query} {cube : Cube} {items : List ResolvedItem}
  {conditions : List ResolvedCondition}

/-- A query that resolves needs no name for its statement but in the alphabet. -/
theorem inAlphabet_of_needs (h : query.Resolves cube items conditions) {name : String}
    (hname : query.Needs cube name) : InAlphabet name := by
  have hjoinable {name : String} {dimension : Dimension} (hmem : name ∈ query.mentions)
      (hfound : cube.dimension? name = some dimension) : dimension.Joinable :=
    h.joinable_of_mem_mentioned (h.mem_mentioned hmem hfound)
  have hlevel {ref : LevelRef} {dimension : Dimension} {level : Level} (hmem : ref ∈ query.levels)
      (hfound : cube.level? ref = some (dimension, level)) :
      IsIdentifier level.column ∧ IsIdentifier level.sortColumn := by
    obtain ⟨resolved, -, hitem⟩ := exists_of_forall₂ h.items (mem_levels.1 hmem)
    cases hitem with
    | level hother joinable column sortColumn label =>
        obtain ⟨rfl, rfl⟩ := Prod.mk.inj (Option.some.inj (hfound.symm.trans hother))
        exact ⟨column, sortColumn⟩
  cases hname with
  | facts => exact h.factTable.inAlphabet
  | label mem =>
      obtain ⟨resolved, -, hitem⟩ := exists_of_forall₂ h.items mem
      exact hitem.isIdentifier_label.inAlphabet
  | table mem found => exact (hjoinable mem found).table.inAlphabet
  | tableAlias mem found => exact (hjoinable mem found).inAlphabet_tableAlias
  | column written =>
      cases written with
      | measure hmem hmeasure =>
          obtain ⟨resolved, -, hitem⟩ := exists_of_forall₂ h.items hmem
          cases hitem with
          | measure hother column label =>
              obtain rfl := Option.some.inj (hmeasure.symm.trans hother)
              exact column.inAlphabet
      | factKey hmem hfound => exact (hjoinable hmem hfound).factKey.inAlphabet
      | key hmem hfound => exact (hjoinable hmem hfound).keyColumn.inAlphabet
      | level hmem hfound => exact (hlevel hmem hfound).1.inAlphabet
      | sort hmem hfound => exact (hlevel hmem hfound).2.inAlphabet
      | condition hmem hvalues hfound =>
          obtain ⟨resolved, -, hof⟩ := exists_of_forall₂ h.conditions hmem
          obtain ⟨-, rfl⟩ := Prod.mk.inj (Option.some.inj (hfound.symm.trans hof.level))
          exact hof.column.inAlphabet

/-- The names that a statement writes are those that the query needs for it, and the alias of the
facts. -/
theorem needs_of_mem (h : query.Resolves cube items conditions) {name : String}
    (hname : name ∈ (Statement.ofResolved items conditions cube.factTable).names) :
    name = Statement.factAlias ∨ query.Needs cube name := by
  have hdimension {dimension : Dimension}
      (hmem : dimension ∈ Statement.mentioned items conditions) :
      dimension.name ∈ query.mentions ∧ cube.dimension? dimension.name = some dimension :=
    h.mem_mentions hmem
  rw [Statement.names, List.cons_append, List.cons_append, List.cons_append, List.mem_cons,
    List.mem_append, List.mem_append, List.mem_append] at hname
  rcases hname with rfl | ((htable | halias) | hlabel) | href
  · exact .inr .facts
  · obtain ⟨join, hjoin, rfl⟩ := List.mem_map.1 htable
    obtain ⟨dimension, hmem, rfl⟩ := List.mem_map.1 hjoin
    exact .inr (.table (hdimension hmem).1 (hdimension hmem).2)
  · obtain ⟨join, hjoin, rfl⟩ := List.mem_map.1 halias
    obtain ⟨dimension, hmem, rfl⟩ := List.mem_map.1 hjoin
    exact .inr (.tableAlias (hdimension hmem).1 (hdimension hmem).2)
  · obtain ⟨column, hcolumn, rfl⟩ := List.mem_map.1 hlabel
    obtain ⟨item, hitem, rfl⟩ := List.mem_map.1 hcolumn
    have hmem : item.column.label ∈ query.select.map SelectItem.label :=
      h.map_label_eq ▸ List.mem_map_of_mem hitem
    obtain ⟨selected, hselected, heq⟩ := List.mem_map.1 hmem
    rw [← heq]
    exact .inr (.label hselected)
  · obtain ⟨ref, href, hname⟩ := List.mem_flatMap.1 href
    obtain ⟨table, hwrites⟩ := h.writes_of_mem_refs href
    rcases List.mem_pair.1 hname with rfl | rfl
    · cases hwrites with
      | measure hmem hmeasure => exact .inl rfl
      | factKey hmem hfound => exact .inl rfl
      | key hmem hfound => exact .inr (.tableAlias hmem hfound)
      | level hmem hfound =>
          exact .inr (.tableAlias (mem_mentions_of_level hmem) (Cube.level?_eq_some_iff.1 hfound).1)
      | sort hmem hfound =>
          exact .inr (.tableAlias (mem_mentions_of_level hmem) (Cube.level?_eq_some_iff.1 hfound).1)
      | condition hmem hvalues hfound =>
          exact .inr
            (.tableAlias (mem_mentions_of_condition hmem) (Cube.level?_eq_some_iff.1 hfound).1)
    · exact .inr (.column hwrites)

end Query.Resolves

/-- The statement of a query is in the alphabet, and so is every name that the query needs for
it. -/
theorem Query.inAlphabet_statement {query : Query} {cube : Cube} {statement : Statement}
    (h : query.statement cube = .ok statement) :
    InAlphabet statement.text ∧ ∀ name, query.Needs cube name → InAlphabet name := by
  obtain ⟨items, conditions, hresolves, rfl⟩ := resolves_of_statement h
  refine ⟨Statement.inAlphabet_text fun name hname => ?_, fun _ => hresolves.inAlphabet_of_needs⟩
  rcases hresolves.needs_of_mem hname with rfl | hname
  · decide
  · exact hresolves.inAlphabet_of_needs hname

end StarCube
