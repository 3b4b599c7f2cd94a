import StarCube.Proofs.Sql.Grammar
import StarCube.Proofs.Sql.Statement

/-!
Which statements are sentences of the grammar: those that select something and whose aliases,
columns and labels have no points. Only the name of a table may have them.
-/

namespace StarCube

open Computability SqlLanguage SqlToken

theorem clear_point_of_word {letters : List Char} {rest : List SqlToken} :
    Clear [point] (.word letters :: rest) :=
  clear_cons_iff.2 (by simp [point])

section Names

variable {text : String} {rest : List SqlToken} {language : SqlLanguage}

/-- Names that follow points are in no language whose members start otherwise, if there are any. -/
theorem pointed_append_mem_iff (h : ClearAll [point] language) {others : List (List Char)} :
    pointed others ++ rest ∈ language ↔ others = [] ∧ rest ∈ language := by
  cases others with
  | nil => simp [pointed]
  | cons other others =>
      have hnone : pointed (other :: others) ++ rest ∉ language := by
        intro hmem
        exact clear_cons_iff.1 (h _ hmem) List.mem_cons_self
      simp [hnone]

theorem fits_name (h : IsIdentifier text) : Fits name [point] (sqlTokens text) (Undotted text) := by
  intro rest language _ hlanguage
  obtain ⟨first, others, hfirst, -, htokens, hundotted⟩ := h.exists_sqlTokens
  rw [htokens, List.cons_append, cons_mem_name_mul, pointed_append_mem_iff hlanguage, hundotted]
  simp [hfirst]

theorem fits_table (h : IsIdentifier text) : Fits table [point] (sqlTokens text) True := by
  intro rest language hrest hlanguage
  obtain ⟨first, others, hfirst, hothers, htokens, -⟩ := h.exists_sqlTokens
  have hnames : ∀ other ∈ others, Fits name [] [.word other] (IsName other) := by
    intro other _ rest language _ _
    exact cons_mem_name_mul
  rw [htokens, pointed, List.cons_append, table, mul_assoc, cons_mem_name_mul,
    fits_others List.not_mem_nil hnames hrest hlanguage]
  simpa [hfirst] using fun _ => hothers

/-- A word that is an alias is the whole identifier. -/
theorem fits_exactly (h : IsIdentifier text) (token : SqlToken) :
    Fits (exactly token) [point] (sqlTokens text) (sqlTokens text = [token]) := by
  intro rest language _ hlanguage
  obtain ⟨first, others, -, -, htokens, -⟩ := h.exists_sqlTokens
  rw [htokens, List.cons_append, cons_mem_exactly_mul, pointed_append_mem_iff hlanguage]
  cases others <;> simp [pointed]

theorem sqlTokens_column (ref : ColumnRef) :
    sqlTokens ref.text = sqlTokens ref.tableAlias ++ [point] ++ sqlTokens ref.column := by
  have hpoint : Parting "." := by decide
  rw [ColumnRef.text, hpoint.sqlTokens_append]
  rfl

/-- A column is written as its alias and its name. -/
structure ColumnRef.Identified (ref : ColumnRef) : Prop where
  tableAlias : IsIdentifier ref.tableAlias
  column : IsIdentifier ref.column

/-- Neither the alias of a column nor its name has points. -/
structure ColumnRef.Undotted (ref : ColumnRef) : Prop where
  tableAlias : StarCube.Undotted ref.tableAlias
  column : StarCube.Undotted ref.column

theorem fits_column {ref : ColumnRef} (h : ref.Identified) :
    Fits column [point] (sqlTokens ref.text) ref.Undotted := by
  intro rest language _ hlanguage
  obtain ⟨first, others, hfirst, hothers, halias, haliasUndotted⟩ := h.tableAlias.exists_sqlTokens
  obtain ⟨name, more, hname, hmore, hcolumn, hcolumnUndotted⟩ := h.column.exists_sqlTokens
  have hundotted : ref.Undotted ↔ others = [] ∧ more = [] := by
    rw [← haliasUndotted, ← hcolumnUndotted]
    exact ⟨fun h => ⟨h.tableAlias, h.column⟩, fun h => ⟨h.1, h.2⟩⟩
  have htokens : sqlTokens ref.text ++ rest =
      .word first :: (pointed others ++ (point :: .word name :: (pointed more ++ rest))) := by
    rw [sqlTokens_column, halias, hcolumn]
    simp
  rw [htokens, hundotted, SqlLanguage.column, mul_assoc, mul_assoc, cons_mem_name_mul]
  cases others with
  | nil =>
      rw [pointed, List.flatMap_nil, List.nil_append, cons_mem_exactly_mul, cons_mem_name_mul,
        pointed_append_mem_iff hlanguage]
      simp [hfirst, hname, point]
  | cons other others =>
      have hdotted : pointed others ++
          (point :: .word name :: (pointed more ++ rest)) ∉ language := by
        intro hmem
        cases others with
        | nil => exact clear_cons_iff.1 (hlanguage _ hmem) List.mem_cons_self
        | cons next others => exact clear_cons_iff.1 (hlanguage _ hmem) List.mem_cons_self
      simp only [pointed, List.flatMap_cons, List.cons_append, List.nil_append] at hdotted ⊢
      rw [cons_mem_exactly_mul, cons_mem_name_mul]
      simp [hdotted]

end Names

section Items

variable {rest : List SqlToken} {language : SqlLanguage}

/-- The label and the column of an output are identifiers. -/
structure OutputColumn.Identified (output : OutputColumn) : Prop where
  ref : output.ref.Identified
  label : IsIdentifier output.label

structure OutputColumn.Undotted (output : OutputColumn) : Prop where
  ref : output.ref.Undotted
  label : StarCube.Undotted output.label

theorem Aggregation.applied_eq (aggregation : Aggregation) (text : String) :
    aggregation.applied text = opening aggregation ++ text ++ ")" := by
  cases aggregation <;> rfl

theorem sqlTokens_applied (aggregation : Aggregation) (text : String) :
    sqlTokens (aggregation.applied text) =
      sqlTokens (opening aggregation) ++ (sqlTokens text ++ sqlTokens ")") := by
  have hending : Ending (opening aggregation).toList := by cases aggregation <;> decide
  rw [aggregation.applied_eq, sqlTokens_append_of_starting (by decide),
    sqlTokens_append_of_ending hending, List.append_assoc]

/-- The second token of a column is a point. -/
theorem ColumnRef.Identified.exists_sqlTokens {ref : ColumnRef} (h : ref.Identified) :
    ∃ letters rest, sqlTokens ref.text = .word letters :: point :: rest := by
  obtain ⟨first, others, -, -, halias, -⟩ := h.tableAlias.exists_sqlTokens
  rw [sqlTokens_column, halias]
  cases others with
  | nil => exact ⟨first, _, rfl⟩
  | cons other others => exact ⟨first, _, rfl⟩

theorem exists_of_mem_column_mul {tokens : List SqlToken} (h : tokens ∈ column * language) :
    ∃ letters rest, tokens = .word letters :: point :: rest := by
  rw [column, mul_assoc, mem_name_mul] at h
  obtain ⟨letters, -, rest, hrest, rfl⟩ := h
  rw [mul_assoc] at hrest
  obtain ⟨after, -, rfl⟩ := mem_exactly_mul.1 hrest
  exact ⟨letters, after, rfl⟩

theorem exists_sqlTokens_opening (aggregation : Aggregation) :
    ∃ letters rest, sqlTokens (opening aggregation) = .word letters :: .symbol '(' :: rest := by
  cases aggregation <;> exact ⟨_, _, rfl⟩

/-- The words before a column tell the aggregate. -/
theorem opening_eq_of_append_eq {left right : Aggregation} {letters letters' : List Char}
    {after after' : List SqlToken}
    (h : sqlTokens (opening left) ++ .word letters :: point :: after =
      sqlTokens (opening right) ++ .word letters' :: point :: after') : left = right := by
  have hsum : sqlTokens (opening .sum) = [.word "SUM".toList, .symbol '('] := rfl
  have havg : sqlTokens (opening .avg) = [.word "AVG".toList, .symbol '('] := rfl
  have hcount : sqlTokens (opening .count) = [.word "COUNT".toList, .symbol '('] := rfl
  have hmin : sqlTokens (opening .min) = [.word "MIN".toList, .symbol '('] := rfl
  have hmax : sqlTokens (opening .max) = [.word "MAX".toList, .symbol '('] := rfl
  have hdistinct : sqlTokens (opening .countDistinct) =
      [.word "COUNT".toList, .symbol '(', .word "DISTINCT".toList] := rfl
  cases left <;> cases right <;>
    simp [hsum, havg, hcount, hmin, hmax, hdistinct, point] at h ⊢

theorem mem_aggregate_mul {tokens : List SqlToken} :
    tokens ∈ aggregate * language ↔
      ∃ aggregation, ∃ rest ∈ column * (written ")" * language),
        tokens = sqlTokens (opening aggregation) ++ rest := by
  rw [aggregate, Language.iSup_mul, Language.mem_iSup]
  simp only [mul_assoc, mem_written_mul]

theorem fits_aggregate (aggregation : Aggregation) {ref : ColumnRef} (h : ref.Identified) :
    Fits (aggregate + column) [point] (sqlTokens (aggregation.applied ref.text)) ref.Undotted := by
  intro rest language hrest hlanguage
  have hcolumn : sqlTokens ref.text ++ (sqlTokens ")" ++ rest) ∈
      column * (written ")" * language) ↔ ref.Undotted ∧ rest ∈ language := by
    rw [fits_column h (clear_append (by decide) (by decide))
      (clearAll_written_mul (by decide) (by decide)), append_mem_written_mul]
  obtain ⟨first, others, hopening⟩ := exists_sqlTokens_opening aggregation
  have hnone : sqlTokens (opening aggregation) ++ (sqlTokens ref.text ++ (sqlTokens ")" ++ rest)) ∉
      column * language := by
    intro hmem
    obtain ⟨_, _, heq⟩ := exists_of_mem_column_mul hmem
    rw [hopening] at heq
    simp [point] at heq
  rw [sqlTokens_applied, List.append_assoc, List.append_assoc, add_mul, Language.mem_add,
    or_iff_left hnone, ← hcolumn, mem_aggregate_mul]
  constructor
  · rintro ⟨other, found, hfound, heq⟩
    obtain ⟨letters, after, htokens⟩ := h.exists_sqlTokens
    obtain ⟨letters', after', rfl⟩ := exists_of_mem_column_mul hfound
    have hsame : aggregation = other := by
      apply opening_eq_of_append_eq
      rw [← heq, htokens]
      rfl
    subst hsame
    rwa [List.append_cancel_left heq]
  · exact fun hmem => ⟨aggregation, _, hmem, rfl⟩

/-- The token after the first word is a point for a column and a bracket for an aggregate. -/
theorem fits_plain {ref : ColumnRef} (h : ref.Identified) :
    Fits (aggregate + column) [point] (sqlTokens ref.text) ref.Undotted := by
  intro rest language hrest hlanguage
  have hnone : sqlTokens ref.text ++ rest ∉ aggregate * language := by
    intro hmem
    obtain ⟨aggregation, found, -, heq⟩ := mem_aggregate_mul.1 hmem
    obtain ⟨first, others, hopening⟩ := exists_sqlTokens_opening aggregation
    obtain ⟨letters, after, hcolumn⟩ := h.exists_sqlTokens
    rw [hcolumn, hopening] at heq
    simp [point] at heq
  rw [add_mul, Language.mem_add, or_iff_right hnone, fits_column h hrest hlanguage]

theorem fits_item {output : OutputColumn} (h : output.Identified) :
    Fits item [point] (sqlTokens output.text) output.Undotted := by
  have has : Parting " AS " := by decide
  have hundotted : output.ref.Undotted ∧ StarCube.Undotted output.label ↔ output.Undotted :=
    ⟨fun h => ⟨h.1, h.2⟩, fun h => ⟨h.ref, h.label⟩⟩
  cases output with
  | aggregate aggregation ref label =>
      rw [OutputColumn.text, has.sqlTokens_append, List.append_assoc]
      exact (fits_before "AS" (fits_aggregate aggregation h.ref) (fits_name h.label)
        (by decide) (by decide)).congr hundotted
  | plain ref label =>
      rw [OutputColumn.text, has.sqlTokens_append, List.append_assoc]
      exact (fits_before "AS" (fits_plain h.ref) (fits_name h.label)
        (by decide) (by decide)).congr hundotted

end Items

section Joins

variable {join : Join}

/-- The names of a join are identifiers, and its keys are of the facts and of the table that is
joined. -/
structure Join.Identified (join : Join) : Prop where
  table : IsIdentifier join.table
  tableAlias : IsIdentifier join.tableAlias
  factAlias : join.factKey.tableAlias = Statement.factAlias
  factKey : IsIdentifier join.factKey.column
  keyAlias : join.keyColumn.tableAlias = join.tableAlias
  keyColumn : IsIdentifier join.keyColumn.column

/-- The keys of a join have no points in their aliases and names. -/
structure Join.Undotted (join : Join) : Prop where
  factKey : join.factKey.Undotted
  keyColumn : join.keyColumn.Undotted

/-- What a join writes after its first word. -/
def Join.clause (join : Join) : List SqlToken :=
  sqlTokens "JOIN" ++ (sqlTokens join.table ++ (sqlTokens join.tableAlias ++
    (sqlTokens "ON fact." ++ (sqlTokens join.factKey.column ++ (sqlTokens "=" ++
      (sqlTokens join.tableAlias ++ (sqlTokens "." ++ sqlTokens join.keyColumn.column)))))))

theorem Join.Identified.sqlTokens_text (h : join.Identified) :
    sqlTokens join.text = left :: join.clause := by
  have hjoin : Ending "LEFT JOIN ".toList := by decide
  have hblank : Parting " " := by decide
  have hon : Parting " ON " := by decide
  have hequals : Parting " = " := by decide
  -- The equation of the definition is slow to come by; this is the same one.
  have htext : join.text = "LEFT JOIN " ++ join.table ++ " " ++ join.tableAlias ++ " ON " ++
      join.factKey.text ++ " = " ++ join.keyColumn.text := rfl
  rw [htext, hequals.sqlTokens_append, hon.sqlTokens_append, hblank.sqlTokens_append,
    sqlTokens_append_of_ending hjoin, sqlTokens_column, sqlTokens_column, h.factAlias, h.keyAlias]
  simp only [List.append_assoc]
  rfl

/-- A join under an alias that is its own. The alias comes twice, and the second time before a
point, so that it has to be known to be one word by then. -/
theorem fits_joined (h : join.Identified) (letters : List Char) :
    Fits (joined (.word letters)) [point] join.clause
      (sqlTokens join.tableAlias = [.word letters] ∧
        StarCube.Undotted join.factKey.column ∧ StarCube.Undotted join.keyColumn.column) := by
  intro rest language hrest hlanguage
  obtain ⟨first, others, -, -, halias, -⟩ := h.tableAlias.exists_sqlTokens
  obtain ⟨name, more, -, -, hcolumn, -⟩ := h.factKey.exists_sqlTokens
  have hkey (hword : sqlTokens join.tableAlias = [.word letters]) :
      sqlTokens join.tableAlias ++ (sqlTokens "." ++ (sqlTokens join.keyColumn.column ++ rest)) ∈
        exactly (.word letters) * (written "." * (SqlLanguage.name * language)) ↔
      StarCube.Undotted join.keyColumn.column ∧ rest ∈ language := by
    rw [hword, List.singleton_append, cons_mem_exactly_mul, append_mem_written_mul,
      fits_name h.keyColumn hrest hlanguage]
    simp
  have hequals : Clear [point] (sqlTokens "=" ++ (sqlTokens join.tableAlias ++
      (sqlTokens "." ++ (sqlTokens join.keyColumn.column ++ rest)))) :=
    clear_append (by decide) (by decide)
  have hon : Clear [point] (sqlTokens "ON fact." ++ (sqlTokens join.factKey.column ++
      (sqlTokens "=" ++ (sqlTokens join.tableAlias ++
        (sqlTokens "." ++ (sqlTokens join.keyColumn.column ++ rest)))))) :=
    clear_append (by decide) (by decide)
  have hname (tail : List SqlToken) : Clear [point] (sqlTokens join.tableAlias ++ tail) := by
    rw [halias]
    exact clear_point_of_word
  rw [Join.clause, joined]
  simp only [mul_assoc, List.append_assoc]
  rw [append_mem_written_mul,
    fits_table h.table (hname _) (clearAll_exactly_mul (by simp [point])),
    fits_exactly h.tableAlias _ hon (clearAll_written_mul (by decide) (by decide)),
    append_mem_written_mul,
    fits_name h.factKey hequals (clearAll_written_mul (by decide) (by decide)),
    append_mem_written_mul, true_and, and_assoc, and_assoc]
  refine and_congr_right fun hword => and_congr_right fun _ => hkey hword

theorem fits_join (h : join.Identified) :
    Fits SqlLanguage.join [point] join.clause join.Undotted := by
  intro rest language hrest hlanguage
  obtain ⟨first, others, hfirst, -, halias, hundotted⟩ := h.tableAlias.exists_sqlTokens
  have hfact : StarCube.Undotted Statement.factAlias := by decide
  rw [SqlLanguage.join, Language.iSup_mul, Language.mem_iSup]
  simp only [fits_joined h _ hrest hlanguage]
  constructor
  · rintro ⟨letters, ⟨hword, hfactKey, hkeyColumn⟩, hmem⟩
    have hothers : others = [] := by
      cases others with
      | nil => rfl
      | cons other others => simp [halias, pointed] at hword
    refine ⟨⟨⟨?_, hfactKey⟩, ⟨?_, hkeyColumn⟩⟩, hmem⟩
    · rwa [h.factAlias]
    · rw [h.keyAlias]
      exact hundotted.2 hothers
  · rintro ⟨⟨hfactKey, hkeyColumn⟩, hmem⟩
    have hothers : others = [] := hundotted.1 (h.keyAlias ▸ hkeyColumn.tableAlias)
    refine ⟨⟨first, hfirst⟩, ⟨?_, hfactKey.column, hkeyColumn.column⟩, hmem⟩
    rw [halias, hothers]
    rfl

end Joins

/-- Texts with a separator between each two, which is one token. -/
theorem sqlTokens_separated {α : Type} {separator : String} {token : SqlToken}
    (h : Parting separator)
    (htoken : sqlTokens separator = [token]) (write : α → String) (first : α) (others : List α) :
    sqlTokens (separator.intercalate ((first :: others).map write)) =
      sqlTokens (write first) ++ others.flatMap fun other => token :: sqlTokens (write other) := by
  rw [List.map_cons, h.sqlTokens_intercalate, htoken, List.flatMap_map]
  rfl

theorem sqlTokens_comma : sqlTokens ", " = [comma] :=
  rfl

section Conditions

variable {rest : List SqlToken} {language : SqlLanguage}

theorem fits_marks {α : Type} (first : α) (others : List α) :
    Fits (listed comma (written "?")) [comma]
      (sqlTokens (String.intercalate ", " ((first :: others).map fun _ => "?"))) True := by
  intro rest language hrest hlanguage
  have hmark : ∀ element ∈ first :: others, Fits (written "?") [] (sqlTokens "?") True :=
    fun _ _ => fits_written "?"
  rw [sqlTokens_separated (by decide) sqlTokens_comma,
    fits_listed List.not_mem_nil hmark hrest hlanguage]
  simp

/-- What stands after the column of a condition tells its kind. -/
theorem column_append_mem_condition_mul {ref : ColumnRef} (h : ref.Identified)
    {tail : List SqlToken} (htail : Clear [point] tail) :
    sqlTokens ref.text ++ tail ∈ SqlLanguage.condition * language ↔
      ref.Undotted ∧ (tail ∈ written "= ?" * language ∨
        tail ∈ written "IN (" * (listed comma (written "?") * (written ")" * language))) := by
  obtain ⟨letters, after, hcolumn⟩ := h.exists_sqlTokens
  have hnone : sqlTokens ref.text ++ tail ∉ written "1 = 0" * language := by
    intro hmem
    obtain ⟨found, -, heq⟩ := mem_written_mul.1 hmem
    rw [hcolumn] at heq
    cases heq
  simp only [SqlLanguage.condition, add_mul, mul_assoc, Language.mem_add]
  rw [or_iff_left hnone, fits_column h htail (clearAll_written_mul (by decide) (by decide)),
    fits_column h htail (clearAll_written_mul (by decide) (by decide)), and_or_left]

theorem fits_equals {ref : ColumnRef} (h : ref.Identified) (value : Value) :
    Fits SqlLanguage.condition [] (sqlTokens (Condition.equals ref value).text) ref.Undotted := by
  intro rest language _ _
  have hnone : sqlTokens "= ?" ++ rest ∉
      written "IN (" * (listed comma (written "?") * (written ")" * language)) := by
    intro hmem
    obtain ⟨_, -, heq⟩ := mem_written_mul.1 hmem
    cases heq
  have htokens : sqlTokens (Condition.equals ref value).text =
      sqlTokens ref.text ++ sqlTokens "= ?" :=
    sqlTokens_append_of_starting (by decide) ref.text
  rw [htokens, List.append_assoc,
    column_append_mem_condition_mul h (clear_append (by decide) (by decide)), or_iff_left hnone,
    append_mem_written_mul]

theorem fits_among {ref : ColumnRef} (h : ref.Identified) (value : Value) (values : List Value) :
    Fits SqlLanguage.condition [] (sqlTokens (Condition.among ref (value :: values)).text)
      ref.Undotted := by
  intro rest language _ _
  have hin : Parting " IN (" := by decide
  have htokens : sqlTokens (Condition.among ref (value :: values)).text =
      sqlTokens ref.text ++ (sqlTokens "IN (" ++
        (sqlTokens (String.intercalate ", " ((value :: values).map fun _ => "?")) ++
          sqlTokens ")")) := by
    rw [Condition.text, sqlTokens_append_of_starting (by decide), hin.sqlTokens_append]
    · simp only [List.append_assoc]
      rfl
    · simp
  have hnone : sqlTokens "IN (" ++ (sqlTokens (String.intercalate ", "
      ((value :: values).map fun _ => "?")) ++ (sqlTokens ")" ++
        rest)) ∉ written "= ?" * language := by
    intro hmem
    obtain ⟨_, -, heq⟩ := mem_written_mul.1 hmem
    cases heq
  rw [htokens]
  simp only [List.append_assoc]
  rw [column_append_mem_condition_mul h (clear_append (by decide) (by decide)), or_iff_right hnone,
    append_mem_written_mul,
    fits_marks value values (clear_append (by decide) (by decide))
      (clearAll_written_mul (by decide) (by decide)),
    append_mem_written_mul, true_and]

/-- The condition that no row meets has no column before it. -/
theorem fits_never (ref : ColumnRef) :
    Fits SqlLanguage.condition [] (sqlTokens (Condition.among ref []).text) True := by
  intro rest language _ _
  have hnone (others : SqlLanguage) : sqlTokens "1 = 0" ++ rest ∉ column * others := by
    intro hmem
    obtain ⟨_, _, heq⟩ := exists_of_mem_column_mul hmem
    cases heq
  simp only [SqlLanguage.condition, add_mul, mul_assoc, Language.mem_add, Condition.text, hnone,
    false_or, append_mem_written_mul, true_and]

theorem fits_condition {condition : Condition} (h : condition.ref.Identified) :
    Fits SqlLanguage.condition [] (sqlTokens condition.text)
      (∀ ref ∈ condition.refs, ref.Undotted) := by
  cases condition with
  | equals ref value => exact (fits_equals h value).congr List.forall_mem_singleton.symm
  | among ref values =>
      cases values with
      | nil => exact (fits_never ref).congr (by simp [Condition.refs])
      | cons value values => exact (fits_among h value values).congr List.forall_mem_singleton.symm

end Conditions

section Lines

variable {statement : Statement}

theorem sqlTokens_and : sqlTokens " AND " = [SqlToken.and] :=
  rfl

/-- Every name that a statement writes is an identifier, and it has an order just if it has
groups. -/
structure Statement.Identified (statement : Statement) : Prop where
  columns : ∀ column ∈ statement.columns, column.Identified
  factTable : IsIdentifier statement.factTable
  joins : ∀ join ∈ statement.joins, join.Identified
  conditions : ∀ condition ∈ statement.conditions, condition.ref.Identified
  groups : ∀ ref ∈ statement.groups, ref.Identified
  orders : ∀ ref ∈ statement.orders, ref.Identified
  orders_eq_nil_iff : statement.orders = [] ↔ statement.groups = []

/-- Line ends have no tokens. -/
theorem sqlTokens_lines (lines : List String) :
    sqlTokens (String.intercalate "\n" lines) = lines.flatMap sqlTokens := by
  have hline : Parting "\n" := by decide
  cases lines with
  | nil => rfl
  | cons first others =>
      rw [hline.sqlTokens_intercalate, List.flatMap_cons]
      rfl

theorem sqlTokens_listed {α : Type} (write : α → String) (first : α) (others : List α) :
    sqlTokens (Statement.listed ((first :: others).map write)) =
      sqlTokens (write first) ++ others.flatMap fun other => comma :: sqlTokens (write other) :=
  sqlTokens_separated (by decide) sqlTokens_comma write first others

theorem head?_of_mem_written_mul {text : String} {start : SqlToken} {tokens : List SqlToken}
    {language : SqlLanguage} (hstart : (sqlTokens text).head? = some start)
    (h : tokens ∈ written text * language) : tokens.head? = some start := by
  obtain ⟨rest, -, rfl⟩ := mem_written_mul.1 h
  rw [List.head?_append, hstart]
  rfl

theorem fits_restriction (h : ∀ condition ∈ statement.conditions, condition.ref.Identified) :
    Fits SqlLanguage.restriction [.word "WHERE".toList, SqlToken.and]
      (statement.restriction.flatMap sqlTokens)
      (∀ condition ∈ statement.conditions, ∀ ref ∈ condition.refs, ref.Undotted) := by
  have hstart : (sqlTokens "WHERE").head? = some (.word "WHERE".toList) := rfl
  cases hconditions : statement.conditions with
  | nil =>
      have hline : statement.restriction = [] := if_pos hconditions
      rw [hline]
      exact (fits_omitted fun _ => head?_of_mem_written_mul hstart).congr (by simp)
  | cons first others =>
      have hline : statement.restriction.flatMap sqlTokens = sqlTokens "WHERE" ++
          (sqlTokens first.text ++
            others.flatMap fun other => SqlToken.and :: sqlTokens other.text) := by
        rw [Statement.restriction, if_neg (by simp [hconditions]), List.flatMap_singleton,
          sqlTokens_append_of_ending (by decide), Statement.conditionText, hconditions,
          sqlTokens_separated (by decide) sqlTokens_and]
        rfl
      rw [hconditions] at h
      rw [hline]
      exact fits_present (fits_behind "WHERE"
        (fits_listed List.not_mem_nil fun condition hmem => fits_condition (h condition hmem))) rfl

theorem fits_columns {refs : List ColumnRef} (hne : refs ≠ []) (h : ∀ ref ∈ refs, ref.Identified) :
    Fits (listed comma column) [comma, point]
      (sqlTokens (Statement.listed (refs.map ColumnRef.text))) (∀ ref ∈ refs, ref.Undotted) := by
  obtain ⟨first, others, rfl⟩ := List.exists_cons_of_ne_nil hne
  rw [sqlTokens_listed]
  exact fits_listed (by decide) fun ref href => fits_column (h ref href)

theorem fits_grouping (h : statement.Identified) :
    Fits SqlLanguage.grouping [.word "GROUP".toList, comma, point]
      (statement.closing.flatMap sqlTokens)
      (∀ ref ∈ statement.groups ++ statement.orders, ref.Undotted) := by
  have hstart : (sqlTokens "GROUP BY").head? = some (.word "GROUP".toList) := rfl
  by_cases hgroups : statement.groups = []
  · have horders := h.orders_eq_nil_iff.2 hgroups
    have hlines : statement.closing = [] := by simp [Statement.closing, hgroups]
    rw [hlines, hgroups, horders]
    exact (fits_omitted fun _ => head?_of_mem_written_mul hstart).congr (by simp)
  · have horders : statement.orders ≠ [] := fun hnil => hgroups (h.orders_eq_nil_iff.1 hnil)
    have hlines : statement.closing.flatMap sqlTokens = sqlTokens "GROUP BY" ++
        (sqlTokens (Statement.listed (statement.groups.map ColumnRef.text)) ++
          (sqlTokens "ORDER BY" ++
            sqlTokens (Statement.listed (statement.orders.map ColumnRef.text)))) := by
      rw [Statement.closing, if_neg (by simpa using hgroups), List.flatMap_cons,
        List.flatMap_singleton, sqlTokens_append_of_ending (by decide),
        sqlTokens_append_of_ending (by decide), List.append_assoc]
      rfl
    rw [hlines]
    exact (fits_present (fits_behind "GROUP BY"
      (fits_before "ORDER BY" (fits_columns hgroups h.groups)
      (fits_columns horders h.orders) (by decide) (by decide))) rfl).congr
        List.forall_mem_append.symm

theorem clear_restriction {blocked rest : List SqlToken} (hstart : .word "WHERE".toList ∉ blocked)
    (h : Clear blocked rest) :
    Clear blocked (statement.restriction.flatMap sqlTokens ++ rest) := by
  unfold Statement.restriction
  split
  · exact h
  · rw [List.flatMap_singleton, sqlTokens_append_of_ending (by decide), List.append_assoc]
    exact clear_cons_iff.2 hstart

theorem clear_closing {blocked : List SqlToken} (hstart : .word "GROUP".toList ∉ blocked) :
    Clear blocked (statement.closing.flatMap sqlTokens) := by
  unfold Statement.closing
  split
  · exact clear_nil
  · rw [List.flatMap_cons, sqlTokens_append_of_ending (by decide), List.append_assoc]
    exact clear_cons_iff.2 hstart

theorem clearAll_grouping {blocked : List SqlToken} (hstart : .word "GROUP".toList ∉ blocked) :
    ClearAll blocked grouping := by
  rw [← mul_one grouping]
  refine clearAll_omissible_mul (fun _ => head?_of_mem_written_mul rfl) hstart ?_
  rintro tokens rfl
  exact clear_nil

/-- What follows the facts: the joins, the conditions and the groups. -/
theorem mem_tail_iff (h : statement.Identified) :
    (statement.joins.flatMap fun join => left :: join.clause) ++
        (statement.restriction.flatMap sqlTokens ++ statement.closing.flatMap sqlTokens) ∈
      (exactly left * SqlLanguage.join)∗ * (SqlLanguage.restriction * grouping) ↔
    (∀ join ∈ statement.joins, join.Undotted) ∧
      (∀ condition ∈ statement.conditions, ∀ ref ∈ condition.refs, ref.Undotted) ∧
      ∀ ref ∈ statement.groups ++ statement.orders, ref.Undotted := by
  have hgrouping : statement.closing.flatMap sqlTokens ∈ grouping ↔
      ∀ ref ∈ statement.groups ++ statement.orders, ref.Undotted := by
    have hone : ClearAll [.word "GROUP".toList, comma, point] 1 := by
      rintro tokens rfl
      exact clear_nil
    have hall := fits_grouping h clear_nil hone
    rw [List.append_nil, mul_one] at hall
    rw [hall]
    exact and_iff_left rfl
  rw [fits_others (by decide) (fun join hjoin => fits_join (h.joins join hjoin)),
    fits_restriction h.conditions (clear_closing (by decide)) (clearAll_grouping (by decide)),
    hgrouping]
  · exact clear_restriction (by decide) (clear_closing (by decide))
  · exact clearAll_omissible_mul (fun _ => head?_of_mem_written_mul rfl) (by decide)
      (clearAll_grouping (by decide))

/-- The tokens of a statement. -/
theorem Statement.Identified.sqlTokens_text (h : statement.Identified) :
    sqlTokens statement.text = sqlTokens "SELECT" ++
      (sqlTokens (Statement.listed (statement.columns.map OutputColumn.text)) ++
        (sqlTokens "FROM" ++ (sqlTokens statement.factTable ++ (sqlTokens "fact" ++
          ((statement.joins.flatMap fun join => left :: join.clause) ++
            (statement.restriction.flatMap sqlTokens ++
              statement.closing.flatMap sqlTokens)))))) := by
  have hjoins : (statement.joins.map Join.text).flatMap sqlTokens =
      statement.joins.flatMap fun join => left :: join.clause := by
    rw [List.flatMap_map]
    exact List.flatMap_congr fun join hjoin => (h.joins join hjoin).sqlTokens_text
  have hblank : Parting " " := by decide
  rw [Statement.text, sqlTokens_lines, Statement.lines_eq, Statement.opening, List.flatMap_append,
    List.flatMap_append, List.flatMap_cons, List.flatMap_cons, hjoins, hblank.sqlTokens_append,
    sqlTokens_append_of_ending (by decide), sqlTokens_append_of_ending (by decide)]
  simp only [List.append_assoc]
  rfl

/-- No item starts with two words, so that a statement that selects nothing has no item where one is
expected. -/
theorem words_not_mem_item_mul {first second : List Char} {rest : List SqlToken}
    {language : SqlLanguage} : .word first :: .word second :: rest ∉ item * language := by
  rw [item, mul_assoc, add_mul, Language.mem_add, not_or]
  constructor
  · intro hmem
    obtain ⟨aggregation, found, -, heq⟩ := mem_aggregate_mul.1 hmem
    obtain ⟨letters, others, hopening⟩ := exists_sqlTokens_opening aggregation
    rw [hopening] at heq
    cases heq
  · intro hmem
    obtain ⟨_, _, heq⟩ := exists_of_mem_column_mul hmem
    cases heq

theorem Statement.forall_mem_refs_iff {holds : ColumnRef → Prop} :
    (∀ ref ∈ statement.refs, holds ref) ↔
      (∀ column ∈ statement.columns, holds column.ref) ∧
      (∀ join ∈ statement.joins, holds join.factKey ∧ holds join.keyColumn) ∧
      (∀ condition ∈ statement.conditions, ∀ ref ∈ condition.refs, holds ref) ∧
      ∀ ref ∈ statement.groups ++ statement.orders, holds ref := by
  simp only [refs, List.forall_mem_append, List.forall_mem_map, List.forall_mem_flatMap,
    List.forall_mem_cons, List.not_mem_nil, false_implies, implies_true, and_true, and_assoc]

/-- A statement is a sentence just if it selects something and no label, alias or column has
points. -/
theorem Statement.Identified.isSentence_iff (h : statement.Identified) :
    IsSentence statement.text ↔ statement.columns ≠ [] ∧
      (∀ column ∈ statement.columns, StarCube.Undotted column.label) ∧
      ∀ ref ∈ statement.refs, ref.Undotted := by
  obtain ⟨table, others, -, -, htable, -⟩ := h.factTable.exists_sqlTokens
  rw [IsSentence, h.sqlTokens_text, SqlLanguage.statement, append_mem_written_mul,
    Statement.forall_mem_refs_iff]
  cases hcolumns : statement.columns with
  | nil =>
      have hnone (tail : List SqlToken) (language : SqlLanguage) :
          sqlTokens (Statement.listed []) ++
            (sqlTokens "FROM" ++ (sqlTokens statement.factTable ++ tail)) ∉
            SqlLanguage.listed comma item * language := by
        rw [htable, SqlLanguage.listed, mul_assoc]
        exact words_not_mem_item_mul
      simp [hnone]
  | cons first more =>
      have hitems := h.columns
      rw [hcolumns] at hitems
      have hjoins : (∀ join ∈ statement.joins, join.Undotted) ↔
          ∀ join ∈ statement.joins, join.factKey.Undotted ∧ join.keyColumn.Undotted :=
        forall₂_congr fun _ _ => ⟨fun h => ⟨h.1, h.2⟩, fun h => ⟨h.1, h.2⟩⟩
      have houtputs : (∀ column ∈ first :: more, column.Undotted) ↔
          (∀ column ∈ first :: more, StarCube.Undotted column.label) ∧
            ∀ column ∈ first :: more, column.ref.Undotted :=
        ⟨fun h => ⟨fun c hc => (h c hc).label, fun c hc => (h c hc).ref⟩,
          fun h c hc => ⟨h.2 c hc, h.1 c hc⟩⟩
      rw [sqlTokens_listed, fits_listed (by decide)
        (fun column hmem => fits_item (hitems column hmem)),
        append_mem_written_mul, fits_table h.factTable (clear_append (by decide) (by decide))
          (clearAll_written_mul (by decide) (by decide)),
        append_mem_written_mul, mem_tail_iff h, hjoins, houtputs]
      · simp only [ne_eq, reduceCtorEq, not_false_eq_true, true_and, and_assoc]
      · exact clear_append (by decide) (by decide)
      · exact clearAll_written_mul (by decide) (by decide)

end Lines

end StarCube
