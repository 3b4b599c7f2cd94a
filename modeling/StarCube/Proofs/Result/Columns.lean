import StarCube.Proofs.Keyed
import StarCube.Proofs.Result.Cells

/-!
From the columns of a result to those of its table. The cells of a row travel under the labels of
the statement, which a store may return in another letter case, and a cell is then found by its
label where letter case does not count. That puts every cell where it belongs as long as no two
labels are the same up to letter case, and this is more than the compiler asks for.
-/

namespace StarCube

theorem Char.ascii_facts {c : Char} (h : c.toNat < 128) :
    c.toLower.toNat < 128 ∧ c.toUpper.toNat < 128 ∧ c.toUpper.toLower = c.toLower ∧
      c.toLower.toUpper = c.toUpper := by
  have hall : ∀ n < 128, (Char.ofNat n).toLower.toNat < 128 ∧ (Char.ofNat n).toUpper.toNat < 128 ∧
      (Char.ofNat n).toUpper.toLower = (Char.ofNat n).toLower ∧
      (Char.ofNat n).toLower.toUpper = (Char.ofNat n).toUpper := by decide +kernel
  have hc := hall c.toNat h
  rwa [Char.ofNat_toNat] at hc

/-- A text of ASCII characters. -/
def Ascii (text : String) : Prop :=
  ∀ c ∈ text.toList, c.toNat < 128

theorem Ascii.lowerCase_eq_iff {left right : String} (hleft : Ascii left) (hright : Ascii right) :
    Text.lowerCase left = Text.lowerCase right ↔ SameLetters left right := by
  rw [← String.toList_inj, Text.toList_lowerCase hleft, Text.toList_lowerCase hright, SameLetters]

/-- The letter case in which a store returns a label. -/
inductive LetterCase where
  | written
  | small
  | capital
deriving DecidableEq, Repr

namespace LetterCase

/-- A label of ASCII characters in a letter case. -/
def spell (letterCase : LetterCase) (label : String) : String :=
  match letterCase with
  | .written => label
  | .small => Text.lowerCase label
  | .capital => String.ofList (label.toList.map Char.toUpper)

variable {letterCase : LetterCase} {label other : String}

theorem ascii_spell (h : Ascii label) : Ascii (letterCase.spell label) := by
  cases letterCase with
  | written => exact h
  | small =>
      intro c hc
      rw [spell, Text.toList_lowerCase h] at hc
      obtain ⟨before, hbefore, rfl⟩ := List.mem_map.1 hc
      exact (Char.ascii_facts (h before hbefore)).1
  | capital =>
      intro c hc
      rw [spell, String.toList_ofList] at hc
      obtain ⟨before, hbefore, rfl⟩ := List.mem_map.1 hc
      exact (Char.ascii_facts (h before hbefore)).2.1

/-- In any letter case a label stays the same up to letter case. -/
theorem sameLetters_spell (h : Ascii label) : SameLetters (letterCase.spell label) label := by
  cases letterCase with
  | written => exact SameLetters.refl label
  | small =>
      rw [SameLetters, spell, Text.toList_lowerCase h, List.map_map]
      exact List.map_congr_left fun c _ => Char.toLower_toLower c
  | capital =>
      rw [SameLetters, spell, String.toList_ofList, List.map_map]
      exact List.map_congr_left fun c hc => (Char.ascii_facts (h c hc)).2.2.1

/-- A store that folds letter case returns one text for labels that are the same up to it. -/
theorem spell_eq_of_sameLetters (hfolds : letterCase ≠ .written) (h : Ascii label)
    (hother : Ascii other) (hsame : SameLetters label other) :
    letterCase.spell label = letterCase.spell other := by
  cases letterCase with
  | written => exact absurd rfl hfolds
  | small => exact (h.lowerCase_eq_iff hother).2 hsame
  | capital =>
      have hupper {text : String} (htext : Ascii text) :
          text.toList.map Char.toUpper = (text.toList.map Char.toLower).map Char.toUpper := by
        rw [List.map_map]
        exact List.map_congr_left fun c hc => (Char.ascii_facts (htext c hc)).2.2.2.symm
      rw [spell, spell, hupper h, hupper hother, hsame]

end LetterCase

namespace Row

variable {columns : List String} {cells : List Value} {row : Row} {label : String}

theorem ofCells_of_nodup (hcolumns : columns.Nodup) (hlength : columns.length = cells.length) :
    ofCells columns cells = columns.zip cells := by
  have hkeys : Keyed.keys (columns.zip cells) = columns := List.map_fst_zip (Nat.le_of_eq hlength)
  have hnodup : (Keyed.keys ([] : Row) ++ Keyed.keys (columns.zip cells)).Nodup := by
    rw [hkeys]
    exact hcolumns
  rw [ofCells, Keyed.putAll_of_nodup hnodup, List.nil_append]

theorem mem_columns_of_ofCells {entry : String × Value} (h : entry ∈ ofCells columns cells) :
    entry.1 ∈ columns := by
  rcases Keyed.mem_keys_putAll (List.mem_map_of_mem h) with hnone | hkey
  · simp [Keyed.keys] at hnone
  · obtain ⟨pair, hpair, heq⟩ := List.mem_map.1 hkey
    rw [← heq]
    exact (List.of_mem_zip hpair).1

/-- The cell of a column that is there by its name. -/
theorem cell_of_mem (hnodup : row.keys.Nodup) {entry : String × Value} (h : entry ∈ row) :
    row.cell entry.1 = entry.2 := by
  rw [cell, Keyed.get?_of_nodup hnodup h]

/-- Where the columns differ by more than letter case, a cell is that of the one column which is the
label up to letter case. -/
theorem cell_of_sameLetters (hascii : ∀ entry ∈ row, Ascii entry.1)
    (hapart : row.Pairwise fun left right => ¬ SameLetters left.1 right.1) {entry : String × Value}
    (h : entry ∈ row) (hlabel : Ascii label) (hsame : SameLetters entry.1 label) :
    row.cell label = entry.2 := by
  have hunique : ∀ other ∈ row, SameLetters other.1 label → other = entry := by
    intro other hother hlike
    by_contra hne
    have hsymm : Std.Symm fun left right : String × Value => ¬ SameLetters left.1 right.1 :=
      ⟨fun _ _ hnot hback => hnot hback.symm⟩
    exact hapart.forall hother h hne (hlike.trans hsame.symm)
  rw [cell]
  cases hget : row.get? label with
  | some value => rw [← hunique _ (Keyed.mem_of_get? hget) (SameLetters.refl label)]
  | none =>
      have hfound : (Text.lowerCase entry.1 == Text.lowerCase label) = true := by
        rw [beq_iff_eq]
        exact ((hascii entry h).lowerCase_eq_iff hlabel).2 hsame
      cases hfind : row.find? fun entry => Text.lowerCase entry.1 == Text.lowerCase label with
      | none => exact absurd hfound (List.find?_eq_none.1 hfind entry h)
      | some other =>
          have hother := List.mem_of_find?_eq_some hfind
          have hlike : Text.lowerCase other.1 = Text.lowerCase label := by
            simpa using List.find?_some hfind
          rw [← hunique other hother (((hascii other hother).lowerCase_eq_iff hlabel).1 hlike)]

/-- A row as a store returns it that folds the letter case of its columns. -/
def Folded (letterCase : LetterCase) (row : Row) : Prop :=
  ∀ entry ∈ row, ∃ label, Ascii label ∧ entry.1 = letterCase.spell label

/-- Of a folded row the cell of a label is that of the folded label. -/
theorem Folded.cell_eq {letterCase : LetterCase} (h : row.Folded letterCase)
    (hfolds : letterCase ≠ .written) (hlabel : Ascii label) :
    row.cell label = (row.get? (letterCase.spell label)).getD .null := by
  -- A folded column that is the label up to letter case is the folded label.
  have hfolded : ∀ entry ∈ row, Text.lowerCase entry.1 = Text.lowerCase label ↔
      entry.1 = letterCase.spell label := by
    intro entry hentry
    obtain ⟨before, hbefore, heq⟩ := h entry hentry
    have hspelled : SameLetters (letterCase.spell before) before :=
      LetterCase.sameLetters_spell hbefore
    have hascii : Ascii entry.1 := heq ▸ LetterCase.ascii_spell hbefore
    rw [hascii.lowerCase_eq_iff hlabel, heq]
    constructor
    · intro hsame
      exact LetterCase.spell_eq_of_sameLetters hfolds hbefore hlabel (hspelled.symm.trans hsame)
    · intro hsame
      rw [hsame]
      exact LetterCase.sameLetters_spell hlabel
  rw [cell]
  cases hget : row.get? label with
  | some value =>
      have hself : label = letterCase.spell label := (hfolded _ (Keyed.mem_of_get? hget)).1 rfl
      rw [← hself, hget]
      rfl
  | none =>
      have hfind : row.find? (fun entry => Text.lowerCase entry.1 == Text.lowerCase label) =
          row.find? fun entry => entry.1 == letterCase.spell label := by
        rw [← List.head?_filter, ← List.head?_filter]
        apply congrArg List.head?
        apply List.filter_congr
        intro entry hentry
        rw [Bool.eq_iff_iff, beq_iff_eq, beq_iff_eq]
        exact hfolded entry hentry
      rw [Keyed.get?_eq_find?, hfind]
      cases row.find? fun entry => entry.1 == letterCase.spell label <;> rfl

theorem folded_ofCells {letterCase : LetterCase} {labels : List String}
    (hlabels : ∀ label ∈ labels, Ascii label) (cells : List Value) :
    (ofCells (labels.map letterCase.spell) cells).Folded letterCase := by
  intro entry hentry
  obtain ⟨label, hlabel, heq⟩ := List.mem_map.1 (mem_columns_of_ofCells hentry)
  exact ⟨label, hlabels label hlabel, heq.symm⟩

end Row

namespace Statement

/-- The labels of the columns. -/
def labels (statement : Statement) : List String :=
  statement.columns.map OutputColumn.label

end Statement

namespace Query

/-- The cells of a row that are those of the levels of a select list, in order. -/
def levelCells (query : Query) (cells : List Value) : List Value :=
  (query.select.zip cells).filterMap fun entry => entry.1.level?.map fun _ => entry.2

/-- The cells of a row that are those of the measures of a select list, in order. -/
def measureCells (query : Query) (cells : List Value) : List Value :=
  (query.select.zip cells).filterMap fun entry => entry.1.measure?.map fun _ => entry.2

/-- The cells of a row as a table shows them, those of levels first. -/
def arranged (query : Query) (cells : List Value) : List Value :=
  query.levelCells cells ++ query.measureCells cells

/-- A result with these columns and rows is shaped to a table of all of its rows in their order,
which lists the labels of the levels and of the measures and has every cell at the place of its
label. -/
def Tabulates (query : Query) (cube : Cube) (columns : List String) (data : List (List Value)) :
    Prop :=
  ∃ table, query.table cube (QueryResult.mk columns data).rows = .ok table ∧
    table.dimensions = query.levels.map LevelRef.label ∧ table.measures = query.measures ∧
    table.data = data.map query.arranged

/-- Every row has a cell for each item of the select list. -/
def FullWidth (query : Query) (data : List (List Value)) : Prop :=
  ∀ cells ∈ data, cells.length = query.select.length

/-- The cells of levels may be members of a set. -/
def Collects (query : Query) (data : List (List Value)) : Prop :=
  ∀ cells ∈ data, ∀ value ∈ query.levelCells cells, value.isMember = true

instance (query : Query) (data : List (List Value)) : Decidable (query.Collects data) :=
  inferInstanceAs
    (Decidable (∀ cells ∈ data, ∀ value ∈ query.levelCells cells, value.isMember = true))

end Query

/-- No two labels are the same up to letter case. -/
def LettersApart (labels : List String) : Prop :=
  labels.Pairwise fun left right => ¬ SameLetters left right

/-- Columns that are labels, each in some letter case. -/
def Spelled (labels columns : List String) : Prop :=
  List.Forall₂ (fun label column => ∃ letterCase : LetterCase, column = letterCase.spell label)
    labels
    columns

/-- What stands beside an element stands beside what is related to it. -/
theorem exists_mem_zip_of_forall₂ {α β γ : Type} {related : α → β → Prop} {list : List α}
    {others : List β} (h : List.Forall₂ related list others) {values : List γ} {entry : α × γ}
    (hentry : entry ∈ list.zip values) :
    ∃ other, (other, entry.2) ∈ others.zip values ∧ related entry.1 other := by
  induction h generalizing values with
  | nil => simp at hentry
  | @cons first other list others hfirst _ ih =>
      cases values with
      | nil => simp at hentry
      | cons value rest =>
          rw [List.zip_cons_cons, List.mem_cons] at hentry
          rcases hentry with rfl | hentry
          · exact ⟨other, List.mem_cons_self, hfirst⟩
          · obtain ⟨found, hfound, hrelated⟩ := ih hentry
            exact ⟨found, List.mem_cons_of_mem _ hfound, hrelated⟩

section Tables

variable {query : Query} {cube : Cube}

/-- The labels of the levels and of the measures, looked up where each item has its cell, give the
cells of the levels and of the measures. -/
theorem Query.arranged_of_lookup {lookup : String → Value} {cells : List Value}
    (h : List.Forall₂ (fun item cell => lookup (SelectItem.label item) = cell) query.select cells) :
    (query.levels.map LevelRef.label).map lookup = query.levelCells cells ∧
      query.measures.map lookup = query.measureCells cells := by
  obtain ⟨select, name, conditions⟩ := query
  rw [levels, measures, levelCells, measureCells]
  change List.Forall₂ _ select cells at h
  dsimp only
  induction h with
  | nil => exact ⟨rfl, rfl⟩
  | @cons item cell select cells hcell _ ih =>
      cases item with
      | measure name => exact ⟨ih.1, congrArg₂ List.cons hcell ih.2⟩
      | level ref => exact ⟨congrArg₂ List.cons hcell ih.1, ih.2⟩

/-- A row has its cells where the labels of the items are looked up. -/
def Row.Holds (row : Row) (query : Query) (cells : List Value) : Prop :=
  List.Forall₂ (fun item cell => row.cell item.label = cell) query.select cells

theorem Query.map_name_of_measuresOf {measures : List Measure}
    (h : query.measuresOf cube = .ok measures) : measures.map Measure.name = query.measures := by
  rw [← List.forall₂_eq_eq_eq, List.forall₂_map_left_iff]
  refine (Except.forall₂_of_mapM h).flip.imp fun measure name hmeasure => ?_
  have hfound := Cube.requireMeasure_eq_ok_iff.1 (Except.mapError_eq_ok_iff.1 hmeasure)
  simpa using List.find?_some hfound

/-- What a table shows is looked up row by row, by the labels of the levels and of the measures. -/
theorem Query.table_eq_ok {rows : List Row} {table : ResultTable}
    (h : query.table cube rows = .ok table) :
    table.dimensions = query.levels.map LevelRef.label ∧ table.measures = query.measures ∧
      table.data = rows.map fun row =>
        (query.levels.map LevelRef.label).map row.cell ++ query.measures.map row.cell := by
  obtain ⟨measures, hmeasures, h⟩ := Except.bind_eq_ok_iff.1 h
  obtain ⟨members, -, h⟩ := Except.bind_eq_ok_iff.1 h
  obtain rfl := Except.pure_eq_ok_iff.1 h
  have hnames := map_name_of_measuresOf hmeasures
  refine ⟨rfl, hnames, ?_⟩
  simp only [hnames, List.map_append]

/-- Rows are shaped to a table if every cell of a level may be a member of a set. -/
theorem Query.exists_table_iff {statement : Statement}
    (hstatement : query.statement cube = .ok statement)
    {rows : List Row} : (∃ table, query.table cube rows = .ok table) ↔
      ∀ ref ∈ query.levels, ∀ row ∈ rows, (row.cell ref.label).isMember = true := by
  constructor
  · rintro ⟨table, htable⟩ ref href row hrow
    by_contra hcell
    rw [Bool.not_eq_true] at hcell
    have hforeign := (foreign_table_iff hstatement).2 ⟨ref, href, row, hrow, hcell⟩
    rw [htable] at hforeign
    exact not_foreign_ok table hforeign
  · intro hmembers
    obtain ⟨measures, hmeasures⟩ := measuresOf_eq_ok hstatement
    have hfound : ∃ members, (query.levels.map LevelRef.label).mapM (fun label =>
        ResultTable.membersOf (rows.map (·.cell label)) >>= fun found => pure (label, found)) =
          (.ok members : Except Failure _) := by
      apply Except.exists_mapM_eq_ok
      rw [List.forall_mem_map]
      intro ref href
      rcases ResultTable.raw_labeled ref.label (rows.map (·.cell ref.label)) with hforeign | hok
      · obtain ⟨value, hvalue, hbad⟩ := ResultTable.foreign_labeled_iff.1 hforeign
        obtain ⟨row, hrow, rfl⟩ := List.mem_map.1 hvalue
        rw [hmembers ref href row hrow] at hbad
        exact absurd hbad (by simp)
      · exact hok
    obtain ⟨members, hmembersOk⟩ := hfound
    exact ⟨_, Except.bind_eq_ok_iff.2 ⟨measures, hmeasures, Except.bind_eq_ok_iff.2
      ⟨members, hmembersOk, rfl⟩⟩⟩

/-- A table shows the cells of a result where they are looked up rightly. -/
theorem Query.tabulates_iff_collects {statement : Statement}
    (hstatement : query.statement cube = .ok statement) {columns : List String}
    {data : List (List Value)}
    (hholds : ∀ cells ∈ data, (Row.ofCells columns cells).Holds query cells) :
    query.Tabulates cube columns data ↔ query.Collects data := by
  have hcells : (∃ table, query.table cube (QueryResult.mk columns data).rows = .ok table) ↔
      query.Collects data := by
    rw [exists_table_iff hstatement]
    constructor
    · intro hmembers cells hrow value hvalue
      rw [← (arranged_of_lookup (hholds cells hrow)).1, List.map_map] at hvalue
      obtain ⟨ref, href, rfl⟩ := List.mem_map.1 hvalue
      exact hmembers ref href _ (List.mem_map_of_mem hrow)
    · intro hcollects ref href row hrow
      obtain ⟨cells, hcells, rfl⟩ := List.mem_map.1 hrow
      apply hcollects cells hcells
      rw [← (arranged_of_lookup (hholds cells hcells)).1, List.map_map]
      exact List.mem_map_of_mem (f := fun ref => Row.cell _ (LevelRef.label ref)) href
  rw [← hcells]
  constructor
  · rintro ⟨table, htable, -⟩
    exact ⟨table, htable⟩
  · rintro ⟨table, htable⟩
    obtain ⟨hdimensions, hmeasures, hdata⟩ := table_eq_ok htable
    refine ⟨table, htable, hdimensions, hmeasures, ?_⟩
    rw [hdata, QueryResult.rows, List.map_map]
    apply List.map_congr_left
    intro cells hrow
    obtain ⟨hlevels, hrest⟩ := arranged_of_lookup (hholds cells hrow)
    exact congrArg₂ (· ++ ·) hlevels hrest

/-- The labels of a statement are those of the items, all different and of ASCII characters. -/
theorem Query.labels_of_statement {statement : Statement}
    (hstatement : query.statement cube = .ok statement) :
    statement.labels = query.select.map SelectItem.label ∧ statement.labels.Nodup ∧
      ∀ label ∈ statement.labels, Ascii label := by
  obtain ⟨items, hitems, -⟩ := Except.bind_eq_ok_iff.1 hstatement
  have hnodup := (Cube.resolveItems_eq_ok_iff.1 hitems).2.1
  obtain ⟨items, conditions, hresolves, rfl⟩ := resolves_of_statement hstatement
  have hlabels : (Statement.ofResolved items conditions cube.factTable).labels =
      query.select.map SelectItem.label := by
    rw [← hresolves.map_label_eq, Statement.labels, Statement.ofResolved, List.map_map]
    rfl
  refine ⟨hlabels, hlabels ▸ hnodup, ?_⟩
  rw [hlabels, List.forall_mem_map]
  intro item hitem
  obtain ⟨resolved, -, hitem⟩ := exists_of_forall₂ hresolves.items hitem
  exact hitem.isIdentifier_label.ascii

section Stores

variable {columns : List String} {cells : List Value}

/-- A row holds its cells if each column can be looked up by the label of its item. -/
theorem Row.holds_of_zip (hlength : cells.length = query.select.length)
    (hcell : ∀ entry ∈ (query.select.map SelectItem.label).zip cells,
      (Row.ofCells columns cells).cell entry.1 = entry.2) :
    (Row.ofCells columns cells).Holds query cells := by
  rw [Holds, List.forall₂_iff_zip]
  refine ⟨hlength.symm, fun {item cell} hmem => ?_⟩
  apply hcell (item.label, cell)
  rw [List.zip_map_left]
  exact List.mem_map.2 ⟨(item, cell), hmem, rfl⟩

/-- A store that returns the labels as they are written. -/
theorem Row.holds_written (hnodup : (query.select.map SelectItem.label).Nodup)
    (hlength : cells.length = query.select.length) :
    (Row.ofCells (query.select.map SelectItem.label) cells).Holds query cells := by
  have hwidth : (query.select.map SelectItem.label).length = cells.length := by
    rw [List.length_map, hlength]
  apply holds_of_zip hlength
  intro entry hentry
  rw [ofCells_of_nodup hnodup hwidth]
  apply cell_of_mem _ hentry
  rwa [Keyed.keys, List.map_fst_zip (Nat.le_of_eq hwidth)]

theorem Spelled.sameLetters {labels columns : List String} (h : Spelled labels columns)
    (hascii : ∀ label ∈ labels, Ascii label) :
    List.Forall₂ (fun label column => Ascii column ∧ SameLetters column label) labels columns := by
  induction h with
  | nil => exact .nil
  | cons hfirst _ ih =>
      rw [List.forall_mem_cons] at hascii
      obtain ⟨letterCase, rfl⟩ := hfirst
      exact .cons ⟨LetterCase.ascii_spell hascii.1, LetterCase.sameLetters_spell hascii.1⟩
        (ih hascii.2)

/-- Columns are told apart as the labels are, for that takes no account of letter case. -/
theorem Spelled.apart {labels : List String} (h : Spelled labels columns)
    (hascii : ∀ label ∈ labels, Ascii label) (hapart : LettersApart labels) :
    LettersApart columns := by
  have hlower : columns.map (fun column => column.toList.map Char.toLower) =
      labels.map fun label => label.toList.map Char.toLower := by
    rw [← List.forall₂_eq_eq_eq, List.forall₂_map_left_iff, List.forall₂_map_right_iff]
    exact (h.sameLetters hascii).flip.imp fun _ _ hsame => hsame.2
  have hnodup : (columns.map fun column => column.toList.map Char.toLower).Nodup := by
    rw [hlower]
    exact List.pairwise_map.2 hapart
  exact List.pairwise_map.1 hnodup

/-- A store that returns each label in some letter case, where no two labels are the same up to
it. -/
theorem Row.holds_spelled (hapart : LettersApart (query.select.map SelectItem.label))
    (hascii : ∀ label ∈ query.select.map SelectItem.label, Ascii label)
    (hcolumns : Spelled (query.select.map SelectItem.label) columns)
    (hlength : cells.length = query.select.length) :
    (Row.ofCells columns cells).Holds query cells := by
  have hsame := hcolumns.sameLetters hascii
  have happart := hcolumns.apart hascii hapart
  have hnodup : columns.Nodup := by
    apply happart.imp
    rintro column other hnot rfl
    exact hnot (SameLetters.refl column)
  have hwidth : columns.length = cells.length := by
    rw [← hcolumns.length_eq, List.length_map, hlength]
  have hkeys : (columns.zip cells).map Prod.fst = columns := List.map_fst_zip (Nat.le_of_eq hwidth)
  apply holds_of_zip hlength
  intro entry hentry
  obtain ⟨column, hcolumn, -, hlike⟩ := exists_mem_zip_of_forall₂ hsame hentry
  have hlabel : Ascii entry.1 := hascii _ (List.of_mem_zip hentry).1
  have hcells : (columns.zip cells).Pairwise fun left right => ¬ SameLetters left.1 right.1 := by
    rw [← hkeys] at happart
    exact List.pairwise_map.1 happart
  have hall : ∀ other ∈ columns.zip cells, Ascii other.1 := by
    intro other hother
    obtain ⟨label, -, hother, -⟩ := exists_of_forall₂ hsame.flip (List.of_mem_zip hother).1
    exact hother
  rw [ofCells_of_nodup hnodup hwidth, cell_of_sameLetters hall hcells hcolumn hlabel hlike]

/-- A store that folds the letter case shows every cell at its place only where no two labels are
the same up to it, since both would find one cell. -/
theorem Query.apart_of_tabulates {letterCase : LetterCase} (hfolds : letterCase ≠ .written)
    (hnodup : (query.select.map SelectItem.label).Nodup)
    (hascii : ∀ label ∈ query.select.map SelectItem.label, Ascii label)
    (h : query.Tabulates cube ((query.select.map SelectItem.label).map letterCase.spell)
      [query.select.map fun item => .text item.label]) :
    LettersApart (query.select.map SelectItem.label) := by
  obtain ⟨table, htable, -, -, hdata⟩ := h
  obtain ⟨-, -, hlookups⟩ := table_eq_ok htable
  have hself :
      List.Forall₂ (fun item cell => Value.text (SelectItem.label item) = cell) query.select
      (query.select.map fun item => .text item.label) := by
    rw [List.forall₂_map_right_iff, List.forall₂_same]
    exact fun _ _ => rfl
  obtain ⟨hlevels, hmeasures⟩ := arranged_of_lookup hself
  have hrow : (Row.ofCells ((query.select.map SelectItem.label).map letterCase.spell)
      (query.select.map fun item => .text item.label)).Folded letterCase :=
    Row.folded_ofCells hascii _
  rw [hdata, QueryResult.rows, List.map_singleton, List.map_singleton, List.map_singleton,
    List.singleton_inj, arranged, ← hlevels, ← hmeasures, ← List.map_append, ← List.map_append,
    List.map_inj_left] at hlookups
  generalize Row.ofCells ((query.select.map SelectItem.label).map letterCase.spell)
    (query.select.map fun item => .text item.label) = row at hrow hlookups
  have hfound : ∀ label ∈ query.select.map SelectItem.label, row.cell label = .text label := by
    rw [List.forall_mem_map]
    intro item hitem
    apply Eq.symm
    apply hlookups
    rw [List.mem_append]
    cases item with
    | measure name => exact .inr (List.mem_filterMap.2 ⟨_, hitem, rfl⟩)
    | level ref =>
        exact .inl
          (List.mem_map_of_mem (f := LevelRef.label) (List.mem_filterMap.2 ⟨_, hitem, rfl⟩))
  refine hnodup.imp_of_mem fun {label other} hlabel hother hne hsame => hne ?_
  have hcells : row.cell label = row.cell other := by
    rw [hrow.cell_eq hfolds (hascii label hlabel), hrow.cell_eq hfolds (hascii other hother),
      LetterCase.spell_eq_of_sameLetters hfolds (hascii label hlabel) (hascii other hother) hsame]
  rw [hfound label hlabel, hfound other hother] at hcells
  exact Value.text.inj hcells

end Stores

end Tables

/-- The rows of a result are shaped to a table with every cell at its place, unless a cell of a
level can be no member of a set. That holds of every store which returns the labels as they are
written. Of a store which folds their letter case it holds just if no two labels are the same up to
it, and then it does not matter either which letter case the store chooses for which label. -/
theorem Query.tabulates_iff {query : Query} {cube : Cube} {statement : Statement}
    (hstatement : query.statement cube = .ok statement) :
    (∀ data, query.FullWidth data →
      (query.Tabulates cube statement.labels data ↔ query.Collects data)) ∧
    (∀ letterCase : LetterCase, letterCase ≠ .written →
      ((∀ data, query.FullWidth data →
        (query.Tabulates cube (statement.labels.map letterCase.spell) data ↔ query.Collects data)) ↔
          LettersApart statement.labels)) ∧
    (LettersApart statement.labels → ∀ columns, Spelled statement.labels columns →
      ∀ data, query.FullWidth data →
        (query.Tabulates cube columns data ↔ query.Collects data)) := by
  obtain ⟨hlabels, hnodup, hascii⟩ := labels_of_statement hstatement
  rw [hlabels] at hnodup hascii ⊢
  have hspelled : LettersApart (query.select.map SelectItem.label) → ∀ columns,
      Spelled (query.select.map SelectItem.label) columns →
        ∀ data, query.FullWidth data →
          (query.Tabulates cube columns data ↔ query.Collects data) := by
    intro hapart columns hcolumns data hwidth
    apply tabulates_iff_collects hstatement
    exact fun cells hcells => Row.holds_spelled hapart hascii hcolumns (hwidth cells hcells)
  refine ⟨?_, ?_, hspelled⟩
  · intro data hwidth
    apply tabulates_iff_collects hstatement
    exact fun cells hcells => Row.holds_written hnodup (hwidth cells hcells)
  · intro letterCase hfolds
    constructor
    · intro hall
      apply apart_of_tabulates hfolds hnodup hascii
      have hwidth : query.FullWidth [query.select.map fun item => .text item.label] := by
        simp [FullWidth]
      apply (hall _ hwidth).2
      intro cells hcells value hvalue
      obtain rfl := List.mem_singleton.1 hcells
      obtain ⟨⟨item, cell⟩, hentry, hlevel⟩ := List.mem_filterMap.1 hvalue
      obtain ⟨ref, -, rfl⟩ := Option.map_eq_some_iff.1 hlevel
      obtain ⟨other, -, rfl⟩ := List.mem_map.1 (List.of_mem_zip hentry).2
      rfl
    · intro hapart
      apply hspelled hapart
      rw [Spelled, List.forall₂_map_right_iff, List.forall₂_same]
      exact fun label _ => ⟨letterCase, rfl⟩

/-- The guests of each hour, which are known by name. -/
theorem Query.guestsByYearAndHour_tabulates :
    ∃ statement, (guestsByYearAndHour "Clock").statement (Cube.visits "Clock") = .ok statement ∧
      (guestsByYearAndHour "Clock").Tabulates (Cube.visits "Clock")
    ["guests", "TIME_YEAR", "Clock_Hour"]
        [[.int 12, .int 2024, .int 9], [.int 30, .int 2024, .null]] := by
  have hsome : ((guestsByYearAndHour "Clock").statement
      (Cube.visits "Clock")).toOption.isSome = true := by decide +kernel
  cases hstatement : (guestsByYearAndHour "Clock").statement (Cube.visits "Clock") with
  | error failure => simp [hstatement, Except.toOption] at hsome
  | ok statement =>
      have hlabels : statement.labels = ["Guests", "Time_Year", "Clock_Hour"] :=
        (labels_of_statement hstatement).1
      have hapart : LettersApart statement.labels := by
        rw [hlabels, LettersApart]
        decide
      have hspelled : Spelled statement.labels ["guests", "TIME_YEAR", "Clock_Hour"] := by
        rw [hlabels]
        exact .cons ⟨.small, by decide +kernel⟩ (.cons ⟨.capital, by decide⟩
          (.cons ⟨.written, rfl⟩ .nil))
      refine ⟨statement, rfl, ?_⟩
      apply ((tabulates_iff hstatement).2.2 hapart _ hspelled _ _).2
      · decide
      · simp [FullWidth, guestsByYearAndHour]

/-- Visits by two measures, whose names differ in letter case only. -/
def Cube.visitsTwice : Cube where
  name := "Visits"
  description := ""
  factTable := "visits"
  dimensions := []
  measures :=
    [⟨"Guests", "guests", .sum, .number, none⟩, ⟨"GUESTS", "all_guests", .sum, .number, none⟩]
  calculatedMembers := []

/-- Both measures of all visits. -/
def Query.guestsTwice : Query :=
  ⟨[.measure "Guests", .measure "GUESTS"], "Visits", []⟩

/-- The cube is consistent and the query compiles, but of a store that folds the labels to small
letters the table has the second cell twice. -/
theorem Query.guestsTwice_lost :
    Cube.visitsTwice.check = .ok () ∧
      ∃ statement, guestsTwice.statement Cube.visitsTwice = .ok statement ∧
        Spelled statement.labels ["guests", "guests"] ∧
        guestsTwice.FullWidth [[.int 12, .int 30]] ∧ guestsTwice.Collects [[.int 12, .int 30]] ∧
        (∃ table, guestsTwice.table Cube.visitsTwice
            (QueryResult.mk ["guests", "guests"] [[.int 12, .int 30]]).rows = .ok table ∧
          table.data = [[.int 30, .int 30]]) ∧
        ¬ guestsTwice.Tabulates Cube.visitsTwice ["guests", "guests"] [[.int 12, .int 30]] := by
  have hcheck : Cube.visitsTwice.check = .ok () := by decide +kernel
  have hsome : (guestsTwice.statement Cube.visitsTwice).toOption.isSome = true := by decide +kernel
  cases hstatement : guestsTwice.statement Cube.visitsTwice with
  | error failure => simp [hstatement, Except.toOption] at hsome
  | ok statement =>
      have hlabels : statement.labels = ["Guests", "GUESTS"] := (labels_of_statement hstatement).1
      have hfolded : Text.lowerCase "Guests" = "guests" ∧ Text.lowerCase "GUESTS" = "guests" ∧
          Text.lowerCase "guests" = "guests" := by
        decide +kernel
      have hspelled : Spelled statement.labels ["guests", "guests"] := by
        rw [hlabels]
        exact .cons ⟨.small, hfolded.1.symm⟩ (.cons ⟨.small, hfolded.2.1.symm⟩ .nil)
      have htable : ∃ table, guestsTwice.table Cube.visitsTwice
            (QueryResult.mk ["guests", "guests"] [[.int 12, .int 30]]).rows = .ok table ∧
          table.data = [[.int 30, .int 30]] := by
        have hrow : Row.ofCells ["guests", "guests"] [.int 12, .int 30] = [("guests", .int 30)] :=
          rfl
        refine ⟨_, rfl, ?_⟩
        simp [QueryResult.rows, hrow, Row.cell, Keyed.get?, List.lookup_cons, guestsTwice,
          Query.levels, SelectItem.level?, hfolded]
      refine ⟨hcheck, statement, rfl, hspelled, ?_, ?_, htable, ?_⟩
      · simp [FullWidth, guestsTwice]
      · decide
      · rintro ⟨table, hok, -, -, hdata⟩
        obtain ⟨other, hother, hcells⟩ := htable
        rw [hok, Except.ok.injEq] at hother
        rw [← hother, hdata] at hcells
        simp [arranged, levelCells, measureCells, guestsTwice, SelectItem.level?,
          SelectItem.measure?] at hcells

end StarCube
