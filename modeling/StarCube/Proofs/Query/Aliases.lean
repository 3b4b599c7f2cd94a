import Mathlib.Data.List.Pairwise
import StarCube.Cube.Schema
import StarCube.Proofs.Query.Columns

/-!
The aliases of a statement. A dimension is known by its name in small letters, so two dimensions
whose names differ in letter case only have one alias. That is the one way in which a statement over
a consistent cube can be ambiguous.
-/

namespace StarCube

theorem Char.toLower_toLower (c : Char) : c.toLower.toLower = c.toLower := by
  have hcapital : 'A'.val.toNat = 65 ∧ 'Z'.val.toNat = 90 := ⟨rfl, rfl⟩
  have hdown : ('a'.val - 'A'.val).toNat = 32 := rfl
  delta Char.toLower
  by_cases hc : c.val ≥ 'A'.val ∧ c.val ≤ 'Z'.val
  · have hrange := hc
    simp only [ge_iff_le, UInt32.le_iff_toNat_le] at hrange
    have hsmall :
        ¬ (c.val + ('a'.val - 'A'.val) ≥ 'A'.val ∧ c.val + ('a'.val - 'A'.val) ≤ 'Z'.val) := by
      simp only [ge_iff_le, UInt32.le_iff_toNat_le, UInt32.toNat_add]
      omega
    simp only [dif_pos hc, dif_neg hsmall]
  · simp only [dif_neg hc]

/-- Texts that are one name where letter case does not count. -/
def SameLetters (left right : String) : Prop :=
  left.toList.map Char.toLower = right.toList.map Char.toLower

instance (left right : String) : Decidable (SameLetters left right) :=
  inferInstanceAs (Decidable (left.toList.map Char.toLower = right.toList.map Char.toLower))

namespace SameLetters

theorem refl (text : String) : SameLetters text text :=
  rfl

theorem symm {left right : String} (h : SameLetters left right) : SameLetters right left :=
  Eq.symm h

theorem trans {left middle right : String} (h : SameLetters left middle)
    (h' : SameLetters middle right) : SameLetters left right :=
  Eq.trans h h'

theorem append_left_iff {front left right : String} :
    SameLetters (front ++ left) (front ++ right) ↔ SameLetters left right := by
  simp [SameLetters]

end SameLetters

/-- A name in small letters is the same name. -/
theorem IsIdentifier.sameLetters_lowerCase {text : String} (h : IsIdentifier text) :
    SameLetters (Text.lowerCase text) text := by
  rw [SameLetters, h.toList_lowerCase, List.map_map]
  exact List.map_congr_left fun c _ => Char.toLower_toLower c

theorem Dimension.sameLetters_tableAlias_iff {left right : Dimension}
    (hleft : IsIdentifier left.name) (hright : IsIdentifier right.name) :
    SameLetters left.tableAlias right.tableAlias ↔ SameLetters left.name right.name := by
  rw [tableAlias, tableAlias, SameLetters.append_left_iff]
  constructor
  · exact fun h => hleft.sameLetters_lowerCase.symm.trans (h.trans hright.sameLetters_lowerCase)
  · exact fun h => hleft.sameLetters_lowerCase.trans (h.trans hright.sameLetters_lowerCase.symm)

theorem Dimension.not_sameLetters_factAlias (dimension : Dimension) :
    ¬ SameLetters Statement.factAlias dimension.tableAlias := by
  intro h
  have hfirst := congrArg List.head? h
  simp [Statement.factAlias, tableAlias] at hfirst

section Check

theorem forall_of_forM {ε α : Type} {f : α → Except ε Unit} {list : List α}
    (h : list.forM f = .ok ()) : ∀ a ∈ list, f a = .ok () := by
  induction list with
  | nil => simp
  | cons first rest ih =>
      obtain ⟨⟨⟩, hfirst, hrest⟩ := Except.bind_eq_ok_iff.1 h
      exact List.forall_mem_cons.2 ⟨hfirst, ih hrest⟩

theorem isIdentifier_of_checkRole {what text : String} (h : checkRole what text = .ok ()) :
    IsIdentifier text := by
  unfold checkRole at h
  split at h
  · rename_i checked hchecked
    exact isIdentifier_of_checkIdentifier hchecked
  · simp at h

theorem Dimension.isIdentifier_name_of_check {dimension : Dimension}
    (h : dimension.check = .ok ()) : IsIdentifier dimension.name := by
  obtain ⟨⟨⟩, hname, -⟩ := Except.bind_eq_ok_iff.1 h
  exact isIdentifier_of_checkRole hname

/-- The dimensions of a consistent cube have identifiers for names. -/
theorem Cube.isIdentifier_name_of_check {cube : Cube} (h : cube.check = .ok ()) :
    ∀ dimension ∈ cube.dimensions, IsIdentifier dimension.name := by
  simp only [check] at h
  split at h
  · simp [throw, throwThe, MonadExceptOf.throw, bind, Except.bind] at h
  obtain ⟨⟨⟩, -, h⟩ := Except.bind_eq_ok_iff.1 h
  obtain ⟨⟨⟩, -, h⟩ := Except.bind_eq_ok_iff.1 h
  obtain ⟨⟨⟩, -, h⟩ := Except.bind_eq_ok_iff.1 h
  obtain ⟨⟨⟩, -, h⟩ := Except.bind_eq_ok_iff.1 h
  obtain ⟨⟨⟩, -, h⟩ := Except.bind_eq_ok_iff.1 h
  obtain ⟨⟨⟩, hdimensions, -⟩ := Except.bind_eq_ok_iff.1 h
  intro dimension hdimension
  exact Dimension.isIdentifier_name_of_check (forall_of_forM hdimensions dimension hdimension)

end Check

namespace Statement

/-- The tables of a statement, each with the alias under which it is introduced. -/
def sources (statement : Statement) : List (String × String) :=
  (factAlias, statement.factTable) :: statement.joins.map fun join => (join.tableAlias, join.table)

/-- The tables that a column may be of. -/
def denoted (statement : Statement) (ref : ColumnRef) : List String :=
  (statement.sources.filter fun source => SameLetters source.1 ref.tableAlias).map Prod.snd

/-- Each alias is introduced once, and each column that the query has for the statement is of one
table, the one that the query has it of. -/
structure Unambiguous (statement : Statement) (query : Query) (cube : Cube) : Prop where
  aliases : statement.sources.Pairwise fun left right => ¬ SameLetters left.1 right.1
  columns : ∀ ref table, query.Writes cube ref table → statement.denoted ref = [table]

/-- An alias that is introduced once denotes the table that it is introduced for. -/
theorem denoted_of_mem {statement : Statement} {ref : ColumnRef} {table : String}
    (h : statement.sources.Pairwise fun left right => ¬ SameLetters left.1 right.1)
    (hmem : (ref.tableAlias, table) ∈ statement.sources) : statement.denoted ref = [table] := by
  rw [denoted]
  revert h hmem
  induction statement.sources with
  | nil => simp
  | cons source sources ih =>
      intro h hmem
      rw [List.pairwise_cons] at h
      rcases List.mem_cons.1 hmem with rfl | hmem
      · have hnone : sources.filter (fun source => SameLetters source.1 ref.tableAlias) = [] := by
          rw [List.filter_eq_nil_iff]
          intro other hother
          simpa using fun hsame : SameLetters other.1 ref.tableAlias => h.1 other hother hsame.symm
        rw [List.filter_cons_of_pos (by simpa using SameLetters.refl _), hnone]
        rfl
      · have hother : ¬ SameLetters source.1 ref.tableAlias := h.1 _ hmem
        rw [List.filter_cons_of_neg (by simpa using hother)]
        exact ih h.2 hmem

end Statement

namespace Query

variable {query : Query} {cube : Cube} {items : List ResolvedItem}
  {conditions : List ResolvedCondition}

/-- The mentioned names differ in more than letter case. -/
def DistinctMentions (query : Query) : Prop :=
  ∀ name ∈ query.mentions, ∀ other ∈ query.mentions, SameLetters name other → name = other

instance (query : Query) : Decidable query.DistinctMentions :=
  inferInstanceAs (Decidable (∀ name ∈ query.mentions, ∀ other ∈ query.mentions,
    SameLetters name other → name = other))

theorem Resolves.pairwise_sources (h : query.Resolves cube items conditions)
    (hnames : ∀ dimension ∈ cube.dimensions, IsIdentifier dimension.name)
    (hdistinct : query.DistinctMentions) :
    (Statement.ofResolved items conditions cube.factTable).sources.Pairwise
      fun left right => ¬ SameLetters left.1 right.1 := by
  have hjoined : (Statement.mentioned items conditions).Pairwise fun left right =>
      left ≠ right := (firsts_eraseDups _).nodup
  simp only [Statement.sources, Statement.ofResolved, List.map_map, List.pairwise_cons,
    List.pairwise_map, List.forall_mem_map]
  constructor
  · exact fun dimension _ => dimension.not_sameLetters_factAlias
  · refine hjoined.imp_of_mem fun {left right} hleft hright hne hsame => ?_
    obtain ⟨hleftName, hleftFound⟩ := h.mem_mentions hleft
    obtain ⟨hrightName, hrightFound⟩ := h.mem_mentions hright
    have hidentifier {dimension : Dimension}
        (hfound : cube.dimension? dimension.name = some dimension) : IsIdentifier dimension.name :=
      hnames dimension (Cube.mem_of_dimension? hfound)
    have heq := hdistinct _ hleftName _ hrightName
      ((Dimension.sameLetters_tableAlias_iff (hidentifier hleftFound)
        (hidentifier hrightFound)).1 hsame)
    rw [heq, hrightFound] at hleftFound
    exact hne (Option.some.inj hleftFound).symm

/-- The table that the query has a column of is introduced under the alias of the column. -/
theorem Resolves.mem_sources (h : query.Resolves cube items conditions) {ref : ColumnRef}
    {table : String} (hwrites : query.Writes cube ref table) :
    (ref.tableAlias, table) ∈ (Statement.ofResolved items conditions cube.factTable).sources := by
  have hjoin {name : String} {dimension : Dimension} (hname : name ∈ query.mentions)
      (hfound : cube.dimension? name = some dimension) : (dimension.tableAlias, dimension.table) ∈
      (Statement.ofResolved items conditions cube.factTable).sources := by
    have hmentioned := h.mem_mentioned hname hfound
    apply List.mem_cons_of_mem
    simp only [Statement.ofResolved, List.map_map]
    exact List.mem_map.2 ⟨dimension, hmentioned, rfl⟩
  have hlevel {levelRef : LevelRef} {dimension : Dimension} {level : Level}
      (hmem : levelRef.dimension ∈ query.mentions)
      (hfound : cube.level? levelRef = some (dimension, level)) :
      (dimension.tableAlias, dimension.table) ∈
        (Statement.ofResolved items conditions cube.factTable).sources :=
    hjoin hmem (Cube.level?_eq_some_iff.1 hfound).1
  cases hwrites with
  | measure hmem hmeasure => exact List.mem_cons_self
  | factKey hmem hfound => exact List.mem_cons_self
  | key hmem hfound => exact hjoin hmem hfound
  | level hmem hfound => exact hlevel (mem_mentions_of_level hmem) hfound
  | sort hmem hfound => exact hlevel (mem_mentions_of_level hmem) hfound
  | condition hmem hvalues hfound => exact hlevel (mem_mentions_of_condition hmem) hfound

/-- The mentioned names differ if those of the dimensions do that are joined. -/
theorem Resolves.distinctMentions_of_names (h : query.Resolves cube items conditions)
    (hnames : ∀ left ∈ Statement.mentioned items conditions,
      ∀ right ∈ Statement.mentioned items conditions, left ≠ right →
        ¬ SameLetters left.name right.name) : query.DistinctMentions := by
  intro name hname other hother hsame
  obtain ⟨hfirsts, -⟩ := h.firsts_mentioned
  obtain ⟨left, hleft, rfl⟩ := List.mem_map.1 ((hfirsts.mem_iff _).2 hname)
  obtain ⟨right, hright, rfl⟩ := List.mem_map.1 ((hfirsts.mem_iff _).2 hother)
  by_contra hne
  have hdifferent : left ≠ right := fun heq => hne (congrArg Dimension.name heq)
  exact hnames left hleft right hright hdifferent hsame

/-- Two names that differ in letter case only are joined under one alias. -/
theorem Resolves.distinctMentions (h : query.Resolves cube items conditions)
    (hnames : ∀ dimension ∈ cube.dimensions, IsIdentifier dimension.name)
    (haliases : (Statement.ofResolved items conditions cube.factTable).sources.Pairwise
      fun left right => ¬ SameLetters left.1 right.1) : query.DistinctMentions := by
  simp only [Statement.sources, Statement.ofResolved, List.map_map, List.pairwise_cons,
    List.pairwise_map] at haliases
  have hsymm : Std.Symm fun left right : Dimension =>
      ¬ SameLetters left.tableAlias right.tableAlias :=
    ⟨fun _ _ hne hsame => hne hsame.symm⟩
  have hjoined : (Statement.mentioned items conditions).Pairwise fun left right =>
      ¬ SameLetters left.tableAlias right.tableAlias := haliases.2
  obtain ⟨-, hfound⟩ := h.firsts_mentioned
  apply h.distinctMentions_of_names
  intro left hleft right hright hdifferent hsame
  apply hjoined.forall hleft hright hdifferent
  exact (Dimension.sameLetters_tableAlias_iff
    (hnames left (Cube.mem_of_dimension? (hfound left hleft)))
    (hnames right (Cube.mem_of_dimension? (hfound right hright)))).2 hsame

/-- Every column of a statement over a consistent cube is one that the query has for it; and each
alias is introduced once, so that each column is of the table that the query has it of, just if no
two dimensions that are mentioned have names that differ in letter case only. -/
theorem unambiguous_iff {statement : Statement} (hcube : cube.check = .ok ())
    (h : query.statement cube = .ok statement) :
    (∀ ref ∈ statement.refs, ∃ table, query.Writes cube ref table) ∧
      (statement.Unambiguous query cube ↔ query.DistinctMentions) := by
  obtain ⟨items, conditions, hresolves, rfl⟩ := resolves_of_statement h
  have hnames := Cube.isIdentifier_name_of_check hcube
  constructor
  · exact fun ref href => hresolves.writes_of_mem_refs href
  · constructor
    · exact fun hunambiguous => hresolves.distinctMentions hnames hunambiguous.aliases
    · intro hdistinct
      have haliases := hresolves.pairwise_sources hnames hdistinct
      refine ⟨haliases, fun ref table hwrites => ?_⟩
      exact Statement.denoted_of_mem haliases (hresolves.mem_sources hwrites)

end Query

/-- Facts by day and by time of day; the second dimension has a given name. -/
def Cube.visits (clock : String) : Cube where
  name := "Visits"
  description := ""
  factTable := "visits"
  dimensions :=
    [⟨"Time", "days", "day_key", "day", [⟨"Days", [⟨"Year", "year", none⟩]⟩], []⟩,
      ⟨clock, "hours", "hour_key", "hour", [⟨"Hours", [⟨"Hour", "hour", none⟩]⟩], []⟩]
  measures := [⟨"Guests", "guests", .sum, .number, none⟩]
  calculatedMembers := []

/-- The guests of each year and hour. -/
def Query.guestsByYearAndHour (clock : String) : Query :=
  ⟨[.measure "Guests", .level ⟨"Time", "Year", none⟩, .level ⟨clock, "Hour", none⟩], "Visits", []⟩

/-- A clock by another name than the time is told apart from it. -/
theorem Query.guestsByYearAndHour_unambiguous :
    (Cube.visits "Clock").check = .ok () ∧
      ∃ statement, (guestsByYearAndHour "Clock").statement (Cube.visits "Clock") = .ok statement ∧
        statement.Unambiguous (guestsByYearAndHour "Clock") (Cube.visits "Clock") := by
  have hcheck : (Cube.visits "Clock").check = .ok () := by decide +kernel
  have hdistinct : (guestsByYearAndHour "Clock").DistinctMentions := by decide +kernel
  have hsome : ((guestsByYearAndHour "Clock").statement
      (Cube.visits "Clock")).toOption.isSome = true := by decide +kernel
  cases hstatement : (guestsByYearAndHour "Clock").statement (Cube.visits "Clock") with
  | error failure => simp [hstatement, Except.toOption] at hsome
  | ok statement =>
      exact ⟨hcheck, statement, rfl, (unambiguous_iff hcheck hstatement).2.2 hdistinct⟩

/-- Under the name of the time in capitals, the cube is consistent, but both tables of the statement
have the alias `d_time`. -/
theorem Query.guestsByYearAndHour_ambiguous :
    (Cube.visits "TIME").check = .ok () ∧
      ∃ statement, (guestsByYearAndHour "TIME").statement (Cube.visits "TIME") = .ok statement ∧
        statement.sources = [("fact", "visits"), ("d_time", "days"), ("d_time", "hours")] ∧
        statement.denoted ⟨"d_time", "hour"⟩ = ["days", "hours"] ∧
        ¬ statement.Unambiguous (guestsByYearAndHour "TIME") (Cube.visits "TIME") := by
  have hsources : ((guestsByYearAndHour "TIME").statement
      (Cube.visits "TIME")).toOption.map Statement.sources =
        some [("fact", "visits"), ("d_time", "days"), ("d_time", "hours")] := by decide +kernel
  cases hstatement : (guestsByYearAndHour "TIME").statement (Cube.visits "TIME") with
  | error failure => simp [hstatement, Except.toOption] at hsources
  | ok statement =>
      have hsources : statement.sources =
          [("fact", "visits"), ("d_time", "days"), ("d_time", "hours")] := by
        simpa [hstatement, Except.toOption] using hsources
      refine ⟨by decide +kernel, statement, rfl, hsources, ?_, ?_⟩
      · rw [Statement.denoted, hsources]
        decide
      · intro hunambiguous
        have haliases := hunambiguous.aliases
        rw [hsources] at haliases
        exact absurd haliases (by decide)

end StarCube
