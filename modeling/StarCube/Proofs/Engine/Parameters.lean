import StarCube.Cube.BuiltIn
import StarCube.Engine.Execution
import StarCube.Proofs.Engine.Alike
import StarCube.Proofs.Query.Parameters

/-!
Queries that differ in the values of their predicates only are run alike: the values reach the store
as parameters and nothing else, neither the text of the statement nor a log record, has them.
-/

namespace StarCube

namespace Query

variable {query other : Query}

theorem SameShape.table_eq (h : query.SameShape other) (cube : Cube) (rows : List Row) :
    query.table cube rows = other.table cube rows := by
  simp only [table, measuresOf, measures, levels, h.select]

end Query

namespace Procedure

variable {query other : Query} {cube : Cube}

/-- Statements of the same text are sent alike. -/
theorem send_alike (sql : String) (params others : List Value) (timeout : Value) :
    Alike Eq (send sql params timeout) (send sql others timeout) := by
  refine (Alike.refl engine).bind ?_
  rintro state _ rfl
  exact .query rfl rfl fun answer => Alike.refl (answered _ answer)

theorem compile_alike (h : query.SameShape other) (cube : Cube) :
    Alike Statement.SameShape (compile query cube) (compile other cube) := by
  refine (Alike.done (h.statement cube)).bind fun statement otherStatement hstatement => ?_
  rw [hstatement.joins_eq, hstatement.length_params_eq]
  refine (Alike.refl (log .debug "cube_query_compiled" _)).bind ?_
  rintro _ _ rfl
  exact .done (.ok hstatement)

theorem evaluate_alike (h : query.SameShape other) (cube : Cube)
    {statement otherStatement : Statement} (hstatement : statement.SameShape otherStatement) :
    Alike Eq (evaluate query cube statement) (evaluate other cube otherStatement) := by
  unfold evaluate
  rw [hstatement.text_eq]
  refine ((send_alike _ _ _ _).leasing cube.tables).bind ?_
  rintro rows _ rfl
  rw [h.table_eq]
  exact .refl _

/-- Queries of the same shape are run alike. -/
theorem runQuery_alike (h : query.SameShape other) :
    Alike Eq (runQuery query) (runQuery other) := by
  unfold runQuery
  rw [h.cube]
  refine (Alike.refl (requireCube other.cube)).bind ?_
  rintro cube _ rfl
  refine (compile_alike h cube).bind fun statement otherStatement hstatement => ?_
  exact evaluate_alike h cube hstatement

/-- Query texts that were prepared for the same definition, with queries of the same shape. -/
structure Prepared.SameShape (prepared other : Prepared) : Prop where
  cube : prepared.cube = other.cube
  query : prepared.query.SameShape other.query
  statement : prepared.statement.SameShape other.statement

theorem prepare_alike (h : query.SameShape other) (name : String) {text otherText : String}
    (htext : Query.parse text = .ok query) (hother : Query.parse otherText = .ok other) :
    Alike Prepared.SameShape (prepare name text) (prepare name otherText) := by
  have hread : Alike Query.SameShape (ofExcept ((Query.parse text).mapError Failure.ofQueryText))
      (ofExcept ((Query.parse otherText).mapError Failure.ofQueryText)) := by
    rw [htext, hother]
    exact .done (.ok h)
  refine (Alike.refl (requireCube name)).bind ?_
  rintro definition _ rfl
  refine hread.bind fun query other h => ?_
  rw [h.cube]
  split
  · exact .done (.error _)
  · refine (compile_alike h definition).bind fun statement otherStatement hstatement => ?_
    exact .done (.ok ⟨rfl, h, hstatement⟩)

theorem prepareLogged_alike (h : query.SameShape other) (name : String) {text otherText : String}
    (htext : Query.parse text = .ok query) (hother : Query.parse otherText = .ok other) :
    Alike Prepared.SameShape (prepareLogged name text) (prepareLogged name otherText) := by
  refine (prepare_alike h name htext hother).attempt fun outcome otherOutcome houtcome => ?_
  cases houtcome with
  | ok hprepared => exact .done (.ok hprepared)
  | error failure =>
      have hfail : Alike Prepared.SameShape (fail failure) (fail failure) := .done (.error failure)
      have hlogged := (Alike.refl (log .warning "cube_query_rejected" (failureFields failure))).bind
        fun _ _ _ => hfail
      by_cases hengine : failure.isEngine
      · simpa [hengine] using hlogged
      · simpa [hengine] using hfail

/-- Texts of queries of the same shape are executed alike. -/
theorem executeQuery_alike (h : query.SameShape other) (name : String) {text otherText : String}
    (htext : Query.parse text = .ok query) (hother : Query.parse otherText = .ok other) :
    Alike Eq (executeQuery name text) (executeQuery name otherText) := by
  refine Alike.within ?_ _
  refine (prepareLogged_alike h name htext hother).bind fun prepared otherPrepared hprepared => ?_
  rw [hprepared.cube]
  exact evaluate_alike hprepared.query otherPrepared.cube hprepared.statement

end Procedure

/-- The values of a query's predicates are its parameters and nothing else. The text of its
statement does not depend on them and has a place for each, in the predicate that the value belongs
to; binding succeeds and gives the `i`-th place the name of the `i`-th value; and the log records of
a run do not tell them. -/
theorem Query.values_are_parameters (cube : Cube) {query other : Query}
    (h : query.SameShape other) :
    (query.statement cube).map Statement.text = (other.statement cube).map Statement.text ∧
    (∀ statement, query.statement cube = .ok statement →
      places statement.text = statement.params.length ∧
      statement.params = query.conditions.flatMap Predicate.values ∧
      (∀ front predicate rest, query.conditions = front ++ predicate :: rest →
        statement.Owns cube front predicate rest) ∧
      ∃ bound, bindPlaceholders statement.text statement.params = .ok bound ∧
        bound.sql.toList = nameMarks 0 statement.text.toList ∧
        ∀ index, List.lookup (bindName index) bound.binds = statement.params[index]?) ∧
    (∀ (around : Surroundings) (start : Recording),
      ((Procedure.runQuery query).recorded around start).records =
        ((Procedure.runQuery other).recorded around start).records) ∧
    (∀ (name text otherText : String), Query.parse text = .ok query →
      Query.parse otherText = .ok other → ∀ (around : Surroundings) (start : Recording),
        ((Procedure.executeQuery name text).recorded around start).records =
          ((Procedure.executeQuery name otherText).recorded around start).records) := by
  refine ⟨?_, ?_, ?_, ?_⟩
  · exact (h.statement cube).map_eq fun _ _ hstatement => hstatement.text_eq
  · intro statement hstatement
    have hnamed := named_statement hstatement
    refine ⟨hnamed.places_text, params_statement hstatement, ?_, ?_⟩
    · intro front predicate rest hpredicate
      exact owns_statement hstatement hpredicate
    · exact bindPlaceholders_of_places hnamed.unquoted_text hnamed.places_text
  · intro around start
    rw [(Procedure.runQuery_alike h).recorded_eq around start]
  · intro name text otherText htext hother around start
    rw [(Procedure.executeQuery_alike h name htext hother).recorded_eq around start]

/-- The transactions of some months of a year. -/
def BuiltIn.transactionsIn (year : Value) (months : List Value) : Query :=
  ⟨[.measure "TransactionCount"], "MaritimeProcurement",
    [.equals ⟨"Time", "Year", none⟩ year, .among ⟨"Time", "Month", none⟩ months]⟩

/-- Two years have one statement, with a place for the year and one for each month. -/
theorem BuiltIn.transactionsIn_values :
    (transactionsIn (.int 2023) [.text "May", .text "June"]).SameShape
      (transactionsIn (.int 2024) [.text "July", .null]) ∧
    ∃ statement,
      (transactionsIn (.int 2023) [.text "May", .text "June"]).statement maritimeProcurement =
        .ok statement ∧
      ((transactionsIn (.int 2024) [.text "July", .null]).statement
        maritimeProcurement).map Statement.text = .ok statement.text ∧
      places statement.text = 3 := by
  have hshape : (transactionsIn (.int 2023) [.text "May", .text "June"]).SameShape
      (transactionsIn (.int 2024) [.text "July", .null]) :=
    ⟨rfl, rfl, .cons (.equals _ _ _) (.cons (.among _ rfl) .nil)⟩
  have hparams : (((transactionsIn (.int 2023) [.text "May", .text "June"]).statement
      maritimeProcurement).map fun statement => statement.params.length).toOption = some 3 := by
    decide +kernel
  obtain ⟨htext, hstatement, -, -⟩ := Query.values_are_parameters maritimeProcurement hshape
  cases hresult : (transactionsIn (.int 2023) [.text "May", .text "June"]).statement
      maritimeProcurement with
  | error failure => simp [hresult, Except.map, Except.toOption] at hparams
  | ok statement =>
      have hplaces := (hstatement statement hresult).1
      rw [hresult] at htext hparams
      refine ⟨hshape, statement, rfl, htext.symm, ?_⟩
      rw [hplaces]
      simpa [Except.map, Except.toOption] using hparams

end StarCube
