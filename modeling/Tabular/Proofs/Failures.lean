import Tabular.Proofs.Answers
/-!
# How a query fails

A query can fail when its text is read, when a table is loaded and when its conditions are checked.
Joining, grouping, summarizing and projecting always give rows. The first failure in that order is
the outcome, whatever the stages after it would have done.
-/

namespace Tabular.Query

/-! ## Failing stages -/

/-- Every table that the query names is there. -/
def Loads (loader : Loader) (query : Query) : Prop :=
  (∃ base, loader.load query.table = .ok base) ∧
    ∀ join, query.join = some join → ∃ joined, loader.load join.table = .ok joined

/-- The failures of a query, each with the stages before it that went well. -/
inductive Fails (loader : Loader) (query : Query) : QueryError → Prop
  | base {error : LoadError} (hbase : loader.load query.table = .error error) :
    Fails loader query (.load error)
  | joined {base : Table} {join : JoinClause} {error : LoadError}
    (hbase : loader.load query.table = .ok base) (hjoin : query.join = some join)
    (hjoined : loader.load join.table = .error error) : Fails loader query (.load error)
  | operator {condition : Condition} (hloads : query.Loads loader)
    (hfirst : Condition.firstUnsupported? query.conditions = some condition) :
    Fails loader query (.unsupportedOperator condition.operator)

/-- The failures of a query text. -/
inductive TextFails (loader : Loader) (text : String) : QueryError → Prop
  | reading {error : ParseError} (hread : read text = .error error) :
    TextFails loader text (.parse error)
  | answering {query : Query} {error : QueryError} (hread : read text = .ok query)
    (hfails : query.Fails loader error) : TextFails loader text error

/-! ## The outcome -/

section Execute
variable {loader : Loader} {query : Query}

theorem Loads.exists_source (h : query.Loads loader) : ∃ rows, query.source loader = .ok rows := by
  obtain ⟨⟨base, hbase⟩, hjoined⟩ := h
  cases hjoin : query.join with
  | none => exact ⟨base, source_of_load hbase hjoin⟩
  | some join =>
    obtain ⟨joined, hj⟩ := hjoined join hjoin
    exact ⟨_, source_of_loads hbase hjoin hj⟩

/-- The tables are there, or the first that is not makes the query fail. -/
theorem loads_or_fails (loader : Loader) (query : Query) :
    query.Loads loader ∨ ∃ error, query.Fails loader (.load error) := by
  cases hbase : loader.load query.table with
  | error error => exact .inr ⟨error, .base hbase⟩
  | ok base =>
    cases hjoin : query.join with
    | none => exact .inl ⟨⟨base, hbase⟩, by rw [hjoin]; nofun⟩
    | some join =>
      cases hjoined : loader.load join.table with
      | error error => exact .inr ⟨error, .joined hbase hjoin hjoined⟩
      | ok joined =>
        refine .inl ⟨⟨base, hbase⟩, fun other hother => ⟨joined, ?_⟩⟩
        cases hjoin.symm.trans hother
        exact hjoined

/-- A failure is the outcome. -/
theorem outcome_of_fails (elapsed : String) {error : QueryError} (h : query.Fails loader error) :
    (query.execute loader elapsed).outcome = .error error := by
  cases h with
  | base hbase =>
    rw [outcome_execute, source, hbase]
    rfl
  | joined hbase hjoin hjoined =>
    rw [outcome_execute, source, hbase, hjoin]
    change (Except.mapError QueryError.load (loader.load _ >>= fun joined => .ok _)) >>= _ = _
    rw [hjoined]
    rfl
  | operator hloads hfirst =>
    obtain ⟨rows, hrows⟩ := hloads.exists_source
    rw [outcome_of_source elapsed hrows, Table.filterBy_unsupported _ hfirst]
    rfl

/-- Where no stage fails there are rows. -/
theorem outcome_or_fails (loader : Loader) (elapsed : String) (query : Query) :
    (∃ rows, (query.execute loader elapsed).outcome = .ok rows) ∨
      ∃ error, query.Fails loader error := by
  rcases loads_or_fails loader query with hloads | ⟨error, hfails⟩
  · cases hfirst : Condition.firstUnsupported? query.conditions with
    | some condition => exact .inr ⟨_, .operator hloads hfirst⟩
    | none =>
      obtain ⟨rows, hrows⟩ := hloads.exists_source
      obtain ⟨kept, hkept⟩ := Table.filterBy_total (query.grouped rows)
        (Condition.firstUnsupported?_eq_none.1 hfirst)
      refine .inl ⟨query.outputRows kept, ?_⟩
      rw [outcome_of_source elapsed hrows, hkept]
      rfl
  · exact .inr ⟨.load error, hfails⟩

end Execute

section Text
variable {loader : Loader} {text : String}

theorem outcome_executeText_ok (elapsed : String) {query : Query} (h : read text = .ok query) :
    (executeText loader elapsed text).outcome = (query.execute loader elapsed).outcome := by
  rw [executeText, h]
  rfl

theorem outcome_of_textFails (elapsed : String) {error : QueryError}
    (h : TextFails loader text error) :
    (executeText loader elapsed text).outcome = .error error := by
  cases h with
  | reading hread =>
    rw [executeText, hread]
    rfl
  | answering hread hfails =>
    rw [outcome_executeText_ok elapsed hread]
    exact outcome_of_fails elapsed hfails

theorem outcome_or_textFails (loader : Loader) (elapsed text : String) :
    (∃ rows, (executeText loader elapsed text).outcome = .ok rows) ∨
      ∃ error, TextFails loader text error := by
  cases hread : read text with
  | error error => exact .inr ⟨_, .reading hread⟩
  | ok query =>
    rw [outcome_executeText_ok elapsed hread]
    rcases outcome_or_fails loader elapsed query with hrows | ⟨error, hfails⟩
    · exact .inl hrows
    · exact .inr ⟨error, .answering hread hfails⟩

end Text

/-- A query text fails with the error of its first stage that fails, and else it has rows. -/
theorem outcome_first_failure (loader : Loader) (elapsed text : String) :
    (∀ error, (executeText loader elapsed text).outcome = .error error ↔
      TextFails loader text error) ∧
      ((∃ rows, (executeText loader elapsed text).outcome = .ok rows) ↔
        ∀ error, ¬ TextFails loader text error) := by
  have hfails (error : QueryError) (h : TextFails loader text error) :
      (executeText loader elapsed text).outcome = .error error := outcome_of_textFails elapsed h
  rcases outcome_or_textFails loader elapsed text with ⟨rows, hrows⟩ | ⟨error, herror⟩
  · -- With rows there is no failure.
    have hnone (error : QueryError) : ¬ TextFails loader text error := fun h => by
      cases hrows.symm.trans (hfails error h)
    refine ⟨fun error => ⟨fun h => ?_, hfails error⟩, fun _ => hnone, fun _ => ⟨rows, hrows⟩⟩
    cases hrows.symm.trans h
  · -- The outcome is the failure, and there is no second one.
    refine ⟨fun other => ⟨fun h => ?_, hfails other⟩, fun ⟨rows, hrows⟩ => ?_, fun h => ?_⟩
    · cases (hfails error herror).symm.trans h
      exact herror
    · cases hrows.symm.trans (hfails error herror)
    · exact absurd herror (h error)

end Tabular.Query
