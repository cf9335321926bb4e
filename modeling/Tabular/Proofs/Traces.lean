import Tabular.Load.TableFiles
import Tabular.Proofs.Failures
import Tabular.Proofs.Observation
/-!
# Traces

The names of the events that one query logs, in their order. They follow one grammar, whatever the
loader and the text; which of its sentences it is depends on the first stage that fails.
-/

namespace Tabular

namespace Logged
variable {α β : Type}

/-- Work that logs events of these names and has this outcome. -/
structure Emits (work : Logged α) (events : List String) (outcome : Except QueryError α) : Prop where
  events : work.entries.map (·.event) = events
  outcome : work.outcome = outcome

variable {events events' : List String}

theorem Emits.bind {first : Logged α} {next : α → Logged β} {value : α}
    {outcome : Except QueryError β} (hfirst : first.Emits events (.ok value))
    (hnext : (next value).Emits events' outcome) :
    (first >>= next).Emits (events ++ events') outcome := by
  obtain ⟨rfl, hvalue⟩ := hfirst
  obtain ⟨rfl, rfl⟩ := hnext
  change (Logged.bind first next).Emits _ _
  unfold Logged.bind
  rw [hvalue]
  exact ⟨List.map_append, rfl⟩

/-- A last step that logs nothing. -/
theorem Emits.bind_pure {first : Logged α} {value : α} (hfirst : first.Emits events (.ok value))
    (next : α → β) :
    (first >>= fun value => pure (next value)).Emits events (.ok (next value)) := by
  have hnext : (pure (next value) : Logged β).Emits [] (.ok (next value)) := ⟨rfl, rfl⟩
  rw [← List.append_nil events]
  exact hfirst.bind hnext

/-- A failure ends the work; what was logged before it stays. -/
theorem Emits.bind_error {first : Logged α} {error : QueryError}
    (hfirst : first.Emits events (.error error)) (next : α → Logged β) :
    (first >>= next).Emits events (.error error) := by
  obtain ⟨rfl, herror⟩ := hfirst
  change (Logged.bind first next).Emits _ _
  unfold Logged.bind
  rw [herror]
  exact ⟨rfl, rfl⟩

theorem Emits.after {work : Logged α} {outcome : Except QueryError α} (entry : Log.Entry)
    (h : work.Emits events outcome) : (work.after entry).Emits (entry.event :: events) outcome := by
  obtain ⟨rfl, rfl⟩ := h
  exact ⟨rfl, rfl⟩

end Logged

/-! ## The grammar -/

/-- What a load that succeeds logs. -/
def Loader.loaded (loader : Loader) : List String :=
  if loader.reports then ["TABLE_LOADED"] else []

namespace Query

/-- The events up to the rows that a query starts from. -/
def sourceEvents (loader : Loader) (query : Query) : List String :=
  match query.join with
  | none => loader.loaded
  | some _ => loader.loaded ++ loader.loaded ++ ["JOIN_APPLIED"]

def groupingEvents (query : Query) : List String :=
  match query.groupBy with
  | none => []
  | some _ => ["GROUPING_APPLIED"]

/-- The events of the stages of a query, up to the first that fails. -/
inductive Stages (loader : Loader) (query : Query) :
    List String → Except QueryError Table → Prop
  | base {error : LoadError} (hbase : loader.load query.table = .error error) :
    Stages loader query [] (.error (.load error))
  | joined {base : Table} {join : JoinClause} {error : LoadError}
    (hbase : loader.load query.table = .ok base) (hjoin : query.join = some join)
    (hjoined : loader.load join.table = .error error) :
    Stages loader query loader.loaded (.error (.load error))
  | operator {condition : Condition} (hloads : query.Loads loader)
    (hfirst : Condition.firstUnsupported? query.conditions = some condition) :
    Stages loader query (query.sourceEvents loader ++ query.groupingEvents)
      (.error (.unsupportedOperator condition.operator))
  | passed {rows : Table} (hloads : query.Loads loader)
    (hsupported : Condition.firstUnsupported? query.conditions = none) :
    Stages loader query (query.sourceEvents loader ++ query.groupingEvents ++ ["FILTER_APPLIED"])
      (.ok rows)

/-- The events of a query text. -/
inductive Trace (loader : Loader) (text : String) :
    List String → Except QueryError Table → Prop
  | unread {error : ParseError} (hread : read text = .error error) :
    Trace loader text ["QUERY_RECEIVED", "QUERY_REJECTED"] (.error (.parse error))
  | answered {query : Query} {stages : List String} {rows : Table} (hread : read text = .ok query)
    (hstages : query.Stages loader stages (.ok rows)) :
    Trace loader text (["QUERY_RECEIVED", "QUERY_PARSED", "QUERY_BEGIN"] ++ stages ++
      ["QUERY_EXECUTED", "QUERY_COMPLETE"]) (.ok rows)
  | failed {query : Query} {stages : List String} {error : QueryError}
    (hread : read text = .ok query) (hstages : query.Stages loader stages (.error error)) :
    Trace loader text (["QUERY_RECEIVED", "QUERY_PARSED", "QUERY_BEGIN"] ++ stages ++
      ["QUERY_REJECTED", "QUERY_FAILED"]) (.error error)

/-! ## Stages -/

section Stages
variable {loader : Loader} {query : Query}

theorem emits_fetch {table : String} {rows : Table} (h : loader.load table = .ok rows) :
    (loader.fetch table).Emits loader.loaded (.ok rows) := by
  unfold Loader.fetch Loader.entries Loader.loaded
  rw [h]
  cases loader.reports <;> exact ⟨rfl, rfl⟩

theorem emits_fetch_error {table : String} {error : LoadError}
    (h : loader.load table = .error error) :
    (loader.fetch table).Emits [] (.error (.load error)) := by
  unfold Loader.fetch Loader.entries
  rw [h]
  exact ⟨rfl, rfl⟩

theorem emits_sourceRows (h : query.Loads loader) :
    ∃ rows, (query.sourceRows loader).Emits (query.sourceEvents loader) (.ok rows) := by
  obtain ⟨⟨base, hbase⟩, hjoined⟩ := h
  unfold sourceRows sourceEvents
  cases hjoin : query.join with
  | none => exact ⟨base, (emits_fetch hbase).bind_pure id⟩
  | some join =>
    obtain ⟨joined, hjoined⟩ := hjoined join hjoin
    refine ⟨Table.join join.kind base joined join.condition query.fields query.table, ?_⟩
    rw [List.append_assoc]
    exact (emits_fetch hbase).bind ((emits_fetch hjoined).bind ⟨rfl, rfl⟩)

theorem emits_sourceRows_base {error : LoadError}
    (hbase : loader.load query.table = .error error) :
    (query.sourceRows loader).Emits [] (.error (.load error)) :=
  (emits_fetch_error hbase).bind_error _

theorem emits_sourceRows_joined {base : Table} {join : JoinClause} {error : LoadError}
    (hbase : loader.load query.table = .ok base) (hjoin : query.join = some join)
    (hjoined : loader.load join.table = .error error) :
    (query.sourceRows loader).Emits loader.loaded (.error (.load error)) := by
  unfold sourceRows
  rw [hjoin, ← List.append_nil loader.loaded]
  exact (emits_fetch hbase).bind ((emits_fetch_error hjoined).bind_error _)

theorem emits_groupedRows (query : Query) (rows : Table) :
    (query.groupedRows rows).Emits query.groupingEvents (.ok (query.grouped rows)) := by
  unfold groupedRows groupingEvents grouped
  cases query.groupBy <;> exact ⟨rfl, rfl⟩

theorem emits_filteredRows {rows kept : Table} (h : rows.filterBy query.conditions = .ok kept) :
    (query.filteredRows rows).Emits ["FILTER_APPLIED"] (.ok kept) := by
  unfold filteredRows
  rw [h]
  exact ⟨rfl, rfl⟩

theorem emits_filteredRows_error {rows : Table} {error : QueryError}
    (h : rows.filterBy query.conditions = .error error) :
    (query.filteredRows rows).Emits [] (.error error) := by
  unfold filteredRows
  rw [h]
  exact ⟨rfl, rfl⟩

/-- Every query goes through stages of the grammar. -/
theorem answer_stages (loader : Loader) (query : Query) :
    ∃ events outcome, query.Stages loader events outcome ∧
      (query.answer loader).Emits events outcome := by
  unfold answer
  rcases loads_or_fails loader query with hloads | ⟨error, hfails⟩
  · obtain ⟨rows, hsource⟩ := emits_sourceRows hloads
    have hgrouped := emits_groupedRows query rows
    cases hfirst : Condition.firstUnsupported? query.conditions with
    | some condition =>
      have hfilter := Table.filterBy_unsupported (query.grouped rows) hfirst
      refine ⟨_, _, .operator hloads hfirst, ?_⟩
      rw [← List.append_nil query.groupingEvents]
      exact hsource.bind (hgrouped.bind ((emits_filteredRows_error hfilter).bind_error _))
    | none =>
      obtain ⟨kept, hkept⟩ := Table.filterBy_total (query.grouped rows)
        (Condition.firstUnsupported?_eq_none.1 hfirst)
      refine ⟨_, .ok (query.outputRows kept), .passed hloads hfirst, ?_⟩
      rw [List.append_assoc]
      exact hsource.bind (hgrouped.bind ((emits_filteredRows hkept).bind_pure query.outputRows))
  · cases hfails with
    | base hbase => exact ⟨_, _, .base hbase, (emits_sourceRows_base hbase).bind_error _⟩
    | joined hbase hjoin hjoined =>
      exact ⟨_, _, .joined hbase hjoin hjoined,
        (emits_sourceRows_joined hbase hjoin hjoined).bind_error _⟩

/-- The events that stages log. -/
def stageEvents : List String :=
  ["TABLE_LOADED", "JOIN_APPLIED", "GROUPING_APPLIED", "FILTER_APPLIED"]

theorem loaded_subset (loader : Loader) : loader.loaded ⊆ stageEvents := by
  unfold Loader.loaded
  split <;> simp [stageEvents]

theorem reached_subset (loader : Loader) (query : Query) :
    query.sourceEvents loader ++ query.groupingEvents ⊆ stageEvents := by
  refine List.append_subset.2 ⟨?_, ?_⟩
  · unfold sourceEvents
    split
    · exact loaded_subset loader
    · simpa [stageEvents] using loaded_subset loader
  · unfold groupingEvents
    split <;> simp [stageEvents]

theorem Stages.subset {events : List String} {outcome : Except QueryError Table}
    (h : query.Stages loader events outcome) : events ⊆ stageEvents := by
  cases h with
  | base _ => exact List.nil_subset _
  | joined _ _ _ => exact loaded_subset loader
  | operator _ _ => exact reached_subset loader query
  | passed _ _ =>
    exact List.append_subset.2 ⟨reached_subset loader query, by simp [stageEvents]⟩

theorem Stages.not_mem {events : List String} {outcome : Except QueryError Table} {event : String}
    (h : query.Stages loader events outcome) (hevent : event ∉ stageEvents) : event ∉ events :=
  fun hmem => hevent (h.subset hmem)

end Stages

/-! ## Whole texts -/

/-- The stages stand between the start of the query and the two events that close it. -/
theorem emits_execute {loader : Loader} {query : Query} {events : List String}
    {outcome : Except QueryError Table} (elapsed : String)
    (h : (query.answer loader).Emits events outcome) :
    (query.execute loader elapsed).Emits
      ("QUERY_BEGIN" :: events ++
        (closing ⟨"QUERY", [("table", query.table)]⟩ query.table elapsed outcome).map (·.event))
      outcome := by
  obtain ⟨rfl, rfl⟩ := h
  refine ⟨?_, rfl⟩
  rw [execute, List.map_append, List.map_cons]
  rfl

theorem executeText_emits (loader : Loader) (elapsed text : String) :
    ∃ events outcome, Trace loader text events outcome ∧
      (executeText loader elapsed text).Emits events outcome := by
  unfold executeText
  cases hread : read text with
  | error error => exact ⟨_, _, .unread hread, .after _ ⟨rfl, rfl⟩⟩
  | ok query =>
    obtain ⟨stages, outcome, hstages, hanswer⟩ := answer_stages loader query
    have hexecute := emits_execute elapsed hanswer
    cases outcome with
    | error error => exact ⟨_, _, .failed hread hstages, (hexecute.after _).after _⟩
    | ok rows => exact ⟨_, _, .answered hread hstages, (hexecute.after _).after _⟩

theorem Trace.one_end {loader : Loader} {text : String} {events : List String}
    {outcome : Except QueryError Table} (h : Trace loader text events outcome) :
    events.count "QUERY_EXECUTED" + events.count "QUERY_REJECTED" = 1 ∧
      "QUERY_INCOMPLETE" ∉ events := by
  cases h with
  | unread _ => decide
  | answered _ hstages | failed _ hstages =>
    have hexecuted : "QUERY_EXECUTED" ∉ _ := hstages.not_mem (by decide)
    have hrejected : "QUERY_REJECTED" ∉ _ := hstages.not_mem (by decide)
    have hincomplete : "QUERY_INCOMPLETE" ∉ _ := hstages.not_mem (by decide)
    simp [List.count_eq_zero.2 hexecuted, List.count_eq_zero.2 hrejected, hincomplete]

/-! ## What the entries tell -/

/-- Where an entry tells how a query ended, it is right: the number of rows, or the code of the
error. -/
structure Tells (outcome : Except QueryError Table) (entry : Log.Entry) : Prop where
  rows : entry.event ∈ ["QUERY_EXECUTED", "QUERY_COMPLETE"] →
    ∃ rows, outcome = .ok rows ∧ entry.fields.lookup "rows" = some rows.length.repr
  code : entry.event ∈ ["QUERY_REJECTED", "QUERY_FAILED"] →
    ∃ error, outcome = .error error ∧ entry.fields.lookup "code" = some error.code

/-- The events that tell how a query ended. -/
def endEvents : List String :=
  ["QUERY_EXECUTED", "QUERY_COMPLETE", "QUERY_REJECTED", "QUERY_FAILED"]

section Tells
variable {entry : Log.Entry}

theorem tells_rows {rows : Table} (hevent : entry.event ∉ ["QUERY_REJECTED", "QUERY_FAILED"])
    (hrows : entry.fields.lookup "rows" = some rows.length.repr) : Tells (.ok rows) entry :=
  ⟨fun _ => ⟨rows, rfl, hrows⟩, fun h => absurd h hevent⟩

theorem tells_code {error : QueryError}
    (hevent : entry.event ∉ ["QUERY_EXECUTED", "QUERY_COMPLETE"])
    (hcode : entry.fields.lookup "code" = some error.code) : Tells (.error error) entry :=
  ⟨fun h => absurd h hevent, fun _ => ⟨error, rfl, hcode⟩⟩

theorem tells_of_not_mem (outcome : Except QueryError Table) (hend : entry.event ∉ endEvents) :
    Tells outcome entry := by
  have hsplit : endEvents =
      ["QUERY_EXECUTED", "QUERY_COMPLETE"] ++ ["QUERY_REJECTED", "QUERY_FAILED"] := rfl
  rw [hsplit, List.mem_append, not_or] at hend
  exact ⟨fun h => absurd h hend.1, fun h => absurd h hend.2⟩

theorem tells_rejected (error : QueryError) : Tells (.error error) (rejected error) := by
  have hrejected : "QUERY_REJECTED" ∉ ["QUERY_EXECUTED", "QUERY_COMPLETE"] := by decide
  exact tells_code hrejected rfl

theorem tells_closing (query : Query) (elapsed : String) (outcome : Except QueryError Table) :
    ∀ entry ∈ closing ⟨"QUERY", [("table", query.table)]⟩ query.table elapsed outcome,
      Tells outcome entry := by
  cases outcome with
  | ok rows =>
    have hexecuted : "QUERY_EXECUTED" ∉ ["QUERY_REJECTED", "QUERY_FAILED"] := by decide
    have hcomplete : "QUERY_COMPLETE" ∉ ["QUERY_REJECTED", "QUERY_FAILED"] := by decide
    simp only [closing, Log.Scope.ended, List.forall_mem_cons]
    exact ⟨tells_rows hexecuted rfl, tells_rows hcomplete rfl, List.forall_mem_nil _⟩
  | error error =>
    have hfailed : "QUERY_FAILED" ∉ ["QUERY_EXECUTED", "QUERY_COMPLETE"] := by decide
    simp only [closing, Log.Scope.ended, List.forall_mem_cons]
    exact ⟨tells_rejected error, tells_code hfailed rfl, List.forall_mem_nil _⟩

/-- Before its end a query tells nothing about it. -/
theorem tells_answer (loader : Loader) (query : Query) (outcome : Except QueryError Table) :
    ∀ entry ∈ (query.answer loader).entries, Tells outcome entry := by
  obtain ⟨stages, reached, hstages, hevents, -⟩ := answer_stages loader query
  have hapart : ∀ event ∈ stageEvents, event ∉ endEvents := by decide
  intro entry hentry
  refine tells_of_not_mem outcome (hapart _ (hstages.subset ?_))
  rw [← hevents]
  exact List.mem_map_of_mem hentry

theorem executeText_tells (loader : Loader) (elapsed text : String) :
    ∀ entry ∈ (executeText loader elapsed text).entries,
      Tells (executeText loader elapsed text).outcome entry := by
  have hreceived : "QUERY_RECEIVED" ∉ endEvents := by decide
  have hparsed : "QUERY_PARSED" ∉ endEvents := by decide
  have hbegin : "QUERY_BEGIN" ∉ endEvents := by decide
  unfold executeText
  cases read text with
  | error error =>
    simp only [Logged.after, List.forall_mem_cons]
    exact ⟨tells_of_not_mem _ hreceived, tells_rejected (.parse error), List.forall_mem_nil _⟩
  | ok query =>
    simp only [Logged.after, execute, List.cons_append, List.forall_mem_cons,
      List.forall_mem_append]
    exact ⟨tells_of_not_mem _ hreceived, tells_of_not_mem _ hparsed, tells_of_not_mem _ hbegin,
      tells_answer loader query _, tells_closing query elapsed _⟩

end Tells

/-- Under the lowest threshold every entry of a query is written. Their events follow the grammar,
with one end, no scope is given up, and what they tell of the outcome is right. Of the loaders only
the one of files logs its loads. -/
theorem executeText_trace (loader : Loader) (elapsed text : String) (lines : List String) :
    let work := executeText loader elapsed text
    let events := work.entries.map (·.event)
    (work.under ⟨.trace, lines⟩).2.lines = lines ++ work.entries.map Log.Entry.line ∧
      Trace loader text events work.outcome ∧
      events.count "QUERY_EXECUTED" + events.count "QUERY_REJECTED" = 1 ∧
      "QUERY_INCOMPLETE" ∉ events ∧
      (∀ entry ∈ work.entries, Tells work.outcome entry) ∧
      (∀ (tables : TableFiles) (files : Files), (tables.loader files).loaded = ["TABLE_LOADED"]) ∧
      ∀ tables, (Loader.ofTables tables).loaded = [] := by
  intro work events
  obtain ⟨events', outcome, htrace, hevents, houtcome⟩ := executeText_emits loader elapsed text
  subst hevents houtcome
  obtain ⟨hone, hincomplete⟩ := htrace.one_end
  refine ⟨?_, htrace, hone, hincomplete, executeText_tells loader elapsed text, fun _ _ => rfl,
    fun _ => rfl⟩
  rw [Logged.under_eq, Log.Logger.lines_log, Log.Logger.written_trace]

end Query

end Tabular
