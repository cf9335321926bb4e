import Tabular.Proofs.Answers
/-!
# Observation

Every logging call compares its severity with the threshold and appends one line or none. A query
goes the same way under every threshold, and a higher threshold leaves out exactly the lines that
are not severe enough for it.
-/

namespace Tabular

namespace Log

/-! ## One call at a time -/

namespace Logger

/-- One logging call. -/
def write (logger : Logger) (entry : Entry) : Logger :=
  if logger.isEnabled entry.severity then { logger with lines := logger.lines ++ [entry.line] }
  else logger

/-- The entries that the threshold lets through. -/
def written (logger : Logger) (entries : List Entry) : List Entry :=
  entries.filter (logger.isEnabled ·.severity)

theorem lines_log (logger : Logger) (entries : List Entry) :
    (logger.log entries).lines = logger.lines ++ (logger.written entries).map Entry.line := rfl

theorem log_cons (logger : Logger) (entry : Entry) (entries : List Entry) :
    logger.log (entry :: entries) = (logger.write entry).log entries := by
  unfold log write isEnabled
  by_cases h : logger.threshold.rank ≤ entry.severity.rank <;> simp [h]

/-- Logging entries together is one call after the other. -/
theorem log_eq_foldl (logger : Logger) (entries : List Entry) :
    logger.log entries = entries.foldl write logger := by
  induction entries generalizing logger with
  | nil => simp [log]
  | cons entry entries ih => rw [log_cons, ih, List.foldl_cons]

/-- A severity that passes a threshold passes every lower one. -/
theorem isEnabled_mono {low high : Logger} (h : low.threshold.rank ≤ high.threshold.rank)
    {severity : Severity} (hhigh : high.isEnabled severity = true) :
    low.isEnabled severity = true := by
  simp only [isEnabled, decide_eq_true_eq] at hhigh ⊢
  omega

theorem written_written {low high : Logger} (h : low.threshold.rank ≤ high.threshold.rank)
    (entries : List Entry) : high.written (low.written entries) = high.written entries := by
  unfold written
  rw [List.filter_filter]
  refine List.filter_congr fun entry _ => ?_
  cases hhigh : high.isEnabled entry.severity with
  | false => simp
  | true => simp [isEnabled_mono h hhigh]

/-- The lowest threshold lets everything through. -/
theorem written_trace (lines : List String) (entries : List Entry) :
    written ⟨.trace, lines⟩ entries = entries := by
  unfold written
  exact List.filter_eq_self.2 fun entry _ => decide_eq_true (Nat.zero_le _)

end Logger

/-! ## The time a query takes -/

/-- An entry without the time that it reports. -/
def Entry.masked (entry : Entry) : Entry :=
  { entry with
    fields := entry.fields.map fun (key, value) =>
      (key, if key = "elapsed_ms" then "*" else value) }

theorem Scope.masked_completed (scope : Scope) (extra : List (String × String))
    (elapsed elapsed' : String) :
    (scope.completed extra elapsed).masked = (scope.completed extra elapsed').masked := by
  simp [completed, Entry.masked]

theorem Logger.map_written_masked (logger : Logger) (entries : List Entry) :
    (logger.written entries).map Entry.masked = logger.written (entries.map Entry.masked) := by
  unfold written
  rw [List.filter_map]
  rfl

end Log

/-! ## Work under a logger -/

namespace Logged
variable {α : Type}

/-- The outcome of work, and the logger after all of its logging calls. -/
def under (work : Logged α) (logger : Log.Logger) : Except QueryError α × Log.Logger :=
  (work.outcome, work.entries.foldl Log.Logger.write logger)

theorem under_eq (work : Logged α) (logger : Log.Logger) :
    work.under logger = (work.outcome, logger.log work.entries) := by
  rw [under, Log.Logger.log_eq_foldl]

end Logged

namespace Query

theorem masked_closing (scope : Log.Scope) (table elapsed elapsed' : String)
    (outcome : Except QueryError Table) :
    (closing scope table elapsed outcome).map Log.Entry.masked =
      (closing scope table elapsed' outcome).map Log.Entry.masked := by
  cases outcome with
  | error error => rfl
  | ok rows =>
    simp only [closing, Log.Scope.ended, List.map_cons, List.map_nil]
    rw [Log.Scope.masked_completed _ _ elapsed elapsed']

theorem masked_execute (loader : Loader) (elapsed elapsed' : String) (query : Query) :
    (query.execute loader elapsed).outcome = (query.execute loader elapsed').outcome ∧
      (query.execute loader elapsed).entries.map Log.Entry.masked =
        (query.execute loader elapsed').entries.map Log.Entry.masked := by
  unfold execute
  exact ⟨rfl, by simp only [List.map_append, masked_closing _ _ elapsed elapsed']⟩

/-- The time changes nothing but the one field that reports it. -/
theorem masked_executeText (loader : Loader) (elapsed elapsed' text : String) :
    (executeText loader elapsed text).outcome = (executeText loader elapsed' text).outcome ∧
      (executeText loader elapsed text).entries.map Log.Entry.masked =
        (executeText loader elapsed' text).entries.map Log.Entry.masked := by
  unfold executeText
  cases read text with
  | error error => exact ⟨rfl, rfl⟩
  | ok query =>
    obtain ⟨houtcome, hentries⟩ := masked_execute loader elapsed elapsed' query
    exact ⟨houtcome, by simp only [Logged.after, List.map_cons, hentries]⟩

/-- Of two runs, the one under the higher threshold has the same outcome and writes the entries of
the other that are severe enough, in their order. -/
theorem executeText_thresholds (loader : Loader) (elapsed elapsed' text : String)
    (low high : Log.Logger) (h : low.threshold.rank ≤ high.threshold.rank) :
    let first := executeText loader elapsed text
    let second := executeText loader elapsed' text
    (second.under high).1 = (first.under low).1 ∧
      (first.under low).2.threshold = low.threshold ∧
      (second.under high).2.threshold = high.threshold ∧
      (first.under low).2.lines =
        low.lines ++ (low.written first.entries).map Log.Entry.line ∧
      (second.under high).2.lines =
        high.lines ++ (high.written second.entries).map Log.Entry.line ∧
      (high.written second.entries).map Log.Entry.masked =
        high.written ((low.written first.entries).map Log.Entry.masked) := by
  intro first second
  obtain ⟨houtcome, hentries⟩ := masked_executeText loader elapsed elapsed' text
  simp only [Logged.under_eq]
  refine ⟨houtcome.symm, rfl, rfl, Log.Logger.lines_log _ _, Log.Logger.lines_log _ _, ?_⟩
  calc (high.written second.entries).map Log.Entry.masked
      = high.written (first.entries.map Log.Entry.masked) := by
        rw [Log.Logger.map_written_masked, ← hentries]
    _ = (high.written (low.written first.entries)).map Log.Entry.masked := by
        rw [Log.Logger.written_written h, Log.Logger.map_written_masked]
    _ = high.written ((low.written first.entries).map Log.Entry.masked) :=
        Log.Logger.map_written_masked high _

/-- Two orders, from a loader that logs. -/
def twoOrders : Loader :=
  ⟨fun _ => .ok [Row.ofList [("id", .text "1")], Row.ofList [("id", .text "2")]], true⟩

theorem executeText_twoOrders :
    let work := executeText twoOrders "3" "SELECT id FROM orders WHERE id > 1"
    let later := executeText twoOrders "5" "SELECT id FROM orders WHERE id > 1"
    let trace : Log.Logger := ⟨.trace, []⟩
    let info : Log.Logger := ⟨.info, ["earlier"]⟩
    trace.threshold.rank ≤ info.threshold.rank ∧
      (trace.written work.entries).length = 7 ∧ (info.written later.entries).length = 3 ∧
      (later.under info).1 = (work.under trace).1 ∧
      (info.written later.entries).map Log.Entry.masked =
        info.written ((trace.written work.entries).map Log.Entry.masked) := by
  intro work later trace info
  obtain ⟨houtcome, -, -, -, -, hwritten⟩ := executeText_thresholds twoOrders "3" "5"
    "SELECT id FROM orders WHERE id > 1" trace info (by decide)
  exact ⟨by decide, by decide +kernel, by decide +kernel, houtcome, hwritten⟩

end Query

end Tabular
