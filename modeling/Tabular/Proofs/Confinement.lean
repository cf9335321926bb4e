import Tabular.Load.TableFiles
import Tabular.Proofs.Failures
/-!
# Confinement

A query over the tables of a directory reads at most two files, and both are entries of that
directory: their paths are the directory, a slash where one is needed, and a plain name. No other
file changes what the query returns or logs.
-/

namespace Tabular

/-- The last part of a path, when it names an entry of what stands before it. -/
def IsPlainName (name : String) : Prop :=
  '/' ∉ name.toList ∧ name ≠ "." ∧ name ≠ ".."

/-! ## Names and paths -/

namespace TableFiles

theorem hasDoublePoint_iff {cs : List Char} : hasDoublePoint cs = true ↔ ['.', '.'] <:+: cs := by
  fun_induction hasDoublePoint cs with
  | case1 cs => exact iff_of_true rfl ⟨[], cs, rfl⟩
  | case2 c cs hpoints ih =>
    rw [ih, List.infix_cons_iff, or_iff_right]
    rintro ⟨rest, hrest⟩
    simp only [List.cons_append, List.nil_append, List.cons.injEq] at hrest
    exact hpoints rest hrest.1.symm hrest.2.symm
  | case3 => simp

theorem isTableName_iff {table : String} :
    isTableName table = true ↔
      table ≠ "" ∧ '/' ∉ table.toList ∧ '\\' ∉ table.toList ∧ ¬ ['.', '.'] <:+: table.toList := by
  rw [← hasDoublePoint_iff]
  simp [isTableName, and_assoc]

/-- What stands between a directory and a name in it. -/
def separator (directory : String) : String :=
  if directory = "" ∨ directory.toList.getLast? = some '/' then "" else "/"

theorem joinPath_eq (directory name : String) :
    joinPath directory name = directory ++ separator directory ++ name := by
  unfold joinPath separator
  simp only [Bool.or_eq_true, decide_eq_true_eq, String.isEmpty_iff]
  split <;> simp

variable {tables : TableFiles}

def fileName (tables : TableFiles) (table : String) : String :=
  table ++ "." ++ tables.extension

theorem path?_eq_some_iff {table path : String} :
    tables.path? table = some path ↔ isTableName table = true ∧
      path = tables.directory ++ separator tables.directory ++ tables.fileName table := by
  unfold path? fileName
  rw [joinPath_eq, Option.ite_none_right_eq_some, Option.some_inj, @eq_comm _ path]

/-- A name before the point and an extension after it leave no room for a name of points only. -/
theorem isPlainName_fileName {table : String} (hextension : tables.extension ≠ "")
    (hslash : '/' ∉ tables.extension.toList) (h : isTableName table = true) :
    IsPlainName (tables.fileName table) := by
  obtain ⟨hname, hnoSlash, -, -⟩ := isTableName_iff.1 h
  have hlength : 2 < (tables.fileName table).toList.length := by
    have := List.length_pos_iff.2 (mt String.toList_eq_nil_iff.1 hname)
    have := List.length_pos_iff.2 (mt String.toList_eq_nil_iff.1 hextension)
    have : ".".toList.length = 1 := rfl
    simp only [fileName, String.toList_append, List.length_append]
    omega
  refine ⟨by simp [fileName, hnoSlash, hslash], ?_, ?_⟩
  all_goals
    intro hpoints
    rw [hpoints] at hlength
    exact absurd hlength (by decide)

theorem path?_injective {table other path : String} (h : tables.path? table = some path)
    (hother : tables.path? other = some path) : table = other := by
  obtain ⟨-, rfl⟩ := path?_eq_some_iff.1 h
  obtain ⟨-, hpath⟩ := path?_eq_some_iff.1 hother
  simpa [fileName, String.append_assoc] using hpath

theorem load_of_path?_eq_none {table : String} (h : tables.path? table = none) (files : Files) :
    tables.load files table = .error (.tableNotFound table "invalid table name") := by
  rw [load, h]

/-- Loading a table reads its own file and no other. -/
theorem load_congr {files files' : Files} {table : String}
    (h : ∀ path, tables.path? table = some path → files path = files' path) :
    tables.load files table = tables.load files' table := by
  unfold load
  cases hpath : tables.path? table with
  | none => rfl
  | some path => simp only [h path hpath]

/-- The files that a query may read. A query whose own table has no path reads none. -/
def queryPaths (tables : TableFiles) (query : Query) : List String :=
  match tables.path? query.table with
  | none => []
  | some path => path :: (query.join.bind fun join => tables.path? join.table).toList

theorem length_queryPaths (tables : TableFiles) (query : Query) :
    (tables.queryPaths query).length ≤ 2 := by
  unfold queryPaths
  split
  · simp
  · cases query.join.bind fun join => tables.path? join.table <;> simp

end TableFiles

/-! ## Queries -/

/-- A query asks its loader for the tables that it names and for nothing else, and for the second
only once it has the first. -/
theorem Query.execute_congr {loader loader' : Loader} {query : Query} (elapsed : String)
    (hreports : loader.reports = loader'.reports)
    (hbase : loader.load query.table = loader'.load query.table)
    (hjoined : ∀ base join, loader.load query.table = .ok base → query.join = some join →
      loader.load join.table = loader'.load join.table) :
    query.execute loader elapsed = query.execute loader' elapsed := by
  have hfetch (table : String) (h : loader.load table = loader'.load table) :
      loader.fetch table = loader'.fetch table := by
    unfold Loader.fetch Loader.entries
    rw [h, hreports]
  have hsource : query.sourceRows loader = query.sourceRows loader' := by
    unfold sourceRows
    rw [← hfetch _ hbase]
    cases hload : loader.load query.table with
    | error error =>
      simp only [Loader.fetch, hload]
      rfl
    | ok base =>
      cases hjoin : query.join with
      | none => rfl
      | some join => simp only [hfetch _ (hjoined base join hload hjoin)]
  unfold execute answer
  rw [hsource]

namespace TableFiles
variable {tables : TableFiles}

theorem execute_congr_files {query : Query} {files files' : Files} (elapsed : String)
    (h : ∀ path ∈ tables.queryPaths query, files path = files' path) :
    query.execute (tables.loader files) elapsed = query.execute (tables.loader files') elapsed := by
  refine Query.execute_congr elapsed rfl (load_congr fun path hpath => h path ?_)
    fun base join hbase hjoin => load_congr fun path hpath => h path ?_
  · simp [queryPaths, hpath]
  · -- The first table was loaded, so it has a path.
    cases hfirst : tables.path? query.table with
    | none => cases (load_of_path?_eq_none hfirst files).symm.trans hbase
    | some first => simp [queryPaths, hfirst, hjoin, hpath]

/-- What a query may read stands in the directory, each table in a file of its own; nothing else
changes its outcome or its log, and a name that leads out of the directory names no table. -/
theorem confined (tables : TableFiles) (hextension : tables.extension ≠ "")
    (hslash : '/' ∉ tables.extension.toList) :
    (∀ table, tables.path? table = none ∨ ∃ name, IsPlainName name ∧
      tables.path? table = some (tables.directory ++ separator tables.directory ++ name)) ∧
    (∀ table other path, tables.path? table = some path → tables.path? other = some path →
      table = other) ∧
    (∀ (query : Query) (files files' : Files) (elapsed : String),
      (tables.queryPaths query).length ≤ 2 ∧
        ((∀ path ∈ tables.queryPaths query, files path = files' path) →
          query.execute (tables.loader files) elapsed =
            query.execute (tables.loader files') elapsed)) ∧
    (∀ table files, tables.path? table = none →
      tables.load files table = .error (.tableNotFound table "invalid table name")) ∧
    (∀ (query : Query) (files : Files) (elapsed : String), tables.path? query.table = none →
      tables.queryPaths query = [] ∧
        (query.execute (tables.loader files) elapsed).outcome =
          .error (.load (.tableNotFound query.table "invalid table name"))) ∧
    (∀ (query : Query) (files : Files) (elapsed : String) base join,
      tables.load files query.table = .ok base → query.join = some join →
      tables.path? join.table = none →
        (query.execute (tables.loader files) elapsed).outcome =
          .error (.load (.tableNotFound join.table "invalid table name"))) := by
  refine ⟨fun table => ?_, fun _ _ _ => path?_injective, fun query files files' elapsed =>
    ⟨length_queryPaths tables query, execute_congr_files elapsed⟩,
    fun table files h => load_of_path?_eq_none h files, fun query files elapsed h => ⟨?_, ?_⟩,
    fun query files elapsed base join hbase hjoin h => ?_⟩
  · cases hpath : tables.path? table with
    | none => exact .inl rfl
    | some path =>
      obtain ⟨hname, rfl⟩ := path?_eq_some_iff.1 hpath
      exact .inr ⟨_, isPlainName_fileName hextension hslash hname, rfl⟩
  · rw [queryPaths, h]
  · exact Query.outcome_of_fails elapsed (.base (load_of_path?_eq_none h files))
  · exact Query.outcome_of_fails elapsed (.joined hbase hjoin (load_of_path?_eq_none h files))

/-- The tables of a shop. -/
def shop : TableFiles := ⟨"data", ',', "csv"⟩

/-- The lines "id" and "1" in the directory, and something at every other path. -/
def shopFiles (elsewhere : Except ReadError (List UInt8)) : Files := fun path =>
  if path = "data/orders.csv" then .ok [105, 100, 10, 49, 10] else elsewhere

/-- The orders, with what a file outside the directory says about them. -/
def leakingQuery : Query :=
  (Query.select "orders" ["orders.id", "secret.id"]).withJoin
    ⟨.left, "../secret", "orders.id", "secret.id"⟩

theorem confined_shop :
    shop.path? "orders" = some "data/orders.csv" ∧ shop.path? "../secret" = none ∧
      (leakingQuery.execute (shop.loader (shopFiles (.error .notFound))) "0" =
        leakingQuery.execute (shop.loader (shopFiles (.ok [0]))) "0") ∧
      (leakingQuery.execute (shop.loader (shopFiles (.ok [0]))) "0").outcome =
        .error (.load (.tableNotFound "../secret" "invalid table name")) := by
  have hpath : shop.path? "orders" = some "data/orders.csv" := by decide
  have hnone : shop.path? "../secret" = none := by decide
  have hpaths : shop.queryPaths leakingQuery = ["data/orders.csv"] := by decide
  have hload : shop.load (shopFiles (.ok [0])) "orders" =
      .ok [Row.ofList [("id", .text "1")]] := by rfl
  obtain ⟨-, -, hsame, -, -, hjoined⟩ := confined shop (by decide) (by decide)
  refine ⟨hpath, hnone, (hsame leakingQuery _ _ "0").2 fun path hmem => ?_,
    hjoined leakingQuery _ "0" _ _ hload rfl hnone⟩
  rw [hpaths, List.mem_singleton] at hmem
  rw [hmem]
  rfl

end TableFiles

end Tabular
