import Mathlib.Data.List.Forall2
import Tabular.Proofs.Configurations
import Tabular.Proofs.Rows
import Tabular.Proofs.Utf8
import Tabular.Proofs.WrittenJson
/-!
# Configuration files

A configuration takes each setting from its file, or the default where the file leaves it out. The
checks are made on what the file says, before a directory from elsewhere comes in, so the settings
that were resolved never fail a later check.
-/

namespace Tabular.Config

/-! ## What a document gives -/

/-- An object gives a setting by the member of that name, a list by the item in the setting's
place. -/
def Gives (name content : String) : Json.Value → Prop
  | .object members => (some name, Json.Value.text (some content)) ∈ members
  | .array items => ∃ i : Nat, settings[i]? = some name ∧ items[i]? = some (Json.Value.text (some content))
  | _ => False

/-- The value of a setting is what the document gives, and `fallback` where it gives nothing. -/
structure Takes (document : Json.Value) (name value fallback : String) : Prop where
  given : ∀ content, Gives name content document → value = content
  omitted : (∀ content, ¬ Gives name content document) → value = fallback

/-- Every setting is taken from the document, or is the default. -/
structure Says (document : Json.Value) (config : Config) : Prop where
  dataDir : Takes document "data_dir" config.dataDir default.dataDir
  delimiter : Takes document "delimiter" config.delimiter default.delimiter
  extension : Takes document "extension" config.extension default.extension
  logLevel : Takes document "log_level" config.logLevel default.logLevel

section Documents
variable {α β : Type} {f : α → Option β} {items : List α} {results : List β}

theorem forall₂_of_mapM (h : items.mapM f = some results) :
    List.Forall₂ (fun a b => f a = some b) items results := by
  induction items generalizing results with
  | nil =>
    cases h
    exact .nil
  | cons a items ih =>
    rw [List.mapM_cons] at h
    obtain ⟨first, hfirst, h⟩ := Option.bind_eq_some_iff.1 h
    obtain ⟨others, hothers, h⟩ := Option.bind_eq_some_iff.1 h
    cases h
    exact .cons hfirst (ih hothers)

theorem mem_of_mapM_iff (h : items.mapM f = some results) {b : β} :
    b ∈ results ↔ ∃ a ∈ items, f a = some b := by
  have hpairs := forall₂_of_mapM h
  clear h
  induction hpairs with
  | nil => simp
  | cons ha _ ih => simp [ih, ha, eq_comm]

theorem getElem?_of_mapM_iff (h : items.mapM f = some results) {i : Nat} {b : β} :
    results[i]? = some b ↔ ∃ a, items[i]? = some a ∧ f a = some b := by
  have hpairs := forall₂_of_mapM h
  clear h
  induction hpairs generalizing i with
  | nil => simp
  | cons ha _ ih =>
    cases i with
    | zero => simp [ha]
    | succ i => simp [ih]

theorem content?_eq_some_iff {value : Json.Value} {content : String} :
    content? value = some content ↔ value = .text (some content) := by
  cases value <;> simp [content?]

theorem setting?_eq_some_iff {member : Option String × Json.Value} {name content : String} :
    setting? member = some (some (name, content)) ↔
      member = (some name, .text (some content)) ∧ name ∈ settings := by
  constructor
  · intro h
    obtain ⟨given, hgiven, h⟩ := Option.bind_eq_some_iff.1 h
    split at h
    · rename_i hname
      obtain ⟨c, hc, h⟩ := Option.bind_eq_some_iff.1 h
      cases h
      rw [content?_eq_some_iff] at hc
      exact ⟨Prod.ext hgiven hc, List.contains_iff_mem.1 hname⟩
    · cases h
  · rintro ⟨rfl, hname⟩
    simp [setting?, content?, hname]

/-- A list without repeats gives each of its items at most one partner. -/
theorem nodup_map_fst_zip {names : List α} (h : names.Nodup) (items : List β) :
    ((names.zip items).map Prod.fst).Nodup := by
  refine List.Nodup.sublist ?_ h
  induction names generalizing items with
  | nil => exact List.nil_sublist _
  | cons name names ih =>
    cases items with
    | nil => exact List.nil_sublist _
    | cons item items => exact (ih (List.nodup_cons.1 h).2 items).cons_cons name

/-- The settings of a document, each under its name and none twice. -/
theorem exists_given {document : Json.Value} {config : Config} (h : ofJson? document = some config) :
    ∃ given, config = ofSettings given ∧ (given.map Prod.fst).Nodup ∧
      ∀ name ∈ settings, ∀ content, Gives name content document ↔ (name, content) ∈ given := by
  cases document with
  | text content => cases h
  | other => cases h
  | object members =>
    obtain ⟨found, hfound, h⟩ := Option.bind_eq_some_iff.1 h
    have hmem (pair : String × String) :
        pair ∈ found.filterMap id ↔ ∃ member ∈ members, setting? member = some (some pair) := by
      rw [List.mem_filterMap, ← mem_of_mapM_iff hfound]
      simp
    dsimp only at h
    split at h
    · rename_i hlength
      cases h
      refine ⟨_, rfl, nodup_of_length_eraseDups (by simpa using hlength), fun name hname content => ?_⟩
      rw [hmem]
      simp only [setting?_eq_some_iff, hname, and_true, exists_eq_right]
      rfl
    · cases h
  | array items =>
    obtain ⟨contents, hcontents, h⟩ := Option.bind_eq_some_iff.1 h
    split at h
    · rename_i hlength
      cases h
      refine ⟨_, rfl, nodup_map_fst_zip (by decide) contents, fun name _ content => ?_⟩
      rw [List.mem_iff_getElem?]
      simp only [List.getElem?_zip_eq_some, getElem?_of_mapM_iff hcontents, content?_eq_some_iff,
        exists_eq_right]
      rfl
    · cases h

theorem takes_lookup {document : Json.Value} {given : List (String × String)} {name : String}
    (hnames : (given.map Prod.fst).Nodup)
    (hgiven : ∀ content, Gives name content document ↔ (name, content) ∈ given) (fallback : String) :
    Takes document name ((given.lookup name).getD fallback) fallback where
  given content h := by rw [lookup_of_mem hnames ((hgiven content).1 h), Option.getD_some]
  omitted h := by
    have hnone : given.lookup name = none := by
      rw [List.lookup_eq_none_iff]
      rintro ⟨other, content⟩ hmem
      refine bne_iff_ne.2 ?_
      rintro rfl
      exact h content ((hgiven content).2 hmem)
    rw [hnone, Option.getD_none]

/-- A document that is read says what the configuration is. -/
theorem says_of_ofJson? {document : Json.Value} {config : Config}
    (h : ofJson? document = some config) : config.Says document := by
  obtain ⟨given, rfl, hnames, hgiven⟩ := exists_given h
  exact ⟨takes_lookup hnames (hgiven _ (by decide)) _, takes_lookup hnames (hgiven _ (by decide)) _,
    takes_lookup hnames (hgiven _ (by decide)) _, takes_lookup hnames (hgiven _ (by decide)) _⟩

end Documents

/-! ## What the checks refuse -/

/-- The first check that fails, and the fault it reports. -/
inductive Faulty (config : Config) : ConfigError → Prop
  | delimiter (h : ∀ c, config.delimiter.toList ≠ [c]) : Faulty config (.delimiter config.delimiter)
  | extension {c : Char} (hc : config.delimiter.toList = [c]) (h : config.extension = "") :
    Faulty config .emptyExtension
  | logLevel {c : Char} (hc : config.delimiter.toList = [c]) (hextension : config.extension ≠ "")
    (h : ∀ level : Log.Severity,
      Text.sameLetters config.logLevel.toList level.name.toList = false) :
    Faulty config (.logLevel config.logLevel)

section Checks
variable {config : Config}

theorem delimiterChar_of_toList {c : Char} (hc : config.delimiter.toList = [c]) :
    config.delimiterChar = .ok c := by
  rw [delimiterChar, hc]

theorem severity_of_unknown (h : ∀ level : Log.Severity,
    Text.sameLetters config.logLevel.toList level.name.toList = false) :
    config.severity = .error (.logLevel config.logLevel) := by
  have hnone : Log.Severity.ofName? config.logLevel = none := by
    rw [Log.Severity.ofName?, List.find?_eq_none]
    exact fun level _ => Bool.eq_false_iff.1 (h level)
  rw [severity, hnone]

theorem Faulty.validate {error : ConfigError} (h : config.Faulty error) :
    config.validate = .error error := by
  cases h with
  | delimiter h =>
    have hdelimiter : config.delimiterChar = .error (.delimiter config.delimiter) := by
      rw [delimiterChar]
      split
      · rename_i c hc
        exact absurd hc (h c)
      · rfl
    rw [Config.validate, hdelimiter]
    rfl
  | extension hc h =>
    rw [Config.validate, delimiterChar_of_toList hc, h]
    rfl
  | logLevel hc hextension h =>
    rw [Config.validate, delimiterChar_of_toList hc, severity_of_unknown h]
    simp only [String.isEmpty_iff, hextension]
    rfl

theorem exists_faulty (h : (∀ c, config.delimiter.toList ≠ [c]) ∨ config.extension = "" ∨
    ∀ level : Log.Severity, Text.sameLetters config.logLevel.toList level.name.toList = false) :
    ∃ error, config.Faulty error := by
  by_cases hdelimiter : ∃ c, config.delimiter.toList = [c]
  · obtain ⟨c, hc⟩ := hdelimiter
    by_cases hextension : config.extension = ""
    · exact ⟨_, .extension hc hextension⟩
    · have hlevel := (h.resolve_left fun hne => hne c hc).resolve_left hextension
      exact ⟨_, .logLevel hc hextension hlevel⟩
  · exact ⟨_, .delimiter (not_exists.1 hdelimiter)⟩

end Checks

/-! ## Resolved settings -/

/-- The document in a file. -/
def IsDocument (files : Files) (path : String) (document : Json.Value) : Prop :=
  ∃ bytes cs, files path = .ok bytes ∧ Text.decodeUtf8 bytes = .ok cs ∧
    Json.read? (String.ofList cs) = some document

/-- A setting is that of the file, or the default if the file leaves it out or there is no file. -/
def IsResolved (files : Files) (path : Option String) (name value fallback : String) : Prop :=
  match path with
  | none => value = fallback
  | some path => ∃ document, IsDocument files path document ∧ Takes document name value fallback

section Resolved
variable {files : Files} {config : Config}

theorem exists_document_of_load {path : String} (h : load files path = .ok config) :
    ∃ document, IsDocument files path document ∧ ofJson? document = some config := by
  obtain ⟨bytes, hbytes, h⟩ := exists_of_bind h
  obtain ⟨read, hread, h⟩ := exists_of_bind h
  obtain ⟨⟨⟩, -, h⟩ := exists_of_bind h
  cases h
  have hfile : files path = .ok bytes := by
    cases hfile : files path with
    | error error => rw [hfile] at hbytes; cases hbytes
    | ok found => rw [hfile] at hbytes; cases hbytes; rfl
  rw [ofBytes] at hread
  split at hread
  · cases hread
  · rename_i cs hcs
    cases hdocument : (Json.read? (String.ofList cs)).bind ofJson? with
    | none => rw [hdocument] at hread; cases hread
    | some found =>
      rw [hdocument] at hread
      cases hread
      obtain ⟨document, hdocument, hjson⟩ := Option.bind_eq_some_iff.1 hdocument
      exact ⟨document, ⟨bytes, cs, hfile, hcs, hdocument⟩, hjson⟩

/-- A document that can be read comes down to its checks. -/
theorem load_of_document {path : String} {document : Json.Value} (h : IsDocument files path document)
    (hjson : ofJson? document = some config) :
    load files path = config.validate.map fun _ => config := by
  obtain ⟨bytes, cs, hbytes, hcs, hdocument⟩ := h
  have hread : ofBytes bytes = .ok config := by
    simp only [ofBytes, hcs, hdocument, Option.bind_some, hjson]
  rw [load, hbytes]
  change (ofBytes bytes).bind _ = _
  rw [hread]
  change (config.validate).bind _ = _
  cases config.validate <;> rfl

/-- Every setting of the file or of the defaults, before another directory comes in. -/
theorem isResolved_of_source {path : Option String} (h : (path.map (load files)).getD (.ok default) =
    .ok config) :
    IsResolved files path "data_dir" config.dataDir default.dataDir ∧
      IsResolved files path "delimiter" config.delimiter default.delimiter ∧
      IsResolved files path "extension" config.extension default.extension ∧
      IsResolved files path "log_level" config.logLevel default.logLevel := by
  cases path with
  | none =>
    cases h
    exact ⟨rfl, rfl, rfl, rfl⟩
  | some path =>
    obtain ⟨document, hdocument, hjson⟩ := exists_document_of_load h
    have hsays := says_of_ofJson? hjson
    exact ⟨⟨document, hdocument, hsays.dataDir⟩, ⟨document, hdocument, hsays.delimiter⟩,
      ⟨document, hdocument, hsays.extension⟩, ⟨document, hdocument, hsays.logLevel⟩⟩

theorem exists_source_of_resolve {path dataDir : Option String}
    (h : resolve files path dataDir = .ok config) :
    ∃ source, (path.map (load files)).getD (.ok default) = .ok source ∧
      config = source.inDirectory dataDir := by
  rw [resolve_eq] at h
  cases hsource : (path.map (load files)).getD (.ok default) with
  | error error => rw [hsource] at h; cases h
  | ok source => rw [hsource] at h; cases h; exact ⟨source, rfl, rfl⟩

end Resolved

/-- A configuration that resolves passes every later use of its settings. The directory is the one
given from elsewhere, and the other settings are those of the file or the defaults. A file that can
be read but not used is refused with the fault of its first bad setting, whatever the directory. -/
theorem resolve_usable (files : Files) (path dataDir : Option String) :
    (∀ config, resolve files path dataDir = .ok config →
      config.validate = .ok () ∧
      (∃ c level, config.delimiterChar = .ok c ∧ config.severity = .ok level ∧
        config.tableFiles = .ok ⟨config.dataDir, c, config.extension⟩) ∧
      (∀ dir, dataDir = some dir → config.dataDir = dir) ∧
      (dataDir = none → IsResolved files path "data_dir" config.dataDir default.dataDir) ∧
      IsResolved files path "delimiter" config.delimiter default.delimiter ∧
      IsResolved files path "extension" config.extension default.extension ∧
      IsResolved files path "log_level" config.logLevel default.logLevel) ∧
    (∀ file document read, path = some file → IsDocument files file document →
      ofJson? document = some read →
      ((∀ c, read.delimiter.toList ≠ [c]) ∨ read.extension = "" ∨
        ∀ level : Log.Severity, Text.sameLetters read.logLevel.toList level.name.toList = false) →
      ∃ error, read.Faulty error ∧ resolve files path dataDir = .error error) := by
  refine ⟨fun config h => ?_, fun file document read hpath hdocument hjson hbad => ?_⟩
  · have husable := usable_of_resolve h
    obtain ⟨c, hc⟩ := husable.delimiter
    obtain ⟨level, hlevel⟩ := husable.severity
    have htables : config.tableFiles = .ok ⟨config.dataDir, c, config.extension⟩ := by
      rw [tableFiles, hc]
      rfl
    obtain ⟨source, hsource, rfl⟩ := exists_source_of_resolve h
    obtain ⟨hdir, hdelimiter, hextension, hlogLevel⟩ := isResolved_of_source hsource
    refine ⟨validate_iff.2 husable, ⟨c, level, hc, hlevel, htables⟩, ?_, ?_, ?_⟩
    · rintro dir rfl
      rfl
    · rintro rfl
      exact hdir
    · cases dataDir <;> exact ⟨hdelimiter, hextension, hlogLevel⟩
  · obtain ⟨error, herror⟩ := exists_faulty hbad
    refine ⟨error, herror, ?_⟩
    rw [resolve_eq, hpath, Option.map_some, Option.getD_some, load_of_document hdocument hjson,
      herror.validate]
    rfl

/-- The settings are in one file. -/
def settingsFile (content : String) : Files := fun path =>
  if path = "settings" then .ok (Text.encodeUtf8 content.toList) else .error .notFound

/-- Another directory comes in behind the settings of a file that leaves out its extension, and does
not help a file whose delimiter is two characters. -/
theorem resolve_shopSettings :
    let loud := "\x7b\"log_level\":\"eRRoR\",\"delimiter\":\";\",\"port\":[80]\x7d"
    let doubled := "[\"data\",\",,\"]"
    (∃ config, resolve (settingsFile loud) (some "settings") (some "shop") = .ok config ∧
      config.validate = .ok () ∧ config.dataDir = "shop" ∧
      IsResolved (settingsFile loud) (some "settings") "log_level" config.logLevel "warn") ∧
    ∃ error, resolve (settingsFile doubled) (some "settings") (some "shop") = .error error := by
  intro loud doubled
  have hloud : resolve (settingsFile loud) (some "settings") (some "shop") =
      .ok ⟨"shop", ";", "csv", "eRRoR"⟩ := by decide +kernel
  have hwritten : Json.array (["data", ",,"].map Json.text) = doubled := by decide +kernel
  have hdoubled : Json.read? doubled = some (.array [.text (some "data"), .text (some ",,")]) :=
    hwritten ▸ (Json.written_array fun item _ => Json.written_text item).read?
  have hdocument : IsDocument (settingsFile doubled) "settings"
      (.array [.text (some "data"), .text (some ",,")]) :=
    ⟨_, doubled.toList, rfl, Text.decodeUtf8_iff.2 rfl, by rwa [String.ofList_toList]⟩
  obtain ⟨hvalid, -, hdir, -, -, -, hlevel⟩ :=
    (resolve_usable (settingsFile loud) (some "settings") (some "shop")).1 _ hloud
  obtain ⟨error, -, herror⟩ :=
    (resolve_usable (settingsFile doubled) (some "settings") (some "shop")).2 _ _
      ⟨"data", ",,", "csv", "warn"⟩ rfl hdocument rfl (.inl (by simp))
  exact ⟨⟨_, hloud, hvalid, hdir "shop" rfl, hlevel⟩, error, herror⟩

end Tabular.Config
