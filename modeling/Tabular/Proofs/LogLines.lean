import Mathlib.Data.List.Nodup
import Tabular.Log
import Tabular.Proofs.WrittenJson
/-!
# Lines of the log

An entry is one line, whatever its name and its fields hold, and the line can be read back. So what
is logged can pass neither for two entries nor for another one. The fields are a set of named texts:
in what order they are given does not show.
-/

namespace Tabular

/-! ## Sorted members -/

namespace Json
variable {α : Type} {members members' : List (String × α)}

theorem mem_sorted {member : String × α} : member ∈ sorted members ↔ member ∈ members :=
  (List.mergeSort_perm _ _).mem_iff

theorem pairwise_sorted (members : List (String × α)) :
    (sorted members).Pairwise fun a b => a.1 ≤ b.1 := by
  have htrans (a b c : String × α) (hab : decide (a.1 ≤ b.1) = true)
      (hbc : decide (b.1 ≤ c.1) = true) : decide (a.1 ≤ c.1) = true :=
    decide_eq_true (String.le_trans (of_decide_eq_true hab) (of_decide_eq_true hbc))
  have htotal (a b : String × α) : (decide (a.1 ≤ b.1) || decide (b.1 ≤ a.1)) = true := by
    simpa using String.le_total a.1 b.1
  exact (List.pairwise_mergeSort htrans htotal members).imp of_decide_eq_true

/-- Under distinct names the order of the members does not matter. -/
theorem sorted_perm (hnames : (members.map Prod.fst).Nodup) (h : members'.Perm members) :
    sorted members' = sorted members := by
  have hperm : (sorted members').Perm (sorted members) :=
    (List.mergeSort_perm _ _).trans (h.trans (List.mergeSort_perm _ _).symm)
  refine hperm.eq_of_pairwise (fun a b ha hb hab hba => ?_) (pairwise_sorted members')
    (pairwise_sorted members)
  -- The order is one of names only, but no two members share a name.
  rw [mem_sorted] at hb
  rw [hperm.mem_iff, mem_sorted] at ha
  exact List.inj_on_of_nodup_map hnames ha hb (String.le_antisymm hab hba)

end Json

namespace Log

theorem Severity.name_injective : Function.Injective Severity.name := by
  intro a b h
  cases a <;> cases b <;> first
    | rfl
    | exact absurd h (by decide)

namespace Entry

/-! ## The members of a line -/

/-- What the line of an entry holds, in its order. -/
def members (entry : Entry) : List (String × String) :=
  [("event", entry.event), ("severity", entry.severity.name)] ++ Json.sorted entry.fields

/-- The line without its line break. -/
def body (entry : Entry) : String :=
  Json.object (entry.members.map fun (name, content) => (name, Json.text content))

theorem line_eq (entry : Entry) : entry.line = entry.body ++ "\n" := rfl

theorem written_body (entry : Entry) :
    Json.Written entry.body
      (.object (entry.members.map fun (name, content) => (some name, .text (some content)))) :=
  @Json.written_object _ Json.text (fun content => .text (some content)) entry.members
    fun member _ => Json.written_text member.2

/-- A line can be read back. -/
theorem members_injective {a b : Entry} (h : a.line = b.line) : a.members = b.members := by
  have hbody : a.body = b.body := (String.append_left_inj "\n").1 h
  have hread := a.written_body.read?
  rw [hbody, b.written_body.read?] at hread
  injection Option.some.inj hread with hmembers
  refine (List.map_injective_iff.2 ?_ hmembers).symm
  rintro ⟨name, content⟩ ⟨name', content'⟩ h
  cases h
  rfl

theorem of_members_eq {a b : Entry} (h : a.members = b.members) :
    a.severity = b.severity ∧ a.event = b.event ∧
      Json.sorted a.fields = Json.sorted b.fields := by
  injection h with hevent h
  injection h with hseverity hfields
  exact ⟨Severity.name_injective (congrArg Prod.snd hseverity), congrArg Prod.snd hevent,
    hfields⟩

/-- The order of the fields does not show. -/
theorem line_perm {a : Entry} {fields : List (String × String)}
    (ha : (a.fields.map Prod.fst).Nodup) (h : fields.Perm a.fields) :
    { a with fields }.line = a.line := by
  have hmembers : { a with fields }.members = a.members := by
    rw [members, Json.sorted_perm ha h]
    rfl
  rw [line_eq, line_eq, body, hmembers, body]

/-- The one line break of a line ends it. Entries that differ in the order of their fields only have
the same line, and entries of the same line do not differ in anything else. -/
theorem line_unambiguous (a b : Entry) (ha : (a.fields.map Prod.fst).Nodup)
    (hb : (b.fields.map Prod.fst).Nodup) :
    (∃ cs, a.line.toList = cs ++ ['\n'] ∧ '\n' ∉ cs) ∧
      (∀ fields, fields.Perm a.fields → { a with fields }.line = a.line) ∧
      (a.line = b.line ↔ a.severity = b.severity ∧ a.event = b.event ∧
        ∀ field, field ∈ a.fields ↔ field ∈ b.fields) := by
  refine ⟨⟨a.body.toList, ?_, a.written_body.line⟩, fun fields => line_perm ha, fun h => ?_, ?_⟩
  · rw [line_eq, String.toList_append]
    rfl
  · obtain ⟨hseverity, hevent, hfields⟩ := of_members_eq (members_injective h)
    refine ⟨hseverity, hevent, fun field => ?_⟩
    rw [← Json.mem_sorted, hfields, Json.mem_sorted]
  · rintro ⟨hseverity, hevent, hfields⟩
    have hperm : b.fields.Perm a.fields := by
      rw [List.perm_ext_iff_of_nodup hb.of_map ha.of_map]
      exact fun field => (hfields field).symm
    obtain ⟨severity, event, fields⟩ := b
    cases hseverity
    cases hevent
    exact (line_perm ha hperm).symm

/-- A rejected query of two lines, with its fields in either order. A text that spells the second
field out inside the first one does not pass for it. -/
theorem line_rejected :
    let rejected : Entry := ⟨.error, "REJECTED", [("code", "X"), ("sql", "SELECT a\nFROM b")]⟩
    let reordered : Entry := ⟨.error, "REJECTED", [("sql", "SELECT a\nFROM b"), ("code", "X")]⟩
    let forged : Entry := ⟨.error, "REJECTED", [("code", "X\",\"sql\":\"SELECT a\\nFROM b")]⟩
    rejected.line = reordered.line ∧ rejected.line ≠ forged.line := by
  intro rejected reordered forged
  have hrejected : (rejected.fields.map Prod.fst).Nodup := by decide
  have hreordered : (reordered.fields.map Prod.fst).Nodup := by decide
  have hforged : (forged.fields.map Prod.fst).Nodup := by decide
  obtain ⟨-, -, hsame⟩ := line_unambiguous rejected reordered hrejected hreordered
  obtain ⟨-, -, hforgery⟩ := line_unambiguous rejected forged hrejected hforged
  refine ⟨hsame.2 ⟨rfl, rfl, fun _ => (List.Perm.swap _ _ []).mem_iff⟩, fun h => ?_⟩
  have hsql : ("sql", "SELECT a\nFROM b") ∈ forged.fields :=
    ((hforgery.1 h).2.2 _).1 (by decide)
  exact absurd hsql (by decide)

end Entry

end Log

end Tabular
