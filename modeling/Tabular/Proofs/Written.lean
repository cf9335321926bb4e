import Tabular.Query.Basic
import Tabular.Query.Where
/-!
# Queries as they are written

A query text by its parts: the names, values and keywords that are written, and the blanks between
them. Each part carries what makes it well formed, so every `Statement` is a text of the language.
-/

namespace Tabular.Written

/-! ## Words -/

/-- Blanks, or nothing. -/
structure Blanks where
  text : List Char
  blank : ∀ c ∈ text, Text.isBlank c = true

namespace Blanks

def empty : Blanks := ⟨[], fun _ h => absurd h List.not_mem_nil⟩

theorem text_empty : empty.text = [] := rfl

def append (a b : Blanks) : Blanks :=
  ⟨a.text ++ b.text, fun c hc => (List.mem_append.1 hc).elim (a.blank c) (b.blank c)⟩

theorem text_append (a b : Blanks) : (a.append b).text = a.text ++ b.text := rfl

end Blanks

/-- One blank or more. -/
structure Gap extends Blanks where
  nonempty : text ≠ []

def Gap.single (c : Char) (h : Text.isBlank c = true) : Gap :=
  ⟨⟨[c], List.forall_mem_singleton.2 h⟩, List.cons_ne_nil c []⟩

def space : Gap := .single ' ' rfl

/-- A keyword in any case. -/
structure Keyword (letters : String) where
  text : List Char
  spells : text.map Char.toLower = letters.toList

def isNameChar (c : Char) : Bool := c.isAlphanum || c == '_' || c == '.'

/-- The keywords that are not names. -/
def reserved : List String := ["select", "from", "where", "group", "by", "join", "on", "and", "or"]

/-- The text is one of the words in some case. -/
def IsOneOf (words : List String) (cs : List Char) : Prop :=
  cs.map Char.toLower ∈ words.map String.toList

instance (words : List String) (cs : List Char) : Decidable (IsOneOf words cs) :=
  inferInstanceAs (Decidable (_ ∈ _))

structure Name where
  text : List Char
  nonempty : text ≠ []
  plain : ∀ c ∈ text, isNameChar c = true
  free : ¬ IsOneOf reserved text

/-- A keyword with the blanks that set it off. -/
structure Word (letters : String) where
  before : Gap
  keyword : Keyword letters
  after : Gap

def Word.text {letters : String} (w : Word letters) : List Char :=
  w.before.text ++ w.keyword.text ++ w.after.text

/-! ## Lists -/

/-- One item or more with a separator between any two. -/
structure Separated (σ α : Type) where
  first : α
  rest : List (σ × α)

namespace Separated
variable {σ α : Type}

def items (l : Separated σ α) : List α := l.first :: l.rest.map (·.2)

def text (separator : σ → List Char) (item : α → List Char) (l : Separated σ α) : List Char :=
  item l.first ++ l.rest.flatMap fun p => separator p.1 ++ item p.2

theorem text_cons (separator : σ → List Char) (item : α → List Char) (first second : α) (s : σ)
    (rest : List (σ × α)) :
    text separator item ⟨first, (s, second) :: rest⟩ =
      item first ++ (separator s ++ text separator item ⟨second, rest⟩) := by
  rw [text, text, List.flatMap_cons, List.append_assoc]

end Separated

structure Comma where
  before : Blanks
  after : Blanks

def Comma.text (comma : Comma) : List Char := comma.before.text ++ ',' :: comma.after.text

/-! ## Select list -/

inductive Argument
  | all
  | name (column : Name)

def Argument.text : Argument → List Char
  | all => ['*']
  | name column => column.text

/-- `FUNC(argument)` with blanks before the parenthesis and around the argument. -/
structure Call where
  function : Name
  before : Blanks
  inside : Blanks
  argument : Argument
  after : Blanks

def Call.text (call : Call) : List Char :=
  call.function.text ++ call.before.text ++ '(' :: call.inside.text ++ call.argument.text ++
    call.after.text ++ [')']

inductive Field
  | plain (name : Name)
  | call (c : Call)

def Field.text : Field → List Char
  | plain name => name.text
  | call c => c.text

/-- Letters, digits and underscores. -/
def IsIdentifier (cs : List Char) : Prop := cs ≠ [] ∧ ∀ c ∈ cs, (c.isAlphanum || c == '_') = true

/-- An identifier, or two with a point between them. -/
def IsColumn (cs : List Char) : Prop :=
  IsIdentifier cs ∨ ∃ table column, IsIdentifier table ∧ IsIdentifier column ∧
    cs = table ++ '.' :: column

def functions : List String := ["sum", "min", "max", "count", "avg"]

/-- What an aggregate can be of: `*` or a column. -/
def Argument.Fits : Argument → Prop
  | all => True
  | name column => IsColumn column.text

/-- One of the five functions in any case. -/
def Call.IsAggregate (call : Call) : Prop :=
  IsOneOf functions call.function.text ∧ call.argument.Fits

def Field.IsAggregate : Field → Prop
  | plain _ => False
  | call c => c.IsAggregate

/-! ## Source -/

def kindLetters : JoinKind → String
  | .inner => "inner"
  | .left => "left"
  | .right => "right"

structure Join where
  before : Gap
  kind : JoinKind
  keyword : Keyword (kindLetters kind)
  join : Word "join"
  table : Name
  on : Word "on"
  left : Name
  beforeEquals : Blanks
  afterEquals : Blanks
  right : Name

namespace Join

/-- The equality after ON. -/
def equality (j : Join) : List Char :=
  j.left.text ++ j.beforeEquals.text ++ '=' :: j.afterEquals.text ++ j.right.text

def text (j : Join) : List Char :=
  j.before.text ++ j.keyword.text ++ j.join.text ++ j.table.text ++ j.on.text ++ j.equality

def clause (j : Join) : JoinClause :=
  ⟨j.kind, String.ofList j.table.text, String.ofList j.left.text, String.ofList j.right.text⟩

end Join

/-! ## Conditions -/

/-- A field without blanks. -/
structure Operand where
  field : Field
  unbroken : ∀ c ∈ field.text, Text.isBlank c = false

def Operand.text (operand : Operand) : List Char := operand.field.text

/-- A word without quotes. It is not AND or OR, and does not end in a semicolon. -/
structure Bare where
  text : List Char
  nonempty : text ≠ []
  unbroken : ∀ c ∈ text, Text.isBlank c = false
  unquoted : ∀ c ∈ text, Query.isQuote c = false
  free : ¬ IsOneOf ["and", "or"] text
  unterminated : text.getLast? ≠ some ';'

/-- The words GROUP BY with blanks around them. -/
def IsGroupBy (cs : List Char) : Prop :=
  ∃ (before : Gap) (group : Keyword "group") (between : Gap) (by' : Keyword "by") (after : Gap),
    cs = before.text ++ group.text ++ between.text ++ by'.text ++ after.text

/-- A text of one line in quotes. It holds neither its quote nor the words GROUP BY, since these
open a clause even here. -/
structure Quoted where
  mark : Char
  content : List Char
  quote : Query.isQuote mark = true
  closed : mark ∉ content
  line : '\n' ∉ content
  ungrouped : ∀ cs, cs <:+: content → ¬ IsGroupBy cs

inductive Value
  | bare (word : Bare)
  | quoted (quoted : Quoted)

namespace Value

def text : Value → List Char
  | bare word => word.text
  | quoted q => q.mark :: q.content ++ [q.mark]

/-- The value without its quotes. -/
def literal : Value → List Char
  | bare word => word.text
  | quoted q => q.content

end Value

/-- A condition with a symbol. It can do without blanks, but then the value must not go on with more
of the symbol. -/
structure Symbolic where
  field : Operand
  before : Blanks
  symbol : List Char
  nonempty : symbol ≠ []
  plain : ∀ c ∈ symbol, Query.isOperatorChar c = true
  after : Blanks
  value : Value
  apart : after.text = [] → ∀ c ∈ value.text.head?, Query.isOperatorChar c = false

def Symbolic.text (c : Symbolic) : List Char :=
  c.field.text ++ c.before.text ++ c.symbol ++ c.after.text ++ c.value.text

/-- A condition with a word of letters. -/
structure Worded where
  field : Operand
  before : Gap
  word : List Char
  nonempty : word ≠ []
  plain : ∀ c ∈ word, c.isAlpha = true
  free : ¬ IsOneOf reserved word
  after : Gap
  value : Value

def Worded.text (c : Worded) : List Char :=
  c.field.text ++ c.before.text ++ c.word ++ c.after.text ++ c.value.text

inductive Predicate
  | symbolic (predicate : Symbolic)
  | worded (predicate : Worded)

namespace Predicate

def text : Predicate → List Char
  | symbolic c => c.text
  | worded c => c.text

def condition : Predicate → Condition
  | symbolic c =>
    ⟨String.ofList c.field.text, String.ofList c.symbol, String.ofList c.value.literal⟩
  | worded c => ⟨String.ofList c.field.text, String.ofList c.word, String.ofList c.value.literal⟩

end Predicate

/-! ## Statements -/

structure Filter where
  word : Word "where"
  predicates : Separated (Word "and") Predicate

def Filter.text (filter : Filter) : List Char :=
  filter.word.text ++ filter.predicates.text Word.text Predicate.text

structure Grouping where
  before : Gap
  group : Keyword "group"
  between : Gap
  by' : Keyword "by"
  after : Gap
  names : Separated Comma Name

namespace Grouping

def list (g : Grouping) : List Char := g.names.text Comma.text Name.text

def text (g : Grouping) : List Char :=
  g.before.text ++ g.group.text ++ g.between.text ++ g.by'.text ++ g.after.text ++ g.list

end Grouping

structure Statement where
  before : Blanks
  select : Keyword "select"
  gap : Gap
  fields : Separated Comma Field
  source : Word "from"
  table : Name
  join : Option Join
  filter : Option Filter
  grouping : Option Grouping
  /-- The blanks before the semicolon, if there is one. -/
  terminator : Option Blanks
  after : Blanks

namespace Statement

def list (s : Statement) : List Char := s.fields.text Comma.text Field.text

/-- What stands before the clauses WHERE and GROUP BY. -/
def origin (s : Statement) : List Char := s.table.text ++ (s.join.map Join.text).getD []

/-- What stands before the clause GROUP BY. -/
def ungrouped (s : Statement) : List Char := s.origin ++ (s.filter.map Filter.text).getD []

def body (s : Statement) : List Char := s.ungrouped ++ (s.grouping.map Grouping.text).getD []

def ending (s : Statement) : List Char :=
  (s.terminator.map fun blanks => blanks.text ++ [';']).getD [] ++ s.after.text

def text (s : Statement) : List Char :=
  s.before.text ++ s.select.text ++ s.gap.text ++ s.list ++ s.source.text ++ s.body ++ s.ending

def predicates (s : Statement) : List Predicate := (s.filter.map (·.predicates.items)).getD []

end Statement

example : ∃ s : Statement, String.ofList s.text =
    "select id,COUNT( * )\tFrom t Where n>=1 and b like x GROUP BY id ;" := by
  let gap : Gap := ⟨⟨[' '], List.all_eq_true.1 rfl⟩, by decide⟩
  let tab : Gap := ⟨⟨['\t'], List.all_eq_true.1 rfl⟩, by decide⟩
  let id : Name := ⟨['i', 'd'], by decide, List.all_eq_true.1 rfl, by decide⟩
  let count : Name := ⟨['C', 'O', 'U', 'N', 'T'], by decide, List.all_eq_true.1 rfl, by decide⟩
  let word (c : Char) (h : isNameChar c = true ∧ ¬ IsOneOf reserved [c]) : Name :=
    ⟨[c], by simp, List.forall_mem_singleton.2 h.1, h.2⟩
  let operand (c : Char) (h : isNameChar c = true ∧ ¬ IsOneOf reserved [c])
      (hc : Text.isBlank c = false) : Operand :=
    ⟨.plain (word c h), List.forall_mem_singleton.2 hc⟩
  let value (c : Char) (h : Text.isBlank c = false ∧ Query.isQuote c = false ∧
      ¬ IsOneOf ["and", "or"] [c] ∧ c ≠ ';') : Bare :=
    ⟨[c], by simp, List.forall_mem_singleton.2 h.1, List.forall_mem_singleton.2 h.2.1,
      h.2.2.1, by simpa using h.2.2.2⟩
  let first : Symbolic :=
    ⟨operand 'n' (by decide) rfl, .empty, ['>', '='], by decide, List.all_eq_true.1 rfl, .empty,
      .bare (value '1' (by decide)), by rintro - c ⟨⟩; rfl⟩
  let second : Worded :=
    ⟨operand 'b' (by decide) rfl, gap, "like".toList, by decide, List.all_eq_true.1 rfl, by decide,
      gap, .bare (value 'x' (by decide))⟩
  let filter : Filter := ⟨⟨gap, ⟨"Where".toList, by decide⟩, gap⟩,
    ⟨.symbolic first, [(⟨gap, ⟨"and".toList, by decide⟩, gap⟩, .worded second)]⟩⟩
  let grouping : Grouping :=
    ⟨gap, ⟨"GROUP".toList, by decide⟩, gap, ⟨"BY".toList, by decide⟩, gap, ⟨id, []⟩⟩
  let statement : Statement := {
    before := .empty
    select := ⟨"select".toList, by decide⟩
    gap
    fields :=
      ⟨.plain id, [(⟨.empty, .empty⟩, .call ⟨count, .empty, gap.toBlanks, .all, gap.toBlanks⟩)]⟩
    source := ⟨tab, ⟨"From".toList, by decide⟩, gap⟩
    table := word 't' (by decide)
    join := none
    filter
    grouping
    terminator := gap.toBlanks
    after := .empty }
  exact ⟨statement, by decide⟩

end Tabular.Written
