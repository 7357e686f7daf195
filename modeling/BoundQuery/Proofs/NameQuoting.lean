import BoundQuery.Proofs.SelectionTokens
import BoundQuery.Proofs.WellFormed

/-!
# Names in the generated text

A name may hold any text: backquotes, points, question marks, blanks, or nothing at all. It stands
between two backquotes and its own are doubled, so that no run of them, wherever it is, ends the
name early or joins it to the next one. `Sql.names_read_back` says so for columns and tables with
their qualifiers and labels. Before everything that does not start with a backquote the tokenizer
takes exactly their parts and goes on from what follows, and so no two of them have one text.

A column with a schema and no table is the one exception: it has the text of a column with the
schema as its table. No such column is read from a text.
-/

namespace BoundQuery

open Token

namespace Token.Lexes

/-! ## One run and another -/

theorem length_le {cs rest : List Char} {ts : List Token} (h : Lexes cs ts rest) :
    rest.length ≤ cs.length := by
  induction h with
  | done => exact Nat.le_refl _
  | step hfirst _ ih =>
    exact Nat.le_succ_of_le (Nat.le_trans ih (length_of_first? hfirst))

/-- The tokenizer has one way to go: a run that gets farther than another one passes where that one
ends. -/
theorem of_length_le {cs after rest : List Char} {ts ts' : List Token} (h : Lexes cs ts after)
    (h' : Lexes cs ts' rest) (hlength : rest.length ≤ after.length) :
    ∃ more, ts' = ts ++ more ∧ Lexes after more rest := by
  induction h generalizing ts' with
  | done cs => exact ⟨ts', rfl, h'⟩
  | @step c cs next after found ts hfirst hrun ih =>
    cases h' with
    | done =>
      have hshort := Nat.le_trans hrun.length_le (length_of_first? hfirst)
      rw [List.length_cons] at hlength
      omega
    | step hfirst' hrun' =>
      obtain ⟨rfl, rfl⟩ : _ = found ∧ _ = next := by
        simpa using hfirst'.symm.trans hfirst
      obtain ⟨more, rfl, hmore⟩ := ih hrun' hlength
      exact ⟨more, (List.append_assoc ..).symm, hmore⟩

/-- Where a run has come to `after`, the tokens of the whole text are those of the run and then
those of `after` by itself. -/
theorem tokens?_append {text after : String} {ts : List Token}
    (h : Lexes (text.toList ++ after.toList) ts after.toList) :
    tokens? (text ++ after) = (tokens? after).map (ts ++ ·) := by
  apply Option.ext
  intro all
  rw [tokens?_eq_some_iff, Option.map_eq_some_iff, String.toList_append]
  constructor
  · intro hall
    obtain ⟨more, rfl, hmore⟩ := h.of_length_le hall (Nat.zero_le _)
    exact ⟨more, tokens?_eq_some_iff.mpr hmore, rfl⟩
  · rintro ⟨more, hmore, rfl⟩
    exact h.trans (tokens?_eq_some_iff.mp hmore)

end Token.Lexes

/-! ## Tokens and what they name -/

namespace Token

variable {names names' : List String}

theorem path_cons_cons (name second : String) (names : List String) :
    path (name :: second :: names) =
      .word (.backquoted name) :: .mark "." :: path (second :: names) :=
  rfl

theorem backquoted_injective {name name' : String}
    (h : Token.word (.backquoted name) = .word (.backquoted name')) : name = name' :=
  congrArg Word.text (Token.word.inj h)

/-- The tokens of a name with its qualifiers tell its parts. -/
theorem path_injective (h : path names = path names') : names = names' := by
  induction names generalizing names' with
  | nil =>
    rcases names' with _ | ⟨name', _ | ⟨second', names'⟩⟩
    · rfl
    · cases h
    · cases h
  | cons name names ih =>
    rcases names with _ | ⟨second, names⟩ <;> rcases names' with _ | ⟨name', _ | ⟨second', names'⟩⟩
    · cases h
    · rw [backquoted_injective (List.cons.inj h).1]
    · cases (List.cons.inj h).2
    · cases h
    · cases (List.cons.inj h).2
    · rw [path_cons_cons, path_cons_cons] at h
      obtain ⟨hname, htail⟩ := List.cons.inj h
      rw [backquoted_injective hname, ih (List.cons.inj htail).2]

/-- The parts of a name stand between backquotes, so the word before a label is none of them. -/
theorem as_not_mem_path (names : List String) : .word (.plain "AS") ∉ path names := by
  induction names with
  | nil => exact List.not_mem_nil
  | cons name names ih =>
    have hname : (Token.word (.plain "AS")) ≠ .word (.backquoted name) := by
      intro h
      cases congrArg Word.quoted (Token.word.inj h)
    cases names with
    | nil => simpa [path] using hname
    | cons second names =>
      rw [path_cons_cons, List.mem_cons, List.mem_cons]
      rintro (h | h | h)
      · exact hname h
      · cases h
      · exact ih h

/-- The tokens of a name and its label tell both. -/
theorem path_labelled_injective {label label' : Option String}
    (h : path names ++ labelled label = path names' ++ labelled label') :
    names = names' ∧ label = label' := by
  -- no name is the word before a label, so that it tells whether there is one
  have hmem : ∀ (names : List String) (label : String),
      .word (.plain "AS") ∈ path names ++ labelled (some label) := by
    intro names label
    exact List.mem_append_right _ (List.mem_cons_self ..)
  cases label with
  | none =>
    cases label' with
    | none =>
      rw [labelled, List.append_nil, List.append_nil] at h
      exact ⟨path_injective h, rfl⟩
    | some label' =>
      have has := hmem names' label'
      rw [← h, labelled, List.append_nil] at has
      exact absurd has (as_not_mem_path names)
  | some label =>
    cases label' with
    | none =>
      have has := hmem names label
      rw [h, labelled, List.append_nil] at has
      exact absurd has (as_not_mem_path names')
    | some label' =>
      obtain ⟨hpath, hlabel⟩ := List.append_inj' h rfl
      have hname : Token.word (.backquoted label) = .word (.backquoted label') := by
        simpa [labelled] using hlabel
      rw [backquoted_injective hname]
      exact ⟨path_injective hpath, rfl⟩

end Token

/-- The parts of a column tell its qualifiers, as a schema is there only with a table. -/
theorem ColumnRef.eq_of_parts {c c' : ColumnRef} (hc : c.WellFormed) (hc' : c'.WellFormed)
    (h : c.parts = c'.parts) : c = c' := by
  obtain ⟨schema, table, column⟩ := c
  obtain ⟨schema', table', column'⟩ := c'
  rcases schema with _ | schema <;> rcases table with _ | table <;>
    rcases schema' with _ | schema' <;> rcases table' with _ | table' <;>
    simp_all [ColumnRef.parts, ColumnRef.WellFormed]

theorem Table.eq_of_tokens {t t' : Table} (h : t.tokens = t'.tokens) : t = t' := by
  obtain ⟨schema, name, label⟩ := t
  obtain ⟨schema', name', label'⟩ := t'
  obtain ⟨hnames, rfl⟩ := path_labelled_injective h
  rcases schema with _ | schema <;> rcases schema' with _ | schema' <;> simp_all

/-! ## The text -/

namespace Sql

variable {after : List Char}

theorem lexes_column (c : ColumnRef) (hafter : after.head? ≠ some '\x60') :
    Lexes ((column c).toList ++ after) (path c.parts) after :=
  lexes_path (by simp [ColumnRef.parts]) hafter

theorem lexes_labelled (label : Option String) (hafter : after.head? ≠ some '\x60') :
    Lexes ((labelled label).toList ++ after) (Token.labelled label) after := by
  cases label with
  | none => exact .done after
  | some name =>
    have hword : Leads " AS " [.word (.plain "AS")] :=
      fun _ => .trans (.gap rfl) (.trans (.one rfl) (.gap rfl))
    rw [labelled, String.toList_append, List.append_assoc]
    exact .trans (hword _) (lexes_quoted hafter)

theorem lexes_table (t : Table) (hafter : after.head? ≠ some '\x60') :
    Lexes ((table t).toList ++ after) t.tokens after := by
  have hlabel : ((labelled t.label).toList ++ after).head? ≠ some '\x60' := by
    cases t.label with
    | none => exact hafter
    | some name => simp [labelled]
  rw [table, String.toList_append, List.append_assoc]
  refine .trans (lexes_path ?_ hlabel) (lexes_labelled t.label hafter)
  exact List.append_ne_nil_of_right_ne_nil _ (List.cons_ne_nil _ _)

/-- **Names.** Before a text that does not start with a backquote, a column is its parts with points
between them, and a table is its schema and name and then its label, whatever these names hold; the
tokenizer goes on with what follows as if nothing stood before it. Two columns, or two tables, that
are written alike are the same. -/
theorem names_read_back {after : String} (hafter : after.toList.head? ≠ some '\x60') :
    (∀ c : ColumnRef,
      Lexes ((column c).toList ++ after.toList) (path c.parts) after.toList ∧
      tokens? (column c ++ after) = (tokens? after).map (path c.parts ++ ·)) ∧
    (∀ t : Table,
      Lexes ((table t).toList ++ after.toList)
        (path (t.schema.toList ++ [t.name]) ++ Token.labelled t.label) after.toList ∧
      tokens? (table t ++ after) =
        (tokens? after).map (path (t.schema.toList ++ [t.name]) ++ Token.labelled t.label ++ ·)) ∧
    (∀ c c' : ColumnRef, c.WellFormed → c'.WellFormed → column c = column c' → c = c') ∧
    ∀ t t' : Table, table t = table t' → t = t' := by
  refine ⟨fun c => ?_, fun t => ?_, fun c c' hc hc' h => ?_, fun t t' h => ?_⟩
  · have hlexes := lexes_column c hafter
    exact ⟨hlexes, hlexes.tokens?_append⟩
  · have hlexes := lexes_table t hafter
    exact ⟨hlexes, hlexes.tokens?_append⟩
  · have htokens := c.spells.tokens?
    rw [h, c'.spells.tokens?] at htokens
    exact ColumnRef.eq_of_parts hc hc' (path_injective (Option.some.inj htokens)).symm
  · have htokens := t.spells.tokens?
    rw [h, t'.spells.tokens?] at htokens
    exact (Table.eq_of_tokens (Option.some.inj htokens)).symm

/-- The case of names that hold backquotes at their ends, a point, a comment and nothing at all,
before a text that looks like one more part. -/
theorem names_read_back_backquotes :
    ".\x60x\x60".toList.head? ≠ some '\x60' ∧
    Lexes ((column ⟨some "\x60a", some "", "-- b.\x60\x60"⟩).toList ++ ".\x60x\x60".toList)
      (path ["\x60a", "", "-- b.\x60\x60"]) ".\x60x\x60".toList ∧
    Lexes ((table ⟨some "a", "b.\x60", some "\x60"⟩).toList ++ ".\x60x\x60".toList)
      (path ["a", "b.\x60"] ++ Token.labelled (some "\x60")) ".\x60x\x60".toList ∧
    column ⟨none, some "a", "b"⟩ ≠ column ⟨none, none, "a\x60.\x60b"⟩ ∧
    table ⟨none, "a", some "b"⟩ ≠ table ⟨none, "a\x60 AS \x60b", none⟩ := by
  have hafter : ".\x60x\x60".toList.head? ≠ some '\x60' := by decide
  obtain ⟨hcolumn, htable, hcolumns, htables⟩ := names_read_back hafter
  have hqualified : ∀ table column, ColumnRef.WellFormed ⟨none, table, column⟩ := by
    intro table column hschema
    cases hschema
  refine ⟨hafter, (hcolumn _).1, (htable _).1, fun h => ?_, fun h => ?_⟩
  · exact absurd (hcolumns _ _ (hqualified _ _) (hqualified _ _) h) (by decide)
  · exact absurd (htables _ _ h) (by decide)

end Sql

end BoundQuery
