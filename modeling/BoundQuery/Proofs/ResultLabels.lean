import BoundQuery.Compile
import BoundQuery.Proofs.Failure
import BoundQuery.Proofs.NormalForm
import BoundQuery.Proofs.Piece
import BoundQuery.Proofs.Quoting
import BoundQuery.Proofs.WellFormed

/-!
# The labels of a result

The metadata of a selection is known before any options are. It names the columns of the result all
the same: with any options, the projections of the generated SQL have the column names of the
metadata as their labels, one by one (`Compiled.columnNames_sql`).

A label is read off the text of a projection (`Sql.HasLabel`): the name after its `AS`, or without
one the last name of its column. Either way it is the quoted name at the end, so a text has one
label (`Sql.HasLabel.unique`): read backwards, a quoted name is a quoted name again, and ends where
it should.

A projection that is a function without a label would be left out of the metadata, and so would a
column without an operand; neither is read from any text (`Selection.wellFormed_of_read`).
-/

namespace BoundQuery

namespace Text

variable {q : Char}

theorem double_append (s t : List Char) : double q (s ++ t) = double q s ++ double q t := by
  induction s with
  | nil => rfl
  | cons c s ih =>
    by_cases hc : c = q
    · subst hc
      rw [List.cons_append, double_cons_self, double_cons_self, ih]
      rfl
    · rw [List.cons_append, double_cons_of_ne hc, double_cons_of_ne hc, ih]
      rfl

/-- Backwards, a doubled text is the doubled text backwards. -/
theorem reverse_double (s : List Char) : (double q s).reverse = double q s.reverse := by
  induction s with
  | nil => rfl
  | cons c s ih =>
    rw [List.reverse_cons, double_append, ← ih]
    by_cases hc : c = q
    · subst hc
      rw [double_cons_self, double_cons_self]
      simp [double]
    · rw [double_cons_of_ne hc, double_cons_of_ne hc]
      simp [double]

end Text

namespace Sql

/-! ## Labels of projections -/

/-- Whether the text of a projection has a label: the name after its `AS`, or without one the last
name of its column. -/
inductive HasLabel : String → String → Prop
  | given (expression name : String) : HasLabel (expression ++ " AS " ++ quoted name) name
  | own (distinct : Bool) (qualifiers : List String) (name : String) :
    HasLabel ((if distinct then "DISTINCT " else "") ++
      ".".intercalate ((qualifiers ++ [name]).map quoted)) name

/-- The name between backquotes at the end of a text, read from the end. -/
def lastName? (text : String) : Option (List Char) :=
  match text.toList.reverse with
  | [] => none
  | _ :: cs => (Text.scanDoubled '\x60' cs).map fun p => p.1.reverse

/-- A quoted name at the end of a text is read from there, unless a backquote stands before it. -/
theorem lastName?_append_quoted {before name : String}
    (h : before.toList.getLast? ≠ some '\x60') :
    lastName? (before ++ quoted name) = some name.toList := by
  have hreverse : (before ++ quoted name).toList.reverse =
      '\x60' :: (Text.double '\x60' name.toList.reverse ++ '\x60' :: before.toList.reverse) := by
    rw [String.toList_append, List.reverse_append, quoted, Text.toList_enclose,
      ← Text.reverse_double]
    simp
  have hhead : before.toList.reverse.head? ≠ some '\x60' := by
    rwa [List.head?_reverse]
  rw [lastName?, hreverse]
  show Option.map _ (Text.scanDoubled '\x60' _) = _
  rw [Text.scanDoubled_double hhead]
  simp

/-- Names with points between them end in the last one, and before it stands a point if there are
others. -/
theorem intercalate_quoted_eq (qualifiers : List String) (name : String) :
    ∃ before, (before = "" ∨ ∃ start, before = start ++ ".") ∧
      ".".intercalate ((qualifiers ++ [name]).map quoted) = before ++ quoted name := by
  induction qualifiers with
  | nil => exact ⟨"", .inl rfl, by simp⟩
  | cons q qs ih =>
    obtain ⟨before, hbefore, hrest⟩ := ih
    refine ⟨quoted q ++ "." ++ before, .inr ?_, ?_⟩
    · rcases hbefore with rfl | ⟨start, rfl⟩
      · exact ⟨quoted q, String.append_empty⟩
      · exact ⟨quoted q ++ "." ++ start, String.append_assoc.symm⟩
    · obtain ⟨next, more, hnext⟩ := List.exists_cons_of_ne_nil
        (List.append_ne_nil_of_right_ne_nil qs (List.cons_ne_nil name []))
      rw [List.cons_append, List.map_cons, hnext, List.map_cons, String.intercalate_cons_cons,
        ← List.map_cons, ← hnext, hrest, String.append_assoc, String.append_assoc,
        String.append_assoc]

/-- The label of a text is the quoted name at its end. -/
theorem HasLabel.lastName?_eq {text name : String} (h : HasLabel text name) :
    lastName? text = some name.toList := by
  cases h with
  | given expression name =>
    -- before the name stands a blank
    refine lastName?_append_quoted ?_
    simp
  | own distinct qualifiers name =>
    obtain ⟨before, hbefore, hname⟩ := intercalate_quoted_eq qualifiers name
    rw [hname, ← String.append_assoc]
    refine lastName?_append_quoted ?_
    -- before the name stands a point, or the blank after `DISTINCT`, or nothing
    rcases hbefore with rfl | ⟨start, rfl⟩
    · cases distinct <;> simp
    · simp

/-- A text has at most one label. -/
theorem HasLabel.unique {text name name' : String} (h : HasLabel text name)
    (h' : HasLabel text name') : name = name' := by
  have hchars := h.lastName?_eq.symm.trans h'.lastName?_eq
  exact String.toList_inj.mp (Option.some.inj hchars)

/-- What the metadata knows of a projection is labelled as the text of the projection is. -/
theorem exists_info_of_wellFormed {p : Projection} (h : p.WellFormed) :
    ∃ info, p.info? = some info ∧ HasLabel (projection p) info.resultName := by
  obtain ⟨distinct, function, operands, label⟩ := p
  cases function with
  | some function =>
    obtain ⟨hlabel, -⟩ := h.called rfl
    obtain ⟨name, rfl⟩ := Option.isSome_iff_exists.mp hlabel
    refine ⟨_, rfl, ?_⟩
    have htext := HasLabel.given
      (function ++ "(" ++ Sql.operands ⟨distinct, some function, operands, some name⟩ ++ ")") name
    rwa [String.append_assoc] at htext
  | none =>
    obtain ⟨c, rfl⟩ : ∃ c, operands = [c] := h.plain rfl
    refine ⟨_, rfl, ?_⟩
    cases label with
    | some name =>
      have htext := HasLabel.given (Sql.operands ⟨distinct, none, [c], some name⟩) name
      rwa [String.append_assoc] at htext
    | none =>
      have htext := HasLabel.own distinct (c.schema.toList ++ c.table.toList) c.column
      show HasLabel (Sql.operands ⟨distinct, none, [c], none⟩ ++ "") c.column
      rw [String.append_empty]
      rwa [Sql.operands, List.map_singleton, String.intercalate_singleton]

end Sql

/-! ## Labels of selections -/

/-- The metadata has one column for each projection of a selection that was read. -/
theorem Selection.forall₂_labels {s : Selection} (h : ∀ p ∈ s.columns, p.WellFormed) :
    List.Forall₂ Sql.HasLabel (s.columns.map Sql.projection)
      (Statement.select s).metadata.columnNames := by
  show List.Forall₂ Sql.HasLabel (s.columns.map Sql.projection)
    ((s.columns.filterMap Projection.info?).map ColumnInfo.resultName)
  generalize s.columns = columns at h
  induction columns with
  | nil => exact .nil
  | cons p ps ih =>
    obtain ⟨hp, hps⟩ := List.forall_mem_cons.mp h
    obtain ⟨info, hinfo, hlabel⟩ := Sql.exists_info_of_wellFormed hp
    rw [List.filterMap_cons_some hinfo]
    exact .cons hlabel (ih hps)

/-- The metadata is read off the frame of a statement. -/
theorem Statement.metadata_eq (s : Statement) :
    s.metadata = ⟨s.frame.table.schema, s.frame.table.name, s.frame.table.label,
      s.frame.projections.filterMap Projection.info?⟩ := by
  cases s <;> rfl

/-- Resolving leaves the metadata of a statement alone. -/
theorem Statement.metadata_of_resolve {o : Options} {s s' : Statement} {bound : List Bound}
    (h : s.resolve o = .ok (s', bound)) : s'.metadata = s.metadata := by
  rw [Statement.metadata_eq, Statement.metadata_eq, Statement.frame_of_resolve h]

/-- The text of a selection starts with its projections. -/
theorem Sql.exists_render_select (o : Options) (s : Selection) :
    ∃ rest, Sql.render o (.select s) =
      "SELECT " ++ ", ".intercalate (s.columns.map Sql.projection) ++ " FROM " ++ rest := by
  refine ⟨Sql.table s.table ++ Piece.join (fun _ => "?") (partitions o s.partitions ++
    filter o s.filter ++ groupBy s.groupBy ++ orderBy s.orderBy ++ limit o s.limit), ?_⟩
  show Piece.join _ (Sql.select o s) = _
  rw [Sql.select, List.cons_append, List.cons_append, List.cons_append, List.cons_append,
    Piece.join_fixed, String.append_assoc]

/-- A text that was compiled was read. -/
theorem Compiled.ofText_eq_ok {text : String} {c : Compiled} (h : Compiled.ofText text = .ok c) :
    Statement.read text = .ok c.statement ∧ c.metadata = c.statement.metadata := by
  unfold Compiled.ofText at h
  split at h
  next s hs =>
    cases h
    exact ⟨hs, rfl⟩
  next => cases h

/-- **Labels.** A selection that was compiled is resolved with any options. Its metadata has one
column for each projection of the SQL that is then generated, and its column names are the labels of
these projections and the only ones they have. The metadata of what was resolved is the same. -/
theorem Compiled.columnNames_sql {text : String} {c : Compiled} {s : Selection}
    (h : Compiled.ofText text = .ok c) (hs : c.statement = .select s) (o : Options) :
    ∃ r t rest, c.resolve o = .ok r ∧ r.statement = .select t ∧
      r.render .sql =
        "SELECT " ++ ", ".intercalate (t.columns.map Sql.projection) ++ " FROM " ++ rest ∧
      c.metadata.columns.length = t.columns.length ∧
      (∀ names, List.Forall₂ Sql.HasLabel (t.columns.map Sql.projection) names ↔
        names = c.metadata.columnNames) ∧
      r.statement.metadata = c.metadata := by
  obtain ⟨hread, hmetadata⟩ := Compiled.ofText_eq_ok h
  rw [hs] at hread hmetadata
  obtain ⟨⟨s', bound⟩, hresolve⟩ := Statement.exists_resolve_select o s
  obtain ⟨t, ht, rfl⟩ := Statement.resolve_select_eq_ok.mp hresolve
  have hcolumns : t.columns = s.columns :=
    congrArg Statement.Frame.projections (Statement.frame_of_resolve hresolve)
  -- the metadata was taken before resolving, which leaves the projections alone
  have hlabels : List.Forall₂ Sql.HasLabel (t.columns.map Sql.projection)
      c.metadata.columnNames := by
    rw [hcolumns, hmetadata]
    exact Selection.forall₂_labels (Selection.wellFormed_of_read hread).projections
  have hunique : Relator.RightUnique Sql.HasLabel := fun _ _ _ => Sql.HasLabel.unique
  obtain ⟨rest, hrender⟩ := Sql.exists_render_select o t
  refine ⟨⟨.select t, bound, o⟩, t, rest, ?_, rfl, hrender, ?_, fun names => ⟨?_, ?_⟩, ?_⟩
  · rw [Compiled.resolve, hs, hresolve]
  · have hlength := hlabels.length_eq
    rw [List.length_map, Metadata.columnNames, List.length_map] at hlength
    exact hlength.symm
  · exact fun hnames => hunique.forall₂ hnames hlabels
  · rintro rfl
    exact hlabels
  · rw [hmetadata]
    exact Statement.metadata_of_resolve hresolve

/-- The case of a function, a column with a label and one without, under options that leave nothing
of the filter. -/
theorem Compiled.columnNames_sql_function :
    let text := "select distinct count(a, b) as `n x`, l.c d, s.l.e from t l where a = :p"
    let s : Selection := ⟨⟨none, "t", some "l"⟩,
      [⟨true, some "count", [.plain "a", .plain "b"], some "n x"⟩,
        ⟨false, none, [⟨none, some "l", "c"⟩], some "d"⟩,
        ⟨false, none, [⟨some "s", some "l", "e"⟩], none⟩], [],
      some (.compare (.column (.plain "a")) .equal (.placeholder "p")), [], [], none⟩
    let c : Compiled := ⟨text, .select s, (Statement.select s).metadata⟩
    Compiled.ofText text = .ok c ∧
      ∃ r t rest, c.resolve .empty = .ok r ∧ r.statement = .select t ∧
        r.render .sql =
          "SELECT " ++ ", ".intercalate (t.columns.map Sql.projection) ++ " FROM " ++ rest ∧
        List.Forall₂ Sql.HasLabel (t.columns.map Sql.projection) ["n x", "d", "e"] := by
  intro text s c
  have hread : Statement.read text = .ok (.select s) := by decide +kernel
  have hc : Compiled.ofText text = .ok c := by rw [Compiled.ofText, hread]
  obtain ⟨r, t, rest, hr, ht, hrender, -, hnames, -⟩ := Compiled.columnNames_sql hc rfl .empty
  exact ⟨hc, r, t, rest, hr, ht, hrender, (hnames _).mpr rfl⟩

end BoundQuery
