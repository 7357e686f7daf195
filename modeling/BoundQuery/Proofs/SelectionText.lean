import BoundQuery.Proofs.Placeholder
import BoundQuery.Proofs.SelectionReading

/-!
# Selections through text

The text that is generated for a selection is read back as the same selection
(`Statement.read_render_of_read`): its table, projections, partitions, groups, order and limit all
come back, and offset and count keep their places. `SelectionReading` says which tree the text is
read into; here that tree is taken to what it means, clause by clause, and the selection comes out.

Two kinds of selections are left out. A partition whose name needs quotes is written without them
(`Statement.partition_unread`), and the partitions of a table that has a name of its own in the
statement are written after that name (`Statement.labelled_unread`); neither text is read.
-/

namespace BoundQuery

open Token Success

/-! ## What is written means what it was written for -/

/-- Members that are taken one by one to what they were made from. -/
theorem mapM_map_eq_self {α β : Type} {write : α → β} {f : β → Except Refusal α} {as : List α}
    (h : ∀ a ∈ as, f (write a) = .ok a) : (as.map write).mapM f = .ok as := by
  rw [mapM_eq_ok, List.forall₂_map_left_iff, List.forall₂_same]
  exact h

theorem ColumnRef.ofArgument?_expr {c : ColumnRef} (h : c.WellFormed) :
    ColumnRef.ofArgument? c.expr = .ok c := by
  have hmeans := ColumnRef.ofSource?_expr h
  obtain ⟨schema, table, column⟩ := c
  rcases schema with _ | schema <;> rcases table with _ | table <;> exact hmeans

theorem Source.Name.printPath_plainNames (ws : List String) :
    Source.Name.printPath (Grammar.plainNames ws) = ".".intercalate ws := by
  rw [Source.Name.printPath, Grammar.plainNames, List.map_map]
  show ".".intercalate (ws.map id) = _
  rw [List.map_id]

/-- A projection means itself. -/
theorem Projection.ofSource?_projectionItem {p : Projection} {reserved : List String}
    (hp : p.WellFormed) (hdistinct : p.distinct → p.function.isSome)
    (hname : Grammar.Unquoted reserved p) :
    Projection.ofSource? (Grammar.projectionItem p) = .ok p := by
  obtain ⟨distinct, function, operands, label⟩ := p
  cases function with
  | none =>
    obtain ⟨c, rfl⟩ : ∃ c, operands = [c] := hp.plain rfl
    obtain rfl : distinct = false := by
      cases distinct with
      | false => rfl
      | true => cases hdistinct rfl
    have hc := ColumnRef.ofSource?_expr (hp.qualified c (List.mem_singleton_self c))
    obtain ⟨schema, table, column⟩ := c
    cases label <;> rcases schema with _ | schema <;> rcases table with _ | table <;>
      first | rfl | cases hc
  | some function =>
    obtain ⟨hlabel, hne⟩ := hp.called rfl
    obtain ⟨name, rfl⟩ := Option.isSome_iff_exists.mp hlabel
    obtain ⟨w, ws, rfl, hbare, -, -⟩ := hname _ rfl
    have hoperands : (operands.map ColumnRef.expr).mapM ColumnRef.ofArgument? = .ok operands :=
      mapM_map_eq_self fun c hc => ColumnRef.ofArgument?_expr (hp.qualified c hc)
    simp only [Grammar.projectionItem, nameTokens_intercalate hbare, Grammar.filterMap_plainPath]
    show Projection.ofCall? (Grammar.plainNames (w :: ws)) (Grammar.shapeOf distinct)
      (operands.map ColumnRef.expr) name = _
    refine Projection.ofCall?_eq_ok.mpr ⟨operands, rfl, rfl, hoperands, hne, ?_⟩
    rw [Source.Name.printPath_plainNames]
    cases distinct <;> rfl

/-- A name that is a word is not a placeholder. -/
theorem Value.ofPartition_oneWord {name : String} (h : OneWord name) :
    Value.ofPartition ⟨name, none⟩ = .literal (.identifier name) := by
  obtain ⟨c, cs, hname, hfirst⟩ := exists_first?_of_oneWord h
  have hcolon : c ≠ ':' := by
    rintro rfl
    rcases names_of_first? hfirst with ⟨hc, -⟩ | ⟨hc, -⟩ | ⟨-, hc, -⟩
    · cases hc
    · cases hc
    · cases hc
  unfold Value.ofPartition
  rw [hname]
  split
  next heq => exact absurd (List.cons.inj heq).1 hcolon
  next => rfl

theorem OrderKey.ofSource?_keyOf {k : OrderKey} (h : k.column.WellFormed) :
    OrderKey.ofSource? (Grammar.keyOf k) = .ok k := by
  obtain ⟨column, direction⟩ := k
  have hcolumn : ColumnRef.ofSource? column.expr = .ok column := ColumnRef.ofSource?_expr h
  unfold OrderKey.ofSource?
  rw [show (Grammar.keyOf ⟨column, direction⟩).key = column.expr from rfl, hcolumn]
  cases direction <;> rfl

theorem Value.ofSource?_numberOf {v : Value} (h : v.IsWhole) :
    Value.ofSource? (Grammar.numberOf v) = .ok v := by
  obtain ⟨digits, -, rfl⟩ := h
  show Except.ok (Value.literal
    (.ofNumber ((Literal.ofNumber (String.ofList digits)).raw?.getD ""))) = _
  rw [Literal.raw?_ofNumber]
  rfl

/-- A limit means itself, its offset and its count in their places. -/
theorem Limit.ofSource?_extentOf {limit : Option Limit} (hcount : ∀ l ∈ limit, l.count.isSome)
    (h : ∀ l ∈ limit, (∀ v ∈ l.offset, v.IsWhole) ∧ ∀ v ∈ l.count, v.IsWhole) :
    Limit.ofSource? (Grammar.extentOf limit).limit (Grammar.extentOf limit).offset =
      .ok limit := by
  match limit with
  | none => rfl
  | some ⟨offset, none⟩ => cases hcount _ rfl
  | some ⟨none, some count⟩ =>
    have hcount := Value.ofSource?_numberOf ((h _ rfl).2 _ rfl)
    exact Limit.ofSource?_eq_ok.mpr (.inr ⟨_, _, _, rfl, hcount, rfl, rfl⟩)
  | some ⟨some offset, some count⟩ =>
    have hoffset := Value.ofSource?_numberOf ((h _ rfl).1 _ rfl)
    have hcount := Value.ofSource?_numberOf ((h _ rfl).2 _ rfl)
    refine Limit.ofSource?_eq_ok.mpr (.inr ⟨_, _, _, rfl, hcount, ?_, rfl⟩)
    exact optionally_eq_ok.mpr (.inr ⟨_, _, rfl, rfl, hoffset⟩)

theorem Table.ofSource?_tableRef (t : Table) {names : List Value}
    (h : ∀ v ∈ names, ∃ name, v = .literal (.identifier name) ∧ OneWord name) :
    Table.ofSources? [⟨.named (Grammar.tableRef t (names.map Grammar.partitionWord)), []⟩] =
      .ok (t, names) := by
  obtain ⟨schema, name, label⟩ := t
  have hnames : ((names.map Grammar.partitionWord).map Grammar.nameOfWord).map
      Value.ofPartition = names := by
    rw [List.map_map, List.map_map]
    conv_rhs => rw [← List.map_id names]
    refine List.map_congr_left fun v hv => ?_
    obtain ⟨name, rfl, hname⟩ := h v hv
    exact Value.ofPartition_oneWord hname
  refine Table.ofSources?_eq_ok.mpr ⟨_, rfl, ?_⟩
  refine Table.ofSource?_named_eq_ok.mpr ⟨⟨schema, name, none⟩, ?_, ?_, hnames⟩
  · cases schema <;> rfl
  · cases label <;> rfl

namespace Selection

variable {s : Selection}

/-- The projections mean themselves, once the first one is marked again. -/
theorem mapM_itemsOf (h : s.Readable) : ∃ columns,
    (Grammar.itemsOf s.columns).mapM Projection.ofSource? = .ok columns ∧
      (if (Grammar.selectOf s).distinct.isSome then markDistinct columns else columns) =
        s.columns := by
  obtain ⟨table, columns, partitions, filter, groupBy, orderBy, limit⟩ := s
  obtain ⟨p, ps, rfl⟩ : ∃ p ps, columns = p :: ps :=
    List.exists_cons_of_ne_nil h.wellFormed.columns
  obtain ⟨hp, hps⟩ := List.forall_mem_cons.mp h.wellFormed.projections
  obtain ⟨hunmarked, hmarked, hname⟩ := Grammar.unmarked_of_wellFormed hp (h.names.first p rfl)
  have hfirst := Projection.ofSource?_projectionItem hunmarked hmarked hname
  have hothers : (ps.map Grammar.projectionItem).mapM Projection.ofSource? = .ok ps :=
    mapM_map_eq_self fun q hq => Projection.ofSource?_projectionItem (hps q hq)
      (h.wellFormed.distinct q hq) (h.names.others q hq)
  refine ⟨Grammar.unmarked p :: ps, ?_, ?_⟩
  · exact mapM_eq_ok.mpr (.cons hfirst (mapM_eq_ok.mp hothers))
  · obtain ⟨distinct, function, operands, label⟩ := p
    cases distinct <;> cases function <;> rfl

/-- The statement that is written means the selection. -/
theorem ofSource?_queryOf (h : s.Readable) :
    Statement.ofSource? (.query (Grammar.queryOf s)) = .ok (.select s) := by
  obtain ⟨columns, hcolumns, hmarked⟩ := mapM_itemsOf h
  have htable := Table.ofSource?_tableRef s.table fun v hv => by
    obtain ⟨name, rfl⟩ := h.partitions v hv
    exact ⟨name, rfl, h.names.partitions name hv⟩
  have hgroups : (s.groupBy.map ColumnRef.expr).mapM ColumnRef.ofSource? = .ok s.groupBy :=
    mapM_map_eq_self fun c hc => ColumnRef.ofSource?_expr (h.wellFormed.groupBy c hc)
  have hkeys : (s.orderBy.map Grammar.keyOf).mapM OrderKey.ofSource? = .ok s.orderBy :=
    mapM_map_eq_self fun k hk => OrderKey.ofSource?_keyOf (h.wellFormed.orderBy k hk)
  have hlimit := Limit.ofSource?_extentOf h.wellFormed.limit h.limit
  have hrows : (Grammar.selectOf s).distinct = none ∨
      (Grammar.selectOf s).distinct = some .rows := by
    unfold Grammar.selectOf
    cases s.columns.head?.any Grammar.marksRows
    · exact .inl rfl
    · exact .inr rfl
  have hselect : Selection.ofSelect? (Grammar.selectOf s) =
      .ok ⟨s.table, s.columns, s.partitions, s.filter, s.groupBy, [], none⟩ := by
    refine ofSelect?_eq_ok.mpr ⟨columns, s.table, s.partitions, none, _, s.groupBy, rfl, hrows,
      hcolumns, htable, rfl, rfl, hgroups, ?_⟩
    rw [hmarked, h.filter]
  refine Statement.ofSource?_query_eq_ok.mpr ⟨s, ?_, rfl⟩
  exact ofSource?_eq_ok.mpr ⟨_, _, _, _, rfl, rfl, hselect, hkeys, hlimit, rfl⟩

end Selection

/-! ## What is read back -/

theorem Selection.Readable.read_render {s : Selection} (h : s.Readable) (o : Options) :
    Statement.read (Sql.render o (.select s)) = .ok (.select s) := by
  unfold Statement.read
  rw [Grammar.statements?_render h o]
  show (Statement.ofSource? _).mapError _ = _
  rw [Selection.ofSource?_queryOf h]
  rfl

/-- **Selections through text.** A selection that was read from a text is read back from the text
that is generated for it, whatever the options are, if it has no filter and no placeholders, if its
limit is made of whole numbers without a sign, and if the names that stand without quotes need none.
Its partitions stand after the name that its table has in the statement, where they are not read, so
it has only one of the two. -/
theorem Statement.read_render_of_read {text : String} {s : Selection}
    (h : Statement.read text = .ok (.select s)) (hfilter : s.filter = none)
    (hplaceholders : (Statement.select s).placeholders = [])
    (hlimit : ∀ l ∈ s.limit, (∀ v ∈ l.offset, v.IsWhole) ∧ ∀ v ∈ l.count, v.IsWhole)
    (hnames : s.NeedsNoQuotes) (hlabel : s.table.label = none ∨ s.partitions = []) (o : Options) :
    Statement.read (Sql.render o (.select s)) = .ok (.select s) := by
  have hwellFormed := Selection.wellFormed_of_read h
  refine Selection.Readable.read_render ⟨hwellFormed, hfilter, hnames, ?_, hlabel, hlimit⟩ o
  intro v hv
  rcases hwellFormed.partitions v hv with hname | ⟨name, rfl⟩
  · exact hname
  · -- a placeholder among the partitions is one of the statement
    have hmem : name ∈ (Statement.select s).placeholders := by
      refine List.mem_append_left _ (List.mem_append_left _ (List.mem_flatMap.mpr ⟨_, hv, ?_⟩))
      exact List.mem_singleton_self name
    rw [hplaceholders] at hmem
    exact absurd hmem List.not_mem_nil

/-- The case of a table with a schema and a name of its own, a function, and all clauses. -/
theorem Statement.read_render_of_read_clauses :
    let text :=
      "select distinct b, l.f(distinct c) n from s.t x group by b order by n desc limit 9 offset 5"
    let s : Selection := ⟨⟨some "s", "t", some "x"⟩,
      [⟨true, none, [.plain "b"], none⟩, ⟨true, some "l.f", [.plain "c"], some "n"⟩], [], none,
      [.plain "b"], [⟨.plain "n", .desc⟩],
      some ⟨some (.literal (.int "5")), some (.literal (.int "9"))⟩⟩
    Statement.read text = .ok (.select s) ∧
      Statement.read (Sql.render .empty (.select s)) = .ok (.select s) := by
  intro text s
  have hread : Statement.read text = .ok (.select s) := by decide +kernel
  have hlimit : ∀ l ∈ s.limit, (∀ v ∈ l.offset, v.IsWhole) ∧ ∀ v ∈ l.count, v.IsWhole := by
    have hoffset : (Value.literal (.int "5")).IsWhole :=
      ⟨['5'], ⟨nofun, List.forall_mem_singleton.mpr rfl⟩, rfl⟩
    have hcount : (Value.literal (.int "9")).IsWhole :=
      ⟨['9'], ⟨nofun, List.forall_mem_singleton.mpr rfl⟩, rfl⟩
    rintro _ ⟨⟩
    refine ⟨?_, ?_⟩ <;> rintro _ ⟨⟩
    · exact hoffset
    · exact hcount
  have hbare : WordPath ["l", "f"] := by
    refine ⟨by decide +kernel, List.forall_mem_singleton.mpr ⟨by decide +kernel, ?_⟩⟩
    rintro _ ⟨⟩
    rfl
  have hnames : s.NeedsNoQuotes := by
    refine ⟨?_, ?_, fun name h => absurd h List.not_mem_nil⟩
    · rintro _ ⟨⟩ _ ⟨⟩
    · refine List.forall_mem_singleton.mpr ?_
      rintro _ ⟨⟩
      refine ⟨"l", ["f"], rfl, hbare, ?_, List.not_mem_nil⟩
      show Keyword.capitals "l" ∉ _
      decide +kernel
  exact ⟨hread, Statement.read_render_of_read hread rfl rfl hlimit hnames (.inr rfl) .empty⟩

/-- The name of a partition is written without quotes, so it is not read back if it needs them. -/
theorem Statement.partition_unread :
    ¬ ∀ (text : String) (s : Selection) (o : Options), Statement.read text = .ok (.select s) →
      s.filter = none → (Statement.select s).placeholders = [] →
      (∀ l ∈ s.limit, (∀ v ∈ l.offset, v.IsWhole) ∧ ∀ v ∈ l.count, v.IsWhole) →
      (∀ p ∈ s.columns, Grammar.Unquoted Grammar.beforeColumns p) →
      Statement.read (Sql.render o (.select s)) = .ok (.select s) := by
  intro h
  let s : Selection := ⟨⟨none, "t", none⟩, [.plain (.plain "a") none],
    [.literal (.identifier "p 0")], none, [], [], none⟩
  have hread : Statement.read "select a from t partition (`p 0`)" = .ok (.select s) := by
    decide +kernel
  have hfunctions : ∀ p ∈ s.columns, Grammar.Unquoted Grammar.beforeColumns p := by
    refine List.forall_mem_singleton.mpr ?_
    rintro _ ⟨⟩
  have hunread : Statement.read (Sql.render .empty (.select s)) = .error .grammar := by
    decide +kernel
  rw [h _ s .empty hread rfl rfl nofun hfunctions] at hunread
  cases hunread

/-- Partitions after the name that the table has in the statement are not read back either, whatever
their names are. -/
theorem Statement.labelled_unread :
    ¬ ∀ (text : String) (s : Selection) (o : Options), Statement.read text = .ok (.select s) →
      s.filter = none → (Statement.select s).placeholders = [] →
      (∀ l ∈ s.limit, (∀ v ∈ l.offset, v.IsWhole) ∧ ∀ v ∈ l.count, v.IsWhole) → s.NeedsNoQuotes →
      Statement.read (Sql.render o (.select s)) = .ok (.select s) := by
  intro h
  let s : Selection := ⟨⟨none, "t", some "x"⟩, [.plain (.plain "a") none],
    [.literal (.identifier "p")], none, [], [], none⟩
  have hread : Statement.read "select a from t partition (p) as x" = .ok (.select s) := by
    decide +kernel
  have hnames : s.NeedsNoQuotes := by
    refine ⟨?_, fun p hp => absurd hp List.not_mem_nil, fun name hname => ?_⟩
    · rintro _ ⟨⟩ _ ⟨⟩
    · cases List.mem_singleton.mp hname
      decide +kernel
  have hunread : Statement.read (Sql.render .empty (.select s)) = .error .grammar := by
    decide +kernel
  rw [h _ s .empty hread rfl rfl nofun hnames] at hunread
  cases hunread

end BoundQuery
