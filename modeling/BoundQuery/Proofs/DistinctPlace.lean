import BoundQuery.Proofs.ArithmeticTokens
import BoundQuery.Proofs.DroppedClause
import BoundQuery.Proofs.Rollback
import BoundQuery.Proofs.SelectionReading

/-!
# The places of DISTINCT

Before the list of a `SELECT`, `DISTINCT` removes rows; before the arguments of a function it takes
equal values once. A statement keeps the first with its first column and the second with the
function that it belongs to, and where the first column is a function this is one place.

`Statement.read_distinctAt` says what is left of the difference: whether `DISTINCT` stands in one of
the two places or in none. A text and the same text with the word moved, or with the word twice, are
one statement and have one text as SQL; what is generated is always a function of distinct values,
and rows are not told apart any more (`Statement.distinct_moved`).
-/

namespace BoundQuery

open Success

namespace Source

/-! ## Texts with DISTINCT in two places -/

/-- Where `DISTINCT` stands: before the whole list, and before the arguments of its first member. -/
structure DistinctPlaces where
  rows : Bool
  arguments : Bool

/-- Whether `DISTINCT` stands anywhere. -/
def DistinctPlaces.any (places : DistinctPlaces) : Bool :=
  places.rows || places.arguments

/-- A member of the list with or without `DISTINCT` before its arguments, if it is a call. -/
def SelectItem.distinctAt (arguments : Bool) : SelectItem → SelectItem
  | .aliased (.call function shape items) label =>
    let multiplicity := if arguments then some Multiplicity.distinct else none
    .aliased (.call function { shape with multiplicity := multiplicity } items) label
  | item => item

/-- A `SELECT` with `DISTINCT` in the given places only. -/
def Select.distinctAt (s : Select) (places : DistinctPlaces) : Select :=
  { s with
    distinct := if places.rows then some .rows else none
    items := s.items.modifyHead (SelectItem.distinctAt places.arguments) }

/-- A query whose `SELECT` has `DISTINCT` in the given places only. -/
def Query.distinctAt (q : Query) (places : DistinctPlaces) : Query :=
  { q with
    body :=
      match q.body with
      | .select s => .select (s.distinctAt places)
      | body => body }

/-- Whether a query is a `SELECT` whose list starts with a labelled call. -/
def Query.StartsWithCall (q : Query) : Prop :=
  ∃ s function shape items label rest,
    q.body = .select s ∧ s.items = .aliased (.call function shape items) label :: rest

end Source

open Source

/-! ## Their trees -/

/-- A projection with or without `DISTINCT`. -/
def Projection.withDistinct (distinct : Bool) (p : Projection) : Projection :=
  { p with distinct := distinct }

/-- A selection whose first column is with or without `DISTINCT`. -/
def Selection.withDistinct (distinct : Bool) (s : Selection) : Selection :=
  { s with columns := s.columns.modifyHead (Projection.withDistinct distinct) }

/-- Whether a selection starts with a function of at least one column. -/
def Selection.StartsWithFunction (s : Selection) : Prop :=
  ∃ p rest function, s.columns = p :: rest ∧ p.function = some function ∧ p.operands ≠ []

/-- A labelled call means the same with `DISTINCT` before its arguments and without it, but for
that. -/
theorem Projection.ofSource?_distinctAt {function : List Name} {shape : CallShape}
    {items : List Expr} {label : Name} {arguments : Bool} {p : Projection}
    (h : Projection.ofSource? (SelectItem.distinctAt arguments
      (.aliased (.call function shape items) label)) = .ok p) :
    (p.function = some (Name.printPath function) ∧ p.operands ≠ [] ∧ p.distinct = arguments) ∧
      ∀ arguments', Projection.ofSource? (SelectItem.distinctAt arguments'
        (.aliased (.call function shape items) label)) = .ok (p.withDistinct arguments') := by
  obtain ⟨operands, hwindow, hform, hitems, hne, rfl⟩ := Projection.ofCall?_eq_ok.mp h
  have hword : ∀ b, decide ((if b then some Multiplicity.distinct else none) =
      some Multiplicity.distinct) = b := by
    decide
  refine ⟨⟨rfl, hne, hword arguments⟩, fun arguments' => ?_⟩
  refine Projection.ofCall?_eq_ok.mpr ⟨operands, hwindow, hform, hitems, hne, ?_⟩
  dsimp only
  rw [hword]
  rfl

namespace Selection

theorem withDistinct_injective {s : Selection} (h : s.StartsWithFunction) {b b' : Bool}
    (heq : s.withDistinct b = s.withDistinct b') : b = b' := by
  obtain ⟨p, rest, _, hcolumns, -⟩ := h
  have hheads := congrArg Selection.columns heq
  simp only [withDistinct, hcolumns, List.modifyHead_cons] at hheads
  exact congrArg Projection.distinct (List.cons.inj hheads).1

/-- **One place.** The first column keeps one mark for `DISTINCT`, wherever it stood. -/
theorem ofSelect?_distinctAt {s : Select} {function : List Name} {shape : CallShape}
    {items : List Expr} {label : Name} {rest : List SelectItem} {places : DistinctPlaces}
    {t : Selection} (hitems : s.items = .aliased (.call function shape items) label :: rest)
    (h : ofSelect? (s.distinctAt places) = .ok t) :
    t.StartsWithFunction ∧
      ∀ places', ofSelect? (s.distinctAt places') = .ok (t.withDistinct places'.any) := by
  obtain ⟨columns, table, partitions, filter, keys, groupBy, hhaving, -, hcolumns, htable,
    hfilter, hkeys, hgroupBy, rfl⟩ := ofSelect?_eq_ok.mp h
  simp only [Select.distinctAt, hitems, List.modifyHead_cons] at hcolumns
  cases mapM_eq_ok.mp hcolumns with
  | @cons _ p _ columns hp hrest =>
    obtain ⟨⟨hfunction, hoperands, hdistinct⟩, hmoved⟩ := Projection.ofSource?_distinctAt hp
    -- the mark after `SELECT` and the one of the call itself come together
    have hmarked : ∀ places' : DistinctPlaces,
        (if (s.distinctAt places').distinct.isSome
          then markDistinct (p.withDistinct places'.arguments :: columns)
          else p.withDistinct places'.arguments :: columns) =
        p.withDistinct places'.any :: columns := by
      rintro ⟨_ | _, arguments⟩ <;> rfl
    have hfirst : p = p.withDistinct places.arguments := by
      rw [← hdistinct]
      rfl
    rw [hfirst, hmarked]
    refine ⟨⟨_, columns, _, rfl, hfunction, hoperands⟩, fun places' => ?_⟩
    refine ofSelect?_eq_ok.mpr ⟨p.withDistinct places'.arguments :: columns, table, partitions,
      filter, keys, groupBy, hhaving, ?_, mapM_eq_ok.mpr ?_, htable, hfilter, hkeys, hgroupBy, ?_⟩
    · rcases places' with ⟨_ | _, arguments⟩
      · exact .inl rfl
      · exact .inr rfl
    · simp only [Select.distinctAt, hitems, List.modifyHead_cons]
      exact .cons (hmoved _) hrest
    · rw [hmarked]
      rfl

theorem ofSource?_distinctAt {q : Query} {places : DistinctPlaces} {t : Selection}
    (hq : q.StartsWithCall) (h : ofSource? (q.distinctAt places) = .ok t) :
    t.StartsWithFunction ∧
      ∀ places', ofSource? (q.distinctAt places') = .ok (t.withDistinct places'.any) := by
  obtain ⟨s, function, shape, items, label, rest, hbody, hitems⟩ := hq
  have hplaced : ∀ places', (q.distinctAt places').body = .select (s.distinctAt places') := by
    intro places'
    simp only [Query.distinctAt, hbody]
  obtain ⟨_, selection, orderBy, limit, hpreamble, hs, hselection, horderBy, hlimit, rfl⟩ :=
    ofSource?_eq_ok.mp h
  cases (hplaced places).symm.trans hs
  obtain ⟨hstarts, hmoved⟩ := ofSelect?_distinctAt hitems hselection
  refine ⟨hstarts, fun places' => ?_⟩
  exact ofSource?_eq_ok.mpr ⟨_, _, orderBy, limit, hpreamble, hplaced places', hmoved places',
    horderBy, hlimit, rfl⟩

/-! ## Their texts -/

/-- Options leave the first column as it is. -/
theorem resolve_withDistinct (o : Options) (s : Selection) (distinct : Bool) :
    (s.withDistinct distinct).resolve o =
      (s.resolve o).map fun (s, bound) => (s.withDistinct distinct, bound) := by
  unfold resolve
  simp only [withDistinct]
  cases Outcome.kept (s.partitions.map (Value.resolvePartition o)) with
  | error e => rfl
  | ok partitions =>
    cases Condition.resolveFilter o .optional s.filter with
    | error e => rfl
    | ok filter => cases Limit.resolve o s.limit <;> rfl

theorem startsWithFunction_of_resolve {o : Options} {s t : Selection} {bound : List Bound}
    (hs : s.StartsWithFunction) (h : s.resolve o = .ok (t, bound)) : t.StartsWithFunction := by
  simp only [resolve, bind_eq_ok, pure_eq_ok, Prod.mk.injEq] at h
  obtain ⟨_, -, _, -, _, -, rfl, -⟩ := h
  exact hs

end Selection

/-- A list starts with its first member, and what follows does not depend on that. -/
theorem exists_intercalate_cons (separator : String) (texts : List String) :
    ∃ tail, ∀ text, separator.intercalate (text :: texts) = text ++ tail := by
  cases texts with
  | nil => exact ⟨"", fun text => by rw [String.intercalate_singleton, String.append_empty]⟩
  | cons second texts =>
    refine ⟨separator ++ separator.intercalate (second :: texts), fun text => ?_⟩
    rw [String.intercalate_cons_cons, String.append_assoc]

namespace Sql

/-- Where a selection starts with a function, its text goes on with `DISTINCT` or with a name after
the parenthesis. -/
theorem exists_render_withDistinct {s : Selection} (h : s.StartsWithFunction) (o : Options) :
    ∃ start c tail, ∀ distinct, render o (.select (s.withDistinct distinct)) =
      start ++ ((if distinct then "DISTINCT " else "") ++ (column c ++ tail)) := by
  obtain ⟨p, rest, function, hcolumns, hfunction, hoperands⟩ := h
  obtain ⟨c, cs, hcs⟩ := List.exists_cons_of_ne_nil hoperands
  obtain ⟨names, hnames⟩ := exists_intercalate_cons ", " (cs.map column)
  obtain ⟨columns, hrest⟩ := exists_intercalate_cons ", " (rest.map projection)
  have hfirst : ∀ distinct, projection (p.withDistinct distinct) =
      function ++ "(" ++ ((if distinct then "DISTINCT " else "") ++ (column c ++ names)) ++ ")" ++
        labelled p.label := by
    intro distinct
    simp only [projection, Projection.withDistinct, operands, hfunction, hcs, List.map_cons, hnames]
  refine ⟨"SELECT " ++ function ++ "(", c, names ++ ")" ++ labelled p.label ++ columns ++
    " FROM " ++ table s.table ++ Piece.join (fun _ => "?") (partitions o s.partitions ++
      filter o s.filter ++ groupBy s.groupBy ++ orderBy s.orderBy ++ limit o s.limit),
    fun distinct => ?_⟩
  simp only [render, pieces, select, Selection.withDistinct, hcolumns, List.modifyHead_cons,
    List.map_cons, hrest, hfirst, List.cons_append, Piece.join_fixed, String.append_assoc]

/-- Where a selection starts with a function, its text shows whether it is one of distinct
values. -/
theorem render_withDistinct_iff {s : Selection} (h : s.StartsWithFunction) (o : Options)
    {b b' : Bool} : render o (.select (s.withDistinct b)) = render o (.select (s.withDistinct b')) ↔
      b = b' := by
  refine ⟨fun heq => ?_, fun hb => by rw [hb]⟩
  obtain ⟨start, c, tail, htext⟩ := exists_render_withDistinct h o
  have hparts : c.parts ≠ [] := by simp [ColumnRef.parts]
  obtain ⟨name, hname⟩ := toList_path_eq_cons hparts
  -- the word starts with a letter and a name with a quote
  have hne : "DISTINCT " ++ (column c ++ tail) ≠ "" ++ (column c ++ tail) := by
    intro hwords
    have hchars := congrArg String.toList hwords
    rw [String.empty_append, String.toList_append, String.toList_append, column, hname] at hchars
    cases (List.cons.inj hchars).1
  rw [htext, htext, String.append_right_inj] at heq
  cases b <;> cases b'
  · rfl
  · exact absurd heq.symm hne
  · exact absurd heq hne
  · rfl

end Sql

/-! ## Statements -/

/-- **Places of `DISTINCT`.** Take a text whose list starts with a labelled call, with `DISTINCT`
before the list, before the arguments of the call, in both places or in none, and a text that is the
same but for these places. If the one is a statement, so is the other. They are the same statement
exactly if `DISTINCT` stands somewhere in both or nowhere in both, and the same goes for their texts
as SQL, with options resolved or not. -/
theorem Statement.read_distinctAt {text other : String} {q : Query}
    {places places' : DistinctPlaces} {t : Statement} (hq : q.StartsWithCall)
    (htext : Grammar.statements? text = some [.query (q.distinctAt places)])
    (hother : Grammar.statements? other = some [.query (q.distinctAt places')])
    (ht : Statement.read text = .ok t) :
    ∃ t', Statement.read other = .ok t' ∧ (t = t' ↔ places.any = places'.any) ∧
      ∀ o, (Sql.render o t = Sql.render o t' ↔ places.any = places'.any) ∧
        ∀ u bound, t.resolve o = .ok (u, bound) → ∃ u', t'.resolve o = .ok (u', bound) ∧
          (Sql.render o u = Sql.render o u' ↔ places.any = places'.any) := by
  obtain ⟨s, hs, rfl⟩ :=
    Statement.ofSource?_query_eq_ok.mp ((Statement.read_eq_ok_iff htext).mp ht)
  obtain ⟨hstarts, hmoved⟩ := Selection.ofSource?_distinctAt hq hs
  have hsame : s = s.withDistinct places.any := Except.ok.inj (hs.symm.trans (hmoved places))
  refine ⟨.select (s.withDistinct places'.any), ?_, ?_, fun o => ⟨?_, ?_⟩⟩
  · exact (Statement.read_eq_ok_iff hother).mpr
      (Statement.ofSource?_query_eq_ok.mpr ⟨_, hmoved places', rfl⟩)
  · constructor
    · intro h
      exact Selection.withDistinct_injective hstarts (hsame.symm.trans (Statement.select.inj h))
    · intro h
      rw [← h, ← hsame]
  · nth_rewrite 1 [hsame]
    exact Sql.render_withDistinct_iff hstarts o
  · intro u bound hu
    rw [Statement.resolve_select] at hu
    obtain ⟨⟨r, _⟩, hr, hbound⟩ := map_eq_ok.mp hu
    obtain ⟨rfl, rfl⟩ := Prod.mk.inj hbound
    have hresolved := Selection.resolve_withDistinct o s places.any
    rw [← hsame, hr] at hresolved
    have hsame' : r = r.withDistinct places.any :=
      congrArg Prod.fst (Except.ok.inj hresolved)
    refine ⟨.select (r.withDistinct places'.any), ?_, ?_⟩
    · rw [Statement.resolve_select, Selection.resolve_withDistinct, hr]
      rfl
    · nth_rewrite 1 [hsame']
      exact Sql.render_withDistinct_iff (Selection.startsWithFunction_of_resolve hstarts hr) o

/-- The case of a count of all values and of a count of distinct ones. -/
theorem Statement.read_distinctAt_count :
    ∃ (q : Query) (t t' : Statement), q.StartsWithCall ∧
      Grammar.statements? "SELECT count(\x60b\x60) AS \x60n\x60 FROM \x60t\x60" =
        some [.query (q.distinctAt ⟨false, false⟩)] ∧
      Grammar.statements? "SELECT count(DISTINCT \x60b\x60) AS \x60n\x60 FROM \x60t\x60" =
        some [.query (q.distinctAt ⟨false, true⟩)] ∧
      Statement.read "SELECT count(\x60b\x60) AS \x60n\x60 FROM \x60t\x60" = .ok t ∧
      Statement.read "SELECT count(DISTINCT \x60b\x60) AS \x60n\x60 FROM \x60t\x60" = .ok t' ∧
      t ≠ t' ∧ ∀ o, Sql.render o t ≠ Sql.render o t' := by
  let count (distinct : Bool) : Selection := ⟨⟨none, "t", none⟩,
    [⟨distinct, some "count", [.plain "b"], some "n"⟩], [], none, [], [], none⟩
  have hwellFormed : ∀ distinct, (count distinct).WellFormed := by
    intro distinct
    refine ⟨List.cons_ne_nil _ _, List.forall_mem_singleton.mpr ⟨fun _ => ⟨rfl, ?_⟩, nofun, ?_⟩,
      nofun, nofun, nofun, nofun, nofun⟩
    · exact List.cons_ne_nil _ _
    · exact List.forall_mem_singleton.mpr nofun
  have hcallable : ∀ p : Projection, Grammar.Callable p ["count"] := by
    intro p
    have htaken : ∀ {k columns}, Grammar.TakesColumns k columns → k ≠ "COUNT" := by
      rintro _ _ ⟨⟩ <;> decide
    exact ⟨by decide +kernel, fun _ htakes => htaken htakes (by decide +kernel)⟩
  have hbare : Token.WordPath ["count"] := ⟨by decide +kernel, nofun⟩
  have hreadable : ∀ distinct, (count distinct).Readable := by
    intro distinct
    refine ⟨hwellFormed distinct, rfl, ⟨?_, nofun, nofun⟩, nofun, .inl rfl, nofun⟩
    rintro _ ⟨⟩ _ ⟨⟩
    exact ⟨"count", [], rfl, hbare, hcallable _, by decide +kernel⟩
  let q := Grammar.queryOf (count false)
  have htext : Grammar.statements? "SELECT count(\x60b\x60) AS \x60n\x60 FROM \x60t\x60" =
      some [.query (q.distinctAt ⟨false, false⟩)] := by
    have hrender : Sql.render .empty (.select (count false)) =
        "SELECT count(\x60b\x60) AS \x60n\x60 FROM \x60t\x60" := by
      decide +kernel
    rw [← hrender]
    exact Grammar.statements?_render (hreadable false) .empty
  have hother :
      Grammar.statements? "SELECT count(DISTINCT \x60b\x60) AS \x60n\x60 FROM \x60t\x60" =
        some [.query (q.distinctAt ⟨false, true⟩)] := by
    have hrender : Sql.render .empty (.select (count true)) =
        "SELECT count(DISTINCT \x60b\x60) AS \x60n\x60 FROM \x60t\x60" := by
      decide +kernel
    rw [← hrender]
    exact Grammar.statements?_render (hreadable true) .empty
  have hq : q.StartsWithCall := ⟨_, _, _, _, _, _, rfl, rfl⟩
  have ht : Statement.read "SELECT count(\x60b\x60) AS \x60n\x60 FROM \x60t\x60" =
      .ok (.select (count false)) := by
    decide +kernel
  obtain ⟨t', ht', htree, hsql⟩ := Statement.read_distinctAt hq htext hother ht
  refine ⟨q, _, t', hq, htext, hother, ht, ht', fun h => ?_, fun o h => ?_⟩
  · cases htree.mp h
  · cases (hsql o).1.mp h

/-- `DISTINCT` does not keep its place: rows that are to be distinct become counts of distinct
values, where the first column is a count. -/
theorem Statement.distinct_moved :
    ¬ ∀ (function operands others : String) (t t' : Statement),
      Statement.read ("SELECT DISTINCT " ++ function ++ "(" ++ operands ++ ") AS " ++ others) =
        .ok t →
      Statement.read ("SELECT " ++ function ++ "(DISTINCT " ++ operands ++ ") AS " ++ others) =
        .ok t' →
      t ≠ t' := by
  intro h
  let t : Statement := .select ⟨⟨none, "t", none⟩,
    [⟨true, some "count", [.plain "b"], some "n"⟩], [], none, [], [], none⟩
  have ht : Statement.read ("SELECT DISTINCT " ++ "count" ++ "(" ++ "b" ++ ") AS " ++ "n FROM t") =
      .ok t := by
    decide +kernel
  have ht' : Statement.read ("SELECT " ++ "count" ++ "(DISTINCT " ++ "b" ++ ") AS " ++ "n FROM t") =
      .ok t := by
    decide +kernel
  exact h "count" "b" "n FROM t" t t ht ht' rfl

end BoundQuery
