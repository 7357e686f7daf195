import BoundQuery.Proofs.Piece
import BoundQuery.Proofs.Shape
import BoundQuery.Render.Sql

/-!
# The text does not depend on the scalars

What a caller puts into a scalar never gets into the SQL of a statement
(`Statement.resolve_alike_of_sameShape`): two maps whose options have one shape, for the names that
the statement asks for, give the same text. A mark looks the same for every scalar, so rendering
with either map makes the same text of the same statement; and resolving with either map gives the
same statement, by `Statement.alike_resolve`.

The text is made of what stays of the statement, which is why both maps have to be compared only for
the names of the statement as it was: nothing that stays asks for another one
(`Statement.placeholders_subset`).
-/

namespace BoundQuery

variable {o o' : Options}

namespace Sql

/-! ## Values and conditions -/

/-- Options of one shape are written alike: a mark looks the same for every scalar. -/
theorem join_ofOption_of_sameShape {name : String} {v v' : Option OptionValue} {mark : String}
    (h : OptionValue.SameShape v v') :
    Piece.join (fun _ => mark) (Piece.ofOption ", " name v) =
      Piece.join (fun _ => mark) (Piece.ofOption ", " name v') := by
  -- the text of a list depends on which of its elements are null only
  have hlist : ∀ items : List (Option Scalar),
      Piece.join (fun _ => mark) (Piece.ofOption ", " name (some (.list items))) =
        ", ".intercalate ((items.map Option.isSome).map fun there =>
          if there then mark else "NULL") := by
    intro items
    rw [Piece.ofOption, Piece.join_separate, List.map_map, List.map_map]
    congr 1
    refine List.map_congr_left fun item _ => ?_
    cases item <;> simp
  rcases v with _ | _ | s | items <;> rcases v' with _ | _ | s' | items' <;>
    try exact h.elim
  · rfl
  · rfl
  · simp [Piece.ofOption]
  · have hshape : items.map Option.isSome = items'.map Option.isSome := h
    rw [hlist, hlist, hshape]

/-- Members that are written alike make lists that are written alike. -/
theorem join_separate_congr {α : Type} {f g : α → List Piece} {as : List α}
    {shown : Bound → String} {separator : String}
    (h : ∀ a ∈ as, Piece.join shown (f a) = Piece.join shown (g a)) :
    Piece.join shown (Piece.separate separator (as.map f)) =
      Piece.join shown (Piece.separate separator (as.map g)) := by
  rw [Piece.join_separate, Piece.join_separate, List.map_map, List.map_map]
  exact congrArg _ (List.map_congr_left h)

variable {mark : String}

/-- A value is written alike: only its placeholders depend on the map. -/
theorem join_value_congr (v : Value) (h : o.SameShape o' v.placeholders) :
    Piece.join (fun _ => mark) (value o v) = Piece.join (fun _ => mark) (value o' v) := by
  induction v with
  | literal l => rfl
  | column c => rfl
  | placeholder name =>
    exact join_ofOption_of_sameShape (h name (List.mem_singleton_self name))
  | arith op left right ihl ihr =>
    obtain ⟨hl, hr⟩ := Options.sameShape_append.mp h
    unfold value at ihl ihr ⊢
    simp only [Value.render, Piece.join_append, Piece.join_fixed, Piece.join_wrap, ihl hl, ihr hr]
  | invert v ih =>
    unfold value at ih ⊢
    simp only [Value.render, Piece.join_fixed, Piece.join_wrap, ih h]

theorem join_values_congr (vs : List Value) (h : o.SameShape o' (vs.flatMap Value.placeholders)) :
    Piece.join (fun _ => mark) (values o vs) = Piece.join (fun _ => mark) (values o' vs) :=
  join_separate_congr fun v hv => join_value_congr v (Options.sameShape_flatMap.mp h v hv)

/-- A condition is written alike: only the values in it depend on the map. -/
theorem join_condition_congr (c : Condition) (h : o.SameShape o' c.placeholders) :
    Piece.join (fun _ => mark) (condition o c) = Piece.join (fun _ => mark) (condition o' c) := by
  induction c with
  | join op left right ihl ihr =>
    obtain ⟨hl, hr⟩ := Options.sameShape_append.mp h
    unfold condition at ihl ihr ⊢
    simp only [Condition.render, Piece.join_append, Piece.join_fixed, Piece.join_wrap, ihl hl,
      ihr hr]
  | not c ih =>
    unfold condition at ih ⊢
    simp only [Condition.render, Piece.join_fixed, Piece.join_wrap, ih h]
  | compare left op right =>
    obtain ⟨hl, hr⟩ := Options.sameShape_append.mp h
    simp only [condition, Condition.render, predicate, Piece.join_append, Piece.join_fixed,
      join_value_congr left hl, join_value_congr right hr]
  | between column low high =>
    obtain ⟨hl, hr⟩ := Options.sameShape_append.mp h
    simp only [condition, Condition.render, predicate, List.cons_append, Piece.join_append,
      Piece.join_fixed, join_value_congr low hl, join_value_congr high hr]
  | inList column vs | notInList column vs =>
    simp only [condition, Condition.render, predicate, List.cons_append, Piece.join_append,
      Piece.join_fixed, join_values_congr vs h]
  | is column v | isNot column v =>
    simp only [condition, Condition.render, predicate, Piece.join_fixed, join_value_congr v h]

/-! ## Clauses -/

/-- The name of a partition does not depend on the map. -/
theorem join_partition_congr (v : Value) (h : o.SameShape o' v.placeholders) :
    Piece.join (fun _ => mark) (partition o v) = Piece.join (fun _ => mark) (partition o' v) := by
  unfold partition
  split
  · rfl
  · exact join_value_congr v h

theorem join_partitions_congr (vs : List Value)
    (h : o.SameShape o' (vs.flatMap Value.placeholders)) :
    Piece.join (fun _ => mark) (partitions o vs) =
      Piece.join (fun _ => mark) (partitions o' vs) := by
  have hnames : Piece.join (fun _ => mark) (Piece.separate ", " (vs.map (partition o))) =
      Piece.join (fun _ => mark) (Piece.separate ", " (vs.map (partition o'))) :=
    join_separate_congr fun v hv =>
      join_partition_congr v (Options.sameShape_flatMap.mp h v hv)
  unfold partitions
  split
  · rfl
  · simp only [List.cons_append, Piece.join_fixed, Piece.join_append, hnames]

theorem join_filter_congr (c : Option Condition)
    (h : o.SameShape o' (Condition.placeholders? c)) :
    Piece.join (fun _ => mark) (filter o c) = Piece.join (fun _ => mark) (filter o' c) := by
  cases c with
  | none => rfl
  | some c => simp only [filter, Piece.join_fixed, join_condition_congr c h]

/-- Of a limit only what is written counts. -/
theorem join_limit_congr (l : Option Limit) (h : o.SameShape o' (Limit.placeholders? l)) :
    Piece.join (fun _ => mark) (limit o l) = Piece.join (fun _ => mark) (limit o' l) := by
  rcases l with _ | ⟨offset, count⟩
  · rfl
  obtain ⟨hoffset, hcount⟩ := Options.sameShape_append.mp h
  cases count with
  | none => cases offset <;> rfl
  | some count =>
    cases offset with
    | none => simp only [limit, Piece.join_fixed, join_value_congr count hcount]
    | some offset =>
      simp only [limit, List.cons_append, Piece.join_append, Piece.join_fixed,
        join_value_congr offset hoffset, join_value_congr count hcount]

theorem join_assignments_congr (as : List Assignment)
    (h : o.SameShape o' (Assignment.placeholders as)) :
    Piece.join (fun _ => mark) (assignments o as) =
      Piece.join (fun _ => mark) (assignments o' as) := by
  refine join_separate_congr fun a ha => ?_
  simp only [Piece.join_fixed, join_value_congr a.value (Options.sameShape_flatMap.mp h a ha)]

/-- A row is written alike. -/
theorem join_row_congr (cells : List Value)
    (h : o.SameShape o' (cells.flatMap Value.placeholders)) :
    Piece.join (fun _ => mark) (row o cells) = Piece.join (fun _ => mark) (row o' cells) := by
  simp only [row, List.cons_append, Piece.join_append, Piece.join_fixed,
    join_values_congr cells h]

/-! ## Statements -/

/-- Rendering with options of one shape makes the same text of a statement. -/
theorem render_congr (s : Statement) (h : o.SameShape o' s.placeholders) :
    render o s = render o' s := by
  unfold render
  cases s with
  | select s =>
    obtain ⟨hrest, hlimit⟩ := Options.sameShape_append.mp h
    obtain ⟨hpartitions, hfilter⟩ := Options.sameShape_append.mp hrest
    simp only [pieces, select, List.cons_append, Piece.join_fixed, Piece.join_append,
      join_partitions_congr s.partitions hpartitions, join_filter_congr s.filter hfilter,
      join_limit_congr s.limit hlimit]
  | insert i =>
    obtain ⟨hrows, honDuplicate⟩ := Options.sameShape_append.mp h
    have hvalues : Piece.join (fun _ => "?") (Piece.separate ", " (i.rows.map (row o))) =
        Piece.join (fun _ => "?") (Piece.separate ", " (i.rows.map (row o'))) :=
      join_separate_congr fun cells hcells =>
        join_row_congr cells (Options.sameShape_flatMap.mp hrows cells hcells)
    simp only [pieces, insert, List.cons_append, Piece.join_fixed, Piece.join_append, hvalues]
    congr 2
    split
    · rfl
    · simp only [Piece.join_fixed, join_assignments_congr i.onDuplicate honDuplicate]
  | update u =>
    obtain ⟨hrest, hlimit⟩ := Options.sameShape_append.mp h
    obtain ⟨hassignments, hfilter⟩ := Options.sameShape_append.mp hrest
    have hassigned : Piece.join (fun _ => "?") (if u.assignments.isEmpty then
          [.fixed "__UNSUPPORTED_ASSIGNMENTS__(empty)"] else assignments o u.assignments) =
        Piece.join (fun _ => "?") (if u.assignments.isEmpty then
          [.fixed "__UNSUPPORTED_ASSIGNMENTS__(empty)"] else assignments o' u.assignments) := by
      split
      · rfl
      · exact join_assignments_congr u.assignments hassignments
    simp only [pieces, update, List.cons_append, Piece.join_fixed, Piece.join_append, hassigned,
      join_filter_congr u.filter hfilter, join_limit_congr u.limit hlimit]
  | delete d =>
    obtain ⟨hfilter, hlimit⟩ := Options.sameShape_append.mp h
    simp only [pieces, delete, List.cons_append, Piece.join_fixed, Piece.join_append,
      join_filter_congr d.filter hfilter, join_limit_congr d.limit hlimit]

end Sql

/-- **The text does not depend on the scalars.** Two maps whose options have one shape, for the
names that a statement asks for, either both miss the same option, or both give the same statement
and the same SQL, and bind as many scalars for the same names in the same order. -/
theorem Statement.resolve_alike_of_sameShape (s : Statement)
    (h : o.SameShape o' s.placeholders) :
    (∃ e, s.resolve o = .error e ∧ s.resolve o' = .error e) ∨
      ∃ t x x', s.resolve o = .ok (t, x) ∧ s.resolve o' = .ok (t, x') ∧
        Sql.render o t = Sql.render o' t ∧ x.length = x'.length ∧
        x.map Bound.name = x'.map Bound.name := by
  have halike := Statement.alike_resolve h
  -- both runs end in the same way
  generalize hr : s.resolve o = r, s.resolve o' = r' at halike ⊢
  cases halike with
  | missing e => exact .inl ⟨e, rfl, rfl⟩
  | @ok t x x' hnames =>
    have hlength : x.length = x'.length := by
      rw [← List.length_map, hnames, List.length_map]
    -- what stays asks for fewer names, so that the maps are alike on these too
    have htext : Sql.render o t = Sql.render o' t :=
      Sql.render_congr t (h.mono (Statement.placeholders_subset hr))
    exact .inr ⟨t, x, x', rfl, rfl, htext, hlength, hnames⟩

/-- The case of two maps that share no scalar, one of which has an option more; the text that is put
into a scalar looks like SQL. -/
theorem Statement.resolve_alike_of_sameShape_delete :
    let o : Options := .ofList [("a", .scalar (.int 1)), ("ids", .list [some (.int 2), none])]
    let o' : Options := .ofList [("a", .scalar (.text "1 OR 1 = 1")),
      ("ids", .list [some (.bool true), none]), ("other", .null)]
    let s : Statement := .delete ⟨⟨none, "t", none⟩,
      some (.join .and (.compare (.column (.plain "a")) .equal (.placeholder "a"))
        (.inList (.plain "b") [.placeholder "ids", .placeholder "absent"])), none⟩
    Options.SameShape o o' ["a", "ids", "absent"] ∧
      ∃ t x x', s.resolve o = .ok (t, x) ∧ s.resolve o' = .ok (t, x') ∧
        Sql.render o t = Sql.render o' t ∧ x.length = x'.length ∧
        x.map Bound.name = x'.map Bound.name := by
  intro o o' s
  have hshape : Options.SameShape o o' ["a", "ids", "absent"] := by
    intro name hname
    simp only [List.mem_cons, List.not_mem_nil, or_false] at hname
    rcases hname with rfl | rfl | rfl
    · exact trivial
    · exact (rfl : [true, false] = [true, false])
    · exact trivial
  refine ⟨hshape, (Statement.resolve_alike_of_sameShape s hshape).resolve_left ?_⟩
  rintro ⟨e, he, -⟩
  cases he

end BoundQuery
