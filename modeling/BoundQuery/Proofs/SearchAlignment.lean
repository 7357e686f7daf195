import BoundQuery.Proofs.Alignment
import BoundQuery.Proofs.NormalForm
import BoundQuery.Render.Search

/-!
# The scalars of a search query

A search query is written from the filter of a selection only, and looks its placeholders up on its
own. The scalars in its text are all the same the ones that resolving bound for the filter, in the
same order (`Statement.bounds_search_of_resolve`); those bound for the partitions stand before them,
those for the limit after them. So both targets use the same scalars for a filter.

The reason is that both sides are the scalars of the placeholders of the filter: of what is written,
whatever the options are (`Search.bounds_condition`), and of what was bound, as the filter is
settled once it is resolved (`Condition.settles_of_resolveFilter`).
-/

namespace BoundQuery

variable (o : Options)

/-! ## What is written -/

/-- The text of an option holds its scalars; a name without an option has none. -/
theorem Piece.bounds_ofOption_find? (separator name : String) :
    Piece.bounds (Piece.ofOption separator name (o.find? name)) = o.boundsOf name := by
  unfold Options.boundsOf
  cases hfind : o.find? name with
  | none => rfl
  | some option => exact bounds_ofOption separator name option

namespace Search

/-- A value is written with the scalars of its placeholders. -/
theorem bounds_value (v : Value) : Piece.bounds (value o v) = o.bounds v.placeholders := by
  induction v with
  | literal l => rfl
  | column c => rfl
  | placeholder name =>
    show Piece.bounds (Piece.ofOption " OR " name (o.find? name)) = o.bounds [name]
    rw [Piece.bounds_ofOption_find?, Options.bounds_singleton]
  | arith op left right ihl ihr =>
    show Piece.bounds (Piece.wrap _ (value o left) ++ _ :: Piece.wrap _ (value o right)) = _
    simp [Value.placeholders, ihl, ihr]
  | invert v ih =>
    show Piece.bounds (_ :: Piece.wrap _ (value o v)) = _
    simp [Value.placeholders, ih]

theorem bounds_alternatives (vs : List Value) :
    Piece.bounds (alternatives o vs) = o.bounds (vs.flatMap Value.placeholders) := by
  have hvalues : (fun v => Piece.bounds (value o v)) = fun v => o.bounds v.placeholders :=
    funext (bounds_value o)
  rw [alternatives, Piece.bounds_separate, List.flatMap_map, Options.bounds_flatMap, hvalues]

/-- A condition is written with the scalars of its placeholders, in their order: neither a negation
nor the parentheses of a range or of alternatives move any. -/
theorem bounds_condition (c : Condition) :
    Piece.bounds (condition o c) = o.bounds c.placeholders := by
  induction c with
  | join op left right ihl ihr =>
    show Piece.bounds (Piece.wrap _ (condition o left) ++
      _ :: Piece.wrap _ (condition o right)) = _
    simp [Condition.placeholders, ihl, ihr]
  | not c ih =>
    show Piece.bounds (_ :: Piece.wrap _ (condition o c)) = _
    simp [Condition.placeholders, ih]
  | compare left op right =>
    show Piece.bounds (value o left ++ _ :: value o right) = _
    simp [Condition.placeholders, bounds_value]
  | between column low high =>
    show Piece.bounds (_ :: value o low ++ _ :: value o high ++ [_]) = _
    simp [Condition.placeholders, bounds_value]
  | inList column vs | notInList column vs =>
    show Piece.bounds (_ :: alternatives o vs ++ [_]) = _
    simp [Condition.placeholders, bounds_alternatives]
  | is column v | isNot column v =>
    show Piece.bounds (_ :: value o v) = _
    simp [Condition.placeholders, bounds_value]

theorem bounds_pieces (s : Selection) :
    Piece.bounds (pieces o (.select s)) = o.bounds (Condition.placeholders? s.filter) := by
  rcases s with ⟨_, _, _, _ | c, _, _, _⟩
  · rfl
  · exact bounds_condition o c

end Search

/-! ## What was bound -/

variable {o}

/-- **Alignment of both targets.** The scalars in the search query of a resolved selection are, from
left to right, those that were bound for its filter: the bound scalars without those of the
partitions at their front and those of the limit at their end. The marks that SQL has for the filter
stand for the same ones. -/
theorem Statement.bounds_search_of_resolve {s : Selection} {s' : Statement} {bound : List Bound}
    (h : (Statement.select s).resolve o = .ok (s', bound)) :
    ∃ t front back, s' = .select t ∧
      Outcome.kept (s.partitions.map (Value.resolvePartition o)) = .ok (t.partitions, front) ∧
      Condition.resolveFilter o .optional s.filter =
        .ok (t.filter, Piece.bounds (Search.pieces o s')) ∧
      Limit.resolve o s.limit = .ok (t.limit, back) ∧
      bound = front ++ Piece.bounds (Search.pieces o s') ++ back ∧
      Piece.bounds (Sql.filter o t.filter) = Piece.bounds (Search.pieces o s') := by
  obtain ⟨t, ht, rfl⟩ := Statement.resolve_select_eq_ok.mp h
  obtain ⟨ps, front, f, y, l, back, hps, hf, hl, rfl, rfl⟩ := Selection.resolve_eq_ok.mp ht
  -- both texts show the filter that is left, and its scalars are those of its placeholders
  have hsearch : Piece.bounds (Search.pieces o
      (.select { s with partitions := ps, filter := f, limit := l })) = y := by
    rw [Search.bounds_pieces]
    exact (Condition.settles_of_resolveFilter hf).bounds
  have hsql : Piece.bounds (Sql.filter o f) = y := Condition.bounds_of_resolveFilter hf
  rw [hsearch]
  exact ⟨_, front, back, rfl, hps, hf, hl, rfl, hsql⟩

/-- The case of a selection with scalars for its partitions and its limit, one leaf that vanishes,
and a list with a null element. -/
theorem Statement.bounds_search_of_resolve_lists :
    (Statement.select ⟨⟨none, "t", none⟩, [.plain (.plain "a") none], [.placeholder "p"],
        some (.join .or (.compare (.column (.plain "a")) .less (.placeholder "gone"))
          (.not (.inList (.plain "b") [.placeholder "ids", .placeholder "n"]))), [], [],
        some (.ofCount (.placeholder "n"))⟩).resolve
          (.ofList [("ids", .list [some (.int 1), none, some (.int 2)]), ("n", .scalar (.int 5)),
            ("p", .scalar (.text "p0"))]) =
        .ok (.select ⟨⟨none, "t", none⟩, [.plain (.plain "a") none], [.placeholder "p"],
          some (.not (.inList (.plain "b") [.placeholder "ids", .placeholder "n"])), [], [],
          some (.ofCount (.placeholder "n"))⟩,
          [⟨"p", .text "p0"⟩] ++ [⟨"ids", .int 1⟩, ⟨"ids", .int 2⟩, ⟨"n", .int 5⟩] ++
            [⟨"n", .int 5⟩]) ∧
      Piece.bounds (Search.pieces
        (.ofList [("ids", .list [some (.int 1), none, some (.int 2)]), ("n", .scalar (.int 5)),
          ("p", .scalar (.text "p0"))])
        (.select ⟨⟨none, "t", none⟩, [.plain (.plain "a") none], [.placeholder "p"],
          some (.not (.inList (.plain "b") [.placeholder "ids", .placeholder "n"])), [], [],
          some (.ofCount (.placeholder "n"))⟩)) =
        [⟨"ids", .int 1⟩, ⟨"ids", .int 2⟩, ⟨"n", .int 5⟩] := by
  have h : (Statement.select ⟨⟨none, "t", none⟩, [.plain (.plain "a") none], [.placeholder "p"],
      some (.join .or (.compare (.column (.plain "a")) .less (.placeholder "gone"))
        (.not (.inList (.plain "b") [.placeholder "ids", .placeholder "n"]))), [], [],
      some (.ofCount (.placeholder "n"))⟩).resolve
        (.ofList [("ids", .list [some (.int 1), none, some (.int 2)]), ("n", .scalar (.int 5)),
          ("p", .scalar (.text "p0"))]) =
      .ok (.select ⟨⟨none, "t", none⟩, [.plain (.plain "a") none], [.placeholder "p"],
        some (.not (.inList (.plain "b") [.placeholder "ids", .placeholder "n"])), [], [],
        some (.ofCount (.placeholder "n"))⟩,
        [⟨"p", .text "p0"⟩] ++ [⟨"ids", .int 1⟩, ⟨"ids", .int 2⟩, ⟨"n", .int 5⟩] ++
          [⟨"n", .int 5⟩]) := rfl
  obtain ⟨t, front, back, ht, hfront, -, hback, hbound, -⟩ :=
    Statement.bounds_search_of_resolve h
  cases ht
  cases hfront
  cases hback
  exact ⟨h, (List.append_cancel_left (List.append_cancel_right hbound)).symm⟩

end BoundQuery
