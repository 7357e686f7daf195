import BoundQuery.Proofs.Alignment

/-!
# The limit in the text

The limit of a statement is resolved last and written last. So what is bound for it are the last of
the bound scalars, and it is the end of the text: without its limit a statement binds the scalars
before, and its text is the text before (`Statement.exists_before_limit`, `Sql.pieces_eq_append`).

A limit vanishes with each part that it has, and nothing is bound for it then. One that stays is
written with all its parts, if and only if it has a count or no offset (`Statement.showsLimit_iff`).
The grammar has no offset without a count, but a statement can have one. Its scalars are bound, and
nothing is written (`Statement.limit_unwritten`): the marks of the text and the bound scalars are
still the same only if there are none for that offset.
-/

namespace BoundQuery

/-! ## With and without a limit -/

/-- A statement without its limit. -/
def Statement.withoutLimit : Statement → Statement
  | .select s => .select { s with limit := none }
  | .insert i => .insert i
  | .update u => .update { u with limit := none }
  | .delete d => .delete { d with limit := none }

/-- The parts that a limit has, in the order of the text. -/
def Limit.parts (l : Limit) : List Value :=
  l.offset.toList ++ l.count.toList

/-- The clause with all parts of a limit. -/
def Sql.limitClause (o : Options) (l : Limit) : List Piece :=
  .fixed " LIMIT " :: values o l.parts

/-- The text of a statement ends with its limit. -/
theorem Sql.pieces_eq_append (o : Options) (s : Statement) :
    pieces o s = pieces o s.withoutLimit ++ limit o s.limit? := by
  cases s <;> simp [pieces, select, update, delete, Statement.withoutLimit, Statement.limit?, limit]

/-- What is bound for the limit comes after what the statement binds without it. -/
theorem Statement.exists_before_limit {o : Options} {s s' : Statement} {bound : List Bound}
    (h : s.resolve o = .ok (s', bound)) :
    ∃ before during, s.withoutLimit.resolve o = .ok (s'.withoutLimit, before) ∧
      Limit.resolve o s.limit? = .ok (s'.limit?, during) ∧ before ++ during = bound := by
  cases s with
  | select s =>
    obtain ⟨t, ht, rfl⟩ := resolve_select_eq_ok.mp h
    obtain ⟨ps, x, f, y, l, z, hps, hf, hl, rfl, rfl⟩ := Selection.resolve_eq_ok.mp ht
    exact ⟨x ++ y, z, resolve_select_eq_ok.mpr ⟨_, Selection.resolve_eq_ok.mpr
      ⟨ps, x, f, y, none, [], hps, hf, rfl, rfl, List.append_nil _⟩, rfl⟩, hl, rfl⟩
  | insert i =>
    obtain ⟨t, ht, rfl⟩ := resolve_insert_eq_ok.mp h
    exact ⟨bound, [], h, rfl, List.append_nil _⟩
  | update u =>
    obtain ⟨t, ht, rfl⟩ := resolve_update_eq_ok.mp h
    obtain ⟨as, x, f, y, l, z, has, hf, hl, rfl, rfl⟩ := Update.resolve_eq_ok.mp ht
    exact ⟨x ++ y, z, resolve_update_eq_ok.mpr ⟨_, Update.resolve_eq_ok.mpr
      ⟨as, x, f, y, none, [], has, hf, rfl, rfl, List.append_nil _⟩, rfl⟩, hl, rfl⟩
  | delete d =>
    obtain ⟨t, ht, rfl⟩ := resolve_delete_eq_ok.mp h
    obtain ⟨f, x, l, z, hf, hl, rfl, rfl⟩ := Deletion.resolve_eq_ok.mp ht
    exact ⟨x, z, resolve_delete_eq_ok.mpr ⟨_, Deletion.resolve_eq_ok.mpr
      ⟨f, x, none, [], hf, rfl, rfl, List.append_nil _⟩, rfl⟩, hl, rfl⟩

/-- Without its limit a statement has the marks of what is bound. -/
theorem Statement.bounds_withoutLimit {o : Options} {s s' : Statement} {bound : List Bound}
    (h : s.withoutLimit.resolve o = .ok (s', bound)) : Piece.bounds (Sql.pieces o s') = bound := by
  have hnone : Limit.Counted none := nofun
  cases s with
  | select s =>
    obtain ⟨t, ht, rfl⟩ := resolve_select_eq_ok.mp h
    exact Selection.bounds_of_resolve hnone ht
  | insert i =>
    obtain ⟨t, ht, rfl⟩ := resolve_insert_eq_ok.mp h
    exact Insertion.bounds_of_resolve ht
  | update u =>
    obtain ⟨t, ht, rfl⟩ := resolve_update_eq_ok.mp h
    exact Update.bounds_of_resolve hnone ht
  | delete d =>
    obtain ⟨t, ht, rfl⟩ := resolve_delete_eq_ok.mp h
    exact Deletion.bounds_of_resolve hnone ht

/-! ## The clause of a limit -/

/-- A limit that has a part, and a count with each offset, is written with all its parts. -/
theorem Sql.limit_eq_limitClause (o : Options) {l : Limit} (hc : Limit.Counted (some l))
    (hl : l.parts ≠ []) : limit o (some l) = limitClause o l := by
  obtain ⟨offset, count⟩ := l
  cases count with
  | some count => cases offset <;> rfl
  | none =>
    cases offset with
    | some offset => exact absurd (hc _ rfl rfl) (by simp)
    | none => exact absurd rfl hl

/-- Nothing is written for an offset alone. -/
theorem Sql.limit_of_not_counted (o : Options) {limit : Option Limit}
    (h : ¬ Limit.Counted limit) : Sql.limit o limit = [] := by
  match limit with
  | none => exact absurd nofun h
  | some ⟨offset, none⟩ => cases offset <;> rfl
  | some ⟨offset, some count⟩ =>
    refine absurd (fun l hl _ => ?_) h
    cases hl
    rfl

theorem Limit.flatMap_bounds_of_resolvePart {o : Options} {part part' : Option Value}
    {bound : List Bound} (h : resolvePart o part = .ok (some (part', bound))) :
    part'.toList.flatMap (fun v => Piece.bounds (Sql.value o v)) = bound := by
  cases part with
  | none =>
    cases h
    rfl
  | some v =>
    obtain ⟨v', rfl, hv⟩ := bounds_of_resolvePart h
    simpa using hv

/-- The parts of a limit that stays have the marks of what is bound for it, with a count or not. -/
theorem Limit.bounds_limitClause_of_resolve {o : Options} {limit : Option Limit} {l : Limit}
    {bound : List Bound} (h : Limit.resolve o limit = .ok (some l, bound)) :
    Piece.bounds (Sql.limitClause o l) = bound := by
  cases limit with
  | none => cases h
  | some l₀ =>
    obtain ⟨offset, x, count, y, hoffset, hcount, rfl, rfl⟩ :=
      Outcome.both_eq_some.mp (Outcome.optionalPart_eq_some.mp h)
    simp [Sql.limitClause, Sql.values, Limit.parts, List.flatMap_map,
      flatMap_bounds_of_resolvePart hoffset, flatMap_bounds_of_resolvePart hcount]

/-- Nothing is bound for a limit that vanishes. -/
theorem Limit.bound_of_resolve_none {o : Options} {limit : Option Limit} {bound : List Bound}
    (h : Limit.resolve o limit = .ok (none, bound)) : bound = [] := by
  cases limit with
  | none =>
    cases h
    rfl
  | some l => exact (Outcome.optionalPart_eq_none.mp h).2

/-- What is written of a limit has the marks of what is bound for it, but for an offset alone. -/
theorem Limit.bounds_of_counted {o : Options} {limit limit' : Option Limit} {bound : List Bound}
    (hc : Limit.Counted limit') (h : Limit.resolve o limit = .ok (limit', bound)) :
    Piece.bounds (Sql.limit o limit') = bound := by
  match limit' with
  | none => exact (bound_of_resolve_none h).symm
  | some ⟨none, none⟩ => exact bounds_limitClause_of_resolve h
  | some ⟨some offset, none⟩ => exact absurd (hc _ rfl rfl) (by simp)
  | some ⟨offset, some count⟩ =>
    rw [Sql.limit_eq_limitClause o hc (by simp [parts])]
    exact bounds_limitClause_of_resolve h

/-! ## What a text shows of a limit -/

/-- The promise of a limit: if it vanished, nothing was bound for it; if it has a part, the text
ends with a clause of all its parts, and what was bound for it are the marks of this clause.
`before` is what the statement binds without its limit. -/
structure Statement.ShowsLimit (o : Options) (s : Statement) (before bound : List Bound) :
    Prop where
  vanished : s.limit? = none → bound = before
  written : ∀ l, s.limit? = some l → l.parts ≠ [] →
    Sql.render o s = Sql.render o s.withoutLimit ++
      Piece.join (fun _ => "?") (Sql.limitClause o l)
  marked : ∀ l, s.limit? = some l → l.parts ≠ [] →
    bound = before ++ Piece.bounds (Sql.limitClause o l)

/-- The clause of a limit is never empty. -/
theorem Sql.render_ne_append_limitClause (o : Options) (text : String) (l : Limit) :
    text ≠ text ++ Piece.join (fun _ => "?") (limitClause o l) := by
  intro h
  have hlength := congrArg String.length h
  simp [limitClause, String.length_append] at hlength

/-- A statement that keeps the promise of its limit does not have an offset alone. -/
theorem Statement.ShowsLimit.counted {o : Options} {s : Statement} {before bound : List Bound}
    (h : s.ShowsLimit o before bound) : Limit.Counted s.limit? := by
  intro l hl hoffset
  by_contra hcount
  have hparts : l.parts ≠ [] := by
    obtain ⟨_ | offset, count⟩ := l
    · cases hoffset
    · simp [Limit.parts]
  have hsame : Sql.render o s = Sql.render o s.withoutLimit := by
    rw [Sql.render, Sql.pieces_eq_append,
      Sql.limit_of_not_counted o fun hc => hcount (hc l hl hoffset), List.append_nil, Sql.render]
  exact Sql.render_ne_append_limitClause o _ l (hsame.symm.trans (h.written l hl hparts))

/-- A resolved statement without such an offset keeps the promise. -/
theorem Statement.showsLimit_of_counted {o : Options} {s : Statement} {limit : Option Limit}
    {before during : List Bound} (hc : Limit.Counted s.limit?)
    (h : Limit.resolve o limit = .ok (s.limit?, during)) :
    s.ShowsLimit o before (before ++ during) where
  vanished hl := by
    rw [hl] at h
    rw [Limit.bound_of_resolve_none h, List.append_nil]
  written l hl hparts := by
    rw [hl] at hc
    rw [Sql.render, Sql.pieces_eq_append, hl, Sql.limit_eq_limitClause o hc hparts,
      Piece.join_append, Sql.render]
  marked l hl _ := by
    rw [hl] at h
    rw [Limit.bounds_limitClause_of_resolve h]

/-- **What is bound for a limit is written.** A resolved statement keeps the promise of its limit if
and only if the limit does not have an offset alone. The bound scalars are those of the marks in its
text under the same condition, or if nothing was bound for the limit. -/
theorem Statement.showsLimit_iff {o : Options} {s s' : Statement} {bound : List Bound}
    (h : s.resolve o = .ok (s', bound)) :
    ∃ before, s.withoutLimit.resolve o = .ok (s'.withoutLimit, before) ∧
      (s'.ShowsLimit o before bound ↔ Limit.Counted s'.limit?) ∧
      (Piece.bounds (Sql.pieces o s') = bound ↔ Limit.Counted s'.limit? ∨ bound = before) := by
  obtain ⟨before, during, hbefore, hlimit, rfl⟩ := exists_before_limit h
  refine ⟨before, hbefore, ⟨ShowsLimit.counted, fun hc => showsLimit_of_counted hc hlimit⟩, ?_⟩
  -- the marks before the limit are what was bound before it, so only those of the limit matter
  rw [Sql.pieces_eq_append, Piece.bounds_append, bounds_withoutLimit hbefore,
    List.append_right_inj]
  by_cases hc : Limit.Counted s'.limit?
  · simp [hc, Limit.bounds_of_counted hc hlimit]
  · simp [hc, Sql.limit_of_not_counted o hc, eq_comm]

/-- The case of a deletion with an offset and a sum as its count. -/
theorem Statement.showsLimit_iff_delete :
    let o : Options := .ofList [("m", .scalar (.int 2)), ("n", .scalar (.int 5)),
      ("p", .list [some (.int 1), none]), ("skip", .scalar (.int 3))]
    let s := Statement.delete ⟨⟨none, "t", none⟩, some (.inList (.plain "a") [.placeholder "p"]),
      some ⟨some (.placeholder "skip"), some (.arith .add (.placeholder "n") (.placeholder "m"))⟩⟩
    let before : List Bound := [⟨"p", .int 1⟩]
    let bound : List Bound := [⟨"p", .int 1⟩, ⟨"skip", .int 3⟩, ⟨"n", .int 5⟩, ⟨"m", .int 2⟩]
    s.resolve o = .ok (s, bound) ∧ s.ShowsLimit o before bound ∧
      Piece.bounds (Sql.pieces o s) = bound := by
  intro o s before bound
  have h : s.resolve o = .ok (s, bound) := rfl
  have hc : Limit.Counted s.limit? := by
    rintro l ⟨⟩ -
    rfl
  obtain ⟨_, ⟨⟩, hshows, hmarks⟩ := Statement.showsLimit_iff h
  exact ⟨h, hshows.mpr hc, hmarks.mpr (.inl hc)⟩

/-- An offset alone is kept and its scalar is bound, and nothing is written for it. -/
theorem Statement.limit_unwritten :
    let o : Options := .ofList [("n", .scalar (.int 5))]
    let s := Statement.select ⟨⟨none, "t", none⟩, [.plain (.plain "a") none], [], none, [], [],
      some ⟨some (.placeholder "n"), none⟩⟩
    s.resolve o = .ok (s, [⟨"n", .int 5⟩]) ∧
      s.withoutLimit.resolve o = .ok (s.withoutLimit, []) ∧
      Sql.render o s = "SELECT `a` FROM `t`" ∧ ¬ s.ShowsLimit o [] [⟨"n", .int 5⟩] := by
  refine ⟨rfl, rfl, by decide +kernel, fun hshows => ?_⟩
  exact Sql.render_ne_append_limitClause _ _ _ (hshows.written _ rfl (by simp [Limit.parts]))

end BoundQuery
