import BoundQuery.Render.Piece

/-!
# The scalars and the text of pieces

Two things can be read off pieces: the scalars that stand among them, from left to right
(`Piece.bounds`), and the text they make (`Piece.join`). Both follow the way the pieces were put
together, one lemma for each way.
-/

namespace BoundQuery

namespace Piece

/-! ## Scalars -/

@[simp] theorem bounds_nil : bounds [] = [] := rfl

@[simp] theorem bounds_fixed (text : String) (ps : List Piece) :
    bounds (.fixed text :: ps) = bounds ps := rfl

@[simp] theorem bounds_bound (b : Bound) (ps : List Piece) :
    bounds (.bound b :: ps) = b :: bounds ps := rfl

@[simp] theorem bounds_append (ps qs : List Piece) :
    bounds (ps ++ qs) = bounds ps ++ bounds qs :=
  List.filterMap_append ..

/-- Parentheses hold no scalars. -/
@[simp] theorem bounds_wrap (parens : Bool) (ps : List Piece) :
    bounds (wrap parens ps) = bounds ps := by
  cases parens <;> simp [wrap]

/-- A separator holds no scalars. -/
@[simp] theorem bounds_separate (separator : String) :
    ∀ pss : List (List Piece), bounds (separate separator pss) = pss.flatMap bounds
  | [] => rfl
  | [first] => by simp [separate]
  | first :: second :: rest => by
    rw [separate, bounds_append, bounds_fixed, bounds_separate separator (second :: rest)]
    rfl

/-- The text of an option holds the scalars of the option, each under the option's name. -/
theorem bounds_ofOption (separator name : String) (value : OptionValue) :
    bounds (ofOption separator name (some value)) = value.scalars.map (Bound.mk name) := by
  cases value with
  | null => rfl
  | scalar s => rfl
  | list items =>
    simp only [ofOption, bounds_separate, OptionValue.scalars]
    induction items with
    | nil => rfl
    | cons item rest ih => cases item <;> simp [ih]

/-! ## Text -/

variable (shown : Bound → String)

@[simp] theorem join_nil : join shown [] = "" := rfl

@[simp] theorem join_append (ps qs : List Piece) :
    join shown (ps ++ qs) = join shown ps ++ join shown qs := by
  simp [join]

@[simp] theorem join_fixed (text : String) (ps : List Piece) :
    join shown (.fixed text :: ps) = text ++ join shown ps := by
  simp [join]

@[simp] theorem join_bound (b : Bound) (ps : List Piece) :
    join shown (.bound b :: ps) = shown b ++ join shown ps := by
  simp [join]

@[simp] theorem join_wrap (parens : Bool) (ps : List Piece) :
    join shown (wrap parens ps) =
      if parens then "(" ++ join shown ps ++ ")" else join shown ps := by
  cases parens <;> simp [wrap, String.append_assoc]

/-- A separator stands between the texts of the members only. -/
@[simp] theorem join_separate (separator : String) :
    ∀ pss : List (List Piece),
      join shown (separate separator pss) = separator.intercalate (pss.map (join shown))
  | [] => by simp [separate]
  | [first] => by simp [separate]
  | first :: second :: rest => by
    rw [separate, join_append, join_fixed, join_separate separator (second :: rest)]
    simp [String.intercalate_cons_cons, String.append_assoc]

end Piece

end BoundQuery
