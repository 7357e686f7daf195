import Mathlib.Data.List.Forall2
import BoundQuery.Command.Run
import BoundQuery.Proofs.QueryText
import BoundQuery.Proofs.Success

/-!
# What follows the SQL

In text, the SQL of a statement is followed by what was bound for it: a line with a name and a value
for each bound scalar, which starts with `-- ` and so is a comment. Names and values are written as
they are, and a line break in one of them goes on with a line of its own. `Command.comments_iff`
says that this is all that can go wrong: there is one line for each bound scalar, and every line is
a comment, if and only if no name and no text among the values has a line break. The lines are then
the names and values in order. `Command.comment_broken` has a value that puts a line of SQL after
the comments.
-/

namespace BoundQuery

namespace Text

/-! ## Lines -/

/-- The lines of a text, each without the line break at its end. After the last line break is a line
only if something stands there. -/
def lines : List Char → List (List Char)
  | [] => []
  | c :: rest =>
    if c = '\n' then [] :: lines rest
    else (c :: (lines rest).headD []) :: (lines rest).tail

variable {c : Char} {cs rest : List Char}

@[simp] theorem lines_nil : lines [] = [] := rfl

@[simp] theorem lines_break : lines ('\n' :: rest) = [] :: lines rest := rfl

theorem lines_cons (h : c ≠ '\n') :
    lines (c :: rest) = (c :: (lines rest).headD []) :: (lines rest).tail := by
  rw [lines, if_neg h]

theorem lines_eq_nil_iff : lines cs = [] ↔ cs = [] := by
  cases cs with
  | nil => simp
  | cons c rest =>
    by_cases hc : c = '\n'
    · simp [hc]
    · simp [lines_cons hc]

/-- A line break cuts the lines of a text in two. -/
theorem lines_append_break : lines (cs ++ '\n' :: rest) = lines (cs ++ ['\n']) ++ lines rest := by
  induction cs with
  | nil => rfl
  | cons c cs ih =>
    by_cases hc : c = '\n'
    · subst hc
      rw [List.cons_append, List.cons_append, lines_break, lines_break, ih, List.cons_append]
    · have hne : lines (cs ++ ['\n']) ≠ [] := by simp [lines_eq_nil_iff]
      obtain ⟨l, ls, hls⟩ := List.exists_cons_of_ne_nil hne
      rw [List.cons_append, List.cons_append, lines_cons hc, lines_cons hc, ih, hls]
      rfl

theorem lines_single (h : '\n' ∉ cs) : lines (cs ++ ['\n']) = [cs] := by
  induction cs with
  | nil => rfl
  | cons c cs ih =>
    obtain ⟨hc, hcs⟩ := (List.mem_cons.not.trans not_or).mp h
    rw [List.cons_append, lines_cons (Ne.symm hc), ih hcs]
    rfl

/-- There are as many lines as line breaks in a text that ends in one. -/
theorem length_lines_break (cs : List Char) :
    (lines (cs ++ ['\n'])).length = cs.count '\n' + 1 := by
  induction cs with
  | nil => rfl
  | cons c cs ih =>
    by_cases hc : c = '\n'
    · subst hc
      rw [List.cons_append, lines_break, List.length_cons, ih, List.count_cons_self]
    · rw [List.cons_append, lines_cons hc, List.length_cons, List.length_tail, ih,
        List.count_cons_of_ne hc, Nat.add_sub_cancel]

/-- The lines of texts that each end in a line break are those of the texts one after the other. -/
theorem lines_flatMap_break {α : Type} (f : α → List Char) (as : List α) :
    lines (as.flatMap fun a => f a ++ ['\n']) = as.flatMap fun a => lines (f a ++ ['\n']) := by
  induction as with
  | nil => rfl
  | cons a as ih =>
    rw [List.flatMap_cons, List.flatMap_cons, ← ih, List.append_assoc, List.singleton_append,
      lines_append_break]

end Text

/-! ## The comment of a bound scalar -/

/-- Numbers and truth values have no line break in their text. -/
theorem Scalar.break_mem_render {x : Scalar} :
    '\n' ∈ x.render.toList ↔ ∃ s, x = .text s ∧ '\n' ∈ s.toList := by
  have hnumeric : ∀ {cs : List Char}, (∀ c ∈ cs, IsNumeric c) → '\n' ∉ cs := by
    intro cs hcs hmem
    exact absurd (hcs _ hmem) (by simp [IsNumeric])
  -- the other scalars are words, or numerals of a few characters
  have hother : (∀ s, x ≠ .text s) → '\n' ∉ x.render.toList := by
    intro hx
    cases x with
    | bool b => cases b <;> decide
    | int n =>
      rw [render, integerText, String.toList_ofList]
      refine hnumeric (List.forall_mem_append.mpr ⟨?_, fun c => isNumeric_of_mem_toDigits⟩)
      simpa using isNumeric_sign (decide (n.toInt < 0))
    | float x =>
      cases x with
      | finite negative m q =>
        rw [render, Notation.render, String.toList_ofList]
        exact hnumeric
          (List.forall_mem_append.mpr ⟨isNumeric_sign negative, isNumeric_magnitudeText m q⟩)
      | infinite negative => cases negative <;> decide
      | nan => decide
    | text s => exact absurd rfl (hx s)
  constructor
  · intro h
    by_contra hnone
    refine hother ?_ h
    rintro s rfl
    exact hnone ⟨s, rfl, h⟩
  · rintro ⟨s, rfl, h⟩
    exact h

namespace Bound

variable {b : Bound}

/-- What a bound scalar is shown as, without the line break after it. -/
def comment (b : Bound) : List Char :=
  "-- ".toList ++ b.name.toList ++ " = ".toList ++ b.value.render.toList

/-- Whether neither the name nor a text that is bound has a line break. -/
def OneLine (b : Bound) : Prop :=
  '\n' ∉ b.name.toList ∧ ∀ s, b.value = .text s → '\n' ∉ s.toList

theorem oneLine_iff : b.OneLine ↔ '\n' ∉ b.comment := by
  have hcomment : '\n' ∈ b.comment ↔ '\n' ∈ b.name.toList ∨ '\n' ∈ b.value.render.toList := by
    simp [comment]
  rw [hcomment, Scalar.break_mem_render, OneLine, not_or, not_exists]
  simp only [not_and]

theorem toList_boundLine (b : Bound) :
    (Command.boundLine b).toList = b.comment ++ ['\n'] := by
  simp [Command.boundLine, Command.line, comment]

end Bound

namespace Command

/-! ## The comments of a run -/

/-- The bound scalars as they are shown. -/
def comments (bound : List Bound) : List Char :=
  (String.join (bound.map boundLine)).toList

/-- The output in text is the line of SQL and the comments. -/
theorem showResolved_text (r : Resolved) :
    showResolved .text .sql r = line (r.render .sql) ++ String.ofList (comments r.bound) := by
  rw [comments, String.ofList_toList]
  rfl

theorem comments_eq (bound : List Bound) :
    comments bound = bound.flatMap fun b => b.comment ++ ['\n'] := by
  rw [comments, String.toList_join, List.flatMap_map]
  simp only [Bound.toList_boundLine]

/-- Each bound scalar has a line, and one more for each line break in its name and its value. -/
theorem length_lines_comments (bound : List Bound) :
    (Text.lines (comments bound)).length =
      bound.length + (bound.map fun b => b.comment.count '\n').sum := by
  rw [comments_eq, Text.lines_flatMap_break, List.length_flatMap]
  simp only [Text.length_lines_break]
  induction bound with
  | nil => rfl
  | cons b bound ih =>
    simp only [List.map_cons, List.sum_cons, List.length_cons, ih]
    omega

theorem lines_comments {bound : List Bound} (h : ∀ b ∈ bound, b.OneLine) :
    Text.lines (comments bound) = bound.map Bound.comment := by
  rw [comments_eq, Text.lines_flatMap_break]
  induction bound with
  | nil => rfl
  | cons b bound ih =>
    obtain ⟨hb, hbound⟩ := List.forall_mem_cons.mp h
    rw [List.flatMap_cons, Text.lines_single (Bound.oneLine_iff.mp hb), ih hbound]
    rfl

/-- There are as many lines as bound scalars only if no bound scalar has a line break. -/
theorem length_lines_comments_eq_iff {bound : List Bound} :
    (Text.lines (comments bound)).length = bound.length ↔ ∀ b ∈ bound, b.OneLine := by
  constructor
  · intro h b hb
    rw [length_lines_comments] at h
    have hsum : (bound.map fun b => b.comment.count '\n').sum = 0 := by omega
    have hcount := List.sum_eq_zero_iff.mp hsum _ (List.mem_map_of_mem hb)
    exact Bound.oneLine_iff.mpr (List.count_eq_zero.mp hcount)
  · intro h
    rw [lines_comments h, List.length_map]

variable {a : Arguments} {s : Surroundings} {settings : Settings} {out : String}

/-- Every line is a comment exactly if each line that a name or a value goes on with is one. -/
theorem lines_comments_start_iff {bound : List Bound} :
    (∀ l ∈ Text.lines (comments bound), "-- ".toList <+: l) ↔
      ∀ b ∈ bound, ∀ l ∈ (Text.lines (b.comment ++ ['\n'])).tail, "-- ".toList <+: l := by
  have hhead : ∀ b : Bound, ∃ l ls, Text.lines (b.comment ++ ['\n']) = l :: ls ∧
      "-- ".toList <+: l := by
    intro b
    have hcomment : b.comment ++ ['\n'] =
        '-' :: '-' :: ' ' :: (b.name.toList ++ " = ".toList ++ b.value.render.toList ++ ['\n']) := by
      simp [Bound.comment]
    rw [hcomment, Text.lines_cons (by decide), Text.lines_cons (by decide),
      Text.lines_cons (by decide)]
    exact ⟨_, _, rfl, _, rfl⟩
  rw [comments_eq, Text.lines_flatMap_break]
  simp only [List.mem_flatMap, forall_exists_index, and_imp]
  constructor
  · exact fun h b hb l hl => h l b hb (List.mem_of_mem_tail hl)
  · intro h l b hb hl
    obtain ⟨first, more, hlines, hfirst⟩ := hhead b
    have hmore := h b hb
    rw [hlines] at hl hmore
    rcases List.mem_cons.mp hl with rfl | hl
    · exact hfirst
    · exact hmore l hl

/-- The output of a run that shows no metadata is that of a resolved statement. -/
theorem run_eq_ok (hsettings : Settings.ofFile s.settingsPath s.settings = .ok settings)
    (hmetadata : a.metadata = false) :
    run a s = .ok out ↔ ∃ text c o r, source a s.input = .ok text ∧
      Compiled.ofText (Text.trim text) = .ok c ∧ options a settings s.optionFile = .ok o ∧
      c.resolve o = .ok r ∧
      showResolved (a.format.getD settings.format) (a.target.getD settings.target) r = out := by
  rw [run, hsettings]
  simp only [Success.bind_eq_ok, Success.mapError_eq_ok, hmetadata, Bool.false_eq_true, if_false,
    Success.pure_eq_ok]
  constructor
  · rintro ⟨_, ⟨⟩, text, htext, c, hc, o, ho, r, hr, hout⟩
    exact ⟨text, c, o, r, htext, hc, ho, hr, hout⟩
  · rintro ⟨text, c, o, r, htext, hc, ho, hr, hout⟩
    exact ⟨settings, rfl, text, htext, c, hc, o, ho, r, hr, hout⟩

/-- What a text binds under the options of a run, and its SQL. -/
def resolvedText? (text : String) (a : Arguments) (settings : Settings) (file : File) :
    Option (List Bound × String) := do
  let c ← (Compiled.ofText (Text.trim text)).toOption
  let o ← (options a settings file).toOption
  let r ← (c.resolve o).toOption
  return (r.bound, r.render .sql)

theorem exists_resolved {text sql : String} {file : File} {bound : List Bound}
    (h : resolvedText? text a settings file = some (bound, sql)) :
    ∃ c o r, Compiled.ofText (Text.trim text) = .ok c ∧ options a settings file = .ok o ∧
      c.resolve o = .ok r ∧ r.bound = bound ∧ r.render .sql = sql := by
  obtain ⟨c, hc, h⟩ := Option.bind_eq_some_iff.mp h
  obtain ⟨o, ho, h⟩ := Option.bind_eq_some_iff.mp h
  obtain ⟨r, hr, h⟩ := Option.bind_eq_some_iff.mp h
  obtain ⟨rfl, rfl⟩ := Prod.mk.inj (Option.some.inj h)
  exact ⟨c, o, r, Success.toOption_eq_some.mp hc, Success.toOption_eq_some.mp ho,
    Success.toOption_eq_some.mp hr, rfl, rfl⟩

/-- **Comments.** A run that shows SQL as text shows the SQL of a resolved statement in a line, and
then the comments of what was bound. There is one line for each bound scalar and each line is a
comment, if and only if no name and no text among the values has a line break; the lines are then
the names and values in order. Whatever there is, every line is a comment exactly if each line that
a name or a value goes on with looks like one. -/
theorem comments_iff (hsettings : Settings.ofFile s.settingsPath s.settings = .ok settings)
    (hmetadata : a.metadata = false) (htarget : a.target.getD settings.target = .sql)
    (hformat : a.format.getD settings.format = .text) (h : run a s = .ok out) :
    ∃ text c o r, source a s.input = .ok text ∧ Compiled.ofText (Text.trim text) = .ok c ∧
      options a settings s.optionFile = .ok o ∧ c.resolve o = .ok r ∧
      out.toList = (line (r.render .sql)).toList ++ comments r.bound ∧
      ((Text.lines (comments r.bound)).length = r.bound.length ∧
        (∀ l ∈ Text.lines (comments r.bound), "-- ".toList <+: l) ↔ ∀ b ∈ r.bound, b.OneLine) ∧
      ((∀ b ∈ r.bound, b.OneLine) →
        Text.lines (comments r.bound) = r.bound.map Bound.comment) ∧
      ((∀ l ∈ Text.lines (comments r.bound), "-- ".toList <+: l) ↔
        ∀ b ∈ r.bound, ∀ l ∈ (Text.lines (b.comment ++ ['\n'])).tail, "-- ".toList <+: l) := by
  obtain ⟨text, c, o, r, htext, hc, ho, hr, hout⟩ := (run_eq_ok hsettings hmetadata).mp h
  rw [htarget, hformat] at hout
  refine ⟨text, c, o, r, htext, hc, ho, hr, ?_, ⟨fun hlines => ?_, fun hclean => ⟨?_, ?_⟩⟩,
    lines_comments, lines_comments_start_iff⟩
  · rw [← hout, showResolved_text, String.toList_append, String.toList_ofList]
  · exact length_lines_comments_eq_iff.mp hlines.1
  · exact length_lines_comments_eq_iff.mpr hclean
  · intro l hl
    rw [lines_comments hclean] at hl
    obtain ⟨b, -, rfl⟩ := List.mem_map.mp hl
    exact ⟨_, by rw [Bound.comment, List.append_assoc, List.append_assoc]⟩

/-- The case of a list and of a text with quotes and hyphens. -/
theorem comments_iff_list :
    let a : Arguments :=
      { Arguments.empty with
        settings := ["a=[1, null, 2.5]", "b=it's -- \"x\""]
        text := some " delete from t where a in (:a) and b = :b" }
    let s : Surroundings := ⟨"settings.toml", .missing, .missing, .missing⟩
    ∃ r : Resolved, run a s = .ok (line (r.render .sql) ++ String.ofList (comments r.bound)) ∧
      r.render .sql = "DELETE FROM \x60t\x60 WHERE \x60a\x60 IN (?, NULL, ?) AND \x60b\x60 = ?" ∧
      (∀ b ∈ r.bound, b.OneLine) ∧
      Text.lines (comments r.bound) =
        ["-- a = 1".toList, "-- a = 2.5".toList, "-- b = it's -- \"x\"".toList] := by
  intro a s
  have hinitial : Settings.ofFile s.settingsPath s.settings = .ok Settings.initial := rfl
  obtain ⟨c, o, r, hc, ho, hr, hbound, hrender⟩ := exists_resolved
    (show resolvedText? " delete from t where a in (:a) and b = :b" a .initial .missing =
      some ([⟨"a", .int 1⟩, ⟨"a", .float (Binary64.ofDecimal false 25 (-1))⟩,
        ⟨"b", .text "it's -- \"x\""⟩],
        "DELETE FROM \x60t\x60 WHERE \x60a\x60 IN (?, NULL, ?) AND \x60b\x60 = ?") by decide +kernel)
  have hrun : run a s = .ok (showResolved .text .sql r) :=
    (run_eq_ok hinitial rfl).mpr ⟨_, c, o, r, rfl, hc, ho, hr, rfl⟩
  obtain ⟨_, c', o', r', htext, hc', ho', hr', -, -, hlines, -⟩ :=
    comments_iff hinitial rfl rfl rfl hrun
  -- what the run shows is this statement
  obtain rfl := Except.ok.inj htext
  obtain rfl := Except.ok.inj (hc.symm.trans hc')
  obtain rfl := Except.ok.inj (ho.symm.trans ho')
  obtain rfl := Except.ok.inj (hr.symm.trans hr')
  have hclean : ∀ b ∈ r.bound, b.OneLine := by
    rw [hbound]
    simp [Bound.OneLine]
  refine ⟨r, by rw [hrun, showResolved_text], hrender, hclean, (hlines hclean).trans ?_⟩
  rw [hbound]
  decide +kernel

/-- Not every line after the SQL is a comment: a text goes on in a line of SQL. -/
theorem comment_broken :
    let a : Arguments :=
      { Arguments.empty with
        settings := ["a=1\nDROP TABLE t"]
        text := some "select id from t where a = :a" }
    let s : Surroundings := ⟨"settings.toml", .missing, .missing, .missing⟩
    ∃ r : Resolved, run a s = .ok (line (r.render .sql) ++ String.ofList (comments r.bound)) ∧
      r.bound = [⟨"a", .text "1\nDROP TABLE t"⟩] ∧
      Text.lines (comments r.bound) = ["-- a = 1".toList, "DROP TABLE t".toList] ∧
      ¬ "-- ".toList <+: "DROP TABLE t".toList := by
  intro a s
  have hinitial : Settings.ofFile s.settingsPath s.settings = .ok Settings.initial := rfl
  obtain ⟨c, o, r, hc, ho, hr, hbound, -⟩ := exists_resolved
    (show resolvedText? "select id from t where a = :a" a .initial .missing =
      some ([⟨"a", .text "1\nDROP TABLE t"⟩],
        "SELECT \x60id\x60 FROM \x60t\x60 WHERE \x60a\x60 = ?") by decide +kernel)
  have hrun : run a s = .ok (showResolved .text .sql r) :=
    (run_eq_ok hinitial rfl).mpr ⟨_, c, o, r, rfl, hc, ho, hr, rfl⟩
  refine ⟨r, by rw [hrun, showResolved_text], hbound, ?_, by decide⟩
  rw [hbound]
  decide +kernel

end Command

end BoundQuery
