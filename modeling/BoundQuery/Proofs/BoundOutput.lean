import BoundQuery.Command.Run
import BoundQuery.Proofs.JsonDocuments
import BoundQuery.Proofs.OptionLoading

/-!
# Bound scalars in JSON output

The output of a statement in SQL lists what was bound for it. `Json.boundOptions?` reads this list
again, the values as options. `Resolved.boundOptions?_eq_entries_iff` says what comes back, for any
statement and anything bound: each entry has its name and what its scalar is read as
(`Scalar.reread?`). So all names and scalars come back in order, unless there is a binary number
that is not finite or is not read back from its own text.

A number that is not finite is written as null, which binds nothing. A TOML file can hold one:
`Resolved.bound_written_null`.
-/

namespace BoundQuery

namespace Json

/-! ## Reading an output -/

/-- A member of an object. -/
def member? (name : String) : Json → Option Json
  | .object members => members.lookup name
  | _ => none

/-- The items of an array. -/
def items? : Json → Option (List Json)
  | .array items => some items
  | _ => none

/-- A text. -/
def text? : Json → Option String
  | .text s => some s
  | _ => none

/-- A bound scalar in an output: its name, and its value as an option. -/
def bound? (entry : Json) : Option (String × OptionValue) := do
  let name ← (entry.member? "name").bind text?
  let value ← entry.member? "value"
  let option ← value.toOption.toOption
  return (name, option)

/-- The bound scalars of an output. -/
def boundOptions? (text : String) : Option (List (String × OptionValue)) := do
  let output ← parse? maxDepth text
  let entries ← (output.member? "bound_options").bind items?
  entries.mapM bound?

end Json

/-- The option that a scalar is read as from its text, if its text can be read. -/
def Scalar.reread? (value : Scalar) : Option OptionValue :=
  (Json.scalar? value).bind fun read => read.toOption.toOption

namespace Scalar

variable {value : Scalar}

theorem reread?_eq_some {option : OptionValue} :
    value.reread? = some option ↔
      ∃ read, Json.scalar? value = some read ∧ Json.Means read option := by
  rw [reread?, Option.bind_eq_some_iff]
  simp only [Success.toOption_eq_some, Json.toOption_eq_ok]

/-- Truth values, integers and texts are read back; a binary number is if its text is. -/
theorem reread?_eq_scalar_iff :
    value.reread? = some (.scalar value) ↔ ∀ x, value = .float x → x.isFinite = true ∧
      Json.parse? Json.maxDepth (JsonText.numberNotation.render x) = some (.float x) := by
  rw [reread?_eq_some]
  cases value with
  | bool b => exact iff_of_true ⟨_, rfl, .scalar (.bool b)⟩ (by simp)
  | int n => exact iff_of_true ⟨_, rfl, .scalar (.int n)⟩ (by simp)
  | text s => exact iff_of_true ⟨_, rfl, .scalar (.text s)⟩ (by simp)
  | float x =>
    constructor
    · rintro ⟨read, hread, hmeans⟩ _ ⟨⟩
      change Json.parse? _ _ = _ at hread
      -- a number that is not finite is written as null, which is read as no scalar
      cases x with
      | finite negative m q =>
        obtain ⟨y?, hy⟩ := Json.parse?_finite negative m q
        rw [hy] at hread
        obtain ⟨y, rfl, rfl⟩ := Option.map_eq_some_iff.mp hread
        cases hmeans with
        | scalar helement =>
          cases helement
          exact ⟨rfl, hy⟩
      | infinite negative | nan =>
        rw [Json.parse?_not_finite rfl] at hread
        cases hread
        cases hmeans with
        | scalar helement => cases helement
    · intro h
      exact ⟨_, (h x rfl).2, .scalar (.float x)⟩

end Scalar

namespace Json

/-! ## Entries -/

theorem bound?_ofMembers (name : String) (value : Json) :
    (ofMembers [("name", .text name), ("value", value)]).bound? =
      value.toOption.toOption.map (name, ·) := by
  have hmembers : ofMembers [("name", .text name), ("value", value)] =
      .object [("name", .text name), ("value", value)] := rfl
  rw [hmembers]
  show (value.toOption.toOption.bind fun option => some (name, option)) = _
  cases value.toOption.toOption <;> rfl

end Json

theorem Bound.value?_toJson (b : Bound) :
    b.toJson.value? = (Json.scalar? b.value).map fun value =>
      Json.ofMembers [("name", .text b.name), ("value", value)] := by
  have hname : Json.scalar? (.text b.name) = some (.text b.name) := rfl
  simp only [toJson, JsonText.value?, JsonText.memberValues?, hname, Option.bind_some]
  cases Json.scalar? b.value <;> rfl

/-- Each entry of an output is read on its own, and all of them can be read or none. -/
theorem Bound.mapM_bound? (bound : List Bound) :
    ((JsonText.itemValues? (bound.map Bound.toJson)).bind fun entries =>
      entries.mapM Json.bound?) =
      bound.mapM fun b => b.value.reread?.map (b.name, ·) := by
  induction bound with
  | nil => rfl
  | cons b bound ih =>
    rw [List.mapM_cons, ← ih, List.map_cons, JsonText.itemValues?, value?_toJson, Scalar.reread?]
    cases Json.scalar? b.value with
    | none => rfl
    | some value =>
      simp only [Option.map_some, Option.bind_some]
      cases JsonText.itemValues? (bound.map Bound.toJson) with
      | none => cases value.toOption.toOption <;> rfl
      | some entries =>
        simp only [Option.map_some, Option.bind_some, List.mapM_cons, Json.bound?_ofMembers]

theorem Bound.itemsDepth_le (bound : List Bound) :
    JsonText.itemsDepth (bound.map Bound.toJson) ≤ 1 := by
  induction bound with
  | nil => exact Nat.zero_le 1
  | cons b bound ih => exact Nat.max_le.mpr ⟨Nat.le_refl 1, ih⟩

namespace Resolved

/-- The texts of an output in SQL: without blanks, over several lines, and as a run shows it. -/
def outputTexts (r : Resolved) : List String :=
  [(r.toJson .sql).compact, (r.toJson .sql).pretty 0, Command.showResolved .json .sql r]

theorem depth_toJson_le (r : Resolved) : (r.toJson .sql).depth ≤ Json.maxDepth := by
  have hentries := Bound.itemsDepth_le r.bound
  have hdepth : (r.toJson .sql).depth =
      max 0 (max 0 (max (JsonText.itemsDepth (r.bound.map Bound.toJson) + 1) 0)) + 1 := rfl
  rw [hdepth, Json.maxDepth]
  omega

theorem value?_toJson (r : Resolved) :
    (r.toJson .sql).value? = (JsonText.itemValues? (r.bound.map Bound.toJson)).map fun entries =>
      Json.ofMembers [("target", .text "sql"), ("text", .text (r.render .sql)),
        ("bound_options", .array entries)] := by
  have htarget : Json.scalar? (.text "sql") = some (.text "sql") := rfl
  have htext : Json.scalar? (.text (r.render .sql)) = some (.text (r.render .sql)) := rfl
  show (JsonText.object [("target", .scalar (.text "sql")),
    ("text", .scalar (.text (r.render .sql))),
    ("bound_options", .array (r.bound.map Bound.toJson))]).value? = _
  simp only [JsonText.value?, JsonText.memberValues?, htarget, htext, Option.bind_some]
  cases JsonText.itemValues? (r.bound.map Bound.toJson) <;> rfl

/-- The entries of an output are read as what their scalars are read as. -/
theorem boundOptions?_outputTexts (r : Resolved) {text : String} (h : text ∈ r.outputTexts) :
    Json.boundOptions? text = r.bound.mapM fun b => b.value.reread?.map (b.name, ·) := by
  have hparse : Json.parse? Json.maxDepth text = (r.toJson .sql).value? := by
    -- on one line, on several, and on several with a line break at the end
    simp only [outputTexts, List.mem_cons, List.not_mem_nil, or_false] at h
    rcases h with rfl | rfl | rfl
    · exact Json.parse?_spelled (JsonText.spelled_compact _) JsonText.blank_nil
        (List.append_nil _).symm r.depth_toJson_le
    · exact Json.parse?_spelled (JsonText.spelled_pretty 0 _) JsonText.blank_nil
        (List.append_nil _).symm r.depth_toJson_le
    · have hbreak : JsonText.Blank ['\n'] := List.forall_mem_singleton.mpr rfl
      exact Json.parse?_spelled (JsonText.spelled_pretty 0 _) hbreak
        (String.toList_append ..) r.depth_toJson_le
  rw [Json.boundOptions?, hparse, value?_toJson, ← Bound.mapM_bound?]
  cases JsonText.itemValues? (r.bound.map Bound.toJson) <;> rfl

/-- The entries of the bound scalars as options. -/
def entries (r : Resolved) : List (String × OptionValue) :=
  r.bound.map fun b => (b.name, .scalar b.value)

end Resolved

/-- A list is mapped by a function that never fails on it. -/
theorem mapM_eq_map_iff {α β : Type} {f : α → Option β} {g : α → β} {as : List α} :
    as.mapM f = some (as.map g) ↔ ∀ a ∈ as, f a = some (g a) := by
  induction as with
  | nil => simp
  | cons a as ih =>
    rw [List.mapM_cons, List.map_cons, List.forall_mem_cons, ← ih]
    cases f a with
    | none => simp
    | some b =>
      cases as.mapM f <;> simp [pure]

namespace Resolved

/-- **Output.** What is written of the bound scalars of a statement in SQL is read entry by entry:
each has its name and the option that its scalar's text is read as. All scalars are read back, in
order, if and only if every number among them is finite and is read back from its own text. And
exactly a number that is not finite is written as null. -/
theorem boundOptions?_eq_entries_iff (r : Resolved) {text : String} (h : text ∈ r.outputTexts) :
    Json.boundOptions? text = (r.bound.mapM fun b => b.value.reread?.map (b.name, ·)) ∧
    (Json.boundOptions? text = some r.entries ↔
      ∀ b ∈ r.bound, ∀ x, b.value = .float x → x.isFinite = true ∧
        Json.parse? Json.maxDepth (JsonText.numberNotation.render x) = some (.float x)) ∧
    ∀ b ∈ r.bound, (JsonText.scalar b.value).compact = "null" ↔
      ∃ x, b.value = .float x ∧ x.isFinite = false := by
  have hread := r.boundOptions?_outputTexts h
  refine ⟨hread, ?_, fun b _ => Json.scalarText_eq_null_iff⟩
  rw [hread, entries, mapM_eq_map_iff]
  refine forall₂_congr fun b _ => ?_
  rw [← Scalar.reread?_eq_scalar_iff]
  cases b.value.reread? <;> simp

/-- The case of a list with the least integer, a truth value and a number, and of a text with a
quote and control characters. -/
theorem boundOptions?_eq_entries_iff_list :
    let o : Options := .ofList [("a", .list [some (.int (-9223372036854775808)), none,
        some (.float (Binary64.ofDecimal true 25 (-1)))]),
      ("b", .scalar (.text "\"\n\x01é"))]
    ∃ c r, Compiled.ofText "select id from t where a in (:a) and b = :b" = .ok c ∧
      c.resolve o = .ok r ∧ (r.toJson .sql).pretty 0 ∈ r.outputTexts ∧
      Json.boundOptions? ((r.toJson .sql).pretty 0) =
        some [("a", .scalar (.int (-9223372036854775808))),
          ("a", .scalar (.float (Binary64.ofDecimal true 25 (-1)))),
          ("b", .scalar (.text "\"\n\x01é"))] := by
  intro o
  have hbound : ((Compiled.ofText "select id from t where a in (:a) and b = :b").toOption.bind
      fun c => (c.resolve o).toOption.map Resolved.bound) =
      some [⟨"a", .int (-9223372036854775808)⟩, ⟨"a", .float (Binary64.ofDecimal true 25 (-1))⟩,
        ⟨"b", .text "\"\n\x01é"⟩] := by decide +kernel
  obtain ⟨c, hc, hresolve⟩ := Option.bind_eq_some_iff.mp hbound
  obtain ⟨r, hr, hbound⟩ := Option.map_eq_some_iff.mp hresolve
  have hmem : (r.toJson .sql).pretty 0 ∈ r.outputTexts := by simp [outputTexts]
  have hread : ∀ b ∈ r.bound, b.value.reread? = some (.scalar b.value) := by
    rw [hbound]
    decide +kernel
  refine ⟨c, r, Success.toOption_eq_some.mp hc, Success.toOption_eq_some.mp hr, hmem, ?_⟩
  rw [(boundOptions?_eq_entries_iff r hmem).2.1.mpr
    fun b hb => Scalar.reread?_eq_scalar_iff.mp (hread b hb), entries, hbound]
  rfl

/-- Not every bound scalar is read back: the infinity of a TOML file is written as null. -/
theorem bound_written_null :
    ∃ c o r, Compiled.ofText "select id from t where a = :a" = .ok c ∧
      Options.ofFile "o.toml" (.text "a = inf\n") = .ok o ∧ c.resolve o = .ok r ∧
      r.entries = [("a", .scalar (.float (.infinite false)))] ∧
      ∀ text ∈ r.outputTexts, Json.boundOptions? text = some [("a", .null)] := by
  have hbound : ((Compiled.ofText "select id from t where a = :a").toOption.bind fun c =>
      (Options.ofFile "o.toml" (.text "a = inf\n")).toOption.bind fun o =>
        (c.resolve o).toOption.map Resolved.bound) =
      some [⟨"a", .float (.infinite false)⟩] := by decide +kernel
  obtain ⟨c, hc, hoptions⟩ := Option.bind_eq_some_iff.mp hbound
  obtain ⟨o, ho, hresolve⟩ := Option.bind_eq_some_iff.mp hoptions
  obtain ⟨r, hr, hbound⟩ := Option.map_eq_some_iff.mp hresolve
  refine ⟨c, o, r, Success.toOption_eq_some.mp hc, Success.toOption_eq_some.mp ho,
    Success.toOption_eq_some.mp hr, ?_, fun text h => ?_⟩
  · rw [entries, hbound]
    rfl
  · rw [r.boundOptions?_outputTexts h, hbound]
    decide +kernel

end Resolved

end BoundQuery
