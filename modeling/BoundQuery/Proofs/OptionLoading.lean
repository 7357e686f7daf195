import BoundQuery.Options.Loading
import BoundQuery.Proofs.OptionMap
import BoundQuery.Proofs.Success

/-!
# Loading options out of documents

What a value of a document means as an option is a relation here (`Json.Means`, `Toml.Means`), and
so is what makes it mean nothing (`Json.Refused`, `Toml.Refused`): a value that is neither a scalar
nor an array, or an array with such a value or another array in it, told by the first of them.

`Options.loads_documents` says that loading is all or nothing. If every value means something, the
result has the keys of the document with what their values mean. If not, the error names the least
key, byte by byte, among those whose values mean nothing, and the kind of the first part of that
value that cannot be bound. Nothing but tables, objects and nested arrays is ever refused.
-/

namespace BoundQuery

/-! ## What a document means -/

namespace Json

/-- The element of a list that a value stands for. An integer that has no room in 64 bits with sign
stands for the nearest binary number. -/
inductive Element : Json → Option Scalar → Prop
  | null : Element .null none
  | bool (b : Bool) : Element (.bool b) (some (.bool b))
  | int (k : Int64) : Element (.int k.toInt) (some (.int k))
  | large {n : Int} : n < Int64.minValue.toInt ∨ Int64.maxValue.toInt < n →
      Element (.int n) (some (.float (Binary64.ofInt n)))
  | float (x : Binary64) : Element (.float x) (some (.float x))
  | text (s : String) : Element (.text s) (some (.text s))

/-- A value that stands for no element, by its kind. -/
inductive NoElement : Json → UnboundKind → Prop
  | array (items : List Json) : NoElement (.array items) .nestedArray
  | object (members : List (String × Json)) : NoElement (.object members) .object

/-- The option that a value means. -/
inductive Means : Json → OptionValue → Prop
  | null : Means .null .null
  | scalar {j : Json} {s : Scalar} : Element j (some s) → Means j (.scalar s)
  | list {items : List Json} {elements : List (Option Scalar)} :
      List.Forall₂ Element items elements → Means (.array items) (.list elements)

/-- A value that means no option, with the kind of the first part of it that cannot be bound. -/
inductive Refused : Json → UnboundKind → Prop
  | object (members : List (String × Json)) : Refused (.object members) .object
  | element {before after : List Json} {j : Json} {kind : UnboundKind} :
      (∀ i ∈ before, ∃ x, Element i x) → NoElement j kind →
      Refused (.array (before ++ j :: after)) kind

end Json

namespace Toml

/-- The scalar that a value stands for; a moment stands for its text. -/
inductive Element : Toml → Scalar → Prop
  | bool (b : Bool) : Element (.bool b) (.bool b)
  | int (k : Int64) : Element (.int k) (.int k)
  | float (x : Binary64) : Element (.float x) (.float x)
  | text (s : String) : Element (.text s) (.text s)
  | moment (m : Moment) : Element (.moment m) (.text m.render)

/-- A value that stands for no scalar, by its kind. -/
inductive NoElement : Toml → UnboundKind → Prop
  | array (items : List Toml) : NoElement (.array items) .nestedArray
  | table (entries : List (String × Toml)) : NoElement (.table entries) .table

/-- The option that a value means. -/
inductive Means : Toml → OptionValue → Prop
  | scalar {t : Toml} {s : Scalar} : Element t s → Means t (.scalar s)
  | list {items : List Toml} {elements : List Scalar} :
      List.Forall₂ Element items elements → Means (.array items) (.list (elements.map some))

/-- A value that means no option, with the kind of the first part of it that cannot be bound. -/
inductive Refused : Toml → UnboundKind → Prop
  | table (entries : List (String × Toml)) : Refused (.table entries) .table
  | element {before after : List Toml} {t : Toml} {kind : UnboundKind} :
      (∀ i ∈ before, ∃ x, Element i x) → NoElement t kind →
      Refused (.array (before ++ t :: after)) kind

end Toml

/-! ## One element after the other -/

section Traverse

variable {ε α β : Type} {f : α → Except ε β} {as : List α}

theorem map_eq_error {x : Except ε α} {f : α → β} {e : ε} : x.map f = .error e ↔ x = .error e := by
  cases x <;> simp [Except.map]

theorem traverseExcept_eq_mapM (f : α → Except ε β) (as : List α) :
    traverseExcept f as = as.mapM f := by
  induction as with
  | nil => rfl
  | cons a as ih =>
    rw [traverseExcept, List.mapM_cons, ih]
    cases f a with
    | error e => rfl
    | ok b => cases as.mapM f <;> rfl

theorem traverseExcept_eq_ok {bs : List β} :
    traverseExcept f as = .ok bs ↔ List.Forall₂ (fun a b => f a = .ok b) as bs := by
  rw [traverseExcept_eq_mapM, Success.mapM_eq_ok]

/-- A traversal fails with the error of the first element that fails. -/
theorem traverseExcept_eq_error {e : ε} :
    traverseExcept f as = .error e ↔
      ∃ before a after, as = before ++ a :: after ∧ (∀ x ∈ before, ∃ b, f x = .ok b) ∧
        f a = .error e := by
  induction as with
  | nil => simp [traverseExcept]
  | cons a as ih =>
    constructor
    · intro h
      -- the first failure is this element or the first one of the others
      rw [traverseExcept] at h
      cases ha : f a with
      | error e' =>
        rw [ha] at h
        cases h
        exact ⟨[], a, as, rfl, by simp, ha⟩
      | ok b =>
        have hrest : traverseExcept f as = .error e := by
          rw [ha] at h
          cases hrest : traverseExcept f as with
          | error e' => rw [hrest] at h; exact h
          | ok bs => rw [hrest] at h; cases h
        obtain ⟨before, x, after, rfl, hbefore, hx⟩ := ih.mp hrest
        exact ⟨a :: before, x, after, rfl, List.forall_mem_cons.mpr ⟨⟨b, ha⟩, hbefore⟩, hx⟩
    · rintro ⟨before, x, after, hsplit, hbefore, hx⟩
      rw [traverseExcept]
      cases before with
      | nil =>
        obtain ⟨rfl, rfl⟩ := List.cons.inj hsplit
        rw [hx]
      | cons y before =>
        obtain ⟨rfl, rfl⟩ := List.cons.inj hsplit
        obtain ⟨⟨b, hb⟩, hbefore⟩ := List.forall_mem_cons.mp hbefore
        rw [hb, ih.mpr ⟨before, x, after, rfl, hbefore, hx⟩]

end Traverse

/-! ## The meaning of one value -/

namespace Json

variable {j : Json} {kind : UnboundKind}

/-- The test for 64 bits with sign. -/
theorem fits_iff {n : Int} :
    (decide (-(twoTo 63 : Int) ≤ n) && decide (n < twoTo 63)) = true ↔
      Int64.minValue.toInt ≤ n ∧ n ≤ Int64.maxValue.toInt := by
  have hmin : Int64.minValue.toInt = -(twoTo 63 : Int) := rfl
  have hmax : Int64.maxValue.toInt = (twoTo 63 : Int) - 1 := rfl
  rw [Bool.and_eq_true, decide_eq_true_eq, decide_eq_true_eq, hmin, hmax, Int.le_sub_one_iff]

/-- A number with room in 64 bits with sign is that integer. -/
theorem int64?_eq_some {k : Int64} : j.int64? = some k ↔ j = .int k.toInt := by
  constructor
  · intro h
    cases j with
    | int n =>
      rw [int64?, Option.ite_none_right_eq_some, fits_iff] at h
      obtain ⟨⟨hlow, hhigh⟩, h⟩ := h
      cases h
      rw [Int64.toInt_ofInt_of_le hlow (Int.lt_of_le_sub_one hhigh)]
    | _ => cases h
  · rintro rfl
    rw [int64?, if_pos (fits_iff.mpr ⟨k.le_toInt, Int.le_sub_one_of_lt k.toInt_lt⟩),
      Int64.ofInt_toInt]

theorem int64?_eq_none {n : Int} :
    (Json.int n).int64? = none ↔ n < Int64.minValue.toInt ∨ Int64.maxValue.toInt < n := by
  rw [int64?, ite_eq_right_iff, fits_iff]
  simp only [reduceCtorEq, imp_false, not_and_or, not_le]

/-- A number has a scalar in any case: one that is no integer of 64 bits is a binary number. -/
theorem toScalar_int (n : Int) :
    (Json.int n).toScalar =
      .ok (((Json.int n).int64?.map .int).getD (.float (Binary64.ofInt n))) := by
  simp only [toScalar]
  cases (Json.int n).int64? <;> rfl

theorem toScalar_eq_ok {s : Scalar} : j.toScalar = .ok s ↔ Element j (some s) := by
  constructor
  · intro h
    cases j with
    | int n =>
      rw [toScalar_int] at h
      -- a number without a point that is too large for an integer becomes a float
      cases hint : (Json.int n).int64? with
      | some k =>
        rw [hint] at h
        cases h
        rw [int64?_eq_some.mp hint]
        exact .int k
      | none =>
        rw [hint] at h
        cases h
        exact .large (int64?_eq_none.mp hint)
    | bool b =>
      cases h
      exact .bool b
    | float x =>
      cases h
      exact .float x
    | text s =>
      cases h
      exact .text s
    | null => cases h
    | array items => cases h
    | object members => cases h
  · intro h
    cases h with
    | int k => rw [toScalar_int, int64?_eq_some.mpr rfl, Option.map_some, Option.getD_some]
    | large hlarge => rw [toScalar_int, int64?_eq_none.mpr hlarge, Option.map_none, Option.getD_none]
    | _ => rfl

/-- Only what is no element has no scalar, and null. -/
theorem toScalar_eq_error :
    j.toScalar = .error kind ↔ NoElement j kind ∨ j = .null ∧ kind = .null := by
  constructor
  · intro h
    cases j with
    | null =>
      cases h
      exact .inr ⟨rfl, rfl⟩
    | array items =>
      cases h
      exact .inl (.array items)
    | object members =>
      cases h
      exact .inl (.object members)
    | int n =>
      rw [toScalar_int] at h
      cases h
    | _ => cases h
  · rintro ((items | members) | ⟨rfl, rfl⟩) <;> rfl

theorem toElement_of_ne_null (h : j ≠ .null) : j.toElement = j.toScalar.map some := by
  cases j with
  | null => exact absurd rfl h
  | _ => rfl

theorem toElement_eq_ok {x : Option Scalar} : j.toElement = .ok x ↔ Element j x := by
  by_cases hnull : j = .null
  · subst hnull
    constructor
    · rintro ⟨⟩
      exact .null
    · rintro ⟨⟩
      rfl
  · rw [toElement_of_ne_null hnull, Success.map_eq_ok]
    simp only [toScalar_eq_ok]
    constructor
    · rintro ⟨s, hs, rfl⟩
      exact hs
    · intro h
      cases x with
      | none =>
        cases h
        exact absurd rfl hnull
      | some s => exact ⟨s, h, rfl⟩

/-- The null of an array is an element, so that `toScalar` never gets to see it. -/
theorem toElement_eq_error : j.toElement = .error kind ↔ NoElement j kind := by
  by_cases hnull : j = .null
  · subst hnull
    constructor <;> rintro ⟨⟩
  · rw [toElement_of_ne_null hnull, map_eq_error, toScalar_eq_error]
    exact or_iff_left fun h => hnull h.1

/-- What a refused value is called. -/
theorem Refused.render (h : Refused j kind) :
    kind.render = "object" ∨ kind.render = "nested array" := by
  rcases h with members | ⟨-, items | members⟩
  · exact .inl rfl
  · exact .inr rfl
  · exact .inl rfl

/-- What is neither null nor an array means its scalar. -/
theorem toOption_of_ne (hnull : j ≠ .null) (harray : ∀ items, j ≠ .array items) :
    j.toOption = j.toScalar.map .scalar := by
  cases j with
  | null => exact absurd rfl hnull
  | array items => exact absurd rfl (harray items)
  | _ => rfl

theorem toOption_eq_ok {option : OptionValue} : j.toOption = .ok option ↔ Means j option := by
  by_cases hnull : j = .null
  · subst hnull
    constructor
    · rintro ⟨⟩
      exact .null
    · rintro (_ | ⟨⟨⟩⟩ | _)
      rfl
  -- a list goes element by element; anything else goes as a single element would
  by_cases harray : ∃ items, j = .array items
  · obtain ⟨items, rfl⟩ := harray
    rw [toOption, Success.map_eq_ok]
    constructor
    · rintro ⟨elements, h, rfl⟩
      exact .list ((traverseExcept_eq_ok.mp h).imp fun _ _ => toElement_eq_ok.mp)
    · intro h
      cases h with
      | scalar h => cases h
      | list h =>
        exact ⟨_, traverseExcept_eq_ok.mpr (h.imp fun _ _ => toElement_eq_ok.mpr), rfl⟩
  · rw [toOption_of_ne hnull (not_exists.mp harray), Success.map_eq_ok]
    simp only [toScalar_eq_ok]
    constructor
    · rintro ⟨s, h, rfl⟩
      exact .scalar h
    · intro h
      cases h with
      | null => exact absurd rfl hnull
      | scalar h => exact ⟨_, h, rfl⟩
      | list h => exact absurd ⟨_, rfl⟩ harray

theorem toOption_eq_error : j.toOption = .error kind ↔ Refused j kind := by
  by_cases hnull : j = .null
  · subst hnull
    constructor <;> rintro ⟨⟩
  by_cases harray : ∃ items, j = .array items
  · obtain ⟨items, rfl⟩ := harray
    rw [toOption, map_eq_error, traverseExcept_eq_error]
    simp only [toElement_eq_ok, toElement_eq_error]
    constructor
    · rintro ⟨before, j, after, rfl, hbefore, hj⟩
      exact .element hbefore hj
    · intro h
      cases h with
      | element hbefore hj => exact ⟨_, _, _, rfl, hbefore, hj⟩
  · rw [toOption_of_ne hnull (not_exists.mp harray), map_eq_error, toScalar_eq_error]
    constructor
    · rintro ((items | members) | ⟨rfl, -⟩)
      · exact absurd ⟨_, rfl⟩ harray
      · exact .object members
      · exact absurd rfl hnull
    · intro h
      cases h with
      | object members => exact .inl (.object members)
      | element => exact absurd ⟨_, rfl⟩ harray

end Json

namespace Toml

variable {t : Toml} {kind : UnboundKind}

/-- What a refused value is called. -/
theorem Refused.render (h : Refused t kind) :
    kind.render = "table" ∨ kind.render = "nested array" := by
  rcases h with entries | ⟨-, items | entries⟩
  · exact .inl rfl
  · exact .inr rfl
  · exact .inl rfl

theorem toScalar_eq_ok {s : Scalar} : t.toScalar = .ok s ↔ Element t s := by
  constructor
  · intro h
    cases t with
    | array items => cases h
    | table entries => cases h
    | _ =>
      cases h
      constructor
  · rintro ⟨⟩ <;> rfl

theorem toScalar_eq_error : t.toScalar = .error kind ↔ NoElement t kind := by
  constructor
  · intro h
    cases t with
    | array items =>
      cases h
      exact .array items
    | table entries =>
      cases h
      exact .table entries
    | _ => cases h
  · rintro ⟨⟩ <;> rfl

/-- What is no array means the scalar that it stands for. -/
theorem toOption_of_not_array (h : ∀ items, t ≠ .array items) :
    t.toOption = t.toScalar.map .scalar := by
  cases t with
  | array items => exact absurd rfl (h items)
  | _ => rfl

theorem toOption_eq_ok {option : OptionValue} : t.toOption = .ok option ↔ Means t option := by
  by_cases harray : ∃ items, t = .array items
  · obtain ⟨items, rfl⟩ := harray
    rw [toOption, Success.map_eq_ok]
    constructor
    · rintro ⟨elements, h, rfl⟩
      exact .list ((traverseExcept_eq_ok.mp h).imp fun _ _ => toScalar_eq_ok.mp)
    · intro h
      cases h with
      | scalar h => cases h
      | list h =>
        exact ⟨_, traverseExcept_eq_ok.mpr (h.imp fun _ _ => toScalar_eq_ok.mpr), rfl⟩
  · rw [toOption_of_not_array (not_exists.mp harray), Success.map_eq_ok]
    simp only [toScalar_eq_ok]
    constructor
    · rintro ⟨s, h, rfl⟩
      exact .scalar h
    · intro h
      cases h with
      | scalar h => exact ⟨_, h, rfl⟩
      | list h => exact absurd ⟨_, rfl⟩ harray

theorem toOption_eq_error : t.toOption = .error kind ↔ Refused t kind := by
  by_cases harray : ∃ items, t = .array items
  · obtain ⟨items, rfl⟩ := harray
    rw [toOption, map_eq_error, traverseExcept_eq_error]
    simp only [toScalar_eq_ok, toScalar_eq_error]
    constructor
    · rintro ⟨before, t, after, rfl, hbefore, ht⟩
      exact .element hbefore ht
    · intro h
      cases h with
      | element hbefore ht => exact ⟨_, _, _, rfl, hbefore, ht⟩
  · rw [toOption_of_not_array (not_exists.mp harray), map_eq_error, toScalar_eq_error]
    constructor
    · intro h
      cases h with
      | array items => exact absurd ⟨_, rfl⟩ harray
      | table entries => exact .table entries
    · intro h
      cases h with
      | table entries => exact .table entries
      | element => exact absurd ⟨_, rfl⟩ harray

end Toml

/-! ## Whole documents -/

namespace Options

section Convert

variable {α : Type} {toOption : α → Except UnboundKind OptionValue} {entries : List (String × α)}

/-- The conversion of one entry. -/
def convertEntry (toOption : α → Except UnboundKind OptionValue) (a : String × α) :
    Except InvalidOption (String × OptionValue) :=
  match toOption a.2 with
  | .ok option => .ok (a.1, option)
  | .error kind => .error ⟨a.1, kind⟩

theorem convert_eq (toOption : α → Except UnboundKind OptionValue) (entries : List (String × α)) :
    convert toOption entries = (traverseExcept (convertEntry toOption) entries).map ofList :=
  rfl

theorem convertEntry_eq_ok {a : String × α} {b : String × OptionValue} :
    convertEntry toOption a = .ok b ↔ b.1 = a.1 ∧ toOption a.2 = .ok b.2 := by
  rw [convertEntry]
  cases toOption a.2 <;> simp [Prod.ext_iff, eq_comm]

theorem convertEntry_eq_error {a : String × α} {e : InvalidOption} :
    convertEntry toOption a = .error e ↔ e.field = a.1 ∧ toOption a.2 = .error e.kind := by
  obtain ⟨field, kind⟩ := e
  rw [convertEntry]
  cases toOption a.2 <;> simp [eq_comm]

/-- Entries with the names of ordered ones are ordered. -/
theorem Ordered.of_forall₂ {β : Type} {list : List (String × β)} (h : Ordered entries)
    (hlist : List.Forall₂ (fun a b => b.1 = a.1) entries list) : Ordered list := by
  have hnames : list.map Prod.fst = entries.map Prod.fst := by
    rw [← List.forall₂_eq_eq_eq, List.forall₂_map_left_iff, List.forall₂_map_right_iff]
    exact hlist.flip
  rwa [ordered_iff_names, hnames, ← ordered_iff_names]

/-- What becomes of entries is told entry by entry: each keeps its name and has its own option. -/
theorem convert_eq_ok (h : Ordered entries) {o : Options} :
    convert toOption entries = .ok o ↔
      List.Forall₂ (fun a b => b.1 = a.1 ∧ toOption a.2 = .ok b.2) entries o.entries := by
  rw [convert_eq, Success.map_eq_ok]
  simp only [traverseExcept_eq_ok, convertEntry_eq_ok]
  constructor
  · rintro ⟨list, hlist, rfl⟩
    rwa [entries_ofList (h.of_forall₂ (hlist.imp fun _ _ => And.left))]
  · intro hlist
    have hordered := h.of_forall₂ (hlist.imp fun _ _ => And.left)
    exact ⟨o.entries, hlist, Options.ext (entries_ofList hordered)⟩

/-- The error of a conversion is that of the first entry without an option. -/
theorem convert_eq_error {e : InvalidOption} :
    convert toOption entries = .error e ↔
      ∃ before value after, entries = before ++ (e.field, value) :: after ∧
        (∀ a ∈ before, ∃ option, toOption a.2 = .ok option) ∧ toOption value = .error e.kind := by
  rw [convert_eq, map_eq_error, traverseExcept_eq_error]
  simp only [convertEntry_eq_ok, convertEntry_eq_error]
  constructor
  · rintro ⟨before, ⟨field, value⟩, after, rfl, hbefore, hfield, hkind⟩
    subst hfield
    exact ⟨before, value, after, rfl, fun a ha => (hbefore a ha).elim fun b hb => ⟨b.2, hb.2⟩, hkind⟩
  · rintro ⟨before, value, after, rfl, hbefore, hkind⟩
    refine ⟨before, _, after, rfl, fun a ha => ?_, rfl, hkind⟩
    obtain ⟨option, hok⟩ := hbefore a ha
    exact ⟨(a.1, option), rfl, hok⟩

/-- In ordered entries the first one without an option is the one with the least name. -/
theorem convert_eq_error_of_ordered (h : Ordered entries) {e : InvalidOption} :
    convert toOption entries = .error e ↔
      ∃ value, (e.field, value) ∈ entries ∧ toOption value = .error e.kind ∧
        ∀ a ∈ entries, (¬ ∃ option, toOption a.2 = .ok option) →
          Text.bytes e.field ≤ Text.bytes a.1 := by
  rw [convert_eq_error]
  constructor
  · rintro ⟨before, value, after, rfl, hbefore, hkind⟩
    refine ⟨value, List.mem_append_right _ (List.mem_cons_self ..), hkind, fun a ha hnone => ?_⟩
    rcases List.mem_append.mp ha with ha | ha
    · exact absurd (hbefore a ha) hnone
    · rcases List.mem_cons.mp ha with rfl | ha
      · exact List.le_refl _
      · have hafter := (List.pairwise_append.mp (ordered_iff_bytes.mp h)).2.1
        exact List.le_of_lt ((List.pairwise_cons.mp hafter).1 a ha)
  · rintro ⟨value, hmem, hkind, hleast⟩
    obtain ⟨before, after, rfl⟩ := List.append_of_mem hmem
    refine ⟨before, value, after, rfl, fun a ha => ?_, hkind⟩
    by_contra hnone
    have hlt := (List.pairwise_append.mp (ordered_iff_bytes.mp h)).2.2 a ha _ (List.mem_cons_self ..)
    exact hleast a (List.mem_append_left _ ha) hnone hlt

end Convert

end Options

namespace Options

/-- Whether a result of loading entries is all of them or the first fault, for what their values
mean and what makes them mean nothing. -/
structure Loads {α : Type} (Means : α → OptionValue → Prop) (Refused : α → UnboundKind → Prop)
    (entries : List (String × α)) (result : Except InvalidOption Options) : Prop where
  /-- There are options exactly if every value means one. -/
  succeeds_iff : (∃ o, result = .ok o) ↔ ∀ a ∈ entries, ∃ option, Means a.2 option
  /-- They have the keys of the entries, in their order, with what their values mean. -/
  ok_iff : ∀ o, result = .ok o ↔
    List.Forall₂ (fun a b => b.1 = a.1 ∧ Means a.2 b.2) entries o.entries
  /-- An error has the least key whose value means nothing, and the kind of what is wrong there. -/
  error_iff : ∀ e, result = .error e ↔
    ∃ value, (e.field, value) ∈ entries ∧ Refused value e.kind ∧
      ∀ a ∈ entries, (¬ ∃ option, Means a.2 option) → Text.bytes e.field ≤ Text.bytes a.1

/-- A conversion loads ordered entries if it tells the meaning of single values. -/
theorem loads_convert {α : Type} {Means : α → OptionValue → Prop}
    {Refused : α → UnboundKind → Prop} {toOption : α → Except UnboundKind OptionValue}
    {entries : List (String × α)} (hmeans : ∀ a option, toOption a = .ok option ↔ Means a option)
    (hrefused : ∀ a kind, toOption a = .error kind ↔ Refused a kind) (h : Ordered entries) :
    Loads Means Refused entries (convert toOption entries) where
  succeeds_iff := by
    simp only [convert_eq_ok h, hmeans]
    constructor
    · rintro ⟨o, hentries⟩ a ha
      obtain ⟨i, hi, rfl⟩ := List.mem_iff_getElem.mp ha
      exact ⟨_, (hentries.get hi (hentries.length_eq ▸ hi)).2⟩
    · intro hall
      obtain ⟨list, hlist⟩ : ∃ list : List (String × OptionValue),
          List.Forall₂ (fun a b => b.1 = a.1 ∧ Means a.2 b.2) entries list := by
        clear h
        induction entries with
        | nil => exact ⟨[], .nil⟩
        | cons a entries ih =>
          obtain ⟨⟨option, ha⟩, hrest⟩ := List.forall_mem_cons.mp hall
          obtain ⟨list, hlist⟩ := ih hrest
          exact ⟨(a.1, option) :: list, .cons ⟨rfl, ha⟩ hlist⟩
      exact ⟨⟨list, h.of_forall₂ (hlist.imp fun _ _ => And.left)⟩, hlist⟩
  ok_iff := by
    intro o
    simp only [convert_eq_ok h, hmeans]
  error_iff := by
    intro e
    simp only [convert_eq_error_of_ordered h, hmeans, hrefused]

/-- **Loading.** An object of JSON, and a table of TOML, is loaded as a whole or not at all: there
are options exactly if every value is a scalar, a null of JSON, or an array of such elements, and
they are those values under the same keys. Otherwise the error names the least key, byte by byte,
whose value is none of these, and the kind of the first part of that value that cannot be bound; it
is never called anything but an object or a table, or a nested array, and so no number and no null
is ever reported. -/
theorem loads_documents :
    (∀ members, Ordered members →
      Loads Json.Means Json.Refused members (ofJsonMembers members)) ∧
    (∀ entries, Ordered entries →
      Loads Toml.Means Toml.Refused entries (ofTomlEntries entries)) ∧
    (∀ members e, ofJsonMembers members = .error e →
      e.kind.render = "object" ∨ e.kind.render = "nested array") ∧
    ∀ entries e, ofTomlEntries entries = .error e →
      e.kind.render = "table" ∨ e.kind.render = "nested array" := by
  refine ⟨fun members h => ?_, fun entries h => ?_, fun members e h => ?_, fun entries e h => ?_⟩
  · exact loads_convert (fun _ _ => Json.toOption_eq_ok) (fun _ _ => Json.toOption_eq_error) h
  · exact loads_convert (fun _ _ => Toml.toOption_eq_ok) (fun _ _ => Toml.toOption_eq_error) h
  · obtain ⟨-, value, -, -, -, herror⟩ := convert_eq_error.mp h
    exact (Json.toOption_eq_error.mp herror).render
  · obtain ⟨-, value, -, -, -, herror⟩ := convert_eq_error.mp h
    exact (Toml.toOption_eq_error.mp herror).render

/-- The case of an object with two keys that are refused, the first of them for the second element
of its array, and of a table in which a moment stands for its text. -/
theorem loads_documents_refused :
    let members : List (String × Json) :=
      [("a", .array [.int 1, .null]), ("z", .array [.text "x", .array [], .object []]),
        ("é", .object [])]
    let entries : List (String × Toml) :=
      [("a", .moment ⟨none, some ⟨7, 30, 0, 0⟩, none⟩), ("b", .array [.float .nan])]
    Ordered members ∧ ofJsonMembers members = .error ⟨"z", .nestedArray⟩ ∧
      (UnboundKind.nestedArray.render = "object" ∨
        UnboundKind.nestedArray.render = "nested array") ∧
      (∃ value, ("z", value) ∈ members ∧ Json.Refused value .nestedArray ∧
        ∀ a ∈ members, (¬ ∃ option, Json.Means a.2 option) → Text.bytes "z" ≤ Text.bytes a.1) ∧
      Ordered entries ∧
      List.Forall₂ (fun a b => b.1 = a.1 ∧ Toml.Means a.2 b.2) entries
        [("a", .scalar (.text "07:30:00")), ("b", .list [some (.float .nan)])] ∧
      ofTomlEntries [("a", .table [])] = .error ⟨"a", .table⟩ ∧
      (UnboundKind.table.render = "table" ∨ UnboundKind.table.render = "nested array") := by
  intro members entries
  have hmembers : Ordered members := by decide
  have hentries : Ordered entries := by decide
  have herror : ofJsonMembers members = .error ⟨"z", .nestedArray⟩ := rfl
  have hloaded : ofTomlEntries entries = .ok
      ⟨[("a", .scalar (.text "07:30:00")), ("b", .list [some (.float .nan)])], by decide⟩ := by cbv
  have htable : ofTomlEntries [("a", .table [])] = .error ⟨"a", .table⟩ := rfl
  obtain ⟨hjson, htoml, hobject, hnested⟩ := loads_documents
  exact ⟨hmembers, herror, hobject _ _ herror, ((hjson _ hmembers).error_iff _).mp herror, hentries,
    ((htoml _ hentries).ok_iff _).mp hloaded, htable, hnested _ _ htable⟩

end Options

end BoundQuery
