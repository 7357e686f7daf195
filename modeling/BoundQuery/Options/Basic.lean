import BoundQuery.Options.Scalar

/-!
# Options

The value of a placeholder is an *option*: nothing but null, a scalar, or a list of scalars in which
single elements may be null. `Options` maps placeholder names to options. Its entries are kept in
the order of their names, each name once, so that equal maps have equal entries. A map is only made
by insertions, which keep the order (`Options.ordered_insertEntry`).

A `Bound` is a name with one scalar that was bound for it; a list option binds one for each element
that is not null.
-/

namespace BoundQuery

/-- The value that a placeholder stands for. -/
inductive OptionValue
  | null
  | scalar (value : Scalar)
  | list (items : List (Option Scalar))
deriving DecidableEq

/-- One scalar that was bound for a placeholder. -/
structure Bound where
  name : String
  value : Scalar
deriving DecidableEq

namespace Options

/-- Whether entries are in the order of their names, each name once. -/
def Ordered {α : Type} (entries : List (String × α)) : Prop :=
  entries.Pairwise fun a b => a.1 < b.1

end Options

/-- A map from placeholder names to their values. -/
@[ext] structure Options where
  entries : List (String × OptionValue)
  ordered : Options.Ordered entries

namespace OptionValue

/-- The scalars of an option in order; null and null elements have none. -/
def scalars : OptionValue → List Scalar
  | .null => []
  | .scalar value => [value]
  | .list items => items.filterMap id

/-- A list option without null elements. -/
def ofScalars (values : List Scalar) : OptionValue :=
  .list (values.map some)

end OptionValue

namespace Options

variable {α : Type} {name : String} {value : α} {entries : List (String × α)}

instance : Decidable (Ordered entries) :=
  inferInstanceAs (Decidable (entries.Pairwise _))

theorem ordered_cons {a : String × α} :
    Ordered (a :: entries) ↔ (∀ b ∈ entries, a.1 < b.1) ∧ Ordered entries :=
  List.pairwise_cons

def empty : Options :=
  ⟨[], .nil⟩

/-- The value of a name, if it has one. -/
def find? (o : Options) (name : String) : Option OptionValue :=
  o.entries.lookup name

/-! ## Insertion -/

/-- Puts an entry into a list in the order of the names; a name that is there gets the new value. -/
def insertEntry (name : String) (value : α) : List (String × α) → List (String × α)
  | [] => [(name, value)]
  | (other, old) :: rest =>
    if name = other then (name, value) :: rest
    else if name < other then (name, value) :: (other, old) :: rest
    else (other, old) :: insertEntry name value rest

theorem mem_insertEntry {a : String × α} (h : a ∈ insertEntry name value entries) :
    a = (name, value) ∨ a ∈ entries := by
  induction entries with
  | nil => exact .inl (List.mem_singleton.mp h)
  | cons b entries ih =>
    rw [insertEntry] at h
    split at h
    · exact (List.mem_cons.mp h).imp id (List.mem_cons_of_mem _)
    · split at h
      · exact List.mem_cons.mp h
      · rcases List.mem_cons.mp h with rfl | h
        · exact .inr (List.mem_cons_self ..)
        · exact (ih h).imp id (List.mem_cons_of_mem _)

/-- An insertion keeps the order. -/
theorem ordered_insertEntry (h : Ordered entries) : Ordered (insertEntry name value entries) := by
  induction entries with
  | nil => exact List.pairwise_singleton ..
  | cons b entries ih =>
    obtain ⟨hfirst, hrest⟩ := ordered_cons.mp h
    rw [insertEntry]
    split
    · next heq => exact ordered_cons.mpr ⟨fun c hc => heq ▸ hfirst c hc, hrest⟩
    · next hne =>
      split
      · next hlt =>
        refine ordered_cons.mpr ⟨List.forall_mem_cons.mpr ⟨hlt, fun c hc => ?_⟩, h⟩
        exact String.lt_trans hlt (hfirst c hc)
      · next hle =>
        refine ordered_cons.mpr ⟨fun c hc => ?_, ih hrest⟩
        rcases mem_insertEntry hc with rfl | hc
        · exact Std.lt_of_le_of_ne (String.not_lt.mp hle) (Ne.symm hne)
        · exact hfirst c hc

/-- Gives a name a value; an earlier value of it is replaced. -/
def insert (o : Options) (name : String) (value : OptionValue) : Options :=
  ⟨insertEntry name value o.entries, ordered_insertEntry o.ordered⟩

/-- The options of a list of entries; of two entries with one name the later counts. -/
def ofList (entries : List (String × OptionValue)) : Options :=
  entries.foldl (fun o (name, value) => o.insert name value) empty

/-- The options of both maps; where both have a name, the second counts. -/
def override (o later : Options) : Options :=
  later.entries.foldl (fun o (name, value) => o.insert name value) o

end Options

end BoundQuery
