import BoundQuery.Options.Basic
import BoundQuery.Proofs.ByteOrder

/-!
# Maps of options

The entries of a map are in the order of their names, which is the order of the bytes of the names
(`Options.ordered_iff_bytes`). A list that is in order is the list of entries of its own map
(`Options.entries_ofList`).

What a name has in a map is told by lookups alone: the value that was put in last
(`Options.find?_insert`), and where one map is laid over another, the value of the upper one if it
has the name (`Options.find?_override`).
-/

namespace BoundQuery

namespace Options

variable {α : Type} {name key : String} {value : α} {entries : List (String × α)}

/-! ## Order -/

theorem ordered_iff_names :
    Ordered entries ↔ (entries.map Prod.fst).Pairwise (· < ·) := by
  rw [List.pairwise_map]
  rfl

/-- The order of names is that of their bytes. -/
theorem ordered_iff_bytes :
    Ordered entries ↔ entries.Pairwise fun a b => Text.bytes a.1 < Text.bytes b.1 := by
  simp only [Text.bytes_lt_iff]
  rfl

/-! ## Insertion -/

/-- An entry whose name is greater than all others is put at the end. -/
theorem insertEntry_of_lt (h : ∀ b ∈ entries, b.1 < name) :
    insertEntry name value entries = entries ++ [(name, value)] := by
  induction entries with
  | nil => rfl
  | cons b entries ih =>
    obtain ⟨hb, hrest⟩ := List.forall_mem_cons.mp h
    rw [insertEntry, if_neg hb.ne', if_neg hb.asymm, ih hrest, List.cons_append]

theorem lookup_cons_eq_ite (a : String × α) (entries : List (String × α)) :
    (a :: entries).lookup key = if key = a.1 then some a.2 else entries.lookup key := by
  rw [List.lookup_cons]
  split_ifs with h
  · rw [beq_iff_eq.mpr h]
  · rw [beq_eq_false_iff_ne.mpr h]

theorem lookup_insertEntry :
    (insertEntry name value entries).lookup key =
      if key = name then some value else entries.lookup key := by
  induction entries with
  | nil => exact lookup_cons_eq_ite (name, value) []
  | cons b entries ih =>
    rw [insertEntry]
    -- the entry goes in the place of `b`, before it, or further down
    by_cases heq : name = b.1
    · rw [if_pos heq, lookup_cons_eq_ite, lookup_cons_eq_ite, ← heq]
      split_ifs <;> rfl
    · rw [if_neg heq]
      by_cases hlt : name < b.1
      · rw [if_pos hlt, lookup_cons_eq_ite]
      · rw [if_neg hlt, lookup_cons_eq_ite, lookup_cons_eq_ite, ih]
        split_ifs with hb hname
        · exact absurd (hname.symm.trans hb) heq
        · rfl
        · rfl
        · rfl

/-- Insertions one after the other. -/
theorem entries_foldl_insert {list : List (String × OptionValue)} {o : Options} :
    (list.foldl (fun o a => o.insert a.1 a.2) o).entries =
      list.foldl (fun entries a => insertEntry a.1 a.2 entries) o.entries := by
  induction list generalizing o with
  | nil => rfl
  | cons a list ih => exact ih

/-- A list that is in order, each name behind those before, is only appended. -/
theorem foldl_insertEntry_of_ordered {list : List (String × α)} (h : Ordered (entries ++ list)) :
    list.foldl (fun entries a => insertEntry a.1 a.2 entries) entries = entries ++ list := by
  induction list generalizing entries with
  | nil => rw [List.append_nil, List.foldl_nil]
  | cons a list ih =>
    have hlt : ∀ b ∈ entries, b.1 < a.1 := fun b hb =>
      (List.pairwise_append.mp h).2.2 b hb a (List.mem_cons_self ..)
    rw [List.foldl_cons, insertEntry_of_lt hlt, ih (by rwa [List.append_assoc]), List.append_assoc]
    rfl

/-! ## Whole maps -/

variable {o later : Options} {list : List (String × OptionValue)}

/-- Entries that are in order are those of their map. -/
theorem entries_ofList (h : Ordered list) : (ofList list).entries = list := by
  rw [ofList, entries_foldl_insert]
  exact foldl_insertEntry_of_ordered h

theorem find?_ofList (h : Ordered list) : (ofList list).find? key = list.lookup key := by
  rw [find?, entries_ofList h]

theorem find?_insert {value : OptionValue} :
    (o.insert name value).find? key = if key = name then some value else o.find? key :=
  lookup_insertEntry

/-- After insertions a name has the value of the last one of it, if there is one. -/
theorem find?_foldl_insert :
    (list.foldl (fun o a => o.insert a.1 a.2) o).find? key =
      (list.reverse.lookup key).or (o.find? key) := by
  induction list generalizing o with
  | nil => rfl
  | cons a list ih =>
    rw [List.foldl_cons, ih, find?_insert, List.reverse_cons, List.lookup_append,
      lookup_cons_eq_ite, Option.or_assoc]
    split_ifs <;> rfl

/-- A name that is there once is found from either end. -/
theorem lookup_reverse (h : Ordered entries) : entries.reverse.lookup key = entries.lookup key := by
  induction entries with
  | nil => rfl
  | cons a entries ih =>
    obtain ⟨hfirst, hrest⟩ := ordered_cons.mp h
    rw [List.reverse_cons, List.lookup_append, ih hrest, lookup_cons_eq_ite, lookup_cons_eq_ite]
    split_ifs with hkey
    · have hnone : entries.lookup key = none := by
        rw [hkey]
        exact List.lookup_eq_none_iff.mpr fun b hb => bne_iff_ne.mpr (hfirst b hb).ne
      rw [hnone, Option.none_or]
    · exact Option.or_none

/-- Where one map is laid over another, a name has its value in the upper one, if it is there. -/
theorem find?_override :
    (o.override later).find? key = (later.find? key).or (o.find? key) := by
  rw [override, find?_foldl_insert, lookup_reverse later.ordered]
  rfl

end Options

end BoundQuery
