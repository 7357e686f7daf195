import BoundQuery.Proofs.ArithmeticTokens
import BoundQuery.Proofs.NameToken

/-!
# The tokens of a selection

The text that is generated for a selection without a filter falls into the tokens one expects
(`Selection.tokens?_render`): keywords, names between backquotes, and commas and parentheses around
lists. Two kinds of names have no quotes: those of functions, whose text is written as it is, and
those of partitions; each has to be a word by itself. The numbers of a limit are digits.

A text spells its tokens (`Token.Spells`) if they come out before everything that a generated text
goes on with: a blank, a comma, a parenthesis or the end. Texts that end with a blank or a
parenthesis of their own do so before anything (`Token.Leads`). The text of a selection is put
together from such texts, and its tokens are put together in the same way.
-/

namespace BoundQuery

namespace Token

/-! ## Texts that spell tokens -/

/-- What can follow a part of a generated text: the end, a blank, a comma or a parenthesis. -/
def Stops (rest : List Char) : Prop :=
  ∀ c ∈ rest.head?, c = ' ' ∨ c = ',' ∨ c = '(' ∨ c = ')'

/-- Whether a text is some tokens, whatever follows it. -/
def Leads (text : String) (ts : List Token) : Prop :=
  ∀ rest, Lexes (text.toList ++ rest) ts rest

/-- Whether a text is some tokens before whatever can follow it. -/
def Spells (text : String) (ts : List Token) : Prop :=
  ∀ rest, Stops rest → Lexes (text.toList ++ rest) ts rest

variable {text text' : String} {ts ts' : List Token} {rest : List Char}

theorem stops_nil : Stops [] := by
  rintro _ ⟨⟩

theorem Stops.append {cs : List Char} (h : Stops cs) (hrest : Stops rest) : Stops (cs ++ rest) := by
  cases cs with
  | nil => exact hrest
  | cons c cs => exact h

theorem Stops.head?_ne_backquote (h : Stops rest) : rest.head? ≠ some '\x60' := by
  intro hquote
  rcases h _ hquote with hc | hc | hc | hc <;> cases hc

/-- A bare name ends before what can follow a part of a text. -/
theorem Stops.nameEnds (h : Stops rest) : NameEnds rest := by
  intro c hc
  rcases h c hc with rfl | rfl | rfl | rfl <;> decide

/-- So does a number. -/
theorem Stops.apart (h : Stops rest) : Apart rest := by
  intro c hc
  rcases h c hc with rfl | rfl | rfl | rfl <;> decide

/-- A text can follow if its first character can. -/
theorem stops_of_head? {c : Char} (h : text.toList.head? = some c)
    (hc : c = ' ' ∨ c = ',' ∨ c = '(' ∨ c = ')') : Stops text.toList := by
  intro d hd
  obtain rfl : c = d := Option.some.inj (h.symm.trans hd)
  exact hc

theorem stops_append_of_head? {c : Char} (h : text.toList.head? = some c)
    (hc : c = ' ' ∨ c = ',' ∨ c = '(' ∨ c = ')') : Stops (text ++ text').toList := by
  refine stops_of_head? (c := c) ?_ hc
  rw [String.toList_append, List.head?_append, h]
  rfl

theorem Leads.spells (h : Leads text ts) : Spells text ts :=
  fun rest _ => h rest

/-- After a text that ends by itself, the second one may start with anything. -/
theorem Leads.append_spells (h : Leads text ts) (h' : Spells text' ts') :
    Spells (text ++ text') (ts ++ ts') := by
  intro rest hrest
  rw [String.toList_append, List.append_assoc]
  exact .trans (h _) (h' rest hrest)

/-- Texts are put together where the second one starts with what can follow the first one. -/
theorem Spells.append (h : Spells text ts) (h' : Spells text' ts') (hstops : Stops text'.toList) :
    Spells (text ++ text') (ts ++ ts') := by
  intro rest hrest
  rw [String.toList_append, List.append_assoc]
  exact .trans (h _ (hstops.append hrest)) (h' rest hrest)

theorem spells_empty : Spells "" [] :=
  fun rest _ => .done rest

/-- At the end of a text its tokens are all there are. -/
theorem Spells.tokens? (h : Spells text ts) : tokens? text = some ts := by
  have hlexes := h [] stops_nil
  rw [List.append_nil] at hlexes
  exact tokens?_eq_some_iff.mpr hlexes

/-! ## Lists -/

/-- The tokens of members with commas between them. -/
def listed : List (List Token) → List Token
  | [] => []
  | [first] => first
  | first :: second :: rest => first ++ .mark "," :: listed (second :: rest)

/-- A list spells its members, whether a blank stands after each comma or not. -/
theorem spells_listed {α : Type} {separator : String} {text : α → String} {tokens : α → List Token}
    {members : List α} (hseparator : separator = "," ∨ separator = ", ")
    (h : ∀ a ∈ members, Spells (text a) (tokens a)) :
    Spells (separator.intercalate (members.map text)) (listed (members.map tokens)) := by
  have hcomma : Leads separator [.mark ","] := by
    intro rest
    rcases hseparator with rfl | rfl
    · exact .one rfl
    · exact .trans (.one rfl) (.gap rfl)
  have hstops : ∀ s : String, Stops (separator ++ s).toList := by
    intro s
    rcases hseparator with rfl | rfl <;> exact stops_append_of_head? rfl (.inr (.inl rfl))
  -- a comma can follow a member, and after the separator the rest of the list may start anyhow
  induction members with
  | nil => exact spells_empty
  | cons a members ih =>
    obtain ⟨ha, hmembers⟩ := List.forall_mem_cons.mp h
    cases members with
    | nil =>
      rw [List.map_singleton, String.intercalate_singleton]
      exact ha
    | cons b members =>
      rw [List.map_cons, List.map_cons, String.intercalate_cons_cons, ← List.map_cons,
        String.append_assoc]
      exact ha.append (hcomma.append_spells (ih hmembers)) (hstops _)

/-! ## Names and numbers -/

/-- The names are quoted, so that they may hold anything; a backquote after them would be read as
part of the last one. -/
theorem spells_path {names : List String} (hne : names ≠ []) :
    Spells (".".intercalate (names.map Sql.quoted)) (path names) :=
  fun _ hrest => lexes_path hne hrest.head?_ne_backquote

theorem spells_oneWord {w : String} (h : OneWord w) : Spells w [.word (.plain w)] :=
  fun _ hrest => lexes_oneWord h hrest.nameEnds

theorem spells_whole {digits : List Char} (h : Whole digits) :
    Spells (String.ofList digits) [.number (String.ofList digits) false] := by
  intro rest hrest
  have hlexes := lexes_number (.inl h) (.inl rfl) hrest.apart
  rw [List.append_nil] at hlexes
  rwa [String.toList_ofList]

/-- The tokens of a name as it stands. -/
def nameTokens (name : String) : List Token :=
  (tokens? name).getD []

/-- A name that is words with dots between them falls into these. -/
theorem nameTokens_intercalate {ws : List String} (h : WordPath ws) :
    nameTokens (".".intercalate ws) = plainPath ws := by
  have hends : NameEnds [] := nofun
  have hlexes := lexes_wordPath h hends
  rw [List.append_nil] at hlexes
  rw [nameTokens, tokens?_eq_some_iff.mpr hlexes]
  rfl

theorem spells_nameTokens {ws : List String} (h : WordPath ws) :
    Spells (".".intercalate ws) (nameTokens (".".intercalate ws)) := by
  intro rest hrest
  rw [nameTokens_intercalate h]
  exact lexes_wordPath h hrest.nameEnds

/-- The tokens of a name after `AS`, if there is one. -/
def labelled : Option String → List Token
  | some name => [.word (.plain "AS"), .word (.backquoted name)]
  | none => []

theorem stops_labelled (name : Option String) : Stops (Sql.labelled name).toList := by
  cases name with
  | none => exact stops_nil
  | some name => exact stops_append_of_head? rfl (.inl rfl)

theorem spells_labelled (name : Option String) : Spells (Sql.labelled name) (labelled name) := by
  cases name with
  | none => exact spells_empty
  | some name =>
    have hword : Leads " AS " [.word (.plain "AS")] :=
      fun _ => .trans (.gap rfl) (.trans (.one rfl) (.gap rfl))
    exact hword.append_spells fun _ hrest => lexes_quoted hrest.head?_ne_backquote

end Token

open Token

/-! ## Clauses -/

/-- The tokens of a column with its qualifiers. -/
def ColumnRef.tokens (c : ColumnRef) : List Token :=
  Token.path c.parts

/-- A column always has a name after its qualifiers. -/
theorem ColumnRef.spells (c : ColumnRef) : Spells (Sql.column c) c.tokens :=
  spells_path (by simp [ColumnRef.parts])

namespace Projection

/-- The tokens of the columns of a projection. -/
def operandTokens (p : Projection) : List Token :=
  (if p.distinct then [.word (.plain "DISTINCT")] else []) ++
    listed (p.operands.map ColumnRef.tokens)

/-- The tokens of a projection. -/
def tokens (p : Projection) : List Token :=
  match p.function with
  | some function =>
    nameTokens function ++ .mark "(" :: (p.operandTokens ++ .mark ")" :: labelled p.label)
  | none => p.operandTokens ++ labelled p.label

theorem spells_operands (p : Projection) : Spells (Sql.operands p) p.operandTokens := by
  have hcolumns : Spells (", ".intercalate (p.operands.map Sql.column))
      (listed (p.operands.map ColumnRef.tokens)) :=
    spells_listed (.inr rfl) fun c _ => c.spells
  have hword : Leads "DISTINCT " [.word (.plain "DISTINCT")] :=
    fun _ => .trans (.one rfl) (.gap rfl)
  unfold Sql.operands operandTokens
  cases p.distinct with
  | false => exact hcolumns
  | true => exact hword.append_spells hcolumns

/-- The name of a function is written without quotes, which is why it has to be words. -/
theorem spells_projection {p : Projection}
    (h : ∀ f ∈ p.function, ∃ ws, WordPath ws ∧ ".".intercalate ws = f) :
    Spells (Sql.projection p) p.tokens := by
  unfold Sql.projection tokens
  cases hf : p.function with
  | none => exact p.spells_operands.append (spells_labelled p.label) (stops_labelled p.label)
  | some f =>
    obtain ⟨ws, hws, rfl⟩ := h f hf
    have hopens : Leads "(" [.mark "("] := fun _ => .one (first?_mark (by decide) fun _ _ => rfl)
    have hcloses : Leads ")" [.mark ")"] := fun _ => .one (first?_mark (by decide) fun _ _ => rfl)
    -- from the end of the text, as each part must be able to follow the one before it
    have hends : Spells (")" ++ Sql.labelled p.label) ([.mark ")"] ++ labelled p.label) :=
      hcloses.append_spells (spells_labelled p.label)
    have hinside : Spells ("(" ++ (Sql.operands p ++ (")" ++ Sql.labelled p.label)))
        ([.mark "("] ++ (p.operandTokens ++ ([.mark ")"] ++ labelled p.label))) := by
      exact hopens.append_spells
        (p.spells_operands.append hends (stops_append_of_head? rfl (.inr (.inr (.inr rfl)))))
    have hall := (spells_nameTokens hws).append hinside
      (stops_append_of_head? rfl (.inr (.inr (.inl rfl))))
    simp only [String.append_assoc]
    exact hall

end Projection

/-- The tokens of a table with its schema and its name in the statement. -/
def Table.tokens (t : Table) : List Token :=
  Token.path (t.schema.toList ++ [t.name]) ++ labelled t.label

theorem Table.spells (t : Table) : Spells (Sql.table t) t.tokens := by
  have hname : Spells (".".intercalate ((t.schema.toList ++ [t.name]).map Sql.quoted))
      (Token.path (t.schema.toList ++ [t.name])) :=
    spells_path (List.append_ne_nil_of_right_ne_nil _ (List.cons_ne_nil _ _))
  exact hname.append (spells_labelled t.label) (stops_labelled t.label)

/-- The tokens of a key of an order. -/
def OrderKey.tokens (k : OrderKey) : List Token :=
  k.column.tokens ++
    match k.direction with
    | .asc => [.word (.plain "ASC")]
    | .desc => [.word (.plain "DESC")]

theorem OrderKey.spells (k : OrderKey) : Spells (Sql.orderKey k) k.tokens := by
  have hasc : Spells " ASC" [.word (.plain "ASC")] :=
    fun _ hrest => .trans (.gap rfl) (lexes_oneWord (w := "ASC") (by cbv) hrest.nameEnds)
  have hdesc : Spells " DESC" [.word (.plain "DESC")] :=
    fun _ hrest => .trans (.gap rfl) (lexes_oneWord (w := "DESC") (by cbv) hrest.nameEnds)
  unfold Sql.orderKey tokens
  cases k.direction with
  | asc => exact k.column.spells.append hasc (stops_of_head? rfl (.inl rfl))
  | desc => exact k.column.spells.append hdesc (stops_of_head? rfl (.inl rfl))

/-- Whether a value is a whole number without a sign. -/
def Value.IsWhole (v : Value) : Prop :=
  ∃ digits, Whole digits ∧ v = .literal (.ofNumber (String.ofList digits))

/-- The tokens of a whole number. -/
def Value.tokens : Value → List Token
  | .literal l => [.number (l.raw?.getD "") false]
  | _ => []

theorem Literal.raw?_ofNumber (raw : String) : (Literal.ofNumber raw).raw? = some raw := by
  unfold Literal.ofNumber
  dsimp only
  split_ifs <;> rfl

/-- A whole number is printed as the one token that it is. -/
theorem Value.IsWhole.spells {v : Value} (h : v.IsWhole) (shown : Bound → String) (o : Options) :
    Spells (Piece.join shown (Sql.value o v)) v.tokens := by
  obtain ⟨digits, hdigits, rfl⟩ := h
  have hliteral : Sql.literal (.ofNumber (String.ofList digits)) = String.ofList digits := by
    unfold Literal.ofNumber
    dsimp only
    split_ifs <;> rfl
  show Spells (Piece.join shown [.fixed (Sql.literal _)]) _
  rw [Piece.join_fixed, Piece.join_nil, String.append_empty, hliteral, Value.tokens,
    Literal.raw?_ofNumber]
  exact spells_whole hdigits

namespace Selection

/-- The tokens of the name of a partition. -/
def partitionTokens : Value → List Token
  | .literal (.identifier name) => [.word (.plain name)]
  | _ => []

/-- The tokens of the partitions, if there are any. -/
def partitionsTokens (names : List Value) : List Token :=
  if names.isEmpty then []
  else .word (.plain "PARTITION") :: .mark "(" ::
    (listed (names.map partitionTokens) ++ [.mark ")"])

/-- The tokens of the groups, if there are any. -/
def groupTokens (columns : List ColumnRef) : List Token :=
  if columns.isEmpty then []
  else .word (.plain "GROUP") :: .word (.plain "BY") :: listed (columns.map ColumnRef.tokens)

/-- The tokens of the order, if there is one. -/
def orderTokens (keys : List OrderKey) : List Token :=
  if keys.isEmpty then []
  else .word (.plain "ORDER") :: .word (.plain "BY") :: listed (keys.map OrderKey.tokens)

/-- The tokens of the limit, if there is one. -/
def limitTokens : Option Limit → List Token
  | some ⟨some offset, some count⟩ =>
    .word (.plain "LIMIT") :: (offset.tokens ++ .mark "," :: count.tokens)
  | some ⟨none, some count⟩ => .word (.plain "LIMIT") :: count.tokens
  | _ => []

/-- The tokens of a selection without a filter. -/
def tokens (s : Selection) : List Token :=
  .word (.plain "SELECT") :: (listed (s.columns.map Projection.tokens) ++
    .word (.plain "FROM") :: (s.table.tokens ++ (partitionsTokens s.partitions ++
      (groupTokens s.groupBy ++ (orderTokens s.orderBy ++ limitTokens s.limit)))))

/-- Whether the text of a selection falls into its tokens: it has no filter, the names of its
functions and partitions are words, and the numbers of its limit have no sign. -/
structure Spellable (s : Selection) : Prop where
  filter : s.filter = none
  functions : ∀ p ∈ s.columns, ∀ f ∈ p.function, ∃ ws, WordPath ws ∧ ".".intercalate ws = f
  partitions : ∀ v ∈ s.partitions, ∃ name, v = .literal (.identifier name) ∧ OneWord name
  limit : ∀ l ∈ s.limit, (∀ v ∈ l.offset, v.IsWhole) ∧ ∀ v ∈ l.count, v.IsWhole

section

variable (shown : Bound → String) (o : Options)

/-- A clause of a selection stands after a blank, if it is there at all. -/
structure SpellsClause (text : String) (ts : List Token) : Prop where
  spells : Spells text ts
  stops : Stops text.toList

theorem spellsClause_empty : SpellsClause "" [] :=
  ⟨spells_empty, stops_nil⟩

theorem SpellsClause.append {text text' : String} {ts ts' : List Token}
    (h : SpellsClause text ts) (h' : SpellsClause text' ts') :
    SpellsClause (text ++ text') (ts ++ ts') := by
  refine ⟨h.spells.append h'.spells h'.stops, ?_⟩
  rw [String.toList_append]
  exact h.stops.append h'.stops

/-- Partitions have no quotes, so that each has to be one word. -/
theorem spellsClause_partitions {names : List Value}
    (h : ∀ v ∈ names, ∃ name, v = .literal (.identifier name) ∧ OneWord name) :
    SpellsClause (Piece.join shown (Sql.partitions o names)) (partitionsTokens names) := by
  unfold Sql.partitions partitionsTokens
  cases hnames : names.isEmpty with
  | true => exact spellsClause_empty
  | false =>
    have hword : Leads " PARTITION (" [.word (.plain "PARTITION"), .mark "("] := by
      refine fun _ => .trans (.gap rfl) (.trans (.one rfl) (.trans (.gap rfl) (.one ?_)))
      exact first?_mark (by decide) fun _ _ => rfl
    have hcloses : Leads ")" [.mark ")"] := fun _ => .one (first?_mark (by decide) fun _ _ => rfl)
    have hlist : Spells (", ".intercalate (names.map fun v => Piece.join shown (Sql.partition o v)))
        (listed (names.map partitionTokens)) := by
      refine spells_listed (.inr rfl) fun v hv => ?_
      obtain ⟨name, rfl, hname⟩ := h v hv
      show Spells (Piece.join shown [.fixed name]) _
      rw [Piece.join_fixed, Piece.join_nil, String.append_empty]
      exact spells_oneWord hname
    have htext : Piece.join shown
        (.fixed " PARTITION (" :: Piece.separate ", " (names.map (Sql.partition o)) ++
          [.fixed ")"]) =
        " PARTITION (" ++ (", ".intercalate
          (names.map fun v => Piece.join shown (Sql.partition o v)) ++ ")") := by
      rw [List.cons_append, Piece.join_fixed, Piece.join_append, Piece.join_separate, List.map_map,
        Piece.join_fixed, Piece.join_nil, String.append_empty]
      rfl
    rw [if_neg Bool.false_ne_true, if_neg Bool.false_ne_true, htext]
    refine ⟨hword.append_spells (hlist.append hcloses.spells ?_), ?_⟩
    · exact stops_of_head? rfl (.inr (.inr (.inr rfl)))
    · exact stops_append_of_head? rfl (.inl rfl)

/-- Two keywords and a list after them. -/
theorem spellsClause_listed {α : Type} {keywords separator : String} {ts : List Token}
    {text : α → String} {tokens : α → List Token} {members : List α} (hkeywords : Leads keywords ts)
    (hhead : keywords.toList.head? = some ' ') (hseparator : separator = "," ∨ separator = ", ")
    (h : ∀ a, Spells (text a) (tokens a)) :
    SpellsClause (keywords ++ separator.intercalate (members.map text))
      (ts ++ listed (members.map tokens)) :=
  ⟨hkeywords.append_spells (spells_listed hseparator fun a _ => h a),
    stops_append_of_head? hhead (.inl rfl)⟩

theorem spellsClause_groupBy (columns : List ColumnRef) :
    SpellsClause (Piece.join shown (Sql.groupBy columns)) (groupTokens columns) := by
  unfold Sql.groupBy groupTokens
  cases columns.isEmpty with
  | true => exact spellsClause_empty
  | false =>
    have hwords : Leads " GROUP BY " [.word (.plain "GROUP"), .word (.plain "BY")] :=
      fun _ => .trans (.gap rfl)
        (.trans (.one rfl) (.trans (.gap rfl) (.trans (.one rfl) (.gap rfl))))
    rw [if_neg Bool.false_ne_true, if_neg Bool.false_ne_true, Piece.join_fixed, Piece.join_nil,
      String.append_empty]
    exact spellsClause_listed hwords rfl (.inl rfl) ColumnRef.spells

theorem spellsClause_orderBy (keys : List OrderKey) :
    SpellsClause (Piece.join shown (Sql.orderBy keys)) (orderTokens keys) := by
  unfold Sql.orderBy orderTokens
  cases keys.isEmpty with
  | true => exact spellsClause_empty
  | false =>
    have hwords : Leads " ORDER BY " [.word (.plain "ORDER"), .word (.plain "BY")] :=
      fun _ => .trans (.gap rfl)
        (.trans (.one rfl) (.trans (.gap rfl) (.trans (.one rfl) (.gap rfl))))
    rw [if_neg Bool.false_ne_true, if_neg Bool.false_ne_true, Piece.join_fixed, Piece.join_nil,
      String.append_empty]
    exact spellsClause_listed hwords rfl (.inr rfl) OrderKey.spells

/-- A limit without a count prints nothing, whatever its offset. -/
theorem spellsClause_limit {limit : Option Limit}
    (h : ∀ l ∈ limit, (∀ v ∈ l.offset, v.IsWhole) ∧ ∀ v ∈ l.count, v.IsWhole) :
    SpellsClause (Piece.join shown (Sql.limit o limit)) (limitTokens limit) := by
  have hword : Leads " LIMIT " [.word (.plain "LIMIT")] :=
    fun _ => .trans (.gap rfl) (.trans (.one rfl) (.gap rfl))
  have hcomma : Leads ", " [.mark ","] := fun _ => .trans (.one rfl) (.gap rfl)
  -- the four cases of what is printed
  match limit with
  | none => exact spellsClause_empty
  | some ⟨offset, none⟩ => cases offset <;> exact spellsClause_empty
  | some ⟨none, some count⟩ =>
    have hcount := ((h _ rfl).2 _ rfl).spells shown o
    show SpellsClause (Piece.join shown (.fixed " LIMIT " :: Sql.value o count)) _
    rw [Piece.join_fixed]
    exact ⟨hword.append_spells hcount, stops_append_of_head? rfl (.inl rfl)⟩
  | some ⟨some offset, some count⟩ =>
    have hoffset := ((h _ rfl).1 _ rfl).spells shown o
    have hcount := ((h _ rfl).2 _ rfl).spells shown o
    show SpellsClause (Piece.join shown
      (.fixed " LIMIT " :: (Sql.value o offset ++ .fixed ", " :: Sql.value o count))) _
    rw [Piece.join_fixed, Piece.join_append, Piece.join_fixed]
    refine ⟨hword.append_spells (hoffset.append (hcomma.append_spells hcount) ?_), ?_⟩
    · exact stops_append_of_head? rfl (.inr (.inl rfl))
    · exact stops_append_of_head? rfl (.inl rfl)

end

/-- **Tokens.** What is generated for a selection falls into its tokens. -/
theorem tokens?_render {s : Selection} (h : s.Spellable) (o : Options) :
    tokens? (Sql.render o (.select s)) = some s.tokens := by
  let shown : Bound → String := fun _ => "?"
  have hselect : Leads "SELECT " [.word (.plain "SELECT")] := fun _ => .trans (.one rfl) (.gap rfl)
  have hfrom : Leads " FROM " [.word (.plain "FROM")] :=
    fun _ => .trans (.gap rfl) (.trans (.one rfl) (.gap rfl))
  have hcolumns : Spells (", ".intercalate (s.columns.map Sql.projection))
      (listed (s.columns.map Projection.tokens)) :=
    spells_listed (.inr rfl) fun p hp => Projection.spells_projection (h.functions p hp)
  -- from the end of the text: a clause can stand after whatever the one before it ends with
  have hclauses := (spellsClause_partitions shown o h.partitions).append
    ((spellsClause_groupBy shown s.groupBy).append
      ((spellsClause_orderBy shown s.orderBy).append (spellsClause_limit shown o h.limit)))
  have htable := hfrom.append_spells (s.table.spells.append hclauses.spells hclauses.stops)
  have hspells := hselect.append_spells
    (hcolumns.append htable (stops_append_of_head? rfl (.inl rfl)))
  have htext : Sql.render o (.select s) = "SELECT " ++
      (", ".intercalate (s.columns.map Sql.projection) ++ (" FROM " ++ (Sql.table s.table ++
        (Piece.join shown (Sql.partitions o s.partitions) ++
          (Piece.join shown (Sql.groupBy s.groupBy) ++
            (Piece.join shown (Sql.orderBy s.orderBy) ++
              Piece.join shown (Sql.limit o s.limit))))))) := by
    simp only [Sql.render, Sql.pieces, Sql.select, h.filter, Sql.filter, List.cons_append,
      List.append_nil, List.append_assoc, Piece.join_fixed, Piece.join_append, String.append_assoc]
    rfl
  rw [htext]
  exact hspells.tokens?

end Selection

end BoundQuery
