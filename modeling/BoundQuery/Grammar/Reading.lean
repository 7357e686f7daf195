import BoundQuery.Token.Basic

/-!
# Reading tokens

A reader takes tokens from the front of a list and gives what it read, or the reason why it cannot.
It cannot leave anything but the last of its tokens, which is part of what a reader is: nothing is
read that does not stand in the text.

Besides the readers of one token this module has the ways to combine readers: one after the other,
lists with commas, repetition, and an attempt that gives its tokens back if it fails.
-/

namespace BoundQuery

/-- Why a text does not follow the grammar. -/
inductive Fault
  /-- A token that cannot stand where it stands, or an end that comes too early. -/
  | unexpected
  /-- Parts nested in one another more deeply than the limit. -/
  | tooDeep
deriving DecidableEq

/-- A reader of tokens. -/
structure Read (α : Type) where
  /-- What is read from the front of some tokens, and the tokens after it. -/
  run : List Token → Except Fault (α × List Token)
  suffix {tokens : List Token} {a : α} {rest : List Token} :
    run tokens = .ok (a, rest) → rest <:+ tokens

namespace Read

variable {α β : Type}

instance : CoeFun (Read α) fun _ => List Token → Except Fault (α × List Token) :=
  ⟨run⟩

/-! ## Steps -/

instance : Monad Read where
  pure a :=
    { run := fun tokens => .ok (a, tokens)
      suffix := by
        rintro _ _ _ ⟨⟩
        exact List.suffix_rfl }
  bind r f :=
    { run := fun tokens => r tokens >>= fun p => f p.1 p.2
      suffix := by
        intro tokens b rest h
        cases hr : r tokens with
        | error fault =>
          rw [hr] at h
          cases h
        | ok p =>
          rw [hr] at h
          exact ((f p.1).suffix h).trans (r.suffix hr) }

/-- Reads something, or after a fault something else in its place. A fault takes nothing. -/
def recover (r : Read α) (other : Fault → Read α) : Read α where
  run tokens :=
    match r tokens with
    | .ok p => .ok p
    | .error fault => other fault tokens
  suffix := by
    intro tokens a rest h
    split at h
    next p hr =>
      cases h
      exact r.suffix hr
    next fault _ => exact (other fault).suffix h

instance : MonadExcept Fault Read where
  throw fault :=
    { run := fun _ => .error fault
      suffix := nofun }
  tryCatch := recover

/-- Reads nothing, and fails. -/
def fail : Read α :=
  throw .unexpected

/-- All tokens that are left; none of them is taken. -/
def remaining : Read (List Token) where
  run tokens := .ok (tokens, tokens)
  suffix := by
    rintro _ _ _ ⟨⟩
    exact List.suffix_rfl

/-- Takes the next `n` tokens, or all if there are not so many. -/
def drop (n : Nat) : Read Unit where
  run tokens := .ok ((), tokens.drop n)
  suffix := by
    rintro _ _ _ ⟨⟩
    exact List.drop_suffix ..

/-- Reads something that need not be there. Where it is not there, nothing is taken. -/
def orNothing (r : Read (Option α)) : Read (Option α) where
  run tokens :=
    match r tokens with
    | .ok (none, _) => .ok (none, tokens)
    | result => result
  suffix := by
    intro tokens a rest h
    split at h
    next =>
      cases h
      exact List.suffix_rfl
    next => exact r.suffix h

/-! ## Single tokens -/

/-- The next token, which is not taken. -/
def peek : Read (Option Token) :=
  return (← remaining).head?

/-- The token after the next `n` tokens, which is not taken. -/
def peekAfter (n : Nat) : Read (Option Token) :=
  return (← remaining)[n]?

/-- Takes the next token. -/
def next : Read Token := do
  match ← peek with
  | some token =>
    drop 1
    return token
  | none => fail

/-- Takes the next token if it has a property, and says whether it did. -/
def takeIf (p : Token → Bool) : Read Bool := do
  if (← peek).any p then
    drop 1
    return true
  else return false

/-- Whether the next token has a property; it is not taken. -/
def nextIs (p : Token → Bool) : Read Bool :=
  return (← peek).any p

/-- Takes a mark if it is next. -/
def mark? (spelling : String) : Read Bool :=
  takeIf (Token.isMark spelling)

/-- Takes a keyword if it is next. -/
def word? (keyword : String) : Read Bool :=
  takeIf (Token.isWord keyword)

def mark (spelling : String) : Read Unit := do
  unless ← mark? spelling do fail

def word (keyword : String) : Read Unit := do
  unless ← word? keyword do fail

/-- Whether tokens start with some keywords. -/
def startsWith : List String → List Token → Bool
  | [], _ => true
  | keyword :: keywords, token :: tokens => token.isWord keyword && startsWith keywords tokens
  | _ :: _, [] => false

/-- Takes some keywords if all of them are next, one after the other. -/
def words? (keywords : List String) : Read Bool := do
  if startsWith keywords (← remaining) then
    drop keywords.length
    return true
  else return false

/-- Takes some keywords, one after the other. -/
def words (keywords : List String) : Read Unit := do
  unless ← words? keywords do fail

/-- Takes a keyword if it is one of several, and says which. -/
def oneOf? (keywords : List String) : Read (Option String) := do
  match ← peek with
  | some (.word w) =>
    if keywords.contains w.capitals then
      drop 1
      return some w.capitals
    else return none
  | _ => return none

/-- Takes a keyword that is one of several, and says which. -/
def oneOf (keywords : List String) : Read String := do
  match ← oneOf? keywords with
  | some keyword => return keyword
  | none => fail

/-! ## Readers made from others -/

/-- Tries a reader. If it finds an unexpected token, nothing is taken; nesting that is too deep
stays a fault. -/
def attempt (r : Read α) : Read (Option α) :=
  tryCatch (some <$> r) fun
    | .unexpected => return none
    | .tooDeep => throw .tooDeep

/-- Reads something only after a keyword. -/
def afterWord? (keyword : String) (r : Read α) : Read (Option α) := do
  if ← word? keyword then return some (← r) else return none

/-- Reads something between parentheses. -/
def parenthesized (r : Read α) : Read α := do
  mark "("
  let a ← r
  mark ")"
  return a

/-- Reads one or more items with commas between them; `fuel` bounds the number of commas. -/
def separatedWithin (item : Read α) : Nat → Read (List α)
  | 0 => return [← item]
  | fuel + 1 => do
    let first ← item
    if ← mark? "," then return first :: (← separatedWithin item fuel) else return [first]

/-- Reads one or more items with commas between them. There are not more commas than tokens. -/
def separated (item : Read α) : Read (List α) := do
  separatedWithin item (← remaining).length

/-- Reads items as long as there is one; `fuel` bounds their number. -/
def manyWithin (item? : Read (Option α)) : Nat → Read (List α)
  | 0 => return []
  | fuel + 1 => do
    match ← item? with
    | some first => return first :: (← manyWithin item? fuel)
    | none => return []

/-- Reads items as long as there is one. An item takes at least one token. -/
def many (item? : Read (Option α)) : Read (List α) := do
  manyWithin item? (← remaining).length

/-- Changes a value step by step as long as a step is possible; `fuel` bounds the number of steps.
-/
def growWithin (step? : α → Read (Option α)) : Nat → α → Read α
  | 0, a => return a
  | fuel + 1, a => do
    match ← step? a with
    | some b => growWithin step? fuel b
    | none => return a

/-- Changes a value step by step as long as a step is possible. A step takes at least one token. -/
def grow (step? : α → Read (Option α)) (a : α) : Read α := do
  growWithin step? (← remaining).length a

end Read

end BoundQuery
