import BoundQuery.Grammar.Reading
import BoundQuery.Proofs.Success

/-!
# Reading step by step

A reader is a chain of steps, each of which leaves tokens to the next one. These lemmas go along
such a chain: from its success back to the successes of the steps, or from the steps to what the
chain comes to. `Read.Yields` says both at once of a reader that succeeds under a condition and
fails otherwise.
-/

namespace BoundQuery

namespace Read

variable {α β : Type} {r : Read α} {f : α → Read β} {tokens after : List Token}

/-- Two steps succeed if the second one does on what the first one leaves. -/
theorem bind_eq_ok {p : β × List Token} :
    (r >>= f) tokens = .ok p ↔ ∃ a after, r tokens = .ok (a, after) ∧ f a after = .ok p :=
  Success.bind_eq_ok.trans Prod.exists

/-- A chain goes on from what its first step leaves. -/
theorem bind_of_ok {a : α} (h : r tokens = .ok (a, after)) : (r >>= f) tokens = f a after := by
  show (r tokens >>= fun p => f p.1 p.2) = _
  rw [h]
  rfl

/-- A chain fails with its first step. -/
theorem bind_of_error {fault : Fault} (h : r tokens = .error fault) :
    (r >>= f) tokens = .error fault := by
  show (r tokens >>= fun p => f p.1 p.2) = _
  rw [h]
  rfl

theorem remaining_eq_ok (tokens : List Token) :
    remaining tokens = .ok (tokens, tokens) :=
  rfl

/-! ## Faults -/

section

variable {other : Fault → Read α}

theorem tryCatch_of_ok {p : α × List Token} (h : r tokens = .ok p) :
    tryCatch r other tokens = .ok p := by
  show recover r other tokens = _
  simp only [recover, h]

theorem tryCatch_of_error {fault : Fault} (h : r tokens = .error fault) :
    tryCatch r other tokens = other fault tokens := by
  show recover r other tokens = _
  simp only [recover, h]

end

theorem observing_of_ok {a : α} (h : r tokens = .ok (a, after)) :
    (observing r : Read (Except Fault α)) tokens = .ok (.ok a, after) :=
  tryCatch_of_ok (bind_of_ok h)

/-- A fault that is observed takes nothing. -/
theorem observing_of_error {fault : Fault} (h : r tokens = .error fault) :
    (observing r : Read (Except Fault α)) tokens = .ok (.error fault, tokens) :=
  tryCatch_of_error (bind_of_error h)

/-- A reader that does not fit gives nothing and takes nothing. -/
theorem attempt_of_error (h : r tokens = .error .unexpected) :
    attempt r tokens = .ok (none, tokens) :=
  tryCatch_of_error (bind_of_error h)

theorem orNothing_of_some {r : Read (Option α)} {a : α} (h : r tokens = .ok (some a, after)) :
    orNothing r tokens = .ok (some a, after) := by
  simp only [orNothing, h]

theorem orNothing_of_error {r : Read (Option α)} {fault : Fault} (h : r tokens = .error fault) :
    orNothing r tokens = .error fault := by
  simp only [orNothing, h]

/-! ## What is said of a reader -/

/-- Whether a reader succeeds and leaves some tokens, whatever it reads. -/
def Passes (r : Read α) (tokens after : List Token) : Prop :=
  ∃ a, r tokens = .ok (a, after)

/-- A chain passes if its first step succeeds and the rest passes. -/
theorem Passes.step {a : α} {last : List Token} (h : r tokens = .ok (a, after))
    (hf : Passes (f a) after last) : Passes (r >>= f) tokens last := by
  obtain ⟨b, hb⟩ := hf
  exact ⟨b, (bind_of_ok h).trans hb⟩

/-- Whether a result is a given one under a condition, and a fault otherwise. -/
def Yields (c : Prop) (result : Except Fault (α × List Token)) (p : α × List Token) : Prop :=
  (c → result = .ok p) ∧ (¬ c → ∃ fault, result = .error fault)

namespace Yields

variable {c d : Prop} {p : α × List Token} {q : β × List Token}

theorem of_ok {result : Except Fault (α × List Token)} (hc : c) (h : result = .ok p) :
    Yields c result p :=
  ⟨fun _ => h, fun hnot => absurd hc hnot⟩

theorem of_error {result : Except Fault (α × List Token)} {fault : Fault} (hc : ¬ c)
    (h : result = .error fault) : Yields c result p :=
  ⟨fun h => absurd h hc, fun _ => ⟨fault, h⟩⟩

theorem congr {result : Except Fault (α × List Token)} (h : Yields c result p) (hcd : c ↔ d) :
    Yields d result p :=
  ⟨fun hd => h.1 (hcd.mpr hd), fun hd => h.2 fun hc => hd (hcd.mp hc)⟩

/-- Two steps succeed under both conditions. -/
theorem bind {a : α} (h : Yields c (r tokens) (a, after)) (hf : c → Yields d (f a after) q) :
    Yields (c ∧ d) ((r >>= f) tokens) q := by
  by_cases hc : c
  · rw [bind_of_ok (h.1 hc)]
    exact (hf hc).congr ⟨fun hd => ⟨hc, hd⟩, And.right⟩
  · obtain ⟨fault, hfault⟩ := h.2 hc
    exact of_error (fun hcd => hc hcd.1) (bind_of_error hfault)

/-- A second step that always succeeds adds no condition. -/
theorem bind_ok {a : α} (h : Yields c (r tokens) (a, after)) (hf : f a after = .ok q) :
    Yields c ((r >>= f) tokens) q :=
  (h.bind fun _ => of_ok trivial hf).congr (and_iff_left trivial)

end Yields

/-! ## Lists of one item -/

variable {item : Read α} {a : α}

/-- A single item, with no comma after it. -/
theorem separatedWithin_yields {c : Prop} (h : Yields c (item tokens) (a, after))
    (hafter : mark? "," after = .ok (false, after)) (fuel : Nat) :
    Yields c (separatedWithin item fuel tokens) ([a], after) := by
  cases fuel with
  | zero => exact h.bind_ok rfl
  | succ fuel =>
    refine h.bind_ok ?_
    rw [bind_of_ok hafter]
    rfl

/-- A single item is the whole list. -/
theorem separatedWithin_of_ok (h : item tokens = .ok (a, after))
    (hafter : mark? "," after = .ok (false, after)) (fuel : Nat) :
    separatedWithin item fuel tokens = .ok ([a], after) :=
  (separatedWithin_yields (.of_ok trivial h) hafter fuel).1 trivial

theorem separated_of_ok (h : item tokens = .ok (a, after))
    (hafter : mark? "," after = .ok (false, after)) :
    separated item tokens = .ok ([a], after) :=
  separatedWithin_of_ok h hafter tokens.length

/-- A list needs at least one item. -/
theorem separated_of_error {fault : Fault} (h : item tokens = .error fault) :
    separated item tokens = .error fault := by
  show separatedWithin item tokens.length tokens = _
  cases tokens.length with
  | zero => rw [separatedWithin, bind_of_error h]
  | succ fuel => rw [separatedWithin, bind_of_error h]

end Read

end BoundQuery
