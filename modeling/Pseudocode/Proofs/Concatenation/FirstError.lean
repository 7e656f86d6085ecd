-- The first error is final. Only the end of the input can be made up for by more
-- lines; whatever else is wrong stays so, since a token that does not fit is
-- met before anything that comes behind it.
import Pseudocode.Proofs.Concatenation.Lines
import Pseudocode.Proofs.Diagnosis.Lazy

namespace Pseudocode

open Goal Reaction Reading
open Item (Willing)

/-! ## What is wrong at the end of the input -/

/-- Something is expected where the input ends. -/
def Diagnostic.LacksMore : Diagnostic → Prop
  | expected _ found _ => found = TokenKind.endOfInput.display
  | _ => False

namespace Reaction

/-- The only thing that may be wrong is that there is no more. -/
def OnlyLacksMore : Reaction → Prop
  | fail d => d.LacksMore
  | _ => True

theorem onlyLacksMore_missing (what : Expectation) (last : Nat) :
    (missing what (.endOfInput last)).OnlyLacksMore := rfl

end Reaction

section Goals

variable {goal : Goal} {last : Nat}

/-- Every goal but a refusal either leaves the end of the input or asks for more. -/
theorem react_endOfInput_onlyLacksMore (h : ∀ d, goal ≠ .refusal d) :
    (goal.react (.endOfInput last)).OnlyLacksMore := by
  cases goal with
  | refusal d => exact absurd rfl (h d)
  | block ctx stops =>
    by_cases hs : TokenKind.endOfInput ∈ stops
    · have hr : (Goal.block ctx stops).react (.endOfInput last) = _ :=
        (Opening.Leaves.block hs).react_eq
      rw [hr]
      trivial
    · have hr : (Goal.block ctx stops).react (.endOfInput last) = _ :=
        (Opening.Lacks.block hs rfl).react_eq
      rw [hr]
      exact onlyLacksMore_missing _ last
  | token kind =>
    have hr : (Goal.token kind).react (.endOfInput last) = _ :=
      (Opening.Lacks.mark fun hk => hk.2 hk.1.symm).react_eq
    rw [hr]
    exact onlyLacksMore_missing _ last
  | chain isCall isGlobal => cases isCall <;> cases isGlobal <;> trivial
  | _ => trivial

end Goals

/-! ## Many tokens -/

section Tokens

variable {reading : Reading} {tokens : List Token} {last : Nat} {d : Diagnostic}

/-- What is wrong at the end of the input is that something is expected there. -/
theorem lacksMore_of_feed (hw : Willing reading.agenda)
    (h : reading.feed (.endOfInput last) = .error d) : d.LacksMore := by
  obtain ⟨goal, hmem, hr⟩ := fail_of_offer h
  have hlacks : (goal.react (.endOfInput last)).OnlyLacksMore :=
    react_endOfInput_onlyLacksMore (ne_refusal_of_willing hw hmem)
  rw [hr] at hlacks
  exact hlacks

/-- What is found wrong with tokens, and is not that there are no more of them,
is found wrong whatever comes behind them. -/
theorem run_append_of_error (hw : Willing reading.agenda)
    (h : reading.run tokens (.input last) = .error d) (hd : ¬ d.LacksMore) (others : List Token)
    (ending : Nat) : reading.run (tokens ++ others) (.input ending) = .error d := by
  induction tokens generalizing reading with
  | nil =>
    rw [run] at h
    split at h
    · rename_i hf
      cases h
      exact absurd (lacksMore_of_feed hw hf) hd
    · cases h
    · cases h
  | cons token tokens ih =>
    rw [List.cons_append]
    rw [run] at h ⊢
    split at h
    · exact h
    · cases h
    · rename_i next hf
      -- A token that is taken only to be refused is refused by whatever is next,
      -- be it the end of the input.
      rcases willing_of_feed hw hf with hgood | ⟨found, hr, -⟩
      · exact ih hgood h
      · rw [run_error (offer_refusal hr)] at h ⊢
        exact h

end Tokens

/-- What is wrong with lines, unless it is that something is expected where they
end, is wrong with them whatever lines are put behind them. -/
theorem the_first_error_is_final {lines others : List String} {more : List Token} {d : Diagnostic}
    (ho : Token.scan others = .ok more) (h : Program.parse lines = .error d)
    (hd : ¬ d.LacksMore) : Program.parse (lines ++ others) = .error d := by
  cases hs : Token.scan lines with
  | error fault =>
    unfold Program.parse TokenStream.ofLines at h ⊢
    rw [TokenStream.after_append_of_fault hs]
    exact h
  | ok tokens =>
    unfold Program.parse at h ⊢
    rw [TokenStream.ofLines_of_scan hs, Program.ofStream_eq_error] at h
    rw [TokenStream.ofLines_of_scan (Token.scan_append hs ho), Program.ofStream_eq_error]
    have hw : Willing (ofProgram true).agenda := rfl
    exact run_append_of_error hw h hd _ _

/-- A `continue` behind a loop stays wrong, although the loop behind it is not. -/
theorem a_misplaced_jump_is_not_made_up_for :
    let lines := ["while a", "break endwhile", "continue"]
    let others := ["while b", "endwhile"]
    let d : Diagnostic := .misplaced .continueOutside 3
    Token.scan others = .ok [⟨.kwWhile, "while", 1⟩, ⟨.identifier, "b", 1⟩,
        ⟨.kwEndWhile, "endwhile", 2⟩] ∧
      Program.parse lines = .error d ∧ ¬ d.LacksMore ∧
      Program.parse (lines ++ others) = .error d := by
  intro lines others d
  have hscan : Token.scan others = .ok [⟨.kwWhile, "while", 1⟩, ⟨.identifier, "b", 1⟩,
    ⟨.kwEndWhile, "endwhile", 2⟩] := rfl
  have hparse : Program.parse lines = .error d := rfl
  have hd : ¬ d.LacksMore := fun h => h
  exact ⟨hscan, hparse, hd, the_first_error_is_final hscan hparse hd⟩

end Pseudocode
