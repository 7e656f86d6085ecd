-- A cursor over the tokens of a program. A line is scanned only when a token
-- from beyond the scanned ones is asked for. A line with a fault is passed
-- over, so the fault is reported once and the next request goes on behind it.
import Pseudocode.Token.Scan

namespace Pseudocode

/-- All lines, those of them that are still to be scanned, and the tokens that
are scanned but not yet handed out. -/
structure Cursor where
  lines : List String
  rest : List String
  buffer : List Token
  deriving Repr, DecidableEq

namespace Cursor

/-- A cursor at the start of a program. -/
def ofLines (lines : List String) : Cursor := ⟨lines, lines, []⟩

/-- The same program from the start. -/
def restart (cursor : Cursor) : Cursor := ofLines cursor.lines

/-- What is handed out once all lines are used up. -/
def endToken (cursor : Cursor) : Token := .endOfInput cursor.lines.length

/-! ## Scanning ahead -/

/-- Scans lines until there are more than `wanted` tokens, or until a line has
a fault. There are `total` lines in all. -/
def fillFrom (total wanted : Nat) :
    List String → List Token → Option Diagnostic × List String × List Token
  | [], buffer => (none, [], buffer)
  | text :: texts, buffer =>
    if wanted < buffer.length then (none, text :: texts, buffer)
    else
      match Token.scanLine (total - texts.length) text with
      | .ok tokens => fillFrom total wanted texts (buffer ++ tokens)
      | .error diagnostic => (some diagnostic, texts, buffer)

/-- Has more than `wanted` tokens ready, if there are so many, or gives the
fault that is in the way. -/
def fill (cursor : Cursor) (wanted : Nat) : Option Diagnostic × Cursor :=
  let (fault, rest, buffer) := fillFrom cursor.lines.length wanted cursor.rest cursor.buffer
  (fault, { cursor with rest := rest, buffer := buffer })

/-! ## Requests -/

/-- The token `ahead` places further on, which stays where it is. -/
def peek (cursor : Cursor) (ahead : Nat) : Except Diagnostic Token × Cursor :=
  match cursor.fill ahead with
  | (some fault, filled) => (.error fault, filled)
  | (none, filled) => (.ok (filled.buffer[ahead]?.getD filled.endToken), filled)

/-- Takes the next token. -/
def advance (cursor : Cursor) : Except Diagnostic Token × Cursor :=
  match cursor.fill 0 with
  | (some fault, filled) => (.error fault, filled)
  | (none, filled) =>
    match filled.buffer with
    | [] => (.ok filled.endToken, filled)
    | token :: buffer => (.ok token, { filled with buffer := buffer })

/-! ## Taking tokens comes to an end -/

/-- Scanning ahead leaves everything as it is or uses up lines. -/
theorem fillFrom_progress (total wanted : Nat) (rest : List String) (buffer : List Token) :
    (fillFrom total wanted rest buffer).2 = (rest, buffer) ∨
      (fillFrom total wanted rest buffer).2.1.length < rest.length := by
  induction rest generalizing buffer with
  | nil => exact .inl rfl
  | cons text texts ih =>
    unfold fillFrom
    split
    · exact .inl rfl
    · refine .inr ?_
      split
      · rename_i tokens _
        rcases ih (buffer ++ tokens) with h | h
        · rw [h]; exact Nat.lt_succ_self _
        · exact Nat.lt_succ_of_lt h
      · exact Nat.lt_succ_self _

/-- The order in which cursors come closer to the end: fewer lines to scan, or
as many lines and fewer tokens in store. -/
def Before (a b : Cursor) : Prop :=
  Prod.Lex (· < ·) (· < ·) (a.rest.length, a.buffer.length) (b.rest.length, b.buffer.length)

/-- Taking a token other than the end comes closer to the end. -/
theorem before_of_advance {cursor next : Cursor} {token : Token}
    (h : cursor.advance = (.ok token, next)) (hkind : token.kind ≠ .endOfInput) :
    Before next cursor := by
  obtain ⟨lines, rest, buffer⟩ := cursor
  have hp := fillFrom_progress lines.length 0 rest buffer
  unfold advance fill at h
  generalize fillFrom lines.length 0 rest buffer = result at h hp
  obtain ⟨fault, rest', buffer'⟩ := result
  cases fault with
  | some d => simp at h
  | none =>
    cases buffer' with
    | nil =>
      simp only [Prod.mk.injEq, Except.ok.injEq] at h
      exact absurd (h.1 ▸ rfl) hkind
    | cons first others =>
      simp only [Prod.mk.injEq, Except.ok.injEq] at h
      obtain ⟨-, rfl⟩ := h
      rcases hp with hp | hp
      · obtain ⟨rfl, rfl⟩ := Prod.mk.inj hp
        exact .right _ (Nat.lt_succ_self _)
      · exact .left _ _ hp

theorem before_wf : WellFounded Before :=
  InvImage.wf (fun c : Cursor => (c.rest.length, c.buffer.length))
    (Prod.lex Nat.lt_wfRel Nat.lt_wfRel).wf

instance : WellFoundedRelation Cursor := ⟨Before, before_wf⟩

/-! ## All tokens -/

/-- Takes tokens up to the end or up to a fault. -/
def drain (cursor : Cursor) : Except Diagnostic (List Token) × Cursor :=
  match _h : cursor.advance with
  | (.error fault, next) => (.error fault, next)
  | (.ok token, next) =>
    if _hkind : token.kind = .endOfInput then (.ok [], next)
    else
      match drain next with
      | (.ok tokens, last) => (.ok (token :: tokens), last)
      | (.error fault, last) => (.error fault, last)
termination_by cursor
decreasing_by exact before_of_advance _h _hkind

/-- All tokens from the start on. The cursor is at the start again afterwards,
unless there was a fault. -/
def tokenizeAll (cursor : Cursor) : Except Diagnostic (List Token) × Cursor :=
  match cursor.restart.drain with
  | (.ok tokens, last) => (.ok tokens, last.restart)
  | (.error fault, last) => (.error fault, last)

end Cursor

end Pseudocode
