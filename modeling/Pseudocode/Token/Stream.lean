-- The tokens of a program as far as they can be read: up to the end of the
-- input, or up to the first line with a lexical fault.
import Pseudocode.Token.Scan

namespace Pseudocode

/-- What follows the last token. -/
inductive Ending where
  | input (line : Nat)
  | fault (diagnostic : Diagnostic)
  deriving Repr, DecidableEq

/-- Tokens and what follows them. -/
structure TokenStream where
  tokens : List Token
  ending : Ending
  deriving Repr, DecidableEq

namespace TokenStream

/-- The stream of lines of which `line` lines come before. A line with a fault
gives no tokens, and the lines after it are not looked at. -/
def after (line : Nat) : List String → TokenStream
  | [] => ⟨[], .input line⟩
  | text :: texts =>
    match Token.scanLine (line + 1) text with
    | .ok tokens => ⟨tokens ++ (after (line + 1) texts).tokens, (after (line + 1) texts).ending⟩
    | .error diagnostic => ⟨[], .fault diagnostic⟩

/-- The stream of a program. -/
def ofLines (lines : List String) : TokenStream := after 0 lines

/-! ## The stream and the scan -/

/-- All tokens of a stream, or the fault that cuts it short. -/
def toExcept (stream : TokenStream) : Except Diagnostic (List Token) :=
  match stream.ending with
  | .input _ => .ok stream.tokens
  | .fault diagnostic => .error diagnostic

theorem toExcept_after (line : Nat) (texts : List String) :
    (after line texts).toExcept = Token.scanAfter line texts := by
  induction texts generalizing line with
  | nil => rfl
  | cons text texts ih =>
    specialize ih (line + 1)
    unfold after Token.scanAfter
    rw [← ih]
    cases Token.scanLine (line + 1) text with
    | error diagnostic => rfl
    | ok tokens =>
      simp only [toExcept]
      cases (after (line + 1) texts).ending <;> rfl

/-- The stream holds what the scan finds. -/
theorem toExcept_ofLines (lines : List String) : (ofLines lines).toExcept = Token.scan lines :=
  toExcept_after 0 lines

/-- The end of the input stands on the last line. -/
theorem ending_after {line last : Nat} {texts : List String}
    (h : (after line texts).ending = .input last) : last = line + texts.length := by
  induction texts generalizing line with
  | nil => exact (Ending.input.inj h).symm
  | cons text texts ih =>
    unfold after at h
    cases hs : Token.scanLine (line + 1) text with
    | error diagnostic => simp [hs] at h
    | ok tokens =>
      rw [hs] at h
      rw [ih h, List.length_cons]
      omega

end TokenStream

end Pseudocode
