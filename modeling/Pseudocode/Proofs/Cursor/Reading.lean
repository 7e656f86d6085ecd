-- Reading from a cursor, which scans lines as tokens are needed, gives what is
-- read from the stream of all tokens up to the first fault.
import Pseudocode.Program.Reading
import Pseudocode.Proofs.Cursor.Requests

namespace Pseudocode

/-- The tokens of a row up to its first fault, and what follows them. -/
def Finding.stream (last : Nat) : List Finding → TokenStream
  | [] => ⟨[], .input last⟩
  | .error fault :: _ => ⟨[], .fault fault⟩
  | .ok token :: others => ⟨token :: (stream last others).tokens, (stream last others).ending⟩

namespace Cursor

open Finding (Proper)

theorem stream_append (last : Nat) (tokens : List Token) (row : List Finding) :
    Finding.stream last (tokens.map .ok ++ row) =
      ⟨tokens ++ (Finding.stream last row).tokens, (Finding.stream last row).ending⟩ := by
  induction tokens with
  | nil => rfl
  | cons token tokens ih =>
    rw [List.map_cons, List.cons_append, Finding.stream, ih]
    rfl

theorem stream_findings (line : Nat) (texts : List String) :
    Finding.stream (line + texts.length) (findings (line + texts.length) texts) =
      TokenStream.after line texts := by
  induction texts generalizing line with
  | nil => rfl
  | cons text texts ih =>
    obtain ⟨hnumber, htotal⟩ := lineNumber_eq line text texts
    rw [findings, findingsOf, hnumber, htotal, TokenStream.after]
    cases Token.scanLine (line + 1) text with
    | error fault => rfl
    | ok tokens => rw [stream_append, ih]

/-- The stream of what is still to come from a cursor. -/
def stream (cursor : Cursor) : TokenStream :=
  Finding.stream cursor.lines.length cursor.pending

theorem stream_ofLines (lines : List String) : (ofLines lines).stream = .ofLines lines := by
  have h := stream_findings 0 lines
  rw [Nat.zero_add] at h
  exact h

/-- To read from a cursor is to read what is still to come from it. -/
theorem read_eq_run (reading : Reading) (cursor : Cursor) (hp : Proper cursor.pending) :
    (read reading cursor).1 =
      (reading.run cursor.stream.tokens cursor.stream.ending).map Prod.fst := by
  induction cursor using before_wf.induction generalizing reading with
  | _ cursor ih =>
  have hlines := (advance_eq_next cursor).2
  rw [read]
  split
  · rename_i fault next ha
    rw [stream, pending_of_advance_error ha]
    rfl
  · rename_i token next ha
    rw [ha] at hlines
    rcases pending_of_advance_ok ha with ⟨hrow, rfl, -⟩ | hrow
    · rw [stream, hrow, Finding.stream, Reading.run]
      unfold endToken
      cases reading.feed (.endOfInput cursor.lines.length) with
      | error diagnostic => rfl
      | ok progress => cases progress <;> rfl
    · rw [hrow] at hp
      have hkind : token.kind ≠ .endOfInput := hp token (by simp)
      have hstream : cursor.stream = ⟨token :: next.stream.tokens, next.stream.ending⟩ := by
        rw [stream, hrow, Finding.stream, stream, show next.lines = cursor.lines from hlines]
      rw [hstream, Reading.run]
      cases reading.feed token with
      | error diagnostic => rfl
      | ok progress =>
        cases progress with
        | finished spine => rfl
        | taken following =>
          simp only [dif_neg hkind]
          exact ih next (before_of_advance ha hkind) following hp.tail

/-- What is parsed from a cursor, wherever it is, is the program of its lines. -/
theorem parse_eq (cursor : Cursor) : (cursor.parse).1 = Program.parse cursor.lines := by
  have hp : Proper (ofLines cursor.lines).pending := by
    rw [pending_ofLines]
    exact proper_findings 0 cursor.lines
  have hread := read_eq_run (.ofProgram true) (ofLines cursor.lines) hp
  rw [stream_ofLines] at hread
  unfold parse Program.parse Program.ofStream restart
  cases hc : read (.ofProgram true) (ofLines cursor.lines) with
  | mk result last =>
    rw [hc] at hread
    cases hrun : (Reading.ofProgram true).run (TokenStream.ofLines cursor.lines).tokens
        (TokenStream.ofLines cursor.lines).ending with
    | error diagnostic =>
      rw [hrun] at hread
      subst hread
      rfl
    | ok outcome =>
      rw [hrun] at hread
      subst hread
      rfl

end Cursor

end Pseudocode
