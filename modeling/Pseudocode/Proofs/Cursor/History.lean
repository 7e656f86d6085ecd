-- A parser has no memory: each call gives what the lines give, whatever has been
-- asked of the cursor before and whatever the calls before have left behind.
import Pseudocode.Program.Parser
import Pseudocode.Proofs.Cursor.Reading

namespace Pseudocode

/-! ## The cursor of a parser -/

namespace Cursor

section Read

variable {reading : Reading} {cursor next : Cursor}

theorem read_of_fault {fault : Diagnostic} (h : cursor.advance = (.error fault, next)) :
    read reading cursor = (.error fault, next) := by
  rw [read]
  split
  · rename_i heq
    rw [h] at heq
    cases heq
    rfl
  · rename_i heq
    rw [h] at heq
    cases heq

theorem read_of_token {token : Token} (h : cursor.advance = (.ok token, next)) :
    read reading cursor =
      match reading.feed token with
      | .error diagnostic => (.error diagnostic, next)
      | .ok (.finished spine) => (.ok spine, next)
      | .ok (.taken following) =>
        if token.kind = .endOfInput then (.ok following.spine, next) else read following next := by
  rw [read]
  split
  · rename_i heq
    rw [h] at heq
    cases heq
  · rename_i heq
    rw [h] at heq
    cases heq
    rfl

end Read

/-- Reading never changes the lines. -/
theorem lines_read (reading : Reading) (cursor : Cursor) :
    (read reading cursor).2.lines = cursor.lines := by
  induction cursor using before_wf.induction generalizing reading with
  | _ cursor ih =>
  have hlines := (advance_eq_next cursor).2
  cases ha : cursor.advance with
  | mk result next =>
    rw [ha] at hlines
    cases result with
    | error fault =>
      rw [read_of_fault ha]
      exact hlines
    | ok token =>
      rw [read_of_token ha]
      split
      · exact hlines
      · exact hlines
      · split
        · exact hlines
        · rename_i hkind
          rw [ih next (before_of_advance ha hkind)]
          exact hlines

theorem lines_parse (cursor : Cursor) : (cursor.parse).2.lines = cursor.lines := by
  have hread := lines_read (.ofProgram true) cursor.restart
  unfold parse
  split
  · rename_i spine last heq
    rw [heq] at hread
    exact hread
  · rename_i diagnostic last heq
    rw [heq] at hread
    exact hread

end Cursor

namespace Parser

section Read

variable {reading : Reading} {parser : Parser} {next : Cursor}

theorem read_of_fault {fault : Diagnostic} (h : parser.cursor.advance = (.error fault, next)) :
    read reading parser = (.error fault, { parser with cursor := next }) := by
  rw [read]
  split
  · rename_i heq
    rw [h] at heq
    cases heq
    rfl
  · rename_i heq
    rw [h] at heq
    cases heq

theorem read_of_token {token : Token} (h : parser.cursor.advance = (.ok token, next)) :
    read reading parser =
      match reading.feed token with
      | .error diagnostic => (.error diagnostic, parser.arrived reading token next)
      | .ok (.finished spine) => (.ok spine, parser.arrived reading token next)
      | .ok (.taken following) =>
        if token.kind = .endOfInput then
          (.ok following.spine, parser.arrived reading token next)
        else read following (parser.arrived reading token next) := by
  rw [read]
  split
  · rename_i heq
    rw [h] at heq
    cases heq
  · rename_i heq
    rw [h] at heq
    cases heq
    rfl

end Read

/-- The state of the parser makes no difference to what is read from its cursor. -/
theorem read_eq_cursor (reading : Reading) (parser : Parser) :
    (read reading parser).1 = (Cursor.read reading parser.cursor).1 ∧
      (read reading parser).2.cursor = (Cursor.read reading parser.cursor).2 := by
  generalize hc : parser.cursor = cursor
  induction cursor using Cursor.before_wf.induction generalizing reading parser with
  | _ cursor ih =>
  subst hc
  cases ha : parser.cursor.advance with
  | mk result next =>
    cases result with
    | error fault =>
      rw [read_of_fault ha, Cursor.read_of_fault ha]
      exact ⟨rfl, rfl⟩
    | ok token =>
      rw [read_of_token ha, Cursor.read_of_token ha]
      cases reading.feed token with
      | error diagnostic => exact ⟨rfl, rfl⟩
      | ok progress =>
        cases progress with
        | finished spine => exact ⟨rfl, rfl⟩
        | taken following =>
          by_cases hkind : token.kind = .endOfInput
          · simp only [if_pos hkind]
            trivial
          · simp only [if_neg hkind]
            exact ih next (Cursor.before_of_advance ha hkind) following _ rfl

/-- A call gives what is parsed from the cursor, wherever the parser stands. -/
theorem parse_eq_cursor (parser : Parser) :
    parser.parse.1 = parser.cursor.parse.1 ∧ parser.parse.2.cursor = parser.cursor.parse.2 := by
  have hplace : parser.reset.reading = .ofProgram true := rfl
  have hstart : parser.reset.cursor = parser.cursor.restart := rfl
  have hread := read_eq_cursor (.ofProgram true) parser.reset
  rw [hstart] at hread
  obtain ⟨hresult, hcursor⟩ := hread
  unfold parse Cursor.parse
  rw [hplace]
  cases hp : read (.ofProgram true) parser.reset with
  | mk result last =>
    cases hc : Cursor.read (.ofProgram true) parser.cursor.restart with
    | mk result' last' =>
      rw [hp, hc] at hresult hcursor
      subst hresult hcursor
      cases result with
      | error diagnostic => exact ⟨rfl, rfl⟩
      | ok spine => exact ⟨rfl, rfl⟩

/-- One call: the answer is the program of the lines, and the lines stay. -/
theorem parse_eq_program (parser : Parser) :
    parser.parse.1 = Program.parse parser.cursor.lines ∧
      parser.parse.2.cursor.lines = parser.cursor.lines := by
  obtain ⟨hresult, hcursor⟩ := parse_eq_cursor parser
  rw [hresult, hcursor]
  exact ⟨Cursor.parse_eq parser.cursor, Cursor.lines_parse parser.cursor⟩

/-- Any number of calls. -/
theorem parses_eq_replicate (parser : Parser) (times : Nat) :
    parser.parses times = List.replicate times (Program.parse parser.cursor.lines) := by
  induction times generalizing parser with
  | zero => rfl
  | succ times ih =>
    obtain ⟨hresult, hlines⟩ := parse_eq_program parser
    rw [parses, ih, hresult, hlines]
    rfl

/-- Every call of a parser on a cursor that has been used in any way gives the
program of the lines, however many calls there have been before. -/
theorem every_parse_gives_the_program_of_the_lines (lines : List String)
    (requests : List Request) (times : Nat) :
    (ofCursor ((Cursor.ofLines lines).after requests)).parses times =
      List.replicate times (Program.parse lines) := by
  have hparses := parses_eq_replicate (ofCursor ((Cursor.ofLines lines).after requests)) times
  have hlines : ((Cursor.ofLines lines).after requests).lines = lines :=
    Cursor.lines_after (Cursor.ofLines lines) requests
  rwa [show (ofCursor ((Cursor.ofLines lines).after requests)).cursor.lines = lines from hlines]
    at hparses

end Parser

end Pseudocode
