-- The account of a reading. At every stage the tokens that were taken and those
-- that are unread make up the tokens of the lines, and there has been one request
-- more than tokens taken, so the requests are counted by the tokens.
import Mathlib.Logic.Function.Iterate
import Pseudocode.Proofs.Diagnosis.Lazy
import Pseudocode.Proofs.Turns.Advance

namespace Pseudocode

open Finding (Proper)

/-! ## A request and the tokens of the lines -/

/-- The token, unless it is the end of the input. -/
def Token.unlessEnd (token : Token) : List Token :=
  if token.kind = .endOfInput then [] else [token]

theorem Token.unlessEnd_of_ne {token : Token} (h : token.kind ≠ .endOfInput) :
    token.unlessEnd = [token] :=
  if_neg h

namespace Cursor

/-- A request takes the first token out of the stream of those to come. Where
there is none, it gives the end of the input, and there is still none. -/
theorem stream_of_advance {cursor next : Cursor} {token : Token} (hp : Proper cursor.pending)
    (ha : cursor.advance = (.ok token, next)) :
    cursor.stream.tokens = token.unlessEnd ++ next.stream.tokens ∧ Proper next.pending ∧
      (token.kind = .endOfInput → next.stream.tokens = []) := by
  have hlines : next.lines = cursor.lines := by
    have h := (advance_eq_next cursor).2
    rwa [ha] at h
  rcases pending_of_advance_ok ha with ⟨hrow, rfl, hleft⟩ | hrow
  · have hnone : next.stream.tokens = [] := by
      rw [stream, hleft]
      rfl
    refine ⟨?_, ?_, fun _ => hnone⟩
    · rw [hnone, stream, hrow]
      rfl
    · rw [hleft]
      intro token ht
      cases ht
  · rw [hrow] at hp
    have hkind : token.kind ≠ .endOfInput := hp token List.mem_cons_self
    refine ⟨?_, hp.tail, fun h => absurd h hkind⟩
    rw [Token.unlessEnd_of_ne hkind, stream, hrow, stream, hlines]
    rfl

end Cursor

/-! ## The goal at the bottom of the agenda -/

namespace Goal

variable {ctx : Context} {token : Token}

theorem endOfInput_of_onProgram {steps : List Step} (h : onProgram ctx token = .leave steps) :
    token.kind = .endOfInput := by
  have hr : (program ctx).react token = .leave steps := h
  cases Opening.leaves_of_react hr with
  | program hk => exact hk

theorem bottom_of_onProgram {items : List Item} (h : onProgram ctx token = .take items) :
    ∃ front, items = front ++ [.await (.program ctx)] := by
  obtain ⟨begun, -, rfl⟩ := Opening.take_of_program h
  exact ⟨begun, rfl⟩

end Goal

/-! ## The account -/

/-- The cursor over lines after a number of requests. -/
def Cursor.requested (lines : List String) (requests : Nat) : Cursor :=
  (fun cursor => (advance cursor).2)^[requests] (ofLines lines)

theorem Cursor.requested_succ {lines : List String} {requests : Nat} {cursor next : Cursor}
    {answer : Except Diagnostic Token} (h : cursor = requested lines requests)
    (ha : cursor.advance = (answer, next)) : next = requested lines (requests + 1) := by
  unfold requested
  rw [Function.iterate_succ_apply']
  unfold requested at h
  rw [← h, ha]

namespace Stage

/-- The tokens that have not been taken: the one at hand and, up to the first
fault, those that the cursor is still to come upon. -/
def unread (stage : Stage) : List Token :=
  stage.current.unlessEnd ++ stage.cursor.stream.tokens

/-- The account of a stage in the reading of lines. The goal at the bottom of the
agenda is there as long as there are tokens. -/
structure Accounted (lines : List String) (stage : Stage) : Prop where
  proper : Proper stage.cursor.pending
  tokens : stage.taken ++ stage.unread = (TokenStream.ofLines lines).tokens
  ended : stage.current.kind = .endOfInput → stage.cursor.stream.tokens = []
  requests : stage.requests = stage.taken.length + 1
  cursor : stage.cursor = .requested lines stage.requests
  bottom : stage.current.kind = .endOfInput ∨
    ∃ front ctx, stage.reading.agenda = front ++ [.await (.program ctx)]

namespace Accounted

variable {lines : List String} {stage : Stage} {rest items : List Item}

theorem unread_of_end (h : stage.Accounted lines) (hend : stage.current.kind = .endOfInput) :
    stage.unread = [] := by
  unfold unread Token.unlessEnd
  rw [if_pos hend, h.ended hend]
  rfl

/-- What stands in front of the bottom can be worked off without it. -/
theorem bottom_of_cons (h : stage.Accounted lines) {item : Item}
    (front : stage.reading.agenda = item :: rest) :
    stage.current.kind = .endOfInput ∨ (∃ ctx, item = .await (.program ctx) ∧ rest = []) ∨
      ∃ others ctx, rest = others ++ [.await (.program ctx)] := by
  rcases h.bottom with hend | ⟨others, ctx, hagenda⟩
  · exact .inl hend
  · right
    rw [front] at hagenda
    cases others with
    | nil =>
      left
      cases hagenda
      exact ⟨ctx, rfl, rfl⟩
    | cons other others =>
      right
      cases hagenda
      exact ⟨others, ctx, rfl⟩

/-- An item that is worked off without a token leaves the account as it is. -/
theorem worked (h : stage.Accounted lines) {item : Item} (spine : Spine)
    (front : stage.reading.agenda = item :: rest)
    (hitem : ∀ ctx, item = .await (.program ctx) → stage.current.kind = .endOfInput) :
    Accounted lines { stage with reading := ⟨rest, spine⟩ } := by
  refine ⟨h.proper, h.tokens, h.ended, h.requests, h.cursor, ?_⟩
  rcases h.bottom_of_cons front with hend | ⟨ctx, hctx, -⟩ | hrest
  · exact .inl hend
  · exact .inl (hitem ctx hctx)
  · exact .inr hrest

/-- A token that is taken goes from the unread ones to those that were taken. -/
theorem token_taken (h : stage.Accounted lines) {goal : Goal} {token : Token} {next : Cursor}
    (front : stage.reading.agenda = .await goal :: rest)
    (react : goal.react stage.current = .take items)
    (advance : stage.cursor.advance = (.ok token, next)) :
    Accounted lines ⟨⟨items ++ rest, stage.reading.spine⟩, token, next,
      stage.taken ++ [stage.current], stage.requests + 1⟩ := by
  have hkind : stage.current.kind ≠ .endOfInput := fun hend =>
    Reading.react_ne_take hend _ _ react
  obtain ⟨hstream, hproper, hended⟩ := Cursor.stream_of_advance h.proper advance
  refine ⟨hproper, ?_, hended, ?_, Cursor.requested_succ h.cursor advance, ?_⟩
  · rw [← h.tokens, List.append_assoc]
    unfold unread
    rw [Token.unlessEnd_of_ne hkind, hstream]
  · rw [h.requests, List.length_append]
    rfl
  · right
    rcases h.bottom_of_cons front with hend | ⟨ctx, hctx, rfl⟩ | ⟨others, ctx, hrest⟩
    · exact absurd hend hkind
    · cases hctx
      obtain ⟨before, rfl⟩ := Goal.bottom_of_onProgram react
      exact ⟨before, ctx, List.append_nil _⟩
    · refine ⟨items ++ others, ctx, ?_⟩
      rw [hrest, List.append_assoc]

/-- A request never goes beyond the first one after the last token. -/
theorem requests_le (h : stage.Accounted lines) :
    stage.requests ≤ (TokenStream.ofLines lines).tokens.length + 1 := by
  rw [← h.tokens, List.length_append, h.requests]
  omega

theorem requests_lt (h : stage.Accounted lines) (hkind : stage.current.kind ≠ .endOfInput) :
    stage.requests < (TokenStream.ofLines lines).tokens.length + 1 := by
  rw [← h.tokens, List.length_append, h.requests]
  unfold unread
  rw [Token.unlessEnd_of_ne hkind, List.length_append, List.length_singleton]
  omega

/-- Where nothing more is awaited, every token has been taken. -/
theorem taken_of_done (h : stage.Accounted lines) (front : stage.reading.agenda = []) :
    stage.taken = (TokenStream.ofLines lines).tokens := by
  have hend : stage.current.kind = .endOfInput := by
    rcases h.bottom with hend | ⟨others, ctx, hagenda⟩
    · exact hend
    · rw [front] at hagenda
      simp at hagenda
  rw [← h.tokens, h.unread_of_end hend, List.append_nil]

end Accounted

end Stage

namespace Turn

/-- The account of a turn. Where the reading is over, the requests are no more
than the tokens and one, and as many where it was read to its end. -/
def Accounted (lines : List String) : Turn → Prop
  | goesOn stage => stage.Accounted lines
  | stops result last =>
    last.cursor = .requested lines last.requests ∧
      last.requests ≤ (TokenStream.ofLines lines).tokens.length + 1 ∧
      ∀ spine, result = .ok spine → last.taken = (TokenStream.ofLines lines).tokens ∧
        last.requests = (TokenStream.ofLines lines).tokens.length + 1

variable {lines : List String} {stage : Stage} {turn : Turn}

theorem accounted_first (lines : List String) : (first lines).Accounted lines := by
  have hrow : Proper (Cursor.ofLines lines).pending := by
    rw [Cursor.pending_ofLines]
    exact proper_findings 0 lines
  unfold first
  cases ha : (Cursor.ofLines lines).advance with
  | mk found next =>
    have hnext : next = Cursor.requested lines 1 := Cursor.requested_succ rfl ha
    cases found with
    | error fault =>
      rw [Stage.request_of_fault ha]
      refine ⟨hnext, ?_, ?_⟩
      · exact Nat.succ_le_succ (Nat.zero_le _)
      · intro spine h
        cases h
    | ok token =>
      rw [Stage.request_of_token ha]
      obtain ⟨hstream, hproper, hended⟩ := Cursor.stream_of_advance hrow ha
      refine ⟨hproper, ?_, hended, rfl, hnext, ?_⟩
      · rw [← Cursor.stream_ofLines, hstream]
        rfl
      · exact .inr ⟨[], .top true, rfl⟩

theorem accounted_turn (h : stage.Accounted lines) (hturn : stage.turn = turn) :
    turn.Accounted lines := by
  cases Stage.outcome_of_turn hturn with
  | done front =>
    have htaken := h.taken_of_done front
    refine ⟨h.cursor, h.requests_le, fun spine _ => ⟨htaken, ?_⟩⟩
    rw [h.requests, htaken]
  | builds front =>
    apply h.worked _ front
    intro ctx hctx
    cases hctx
  | leaves front react =>
    apply h.worked _ front
    intro ctx hctx
    cases hctx
    exact Goal.endOfInput_of_onProgram react
  | takes front react advance => exact h.token_taken front react advance
  | faults front react advance =>
    have hkind : stage.current.kind ≠ .endOfInput := fun hend =>
      Reading.react_ne_take hend _ _ react
    refine ⟨Cursor.requested_succ h.cursor advance, h.requests_lt hkind, ?_⟩
    intro spine h
    cases h
  | fails front react =>
    refine ⟨h.cursor, h.requests_le, ?_⟩
    intro spine h
    cases h

theorem accounted_of_run (h : Run (first lines) turn) : turn.Accounted lines := by
  induction h with
  | refl => exact accounted_first lines
  | tail _ hnext ih =>
    cases hnext with
    | after stage => exact accounted_turn ih rfl

end Turn

/-! ## The end of every reading -/

/-- Turns never go on for ever, so the reading of any lines comes to an end, and
gives what is parsed. No more tokens are asked for than the lines have and one,
which is what a program takes; at every stage the tokens are those that were taken
and those that are unread, and what was taken stays taken. At the end of the input
nothing is asked for. A round of a loop, which leads from a goal to one in front of
the same agenda, takes a token: a statement is a round of the program or of a
block, and a suffix, an operator, a further argument or parameter, a clause, a
branch and a class member are rounds as well. So does a call that does not leave
the token at hand, and with it every expression of any level. -/
theorem a_reading_ends_and_takes_every_token_once (lines : List String) :
    (WellFounded fun later turn : Turn => Turn.Next turn later) ∧
    (∃ result last, Turn.Run (.first lines) (.stops result last)) ∧
    (∀ result last, Turn.Run (.first lines) (.stops result last) →
      (Cursor.ofLines lines).parse = (result.map Program.ofSpine, last.cursor) ∧
      last.cursor = .requested lines last.requests ∧
      (∀ tokens, Token.scan lines = .ok tokens → last.requests ≤ tokens.length + 1) ∧
      ∀ spine, result = .ok spine → ∃ tokens, Token.scan lines = .ok tokens ∧
        last.taken = tokens ∧ last.requests = tokens.length + 1) ∧
    (∀ stage, Turn.Run (.first lines) (.goesOn stage) →
      stage.taken ++ stage.unread = (TokenStream.ofLines lines).tokens ∧
      stage.requests = stage.taken.length + 1 ∧
      stage.cursor = .requested lines stage.requests) ∧
    (∀ stage turn, Turn.Run (.goesOn stage) turn →
      stage.taken <+: turn.stage.taken ∧
      (stage.current.kind = .endOfInput → turn.stage.requests = stage.requests)) ∧
    ∀ stage later, Turn.Moves (.goesOn stage) (.goesOn later) →
      (∀ goal goal' rest, stage.reading.agenda = .await goal :: rest →
        later.reading.agenda = .await goal' :: rest →
        stage.taken.length < later.taken.length) ∧
      (∀ level rest, stage.reading.agenda = .await (.expression level) :: rest →
        later.reading.agenda = rest → stage.taken.length < later.taken.length) ∧
      ∀ goal rest, stage.reading.agenda = .await goal :: rest → later.reading.agenda = rest →
        stage.taken.length < later.taken.length ∨
          ∃ steps, goal.react stage.current = .leave steps := by
  refine ⟨Turn.next_wf, Turn.exists_run_stops _, ?_, ?_, ?_, ?_⟩
  · intro result last hrun
    have hparse := Turn.parse_of_run hrun
    obtain ⟨hcursor, hle, hok⟩ := Turn.accounted_of_run hrun
    refine ⟨hparse, hcursor, ?_, ?_⟩
    · intro tokens hscan
      rwa [TokenStream.ofLines_of_scan hscan] at hle
    · intro spine hresult
      have hprogram : (Cursor.ofLines lines).parse.1 = Program.parse lines := Cursor.parse_eq _
      rw [hparse, hresult] at hprogram
      obtain ⟨tokens, hscan⟩ := Program.scan_of_parse hprogram.symm
      obtain ⟨htaken, hrequests⟩ := hok spine hresult
      rw [TokenStream.ofLines_of_scan hscan] at htaken hrequests
      exact ⟨tokens, hscan, htaken, hrequests⟩
  · intro stage hrun
    have haccount : stage.Accounted lines := Turn.accounted_of_run hrun
    exact ⟨haccount.tokens, haccount.requests, haccount.cursor⟩
  · intro stage turn hrun
    exact ⟨Turn.taken_prefix_of_run hrun, fun hend => (Turn.run_of_endOfInput hend hrun).2⟩
  · intro stage later hmoves
    refine ⟨?_, ?_, ?_⟩
    · intro goal goal' rest hstage hlater
      exact Turn.taken_of_round hstage hlater hmoves
    · intro level rest hstage _
      apply Turn.taken_of_call hstage ?_ hmoves
      exact onExpression_ne_leave level _
    · intro goal rest hstage _
      by_cases hleave : ∃ steps, goal.react stage.current = .leave steps
      · exact .inr hleave
      · left
        apply Turn.taken_of_call hstage ?_ hmoves
        exact not_exists.1 hleave

/-- An assignment of three tokens is read with four requests, and a further
argument, which is a round of the loop over arguments, takes its two tokens. -/
theorem four_requests_read_an_assignment :
    let tokens : List Token :=
      [⟨.identifier, "x", 1⟩, ⟨.assign, "=", 1⟩, ⟨.intLiteral, "1", 1⟩]
    let comma : Token := ⟨.comma, ",", 1⟩
    let name : Token := ⟨.identifier, "y", 1⟩
    let before : Stage :=
      ⟨⟨[.await .moreArguments], .empty⟩, comma, ⟨[], [], [name]⟩, [], 1⟩
    let after : Stage :=
      ⟨⟨[.await .moreArguments], Spine.empty.step (.leaf (.identifier "y"))⟩, .endOfInput 0,
        ⟨[], [], []⟩, [comma, name], 3⟩
    (∃ spine last, Turn.Run (.first ["x = 1"]) (.stops (.ok spine) last) ∧
      Token.scan ["x = 1"] = .ok tokens ∧ last.requests = 4) ∧
    Turn.Moves (.goesOn before) (.goesOn after) ∧ before.taken.length < after.taken.length := by
  intro tokens comma name before after
  obtain ⟨-, ⟨result, last, hrun⟩, hends, -, -, hrounds⟩ :=
    a_reading_ends_and_takes_every_token_once ["x = 1"]
  refine ⟨?_, ?_⟩
  · have hscan : Token.scan ["x = 1"] = .ok tokens := rfl
    obtain ⟨hparse, -, -, hok⟩ := hends result last hrun
    have hprogram : (Cursor.ofLines ["x = 1"]).parse.1 = Program.parse ["x = 1"] :=
      Cursor.parse_eq _
    cases result with
    | error diagnostic =>
      have htree : ∃ tree, Program.parse ["x = 1"] = .ok tree := by
        unfold Program.parse
        rw [TokenStream.ofLines_of_scan hscan]
        exact ⟨_, rfl⟩
      obtain ⟨tree, htree⟩ := htree
      rw [hparse, htree] at hprogram
      cases hprogram
    | ok spine =>
      obtain ⟨found, hfound, -, hrequests⟩ := hok spine rfl
      rw [hscan] at hfound
      cases hfound
      exact ⟨spine, last, hrun, hscan, hrequests⟩
  · have hmoves : Turn.Moves (.goesOn before) (.goesOn after) := by
      -- The comma, the name, its leaf, no suffix and no operator.
      apply Relation.TransGen.head (.after _)
      apply Relation.TransGen.head (.after _)
      apply Relation.TransGen.head (.after _)
      apply Relation.TransGen.head (.after _)
      exact .single (.after _)
    exact ⟨hmoves, (hrounds before after hmoves).1 _ _ [] rfl rfl⟩

end Pseudocode
