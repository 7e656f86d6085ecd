-- A reading turn by turn. A turn works off the item in front of the agenda, or
-- takes the token at hand and asks the cursor for the next one. Along the way
-- the tokens that were taken are kept, and the requests are counted.
import Mathlib.Logic.Relation
import Pseudocode.Proofs.Cursor.History
import Pseudocode.Proofs.Diagnosis.Located

namespace Pseudocode

/-! ## Stages and turns -/

/-- A program in the course of being read: what is awaited and what is built,
the token at hand, the cursor behind it, the tokens taken so far, and the number
of requests made so far. -/
structure Stage where
  reading : Reading
  current : Token
  cursor : Cursor
  taken : List Token
  requests : Nat

/-- What a turn comes to: the reading goes on, or it is over. -/
inductive Turn where
  | goesOn (stage : Stage)
  | stops (result : Except Diagnostic Spine) (last : Stage)

namespace Stage

/-- Asks for the next token, with which the reading goes on. -/
def request (stage : Stage) (reading : Reading) (taken : List Token) : Turn :=
  match stage.cursor.advance with
  | (.ok token, next) => .goesOn ⟨reading, token, next, taken, stage.requests + 1⟩
  | (.error fault, next) =>
    .stops (.error fault) { stage with cursor := next, requests := stage.requests + 1 }

/-- One turn. A goal that takes the token at hand has the next one asked for,
whatever token it is that was taken. -/
def turn (stage : Stage) : Turn :=
  match stage.reading.agenda with
  | [] => .stops (.ok stage.reading.spine) stage
  | .build step :: rest =>
    .goesOn { stage with reading := ⟨rest, stage.reading.spine.step step⟩ }
  | .await goal :: rest =>
    match goal.react stage.current with
    | .take items =>
      stage.request ⟨items ++ rest, stage.reading.spine⟩ (stage.taken ++ [stage.current])
    | .leave steps =>
      .goesOn { stage with reading := ⟨rest, stage.reading.spine.steps steps⟩ }
    | .fail diagnostic => .stops (.error diagnostic) stage

/-- Where the reading of lines stands before anything has been asked for. -/
def initial (lines : List String) : Stage :=
  ⟨.ofProgram true, .endOfInput 0, .ofLines lines, [], 0⟩

end Stage

namespace Turn

/-- The first request. Nothing has been taken then. -/
def first (lines : List String) : Turn := (Stage.initial lines).request (.ofProgram true) []

/-- Where a turn has led. -/
def stage : Turn → Stage
  | goesOn stage => stage
  | stops _ last => last

/-- One turn comes after another. -/
inductive Next : Turn → Turn → Prop where
  | after (stage : Stage) : Next (goesOn stage) stage.turn

/-- Any number of turns, one after the other. -/
abbrev Run : Turn → Turn → Prop := Relation.ReflTransGen Next

/-- At least one turn. -/
abbrev Moves : Turn → Turn → Prop := Relation.TransGen Next

end Turn

/-! ## What a turn can do -/

namespace Stage

/-- What a turn can come to. Nothing more is awaited; or it takes a step of the
construction; or the goal in front takes the token at hand, and there is another
one behind it or a lexical fault; or that goal is done without the token, or it
says what is wrong. -/
inductive Outcome (stage : Stage) : Turn → Prop where
  | done (front : stage.reading.agenda = []) :
      Outcome stage (.stops (.ok stage.reading.spine) stage)
  | builds {step : Step} {rest : List Item} (front : stage.reading.agenda = .build step :: rest) :
      Outcome stage (.goesOn { stage with reading := ⟨rest, stage.reading.spine.step step⟩ })
  | takes {goal : Goal} {rest items : List Item} {token : Token} {next : Cursor}
      (front : stage.reading.agenda = .await goal :: rest)
      (react : goal.react stage.current = .take items)
      (advance : stage.cursor.advance = (.ok token, next)) :
      Outcome stage (.goesOn ⟨⟨items ++ rest, stage.reading.spine⟩, token, next,
        stage.taken ++ [stage.current], stage.requests + 1⟩)
  | faults {goal : Goal} {rest items : List Item} {fault : Diagnostic} {next : Cursor}
      (front : stage.reading.agenda = .await goal :: rest)
      (react : goal.react stage.current = .take items)
      (advance : stage.cursor.advance = (.error fault, next)) :
      Outcome stage (.stops (.error fault)
        { stage with cursor := next, requests := stage.requests + 1 })
  | leaves {goal : Goal} {rest : List Item} {steps : List Step}
      (front : stage.reading.agenda = .await goal :: rest)
      (react : goal.react stage.current = .leave steps) :
      Outcome stage (.goesOn { stage with reading := ⟨rest, stage.reading.spine.steps steps⟩ })
  | fails {goal : Goal} {rest : List Item} {diagnostic : Diagnostic}
      (front : stage.reading.agenda = .await goal :: rest)
      (react : goal.react stage.current = .fail diagnostic) :
      Outcome stage (.stops (.error diagnostic) stage)

section Request

variable {stage : Stage} {reading : Reading} {taken : List Token} {next : Cursor}

theorem request_of_token {token : Token} (h : stage.cursor.advance = (.ok token, next)) :
    stage.request reading taken = .goesOn ⟨reading, token, next, taken, stage.requests + 1⟩ := by
  unfold request
  rw [h]

theorem request_of_fault {fault : Diagnostic} (h : stage.cursor.advance = (.error fault, next)) :
    stage.request reading taken =
      .stops (.error fault) { stage with cursor := next, requests := stage.requests + 1 } := by
  unfold request
  rw [h]

end Request

section Turn

variable {stage : Stage} {goal : Goal} {rest : List Item}

theorem turn_of_nil (h : stage.reading.agenda = []) :
    stage.turn = .stops (.ok stage.reading.spine) stage := by
  unfold turn
  rw [h]

theorem turn_of_build {step : Step} (h : stage.reading.agenda = .build step :: rest) :
    stage.turn =
      .goesOn { stage with reading := ⟨rest, stage.reading.spine.step step⟩ } := by
  unfold turn
  rw [h]

theorem turn_of_take {items : List Item} (h : stage.reading.agenda = .await goal :: rest)
    (hr : goal.react stage.current = .take items) :
    stage.turn =
      stage.request ⟨items ++ rest, stage.reading.spine⟩ (stage.taken ++ [stage.current]) := by
  unfold turn
  rw [h]
  simp only [hr]

theorem turn_of_leave {steps : List Step} (h : stage.reading.agenda = .await goal :: rest)
    (hr : goal.react stage.current = .leave steps) :
    stage.turn =
      .goesOn { stage with reading := ⟨rest, stage.reading.spine.steps steps⟩ } := by
  unfold turn
  rw [h]
  simp only [hr]

theorem turn_of_fail {diagnostic : Diagnostic}
    (h : stage.reading.agenda = .await goal :: rest)
    (hr : goal.react stage.current = .fail diagnostic) :
    stage.turn = .stops (.error diagnostic) stage := by
  unfold turn
  rw [h]
  simp only [hr]

end Turn

theorem outcome_turn (stage : Stage) : stage.Outcome stage.turn := by
  cases hs : stage.reading.agenda with
  | nil =>
    rw [turn_of_nil hs]
    exact .done hs
  | cons item rest =>
    cases item with
    | build step =>
      rw [turn_of_build hs]
      exact .builds hs
    | await goal =>
      cases hr : goal.react stage.current with
      | leave steps =>
        rw [turn_of_leave hs hr]
        exact .leaves hs hr
      | fail diagnostic =>
        rw [turn_of_fail hs hr]
        exact .fails hs hr
      | take items =>
        rw [turn_of_take hs hr]
        cases ha : stage.cursor.advance with
        | mk found next =>
          cases found with
          | ok token =>
            rw [request_of_token ha]
            exact .takes hs hr ha
          | error fault =>
            rw [request_of_fault ha]
            exact .faults hs hr ha

theorem outcome_of_turn {stage : Stage} {turn : Turn} (h : stage.turn = turn) :
    stage.Outcome turn := by
  rw [← h]
  exact outcome_turn stage

end Stage

/-! ## The turns of a reading give what is read -/

/-- What is read from a stage on, and the cursor that it leaves. -/
def Stage.answer (stage : Stage) : Except Diagnostic Spine × Cursor :=
  match stage.reading.feed stage.current with
  | .error diagnostic => (.error diagnostic, stage.cursor)
  | .ok (.finished spine) => (.ok spine, stage.cursor)
  | .ok (.taken following) => Cursor.read following stage.cursor

namespace Turn

/-- What is read from a turn on, and the cursor that it leaves. -/
def answer : Turn → Except Diagnostic Spine × Cursor
  | goesOn stage => stage.answer
  | stops result last => (result, last.cursor)

/-- To read on from a cursor is to ask it for a token and to go on with that. -/
theorem answer_request (stage : Stage) (reading : Reading) (taken : List Token) :
    (stage.request reading taken).answer = Cursor.read reading stage.cursor := by
  cases ha : stage.cursor.advance with
  | mk found next =>
    cases found with
    | error fault =>
      rw [Stage.request_of_fault ha, Cursor.read_of_fault ha]
      rfl
    | ok token =>
      rw [Stage.request_of_token ha, Cursor.read_of_token ha]
      simp only [answer, Stage.answer]
      cases hf : reading.feed token with
      | error diagnostic => rfl
      | ok progress =>
        cases progress with
        | finished spine => rfl
        | taken following =>
          have hkind : token.kind ≠ .endOfInput := fun h => Reading.feed_ne_taken h hf
          simp only [if_neg hkind]

theorem answer_turn (stage : Stage) : stage.turn.answer = stage.answer := by
  unfold Stage.answer Reading.feed
  cases hs : stage.reading.agenda with
  | nil =>
    rw [Stage.turn_of_nil hs]
    rfl
  | cons item rest =>
    cases item with
    | build step =>
      rw [Stage.turn_of_build hs]
      rfl
    | await goal =>
      cases hr : goal.react stage.current with
      | leave steps =>
        rw [Stage.turn_of_leave hs hr]
        simp only [Reading.offer, hr]
        rfl
      | fail diagnostic =>
        rw [Stage.turn_of_fail hs hr]
        simp only [Reading.offer, hr]
        rfl
      | take items =>
        rw [Stage.turn_of_take hs hr, answer_request]
        simp only [Reading.offer, hr]

theorem answer_of_run {turn later : Turn} (h : Run turn later) : later.answer = turn.answer := by
  induction h with
  | refl => rfl
  | tail _ hnext ih =>
    cases hnext with
    | after stage =>
      rw [answer_turn]
      exact ih

/-- Where the turns over some lines come to an end, they give what is parsed from
a cursor over the lines, and they leave the cursor where parsing leaves it. -/
theorem parse_of_run {lines : List String} {result : Except Diagnostic Spine} {last : Stage}
    (h : Run (first lines) (stops result last)) :
    (Cursor.ofLines lines).parse = (result.map Program.ofSpine, last.cursor) := by
  have hread : Cursor.read (.ofProgram true) (Cursor.ofLines lines).restart =
      (result, last.cursor) := by
    have hfirst := answer_request (Stage.initial lines) (.ofProgram true) []
    exact hfirst.symm.trans (answer_of_run h).symm
  unfold Cursor.parse
  rw [hread]
  cases result <;> rfl

end Turn

end Pseudocode
