-- Every turn gets a reading on: it takes a token, or it shortens the agenda and
-- leaves everything else as it was. So no row of turns goes on for ever, and
-- where the agenda is as long as it was before, a token has been taken.
import Pseudocode.Proofs.Turns.Stage

namespace Pseudocode

namespace Stage

variable {stage next : Stage}

/-! ## One turn -/

/-- What gets a reading on: more tokens taken, or the same tokens and a shorter
agenda. -/
def Onward (stage later : Stage) : Prop :=
  stage.taken.length < later.taken.length ∨
    later.taken = stage.taken ∧ later.reading.agenda.length < stage.reading.agenda.length

theorem Onward.trans {later : Stage} (h : stage.Onward next) (h' : next.Onward later) :
    stage.Onward later := by
  unfold Onward at h'
  rcases h with hmore | ⟨hsame, hshorter⟩
  · left
    rcases h' with hmore' | ⟨hsame', -⟩
    · omega
    · rwa [hsame']
  · rw [hsame] at h'
    rcases h' with hmore' | ⟨hsame', hshorter'⟩
    · exact .inl hmore'
    · exact .inr ⟨hsame', by omega⟩

theorem onward_turn (h : stage.turn = .goesOn next) : stage.Onward next := by
  cases outcome_of_turn h with
  | builds front | leaves front react =>
    right
    refine ⟨rfl, ?_⟩
    rw [front]
    exact Nat.lt_succ_self _
  | takes front react advance =>
    left
    simp

/-- A goal that does not leave the token at hand takes it, if the reading goes on. -/
theorem taken_turn {goal : Goal} {rest : List Item}
    (hstage : stage.reading.agenda = .await goal :: rest)
    (hgoal : ∀ steps, goal.react stage.current ≠ .leave steps) (h : stage.turn = .goesOn next) :
    next.taken = stage.taken ++ [stage.current] := by
  cases outcome_of_turn h with
  | builds front =>
    rw [hstage] at front
    cases front
  | leaves front react =>
    rw [hstage] at front
    cases front
    exact absurd react (hgoal _)
  | takes front react advance => rfl

/-- A turn never gives back what was taken before it. -/
theorem taken_prefix_turn {turn : Turn} (h : stage.turn = turn) :
    stage.taken <+: turn.stage.taken := by
  cases outcome_of_turn h with
  | takes front react advance => exact List.prefix_append _ _
  | done | builds | leaves | fails | faults => exact List.prefix_rfl

/-- At the end of the input a turn asks for nothing. -/
theorem turn_of_endOfInput {turn : Turn} (hend : stage.current.kind = .endOfInput)
    (h : stage.turn = turn) :
    turn.stage.current = stage.current ∧ turn.stage.requests = stage.requests := by
  cases outcome_of_turn h with
  | takes front react advance | faults front react advance =>
    exact absurd react (Reading.react_ne_take hend _ _)
  | done | builds | leaves | fails => exact ⟨rfl, rfl⟩

/-! ## The end of all turns -/

/-- How much there is ahead: the token at hand, if it is one, and what the cursor
is still to come upon. -/
def ahead (stage : Stage) : Nat :=
  (if stage.current.kind = .endOfInput then 0 else 1) + stage.cursor.pending.length

/-- Each token leaves less ahead. -/
theorem ahead_lt (hkind : stage.current.kind ≠ .endOfInput)
    (ha : stage.cursor.advance = (.ok next.current, next.cursor)) : next.ahead < stage.ahead := by
  unfold ahead
  rw [if_neg hkind]
  rcases Cursor.pending_of_advance_ok ha with ⟨hrow, hcurrent, hleft⟩ | hrow
  · have hend : next.current.kind = .endOfInput := by
      rw [hcurrent]
      rfl
    rw [if_pos hend, hrow, hleft]
    simp
  · rw [hrow, List.length_cons]
    split <;> omega

/-- What is ahead and the length of the agenda, the first before the second. -/
def weight (stage : Stage) : Nat × Nat := (stage.ahead, stage.reading.agenda.length)

theorem weight_turn (h : stage.turn = .goesOn next) :
    Prod.Lex (· < ·) (· < ·) next.weight stage.weight := by
  cases outcome_of_turn h with
  | builds front | leaves front react =>
    apply Prod.Lex.right
    rw [front]
    exact Nat.lt_succ_self _
  | takes front react advance =>
    apply Prod.Lex.left
    exact ahead_lt (fun hend => Reading.react_ne_take hend _ _ react) advance

end Stage

namespace Turn

/-- No row of turns goes on for ever, wherever it begins. -/
theorem next_wf : WellFounded fun later turn : Turn => Next turn later := by
  have hstops : ∀ result last, Acc (fun later turn : Turn => Next turn later)
      (stops result last) := by
    intro result last
    apply Acc.intro
    intro later hnext
    cases hnext
  have hgoes : ∀ stage, Acc (fun later turn : Turn => Next turn later) (goesOn stage) := by
    have hwf := InvImage.wf Stage.weight (Prod.lex Nat.lt_wfRel Nat.lt_wfRel).wf
    intro stage
    induction stage using hwf.induction with
    | _ stage ih =>
    apply Acc.intro
    intro later hnext
    cases hnext with
    | after stage =>
      cases hturn : stage.turn with
      | stops result last => exact hstops result last
      | goesOn next => exact ih next (Stage.weight_turn hturn)
  constructor
  intro turn
  cases turn with
  | goesOn stage => exact hgoes stage
  | stops result last => exact hstops result last

/-- From every turn on the reading comes to an end. -/
theorem exists_run_stops (turn : Turn) : ∃ result last, Run turn (stops result last) := by
  induction turn using next_wf.induction with
  | _ turn ih =>
  cases turn with
  | stops result last => exact ⟨result, last, .refl⟩
  | goesOn stage =>
    obtain ⟨result, last, hrun⟩ := ih stage.turn (.after stage)
    exact ⟨result, last, .head (.after stage) hrun⟩

/-! ## Many turns -/

variable {stage later : Stage} {turn : Turn}

theorem taken_prefix_of_run (h : Run (goesOn stage) turn) : stage.taken <+: turn.stage.taken := by
  induction h with
  | refl => exact List.prefix_rfl
  | tail _ hnext ih =>
    cases hnext with
    | after middle =>
      apply ih.trans
      exact Stage.taken_prefix_turn rfl

/-- Once the end of the input is at hand, nothing is asked for any more. -/
theorem run_of_endOfInput (hend : stage.current.kind = .endOfInput)
    (h : Run (goesOn stage) turn) :
    turn.stage.current = stage.current ∧ turn.stage.requests = stage.requests := by
  induction h with
  | refl => exact ⟨rfl, rfl⟩
  | tail _ hnext ih =>
    cases hnext with
    | after middle =>
      obtain ⟨hcurrent, hrequests⟩ := ih
      have hmiddle : middle.current.kind = .endOfInput := by
        rw [show middle.current = stage.current from hcurrent]
        exact hend
      obtain ⟨hcurrent', hrequests'⟩ := Stage.turn_of_endOfInput hmiddle rfl
      exact ⟨hcurrent'.trans hcurrent, hrequests'.trans hrequests⟩

theorem onward_of_moves (h : Moves (goesOn stage) (goesOn later)) : stage.Onward later := by
  generalize hstart : goesOn stage = start at h
  generalize hturn : goesOn later = turn at h
  induction h generalizing later with
  | single hnext =>
    subst hstart
    cases hnext
    exact Stage.onward_turn hturn.symm
  | tail _ hnext ih =>
    cases hnext with
    | after middle => exact (ih rfl).trans (Stage.onward_turn hturn.symm)

/-! ## Rounds and calls -/

/-- Where a goal stands in front of the same agenda as a goal did before, a token
has been taken in between. That is what a round of a loop is: the loop comes
back to its own goal, or to the one for its further rounds. -/
theorem taken_of_round {goal goal' : Goal} {rest : List Item}
    (hstage : stage.reading.agenda = .await goal :: rest)
    (hlater : later.reading.agenda = .await goal' :: rest)
    (h : Moves (goesOn stage) (goesOn later)) : stage.taken.length < later.taken.length := by
  rcases onward_of_moves h with hmore | ⟨-, hshorter⟩
  · exact hmore
  · rw [hstage, hlater] at hshorter
    exact absurd hshorter (Nat.lt_irrefl _)

/-- A goal is met with a token, unless it leaves the one that is at hand. -/
theorem taken_of_call {goal : Goal} {rest : List Item}
    (hstage : stage.reading.agenda = .await goal :: rest)
    (hgoal : ∀ steps, goal.react stage.current ≠ .leave steps)
    (h : Moves (goesOn stage) (goesOn later)) : stage.taken.length < later.taken.length := by
  obtain ⟨turn, hnext, hrun⟩ := Relation.TransGen.head'_iff.1 h
  cases hnext
  cases hturn : stage.turn with
  | stops result last =>
    rw [hturn] at hrun
    obtain heq | ⟨_, hnext, -⟩ := hrun.cases_head
    · cases heq
    · cases hnext
  | goesOn next =>
    rw [hturn] at hrun
    have hmore := (taken_prefix_of_run hrun).length_le
    rw [show (goesOn later).stage = later from rfl, Stage.taken_turn hstage hgoal hturn,
      List.length_append] at hmore
    exact hmore

end Turn

end Pseudocode
