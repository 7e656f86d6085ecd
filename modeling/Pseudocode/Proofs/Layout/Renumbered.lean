-- A program whose lines have other numbers. Where no two lines get one number,
-- a reading goes on as before, step by step: what it builds is the same, and
-- what it finds wrong is found at the same token and carries the new number.
import Pseudocode.Proofs.Concatenation.FirstError
import Pseudocode.Proofs.Layout.Alike

namespace Pseudocode

open Goal Reaction Reading
open Item (Willing refusal?)

/-! ## New numbers -/

/-- The token on the line that has its place. -/
def Token.renumbered (place : Nat → Nat) (token : Token) : Token := token.movedTo (place token.line)

/-- The finding about the line that has its place. -/
def Diagnostic.renumbered (place : Nat → Nat) (d : Diagnostic) : Diagnostic :=
  match d.line? with
  | some line => d.movedTo (place line)
  | none => d

/-- The goal after a token on a line with another number. -/
def Goal.renumbered (place : Nat → Nat) : Goal → Goal
  | returnValue ctx line => returnValue ctx (place line)
  | refusal d => refusal (d.renumbered place)
  | goal => goal

def Item.renumbered (place : Nat → Nat) : Item → Item
  | await goal => await (goal.renumbered place)
  | build step => build step

def Reaction.renumbered (place : Nat → Nat) : Reaction → Reaction
  | take items => take (items.map (Item.renumbered place))
  | leave steps => leave steps
  | fail d => fail (d.renumbered place)

def Reading.renumbered (place : Nat → Nat) (reading : Reading) : Reading :=
  ⟨reading.agenda.map (Item.renumbered place), reading.spine⟩

/-- The same outcome for a token on a line with another number. -/
def Progress.renumbered (place : Nat → Nat) :
    Except Diagnostic Progress → Except Diagnostic Progress
  | .error d => .error (d.renumbered place)
  | .ok (.finished spine) => .ok (.finished spine)
  | .ok (.taken next) => .ok (.taken (next.renumbered place))

section Places

variable {place : Nat → Nat} {line : Nat}

/-- What is moved to a line is renumbered with that line alone. -/
theorem Diagnostic.renumbered_movedTo (d : Diagnostic) :
    (d.movedTo line).renumbered place = d.movedTo (place line) := by
  cases d <;> rfl

theorem Goal.renumbered_of_lineless {goal : Goal} (h : goal.isLineless = true) :
    goal.renumbered place = goal := by
  cases goal <;> first | rfl | cases h

theorem Item.renumbered_movedTo (item : Item) :
    (item.movedTo line).renumbered place = item.movedTo (place line) := by
  cases item with
  | build step => rfl
  | await goal =>
    cases goal with
    | refusal d => exact congrArg (fun d => await (refusal d)) d.renumbered_movedTo
    | _ => rfl

theorem Reaction.renumbered_movedTo (reaction : Reaction) :
    (reaction.movedTo line).renumbered place = reaction.movedTo (place line) := by
  cases reaction with
  | take items =>
    simp only [Reaction.movedTo, Reaction.renumbered, List.map_map]
    congr 2
    funext item
    exact item.renumbered_movedTo
  | leave steps => rfl
  | fail d => exact congrArg fail d.renumbered_movedTo

end Places

/-! ## One token -/

section Token

variable {place : Nat → Nat} {token : Token} {agenda : List Item} {spine : Spine}
  {last total line : Nat} {goal : Goal} {reading next : Reading} {ctx : Context} {d : Diagnostic}

/-- Whether a value follows a `return` depends on whether both are on one line. -/
theorem onReturnValue_renumbered (hplace : Function.Injective place) :
    onReturnValue ctx (place line) (token.renumbered place) =
      (onReturnValue ctx line token).renumbered place := by
  have hself : onReturnValue ctx line token = (onReturnValue ctx line token).movedTo token.line :=
    @onReturnValue_movedTo ctx (.endOfInput line) (.endOfInput line) token _ fun _ => Iff.rfl
  have hmoved : onReturnValue ctx (place line) (token.renumbered place) =
      (onReturnValue ctx line token).movedTo (place token.line) :=
    @onReturnValue_movedTo ctx (.endOfInput line) (.endOfInput (place line)) token _
      fun _ => hplace.eq_iff.symm
  rw [hmoved, hself, Reaction.renumbered_movedTo, ← hself]

/-- What a goal makes of a token on a line with another number is what it makes of
the token, with the new number. -/
theorem react_renumbered (hplace : Function.Injective place) (goal : Goal) (token : Token) :
    (goal.renumbered place).react (token.renumbered place) =
      (goal.react token).renumbered place := by
  cases hgoal : goal.isLineless with
  | true =>
    have hself : goal.react token = (goal.react token).movedTo token.line := react_movedTo hgoal
    have hmoved : goal.react (token.renumbered place) =
        (goal.react token).movedTo (place token.line) := react_movedTo hgoal
    rw [Goal.renumbered_of_lineless hgoal, hmoved, hself, Reaction.renumbered_movedTo, ← hself]
  | false =>
    cases goal with
    | returnValue ctx line => exact onReturnValue_renumbered hplace
    | refusal d => rfl
    | _ => cases hgoal

theorem offer_renumbered (hplace : Function.Injective place) (agenda : List Item) (spine : Spine)
    (token : Token) : offer (agenda.map (Item.renumbered place)) spine (token.renumbered place) =
      Progress.renumbered place (offer agenda spine token) := by
  induction agenda generalizing spine with
  | nil => rfl
  | cons item agenda ih =>
    cases item with
    | build step => exact ih _
    | await goal =>
      rw [List.map_cons, Item.renumbered, offer, offer, react_renumbered hplace]
      cases goal.react token with
      | take items =>
        simp only [Reaction.renumbered, Progress.renumbered, Reading.renumbered, List.map_append]
      | leave steps => exact ih _
      | fail d => rfl

theorem refusal?_renumbered (h : refusal? agenda = some d) :
    refusal? (agenda.map (Item.renumbered place)) = some (d.renumbered place) := by
  induction agenda with
  | nil => cases h
  | cons item agenda ih =>
    cases item with
    | build step => exact ih h
    | await goal =>
      cases goal <;> cases h
      rfl

/-- At the end of the input a goal with another number does what it did, moved to
the new last line. -/
theorem react_endOfInput_renumbered (h : ∀ d, goal ≠ .refusal d) :
    (goal.renumbered place).react (.endOfInput total) =
      (goal.react (.endOfInput last)).movedTo total := by
  cases hgoal : goal.isLineless with
  | true =>
    have hmoved : goal.react ((Token.endOfInput last).movedTo total) = _ := react_movedTo hgoal
    rw [Goal.renumbered_of_lineless hgoal]
    exact hmoved
  | false =>
    cases goal with
    | returnValue ctx line => rfl
    | refusal d => exact absurd rfl (h d)
    | _ => cases hgoal

theorem offer_endOfInput_renumbered (hw : Willing agenda) :
    offer (agenda.map (Item.renumbered place)) spine (.endOfInput total) =
      Progress.movedTo total (offer agenda spine (.endOfInput last)) := by
  induction agenda generalizing spine with
  | nil => rfl
  | cons item agenda ih =>
    have hrest := Item.willing_of_suffix (List.suffix_cons item agenda) hw
    cases item with
    | build step => exact ih hrest
    | await goal =>
      have hreact : (goal.renumbered place).react (.endOfInput total) =
          (goal.react (.endOfInput last)).movedTo total :=
        react_endOfInput_renumbered (ne_refusal_of_willing hw List.mem_cons_self)
      rw [List.map_cons, Item.renumbered, offer, offer, hreact]
      cases hr : goal.react (.endOfInput last) with
      | take items => exact absurd hr (react_ne_take rfl goal items)
      | leave steps => exact ih hrest
      | fail d => rfl

end Token

/-! ## Many tokens -/

instance (d : Diagnostic) : Decidable d.AtEndOfInput :=
  inferInstanceAs (Decidable (d.subject? = some TokenKind.endOfInput.display))

/-- The finding with its new number: that of its line, or that of the last line if
it is about the end of the input. -/
def Diagnostic.placed (place : Nat → Nat) (total : Nat) (d : Diagnostic) : Diagnostic :=
  if d.AtEndOfInput then d.movedTo total else d.renumbered place

/-- What follows the last token, with its new number. -/
def Ending.placed (place : Nat → Nat) (total : Nat) : Ending → Ending
  | input _ => input total
  | fault d => fault (d.placed place total)

/-- The tokens and what follows them, with their new numbers. -/
def TokenStream.placed (place : Nat → Nat) (total : Nat) (stream : TokenStream) : TokenStream :=
  ⟨stream.tokens.map (Token.renumbered place), stream.ending.placed place total⟩

/-- Nothing is refused next, or a token that was taken is. -/
def Item.Ready (agenda : List Item) : Prop :=
  Willing agenda ∨
    ∃ d token, refusal? agenda = some d ∧ d.Describes token ∧ token.Classified

open Item (Ready)

section Tokens

variable {place : Nat → Nat} {total last : Nat} {reading next : Reading} {tokens : List Token}
  {token : Token} {ending : Ending} {d : Diagnostic}

theorem Diagnostic.atEndOfInput_of_lacksMore (h : d.LacksMore) : d.AtEndOfInput := by
  cases d with
  | expected what found line => exact congrArg some h
  | _ => exact h.elim

theorem Diagnostic.placed_of_describes (hc : token.Classified) (h : d.Describes token) :
    d.placed place total = d.renumbered place :=
  if_neg (Diagnostic.not_atEndOfInput hc h)

theorem placed_of_feed (hready : Ready reading.agenda) (hc : token.Classified)
    (h : reading.feed token = .error d) : d.placed place total = d.renumbered place := by
  rcases hready with hw | ⟨found, before, hr, hd, hbefore⟩
  · exact Diagnostic.placed_of_describes hc (describes_of_feed hw h)
  · have hsame : reading.feed token = .error found := offer_refusal hr
    rw [h] at hsame
    cases hsame
    exact Diagnostic.placed_of_describes hbefore hd

theorem ready_of_feed (hready : Ready reading.agenda) (hc : token.Classified)
    (h : reading.feed token = .ok (.taken next)) : Ready next.agenda := by
  rcases hready with hw | ⟨found, before, hr, -, -⟩
  · exact (willing_of_feed hw h).imp_right fun ⟨found, hr, hd⟩ => ⟨found, token, hr, hd, hc⟩
  · have hsame : reading.feed token = .error found := offer_refusal hr
    rw [h] at hsame
    cases hsame

/-- What a run comes to when the lines have other numbers. -/
def Reading.placed (place : Nat → Nat) (total : Nat)
    (result : Except Diagnostic (Spine × List Token)) : Except Diagnostic (Spine × List Token) :=
  (result.map (Prod.map id (List.map (Token.renumbered place)))).mapError
    (Diagnostic.placed place total)

theorem run_endOfInput_placed (hready : Ready reading.agenda) :
    (reading.renumbered place).run [] (.input total) =
      Reading.placed place total (reading.run [] (.input last)) := by
  rcases hready with hw | ⟨found, before, hr, hd, hbefore⟩
  · have hfeed : (reading.renumbered place).feed (.endOfInput total) =
        Progress.movedTo total (reading.feed (.endOfInput last)) := offer_endOfInput_renumbered hw
    rw [run, run, hfeed]
    cases hf : reading.feed (.endOfInput last) with
    | error d =>
      have hend := Diagnostic.atEndOfInput_of_lacksMore (lacksMore_of_feed hw hf)
      exact congrArg Except.error (if_pos hend).symm
    | ok progress => cases progress <;> rfl
  · have hrun : reading.run [] (.input last) = .error found := run_error (offer_refusal hr)
    have hrun' : (reading.renumbered place).run [] (.input total) =
        .error (found.renumbered place) := run_error (offer_refusal (refusal?_renumbered hr))
    rw [hrun, hrun', ← Diagnostic.placed_of_describes hbefore hd]
    rfl

/-- A run over lines with other numbers comes to what the run over the lines comes
to, with the other numbers. -/
theorem run_placed (hplace : Function.Injective place) (hready : Ready reading.agenda)
    (hc : ∀ token ∈ tokens, token.Classified) :
    (reading.renumbered place).run (tokens.map (Token.renumbered place))
        (ending.placed place total) =
      Reading.placed place total (reading.run tokens ending) := by
  induction tokens generalizing reading with
  | nil =>
    cases ending with
    | fault d => rfl
    | input last => exact run_endOfInput_placed hready
  | cons token tokens ih =>
    obtain ⟨htoken, hothers⟩ := List.forall_mem_cons.1 hc
    have hfeed : (reading.renumbered place).feed (token.renumbered place) =
        Progress.renumbered place (reading.feed token) := offer_renumbered hplace _ _ _
    rw [List.map_cons, run, run, hfeed]
    cases hf : reading.feed token with
    | error d => exact congrArg Except.error (placed_of_feed hready htoken hf).symm
    | ok progress =>
      cases progress with
      | finished spine => rfl
      | taken next => exact ih (ready_of_feed hready htoken hf) hothers

end Tokens

/-! ## Programs -/

/-- A program whose lines have other numbers is the same program, or the same thing
is wrong with it. -/
theorem ofStream_placed {place : Nat → Nat} (hplace : Function.Injective place) (total : Nat)
    {stream : TokenStream} (hc : ∀ token ∈ stream.tokens, token.Classified) (enforced : Bool) :
    Program.ofStream enforced (stream.placed place total) =
      (Program.ofStream enforced stream).mapError (Diagnostic.placed place total) := by
  have hready : Ready (ofProgram enforced).agenda := .inl rfl
  have hrun : (ofProgram enforced).run (stream.placed place total).tokens
      (stream.placed place total).ending =
        Reading.placed place total ((ofProgram enforced).run stream.tokens stream.ending) :=
    run_placed hplace hready hc
  unfold Program.ofStream
  rw [hrun]
  cases (ofProgram enforced).run stream.tokens stream.ending <;> rfl

end Pseudocode
