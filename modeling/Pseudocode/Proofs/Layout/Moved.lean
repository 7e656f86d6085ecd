-- Tokens on other lines. A goal looks at the kind and the text of a token, and
-- puts its line only into what it reports and into what it awaits next, so what
-- it makes of a moved token is what it makes of the token, moved.
import Pseudocode.Program.Reading
import Pseudocode.Proofs.Reaction.Exact

namespace Pseudocode

open Goal Reaction Reading

/-! ## Other lines -/

namespace Token

/-- The same token on another line. -/
def movedTo (token : Token) (line : Nat) : Token := { token with line := line }

variable {token : Token} {line : Nat}

@[simp] theorem kind_movedTo : (token.movedTo line).kind = token.kind := rfl

@[simp] theorem text_movedTo : (token.movedTo line).text = token.text := rfl

@[simp] theorem line_movedTo : (token.movedTo line).line = line := rfl

/-- A token with the kind and the text of another is the other one, moved. -/
theorem eq_movedTo {token' : Token} (hk : token'.kind = token.kind)
    (ht : token'.text = token.text) : token' = token.movedTo token'.line := by
  obtain ⟨kind, text, line⟩ := token'
  cases hk
  cases ht
  rfl

end Token

/-- The same finding about another line. One without a line stays as it is. -/
def Diagnostic.movedTo (d : Diagnostic) (line : Nat) : Diagnostic :=
  match d with
  | file fault => file fault
  | reading fault => reading fault
  | unknownToken text _ => unknownToken text line
  | unterminatedString _ => unterminatedString line
  | invalidNumber text _ => invalidNumber text line
  | expected what found _ => expected what found line
  | unexpectedToken text _ => unexpectedToken text line
  | misplaced what _ => misplaced what line

/-- The same goal for a token that came before on another line. -/
def Goal.movedTo (goal : Goal) (line : Nat) : Goal :=
  match goal with
  | returnValue ctx _ => returnValue ctx line
  | refusal d => refusal (d.movedTo line)
  | goal => goal

def Item.movedTo (line : Nat) : Item → Item
  | await goal => await (goal.movedTo line)
  | build step => build step

/-- The same reaction to a token on another line. -/
def Reaction.movedTo (reaction : Reaction) (line : Nat) : Reaction :=
  match reaction with
  | take items => take (items.map (Item.movedTo line))
  | leave steps => leave steps
  | fail d => fail (d.movedTo line)

/-! ## Goals without a line -/

/-- Whether a goal has no line to remember. -/
def Goal.isLineless : Goal → Bool
  | returnValue _ _ | refusal _ => false
  | _ => true

namespace Item

/-- Whether an item has no line to remember. -/
def isLineless : Item → Bool
  | await goal => goal.isLineless
  | build _ => true

/-- No item has a line to remember. -/
def Lineless (items : List Item) : Prop := items.all isLineless = true

variable {items others : List Item} {goal : Goal} {line : Nat}

theorem lineless_cons :
    Lineless (await goal :: items) ↔ goal.isLineless = true ∧ Lineless items := by
  unfold Lineless
  rw [List.all_cons, Bool.and_eq_true]
  exact Iff.rfl

theorem lineless_append : Lineless (items ++ others) ↔ Lineless items ∧ Lineless others := by
  unfold Lineless
  rw [List.all_append, Bool.and_eq_true]

theorem movedTo_of_lineless {item : Item} (h : item.isLineless = true) :
    item.movedTo line = item := by
  cases item with
  | build step => rfl
  | await goal => cases goal <;> first | rfl | cases h

/-- Items without a line are the same for every line. -/
theorem map_movedTo (h : Lineless items) : items.map (movedTo line) = items := by
  rw [List.map_congr_left fun item hi => movedTo_of_lineless (List.all_eq_true.1 h item hi),
    List.map_id'']
  exact fun item => rfl

end Item

open Item (Lineless)

/-! ## Reactions to a moved token -/

section Reactions

variable {token : Token} {line level : Nat} {reaction reaction' : Reaction} {ctx : Context}

theorem movedTo_wrapped {before after : List Item} (hb : Lineless before) (ha : Lineless after)
    (h : reaction' = reaction.movedTo line) :
    reaction'.wrapped before after = (reaction.wrapped before after).movedTo line := by
  subst h
  cases reaction with
  | take items =>
    simp only [wrapped, Reaction.movedTo, List.map_append, Item.map_movedTo hb, Item.map_movedTo ha]
  | leave steps => rfl
  | fail d => rfl

theorem movedTo_followed {after : List Item} (ha : Lineless after)
    (h : reaction' = reaction.movedTo line) :
    reaction'.followed after = (reaction.followed after).movedTo line :=
  movedTo_wrapped rfl ha h

theorem movedTo_guarded {first : Nat} (fault : Option Misplacement)
    (h : reaction' = reaction.movedTo line) :
    guarded fault line reaction' = (guarded fault first reaction).movedTo line := by
  subst h
  cases fault <;> rfl

theorem movedTo_takeUnless {items items' : List Item} (fault : Option Misplacement)
    (h : items' = items.map (Item.movedTo line)) :
    takeUnless (onLineOf (token.movedTo line) fault) items' =
      (takeUnless (onLineOf token fault) items).movedTo line := by
  subst h
  cases fault <;> rfl

theorem movedTo_take {items : List Item} (h : Lineless items) :
    take items = (take items).movedTo line := by
  rw [Reaction.movedTo, Item.map_movedTo h]

theorem literalLabel_movedTo (h : token.kind.isLiteral = true) :
    literalLabel (token.movedTo line) = (literalLabel token).mapError (·.movedTo line) := by
  obtain ⟨kind, text, first⟩ := token
  change literalLabel ⟨kind, text, line⟩ = (literalLabel ⟨kind, text, first⟩).mapError _
  cases kind <;> cases h <;> simp only [literalLabel]
  case intLiteral | realLiteral => split <;> rfl
  all_goals rfl

theorem lineless_suffix {kind : TokenKind} {items : List Item} (h : suffix? kind = some items) :
    Lineless items := by
  cases kind <;> cases h <;> rfl

/-! ### Rules for a moved token -/

variable {opening : Opening} {items : List Item} {goal : Goal} {steps : List Step}
  {what : Expectation}

theorem Opening.Takes.lineless (h : opening.Takes token items) : Lineless items := by
  cases h with
  | suffix hs | chainSuffix hs => exact Item.lineless_append.2 ⟨lineless_suffix hs, rfl⟩
  | _ => rfl

theorem Opening.Takes.movedTo (h : opening.Takes token items) :
    opening.Takes (token.movedTo line) items := by
  cases h <;> constructor <;> assumption

theorem Opening.Leaves.movedTo (h : Opening.Leaves token goal steps)
    (hg : goal.isLineless = true) : Opening.Leaves (token.movedTo line) goal steps := by
  cases h with
  | returnValue => cases hg
  | _ => constructor <;> assumption

theorem Opening.Lacks.movedTo (h : opening.Lacks token what) :
    opening.Lacks (token.movedTo line) what := by
  cases h with
  | other hd hk => exact .other hd hk
  | indices hk => exact .indices hk
  | assign hs hk hc => exact .assign hs hk hc
  | counterAgain hk => exact .counterAgain hk
  | endSwitch hk => exact .endSwitch hk
  | endClass hk => exact .endClass hk
  | block hs hk => exact .block hs hk
  | mark hk => exact .mark hk

theorem Opening.Reacts.congr {reaction' : Reaction} (h : opening.Reacts token reaction)
    (heq : reaction = reaction') : opening.Reacts token reaction' := heq ▸ h

/-- The rules that apply to a moved token are those that apply to the token. -/
theorem Opening.Reacts.movedTo (h : opening.Reacts token reaction)
    (ho : opening.Asks fun goal => goal.isLineless = true) :
    opening.Reacts (token.movedTo line) (reaction.movedTo line) := by
  induction h with
  | taken h => exact .congr (.taken h.movedTo) (movedTo_take h.lineless)
  | left h => exact .left (h.movedTo ho)
  | lacking h => exact .lacking h.movedTo
  | unexpected hk => exact .unexpected hk
  | refusal | returnValue => cases ho
  | literal hk hl =>
    refine .literal hk ?_
    rw [literalLabel_movedTo (isLiteral_of_literals hk), hl]
    rfl
  | outOfRange hk hl =>
    refine .outOfRange hk ?_
    rw [literalLabel_movedTo (isLiteral_of_literals hk), hl]
    rfl
  | caseClause hk => exact .congr (.caseClause hk) (movedTo_guarded _ (movedTo_take rfl))
  | defaultClause hk => exact .congr (.defaultClause hk) (movedTo_guarded _ (movedTo_take rfl))
  | function hk => exact .congr (.function hk) (movedTo_guarded _ (movedTo_take rfl))
  | procedure hk => exact .congr (.procedure hk) (movedTo_guarded _ (movedTo_take rfl))
  | classDecl hk => exact .congr (.classDecl hk) (movedTo_guarded _ (movedTo_take rfl))
  | returnStatement hk => exact .congr (.returnStatement hk) (movedTo_takeUnless _ rfl)
  | breakStatement hk => exact .congr (.breakStatement hk) (movedTo_takeUnless _ rfl)
  | continueStatement hk => exact .congr (.continueStatement hk) (movedTo_takeUnless _ rfl)
  | base hk _ ih => exact .base hk (ih trivial)
  | globalChain hk _ ih => exact .globalChain hk (ih trivial)
  | chainStatement hk _ ih => exact .chainStatement hk (ih trivial)
  | subroutineStatement _ ih => exact .subroutineStatement (ih trivial)
  | parameters hk _ ih => exact .parameters hk (ih rfl)
  | chain _ ih => exact .congr (.chain (ih trivial)) (movedTo_followed rfl rfl)
  | primary hk _ ih => exact .congr (.primary hk (ih trivial)) (movedTo_followed rfl rfl)
  | unary hk _ ih => exact .congr (.unary hk (ih rfl)) (movedTo_followed rfl rfl)
  | arguments hk _ ih => exact .congr (.arguments hk (ih rfl)) (movedTo_followed rfl rfl)
  | indices hk _ ih => exact .congr (.indices hk (ih rfl)) (movedTo_followed rfl rfl)
  | subroutineMember _ ih =>
    exact .congr (.subroutineMember (ih trivial)) (movedTo_wrapped rfl rfl rfl)
  | unmarkedMember hk _ ih => exact .congr (.unmarkedMember hk (ih rfl)) (movedTo_followed rfl rfl)
  | block hs hk _ ih => exact .congr (.block hs hk (ih trivial)) (movedTo_followed rfl rfl)
  | program hk _ ih => exact .congr (.program hk (ih trivial)) (movedTo_followed rfl rfl)

/-- What a goal without a line makes of a moved token is what it makes of the
token, moved. -/
theorem react_movedTo (h : goal.isLineless = true) :
    goal.react (token.movedTo line) = (goal.react token).movedTo line :=
  Opening.reacts_goal_iff.1 ((Opening.reacts_goal_iff.2 rfl).movedTo h)

end Reactions

end Pseudocode
