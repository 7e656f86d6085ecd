-- What the agenda of a program is like after a token. It ends with the program
-- itself, and the goals before it remember no line, unless the token was a
-- `return`: then the first of them has to see on which line the next token is.
import Pseudocode.Proofs.Diagnosis.Located
import Pseudocode.Proofs.Layout.Moved

namespace Pseudocode

open Goal Reaction Reading
open Item (Willing)

/-! ## Goals within a statement -/

/-- Whether a goal that has no line to remember can come up within a statement.
A block is ended by a token there, not by the end of the input. -/
def Goal.isInner : Goal → Bool
  | program _ | returnValue _ _ | refusal _ => false
  | block _ stops => !stops.contains .endOfInput
  | _ => true

namespace Item

/-- Whether an item can come up within a statement. -/
def isInner : Item → Bool
  | await goal => goal.isInner
  | build _ => true

/-- All items can come up within a statement. -/
def Inner (items : List Item) : Prop := items.all isInner = true

variable {items others : List Item} {goal : Goal}

theorem inner_append : Inner (items ++ others) ↔ Inner items ∧ Inner others := by
  unfold Inner
  rw [List.all_append, Bool.and_eq_true]

theorem inner_cons : Inner (.await goal :: items) ↔ goal.isInner = true ∧ Inner items := by
  unfold Inner
  rw [List.all_cons, Bool.and_eq_true]
  exact Iff.rfl

theorem Inner.of_suffix (hs : items <:+ others) (h : Inner others) : Inner items := by
  obtain ⟨front, rfl⟩ := hs
  exact (inner_append.1 h).2

theorem inner_builds (steps : List Step) : Inner (steps.map build) := by
  simp [Inner, isInner]

theorem lineless_of_inner (h : Inner items) : Lineless items := by
  unfold Lineless
  rw [List.all_eq_true]
  intro item hi
  have hinner := List.all_eq_true.1 h item hi
  cases item with
  | build step => rfl
  | await goal => cases goal <;> first | rfl | cases hinner

theorem willing_of_lineless (h : Lineless items) : Willing items := by
  unfold Willing
  rw [List.all_eq_true]
  intro item hi
  have hlineless := List.all_eq_true.1 h item hi
  cases item with
  | build step => rfl
  | await goal => cases goal <;> first | rfl | cases hlineless

end Item

open Item (Inner Lineless)

/-! ## What is taken up within a statement -/

namespace Reaction

/-- What is taken up, if no refusal is in it, can come up within a statement. -/
def StaysInner : Reaction → Prop
  | take items => Willing items → Inner items
  | _ => True

variable {reaction : Reaction} {after : List Item}

theorem staysInner_wrapped (before : List Step) (ha : Inner after) (h : reaction.StaysInner) :
    (reaction.wrapped (before.map .build) after).StaysInner := by
  cases reaction with
  | leave steps => trivial
  | fail d => trivial
  | take items =>
    intro hw
    rw [Item.willing_append, Item.willing_append] at hw
    rw [Item.inner_append, Item.inner_append]
    exact ⟨⟨Item.inner_builds before, h hw.1.2⟩, ha⟩

theorem staysInner_followed (ha : Inner after) (h : reaction.StaysInner) :
    (reaction.followed after).StaysInner :=
  staysInner_wrapped [] ha h

theorem staysInner_guarded {fault : Option Misplacement} {line : Nat} (h : reaction.StaysInner) :
    (guarded fault line reaction).StaysInner := by
  cases fault with
  | none => exact h
  | some what => trivial

theorem staysInner_take {items : List Item} (h : Inner items) : (take items).StaysInner :=
  fun _ => h

theorem staysInner_refusal (d : Diagnostic) : (take [.await (.refusal d)]).StaysInner :=
  fun hw => absurd hw Bool.false_ne_true

end Reaction

/-- Where a statement can begin, the token is no `return`. -/
def Opening.AvoidsReturn (token : Token) : Opening → Prop
  | statement _ | goal (.block _ _) => token.kind ≠ .kwReturn
  | _ => True

section Reactions

variable {token : Token} {ctx : Context} {opening : Opening} {items : List Item}
  {reaction : Reaction}

theorem staysInner_takeUnless {fault : Option Diagnostic} (h : Inner items) :
    (takeUnless fault items).StaysInner := by
  cases fault with
  | none => exact staysInner_take h
  | some d => exact staysInner_refusal d

theorem inner_suffix {kind : TokenKind} (h : suffix? kind = some items) : Inner items := by
  cases kind <;> cases h <;> rfl

theorem Opening.Takes.inner (h : opening.Takes token items) : Inner items := by
  cases h with
  | suffix hs | chainSuffix hs => exact Item.inner_append.2 ⟨inner_suffix hs, rfl⟩
  | @subroutineName _ sort => cases sort <;> rfl
  | _ => rfl

/-- Only a `return` brings up what remembers a line. -/
theorem staysInner_of_reacts (h : opening.Reacts token reaction)
    (ho : opening.Asks fun goal => goal.isInner = true) (hr : opening.AvoidsReturn token) :
    reaction.StaysInner := by
  induction h with
  | taken h => exact staysInner_take h.inner
  | left | lacking | unexpected | refusal => trivial
  | literal => exact staysInner_take rfl
  | outOfRange => exact staysInner_refusal _
  | caseClause | defaultClause | function | procedure | classDecl =>
    exact staysInner_guarded (staysInner_take rfl)
  | returnStatement hk => exact absurd hk hr
  | breakStatement | continueStatement => exact staysInner_takeUnless rfl
  | returnValue | program => cases ho
  | base _ _ ih | globalChain _ _ ih | chainStatement _ _ ih | subroutineStatement _ ih =>
    exact ih trivial trivial
  | parameters _ _ ih => exact ih rfl trivial
  | subroutineMember _ ih => exact staysInner_wrapped [_] rfl (ih trivial trivial)
  | chain _ ih | primary _ _ ih => exact staysInner_followed rfl (ih trivial trivial)
  | unary _ _ ih | arguments _ _ ih | indices _ _ ih | unmarkedMember _ _ ih =>
    exact staysInner_followed rfl (ih rfl trivial)
  | block _ _ _ ih => exact staysInner_followed (Item.inner_cons.2 ⟨ho, rfl⟩) (ih trivial hr)

/-- A goal within a statement takes up what can come up there, a block with a
`return` apart. -/
theorem react_staysInner {goal : Goal} (h : goal.isInner = true)
    (hr : ∀ ctx stops, goal = .block ctx stops → token.kind ≠ .kwReturn) :
    (goal.react token).StaysInner := by
  refine staysInner_of_reacts (Opening.reacts_goal_iff.2 rfl) h ?_
  cases goal with
  | block ctx stops => exact hr ctx stops rfl
  | _ => trivial

theorem staysInner_onReturnValue {line : Nat} : (onReturnValue ctx line token).StaysInner := by
  have hr : Opening.Reacts token (.goal (.returnValue ctx line)) (onReturnValue ctx line token) :=
    Opening.reacts_goal_iff.2 rfl
  generalize onReturnValue ctx line token = reaction at hr
  cases hr with
  | taken h => exact staysInner_take h.inner
  | left | lacking => trivial
  | literal hk | outOfRange hk => cases hk
  | returnValue _ _ hexpression =>
    have hinner := staysInner_of_reacts hexpression rfl trivial
    exact staysInner_guarded (staysInner_wrapped [_] rfl hinner)

/-- A `return` that is not refused waits for the next token. -/
theorem taken_of_return (h : token.kind = .kwReturn)
    (hr : onStatement ctx token = .take items) (hw : Willing items) :
    items = [.await (.returnValue ctx token.line)] := by
  have heq : onStatement ctx token = _ := (Opening.Reacts.returnStatement h).react_eq
  rw [heq] at hr
  cases hf : ctx.returnFault with
  | none =>
    rw [hf] at hr
    exact (Reaction.take.inj hr).symm
  | some what =>
    rw [hf] at hr
    cases hr
    cases hw

end Reactions

/-! ## The agenda of a program -/

/-- What is still awaited when a program is read as far as the token. -/
inductive Underway (ctx : Context) (token : Token) : List Item → Prop
  | within {front} : Inner front → Underway ctx token (front ++ [.await (.program ctx)])
  | behindReturn {ctx' front} : token.kind = .kwReturn → Inner front →
      Underway ctx token
        (.await (.returnValue ctx' token.line) :: (front ++ [.await (.program ctx)]))

namespace Underway

variable {ctx : Context} {before token : Token} {agenda behind items front : List Item}
  {reading next : Reading} {goal : Goal}

/-- Nothing has been read. -/
theorem start : Underway ctx token [.await (.program ctx)] := by
  have hnil : Inner [] := rfl
  exact within hnil

theorem lineless_within (ctx : Context) (h : Inner front) :
    Lineless (front ++ [.await (.program ctx)]) :=
  Item.lineless_append.2 ⟨Item.lineless_of_inner h, rfl⟩

theorem willing (h : Underway ctx token agenda) : Willing agenda := by
  cases h with
  | within hf => exact Item.willing_of_lineless (lineless_within ctx hf)
  | behindReturn _ hf =>
    have hw := Item.willing_of_lineless (lineless_within ctx hf)
    exact hw

/-- A statement has been begun in front of what is still awaited. -/
theorem of_onStatement {ctx' : Context} (hs : onStatement ctx' token = .take items)
    (hw : Willing items) (hf : Inner front) :
    Underway ctx token (items ++ (front ++ [.await (.program ctx)])) := by
  by_cases hk : token.kind = .kwReturn
  · rw [taken_of_return hk hs hw]
    exact behindReturn hk hf
  · have hi := staysInner_of_reacts (Opening.reacts_statement ctx' token) trivial hk
    rw [hs] at hi
    rw [← List.append_assoc]
    exact within (Item.inner_append.2 ⟨hi hw, hf⟩)

/-- Of what is still awaited, a goal and all behind it is the program itself, or
some goal within its statements. -/
theorem suffix_cases (hs : .await goal :: behind <:+ front ++ [.await (.program ctx)]) :
    (goal = .program ctx ∧ behind = []) ∨
      ∃ left, .await goal :: left <:+ front ∧ behind = left ++ [.await (.program ctx)] := by
  rcases List.suffix_concat_iff.1 hs with hnil | ⟨left, heq, hleft⟩
  · cases hnil
  · cases left with
    | nil =>
      cases heq
      exact .inl ⟨rfl, rfl⟩
    | cons item left =>
      cases heq
      exact .inr ⟨left, hleft, rfl⟩

/-- A goal within the statements of a program takes a token. -/
theorem of_take (hf : Inner front) (hs : .await goal :: behind <:+ front ++ [.await (.program ctx)])
    (hr : goal.react token = .take items) (hw : Willing items) :
    Underway ctx token (items ++ behind) := by
  rcases suffix_cases hs with ⟨rfl, rfl⟩ | ⟨left, hleft, rfl⟩
  · obtain ⟨begun, hb, rfl⟩ := Opening.take_of_program hr
    have hnil : Inner [] := rfl
    rw [List.append_nil]
    exact of_onStatement hb (Item.willing_append.1 hw).1 hnil
  · have hinner := hf.of_suffix hleft
    obtain ⟨hgoal, hbehind⟩ := Item.inner_cons.1 hinner
    by_cases hblock : ∃ ctx' stops, goal = .block ctx' stops
    · obtain ⟨ctx', stops, rfl⟩ := hblock
      obtain ⟨begun, hb, rfl⟩ := Opening.take_of_block hr
      rw [List.append_assoc]
      exact of_onStatement hb (Item.willing_append.1 hw).1 hinner
    · have hstays : (goal.react token).StaysInner :=
        react_staysInner hgoal fun ctx' stops h => absurd ⟨ctx', stops, h⟩ hblock
      rw [hr] at hstays
      rw [← List.append_assoc]
      exact within (Item.inner_append.2 ⟨hstays hw, hbehind⟩)

/-- The agenda of a program stays so with every token, unless the token is
taken only to be refused. -/
theorem of_feed (h : Underway ctx before reading.agenda)
    (hf : reading.feed token = .ok (.taken next)) (hw : Willing next.agenda) :
    Underway ctx token next.agenda := by
  obtain ⟨goal, items, behind, hs, hr, hn⟩ := take_of_offer hf
  rw [hn] at hw ⊢
  have hitems := (Item.willing_append.1 hw).1
  generalize reading.agenda = agenda at h hs
  cases h with
  | within hinner => exact of_take hinner hs hr hitems
  | behindReturn hk hinner =>
    rcases List.suffix_cons_iff.1 hs with heq | hs
    · cases heq
      have hstays : (take items).StaysInner := by
        rw [← hr]
        exact staysInner_onReturnValue
      rw [← List.append_assoc]
      exact within (Item.inner_append.2 ⟨hstays hitems, hinner⟩)
    · exact of_take hinner hs hr hitems

end Underway

end Pseudocode
