-- The canonical text of an expression is read as the expression. An operator
-- applied to operands is read so only as a whole; everything else is a chain,
-- which may stand at every place.
import Pseudocode.Proofs.Canonical.Literal

namespace Pseudocode

open Fragment (digitNext isName isNameStart)
open Node (parenthesized listed expressions operandAt object argumentsAt)
open Phrase (leftOperand rightOperand)
open Relation (Comp)

/-- A phrase is in front. -/
abbrev Makes (phrase : Phrase) (ns : List Node) : TokenRel := fun ts us => phrase.Derives ts ns us

/-- A whole expression is in front. -/
abbrev MakesWhole (e : Node) : TokenRel := Makes (.expression Phrase.lowestLevel) [e]

/-! ## Chains stand everywhere -/

section Chains

variable {ts us : List Token} {e : Node}

theorem expression_of_chain (h : Phrase.Derives (.chain true) ts [e] us) (level : Nat) :
    Phrase.Derives (.expression level) ts [e] us :=
  .ofOperation (.ofUnary (.ofChain h))

theorem leftOperand_of_chain (h : Phrase.Derives (.chain true) ts [e] us) (level : Nat) :
    Phrase.Derives (leftOperand level) ts [e] us := by
  unfold leftOperand
  split
  · exact .ofChain h
  · split
    · exact expression_of_chain h level
    · exact .ofUnary (.ofChain h)

theorem rightOperand_of_chain (h : Phrase.Derives (.chain true) ts [e] us) (level : Nat) :
    Phrase.Derives (rightOperand level) ts [e] us := by
  unfold rightOperand
  split
  · exact expression_of_chain h _
  · exact expression_of_chain h _

end Chains

/-! ## Parts of expressions -/

/-- The text of the expression is read as the expression, as a chain unless it
is an operator applied to operands. -/
def Legible (isFree : Bool) (e : Node) : Prop :=
  Open (Makes (if e.isCompound then .expression Phrase.lowestLevel else .chain isFree) [e])
    e.expression

/-- The text of what stands before a suffix is read as a chain. -/
abbrev LegibleObject (isFree : Bool) (l : Node) : Prop :=
  Open (Makes (.chain isFree) [l]) (parenthesized (l.isCompound || l.isNumber) l.expression)

section Parts

variable {isFree : Bool} {e : Node} {text name : String} {r : TokenRel}

theorem Legible.of_chain (he : e.isCompound = false)
    (h : Open (Makes (.chain isFree) [e]) e.expression) : Legible isFree e := by
  unfold Legible
  rwa [he]

theorem Legible.of_whole (he : e.isCompound = true) (h : Open (MakesWhole e) e.expression) :
    Legible isFree e := by
  unfold Legible
  rwa [he]

/-- A chain is read as a chain. -/
theorem Legible.chain (he : e.isCompound = false) (h : Legible isFree e) :
    Open (Makes (.chain isFree) [e]) e.expression := by
  unfold Legible at h
  rwa [he] at h

/-- Every expression is read as a whole. -/
theorem Legible.whole (h : Legible true e) : Open (MakesWhole e) e.expression := by
  cases he : e.isCompound with
  | false => exact (h.chain he).mono fun _ _ hd => expression_of_chain hd _
  | true =>
    unfold Legible at h
    rwa [he] at h

/-- In parentheses every expression is a chain. -/
theorem open_parenthesized (h : Open (MakesWhole e) text) :
    Open (Makes (.chain true) [e]) (parenthesized true text) := by
  have hopen : Closed (Word .openParen) "(" := closed_mark (by decide)
  have hclose : TokenKind.closeParen ∈ marks := by decide
  apply (Open.mark (hopen.append h) hclose).toOpen.mono
  rintro ts us ⟨_, ⟨_, ⟨opening, rfl, ho⟩, he⟩, closing, rfl, hc⟩
  exact .parenthesized ho hc he

/-- An operand is a chain, by its parentheses if it is none itself. -/
theorem Legible.operand (h : Legible true e) :
    Open (Makes (.chain true) [e]) (parenthesized e.isCompound e.expression) := by
  cases he : e.isCompound with
  | false => exact h.chain he
  | true => exact open_parenthesized h.whole

/-- What a field, an index or a call is applied to is a chain. -/
theorem Legible.object (h : Legible isFree e)
    (hfree : (e.isCompound || e.isNumber) = true → isFree = true) : LegibleObject isFree e := by
  unfold LegibleObject
  cases he : (e.isCompound || e.isNumber) with
  | false =>
    rw [Bool.or_eq_false_iff] at he
    exact h.chain he.1
  | true =>
    rw [hfree he] at h ⊢
    exact open_parenthesized h.whole

theorem digitNext_of_isName {cs : List Char} (h : isName cs = true) (rest : List Char) :
    digitNext (cs ++ rest) = false := by
  cases cs with
  | nil => cases h
  | cons c cs =>
    unfold isName at h
    rw [Bool.and_eq_true] at h
    exact not_isDigit_of_isNameStart h.1

/-- The name of a field or of a subroutine. -/
abbrev MemberName (name : String) : TokenRel :=
  One fun token => (token.kind = .identifier ∨ token.kind = .kwNew) ∧ token.text = name

theorem open_memberName (h : IsMemberName name) : Open (MemberName name) name := by
  rcases h with h | rfl
  · refine (open_name h).mono ?_
    rintro ts us ⟨token, rfl, hk, ht⟩
    exact ⟨token, rfl, .inl hk, ht⟩
  · exact ⟨[.spelled .kwNew], fun rest => spells_keyword (by decide),
      fun line us => ⟨_, rfl, .inr rfl, rfl⟩⟩

theorem isName_of_isMemberName (h : IsMemberName name) : isName name.toList = true := by
  rcases h with h | rfl
  · exact h.1
  · decide

/-- A member of what is in front. -/
theorem Open.member (h : Open r text) (hn : IsMemberName name) :
    Open (Comp (Comp r (Word .dot)) (MemberName name)) (text ++ "." ++ name) := by
  have hdot : ReadsAs (fun rest => digitNext rest = false) (Word .dot) "." :=
    ⟨[.spelled .dot], fun rest hrest => spells_dot hrest, fun _ _ => ⟨_, rfl, rfl⟩⟩
  have hobject := ReadsAs.append h hdot fun rest hrest => breaks_dot hrest
  exact ReadsAs.append hobject (open_memberName hn)
    fun rest _ => digitNext_of_isName (isName_of_isMemberName hn) rest

end Parts

/-! ## Lists -/

section Lists

variable {e : Node} {es : List Node} {a b : String} {items : List String} {r s : TokenRel}

/-- One item and a comma come before the other items. -/
theorem open_listed_cons (h : Open r a) (h' : Open s (listed (b :: items))) :
    Open (Comp (Comp r (Word .comma)) s) (listed (a :: b :: items)) := by
  have hcomma : Closed (Comp r (Word .comma)) (a ++ ",") := h.mark (by decide)
  have htext : listed (a :: b :: items) = a ++ "," ++ " " ++ listed (b :: items) := by
    unfold listed
    rw [String.intercalate_cons_cons]
    simp only [String.append_assoc]
    rfl
  rw [htext]
  exact (ReadsAs.blank hcomma fun _ => trivial).append h'

theorem open_expressions (h : ∀ n ∈ e :: es, Open (MakesWhole n) n.expression) :
    Open (Makes .expressions (e :: es)) (listed (expressions (e :: es))) := by
  induction es generalizing e with
  | nil =>
    have htext : listed (expressions [e]) = e.expression := String.intercalate_singleton
    rw [htext]
    exact (h e (by simp)).mono fun ts us he => .first he .noMore
  | cons e' es ih =>
    have hothers := ih fun n hn => h n (List.mem_cons_of_mem e hn)
    apply (open_listed_cons (h e (by simp)) hothers).mono
    rintro ts us ⟨_, ⟨_, he, comma, rfl, hc⟩, hes⟩
    cases hes with
    | first he' hmore => exact .first he (.more hc he' hmore)

theorem open_arguments (h : ∀ n ∈ es, Open (MakesWhole n) n.expression) :
    Open (Makes .arguments es) (listed (expressions es)) := by
  cases es with
  | nil =>
    have htext : listed (expressions []) = "" := String.intercalate_nil
    rw [htext]
    apply closed_empty.toOpen.mono
    rintro ts us rfl
    exact .noArguments
  | cons e es => exact (open_expressions h).mono fun ts us hes => .ofExpressions hes

end Lists

/-! ## Expressions -/

section Expressions

variable {isFree : Bool} {e l r : Node} {es : List Node} {name : String} {kind : TokenKind}
  {level : Nat} {label : Label}

theorem legible_literal (h : e.Formed .literal) : Legible true e := by
  obtain ⟨label, rfl, he, hl⟩ := open_literal h
  refine .of_chain he ?_
  apply hl.mono
  rintro ts us ⟨token, rfl, hv⟩
  exact .literal hv

theorem legible_identifier (h : IsIdentifier name) :
    Legible isFree (.tree (.identifier name) []) := by
  apply Legible.of_chain rfl
  apply (open_name h).mono
  rintro ts us ⟨token, rfl, hk, rfl⟩
  exact .identifier hk

theorem legible_super : Legible isFree (.tree .superObject []) := by
  have hword : TokenKind.kwSuper ∈ keywords := by decide
  apply Legible.of_chain rfl
  apply (open_keyword hword).mono
  rintro ts us ⟨token, rfl, hk⟩
  exact .superObject hk

theorem legible_newObject (hn : IsIdentifier name)
    (h : ∀ n ∈ es, Open (MakesWhole n) n.expression) :
    Legible isFree (.tree (.newObject name) [.tree .args es]) := by
  have hword : TokenKind.kwNew ∈ keywords := by decide
  have hopen : TokenKind.openParen ∈ marks := by decide
  have hclose : TokenKind.closeParen ∈ marks := by decide
  have hname := (open_keyword hword).blank.append (open_name hn)
  have hall := ((hname.mark hopen).append (open_arguments h)).mark hclose
  apply Legible.of_chain rfl
  apply hall.toOpen.mono
  rintro ts us ⟨_, ⟨_, ⟨_, ⟨_, ⟨new, rfl, hk⟩, token, rfl, hi, rfl⟩, opening, rfl, ho⟩, hes⟩,
    closing, rfl, hc⟩
  exact .newObject hk hi ho hc hes

theorem legible_field (hn : IsMemberName name) (h : LegibleObject isFree l) :
    Legible isFree (.tree (.field name) [l]) := by
  apply Legible.of_chain rfl
  apply (h.member hn).mono
  rintro ts us ⟨_, ⟨_, hl, dot, rfl, hd⟩, token, rfl, hk, rfl⟩
  exact .field hd hk hl

theorem legible_index (hne : es ≠ []) (hl : LegibleObject isFree l)
    (h : ∀ n ∈ es, Open (MakesWhole n) n.expression) :
    Legible isFree (.tree .index [l, .tree .args es]) := by
  have hopen : TokenKind.openBracket ∈ marks := by decide
  have hclose : TokenKind.closeBracket ∈ marks := by decide
  obtain ⟨first, others, rfl⟩ := List.exists_cons_of_ne_nil hne
  have hall := ((hl.mark hopen).append (open_expressions h)).mark hclose
  apply Legible.of_chain rfl
  simp only [Node.expression, object, argumentsAt]
  apply hall.toOpen.mono
  rintro ts us ⟨_, ⟨_, ⟨_, hl, opening, rfl, ho⟩, hes⟩, closing, rfl, hc⟩
  exact .index ho hc hl hes

theorem legible_call (hl : LegibleObject isFree l)
    (h : ∀ n ∈ es, Open (MakesWhole n) n.expression) :
    Legible isFree (.tree .call [l, .tree .args es]) := by
  have hopen : TokenKind.openParen ∈ marks := by decide
  have hclose : TokenKind.closeParen ∈ marks := by decide
  have hall := ((hl.mark hopen).append (open_arguments h)).mark hclose
  apply Legible.of_chain rfl
  simp only [Node.expression, object, argumentsAt]
  apply hall.toOpen.mono
  rintro ts us ⟨_, ⟨_, ⟨_, hl, opening, rfl, ho⟩, hes⟩, closing, rfl, hc⟩
  exact .call ho hc hl hes

/-- An operator node is compound, no less than a whole expression, and has its
operator between its operands. -/
theorem operator_node (h : Phrase.Operates kind level label) (l r : Node) :
    (Node.tree label [l, r]).isCompound = true ∧ Phrase.lowestLevel ≤ level ∧
      (Node.tree label [l, r]).expression =
        parenthesized l.isCompound l.expression ++ " " ++ kind.spelling ++ " " ++
          parenthesized r.isCompound r.expression := by
  cases h <;> exact ⟨rfl, by decide, by simp only [Node.expression, operandAt]⟩

theorem legible_binary (h : label.IsOperation) (hl : Legible true l) (hr : Legible true r) :
    Legible true (.tree label [l, r]) := by
  obtain ⟨kind, level, ho⟩ := isOperation_iff.1 h
  obtain ⟨hcompound, hlevel, htext⟩ := operator_node ho l r
  have hall := (hl.operand.blank.sign (spells_operator ho)).append hr.operand
  apply Legible.of_whole hcompound
  rw [htext]
  apply hall.mono
  rintro ts us ⟨_, ⟨_, hl, sign, rfl, hk⟩, hr⟩
  rw [← hk] at ho
  exact .ofOperation (.binary ho hlevel (leftOperand_of_chain hl _) (rightOperand_of_chain hr _))

theorem legible_negate (h : Legible true e) : Legible true (.tree .negate [e]) := by
  have hminus : Closed (Word .minus) TokenKind.minus.spelling := closed_mark (by decide)
  apply Legible.of_whole rfl
  apply (hminus.append h.operand).mono
  rintro ts us ⟨_, ⟨minus, rfl, hk⟩, he⟩
  exact .ofOperation (.ofUnary (.negate hk (.ofChain he)))

theorem legible_not (h : Legible true e) : Legible true (.tree .logicalNot [e]) := by
  have hword : TokenKind.opNot ∈ keywords := by decide
  apply Legible.of_whole rfl
  apply ((open_keyword hword).blank.append h.operand).mono
  rintro ts us ⟨_, ⟨not, rfl, hk⟩, he⟩
  exact .logicalNot hk (expression_of_chain he _)

/-- Only where an expression is free it may be a number or have operands. -/
theorem free_of_formed (h : e.Formed (.value isFree))
    (he : (e.isCompound || e.isNumber) = true) : isFree = true := by
  cases h with
  | identifier => cases he
  | superObject => cases he
  | newObject => cases he
  | field => cases he
  | index => cases he
  | call => cases he
  | _ => rfl

/-- The text of an expression is read as the expression. -/
theorem legible_of_formed {role : Role} (h : e.Formed role) :
    ∀ isFree, role = .value isFree → Legible isFree e := by
  induction h with
  | ofLiteral hn =>
    rintro _ ⟨⟩
    exact legible_literal hn
  | identifier hn =>
    rintro _ ⟨⟩
    exact legible_identifier hn
  | superObject =>
    rintro _ ⟨⟩
    exact legible_super
  | newObject hn _ ih =>
    rintro _ ⟨⟩
    exact legible_newObject hn fun n hm => (ih n hm true rfl).whole
  | field hn hl ih =>
    rintro _ ⟨⟩
    exact legible_field hn ((ih _ rfl).object (free_of_formed hl))
  | index hl hne _ ihl ihe =>
    rintro _ ⟨⟩
    exact legible_index hne ((ihl _ rfl).object (free_of_formed hl))
      fun n hm => (ihe n hm true rfl).whole
  | call hl _ ihl ihe =>
    rintro _ ⟨⟩
    exact legible_call ((ihl _ rfl).object (free_of_formed hl))
      fun n hm => (ihe n hm true rfl).whole
  | binary h _ _ ihl ihr =>
    rintro _ ⟨⟩
    exact legible_binary h (ihl _ rfl) (ihr _ rfl)
  | negate _ ih =>
    rintro _ ⟨⟩
    exact legible_negate (ih _ rfl)
  | logicalNot _ ih =>
    rintro _ ⟨⟩
    exact legible_not (ih _ rfl)
  | _ => rintro _ ⟨⟩

theorem open_whole (h : e.Formed (.value true)) : Open (MakesWhole e) e.expression :=
  (legible_of_formed h true rfl).whole

/-- Where an expression is not free, it is a chain. -/
theorem open_chain (h : e.Formed (.value false)) :
    Open (Makes (.chain false) [e]) e.expression := by
  have he : e.isCompound = false := by
    cases hc : e.isCompound with
    | false => rfl
    | true =>
      have hfree := free_of_formed h (by rw [hc]; rfl)
      cases hfree
  exact (legible_of_formed h false rfl).chain he

end Expressions

end Pseudocode
