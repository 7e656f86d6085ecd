-- What the goals of an expression mean: whatever they read off the front of
-- some tokens is an expression of the grammar, and it ends where no operator of
-- the level and no suffix goes on. The tables that a program is read by agree
-- with those of the grammar.
import Mathlib.Data.List.Induction
import Pseudocode.Proofs.Expression.Grammar
import Pseudocode.Proofs.Run

namespace Pseudocode

open Goal (suffix? onBase onPrimary onUnary onExpression)
open Phrase (Derives Operates Literal leftOperand rightOperand lowestLevel comparisonLevel
  powerLevel)
open Reading

/-! ## The tables of the program are those of the grammar -/

section Tables

variable {kind : TokenKind} {op : BinaryOperator} {level : Nat} {label : Label} {token : Token}

/-- The program knows the operators of the grammar, with their levels and labels,
and no others. -/
theorem operates_iff :
    Operates kind level label ↔
      ∃ op, BinaryOperator.of? kind = some op ∧ op.level = level ∧ op.label = label := by
  constructor
  · intro h
    cases h <;> exact ⟨_, rfl, rfl, rfl⟩
  · rintro ⟨op, hop, rfl, rfl⟩
    cases kind <;> simp only [BinaryOperator.of?, reduceCtorEq, Option.some.injEq] at hop <;>
      subst hop <;> constructor

theorem operates_of_of? (h : BinaryOperator.of? kind = some op) :
    Operates kind op.level op.label :=
  operates_iff.2 ⟨op, h, rfl, rfl⟩

theorem not_operates_of_of? (h : BinaryOperator.of? kind = none) :
    ¬Operates kind level label := by
  intro ho
  obtain ⟨op, hop, -⟩ := operates_iff.1 ho
  rw [h] at hop
  cases hop

theorem lowest_eq : BinaryOperator.lowest = lowestLevel := rfl

theorem aboveNot_eq : BinaryOperator.aboveNot = comparisonLevel := rfl

theorem rightOperand_of? (h : BinaryOperator.of? kind = some op) :
    rightOperand op.level = .expression op.rightLevel := by
  cases kind <;> simp only [BinaryOperator.of?, reduceCtorEq, Option.some.injEq] at h <;>
    subst h <;> rfl

/-- Below the level of a right operand there is only what groups to the left
and binds no tighter than the operator before that operand. -/
theorem le_of_lt_rightLevel (h : BinaryOperator.of? kind = some op)
    (hlt : level < op.rightLevel) : level ≤ op.level ∧ level ≠ powerLevel := by
  have hr : op.rightLevel ≤ op.level + 1 ∧ op.rightLevel ≤ 7 := by
    cases kind <;> simp only [BinaryOperator.of?, reduceCtorEq, Option.some.injEq] at h <;>
      subst h <;> decide
  unfold powerLevel
  omega

theorem wholeOf_eq_ofDigits (cs : List Char) :
    Decimal.wholeOf cs = Nat.ofDigits 10 (cs.reverse.map fun c => c.toNat - '0'.toNat) := by
  induction cs using List.reverseRecOn with
  | nil => rfl
  | append_singleton cs c ih =>
    rw [List.reverse_append, List.reverse_singleton, List.singleton_append, List.map_cons,
      Nat.ofDigits_cons, ← ih, Decimal.wholeOf, List.foldl_append, Nat.add_comm]
    rfl

theorem wholeOf_eq_decimalValue (text : String) :
    Decimal.wholeOf text.toList = decimalValue text :=
  wholeOf_eq_ofDigits text.toList

/-- The program gives a literal the value that the grammar gives it, and refuses
the others. -/
theorem literalLabel_eq_ok_iff : Goal.literalLabel token = .ok label ↔ Literal token label := by
  constructor
  · intro h
    unfold Goal.literalLabel at h
    split at h
    case h_1 hk =>
      dsimp only at h
      split at h
      · rename_i hle
        cases h
        rw [wholeOf_eq_decimalValue] at hle ⊢
        exact .int hk (Nat.lt_succ_of_le hle)
      · cases h
    case h_2 hk =>
      split at h
      · rename_i hvalue
        cases h
        exact .real hk hvalue
      · cases h
    case h_3 hk =>
      cases h
      exact .str hk
    case h_4 hk =>
      cases h
      exact .bool hk
    case h_5 => cases h
  · intro h
    unfold Goal.literalLabel
    cases h with
    | int hk hlt =>
      have hle : decimalValue token.text ≤ Goal.greatestInt := Nat.le_of_lt_succ hlt
      rw [hk]
      dsimp only
      rw [wholeOf_eq_decimalValue, if_pos hle]
    | real hk hvalue =>
      rw [hk]
      dsimp only
      rw [hvalue]
    | str hk | bool hk =>
      rw [hk]

end Tables

/-! ## Where an expression ends -/

theorem suffix?_eq_none_iff {kind : TokenKind} :
    suffix? kind = none ↔ kind ≠ .dot ∧ kind ≠ .openBracket ∧ kind ≠ .openParen := by
  cases kind <;> simp [suffix?]

theorem nextToken_of_mem_head? (last : Nat) {tokens : List Token} {token : Token}
    (h : token ∈ tokens.head?) : nextToken last tokens = token := by
  cases tokens with
  | nil => cases h
  | cons first others =>
    cases h
    rfl

theorem noSuffix_of_next {last : Nat} {tokens : List Token}
    (h : suffix? (nextToken last tokens).kind = none) : NoSuffix tokens := by
  intro token ht
  rw [nextToken_of_mem_head? last ht] at h
  exact suffix?_eq_none_iff.1 h

theorem noOperator_of_next (last : Nat) {level : Nat} {tokens : List Token}
    (h : ∀ op, BinaryOperator.of? (nextToken last tokens).kind = some op → op.level < level) :
    NoOperator level tokens := by
  intro token ht level' label ho
  rw [nextToken_of_mem_head? last ht] at h
  obtain ⟨op, hop, rfl, -⟩ := operates_iff.1 ho
  exact h op hop

/-! ## What the goals of an expression mean -/

/-- The tokens before the next ones are an expression of the level, and also
the left operand of an operator of the level or above that comes next. -/
structure LeftOf (level : Nat) (ts : List Token) (l : Node) (us : List Token) : Prop where
  whole : Derives (.expression level) ts [l] us
  noSuffix : NoSuffix us
  left : ∀ sign vs level' label, us = sign :: vs → Operates sign.kind level' label →
    level ≤ level' → Derives (leftOperand level') ts [l] us

/-- What each goal of an expression adds to the spine, by the grammar. The
operators and the suffixes go on from the newest node. -/
def expressionMeaning : Meaning
  | .expression level, spine, ts, spine', us =>
    ∃ e, Derives (.expression level) ts [e] us ∧ Ends level us ∧ spine' = spine.addAll [e]
  | .operators level, spine, ts, spine', us =>
    ∀ outer ts₀ l, spine = Spine.addAll outer [l] → LeftOf level ts₀ l ts →
      ∃ e, Derives (.expression level) ts₀ [e] us ∧ Ends level us ∧ spine' = outer.addAll [e]
  | .unary, spine, ts, spine', us =>
    ∃ e, Derives .unary ts [e] us ∧ NoSuffix us ∧ spine' = spine.addAll [e]
  | .suffixes, spine, ts, spine', us =>
    ∀ outer ts₀ l isFree, spine = Spine.addAll outer [l] →
      Derives (.chain isFree) ts₀ [l] ts →
      ∃ e, Derives (.chain isFree) ts₀ [e] us ∧ NoSuffix us ∧ spine' = outer.addAll [e]
  | .memberName, spine, ts, spine', us =>
    ∀ outer l, spine = Spine.addAll outer [l] →
      ∃ name, ts = name :: us ∧ (name.kind = .identifier ∨ name.kind = .kwNew) ∧
        spine' = outer.addAll [.tree (.field name.text) [l]]
  | .newClass, spine, ts, spine', us =>
    ∃ name opening closing inner es, ts = name :: opening :: inner ∧ name.kind = .identifier ∧
      opening.kind = .openParen ∧ closing.kind = .closeParen ∧
      Derives .arguments inner es (closing :: us) ∧
      spine' = spine.addAll [.tree (.newObject name.text) [.tree .args es]]
  | .arguments, spine, ts, spine', us =>
    ∃ es, Derives .arguments ts es us ∧ spine' = spine.addAll es
  | .moreArguments, spine, ts, spine', us =>
    ∃ es, Derives .moreExpressions ts es us ∧ spine' = spine.addAll es
  | .indices, spine, ts, spine', us =>
    ∃ es, Derives .expressions ts es us ∧ spine' = spine.addAll es
  | .token kind, spine, ts, spine', us =>
    ∃ token, ts = token :: us ∧ token.kind = kind ∧ spine' = spine
  | .refusal _, _, _, _, _ => False
  | _, _, _, _, _ => True

/-! ### Left operands -/

section LeftOf

variable {level : Nat} {ts us vs : List Token} {l r : Node} {not sign : Token}
  {op : BinaryOperator}

/-- A unary expression is a left operand of everything. -/
theorem leftOf_unary (h : Derives .unary ts [l] us) (hn : NoSuffix us) :
    LeftOf level ts l us := by
  refine ⟨.ofOperation (.ofUnary h), hn, ?_⟩
  intro sign vs level' label _ _ _
  unfold leftOperand
  split
  · exact h
  · split
    · exact .ofOperation (.ofUnary h)
    · exact .ofUnary h

/-- What comes after the operand of a `NOT` binds looser than a comparison. -/
theorem leftOf_logicalNot (hk : not.kind = .opNot)
    (h : Derives (.expression (max level comparisonLevel)) ts [l] us)
    (he : Ends (max level comparisonLevel) us) :
    LeftOf level (not :: ts) (.tree .logicalNot [l]) us := by
  refine ⟨.logicalNot hk h, he.1, ?_⟩
  rintro sign vs level' label rfl ho hle
  have hlt := he.2 sign rfl level' label ho
  have h4 : level' < comparisonLevel := by omega
  have hp : level' ≠ powerLevel := by
    unfold comparisonLevel at h4
    unfold powerLevel
    omega
  unfold leftOperand
  rw [if_neg hp, if_pos h4]
  refine .logicalNot hk ?_
  have hm : max level' comparisonLevel = max level comparisonLevel := by omega
  rwa [hm]

/-- An operation with both operands is again a left operand of what may follow. -/
theorem leftOf_binary (hl : LeftOf level ts l (sign :: us))
    (hop : BinaryOperator.of? sign.kind = some op) (hle : level ≤ op.level)
    (hr : Derives (.expression op.rightLevel) us [r] vs) (he : Ends op.rightLevel vs) :
    LeftOf level ts (.tree op.label [l, r]) vs := by
  have ho : Operates sign.kind op.level op.label := operates_of_of? hop
  have hl := hl.left sign us op.level op.label rfl ho hle
  rw [← rightOperand_of? hop] at hr
  refine ⟨.ofOperation (.binary ho hle hl hr), he.1, ?_⟩
  rintro sign' ws level' label' rfl ho' hle'
  obtain ⟨hle'', hp⟩ := le_of_lt_rightLevel hop (he.2 sign' rfl level' label' ho')
  unfold leftOperand
  rw [if_neg hp]
  split
  · exact .ofOperation (.binary ho hle'' hl hr)
  · exact .binary ho hle'' hl hr

end LeftOf

/-! ### Reactions -/

section Meaning

variable {last level : Nat} {spine spine' : Spine} {ts us left : List Token} {token : Token}
  {items : List Item}

/-- The base of a chain, which is a call already if it is a new object. -/
theorem leads_onBase {isFree : Bool}
    (h : Leads expressionMeaning (onBase (nextToken last ts)) spine ts spine' us) :
    ∃ e, Derives (.chain isFree) ts [e] us ∧ spine' = spine.addAll [e] ∧
      e.isCall = decide ((nextToken last ts).kind = .kwNew) := by
  unfold onBase at h
  split at h
  · rename_i hk
    obtain ⟨token, left, rfl, hs, rfl⟩ := h
    exact ⟨_, .identifier hk, hs, by simp only [hk]; rfl⟩
  · rename_i hk
    obtain ⟨token, left, rfl, hs, rfl⟩ := h
    exact ⟨_, .superObject hk, hs, by simp only [hk]; rfl⟩
  · rename_i hk
    obtain ⟨new, left, rfl, middle, rest, ⟨name, opening, closing, inner, es, rfl, hi, ho, hc, ha,
      rfl⟩, rfl, rfl⟩ := h
    exact ⟨_, .newObject hk hi ho hc ha, rfl, by simp only [hk]; rfl⟩
  · exact h.elim

/-- A literal of which nothing is refused has a value. -/
theorem leads_onLiteral
    (h : Leads expressionMeaning (Goal.onLiteral (nextToken last ts)) spine ts spine' us) :
    ∃ token label, ts = token :: us ∧ Literal token label ∧
      spine' = spine.addAll [.tree label []] := by
  unfold Goal.onLiteral at h
  split at h
  · rename_i label hl
    obtain ⟨token, left, rfl, hs, rfl⟩ := h
    exact ⟨token, label, rfl, literalLabel_eq_ok_iff.1 hl, hs⟩
  · obtain ⟨token, left, rfl, middle, rest, hf, -⟩ := h
    exact hf.elim

theorem leads_onPrimary
    (h : Leads expressionMeaning (onPrimary (nextToken last ts)) spine ts spine' us) :
    ∃ e, Derives (.chain true) ts [e] us ∧ spine' = spine.addAll [e] := by
  unfold onPrimary at h
  split at h
  case h_1 hk =>
    obtain ⟨opening, left, rfl, middle, rest, ⟨e, he, -, rfl⟩, middle', rest',
      ⟨closing, rfl, hc, rfl⟩, rfl, rfl⟩ := h
    exact ⟨e, .parenthesized hk hc he, rfl⟩
  case h_9 => exact h.elim
  case h_6 | h_7 | h_8 =>
    obtain ⟨e, he, hs, -⟩ := leads_onBase h
    exact ⟨e, he, hs⟩
  all_goals
    obtain ⟨token, label, rfl, hl, hs⟩ := leads_onLiteral h
    exact ⟨_, .literal hl, hs⟩

theorem leads_onUnary
    (h : Leads expressionMeaning (onUnary (nextToken last ts)) spine ts spine' us) :
    ∃ e, Derives .unary ts [e] us ∧ NoSuffix us ∧ spine' = spine.addAll [e] := by
  unfold onUnary at h
  split at h
  · rename_i hk
    obtain ⟨minus, left, rfl, middle, rest, ⟨e, he, hn, rfl⟩, hs, rfl⟩ := h
    exact ⟨_, .negate hk he, hn, hs.trans (Spine.step_close _ _ _)⟩
  · obtain ⟨middle, left, hp, s, rest, hs, rfl, rfl⟩ := leads_followed (onPrimary_ne_leave _) h
    obtain ⟨p, hd, rfl⟩ := leads_onPrimary hp
    obtain ⟨e, he, hn, hs⟩ := hs spine ts p true rfl hd
    exact ⟨e, .ofChain he, hn, hs⟩

theorem leads_onExpression
    (h : Leads expressionMeaning (onExpression level (nextToken last ts)) spine ts spine' us) :
    ∃ e, Derives (.expression level) ts [e] us ∧ Ends level us ∧ spine' = spine.addAll [e] := by
  unfold onExpression at h
  split at h
  · rename_i hk
    obtain ⟨not, left, rfl, middle, rest, ⟨e, he, hn, rfl⟩, s, rest', hs, rfl, rfl⟩ := h
    exact hs spine (not :: left) _ (Spine.step_close _ _ _) (leftOf_logicalNot hk he hn)
  · obtain ⟨middle, left, hu, s, rest, hs, rfl, rfl⟩ := leads_followed (onUnary_ne_leave _) h
    obtain ⟨u, hd, hn, rfl⟩ := leads_onUnary hu
    exact hs spine ts u rfl (leftOf_unary hd hn)

/-- A suffix makes a longer chain, which ends in a call if the suffix is one. -/
theorem works_suffix {isFree : Bool} {ts₀ : List Token} {l : Node}
    (hi : suffix? token.kind = some items) (hl : Derives (.chain isFree) ts₀ [l] (token :: left))
    (h : Works expressionMeaning items (spine.addAll [l]) left spine' us) :
    ∃ e, Derives (.chain isFree) ts₀ [e] us ∧ spine' = spine.addAll [e] ∧
      e.isCall = decide (token.kind = .openParen) := by
  unfold suffix? at hi
  split at hi
  · rename_i hk
    cases hi
    obtain ⟨middle, rest, hm, rfl, rfl⟩ := h
    obtain ⟨name, rfl, hn, rfl⟩ := hm spine l rfl
    exact ⟨_, .field hk hn hl, rfl, by simp only [hk]; rfl⟩
  · rename_i hk
    cases hi
    obtain ⟨middle, rest, ⟨es, he, rfl⟩, middle', rest', ⟨closing, rfl, hc, rfl⟩, hs, rfl⟩ := h
    simp only [Spine.step_wrap, Spine.step_start, Spine.step_close, Spine.addAll_addAll] at hs
    exact ⟨_, .index hk hc hl he, hs, by simp only [hk]; rfl⟩
  · rename_i hk
    cases hi
    obtain ⟨middle, rest, ⟨es, he, rfl⟩, middle', rest', ⟨closing, rfl, hc, rfl⟩, hs, rfl⟩ := h
    simp only [Spine.step_wrap, Spine.step_start, Spine.step_close, Spine.addAll_addAll] at hs
    exact ⟨_, .call hk hc hl he, hs, by simp only [hk]; rfl⟩
  · exact absurd hi (by simp)

theorem leads_onSuffixes
    (h : Leads expressionMeaning (Goal.onSuffixes (nextToken last ts)) spine ts spine' us) :
    expressionMeaning .suffixes spine ts spine' us := by
  rintro outer ts₀ l isFree rfl hl
  unfold Goal.onSuffixes at h
  split at h
  · rename_i items hi
    obtain ⟨token, left, rfl, hw⟩ := h
    obtain ⟨middle, rest, hw, s, rest', hs, rfl, rfl⟩ := works_append.1 hw
    obtain ⟨e, he, hse, -⟩ := works_suffix hi hl hw
    exact hs outer ts₀ e isFree hse he
  · rename_i hi
    obtain ⟨rfl, rfl⟩ := h
    exact ⟨l, hl, noSuffix_of_next hi, rfl⟩

theorem leads_onOperators
    (h : Leads expressionMeaning (Goal.onOperators level (nextToken last ts)) spine ts spine' us) :
    expressionMeaning (.operators level) spine ts spine' us := by
  rintro outer ts₀ l rfl hl
  unfold Goal.onOperators at h
  split at h
  · rename_i op hop
    split at h
    · rename_i hle
      obtain ⟨sign, left, rfl, middle, rest, ⟨r, hr, he, rfl⟩, s, rest', hs, rfl, rfl⟩ := h
      simp only [Spine.step_wrap, Spine.addAll_addAll, Spine.step_close] at hs
      exact hs outer ts₀ _ rfl (leftOf_binary hl hop hle hr he)
    · rename_i hle
      obtain ⟨rfl, rfl⟩ := h
      refine ⟨l, hl.whole, ⟨hl.noSuffix, noOperator_of_next last ?_⟩, rfl⟩
      intro op' hop'
      rw [hop] at hop'
      cases hop'
      omega
  · rename_i hop
    obtain ⟨rfl, rfl⟩ := h
    refine ⟨l, hl.whole, ⟨hl.noSuffix, noOperator_of_next last ?_⟩, rfl⟩
    intro op' hop'
    rw [hop] at hop'
    cases hop'

theorem leads_onMemberName
    (h : Leads expressionMeaning (Goal.onMemberName (nextToken last ts)) spine ts spine' us) :
    expressionMeaning .memberName spine ts spine' us := by
  rintro outer l rfl
  unfold Goal.onMemberName at h
  split at h
  · rename_i hk
    obtain ⟨name, left, rfl, hs, rfl⟩ := h
    exact ⟨name, rfl, .inl hk, by simpa using hs⟩
  · rename_i hk
    obtain ⟨name, left, rfl, hs, rfl⟩ := h
    exact ⟨name, rfl, .inr hk, by simpa using hs⟩
  · exact h.elim

theorem leads_onNewClass
    (h : Leads expressionMeaning (Goal.onNewClass (nextToken last ts)) spine ts spine' us) :
    expressionMeaning .newClass spine ts spine' us := by
  unfold Goal.onNewClass at h
  split at h
  · rename_i hk
    obtain ⟨name, left, rfl, s₁, t₁, ⟨opening, rfl, ho, rfl⟩, s₂, t₂, ⟨es, he, rfl⟩, s₃, t₃,
      ⟨closing, rfl, hc, rfl⟩, hs, rfl⟩ := h
    refine ⟨name, opening, closing, t₁, es, rfl, hk, ho, hc, he, ?_⟩
    simpa using hs
  · exact h.elim

/-- At least one expression, then further ones after commas. -/
theorem leads_expressions
    (h : Leads expressionMeaning ((onExpression BinaryOperator.lowest
      (nextToken last ts)).followed [.await .moreArguments]) spine ts spine' us) :
    ∃ es, Derives .expressions ts es us ∧ spine' = spine.addAll es := by
  obtain ⟨middle, left, he, s, rest, ⟨es, hm, rfl⟩, rfl, rfl⟩ :=
    leads_followed (onExpression_ne_leave _ _) h
  obtain ⟨e, hd, -, rfl⟩ := leads_onExpression he
  exact ⟨e :: es, .first hd hm, Spine.addAll_addAll _ _ _⟩

theorem leads_onArguments
    (h : Leads expressionMeaning (Goal.onArguments (nextToken last ts)) spine ts spine' us) :
    expressionMeaning .arguments spine ts spine' us := by
  unfold Goal.onArguments at h
  split at h
  · obtain ⟨rfl, rfl⟩ := h
    exact ⟨[], .noArguments, rfl⟩
  · obtain ⟨es, he, hs⟩ := leads_expressions h
    exact ⟨es, .ofExpressions he, hs⟩

theorem leads_onMoreArguments
    (h : Leads expressionMeaning (Goal.onMoreArguments (nextToken last ts)) spine ts spine' us) :
    expressionMeaning .moreArguments spine ts spine' us := by
  unfold Goal.onMoreArguments at h
  split at h
  · rename_i hk
    obtain ⟨comma, left, rfl, s₁, t₁, ⟨e, he, -, rfl⟩, s₂, t₂, ⟨es, hm, rfl⟩, rfl, rfl⟩ := h
    exact ⟨e :: es, .more hk he hm, Spine.addAll_addAll _ _ _⟩
  · obtain ⟨rfl, rfl⟩ := h
    exact ⟨[], .noMore, rfl⟩

theorem leads_onIndices
    (h : Leads expressionMeaning (Goal.onIndices (nextToken last ts)) spine ts spine' us) :
    expressionMeaning .indices spine ts spine' us := by
  unfold Goal.onIndices at h
  split at h
  · exact h.elim
  · exact leads_expressions h

theorem leads_onToken {kind : TokenKind} {M : Meaning}
    (h : Leads M (Goal.onToken kind (nextToken last ts)) spine ts spine' us) :
    ∃ token, ts = token :: us ∧ token.kind = kind ∧ spine' = spine := by
  unfold Goal.onToken at h
  split at h
  · rename_i hk
    obtain ⟨token, left, rfl, rfl, rfl⟩ := h
    exact ⟨token, rfl, hk.1, rfl⟩
  · exact h.elim

/-- Every goal of an expression does what the grammar says. -/
theorem sound_expressionMeaning (last : Nat) : Sound last expressionMeaning := by
  intro goal spine ts spine' us h
  cases goal with
  | expression level => exact leads_onExpression h
  | operators level => exact leads_onOperators h
  | unary => exact leads_onUnary h
  | suffixes => exact leads_onSuffixes h
  | memberName => exact leads_onMemberName h
  | newClass => exact leads_onNewClass h
  | arguments => exact leads_onArguments h
  | moreArguments => exact leads_onMoreArguments h
  | indices => exact leads_onIndices h
  | token kind => exact leads_onToken h
  | refusal diagnostic => exact h.elim
  | _ => trivial

end Meaning

end Pseudocode
