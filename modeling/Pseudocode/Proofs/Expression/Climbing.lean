-- Every expression of the grammar of levels is read, up to where it ends. With
-- the meaning of the goals this makes reading and the grammar agree, and the
-- grammar unambiguous.
import Pseudocode.Proofs.Expression.Meaning

namespace Pseudocode

open Goal (suffix? onBase onPrimary)
open Phrase (Derives Operates Literal leftOperand rightOperand lowestLevel comparisonLevel
  powerLevel)
open Reading

/-! ## One goal in front of another -/

section Goals

variable {last level : Nat} {agenda : List Item} {spine : Spine} {tokens : List Token}
  {token : Token}

theorem run_expression_unary (h : token.kind ≠ .opNot) :
    run ⟨.await (.expression level) :: agenda, spine⟩ (token :: tokens) (.input last) =
      run ⟨.await .unary :: .await (.operators level) :: agenda, spine⟩ (token :: tokens)
        (.input last) := by
  have hr : (Goal.expression level).react token =
      (Goal.unary.react token).followed [.await (.operators level)] :=
    (Opening.Reacts.unary h (Opening.reacts_goal_iff.2 rfl)).react_eq
  exact run_followed _ hr (onUnary_ne_leave token)

theorem run_arguments_expression (h : token.kind ≠ .closeParen) :
    run ⟨.await .arguments :: agenda, spine⟩ (token :: tokens) (.input last) =
      run ⟨Item.expression :: .await .moreArguments :: agenda, spine⟩ (token :: tokens)
        (.input last) := by
  have hr : Goal.arguments.react token =
      ((Goal.expression lowestLevel).react token).followed [.await .moreArguments] :=
    (Opening.Reacts.arguments h (Opening.reacts_goal_iff.2 rfl)).react_eq
  exact run_followed _ hr (onExpression_ne_leave _ token)

theorem run_indices_expression (h : token.kind ≠ .closeBracket) :
    run ⟨.await .indices :: agenda, spine⟩ (token :: tokens) (.input last) =
      run ⟨Item.expression :: .await .moreArguments :: agenda, spine⟩ (token :: tokens)
        (.input last) := by
  have hr : Goal.indices.react token =
      ((Goal.expression lowestLevel).react token).followed [.await .moreArguments] :=
    (Opening.Reacts.indices h (Opening.reacts_goal_iff.2 rfl)).react_eq
  exact run_followed _ hr (onExpression_ne_leave _ token)

theorem run_token {kind : TokenKind} (h : token.kind = kind) (hk : kind ≠ .endOfInput) :
    run ⟨Item.token kind :: agenda, spine⟩ (token :: tokens) (.input last) =
      run ⟨agenda, spine⟩ tokens (.input last) :=
  run_taken (.mark h hk)

/-- Where no operator of the level comes next, there is none left to read. -/
theorem run_operators_done (h : NoOperator level tokens) :
    run ⟨.await (.operators level) :: agenda, spine⟩ tokens (.input last) =
      run ⟨agenda, spine⟩ tokens (.input last) := by
  refine run_left (.operators fun op hop => ?_)
  cases tokens with
  | nil => cases hop
  | cons token tokens => exact Nat.not_le.2 (h token rfl op.level op.label (operates_of_of? hop))

theorem run_suffixes_done (h : NoSuffix tokens) :
    run ⟨.await .suffixes :: agenda, spine⟩ tokens (.input last) =
      run ⟨agenda, spine⟩ tokens (.input last) := by
  refine run_left (.suffixes ?_)
  cases tokens with
  | nil => rfl
  | cons token tokens => exact suffix?_eq_none_iff.2 (h token rfl)

end Goals

/-! ## Every phrase is read -/

/-- No right operand inside an operation of the level goes on with the tokens. -/
def Follows (level : Nat) (tokens : List Token) : Prop :=
  ∀ kind op, BinaryOperator.of? kind = some op → level ≤ op.level → NoOperator op.rightLevel tokens

/-- A goal that has read a chain and goes on with its suffixes; it may keep in
mind whether the chain is a call. -/
def SuffixLoop (loop : Bool → Goal) : Prop :=
  ∀ isCall token items, suffix? token.kind = some items →
    (loop isCall).react token = .take (items ++ [.await (loop (token.kind = .openParen))])

/-- The reaction that starts a chain. -/
def chainStart (isFree : Bool) : Token → Reaction := if isFree then onPrimary else onBase

/-- What reading does to the tokens of a phrase, in front of any agenda. -/
def Reads (last : Nat) (ts : List Token) (ns : List Node) (us : List Token) : Phrase → Prop
  | .expression level =>
    NoSuffix us → NoOperator (max level comparisonLevel) us → Follows level us →
      ∀ level' ≤ level, level' = level ∨ level < comparisonLevel → ∀ agenda spine,
        run ⟨.await (.expression level') :: agenda, spine⟩ ts (.input last) =
          run ⟨.await (.operators level') :: agenda, spine.addAll ns⟩ us (.input last)
  | .operation level =>
    NoSuffix us → Follows level us → ∀ level' ≤ level, ∀ agenda spine,
      run ⟨.await (.expression level') :: agenda, spine⟩ ts (.input last) =
        run ⟨.await (.operators level') :: agenda, spine.addAll ns⟩ us (.input last)
  | .unary =>
    NoSuffix us → ∀ agenda spine, run ⟨.await .unary :: agenda, spine⟩ ts (.input last) =
      run ⟨agenda, spine.addAll ns⟩ us (.input last)
  | .chain isFree =>
    ∃ token rest items, ts = token :: rest ∧ chainStart isFree token = .take items ∧
      ∀ loop, SuffixLoop loop → (isFree = true → ∀ isCall, loop isCall = loop false) →
        ∀ agenda spine,
        run ⟨items ++ .await (loop (token.kind = .kwNew)) :: agenda, spine⟩ rest (.input last) =
          run ⟨.await (loop (ns.any Node.isCall)) :: agenda, spine.addAll ns⟩ us (.input last)
  | .arguments =>
    (∀ token ∈ us.head?, token.kind = .closeParen) → us ≠ [] → ∀ agenda spine,
      run ⟨.await .arguments :: agenda, spine⟩ ts (.input last) =
        run ⟨agenda, spine.addAll ns⟩ us (.input last)
  | .expressions =>
    Ends lowestLevel us → (∀ token ∈ us.head?, token.kind ≠ .comma) → ∀ agenda spine,
      run ⟨Item.expression :: .await .moreArguments :: agenda, spine⟩ ts (.input last) =
        run ⟨agenda, spine.addAll ns⟩ us (.input last)
  | .moreExpressions =>
    Ends lowestLevel us → (∀ token ∈ us.head?, token.kind ≠ .comma) →
      (Ends lowestLevel ts) ∧ ∀ agenda spine,
      run ⟨.await .moreArguments :: agenda, spine⟩ ts (.input last) =
        run ⟨agenda, spine.addAll ns⟩ us (.input last)

section Tables

variable {kind : TokenKind} {op : BinaryOperator} {level : Nat} {us : List Token}

theorem le_rightLevel (h : BinaryOperator.of? kind = some op) : op.level ≤ op.rightLevel := by
  cases kind <;> simp only [BinaryOperator.of?, reduceCtorEq, Option.some.injEq] at h <;>
    subst h <;> decide

theorem lt_rightLevel (h : BinaryOperator.of? kind = some op) (hle : level ≤ op.level)
    (hp : level ≠ powerLevel) : level < op.rightLevel := by
  have hr : op.level < op.rightLevel ∨ op.level = 7 ∧ op.rightLevel = 7 := by
    cases kind <;> simp only [BinaryOperator.of?, reduceCtorEq, Option.some.injEq] at h <;>
      subst h <;> decide
  unfold powerLevel at hp
  omega

theorem suffix?_of_of? (h : BinaryOperator.of? kind = some op) : suffix? kind = none := by
  cases kind <;> simp only [BinaryOperator.of?, reduceCtorEq] at h <;> rfl

theorem noOperator_mono {level' : Nat} (h : NoOperator level us) (hle : level ≤ level') :
    NoOperator level' us :=
  fun token ht level label ho => Nat.lt_of_lt_of_le (h token ht level label ho) hle

theorem follows_of_noOperator (h : NoOperator level us) : Follows level us :=
  fun _ _ hop hle => noOperator_mono h (Nat.le_trans hle (le_rightLevel hop))

/-- A closing mark ends every expression. -/
theorem ends_closing {closing : Token}
    (h : closing.kind = .closeParen ∨ closing.kind = .closeBracket) : Ends level (closing :: us) := by
  constructor
  · intro token ht
    cases ht
    rcases h with h | h <;> simp [h]
  · intro token ht level' label ho
    cases ht
    rcases h with h | h <;> (rw [h] at ho; cases ho)

/-- Behind a left operand comes its operator, which is no suffix. -/
theorem noSuffix_operator {sign : Token} {label : Label}
    (h : Operates sign.kind level label) : NoSuffix (sign :: us) := by
  intro token ht
  cases ht
  obtain ⟨op, hop, -⟩ := operates_iff.1 h
  exact suffix?_eq_none_iff.1 (suffix?_of_of? hop)

/-- An operator that groups to the left ends the right operands before it. -/
theorem follows_operator {sign : Token} {label : Label} (h : Operates sign.kind level label)
    (hp : level ≠ powerLevel) : Follows level (sign :: us) := by
  intro kind op hop hle token ht level' label' h'
  cases ht
  rw [h'.level_eq h]
  exact lt_rightLevel hop hle hp

end Tables

section Phrases

variable {last level : Nat} {ts us vs : List Token} {e l r : Node} {ns : List Node}
  {token sign : Token} {op : BinaryOperator}

/-- An expression is read to its end. -/
theorem run_expression (h : Reads last ts ns us (.expression level)) (he : Ends level us)
    (agenda : List Item) (spine : Spine) :
    run ⟨.await (.expression level) :: agenda, spine⟩ ts (.input last) =
      run ⟨agenda, spine.addAll ns⟩ us (.input last) := by
  rw [h he.1 (noOperator_mono he.2 (Nat.le_max_left _ _)) (follows_of_noOperator he.2) level
    (Nat.le_refl _) (.inl rfl), run_operators_done he.2]

theorem reads_logicalNot (hk : token.kind = .opNot)
    (h : Reads last ts [e] us (.expression (max level comparisonLevel))) :
    Reads last (token :: ts) [.tree .logicalNot [e]] us (.expression level) := by
  intro hn ho hf level' hle hor agenda spine
  have hm : max level' comparisonLevel = max level comparisonLevel := by
    rcases hor with rfl | hlt
    · rfl
    · omega
  have hr : (Goal.expression level').react token =
      .take [Item.start .logicalNot, .await (.expression (max level comparisonLevel)),
        Item.close, .await (.operators level')] := by
    rw [← hm, ← aboveNot_eq]
    exact (Opening.Takes.logicalNot hk).react_eq
  rw [run_take hr]
  simp only [List.cons_append, List.nil_append, Item.start, Item.close, run_build,
    Spine.step_start]
  rw [run_expression h ⟨hn, ho⟩]
  simp

/-- A unary expression starts an expression of every level. -/
theorem run_of_unary (h : Reads last ts ns us .unary) (hd : Derives .unary ts ns us)
    (hn : NoSuffix us) (level : Nat) (agenda : List Item) (spine : Spine) :
    run ⟨.await (.expression level) :: agenda, spine⟩ ts (.input last) =
      run ⟨.await (.operators level) :: agenda, spine.addAll ns⟩ us (.input last) := by
  obtain ⟨token, rest, rfl, hk⟩ := hd.opens rfl
  have hnot : token.kind ≠ .opNot := by
    intro hk'
    rw [hk'] at hk
    exact absurd hk (by decide)
  rw [run_expression_unary hnot, h hn]

/-- What stands to the left of an operator is read up to the operator. -/
theorem run_leftOperand {label : Label} (ho : Operates sign.kind level label)
    (h : Reads last ts [l] (sign :: us) (leftOperand level))
    (hd : Derives (leftOperand level) ts [l] (sign :: us)) {level' : Nat}
    (hle : level' ≤ level) (agenda : List Item) (spine : Spine) :
    run ⟨.await (.expression level') :: agenda, spine⟩ ts (.input last) =
      run ⟨.await (.operators level') :: agenda, spine.addAll [l]⟩ (sign :: us)
        (.input last) := by
  have hn : NoSuffix (sign :: us) := noSuffix_operator ho
  unfold leftOperand at h hd
  split at h
  · rename_i hp
    rw [if_pos hp] at hd
    exact run_of_unary h hd hn level' agenda spine
  · rename_i hp
    have hf : Follows level (sign :: us) := follows_operator ho hp
    split at h
    · rename_i h4
      refine h hn ?_ hf level' hle (.inr h4) agenda spine
      intro token ht level'' label' ho'
      cases ht
      rw [ho'.level_eq ho]
      omega
    · exact h hn hf level' hle agenda spine

theorem reads_binary {level' : Nat} {label : Label} (ho : Operates sign.kind level' label)
    (hle : level ≤ level') (hl : Reads last ts [l] (sign :: us) (leftOperand level'))
    (hd : Derives (leftOperand level') ts [l] (sign :: us))
    (hr : Reads last us [r] vs (rightOperand level')) :
    Reads last ts [.tree label [l, r]] vs (.operation level) := by
  intro hn hf start hstart agenda spine
  rw [run_leftOperand ho hl hd (Nat.le_trans hstart hle)]
  obtain ⟨op, hop, rfl, rfl⟩ := operates_iff.1 ho
  rw [rightOperand_of? hop] at hr
  rw [run_taken (.operator hop (Nat.le_trans hstart hle))]
  simp only [List.cons_append, List.nil_append, Item.wrap, Item.close, run_build,
    Spine.step_wrap]
  rw [run_expression hr ⟨hn, hf sign.kind op hop hle⟩]
  simp

theorem reads_negate (hk : token.kind = .minus) (h : Reads last ts [e] us .unary) :
    Reads last (token :: ts) [.tree .negate [e]] us .unary := by
  intro hn agenda spine
  rw [run_taken (.minus hk)]
  simp only [List.cons_append, List.nil_append, Item.start, Item.close, run_build,
    Spine.step_start]
  rw [h hn]
  simp

theorem reads_ofChain (h : Reads last ts [e] us (.chain true))
    (hd : Derives (.chain true) ts [e] us) : Reads last ts [e] us .unary := by
  intro hn agenda spine
  obtain ⟨token, rest, items, rfl, hs, h⟩ := h
  have hminus : token.kind ≠ .minus := by
    obtain ⟨token', rest', hts, hk⟩ := hd.opens rfl
    cases hts
    intro hk'
    rw [hk'] at hk
    exact absurd hk (by decide)
  have hr : Goal.unary.react token = .take (items ++ [.await .suffixes]) := by
    have hp : Opening.Reacts token .primary (.take items) := by
      rw [← show onPrimary token = .take items from hs]
      exact Opening.reacts_of_exists Opening.exists_primary
    exact (Opening.Reacts.primary hminus hp).react_eq
  have hloop : SuffixLoop fun _ => .suffixes :=
    fun _ _ _ hi => (Opening.Takes.suffix hi).react_eq
  rw [run_take hr, List.append_assoc, ← run_suffixes_done hn]
  exact h (fun _ => .suffixes) hloop (fun _ _ => rfl) agenda spine

theorem reads_parenthesized {closing : Token} (ho : token.kind = .openParen)
    (hc : closing.kind = .closeParen)
    (h : Reads last ts [e] (closing :: us) (.expression lowestLevel)) :
    Reads last (token :: ts) [e] us (.chain true) := by
  refine ⟨token, ts, [Item.expression, Item.token .closeParen], rfl, ?_, ?_⟩
  · exact (Opening.Takes.parenthesis ho).react_eq
  · intro loop _ hconst agenda spine
    rw [hconst rfl (decide _), hconst rfl ([e].any _)]
    simp only [List.cons_append, List.nil_append, Item.expression, lowest_eq]
    rw [run_expression h (ends_closing (.inl hc)), run_token hc (by decide)]

theorem reads_literal {label : Label} (hl : Literal token label) :
    Reads last (token :: ts) [.tree label []] ts (.chain true) := by
  refine ⟨token, ts, [Item.leaf label], rfl, ?_, ?_⟩
  · have hk : token.kind ∈ Opening.primary.literals :=
      Opening.mem_literals_of_isLiteral hl.isLiteral
    exact (Opening.Reacts.literal hk (literalLabel_eq_ok_iff.2 hl)).react_eq
  · intro loop _ hconst agenda spine
    rw [hconst rfl (decide _), hconst rfl (List.any _ _)]
    simp [Item.leaf]

theorem chainStart_of_base {isFree : Bool} {items : List Item}
    (h : Opening.Takes token .base items) : chainStart isFree token = .take items := by
  cases isFree
  · exact h.react_eq
  · exact (Opening.Reacts.base (Opening.mem_bases_of_onBase h.react_eq) (.taken h)).react_eq

theorem reads_identifier {isFree : Bool} (hk : token.kind = .identifier) :
    Reads last (token :: ts) [.tree (.identifier token.text) []] ts (.chain isFree) := by
  refine ⟨token, ts, [Item.leaf (.identifier token.text)], rfl, chainStart_of_base (.name hk), ?_⟩
  intro loop _ _ agenda spine
  simp [Item.leaf, hk, Node.isCall]

theorem reads_superObject {isFree : Bool} (hk : token.kind = .kwSuper) :
    Reads last (token :: ts) [.tree .superObject []] ts (.chain isFree) := by
  refine ⟨token, ts, [Item.leaf .superObject], rfl, chainStart_of_base (.superObject hk), ?_⟩
  intro loop _ _ agenda spine
  simp [Item.leaf, hk, Node.isCall]

theorem reads_newObject {isFree : Bool} {name opening closing : Token} (hk : token.kind = .kwNew)
    (hi : name.kind = .identifier) (ho : opening.kind = .openParen)
    (hc : closing.kind = .closeParen) (h : Reads last ts ns (closing :: us) .arguments) :
    Reads last (token :: name :: opening :: ts) [.tree (.newObject name.text) [.tree .args ns]] us
      (.chain isFree) := by
  refine ⟨token, name :: opening :: ts, [.await .newClass], rfl,
    chainStart_of_base (.newObject hk), ?_⟩
  intro loop _ _ agenda spine
  rw [List.cons_append, List.nil_append, run_taken (.newClass hi)]
  simp only [Item.start, Item.close, Item.arguments, List.cons_append, List.nil_append,
    run_build, run_token ho (by decide), Spine.step_start]
  rw [h (by simp [hc]) (by simp)]
  simp [run_token hc (by decide), hk, Node.isCall]

/-! ### Suffixes -/

section Suffixes

variable {isFree isCall : Bool} {loop : Bool → Goal} {closing : Token} {agenda : List Item}
  {spine : Spine}

theorem run_field (hloop : SuffixLoop loop) {name : Token} (hk : token.kind = .dot)
    (hn : name.kind = .identifier ∨ name.kind = .kwNew) :
    run ⟨.await (loop isCall) :: agenda, spine.addAll [l]⟩ (token :: name :: us) (.input last) =
      run ⟨.await (loop false) :: agenda, spine.addAll [.tree (.field name.text) [l]]⟩ us
        (.input last) := by
  have hs : suffix? token.kind = some [.await .memberName] := by rw [hk]; rfl
  rw [run_take (hloop isCall token _ hs), List.append_assoc, List.cons_append,
    run_taken (.field (by simpa using hn))]
  simp [Item.wrap, Item.close, hk]

theorem run_index (hloop : SuffixLoop loop) (hk : token.kind = .openBracket)
    (hc : closing.kind = .closeBracket) (h : Reads last us ns (closing :: vs) .expressions)
    (hd : Derives .expressions us ns (closing :: vs)) :
    run ⟨.await (loop isCall) :: agenda, spine.addAll [l]⟩ (token :: us) (.input last) =
      run ⟨.await (loop false) :: agenda, spine.addAll [.tree .index [l, .tree .args ns]]⟩ vs
        (.input last) := by
  have hs : suffix? token.kind = some [Item.wrap .index, Item.start .args, .await .indices,
      Item.close, Item.token .closeBracket, Item.close] := by rw [hk]; rfl
  obtain ⟨first, others, rfl, ho⟩ := hd.opens rfl
  have hne : first.kind ≠ .closeBracket := by
    intro hk'
    rw [hk'] at ho
    exact absurd ho (by decide)
  rw [run_take (hloop isCall token _ hs), List.append_assoc]
  simp only [List.cons_append, List.nil_append, Item.wrap, Item.start, Item.close, run_build,
    Spine.step_wrap, Spine.step_start]
  rw [run_indices_expression hne, h (ends_closing (.inr hc)) (by simp [hc])]
  simp [run_token hc (by decide), hk]

theorem run_call (hloop : SuffixLoop loop) (hk : token.kind = .openParen)
    (hc : closing.kind = .closeParen) (h : Reads last us ns (closing :: vs) .arguments) :
    run ⟨.await (loop isCall) :: agenda, spine.addAll [l]⟩ (token :: us) (.input last) =
      run ⟨.await (loop true) :: agenda, spine.addAll [.tree .call [l, .tree .args ns]]⟩ vs
        (.input last) := by
  have hs : suffix? token.kind = some [Item.wrap .call, Item.start .args, .await .arguments,
      Item.close, Item.token .closeParen, Item.close] := by rw [hk]; rfl
  rw [run_take (hloop isCall token _ hs), List.append_assoc]
  simp only [List.cons_append, List.nil_append, Item.wrap, Item.start, Item.close, run_build,
    Spine.step_wrap, Spine.step_start]
  rw [h (by simp [hc]) (by simp)]
  simp [run_token hc (by decide), hk]

/-- One more suffix on a chain that is read. -/
theorem reads_suffix (h : Reads last ts [l] us (.chain isFree))
    (hs : ∀ loop isCall agenda (spine : Spine), SuffixLoop loop →
      run ⟨.await (loop isCall) :: agenda, spine.addAll [l]⟩ us (.input last) =
        run ⟨.await (loop e.isCall) :: agenda, spine.addAll [e]⟩ vs (.input last)) :
    Reads last ts [e] vs (.chain isFree) := by
  obtain ⟨token, rest, items, hts, hst, h⟩ := h
  refine ⟨token, rest, items, hts, hst, ?_⟩
  intro loop hloop hconst agenda spine
  rw [h loop hloop hconst, hs loop _ agenda spine hloop, List.any_cons, List.any_nil, Bool.or_false]

end Suffixes

/-! ### Rows of expressions -/

theorem reads_noArguments : Reads last ts [] ts .arguments := by
  intro hc hne agenda spine
  cases ts with
  | nil => exact absurd rfl hne
  | cons token rest =>
    have hk : token.kind = .closeParen := hc token rfl
    have hl : Opening.Leaves (nextToken last (token :: rest)) .arguments [] := .arguments hk
    exact run_left hl

theorem reads_ofExpressions (h : Reads last ts ns us .expressions)
    (hd : Derives .expressions ts ns us) : Reads last ts ns us .arguments := by
  intro hc hne agenda spine
  obtain ⟨first, others, rfl, ho⟩ := hd.opens rfl
  have hk : first.kind ≠ .closeParen := by
    intro hk'
    rw [hk'] at ho
    exact absurd ho (by decide)
  cases us with
  | nil => exact absurd rfl hne
  | cons closing rest =>
    have hk' : closing.kind = .closeParen := hc closing rfl
    rw [run_arguments_expression hk, h (ends_closing (.inl hk')) (by simp [hk'])]

theorem reads_first (he : Reads last ts [e] us (.expression lowestLevel))
    (h : Reads last us ns vs .moreExpressions) : Reads last ts (e :: ns) vs .expressions := by
  intro hv hc agenda spine
  obtain ⟨hu, h⟩ := h hv hc
  rw [Item.expression, lowest_eq, run_expression he hu, h, Spine.addAll_addAll]
  rfl

theorem reads_noMore : Reads last ts [] ts .moreExpressions := by
  intro he hc
  refine ⟨he, fun agenda spine => ?_⟩
  refine run_left (.moreArguments ?_)
  cases ts with
  | nil =>
    intro hk
    cases hk
  | cons token rest => exact hc token rfl

theorem reads_more (hk : token.kind = .comma)
    (he : Reads last ts [e] us (.expression lowestLevel))
    (h : Reads last us ns vs .moreExpressions) :
    Reads last (token :: ts) (e :: ns) vs .moreExpressions := by
  intro hv hc
  obtain ⟨hu, h⟩ := h hv hc
  refine ⟨⟨?_, ?_⟩, fun agenda spine => ?_⟩
  · intro token' ht
    cases ht
    simp [hk]
  · intro token' ht level label ho
    cases ht
    rw [hk] at ho
    cases ho
  · rw [run_taken (.nextArgument hk)]
    simp only [List.cons_append, List.nil_append, Item.expression, lowest_eq]
    rw [run_expression he hu, h, Spine.addAll_addAll]
    rfl

/-- Every phrase of the grammar is read. -/
theorem reads_of_derives (last : Nat) {phrase : Phrase} (h : phrase.Derives ts ns us) :
    Reads last ts ns us phrase := by
  induction h with
  | ofOperation _ ih =>
    intro hn _ hf level' hle _
    exact ih hn hf level' hle
  | logicalNot hk _ ih => exact reads_logicalNot hk ih
  | ofUnary hd ih =>
    intro hn _ level' _
    exact run_of_unary ih hd hn level'
  | binary hop hle hd _ ihl ihr => exact reads_binary hop hle ihl hd ihr
  | negate hk _ ih => exact reads_negate hk ih
  | ofChain hd ih => exact reads_ofChain ih hd
  | parenthesized ho hc _ ih => exact reads_parenthesized ho hc ih
  | literal hl => exact reads_literal hl
  | identifier hk => exact reads_identifier hk
  | superObject hk => exact reads_superObject hk
  | newObject hk hi ho hc _ ih => exact reads_newObject hk hi ho hc ih
  | field hk hn _ ih => exact reads_suffix ih fun _ _ _ _ hloop => run_field hloop hk hn
  | index hk hc _ hd ihl ihe =>
    exact reads_suffix ihl fun _ _ _ _ hloop => run_index hloop hk hc ihe hd
  | call hk hc _ _ ihl ihe => exact reads_suffix ihl fun _ _ _ _ hloop => run_call hloop hk hc ihe
  | noArguments => exact reads_noArguments
  | ofExpressions hd ih => exact reads_ofExpressions ih hd
  | first _ _ ihe ih => exact reads_first ihe ih
  | noMore => exact reads_noMore
  | more hk _ _ ihe ih => exact reads_more hk ihe ih

end Phrases

/-! ## Reading and the grammar agree -/

/-- A reading of an expression ends with one node, which the grammar derives. -/
theorem derives_of_run {level last : Nat} {tokens rest : List Token} {spine : Spine}
    (h : (ofExpression level).run tokens (.input last) = .ok (spine, rest)) :
    ∃ e, spine = Spine.empty.add e ∧ Derives (.expression level) tokens [e] rest ∧
      Ends level rest := by
  have h' : run ⟨[.await (.expression level)] ++ [], .empty⟩ tokens (.input last) =
      .ok (spine, rest) := h
  obtain ⟨spine', us, hw, -, hr⟩ := works_of_run (sound_expressionMeaning last) h'
  obtain ⟨middle, left, ⟨e, he, hends, rfl⟩, rfl, rfl⟩ := hw
  rw [run_done] at hr
  cases hr
  exact ⟨e, rfl, he, hends⟩

theorem run_of_derives {level last : Nat} {tokens rest : List Token} {e : Node}
    (h : Derives (.expression level) tokens [e] rest) (he : Ends level rest) :
    (ofExpression level).run tokens (.input last) = .ok (Spine.empty.add e, rest) := by
  have hr := run_expression (reads_of_derives last h) he [] .empty
  exact hr.trans run_done

/-- An expression of a level is read off some tokens exactly when the tokens
before the rest are one by the grammar, and the rest goes on neither with an
operator of the level nor with a suffix. Both ways the node and the rest are
settled by the tokens. -/
theorem climbing_reads_exactly_the_grammar_of_levels (level last : Nat) (tokens : List Token) :
    (∀ e rest, (ofExpression level).run tokens (.input last) = .ok (Spine.empty.add e, rest) ↔
      ∃ front, tokens = front ++ rest ∧ Phrase.DerivesAll (.expression level) front [e] ∧
        Ends level rest) ∧
    (∀ spine rest, (ofExpression level).run tokens (.input last) = .ok (spine, rest) →
      ∃ e, spine = Spine.empty.add e) ∧
    ∀ front front' rest rest' e e',
      tokens = front ++ rest → Phrase.DerivesAll (.expression level) front [e] → Ends level rest →
      tokens = front' ++ rest' → Phrase.DerivesAll (.expression level) front' [e'] →
      Ends level rest' → e = e' ∧ rest = rest' := by
  have hiff : ∀ e rest,
      (ofExpression level).run tokens (.input last) = .ok (Spine.empty.add e, rest) ↔
        ∃ front, tokens = front ++ rest ∧ Phrase.DerivesAll (.expression level) front [e] ∧
          Ends level rest := by
    intro e rest
    constructor
    · intro h
      obtain ⟨e', hs, hd, hends⟩ := derives_of_run h
      cases hs
      obtain ⟨front, hts, hf⟩ := Phrase.derives_iff_front.1 hd
      exact ⟨front, hts, hf, hends⟩
    · rintro ⟨front, hts, hf, hends⟩
      exact run_of_derives (Phrase.derives_iff_front.2 ⟨front, hts, hf⟩) hends
  refine ⟨hiff, fun spine rest h => ?_, ?_⟩
  · obtain ⟨e, hs, -⟩ := derives_of_run h
    exact ⟨e, hs⟩
  · intro front front' rest rest' e e' hts hd he hts' hd' he'
    have h := (hiff e rest).2 ⟨front, hts, hd, he⟩
    have h' := (hiff e' rest').2 ⟨front', hts', hd', he'⟩
    rw [h] at h'
    cases h'
    exact ⟨rfl, rfl⟩

end Pseudocode
