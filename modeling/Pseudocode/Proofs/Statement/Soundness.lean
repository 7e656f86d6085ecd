-- Whatever a goal of a program makes of the next tokens is what it means: one
-- law for each goal, and from them that every run stays within the grammar.
import Pseudocode.Proofs.Statement.Meaning

namespace Pseudocode

open Construct (Derives Marked Visibility Parent CaseLabel Passing SomeParameters Parameters Whole
  blockOf)
open Goal (suffix?)
open Node (placedAll)
open Reading

section Soundness

variable {last : Nat} {ctx : Context} {spine spine' : Spine} {ts us : List Token}
  {items : List Item}

/-! ## Assignments, calls and arrays -/

theorem leads_onChainStart {isGlobal : Bool} {ts₀ : List Token}
    (hm : Marked .kwGlobal isGlobal ts₀ ts)
    (h : Leads statementMeaning (Goal.onChainStart isGlobal (nextToken last ts)) spine ts
      spine' us) :
    ∃ n, (∀ ordered, Derives ordered .statement ts₀ [n] us) ∧ (∀ ctx, n.placed ctx = true) ∧
      spine' = spine.addAll [n] := by
  obtain ⟨middle, left, hb, s, rest, hc, rfl, rfl⟩ := leads_followed (onBase_ne_leave _) h
  obtain ⟨l, hl, rfl, hcall⟩ := leads_onBase (leads_mono expressionMeaning_of_statementMeaning hb)
  exact hc spine ts₀ ts l rfl hm hl hcall

theorem leads_onChain {isCall isGlobal : Bool}
    (h : Leads statementMeaning (Goal.onChain isCall isGlobal (nextToken last ts)) spine ts
      spine' us) :
    statementMeaning (.chain isCall isGlobal) spine ts spine' us := by
  rintro outer ts₀ ts₁ l rfl hm hl hcall
  unfold Goal.onChain at h
  split at h
  · rename_i items hi
    obtain ⟨token, left, rfl, hw⟩ := h
    obtain ⟨middle, rest, hw, s, rest', hs, rfl, rfl⟩ := works_append.1 hw
    obtain ⟨e, he, hse, hcall'⟩ :=
      works_suffix hi hl (works_mono expressionMeaning_of_statementMeaning hw)
    exact hs outer ts₀ ts₁ e hse hm he hcall'
  · split at h
    · rename_i hk
      obtain ⟨equals, left, rfl, middle, rest, ⟨value, hv, -, rfl⟩, hs, rfl⟩ := h
      simp only [Spine.step_wrap, Spine.addAll_addAll, Spine.step_close] at hs
      refine ⟨_, fun ordered => .assign hm hl hk hv, fun ctx => ?_, hs⟩
      simp [placed_phrase hl, placed_phrase hv]
    · split at h
      · rename_i hfree
        obtain ⟨rfl, rfl⟩ := h
        simp only [Bool.and_eq_true, Bool.not_eq_true'] at hfree
        obtain ⟨rfl, rfl⟩ := hfree
        cases hm
        exact ⟨l, fun ordered => .call hl hcall, fun ctx => placed_phrase hl, rfl⟩
      · exact h.elim

theorem leads_onArrayName {isGlobal : Bool}
    (h : Leads statementMeaning (Goal.onArrayName isGlobal (nextToken last ts)) spine ts
      spine' us) :
    statementMeaning (.arrayName isGlobal) spine ts spine' us := by
  unfold Goal.onArrayName at h
  split at h
  · rename_i hk
    obtain ⟨name, left, rfl, s₁, t₁, ⟨opening, rfl, ho, rfl⟩, s₂, t₂, ⟨es, he, rfl⟩, s₃, t₃,
      ⟨closing, rfl, hc, rfl⟩, hs, rfl⟩ := h
    exact ⟨name, opening, closing, t₁, es, rfl, hk, ho, he, hc, by simpa using hs⟩
  · exact h.elim

/-- An array is a statement once its keyword is put in front. -/
theorem array_of_arrayName {isGlobal : Bool} {keyword : Token} {ts₀ : List Token}
    (hm : Marked .kwGlobal isGlobal ts₀ (keyword :: ts)) (hk : keyword.kind = .kwArray)
    (h : statementMeaning (.arrayName isGlobal) spine ts spine' us) :
    ∃ n, (∀ ordered, Derives ordered .statement ts₀ [n] us) ∧ (∀ ctx, n.placed ctx = true) ∧
      spine' = spine.addAll [n] := by
  obtain ⟨name, opening, closing, left, es, rfl, hn, ho, he, hc, rfl⟩ := h
  exact ⟨_, fun ordered => .array hm hk hn ho he hc, fun ctx => rfl, rfl⟩

theorem leads_onAfterGlobal
    (h : Leads statementMeaning (Goal.onAfterGlobal (nextToken last ts)) spine ts spine' us) :
    statementMeaning .afterGlobal spine ts spine' us := by
  intro keyword hkey
  unfold Goal.onAfterGlobal at h
  split at h
  · rename_i hk
    obtain ⟨array, left, rfl, middle, rest, ha, rfl, rfl⟩ := h
    exact array_of_arrayName (.present hkey) hk ha
  · exact leads_onChainStart (.present hkey) h

/-! ## Branches and loops -/

/-- A block is a row of statements up to one of its stops. -/
theorem works_block {stops : List TokenKind}
    (h : Works statementMeaning (Item.block ctx stops ++ items) spine ts spine' us) :
    ∃ ns left, Derives ctx.enforced .statements ts ns left ∧ placedAll ctx ns = true ∧
      (∀ token ∈ left.head?, token.kind ∈ stops) ∧
      Works statementMeaning items (spine.addAll [blockOf ns]) left spine' us := by
  obtain ⟨middle, left, ⟨ns, hd, hp, hstop, rfl⟩, hw⟩ := h
  refine ⟨ns, left, hd, hp, hstop, ?_⟩
  simpa [Item.close] using hw

/-- A branch is a condition and its block. -/
theorem works_branch
    (h : Works statementMeaning (Goal.branchItems ctx ++ items) spine ts spine' us) :
    ∃ c thenWord rest ns left, Whole ts c (thenWord :: rest) ∧ thenWord.kind = .kwThen ∧
      Derives ctx.enforced .statements rest ns left ∧
      (Node.tree .branch [c, blockOf ns]).placed ctx = true ∧
      Works statementMeaning items (spine.addAll [.tree .branch [c, blockOf ns]]) left spine'
        us := by
  have h' : Works statementMeaning ([Item.start .branch, Item.expression, Item.token .kwThen] ++
      (Item.block ctx.inBlock Goal.branchStops ++ (Item.close :: items))) spine ts spine' us := by
    simpa [Goal.branchItems] using h
  obtain ⟨s₁, t₁, ⟨c, hc, -, rfl⟩, s₂, t₂, ⟨thenWord, rfl, ht, rfl⟩, hw⟩ := h'
  obtain ⟨ns, left, hd, hp, -, hw⟩ := works_block hw
  refine ⟨c, thenWord, t₂, ns, left, hc, ht, hd, ?_, ?_⟩
  · simp [placed_phrase hc, hp]
  · simpa [Item.close] using hw

theorem leads_onOtherBranches
    (h : Leads statementMeaning (Goal.onOtherBranches ctx (nextToken last ts)) spine ts spine'
      us) :
    statementMeaning (.otherBranches ctx) spine ts spine' us := by
  unfold Goal.onOtherBranches at h
  split at h
  · rename_i hk
    obtain ⟨keyword, left, rfl, hw⟩ := h
    obtain ⟨c, thenWord, rest, ns, left', hc, ht, hd, hp, middle, rest', ⟨bs, hb, hpb, rfl⟩,
      rfl, rfl⟩ := works_branch hw
    refine ⟨.tree .branch [c, blockOf ns] :: bs, .elseIf hk hc ht hd hb, ?_, by simp⟩
    rw [placedAll_cons, hp, hpb]
    rfl
  · rename_i hk
    obtain ⟨keyword, left, rfl, hw⟩ := h
    obtain ⟨ns, left', hd, hp, -, s, t, ⟨closing, rfl, hc, rfl⟩, hs, rfl⟩ := works_block hw
    refine ⟨[.tree .elseBranch [blockOf ns]], .elseBranch hk hd hc, ?_, by simpa using hs⟩
    simp [hp]
  · rename_i hk
    obtain ⟨keyword, left, rfl, rfl, rfl⟩ := h
    exact ⟨[], .endIf hk, rfl, rfl⟩
  · exact h.elim

theorem leads_onCounter
    (h : Leads statementMeaning (Goal.onCounter ctx (nextToken last ts)) spine ts spine' us) :
    statementMeaning (.counter ctx) spine ts spine' us := by
  intro keyword hkey
  unfold Goal.onCounter at h
  split at h
  · rename_i hk
    obtain ⟨name, left, rfl, s₁, t₁, ⟨equals, rfl, he, rfl⟩, s₂, t₂, ⟨first, hf, -, rfl⟩, s₃, t₃,
      ⟨toWord, rfl, hto, rfl⟩, s₄, t₄, ⟨final, hl, -, rfl⟩, hw⟩ := h
    obtain ⟨ns, left', hd, hp, -, s₅, t₅, ⟨nextWord, rfl, hn, rfl⟩, s₆, t₆,
      ⟨again, rfl, ha, hsame, rfl⟩, rfl, rfl⟩ := works_block hw
    refine ⟨_, .forLoop hkey hk he hf hto hl hd hn ha hsame, ?_, by simp⟩
    simp [placed_phrase hf, placed_phrase hl, hp]
  · exact h.elim

theorem leads_onCounterAgain {name : String}
    (h : Leads statementMeaning (Goal.onCounterAgain name (nextToken last ts)) spine ts spine'
      us) :
    statementMeaning (.counterAgain name) spine ts spine' us := by
  unfold Goal.onCounterAgain at h
  split at h
  · rename_i hk
    obtain ⟨again, left, rfl, rfl, rfl⟩ := h
    simp only [Bool.and_eq_true, decide_eq_true_eq] at hk
    exact ⟨again, rfl, hk.1, hk.2, rfl⟩
  · exact h.elim

/-! ## Switches -/

/-- What is guarded goes on only if nothing speaks against it. -/
theorem leads_guarded {M : Meaning} {fault : Option Misplacement} {line : Nat}
    {reaction : Reaction}
    (h : Leads M (Reaction.guarded fault line reaction) spine ts spine' us) :
    fault = none ∧ Leads M reaction spine ts spine' us := by
  cases fault with
  | none => exact ⟨rfl, h⟩
  | some what => exact h.elim

/-- The rest of a clause: its body, then the clauses after it. -/
theorem works_clause {afterDefault : Bool} {shape : Shape} (parts : List Node)
    (h : Works statementMeaning (Goal.clauseItems ctx afterDefault)
      ((spine.start shape).addAll parts) ts spine' us) :
    ∃ colon rest ns left cs, ts = colon :: rest ∧ colon.kind = .colon ∧
      Derives ctx.enforced .statements rest ns left ∧ placedAll ctx.inClause ns = true ∧
      Derives ctx.enforced (.clauses afterDefault) left cs us ∧ placedAll ctx cs = true ∧
      spine' = spine.addAll (shape.node (parts ++ [blockOf ns]) :: cs) := by
  obtain ⟨s₁, t₁, ⟨colon, rfl, hk, rfl⟩, hw⟩ := h
  obtain ⟨ns, left, hd, hp, -, s₂, t₂, ⟨cs, hc, hpc, rfl⟩, rfl, rfl⟩ := works_block hw
  exact ⟨colon, t₁, ns, left, cs, rfl, hk, hd, hp, hc, hpc, by simp⟩

theorem leads_onClauses {afterDefault : Bool}
    (h : Leads statementMeaning (Goal.onClauses ctx afterDefault (nextToken last ts)) spine ts
      spine' us) :
    statementMeaning (.clauses ctx afterDefault) spine ts spine' us := by
  unfold Goal.onClauses at h
  split at h
  · rename_i hk
    obtain ⟨hf, keyword, left, rfl, s, t, ⟨label, hl, rfl⟩, hw⟩ := leads_guarded h
    obtain ⟨colon, rest, ns, left', cs, rfl, hcolon, hd, hp, hc, hpc, rfl⟩ :=
      works_clause [label] hw
    refine ⟨.tree .caseClause [label, blockOf ns] :: cs,
      .caseClause hk (clauseFault_eq_none.1 hf) hl hcolon hd hc, ?_, rfl⟩
    simp [placed_caseLabel hl, hp, hpc]
  · rename_i hk
    obtain ⟨hf, keyword, left, rfl, hw⟩ := leads_guarded h
    obtain ⟨colon, rest, ns, left', cs, rfl, hcolon, hd, hp, hc, hpc, rfl⟩ :=
      works_clause [] hw
    refine ⟨.tree .defaultClause [blockOf ns] :: cs,
      .defaultClause hk (clauseFault_eq_none.1 hf) hcolon hd hc, ?_, rfl⟩
    simp [hp, hpc]
  · rename_i hk
    obtain ⟨keyword, left, rfl, rfl, rfl⟩ := h
    exact ⟨[], .endSwitch hk, rfl, rfl⟩
  · exact h.elim
  · exact h.elim

theorem leads_onLiteral_statement
    (h : Leads statementMeaning (Goal.onLiteral (nextToken last ts)) spine ts spine' us) :
    ∃ token label, ts = token :: us ∧ Phrase.Literal token label ∧
      spine' = spine.addAll [.tree label []] :=
  leads_onLiteral (leads_mono expressionMeaning_of_statementMeaning h)

theorem leads_onCaseLabel
    (h : Leads statementMeaning (Goal.onCaseLabel (nextToken last ts)) spine ts spine' us) :
    statementMeaning .caseLabel spine ts spine' us := by
  unfold Goal.onCaseLabel at h
  split at h
  case h_1 hk =>
    obtain ⟨minus, left, rfl, s, t, ⟨token, label, rfl, hn, hl, rfl⟩, hs, rfl⟩ := h
    exact ⟨_, .negated hk hn hl, by simpa using hs⟩
  case h_6 => exact h.elim
  all_goals
    obtain ⟨token, label, rfl, hl, rfl⟩ := leads_onLiteral_statement h
    exact ⟨_, .literal hl, rfl⟩

theorem leads_onNegatedLabel
    (h : Leads statementMeaning (Goal.onNegatedLabel (nextToken last ts)) spine ts spine' us) :
    statementMeaning .negatedLabel spine ts spine' us := by
  unfold Goal.onNegatedLabel at h
  split at h
  case h_1 hk =>
    obtain ⟨token, label, rfl, hl, rfl⟩ := leads_onLiteral_statement h
    exact ⟨token, label, rfl, .inl hk, hl, rfl⟩
  case h_2 hk =>
    obtain ⟨token, label, rfl, hl, rfl⟩ := leads_onLiteral_statement h
    exact ⟨token, label, rfl, .inr hk, hl, rfl⟩
  case h_3 => exact h.elim

/-! ## Subroutines and classes -/

theorem placed_subroutine {sort : Subroutine} {name : String} {ps ns : List Node}
    (hf : ctx.subroutineFault = none) (hp : placedAll (ctx.inBody sort) ps = true)
    (hn : placedAll (ctx.inBody sort) ns = true) :
    (Node.tree (sort.label name) [.tree .params ps, blockOf ns]).placed ctx =
      true := by
  cases sort <;>
    simp [Subroutine.label, hf, hp, hn]

theorem leads_onSubroutineName {sort : Subroutine}
    (h : Leads statementMeaning (Goal.onSubroutineName ctx sort (nextToken last ts)) spine ts
      spine' us) :
    statementMeaning (.subroutineName ctx sort) spine ts spine' us := by
  intro keyword hkey hf
  have main : ∀ name left, (name.kind = .identifier ∨ name.kind = .kwNew) →
      Works statementMeaning ([Item.start (sort.label name.text),
        Item.token .openParen, Item.start .params, .await .parameters, Item.close,
        Item.token .closeParen] ++ (Item.block (ctx.inBody sort) [sort.ending] ++
        [Item.token sort.ending, Item.close])) spine left spine' us →
      ∃ n, Derives ctx.enforced .subroutine (keyword :: name :: left) [n] us ∧
        n.placed ctx = true ∧ spine' = spine.addAll [n] := by
    intro name left hname hw
    obtain ⟨s₁, t₁, ⟨opening, rfl, ho, rfl⟩, s₂, t₂, ⟨ps, hps, rfl⟩, s₃, t₃, ⟨closing, rfl, hc, rfl⟩,
      hw⟩ := hw
    obtain ⟨ns, left', hd, hp, -, s₄, t₄, ⟨ending, rfl, he, rfl⟩, hs, rfl⟩ := works_block hw
    refine ⟨_, .ofSort hkey hname ho hps hc hd he,
      placed_subroutine hf (placedAll_parameters hps) hp, ?_⟩
    simpa using hs
  unfold Goal.onSubroutineName at h
  simp only [subroutineLabel_eq, closing_eq] at h
  split at h
  · rename_i hk
    obtain ⟨name, left, rfl, hw⟩ := h
    exact main name left (.inl hk) hw
  · rename_i hk
    obtain ⟨name, left, rfl, hw⟩ := h
    exact main name left (.inr hk) hw
  · exact h.elim

theorem leads_onSubroutine {sort : Subroutine} (hk : (nextToken last ts).kind = sort.opening)
    (h : Leads statementMeaning (Goal.onSubroutine ctx sort (nextToken last ts)) spine ts spine'
      us) :
    ∃ n, Derives ctx.enforced .subroutine ts [n] us ∧ n.placed ctx = true ∧
      spine' = spine.addAll [n] := by
  obtain ⟨hf, keyword, left, rfl, s, t, hm, rfl, rfl⟩ := leads_guarded h
  exact hm keyword hk hf

theorem leads_onPassingMode {name : String}
    (h : Leads statementMeaning (Goal.onPassingMode name (nextToken last ts)) spine ts spine'
      us) :
    statementMeaning (.passingMode name) spine ts spine' us := by
  intro colon hcolon
  unfold Goal.onPassingMode at h
  split at h
  · rename_i hk
    obtain ⟨mode, left, rfl, rfl, rfl⟩ := h
    exact ⟨true, .byRef hcolon hk, rfl⟩
  · rename_i hk
    obtain ⟨mode, left, rfl, rfl, rfl⟩ := h
    exact ⟨false, .byVal hcolon hk, rfl⟩
  · exact h.elim

theorem leads_onPassing {name : String}
    (h : Leads statementMeaning (Goal.onPassing name (nextToken last ts)) spine ts spine' us) :
    statementMeaning (.passing name) spine ts spine' us := by
  unfold Goal.onPassing at h
  split at h
  · rename_i hk
    obtain ⟨colon, left, rfl, s, t, hm, rfl, rfl⟩ := h
    exact hm colon hk
  · obtain ⟨rfl, rfl⟩ := h
    exact ⟨false, .unsaid, rfl⟩

theorem leads_onParameter
    (h : Leads statementMeaning (Goal.onParameter (nextToken last ts)) spine ts spine' us) :
    statementMeaning .parameter spine ts spine' us := by
  unfold Goal.onParameter at h
  split at h
  · rename_i hk
    obtain ⟨name, left, rfl, s₁, t₁, ⟨byRef, hp, rfl⟩, s₂, t₂, hm, rfl, rfl⟩ := h
    rcases hm with ⟨rfl, rfl⟩ | ⟨comma, left', ns, rfl, hc, hs, rfl⟩
    · exact ⟨_, .last hk hp, rfl⟩
    · exact ⟨_, .more hk hp hc hs, Spine.addAll_addAll _ _ _⟩
  · exact h.elim

theorem leads_onParameters
    (h : Leads statementMeaning (Goal.onParameters (nextToken last ts)) spine ts spine' us) :
    statementMeaning .parameters spine ts spine' us := by
  unfold Goal.onParameters at h
  split at h
  · obtain ⟨rfl, rfl⟩ := h
    exact ⟨[], .none, rfl⟩
  · obtain ⟨ns, hs, rfl⟩ := leads_onParameter h
    exact ⟨ns, .some hs, rfl⟩

theorem leads_onMoreParameters
    (h : Leads statementMeaning (Goal.onMoreParameters (nextToken last ts)) spine ts spine' us) :
    statementMeaning .moreParameters spine ts spine' us := by
  unfold Goal.onMoreParameters at h
  split at h
  · rename_i hk
    obtain ⟨comma, left, rfl, s, t, ⟨ns, hs, rfl⟩, rfl, rfl⟩ := h
    exact .inr ⟨comma, left, ns, rfl, hk, hs, rfl⟩
  · obtain ⟨rfl, rfl⟩ := h
    exact .inl ⟨rfl, rfl⟩

theorem leads_onParentName {name : String}
    (h : Leads statementMeaning (Goal.onParentName name (nextToken last ts)) spine ts spine'
      us) :
    statementMeaning (.parentName name) spine ts spine' us := by
  unfold Goal.onParentName at h
  split at h
  · rename_i hk
    obtain ⟨parent, left, rfl, rfl, rfl⟩ := h
    exact ⟨parent, rfl, hk, rfl⟩
  · exact h.elim

theorem leads_onInheritance {name : String}
    (h : Leads statementMeaning (Goal.onInheritance name (nextToken last ts)) spine ts spine'
      us) :
    statementMeaning (.inheritance name) spine ts spine' us := by
  unfold Goal.onInheritance at h
  split at h
  · rename_i hk
    obtain ⟨keyword, left, rfl, s, t, ⟨parent, rfl, hp, rfl⟩, rfl, rfl⟩ := h
    exact ⟨_, .inherited hk hp, rfl⟩
  · obtain ⟨rfl, rfl⟩ := h
    exact ⟨none, .none, rfl⟩

theorem leads_onClassDeclName
    (h : Leads statementMeaning (Goal.onClassDeclName ctx (nextToken last ts)) spine ts spine'
      us) :
    statementMeaning (.classDeclName ctx) spine ts spine' us := by
  intro keyword hkey hf
  unfold Goal.onClassDeclName at h
  split at h
  · rename_i hk
    obtain ⟨name, left, rfl, s₁, t₁, ⟨parent, hp, rfl⟩, s₂, t₂, ⟨ms, hm, hpm, rfl⟩, hs, rfl⟩ := h
    refine ⟨_, .classDecl hkey hk hp hm, ?_, by simpa using hs⟩
    simp [hf, hpm]
  · exact h.elim

/-- A subroutine that is a member of a class. -/
theorem leads_method {sort : Subroutine} {isPublic : Bool}
    (hk : (nextToken last ts).kind = sort.opening)
    (h : Leads statementMeaning ((Goal.onSubroutine ctx sort (nextToken last ts)).wrapped
      [Item.start (.classMember isPublic)] [Item.close]) spine ts spine' us) :
    statementMeaning (.member ctx isPublic) spine ts spine' us := by
  obtain ⟨middle, left, hm, rfl, rfl⟩ :=
    leads_wrapped [.start (.tree (.classMember isPublic))]
      (onSubroutine_ne_leave ctx sort _) h
  obtain ⟨n, hd, hp, rfl⟩ := leads_onSubroutine hk hm
  exact ⟨n, fun _ _ _ hv hms => .method hv hd hms, hp, Spine.step_close _ _ _⟩

theorem leads_onMember {isPublic : Bool}
    (h : Leads statementMeaning (Goal.onMember ctx isPublic (nextToken last ts)) spine ts spine'
      us) :
    statementMeaning (.member ctx isPublic) spine ts spine' us := by
  unfold Goal.onMember at h
  split at h
  case h_1 hk => exact leads_method hk h
  case h_2 hk => exact leads_method hk h
  case h_3 hk =>
    obtain ⟨name, left, rfl, hs, rfl⟩ := h
    exact ⟨_, fun _ _ _ hv hms => .field hv hk hms, rfl, by simpa using hs⟩
  case h_4 => exact h.elim
  case h_5 => exact h.elim

/-- A member in front of further ones. -/
theorem members_of_member {isPublic : Bool} {middle : Spine} {left ts₀ : List Token}
    (hv : Visibility isPublic ts₀ ts)
    (hm : statementMeaning (.member ctx isPublic) spine ts middle left)
    (hms : statementMeaning (.members ctx) middle left spine' us) :
    statementMeaning (.members ctx) spine ts₀ spine' us := by
  obtain ⟨n, hd, hp, rfl⟩ := hm
  obtain ⟨ms, hdm, hpm, rfl⟩ := hms
  refine ⟨.tree (.classMember isPublic) [n] :: ms, hd _ _ _ hv hdm, ?_, by simp⟩
  simp [hp, hpm]

theorem leads_onMembers
    (h : Leads statementMeaning (Goal.onMembers ctx (nextToken last ts)) spine ts spine' us) :
    statementMeaning (.members ctx) spine ts spine' us := by
  unfold Goal.onMembers at h
  split at h
  · rename_i hk
    obtain ⟨closing, left, rfl, rfl, rfl⟩ := h
    exact ⟨[], .endClass hk, rfl, rfl⟩
  · rename_i hk
    obtain ⟨keyword, left, rfl, s₁, t₁, hm, s₂, t₂, hms, rfl, rfl⟩ := h
    exact members_of_member (.shown hk) hm hms
  · rename_i hk
    obtain ⟨keyword, left, rfl, s₁, t₁, hm, s₂, t₂, hms, rfl, rfl⟩ := h
    exact members_of_member (.hidden hk) hm hms
  · obtain ⟨middle, left, hm, s, t, hms, rfl, rfl⟩ := leads_followed (onMember_ne_leave _ _ _) h
    exact members_of_member .unsaid (leads_onMember hm) hms

/-! ## Statements -/

/-- What is taken unless something speaks against it is refused otherwise. -/
theorem leads_takeUnless {fault : Option Diagnostic}
    (h : Leads statementMeaning (Reaction.takeUnless fault items) spine ts spine' us) :
    fault = none ∧ Leads statementMeaning (.take items) spine ts spine' us := by
  cases fault with
  | none => exact ⟨rfl, h⟩
  | some diagnostic =>
    obtain ⟨token, left, -, s, t, hf, -⟩ := h
    exact hf.elim

theorem leads_onReturnValue {line : Nat}
    (h : Leads statementMeaning (Goal.onReturnValue ctx line (nextToken last ts)) spine ts spine'
      us) :
    statementMeaning (.returnValue ctx line) spine ts spine' us := by
  intro keyword hkey hline hf
  unfold Goal.onReturnValue at h
  split at h
  · rename_i hend
    obtain ⟨rfl, rfl⟩ := h
    refine ⟨_, fun ordered => .returnNothing hkey ?_, by simp [hf], rfl⟩
    intro next hn he
    cases us with
    | nil => cases hn
    | cons token rest =>
      cases hn
      rcases Bool.or_eq_true _ _ ▸ hend with hk | hl
      · exact absurd (of_decide_eq_true hk) he
      · rw [hline]
        exact of_decide_eq_true hl
  · rename_i hend
    obtain ⟨hv, h⟩ := leads_guarded h
    obtain ⟨middle, left, he, rfl, rfl⟩ :=
      leads_wrapped [.start (.tree .returnStatement)] (onExpression_ne_leave _ _) h
    obtain ⟨e, hd, -, rfl⟩ :=
      leads_onExpression (leads_mono expressionMeaning_of_statementMeaning he)
    cases ts with
    | nil => exact absurd (by simp [nextToken, Token.endOfInput]) hend
    | cons next rest =>
      have hsame : next.line = keyword.line := by
        rw [hline]
        by_cases hl : next.line = line
        · exact hl
        · exact absurd (by simp [hl]) hend
      refine ⟨_, fun ordered => .returnValue hkey hsame hd, ?_, Spine.step_close _ _ _⟩
      simp [hf, hv, placed_phrase hd]

theorem leads_onStatement
    (h : Leads statementMeaning (Goal.onStatement ctx (nextToken last ts)) spine ts spine' us) :
    ∃ n, Derives ctx.enforced .statement ts [n] us ∧ n.placed ctx = true ∧
      spine' = spine.addAll [n] := by
  unfold Goal.onStatement at h
  split at h
  case h_1 hk =>
    obtain ⟨keyword, left, rfl, s, t, hm, rfl, rfl⟩ := h
    obtain ⟨n, hd, hp, hs⟩ := hm keyword hk
    exact ⟨n, hd _, hp _, hs⟩
  case h_2 hk =>
    obtain ⟨keyword, left, rfl, s, t, ha, rfl, rfl⟩ := h
    obtain ⟨n, hd, hp, hs⟩ := array_of_arrayName .absent hk ha
    exact ⟨n, hd _, hp _, hs⟩
  case h_3 | h_4 | h_5 =>
    obtain ⟨n, hd, hp, hs⟩ := leads_onChainStart .absent h
    exact ⟨n, hd _, hp _, hs⟩
  case h_6 hk =>
    obtain ⟨keyword, left, rfl, hw⟩ := h
    obtain ⟨c, thenWord, rest, ns, left', hc, ht, hd, hp, s, t, ⟨bs, hb, hpb, rfl⟩, hs, rfl⟩ :=
      works_branch hw
    refine ⟨_, .ifStatement hk hc ht hd hb, ?_, by simpa using hs⟩
    simp [hpb] at hp ⊢
    exact hp
  case h_7 hk =>
    obtain ⟨keyword, left, rfl, s, t, hm, hs, rfl⟩ := h
    obtain ⟨parts, hd, hp, rfl⟩ := hm keyword hk
    exact ⟨_, hd, hp, by simpa using hs⟩
  case h_8 hk =>
    obtain ⟨keyword, left, rfl, s₁, t₁, ⟨c, hc, -, rfl⟩, hw⟩ := h
    obtain ⟨ns, left', hd, hp, -, s₂, t₂, ⟨closing, rfl, he, rfl⟩, hs, rfl⟩ := works_block hw
    refine ⟨_, .whileLoop hk hc hd he, ?_, by simpa using hs⟩
    simp [placed_phrase hc, hp]
  case h_9 hk =>
    obtain ⟨keyword, left, rfl, hw⟩ := h
    obtain ⟨ns, left', hd, hp, -, s₁, t₁, ⟨untilWord, rfl, hu, rfl⟩, s₂, t₂, ⟨c, hc, -, rfl⟩, hs,
      rfl⟩ := works_block hw
    refine ⟨_, .doLoop hk hd hu hc, ?_, by simpa using hs⟩
    simp [placed_phrase hc, hp]
  case h_10 hk =>
    obtain ⟨keyword, left, rfl, s₁, t₁, ⟨e, he, -, rfl⟩, s₂, t₂, ⟨colon, rfl, hc, rfl⟩, s₃, t₃,
      ⟨cs, hcs, hp, rfl⟩, hs, rfl⟩ := h
    refine ⟨_, .switch hk he hc hcs, ?_, by simpa using hs⟩
    simp [placed_phrase he, hp]
  case h_11 hk =>
    obtain ⟨n, hd, hp, hs⟩ := leads_onSubroutine hk h
    exact ⟨n, .ofSubroutine hd, hp, hs⟩
  case h_12 hk =>
    obtain ⟨n, hd, hp, hs⟩ := leads_onSubroutine hk h
    exact ⟨n, .ofSubroutine hd, hp, hs⟩
  case h_13 hk =>
    obtain ⟨hf, keyword, left, rfl, s, t, hm, rfl, rfl⟩ := leads_guarded h
    exact hm keyword hk hf
  case h_14 hk =>
    obtain ⟨keyword, left, rfl, s₁, t₁, ⟨opening, rfl, ho, rfl⟩, s₂, t₂, ⟨es, he, rfl⟩, s₃, t₃,
      ⟨closing, rfl, hc, rfl⟩, hs, rfl⟩ := h
    refine ⟨_, .print hk ho he hc, ?_, by simpa using hs⟩
    simp [placedAll_phrase he]
  case h_15 hk =>
    obtain ⟨hf, keyword, left, rfl, s, t, hm, rfl, rfl⟩ := leads_takeUnless h
    obtain ⟨n, hd, hp, hs⟩ := hm keyword hk rfl (by simpa [Goal.onLineOf] using hf)
    exact ⟨n, hd _, hp, hs⟩
  case h_16 hk =>
    obtain ⟨hf, keyword, left, rfl, rfl, rfl⟩ := leads_takeUnless h
    have hf' : ctx.breakFault = none := by simpa [Goal.onLineOf] using hf
    exact ⟨_, hk ▸ .jump (.inl hk), by simp [hf'], rfl⟩
  case h_17 hk =>
    obtain ⟨hf, keyword, left, rfl, rfl, rfl⟩ := leads_takeUnless h
    have hf' : ctx.continueFault = none := by simpa [Goal.onLineOf] using hf
    exact ⟨_, hk ▸ .jump (.inr hk), by simp [hf'], rfl⟩
  case h_18 => exact h.elim

/-- A statement in front of further ones. -/
theorem leads_statements (goal : Goal) {P : List Token → Prop}
    (hgoal : ∀ spine ts spine' us, statementMeaning goal spine ts spine' us →
      ∃ ns, Derives ctx.enforced .statements ts ns us ∧ placedAll ctx ns = true ∧ P us ∧
        spine' = spine.addAll ns)
    (h : Leads statementMeaning ((Goal.onStatement ctx (nextToken last ts)).followed
      [.await goal]) spine ts spine' us) :
    ∃ ns, Derives ctx.enforced .statements ts ns us ∧ placedAll ctx ns = true ∧ P us ∧
      spine' = spine.addAll ns := by
  obtain ⟨middle, left, hm, s, t, hg, rfl, rfl⟩ := leads_followed (onStatement_ne_leave _ _) h
  obtain ⟨n, hd, hp, rfl⟩ := leads_onStatement hm
  obtain ⟨ns, hds, hps, hrest, rfl⟩ := hgoal _ _ _ _ hg
  refine ⟨n :: ns, .oneMore hd hds, ?_, hrest, Spine.addAll_addAll _ _ _⟩
  rw [placedAll_cons, hp, hps]
  rfl

theorem leads_onBlock {stops : List TokenKind}
    (h : Leads statementMeaning (Goal.onBlock ctx stops (nextToken last ts)) spine ts spine'
      us) :
    statementMeaning (.block ctx stops) spine ts spine' us := by
  unfold Goal.onBlock at h
  split at h
  · rename_i hstop
    obtain ⟨rfl, rfl⟩ := h
    refine ⟨[], .noStatement, rfl, ?_, rfl⟩
    intro token ht
    cases us with
    | nil => cases ht
    | cons first rest =>
      cases ht
      simpa using hstop
  · split at h
    · exact h.elim
    · exact leads_statements (.block ctx stops)
        (P := fun us => ∀ token ∈ us.head?, token.kind ∈ stops) (fun _ _ _ _ hm => hm) h

theorem leads_onProgram
    (h : Leads statementMeaning (Goal.onProgram ctx (nextToken last ts)) spine ts spine' us) :
    statementMeaning (.program ctx) spine ts spine' us := by
  unfold Goal.onProgram at h
  split at h
  · rename_i hend
    obtain ⟨rfl, rfl⟩ := h
    refine ⟨[], .noStatement, rfl, ?_, rfl⟩
    intro token ht
    cases us with
    | nil => cases ht
    | cons first rest =>
      cases ht
      exact hend
  · exact leads_statements (.program ctx)
      (P := fun us => ∀ token ∈ us.head?, token.kind = .endOfInput) (fun _ _ _ _ hm => hm) h

/-- Every goal of a program does what the grammar and the rules of placement say. -/
theorem sound_statementMeaning (last : Nat) : Sound last statementMeaning := by
  intro goal spine ts spine' us h
  have expressions : expressionMeaning goal spine ts spine' us :=
    sound_expressionMeaning last goal spine ts spine' us
      (leads_mono expressionMeaning_of_statementMeaning h)
  cases goal with
  | program ctx => exact leads_onProgram h
  | block ctx stops => exact leads_onBlock h
  | chain isCall isGlobal => exact leads_onChain h
  | afterGlobal => exact leads_onAfterGlobal h
  | arrayName isGlobal => exact leads_onArrayName h
  | otherBranches ctx => exact leads_onOtherBranches h
  | counter ctx => exact leads_onCounter h
  | counterAgain name => exact leads_onCounterAgain h
  | clauses ctx afterDefault => exact leads_onClauses h
  | caseLabel => exact leads_onCaseLabel h
  | negatedLabel => exact leads_onNegatedLabel h
  | returnValue ctx line => exact leads_onReturnValue h
  | subroutineName ctx sort => exact leads_onSubroutineName h
  | parameters => exact leads_onParameters h
  | parameter => exact leads_onParameter h
  | moreParameters => exact leads_onMoreParameters h
  | passing name => exact leads_onPassing h
  | passingMode name => exact leads_onPassingMode h
  | classDeclName ctx => exact leads_onClassDeclName h
  | inheritance name => exact leads_onInheritance h
  | parentName name => exact leads_onParentName h
  | members ctx => exact leads_onMembers h
  | member ctx isPublic => exact leads_onMember h
  | _ => exact expressions

end Soundness

end Pseudocode
