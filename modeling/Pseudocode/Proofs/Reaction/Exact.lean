-- The rules allow one reaction of a goal to a token, and it is the one that is
-- computed: each rule agrees with the computation, and to every token there is one.
import Pseudocode.Proofs.Reaction.Rules

namespace Pseudocode

open Goal Item Reaction

/-! ## Reactions around others -/

namespace Reaction

variable {reaction : Reaction} {before after items : List Item} {steps : List Step}
  {fault : Option Misplacement} {line : Nat}

theorem wrapped_nil (reaction : Reaction) : reaction.wrapped [] [] = reaction := by
  cases reaction <;> simp [wrapped]

theorem eq_take_of_wrapped (h : reaction.wrapped before after = take items) :
    ∃ begun, reaction = take begun ∧ items = before ++ begun ++ after := by
  cases reaction with
  | take begun => exact ⟨begun, rfl, (Reaction.take.inj h).symm⟩
  | leave steps => cases h
  | fail d => cases h

theorem eq_take_of_followed (h : reaction.followed after = take items) :
    ∃ begun, reaction = take begun ∧ items = begun ++ after :=
  eq_take_of_wrapped h

theorem eq_leave_of_wrapped (h : reaction.wrapped before after = leave steps) :
    reaction = leave steps := by
  cases reaction with
  | leave others => exact h
  | take items => cases h
  | fail d => cases h

theorem eq_leave_of_guarded (h : guarded fault line reaction = leave steps) :
    reaction = leave steps := by
  cases fault with
  | none => exact h
  | some what => cases h

theorem guarded_ne_unexpected {token : Token} :
    guarded fault line (take items) ≠ fail (.unexpected token) := by
  cases fault <;> simp [guarded, Diagnostic.unexpected]

theorem takeUnless_ne_fail {fault : Option Diagnostic} {d : Diagnostic} :
    takeUnless fault items ≠ fail d := by
  cases fault <;> simp [takeUnless]

theorem takeUnless_ne_leave {fault : Option Diagnostic} : takeUnless fault items ≠ leave steps := by
  cases fault <;> simp [takeUnless]

end Reaction

namespace Opening

/-! ## What the rules allow is what is computed -/

section Exact

variable {opening : Opening} {token : Token} {asked : Goal} {items : List Item} {steps : List Step}
  {kinds : List TokenKind} {what : Expectation} {r : Reaction}

theorem Takes.react_eq (h : opening.Takes token items) : opening.react token = take items := by
  cases h
  case operator hop hlevel => simp only [react, Goal.react, onOperators, hop, if_pos hlevel]
  case suffix hs => simp only [react, Goal.react, onSuffixes, hs]
  case chainSuffix hs => simp only [react, Goal.react, onChain, hs]
  case assign hk => simp [react, Goal.react, onChain, suffix?, hk]
  case counterAgain hk ht => simp [react, Goal.react, onCounterAgain, hk, ht]
  case mark hk hne => simp [react, Goal.react, onToken, hk, hne]
  case field hk =>
    rcases List.mem_cons.1 hk with hk | hk
    · simp only [react, Goal.react, onMemberName, hk]
    · simp only [react, Goal.react, onMemberName, List.mem_singleton.1 hk]
  case subroutineName hk =>
    rcases List.mem_cons.1 hk with hk | hk
    · simp only [react, Goal.react, onSubroutineName, hk]
    · simp only [react, Goal.react, onSubroutineName, List.mem_singleton.1 hk]
  all_goals
    rename_i hk
    simp only [react, Goal.react, onBase, onPrimary, onUnary, onExpression, onNewClass,
      onMoreArguments, onAfterGlobal, onArrayName, onOtherBranches, onCounter, onClauses,
      onCaseLabel, onParameter, onMoreParameters, onPassing, onPassingMode, onClassDeclName,
      onInheritance, onParentName, onMembers, onMember, onStatement, hk]

theorem Leaves.react_eq (h : Leaves token asked steps) : asked.react token = leave steps := by
  cases h with
  | program hk => exact if_pos hk
  | block hk => exact if_pos (List.contains_iff_mem.2 hk)
  | operators hop =>
    simp only [Goal.react, onOperators]
    split
    · exact if_neg (hop _ ‹_›)
    · rfl
  | suffixes hs => simp only [Goal.react, onSuffixes, hs]
  | chain hs hk => simp [Goal.react, onChain, hs, hk]
  | returnValue hk => simp [Goal.react, onReturnValue, hk]
  | arguments hk | parameters hk | moreArguments hk | moreParameters hk | passing hk
  | inheritance hk =>
    simp only [Goal.react, onArguments, onParameters, onMoreArguments, onMoreParameters, onPassing,
      onInheritance, hk]

theorem Lacks.react_eq (h : Lacks token opening what) :
    opening.react token = missing what token := by
  cases h with
  | other hd hk =>
    unfold demand? at hd
    split at hd
    all_goals cases hd
    all_goals
      simp only [react, Goal.react, onBase, onPrimary, onMemberName, onNewClass, onArrayName,
        onOtherBranches, onCounter, onClauses, onCaseLabel, onNegatedLabel, onSubroutineName,
        onParameter, onPassingMode, onClassDeclName, onParentName, onMember]
      split
      all_goals first
        | rfl
        | (rename_i h; rw [h] at hk; exact absurd (by decide) hk)
  | indices hk => simp only [react, Goal.react, onIndices, hk]
  | assign hs hk hc => simp [react, Goal.react, onChain, hs, hk, hc]
  | counterAgain hk => simp [react, Goal.react, onCounterAgain, hk]
  | endSwitch hk | endClass hk => simp only [react, Goal.react, onClauses, onMember, hk]
  | block hs hk => exact (if_neg (mt List.contains_iff_mem.1 hs)).trans (if_pos hk)
  | mark hk => exact if_neg hk

/-- Where there is no use for the token, that is what is said. -/
theorem react_of_demand (hd : (goal asked).demand? = some (kinds, what))
    (hk : token.kind ∉ kinds) : asked.react token = missing what token :=
  (Lacks.other hd hk).react_eq

/-- What takes a literal makes of it what all make of it. -/
theorem react_of_literals (h : token.kind ∈ opening.literals) :
    opening.react token = onLiteral token := by
  match opening with
  | primary | goal .caseLabel =>
    simp only [literals, List.mem_cons, List.not_mem_nil, or_false] at h
    rcases h with h | h | h | h <;> simp only [react, Goal.react, onPrimary, onCaseLabel, h]
  | goal .negatedLabel =>
    simp only [literals, List.mem_cons, List.not_mem_nil, or_false] at h
    rcases h with h | h <;> simp only [react, Goal.react, onNegatedLabel, h]

theorem Reacts.react_eq (h : Reacts token opening r) : opening.react token = r := by
  induction h with
  | taken h => exact h.react_eq
  | left h => exact h.react_eq
  | lacking h => exact h.react_eq
  | refusal | function | procedure => rfl
  | unexpected hk =>
    simp only [react, onStatement]
    split
    case h_18 => rfl
    all_goals
      rename_i h
      rw [h] at hk
      exact absurd (by decide) hk
  | literal hk hl | outOfRange hk hl => rw [react_of_literals hk, onLiteral, hl]
  | caseClause hk | defaultClause hk => simp only [react, Goal.react, onClauses, hk]
  | classDecl hk | returnStatement hk | breakStatement hk | continueStatement hk =>
    simp only [react, onStatement, hk]
  | base hk _ ih =>
    simp only [bases, List.mem_cons, List.not_mem_nil, or_false] at hk
    rw [← ih]
    rcases hk with hk | hk | hk <;> simp only [react, onPrimary, hk]
  | chainStatement hk _ ih =>
    simp only [bases, List.mem_cons, List.not_mem_nil, or_false] at hk
    rw [← ih]
    rcases hk with hk | hk | hk <;> simp only [react, onStatement, hk]
  | unmarkedMember hk _ ih =>
    simp only [List.mem_cons, List.not_mem_nil, or_false, not_or] at hk
    obtain ⟨hend, hpublic, hprivate⟩ := hk
    rw [← ih]
    simp only [react, Goal.react, onMembers]
  | block hs hk _ ih =>
    rw [← ih]
    exact (if_neg (mt List.contains_iff_mem.1 hs)).trans (if_neg hk)
  | returnValue hk hline _ ih =>
    rw [← ih]
    simp [react, Goal.react, onReturnValue, hk, hline]
  | program hk _ ih =>
    rw [← ih]
    exact if_neg hk
  | chain _ ih =>
    rw [← ih]
    rfl
  | subroutineStatement h ih | subroutineMember h ih =>
    rw [← ih]
    cases h with
    | function hk | procedure hk => simp only [react, Goal.react, onStatement, onMember, hk]
    | taken h => cases h
    | lacking h =>
      cases h with
      | other hd => cases hd
    | literal hk | outOfRange hk => cases hk
  | primary hk _ ih | unary hk _ ih | arguments hk _ ih | indices hk _ ih | globalChain hk _ ih
  | parameters hk _ ih =>
    rw [← ih]
    simp only [react, Goal.react, onUnary, onExpression, onArguments, onIndices, onAfterGlobal,
      onParameters]

/-- Only what can begin a chain is taken as its first token. -/
theorem mem_bases_of_onBase (h : onBase token = take items) : token.kind ∈ bases := by
  by_cases hk : token.kind ∈ bases
  · exact hk
  · have hr : onBase token = missing .identifier token :=
      (Lacks.other rfl hk : Lacks token base .identifier).react_eq
    rw [hr] at h
    cases h

theorem mem_starters_of_onStatement {ctx : Context} (h : onStatement ctx token = take items) :
    token.kind ∈ starters := by
  by_cases hk : token.kind ∈ starters
  · exact hk
  · have hr : onStatement ctx token = fail (.unexpected token) := (Reacts.unexpected hk).react_eq
    rw [hr] at h
    cases h

/-! ### Some rule applies -/

theorem isLiteral_of_literals (h : token.kind ∈ opening.literals) :
    token.kind.isLiteral = true := by
  have hall : ∀ kind ∈ primary.literals, kind.isLiteral = true := by decide
  unfold literals at h
  split at h
  · exact hall _ h
  · exact hall _ h
  · exact hall _ ((by decide : (goal .negatedLabel).literals ⊆ primary.literals) h)
  · cases h

theorem mem_literals_of_isLiteral (h : token.kind.isLiteral = true) :
    token.kind ∈ primary.literals := by
  have hall : ∀ kind : TokenKind, kind.isLiteral = true → kind ∈ primary.literals := by
    intro kind
    cases kind <;> decide
  exact hall _ h

/-- A literal whose number is out of range has no label. -/
theorem literalLabel_eq_error {d : Diagnostic} (hk : token.kind.isLiteral = true)
    (h : literalLabel token = .error d) : d = .invalidNumber token.text token.line := by
  unfold literalLabel at h
  split at h
  · dsimp only at h
    split at h
    · cases h
    · exact (Except.error.inj h).symm
  · split at h
    · cases h
    · exact (Except.error.inj h).symm
  · cases h
  · cases h
  · simp_all [TokenKind.isLiteral]

theorem exists_of_literals (hk : token.kind ∈ opening.literals) : ∃ r, Reacts token opening r := by
  cases hl : literalLabel token with
  | ok label => exact ⟨_, .literal hk hl⟩
  | error d =>
    have hd := literalLabel_eq_error (isLiteral_of_literals hk) hl
    subst hd
    exact ⟨_, .outOfRange hk hl⟩

/-- Only for the tokens that there is a use for a rule has to be found. -/
theorem exists_of_demand (hd : opening.demand? = some (kinds, what))
    (h : token.kind ∈ kinds → ∃ r, Reacts token opening r) : ∃ r, Reacts token opening r := by
  by_cases hk : token.kind ∈ kinds
  · exact h hk
  · exact ⟨_, .lacking (.other hd hk)⟩

theorem exists_of_name (hd : opening.demand? = some ([.identifier], what))
    (h : token.kind = .identifier → Takes token opening items) : ∃ r, Reacts token opening r :=
  exists_of_demand hd fun hk => ⟨_, .taken (h (List.mem_singleton.1 hk))⟩

/-- A token is taken if something holds of it, and left otherwise. -/
theorem exists_of_optional {p : Prop} (h : p → Takes token (goal asked) items)
    (h' : ¬p → Leaves token asked steps) : ∃ r, Reacts token (goal asked) r := by
  by_cases hp : p
  · exact ⟨_, .taken (h hp)⟩
  · exact ⟨_, .left (h' hp)⟩

theorem exists_base : ∃ r, Reacts token base r := by
  refine exists_of_demand rfl fun hk => ?_
  simp only [bases, List.mem_cons, List.not_mem_nil, or_false] at hk
  rcases hk with hk | hk | hk
  · exact ⟨_, .taken (.name hk)⟩
  · exact ⟨_, .taken (.superObject hk)⟩
  · exact ⟨_, .taken (.newObject hk)⟩

theorem exists_primary : ∃ r, Reacts token primary r := by
  refine exists_of_demand rfl fun hk => ?_
  rcases List.mem_append.1 hk with hk | hk
  · rcases List.mem_cons.1 hk with hk | hk
    · exact ⟨_, .taken (.parenthesis hk)⟩
    · exact exists_of_literals hk
  · obtain ⟨r, h⟩ := exists_base
    exact ⟨_, .base hk h⟩

theorem exists_unary : ∃ r, Reacts token (goal .unary) r := by
  by_cases hk : token.kind = .minus
  · exact ⟨_, .taken (.minus hk)⟩
  · obtain ⟨r, h⟩ := exists_primary
    exact ⟨_, .primary hk h⟩

theorem exists_expression (level : Nat) : ∃ r, Reacts token (goal (.expression level)) r := by
  by_cases hk : token.kind = .opNot
  · exact ⟨_, .taken (.logicalNot hk)⟩
  · obtain ⟨r, h⟩ := exists_unary
    exact ⟨_, .unary hk h⟩

theorem exists_chain (isGlobal : Bool) : ∃ r, Reacts token (chain isGlobal) r := by
  obtain ⟨r, h⟩ := exists_base
  exact ⟨_, .chain h⟩

theorem exists_member (ctx : Context) (isPublic : Bool) :
    ∃ r, Reacts token (goal (.member ctx isPublic)) r := by
  refine exists_of_demand rfl fun hk => ?_
  simp only [List.mem_cons, List.not_mem_nil, or_false] at hk
  rcases hk with hk | hk | hk | hk
  · exact ⟨_, .subroutineMember (.function hk)⟩
  · exact ⟨_, .subroutineMember (.procedure hk)⟩
  · exact ⟨_, .taken (.fieldMember hk)⟩
  · exact ⟨_, .lacking (.endClass hk)⟩

theorem exists_statement (ctx : Context) : ∃ r, Reacts token (statement ctx) r := by
  obtain ⟨r, hchain⟩ : ∃ r, Reacts token (chain false) r := exists_chain false
  by_cases hk : token.kind ∈ starters
  · simp only [starters, List.mem_cons, List.not_mem_nil, or_false] at hk
    rcases hk with hk | hk | hk | hk | hk | hk | hk | hk | hk | hk | hk | hk | hk | hk | hk | hk |
      hk
    · exact ⟨_, .taken (.globalStatement hk)⟩
    · exact ⟨_, .taken (.array hk)⟩
    · exact ⟨_, .chainStatement (by rw [hk]; decide) hchain⟩
    · exact ⟨_, .chainStatement (by rw [hk]; decide) hchain⟩
    · exact ⟨_, .chainStatement (by rw [hk]; decide) hchain⟩
    · exact ⟨_, .taken (.ifStatement hk)⟩
    · exact ⟨_, .taken (.forLoop hk)⟩
    · exact ⟨_, .taken (.whileLoop hk)⟩
    · exact ⟨_, .taken (.doLoop hk)⟩
    · exact ⟨_, .taken (.switch hk)⟩
    · exact ⟨_, .subroutineStatement (.function hk)⟩
    · exact ⟨_, .subroutineStatement (.procedure hk)⟩
    · exact ⟨_, .classDecl hk⟩
    · exact ⟨_, .taken (.print hk)⟩
    · exact ⟨_, .returnStatement hk⟩
    · exact ⟨_, .breakStatement hk⟩
    · exact ⟨_, .continueStatement hk⟩
  · exact ⟨_, .unexpected hk⟩

theorem exists_block (ctx : Context) (stops : List TokenKind) :
    ∃ r, Reacts token (goal (.block ctx stops)) r := by
  by_cases hs : token.kind ∈ stops
  · exact ⟨_, .left (.block hs)⟩
  · by_cases hk : token.kind = .endOfInput
    · exact ⟨_, .lacking (.block hs hk)⟩
    · obtain ⟨r, h⟩ := exists_statement ctx
      exact ⟨_, .block hs hk h⟩

theorem exists_restOfChain (isCall isGlobal : Bool) :
    ∃ r, Reacts token (goal (.chain isCall isGlobal)) r := by
  cases hs : suffix? token.kind with
  | some items => exact ⟨_, .taken (.chainSuffix hs)⟩
  | none =>
    by_cases hk : token.kind = .assign
    · exact ⟨_, .taken (.assign hk)⟩
    · cases isCall <;> cases isGlobal
      case true.false => exact ⟨_, .left (.chain hs hk)⟩
      all_goals exact ⟨_, .lacking (.assign hs hk rfl)⟩

theorem exists_otherBranches (ctx : Context) :
    ∃ r, Reacts token (goal (.otherBranches ctx)) r := by
  refine exists_of_demand rfl fun hk => ?_
  simp only [List.mem_cons, List.not_mem_nil, or_false] at hk
  rcases hk with hk | hk | hk
  · exact ⟨_, .taken (.elseIf hk)⟩
  · exact ⟨_, .taken (.elseBranch hk)⟩
  · exact ⟨_, .taken (.endIf hk)⟩

theorem exists_clauses (ctx : Context) (afterDefault : Bool) :
    ∃ r, Reacts token (goal (.clauses ctx afterDefault)) r := by
  refine exists_of_demand rfl fun hk => ?_
  simp only [List.mem_cons, List.not_mem_nil, or_false] at hk
  rcases hk with hk | hk | hk | hk
  · exact ⟨_, .caseClause hk⟩
  · exact ⟨_, .defaultClause hk⟩
  · exact ⟨_, .taken (.endSwitch hk)⟩
  · exact ⟨_, .lacking (.endSwitch hk)⟩

theorem exists_passingMode (name : String) :
    ∃ r, Reacts token (goal (.passingMode name)) r := by
  refine exists_of_demand rfl fun hk => ?_
  simp only [List.mem_cons, List.not_mem_nil, or_false] at hk
  rcases hk with hk | hk
  · exact ⟨_, .taken (.byRef hk)⟩
  · exact ⟨_, .taken (.byVal hk)⟩

theorem exists_members (ctx : Context) : ∃ r, Reacts token (goal (.members ctx)) r := by
  by_cases hk : token.kind ∈ [.kwEndClass, .kwPublic, .kwPrivate]
  · simp only [List.mem_cons, List.not_mem_nil, or_false] at hk
    rcases hk with hk | hk | hk
    · exact ⟨_, .taken (.endClass hk)⟩
    · exact ⟨_, .taken (.publicMember hk)⟩
    · exact ⟨_, .taken (.privateMember hk)⟩
  · obtain ⟨r, h⟩ := exists_member ctx false
    exact ⟨_, .unmarkedMember hk h⟩

/-- No goal is at a loss with a token. -/
theorem exists_goal (asked : Goal) : ∃ r, Reacts token (goal asked) r := by
  cases asked with
  | program ctx =>
    by_cases hk : token.kind = .endOfInput
    · exact ⟨_, .left (.program hk)⟩
    · obtain ⟨r, h⟩ := exists_statement ctx
      exact ⟨_, .program hk h⟩
  | block ctx stops => exact exists_block ctx stops
  | token kind =>
    by_cases hk : token.kind = kind ∧ kind ≠ .endOfInput
    · exact ⟨_, .taken (.mark hk.1 hk.2)⟩
    · exact ⟨_, .lacking (.mark hk)⟩
  | expression level => exact exists_expression level
  | operators level =>
    by_cases hop : ∃ op, BinaryOperator.of? token.kind = some op ∧ level ≤ op.level
    · obtain ⟨op, hop, hlevel⟩ := hop
      exact ⟨_, .taken (.operator hop hlevel)⟩
    · exact ⟨_, .left (.operators fun op h hlevel => hop ⟨op, h, hlevel⟩)⟩
  | unary => exact exists_unary
  | suffixes =>
    cases hs : suffix? token.kind with
    | some items => exact ⟨_, .taken (.suffix hs)⟩
    | none => exact ⟨_, .left (.suffixes hs)⟩
  | memberName => exact exists_of_demand rfl fun hk => ⟨_, .taken (.field hk)⟩
  | newClass => exact exists_of_name rfl .newClass
  | arguments =>
    by_cases hk : token.kind = .closeParen
    · exact ⟨_, .left (.arguments hk)⟩
    · obtain ⟨r, h⟩ := exists_expression BinaryOperator.lowest
      exact ⟨_, .arguments hk h⟩
  | moreArguments => exact exists_of_optional .nextArgument .moreArguments
  | indices =>
    by_cases hk : token.kind = .closeBracket
    · exact ⟨_, .lacking (.indices hk)⟩
    · obtain ⟨r, h⟩ := exists_expression BinaryOperator.lowest
      exact ⟨_, .indices hk h⟩
  | chain isCall isGlobal => exact exists_restOfChain isCall isGlobal
  | afterGlobal =>
    by_cases hk : token.kind = .kwArray
    · exact ⟨_, .taken (.globalArray hk)⟩
    · obtain ⟨r, h⟩ := exists_chain true
      exact ⟨_, .globalChain hk h⟩
  | arrayName isGlobal => exact exists_of_name rfl .arrayName
  | otherBranches ctx => exact exists_otherBranches ctx
  | counter ctx => exact exists_of_name rfl .counter
  | counterAgain name =>
    by_cases hk : token.kind = .identifier ∧ token.text = name
    · exact ⟨_, .taken (.counterAgain hk.1 hk.2)⟩
    · exact ⟨_, .lacking (.counterAgain hk)⟩
  | clauses ctx afterDefault => exact exists_clauses ctx afterDefault
  | caseLabel =>
    refine exists_of_demand rfl fun hk => ?_
    rcases List.mem_cons.1 hk with hk | hk
    · exact ⟨_, .taken (.negatedLabel hk)⟩
    · exact exists_of_literals hk
  | negatedLabel => exact exists_of_demand rfl exists_of_literals
  | returnValue ctx line =>
    by_cases hk : token.kind = .endOfInput ∨ token.line ≠ line
    · exact ⟨_, .left (.returnValue hk)⟩
    · obtain ⟨r, h⟩ := exists_expression BinaryOperator.lowest
      exact ⟨_, .returnValue (mt .inl hk) (Classical.not_not.1 (mt .inr hk)) h⟩
  | subroutineName ctx sort => exact exists_of_demand rfl fun hk => ⟨_, .taken (.subroutineName hk)⟩
  | parameters =>
    by_cases hk : token.kind = .closeParen
    · exact ⟨_, .left (.parameters hk)⟩
    · obtain ⟨r, h⟩ := exists_of_name rfl .parameter
      exact ⟨_, .parameters hk h⟩
  | parameter => exact exists_of_name rfl .parameter
  | moreParameters => exact exists_of_optional .nextParameter .moreParameters
  | passing name => exact exists_of_optional .passing .passing
  | passingMode name => exact exists_passingMode name
  | classDeclName ctx => exact exists_of_name rfl .classDeclName
  | inheritance name => exact exists_of_optional .inheritance .inheritance
  | parentName name => exact exists_of_name rfl .parentName
  | members ctx => exact exists_members ctx
  | member ctx isPublic => exact exists_member ctx isPublic
  | refusal d => exact ⟨_, .refusal⟩

theorem reacts_of_exists (h : ∃ r, Reacts token opening r) :
    Reacts token opening (opening.react token) := by
  obtain ⟨r, h⟩ := h
  rwa [h.react_eq]

/-- What is made of a token is what the rules allow, and nothing else. -/
theorem reacts_goal_iff : Reacts token (goal asked) r ↔ asked.react token = r := by
  constructor
  · exact Reacts.react_eq
  · rintro rfl
    exact reacts_of_exists (exists_goal asked)

theorem reacts_statement (ctx : Context) (token : Token) :
    Reacts token (statement ctx) (onStatement ctx token) :=
  reacts_of_exists (exists_statement ctx)

/-! ### Goals that go on with statements -/

variable {ctx : Context} {stops : List TokenKind}

theorem react_program (hk : token.kind ≠ .endOfInput) :
    (Goal.program ctx).react token = (onStatement ctx token).followed [await (.program ctx)] :=
  (Reacts.program hk (reacts_statement ctx token)).react_eq

theorem react_block (hs : token.kind ∉ stops) (hk : token.kind ≠ .endOfInput) :
    (Goal.block ctx stops).react token =
      (onStatement ctx token).followed [await (.block ctx stops)] :=
  (Reacts.block hs hk (reacts_statement ctx token)).react_eq

/-- A program takes a token as the first one of a statement. -/
theorem take_of_program (h : (Goal.program ctx).react token = take items) :
    ∃ begun, onStatement ctx token = take begun ∧ items = begun ++ [await (.program ctx)] := by
  by_cases hk : token.kind = .endOfInput
  · rw [(Leaves.program hk).react_eq] at h
    cases h
  · rw [react_program hk] at h
    exact eq_take_of_followed h

theorem take_of_block (h : (Goal.block ctx stops).react token = take items) :
    ∃ begun, onStatement ctx token = take begun ∧ items = begun ++ [await (.block ctx stops)] := by
  by_cases hs : token.kind ∈ stops
  · rw [(Leaves.block hs).react_eq] at h
    cases h
  · by_cases hk : token.kind = .endOfInput
    · have hr : (Goal.block ctx stops).react token = _ := (Lacks.block hs hk).react_eq
      rw [hr] at h
      cases h
    · rw [react_block hs hk] at h
      exact eq_take_of_followed h

end Exact

/-! ## Reactions that cannot come up -/

section Exclusive

variable {opening : Opening} {token : Token} {asked : Goal} {items : List Item} {steps : List Step}
  {r : Reaction}

/-- Only a goal of its own can be left, never a piece with which goals begin. -/
theorem Reacts.leaves (h : Reacts token opening r) (hr : r = leave steps) :
    ∃ asked, opening = goal asked ∧ Leaves token asked steps := by
  induction h with
  | left h =>
    cases hr
    exact ⟨_, rfl, h⟩
  | taken | lacking | unexpected | refusal | literal | outOfRange => cases hr
  | caseClause | defaultClause | function | procedure | classDecl =>
    cases eq_leave_of_guarded hr
  | returnStatement | breakStatement | continueStatement => exact absurd hr takeUnless_ne_leave
  | base _ _ ih | globalChain _ _ ih | chainStatement _ _ ih | subroutineStatement _ ih
  | parameters _ _ ih =>
    obtain ⟨asked, heq, hleaves⟩ := ih hr
    cases heq <;> cases hleaves
  | returnValue _ _ _ ih =>
    obtain ⟨asked, heq, hleaves⟩ := ih (eq_leave_of_wrapped (eq_leave_of_guarded hr))
    cases heq
    cases hleaves
  | chain _ ih | primary _ _ ih | unary _ _ ih | arguments _ _ ih | indices _ _ ih
  | subroutineMember _ ih | unmarkedMember _ _ ih | block _ _ _ ih | program _ _ ih =>
    obtain ⟨asked, heq, hleaves⟩ := ih (eq_leave_of_wrapped hr)
    cases heq <;> cases hleaves

theorem leaves_of_react (h : asked.react token = leave steps) : Leaves token asked steps := by
  obtain ⟨asked, heq, hleaves⟩ := (reacts_goal_iff.2 h).leaves rfl
  cases heq
  exact hleaves

/-- What can begin a statement is not unexpected where one begins. -/
theorem Reacts.ne_unexpected {ctx : Context} (h : Reacts token (statement ctx) r)
    (hk : token.kind ∈ starters) : r ≠ fail (.unexpected token) := by
  intro hr
  cases h with
  | taken | outOfRange | literal => cases hr
  | lacking h =>
    cases h with
    | other hd => cases hd
  | unexpected hs => exact hs hk
  | classDecl => exact guarded_ne_unexpected hr
  | returnStatement | breakStatement | continueStatement => exact takeUnless_ne_fail hr
  | chainStatement _ h =>
    cases h with
    | chain h =>
      cases h with
      | taken | outOfRange | literal | lacking => cases hr
    | taken | outOfRange | literal | lacking => cases hr
  | subroutineStatement h =>
    cases h with
    | function | procedure => exact guarded_ne_unexpected hr
    | taken | outOfRange | literal | lacking => cases hr

theorem Takes.ne_endOfInput (h : Takes token opening items) : token.kind ≠ .endOfInput := by
  intro hend
  cases h
  case mark hk hne => exact hne (hk.symm.trans hend)
  case operator hk _ | suffix hk | chainSuffix hk | counterAgain hk _ =>
    rw [hend] at hk
    cases hk
  all_goals
    rename_i hk
    rw [hend] at hk
    revert hk
    decide

/-- The end of the input is never taken. -/
theorem Reacts.ne_endOfInput (h : Reacts token opening r) (hr : r = take items) :
    token.kind ≠ .endOfInput := by
  induction h generalizing items with
  | taken h => exact h.ne_endOfInput
  | left | lacking | unexpected | refusal => cases hr
  | literal hk | outOfRange hk =>
    intro hend
    have hliteral := isLiteral_of_literals hk
    rw [hend] at hliteral
    cases hliteral
  | caseClause hk | defaultClause hk | function hk | procedure hk | classDecl hk
  | returnStatement hk | breakStatement hk | continueStatement hk =>
    rw [hk]
    decide
  | base _ _ ih | globalChain _ _ ih | chainStatement _ _ ih | subroutineStatement _ ih
  | parameters _ _ ih => exact ih hr
  | returnValue hk | block _ hk | program hk => exact hk
  | chain _ ih | primary _ _ ih | unary _ _ ih | arguments _ _ ih | indices _ _ ih
  | subroutineMember _ ih | unmarkedMember _ _ ih =>
    obtain ⟨begun, hbegun, -⟩ := eq_take_of_wrapped hr
    exact ih hbegun

end Exclusive

end Opening

/-! ## What is never left -/

theorem onExpression_ne_leave (level : Nat) (token : Token) (steps : List Step) :
    onExpression level token ≠ .leave steps := by
  intro h
  have hr : (Goal.expression level).react token = .leave steps := h
  cases Opening.leaves_of_react hr

theorem onUnary_ne_leave (token : Token) (steps : List Step) : onUnary token ≠ .leave steps := by
  intro h
  have hr : Goal.unary.react token = .leave steps := h
  cases Opening.leaves_of_react hr

theorem onParameter_ne_leave (token : Token) (steps : List Step) :
    onParameter token ≠ .leave steps := by
  intro h
  have hr : Goal.parameter.react token = .leave steps := h
  cases Opening.leaves_of_react hr

theorem onMember_ne_leave (ctx : Context) (isPublic : Bool) (token : Token) (steps : List Step) :
    onMember ctx isPublic token ≠ .leave steps := by
  intro h
  have hr : (Goal.member ctx isPublic).react token = .leave steps := h
  cases Opening.leaves_of_react hr

theorem onBase_ne_leave (token : Token) (steps : List Step) : onBase token ≠ .leave steps := by
  intro h
  obtain ⟨asked, heq, -⟩ := (Opening.reacts_of_exists Opening.exists_base).leaves h
  cases heq

theorem onPrimary_ne_leave (token : Token) (steps : List Step) :
    onPrimary token ≠ .leave steps := by
  intro h
  obtain ⟨asked, heq, -⟩ := (Opening.reacts_of_exists Opening.exists_primary).leaves h
  cases heq

theorem onStatement_ne_leave (ctx : Context) (token : Token) (steps : List Step) :
    onStatement ctx token ≠ .leave steps := by
  intro h
  obtain ⟨asked, heq, -⟩ := (Opening.reacts_of_exists (Opening.exists_statement ctx)).leaves h
  cases heq

theorem onSubroutine_ne_leave (ctx : Context) (sort : Subroutine) (token : Token)
    (steps : List Step) : onSubroutine ctx sort token ≠ .leave steps := by
  intro h
  cases eq_leave_of_guarded h

end Pseudocode
