-- The parts of statements are read up to where they end. Between two statements
-- there is no separator: that a statement ends is seen from the token the next
-- one begins with.
import Pseudocode.Proofs.Expression.Climbing
import Pseudocode.Proofs.Statement.Meaning

namespace Pseudocode

open Construct (Visibility Parent CaseLabel Passing SomeParameters Parameters Whole)
open Goal (suffix?)
open Reading

/-! ## What a statement begins with -/

theorem ne_endOfInput_of_starter {token : Token} (h : token.kind ∈ Goal.starters) :
    token.kind ≠ .endOfInput := by
  intro he
  rw [he] at h
  exact absurd h (by decide)

/-- No statement goes on with the tokens. -/
def Separate (tokens : List Token) : Prop :=
  ∀ token ∈ tokens.head?, suffix? token.kind = none ∧ BinaryOperator.of? token.kind = none ∧
    token.kind ≠ .assign

theorem separate_cons {token : Token} {tokens : List Token} {kind : TokenKind}
    (hk : token.kind = kind)
    (h : suffix? kind = none ∧ BinaryOperator.of? kind = none ∧ kind ≠ .assign) :
    Separate (token :: tokens) := by
  intro token' ht
  cases ht
  rwa [hk]

theorem separate_of_starter {token : Token} {tokens : List Token}
    (h : token.kind ∈ Goal.starters) : Separate (token :: tokens) := by
  have main : ∀ kind ∈ Goal.starters,
      suffix? kind = none ∧ BinaryOperator.of? kind = none ∧ kind ≠ .assign := by decide
  exact separate_cons rfl (main _ h)

theorem ends_of_separate {level : Nat} {tokens : List Token} (h : Separate tokens) :
    Ends level tokens := by
  constructor
  · intro token ht
    exact suffix?_eq_none_iff.1 (h token ht).1
  · intro token ht level' label ho
    exact absurd ho (not_operates_of_of? (h token ht).2.1)

/-- A token that is no suffix and no operator ends every expression. -/
theorem ends_cons {level : Nat} {token : Token} {tokens : List Token} {kind : TokenKind}
    (hk : token.kind = kind)
    (h : suffix? kind = none ∧ BinaryOperator.of? kind = none ∧ kind ≠ .assign) :
    Ends level (token :: tokens) :=
  ends_of_separate (separate_cons hk h)

section Parts

variable {last : Nat} {ctx : Context} {ts us vs : List Token} {n e : Node} {ns : List Node}
  {token : Token} {agenda : List Item} {spine : Spine}

/-! ## Expressions, labels and parameters -/

/-- A whole expression is read up to a token that ends it. -/
theorem run_whole (h : Whole ts e us) (he : Ends Phrase.lowestLevel us) :
    run ⟨Item.expression :: agenda, spine⟩ ts (.input last) =
      run ⟨agenda, spine.addAll [e]⟩ us (.input last) :=
  run_expression (reads_of_derives last h) he agenda spine

theorem run_caseLabel (h : CaseLabel ts e us) :
    run ⟨.await .caseLabel :: agenda, spine⟩ ts (.input last) =
      run ⟨agenda, spine.addAll [e]⟩ us (.input last) := by
  cases h with
  | @literal token _ label hl =>
    have hk : token.kind ∈ (Opening.goal .caseLabel).literals :=
      Opening.mem_literals_of_isLiteral hl.isLiteral
    have hr : Goal.caseLabel.react token = .take [Item.leaf label] :=
      (Opening.Reacts.literal hk (literalLabel_eq_ok_iff.2 hl)).react_eq
    rw [run_take hr]
    simp [Item.leaf]
  | @negated minus token _ label hm hn hl =>
    have hk : token.kind ∈ (Opening.goal .negatedLabel).literals := by
      simpa [Opening.literals] using hn
    have hr : Goal.negatedLabel.react token = .take [Item.leaf label] :=
      (Opening.Reacts.literal hk (literalLabel_eq_ok_iff.2 hl)).react_eq
    rw [run_taken (.negatedLabel hm)]
    simp only [List.cons_append, List.nil_append, Item.start, run_build]
    rw [run_take hr]
    simp [Item.leaf, Item.close]

theorem run_passing {byRef : Bool} {name : String} (h : Passing byRef ts us)
    (hu : ∃ token rest, us = token :: rest ∧ token.kind ≠ .colon) :
    run ⟨.await (.passing name) :: agenda, spine⟩ ts (.input last) =
      run ⟨agenda, spine.addAll [.tree (.param byRef name) []]⟩ us (.input last) := by
  cases h with
  | byRef hc hm =>
    rw [run_taken (.passing hc), List.cons_append, run_taken (.byRef hm)]
    simp [Item.leaf]
  | byVal hc hm =>
    rw [run_taken (.passing hc), List.cons_append, run_taken (.byVal hm)]
    simp [Item.leaf]
  | unsaid =>
    obtain ⟨token, rest, rfl, hk⟩ := hu
    have hl : Opening.Leaves (nextToken last (token :: rest)) (.passing name)
        [.leaf (.param false name)] := .passing hk
    rw [run_left hl]
    rfl

/-- Where no comma follows, the parameters are at their end. -/
theorem run_moreParameters_done {closing : Token} (hc : closing.kind = .closeParen) :
    run ⟨.await .moreParameters :: agenda, spine⟩ (closing :: us) (.input last) =
      run ⟨agenda, spine⟩ (closing :: us) (.input last) := by
  have hne : closing.kind ≠ .comma := by simp [hc]
  have hl : Opening.Leaves (nextToken last (closing :: us)) .moreParameters [] :=
    .moreParameters hne
  exact run_left hl

theorem run_parameter {closing : Token} (hc : closing.kind = .closeParen)
    (h : SomeParameters ts ns (closing :: us)) :
    run ⟨.await .parameter :: agenda, spine⟩ ts (.input last) =
      run ⟨agenda, spine.addAll ns⟩ (closing :: us) (.input last) := by
  generalize hvs : closing :: us = vs at h
  induction h generalizing spine with
  | @last name ts vs byRef hn hp =>
    subst hvs
    rw [run_taken (.parameter hn), List.cons_append,
      run_passing hp ⟨closing, us, rfl, by simp [hc]⟩]
    exact run_moreParameters_done hc
  | @more name comma ts vs ws byRef ns hn hp hcomma _ ih =>
    rw [run_taken (.parameter hn), List.cons_append,
      run_passing hp ⟨comma, vs, rfl, by simp [hcomma]⟩, List.cons_append,
      run_taken (.nextParameter hcomma), List.nil_append, List.cons_append, List.nil_append,
      ih hvs, Spine.addAll_addAll]
    rfl

theorem run_parameters {closing : Token} (hc : closing.kind = .closeParen)
    (h : Parameters ts ns (closing :: us)) :
    run ⟨.await .parameters :: agenda, spine⟩ ts (.input last) =
      run ⟨agenda, spine.addAll ns⟩ (closing :: us) (.input last) := by
  cases h with
  | none =>
    have hl : Opening.Leaves (nextToken last (closing :: us)) .parameters [] := .parameters hc
    exact run_left hl
  | some h =>
    have hname : ∃ name rest, ts = name :: rest ∧ name.kind = .identifier := by
      cases h with
      | last hn _ => exact ⟨_, _, rfl, hn⟩
      | more hn _ _ _ => exact ⟨_, _, rfl, hn⟩
    obtain ⟨name, rest, rfl, hn⟩ := hname
    have hne : name.kind ≠ .closeParen := by simp [hn]
    have hr : Goal.parameters.react name = (Goal.parameter.react name).followed [] := by
      rw [Reaction.followed, Reaction.wrapped_nil]
      exact (Opening.Reacts.parameters hne (Opening.reacts_goal_iff.2 rfl)).react_eq
    rw [run_followed [] hr (onParameter_ne_leave name), List.nil_append, run_parameter hc h]

/-! ## Chains and arrays -/

theorem onStatement_of_onBase {items : List Item} (h : Goal.onBase token = .take items) :
    Goal.onStatement ctx token = Goal.onChainStart false token :=
  (Opening.Reacts.chainStatement (Opening.mem_bases_of_onBase h)
    (Opening.reacts_of_exists (Opening.exists_chain false))).react_eq

theorem onAfterGlobal_of_onBase {items : List Item} (h : Goal.onBase token = .take items) :
    Goal.onAfterGlobal token = Goal.onChainStart true token := by
  have hne : token.kind ≠ .kwArray := by
    intro hk
    have hbase := Opening.mem_bases_of_onBase h
    rw [hk] at hbase
    exact absurd hbase (by decide)
  exact (Opening.Reacts.globalChain hne
    (Opening.reacts_of_exists (Opening.exists_chain true))).react_eq

/-- A chain that is a statement is read up to where it ends. -/
theorem run_chainStart (last : Nat) (isGlobal : Bool) (h : Phrase.Derives (.chain false) ts [e] us) :
    ∃ token rest items, ts = token :: rest ∧ Goal.onBase token = .take items ∧
      Goal.onChainStart isGlobal token =
        .take (items ++ [.await (.chain (token.kind = .kwNew) isGlobal)]) ∧ ∀ agenda spine,
        run ⟨items ++ .await (.chain (token.kind = .kwNew) isGlobal) :: agenda, spine⟩ rest
          (.input last) =
          run ⟨.await (.chain e.isCall isGlobal) :: agenda, spine.addAll [e]⟩ us
            (.input last) := by
  obtain ⟨token, rest, items, rfl, hs, h⟩ := reads_of_derives last h
  have hloop : SuffixLoop fun isCall => .chain isCall isGlobal :=
    fun _ _ _ hi => (Opening.Takes.chainSuffix hi).react_eq
  have hb : Goal.onBase token = .take items := hs
  refine ⟨token, rest, items, rfl, hb, ?_, ?_⟩
  · unfold Goal.onChainStart
    rw [hb]
    rfl
  · intro agenda spine
    rw [h _ hloop (by simp), List.any_cons, List.any_nil, Bool.or_false]

/-- A chain and an equals sign go on with the value. -/
theorem run_assigned {isGlobal isCall : Bool} {equals : Token} (hk : equals.kind = .assign)
    (hv : Whole us n vs) (hs : Separate vs) :
    run ⟨.await (.chain isCall isGlobal) :: agenda, spine.addAll [e]⟩ (equals :: us)
        (.input last) =
      run ⟨agenda, spine.addAll [.tree (.assign isGlobal) [e, n]]⟩ vs (.input last) := by
  rw [run_taken (.assign hk)]
  simp only [List.cons_append, List.nil_append, Item.wrap, run_build, Spine.step_wrap]
  rw [run_whole hv (ends_of_separate hs)]
  simp [Item.close]

theorem run_arrayName {isGlobal : Bool} {name opening closing : Token}
    (hn : name.kind = .identifier) (ho : opening.kind = .openBracket)
    (hd : Phrase.Derives .expressions us ns (closing :: vs)) (hc : closing.kind = .closeBracket) :
    run ⟨.await (.arrayName isGlobal) :: agenda, spine⟩ (name :: opening :: us) (.input last) =
      run ⟨agenda, spine.addAll [.array isGlobal name.text ns []]⟩ vs (.input last) := by
  obtain ⟨first, others, rfl, hk⟩ := hd.opens rfl
  have hne : first.kind ≠ .closeBracket := by
    intro hk'
    rw [hk'] at hk
    exact absurd hk (by decide)
  rw [run_taken (.arrayName hn)]
  simp only [List.cons_append, List.nil_append, run_build, Spine.step_start]
  rw [run_token ho (by decide), run_indices_expression hne,
    reads_of_derives last hd (ends_closing (.inr hc)) (by simp [hc]), run_token hc (by decide)]
  simp [Item.close]

/-! ## Values that are given back -/

/-- Without a token on its line a `return` has no value. -/
theorem react_returnValue_leave {line : Nat}
    (hnext : ∀ next ∈ ts.head?, next.kind ≠ .endOfInput → next.line ≠ line) :
    (Goal.returnValue ctx line).react (nextToken last ts) = .leave [.leaf .returnStatement] := by
  cases ts with
  | nil => rfl
  | cons next rest =>
    have hleft : next.kind = .endOfInput ∨ next.line ≠ line := by
      by_cases hend : next.kind = .endOfInput
      · exact .inl hend
      · exact .inr (hnext next rfl hend)
    exact (Opening.Leaves.returnValue hleft).react_eq

/-- The value of a `return` begins on its line. -/
theorem react_returnValue {next : Token} {line : Nat} (hd : Whole (next :: ts) e us)
    (hline : next.line = line) :
    (Goal.returnValue ctx line).react next =
      .guarded ctx.valueFault line (((Goal.expression BinaryOperator.lowest).react next).wrapped
        ([.start (.tree .returnStatement)].map .build) [Item.close]) := by
  have hend : next.kind ≠ .endOfInput := by
    obtain ⟨first, others, hts, hfirst⟩ := hd.opens rfl
    cases hts
    intro he
    rw [he] at hfirst
    exact absurd hfirst (by decide)
  exact (Opening.Reacts.returnValue hend hline (Opening.reacts_goal_iff.2 rfl)).react_eq

/-! ## Members and parents of classes -/

theorem run_fieldMember {isPublic : Bool} {name : Token} (hn : name.kind = .identifier) :
    run ⟨.await (.member ctx isPublic) :: agenda, spine⟩ (name :: ts) (.input last) =
      run ⟨agenda, spine.addAll [.tree (.classMember isPublic)
        [.tree (.identifier name.text) []]]⟩ ts (.input last) := by
  rw [run_taken (.fieldMember hn)]
  simp [Item.start, Item.leaf, Item.close]

/-- What a member begins with after the keyword that shows or hides it. -/
def MemberStart (tokens : List Token) : Prop :=
  ∃ token rest, tokens = token :: rest ∧
    token.kind ∈ [TokenKind.kwFunction, .kwProcedure, .identifier]

theorem run_visibility {isPublic : Bool} (h : Visibility isPublic ts us) (hu : MemberStart us) :
    run ⟨.await (.members ctx) :: agenda, spine⟩ ts (.input last) =
      run ⟨.await (.member ctx isPublic) :: .await (.members ctx) :: agenda, spine⟩ us
        (.input last) := by
  cases h with
  | shown hk => exact run_taken (.publicMember hk)
  | hidden hk => exact run_taken (.privateMember hk)
  | unsaid =>
    obtain ⟨token, rest, rfl, hk⟩ := hu
    have hunmarked : token.kind ∉ [TokenKind.kwEndClass, .kwPublic, .kwPrivate] := by
      have hall : ∀ kind ∈ [TokenKind.kwFunction, .kwProcedure, .identifier],
          kind ∉ [TokenKind.kwEndClass, .kwPublic, .kwPrivate] := by decide
      exact hall _ hk
    have hr : (Goal.members ctx).react token =
        ((Goal.member ctx false).react token).followed [.await (.members ctx)] :=
      (Opening.Reacts.unmarkedMember hunmarked (Opening.reacts_goal_iff.2 rfl)).react_eq
    exact run_followed _ hr (onMember_ne_leave ctx false token)

theorem not_inherits_of_member {isPublic : Bool} (h : Visibility isPublic ts us)
    (hu : MemberStart us) : ∀ token ∈ ts.head?, token.kind ≠ .kwInherits := by
  intro token ht
  cases h with
  | shown hk =>
    cases ht
    simp [hk]
  | hidden hk =>
    cases ht
    simp [hk]
  | unsaid =>
    obtain ⟨first, rest, rfl, hk⟩ := hu
    cases ht
    intro he
    rw [he] at hk
    exact absurd hk (by decide)

/-- The parent of a class is read if there is one. -/
theorem run_inheritance {name : String} {parent : Option String} (hp : Parent parent ts us)
    (hu : ∀ token ∈ us.head?, token.kind ≠ .kwInherits) :
    run ⟨.await (.inheritance name) :: agenda, spine⟩ ts (.input last) =
      run ⟨agenda, spine.start (.tree (.classDecl name parent))⟩ us (.input last) := by
  cases hp with
  | inherited hi hparent =>
    rw [run_taken (.inheritance hi), List.cons_append, run_taken (.parentName hparent)]
    simp [Item.start]
  | none =>
    refine run_left (.inheritance ?_)
    cases ts with
    | nil =>
      intro hk
      cases hk
    | cons next rest => exact hu next rfl

end Parts

end Pseudocode
