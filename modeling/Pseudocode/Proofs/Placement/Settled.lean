-- Reading under the rules of placement, construct by construct: it goes on
-- behind a construct in which no rule is broken, and stops with the first
-- offence in any other.
import Pseudocode.Proofs.Placement.Rules
import Pseudocode.Proofs.Statement.Parts

namespace Pseudocode

open Construct (Marked Visibility Parent CaseLabel Parameters Whole blockOf)
open Goal (suffix?)
open Reading

/-! ## Stopping with the first offence -/

/-- What comes of a reading that offences may stop before. -/
def Reading.stoppedBy {α : Type} : List Offence → Except Diagnostic α → Except Diagnostic α
  | [], outcome => outcome
  | offence :: _, _ => .error offence.diagnostic

@[simp] theorem stoppedBy_nil {α : Type} (outcome : Except Diagnostic α) :
    stoppedBy [] outcome = outcome := rfl

@[simp] theorem stoppedBy_append {α : Type} (os others : List Offence)
    (outcome : Except Diagnostic α) :
    stoppedBy (os ++ others) outcome = stoppedBy os (stoppedBy others outcome) := by
  cases os <;> rfl

/-- A goal that reads statements for as long as there are any, and finds what
speaks against them. -/
def Goal.LoopsOver (ctx : Context) (goal : Goal) : Prop :=
  ∀ token, token.kind ∈ Goal.starters →
    goal.react token = (Goal.onStatement ctx token).followed [.await goal]

theorem Goal.loopsOver_program (ctx : Context) : Goal.LoopsOver ctx (.program ctx) :=
  fun _ hk => Opening.react_program (ne_endOfInput_of_starter hk)

/-- What reading does to the tokens of a construct with these offences, in front
of any agenda. -/
def Construct.Settles (last : Nat) (ctx : Context) (os : List Offence) (ts : List Token)
    (ns : List Node) (us : List Token) : Construct → Prop
  | statement =>
    Separate us → ∃ token rest, ts = token :: rest ∧ token.kind ∈ Goal.starters ∧
      ∀ goal after, goal.react token = (Goal.onStatement ctx token).followed after →
        ∀ agenda spine, run ⟨.await goal :: agenda, spine⟩ ts (.input last) =
          stoppedBy os (run ⟨after ++ agenda, spine.addAll ns⟩ us (.input last))
  | statements =>
    Separate us → Separate ts ∧ ∀ goal, Goal.LoopsOver ctx goal → ∀ agenda spine,
      run ⟨.await goal :: agenda, spine⟩ ts (.input last) =
        stoppedBy os (run ⟨.await goal :: agenda, spine.addAll ns⟩ us (.input last))
  | otherBranches =>
    (∃ token rest, ts = token :: rest ∧ token.kind ∈ Goal.branchStops) ∧ ∀ agenda spine,
      run ⟨.await (.otherBranches ctx) :: agenda, spine⟩ ts (.input last) =
        stoppedBy os (run ⟨agenda, spine.addAll ns⟩ us (.input last))
  | clauses afterDefault =>
    (∃ token rest, ts = token :: rest ∧ token.kind ∈ Goal.clauseStops) ∧ ∀ agenda spine,
      run ⟨.await (.clauses ctx afterDefault) :: agenda, spine⟩ ts (.input last) =
        stoppedBy os (run ⟨agenda, spine.addAll ns⟩ us (.input last))
  | subroutine =>
    ∃ token rest sort, ts = token :: rest ∧ token.kind = sort.opening ∧
      ∀ goal before after, goal.react token =
          (Goal.onSubroutine ctx sort token).wrapped (before.map .build) after →
        ∀ agenda spine, run ⟨.await goal :: agenda, spine⟩ ts (.input last) =
          stoppedBy os (run ⟨after ++ agenda, (spine.steps before).addAll ns⟩ us (.input last))
  | members =>
    (∀ token ∈ ts.head?, token.kind ≠ .kwInherits) ∧ ∀ agenda spine,
      run ⟨.await (.members ctx) :: agenda, spine⟩ ts (.input last) =
        stoppedBy os (run ⟨agenda, spine.addAll ns⟩ us (.input last))

section Settled

variable {last : Nat} {ctx : Context} {ts us vs ws : List Token} {n e c : Node}
  {ns ps bs cs ms : List Node} {token : Token} {agenda items after : List Item} {spine : Spine}
  {goal : Goal} {fault : Option Misplacement} {os others : List Offence}

/-- Where nothing is found to offend, reading goes on behind the construct. -/
theorem Construct.Settles.of_eq_nil {construct : Construct}
    (h : construct.Settles last ctx os ts ns us) (ho : os = []) :
    construct.Settles last ctx [] ts ns us := by
  rwa [ho] at h

/-- Something that speaks against a token stops the reading there. -/
theorem run_guarded {before : List Step} (h : goal.react token =
      (Reaction.guarded fault token.line (.take items)).wrapped (before.map .build) after) :
    run ⟨.await goal :: agenda, spine⟩ (token :: ts) (.input last) =
      stoppedBy (Offence.of fault token)
        (run ⟨items ++ (after ++ agenda), spine.steps before⟩ ts (.input last)) := by
  cases fault with
  | none =>
    rw [run_take h]
    simp only [List.append_assoc, run_builds]
    rfl
  | some rule =>
    have hr : goal.react (nextToken last (token :: ts)) = .fail (.misplaced rule token.line) := h
    rw [run_fail hr]
    rfl

/-- Something that speaks against a token that is taken stops the reading behind it. -/
theorem run_takeUnless (h : goal.react token =
      (Reaction.takeUnless (Goal.onLineOf token fault) items).followed after) :
    run ⟨.await goal :: agenda, spine⟩ (token :: ts) (.input last) =
      stoppedBy (Offence.of fault token)
        (run ⟨items ++ (after ++ agenda), spine⟩ ts (.input last)) := by
  cases fault with
  | none =>
    rw [run_take h, List.append_assoc]
    rfl
  | some rule =>
    have hr : ∀ next, (Goal.refusal (.misplaced rule token.line)).react next =
        .fail (.misplaced rule token.line) := fun _ => rfl
    rw [run_take h]
    exact run_fail (hr _)

/-! ## Statements whose first token is taken -/

/-- Nothing speaks against the first token, whatever is out of place behind it. -/
theorem settles_of_take (ht : Goal.onStatement ctx token = .take items)
    (h : Separate us → ∀ agenda spine, run ⟨items ++ agenda, spine⟩ ts (.input last) =
      stoppedBy os (run ⟨agenda, spine.addAll ns⟩ us (.input last))) :
    Construct.statement.Settles last ctx os (token :: ts) ns us := by
  intro hu
  refine ⟨token, ts, rfl, Opening.mem_starters_of_onStatement ht, fun goal after hg agenda spine => ?_⟩
  rw [ht] at hg
  rw [run_take hg]
  simp only [List.nil_append, List.append_assoc]
  exact h hu _ _

theorem settles_assign {isGlobal : Bool} {equals : Token} (hm : Marked .kwGlobal isGlobal ts us)
    (ht : Phrase.Derives (.chain false) us [e] (equals :: vs)) (hk : equals.kind = .assign)
    (hv : Whole vs n ws) :
    Construct.statement.Settles last ctx [] ts [.tree (.assign isGlobal) [e, n]] ws := by
  cases hm with
  | @present keyword _ hkey =>
    obtain ⟨token, rest, items, rfl, hb, hc, hr⟩ := run_chainStart last true ht
    have ha : Goal.afterGlobal.react token = _ := (onAfterGlobal_of_onBase hb).trans hc
    refine settles_of_take (Opening.Takes.globalStatement hkey).react_eq fun hs agenda spine => ?_
    rw [List.cons_append, run_take ha, List.append_assoc, List.cons_append, hr,
      run_assigned hk hv hs]
    rfl
  | absent =>
    obtain ⟨token, rest, items, rfl, hb, hc, hr⟩ := run_chainStart last false ht
    refine settles_of_take ((onStatement_of_onBase hb).trans hc) fun hs agenda spine => ?_
    rw [List.append_assoc, List.cons_append, hr, run_assigned hk hv hs]
    rfl

theorem settles_callStatement (ht : Phrase.Derives (.chain false) ts [e] us)
    (hcall : e.isCall = true) : Construct.statement.Settles last ctx [] ts [e] us := by
  obtain ⟨token, rest, items, rfl, hb, hc, hr⟩ := run_chainStart last false ht
  refine settles_of_take ((onStatement_of_onBase hb).trans hc) fun hs agenda spine => ?_
  have hl : Opening.Leaves (nextToken last us) (.chain true false) [] := by
    cases us with
    | nil =>
      refine .chain rfl ?_
      intro hk
      cases hk
    | cons next others =>
      obtain ⟨hn, -, ha⟩ := hs next rfl
      exact .chain hn ha
  rw [List.append_assoc, List.cons_append, hr, hcall, run_left hl]
  rfl

theorem settles_array {isGlobal : Bool} {keyword name opening closing : Token}
    (hm : Marked .kwGlobal isGlobal ts (keyword :: name :: opening :: us))
    (hkey : keyword.kind = .kwArray) (hn : name.kind = .identifier)
    (ho : opening.kind = .openBracket) (hd : Phrase.Derives .expressions us ns (closing :: vs))
    (hc : closing.kind = .closeBracket) :
    Construct.statement.Settles last ctx [] ts [.array isGlobal name.text ns []] vs := by
  cases hm with
  | @present mark _ hmark =>
    refine settles_of_take (Opening.Takes.globalStatement hmark).react_eq fun _ agenda spine => ?_
    rw [List.cons_append, run_taken (.globalArray hkey), List.nil_append, List.cons_append, List.nil_append,
      run_arrayName hn ho hd hc]
    rfl
  | absent =>
    refine settles_of_take (Opening.Takes.array hkey).react_eq fun _ agenda spine => ?_
    rw [List.cons_append, List.nil_append, run_arrayName hn ho hd hc]
    rfl

theorem settles_print {keyword opening closing : Token} (hk : keyword.kind = .kwPrint)
    (ho : opening.kind = .openParen) (hd : Phrase.Derives .arguments ts ns (closing :: us))
    (hc : closing.kind = .closeParen) :
    Construct.statement.Settles last ctx [] (keyword :: opening :: ts) [.tree .print ns] us := by
  refine settles_of_take (Opening.Takes.print hk).react_eq fun _ agenda spine => ?_
  simp only [List.cons_append, List.nil_append, Item.start, run_build, Spine.step_start]
  rw [run_token ho (by decide), reads_of_derives last hd (by simp [hc]) (by simp),
    run_token hc (by decide)]
  simp [Item.close]

/-! ## Blocks -/

/-- A block is read up to its stop, unless something in it is out of place. -/
theorem run_settled_block {stops : List TokenKind}
    (h : Construct.statements.Settles last ctx os ts ns us)
    (hs : ∀ kind ∈ Goal.starters, kind ∉ stops)
    (hends : ∀ kind ∈ stops,
      suffix? kind = none ∧ BinaryOperator.of? kind = none ∧ kind ≠ .assign)
    (hstop : ∃ token rest, us = token :: rest ∧ token.kind ∈ stops) :
    run ⟨Item.block ctx stops ++ agenda, spine⟩ ts (.input last) =
      stoppedBy os (run ⟨agenda, spine.addAll [blockOf ns]⟩ us (.input last)) := by
  have hloop : Goal.LoopsOver ctx (.block ctx stops) :=
    fun _ hk => Opening.react_block (hs _ hk) (ne_endOfInput_of_starter hk)
  obtain ⟨token, rest, rfl, hk⟩ := hstop
  have hl : Opening.Leaves (nextToken last (token :: rest)) (.block ctx stops) [] := .block hk
  simp only [Item.block, List.cons_append, List.nil_append, Item.start, Item.close, run_build]
  rw [(h (separate_cons rfl (hends _ hk))).2 _ hloop, run_left hl]
  simp

theorem settles_noStatement : Construct.statements.Settles last ctx [] ts [] ts :=
  fun hs => ⟨hs, fun _ _ _ _ => rfl⟩

theorem settles_oneMore (h : Construct.statement.Settles last ctx os ts [n] us)
    (hs : Construct.statements.Settles last ctx others us ns vs) :
    Construct.statements.Settles last ctx (os ++ others) ts (n :: ns) vs := by
  intro hv
  obtain ⟨hu, hs⟩ := hs hv
  obtain ⟨token, rest, rfl, hk, hr⟩ := h hu
  refine ⟨separate_of_starter hk, fun goal hloop agenda spine => ?_⟩
  rw [hr goal _ (hloop token hk), List.singleton_append, hs goal hloop, stoppedBy_append,
    Spine.addAll_addAll]
  rfl

/-! ## Branches -/

/-- A branch is read up to a token that ends its block, unless something in it
is out of place. -/
theorem run_settled_branch {thenWord : Token} (hc : Whole ts c (thenWord :: us))
    (ht : thenWord.kind = .kwThen)
    (h : Construct.statements.Settles last ctx.inBlock os us ns vs)
    (hstop : ∃ token rest, vs = token :: rest ∧ token.kind ∈ Goal.branchStops) :
    run ⟨Goal.branchItems ctx ++ agenda, spine⟩ ts (.input last) =
      stoppedBy os (run ⟨agenda, spine.addAll [.tree .branch [c, blockOf ns]]⟩ vs
        (.input last)) := by
  simp only [Goal.branchItems, List.append_assoc, List.cons_append, List.nil_append, Item.start,
    run_build]
  rw [run_whole hc (ends_cons ht ⟨rfl, rfl, by decide⟩), run_token ht (by decide),
    run_settled_block h (by decide) (by decide) hstop]
  simp [Item.close]

theorem settles_if {opening thenWord : Token} (hk : opening.kind = .kwIf)
    (hc : Whole ts c (thenWord :: us)) (ht : thenWord.kind = .kwThen)
    (h : Construct.statements.Settles last ctx.inBlock os us ns vs)
    (hb : Construct.otherBranches.Settles last ctx others vs bs ws) :
    Construct.statement.Settles last ctx (os ++ others) (opening :: ts)
      [.tree .ifStatement (.tree .branch [c, blockOf ns] :: bs)] ws := by
  refine settles_of_take (Opening.Takes.ifStatement hk).react_eq fun _ agenda spine => ?_
  simp only [List.append_assoc, List.cons_append, List.nil_append, Item.start, run_build]
  rw [run_settled_branch hc ht h hb.1, hb.2]
  simp [Item.close]

theorem settles_elseIf {keyword thenWord : Token} (hk : keyword.kind = .kwElseIf)
    (hc : Whole ts c (thenWord :: us)) (ht : thenWord.kind = .kwThen)
    (h : Construct.statements.Settles last ctx.inBlock os us ns vs)
    (hb : Construct.otherBranches.Settles last ctx others vs bs ws) :
    Construct.otherBranches.Settles last ctx (os ++ others) (keyword :: ts)
      (.tree .branch [c, blockOf ns] :: bs) ws := by
  refine ⟨⟨keyword, ts, rfl, by rw [hk]; decide⟩, fun agenda spine => ?_⟩
  rw [run_taken (.elseIf hk), List.append_assoc, run_settled_branch hc ht h hb.1, List.cons_append, hb.2,
    stoppedBy_append, Spine.addAll_addAll]
  rfl

theorem settles_else {keyword closing : Token} (hk : keyword.kind = .kwElse)
    (h : Construct.statements.Settles last ctx.inBlock os ts ns (closing :: us))
    (hc : closing.kind = .kwEndIf) :
    Construct.otherBranches.Settles last ctx os (keyword :: ts)
      [.tree .elseBranch [blockOf ns]] us := by
  refine ⟨⟨keyword, ts, rfl, by rw [hk]; decide⟩, fun agenda spine => ?_⟩
  rw [run_taken (.elseBranch hk)]
  simp only [List.append_assoc, List.cons_append, List.nil_append, Item.start, run_build]
  rw [run_settled_block h (by decide) (by decide) ⟨closing, us, rfl, by simp [hc]⟩]
  simp [Item.close, run_token hc]

theorem settles_endIf {closing : Token} (hk : closing.kind = .kwEndIf) :
    Construct.otherBranches.Settles last ctx [] (closing :: ts) [] ts := by
  exact ⟨⟨closing, ts, rfl, by rw [hk]; decide⟩, fun agenda spine => run_taken (.endIf hk)⟩

/-! ## Loops -/

theorem settles_for {opening name equals toWord nextWord again : Token} {first final : Node}
    (hk : opening.kind = .kwFor) (hn : name.kind = .identifier) (he : equals.kind = .assign)
    (hf : Whole ts first (toWord :: us)) (hto : toWord.kind = .kwTo) (hl : Whole us final vs)
    (h : Construct.statements.Settles last ctx.inLoopBody os vs ns (nextWord :: again :: ws))
    (hnext : nextWord.kind = .kwNext) (ha : again.kind = .identifier)
    (hsame : again.text = name.text) :
    Construct.statement.Settles last ctx os (opening :: name :: equals :: ts)
      [.tree .forLoop [.tree (.identifier name.text) [], first, final, blockOf ns]] ws := by
  refine settles_of_take (Opening.Takes.forLoop hk).react_eq fun _ agenda spine => ?_
  have hsep : Separate (nextWord :: again :: ws) := separate_cons hnext ⟨rfl, rfl, by decide⟩
  simp only [List.cons_append, List.nil_append, Item.start, run_build]
  rw [run_taken (.counter hn)]
  simp only [List.append_assoc, List.cons_append, List.nil_append, Item.leaf, run_build]
  rw [run_token he (by decide), run_whole hf (ends_cons hto ⟨rfl, rfl, by decide⟩),
    run_token hto (by decide), run_whole hl (ends_of_separate (h hsep).1),
    run_settled_block h (by decide) (by decide) ⟨nextWord, _, rfl, by simp [hnext]⟩,
    run_token hnext (by decide), run_taken (.counterAgain ha hsame)]
  simp [Item.close]

theorem settles_while {opening closing : Token} (hk : opening.kind = .kwWhile)
    (hc : Whole ts c us)
    (h : Construct.statements.Settles last ctx.inLoopBody os us ns (closing :: vs))
    (he : closing.kind = .kwEndWhile) :
    Construct.statement.Settles last ctx os (opening :: ts)
      [.tree .whileLoop [c, blockOf ns]] vs := by
  refine settles_of_take (Opening.Takes.whileLoop hk).react_eq fun _ agenda spine => ?_
  have hsep : Separate (closing :: vs) := separate_cons he ⟨rfl, rfl, by decide⟩
  simp only [List.append_assoc, List.cons_append, List.nil_append, Item.start, run_build]
  rw [run_whole hc (ends_of_separate (h hsep).1),
    run_settled_block h (by decide) (by decide) ⟨closing, _, rfl, by simp [he]⟩,
    run_token he (by decide)]
  simp [Item.close]

theorem settles_do {opening untilWord : Token} (hk : opening.kind = .kwDo)
    (h : Construct.statements.Settles last ctx.inLoopBody os ts ns (untilWord :: us))
    (hu : untilWord.kind = .kwUntil) (hc : Whole us c vs) :
    Construct.statement.Settles last ctx os (opening :: ts)
      [.tree .doLoop [blockOf ns, c]] vs := by
  refine settles_of_take (Opening.Takes.doLoop hk).react_eq fun hs agenda spine => ?_
  simp only [List.append_assoc, List.cons_append, List.nil_append, Item.start, run_build]
  rw [run_settled_block h (by decide) (by decide) ⟨untilWord, _, rfl, by simp [hu]⟩,
    run_token hu (by decide), run_whole hc (ends_of_separate hs)]
  simp [Item.close]

/-! ## Switches -/

theorem settles_switch {opening colon : Token} (hk : opening.kind = .kwSwitch)
    (he : Whole ts e (colon :: us)) (hc : colon.kind = .colon)
    (h : (Construct.clauses false).Settles last ctx os us cs vs) :
    Construct.statement.Settles last ctx os (opening :: ts) [.tree .switch (e :: cs)] vs := by
  refine settles_of_take (Opening.Takes.switch hk).react_eq fun _ agenda spine => ?_
  simp only [List.cons_append, List.nil_append, Item.start, run_build]
  rw [run_whole he (ends_cons hc ⟨rfl, rfl, by decide⟩), run_token hc (by decide), h.2]
  simp [Item.close]

/-- The rest of a clause is read up to the end of the `switch`, unless something
in it or behind it is out of place. -/
theorem run_settled_clause {afterDefault : Bool} {shape : Shape} {parts : List Node}
    {colon : Token} (hc : colon.kind = .colon)
    (h : Construct.statements.Settles last ctx.inClause os ts ns us)
    (hcs : (Construct.clauses afterDefault).Settles last ctx others us cs vs) :
    run ⟨Goal.clauseItems ctx afterDefault ++ agenda, (spine.start shape).addAll parts⟩
        (colon :: ts) (.input last) =
      stoppedBy (os ++ others)
        (run ⟨agenda, spine.addAll (shape.node (parts ++ [blockOf ns]) :: cs)⟩ vs
          (.input last)) := by
  simp only [Goal.clauseItems, List.append_assoc, List.cons_append, List.nil_append]
  rw [run_token hc (by decide), run_settled_block h (by decide) (by decide) hcs.1]
  simp only [Item.close, run_build, Spine.addAll_addAll, Spine.step_close]
  rw [hcs.2, stoppedBy_append, Spine.addAll_addAll]
  rfl

theorem settles_case {afterDefault : Bool} {keyword colon : Token} (hk : keyword.kind = .kwCase)
    (hl : CaseLabel ts e (colon :: us)) (hc : colon.kind = .colon)
    (h : Construct.statements.Settles last ctx.inClause os us ns vs)
    (hcs : (Construct.clauses afterDefault).Settles last ctx others vs cs ws) :
    (Construct.clauses afterDefault).Settles last ctx
      (Offence.of (ctx.clauseFault afterDefault) keyword ++ (os ++ others)) (keyword :: ts)
      (.tree .caseClause [e, blockOf ns] :: cs) ws := by
  refine ⟨⟨keyword, ts, rfl, by rw [hk]; decide⟩, fun agenda spine => ?_⟩
  have hr : (Goal.clauses ctx afterDefault).react keyword =
      (Reaction.guarded (ctx.clauseFault afterDefault) keyword.line
        (.take ([Item.start .caseClause, .await .caseLabel] ++
          Goal.clauseItems ctx afterDefault))).wrapped (([] : List Step).map .build) [] :=
    (Opening.Reacts.caseClause hk).react_eq.trans (Reaction.wrapped_nil _).symm
  rw [run_guarded hr]
  simp only [List.cons_append, List.nil_append, Item.start, run_build, Spine.step_start]
  rw [run_caseLabel hl, run_settled_clause hc h hcs]
  simp

theorem settles_default {afterDefault : Bool} {keyword colon : Token}
    (hk : keyword.kind = .kwDefault) (hc : colon.kind = .colon)
    (h : Construct.statements.Settles last ctx.inClause os ts ns us)
    (hcs : (Construct.clauses true).Settles last ctx others us cs vs) :
    (Construct.clauses afterDefault).Settles last ctx
      (Offence.of (ctx.clauseFault afterDefault) keyword ++ (os ++ others)) (keyword :: colon :: ts)
      (.tree .defaultClause [blockOf ns] :: cs) vs := by
  refine ⟨⟨keyword, _, rfl, by rw [hk]; decide⟩, fun agenda spine => ?_⟩
  have hr : (Goal.clauses ctx afterDefault).react keyword =
      (Reaction.guarded (ctx.clauseFault afterDefault) keyword.line
        (.take ([Item.start .defaultClause] ++ Goal.clauseItems ctx true))).wrapped
          (([] : List Step).map .build) [] :=
    (Opening.Reacts.defaultClause hk).react_eq.trans (Reaction.wrapped_nil _).symm
  rw [run_guarded hr]
  simp only [List.cons_append, List.nil_append, Item.start, run_build, Spine.step_start,
    Spine.steps_nil]
  rw [← Spine.addAll_nil (spine.start _), run_settled_clause hc h hcs]
  simp

theorem settles_endSwitch {afterDefault : Bool} {closing : Token}
    (hk : closing.kind = .kwEndSwitch) :
    (Construct.clauses afterDefault).Settles last ctx [] (closing :: ts) [] ts := by
  exact ⟨⟨closing, ts, rfl, by rw [hk]; decide⟩, fun agenda spine => run_taken (.endSwitch hk)⟩

/-! ## Jumps -/

theorem settles_jump (hk : token.kind ∈ Goal.starters) {label : Label}
    (hs : Goal.onStatement ctx token =
      .takeUnless (Goal.onLineOf token fault) [Item.leaf label]) :
    Construct.statement.Settles last ctx (Offence.of fault token) (token :: ts)
      [.tree label []] ts := by
  refine fun _ => ⟨token, ts, rfl, hk, fun goal after hg agenda spine => ?_⟩
  rw [hs] at hg
  rw [run_takeUnless hg]
  simp [Item.leaf]

theorem settles_break (hk : token.kind = .kwBreak) :
    Construct.statement.Settles last ctx (Offence.of ctx.breakFault token) (token :: ts)
      [.tree (.jump .kwBreak) []] ts :=
  settles_jump (by rw [hk]; decide) (Opening.Reacts.breakStatement hk).react_eq

theorem settles_continue (hk : token.kind = .kwContinue) :
    Construct.statement.Settles last ctx (Offence.of ctx.continueFault token) (token :: ts)
      [.tree (.jump .kwContinue) []] ts :=
  settles_jump (by rw [hk]; decide) (Opening.Reacts.continueStatement hk).react_eq

theorem onStatement_of_return (hk : token.kind = .kwReturn) :
    Goal.onStatement ctx token = .takeUnless (Goal.onLineOf token ctx.returnFault)
      [.await (.returnValue ctx token.line)] :=
  (Opening.Reacts.returnStatement hk).react_eq

theorem settles_returnNothing (hk : token.kind = .kwReturn)
    (hnext : ∀ next ∈ ts.head?, next.kind ≠ .endOfInput → next.line ≠ token.line) :
    Construct.statement.Settles last ctx (Offence.of ctx.returnFault token) (token :: ts)
      [.tree .returnStatement []] ts := by
  refine fun _ => ⟨token, ts, rfl, by rw [hk]; decide, fun goal after hg agenda spine => ?_⟩
  rw [onStatement_of_return hk] at hg
  rw [run_takeUnless hg, List.singleton_append, run_leave (react_returnValue_leave hnext)]
  rfl

/-- The value is what offends, where a procedure gives one back. -/
theorem settles_returnValue {next : Token} (hk : token.kind = .kwReturn)
    (hline : next.line = token.line) (hd : Whole (next :: ts) e us) :
    Construct.statement.Settles last ctx
      (Offence.of ctx.returnFault token ++ Offence.of ctx.valueFault next)
      (token :: next :: ts) [.tree .returnStatement [e]] us := by
  intro hs
  refine ⟨token, next :: ts, rfl, by rw [hk]; decide, fun goal after hg agenda spine => ?_⟩
  have hr : (Goal.returnValue ctx token.line).react next = _ := react_returnValue hd hline
  rw [onStatement_of_return hk] at hg
  rw [run_takeUnless hg, List.singleton_append, stoppedBy_append]
  cases hv : ctx.valueFault with
  | none =>
    rw [hv] at hr
    rw [run_wrapped _ _ hr (onExpression_ne_leave _ next)]
    have hwhole : run ⟨Item.expression :: ([Item.close] ++ (after ++ agenda)),
        spine.start (.tree .returnStatement)⟩ (next :: ts) (.input last) = _ :=
      run_whole hd (ends_of_separate hs)
    refine congrArg _ (hwhole.trans ?_)
    simp only [Item.close, List.singleton_append, run_build, Spine.step_close]
    rfl
  | some rule =>
    have hf : (Goal.returnValue ctx token.line).react (nextToken last (next :: ts)) =
        .fail (.misplaced rule next.line) := by
      rw [nextToken_cons, hr, hv, hline]
      rfl
    rw [run_fail hf]
    rfl

/-! ## Subroutines and classes -/

theorem settles_sort {sort : Subroutine} {keyword name opening closing ending : Token}
    (hk : keyword.kind = sort.opening)
    (hn : name.kind = .identifier ∨ name.kind = .kwNew) (ho : opening.kind = .openParen)
    (hps : Parameters ts ps (closing :: us)) (hc : closing.kind = .closeParen)
    (h : Construct.statements.Settles last (ctx.inBody sort) os us ns (ending :: vs))
    (he : ending.kind = sort.ending) :
    Construct.subroutine.Settles last ctx (Offence.of ctx.subroutineFault keyword ++ os)
      (keyword :: name :: opening :: ts)
      [.tree (sort.label name.text) [.tree .params ps, blockOf ns]] vs := by
  refine ⟨keyword, _, sort, rfl, hk, fun goal before after hg agenda spine => ?_⟩
  have hr : (Goal.subroutineName ctx sort).react name =
      .take ([Item.start (sort.label name.text), Item.token .openParen,
        Item.start .params, .await .parameters, Item.close, Item.token .closeParen] ++
        Item.block (ctx.inBody sort) [sort.ending] ++ [Item.token sort.ending, Item.close]) := by
    have hname : name.kind ∈ [TokenKind.identifier, .kwNew] := by simpa using hn
    rw [← subroutineLabel_eq, ← closing_eq]
    exact (Opening.Takes.subroutineName hname).react_eq
  have hstops : ∀ kind ∈ Goal.starters, kind ∉ [sort.ending] := by cases sort <;> decide
  have hend : sort.ending ≠ .endOfInput := by cases sort <;> decide
  rw [run_guarded hg, List.singleton_append, run_take hr]
  simp only [List.append_assoc, List.cons_append, List.nil_append, Item.start, Item.close,
    run_build, Spine.step_start]
  rw [run_token ho (by decide), run_build, Spine.step_start, run_parameters hc hps, run_build,
    Spine.step_close, Shape.node_tree]
  rw [run_token hc (by decide),
    run_settled_block h hstops (by cases sort <;> decide) ⟨ending, _, rfl, by simp [he]⟩,
    run_token he hend]
  simp

theorem reacts_subroutine {sort : Subroutine} (hk : token.kind = sort.opening) :
    Opening.Reacts token (.subroutine ctx sort) (Goal.onSubroutine ctx sort token) := by
  cases sort with
  | function => exact .function hk
  | procedure => exact .procedure hk

theorem settles_subroutine (h : Construct.subroutine.Settles last ctx os ts ns us) :
    Construct.statement.Settles last ctx os ts ns us := by
  intro _
  obtain ⟨keyword, rest, sort, rfl, hk, hr⟩ := h
  refine ⟨keyword, rest, rfl, by rw [hk]; cases sort <;> decide, fun goal after hg => ?_⟩
  have hs : Goal.onStatement ctx keyword = Goal.onSubroutine ctx sort keyword :=
    (Opening.Reacts.subroutineStatement (reacts_subroutine hk)).react_eq
  rw [hs] at hg
  exact hr goal [] after hg

theorem settles_method {isPublic : Bool} (hv : Visibility isPublic ts us)
    (hs : Construct.subroutine.Settles last ctx os us [n] vs)
    (h : Construct.members.Settles last ctx others vs ms ws) :
    Construct.members.Settles last ctx (os ++ others) ts
      (.tree (.classMember isPublic) [n] :: ms) ws := by
  obtain ⟨keyword, rest, sort, rfl, hk, hr⟩ := hs
  have hu : MemberStart (keyword :: rest) :=
    ⟨keyword, rest, rfl, by rw [hk]; cases sort <;> decide⟩
  have hm : (Goal.member ctx isPublic).react keyword = (Goal.onSubroutine ctx sort keyword).wrapped
      ([Step.start (.tree (.classMember isPublic))].map .build) [Item.close] :=
    (Opening.Reacts.subroutineMember (reacts_subroutine hk)).react_eq
  refine ⟨not_inherits_of_member hv hu, fun agenda spine => ?_⟩
  rw [run_visibility hv hu, hr _ _ _ hm]
  simp only [List.cons_append, List.nil_append, Item.close, run_build, Spine.steps_cons,
    Spine.steps_nil, Spine.step_start, Spine.step_close]
  rw [h.2, stoppedBy_append, Spine.addAll_addAll]
  rfl

theorem settles_field {isPublic : Bool} {name : Token} (hv : Visibility isPublic ts (name :: us))
    (hn : name.kind = .identifier) (h : Construct.members.Settles last ctx os us ms vs) :
    Construct.members.Settles last ctx os ts
      (.tree (.classMember isPublic) [.tree (.identifier name.text) []] :: ms) vs := by
  have hu : MemberStart (name :: us) := ⟨name, us, rfl, by rw [hn]; decide⟩
  refine ⟨not_inherits_of_member hv hu, fun agenda spine => ?_⟩
  rw [run_visibility hv hu, run_fieldMember hn, h.2, Spine.addAll_addAll]
  rfl

theorem settles_endClass {closing : Token} (hk : closing.kind = .kwEndClass) :
    Construct.members.Settles last ctx [] (closing :: ts) [] ts := by
  exact ⟨by simp [hk], fun agenda spine => run_taken (.endClass hk)⟩

theorem settles_class {keyword name : Token} {parent : Option String}
    (hk : keyword.kind = .kwClass) (hn : name.kind = .identifier) (hp : Parent parent ts us)
    (h : Construct.members.Settles last ctx os us ms vs) :
    Construct.statement.Settles last ctx (Offence.of ctx.classFault keyword ++ os)
      (keyword :: name :: ts) [.tree (.classDecl name.text parent) ms] vs := by
  intro _
  refine ⟨keyword, name :: ts, rfl, by rw [hk]; decide, fun goal after hg agenda spine => ?_⟩
  have hs : goal.react keyword = (Reaction.guarded ctx.classFault keyword.line
      (.take [.await (.classDeclName ctx)])).wrapped (([] : List Step).map .build) after := by
    rw [hg, show Goal.onStatement ctx keyword = _ from (Opening.Reacts.classDecl hk).react_eq]
    rfl
  rw [run_guarded hs, List.singleton_append, run_taken (.classDeclName hn)]
  simp only [List.cons_append, List.nil_append, Item.close]
  rw [run_inheritance hp h.1, h.2]
  simp

end Settled

end Pseudocode
