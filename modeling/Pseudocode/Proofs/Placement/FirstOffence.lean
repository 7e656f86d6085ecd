-- The rules of placement are checked as the program is read, and what is
-- reported is the first offence against them that the finished tree shows.
import Pseudocode.Proofs.Placement.Settled
import Pseudocode.Proofs.Placement.Sites
import Pseudocode.Proofs.Statement.Acceptance

namespace Pseudocode

open Construct (Whole)
open Node (placesAll)
open Reading

/-! ## Reading and its offences together -/

/-- The places in a construct are those of the keywords among its tokens, and it
is read up to the first offence. -/
structure Construct.Ruled (last : Nat) (ctx : Context) (places : List Place) (ts : List Token)
    (ns : List Node) (us : List Token) (construct : Construct) : Prop where
  fits : Matches places ts us
  settles : construct.Settles last ctx (offences places ts) ts ns us

section Ruled

variable {last : Nat} {ctx : Context} {construct : Construct} {places others : List Place}
  {ts us vs ws : List Token} {ns : List Node} {token : Token} {around : List Label}
  {afterDefault : Bool} {label : Label} {children : List Node}

theorem ruled_nothing (hts : sites ts = sites us) (h : construct.Settles last ctx [] ts ns us) :
    construct.Ruled last ctx [] ts ns us :=
  ⟨matches_nil hts, h⟩

/-- All places are those of one part. -/
theorem ruled_part (hm : Matches places us vs) (hts : sites ts = sites us)
    (hvs : sites vs = sites ws)
    (h : construct.Settles last ctx (offences places us) ts ns ws) :
    construct.Ruled last ctx places ts ns ws :=
  ⟨(hm.congr hts).skip hvs, by rwa [offences_congr hts]⟩

/-- The places are those of one part, then those of another. -/
theorem ruled_parts (hm : Matches places us vs) (hm' : Matches others vs ws)
    (hts : sites ts = sites us)
    (h : construct.Settles last ctx (offences places us ++ offences others vs) ts ns ws) :
    construct.Ruled last ctx (places ++ others) ts ns ws :=
  ruled_part (hm.append hm') hts rfl (by rwa [offences_append hm])

section Keyword

variable {fault : Option Misplacement} (hl : label.keyword? = some token.kind)
  (hk : token.kind ∈ ruledKeywords) (hr : label = .returnStatement → children = [])
  (hf : label.brokenRule around afterDefault children = fault)
  (hp : placesAll (label :: around) false children = places) (hts : sites ts = sites us)
  (hm : Matches places us vs)

include hl hk hr hf hp hts hm

/-- The first place is that of the keyword that the node begins with. -/
theorem ruled_node (h : construct.Settles last ctx (Offence.of fault token ++ offences places us)
      (token :: ts) ns vs) :
    construct.Ruled last ctx ((Node.tree label children).places around afterDefault)
      (token :: ts) ns vs := by
  obtain ⟨hmatches, ho⟩ := node_of_keyword hl hk hr hf hp hts hm
  exact ⟨hmatches, by rwa [ho]⟩

/-- The same where something follows that belongs to the construct. -/
theorem ruled_node_parts (hm' : Matches others vs ws) (h : construct.Settles last ctx
      (Offence.of fault token ++ (offences places us ++ offences others vs)) (token :: ts) ns ws) :
    construct.Ruled last ctx ((Node.tree label children).places around afterDefault ++ others)
      (token :: ts) ns ws := by
  obtain ⟨hmatches, ho⟩ := node_of_keyword hl hk hr hf hp hts hm
  exact ruled_parts hmatches hm' rfl (by rwa [ho, List.append_assoc])

end Keyword

/-- The same where the keyword is all. -/
theorem ruled_leaf {fault : Option Misplacement} (hl : label.keyword? = some token.kind)
    (hk : token.kind ∈ ruledKeywords) (hf : label.brokenRule around afterDefault [] = fault)
    (h : construct.Settles last ctx (Offence.of fault token) (token :: ts) ns ts) :
    construct.Ruled last ctx ((Node.tree label []).places around afterDefault) (token :: ts)
      ns ts := by
  refine ruled_node hl hk (fun _ => rfl) hf placesAll_nil rfl (matches_nil rfl) ?_
  rwa [offences_nil, List.append_nil]

/-- A value that a procedure gives back offends in place of the keyword. -/
theorem ruled_returnValue {next : Token} {e : Node} (hc : Surrounds around ctx)
    (hk : token.kind = .kwReturn) (hline : next.line = token.line) (hd : Whole (next :: ts) e us) :
    Construct.statement.Ruled last ctx ((Node.tree .returnStatement [e]).places around afterDefault)
      (token :: next :: ts) [.tree .returnStatement [e]] us := by
  have hmem : token.kind ∈ ruledKeywords := by
    rw [hk]
    decide
  have hm : Matches [] (next :: ts) us := matches_nil (sites_phrase hd)
  have hr : Label.returnStatement.brokenRule around afterDefault [e] =
      ctx.returnFault.or ctx.valueFault := hc.brokenRule_return
  have ho : (offence? (⟨.kwReturn, ctx.returnFault.or ctx.valueFault⟩,
        ⟨token, next :: ts⟩)).toList =
      Offence.of ctx.returnFault token ++ Offence.of ctx.valueFault next := by
    unfold Context.returnFault Context.valueFault
    cases ctx.enforced <;> rcases ctx.subroutine with _ | sort
    all_goals first | rfl | (cases sort <;> rfl)
  rw [places_tree, placesAll_singleton, places_phrase hd, hr, List.append_nil]
  refine ⟨hm.cons hmem ⟨hk.symm, fun _ => ⟨next, ts, rfl, not_ruled_of_phrase hd⟩⟩, ?_⟩
  change Construct.statement.Settles last ctx (offences [_] _) _ _ us
  rw [offences_cons hmem, ho, offences_nil, List.append_nil]
  exact settles_returnValue hk hline hd

/-- What the grammar derives is read up to its first offence. -/
theorem ruled_of_derives (last : Nat) (h : construct.Derives false ts ns us)
    (hc : Surrounds around ctx) :
    construct.Ruled last ctx (placesAll around construct.afterDefault ns) ts ns us := by
  induction h generalizing around ctx with
  | array hm hk hn ho hd hb =>
    rw [placesAll_singleton, places_array, placesAll_phrase hd]
    refine ruled_nothing ?_ (settles_array hm hk hn ho hd hb)
    rw [sites_marked hm (by decide), sites_of_kind hk (by decide), sites_of_kind hn (by decide),
      sites_of_kind ho (by decide), sites_phrase hd, sites_of_kind hb (by decide)]
  | assign hm ht hk hv =>
    rw [placesAll_singleton, places_assign ht hv]
    refine ruled_nothing ?_ (settles_assign hm ht hk hv)
    rw [sites_marked hm (by decide), sites_phrase ht, sites_of_kind hk (by decide),
      sites_phrase hv]
  | call ht hcall =>
    rw [placesAll_phrase ht]
    exact ruled_nothing (sites_phrase ht) (settles_callStatement ht hcall)
  | ifStatement hk hcond ht _ _ ihs ihb =>
    have hif := hc.neutral .ifStatement (by decide)
    have hs := ihs (hif.neutral .branch (by decide)).block
    have hb := ihb hif
    rw [placesAll_singleton, places_if hcond]
    refine ruled_parts hs.fits hb.fits ?_ (settles_if hk hcond ht hs.settles hb.settles)
    rw [sites_of_kind hk (by decide), sites_phrase hcond, sites_of_kind ht (by decide)]
  | forLoop hk hn he hf hto hl _ hnext ha hsame ih =>
    have hs := ih (hc.loopBody .forLoop rfl)
    rw [placesAll_singleton, places_for hf hl]
    refine ruled_part hs.fits ?_ ?_ (settles_for hk hn he hf hto hl hs.settles hnext ha hsame)
    · rw [sites_of_kind hk (by decide), sites_of_kind hn (by decide), sites_of_kind he (by decide),
        sites_phrase hf, sites_of_kind hto (by decide), sites_phrase hl]
    · rw [sites_of_kind hnext (by decide), sites_of_kind ha (by decide)]
  | whileLoop hk hcond _ he ih =>
    have hs := ih (hc.loopBody .whileLoop rfl)
    rw [placesAll_singleton, places_while hcond]
    refine ruled_part hs.fits ?_ (sites_of_kind he (by decide) _)
      (settles_while hk hcond hs.settles he)
    rw [sites_of_kind hk (by decide), sites_phrase hcond]
  | doLoop hk _ hu hcond ih =>
    have hs := ih (hc.loopBody .doLoop rfl)
    rw [placesAll_singleton, places_do hcond]
    refine ruled_part hs.fits (sites_of_kind hk (by decide) _) ?_
      (settles_do hk hs.settles hu hcond)
    rw [sites_of_kind hu (by decide), sites_phrase hcond]
  | switch hk he hcolon _ ih =>
    have hs := ih (hc.neutral .switch (by decide))
    rw [placesAll_singleton, places_switch he]
    refine ruled_part hs.fits ?_ rfl (settles_switch hk he hcolon hs.settles)
    rw [sites_of_kind hk (by decide), sites_phrase he, sites_of_kind hcolon (by decide)]
  | print hk ho hd hclosing =>
    rw [placesAll_singleton, places_of_keyword rfl, placesAll_phrase hd]
    refine ruled_nothing ?_ (settles_print hk ho hd hclosing)
    rw [sites_of_kind hk (by decide), sites_of_kind ho (by decide), sites_phrase hd,
      sites_of_kind hclosing (by decide)]
  | @jump keyword ts hk =>
    rw [placesAll_singleton]
    rcases hk with hk | hk
    · rw [hk]
      exact ruled_leaf (by rw [hk]; rfl) (by rw [hk]; decide) hc.brokenRule_break (settles_break hk)
    · rw [hk]
      exact ruled_leaf (by rw [hk]; rfl) (by rw [hk]; decide) hc.brokenRule_continue
        (settles_continue hk)
  | returnNothing hk hnext =>
    rw [placesAll_singleton]
    refine ruled_leaf (by rw [hk]; rfl) (by rw [hk]; decide) ?_ (settles_returnNothing hk hnext)
    rw [hc.brokenRule_return]
    exact Option.or_none
  | returnValue hk hline hd =>
    rw [placesAll_singleton]
    exact ruled_returnValue hc hk hline hd
  | ofSubroutine _ ih =>
    have hs := ih hc
    exact ⟨hs.fits, settles_subroutine hs.settles⟩
  | @classDecl keyword name parent ts us vs ms hk hn hp _ ih =>
    have hs := ih (hc.neutral (.classDecl name.text parent) ⟨by simp, rfl, rfl, rfl⟩)
    have hts : sites (name :: ts) = sites us := by
      rw [sites_of_kind hn (by decide), sites_parent hp]
    rw [placesAll_singleton]
    exact ruled_node (by rw [hk]; rfl) (by rw [hk]; decide) (by simp)
      (hc.brokenRule_class name.text parent) rfl hts hs.fits (settles_class hk hn hp hs.settles)
  | noStatement => exact ruled_nothing rfl settles_noStatement
  | oneMore h _ ih ihs =>
    have hn := ih hc
    have hs := ihs hc
    rw [placesAll_singleton] at hn
    rw [placesAll_cons, not_isDefault_of_statement h]
    exact ruled_parts hn.fits hs.fits rfl (settles_oneMore hn.settles hs.settles)
  | endIf hk => exact ruled_nothing (sites_of_kind hk (by decide) _) (settles_endIf hk)
  | elseBranch hk _ hclosing ih =>
    have hs := ih (hc.neutral .elseBranch (by decide)).block
    rw [placesAll_singleton, places_elseBranch]
    exact ruled_part hs.fits (sites_of_kind hk (by decide) _) (sites_of_kind hclosing (by decide) _)
      (settles_else hk hs.settles hclosing)
  | elseIf hk hcond ht _ _ ihs ihb =>
    have hs := ihs (hc.neutral .branch (by decide)).block
    have hb := ihb hc
    rw [placesAll_cons, places_branch hcond]
    refine ruled_parts hs.fits hb.fits ?_ (settles_elseIf hk hcond ht hs.settles hb.settles)
    rw [sites_of_kind hk (by decide), sites_phrase hcond, sites_of_kind ht (by decide)]
  | endSwitch hk => exact ruled_nothing (sites_of_kind hk (by decide) _) (settles_endSwitch hk)
  | @caseClause after keyword colon ts us vs ws label ns cs hk _ hl hcolon _ _ ihs ihc =>
    have hs := ihs (hc.clause .caseClause rfl)
    have hcs := ihc hc
    have hts : sites ts = sites us := by
      rw [sites_caseLabel hl, sites_of_kind hcolon (by decide)]
    rw [placesAll_case_cons]
    exact ruled_node_parts (by rw [hk]; rfl) (by rw [hk]; decide) (by simp)
      (hc.brokenRule_clause rfl) (placesAll_case hl) hts hs.fits hcs.fits
      (settles_case hk hl hcolon hs.settles hcs.settles)
  | @defaultClause after keyword colon ts us vs ns cs hk _ hcolon _ _ ihs ihc =>
    have hs := ihs (hc.clause .defaultClause rfl)
    have hcs := ihc hc
    rw [placesAll_default_cons]
    exact ruled_node_parts (by rw [hk]; rfl) (by rw [hk]; decide) (by simp)
      (hc.brokenRule_clause rfl) placesAll_default (sites_of_kind hcolon (by decide) ts) hs.fits
      hcs.fits (settles_default hk hcolon hs.settles hcs.settles)
  | @ofSort sort keyword name opening closing ending ts us vs ps ns hk hn ho hps hclosing _ he ih =>
    have hs := ih (hc.body sort name.text)
    have hts : sites (name :: opening :: ts) = sites us := by
      rcases hn with hn | hn <;>
        rw [sites_of_kind hn (by decide), sites_of_kind ho (by decide), sites_parameters hps,
          sites_of_kind hclosing (by decide)]
    have hus : sites (ending :: vs) = sites vs := sites_of_kind he (by cases sort <;> decide) vs
    have hl : (sort.label name.text).keyword? = some keyword.kind := by
      rw [hk]
      cases sort <;> rfl
    rw [placesAll_singleton]
    exact ruled_node hl (by rw [hk]; cases sort <;> decide)
      (by cases sort <;> simp [Subroutine.label]) (hc.brokenRule_sort sort name.text)
      (placesAll_sort hps) hts (hs.fits.skip hus) (settles_sort hk hn ho hps hclosing hs.settles he)
  | endClass hk => exact ruled_nothing (sites_of_kind hk (by decide) _) (settles_endClass hk)
  | field hv hn _ ih =>
    have hs := ih hc
    rw [placesAll_cons, places_fieldMember]
    refine ruled_part hs.fits ?_ rfl (settles_field hv hn hs.settles)
    rw [sites_visibility hv, sites_of_kind hn (by decide)]
  | @method isPublic _ _ _ _ _ _ hv _ _ ihs ih =>
    have hn := ihs (hc.neutral (.classMember isPublic) ⟨by simp, rfl, rfl, rfl⟩)
    have hs := ih hc
    rw [placesAll_cons, places_method]
    exact ruled_parts hn.fits hs.fits (sites_visibility hv)
      (settles_method hv hn.settles hs.settles)

end Ruled

/-! ## Whole programs -/

section Programs

variable {last : Nat} {lines : List String} {tokens : List Token} {ns : List Node} {program : Node}

/-- What is read without the rules is what the grammar derives without an order of clauses. -/
theorem derives_of_parseFreely (hscan : Token.scan lines = .ok tokens)
    (h : Program.parseFreely lines = .ok (some program)) :
    ∃ ns, program = .tree .program ns ∧ ns ≠ [] ∧
      Construct.Derives false .statements tokens ns [] := by
  unfold Program.parseFreely Program.ofStream at h
  rw [TokenStream.ofLines_of_scan hscan] at h
  split at h
  · rename_i spine rest hrun
    obtain ⟨hnodes, rfl⟩ := ofSpine_eq_some_iff.1 (Except.ok.inj h)
    have hc := TokenStream.classified_after 0 lines
    change ∀ token ∈ (TokenStream.ofLines lines).tokens, _ at hc
    rw [TokenStream.ofLines_of_scan hscan] at hc
    obtain ⟨-, ns, hd, -, hns⟩ :=
      derives_of_program (fun token ht => (hc token ht).ne_endOfInput) hrun
    exact ⟨ns, by rw [hns], hns ▸ hnodes, hd⟩
  · cases h

/-- A whole program is read up to the first offence. -/
theorem run_program_ruled (h : Construct.Derives false .statements tokens ns []) :
    (ofProgram true).run tokens (.input last) =
      stoppedBy (offences (placesAll [.program] false ns) tokens)
        (.ok (Spine.empty.addAll ns, [])) := by
  have hloop : Goal.LoopsOver (.top true) (.program (.top true)) :=
    Goal.loopsOver_program (.top true)
  have hsep : Separate [] := by
    intro token ht
    cases ht
  have hr := ((ruled_of_derives last h Surrounds.top).settles hsep).2 _ hloop [] .empty
  have hleave : (Goal.program (.top true)).react (nextToken last []) = .leave [] := rfl
  unfold ofProgram
  rw [hr, run_leave hleave, Spine.steps_nil, run_done]
  rfl

end Programs

/-- Under the rules of placement a program is read as without them, unless its
tree shows that a rule is broken somewhere; then what is reported is the first
offence in the order of the tokens. -/
theorem the_first_offence_against_the_rules_of_placement_is_reported {lines : List String}
    {tokens : List Token} {program : Node} (hscan : Token.scan lines = .ok tokens)
    (hfree : Program.parseFreely lines = .ok (some program)) :
    let places := program.places [] false
    places.map Place.keyword = (sites tokens).map (·.keyword.kind) ∧
      (offences places tokens).map Offence.rule = places.filterMap Place.broken ∧
      ((offences places tokens).map Offence.token).Sublist tokens ∧
      Program.parse lines =
        match offences places tokens with
        | [] => .ok (some program)
        | offence :: _ => .error (.misplaced offence.rule offence.token.line) := by
  intro places
  obtain ⟨ns, rfl, hne, hd⟩ := derives_of_parseFreely hscan hfree
  have hplaces : places = placesAll [.program] false ns := places_of_keyword rfl
  have hfits : List.Forall₂ Place.Fits places (sites tokens) := by
    obtain ⟨own, hsites, hown⟩ := (ruled_of_derives 0 hd Surrounds.top).fits
    have hown' : sites tokens = own := hsites.trans (List.append_nil own)
    rw [hplaces, hown']
    exact hown
  refine ⟨keywords_of_forall₂ hfits, rules_of_forall₂ hfits,
    offending_tokens_are_in_order hfits, ?_⟩
  have hspine : Program.ofSpine (Spine.empty.addAll ns) = some (.tree .program ns) := by
    have hnodes : (Spine.empty.addAll ns).nodes = ns := Spine.nodes_addAll _ _
    exact ofSpine_eq_some_iff.2 ⟨by rwa [hnodes], by rw [hnodes]⟩
  unfold Program.parse Program.ofStream
  rw [TokenStream.ofLines_of_scan hscan]
  simp only [run_program_ruled hd, ← hplaces]
  cases offences places tokens with
  | nil => exact congrArg _ hspine
  | cons offence others => rfl

/-- A procedure gives a value back, and what is no loop is left: the value is what
is reported, on the line where it stands. -/
theorem a_value_given_back_is_reported_before_a_break :
    let lines := ["procedure p()", "if a then return 1 endif", "endprocedure", "break"]
    let value : Token := ⟨.intLiteral, "1", 2⟩
    let jump : Token := ⟨.kwBreak, "break", 4⟩
    let tokens : List Token := [⟨.kwProcedure, "procedure", 1⟩, ⟨.identifier, "p", 1⟩,
      ⟨.openParen, "(", 1⟩, ⟨.closeParen, ")", 1⟩, ⟨.kwIf, "if", 2⟩, ⟨.identifier, "a", 2⟩,
      ⟨.kwThen, "then", 2⟩, ⟨.kwReturn, "return", 2⟩, value, ⟨.kwEndIf, "endif", 2⟩,
      ⟨.kwEndProcedure, "endprocedure", 3⟩, jump]
    let branch : Node := .tree .branch [.tree (.identifier "a") [],
      .tree .block [.tree .returnStatement [.tree (.int 1) []]]]
    let program : Node := .tree .program [
      .tree (.procedure "p") [.tree .params [], .tree .block [.tree .ifStatement [branch]]],
      .tree (.jump .kwBreak) []]
    Token.scan lines = .ok tokens ∧ Program.parseFreely lines = .ok (some program) ∧
      offences (program.places [] false) tokens =
        [⟨.procedureValue, value⟩, ⟨.breakOutside, jump⟩] ∧
      Program.parse lines = .error (.misplaced .procedureValue 2) := by
  intro lines value jump tokens branch program
  have hscan : Token.scan lines = .ok tokens := rfl
  have hfree : Program.parseFreely lines = .ok (some program) := rfl
  have main := the_first_offence_against_the_rules_of_placement_is_reported hscan hfree
  exact ⟨hscan, hfree, rfl, main.2.2.2⟩

end Pseudocode
