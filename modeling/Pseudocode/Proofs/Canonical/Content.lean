-- The canonical text keeps every token. What the tokens of a program say is what
-- its tree says from left to right, however the program is laid out, and so the
-- canonical text of the tree says it too.
import Pseudocode.Proofs.Canonical.RoundTrip
import Pseudocode.Proofs.Tree.Yield

namespace Pseudocode

open Atom (mark name listed)
open Node (yields)
open Token (essence essence_spare)

/-! ## Tokens of a program -/

/-- Keywords, operators and marks that a tree keeps wherever they stand. -/
def TokenKind.isKept (kind : TokenKind) : Bool :=
  kind ∈ spelled && !kind.isSpare && kind ≠ .colon

section Tokens

variable {token : Token} {kind : TokenKind} {label : Label} {ts : List Token}

theorem atom_of_spelled (hc : token.Classified) (hk : token.kind = kind)
    (hs : kind ∈ TokenKind.spelled) : token.atom = mark kind := by
  have hliteral : ∀ kind ∈ TokenKind.spelled, kind.isLiteral = false := by decide
  have htext : kind.text? = some token.text := by
    unfold Token.Classified at hc
    rw [hk] at hc
    exact TokenKind.ofText?_eq_some_iff.1 (ofText?_of_classify? hc hs)
  have hspelling : kind.spelling = token.text := by
    rw [TokenKind.spelling, htext, Option.getD_some]
  rw [Token.atom_of_kind (hk ▸ hliteral kind hs), hk, mark, hspelling]

theorem essence_mark (hc : token.Classified) (hk : token.kind = kind) (h : kind.isKept = true) :
    essence (token :: ts) = mark kind :: essence ts := by
  simp only [TokenKind.isKept, Bool.and_eq_true, decide_eq_true_eq, Bool.not_eq_true'] at h
  obtain ⟨⟨hs, hspare⟩, hcolon⟩ := h
  rw [Token.essence_cons (hk ▸ hspare) fun hkc => absurd (hk.symm.trans hkc) hcolon,
    atom_of_spelled hc hk hs]

theorem essence_colon (hc : token.Classified) (hk : token.kind = .colon)
    (h : ∀ next ∈ ts.head?, next.kind ≠ .kwByVal) :
    essence (token :: ts) = mark .colon :: essence ts := by
  rw [Token.essence_cons (by rw [hk]; rfl) fun _ => h, atom_of_spelled hc hk (by decide)]

theorem essence_name (hc : token.Classified)
    (hk : token.kind = .identifier ∨ token.kind = .kwNew) :
    essence (token :: ts) = name token.text :: essence ts := by
  have hatom : token.atom = name token.text := by
    rw [Token.atom_of_kind (by rcases hk with hk | hk <;> rw [hk] <;> rfl), name, hc,
      Option.getD_some]
  rw [Token.essence_cons (by rcases hk with hk | hk <;> rw [hk] <;> rfl), hatom]
  rcases hk with hk | hk <;> rw [hk] <;> intro hcolon <;> cases hcolon

theorem essence_literal (hl : Phrase.Literal token label) :
    essence (token :: ts) = .value label :: essence ts := by
  have hk := hl.isLiteral
  rw [Token.essence_cons, Token.atom_of_literal hl]
  · cases hkind : token.kind <;> rw [hkind] at hk <;> first | rfl | cases hk
  · intro hcolon
    rw [hcolon] at hk
    cases hk

end Tokens

/-! ## Phrases -/

/-- What the nodes of a phrase say. -/
def Phrase.yield : Phrase → List Node → List Atom
  | arguments, es | expressions, es => listed (yields es)
  | moreExpressions, es => (yields es).flatMap (mark .comma :: ·)
  | _, es => (yields es).flatten

section Phrases

variable {phrase : Phrase} {kind : TokenKind} {level : Nat} {label : Label}
  {ts us : List Token} {ns : List Node}

theorem yield_literal {token : Token} (hl : Phrase.Literal token label) :
    (Node.tree label []).yield = [.value label] := by
  cases hl <;> rfl

theorem yield_negate (e : Node) : (Node.tree .negate [e]).yield = mark .minus :: e.yield := by
  simp [Node.yield, Label.yield, yields]

theorem yield_operator (ho : Phrase.Operates kind level label) (l r : Node) :
    (Node.tree label [l, r]).yield = l.yield ++ mark kind :: r.yield := by
  cases ho <;> rfl

theorem isKept_operator (ho : Phrase.Operates kind level label) : kind.isKept = true := by
  cases ho <;> rfl

theorem yield_leftOperand (level : Nat) (ns : List Node) :
    (Phrase.leftOperand level).yield ns = (yields ns).flatten := by
  unfold Phrase.leftOperand
  split
  · rfl
  · split <;> rfl

theorem yield_rightOperand (level : Nat) (ns : List Node) :
    (Phrase.rightOperand level).yield ns = (yields ns).flatten := by
  unfold Phrase.rightOperand
  split <;> rfl

/-- The tokens of a phrase say what its nodes say. -/
theorem essence_of_phrase (h : phrase.Derives ts ns us) (hc : AllClassified ts) :
    essence ts = phrase.yield ns ++ essence us := by
  induction h with
  | ofOperation _ ih => exact ih hc
  | logicalNot hn _ ih =>
    rw [essence_mark hc.head hn rfl, ih hc.tail]
    simp [Phrase.yield, yields, Node.yield, Label.yield]
  | ofUnary _ ih => exact ih hc
  | binary ho _ hl hr ihl ihr =>
    have hsign := hc.of_suffix hl.suffix
    rw [ihl hc, essence_mark hsign.head rfl (isKept_operator ho), ihr hsign.tail,
      yield_leftOperand, yield_rightOperand]
    simp [Phrase.yield, yields, yield_operator ho]
  | negate hm _ ih =>
    rw [essence_mark hc.head hm rfl, ih hc.tail]
    simp [Phrase.yield, yields, yield_negate]
  | ofChain _ ih => exact ih hc
  | parenthesized ho hk h ih =>
    rw [essence_spare ho rfl, ih hc.tail, essence_spare hk rfl]
    rfl
  | literal hl =>
    rw [essence_literal hl]
    simp [Phrase.yield, yields, yield_literal hl]
  | identifier hk =>
    rw [essence_name hc.head (.inl hk)]
    rfl
  | superObject hk =>
    rw [essence_mark hc.head hk rfl]
    rfl
  | newObject hn hname ho hk h ih =>
    rw [essence_mark hc.head hn rfl, essence_name hc.tail.head (.inl hname), essence_spare ho rfl,
      ih hc.tail.tail.tail, essence_spare hk rfl]
    simp [Phrase.yield, yields, Node.yield, Label.yield]
  | field hd hn hl ih =>
    have hdot := hc.of_suffix hl.suffix
    rw [ih hc, essence_mark hdot.head hd rfl, essence_name hdot.tail.head hn]
    simp [Phrase.yield, yields, Node.yield, Label.yield]
  | index ho hk hl hd ihl ihe =>
    have hopening := hc.of_suffix hl.suffix
    have hclosing := hopening.tail.of_suffix hd.suffix
    rw [ihl hc, essence_mark hopening.head ho rfl, ihe hopening.tail,
      essence_mark hclosing.head hk rfl]
    simp [Phrase.yield, yields, Node.yield, Label.yield]
  | call ho hk hl hd ihl ihe =>
    have hopening := hc.of_suffix hl.suffix
    rw [ihl hc, essence_spare ho rfl, ihe hopening.tail, essence_spare hk rfl]
    simp [Phrase.yield, yields, Node.yield, Label.yield]
  | noArguments => rfl
  | ofExpressions _ ih => exact ih hc
  | first he _ ihe ih =>
    rw [ihe hc, ih (hc.of_suffix he.suffix)]
    simp [Phrase.yield, yields, listed]
  | noMore => rfl
  | more hk he _ ihe ih =>
    rw [essence_mark hc.head hk rfl, ihe hc.tail, ih (hc.tail.of_suffix he.suffix)]
    simp [Phrase.yield, yields]

end Phrases

/-! ## Parts of statements -/

namespace Construct

/-- The tokens do not begin with a way of passing, so a colon before them stands
for itself. -/
def NoMode (ts : List Token) : Prop := ∀ next ∈ ts.head?, next.kind ≠ .kwByVal

section Parts

variable {token : Token} {kind : TokenKind} {isThere isPublic byRef : Bool} {parent : Option String}
  {ts us : List Token} {ns : List Node} {e label : Node}

theorem noMode_cons (hk : token.kind = kind) (h : kind ≠ .kwByVal) : NoMode (token :: ts) := by
  intro next hnext
  cases hnext
  rw [hk]
  exact h

theorem noMode_of_chain {isFree : Bool} (h : Phrase.Derives (.chain isFree) ts ns us) :
    NoMode ts := by
  have hopeners : ∀ kind ∈ Phrase.openers (.chain isFree), kind ≠ .kwByVal := by
    cases isFree <;> decide
  obtain ⟨token, rest, rfl, hk⟩ := h.opens rfl
  exact noMode_cons rfl (hopeners _ hk)

theorem essence_of_marked (h : Marked .kwGlobal isThere ts us) (hc : AllClassified ts) :
    essence ts = Atom.global isThere ++ essence us := by
  cases h with
  | present hk =>
    rw [essence_mark hc.head hk rfl]
    rfl
  | absent => rfl

theorem essence_of_visibility (h : Visibility isPublic ts us) (hc : AllClassified ts) :
    essence ts = (if isPublic then [mark .kwPublic] else []) ++ essence us := by
  cases h with
  | shown hk =>
    rw [essence_mark hc.head hk rfl]
    rfl
  | hidden hk =>
    rw [essence_spare hk rfl]
    rfl
  | unsaid => rfl

theorem essence_of_parent (h : Parent parent ts us) (hc : AllClassified ts) :
    essence ts = Atom.parent parent ++ essence us := by
  cases h with
  | inherited hk hn =>
    rw [essence_mark hc.head hk rfl, essence_name hc.tail.head (.inl hn)]
    rfl
  | none => rfl

theorem essence_of_caseLabel (h : CaseLabel ts label us) (hc : AllClassified ts) :
    essence ts = label.yield ++ essence us := by
  cases h with
  | literal hl =>
    rw [essence_literal hl, yield_literal hl]
    rfl
  | negated hm _ hl =>
    rw [essence_mark hc.head hm rfl, essence_literal hl, yield_negate, yield_literal hl]
    rfl

theorem essence_of_whole (h : Whole ts e us) (hc : AllClassified ts) :
    essence ts = e.yield ++ essence us := by
  rw [essence_of_phrase h hc]
  simp [Phrase.yield, yields]

/-- A parameter passed by value says no more than its name, if the program says
so or not. -/
theorem essence_of_passing (h : Passing byRef ts us) (hc : AllClassified ts) :
    essence ts = (if byRef then [mark .colon, mark .kwByRef] else []) ++ essence us := by
  cases h with
  | byRef hk hm =>
    rw [essence_colon hc.head hk (noMode_cons hm (by decide)), essence_mark hc.tail.head hm rfl]
    rfl
  | byVal hk hm =>
    rw [Token.essence_byVal hk hm]
    rfl
  | unsaid => rfl

theorem essence_of_someParameters (h : SomeParameters ts ns us) (hc : AllClassified ts) :
    essence ts = listed (yields ns) ++ essence us := by
  induction h with
  | last hn hp =>
    rw [essence_name hc.head (.inl hn), essence_of_passing hp hc.tail]
    simp [yields, Node.yield, Label.yield, listed]
  | more hn hp hk hothers ih =>
    have hcomma := hc.tail.of_suffix hp.suffix
    rw [essence_name hc.head (.inl hn), essence_of_passing hp hc.tail,
      essence_mark hcomma.head hk rfl, ih hcomma.tail]
    cases hothers <;> simp [yields, Node.yield, Label.yield, listed]

theorem essence_of_parameters (h : Parameters ts ns us) (hc : AllClassified ts) :
    essence ts = listed (yields ns) ++ essence us := by
  cases h with
  | none => rfl
  | some h => exact essence_of_someParameters h hc

end Parts

/-! ## Statements -/

section Statements

variable {ordered : Bool} {construct : Construct} {ts us : List Token} {ns : List Node}

/-- Only statements that are none can have a way of passing come first. -/
theorem noMode_of_derives (h : construct.Derives ordered ts ns us)
    (hu : construct = .statements → NoMode us) : NoMode ts := by
  induction h with
  | array hm hk =>
    cases hm with
    | present hk => exact noMode_cons hk (by decide)
    | absent => exact noMode_cons hk (by decide)
  | assign hm ht =>
    cases hm with
    | present hk => exact noMode_cons hk (by decide)
    | absent => exact noMode_of_chain ht
  | call ht => exact noMode_of_chain ht
  | jump hk => rcases hk with hk | hk <;> exact noMode_cons hk (by decide)
  | ofSubroutine _ ih => exact ih nofun
  | noStatement => exact hu rfl
  | oneMore _ _ ih => exact ih nofun
  | @ofSort sort _ _ _ _ _ _ _ _ _ _ hk => exact noMode_cons hk (by cases sort <;> decide)
  | field hv hn =>
    cases hv with
    | shown hk => exact noMode_cons hk (by decide)
    | hidden hk => exact noMode_cons hk (by decide)
    | unsaid => exact noMode_cons hn (by decide)
  | method hv _ _ ih =>
    cases hv with
    | shown hk => exact noMode_cons hk (by decide)
    | hidden hk => exact noMode_cons hk (by decide)
    | unsaid => exact ih nofun
  | ifStatement hk => exact noMode_cons hk (by decide)
  | forLoop hk => exact noMode_cons hk (by decide)
  | whileLoop hk => exact noMode_cons hk (by decide)
  | doLoop hk => exact noMode_cons hk (by decide)
  | switch hk => exact noMode_cons hk (by decide)
  | print hk => exact noMode_cons hk (by decide)
  | returnNothing hk => exact noMode_cons hk (by decide)
  | returnValue hk => exact noMode_cons hk (by decide)
  | classDecl hk => exact noMode_cons hk (by decide)
  | endIf hk => exact noMode_cons hk (by decide)
  | elseBranch hk => exact noMode_cons hk (by decide)
  | elseIf hk => exact noMode_cons hk (by decide)
  | endSwitch hk => exact noMode_cons hk (by decide)
  | caseClause hk => exact noMode_cons hk (by decide)
  | defaultClause hk => exact noMode_cons hk (by decide)
  | endClass hk => exact noMode_cons hk (by decide)

/-- What is said behind the nodes of a construct: the word that ends it, where it
is read up to its end. -/
def ending : Construct → List Atom
  | otherBranches => [mark .kwEndIf]
  | clauses _ => [mark .kwEndSwitch]
  | members => [mark .kwEndClass]
  | _ => []

/-- The tokens of a construct say what its nodes say, and the word that ends it. -/
theorem essence_of_derives (h : construct.Derives ordered ts ns us) (hc : AllClassified ts) :
    essence ts = (yields ns).flatten ++ construct.ending ++ essence us := by
  induction h with
  | array hm hk hn ho hd hclosing =>
    have hname := hc.of_suffix hm.suffix
    have hdims := hname.tail.tail.tail
    rw [essence_of_marked hm hc, essence_mark hname.head hk rfl,
      essence_name hname.tail.head (.inl hn), essence_mark hname.tail.tail.head ho rfl,
      essence_of_phrase hd hdims, essence_mark (hdims.of_suffix hd.suffix).head hclosing rfl]
    simp [yields, Node.yield, Phrase.yield, ending]
  | assign hm ht hk hv =>
    have htarget := hc.of_suffix hm.suffix
    have hequals := htarget.of_suffix ht.suffix
    rw [essence_of_marked hm hc, essence_of_phrase ht htarget, essence_mark hequals.head hk rfl,
      essence_of_whole hv hequals.tail]
    simp [yields, Node.yield, Label.yield, Phrase.yield, ending]
  | call ht =>
    rw [essence_of_phrase ht hc]
    simp [Phrase.yield, ending]
  | ifStatement hk hcond hthen hs _ ihs ihb =>
    have hbody := hc.tail.of_suffix hcond.suffix
    rw [essence_mark hc.head hk rfl, essence_of_whole hcond hc.tail,
      essence_mark hbody.head hthen rfl, ihs hbody.tail, ihb (hbody.tail.of_suffix hs.suffix)]
    simp [yields, Node.yield, Label.yield, ending]
  | forLoop hk hn he hf hto hl hs hnext hagain htext ih =>
    have hfirst := hc.tail.tail.tail
    have hfinal := hfirst.of_suffix hf.suffix
    have hbody := hfinal.tail.of_suffix hl.suffix
    have hend := hbody.of_suffix hs.suffix
    rw [essence_mark hc.head hk rfl, essence_name hc.tail.head (.inl hn),
      essence_mark hc.tail.tail.head he rfl, essence_of_whole hf hfirst,
      essence_mark hfinal.head hto rfl, essence_of_whole hl hfinal.tail, ih hbody,
      essence_mark hend.head hnext rfl, essence_name hend.tail.head (.inl hagain), htext]
    simp [yields, Node.yield, Label.yield, ending]
  | whileLoop hk hcond hs hend ih =>
    have hbody := hc.tail.of_suffix hcond.suffix
    rw [essence_mark hc.head hk rfl, essence_of_whole hcond hc.tail, ih hbody,
      essence_mark (hbody.of_suffix hs.suffix).head hend rfl]
    simp [yields, Node.yield, Label.yield, ending]
  | doLoop hk hs huntil hcond ih =>
    have hend := hc.tail.of_suffix hs.suffix
    rw [essence_mark hc.head hk rfl, ih hc.tail, essence_mark hend.head huntil rfl,
      essence_of_whole hcond hend.tail]
    simp [yields, Node.yield, Label.yield, ending]
  | switch hk he hcolon hcs ih =>
    have hclauses := hc.tail.of_suffix he.suffix
    rw [essence_mark hc.head hk rfl, essence_of_whole he hc.tail,
      essence_colon hclauses.head hcolon (noMode_of_derives hcs (by simp)), ih hclauses.tail]
    simp [yields, Node.yield, Label.yield, ending]
  | print hk ho hd hclosing =>
    rw [essence_mark hc.head hk rfl, essence_spare ho rfl, essence_of_phrase hd hc.tail.tail,
      essence_spare hclosing rfl]
    simp [yields, Node.yield, Label.yield, Phrase.yield, ending]
  | jump hk =>
    rw [essence_mark hc.head rfl (by rcases hk with hk | hk <;> rw [hk] <;> rfl)]
    rfl
  | returnNothing hk =>
    rw [essence_mark hc.head hk rfl]
    rfl
  | returnValue hk _ hd =>
    rw [essence_mark hc.head hk rfl, essence_of_whole hd hc.tail]
    simp [yields, Node.yield, Label.yield, ending]
  | ofSubroutine _ ih => exact ih hc
  | classDecl hk hn hp _ ih =>
    rw [essence_mark hc.head hk rfl, essence_name hc.tail.head (.inl hn),
      essence_of_parent hp hc.tail.tail, ih (hc.tail.tail.of_suffix hp.suffix)]
    simp [yields, Node.yield, Label.yield, ending]
  | noStatement => rfl
  | oneMore hs _ ih ihs =>
    rw [ih hc, ihs (hc.of_suffix hs.suffix)]
    simp [yields, ending]
  | endIf hk =>
    rw [essence_mark hc.head hk rfl]
    rfl
  | elseBranch hk hs hend ih =>
    rw [essence_mark hc.head hk rfl, ih hc.tail,
      essence_mark (hc.tail.of_suffix hs.suffix).head hend rfl]
    simp [yields, Node.yield, Label.yield, ending]
  | elseIf hk hcond hthen hs _ ihs ihb =>
    have hbody := hc.tail.of_suffix hcond.suffix
    rw [essence_mark hc.head hk rfl, essence_of_whole hcond hc.tail,
      essence_mark hbody.head hthen rfl, ihs hbody.tail, ihb (hbody.tail.of_suffix hs.suffix)]
    simp [yields, Node.yield, Label.yield, ending]
  | endSwitch hk =>
    rw [essence_mark hc.head hk rfl]
    rfl
  | caseClause hk _ hl hcolon hs hcs ihs ihc =>
    have hbody := hc.tail.of_suffix hl.suffix
    have hnext := noMode_of_derives hs fun _ => noMode_of_derives hcs (by simp)
    rw [essence_mark hc.head hk rfl, essence_of_caseLabel hl hc.tail,
      essence_colon hbody.head hcolon hnext, ihs hbody.tail,
      ihc (hbody.tail.of_suffix hs.suffix)]
    simp [yields, Node.yield, Label.yield, ending]
  | defaultClause hk _ hcolon hs hcs ihs ihc =>
    have hnext := noMode_of_derives hs fun _ => noMode_of_derives hcs (by simp)
    rw [essence_mark hc.head hk rfl, essence_colon hc.tail.head hcolon hnext, ihs hc.tail.tail,
      ihc (hc.tail.tail.of_suffix hs.suffix)]
    simp [yields, Node.yield, Label.yield, ending]
  | @ofSort sort _ _ _ _ _ _ _ _ _ _ hk hn ho hps hclosing hs hend ih =>
    have hparams := hc.tail.tail.tail
    have hbody := hparams.of_suffix hps.suffix
    have hkept : sort.opening.isKept = true ∧ sort.ending.isKept = true := by
      cases sort <;> exact ⟨rfl, rfl⟩
    rw [essence_mark hc.head hk hkept.1, essence_name hc.tail.head hn, essence_spare ho rfl,
      essence_of_parameters hps hparams, essence_spare hclosing rfl, ih hbody.tail,
      essence_mark (hbody.tail.of_suffix hs.suffix).head hend hkept.2]
    cases sort <;>
      simp [yields, Node.yield, Label.yield, ending, Subroutine.label, Subroutine.opening,
        Subroutine.ending]
  | endClass hk =>
    rw [essence_mark hc.head hk rfl]
    rfl
  | field hv hn _ ih =>
    have hname := hc.of_suffix hv.suffix
    rw [essence_of_visibility hv hc, essence_name hname.head (.inl hn), ih hname.tail]
    simp [yields, Node.yield, Label.yield, ending]
  | method hv hs _ ihs ih =>
    have hsub := hc.of_suffix hv.suffix
    rw [essence_of_visibility hv hc, ihs hsub, ih (hsub.of_suffix hs.suffix)]
    simp [yields, Node.yield, Label.yield, ending]

end Statements

end Construct

/-! ## Programs -/

theorem essence_of_parse {lines : List String} {program : Node}
    (h : Program.parse lines = .ok (some program)) :
    ∃ tokens, Token.scan lines = .ok tokens ∧ essence tokens = program.yield := by
  obtain ⟨tokens, hscan, -, ⟨ns, rfl, hd⟩, -⟩ := derives_of_parse h
  refine ⟨tokens, hscan, ?_⟩
  rw [Construct.essence_of_derives hd (TokenStream.classified_of_scan hscan)]
  simp [Construct.ending, Node.yield, Label.yield, essence, Token.withoutByVal]

/-- The tokens of a program and those of the canonical text of its tree say the
same in the same order, when parentheses, `private` and every mention that a
parameter is passed by value are left out of both. -/
theorem the_canonical_text_keeps_every_token {lines : List String} {program : Node}
    (h : Program.parse lines = .ok (some program)) :
    ∃ tokens rendered, Token.scan lines = .ok tokens ∧ Token.scan program.render = .ok rendered ∧
      essence tokens = essence rendered := by
  obtain ⟨tokens, hscan, hsource⟩ := essence_of_parse h
  obtain ⟨rendered, hrendered, htext⟩ := essence_of_parse (parse_render (wellFormed_of_parse h))
  exact ⟨tokens, rendered, hscan, hrendered, hsource.trans htext.symm⟩

/-- A class of which the canonical text says `private` more often and a way of
passing less often, and an assignment with parentheses to spare. -/
theorem a_class_and_its_canonical_text_say_the_same :
    let lines := ["class C inherits B x", "public procedure p(a:byVal, b:byRef, c)",
      "endprocedure endclass", "d = (01 * 2) + ('it')"]
    let params : Node := .tree .params [.tree (.param false "a") [], .tree (.param true "b") [],
      .tree (.param false "c") []]
    let value : Node := .tree (.addOp .plus) [
      .tree (.mulOp .times) [.tree (.int 1) [], .tree (.int 2) []], .tree (.str "it") []]
    let program : Node := .tree .program [
      .tree (.classDecl "C" (some "B")) [
        .tree (.classMember false) [.tree (.identifier "x") []],
        .tree (.classMember true) [.tree (.procedure "p") [params, .tree .block []]]],
      .tree (.assign false) [.tree (.identifier "d") [], value]]
    Program.parse lines = .ok (some program) ∧
      ∃ tokens rendered, Token.scan lines = .ok tokens ∧ Token.scan program.render = .ok rendered ∧
        essence tokens = essence rendered := by
  intro lines params value program
  have hparse : Program.parse lines = .ok (some program) := rfl
  exact ⟨hparse, the_canonical_text_keeps_every_token hparse⟩

end Pseudocode
