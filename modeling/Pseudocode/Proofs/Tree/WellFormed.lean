-- The well-formed trees: each node has the children that its sort prescribes,
-- names and values have a text, and every statement stands where it may. No
-- other tree comes out of a program.
import Pseudocode.Proofs.Placement.Rules
import Pseudocode.Proofs.Scanned

namespace Pseudocode

/-- A name that is no keyword and no truth value. -/
def IsIdentifier (name : String) : Prop :=
  Fragment.isName name.toList = true ∧ TokenKind.ofText? name = none ∧ name ≠ "true" ∧
    name ≠ "false"

/-- A field and a subroutine may also be called `new`. -/
def IsMemberName (name : String) : Prop := IsIdentifier name ∨ name = TokenKind.kwNew.spelling

/-- A text that one sort of quotes can stand around. -/
def IsQuotable (value : String) : Prop := ¬('"' ∈ value.toList ∧ '\'' ∈ value.toList)

/-! ## The table of nodes -/

/-- The part that a node plays in the node above it.

* `value isFree`: an expression; where it is not free, only a name, `super` or
  a new object with its suffixes.
* `literal`, `caseLabel`: what a `switch` compares with.
* `branch`, `elseBranch`, `caseClause`, `defaultClause`: the parts of an `if`
  and of a `switch`. -/
inductive Role where
  | literal
  | value (isFree : Bool)
  | caseLabel
  | statement
  | branch
  | elseBranch
  | caseClause
  | defaultClause
  | param
  | subroutine
  | member

open Role

/-- The labels of the operations with two operands: four families, each with its
own signs. -/
def Label.IsOperation : Label → Prop
  | addOp sign => sign ∈ [.opOr, .plus, .minus]
  | mulOp sign => sign ∈ [.opAnd, .times, .divide, .opDiv, .opMod]
  | powOp sign => sign = .power
  | cmpOp sign => sign ∈ [.equal, .notEqual, .less, .greater, .lessEqual, .greaterEqual]
  | _ => False

/-- The node can play the part. -/
inductive Node.Formed : Role → Node → Prop
  | int {value : Int} : 0 ≤ value → value < 2 ^ 63 → Formed literal (.tree (.int value) [])
  | real {rank} : Formed literal (.tree (.real (.finite false rank)) [])
  | str {value} : IsQuotable value → Formed literal (.tree (.str value) [])
  | bool {value} : Formed literal (.tree (.bool value) [])
  | ofLiteral {n} : Formed literal n → Formed (value true) n
  | identifier {isFree name} : IsIdentifier name →
      Formed (value isFree) (.tree (.identifier name) [])
  | superObject {isFree} : Formed (value isFree) (.tree .superObject [])
  | newObject {isFree name es} : IsIdentifier name → (∀ e ∈ es, Formed (value true) e) →
      Formed (value isFree) (.tree (.newObject name) [.tree .args es])
  | field {isFree name l} : IsMemberName name → Formed (value isFree) l →
      Formed (value isFree) (.tree (.field name) [l])
  | index {isFree l es} : Formed (value isFree) l → es ≠ [] →
      (∀ e ∈ es, Formed (value true) e) → Formed (value isFree) (.tree .index [l, .tree .args es])
  | call {isFree l es} : Formed (value isFree) l → (∀ e ∈ es, Formed (value true) e) →
      Formed (value isFree) (.tree .call [l, .tree .args es])
  | binary {label l r} : label.IsOperation → Formed (value true) l → Formed (value true) r →
      Formed (value true) (.tree label [l, r])
  | negate {e} : Formed (value true) e → Formed (value true) (.tree .negate [e])
  | logicalNot {e} : Formed (value true) e → Formed (value true) (.tree .logicalNot [e])
  | literalLabel {n} : Formed literal n → Formed caseLabel n
  | negatedLabel {n} : Formed literal n → n.isNumber = true →
      Formed caseLabel (.tree .negate [n])
  | array {isGlobal name es} : IsIdentifier name → es ≠ [] → (∀ e ∈ es, Formed (value true) e) →
      Formed statement (.array isGlobal name es [])
  | assign {isGlobal target e} : Formed (value false) target → Formed (value true) e →
      Formed statement (.tree (.assign isGlobal) [target, e])
  | callStatement {e} : Formed (value false) e → e.isCall = true → Formed statement e
  | ifStatement {first} {others : List Node} {last : Option Node} : Formed branch first →
      (∀ b ∈ others, Formed branch b) → (∀ b ∈ last, Formed elseBranch b) →
      Formed statement (.tree .ifStatement (first :: others ++ last.toList))
  | branch {c ns} : Formed (value true) c → (∀ n ∈ ns, Formed statement n) →
      Formed branch (.tree .branch [c, .tree .block ns])
  | elseBranch {ns} : (∀ n ∈ ns, Formed statement n) →
      Formed elseBranch (.tree .elseBranch [.tree .block ns])
  | forLoop {name first last ns} : IsIdentifier name → Formed (value true) first →
      Formed (value true) last → (∀ n ∈ ns, Formed statement n) →
      Formed statement (.tree .forLoop [.tree (.identifier name) [], first, last, .tree .block ns])
  | whileLoop {c ns} : Formed (value true) c → (∀ n ∈ ns, Formed statement n) →
      Formed statement (.tree .whileLoop [c, .tree .block ns])
  | doLoop {c ns} : (∀ n ∈ ns, Formed statement n) → Formed (value true) c →
      Formed statement (.tree .doLoop [.tree .block ns, c])
  | switch {e} {cases : List Node} {last : Option Node} : Formed (value true) e →
      (∀ c ∈ cases, Formed caseClause c) → (∀ c ∈ last, Formed defaultClause c) →
      Formed statement (.tree .switch (e :: cases ++ last.toList))
  | caseClause {label ns} : Formed caseLabel label → (∀ n ∈ ns, Formed statement n) →
      Formed caseClause (.tree .caseClause [label, .tree .block ns])
  | defaultClause {ns} : (∀ n ∈ ns, Formed statement n) →
      Formed defaultClause (.tree .defaultClause [.tree .block ns])
  | print {es} : (∀ e ∈ es, Formed (value true) e) → Formed statement (.tree .print es)
  | jump {kind} : kind = .kwBreak ∨ kind = .kwContinue → Formed statement (.tree (.jump kind) [])
  | returnNothing : Formed statement (.tree .returnStatement [])
  | returnValue {e} : Formed (value true) e → Formed statement (.tree .returnStatement [e])
  | ofSubroutine {n} : Formed subroutine n → Formed statement n
  | param {byRef name} : IsIdentifier name → Formed param (.tree (.param byRef name) [])
  | sort {sort : Subroutine} {name ps ns} : IsMemberName name → (∀ p ∈ ps, Formed param p) →
      (∀ n ∈ ns, Formed statement n) →
      Formed subroutine
        (.tree (sort.label name) [.tree .params ps, .tree .block ns])
  | classDecl {name ms} {parent : Option String} : IsIdentifier name →
      (∀ p ∈ parent, IsIdentifier p) → (∀ m ∈ ms, Formed member m) →
      Formed statement (.tree (.classDecl name parent) ms)
  | fieldMember {isPublic name} : IsIdentifier name →
      Formed member (.tree (.classMember isPublic) [.tree (.identifier name) []])
  | method {isPublic n} : Formed subroutine n →
      Formed member (.tree (.classMember isPublic) [n])

/-- A program of at least one statement in which every node has the children
that its sort prescribes and breaks no rule where it stands. -/
def Node.WellFormed (program : Node) : Prop :=
  (∃ ns, program = .tree .program ns ∧ ns ≠ [] ∧ ∀ n ∈ ns, n.Formed statement) ∧
    program.InPlace

/-- The operators of the grammar make the operations, and nothing else. -/
theorem isOperation_iff {label : Label} :
    label.IsOperation ↔ ∃ kind level, Phrase.Operates kind level label := by
  constructor
  · intro h
    cases label with
    | addOp sign | mulOp sign | cmpOp sign =>
      simp only [Label.IsOperation, List.mem_cons, List.not_mem_nil, or_false] at h
      rcases h with rfl | rfl | rfl | rfl | rfl | rfl <;> exact ⟨_, _, by constructor⟩
    | powOp sign =>
      cases h
      exact ⟨_, _, .power⟩
    | _ => exact h.elim
  · rintro ⟨kind, level, h⟩
    cases h <;> simp [Label.IsOperation]

/-- The operations are those that a program is read with. -/
theorem isOperation_iff_of? {label : Label} :
    label.IsOperation ↔ ∃ kind op, BinaryOperator.of? kind = some op ∧ op.label = label := by
  rw [isOperation_iff]
  constructor
  · rintro ⟨kind, level, h⟩
    obtain ⟨op, hop, -, hlabel⟩ := operates_iff.1 h
    exact ⟨kind, op, hop, hlabel⟩
  · rintro ⟨kind, op, hop, rfl⟩
    exact ⟨kind, op.level, operates_of_of? hop⟩

/-! ## Names and values that come from tokens -/

theorem classify?_eq_of_ofText? {text : String} {kind : TokenKind}
    (h : TokenKind.ofText? text = some kind) : Fragment.classify? text = some kind := by
  unfold Fragment.classify?
  rw [h]

theorem classify?_eq_identifier_iff {name : String} :
    Fragment.classify? name = some .identifier ↔ IsIdentifier name := by
  unfold Fragment.classify? IsIdentifier
  cases hk : TokenKind.ofText? name with
  | some kind =>
    have ht : kind.text? = some name := TokenKind.ofText?_eq_some_iff.1 hk
    have hne : kind ≠ .identifier := by
      rintro rfl
      cases ht
    simp [hne]
  | none =>
    dsimp only
    split
    · rename_i hb
      simp only [Bool.or_eq_true, decide_eq_true_eq] at hb
      rcases hb with rfl | rfl <;> simp
    · rename_i hb
      simp only [Bool.or_eq_true, decide_eq_true_eq, not_or] at hb
      split
      · rename_i hn
        simp [hn, hb]
      · rename_i hn
        simp only [hn]
        repeat' split
        all_goals simp

section FromTokens

variable {token : Token}

theorem isIdentifier_of_token (hc : token.Classified) (hk : token.kind = .identifier) :
    IsIdentifier token.text := by
  unfold Token.Classified at hc
  rw [hk] at hc
  exact classify?_eq_identifier_iff.1 hc

theorem ofText?_of_classify? {text : String} {kind : TokenKind}
    (h : Fragment.classify? text = some kind) (hk : kind ∈ TokenKind.spelled) :
    TokenKind.ofText? text = some kind := by
  unfold Fragment.classify? at h
  split at h
  · rename_i hkind
    cases h
    exact hkind
  · exfalso
    dsimp only at h
    repeat' split at h
    all_goals first | exact absurd hk (by cases h; decide) | cases h

theorem isMemberName_of_token (hc : token.Classified)
    (hk : token.kind = .identifier ∨ token.kind = .kwNew) : IsMemberName token.text := by
  rcases hk with hk | hk
  · exact .inl (isIdentifier_of_token hc hk)
  · unfold Token.Classified at hc
    rw [hk] at hc
    have ht := TokenKind.ofText?_eq_some_iff.1 (ofText?_of_classify? hc (by decide))
    exact .inr (Option.some.inj ht).symm

theorem isQuoted_of_token (hc : token.Classified) (hk : token.kind = .strLiteral) :
    Fragment.isQuoted token.text.toList = true := by
  unfold Token.Classified Fragment.classify? at hc
  rw [hk] at hc
  split at hc
  · rename_i kind hkind
    cases hc
    cases TokenKind.ofText?_eq_some_iff.1 hkind
  · dsimp only at hc
    repeat' split at hc
    all_goals first | assumption | cases hc

/-- What stands between the quotes has none of their sort. -/
theorem isQuotable_unquoted (hc : token.Classified) (hk : token.kind = .strLiteral) :
    IsQuotable token.unquoted := by
  have hq := isQuoted_of_token hc hk
  unfold Fragment.isQuoted at hq
  split at hq
  · cases hq
  · rename_i quote rest hchars
    simp only [Bool.and_eq_true, Bool.or_eq_true, decide_eq_true_eq, Bool.not_eq_true'] at hq
    obtain ⟨⟨hquote, hlast⟩, hinner⟩ := hq
    have hvalue : token.unquoted.toList = rest.dropLast := by
      have hlen : 1 ≤ rest.length := by
        cases rest with
        | nil => cases hlast
        | cons c cs => simp
      unfold Token.unquoted
      simp [hk, hchars, hlen]
    have hmem : quote ∉ token.unquoted.toList := by
      rw [hvalue]
      simpa using hinner
    rintro ⟨hdouble, hsingle⟩
    rcases hquote with rfl | rfl
    · exact hmem hdouble
    · exact hmem hsingle

theorem formed_of_literal {label : Label} (hc : token.Classified)
    (h : Phrase.Literal token label) : (Node.tree label []).Formed literal := by
  cases h with
  | int _ hlt => exact .int (Int.natCast_nonneg _) (by exact_mod_cast hlt)
  | @real negative rank _ hvalue =>
    have hpos : negative = false := by
      unfold Binary64.ofNumeral Binary64.ofDecimal at hvalue
      split at hvalue
      · cases hvalue
        rfl
      · cases hvalue
    rw [hpos]
    exact .real
  | str hk => exact .str (isQuotable_unquoted hc hk)
  | bool _ => exact .bool

/-- The label of a number is that of a number. -/
theorem isNumber_of_literal {label : Label}
    (hk : token.kind = .intLiteral ∨ token.kind = .realLiteral)
    (h : Phrase.Literal token label) : label.isNumber = true := by
  cases h with
  | int _ _ => rfl
  | real _ _ => rfl
  | str hs | bool hs =>
    rw [hs] at hk
    rcases hk with hk | hk <;> cases hk

end FromTokens

/-! ## Only well-formed trees come out of a program -/

/-- Whether the expressions of a phrase are free. -/
def Phrase.isFree : Phrase → Bool
  | chain isFree => isFree
  | _ => true

/-- All tokens have the kinds of their texts. -/
def AllClassified (tokens : List Token) : Prop := ∀ token ∈ tokens, token.Classified

section Classified

variable {token : Token} {ts us : List Token}

theorem AllClassified.head (h : AllClassified (token :: ts)) : token.Classified :=
  h token (by simp)

theorem AllClassified.tail (h : AllClassified (token :: ts)) : AllClassified ts :=
  fun found hf => h found (List.mem_cons_of_mem _ hf)

theorem AllClassified.of_suffix (h : AllClassified ts) (hs : us <:+ ts) : AllClassified us :=
  fun found hf => h found (hs.subset hf)

end Classified

theorem Phrase.Derives.suffix {phrase : Phrase} {ts us : List Token} {ns : List Node}
    (h : phrase.Derives ts ns us) : us <:+ ts := by
  obtain ⟨front, rfl, -⟩ := h.front
  exact List.suffix_append front us

theorem Phrase.ne_nil_of_expressions {ts us : List Token} {ns : List Node}
    (h : Phrase.Derives .expressions ts ns us) : ns ≠ [] := by
  cases h
  simp

theorem isFree_leftOperand (level : Nat) : (Phrase.leftOperand level).isFree = true := by
  unfold Phrase.leftOperand
  split
  · rfl
  · split <;> rfl

theorem isFree_rightOperand (level : Nat) : (Phrase.rightOperand level).isFree = true := by
  unfold Phrase.rightOperand
  split <;> rfl

/-- What a phrase derives from tokens of a program plays its part. -/
theorem formed_of_phrase {phrase : Phrase} {ts us : List Token} {ns : List Node}
    (h : phrase.Derives ts ns us) (hc : AllClassified ts) :
    ∀ n ∈ ns, n.Formed (.value phrase.isFree) := by
  induction h with
  | ofOperation _ ih => exact ih hc
  | logicalNot _ _ ih => simpa using .logicalNot (ih hc.tail _ (by simp))
  | ofUnary _ ih => exact ih hc
  | binary ho _ hl hr ihl ihr =>
    rw [isFree_leftOperand] at ihl
    rw [isFree_rightOperand] at ihr
    have hright : AllClassified _ := (hc.of_suffix hl.suffix).tail
    simpa using .binary (isOperation_iff.2 ⟨_, _, ho⟩) (ihl hc _ (by simp)) (ihr hright _ (by simp))
  | negate _ _ ih => simpa using .negate (ih hc.tail _ (by simp))
  | ofChain _ ih => exact ih hc
  | parenthesized _ _ _ ih => exact ih hc.tail
  | literal hl => simpa using .ofLiteral (formed_of_literal hc.head hl)
  | identifier hk => simpa using .identifier (isIdentifier_of_token hc.head hk)
  | superObject => simpa using .superObject
  | newObject _ hn _ _ _ ih =>
    simpa using .newObject (isIdentifier_of_token hc.tail.head hn) (ih hc.tail.tail.tail)
  | field _ hn hl ih =>
    have hname := (hc.of_suffix hl.suffix).tail.head
    simpa using .field (isMemberName_of_token hname hn) (ih hc _ (by simp))
  | index _ _ hl hd ihl ihe =>
    have hes := ihe (hc.of_suffix hl.suffix).tail
    simpa using .index (ihl hc _ (by simp)) (Phrase.ne_nil_of_expressions hd) hes
  | call _ _ hl _ ihl ihe =>
    have hes := ihe (hc.of_suffix hl.suffix).tail
    simpa using .call (ihl hc _ (by simp)) hes
  | noArguments => simp
  | ofExpressions _ ih => exact ih hc
  | first he _ ihe ih =>
    exact List.forall_mem_cons.2 ⟨ihe hc _ (by simp), ih (hc.of_suffix he.suffix)⟩
  | noMore => simp
  | more _ he _ ihe ih =>
    exact List.forall_mem_cons.2 ⟨ihe hc.tail _ (by simp), ih (hc.tail.of_suffix he.suffix)⟩

namespace Construct

section Suffix

variable {ts us : List Token} {ns : List Node}

theorem Marked.suffix {kind : TokenKind} {isThere : Bool} (h : Marked kind isThere ts us) :
    us <:+ ts := by
  cases h with
  | present => exact List.suffix_cons _ _
  | absent => exact List.suffix_rfl

theorem Visibility.suffix {isPublic : Bool} (h : Visibility isPublic ts us) : us <:+ ts := by
  cases h with
  | shown => exact List.suffix_cons _ _
  | hidden => exact List.suffix_cons _ _
  | unsaid => exact List.suffix_rfl

theorem Parent.suffix {parent : Option String} (h : Parent parent ts us) : us <:+ ts := by
  cases h with
  | inherited => exact (List.suffix_cons _ _).trans (List.suffix_cons _ _)
  | none => exact List.suffix_rfl

theorem CaseLabel.suffix {label : Node} (h : CaseLabel ts label us) : us <:+ ts := by
  cases h with
  | literal => exact List.suffix_cons _ _
  | negated => exact (List.suffix_cons _ _).trans (List.suffix_cons _ _)

theorem Passing.suffix {byRef : Bool} (h : Passing byRef ts us) : us <:+ ts := by
  cases h with
  | byRef => exact (List.suffix_cons _ _).trans (List.suffix_cons _ _)
  | byVal => exact (List.suffix_cons _ _).trans (List.suffix_cons _ _)
  | unsaid => exact List.suffix_rfl

theorem SomeParameters.suffix (h : SomeParameters ts ns us) : us <:+ ts := by
  induction h with
  | last _ hp => exact hp.suffix.trans (List.suffix_cons _ _)
  | more _ hp _ _ ih =>
    exact (ih.trans (List.suffix_cons _ _)).trans (hp.suffix.trans (List.suffix_cons _ _))

theorem Parameters.suffix (h : Parameters ts ns us) : us <:+ ts := by
  cases h with
  | none => exact List.suffix_rfl
  | some h => exact h.suffix

/-- Tokens behind one more are behind it too. -/
theorem suffix_of_cons {token : Token} (h : token :: us <:+ ts) : us <:+ ts :=
  (List.suffix_cons token us).trans h

theorem suffix_cons_of {token : Token} (h : us <:+ ts) : us <:+ token :: ts :=
  h.trans (List.suffix_cons token ts)

theorem Derives.suffix {ordered : Bool} {construct : Construct}
    (h : construct.Derives ordered ts ns us) : us <:+ ts := by
  induction h with
  | array hm _ _ _ hd _ =>
    exact (suffix_of_cons hd.suffix).trans (suffix_of_cons (suffix_of_cons
      (suffix_of_cons hm.suffix)))
  | assign hm ht _ hv => exact hv.suffix.trans ((suffix_of_cons ht.suffix).trans hm.suffix)
  | call ht _ => exact ht.suffix
  | ifStatement _ hc _ _ _ ihs ihb =>
    exact suffix_cons_of ((ihb.trans ihs).trans (suffix_of_cons hc.suffix))
  | forLoop _ _ _ hf _ hl _ _ _ _ ih =>
    have hbody := (suffix_of_cons (suffix_of_cons ih)).trans hl.suffix
    exact suffix_cons_of (suffix_cons_of (suffix_cons_of
      (hbody.trans (suffix_of_cons hf.suffix))))
  | whileLoop _ hc _ _ ih => exact suffix_cons_of ((suffix_of_cons ih).trans hc.suffix)
  | doLoop _ _ _ hc ih => exact suffix_cons_of (hc.suffix.trans (suffix_of_cons ih))
  | switch _ he _ _ ih => exact suffix_cons_of (ih.trans (suffix_of_cons he.suffix))
  | print _ _ hd _ => exact suffix_cons_of (suffix_cons_of (suffix_of_cons hd.suffix))
  | jump _ => exact List.suffix_cons _ _
  | returnNothing _ _ => exact List.suffix_cons _ _
  | returnValue _ _ hd => exact suffix_cons_of hd.suffix
  | ofSubroutine _ ih => exact ih
  | classDecl _ _ hp _ ih => exact suffix_cons_of (suffix_cons_of (ih.trans hp.suffix))
  | noStatement => exact List.suffix_rfl
  | oneMore _ _ ih ihs => exact ihs.trans ih
  | endIf _ => exact List.suffix_cons _ _
  | elseBranch _ _ _ ih => exact suffix_cons_of (suffix_of_cons ih)
  | elseIf _ hc _ _ _ ihs ihb =>
    exact suffix_cons_of ((ihb.trans ihs).trans (suffix_of_cons hc.suffix))
  | endSwitch _ => exact List.suffix_cons _ _
  | caseClause _ _ hl _ _ _ ihs ihc =>
    exact suffix_cons_of ((ihc.trans ihs).trans (suffix_of_cons hl.suffix))
  | defaultClause _ _ _ _ _ ihs ihc => exact suffix_cons_of (suffix_cons_of (ihc.trans ihs))
  | ofSort _ _ _ hps _ _ _ ih =>
    have hbody := (suffix_of_cons ih).trans (suffix_of_cons hps.suffix)
    exact suffix_cons_of (suffix_cons_of (suffix_cons_of hbody))
  | endClass _ => exact List.suffix_cons _ _
  | field hv _ _ ih => exact ih.trans (suffix_of_cons hv.suffix)
  | method hv _ _ ihs ih => exact ih.trans (ihs.trans hv.suffix)

end Suffix

/-- What the nodes of a construct are, where no clause comes after the default. -/
def Shows : Construct → List Node → Prop
  | statement, ns => ∀ n ∈ ns, n.Formed .statement
  | statements, ns => ∀ n ∈ ns, n.Formed .statement
  | otherBranches, ns =>
    ∃ (others : List Node) (last : Option Node), ns = others ++ last.toList ∧
      (∀ b ∈ others, b.Formed .branch) ∧ ∀ b ∈ last, b.Formed .elseBranch
  | clauses afterDefault, ns =>
    ∃ (cases : List Node) (last : Option Node), ns = cases ++ last.toList ∧
      (afterDefault = true → ns = []) ∧ (∀ c ∈ cases, c.Formed .caseClause) ∧
      ∀ c ∈ last, c.Formed .defaultClause
  | subroutine, ns => ∀ n ∈ ns, n.Formed .subroutine
  | members, ns => ∀ n ∈ ns, n.Formed .member

theorem formed_of_whole {ts us : List Token} {e : Node} (h : Whole ts e us)
    (hc : AllClassified ts) : e.Formed (.value true) :=
  formed_of_phrase h hc e (by simp)

theorem formed_of_caseLabel {ts us : List Token} {e : Node} (h : CaseLabel ts e us)
    (hc : AllClassified ts) : e.Formed .caseLabel := by
  cases h with
  | literal hl => exact .literalLabel (formed_of_literal hc.head hl)
  | negated _ hn hl =>
    exact .negatedLabel (formed_of_literal hc.tail.head hl) (isNumber_of_literal hn hl)

theorem formed_of_someParameters {ts us : List Token} {ns : List Node}
    (h : SomeParameters ts ns us) (hc : AllClassified ts) : ∀ p ∈ ns, p.Formed .param := by
  induction h with
  | last hn _ => simpa using .param (isIdentifier_of_token hc.head hn)
  | more hn hp _ _ ih =>
    have hothers := ih (hc.tail.of_suffix hp.suffix).tail
    exact List.forall_mem_cons.2 ⟨.param (isIdentifier_of_token hc.head hn), hothers⟩

theorem formed_of_parameters {ts us : List Token} {ns : List Node} (h : Parameters ts ns us)
    (hc : AllClassified ts) : ∀ p ∈ ns, p.Formed .param := by
  cases h with
  | none => simp
  | some h => exact formed_of_someParameters h hc

theorem isIdentifier_of_parent {ts us : List Token} {parent : Option String}
    (h : Parent parent ts us) (hc : AllClassified ts) : ∀ p ∈ parent, IsIdentifier p := by
  cases h with
  | inherited _ hn =>
    intro p hp
    cases hp
    exact isIdentifier_of_token hc.tail.head hn
  | none => simp

/-- What a construct derives from tokens of a program plays its part. -/
theorem shows_of_derives {construct : Construct} {ts us : List Token} {ns : List Node}
    (h : construct.Derives true ts ns us) (hc : AllClassified ts) : construct.Shows ns := by
  induction h with
  | array hm _ hn _ hd _ =>
    have hname := hc.of_suffix hm.suffix
    refine List.forall_mem_singleton.2 ?_
    exact .array (isIdentifier_of_token hname.tail.head hn) (Phrase.ne_nil_of_expressions hd)
      (formed_of_phrase hd hname.tail.tail.tail)
  | assign hm ht _ hv =>
    have htarget := hc.of_suffix hm.suffix
    refine List.forall_mem_singleton.2 ?_
    exact .assign (formed_of_phrase ht htarget _ (by simp))
      (formed_of_whole hv (htarget.of_suffix ht.suffix).tail)
  | call ht hcall =>
    refine List.forall_mem_singleton.2 ?_
    exact .callStatement (formed_of_phrase ht hc _ (by simp)) hcall
  | ifStatement _ hcond _ hs _ ihs ihb =>
    have hbody := (hc.tail.of_suffix hcond.suffix).tail
    obtain ⟨others, last, rfl, hothers, hlast⟩ := ihb (hbody.of_suffix hs.suffix)
    refine List.forall_mem_singleton.2 ?_
    exact .ifStatement (.branch (formed_of_whole hcond hc.tail) (ihs hbody)) hothers hlast
  | forLoop _ hn _ hf _ hl _ _ _ _ ih =>
    have hfirst := hc.tail.tail.tail
    have hfinal := (hfirst.of_suffix hf.suffix).tail
    refine List.forall_mem_singleton.2 ?_
    exact .forLoop (isIdentifier_of_token hc.tail.head hn) (formed_of_whole hf hfirst)
      (formed_of_whole hl hfinal) (ih (hfinal.of_suffix hl.suffix))
  | whileLoop _ hcond _ _ ih =>
    refine List.forall_mem_singleton.2 ?_
    exact .whileLoop (formed_of_whole hcond hc.tail) (ih (hc.tail.of_suffix hcond.suffix))
  | doLoop _ hs _ hcond ih =>
    refine List.forall_mem_singleton.2 ?_
    exact .doLoop (ih hc.tail) (formed_of_whole hcond (hc.tail.of_suffix hs.suffix).tail)
  | switch _ he _ _ ih =>
    obtain ⟨cases, last, rfl, -, hcases, hlast⟩ := ih (hc.tail.of_suffix he.suffix).tail
    refine List.forall_mem_singleton.2 ?_
    exact .switch (formed_of_whole he hc.tail) hcases hlast
  | print _ _ hd _ =>
    refine List.forall_mem_singleton.2 ?_
    exact .print (formed_of_phrase hd hc.tail.tail)
  | jump hk =>
    refine List.forall_mem_singleton.2 ?_
    exact .jump hk
  | returnNothing _ _ =>
    refine List.forall_mem_singleton.2 ?_
    exact .returnNothing
  | returnValue _ _ hd =>
    refine List.forall_mem_singleton.2 ?_
    exact .returnValue (formed_of_whole hd hc.tail)
  | ofSubroutine _ ih =>
    intro n hmem
    exact .ofSubroutine (ih hc n hmem)
  | classDecl _ hn hp _ ih =>
    refine List.forall_mem_singleton.2 ?_
    exact .classDecl (isIdentifier_of_token hc.tail.head hn) (isIdentifier_of_parent hp hc.tail.tail)
      (ih (hc.tail.tail.of_suffix hp.suffix))
  | noStatement =>
    intro n hmem
    exact absurd hmem (by simp)
  | oneMore hs _ ih ihs =>
    exact List.forall_mem_cons.2 ⟨ih hc _ (by simp), ihs (hc.of_suffix hs.suffix)⟩
  | endIf _ => exact ⟨[], none, rfl, by simp, by simp⟩
  | elseBranch _ _ _ ih =>
    refine ⟨[], some _, rfl, by simp, ?_⟩
    intro b hb
    cases hb
    exact .elseBranch (ih hc.tail)
  | elseIf _ hcond _ hs _ ihs ihb =>
    have hbody := (hc.tail.of_suffix hcond.suffix).tail
    obtain ⟨others, last, rfl, hothers, hlast⟩ := ihb (hbody.of_suffix hs.suffix)
    refine ⟨_ :: others, last, rfl, ?_, hlast⟩
    exact List.forall_mem_cons.2
      ⟨.branch (formed_of_whole hcond hc.tail) (ihs hbody), hothers⟩
  | endSwitch _ => exact ⟨[], none, rfl, by simp, by simp, by simp⟩
  | caseClause _ hf hl _ hs _ ihs ihc =>
    have hbody := (hc.tail.of_suffix hl.suffix).tail
    obtain ⟨cases, last, rfl, -, hcases, hlast⟩ := ihc (hbody.of_suffix hs.suffix)
    refine ⟨_ :: cases, last, rfl, fun ha => absurd (hf ha) (by simp), ?_, hlast⟩
    exact List.forall_mem_cons.2
      ⟨.caseClause (formed_of_caseLabel hl hc.tail) (ihs hbody), hcases⟩
  | defaultClause _ hf _ hs _ ihs ihc =>
    have hbody := hc.tail.tail
    obtain ⟨cases, last, rfl, hnil, -, -⟩ := ihc (hbody.of_suffix hs.suffix)
    rw [hnil rfl]
    refine ⟨[], some _, rfl, fun ha => absurd (hf ha) (by simp), by simp, ?_⟩
    intro b hb
    cases hb
    exact .defaultClause (ihs hbody)
  | ofSort _ hn _ hps _ _ _ ih =>
    have hparams := hc.tail.tail.tail
    refine List.forall_mem_singleton.2 ?_
    exact .sort (isMemberName_of_token hc.tail.head hn) (formed_of_parameters hps hparams)
      (ih (hparams.of_suffix hps.suffix).tail)
  | endClass _ =>
    intro n hmem
    exact absurd hmem (by simp)
  | field hv hn _ ih =>
    have hname := hc.of_suffix hv.suffix
    exact List.forall_mem_cons.2
      ⟨.fieldMember (isIdentifier_of_token hname.head hn), ih hname.tail⟩
  | method hv hs _ ihs ih =>
    have hsub := hc.of_suffix hv.suffix
    exact List.forall_mem_cons.2
      ⟨.method (ihs hsub _ (by simp)), ih (hsub.of_suffix hs.suffix)⟩

end Construct

end Pseudocode
