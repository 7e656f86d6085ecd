-- The canonical lines of a tree are lines of a text, if no string of the tree has
-- a line feed. A line ends in a word, in a literal or in a mark, and none of these
-- ends in a carriage return, whatever a string has in it.
import Pseudocode.Proofs.Canonical.Content
import Pseudocode.Proofs.Token.Characters

namespace Pseudocode

open Construct (blockOf)
open Node (expressions listed object operandAt argumentsAt parenthesized parameter statements
  sourceLine yields)
open Text

/-! ## Strings of a tree -/

/-- What is said is no string with a line feed. -/
def Atom.FeedFree : Atom → Prop
  | .value (.str text) => NoFeed text
  | _ => True

/-- No string of the tree has a line feed. -/
def Node.FeedFree (n : Node) : Prop := ∀ atom ∈ n.yield, atom.FeedFree

section FeedFree

variable {label : Label} {c : Node} {children es ns : List Node}

theorem Node.FeedFree.child (h : (Node.tree label children).FeedFree)
    (hl : label.saysAll = true) (hc : c ∈ children) : c.FeedFree :=
  fun atom ha => h atom (Node.yield_subset hl hc ha)

theorem Node.FeedFree.dim {isGlobal : Bool} {name : String}
    (h : (Node.array isGlobal name es children).FeedFree) (hc : c ∈ es) : c.FeedFree :=
  fun atom ha => h atom (Node.yield_subset_array hc ha)

theorem Node.FeedFree.inArgs (h : (Node.tree label children).FeedFree)
    (hl : label.saysAll = true) (hargs : .tree .args es ∈ children) (hc : c ∈ es) : c.FeedFree :=
  (h.child hl hargs).child rfl hc

theorem Node.FeedFree.inBlock (h : (Node.tree label children).FeedFree)
    (hl : label.saysAll = true) (hblock : blockOf ns ∈ children) (hc : c ∈ ns) : c.FeedFree :=
  (h.child hl hblock).child rfl hc

/-- The first branch of an `if` says `elseif`, and the `if` has another word in
its place. -/
theorem Node.FeedFree.branch {first : Node} (hfirst : first.Formed .branch)
    (h : (Node.tree .ifStatement (first :: ns)).FeedFree) (hc : c ∈ first :: ns) : c.FeedFree := by
  obtain ⟨rest, hrest⟩ : ∃ rest, (yields (first :: ns)).flatten = .mark .kwElseIf :: rest := by
    cases hfirst with
    | branch => exact ⟨_, rfl⟩
  intro atom ha
  have hmem := mem_flatten_yields hc ha
  rw [hrest] at hmem
  rcases List.mem_cons.1 hmem with rfl | hmem
  · trivial
  · refine h atom ?_
    rw [Node.yield, Label.yield, hrest]
    simp [hmem]

theorem saysAll_operation (h : label.IsOperation) : label.saysAll = true := by
  obtain ⟨kind, level, ho⟩ := isOperation_iff.1 h
  cases ho <;> rfl

end FeedFree

/-! ## Words, names and literals -/

section Words

variable {kind : TokenKind} {name text : String} {e : Node}

theorem isLine_spelling (h : kind ∈ TokenKind.spelled) : IsLine kind.spelling := by
  have hstring : ∀ kind ∈ TokenKind.spelled, kind ≠ .strLiteral := by decide
  exact isLine_of_classify? (classify?_spelling h) fun hk => absurd hk (hstring kind h)

theorem noFeed_spelling (kind : TokenKind) : NoFeed kind.spelling := by
  by_cases h : kind ∈ TokenKind.spelled
  · exact (isLine_spelling h).noFeed
  · cases kind <;> first | exact absurd (by decide) h | exact List.not_mem_nil

/-- A word or a mark behind a text. -/
theorem Text.NoFeed.word (h : NoFeed text) (kind : TokenKind) : NoFeed (text ++ kind.spelling) :=
  h.append (noFeed_spelling kind)

/-- A word or a mark at the end of a line. -/
theorem Text.NoFeed.lastWord (h : NoFeed text) (hk : kind ∈ TokenKind.spelled) :
    IsLine (text ++ kind.spelling) :=
  h.isLine (isLine_spelling hk)

theorem Text.NoFeed.blank (h : NoFeed text) : NoFeed (text ++ " ") := h.append (by decide)

theorem isLine_identifier (h : IsIdentifier name) : IsLine name :=
  isLine_of_classify? (classify?_eq_identifier_iff.2 h) nofun

theorem isLine_memberName (h : IsMemberName name) : IsLine name := by
  rcases h with h | rfl
  · exact isLine_identifier h
  · exact isLine_spelling (by decide)

/-- A string may end in anything, as a quote comes behind it. -/
theorem isLine_literalText {value : String} (h : NoFeed value) :
    IsLine (Node.literalText value) := by
  have hdouble : IsLine "\"" := ⟨by decide, '"', rfl, by decide⟩
  have hsingle : IsLine "'" := ⟨by decide, '\'', rfl, by decide⟩
  unfold Node.literalText
  split
  · exact (hsingle.noFeed.append h).isLine hsingle
  · exact (hdouble.noFeed.append h).isLine hdouble

theorem isLine_literal (h : e.Formed .literal) (hfeed : e.FeedFree) : IsLine e.expression := by
  cases h with
  | @int value hpos =>
    obtain ⟨k, rfl⟩ := Int.eq_ofNat_of_zero_le hpos
    exact isLine_of_classify? (classify?_natCast k) nofun
  | @real rank =>
    obtain ⟨n, ht, hreal, -⟩ := exists_numeral rank
    exact isLine_of_classify? (classify?_real ht hreal) nofun
  | @str value =>
    have hvalue : (Atom.value (.str value)).FeedFree := hfeed _ List.mem_cons_self
    exact isLine_literalText hvalue
  | @bool value => exact isLine_of_classify? (classify?_bool value) nofun

end Words

/-! ## Expressions -/

section Expressions

variable {e l r : Node} {es : List Node} {name text : String} {items : List String}

theorem noFeed_listed (h : ∀ item ∈ items, NoFeed item) : NoFeed (listed items) := by
  have hcomma : NoFeed ", " := by decide
  unfold listed
  induction items with
  | nil =>
    rw [String.intercalate_nil]
    decide
  | cons item others ih =>
    obtain ⟨hitem, hothers⟩ := List.forall_mem_cons.1 h
    cases others with
    | nil =>
      rw [String.intercalate_singleton]
      exact hitem
    | cons next others =>
      rw [String.intercalate_cons_cons]
      exact (hitem.append hcomma).append (ih hothers)

theorem noFeed_expressions (h : ∀ e ∈ es, IsLine e.expression) :
    NoFeed (listed (expressions es)) := by
  have hall : ∀ item ∈ expressions es, NoFeed item := by
    induction es with
    | nil => exact fun item hitem => absurd hitem List.not_mem_nil
    | cons e es ih =>
      obtain ⟨he, hes⟩ := List.forall_mem_cons.1 h
      exact List.forall_mem_cons.2 ⟨he.noFeed, ih hes⟩
  exact noFeed_listed hall

theorem isLine_parenthesized (needed : Bool) (h : IsLine text) :
    IsLine (parenthesized needed text) := by
  have hclose : TokenKind.closeParen ∈ TokenKind.spelled := by decide
  unfold parenthesized
  split
  · exact ((noFeed_spelling .openParen).append h.noFeed).lastWord hclose
  · exact h

theorem isLine_newObject (hn : IsIdentifier name) (h : ∀ e ∈ es, IsLine e.expression) :
    IsLine (Node.tree (.newObject name) [.tree .args es]).expression := by
  have hclose : TokenKind.closeParen ∈ TokenKind.spelled := by decide
  have hname := (noFeed_spelling .kwNew).blank.append (isLine_identifier hn).noFeed
  simp only [Node.expression, argumentsAt]
  exact ((hname.word .openParen).append (noFeed_expressions h)).lastWord hclose

theorem isLine_field (hn : IsMemberName name) (h : IsLine l.expression) :
    IsLine (Node.tree (.field name) [l]).expression := by
  simp only [Node.expression, object]
  exact ((isLine_parenthesized _ h).noFeed.word .dot).isLine (isLine_memberName hn)

theorem isLine_index (hl : IsLine l.expression) (h : ∀ e ∈ es, IsLine e.expression) :
    IsLine (Node.tree .index [l, .tree .args es]).expression := by
  have hclose : TokenKind.closeBracket ∈ TokenKind.spelled := by decide
  have hobject := (isLine_parenthesized (l.isCompound || l.isNumber) hl).noFeed.word .openBracket
  simp only [Node.expression, object, argumentsAt]
  exact (hobject.append (noFeed_expressions h)).lastWord hclose

theorem isLine_call (hl : IsLine l.expression) (h : ∀ e ∈ es, IsLine e.expression) :
    IsLine (Node.tree .call [l, .tree .args es]).expression := by
  have hclose : TokenKind.closeParen ∈ TokenKind.spelled := by decide
  have hobject := (isLine_parenthesized (l.isCompound || l.isNumber) hl).noFeed.word .openParen
  simp only [Node.expression, object, argumentsAt]
  exact (hobject.append (noFeed_expressions h)).lastWord hclose

theorem isLine_binary {label : Label} (h : label.IsOperation) (hl : IsLine l.expression)
    (hr : IsLine r.expression) : IsLine (Node.tree label [l, r]).expression := by
  obtain ⟨kind, level, ho⟩ := isOperation_iff.1 h
  obtain ⟨-, -, htext⟩ := operator_node ho l r
  rw [htext]
  exact ((isLine_parenthesized _ hl).noFeed.blank.word kind).blank.isLine (isLine_parenthesized _ hr)

theorem isLine_negate (h : IsLine e.expression) : IsLine (Node.tree .negate [e]).expression := by
  simp only [Node.expression, operandAt]
  exact (noFeed_spelling .minus).isLine (isLine_parenthesized _ h)

theorem isLine_logicalNot (h : IsLine e.expression) :
    IsLine (Node.tree .logicalNot [e]).expression := by
  simp only [Node.expression, operandAt]
  exact (noFeed_spelling .opNot).blank.isLine (isLine_parenthesized _ h)

end Expressions

/-! ## Lines one below the other -/

/-- All of the texts are lines of a text. -/
def AreLines (lines : List String) : Prop := ∀ line ∈ lines, IsLine line

section Lines

variable {lines others : List String} {text opening closing : String} {depth : Nat} {ns : List Node}

theorem areLines_nil : AreLines [] := fun _ hline => absurd hline List.not_mem_nil

theorem AreLines.append (h : AreLines lines) (h' : AreLines others) : AreLines (lines ++ others) :=
  List.forall_mem_append.2 ⟨h, h'⟩

/-- The blanks in front do not change how a line ends. -/
theorem Text.IsLine.atDepth (h : IsLine text) (depth : Nat) : AreLines [sourceLine depth text] := by
  have hblanks : NoFeed (String.ofList (List.replicate (4 * depth) ' ')) := by
    unfold NoFeed
    rw [String.toList_ofList]
    intro hmem
    exact absurd (List.eq_of_mem_replicate hmem) (by decide)
  intro line hline
  rw [List.mem_singleton.1 hline]
  exact hblanks.isLine h

/-- Lines between a first and a last one. -/
theorem AreLines.between (h : AreLines lines) (ho : IsLine opening) (hc : IsLine closing)
    (depth : Nat) :
    AreLines ([sourceLine depth opening] ++ lines ++ [sourceLine depth closing]) :=
  ((ho.atDepth depth).append h).append (hc.atDepth depth)

theorem areLines_statements (h : ∀ n ∈ ns, ∀ depth, AreLines (n.statement depth ""))
    (depth : Nat) : AreLines (statements depth ns) := by
  induction ns with
  | nil =>
    rw [Node.statements_nil]
    exact areLines_nil
  | cons n ns ih =>
    obtain ⟨hn, hns⟩ := List.forall_mem_cons.1 h
    rw [Node.statements_cons]
    exact (hn depth).append (ih hns)

end Lines

/-! ## Statements -/

section Statements

variable {e c target first last : Node} {es ns : List Node} {name : String} {isGlobal : Bool}
  {depth : Nat}

theorem noFeed_globalMark (isGlobal : Bool) : NoFeed (Node.globalMark isGlobal) := by
  cases isGlobal <;> decide

theorem areLines_array (hn : IsIdentifier name) (h : ∀ e ∈ es, IsLine e.expression) :
    AreLines ((Node.array isGlobal name es []).statement depth "") := by
  have hclose : TokenKind.closeBracket ∈ TokenKind.spelled := by decide
  have hword := ((noFeed_globalMark isGlobal).word .kwArray).blank
  have hname := (hword.append (isLine_identifier hn).noFeed).word .openBracket
  simp only [Node.statement]
  exact ((hname.append (noFeed_expressions h)).lastWord hclose).atDepth depth

theorem areLines_assign (ht : IsLine target.expression) (he : IsLine e.expression) :
    AreLines ((Node.tree (.assign isGlobal) [target, e]).statement depth "") := by
  have htarget := (noFeed_globalMark isGlobal).append ht.noFeed
  simp only [Node.statement]
  exact ((htarget.blank.word .assign).blank.isLine he).atDepth depth

theorem areLines_print (h : ∀ e ∈ es, IsLine e.expression) :
    AreLines ((Node.tree .print es).statement depth "") := by
  have hclose : TokenKind.closeParen ∈ TokenKind.spelled := by decide
  have hopen := (noFeed_spelling .kwPrint).word .openParen
  simp only [Node.statement]
  exact ((hopen.append (noFeed_expressions h)).lastWord hclose).atDepth depth

theorem areLines_while (hc : IsLine c.expression) (h : ∀ depth, AreLines (statements depth ns)) :
    AreLines ((Node.tree .whileLoop [c, blockOf ns]).statement depth "") := by
  have hend : TokenKind.kwEndWhile ∈ TokenKind.spelled := by decide
  have hhead := (noFeed_spelling .kwWhile).blank.isLine hc
  simp only [Node.statement, Node.bodyAt]
  exact (h (depth + 1)).between hhead (isLine_spelling hend) depth

theorem areLines_do (hc : IsLine c.expression) (h : ∀ depth, AreLines (statements depth ns)) :
    AreLines ((Node.tree .doLoop [blockOf ns, c]).statement depth "") := by
  have hword : TokenKind.kwDo ∈ TokenKind.spelled := by decide
  have hfoot := (noFeed_spelling .kwUntil).blank.isLine hc
  simp only [Node.statement, Node.bodyAt]
  exact (h (depth + 1)).between (isLine_spelling hword) hfoot depth

theorem areLines_for (hn : IsIdentifier name) (hfirst : IsLine first.expression)
    (hlast : IsLine last.expression) (h : ∀ depth, AreLines (statements depth ns)) :
    AreLines ((Node.tree .forLoop [.tree (.identifier name) [], first, last, blockOf ns]).statement
      depth "") := by
  have hname := isLine_identifier hn
  have hcounter := ((noFeed_spelling .kwFor).blank.append hname.noFeed).blank.word .assign
  have hhead := ((hcounter.blank.append hfirst.noFeed).blank.word .kwTo).blank.isLine hlast
  have hfoot := (noFeed_spelling .kwNext).blank.isLine hname
  simp only [Node.statement, Node.bodyAt]
  exact (h (depth + 1)).between hhead hfoot depth

end Statements

/-! ## Branches and clauses -/

/-- In front of other branches, what is added are lines. -/
def AddsBranch (b : Node) : Prop := ∀ depth opener bs, AreLines (Node.branches depth .kwElseIf bs) →
  AreLines (Node.branches depth opener (b :: bs))

/-- In front of other clauses, what is added are lines. -/
def AddsClause (c : Node) : Prop :=
  ∀ depth cs, AreLines (Node.clauses depth cs) → AreLines (Node.clauses depth (c :: cs))

section Branches

variable {e c label : Node} {ns bs cs : List Node} {depth : Nat}

theorem addsBranch (hc : IsLine c.expression) (h : ∀ depth, AreLines (statements depth ns)) :
    AddsBranch (.tree .branch [c, blockOf ns]) := by
  have hthen : TokenKind.kwThen ∈ TokenKind.spelled := by decide
  intro depth opener bs hbs
  have hhead := ((noFeed_spelling opener).blank.append hc.noFeed).blank.lastWord hthen
  rw [Node.branches_branch]
  exact ((hhead.atDepth depth).append (h (depth + 1))).append hbs

theorem addsBranch_else (h : ∀ depth, AreLines (statements depth ns)) :
    AddsBranch (.tree .elseBranch [blockOf ns]) := by
  have hword : TokenKind.kwElse ∈ TokenKind.spelled := by decide
  intro depth opener bs hbs
  simp only [Node.branches, Node.bodyAt]
  exact (((isLine_spelling hword).atDepth depth).append (h (depth + 1))).append hbs

theorem areLines_if (h : ∀ b ∈ bs, AddsBranch b) :
    AreLines ((Node.tree .ifStatement bs).statement depth "") := by
  have hend : TokenKind.kwEndIf ∈ TokenKind.spelled := by decide
  have hall : ∀ opener, AreLines (Node.branches depth opener bs) := by
    induction bs with
    | nil =>
      intro opener
      simp only [Node.branches]
      exact areLines_nil
    | cons b bs ih =>
      obtain ⟨hb, hbs⟩ := List.forall_mem_cons.1 h
      exact fun opener => hb depth opener bs (ih hbs .kwElseIf)
  simp only [Node.statement]
  exact (hall .kwIf).append ((isLine_spelling hend).atDepth depth)

theorem addsClause (hl : IsLine label.expression) (h : ∀ depth, AreLines (statements depth ns)) :
    AddsClause (.tree .caseClause [label, blockOf ns]) := by
  have hcolon : TokenKind.colon ∈ TokenKind.spelled := by decide
  intro depth cs hcs
  have hhead := ((noFeed_spelling .kwCase).blank.append hl.noFeed).lastWord hcolon
  rw [Node.clauses_case]
  exact ((hhead.atDepth depth).append (h (depth + 1))).append hcs

theorem addsClause_default (h : ∀ depth, AreLines (statements depth ns)) :
    AddsClause (.tree .defaultClause [blockOf ns]) := by
  have hcolon : TokenKind.colon ∈ TokenKind.spelled := by decide
  intro depth cs hcs
  have hhead := (noFeed_spelling .kwDefault).lastWord hcolon
  simp only [Node.clauses, Node.bodyAt]
  exact ((hhead.atDepth depth).append (h (depth + 1))).append hcs

theorem areLines_switch (he : IsLine e.expression) (h : ∀ c ∈ cs, AddsClause c) :
    AreLines ((Node.tree .switch (e :: cs)).statement depth "") := by
  have hcolon : TokenKind.colon ∈ TokenKind.spelled := by decide
  have hend : TokenKind.kwEndSwitch ∈ TokenKind.spelled := by decide
  have hhead := ((noFeed_spelling .kwSwitch).blank.append he.noFeed).lastWord hcolon
  have hall : AreLines (Node.clauses (depth + 1) cs) := by
    induction cs with
    | nil =>
      simp only [Node.clauses]
      exact areLines_nil
    | cons c cs ih =>
      obtain ⟨hc, hcs⟩ := List.forall_mem_cons.1 h
      exact hc (depth + 1) cs (ih hcs)
  simp only [Node.statement, Node.clausesAfter]
  exact hall.between hhead (isLine_spelling hend) depth

end Branches

/-! ## Subroutines and classes -/

section Declarations

variable {n p : Node} {ps ns ms : List Node} {name mark : String} {parent : Option String}
  {isPublic : Bool} {depth : Nat}

theorem isLine_parameter (h : p.Formed .param) : IsLine (parameter p) := by
  cases h with
  | @param byRef name hn =>
    have hname := isLine_identifier hn
    cases byRef with
    | false => exact hname
    | true =>
      have hword : TokenKind.kwByRef ∈ TokenKind.spelled := by decide
      exact (hname.noFeed.word .colon).lastWord hword

theorem areLines_subroutine {sort : Subroutine} (hn : IsMemberName name)
    (hp : ∀ p ∈ ps, IsLine (parameter p)) (h : ∀ depth, AreLines (statements depth ns))
    (hmark : NoFeed mark) :
    AreLines ((Node.tree (sort.label name)
      [.tree .params ps, blockOf ns]).statement depth mark) := by
  have hclose : TokenKind.closeParen ∈ TokenKind.spelled := by decide
  have hend : sort.ending ∈ TokenKind.spelled := by cases sort <;> decide
  have hname := (hmark.word sort.opening).blank.append (isLine_memberName hn).noFeed
  have hparams : NoFeed (listed (ps.map parameter)) := by
    refine noFeed_listed fun item hitem => ?_
    obtain ⟨p, hmem, rfl⟩ := List.mem_map.1 hitem
    exact (hp p hmem).noFeed
  rw [statement_of_sort]
  exact (h (depth + 1)).between (((hname.word .openParen).append hparams).lastWord hclose)
    (isLine_spelling hend) depth

theorem noFeed_visibility (isPublic : Bool) : NoFeed (Node.visibility isPublic) := by
  cases isPublic <;> decide

theorem isLine_classHeader (hn : IsIdentifier name) (hp : ∀ p ∈ parent, IsIdentifier p) :
    IsLine (Node.classHeader name parent) := by
  have hword := (noFeed_spelling .kwClass).blank
  have hname := isLine_identifier hn
  cases parent with
  | none => exact hword.isLine hname
  | some parent =>
    have hheader := ((hword.append hname.noFeed).blank.word .kwInherits).blank
    exact hheader.isLine (isLine_identifier (hp parent rfl))

theorem areLines_class (hn : IsIdentifier name) (hp : ∀ p ∈ parent, IsIdentifier p)
    (h : ∀ depth, AreLines (statements depth ms)) :
    AreLines ((Node.tree (.classDecl name parent) ms).statement depth "") := by
  have hend : TokenKind.kwEndClass ∈ TokenKind.spelled := by decide
  simp only [Node.statement]
  exact (h (depth + 1)).between (isLine_classHeader hn hp) (isLine_spelling hend) depth

theorem areLines_fieldMember (hn : IsIdentifier name) :
    AreLines ((Node.tree (.classMember isPublic) [.tree (.identifier name) []]).statement
      depth "") := by
  have hline := (noFeed_visibility isPublic).isLine (isLine_identifier hn)
  simp only [Node.statement, Node.member]
  exact hline.atDepth depth

theorem areLines_method (hn : n.isIdentifier = false)
    (h : AreLines (n.statement depth (Node.visibility isPublic))) :
    AreLines ((Node.tree (.classMember isPublic) [n]).statement depth "") := by
  simp only [Node.statement, Node.member, hn, Bool.false_eq_true, if_false]
  exact h

end Declarations

/-! ## Every part is in lines -/

/-- The text of what plays a part in a program is in lines. -/
def Role.InLines : Role → Node → Prop
  | value _, n | literal, n | caseLabel, n => IsLine n.expression
  | statement, n | member, n => ∀ depth, AreLines (n.statement depth "")
  | branch, n | elseBranch, n => AddsBranch n
  | caseClause, n | defaultClause, n => AddsClause n
  | param, n => IsLine (parameter n)
  | subroutine, n => ∀ depth mark, NoFeed mark → AreLines (n.statement depth mark)

/-- What is formed as a part is in lines, if no string in it has a line feed. -/
theorem inLines_of_role {role : Role} {n : Node} (h : n.Formed role) (hfeed : n.FeedFree) :
    role.InLines n := by
  induction h with
  | int hpos hle => exact isLine_literal (.int hpos hle) hfeed
  | real => exact isLine_literal .real hfeed
  | str hq => exact isLine_literal (.str hq) hfeed
  | bool => exact isLine_literal .bool hfeed
  | ofLiteral _ ih => exact ih hfeed
  | identifier hn => exact isLine_identifier hn
  | superObject => exact isLine_spelling (by decide)
  | newObject hn _ ih =>
    exact isLine_newObject hn fun e he => ih e he (hfeed.inArgs rfl (by simp) he)
  | field hn _ ih => exact isLine_field hn (ih (hfeed.child rfl (by simp)))
  | index _ _ _ ihl ihe =>
    exact isLine_index (ihl (hfeed.child rfl (by simp)))
      fun e he => ihe e he (hfeed.inArgs rfl (by simp) he)
  | call _ _ ihl ihe =>
    exact isLine_call (ihl (hfeed.child rfl (by simp)))
      fun e he => ihe e he (hfeed.inArgs rfl (by simp) he)
  | binary h _ _ ihl ihr =>
    have hall := saysAll_operation h
    exact isLine_binary h (ihl (hfeed.child hall (by simp))) (ihr (hfeed.child hall (by simp)))
  | negate _ ih => exact isLine_negate (ih (hfeed.child rfl (by simp)))
  | logicalNot _ ih => exact isLine_logicalNot (ih (hfeed.child rfl (by simp)))
  | literalLabel _ ih => exact ih hfeed
  | negatedLabel _ _ ih => exact isLine_negate (ih (hfeed.child rfl (by simp)))
  | array hn _ _ ih =>
    intro depth
    exact areLines_array hn fun e he => ih e he (hfeed.dim he)
  | assign _ _ iht ihe =>
    intro depth
    exact areLines_assign (iht (hfeed.child rfl (by simp))) (ihe (hfeed.child rfl (by simp)))
  | callStatement _ hcall ih =>
    intro depth
    rw [statement_of_isCall hcall]
    exact (ih hfeed).atDepth depth
  | @ifStatement first others last hfirst _ _ ihf iho ihl =>
    intro depth
    refine areLines_if fun b hb => ?_
    have hbranch : b.FeedFree := hfeed.branch hfirst hb
    rcases List.mem_append.1 hb with hb | hb
    · rcases List.mem_cons.1 hb with rfl | hb
      · exact ihf hbranch
      · exact iho b hb hbranch
    · exact ihl b (Option.mem_toList.1 hb) hbranch
  | branch _ _ ihc ih =>
    exact addsBranch (ihc (hfeed.child rfl (by simp)))
      (areLines_statements fun n hn => ih n hn (hfeed.inBlock rfl (by simp) hn))
  | elseBranch _ ih =>
    exact addsBranch_else
      (areLines_statements fun n hn => ih n hn (hfeed.inBlock rfl (by simp) hn))
  | forLoop hn _ _ _ ihf ihl ih =>
    intro depth
    exact areLines_for hn (ihf (hfeed.child rfl (by simp))) (ihl (hfeed.child rfl (by simp)))
      (areLines_statements fun n hn => ih n hn (hfeed.inBlock rfl (by simp) hn))
  | whileLoop _ _ ihc ih =>
    intro depth
    exact areLines_while (ihc (hfeed.child rfl (by simp)))
      (areLines_statements fun n hn => ih n hn (hfeed.inBlock rfl (by simp) hn))
  | doLoop _ _ ih ihc =>
    intro depth
    exact areLines_do (ihc (hfeed.child rfl (by simp)))
      (areLines_statements fun n hn => ih n hn (hfeed.inBlock rfl (by simp) hn))
  | @switch e cases last _ _ _ ihe ihc ihl =>
    intro depth
    refine areLines_switch (ihe (hfeed.child rfl (by simp)))
      fun c (hc : c ∈ cases ++ last.toList) => ?_
    have hclause : c.FeedFree := hfeed.child rfl (List.mem_cons_of_mem _ hc)
    rcases List.mem_append.1 hc with hc | hc
    · exact ihc c hc hclause
    · exact ihl c (Option.mem_toList.1 hc) hclause
  | caseClause _ _ ihl ih =>
    exact addsClause (ihl (hfeed.child rfl (by simp)))
      (areLines_statements fun n hn => ih n hn (hfeed.inBlock rfl (by simp) hn))
  | defaultClause _ ih =>
    exact addsClause_default
      (areLines_statements fun n hn => ih n hn (hfeed.inBlock rfl (by simp) hn))
  | print _ ih =>
    intro depth
    exact areLines_print fun e he => ih e he (hfeed.child rfl he)
  | @jump kind hk =>
    intro depth
    have hword : kind ∈ TokenKind.spelled := by rcases hk with rfl | rfl <;> decide
    exact (isLine_spelling hword).atDepth depth
  | returnNothing =>
    intro depth
    exact (isLine_spelling (by decide)).atDepth depth
  | returnValue _ ih =>
    intro depth
    have hvalue := ih (hfeed.child rfl (by simp))
    exact ((noFeed_spelling .kwReturn).blank.isLine hvalue).atDepth depth
  | ofSubroutine _ ih => exact fun depth => ih hfeed depth "" (by decide)
  | param hn => exact isLine_parameter (.param hn)
  | @sort sort name _ _ hn hp _ _ ih =>
    intro depth mark hmark
    have hall : (sort.label name).saysAll = true := by cases sort <;> rfl
    exact areLines_subroutine hn (fun p hmem => isLine_parameter (hp p hmem))
      (areLines_statements fun n hn => ih n hn (hfeed.inBlock hall (by simp) hn)) hmark
  | classDecl hn hp _ ih =>
    intro depth
    exact areLines_class hn hp (areLines_statements fun m hm => ih m hm (hfeed.child rfl hm))
  | fieldMember hn => exact fun depth => areLines_fieldMember hn
  | @method isPublic _ hs ih =>
    intro depth
    have hmethod := ih (hfeed.child rfl (by simp))
    exact areLines_method (not_isIdentifier_of_subroutine hs)
      (hmethod depth _ (noFeed_visibility isPublic))

end Pseudocode
