-- The rules of placement, read off a tree alone: which rule a node breaks is
-- seen from the labels of the nodes around it. Every node that a rule is about
-- begins with a keyword, so a program has as many such nodes as keywords.
import Mathlib.Data.List.Forall2
import Pseudocode.Proofs.Statement.Meaning

namespace Pseudocode

open Construct (CaseLabel SomeParameters Parameters)

/-! ## The rules -/

namespace Label

/-- Whether a node is a loop. -/
def isLoop : Label → Bool
  | forLoop | whileLoop | doLoop => true
  | _ => false

/-- Whether a node is a clause of a `switch`. -/
def isClause : Label → Bool
  | caseClause | defaultClause => true
  | _ => false

/-- The sort of subroutine that a node is. -/
def subroutine? : Label → Option Subroutine
  | function _ => some .function
  | procedure _ => some .procedure
  | _ => none

/-- The rule that a node breaks, if it breaks one. The labels of the nodes around
it are given from the innermost one outwards, and whether a default clause comes
before it among the children of the innermost one. -/
def brokenRule (around : List Label) (afterDefault : Bool) (children : List Node) :
    Label → Option Misplacement
  | jump .kwBreak =>
    if around.any isLoop || around.any isClause then none else some .breakOutside
  | jump _ => if around.any isLoop then none else some .continueOutside
  | returnStatement =>
    match around.findSome? subroutine? with
    | none => some .returnOutside
    | some .function => none
    | some .procedure => if children.isEmpty then none else some .procedureValue
  | function _ | procedure _ => if around.contains .block then some .nestedSubroutine else none
  | classDecl _ _ => if around.contains .block then some .nestedClass else none
  | caseClause | defaultClause => if afterDefault then some .clauseAfterDefault else none
  | _ => none

/-- The keyword that a node begins with, if there is a rule about its place. -/
def keyword? : Label → Option TokenKind
  | jump kind => some kind
  | returnStatement => some .kwReturn
  | function _ => some .kwFunction
  | procedure _ => some .kwProcedure
  | classDecl _ _ => some .kwClass
  | caseClause => some .kwCase
  | defaultClause => some .kwDefault
  | _ => none

end Label

/-! ## Places in a tree -/

/-- A node that a rule is about: its keyword, and the rule that it breaks. -/
structure Place where
  keyword : TokenKind
  broken : Option Misplacement
  deriving DecidableEq

namespace Node

/-- Whether a node is the default clause of a `switch`. -/
def isDefault : Node → Bool
  | tree .defaultClause _ => true
  | _ => false

mutual

/-- The nodes of a tree that a rule is about, a node before those below it. -/
def places (around : List Label) (afterDefault : Bool) : Node → List Place
  | tree label children =>
    (label.keyword?.map fun keyword =>
        Place.mk keyword (label.brokenRule around afterDefault children)).toList ++
      placesAll (label :: around) false children
  | array _ _ dims children => placesAll around false dims ++ placesAll around false children

/-- The same for a row of nodes. -/
def placesAll (around : List Label) (afterDefault : Bool) : List Node → List Place
  | [] => []
  | node :: nodes =>
    node.places around afterDefault ++ placesAll around (afterDefault || node.isDefault) nodes

end

end Node

/-- No node of a program breaks a rule where it stands. -/
def Node.InPlace (program : Node) : Prop :=
  ∀ place ∈ program.places [] false, place.broken = none

/-! ## Sites in the tokens -/

/-- The keywords that nodes begin with whose place there is a rule about. -/
def ruledKeywords : List TokenKind :=
  [.kwBreak, .kwContinue, .kwReturn, .kwFunction, .kwProcedure, .kwClass, .kwCase, .kwDefault]

/-- Such a keyword with the tokens behind it. -/
structure Site where
  keyword : Token
  behind : List Token
  deriving DecidableEq

/-- All of these keywords, in order. -/
def sites : List Token → List Site
  | [] => []
  | token :: tokens =>
    if token.kind ∈ ruledKeywords then ⟨token, tokens⟩ :: sites tokens else sites tokens

/-! ## Offences -/

/-- A token and the rule that it breaks. -/
structure Offence where
  rule : Misplacement
  token : Token
  deriving DecidableEq

/-- What is reported of an offence. -/
def Offence.diagnostic (offence : Offence) : Diagnostic :=
  .misplaced offence.rule offence.token.line

/-- The offence of a token, if something speaks against it. -/
def Offence.of (fault : Option Misplacement) (token : Token) : List Offence :=
  (fault.map (⟨·, token⟩)).toList

/-- The offence at a site, if the node breaks a rule. Where a procedure gives a
value back, the value is what offends. -/
def offence? : Place × Site → Option Offence
  | (⟨_, none⟩, _) => none
  | (⟨_, some .procedureValue⟩, site) => site.behind.head?.map (⟨.procedureValue, ·⟩)
  | (⟨_, some rule⟩, site) => some ⟨rule, site.keyword⟩

/-- The offences of a row of places against the rules, in order. -/
def offences (places : List Place) (tokens : List Token) : List Offence :=
  (places.zip (sites tokens)).filterMap offence?

/-! ## The context of a statement and what is around it -/

/-- The context says of a statement what the labels around it say. -/
structure Surrounds (around : List Label) (ctx : Context) : Prop where
  enforced : ctx.enforced = true
  nested : ctx.nested = around.contains .block
  subroutine : ctx.subroutine = around.findSome? Label.subroutine?
  inLoop : ctx.inLoop = around.any Label.isLoop
  inSwitch : ctx.inSwitch = around.any Label.isClause

namespace Surrounds

variable {around : List Label} {ctx : Context} {label : Label}

theorem top : Surrounds [.program] (.top true) := ⟨rfl, rfl, rfl, rfl, rfl⟩

/-- Labels that are neither blocks nor loops nor clauses nor subroutines say nothing. -/
theorem neutral (h : Surrounds around ctx) (label : Label)
    (hl : label ≠ .block ∧ label.isLoop = false ∧ label.isClause = false ∧
      label.subroutine? = none) : Surrounds (label :: around) ctx := by
  obtain ⟨hblock, hloop, hclause, hsub⟩ := hl
  refine ⟨h.enforced, ?_, ?_, ?_, ?_⟩
  · rw [h.nested]
    simp [Ne.symm hblock]
  · rw [h.subroutine, List.findSome?_cons, hsub]
  · rw [h.inLoop, List.any_cons, hloop, Bool.false_or]
  · rw [h.inSwitch, List.any_cons, hclause, Bool.false_or]

theorem block (h : Surrounds around ctx) : Surrounds (.block :: around) ctx.inBlock :=
  ⟨h.enforced, by simp [Context.inBlock], h.subroutine, h.inLoop, h.inSwitch⟩

theorem any_block {p : Label → Bool} (hb : p .block = false) (hl : p label = false) :
    (Label.block :: label :: around).any p = around.any p := by
  rw [List.any_cons, List.any_cons, hb, hl, Bool.false_or, Bool.false_or]

theorem findSome?_block (hl : label.subroutine? = none) :
    (Label.block :: label :: around).findSome? Label.subroutine? =
      around.findSome? Label.subroutine? := by
  rw [List.findSome?_cons, List.findSome?_cons, hl]
  rfl

theorem loopBody (h : Surrounds around ctx) (label : Label) (hl : label.isLoop = true) :
    Surrounds (.block :: label :: around) ctx.inLoopBody := by
  have hothers : label.isClause = false ∧ label.subroutine? = none := by
    cases label <;> first | exact ⟨rfl, rfl⟩ | cases hl
  refine ⟨h.enforced, by simp [Context.inLoopBody, Context.inBlock], ?_, ?_, ?_⟩
  · rw [findSome?_block hothers.2]
    exact h.subroutine
  · simp [Context.inLoopBody, hl]
  · rw [any_block rfl hothers.1]
    exact h.inSwitch

theorem clause (h : Surrounds around ctx) (label : Label) (hl : label.isClause = true) :
    Surrounds (.block :: label :: around) ctx.inClause := by
  have hothers : label.isLoop = false ∧ label.subroutine? = none := by
    cases label <;> first | exact ⟨rfl, rfl⟩ | cases hl
  refine ⟨h.enforced, by simp [Context.inClause, Context.inBlock], ?_, ?_, ?_⟩
  · rw [findSome?_block hothers.2]
    exact h.subroutine
  · rw [any_block rfl hothers.1]
    exact h.inLoop
  · simp [Context.inClause, hl]

theorem body (h : Surrounds around ctx) (sort : Subroutine) (name : String) :
    Surrounds (.block :: sort.label name :: around) (ctx.inBody sort) := by
  have hothers : (sort.label name).isLoop = false ∧
      (sort.label name).isClause = false := by
    cases sort <;> exact ⟨rfl, rfl⟩
  refine ⟨h.enforced, by simp [Context.inBody, Context.inBlock], ?_, ?_, ?_⟩
  · cases sort <;> rfl
  · rw [any_block rfl hothers.1]
    exact h.inLoop
  · rw [any_block rfl hothers.2]
    exact h.inSwitch

/-! ### What speaks against a statement is the rule that it breaks -/

variable {afterDefault : Bool} {children : List Node}

theorem brokenRule_break (h : Surrounds around ctx) :
    (Label.jump .kwBreak).brokenRule around afterDefault children = ctx.breakFault := by
  simp only [Label.brokenRule, Context.breakFault, h.enforced, h.inLoop, h.inSwitch]
  cases around.any Label.isLoop <;> cases around.any Label.isClause <;> rfl

theorem brokenRule_continue (h : Surrounds around ctx) :
    (Label.jump .kwContinue).brokenRule around afterDefault children = ctx.continueFault := by
  simp only [Label.brokenRule, Context.continueFault, h.enforced, h.inLoop]
  cases around.any Label.isLoop <;> rfl

theorem brokenRule_return (h : Surrounds around ctx) :
    Label.returnStatement.brokenRule around afterDefault children =
      ctx.returnFault.or (if children.isEmpty then none else ctx.valueFault) := by
  simp only [Label.brokenRule, Context.returnFault, Context.valueFault, h.enforced, h.subroutine]
  cases around.findSome? Label.subroutine? with
  | none => cases children <;> rfl
  | some sort => cases sort <;> cases children <;> rfl

theorem brokenRule_sort (h : Surrounds around ctx) (sort : Subroutine) (name : String) :
    (sort.label name).brokenRule around afterDefault children =
      ctx.subroutineFault := by
  cases sort <;>
    simp only [Subroutine.label, Label.brokenRule, Context.subroutineFault, h.enforced,
      h.nested, Bool.true_and]

theorem brokenRule_class (h : Surrounds around ctx) (name : String) (parent : Option String) :
    (Label.classDecl name parent).brokenRule around afterDefault children = ctx.classFault := by
  simp only [Label.brokenRule, Context.classFault, h.enforced, h.nested, Bool.true_and]

theorem brokenRule_clause (h : Surrounds around ctx) (hl : label.isClause = true) :
    label.brokenRule around afterDefault children = ctx.clauseFault afterDefault := by
  cases label <;> cases hl <;>
    simp only [Label.brokenRule, Context.clauseFault, h.enforced, Bool.true_and]

end Surrounds

end Pseudocode
