-- The integers of a program. A walk over the tree meets them in the order in
-- which the tokens have them, those of the dimensions of an array included: only
-- a `for` says something twice, and that is the name of its counter.
import Pseudocode.Proofs.Canonical.Content

namespace Pseudocode

open Atom (mark name listed)
open Node (yields walkAll)

/-! ## Integers -/

/-- The value of an integer literal. -/
def Label.int? : Label → Option Int
  | int value => some value
  | _ => none

def Atom.int? : Atom → Option Int
  | value label => label.int?
  | sign _ _ => none

def Token.int? (token : Token) : Option Int := token.atom.int?

def Node.int? : Node → Option Int
  | tree label _ => label.int?
  | array _ _ _ _ => none

/-- The integers that are said. -/
def Atom.ints (atoms : List Atom) : List Int := atoms.filterMap int?

/-- The integers of a row of nodes, without those below them. -/
def Node.ints (nodes : List Node) : List Int := nodes.filterMap int?

section Ints

variable {atoms others : List Atom} {kind : TokenKind} {title : String} {label : Label}
  {parts : List (List Atom)} {es ns : List Node} {n : Node}

@[simp] theorem ints_nil : Atom.ints [] = [] := rfl

@[simp] theorem ints_append : Atom.ints (atoms ++ others) = Atom.ints atoms ++ Atom.ints others :=
  List.filterMap_append

@[simp] theorem ints_mark : Atom.ints (mark kind :: atoms) = Atom.ints atoms := rfl

@[simp] theorem ints_name : Atom.ints (name title :: atoms) = Atom.ints atoms := rfl

@[simp] theorem ints_value :
    Atom.ints (.value label :: atoms) = label.int?.toList ++ Atom.ints atoms := by
  unfold Atom.ints
  rw [List.filterMap_cons, Atom.int?]
  cases label.int? <;> rfl

@[simp] theorem ints_global (isGlobal : Bool) : Atom.ints (Atom.global isGlobal) = [] := by
  cases isGlobal <;> rfl

@[simp] theorem ints_parent (parent : Option String) : Atom.ints (Atom.parent parent) = [] := by
  cases parent <;> rfl

/-- Commas between rows have no integers. -/
@[simp] theorem ints_listed : Atom.ints (listed parts) = Atom.ints parts.flatten := by
  cases parts with
  | nil => rfl
  | cons first rest =>
    rw [listed, List.flatten_cons, ints_append, ints_append]
    congr 1
    induction rest with
    | nil => rfl
    | cons second rest ih => rw [List.flatMap_cons, List.flatten_cons, ints_append, ints_append, ih,
        ints_mark]

@[simp] theorem nodeInts_append : Node.ints (ns ++ es) = Node.ints ns ++ Node.ints es :=
  List.filterMap_append

theorem ints_walk (label : Label) :
    Node.ints (Node.tree label ns).walk = label.int?.toList ++ Node.ints (walkAll ns) := by
  unfold Node.ints
  rw [Node.walk, List.filterMap_cons, Node.int?]
  cases label.int? <;> rfl

theorem ints_walk_array (isGlobal : Bool) :
    Node.ints (Node.array isGlobal title es ns).walk =
      Node.ints (walkAll es) ++ Node.ints (walkAll ns) := by
  rw [Node.walk, ← nodeInts_append]
  rfl

end Ints

/-! ## What a tree says -/

/-- A tree says its integers in the order of a walk. -/
def Node.InOrder (n : Node) : Prop := Atom.ints n.yield = Node.ints n.walk

section InOrder

variable {n : Node} {es ns : List Node} {label : Label} {role : Role}

theorem ints_yields (h : ∀ e ∈ es, e.InOrder) :
    Atom.ints (yields es).flatten = Node.ints (walkAll es) := by
  induction es with
  | nil => rfl
  | cons e es ih =>
    obtain ⟨he, hes⟩ := List.forall_mem_cons.1 h
    rw [yields, walkAll, List.flatten_cons, ints_append, nodeInts_append, ih hes, he]

/-- A node without an integer of its own that says what its children say in order. -/
theorem inOrder_tree (hlabel : label.int? = none)
    (hyield : Atom.ints (label.yield (yields ns)) = Atom.ints (yields ns).flatten)
    (h : ∀ n ∈ ns, n.InOrder) : (Node.tree label ns).InOrder := by
  unfold Node.InOrder
  rw [ints_walk, hlabel, Node.yield, hyield, ints_yields h]
  rfl

theorem inOrder_leaf (hlabel : label.int? = none)
    (hyield : Atom.ints (label.yield []) = []) : (Node.tree label []).InOrder :=
  inOrder_tree hlabel hyield (by simp)

theorem inOrder_args (h : ∀ e ∈ es, e.InOrder) : (Node.tree .args es).InOrder :=
  inOrder_tree rfl (by simp [Label.yield]) h

theorem inOrder_block (h : ∀ n ∈ ns, n.InOrder) : (Node.tree .block ns).InOrder :=
  inOrder_tree rfl (by simp [Label.yield]) h

theorem int?_operation (h : label.IsOperation) : label.int? = none := by
  obtain ⟨kind, level, ho⟩ := isOperation_iff.1 h
  cases ho <;> rfl

theorem yield_operation_flatten {l r : Node} (h : label.IsOperation) :
    Atom.ints (label.yield (yields [l, r])) = Atom.ints (yields [l, r]).flatten := by
  obtain ⟨kind, level, ho⟩ := isOperation_iff.1 h
  have hyield := yield_operator ho l r
  rw [Node.yield] at hyield
  rw [hyield]
  simp [yields]

/-- A branch says `elseif` first, which the `if` around it leaves out of the first one. -/
theorem yield_branch (h : n.Formed .branch) : ∃ atoms, n.yield = mark .kwElseIf :: atoms := by
  cases h
  exact ⟨_, rfl⟩

theorem ints_if (h : n.Formed .branch) :
    Atom.ints (Label.yield .ifStatement (yields (n :: ns))) =
      Atom.ints (yields (n :: ns)).flatten := by
  obtain ⟨atoms, hatoms⟩ := yield_branch h
  simp [Label.yield, yields, hatoms]

/-- Every tree that can come out of a program says its integers in the order of a walk. -/
theorem inOrder_of_formed (h : n.Formed role) : n.InOrder := by
  induction h with
  | int _ _ => rfl
  | real => exact inOrder_leaf rfl rfl
  | str _ => exact inOrder_leaf rfl rfl
  | bool => exact inOrder_leaf rfl rfl
  | ofLiteral _ ih => exact ih
  | identifier _ => exact inOrder_leaf rfl rfl
  | superObject => exact inOrder_leaf rfl rfl
  | newObject _ _ ih =>
    exact inOrder_tree rfl (by simp [Label.yield]) (by simpa using inOrder_args ih)
  | field _ _ ih => exact inOrder_tree rfl (by simp [Label.yield]) (by simpa using ih)
  | index _ _ _ ihl ihe =>
    exact inOrder_tree rfl (by simp [Label.yield, yields]) (by simpa using ⟨ihl, inOrder_args ihe⟩)
  | call _ _ ihl ihe =>
    exact inOrder_tree rfl (by simp [Label.yield]) (by simpa using ⟨ihl, inOrder_args ihe⟩)
  | binary h _ _ ihl ihr =>
    exact inOrder_tree (int?_operation h) (yield_operation_flatten h) (by simpa using ⟨ihl, ihr⟩)
  | negate _ ih => exact inOrder_tree rfl (by simp [Label.yield]) (by simpa using ih)
  | logicalNot _ ih => exact inOrder_tree rfl (by simp [Label.yield]) (by simpa using ih)
  | literalLabel _ ih => exact ih
  | negatedLabel _ _ ih => exact inOrder_tree rfl (by simp [Label.yield]) (by simpa using ih)
  | @array isGlobal name es _ _ _ ih =>
    unfold Node.InOrder
    rw [ints_walk_array, ← ints_yields ih]
    simp [Node.yield, walkAll, Node.ints]
  | assign _ _ iht ihv =>
    exact inOrder_tree rfl (by simp [Label.yield, yields]) (by simpa using ⟨iht, ihv⟩)
  | callStatement _ _ ih => exact ih
  | ifStatement hf _ _ ihf iho ihl =>
    refine inOrder_tree rfl (ints_if hf) ?_
    refine List.forall_mem_append.2 ⟨List.forall_mem_cons.2 ⟨ihf, iho⟩, ?_⟩
    simpa using ihl
  | branch _ _ ihc ih =>
    exact inOrder_tree rfl (by simp [Label.yield, yields]) (by simpa using ⟨ihc, inOrder_block ih⟩)
  | elseBranch _ ih =>
    exact inOrder_tree rfl (by simp [Label.yield]) (by simpa using inOrder_block ih)
  | @forLoop name first last ns _ _ _ _ ihf ihl ih =>
    have hcounter : (Node.tree (.identifier name) []).InOrder := inOrder_leaf rfl rfl
    refine inOrder_tree rfl ?_ (by simpa using ⟨hcounter, ihf, ihl, inOrder_block ih⟩)
    simp [Label.yield, yields, Node.yield]
  | whileLoop _ _ ihc ih =>
    exact inOrder_tree rfl (by simp [Label.yield]) (by simpa using ⟨ihc, inOrder_block ih⟩)
  | doLoop _ _ ih ihc =>
    exact inOrder_tree rfl (by simp [Label.yield, yields]) (by simpa using ⟨inOrder_block ih, ihc⟩)
  | switch _ _ _ ihe ihc ihl =>
    refine inOrder_tree rfl (by simp [Label.yield, yields]) ?_
    refine List.forall_mem_append.2 ⟨List.forall_mem_cons.2 ⟨ihe, ihc⟩, ?_⟩
    simpa using ihl
  | caseClause _ _ ihl ih =>
    exact inOrder_tree rfl (by simp [Label.yield, yields]) (by simpa using ⟨ihl, inOrder_block ih⟩)
  | defaultClause _ ih =>
    exact inOrder_tree rfl (by simp [Label.yield]) (by simpa using inOrder_block ih)
  | print _ ih => exact inOrder_tree rfl (by simp [Label.yield]) ih
  | jump _ => exact inOrder_leaf rfl rfl
  | returnNothing => exact inOrder_leaf rfl rfl
  | returnValue _ ih => exact inOrder_tree rfl (by simp [Label.yield]) (by simpa using ih)
  | ofSubroutine _ ih => exact ih
  | @param byRef _ _ =>
    cases byRef
    · exact inOrder_leaf rfl rfl
    · exact inOrder_leaf rfl rfl
  | @sort sort _ ps ns _ _ _ ihp ih =>
    have hparams : (Node.tree .params ps).InOrder := inOrder_tree rfl (by simp [Label.yield]) ihp
    cases sort
    · exact inOrder_tree rfl (by simp [Subroutine.label, Label.yield])
        (by simpa using ⟨hparams, inOrder_block ih⟩)
    · exact inOrder_tree rfl (by simp [Subroutine.label, Label.yield])
        (by simpa using ⟨hparams, inOrder_block ih⟩)
  | classDecl _ _ _ ih => exact inOrder_tree rfl (by simp [Label.yield]) ih
  | @fieldMember isPublic name _ =>
    have hname : (Node.tree (.identifier name) []).InOrder := inOrder_leaf rfl rfl
    exact inOrder_tree rfl (by cases isPublic <;> simp [Label.yield]) (by simpa using hname)
  | @method isPublic _ _ ih =>
    exact inOrder_tree rfl (by cases isPublic <;> simp [Label.yield]) (by simpa using ih)

end InOrder

/-! ## Programs -/

section Programs

variable {token : Token} {tokens : List Token} {lines : List String} {program : Node}

/-- Only an integer literal says an integer. -/
theorem int?_of_kind (h : token.kind ≠ .intLiteral) : token.int? = none := by
  unfold Token.int? Token.atom
  split
  · rename_i label hlabel
    cases literalLabel_eq_ok_iff.1 hlabel with
    | int hkind _ => exact absurd hkind h
    | real | str | bool => rfl
  · rfl

theorem int?_of_isSpare (h : token.kind.isSpare = true) : token.int? = none := by
  apply int?_of_kind
  intro hkind
  rw [hkind] at h
  cases h

/-- What a tree can do without has no integers. -/
theorem ints_essence (tokens : List Token) :
    Atom.ints (Token.essence tokens) = tokens.filterMap Token.int? := by
  induction tokens using Token.withoutByVal.induct with
  | case1 first second others hbyVal ih =>
    obtain ⟨hcolon, hmode⟩ := hbyVal
    have hfirst : first.int? = none := int?_of_kind (by rw [hcolon]; decide)
    have hsecond : second.int? = none := int?_of_kind (by rw [hmode]; decide)
    rw [Token.essence_byVal hcolon hmode, ih, List.filterMap_cons_none hfirst,
      List.filterMap_cons_none hsecond]
  | case2 first second others hother ih =>
    have hcons : first.kind = .colon → ∀ next ∈ (second :: others).head?, next.kind ≠ .kwByVal := by
      intro hcolon next hnext hmode
      cases hnext
      exact hother ⟨hcolon, hmode⟩
    by_cases hspare : first.kind.isSpare = true
    · rw [Token.essence_spare rfl hspare, ih,
        List.filterMap_cons_none (int?_of_isSpare hspare)]
    · rw [Token.essence_cons (Bool.eq_false_iff.2 hspare) hcons, Atom.ints, List.filterMap_cons,
        List.filterMap_cons, ← ih]
      rfl
  | case3 tokens hshort =>
    cases tokens with
    | nil => rfl
    | cons first rest =>
      cases rest with
      | cons second others => exact absurd rfl (hshort first second others)
      | nil =>
        by_cases hspare : first.kind.isSpare = true
        · rw [Token.essence_spare rfl hspare,
            List.filterMap_cons_none (int?_of_isSpare hspare)]
          rfl
        · rw [Token.essence_cons (Bool.eq_false_iff.2 hspare) (by simp)]
          rfl

/-- The integers of a program in the order of a walk are those that its tokens say. -/
theorem ints_of_parse (h : Program.parse lines = .ok (some program)) :
    ∃ tokens, Token.scan lines = .ok tokens ∧
      Node.ints program.walk = tokens.filterMap Token.int? := by
  obtain ⟨tokens, hscan, hyield⟩ := essence_of_parse h
  obtain ⟨⟨ns, rfl, -, hns⟩, -⟩ := wellFormed_of_parse h
  have horder : (Node.tree .program ns).InOrder :=
    inOrder_tree rfl (by simp [Label.yield]) fun n hn => inOrder_of_formed (hns n hn)
  refine ⟨tokens, hscan, ?_⟩
  rw [← ints_essence, hyield]
  exact horder.symm

end Programs

end Pseudocode
