-- The canonical lines of subroutines and classes are read as the subroutines
-- and classes. In a class, what is in front of a subroutine says who sees it.
import Pseudocode.Proofs.Canonical.Statement

namespace Pseudocode

open Construct (Visibility Parent Passing SomeParameters Parameters blockOf)
open Node (listed parameter statements sourceLine)
open Relation (Comp)

/-! ## Parameters -/

/-- A parameter is in front. -/
def OneParameter (n : Node) : TokenRel := fun ts us => ∃ byRef name rest,
  n = .tree (.param byRef name.text) [] ∧ ts = name :: rest ∧ name.kind = .identifier ∧
    Passing byRef rest us

section Parameters

variable {p : Node} {ps : List Node}

/-- Only a parameter by reference says how it is passed. -/
theorem open_parameter (h : p.Formed .param) : Open (OneParameter p) (parameter p) := by
  cases h with
  | @param byRef name hn =>
    cases byRef with
    | false =>
      apply (open_name hn).mono
      rintro ts us ⟨token, rfl, hk, rfl⟩
      exact ⟨false, token, us, rfl, rfl, hk, .unsaid⟩
    | true =>
      have hcolon : TokenKind.colon ∈ marks := by decide
      have hword : TokenKind.kwByRef ∈ keywords := by decide
      apply (((open_name hn).mark hcolon).append (open_keyword hword)).mono
      rintro ts us ⟨_, ⟨_, ⟨token, rfl, hk, rfl⟩, colon, rfl, hc⟩, mode, rfl, hm⟩
      exact ⟨true, token, _, rfl, rfl, hk, .byRef hc hm⟩

theorem open_someParameters (h : ∀ q ∈ p :: ps, q.Formed .param) :
    Open (fun ts us => SomeParameters ts (p :: ps) us) (listed ((p :: ps).map parameter)) := by
  induction ps generalizing p with
  | nil =>
    have htext : listed ([p].map parameter) = parameter p := String.intercalate_singleton
    rw [htext]
    apply (open_parameter (h p (by simp))).mono
    rintro ts us ⟨byRef, name, rest, rfl, rfl, hk, hp⟩
    exact .last hk hp
  | cons q ps ih =>
    have hothers := ih fun r hr => h r (List.mem_cons_of_mem p hr)
    apply (open_listed_cons (open_parameter (h p (by simp))) hothers).mono
    rintro ts us ⟨_, ⟨_, ⟨byRef, name, rest, rfl, rfl, hk, hp⟩, comma, rfl, hc⟩, hps⟩
    exact .more hk hp hc hps

theorem open_parameters (h : ∀ q ∈ ps, q.Formed .param) :
    Open (fun ts us => Parameters ts ps us) (listed (ps.map parameter)) := by
  cases ps with
  | nil =>
    have htext : listed (([] : List Node).map parameter) = "" := String.intercalate_nil
    rw [htext]
    apply closed_empty.toOpen.mono
    rintro ts us rfl
    exact .none
  | cons p ps => exact (open_someParameters h).mono fun ts us hps => .some hps

end Parameters

/-! ## Subroutines -/

/-- The lines of a subroutine are read as the subroutine behind everything that
may stand in front of it. -/
def LegibleSubroutine (n : Node) : Prop :=
  ∀ {r mark}, Closed r mark → ∀ depth,
    Covers (Comp r (MakesPart .subroutine [n])) (n.statement depth mark)

section Subroutines

variable {ps ns : List Node} {name : String} {sort : Subroutine} {n : Node}

theorem statement_of_sort (depth : Nat) (mark : String) :
    (Node.tree (sort.label name) [.tree .params ps, blockOf ns]).statement depth mark =
      [sourceLine depth (mark ++ sort.opening.spelling ++ " " ++ name ++ "(" ++
        listed (ps.map parameter) ++ ")")] ++ statements (depth + 1) ns ++
        [sourceLine depth sort.ending.spelling] := by
  cases sort <;> simp only [Subroutine.label, Node.statement, Node.bodyAt] <;> rfl

theorem legible_subroutine (hn : IsMemberName name) (hp : ∀ p ∈ ps, p.Formed .param)
    (h : LegibleBlock ns) :
    LegibleSubroutine (.tree (sort.label name) [.tree .params ps, blockOf ns]) := by
  have hword : sort.opening ∈ keywords := by cases sort <;> decide
  have hend : sort.ending ∈ keywords := by cases sort <;> decide
  have hopen : TokenKind.openParen ∈ marks := by decide
  have hclose : TokenKind.closeParen ∈ marks := by decide
  intro r mark hmark depth
  have hname := (hmark.append (open_keyword hword)).blank.append (open_memberName hn)
  have hhead := (((hname.mark hopen).append (open_parameters hp)).mark hclose).toOpen
  rw [statement_of_sort]
  apply (h.between hhead (open_keyword hend) depth).mono
  rintro ts us ⟨_, ⟨_, ⟨_, ⟨_, ⟨_, ⟨_, ⟨_, hr, keyword, rfl, hk⟩, token, rfl, hi, rfl⟩, opening, rfl, ho⟩,
    hps⟩, closing, rfl, hc⟩, hns⟩, ending, rfl, he⟩
  exact ⟨_, hr, .ofSort hk hi ho hps hc hns he⟩

/-- Outside of a class there is nothing in front. -/
theorem LegibleSubroutine.covers (h : LegibleSubroutine n) (depth : Nat) :
    Covers (MakesPart .statement [n]) (n.statement depth "") := by
  apply (h closed_empty depth).mono
  rintro ts us ⟨_, rfl, hn⟩
  exact .ofSubroutine hn

end Subroutines

/-! ## Classes -/

/-- The lines of a member are read as the member, in front of further members. -/
def LegibleMember (m : Node) : Prop :=
  ∀ depth, Covers (fun ts us => ∀ ms vs, Construct.Derives true .members us ms vs →
    Construct.Derives true .members ts (m :: ms) vs) (m.statement depth "")

section Classes

variable {isPublic : Bool} {name : String} {parent : Option String} {n : Node} {ms : List Node}

/-- Private members are marked as such, though they need not be. -/
theorem closed_visibility (isPublic : Bool) :
    Closed (Visibility isPublic) (Node.visibility isPublic) := by
  cases isPublic with
  | false =>
    have hword : TokenKind.kwPrivate ∈ keywords := by decide
    refine ReadsAs.mono (open_keyword hword).blank ?_
    rintro ts us ⟨token, rfl, hk⟩
    exact .hidden hk
  | true =>
    have hword : TokenKind.kwPublic ∈ keywords := by decide
    refine ReadsAs.mono (open_keyword hword).blank ?_
    rintro ts us ⟨token, rfl, hk⟩
    exact .shown hk

theorem legible_fieldMember (hn : IsIdentifier name) :
    LegibleMember (.tree (.classMember isPublic) [.tree (.identifier name) []]) := by
  intro depth
  have hall := (closed_visibility isPublic).append (open_name hn)
  apply (hall.covers depth).mono
  rintro ts us ⟨_, hv, token, rfl, hk, rfl⟩
  intro ms vs hms
  exact .field hv hk hms

theorem legible_method (hn : n.isIdentifier = false) (h : LegibleSubroutine n) :
    LegibleMember (.tree (.classMember isPublic) [n]) := by
  intro depth
  have hlines : (Node.tree (.classMember isPublic) [n]).statement depth "" =
      n.statement depth (Node.visibility isPublic) := by
    simp only [Node.statement, Node.member, hn, Bool.false_eq_true, if_false]
  rw [hlines]
  apply (h (closed_visibility isPublic) depth).mono
  rintro ts us ⟨_, hv, hd⟩
  intro ms vs hms
  exact .method hv hd hms

theorem covers_members (h : ∀ m ∈ ms, LegibleMember m) (depth : Nat) :
    Covers (MakesPart .members ms)
      (statements (depth + 1) ms ++ [sourceLine depth TokenKind.kwEndClass.spelling]) := by
  induction ms with
  | nil =>
    rw [Node.statements_nil, List.nil_append]
    have hend : TokenKind.kwEndClass ∈ keywords := by decide
    apply ((open_keyword hend).covers depth).mono
    rintro ts us ⟨closing, rfl, hk⟩
    exact .endClass hk
  | cons m ms ih =>
    have hrest := ih fun m hm => h m (List.mem_cons_of_mem _ hm)
    rw [Node.statements_cons, List.append_assoc]
    apply ((h m (by simp) (depth + 1)).append hrest).mono
    rintro ts us ⟨_, hm, hms⟩
    exact hm ms us hms

/-- The first line of a class. -/
theorem open_classHeader (hn : IsIdentifier name) (hp : ∀ p ∈ parent, IsIdentifier p) :
    Open (Comp (Comp (Word .kwClass) (Name name)) (Parent parent)) (Node.classHeader name parent) := by
  have hword : TokenKind.kwClass ∈ keywords := by decide
  have hname := (open_keyword hword).blank.append (open_name hn)
  cases parent with
  | none =>
    apply hname.mono
    intro ts us hname
    exact ⟨us, hname, .none⟩
  | some p =>
    have hinherits : TokenKind.kwInherits ∈ keywords := by decide
    apply ((hname.blank.append (open_keyword hinherits)).blank.append (open_name (hp p rfl))).mono
    rintro ts us ⟨_, ⟨_, hname, inherits, rfl, hk⟩, token, rfl, hi, rfl⟩
    exact ⟨_, hname, .inherited hk hi⟩

theorem covers_class (hn : IsIdentifier name) (hp : ∀ p ∈ parent, IsIdentifier p)
    (h : ∀ m ∈ ms, LegibleMember m) (depth : Nat) :
    Covers (MakesPart .statement [.tree (.classDecl name parent) ms])
      ((Node.tree (.classDecl name parent) ms).statement depth "") := by
  simp only [Node.statement]
  rw [List.append_assoc]
  apply (((open_classHeader hn hp).covers depth).append (covers_members h depth)).mono
  rintro ts us ⟨_, ⟨_, ⟨_, ⟨keyword, rfl, hk⟩, token, rfl, hi, rfl⟩, hparent⟩, hms⟩
  exact .classDecl hk hi hparent hms

end Classes

end Pseudocode
