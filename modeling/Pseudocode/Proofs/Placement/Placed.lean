-- That every statement stands where it may is said in two ways: by the context
-- that a program hands down as it is read, and by the labels around each node of
-- the finished tree. On trees of the grammar they come to the same.
import Pseudocode.Proofs.Placement.Sites

namespace Pseudocode

open Construct (blockOf)
open Node (placedAll placesAll)

/-- None of the places breaks a rule. -/
def Unbroken (places : List Place) : Prop := ∀ place ∈ places, place.broken = none

section Unbroken

variable {places others : List Place} {place : Place}

@[simp] theorem unbroken_nil : Unbroken [] := by simp [Unbroken]

@[simp] theorem unbroken_append :
    Unbroken (places ++ others) ↔ Unbroken places ∧ Unbroken others :=
  List.forall_mem_append

@[simp] theorem unbroken_cons :
    Unbroken (place :: places) ↔ place.broken = none ∧ Unbroken places :=
  List.forall_mem_cons

end Unbroken

section Placed

variable {construct : Construct} {ctx : Context} {around : List Label} {afterDefault : Bool}
  {label : Label} {children ns : List Node} {ts us : List Token}

/-- A node that there is a rule about breaks none, and neither do those below it. -/
theorem unbroken_node {keyword : TokenKind} (hl : label.keyword? = some keyword) :
    Unbroken ((Node.tree label children).places around afterDefault) ↔
      label.brokenRule around afterDefault children = none ∧
        Unbroken (placesAll (label :: around) false children) := by
  rw [places_tree, hl, unbroken_append]
  simp

/-- What the grammar derives stands by its context where it may exactly when no node
of it breaks a rule. -/
theorem placedAll_iff (h : construct.Derives true ts ns us) (hc : Surrounds around ctx) :
    placedAll ctx ns = true ↔ Unbroken (placesAll around construct.afterDefault ns) := by
  induction h generalizing around ctx with
  | array _ _ _ _ hd _ =>
    rw [placesAll_singleton, places_array, placesAll_phrase hd]
    simp [Node.placed]
  | assign _ ht _ hv =>
    rw [placesAll_singleton, places_assign ht hv]
    simp [placed_phrase ht, placed_phrase hv]
  | call ht _ =>
    rw [placesAll_phrase ht, placedAll_phrase ht]
    simp
  | ifStatement _ hcond _ _ _ ihs ihb =>
    have hif := hc.neutral .ifStatement (by decide)
    have hs := ihs (hif.neutral .branch (by decide)).block
    rw [placesAll_singleton, places_if hcond, unbroken_append]
    refine Iff.trans ?_ (and_congr hs (ihb hif))
    simp [placed_phrase hcond]
  | forLoop _ _ _ hf _ hl _ _ _ _ ih =>
    rw [placesAll_singleton, places_for hf hl]
    refine Iff.trans ?_ (ih (hc.loopBody .forLoop rfl))
    simp [placed_phrase hf, placed_phrase hl]
  | whileLoop _ hcond _ _ ih =>
    rw [placesAll_singleton, places_while hcond]
    refine Iff.trans ?_ (ih (hc.loopBody .whileLoop rfl))
    simp [placed_phrase hcond]
  | doLoop _ _ _ hcond ih =>
    rw [placesAll_singleton, places_do hcond]
    refine Iff.trans ?_ (ih (hc.loopBody .doLoop rfl))
    simp [placed_phrase hcond]
  | switch _ he _ _ ih =>
    rw [placesAll_singleton, places_switch he]
    refine Iff.trans ?_ (ih (hc.neutral .switch (by decide)))
    simp [placed_phrase he]
  | print _ _ hd _ =>
    rw [placesAll_singleton, places_of_keyword rfl, placesAll_phrase hd]
    simp [placedAll_phrase hd]
  | jump hk =>
    rw [placesAll_singleton, unbroken_node rfl]
    rcases hk with hk | hk
    · rw [hk, hc.brokenRule_break]
      simp
    · rw [hk, hc.brokenRule_continue]
      simp
  | returnNothing _ _ =>
    rw [placesAll_singleton, unbroken_node rfl, hc.brokenRule_return]
    simp
  | returnValue _ _ hd =>
    rw [placesAll_singleton, unbroken_node rfl, hc.brokenRule_return, placesAll_singleton,
      places_phrase hd]
    simp [placed_phrase hd]
  | ofSubroutine _ ih => exact ih hc
  | @classDecl _ name parent _ _ _ ms _ _ _ _ ih =>
    have hs := ih (hc.neutral (.classDecl name.text parent) ⟨by simp, rfl, rfl, rfl⟩)
    rw [placesAll_singleton, unbroken_node rfl, hc.brokenRule_class]
    refine Iff.trans ?_ (and_congr Iff.rfl hs)
    simp
  | noStatement => simp
  | oneMore h _ ih ihs =>
    have hn := ih hc
    rw [placesAll_singleton] at hn
    rw [placesAll_cons, not_isDefault_of_statement h, unbroken_append]
    refine Iff.trans ?_ (and_congr hn (ihs hc))
    simp
  | endIf _ => simp
  | elseBranch _ _ _ ih =>
    have hs := ih (hc.neutral .elseBranch (by decide)).block
    rw [placesAll_singleton, places_elseBranch]
    refine Iff.trans ?_ hs
    simp
  | elseIf _ hcond _ _ _ ihs ihb =>
    have hs := ihs (hc.neutral .branch (by decide)).block
    rw [placesAll_cons, places_branch hcond, unbroken_append]
    refine Iff.trans ?_ (and_congr hs (ihb hc))
    simp [placed_phrase hcond]
  | endSwitch _ => simp
  | @caseClause after _ _ _ _ _ _ _ _ _ _ hafter hl _ _ _ ihs ihc =>
    have hs := ihs (hc.clause .caseClause rfl)
    have hfault : ctx.clauseFault after = none := clauseFault_eq_none.2 (hc.enforced ▸ hafter)
    rw [placesAll_case_cons, unbroken_append, unbroken_node rfl, hc.brokenRule_clause rfl,
      placesAll_case hl]
    refine Iff.trans ?_ (and_congr (and_congr (iff_of_true trivial hfault) hs) (ihc hc))
    simp [placed_caseLabel hl]
  | @defaultClause after _ _ _ _ _ _ _ _ hafter _ _ _ ihs ihc =>
    have hs := ihs (hc.clause .defaultClause rfl)
    have hfault : ctx.clauseFault after = none := clauseFault_eq_none.2 (hc.enforced ▸ hafter)
    rw [placesAll_default_cons, unbroken_append, unbroken_node rfl, hc.brokenRule_clause rfl,
      placesAll_default]
    refine Iff.trans ?_ (and_congr (and_congr (iff_of_true trivial hfault) hs) (ihc hc))
    simp
  | @ofSort sort _ name _ _ _ _ _ _ ps ns _ _ _ hps _ _ _ ih =>
    have hs := ih (hc.body sort name.text)
    have hl : (sort.label name.text).keyword? = some sort.opening := by cases sort <;> rfl
    rw [placesAll_singleton, unbroken_node hl, hc.brokenRule_sort, placesAll_sort hps]
    refine Iff.trans ?_ (and_congr Iff.rfl hs)
    cases sort <;> simp [Subroutine.label, placedAll_parameters hps]
  | endClass _ => simp
  | field _ _ _ ih =>
    rw [placesAll_cons, places_fieldMember]
    refine Iff.trans ?_ (ih hc)
    simp
  | @method isPublic _ _ _ _ _ _ _ _ _ ihs ih =>
    have hn := ihs (hc.neutral (.classMember isPublic) ⟨by simp, rfl, rfl, rfl⟩)
    rw [placesAll_cons, places_method, unbroken_append]
    refine Iff.trans ?_ (and_congr hn (ih hc))
    simp

end Placed

/-- The context lets a program through exactly when no node of it breaks a rule. -/
theorem placed_iff_inPlace {tokens : List Token} {program : Node}
    (h : DerivesProgram true tokens program) :
    program.placed (.top true) = true ↔ program.InPlace := by
  obtain ⟨ns, rfl, hd⟩ := h
  have hplaces : (Node.tree .program ns).places [] false = placesAll [.program] false ns :=
    places_of_keyword rfl
  unfold Node.InPlace
  rw [hplaces]
  refine Iff.trans ?_ (placedAll_iff hd .top)
  simp

end Pseudocode
