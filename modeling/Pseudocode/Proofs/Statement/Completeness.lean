-- Every construct of the grammar that is placed where it may stand is read, up
-- to where it ends: there is nothing in it that reading would stop before.
import Pseudocode.Proofs.Placement.Settled

namespace Pseudocode

open Node (placedAll)

/-- Every construct of the grammar is read where it may stand. -/
theorem Construct.settles_of_placed (last : Nat) {ordered : Bool} {construct : Construct}
    {ts us : List Token} {ns : List Node} (h : construct.Derives ordered ts ns us)
    (ctx : Context) (ho : ctx.enforced = ordered) (hp : placedAll ctx ns = true) :
    construct.Settles last ctx [] ts ns us := by
  induction h generalizing ctx with
  | array hm hkey hn hb hd hc => exact settles_array hm hkey hn hb hd hc
  | assign hm ht hk hv => exact settles_assign hm ht hk hv
  | call ht hcall => exact settles_callStatement ht hcall
  | @ifStatement _ _ _ _ _ _ _ ns bs hk hc ht _ _ ihs ihb =>
    have hp' : placedAll ctx.inBlock ns = true ∧ placedAll ctx bs = true := by
      simpa [placed_phrase hc] using hp
    exact settles_if hk hc ht (ihs ctx.inBlock ho hp'.1) (ihb ctx ho hp'.2)
  | @forLoop _ _ _ _ _ _ _ _ _ _ _ _ ns hk hn he hf hto hl _ hnext ha hsame ih =>
    have hp' : placedAll ctx.inLoopBody ns = true := by
      simpa [placed_phrase hf, placed_phrase hl] using hp
    exact settles_for hk hn he hf hto hl (ih ctx.inLoopBody ho hp') hnext ha hsame
  | @whileLoop _ _ _ _ _ _ ns hk hc _ he ih =>
    have hp' : placedAll ctx.inLoopBody ns = true := by simpa [placed_phrase hc] using hp
    exact settles_while hk hc (ih ctx.inLoopBody ho hp') he
  | @doLoop _ _ _ _ _ _ ns hk _ hu hc ih =>
    have hp' : placedAll ctx.inLoopBody ns = true := by simpa [placed_phrase hc] using hp
    exact settles_do hk (ih ctx.inLoopBody ho hp') hu hc
  | @switch _ _ _ _ _ _ cs hk he hc _ ih =>
    have hp' : placedAll ctx cs = true := by simpa [placed_phrase he] using hp
    exact settles_switch hk he hc (ih ctx ho hp')
  | print hk hopen hd hc => exact settles_print hk hopen hd hc
  | jump hk =>
    rcases hk with hk | hk
    · have hf : ctx.breakFault = none := by simpa [hk] using hp
      rw [hk]
      exact (settles_break hk).of_eq_nil (by rw [hf]; rfl)
    · have hf : ctx.continueFault = none := by simpa [hk] using hp
      rw [hk]
      exact (settles_continue hk).of_eq_nil (by rw [hf]; rfl)
  | returnNothing hk hnext =>
    have hf : ctx.returnFault = none := by simpa using hp
    exact (settles_returnNothing hk hnext).of_eq_nil (by rw [hf]; rfl)
  | returnValue hk hline hd =>
    have hf : ctx.returnFault = none ∧ ctx.valueFault = none := by
      simpa [placed_phrase hd] using hp
    exact (settles_returnValue hk hline hd).of_eq_nil (by rw [hf.1, hf.2]; rfl)
  | ofSubroutine _ ih => exact settles_subroutine (ih ctx ho hp)
  | @classDecl _ _ _ _ _ _ ms hk hn hparent _ ih =>
    have hp' : ctx.classFault = none ∧ placedAll ctx ms = true := by simpa using hp
    exact (settles_class hk hn hparent (ih ctx ho hp'.2)).of_eq_nil (by rw [hp'.1]; rfl)
  | noStatement => exact settles_noStatement
  | oneMore _ _ ih ihs =>
    rw [placedAll_cons, Bool.and_eq_true] at hp
    exact settles_oneMore (ih ctx ho (by simp [hp.1])) (ihs ctx ho hp.2)
  | endIf hk => exact settles_endIf hk
  | @elseBranch _ _ _ _ ns hk _ hc ih =>
    have hp' : placedAll ctx.inBlock ns = true := by simpa using hp
    exact settles_else hk (ih ctx.inBlock ho hp') hc
  | @elseIf _ _ _ _ _ _ _ ns bs hk hc ht _ _ ihs ihb =>
    have hp' : placedAll ctx.inBlock ns = true ∧ placedAll ctx bs = true := by
      simpa [placed_phrase hc] using hp
    exact settles_elseIf hk hc ht (ihs ctx.inBlock ho hp'.1) (ihb ctx ho hp'.2)
  | endSwitch hk => exact settles_endSwitch hk
  | @caseClause _ _ _ _ _ _ _ _ ns cs hk hf hl hc _ _ ihs ihc =>
    have hp' : placedAll ctx.inClause ns = true ∧ placedAll ctx cs = true := by
      simpa [placed_caseLabel hl] using hp
    have hfault := clauseFault_eq_none.2 (ho ▸ hf)
    exact (settles_case hk hl hc (ihs ctx.inClause ho hp'.1) (ihc ctx ho hp'.2)).of_eq_nil
      (by rw [hfault]; rfl)
  | @defaultClause _ _ _ _ _ _ ns cs hk hf hc _ _ ihs ihc =>
    have hp' : placedAll ctx.inClause ns = true ∧ placedAll ctx cs = true := by simpa using hp
    have hfault := clauseFault_eq_none.2 (ho ▸ hf)
    exact (settles_default hk hc (ihs ctx.inClause ho hp'.1) (ihc ctx ho hp'.2)).of_eq_nil
      (by rw [hfault]; rfl)
  | @ofSort sort _ _ _ _ _ _ _ _ _ ns hk hn hopen hps hc _ he ih =>
    have hp' : ctx.subroutineFault = none ∧ placedAll (ctx.inBody sort) ns = true := by
      cases sort <;>
        simpa [Subroutine.label, placedAll_parameters hps] using hp
    exact (settles_sort hk hn hopen hps hc (ih (ctx.inBody sort) ho hp'.2) he).of_eq_nil
      (by rw [hp'.1]; rfl)
  | endClass hk => exact settles_endClass hk
  | field hv hn _ ih =>
    rw [placedAll_cons, Bool.and_eq_true] at hp
    exact settles_field hv hn (ih ctx ho hp.2)
  | @method _ _ _ _ _ n ms hv _ _ ihs ih =>
    have hp' : n.placed ctx = true ∧ placedAll ctx ms = true := by simpa using hp
    exact settles_method hv (ihs ctx ho (by simp [hp'.1])) (ih ctx ho hp'.2)

end Pseudocode
