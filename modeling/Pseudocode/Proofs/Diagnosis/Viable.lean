-- What has been taken can be gone on with: a live agenda is worked off by the
-- lexemes that meet its goals, each on a further line. So a diagnostic is about
-- the first token with which the program cannot be gone on with any more.
import Pseudocode.Proofs.Canonical.Pieces
import Pseudocode.Proofs.Diagnosis.Closing
import Pseudocode.Proofs.Diagnosis.Lazy
import Pseudocode.Proofs.Token.Cut

namespace Pseudocode

open Goal Reaction Reading
open Item (Willing refusal? Live follow)
open Lexeme (Plain spelled name zero)

/-! ## Live agendas stay live -/

/-- A token of a program of `bound` lines. -/
def Token.Within (bound : Nat) (token : Token) : Prop := token.Classified ∧ token.line ≤ bound

theorem steady_live (bound : Nat) : Steady (Token.Within bound) (Live bound) := by
  refine ⟨fun _ h => h.willing, ?_⟩
  intro reading next token h hwithin hf
  obtain ⟨goal, items, behind, hs, hr, hn⟩ := take_of_offer hf
  have hlive := h.of_suffix hs
  have hkeeps := react_keeps hlive.1 hlive.2 hwithin.1 hwithin.2
  rw [hr] at hkeeps
  rcases willing_of_feed h.willing hf with hw | href
  · rw [hn] at hw ⊢
    exact .inl (hkeeps (Item.willing_append.1 hw).1)
  · exact .inr href

/-! ## One goal -/

section Goals

variable {bound line : Nat} {next : TokenKind} {goal : Goal} {token : Token} {lexeme : Lexeme}
  {lexemes : List Lexeme}

theorem ne_of_closing {kind : TokenKind}
    (h : token.kind = .closeParen ∨ token.kind = .closeBracket)
    (hkind : kind ≠ .closeParen ∧ kind ≠ .closeBracket) : token.kind ≠ kind := by
  rcases h with h | h <;> rw [h]
  · exact hkind.1.symm
  · exact hkind.2.symm

/-- A goal without lexemes is left where a token behind it may come. -/
theorem react_leave (hg : goal.closing = []) (ha : goal.Admits bound token.kind)
    (hline : token.kind = .endOfInput ∨ bound < token.line) :
    ∃ steps, goal.react token = .leave steps := by
  have hleaves : ∃ steps, Opening.Leaves token goal steps := by
    cases goal with
    | program ctx => exact ⟨_, .program ha⟩
    | block ctx stops => exact ⟨_, .block ha.1⟩
    | operators level =>
      have hop : BinaryOperator.of? token.kind = none := by
        have he := ha
        simp [TokenKind.endsExpression] at he
        exact he.2
      refine ⟨_, .operators fun op h => ?_⟩
      rw [hop] at h
      cases h
    | suffixes =>
      have hs : suffix? token.kind = none := by
        have he := ha
        simp [TokenKind.endsExpression] at he
        exact he.1
      exact ⟨_, .suffixes hs⟩
    | arguments => exact ⟨_, .arguments ha⟩
    | moreArguments => exact ⟨_, .moreArguments (ne_of_closing ha (by decide))⟩
    | parameters => exact ⟨_, .parameters ha⟩
    | moreParameters => exact ⟨_, .moreParameters (ne_of_closing (.inl ha) (by decide))⟩
    | passing name => exact ⟨_, .passing (ne_of_closing (.inl ha) (by decide))⟩
    | inheritance name =>
      have hk : token.kind = .kwEndClass := ha
      exact ⟨_, .inheritance (by rw [hk]; decide)⟩
    | returnValue ctx line =>
      refine ⟨_, .returnValue (hline.imp_right fun h => ?_)⟩
      exact Nat.ne_of_gt (Nat.lt_of_le_of_lt ha.1 h)
    | refusal d => exact ha.elim
    | _ => cases hg
  obtain ⟨steps, h⟩ := hleaves
  exact ⟨steps, h.react_eq⟩

theorem onLiteral_zero (line : Nat) :
    onLiteral (zero.onLine line) = .take [Item.leaf (.int 0)] := by
  have hl : literalLabel (zero.onLine line) = .ok (.int 0) := by
    have hvalue : Decimal.wholeOf "0".toList = 0 := by decide +kernel
    simp only [literalLabel, Lexeme.onLine, zero, hvalue]
    rfl
  rw [onLiteral, hl]

/-- A goal takes the first of its lexemes and goes on to the others. -/
theorem react_take (hg : goal.closing = lexeme :: lexemes) (ha : goal.Admits bound next) :
    ∃ items, goal.react (lexeme.onLine line) = .take items ∧ Willing items ∧
      Item.closing items = lexemes := by
  cases goal with
  | program _ | block _ _ | operators _ | suffixes | arguments | moreArguments | returnValue _ _
  | parameters | moreParameters | passing _ | inheritance _ | refusal _ => cases hg
  | token kind =>
    cases hg
    refine ⟨[], if_pos ⟨rfl, ?_⟩, rfl, rfl⟩
    rintro rfl
    have hmem : TokenKind.endOfInput ∈ TokenKind.spelled := ha
    exact absurd hmem (by decide)
  | counterAgain again =>
    cases hg
    exact ⟨[], by simp [react, onCounterAgain, Lexeme.onLine], rfl, rfl⟩
  | caseLabel =>
    cases hg
    exact ⟨_, onLiteral_zero line, rfl, rfl⟩
  | negatedLabel =>
    cases hg
    exact ⟨_, onLiteral_zero line, rfl, rfl⟩
  | _ =>
    cases hg
    exact ⟨_, rfl, rfl, rfl⟩

/-- The lexemes of a goal are each the whole of their text. -/
theorem plain_closing (ha : goal.Admits bound next) : ∀ lexeme ∈ goal.closing, Plain lexeme := by
  have hsort : ∀ sort : Subroutine, sort.closing ∈ TokenKind.spelled := by
    intro sort
    cases sort <;> decide
  have hspelled := Lexeme.plain_spelled
  have hname := Lexeme.plain_name
  have hzero := Lexeme.plain_zero
  cases goal with
  | token kind => simpa using hspelled kind ha
  | counterAgain again => simpa using ha
  | subroutineName ctx sort => simp (disch := decide) [hname, hspelled, hspelled _ (hsort sort)]
  | _ => simp (disch := decide) [hname, hzero, hspelled]

end Goals

/-! ## Lexemes on lines of their own -/

namespace Lexeme

variable {line : Nat} {lexeme : Lexeme} {lexemes : List Lexeme}

/-- Lexemes each on a line of its own, where `line` lines come before. -/
def onLines : Nat → List Lexeme → List Token
  | _, [] => []
  | line, lexeme :: lexemes => lexeme.onLine (line + 1) :: onLines (line + 1) lexemes

theorem classified_of_plain (h : Plain lexeme) : (lexeme.onLine line).Classified :=
  classify?_of_scanFrom (plain_iff.1 h) lexeme List.mem_cons_self

theorem scanAfter_onLines (h : ∀ lexeme ∈ lexemes, Plain lexeme) :
    Token.scanAfter line (lexemes.map (·.text)) = .ok (onLines line lexemes) := by
  induction lexemes generalizing line with
  | nil => rfl
  | cons lexeme lexemes ih =>
    have hfirst := plain_iff.1 (h lexeme List.mem_cons_self)
    have hrest : Token.scanAfter (line + 1) (lexemes.map (·.text)) = _ :=
      ih fun l hl => h l (List.mem_cons_of_mem _ hl)
    have hline : Token.scanLine (line + 1) lexeme.text = .ok [lexeme.onLine (line + 1)] := by
      rw [Token.scanLine, hfirst]
      rfl
    exact Token.scanAfter_cons_eq_ok.2 ⟨_, _, hline, hrest, rfl⟩

end Lexeme

/-! ## A whole agenda -/

section Agendas

variable {bound line last : Nat} {agenda : List Item} {spine : Spine} {lexeme : Lexeme}
  {lexemes : List Lexeme}

theorem follow_of_closing :
    follow agenda = ((Item.closing agenda).head?.map (·.kind)).getD .endOfInput := by
  induction agenda with
  | nil => rfl
  | cons item agenda ih =>
    cases item with
    | build step => exact ih
    | await goal =>
      rw [follow, Item.closing]
      cases goal.closing with
      | nil => exact ih
      | cons lexeme lexemes => rfl

theorem plain_of_live (h : Live bound agenda) :
    ∀ lexeme ∈ Item.closing agenda, Plain lexeme := by
  induction agenda with
  | nil => simp
  | cons item agenda ih =>
    cases item with
    | build step => exact ih h
    | await goal =>
      intro lexeme hmem
      rcases List.mem_append.1 hmem with hmem | hmem
      · exact plain_closing h.1 lexeme hmem
      · exact ih h.2 lexeme hmem

/-- Where no lexemes are left to come, the input may end. -/
theorem offer_end (h : Live bound agenda) (hc : Item.closing agenda = []) :
    ∃ spine', offer agenda spine (.endOfInput last) = .ok (.finished spine') := by
  induction agenda generalizing spine with
  | nil => exact ⟨spine, rfl⟩
  | cons item agenda ih =>
    cases item with
    | build step => exact ih h hc
    | await goal =>
      obtain ⟨hgoal, hrest⟩ := List.append_eq_nil_iff.1 hc
      have hfollow : follow agenda = .endOfInput := by rw [follow_of_closing, hrest]; rfl
      have ha := h.1
      rw [hfollow] at ha
      obtain ⟨steps, hr⟩ : ∃ steps, goal.react (.endOfInput last) = .leave steps :=
        react_leave hgoal ha (.inl rfl)
      rw [offer, hr]
      exact ih h.2 hrest

/-- The first of the lexemes is taken, and the others are left to come. -/
theorem offer_closing (h : Live line agenda) (hc : Item.closing agenda = lexeme :: lexemes) :
    ∃ next, offer agenda spine (lexeme.onLine (line + 1)) = .ok (.taken next) ∧
      Live (line + 1) next.agenda ∧ Item.closing next.agenda = lexemes := by
  induction agenda generalizing spine with
  | nil => cases hc
  | cons item agenda ih =>
    cases item with
    | build step => exact ih h hc
    | await goal =>
      rw [Item.closing] at hc
      cases hgoal : goal.closing with
      | nil =>
        rw [hgoal, List.nil_append] at hc
        have hfollow : follow agenda = (lexeme.onLine (line + 1)).kind := by
          rw [follow_of_closing, hc]
          rfl
        have ha := h.1
        rw [hfollow] at ha
        obtain ⟨steps, hr⟩ := react_leave hgoal ha (.inr (Nat.lt_succ_self line))
        rw [offer, hr]
        exact ih h.2 hc
      | cons first others =>
        have hplain := plain_closing h.1 first (by rw [hgoal]; exact List.mem_cons_self)
        rw [hgoal] at hc
        obtain ⟨rfl, rfl⟩ : first = lexeme ∧ others ++ Item.closing agenda = lexemes :=
          List.cons.inj hc
        obtain ⟨items, hr, hw, hitems⟩ :
            ∃ items, goal.react (first.onLine (line + 1)) = .take items ∧ Willing items ∧
              Item.closing items = others := react_take hgoal h.1
        have hlive : Live (line + 1) (.await goal :: agenda) := h.mono (Nat.le_succ line)
        have hkeeps : (goal.react (first.onLine (line + 1))).Keeps (line + 1) agenda :=
          react_keeps hlive.1 hlive.2 (Lexeme.classified_of_plain hplain) (Nat.le_refl _)
        rw [hr] at hkeeps
        refine ⟨⟨items ++ agenda, spine⟩, by rw [offer, hr], hkeeps hw, ?_⟩
        rw [Item.closing_append, hitems]

/-- A live agenda is worked off by the lexemes that meet its goals. -/
theorem run_closing (h : Live line agenda) :
    ∃ spine', run ⟨agenda, spine⟩ (Lexeme.onLines line (Item.closing agenda)) (.input last) =
      .ok (spine', []) := by
  generalize hc : Item.closing agenda = lexemes
  induction lexemes generalizing line agenda spine with
  | nil =>
    obtain ⟨spine', ho⟩ : ∃ spine', offer agenda spine (.endOfInput last) = .ok (.finished spine') :=
      offer_end h hc
    exact ⟨spine', by rw [Lexeme.onLines, run, feed, ho]⟩
  | cons lexeme lexemes ih =>
    obtain ⟨next, ho, hlive, hrest⟩ :
        ∃ next, offer agenda spine (lexeme.onLine (line + 1)) = .ok (.taken next) ∧
          Live (line + 1) next.agenda ∧ Item.closing next.agenda = lexemes := offer_closing h hc
    obtain ⟨spine', hr⟩ := ih hlive hrest
    exact ⟨spine', by rw [Lexeme.onLines, run, feed, ho]; exact hr⟩

end Agendas

/-! ## Programs -/

/-- Tokens that have been taken are those of a program, together with further lines. -/
theorem parse_closing {lines kept : List String} {front : List Token} {next : Reading}
    (hkept : Cut kept lines) (hscan : Token.scan kept = .ok front)
    (hafter : (ofProgram true).after front = some next) (h : Live lines.length next.agenda) :
    ∃ extra program, Program.parse (kept ++ extra) = .ok program := by
  have hlength : 0 + kept.length = lines.length := by rw [Nat.zero_add, hkept.length_eq]
  have hextra : Token.scanAfter (0 + kept.length)
      ((Item.closing next.agenda).map (·.text)) =
        .ok (Lexeme.onLines lines.length (Item.closing next.agenda)) := by
    rw [hlength]
    exact Lexeme.scanAfter_onLines (plain_of_live h)
  have hwhole := TokenStream.ofLines_of_scan (scanAfter_append hscan hextra)
  obtain ⟨spine, hrun⟩ : ∃ spine, run ⟨next.agenda, next.spine⟩
      (Lexeme.onLines lines.length (Item.closing next.agenda))
        (.input (kept ++ (Item.closing next.agenda).map (·.text)).length) = .ok (spine, []) :=
    run_closing h
  refine ⟨(Item.closing next.agenda).map (·.text), Program.ofSpine spine, ?_⟩
  unfold Program.parse Program.ofStream
  rw [hwhole]
  simp only [run_after hafter, hrun]

/-- Where lines can be scanned but are no program, there is a token, or the end
of the input, that the diagnostic describes; the tokens before it can be kept
as they stand, and with suitable lines behind them they are a program. -/
theorem a_diagnostic_describes_the_first_token_that_nothing_can_make_up_for
    {lines : List String} {tokens : List Token} {d : Diagnostic}
    (hscan : Token.scan lines = .ok tokens) (hparse : Program.parse lines = .error d) :
    ∃ i, i ≤ tokens.length ∧ d.Describes (nextToken lines.length (tokens.drop i)) ∧
      ∃ kept extra program, Cut kept lines ∧ Token.scan kept = .ok (tokens.take i) ∧
        Program.parse (kept ++ extra) = .ok program := by
  have hstream := TokenStream.ofLines_of_scan hscan
  unfold Program.parse at hparse
  rw [hstream, Program.ofStream_eq_error] at hparse
  have hlive : Live lines.length (ofProgram true).agenda := ⟨rfl, trivial⟩
  have hwithin : ∀ token ∈ tokens, token.Within lines.length := by
    intro token ht
    have hc := TokenStream.classified_after 0 lines token
    change token ∈ (TokenStream.ofLines lines).tokens → _ at hc
    rw [hstream] at hc
    exact ⟨hc ht, Token.line_le_of_scan hscan token ht⟩
  obtain ⟨front, rest, next, rfl, hafter, hnext, hdescribes⟩ :=
    describes_of_run (steady_live lines.length) hlive hwithin hparse
  obtain ⟨kept, hkept, hfront⟩ := Token.scanAfter_take hscan front.length
  rw [List.take_left] at hfront
  obtain ⟨extra, program, hprogram⟩ := parse_closing hkept hfront hafter hnext
  refine ⟨front.length, by simp, ?_, kept, extra, program, hkept, ?_, hprogram⟩
  · rw [List.drop_left]
    exact hdescribes
  · rw [List.take_left]
    exact hfront

/-- A condition without its keyword: what stands in the place of the keyword is
described, and the condition can be gone on with. -/
theorem what_stands_in_the_place_of_a_keyword_is_described :
    let lines := ["if a", ") b = 1"]
    let tokens : List Token := [⟨.kwIf, "if", 1⟩, ⟨.identifier, "a", 1⟩, ⟨.closeParen, ")", 2⟩,
      ⟨.identifier, "b", 2⟩, ⟨.assign, "=", 2⟩, ⟨.intLiteral, "1", 2⟩]
    let d : Diagnostic := .expected (.token .kwThen) ")" 2
    Token.scan lines = .ok tokens ∧ Program.parse lines = .error d ∧
      ∃ i, i ≤ tokens.length ∧ d.Describes (nextToken lines.length (tokens.drop i)) ∧
        ∃ kept extra program, Cut kept lines ∧ Token.scan kept = .ok (tokens.take i) ∧
          Program.parse (kept ++ extra) = .ok program := by
  intro lines tokens d
  have hscan : Token.scan lines = .ok tokens := rfl
  have hparse : Program.parse lines = .error d := rfl
  exact ⟨hscan, hparse,
    a_diagnostic_describes_the_first_token_that_nothing_can_make_up_for hscan hparse⟩

end Pseudocode
