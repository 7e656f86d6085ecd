-- What a diagnostic quotes. Besides the words of the language it names only texts
-- of tokens, or of the fragment that is no token; so it holds nothing that does not
-- stand in one line of the program, and fits into one line itself.
import Pseudocode.Proofs.Diagnosis.Lazy
import Pseudocode.Proofs.Token.Characters
import Pseudocode.Proofs.Token.FirstFault

namespace Pseudocode

open Goal Reaction Reading
open Text (NoFeed)

/-! ## Texts in a diagnostic -/

namespace Diagnostic

/-- The diagnostic is about a program, and each text that it takes from the program
is one of which `p` holds. -/
def Quotes (p : String → Prop) : Diagnostic → Prop
  | unknownToken text _ | invalidNumber text _ | unexpectedToken text _ => p text
  | expected (.nextOf name) found _ => p name ∧ p found
  | expected (.other _) _ _ | misplaced (.other _) _ => False
  | expected _ found _ => p found
  | misplaced _ _ | unterminatedString _ => True
  | file _ | reading _ => False

variable {p q : String → Prop} {d : Diagnostic}

theorem Quotes.mono (hpq : ∀ text, p text → q text) (h : d.Quotes p) : d.Quotes q := by
  cases d with
  | unknownToken text line | invalidNumber text line | unexpectedToken text line => exact hpq _ h
  | expected what found line =>
    cases what with
    | nextOf name => exact ⟨hpq _ h.1, hpq _ h.2⟩
    | other text => exact h
    | _ => exact hpq _ h
  | misplaced what line => cases what <;> exact h
  | unterminatedString line => trivial
  | file fault | reading fault => exact h

theorem noFeed_inQuotes {text : String} (h : NoFeed text) : NoFeed (inQuotes text) :=
  (NoFeed.append (by decide) h).append (by decide)

theorem noFeed_display (kind : TokenKind) : NoFeed kind.display := by
  cases kind <;> decide +kernel

/-- A diagnostic that quotes single lines is a single line. -/
theorem noFeed_message (h : d.Quotes NoFeed) : NoFeed d.message := by
  cases d with
  | unknownToken text line => exact NoFeed.append (by decide) (noFeed_inQuotes h)
  | invalidNumber text line => exact NoFeed.append (by decide) (noFeed_inQuotes h)
  | unexpectedToken text line => exact NoFeed.append (by decide) (noFeed_inQuotes h)
  | unterminatedString line =>
    have hmessage : NoFeed "Syntax error: unterminated string literal" := by decide
    exact hmessage
  | expected what found line =>
    refine (NoFeed.append (by decide) ?_).append (by decide)
    cases what with
    | token kind => exact noFeed_inQuotes (noFeed_display kind)
    | nextOf name => exact noFeed_inQuotes (NoFeed.append (by decide) h.1)
    | other text => exact h.elim
    | _ => decide
  | misplaced what line =>
    refine NoFeed.append (by decide) ?_
    cases what with
    | other text => exact h.elim
    | _ => decide
  | file fault | reading fault => exact h.elim

end Diagnostic

/-- Whether the misplacement is against one of the rules of the language. -/
def Misplacement.isRule : Misplacement → Bool
  | other _ => false
  | _ => true

/-! ## Texts in an agenda -/

/-- Each text that the goal may come to quote is one of which `p` holds. -/
def Goal.Quotes (p : String → Prop) : Goal → Prop
  | counterAgain name => p name
  | refusal d => d.Quotes p
  | _ => True

/-- Whether the goal remembers no text that it may come to quote. -/
def Goal.isMute : Goal → Bool
  | counterAgain _ | refusal _ => false
  | _ => true

namespace Item

/-- Whether the item remembers no text that it may come to quote. -/
def isMute : Item → Bool
  | await goal => goal.isMute
  | build _ => true

/-- Each text that one of the goals may come to quote is one of which `p` holds. -/
def AllQuote (p : String → Prop) (items : List Item) : Prop :=
  ∀ goal, .await goal ∈ items → goal.Quotes p

variable {p : String → Prop} {items others : List Item} {goal : Goal}

theorem allQuote_append :
    AllQuote p (items ++ others) ↔ AllQuote p items ∧ AllQuote p others := by
  unfold AllQuote
  simp only [List.mem_append, or_imp, forall_and]

theorem allQuote_of_mute (h : items.all isMute = true) : AllQuote p items := by
  intro goal hmem
  have hmute := List.all_eq_true.1 h _ hmem
  cases goal <;> trivial

theorem allQuote_builds (steps : List Step) : AllQuote p (steps.map build) :=
  allQuote_of_mute (by simp [isMute])

theorem allQuote_singleton (h : goal.Quotes p) : AllQuote p [.await goal] := by
  intro found hmem
  cases List.mem_singleton.1 hmem
  exact h

end Item

open Item (AllQuote)

namespace Reaction

/-- What is wrong quotes texts of which `p` holds, and so does what is taken up. -/
def Quotes (p : String → Prop) : Reaction → Prop
  | take items => AllQuote p items
  | leave _ => True
  | fail d => d.Quotes p

variable {p : String → Prop} {reaction : Reaction} {items after : List Item}

theorem quotes_wrapped (before : List Step) (ha : AllQuote p after) (h : reaction.Quotes p) :
    (reaction.wrapped (before.map .build) after).Quotes p := by
  cases reaction with
  | take items =>
    exact Item.allQuote_append.2 ⟨Item.allQuote_append.2 ⟨Item.allQuote_builds before, h⟩, ha⟩
  | leave steps => trivial
  | fail d => exact h

theorem quotes_followed (ha : AllQuote p after) (h : reaction.Quotes p) :
    (reaction.followed after).Quotes p :=
  quotes_wrapped [] ha h

/-- A rule that is broken is one of the rules of the language, which quote nothing. -/
theorem quotes_guarded {fault : Option Misplacement} {line : Nat}
    (hf : fault.all Misplacement.isRule = true) (h : reaction.Quotes p) :
    (guarded fault line reaction).Quotes p := by
  cases fault with
  | none => exact h
  | some what => cases what <;> trivial

theorem quotes_takeUnless {fault : Option Misplacement} {token : Token}
    (hf : fault.all Misplacement.isRule = true) (h : AllQuote p items) :
    (takeUnless (onLineOf token fault) items).Quotes p := by
  cases fault with
  | none => exact h
  | some what =>
    refine Item.allQuote_singleton ?_
    cases what <;> trivial

theorem quotes_mute (h : items.all Item.isMute = true) : (take items).Quotes p :=
  Item.allQuote_of_mute h

end Reaction

section Reactions

variable {p : String → Prop} {token : Token} {opening : Opening} {items : List Item}
  {reaction : Reaction}

theorem isRule_ite {broken : Bool} {what : Misplacement} (h : what.isRule = true) :
    (if broken then some what else none).all Misplacement.isRule = true := by
  cases broken with
  | false => rfl
  | true => exact h

theorem mute_suffix {kind : TokenKind} (h : suffix? kind = some items) :
    items.all Item.isMute = true := by
  cases kind <;> cases h <;> rfl

/-- The counter of a loop is remembered, to be asked for behind the loop. -/
theorem quotes_counter {front : List Item} (ht : p token.text)
    (h : front.all Item.isMute = true) :
    AllQuote p (front ++ [Item.token .kwNext, .await (.counterAgain token.text)]) := by
  refine Item.allQuote_append.2 ⟨Item.allQuote_of_mute h, ?_⟩
  intro goal hmem
  rcases List.mem_cons.1 hmem with heq | hmem
  · cases heq
    trivial
  · cases List.mem_singleton.1 hmem
    exact ht

theorem Opening.Takes.quotes (h : opening.Takes token items) (ht : p token.text) :
    AllQuote p items := by
  cases h with
  | suffix hs | chainSuffix hs =>
    exact Item.allQuote_of_mute (by rw [List.all_append, mute_suffix hs]; rfl)
  | counter => exact quotes_counter ht rfl
  | @subroutineName _ sort => cases sort <;> exact Item.allQuote_of_mute rfl
  | _ => exact Item.allQuote_of_mute rfl

/-- What is missed is quoted where it is the name of a counter. -/
theorem Opening.Lacks.quotes {what : Expectation} (h : opening.Lacks token what)
    (hg : opening.Asks (Goal.Quotes p)) (hd : p token.display) :
    (missing what token).Quotes p := by
  cases h with
  | other hdemand =>
    unfold Opening.demand? at hdemand
    split at hdemand <;> cases hdemand <;> exact hd
  | counterAgain => exact ⟨hg, hd⟩
  | _ => exact hd

theorem quotes_of_reacts (h : opening.Reacts token reaction)
    (hg : opening.Asks (Goal.Quotes p)) (ht : p token.text)
    (hd : p token.display) : reaction.Quotes p := by
  induction h with
  | taken h => exact h.quotes ht
  | left => trivial
  | lacking h => exact h.quotes hg hd
  | unexpected => exact hd
  | refusal => exact hg
  | literal => exact quotes_mute rfl
  | outOfRange => exact Item.allQuote_singleton ht
  | caseClause | defaultClause | function | procedure | classDecl =>
    exact quotes_guarded (isRule_ite rfl) (quotes_mute rfl)
  | returnStatement | breakStatement | continueStatement =>
    exact quotes_takeUnless (isRule_ite rfl) (Item.allQuote_of_mute rfl)
  | base _ _ ih | globalChain _ _ ih | chainStatement _ _ ih | subroutineStatement _ ih
  | parameters _ _ ih => exact ih trivial
  | subroutineMember _ ih =>
    exact quotes_wrapped [_] (Item.allQuote_of_mute rfl) (ih trivial)
  | returnValue _ _ _ ih =>
    exact quotes_guarded (isRule_ite rfl)
      (quotes_wrapped [_] (Item.allQuote_of_mute rfl) (ih trivial))
  | chain _ ih | primary _ _ ih | unary _ _ ih | arguments _ _ ih | indices _ _ ih
  | unmarkedMember _ _ ih | block _ _ _ ih | program _ _ ih =>
    exact quotes_followed (Item.allQuote_of_mute rfl) (ih trivial)

/-- A goal quotes only the token and what it remembers. -/
theorem react_quotes {goal : Goal} (hg : goal.Quotes p) (ht : p token.text)
    (hd : p token.display) : (goal.react token).Quotes p :=
  quotes_of_reacts (Opening.reacts_goal_iff.2 rfl) hg ht hd

end Reactions

/-! ## Tokens that are read -/

section Tokens

variable {p : String → Prop} {agenda : List Item} {spine : Spine} {token : Token}
  {reading next : Reading} {tokens : List Token} {ending : Ending} {d : Diagnostic}

theorem AllQuote.of_suffix {items : List Item} (hs : items <:+ agenda) (h : AllQuote p agenda) :
    AllQuote p items :=
  fun goal hmem => h goal (hs.subset hmem)

theorem quotes_of_offer_error (h : AllQuote p agenda) (ht : p token.text) (hd : p token.display)
    (hf : offer agenda spine token = .error d) : d.Quotes p := by
  obtain ⟨goal, hmem, hr⟩ := fail_of_offer hf
  have hquotes := react_quotes (h goal hmem) ht hd
  rw [hr] at hquotes
  exact hquotes

theorem quotes_of_offer_taken (h : AllQuote p agenda) (ht : p token.text) (hd : p token.display)
    (hf : offer agenda spine token = .ok (.taken next)) : AllQuote p next.agenda := by
  obtain ⟨goal, items, behind, hs, hr, hn⟩ := take_of_offer hf
  have hquotes := react_quotes (h goal (hs.subset List.mem_cons_self)) ht hd
  rw [hr] at hquotes
  rw [hn]
  exact Item.allQuote_append.2 ⟨hquotes, AllQuote.of_suffix ((List.suffix_cons _ _).trans hs) h⟩

/-- What is wrong with tokens quotes only them, unless it is the fault behind them. -/
theorem quotes_of_run (h : AllQuote p reading.agenda)
    (htokens : ∀ token ∈ tokens, p token.text ∧ p token.display)
    (hnothing : p "") (hend : p TokenKind.endOfInput.display)
    (hr : reading.run tokens ending = .error d) : d.Quotes p ∨ ending = .fault d := by
  induction tokens generalizing reading with
  | nil =>
    cases ending with
    | fault fault =>
      cases hr
      exact .inr rfl
    | input line =>
      rw [run] at hr
      split at hr
      · rename_i hf
        cases hr
        have hdisplay : p (Token.endOfInput line).display := hend
        exact .inl (quotes_of_offer_error h hnothing hdisplay hf)
      · cases hr
      · cases hr
  | cons token tokens ih =>
    obtain ⟨⟨ht, hd⟩, htokens⟩ := List.forall_mem_cons.1 htokens
    rw [run] at hr
    split at hr
    · rename_i hf
      cases hr
      exact .inl (quotes_of_offer_error h ht hd hf)
    · cases hr
    · rename_i hf
      exact ih (quotes_of_offer_taken h ht hd hf) htokens hr

end Tokens

/-! ## Programs -/

/-- A text of a program: a piece of one of its lines, or what the end of the input
is called. -/
def StandsIn (lines : List String) (text : String) : Prop :=
  (∃ line ∈ lines, text.toList <:+: line.toList) ∨ text = "" ∨ text = TokenKind.endOfInput.display

section Programs

variable {lines : List String} {tokens : List Token} {d : Diagnostic}

theorem StandsIn.mono {others : List String} {text : String} (hsub : lines ⊆ others)
    (h : StandsIn lines text) : StandsIn others text :=
  h.imp_left fun ⟨line, hline, hpiece⟩ => ⟨line, hsub hline, hpiece⟩

theorem StandsIn.noFeed {text : String} (hlines : ∀ line ∈ lines, NoFeed line)
    (h : StandsIn lines text) : NoFeed text := by
  rcases h with ⟨line, hline, hpiece⟩ | rfl | rfl
  · exact fun hmem => hlines line hline (hpiece.subset hmem)
  · decide
  · decide

theorem standsIn_of_scan (h : Token.scan lines = .ok tokens) :
    ∀ token ∈ tokens, StandsIn lines token.text ∧ StandsIn lines token.display := by
  intro token ht
  have htext : StandsIn lines token.text := .inl (infix_of_scan h ht)
  have hend := (TokenStream.classified_of_scan h token ht).ne_endOfInput
  rw [Token.display, if_neg hend]
  exact ⟨htext, htext⟩

/-- A fault quotes the beginning of the text at which it is found. -/
theorem Fragment.FaultAt.quotes {rest : List Char} {fault : Fragment.Fault}
    (h : FaultAt rest fault) (line : Nat) :
    (fault.onLine line).Quotes fun text => text.toList <+: rest := by
  cases h with
  | unterminated _ _ => trivial
  | @number found word behind _ _ _ _ =>
    change (String.ofList (found ++ word)).toList <+: _
    rw [String.toList_ofList, ← List.append_assoc]
    exact List.prefix_append _ behind
  | @word word behind _ _ _ =>
    change (String.ofList word).toList <+: _
    rw [String.toList_ofList]
    exact List.prefix_append word behind
  | @exclamation behind _ => exact List.prefix_append ['!'] behind
  | @character c behind _ _ _ _ _ _ =>
    change (String.ofList [c]).toList <+: _
    rw [String.toList_ofList]
    exact List.prefix_append [c] behind

/-- What is wrong with the tokens of lines quotes the lines. -/
theorem quotes_of_scan_error (h : Token.scan lines = .error d) : d.Quotes (StandsIn lines) := by
  obtain ⟨before, text, after, tokens, rfl, -, hline⟩ := scanAfter_eq_error_iff.1 h
  obtain ⟨fault, hscan, rfl⟩ := scanLine_eq_error_iff.1 hline
  obtain ⟨front, rest, hfault⟩ := scanFrom_eq_error_iff.1 hscan
  refine (hfault.fault.quotes _).mono fun found hfound => .inl ⟨text, by simp, ?_⟩
  rw [hfault.line]
  exact hfound.isInfix.trans (List.suffix_append front rest).isInfix

/-- What is wrong with a program quotes its lines. -/
theorem quotes_of_parse_error (h : Program.parse lines = .error d) : d.Quotes (StandsIn lines) := by
  have htokens : ∀ token ∈ (TokenStream.ofLines lines).tokens,
      StandsIn lines token.text ∧ StandsIn lines token.display := by
    cases hscan : Token.scan lines with
    | ok tokens =>
      rw [TokenStream.ofLines_of_scan hscan]
      exact standsIn_of_scan hscan
    | error fault =>
      obtain ⟨before, tokens, -, -, hstream, hfront⟩ := stream_of_scanAfter_error hscan
      have hsub : lines.take before ⊆ lines := List.take_subset before lines
      intro token ht
      rw [TokenStream.ofLines, hstream] at ht
      obtain ⟨htext, hdisplay⟩ := standsIn_of_scan hfront token ht
      exact ⟨htext.mono hsub, hdisplay.mono hsub⟩
  have hstart : AllQuote (StandsIn lines) (ofProgram true).agenda := Item.allQuote_of_mute rfl
  unfold Program.parse at h
  rw [Program.ofStream_eq_error] at h
  rcases quotes_of_run hstart htokens (.inr (.inl rfl)) (.inr (.inr rfl)) h with hquotes | hending
  · exact hquotes
  · have hexcept := TokenStream.toExcept_ofLines lines
    rw [TokenStream.toExcept, hending] at hexcept
    exact quotes_of_scan_error hexcept.symm

end Programs

end Pseudocode
