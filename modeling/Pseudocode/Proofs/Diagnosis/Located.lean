-- Where diagnostics come from. A reading takes tokens until one does not fit,
-- and what is then reported is about that token, or about the one before it
-- where that was taken only to be refused.
import Pseudocode.Proofs.Run

namespace Pseudocode

open Goal Reaction

/-! ## What a diagnostic is about -/

namespace Diagnostic

/-- What a diagnostic names as found, if it names anything. -/
def subject? : Diagnostic → Option String
  | unknownToken text _ | invalidNumber text _ | expected _ text _ | unexpectedToken text _ =>
    some text
  | _ => none

/-- The diagnostic has the line of the token, and if it names anything it is the token. -/
def Describes (d : Diagnostic) (token : Token) : Prop :=
  d.line? = some token.line ∧ ∀ text, d.subject? = some text → text = token.display

theorem describes_expectedAt (what : Expectation) (token : Token) :
    (expectedAt what token).Describes token :=
  ⟨rfl, fun _ h => (Option.some.inj h).symm⟩

theorem describes_unexpected (token : Token) : (unexpected token).Describes token :=
  ⟨rfl, fun _ h => (Option.some.inj h).symm⟩

theorem describes_misplaced {what : Misplacement} {line : Nat} {token : Token}
    (h : line = token.line) : (misplaced what line).Describes token := by
  subst h
  exact ⟨rfl, fun _ h => nomatch h⟩

theorem describes_invalidNumber {token : Token} (h : token.kind ≠ .endOfInput) :
    (invalidNumber token.text token.line).Describes token := by
  refine ⟨rfl, fun text ht => ?_⟩
  rw [← Option.some.inj ht, Token.display, if_neg h]

end Diagnostic

open Diagnostic

/-! ## Refusals -/

namespace Item

/-- Whether an item is anything but a refusal. -/
def isWilling : Item → Bool
  | await (.refusal _) => false
  | _ => true

/-- No refusal is among the items. -/
def Willing (items : List Item) : Prop := items.all isWilling = true

/-- The diagnostic with which the next goal refuses whatever token comes. -/
def refusal? : List Item → Option Diagnostic
  | build _ :: items => refusal? items
  | await (.refusal d) :: _ => some d
  | _ => none

theorem willing_append {items others : List Item} :
    Willing (items ++ others) ↔ Willing items ∧ Willing others := by
  unfold Willing
  rw [List.all_append, Bool.and_eq_true]

theorem willing_of_suffix {items others : List Item} (hs : items <:+ others)
    (h : Willing others) : Willing items := by
  obtain ⟨front, rfl⟩ := hs
  exact (willing_append.1 h).2

theorem willing_builds (steps : List Step) : Willing (steps.map build) := by
  simp [Willing, isWilling]

theorem refusal?_append {items others : List Item} {d : Diagnostic}
    (h : refusal? items = some d) : refusal? (items ++ others) = some d := by
  induction items with
  | nil => cases h
  | cons item items ih =>
    cases item with
    | build step => exact ih h
    | await goal => cases goal <;> exact h

theorem refusal?_builds {steps : List Step} {items : List Item} :
    refusal? (steps.map build ++ items) = refusal? items := by
  induction steps with
  | nil => rfl
  | cons step steps ih => exact ih

end Item

open Item (Willing isWilling refusal?)

/-! ## What a reaction says about its token -/

namespace Reaction

/-- What is wrong is about the token, both when the token is left and when it is taken. -/
def About (token : Token) : Reaction → Prop
  | take items => Willing items ∨ ∃ d, refusal? items = some d ∧ d.Describes token
  | leave _ => True
  | fail d => d.Describes token

variable {token : Token} {reaction : Reaction} {after : List Item}

theorem about_missing (what : Expectation) (token : Token) : (missing what token).About token :=
  describes_expectedAt what token

theorem about_wrapped (before : List Step) (ha : Willing after) (h : reaction.About token) :
    (reaction.wrapped (before.map .build) after).About token := by
  cases reaction with
  | leave steps => exact h
  | fail d => exact h
  | take items =>
    rcases h with h | ⟨d, hd, hdescribes⟩
    · refine .inl ?_
      rw [Item.willing_append, Item.willing_append]
      exact ⟨⟨Item.willing_builds before, h⟩, ha⟩
    · refine .inr ⟨d, ?_, hdescribes⟩
      exact Item.refusal?_append (Item.refusal?_builds.trans hd)

theorem about_followed (ha : Willing after) (h : reaction.About token) :
    (reaction.followed after).About token :=
  about_wrapped [] ha h

theorem about_guarded {line : Nat} (fault : Option Misplacement) (hline : line = token.line)
    (h : reaction.About token) : (guarded fault line reaction).About token := by
  cases fault with
  | none => exact h
  | some what => exact describes_misplaced hline

theorem about_takeUnless {items : List Item} (fault : Option Misplacement) (h : Willing items) :
    (takeUnless (onLineOf token fault) items).About token := by
  cases fault with
  | none => exact .inl h
  | some what => exact .inr ⟨_, rfl, describes_misplaced rfl⟩

end Reaction

section Reactions

variable {token : Token} {opening : Opening} {items : List Item} {reaction : Reaction}

theorem willing_suffix {kind : TokenKind} (h : suffix? kind = some items) : Willing items := by
  cases kind <;> cases h <;> rfl

/-- A token that is taken for what it is, is not refused. -/
theorem Opening.Takes.willing (h : opening.Takes token items) : Willing items := by
  cases h with
  | suffix hs | chainSuffix hs => exact Item.willing_append.2 ⟨willing_suffix hs, rfl⟩
  | _ => rfl

theorem about_of_reacts (h : opening.Reacts token reaction)
    (ho : opening.Asks fun goal => ∀ d, goal ≠ .refusal d) : reaction.About token := by
  induction h with
  | taken h => exact .inl h.willing
  | left => trivial
  | lacking => exact about_missing _ token
  | unexpected => exact describes_unexpected token
  | refusal => exact absurd rfl (ho _)
  | literal => exact .inl rfl
  | outOfRange hk =>
    refine .inr ⟨_, rfl, describes_invalidNumber fun hend => ?_⟩
    have hliteral := Opening.isLiteral_of_literals hk
    rw [hend] at hliteral
    cases hliteral
  | caseClause | defaultClause | function | procedure | classDecl =>
    exact about_guarded _ rfl (.inl rfl)
  | returnStatement | breakStatement | continueStatement => exact about_takeUnless _ rfl
  | base _ _ ih | globalChain _ _ ih | chainStatement _ _ ih | subroutineStatement _ ih =>
    exact ih trivial
  | parameters _ _ ih => exact ih (by simp [Opening.Asks])
  | subroutineMember _ ih => exact about_wrapped [_] rfl (ih trivial)
  | returnValue _ hline _ ih =>
    exact about_guarded _ hline.symm (about_wrapped [_] rfl (ih (by simp [Opening.Asks])))
  | chain _ ih | primary _ _ ih | block _ _ _ ih | program _ _ ih =>
    exact about_followed rfl (ih trivial)
  | unary _ _ ih | arguments _ _ ih | indices _ _ ih | unmarkedMember _ _ ih =>
    exact about_followed rfl (ih (by simp [Opening.Asks]))

/-- Whatever a goal finds wrong is about the token, if the goal does not refuse all. -/
theorem react_about {goal : Goal} (h : ∀ d, goal ≠ .refusal d) (token : Token) :
    (goal.react token).About token :=
  about_of_reacts (Opening.reacts_goal_iff.2 rfl) h

end Reactions

/-! ## One token -/

namespace Reading

variable {agenda : List Item} {spine : Spine} {token : Token} {d : Diagnostic}
  {reading next : Reading}

/-- What is reported was found by a goal of the agenda. -/
theorem fail_of_offer (h : offer agenda spine token = .error d) :
    ∃ goal, .await goal ∈ agenda ∧ goal.react token = .fail d := by
  induction agenda generalizing spine with
  | nil => cases h
  | cons item agenda ih =>
    cases item with
    | build step =>
      obtain ⟨goal, hmem, hr⟩ := ih h
      exact ⟨goal, List.mem_cons_of_mem _ hmem, hr⟩
    | await goal =>
      rw [offer] at h
      split at h
      · cases h
      · obtain ⟨found, hmem, hr⟩ := ih h
        exact ⟨found, List.mem_cons_of_mem _ hmem, hr⟩
      · rename_i hr
        cases h
        exact ⟨goal, List.mem_cons_self, hr⟩

/-- A token is taken by a goal of the agenda, and what is behind that goal stays. -/
theorem take_of_offer (h : offer agenda spine token = .ok (.taken next)) :
    ∃ goal items behind, .await goal :: behind <:+ agenda ∧ goal.react token = .take items ∧
      next.agenda = items ++ behind := by
  induction agenda generalizing spine with
  | nil => cases h
  | cons item agenda ih =>
    cases item with
    | build step =>
      obtain ⟨goal, items, behind, hs, hr⟩ := ih h
      exact ⟨goal, items, behind, hs.trans (List.suffix_cons _ _), hr⟩
    | await goal =>
      rw [offer] at h
      split at h
      · rename_i items hr
        cases h
        exact ⟨goal, items, agenda, List.suffix_rfl, hr, rfl⟩
      · obtain ⟨found, items, behind, hs, hr⟩ := ih h
        exact ⟨found, items, behind, hs.trans (List.suffix_cons _ _), hr⟩
      · cases h

theorem feed_ne_taken (h : token.kind = .endOfInput) : reading.feed token ≠ .ok (.taken next) := by
  intro hf
  obtain ⟨goal, items, behind, -, hr, -⟩ := take_of_offer hf
  exact react_ne_take h goal items hr

theorem ne_refusal_of_willing (h : Willing agenda) {goal : Goal} (hmem : .await goal ∈ agenda)
    (d : Diagnostic) : goal ≠ .refusal d := by
  rintro rfl
  exact absurd (List.all_eq_true.1 h _ hmem) Bool.false_ne_true

/-- A refused token is what the diagnostic is about. -/
theorem describes_of_feed (hw : Willing reading.agenda) (h : reading.feed token = .error d) :
    d.Describes token := by
  obtain ⟨goal, hmem, hr⟩ := fail_of_offer h
  have ha := react_about (ne_refusal_of_willing hw hmem) token
  rw [hr] at ha
  exact ha

/-- After a token there is no refusal to come, or the next goal is one that is
about the token. -/
theorem willing_of_feed (hw : Willing reading.agenda)
    (h : reading.feed token = .ok (.taken next)) :
    Willing next.agenda ∨ ∃ d, refusal? next.agenda = some d ∧ d.Describes token := by
  obtain ⟨goal, items, behind, hs, hr, hn⟩ := take_of_offer h
  have ha := react_about (ne_refusal_of_willing hw (hs.mem List.mem_cons_self)) token
  rw [hr] at ha
  rw [hn]
  rcases ha with ha | ⟨d, hd, hdescribes⟩
  · exact .inl (Item.willing_append.2
      ⟨ha, Item.willing_of_suffix ((List.suffix_cons _ _).trans hs) hw⟩)
  · exact .inr ⟨d, Item.refusal?_append hd, hdescribes⟩

/-- Where a refusal comes next, every token meets it. -/
theorem offer_refusal (h : refusal? agenda = some d) : offer agenda spine token = .error d := by
  induction agenda generalizing spine with
  | nil => cases h
  | cons item agenda ih =>
    cases item with
    | build step => exact ih h
    | await goal =>
      cases goal <;> cases h
      rfl

/-! ## Many tokens -/

/-- The reading after tokens, where it takes one after the other. -/
def after (reading : Reading) : List Token → Option Reading
  | [] => some reading
  | token :: tokens =>
    match reading.feed token with
    | .ok (.taken next) => next.after tokens
    | _ => none

variable {front rest tokens : List Token} {ending : Ending} {last : Nat}

theorem after_cons (h : reading.feed token = .ok (.taken next)) (tokens : List Token) :
    reading.after (token :: tokens) = next.after tokens := by
  rw [after, h]

theorem run_after (h : reading.after front = some next) :
    reading.run (front ++ rest) ending = next.run rest ending := by
  induction front generalizing reading with
  | nil =>
    cases h
    rfl
  | cons token front ih =>
    rw [after] at h
    split at h
    · rename_i following hf
      rw [List.cons_append, run, hf]
      exact ih h
    · cases h

theorem run_error (h : reading.feed (nextToken last tokens) = .error d) :
    reading.run tokens (.input last) = .error d := by
  cases tokens with
  | nil => rw [run, show reading.feed (.endOfInput last) = .error d from h]
  | cons token tokens => rw [run, show reading.feed token = .error d from h]

/-- A property of agendas that no token of a sort takes away, unless the token
is taken only to be refused. -/
def Steady (Fits : Token → Prop) (P : List Item → Prop) : Prop :=
  (∀ agenda, P agenda → Willing agenda) ∧
    ∀ (reading next : Reading) (token : Token), P reading.agenda → Fits token →
      reading.feed token = .ok (.taken next) →
        P next.agenda ∨ ∃ d, refusal? next.agenda = some d ∧ d.Describes token

variable {Fits : Token → Prop} {P : List Item → Prop}

/-- What is reported of tokens is what is reported of the first of them that
does not fit or is refused. All tokens before that one were taken well. -/
theorem describes_of_run (hP : Steady Fits P) (ha : P reading.agenda)
    (hfits : ∀ token ∈ tokens, Fits token)
    (h : reading.run tokens (.input last) = .error d) :
    ∃ front rest next, tokens = front ++ rest ∧ reading.after front = some next ∧
      P next.agenda ∧ d.Describes (nextToken last rest) := by
  induction tokens generalizing reading with
  | nil =>
    refine ⟨[], [], reading, rfl, rfl, ha, ?_⟩
    rw [run] at h
    split at h
    · rename_i hf
      cases h
      exact describes_of_feed (hP.1 _ ha) hf
    · cases h
    · cases h
  | cons token tokens ih =>
    rw [run] at h
    split at h
    · rename_i hf
      cases h
      exact ⟨[], token :: tokens, reading, rfl, rfl, ha, describes_of_feed (hP.1 _ ha) hf⟩
    · cases h
    · rename_i following hf
      rcases hP.2 reading following token ha (hfits token List.mem_cons_self) hf with
        hgood | ⟨found, hr, hdescribes⟩
      · obtain ⟨front, rest, next, rfl, hafter, hrest⟩ :=
          ih hgood (fun token ht => hfits token (List.mem_cons_of_mem _ ht)) h
        exact ⟨token :: front, rest, next, rfl, (after_cons hf _).trans hafter, hrest⟩
      · rw [run_error (offer_refusal hr)] at h
        cases h
        exact ⟨[], token :: tokens, reading, rfl, rfl, ha, hdescribes⟩

/-- What is reported of tokens before a lexical fault is that fault, or it is
about one of the tokens and would be reported whatever comes behind them. -/
theorem describes_of_run_fault {fault : Diagnostic} (hw : Willing reading.agenda)
    (h : reading.run tokens (.fault fault) = .error d) :
    d = fault ∨ (∃ token ∈ tokens, d.Describes token) ∧
      ∀ last, reading.run tokens (.input last) = .error d := by
  induction tokens generalizing reading with
  | nil => exact .inl (Except.error.inj h).symm
  | cons token tokens ih =>
    rw [run] at h
    split at h
    · rename_i hf
      cases h
      exact .inr ⟨⟨token, List.mem_cons_self, describes_of_feed hw hf⟩, fun last => run_error hf⟩
    · cases h
    · rename_i following hf
      have hrun : ∀ ending, reading.run (token :: tokens) ending = following.run tokens ending :=
        fun ending => by rw [run, hf]
      rcases willing_of_feed hw hf with hgood | ⟨found, hr, hdescribes⟩
      · rcases ih hgood h with h | ⟨⟨found, hmem, hdescribes⟩, hrest⟩
        · exact .inl h
        · refine .inr ⟨⟨found, List.mem_cons_of_mem _ hmem, hdescribes⟩, fun last => ?_⟩
          rw [hrun, hrest]
      · cases tokens with
        | nil => exact .inl (Except.error.inj h).symm
        | cons second others =>
          rw [run, show following.feed second = .error found from offer_refusal hr] at h
          cases h
          refine .inr ⟨⟨token, List.mem_cons_self, hdescribes⟩, fun last => ?_⟩
          rw [hrun, run_error (offer_refusal hr)]

end Reading

end Pseudocode
