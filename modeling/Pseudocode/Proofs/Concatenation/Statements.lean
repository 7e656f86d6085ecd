-- Programs put one behind the other. Nothing that can begin a statement goes on
-- with the statement before it, so where a program could have ended, the next one
-- is read as if nothing had come before.
import Pseudocode.Proofs.Concatenation.Lines
import Pseudocode.Proofs.Diagnosis.Lazy

namespace Pseudocode

open Goal Reaction Reading
open Item (Willing Inner)
open Node (placedAll)

/-! ## Programs and their statements -/

namespace Program

/-- The statements of a program; none if there is no program. -/
def statements : Option Node → List Node
  | some (.tree .program nodes) => nodes
  | _ => []

/-- The program of statements; none if there are no statements. -/
def ofStatements : List Node → Option Node
  | [] => none
  | node :: nodes => some (.tree .program (node :: nodes))

@[simp] theorem statements_ofStatements (nodes : List Node) :
    statements (ofStatements nodes) = nodes := by
  cases nodes <;> rfl

theorem ofSpine_eq (spine : Spine) : ofSpine spine = ofStatements spine.nodes := by
  unfold ofSpine
  split <;> rename_i h <;> rw [h] <;> rfl

end Program

/-! ## The end of a statement -/

section Ends

variable {ctx : Context} {goal : Goal} {token before : Token} {front agenda : List Item}
  {steps : List Step} {spine spine' : Spine} {last : Nat}

/-- The tokens that can begin a statement are those that are not unexpected where
one begins. -/
theorem mem_starters_iff : token.kind ∈ starters ↔
    onStatement ctx token ≠ .fail (.unexpected token) := by
  constructor
  · exact (Opening.reacts_statement ctx token).ne_unexpected
  · intro h
    by_cases hk : token.kind ∈ starters
    · exact hk
    · exact absurd (Opening.Reacts.unexpected hk).react_eq h

/-- What ends a statement when the input ends, ends it as well when another
statement begins. -/
theorem react_of_starter (hg : goal.isInner = true) (hk : token.kind ∈ starters)
    (h : goal.react (.endOfInput last) = .leave steps) : goal.react token = .leave steps := by
  have main : ∀ kind ∈ starters, suffix? kind = none ∧ BinaryOperator.of? kind = none ∧
      kind ≠ .assign ∧ kind ≠ .comma ∧ kind ≠ .colon ∧ kind ≠ .kwInherits := by decide
  obtain ⟨hsuffix, hoperator, hassign, hcomma, hcolon, hinherits⟩ := main _ hk
  have hleaves : Opening.Leaves token goal steps := by
    cases Opening.leaves_of_react h with
    | program | returnValue => cases hg
    | block hstop =>
      have hend : TokenKind.endOfInput ∈ _ := hstop
      rw [Goal.isInner, List.contains_iff_mem.2 hend] at hg
      cases hg
    | operators =>
      refine .operators fun op hop => ?_
      rw [hoperator] at hop
      cases hop
    | suffixes => exact .suffixes hsuffix
    | chain => exact .chain hsuffix hassign
    | arguments hk | parameters hk => cases hk
    | moreArguments => exact .moreArguments hcomma
    | moreParameters => exact .moreParameters hcomma
    | passing => exact .passing hcolon
    | inheritance => exact .inheritance hinherits
  exact hleaves.react_eq

/-- Goals within a statement that are done when the input ends are done when
another statement begins, and the same has been built. -/
theorem offer_of_starter (hf : Inner front) (hk : token.kind ∈ starters)
    (h : offer (front ++ [.await (.program ctx)]) spine (.endOfInput last) =
      .ok (.finished spine')) :
    offer (front ++ [.await (.program ctx)]) spine token =
      offer [.await (.program ctx)] spine' token := by
  induction front generalizing spine with
  | nil =>
    cases h
    rfl
  | cons item front ih =>
    cases item with
    | build step => exact ih hf h
    | await goal =>
      obtain ⟨hgoal, hrest⟩ := Item.inner_cons.1 hf
      rw [List.cons_append, offer] at h ⊢
      cases hr : goal.react (.endOfInput last) with
      | take items => exact absurd hr (react_ne_take rfl goal items)
      | fail d =>
        rw [hr] at h
        cases h
      | leave steps =>
        rw [hr] at h
        rw [react_of_starter hgoal hk hr]
        exact ih hrest h

/-- Where a program could end, the next statement is read as after a finished
one, if it is not on the line of a `return` without a value. -/
theorem offer_of_underway (hu : Underway ctx before agenda) (hk : token.kind ∈ starters)
    (hline : before.kind = .kwReturn → before.line ≠ token.line)
    (h : offer agenda spine (.endOfInput last) = .ok (.finished spine')) :
    offer agenda spine token = offer [.await (.program ctx)] spine' token := by
  cases hu with
  | within hf => exact offer_of_starter hf hk h
  | behindReturn hreturn hf =>
    have hne := (hline hreturn).symm
    have hr : ∀ ctx', (returnValue ctx' before.line).react token =
        .leave [.leaf .returnStatement] :=
      fun _ => (Opening.Leaves.returnValue (.inr hne)).react_eq
    rw [offer, hr]
    exact offer_of_starter hf hk h

/-- Behind tokens with which a program could end, the next statement is read as
after finished ones, when it stands further down. -/
theorem run_of_starter {reading : Reading} {tokens others : List Token} {ending : Ending}
    (hu : Underway ctx before reading.agenda) (hk : token.kind ∈ starters)
    (hlines : ∀ other ∈ before :: tokens, other.kind = .kwReturn → other.line ≠ token.line)
    (h : reading.run tokens (.input last) = .ok (spine, [])) :
    reading.run (tokens ++ token :: others) ending =
      run ⟨[.await (.program ctx)], spine⟩ (token :: others) ending := by
  induction tokens generalizing reading before with
  | nil =>
    have hfeed : reading.feed token = feed ⟨[.await (.program ctx)], spine⟩ token := by
      rw [run] at h
      split at h
      · cases h
      · rename_i hf
        cases h
        exact offer_of_underway hu hk (hlines _ List.mem_cons_self) hf
      · rename_i next hf
        exact absurd hf (feed_ne_taken rfl)
    rw [List.nil_append, run, run, hfeed]
  | cons first tokens ih =>
    rw [List.cons_append]
    rw [run] at h ⊢
    split at h
    · cases h
    · cases h
    · rename_i next hf
      rcases willing_of_feed hu.willing hf with hw | ⟨d, hr, -⟩
      · exact ih (hu.of_feed hf hw) (fun other ho => hlines other (List.mem_cons_of_mem _ ho)) h
      · rw [run_error (offer_refusal hr)] at h
        cases h

end Ends

/-! ## What has been built before -/

section Before

variable {agenda : List Item} {spine : Spine} {tokens : List Token} {last : Nat} {d : Diagnostic}

/-- Two outcomes that differ in nothing but what is built. -/
inductive Progress.SameAwaited : Except Diagnostic Progress → Except Diagnostic Progress → Prop
  | error (d : Diagnostic) : SameAwaited (.error d) (.error d)
  | finished (spine spine' : Spine) : SameAwaited (.ok (.finished spine)) (.ok (.finished spine'))
  | taken (agenda : List Item) (spine spine' : Spine) :
      SameAwaited (.ok (.taken ⟨agenda, spine⟩)) (.ok (.taken ⟨agenda, spine'⟩))

/-- What is made of a token does not depend on what has been built. -/
theorem offer_sameAwaited (agenda : List Item) (spine spine' : Spine) (token : Token) :
    Progress.SameAwaited (offer agenda spine token) (offer agenda spine' token) := by
  induction agenda generalizing spine spine' with
  | nil => exact .finished spine spine'
  | cons item agenda ih =>
    cases item with
    | build step => exact ih _ _
    | await goal =>
      rw [offer, offer]
      cases goal.react token with
      | take items => exact .taken _ _ _
      | leave steps => exact ih _ _
      | fail d => exact .error d

/-- What is wrong does not depend on what has been built. -/
theorem run_error_of_spine (spine' : Spine)
    (h : run ⟨agenda, spine⟩ tokens (.input last) = .error d) :
    run ⟨agenda, spine'⟩ tokens (.input last) = .error d := by
  induction tokens generalizing agenda spine spine' with
  | nil =>
    have hsame := offer_sameAwaited agenda spine spine' (.endOfInput last)
    simp only [run, feed] at h ⊢
    generalize offer agenda spine (.endOfInput last) = outcome at hsame h
    generalize offer agenda spine' (.endOfInput last) = outcome' at hsame ⊢
    cases hsame with
    | error found => exact h
    | finished => cases h
    | taken => cases h
  | cons token tokens ih =>
    have hsame := offer_sameAwaited agenda spine spine' token
    simp only [run, feed] at h ⊢
    generalize offer agenda spine token = outcome at hsame h
    generalize offer agenda spine' token = outcome' at hsame ⊢
    cases hsame with
    | error found => exact h
    | finished => cases h
    | taken => exact ih _ h

end Before

/-! ## One program behind another -/

section Programs

variable {enforced : Bool} {ts us : List Token} {p : Option Node} {last last' : Nat}

/-- A program read without a fault has been read to its last token. -/
theorem statements_of_ofStream (hc : ∀ token ∈ ts, token.kind ≠ .endOfInput)
    (h : Program.ofStream enforced ⟨ts, .input last⟩ = .ok p) :
    ∃ ns, Construct.Derives enforced .statements ts ns [] ∧ placedAll (.top enforced) ns = true ∧
      p = Program.ofStatements ns := by
  unfold Program.ofStream at h
  split at h
  · rename_i spine rest hrun
    obtain ⟨-, ns, hd, hp, rfl⟩ := derives_of_program hc hrun
    cases h
    exact ⟨_, hd, hp, Program.ofSpine_eq spine⟩
  · cases h

theorem ofStream_of_run {ns : List Node} {stream : TokenStream}
    (h : (ofProgram enforced).run stream.tokens stream.ending = .ok (Spine.empty.addAll ns, [])) :
    Program.ofStream enforced stream = .ok (Program.ofStatements ns) := by
  unfold Program.ofStream
  simp only [h, Program.ofSpine_eq, Spine.nodes_addAll]
  rfl

/-- The tokens of a program behind those of another one, further down. -/
theorem ofStream_append (hts : ∀ token ∈ ts, token.kind ≠ .endOfInput)
    (hus : ∀ token ∈ us, token.kind ≠ .endOfInput)
    (hp : Program.ofStream enforced ⟨ts, .input last⟩ = .ok p)
    (hk : ∀ token ∈ us.head?, token.kind ∈ starters)
    (hlines : ∀ token ∈ us.head?, ∀ other ∈ ts, other.line < token.line) :
    Program.ofStream enforced ⟨ts ++ us, .input last'⟩ =
      (Program.ofStream enforced ⟨us, .input last'⟩).map fun q =>
        Program.ofStatements (Program.statements p ++ Program.statements q) := by
  obtain ⟨ns, hd, hplaced, rfl⟩ := statements_of_ofStream hts hp
  have hrun : ∀ last, (ofProgram enforced).run ts (.input last) = .ok (Spine.empty.addAll ns, []) :=
    fun last => program_of_derives hd hplaced
  rw [Program.statements_ofStatements]
  cases us with
  | nil =>
    have hnone : Program.ofStream enforced ⟨[], .input last'⟩ =
      .ok (Program.ofStatements []) := rfl
    rw [List.append_nil, ofStream_of_run (hrun last'), hnone, Except.map,
      Program.statements_ofStatements, List.append_nil]
  | cons token others =>
    have hbehind : (ofProgram enforced).run (ts ++ token :: others) (.input last') =
        run ⟨[.await (.program (.top enforced))], Spine.empty.addAll ns⟩ (token :: others)
          (.input last') := by
      have hstart : Underway (.top enforced) (.endOfInput 0) (ofProgram enforced).agenda := .start
      refine run_of_starter hstart (hk token rfl) ?_ (hrun last)
      intro other ho hreturn
      rcases List.mem_cons.1 ho with rfl | ho
      · cases hreturn
      · exact Nat.ne_of_lt (hlines token rfl other ho)
    cases hq : Program.ofStream enforced ⟨token :: others, .input last'⟩ with
    | error d =>
      rw [Program.ofStream_eq_error] at hq
      have herror := run_error_of_spine (Spine.empty.addAll ns) hq
      rw [Except.map, Program.ofStream_eq_error, hbehind]
      exact herror
    | ok q =>
      obtain ⟨ms, hd', hplaced', rfl⟩ := statements_of_ofStream hus hq
      rw [run_statements hd' hplaced', Spine.addAll_addAll] at hbehind
      rw [ofStream_of_run hbehind, Except.map, Program.statements_ofStatements]

theorem parse_of_scan {lines : List String} (h : Token.scan lines = .ok ts) :
    Program.parse lines = Program.ofStream true ⟨ts, .input lines.length⟩ := by
  unfold Program.parse
  rw [TokenStream.ofLines_of_scan h]

/-- Lines behind the lines of a program are read as they are further down. -/
theorem parse_append {lines others : List String} (h : Program.parse lines = .ok p)
    (ho : Token.scan others = .ok us) (hk : ∀ token ∈ us.head?, token.kind ∈ starters) :
    Program.parse (lines ++ others) =
      (Program.ofStream true
        ⟨us.map (Token.lowered lines.length), .input (lines ++ others).length⟩).map fun q =>
          Program.ofStatements (Program.statements p ++ Program.statements q) := by
  obtain ⟨ts, hts⟩ := Program.scan_of_parse h
  rw [parse_of_scan hts] at h
  rw [parse_of_scan (Token.scan_append hts ho)]
  refine ofStream_append (fun token ht => (TokenStream.classified_of_scan hts token ht).ne_endOfInput)
    ?_ h ?_ ?_
  · intro token ht
    obtain ⟨first, hf, rfl⟩ := List.mem_map.1 ht
    exact (TokenStream.classified_of_scan ho first hf).ne_endOfInput
  · intro token ht
    rw [List.head?_map] at ht
    obtain ⟨first, hf, rfl⟩ := Option.map_eq_some_iff.1 ht
    exact hk first hf
  · intro token ht other hother
    rw [List.head?_map] at ht
    obtain ⟨first, hf, rfl⟩ := Option.map_eq_some_iff.1 ht
    have hlow := lt_line_of_scanAfter ho first (List.mem_of_mem_head? hf)
    have hhigh := Token.line_le_of_scan hts other hother
    change other.line < first.line + lines.length
    omega

end Programs

/-- Lines put behind the lines of a program, when what they begin with can begin
a statement, are a program exactly when they are one alone, and then its
statements come behind those of the first. What is wrong with them alone is wrong
with them there, as many lines further down as there are lines before. -/
theorem programs_can_be_put_one_behind_the_other {lines others : List String} {p : Option Node}
    {tokens : List Token} (h : Program.parse lines = .ok p) (ho : Token.scan others = .ok tokens)
    (hk : ∀ token ∈ tokens.head?, token.kind ∈ starters) :
    (∀ q, Program.parse others = .ok q → Program.parse (lines ++ others) =
      .ok (Program.ofStatements (Program.statements p ++ Program.statements q))) ∧
    ∀ d, Program.parse others = .error d → ∃ line, d.line? = some line ∧
      Program.parse (lines ++ others) = .error (d.movedTo (line + lines.length)) := by
  have hagree : Agree tokens _ others.length (lines ++ others).length
      (Program.ofStream true ⟨tokens, .input others.length⟩)
      (Program.ofStream true ⟨tokens.map (Token.lowered lines.length),
        .input (lines ++ others).length⟩) :=
    Program.ofStream_agree (Token.alike_lowered lines.length tokens)
  rw [← parse_of_scan ho] at hagree
  rw [parse_append h ho hk]
  generalize Program.ofStream true _ = low at hagree ⊢
  constructor
  · intro q hq
    rw [hq] at hagree
    cases low with
    | error d => exact hagree.elim
    | ok q' =>
      cases hagree
      rfl
  · intro d hd
    rw [hd] at hagree
    cases low with
    | ok q => exact hagree.elim
    | error d' =>
      obtain ⟨i, -, hdescribes, rfl⟩ := hagree
      refine ⟨_, hdescribes.1, ?_⟩
      rw [List.length_append, Nat.add_comm lines.length, ← List.map_drop, Token.nextToken_lowered]
      rfl

/-- A loop behind an assignment is read as it is alone, and a value that it lacks
is missed one line further down. -/
theorem a_loop_can_be_put_behind_an_assignment :
    let lines := ["a = 1"]
    let others := ["while a", "a = )"]
    let tokens : List Token := [⟨.kwWhile, "while", 1⟩, ⟨.identifier, "a", 1⟩,
      ⟨.identifier, "a", 2⟩, ⟨.assign, "=", 2⟩, ⟨.closeParen, ")", 2⟩]
    let p : Node := .tree .program [
      .tree (.assign false) [.tree (.identifier "a") [], .tree (.int 1) []]]
    let d : Diagnostic := .expected .expression ")" 2
    Program.parse lines = .ok (some p) ∧ Token.scan others = .ok tokens ∧
      (∀ token ∈ tokens.head?, token.kind ∈ starters) ∧ Program.parse others = .error d ∧
      Program.parse (lines ++ others) = .error (d.movedTo 3) := by
  intro lines others tokens p d
  have hparse : Program.parse lines = .ok (some p) := rfl
  have hscan : Token.scan others = .ok tokens := rfl
  have hk : ∀ token ∈ tokens.head?, token.kind ∈ starters := by
    rintro token ⟨⟩
    decide
  have herror : Program.parse others = .error d := rfl
  obtain ⟨line, hline, hboth⟩ :=
    (programs_can_be_put_one_behind_the_other hparse hscan hk).2 d herror
  cases hline
  exact ⟨hparse, hscan, hk, herror, hboth⟩

end Pseudocode
