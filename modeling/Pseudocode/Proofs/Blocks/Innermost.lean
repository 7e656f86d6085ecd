-- What is missing where constructs are open. The innermost one alone says with
-- which keyword it wants to be ended; a keyword that only a construct further out
-- would take is met by the block of the innermost one, which has no use for it.
import Pseudocode.Proofs.Blocks.Nested
import Pseudocode.Proofs.Concatenation.Statements
import Pseudocode.Proofs.Diagnosis.Viable

namespace Pseudocode

open Goal Reaction Reading Enclosure

/-! ## Tokens that end a part of a construct -/

/-- A token that ends what stands before it: a keyword for the next part of a
construct or for its end, on a line after the line `bound`, or the end of the
input. -/
def Token.EndsPart (bound : Nat) (token : Token) : Prop :=
  token.kind = .endOfInput ∨ token.kind ∈ Enclosure.keywords ∧ bound < token.line

namespace Token.EndsPart

variable {bound : Nat} {token : Token} {kind : TokenKind}

theorem endOfInput (line : Nat) : (Token.endOfInput line).EndsPart bound := .inl rfl

theorem suffix?_eq_none (h : token.EndsPart bound) : suffix? token.kind = none := by
  have hall : ∀ kind ∈ Enclosure.keywords, (suffix? kind).isNone := by decide
  rcases h with h | h
  · rw [h]
    rfl
  · exact Option.isNone_iff_eq_none.1 (hall _ h.1)

theorem of?_eq_none (h : token.EndsPart bound) : BinaryOperator.of? token.kind = none := by
  have hall : ∀ kind ∈ Enclosure.keywords, (BinaryOperator.of? kind).isNone := by decide
  rcases h with h | h
  · rw [h]
    rfl
  · exact Option.isNone_iff_eq_none.1 (hall _ h.1)

theorem ne_kind (h : token.EndsPart bound) (hi : kind.isInside = true) (hk : kind ≠ .endOfInput) :
    token.kind ≠ kind := by
  rintro rfl
  rcases h with h | h
  · exact hk h
  · rw [not_inside_of_keyword h.1] at hi
    cases hi

end Token.EndsPart

/-! ## Goals at such a token -/

/-- Whether a construct or a member begins with the goal. -/
def Goal.isHead : Goal → Bool
  | counter _ | subroutineName _ _ | classDeclName _ | member _ _ => true
  | _ => false

section Goals

variable {bound : Nat} {goal : Goal} {token closer : Token} {steps : List Step}
  {items : List Item}

theorem not_take_of_loose (hg : goal.isLoose bound = true)
    (hk : closer.kind ∈ Enclosure.keywords) : goal.react closer ≠ .take items := by
  intro hr
  have hinside : (goal.react closer).StaysInside bound closer.kind := react_staysInside hg
  rw [hr, StaysInside, not_inside_of_keyword hk] at hinside
  exact Bool.false_ne_true hinside.2

/-- Where a construct or a member begins, no part of a construct can end. -/
theorem not_take_of_head (hg : goal.isHead = true) (hk : closer.kind ∈ Enclosure.keywords) :
    goal.react closer ≠ .take items := by
  intro hr
  have hforeign : ∀ kinds : List TokenKind, (∀ kind ∈ Enclosure.keywords, kind ∉ kinds) →
      closer.kind ∉ kinds := fun kinds h => h _ hk
  cases goal with
  | counter _ | subroutineName _ _ | classDeclName _ | member _ _ =>
    rw [Opening.react_of_demand rfl (hforeign _ (by decide))] at hr
    cases hr
  | _ => cases hg

/-- A goal outside of the constructs that is left at one token that ends a part
is left at every one. -/
theorem react_leave_of_endsPart (hg : goal.isLoose bound = true) (hc : closer.EndsPart bound)
    (hr : goal.react closer = .leave steps) (ht : token.EndsPart bound) :
    ∃ others, goal.react token = .leave others := by
  have hleaves : ∃ others, Opening.Leaves token goal others := by
    cases Opening.leaves_of_react hr with
    | program | block => cases hg
    | operators =>
      refine ⟨_, .operators fun op hop => ?_⟩
      rw [ht.of?_eq_none] at hop
      cases hop
    | suffixes => exact ⟨_, .suffixes ht.suffix?_eq_none⟩
    | chain => exact ⟨_, .chain ht.suffix?_eq_none (ht.ne_kind rfl (by decide))⟩
    | arguments hk | parameters hk => exact absurd hk (hc.ne_kind rfl (by decide))
    | moreArguments => exact ⟨_, .moreArguments (ht.ne_kind rfl (by decide))⟩
    | moreParameters => exact ⟨_, .moreParameters (ht.ne_kind rfl (by decide))⟩
    | passing => exact ⟨_, .passing (ht.ne_kind rfl (by decide))⟩
    | inheritance => exact ⟨_, .inheritance (ht.ne_kind rfl (by decide))⟩
    | returnValue =>
      have hline := of_decide_eq_true hg
      refine ⟨_, .returnValue (ht.imp_right fun h => ?_)⟩
      exact Nat.ne_of_gt (Nat.lt_of_le_of_lt hline h.2)
  obtain ⟨others, h⟩ := hleaves
  exact ⟨others, h.react_eq⟩

end Goals

/-! ## The goal that asks for the end of the innermost construct -/

/-- A goal that is in front where the end of a construct, or a further part of it,
may come: the block of statements of the construct, or what has no such block. -/
inductive Encloses : Enclosure → Goal → Prop
  | block {enclosure stops} (ctx) : enclosure.stops? = some stops →
      Encloses enclosure (.block ctx stops)
  | clauses (ctx afterDefault) : Encloses .switch (.clauses ctx afterDefault)
  | members (ctx) : Encloses .classDecl (.members ctx)

section Enclosing

variable {goal : Goal} {token : Token} {ctx : Context} {stops : List TokenKind}
  {enclosure : Enclosure}

/-- At the end of the input the keyword that ends the construct is missing. -/
theorem Encloses.react_endOfInput (h : Encloses enclosure goal) (last : Nat) :
    goal.react (.endOfInput last) =
      .fail (.expected (.token enclosure.closing) TokenKind.endOfInput.display last) := by
  cases h with
  | clauses ctx afterDefault => rfl
  | members ctx => rfl
  | block ctx hs =>
    rename_i stops
    have hr : (Goal.block ctx stops).react (.endOfInput last) = _ :=
      (Opening.Lacks.block (endOfInput_notMem_stops hs) rfl).react_eq
    rw [hr, getLast?_stops hs]
    rfl

/-- Each construct asks for its own keyword, in quotes. -/
example : [Enclosure.branch, .elseBranch, .forLoop, .whileLoop, .doLoop, .switch, .clause,
    .subroutine .function, .subroutine .procedure, .classDecl].map
      (fun enclosure => (Expectation.token enclosure.closing).text) =
    ["'endif'", "'endif'", "'next'", "'endwhile'", "'until'", "'endswitch'", "'endswitch'",
      "'endfunction'", "'endprocedure'", "'endclass'"] := by
  decide

/-- A keyword for a part or an end of another construct is no statement. -/
theorem onBlock_keyword (hk : token.kind ∈ Enclosure.keywords) (hs : token.kind ∉ stops) :
    onBlock ctx stops token = .fail (.unexpectedToken token.text token.line) := by
  have hforeign : ∀ kind ∈ Enclosure.keywords, kind ∉ starters ∧ kind ≠ .endOfInput := by
    decide
  obtain ⟨hstatement, hend⟩ := hforeign _ hk
  have hr : onBlock ctx stops token = _ :=
    (Opening.Reacts.block hs hend (.unexpected hstatement)).react_eq
  rw [hr, Diagnostic.unexpected, Token.display, if_neg hend]
  rfl

end Enclosing

section Agendas

variable {bound : Nat} {agenda : List Item} {stack : List Enclosure} {enclosure : Enclosure}
  {spine : Spine} {closer : Token} {next : Reading}

/-- Where a keyword for a part or an end of a construct is taken, every token that
ends a part comes to the goal that asks for the end of the innermost construct. -/
theorem Nested.innermost (h : Nested bound agenda stack) (hs : stack.head? = some enclosure)
    (hk : closer.kind ∈ Enclosure.keywords) (hline : bound < closer.line)
    (hf : offer agenda spine closer = .ok (.taken next)) :
    ∃ goal, Encloses enclosure goal ∧ ∀ token d, token.EndsPart bound →
      goal.react token = .fail d → ∀ spine, offer agenda spine token = .error d := by
  -- Down to that goal there are only goals that the keyword leaves; every other
  -- token that ends a part leaves them too.
  induction h generalizing spine with
  | program ctx => cases hs
  | build step _ ih =>
    obtain ⟨goal, hgoal, herror⟩ := ih hs hf
    exact ⟨goal, hgoal, fun token d ht hr spine => herror token d ht hr _⟩
  | loose hgoal hrest ih =>
    rcases offer_await_cases hf with ⟨items, hr, -⟩ | ⟨steps, hr, hf⟩
    · exact absurd hr (not_take_of_loose hgoal hk)
    · obtain ⟨goal, hencloses, herror⟩ := ih hs hf
      refine ⟨goal, hencloses, fun token d ht hd spine => ?_⟩
      obtain ⟨others, hleave⟩ := react_leave_of_endsPart hgoal (.inr ⟨hk, hline⟩) hr ht
      rw [offer, hleave]
      exact herror token d ht hd _
  | clauses ctx afterDefault _ _ =>
    cases hs
    exact ⟨_, .clauses ctx afterDefault, fun token d _ hr spine => by rw [offer, hr]⟩
  | members ctx _ _ =>
    cases hs
    exact ⟨_, .members ctx, fun token d _ hr spine => by rw [offer, hr]⟩
  | block ctx steps hstops _ _ _ =>
    cases hs
    exact ⟨_, .block ctx hstops, fun token d _ hr spine => by rw [offer, hr]⟩
  | counter | subroutineName | classDeclName | member =>
    rcases offer_await_cases hf with ⟨items, hr, -⟩ | ⟨steps, hr, -⟩
    · exact absurd hr (not_take_of_head rfl hk)
    · exact absurd hr (react_ne_leave rfl steps)

end Agendas

/-! ## Programs -/

section Programs

variable {lines : List String} {tokens front rest : List Token} {program : Option Node}

/-- The reading of a program, as far as some of its tokens go. -/
theorem nested_of_parse {bound : Nat} {ending : Ending}
    (hp : Program.ofStream true ⟨front ++ rest, ending⟩ = .ok program)
    (hfront : ∀ token ∈ front, token.line ≤ bound ∧ token.kind ≠ .endOfInput) :
    ∃ next result, (ofProgram true).after front = some next ∧
      Nested bound next.agenda (enclosures front) ∧ next.run rest ending = .ok result := by
  have hstart : Nested bound (ofProgram true).agenda [] := .program _
  unfold Program.ofStream at hp
  split at hp
  · rename_i spine left hrun
    obtain ⟨next, hafter, hnext⟩ := hstart.after_of_run hfront hrun
    have hline : ∀ token ∈ front, token.line ≤ bound := fun token ht => (hfront token ht).1
    exact ⟨next, _, hafter, hstart.of_after hline hafter, hnext⟩
  · cases hp

theorem line_and_kind_of_scan (h : Token.scan lines = .ok tokens) :
    ∀ token ∈ tokens, token.line ≤ lines.length ∧ token.kind ≠ .endOfInput := fun token ht =>
  ⟨Token.line_le_of_scan h token ht, (TokenStream.classified_of_scan h token ht).ne_endOfInput⟩

/-- Where lines are read as far as a keyword for a part or an end, the tokens that
end a part are refused as the innermost construct refuses them. -/
theorem feed_of_endsPart {next : Reading} {stack : List Enclosure} {enclosure : Enclosure}
    {closer token : Token} {ending : Ending} {result : Spine × List Token} {bound : Nat}
    {d : Diagnostic} (h : Nested bound next.agenda (enclosure :: stack))
    (hk : closer.kind ∈ Enclosure.keywords) (hline : bound < closer.line)
    (hrun : next.run (closer :: rest) ending = .ok result) (ht : token.EndsPart bound)
    (hd : ∀ goal, Encloses enclosure goal → goal.react token = .fail d) :
    next.feed token = .error d := by
  rw [run] at hrun
  split at hrun
  · cases hrun
  · rename_i spine hf
    exact absurd hf (h.not_finished (fun _ => List.cons_ne_nil _ _) spine)
  · rename_i following hf
    obtain ⟨goal, hgoal, herror⟩ := h.innermost rfl hk hline hf
    exact herror token d ht (hd goal hgoal) next.spine

/-- A program leaves nothing open. -/
theorem enclosures_of_parse (h : Program.parse lines = .ok program)
    (hscan : Token.scan lines = .ok tokens) : enclosures tokens = [] := by
  rw [parse_of_scan hscan, ← List.append_nil tokens] at h
  obtain ⟨next, result, -, hnested, hrun⟩ := nested_of_parse h (line_and_kind_of_scan hscan)
  by_contra hopen
  rw [run] at hrun
  split at hrun
  · cases hrun
  · rename_i spine hf
    exact hnested.not_finished (fun _ => hopen) spine hf
  · rename_i following hf
    exact feed_ne_taken rfl hf

end Programs

/-- Where constructs are open and a keyword for a further part or an end could come,
as it does when the ends that are missing are put behind the lines, the input
lacks the keyword that ends the innermost construct. A line that begins with a
keyword for a part or an end of any other construct is no part of the block that
the innermost construct is in, whatever that keyword ends further out. -/
theorem what_is_missing_is_the_end_of_the_innermost_construct
    {lines more : List String} {tokens others : List Token} {closer : Token}
    {innermost : Enclosure} {outer : List Enclosure} {program : Option Node}
    (hscan : Token.scan lines = .ok tokens) (hopen : enclosures tokens = innermost :: outer)
    (hmore : Token.scan more = .ok (closer :: others)) (hk : closer.kind ∈ Enclosure.keywords)
    (hparse : Program.parse (lines ++ more) = .ok program) :
    Program.parse lines =
        .error (.expected (.token innermost.closing) "end of input" lines.length) ∧
      ∀ stops, innermost.stops? = some stops →
        ∀ text token row following, Token.scanLine (lines.length + 1) text = .ok (token :: row) →
          token.kind ∈ Enclosure.keywords → token.kind ∉ stops →
            Program.parse (lines ++ text :: following) =
              .error (.unexpectedToken token.text (lines.length + 1)) := by
  rw [parse_of_scan (Token.scan_append hscan hmore)] at hparse
  obtain ⟨next, result, hafter, hnested, hrun⟩ :=
    nested_of_parse hparse (line_and_kind_of_scan hscan)
  rw [hopen] at hnested
  -- the keyword stands further down, behind everything that the agenda remembers a line of
  have hlowered : (closer.lowered lines.length).kind ∈ Enclosure.keywords := hk
  have hlow : lines.length < (closer.lowered lines.length).line := by
    have hpos : 0 < closer.line := lt_line_of_scanAfter hmore closer List.mem_cons_self
    change lines.length < closer.line + lines.length
    omega
  have hfeed : ∀ token d, token.EndsPart lines.length →
      (∀ goal, Encloses innermost goal → goal.react token = .fail d) →
        next.feed token = .error d :=
    fun token d => feed_of_endsPart hnested hlowered hlow hrun
  refine ⟨?_, ?_⟩
  · have hend : next.feed (.endOfInput lines.length) = .error _ :=
      hfeed _ _ (.endOfInput _) fun goal hgoal => hgoal.react_endOfInput _
    rw [parse_of_scan hscan, ← List.append_nil tokens, Program.ofStream_eq_error]
    rw [run_after hafter]
    exact run_error hend
  · intro stops hstops text token row following hscanLine hkeyword hforeign
    have hline : token.line = lines.length + 1 :=
      Token.line_of_scanLine hscanLine token List.mem_cons_self
    have hrefused : next.feed token = .error (.unexpectedToken token.text token.line) := by
      refine hfeed _ _ (.inr ⟨hkeyword, by omega⟩) fun goal hgoal => ?_
      cases hgoal with
      | clauses _ _ | members _ => cases hstops
      | block ctx hs =>
        rw [hstops] at hs
        cases hs
        exact onBlock_keyword hkeyword hforeign
    have hstream := TokenStream.after_append_of_scan hscan (text :: following)
    rw [Nat.zero_add, TokenStream.after, hscanLine] at hstream
    rw [Program.parse, TokenStream.ofLines, hstream, Program.ofStream_eq_error]
    simp only [List.cons_append]
    rw [run_after hafter, run, hrefused, hline]

/-- An `endif` is no end of a loop in a branch, although the branch is open. -/
theorem an_endif_is_unexpected_in_a_loop :
    let lines := ["if a then", "while b", "c = 1"]
    let more := ["endwhile", "endif"]
    let program : Node := .tree .program [.tree .ifStatement [.tree .branch [
      .tree (.identifier "a") [],
      .tree .block [.tree .whileLoop [.tree (.identifier "b") [],
        .tree .block [.tree (.assign false) [.tree (.identifier "c") [], .tree (.int 1) []]]]]]]]
    let tokens : List Token := [⟨.kwIf, "if", 1⟩, ⟨.identifier, "a", 1⟩, ⟨.kwThen, "then", 1⟩,
      ⟨.kwWhile, "while", 2⟩, ⟨.identifier, "b", 2⟩, ⟨.identifier, "c", 3⟩, ⟨.assign, "=", 3⟩,
      ⟨.intLiteral, "1", 3⟩]
    Token.scan lines = .ok tokens ∧ enclosures tokens = [.whileLoop, .branch] ∧
      Token.scan more = .ok [⟨.kwEndWhile, "endwhile", 1⟩, ⟨.kwEndIf, "endif", 2⟩] ∧
      Program.parse (lines ++ more) = .ok (some program) ∧
      Program.parse lines = .error (.expected (.token .kwEndWhile) "end of input" 3) ∧
      Program.parse (lines ++ ["endif"]) = .error (.unexpectedToken "endif" 4) := by
  intro lines more program tokens
  have hscan : Token.scan lines = .ok tokens := rfl
  have hopen : enclosures tokens = [.whileLoop, .branch] := rfl
  have hmore : Token.scan more = .ok [⟨.kwEndWhile, "endwhile", 1⟩, ⟨.kwEndIf, "endif", 2⟩] := rfl
  have hparse : Program.parse (lines ++ more) = .ok (some program) := rfl
  have hk : TokenKind.kwEndWhile ∈ Enclosure.keywords := by decide
  obtain ⟨hmissing, hforeign⟩ :=
    what_is_missing_is_the_end_of_the_innermost_construct hscan hopen hmore hk hparse
  refine ⟨hscan, hopen, hmore, hparse, hmissing, ?_⟩
  have hline : Token.scanLine 4 "endif" = .ok [⟨.kwEndIf, "endif", 4⟩] := rfl
  exact hforeign [.kwEndWhile] rfl "endif" _ _ [] hline (by decide) (by decide)

end Pseudocode
