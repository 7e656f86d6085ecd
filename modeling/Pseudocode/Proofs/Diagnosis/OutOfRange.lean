-- Numbers out of range. What a number says does not matter to anything but its
-- own node, so a program in which each of them is replaced by a zero is read
-- alike up to the first one, and that one is then refused.
import Pseudocode.Proofs.Diagnosis.Viable
import Pseudocode.Proofs.Tree.Values

namespace Pseudocode

open Goal Reaction Reading
open Item (Live refusal?)

/-! ## The range of numbers -/

namespace Token

/-- An integer of more than 63 bits, or a real number that is read as infinite. -/
def OutOfRange (token : Token) : Prop :=
  token.kind = .intLiteral ∧ 9223372036854775807 < decimalValue token.text ∨
    token.kind = .realLiteral ∧ Binary64.ofNumeral token.text.toList = .infinite false

instance (token : Token) : Decidable token.OutOfRange :=
  inferInstanceAs (Decidable (_ ∨ _))

/-- The token with a zero of its kind in its place, if it is out of range. -/
def tamed (token : Token) : Token :=
  if token.OutOfRange then
    { token with text := if token.kind = .intLiteral then "0" else "0.0" }
  else token

end Token

section Range

variable {token : Token} {d : Diagnostic}

theorem kind_of_outOfRange (h : token.OutOfRange) :
    token.kind = .intLiteral ∨ token.kind = .realLiteral :=
  h.imp And.left And.left

theorem kind_tamed : token.tamed.kind = token.kind := by
  unfold Token.tamed
  split <;> rfl

theorem line_tamed : token.tamed.line = token.line := by
  unfold Token.tamed
  split <;> rfl

theorem tamed_eq (h : ¬token.OutOfRange) : token.tamed = token := if_neg h

/-- What is out of range has no label. -/
theorem literalLabel_of_outOfRange (h : token.OutOfRange) :
    literalLabel token = .error (.invalidNumber token.text token.line) := by
  unfold literalLabel
  rcases h with ⟨hkind, hlarge⟩ | ⟨hkind, hinfinite⟩
  · rw [hkind]
    dsimp only
    rw [wholeOf_eq_decimalValue, if_neg]
    exact Nat.not_le.2 hlarge
  · rw [hkind]
    dsimp only
    rw [hinfinite]

/-- An integer in range says the number that its digits stand for. -/
theorem int?_of_inRange (hkind : token.kind = .intLiteral) (h : ¬token.OutOfRange) :
    token.int? = some (decimalValue token.text : Int) := by
  have hsmall : decimalValue token.text < 2 ^ 63 := by
    by_contra hlarge
    exact h (.inl ⟨hkind, Nat.lt_of_succ_le (Nat.le_of_not_lt hlarge)⟩)
  unfold Token.int?
  rw [Token.atom_of_literal (.int hkind hsmall)]
  rfl

end Range

/-! ## One goal -/

/-- Where a token is taken, another one in its place is taken only to be refused, and
where it is left, so is the other one. -/
def Reaction.Spoils (d : Diagnostic) : Reaction → Reaction → Prop
  | take _, take items => refusal? items = some d
  | leave steps, reaction => reaction = leave steps
  | fail _, _ => True
  | _, _ => False

section Goals

variable {token other : Token} {d : Diagnostic} {reaction reaction' : Reaction}
  {after : List Item}

theorem spoils_wrapped (before : List Step) (h : reaction.Spoils d reaction') :
    (reaction.wrapped (before.map .build) after).Spoils d
      (reaction'.wrapped (before.map .build) after) := by
  cases reaction with
  | fail fault => trivial
  | leave steps =>
    cases h
    rfl
  | take items =>
    cases reaction' with
    | take items' => exact Item.refusal?_append (Item.refusal?_builds.trans h)
    | leave steps => exact h.elim
    | fail fault => exact h.elim

theorem spoils_followed (h : reaction.Spoils d reaction') :
    (reaction.followed after).Spoils d (reaction'.followed after) :=
  spoils_wrapped [] h

theorem spoils_guarded {line : Nat} (fault : Option Misplacement)
    (h : reaction.Spoils d reaction') :
    (guarded fault line reaction).Spoils d (guarded fault line reaction') := by
  cases fault with
  | none => exact h
  | some what => trivial

variable {opening : Opening} {items : List Item} {goal : Goal} {steps : List Step}
  {what : Expectation}

/-- A number is never taken for a mark, and everything else that is taken is no number. -/
theorem Opening.Takes.not_number (h : opening.Takes token items)
    (ho : opening.Asks fun goal => ∀ kind, goal = .token kind → kind ∈ TokenKind.spelled) :
    ¬(token.kind = .intLiteral ∨ token.kind = .realLiteral) := by
  intro hnumber
  cases h with
  | mark hk =>
    have hspelled := ho _ rfl
    rw [← hk] at hspelled
    rcases hnumber with hnumber | hnumber <;> rw [hnumber] at hspelled <;> revert hspelled <;> decide
  | operator hk | suffix hk | chainSuffix hk | counterAgain hk =>
    rcases hnumber with hnumber | hnumber <;> rw [hnumber] at hk <;> cases hk
  | _ hk =>
    rcases hnumber with hnumber | hnumber <;> rw [hnumber] at hk <;> revert hk <;> decide

theorem Opening.Leaves.of_kind (h : Opening.Leaves other goal steps)
    (hkind : token.kind = other.kind) (hline : token.line = other.line) :
    Opening.Leaves token goal steps := by
  obtain ⟨kind, text, line⟩ := token
  obtain ⟨kind', text', line'⟩ := other
  cases hkind
  cases hline
  cases h <;> constructor <;> assumption

theorem Opening.Lacks.of_number (h : opening.Lacks other what)
    (hnumber : token.kind = .intLiteral ∨ token.kind = .realLiteral)
    (hkind : token.kind = other.kind) : opening.Lacks token what := by
  obtain ⟨kind, text, line⟩ := token
  obtain ⟨kind', text', line'⟩ := other
  cases hkind
  cases h with
  | other hd hk => exact .other hd hk
  | indices hk => exact .indices hk
  | assign hs hk hc => exact .assign hs hk hc
  | counterAgain =>
    refine .counterAgain fun hk => ?_
    rcases hnumber with rfl | rfl <;> cases hk.1
  | endSwitch hk => exact .endSwitch hk
  | endClass hk => exact .endClass hk
  | block hs hk => exact .block hs hk
  | mark hk => exact .mark hk

/-- Where a number is read, another one in its place is refused, and otherwise it makes
no difference. -/
theorem spoils_of_reacts (hnumber : token.kind = .intLiteral ∨ token.kind = .realLiteral)
    (hkind : token.kind = other.kind) (hline : token.line = other.line)
    (hlabel : literalLabel token = .error (.invalidNumber token.text token.line))
    (h : opening.Reacts other reaction)
    (ho : opening.Asks fun goal => ∀ kind, goal = .token kind → kind ∈ TokenKind.spelled) :
    ∃ reaction', opening.Reacts token reaction' ∧
      reaction.Spoils (.invalidNumber token.text token.line) reaction' := by
  have hkinds : ∀ kinds : List TokenKind, .intLiteral ∉ kinds → .realLiteral ∉ kinds →
      other.kind ∉ kinds := by
    intro kinds hint hreal
    rw [← hkind]
    rcases hnumber with hnumber | hnumber <;> rwa [hnumber]
  induction h with
  | taken h => exact absurd (hkind ▸ hnumber) (h.not_number ho)
  | left h => exact ⟨_, .left (h.of_kind hkind hline), rfl⟩
  | lacking h => exact ⟨_, .lacking (h.of_number hnumber hkind), trivial⟩
  | unexpected hk => exact ⟨_, .unexpected (hkind ▸ hk), trivial⟩
  | refusal => exact ⟨_, .refusal, trivial⟩
  | literal hk | outOfRange hk => exact ⟨_, .outOfRange (hkind ▸ hk) hlabel, rfl⟩
  | caseClause hk | defaultClause hk | function hk | procedure hk | classDecl hk
  | returnStatement hk | breakStatement hk | continueStatement hk =>
    exact absurd (List.mem_singleton.2 hk) (hkinds _ (by decide) (by decide))
  | base hk | chainStatement hk => exact absurd hk (hkinds _ (by decide) (by decide))
  | subroutineStatement _ ih =>
    obtain ⟨r, hr, hs⟩ := ih trivial
    exact ⟨r, .subroutineStatement hr, hs⟩
  | globalChain hk _ ih =>
    obtain ⟨r, hr, hs⟩ := ih trivial
    exact ⟨r, .globalChain (hkind ▸ hk) hr, hs⟩
  | parameters hk _ ih =>
    obtain ⟨r, hr, hs⟩ := ih (by simp [Opening.Asks])
    exact ⟨r, .parameters (hkind ▸ hk) hr, hs⟩
  | chain _ ih =>
    obtain ⟨r, hr, hs⟩ := ih trivial
    rw [← hkind]
    exact ⟨_, .chain hr, spoils_followed hs⟩
  | primary hk _ ih =>
    obtain ⟨r, hr, hs⟩ := ih trivial
    exact ⟨_, .primary (hkind ▸ hk) hr, spoils_followed hs⟩
  | unary hk _ ih =>
    obtain ⟨r, hr, hs⟩ := ih (by simp [Opening.Asks])
    exact ⟨_, .unary (hkind ▸ hk) hr, spoils_followed hs⟩
  | arguments hk _ ih =>
    obtain ⟨r, hr, hs⟩ := ih (by simp [Opening.Asks])
    exact ⟨_, .arguments (hkind ▸ hk) hr, spoils_followed hs⟩
  | indices hk _ ih =>
    obtain ⟨r, hr, hs⟩ := ih (by simp [Opening.Asks])
    exact ⟨_, .indices (hkind ▸ hk) hr, spoils_followed hs⟩
  | subroutineMember _ ih =>
    obtain ⟨r, hr, hs⟩ := ih trivial
    exact ⟨_, .subroutineMember hr, spoils_wrapped [_] hs⟩
  | unmarkedMember hk _ ih =>
    obtain ⟨r, hr, hs⟩ := ih (by simp [Opening.Asks])
    exact ⟨_, .unmarkedMember (hkind ▸ hk) hr, spoils_followed hs⟩
  | returnValue hk hl _ ih =>
    obtain ⟨r, hr, hs⟩ := ih (by simp [Opening.Asks])
    exact ⟨_, .returnValue (hkind ▸ hk) (hline.trans hl) hr,
      spoils_guarded _ (spoils_wrapped [_] hs)⟩
  | block hs hk _ ih =>
    obtain ⟨r, hr, hspoils⟩ := ih trivial
    exact ⟨_, .block (hkind ▸ hs) (hkind ▸ hk) hr, spoils_followed hspoils⟩
  | program hk _ ih =>
    obtain ⟨r, hr, hs⟩ := ih trivial
    exact ⟨_, .program (hkind ▸ hk) hr, spoils_followed hs⟩

/-- A goal that can come up makes of a number what it makes of another one, apart from
refusing it. -/
theorem react_spoils (hnumber : token.kind = .intLiteral ∨ token.kind = .realLiteral)
    (hkind : other.kind = token.kind) (hline : other.line = token.line)
    (hlabel : literalLabel token = .error d)
    (hgoal : ∀ kind, goal = .token kind → kind ∈ TokenKind.spelled) :
    (goal.react other).Spoils d (goal.react token) := by
  have hliteral : token.kind.isLiteral = true := by
    rcases hnumber with hnumber | hnumber <;> rw [hnumber] <;> rfl
  have hd := Opening.literalLabel_eq_error hliteral hlabel
  subst hd
  obtain ⟨reaction, hr, hspoils⟩ := spoils_of_reacts hnumber hkind.symm hline.symm hlabel
    (Opening.reacts_goal_iff.2 rfl) hgoal
  rw [Opening.reacts_goal_iff.1 hr]
  exact hspoils

end Goals

/-! ## Many tokens -/

section Tokens

variable {token other : Token} {d : Diagnostic} {agenda : List Item} {spine : Spine}
  {reading next : Reading} {front rest tokens : List Token} {bound last : Nat}

theorem spelled_of_live (h : Live bound agenda) :
    ∀ kind, .await (.token kind) ∈ agenda → kind ∈ TokenKind.spelled := by
  intro kind hmem
  obtain ⟨before, behind, rfl⟩ := List.append_of_mem hmem
  exact (h.of_suffix (List.suffix_append before _)).1

/-- An agenda that takes a number takes another one too, if only to refuse it. -/
theorem offer_spoils (hnumber : token.kind = .intLiteral ∨ token.kind = .realLiteral)
    (hkind : other.kind = token.kind) (hline : other.line = token.line)
    (hlabel : literalLabel token = .error d)
    (hspelled : ∀ kind, .await (.token kind) ∈ agenda → kind ∈ TokenKind.spelled)
    (h : offer agenda spine other = .ok (.taken next)) :
    ∃ refused, offer agenda spine token = .ok (.taken refused) ∧
      refusal? refused.agenda = some d := by
  induction agenda generalizing spine with
  | nil => cases h
  | cons item agenda ih =>
    have hrest := fun kind hmem => hspelled kind (List.mem_cons_of_mem item hmem)
    cases item with
    | build step => exact ih hrest h
    | await goal =>
      have hspoils := react_spoils hnumber hkind hline hlabel fun kind hgoal =>
        hspelled kind (hgoal ▸ List.mem_cons_self)
      rw [offer] at h ⊢
      cases hreact : goal.react other with
      | fail fault =>
        rw [hreact] at h
        cases h
      | leave steps =>
        rw [hreact] at h hspoils
        rw [show goal.react token = .leave steps from hspoils]
        exact ih hrest h
      | take items =>
        rw [hreact] at hspoils
        cases htoken : goal.react token with
        | fail fault =>
          rw [htoken] at hspoils
          exact hspoils.elim
        | leave steps =>
          rw [htoken] at hspoils
          exact hspoils.elim
        | take refused =>
          rw [htoken] at hspoils
          exact ⟨_, rfl, Item.refusal?_append hspoils⟩

/-- Tokens that would be read to their end with zeros in the place of the numbers out of
range are read up to the first of these numbers, which is refused. -/
theorem run_of_outOfRange (hlive : Live bound reading.agenda)
    (hwithin : ∀ before ∈ front, before.Within bound)
    (hrange : ∀ before ∈ front, ¬before.OutOfRange)
    (hout : token.OutOfRange)
    (h : reading.run ((front ++ token :: rest).map Token.tamed) (.input last) = .ok (spine, [])) :
    reading.run (front ++ token :: rest) (.input last) =
      .error (.invalidNumber token.text token.line) := by
  induction front generalizing reading with
  | nil =>
    rw [List.nil_append, List.map_cons, run] at h
    split at h
    · cases h
    · cases h
    · rename_i next hfeed
      obtain ⟨refused, hrefused, hrefusal⟩ := offer_spoils (kind_of_outOfRange hout) kind_tamed
        line_tamed (literalLabel_of_outOfRange hout) (spelled_of_live hlive) hfeed
      have hfeed' : reading.feed token = .ok (.taken refused) := hrefused
      rw [List.nil_append, run, hfeed']
      exact run_error (offer_refusal hrefusal)
  | cons before front ih =>
    obtain ⟨hbefore, hothers⟩ := List.forall_mem_cons.1 hwithin
    obtain ⟨hin, hin'⟩ := List.forall_mem_cons.1 hrange
    rw [List.cons_append, List.map_cons, tamed_eq hin, run] at h
    rw [List.cons_append, run]
    split at h
    · cases h
    · cases h
    · rename_i next hfeed
      rcases (steady_live bound).2 reading next before hlive hbefore hfeed with
        hnext | ⟨found, hrefusal, -⟩
      · exact ih hnext hothers hin' h
      · rw [run_error (offer_refusal hrefusal)] at h
        cases h

theorem map_tamed (h : ∀ token ∈ tokens, ¬token.OutOfRange) : tokens.map Token.tamed = tokens := by
  rw [List.map_congr_left fun token ht => tamed_eq (h token ht), List.map_id']

/-- Numbers in range say what their digits stand for. -/
theorem ints_of_inRange (h : ∀ token ∈ tokens, ¬token.OutOfRange) :
    tokens.filterMap Token.int? =
      (tokens.filter (·.kind = .intLiteral)).map fun token => (decimalValue token.text : Int) := by
  induction tokens with
  | nil => rfl
  | cons token tokens ih =>
    obtain ⟨htoken, htokens⟩ := List.forall_mem_cons.1 h
    by_cases hkind : token.kind = .intLiteral
    · rw [List.filterMap_cons_some (int?_of_inRange hkind htoken), ih htokens,
        List.filter_cons_of_pos (by simpa using hkind), List.map_cons]
    · rw [List.filterMap_cons_none (int?_of_kind hkind), ih htokens,
        List.filter_cons_of_neg (by simpa using hkind)]

end Tokens

/-! ## Programs -/

section Programs

variable {lines : List String} {tokens front rest : List Token} {token : Token} {last : Nat}
  {tree : Option Node}

/-- A program is read to its end, and has no tokens if it has no statements. -/
theorem run_of_ofStream (hkind : ∀ token ∈ tokens, token.kind ≠ .endOfInput)
    (h : Program.ofStream true ⟨tokens, .input last⟩ = .ok tree) :
    ∃ spine, (ofProgram true).run tokens (.input last) = .ok (spine, []) ∧
      (tree = none → tokens = []) := by
  unfold Program.ofStream at h
  split at h
  · rename_i spine left hrun
    obtain ⟨rfl, ns, hderives, -, rfl⟩ := derives_of_program hkind hrun
    cases h
    refine ⟨spine, hrun, fun hnone => ?_⟩
    unfold Program.ofSpine at hnone
    split at hnone
    · rename_i hnil
      rw [hnil] at hderives
      exact nil_of_statements hderives
    · cases hnone
  · cases h

theorem ints_of_tree (hscan : Token.scan lines = .ok tokens)
    (hrange : ∀ token ∈ tokens, ¬token.OutOfRange) (h : Program.parse lines = .ok tree) :
    Node.ints (tree.elim [] Node.walk) =
      (tokens.filter (·.kind = .intLiteral)).map fun token => (decimalValue token.text : Int) := by
  rw [← ints_of_inRange hrange]
  cases tree with
  | none =>
    have hclassified := TokenStream.classified_of_scan hscan
    unfold Program.parse at h
    rw [TokenStream.ofLines_of_scan hscan] at h
    obtain ⟨-, -, hnil⟩ := run_of_ofStream (fun token ht => (hclassified token ht).ne_endOfInput) h
    rw [hnil rfl]
    rfl
  | some program =>
    obtain ⟨found, hfound, hints⟩ := ints_of_parse h
    rw [hscan] at hfound
    cases hfound
    exact hints

theorem parse_of_inRange (hscan : Token.scan lines = .ok tokens)
    (h : Program.ofStream true ⟨tokens.map Token.tamed, .input lines.length⟩ = .ok tree)
    (hrange : ∀ token ∈ tokens, ¬token.OutOfRange) : Program.parse lines = .ok tree := by
  unfold Program.parse
  rw [TokenStream.ofLines_of_scan hscan]
  rwa [map_tamed hrange] at h

theorem parse_of_outOfRange (hscan : Token.scan lines = .ok (front ++ token :: rest))
    (h : Program.ofStream true ⟨(front ++ token :: rest).map Token.tamed, .input lines.length⟩ =
      .ok tree) (hrange : ∀ other ∈ front, ¬other.OutOfRange) (hout : token.OutOfRange) :
    Program.parse lines = .error (.invalidNumber token.text token.line) := by
  have hclassified := TokenStream.classified_of_scan hscan
  have hkind : ∀ other ∈ (front ++ token :: rest).map Token.tamed, other.kind ≠ .endOfInput := by
    intro other hother
    obtain ⟨found, hfound, rfl⟩ := List.mem_map.1 hother
    rw [kind_tamed]
    exact (hclassified found hfound).ne_endOfInput
  have hwithin : ∀ other ∈ front, other.Within lines.length := by
    intro other hother
    have hmem := List.mem_append_left (token :: rest) hother
    exact ⟨hclassified other hmem, Token.line_le_of_scan hscan other hmem⟩
  have hlive : Live lines.length (ofProgram true).agenda := ⟨rfl, trivial⟩
  obtain ⟨spine, hrun, -⟩ := run_of_ofStream hkind h
  unfold Program.parse
  rw [TokenStream.ofLines_of_scan hscan]
  exact Program.ofStream_eq_error.2 (run_of_outOfRange hlive hwithin hrange hout hrun)

end Programs

/-! ## The law -/

/-- Lines that would be a program with a zero in the place of each number out of range
are that program if there are none, and then a walk over it meets the values of the
integers in their order. Otherwise the first number out of range is refused. -/
theorem numbers_are_exact_or_the_first_out_of_range_is_refused {lines : List String}
    {tokens : List Token} {tree : Option Node} (hscan : Token.scan lines = .ok tokens)
    (htamed : Program.ofStream true ⟨tokens.map Token.tamed, .input lines.length⟩ = .ok tree) :
    ((∀ token ∈ tokens, ¬token.OutOfRange) → Program.parse lines = .ok tree ∧
      Node.ints (tree.elim [] Node.walk) = (tokens.filter (·.kind = .intLiteral)).map
        fun token => (decimalValue token.text : Int)) ∧
    ∀ front token rest, tokens = front ++ token :: rest →
      (∀ other ∈ front, ¬other.OutOfRange) → token.OutOfRange →
        Program.parse lines = .error (.invalidNumber token.text token.line) := by
  constructor
  · intro hrange
    have hparse := parse_of_inRange hscan htamed hrange
    exact ⟨hparse, ints_of_tree hscan hrange hparse⟩
  · rintro front token rest rfl hrange hout
    exact parse_of_outOfRange hscan htamed hrange hout

/-- The greatest integer may stand behind a minus and have zeros in front, and its
successor may not. -/
theorem the_successor_of_the_greatest_integer_is_refused :
    let lines := ["array a[1, -009223372036854775807]", "print(-9223372036854775808, 1e999)"]
    let front : List Token := [⟨.kwArray, "array", 1⟩, ⟨.identifier, "a", 1⟩,
      ⟨.openBracket, "[", 1⟩, ⟨.intLiteral, "1", 1⟩, ⟨.comma, ",", 1⟩, ⟨.minus, "-", 1⟩,
      ⟨.intLiteral, "009223372036854775807", 1⟩, ⟨.closeBracket, "]", 1⟩, ⟨.kwPrint, "print", 2⟩,
      ⟨.openParen, "(", 2⟩, ⟨.minus, "-", 2⟩]
    let token : Token := ⟨.intLiteral, "9223372036854775808", 2⟩
    let rest : List Token := [⟨.comma, ",", 2⟩, ⟨.realLiteral, "1e999", 2⟩, ⟨.closeParen, ")", 2⟩]
    Token.scan lines = .ok (front ++ token :: rest) ∧
      (∃ tree, Program.ofStream true
        ⟨(front ++ token :: rest).map Token.tamed, .input lines.length⟩ = .ok tree) ∧
      (∀ other ∈ front, ¬other.OutOfRange) ∧ token.OutOfRange ∧
      Program.parse lines = .error (.invalidNumber "9223372036854775808" 2) := by
  intro lines front token rest
  have hscan : Token.scan lines = .ok (front ++ token :: rest) := by decide +kernel
  have htamed : ∃ tree, Program.ofStream true
      ⟨(front ++ token :: rest).map Token.tamed, .input lines.length⟩ = .ok tree := by
    have hzeros : (front ++ token :: rest).map Token.tamed =
        front ++ ⟨.intLiteral, "0", 2⟩ :: rest.set 1 ⟨.realLiteral, "0.0", 2⟩ := by
      decide +kernel
    rw [hzeros]
    exact ⟨_, rfl⟩
  have hrange : ∀ other ∈ front, ¬other.OutOfRange := by decide +kernel
  have hout : token.OutOfRange := by decide +kernel
  obtain ⟨tree, htree⟩ := htamed
  have hlaw := numbers_are_exact_or_the_first_out_of_range_is_refused hscan htree
  exact ⟨hscan, ⟨tree, htree⟩, hrange, hout, hlaw.2 front token rest rfl hrange hout⟩

end Pseudocode
