-- What a reading awaits matches the constructs that its tokens have left open.
-- For each of them, from the innermost one outwards, the agenda holds the block
-- it is in and behind the block the goal that ends it; with each token the agenda
-- and the open constructs change alike.
import Pseudocode.Proofs.Blocks.Enclosure
import Pseudocode.Proofs.Diagnosis.Located

namespace Pseudocode

open Goal Reaction Reading Enclosure
open Item (Loose)

/-! ## Agendas and open constructs -/

/-- A goal that goes on with a construct or ends it, behind the block of the construct. -/
inductive Closes : Enclosure → Goal → Prop
  | branch (ctx) : Closes .branch (.otherBranches ctx)
  | elseBranch : Closes .elseBranch (.token .kwEndIf)
  | forLoop : Closes .forLoop (.token .kwNext)
  | whileLoop : Closes .whileLoop (.token .kwEndWhile)
  | doLoop : Closes .doLoop (.token .kwUntil)
  | clause (ctx afterDefault) : Closes .clause (.clauses ctx afterDefault)
  | subroutine (sort : Subroutine) : Closes (.subroutine sort) (.token sort.closing)

/-- An agenda awaits the ends of the open constructs, the innermost one first.
Tokens up to the line `bound` have been read. -/
inductive Nested (bound : Nat) : List Item → List Enclosure → Prop
  | program (ctx) : Nested bound [.await (.program ctx)] []
  | build (step) {items stack} : Nested bound items stack →
      Nested bound (.build step :: items) stack
  | loose {goal items stack} : goal.isLoose bound = true → Nested bound items stack →
      Nested bound (.await goal :: items) stack
  | counter (ctx) {items stack} : Nested bound items stack →
      Nested bound (.await (.counter ctx) :: items) (.forLoop :: stack)
  | clauses (ctx afterDefault) {items stack} : Nested bound items stack →
      Nested bound (.await (.clauses ctx afterDefault) :: items) (.switch :: stack)
  | subroutineName (ctx sort) {items stack} : Nested bound items stack →
      Nested bound (.await (.subroutineName ctx sort) :: items) (.subroutine sort :: stack)
  | classDeclName (ctx) {items stack} : Nested bound items stack →
      Nested bound (.await (.classDeclName ctx) :: items) (.classDecl :: stack)
  | members (ctx) {items stack} : Nested bound items stack →
      Nested bound (.await (.members ctx) :: items) (.classDecl :: stack)
  | member (ctx isPublic) {items stack} : Nested bound items stack →
      Nested bound (.await (.member ctx isPublic) :: items) stack
  | block (ctx) {enclosure stops goal items stack} (steps : List Step) :
      enclosure.stops? = some stops → Closes enclosure goal → Nested bound items stack →
      Nested bound (.await (.block ctx stops) :: (steps.map .build ++ .await goal :: items))
        (enclosure :: stack)

namespace Nested

variable {bound : Nat} {items rest : List Item} {stack : List Enclosure}

theorem of_loose (hi : Loose bound items) (h : Nested bound rest stack) :
    Nested bound (items ++ rest) stack := by
  induction items with
  | nil => exact h
  | cons item items ih =>
    obtain ⟨hitem, hitems⟩ : item.isLoose bound = true ∧ Loose bound items := by
      unfold Loose at hi
      rwa [List.all_cons, Bool.and_eq_true] at hi
    cases item with
    | build step => exact .build step (ih hitems)
    | await goal => exact .loose hitem (ih hitems)

theorem of_builds {steps : List Step} (h : Nested bound rest stack) :
    Nested bound (steps.map .build ++ rest) stack :=
  of_loose (Item.loose_builds steps) h

/-- A block of statements with the goal that ends its construct, as it is taken up. -/
theorem of_block {ctx : Context} {enclosure : Enclosure} {stops : List TokenKind} {goal : Goal}
    (steps : List Step) (hs : enclosure.stops? = some stops) (hc : Closes enclosure goal)
    (h : Nested bound rest stack) :
    Nested bound (Item.block ctx stops ++ (steps.map .build ++ .await goal :: rest))
      (enclosure :: stack) :=
  .build _ (.block ctx (.close :: steps) hs hc h)

end Nested

/-- Whether a goal is of the head of a construct or of what comes behind a block
of it, so that it is met by a token or not at all. -/
def Goal.isFirm : Goal → Bool
  | token _ | otherBranches _ | counter _ | clauses _ _ | subroutineName _ _ | classDeclName _
  | members _ | member _ _ => true
  | _ => false

/-! ## What is taken up -/

namespace Reaction

/-- What is taken up in front of the rest awaits the ends of the constructs that
are open behind the token, where `stack` is open before it. -/
def Opens (bound : Nat) (rest : List Item) (stack : List Enclosure) (kind : TokenKind) :
    Reaction → Prop
  | take items => Nested bound (items ++ rest) (step stack kind)
  | _ => True

variable {bound : Nat} {rest after : List Item} {stack : List Enclosure} {kind : TokenKind}
  {reaction : Reaction} {items : List Item}

theorem opens_wrapped (before : List Step) (h : reaction.Opens bound (after ++ rest) stack kind) :
    (reaction.wrapped (before.map .build) after).Opens bound rest stack kind := by
  cases reaction with
  | leave steps => trivial
  | fail d => trivial
  | take items =>
    simp only [wrapped, Opens, List.append_assoc]
    exact Nested.of_builds h

theorem opens_followed (h : reaction.Opens bound (after ++ rest) stack kind) :
    (reaction.followed after).Opens bound rest stack kind :=
  opens_wrapped [] h

theorem opens_guarded {fault : Option Misplacement} {line : Nat}
    (h : reaction.Opens bound rest stack kind) :
    (guarded fault line reaction).Opens bound rest stack kind := by
  cases fault with
  | none => exact h
  | some what => trivial

/-- What stays inside opens nothing. -/
theorem opens_of_inside (h : Nested bound rest stack) (hr : reaction.StaysInside bound kind) :
    reaction.Opens bound rest stack kind := by
  cases reaction with
  | leave steps => trivial
  | fail d => trivial
  | take items =>
    rw [Opens, step_of_inside hr.2]
    exact .of_loose hr.1 h

theorem nested_of_take (h : reaction.Opens bound rest stack kind) (hr : reaction = take items) :
    Nested bound (items ++ rest) (step stack kind) := by
  rw [hr] at h
  exact h

/-- A token of a certain kind is taken. -/
theorem opens_take {found : TokenKind} (hk : found = kind)
    (h : Nested bound (items ++ rest) (step stack kind)) :
    (take items).Opens bound rest stack found := by
  rw [Opens, hk]
  exact h

end Reaction

/-- What is open in front of what begins with a token, where `stack` is open around it. -/
inductive Opening.Stands (stack : List Enclosure) : Opening → List Enclosure → Prop
  | statement {ctx} : Stands stack (statement ctx) stack
  | subroutine {ctx sort} : Stands stack (subroutine ctx sort) stack
  | member {ctx isPublic} : Stands stack (goal (.member ctx isPublic)) stack
  | counter {ctx} : Stands stack (goal (.counter ctx)) (.forLoop :: stack)
  | otherBranches {ctx} : Stands stack (goal (.otherBranches ctx)) (.branch :: stack)
  | clauses {ctx afterDefault} (enclosure : Enclosure) :
      Stands stack (goal (.clauses ctx afterDefault)) (enclosure :: stack)
  | subroutineName {ctx sort} :
      Stands stack (goal (.subroutineName ctx sort)) (.subroutine sort :: stack)
  | classDeclName {ctx} : Stands stack (goal (.classDeclName ctx)) (.classDecl :: stack)
  | members {ctx} : Stands stack (goal (.members ctx)) (.classDecl :: stack)
  | mark {kind enclosure} : step (enclosure :: stack) kind = stack →
      Stands stack (goal (.token kind)) (enclosure :: stack)

section Reactions

variable {bound : Nat} {rest : List Item} {stack : List Enclosure} {token : Token} {ctx : Context}

theorem nested_branchItems {goal : Goal} (hc : Closes .branch goal) (h : Nested bound rest stack) :
    Nested bound (branchItems ctx ++ .await goal :: rest) (.branch :: stack) := by
  have hloose : Loose bound [Item.start .branch, Item.expression, Item.token .kwThen] := rfl
  simp only [branchItems, List.append_assoc]
  exact .of_loose hloose (.of_block [.close] rfl hc h)

theorem nested_clauseItems {afterDefault : Bool} (h : Nested bound rest stack) :
    Nested bound (clauseItems ctx afterDefault ++ rest) (.clause :: stack) := by
  have hloose : Loose bound [Item.token .colon] := rfl
  simp only [clauseItems, List.append_assoc]
  exact .of_loose hloose (.of_block [.close] rfl (.clause ctx afterDefault) h)

variable {opening : Opening} {before : List Enclosure} {items : List Item} {reaction : Reaction}

/-- The first token of a statement opens what the statement is, if it is a construct. -/
theorem nested_of_statement (h : (Opening.statement ctx).Takes token items)
    (hn : Nested bound rest stack) : Nested bound (items ++ rest) (step stack token.kind) := by
  cases h with
  | globalStatement hk | array hk | print hk =>
    rw [hk]
    exact .of_loose rfl hn
  | ifStatement hk =>
    rw [hk, List.append_assoc, List.append_assoc]
    exact .build _ (nested_branchItems (.branch ctx) (.build _ hn))
  | forLoop hk =>
    rw [hk]
    exact .build _ (.counter ctx (.build _ hn))
  | whileLoop hk =>
    have hloose : Loose bound [Item.start .whileLoop, Item.expression] := rfl
    rw [hk, List.append_assoc, List.append_assoc]
    exact .of_loose hloose (.of_block [] rfl .whileLoop (.build _ hn))
  | doLoop hk =>
    rw [hk, List.append_assoc, List.append_assoc]
    exact .build _ (.of_block [] rfl .doLoop (.loose rfl (.build _ hn)))
  | switch hk =>
    rw [hk]
    exact .build _ (.loose rfl (.loose rfl (.clauses ctx false (.build _ hn))))

theorem nested_of_subroutineName {sort : Subroutine} {name : String}
    (hn : Nested bound rest stack) :
    Nested bound ([Item.start (subroutineLabel sort name), Item.token .openParen,
      Item.start .params, .await .parameters, Item.close, Item.token .closeParen] ++
      Item.block (ctx.inBody sort) [sort.closing] ++ [Item.token sort.closing, Item.close] ++ rest)
      (.subroutine sort :: stack) := by
  rw [List.append_assoc, List.append_assoc]
  exact .of_loose rfl (.of_block [] rfl (.subroutine sort) (.build _ hn))

/-- With a token that is taken the agenda and the open constructs change alike. -/
theorem Opening.Takes.nested (h : opening.Takes token items) (ho : opening.Stands stack before)
    (hn : Nested bound rest stack) : Nested bound (items ++ rest) (step before token.kind) := by
  cases ho with
  | statement => exact nested_of_statement h hn
  | subroutine => cases h
  | member =>
    cases h with
    | fieldMember hk =>
      rw [hk]
      exact .of_loose rfl hn
  | counter =>
    cases h with
    | counter hk =>
      have hloose : Loose bound [Item.leaf (.identifier token.text), Item.token .assign,
        Item.expression, Item.token .kwTo, Item.expression] := rfl
      rw [hk, List.append_assoc, List.append_assoc]
      exact .of_loose hloose (.of_block [] rfl .forLoop (.loose rfl hn))
  | otherBranches =>
    cases h with
    | elseIf hk =>
      rw [hk, List.append_assoc]
      exact nested_branchItems (.branch _) hn
    | elseBranch hk =>
      rw [hk]
      exact .build _ (.of_block [.close] rfl .elseBranch hn)
    | endIf hk =>
      rw [hk]
      exact hn
  | clauses enclosure =>
    cases h with
    | endSwitch hk =>
      rw [hk]
      exact hn
  | subroutineName =>
    cases h with
    | subroutineName hk =>
      have hinside : ∀ kind ∈ [TokenKind.identifier, .kwNew], kind.isInside = true := by decide
      rw [step_of_inside (hinside _ hk)]
      exact nested_of_subroutineName hn
  | classDeclName =>
    cases h with
    | classDeclName hk =>
      rw [hk]
      exact .loose rfl (.members _ (.build _ hn))
  | members =>
    cases h with
    | endClass hk =>
      rw [hk]
      exact hn
    | publicMember hk =>
      rw [hk]
      exact .member _ true (.members _ hn)
    | privateMember hk =>
      rw [hk]
      exact .member _ false (.members _ hn)
  | mark hstep =>
    cases h with
    | mark hk =>
      rw [hk, hstep]
      exact hn

theorem opens_of_reacts (h : opening.Reacts token reaction) (ho : opening.Stands stack before)
    (hn : Nested bound rest stack) (hline : token.line ≤ bound) :
    reaction.Opens bound rest before token.kind := by
  have hvalue : ∀ ctx, Loose bound [.await (.returnValue ctx token.line)] := by
    intro ctx
    simpa [Loose, Item.isLoose, Goal.isLoose] using hline
  induction h generalizing rest stack before with
  | taken h => exact h.nested ho hn
  | left | lacking | unexpected | refusal => trivial
  | literal hk | outOfRange hk => cases ho <;> cases hk
  | caseClause hk =>
    cases ho
    refine opens_guarded (opens_take hk ?_)
    rw [List.append_assoc]
    exact .build _ (.loose rfl (nested_clauseItems hn))
  | defaultClause hk =>
    cases ho
    exact opens_guarded (opens_take hk (.build _ (nested_clauseItems hn)))
  | function hk =>
    cases ho
    exact opens_guarded (opens_take hk (.subroutineName _ _ hn))
  | procedure hk =>
    cases ho
    exact opens_guarded (opens_take hk (.subroutineName _ _ hn))
  | classDecl hk =>
    cases ho
    exact opens_guarded (opens_take hk (.classDeclName _ hn))
  | returnStatement hk =>
    cases ho
    exact opens_of_inside hn (staysInside_takeUnless (by rw [hk]; rfl) (hvalue _))
  | breakStatement hk | continueStatement hk =>
    cases ho
    exact opens_of_inside hn (staysInside_takeUnless (by rw [hk]; rfl) rfl)
  | chainStatement _ h _ =>
    cases ho
    exact opens_of_inside hn (staysInside_of_reacts h rfl)
  | subroutineStatement _ ih =>
    cases ho
    exact ih .subroutine hn
  | subroutineMember _ ih =>
    cases ho
    exact opens_wrapped [_] (ih .subroutine (.build _ hn))
  | unmarkedMember _ _ ih =>
    cases ho
    exact opens_followed (ih .member (.members _ hn))
  | base | primary | unary | arguments | indices | chain | globalChain | parameters | returnValue
  | block | program => cases ho

theorem nested_of_onStatement (h : onStatement ctx token = take items)
    (hn : Nested bound rest stack) (hline : token.line ≤ bound) :
    Nested bound (items ++ rest) (step stack token.kind) :=
  nested_of_take (opens_of_reacts (Opening.reacts_statement ctx token) .statement hn hline) h

/-- The goal behind a block goes on with the construct of the block or ends it. -/
theorem Closes.stands {enclosure : Enclosure} {goal : Goal} (hc : Closes enclosure goal) :
    (Opening.goal goal).Stands stack (enclosure :: stack) := by
  cases hc with
  | branch => exact .otherBranches
  | clause => exact .clauses .clause
  | subroutine sort => exact .mark (by cases sort <;> rfl)
  | _ => exact .mark rfl

/-- The goals of the head of a construct, and those behind its block, are met by
a token or not at all. -/
theorem react_ne_leave {goal : Goal} (h : goal.isFirm = true) (steps : List Step) :
    goal.react token ≠ .leave steps := by
  intro hr
  cases Opening.leaves_of_react hr <;> cases h

theorem Closes.firm {enclosure : Enclosure} {goal : Goal} (hc : Closes enclosure goal) :
    goal.isFirm = true := by
  cases hc <;> rfl

end Reactions

/-! ## One token -/

section Tokens

variable {bound : Nat} {agenda : List Item} {stack : List Enclosure} {spine : Spine}
  {token : Token} {reading next : Reading} {goal : Goal}

/-- A token that is taken is taken by the goal in front, or the goal is left and
the token is taken behind it. -/
theorem offer_await_cases (h : offer (.await goal :: agenda) spine token = .ok (.taken next)) :
    (∃ items, goal.react token = .take items ∧ next = ⟨items ++ agenda, spine⟩) ∨
      ∃ steps, goal.react token = .leave steps ∧
        offer agenda (spine.steps steps) token = .ok (.taken next) := by
  rw [offer] at h
  split at h
  · rename_i items hr
    cases h
    exact .inl ⟨items, hr, rfl⟩
  · rename_i steps hr
    exact .inr ⟨steps, hr, h⟩
  · cases h

theorem offer_builds {steps : List Step} :
    offer (steps.map .build ++ agenda) spine token = offer agenda (spine.steps steps) token := by
  induction steps generalizing spine with
  | nil => rfl
  | cons step steps ih => exact ih

/-- A goal in front that cannot be left takes the token. -/
theorem nested_of_firm {before : List Enclosure} (hg : goal.isFirm = true)
    (ho : (Opening.goal goal).Stands stack before) (hn : Nested bound agenda stack)
    (hline : token.line ≤ bound)
    (h : offer (.await goal :: agenda) spine token = .ok (.taken next)) :
    Nested bound next.agenda (step before token.kind) := by
  rcases offer_await_cases h with ⟨items, hr, rfl⟩ | ⟨steps, hr, -⟩
  · exact nested_of_take (opens_of_reacts (Opening.reacts_goal_iff.2 rfl) ho hn hline) hr
  · exact absurd hr (react_ne_leave hg steps)

/-- With each token the agenda and the open constructs change alike. -/
theorem Nested.of_offer (h : Nested bound agenda stack) (hline : token.line ≤ bound)
    (hf : offer agenda spine token = .ok (.taken next)) :
    Nested bound next.agenda (step stack token.kind) := by
  -- The induction goes down the agenda: a goal that is left leaves the constructs
  -- behind it as they are, except that a block is left only to the goal that ends it.
  induction h generalizing spine with
  | program ctx =>
    rcases offer_await_cases hf with ⟨items, hr, rfl⟩ | ⟨steps, -, hf⟩
    · obtain ⟨begun, hs, rfl⟩ := Opening.take_of_program hr
      rw [List.append_assoc]
      exact nested_of_onStatement hs (.program ctx) hline
    · cases hf
  | build step _ ih => exact ih hf
  | loose hgoal hrest ih =>
    rcases offer_await_cases hf with ⟨items, hr, rfl⟩ | ⟨steps, -, hf⟩
    · exact nested_of_take (opens_of_inside hrest (react_staysInside hgoal)) hr
    · exact ih hf
  | counter _ hrest _ => exact nested_of_firm rfl .counter hrest hline hf
  | clauses _ _ hrest _ => exact nested_of_firm rfl (.clauses .switch) hrest hline hf
  | subroutineName _ _ hrest _ => exact nested_of_firm rfl .subroutineName hrest hline hf
  | classDeclName _ hrest _ => exact nested_of_firm rfl .classDeclName hrest hline hf
  | members _ hrest _ => exact nested_of_firm rfl .members hrest hline hf
  | member _ _ hrest _ => exact nested_of_firm rfl .member hrest hline hf
  | block ctx steps hs hc hrest _ =>
    rcases offer_await_cases hf with ⟨items, hr, rfl⟩ | ⟨_, -, hf⟩
    · obtain ⟨begun, hbegun, rfl⟩ := Opening.take_of_block hr
      rw [List.append_assoc]
      exact nested_of_onStatement hbegun (.block ctx steps hs hc hrest) hline
    · rw [offer_builds] at hf
      exact nested_of_firm hc.firm hc.stands hrest hline hf

theorem offer_await_finished {spine' : Spine}
    (h : offer (.await goal :: agenda) spine token = .ok (.finished spine')) :
    ∃ steps, goal.react token = .leave steps ∧
      offer agenda (spine.steps steps) token = .ok (.finished spine') := by
  rw [offer] at h
  split at h
  · cases h
  · rename_i steps hr
    exact ⟨steps, hr, h⟩
  · cases h

/-- Nothing more is awaited only at the end of the input, and only where nothing is open. -/
theorem Nested.not_finished (h : Nested bound agenda stack)
    (hk : token.kind = .endOfInput → stack ≠ []) (spine' : Spine) :
    offer agenda spine token ≠ .ok (.finished spine') := by
  intro hf
  induction h generalizing spine with
  | program ctx =>
    obtain ⟨steps, hr, -⟩ := offer_await_finished hf
    cases Opening.leaves_of_react hr with
    | program hend => exact hk hend rfl
  | build step _ ih => exact ih hk hf
  | loose hgoal hrest ih =>
    obtain ⟨steps, -, hf⟩ := offer_await_finished hf
    exact ih hk hf
  | block ctx steps hs hc hrest _ =>
    obtain ⟨_, -, hf⟩ := offer_await_finished hf
    rw [offer_builds] at hf
    obtain ⟨_, hr, -⟩ := offer_await_finished hf
    exact react_ne_leave hc.firm _ hr
  | _ =>
    obtain ⟨steps, hr, -⟩ := offer_await_finished hf
    exact react_ne_leave rfl steps hr

/-! ## Many tokens -/

variable {front rest : List Token} {ending : Ending} {result : Spine × List Token}

theorem Nested.of_after (h : Nested bound reading.agenda stack)
    (hline : ∀ token ∈ front, token.line ≤ bound) (ha : reading.after front = some next) :
    Nested bound next.agenda (front.foldl (fun stack token => step stack token.kind) stack) := by
  induction front generalizing reading stack with
  | nil =>
    cases ha
    exact h
  | cons token front ih =>
    rw [after] at ha
    split at ha
    · rename_i following hf
      have hstep := h.of_offer (hline token List.mem_cons_self) hf
      exact ih hstep (fun t ht => hline t (List.mem_cons_of_mem _ ht)) ha
    · cases ha

/-- Where tokens are read to their end, each of them is taken. -/
theorem Nested.after_of_run (h : Nested bound reading.agenda stack)
    (hfront : ∀ token ∈ front, token.line ≤ bound ∧ token.kind ≠ .endOfInput)
    (hr : reading.run (front ++ rest) ending = .ok result) :
    ∃ next, reading.after front = some next ∧ next.run rest ending = .ok result := by
  induction front generalizing reading stack with
  | nil => exact ⟨reading, rfl, hr⟩
  | cons token front ih =>
    obtain ⟨hline, hk⟩ := hfront token List.mem_cons_self
    rw [List.cons_append, run] at hr
    split at hr
    · cases hr
    · rename_i spine' hf
      exact absurd hf (h.not_finished (fun hend => absurd hend hk) spine')
    · rename_i following hf
      rw [after_cons hf]
      exact ih (h.of_offer hline hf) (fun t ht => hfront t (List.mem_cons_of_mem _ ht)) hr

end Tokens

end Pseudocode
