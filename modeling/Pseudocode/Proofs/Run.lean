-- The laws of a run: what the goal in front of the agenda does with the token
-- that comes next, and how a meaning of the goals carries over to whole runs.
import Pseudocode.Program.Reading
import Pseudocode.Proofs.Reaction.Exact

namespace Pseudocode

/-! ## Building a row of nodes -/

@[simp] theorem Shape.node_tree (label : Label) (parts : List Node) :
    (Shape.tree label).node parts = .tree label parts := rfl

@[simp] theorem Shape.node_array (isGlobal : Bool) (name : String) (parts : List Node) :
    (Shape.array isGlobal name).node parts = .array isGlobal name parts [] := rfl

namespace Spine

/-- Adds finished children in order. -/
def addAll (spine : Spine) (nodes : List Node) : Spine :=
  { spine with built := nodes.reverse ++ spine.built }

@[simp] theorem addAll_nil (spine : Spine) : spine.addAll [] = spine := rfl

@[simp] theorem addAll_addAll (spine : Spine) (first others : List Node) :
    (spine.addAll first).addAll others = spine.addAll (first ++ others) := by
  simp [addAll]

@[simp] theorem step_leaf (spine : Spine) (label : Label) :
    spine.step (.leaf label) = spine.addAll [.tree label []] := rfl

@[simp] theorem step_start (spine : Spine) (shape : Shape) :
    spine.step (.start shape) = spine.start shape := rfl

@[simp] theorem step_wrap (spine : Spine) (shape : Shape) (first : Node) :
    (spine.addAll [first]).step (.wrap shape) = (spine.start shape).addAll [first] := rfl

/-- A node that is opened and filled is one more child when it is closed. -/
@[simp] theorem step_close (spine : Spine) (shape : Shape) (parts : List Node) :
    ((spine.start shape).addAll parts).step .close = spine.addAll [shape.node parts] := by
  simp [step, close, start, addAll, nodes]

@[simp] theorem nodes_addAll (spine : Spine) (nodes : List Node) :
    (spine.addAll nodes).nodes = spine.nodes ++ nodes := by
  simp [Spine.nodes, addAll]

end Spine

namespace Reading

variable {agenda items : List Item} {spine : Spine} {tokens : List Token} {token : Token}
  {ending : Ending} {last : Nat} {goal : Goal}

/-! ## One item of the agenda -/

/-- The token that comes next; behind the last one it is the end of the input. -/
def nextToken (last : Nat) : List Token → Token
  | [] => .endOfInput last
  | token :: _ => token

@[simp] theorem nextToken_cons : nextToken last (token :: tokens) = token := rfl

theorem run_done : run ⟨[], spine⟩ tokens (.input last) = .ok (spine, tokens) := by
  cases tokens <;> rfl

@[simp] theorem run_build {step : Step} :
    run ⟨.build step :: agenda, spine⟩ tokens ending =
      run ⟨agenda, spine.step step⟩ tokens ending := by
  cases tokens with
  | nil => cases ending <;> rfl
  | cons token tokens => rfl

theorem run_take (h : goal.react token = .take items) :
    run ⟨.await goal :: agenda, spine⟩ (token :: tokens) ending =
      run ⟨items ++ agenda, spine⟩ tokens ending := by
  simp only [run, feed, offer, h]

theorem run_leave {steps : List Step} (h : goal.react (nextToken last tokens) = .leave steps) :
    run ⟨.await goal :: agenda, spine⟩ tokens (.input last) =
      run ⟨agenda, spine.steps steps⟩ tokens (.input last) := by
  cases tokens <;> simp only [nextToken] at h <;> simp only [run, feed, offer, h]

theorem run_taken (h : Opening.Takes token (.goal goal) items) :
    run ⟨.await goal :: agenda, spine⟩ (token :: tokens) ending =
      run ⟨items ++ agenda, spine⟩ tokens ending :=
  run_take h.react_eq

theorem run_left {steps : List Step} (h : Opening.Leaves (nextToken last tokens) goal steps) :
    run ⟨.await goal :: agenda, spine⟩ tokens (.input last) =
      run ⟨agenda, spine.steps steps⟩ tokens (.input last) :=
  run_leave h.react_eq

theorem run_fail {diagnostic : Diagnostic}
    (h : goal.react (nextToken last tokens) = .fail diagnostic) :
    run ⟨.await goal :: agenda, spine⟩ tokens (.input last) = .error diagnostic := by
  cases tokens <;> simp only [nextToken] at h <;> simp only [run, feed, offer, h]

theorem run_builds {steps : List Step} :
    run ⟨steps.map .build ++ agenda, spine⟩ tokens ending =
      run ⟨agenda, spine.steps steps⟩ tokens ending := by
  induction steps generalizing spine with
  | nil => rfl
  | cons step steps ih => rw [List.map_cons, List.cons_append, run_build, ih, Spine.steps_cons]

/-- A goal that reacts like another one, with steps before it and more items
behind it. -/
theorem run_wrapped {goal' : Goal} (before : List Step) (after : List Item)
    (h : goal.react token = (goal'.react token).wrapped (before.map .build) after)
    (hr : ∀ steps, goal'.react token ≠ .leave steps) :
    run ⟨.await goal :: agenda, spine⟩ (token :: tokens) (.input last) =
      run ⟨.await goal' :: (after ++ agenda), spine.steps before⟩ (token :: tokens)
        (.input last) := by
  cases hg : goal'.react token with
  | take items =>
    rw [hg] at h
    rw [run_take hg, run_take h]
    simp only [List.append_assoc, run_builds]
  | leave steps => exact absurd hg (hr steps)
  | fail diagnostic =>
    have hf : goal.react (nextToken last (token :: tokens)) = .fail diagnostic := by
      rw [nextToken_cons, h, hg]
      rfl
    have hf' : goal'.react (nextToken last (token :: tokens)) = .fail diagnostic := hg
    rw [run_fail hf, run_fail hf']

theorem run_followed {goal' : Goal} (after : List Item)
    (h : goal.react token = (goal'.react token).followed after)
    (hr : ∀ steps, goal'.react token ≠ .leave steps) :
    run ⟨.await goal :: agenda, spine⟩ (token :: tokens) (.input last) =
      run ⟨.await goal' :: (after ++ agenda), spine⟩ (token :: tokens) (.input last) :=
  run_wrapped [] after h hr

/-! ## The end of the input -/

/-- No goal takes the end of the input. -/
theorem react_ne_take (h : token.kind = .endOfInput) (goal : Goal) (items : List Item) :
    goal.react token ≠ .take items :=
  fun hr => (Opening.reacts_goal_iff.2 hr).ne_endOfInput rfl h

/-! ## Meanings of goals -/

/-- A meaning says of each goal which change of the spine and which tokens
left behind can come of it. -/
abbrev Meaning := Goal → Spine → List Token → Spine → List Token → Prop

/-- What comes of a row of items, one after the other, when the goals among
them have a meaning. -/
def Works (M : Meaning) : List Item → Spine → List Token → Spine → List Token → Prop
  | [], spine, tokens, spine', rest => spine' = spine ∧ rest = tokens
  | .build step :: items, spine, tokens, spine', rest =>
    Works M items (spine.step step) tokens spine' rest
  | .await goal :: items, spine, tokens, spine', rest =>
    ∃ middle left, M goal spine tokens middle left ∧ Works M items middle left spine' rest

/-- What comes of a reaction to the next one of the tokens. -/
def Leads (M : Meaning) (reaction : Reaction) (spine : Spine) (tokens : List Token)
    (spine' : Spine) (rest : List Token) : Prop :=
  match reaction with
  | .take items => ∃ token left, tokens = token :: left ∧ Works M items spine left spine' rest
  | .leave steps => spine' = spine.steps steps ∧ rest = tokens
  | .fail _ => False

/-- A meaning that every reaction bears out. -/
def Sound (last : Nat) (M : Meaning) : Prop :=
  ∀ goal spine tokens spine' rest,
    Leads M (goal.react (nextToken last tokens)) spine tokens spine' rest →
      M goal spine tokens spine' rest

variable {M N : Meaning} {spine' : Spine} {rest : List Token}

@[simp] theorem works_build {step : Step} :
    Works M (.build step :: items) spine tokens spine' rest ↔
      Works M items (spine.step step) tokens spine' rest := Iff.rfl

@[simp] theorem works_await :
    Works M (.await goal :: items) spine tokens spine' rest ↔
      ∃ middle left, M goal spine tokens middle left ∧ Works M items middle left spine' rest :=
  Iff.rfl

theorem works_append {others : List Item} :
    Works M (items ++ others) spine tokens spine' rest ↔
      ∃ middle left, Works M items spine tokens middle left ∧
        Works M others middle left spine' rest := by
  induction items generalizing spine tokens with
  | nil =>
    constructor
    · exact fun h => ⟨spine, tokens, ⟨rfl, rfl⟩, h⟩
    · rintro ⟨_, _, ⟨rfl, rfl⟩, h⟩
      exact h
  | cons item items ih =>
    cases item with
    | build step => simp only [List.cons_append, works_build, ih]
    | await goal =>
      simp only [List.cons_append, works_await, ih]
      constructor
      · rintro ⟨s₁, t₁, h₁, s₂, t₂, h₂, h₃⟩
        exact ⟨s₂, t₂, ⟨s₁, t₁, h₁, h₂⟩, h₃⟩
      · rintro ⟨s₂, t₂, ⟨s₁, t₁, h₁, h₂⟩, h₃⟩
        exact ⟨s₁, t₁, h₁, s₂, t₂, h₂, h₃⟩

theorem works_mono (hMN : ∀ goal s ts s' us, M goal s ts s' us → N goal s ts s' us)
    (h : Works M items spine tokens spine' rest) : Works N items spine tokens spine' rest := by
  induction items generalizing spine tokens with
  | nil => exact h
  | cons item items ih =>
    cases item with
    | build step => exact ih h
    | await goal =>
      obtain ⟨middle, left, h₁, h₂⟩ := h
      exact ⟨middle, left, hMN _ _ _ _ _ h₁, ih h₂⟩

theorem leads_mono {reaction : Reaction}
    (hMN : ∀ goal s ts s' us, M goal s ts s' us → N goal s ts s' us)
    (h : Leads M reaction spine tokens spine' rest) :
    Leads N reaction spine tokens spine' rest := by
  cases reaction with
  | take items =>
    obtain ⟨token, left, ht, hw⟩ := h
    exact ⟨token, left, ht, works_mono hMN hw⟩
  | leave steps => exact h
  | fail diagnostic => exact h

theorem works_builds {steps : List Step} :
    Works M (steps.map .build ++ items) spine tokens spine' rest ↔
      Works M items (spine.steps steps) tokens spine' rest := by
  induction steps generalizing spine with
  | nil => exact Iff.rfl
  | cons step steps ih => simp only [List.map_cons, List.cons_append, works_build, ih, Spine.steps_cons]

/-- A reaction with steps ahead of it and more items behind it does first what
it does alone, after the steps. -/
theorem leads_wrapped {reaction : Reaction} (before : List Step) {after : List Item}
    (hr : ∀ steps, reaction ≠ .leave steps)
    (h : Leads M (reaction.wrapped (before.map .build) after) spine tokens spine' rest) :
    ∃ middle left, Leads M reaction (spine.steps before) tokens middle left ∧
      Works M after middle left spine' rest := by
  cases reaction with
  | take items =>
    obtain ⟨token, left, ht, hw⟩ := h
    rw [List.append_assoc, works_builds, works_append] at hw
    obtain ⟨middle, left', h₁, h₂⟩ := hw
    exact ⟨middle, left', ⟨token, left, ht, h₁⟩, h₂⟩
  | leave steps => exact absurd rfl (hr steps)
  | fail diagnostic => exact h.elim

theorem leads_followed {reaction : Reaction} {after : List Item}
    (hr : ∀ steps, reaction ≠ .leave steps)
    (h : Leads M (reaction.followed after) spine tokens spine' rest) :
    ∃ middle left, Leads M reaction spine tokens middle left ∧
      Works M after middle left spine' rest := by
  have hw : Leads M (reaction.wrapped (([] : List Step).map .build) after) spine tokens spine'
      rest := h
  exact leads_wrapped [] hr hw

/-- A run that ends well has worked off the front of its agenda as a sound
meaning says, and has not gone back in the tokens. -/
theorem works_of_run (hM : Sound last M) {result : Spine × List Token}
    (h : run ⟨items ++ agenda, spine⟩ tokens (.input last) = .ok result) :
    ∃ spine' rest, Works M items spine tokens spine' rest ∧ rest.length ≤ tokens.length ∧
      run ⟨agenda, spine'⟩ rest (.input last) = .ok result := by
  induction hn : tokens.length using Nat.strongRecOn
    generalizing items agenda spine tokens with
  | ind n outer =>
  subst hn
  induction items generalizing spine tokens with
  | nil => exact ⟨spine, tokens, ⟨rfl, rfl⟩, Nat.le_refl _, h⟩
  | cons item items ih =>
    cases item with
    | build step =>
      rw [List.cons_append, run_build] at h
      exact ih h outer
    | await goal =>
      rw [List.cons_append] at h
      cases hr : goal.react (nextToken last tokens) with
      | fail diagnostic =>
        rw [run_fail hr] at h
        exact absurd h (by simp)
      | leave steps =>
        rw [run_leave hr] at h
        obtain ⟨spine', rest, hw, hl, h'⟩ := ih h outer
        refine ⟨spine', rest, ⟨_, _, hM _ _ _ _ _ ?_, hw⟩, hl, h'⟩
        rw [hr]
        exact ⟨rfl, rfl⟩
      | take taken =>
        cases tokens with
        | nil => exact absurd hr (react_ne_take rfl goal taken)
        | cons token tokens =>
          have ht : goal.react token = .take taken := hr
          rw [run_take ht] at h
          obtain ⟨middle, left, hw, hl, h'⟩ :=
            outer tokens.length (Nat.lt_succ_self _) h rfl
          have hlt : left.length < (token :: tokens).length := Nat.lt_succ_of_le hl
          obtain ⟨spine', rest, hw', hl', h''⟩ := outer left.length hlt h' rfl
          refine ⟨spine', rest, ⟨middle, left, hM _ _ _ _ _ ?_, hw'⟩, by omega, h''⟩
          rw [hr]
          exact ⟨token, tokens, rfl, hw⟩

end Reading

end Pseudocode
