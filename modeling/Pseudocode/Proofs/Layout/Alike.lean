-- Two layouts of one row of lexemes. Both are read alike, step by step: as long
-- as a `return` has the token behind it on its line in both or in neither, what
-- is built is the same, and what is wrong is wrong at the same place.
import Pseudocode.Proofs.Layout.Underway
import Pseudocode.Proofs.Scanned

namespace Pseudocode

open Goal Reaction Reading
open Item (Willing Lineless refusal?)

/-! ## Layouts -/

namespace Token

/-- Of each token but the last, whether it is a `return` and the token behind it
stands on its line. -/
def joins : List Token → List Bool
  | first :: second :: others =>
    (first.kind = .kwReturn && second.line = first.line) :: joins (second :: others)
  | _ => []

/-- The same lexemes in the same order, and every `return` shares its line with
the token behind it in both or in neither. -/
structure Alike (tokens tokens' : List Token) : Prop where
  same_lexemes : tokens.map lexeme = tokens'.map lexeme
  same_joins : joins tokens = joins tokens'

variable {token token' : Token} {tokens tokens' : List Token}

theorem eq_movedTo_of_lexeme (h : token.lexeme = token'.lexeme) :
    token' = token.movedTo token'.line :=
  eq_movedTo (congrArg Lexeme.kind h).symm (congrArg Lexeme.text h).symm

theorem Alike.tail (h : Alike (token :: tokens) (token' :: tokens')) : Alike tokens tokens' := by
  obtain ⟨hl, hj⟩ := h
  obtain ⟨-, hrest⟩ := List.cons.inj hl
  refine ⟨hrest, ?_⟩
  cases tokens with
  | nil =>
    rw [List.map_eq_nil_iff.1 hrest.symm]
  | cons second others =>
    obtain ⟨second', others', rfl, -, -⟩ := List.map_eq_cons_iff.1 hrest.symm
    exact (List.cons.inj hj).2

theorem Alike.joined {before before' : Token}
    (h : Alike (before :: token :: tokens) (before' :: token' :: tokens'))
    (hk : before.kind = .kwReturn) : token.line = before.line ↔ token'.line = before'.line := by
  have hk' : before'.kind = .kwReturn :=
    (congrArg Lexeme.kind (List.cons.inj h.same_lexemes).1).symm.trans hk
  have hj := (List.cons.inj h.same_joins).1
  simp only [hk, hk', decide_true, Bool.true_and, decide_eq_decide] at hj
  exact hj

/-- What stands in front of both and is no `return` joins nothing. -/
theorem Alike.cons (h : Alike tokens tokens') (ht : token.kind ≠ .kwReturn) :
    Alike (token :: tokens) (token :: tokens') := by
  obtain ⟨hl, hj⟩ := h
  refine ⟨congrArg (token.lexeme :: ·) hl, ?_⟩
  cases tokens with
  | nil =>
    rw [List.map_eq_nil_iff.1 hl.symm]
  | cons second others =>
    obtain ⟨second', others', rfl, -, -⟩ := List.map_eq_cons_iff.1 hl.symm
    simp only [joins, ht, decide_false, Bool.false_and, hj]

end Token

open Token (Alike)

/-! ## One token -/

/-- The same reading, whose next goal remembers another line. -/
def Reading.movedTo (reading : Reading) (line : Nat) : Reading :=
  ⟨reading.agenda.map (Item.movedTo line), reading.spine⟩

/-- The same outcome for a token on another line. -/
def Progress.movedTo (line : Nat) : Except Diagnostic Progress → Except Diagnostic Progress
  | .error d => .error (d.movedTo line)
  | .ok (.finished spine) => .ok (.finished spine)
  | .ok (.taken next) => .ok (.taken (next.movedTo line))

section Token

variable {ctx : Context} {before before' token token' : Token} {agenda : List Item}
  {spine : Spine} {reading next : Reading} {line : Nat} {d : Diagnostic}

/-- A goal that makes of a moved token what another one makes of the token. -/
theorem offer_await_movedTo {goal goal' : Goal} (h : Lineless agenda)
    (hr : goal'.react (token.movedTo line) = (goal.react token).movedTo line)
    (hrest : ∀ spine,
      offer agenda spine (token.movedTo line) = Progress.movedTo line (offer agenda spine token)) :
    offer (.await goal' :: agenda) spine (token.movedTo line) =
      Progress.movedTo line (offer (.await goal :: agenda) spine token) := by
  rw [offer, offer, hr]
  cases goal.react token with
  | take items =>
    simp only [Reaction.movedTo, Progress.movedTo, Reading.movedTo, List.map_append,
      Item.map_movedTo h]
  | leave steps => exact hrest _
  | fail d => rfl

/-- Goals that have no line to remember make of a moved token what they make of
the token, moved. -/
theorem offer_movedTo (h : Lineless agenda) :
    offer agenda spine (token.movedTo line) = Progress.movedTo line (offer agenda spine token) := by
  induction agenda generalizing spine with
  | nil => rfl
  | cons item agenda ih =>
    cases item with
    | build step => exact ih h
    | await goal =>
      obtain ⟨hgoal, hrest⟩ := Item.lineless_cons.1 h
      exact offer_await_movedTo hrest (react_movedTo hgoal) fun spine => ih hrest

/-- Where a value may follow a `return`, it does so on its line in both layouts
or in neither. -/
theorem onReturnValue_movedTo
    (hj : token.kind ≠ .endOfInput → (token.line = before.line ↔ line = before'.line)) :
    onReturnValue ctx before'.line (token.movedTo line) =
      (onReturnValue ctx before.line token).movedTo line := by
  by_cases hleft : token.kind = .endOfInput ∨ token.line ≠ before.line
  · have hleft' : token.kind = .endOfInput ∨ line ≠ before'.line := by
      by_cases hk : token.kind = .endOfInput
      · exact .inl hk
      · exact .inr (mt (hj hk).2 (hleft.resolve_left hk))
    have hr : onReturnValue ctx before.line token = _ := (Opening.Leaves.returnValue hleft).react_eq
    have hr' : onReturnValue ctx before'.line (token.movedTo line) = _ :=
      (Opening.Leaves.returnValue hleft').react_eq
    rw [hr, hr']
    rfl
  · obtain ⟨hk, hline⟩ := not_or.1 hleft
    have hline := Classical.not_not.1 hline
    have hr : onReturnValue ctx before.line token = _ :=
      (Opening.Reacts.returnValue hk hline (Opening.reacts_goal_iff.2 rfl)).react_eq
    have hk' : (token.movedTo line).kind ≠ .endOfInput := hk
    have hline' : (token.movedTo line).line = before'.line := (hj hk).1 hline
    have hr' : onReturnValue ctx before'.line (token.movedTo line) = _ :=
      (Opening.Reacts.returnValue hk' hline' (Opening.reacts_goal_iff.2 rfl)).react_eq
    have hlineless : (Goal.expression BinaryOperator.lowest).isLineless = true := rfl
    rw [hr, hr', ← hline']
    exact movedTo_guarded _ (movedTo_wrapped rfl rfl (react_movedTo hlineless))

/-- The agenda of a program makes of a moved token what it makes of the token,
moved, when a `return` before them is joined to both or to neither. -/
theorem offer_underway_movedTo (h : Underway ctx before agenda)
    (hj : before.kind = .kwReturn → token.kind ≠ .endOfInput →
      (token.line = before.line ↔ line = before'.line)) :
    offer (agenda.map (Item.movedTo before'.line)) spine (token.movedTo line) =
      Progress.movedTo line (offer agenda spine token) := by
  cases h with
  | within hf =>
    have hlineless := Underway.lineless_within ctx hf
    rw [Item.map_movedTo hlineless]
    exact offer_movedTo hlineless
  | behindReturn hk hf =>
    have hlineless := Underway.lineless_within ctx hf
    rw [List.map_cons, Item.map_movedTo hlineless]
    exact offer_await_movedTo hlineless (onReturnValue_movedTo (hj hk)) fun _ =>
      offer_movedTo hlineless

theorem feed_movedTo (token before' : Token) (line : Nat)
    (h : Underway ctx before reading.agenda)
    (hj : before.kind = .kwReturn → token.kind ≠ .endOfInput →
      (token.line = before.line ↔ line = before'.line)) :
    (reading.movedTo before'.line).feed (token.movedTo line) =
      Progress.movedTo line (reading.feed token) :=
  offer_underway_movedTo h hj

theorem refusal?_movedTo (h : refusal? agenda = some d) :
    refusal? (agenda.map (Item.movedTo line)) = some (d.movedTo line) := by
  induction agenda with
  | nil => cases h
  | cons item agenda ih =>
    cases item with
    | build step => exact ih h
    | await goal =>
      cases goal <;> cases h
      rfl

end Token

/-! ## Many tokens -/

/-- Both come to the same result, or both find the same thing wrong with the
same token, each with the line of the token in its own layout. -/
def Agree {α : Type} (tokens tokens' : List Token) (last last' : Nat) :
    Except Diagnostic α → Except Diagnostic α → Prop
  | .ok result, .ok result' => result' = result
  | .error d, .error d' => ∃ i, i ≤ tokens.length ∧
      d.Describes (nextToken last (tokens.drop i)) ∧
      d' = d.movedTo (nextToken last' (tokens'.drop i)).line
  | _, _ => False

section Tokens

variable {α β : Type} {ctx : Context} {before before' token token' : Token}
  {tokens tokens' : List Token} {last last' : Nat} {reading : Reading} {d : Diagnostic}
  {result result' : Except Diagnostic α}

theorem Agree.map (f : α → β) (h : Agree tokens tokens' last last' result result') :
    Agree tokens tokens' last last' (result.map f) (result'.map f) := by
  cases result <;> cases result'
  · exact h
  · exact h.elim
  · exact h.elim
  · exact congrArg f h

/-- The first token is wrong in both. -/
theorem Agree.first (h : d.Describes (nextToken last tokens)) :
    Agree tokens tokens' last last' (.error d : Except Diagnostic α)
      (.error (d.movedTo (nextToken last' tokens').line)) :=
  ⟨0, Nat.zero_le _, h, rfl⟩

theorem Agree.cons (h : Agree tokens tokens' last last' result result') :
    Agree (token :: tokens) (token' :: tokens') last last' result result' := by
  cases result <;> cases result'
  · obtain ⟨i, hi, h⟩ := h
    exact ⟨i + 1, Nat.succ_le_succ hi, h⟩
  · exact h.elim
  · exact h.elim
  · exact h

/-- What is built when tokens are read, without the tokens left. -/
def Reading.built (reading : Reading) (tokens : List Token) (last : Nat) :
    Except Diagnostic Spine :=
  (reading.run tokens (.input last)).map Prod.fst

/-- Where a refusal comes next, it is met in both. -/
theorem agree_of_refusal (hr : refusal? reading.agenda = some d) (hd : d.Describes token) :
    Agree (token :: tokens) (token' :: tokens') last last' (reading.built tokens last)
      ((reading.movedTo token'.line).built tokens' last') := by
  have hbuilt : reading.built tokens last = .error d := by
    unfold Reading.built
    rw [run_error (offer_refusal hr)]
    rfl
  have hbuilt' :
      (reading.movedTo token'.line).built tokens' last' = .error (d.movedTo token'.line) := by
    unfold Reading.built
    rw [run_error (offer_refusal (refusal?_movedTo hr))]
    rfl
  rw [hbuilt, hbuilt']
  exact Agree.first hd

/-- Two layouts of the tokens from some place on are read alike, when what came
before them was read alike. -/
theorem agree_of_alike (h : Alike (before :: tokens) (before' :: tokens'))
    (hu : Underway ctx before reading.agenda) :
    Agree tokens tokens' last last' (reading.built tokens last)
      ((reading.movedTo before'.line).built tokens' last') := by
  induction tokens generalizing reading before before' tokens' with
  | nil =>
    have hnil : tokens' = [] := List.map_eq_nil_iff.1 (List.cons.inj h.same_lexemes).2.symm
    subst hnil
    have hmoved := feed_movedTo (.endOfInput last) before' last' hu fun _ hk => absurd rfl hk
    change Reading.feed _ (.endOfInput last') = _ at hmoved
    simp only [Reading.built, run, hmoved]
    cases hf : reading.feed (.endOfInput last) with
    | error d => exact Agree.first (describes_of_feed hu.willing hf)
    | ok progress => cases progress <;> rfl
  | cons token tokens ih =>
    obtain ⟨token', others', rfl, hlexeme, -⟩ :=
      List.map_eq_cons_iff.1 (List.cons.inj h.same_lexemes).2.symm
    have ht := Token.eq_movedTo_of_lexeme hlexeme.symm
    have hmoved := feed_movedTo token before' token'.line hu fun hk _ => h.joined hk
    rw [← ht] at hmoved
    cases hf : reading.feed token with
    | error d =>
      simp only [Reading.built, run, hmoved, hf]
      exact Agree.first (describes_of_feed hu.willing hf)
    | ok progress =>
      cases progress with
      | finished spine =>
        simp only [Reading.built, run, hmoved, hf]
        rfl
      | taken next =>
        have hbuilt : reading.built (token :: tokens) last = next.built tokens last := by
          simp only [Reading.built, run, hf]
        have hbuilt' : (reading.movedTo before'.line).built (token' :: others') last' =
            (next.movedTo token'.line).built others' last' := by
          simp only [Reading.built, run, hmoved, hf, Progress.movedTo]
        rw [hbuilt, hbuilt']
        rcases willing_of_feed hu.willing hf with hw | ⟨d, hr, hd⟩
        · exact (ih h.tail (hu.of_feed hf hw)).cons
        · exact agree_of_refusal hr hd

end Tokens

/-! ## Programs -/

namespace Program

theorem ofStream_eq_map (enforced : Bool) (tokens : List Token) (last : Nat) :
    ofStream enforced ⟨tokens, .input last⟩ =
      ((ofProgram enforced).built tokens last).map ofSpine := by
  unfold ofStream Reading.built
  cases (ofProgram enforced).run tokens (.input last) <;> rfl

/-- Two layouts of a program are read alike. -/
theorem ofStream_agree {enforced : Bool} {tokens tokens' : List Token} {last last' : Nat}
    (h : Alike tokens tokens') :
    Agree tokens tokens' last last' (ofStream enforced ⟨tokens, .input last⟩)
      (ofStream enforced ⟨tokens', .input last'⟩) := by
  have hfront : Alike (.endOfInput 0 :: tokens) (.endOfInput 0 :: tokens') := h.cons (by decide)
  rw [ofStream_eq_map, ofStream_eq_map]
  exact (agree_of_alike hfront Underway.start).map ofSpine

end Program

/-- Two lists of lines that are scanned as the same lexemes in the same order, in
which every `return` shares its line with the token behind it in both or in
neither, are the same program, or both are none, or the same thing is wrong with
both at the same token, each time reported with the line of that token. -/
theorem layout_does_not_matter_except_behind_a_return {lines lines' : List String}
    {tokens tokens' : List Token} (h : Token.scan lines = .ok tokens)
    (h' : Token.scan lines' = .ok tokens') (hl : tokens.map Token.lexeme = tokens'.map Token.lexeme)
    (hj : Token.joins tokens = Token.joins tokens') :
    Agree tokens tokens' lines.length lines'.length (Program.parse lines)
      (Program.parse lines') := by
  unfold Program.parse
  rw [TokenStream.ofLines_of_scan h, TokenStream.ofLines_of_scan h']
  exact Program.ofStream_agree ⟨hl, hj⟩

/-- A value that is missing on the second line of one layout is missing on the
fifth line of another. -/
theorem a_missing_value_is_reported_on_its_line_in_each_layout :
    let lines := ["function f() return a endfunction", "b = )"]
    let lines' := ["function f()", "  return a", "endfunction b", "= // nothing", ")"]
    let kinds : List Lexeme := [⟨.kwFunction, "function"⟩, ⟨.identifier, "f"⟩, ⟨.openParen, "("⟩,
      ⟨.closeParen, ")"⟩, ⟨.kwReturn, "return"⟩, ⟨.identifier, "a"⟩,
      ⟨.kwEndFunction, "endfunction"⟩, ⟨.identifier, "b"⟩, ⟨.assign, "="⟩, ⟨.closeParen, ")"⟩]
    let tokens := List.zipWith Lexeme.onLine kinds [1, 1, 1, 1, 1, 1, 1, 2, 2, 2]
    let tokens' := List.zipWith Lexeme.onLine kinds [1, 1, 1, 1, 2, 2, 3, 3, 4, 5]
    let d : Diagnostic := .expected .expression ")" 2
    Token.scan lines = .ok tokens ∧ Token.scan lines' = .ok tokens' ∧
      tokens.map Token.lexeme = tokens'.map Token.lexeme ∧
      Token.joins tokens = Token.joins tokens' ∧
      Program.parse lines = .error d ∧ Program.parse lines' = .error (d.movedTo 5) ∧
      Agree tokens tokens' 2 5 (Program.parse lines) (Program.parse lines') := by
  intro lines lines' kinds tokens tokens' d
  have hscan : Token.scan lines = .ok tokens := rfl
  have hscan' : Token.scan lines' = .ok tokens' := rfl
  have hl : tokens.map Token.lexeme = tokens'.map Token.lexeme := rfl
  have hj : Token.joins tokens = Token.joins tokens' := rfl
  exact ⟨hscan, hscan', hl, hj, rfl, rfl,
    layout_does_not_matter_except_behind_a_return hscan hscan' hl hj⟩

end Pseudocode
