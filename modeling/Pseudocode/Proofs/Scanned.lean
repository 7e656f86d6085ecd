-- What the tokens of a program are like: each has the kind that the form of its
-- text gives it, and none is the end of the input.
import Pseudocode.Token.Stream

namespace Pseudocode

/-- What goes on after a result has had that result. -/
theorem bind_eq_ok {ε α β : Type} {first : Except ε α} {next : α → Except ε β} {result : β} :
    (first >>= next) = .ok result ↔ ∃ value, first = .ok value ∧ next value = .ok result := by
  cases first with
  | error fault => simp [bind, Except.bind]
  | ok value => simp [bind, Except.bind]

/-- What goes on after a result fails where the result fails or what comes after it. -/
theorem bind_eq_error {ε α β : Type} {first : Except ε α} {next : α → Except ε β} {fault : ε} :
    (first >>= next) = .error fault ↔
      first = .error fault ∨ ∃ value, first = .ok value ∧ next value = .error fault := by
  cases first with
  | error other => simp [bind, Except.bind]
  | ok value => simp [bind, Except.bind]

/-! ## The kinds that a form can give -/

theorem TokenKind.ofText?_ne_endOfInput (text : String) :
    TokenKind.ofText? text ≠ some .endOfInput := by
  intro h
  have ht : TokenKind.text? .endOfInput = some text := TokenKind.ofText?_eq_some_iff.1 h
  cases ht

theorem Fragment.classify?_ne_endOfInput (text : String) :
    Fragment.classify? text ≠ some .endOfInput := by
  unfold Fragment.classify?
  split
  · rename_i kind hk
    intro h
    cases h
    exact TokenKind.ofText?_ne_endOfInput text hk
  · dsimp only
    repeat' split
    all_goals simp

/-! ## Lexemes and tokens -/

/-- A token without its line. -/
def Token.lexeme (token : Token) : Lexeme := ⟨token.kind, token.text⟩

/-- A token has the kind of its text. -/
def Token.Classified (token : Token) : Prop :=
  Fragment.classify? token.text = some token.kind

theorem Token.Classified.ne_endOfInput {token : Token} (h : token.Classified) :
    token.kind ≠ .endOfInput := by
  intro hk
  unfold Token.Classified at h
  rw [hk] at h
  exact Fragment.classify?_ne_endOfInput _ h

namespace Lexeme

theorem classify?_of_ofFragment {fragment : List Char} {lexeme : Lexeme}
    (h : ofFragment fragment = .ok lexeme) :
    Fragment.classify? lexeme.text = some lexeme.kind := by
  unfold ofFragment at h
  split at h
  · rename_i kind hk
    cases h
    exact hk
  · cases h

theorem classify?_of_scanFrom {skip : Nat} {cs : List Char} {lexemes : List Lexeme}
    (h : scanFrom skip cs = .ok lexemes) :
    ∀ lexeme ∈ lexemes, Fragment.classify? lexeme.text = some lexeme.kind := by
  induction cs generalizing skip lexemes with
  | nil =>
    unfold scanFrom at h
    cases h
    simp
  | cons c cs ih =>
    cases skip with
    | succ skip => exact ih h
    | zero =>
      unfold scanFrom at h
      split at h
      · exact ih h
      · split at h
        · cases h
          simp
        · obtain ⟨fragment, -, h⟩ := bind_eq_ok.1 h
          obtain ⟨lexeme, hl, h⟩ := bind_eq_ok.1 h
          obtain ⟨others, ho, h⟩ := bind_eq_ok.1 h
          cases h
          intro found hf
          rcases List.mem_cons.1 hf with rfl | hf
          · exact classify?_of_ofFragment hl
          · exact ih ho found hf

end Lexeme

namespace Token

theorem classified_of_scanLine {line : Nat} {text : String} {tokens : List Token}
    (h : scanLine line text = .ok tokens) : ∀ token ∈ tokens, token.Classified := by
  unfold scanLine at h
  split at h
  · rename_i lexemes hl
    cases h
    intro token ht
    obtain ⟨lexeme, hm, rfl⟩ := List.mem_map.1 ht
    exact Lexeme.classify?_of_scanFrom hl lexeme hm
  · cases h

theorem line_of_scanLine {line : Nat} {text : String} {tokens : List Token}
    (h : scanLine line text = .ok tokens) : ∀ token ∈ tokens, token.line = line := by
  unfold scanLine at h
  split at h
  · cases h
    intro token ht
    obtain ⟨lexeme, -, rfl⟩ := List.mem_map.1 ht
    rfl
  · cases h

/-- The tokens of lines are those of the first line, and then those of the others. -/
theorem scanAfter_cons_eq_ok {line : Nat} {text : String} {texts : List String}
    {tokens : List Token} : scanAfter line (text :: texts) = .ok tokens ↔
      ∃ first others, scanLine (line + 1) text = .ok first ∧
        scanAfter (line + 1) texts = .ok others ∧ tokens = first ++ others := by
  rw [scanAfter, bind_eq_ok]
  constructor
  · rintro ⟨first, hfirst, h⟩
    obtain ⟨others, hothers, h⟩ := bind_eq_ok.1 h
    cases h
    exact ⟨first, others, hfirst, hothers, rfl⟩
  · rintro ⟨first, others, hfirst, hothers, rfl⟩
    exact ⟨first, hfirst, bind_eq_ok.2 ⟨others, hothers, rfl⟩⟩

/-- Lines fail where the first line fails, or behind it. -/
theorem scanAfter_cons_eq_error {line : Nat} {text : String} {texts : List String}
    {fault : Diagnostic} : scanAfter line (text :: texts) = .error fault ↔
      scanLine (line + 1) text = .error fault ∨ ∃ first, scanLine (line + 1) text = .ok first ∧
        scanAfter (line + 1) texts = .error fault := by
  rw [scanAfter, bind_eq_error]
  constructor
  · rintro (h | ⟨first, hfirst, h⟩)
    · exact .inl h
    · rcases bind_eq_error.1 h with h | ⟨others, -, hend⟩
      · exact .inr ⟨first, hfirst, h⟩
      · cases hend
  · rintro (h | ⟨first, hfirst, h⟩)
    · exact .inl h
    · exact .inr ⟨first, hfirst, bind_eq_error.2 (.inl h)⟩

/-- No token stands behind the last line. -/
theorem line_le_of_scanAfter {line : Nat} {texts : List String} {tokens : List Token}
    (h : scanAfter line texts = .ok tokens) : ∀ token ∈ tokens, token.line ≤ line + texts.length := by
  induction texts generalizing line tokens with
  | nil =>
    cases h
    simp
  | cons text texts ih =>
    obtain ⟨first, others, hf, ho, rfl⟩ := scanAfter_cons_eq_ok.1 h
    intro token ht
    rw [List.length_cons]
    rcases List.mem_append.1 ht with ht | ht
    · rw [line_of_scanLine hf token ht]
      omega
    · have := ih ho token ht
      omega

theorem line_le_of_scan {lines : List String} {tokens : List Token} (h : scan lines = .ok tokens) :
    ∀ token ∈ tokens, token.line ≤ lines.length := by
  intro token ht
  have := line_le_of_scanAfter h token ht
  omega

end Token

namespace TokenStream

theorem classified_after (line : Nat) (texts : List String) :
    ∀ token ∈ (after line texts).tokens, token.Classified := by
  induction texts generalizing line with
  | nil => simp [after]
  | cons text texts ih =>
    unfold after
    cases hs : Token.scanLine (line + 1) text with
    | error diagnostic => simp
    | ok tokens =>
      intro token ht
      rcases List.mem_append.1 ht with ht | ht
      · exact Token.classified_of_scanLine hs token ht
      · exact ih (line + 1) token ht

/-- The stream of a program without a lexical fault is what the scan finds, up
to the end of the input on the last line. -/
theorem ofLines_of_scan {lines : List String} {tokens : List Token}
    (h : Token.scan lines = .ok tokens) : ofLines lines = ⟨tokens, .input lines.length⟩ := by
  rw [← toExcept_ofLines] at h
  unfold toExcept at h
  split at h
  · rename_i last he
    have hlast : last = 0 + lines.length := ending_after he
    rw [Nat.zero_add] at hlast
    cases h
    rw [← hlast, ← he]
  · cases h

/-- All tokens of a program have the kinds of their texts. -/
theorem classified_of_scan {lines : List String} {tokens : List Token}
    (h : Token.scan lines = .ok tokens) : ∀ token ∈ tokens, token.Classified := by
  have hc : ∀ token ∈ (ofLines lines).tokens, token.Classified := classified_after 0 lines
  rwa [ofLines_of_scan h] at hc

end TokenStream

end Pseudocode
