-- The canonical texts of literals, each of which is one token with the value
-- of the literal.
import Pseudocode.Proofs.Canonical.Pieces
import Pseudocode.Proofs.Expression.Meaning

namespace Pseudocode

open Text
open Decimal (digitsOf toList_toString_natCast)

/-- A literal with the value of the label is in front. -/
abbrev Literal (label : Label) : TokenRel := One fun token => Phrase.Literal token label

/-- Only the literal of a number has the value of a number. -/
theorem kind_of_isNumber {token : Token} {label : Label} (h : Phrase.Literal token label)
    (hn : label.isNumber = true) : token.kind = .intLiteral ∨ token.kind = .realLiteral := by
  cases h with
  | int hk _ => exact .inl hk
  | real hk _ => exact .inr hk
  | str | bool => cases hn

/-! ## Numbers -/

section Numbers

variable {text : String} {n : Numeral}

/-- A numeral begins with a digit, so it is the literal of a number. -/
theorem classify?_numeral (ht : text.toList = n.text) :
    Fragment.classify? text =
      if Fragment.isDigits n.text then some .intLiteral
      else if Fragment.isReal n.text then some .realLiteral
      else if Fragment.isQuoted n.text then some .strLiteral
      else none := by
  have hnext := n.digitNext_text []
  rw [List.append_nil] at hnext
  cases hcs : n.text with
  | nil =>
    rw [hcs] at hnext
    cases hnext
  | cons c cs =>
    rw [hcs] at ht hnext
    exact classify?_literal ht (.inl hnext)

theorem classify?_real (ht : text.toList = n.text) (hn : n.IsReal) :
    Fragment.classify? text = some .realLiteral := by
  rw [classify?_numeral ht, Numeral.not_isDigits_text hn, Numeral.isReal_text hn]
  rfl

/-- A whole number as a numeral. -/
def Numeral.ofNat (k : Nat) : Numeral where
  whole := digitsOf k
  fraction := []
  exponent := []
  whole_ne_nil := Decimal.digitsOf_ne_nil k
  whole_digits := fun _ hc => Decimal.isDigit_of_mem_digitsOf hc
  fraction_digits := by simp
  exponent_form := .inl rfl

theorem Numeral.text_ofNat (k : Nat) : (Numeral.ofNat k).text = digitsOf k := by
  simp [Numeral.text, Numeral.point, Numeral.ofNat]

theorem isDigits_digitsOf (k : Nat) : Fragment.isDigits (digitsOf k) = true := by
  unfold Fragment.isDigits
  rw [Bool.and_eq_true, List.all_eq_true]
  exact ⟨by simp [Decimal.digitsOf_ne_nil], fun c hc => Decimal.isDigit_of_mem_digitsOf hc⟩

theorem classify?_natCast (k : Nat) :
    Fragment.classify? (toString (k : Int)) = some .intLiteral := by
  have ht : (toString (k : Int)).toList = (Numeral.ofNat k).text := by
    rw [toList_toString_natCast, Numeral.text_ofNat]
  rw [classify?_numeral ht, Numeral.text_ofNat, if_pos (isDigits_digitsOf k)]

theorem open_int {value : Int} (h : 0 ≤ value) (hlt : value < 2 ^ 63) :
    Open (Literal (.int value)) (toString value) := by
  obtain ⟨k, rfl⟩ := Int.eq_ofNat_of_zero_le h
  have ht : (toString (k : Int)).toList = (Numeral.ofNat k).text := by
    rw [toList_toString_natCast, Numeral.text_ofNat]
  refine ⟨[⟨.intLiteral, toString (k : Int)⟩],
    fun rest => spells_numeral ht (classify?_natCast k), ?_⟩
  intro line us
  refine ⟨_, rfl, ?_⟩
  have hvalue : decimalValue (toString (k : Int)) = k := by
    rw [← wholeOf_eq_decimalValue, toList_toString_natCast, Decimal.wholeOf_digitsOf]
  have hrange : k < 2 ^ 63 := by exact_mod_cast hlt
  have hl : Phrase.Literal ⟨.intLiteral, toString (k : Int), line⟩
      (.int (decimalValue (toString (k : Int)))) := .int rfl (by rwa [hvalue])
  rwa [hvalue] at hl

/-- A number that is not negative is written as a numeral that is read back. -/
theorem exists_numeral (rank : Fin infinityRank) : ∃ n : Numeral,
    (Binary64.text (.finite false rank)).toList = n.text ∧ n.IsReal ∧
      Binary64.ofNumeral n.text = .finite false rank := by
  obtain ⟨n, htext, hreal, hvalue⟩ := Binary64.numeral_of_magnitude rank
  refine ⟨n, ?_, hreal, hvalue⟩
  rw [htext]
  simp [Binary64.text, Binary64.sign]

theorem open_real (rank : Fin infinityRank) :
    Open (Literal (.real (.finite false rank))) (Binary64.text (.finite false rank)) := by
  obtain ⟨n, ht, hreal, hvalue⟩ := exists_numeral rank
  have hk := classify?_real ht hreal
  refine ⟨[⟨.realLiteral, Binary64.text (.finite false rank)⟩],
    fun rest => spells_numeral ht hk, ?_⟩
  intro line us
  refine ⟨_, rfl, .real rfl ?_⟩
  dsimp only [Lexeme.onLine]
  rw [ht, hvalue]

end Numbers

/-! ## Texts and truth values -/

/-- The quotes are of a sort that the text does not have. -/
theorem open_str {value : String} (h : IsQuotable value) :
    Open (Literal (.str value)) (Node.literalText value) := by
  have main : ∃ quote : Char, (quote = '"' ∨ quote = '\'') ∧ quote ∉ value.toList ∧
      (Node.literalText value).toList = quote :: (value.toList ++ [quote]) := by
    unfold Node.literalText
    by_cases hd : '"' ∈ value.toList
    · refine ⟨'\'', .inr rfl, fun hs => h ⟨hd, hs⟩, ?_⟩
      rw [if_pos (by simpa using hd), String.toList_append, String.toList_append]
      rfl
    · refine ⟨'"', .inl rfl, hd, ?_⟩
      rw [if_neg (by simpa using hd), String.toList_append, String.toList_append]
      rfl
  obtain ⟨quote, hquote, hmem, ht⟩ := main
  refine ⟨[⟨.strLiteral, Node.literalText value⟩],
    fun rest _ => spells_quoted hquote hmem ht rest, ?_⟩
  intro line us
  refine ⟨_, rfl, ?_⟩
  have hvalue : Token.unquoted ⟨.strLiteral, Node.literalText value, line⟩ = value := by
    unfold Token.unquoted
    simp [ht]
  have hl : Phrase.Literal ⟨.strLiteral, Node.literalText value, line⟩
      (.str (Token.unquoted ⟨.strLiteral, Node.literalText value, line⟩)) := .str rfl
  rwa [hvalue] at hl

theorem classify?_bool (value : Bool) :
    Fragment.classify? (toString value) = some .boolLiteral := by
  cases value <;> decide +kernel

theorem open_bool (value : Bool) : Open (Literal (.bool value)) (toString value) := by
  refine ⟨[⟨.boolLiteral, toString value⟩], fun rest => spells_word rfl (classify?_bool value), ?_⟩
  intro line us
  refine ⟨_, rfl, ?_⟩
  have hvalue : decide (toString value = "true") = value := by cases value <;> rfl
  have hl : Phrase.Literal ⟨.boolLiteral, toString value, line⟩
      (.bool (toString value = "true")) := .bool rfl
  rwa [hvalue] at hl

/-- A literal is read as itself. -/
theorem open_literal {n : Node} (h : n.Formed .literal) :
    ∃ label, n = .tree label [] ∧ label.isCompound = false ∧ Open (Literal label) n.expression := by
  cases h with
  | int hpos hlt => exact ⟨_, rfl, rfl, open_int hpos hlt⟩
  | real => exact ⟨_, rfl, rfl, open_real _⟩
  | str hq => exact ⟨_, rfl, rfl, open_str hq⟩
  | bool => exact ⟨_, rfl, rfl, open_bool _⟩

end Pseudocode
