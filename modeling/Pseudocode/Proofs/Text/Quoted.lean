-- The quoted form of a text stands for that text only: no character is quoted
-- like another, and none like the beginning of another.
import Mathlib.Data.List.Basic
import Pseudocode.Proofs.Text.Lines
import Pseudocode.Text.Quoted

namespace Pseudocode

/-- A text is cut in one way only at the first place where a mark stands. -/
theorem append_mark_inj {α : Type} {mark : α} {front front' rest rest' : List α}
    (h : mark ∉ front) (h' : mark ∉ front')
    (heq : front ++ mark :: rest = front' ++ mark :: rest') : front = front' ∧ rest = rest' := by
  induction front generalizing front' with
  | nil =>
    cases front' with
    | nil => exact ⟨rfl, (List.cons.inj heq).2⟩
    | cons c front' => exact absurd (List.cons.inj heq).1 (List.ne_of_not_mem_cons h')
  | cons c front ih =>
    cases front' with
    | nil => exact absurd (List.cons.inj heq).1.symm (List.ne_of_not_mem_cons h)
    | cons d front' =>
      obtain ⟨rfl, htail⟩ := List.cons.inj heq
      obtain ⟨rfl, rfl⟩ :=
        ih (List.not_mem_of_not_mem_cons h) (List.not_mem_of_not_mem_cons h') htail
      exact ⟨rfl, rfl⟩

namespace Text

/-! ## Codes -/

section Codes

variable {n m : Nat} {c d : Char} {rest rest' : List Char}

theorem digitChar_inj : ∀ n < 16, ∀ m < 16, n.digitChar = m.digitChar → n = m := by decide

theorem toDigits_inj (h : Nat.toDigits 16 n = Nat.toDigits 16 m) : n = m := by
  induction n using Nat.strongRecOn generalizing m with
  | ind n ih =>
    rw [Nat.toDigits_eq_if (by decide), Nat.toDigits_eq_if (n := m) (by decide)] at h
    have hsome : ∀ k, Nat.toDigits 16 k ≠ [] := fun k => Nat.toDigits_ne_nil
    split at h
    · rename_i hn
      split at h
      · rename_i hm
        exact digitChar_inj n hn m hm (List.cons.inj h).1
      · cases hk : Nat.toDigits 16 (m / 16) with
        | nil => exact absurd hk (hsome _)
        | cons d ds => simp [hk] at h
    · split at h
      · cases hk : Nat.toDigits 16 (n / 16) with
        | nil => exact absurd hk (hsome _)
        | cons d ds => simp [hk] at h
      · rename_i hn hm
        obtain ⟨hfront, hlast⟩ := List.append_inj' h rfl
        have hquotient := ih (n / 16) (by omega) hfront
        have hremainder := digitChar_inj (n % 16) (by omega) (m % 16) (by omega)
          (List.cons.inj hlast).1
        omega

theorem mem_toDigits (h : c ∈ Nat.toDigits 16 n) : ∃ k < 16, c = k.digitChar := by
  induction n using Nat.strongRecOn with
  | ind n ih =>
    rw [Nat.toDigits_eq_if (by decide)] at h
    split at h
    · rename_i hn
      exact ⟨n, hn, List.mem_singleton.1 h⟩
    · rcases List.mem_append.1 h with h | h
      · exact ih (n / 16) (by omega) h
      · exact ⟨n % 16, by omega, List.mem_singleton.1 h⟩

theorem not_mem_toDigits (hc : ∀ k < 16, c ≠ Nat.digitChar k) : c ∉ Nat.toDigits 16 n := by
  intro hmem
  obtain ⟨k, hk, rfl⟩ := mem_toDigits hmem
  exact hc k hk rfl

theorem byCode_append_inj (h : byCode c ++ rest = byCode d ++ rest') : c = d ∧ rest = rest' := by
  unfold byCode at h
  simp only [List.append_assoc, List.cons_append, List.nil_append, List.cons.injEq, true_and] at h
  have hclosing : ∀ n, '\x7d' ∉ Nat.toDigits 16 n := fun n => not_mem_toDigits (by decide)
  obtain ⟨hdigits, hrest⟩ := append_mark_inj (hclosing _) (hclosing _) h
  exact ⟨Char.toNat_inj.1 (toDigits_inj hdigits), hrest⟩

end Codes

/-! ## Characters in quotes -/

/-- What a character is called behind a backslash. -/
def escapes : List (Char × Char) :=
  [('"', '"'), ('\\', '\\'), ('0', '\x00'), ('t', '\t'), ('r', '\r'), ('n', '\n')]

theorem escapes_inj : ∀ pair ∈ escapes, ∀ pair' ∈ escapes, pair.1 = pair'.1 → pair = pair' := by
  decide

theorem escapes_ne : ∀ pair ∈ escapes, pair.1 ≠ 'u' ∧ pair.1 ≠ '\n' := by decide

section Characters

variable {c d : Char} {rest rest' : List Char}

/-- A character stands for itself, has a name behind a backslash or goes by its code. -/
theorem quotedChar_cases (c : Char) : (quotedChar c = [c] ∧ c ≠ '\\' ∧ c ≠ '\n') ∨
    (∃ name, (name, c) ∈ escapes ∧ quotedChar c = ['\\', name]) ∨ quotedChar c = byCode c := by
  unfold quotedChar
  split
  · rename_i hc
    exact .inr (.inl ⟨'"', by subst hc; decide, rfl⟩)
  split
  · rename_i hc
    exact .inr (.inl ⟨'\\', by subst hc; decide, rfl⟩)
  split
  · rename_i hc
    exact .inr (.inl ⟨'0', by subst hc; decide, rfl⟩)
  split
  · rename_i hc
    exact .inr (.inl ⟨'t', by subst hc; decide, rfl⟩)
  split
  · rename_i hc
    exact .inr (.inl ⟨'r', by subst hc; decide, rfl⟩)
  split
  · rename_i hc
    exact .inr (.inl ⟨'n', by subst hc; decide, rfl⟩)
  split
  · exact .inr (.inr rfl)
  · rename_i hslash _ _ _ hfeed _
    exact .inl ⟨rfl, hslash, hfeed⟩

theorem byCode_eq (c : Char) : ∃ code, byCode c = '\\' :: 'u' :: code := ⟨_, rfl⟩

/-- No quoted character begins another. -/
theorem quotedChar_append_inj (h : quotedChar c ++ rest = quotedChar d ++ rest') :
    c = d ∧ rest = rest' := by
  obtain ⟨code, hcode⟩ := byCode_eq c
  obtain ⟨code', hcode'⟩ := byCode_eq d
  rcases quotedChar_cases c with ⟨hc, hslash, -⟩ | ⟨name, hname, hc⟩ | hc
  · rcases quotedChar_cases d with ⟨hd, -⟩ | ⟨name', -, hd⟩ | hd
    · rw [hc, hd] at h
      exact List.cons.inj h
    · rw [hc, hd] at h
      exact absurd (List.cons.inj h).1 hslash
    · rw [hc, hd, hcode'] at h
      exact absurd (List.cons.inj h).1 hslash
  · rcases quotedChar_cases d with ⟨hd, hslash, -⟩ | ⟨name', hname', hd⟩ | hd
    · rw [hc, hd] at h
      exact absurd (List.cons.inj h).1.symm hslash
    · rw [hc, hd] at h
      obtain ⟨hsame, hrest⟩ := List.cons.inj (List.cons.inj h).2
      exact ⟨(Prod.mk.inj (escapes_inj _ hname _ hname' hsame)).2, hrest⟩
    · rw [hc, hd, hcode'] at h
      exact absurd (List.cons.inj (List.cons.inj h).2).1 (escapes_ne _ hname).1
  · rcases quotedChar_cases d with ⟨hd, hslash, -⟩ | ⟨name', hname', hd⟩ | hd
    · rw [hc, hd, hcode] at h
      exact absurd (List.cons.inj h).1.symm hslash
    · rw [hc, hd, hcode] at h
      exact absurd (List.cons.inj (List.cons.inj h).2).1.symm (escapes_ne _ hname').1
    · rw [hc, hd] at h
      exact byCode_append_inj h

theorem quotedChar_ne_nil (c : Char) : quotedChar c ≠ [] := by
  obtain ⟨code, hcode⟩ := byCode_eq c
  rcases quotedChar_cases c with ⟨hc, -⟩ | ⟨name, -, hc⟩ | hc
  · simp [hc]
  · simp [hc]
  · simp [hc, hcode]

theorem not_mem_quotedChar (c : Char) : '\n' ∉ quotedChar c := by
  rcases quotedChar_cases c with ⟨hc, -, hfeed⟩ | ⟨name, hname, hc⟩ | hc
  · simpa [hc] using hfeed.symm
  · simpa [hc] using (escapes_ne _ hname).2.symm
  · have hdigits : '\n' ∉ Nat.toDigits 16 c.toNat := not_mem_toDigits (by decide)
    simpa [hc, byCode] using hdigits

end Characters

/-! ## Texts in quotes -/

theorem flatMap_quotedChar_inj {cs ds : List Char}
    (h : cs.flatMap quotedChar = ds.flatMap quotedChar) : cs = ds := by
  induction cs generalizing ds with
  | nil =>
    cases ds with
    | nil => rfl
    | cons d ds => exact absurd (List.append_eq_nil_iff.1 h.symm).1 (quotedChar_ne_nil d)
  | cons c cs ih =>
    cases ds with
    | nil => exact absurd (List.append_eq_nil_iff.1 h).1 (quotedChar_ne_nil c)
    | cons d ds =>
      rw [List.flatMap_cons, List.flatMap_cons] at h
      obtain ⟨rfl, hrest⟩ := quotedChar_append_inj h
      rw [ih hrest]

/-- Two texts are quoted alike only if they are the same. -/
theorem quoted_inj {a b : String} (h : quoted a = quoted b) : a = b := by
  unfold quoted at h
  have hinner := List.append_cancel_left (List.append_cancel_right (String.ofList_injective h))
  exact String.toList_inj.1 (flatMap_quotedChar_inj hinner)

/-- A text in quotes stays on one line. -/
theorem noFeed_quoted (text : String) : NoFeed (quoted text) := by
  unfold NoFeed quoted
  simp only [String.toList_ofList, List.mem_append, List.mem_flatMap, not_or, not_exists, not_and]
  exact ⟨⟨by decide, fun c _ => not_mem_quotedChar c⟩, by decide⟩

end Text

end Pseudocode
