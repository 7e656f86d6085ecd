-- What is accepted as a program: the tokens that the grammar derives and in
-- which every statement stands where it may.
import Pseudocode.Proofs.Scanned
import Pseudocode.Proofs.Statement.Completeness
import Pseudocode.Proofs.Statement.Soundness

namespace Pseudocode

open Node (placedAll)
open Reading

/-! ## What a run leaves -/

section Run

variable {reading : Reading} {tokens rest : List Token} {ending : Ending} {spine : Spine}

/-- A run leaves tokens from the end of those it was given. -/
theorem suffix_of_run (h : reading.run tokens ending = .ok (spine, rest)) : rest <:+ tokens := by
  induction tokens generalizing reading with
  | nil =>
    cases ending with
    | fault diagnostic => cases h
    | input last =>
      simp only [run] at h
      split at h
      · cases h
      · cases h
        exact List.suffix_rfl
      · cases h
        exact List.suffix_rfl
  | cons token tokens ih =>
    simp only [run] at h
    split at h
    · cases h
    · cases h
      exact List.suffix_rfl
    · exact (ih h).trans (List.suffix_cons token tokens)

/-- A run that ends well before a fault does not see what is behind the tokens. -/
theorem run_input_of_fault {diagnostic : Diagnostic} (last : Nat)
    (h : reading.run tokens (.fault diagnostic) = .ok (spine, rest)) :
    reading.run tokens (.input last) = .ok (spine, rest) ∧ rest ≠ [] := by
  induction tokens generalizing reading with
  | nil => cases h
  | cons token tokens ih =>
    simp only [run] at h ⊢
    split at h
    · cases h
    · cases h
      exact ⟨rfl, by simp⟩
    · exact ih h

/-- A run that ends well ends so when the input ends, and leaves no token when
it does not end with a fault. -/
theorem run_input (last : Nat) (h : reading.run tokens ending = .ok (spine, rest))
    (he : ∀ line, ending = .input line → line = last) :
    reading.run tokens (.input last) = .ok (spine, rest) ∧
      (rest = [] → ending = .input last) := by
  cases ending with
  | input line =>
    rw [he line rfl] at h ⊢
    exact ⟨h, fun _ => rfl⟩
  | fault diagnostic =>
    obtain ⟨hr, hne⟩ := run_input_of_fault last h
    exact ⟨hr, fun hnil => absurd hnil hne⟩

end Run

/-! ## Whole programs -/

section Programs

variable {enforced : Bool} {last : Nat} {tokens rest : List Token} {spine : Spine}
  {ns : List Node}

/-- A run over a whole program gives the statements that the grammar derives. -/
theorem derives_of_program (hc : ∀ token ∈ tokens, token.kind ≠ .endOfInput)
    (h : (ofProgram enforced).run tokens (.input last) = .ok (spine, rest)) :
    rest = [] ∧ ∃ ns, Construct.Derives enforced .statements tokens ns [] ∧
      placedAll (.top enforced) ns = true ∧ spine.nodes = ns := by
  have hsuffix := suffix_of_run h
  have h' : run ⟨[.await (.program (.top enforced))] ++ [], .empty⟩ tokens (.input last) =
      .ok (spine, rest) := h
  obtain ⟨spine', us, hw, -, hr⟩ := works_of_run (sound_statementMeaning last) h'
  obtain ⟨middle, left, ⟨ns, hd, hp, hend, rfl⟩, rfl, rfl⟩ := hw
  rw [run_done] at hr
  cases hr
  have hrest : rest = [] := by
    cases rest with
    | nil => rfl
    | cons token others =>
      have hmem : token ∈ tokens := hsuffix.subset (by simp)
      exact absurd (hend token rfl) (hc token hmem)
  subst hrest
  exact ⟨rfl, ns, hd, hp, Spine.nodes_addAll _ _⟩

/-- Statements that the grammar derives and that may stand where they do are
read from the first to the last, behind whatever has been built. -/
theorem run_statements (h : Construct.Derives enforced .statements tokens ns [])
    (hp : placedAll (.top enforced) ns = true) (spine : Spine) :
    run ⟨[.await (.program (.top enforced))], spine⟩ tokens (.input last) =
      .ok (spine.addAll ns, []) := by
  have hloop : Goal.LoopsOver (.top enforced) (.program (.top enforced)) :=
    Goal.loopsOver_program (.top enforced)
  have hsep : Separate [] := by
    intro token ht
    cases ht
  have hr := (Construct.settles_of_placed last h (.top enforced) rfl hp hsep).2 _ hloop [] spine
  have hleave : (Goal.program (.top enforced)).react (nextToken last []) = .leave [] := rfl
  rw [hr, stoppedBy_nil, run_leave hleave, Spine.steps_nil, run_done]

theorem program_of_derives (h : Construct.Derives enforced .statements tokens ns [])
    (hp : placedAll (.top enforced) ns = true) :
    (ofProgram enforced).run tokens (.input last) = .ok (Spine.empty.addAll ns, []) :=
  run_statements h hp .empty

theorem ofSpine_eq_some_iff {program : Node} :
    Program.ofSpine spine = some program ↔
      spine.nodes ≠ [] ∧ program = .tree .program spine.nodes := by
  unfold Program.ofSpine
  split
  · rename_i hn
    simp [hn]
  · rename_i node nodes hn
    simp [hn, eq_comm]

/-- Only no tokens at all make no statements. -/
theorem nil_of_statements (h : Construct.Derives enforced .statements tokens [] []) :
    tokens = [] := by
  cases h
  rfl

end Programs

section Parse

variable {lines : List String} {program : Node}

theorem derives_of_parse (h : Program.parse lines = .ok (some program)) :
    ∃ tokens, Token.scan lines = .ok tokens ∧ tokens ≠ [] ∧ DerivesProgram true tokens program ∧
      program.placed (.top true) = true := by
  unfold Program.parse Program.ofStream at h
  split at h
  · rename_i spine rest hrun
    obtain ⟨hnodes, rfl⟩ := ofSpine_eq_some_iff.1 (Except.ok.inj h)
    have hc := TokenStream.classified_after 0 lines
    have hlast : ∀ line, (TokenStream.ofLines lines).ending = .input line →
        line = 0 + lines.length := fun line he => TokenStream.ending_after he
    obtain ⟨hinput, hend⟩ := run_input _ hrun hlast
    obtain ⟨hrest, ns, hd, hp, hns⟩ :=
      derives_of_program (fun token ht => (hc token ht).ne_endOfInput) hinput
    have hscan : Token.scan lines = .ok (TokenStream.ofLines lines).tokens := by
      rw [← TokenStream.toExcept_ofLines]
      unfold TokenStream.toExcept
      rw [hend hrest]
    refine ⟨_, hscan, ?_, ⟨ns, by rw [hns], hd⟩, ?_⟩
    · intro hnil
      rw [hnil] at hinput
      cases hinput
      exact hnodes rfl
    · rw [hns]
      exact hp
  · cases h

theorem parse_of_derives {tokens : List Token} (hscan : Token.scan lines = .ok tokens)
    (hne : tokens ≠ []) (hd : DerivesProgram true tokens program)
    (hp : program.placed (.top true) = true) : Program.parse lines = .ok (some program) := by
  obtain ⟨ns, rfl, hd⟩ := hd
  have hns : ns ≠ [] := by
    rintro rfl
    exact hne (nil_of_statements hd)
  have hnodes : (Spine.empty.addAll ns).nodes = ns := Spine.nodes_addAll _ _
  have hs : Program.ofSpine (Spine.empty.addAll ns) = some (.tree .program ns) :=
    ofSpine_eq_some_iff.2 ⟨by rwa [hnodes], by rw [hnodes]⟩
  unfold Program.parse Program.ofStream
  rw [TokenStream.ofLines_of_scan hscan]
  simp only [program_of_derives hd hp, hs]

end Parse

end Pseudocode
