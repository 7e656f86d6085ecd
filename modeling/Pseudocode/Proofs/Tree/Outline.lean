-- The outline of a tree can be read back: the depth of each line says which node
-- it belongs to, and its heading says the rest. So no two programs that are
-- different trees have one outline.
import Pseudocode.Proofs.Canonical.RoundTrip
import Pseudocode.Proofs.Tree.Levels

namespace Pseudocode

open Text Node

/-! ## The trees of programs are clear -/

section Formed

variable {label : Label} {n : Node} {ns : List Node}

theorem Node.Clear.leaf (h : label.Clear) : (Node.tree label []).Clear :=
  .tree h (by simp)

theorem Node.Clear.block (h : ∀ n ∈ ns, n.Clear) : (Node.tree .block ns).Clear :=
  .tree trivial h

theorem clear_of_operation (h : label.IsOperation) : label.Clear := by
  obtain ⟨kind, level, ho⟩ := isOperation_iff.1 h
  cases ho <;> (unfold Label.Clear; decide)

theorem clear_of_formed {role : Role} (h : n.Formed role) : n.Clear := by
  induction h with
  | int hpos _ => exact .leaf hpos
  | real => exact .leaf ⟨_, rfl⟩
  | str _ => exact .leaf trivial
  | bool => exact .leaf trivial
  | ofLiteral _ ih => exact ih
  | identifier hn => exact .leaf hn.noBlank
  | superObject => exact .leaf trivial
  | newObject hn _ ih => exact .tree hn.noBlank (by simpa using .tree trivial ih)
  | field hn _ ih => exact .tree hn.noBlank (by simpa using ih)
  | index _ _ _ ihl ihe => exact .tree trivial (by simpa using ⟨ihl, .tree trivial ihe⟩)
  | call _ _ ihl ihe => exact .tree trivial (by simpa using ⟨ihl, .tree trivial ihe⟩)
  | binary h _ _ ihl ihr => exact .tree (clear_of_operation h) (by simpa using ⟨ihl, ihr⟩)
  | negate _ ih => exact .tree trivial (by simpa using ih)
  | logicalNot _ ih => exact .tree trivial (by simpa using ih)
  | literalLabel _ ih => exact ih
  | negatedLabel _ _ ih => exact .tree trivial (by simpa using ih)
  | array hn _ _ ih => exact .array hn.noBlank ih (by simp)
  | assign _ _ iht ihv => exact .tree trivial (by simpa using ⟨iht, ihv⟩)
  | callStatement _ _ ih => exact ih
  | ifStatement _ _ _ ihf iho ihl =>
    refine .tree trivial (List.forall_mem_append.2 ⟨List.forall_mem_cons.2 ⟨ihf, iho⟩, ?_⟩)
    simpa using ihl
  | branch _ _ ihc ih => exact .tree trivial (by simpa using ⟨ihc, .block ih⟩)
  | elseBranch _ ih => exact .tree trivial (by simpa using .block ih)
  | forLoop hn _ _ _ ihf ihl ih =>
    exact .tree trivial (by simpa using ⟨.leaf hn.noBlank, ihf, ihl, .block ih⟩)
  | whileLoop _ _ ihc ih => exact .tree trivial (by simpa using ⟨ihc, .block ih⟩)
  | doLoop _ _ ih ihc => exact .tree trivial (by simpa using ⟨.block ih, ihc⟩)
  | switch _ _ _ ihe ihc ihl =>
    refine .tree trivial (List.forall_mem_append.2 ⟨List.forall_mem_cons.2 ⟨ihe, ihc⟩, ?_⟩)
    simpa using ihl
  | caseClause _ _ ihl ih => exact .tree trivial (by simpa using ⟨ihl, .block ih⟩)
  | defaultClause _ ih => exact .tree trivial (by simpa using .block ih)
  | print _ ih => exact .tree trivial ih
  | jump hk =>
    rcases hk with rfl | rfl
    · exact .leaf (by unfold Label.Clear; decide)
    · exact .leaf (by unfold Label.Clear; decide)
  | returnNothing => exact .leaf trivial
  | returnValue _ ih => exact .tree trivial (by simpa using ih)
  | ofSubroutine _ ih => exact ih
  | param hn => exact .leaf hn.noBlank
  | @sort sort _ _ _ hn _ _ ihp ih =>
    refine .tree ?_ (by simpa using ⟨.tree trivial ihp, .block ih⟩)
    cases sort
    · exact hn.noBlank
    · exact hn.noBlank
  | classDecl hn hp _ ih => exact .tree ⟨hn.noBlank, fun p hmem => (hp p hmem).noBlank⟩ ih
  | fieldMember hn => exact .tree trivial (by simpa using .leaf hn.noBlank)
  | method _ ih => exact .tree trivial (by simpa using ih)

end Formed

/-! ## Lines and their depth -/

/-- The first of the lines, if there is one, is less deep. -/
def Shallower (depth : Nat) (lines : List String) : Prop :=
  ∀ line ∈ lines.head?, ∃ d text, d < depth ∧ Flush text ∧ line = outlineLine d text

section Depth

variable {depth d : Nat} {text text' : String} {lines : List String} {node : Node}
  {nodes : List Node}

/-- A line tells its depth and its text. -/
theorem outlineLine_inj (h : Flush text) (h' : Flush text')
    (heq : outlineLine depth text = outlineLine d text') : depth = d ∧ text = text' := by
  have hblanks : ∀ {n : Nat} {cs : List Char}, cs.head? ≠ some ' ' →
      (List.replicate n ' ' ++ cs).takeWhile (· = ' ') = List.replicate n ' ' := by
    intro n cs hcs
    rw [List.takeWhile_append_of_pos (by simp)]
    cases cs with
    | nil => rw [List.takeWhile_nil, List.append_nil]
    | cons c cs =>
      rw [List.takeWhile_cons_of_neg (by simpa using hcs), List.append_nil]
  have hchars := congrArg String.toList heq
  unfold outlineLine at hchars
  rw [String.toList_append, String.toList_append, String.toList_ofList,
    String.toList_ofList] at hchars
  have hfront := congrArg (List.takeWhile (· = ' ')) hchars
  rw [hblanks h, hblanks h'] at hfront
  have hlength := congrArg List.length hfront
  rw [List.length_replicate, List.length_replicate] at hlength
  rw [hfront] at hchars
  exact ⟨by omega, String.toList_inj.1 (List.append_cancel_left hchars)⟩

theorem Shallower.mono (h : Shallower depth lines) (hle : depth ≤ d) : Shallower d lines := by
  intro line hline
  obtain ⟨found, text, hlt, hflush, rfl⟩ := h line hline
  exact ⟨found, text, Nat.lt_of_lt_of_le hlt hle, hflush, rfl⟩

theorem shallower_cons (h : depth < d) (hflush : Flush text) :
    Shallower d (outlineLine depth text :: lines) := by
  rintro line ⟨⟩
  exact ⟨depth, text, h, hflush, rfl⟩

/-- A line of some depth is none that is less deep. -/
theorem Shallower.ne_outlineLine (h : Shallower depth lines) (hflush : Flush text)
    (others : List String) : lines ≠ outlineLine depth text :: others := by
  rintro rfl
  obtain ⟨found, text', hlt, hflush', heq⟩ := h _ rfl
  obtain ⟨rfl, -⟩ := outlineLine_inj hflush hflush' heq
  exact Nat.lt_irrefl _ hlt

/-- An outline begins with the heading. -/
theorem outline_eq_cons (depth : Nat) (node : Node) :
    ∃ below, node.outline depth = outlineLine depth node.heading :: below := by
  cases node with
  | tree label children => exact ⟨_, rfl⟩
  | array isGlobal name dims children => exact ⟨_, rfl⟩

theorem shallower_outlineAll (h : Shallower depth lines) (hlt : depth < d) :
    Shallower d (outlineAll depth nodes ++ lines) := by
  cases nodes with
  | nil => exact h.mono (Nat.le_of_lt hlt)
  | cons node nodes =>
    obtain ⟨below, hbelow⟩ := outline_eq_cons depth node
    rw [outlineAll, hbelow]
    exact shallower_cons hlt (flush_heading node)

end Depth

/-! ## Reading an outline back -/

mutual

/-- An outline in front of lines that are no deeper tells its tree. -/
theorem outline_inj : ∀ (a : Node) {b : Node} {depth : Nat} {rest rest' : List String},
    a.Clear → b.Clear → Shallower (depth + 1) rest → Shallower (depth + 1) rest' →
      a.outline depth ++ rest = b.outline depth ++ rest' → a = b ∧ rest = rest'
  | .tree label children, b, depth, rest, rest', ha, hb, hrest, hrest', h => by
    cases ha with
    | tree hlabel hchildren =>
      cases hb with
      | @tree label' children' hlabel' hchildren' =>
        rw [outline, outline, List.cons_append, List.cons_append] at h
        obtain ⟨hline, hbelow⟩ := List.cons.inj h
        obtain ⟨-, hheading⟩ := outlineLine_inj (flush_heading _) (flush_heading _) hline
        obtain rfl := label_eq_of_heading hlabel hlabel' hheading
        obtain ⟨rfl, rfl⟩ := outlineAll_inj children hchildren hchildren' hrest hrest' hbelow
        exact ⟨rfl, rfl⟩
      | array _ _ _ =>
        rw [outline, outline, List.cons_append, List.cons_append] at h
        obtain ⟨-, hheading⟩ :=
          outlineLine_inj (flush_heading _) (flush_heading _) (List.cons.inj h).1
        exact absurd hheading heading_ne
  | .array isGlobal name dims children, b, depth, rest, rest', ha, hb, hrest, hrest', h => by
    cases ha with
    | array hname hdims hchildren =>
      cases hb with
      | tree _ _ =>
        rw [outline, outline, List.cons_append, List.cons_append] at h
        obtain ⟨-, hheading⟩ :=
          outlineLine_inj (flush_heading _) (flush_heading _) (List.cons.inj h).1
        exact absurd hheading.symm heading_ne
      | array hname' hdims' hchildren' =>
        rw [outline, outline, List.cons_append, List.cons_append, List.cons_append,
          List.cons_append, List.append_assoc, List.append_assoc] at h
        obtain ⟨hline, hbelow⟩ := List.cons.inj h
        obtain ⟨-, hheading⟩ := outlineLine_inj (flush_heading _) (flush_heading _) hline
        obtain ⟨rfl, rfl⟩ := array_eq_of_heading hname hname' hheading
        obtain ⟨rfl, hbehind⟩ := outlineAll_inj dims hdims hdims'
          (shallower_outlineAll hrest (Nat.lt_succ_self _))
          (shallower_outlineAll hrest' (Nat.lt_succ_self _)) (List.cons.inj hbelow).2
        obtain ⟨rfl, rfl⟩ := outlineAll_inj children hchildren hchildren' hrest hrest' hbehind
        exact ⟨rfl, rfl⟩

/-- The outlines of a row in front of lines that are less deep tell the row. -/
theorem outlineAll_inj : ∀ (as : List Node) {bs : List Node} {depth : Nat}
    {rest rest' : List String}, (∀ a ∈ as, a.Clear) → (∀ b ∈ bs, b.Clear) →
      Shallower depth rest → Shallower depth rest' →
        outlineAll depth as ++ rest = outlineAll depth bs ++ rest' → as = bs ∧ rest = rest'
  | [], [], depth, rest, rest', _, _, _, _, h => ⟨rfl, h⟩
  | [], b :: bs, depth, rest, rest', _, _, hrest, _, h => by
    obtain ⟨below, hbelow⟩ := outline_eq_cons depth b
    rw [outlineAll, outlineAll, hbelow] at h
    exact absurd h (hrest.ne_outlineLine (flush_heading b) _)
  | a :: as, [], depth, rest, rest', _, _, _, hrest', h => by
    obtain ⟨below, hbelow⟩ := outline_eq_cons depth a
    rw [outlineAll, outlineAll, hbelow] at h
    exact absurd h.symm (hrest'.ne_outlineLine (flush_heading a) _)
  | a :: as, b :: bs, depth, rest, rest', has, hbs, hrest, hrest', h => by
    obtain ⟨ha, hothers⟩ := List.forall_mem_cons.1 has
    obtain ⟨hb, hothers'⟩ := List.forall_mem_cons.1 hbs
    rw [outlineAll, outlineAll, List.append_assoc, List.append_assoc] at h
    obtain ⟨rfl, hbehind⟩ := outline_inj a ha hb (shallower_outlineAll hrest (Nat.lt_succ_self _))
      (shallower_outlineAll hrest' (Nat.lt_succ_self _)) h
    obtain ⟨rfl, rfl⟩ := outlineAll_inj as hothers hothers' hrest hrest' hbehind
    exact ⟨rfl, rfl⟩

end

/-! ## The outline as a text -/

/-- Lines are told by their text if there is no line feed in them. -/
theorem Text.Lined.unique {text : String} {lines lines' : List String} (h : Lined text lines)
    (h' : Lined text lines') : lines = lines' := by
  induction lines generalizing text lines' with
  | nil =>
    cases lines' with
    | nil => rfl
    | cons line' lines' => simpa using congrArg String.toList (h.text.symm.trans h'.text)
  | cons line lines ih =>
    cases lines' with
    | nil => simpa using congrArg String.toList (h.text.symm.trans h'.text)
    | cons line' lines' =>
      obtain ⟨hline, hlines⟩ := List.forall_mem_cons.1 h.noFeed
      obtain ⟨hline', hlines'⟩ := List.forall_mem_cons.1 h'.noFeed
      have hchars : line.toList ++ '\n' :: (String.join (lines.map (· ++ "\n"))).toList =
          line'.toList ++ '\n' :: (String.join (lines'.map (· ++ "\n"))).toList := by
        simpa using congrArg String.toList (h.text.symm.trans h'.text)
      obtain ⟨hsame, hrest⟩ := append_mark_inj hline hline' hchars
      rw [String.toList_inj.1 hsame, ih ⟨rfl, hlines⟩ ⟨String.toList_inj.1 hrest, hlines'⟩]

theorem forall_mem_walkAll {p : Node → Prop} {nodes : List Node}
    (h : ∀ node ∈ nodes, ∀ below ∈ node.walk, p below) : ∀ below ∈ walkAll nodes, p below := by
  induction nodes with
  | nil => exact fun _ hbelow => nomatch hbelow
  | cons node nodes ih =>
    obtain ⟨hnode, hnodes⟩ := List.forall_mem_cons.1 h
    exact List.forall_mem_append.2 ⟨hnode, ih hnodes⟩

/-- The names of a clear tree stay on one line. -/
theorem oneLineNames_of_clear {tree : Node} (h : tree.Clear) :
    ∀ node ∈ tree.walk, node.OneLineNames := by
  induction h with
  | @tree label children hlabel _ ih =>
    rw [walk]
    refine List.forall_mem_cons.2 ⟨hlabel.oneLineNames, forall_mem_walkAll ih⟩
  | @array isGlobal name dims children hname _ _ ihd ihc =>
    rw [walk]
    exact List.forall_mem_cons.2 ⟨hname.noFeed,
      List.forall_mem_append.2 ⟨forall_mem_walkAll ihd, forall_mem_walkAll ihc⟩⟩

/-- Clear trees with one dump are the same tree. -/
theorem dump_inj {a b : Node} (ha : a.Clear) (hb : b.Clear) (h : a.dump = b.dump) : a = b := by
  have hlined : Lined a.dump (b.outline 0) := h ▸ lined_dump (oneLineNames_of_clear hb)
  have hlines : a.outline 0 = b.outline 0 := (lined_dump (oneLineNames_of_clear ha)).unique hlined
  have hnone : Shallower 1 [] := fun line hline => nomatch hline
  have hrest : a.outline 0 ++ [] = b.outline 0 ++ [] := by rw [hlines]
  exact (outline_inj a ha hb hnone hnone hrest).1

/-! ## The law -/

theorem clear_of_parse {lines : List String} {program : Node}
    (h : Program.parse lines = .ok (some program)) : program.Clear := by
  obtain ⟨⟨ns, rfl, -, hns⟩, -⟩ := wellFormed_of_parse h
  exact .tree trivial fun n hn => clear_of_formed (hns n hn)

/-- Two programs have one dump only if they are the same tree, in every label,
value, dimension and child. -/
theorem programs_with_one_dump_are_one_tree {lines others : List String} {a b : Node}
    (ha : Program.parse lines = .ok (some a)) (hb : Program.parse others = .ok (some b))
    (h : a.dump = b.dump) : a = b :=
  dump_inj (clear_of_parse ha) (clear_of_parse hb) h

/-- A dump does not tell which quotes stood around a string, and neither does the tree. -/
theorem a_string_in_other_quotes_has_the_same_dump :
    let lines := ["print(\"it\", a)"]
    let others := ["print('it',", "  a) // on two lines"]
    let a : Node := .tree .program [
      .tree .print [.tree (.str "it") [], .tree (.identifier "a") []]]
    let b : Node := .tree .program [
      .tree .print [.tree (.str "it") [], .tree (.identifier "a") []]]
    Program.parse lines = .ok (some a) ∧ Program.parse others = .ok (some b) ∧
      a.dump = b.dump ∧ a = b := by
  intro lines others a b
  have ha : Program.parse lines = .ok (some a) := rfl
  have hb : Program.parse others = .ok (some b) := rfl
  have h : a.dump = b.dump := rfl
  exact ⟨ha, hb, h, programs_with_one_dump_are_one_tree ha hb h⟩

end Pseudocode
