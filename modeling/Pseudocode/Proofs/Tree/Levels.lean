-- The outline, the walk and the count go over a tree alike. The outline has one
-- line for each node, in the order of the walk and indented by its level, and
-- behind the line of an array declaration one more, above its dimensions.
import Pseudocode.Proofs.Tree.Heading

namespace Pseudocode

open Text

namespace Node

/-! ## Levels -/

/-- Whether the node is an array declaration. -/
def isArray : Node → Bool
  | tree _ _ => false
  | array _ _ _ _ => true

mutual

/-- The nodes of a walk with their levels: a child is one level below its parent, and a
dimension of an array declaration two levels. -/
def levels (level : Nat) : Node → List (Nat × Node)
  | tree label children => (level, tree label children) :: levelsAll (level + 1) children
  | array isGlobal name dims children =>
    (level, array isGlobal name dims children) ::
      (levelsAll (level + 2) dims ++ levelsAll (level + 1) children)

/-- The nodes of a row of trees with their levels. -/
def levelsAll (level : Nat) : List Node → List (Nat × Node)
  | [] => []
  | node :: nodes => node.levels level ++ levelsAll level nodes

end

mutual

/-- Without their levels they are the nodes of the walk. -/
theorem map_levels : ∀ (node : Node) (level : Nat), (node.levels level).map Prod.snd = node.walk
  | tree label children, level => by
    rw [levels, walk, List.map_cons, map_levelsAll children]
  | array isGlobal name dims children, level => by
    rw [levels, walk, List.map_cons, List.map_append, map_levelsAll dims, map_levelsAll children]

theorem map_levelsAll : ∀ (nodes : List Node) (level : Nat),
    (levelsAll level nodes).map Prod.snd = walkAll nodes
  | [], _ => rfl
  | node :: nodes, level => by
    rw [levelsAll, walkAll, List.map_append, map_levels node, map_levelsAll nodes]

end

/-! ## The lines of the nodes -/

/-- The heading of a node at its level. -/
def headingLine (place : Nat × Node) : String := outlineLine place.1 place.2.heading

/-- The line above the dimensions of an array declaration, one level deeper than it. -/
def dimsLine (place : Nat × Node) : String := outlineLine (place.1 + 1) "dims:"

/-- The lines of the outline that belong to a node and not to one below it. -/
def ownLines (place : Nat × Node) : List String :=
  headingLine place :: if place.2.isArray then [dimsLine place] else []

/-- Whether a line is `dims:` behind its indentation. -/
def isDimsLine (line : String) : Bool := line.toList.dropWhile (· = ' ') = "dims:".toList

mutual

/-- An outline is the lines of its nodes in the order of the walk. -/
theorem outline_eq_ownLines : ∀ (node : Node) (level : Nat),
    node.outline level = (node.levels level).flatMap ownLines
  | tree label children, level => by
    rw [outline, levels, List.flatMap_cons, outlineAll_eq_ownLines children]
    rfl
  | array isGlobal name dims children, level => by
    rw [outline, levels, List.flatMap_cons, List.flatMap_append, outlineAll_eq_ownLines dims,
      outlineAll_eq_ownLines children]
    rfl

theorem outlineAll_eq_ownLines : ∀ (nodes : List Node) (level : Nat),
    outlineAll level nodes = (levelsAll level nodes).flatMap ownLines
  | [], _ => rfl
  | node :: nodes, level => by
    rw [outlineAll, levelsAll, List.flatMap_append, outline_eq_ownLines node,
      outlineAll_eq_ownLines nodes]

end

section Lines

variable {line text : String} {level : Nat} {tree : Node}

/-- A line without its indentation. -/
theorem dropWhile_outlineLine (h : Flush text) (level : Nat) :
    (outlineLine level text).toList.dropWhile (· = ' ') = text.toList := by
  unfold Flush at h
  unfold outlineLine
  rw [String.toList_append, String.toList_ofList, List.dropWhile_append_of_pos (by simp)]
  cases htext : text.toList with
  | nil => rfl
  | cons c cs =>
    rw [htext] at h
    exact List.dropWhile_cons_of_neg (by simpa using h)

theorem isDimsLine_dimsLine (place : Nat × Node) : isDimsLine (dimsLine place) = true :=
  decide_eq_true (dropWhile_outlineLine (by unfold Flush; decide) _)

/-- No heading is taken for the line above dimensions, since it has a capital letter in
front. -/
theorem isDimsLine_headingLine (place : Nat × Node) : isDimsLine (headingLine place) = false := by
  have hupper := head?_heading place.2
  refine decide_eq_false fun hdims => ?_
  rw [headingLine, dropWhile_outlineLine (flush_heading _)] at hdims
  rw [hdims] at hupper
  exact absurd hupper (by decide)

/-- Without the lines above dimensions a heading is left for each node. -/
theorem filter_ownLines (places : List (Nat × Node)) :
    (places.flatMap ownLines).filter (fun line => !isDimsLine line) = places.map headingLine := by
  induction places with
  | nil => rfl
  | cons place places ih =>
    rw [List.flatMap_cons, List.filter_append, ih, ownLines, List.map_cons]
    split
    · simp [isDimsLine_headingLine, isDimsLine_dimsLine]
    · simp [isDimsLine_headingLine]

theorem length_ownLines (places : List (Nat × Node)) : (places.flatMap ownLines).length =
    places.length + (places.map Prod.snd).countP isArray := by
  induction places with
  | nil => rfl
  | cons place places ih =>
    rw [List.flatMap_cons, List.length_append, ih, ownLines, List.map_cons, List.countP_cons,
      List.length_cons, List.length_cons]
    split
    · rw [List.length_singleton]
      omega
    · rw [List.length_nil]
      omega

/-! ## Names on one line -/

theorem noFeed_outlineLine (h : NoFeed text) (level : Nat) : NoFeed (outlineLine level text) := by
  refine NoFeed.append ?_ h
  unfold NoFeed
  simp

/-- The outline of a tree whose names stay on one line is the lines of its dump. -/
theorem lined_dump (h : ∀ node ∈ tree.walk, node.OneLineNames) :
    Lined tree.dump (tree.outline 0) := by
  refine ⟨rfl, fun line hline => ?_⟩
  rw [outline_eq_ownLines] at hline
  obtain ⟨place, hplace, hown⟩ := List.mem_flatMap.1 hline
  have hnode : place.2 ∈ tree.walk := by
    rw [← map_levels tree 0]
    exact List.mem_map_of_mem hplace
  unfold ownLines at hown
  rcases List.mem_cons.1 hown with rfl | hdims
  · exact noFeed_outlineLine (noFeed_heading (h _ hnode)) _
  · split at hdims
    · rw [List.mem_singleton.1 hdims]
      exact noFeed_outlineLine (by decide) _
    · cases hdims

end Lines

end Node

/-! ## The law -/

open Node

/-- Where no name and no parent's name has a line feed, the dump of a tree has a line for
each node and one more for each array declaration. Without the lines that are `dims:`
behind their indentation there is one line for each node in the order of the walk, its
heading at its level. Each of the lines left out comes right behind the heading of its
array declaration, one level deeper. -/
theorem a_dump_has_a_line_for_each_node_of_the_walk {tree : Node}
    (h : ∀ node ∈ tree.walk, node.OneLineNames) :
    ∃ lines, Lined tree.dump lines ∧ Text.lines tree.dump = lines.map withoutReturn ∧
      lines.length = tree.count + tree.walk.countP isArray ∧
      (tree.levels 0).map Prod.snd = tree.walk ∧
      lines.filter (fun line => !isDimsLine line) = (tree.levels 0).map headingLine ∧
      lines = (tree.levels 0).flatMap ownLines := by
  have hlined := lined_dump h
  have hlines := outline_eq_ownLines tree 0
  refine ⟨tree.outline 0, hlined, hlined.lines_eq, ?_, map_levels tree 0, ?_, hlines⟩
  · rw [hlines, length_ownLines, map_levels, ← length_walk, ← map_levels tree 0, List.length_map]
  · rw [hlines, filter_ownLines]

/-- A dimension of a dimension, a string with a line feed, a name like the line above
dimensions and a name that ends in a carriage return. -/
theorem dimensions_of_dimensions_are_four_levels_down :
    let tree : Node := .array false "a"
      [.array true "b" [.tree (.int (-2)) []] [], .tree (.str "1\n2") []]
      [.tree (.classDecl "dims:" (some "c\r")) [.tree .returnStatement []]]
    let headings := ["ArrayDecl name=a is_global=false", "    ArrayDecl name=b is_global=true",
      "        IntLiteral -2", "    StrLiteral \"1\\n2\"", "  ClassDecl name=dims: parent=c\r",
      "    Return"]
    (∀ node ∈ tree.walk, node.OneLineNames) ∧
      ∃ lines, Lined tree.dump lines ∧ lines.length = 8 ∧
        Text.lines tree.dump = lines.map withoutReturn ∧
        lines.filter (fun line => !isDimsLine line) = headings := by
  intro tree headings
  have hnames : ∀ node ∈ tree.walk, node.OneLineNames := by decide
  obtain ⟨lines, hlined, hlines, hlength, -, hfilter, -⟩ :=
    a_dump_has_a_line_for_each_node_of_the_walk hnames
  exact ⟨hnames, lines, hlined, hlength, hlines, hfilter⟩

end Pseudocode
