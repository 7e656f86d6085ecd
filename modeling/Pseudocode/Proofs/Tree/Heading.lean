-- The line of a node in the outline tells everything that the node carries: two
-- nodes with one heading have the same sort, names, flags and values.
import Pseudocode.Proofs.Number.Numeral
import Pseudocode.Proofs.Text.Quoted
import Pseudocode.Proofs.Token.Characters
import Pseudocode.Proofs.Tree.WellFormed
import Pseudocode.Tree.Outline

namespace Pseudocode

open Text

/-! ## Words -/

/-- A text without blanks. -/
def NoBlank (text : String) : Prop := ∀ c ∈ text.toList, isBlank c = false

instance (text : String) : Decidable (NoBlank text) :=
  List.decidableBAll (fun c => isBlank c = false) text.toList

section Words

variable {word word' rest rest' : String}

theorem NoBlank.not_mem (h : NoBlank word) : ' ' ∉ word.toList :=
  fun hmem => absurd (h _ hmem) (by decide)

theorem NoBlank.noFeed (h : NoBlank word) : NoFeed word :=
  fun hmem => absurd (h _ hmem) (by decide)

/-- The text begins with no blank. -/
def Flush (text : String) : Prop := text.toList.head? ≠ some ' '

/-- Nothing, or a blank with what comes behind it. -/
def BlankFirst (rest : String) : Prop := ∀ c ∈ rest.toList.head?, c = ' '

theorem blankFirst_empty : BlankFirst "" := by
  unfold BlankFirst
  simp

theorem blankFirst_append (h : word.toList.head? = some ' ') (rest : String) :
    BlankFirst (word ++ rest) := by
  unfold BlankFirst
  rw [String.toList_append, List.head?_append, h]
  intro c hc
  exact (Option.some.inj hc).symm

/-- A word ends where the first blank stands. -/
theorem NoBlank.append_inj (h : NoBlank word) (h' : NoBlank word') (hrest : BlankFirst rest)
    (hrest' : BlankFirst rest') (heq : word ++ rest = word' ++ rest') :
    word = word' ∧ rest = rest' := by
  have hchars := congrArg String.toList heq
  rw [String.toList_append, String.toList_append] at hchars
  suffices hboth : word.toList = word'.toList ∧ rest.toList = rest'.toList from
    ⟨String.toList_inj.1 hboth.1, String.toList_inj.1 hboth.2⟩
  unfold BlankFirst at hrest hrest'
  generalize rest.toList = cs at hchars hrest
  generalize rest'.toList = cs' at hchars hrest'
  cases cs with
  | nil =>
    cases cs' with
    | nil => simpa using hchars
    | cons c' cs' =>
      obtain rfl : c' = ' ' := hrest' c' rfl
      exact absurd (by rw [List.append_nil] at hchars; simp [hchars]) h.not_mem
  | cons c cs =>
    obtain rfl : c = ' ' := hrest c rfl
    cases cs' with
    | nil => exact absurd (by rw [List.append_nil] at hchars; simp [← hchars]) h'.not_mem
    | cons c' cs' =>
      obtain rfl : c' = ' ' := hrest' c' rfl
      obtain ⟨hword, rfl⟩ := append_mark_inj h.not_mem h'.not_mem hchars
      exact ⟨hword, rfl⟩

theorem noBlank_of_isName (h : Fragment.isName word.toList = true) : NoBlank word :=
  not_isBlank_of_isName h

theorem IsIdentifier.noBlank (h : IsIdentifier word) : NoBlank word := noBlank_of_isName h.1

theorem IsMemberName.noBlank (h : IsMemberName word) : NoBlank word := by
  rcases h with h | rfl
  · exact h.noBlank
  · decide

end Words

/-! ## Values -/

theorem toString_bool_inj : ∀ a b : Bool, toString a = toString b → a = b := by decide

theorem toString_int_inj {a b : Int} (ha : 0 ≤ a) (hb : 0 ≤ b) (h : toString a = toString b) :
    a = b := by
  obtain ⟨n, rfl⟩ := Int.eq_ofNat_of_zero_le ha
  obtain ⟨m, rfl⟩ := Int.eq_ofNat_of_zero_le hb
  have hdigits := congrArg String.toList h
  rw [Decimal.toList_toString_natCast, Decimal.toList_toString_natCast] at hdigits
  rw [← Decimal.wholeOf_digitsOf n, hdigits, Decimal.wholeOf_digitsOf]

theorem noFeed_toString_int (a : Int) : NoFeed (toString a) := by
  have hdigits : ∀ n : Nat, NoFeed (toString n) := by
    intro n hmem
    rw [Decimal.toList_toString] at hmem
    exact absurd (not_isBlank_of_isDigit (Decimal.isDigit_of_mem_digitsOf hmem)) (by decide)
  have hminus : NoFeed "-" := by decide
  cases a with
  | ofNat n => exact hdigits n
  | negSucc n => exact hminus.append (hdigits (n + 1))

section Reals

variable {rank rank' : Fin infinityRank}

theorem toList_text : (Binary64.finite false rank).text.toList = Binary64.magnitude rank := by
  unfold Binary64.text
  rw [String.toList_ofList]
  rfl

theorem text_finite_inj
    (h : (Binary64.finite false rank).text = (Binary64.finite false rank').text) :
    rank = rank' := by
  have hchars := congrArg String.toList h
  rw [toList_text, toList_text] at hchars
  obtain ⟨n, htext, -, hn⟩ := Binary64.numeral_of_magnitude rank
  obtain ⟨n', htext', -, hn'⟩ := Binary64.numeral_of_magnitude rank'
  rw [htext, hchars, ← htext', hn'] at hn
  cases hn
  rfl

theorem noFeed_text (value : Binary64) : NoFeed value.text := by
  cases value with
  | finite negative rank =>
    obtain ⟨n, htext, hreal, -⟩ := Binary64.numeral_of_magnitude rank
    have hblank := not_isBlank_of_isReal (Numeral.isReal_text hreal)
    unfold NoFeed Binary64.text
    rw [String.toList_ofList, List.mem_append, not_or, ← htext]
    refine ⟨?_, fun hmem => absurd (hblank _ hmem) (by decide)⟩
    cases negative <;> decide
  | infinite negative => cases negative <;> decide
  | nan => decide

end Reals

section Operators

variable {op op' : TokenKind}

theorem opText_inj (hop : op ∈ TokenKind.spelled) (hop' : op' ∈ TokenKind.spelled)
    (h : Label.opText op = Label.opText op') : op = op' := by
  have hread : ∀ kind ∈ TokenKind.spelled, TokenKind.ofText? (Label.opText kind) = some kind := by
    decide +kernel
  have hsame := hread op hop
  rw [h, hread op' hop'] at hsame
  exact (Option.some.inj hsame).symm

theorem noFeed_opText (op : TokenKind) : NoFeed (Label.opText op) := by
  cases op <;> decide

end Operators

/-! ## Labels -/

/-- What the label carries can be read off a line. -/
def Label.Clear : Label → Prop
  | function name | procedure name | param _ name | identifier name | field name
  | newObject name => NoBlank name
  | classDecl name parent => NoBlank name ∧ ∀ p ∈ parent, NoBlank p
  | jump op | addOp op | mulOp op | powOp op | cmpOp op => op ∈ TokenKind.spelled
  | int value => 0 ≤ value
  | real value => ∃ rank, value = .finite false rank
  | _ => True

/-- The name of the parent that a class has. -/
def Label.parent? : Label → Option String
  | classDecl _ parent => parent
  | _ => none

/-- No name that the label carries has a line feed, and neither has that of a parent. -/
def Label.OneLineNames (label : Label) : Prop :=
  (∀ name ∈ label.name?, NoFeed name) ∧ ∀ parent ∈ label.parent?, NoFeed parent

instance (label : Label) : Decidable label.OneLineNames := inferInstanceAs (Decidable (_ ∧ _))

namespace Label

/-- The sorts of nodes in the order of the labels. -/
def sorts : List String :=
  ["Program", "Block", "Assign", "If", "Branch", "Else", "For", "While", "DoUntil", "Switch",
    "Case", "Default", "FunDecl", "ProcDecl", "Params", "Param", "ClassDecl", "ClassMember",
    "Return", "GoToInstr", "Print", "Identifier", "Super", "Field", "Index", "Call", "New",
    "Args", "IntLiteral", "NumLiteral", "StrLiteral", "BoolLiteral", "AddOp", "MulOp", "PowOp",
    "CmpOp", "Negate", "Not"]

theorem idxOf?_kindName (label : Label) : sorts.idxOf? label.kindName = some label.ctorIdx := by
  cases label <;> rfl

/-- No two sorts of labels have one name. -/
theorem ctorIdx_eq_of_kindName {a b : Label} (h : a.kindName = b.kindName) :
    a.ctorIdx = b.ctorIdx := by
  have hidx := idxOf?_kindName a
  rw [h, idxOf?_kindName b] at hidx
  exact (Option.some.inj hidx).symm

theorem kindName_mem (label : Label) : label.kindName ∈ sorts := by
  by_contra hnone
  have hidx := idxOf?_kindName label
  rw [List.idxOf?_eq_none_iff.2 hnone] at hidx
  cases hidx

/-- The name of a sort is a word with a capital letter in front. -/
theorem noBlank_sort : ∀ sort ∈ "ArrayDecl" :: sorts,
    NoBlank sort ∧ sort.toList.head?.any Char.isUpper = true := by
  decide +kernel

/-- The name of a class is a word, and so is that of its parent. -/
theorem classDetails_inj {name name' : String} {parent parent' : Option String}
    (h : NoBlank name) (h' : NoBlank name')
    (heq : (classDecl name parent).details = (classDecl name' parent').details) :
    name = name' ∧ parent = parent' := by
  have hform : ∀ name parent, (classDecl name parent).details =
      " name=" ++ (name ++ parent.elim "" (" parent=" ++ ·)) := by
    intro name parent
    cases parent with
    | none => rw [Option.elim_none, String.append_empty]; rfl
    | some p => exact String.append_assoc ..
  have hblank : ∀ parent : Option String, BlankFirst (parent.elim "" (" parent=" ++ ·)) := by
    intro parent
    cases parent with
    | none => exact blankFirst_empty
    | some p => exact blankFirst_append rfl p
  rw [hform, hform] at heq
  obtain ⟨rfl, hparent⟩ :=
    h.append_inj h' (hblank _) (hblank _) ((String.append_right_inj _).1 heq)
  refine ⟨rfl, ?_⟩
  cases parent with
  | none =>
    cases parent' with
    | none => rfl
    | some p' => simpa using congrArg String.toList hparent
  | some p =>
    cases parent' with
    | none => simpa using congrArg String.toList hparent
    | some p' => rw [(String.append_right_inj _).1 hparent]

/-- What follows the name of the sort tells the labels of one sort apart. -/
theorem details_inj {a b : Label} (ha : a.Clear) (hb : b.Clear) (hidx : a.ctorIdx = b.ctorIdx)
    (h : a.details = b.details) : a = b := by
  have htail : ∀ {front tail tail' : String}, front ++ tail = front ++ tail' → tail = tail' :=
    (String.append_right_inj _).1
  have hsort : Nat.beq a.ctorIdx b.ctorIdx = true := by rw [hidx, Nat.beq_refl]
  clear hidx
  -- labels of two sorts are ruled out at once, and labels that carry nothing are the same
  cases a <;> cases b <;> first | rfl | exact absurd hsort Bool.false_ne_true | skip
  case assign.assign isGlobal isGlobal' => rw [toString_bool_inj _ _ (htail h)]
  case function.function name name' => rw [htail h]
  case procedure.procedure name name' => rw [htail h]
  case param.param byRef name byRef' name' =>
    simp only [details, String.append_assoc] at h
    obtain ⟨rfl, hmode⟩ := NoBlank.append_inj ha hb (blankFirst_append rfl _)
      (blankFirst_append rfl _) (htail h)
    rw [toString_bool_inj _ _ (htail hmode)]
  case classDecl.classDecl name parent name' parent' =>
    obtain ⟨rfl, rfl⟩ := classDetails_inj ha.1 hb.1 h
    rfl
  case classMember.classMember isPublic isPublic' => rw [toString_bool_inj _ _ (htail h)]
  case jump.jump op op' => rw [opText_inj ha hb (htail h)]
  case identifier.identifier name name' => rw [htail h]
  case field.field name name' => rw [htail h]
  case newObject.newObject name name' => rw [htail h]
  case int.int value value' => rw [toString_int_inj ha hb (htail h)]
  case real.real value value' =>
    obtain ⟨rank, rfl⟩ := ha
    obtain ⟨rank', rfl⟩ := hb
    rw [text_finite_inj (htail h)]
  case str.str value value' => rw [quoted_inj (htail h)]
  case bool.bool value value' => rw [toString_bool_inj _ _ (htail h)]
  case addOp.addOp op op' => rw [opText_inj ha hb (htail h)]
  case mulOp.mulOp op op' => rw [opText_inj ha hb (htail h)]
  case powOp.powOp op op' => rw [opText_inj ha hb (htail h)]
  case cmpOp.cmpOp op op' => rw [opText_inj ha hb (htail h)]

theorem blankFirst_details (label : Label) : BlankFirst label.details := by
  unfold details
  split
  case h_20 => exact blankFirst_empty
  case h_4 byRef name =>
    rw [String.append_assoc, String.append_assoc]
    exact blankFirst_append rfl _
  case h_6 name parent =>
    rw [String.append_assoc, String.append_assoc]
    exact blankFirst_append rfl _
  all_goals exact blankFirst_append rfl _

theorem Clear.oneLineNames {label : Label} (h : label.Clear) : label.OneLineNames := by
  constructor
  · intro name hname
    cases label <;> cases hname
    case left.classDecl.refl => exact h.1.noFeed
    all_goals exact NoBlank.noFeed h
  · intro parent hparent
    cases label
    case classDecl name parent' => exact (h.2 parent hparent).noFeed
    all_goals cases hparent

theorem noFeed_details {label : Label} (h : label.OneLineNames) : NoFeed label.details := by
  have hbool : ∀ b : Bool, NoFeed (toString b) := by decide
  cases label
  case assign isGlobal => exact NoFeed.append (by decide) (hbool isGlobal)
  case function name => exact NoFeed.append (by decide) (h.1 name rfl)
  case procedure name => exact NoFeed.append (by decide) (h.1 name rfl)
  case param byRef name =>
    exact ((NoFeed.append (by decide) (h.1 name rfl)).append (by decide)).append (hbool byRef)
  case classDecl name parent =>
    have hname : NoFeed (" name=" ++ name) := NoFeed.append (by decide) (h.1 name rfl)
    cases parent with
    | none => exact hname
    | some p => exact (hname.append (by decide)).append (h.2 p rfl)
  case classMember isPublic => exact NoFeed.append (by decide) (hbool isPublic)
  case jump op => exact NoFeed.append (by decide) (noFeed_opText op)
  case identifier name => exact NoFeed.append (by decide) (h.1 name rfl)
  case field name => exact NoFeed.append (by decide) (h.1 name rfl)
  case newObject name => exact NoFeed.append (by decide) (h.1 name rfl)
  case int value => exact NoFeed.append (by decide) (noFeed_toString_int value)
  case real value => exact NoFeed.append (by decide) (noFeed_text value)
  case str value => exact NoFeed.append (by decide) (noFeed_quoted value)
  case bool value => exact NoFeed.append (by decide) (hbool value)
  case addOp op => exact NoFeed.append (by decide) (noFeed_opText op)
  case mulOp op => exact NoFeed.append (by decide) (noFeed_opText op)
  case powOp op => exact NoFeed.append (by decide) (noFeed_opText op)
  case cmpOp op => exact NoFeed.append (by decide) (noFeed_opText op)
  all_goals decide

end Label

/-! ## Nodes -/

/-- What the node and all nodes below it carry can be read off lines. -/
inductive Node.Clear : Node → Prop where
  | tree {label : Label} {children : List Node} (hlabel : label.Clear)
      (hchildren : ∀ child ∈ children, Clear child) : Clear (.tree label children)
  | array {isGlobal : Bool} {name : String} {dims children : List Node} (hname : NoBlank name)
      (hdims : ∀ dim ∈ dims, Clear dim) (hchildren : ∀ child ∈ children, Clear child) :
      Clear (.array isGlobal name dims children)

/-- No name that the node itself carries has a line feed. -/
def Node.OneLineNames : Node → Prop
  | tree label _ => label.OneLineNames
  | array _ name _ _ => NoFeed name

instance (node : Node) : Decidable node.OneLineNames :=
  match node with
  | .tree label _ => inferInstanceAs (Decidable label.OneLineNames)
  | .array _ name _ _ => inferInstanceAs (Decidable (NoFeed name))

namespace Node

section Headings

variable {a b : Label} {as bs ds es : List Node} {g g' : Bool} {name name' : String}

theorem noBlank_kindName (label : Label) : NoBlank label.kindName :=
  (Label.noBlank_sort _ (List.mem_cons_of_mem _ label.kindName_mem)).1

/-- The heading of a tree tells its label. -/
theorem label_eq_of_heading (ha : a.Clear) (hb : b.Clear)
    (h : heading (tree a as) = heading (tree b bs)) : a = b := by
  obtain ⟨hkind, hdetails⟩ := (noBlank_kindName a).append_inj (noBlank_kindName b)
    a.blankFirst_details b.blankFirst_details h
  exact Label.details_inj ha hb (Label.ctorIdx_eq_of_kindName hkind) hdetails

theorem heading_array (g : Bool) (name : String) (ds as : List Node) :
    heading (array g name ds as) =
      "ArrayDecl" ++ (" name=" ++ (name ++ (" is_global=" ++ toString g))) := by
  have hblank : "ArrayDecl name=" = "ArrayDecl" ++ " name=" := by decide
  calc heading (array g name ds as)
      = "ArrayDecl name=" ++ name ++ (" is_global=" ++ toString g) := String.append_assoc ..
    _ = "ArrayDecl name=" ++ (name ++ (" is_global=" ++ toString g)) := String.append_assoc ..
    _ = "ArrayDecl" ++ " name=" ++ (name ++ (" is_global=" ++ toString g)) :=
        congrArg (· ++ _) hblank
    _ = "ArrayDecl" ++ (" name=" ++ (name ++ (" is_global=" ++ toString g))) :=
        String.append_assoc ..

/-- No tree has the heading of an array. -/
theorem heading_ne : heading (tree a as) ≠ heading (array g name ds bs) := by
  intro h
  rw [heading_array] at h
  obtain ⟨hkind, -⟩ := (noBlank_kindName a).append_inj (by decide) a.blankFirst_details
    (blankFirst_append rfl _) h
  have hmem := a.kindName_mem
  rw [hkind] at hmem
  exact absurd hmem (by decide)

/-- The heading of an array tells what it carries itself. -/
theorem array_eq_of_heading (h : NoBlank name) (h' : NoBlank name')
    (heq : heading (array g name ds as) = heading (array g' name' es bs)) :
    g = g' ∧ name = name' := by
  rw [heading_array, heading_array, String.append_right_inj, String.append_right_inj] at heq
  obtain ⟨rfl, hglobal⟩ := h.append_inj h' (blankFirst_append rfl _) (blankFirst_append rfl _) heq
  exact ⟨toString_bool_inj _ _ ((String.append_right_inj _).1 hglobal), rfl⟩

end Headings

section Lines

variable {node : Node}

/-- What a node carries itself stays on one line if its names do. -/
theorem noFeed_heading (h : node.OneLineNames) : NoFeed node.heading := by
  cases node with
  | tree label _ => exact (noBlank_kindName label).noFeed.append (Label.noFeed_details h)
  | array isGlobal name _ _ =>
    have hbool : ∀ b : Bool, NoFeed (toString b) := by decide
    rw [heading_array]
    exact NoFeed.append (by decide) (NoFeed.append (by decide)
      (NoFeed.append h (NoFeed.append (by decide) (hbool isGlobal))))

/-- A heading has a capital letter in front. -/
theorem head?_heading (node : Node) : node.heading.toList.head?.any Char.isUpper = true := by
  have hfront : ∀ sort ∈ "ArrayDecl" :: Label.sorts, ∀ rest : String,
      (sort ++ rest).toList.head?.any Char.isUpper = true := by
    intro sort hsort rest
    have hupper := (Label.noBlank_sort sort hsort).2
    cases hchars : sort.toList with
    | nil =>
      rw [hchars] at hupper
      cases hupper
    | cons c cs =>
      rw [hchars] at hupper
      rw [String.toList_append, hchars]
      exact hupper
  cases node with
  | tree label children => exact hfront _ (List.mem_cons_of_mem _ label.kindName_mem) _
  | array isGlobal name dims children =>
    rw [heading_array]
    exact hfront _ List.mem_cons_self _

theorem flush_heading (node : Node) : Flush node.heading := by
  intro hblank
  have hupper := head?_heading node
  rw [hblank] at hupper
  exact absurd hupper (by decide)

end Lines

end Node

end Pseudocode
