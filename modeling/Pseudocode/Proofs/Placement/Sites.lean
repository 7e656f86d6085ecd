-- The nodes that a rule is about and the keywords of the text that a rule is
-- about are the same, in the same order.
import Pseudocode.Proofs.Placement.Rules

namespace Pseudocode

open Construct (Derives Marked Visibility Parent CaseLabel Passing SomeParameters Parameters Whole
  blockOf)
open Node (placesAll)

/-! ## Places and sites, part by part -/

/-- The place is that of the keyword, and a value that must not be given back is there. -/
structure Place.Fits (place : Place) (site : Site) : Prop where
  keyword : place.keyword = site.keyword.kind
  value : place.broken = some .procedureValue →
    ∃ next rest, site.behind = next :: rest ∧ next.kind ∉ ruledKeywords

/-- The places are those of the keywords up to where the last tokens begin. -/
def Matches (places : List Place) (ts us : List Token) : Prop :=
  ∃ own, sites ts = own ++ sites us ∧ List.Forall₂ Place.Fits places own

section Matches

variable {places others : List Place} {place : Place} {ts us vs : List Token} {token : Token}

theorem sites_plain (h : token.kind ∉ ruledKeywords) (ts : List Token) :
    sites (token :: ts) = sites ts := if_neg h

theorem sites_ruled (h : token.kind ∈ ruledKeywords) (ts : List Token) :
    sites (token :: ts) = ⟨token, ts⟩ :: sites ts := if_pos h

theorem matches_nil (h : sites ts = sites us) : Matches [] ts us := ⟨[], h, .nil⟩

theorem Matches.append (h : Matches places ts us) (h' : Matches others us vs) :
    Matches (places ++ others) ts vs := by
  obtain ⟨own, hs, hf⟩ := h
  obtain ⟨own', hs', hf'⟩ := h'
  refine ⟨own ++ own', by rw [hs, hs', List.append_assoc], ?_⟩
  exact List.rel_append hf hf'

/-- Tokens in front or behind that no rule is about change nothing. -/
theorem Matches.congr (h : Matches places us vs) (hts : sites ts = sites us) :
    Matches places ts vs := by
  unfold Matches
  rw [hts]
  exact h

theorem Matches.skip (h : Matches places ts us) (hus : sites us = sites vs) :
    Matches places ts vs := by
  unfold Matches
  rw [← hus]
  exact h

theorem Matches.cons (h : Matches places ts us) (hk : token.kind ∈ ruledKeywords)
    (hf : place.Fits ⟨token, ts⟩) : Matches (place :: places) (token :: ts) us := by
  obtain ⟨own, hs, hfs⟩ := h
  exact ⟨⟨token, ts⟩ :: own, by rw [sites_ruled hk, hs, List.cons_append], .cons hf hfs⟩

end Matches

/-! ## No rule is about the parts of a statement -/

section Parts

variable {ts us vs : List Token} {ns : List Node} {e : Node} {around : List Label} {after : Bool}

theorem sites_of_literal {token : Token} {label : Label} (h : Phrase.Literal token label)
    (ts : List Token) :
    sites (token :: ts) = sites ts := by
  have main : ∀ kind ∈ ruledKeywords, kind.isLiteral = false := by decide
  refine sites_plain (fun hmem => ?_) ts
  have hk := h.isLiteral
  rw [main _ hmem] at hk
  cases hk

theorem sites_of_operator {sign : Token} {level : Nat} {label : Label}
    (h : Phrase.Operates sign.kind level label) (ts : List Token) :
    sites (sign :: ts) = sites ts := by
  refine sites_plain (fun hmem => ?_) ts
  generalize sign.kind = kind at h hmem
  cases h <;> exact absurd hmem (by decide)

theorem sites_of_kind {token : Token} {kind : TokenKind} (hk : token.kind = kind)
    (h : kind ∉ ruledKeywords) (ts : List Token) : sites (token :: ts) = sites ts :=
  sites_plain (by rwa [hk]) ts

theorem sites_phrase {phrase : Phrase} (h : phrase.Derives ts ns us) : sites ts = sites us := by
  induction h with
  | ofOperation _ ih => exact ih
  | logicalNot hk _ ih => rw [sites_of_kind hk (by decide), ih]
  | ofUnary _ ih => exact ih
  | binary ho _ _ _ ihl ihr => rw [ihl, sites_of_operator ho, ihr]
  | negate hk _ ih => rw [sites_of_kind hk (by decide), ih]
  | ofChain _ ih => exact ih
  | parenthesized ho hc _ ih =>
    rw [sites_of_kind ho (by decide), ih, sites_of_kind hc (by decide)]
  | literal hl => exact sites_of_literal hl _
  | identifier hk => exact sites_of_kind hk (by decide) _
  | superObject hk => exact sites_of_kind hk (by decide) _
  | newObject hn hi ho hc _ ih =>
    rw [sites_of_kind hn (by decide), sites_of_kind hi (by decide), sites_of_kind ho (by decide),
      ih, sites_of_kind hc (by decide)]
  | field hd hn _ ih =>
    rw [ih, sites_of_kind hd (by decide)]
    rcases hn with hn | hn <;> exact sites_of_kind hn (by decide) _
  | index ho hc _ _ ihl ihe =>
    rw [ihl, sites_of_kind ho (by decide), ihe, sites_of_kind hc (by decide)]
  | call ho hc _ _ ihl ihe =>
    rw [ihl, sites_of_kind ho (by decide), ihe, sites_of_kind hc (by decide)]
  | noArguments => rfl
  | ofExpressions _ ih => exact ih
  | first _ _ ihe ih => rw [ihe, ih]
  | noMore => rfl
  | more hc _ _ ihe ih => rw [sites_of_kind hc (by decide), ihe, ih]

theorem keyword?_literal {token : Token} {label : Label} (h : Phrase.Literal token label) :
    label.keyword? = none := by
  cases h <;> rfl

theorem keyword?_operator {kind : TokenKind} {level : Nat} {label : Label}
    (h : Phrase.Operates kind level label) : label.keyword? = none := by
  cases h <;> rfl

@[simp] theorem places_tree {label : Label} {children : List Node} :
    (Node.tree label children).places around after =
      (label.keyword?.map fun keyword =>
        Place.mk keyword (label.brokenRule around after children)).toList ++
        placesAll (label :: around) false children := rfl

@[simp] theorem places_array {isGlobal : Bool} {name : String} {dims children : List Node} :
    (Node.array isGlobal name dims children).places around after =
      placesAll around false dims ++ placesAll around false children := rfl

@[simp] theorem placesAll_nil : placesAll around after [] = [] := rfl

@[simp] theorem placesAll_cons {node : Node} {nodes : List Node} :
    placesAll around after (node :: nodes) =
      node.places around after ++ placesAll around (after || node.isDefault) nodes := rfl

/-- A node whose place there is no rule about has the places below it. -/
theorem places_of_keyword {label : Label} {children : List Node} (h : label.keyword? = none) :
    (Node.tree label children).places around after =
      placesAll (label :: around) false children := by
  rw [places_tree, h]
  rfl

@[simp] theorem placesAll_singleton {node : Node} :
    placesAll around after [node] = node.places around after :=
  List.append_nil _

theorem placesAll_phrase {phrase : Phrase} (h : phrase.Derives ts ns us) :
    placesAll around after ns = [] := by
  induction h generalizing around after with
  | ofOperation _ ih => exact ih
  | logicalNot _ _ ih =>
    rw [placesAll_singleton, places_of_keyword rfl]
    exact ih
  | ofUnary _ ih => exact ih
  | binary hop _ _ _ ihl ihr =>
    simp only [placesAll_singleton] at ihl ihr ⊢
    rw [places_of_keyword (keyword?_operator hop), placesAll_cons, ihl, placesAll_singleton, ihr]
    rfl
  | negate _ _ ih =>
    rw [placesAll_singleton, places_of_keyword rfl]
    exact ih
  | ofChain _ ih => exact ih
  | parenthesized _ _ _ ih => exact ih
  | literal hl =>
    rw [placesAll_singleton, places_of_keyword (keyword?_literal hl)]
    rfl
  | identifier => rfl
  | superObject => rfl
  | newObject _ _ _ _ _ ih =>
    rw [placesAll_singleton, places_of_keyword rfl, placesAll_singleton, places_of_keyword rfl]
    exact ih
  | field _ _ _ ih =>
    rw [placesAll_singleton, places_of_keyword rfl]
    exact ih
  | index _ _ _ _ ihl ihe =>
    simp only [placesAll_singleton] at ihl
    rw [placesAll_singleton, places_of_keyword rfl, placesAll_cons, ihl, placesAll_singleton,
      places_of_keyword rfl, ihe]
    rfl
  | call _ _ _ _ ihl ihe =>
    simp only [placesAll_singleton] at ihl
    rw [placesAll_singleton, places_of_keyword rfl, placesAll_cons, ihl, placesAll_singleton,
      places_of_keyword rfl, ihe]
    rfl
  | noArguments => rfl
  | ofExpressions _ ih => exact ih
  | first _ _ ihe ih =>
    simp only [placesAll_singleton] at ihe
    rw [placesAll_cons, ihe, ih]
    rfl
  | noMore => rfl
  | more _ _ _ ihe ih =>
    simp only [placesAll_singleton] at ihe
    rw [placesAll_cons, ihe, ih]
    rfl

/-- An expression has no places, and its tokens no sites. -/
theorem places_phrase {phrase : Phrase} (h : phrase.Derives ts [e] us) :
    e.places around after = [] := by
  rw [← placesAll_singleton]
  exact placesAll_phrase h

theorem places_caseLabel (h : CaseLabel ts e us) : e.places around after = [] := by
  cases h with
  | literal hl =>
    rw [places_of_keyword (keyword?_literal hl)]
    rfl
  | negated _ _ hl =>
    rw [places_of_keyword rfl, placesAll_singleton, places_of_keyword (keyword?_literal hl)]
    rfl

theorem sites_caseLabel (h : CaseLabel ts e us) : sites ts = sites us := by
  cases h with
  | literal hl => exact sites_of_literal hl _
  | negated hm _ hl => rw [sites_of_kind hm (by decide), sites_of_literal hl]

theorem placesAll_someParameters (h : SomeParameters ts ns us) :
    placesAll around after ns = [] := by
  induction h generalizing after with
  | last => rfl
  | more _ _ _ _ ih => exact ih

theorem placesAll_parameters (h : Parameters ts ns us) : placesAll around after ns = [] := by
  cases h with
  | none => rfl
  | some h => exact placesAll_someParameters h

theorem sites_passing {byRef : Bool} (h : Passing byRef ts us) : sites ts = sites us := by
  cases h with
  | byRef hc hm => rw [sites_of_kind hc (by decide), sites_of_kind hm (by decide)]
  | byVal hc hm => rw [sites_of_kind hc (by decide), sites_of_kind hm (by decide)]
  | unsaid => rfl

theorem sites_someParameters (h : SomeParameters ts ns us) : sites ts = sites us := by
  induction h with
  | last hn hp => rw [sites_of_kind hn (by decide), sites_passing hp]
  | more hn hp hc _ ih =>
    rw [sites_of_kind hn (by decide), sites_passing hp, sites_of_kind hc (by decide), ih]

theorem sites_parameters (h : Parameters ts ns us) : sites ts = sites us := by
  cases h with
  | none => rfl
  | some h => exact sites_someParameters h

theorem sites_marked {kind : TokenKind} {isMarked : Bool} (h : Marked kind isMarked ts us)
    (hk : kind ∉ ruledKeywords) : sites ts = sites us := by
  cases h with
  | present ht => exact sites_of_kind ht hk _
  | absent => rfl

theorem sites_visibility {isPublic : Bool} (h : Visibility isPublic ts us) :
    sites ts = sites us := by
  cases h with
  | shown hk => exact sites_of_kind hk (by decide) _
  | hidden hk => exact sites_of_kind hk (by decide) _
  | unsaid => rfl

theorem sites_parent {parent : Option String} (h : Parent parent ts us) : sites ts = sites us := by
  cases h with
  | inherited hi hn => rw [sites_of_kind hi (by decide), sites_of_kind hn (by decide)]
  | none => rfl

end Parts

/-! ## Whole constructs -/

/-- Whether a default clause comes before the construct. -/
def Construct.afterDefault : Construct → Bool
  | clauses afterDefault => afterDefault
  | _ => false

/-- A default clause has a place, and no expression has one. -/
theorem not_isDefault_of_phrase {phrase : Phrase} {ts us : List Token} {n : Node}
    (h : phrase.Derives ts [n] us) : n.isDefault = false := by
  have hp : n.places [] false = [] := places_phrase h
  cases n with
  | array => rfl
  | tree label children => cases label <;> first | rfl | cases hp

theorem not_isDefault_of_statement {ordered : Bool} {ts us : List Token} {n : Node}
    (h : Construct.Derives ordered .statement ts [n] us) : n.isDefault = false := by
  cases h with
  | call hd => exact not_isDefault_of_phrase hd
  | ofSubroutine h =>
    cases h with
    | @ofSort sort => cases sort <;> rfl
  | _ => rfl

section Rows

variable {ts ts' us us' : List Token} {ns others : List Node} {c e n : Node}
  {around : List Label} {after : Bool}

/-- A block has the places of its statements. -/
@[simp] theorem places_block :
    (blockOf ns).places around after = placesAll (.block :: around) false ns :=
  places_of_keyword rfl

/-! ### The places of a construct are those of its statements -/

theorem places_assign {isGlobal : Bool} (ht : Phrase.Derives (.chain false) ts [c] us)
    (hv : Whole ts' e us') : (Node.tree (.assign isGlobal) [c, e]).places around after = [] := by
  rw [places_of_keyword rfl, placesAll_cons, placesAll_singleton, places_phrase ht,
    places_phrase hv]
  rfl

theorem places_branch (hc : Whole ts c us) :
    (Node.tree .branch [c, blockOf ns]).places around after =
      placesAll (.block :: .branch :: around) false ns := by
  rw [places_of_keyword rfl, placesAll_cons, places_phrase hc, placesAll_singleton, places_block]
  rfl

theorem places_if (hc : Whole ts c us) :
    (Node.tree .ifStatement (.tree .branch [c, blockOf ns] :: others)).places around after =
      placesAll (.block :: .branch :: .ifStatement :: around) false ns ++
        placesAll (.ifStatement :: around) false others := by
  rw [places_of_keyword rfl, placesAll_cons, places_branch hc]
  rfl

theorem places_elseBranch :
    (Node.tree .elseBranch [blockOf ns]).places around after =
      placesAll (.block :: .elseBranch :: around) false ns := by
  rw [places_of_keyword rfl, placesAll_singleton, places_block]

theorem places_for {name : String} (hf : Whole ts c us) (hl : Whole ts' e us') :
    (Node.tree .forLoop [.tree (.identifier name) [], c, e, blockOf ns]).places around after =
      placesAll (.block :: .forLoop :: around) false ns := by
  rw [places_of_keyword rfl, placesAll_cons, places_of_keyword rfl, placesAll_cons, placesAll_cons,
    placesAll_singleton, places_phrase hf, places_phrase hl, places_block]
  rfl

theorem places_while (hc : Whole ts c us) :
    (Node.tree .whileLoop [c, blockOf ns]).places around after =
      placesAll (.block :: .whileLoop :: around) false ns := by
  rw [places_of_keyword rfl, placesAll_cons, placesAll_singleton, places_phrase hc, places_block]
  rfl

theorem places_do (hc : Whole ts c us) :
    (Node.tree .doLoop [blockOf ns, c]).places around after =
      placesAll (.block :: .doLoop :: around) false ns := by
  rw [places_of_keyword rfl, placesAll_cons, placesAll_singleton, places_phrase hc, places_block,
    List.append_nil]

theorem places_switch (he : Whole ts e us) :
    (Node.tree .switch (e :: others)).places around after =
      placesAll (.switch :: around) false others := by
  rw [places_of_keyword rfl, placesAll_cons, places_phrase he, not_isDefault_of_phrase he]
  rfl

theorem placesAll_case (hc : CaseLabel ts c us) :
    placesAll (.caseClause :: around) false [c, blockOf ns] =
      placesAll (.block :: .caseClause :: around) false ns := by
  rw [placesAll_cons, places_caseLabel hc, placesAll_singleton, places_block]
  rfl

theorem placesAll_default :
    placesAll (.defaultClause :: around) false [blockOf ns] =
      placesAll (.block :: .defaultClause :: around) false ns := by
  rw [placesAll_singleton, places_block]

theorem placesAll_sort {label : Label} (hp : Parameters ts others us) :
    placesAll (label :: around) false [.tree .params others, blockOf ns] =
      placesAll (.block :: label :: around) false ns := by
  rw [placesAll_cons, places_of_keyword rfl, placesAll_parameters hp, placesAll_singleton,
    places_block]
  rfl

/-- Behind a case clause a default clause comes before a clause as it did before. -/
theorem placesAll_case_cons :
    placesAll around after (.tree .caseClause [c, blockOf ns] :: others) =
      (Node.tree .caseClause [c, blockOf ns]).places around after ++
        placesAll around after others := by
  have hafter : (after || (Node.tree .caseClause [c, blockOf ns]).isDefault) = after :=
    Bool.or_false after
  rw [placesAll_cons, hafter]

theorem placesAll_default_cons :
    placesAll around after (.tree .defaultClause [blockOf ns] :: others) =
      (Node.tree .defaultClause [blockOf ns]).places around after ++
        placesAll around true others := by
  have hafter : (after || (Node.tree .defaultClause [blockOf ns]).isDefault) = true :=
    Bool.or_true after
  rw [placesAll_cons, hafter]

theorem places_fieldMember {isPublic : Bool} {name : String} :
    (Node.tree (.classMember isPublic) [.tree (.identifier name) []]).places around after = [] := by
  rw [places_of_keyword rfl, placesAll_singleton, places_of_keyword rfl]
  rfl

theorem places_method {isPublic : Bool} :
    (Node.tree (.classMember isPublic) [n]).places around after =
      placesAll (.classMember isPublic :: around) false [n] :=
  places_of_keyword rfl

/-! ### Rules that are broken -/

/-- Only a `return` with a value breaks the rule about the value. -/
theorem eq_return_of_brokenRule {label : Label} {after : Bool} {children : List Node}
    (h : label.brokenRule around after children = some .procedureValue) :
    label = .returnStatement ∧ children ≠ [] := by
  unfold Label.brokenRule at h
  split at h
  case h_3 =>
    refine ⟨rfl, fun hnil => ?_⟩
    subst hnil
    split at h <;> cases h
  case h_9 => cases h
  all_goals split at h <;> simp at h

theorem not_ruled_of_phrase {token : Token} (h : Whole (token :: ts) e us) :
    token.kind ∉ ruledKeywords := by
  obtain ⟨first, rest, hts, hf⟩ := h.opens rfl
  cases hts
  have main : ∀ kind ∈ ruledKeywords,
      kind ∉ (Phrase.expression Phrase.lowestLevel).openers := by decide
  exact fun hmem => main _ hmem hf

end Rows

/-! ## Offences, part by part -/

section Offences

variable {places others : List Place} {place : Place} {ts us vs : List Token} {token : Token}

theorem offences_nil (ts : List Token) : offences [] ts = [] := rfl

theorem offences_congr (h : sites ts = sites us) : offences places ts = offences places us := by
  unfold offences
  rw [h]

theorem offences_cons (hk : token.kind ∈ ruledKeywords) :
    offences (place :: places) (token :: ts) =
      (offence? (place, ⟨token, ts⟩)).toList ++ offences places ts := by
  unfold offences
  rw [sites_ruled hk, List.zip_cons_cons, List.filterMap_cons]
  cases offence? (place, ⟨token, ts⟩) <;> rfl

/-- The offences of two parts are those of the first, then those of the second. -/
theorem offences_append (h : Matches places ts us) :
    offences (places ++ others) ts = offences places ts ++ offences others us := by
  obtain ⟨own, hs, hf⟩ := h
  have hzip : ∀ others, (places ++ others).zip (own ++ sites us) =
      places.zip own ++ others.zip (sites us) := fun others => List.zip_append hf.length_eq
  have hown : offences places ts = (places.zip own).filterMap offence? := by
    have hnil := hzip []
    rw [List.append_nil, List.zip_nil_left, List.append_nil] at hnil
    unfold offences
    rw [hs, hnil]
  rw [hown]
  unfold offences
  rw [hs, hzip, List.filterMap_append]

/-- The offence of a node that is no `return` with a value is that of its keyword. -/
theorem offence?_of_brokenRule {label : Label} {around : List Label} {after : Bool}
    {children : List Node} {kind : TokenKind} (hr : label = .returnStatement → children = []) :
    (offence? (⟨kind, label.brokenRule around after children⟩, ⟨token, ts⟩)).toList =
      Offence.of (label.brokenRule around after children) token := by
  cases hb : label.brokenRule around after children with
  | none => rfl
  | some rule =>
    cases rule with
    | procedureValue =>
      obtain ⟨heq, hne⟩ := eq_return_of_brokenRule hb
      exact absurd (hr heq) hne
    | _ => rfl

/-- A node that is no `return` with a value has its place and its offence where
its keyword is, before those of what is in it. -/
theorem node_of_keyword {label : Label} {around : List Label} {after : Bool}
    {children : List Node} {fault : Option Misplacement} (hl : label.keyword? = some token.kind)
    (hk : token.kind ∈ ruledKeywords) (hr : label = .returnStatement → children = [])
    (hf : label.brokenRule around after children = fault)
    (hp : placesAll (label :: around) false children = places) (hts : sites ts = sites us)
    (hm : Matches places us vs) :
    Matches ((Node.tree label children).places around after) (token :: ts) vs ∧
      offences ((Node.tree label children).places around after) (token :: ts) =
        Offence.of fault token ++ offences places us := by
  rw [places_tree, hl, hp]
  refine ⟨(hm.congr hts).cons hk ⟨rfl, fun hb => ?_⟩, ?_⟩
  · obtain ⟨heq, hne⟩ := eq_return_of_brokenRule hb
    exact absurd (hr heq) hne
  · change offences (_ :: places) (token :: ts) = _
    rw [offences_cons hk, offence?_of_brokenRule hr, hf, offences_congr hts]

/-! ## The offences of a whole text -/

/-- Every place with its site gives the offence against the rule that is broken there. -/
theorem rule_offence? {site : Site} (h : place.Fits site) :
    (offence? (place, site)).map Offence.rule = place.broken := by
  obtain ⟨keyword, broken⟩ := place
  cases broken with
  | none => rfl
  | some rule =>
    cases rule with
    | procedureValue =>
      obtain ⟨next, rest, hb, -⟩ := h.value rfl
      simp only [offence?, hb]
      rfl
    | _ => rfl

theorem keywords_of_forall₂ {own : List Site} (h : List.Forall₂ Place.Fits places own) :
    places.map Place.keyword = own.map (·.keyword.kind) := by
  induction h with
  | nil => rfl
  | cons hf _ ih => rw [List.map_cons, List.map_cons, hf.keyword, ih]

theorem rules_of_forall₂ {own : List Site} (h : List.Forall₂ Place.Fits places own) :
    ((places.zip own).filterMap offence?).map Offence.rule = places.filterMap Place.broken := by
  induction h with
  | nil => rfl
  | cons hf _ ih =>
    rw [List.zip_cons_cons, List.filterMap_cons, List.filterMap_cons, ← rule_offence? hf, ← ih]
    cases offence? (_, _) <;> rfl

/-- What offends comes in the order of the tokens. -/
theorem offending_tokens_are_in_order (h : List.Forall₂ Place.Fits places (sites ts)) :
    ((offences places ts).map Offence.token).Sublist ts := by
  induction hn : ts.length using Nat.strongRecOn generalizing places ts with
  | ind n ih =>
  subst hn
  cases ts with
  | nil =>
    cases h
    exact .slnil
  | cons token ts =>
    by_cases hk : token.kind ∈ ruledKeywords
    · rw [sites_ruled hk] at h
      cases h with
      | @cons place _ places _ hf hfs =>
        have hrest := ih ts.length (by simp) hfs rfl
        obtain ⟨keyword, broken⟩ := place
        rw [offences_cons hk]
        cases broken with
        | none => exact hrest.cons token
        | some rule =>
          cases rule with
          | procedureValue =>
            -- The value is the token behind the keyword, and no keyword itself.
            obtain ⟨next, rest, rfl, hnext⟩ : ∃ next rest, ts = next :: rest ∧ _ := hf.value rfl
            rw [sites_plain hnext] at hfs
            rw [offences_congr (sites_plain hnext rest)]
            have hlt : rest.length < (token :: next :: rest).length := by
              simp only [List.length_cons]
              omega
            exact ((ih rest.length hlt hfs rfl).cons_cons next).cons token
          | _ => exact hrest.cons_cons token
    · rw [sites_plain hk] at h
      rw [offences_congr (sites_plain hk ts)]
      exact (ih ts.length (by simp) h rfl).cons token

end Offences

end Pseudocode
