import MiniC.Proofs.Grammar.Language

/-!
Expressions with their places. The grammar relates terminals to a tree without spans; here the
tokens themselves are related to the very tree that they stand for, each node with the span of its
tokens, the parentheses around it left out. Both derive the same expressions: places can be
forgotten, and wherever the terminals of an expression stand there is a tree with places for them.
-/

namespace MiniC

open Number Grammar

namespace Language

/-- The token of an operator in a chain, with the operand on its right. -/
structure PlacedLink where
  token : Token
  op : BinaryOp
  text : List Token
  tree : Expr
  demand : Nat

namespace PlacedLink

/-- The tokens of a link: the operator and its right operand. -/
def written (link : PlacedLink) : List Token :=
  link.token :: link.text

/-- The tree of a chain extended by one link: it goes from the start of the first operand to the
end of the last. -/
def join (left : Expr) (link : PlacedLink) : Expr :=
  .binary left link.op link.tree none ⟨left.span.start, link.tree.span.stop⟩

/-- The link without its places. -/
def unplaced (link : PlacedLink) : Link :=
  ⟨link.op, link.text.map Token.terminal, link.tree.relabel .unplaced, link.demand⟩

end PlacedLink

/-- An expression of a layer, as `Expression` has it, over tokens and with the spans they give. -/
inductive Placed : Layer → List Token → Expr → Nat → Prop where
  | integer {token value} : token.kind = .integer → readInt64? token.lexeme = some value →
      Placed .primary [token] (.integer value token.span) 0
  | float {token value} : token.kind = .float → Binary64.read? token.lexeme = some value →
      Placed .primary [token] (.float value token.span) 0
  | string {token} : token.kind = .string →
      Placed .primary [token] (.string (stripQuotes token.lexeme) token.span) 0
  | name {token} : token.kind = .identifier →
      Placed .primary [token] (.symbol token.lexeme none token.span) 0
  | group {opening text tree demand closing} : opening.terminal = operator "(" →
      Placed (.level .logicalOr) text tree demand → closing.terminal = operator ")" →
      Placed .primary (opening :: text ++ [closing]) tree (1 + demand)
  | plain {text tree demand} : Placed .primary text tree demand → Placed .unary text tree demand
  | signed {token text tree demand} (op : UnaryOp) : token.terminal = operator op.lexeme →
      Placed .primary text tree demand →
      Placed .unary (token :: text)
        (.unary op tree none ⟨token.span.start, tree.span.stop⟩) demand
  | chain {level text tree demand} {links : List PlacedLink} :
      Placed (operand level) text tree demand →
      (∀ link ∈ links, link.op.level = level) →
      (∀ link ∈ links, link.token.terminal = operator link.op.lexeme) →
      (∀ link ∈ links, Placed (operand level) link.text link.tree link.demand) →
      Placed (.level level) (text ++ links.flatMap PlacedLink.written)
        (links.foldl PlacedLink.join tree) (chainDemand 0 (demand :: links.map PlacedLink.demand))

/-! Chains without their places. -/

theorem relabel_foldl_join (links : List PlacedLink) (tree : Expr) :
    (links.foldl PlacedLink.join tree).relabel .unplaced =
      (links.map PlacedLink.unplaced).foldl Link.join (tree.relabel .unplaced) := by
  induction links generalizing tree with
  | nil => rfl
  | cons link links ih =>
    rw [List.foldl_cons, ih]
    rfl

theorem map_demand_unplaced (links : List PlacedLink) :
    (links.map PlacedLink.unplaced).map Link.demand = links.map PlacedLink.demand := by
  rw [List.map_map]
  rfl

theorem map_terminal_written {links : List PlacedLink}
    (h : ∀ link ∈ links, link.token.terminal = operator link.op.lexeme) :
    (links.flatMap PlacedLink.written).map Token.terminal =
      (links.map PlacedLink.unplaced).flatMap Link.written := by
  induction links with
  | nil => rfl
  | cons link links ih =>
    have hlink := h link List.mem_cons_self
    have hrest := ih fun l hl => h l (List.mem_cons_of_mem _ hl)
    simp only [List.flatMap_cons, List.map_append, List.map_cons, hrest, PlacedLink.written, hlink,
      Link.written, PlacedLink.unplaced]

/-- An expression with places is one of the grammar. -/
theorem Placed.expression {layer : Layer} {text : List Token} {tree : Expr} {demand : Nat}
    (h : Placed layer text tree demand) :
    Expression layer (text.map Token.terminal) (tree.relabel .unplaced) demand := by
  induction h with
  | integer hk hv =>
    rw [List.map_singleton, Token.terminal, hk]
    exact .integer hv
  | float hk hv =>
    rw [List.map_singleton, Token.terminal, hk]
    exact .float hv
  | string hk =>
    rw [List.map_singleton, Token.terminal, hk]
    exact .string
  | name hk =>
    rw [List.map_singleton, Token.terminal, hk]
    exact .name
  | group ho _ hc ih =>
    rw [List.map_append, List.map_cons, List.map_singleton, ho, hc]
    exact .group ih
  | plain _ ih => exact .plain ih
  | signed op ht _ ih =>
    rw [List.map_cons, ht]
    exact .signed op ih
  | @chain level text tree demand links _ hl ht _ ih ihl =>
    rw [List.map_append, map_terminal_written ht, relabel_foldl_join, ← map_demand_unplaced]
    exact .chain ih (by simpa [PlacedLink.unplaced] using hl)
      (by simpa [PlacedLink.unplaced] using ihl)

/-- A layer derives a tree with places for these tokens, which is `tree` without them. -/
def Places (layer : Layer) (tokens : List Token) (tree : Expr) (demand : Nat) : Prop :=
  ∃ e, Placed layer tokens e demand ∧ e.relabel .unplaced = tree

/-- A literal or a name is one token. -/
theorem Places.single {layer : Layer} {kind : Token.Kind} {lexeme : String} {tree : Expr}
    {demand : Nat} {tokens : List Token} (ht : tokens.map Token.terminal = [(kind, lexeme)])
    (h : ∀ span, Places layer [⟨kind, lexeme, span⟩] tree demand) :
    Places layer tokens tree demand := by
  obtain ⟨token, rfl, htoken⟩ := List.map_eq_singleton_iff.1 ht
  obtain ⟨rfl, rfl⟩ := Prod.mk.inj htoken
  exact h token.span

/-- Links can be placed one after the other. -/
theorem exists_placed_links {level : Level} {links : List Link}
    (h : ∀ link ∈ links, ∀ tokens : List Token, tokens.map Token.terminal = link.text →
      Places (operand level) tokens link.tree link.demand) :
    ∀ {tokens : List Token}, tokens.map Token.terminal = links.flatMap Link.written →
      ∃ placed : List PlacedLink, placed.flatMap PlacedLink.written = tokens ∧
        placed.map PlacedLink.unplaced = links ∧
        (∀ link ∈ placed, link.token.terminal = operator link.op.lexeme) ∧
        (∀ link ∈ placed, Placed (operand level) link.text link.tree link.demand) := by
  induction links with
  | nil =>
    intro tokens ht
    obtain rfl : tokens = [] := by simpa using ht
    exact ⟨[], rfl, rfl, by simp, by simp⟩
  | cons link links ih =>
    intro tokens ht
    rw [List.flatMap_cons, List.map_eq_append_iff] at ht
    obtain ⟨first, others, rfl, hf, ho⟩ := ht
    obtain ⟨token, right, rfl, htoken, hright⟩ := List.map_eq_cons_iff.1 hf
    obtain ⟨e, he, htree⟩ := h link List.mem_cons_self right hright
    obtain ⟨placed, hwritten, hlinks, htokens, hplaced⟩ :=
      ih (fun l hl => h l (List.mem_cons_of_mem _ hl)) ho
    have hlink : PlacedLink.unplaced ⟨token, link.op, right, e, link.demand⟩ = link := by
      simp only [PlacedLink.unplaced, hright, htree]
    exact ⟨⟨token, link.op, right, e, link.demand⟩ :: placed,
      by rw [List.flatMap_cons, hwritten]; rfl, by rw [List.map_cons, hlink, hlinks],
      by simpa using ⟨htoken, htokens⟩, by simpa using ⟨he, hplaced⟩⟩

/-- Wherever the terminals of an expression stand, there is a tree with places for them. -/
theorem Expression.places {layer : Layer} {text : List Terminal} {tree : Expr} {demand : Nat}
    (h : Expression layer text tree demand) :
    ∀ tokens : List Token, tokens.map Token.terminal = text → Places layer tokens tree demand := by
  induction h with
  | integer hv => exact fun tokens ht => .single ht fun span => ⟨_, .integer rfl hv, rfl⟩
  | float hv => exact fun tokens ht => .single ht fun span => ⟨_, .float rfl hv, rfl⟩
  | string => exact fun tokens ht => .single ht fun span => ⟨_, .string rfl, rfl⟩
  | name => exact fun tokens ht => .single ht fun span => ⟨_, .name rfl, rfl⟩
  | group _ ih =>
    intro tokens ht
    obtain ⟨opening, used, rfl, ho, ht⟩ := List.map_eq_cons_iff.1 ht
    obtain ⟨inner, last, rfl, hi, hl⟩ := List.map_eq_append_iff.1 ht
    obtain ⟨closing, rfl, hc⟩ := List.map_eq_singleton_iff.1 hl
    obtain ⟨e, he, htree⟩ := ih inner hi
    exact ⟨e, .group ho he hc, htree⟩
  | plain _ ih =>
    intro tokens ht
    obtain ⟨e, he, htree⟩ := ih tokens ht
    exact ⟨e, .plain he, htree⟩
  | signed op _ ih =>
    intro tokens ht
    obtain ⟨token, used, rfl, htoken, hu⟩ := List.map_eq_cons_iff.1 ht
    obtain ⟨e, he, rfl⟩ := ih used hu
    exact ⟨_, .signed op htoken he, rfl⟩
  | @chain level text tree demand links _ hl _ ih ihl =>
    intro tokens ht
    obtain ⟨first, others, rfl, hf, ho⟩ := List.map_eq_append_iff.1 ht
    obtain ⟨e, he, rfl⟩ := ih first hf
    obtain ⟨placed, rfl, rfl, htokens, hplaced⟩ := exists_placed_links ihl ho
    have hlevel : ∀ link ∈ placed, link.op.level = level := by
      simpa [PlacedLink.unplaced] using hl
    refine ⟨_, ?_, relabel_foldl_join placed e⟩
    rw [map_demand_unplaced]
    exact .chain he hlevel htokens hplaced

/-- Places add nothing to the grammar: what tokens place a tree for is what their terminals
derive. -/
theorem places_iff_expression {layer : Layer} {tokens : List Token} {tree : Expr} {demand : Nat} :
    Places layer tokens tree demand ↔
      Expression layer (tokens.map Token.terminal) tree demand := by
  constructor
  · rintro ⟨e, he, rfl⟩
    exact he.expression
  · intro h
    exact h.places tokens rfl

end Language

end MiniC
