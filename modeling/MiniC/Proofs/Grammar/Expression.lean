import MiniC.Proofs.Grammar.Placed
import MiniC.Proofs.Grammar.Run

/-!
The rules for expressions against the grammar. With `levels` levels left, the rule for a layer reads
exactly the expressions of that layer whose demand is at most `levels`, up to a token that is no
operator of the layer, and an expression with a greater demand runs into the limit.
-/

namespace MiniC

open MiniC.Language Grammar

/-! Operators are told apart by their spelling. -/

theorem BinaryOp.ofLexeme?_eq_some_iff {text : String} {op : BinaryOp} :
    BinaryOp.ofLexeme? text = some op ↔ text = op.lexeme := by
  constructor
  · intro h
    have := List.find?_some h
    exact (beq_iff_eq.1 this).symm
  · rintro rfl
    cases op <;> decide

theorem Token.binaryOp?_eq_some_iff {token : Token} {op : BinaryOp} :
    token.binaryOp? = some op ↔ token.terminal = operator op.lexeme := by
  simp [Token.binaryOp?, Token.terminal, operator, BinaryOp.ofLexeme?_eq_some_iff]

theorem Token.unaryOp?_eq_some_iff {token : Token} {op : UnaryOp} :
    token.unaryOp? = some op ↔ token.terminal = operator op.lexeme := by
  rw [Token.unaryOp?]
  split
  · next h =>
    rw [Token.isOperator_iff] at h
    cases op <;> simp [h, UnaryOp.lexeme]
  · next h =>
    split
    · next h' =>
      rw [Token.isOperator_iff] at h'
      cases op <;> simp [h', UnaryOp.lexeme]
    · next h' =>
      rw [Token.isOperator_iff] at h h'
      cases op <;> simp [h, h', UnaryOp.lexeme]

namespace Language

namespace Layer

/-- The levels whose operators a layer takes, loosest first. -/
def levels : Layer → List Level
  | .level l => l.andTighter
  | .unary | .primary => []

/-- The rule that parses a layer. -/
def rule (layer : Layer) (levels : Nat) : Parse Expr :=
  match layer with
  | .level l => atLevel levels l
  | .unary => Grammar.unary (Grammar.group levels)
  | .primary => Grammar.primary (Grammar.group levels)

/-- An expression of the layer may end before these tokens: they do not go on with an operator that
the layer would take. -/
def Stops (layer : Layer) (rest : List Token) : Prop :=
  ∀ op, rest.head?.bind Token.binaryOp? = some op → op.level ∉ layer.levels

/-- Induction from the tightest layer to the loosest. -/
theorem induct {P : Layer → Prop} (primary : P .primary) (unary : P .primary → P .unary)
    (level : ∀ level, P (operand level) → P (.level level)) (layer : Layer) : P layer := by
  -- all the way up once, then each layer is one of the steps
  have hu := unary primary
  have hm := level .multiplicative hu
  have ha := level .additive hm
  have hr := level .relational ha
  have he := level .equality hr
  have hl := level .logicalAnd he
  cases layer with
  | primary => exact primary
  | unary => exact hu
  | level l =>
    cases l with
    | logicalOr => exact level .logicalOr hl
    | logicalAnd => exact hl
    | equality => exact he
    | relational => exact hr
    | additive => exact ha
    | multiplicative => exact hm

end Layer

theorem levels_level (level : Level) :
    (Layer.level level).levels = level :: (operand level).levels := by
  cases level <;> rfl

theorem not_mem_levels_operand (level : Level) : level ∉ (operand level).levels := by
  cases level <;> decide

theorem rule_operand (levels : Nat) (level : Level) :
    (operand level).rule levels =
      layered (Grammar.group levels) (fold levels) level.tighter := by
  cases level <;> rfl

theorem rule_level (levels : Nat) (level : Level) :
    (Layer.level level).rule levels = (operand level).rule levels >>= fold levels level := by
  cases level <;> rfl

theorem Layer.stops_cons {layer : Layer} {token : Token} {rest : List Token} :
    layer.Stops (token :: rest) ↔
      ∀ op : BinaryOp, token.terminal = operator op.lexeme → op.level ∉ layer.levels := by
  simp [Layer.Stops, Token.binaryOp?_eq_some_iff]

/-- A terminal that is no binary operator ends every expression. -/
theorem Layer.stops_of_terminal {layer : Layer} {token : Token} {rest : List Token}
    (h : ∀ op : BinaryOp, token.terminal ≠ operator op.lexeme) : layer.Stops (token :: rest) :=
  Layer.stops_cons.2 fun op hop => absurd hop (h op)

theorem Layer.Stops.operand {level : Level} {rest : List Token}
    (h : (Layer.level level).Stops rest) : (operand level).Stops rest := by
  intro op hop
  have := h op hop
  rw [levels_level] at this
  exact fun hm => this (List.mem_cons_of_mem _ hm)

/-- The lookahead is no operator of the level itself. -/
theorem Layer.Stops.binaryOp?_eq_none {level : Level} {c : Cursor}
    (h : (Layer.level level).Stops c.ahead) : c.binaryOp? level = none := by
  rw [Cursor.binaryOp?, Option.filter_eq_none_iff]
  intro op hop
  have := h op hop
  rw [levels_level] at this
  simp only [List.mem_cons, not_or] at this
  simpa using this.1

theorem Layer.stops_level {level : Level} {c : Cursor} (h : (operand level).Stops c.ahead)
    (hn : c.binaryOp? level = none) : (Layer.level level).Stops c.ahead := by
  intro op hop
  rw [levels_level, List.mem_cons, not_or]
  refine ⟨?_, h op hop⟩
  rw [Cursor.binaryOp?, Option.filter_eq_none_iff] at hn
  simpa using hn op hop

theorem binaryOp?_eq_some {c : Cursor} {level : Level} {op : BinaryOp}
    (h : c.binaryOp? level = some op) :
    op.level = level ∧ ∃ token rest, c.ahead = token :: rest ∧
      token.terminal = operator op.lexeme := by
  rw [Cursor.binaryOp?, Option.filter_eq_some_iff] at h
  obtain ⟨hop, hl⟩ := h
  refine ⟨by simpa using hl, ?_⟩
  cases ha : c.ahead with
  | nil => simp [ha] at hop
  | cons token rest =>
    rw [ha, List.head?_cons, Option.bind_some, Token.binaryOp?_eq_some_iff] at hop
    exact ⟨token, rest, rfl, hop⟩

theorem binaryOp?_cons {c : Cursor} {token : Token} {rest : List Token} {op : BinaryOp}
    (h : c.ahead = token :: rest) (ht : token.terminal = operator op.lexeme) :
    c.binaryOp? op.level = some op := by
  simp [Cursor.binaryOp?, h, Token.binaryOp?_eq_some_iff.2 ht]

/-! What is parsed is derived. The induction is on the levels left: it carries the rule for
parentheses and the folds of chains, from which the layers follow, tightest first. -/

/-- All that a rule parses are expressions of the layer that fit into the levels and end where the
rule stops. -/
def Layer.Reads (layer : Layer) (levels : Nat) (rule : Parse Expr) : Prop :=
  ∀ ⦃c e c'⦄, rule c = .ok e c' → ∃ used demand, c.Moved used c' ∧
    Expression layer (used.map Token.terminal) (e.relabel .unplaced) demand ∧ demand ≤ levels ∧
    layer.Stops c'.ahead

/-- From one place to another `left` is extended to `e` by links of the level, which fit. -/
def Extended (levels : Nat) (level : Level) (left e : Expr) (c c' : Cursor) : Prop :=
  ∃ used, ∃ links : List Link, c.Moved used c' ∧
    used.map Token.terminal = links.flatMap Link.written ∧
    (∀ link ∈ links, link.op.level = level) ∧
    (∀ link ∈ links, Expression (operand level) link.text link.tree link.demand) ∧
    e.relabel .unplaced = links.foldl Link.join (left.relabel .unplaced) ∧
    chainDemand 1 (links.map Link.demand) ≤ levels ∧ (Layer.level level).Stops c'.ahead

/-- All that a fold adds, after an operand that has ended, are links of its level. -/
def FoldReads (levels : Nat) : Prop :=
  ∀ ⦃level left c e c'⦄, fold levels level left c = .ok e c' → (operand level).Stops c.ahead →
    Extended levels level left e c c'

theorem atom?_expression {token : Token} {e : Expr} (h : atom? token = some e) :
    Expression .primary [token.terminal] (e.relabel .unplaced) 0 := by
  obtain ⟨kind, lexeme, span⟩ := token
  cases kind with
  | integer =>
    obtain ⟨value, hv, rfl⟩ := Option.map_eq_some_iff.1 h
    exact .integer hv
  | float =>
    obtain ⟨value, hv, rfl⟩ := Option.map_eq_some_iff.1 h
    exact .float hv
  | string =>
    cases h
    exact .string
  | identifier =>
    cases h
    exact .name
  | keyword => cases h
  | operator => cases h

/-- A primary expression has no operators of its own, so it may end anywhere. -/
theorem stops_primary (rest : List Token) : Layer.primary.Stops rest :=
  fun _ _ => List.not_mem_nil

theorem atom_reads (levels : Nat) : Layer.primary.Reads levels Grammar.atom := by
  intro c e c' h
  rw [Grammar.atom, Parse.bind_ok] at h
  obtain ⟨token, c₁, hm, h⟩ := h
  cases hatom : atom? token with
  | none => simp [hatom] at h
  | some expr =>
    simp only [hatom, Parse.pure_ok] at h
    obtain ⟨rfl, rfl⟩ := h
    exact ⟨[token], 0, Parse.advance_ok hm, atom?_expression hatom, Nat.zero_le _, stops_primary _⟩

theorem primary_reads {levels : Nat} (hg : Layer.primary.Reads levels (Grammar.group levels)) :
    Layer.primary.Reads levels (Grammar.primary (Grammar.group levels)) := by
  intro c e c' h
  rw [Grammar.primary, Parse.bind_ok] at h
  obtain ⟨token, c₁, hp, h⟩ := h
  obtain ⟨rfl, -⟩ := Parse.peek_ok hp
  cases hk : token.kind with
  | operator =>
    simp only [hk] at h
    split at h
    · exact hg h
    · simp at h
  | keyword => simp [hk] at h
  | _ => exact atom_reads levels (by simpa only [hk] using h)

theorem unary_reads {levels : Nat}
    (hp : Layer.primary.Reads levels (Grammar.primary (Grammar.group levels))) :
    Layer.unary.Reads levels (Grammar.unary (Grammar.group levels)) := by
  intro c e c' h
  simp only [Grammar.unary, Parse.get_bind_run] at h
  cases hop : c.ahead.head?.bind Token.unaryOp? with
  | none =>
    rw [hop] at h
    obtain ⟨used, demand, hm, he, hd, hs⟩ := hp h
    exact ⟨used, demand, hm, .plain he, hd, hs⟩
  | some op =>
    rw [hop] at h
    simp only [Parse.bind_ok, Parse.pure_ok] at h
    obtain ⟨token, c₁, ht, operand, c₂, hr, rfl, rfl⟩ := h
    have hm := Parse.advance_ok ht
    rw [hm.ahead, List.singleton_append, List.head?_cons, Option.bind_some,
      Token.unaryOp?_eq_some_iff] at hop
    obtain ⟨used, demand, hm', he, hd, hs⟩ := hp hr
    refine ⟨[token] ++ used, demand, hm.trans hm', ?_, hd, hs⟩
    rw [List.map_append, List.map_singleton, hop]
    exact .signed op he

/-- One more fold above a chain asks for one more level. -/
theorem chainDemand_succ_le {index levels : Nat} {demands : List Nat} :
    chainDemand (index + 1) demands ≤ levels + 1 ↔ chainDemand index demands ≤ levels := by
  induction demands generalizing index with
  | nil => simp [chainDemand]
  | cons demand demands ih =>
    simp only [chainDemand, Nat.max_le, ih]
    omega

theorem level_reads {levels : Nat} {level : Level} (hf : FoldReads levels)
    (ho : (operand level).Reads levels ((operand level).rule levels)) :
    (Layer.level level).Reads levels ((Layer.level level).rule levels) := by
  intro c e c' h
  rw [rule_level, Parse.bind_ok] at h
  obtain ⟨left, c₁, hl, h⟩ := h
  obtain ⟨used, demand, hm, he, hd, hs⟩ := ho hl
  obtain ⟨used', links, hm', ht, hlevel, hlinks, htree, hd', hs'⟩ := hf h hs
  refine ⟨used ++ used', chainDemand 0 (demand :: links.map Link.demand), hm.trans hm', ?_, ?_,
    hs'⟩
  · rw [List.map_append, ht, htree]
    exact .chain he hlevel hlinks
  · -- the first operand stands below no fold, the links below one and more
    simp only [chainDemand, Nat.max_le]
    exact ⟨by omega, hd'⟩

/-- All layers follow from parentheses and folds. -/
theorem rule_reads {levels : Nat} (hg : Layer.primary.Reads levels (Grammar.group levels))
    (hf : FoldReads levels) (layer : Layer) : layer.Reads levels (layer.rule levels) := by
  induction layer using Layer.induct with
  | primary => exact primary_reads hg
  | unary hp => exact unary_reads hp
  | level level ho => exact level_reads hf ho

theorem group_succ_reads {levels : Nat}
    (h : (Layer.level .logicalOr).Reads levels ((Layer.level .logicalOr).rule levels)) :
    Layer.primary.Reads (levels + 1) (Grammar.group (levels + 1)) := by
  intro c e c' hr
  rw [Grammar.group, Parse.nested_ok] at hr
  simp only [parenthesised, Parse.bind_ok, Parse.pure_ok] at hr
  obtain ⟨opening, c₁, ho, expr, c₂, hx, closing, c₃, hc, rfl, rfl⟩ := hr
  obtain ⟨hm, ht⟩ := Parse.expectOperator_ok ho
  obtain ⟨used, demand, hm', he, hd, -⟩ := h hx
  obtain ⟨hm'', ht'⟩ := Parse.expectOperator_ok hc
  refine ⟨[opening] ++ (used ++ [closing]), 1 + demand, hm.trans (hm'.trans hm''), ?_,
    by omega, stops_primary _⟩
  simp only [List.map_append, List.map_singleton, ht, ht']
  exact .group he

theorem fold_of_binaryOp?_eq_none {level : Level} {c : Cursor} (h : c.binaryOp? level = none)
    (levels : Nat) (left : Expr) : fold levels level left c = .ok left c := by
  cases levels <;> simp [fold, h]

theorem extended_of_binaryOp?_eq_none {levels : Nat} {level : Level} {left e : Expr}
    {c c' : Cursor} (h : fold levels level left c = .ok e c') (hs : (operand level).Stops c.ahead)
    (hn : c.binaryOp? level = none) : Extended levels level left e c c' := by
  rw [fold_of_binaryOp?_eq_none hn] at h
  cases h
  exact ⟨[], [], .refl c, rfl, by simp, by simp, rfl, by simp [chainDemand],
    Layer.stops_level hs hn⟩

theorem fold_succ_reads {levels : Nat}
    (ho : ∀ level, (operand level).Reads levels ((operand level).rule levels))
    (hf : FoldReads levels) : FoldReads (levels + 1) := by
  intro level left c e c' h hs
  cases hop : c.binaryOp? level with
  | none => exact extended_of_binaryOp?_eq_none h hs hop
  | some op =>
    obtain ⟨hlevel, token, rest, ha, ht⟩ := binaryOp?_eq_some hop
    simp only [fold, Parse.get_bind_run, hop, Parse.nested_ok, Parse.bind_ok] at h
    obtain ⟨t, c₁, hadv, right, c₂, hr, h⟩ := h
    have hm := Parse.advance_ok hadv
    obtain rfl : t = token := (List.cons.inj (hm.ahead.symm.trans ha)).1
    rw [← rule_operand] at hr
    obtain ⟨used, demand, hm', he, hd, hs'⟩ := ho level hr
    obtain ⟨used', links, hm'', htext, hlevels, hlinks, htree, hd', hs''⟩ := hf h hs'
    refine ⟨[t] ++ (used ++ used'), ⟨op, used.map Token.terminal, _, demand⟩ :: links,
      hm.trans (hm'.trans hm''), ?_, ?_, ?_, htree, ?_, hs''⟩
    · simp only [List.map_append, List.map_singleton, ht, htext, List.flatMap_cons, Link.written]
      rfl
    · simpa [hlevel] using hlevels
    · simpa using ⟨he, hlinks⟩
    · simp only [List.map_cons, chainDemand, Nat.max_le, chainDemand_succ_le]
      exact ⟨by omega, hd'⟩

theorem group_and_fold_read (levels : Nat) :
    Layer.primary.Reads levels (Grammar.group levels) ∧ FoldReads levels := by
  induction levels with
  | zero =>
    -- parentheses fail at once, and a fold can only end
    refine ⟨?_, ?_⟩
    · intro c e c' h
      cases h
    · intro level left c e c' h hs
      cases hop : c.binaryOp? level with
      | none => exact extended_of_binaryOp?_eq_none h hs hop
      | some op =>
        simp only [fold, Parse.get_bind_run, hop] at h
        cases h
  | succ levels ih =>
    -- both go on with whole layers, at one level less
    have hr := rule_reads ih.1 ih.2
    exact ⟨group_succ_reads (hr _), fold_succ_reads (fun level => hr _) ih.2⟩

/-- Soundness of the rules for expressions, for every layer and any number of levels left. -/
theorem layer_reads (levels : Nat) (layer : Layer) : layer.Reads levels (layer.rule levels) :=
  rule_reads (group_and_fold_read levels).1 (group_and_fold_read levels).2 layer

/-! What is derived is parsed, or runs into the limit. The induction is on the derivation with
places, for any number of levels left and any tokens that may follow. -/

/-- The rule of the layer takes these tokens before all that does not go on with them, and gives
just this tree. -/
def Layer.TakesPlaced (layer : Layer) (used : List Token) (tree : Expr) (demand : Nat) : Prop :=
  ∀ ⦃levels c rest⦄, c.ahead = used ++ rest → layer.Stops rest →
    (layer.rule levels).Takes c used (demand ≤ levels) (· = tree)

section

variable {c : Cursor} {token : Token} {used rest : List Token} {tree : Expr} {demand levels : Nat}

/-- A token that stands for a literal or a name. -/
theorem atom_takes (h : atom? token = some tree) : Layer.primary.TakesPlaced [token] tree 0 := by
  intro levels c rest ha _
  have hatom : Grammar.atom.Takes c [token] True (· = tree) := by
    refine Parse.Takes.after (Parse.advance_cons ha) fun c' _ => ?_
    simp only [h]
    exact .pure rfl
  refine Parse.Takes.congr (.peek ha ?_) (iff_of_true trivial (Nat.zero_le levels))
  cases hk : token.kind with
  | keyword => simp [atom?, hk] at h
  | operator => simp [atom?, hk] at h
  | _ => exact hatom

/-- At an opening parenthesis the rule for primary expressions is that for groups. -/
theorem primary_takes_group {fits : Prop} {good : Expr → Prop} (ha : c.ahead = token :: rest)
    (ht : token.terminal = operator "(")
    (h : (Grammar.group levels).Takes c used fits good) :
    (Layer.primary.rule levels).Takes c used fits good := by
  obtain ⟨hk, hl⟩ := Prod.mk.inj ht
  refine .peek ha ?_
  simp only [hk]
  rw [if_pos hl]
  exact h

/-- Closing punctuation is no binary operator. -/
theorem stops_closing {layer : Layer} {lexeme : String} (h : lexeme = ")" ∨ lexeme = ";")
    (ht : token.terminal = operator lexeme) : layer.Stops (token :: rest) := by
  refine Layer.stops_of_terminal fun op hop => ?_
  rw [ht] at hop
  rcases h with rfl | rfl <;> cases op <;> simp [BinaryOp.lexeme] at hop

/-- A primary expression starts with no unary operator. -/
theorem Placed.unaryOp?_head (h : Placed .primary used tree demand) :
    ∃ first others, used = first :: others ∧ first.unaryOp? = none := by
  have hnone : ∀ first : Token, (∀ op : UnaryOp, first.terminal ≠ operator op.lexeme) →
      first.unaryOp? = none := by
    intro first hne
    rw [Option.eq_none_iff_forall_ne_some]
    exact fun op hop => hne op (Token.unaryOp?_eq_some_iff.1 hop)
  cases h with
  | group ho _ _ =>
    refine ⟨_, _, rfl, hnone _ ?_⟩
    rintro (_ | _) <;> simp [ho, UnaryOp.lexeme]
  | integer hk _ | float hk _ | string hk | name hk =>
    exact ⟨_, _, rfl, hnone _ fun op => by simp [Token.terminal, hk]⟩

theorem group_takes {opening closing : Token} (ho : opening.terminal = operator "(")
    (ih : (Layer.level .logicalOr).TakesPlaced used tree demand)
    (hc : closing.terminal = operator ")") (ha : c.ahead = opening :: used ++ [closing] ++ rest) :
    (Grammar.group levels).Takes c (opening :: used ++ [closing]) (1 + demand ≤ levels)
      (· = tree) := by
  cases levels with
  | zero => exact Parse.Takes.tooDeep.congr (by simp)
  | succ levels =>
    refine Parse.Takes.congr (Parse.Takes.nested ?_)
      (show demand ≤ levels ∧ True ↔ 1 + demand ≤ levels + 1 by rw [and_true]; omega)
    have ha' : c.ahead = opening :: (used ++ closing :: rest) := by simpa using ha
    show Parse.Takes _ c ([opening] ++ (used ++ [closing])) _ _
    refine .after (Parse.expectOperator_cons ha' ho) fun c₁ hm => ?_
    have ha₁ : c₁.ahead = used ++ (closing :: rest) := hm.rest_eq ha'
    refine .bind (ih ha₁ (stops_closing (.inl rfl) hc)) fun e c₂ hm he => ?_
    have ha₂ : c₂.ahead = closing :: rest := hm.rest_eq ha₁
    exact .after (Parse.expectOperator_cons ha₂ hc) fun c₃ _ => .pure he

/-- An operand may end before the next link, whose operator is looser, or where the chain ends. -/
theorem stops_links {level : Level} {links : List PlacedLink}
    (hl : ∀ link ∈ links, link.op.level = level)
    (ht : ∀ link ∈ links, link.token.terminal = operator link.op.lexeme)
    (hs : (Layer.level level).Stops rest) :
    (operand level).Stops (links.flatMap PlacedLink.written ++ rest) := by
  cases links with
  | nil => exact hs.operand
  | cons link links =>
    refine Layer.stops_cons.2 fun op hop => ?_
    have htoken := ht link List.mem_cons_self
    -- the token spells no operator but that of the link, which the operand does not take
    have heq : op = link.op := by
      rw [← Token.binaryOp?_eq_some_iff] at hop htoken
      exact Option.some.inj (hop.symm.trans htoken)
    rw [heq, hl link List.mem_cons_self]
    exact not_mem_levels_operand level

/-- A fold takes the links that follow, each below one fold more than the one before. -/
theorem fold_takes {level : Level} {links : List PlacedLink}
    (hl : ∀ link ∈ links, link.op.level = level)
    (ht : ∀ link ∈ links, link.token.terminal = operator link.op.lexeme)
    (ih : ∀ link ∈ links, (operand level).TakesPlaced link.text link.tree link.demand) :
    ∀ {levels : Nat} {c : Cursor} {rest : List Token} (left : Expr),
      c.ahead = links.flatMap PlacedLink.written ++ rest → (Layer.level level).Stops rest →
      (fold levels level left).Takes c (links.flatMap PlacedLink.written)
        (chainDemand 1 (links.map PlacedLink.demand) ≤ levels)
        (· = links.foldl PlacedLink.join left) := by
  induction links with
  | nil =>
    intro levels c rest left ha hs
    have hn : c.binaryOp? level = none := Layer.Stops.binaryOp?_eq_none (ha ▸ hs)
    exact ⟨fun _ => ⟨left, c, fold_of_binaryOp?_eq_none hn _ _, .refl c, rfl⟩,
      fun h => absurd (Nat.zero_le _) h⟩
  | cons link links ihl =>
    intro levels c rest left ha hs
    have hlevel := hl link List.mem_cons_self
    have htoken := ht link List.mem_cons_self
    have hl' : ∀ link ∈ links, link.op.level = level := fun l h => hl l (List.mem_cons_of_mem _ h)
    have ht' : ∀ link ∈ links, link.token.terminal = operator link.op.lexeme :=
      fun l h => ht l (List.mem_cons_of_mem _ h)
    have ha' : c.ahead =
        link.token :: (link.text ++ (links.flatMap PlacedLink.written ++ rest)) := by
      simpa [PlacedLink.written] using ha
    have hop : c.binaryOp? level = some link.op := hlevel ▸ binaryOp?_cons ha' htoken
    cases levels with
    | zero =>
      -- any link at all asks for a level
      simp only [fold]
      refine .get ?_
      simp only [hop]
      exact Parse.Takes.tooDeep.congr (by simp [chainDemand])
    | succ levels =>
      simp only [fold]
      refine .get ?_
      simp only [hop]
      have hfits : link.demand ≤ levels ∧ chainDemand 1 (links.map PlacedLink.demand) ≤ levels ↔
          chainDemand 1 ((link :: links).map PlacedLink.demand) ≤ levels + 1 := by
        simp only [List.map_cons, chainDemand, Nat.max_le, chainDemand_succ_le]
        omega
      refine Parse.Takes.congr (Parse.Takes.nested ?_) hfits
      show Parse.Takes _ c
        ([link.token] ++ (link.text ++ links.flatMap PlacedLink.written)) _ _
      refine .after (Parse.advance_cons ha') fun c₁ hm => ?_
      have ha₁ := hm.rest_eq ha'
      rw [← rule_operand]
      refine .bind (ih link List.mem_cons_self ha₁ (stops_links hl' ht' hs)) fun e c₂ hm he => ?_
      -- the fold goes on from the new node, which is that of the chain
      obtain rfl := he
      exact ihl hl' ht' (fun l h => ih l (List.mem_cons_of_mem _ h)) _ (hm.rest_eq ha₁) hs

end

/-- Completeness of the rules for expressions, with the exact tree and the exact demand. -/
theorem Placed.takes {layer : Layer} {used : List Token} {tree : Expr} {demand : Nat}
    (h : Placed layer used tree demand) : layer.TakesPlaced used tree demand := by
  induction h with
  | integer hk hv => exact atom_takes (by simp [atom?, hk, hv])
  | float hk hv => exact atom_takes (by simp [atom?, hk, hv])
  | string hk => exact atom_takes (by simp [atom?, hk])
  | name hk => exact atom_takes (by simp [atom?, hk])
  | group ho _ hc ih =>
    intro levels c rest ha _
    exact primary_takes_group (by simpa using ha) ho (group_takes ho ih hc ha)
  | plain h ih =>
    intro levels c rest ha _
    obtain ⟨first, others, rfl, hn⟩ := h.unaryOp?_head
    -- no sign stands ahead, so the rule is that for primary expressions
    refine .get ?_
    simp only [ha, List.cons_append, List.head?_cons, Option.bind_some, hn]
    exact ih ha (stops_primary _)
  | @signed token text tree demand op ht _ ih =>
    intro levels c rest ha _
    refine .get ?_
    simp only [ha, List.cons_append, List.head?_cons, Option.bind_some,
      Token.unaryOp?_eq_some_iff.2 ht]
    show Parse.Takes _ c ([token] ++ text) _ _
    refine .after (Parse.advance_cons ha) fun c₁ hm => ?_
    refine .map (ih (hm.rest_eq ha) (stops_primary _)) fun e he => ?_
    rw [he]
  | @chain level text tree demand links _ hl ht _ ih ihl =>
    intro levels c rest ha hs
    have ha' : c.ahead = text ++ (links.flatMap PlacedLink.written ++ rest) := by simpa using ha
    have hfits : demand ≤ levels ∧ chainDemand 1 (links.map PlacedLink.demand) ≤ levels ↔
        chainDemand 0 (demand :: links.map PlacedLink.demand) ≤ levels := by
      simp only [chainDemand, Nat.max_le, Nat.zero_add]
    rw [rule_level]
    refine Parse.Takes.congr (.bind (ih ha' (stops_links hl ht hs)) fun e c₁ hm he => ?_) hfits
    obtain rfl := he
    exact fold_takes hl ht ihl _ (hm.rest_eq ha') hs

/-- The rule of the layer accepts these terminals before all that does not go on with them. -/
abbrev Layer.Accepts (layer : Layer) : List Terminal → Expr → Nat → Prop :=
  Parse.Accepts layer.rule (Expr.relabel .unplaced) layer.Stops

/-- Completeness of the rules for expressions, wherever the terminals stand. -/
theorem Expression.accepts {layer : Layer} {text : List Terminal} {tree : Expr} {demand : Nat}
    (h : Expression layer text tree demand) : layer.Accepts text tree demand := by
  intro levels c used rest ha ht hs
  obtain ⟨e, he, htree⟩ := h.places used ht
  exact (he.takes ha hs).mono fun _ h => by rw [h, htree]

end Language

end MiniC
