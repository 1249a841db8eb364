import MiniC.Proofs.Grammar.Precedence
import MiniC.Proofs.Grammar.Program
import MiniC.Proofs.Tree.Walk

/-!
How high the trees of expressions grow. The limit on nesting does not count the folds of a chain
against its first operand, nor those of one level against another, so the height is not bounded by
the levels left but by a quadratic function of them, which is reached.
-/

namespace MiniC

open MiniC.Language Grammar

/-! The height of a tree. -/

namespace Expr

/-- The number of nodes on the longest path from the root to a leaf. -/
def height : Expr → Nat
  | .binary left _ right _ _ => max left.height right.height + 1
  | .unary _ operand _ _ => operand.height + 1
  | .integer .. | .float .. | .string .. | .symbol .. => 1

@[simp] theorem height_relabel (f : Relabel) (e : Expr) : (e.relabel f).height = e.height := by
  induction e with
  | integer | float | string | symbol => rfl
  | binary left op right type span ihl ihr => simp only [relabel, height, ihl, ihr]
  | unary op operand type span ih => simp only [relabel, height, ih]

theorem height_pos (e : Expr) : 1 ≤ e.height := by
  cases e <;> simp [height]

/-- A walk goes as deep as the tree is high. -/
theorem walk_depth_lt (e : Expr) (depth : Nat) :
    ∀ visited ∈ e.walk depth, visited.1 < depth + e.height := by
  induction e generalizing depth with
  | integer | float | string | symbol => simp [walk, height]
  | binary left op right type span ihl ihr =>
    intro visited hmem
    simp only [walk, List.cons_append, List.mem_cons, List.mem_append] at hmem
    rcases hmem with rfl | hmem | hmem
    · simp only [height]
      omega
    · have := ihl (depth + 1) visited hmem
      simp only [height]
      omega
    · have := ihr (depth + 1) visited hmem
      simp only [height]
      omega
  | unary op operand type span ih =>
    intro visited hmem
    simp only [walk, List.mem_cons] at hmem
    rcases hmem with rfl | hmem
    · simp only [height]
      omega
    · have := ih (depth + 1) visited hmem
      simp only [height]
      omega

end Expr

namespace Language

/-! The greatest heights. -/

/-- The height of the highest expressions with so many levels: parentheses around those with one
level less, a sign, and a chain of each level of precedence. -/
def tallest (levels : Nat) : Nat :=
  3 * levels * (levels + 1) + levels + 2

/-- The height of the highest primary expressions. -/
def tallestPrimary : Nat → Nat
  | 0 => 1
  | levels + 1 => tallest levels

/-- The height of the highest expressions of a layer. Each level of precedence that the layer has
adds a chain of all the levels of nesting. -/
def Layer.tallest (layer : Layer) (levels : Nat) : Nat :=
  match layer with
  | .primary => tallestPrimary levels
  | .unary => tallestPrimary levels + 1
  | .level l => tallestPrimary levels + 1 + l.andTighter.length * levels

theorem tallest_logicalOr (levels : Nat) :
    (Layer.level .logicalOr).tallest levels = tallest levels := by
  cases levels with
  | zero => rfl
  | succ levels =>
    simp only [Layer.tallest, tallestPrimary, tallest, Level.andTighter, List.length_cons,
      List.length_nil, Nat.mul_add, Nat.add_mul, Nat.mul_assoc]
    omega

/-- A level adds the folds of one chain to what it joins. -/
theorem tallest_level (level : Level) (levels : Nat) :
    (Layer.level level).tallest levels = (operand level).tallest levels + levels := by
  cases level <;>
    simp only [Layer.tallest, operand, Level.andTighter, List.length_cons, List.length_nil] <;>
    omega

theorem tallest_mono {levels levels' : Nat} (h : levels ≤ levels') :
    tallest levels ≤ tallest levels' := by
  have : 3 * levels * (levels + 1) ≤ 3 * levels' * (levels' + 1) :=
    Nat.mul_le_mul (Nat.mul_le_mul_left 3 h) (Nat.succ_le_succ h)
  simp only [tallest]
  omega

theorem tallestPrimary_mono {levels levels' : Nat} (h : levels ≤ levels') :
    tallestPrimary levels ≤ tallestPrimary levels' := by
  cases levels with
  | zero =>
    cases levels' with
    | zero => exact Nat.le_refl 1
    | succ levels' =>
      simp only [tallestPrimary, tallest]
      omega
  | succ levels =>
    cases levels' with
    | zero => omega
    | succ levels' => exact tallest_mono (Nat.le_of_succ_le_succ h)

theorem Layer.tallest_mono (layer : Layer) {levels levels' : Nat} (h : levels ≤ levels') :
    layer.tallest levels ≤ layer.tallest levels' := by
  have hprimary := tallestPrimary_mono h
  cases layer with
  | primary => exact hprimary
  | unary => exact Nat.succ_le_succ hprimary
  | level l => exact Nat.add_le_add (Nat.succ_le_succ hprimary) (Nat.mul_le_mul_left _ h)

/-! No tree is higher. -/

/-- Each link of a chain raises it by one node, if no operand is higher than what stands already. -/
theorem height_foldl_join_le {links : List Link} {bound : Nat}
    (hlinks : ∀ link ∈ links, link.tree.height ≤ bound) {tree : Expr}
    (htree : tree.height ≤ bound) :
    (links.foldl Link.join tree).height ≤ bound + links.length := by
  induction links generalizing tree bound with
  | nil => exact htree
  | cons link links ih =>
    have hlink := hlinks link List.mem_cons_self
    have hjoin : (link.join tree).height ≤ bound + 1 := by
      simp only [Link.join, Expr.height]
      omega
    have hrest : ∀ l ∈ links, l.tree.height ≤ bound + 1 := by
      intro l hl
      have := hlinks l (List.mem_cons_of_mem _ hl)
      omega
    have := ih hrest hjoin
    rw [List.foldl_cons, List.length_cons]
    omega

/-- A chain asks for a level for each operand after the first. -/
theorem length_le_chainDemand (index : Nat) (demands : List Nat) :
    demands = [] ∨ index + demands.length ≤ chainDemand index demands + 1 := by
  induction demands generalizing index with
  | nil => exact .inl rfl
  | cons demand demands ih =>
    right
    simp only [chainDemand, List.length_cons]
    rcases ih (index + 1) with rfl | h
    · simp only [List.length_nil]
      omega
    · omega

theorem le_chainDemand {index demand : Nat} {demands : List Nat} (h : demand ∈ demands) :
    demand ≤ chainDemand index demands := by
  induction demands generalizing index with
  | nil => cases h
  | cons first demands ih =>
    simp only [chainDemand]
    rcases List.mem_cons.1 h with rfl | h
    · omega
    · have : demand ≤ chainDemand (index + 1) demands := ih h
      omega

theorem Expression.height_le {layer : Layer} {text : List Terminal} {tree : Expr} {demand : Nat}
    (h : Expression layer text tree demand) : tree.height ≤ layer.tallest demand := by
  induction h with
  | integer | float | string | name => exact Nat.le_refl 1
  | group _ ih =>
    rw [Nat.add_comm]
    rwa [tallest_logicalOr] at ih
  | plain _ ih => exact Nat.le_succ_of_le ih
  | signed op _ ih => exact Nat.succ_le_succ ih
  | @chain level text tree demand links _ _ _ ih ihl =>
    generalize hd : chainDemand 0 (demand :: links.map Link.demand) = total
    have hle : ∀ d ∈ demand :: links.map Link.demand, d ≤ total := fun d h => hd ▸ le_chainDemand h
    -- no operand is higher than one with all levels would be
    have hfirst : tree.height ≤ (operand level).tallest total :=
      Nat.le_trans ih (Layer.tallest_mono _ (hle _ List.mem_cons_self))
    have hlinks : ∀ link ∈ links, link.tree.height ≤ (operand level).tallest total := by
      intro link hl
      have hdemand := hle link.demand (List.mem_cons_of_mem _ (List.mem_map_of_mem hl))
      exact Nat.le_trans (ihl link hl) (Layer.tallest_mono _ hdemand)
    have hlength : links.length ≤ total := by
      have := length_le_chainDemand 0 (demand :: links.map Link.demand)
      simp only [List.length_cons, List.length_map, reduceCtorEq, false_or, hd] at this
      omega
    have := height_foldl_join_le hlinks hfirst
    rw [tallest_level]
    omega

/-! Some trees are that high: in each layer the first operand is as high as it can be, and a chain
of names follows that uses up all levels again. -/

theorem exists_level_op (level : Level) : ∃ op : BinaryOp, op.level = level := by
  cases level
  · exact ⟨.or, rfl⟩
  · exact ⟨.and, rfl⟩
  · exact ⟨.equal, rfl⟩
  · exact ⟨.less, rfl⟩
  · exact ⟨.plus, rfl⟩
  · exact ⟨.times, rfl⟩

/-- An operator with a name after it. -/
def nameLink (op : BinaryOp) : Link :=
  ⟨op, [(.identifier, "x")], .symbol "x" none .null, 0⟩

theorem Expression.symbol (name : String) (layer : Layer) :
    Expression layer [(.identifier, name)] (.symbol name none .null) 0 := by
  induction layer using Layer.induct with
  | primary => exact .name
  | unary hp => exact .plain hp
  | level level ho =>
    exact .chain ho (fun link (hl : link ∈ []) => absurd hl List.not_mem_nil)
      fun link (hl : link ∈ []) => absurd hl List.not_mem_nil

theorem height_foldl_nameLink (op : BinaryOp) (count : Nat) (tree : Expr) :
    ((List.replicate count (nameLink op)).foldl Link.join tree).height = tree.height + count := by
  induction count generalizing tree with
  | zero => rfl
  | succ count ih =>
    have hpos := tree.height_pos
    have hjoin : ((nameLink op).join tree).height = tree.height + 1 := by
      simp only [Link.join, nameLink, Expr.height]
      omega
    rw [List.replicate_succ, List.foldl_cons, ih, hjoin]
    omega

theorem chainDemand_replicate_zero (index count : Nat) :
    chainDemand index (List.replicate count 0) ≤ index + count - 1 := by
  induction count generalizing index with
  | zero => exact Nat.zero_le _
  | succ count ih =>
    have := ih (index + 1)
    simp only [List.replicate_succ, chainDemand]
    omega

/-- With `levels` levels there is an expression of the layer of the greatest height. -/
def Layer.Reached (layer : Layer) (levels : Nat) : Prop :=
  ∃ text tree, Expression layer text tree levels ∧ tree.height = layer.tallest levels

theorem reached_of_primary {levels : Nat} (h : Layer.primary.Reached levels) (layer : Layer) :
    layer.Reached levels := by
  induction layer using Layer.induct with
  | primary => exact h
  | unary hp =>
    obtain ⟨text, tree, he, hh⟩ := hp
    exact ⟨_, _, .signed .negate he, congrArg (· + 1) hh⟩
  | level level ho =>
    obtain ⟨text, tree, he, hh⟩ := ho
    obtain ⟨op, hop⟩ := exists_level_op level
    let links := List.replicate levels (nameLink op)
    have hlinks : ∀ link ∈ links, link = nameLink op := fun link hl => List.eq_of_mem_replicate hl
    have hchain : Expression (.level level) (text ++ links.flatMap Link.written)
        (links.foldl Link.join tree) (chainDemand 0 (levels :: links.map Link.demand)) := by
      refine .chain he ?_ ?_
      · intro link hl
        rw [hlinks link hl]
        exact hop
      · intro link hl
        rw [hlinks link hl]
        exact .symbol "x" _
    have hdemand : chainDemand 0 (levels :: links.map Link.demand) = levels := by
      have := chainDemand_replicate_zero 1 levels
      simp only [links, List.map_replicate, nameLink, chainDemand, Nat.zero_add]
      omega
    rw [hdemand] at hchain
    refine ⟨_, _, hchain, ?_⟩
    rw [height_foldl_nameLink, hh, tallest_level]

theorem reached (levels : Nat) : (Layer.level .logicalOr).Reached levels := by
  induction levels with
  | zero => exact reached_of_primary ⟨_, _, .symbol "x" .primary, rfl⟩ _
  | succ levels ih =>
    obtain ⟨text, tree, he, hh⟩ := ih
    have hgroup := Expression.group he
    rw [Nat.add_comm] at hgroup
    exact reached_of_primary ⟨_, _, hgroup, hh.trans (tallest_logicalOr levels)⟩ _

end Language

/-! Walks through programs. A block takes one level of nesting for the two nodes that it adds to a
path, while with each level expressions grow by more than that. -/

namespace Language

/-- No node that a walk has met is as deep as `bound`. -/
def Shallow (bound : Nat) (walk : List (Nat × Node)) : Prop :=
  ∀ visited ∈ walk, visited.1 < bound

namespace Shallow

variable {bound bound' depth : Nat} {node : Node} {walk walk' : List (Nat × Node)}

theorem nil : Shallow bound [] :=
  fun _ hmem => absurd hmem List.not_mem_nil

theorem cons (hn : depth < bound) (h : Shallow bound walk) :
    Shallow bound ((depth, node) :: walk) := by
  intro visited hmem
  rcases List.mem_cons.1 hmem with rfl | hmem
  · exact hn
  · exact h visited hmem

theorem append (h : Shallow bound walk) (h' : Shallow bound walk') :
    Shallow bound (walk ++ walk') := by
  intro visited hmem
  rcases List.mem_append.1 hmem with hmem | hmem
  · exact h visited hmem
  · exact h' visited hmem

theorem mono (h : Shallow bound walk) (hle : bound ≤ bound') : Shallow bound' walk :=
  fun visited hmem => Nat.lt_of_lt_of_le (h visited hmem) hle

/-- Marks make no walk deeper. -/
theorem of_relabel {f : Relabel} (h : Shallow bound (relabelWalk f walk)) : Shallow bound walk := by
  intro visited hmem
  exact h (visited.1, visited.2.relabel f) (List.mem_map.2 ⟨visited, hmem, rfl⟩)

end Shallow

variable {text : List Terminal} {demand : Nat} (most : Nat)

theorem tallest_succ (levels : Nat) : tallest levels + 2 ≤ tallest (levels + 1) := by
  simp only [tallest, Nat.mul_add, Nat.add_mul]
  omega

theorem le_maxDemand {items : List Item} {item : Item} (h : item ∈ items) :
    item.demand ≤ maxDemand items := by
  induction items with
  | nil => cases h
  | cons first items ih =>
    simp only [maxDemand]
    rcases List.mem_cons.1 h with rfl | h
    · omega
    · have := ih h
      omega

theorem shallow_expression {e : Expr} (h : AnyExpression text e demand) (hle : demand ≤ most)
    (depth : Nat) : Shallow (depth + tallest most) (e.walk depth) := by
  have hheight := h.height_le
  rw [tallest_logicalOr] at hheight
  have := tallest_mono hle
  exact Shallow.mono (e.walk_depth_lt depth) (by omega)

theorem shallow_declaration {d : VarDecl} (h : Declaration text d demand) (hle : demand ≤ most)
    (depth : Nat) : Shallow (depth + 1 + tallest most) ((Stmt.varDecl d).walk depth) := by
  cases h with
  | plain type name => exact .cons (by omega) .nil
  | init type name he =>
    have hinit := shallow_expression most he hle (depth + 1)
    exact .cons (by omega) (hinit.append .nil)

theorem shallow_update {a : Assignment} (h : Update text a demand) (hle : demand ≤ most)
    (depth : Nat) : Shallow (depth + 1 + tallest most) (a.walkParts depth) := by
  cases h with
  | mk name he => exact shallow_expression most he hle (depth + 1)

theorem shallow_simple {stmt : Stmt} (h : Simple text stmt demand) (hle : demand ≤ most)
    (depth : Nat) : Shallow (depth + 1 + tallest most) (stmt.walk depth) := by
  cases h with
  | declaration hd => exact shallow_declaration most hd hle depth
  | assignment ha => exact .cons (by omega) (shallow_update most ha hle depth)

/-- The nodes of items side by side are those of each of them. -/
theorem shallow_items {items : List Item} {bound depth : Nat}
    (h : ∀ item ∈ items, Shallow bound (item.tree.walk depth)) :
    Shallow bound (walkAll depth (items.map Item.tree)) := by
  induction items with
  | nil => exact .nil
  | cons item items ih =>
    rw [List.map_cons, walkAll]
    exact (h item List.mem_cons_self).append (ih fun i hi => h i (List.mem_cons_of_mem _ hi))

mutual

theorem shallow_statement {text : List Terminal} {stmt : Stmt} {demand : Nat} (most : Nat)
    (hle : demand ≤ most) (depth : Nat) :
    Statement text stmt demand → Shallow (depth + 2 + tallest most) (stmt.walk depth)
  | .simple h => (shallow_simple most h hle depth).mono (by omega)
  | .ifThen h ht => by
    have hcondition := (shallow_expression most h (by omega) (depth + 1)).mono
      (show _ ≤ depth + 2 + tallest most by omega)
    have hthen := shallow_block most (by omega) (depth + 1) ht
    exact ((hcondition.cons (by omega)).append hthen).append .nil
  | .ifElse h ht he => by
    have hcondition := (shallow_expression most h (by omega) (depth + 1)).mono
      (show _ ≤ depth + 2 + tallest most by omega)
    have hthen := shallow_block most (by omega) (depth + 1) ht
    have helse := shallow_block most (by omega) (depth + 1) he
    exact ((hcondition.cons (by omega)).append hthen).append helse
  | .whileLoop h hb => by
    have hcondition := (shallow_expression most h (by omega) (depth + 1)).mono
      (show _ ≤ depth + 2 + tallest most by omega)
    have hbody := shallow_block most (by omega) (depth + 1) hb
    exact (hcondition.cons (by omega)).append hbody
  | .forLoop hi h hu hb => by
    have hinit := shallow_simple most hi (by omega) (depth + 1)
    have hcondition := (shallow_expression most h (by omega) (depth + 1)).mono
      (show _ ≤ depth + 2 + tallest most by omega)
    have hupdate := shallow_update most hu (by omega) (depth + 1)
    have hbody := shallow_block most (by omega) (depth + 1) hb
    exact (((hinit.cons (by omega)).append hcondition).append
      (hupdate.cons (by omega))).append hbody
  | .retVoid => .cons (by omega) .nil
  | .ret h => by
    have hvalue := (shallow_expression most h hle (depth + 1)).mono
      (show _ ≤ depth + 2 + tallest most by omega)
    exact .cons (by omega) (hvalue.append .nil)
  | .block h => by
    -- a block in the place of a statement is one node less
    have hbody := (shallow_block most hle depth h).mono (show _ ≤ depth + 2 + tallest most by omega)
    cases h with
    | mk hi =>
      exact .cons (by omega) fun visited hmem => hbody visited (List.mem_cons_of_mem _ hmem)

theorem shallow_block {text : List Terminal} {body : MiniC.Block} {demand : Nat} (most : Nat)
    (hle : demand ≤ most) (depth : Nat) :
    Block text body demand → Shallow (depth + 1 + tallest most) (body.walk depth)
  | .mk hi => by
    obtain ⟨inner, rfl⟩ : ∃ inner, most = inner + 1 := ⟨most - 1, by omega⟩
    have hgrowth := tallest_succ inner
    refine .cons (by omega) (shallow_items fun item hm => ?_)
    have := le_maxDemand hm
    exact (shallow_statement inner (by omega) (depth + 1) (hi item hm)).mono (by omega)

end

end Language

/-- A walk through a program that parses goes no deeper than its highest expressions could, and
three nodes more. -/
theorem Program.walk_shallow {file : String} {ts : List Token} (p : Program)
    (h : parseUntyped file ts = .ok p) :
    Shallow (tallest maxDepth + 3) (Node.program p).walk := by
  obtain ⟨demand, hle, hd⟩ := derived_of_parseUntyped h
  have hbody : Shallow (tallest maxDepth + 3) (walkAll 1 (relabelAll .unplaced p.body)) := by
    generalize ts.map Token.terminal = text at hd
    generalize relabelAll .unplaced p.body = body at hd
    obtain ⟨hi⟩ := hd
    refine shallow_items fun item hm => ?_
    have := le_maxDemand hm
    exact (shallow_statement maxDepth (by omega) 1 (hi item hm)).mono (by omega)
  rw [walkAll_relabel] at hbody
  exact .cons (by omega) hbody.of_relabel

/-- What the limit on nesting bounds. In any state of a session with `b` levels left the tree of an
expression that is read has at most `3 * b * (b + 1) + b + 2` nodes one above the other, so that no
walk through it goes deeper; for any `b` there are tokens whose tree is that high; and the walk
through a whole program that parses goes at most three nodes deeper than with all levels left. -/
theorem Session.expression_height (session : Session) :
    let b := maxDepth - session.depth
    (∀ e session', session.answer (.parse (.atLevel .logicalOr)) =
        (.parsed (.node (.expr e)), session') →
      e.height ≤ 3 * b * (b + 1) + b + 2 ∧
        ∀ visited ∈ e.walk 0, visited.1 < 3 * b * (b + 1) + b + 2) ∧
    (∃ tokens, ∀ cursor : Cursor, cursor.ahead = tokens → cursor.depth = session.depth →
      ∃ e session', ({ session with cursor := cursor } : Session).answer
        (.parse (.atLevel .logicalOr)) = (.parsed (.node (.expr e)), session') ∧
        e.height = 3 * b * (b + 1) + b + 2) ∧
    (∀ file ts p, Program.parseUntyped file ts = .ok p → ∀ visited ∈ (Node.program p).walk,
      visited.1 < 3 * maxDepth * (maxDepth + 1) + maxDepth + 5) := by
  intro b
  have hbound : ∀ e session', session.answer (.parse (.atLevel .logicalOr)) =
      (.parsed (.node (.expr e)), session') → e.height ≤ tallest b := by
    intro e session' hanswer
    obtain ⟨c', hrun, -⟩ := answer_atLevel_iff.1 hanswer
    obtain ⟨used, demand, -, he, hfit, -⟩ := layer_reads b _ hrun
    have hle := he.height_le
    rw [tallest_logicalOr, Expr.height_relabel] at hle
    exact Nat.le_trans hle (tallest_mono hfit)
  refine ⟨fun e session' hanswer => ⟨hbound e session' hanswer, ?_⟩, ?_, ?_⟩
  · intro visited hmem
    have hdepth := e.walk_depth_lt 0 visited hmem
    rw [Nat.zero_add] at hdepth
    exact Nat.lt_of_lt_of_le hdepth (hbound e session' hanswer)
  · obtain ⟨text, tree, he, hh⟩ := reached b
    refine ⟨spell text, fun cursor ha hdepth => ?_⟩
    have ha' : cursor.ahead = spell text ++ [] := by rw [ha, List.append_nil]
    have htakes : ((Layer.level .logicalOr).rule b).Takes cursor (spell text) (b ≤ b)
        (·.relabel .unplaced = tree) :=
      he.accepts ha' (map_terminal_spell text) (stops_logicalOr_iff.2 (by simp))
    obtain ⟨e, c', hrun, -, rfl⟩ := htakes.done (Nat.le_refl b)
    have hlevels : maxDepth - cursor.depth = b := by rw [hdepth]
    rw [← hlevels] at hrun
    refine ⟨e, _, answer_atLevel_iff.2 ⟨c', hrun, rfl⟩, ?_⟩
    rw [← Expr.height_relabel .unplaced, hh, tallest_logicalOr]
    rfl
  · intro file ts p h
    exact p.walk_shallow h

end MiniC
