import MiniC.Proofs.Tree.Walk
import MiniC.Typing.Node

/-!
What a check leaves of the scopes. Whatever it opens it closes again, also where an error ends it
early, so that all scopes are as they were, except that a declaration has added its variable. Only
the ids that headers of `for` loops have taken are not given back.
-/

namespace MiniC

/-! The headers that a tree has. -/

/-- Whether a node is a `for` loop, whose header has a scope of its own. -/
def Node.isForLoop : Node → Bool
  | .stmt (.forLoop ..) => true
  | _ => false

/-- The number of `for` statements that a walk visits. -/
def forLoops (walk : List (Nat × Node)) : Nat :=
  walk.countP (·.2.isForLoop)

@[simp] theorem forLoops_nil : forLoops [] = 0 := rfl

@[simp] theorem forLoops_append (walk walk' : List (Nat × Node)) :
    forLoops (walk ++ walk') = forLoops walk + forLoops walk' :=
  List.countP_append

@[simp] theorem forLoops_cons (depth : Nat) (node : Node) (walk : List (Nat × Node)) :
    forLoops ((depth, node) :: walk) = forLoops walk + if node.isForLoop then 1 else 0 :=
  List.countP_cons

@[simp] theorem Expr.forLoops_walk (e : Expr) (depth : Nat) : forLoops (e.walk depth) = 0 := by
  induction e generalizing depth with
  | integer | float | string | symbol => rfl
  | binary left op right type span ihl ihr => simp [walk, ihl, ihr, Node.isForLoop]
  | unary op operand type span ih => simp [walk, ih, Node.isForLoop]

@[simp] theorem forLoops_optional (e : Option Expr) (depth : Nat) :
    forLoops (e.toList.flatMap (·.walk depth)) = 0 := by
  cases e <;> simp

@[simp] theorem Assignment.forLoops_walkParts (a : Assignment) (depth : Nat) :
    forLoops (a.walkParts depth) = 0 :=
  a.value.forLoops_walk (depth + 1)

/-! The two changes that a check leaves behind. -/

namespace Scopes

/-- The scopes after so many headers have taken their ids. -/
def taking (scopes : Scopes) (headers : Nat) : Scopes :=
  { scopes with nextHeader := scopes.nextHeader - Int32.ofNat headers }

/-- The scopes with one variable more in the innermost one. -/
def declaring (scopes : Scopes) (name : String) (type : DataType) : Scopes :=
  match scopes.nested with
  | [] =>
    { scopes with
      outermost := ⟨scopes.outermost.id, (name, type) :: scopes.outermost.entries⟩ }
  | scope :: outer =>
    { scopes with nested := ⟨scope.id, (name, type) :: scope.entries⟩ :: outer }

variable (scopes : Scopes) {scopes' : Scopes}

@[simp] theorem taking_zero : scopes.taking 0 = scopes := by
  have h : scopes.nextHeader - Int32.ofNat 0 = scopes.nextHeader := Int32.sub_zero _
  rw [taking, h]

@[simp] theorem taking_taking (headers headers' : Nat) :
    (scopes.taking headers).taking headers' = scopes.taking (headers + headers') := by
  simp only [taking, Int32.sub_sub, Int32.ofNat_add]

@[simp] theorem pop_taking (headers : Nat) :
    (scopes.taking headers).pop = scopes.pop.taking headers := rfl

@[simp] theorem pop_pushHeader : scopes.pushHeader.pop = scopes.taking 1 := rfl

/-- As long as there are ids below, headers take them downward. -/
theorem toInt_nextHeader_taking {headers : Nat}
    (h : (headers : Int) ≤ scopes.nextHeader.toInt + 2147483648) :
    (scopes.taking headers).nextHeader.toInt = scopes.nextHeader.toInt - headers := by
  have hlt := scopes.nextHeader.toInt_lt
  show (scopes.nextHeader - Int32.ofNat headers).toInt = _
  rw [Int32.toInt_sub, Int32.toInt_ofNat', Int32.size, Int.sub_bmod_bmod]
  apply Int.bmod_eq_of_le <;> omega

/-- A declaration succeeds when the innermost scope does not have the name. -/
theorem declare_eq_ok {name : String} {type : DataType} {position : Position}
    (h : scopes.declare name type position = .ok scopes') :
    scopes.innermost.lookup name = none ∧ scopes' = scopes.declaring name type := by
  obtain ⟨outermost, nested, nextHeader⟩ := scopes
  cases nested with
  | nil =>
    simp only [declare, declareGlobal, Scope.declare] at h
    split at h
    · cases h
    · next hn =>
      cases h
      exact ⟨Option.not_isSome_iff_eq_none.1 hn, rfl⟩
  | cons scope outer =>
    simp only [declare, Scope.declare] at h
    split at h
    · cases h
    · next hn =>
      cases h
      exact ⟨Option.not_isSome_iff_eq_none.1 hn, rfl⟩

end Scopes

/-- The scopes with what a statement declares in the innermost one. -/
def Stmt.extend (scopes : Scopes) : Stmt → Scopes
  | .varDecl d => scopes.declaring d.name d.type
  | _ => scopes

/-- What is declared in a nested scope goes with it. -/
theorem Stmt.pop_extend (stmt : Stmt) {scopes : Scopes} (h : scopes.nested ≠ []) :
    (stmt.extend scopes).pop = scopes.pop ∧ (stmt.extend scopes).nested ≠ [] := by
  cases stmt with
  | varDecl d =>
    obtain ⟨outermost, nested, nextHeader⟩ := scopes
    cases nested with
    | nil => exact absurd rfl h
    | cons scope outer => exact ⟨rfl, List.cons_ne_nil _ _⟩
  | _ => exact ⟨rfl, h⟩

/-! Checks restore the scopes. -/

/-- What the scopes are once a check has ended in a tree with so many headers. If it has succeeded
then they are those `after` it, and all headers have taken their ids. If it has failed then they are
those `before` it, and some of the headers have. -/
def Restores (result : Except Diagnostic Unit) (left before after : Scopes) (headers : Nat) :
    Prop :=
  match result with
  | .ok _ => left = after.taking headers
  | .error _ => ∃ taken, taken ≤ headers ∧ left = before.taking taken

/-- A declaration fails and changes nothing, or it succeeds at last in declaring its variable. -/
theorem VarDecl.check_scopes (scopes : Scopes) (d : VarDecl) :
    ((∃ e, (d.check scopes).result = .error e) ∧ (d.check scopes).scopes = scopes) ∨
    ((d.check scopes).result = .ok () ∧
      scopes.declare d.name d.type d.span.start = .ok (d.check scopes).scopes) := by
  obtain ⟨name, type, init, span⟩ := d
  cases init with
  | none =>
    simp only [check, Scopes.scoping_declare]
    cases scopes.declare name type span.start with
    | error e => exact .inl ⟨⟨e, rfl⟩, rfl⟩
    | ok scopes' => exact .inr ⟨rfl, rfl⟩
  | some init =>
    simp only [check]
    rcases init.check scopes with ⟨init', e | initType⟩
    · exact .inl ⟨⟨e, rfl⟩, rfl⟩
    dsimp only [Scopes.scoping_declare]
    cases type.checkAccepts initType init'.span.start with
    | error e => exact .inl ⟨⟨e, rfl⟩, rfl⟩
    | ok _ =>
      cases scopes.declare name type span.start with
      | error e => exact .inl ⟨⟨e, rfl⟩, rfl⟩
      | ok scopes' => exact .inr ⟨rfl, rfl⟩

namespace Restores

variable {left before after : Scopes} {headers headers' : Nat} {result : Except Diagnostic Unit}
  {e : Diagnostic}

/-- A check that fails without having changed anything. -/
theorem failed (e : Diagnostic) (before after : Scopes) (headers : Nat) :
    Restores (.error e) before before after headers :=
  ⟨0, Nat.zero_le _, before.taking_zero.symm⟩

/-- A check that changes nothing, whether it succeeds or not. -/
theorem unchanged (result : Except Diagnostic Unit) (scopes : Scopes) :
    Restores result scopes scopes scopes 0 := by
  cases result with
  | ok => exact scopes.taking_zero.symm
  | error e => exact failed e scopes scopes 0

/-- A check that has failed may have had more headers still before it. -/
theorem mono {after' : Scopes} (h : Restores (.error e) left before after headers)
    (hle : headers ≤ headers') : Restores (.error e) left before after' headers' := by
  obtain ⟨taken, htaken, hleft⟩ := h
  exact ⟨taken, Nat.le_trans htaken hle, hleft⟩

/-- A check that other headers have come before. -/
theorem behind (h : Restores result left (before.taking headers) (after.taking headers) headers') :
    Restores result left before after (headers + headers') := by
  cases result with
  | ok => exact h.trans (after.taking_taking headers headers')
  | error e =>
    obtain ⟨taken, htaken, hleft⟩ := h
    exact ⟨headers + taken, by omega, hleft.trans (before.taking_taking headers taken)⟩

/-- The innermost scope is closed at the end. -/
theorem pop (h : Restores result left before after headers) :
    Restores result left.pop before.pop after.pop headers := by
  cases result with
  | ok => exact congrArg Scopes.pop h
  | error e =>
    obtain ⟨taken, htaken, hleft⟩ := h
    exact ⟨taken, htaken, congrArg Scopes.pop hleft⟩

end Restores

theorem VarDecl.check_restores (scopes : Scopes) (d : VarDecl) :
    Restores (d.check scopes).result (d.check scopes).scopes scopes
      (scopes.declaring d.name d.type) 0 := by
  rcases d.check_scopes scopes with ⟨⟨e, he⟩, hs⟩ | ⟨hok, hd⟩
  · rw [he, hs]
    exact .failed e scopes _ 0
  · rw [hok, (scopes.declare_eq_ok hd).2]
    exact (Scopes.taking_zero _).symm

mutual

theorem Stmt.check_restores (stmt : Stmt) (scopes : Scopes) (depth : Nat) :
    Restores (stmt.check scopes).result (stmt.check scopes).scopes scopes (stmt.extend scopes)
      (forLoops (stmt.walk depth)) := by
  cases stmt with
  | varDecl d =>
    have hwalk : forLoops ((Stmt.varDecl d).walk depth) = 0 := by simp [Stmt.walk, Node.isForLoop]
    rw [hwalk]
    exact d.check_restores scopes
  | assign a =>
    have hwalk : forLoops ((Stmt.assign a).walk depth) = 0 := by simp [Stmt.walk, Node.isForLoop]
    rw [hwalk]
    exact .unchanged (a.check scopes).2 scopes
  | ifElse condition thenBody elseBody span =>
    have hwalk : forLoops ((Stmt.ifElse condition thenBody elseBody span).walk depth) =
        forLoops (thenBody.walk (depth + 1)) + forLoops (walkElse (depth + 1) elseBody) := by
      simp [Stmt.walk, Node.isForLoop]
    have hthen := thenBody.check_restores scopes (depth + 1)
    rw [hwalk, Stmt.check]
    rcases condition.check scopes with ⟨condition', e | _⟩
    · exact .failed e scopes _ _
    rcases ht : thenBody.check scopes with ⟨thenBody', scopes₁, e | _⟩
    · rw [ht] at hthen
      exact hthen.mono (Nat.le_add_right _ _)
    · rw [ht] at hthen
      obtain rfl : scopes₁ = scopes.taking (forLoops (thenBody.walk (depth + 1))) := hthen
      exact (checkElse_restores elseBody _ (depth + 1)).behind
  | whileLoop condition body span =>
    have hwalk : forLoops ((Stmt.whileLoop condition body span).walk depth) =
        forLoops (body.walk (depth + 1)) := by
      simp [Stmt.walk, Node.isForLoop]
    rw [hwalk, Stmt.check]
    rcases condition.check scopes with ⟨condition', e | _⟩
    · exact .failed e scopes _ _
    · exact body.check_restores scopes (depth + 1)
  | forLoop init condition update body span =>
    have hwalk : forLoops ((Stmt.forLoop init condition update body span).walk depth) =
        1 + forLoops (init.walk (depth + 1)) + forLoops (body.walk (depth + 1)) := by
      simp [Stmt.walk, Node.isForLoop]
      omega
    have hopen : scopes.pushHeader.nested ≠ [] := List.cons_ne_nil _ _
    have hinit := (init.check_restores scopes.pushHeader (depth + 1)).pop
    -- what the header declares is gone once its scope is closed
    rw [(init.pop_extend hopen).1, Scopes.pop_pushHeader] at hinit
    have hinit := hinit.behind
    rw [hwalk, Stmt.check]
    rcases hi : init.check scopes.pushHeader with ⟨init', scopes₁, e | _⟩
    · rw [hi] at hinit
      exact hinit.mono (Nat.le_add_right _ _)
    rw [hi] at hinit
    have hpop : scopes₁.pop = scopes.taking (1 + forLoops (init.walk (depth + 1))) := hinit
    have herror : ∀ e, Restores (.error e) scopes₁.pop scopes scopes
        (1 + forLoops (init.walk (depth + 1)) + forLoops (body.walk (depth + 1))) :=
      fun e => ⟨_, Nat.le_add_right _ _, hpop⟩
    dsimp only
    rcases condition.check scopes₁ with ⟨condition', e | _⟩
    · exact herror e
    dsimp only
    rcases update.check scopes₁ with ⟨update', e | _⟩
    · exact herror e
    have hbody := (body.check_restores scopes₁ (depth + 1)).pop
    rw [hpop] at hbody
    exact hbody.behind
  | ret r =>
    have hwalk : forLoops ((Stmt.ret r).walk depth) = 0 := by simp [Stmt.walk, Node.isForLoop]
    rw [hwalk]
    exact .unchanged (r.check scopes).2 scopes
  | block b =>
    have hwalk : forLoops ((Stmt.block b).walk depth) = forLoops (b.walk depth) := by
      obtain ⟨body, id, span⟩ := b
      simp [Stmt.walk, Block.walk, Node.isForLoop]
    rw [hwalk]
    exact b.check_restores scopes depth
termination_by structural stmt

theorem checkElse_restores (block : Option Block) (scopes : Scopes) (depth : Nat) :
    Restores (checkElse scopes block).result (checkElse scopes block).scopes scopes scopes
      (forLoops (walkElse depth block)) := by
  cases block with
  | none => exact .unchanged (.ok ()) scopes
  | some b => exact b.check_restores scopes depth
termination_by structural block

theorem Block.check_restores (block : Block) (scopes : Scopes) (depth : Nat) :
    Restores (block.check scopes).result (block.check scopes).scopes scopes scopes
      (forLoops (block.walk depth)) := by
  obtain ⟨body, id, span⟩ := block
  have hwalk : forLoops (Block.walk depth ⟨body, id, span⟩) =
      forLoops (walkAll (depth + 1) body) := by
    simp [Block.walk, Node.isForLoop]
  rw [hwalk]
  exact checkAll_restores body (List.cons_ne_nil (Scope.empty id) scopes.nested) (depth + 1)
termination_by structural block

/-- Nothing is left of statements in a nested scope once it is closed. -/
theorem checkAll_restores (stmts : List Stmt) {scopes : Scopes} (hne : scopes.nested ≠ [])
    (depth : Nat) :
    Restores (checkAll scopes stmts).result (checkAll scopes stmts).scopes.pop scopes.pop scopes.pop
      (forLoops (walkAll depth stmts)) := by
  cases stmts with
  | nil => exact .unchanged (.ok ()) scopes.pop
  | cons stmt stmts =>
    obtain ⟨hpop, hne'⟩ := stmt.pop_extend hne
    have hstmt := stmt.check_restores scopes depth
    rw [walkAll, forLoops_append, checkAll]
    rcases hs : stmt.check scopes with ⟨stmt', scopes₁, e | _⟩
    · rw [hs] at hstmt
      exact hstmt.pop.mono (Nat.le_add_right _ _)
    · rw [hs] at hstmt
      have hs₁ : scopes₁ = (stmt.extend scopes).taking (forLoops (stmt.walk depth)) := hstmt
      have hpop₁ : scopes₁.pop = scopes.pop.taking (forLoops (stmt.walk depth)) := by
        rw [hs₁, Scopes.pop_taking, hpop]
      have hne₁ : scopes₁.nested ≠ [] := by rwa [hs₁]
      have hrest := checkAll_restores stmts hne₁ depth
      rw [hpop₁] at hrest
      exact hrest.behind
termination_by structural stmts

end

/-- A check leaves the scopes as it has found them, whatever is open and whatever it checks. When a
statement fails then all scopes have the variables that they had; when it succeeds then they have
them too, and a declaration has added its variable to the innermost one, which did not have the
name. Blocks, assignments and expressions change nothing in either case. Only the ids of headers are
used up, downward: on success one for each `for` in the tree, and before an error no more. -/
theorem Scopes.check_gives_back (scopes : Scopes) :
    (∀ stmt : Stmt, ∃ taken, taken ≤ forLoops (Node.stmt stmt).walk ∧
      ((stmt.check scopes).result = .ok () →
        (stmt.check scopes).scopes = (stmt.extend scopes).taking taken ∧
          taken = forLoops (Node.stmt stmt).walk ∧
          ∀ d, stmt = .varDecl d → scopes.innermost.lookup d.name = none) ∧
      ((stmt.check scopes).result ≠ .ok () →
        (stmt.check scopes).scopes = scopes.taking taken)) ∧
    (∀ block : Block, ∃ taken, taken ≤ forLoops (Node.block block).walk ∧
      (block.check scopes).scopes = scopes.taking taken ∧
      ((block.check scopes).result = .ok () → taken = forLoops (Node.block block).walk)) ∧
    (∀ a : Assignment, ((Node.assignment a).check scopes).scopes = scopes) ∧
    (∀ e : Expr, ((Node.expr e).check scopes).scopes = scopes) ∧
    (∀ taken : Nat, (taken : Int) ≤ scopes.nextHeader.toInt + 2147483648 →
      (scopes.taking taken).nextHeader.toInt = scopes.nextHeader.toInt - taken) := by
  refine ⟨?stmt, ?block, fun _ => rfl, ?expr, fun _ => scopes.toInt_nextHeader_taking⟩
  case stmt =>
    intro stmt
    have h := stmt.check_restores scopes 0
    have hnew : (stmt.check scopes).result = .ok () →
        ∀ d, stmt = .varDecl d → scopes.innermost.lookup d.name = none := by
      rintro hok d rfl
      rcases d.check_scopes scopes with ⟨⟨e, he⟩, -⟩ | ⟨-, hd⟩
      · cases he.symm.trans hok
      · exact (scopes.declare_eq_ok hd).1
    cases hr : (stmt.check scopes).result with
    | ok =>
      rw [hr] at h
      exact ⟨_, Nat.le_refl _, fun _ => ⟨h, rfl, hnew hr⟩, fun hne => absurd rfl hne⟩
    | error e =>
      rw [hr] at h
      obtain ⟨taken, hle, hleft⟩ := h
      exact ⟨taken, hle, nofun, fun _ => hleft⟩
  case block =>
    intro block
    have h := block.check_restores scopes 0
    cases hr : (block.check scopes).result with
    | ok =>
      rw [hr] at h
      exact ⟨_, Nat.le_refl _, h, fun _ => rfl⟩
    | error e =>
      rw [hr] at h
      obtain ⟨taken, hle, hleft⟩ := h
      exact ⟨taken, hle, hleft, nofun⟩
  case expr =>
    intro e
    rcases h : e.check scopes with ⟨e', _ | _⟩ <;> simp only [Node.check, h]

end MiniC
