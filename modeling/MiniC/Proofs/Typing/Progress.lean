import MiniC.Proofs.Typing.Annotation
import MiniC.Proofs.Typing.Check
import MiniC.Proofs.Typing.Postorder

/-!
How far a check gets. It writes types in the order in which it finds them, so one that ends early
has annotated the first nodes of the tree in post-order, and none of the others.
-/

namespace MiniC

open Typing

/-- Whether a check writes a type into a node. -/
def Node.isMarked : Node → Bool
  | .stmt (.assign _) | .assignment _ | .stmt (.ret _) => true
  | .expr (.symbol ..) | .expr (.binary ..) | .expr (.unary ..) => true
  | _ => false

/-- The type of a node in a context: that of the expression, of the variable that is assigned or of
the value that is returned. -/
inductive Typing.NodeType (context : Context) : Node → DataType → Prop where
  | expr {e type} : HasType anything context e type → NodeType context (.expr e) type
  | assign {a type valueType} : Resolves a.name type context →
      HasType anything context a.value valueType → Fits type valueType →
      NodeType context (.stmt (.assign a)) type
  | update {a type valueType} : Resolves a.name type context →
      HasType anything context a.value valueType → Fits type valueType →
      NodeType context (.assignment a) type
  | void {m span} : NodeType context (.stmt (.ret ⟨none, m, span⟩)) .void
  | value {value m span type} : HasType anything context value type →
      NodeType context (.stmt (.ret ⟨some value, m, span⟩)) type

/-- A node has at most one type. -/
theorem Typing.NodeType.unique {context : Context} {node : Node} {type type' : DataType}
    (h : NodeType context node type) (h' : NodeType context node type') : type = type' := by
  cases h with
  | expr h =>
    cases h' with
    | expr h' => exact h.unique h'
  | assign hr =>
    cases h' with
    | assign hr' => exact hr.unique hr'
  | update hr =>
    cases h' with
    | update hr' => exact hr.unique hr'
  | void =>
    cases h'
    rfl
  | value h =>
    cases h' with
    | value h' => exact h.unique h'

/-- All nodes that a check writes to are so. -/
def OnMarked (holds : Site → Prop) (sites : List Site) : Prop :=
  ∀ site ∈ sites, site.node.isMarked → holds site

/-- The nodes carry the types that they have. -/
abbrev Annotated : List Site → Prop :=
  OnMarked fun site =>
    ∃ type, site.node.dataType? = some type ∧ NodeType site.context site.node type

/-- The nodes carry no types. -/
abbrev Bare : List Site → Prop :=
  OnMarked fun site => site.node.dataType? = none

/-- The first of some nodes carry their types, and the others none. -/
def PartlyAnnotated (sites : List Site) : Prop :=
  ∃ found rest, sites = found ++ rest ∧ Annotated found ∧ Bare rest

namespace OnMarked

variable {holds : Site → Prop} {sites sites' : List Site} {site : Site}

theorem nil : OnMarked holds [] :=
  fun _ hsite => absurd hsite List.not_mem_nil

theorem append (h : OnMarked holds sites) (h' : OnMarked holds sites') :
    OnMarked holds (sites ++ sites') :=
  fun site hsite => (List.mem_append.1 hsite).elim (h site) (h' site)

theorem single (h : holds site) : OnMarked holds [site] := by
  intro _ hsite _
  obtain rfl := List.mem_singleton.1 hsite
  exact h

/-- Nothing is asked of a node that a check does not write to. -/
theorem unmarked (h : site.node.isMarked = false) : OnMarked holds [site] := by
  intro _ hsite hmarked
  obtain rfl := List.mem_singleton.1 hsite
  cases h.symm.trans hmarked

end OnMarked

section

variable {sites sites' : List Site}

theorem PartlyAnnotated.of_bare (h : Bare sites) : PartlyAnnotated sites :=
  ⟨[], sites, rfl, .nil, h⟩

theorem PartlyAnnotated.split (h : Annotated sites) (h' : Bare sites') :
    PartlyAnnotated (sites ++ sites') :=
  ⟨sites, sites', rfl, h, h'⟩

theorem PartlyAnnotated.before (h : PartlyAnnotated sites) (h' : Bare sites') :
    PartlyAnnotated (sites ++ sites') := by
  obtain ⟨found, rest, rfl, hfound, hrest⟩ := h
  exact ⟨found, rest ++ sites', List.append_assoc .., hfound, hrest.append h'⟩

theorem PartlyAnnotated.after (h : PartlyAnnotated sites) (h' : Annotated sites') :
    PartlyAnnotated (sites' ++ sites) := by
  obtain ⟨found, rest, rfl, hfound, hrest⟩ := h
  exact ⟨sites' ++ found, rest, (List.append_assoc ..).symm, h'.append hfound, hrest⟩

end

/-! A well typed tree that carries its types is annotated. -/

namespace Typing

section

variable {mark : Mark} {context context' : Context}

theorem HasType.mono {e : Expr} {type : DataType} (h : HasType mark context e type) :
    HasType anything context e type := by
  induction h with
  | integer => exact .integer
  | float => exact .float
  | string => exact .string
  | symbol hr _ => exact .symbol hr trivial
  | binary _ _ hj _ ihl ihr => exact .binary ihl ihr hj trivial
  | unary _ ha _ ih => exact .unary ih ha trivial

theorem HasType.annotated {e : Expr} {type : DataType} (h : HasType exactly context e type) :
    Annotated (e.sites context) := by
  induction h with
  | integer | float | string => exact .unmarked rfl
  | symbol hr hm => exact .single ⟨_, hm, .expr (.symbol hr trivial)⟩
  | binary hl hr hj hm ihl ihr =>
    exact (ihl.append ihr).append (.single ⟨_, hm, .expr (.binary hl.mono hr.mono hj trivial)⟩)
  | unary ho ha hm ih => exact ih.append (.single ⟨_, hm, .expr (.unary ho.mono ha trivial)⟩)

theorem Declares.annotated {d : VarDecl} (h : Declares exactly context d context') :
    Annotated ((Stmt.varDecl d).sites context) := by
  cases h with
  | plain => exact .unmarked rfl
  | init h =>
    rw [Stmt.sites, sitesOptional_some]
    exact h.annotated.append (.unmarked rfl)

theorem Assigns.annotated {a : Assignment} (h : Assigns exactly context a) :
    Annotated ((Stmt.assign a).sites context) ∧
      Annotated (a.sitesParts context ++ [⟨context, .assignment a⟩]) := by
  cases h with
  | mk hr hv hfit hm =>
    exact ⟨hv.annotated.append (.single ⟨_, hm, .assign hr hv.mono hfit⟩),
      hv.annotated.append (.single ⟨_, hm, .update hr hv.mono hfit⟩)⟩

theorem Returns.annotated {r : Return} (h : Returns exactly context r) :
    Annotated ((Stmt.ret r).sites context) := by
  cases h with
  | void hm => exact .single ⟨_, hm, .void⟩
  | value hv hm =>
    rw [Stmt.sites, sitesOptional_some]
    exact hv.annotated.append (.single ⟨_, hm, .value hv.mono⟩)

end

mutual

theorem Statement.annotated {stmt : Stmt} {context context' : Context}
    (h : Statement exactly context stmt context') : Annotated (stmt.sites context) := by
  cases h with
  | varDecl h => exact h.annotated
  | assign h => exact h.annotated.1
  | ifElse hc ht he =>
    exact ((hc.annotated.append ht.annotated).append he.annotated).append (.unmarked rfl)
  | whileLoop hc hb => exact (hc.annotated.append hb.annotated).append (.unmarked rfl)
  | forLoop hi hc hu hb =>
    obtain rfl := hi.contextAfter_eq
    exact (((hi.annotated.append hc.annotated).append hu.annotated.2).append hb.annotated).append
      (.unmarked rfl)
  | ret h => exact h.annotated
  | block h =>
    cases h with
    | mk h => exact h.annotated.append (.unmarked rfl)

theorem Else.annotated {block : Option MiniC.Block} {context : Context}
    (h : Else exactly context block) : Annotated (sitesElse context block) := by
  cases h with
  | none => exact .nil
  | some h => exact h.annotated

theorem Block.annotated {block : MiniC.Block} {context : Context}
    (h : Typing.Block exactly context block) : Annotated (block.sites context) := by
  cases h with
  | mk h => exact h.annotated.append (.unmarked rfl)

theorem Statements.annotated {stmts : List Stmt} {context context' : Context}
    (h : Statements exactly context stmts context') : Annotated (sitesAll context stmts) := by
  cases h with
  | nil => exact .nil
  | cons h hs =>
    obtain rfl := h.contextAfter_eq
    exact h.annotated.append hs.annotated

end

end Typing

/-! A tree without types is bare. -/

theorem Expr.bare (e : Expr) (context : Context) : Bare ((e.relabel .untyped).sites context) := by
  induction e with
  | integer | float | string => exact .unmarked rfl
  | symbol => exact .single rfl
  | binary left op right type span ihl ihr => exact (ihl.append ihr).append (.single rfl)
  | unary op operand type span ih => exact ih.append (.single rfl)

theorem Assignment.bare (a : Assignment) (context : Context) :
    Bare ((a.relabel .untyped).sitesParts context ++
      [⟨context, .assignment (a.relabel .untyped)⟩]) :=
  (a.value.bare context).append (.single rfl)

theorem bare_optional (e : Option Expr) (context : Context) :
    Bare (sitesOptional context (e.map (Expr.relabel .untyped))) := by
  cases e with
  | none => exact .nil
  | some e =>
    rw [Option.map_some, sitesOptional_some]
    exact e.bare context

mutual

theorem Stmt.bare (stmt : Stmt) (context : Context) :
    Bare ((stmt.relabel .untyped).sites context) := by
  cases stmt with
  | varDecl d => exact (bare_optional d.init context).append (.unmarked rfl)
  | assign a => exact (a.value.bare context).append (.single rfl)
  | ifElse condition thenBody elseBody span =>
    have hcondition := condition.bare context
    have hthen := thenBody.bare context
    have helse := bare_else elseBody context
    exact ((hcondition.append hthen).append helse).append (.unmarked rfl)
  | whileLoop condition body span =>
    exact ((condition.bare context).append (body.bare context)).append (.unmarked rfl)
  | forLoop init condition update body span =>
    have hinit := init.bare ([] :: context)
    exact (((hinit.append (condition.bare _)).append (update.bare _)).append (body.bare _)).append
      (.unmarked rfl)
  | ret r => exact (bare_optional r.value context).append (.single rfl)
  | block b =>
    obtain ⟨body, id, span⟩ := b
    exact (bare_all body ([] :: context)).append (.unmarked rfl)
termination_by structural stmt

theorem bare_else (block : Option Block) (context : Context) :
    Bare (sitesElse context (relabelElse .untyped block)) := by
  cases block with
  | none => exact .nil
  | some b => exact b.bare context
termination_by structural block

theorem Block.bare (block : Block) (context : Context) :
    Bare ((block.relabel .untyped).sites context) := by
  obtain ⟨body, id, span⟩ := block
  exact (bare_all body ([] :: context)).append (.unmarked rfl)
termination_by structural block

theorem bare_all (stmts : List Stmt) (context : Context) :
    Bare (sitesAll context (relabelAll .untyped stmts)) := by
  cases stmts with
  | nil => exact .nil
  | cons stmt stmts => exact (stmt.bare context).append (bare_all stmts _)
termination_by structural stmts

end

/-! A check that fails has annotated some nodes, and they are the first. -/

section

variable {scopes : Scopes} {e : Diagnostic}

theorem Expr.check_annotated {x x' : Expr} {type : DataType}
    (h : x.check scopes = (x', .ok type)) : Annotated (x'.sites scopes.context) :=
  (Expr.check_finds h).2.1.annotated

theorem Expr.check_partly {x x' : Expr} (h : (x.relabel .untyped).check scopes = (x', .error e)) :
    PartlyAnnotated (x'.sites scopes.context) := by
  induction x generalizing x' with
  | integer | float | string => cases h
  | symbol name type span =>
    have hbare := (Expr.symbol name type span).bare scopes.context
    rw [relabel, check] at h
    split at h
    · cases h
      exact .of_bare hbare
    · cases h
  | binary left op right type span ihl ihr =>
    have hright := right.bare scopes.context
    rw [relabel, check] at h
    split at h
    · next hl =>
      cases h
      exact ((ihl hl).before hright).before (.single rfl)
    next hl =>
    have hl := Expr.check_annotated hl
    split at h
    · next hr =>
      cases h
      exact ((ihr hr).after hl).before (.single rfl)
    next hr =>
    have hr := Expr.check_annotated hr
    split at h
    · cases h
      exact .split (hl.append hr) (.single rfl)
    · cases h
  | unary op operand type span ih =>
    rw [relabel, check] at h
    split at h
    · next ho =>
      cases h
      exact (ih ho).before (.single rfl)
    next ho =>
    split at h
    · cases h
      exact .split (Expr.check_annotated ho) (.single rfl)
    · cases h

/-- An assignment by itself and in the place of a statement. -/
theorem Assignment.check_partly {a a' : Assignment}
    (h : (a.relabel .untyped).check scopes = (a', .error e)) :
    PartlyAnnotated ((Stmt.assign a').sites scopes.context) ∧
      PartlyAnnotated (a'.sitesParts scopes.context ++ [⟨scopes.context, .assignment a'⟩]) := by
  have hvalue := a.value.bare scopes.context
  rw [check] at h
  split at h
  · cases h
    exact ⟨.of_bare (hvalue.append (.single rfl)), .of_bare (hvalue.append (.single rfl))⟩
  split at h
  · next hv =>
    cases h
    have hv := Expr.check_partly hv
    exact ⟨hv.before (.single rfl), hv.before (.single rfl)⟩
  next hv =>
  split at h
  · cases h
    have hv := Expr.check_annotated hv
    exact ⟨.split hv (.single rfl), .split hv (.single rfl)⟩
  · cases h

theorem VarDecl.check_partly {scopes' : Scopes} {d d' : VarDecl}
    (h : (d.relabel .untyped).check scopes = ⟨d', scopes', .error e⟩) :
    PartlyAnnotated ((Stmt.varDecl d').sites scopes.context) := by
  obtain ⟨name, type, init, span⟩ := d
  cases init with
  | none =>
    simp only [relabel, Option.map_none, check] at h
    split at h
    · cases h
      exact .of_bare (.unmarked rfl)
    · cases h
  | some init =>
    simp only [relabel, Option.map_some, check] at h
    split at h
    · next hi =>
      cases h
      rw [Stmt.sites, sitesOptional_some]
      exact (Expr.check_partly hi).before (.unmarked rfl)
    next hi =>
    have hi := Expr.check_annotated hi
    split at h
    · cases h
      rw [Stmt.sites, sitesOptional_some]
      exact .split hi (.unmarked rfl)
    split at h
    · cases h
      rw [Stmt.sites, sitesOptional_some]
      exact .split hi (.unmarked rfl)
    · cases h

theorem Return.check_partly {r r' : Return}
    (h : (r.relabel .untyped).check scopes = (r', .error e)) :
    PartlyAnnotated ((Stmt.ret r').sites scopes.context) := by
  obtain ⟨value, type, span⟩ := r
  cases value with
  | none => cases h
  | some value =>
    rcases hv : (value.relabel .untyped).check scopes with ⟨value', e' | found⟩
    · simp only [relabel, Option.map_some, check, checkOptional, hv] at h
      cases h
      rw [Stmt.sites, sitesOptional_some]
      exact (Expr.check_partly hv).before (.single rfl)
    · simp [relabel, check, checkOptional, hv] at h

end

mutual

theorem Stmt.check_partly {stmt stmt' : Stmt} {scopes scopes' : Scopes} {e : Diagnostic}
    (h : (stmt.relabel .untyped).check scopes = ⟨stmt', scopes', .error e⟩) :
    PartlyAnnotated (stmt'.sites scopes.context) := by
  cases stmt with
  | varDecl d =>
    rcases hd : (d.relabel .untyped).check scopes with ⟨d', scopes₁, result⟩
    simp only [Stmt.relabel, Stmt.check, hd] at h
    cases h
    exact VarDecl.check_partly hd
  | assign a =>
    rcases ha : (a.relabel .untyped).check scopes with ⟨a', result⟩
    simp only [Stmt.relabel, Stmt.check, ha] at h
    cases h
    exact (Assignment.check_partly ha).1
  | ifElse condition thenBody elseBody span =>
    have hthen := thenBody.bare scopes.context
    have helse := bare_else elseBody scopes.context
    rcases hc : (condition.relabel .untyped).check scopes with ⟨condition', e' | _⟩
    · simp only [Stmt.relabel, Stmt.check, hc] at h
      cases h
      exact (((Expr.check_partly hc).before hthen).before helse).before (.unmarked rfl)
    have hcondition := Expr.check_annotated hc
    rcases ht : (thenBody.relabel .untyped).check scopes with ⟨thenBody', scopes₁, e' | _⟩
    · simp only [Stmt.relabel, Stmt.check, hc, ht] at h
      cases h
      have ht := (Block.check_partly ht).after hcondition
      exact (ht.before helse).before (.unmarked rfl)
    · obtain ⟨hs, -, ht', -⟩ := Block.check_finds ht
      rcases he : checkElse scopes₁ (relabelElse .untyped elseBody) with
        ⟨elseBody', scopes₂, result⟩
      simp only [Stmt.relabel, Stmt.check, hc, ht, he] at h
      cases h
      have he := checkElse_partly he
      rw [hs] at he
      exact (he.after (hcondition.append ht'.annotated)).before (.unmarked rfl)
  | whileLoop condition body span =>
    have hbody := body.bare scopes.context
    rcases hc : (condition.relabel .untyped).check scopes with ⟨condition', e' | _⟩
    · simp only [Stmt.relabel, Stmt.check, hc] at h
      cases h
      exact ((Expr.check_partly hc).before hbody).before (.unmarked rfl)
    have hcondition := Expr.check_annotated hc
    rcases hb : (body.relabel .untyped).check scopes with ⟨body', scopes₁, result⟩
    simp only [Stmt.relabel, Stmt.check, hc, hb] at h
    cases h
    exact ((Block.check_partly hb).after hcondition).before (.unmarked rfl)
  | forLoop init condition update body span =>
    rcases hi : (init.relabel .untyped).check (Scoping.pushHeader scopes) with
      ⟨init', scopes₁, e' | _⟩
    · simp only [Stmt.relabel, Stmt.check, hi] at h
      cases h
      exact ((((Stmt.check_partly hi).before (condition.bare _)).before (update.bare _)).before
        (body.bare _)).before (.unmarked rfl)
    -- from here on the context is that of the header
    have hinit := (Stmt.check_finds hi).2.1
    have hheader : init'.contextAfter ([] :: scopes.context) = scopes₁.context :=
      hinit.contextAfter_eq.symm
    have hinit : Annotated (init'.sites ([] :: scopes.context)) := hinit.annotated
    rcases hc : (condition.relabel .untyped).check scopes₁ with ⟨condition', e' | _⟩
    · simp only [Stmt.relabel, Stmt.check, hi, hc] at h
      cases h
      rw [Stmt.sites, hheader]
      exact ((((Expr.check_partly hc).after hinit).before (update.bare _)).before
        (body.bare _)).before (.unmarked rfl)
    have hcondition := hinit.append (Expr.check_annotated hc)
    rcases hu : (update.relabel .untyped).check scopes₁ with ⟨update', e' | _⟩
    · simp only [Stmt.relabel, Stmt.check, hi, hc, hu] at h
      cases h
      rw [Stmt.sites, hheader]
      exact (((Assignment.check_partly hu).2.after hcondition).before (body.bare _)).before
        (.unmarked rfl)
    have hupdate := hcondition.append (Assignment.check_finds hu).2.1.annotated.2
    rcases hb : (body.relabel .untyped).check scopes₁ with ⟨body', scopes₂, result⟩
    simp only [Stmt.relabel, Stmt.check, hi, hc, hu, hb] at h
    cases h
    rw [Stmt.sites, hheader]
    exact ((Block.check_partly hb).after hupdate).before (.unmarked rfl)
  | ret r =>
    rcases hr : (r.relabel .untyped).check scopes with ⟨r', result⟩
    simp only [Stmt.relabel, Stmt.check, hr] at h
    cases h
    exact Return.check_partly hr
  | block b =>
    obtain ⟨body, id, span⟩ := b
    rcases hb : checkAll (Scoping.push scopes id) (relabelAll .untyped body) with
      ⟨body', scopes₁, result⟩
    simp only [Stmt.relabel, Block.relabel, Relabel.untyped_id, Stmt.check, Block.check, hb] at h
    cases h
    exact (checkAll_partly hb).before (.unmarked rfl)
termination_by structural stmt

theorem checkElse_partly {block block' : Option Block} {scopes scopes' : Scopes} {e : Diagnostic}
    (h : checkElse scopes (relabelElse .untyped block) = ⟨block', scopes', .error e⟩) :
    PartlyAnnotated (sitesElse scopes.context block') := by
  cases block with
  | none => cases h
  | some b =>
    rcases hb : (b.relabel .untyped).check scopes with ⟨b', scopes₁, result⟩
    simp only [relabelElse, checkElse, hb] at h
    cases h
    exact Block.check_partly hb
termination_by structural block

theorem Block.check_partly {block block' : Block} {scopes scopes' : Scopes} {e : Diagnostic}
    (h : (block.relabel .untyped).check scopes = ⟨block', scopes', .error e⟩) :
    PartlyAnnotated (block'.sites scopes.context) := by
  obtain ⟨body, id, span⟩ := block
  rcases hb : checkAll (Scoping.push scopes id) (relabelAll .untyped body) with
    ⟨body', scopes₁, result⟩
  simp only [Block.relabel, Relabel.untyped_id, Block.check, hb] at h
  cases h
  exact (checkAll_partly hb).before (.unmarked rfl)
termination_by structural block

theorem checkAll_partly {stmts stmts' : List Stmt} {scopes scopes' : Scopes} {e : Diagnostic}
    (h : checkAll scopes (relabelAll .untyped stmts) = ⟨stmts', scopes', .error e⟩) :
    PartlyAnnotated (sitesAll scopes.context stmts') := by
  cases stmts with
  | nil => cases h
  | cons stmt stmts =>
    rcases hs : (stmt.relabel .untyped).check scopes with ⟨stmt', scopes₁, e' | _⟩
    · simp only [relabelAll, checkAll, hs] at h
      cases h
      exact (Stmt.check_partly hs).before (bare_all stmts _)
    · obtain ⟨-, hs', -⟩ := Stmt.check_finds hs
      rcases hr : checkAll scopes₁ (relabelAll .untyped stmts) with ⟨stmts', scopes₂, result⟩
      simp only [relabelAll, checkAll, hs, hr] at h
      cases h
      have hr := checkAll_partly hr
      rw [hs'.contextAfter_eq] at hr
      exact hr.after hs'.annotated
termination_by structural stmts

end

/-- The sites of a checked program are annotated as far as the check got. -/
theorem Program.check_partly (p : Program) :
    ∃ found rest, (p.relabel .untyped).check.1.sites = found ++ rest ∧ Annotated found ∧ Bare rest ∧
      ((p.relabel .untyped).check.2 = .ok () → rest = []) := by
  have hroot : ∀ p : Program, p.sites = sitesAll [[]] p.body ++ [⟨[[]], .program p⟩] := fun _ => rfl
  rw [check, relabel]
  rcases hc : checkAll Scopes.fresh (relabelAll .untyped p.body) with ⟨body, scopes, e | _⟩
  · obtain ⟨found, rest, hsites, hfound, hrest⟩ := checkAll_partly hc
    have hsites : sitesAll [[]] body = found ++ rest := hsites
    have hprogram : Bare [⟨[[]], .program ⟨body, p.span⟩⟩] := .unmarked rfl
    have hfailed : (.error e : Except Diagnostic Unit) ≠ .ok () := by simp
    refine ⟨found, _, ?_, hfound, hrest.append hprogram, fun hok => absurd hok hfailed⟩
    rw [hroot, hsites, List.append_assoc]
    rfl
  · have hbody := (checkAll_finds hc).2.1.annotated
    refine ⟨_, [], (List.append_nil _).symm, ?_, .nil, fun _ => rfl⟩
    rw [hroot]
    exact hbody.append (.unmarked rfl)

/-- A check writes types in order, and nothing else. A program that carries no types is the same
after the check, up to the types in it. Among the nodes that are to carry types, in post-order, some
first ones now do, each the one type that it has, and all others carry none; if the check has
succeeded then there are no others. -/
theorem Program.check_annotates_first (p : Program) (h : p.relabel .untyped = p) :
    p.check.1.relabel .untyped = p ∧
    Postorder (.program p.check.1) (p.check.1.sites.map Site.node) ∧
    ∃ found rest, p.check.1.sites.filter (·.node.isMarked) = found ++ rest ∧
      (∀ site ∈ found, ∃ type, site.node.dataType? = some type ∧
        ∀ type', NodeType site.context site.node type' ↔ type' = type) ∧
      (∀ site ∈ rest, site.node.dataType? = none) ∧
      (p.check.2 = .ok () → rest = []) := by
  obtain ⟨found, rest, hsites, hfound, hrest, hok⟩ := p.check_partly
  rw [h] at hsites hok
  refine ⟨p.check_untyped.trans h, p.check.1.postorder, found.filter (·.node.isMarked),
    rest.filter (·.node.isMarked), ?_, ?_, ?_, ?_⟩
  · rw [hsites, List.filter_append]
  · intro site hsite
    obtain ⟨hmem, hmarked⟩ := List.mem_filter.1 hsite
    obtain ⟨type, hcarries, htype⟩ := hfound site hmem hmarked
    refine ⟨type, hcarries, fun type' => ⟨fun h' => h'.unique htype, ?_⟩⟩
    rintro rfl
    exact htype
  · intro site hsite
    obtain ⟨hmem, hmarked⟩ := List.mem_filter.1 hsite
    exact hrest site hmem hmarked
  · intro hr
    rw [hok hr, List.filter_nil]

/-- `int x = -1; x = x + y;` ends at `y`, after the types of `-1` and of the first operand. -/
theorem Program.check_annotates_first_undeclared :
    let sign : Expr := .unary .negate (.integer 1 .null) none .null
    let sum : Expr := .binary (.symbol "x" none .null) .plus (.symbol "y" none .null) none .null
    let p : Program :=
      ⟨[.varDecl ⟨"x", .int, some sign, .null⟩, .assign ⟨"x", sum, none, .null⟩], .null⟩
    p.relabel .untyped = p ∧
    (p.check.1.sites.filter (·.node.isMarked)).map (·.node.dataType?) =
      [some .int, some .int, none, none, none] ∧
    ∃ found rest, p.check.1.sites.filter (·.node.isMarked) = found ++ rest ∧
      (∀ site ∈ found, ∃ type, site.node.dataType? = some type ∧
        ∀ type', NodeType site.context site.node type' ↔ type' = type) ∧
      ∀ site ∈ rest, site.node.dataType? = none := by
  intro sign sum p
  have huntyped : p.relabel .untyped = p := rfl
  obtain ⟨-, -, found, rest, hsites, hfound, hrest, -⟩ := p.check_annotates_first huntyped
  exact ⟨huntyped, by decide +kernel, found, rest, hsites, hfound, hrest⟩

end MiniC
