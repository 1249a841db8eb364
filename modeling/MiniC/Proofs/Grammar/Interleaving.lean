import MiniC.Proofs.Grammar.TopLevel

/-!
Checking each statement as soon as it is parsed against checking a whole program once it is. The
two give the same program, and the first error in the order of statements is the one reported.
-/

namespace MiniC

open Grammar

namespace Program

variable {file : String} {tokens : List Token} {stmts : List Stmt} {c : Cursor} {e : Diagnostic}

/-- What checking a parsed program gives. -/
def checked (p : Program) : Except Diagnostic Program :=
  match p.check with
  | (p, .ok ()) => .ok p
  | (_, .error e) => .error e

/-- Parsing with checks, by the statements that are completed and what stops the parser. -/
theorem parse_eq {stop : Except Diagnostic Unit}
    (hc : Completes maxDepth (.start file tokens) stmts c) (hstop : Stops maxDepth c stop) :
    parse file tokens =
      match checkAll Scopes.fresh stmts with
      | ⟨stmts, _, .ok ()⟩ => do
        stop
        return ⟨stmts, c.spanFrom (.start file)⟩
      | ⟨_, _, .error e⟩ => .error e := by
  rw [parse, program_eq hc hstop, visitAll_check]
  rcases checkAll Scopes.fresh stmts with ⟨stmts, scopes, e | _⟩ <;> rfl

/-- Where parsing succeeds, checking on the way comes to the same as checking afterwards. -/
theorem parse_eq_checked {p : Program} (h : parseUntyped file tokens = .ok p) :
    parse file tokens = p.checked := by
  obtain ⟨stmts, c, stop, hc, hstop⟩ := exists_completes maxDepth (.start file tokens)
  rw [parseUntyped_eq hc hstop] at h
  cases hstop with
  | failed _ _ => cases h
  | done ha =>
    cases h
    rw [parse_eq hc (.done ha), checked, check]
    rcases checkAll Scopes.fresh stmts with ⟨stmts, scopes, e | _⟩ <;> rfl

/-- A parser that fails has been stopped by its error after some statements. -/
theorem exists_completes_of_error (h : parseUntyped file tokens = .error e) :
    ∃ stmts c, Completes maxDepth (.start file tokens) stmts c ∧ Stops maxDepth c (.error e) := by
  obtain ⟨stmts, c, stop, hc, hstop⟩ := exists_completes maxDepth (.start file tokens)
  rw [parseUntyped_eq hc hstop] at h
  cases stop with
  | ok _ => cases h
  | error e' =>
    cases h
    exact ⟨stmts, c, hc, hstop⟩

/-- Where parsing fails, an error in the statements completed before comes first. -/
theorem parse_eq_of_stops (hc : Completes maxDepth (.start file tokens) stmts c)
    (hstop : Stops maxDepth c (.error e)) :
    parse file tokens =
      match (checkAll Scopes.fresh stmts).result with
      | .error first => .error first
      | .ok () => .error e := by
  rw [parse_eq hc hstop]
  rcases checkAll Scopes.fresh stmts with ⟨stmts, scopes, first | _⟩ <;> rfl

theorem checked_eq_ok_iff (p : Program) : (∃ q, p.checked = .ok q) ↔ p.check.2 = .ok () := by
  rw [checked]
  rcases p.check with ⟨q, e | _⟩ <;> simp

/-- Parsing with checks succeeds exactly when parsing and checking do. -/
theorem parse_eq_ok_iff :
    (∃ q, parse file tokens = .ok q) ↔
      ∃ p, parseUntyped file tokens = .ok p ∧ p.check.2 = .ok () := by
  cases h : parseUntyped file tokens with
  | ok p =>
    rw [parse_eq_checked h, checked_eq_ok_iff]
    constructor
    · intro hp
      exact ⟨p, rfl, hp⟩
    · rintro ⟨p', hp', hcheck⟩
      cases hp'
      exact hcheck
  | error e =>
    obtain ⟨stmts, c, hc, hstop⟩ := exists_completes_of_error h
    rw [parse_eq_of_stops hc hstop]
    cases (checkAll Scopes.fresh stmts).result <;> simp

/-- Checking on the way comes to what checking afterwards comes to. -/
theorem exists_check_eq {p : Program} (h : parse file tokens = .ok p) :
    ∃ p₀, parseUntyped file tokens = .ok p₀ ∧ p₀.check.1 = p := by
  obtain ⟨p₀, hp₀, hcheck⟩ := parse_eq_ok_iff.1 ⟨p, h⟩
  refine ⟨p₀, hp₀, ?_⟩
  rw [parse_eq_checked hp₀, checked] at h
  rcases hc : p₀.check with ⟨p', e | _⟩
  · simp [hc] at hcheck
  · rw [hc] at h
    exact Except.ok.inj h

/-- The two schedules agree. If the tokens parse, checking each statement on the way gives what
checking the whole program gives, tree and error alike. If they do not, the first error of the
statements that were completed is reported, and the error that stopped the parser only if they have
none. -/
theorem parse_interleaves_check (file : String) (tokens : List Token) :
    (∀ p, parseUntyped file tokens = .ok p → parse file tokens = p.checked) ∧
    (∀ e, parseUntyped file tokens = .error e →
      (∃ stmts c, Completes maxDepth (.start file tokens) stmts c ∧ Stops maxDepth c (.error e)) ∧
      ∀ stmts c, Completes maxDepth (.start file tokens) stmts c → Stops maxDepth c (.error e) →
        parse file tokens =
          match (checkAll Scopes.fresh stmts).result with
          | .error first => .error first
          | .ok () => .error e) ∧
    ((∃ q, parse file tokens = .ok q) ↔
      ∃ p, parseUntyped file tokens = .ok p ∧ p.check.2 = .ok ()) := by
  refine ⟨fun p => parse_eq_checked, fun e he => ⟨exists_completes_of_error he, ?_⟩,
    parse_eq_ok_iff⟩
  intro stmts c hc hstop
  exact parse_eq_of_stops hc hstop

end Program

end MiniC
