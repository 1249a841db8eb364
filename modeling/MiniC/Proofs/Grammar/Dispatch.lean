import MiniC.Proofs.Grammar.Lookahead

/-!
Statements with a table of one's own. A rule that a table names for a statement looks itself at the
token that the statement starts with. So a table can name no rule that succeeds where the language
has another one, and what is parsed with it is parsed with the language's own table.
-/

namespace MiniC

open Grammar MiniC.Language

namespace Parse

variable {α β : Type}

/-- Where `x` succeeds, so does `y`, and both give the same. -/
def Refines (x y : Parse α) : Prop :=
  ∀ ⦃c a c'⦄, x c = .ok a c' → y c = .ok a c'

namespace Refines

variable {x y : Parse α} {f g : α → Parse β}

theorem refl (x : Parse α) : x.Refines x :=
  fun _ _ _ h => h

theorem bind (hx : x.Refines y) (hf : ∀ a, (f a).Refines (g a)) :
    (x >>= f).Refines (y >>= g) := by
  intro c b c' h
  obtain ⟨a, c₁, ha, hb⟩ := bind_ok.1 h
  exact bind_ok.2 ⟨a, c₁, hx ha, hf a hb⟩

/-- A rule whose result is used in the same way. -/
theorem andThen (hx : x.Refines y) (f : α → Parse β) : (x >>= f).Refines (y >>= f) :=
  hx.bind fun a => refl (f a)

/-- A rule that goes on after the same first part. -/
theorem goOn (x : Parse α) (hf : ∀ a, (f a).Refines (g a)) : (x >>= f).Refines (x >>= g) :=
  (refl x).bind hf

theorem get {f g : Cursor → Parse α} (h : ∀ c, (f c).Refines (g c)) :
    (get >>= f).Refines (get >>= g) :=
  fun c _ _ hf => h c hf

theorem nested (h : x.Refines y) : (nested x).Refines (nested y) :=
  fun _ _ _ hx => nested_ok.2 (h (nested_ok.1 hx))

end Refines

/-- Where a rule succeeds, there is a token ahead, of which this holds. -/
def Opens (rule : Parse α) (first : Token → Prop) : Prop :=
  ∀ ⦃c a c'⦄, rule c = .ok a c' → ∃ token rest, c.ahead = token :: rest ∧ first token

namespace Opens

variable {x : Parse α} {f : α → Parse β} {first first' : Token → Prop}

theorem bind (h : x.Opens first) : (x >>= f).Opens first := by
  intro c b c' hrun
  obtain ⟨a, c₁, ha, -⟩ := bind_ok.1 hrun
  exact h ha

theorem nested (h : x.Opens first) : (nested x).Opens first :=
  fun _ _ _ hrun => h (nested_ok.1 hrun)

theorem mono (h : x.Opens first) (hf : ∀ token, first token → first' token) :
    x.Opens first' := by
  intro c a c' hrun
  obtain ⟨token, rest, ha, ht⟩ := h hrun
  exact ⟨token, rest, ha, hf token ht⟩

theorem of_moved (h : ∀ ⦃c a c'⦄, x c = .ok a c' → ∃ token, c.Moved [token] c' ∧ first token) :
    x.Opens first := by
  intro c a c' hrun
  obtain ⟨token, hm, ht⟩ := h hrun
  exact ⟨token, c'.ahead, hm.ahead, ht⟩

theorem expectKeyword (lexeme : String) :
    (expectKeyword lexeme).Opens (·.terminal = keyword lexeme) :=
  of_moved fun _ token _ h => ⟨token, expectKeyword_ok h⟩

theorem expectOperator (lexeme : String) :
    (expectOperator lexeme).Opens (·.terminal = operator lexeme) :=
  of_moved fun _ token _ h => ⟨token, expectOperator_ok h⟩

end Opens

end Parse

namespace Grammar

open Parse

variable (table : Table) (levels : Nat)

theorem typeKeyword_opens :
    typeKeyword.Opens fun token => ∃ type : DataType, token.terminal = keyword type.name := by
  refine .of_moved fun c found c' h => ?_
  obtain ⟨token, hm, ht, -⟩ := typeKeyword_ok h
  exact ⟨token, hm, found.1, ht⟩

theorem block_opens : (block table levels).Opens (·.terminal = operator "\x7b") := by
  cases levels with
  | zero =>
    intro c b c' h
    cases h
  | succ levels => exact (Opens.expectOperator _).bind.nested

/-- A rule that a table may name succeeds only on a token for which the language names it too. -/
theorem handle_opens {block : Parse Block} (hb : block.Opens (·.terminal = operator "\x7b"))
    (handler : Handler) :
    (handle (expression levels) block handler).Opens
      (Table.standard.handler? · = some handler) := by
  have hkeyword : ∀ {lexeme}, Table.standard.lookup lexeme = some handler → ∀ token : Token,
      token.terminal = keyword lexeme → Table.standard.handler? token = some handler :=
    fun hl token ht => (handler?_eq_lookup _ (.inl rfl) ht).trans hl
  cases handler with
  | varDecl =>
    refine typeKeyword_opens.bind.bind.mono fun token ⟨type, ht⟩ => hkeyword ?_ token ht
    cases type <;> rfl
  | ifElse => exact (Opens.expectKeyword "if").bind.mono (hkeyword rfl)
  | whileLoop => exact (Opens.expectKeyword "while").bind.mono (hkeyword rfl)
  | forLoop => exact (Opens.expectKeyword "for").bind.mono (hkeyword rfl)
  | ret => exact (Opens.expectKeyword "return").bind.bind.mono (hkeyword rfl)
  | block =>
    exact hb.bind.mono fun token ht => (handler?_eq_lookup _ (.inr rfl) ht).trans rfl

section

variable {block block' : Parse Block} (hb : block.Refines block')

include hb

theorem elseBody_refines : (elseBody block).Refines (elseBody block') := by
  refine .get fun c => ?_
  split
  · exact .goOn _ fun _ => hb.andThen _
  · exact .refl _

theorem handle_refines (handler : Handler) :
    (handle (expression levels) block handler).Refines
      (handle (expression levels) block' handler) := by
  cases handler with
  | varDecl | ret => exact .refl _
  | ifElse =>
    refine .goOn _ fun token => .goOn _ fun test => ?_
    exact hb.bind fun thenBlock => (elseBody_refines hb).andThen _
  | whileLoop => exact .goOn _ fun token => .goOn _ fun test => hb.andThen _
  | forLoop =>
    refine .goOn _ fun token => .goOn _ fun _ => .goOn _ fun init => .goOn _ fun test => ?_
    exact .goOn _ fun _ => .goOn _ fun update => .goOn _ fun _ => hb.andThen _
  | block => exact hb.andThen _

/-- A statement is parsed by the rule that the language names for its first token. -/
theorem statementWith_refines (ho : block.Opens (·.terminal = operator "\x7b")) :
    (statementWith table (expression levels) block).Refines
      (statementWith .standard (expression levels) block') := by
  intro c stmt c' h
  rw [statementWith, bind_ok] at h ⊢
  obtain ⟨token, c₁, hp, h⟩ := h
  refine ⟨token, c₁, hp, ?_⟩
  obtain ⟨rfl, rest, ha⟩ := peek_ok hp
  cases ht : table.handler? token with
  | some handler =>
    simp only [ht] at h
    obtain ⟨first, rest', ha', hfirst⟩ := handle_opens levels ho handler h
    obtain rfl : first = token := (List.cons.inj (ha'.symm.trans ha)).1
    simp only [hfirst]
    exact handle_refines levels hb handler h
  | none =>
    simp only [ht] at h
    split at h
    · next hk =>
      have hnone : Table.standard.handler? token = none := by simp [Table.handler?, hk]
      simpa only [hnone, hk, if_true] using h
    · simp at h

end

theorem untilBrace_refines {statement statement' : Parse Stmt}
    (hs : statement.Refines statement') (fuel : Nat) :
    (untilBrace statement fuel).Refines (untilBrace statement' fuel) := by
  induction fuel with
  | zero => exact .refl _
  | succ fuel ih =>
    refine .get fun c => ?_
    split
    · exact .refl _
    · exact hs.bind fun stmt => ih.andThen _

theorem block_refines : (block table levels).Refines (block .standard levels) := by
  induction levels with
  | zero => exact .refl _
  | succ levels ih =>
    have hs := statementWith_refines table levels ih (block_opens table levels)
    refine .nested (.goOn _ fun brace => .goOn _ fun id => .get fun c => ?_)
    exact (untilBrace_refines hs _).andThen _

theorem statement_refines : (statement table levels).Refines (statement .standard levels) :=
  statementWith_refines table levels (block_refines table levels) (block_opens table levels)

/-- What any rule parses with a table it parses with the table of the language. -/
theorem run_refines (rule : Rule) :
    (rule.run table levels).Refines (rule.run .standard levels) := by
  have hhandle : ∀ handler,
      (Rule.runWith.handle (atLevel levels) (block table levels) handler).Refines
        (Rule.runWith.handle (atLevel levels) (block .standard levels) handler) :=
    fun handler => (handle_refines levels (block_refines table levels) handler).andThen _
  cases rule with
  | statement => exact (statement_refines table levels).andThen _
  | varDecl => exact hhandle .varDecl
  | ifElse => exact hhandle .ifElse
  | whileLoop => exact hhandle .whileLoop
  | forLoop => exact hhandle .forLoop
  | ret => exact hhandle .ret
  | blockStatement => exact hhandle .block
  | block => exact (block_refines table levels).andThen _
  | assignment | update | atLevel | unary | primary | group | typeKeyword =>
    simp only [Rule.run, Rule.runWith]
    exact .refl _

end Grammar

/-- A wrong table can only reject. Whatever the table of a session is and wherever it stands, what a
rule parses there is parsed with the table of the language too, with the same result, spans and ids
of blocks included, and leads to the same state. -/
theorem Session.parse_standard {session next : Session} {rule : Rule} {result : Parsed}
    (h : session.answer (.parse rule) = (.parsed result, next)) :
    ({ session with table := .standard } : Session).answer (.parse rule) =
      (.parsed result, { next with table := .standard }) := by
  have hrefines := run_refines session.table (maxDepth - session.depth) rule
  rw [answer_parse] at h
  cases hrun : rule.run session.table (maxDepth - session.depth) session.cursor with
  | error failure c' =>
    rw [run_error hrun] at h
    cases h
  | ok parsed c' =>
    rw [run_ok hrun] at h
    cases h
    rw [answer_parse]
    exact run_ok (hrefines hrun)

/-- With a table that has only blocks and the declarations of `int`, and takes loops for branches,
`{ int x; { } }` is parsed as it should be. -/
theorem Session.parse_standard_block :
    let token (kind : Token.Kind) (text : String) : Token := ⟨kind, text, .null⟩
    let table : Table :=
      ((Table.bind [] "while" .ifElse).bind "int" .varDecl).bind "\x7b" .block
    let session : Session := ⟨.start "" [token .operator "\x7b", token .keyword "int",
      token .identifier "x", token .operator ";", token .operator "\x7b",
      token .operator "\x7d", token .operator "\x7d"], table⟩
    ∃ result next, next.cursor.index = 7 ∧
      session.answer (.parse .statement) = (.parsed result, next) ∧
      ({ session with table := .standard } : Session).answer (.parse .statement) =
        (.parsed result, { next with table := .standard }) := by
  intro token table session
  let inner : Block := ⟨[], 2, .null⟩
  let outer : Block := ⟨[.varDecl ⟨"x", .int, none, .null⟩, .block inner], 1, .null⟩
  let next : Session := ⟨⟨session.cursor.ahead.reverse, [], 3, "", 0⟩, table⟩
  have hrun : session.answer (.parse .statement) =
      (.parsed (.node (.stmt (.block outer))), next) := by rfl
  exact ⟨_, next, rfl, hrun, parse_standard hrun⟩

end MiniC
