import MiniC.Proofs.Token.Lexeme

/-!
Lexemes as the first match in an ordered table of patterns. A pattern may read the head of a text
in several ways, which are tried in order, longer runs before shorter ones; what it matches is the
first of them. Of the seven patterns of the language the first with a match decides what begins at
a place, and that is what a scan finds there.
-/

namespace MiniC.Token

open Text

/-- A pattern for the head of a text. -/
inductive Pattern where
  /-- Nothing to read. -/
  | empty
  /-- No way to read. -/
  | fail
  /-- One character of a class. -/
  | one (p : Char → Bool)
  /-- Characters of a class, as many as there are if the rest of the pattern allows it. -/
  | run (p : Char → Bool)
  /-- The start or the end of a word. -/
  | edge
  | seq (first second : Pattern)
  /-- Either pattern, the first one before the second. -/
  | alt (first second : Pattern)

/-- What is read at the head of a text, and the text that is left. -/
abbrev Way := List Char × List Char

/-- A way to read on, counted from before `read`. -/
def Way.after (read : List Char) (way : Way) : Way :=
  (read ++ way.1, way.2)

namespace Way

@[simp] theorem after_fst (read : List Char) (way : Way) :
    (way.after read).1 = read ++ way.1 := rfl

@[simp] theorem after_snd (read : List Char) (way : Way) : (way.after read).2 = way.2 := rfl

@[simp] theorem map_after_nil (way : Option Way) : way.map (after []) = way :=
  Option.map_id'

theorem after_append (read more : List Char) : after (read ++ more) = after read ∘ after more :=
  funext fun way => Prod.ext (List.append_assoc read more way.1) rfl

end Way

/-- The ways to read characters of a class at the head of a text, the longest first. -/
def runs (p : Char → Bool) : List Char → List Way
  | [] => [([], [])]
  | c :: text =>
    if p c then (runs p text).map (Way.after [c]) ++ [([], c :: text)] else [([], c :: text)]

/-- The kind of a lexeme and all its characters, the first of which is `c`. -/
def Lexeme.whole (c : Char) (lexeme : Lexeme) : Option Kind × List Char :=
  (lexeme.kind, c :: lexeme.tail)

namespace Pattern

/-- The ways a pattern reads the head of a text behind the character `last`, in the order in which
they are tried. -/
def ways : Pattern → (last : Option Char) → (text : List Char) → List Way
  | empty, _, text => [([], text)]
  | fail, _, _ => []
  | one p, _, c :: text => if p c then [([c], text)] else []
  | one _, _, [] => []
  | run p, _, text => runs p text
  | edge, last, text => if last.any isWord = text.head?.any isWord then [] else [([], text)]
  | seq first second, last, text => (first.ways last text).flatMap fun way =>
    (second.ways (way.1.getLast?.or last) way.2).map (Way.after way.1)
  | alt first second, last, text => first.ways last text ++ second.ways last text

/-- The first way a pattern reads the head of a text. -/
def first? (pattern : Pattern) (last : Option Char) (text : List Char) : Option Way :=
  (pattern.ways last text).head?

/-- What a pattern matches at the head of a text that nothing precedes. -/
def match? (pattern : Pattern) (text : List Char) : Option (List Char) :=
  (pattern.first? none text).map Prod.fst

/-- The characters of a text, one after the other. -/
def literal (text : List Char) : Pattern :=
  text.foldr (fun c pattern => (one (· == c)).seq pattern) empty

/-- The first of some patterns that can be read. -/
def anyOf (patterns : List Pattern) : Pattern :=
  patterns.foldr alt fail

/-- At least one character of a class. -/
def many (p : Char → Bool) : Pattern :=
  (one p).seq (run p)

/-- Whether a character lies in one of the ranges, whose ends belong to them. -/
def among (ranges : List (Char × Char)) (c : Char) : Bool :=
  ranges.any fun range => range.1 ≤ c && c ≤ range.2

/-- A reserved word, which must be a word of its own. -/
def keyword : Pattern :=
  edge.seq ((anyOf (reserved.map fun word => literal word.toList)).seq edge)

/-- A name: a letter or an underscore, then letters, figures and underscores. -/
def identifier : Pattern :=
  edge.seq ((one (among [('a', 'z'), ('A', 'Z'), ('_', '_')])).seq
    ((run (among [('a', 'z'), ('A', 'Z'), ('0', '9'), ('_', '_')])).seq edge))

/-- Digits, a point and digits. -/
def float : Pattern :=
  edge.seq ((many isDecimalDigit).seq ((one (· == '.')).seq ((many isDecimalDigit).seq edge)))

/-- Digits, which must not run into a word. -/
def integer : Pattern :=
  edge.seq ((many isDecimalDigit).seq edge)

/-- An operator, of two characters before of one. -/
def operator : Pattern :=
  (anyOf (doubleOperators.map fun pair => literal [pair.1, pair.2])).alt
    (one fun c => c ∈ singleOperators)

/-- A run of white space. -/
def whiteSpace : Pattern :=
  many isWhiteSpace

/-- A quote, anything but a quote, and a quote. -/
def string : Pattern :=
  (one (· == '"')).seq ((run (· != '"')).seq (one (· == '"')))

/-- The patterns in the order in which they are tried, each with the kind of token it makes; white
space makes none. -/
def table : List (Option Kind × Pattern) :=
  [(some .keyword, keyword), (some .identifier, identifier), (some .float, float),
    (some .integer, integer), (some .operator, operator), (none, whiteSpace),
    (some .string, string)]

/-- The match of the first pattern that has one, and its kind. -/
def firstMatch? (text : List Char) : Option (Option Kind × List Char) :=
  table.findSome? fun entry => (entry.2.match? text).map (entry.1, ·)

/-! Ways, pattern by pattern. -/

section

variable {p : Char → Bool} {pattern : Pattern} {last : Option Char} {c : Char}
  {text : List Char}

@[simp] theorem ways_one_nil : (one p).ways last [] = [] := rfl

@[simp] theorem ways_one_cons :
    (one p).ways last (c :: text) = if p c then [([c], text)] else [] := rfl

@[simp] theorem ways_run : (run p).ways last text = runs p text := rfl

@[simp] theorem ways_edge :
    edge.ways last text = if last.any isWord = text.head?.any isWord then [] else [([], text)] :=
  rfl

theorem ways_seq (first second : Pattern) (last : Option Char) (text : List Char) :
    (first.seq second).ways last text = (first.ways last text).flatMap fun way =>
      (second.ways (way.1.getLast?.or last) way.2).map (Way.after way.1) := rfl

theorem ways_alt (first second : Pattern) (last : Option Char) (text : List Char) :
    (first.alt second).ways last text = first.ways last text ++ second.ways last text := rfl

theorem first?_eq (pattern : Pattern) (last : Option Char) (text : List Char) :
    pattern.first? last text = (pattern.ways last text).head? := rfl

theorem runs_cons (p : Char → Bool) (c : Char) (text : List Char) :
    runs p (c :: text) =
      if p c then (runs p text).map (Way.after [c]) ++ [([], c :: text)]
      else [([], c :: text)] := rfl

/-! First ways. -/

theorem first?_seq (first second : Pattern) (last : Option Char) (text : List Char) :
    (first.seq second).first? last text = (first.ways last text).findSome? fun way =>
      (second.first? (way.1.getLast?.or last) way.2).map (Way.after way.1) := by
  rw [first?_eq, ways_seq, List.head?_flatMap]
  simp only [List.head?_map, first?_eq]

theorem seq_assoc (first second third : Pattern) (last : Option Char) (text : List Char) :
    ((first.seq second).seq third).ways last text =
      (first.seq (second.seq third)).ways last text := by
  simp [ways_seq, Way.after_append, List.flatMap_assoc, List.map_flatMap, List.flatMap_map,
    List.getLast?_append, Option.or_assoc]

theorem first?_edge_seq (text : List Char) :
    (edge.seq pattern).first? none (c :: text) =
      if isWord c then pattern.first? none (c :: text) else none := by
  rw [first?_seq, ways_edge]
  cases h : isWord c <;> simp [h]

theorem first?_one_seq (text : List Char) :
    ((one p).seq pattern).first? last (c :: text) =
      if p c then (pattern.first? (some c) text).map (Way.after [c]) else none := by
  rw [first?_seq, ways_one_cons]
  split <;> simp

/-- The first value over the ways to read a run, if there is none before a further character of the
class, is the one at the longest run. -/
theorem findSome?_runs {α : Type} {f : Way → Option α}
    (h : ∀ read c rest, (∀ d ∈ read, p d = true) → p c = true → f (read, c :: rest) = none) :
    (runs p text).findSome? f = f (text.takeWhile p, text.dropWhile p) := by
  induction text generalizing f with
  | nil => exact List.findSome?_singleton
  | cons c text ih =>
    by_cases hc : p c = true
    · have hshort : f ([], c :: text) = none := h [] c text (by simp) hc
      have hlong := ih (f := f ∘ Way.after [c]) fun read d rest hr hd =>
        h (c :: read) d rest (List.forall_mem_cons.2 ⟨hc, hr⟩) hd
      simp only [runs_cons, if_pos hc, List.findSome?_append, List.findSome?_map, hlong,
        List.findSome?_singleton, hshort, Option.or_none, List.takeWhile_cons_of_pos hc,
        List.dropWhile_cons_of_pos hc]
      rfl
    · simp [runs_cons, hc]

theorem head?_runs (p : Char → Bool) (text : List Char) :
    (runs p text).head? = some (text.takeWhile p, text.dropWhile p) := by
  induction text with
  | nil => rfl
  | cons c text ih =>
    by_cases hc : p c = true
    · simp [runs_cons, hc, ih, Way.after]
    · simp [runs_cons, hc]

/-- A pattern that cannot go on with a character of the class reads on behind the longest run. -/
theorem first?_run_seq
    (h : ∀ (read : List Char) c rest, (∀ d ∈ read, p d = true) → p c = true →
      pattern.first? (read.getLast?.or last) (c :: rest) = none) :
    ((run p).seq pattern).first? last text =
      (pattern.first? ((text.takeWhile p).getLast?.or last) (text.dropWhile p)).map
        (Way.after (text.takeWhile p)) := by
  rw [first?_seq, ways_run]
  exact findSome?_runs fun read c rest hr hc => by simp [h read c rest hr hc]

theorem first?_many_seq (text : List Char) :
    ((many p).seq pattern).first? last (c :: text) =
      if p c then (((run p).seq pattern).first? (some c) text).map (Way.after [c]) else none := by
  rw [← first?_one_seq, first?_eq, first?_eq, ← seq_assoc]
  rfl

theorem ways_anyOf (patterns : List Pattern) (last : Option Char) (text : List Char) :
    (anyOf patterns).ways last text = patterns.flatMap (·.ways last text) := by
  induction patterns with
  | nil => rfl
  | cons pattern patterns ih => exact congrArg (pattern.ways last text ++ ·) ih

theorem first?_anyOf_seq (patterns : List Pattern) (last : Option Char) (text : List Char) :
    ((anyOf patterns).seq pattern).first? last text =
      patterns.findSome? fun first => (first.seq pattern).first? last text := by
  rw [first?_eq, ways_seq, ways_anyOf, List.flatMap_assoc]
  exact List.head?_flatMap

theorem ways_literal (word after : List Char) (last : Option Char) :
    (literal word).ways last (word ++ after) = [(word, after)] := by
  induction word generalizing last with
  | nil => rfl
  | cons c word ih =>
    change ((one (· == c)).seq (literal word)).ways last (c :: (word ++ after)) = _
    simp [ways_seq, ih, Way.after]

theorem ways_literal_of_not {word text : List Char} (h : ¬word <+: text) :
    (literal word).ways last text = [] := by
  induction word generalizing last text with
  | nil => exact absurd List.nil_prefix h
  | cons c word ih =>
    change ((one (· == c)).seq (literal word)).ways last text = _
    cases text with
    | nil => rfl
    | cons d text =>
      by_cases hd : d = c
      · subst hd
        simp [ways_seq, ih (mt (List.prefix_cons_inj d).2 h)]
      · simp [ways_seq, hd]

/-! Words. -/

theorem first?_edge (h : last.any isWord = true) (text : List Char) :
    edge.first? last text = if endsWord text then some ([], text) else none := by
  cases ht : text.head?.any isWord <;> simp [first?_eq, endsWord, h, ht]

theorem last_isWord {read : List Char} (hp : ∀ d, p d = true → isWord d = true)
    (hr : ∀ d ∈ read, p d = true) (hlast : last.any isWord = true) :
    (read.getLast?.or last).any isWord = true := by
  cases h : read.getLast? with
  | none => exact hlast
  | some d => exact hp d (hr d (List.mem_of_getLast? h))

/-- Behind a word character a run of such characters is read as far as it goes or not at all. -/
theorem first?_run_edge (hp : ∀ d, p d = true → isWord d = true) (hlast : last.any isWord = true)
    (text : List Char) :
    ((run p).seq edge).first? last text =
      if endsWord (text.dropWhile p) then some (text.takeWhile p, text.dropWhile p)
      else none := by
  rw [first?_run_seq, first?_edge (last_isWord hp (fun d hd => List.mem_takeWhile_imp hd) hlast)]
  · split <;> simp [Way.after]
  · intro read c rest hr hc
    rw [first?_edge (last_isWord hp hr hlast)]
    simp [endsWord, hp c hc]

theorem first?_many_edge (hp : ∀ d, p d = true → isWord d = true) (hc : p c = true)
    (text : List Char) :
    ((many p).seq edge).first? last (c :: text) =
      if endsWord (text.dropWhile p) then some (c :: text.takeWhile p, text.dropWhile p)
      else none := by
  have hlast : (some c).any isWord = true := hp c hc
  rw [first?_many_seq, if_pos hc, first?_run_edge hp hlast]
  split <;> simp [Way.after]

end

/-! The patterns of the table. -/

section

variable {c : Char} {rest : List Char}

theorem le_and_le_iff {d : Char} : d ≤ c ∧ c ≤ d ↔ c = d :=
  ⟨fun h => Char.le_antisymm h.2 h.1, fun h => h ▸ ⟨Char.le_refl c, Char.le_refl c⟩⟩

theorem among_letters : among [('a', 'z'), ('A', 'Z'), ('_', '_')] = isNameStart := by
  funext c
  rw [Bool.eq_iff_iff, isNameStart_iff, Letter, ← le_and_le_iff]
  simp [among]

theorem among_letters_figures :
    among [('a', 'z'), ('A', 'Z'), ('0', '9'), ('_', '_')] = isNameChar := by
  funext c
  rw [Bool.eq_iff_iff, isNameChar_iff, Letter, Figure, ← le_and_le_iff]
  simp only [among, List.any_cons, List.any_nil, Bool.or_false, Bool.or_eq_true,
    Bool.and_eq_true, decide_eq_true_eq]
  grind

/-- The first value over a list of which one element may have any. -/
theorem findSome?_eq_ite {α β : Type} [DecidableEq α] {l : List α} {f : α → Option β} {x : α}
    {value : Option β} (h : ∀ a ∈ l, f a = if a = x then value else none) :
    l.findSome? f = if x ∈ l then value else none := by
  induction l with
  | nil => rfl
  | cons a l ih =>
    rw [List.forall_mem_cons] at h
    rw [List.findSome?_cons, h.1, ih h.2]
    by_cases hx : a = x
    · cases value <;> simp [hx]
    · simp [hx, Ne.symm hx]

theorem findSome?_cons_or {α β : Type} (f : α → Option β) (a : α) (l : List α) :
    (a :: l).findSome? f = (f a).or (l.findSome? f) := by
  rw [List.findSome?_cons]
  cases f a <;> rfl

theorem match?_identifier (c : Char) (rest : List Char) :
    identifier.match? (c :: rest) =
      if isNameStart c ∧ endsWord (rest.dropWhile isNameChar) then
        some (c :: rest.takeWhile isNameChar) else none := by
  rw [match?, identifier, among_letters, among_letters_figures, first?_edge_seq, first?_one_seq]
  by_cases hc : isNameStart c = true
  · have hw := isWord_of_isNameChar (isNameChar_of_isNameStart hc)
    have hlast : (some c).any isWord = true := hw
    rw [if_pos hw, if_pos hc, first?_run_edge (fun _ => isWord_of_isNameChar) hlast]
    split <;> simp [*]
  · simp [hc]

theorem match?_integer (c : Char) (rest : List Char) :
    integer.match? (c :: rest) =
      if isDecimalDigit c ∧ endsWord (rest.dropWhile isDecimalDigit) then
        some (c :: rest.takeWhile isDecimalDigit) else none := by
  rw [match?, integer, first?_edge_seq]
  by_cases hc : isDecimalDigit c = true
  · rw [if_pos (isWord_of_isDecimalDigit hc),
      first?_many_edge (fun _ => isWord_of_isDecimalDigit) hc]
    split <;> simp [*]
  · simp [hc, first?_many_seq]

/-- Reserved words are names. -/
theorem reserved_name {word : String} (h : word ∈ reserved) :
    word.toList ≠ [] ∧ ∀ d ∈ word.toList, isNameChar d = true := by
  have hall : reserved.all (fun word =>
      !word.toList.isEmpty && word.toList.all isNameChar) = true := by decide +kernel
  have hword := Bool.and_eq_true_iff.1 (List.all_eq_true.1 hall word h)
  rw [Bool.not_eq_true', List.isEmpty_eq_false_iff, List.all_eq_true] at hword
  exact hword

/-- A reserved word is read where it is the longest name. -/
theorem first?_reserved {word : String} (h : word ∈ reserved) (text : List Char) :
    ((literal word.toList).seq edge).first? none text =
      if word = String.ofList (text.takeWhile isNameChar) then
        if endsWord (text.dropWhile isNameChar) then
          some (text.takeWhile isNameChar, text.dropWhile isNameChar) else none
      else none := by
  obtain ⟨hne, hletters⟩ := reserved_name h
  have hlast : (word.toList.getLast?.or none).any isWord = true := by
    rw [List.getLast?_eq_some_getLast hne]
    exact isWord_of_isNameChar (hletters _ (List.getLast_mem hne))
  have hread (after : List Char) : ((literal word.toList).seq edge).first? none
      (word.toList ++ after) = if endsWord after then some (word.toList, after) else none := by
    rw [first?_seq, ways_literal, List.findSome?_singleton, first?_edge hlast]
    split <;> simp [Way.after]
  by_cases hname : word = String.ofList (text.takeWhile isNameChar)
  · have hlist : word.toList = text.takeWhile isNameChar := by rw [hname, String.toList_ofList]
    rw [if_pos hname, ← hlist, ← hread, hlist, List.takeWhile_append_dropWhile]
  · rw [if_neg hname]
    by_cases hp : word.toList <+: text
    · obtain ⟨after, rfl⟩ := hp
      rw [hread, if_neg fun hends => hname ?_]
      have hstop := stops_of_endsWord (fun _ => isWord_of_isNameChar) (endsWord_iff.1 hends)
      rw [takeWhile_run hletters hstop, String.ofList_toList]
    · rw [first?_seq, ways_literal_of_not hp, List.findSome?_nil]

theorem match?_keyword (c : Char) (rest : List Char) :
    keyword.match? (c :: rest) =
      if String.ofList (c :: rest.takeWhile isNameChar) ∈ reserved ∧
          endsWord (rest.dropWhile isNameChar) then
        some (c :: rest.takeWhile isNameChar) else none := by
  rw [match?, keyword, first?_edge_seq, first?_anyOf_seq, List.findSome?_map, Function.comp_def,
    findSome?_eq_ite fun word hw => first?_reserved hw (c :: rest)]
  by_cases hc : isNameChar c = true
  · rw [if_pos (isWord_of_isNameChar hc), List.takeWhile_cons_of_pos hc,
      List.dropWhile_cons_of_pos hc, ← ite_and]
    split <;> rfl
  · have hempty : String.ofList [] ∉ reserved := by decide
    have hr : String.ofList (c :: rest.takeWhile isNameChar) ∉ reserved := fun hr =>
      hc (isNameChar_of_isNameStart (reserved_letters hr).1)
    rw [List.takeWhile_cons_of_neg hc, if_neg hempty, ite_self, if_neg fun h => hr h.1]
    rfl

/-- Behind digits the pattern of a number goes on with a fraction. -/
theorem first?_fraction (last : Option Char) (text : List Char) :
    (((one (· == '.')).seq ((many isDecimalDigit).seq edge)).first? last text).map Prod.fst =
      fraction? text := by
  cases text with
  | nil => rfl
  | cons c text =>
    rw [first?_one_seq]
    by_cases hc : c = '.'
    · subst hc
      rw [if_pos (beq_self_eq_true '.'), fraction?]
      cases text with
      | nil => rfl
      | cons d text =>
        by_cases hd : isDecimalDigit d = true
        · rw [first?_many_edge (fun _ => isWord_of_isDecimalDigit) hd,
            List.takeWhile_cons_of_pos hd, List.dropWhile_cons_of_pos hd]
          cases endsWord (text.dropWhile isDecimalDigit) <;> rfl
        · rw [first?_many_seq, if_neg hd, List.takeWhile_cons_of_neg hd]
          rfl
    · simp [fraction?, hc]

theorem match?_float (c : Char) (rest : List Char) :
    float.match? (c :: rest) =
      if isDecimalDigit c then
        (fraction? (rest.dropWhile isDecimalDigit)).map fun fraction =>
          c :: rest.takeWhile isDecimalDigit ++ fraction
      else none := by
  rw [match?, float, first?_edge_seq]
  by_cases hc : isDecimalDigit c = true
  · rw [if_pos (isWord_of_isDecimalDigit hc), if_pos hc, first?_many_seq, if_pos hc,
      first?_run_seq, ← first?_fraction, Option.map_map, Option.map_map, Option.map_map]
    · rfl
    · -- the point is no digit, so no shorter run of digits comes before it
      intro read d rest _ hd
      rw [first?_one_seq, if_neg]
      intro hpoint
      rw [eq_of_beq hpoint] at hd
      exact absurd hd (by decide +kernel)
  · simp [hc, first?_many_seq]

theorem first?_pair (pair : Char × Char) (c d : Char) (rest : List Char) :
    (literal [pair.1, pair.2]).first? none (c :: d :: rest) =
      if pair = (c, d) then some ([c, d], rest) else none := by
  by_cases hp : pair = (c, d)
  · subst hp
    rw [if_pos rfl]
    exact congrArg List.head? (ways_literal [c, d] rest none)
  · have hn : ¬[pair.1, pair.2] <+: c :: d :: rest := by
      simpa [List.cons_prefix_cons, Prod.ext_iff] using hp
    rw [if_neg hp, first?_eq, ways_literal_of_not hn]
    rfl

/-- The operators of two characters come before those of one. -/
theorem match?_operator (c : Char) (rest : List Char) :
    (operator.match? (c :: rest)).map (some Kind.operator, ·) =
      (operator? c rest).map (Lexeme.whole c) := by
  have hfirst : operator.first? none (c :: rest) =
      (doubleOperators.findSome? fun pair => (literal [pair.1, pair.2]).first? none (c :: rest)).or
        (if c ∈ singleOperators then some ([c], rest) else none) := by
    rw [first?_eq, operator, ways_alt, List.head?_append, ways_anyOf, List.head?_flatMap,
      List.findSome?_map]
    simp only [ways_one_cons, decide_eq_true_eq, apply_ite List.head?]
    rfl
  rw [match?, hfirst]
  cases rest with
  | nil =>
    have hnone : (doubleOperators.findSome? fun pair =>
        (literal [pair.1, pair.2]).first? none [c]) = none := by
      rw [List.findSome?_eq_none_iff]
      intro pair _
      rw [first?_eq, ways_literal_of_not (by simp [List.cons_prefix_cons])]
      rfl
    rw [hnone, Option.none_or, operator?]
    split <;> rfl
  | cons d rest =>
    rw [findSome?_eq_ite fun pair _ => first?_pair pair c d rest, operator?, List.head?_cons,
      Option.any_some]
    by_cases hd : (c, d) ∈ doubleOperators
    · simp [hd, Lexeme.whole]
    · by_cases hs : c ∈ singleOperators <;> simp [hd, hs, Lexeme.whole]

theorem match?_whiteSpace (c : Char) (rest : List Char) :
    (whiteSpace.match? (c :: rest)).map (none, ·) =
      if isWhiteSpace c then some (Lexeme.whole c ⟨none, rest.takeWhile isWhiteSpace⟩)
      else none := by
  rw [match?, whiteSpace, many, first?_one_seq, first?_eq, ways_run, head?_runs]
  split <;> rfl

theorem match?_string (c : Char) (rest : List Char) :
    (string.match? (c :: rest)).map (some Kind.string, ·) =
      if c = '"' then (string? rest).map (Lexeme.whole c) else none := by
  rw [match?, string, first?_one_seq]
  by_cases hc : c = '"'
  · subst hc
    rw [if_pos (beq_self_eq_true '"'), if_pos rfl, string?, first?_run_seq]
    · by_cases hlen : (rest.takeWhile (· != '"')).length < rest.length
      · obtain ⟨after, ha⟩ := dropWhile_quote hlen
        simp [ha, hlen, first?_eq, Way.after, Lexeme.whole]
      · have hempty : rest.dropWhile (· != '"') = [] := by
          have hlength := congrArg List.length
            (List.takeWhile_append_dropWhile (p := (· != '"')) (l := rest))
          rw [List.length_append] at hlength
          exact List.eq_nil_of_length_eq_zero (by omega)
        simp [hempty, hlen, first?_eq]
    · intro read d rest _ hd
      simp [first?_eq, bne_iff_ne.1 hd]
  · simp [hc]

/-- Names and reserved words. -/
theorem match?_name (c : Char) (rest : List Char) :
    ((keyword.match? (c :: rest)).map (some Kind.keyword, ·)).or
        ((identifier.match? (c :: rest)).map (some Kind.identifier, ·)) =
      if isNameStart c then (name? c rest).map (Lexeme.whole c) else none := by
  rw [match?_keyword, match?_identifier, name?]
  by_cases hc : isNameStart c = true
  · by_cases hr : String.ofList (c :: rest.takeWhile isNameChar) ∈ reserved
    · simp only [hc, hr, true_and, if_true]
      split <;> rfl
    · simp only [hc, hr, true_and, false_and, if_true, if_false]
      split <;> rfl
  · have hr : String.ofList (c :: rest.takeWhile isNameChar) ∉ reserved := fun hr =>
      hc (reserved_letters hr).1
    simp only [hc, hr, false_and, if_false]
    rfl

/-- Numbers with and without a fraction. -/
theorem match?_number (c : Char) (rest : List Char) :
    ((float.match? (c :: rest)).map (some Kind.float, ·)).or
        ((integer.match? (c :: rest)).map (some Kind.integer, ·)) =
      if isDecimalDigit c then (number? rest).map (Lexeme.whole c) else none := by
  rw [match?_float, match?_integer, number?]
  by_cases hc : isDecimalDigit c = true
  · simp only [hc, true_and, if_true]
    cases fraction? (rest.dropWhile isDecimalDigit) with
    | some fraction => rfl
    | none => split <;> rfl
  · simp only [hc]
    rfl

/-- No operator begins like another lexeme or like white space. -/
theorem operator?_eq_none
    (h : isNameStart c = true ∨ isDecimalDigit c = true ∨ isWhiteSpace c = true ∨ c = '"') :
    operator? c rest = none := by
  have hnone (tail : List Char) : c :: tail ∉ operators := by
    intro ho
    obtain ⟨hs, hd, hw, hq⟩ := operator_head ho
    simp [hs, hd, hw, hq] at h
  have hpair (d : Char) : (c, d) ∉ doubleOperators := fun hd =>
    hnone [d] (by simpa [operators, doubleOperators] using hd)
  have hsingle : c ∉ singleOperators := fun hs =>
    hnone [] (by simpa [operators, singleOperators] using hs)
  cases rest <;> simp [operator?, hpair, hsingle]

end

theorem firstMatch?_eq_or (text : List Char) :
    firstMatch? text =
      (((keyword.match? text).map (some Kind.keyword, ·)).or
        ((identifier.match? text).map (some Kind.identifier, ·))).or
      ((((float.match? text).map (some Kind.float, ·)).or
        ((integer.match? text).map (some Kind.integer, ·))).or
      (((operator.match? text).map (some Kind.operator, ·)).or
      (((whiteSpace.match? text).map (none, ·)).or
        ((string.match? text).map (some Kind.string, ·))))) := by
  simp only [firstMatch?, table, findSome?_cons_or, List.findSome?_nil, Option.or_none,
    Option.or_assoc]

/-- What a scan finds at a place is the match of the first pattern that has one there, and where
none has, nothing is found. -/
theorem firstMatch?_eq_lexeme? (c : Char) (rest : List Char) :
    firstMatch? (c :: rest) = (lexeme? c rest).map (Lexeme.whole c) := by
  rw [firstMatch?_eq_or, match?_name, match?_number, match?_operator, match?_whiteSpace,
    match?_string, lexeme?]
  -- the classes of a first character exclude one another, so one branch of each side is left
  by_cases hq : c = '"'
  · subst hq
    have hs : isNameStart '"' = false := by decide
    have hd : isDecimalDigit '"' = false := by decide
    have hw : isWhiteSpace '"' = false := by decide
    simp [hs, hd, hw, operator?_eq_none]
  by_cases hw : isWhiteSpace c = true
  · have hs := not_isNameStart_of_isWhiteSpace hw
    have hd := not_isDecimalDigit_of_isWhiteSpace hw
    simp [hs, hd, hw, operator?_eq_none]
  by_cases hd : isDecimalDigit c = true
  · have hs := not_isNameStart_of_isDecimalDigit hd
    simp [hs, hd, hw, hq, operator?_eq_none]
  by_cases hs : isNameStart c = true
  · simp [hs, hd, hw, hq, operator?_eq_none]
  · simp [hs, hd, hw, hq]

/-- The fraction would end within a word, so only the digits before it are read. -/
example : firstMatch? "1.5x".toList = some (some .integer, ['1']) := by
  decide +kernel

end Pattern

end MiniC.Token
