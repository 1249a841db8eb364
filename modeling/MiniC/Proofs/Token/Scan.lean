import MiniC.Proofs.Source.Bytes
import MiniC.Proofs.Token.Lexeme

/-!
The scan against layouts. A text scans to the tokens of its layout, which is the only one, and a
text without a layout does not scan.
-/

namespace MiniC.Token

open Text Source

section

variable {file : String} {bytes chars : Nat} {c : Char} {tail after : List Char}

/-- The characters of a lexeme that has been taken are passed over. -/
theorem scanFrom_skip (run after : List Char) (bytes chars : Nat) :
    scanFrom file run.length bytes chars (run ++ after) =
      scanFrom file 0 (bytes + byteSize run) (chars + run.length) after := by
  induction run generalizing bytes chars with
  | nil => rfl
  | cons c run ih =>
    rw [List.length_cons, List.cons_append, scanFrom, ih, byteSize, Nat.add_assoc, Nat.add_assoc,
      Nat.add_comm 1]

/-- One step of a scan, over a lexeme that makes a token. -/
theorem scanFrom_token {kind : Kind} (gap : List Char)
    (h : lexeme? c (tail ++ after) = some ⟨some kind, tail⟩) :
    scanFrom file 0 bytes chars (c :: (tail ++ after)) = do
      let tokens ← scanFrom file 0 (bytes + byteSize (c :: tail)) (chars + (c :: tail).length) after
      return Piece.token file bytes ⟨kind, c :: tail, gap⟩ :: tokens := by
  rw [scanFrom, h]
  simp only [scanFrom_skip, byteSize, List.length_cons, Nat.add_assoc, Nat.add_comm 1]
  rfl

/-- One step of a scan, over white space. -/
theorem scanFrom_space (h : lexeme? c (tail ++ after) = some ⟨none, tail⟩) :
    scanFrom file 0 bytes chars (c :: (tail ++ after)) =
      scanFrom file 0 (bytes + byteSize (c :: tail)) (chars + (c :: tail).length) after := by
  rw [scanFrom, h]
  simp only [scanFrom_skip, byteSize, List.length_cons, Nat.add_assoc, Nat.add_comm 1]
  cases scanFrom file 0 (bytes + (c.utf8Size + byteSize tail)) (chars + (tail.length + 1)) after <;>
    rfl

/-- A scan starts after the white space before the first lexeme. -/
theorem scanFrom_blank {gap : List Char} (h : Blank gap)
    (he : ∀ d ∈ after.head?, isWhiteSpace d = false) :
    scanFrom file 0 bytes chars (gap ++ after) =
      scanFrom file 0 (bytes + byteSize gap) (chars + gap.length) after := by
  cases gap with
  | nil => rfl
  | cons c tail => exact scanFrom_space (lexeme?_blank h he)

end

/-! A text with a layout scans to its tokens. -/

theorem word_head {c : Char} (h : isNameStart c = true ∨ isDecimalDigit c = true) :
    isWhiteSpace c = false ∧ c ≠ '.' := by
  constructor
  · rw [Bool.eq_false_iff]
    intro hs
    simp [not_isNameStart_of_isWhiteSpace hs, not_isDecimalDigit_of_isWhiteSpace hs] at h
  · rintro rfl
    exact absurd h (by decide)

/-- No lexeme starts with white space or a point. -/
theorem Spells.head {kind : Kind} {text : List Char} (h : Spells kind text) :
    ∃ c tail, text = c :: tail ∧ isWhiteSpace c = false ∧ c ≠ '.' := by
  cases h with
  | keyword hr =>
    cases text with
    | nil => exact absurd hr (by decide)
    | cons c tail => exact ⟨c, tail, rfl, word_head (.inl (reserved_letters hr).1)⟩
  | identifier hc _ _ => exact ⟨_, _, rfl, word_head (.inl (isNameStart_iff.2 hc))⟩
  | float hw _ =>
    obtain ⟨c, whole, rfl⟩ := List.exists_cons_of_ne_nil hw.1
    exact ⟨c, _, rfl, word_head (.inr (hw.2 c List.mem_cons_self))⟩
  | integer hd =>
    obtain ⟨c, digits, rfl⟩ := List.exists_cons_of_ne_nil hd.1
    exact ⟨c, digits, rfl, word_head (.inr (hd.2 c List.mem_cons_self))⟩
  | operator ho =>
    cases text with
    | nil => exact absurd ho (by decide)
    | cons c tail =>
      refine ⟨c, tail, rfl, (operator_head ho).2.2.1, ?_⟩
      rintro rfl
      simp [operators] at ho
  | string _ => exact ⟨'"', _, rfl, by decide, by decide⟩

/-- Nothing follows the last lexeme, so it may end there. -/
theorem ends_none {kind : Kind} {lexeme : List Char} : Ends kind lexeme none := by
  cases kind <;> simp [Ends]

theorem ends_of_isWhiteSpace {kind : Kind} {lexeme : List Char} {c : Char}
    (h : isWhiteSpace c = true) : Ends kind lexeme (some c) := by
  have hw := not_isWord_of_isWhiteSpace h
  have hs : c ≠ '=' := by
    rintro rfl
    exact absurd h (by decide)
  cases kind <;> simp [Ends, hw, hs]

namespace Piece

variable {file : String} {bytes chars : Nat} {p : Piece} {pieces pieces' : List Piece}

/-- Pieces start neither with white space nor with a point. -/
theorem Stand.head (h : Stand pieces) :
    ∀ c ∈ (pieces.flatMap text).head?, isWhiteSpace c = false ∧ c ≠ '.' := by
  cases h with
  | nil => simp
  | @cons p pieces hs _ _ _ =>
    obtain ⟨c, tail, hl, hc⟩ := hs.head
    intro d hd
    obtain rfl : c = d := by simpa [text, hl] using hd
    exact hc

/-- Pieces start with their first lexeme. -/
theorem Stand.head_eq {q : Piece} (h : Stand (q :: pieces)) :
    ((q :: pieces).flatMap text).head? = q.lexeme.head? := by
  cases h with
  | cons hs _ _ _ =>
    obtain ⟨c, tail, hl, -⟩ := hs.head
    simp [text, hl]

/-- In standing pieces a lexeme ends where the rest of the text starts. -/
theorem Stand.ends (h : Stand (p :: pieces)) :
    Ends p.kind p.lexeme (p.gap ++ pieces.flatMap text).head? := by
  cases h with
  | cons hs hg ha h =>
    cases hgap : p.gap with
    | cons c gap => exact ends_of_isWhiteSpace (hg c (by simp [hgap]))
    | nil =>
      cases pieces with
      | nil => exact ends_none
      | cons q pieces =>
        rw [List.nil_append, h.head_eq]
        exact ha q rfl hgap

theorem Stand.no_point (h : Stand (p :: pieces)) :
    (p.gap ++ pieces.flatMap text).head? ≠ some '.' := by
  cases h with
  | cons _ hg _ h =>
    intro hhead
    cases hgap : p.gap with
    | cons c gap =>
      have hc := hg c (by simp [hgap])
      obtain rfl : c = '.' := by simpa [hgap] using hhead
      exact absurd hc (by decide)
    | nil =>
      rw [hgap] at hhead
      exact (h.head '.' hhead).2 rfl

/-- In standing pieces a lexeme is found. -/
theorem Stand.lexeme? {c : Char} {tail : List Char} (h : Stand (p :: pieces))
    (hl : p.lexeme = c :: tail) :
    Token.lexeme? c (tail ++ (p.gap ++ pieces.flatMap text)) = some ⟨some p.kind, tail⟩ := by
  have hends := h.ends
  have hpoint := h.no_point
  cases h with
  | cons hs _ _ _ =>
    rw [hl] at hs hends
    exact lexeme?_of_spells hs hends fun _ => hpoint

theorem Stand.scanFrom (h : Stand pieces) :
    Token.scanFrom file 0 bytes chars (pieces.flatMap text) = .ok (tokens file bytes pieces) := by
  induction h generalizing bytes chars with
  | nil => rfl
  | @cons p pieces hs hg ha h ih =>
    obtain ⟨c, tail, hl, -⟩ := hs.head
    have hlex := (Stand.cons hs hg ha h).lexeme? hl
    rw [List.flatMap_cons, text, hl, List.append_assoc, List.cons_append, scanFrom_token p.gap hlex,
      scanFrom_blank hg fun d hd => (h.head d hd).1, ih, tokens, text, byteSize_append, hl,
      Nat.add_assoc, ← hl]
    rfl

end Piece

/-! A text that scans has a layout. -/

theorem blank_append {text text' : List Char} (h : Blank text) (h' : Blank text') :
    Blank (text ++ text') := by
  intro c hc
  rcases List.mem_append.1 hc with hc | hc
  · exact h c hc
  · exact h' c hc

/-- A lexeme that ends where a layout starts stays apart from the first piece of the layout. -/
theorem Layout.Valid.apart {l : Layout} {kind : Kind} {lexeme : List Char} (h : l.Valid)
    (he : Ends kind lexeme l.text.head?) :
    ∀ q ∈ l.pieces.head?, Piece.Apart ⟨kind, lexeme, l.lead⟩ q := by
  intro q hq hgap
  obtain ⟨pieces, hp⟩ := List.head?_eq_some_iff.1 hq
  have hstand : Piece.Stand (q :: pieces) := hp ▸ h.pieces
  rw [Layout.text, show l.lead = [] from hgap, List.nil_append, hp, hstand.head_eq] at he
  exact he

theorem exists_layout {file : String} {bytes chars : Nat} {text : List Char} {tokens : List Token}
    (h : scanFrom file 0 bytes chars text = .ok tokens) :
    ∃ l : Layout, l.Valid ∧ l.text = text ∧
      Piece.tokens file (bytes + byteSize l.lead) l.pieces = tokens := by
  -- by induction on the length of the text, as each step takes a lexeme off its head
  induction hn : text.length using Nat.strongRecOn generalizing bytes chars text tokens with
  | ind n ih =>
    subst hn
    cases text with
    | nil =>
      cases h
      exact ⟨⟨[], []⟩, ⟨fun _ hc => absurd hc List.not_mem_nil, .nil⟩, rfl, rfl⟩
    | cons c rest =>
      cases hl : lexeme? c rest with
      | none => simp [scanFrom, hl] at h
      | some lexeme =>
        obtain ⟨kind, tail⟩ := lexeme
        obtain ⟨after, rfl, hf⟩ := lexeme?_found hl
        have hlt : after.length < (c :: (tail ++ after)).length := by
          rw [List.length_cons, List.length_append]
          omega
        cases kind with
        | none =>
          -- white space goes before what leads the layout of the rest
          rw [scanFrom_space hl] at h
          obtain ⟨l, hv, rfl, htokens⟩ := ih _ hlt h rfl
          refine ⟨⟨c :: tail ++ l.lead, l.pieces⟩, ⟨blank_append hf hv.lead, hv.pieces⟩, ?_, ?_⟩
          · simp [Layout.text]
          · rw [byteSize_append, ← Nat.add_assoc]
            exact htokens
        | some kind =>
          rw [scanFrom_token [] hl] at h
          cases hr : scanFrom file 0 (bytes + byteSize (c :: tail)) (chars + (c :: tail).length)
            after with
          | error e =>
            rw [hr] at h
            cases h
          | ok rest =>
            rw [hr] at h
            cases h
            obtain ⟨l, hv, rfl, htokens⟩ := ih _ hlt hr rfl
            -- what leads the layout of the rest is the gap after the lexeme
            refine ⟨⟨[], ⟨kind, c :: tail, l.lead⟩ :: l.pieces⟩,
              ⟨fun _ hc => absurd hc List.not_mem_nil,
                .cons hf.1 hv.lead (hv.apart hf.2) hv.pieces⟩, ?_, ?_⟩
            · simp [Layout.text, Piece.text]
            · rw [← htokens, Piece.tokens, Piece.text, byteSize_append, byteSize, Nat.add_zero,
                Nat.add_assoc]
              rfl

/-! A text has one layout. -/

/-- White space before a lexeme is all that stands before it. -/
theorem blank_unique {gap gap' after after' : List Char} (h : Blank gap) (h' : Blank gap')
    (he : ∀ c ∈ after.head?, isWhiteSpace c = false)
    (he' : ∀ c ∈ after'.head?, isWhiteSpace c = false) (ht : gap ++ after = gap' ++ after') :
    gap = gap' ∧ after = after' := by
  constructor
  · rw [← takeWhile_run h he, ht, takeWhile_run h' he']
  · rw [← dropWhile_run h he, ht, dropWhile_run h' he']

theorem Piece.Stand.unique {pieces pieces' : List Piece} (h : Stand pieces) (h' : Stand pieces')
    (ht : pieces.flatMap text = pieces'.flatMap text) : pieces = pieces' := by
  induction h generalizing pieces' with
  | nil =>
    cases h' with
    | nil => rfl
    | cons hs _ _ _ =>
      obtain ⟨c, tail, hl, -⟩ := hs.head
      simp [text, hl] at ht
  | @cons p pieces hs hg ha h ih =>
    have hp := Stand.cons hs hg ha h
    obtain ⟨c, tail, hl, -⟩ := hs.head
    cases h' with
    | nil => simp [text, hl] at ht
    | @cons q pieces' hs' hg' ha' h' =>
      have hq := Stand.cons hs' hg' ha' h'
      obtain ⟨c', tail', hl', -⟩ := hs'.head
      simp only [List.flatMap_cons, text, hl, hl', List.append_assoc, List.cons_append,
        List.cons.injEq] at ht
      obtain ⟨rfl, ht⟩ := ht
      -- the same lexeme is found at the head of both texts
      have hlex := hp.lexeme? hl
      rw [ht, hq.lexeme? hl'] at hlex
      obtain ⟨hkind, rfl⟩ : q.kind = p.kind ∧ tail' = tail := by simpa using hlex
      obtain ⟨hgap, hrest⟩ := blank_unique hg hg' (fun d hd => (h.head d hd).1)
        (fun d hd => (h'.head d hd).1) (List.append_cancel_left ht)
      rw [ih h' hrest]
      obtain ⟨kind, lexeme, gap⟩ := p
      obtain ⟨kind', lexeme', gap'⟩ := q
      cases hl
      cases hl'
      cases hkind
      cases hgap
      rfl

theorem Layout.Valid.unique {l l' : Layout} (h : l.Valid) (h' : l'.Valid) (ht : l.text = l'.text) :
    l = l' := by
  obtain ⟨hlead, htext⟩ := blank_unique h.lead h'.lead (fun c hc => (h.pieces.head c hc).1)
    (fun c hc => (h'.pieces.head c hc).1) ht
  have hpieces := h.pieces.unique h'.pieces htext
  cases l
  cases l'
  cases hlead
  cases hpieces
  rfl

/-- The scan is the lexical grammar: a text scans to some tokens exactly when they are those of a
layout of the text, and it has at most one. -/
theorem scan_eq_ok_iff (file source : String) :
    (∀ tokens, scan file source = .ok tokens ↔
      ∃ l : Layout, l.Valid ∧ l.text = source.toList ∧ l.tokens file = tokens) ∧
    (∀ l l' : Layout, l.Valid → l'.Valid → l.text = source.toList → l'.text = source.toList →
      l = l') := by
  refine ⟨fun tokens => ⟨fun h => ?_, ?_⟩, fun l l' hv hv' ht ht' => ?_⟩
  · obtain ⟨l, hv, ht, htokens⟩ := exists_layout h
    rw [Nat.zero_add] at htokens
    exact ⟨l, hv, ht, htokens⟩
  · rintro ⟨l, hv, ht, rfl⟩
    rw [scan, ← ht, Layout.text, scanFrom_blank hv.lead fun c hc => (hv.pieces.head c hc).1,
      hv.pieces.scanFrom, Nat.zero_add]
    rfl
  · exact hv.unique hv' (ht.trans ht'.symm)

end MiniC.Token
