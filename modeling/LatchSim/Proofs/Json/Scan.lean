import LatchSim.Json.Token

/-!
# Scanning tokens with blanks around them

`Spaced` lets any blanks stand around the tokens of a text. Tokens that end by themselves
are found again whatever the blanks: `Token.scan_spaced`. A string literal does so when it
has been written piece by piece from a text.
-/

namespace LatchSim.Json

/-- The texts of tokens in order, with blanks before, between and behind them. -/
inductive Spaced : List Token → List Char → Prop
  | nothing : Spaced [] []
  | blank (c : Char) : isBlank c → Spaced tokens text → Spaced tokens (c :: text)
  | token (t : Token) : Spaced tokens text → Spaced (t :: tokens) (t.text ++ text)

namespace Spaced

theorem blanks {gap : List Char} (blank : ∀ c ∈ gap, isBlank c) (spaced : Spaced tokens text) :
    Spaced tokens (gap ++ text) := by
  induction gap with
  | nil => exact spaced
  | cons c gap ih =>
    rw [List.forall_mem_cons] at blank
    exact .blank c blank.1 (ih blank.2)

/-- Every token with the same gap behind it. -/
theorem spread {gap : List Char} (blank : ∀ c ∈ gap, isBlank c) (tokens : List Token) :
    Spaced tokens (tokens.flatMap fun t => t.text ++ gap) := by
  induction tokens with
  | nil => exact .nothing
  | cons t rest ih =>
    rw [List.flatMap_cons, List.append_assoc]
    exact .token t (ih.blanks blank)

theorem joined (tokens : List Token) : Spaced tokens (tokens.flatMap Token.text) := by
  simpa using spread (List.forall_mem_nil _) tokens

end Spaced

/-- The end of the token shows without what follows it. -/
inductive Token.Closed : Token → Prop
  | openObject : Closed .openObject
  | closeObject : Closed .closeObject
  | openList : Closed .openList
  | closeList : Closed .closeList
  | comma : Closed .comma
  | colon : Closed .colon
  | null : Closed .null
  | bool (value : Bool) : Closed (.bool value)
  | string (s : String) : Closed (.string (pieces s))

/-! ## String literals -/

theorem hexDigit?_digitChar (digit : Nat) (small : digit < 16) :
    hexDigit? (Nat.digitChar digit) = some digit ∧ (Nat.digitChar digit).utf8Size = 1 := by
  revert digit
  decide

/-- The four digits of a code unit are collected in its value. -/
theorem feedAll_unit (done : List Token) (before : List Piece) {value : Nat}
    (small : value < 65536) :
    Lexer.feedAll ⟨done, .quoted ⟨before, .none⟩⟩ (Piece.unit value).text =
      ⟨done, .quoted ⟨.unit value :: before, .none⟩⟩ := by
  have digit (n : Nat) := hexDigit?_digitChar (n % 16) (Nat.mod_lt n (by decide))
  have whole : ((value / 4096 % 16 * 16 + value / 256 % 16) * 16 + value / 16 % 16) * 16 +
      value % 16 = value := by omega
  simp [Piece.text, hexUnit, Lexer.feedAll, Lexer.feed, StringLiteral.Scan.feed, digit, whole]

theorem escape?_escapeLetter {c : Char} (escaped : c = '"' ∨ c = '\\' ∨ escapeLetter c ≠ c) :
    escapeLetter c ≠ 'u' ∧ escape? (escapeLetter c) = some c := by
  have each : ∀ c ∈ ['"', '\\', '\x08', '\x0c', '\n', '\r', '\t'],
      escapeLetter c ≠ 'u' ∧ escape? (escapeLetter c) = some c := by
    simp [escapeLetter, escape?]
  refine each c ?_
  unfold escapeLetter at escaped
  grind

/-- The piece that writes a character is read back from its text. -/
theorem feedAll_pieceOf (done : List Token) (before : List Piece) (c : Char) :
    Lexer.feedAll ⟨done, .quoted ⟨before, .none⟩⟩ (pieceOf c).text =
      ⟨done, .quoted ⟨pieceOf c :: before, .none⟩⟩ := by
  unfold pieceOf
  split
  next escaped =>
    obtain ⟨letter, meant⟩ := escape?_escapeLetter escaped
    simp [Piece.text, Lexer.feedAll, Lexer.feed, StringLiteral.Scan.feed, letter, meant]
  next unescaped =>
    split
    next low => exact feedAll_unit done before (by omega)
    next high =>
      rw [not_or, not_or] at unescaped
      simp [Piece.text, Lexer.feedAll, Lexer.feed, StringLiteral.Scan.feed, unescaped.1,
        unescaped.2.1, high]

theorem feedAll_pieces (done : List Token) (before : List Piece) (chars : List Char) :
    Lexer.feedAll ⟨done, .quoted ⟨before, .none⟩⟩ ((chars.map pieceOf).flatMap Piece.text) =
      ⟨done, .quoted ⟨(chars.map pieceOf).reverse ++ before, .none⟩⟩ := by
  induction chars generalizing before with
  | nil => rfl
  | cons c chars ih =>
    rw [List.map_cons, List.flatMap_cons, Lexer.feedAll_append, feedAll_pieceOf, ih]
    simp

/-! ## Tokens -/

/-- A closed token is read from its text alone. -/
theorem Token.Closed.feedAll {t : Token} (closed : t.Closed) (done : List Token) :
    Lexer.feedAll ⟨done, .between⟩ t.text = ⟨t :: done, .between⟩ := by
  cases closed with
  | string s =>
    have opened : Lexer.feed ⟨done, .between⟩ '"' = ⟨done, .quoted .start⟩ := by
      simp [Lexer.feed, Lexer.startToken, isBlank]
    have inside := feedAll_pieces done [] s.toList
    rw [Token.text, List.cons_append, Lexer.feedAll, List.foldl_cons, opened,
      ← Lexer.feedAll, Lexer.feedAll_append, pieces, StringLiteral.Scan.start, inside]
    simp [Lexer.feedAll, Lexer.feed, StringLiteral.Scan.feed, Lexer.emit]
  | bool value => cases value <;> rfl
  | _ => rfl

theorem feedAll_spaced (spaced : Spaced tokens text) (closed : ∀ t ∈ tokens, t.Closed)
    (done : List Token) :
    Lexer.feedAll ⟨done, .between⟩ text = ⟨tokens.reverse ++ done, .between⟩ := by
  induction spaced generalizing done with
  | nothing => rfl
  | blank c blank _ ih =>
    have skipped : Lexer.feed ⟨done, .between⟩ c = ⟨done, .between⟩ := by
      simp [Lexer.feed, Lexer.startToken, blank]
    rw [Lexer.feedAll, List.foldl_cons, skipped]
    exact ih closed done
  | token t _ ih =>
    rw [List.forall_mem_cons] at closed
    rw [Lexer.feedAll_append, closed.1.feedAll, ih closed.2]
    simp

/-- Blanks around tokens are not seen. -/
theorem Token.scan_spaced {text : List Char} (spaced : Spaced tokens text)
    (closed : ∀ t ∈ tokens, t.Closed) : Token.scan text = tokens := by
  rw [Token.scan, Lexer.start, feedAll_spaced spaced closed]
  simp [Lexer.tokens]

end LatchSim.Json
