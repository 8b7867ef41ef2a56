import LatchSim.Json.Record
import LatchSim.Proofs.Except

/-!
# Where a document ends

Text behind a complete document changes nothing in it: it is scanned as if it stood alone, and
counts only for whether it has any token. That needs the document to be a container, whose end
shows without what follows: `Document.parse_append`. A reader of containers then gives the same
result for every longer text, or refuses it: `Document.read_append`.
-/

namespace LatchSim.Json

/-! ## Tokens of longer texts -/

/-- A token that what follows it may change: a number, or a token that is not completed. -/
inductive Token.Unsettled : Token → Prop
  | number (literal : Number) : Unsettled (.number literal)
  | broken (quoted : Bool) (read skim : Fault) : Unsettled (.broken quoted read skim)

theorem Token.unsettled_ofString {ending : Ending} (unclosed : ending ≠ .closed)
    (pieces : List Piece) : (ofString pieces ending).Unsettled := by
  unfold ofString
  split
  · cases ending <;> simp_all [Ending.fault?]
  · exact .broken ..
  · exact .broken ..

namespace Lexer

variable {lexer : Lexer} {c : Char}

/-- The same place of a text that has had other tokens before. -/
def behind (earlier : List Token) (lexer : Lexer) : Lexer :=
  { lexer with done := lexer.done ++ earlier }

theorem startToken_behind (earlier : List Token) (lexer : Lexer) (c : Char) :
    (lexer.behind earlier).startToken c = (lexer.startToken c).behind earlier := by
  fun_cases startToken lexer c <;> simp_all [startToken, behind, emit, fail]

theorem feed_behind (earlier : List Token) (lexer : Lexer) (c : Char) :
    (lexer.behind earlier).feed c = (lexer.feed c).behind earlier := by
  obtain ⟨done, state⟩ := lexer
  cases state with
  | between => exact startToken_behind earlier _ c
  | word next rest token =>
    simp only [feed, behind]
    split
    · rfl
    · cases rest <;> rfl
  | number scan =>
    simp only [feed, behind]
    split
    · rfl
    · rfl
    · split
      · rfl
      · exact startToken_behind earlier (emit ⟨done, .number scan⟩ _) c
  | quoted scan =>
    simp only [feed, behind]
    split <;> rfl
  | stopped => rfl

theorem feedAll_behind (earlier : List Token) (lexer : Lexer) (text : List Char) :
    (lexer.behind earlier).feedAll text = (lexer.feedAll text).behind earlier := by
  induction text generalizing lexer with
  | nil => rfl
  | cons c text ih =>
    simp only [feedAll, List.foldl_cons, feed_behind]
    exact ih _

theorem tokens_behind (earlier : List Token) (lexer : Lexer) :
    (lexer.behind earlier).tokens = earlier.reverse ++ lexer.tokens := by
  obtain ⟨done, state⟩ := lexer
  cases state with
  | between | stopped | word _ _ _ | quoted _ => simp [tokens, behind]
  | number scan => cases number : scan.number? <;> simp [tokens, behind, number]

/-! ### Whether there is any token -/

theorem tokens_startToken_ne_nil (unblank : ¬ isBlank c) (lexer : Lexer) :
    (lexer.startToken c).tokens ≠ [] := by
  fun_cases startToken lexer c with
  | case1 blank => exact absurd blank unblank
  | case12 _ _ _ _ _ _ _ _ _ _ _ scan _ => cases number : scan.number? <;> simp [tokens, number]
  | _ => simp [tokens, emit, fail]

theorem tokens_startToken_of_done (complete : lexer.done ≠ []) (c : Char) :
    (lexer.startToken c).tokens ≠ [] := by
  have whole : lexer.startToken c = (startToken ⟨[], lexer.state⟩ c).behind lexer.done :=
    startToken_behind lexer.done ⟨[], lexer.state⟩ c
  simp [whole, tokens_behind, complete]

theorem tokens_feed_ne_nil (any : lexer.tokens ≠ []) (c : Char) : (lexer.feed c).tokens ≠ [] := by
  -- What is complete stays, so all that matters is the token that is being read.
  have whole : lexer.feed c = (feed ⟨[], lexer.state⟩ c).behind lexer.done :=
    feed_behind lexer.done ⟨[], lexer.state⟩ c
  by_cases complete : lexer.done = []
  · obtain ⟨done, state⟩ := lexer
    obtain rfl : done = [] := complete
    cases state with
    | between | stopped => exact absurd rfl any
    | word next rest token =>
      simp only [feed]
      split
      · simp [tokens, fail]
      · cases rest <;> simp [tokens, emit]
    | number scan =>
      simp only [feed]
      split
      next scan _ => cases number : scan.number? <;> simp [tokens, number]
      next => simp [tokens, fail]
      next literal _ _ =>
        split
        · simp [tokens, fail]
        · exact tokens_startToken_of_done (by simp [emit]) c
    | quoted scan =>
      simp only [feed]
      split <;> simp [tokens, emit]
  · simp [whole, tokens_behind, complete]

theorem tokens_feedAll_ne_nil (any : lexer.tokens ≠ []) (text : List Char) :
    (lexer.feedAll text).tokens ≠ [] := by
  induction text generalizing lexer with
  | nil => exact any
  | cons c text ih => exact ih (tokens_feed_ne_nil any c)

/-! ### The last token -/

/-- A lexer that has stopped has done so at a token that is not completed. -/
def Sound (lexer : Lexer) : Prop :=
  lexer.state = .stopped → ∃ last rest, lexer.done = last :: rest ∧ last.Unsettled

theorem sound_of_state (going : lexer.state ≠ .stopped) : lexer.Sound :=
  fun stopped => absurd stopped going

theorem sound_fail (lexer : Lexer) (fault : Fault) : (lexer.fail fault).Sound :=
  fun _ => ⟨_, _, rfl, .broken ..⟩

theorem sound_startToken (lexer : Lexer) (c : Char) : (lexer.startToken c).Sound := by
  fun_cases startToken lexer c with
  | case13 => exact lexer.sound_fail .noValue
  | _ => exact sound_of_state (by simp [emit])

theorem Sound.feed (sound : lexer.Sound) (c : Char) : (lexer.feed c).Sound := by
  fun_cases Lexer.feed lexer c with
  | case1 => exact sound_startToken lexer c
  | case2 | case6 | case7 => exact lexer.sound_fail _
  | case8 => exact sound_startToken _ c
  | case11 _ _ pieces _ unclosed =>
    exact fun _ => ⟨_, _, rfl, Token.unsettled_ofString unclosed pieces⟩
  | case12 => exact sound
  | _ => exact sound_of_state (by simp [emit])

theorem Sound.feedAll (sound : lexer.Sound) (text : List Char) : (lexer.feedAll text).Sound := by
  induction text generalizing lexer with
  | nil => exact sound
  | cons c text ih => exact ih (sound.feed c)

/-- A text that ends within a token, or was given up, has an unsettled token at its end. -/
theorem Sound.tokens_eq (sound : lexer.Sound) (unfinished : lexer.state ≠ .between) :
    ∃ before last, lexer.tokens = before ++ [last] ∧ last.Unsettled := by
  obtain ⟨done, state⟩ := lexer
  cases state with
  | between => exact absurd rfl unfinished
  | stopped =>
    obtain ⟨last, rest, complete, unsettled⟩ := sound rfl
    obtain rfl : done = last :: rest := complete
    exact ⟨rest.reverse, last, List.reverse_cons, unsettled⟩
  | word next rest token => exact ⟨done.reverse, _, List.reverse_cons, .broken ..⟩
  | number scan =>
    cases number : scan.number? with
    | some literal => exact ⟨done.reverse, _, by simp [tokens, number], .number literal⟩
    | none =>
      simp only [tokens, number]
      exact ⟨done.reverse, _, List.reverse_cons, .broken ..⟩
  | quoted scan =>
    exact ⟨done.reverse, _, List.reverse_cons, Token.unsettled_ofString (by simp) _⟩

end Lexer

namespace Token

theorem scan_append {text : List Char} (finished : (Lexer.start.feedAll text).state = .between)
    (more : List Char) : scan (text ++ more) = scan text ++ scan more := by
  obtain ⟨done, reached⟩ : ∃ done, Lexer.start.feedAll text = Lexer.start.behind done :=
    ⟨_, congrArg (Lexer.mk _) finished⟩
  simp only [scan, Lexer.feedAll_append, reached, Lexer.feedAll_behind, Lexer.tokens_behind]
  simp [Lexer.start, Lexer.tokens]

/-- There is no token in blanks, and in any other text there is. -/
theorem scan_eq_nil_iff {text : List Char} : scan text = [] ↔ ∀ c ∈ text, isBlank c := by
  induction text with
  | nil => simp [scan, Lexer.tokens, Lexer.feedAll, Lexer.start]
  | cons c text ih =>
    rw [List.forall_mem_cons, ← ih]
    by_cases blank : isBlank c
    · have skipped : Lexer.start.feed c = Lexer.start := by
        simp [Lexer.start, Lexer.feed, Lexer.startToken, blank]
      simp [scan, Lexer.feedAll, skipped, blank]
    · have any := Lexer.tokens_startToken_ne_nil blank Lexer.start
      have nonempty : scan (c :: text) ≠ [] := Lexer.tokens_feedAll_ne_nil any text
      simp [nonempty, blank]

end Token

/-! ## Complete containers -/

/-- A container that has been closed. -/
inductive Document.Closed : Document → Prop
  | list (items : List Document) : Closed (.list items none)
  | object (members : List (Key × Document)) : Closed (.object members none)

namespace Place

variable {place : Place} {token : Token} {root : Document} {surplus : Bool}

theorem not_closed_closeAll (cut : Cut) (broken : ¬ root.Closed) (outer : List Frame) :
    ¬ (closeAll cut root outer).Closed := by
  induction outer generalizing root with
  | nil => exact broken
  | cons frame outer ih => cases frame <;> exact ih (by rintro ⟨⟩)

/-- Where the text is given up, the document is not that of a closed container. -/
def Sound (place : Place) : Prop := ∀ root, place = .stopped root → ¬ root.Closed

theorem Sound.not_closed_cutOff (sound : place.Sound) (cut : Cut)
    (incomplete : ∀ root surplus, place ≠ .complete root surplus) :
    ¬ (place.cutOff cut).Closed := by
  cases place with
  | complete root surplus => exact absurd rfl (incomplete root surplus)
  | stopped root => exact sound root rfl
  | _ => exact not_closed_closeAll cut (by rintro ⟨⟩) _

theorem behind_ne_stopped (doc : Document) (outer : List Frame) :
    behind doc outer ≠ .stopped root := by
  fun_cases behind doc outer <;> simp

theorem startValue?_ne_stopped (outer : List Frame) (token : Token) :
    startValue? outer token ≠ some (.stopped root) := by
  cases token <;> simp [startValue?, behind_ne_stopped]

theorem stopped_of_feed? (next : place.feed? token = some (.stopped root)) :
    place = .stopped root := by
  fun_cases feed? place token <;> simp_all [feed?, startValue?_ne_stopped, behind_ne_stopped]

theorem Sound.feed (sound : place.Sound) (token : Token) : (place.feed token).Sound := by
  intro root reached
  cases next : place.feed? token with
  | some after =>
    simp only [Place.feed, next] at reached
    exact sound root (stopped_of_feed? (reached ▸ next))
  | none =>
    simp only [Place.feed, next, stopped.injEq] at reached
    subst reached
    refine sound.not_closed_cutOff _ fun root surplus complete => ?_
    subst complete
    simp [feed?] at next

theorem Sound.feedAll (sound : place.Sound) (tokens : List Token) :
    (place.feedAll tokens).Sound := by
  induction tokens generalizing place with
  | nil => exact sound
  | cons token tokens ih => exact ih (sound.feed token)

/-- A number completes the document only where it is the document. -/
theorem not_closed_behind_number {literal : Number} (outer : List Frame)
    (reached : behind (.number literal) outer = .complete root false) : ¬ root.Closed := by
  cases outer with
  | nil =>
    obtain ⟨rfl, -⟩ := complete.inj reached
    rintro ⟨⟩
  | cons frame outer => cases frame <;> cases reached

/-- No container is completed by a token that may still change. -/
theorem not_closed_of_unsettled (unsettled : token.Unsettled)
    (reached : place.feed token = .complete root false) : ¬ root.Closed := by
  cases unsettled with
  | number literal =>
    cases place with
    | value outer => exact not_closed_behind_number outer reached
    | firstItem outer => exact not_closed_behind_number (.list [] :: outer) reached
    | nextItem items outer => exact not_closed_behind_number (.list items :: outer) reached
    | _ => cases reached
  | broken => cases place <;> cases reached

theorem feedAll_complete (root : Document) (surplus : Bool) (tokens : List Token) :
    (complete root surplus).feedAll tokens = complete root (surplus || ! tokens.isEmpty) := by
  induction tokens generalizing surplus with
  | nil => simp [feedAll]
  | cons token tokens ih => exact (ih true).trans (by simp)

end Place

namespace Document

variable {text : List Char} {root : Document} {surplus : Bool}

theorem parse_eq_of_closed (closed : root.Closed) (parsed : parse text = (root, surplus)) :
    (Place.value []).feedAll (Token.scan text) = .complete root surplus := by
  have sound : (Place.value []).Sound := nofun
  unfold parse at parsed
  split at parsed
  next place reached =>
    obtain ⟨rfl, rfl⟩ := Prod.mk.inj parsed
    exact reached
  next place incomplete =>
    obtain ⟨rfl, -⟩ := Prod.mk.inj parsed
    exact absurd closed ((sound.feedAll _).not_closed_cutOff _ incomplete)

/-- A text whose document is a complete container has been scanned to its end. -/
theorem scan_finished (closed : root.Closed) (parsed : parse text = (root, false)) :
    (Lexer.start.feedAll text).state = .between := by
  refine Classical.byContradiction fun unfinished => ?_
  have sound : Lexer.start.Sound := Lexer.sound_of_state (by simp [Lexer.start])
  obtain ⟨before, last, tokens, unsettled⟩ := (sound.feedAll text).tokens_eq unfinished
  have reached := parse_eq_of_closed closed parsed
  rw [Token.scan, tokens, Place.feedAll, List.foldl_append] at reached
  exact Place.not_closed_of_unsettled unsettled reached closed

/-- Behind a complete container all that counts is whether there is any token. -/
theorem parse_append (closed : root.Closed) (parsed : parse text = (root, false))
    (more : List Char) : parse (text ++ more) = (root, ! (Token.scan more).isEmpty) := by
  have reached : (Place.value []).feedAll (Token.scan (text ++ more)) =
      .complete root (! (Token.scan more).isEmpty) := by
    have first := parse_eq_of_closed closed parsed
    rw [Place.feedAll] at first ⊢
    rw [Token.scan_append (scan_finished closed parsed), List.foldl_append, first]
    exact Place.feedAll_complete root false _
  rw [parse, reached]

/-! ## Readers of containers -/

theorem read_eq_ok {decode : Document → Except Fault α} {text : String} {a : α} :
    read decode text = .ok a ↔ ∃ root, parse text.toList = (root, false) ∧ decode root = .ok a := by
  unfold read
  cases parse text.toList with | mk root surplus =>
  cases decoded : decode root <;> cases surplus <;> simp [decoded]

/-- A longer text is read as before where only blanks have been added, and else refused. -/
theorem read_append {decode : Document → Except Fault α}
    (container : ∀ doc a, decode doc = .ok a → doc.Closed) {text : String} {a : α}
    (accepted : read decode text = .ok a) (more : String) :
    read decode (text ++ more) =
      if more.toList.all isBlank then .ok a else .error .trailingCharacters := by
  obtain ⟨root, parsed, decoded⟩ := read_eq_ok.mp accepted
  simp only [read, String.toList_append, parse_append (container root a decoded) parsed, decoded,
    List.all_eq_true, ← Token.scan_eq_nil_iff]
  cases Token.scan more.toList <;> simp

/-- A text that is cut short within its tokens is refused. -/
theorem read_cut {decode : Document → Except Fault α}
    (container : ∀ doc a, decode doc = .ok a → doc.Closed) {before after : String} {a : α}
    (accepted : read decode (before ++ after) = .ok a) (unblank : ∃ c ∈ after.toList, ¬ isBlank c) :
    ∃ fault, read decode before = .error fault := by
  cases early : read decode before with
  | error fault => exact ⟨fault, rfl⟩
  | ok b =>
    obtain ⟨c, member, unblank⟩ := unblank
    rw [read_append container early,
      if_neg fun blank => unblank (List.all_eq_true.mp blank c member)] at accepted
    cases accepted

end Document

namespace Layout

variable {Field : Type} [DecidableEq Field] {layout : Layout Field} {cut? : Option Cut}

theorem readMembers_uncut {members : List (Key × Document)} {draft last : layout.Draft}
    (read : layout.readMembers cut? members draft = .ok last) : cut? = none := by
  induction members generalizing draft with
  | nil =>
    cases cut? with
    | none => rfl
    | some cut => cases read
  | cons m rest ih =>
    obtain ⟨key, item⟩ := m
    simp only [readMembers, bind_eq_ok_iff] at read
    obtain ⟨name, -, read⟩ := read
    split at read
    · obtain ⟨_, -, read⟩ := bind_eq_ok_iff.mp read
      exact ih read
    · split at read
      · cases read
      · obtain ⟨content, -, read⟩ := bind_eq_ok_iff.mp read
        exact ih read

theorem readElements_uncut {fields : List Field} {items : List Document} {count : Nat}
    {draft last : layout.Draft}
    (read : layout.readElements cut? count fields items draft = .ok last) : cut? = none := by
  fun_induction readElements layout cut? count fields items draft with
  | case1 | case6 | case7 => rfl
  | case2 | case3 | case5 => cases read
  | case4 _ _ _ _ _ _ _ ih =>
    obtain ⟨content, -, read⟩ := bind_eq_ok_iff.mp read
    exact ih content read

/-- A record is read from a complete container only. -/
theorem read_closed {doc : Document} {draft : layout.Draft} (read : layout.read doc = .ok draft) :
    doc.Closed := by
  cases doc with
  | object members cut? =>
    obtain rfl := readMembers_uncut read
    exact .object members
  | list items cut? =>
    obtain rfl := readElements_uncut read
    exact .list items
  | _ => cases read

end Layout
end LatchSim.Json
