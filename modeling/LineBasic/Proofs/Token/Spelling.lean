import LineBasic.Proofs.Token.Piece

/-!
# Texts that spell a list of tokens

The tokens of a text are well-shaped, and every list of well-shaped tokens is the list of the tokens
of a text: the texts of the tokens, with strings in their quotes again, and a blank between each two
of them.  The blank keeps apart what would be one token without it.  So to spell the tokens of a
text is to forget its comments, its blanks and the characters that mean nothing.
-/

namespace LineBasic.Token

/-- What each kind of token looks like. -/
inductive IsWellShaped : Token → Prop where
  | word {text : String} (htext : IsWord text) : IsWellShaped ⟨.word, text⟩
  | number {text : String} (htext : IsDigits text) : IsWellShaped ⟨.number, text⟩
  | string {text : String} (htext : '"' ∉ text.toList) : IsWellShaped ⟨.string, text⟩
  | lineBreak : IsWellShaped ⟨.lineBreak, "\n"⟩
  | equals : IsWellShaped ⟨.equals, "="⟩
  | operator {text : String} (htext : text ∈ ["+", "-", "*", "/", "<", ">"]) :
      IsWellShaped ⟨.operator, text⟩
  | leftParen : IsWellShaped ⟨.leftParen, "("⟩
  | rightParen : IsWellShaped ⟨.rightParen, ")"⟩

/-- The text of a token as it stands in a program text. -/
def spelling (token : Token) : String :=
  match token.kind with
  | .string => "\"" ++ token.text ++ "\""
  | _ => token.text

/-- A text that has the tokens, with a blank between each two of them. -/
def spell (tokens : List Token) : String :=
  String.intercalate " " (tokens.map spelling)

/-! ## Shapes of tokens -/

theorem IsSingle.isWellShaped {kind : Kind} {c : Char} (hc : IsSingle kind c) :
    IsWellShaped ⟨kind, String.singleton c⟩ := by
  cases hc with
  | lineBreak => exact .lineBreak
  | equals => exact .equals
  | operator hc => exact .operator (List.mem_map_of_mem (f := String.singleton) hc)
  | leftParen => exact .leftParen
  | rightParen => exact .rightParen

theorem IsSpelled.isWellShaped {token : Token} (htoken : token.IsSpelled) :
    IsWellShaped token := by
  obtain ⟨kind, text⟩ := token
  cases kind with
  | word => exact .word htoken
  | number => exact .number htoken
  | string => exact .string htoken
  | lineBreak | equals | operator | leftParen | rightParen | endOfInput =>
    obtain ⟨c, hkind, rfl⟩ := htoken
    exact (ofChar?_eq_some_iff.mp hkind).isWellShaped

theorem isWellShaped_of_mem_scan {source : String} {token : Token} (hmem : token ∈ scan source) :
    IsWellShaped token :=
  (isSpelled_of_mem_scan hmem).isWellShaped

/-! ## Tokens in front of a text -/

section Front

variable {token : Token} {tokens : List Token} {rest : List Char}

/-- A well-shaped token is found again in front of what does not continue it. -/
theorem IsWellShaped.scanFrom_spelling (hshape : IsWellShaped token) (hrest : Separates rest) :
    scanFrom [] (token.spelling.toList ++ rest) = token :: scanFrom [] rest := by
  cases hshape with
  | word htext => exact scanFrom_word htext hrest
  | number htext => exact scanFrom_number htext hrest
  | @string text htext =>
    have hchars : ("\"" ++ text ++ "\"").toList ++ rest = '"' :: (text.toList ++ '"' :: rest) := by
      simp
    exact (congrArg (scanFrom []) hchars).trans (scanFrom_string htext rest)
  | operator htext =>
    simp only [List.mem_cons, List.not_mem_nil, or_false] at htext
    rcases htext with rfl | rfl | rfl | rfl | rfl | rfl <;> exact scanFrom_of_ofChar? rfl rest
  | lineBreak | equals | leftParen | rightParen => exact scanFrom_of_ofChar? rfl rest

theorem spell_cons_cons (token next : Token) (tokens : List Token) :
    (spell (token :: next :: tokens)).toList =
      token.spelling.toList ++ ' ' :: (spell (next :: tokens)).toList := by
  simp [spell, String.intercalate_cons_cons]

/-- The tokens of a list are found again in the text that spells it. -/
theorem scan_spell (hshapes : ∀ token ∈ tokens, IsWellShaped token) :
    scan (spell tokens) = tokens := by
  rw [scan]
  induction tokens with
  | nil => simp [spell, scanFrom]
  | cons token tokens ih =>
    obtain ⟨hshape, hshapes⟩ := List.forall_mem_cons.mp hshapes
    cases tokens with
    | nil =>
      have hend : Separates [] := by
        intro c hc
        cases hc
      simpa [spell, scanFrom] using hshape.scanFrom_spelling hend
    | cons next tokens =>
      rw [spell_cons_cons, hshape.scanFrom_spelling (separates_blank _), scanFrom_blank, ih hshapes]

end Front

/-! ## Scanning and spelling -/

/-- The lists of tokens that some text has are the lists of well-shaped tokens.  Each is found again
in the text that spells it, so that the tokens of a text are those of their own spelling. -/
theorem range_scan_and_scan_spell :
    (∀ tokens, (∃ source, scan source = tokens) ↔ ∀ token ∈ tokens, IsWellShaped token) ∧
      (∀ tokens, (∀ token ∈ tokens, IsWellShaped token) → scan (spell tokens) = tokens) ∧
      ∀ source, scan (spell (scan source)) = scan source := by
  refine ⟨?_, fun tokens hshapes => scan_spell hshapes, ?_⟩
  · intro tokens
    constructor
    · rintro ⟨source, rfl⟩
      exact fun token hmem => isWellShaped_of_mem_scan hmem
    · intro hshapes
      exact ⟨spell tokens, scan_spell hshapes⟩
  · intro source
    exact scan_spell fun token hmem => isWellShaped_of_mem_scan hmem

/-- An empty string, a string with an apostrophe and a line break, and a number between words. -/
theorem scan_spell_words_and_number :
    let tokens : List Token := [⟨.string, ""⟩, ⟨.string, "it's\n"⟩, ⟨.word, "b"⟩, ⟨.number, "07"⟩,
      ⟨.word, "x1"⟩, ⟨.operator, "-"⟩, ⟨.lineBreak, "\n"⟩]
    scan "\"\" \"it's\n\" b 07 x1 - \n" = tokens ∧ ∀ token ∈ tokens, IsWellShaped token := by
  intro tokens
  have hshapes : ∀ token ∈ tokens, IsWellShaped token := by
    simp only [tokens, List.forall_mem_cons, List.not_mem_nil, false_implies, implies_true,
      and_true]
    have hb : "b".toList = ['b'] := by decide
    have hx1 : "x1".toList = ['x', '1'] := by decide
    have hdigits : IsDigits "07" := by simp [IsDigits]
    exact ⟨.string (by decide), .string (by decide),
      .word (isWord_of_all hb (by decide) (by decide)), .number hdigits,
      .word (isWord_of_all hx1 (by decide) (by decide)), .operator (by decide), .lineBreak⟩
  have hspell : spell tokens = "\"\" \"it's\n\" b 07 x1 - \n" := by decide
  rw [← hspell]
  exact ⟨range_scan_and_scan_spell.2.1 tokens hshapes, hshapes⟩

end LineBasic.Token
