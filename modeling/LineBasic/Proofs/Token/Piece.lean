import LineBasic.Proofs.Token.Scan
import LineBasic.Proofs.Token.Scanner

/-!
# The pieces of a program text

A program text is cut into pieces, one behind the other.  What a piece may be, and that it is as
long as it can be, is said here by its characters and by what comes next, without a way to find it.
Every text has exactly one such cut; its pieces put together are the text, and their tokens are the
tokens of the text.  So no character is lost or used twice, whichever way the text is scanned.
-/

namespace LineBasic.Token

/-- The characters that are tokens by themselves. -/
inductive IsSingle : Kind → Char → Prop where
  | lineBreak : IsSingle .lineBreak '\n'
  | equals : IsSingle .equals '='
  | operator {c : Char} (hc : c ∈ ['+', '-', '*', '/', '<', '>']) : IsSingle .operator c
  | leftParen : IsSingle .leftParen '('
  | rightParen : IsSingle .rightParen ')'

/-- The characters that no token or comment starts with. -/
structure IsSkipped (c : Char) : Prop where
  single : ∀ kind, ¬ IsSingle kind c
  letter : Text.isAlphabetic c = false
  digit : c.isDigit = false
  quote : c ≠ '"'
  comment : c ≠ '\''

/-- The characters of a piece, and the token that it stands for, if there is one. -/
structure Piece where
  chars : List Char
  token? : Option Token
deriving DecidableEq

/-- A string that is not closed. -/
def Piece.unclosed (chars : List Char) : Piece :=
  ⟨'"' :: chars, none⟩

/-- A piece in front of the rest of a text. -/
inductive IsPiece : Piece → List Char → Prop where
  | single {kind : Kind} {c : Char} (hc : IsSingle kind c) (rest : List Char) :
      IsPiece ⟨[c], some ⟨kind, String.singleton c⟩⟩ rest
  | word {c : Char} {chars rest : List Char} (hletter : Text.isAlphabetic c = true)
      (hrun : ∀ d ∈ chars, Text.isAlphanumeric d = true) (hrest : Stops Text.isAlphanumeric rest) :
      IsPiece ⟨c :: chars, some ⟨.word, String.ofList (c :: chars)⟩⟩ rest
  | number {c : Char} {chars rest : List Char} (hdigit : c.isDigit = true)
      (hrun : ∀ d ∈ chars, d.isDigit = true) (hrest : Stops Char.isDigit rest) :
      IsPiece ⟨c :: chars, some ⟨.number, String.ofList (c :: chars)⟩⟩ rest
  | string {chars : List Char} (hchars : '"' ∉ chars) (rest : List Char) :
      IsPiece ⟨'"' :: (chars ++ ['"']), some ⟨.string, String.ofList chars⟩⟩ rest
  | unclosed {chars : List Char} (hchars : '"' ∉ chars) : IsPiece (.unclosed chars) []
  | comment {chars rest : List Char} (hchars : '\n' ∉ chars) (hrest : Stops (· ≠ '\n') rest) :
      IsPiece ⟨'\'' :: chars, none⟩ rest
  | skipped {c : Char} (hc : IsSkipped c) (rest : List Char) : IsPiece ⟨[c], none⟩ rest

/-- The pieces, one behind the other, are a whole text. -/
inductive Cuts : List Piece → List Char → Prop where
  | nil : Cuts [] []
  | cons {piece : Piece} {pieces : List Piece} {rest : List Char} (hpiece : IsPiece piece rest)
      (hpieces : Cuts pieces rest) : Cuts (piece :: pieces) (piece.chars ++ rest)

/-- A text ends inside a string that is not closed. -/
def EndsUnclosed (source : String) : Prop :=
  ∃ pieces chars, Cuts (pieces ++ [.unclosed chars]) source.toList

/-! ## Pieces and cutting off -/

theorem ofChar?_eq_some_iff {kind : Kind} {c : Char} :
    Kind.ofChar? c = some kind ↔ IsSingle kind c := by
  constructor
  · intro hkind
    unfold Kind.ofChar? at hkind
    split at hkind <;> cases hkind
    case h_1 => exact .lineBreak
    case h_2 => exact .equals
    case h_9 => exact .leftParen
    case h_10 => exact .rightParen
    all_goals exact .operator (by decide)
  · intro hc
    cases hc with
    | operator hc =>
      simp only [List.mem_cons, List.not_mem_nil, or_false] at hc
      obtain rfl | rfl | rfl | rfl | rfl | rfl := hc <;> rfl
    | lineBreak | equals | leftParen | rightParen => rfl

theorem ofChar?_eq_none_iff {c : Char} : Kind.ofChar? c = none ↔ ∀ kind, ¬ IsSingle kind c := by
  simp only [Option.eq_none_iff_forall_ne_some, ne_eq, ofChar?_eq_some_iff]

/-- A piece is what is cut off from the text that it starts. -/
theorem IsPiece.exists_cut {piece : Piece} {rest : List Char} (hpiece : IsPiece piece rest) :
    ∃ c chars, piece.chars ++ rest = c :: chars ∧ cut c chars = (piece.token?, rest) := by
  cases hpiece with
  | single hc =>
    refine ⟨_, _, rfl, ?_⟩
    simp only [cut, ofChar?_eq_some_iff.mpr hc]
    rfl
  | word hletter hrun hrest => exact ⟨_, _, rfl, cut_word hletter hrun hrest⟩
  | number hdigit hrun hrest => exact ⟨_, _, rfl, cut_number hdigit hrun hrest⟩
  | string hchars => exact ⟨_, _, by simp, cut_string hchars rest⟩
  | unclosed hchars => exact ⟨_, _, rfl, by simpa [Piece.unclosed] using cut_unclosed hchars⟩
  | comment hchars hrest => exact ⟨_, _, rfl, cut_comment hchars hrest⟩
  | skipped hc =>
    refine ⟨_, _, rfl, ?_⟩
    simp [cut, ofChar?_eq_none_iff.mpr hc.single, hc.letter, hc.digit, hc.quote, hc.comment]

theorem stops_dropWhile (p : Char → Bool) (chars : List Char) : Stops p (chars.dropWhile p) := by
  intro c hc
  have hne := List.head?_dropWhile_not p chars
  rw [Option.mem_def.mp hc] at hne
  simpa using hne

/-- What is cut off is a piece. -/
theorem exists_isPiece_cut (c : Char) (chars : List Char) :
    ∃ piece, IsPiece piece (cut c chars).2 ∧ piece.chars ++ (cut c chars).2 = c :: chars := by
  rw [cut]
  cases hkind : Kind.ofChar? c with
  | some kind => exact ⟨_, .single (ofChar?_eq_some_iff.mp hkind) chars, rfl⟩
  | none =>
    by_cases hletter : Text.isAlphabetic c = true
    · simp only [if_pos hletter]
      have hrun : ∀ d ∈ chars.takeWhile Text.isAlphanumeric, Text.isAlphanumeric d = true :=
        fun _ => List.mem_takeWhile_imp
      exact ⟨_, .word hletter hrun (stops_dropWhile _ chars), by simp⟩
    by_cases hdigit : c.isDigit = true
    · simp only [if_neg hletter, if_pos hdigit]
      have hrun : ∀ d ∈ chars.takeWhile Char.isDigit, d.isDigit = true :=
        fun _ => List.mem_takeWhile_imp
      exact ⟨_, .number hdigit hrun (stops_dropWhile _ chars), by simp⟩
    simp only [if_neg hletter, if_neg hdigit]
    by_cases hquote : c = '"'
    · subst hquote
      have happend := List.takeWhile_append_dropWhile (p := (· ≠ '"')) (l := chars)
      have hstops := stops_dropWhile (· ≠ '"') chars
      have hchars := not_mem_takeWhile '"' chars
      cases hdrop : chars.dropWhile (· ≠ '"') with
      | nil =>
        rw [hdrop, List.append_nil] at happend
        rw [happend] at hchars
        exact ⟨_, .unclosed hchars, by simp [Piece.unclosed]⟩
      | cons quote rest =>
        rw [hdrop] at hstops happend
        obtain rfl : quote = '"' := by simpa [Stops] using hstops
        refine ⟨_, .string hchars rest, ?_⟩
        simpa using happend
    simp only [if_neg hquote]
    by_cases hcomment : c = '\''
    · subst hcomment
      exact ⟨_, .comment (not_mem_takeWhile '\n' chars) (stops_dropWhile _ chars), by simp⟩
    · simp only [if_neg hcomment]
      have hskipped : IsSkipped c := ⟨ofChar?_eq_none_iff.mp hkind, by simpa using hletter,
        by simpa using hdigit, hquote, hcomment⟩
      exact ⟨_, .skipped hskipped chars, rfl⟩

/-- A text starts with one piece alone. -/
theorem IsPiece.unique {piece other : Piece} {rest otherRest : List Char}
    (hpiece : IsPiece piece rest) (hother : IsPiece other otherRest)
    (hchars : piece.chars ++ rest = other.chars ++ otherRest) :
    piece = other ∧ rest = otherRest := by
  obtain ⟨c, chars, heq, hcut⟩ := hpiece.exists_cut
  obtain ⟨d, others, heq', hcut'⟩ := hother.exists_cut
  obtain ⟨rfl, rfl⟩ : c = d ∧ chars = others := by simpa [hchars, heq'] using heq.symm
  rw [hcut, Prod.mk.injEq] at hcut'
  obtain ⟨htoken, rfl⟩ := hcut'
  obtain ⟨pieceChars, token⟩ := piece
  obtain ⟨otherChars, otherToken⟩ := other
  obtain rfl : pieceChars = otherChars := List.append_cancel_right hchars
  obtain rfl : token = otherToken := htoken
  exact ⟨rfl, rfl⟩

/-! ## Cuts -/

theorem Cuts.flatMap_chars {pieces : List Piece} {chars : List Char} (hcuts : Cuts pieces chars) :
    pieces.flatMap Piece.chars = chars := by
  induction hcuts with
  | nil => rfl
  | cons hpiece hpieces ih => rw [List.flatMap_cons, ih]

/-- The tokens of the pieces are the tokens of the text. -/
theorem Cuts.scanFrom {pieces : List Piece} {chars : List Char} (hcuts : Cuts pieces chars) :
    Token.scanFrom [] chars = pieces.filterMap Piece.token? := by
  induction hcuts with
  | nil => simp [Token.scanFrom]
  | @cons piece pieces rest hpiece hpieces ih =>
    obtain ⟨c, chars, hchars, hcut⟩ := hpiece.exists_cut
    rw [hchars, scanFrom_cons, hcut, ih, List.filterMap_cons]
    cases piece.token? <;> rfl

theorem exists_cuts (chars : List Char) : ∃ pieces, Cuts pieces chars := by
  induction chars using cut_induction with
  | nil => exact ⟨[], .nil⟩
  | cons c chars ih =>
    obtain ⟨piece, hpiece, hchars⟩ := exists_isPiece_cut c chars
    obtain ⟨pieces, hpieces⟩ := ih
    rw [← hchars]
    exact ⟨piece :: pieces, .cons hpiece hpieces⟩

theorem Cuts.eq_nil {pieces : List Piece} (hcuts : Cuts pieces []) : pieces = [] := by
  generalize hchars : ([] : List Char) = chars at hcuts
  cases hcuts with
  | nil => rfl
  | cons hpiece hpieces =>
    obtain ⟨c, rest, heq, -⟩ := hpiece.exists_cut
    simp [heq] at hchars

theorem Cuts.unique {pieces others : List Piece} {chars : List Char} (hcuts : Cuts pieces chars)
    (hothers : Cuts others chars) : others = pieces := by
  induction hcuts generalizing others with
  | nil => exact hothers.eq_nil
  | @cons piece pieces rest hpiece hpieces ih =>
    generalize hchars : piece.chars ++ rest = chars at hothers
    cases hothers with
    | nil =>
      obtain ⟨c, chars, heq, -⟩ := hpiece.exists_cut
      simp [heq] at hchars
    | @cons other others otherRest hother hothers =>
      obtain ⟨rfl, rfl⟩ := hpiece.unique hother hchars
      rw [ih hothers]

/-! ## A line break behind a text -/

section LineBreak

variable {piece : Piece} {pieces front : List Piece} {chars kept rest : List Char}

theorem Stops.append_lineBreak {p : Char → Bool} (hrest : Stops p rest) (hbreak : p '\n' = false) :
    Stops p (rest ++ ['\n']) := by
  cases rest with
  | nil =>
    rintro c ⟨⟩
    exact hbreak
  | cons c rest => exact hrest

/-- A piece does not go on with a line break, unless it is a string that is not closed. -/
theorem IsPiece.append_lineBreak (hpiece : IsPiece piece rest)
    (hclosed : rest = [] → ∀ kept, piece ≠ .unclosed kept) : IsPiece piece (rest ++ ['\n']) := by
  cases hpiece with
  | single hc => exact .single hc _
  | word hletter hrun hrest => exact .word hletter hrun (hrest.append_lineBreak (by decide))
  | number hdigit hrun hrest => exact .number hdigit hrun (hrest.append_lineBreak (by decide))
  | string hchars => exact .string hchars _
  | unclosed hchars => exact absurd rfl (hclosed rfl _)
  | comment hchars hrest => exact .comment hchars (hrest.append_lineBreak (by decide))
  | skipped hc => exact .skipped hc _

theorem IsPiece.of_unclosed (hpiece : IsPiece (.unclosed kept) rest) :
    '"' ∉ kept ∧ rest = [] := by
  generalize hkept : Piece.unclosed kept = piece at hpiece
  cases hpiece with
  | unclosed hchars =>
    cases hkept
    exact ⟨hchars, rfl⟩
  | skipped hc =>
    cases hkept
    exact absurd rfl hc.quote
  | single | word | number | string | comment => cases hkept

theorem Cuts.append_lineBreak (hcuts : Cuts pieces chars)
    (hclosed : ∀ front kept, pieces ≠ front ++ [.unclosed kept]) :
    Cuts (pieces ++ [⟨['\n'], some ⟨.lineBreak, "\n"⟩⟩]) (chars ++ ['\n']) := by
  induction hcuts with
  | nil => exact .cons (.single .lineBreak []) .nil
  | @cons piece pieces rest hpiece hpieces ih =>
    have hpiece' : IsPiece piece (rest ++ ['\n']) := by
      refine hpiece.append_lineBreak ?_
      rintro rfl kept rfl
      obtain rfl := hpieces.eq_nil
      exact hclosed [] kept rfl
    have hpieces' := ih fun front kept heq => hclosed (piece :: front) kept (by rw [heq]; rfl)
    rw [List.append_assoc]
    exact .cons hpiece' hpieces'

/-- A string that is not closed goes on with a line break. -/
theorem Cuts.append_lineBreak_unclosed (hcuts : Cuts (front ++ [.unclosed kept]) chars) :
    Cuts (front ++ [.unclosed (kept ++ ['\n'])]) (chars ++ ['\n']) := by
  induction front generalizing chars with
  | nil =>
    obtain - | ⟨hpiece, hpieces⟩ := hcuts
    obtain ⟨hkept, rfl⟩ := hpiece.of_unclosed
    have hpiece' : IsPiece (.unclosed (kept ++ ['\n'])) [] := .unclosed (by simp [hkept])
    simpa [Piece.unclosed] using Cuts.cons hpiece' .nil
  | cons piece front ih =>
    obtain - | ⟨hpiece, hpieces⟩ := hcuts
    rw [List.append_assoc]
    refine .cons (hpiece.append_lineBreak ?_) (ih hpieces)
    rintro rfl
    exact absurd hpieces.eq_nil (by simp)

/-- A line break behind a text is one more token, unless it belongs to a string that is not
closed. -/
theorem scan_append_lineBreak (source : String) :
    (EndsUnclosed source → scan (source ++ "\n") = scan source) ∧
      (¬ EndsUnclosed source → scan (source ++ "\n") = scan source ++ [⟨.lineBreak, "\n"⟩]) := by
  have hchars : (source ++ "\n").toList = source.toList ++ ['\n'] := String.toList_append
  refine ⟨?_, fun hclosed => ?_⟩
  · rintro ⟨front, kept, hcuts⟩
    rw [scan, scan, hchars, hcuts.scanFrom, hcuts.append_lineBreak_unclosed.scanFrom]
    simp [Piece.unclosed]
  · obtain ⟨pieces, hcuts⟩ := exists_cuts source.toList
    have happend := hcuts.append_lineBreak fun front kept heq =>
      hclosed ⟨front, kept, by rwa [heq] at hcuts⟩
    rw [scan, scan, hchars, hcuts.scanFrom, happend.scanFrom]
    simp

end LineBreak

/-! ## One cut -/

/-- A text is cut into pieces in one way.  The pieces make up the text, their tokens are the tokens
of the text, and one character at a time finds the same tokens. -/
theorem cuts_determine_scan (source : String) :
    (∃! pieces, Cuts pieces source.toList) ∧
      (∀ pieces, Cuts pieces source.toList →
        pieces.flatMap Piece.chars = source.toList ∧
          scan source = pieces.filterMap Piece.token?) ∧
      scan source = (source.toList.foldl Scanner.meet {}).finish := by
  refine ⟨?_, fun pieces hcuts => ⟨hcuts.flatMap_chars, hcuts.scanFrom⟩,
    (finish_foldl_meet source).symm⟩
  obtain ⟨pieces, hcuts⟩ := exists_cuts source.toList
  exact ⟨pieces, hcuts, fun others hothers => hcuts.unique hothers⟩

/-- A quote behind a word, an apostrophe inside a string, a word behind a number, and a quote inside
a comment at the end of the text. -/
theorem cuts_determine_scan_mixed :
    let source := "x1\"it's\"07b'\""
    let pieces : List Piece := [⟨['x', '1'], some ⟨.word, "x1"⟩⟩,
      ⟨['"', 'i', 't', '\'', 's', '"'], some ⟨.string, "it's"⟩⟩,
      ⟨['0', '7'], some ⟨.number, "07"⟩⟩, ⟨['b'], some ⟨.word, "b"⟩⟩, ⟨['\'', '"'], none⟩]
    Cuts pieces source.toList ∧ scan source = pieces.filterMap Piece.token? := by
  intro source pieces
  have hcomment : Cuts (pieces.drop 4) ['\'', '"'] :=
    .cons (@IsPiece.comment ['"'] [] (by decide) (by simp [Stops])) .nil
  have hword : Cuts (pieces.drop 3) ['b', '\'', '"'] :=
    .cons (@IsPiece.word 'b' [] _ (by decide) (by simp) (separates_cons (by decide) _)) hcomment
  have hnumber : Cuts (pieces.drop 2) ['0', '7', 'b', '\'', '"'] :=
    .cons (@IsPiece.number '0' ['7'] _ (by decide) (by simp) (by simp [Stops])) hword
  have hstring : Cuts (pieces.drop 1) ['"', 'i', 't', '\'', 's', '"', '0', '7', 'b', '\'', '"'] :=
    .cons (@IsPiece.string ['i', 't', '\'', 's'] (by decide) _) hnumber
  have hsource : source.toList =
      ['x', '1', '"', 'i', 't', '\'', 's', '"', '0', '7', 'b', '\'', '"'] := by decide
  have hcuts : Cuts pieces source.toList := by
    rw [hsource]
    exact hstring.cons (@IsPiece.word 'x' ['1'] _ (by decide) (by simp; decide)
      (separates_cons (by decide) _))
  exact ⟨hcuts, ((cuts_determine_scan source).2.1 pieces hcuts).2⟩

end LineBasic.Token
