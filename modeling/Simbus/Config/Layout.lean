import Simbus.Config.Lexemes

/-!
# Layouts of tokens

Tokens are written one after the other with gaps of white space and comments
between them.  The lexer reads the same tokens again exactly if no quote follows
a string on its line.
-/

namespace Simbus.Config

open LongestMatch

variable {char : Char}
variable {text rest : Text}
variable {token : Token}
variable {tokens : List Token}

/-! ## How tokens are written -/

/-- The text of a token, numbers in decimals. -/
def Token.spelling : Token → Text
  | .keyword word => word.spelling
  | .integer value => Nat.toDigits 10 value.toNat
  | .string text => '"' :: (text ++ ['"'])
  | .identifier text => text
  | .char mark => [mark]

/-- Tokens of the grammar, with strings free of quotes and newlines. -/
def Token.Writable : Token → Prop
  | .keyword _ | .integer _ => True
  | .string text => '\n' ∉ text ∧ '"' ∉ text
  | .identifier text => IsName text ∧ ∀ keyword : Keyword, keyword.spelling ≠ text
  | .char mark => mark ∈ punctuation

/-- The tokens that letters and digits behind them would continue. -/
def Token.IsWord : Token → Prop
  | .keyword _ | .integer _ | .identifier _ => True
  | .string _ | .char _ => False

instance : DecidablePred Token.IsWord
  | .keyword _ | .integer _ | .identifier _ => .isTrue trivial
  | .string _ | .char _ => .isFalse id

/-- White space and comments between two tokens. -/
inductive Gap : Text → Prop where
  | none : Gap []
  | space
      (char : Char)
      (rest : Text)
      (isSpace : isSpace char = true)
      (gap : Gap rest) :
      Gap (char :: rest)
  | comment
      (body rest : Text)
      (inside : '\n' ∉ body)
      (gap : Gap rest) :
      Gap ('#' :: (body ++ '\n' :: rest))

/-- The end of a file, which a comment without a newline may be. -/
inductive LastGap : Text → Prop where
  | closed (gap : Text) (isGap : Gap gap) : LastGap gap
  | comment
      (gap body : Text)
      (isGap : Gap gap)
      (inside : '\n' ∉ body) :
      LastGap (gap ++ '#' :: body)

/-- Tokens, each with the gap behind it. -/
abbrev Pieces := List (Token × Text)

/-- The text of the tokens with their gaps. -/
def written (pieces : Pieces) : Text :=
  pieces.flatMap fun piece => piece.1.spelling ++ piece.2

/-- The gaps are gaps, and there is one where two words would run together. -/
def Spaced : Pieces → Prop
  | [] => True
  | [(_, gap)] => LastGap gap
  | (token, gap) :: (next, gap') :: rest =>
      Gap gap ∧ (token.IsWord → next.IsWord → gap ≠ []) ∧
        Spaced ((next, gap') :: rest)

/-- No quote follows a string on its line. -/
def StringsLast : Pieces → Prop
  | [] => True
  | (.string _, gap) :: rest => '"' ∉ line (gap ++ written rest) ∧ StringsLast rest
  | _ :: rest => StringsLast rest

/-- The strings are C strings. -/
def Token.NoNul : Token → Prop
  | .string text => '\x00' ∉ text
  | _ => True

/-! ## Reading a token -/

theorem scan_integer
    (value : BitVec 32)
    (stops : Stops Char.isDigit rest) :
    configlex (Nat.toDigits 10 value.toNat ++ rest) =
      .integer value :: configlex rest := by
  have allDigits : ∀ char ∈ Nat.toDigits 10 value.toNat,
      char.isDigit = true := fun char isIn =>
    Nat.isDigit_of_mem_toDigits (by decide) (Nat.le_refl 10) isIn
  have isNumber : strtoul (Nat.toDigits 10 value.toNat) = value.toNat :=
    strtoul_toDigits (value.isLt.trans (by decide))
  have read : action .integer (Nat.toDigits 10 value.toNat) =
      some (.integer value) := by
    rw [action, isNumber, BitVec.ofNat_toNat, BitVec.setWidth_eq]
  have taken := (integer_takes Nat.toDigits_ne_nil allDigits stops).scan
  rw [show scanner.action = action from rfl, read] at taken
  exact taken

/-- A token other than a string is read as it is written. -/
theorem scan_token
    (writable : token.Writable)
    (notString : ∀ text, token ≠ .string text)
    (ends : token.IsWord → Stops isWord rest) :
    configlex (token.spelling ++ rest) = token :: configlex rest := by
  cases token with
  | keyword keyword =>
      exact (keyword_takes keyword (ends trivial)).scan
  | integer value =>
      apply scan_integer
      intro char isHead
      exact (Bool.or_eq_false_iff.mp (ends trivial char isHead)).2
  | string text =>
      exact absurd rfl (notString text)
  | identifier text =>
      exact (identifier_takes writable.1 writable.2 (ends trivial)).scan
  | char char =>
      exact (single_takes writable).scan

/-- A string goes on to the last quote of its line. -/
theorem scan_string
    {body : Text}
    (inside : '\n' ∉ body)
    (last : '"' ∉ line rest) :
    configlex ('"' :: (body ++ ['"']) ++ rest) =
      .string (cString (body ++ ['"'])).dropLast :: configlex rest :=
  (string_takes inside last).scan

theorem cString_eq
    (noNul : '\x00' ∉ text) :
    cString text = text :=
  List.takeWhile_eq_self_iff.mpr fun _ isIn =>
    bne_iff_ne.mpr fun isNul => noNul (isNul ▸ isIn)

theorem nul_not_mem_cString
    (text : Text) :
    '\x00' ∉ cString text := by
  intro isIn
  have isOther : ('\x00' != '\x00') = true :=
    @List.mem_takeWhile_imp _ (· != '\x00') _ _ isIn
  cases isOther

/-- The rest of a line up to its last quote. -/
theorem exists_last_quote
    (isIn : '"' ∈ line rest) :
    ∃ before after, rest = before ++ '"' :: after ∧ '\n' ∉ before ∧
      '"' ∉ line after := by
  obtain ⟨after, before, reversed, noQuote⟩ :=
    List.eq_append_cons_of_mem (List.mem_reverse.mpr isIn)
  have isLine : line rest = before.reverse ++ '"' :: after.reverse := by
    rw [← List.reverse_reverse (line rest), reversed]
    simp
  have inLine : ∀ char ∈ line rest, (char != '\n') = true :=
    fun char isIn => @List.mem_takeWhile_imp _ (· != '\n') _ _ isIn
  rw [isLine] at inLine
  refine ⟨before.reverse, after.reverse ++ rest.dropWhile (· != '\n'), ?_, ?_,
    ?_⟩
  · have parts : line rest ++ rest.dropWhile (· != '\n') = rest :=
      List.takeWhile_append_dropWhile
    rw [isLine, List.append_assoc, List.cons_append] at parts
    exact parts.symm
  · intro isEnd
    exact bne_iff_ne.mp (inLine _ (List.mem_append_left _ isEnd)) rfl
  · rw [line, List.takeWhile_append_of_pos]
    · rw [List.takeWhile_eq_nil_iff.mpr]
      · simpa using noQuote
      · intro some_
        have isEnd := List.head_dropWhile_not (· != '\n')
          (List.length_pos_iff.mp some_)
        rw [List.get_eq_getElem, ← List.head_eq_getElem, isEnd]
        · exact Bool.false_ne_true
        · exact List.length_pos_iff.mp some_
    · intro char isIn
      exact inLine char
        (List.mem_append_right _ (List.mem_cons_of_mem _ isIn))

/--
A string is read as it is written exactly if it is a C string and no quote
follows it on its line.
-/
theorem scan_string_iff
    (plain : '\n' ∉ text ∧ '"' ∉ text)
    (notNul : rest.head? ≠ some '\x00') :
    configlex ('"' :: (text ++ ['"']) ++ rest) = .string text :: tokens ↔
      '\x00' ∉ text ∧ '"' ∉ line rest ∧ configlex rest = tokens := by
  by_cases isLast : '"' ∈ line rest
  · constructor
    · intro same
      exfalso
      obtain ⟨before, after, rfl, inside, last⟩ := exists_last_quote isLast
      have whole : '"' :: (text ++ ['"']) ++ (before ++ '"' :: after) =
          '"' :: ((text ++ '"' :: before) ++ ['"']) ++ after := by
        simp
      have isIn : '\n' ∉ text ++ '"' :: before := by
        simp [plain.1, inside]
      rw [whole, scan_string isIn last, List.cons.injEq, Token.string.injEq]
        at same
      have read := same.1
      have noNul : '\x00' ∉ text := by
        rw [← read]
        exact fun isNul =>
          nul_not_mem_cString _ (List.dropLast_subset _ isNul)
      -- The quote behind the text is part of what is read.
      have isMore : cString (before ++ ['"']) ≠ [] := by
        intro none_
        rw [cString, List.takeWhile_eq_nil_iff] at none_
        cases before with
        | nil =>
            exact none_ (by simp) rfl
        | cons char before =>
            refine none_ (by simp) ?_
            rw [List.get_eq_getElem]
            exact bne_iff_ne.mpr fun isNul => notNul (congrArg some isNul)
      have through : cString (text ++ '"' :: before ++ ['"']) =
          text ++ '"' :: cString (before ++ ['"']) := by
        rw [cString, List.append_assoc, List.takeWhile_append_of_pos]
        · rfl
        · exact fun char isIn => bne_iff_ne.mpr fun isNul => noNul (isNul ▸ isIn)
      rw [through, List.dropLast_append_of_ne_nil (List.cons_ne_nil _ _),
        List.dropLast_cons_of_ne_nil isMore] at read
      exact List.cons_ne_nil _ _ (List.append_right_eq_self.mp read)
    · rintro ⟨_, last, _⟩
      exact absurd isLast last
  · rw [scan_string plain.1 isLast, List.cons.injEq, Token.string.injEq]
    have isText : (cString (text ++ ['"'])).dropLast = text ↔
        '\x00' ∉ text := by
      constructor
      · intro read isNul
        rw [← read] at isNul
        exact nul_not_mem_cString _ (List.dropLast_subset _ isNul)
      · intro noNul
        rw [cString_eq (by simp [noNul]), List.dropLast_concat]
    rw [isText]
    constructor
    · exact fun read => ⟨read.1, isLast, read.2⟩
    · exact fun read => ⟨read.1, read.2.2⟩

/-! ## Reading gaps -/

theorem scan_comment
    {body : Text}
    (inside : '\n' ∉ body)
    (stops : Stops (· != '\n') rest) :
    configlex ('#' :: body ++ rest) = configlex rest :=
  (comment_takes inside stops).scan

theorem scan_space
    (isSpace : isSpace char = true) :
    configlex (char :: rest) = configlex rest :=
  (space_takes isSpace).scan

theorem Gap.scan
    {gap : Text}
    (isGap : Gap gap)
    (rest : Text) :
    configlex (gap ++ rest) = configlex rest := by
  induction isGap with
  | none =>
      rfl
  | space char gap isSpace _ inductionHypothesis =>
      exact (scan_space isSpace).trans inductionHypothesis
  | comment body gap inside _ inductionHypothesis =>
      rw [List.cons_append, List.append_assoc, ← List.cons_append,
        scan_comment inside, List.cons_append, scan_space rfl]
      · exact inductionHypothesis
      · rintro char ⟨⟩
        rfl

theorem LastGap.scan
    {gap : Text}
    (isGap : LastGap gap) :
    configlex gap = [] := by
  cases isGap with
  | closed gap isGap =>
      have read := isGap.scan []
      rw [List.append_nil] at read
      exact read
  | comment gap body isGap inside =>
      rw [isGap.scan, ← List.append_nil ('#' :: body), scan_comment inside]
      · rfl
      · rintro char ⟨⟩

theorem isSpace_not_word
    (space : isSpace char = true) :
    isWord char = false ∧ char ≠ '\x00' := by
  rw [isSpace, Bool.or_eq_true, Bool.or_eq_true, Bool.or_eq_true, beq_iff_eq,
    beq_iff_eq, beq_iff_eq, beq_iff_eq] at space
  rcases space with ((rfl | rfl) | rfl) | rfl <;> decide

/-- A gap begins with white space or with a comment. -/
theorem Gap.head
    {gap : Text}
    (isGap : Gap gap) :
    ∀ char ∈ gap.head?, isWord char = false ∧ char ≠ '\x00' := by
  intro char isHead
  cases isGap with
  | none =>
      cases isHead
  | space first rest isSpace _ =>
      cases isHead
      exact isSpace_not_word isSpace
  | comment body rest _ _ =>
      cases isHead
      decide

theorem LastGap.head
    {gap : Text}
    (isGap : LastGap gap) :
    ∀ char ∈ gap.head?, isWord char = false ∧ char ≠ '\x00' := by
  cases isGap with
  | closed gap isGap =>
      exact isGap.head
  | comment gap body isGap inside =>
      cases gap with
      | nil =>
          rintro char ⟨⟩
          decide
      | cons first gap =>
          rintro char ⟨⟩
          exact isGap.head first rfl

theorem isWord_ne_nul
    (word : isWord char = true) :
    char ≠ '\x00' := by
  rintro rfl
  revert word
  decide

/-- Where a token begins. -/
theorem Token.Writable.head
    (writable : token.Writable) :
    ∃ first others, token.spelling = first :: others ∧ first ≠ '\x00' ∧
      (¬ token.IsWord → isWord first = false) := by
  cases token with
  | keyword keyword =>
      obtain ⟨first, others, spelled, starts⟩ := spelling_starts keyword
      refine ⟨first, others, spelled, ?_, fun notWord => absurd trivial notWord⟩
      exact isWord_ne_nul (Bool.or_eq_true_iff.mpr (.inl starts))
  | integer value =>
      obtain ⟨first, others, spelled⟩ := List.exists_cons_of_ne_nil
        (@Nat.toDigits_ne_nil value.toNat 10)
      have isIn : first ∈ Nat.toDigits 10 value.toNat := by
        rw [spelled]
        exact List.mem_cons_self
      have isDigit : first.isDigit = true :=
        Nat.isDigit_of_mem_toDigits (by decide) (Nat.le_refl 10) isIn
      refine ⟨first, others, spelled, ?_, fun notWord => absurd trivial notWord⟩
      exact isWord_ne_nul (Bool.or_eq_true_iff.mpr (.inr isDigit))
  | string text =>
      exact ⟨'"', text ++ ['"'], rfl, by decide, fun _ => by decide⟩
  | identifier text =>
      obtain ⟨first, others, rfl, starts⟩ := writable.1.starts
      refine ⟨first, others, rfl, ?_, fun notWord => absurd trivial notWord⟩
      exact isWord_ne_nul (Bool.or_eq_true_iff.mpr (.inl starts))
  | char char =>
      have marks : char ≠ '\x00' ∧ isWord char = false := by
        rcases punctuation_cases writable with rfl | rfl | rfl | rfl <;> decide
      exact ⟨char, [], rfl, marks.1, fun _ => marks.2⟩

/-! ## Reading a layout -/

section

variable {gap : Text}
variable {pieces : Pieces}

theorem Gap.of_spaces
    (spaces : ∀ char ∈ gap, isSpace char = true) :
    Gap gap := by
  induction gap with
  | nil =>
      exact .none
  | cons char gap inductionHypothesis =>
      rw [List.forall_mem_cons] at spaces
      exact .space char gap spaces.1 (inductionHypothesis spaces.2)

/-- White space behind every word makes a layout. -/
theorem Spaced.of_spaces
    (spaces : ∀ piece ∈ pieces, piece.2.all isSpace = true ∧
      (piece.1.IsWord → piece.2 ≠ [])) :
    Spaced pieces := by
  induction pieces with
  | nil =>
      trivial
  | cons piece pieces inductionHypothesis =>
      rw [List.forall_mem_cons] at spaces
      have others := inductionHypothesis spaces.2
      cases pieces with
      | nil =>
          exact .closed _ (.of_spaces (List.all_eq_true.mp spaces.1.1))
      | cons next pieces =>
          exact ⟨.of_spaces (List.all_eq_true.mp spaces.1.1),
            fun isWord _ => spaces.1.2 isWord, others⟩

/-- What follows a token of a layout. -/
theorem Spaced.follows
    (spaced : Spaced ((token, gap) :: pieces))
    (writable : ∀ piece ∈ pieces, piece.1.Writable) :
    (gap ++ written pieces).head? ≠ some '\x00' ∧
      (token.IsWord → Stops isWord (gap ++ written pieces)) := by
  cases pieces with
  | nil =>
      have isGap : LastGap gap := spaced
      rw [show gap ++ written [] = gap from List.append_nil gap]
      exact ⟨fun isHead => (isGap.head _ isHead).2 rfl,
        fun _ char isHead => (isGap.head char isHead).1⟩
  | cons piece pieces =>
      obtain ⟨next, gap'⟩ := piece
      obtain ⟨isGap, apart, _⟩ := spaced
      cases gap with
      | nil =>
          obtain ⟨first, others, spelled, notNul, notWord⟩ :=
            (writable _ List.mem_cons_self).head
          have isHead : ([] ++ written ((next, gap') :: pieces)).head? =
              some first := by
            rw [List.nil_append, written, List.flatMap_cons, spelled]
            rfl
          rw [Stops, isHead]
          refine ⟨fun isNul => notNul (Option.some.inj isNul), ?_⟩
          rintro isWord char ⟨⟩
          exact notWord fun nextWord => apart isWord nextWord rfl
      | cons first gap =>
          have head := isGap.head first rfl
          refine ⟨fun isNul => head.2 (Option.some.inj isNul), ?_⟩
          rintro _ char ⟨⟩
          exact head.1

theorem Spaced.scan_gap
    (spaced : Spaced ((token, gap) :: pieces)) :
    configlex (gap ++ written pieces) = configlex (written pieces) := by
  cases pieces with
  | nil =>
      have isGap : LastGap gap := spaced
      rw [show gap ++ written [] = gap from List.append_nil gap, isGap.scan]
      rfl
  | cons piece pieces =>
      exact spaced.1.scan _

theorem Spaced.tail
    (spaced : Spaced ((token, gap) :: pieces)) :
    Spaced pieces := by
  cases pieces with
  | nil =>
      trivial
  | cons piece pieces =>
      exact spaced.2.2

theorem written_cons
    (token : Token)
    (gap : Text)
    (pieces : Pieces) :
    written ((token, gap) :: pieces) =
      token.spelling ++ (gap ++ written pieces) := by
  rw [written, List.flatMap_cons, List.append_assoc]
  rfl

/-- The tokens of a layout are read again exactly if no quote follows a string. -/
theorem scan_written_iff
    (spaced : Spaced pieces)
    (writable : ∀ piece ∈ pieces, piece.1.Writable) :
    configlex (written pieces) = pieces.map Prod.fst ↔
      StringsLast pieces ∧ ∀ piece ∈ pieces, piece.1.NoNul := by
  induction pieces with
  | nil =>
      exact ⟨fun _ => ⟨trivial, fun _ isIn => absurd isIn List.not_mem_nil⟩,
        fun _ => rfl⟩
  | cons piece pieces inductionHypothesis =>
      obtain ⟨token, gap⟩ := piece
      have others : ∀ piece ∈ pieces, piece.1.Writable :=
        fun piece isIn => writable piece (List.mem_cons_of_mem _ isIn)
      have isToken : token.Writable := writable _ List.mem_cons_self
      have readRest := inductionHypothesis spaced.tail others
      obtain ⟨notNul, ends⟩ := spaced.follows others
      rw [written_cons, List.map_cons, List.forall_mem_cons]
      by_cases isString : ∃ text, token = .string text
      · obtain ⟨text, rfl⟩ := isString
        rw [Token.spelling, scan_string_iff isToken notNul, spaced.scan_gap,
          readRest]
        exact ⟨fun read => ⟨⟨read.2.1, read.2.2.1⟩, read.1, read.2.2.2⟩,
          fun read => ⟨read.2.1, read.1.1, read.1.2, read.2.2⟩⟩
      · have notString : ∀ text, token ≠ .string text :=
          fun text same => isString ⟨text, same⟩
        have isRest : StringsLast ((token, gap) :: pieces) ↔
            StringsLast pieces := by
          cases token with
          | string text => exact absurd rfl (notString text)
          | _ => exact Iff.rfl
        have noNul : token.NoNul := by
          cases token with
          | string text => exact absurd rfl (notString text)
          | _ => trivial
        rw [scan_token isToken notString ends, spaced.scan_gap, List.cons.injEq,
          readRest, isRest]
        exact ⟨fun read => ⟨read.2.1, noNul, read.2.2⟩,
          fun read => ⟨rfl, read.1, read.2.2⟩⟩

end

/-- A text of some tokens: a gap at the front and one behind each token. -/
structure Layout (tokens : List Token) where
  leading : Text
  pieces : Pieces
  tokens_eq : pieces.map Prod.fst = tokens
  isLeading : if pieces = [] then LastGap leading else Gap leading
  spaced : Spaced pieces

/-- The text of a layout. -/
def Layout.contents
    (layout : Layout tokens) : Text :=
  layout.leading ++ written layout.pieces

/--
The lexer reads the tokens of a layout exactly if the strings are C strings and
no quote follows any of them on its line.
-/
theorem Layout.tokens_read_iff
    (layout : Layout tokens)
    (writable : ∀ token ∈ tokens, token.Writable) :
    configlex layout.contents = tokens ↔
      StringsLast layout.pieces ∧ ∀ token ∈ tokens, token.NoNul := by
  obtain ⟨leading, pieces, rfl, isLeading, spaced⟩ := layout
  have readRest : configlex (leading ++ written pieces) =
      configlex (written pieces) := by
    split at isLeading
    · rename_i none_
      rw [none_, show leading ++ written [] = leading from List.append_nil _,
        isLeading.scan]
      rfl
    · exact isLeading.scan _
  rw [List.forall_mem_map] at writable
  rw [List.forall_mem_map, Layout.contents, readRest]
  exact scan_written_iff spaced writable

end Simbus.Config
