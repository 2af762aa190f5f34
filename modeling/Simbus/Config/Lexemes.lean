import Mathlib
import Simbus.Config.Lexer

/-!
# The lexemes of the rules

What each rule of the lexer takes off a text.
-/

namespace Simbus.Config

open LongestMatch

variable {rule : Rule}
variable {char first : Char}
variable {text lexeme others rest : Text}

/-! ## What a rule can take -/

/-- The first characters of the lexemes of a rule. -/
def Rule.Opens : Rule → Char → Prop
  | .comment, char => char = '#'
  | .keyword _, char => isWordStart char = true
  | .space, char => isSpace char = true
  | .integer, char => char.isDigit = true
  | .identifier, char => isWordStart char = true
  | .string, char => char = '"'
  | .single, char => (char != '\n') = true

instance : ∀ rule : Rule, DecidablePred rule.Opens
  | .comment | .keyword _ | .space | .integer | .identifier | .string | .single =>
      fun _ => inferInstanceAs (Decidable (_ = _))

theorem spelling_word
    (keyword : Keyword) :
    ∀ char ∈ keyword.spelling, isWord char = true := by
  have all : keyword.spelling.all isWord = true := by
    cases keyword <;> decide
  exact List.all_eq_true.mp all

theorem spelling_starts
    (keyword : Keyword) :
    ∃ first others, keyword.spelling = first :: others ∧
      isWordStart first = true := by
  cases keyword <;> exact ⟨_, _, rfl, rfl⟩

theorem spelling_injective
    {keyword other : Keyword}
    (same : keyword.spelling = other.spelling) :
    keyword = other := by
  revert same
  cases keyword <;> cases other <;> decide

/-- A keyword matches no more than the word that it begins. -/
theorem keyword_le_identifier
    (keyword : Keyword)
    (text : Text) :
    matchLength (.keyword keyword) text ≤ matchLength .identifier text := by
  rw [matchLength]
  split
  · rename_i isStart
    obtain ⟨rest, rfl⟩ := List.isPrefixOf_iff_prefix.mp isStart
    obtain ⟨first, others, spelled, starts⟩ := spelling_starts keyword
    have isFirst : (keyword.spelling ++ rest).head?.any isWordStart = true := by
      rw [spelled]
      exact starts
    rw [matchLength, if_pos isFirst,
      List.takeWhile_append_of_pos (spelling_word keyword), List.length_append]
    exact Nat.le_add_right _ _
  · exact Nat.zero_le _

theorem matchLength_of_not_opens
    (rest : Text)
    (closed : ¬ rule.Opens char) :
    matchLength rule (char :: rest) = 0 := by
  have word : ¬ isWordStart char = true →
      matchLength .identifier (char :: rest) = 0 := fun notStart => if_neg notStart
  cases rule with
  | comment =>
      exact if_neg fun isMark => closed (Option.some.inj isMark)
  | keyword keyword =>
      have most := keyword_le_identifier keyword (char :: rest)
      rw [word closed] at most
      exact Nat.le_zero.mp most
  | space =>
      exact if_neg closed
  | integer =>
      rw [matchLength, List.takeWhile_cons_of_neg closed]
      rfl
  | identifier =>
      exact word closed
  | string =>
      exact if_neg fun isQuote => closed (Option.some.inj isQuote)
  | single =>
      exact if_neg closed

theorem single_le_one
    (text : Text) :
    matchLength .single text ≤ 1 := by
  rw [matchLength]
  split
  · exact Nat.le_refl 1
  · exact Nat.zero_le 1

theorem known
    (rule : Rule) :
    rule ∈ scanner.rules := by
  cases rule with
  | keyword keyword =>
      cases keyword <;> decide
  | _ =>
      decide

theorem idxOf_le_single :
    ∀ rule ∈ scanner.rules,
      scanner.rules.idxOf rule ≤ scanner.rules.idxOf .single := by
  decide

/-- A rule takes its lexeme if the first character fits no other pattern. -/
theorem takes_alone
    (alone : ∀ other ∈ scanner.rules, other.Opens first →
      other = rule ∨ other = .single)
    (length : matchLength rule (first :: others ++ rest) =
      (first :: others).length) :
    scanner.Takes rule (first :: others) rest := by
  have reaches : ∀ other : Rule,
      matchLength other (first :: others ++ rest) = 0 ∨ other = rule ∨
        other = .single := by
    intro other
    by_cases opens : other.Opens first
    · exact .inr (alone other (known other) opens)
    · exact .inl (matchLength_of_not_opens _ opens)
  refine ⟨known rule, List.cons_ne_nil _ _, length, ?_, ?_⟩
  · intro other _
    rcases reaches other with none_ | rfl | rfl
    · exact none_.trans_le (Nat.zero_le _)
    · exact length.le
    · exact (single_le_one _).trans (Nat.succ_le_succ (Nat.zero_le _))
  · intro other _ asLong
    rcases reaches other with none_ | rfl | rfl
    · rw [List.length_cons] at asLong
      exact absurd (none_.symm.trans asLong) (Nat.succ_ne_zero _).symm
    · exact Nat.le_refl _
    · exact idxOf_le_single rule (known rule)

theorem isDigit_not_wordStart
    (isDigit : char.isDigit = true) :
    isWordStart char = false := by
  rw [Bool.eq_false_iff]
  intro starts
  rw [isWordStart, Bool.or_eq_true, beq_iff_eq] at starts
  rcases starts with isAlpha | rfl
  · simp only [Char.isAlpha, Char.isUpper, Char.isLower, Char.isDigit,
      Bool.or_eq_true, Bool.and_eq_true, decide_eq_true_eq, ge_iff_le,
      UInt32.le_iff_toNat_le] at isAlpha isDigit
    have zero : '0'.val.toNat = 48 := rfl
    have nine : '9'.val.toNat = 57 := rfl
    have upper : 'A'.val.toNat = 65 := rfl
    have lower : 'a'.val.toNat = 97 := rfl
    omega
  · revert isDigit
    decide

/-- A digit begins numbers only. -/
theorem digit_alone
    (isDigit : char.isDigit = true) :
    ∀ other ∈ scanner.rules, other.Opens char →
      other = .integer ∨ other = .single := by
  intro other _ opens
  cases other with
  | comment =>
      rw [show char = '#' from opens] at isDigit
      exact absurd isDigit (by decide)
  | keyword _ | identifier =>
      rw [Rule.Opens, isDigit_not_wordStart isDigit] at opens
      cases opens
  | space =>
      rw [Rule.Opens, isSpace, Bool.or_eq_true, Bool.or_eq_true, Bool.or_eq_true,
        beq_iff_eq, beq_iff_eq, beq_iff_eq, beq_iff_eq] at opens
      rcases opens with ((rfl | rfl) | rfl) | rfl <;>
        exact absurd isDigit (by decide)
  | integer =>
      exact .inl rfl
  | string =>
      rw [show char = '"' from opens] at isDigit
      exact absurd isDigit (by decide)
  | single =>
      exact .inr rfl

/-! ## What each rule takes -/

/-- A text that none of some characters can continue. -/
def Stops (p : Char → Bool) (rest : Text) : Prop :=
  ∀ char ∈ rest.head?, p char = false

theorem takeWhile_append_stops
    {p : Char → Bool}
    (all : ∀ char ∈ lexeme, p char = true)
    (stops : Stops p rest) :
    (lexeme ++ rest).takeWhile p = lexeme := by
  rw [List.takeWhile_append_of_pos all]
  cases rest with
  | nil =>
      exact List.append_nil _
  | cons char rest =>
      rw [List.takeWhile_cons, stops char rfl]
      exact List.append_nil _

theorem comment_takes
    {body : Text}
    (inside : '\n' ∉ body)
    (stops : Stops (· != '\n') rest) :
    scanner.Takes .comment ('#' :: body) rest := by
  apply takes_alone (by decide)
  rw [matchLength, if_pos (by rfl), line, takeWhile_append_stops _ stops]
  intro char isIn
  rcases List.mem_cons.mp isIn with rfl | isIn
  · rfl
  · exact bne_iff_ne.mpr fun isEnd => inside (isEnd ▸ isIn)

theorem space_takes
    (isSpace : isSpace char = true) :
    scanner.Takes .space [char] rest := by
  have length : matchLength .space ([char] ++ rest) = [char].length :=
    if_pos isSpace
  rw [Config.isSpace, Bool.or_eq_true, Bool.or_eq_true, Bool.or_eq_true,
    beq_iff_eq, beq_iff_eq, beq_iff_eq, beq_iff_eq] at isSpace
  refine takes_alone ?_ length
  rcases isSpace with ((rfl | rfl) | rfl) | rfl <;> decide

theorem integer_takes
    {digits : Text}
    (some_ : digits ≠ [])
    (allDigits : ∀ char ∈ digits, char.isDigit = true)
    (stops : Stops Char.isDigit rest) :
    scanner.Takes .integer digits rest := by
  obtain ⟨first, others, rfl⟩ := List.exists_cons_of_ne_nil some_
  apply takes_alone (digit_alone (allDigits first List.mem_cons_self))
  rw [matchLength, takeWhile_append_stops allDigits stops]

/-- The characters that are tokens of the grammar. -/
def punctuation : List Char := ['=', ';', '\x7b', '\x7d']

theorem punctuation_cases
    (isPunctuation : char ∈ punctuation) :
    char = '=' ∨ char = ';' ∨ char = '\x7b' ∨ char = '\x7d' := by
  simpa only [punctuation, List.mem_cons, List.not_mem_nil, or_false]
    using isPunctuation

theorem single_takes
    (isPunctuation : char ∈ punctuation) :
    scanner.Takes .single [char] rest := by
  have alone : (char != '\n') = true ∧
      ∀ other ∈ scanner.rules, other.Opens char →
        other = .single ∨ other = .single := by
    rcases punctuation_cases isPunctuation with rfl | rfl | rfl | rfl <;> decide
  exact takes_alone alone.2 (if_pos alone.1)

/-! ### Strings -/

theorem throughLastQuote_append
    (before : Text) :
    throughLastQuote (before ++ '"' :: rest) =
      before.length + 1 + throughLastQuote rest := by
  rw [throughLastQuote, throughLastQuote, List.reverse_append,
    List.reverse_cons, List.append_assoc, List.dropWhile_append]
  split
  · rename_i none_
    rw [List.isEmpty_iff] at none_
    rw [none_]
    simp
  · simp
    omega

theorem throughLastQuote_eq_zero
    (noQuote : '"' ∉ text) :
    throughLastQuote text = 0 := by
  rw [throughLastQuote, List.length_eq_zero_iff, List.dropWhile_eq_nil_iff]
  intro char isIn
  exact bne_iff_ne.mpr fun isQuote => noQuote (isQuote ▸ List.mem_reverse.mp isIn)

/-- A string goes on to the last quote of its line. -/
theorem string_takes
    {body : Text}
    (inside : '\n' ∉ body)
    (last : '"' ∉ line rest) :
    scanner.Takes .string ('"' :: (body ++ ['"'])) rest := by
  apply takes_alone (by decide)
  have isLine : line (body ++ ['"'] ++ rest) = body ++ '"' :: line rest := by
    rw [line, List.append_assoc, List.takeWhile_append_of_pos]
    · rfl
    · exact fun char isIn => bne_iff_ne.mpr fun isEnd => inside (isEnd ▸ isIn)
  have through : throughLastQuote (line (body ++ ['"'] ++ rest)) =
      body.length + 1 := by
    rw [isLine, throughLastQuote_append, throughLastQuote_eq_zero last]
  rw [matchLength, if_pos (by rfl), List.cons_append, List.tail_cons, through]
  simp

/-! ### Words -/

/-- A word of the pattern of the identifiers. -/
structure IsName (word : Text) : Prop where
  starts : ∃ first others, word = first :: others ∧ isWordStart first = true
  all : ∀ char ∈ word, isWord char = true

theorem Keyword.isName
    (keyword : Keyword) :
    IsName keyword.spelling :=
  ⟨spelling_starts keyword, spelling_word keyword⟩

section

variable {word : Text}

theorem IsName.length_identifier
    (isName : IsName word)
    (stops : Stops isWord rest) :
    matchLength .identifier (word ++ rest) = word.length := by
  obtain ⟨first, others, rfl, starts⟩ := isName.starts
  have isFirst : (first :: others ++ rest).head?.any isWordStart = true := starts
  rw [matchLength, if_pos isFirst, takeWhile_append_stops isName.all stops]

/-- A keyword that matches a whole word is the word. -/
theorem IsName.eq_of_length_keyword
    {keyword : Keyword}
    (isName : IsName word)
    (asLong : matchLength (.keyword keyword) (word ++ rest) = word.length) :
    keyword.spelling = word := by
  obtain ⟨first, others, rfl, _⟩ := isName.starts
  rw [matchLength] at asLong
  split at asLong
  · rename_i isStart
    exact List.IsPrefix.eq_of_length_le
      (List.prefix_of_prefix_length_le
        (List.isPrefixOf_iff_prefix.mp isStart) (List.prefix_append _ _)
        asLong.le)
      asLong.ge
  · exact absurd asLong.symm (Nat.succ_ne_zero _)

/-- Only keywords, identifiers and single characters can begin a word. -/
theorem wordStart_opens
    (starts : isWordStart first = true)
    (opens : rule.Opens first) :
    (∃ keyword, rule = .keyword keyword) ∨ rule = .identifier ∨
      rule = .single := by
  cases rule with
  | comment =>
      rw [show first = '#' from opens] at starts
      exact absurd starts (by decide)
  | keyword keyword =>
      exact .inl ⟨keyword, rfl⟩
  | space =>
      rw [Rule.Opens, isSpace, Bool.or_eq_true, Bool.or_eq_true, Bool.or_eq_true,
        beq_iff_eq, beq_iff_eq, beq_iff_eq, beq_iff_eq] at opens
      rcases opens with ((rfl | rfl) | rfl) | rfl <;>
        exact absurd starts (by decide)
  | integer =>
      rw [isDigit_not_wordStart opens] at starts
      cases starts
  | identifier =>
      exact .inr (.inl rfl)
  | string =>
      rw [show first = '"' from opens] at starts
      exact absurd starts (by decide)
  | single =>
      exact .inr (.inr rfl)

/-- What the rules match of a word. -/
theorem IsName.reaches
    (isName : IsName word)
    (stops : Stops isWord rest)
    (rule : Rule) :
    matchLength rule (word ++ rest) ≤ word.length ∧
      (matchLength rule (word ++ rest) = word.length →
        (∃ keyword, rule = .keyword keyword ∧ keyword.spelling = word) ∨
        rule = .identifier ∨ rule = .single) := by
  have isWhole := isName.length_identifier stops
  obtain ⟨first, others, rfl, starts⟩ := isName.starts
  by_cases opens : rule.Opens first
  · rcases wordStart_opens starts opens with ⟨keyword, rfl⟩ | rfl | rfl
    · refine ⟨(keyword_le_identifier keyword _).trans isWhole.le, ?_⟩
      exact fun asLong => .inl ⟨keyword, rfl, isName.eq_of_length_keyword asLong⟩
    · exact ⟨isWhole.le, fun _ => .inr (.inl rfl)⟩
    · refine ⟨(single_le_one _).trans (Nat.succ_le_succ (Nat.zero_le _)), ?_⟩
      exact fun _ => .inr (.inr rfl)
  · rw [List.cons_append, matchLength_of_not_opens _ opens]
    exact ⟨Nat.zero_le _, fun none_ => absurd none_.symm (Nat.succ_ne_zero _)⟩

theorem IsName.ne_nil
    (isName : IsName word) :
    word ≠ [] := by
  obtain ⟨first, others, rfl, _⟩ := isName.starts
  exact List.cons_ne_nil _ _

theorem keyword_takes
    (keyword : Keyword)
    (stops : Stops isWord rest) :
    scanner.Takes (.keyword keyword) keyword.spelling rest := by
  have reaches := keyword.isName.reaches stops
  have isMatch : keyword.spelling.isPrefixOf (keyword.spelling ++ rest) = true :=
    List.isPrefixOf_iff_prefix.mpr (List.prefix_append _ _)
  refine ⟨known _, keyword.isName.ne_nil, if_pos isMatch,
    fun other _ => (reaches other).1, ?_⟩
  intro other _ asLong
  rcases (reaches other).2 asLong with ⟨same, rfl, spelled⟩ | rfl | rfl
  · rw [spelling_injective spelled]
  · cases keyword <;> decide
  · exact idxOf_le_single _ (known _)

/-- A word that is not a keyword is an identifier. -/
theorem identifier_takes
    (isName : IsName word)
    (notKeyword : ∀ keyword : Keyword, keyword.spelling ≠ word)
    (stops : Stops isWord rest) :
    scanner.Takes .identifier word rest := by
  have reaches := isName.reaches stops
  refine ⟨known _, isName.ne_nil, isName.length_identifier stops,
    fun other _ => (reaches other).1, ?_⟩
  intro other _ asLong
  rcases (reaches other).2 asLong with ⟨keyword, rfl, spelled⟩ | rfl | rfl
  · exact absurd spelled (notKeyword keyword)
  · exact Nat.le_refl _
  · decide

end

/-! ### Numbers -/

theorem head_toDigits
    {n : Nat}
    (positive : 0 < n) :
    (Nat.toDigits 10 n).head? ≠ some '0' := by
  induction n using Nat.strongRecOn with
  | ind n inductionHypothesis =>
      by_cases small : n < 10
      · rw [Nat.toDigits_of_lt_base small]
        interval_cases n <;> decide
      · have large : 10 ≤ n := Nat.le_of_not_lt small
        have before := inductionHypothesis (n / 10)
          (Nat.div_lt_self positive (by decide))
          (Nat.div_pos large (by decide))
        rw [Nat.toDigits_of_base_le (by decide) large,
          List.head?_append_of_ne_nil _ Nat.toDigits_ne_nil]
        exact before

theorem strtoul_toDigits
    {n : Nat}
    (bounded : n < 2 ^ 64) :
    strtoul (Nat.toDigits 10 n) = n := by
  by_cases zero : n = 0
  · subst zero
    decide
  · rw [strtoul, if_neg (head_toDigits (Nat.pos_of_ne_zero zero)),
      Nat.ofDigitChars_ten_toDigits]
    exact Nat.min_eq_right (Nat.le_sub_one_of_lt bounded)

end Simbus.Config
