import Mathlib

/-!
# Scanning by the longest match

A scanner reads a text from left to right.  At each place the rule with the
longest match takes its lexeme, the earliest of them where several are as long,
and the action of the rule may return a token.  A symbol that no rule matches is
passed over.
-/

namespace LongestMatch

/-- The rules in their order, how far each one matches, and what it returns. -/
structure Scanner (Rule Symbol Token : Type) where
  rules : List Rule
  matchLength : Rule → List Symbol → Nat
  action : Rule → List Symbol → Option Token

section

variable {Rule Symbol Token : Type}

/-- The rule that takes the next lexeme. -/
def Scanner.longest
    (scanner : Scanner Rule Symbol Token)
    (text : List Symbol) : Option Rule :=
  scanner.rules.argmax (scanner.matchLength · text)

/-- The tokens of a text, some of whose symbols have already been taken. -/
def Scanner.scanAfter
    (scanner : Scanner Rule Symbol Token) :
    Nat → List Symbol → List Token
  | _, [] => []
  | taken + 1, _ :: rest => scanner.scanAfter taken rest
  | 0, symbol :: rest =>
      match scanner.longest (symbol :: rest) with
      | none => scanner.scanAfter 0 rest
      | some rule =>
          let length := scanner.matchLength rule (symbol :: rest)
          if length = 0 then
            scanner.scanAfter 0 rest
          else
            (scanner.action rule ((symbol :: rest).take length)).toList ++
              scanner.scanAfter (length - 1) rest

/-- The tokens of a text. -/
def Scanner.scan
    (scanner : Scanner Rule Symbol Token)
    (text : List Symbol) : List Token :=
  scanner.scanAfter 0 text

variable {scanner : Scanner Rule Symbol Token}
variable {rule : Rule}
variable {lexeme rest : List Symbol}

@[simp]
theorem scan_nil : scanner.scan [] = [] :=
  rfl

theorem scanAfter_append
    (lexeme rest : List Symbol) :
    scanner.scanAfter lexeme.length (lexeme ++ rest) = scanner.scan rest := by
  induction lexeme with
  | nil =>
      rfl
  | cons symbol lexeme inductionHypothesis =>
      exact inductionHypothesis

section

variable [DecidableEq Rule]

/-- A rule takes a lexeme off a text: no rule matches more, no earlier one as much. -/
structure Scanner.Takes
    (scanner : Scanner Rule Symbol Token)
    (rule : Rule)
    (lexeme rest : List Symbol) : Prop where
  known : rule ∈ scanner.rules
  some_ : lexeme ≠ []
  length : scanner.matchLength rule (lexeme ++ rest) = lexeme.length
  longest : ∀ other ∈ scanner.rules,
    scanner.matchLength other (lexeme ++ rest) ≤ lexeme.length
  earliest : ∀ other ∈ scanner.rules,
    scanner.matchLength other (lexeme ++ rest) = lexeme.length →
    scanner.rules.idxOf rule ≤ scanner.rules.idxOf other

theorem Scanner.Takes.longest_eq
    (takes : scanner.Takes rule lexeme rest) :
    scanner.longest (lexeme ++ rest) = some rule := by
  rw [Scanner.longest, List.argmax_eq_some_iff, takes.length]
  refine ⟨takes.known, takes.longest, ?_⟩
  intro other isRule asLong
  exact takes.earliest other isRule
    (Nat.le_antisymm (takes.longest other isRule) asLong)

/-- What is scanned where a rule takes the first lexeme. -/
theorem Scanner.Takes.scan
    (takes : scanner.Takes rule lexeme rest) :
    scanner.scan (lexeme ++ rest) =
      (scanner.action rule lexeme).toList ++ scanner.scan rest := by
  have isLongest := takes.longest_eq
  have length := takes.length
  obtain ⟨symbol, others, rfl⟩ := List.exists_cons_of_ne_nil takes.some_
  rw [List.cons_append] at isLongest length
  have step : scanner.scan (symbol :: others ++ rest) =
      (scanner.action rule (symbol :: others)).toList ++
        scanner.scanAfter others.length (others ++ rest) := by
    rw [Scanner.scan, List.cons_append, Scanner.scanAfter, isLongest]
    simp only
    rw [length, if_neg (by simp), ← List.cons_append, List.take_left']
    · rfl
    · rfl
  rw [step, scanAfter_append]

end

end

end LongestMatch
