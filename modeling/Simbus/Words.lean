import Simbus.FourValued

/-!
# Words on four-valued lines

A word is driven bit by bit onto a bundle of lines, and a word is sampled from
a bundle by taking the lines at 1.  What is driven is what is sampled.
-/

namespace FourValued

variable {width : Nat}

/-- The lines that carry a word. -/
def driveWord (word : BitVec width) (line : Fin width) : Logic4 :=
  Logic4.ofBool word[line]

/-- The word of the lines that are at 1. -/
def sampleWord : {width : Nat} → (Fin width → Logic4) → BitVec width
  | 0, _ => 0#0
  | width + 1, lines =>
      BitVec.cons (decide (lines (Fin.last width) = .one))
        (sampleWord fun line => lines line.castSucc)

theorem getElem_sampleWord
    (lines : Fin width → Logic4)
    (line : Nat)
    (bounded : line < width) :
    (sampleWord lines)[line] = decide (lines ⟨line, bounded⟩ = .one) := by
  induction width with
  | zero =>
      omega
  | succ width inductionHypothesis =>
      rw [sampleWord, BitVec.getElem_cons]
      split
      · rename_i isLast
        subst isLast
        rfl
      · exact inductionHypothesis (fun line => lines line.castSucc) (by omega)

@[simp] theorem driveWord_ne_z
    (word : BitVec width)
    (line : Fin width) :
    driveWord word line ≠ .z := by
  simp [driveWord]

/-- Sampling gives back the word that is driven. -/
@[simp] theorem sampleWord_driveWord
    (word : BitVec width) :
    sampleWord (driveWord word) = word := by
  apply BitVec.eq_of_getElem_eq
  intro line bounded
  rw [getElem_sampleWord]
  simp [driveWord]

/-- A word is sampled from any lines that agree with it. -/
theorem sampleWord_eq
    {lines : Fin width → Logic4}
    {word : BitVec width}
    (agree : ∀ line, lines line = driveWord word line) :
    sampleWord lines = word := by
  rw [funext agree, sampleWord_driveWord]

end FourValued
