import Mathlib.Data.List.Infix

/-!
# Replacing a pattern

Occurrences are found from the left and do not overlap, as with Python's
`str.replace` for a pattern that is not empty.
-/

namespace Rsloop.Text

variable {Symbol : Type} [DecidableEq Symbol] {old new : List Symbol}

/-- `skip` symbols belong to an occurrence that has been replaced already. -/
def replaceFrom (old new : List Symbol) : Nat → List Symbol → List Symbol
  | _, [] => []
  | skip + 1, _ :: rest => replaceFrom old new skip rest
  | 0, symbol :: rest =>
    if old.isPrefixOf (symbol :: rest) then
      new ++ replaceFrom old new (old.length - 1) rest
    else
      symbol :: replaceFrom old new 0 rest

def replace (old new text : List Symbol) : List Symbol :=
  replaceFrom old new 0 text

theorem replaceFrom_eq_drop (skip : Nat) (text : List Symbol) :
    replaceFrom old new skip text = replace old new (text.drop skip) := by
  induction skip generalizing text with
  | zero => rfl
  | succ skip ih =>
    cases text with
    | nil => rfl
    | cons symbol rest =>
      exact ih rest

theorem replace_append (nonempty : old ≠ []) (rest : List Symbol) :
    replace old new (old ++ rest) = new ++ replace old new rest := by
  cases old with
  | nil => exact absurd rfl nonempty
  | cons symbol tail =>
    have found : (symbol :: tail).isPrefixOf (symbol :: (tail ++ rest)) :=
      List.isPrefixOf_iff_prefix.mpr ⟨rest, rfl⟩
    change replaceFrom (symbol :: tail) new 0 (symbol :: (tail ++ rest)) = _
    rw [replaceFrom, if_pos found, replaceFrom_eq_drop]
    simp

theorem replace_cons {symbol : Symbol} {rest : List Symbol}
    (absent : ¬ old <+: symbol :: rest) :
    replace old new (symbol :: rest) = symbol :: replace old new rest := by
  have notFound : ¬ old.isPrefixOf (symbol :: rest) := fun starts =>
    absent <| List.isPrefixOf_iff_prefix.mp starts
  unfold replace
  rw [replaceFrom, if_neg notFound]

end Rsloop.Text
