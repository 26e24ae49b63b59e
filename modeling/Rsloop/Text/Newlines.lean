import Rsloop.Text.Replace

/-!
# Line ends

A text is a list of code points. Replacing the two or three spellings of a line
end one after the other comes to one pass that drops a carriage return in front
of a line end and turns any other into a line feed, so that a text can be cut
wherever no line end is cut.
-/

namespace Rsloop.Text

open List

abbrev CodePoints := List Nat

def cr : Nat := 13

def lf : Nat := 10

/-- A line feed behind at most so many carriage returns -/
def startsLine : Nat → CodePoints → Bool
  | _, [] => false
  | 0, symbol :: _ => decide (symbol = lf)
  | count + 1, symbol :: rest =>
    decide (symbol = lf) || (decide (symbol = cr) && startsLine count rest)

/-- A carriage return joins the line end behind it or becomes one itself. -/
def foldLines (count : Nat) : CodePoints → CodePoints
  | [] => []
  | symbol :: rest =>
    if symbol = cr then
      if startsLine count rest then foldLines count rest else lf :: foldLines count rest
    else
      symbol :: foldLines count rest

/-! ## Cutting a text -/

@[simp]
theorem startsLine_nil (count : Nat) : startsLine count [] = false := by
  cases count <;> rfl

theorem startsLine_cons_lf (count : Nat) (rest : CodePoints) :
    startsLine count (lf :: rest) := by
  cases count <;> rfl

variable {symbol : Nat}

theorem startsLine_cons_other (count : Nat) (rest : CodePoints)
    (notLf : symbol ≠ lf) (notCr : symbol ≠ cr) :
    startsLine count (symbol :: rest) = false := by
  cases count <;> simp [startsLine, notLf, notCr]

variable {text : CodePoints} {count : Nat}

theorem startsLine_mono
    (none : startsLine (count + 1) text = false) :
    startsLine count text = false := by
  induction count generalizing text with
  | zero =>
    cases text with
    | nil => rfl
    | cons =>
      simp only [startsLine, Bool.or_eq_false_iff] at none ⊢
      exact none.1
  | succ _ ih =>
    cases text with
    | nil => rfl
    | cons =>
      rw [startsLine, Bool.or_eq_false_iff, Bool.and_eq_false_iff] at none ⊢
      refine ⟨none.1, ?_⟩
      rcases none.2 with notCr | later
      · exact .inl notCr
      · exact .inr (ih later)

/-- What stands behind a carriage return does not start a line when more text
comes, unless a line end is cut. -/
theorem startsLine_append {more : CodePoints}
    (whole : (cr :: text).getLast? = some cr → startsLine count more = false) :
    startsLine count (text ++ more) = startsLine count text := by
  induction text generalizing count with
  | nil =>
    rw [nil_append, startsLine_nil]
    exact whole rfl
  | cons symbol rest ih =>
    rw [cons_append]
    by_cases isLf : symbol = lf
    · rw [isLf, startsLine_cons_lf, startsLine_cons_lf]
    · by_cases isCr : symbol = cr
      · subst isCr
        cases count with
        | zero => rfl
        | succ count =>
          have later : startsLine count (rest ++ more) = startsLine count rest := by
            refine ih fun ends => startsLine_mono (whole ?_)
            exact ends
          simp only [startsLine, later]
      · rw [startsLine_cons_other _ _ isLf isCr, startsLine_cons_other _ _ isLf isCr]

/-- A text can be cut where no line end is cut. -/
theorem foldLines_append {more : CodePoints}
    (whole : text.getLast? = some cr → startsLine count more = false) :
    foldLines count (text ++ more) = foldLines count text ++ foldLines count more := by
  induction text with
  | nil => rfl
  | cons symbol rest ih =>
    have later : foldLines count (rest ++ more) =
        foldLines count rest ++ foldLines count more := by
      refine ih fun ends => whole ?_
      cases rest with
      | nil => cases ends
      | cons => rwa [getLast?_cons_cons]
    rw [cons_append, foldLines, foldLines, later]
    by_cases isCr : symbol = cr
    · subst isCr
      rw [if_pos rfl, if_pos rfl, startsLine_append whole]
      by_cases joins : startsLine count rest
      · rw [if_pos joins, if_pos joins]
      · rw [if_neg joins, if_neg joins, cons_append]
    · rw [if_neg isCr, if_neg isCr, cons_append]

theorem startsLine_append_of_starts {more : CodePoints}
    (starts : startsLine count text) :
    startsLine count (text ++ more) := by
  induction text generalizing count with
  | nil => simp at starts
  | cons symbol rest ih =>
    cases count with
    | zero => exact starts
    | succ =>
      rw [cons_append]
      simp only [startsLine, Bool.or_eq_true, Bool.and_eq_true] at starts ⊢
      exact starts.imp_right (And.imp_right ih)

/-- A cut never makes a text shorter, and a cut through a line end makes it
longer. -/
theorem length_foldLines_append (count : Nat) (text more : CodePoints) :
    (foldLines count (text ++ more)).length ≤
        (foldLines count text).length + (foldLines count more).length ∧
      (text.getLast? = some cr → startsLine count more →
        (foldLines count (text ++ more)).length <
          (foldLines count text).length + (foldLines count more).length) := by
  induction text with
  | nil => simp [foldLines]
  | cons symbol rest ih =>
    rw [cons_append, foldLines, foldLines]
    by_cases isCr : symbol = cr
    · rw [if_pos isCr, if_pos isCr]
      by_cases joins : startsLine count rest
      · rw [if_pos joins, if_pos (startsLine_append_of_starts joins)]
        refine ⟨ih.1, fun ends => ih.2 ?_⟩
        cases rest with
        | nil => simp at joins
        | cons => rwa [getLast?_cons_cons] at ends
      · rw [if_neg joins]
        by_cases later : startsLine count (rest ++ more)
        · rw [if_pos later, length_cons]
          omega
        · rw [if_neg later, length_cons, length_cons]
          refine ⟨by omega, fun ends starts => ?_⟩
          cases rest with
          | nil => exact absurd starts later
          | cons =>
            have longer := ih.2 (by rwa [getLast?_cons_cons] at ends) starts
            omega
    · rw [if_neg isCr, if_neg isCr, length_cons, length_cons]
      refine ⟨by omega, fun ends starts => ?_⟩
      cases rest with
      | nil => exact absurd (Option.some.inj ends) isCr
      | cons =>
        have longer := ih.2 (by rwa [getLast?_cons_cons] at ends) starts
        omega

/-- A text can be cut if and only if no line end is cut. -/
theorem foldLines_append_iff {more : CodePoints} :
    foldLines count (text ++ more) = foldLines count text ++ foldLines count more ↔
      ¬ (text.getLast? = some cr ∧ startsLine count more) := by
  constructor
  · rintro same ⟨ends, starts⟩
    have longer := (length_foldLines_append count text more).2 ends starts
    rw [same, length_append] at longer
    exact Nat.lt_irrefl _ longer
  · intro whole
    exact foldLines_append fun ends => eq_false_of_ne_true fun starts => whole ⟨ends, starts⟩

/-! ## Successive replacements -/

theorem replace_cr_cons (symbol : Nat) (rest : CodePoints) :
    replace [cr] [lf] (symbol :: rest) =
      (if symbol = cr then lf else symbol) :: replace [cr] [lf] rest := by
  by_cases isCr : symbol = cr
  · subst isCr
    have cut : replace [cr] [lf] ([cr] ++ rest) = [lf] ++ replace [cr] [lf] rest :=
      replace_append (by simp) rest
    exact cut
  · rw [if_neg isCr]
    apply replace_cons
    intro found
    rw [cons_prefix_cons] at found
    exact isCr found.1.symm

theorem crlf_not_ahead {rest : CodePoints}
    (apart : ¬ (symbol = cr ∧ startsLine 0 rest)) :
    ¬ [cr, lf] <+: symbol :: rest := by
  rintro ⟨tail, found⟩
  cases found
  exact apart ⟨rfl, rfl⟩

/-- Dropping the carriage return is what replacing `CR LF` comes to. -/
theorem replace_crlf_cons (symbol : Nat) (rest : CodePoints) :
    replace [cr, lf] [lf] (symbol :: rest) =
      if symbol = cr ∧ startsLine 0 rest then
        replace [cr, lf] [lf] rest
      else
        symbol :: replace [cr, lf] [lf] rest := by
  by_cases found : symbol = cr ∧ startsLine 0 rest
  · obtain ⟨isCr, starts⟩ := found
    subst isCr
    cases rest with
    | nil => cases starts
    | cons next rest =>
      have isLf : next = lf := of_decide_eq_true starts
      subst isLf
      have pair : replace [cr, lf] [lf] ([cr, lf] ++ rest) =
          [lf] ++ replace [cr, lf] [lf] rest := replace_append (by simp) rest
      exact pair
  · rw [if_neg found]
    exact replace_cons (crlf_not_ahead found)

theorem replace_cr_replace_crlf (text : CodePoints) :
    replace [cr] [lf] (replace [cr, lf] [lf] text) = foldLines 0 text := by
  induction text with
  | nil => rfl
  | cons symbol rest ih =>
    rw [replace_crlf_cons, foldLines]
    by_cases isCr : symbol = cr
    · by_cases joins : startsLine 0 rest
      · rwa [if_pos ⟨isCr, joins⟩, if_pos isCr, if_pos joins]
      · rw [if_neg (fun both => joins both.2), if_pos isCr, if_neg joins,
          replace_cr_cons, if_pos isCr, ih]
    · rw [if_neg (fun both => isCr both.1), if_neg isCr, replace_cr_cons, if_neg isCr, ih]

theorem replace_crcrlf_triple (rest : CodePoints) :
    replace [cr, cr, lf] [lf] (cr :: cr :: lf :: rest) = lf :: replace [cr, cr, lf] [lf] rest := by
  have triple : replace [cr, cr, lf] [lf] ([cr, cr, lf] ++ rest) =
      [lf] ++ replace [cr, cr, lf] [lf] rest := replace_append (by simp) rest
  exact triple

theorem replace_crcrlf_cons {rest : CodePoints}
    (apart : ∀ tail, symbol :: rest ≠ cr :: cr :: lf :: tail) :
    replace [cr, cr, lf] [lf] (symbol :: rest) = symbol :: replace [cr, cr, lf] [lf] rest := by
  apply replace_cons
  rintro ⟨tail, found⟩
  exact apart tail found.symm

theorem startsLine_two (starts : startsLine 2 text) :
    (∃ rest, text = lf :: rest) ∨ (∃ rest, text = cr :: lf :: rest) ∨
      ∃ rest, text = cr :: cr :: lf :: rest := by
  match text with
  | [] => cases starts
  | [first] =>
    have isLf : first = lf := by simpa [startsLine] using starts
    exact .inl ⟨[], by rw [isLf]⟩
  | [first, second] =>
    simp only [startsLine, Bool.or_eq_true, Bool.and_eq_true, Bool.and_false,
      Bool.or_false, decide_eq_true_eq] at starts
    rcases starts with isLf | ⟨isCr, isLf⟩
    · exact .inl ⟨[second], by rw [isLf]⟩
    · exact .inr (.inl ⟨[], by rw [isCr, isLf]⟩)
  | first :: second :: third :: rest =>
    simp only [startsLine, Bool.or_eq_true, Bool.and_eq_true, decide_eq_true_eq] at starts
    rcases starts with isLf | ⟨isCr, isLf | ⟨isCr', isLf⟩⟩
    · exact .inl ⟨_, by rw [isLf]⟩
    · exact .inr (.inl ⟨_, by rw [isCr, isLf]⟩)
    · exact .inr (.inr ⟨rest, by rw [isCr, isCr', isLf]⟩)

/-- The first replacement brings a line feed to the front only where a line
starts. -/
theorem startsLine_replace_crcrlf (none : startsLine 2 text = false) :
    startsLine 0 (replace [cr, cr, lf] [lf] text) = false := by
  cases text with
  | nil => rfl
  | cons symbol rest =>
    have apart : ∀ tail, symbol :: rest ≠ cr :: cr :: lf :: tail := by
      intro tail same
      rw [same] at none
      cases none
    rw [replace_crcrlf_cons apart]
    simp only [startsLine, Bool.or_eq_false_iff] at none ⊢
    exact none.1

theorem replace_cr_replace_crlf_replace_crcrlf (text : CodePoints) :
    replace [cr] [lf] (replace [cr, lf] [lf] (replace [cr, cr, lf] [lf] text)) =
      foldLines 2 text := by
  induction text with
  | nil => rfl
  | cons symbol rest ih =>
    rw [foldLines]
    by_cases isCr : symbol = cr
    · subst isCr
      rw [if_pos rfl]
      by_cases joins : startsLine 2 rest
      · rw [if_pos joins, ← ih]
        congr 1
        rcases startsLine_two joins with ⟨tail, same⟩ | ⟨tail, same⟩ | ⟨tail, same⟩
        · subst same
          rw [replace_crcrlf_cons (by simp [cr, lf]), replace_crlf_cons, if_pos]
          refine ⟨rfl, ?_⟩
          rfl
        · subst same
          rw [replace_crcrlf_triple, replace_crcrlf_cons (by simp [cr, lf]),
            replace_crcrlf_cons (by simp [cr, lf]), replace_crlf_cons cr, if_pos]
          exact ⟨rfl, rfl⟩
        · subst same
          rw [replace_crcrlf_cons (by simp [cr, lf]), replace_crcrlf_triple,
            replace_crlf_cons cr, if_pos]
          exact ⟨rfl, rfl⟩
      · have none : startsLine 2 rest = false := eq_false_of_ne_true joins
        have apart : ∀ tail, cr :: rest ≠ cr :: cr :: lf :: tail := by
          intro tail same
          rw [tail_eq_of_cons_eq same] at none
          cases none
        have single : ¬ (cr = cr ∧ startsLine 0 (replace [cr, cr, lf] [lf] rest)) := by
          rw [startsLine_replace_crcrlf none]
          exact fun both => Bool.false_ne_true both.2
        rw [if_neg joins, replace_crcrlf_cons apart, replace_crlf_cons,
          if_neg single, replace_cr_cons, if_pos rfl, ih]
    · have apart : ∀ tail, symbol :: rest ≠ cr :: cr :: lf :: tail :=
        fun tail same => isCr (head_eq_of_cons_eq same)
      rw [if_neg isCr, replace_crcrlf_cons apart, replace_crlf_cons,
        if_neg (fun both => isCr both.1), replace_cr_cons, if_neg isCr,
        ih]

end Rsloop.Text
