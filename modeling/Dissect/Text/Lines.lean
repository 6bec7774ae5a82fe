/-
# Lines

A text file may end its lines with LF, CR LF or a lone CR.  Reading it as text turns each of the
three into LF; a line then runs up to and including its LF, and the last one may lack it.
-/

namespace Dissect.Text

/-- Every CR LF and every lone CR becomes LF. -/
def unifyNewlines : List Char → List Char
  | [] => []
  | '\r' :: '\n' :: rest => '\n' :: unifyNewlines rest
  | c :: rest => (if c = '\r' then '\n' else c) :: unifyNewlines rest

/-- The lines of a text without their ends.  A text that ends with LF has no further line. -/
def linesOf : List Char → List (List Char)
  | [] => []
  | c :: rest =>
    if c = '\n' then [] :: linesOf rest
    else
      match linesOf rest with
      | [] => [[c]]
      | line :: lines => (c :: line) :: lines

/-- The part of a text up to and including its last LF. -/
def completeLines (cs : List Char) : List Char := (cs.reverse.dropWhile (· != '\n')).reverse

/-- After the unification no CR is left. -/
theorem cr_not_mem_unifyNewlines (cs : List Char) : '\r' ∉ unifyNewlines cs := by
  fun_induction unifyNewlines cs with
  | case1 => simp
  | case2 rest ih => simpa using ih
  | case3 c rest _ ih =>
    by_cases h : c = '\r'
    · simpa [h] using ih
    · simpa [h] using ⟨fun e => h e.symm, ih⟩

end Dissect.Text
