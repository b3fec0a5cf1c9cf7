import AccessControl.Text.Split
import Mathlib.Data.List.TakeWhile

/-!
A text with a separator in it is cut there, if the part on the side from which it is read does not hold one.
-/

namespace AccessControl.Text

section

variable {sep : Char} {front back : List Char}

theorem ne_sep_of_not_mem (h : sep ∉ front) : ∀ c ∈ front, decide (c ≠ sep) = true := by
  intro c hc
  refine decide_eq_true ?_
  rintro rfl
  exact h hc

theorem dropWhile_ne_append (h : sep ∉ front) (back : List Char) :
    (front ++ sep :: back).dropWhile (fun c => decide (c ≠ sep)) = sep :: back := by
  rw [List.dropWhile_append_of_pos (ne_sep_of_not_mem h)]
  exact List.dropWhile_cons_of_neg (by simp)

theorem takeWhile_ne_append (h : sep ∉ front) (back : List Char) :
    (front ++ sep :: back).takeWhile (fun c => decide (c ≠ sep)) = front := by
  have hsep : (sep :: back).takeWhile (fun c => decide (c ≠ sep)) = [] := List.takeWhile_cons_of_neg (by simp)
  rw [List.takeWhile_append_of_pos (ne_sep_of_not_mem h), hsep, List.append_nil]

theorem splitLast?_append (h : sep ∉ back) (front : List Char) :
    splitLast? sep (front ++ sep :: back) = some (front, back) := by
  have hback : sep ∉ back.reverse := fun hmem => h (List.mem_reverse.1 hmem)
  have hreverse : (front ++ sep :: back).reverse = back.reverse ++ sep :: front.reverse := by
    rw [List.reverse_append, List.reverse_cons, List.append_assoc, List.singleton_append]
  rw [splitLast?, hreverse, dropWhile_ne_append hback, takeWhile_ne_append hback]
  simp only [List.reverse_reverse]

end

end AccessControl.Text
