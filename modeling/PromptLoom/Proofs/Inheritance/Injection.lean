import PromptLoom.Inheritance.Config
import PromptLoom.Proofs.Text.Balance
import PromptLoom.Proofs.Text.Replacement

/-!
# Three bodies, one inside the other

A child body may be put into the body of its parent before that is put into the one above, or after.
Both give the same text if the body in the middle closes its braces: then no marker forms where one
body ends and the other goes on.
-/

namespace PromptLoom

open Text

set_option autoImplicit false

/-- A beginning of a braced name opens one brace too many to end a balanced text, and an end of it
closes one too many to begin such a text. -/
theorem Text.BraceBalanced.seamless {text name : List Char} (balanced : BraceBalanced text)
    (unopened : '{' ∉ name) (unclosed : '}' ∉ name) : Seamless ('{' :: name ++ ['}']) text := by
  intro front back filled more whole
  have opens : front.count '{' + back.count '{' = 1 := by
    rw [← List.count_append, whole]
    simp [List.count_eq_zero.mpr unopened]
  have closes : front.count '}' + back.count '}' = 1 := by
    rw [← List.count_append, whole]
    simp [List.count_eq_zero.mpr unclosed]
  have first : 0 < front.count '{' := by
    obtain ⟨c, rest, rfl⟩ := List.exists_cons_of_ne_nil filled
    obtain rfl : c = '{' := List.head_eq_of_cons_eq whole
    exact List.count_pos_iff.mpr (List.mem_cons_self ..)
  have last : 0 < back.count '}' := by
    obtain ⟨rest, c, rfl⟩ := (List.eq_nil_or_concat' back).resolve_left more
    rw [← List.append_assoc] at whole
    obtain rfl : c = '}' := List.singleton_inj.mp (List.append_inj_right' whole rfl)
    exact List.count_pos_iff.mpr (by simp)
  constructor
  · intro begins
    have nested := balanced.opened back begins
    omega
  · rintro ⟨before, rfl⟩
    have nested := balanced.opened before (List.prefix_append before front)
    have settled := balanced.settled
    rw [List.count_append, List.count_append] at settled
    omega

/-- A marker, for positive or for negative bodies. -/
def IsMarker (marker : String) : Prop := marker = positiveMarker ∨ marker = negativeMarker

theorem IsMarker.some {marker : String} (isMarker : IsMarker marker) : marker.toList ≠ [] := by
  rcases isMarker with rfl | rfl <;> decide

theorem IsMarker.seamless {marker : String} (isMarker : IsMarker marker) {text : List Char}
    (balanced : BraceBalanced text) : Seamless marker.toList text := by
  rcases isMarker with rfl | rfl
  · exact @BraceBalanced.seamless text "prompt".toList balanced (by decide) (by decide)
  · exact @BraceBalanced.seamless text "negprompt".toList balanced (by decide) (by decide)

theorem inject_marked {parent marker : String} (holds : marker.toList <:+: parent.toList)
    (body : String) : inject parent (some body) marker =
      ⟨String.ofList (replaceWord marker.toList body.toList parent.toList), false⟩ := by
  simp only [inject, Text.contains, has_word_iff.mpr holds, if_true]

/-- Putting bodies into each other from above gives what putting them in from below gives, and no
body gives way. -/
theorem inject_assoc {marker parent middle : String} (isMarker : IsMarker marker)
    (above : marker.toList <:+: parent.toList) (between : marker.toList <:+: middle.toList)
    (balanced : BraceBalanced middle.toList) (child : Option String) :
    let upper := inject parent (some middle) marker
    let lower := inject middle child marker
    (inject upper.text child marker).text = (inject parent (some lower.text) marker).text ∧
      upper.replaced = false ∧ (inject upper.text child marker).replaced = false ∧
      lower.replaced = false ∧ (inject parent (some lower.text) marker).replaced = false := by
  intro upper lower
  have combined : upper = _ := inject_marked above middle
  cases child with
  | none => exact ⟨rfl, congrArg _ combined, rfl, rfl, congrArg _ combined⟩
  | some body =>
      have narrowed : lower = _ := inject_marked between body
      have marked : marker.toList <:+: upper.text.toList := by
        rw [combined, String.toList_ofList]
        exact between.trans (replaced_inside isMarker.some above middle.toList)
      rw [inject_marked marked, inject_marked above, combined, narrowed]
      simp only [String.toList_ofList, and_self, and_true]
      rw [replace_word_twice isMarker.some between (isMarker.seamless balanced)]

theorem nested_bodies_agree :
    let parent := "a \x7bprompt\x7d, \x7bprompt\x7d"
    let middle := "(\x7bTone\x7d \x7bprompt\x7d\x7bprompt\x7d)"
    let whole := "a (\x7bTone\x7d \x7bprompt\x7bprompt), (\x7bTone\x7d \x7bprompt\x7bprompt)"
    (inject (inject parent (some middle) positiveMarker).text (some "\x7bprompt")
        positiveMarker).text = whole ∧
      (inject parent (some (inject middle (some "\x7bprompt") positiveMarker).text)
        positiveMarker).text = whole := by
  intro parent middle whole
  obtain ⟨same, -⟩ := @inject_assoc positiveMarker parent middle (.inl rfl) (by decide +kernel)
    (by decide +kernel) (by decide +kernel) (some "\x7bprompt")
  have downwards : (inject (inject parent (some middle) positiveMarker).text (some "\x7bprompt")
      positiveMarker).text = whole := by decide +kernel
  exact ⟨downwards, same.symm.trans downwards⟩

end PromptLoom
