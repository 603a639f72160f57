import PromptLoom.Proofs.Decimal.Rounding
import PromptLoom.Yaml.Value

/-!
# Well-formed values

A value is well-formed when no mapping in it holds a key twice and every number in it is as the
format has it. The value of a text always is.
-/

namespace PromptLoom.Yaml

open Decimal

set_option autoImplicit false

namespace Value

inductive Canonical : Value → Prop where
  | null : Canonical null
  | bool (value : Bool) : Canonical (bool value)
  | int (value : Int) : Canonical (int value)
  | float {value : Binary64} (canonical : value.Canonical) : Canonical (float value)
  | text (value : String) : Canonical (text value)
  | list {items : List Value} (each : ∀ item ∈ items, Canonical item) : Canonical (list items)
  | map {entries : List (Value × Value)} (keys : ∀ entry ∈ entries, Canonical entry.1)
      (values : ∀ entry ∈ entries, Canonical entry.2) : Canonical (map entries)
  | tagged (tag : String) {value : Value} (inner : Canonical value) : Canonical (tagged tag value)

structure WellFormed (value : Value) : Prop where
  distinct : value.hasDistinctKeys = true
  canonical : value.Canonical

end Value

/-! ### Scalars -/

theorem except_map_ok {α β ε : Type} {action : Except ε α} {function : α → β} {result : β}
    (done : action.map function = .ok result) :
    ∃ value, action = .ok value ∧ function value = result := by
  cases action with
  | error _ => cases done
  | ok value => exact ⟨value, rfl, Except.ok.inj done⟩

theorem except_bind_ok {α β ε : Type} {action : Except ε α} {function : α → Except ε β} {result : β}
    (done : action.bind function = .ok result) :
    ∃ value, action = .ok value ∧ function value = .ok result := by
  cases action with
  | error _ => cases done
  | ok value => exact ⟨value, rfl, done⟩

namespace Plain

theorem float_canonical {text : List Char} {number : Binary64} (read : float? text = some number) :
    number.Canonical := by
  unfold float? at read
  dsimp only at read
  split at read
  · cases read
  · split at read
    · rw [← Option.some.inj read]
      trivial
    · split at read
      · rw [← Option.some.inj read]
        trivial
      · split at read
        · rw [← Option.some.inj read]
          trivial
        · exact Binary64.read_decimal_canonical (Option.filter_eq_some_iff.mp read).1

theorem value_canonical {text : String} {found : Value} (read : value text = .ok found) :
    found.Canonical := by
  unfold value at read
  split at read
  · rw [← Except.ok.inj read]
    exact .null
  · split at read
    · rw [← Except.ok.inj read]
      exact .bool _
    · obtain ⟨whole, -, rfl⟩ := except_map_ok read
      split
      · exact .int _
      · split
        · exact .text _
        · split
          · next number => exact .float (float_canonical number)
          · exact .text _

end Plain

namespace Value

theorem of_scalar_canonical {tag : Option Tag} {style : ScalarStyle} {content : String}
    {found : Value} (read : ofScalar tag style content = .ok found) : found.Canonical := by
  unfold ofScalar at read
  -- no tag, then the core tags in turn, then any other
  split at read
  · split at read
    · exact Plain.value_canonical read
    · rw [← Except.ok.inj read]
      exact .text _
  · split at read
    · split at read
      · rw [← Except.ok.inj read]
        exact .bool _
      · cases read
    · split at read
      · obtain ⟨whole, -, last⟩ := except_bind_ok read
        split at last
        · rw [← Except.ok.inj last]
          exact .int _
        · cases last
      · split at read
        · split at read
          · next number =>
              rw [← Except.ok.inj read]
              exact .float (Plain.float_canonical number)
          · cases read
        · split at read
          · split at read
            · rw [← Except.ok.inj read]
              exact .null
            · cases read
          · split at read
            · exact Plain.value_canonical read
            · rw [← Except.ok.inj read]
              exact .text _

theorem under_tag_canonical (tag : Option Tag) {value : Value} (canonical : value.Canonical) :
    (underTag tag value).Canonical := by
  unfold underTag
  split
  · exact .tagged _ canonical
  · exact canonical

/-! ### Nodes -/

/-- What holds of everything that a reading can end with. -/
def Yields {α : Type} (reading : Reading α) (holds : α → Prop) : Prop :=
  ∀ count found later, reading.run count = .ok (found, later) → holds found

namespace Yields

variable {α β : Type} {holds : α → Prop} {ends : β → Prop}

theorem throw (problem : Problem) : Yields (MonadExcept.throw problem : Reading α) holds := by
  intro count found later done
  cases done

theorem pure {value : α} (inside : holds value) : Yields (Pure.pure value) holds := by
  intro count found later done
  cases done
  exact inside

theorem bind {reading : Reading α} {next : α → Reading β} (first : Yields reading holds)
    (second : ∀ value, holds value → Yields (next value) ends) :
    Yields (reading >>= next) ends := by
  intro count found later done
  rw [StateT.run_bind] at done
  rcases ended : reading.run count with problem | ⟨value, between⟩
  · rw [ended] at done
    cases done
  · rw [ended] at done
    exact second value (first count value between ended) between found later done

theorem throw_bind (problem : Problem) (next : β → Reading α) :
    Yields (MonadExcept.throw problem >>= next) holds := by
  intro count found later done
  cases done

theorem lift {action : Except Problem α} (each : ∀ value, action = .ok value → holds value) :
    Yields (liftM action) holds := by
  intro count found later done
  cases action with
  | error problem => cases done
  | ok value =>
      cases done
      exact each _ rfl

theorem read_each {reader : β → Reading α} {items : List β}
    (each : ∀ item ∈ items, Yields (reader item) holds) :
    Yields (items.mapM reader) fun read => ∀ value ∈ read, holds value := by
  induction items with
  | nil => exact pure fun _ none => nomatch none
  | cons item rest ih =>
      rw [List.mapM_cons]
      refine bind (each item (List.mem_cons_self ..)) fun value inside => ?_
      refine bind (ih fun other later => each other (List.mem_cons_of_mem _ later))
        fun others outside => pure ?_
      intro other member
      rcases List.mem_cons.mp member with rfl | later
      · exact inside
      · exact outside other later

end Yields

theorem of_content_canonical {room : Bool} {child : Node → Reading Value}
    (each : ∀ node, Yields (child node) Canonical) (node : Node) :
    Yields (ofContent room child node) Canonical := by
  match node with
  | .alias anchor => exact .throw _
  | .scalar tag style content =>
      exact .bind (.lift fun _ => of_scalar_canonical) fun _ canonical =>
        .pure (under_tag_canonical tag canonical)
  | .sequence tag items =>
      have read : Yields (items.mapM child >>= fun values => Pure.pure (underTag tag (list values)))
          Canonical :=
        .bind (.read_each fun item _ => each item) fun _ canonical =>
          .pure (under_tag_canonical tag (.list canonical))
      simp only [ofContent]
      split
      · exact .throw_bind _ _
      · exact read
  | .mapping tag entries =>
      have entry : ∀ entry ∈ entries, Yields (do
          let key ← child entry.1
          return (key, ← child entry.2)) fun read => read.1.Canonical ∧ read.2.Canonical :=
        fun entry _ => .bind (each entry.1) fun _ key => .bind (each entry.2) fun _ value =>
          .pure ⟨key, value⟩
      have read := Yields.bind (.read_each entry) fun values canonical =>
        Yields.pure (under_tag_canonical tag
          (.map (fun entry member => (canonical entry member).1)
            fun entry member => (canonical entry member).2))
      simp only [ofContent]
      split
      · exact .throw_bind _ _
      · exact read

theorem of_node_canonical (document : Document) (depth : Nat) (node : Node) :
    Yields (ofNode document depth node) Canonical := by
  -- an alias may stand for any node, so nothing is known of what it leads to
  have followed (node : Node) : Yields (follow document node) fun _ => True :=
    fun _ _ _ _ => trivial
  induction depth generalizing node with
  | zero => exact .bind (followed node) fun _ _ => of_content_canonical (fun _ => .throw _) _
  | succ depth ih => exact .bind (followed node) fun _ _ => of_content_canonical ih _

/-- The value of a text is well-formed. -/
theorem of_text_well_formed {source : String} {value : Value} (read : ofText source = .ok value) :
    value.WellFormed := by
  unfold ofText at read
  obtain ⟨document, -, rooted⟩ := except_bind_ok read
  split at rooted
  · rw [← Except.ok.inj rooted]
    exact ⟨rfl, .null⟩
  · next root _ =>
      obtain ⟨⟨found, later⟩, ended, last⟩ := except_bind_ok rooted
      dsimp only at last
      split at last
      · next distinct =>
          rw [← Except.ok.inj last]
          exact ⟨distinct, of_node_canonical document greatestDepth root 0 found later ended⟩
      · cases last

end Value

end PromptLoom.Yaml
