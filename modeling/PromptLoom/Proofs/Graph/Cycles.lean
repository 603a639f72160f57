import Mathlib.Data.List.Chain
import PromptLoom.Proofs.Graph.Ancestry

/-!
# Cycles of parents

A cycle is listed when the chain of a document comes back to it. Every member of a listed cycle is
above itself, and a way up that comes back to where it started, passing every other document once,
is listed.
-/

namespace PromptLoom.Graph

open Relation

set_option autoImplicit false

variable {graph : Graph}

/-- One document of a graph refers to another as its parent. -/
def Up (graph : Graph) (child parent : Location) : Prop := graph.parent? child = some parent

/-! ### What is listed is a cycle -/

/-- A chain leads from its first member past every other one to its last. -/
theorem chain_connected (open_ : List Location) (start : Location) :
    ∃ last, (graph.chainWithin open_ start).getLast? = some last ∧
      ∀ location ∈ graph.chainWithin open_ start,
        ReflTransGen graph.Up start location ∧ ReflTransGen graph.Up location last := by
  -- the induction is along the chain
  fun_induction chainWithin graph open_ start with
  | case1 open_ start =>
      refine ⟨start, rfl, ?_⟩
      intro location member
      rw [List.mem_singleton.mp member]
      exact ⟨.refl, .refl⟩
  | case2 open_ start parent up fresh shorter ih =>
      obtain ⟨last, ends, between⟩ := ih
      refine ⟨last, by simp [List.getLast?_cons, ends], ?_⟩
      have first : parent ∈ graph.chainWithin (without parent open_) parent := by
        rw [chainWithin]
        split
        · exact List.mem_singleton_self _
        · split
          · exact List.mem_cons_self ..
          · exact List.mem_singleton_self _
      intro location member
      rcases List.mem_cons.mp member with rfl | later
      · exact ⟨.refl, .head up (between parent first).2⟩
      · obtain ⟨reached, leads⟩ := between location later
        exact ⟨.head up reached, leads⟩
  | case3 open_ start parent up passed =>
      refine ⟨start, rfl, ?_⟩
      intro location member
      rw [List.mem_singleton.mp member]
      exact ⟨.refl, .refl⟩

theorem cycle_through_returns {start : Location} {members : List Location}
    (found : graph.cycleThrough? start = some members) :
    ∀ location ∈ members, TransGen graph.Up location location := by
  simp only [cycleThrough?] at found
  split at found
  · next closed =>
      obtain rfl := Option.some.inj found
      obtain ⟨last, ends, between⟩ :=
        @chain_connected graph (without start graph.locations) start
      rw [chain, ends, Option.bind_some] at closed
      intro location member
      obtain ⟨reached, leads⟩ := between location member
      exact TransGen.trans_left (TransGen.tail' leads closed) reached
  · cases found

/-- Every member of some cycles is above itself. -/
def Returning (graph : Graph) (known : List (List Location)) : Prop :=
  ∀ members ∈ known, ∀ location ∈ members, TransGen graph.Up location location

theorem Returning.add_cycle {known : List (List Location)} (returning : graph.Returning known)
    (place : Location) : graph.Returning (graph.addCycle known place) := by
  unfold Graph.addCycle
  split
  · next cycle found =>
      split
      · exact returning
      · intro members member
        rcases List.mem_append.mp member with earlier | new
        · exact returning members earlier
        · rw [List.mem_singleton.mp new]
          exact cycle_through_returns found
  · exact returning

theorem cycles_returning (graph : Graph) : graph.Returning graph.cycles := by
  have nothing : graph.Returning [] := fun _ none => nomatch none
  exact List.foldlRecOn graph.locations graph.addCycle nothing
    fun _ before place _ => before.add_cycle place

/-! ### Every cycle is listed -/

theorem add_cycle_keeps (known : List (List Location)) (place : Location)
    {members : List Location} (listed : members ∈ known) :
    members ∈ graph.addCycle known place := by
  unfold addCycle
  split
  · split
    · exact listed
    · exact List.mem_append_left _ listed
  · exact listed

theorem cycle_through_listed {start : Location} {members : List Location}
    (inside : start ∈ graph.locations) (found : graph.cycleThrough? start = some members)
    (part : start ∈ members) : ∃ known ∈ graph.cycles, start ∈ known := by
  obtain ⟨before, after, split⟩ := List.append_of_mem inside
  have added : ∃ cycle ∈ graph.addCycle (before.foldl graph.addCycle []) start, start ∈ cycle := by
    simp only [addCycle, found]
    split
    · next known =>
        obtain ⟨cycle, listed, holds⟩ := List.any_eq_true.mp known
        exact ⟨cycle, listed, List.contains_iff_mem.mp holds⟩
    · exact ⟨members, List.mem_append_right _ (List.mem_singleton_self _), part⟩
  obtain ⟨cycle, listed, holds⟩ := added
  refine ⟨cycle, ?_, holds⟩
  rw [cycles, split, List.foldl_append, List.foldl_cons]
  exact List.foldlRecOn after graph.addCycle listed
    fun known before place _ => add_cycle_keeps known place before

/-- A chain goes along a way up that passes no document twice, up to where it cannot go on. -/
theorem chain_along {start : Location} {rest : List Location} {open_ : List Location}
    (way : List.IsChain graph.Up (start :: rest)) (once : rest.Nodup)
    (free : ∀ location ∈ rest, location ∈ open_)
    (closed : ∀ last next, (start :: rest).getLast? = some last → graph.Up last next →
      next ∉ open_) : graph.chainWithin open_ start = start :: rest := by
  induction rest generalizing start open_ with
  | nil =>
      rcases up : graph.parent? start with _ | parent
      · exact chain_starts up
      · exact chain_stops up (closed start parent rfl up)
  | cons next more ih =>
      obtain ⟨up, further⟩ := List.isChain_cons_cons.mp way
      obtain ⟨other, onceMore⟩ := List.nodup_cons.mp once
      obtain ⟨freeNext, freeMore⟩ := List.forall_mem_cons.mp free
      rw [chain_follows up freeNext, ih further onceMore]
      · intro location member
        exact mem_without.mpr ⟨freeMore location member, fun same => other (same ▸ member)⟩
      · intro last after ends above inside
        exact closed last after (by simpa [List.getLast?_cons_cons] using ends) above
          (mem_without.mp inside).1

theorem loop_parts {start : Location} {rest : List Location}
    (way : List.IsChain graph.Up (start :: (rest ++ [start]))) :
    List.IsChain graph.Up (start :: rest) ∧
      ∃ last, (start :: rest).getLast? = some last ∧ graph.Up last start := by
  rw [← List.cons_append] at way
  obtain ⟨upwards, -, back⟩ := List.isChain_append.mp way
  have ends : (start :: rest).getLast? = some ((start :: rest).getLast (List.cons_ne_nil _ _)) :=
    List.getLast?_eq_some_getLast _
  exact ⟨upwards, _, ends, back _ ends start rfl⟩

theorem cycle_through_loop {start : Location} {rest : List Location}
    (way : List.IsChain graph.Up (start :: (rest ++ [start]))) (once : (start :: rest).Nodup)
    (inside : ∀ location ∈ rest, location ∈ graph.locations) :
    graph.cycleThrough? start = some (start :: rest) := by
  obtain ⟨upwards, last, ends, returns⟩ := loop_parts way
  obtain ⟨other, onceMore⟩ := List.nodup_cons.mp once
  have chained : graph.chain start = start :: rest := by
    refine chain_along upwards onceMore ?_ ?_
    · intro location member
      exact mem_without.mpr ⟨inside location member, fun same => other (same ▸ member)⟩
    · intro final next finalEnds up among
      obtain rfl := Option.some.inj (ends.symm.trans finalEnds)
      obtain rfl := Option.some.inj (returns.symm.trans up)
      exact (mem_without.mp among).2 rfl
  simp only [cycleThrough?, chained, ends]
  exact if_pos returns

theorem loop_listed {start : Location} {rest : List Location}
    (way : List.IsChain graph.Up (start :: (rest ++ [start]))) (once : (start :: rest).Nodup)
    (inside : ∀ location ∈ start :: rest, location ∈ graph.locations) :
    ∃ known ∈ graph.cycles, start ∈ known := by
  obtain ⟨startInside, restInside⟩ := List.forall_mem_cons.mp inside
  exact cycle_through_listed startInside (cycle_through_loop way once restInside)
    (List.mem_cons_self ..)

end PromptLoom.Graph
