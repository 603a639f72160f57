import Mathlib.Data.List.Cycle
import PromptLoom.Proofs.Graph.Cycles
import PromptLoom.Proofs.Paths
import PromptLoom.Proofs.Validation.Clean
import PromptLoom.Validation.Links

/-!
# Each cycle is reported once

A document has at most one parent, so its chain is a line that either ends or comes back to one of
its own members, and two cycles that share a document are the same. While the documents are visited,
the list of cycles holds every cycle through a visited document, each once. Every listed cycle gives
one error, and no two of them agree.
-/

namespace PromptLoom

open Relation

set_option autoImplicit false

namespace Graph

variable {graph : Graph}

/-- Every parent is a document of the graph. -/
def Closed (graph : Graph) : Prop :=
  ∀ edge ∈ graph.edges, edge.field = "implements" → edge.target ∈ graph.locations

instance (graph : Graph) : Decidable graph.Closed :=
  inferInstanceAs (Decidable (∀ edge ∈ graph.edges,
    edge.field = "implements" → edge.target ∈ graph.locations))

theorem Up.edge {child parent : Location} (up : graph.Up child parent) :
    ⟨child, "implements", parent⟩ ∈ graph.edges := by
  obtain ⟨⟨source, field, target⟩, found, rfl⟩ := Option.map_eq_some_iff.mp up
  have fits := List.find?_some found
  simp only [Bool.and_eq_true, beq_iff_eq] at fits
  obtain ⟨rfl, rfl⟩ := fits
  exact List.mem_of_find?_eq_some found

theorem Closed.inside (closed : graph.Closed) {child parent : Location}
    (up : graph.Up child parent) : parent ∈ graph.locations :=
  closed _ up.edge rfl

/-! ### The chain of a document -/

/-- A way up from a document that passes each of its ancestors once, as far as they are among some
locations. -/
structure Ascends (graph : Graph) (open_ : List Location) (start : Location)
    (rest : List Location) : Prop where
  way : List.IsChain graph.Up (start :: rest)
  once : rest.Nodup
  free : ∀ location ∈ rest, location ∈ open_
  ends : ∀ last ∈ (start :: rest).getLast?, ∀ next ∈ open_, graph.Up last next → next ∈ rest

theorem chain_within_ascends (open_ : List Location) (start : Location) :
    ∃ rest, graph.chainWithin open_ start = start :: rest ∧ graph.Ascends open_ start rest := by
  fun_induction chainWithin graph open_ start with
  | case1 open_ start alone =>
      refine ⟨[], rfl, .singleton _, .nil, by simp, ?_⟩
      intro last ends next _ up
      obtain rfl := Option.some.inj ends
      cases alone.symm.trans up
  | case2 open_ start parent up fresh shorter ih =>
      obtain ⟨more, same, further⟩ := ih
      have other : parent ∉ more := fun member =>
        (mem_without.mp (further.free parent member)).2 rfl
      refine ⟨parent :: more, by rw [same], .cons_cons up further.way,
        List.nodup_cons.mpr ⟨other, further.once⟩, ?_, ?_⟩
      · exact List.forall_mem_cons.mpr
          ⟨fresh, fun location member => (mem_without.mp (further.free location member)).1⟩
      · intro last ends next among above
        rw [List.getLast?_cons_cons] at ends
        by_cases again : next = parent
        · exact again ▸ List.mem_cons_self ..
        · have left : next ∈ without parent open_ := mem_without.mpr ⟨among, again⟩
          exact List.mem_cons_of_mem _ (further.ends last ends next left above)
  | case3 open_ start parent up passed =>
      refine ⟨[], rfl, .singleton _, .nil, by simp, ?_⟩
      intro last ends next among above
      obtain rfl := Option.some.inj ends
      obtain rfl := Option.some.inj (up.symm.trans above)
      exact absurd among passed

theorem chain_ascends (graph : Graph) (start : Location) :
    ∃ rest, graph.chain start = start :: rest ∧ start ∉ rest ∧
      graph.Ascends (without start graph.locations) start rest := by
  obtain ⟨rest, same, ascends⟩ :=
    @chain_within_ascends graph (without start graph.locations) start
  exact ⟨rest, same, fun member => (mem_without.mp (ascends.free start member)).2 rfl, ascends⟩

theorem Ascends.next {open_ : List Location} {start : Location} {rest : List Location}
    (ascends : graph.Ascends open_ start rest) {child parent : Location}
    (member : child ∈ start :: rest) (up : graph.Up child parent) :
    (start :: rest).getLast? = some child ∨ parent ∈ rest := by
  obtain ⟨before, after, parts⟩ := List.append_of_mem member
  rcases after with _ | ⟨next, after⟩
  · exact .inl (by rw [parts]; simp)
  · have way := ascends.way
    rw [parts] at way
    have follows : graph.Up child next := (List.isChain_append_cons_cons.mp way).2.1
    obtain rfl := Option.some.inj (follows.symm.trans up)
    refine .inr ?_
    rcases before with _ | ⟨first, before⟩
    · rw [(List.cons.inj parts).2]
      exact List.mem_cons_self ..
    · rw [(List.cons.inj parts).2]
      simp

theorem mem_chain_iff (closed : graph.Closed) {start location : Location} :
    location ∈ graph.chain start ↔ ReflTransGen graph.Up start location := by
  constructor
  · intro member
    obtain ⟨_, _, between⟩ := @chain_connected graph (without start graph.locations) start
    exact (between location member).1
  · intro way
    obtain ⟨rest, same, _, ascends⟩ := chain_ascends graph start
    rw [same]
    induction way with
    | refl => exact List.mem_cons_self ..
    | @tail child parent _ up ih =>
        rcases ascends.next ih up with last | later
        · by_cases again : parent = start
          · exact again ▸ List.mem_cons_self ..
          · have left : parent ∈ without start graph.locations :=
              mem_without.mpr ⟨closed.inside up, again⟩
            exact List.mem_cons_of_mem _ (ascends.ends child last parent left up)
        · exact List.mem_cons_of_mem _ later

/-! ### Cycles -/

/-- Documents in a circle, each once, each of them having the next one as its parent. -/
structure IsCycle (graph : Graph) (cycle : Cycle Location) : Prop where
  filled : cycle ≠ Cycle.nil
  once : cycle.Nodup
  upwards : cycle.Chain graph.Up

theorem cycle_through_is_cycle {start : Location} {members : List Location}
    (found : graph.cycleThrough? start = some members) :
    start ∈ members.head? ∧ graph.IsCycle members := by
  obtain ⟨rest, same, other, ascends⟩ := chain_ascends graph start
  simp only [cycleThrough?, same] at found
  split at found
  · next returns =>
      obtain rfl := Option.some.inj found
      refine ⟨rfl, by simp, ?_, ?_⟩
      · exact Cycle.nodup_coe_iff.mpr (List.nodup_cons.mpr ⟨other, ascends.once⟩)
      · rw [Cycle.chain_coe_cons, ← List.cons_append]
        refine ascends.way.append (.singleton _) ?_
        intro last ends first begins
        obtain rfl := Option.some.inj begins
        rwa [Option.mem_def.mp ends, Option.bind_some] at returns
  · cases found

theorem IsCycle.turned_to {cycle : Cycle Location} (circular : graph.IsCycle cycle)
    {start : Location} (member : start ∈ cycle) :
    ∃ rest : List Location, cycle = ↑(start :: rest) ∧ (start :: rest).Nodup ∧
      List.IsChain graph.Up (start :: (rest ++ [start])) := by
  obtain ⟨members, rfl⟩ := Quot.exists_rep cycle
  obtain ⟨before, after, rfl⟩ := List.append_of_mem (Cycle.mem_coe_iff.mp member)
  have turned : ((before ++ start :: after : List Location) : Cycle Location) =
      ↑(start :: (after ++ before)) :=
    Cycle.coe_eq_coe.mpr List.isRotated_append
  have once := circular.once
  have upwards := circular.upwards
  change Cycle.Nodup ((before ++ start :: after : List Location) : Cycle Location) at once
  change Cycle.Chain graph.Up ((before ++ start :: after : List Location) : Cycle Location)
    at upwards
  rw [turned] at once upwards
  exact ⟨after ++ before, turned, Cycle.nodup_coe_iff.mp once, upwards⟩

theorem IsCycle.inside (closed : graph.Closed) {cycle : Cycle Location}
    (circular : graph.IsCycle cycle) {location : Location} (member : location ∈ cycle) :
    location ∈ graph.locations := by
  obtain ⟨_, _, _, way⟩ := circular.turned_to member
  obtain ⟨_, _, _, returns⟩ := loop_parts way
  exact closed.inside returns

theorem IsCycle.found (closed : graph.Closed) {cycle : Cycle Location}
    (circular : graph.IsCycle cycle) {start : Location} (member : start ∈ cycle) :
    ∃ members : List Location, graph.cycleThrough? start = some members ∧ cycle = ↑members := by
  obtain ⟨rest, turned, once, way⟩ := circular.turned_to member
  refine ⟨start :: rest, cycle_through_loop way once ?_, turned⟩
  intro location later
  refine circular.inside closed ?_
  rw [turned]
  exact Cycle.mem_coe_iff.mpr (List.mem_cons_of_mem _ later)

/-- Two cycles that share a document are the same. -/
theorem IsCycle.eq_of_mem (closed : graph.Closed) {cycle other : Cycle Location}
    (circular : graph.IsCycle cycle) (otherCircular : graph.IsCycle other) {location : Location}
    (member : location ∈ cycle) (otherMember : location ∈ other) : cycle = other := by
  obtain ⟨members, found, rfl⟩ := circular.found closed member
  obtain ⟨others, otherFound, rfl⟩ := otherCircular.found closed otherMember
  rw [Option.some.inj (found.symm.trans otherFound)]

/-- A document that is above itself is a member of a cycle: it is the parent of the last member of
its chain, since the parents of the others come behind it. -/
theorem cycle_of_return (closed : graph.Closed) {start : Location}
    (returns : TransGen graph.Up start start) :
    ∃ cycle, graph.IsCycle cycle ∧ start ∈ cycle := by
  obtain ⟨before, reached, up⟩ := TransGen.tail'_iff.mp returns
  obtain ⟨rest, same, other, ascends⟩ := chain_ascends graph start
  have member := (mem_chain_iff closed).mpr reached
  rw [same] at member
  have last := (ascends.next member up).resolve_right other
  have found : graph.cycleThrough? start = some (start :: rest) := by
    simp only [cycleThrough?, same, last]
    exact if_pos up
  exact ⟨_, (cycle_through_is_cycle found).2, Cycle.mem_coe_iff.mpr (List.mem_cons_self ..)⟩

/-! ### Listing them -/

/-- The cycles that are known when some documents have been visited. -/
structure Knows (graph : Graph) (visited : List Location) (known : List (List Location)) :
    Prop where
  sound : ∀ members ∈ known, graph.IsCycle members
  once : (known.map Cycle.ofList).Nodup
  complete : ∀ location ∈ visited, ∀ cycle, graph.IsCycle cycle → location ∈ cycle →
    cycle ∈ known.map Cycle.ofList

theorem Knows.keep {visited : List Location} {known : List (List Location)}
    (knows : graph.Knows visited known) {place : Location}
    (through : ∀ cycle, graph.IsCycle cycle → place ∈ cycle → cycle ∈ known.map Cycle.ofList) :
    graph.Knows (visited ++ [place]) known where
  sound := knows.sound
  once := knows.once
  complete := by
    intro location member cycle circular inside
    rcases List.mem_append.mp member with before | now
    · exact knows.complete location before cycle circular inside
    · obtain rfl := List.mem_singleton.mp now
      exact through cycle circular inside

theorem Knows.append (closed : graph.Closed) {visited : List Location}
    {known : List (List Location)} (knows : graph.Knows visited known) {place : Location}
    {members : List Location} (own : graph.IsCycle members) (part : place ∈ members)
    (fresh : ↑members ∉ known.map Cycle.ofList) :
    graph.Knows (visited ++ [place]) (known ++ [members]) := by
  have added : (known ++ [members]).map Cycle.ofList =
      known.map Cycle.ofList ++ [(members : Cycle Location)] :=
    List.map_append
  have longer : graph.Knows visited (known ++ [members]) := by
    refine ⟨?_, ?_, ?_⟩
    · intro listed member
      rcases List.mem_append.mp member with before | now
      · exact knows.sound listed before
      · rwa [List.mem_singleton.mp now]
    · rw [added]
      exact List.concat_eq_append ▸ knows.once.concat fresh
    · intro location member cycle circular inside
      rw [added]
      exact List.mem_append_left _ (knows.complete location member cycle circular inside)
  refine longer.keep ?_
  intro cycle circular inside
  rw [circular.eq_of_mem closed own inside (Cycle.mem_coe_iff.mpr part), added]
  exact List.mem_append_right _ (List.mem_singleton_self _)

theorem Knows.met_iff (closed : graph.Closed) {visited : List Location}
    {known : List (List Location)} (knows : graph.Knows visited known) {place : Location}
    {members : List Location} (own : graph.IsCycle members) (part : place ∈ members) :
    (known.any fun other => other.contains place) = true ↔ ↑members ∈ known.map Cycle.ofList := by
  simp only [List.any_eq_true, List.contains_iff_mem, List.mem_map]
  constructor
  · rintro ⟨other, among, holds⟩
    refine ⟨other, among, ?_⟩
    exact (knows.sound other among).eq_of_mem closed own (Cycle.mem_coe_iff.mpr holds)
      (Cycle.mem_coe_iff.mpr part)
  · rintro ⟨other, among, same⟩
    have holds : place ∈ (other : Cycle Location) := same ▸ Cycle.mem_coe_iff.mpr part
    exact ⟨other, among, Cycle.mem_coe_iff.mp holds⟩

theorem Knows.add_cycle (closed : graph.Closed) {visited : List Location}
    {known : List (List Location)} (knows : graph.Knows visited known) (place : Location) :
    graph.Knows (visited ++ [place]) (graph.addCycle known place) := by
  unfold Graph.addCycle
  split
  · next members found =>
      obtain ⟨begins, own⟩ := cycle_through_is_cycle found
      have part := List.mem_of_mem_head? begins
      have met := knows.met_iff closed own part
      split
      · next holds =>
          refine knows.keep ?_
          intro cycle circular inside
          rw [circular.eq_of_mem closed own inside (Cycle.mem_coe_iff.mpr part)]
          exact met.mp holds
      · next misses => exact knows.append closed own part (mt met.mpr misses)
  · next none =>
      refine knows.keep ?_
      intro cycle circular inside
      obtain ⟨members, through, _⟩ := circular.found closed inside
      cases none.symm.trans through

/-- When every document has been visited, every cycle through one of them is known. -/
theorem visited_cycles (closed : graph.Closed) (visited : List Location) :
    graph.Knows visited (visited.foldl graph.addCycle []) := by
  -- the induction is on the documents visited, from the last one
  induction visited using List.reverseRecOn with
  | nil => exact ⟨by simp, by simp, by simp⟩
  | append_singleton before place ih =>
      rw [List.foldl_append]
      exact ih.add_cycle closed place

theorem mem_cycles_iff (closed : graph.Closed) (cycle : Cycle Location) :
    cycle ∈ graph.cycles.map Cycle.ofList ↔ graph.IsCycle cycle := by
  have knows := visited_cycles closed graph.locations
  constructor
  · intro listed
    obtain ⟨members, among, rfl⟩ := List.mem_map.mp listed
    exact knows.sound members among
  · intro circular
    obtain ⟨members, rfl⟩ := Quot.exists_rep cycle
    rcases members with _ | ⟨first, rest⟩
    · exact absurd rfl circular.filled
    · have member : first ∈ ((first :: rest : List Location) : Cycle Location) :=
        Cycle.mem_coe_iff.mpr (List.mem_cons_self ..)
      exact knows.complete first (circular.inside closed member) _ circular member

theorem cycle_members_iff (closed : graph.Closed) (place : Location) :
    (∃ members ∈ graph.cycles, place ∈ members) ↔ TransGen graph.Up place place := by
  constructor
  · rintro ⟨members, listed, member⟩
    exact cycles_returning graph members listed place member
  · intro returns
    obtain ⟨cycle, circular, inside⟩ := cycle_of_return closed returns
    obtain ⟨members, listed, rfl⟩ := List.mem_map.mp ((mem_cycles_iff closed cycle).mpr circular)
    exact ⟨members, listed, Cycle.mem_coe_iff.mp inside⟩

end Graph

/-! ### Reporting them -/

/-- Findings that do not agree with each other are all added, except those that were listed
before. -/
theorem Report.extend_apart (report : Report) {findings : List Finding}
    (apart : findings.Pairwise fun earlier later => later.agrees earlier = false) :
    report.extend findings =
      ⟨report.findings ++ findings.filter fun finding => !report.findings.any finding.agrees⟩ := by
  unfold extend
  induction findings generalizing report with
  | nil => rw [List.foldl_nil, List.filter_nil, List.append_nil]
  | cons finding rest ih =>
      obtain ⟨apartFirst, apartRest⟩ := List.pairwise_cons.mp apart
      rw [List.foldl_cons, ih _ apartRest, push]
      cases listed : report.findings.any finding.agrees with
      | true => simp [listed]
      | false =>
          have others : (rest.filter fun later =>
              !(report.findings ++ [finding]).any later.agrees) =
                rest.filter fun later => !report.findings.any later.agrees := by
            refine List.filter_congr fun later member => ?_
            rw [List.any_append, List.any_cons, apartFirst later member, List.any_nil,
              Bool.or_false, Bool.or_false]
          simp only [Bool.false_eq_true, if_false, others, List.filter_cons, listed, Bool.not_false,
            if_true, List.append_assoc, List.singleton_append]

namespace Graph

variable {graph : Graph}

/-- The error of a cycle stands on the first of its members and lists them in order, from the first
back to it. -/
def Describes (members : List Location) (finding : Finding) : Prop :=
  ∃ first rest, members = first :: rest ∧
    finding =
      { severity := .error
        category := .inheritance
        file := .ofLocation first
        field := some "implements"
        message := "inheritance cycle: " ++ " -> ".intercalate
          ((first :: rest ++ [first]).map fun place => (Path.ofLocation place).fileName?.getD "") }

theorem cycle_error_describes {members : List Location} (circular : graph.IsCycle members) :
    Describes members (.ofError (cycleError members)) := by
  rcases members with _ | ⟨first, rest⟩
  · exact absurd rfl circular.filled
  · refine ⟨first, rest, rfl, ?_⟩
    have names : Resolver.cycleNames ((first :: rest).map Path.ofLocation ++ [.ofLocation first]) =
        (first :: rest ++ [first]).map fun place => (Path.ofLocation place).fileName?.getD "" := by
      simp only [Resolver.cycleNames, List.map_append, List.map_map, List.map_cons, List.map_nil,
        Function.comp_def]
    rw [← names]
    rfl

/-- Every document stands at a place that a file can have. -/
def Named (graph : Graph) : Prop :=
  ∀ location ∈ graph.locations, ∀ name ∈ location, Path.IsName name

instance (graph : Graph) : Decidable graph.Named :=
  inferInstanceAs (Decidable (∀ location ∈ graph.locations, ∀ name ∈ location, Path.IsName name))

/-- Two cycles begin with different documents, so their errors stand on different files. -/
theorem cycle_findings_apart (closed : graph.Closed) (named : graph.Named) :
    graph.cycleFindings.Pairwise fun earlier later => later.agrees earlier = false := by
  have knows := visited_cycles closed graph.locations
  refine List.pairwise_map.mpr ((List.pairwise_map.mp knows.once).imp_of_mem ?_)
  intro members others listed otherListed differ
  have circular := knows.sound members listed
  have otherCircular := knows.sound others otherListed
  obtain ⟨first, rest, rfl, told⟩ := cycle_error_describes circular
  obtain ⟨otherFirst, otherRest, rfl, otherTold⟩ := cycle_error_describes otherCircular
  rw [told, otherTold]
  refine Bool.eq_false_iff.mpr fun alike => differ ?_
  simp only [Finding.agrees, Bool.and_eq_true] at alike
  have begins : first ∈ ((first :: rest : List Location) : Cycle Location) :=
    Cycle.mem_coe_iff.mpr (List.mem_cons_self ..)
  have otherBegins : otherFirst ∈ ((otherFirst :: otherRest : List Location) : Cycle Location) :=
    Cycle.mem_coe_iff.mpr (List.mem_cons_self ..)
  have same : otherFirst = first :=
    Path.eq_of_agrees (named _ (otherCircular.inside closed otherBegins))
      (named _ (circular.inside closed begins)) alike.1.1.2
  exact circular.eq_of_mem closed otherCircular begins (same ▸ otherBegins)

theorem cycle_findings_describe (closed : graph.Closed) :
    List.Forall₂ Describes graph.cycles graph.cycleFindings := by
  refine List.forall₂_map_right_iff.mpr (List.forall₂_same.mpr ?_)
  intro members listed
  exact cycle_error_describes ((visited_cycles closed graph.locations).sound members listed)

theorem cycle_findings_error_iff (closed : graph.Closed) :
    graph.cycleFindings.any Finding.isError = true ↔ ∃ cycle, graph.IsCycle cycle := by
  simp only [← mem_cycles_iff closed, cycleFindings, List.any_map, List.any_eq_true,
    Function.comp_apply, Finding.of_error_is_error, and_true, List.mem_map]
  constructor
  · rintro ⟨members, among⟩
    exact ⟨_, members, among, rfl⟩
  · rintro ⟨_, members, among, _⟩
    exact ⟨members, among⟩

/-- In a graph whose parents are among its documents, the list of cycles holds each cycle once, and
each listed cycle gives one error, which a report takes up once. A document that only leads into a
cycle is in none of them, and there is an error exactly when there is a cycle. The chain of every
document is a way up that passes the document and each of its ancestors once. -/
theorem cycles_reported_once (closed : graph.Closed) :
    ((graph.cycles.map Cycle.ofList).Nodup ∧
      ∀ cycle, cycle ∈ graph.cycles.map Cycle.ofList ↔ graph.IsCycle cycle) ∧
    List.Forall₂ Describes graph.cycles graph.cycleFindings ∧
    (graph.Named → ∀ report : Report, report.extend graph.cycleFindings =
      ⟨report.findings ++
        graph.cycleFindings.filter fun finding => !report.findings.any finding.agrees⟩) ∧
    (∀ place, (∃ members ∈ graph.cycles, place ∈ members) ↔ TransGen graph.Up place place) ∧
    (graph.cycleFindings.any Finding.isError = true ↔ ∃ cycle, graph.IsCycle cycle) ∧
    ∀ start, (graph.chain start).head? = some start ∧ (graph.chain start).Nodup ∧
      List.IsChain graph.Up (graph.chain start) ∧
      ∀ location, location ∈ graph.chain start ↔ ReflTransGen graph.Up start location := by
  refine ⟨⟨(visited_cycles closed graph.locations).once, mem_cycles_iff closed⟩,
    cycle_findings_describe closed,
    fun named report => report.extend_apart (cycle_findings_apart closed named),
    cycle_members_iff closed, cycle_findings_error_iff closed, ?_⟩
  intro start
  obtain ⟨rest, same, other, ascends⟩ := chain_ascends graph start
  have once : (start :: rest).Nodup := List.nodup_cons.mpr ⟨other, ascends.once⟩
  refine ⟨?_, ?_, ?_, fun location => mem_chain_iff closed⟩
  · rw [same, List.head?_cons]
  · rwa [same]
  · rw [same]
    exact ascends.way

def snail : Graph :=
  { empty with
    nodes := [⟨["tail"], none⟩, ⟨["left"], none⟩, ⟨["alone"], none⟩, ⟨["right"], none⟩,
      ⟨["self"], none⟩]
    edges := [⟨["tail"], "implements", ["left"]⟩, ⟨["left"], "implements", ["right"]⟩,
      ⟨["alone"], "imports.Self", ["self"]⟩, ⟨["right"], "implements", ["left"]⟩,
      ⟨["self"], "implements", ["self"]⟩] }

theorem snail_cycles_reported :
    snail.Closed ∧ snail.Named ∧
      Cycle.ofList [["left"], ["right"]] ∈ snail.cycles.map Cycle.ofList ∧
      Cycle.ofList [["self"]] ∈ snail.cycles.map Cycle.ofList ∧
      ¬ (∃ members ∈ snail.cycles, ["tail"] ∈ members) ∧
      Report.empty.extend snail.cycleFindings = ⟨snail.cycleFindings⟩ ∧
      ["right"] ∈ snail.chain ["tail"] := by
  have closed : snail.Closed := by decide
  have named : snail.Named := by decide
  obtain ⟨⟨_, listed⟩, _, taken, inside, _, chains⟩ := cycles_reported_once closed
  have tailUp : snail.Up ["tail"] ["left"] := rfl
  have leftUp : snail.Up ["left"] ["right"] := rfl
  have rightUp : snail.Up ["right"] ["left"] := rfl
  have selfUp : snail.Up ["self"] ["self"] := rfl
  refine ⟨closed, named, ?_, ?_, ?_, ?_, ?_⟩
  · refine (listed _).mpr ⟨by decide, by decide, ?_⟩
    exact (Cycle.chain_coe_cons ..).mpr (.cons_cons leftUp (.cons_cons rightUp (.singleton _)))
  · refine (listed _).mpr ⟨by decide, by decide, ?_⟩
    exact (Cycle.chain_coe_cons ..).mpr (.cons_cons selfUp (.singleton _))
  · rw [inside]
    intro returns
    obtain ⟨before, _, up⟩ := TransGen.tail'_iff.mp returns
    have into : ∀ edge ∈ snail.edges, edge.target ≠ ["tail"] := by decide
    exact into _ up.edge rfl
  · rw [taken named]
    simp [Report.empty]
  · exact ((chains ["tail"]).2.2.2 ["right"]).mpr (.head tailUp (.single leftUp))

/-! ### Below an entry -/

/-- Exploring visits every document that a reference leads to, so it leaves no parent out. -/
theorem of_entry_closed {workspace : Workspace} (path : Path) {cache : Cache}
    (shown : workspace.Grown .empty cache) : (ofEntry workspace path cache).1.Closed := by
  have charts := of_entry_charts path shown
  intro edge member _
  obtain ⟨document, config, reference, target, reads, _, written, leads, arrived⟩ :=
    charts.edges edge member
  rw [← arrived]
  exact Charts.met_inside (charts.opened document config reads _ _ _ written leads).1

theorem of_entry_named {workspace : Workspace} (path : Path) {cache : Cache}
    (shown : workspace.Grown .empty cache)
    (fit : ∀ location ∈ workspace.tree.locations, ∀ name ∈ location, Path.IsName name) :
    (ofEntry workspace path cache).1.Named := by
  intro location inside
  obtain ⟨node, member, rfl⟩ := List.mem_map.mp inside
  obtain ⟨document, held, same, _⟩ := (of_entry_charts path shown).nodes node member
  exact same ▸ fit document.location held.location_mem

/-- The cycles below an entry are listed once each, a report takes up one error for each of them, and
there is an error exactly when a document below the entry follows itself. -/
theorem of_entry_cycles_reported {workspace : Workspace} (path : Path) {cache : Cache}
    (shown : workspace.Grown .empty cache)
    (fit : ∀ location ∈ workspace.tree.locations, ∀ name ∈ location, Path.IsName name) :
    let graph := (ofEntry workspace path cache).1
    ((graph.cycles.map Cycle.ofList).Nodup ∧
      ∀ cycle, cycle ∈ graph.cycles.map Cycle.ofList ↔ graph.IsCycle cycle) ∧
    List.Forall₂ Describes graph.cycles graph.cycleFindings ∧
    (∀ report : Report, report.extend graph.cycleFindings =
      ⟨report.findings ++
        graph.cycleFindings.filter fun finding => !report.findings.any finding.agrees⟩) ∧
    (graph.cycleFindings.any Finding.isError = true ↔
      ∃ place, TransGen graph.Up place place) := by
  intro graph
  have closed : graph.Closed := of_entry_closed path shown
  have named : graph.Named := of_entry_named path shown fit
  refine ⟨⟨(visited_cycles closed graph.locations).once, mem_cycles_iff closed⟩,
    cycle_findings_describe closed,
    fun report => report.extend_apart (cycle_findings_apart closed named), ?_⟩
  rw [cycle_findings_error_iff closed]
  constructor
  · rintro ⟨cycle, circular⟩
    obtain ⟨members, listed, rfl⟩ := List.mem_map.mp ((mem_cycles_iff closed cycle).mpr circular)
    obtain ⟨place, member⟩ := List.exists_mem_of_ne_nil members fun none =>
      circular.filled (none ▸ rfl)
    exact ⟨place, (cycle_members_iff closed place).mp ⟨members, listed, member⟩⟩
  · rintro ⟨place, returns⟩
    obtain ⟨cycle, circular, _⟩ := cycle_of_return closed returns
    exact ⟨cycle, circular⟩

end Graph

end PromptLoom
