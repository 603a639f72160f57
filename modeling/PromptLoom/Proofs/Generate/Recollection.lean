import PromptLoom.Proofs.Generate.DrawnRun

/-!
# Choices remembered apart

A choice is remembered as the names of the slots with the keys chosen for them, a semicolon behind
each. Semicolons inside keys are not marked, so where one key of a pool goes on from another with a
semicolon, two choices may be remembered alike. Everywhere else the remembered text determines the
choice: a random run passes over a choice exactly when it was emitted before, and every other one can
still be drawn.
-/

namespace PromptLoom

set_option autoImplicit false

namespace Combinations

/-- No key of a pool begins with another key of the pool and a semicolon. -/
def KeysApart (pool : List Variation) : Prop :=
  ∀ first ∈ pool, ∀ second ∈ pool, ¬ first.key.toList ++ [';'] <+: second.key.toList

theorem keys_apart_of_plain {pool : List Variation}
    (plain : ∀ variation ∈ pool, ';' ∉ variation.key.toList) : KeysApart pool := by
  intro first _ second member start
  apply plain second member
  apply start.subset
  simp

theorem KeysApart.key_ends {pool : List Variation} (apart : KeysApart pool)
    {first second : Variation} (inside : first ∈ pool) (among : second ∈ pool)
    {rest more : List Char}
    (same : first.key.toList ++ ';' :: rest = second.key.toList ++ ';' :: more) :
    first.key = second.key ∧ rest = more := by
  rcases List.append_eq_append_iff.mp same with ⟨gap, longer, behind⟩ | ⟨gap, longer, behind⟩
  · cases gap with
    | nil =>
        rw [List.append_nil] at longer
        exact ⟨String.toList_inj.mp longer.symm, List.tail_eq_of_cons_eq behind⟩
    | cons c gap =>
        have semicolon : ';' = c := List.head_eq_of_cons_eq behind
        apply absurd _ (apart first inside second among)
        exact ⟨gap, by rw [longer, semicolon, List.append_assoc]; rfl⟩
  · cases gap with
    | nil =>
        rw [List.append_nil] at longer
        exact ⟨String.toList_inj.mp longer, (List.tail_eq_of_cons_eq behind).symm⟩
    | cons c gap =>
        have semicolon : ';' = c := List.head_eq_of_cons_eq behind
        apply absurd _ (apart second among first inside)
        exact ⟨gap, by rw [longer, semicolon, List.append_assoc]; rfl⟩

section Remembered

variable {slots : List Slot} {first second : List Nat}

theorem key_at_chars {choice : List Nat} {index position : Nat} {slot : Slot}
    {variation : Variation} (placed : slots[index]? = some slot)
    (chosen : choice[index]? = some position) (taken : slot.pool[position]? = some variation) :
    (keyAt slots choice index).toList =
      slot.name.toList ++ '=' :: (variation.key.toList ++ [';']) := by
  simp [keyAt, placed, chosen, taken]

theorem choice_key_chars (slots : List Slot) (order choice : List Nat) :
    (choiceKey slots order choice).toList =
      order.flatMap fun index => (keyAt slots choice index).toList := by
  rw [choiceKey, String.toList_join, List.flatMap_map]

theorem mem_by_name {index : Nat} : index ∈ Slot.byName slots ↔ index < slots.length := by
  rw [Slot.byName, List.mem_mergeSort, List.mem_range]

/-- Equal texts behind each other come from equal positions. -/
theorem positions_of_remembered
    (distinct : ∀ slot ∈ slots, (slot.pool.map Variation.key).Nodup)
    (apart : ∀ slot ∈ slots, KeysApart slot.pool)
    (firstWithin : Odometer.Within (Slot.poolSizes slots) first)
    (secondWithin : Odometer.Within (Slot.poolSizes slots) second) {order : List Nat}
    (inside : ∀ index ∈ order, index < slots.length)
    (same : (order.flatMap fun index => (keyAt slots first index).toList) =
      order.flatMap fun index => (keyAt slots second index).toList) :
    ∀ index ∈ order, first[index]? = second[index]? := by
  -- the induction is on the slots in the order in which their keys are written
  induction order with
  | nil => exact fun _ none => nomatch none
  | cons index order ih =>
      obtain ⟨here, others⟩ := List.forall_mem_cons.mp inside
      have placed := List.getElem?_eq_getElem here
      have member := List.getElem_mem here
      obtain ⟨one, picked, chosen, taken⟩ := Slot.variation_of_within firstWithin placed
      obtain ⟨two, other, chosenToo, takenToo⟩ := Slot.variation_of_within secondWithin placed
      rw [List.flatMap_cons, List.flatMap_cons, key_at_chars placed chosen taken,
        key_at_chars placed chosenToo takenToo, List.append_assoc, List.append_assoc,
        List.append_cancel_left_eq, List.cons_append, List.cons_append, List.append_assoc,
        List.append_assoc] at same
      obtain ⟨keys, rest⟩ := (apart _ member).key_ends (List.mem_of_getElem? taken)
        (List.mem_of_getElem? takenToo) (List.tail_eq_of_cons_eq same)
      refine List.forall_mem_cons.mpr ⟨?_, ih others rest⟩
      have bound : one < (slots[index].pool.map Variation.key).length := by
        rw [List.length_map]
        exact (List.getElem?_eq_some_iff.mp taken).1
      have shared : (slots[index].pool.map Variation.key)[one]? =
          (slots[index].pool.map Variation.key)[two]? := by
        rw [List.getElem?_map, List.getElem?_map, taken, takenToo]
        exact congrArg some keys
      have position : one = two := (List.getElem?_inj bound (distinct _ member)).mp shared
      rw [chosen, chosenToo, position]

theorem choice_key_injective
    (distinct : ∀ slot ∈ slots, (slot.pool.map Variation.key).Nodup)
    (apart : ∀ slot ∈ slots, KeysApart slot.pool)
    (firstWithin : Odometer.Within (Slot.poolSizes slots) first)
    (secondWithin : Odometer.Within (Slot.poolSizes slots) second)
    (same : choiceKey slots (Slot.byName slots) first =
      choiceKey slots (Slot.byName slots) second) : first = second := by
  have chars := congrArg String.toList same
  rw [choice_key_chars, choice_key_chars] at chars
  have positions := positions_of_remembered distinct apart firstWithin secondWithin
    (fun index member => mem_by_name.mp member) chars
  apply List.ext_getElem?
  intro index
  by_cases inside : index < slots.length
  · exact positions index (mem_by_name.mpr inside)
  · have none : ∀ choice, Odometer.Within (Slot.poolSizes slots) choice → choice[index]? = none := by
      intro choice within
      apply List.getElem?_eq_none
      rw [within.length_eq, Slot.poolSizes, List.length_map]
      exact Nat.le_of_not_lt inside
    rw [none first firstWithin, none second secondWithin]

end Remembered

end Combinations

theorem Draws.below_each_reached {bounds choice : List Nat} (within : Odometer.Within bounds choice)
    (draws : Draws) (shown : ∀ index value, choice[index]? = some value →
      draws.values (draws.used + index) = value) : (draws.belowEach bounds).1 = choice := by
  induction within generalizing draws with
  | nil => rfl
  | @cons value bound choice bounds small _ ih =>
      have first : draws.values draws.used = value := shown 0 value rfl
      have rest := ih (draws.below bound).2 fun index other placed => by
        have next := shown (index + 1) other placed
        rwa [Nat.add_comm index, ← Nat.add_assoc] at next
      calc _ = (draws.below bound).1 :: ((draws.below bound).2.belowEach bounds).1 := rfl
        _ = value :: choice := by rw [rest, below, first, Nat.mod_eq_of_lt small]

namespace Combinations

/-! ### What a run passes over -/

/-- Whether a random run that draws a choice would draw again. -/
def discards (run : Combinations) (choice : List Nat) : Bool :=
  match run.strategy with
  | .drawn made byName _ _ => made.contains (choiceKey run.prepared.slots byName choice)
  | _ => false

/-- Whether one of the first outputs of a run shows a choice. -/
def Emitted (run : Combinations) (count : Nat) (choice : List Nat) : Prop :=
  ∃ index < count, ∃ seed,
    run.output? index = some (combinationOf run.prepared run.separator index seed choice)

section Drawn

variable {run : Combinations} {budget : Nat}

theorem after_pulls_drawn (filled : ∀ slot ∈ run.prepared.slots, slot.pool ≠ [])
    (started : run = run.afterDraws [] budget run.draws) (count : Nat) :
    ∃ choices left draws, run.afterPulls count = run.afterDraws choices left draws ∧
      run.DrawnTo budget choices ∧ choices.length ≤ count ∧
      (choices.length < count → run.StoppedAt budget choices ∧ run.Spent choices left) := by
  -- the induction is on the pulls; a run that stopped stays as it is
  induction count with
  | zero =>
      exact ⟨[], budget, run.draws, started, drawn_initially started, Nat.le_refl 0,
        fun wrong => nomatch wrong⟩
  | succ count ih =>
      obtain ⟨choices, left, draws, -, made, few, stopped⟩ := ih
      rcases Nat.lt_or_eq_of_le few with fewer | rfl
      · obtain ⟨stop, -⟩ := stopped fewer
        obtain ⟨rest, last, settled, spent⟩ := stop.spent
        refine ⟨choices, rest, last, ?_, made, by omega, fun _ => ⟨stop, spent⟩⟩
        rw [stop.settled (Nat.lt_succ_of_lt fewer), settled]
      · rcases drawn_step filled made with ⟨choice, more⟩ | stop
        · obtain ⟨rest, later, reached⟩ := more.reached
          refine ⟨choice :: choices, rest, later, reached, more, Nat.le_refl _, fun wrong => ?_⟩
          exact absurd wrong (Nat.lt_irrefl _)
        · obtain ⟨rest, last, settled, spent⟩ := stop.spent
          exact ⟨choices, rest, last, settled, made, Nat.le_succ _, fun _ => ⟨stop, spent⟩⟩

theorem discards_after_draws (choices : List (List Nat)) (left : Nat) (draws : Draws)
    (choice : List Nat) : (run.afterDraws choices left draws).discards choice = true ↔
      ∃ other ∈ choices, run.remembered other = run.remembered choice := by
  change (choices.map run.remembered).contains (run.remembered choice) = true ↔ _
  rw [List.contains_iff_mem, List.mem_map]

/-- An output belongs to a choice that the run remembers like any choice with the same output. -/
theorem DrawnTo.remembers_output {choices : List (List Nat)} (made : run.DrawnTo budget choices)
    (named : (run.prepared.slots.map Slot.name).Nodup) {choice : List Nat}
    (within : Odometer.Within (Slot.poolSizes run.prepared.slots) choice) {index seed : Nat}
    (inside : index < choices.length) (output : run.output? index =
      some (combinationOf run.prepared run.separator index seed choice)) :
    ∃ other ∈ choices, run.remembered other = run.remembered choice := by
  have placed := List.getElem?_eq_getElem (by rwa [List.length_reverse] :
    index < choices.reverse.length)
  obtain ⟨seed', -, shown⟩ := made.outputs index _ placed
  have member := List.mem_reverse.mp (List.mem_of_getElem? placed)
  refine ⟨_, member, ?_⟩
  have same := congrArg Combination.variations (Option.some.inj (shown.symm.trans output))
  apply choice_key_eq named (made.within _ member) within
  intro name
  exact congrArg (fun map : NameMap Variation => (map.get? name).map Variation.key) same

theorem pull_drawn {choices : List (List Nat)} {left : Nat} {choice : List Nat} (draws : Draws)
    (unspent : ¬ run.Spent choices left)
    (next : (draws.belowEach (Slot.poolSizes run.prepared.slots)).1 = choice)
    (fresh : ∀ other ∈ choices, run.remembered other ≠ run.remembered choice) :
    ∃ seed, (run.afterDraws choices left draws).pull.1 =
      some (combinationOf run.prepared run.separator choices.length seed choice) := by
  have incomplete : (run.afterDraws choices left draws).isComplete = false := by
    rw [← Bool.not_eq_true, after_draws_complete]
    exact fun enough => unspent (.inl enough)
  have unknown : (choices.map run.remembered).contains (run.remembered choice) = false := by
    rw [← Bool.not_eq_true, List.contains_iff_mem, List.mem_map]
    rintro ⟨other, member, same⟩
    exact fresh other member same
  cases left with
  | zero => exact absurd (.inr (.inl rfl)) unspent
  | succ left =>
      have room : ¬ Slot.randomSpace run.prepared.slots ≤ (choices.map run.remembered).length := by
        rw [List.length_map]
        exact fun full => unspent (.inr (.inr full))
      have searched : search run.prepared.slots (Slot.byName run.prepared.slots)
          (Slot.randomSpace run.prepared.slots) (choices.map run.remembered) draws (left + 1) =
            ⟨some choice, run.remembered choice :: choices.map run.remembered, left,
              (draws.belowEach (Slot.poolSizes run.prepared.slots)).2⟩ := by
        rw [search, if_neg room]
        simp only [next]
        rw [if_neg (by rw [Bool.not_eq_true]; exact unknown)]
        rfl
      have found : (run.afterDraws choices (left + 1) draws).choose =
          (some choice, { run.afterDraws (choice :: choices) left
            (draws.belowEach (Slot.poolSizes run.prepared.slots)).2 with
              emitted := choices.length }) := by
        simp only [choose, afterDraws, searched, List.map_cons]
      obtain ⟨seed, -, pulled⟩ := pull_found incomplete found
      exact ⟨seed, by rw [pulled]; rfl⟩

end Drawn

section Apart

variable {run : Combinations} {budget : Nat} {choices : List (List Nat)} {choice : List Nat}
  (distinct : ∀ slot ∈ run.prepared.slots, (slot.pool.map Variation.key).Nodup)
  (apart : ∀ slot ∈ run.prepared.slots, KeysApart slot.pool)
  (made : run.DrawnTo budget choices)
  (within : Odometer.Within (Slot.poolSizes run.prepared.slots) choice)

include distinct apart made within

theorem remembered_iff_made :
    (∃ other ∈ choices, run.remembered other = run.remembered choice) ↔ choice ∈ choices := by
  constructor
  · rintro ⟨other, member, same⟩
    rwa [← choice_key_injective distinct apart (made.within other member) within same]
  · exact fun member => ⟨choice, member, rfl⟩

theorem made_iff_emitted (named : (run.prepared.slots.map Slot.name).Nodup) {count : Nat}
    (few : choices.length ≤ count)
    (stopped : choices.length < count → run.StoppedAt budget choices) :
    choice ∈ choices ↔ run.Emitted count choice := by
  constructor
  · intro member
    obtain ⟨index, inside, seed, output⟩ := made.emitted member
    exact ⟨index, Nat.lt_of_lt_of_le inside few, seed, output⟩
  · rintro ⟨index, before, seed, output⟩
    by_cases inside : index < choices.length
    · apply (remembered_iff_made distinct apart made within).mp
      exact made.remembers_output named within inside output
    · have behind := Nat.le_of_not_lt inside
      rw [(stopped (Nat.lt_of_le_of_lt behind before)).nothing_behind behind] at output
      cases output

end Apart

/-- Random generation from pools whose keys are told apart. Equal remembered texts come from equal
choices; a choice that is drawn is passed over exactly when an earlier output showed it; and as long
as something is wanted and attempts are left, every other choice can be the next output. -/
theorem remembered_apart (prepared : Prepared) (generation : Generation) (defaults : Defaults)
    (draws : Draws) (drawn : generation.mode = .random)
    (named : (prepared.slots.map Slot.name).Nodup)
    (distinct : ∀ slot ∈ prepared.slots, (slot.pool.map Variation.key).Nodup)
    (apart : ∀ slot ∈ prepared.slots, KeysApart slot.pool) :
    let slots := prepared.slots
    let wanted := generation.maxImages.getD defaults.maxImages
    let run := start prepared generation defaults draws
    (∀ first second, Odometer.Within (Slot.poolSizes slots) first →
      Odometer.Within (Slot.poolSizes slots) second →
      choiceKey slots (Slot.byName slots) first = choiceKey slots (Slot.byName slots) second →
      first = second) ∧
    ∀ count choice, Odometer.Within (Slot.poolSizes slots) choice →
      ((run.afterPulls count).discards choice = true ↔ run.Emitted count choice) ∧
      (¬ run.Emitted count choice → count < wanted → 0 < (run.afterPulls count).attemptsLeft →
        ∃ source seed, { run.afterPulls count with draws := source }.pull.1 =
          some (combinationOf prepared defaults.separator count seed choice)) := by
  intro slots wanted run
  refine ⟨fun first second => choice_key_injective distinct apart, fun count choice within => ?_⟩
  have filled : ∀ slot ∈ prepared.slots, slot.pool ≠ [] := by
    intro slot member
    apply List.length_pos_iff.mp
    exact within.positive _ (List.mem_map_of_mem member)
  obtain ⟨started, limited⟩ := start_drawn defaults draws drawn filled
  obtain ⟨choices, left, last, reached, made, few, stopped⟩ :=
    @after_pulls_drawn run _ filled started count
  have recalled := remembered_iff_made distinct apart made within
  have emitted := made_iff_emitted distinct apart made within named few fun fewer =>
    (stopped fewer).1
  constructor
  · rw [reached, discards_after_draws, recalled, emitted]
  · intro absent more tries
    rw [← emitted] at absent
    rw [reached] at tries
    have unspent : ¬ run.Spent choices left := by
      rintro (⟨target, limit, enough⟩ | none | full)
      · obtain rfl : wanted = target := Option.some.inj (limited.symm.trans limit)
        omega
      · exact Nat.ne_of_gt tries none
      · exact absent (made.complete (Nat.min_le_right ..) full within)
    have all : choices.length = count := by
      by_contra other
      exact unspent (stopped (Nat.lt_of_le_of_ne few other)).2
    have next := Draws.below_each_reached within ⟨fun index => choice.getD index 0, 0⟩
      fun index value placed => by simp [List.getD, placed]
    obtain ⟨seed, pulled⟩ := pull_drawn _ unspent next fun other member same =>
      absent (recalled.mp ⟨other, member, same⟩)
    rw [all] at pulled
    rw [reached]
    exact ⟨_, seed, pulled⟩

theorem crossed_loops_apart :
    let generation : Generation := ⟨.random, some 7, .random, some 20⟩
    let run := start crossedLoops generation .standard (.seeded 3)
    generation.mode = .random ∧ (crossedLoops.slots.map Slot.name).Nodup ∧
    (∀ slot ∈ crossedLoops.slots, (slot.pool.map Variation.key).Nodup) ∧
    (∀ slot ∈ crossedLoops.slots, KeysApart slot.pool) ∧
    Odometer.Within (Slot.poolSizes crossedLoops.slots) [1, 0, 2] ∧
    ¬ run.Emitted 0 [1, 0, 2] ∧ 0 < (run.afterPulls 0).attemptsLeft ∧
    (run.afterPulls 0).discards [1, 0, 2] = false ∧
    ∃ source seed, { run.afterPulls 0 with draws := source }.pull.1 =
      some (combinationOf crossedLoops "," 0 seed [1, 0, 2]) := by
  intro generation run
  have named : (crossedLoops.slots.map Slot.name).Nodup := by decide
  have distinct : ∀ slot ∈ crossedLoops.slots, (slot.pool.map Variation.key).Nodup := by decide
  have plain : ∀ slot ∈ crossedLoops.slots, ∀ variation ∈ slot.pool,
      ';' ∉ variation.key.toList := by decide
  have apart : ∀ slot ∈ crossedLoops.slots, KeysApart slot.pool := fun slot member =>
    keys_apart_of_plain (plain slot member)
  have within : Odometer.Within (Slot.poolSizes crossedLoops.slots) [1, 0, 2] :=
    .cons (by decide) (.cons (by decide) (.cons (by decide) .nil))
  have none : ¬ run.Emitted 0 [1, 0, 2] := fun ⟨_, early, _⟩ => nomatch early
  have tries : 0 < (run.afterPulls 0).attemptsLeft := by decide
  obtain ⟨-, states⟩ :=
    remembered_apart crossedLoops generation .standard (.seeded 3) rfl named distinct apart
  obtain ⟨passed, next⟩ := states 0 [1, 0, 2] within
  refine ⟨rfl, named, distinct, apart, within, none, tries, ?_, next none (by decide) tries⟩
  exact eq_false_of_ne_true fun known => none (passed.mp known)

def markedKeys : Prepared where
  positive := [.slot 0, .text " ", .slot 1]
  negative := []
  slots :=
    [⟨"A", ⟨.all, none⟩, [⟨"x", "one"⟩, ⟨"x;B=y", "two"⟩]⟩,
      ⟨"B", ⟨.all, none⟩, [⟨"y;B=z", "three"⟩, ⟨"z", "four"⟩]⟩]
  positiveText := "\x7bA\x7d \x7bB\x7d"
  negativeText := ""

/-- The two first variations are remembered like the two last ones, so of the four choices no run
gives more than three. -/
theorem marked_keys_collide :
    (markedKeys.slots.map Slot.name).Nodup ∧
    (∀ slot ∈ markedKeys.slots, (slot.pool.map Variation.key).Nodup) ∧
    Odometer.Within (Slot.poolSizes markedKeys.slots) [0, 0] ∧
    Odometer.Within (Slot.poolSizes markedKeys.slots) [1, 1] ∧
    choiceKey markedKeys.slots (Slot.byName markedKeys.slots) [0, 0] =
      choiceKey markedKeys.slots (Slot.byName markedKeys.slots) [1, 1] ∧
    ∀ draws, (start markedKeys ⟨.random, some 1, .fixed, some 4⟩ .standard draws).output? 3 =
      none := by
  have order : Slot.byName markedKeys.slots = [0, 1] := by
    simp [Slot.byName, markedKeys, List.range, List.range.loop, List.mergeSort]
  have texts : ∀ choice, Odometer.Within (Slot.poolSizes markedKeys.slots) choice →
      choiceKey markedKeys.slots (Slot.byName markedKeys.slots) choice ∈
        ["A=x;B=y;B=z;", "A=x;B=z;", "A=x;B=y;B=y;B=z;"] := by
    intro choice within
    rw [order]
    cases within with
    | @cons a _ _ _ small others =>
        cases others with
        | @cons b _ _ _ few none =>
            cases none
            have edge : a = 0 ∨ a = 1 := Nat.le_one_iff_eq_zero_or_eq_one.mp (Nat.le_of_lt_succ small)
            have side : b = 0 ∨ b = 1 := Nat.le_one_iff_eq_zero_or_eq_one.mp (Nat.le_of_lt_succ few)
            rcases edge with rfl | rfl <;> rcases side with rfl | rfl <;> decide +kernel
  refine ⟨by decide, by decide, .cons (by decide) (.cons (by decide) .nil),
    .cons (by decide) (.cons (by decide) .nil), by rw [order]; decide +kernel, fun draws => ?_⟩
  have filled : ∀ slot ∈ markedKeys.slots, slot.pool ≠ [] := by decide
  obtain ⟨started, limited⟩ := start_drawn .standard draws
    (show (⟨.random, some 1, .fixed, some 4⟩ : Generation).mode = .random from rfl) filled
  obtain ⟨choices, stopped⟩ := drawn_until_stopped filled limited (drawn_initially started)
  apply stopped.nothing_behind
  have known : (choices.map (choiceKey markedKeys.slots (Slot.byName markedKeys.slots))) ⊆
      ["A=x;B=y;B=z;", "A=x;B=z;", "A=x;B=y;B=y;B=z;"] := by
    intro text member
    obtain ⟨choice, among, rfl⟩ := List.mem_map.mp member
    exact texts choice (stopped.made.within choice among)
  have bound := (List.subperm_of_subset stopped.made.fresh known).length_le
  rwa [List.length_map] at bound

end Combinations

end PromptLoom
