import PromptLoom.Proofs.Generate.ChoiceKeys
import PromptLoom.Proofs.Generate.NestedRun

/-!
# Runs of draws

A random run draws choices until one is new. Its state is the list of the choices that were emitted,
newest first, with the attempts that are left: no two of them are remembered alike, and each took at
least one attempt. A pull gives nothing only when enough choices were emitted, the attempts are used
up, or no choice is left, and the run stays in that state.
-/

namespace PromptLoom

set_option autoImplicit false

namespace Draws

theorem below_each_used (draws : Draws) (bounds : List Nat) :
    (draws.belowEach bounds).2.used = draws.used + bounds.length := by
  induction bounds generalizing draws with
  | nil => rfl
  | cons bound bounds ih =>
      have rest := ih (draws.below bound).2
      rw [List.length_cons, Nat.add_comm bounds.length, ← Nat.add_assoc]
      exact rest

end Draws

namespace Combinations

def seedDraws (mode : SeedMode) (outputs : Nat) : Nat :=
  match mode with
  | .random => outputs
  | _ => 0

theorem seed_for_used (seeds : Seeds) (index : Nat) (draws : Draws) :
    (seeds.seedFor index draws).2.used = draws.used + seedDraws seeds.mode 1 := by
  unfold Seeds.seedFor seedDraws
  cases seeds.mode <;> rfl

theorem seed_draws_add (mode : SeedMode) (outputs more : Nat) :
    seedDraws mode (outputs + more) = seedDraws mode outputs + seedDraws mode more := by
  cases mode <;> rfl

/-- A search uses up attempts, each with a draw for every slot. It finds a choice that was not made
yet, or no attempts or no choices are left. -/
theorem search_cases {slots : List Slot} (filled : ∀ slot ∈ slots, slot.pool ≠ [])
    (order : List Nat) (space : Nat) (made : List String) (draws : Draws) (left : Nat) :
    ∃ attempts rest later,
      attempts + rest = left ∧ later.used = draws.used + attempts * slots.length ∧
      (search slots order space made draws left = ⟨none, made, rest, later⟩ ∧
          (rest = 0 ∨ space ≤ made.length) ∨
        ∃ choice,
          search slots order space made draws left =
            ⟨some choice, choiceKey slots order choice :: made, rest, later⟩ ∧
          0 < attempts ∧ Odometer.Within (Slot.poolSizes slots) choice ∧
          choiceKey slots order choice ∉ made) := by
  -- the induction is on the attempts
  induction left generalizing draws with
  | zero => exact ⟨0, 0, draws, rfl, by rw [Nat.zero_mul]; rfl, .inl ⟨rfl, .inl rfl⟩⟩
  | succ left ih =>
      by_cases full : space ≤ made.length
      · refine ⟨0, left + 1, draws, Nat.zero_add _, by rw [Nat.zero_mul]; rfl, .inl ⟨?_, .inr full⟩⟩
        simp only [search, if_pos full]
      · have within := Draws.below_each_within (Slot.pool_sizes_pos filled) draws
        have used := draws.below_each_used (Slot.poolSizes slots)
        rcases drawn : draws.belowEach (Slot.poolSizes slots) with ⟨choice, later⟩
        rw [drawn] at within used
        rw [Slot.poolSizes, List.length_map] at used
        by_cases known : made.contains (choiceKey slots order choice) = true
        · -- the attempt is spent and the rest of the search goes on
          obtain ⟨attempts, rest, last, split, spent, outcome⟩ := ih later
          have total : last.used = draws.used + (attempts + 1) * slots.length := by
            rw [spent, used, Nat.add_mul]
            omega
          have again : search slots order space made draws (left + 1) =
              search slots order space made later left := by
            simp only [search, if_neg full, drawn, if_pos known]
          rw [again]
          refine ⟨attempts + 1, rest, last, by omega, total, ?_⟩
          rcases outcome with stopped | ⟨choice, found, _, rest⟩
          · exact .inl stopped
          · exact .inr ⟨choice, found, Nat.succ_pos _, rest⟩
        · refine ⟨1, left, later, Nat.add_comm .., by rw [used, Nat.one_mul], .inr ⟨choice, ?_⟩⟩
          refine ⟨?_, Nat.one_pos, within, ?_⟩
          · simp only [search, if_neg full, drawn, if_neg known]
          · rwa [List.contains_iff_mem] at known

/-- Nothing is known to the first search, so its first draw is new. -/
theorem search_first (slots : List Slot) (order : List Nat) {space left : Nat} (draws : Draws)
    (room : 0 < space) (attempts : 0 < left) :
    (search slots order space [] draws left).choice ≠ none := by
  obtain ⟨rest, rfl⟩ := Nat.exists_eq_succ_of_ne_zero (Nat.ne_of_gt attempts)
  simp [search, Nat.ne_of_gt room]

def remembered (run : Combinations) (choice : List Nat) : String :=
  choiceKey run.prepared.slots (Slot.byName run.prepared.slots) choice

/-- The run after some choices, newest first, with some attempts left. -/
def afterDraws (run : Combinations) (choices : List (List Nat)) (left : Nat) (draws : Draws) :
    Combinations where
  prepared := run.prepared
  separator := run.separator
  seeds := run.seeds
  draws
  strategy := .drawn (choices.map run.remembered) (Slot.byName run.prepared.slots) left
    (Slot.randomSpace run.prepared.slots)
  target := run.target
  emitted := choices.length

/-- Whether a run that has made some choices can make no more. -/
def Spent (run : Combinations) (choices : List (List Nat)) (left : Nat) : Prop :=
  (∃ target, run.target = some target ∧ target ≤ choices.length) ∨ left = 0 ∨
    Slot.randomSpace run.prepared.slots ≤ choices.length

theorem after_draws_complete (run : Combinations) (choices : List (List Nat)) (left : Nat)
    (draws : Draws) :
    (run.afterDraws choices left draws).isComplete = true ↔
      ∃ target, run.target = some target ∧ target ≤ choices.length := by
  unfold isComplete afterDraws
  cases run.target with
  | none => simp
  | some target => simp

theorem pull_spent {run : Combinations} {choices : List (List Nat)} {left : Nat} (draws : Draws)
    (spent : run.Spent choices left) :
    (run.afterDraws choices left draws).pull = (none, run.afterDraws choices left draws) := by
  unfold pull
  by_cases complete : (run.afterDraws choices left draws).isComplete = true
  · rw [if_pos complete]
  · have stopped : search run.prepared.slots (Slot.byName run.prepared.slots)
        (Slot.randomSpace run.prepared.slots) (choices.map run.remembered) draws left =
          ⟨none, choices.map run.remembered, left, draws⟩ := by
      rcases spent with enough | rfl | full
      · exact absurd ((after_draws_complete run choices left draws).mpr enough) complete
      · rfl
      · cases left with
        | zero => rfl
        | succ left => rw [search, if_pos (by rwa [List.length_map])]
    rw [if_neg complete]
    simp only [choose, afterDraws, stopped]

theorem pull_cases {run : Combinations} (filled : ∀ slot ∈ run.prepared.slots, slot.pool ≠ [])
    {choices : List (List Nat)} {left : Nat} (draws : Draws)
    (unspent : ¬ run.Spent choices left) :
    ∃ attempts rest later, attempts + rest = left ∧
      ((run.afterDraws choices left draws).pull = (none, run.afterDraws choices rest later) ∧
          run.Spent choices rest ∧
          later.used = draws.used + attempts * run.prepared.slots.length ∨
        ∃ choice seed,
          (run.afterDraws choices left draws).pull =
            (some (combinationOf run.prepared run.separator choices.length seed choice),
              run.afterDraws (choice :: choices) rest later) ∧
          run.seeds.Gives choices.length seed ∧ 0 < attempts ∧
          Odometer.Within (Slot.poolSizes run.prepared.slots) choice ∧
          run.remembered choice ∉ choices.map run.remembered ∧
          later.used = draws.used + attempts * run.prepared.slots.length +
            seedDraws run.seeds.mode 1) := by
  have incomplete : (run.afterDraws choices left draws).isComplete = false := by
    rw [← Bool.not_eq_true, after_draws_complete]
    exact fun enough => unspent (.inl enough)
  obtain ⟨attempts, rest, later, split, used, outcome⟩ := search_cases filled
    (Slot.byName run.prepared.slots) (Slot.randomSpace run.prepared.slots)
    (choices.map run.remembered) draws left
  rcases outcome with ⟨searched, stopped⟩ | ⟨choice, searched, progress, within, fresh⟩
  · have missed : (run.afterDraws choices left draws).choose =
        (none, run.afterDraws choices rest later) := by
      simp only [choose, afterDraws, searched]
    refine ⟨attempts, rest, later, split, .inl ⟨?_, .inr ?_, used⟩⟩
    · simp only [pull, incomplete, Bool.false_eq_true, if_false, missed]
    · rwa [List.length_map] at stopped
  · have found : (run.afterDraws choices left draws).choose =
        (some choice, { run.afterDraws (choice :: choices) rest later with
          emitted := choices.length }) := by
      simp only [choose, afterDraws, searched]
      rfl
    obtain ⟨seed, gives, pulled⟩ := pull_found incomplete found
    refine ⟨attempts, rest, _, split, .inr ⟨choice, seed, pulled, gives, progress, within, fresh, ?_⟩⟩
    rw [seed_for_used]
    exact congrArg (· + seedDraws run.seeds.mode 1) used

def attemptsLeft (run : Combinations) : Nat :=
  match run.strategy with
  | .drawn _ _ left _ => left
  | _ => 0

/-- The attempts made and those left make up the budget; every output took one at least, and every
one drew once for each slot. -/
def Balanced (run : Combinations) (budget : Nat) (later : Combinations) : Prop :=
  ∃ attempts, attempts + later.attemptsLeft = budget ∧ later.emitted ≤ attempts ∧
    later.draws.used = run.draws.used + attempts * run.prepared.slots.length +
      seedDraws run.seeds.mode later.emitted

/-- A pull keeps the balance, whether it made a choice or none. -/
theorem balanced_after {run : Combinations} {budget left attempts rest : Nat}
    {choices more : List (List Nat)} {draws later : Draws}
    (balance : run.Balanced budget (run.afterDraws choices left draws))
    (divided : attempts + rest = left) (progress : more.length ≤ attempts)
    (drew : later.used = draws.used + attempts * run.prepared.slots.length +
      seedDraws run.seeds.mode more.length) :
    run.Balanced budget (run.afterDraws (more ++ choices) rest later) := by
  obtain ⟨before, split, took, used⟩ := balance
  change before + left = budget at split
  change choices.length ≤ before at took
  change draws.used = run.draws.used + before * run.prepared.slots.length +
    seedDraws run.seeds.mode choices.length at used
  refine ⟨before + attempts, ?_, ?_, ?_⟩
  · change before + attempts + rest = budget
    omega
  · change (more ++ choices).length ≤ before + attempts
    rw [List.length_append]
    omega
  · change later.used = _ + seedDraws run.seeds.mode (more ++ choices).length
    rw [drew, used, Nat.add_mul, List.length_append, seed_draws_add]
    omega

/-- A run whose first pulls made some choices, newest first. -/
structure DrawnTo (run : Combinations) (budget : Nat) (choices : List (List Nat)) : Prop where
  reached : ∃ left draws, run.afterPulls choices.length = run.afterDraws choices left draws
  within : ∀ choice ∈ choices, Odometer.Within (Slot.poolSizes run.prepared.slots) choice
  fresh : (choices.map run.remembered).Nodup
  wanted : ∀ target, run.target = some target → choices.length ≤ target
  outputs : ∀ index choice, choices.reverse[index]? = some choice → ∃ seed,
    run.seeds.Gives index seed ∧
      run.output? index = some (combinationOf run.prepared run.separator index seed choice)
  balanced : ∀ count ≤ choices.length, run.Balanced budget (run.afterPulls count)

/-- A run that made some choices and then gave nothing. -/
structure StoppedAt (run : Combinations) (budget : Nat) (choices : List (List Nat)) : Prop where
  made : run.DrawnTo budget choices
  nothing : run.output? choices.length = none
  spent : ∃ left draws, run.afterPulls (choices.length + 1) = run.afterDraws choices left draws ∧
    run.Spent choices left
  balanced : run.Balanced budget (run.afterPulls (choices.length + 1))

theorem DrawnTo.outputs_cons {run : Combinations} {budget seed : Nat} {choices : List (List Nat)}
    {choice : List Nat} (made : run.DrawnTo budget choices)
    (gives : run.seeds.Gives choices.length seed)
    (output : run.output? choices.length =
      some (combinationOf run.prepared run.separator choices.length seed choice)) :
    ∀ index other, (choice :: choices).reverse[index]? = some other → ∃ seed,
      run.seeds.Gives index seed ∧
        run.output? index = some (combinationOf run.prepared run.separator index seed other) := by
  intro index other placed
  rw [List.reverse_cons] at placed
  by_cases old : index < choices.length
  · rw [List.getElem?_append_left (by rwa [List.length_reverse])] at placed
    exact made.outputs index other placed
  · have last : index = choices.length := by
      have inside := (List.getElem?_eq_some_iff.mp placed).1
      rw [List.length_append, List.length_reverse, List.length_singleton] at inside
      omega
    subst last
    rw [List.getElem?_append_right (by rw [List.length_reverse]), List.length_reverse,
      Nat.sub_self] at placed
    obtain rfl : choice = other := Option.some.inj placed
    exact ⟨seed, gives, output⟩

theorem drawn_step {run : Combinations} (filled : ∀ slot ∈ run.prepared.slots, slot.pool ≠ [])
    {budget : Nat} {choices : List (List Nat)} (made : run.DrawnTo budget choices) :
    (∃ choice, run.DrawnTo budget (choice :: choices)) ∨ run.StoppedAt budget choices := by
  obtain ⟨left, draws, reached⟩ := made.reached
  have balance := made.balanced choices.length (Nat.le_refl _)
  by_cases spent : run.Spent choices left
  · have pulled := pull_spent draws spent
    refine .inr ⟨made, ?_, ⟨left, draws, ?_, spent⟩, ?_⟩
    · rw [output?, reached, pulled]
    · rw [afterPulls, reached, pulled]
    · rw [afterPulls, reached, pulled, ← reached]
      exact balance
  · rw [reached] at balance
    obtain ⟨attempts, rest, later, divided, outcome⟩ := pull_cases filled draws spent
    rcases outcome with ⟨pulled, stopped, drew⟩ | ⟨choice, seed, pulled, gives, progress, outcome⟩
    · have next : run.afterPulls (choices.length + 1) = run.afterDraws choices rest later := by
        rw [afterPulls, reached, pulled]
      refine .inr ⟨made, ?_, ⟨rest, later, next, stopped⟩, ?_⟩
      · rw [output?, reached, pulled]
      · have none : later.used = draws.used + attempts * run.prepared.slots.length +
            seedDraws run.seeds.mode ([] : List (List Nat)).length := by
          rw [drew, List.length_nil]
          cases run.seeds.mode <;> rfl
        rw [next]
        exact balanced_after balance divided (Nat.zero_le _) none
    · obtain ⟨within, fresh, drew⟩ := outcome
      have next : run.afterPulls (choices.length + 1) =
          run.afterDraws (choice :: choices) rest later := by
        rw [afterPulls, reached, pulled]
      refine .inl ⟨choice, ⟨⟨rest, later, next⟩, ?_, ?_, ?_, ?_, ?_⟩⟩
      · exact List.forall_mem_cons.mpr ⟨within, made.within⟩
      · exact List.nodup_cons.mpr ⟨fresh, made.fresh⟩
      · intro target wanted
        have short : ¬ target ≤ choices.length := fun enough => spent (.inl ⟨target, wanted, enough⟩)
        exact Nat.lt_of_not_le short
      · exact made.outputs_cons gives (by rw [output?, reached, pulled])
      · intro count inside
        rcases Nat.lt_or_eq_of_le inside with earlier | rfl
        · exact made.balanced count (Nat.le_of_lt_succ earlier)
        · have one : run.Balanced budget (run.afterDraws ([choice] ++ choices) rest later) :=
            balanced_after balance divided progress drew
          rw [List.length_cons, next]
          exact one

theorem drawn_initially {run : Combinations} {budget : Nat}
    (started : run = run.afterDraws [] budget run.draws) : run.DrawnTo budget [] where
  reached := ⟨budget, run.draws, started⟩
  within _ member := nomatch member
  fresh := List.nodup_nil
  wanted _ _ := Nat.zero_le _
  outputs _ _ placed := nomatch placed
  balanced := by
    intro count inside
    obtain rfl : count = 0 := Nat.eq_zero_of_le_zero inside
    have untouched : run.attemptsLeft = budget := by
      rw [started]
      rfl
    have silent : run.emitted = 0 := congrArg Combinations.emitted started
    refine ⟨0, by rw [afterPulls, untouched, Nat.zero_add], Nat.le_of_eq silent, ?_⟩
    rw [afterPulls, silent, Nat.zero_mul]
    cases run.seeds.mode <;> rfl

theorem drawn_until_stopped {run : Combinations}
    (filled : ∀ slot ∈ run.prepared.slots, slot.pool ≠ []) {budget target : Nat}
    (limited : run.target = some target) {choices : List (List Nat)}
    (made : run.DrawnTo budget choices) : ∃ all, run.StoppedAt budget all := by
  -- the induction is on the outputs that are still wanted
  induction missing : target - choices.length generalizing choices with
  | zero =>
      rcases drawn_step filled made with ⟨choice, more⟩ | stopped
      · have enough := more.wanted target limited
        rw [List.length_cons] at enough
        omega
      · exact ⟨choices, stopped⟩
  | succ missing ih =>
      rcases drawn_step filled made with ⟨choice, more⟩ | stopped
      · apply ih more
        rw [List.length_cons]
        omega
      · exact ⟨choices, stopped⟩

theorem start_drawn {prepared : Prepared} {generation : Generation} (defaults : Defaults)
    (draws : Draws) (drawn : generation.mode = .random)
    (filled : ∀ slot ∈ prepared.slots, slot.pool ≠ []) :
    let wanted := generation.maxImages.getD defaults.maxImages
    let run := start prepared generation defaults draws
    run = run.afterDraws [] (attemptBudget wanted defaults.attemptFactor) run.draws ∧
      run.target = some wanted := by
  have planned : plan prepared.slots generation defaults =
      (.drawn [] (Slot.byName prepared.slots)
        (attemptBudget (generation.maxImages.getD defaults.maxImages) defaults.attemptFactor)
        (Slot.randomSpace prepared.slots), some (generation.maxImages.getD defaults.maxImages)) := by
    unfold plan
    rw [none_empty filled, drawn]
    rfl
  constructor
  · simp only [start, afterDraws, planned]
    rfl
  · simp only [start, planned]

theorem pull_first {run : Combinations} {left : Nat} (draws : Draws)
    (unspent : ¬ run.Spent [] left) : (run.afterDraws [] left draws).pull.1 ≠ none := by
  have incomplete : (run.afterDraws [] left draws).isComplete = false := by
    rw [← Bool.not_eq_true, after_draws_complete]
    exact fun enough => unspent (.inl enough)
  have attempts : 0 < left := Nat.pos_of_ne_zero fun none => unspent (.inr (.inl none))
  have room : 0 < Slot.randomSpace run.prepared.slots :=
    Nat.lt_of_not_le fun none => unspent (.inr (.inr none))
  have found := search_first run.prepared.slots (Slot.byName run.prepared.slots) draws room attempts
  rcases searched : search run.prepared.slots (Slot.byName run.prepared.slots)
    (Slot.randomSpace run.prepared.slots) [] draws left with ⟨choice, made, rest, later⟩
  rw [searched] at found
  obtain ⟨choice, rfl⟩ := Option.ne_none_iff_exists'.mp found
  have chosen : (run.afterDraws [] left draws).choose.1 = some choice := by
    simp only [choose, afterDraws, List.map_nil, searched]
  rcases outcome : (run.afterDraws [] left draws).choose with ⟨result, after⟩
  rw [outcome] at chosen
  obtain rfl : result = some choice := chosen
  simp only [pull, incomplete, Bool.false_eq_true, if_false, outcome]
  exact Option.some_ne_none _

section Stopped

variable {run : Combinations} {budget : Nat} {choices : List (List Nat)}

theorem StoppedAt.settled (stopped : run.StoppedAt budget choices) {count : Nat}
    (behind : choices.length < count) :
    run.afterPulls count = run.afterPulls (choices.length + 1) := by
  obtain ⟨left, draws, reached, spent⟩ := stopped.spent
  apply after_pulls_settled _ behind
  rw [reached, pull_spent draws spent]

theorem StoppedAt.nothing_behind (stopped : run.StoppedAt budget choices) {index : Nat}
    (behind : choices.length ≤ index) : run.output? index = none := by
  rcases Nat.lt_or_eq_of_le behind with later | rfl
  · obtain ⟨left, draws, reached, spent⟩ := stopped.spent
    rw [output?, stopped.settled later, reached, pull_spent draws spent]
  · exact stopped.nothing

theorem DrawnTo.length_le_budget (made : run.DrawnTo budget choices) :
    choices.length ≤ budget := by
  obtain ⟨left, draws, reached⟩ := made.reached
  obtain ⟨attempts, split, took, _⟩ := made.balanced choices.length (Nat.le_refl _)
  rw [reached] at took
  change choices.length ≤ attempts at took
  omega

theorem DrawnTo.distinct (made : run.DrawnTo budget choices) : choices.Nodup :=
  List.Nodup.of_map _ made.fresh

/-- A run that made as many choices as there are made every one. The capped number of choices is exact
here, since no run makes more than a 64-bit word of them. -/
theorem DrawnTo.complete (made : run.DrawnTo budget choices) (word : budget ≤ Text.maxWord64)
    (full : Slot.randomSpace run.prepared.slots ≤ choices.length) {choice : List Nat}
    (within : Odometer.Within (Slot.poolSizes run.prepared.slots) choice) : choice ∈ choices := by
  have capped := Slot.random_space_eq run.prepared.slots
  have words : Text.maxWord64 < Text.maxWord128 := by decide
  have small := made.length_le_budget
  have whole : (Slot.poolSizes run.prepared.slots).prod ≤ choices.length := by omega
  exact Odometer.combinations_exhausted made.within made.distinct whole within

theorem DrawnTo.emitted (made : run.DrawnTo budget choices) {choice : List Nat}
    (member : choice ∈ choices) :
    ∃ index < choices.length, ∃ seed, run.output? index =
      some (combinationOf run.prepared run.separator index seed choice) := by
  obtain ⟨index, placed⟩ := List.mem_iff_getElem?.mp (List.mem_reverse.mpr member)
  obtain ⟨seed, _, output⟩ := made.outputs index choice placed
  have inside := (List.getElem?_eq_some_iff.mp placed).1
  rw [List.length_reverse] at inside
  exact ⟨index, inside, seed, output⟩

/-- Two outputs differ in some key, since their choices are remembered differently. -/
theorem DrawnTo.keys_differ (made : run.DrawnTo budget choices)
    (named : (run.prepared.slots.map Slot.name).Nodup) {earlier later : Nat}
    (before : earlier < later) (inside : later < choices.length) {first second : Combination}
    (firstOut : run.output? earlier = some first) (secondOut : run.output? later = some second) :
    ∃ name, first.keyOf name ≠ second.keyOf name := by
  have laterPlaced := List.getElem?_eq_getElem (by rwa [List.length_reverse] : later <
    choices.reverse.length)
  have earlierPlaced := List.getElem?_eq_getElem (by rw [List.length_reverse]; omega : earlier <
    choices.reverse.length)
  obtain ⟨_, _, firstMade⟩ := made.outputs earlier _ earlierPlaced
  obtain ⟨_, _, secondMade⟩ := made.outputs later _ laterPlaced
  obtain rfl : first = _ := Option.some.inj (firstOut.symm.trans firstMade)
  obtain rfl : second = _ := Option.some.inj (secondOut.symm.trans secondMade)
  by_contra alike
  have same := choice_key_eq named
    (made.within _ (List.mem_reverse.mp (List.mem_of_getElem? earlierPlaced)))
    (made.within _ (List.mem_reverse.mp (List.mem_of_getElem? laterPlaced)))
    (fun name => not_not.mp fun differ => alike ⟨name, differ⟩)
    (Slot.byName run.prepared.slots)
  have once : (choices.reverse.map run.remembered).Nodup := by
    rw [List.map_reverse, List.nodup_reverse]
    exact made.fresh
  have shared : (choices.reverse.map run.remembered)[earlier]? =
      (choices.reverse.map run.remembered)[later]? := by
    rw [List.getElem?_map, List.getElem?_map, earlierPlaced, laterPlaced]
    exact congrArg some same
  have bound : earlier < (choices.reverse.map run.remembered).length := by
    rw [List.length_map, List.length_reverse]
    omega
  exact Nat.ne_of_lt before ((List.getElem?_inj bound once).mp shared)

/-- Why a run gave nothing. In the last case there are as many distinct choices as there can be, so
none is left. -/
theorem StoppedAt.reason (stopped : run.StoppedAt budget choices) {wanted : Nat}
    (limited : run.target = some wanted) (word : budget ≤ Text.maxWord64) :
    choices.length = wanted ∨
      (∀ count > choices.length, (run.afterPulls count).attemptsLeft = 0) ∨
      ∀ choice, Odometer.Within (Slot.poolSizes run.prepared.slots) choice →
        ∃ index < choices.length, ∃ seed, run.output? index =
          some (combinationOf run.prepared run.separator index seed choice) := by
  have made := stopped.made
  obtain ⟨left, last, reached, spent⟩ := stopped.spent
  rcases spent with ⟨target, limit, full⟩ | rfl | full
  · obtain rfl : wanted = target := Option.some.inj (limited.symm.trans limit)
    exact .inl (Nat.le_antisymm (made.wanted wanted limited) full)
  · refine .inr (.inl fun count behind => ?_)
    rw [stopped.settled behind, reached]
    rfl
  · refine .inr (.inr fun choice within => ?_)
    exact made.emitted (made.complete word full within)

theorem StoppedAt.some_made (stopped : run.StoppedAt budget choices)
    (filled : ∀ slot ∈ run.prepared.slots, slot.pool ≠ [])
    (started : run = run.afterDraws [] budget run.draws) {wanted : Nat}
    (limited : run.target = some wanted) (someWanted : 1 ≤ wanted) (someTried : 1 ≤ budget) :
    1 ≤ choices.length := by
  by_contra nothing
  obtain rfl : choices = [] := List.length_eq_zero_iff.mp (Nat.lt_one_iff.mp
    (Nat.lt_of_not_le nothing))
  have unspent : ¬ run.Spent [] budget := by
    rintro (⟨target, limit, full⟩ | none | none)
    · obtain rfl : wanted = target := Option.some.inj (limited.symm.trans limit)
      exact Nat.not_lt_of_le full someWanted
    · exact Nat.ne_of_gt someTried none
    · have capped := Slot.random_space_eq run.prepared.slots
      have positive : 0 < (Slot.poolSizes run.prepared.slots).prod :=
        Odometer.product_pos (Slot.pool_sizes_pos filled)
      have largest : 0 < Text.maxWord128 := by decide
      rw [List.length_nil] at none
      omega
  have given := pull_first run.draws unspent
  rw [← started] at given
  exact given stopped.nothing

end Stopped

/-- Random generation with distinct names and nothing empty. The outputs have indexes counting up
from zero and are pairwise different in some key; they are no more than were wanted, than there are
choices and than there were attempts. A pull gives nothing only when one of these is used up, and
gives nothing from then on. -/
theorem drawn_run_outputs (prepared : Prepared) (generation : Generation) (defaults : Defaults)
    (draws : Draws) (drawn : generation.mode = .random)
    (named : (prepared.slots.map Slot.name).Nodup)
    (filled : ∀ slot ∈ prepared.slots, slot.pool ≠ []) :
    let wanted := generation.maxImages.getD defaults.maxImages
    let budget := min (wanted * defaults.attemptFactor) Text.maxWord64
    let space := (Slot.poolSizes prepared.slots).prod
    let run := start prepared generation defaults draws
    (∃ total ≤ min wanted (min space budget),
      (∀ index < total, ∃ choice seed,
        Odometer.Within (Slot.poolSizes prepared.slots) choice ∧
        run.output? index =
          some (combinationOf prepared defaults.separator index seed choice)) ∧
      (∀ index ≥ total, run.output? index = none) ∧
      (total = wanted ∨ (∀ count > total, (run.afterPulls count).attemptsLeft = 0) ∨
        ∀ choice, Odometer.Within (Slot.poolSizes prepared.slots) choice →
          ∃ index < total, ∃ seed, run.output? index =
            some (combinationOf prepared defaults.separator index seed choice)) ∧
      (1 ≤ wanted → 1 ≤ defaults.attemptFactor → 1 ≤ total)) ∧
    (∀ earlier later first second, earlier < later → run.output? earlier = some first →
      run.output? later = some second → ∃ name, first.keyOf name ≠ second.keyOf name) ∧
    ∀ count, run.Balanced budget (run.afterPulls count) := by
  intro wanted budget space run
  have started : run = run.afterDraws [] budget run.draws :=
    (start_drawn defaults draws drawn filled).1
  have limited : run.target = some wanted := (start_drawn defaults draws drawn filled).2
  obtain ⟨choices, stopped⟩ := drawn_until_stopped filled limited (drawn_initially started)
  have made := stopped.made
  have enough : choices.length ≤ wanted := made.wanted wanted limited
  have inSpace : choices.length ≤ space :=
    Odometer.combinations_length_le made.within made.distinct
  refine ⟨⟨choices.length, ?_, ?_, ?_, ?_, ?_⟩, ?_, ?_⟩
  · exact Nat.le_min.mpr ⟨enough, Nat.le_min.mpr ⟨inSpace, made.length_le_budget⟩⟩
  · intro index inside
    have placed := List.getElem?_eq_getElem (by rwa [List.length_reverse] : index <
      choices.reverse.length)
    obtain ⟨seed, _, output⟩ := made.outputs index _ placed
    have member := List.mem_reverse.mp (List.mem_of_getElem? placed)
    exact ⟨_, seed, made.within _ member, output⟩
  · intro index behind
    exact stopped.nothing_behind behind
  · exact stopped.reason limited (Nat.min_le_right ..)
  · intro someWanted someTried
    have product : 0 < wanted * defaults.attemptFactor := Nat.mul_pos someWanted someTried
    have largest : 0 < Text.maxWord64 := by decide
    exact stopped.some_made filled started limited someWanted (Nat.le_min.mpr ⟨product, largest⟩)
  · intro earlier later first second before firstOut secondOut
    have inside : later < choices.length := by
      by_contra behind
      rw [stopped.nothing_behind (Nat.le_of_not_lt behind)] at secondOut
      exact nomatch secondOut
    exact made.keys_differ named before inside firstOut secondOut
  · intro count
    by_cases inside : count ≤ choices.length
    · exact made.balanced count inside
    · rw [stopped.settled (Nat.lt_of_not_le inside)]
      exact stopped.balanced

theorem crossed_loops_drawn :
    let generation : Generation := ⟨.random, some 7, .random, some 20⟩
    let run := start crossedLoops generation .standard (.seeded 3)
    generation.mode = .random ∧ (crossedLoops.slots.map Slot.name).Nodup ∧
    (∀ slot ∈ crossedLoops.slots, slot.pool ≠ []) ∧
    run.output? 0 ≠ none ∧ run.output? 12 = none := by
  intro generation run
  have named : (crossedLoops.slots.map Slot.name).Nodup := by decide
  have filled : ∀ slot ∈ crossedLoops.slots, slot.pool ≠ [] := by decide
  obtain ⟨⟨total, bound, given, nothing, _, first⟩, _⟩ :=
    drawn_run_outputs crossedLoops generation .standard (.seeded 3) rfl named filled
  have atMost : total ≤ 12 := Nat.le_trans bound (by decide)
  have some : 1 ≤ total := first (by decide) (by decide)
  refine ⟨rfl, named, filled, ?_, nothing 12 atMost⟩
  obtain ⟨choice, seed, _, output⟩ := given 0 some
  rw [output]
  exact Option.some_ne_none _

end Combinations

end PromptLoom
